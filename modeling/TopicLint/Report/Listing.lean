import TopicLint.Files.Path
import TopicLint.Report.Paint
import TopicLint.Report.Summary

/-! A report as lines to read: the findings of a file under its name, and the tally at the end. -/

namespace TopicLint

def Context.shown : Context → String
  | excerpt text => "\"" ++ text ++ "\""
  | reference target => "-> " ++ target

def Diagnostic.entry (colour : Bool) (diagnostic : Diagnostic) : String :=
  let position := toString diagnostic.line ++ ":" ++ toString diagnostic.column
  let element := (diagnostic.element.map fun name => "  <" ++ name ++ ">").getD ""
  let context := (diagnostic.context.map fun context =>
    " " ++ Ink.paint .dimmed colour context.shown).getD ""
  "  " ++ Ink.paint .dimmed colour position (Ink.padLeft 7)
    ++ "  " ++ Ink.paint diagnostic.severity.ink colour diagnostic.severity.name (Ink.padRight 7)
    ++ "  " ++ Markup.rendered colour diagnostic.message
    ++ element ++ context
    ++ "  " ++ Ink.paint .dimmed colour ("[" ++ diagnostic.source ++ "]") ++ "\n"

namespace Report

def heading (colour : Bool) (base file : String) : String :=
  Ink.paint .underline colour (Path.shown base file) ++ "\n"

/-- The lines of findings. A heading announces each change of file, and a blank line stands before
all headings but the first. `last` is the file of the finding before. -/
def entries (colour : Bool) (base : String) (last : Option String) : List Diagnostic → String
  | [] => ""
  | diagnostic :: rest =>
      let announcement :=
        match last with
        | none => heading colour base diagnostic.file
        | some file =>
            if Path.same file diagnostic.file then ""
            else "\n" ++ heading colour base diagnostic.file
      announcement ++ diagnostic.entry colour ++ entries colour base (some diagnostic.file) rest

/-- The report as lines to read, with paths as they are seen from `base`. -/
def listing (colour : Bool) (base : String) (report : Report) : String :=
  entries colour base none report.diagnostics
    ++ (if report.diagnostics.isEmpty then "" else "\n") ++ report.summary ++ "\n"

end Report

end TopicLint
