import TopicLint.Files.Path
import TopicLint.Json.Basic
import TopicLint.Markup
import TopicLint.Report.Basic

/-! A report as a JSON value for other programs. -/

namespace TopicLint

def Context.kind : Context → String
  | excerpt _ => "excerpt"
  | reference _ => "reference"

def Context.text : Context → String
  | excerpt text => text
  | reference target => target

def Context.json (context : Context) : Json :=
  .object [("kind", .text context.kind), ("text", .text context.text)]

/-- A finding as a value, with its file as it is seen from `base`. -/
def Diagnostic.json (base : String) (diagnostic : Diagnostic) : Json :=
  .object <| [
    ("source", .text diagnostic.source),
    ("severity", .text diagnostic.severity.name),
    ("message", .text diagnostic.message),
    ("text", .text (Markup.plain (Markup.parse diagnostic.message))),
    ("file", .text (Path.shown base diagnostic.file)),
    ("line", .number diagnostic.line),
    ("column", .number diagnostic.column)]
    ++ (diagnostic.element.map fun name => ("element", Json.text name)).toList
    ++ (diagnostic.context.map fun context => ("context", context.json)).toList

def Report.json (base : String) (report : Report) : Json :=
  .object [
    ("diagnostics", .list (report.diagnostics.map (Diagnostic.json base))),
    ("summary", .object [
      ("files", .number report.files),
      ("total", .number report.diagnostics.length),
      ("errors", .number (report.count .error)),
      ("warnings", .number (report.count .warning))])]

end TopicLint
