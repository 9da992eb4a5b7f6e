import TopicLint.Markup
import TopicLint.Severity

/-! Colours on a terminal. A painted text stands between two control sequences; without colours it
stays as it is. -/

namespace TopicLint

/-- The display attributes of a painted text. -/
inductive Ink where
  | bold
  | dimmed
  | underline
  | cyan
  | boldRed
  | boldYellow
  deriving DecidableEq, Repr

namespace Ink

/-- The control sequence that ends every painted text. -/
def reset : List Char := "\x1b[0m".toList

/-- The control sequence that starts a text of this ink. -/
def start : Ink → List Char
  | bold => "\x1b[1m".toList
  | dimmed => "\x1b[2m".toList
  | underline => "\x1b[4m".toList
  | cyan => "\x1b[36m".toList
  | boldRed => "\x1b[1;31m".toList
  | boldYellow => "\x1b[1;33m".toList

/-- Starts the ink again behind every reset inside a text. -/
def resume (ink : Ink) : List Char → List Char
  | [] => []
  | c :: rest =>
      if reset.isPrefixOf (c :: rest) then reset ++ ink.start ++ resume ink (rest.drop 3)
      else c :: resume ink rest
  termination_by text => text.length

/-- Fills a text with blanks on its left up to a width. -/
def padLeft (width : Nat) (text : List Char) : List Char :=
  List.replicate (width - text.length) ' ' ++ text

/-- Fills a text with blanks on its right up to a width. -/
def padRight (width : Nat) (text : List Char) : List Char :=
  text ++ List.replicate (width - text.length) ' '

/-- Paints a text if colours are on. What `shape` adds stands inside the control sequences. -/
def paint (ink : Ink) (colour : Bool) (text : String) (shape : List Char → List Char := id) :
    String :=
  String.ofList <|
    if colour then ink.start ++ shape (ink.resume text.toList) ++ reset else shape text.toList

end Ink

def Severity.ink : Severity → Ink
  | error => .boldRed
  | warning => .boldYellow

def Markup.Style.ink? : Markup.Style → Option Ink
  | .plain => none
  | .bold => some .bold
  | .code => some .cyan

def Markup.rendered (colour : Bool) (message : String) : String :=
  String.join <| (Markup.parse message).map fun span =>
    match span.style.ink? with
    | none => String.ofList span.text
    | some ink => ink.paint colour (String.ofList span.text)

end TopicLint
