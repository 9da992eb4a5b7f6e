/-! Quoted texts in rule files. A text is written between double quotes, with a backslash doubled
and a line break as a backslash and an `n`; a double quote has no written form. -/

namespace TopicLint.Rule.Quoted

def escape : List Char → List Char
  | [] => []
  | '\\' :: rest => '\\' :: '\\' :: escape rest
  | '\n' :: rest => '\\' :: 'n' :: escape rest
  | c :: rest => c :: escape rest

/-- Reads what stands inside quotes. A backslash before any other character stands for itself. -/
def resolve : List Char → List Char
  | '\\' :: '\\' :: rest => '\\' :: resolve rest
  | '\\' :: 'n' :: rest => '\n' :: resolve rest
  | c :: rest => c :: resolve rest
  | [] => []

/-- What stands between two double quotes; a text without both is taken whole. -/
def inner (s : List Char) : List Char :=
  match s with
  | '"' :: rest => if rest.getLast? = some '"' then rest.dropLast else s
  | _ => s

def quote (text : String) : String := String.ofList ('"' :: escape text.toList ++ ['"'])

def unquote (written : String) : String := String.ofList (resolve (inner written.toList))

end TopicLint.Rule.Quoted
