/-!
# Lines and pieces

A text is cut into lines at line feeds, and into pieces at any other separator. A carriage
return right before a line feed belongs to the line end; one that stands elsewhere is an
ordinary character.
-/

namespace CallLayout.Text

/-- Puts a character in front of the first of several pieces; without a piece it makes one. -/
def consFirst (c : Char) : List (List Char) → List (List Char)
  | [] => [[c]]
  | piece :: pieces => (c :: piece) :: pieces

/-- The lines of a text. What follows the last line feed is a line only if it is not empty. -/
def lines : List Char → List (List Char)
  | [] => []
  | '\n' :: rest => [] :: lines rest
  | '\r' :: '\n' :: rest => [] :: lines rest
  | c :: rest => consFirst c (lines rest)

/-- The pieces between the separators of a text; there is one more of them than separators. -/
def pieces (separator : Char) : List Char → List (List Char)
  | [] => [[]]
  | c :: rest =>
    if c = separator then [] :: pieces separator rest else consFirst c (pieces separator rest)

/-- The text before and after the first separator, if there is one. -/
def cut? (separator : Char) : List Char → Option (List Char × List Char)
  | [] => none
  | c :: rest =>
    if c = separator then some ([], rest)
    else (cut? separator rest).map fun parts => (c :: parts.1, parts.2)

/-- What remains of a text after a given beginning, if it begins so. -/
def dropBeginning? : List Char → List Char → Option (List Char)
  | [], s => some s
  | _ :: _, [] => none
  | b :: beginning, c :: s => if b = c then dropBeginning? beginning s else none

/-- The texts one after the other with a separator between neighbours. -/
def join (separator : String) : List String → String
  | [] => ""
  | [s] => s
  | s :: next :: rest => s ++ separator ++ join separator (next :: rest)

/-- The text followed by as many spaces as it is short of a width, counted in characters. -/
def padEnd (width : Nat) (s : String) : String :=
  s ++ String.ofList (List.replicate (width - s.toList.length) ' ')

/-- The first line of a text, without its line end. -/
def firstLine (s : String) : String :=
  String.ofList ((lines s.toList).headD [])

end CallLayout.Text
