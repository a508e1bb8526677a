import CallLayout.Text.Line
import CallLayout.Text.Numeral

/-!
# JSON text

JSON values without fractions and signs, and their indented text: two spaces for each level, one
item or field on a line, and nothing between the brackets of an empty list or object.
-/

namespace CallLayout

/-- A JSON value. -/
inductive Json where
  /-- The value that stands for nothing. -/
  | null
  /-- A natural number. -/
  | number (n : Nat)
  /-- A text. -/
  | text (s : String)
  /-- A list of values. -/
  | list (items : List Json)
  /-- An object with its fields in the order in which they are written. -/
  | object (fields : List (String × Json))

namespace Json

/-- The hexadecimal digit of a value below sixteen, in lower case. -/
def hexDigit (n : Nat) : Char :=
  if n < 10 then Char.ofNat (48 + n) else Char.ofNat (87 + n)

/-- A character as it stands between the quotes of a JSON text. -/
def escape (c : Char) : List Char :=
  match c with
  | '"' => ['\\', '"']
  | '\\' => ['\\', '\\']
  | '\n' => ['\\', 'n']
  | '\r' => ['\\', 'r']
  | '\t' => ['\\', 't']
  | '\x08' => ['\\', 'b']
  | '\x0c' => ['\\', 'f']
  | c =>
    if c.toNat < 32 then
      ['\\', 'u', '0', '0', hexDigit (c.toNat / 16), hexDigit (c.toNat % 16)]
    else [c]

/-- A text between quotes. -/
def quote (s : String) : String :=
  String.ofList ('"' :: (s.toList.flatMap escape ++ ['"']))

/-- The blanks in front of a line of the given level. -/
def indent (level : Nat) : String :=
  String.ofList (List.replicate (2 * level) ' ')

/-- The lines of a list or an object between its brackets, which are at the given level. -/
def bracket (level : Nat) (opening closing : String) (items : List String) : String :=
  if items.isEmpty then opening ++ closing
  else
    opening ++ "\n" ++ Text.join ",\n" (items.map fun item => indent (level + 1) ++ item) ++
      "\n" ++ indent level ++ closing

mutual

/-- The text of a value whose first line is already at the given level. -/
def textAt (level : Nat) : Json → String
  | .null => "null"
  | .number n => Numeral.decimal n
  | .text s => quote s
  | .list items => bracket level "[" "]" (itemTexts (level + 1) items)
  | .object fields => bracket level "\x7b" "\x7d" (fieldTexts (level + 1) fields)

/-- The texts of the items of a list. -/
def itemTexts (level : Nat) : List Json → List String
  | [] => []
  | item :: items => textAt level item :: itemTexts level items

/-- The texts of the fields of an object. -/
def fieldTexts (level : Nat) : List (String × Json) → List String
  | [] => []
  | (key, value) :: fields =>
    (quote key ++ ": " ++ textAt level value) :: fieldTexts level fields

end

/-- The indented text of a value. -/
def pretty (value : Json) : String :=
  textAt 0 value

end Json

end CallLayout
