import CallLayout.Error
import CallLayout.Text.Blank

/-!
# Values

The numbers of a machine state and of the command line: decimal, or hexadecimal after `0x` or
`0X`, with underscores anywhere and blanks around.
-/

namespace CallLayout.Value

/-- The number that a text without blanks around it and without underscores denotes. -/
def number? : List Char → Option UInt64
  | '0' :: 'x' :: digits => Numeral.word? 16 digits
  | '0' :: 'X' :: digits => Numeral.word? 16 digits
  | digits => Numeral.word? 10 digits

/-- The value that a text denotes; the blanks around it and its underscores do not count. -/
def ofChars? (text : List Char) : Option UInt64 :=
  number? ((Text.trim text).filter (· ≠ '_'))

/-- Reads a value. The error carries the text without the blanks around it. -/
def read (text : String) : Except Error UInt64 :=
  match ofChars? text.toList with
  | some value => .ok value
  | none => .error (.invalidValue (String.ofList (Text.trim text.toList)))

end CallLayout.Value
