/-!
# Terminal control sequences

A text for a terminal may hold control sequences, which colour the text or move the cursor. Where
the text goes to a stream that is no terminal, the sequences are left out, and so are control
characters other than blanks. A sequence starts with an escape character; what follows decides how
far it goes.
-/

namespace CallLayout.Terminal

/-- The control sequence that a text stands in. -/
inductive Sequence where
  /-- No sequence. -/
  | none
  /-- An escape character has come. -/
  | escape
  /-- A sequence of an escape character that goes on to a character that is no punctuation. -/
  | intermediate
  /-- A sequence with parameters that goes on to a letter. -/
  | control
  /-- A device string before its parameters. -/
  | deviceEntry
  /-- A device string in its parameters. -/
  | deviceParameters
  /-- A device string after its parameters. -/
  | deviceIntermediate
  /-- A string that goes on to the byte of a string terminator. -/
  | string
  /-- An operating system command, which goes on to a bell character. -/
  | command
  deriving DecidableEq, Repr

/-- A character of the ASCII range from `first` to `last`. -/
def inRange (first last : Nat) (c : Char) : Bool :=
  first ≤ c.toNat && c.toNat ≤ last

/-- A control character that is a blank: a tab, a line feed, a form feed or a carriage return. -/
def isBlankControl (c : Char) : Bool :=
  c = '\t' || c = '\n' || c = '\x0c' || c = '\r'

/-- A character outside of ASCII. -/
def isExtended (c : Char) : Bool :=
  128 ≤ c.toNat

/-- A character that shows outside of sequences. -/
def isPlain (c : Char) : Bool :=
  isExtended c || inRange 32 126 c || isBlankControl c

/-- The encoding of a character holds the byte of a string terminator. -/
def holdsTerminator (c : Char) : Bool :=
  isExtended c && (String.utf8EncodeChar c).contains 0x9C

namespace Sequence

/-- The sequence after a character that follows an escape character. -/
def afterEscape (c : Char) : Sequence :=
  if inRange 0x20 0x2F c then .intermediate
  else if c = '[' then .control
  else if c = ']' then .command
  else if c = 'P' then .deviceEntry
  else if c = 'X' ∨ c = '^' ∨ c = '_' then .string
  else if inRange 0x30 0x7E c then .none
  else .escape

/-- The sequence after a character of a device string before its text. -/
def afterDevice (s : Sequence) (c : Char) : Sequence :=
  if inRange 0x20 0x2F c then .deviceIntermediate
  else if inRange 0x40 0x7E c then .string
  else if inRange 0x30 0x3F c then
    match s with
    | .deviceEntry => .deviceParameters
    | .deviceParameters => if inRange 0x3C 0x3F c then .string else .deviceParameters
    | _ => .string
  else s

/-- The sequence after a character that does not show. A cancel or substitute character ends
every sequence, and an escape character starts a new one. -/
def next (s : Sequence) (c : Char) : Sequence :=
  if c = '\x18' ∨ c = '\x1a' then .none
  else if c = '\x1b' then .escape
  else
    match s with
    | .none => .none
    | .escape => afterEscape c
    | .intermediate => if inRange 0x30 0x7E c then .none else .intermediate
    | .control => if inRange 0x40 0x7E c then .none else .control
    | .string => if holdsTerminator c then .none else .string
    | .command => if c = '\x07' then .none else .command
    | s => afterDevice s c

/-- A character that shows although it stands in a sequence, or stands in none. -/
def shows (s : Sequence) (c : Char) : Bool :=
  match s with
  | .none => isPlain c
  | .escape | .intermediate | .control => isBlankControl c
  | _ => false

end Sequence

/-- What shows of a text that stands in a sequence. A blank control character in a sequence holds
the sequence up: what follows shows too, up to the next character that does not show outside of
sequences. -/
def visibleFrom (showing : Bool) (s : Sequence) : List Char → List Char
  | [] => []
  | c :: rest =>
    if s.shows c || (showing && isPlain c) then
      c :: visibleFrom true (if isExtended c then .none else s) rest
    else visibleFrom false (s.next c) rest

/-- What shows of a text on a stream that is no terminal. -/
def visible (text : String) : String :=
  String.ofList (visibleFrom false .none text.toList)

/-- A text between the sequence for a style and the one that ends all styles. -/
def styled (style text : String) : String :=
  "\x1b[" ++ style ++ "m" ++ text ++ "\x1b[0m"

/-- A text in bold. -/
def bold (text : String) : String :=
  styled "1" text

/-- A text in yellow. -/
def yellow (text : String) : String :=
  styled "33" text

/-- A text in bold red. -/
def boldRed (text : String) : String :=
  styled "1" (styled "31" text)

end CallLayout.Terminal
