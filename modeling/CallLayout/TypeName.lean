import CallLayout.Text.Alphanumeric

/-!
# Type names without module paths

A path such as `alloc::string::String` is written by its last part alone. In a whole type, every
path is shortened: what stands before a double colon back to the last character that is no part
of a word is left out, and the double colon with it.
-/

namespace CallLayout.TypeName

/-- A character of the words that paths are made of. -/
def isWordChar (c : Char) : Bool :=
  Text.isAlphanumeric c || c = '_'

/-- Shortens what follows a word that has been read but not written yet: a double colon drops
the word, the end and any other character that is no part of a word write it. -/
def shortenAfter (word : List Char) : List Char → List Char
  | [] => word
  | ':' :: ':' :: rest => shortenAfter [] rest
  | c :: rest =>
    if isWordChar c then shortenAfter (word ++ [c]) rest
    else word ++ c :: shortenAfter [] rest

/-- A type's name with every path shortened to its last part. -/
def shorten (s : List Char) : List Char :=
  shortenAfter [] s

/-- A type's name with every path shortened to its last part. -/
def short (name : String) : String :=
  String.ofList (shorten name.toList)

end CallLayout.TypeName
