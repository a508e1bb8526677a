import CallLayout.GuestType

/-!
# Signatures

A guest call's argument types and result type, written `fn(i32, GuestPtr) -> i64`. A call that
returns nothing has no arrow.
-/

namespace CallLayout

/-- A guest call's types: its result is of a type in `R`, its arguments are of types in `A`. -/
structure Signature (R A : Type) where
  /-- The type of the result. -/
  result : R
  /-- The types of the arguments, left to right. -/
  arguments : List A
  deriving DecidableEq, Repr

namespace Signature

variable {R A : Type} [GuestType R] [GuestType A]

/-- The part of a signature's written form after the arguments. -/
def resultText (result : String) : String :=
  if result = unitText then "" else " -> " ++ result

/-- The written form of a signature. -/
def text (s : Signature R A) : String :=
  "fn(" ++ Text.join ", " (s.arguments.map GuestType.text) ++ ")" ++
    resultText (GuestType.text s.result)

/-- The argument types written between the parentheses. -/
def readArguments? (inner : List Char) : Option (List A) :=
  if inner.isEmpty then some []
  else (Text.pieces ',' inner).mapM fun piece =>
    GuestType.ofText? (String.ofList (if piece.head? = some ' ' then piece.tail else piece))

/-- The result type written after the parentheses. -/
def readResult? (rest : List Char) : Option R :=
  if rest.isEmpty then GuestType.ofText? unitText
  else (Text.dropBeginning? " -> ".toList rest).bind fun result =>
    GuestType.ofText? (String.ofList result)

/-- The signature of a written form. -/
def ofText? (s : String) : Option (Signature R A) := do
  let inner ← Text.dropBeginning? "fn(".toList s.toList
  let (arguments, rest) ← Text.cut? ')' inner
  let arguments ← readArguments? arguments
  let result ← readResult? rest
  some ⟨result, arguments⟩

end Signature

end CallLayout
