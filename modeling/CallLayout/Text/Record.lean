import CallLayout.Text.Line

/-!
# Records

The text of a named record: its name and its fields in braces, `Name { a: 1, b: 2 }`.
-/

namespace CallLayout.Text

/-- The text of a record with the given name and fields. -/
def record (name : String) (fields : List (String × String)) : String :=
  name ++ " \x7b " ++ join ", " (fields.map fun f => f.1 ++ ": " ++ f.2) ++ " \x7d"

end CallLayout.Text
