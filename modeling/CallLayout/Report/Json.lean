import CallLayout.Report
import CallLayout.Text.Json

/-!
# Reports as JSON

A report as a JSON object, the fields of each object in alphabetical order.
-/

namespace CallLayout

/-- A word as a JSON number. -/
def Json.word (n : UInt64) : Json :=
  .number n.toNat

/-- A range as the list of its start and its end. -/
def Span.json (s : Span) : Json :=
  .list [.word s.start, .word s.stop]

/-- The number of a step's argument; a result has none. -/
def Step.indexJson (s : Step) : Json :=
  match s.index? with
  | some index => .number index
  | none => .null

/-- The layout of a step as a JSON object. -/
def StepLayout.json (s : StepLayout) : Json :=
  .object [
    ("index", s.step.indexJson),
    ("register_names", .list (s.registerNames.map .text)),
    ("registers", s.registers.json),
    ("role", .text s.step.role.name),
    ("stack", s.stack.json),
    ("type", .text s.type)]

/-- A report as a JSON object. -/
def Report.json (r : Report) : Json :=
  .object [
    ("abi", .text r.abi),
    ("final_position", .text r.finalPosition),
    ("registers_used", .word r.registersUsed),
    ("signature", .text r.signature),
    ("stack_used", .word r.stackUsed),
    ("steps", .list (r.steps.map StepLayout.json))]

end CallLayout
