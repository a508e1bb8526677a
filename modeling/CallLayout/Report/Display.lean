import CallLayout.Report

/-!
# The text of a report

The full text has a line for the convention and the signature, one for each step in columns, and
one for the totals. The summary is a single line with a word for each step. In both, registers
are named if all of a step's registers have names, and numbered if not, and `-` stands for a step
that went over nothing.
-/

namespace CallLayout

namespace Span

/-- The text of a range of registers. -/
def text (s : Span) : String :=
  Numeral.ofWord s.start ++ ".." ++ Numeral.ofWord s.stop

/-- The text of a range of stack bytes, as distances from the start of the stack. -/
def offsetText (s : Span) : String :=
  "+" ++ Numeral.ofWord s.start ++ "..+" ++ Numeral.ofWord s.stop

end Span

namespace Step

/-- The label of a step in the full text. -/
def label : Step → String
  | .result => "result"
  | .argument index => "arg " ++ Numeral.decimal index

/-- The label of a step in the summary. -/
def shortLabel : Step → String
  | .result => "result"
  | .argument index => "arg" ++ Numeral.decimal index

end Step

namespace StepLayout

/-- The registers of a step: their names, or else their numbers. -/
def registersText (s : StepLayout) : String :=
  if s.registerNames.isEmpty then s.registers.text else Text.join "," s.registerNames

/-- The columns of a step that tell what it went over. -/
def rangesText (s : StepLayout) : String :=
  if s.isEmpty then " -"
  else
    (if s.registers.isEmpty then "" else " regs " ++ s.registersText) ++
      (if s.stack.isEmpty then "" else " stack " ++ s.stack.offsetText)

/-- The line of a step in the full text. -/
def line (s : StepLayout) : String :=
  "  " ++ Text.padEnd 8 s.step.label ++ " " ++ Text.padEnd 12 s.type ++ s.rangesText

/-- The registers of a step in the summary: their names, or else their numbers. -/
def summaryRegisters (s : StepLayout) : String :=
  if s.registerNames.isEmpty then (if s.registers.isEmpty then "" else s.registers.text)
  else Text.join "," s.registerNames

/-- The stack bytes of a step in the summary, after a comma if registers stand before them. -/
def summaryStack (s : StepLayout) : String :=
  if s.stack.isEmpty then ""
  else (if s.registers.isEmpty then "" else ",") ++ s.stack.offsetText

/-- The word of a step in the summary. -/
def summary (s : StepLayout) : String :=
  s.step.shortLabel ++ ":" ++
    (if s.isEmpty then "-" else s.summaryRegisters ++ s.summaryStack)

end StepLayout

namespace Report

/-- The line of the totals. -/
def totalsText (r : Report) : String :=
  "total: " ++ Numeral.ofWord r.registersUsed ++ " registers, " ++ Numeral.ofWord r.stackUsed ++
    " stack bytes"

/-- The full text of a report, without a line end after the last line. -/
def display (r : Report) : String :=
  Text.join "\n" ((r.abi ++ ": " ++ r.signature) :: r.steps.map StepLayout.line ++ [r.totalsText])

/-- The summary of a report. -/
def summarize (r : Report) : String :=
  Text.join " " (r.steps.map StepLayout.summary)

end Report

end CallLayout
