import CallLayout.Convention.Frame
import CallLayout.Convention.Session
import CallLayout.Convention.Stack
import CallLayout.Convention.TwoRegister
import CallLayout.Machine.Session
import CallLayout.Main
import CallLayout.Proofs.Aapcs32.Alignment
import CallLayout.Proofs.Aapcs32.Monotonicity
import CallLayout.Proofs.Aapcs32.Overflow
import CallLayout.Proofs.Aapcs32.Storage
import CallLayout.Proofs.CommandLine.Layout
import CallLayout.Proofs.Composition
import CallLayout.Proofs.Frame
import CallLayout.Proofs.Machine.Formatting
import CallLayout.Proofs.Machine.RoundTrip
import CallLayout.Proofs.Machine.Store
import CallLayout.Proofs.Report.Json
import CallLayout.Proofs.Report.MemoryResult
import CallLayout.Proofs.Report.RegisterNames
import CallLayout.Proofs.Rounding.Modular
import CallLayout.Proofs.Stack
import CallLayout.Proofs.TwoRegister
import CallLayout.Proofs.TypeName.Delimiter
import CallLayout.Proofs.TypeName.Expression
