/-
  Processor faults.

  Each fault carries what the processor reports with it.  The kernel recovers from none of
  them: the fault's description is the last thing it says.
-/
import PreemptiveKernel.Word

namespace PreemptiveKernel

/-- A fault that the kernel handles, with the words that the processor reports. -/
inductive Fault
  /-- A division by zero, or one whose quotient does not fit. -/
  | divideError (rip : Nat)
  /-- An instruction that does not exist. -/
  | invalidOpcode (rip : Nat)
  /-- A fault in the delivery of a fault. -/
  | doubleFault (code rip rsp : Nat)
  /-- A breach of protection. -/
  | generalProtection (code rip : Nat)
  /-- An access to an address that is not mapped. -/
  | pageFault (code rip address : Nat)
  deriving DecidableEq, Repr

namespace Fault

/-- The sentence that reports a fault; every word is shown in hexadecimal. -/
def message : Fault → String
  | divideError rip => s!"Division Error at RIP={Word.hex rip}"
  | invalidOpcode rip => s!"Invalid Opcode at RIP={Word.hex rip}"
  | doubleFault code rip rsp =>
      s!"Double Fault (error={Word.hex code}) at RIP={Word.hex rip} RSP={Word.hex rsp}"
  | generalProtection code rip =>
      s!"General Protection Fault (error={Word.hex code}) at RIP={Word.hex rip}"
  | pageFault code rip address =>
      s!"Page Fault at RIP={Word.hex rip} addr={Word.hex address} error={Word.hex code}"

end Fault

end PreemptiveKernel
