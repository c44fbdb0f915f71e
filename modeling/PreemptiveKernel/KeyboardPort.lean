/-
  The port of the keyboard controller.

  The controller keeps the bytes that the keyboard has sent.  Its status says whether there
  is one; reading the data takes it out.  The other bits of the status are of no concern
  here and read as they are given.
-/
import PreemptiveKernel.Port
import PreemptiveKernel.Run

namespace PreemptiveKernel

/-- The keyboard controller. -/
structure KeyboardPort where
  /-- The bytes that wait, the oldest first. -/
  buffer : List UInt8
  /-- The bits of the status that say other things. -/
  otherStatus : UInt8
  deriving DecidableEq, Repr

namespace KeyboardPort

/-- The port of the data. -/
def data : UInt16 := 0x60

/-- The port of the status. -/
def command : UInt16 := 0x64

/-- The bit of the status that says that a byte waits. -/
def outputFull : UInt8 := 0x01

/-- The status as it reads. -/
def status (p : KeyboardPort) : UInt8 :=
  if p.buffer.isEmpty then p.otherStatus &&& 0xFE else p.otherStatus ||| outputFull

/-- Reads a byte if one waits. -/
def read (p : KeyboardPort) : Run PortAccess (Option UInt8 × KeyboardPort) := do
  Run.emit (.read command p.status)
  match p.buffer with
  | [] => return (none, p)
  | b :: rest =>
    Run.emit (.read data b)
    return (some b, { p with buffer := rest })

/-- Reads as often as is asked. -/
def readMany (p : KeyboardPort) : Nat → Run PortAccess (List (Option UInt8))
  | 0 => return []
  | n + 1 => do
    let (b, p) ← p.read
    (b :: ·) <$> p.readMany n

end KeyboardPort

end PreemptiveKernel
