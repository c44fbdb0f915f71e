/-
  Interrupts.

  An interrupt does its work first, then it is acknowledged to the controller, and only
  then may the task change.  A device interrupt is no more than a message to the task that
  looks after the device, and it is acknowledged even if that task does not exist.
-/
import PreemptiveKernel.Clock

namespace PreemptiveKernel

/-- The hardware interrupts that the kernel takes. -/
inductive Interrupt
  /-- The periodic timer. -/
  | timer
  /-- The keyboard. -/
  | keyboard
  /-- An interrupt that the controller withdrew before it was taken. -/
  | spurious
  deriving DecidableEq, Repr

namespace Interrupt

/-- Every interrupt that has a handler. -/
def all : List Interrupt := [timer, keyboard, spurious]

/-- The name. -/
def name : Interrupt → String
  | timer => "Timer"
  | keyboard => "Keyboard"
  | spurious => "Spurious"

/-- The entry of the interrupt table.  The first thirty-two are for faults. -/
def vector : Interrupt → UInt8
  | timer => 0x20
  | keyboard => 0x21
  | spurious => 0x27

/-- The line of the controller that the interrupt comes in on. -/
def line (i : Interrupt) : UInt8 :=
  i.vector - timer.vector

/-- Writes a log record of the interrupt code. -/
def note (severity : Severity) (text : String) : Run Effect Unit :=
  Effect.note severity Source.interrupt text

/-- A timer interrupt: a tick, the acknowledgement, and the next task's turn if the quantum
    has ended. -/
def onTimer (c : Clock) (s : Scheduler) :
    Run Effect (Option Handoff × Clock × Scheduler) := do
  let (expired, c, s) ← c.tick s
  Effect.ack
  if expired then
    let (change, s) ← s.switchTask
    match change with
    | some h => note .trace s!"irq: quantum expired, {h.leaving} -> {h.entering}"
    | none => pure ()
    return (change, c, s)
  else
    return (none, c, s)

/-- A device interrupt: a message to the receiver, and the acknowledgement. -/
def onDevice (s : Scheduler) (receiver : TaskId) (device : Device) :
    Run Effect Scheduler := do
  let (sent, s) ← s.send receiver (.deviceInterrupt device)
  match sent with
  | .ok () => pure ()
  | .error error => note .warn s!"irq: {device.name} notification dropped: {error}"
  Effect.ack
  return s

end Interrupt

example : Interrupt.all.map Interrupt.line = [0, 1, 7] := by decide

end PreemptiveKernel
