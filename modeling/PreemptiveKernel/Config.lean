/-
  Configuration.

  The numbers that the kernel image is built with, and the parameters that a scheduler and
  a clock are given when they are set up.
-/
import PreemptiveKernel.TaskId

namespace PreemptiveKernel

/-- Parameters of a scheduler and of a clock. -/
structure Config where
  /-- Ticks that a task may run before another of its level has its turn. -/
  quantum : Nat
  /-- Size in bytes of the stack of a new task. -/
  stackBytes : Nat
  /-- The task that timeouts and device notifications are sent to. -/
  receiver : TaskId
  deriving DecidableEq, Repr, Inhabited

namespace Config

/-- Ticks in a second. -/
def ticksPerSecond : Nat := 100

/-- The quantum of the kernel image: twenty milliseconds. -/
def imageQuantum : Nat := ticksPerSecond / 50

/-- The stack size of the kernel image: eight pages. -/
def imageStackBytes : Nat := 8 * 4096

/-- The main task: the first one, which is the flow of control that set the scheduler up. -/
def mainTask : TaskId := ⟨1⟩

/-- The most memory that the kernel takes for its heap. -/
def heapBytes : Nat := 16 * 1024 * 1024

/-- The configuration of the kernel image. -/
def standard : Config :=
  ⟨imageQuantum, imageStackBytes, mainTask⟩

end Config

end PreemptiveKernel
