/-
  The first run of a prepared task.

  A prepared task begins with its entry routine, called with its identifier and its data.
  Should the routine come to its end, it returns to the address that its stack pointer
  points at, and what is there decides what happens next.
-/
import PreemptiveKernel.Task

namespace PreemptiveKernel

/-- What a first run does if the entry routine returns at once. -/
structure FirstRun where
  /-- The routine that runs. -/
  entry : EntryPoint
  /-- The first argument it gets: the identifier. -/
  id : Nat
  /-- The second argument it gets: the data. -/
  data : Int64
  /-- How it ends, if it returns into the trap. -/
  ending : Option Stop
  deriving DecidableEq, Repr

namespace Task

/-- The word that the stack pointer of a task points at. -/
def returnWord (t : Task) : Option StackWord :=
  t.stack.map fun stack => stack.word ((t.context.rsp - stack.base) / 8)

/-- Runs a task from its beginning; `none` if it has not been given one. -/
def firstRun (t : Task) : Option FirstRun :=
  t.context.rip.map fun entry =>
    { entry := entry
      id := t.context.rdi.toNat
      data := t.context.rsi.toInt64
      ending := if t.returnWord = some .returnTrap then some .taskReturned else none }

end Task

end PreemptiveKernel
