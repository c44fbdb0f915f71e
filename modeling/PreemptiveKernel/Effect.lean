/-
  What the scheduler, the clock and the interrupt code let be seen.

  They have no other contact with the world: they write to the log, an interrupt is
  acknowledged to its controller, and whatever grows says so, because it needs room in memory.
  All of it is left in the trace as it happens; who runs them decides what a log record is
  worth, what acknowledging means on the machine at hand, and where the room comes from.
-/
import PreemptiveKernel.Level
import PreemptiveKernel.Log
import PreemptiveKernel.Run

namespace PreemptiveKernel

/-- A row of things that can grow. -/
inductive Row
  /-- The alarms of the clock. -/
  | alarms
  /-- The ready tasks of a level. -/
  | ready (level : Level)
  /-- The messages that wait for a task. -/
  | inbox (id : TaskId)
  deriving DecidableEq, Repr

/-- Something that needs room in memory. -/
inductive Need
  /-- A new task: its record, and its place in the task table. -/
  | task (id : TaskId)
  /-- A stack of so many bytes.  It is needed when the allocator is asked for it, which may refuse
      it then. -/
  | stack (bytes : Nat)
  /-- A row that holds so many things now. -/
  | row (row : Row) (count : Nat)
  deriving DecidableEq, Repr

/-- It is a stack. -/
def Need.isStack : Need → Bool
  | .stack _ => true
  | _ => false

/-- One thing that can be seen from outside. -/
inductive Effect
  /-- A record is written to the log. -/
  | log (record : Record)
  /-- The interrupt that is being served is acknowledged. -/
  | acknowledge
  /-- Room in memory is needed. -/
  | need (what : Need)
  deriving DecidableEq, Repr

namespace Effect

/-- Writes to the log. -/
def note (severity : Severity) (source text : String) : Run Effect Unit :=
  Run.emit (.log ⟨severity, source, text⟩)

/-- Acknowledges the interrupt that is being served. -/
def ack : Run Effect Unit :=
  Run.emit .acknowledge

/-- Asks for room in memory. -/
def ask (what : Need) : Run Effect Unit :=
  Run.emit (.need what)

@[simp] theorem outcome_note (severity : Severity) (source text : String) :
    (note severity source text).outcome = .ok () := rfl

@[simp] theorem outcome_ack : ack.outcome = .ok () := rfl

@[simp] theorem outcome_ask (what : Need) : (ask what).outcome = .ok () := rfl

/-- The log records among a list of effects. -/
def records (effects : List Effect) : List Record :=
  effects.filterMap fun
    | .log record => some record
    | .acknowledge => none
    | .need _ => none

/-- How many acknowledgements there are among a list of effects. -/
def acknowledgements (effects : List Effect) : Nat :=
  effects.count .acknowledge

/-- What room is needed for, among a list of effects. -/
def needs (effects : List Effect) : List Need :=
  effects.filterMap fun
    | .log _ => none
    | .acknowledge => none
    | .need what => some what

end Effect

end PreemptiveKernel
