/-
  The clock: ticks, timeouts and the quantum.

  The clock counts ticks and keeps what is to happen at a later one.  There are timeouts,
  which end as messages; the end of the current task's quantum, of which at most one is
  kept; and an entry at the last tick of all, which is never reached, so that the list is
  never empty.

  The entries are kept in the order in which they are served: by due tick, and among those
  due at the same tick by the order in which they were added.

  A tick serves what is due from the front.  The end of the quantum ends the tick as well:
  it is set again, a quantum later, and whatever stands behind it waits for the next tick.
  What a tick finds due depends on the alarms alone (`serve`); to send the timeouts is a
  second step (`deliver`), in which the scheduler has a part.
-/
import PreemptiveKernel.Scheduler.Operations

namespace PreemptiveKernel

/-- What happens when an entry of the clock comes due. -/
inductive AlarmKind
  /-- The current task's quantum ends. -/
  | quantum
  /-- Nothing: the entry that is never reached. -/
  | never
  /-- The receiver of timeouts gets a message with this value. -/
  | timeout (value : Int32)
  deriving DecidableEq, Repr

/-- An entry of the clock. -/
structure Alarm where
  /-- The tick at which it is due. -/
  due : Nat
  /-- Its place in the order of adding. -/
  seq : Nat
  /-- What happens then. -/
  kind : AlarmKind
  deriving DecidableEq, Repr

/-- An alarm is served before another if it is due earlier, or at the same tick and was
    added earlier. -/
def Alarm.Before (a b : Alarm) : Prop :=
  a.due < b.due ∨ a.due = b.due ∧ a.seq < b.seq

instance (a b : Alarm) : Decidable (a.Before b) :=
  inferInstanceAs (Decidable (a.due < b.due ∨ a.due = b.due ∧ a.seq < b.seq))

/-- A timeout that has come due. -/
structure Timeout where
  /-- The tick at which it was due. -/
  due : Nat
  /-- Its place in the order of adding. -/
  seq : Nat
  /-- The value it was set with. -/
  value : Int32
  deriving DecidableEq, Repr

/-- What a tick finds due. -/
structure Service where
  /-- The timeouts that fire, in the order of service. -/
  fired : List Timeout
  /-- The alarms that are kept. -/
  left : List Alarm
  /-- A quantum has ended. -/
  expired : Bool
  deriving DecidableEq, Repr

/-- The state of the clock. -/
structure Clock where
  /-- The number of ticks so far. -/
  now : Nat
  /-- What is still to happen, in the order of service. -/
  alarms : List Alarm
  /-- The place in the order of adding that the next alarm gets. -/
  nextSeq : Nat
  /-- The end of a quantum is among the alarms. -/
  armed : Bool
  /-- The parameters it was set up with. -/
  config : Config
  deriving DecidableEq, Repr

namespace Clock

/-- Writes a log record of the clock. -/
def note (severity : Severity) (text : String) : Run Effect Unit :=
  Effect.note severity Source.clock text

/-- Puts an alarm in front of the first one that it is served before. -/
def place (a : Alarm) : List Alarm → List Alarm
  | [] => [a]
  | b :: rest => if a.Before b then a :: b :: rest else b :: place a rest

theorem place_perm (a : Alarm) (alarms : List Alarm) : (place a alarms).Perm (a :: alarms) := by
  induction alarms with
  | nil => exact List.Perm.refl _
  | cons b rest ih =>
    rw [place]
    split
    · exact List.Perm.refl _
    · exact (ih.cons b).trans (List.Perm.swap a b rest)

theorem mem_place {a b : Alarm} {alarms : List Alarm} :
    b ∈ place a alarms ↔ b = a ∨ b ∈ alarms := by
  rw [(place_perm a alarms).mem_iff, List.mem_cons]

/-- Adds an alarm. -/
def push (c : Clock) (due : Nat) (kind : AlarmKind) : Except Stop Clock := do
  let next ← Word.add c.nextSeq 1
  return { c with nextSeq := next, alarms := place ⟨due, c.nextSeq, kind⟩ c.alarms }

/-- A clock at tick zero with nothing to do. -/
def create (config : Config) : Clock where
  now := 0
  alarms := [⟨Word.greatest, 0, .never⟩]
  nextSeq := 1
  armed := false
  config := config

/-- A message with this value is to be sent at tick `due`. -/
def addTimer (c : Clock) (due : Nat) (value : Int32) : Except Stop Clock :=
  c.push due (.timeout value)

/-- Sets the end of the quantum, a quantum from now. -/
def setQuantum (c : Clock) : Except Stop Clock := do
  let due ← Word.add c.now c.config.quantum
  { c with armed := true }.push due .quantum

/-- Sets the end of the quantum unless it is set already. -/
def arm (c : Clock) : Run Effect Clock :=
  if c.armed then do
    note .debug "timer: quantum already armed"
    return c
  else c.setQuantum

/-- How many alarms are kept, the one that is never reached left out. -/
def pending (c : Clock) : Nat :=
  c.alarms.length - 1

/-- Serves from the front what is due at tick `now`.  Timeouts fire; the first end of a
    quantum ends the service, and so does the first alarm that is not due. -/
def serve (now : Nat) : List Alarm → Service
  | [] => ⟨[], [], false⟩
  | a :: rest =>
    if now < a.due then ⟨[], a :: rest, false⟩
    else
      match a.kind with
      | .never => ⟨[], a :: rest, false⟩
      | .quantum => ⟨[], rest, true⟩
      | .timeout value =>
        let service := serve now rest
        { service with fired := ⟨a.due, a.seq, value⟩ :: service.fired }

/-- Sends timeouts to their receiver, in order.  One that cannot be sent is lost. -/
def deliver (receiver : TaskId) : List Timeout → Scheduler → Run Effect Scheduler
  | [], s => return s
  | t :: rest, s => do
    let (sent, s) ← s.send receiver (.timerTimeout t.due t.value)
    match sent with
    | .ok () => pure ()
    | .error error => note .warn s!"timer: timeout {t.value} dropped: {error}"
    deliver receiver rest s

/-- The next tick.  Timeouts that are due go to their receiver; `true` says that the
    quantum has ended and another task is to have its turn. -/
def tick (c : Clock) (s : Scheduler) : Run Effect (Bool × Clock × Scheduler) := do
  let now ← Word.add c.now 1
  let service := serve now c.alarms
  let s ← deliver c.config.receiver service.fired s
  let served := { c with now := now, alarms := service.left }
  if service.expired then
    return (true, ← served.setQuantum, s)
  else
    return (false, served, s)

end Clock

end PreemptiveKernel
