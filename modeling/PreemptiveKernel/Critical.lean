/-
  Critical sections.

  There is one processor, so masking interrupts is all it takes to be alone.  A section
  either encloses a piece of work, or lasts as long as a lock is held.  Both remember
  whether interrupts were let through when they began, mask them, and at their end let them
  through again only if they were the ones to mask them.

  `Action` lists what a program can do with sections and locks, `perform` does it, and
  every action leaves an observation with the interrupt flag as it is afterwards.  Guards
  live in numbered slots, so that they can be dropped in any order.
-/
import PreemptiveKernel.Run

namespace PreemptiveKernel.Critical

/-- What a guard keeps while its lock is held. -/
structure Guard (locks : Nat) where
  /-- The lock that it holds. -/
  lock : Fin locks
  /-- Interrupts were let through when the lock was taken. -/
  saved : Bool
  deriving DecidableEq, Repr

/-- The interrupt flag, the locked data and the guards that are alive. -/
structure State (locks slots : Nat) where
  /-- Interrupts are let through. -/
  enabled : Bool
  /-- The data behind each lock. -/
  data : Vector Int locks
  /-- The guards that are alive, by slot. -/
  guards : Vector (Option (Guard locks)) slots
  deriving DecidableEq

/-- Something that a program does. -/
inductive Action (locks slots : Nat)
  /-- Lets interrupts through. -/
  | enable
  /-- Masks them. -/
  | disable
  /-- Takes a lock and keeps its guard in a slot. -/
  | acquire (lock : Fin locks) (slot : Fin slots)
  /-- Adds a number to the data behind the guard in a slot. -/
  | add (slot : Fin slots) (n : Int)
  /-- Drops the guard in a slot. -/
  | release (slot : Fin slots)
  /-- Does some work with interrupts masked; the work gives a value. -/
  | masked (value : Int) (work : List (Action locks slots))

/-- What an action answers. -/
inductive Reply
  /-- No value. -/
  | unit
  /-- A number. -/
  | number (n : Int)
  /-- The lock is held or the slot is taken, and nothing has been done. -/
  | held
  /-- There is no guard in the slot. -/
  | vacant
  deriving DecidableEq, Repr

/-- The kind of an action, for the record. -/
inductive Kind
  | enable
  | disable
  | acquire
  | add
  | release
  /-- The beginning of masked work. -/
  | enter
  /-- The end of masked work. -/
  | masked
  deriving DecidableEq, Repr

/-- What is seen of an action. -/
structure Observation where
  /-- What was done. -/
  kind : Kind
  /-- What it answered. -/
  reply : Reply
  /-- Interrupts are let through after it. -/
  enabled : Bool
  deriving DecidableEq, Repr

variable {locks slots : Nat}

/-- All data zero, no guard, and the interrupt flag as given. -/
def State.initial (locks slots : Nat) (enabled : Bool) : State locks slots :=
  ⟨enabled, Vector.replicate locks 0, Vector.replicate slots none⟩

namespace State

/-- A guard on this lock is alive. -/
def isHeld (s : State locks slots) (lock : Fin locks) : Bool :=
  s.guards.any fun g => g.any fun g => g.lock == lock

/-- The guards that are alive. -/
def alive (s : State locks slots) : List (Guard locks) :=
  s.guards.toList.filterMap id

/-- Takes a lock: remembers the interrupt flag in the guard and masks interrupts. -/
def acquire (s : State locks slots) (lock : Fin locks) (slot : Fin slots) :
    State locks slots :=
  { s with enabled := false, guards := s.guards.set slot (some ⟨lock, s.enabled⟩) }

/-- Drops a guard: the lock is free, and interrupts are let through if they were when it was
    taken. -/
def release (s : State locks slots) (slot : Fin slots) (guard : Guard locks) :
    State locks slots :=
  { s with enabled := s.enabled || guard.saved, guards := s.guards.set slot none }

end State

/-- One more than the largest signed word. -/
def signedBound : Int := 0x8000_0000_0000_0000

/-- The sum of two signed words, if it is one. -/
def addSigned (a b : Int) : Except Stop Int :=
  if -signedBound ≤ a + b ∧ a + b < signedBound then .ok (a + b) else .error .addOverflow

/-- Records what an action answered. -/
def observe (kind : Kind) (reply : Reply) (s : State locks slots) : Run Observation Unit :=
  Run.emit ⟨kind, reply, s.enabled⟩

mutual

/-- Does one action. -/
def perform : Action locks slots → State locks slots → Run Observation (State locks slots)
  | .enable, s => do
    let s := { s with enabled := true }
    observe .enable .unit s
    return s
  | .disable, s => do
    let s := { s with enabled := false }
    observe .disable .unit s
    return s
  | .acquire lock slot, s =>
    if s.isHeld lock || s.guards[slot].isSome then do
      observe .acquire .held s
      return s
    else do
      let s := s.acquire lock slot
      observe .acquire (.number s.data[lock]) s
      return s
  | .add slot n, s =>
    match s.guards[slot] with
    | none => do
      observe .add .vacant s
      return s
    | some guard => do
      let sum ← addSigned s.data[guard.lock] n
      let s := { s with data := s.data.set guard.lock sum }
      observe .add (.number sum) s
      return s
  | .release slot, s =>
    match s.guards[slot] with
    | none => do
      observe .release .unit s
      return s
    | some guard => do
      let s := s.release slot guard
      observe .release (.number guard.lock.val) s
      return s
  | .masked value work, s => do
    let inside := { s with enabled := false }
    observe .enter .unit inside
    let after ← performAll work inside
    let s := if s.enabled then { after with enabled := true } else after
    observe .masked (.number value) s
    return s

/-- Does one action after the other. -/
def performAll : List (Action locks slots) → State locks slots →
    Run Observation (State locks slots)
  | [], s => return s
  | a :: rest, s => do
    let s ← perform a s
    performAll rest s

end

end PreemptiveKernel.Critical
