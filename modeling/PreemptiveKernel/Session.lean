/-
  A session: two schedulers at one clock.

  A second scheduler beside the first is what it takes to exchange tasks between them.  The
  clock is shared; it delivers to whichever scheduler a request is aimed at.  The session
  also counts the acknowledgements that interrupts have made.
-/
import PreemptiveKernel.Dispatcher

namespace PreemptiveKernel

/-- Which scheduler a request is aimed at. -/
inductive Target
  /-- The scheduler of the session. -/
  | first
  /-- The one beside it. -/
  | second
  deriving DecidableEq, Repr

/-- One or two schedulers, and a clock. -/
structure Session where
  /-- The scheduler of the session. -/
  first : Scheduler
  /-- The one beside it, if there is one. -/
  second : Option Scheduler
  /-- The clock of both. -/
  clock : Clock
  /-- Acknowledgements so far. -/
  acknowledged : Nat
  deriving DecidableEq

namespace Session

/-- Sets up the schedulers, all with the same parameters, and the clock. -/
def create (config clockConfig : Config) (twin : Bool) : Run Effect (Answer Session) := do
  match ← Scheduler.create config .heap with
  | .error error => return .error error
  | .ok first =>
    if twin then
      match ← Scheduler.create config .heap with
      | .error error => return .error error
      | .ok second => return .ok ⟨first, some second, .create clockConfig, 0⟩
    else
      return .ok ⟨first, none, .create clockConfig, 0⟩

/-- The scheduler that a request is aimed at; the first where there is no second. -/
def scheduler (session : Session) : Target → Scheduler
  | .first => session.first
  | .second => session.second.getD session.first

/-- The scheduler aimed at, with the clock. -/
def dispatcher (session : Session) (target : Target) : Dispatcher :=
  ⟨session.scheduler target, session.clock⟩

/-- Takes over the state that a dispatcher has come to. -/
def update (session : Session) (target : Target) (d : Dispatcher) : Session :=
  match target, session.second with
  | .second, some _ => { session with second := some d.scheduler, clock := d.clock }
  | _, _ => { session with first := d.scheduler, clock := d.clock }

/-- Does what is asked of the scheduler aimed at. -/
def performAll (session : Session) (target : Target) (requests : List Request) :
    Run Effect (List Response × Session) :=
  let run := (session.dispatcher target).performAll requests
  { trace := run.trace
    outcome := run.outcome.map fun (responses, d) =>
      (responses,
        { session.update target d with
          acknowledged := session.acknowledged + Effect.acknowledgements run.trace }) }

/-- Exchanges a task of the first scheduler with one of the second. -/
def exchange (session : Session) (a b : TaskId) : Answer Unit × Session :=
  match session.second with
  | none => (.ok (), session)
  | some second =>
    let (answer, first, second) := session.first.exchange a second b
    (answer, { session with first := first, second := some second })

end Session

end PreemptiveKernel
