/-
  The machine that the kernel runs on.

  A machine is the interrupt flag, the one scheduler and the one clock that the whole kernel
  shares, each behind a lock, the devices, and the memory if there is a limit to it.
  `Kernel α` is a computation on it: it changes the machine and lets be seen what happens, in
  order.

  Everything that is seen is stamped with the interrupt flag and with the locks that are
  held at that moment.  That the shared state is used under the mask only, and that tasks
  change only after the locks are free, are therefore facts about the stamps.

  There are two ways of being alone.  Masked work is done with the flag off, and the flag is on
  again afterwards if it was on before (`masked_apply`).  What lies behind a lock is used under the
  mask, and it is read when the lock has been taken (`acquire`), so what is read is what the last
  one has left there.
-/
import PreemptiveKernel.Interrupt
import PreemptiveKernel.KeyboardPort
import PreemptiveKernel.Memory
import PreemptiveKernel.Uart

namespace PreemptiveKernel

/-- A value behind a lock. -/
structure Locked (α : Type) where
  /-- The value. -/
  value : α
  /-- Somebody holds the lock. -/
  held : Bool
  deriving DecidableEq

/-- What becomes of log records. -/
inductive Logger
  /-- No logger is installed, and records are lost. -/
  | absent
  /-- Every record is kept. -/
  | recording
  /-- The kernel's own logger, where there is no line to print on. -/
  | silent
  /-- The kernel's own logger, which prints on the serial line. -/
  | serial
  deriving DecidableEq, Repr

namespace Logger

/-- The kernel's own logger lets records up to this severity pass. -/
def imageLimit : Severity := .debug

/-- The least grave severity that gets through; `none` if nothing does. -/
def limit : Logger → Option Severity
  | absent => none
  | recording => some .trace
  | silent => some imageLimit
  | serial => some imageLimit

/-- A record of this severity gets through. -/
def enabled (logger : Logger) (severity : Severity) : Bool :=
  logger.limit.any severity.passes

/-- Installs the kernel's own logger, unless one is installed already. -/
def install : Logger → Logger → Logger
  | absent, own => own
  | installed, _ => installed

end Logger

/-- The state of the machine. -/
structure Machine where
  /-- Interrupts are let through. -/
  interrupts : Bool
  /-- The root of the page tables.  Every task is prepared with the one that is found here, so
      passing the processor on does not change it. -/
  cr3 : UInt64
  /-- The shared scheduler, once it has been set up. -/
  scheduler : Option (Locked Scheduler)
  /-- The shared clock, once it has been set up. -/
  clock : Option (Locked Clock)
  /-- The installed logger. -/
  logger : Logger
  /-- The serial line. -/
  uart : Uart
  /-- The keyboard controller. -/
  keyboard : KeyboardPort
  /-- The memory of the kernel, if there is a limit to it. -/
  memory : Option Memory
  deriving DecidableEq

namespace Machine

/-- A machine on which nothing has been set up and interrupts are let through. -/
def initial (logger : Logger) (cr3 : UInt64 := addressSpace) : Machine where
  interrupts := true
  cr3 := cr3
  scheduler := none
  clock := none
  logger := logger
  uart := .ready
  keyboard := ⟨[], 0⟩
  memory := none

/-- The lock of the scheduler is held. -/
def schedulerHeld (m : Machine) : Bool :=
  m.scheduler.any Locked.held

/-- The lock of the clock is held. -/
def clockHeld (m : Machine) : Bool :=
  m.clock.any Locked.held

/-- Where a request that asks for a stack gets it from. -/
def stacksFor {α : Type} (m : Machine) (request : StackAllocator → Run Effect α) :
    StackAllocator :=
  match m.memory with
  | none => .heap
  | some memory => memory.stacksFor request

end Machine

/-! ## What is seen -/

/-- Something that can be seen of the machine. -/
inductive Event
  /-- A record reaches the log. -/
  | logged (record : Record)
  /-- An interrupt is acknowledged. -/
  | acknowledged
  /-- A port is accessed. -/
  | port (access : PortAccess)
  /-- The shared scheduler is used. -/
  | schedulerUsed
  /-- The shared clock is used. -/
  | clockUsed
  /-- The processor passes from one task to another. -/
  | switched (change : Handoff)
  /-- A task begins with its entry routine. -/
  | entered (id : Nat) (data : Int64) (codeSelector flags stackSelector : Nat)
  /-- The descriptor table is loaded. -/
  | segmentsLoaded
  /-- The code segment is chosen. -/
  | codeSegmentLoaded (selector : UInt16)
  /-- The task state segment is chosen. -/
  | taskStateLoaded (selector : UInt16)
  /-- The table of interrupt gates is loaded. -/
  | gatesLoaded
  /-- A control register is written. -/
  | controlWritten (register : Nat) (value : UInt64)
  deriving DecidableEq, Repr

/-- One of the two locks of the machine. -/
structure Lock (σ : Type) where
  /-- The lock and what lies behind it, once that has been set up. -/
  find : Machine → Option (Locked σ)
  /-- Puts it back. -/
  store : Option (Locked σ) → Machine → Machine
  /-- What is seen when it is used. -/
  used : Event
  /-- How a kernel stops that uses it before it has been set up. -/
  missing : Stop
  /-- What has been put back is found. -/
  find_store : ∀ lock m, find (store lock m) = lock

namespace Lock

/-- The lock of the shared scheduler. -/
def scheduler : Lock Scheduler where
  find := Machine.scheduler
  store lock m := { m with scheduler := lock }
  used := .schedulerUsed
  missing := .schedulerMissing
  find_store _ _ := rfl

/-- The lock of the shared clock. -/
def clock : Lock Clock where
  find := Machine.clock
  store lock m := { m with clock := lock }
  used := .clockUsed
  missing := .clockMissing
  find_store _ _ := rfl

end Lock

/-- An event with what held when it happened. -/
structure Observation where
  /-- What happened. -/
  event : Event
  /-- Interrupts were let through. -/
  interrupts : Bool
  /-- The lock of the scheduler was held. -/
  schedulerHeld : Bool
  /-- The lock of the clock was held. -/
  clockHeld : Bool
  deriving DecidableEq, Repr

/-- A computation on the machine. -/
abbrev Kernel (α : Type) := StateT Machine (Run Observation) α

namespace Kernel

variable {α β ω : Type}

/-! ## What a computation does to a machine

  A computation applied to a machine is a run, whose value is paired with the machine
  afterwards. -/

@[simp] theorem pure_apply (a : α) (m : Machine) : (pure a : Kernel α) m = pure (a, m) := rfl

@[simp] theorem bind_apply (x : Kernel α) (f : α → Kernel β) (m : Machine) :
    (x >>= f) m = x m >>= fun p => f p.1 p.2 := rfl

@[simp] theorem map_apply (f : α → β) (x : Kernel α) (m : Machine) :
    (f <$> x) m = x m >>= fun p => pure (f p.1, p.2) := rfl

@[simp] theorem get_apply (m : Machine) : (get : Kernel Machine) m = pure (m, m) := rfl

@[simp] theorem modify_apply (f : Machine → Machine) (m : Machine) :
    (modify f : Kernel Unit) m = pure ((), f m) := rfl

@[simp] theorem lift_apply (run : Run Observation α) (m : Machine) :
    (liftM run : Kernel α) m = run >>= fun a => pure (a, m) := rfl

/-! ## Events, stops and the interrupt flag -/

/-- Lets an event be seen. -/
def observe (e : Event) : Kernel Unit := do
  let m ← get
  let seen : Observation := ⟨e, m.interrupts, m.schedulerHeld, m.clockHeld⟩
  Run.emit seen

/-- Ends for good. -/
def stop (s : Stop) : Kernel α := fun _ => Run.stop s

@[simp] theorem observe_apply (e : Event) (m : Machine) :
    observe e m = Run.emit ⟨e, m.interrupts, m.schedulerHeld, m.clockHeld⟩ >>=
      fun _ => pure ((), m) := rfl

@[simp] theorem stop_apply (s : Stop) (m : Machine) :
    (stop s : Kernel α) m = Run.stop s := rfl

/-- Lets the interrupt flag be as given. -/
def setInterrupts (enabled : Bool) : Kernel Unit :=
  modify fun m => { m with interrupts := enabled }

/-- Does `x` with interrupts masked.  At the end they are let through again if they were at
    the beginning. -/
def masked (x : Kernel α) : Kernel α := do
  let saved := (← get).interrupts
  setInterrupts false
  let a ← x
  if saved then setInterrupts true
  return a

/-- Masked work starts with the flag off, and its end never turns the flag off. -/
theorem masked_apply (x : Kernel α) (m : Machine) :
    masked x m = x { m with interrupts := false } >>= fun p =>
      pure (p.1, { p.2 with interrupts := m.interrupts || p.2.interrupts }) := by
  unfold masked setInterrupts
  cases h : m.interrupts <;> simp [h]

/-- Carries a run over to the machine: each of its observations is acted on in turn, and
    then it ends as the run ended. -/
def replay (act : ω → Kernel Unit) (run : Run ω α) : Kernel α := do
  run.trace.forM act
  let a ← run.outcome
  return a

/-! ## Ports, the log and memory -/

/-- Accesses ports. -/
def access (accesses : List PortAccess) : Kernel Unit :=
  accesses.forM fun a => observe (.port a)

/-- Prints the pieces of a text on the serial line, with interrupts masked. -/
def print (pieces : List String) : Kernel Unit := masked do
  let u ← replay (fun a => observe (.port a)) ((← get).uart.print pieces)
  modify fun m => { m with uart := u }

/-- Writes a record to the log, whatever becomes of it. -/
def log (record : Record) : Kernel Unit := do
  let logger := (← get).logger
  if logger.enabled record.severity then
    match logger with
    | .recording => observe (.logged record)
    | .serial => print [record.line]
    | .absent => return ()
    | .silent => return ()

/-- Writes to the log. -/
def note (severity : Severity) (source text : String) : Kernel Unit :=
  log ⟨severity, source, text⟩

/-- Finds the room that is needed.  If there is none, the kernel cannot go on. -/
def provide (what : Need) : Kernel Unit := do
  match (← get).memory with
  | none => return ()
  | some memory =>
    match memory.provide what with
    | .ok memory => modify fun m => { m with memory := some memory }
    | .error bytes => stop (.outOfMemory bytes)

/-- Does what a run of the scheduler, the clock or the interrupt code did: its records go
    to the log, acknowledging is `ack`, and the room that it needs is found. -/
def carry (ack : Kernel Unit) (run : Run Effect α) : Kernel α :=
  replay (fun
    | .log record => log record
    | .acknowledge => ack
    | .need what => provide what) run

/-! ## The shared state -/

variable {σ : Type}

/-- Takes a lock, and then reads what lies behind it. -/
def acquire (lock : Lock σ) : Kernel σ := do
  if (lock.find (← get)).any Locked.held then stop .lockNeverReleased
  modify fun m => lock.store ((lock.find m).map fun locked => { locked with held := true }) m
  match lock.find (← get) with
  | none => stop lock.missing
  | some locked => return locked.value

/-- Leaves a value behind a lock, which is free then. -/
def release (lock : Lock σ) (v : σ) : Kernel Unit :=
  modify (lock.store (some ⟨v, false⟩))

/-- Uses what lies behind a lock: masks interrupts, takes the lock, does `f`, frees the lock, and
    lets interrupts through again if they were. -/
def withLock (lock : Lock σ) (f : σ → Kernel (α × σ)) : Kernel α := masked do
  let v ← acquire lock
  observe lock.used
  let (a, v) ← f v
  release lock v
  return a

/-- A lock that is free is taken, and what it guards is what has been left there. -/
theorem acquire_of_free {lock : Lock σ} {m : Machine} {v : σ}
    (free : lock.find m = some ⟨v, false⟩) :
    acquire lock m = pure (v, lock.store (some ⟨v, true⟩) m) := by
  simp [acquire, free, lock.find_store]

/-- A lock that is held is never had, because whoever holds it does not run. -/
theorem acquire_of_held {lock : Lock σ} {m : Machine} {v : σ}
    (held : lock.find m = some ⟨v, true⟩) : acquire lock m = Run.stop .lockNeverReleased := by
  simp only [acquire, bind_apply, get_apply, pure_bind, held, Option.any_some, if_true, stop_apply]
  rfl

/-- Where nothing has been set up there is nothing to be had. -/
theorem acquire_of_missing {lock : Lock σ} {m : Machine} (missing : lock.find m = none) :
    acquire lock m = Run.stop lock.missing := by
  simp [acquire, missing, lock.find_store]

/-- Uses the shared scheduler. -/
def withScheduler (f : Scheduler → Kernel (α × Scheduler)) : Kernel α :=
  withLock .scheduler f

/-- Uses the shared clock. -/
def withClock (f : Clock → Kernel (α × Clock)) : Kernel α :=
  withLock .clock f

/-- Uses the shared scheduler for one of its operations. -/
def useScheduler (f : Scheduler → Run Effect (α × Scheduler)) : Kernel α :=
  withScheduler fun s => carry (pure ()) (f s)

/-- Uses the shared clock for one of its operations. -/
def useClock (f : Clock → Run Effect (α × Clock)) : Kernel α :=
  withClock fun c => carry (pure ()) (f c)

/-- Passes the processor to another task, if that is asked for. -/
def passOn : Option Handoff → Kernel Unit
  | none => return ()
  | some change => observe (.switched change)

/-- Uses the scheduler for an operation that may change the current task.  The change is
    carried out when the lock is free, and before interrupts are let through again. -/
def switchWith (f : Scheduler → Run Effect (α × Option Handoff × Scheduler)) : Kernel α :=
  masked do
    let (a, change) ← useScheduler fun s => do
      let (a, change, s) ← f s
      return ((a, change), s)
    passOn change
    return a

end Kernel

end PreemptiveKernel
