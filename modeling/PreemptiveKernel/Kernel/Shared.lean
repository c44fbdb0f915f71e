/-
  The scheduler and the clock as the whole kernel shares them.

  Each operation does to the shared scheduler or clock what the operation of the same name
  does to a scheduler or clock of one's own.  It masks interrupts for as long as it needs,
  and it leaves the interrupt flag as it found it.  A refusal is written to the log and
  handed on.
-/
import PreemptiveKernel.Machine

namespace PreemptiveKernel.Kernel

variable {α : Type}

/-- Writes a warning of the shared scheduler if an answer is a refusal. -/
def warnIfRefused (text : KernelError → String) (answer : Answer α) : Kernel Unit :=
  match answer with
  | .ok _ => return ()
  | .error e => note .warn Source.sharedScheduler (text e)

/-! ## Setting up -/

/-- The scheduler has been set up. -/
def schedulerReady : Kernel Bool := do
  return (← get).scheduler.isSome

/-- Sets the clock up; the second time nothing happens. -/
def setUpClock (config : Config) : Kernel Unit := do
  if (← get).clock.isSome then
    note .warn Source.clock "timer: already initialized"
  else
    let clock := Clock.create config
    provide (.row .alarms clock.alarms.length)
    modify fun m => { m with clock := some ⟨clock, false⟩ }
    note .debug Source.clock
      s!"timer: quantum {config.quantum} ticks, timeouts to {config.receiver}"

/-- Sets the scheduler up; the second time nothing happens. -/
def setUpScheduler (config : Config) : Kernel (Answer Unit) := do
  if (← get).scheduler.isSome then
    note .warn Source.sharedScheduler "sched: already initialized"
    return .ok ()
  else
    let m ← get
    let create := fun allocator => Scheduler.create config allocator m.cr3
    match ← carry (pure ()) (create (m.stacksFor create)) with
    | .error e => return .error e
    | .ok s =>
      modify fun m => { m with scheduler := some ⟨s, false⟩ }
      let (main, idle) ← useScheduler fun s => return ((s.main, s.idle), s)
      note .info Source.sharedScheduler s!"sched: main task {main}, idle task {idle}"
      return .ok ()

/-! ## Tasks -/

/-- Ends the turn of the current task. -/
def switchTask : Kernel Unit :=
  switchWith fun s => do
    let (change, s) ← s.switchTask
    return ((), change, s)

/-- Puts a task to sleep. -/
def sleep (id : TaskId) : Kernel (Answer Unit) := do
  let answer ← switchWith fun s => do
    match ← s.sleep id with
    | (.ok change, s) => return (.ok (), change, s)
    | (.error e, s) => return (.error e, none, s)
  warnIfRefused (fun e => s!"sched: sleep: {e}") answer
  return answer

/-- Puts the current task to sleep. -/
def sleepCurrent : Kernel Unit :=
  switchWith fun s => do
    let id ← s.currentId
    match ← s.sleep id with
    | (.ok change, s) => return ((), change, s)
    | (.error _, s) => return ((), none, s)

/-- Makes a task ready. -/
def wakeup (id : TaskId) (level : Option Nat) : Kernel (Answer Unit) := do
  let answer ← useScheduler fun s => s.wakeup id level
  warnIfRefused (fun e => s!"sched: wakeup: {e}") answer
  return answer

/-- Gives a task another level. -/
def changeLevel (id : TaskId) (level : Nat) : Kernel (Answer Unit) := do
  let answer ← useScheduler fun s => s.changeLevel id level
  warnIfRefused (fun e => s!"sched: change level: {e}") answer
  return answer

/-- Creates a task that is ready to begin. -/
def newTask (entry : EntryPoint) (data : Int64) (level : Nat) : Kernel (Answer TaskId) := do
  let answer ← withScheduler fun s => do
    let m ← get
    let spawn := fun allocator => s.spawn entry data level allocator m.cr3
    carry (pure ()) (spawn (m.stacksFor spawn))
  warnIfRefused (fun e => s!"sched: new task: {e}") answer
  match answer with
  | .error e => return .error e
  | .ok id =>
    note .info Source.sharedScheduler s!"sched: task {id} started at level {level}"
    return .ok id

/-- The current task. -/
def currentTaskId : Kernel TaskId :=
  useScheduler fun s => do
    let id ← s.currentId
    return (id, s)

/-- The idle task. -/
def idleTaskId : Kernel TaskId :=
  useScheduler fun s => return (s.idle, s)

/-! ## Messages -/

/-- Sends a message. -/
def send (id : TaskId) (m : Message) : Kernel (Answer Unit) := do
  let answer ← useScheduler fun s => s.send id m
  warnIfRefused (fun e => s!"sched: message to {id} dropped: {e}") answer
  return answer

/-- Takes the current task's oldest message, if there is one. -/
def receive : Kernel (Option Message) :=
  useScheduler fun s => do
    let (m, s) ← s.receiveCurrent
    return (m, s)

/-- One round of waiting: the current task takes its oldest message, or it goes to sleep. -/
def waitStep : Kernel (Option Message) :=
  switchWith fun s => s.waitStep

/-- Waits for a message, for at most so many rounds.  After each sleep the task that is
    current then goes on waiting. -/
def waitFor : Nat → Kernel (Option Message)
  | 0 => return none
  | rounds + 1 => do
    match ← waitStep with
    | some m => return some m
    | none => waitFor rounds

/-- Waiting can come to an end: the current task has a message, or it may sleep and another
    task above the lowest level has one. -/
def messageComes (s : Scheduler) : Bool :=
  match s.currentTask with
  | .error _ => false
  | .ok current =>
    !current.inbox.isEmpty ||
      (current.id != s.idle && s.tasks.tasks.any fun t =>
        t.running && t.level != .bottom && !t.inbox.isEmpty)

/-- Waits for a message.  In each round but the last a task goes to sleep, so there are at
    most as many rounds as there are tasks. -/
def wait : Kernel (Option Message) := do
  let count := match (← get).scheduler with
    | some lock => lock.value.tasks.keys.length
    | none => 0
  waitFor (count + 1)

/-! ## The clock -/

/-- A message is to be sent at a tick. -/
def addTimer (due : Nat) (value : Int32) : Kernel Unit :=
  useClock fun c => do
    let c ← c.addTimer due value
    Effect.ask (.row .alarms c.alarms.length)
    return ((), c)

/-- Sets the end of the quantum. -/
def armQuantum : Kernel Unit :=
  useClock fun c => do
    let c ← c.arm
    Effect.ask (.row .alarms c.alarms.length)
    return ((), c)

/-- The number of ticks so far. -/
def currentTick : Kernel Nat :=
  useClock fun c => return (c.now, c)

/-! ## Interrupts -/

/-- A timer interrupt, with what acknowledging it is. -/
def timerInterrupt (ack : Kernel Unit) : Kernel Unit := masked do
  let change ← withClock fun c => withScheduler fun s => do
    let (change, c, s) ← carry ack (Interrupt.onTimer c s)
    return ((change, c), s)
  passOn change

/-- A device interrupt, with what acknowledging it is. -/
def deviceInterrupt (device : Device) (ack : Kernel Unit) : Kernel Unit := masked do
  withScheduler fun s => do
    let s ← carry ack (Interrupt.onDevice s s.config.receiver device)
    return ((), s)

end PreemptiveKernel.Kernel
