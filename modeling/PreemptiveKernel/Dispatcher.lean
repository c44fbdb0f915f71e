/-
  A scheduler together with the clock that drives it.

  `Request` lists everything that can be asked of the two, and `perform` does it.  A history
  is a list of requests; `performAll` runs one from a given state.  What holds of every
  history therefore holds of every interleaving of tasks, timers and devices, because each
  of them acts by requests only.
-/
import PreemptiveKernel.Interrupt

namespace PreemptiveKernel

/-- A scheduler and a clock. -/
structure Dispatcher where
  /-- The scheduler. -/
  scheduler : Scheduler
  /-- The clock that sends to its tasks and ends their turns. -/
  clock : Clock
  deriving DecidableEq

/-- Something that is asked of a dispatcher. -/
inductive Request
  /-- Create a sleeping task. -/
  | newTask
  /-- Give a task a stack and a place to begin. -/
  | prepare (id : TaskId) (entry : EntryPoint) (data : Int64) (allocate : StackAllocator)
    (cr3 : UInt64 := addressSpace)
  /-- Create a task that is ready to begin. -/
  | spawn (entry : EntryPoint) (data : Int64) (level : Nat) (allocate : StackAllocator)
    (cr3 : UInt64 := addressSpace)
  /-- Put a task to sleep. -/
  | sleep (id : TaskId)
  /-- Make a task ready. -/
  | wakeup (id : TaskId) (level : Option Nat)
  /-- Give a task another level. -/
  | changeLevel (id : TaskId) (level : Nat)
  /-- End the turn of the current task. -/
  | switch
  /-- Send a message. -/
  | send (id : TaskId) (message : Message)
  /-- Take a task's oldest message. -/
  | receive (id : TaskId)
  /-- Take the current task's oldest message. -/
  | receiveCurrent
  /-- Take all messages of a task. -/
  | drain (id : TaskId)
  /-- One round of waiting of the current task. -/
  | wait
  /-- Set a timeout. -/
  | addTimer (due : Nat) (value : Int32)
  /-- Set the end of the quantum. -/
  | arm
  /-- Let a tick pass, without changing the task at the end of a quantum. -/
  | tick
  /-- Take a timer interrupt. -/
  | timerInterrupt
  /-- Take a device interrupt for the task `receiver`. -/
  | deviceInterrupt (receiver : TaskId) (device : Device)

/-- What a dispatcher answers. -/
inductive Response
  /-- It is done, and there is no more to say. -/
  | done
  /-- It was refused. -/
  | refused (error : KernelError)
  /-- The task that was created or prepared. -/
  | task (id : TaskId)
  /-- The change of the current task, if there is one. -/
  | change (handoff : Option Handoff)
  /-- The message that was taken, if there was one. -/
  | message (m : Option Message)
  /-- The messages that were taken. -/
  | messages (ms : List Message)
  /-- The round of waiting: the message that was taken or the change it led to. -/
  | waited (m : Option Message) (handoff : Option Handoff)
  /-- Whether the quantum has ended. -/
  | expired (ended : Bool)
  deriving DecidableEq, Repr

namespace Response

/-- The response to an answer that may be a refusal. -/
def ofAnswer {α : Type} (f : α → Response) : Answer α → Response
  | .ok a => f a
  | .error error => .refused error

end Response

namespace Dispatcher

/-- A dispatcher with a fresh clock. -/
def ofScheduler (s : Scheduler) (clockConfig : Config) : Dispatcher :=
  ⟨s, .create clockConfig⟩

/-- The same clock with another state of the scheduler. -/
def withScheduler (d : Dispatcher) (s : Scheduler) : Dispatcher :=
  { d with scheduler := s }

/-- Does what is asked. -/
def perform (d : Dispatcher) : Request → Run Effect (Response × Dispatcher)
  | .newTask => do
    let (id, s) ← d.scheduler.newTask
    return (.task id, d.withScheduler s)
  | .prepare id entry data allocate cr3 => do
    let (answer, s) ← d.scheduler.prepareTask id entry data allocate cr3
    return (.ofAnswer .task answer, d.withScheduler s)
  | .spawn entry data level allocate cr3 => do
    let (answer, s) ← d.scheduler.spawn entry data level allocate cr3
    return (.ofAnswer .task answer, d.withScheduler s)
  | .sleep id => do
    let (answer, s) ← d.scheduler.sleep id
    return (.ofAnswer .change answer, d.withScheduler s)
  | .wakeup id level => do
    let (answer, s) ← d.scheduler.wakeup id level
    return (.ofAnswer (fun _ => .done) answer, d.withScheduler s)
  | .changeLevel id level => do
    let (answer, s) ← d.scheduler.changeLevel id level
    return (.ofAnswer (fun _ => .done) answer, d.withScheduler s)
  | .switch => do
    let (change, s) ← d.scheduler.switchTask
    return (.change change, d.withScheduler s)
  | .send id m => do
    let (answer, s) ← d.scheduler.send id m
    return (.ofAnswer (fun _ => .done) answer, d.withScheduler s)
  | .receive id =>
    let (answer, s) := d.scheduler.receive id
    return (.ofAnswer .message answer, d.withScheduler s)
  | .receiveCurrent => do
    let (m, s) ← d.scheduler.receiveCurrent
    return (.message m, d.withScheduler s)
  | .drain id =>
    let (answer, s) := d.scheduler.drain id
    return (.ofAnswer .messages answer, d.withScheduler s)
  | .wait => do
    let (m, change, s) ← d.scheduler.waitStep
    return (.waited m change, d.withScheduler s)
  | .addTimer due value => do
    let c ← d.clock.addTimer due value
    return (.done, { d with clock := c })
  | .arm => do
    let c ← d.clock.arm
    return (.done, { d with clock := c })
  | .tick => do
    let (ended, c, s) ← d.clock.tick d.scheduler
    return (.expired ended, ⟨s, c⟩)
  | .timerInterrupt => do
    let (change, c, s) ← Interrupt.onTimer d.clock d.scheduler
    return (.change change, ⟨s, c⟩)
  | .deviceInterrupt receiver device => do
    let s ← Interrupt.onDevice d.scheduler receiver device
    return (.done, d.withScheduler s)

/-- Does what is asked, one request after the other, until one of them stops. -/
def performAll (d : Dispatcher) : List Request → Run Effect (List Response × Dispatcher)
  | [] => return ([], d)
  | r :: rest => do
    let (response, d) ← d.perform r
    (fun (responses, d) => (response :: responses, d)) <$> d.performAll rest

/-- A history that is cut in two is the second part, run from where the first one ends. -/
theorem performAll_append (d : Dispatcher) (xs ys : List Request) :
    d.performAll (xs ++ ys) = do
      let (before, d) ← d.performAll xs
      let (after, d) ← d.performAll ys
      return (before ++ after, d) := by
  induction xs generalizing d with
  | nil => simp [performAll]
  | cons r rest ih =>
    rw [List.cons_append, performAll, performAll]
    simp only [ih, map_eq_pure_bind, bind_assoc, pure_bind]
    rfl

end Dispatcher

end PreemptiveKernel
