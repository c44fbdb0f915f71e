/-
  What the scheduler does when it is asked.

  Every operation takes the state and gives the answer and the state after it.  An answer
  that is a refusal leaves the state as it was.  Only `switchTask` and the sleep of the
  current task change who runs, and they say so by a `Handoff`; to carry it out is the
  caller's part.

  Tasks, queues and inboxes grow.  Whenever one does, the trace says so before anything that
  comes after it is logged, so that a kernel without room ends at that point.

  The idle task neither sleeps nor leaves its level, so there is always a task to run.
-/
import PreemptiveKernel.Scheduler.Basic

namespace PreemptiveKernel

/-- An answer of the scheduler that may be a refusal. -/
abbrev Answer (α : Type) := Except KernelError α

namespace Scheduler

/-- Writes a log record of the scheduler. -/
def note (severity : Severity) (text : String) : Run Effect Unit :=
  Effect.note severity Source.scheduler text

/-- Asks for the room that the ready queue of a level needs now. -/
def askQueue (s : Scheduler) (l : Level) : Run Effect Unit :=
  Effect.ask (.row (.ready l) (s.queue l).length)

/-! ## Creation -/

/-- Creates a sleeping task that has no place to begin yet. -/
def newTask (s : Scheduler) : Run Effect (TaskId × Scheduler) := do
  let number ← Word.add s.latest 1
  let id : TaskId := ⟨number⟩
  Effect.ask (.task id)
  return (id,
    { s with
      latest := number
      tasks := match s.tasks.get? id with
        | some _ => s.tasks
        | none => s.tasks.insert id (.create id s.config.stackBytes) })

/-- Gives an existing task a fresh stack and a place to begin.  Whatever the answer, the table has
    the task as it is then. -/
def prepareTask (s : Scheduler) (id : TaskId) (entry : EntryPoint) (data : Int64)
    (allocate : StackAllocator) (cr3 : UInt64) : Run Effect (Answer TaskId × Scheduler) :=
  match s.tasks.get? id with
  | none => return (.error (.noSuchTask id), s)
  | some task => do
    let (answer, task) ← task.prepare entry data allocate cr3
    return (answer.map fun _ => task.id, s.modifyTask id fun _ => task)

/-- The state before any task: what `create` starts from. -/
def blank (config : Config) : Scheduler where
  tasks := .empty
  latest := 0
  ready := Vector.replicate 4 []
  currentLevel := .top
  reschedule := false
  main := ⟨0⟩
  idle := ⟨0⟩
  config := config

/-- Sets a scheduler up.  The flow of control that does so becomes the main task, ready at
    the highest level; the idle task is ready at the lowest. -/
def create (config : Config) (allocate : StackAllocator) (cr3 : UInt64 := addressSpace) :
    Run Effect (Answer Scheduler) := do
  let (main, s) ← (blank config).newTask
  let s := ((s.setLevel main .top).setRunning main true).pushBack .top main
  s.askQueue .top
  let (idle, s) ← { s with main := main }.newTask
  match ← s.prepareTask idle .idle 0 allocate cr3 with
  | (.error error, _) => return .error error
  | (.ok _, s) =>
    let s := ((s.setLevel idle .bottom).setRunning idle true).pushBack .bottom idle
    s.askQueue .bottom
    note .debug s!"task manager ready: main {main}, idle {idle}"
    return .ok { s with idle := idle }

/-! ## Turns -/

/-- Ends the turn of the current task and begins that of the next. -/
def switchTask (s : Scheduler) : Run Effect (Option Handoff × Scheduler) := do
  let (change, s) ← s.rotate false
  return (← s.handoff change, s)

/-- Puts a task to sleep.  A sleeping task stays asleep, and the idle task stays awake. -/
def sleep (s : Scheduler) (id : TaskId) :
    Run Effect (Answer (Option Handoff) × Scheduler) :=
  match s.tasks.get? id with
  | none => return (.error (.noSuchTask id), s)
  | some task =>
    if !task.running then
      return (.ok none, s)
    else if id = s.idle then do
      note .warn s!"idle task {id} cannot sleep"
      return (.ok none, s)
    else do
      let s := s.setRunning id false
      if id = (← s.currentId) then
        let (change, s) ← s.rotate true
        note .trace s!"task {change.leaving} sleeps, {change.entering} runs"
        return (.ok (← s.handoff change), s)
      else
        let s ← s.dequeue task.level id
        note .trace s!"task {id} sleeps"
        return (.ok none, s)

/-! ## Levels and waking -/

/-- Gives a task another level.  A ready task joins the tail of its new queue; the current
    task joins the head of it, and the current level follows.  A sleeping task keeps the
    level for its next waking. -/
def moveTask (s : Scheduler) (id : TaskId) (l : Level) :
    Run Effect (Answer Unit × Scheduler) :=
  match s.tasks.get? id with
  | none => return (.error (.noSuchTask id), s)
  | some task =>
    let old := task.level
    if l = old then
      return (.ok (), s)
    else if id = s.idle then do
      note .warn s!"idle task {id} stays at level {old.val}"
      return (.ok (), s)
    else if !task.running then
      return (.ok (), s.setLevel id l)
    else do
      if id = (← s.currentId) then
        let moved := ((s.popFront s.currentLevel).pushFront l id).setLevel id l
        let s := if l < s.currentLevel then moved.requestReschedule else moved
        s.askQueue l
        note .debug s!"current task {id} moved from level {old.val} to {l.val}"
        return (.ok (), { s with currentLevel := l })
      else
        let s ← s.dequeue old id
        let s := ((s.pushBack l id).setLevel id l).noteReadyAt l
        s.askQueue l
        note .debug s!"task {id} moved from level {old.val} to {l.val}"
        return (.ok (), s)

/-- Gives a task another level, named by its number. -/
def changeLevel (s : Scheduler) (id : TaskId) (level : Nat) :
    Run Effect (Answer Unit × Scheduler) :=
  match Level.ofNat? level with
  | .error error => return (.error error, s)
  | .ok l => s.moveTask id l

/-- Makes a task ready, at level `l` or, if none is given, at the level it has.  For a
    task that is ready already this is a change of level or nothing. -/
def wakeTask (s : Scheduler) (id : TaskId) (l : Option Level) :
    Run Effect (Answer Unit × Scheduler) :=
  match s.tasks.get? id with
  | none => return (.error (.noSuchTask id), s)
  | some task =>
    if task.running then
      match l with
      | some l => s.moveTask id l
      | none => return (.ok (), s)
    else do
      let l := l.getD task.level
      let s := (((s.setLevel id l).setRunning id true).pushBack l id).noteReadyAt l
      s.askQueue l
      note .trace s!"task {id} woken at level {l.val}"
      return (.ok (), s)

/-- Makes a task ready, at a level named by its number if one is given. -/
def wakeup (s : Scheduler) (id : TaskId) (level : Option Nat) :
    Run Effect (Answer Unit × Scheduler) :=
  match level with
  | none => s.wakeTask id none
  | some n =>
    match Level.ofNat? n with
    | .error error => return (.error error, s)
    | .ok l => s.wakeTask id (some l)

/-- Creates a task, gives it a place to begin and makes it ready at a level.  If anything
    is refused, no task is created and its number is not spent. -/
def spawn (s : Scheduler) (entry : EntryPoint) (data : Int64) (level : Nat)
    (allocate : StackAllocator) (cr3 : UInt64) : Run Effect (Answer TaskId × Scheduler) :=
  match Level.ofNat? level with
  | .error error => return (.error error, s)
  | .ok l => do
    let number ← Word.add s.latest 1
    let id : TaskId := ⟨number⟩
    Effect.ask (.task id)
    match ← (Task.create id s.config.stackBytes).prepare entry data allocate cr3 with
    | (.error error, _) => return (.error error, s)
    | (.ok (), task) =>
      let registered := { s with latest := number, tasks := s.tasks.insert id task }
      let (woken, s) ← registered.wakeTask id (some l)
      return (woken.map fun _ => id, s)

/-! ## Messages -/

/-- Puts a message into a task's inbox and wakes the task. -/
def send (s : Scheduler) (id : TaskId) (m : Message) :
    Run Effect (Answer Unit × Scheduler) :=
  match s.tasks.get? id with
  | none => return (.error (.noSuchTask id), s)
  | some task => do
    Effect.ask (.row (.inbox id) (task.deliver m).inbox.size)
    (s.modifyTask id (·.deliver m)).wakeTask id none

/-- Takes the oldest message out of a task's inbox. -/
def receive (s : Scheduler) (id : TaskId) : Answer (Option Message) × Scheduler :=
  match s.tasks.get? id with
  | none => (.error (.noSuchTask id), s)
  | some task => (.ok task.receive.1, s.modifyTask id (·.receive.2))

/-- Takes every message out of a task's inbox, the oldest first. -/
def drain (s : Scheduler) (id : TaskId) : Answer (List Message) × Scheduler :=
  match s.tasks.get? id with
  | none => (.error (.noSuchTask id), s)
  | some task =>
    (.ok task.inbox.messages, s.modifyTask id fun t => { t with inbox := .empty })

/-- Takes the oldest message out of the current task's inbox. -/
def receiveCurrent (s : Scheduler) : Except Stop (Option Message × Scheduler) := do
  let id ← s.currentId
  let task ← s.queuedTask id
  return (task.receive.1, s.modifyTask id (·.receive.2))

/-- One round of waiting: the current task takes its oldest message or, if there is none,
    goes to sleep.  Both happen in one step, so that no message can arrive in between. -/
def waitStep (s : Scheduler) :
    Run Effect (Option Message × Option Handoff × Scheduler) := do
  let id ← s.currentId
  let task ← s.queuedTask id
  match task.receive with
  | (some m, rest) => return (some m, none, s.modifyTask id fun _ => rest)
  | (none, _) =>
    match ← s.sleep task.id with
    | (.ok change, s) => return (none, change, s)
    | (.error _, s) => return (none, none, s)

/-! ## Exchange -/

/-- Exchanges the task under key `a` of one scheduler with the task under key `b` of
    another.  Keys and queues stay as they are. -/
def exchange (s : Scheduler) (a : TaskId) (t : Scheduler) (b : TaskId) :
    Answer Unit × Scheduler × Scheduler :=
  match s.task a, t.task b with
  | .error error, _ => (.error error, s, t)
  | .ok _, .error error => (.error error, s, t)
  | .ok x, .ok y => (.ok (), s.modifyTask a fun _ => y, t.modifyTask b fun _ => x)

end Scheduler

end PreemptiveKernel
