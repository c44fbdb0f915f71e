/-
  Tasks.

  A task is what the scheduler hands the processor to: saved registers, a stack of its own
  and an inbox.  A new task sleeps at the ordinary level and has neither stack nor a place
  to begin; `prepare` gives it both.

  A task is prepared where it is, by assignments to its fields.  What becomes of it if the
  preparation does not come to its end is a question of their order, so `Task.Work` keeps the task
  beside the outcome, whatever that is.  The three ways in which a preparation can end are
  `preparation_of_refusal`, `preparation_of_stop` and `preparation_of_done`: only in the last
  of them the task has been touched.

  The stack pointer of a prepared task is eight past a multiple of sixteen, which is how a
  routine finds the stack right after it has been called.  The word it points at is where
  the routine would return to, and it holds a trap: a task's routine must not return.
-/
import PreemptiveKernel.Context
import PreemptiveKernel.Effect
import PreemptiveKernel.Message
import PreemptiveKernel.Selector
import PreemptiveKernel.Stack
import PreemptiveKernel.Word.Checked

namespace PreemptiveKernel

/-- A unit of scheduling. -/
structure Task where
  /-- The identifier the task was created with. -/
  id : TaskId
  /-- Its priority level. -/
  level : Level
  /-- It stands in the ready queue of its level. -/
  running : Bool
  /-- The size of the stack it is to have. -/
  stackBytes : Nat
  /-- Its stack; the main task has none, because it runs on the boot stack. -/
  stack : Option Stack
  /-- Its registers while it does not run. -/
  context : Context
  /-- The messages that wait for it. -/
  inbox : Inbox
  deriving DecidableEq

namespace Task

/-- A task as it is created: asleep, without stack and without a beginning. -/
def create (id : TaskId) (stackBytes : Nat) : Task where
  id := id
  level := .ordinary
  running := false
  stackBytes := stackBytes
  stack := none
  context := .zeroed
  inbox := .empty

/-- Puts a message into the inbox.  Waking the task is the scheduler's part. -/
def deliver (t : Task) (m : Message) : Task :=
  { t with inbox := t.inbox.push m }

/-- Takes the oldest message out of the inbox, if there is one. -/
def receive (t : Task) : Option Message × Task :=
  (t.inbox.pop.1, { t with inbox := t.inbox.pop.2 })

/-- The registers with which `entry` begins as task `id`, given its stack pointer: the
    identifier and the data are the arguments of the call, the page tables are those that are
    rooted at `cr3`, interrupts are let through, and the control words have their initial
    values. -/
def firstContext (id : TaskId) (entry : EntryPoint) (data : Int64) (cr3 : UInt64) (rsp : Nat) :
    Context :=
  let registers : Context :=
    { Context.zeroed with
      rip := some entry
      rdi := id.val.toUInt64
      rsi := data.toUInt64
      cr3 := cr3
      rflags := initialFlags
      cs := Selector.kernelCode.toUInt64
      ss := Selector.kernelData.toUInt64
      rsp := rsp }
  (registers.setFcw initialFcw).setMxcsr initialMxcsr

/-- The stack pointer for a first run on a stack: eight below the last multiple of
    sixteen. -/
def firstStackPointer (stack : Stack) : Except Stop Nat := do
  let top ← Word.add stack.base stack.bytes
  Word.sub (top / 16 * 16) 8

/-! ## Preparing -/

/-- Work on a task in place.  It may stop, and the task is there afterwards even then. -/
abbrev Work (α : Type) := ExceptT Stop (StateT Task (Run Effect)) α

/-- Does the work on a task. -/
def Work.on {α : Type} (work : Work α) (t : Task) : Run Effect (Except Stop α × Task) :=
  work.run.run t

/-- A value, or a stop of the work. -/
def Work.ofExcept {α : Type} (x : Except Stop α) : Work α :=
  ExceptT.mk (pure x)

/-! ### What work does to a task -/

namespace Work

variable {α β : Type}

@[simp] theorem on_pure (a : α) (t : Task) : on (pure a) t = pure (.ok a, t) := rfl

/-- After a stop the task stays as it is. -/
@[simp] theorem on_bind (x : Work α) (f : α → Work β) (t : Task) :
    on (x >>= f) t = x.on t >>= fun p =>
      match p.1 with
      | .ok a => (f a).on p.2
      | .error s => pure (.error s, p.2) := by
  show (x.on t >>= fun p => ExceptT.bindCont f p.1 p.2) = _
  congr 1
  funext p
  cases p.1 <;> rfl

@[simp] theorem on_get (t : Task) : on get t = pure (.ok t, t) := rfl

@[simp] theorem on_modify (f : Task → Task) (t : Task) :
    on (modify f) t = pure (.ok (), f t) := rfl

@[simp] theorem on_ofExcept (x : Except Stop α) (t : Task) :
    on (.ofExcept x) t = pure (x, t) := rfl

@[simp] theorem on_run (run : Run Effect α) (t : Task) :
    on (liftM run) t = run >>= fun a => pure (.ok a, t) := by
  show ((run >>= fun a => pure (a, t)) >>= fun p => pure (Except.ok p.1, p.2)) = _
  rw [bind_assoc]
  rfl

end Work

/-- Gives the task a fresh stack and lets it begin with `entry` on its next run, with the page
    tables that the processor has now.  The allocator is asked first, and the addresses are found
    before anything is assigned. -/
def preparation (entry : EntryPoint) (data : Int64) (allocate : StackAllocator) (cr3 : UInt64) :
    Work (Except KernelError Unit) := do
  let t ← get
  Effect.ask (.stack t.stackBytes)
  match allocate t.stackBytes with
  | .error error => return .error error
  | .ok stack =>
    let rsp ← .ofExcept (firstStackPointer stack)
    let offset ← .ofExcept (Word.sub rsp stack.base)
    modify fun t => { t with context := firstContext t.id entry data cr3 rsp }
    modify fun t => { t with stack := some (stack.write (offset / 8) .returnTrap) }
    Effect.note .debug Source.task s!"task {t.id} context:"
    return .ok ()

/-- Prepares a task: gives the answer, and the task as it is then. -/
def prepare (t : Task) (entry : EntryPoint) (data : Int64) (allocate : StackAllocator)
    (cr3 : UInt64) : Run Effect (Except KernelError Unit × Task) := do
  let (ending, t) ← (preparation entry data allocate cr3).on t
  return (← ending, t)

section

variable {t : Task} {entry : EntryPoint} {data : Int64} {allocate : StackAllocator} {cr3 : UInt64}
  {stack : Stack}

/-- A refusal is handed on, and the task is as it was. -/
theorem preparation_of_refusal {error : KernelError}
    (refusal : allocate t.stackBytes = .error error) :
    (preparation entry data allocate cr3).on t =
      ⟨[.need (.stack t.stackBytes)], .ok (.ok (.error error), t)⟩ := by
  simp only [preparation, Work.on_bind, Work.on_get, Work.on_run, pure_bind, bind_assoc, refusal]
  rfl

/-- An address that cannot be found stops the work when the task has not been touched yet. -/
theorem preparation_of_stop {s : Stop} (given : allocate t.stackBytes = .ok stack)
    (stopped : (do Word.sub (← firstStackPointer stack) stack.base) = .error s) :
    (preparation entry data allocate cr3).on t =
      ⟨[.need (.stack t.stackBytes)], .ok (.error s, t)⟩ := by
  cases pointer : firstStackPointer stack with
  | error s' =>
    rw [pointer] at stopped
    obtain rfl := Except.error.inj stopped
    simp only [preparation, Work.on_bind, Work.on_get, Work.on_run, pure_bind, bind_assoc, given,
      pointer, Work.on_ofExcept]
    rfl
  | ok rsp =>
    rw [pointer] at stopped
    have stopped : Word.sub rsp stack.base = .error s := stopped
    simp only [preparation, Work.on_bind, Work.on_get, Work.on_run, pure_bind, bind_assoc, given,
      pointer, stopped, Work.on_ofExcept]
    rfl

/-- Otherwise the task gets its registers and its stack. -/
theorem preparation_of_done {rsp offset : Nat} (given : allocate t.stackBytes = .ok stack)
    (pointer : firstStackPointer stack = .ok rsp) (slot : Word.sub rsp stack.base = .ok offset) :
    (preparation entry data allocate cr3).on t =
      ⟨[.need (.stack t.stackBytes),
          .log ⟨.debug, Source.task, s!"task {t.id} context:"⟩],
        .ok (.ok (.ok ()),
          { t with
            context := firstContext t.id entry data cr3 rsp
            stack := some (stack.write (offset / 8) .returnTrap) })⟩ := by
  simp only [preparation, Work.on_bind, Work.on_get, Work.on_run, pure_bind, bind_assoc, given,
    pointer, slot, Work.on_ofExcept, Work.on_modify]
  rfl

/-- What is answered, with the task as it is then. -/
theorem prepare_of_answer {trace : List Effect} {answer : Except KernelError Unit} {t' : Task}
    (h : (preparation entry data allocate cr3).on t = ⟨trace, .ok (.ok answer, t')⟩) :
    t.prepare entry data allocate cr3 = ⟨trace, .ok (answer, t')⟩ := by
  rw [prepare, h, Run.bind_of_ok rfl]
  exact congrArg (Run.mk · _) (List.append_nil trace)

/-- Where the work stops nobody is answered. -/
theorem prepare_of_stop {trace : List Effect} {s : Stop} {t' : Task}
    (h : (preparation entry data allocate cr3).on t = ⟨trace, .ok (.error s, t')⟩) :
    t.prepare entry data allocate cr3 = ⟨trace, .error s⟩ := by
  rw [prepare, h, Run.bind_of_ok rfl]
  exact congrArg (Run.mk · _) (List.append_nil trace)

end

end Task

end PreemptiveKernel
