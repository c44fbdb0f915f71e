/-
  Refusals.

  A refusal is an answer, not an accident: the caller asked for something that cannot be
  had, nothing has changed, and the caller may go on.  What ends a computation for good is
  a `Stop` and lives in a module of its own.
-/
import PreemptiveKernel.TaskId

namespace PreemptiveKernel

/-- Why a request was refused. -/
inductive KernelError
  /-- No task has this identifier. -/
  | noSuchTask (id : TaskId)
  /-- The number names no priority level. -/
  | invalidLevel (level : Nat)
  /-- There was no memory for a stack of this many bytes. -/
  | allocationFailure (bytes : Nat)
  deriving DecidableEq, Repr, Inhabited

namespace KernelError

/-- The sentence shown to a person. -/
def message : KernelError → String
  | noSuchTask id => s!"no such task: {id}"
  | invalidLevel level => s!"invalid priority level {level}"
  | allocationFailure bytes => s!"allocation of {bytes} bytes failed"

instance : ToString KernelError := ⟨message⟩

/-- The name of the cause alone. -/
def kind : KernelError → String
  | noSuchTask _ => "NoSuchTask"
  | invalidLevel _ => "InvalidLevel"
  | allocationFailure _ => "AllocationFailure"

/-- The structural form, which shows the cause with the value it carries. -/
def structuralText : KernelError → String
  | noSuchTask id => s!"NoSuchTask(TaskId({id.val}))"
  | invalidLevel level => s!"InvalidLevel({level})"
  | allocationFailure bytes => s!"AllocationFailure \x7b bytes: {bytes} \x7d"

end KernelError

example : (KernelError.noSuchTask ⟨7⟩).message = "no such task: #7" := by decide

example : (KernelError.allocationFailure 5).structuralText =
    "AllocationFailure \x7b bytes: 5 \x7d" := by decide

end PreemptiveKernel
