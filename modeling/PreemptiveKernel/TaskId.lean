/-
  Task identifiers.

  Every task gets one when it is created: counting starts at one and an identifier is
  never used twice, so it is an address that stays good for as long as the kernel runs.
-/
namespace PreemptiveKernel

/-- The address of a task. -/
structure TaskId where
  /-- The position of the task in the order of creation, counted from one. -/
  val : Nat
  deriving DecidableEq, Repr, Inhabited

namespace TaskId

/-- The written form: a hash sign and the number. -/
def text (id : TaskId) : String :=
  s!"#{id.val}"

instance : ToString TaskId := ⟨text⟩

end TaskId

example : (TaskId.mk 7).text = "#7" := by decide

end PreemptiveKernel
