/-
  Segment selectors.

  Every task runs with the kernel's own segments, so there is one selector for code, one
  for data and the stack, and one for the task state segment.  A selector is the distance
  of its descriptor from the start of the descriptor table.
-/
namespace PreemptiveKernel.Selector

/-- The kernel's code segment. -/
def kernelCode : UInt16 := 0x08

/-- The kernel's data and stack segment. -/
def kernelData : UInt16 := 0x10

/-- The task state segment. -/
def taskState : UInt16 := 0x18

end PreemptiveKernel.Selector
