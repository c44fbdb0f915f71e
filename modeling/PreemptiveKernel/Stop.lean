/-
  Why a computation ends for good.

  A stop is final: no state survives it, only what was written or sent before.  Overflow is
  one of its causes because all arithmetic on machine words is checked; the others are
  contradictions between the queues and the task table, uses of a part of the kernel before
  it exists, and the faults and failures that the boot sequence cannot survive.
-/
import PreemptiveKernel.Fault
import PreemptiveKernel.Level

namespace PreemptiveKernel

/-- A cause that ends the kernel. -/
inductive Stop
  /-- A sum does not fit into its word. -/
  | addOverflow
  /-- A difference falls below the range of its word. -/
  | subOverflow
  /-- The level that should hold the current task is empty. -/
  | noCurrentTask (level : Level)
  /-- A queue holds an identifier that the task table does not know. -/
  | queuedUnknown (id : TaskId)
  /-- A task is not in the queue where its level says it is. -/
  | notQueued (id : TaskId) (level : Level)
  /-- The scheduler was used before it was set up. -/
  | schedulerMissing
  /-- The clock was used before it was set up. -/
  | clockMissing
  /-- A lock is waited for that nobody will release. -/
  | lockNeverReleased
  /-- A task's entry function came to its end. -/
  | taskReturned
  /-- The processor reported a fault. -/
  | processorFault (fault : Fault)
  /-- The loader does not speak the protocol revision that the kernel needs. -/
  | loaderUnsupported
  /-- There was no memory for something that the kernel cannot do without. -/
  | outOfMemory (bytes : Nat)
  /-- The memory of the heap holds no word boundary. -/
  | heapBackwards
  /-- The memory map has no room for the kernel's heap. -/
  | heapUnavailable
  /-- The scheduler could not be set up at boot. -/
  | schedulerRefused (error : KernelError)
  /-- A task that the boot sequence needs could not be created. -/
  | taskRefused (name : String) (error : KernelError)
  deriving DecidableEq, Repr

namespace Stop

/-- The sentence that is the kernel's last. -/
def message : Stop → String
  | addOverflow => "attempt to add with overflow"
  | subOverflow => "attempt to subtract with overflow"
  | noCurrentTask level => s!"queue inconsistency: level {level.val} has no current task"
  | queuedUnknown id => s!"queue inconsistency: task {id} is queued but unknown"
  | notQueued id level => s!"queue inconsistency: task {id} is not in ready queue {level.val}"
  | schedulerMissing => "sched: used before sched::init()"
  | clockMissing => "timer: used before timer::init()"
  | lockNeverReleased => "lock never released"
  | taskReturned => "task returned from its entry function"
  | processorFault fault => fault.message
  | loaderUnsupported => "Limine base revision is not supported by the bootloader"
  | outOfMemory bytes => s!"memory allocation of {bytes} bytes failed"
  | heapBackwards => "assertion failed: start <= end"
  | heapUnavailable => "heap: no usable memory region for the kernel heap"
  | schedulerRefused error => s!"sched: {error}"
  | taskRefused name error => s!"{name} task: {error}"

end Stop

end PreemptiveKernel
