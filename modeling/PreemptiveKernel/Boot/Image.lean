/-
  The kernel image: how it boots, and how it runs.

  The boot sequence sets the devices, the descriptor tables, the heap, the clock and the
  scheduler up, in this order, and creates two tasks beside the main one: the terminal, and
  a counter that never sleeps.  If anything it needs cannot be had, it stops.

  The image is then run in turns.  Whenever the counter is current, the machine waits for
  an interrupt; every other task runs undisturbed until it sleeps.  `settle` lets the tasks
  run until the counter is current again.
-/
import PreemptiveKernel.Descriptor.Gate
import PreemptiveKernel.Kernel.Programs
import PreemptiveKernel.MemoryMap
import PreemptiveKernel.Pit

namespace PreemptiveKernel.Boot

open Kernel

/-! ## What the image finds -/

/-- What the loader reports. -/
structure Loader where
  /-- It speaks the protocol revision that the kernel needs. -/
  supported : Bool
  /-- Where in the address space all memory can be seen. -/
  offset : Option Nat
  /-- The memory of the machine. -/
  memory : Option (List MemoryMap.Entry)
  /-- Where the page tables that it has set up are rooted. -/
  cr3 : UInt64 := addressSpace
  deriving DecidableEq, Repr

/-- The machine as the loader leaves it: interrupts are masked, and no logger is
    installed. -/
def bareMachine (loader : Loader) : Machine :=
  { Machine.initial .absent loader.cr3 with interrupts := false }

/-- Control register zero as the loader leaves it. -/
def initialCr0 : UInt64 := 0x8001001D

/-- Control register four as the loader leaves it. -/
def initialCr4 : UInt64 := 0x20

/-- Control register zero with floating point switched on: the processor has it, waits for
    it, and does not trap its first use. -/
def floatingCr0 (cr0 : UInt64) : UInt64 :=
  (cr0 ||| 0x2) &&& ~~~(0x4 ||| 0x8)

/-- Control register four with the saving of floating point state and its exceptions
    switched on. -/
def floatingCr4 (cr4 : UInt64) : UInt64 :=
  cr4 ||| 0x200 ||| 0x400

/-! ## The boot sequence -/

/-- Loads the descriptor tables, sets the interrupt controllers up, and switches floating
    point on. -/
def setUpProcessor : Kernel Unit := do
  observe .segmentsLoaded
  observe (.codeSegmentLoaded Selector.kernelCode)
  observe (.taskStateLoaded Selector.taskState)
  access Pic.setup
  observe .gatesLoaded
  observe (.controlWritten 0 (floatingCr0 initialCr0))
  observe (.controlWritten 4 (floatingCr4 initialCr4))

/-- Gives the heap its memory. -/
def setUpHeap (loader : Loader) : Kernel Unit := do
  match ← carry (pure ())
      (MemoryMap.heapRegion loader.offset loader.memory Config.heapBytes) with
  | none => stop .heapUnavailable
  | some region =>
    let heap ← Heap.ofRegion region.start region.bytes
    modify fun m => { m with memory := some (.ofHeap heap) }
    note .info Source.heap s!"heap: {region.bytes / 1024} KiB at {Word.hex region.start}"

/-- Creates a task that the image cannot do without. -/
def requireTask (name : String) (entry : EntryPoint) : Kernel TaskId := do
  match ← newTask entry 0 Level.ordinary.val with
  | .ok id => return id
  | .error e => stop (.taskRefused name e)

/-- The running image: what each of its programs carries. -/
structure Image where
  /-- The main task. -/
  main : MainTask
  /-- The terminal's task. -/
  terminal : TaskId
  /-- What the terminal carries, once it has begun. -/
  terminalTask : Option TerminalTask
  /-- The counter's task. -/
  counter : TaskId
  /-- The counter has begun. -/
  counting : Bool
  deriving DecidableEq

/-- Everything up to the point where the main task waits for its first message. -/
def startUp (loader : Loader) : Kernel Image := do
  access Uart.setup
  print ["Kairos booting...", "\n"]
  modify fun m => { m with logger := m.logger.install .serial }
  if !loader.supported then stop .loaderUnsupported
  setUpProcessor
  note .info Source.image "arch: GDT, IDT, PIC ready"
  setUpHeap loader
  setUpClock .standard
  match ← setUpScheduler .standard with
  | .ok () => pure ()
  | .error e => stop (.schedulerRefused e)
  armQuantum
  access (Pit.setup Config.ticksPerSecond)
  note .info Source.image
    s!"timer: {Config.ticksPerSecond} Hz, quantum {Config.imageQuantum} ticks"
  let terminal ← requireTask "terminal" .terminal
  let counter ← requireTask "counter" .counter
  let main ← currentTaskId
  print [s!"Kairos ready: main {main}, terminal {terminal}", "\n"]
  setInterrupts true
  return ⟨← MainTask.start terminal, terminal, none, counter, false⟩

/-! ## Running -/

/-- A task begins with its entry routine. -/
def enter (id : TaskId) : Kernel Unit := do
  let scheduler := (← get).scheduler.map Locked.value
  match scheduler.bind (·.tasks.get? id) with
  | none => stop (.queuedUnknown id)
  | some task =>
    let c := task.context
    observe (.entered c.rdi.toNat c.rsi.toInt64 c.cs.toNat c.rflags.toNat c.ss.toNat)

/-- The current task, as far as it can be told without taking part. -/
def current (m : Machine) : Option TaskId :=
  (m.scheduler.map Locked.value).bind fun s => s.currentId.toOption

/-- Lets the tasks run until the counter is current, for at most so many rounds. -/
def settleFor : Nat → Image → Kernel Image
  | 0, image => return image
  | rounds + 1, image => do
    let id := current (← get)
    if id = some image.counter then
      if image.counting then return image
      else
        enter image.counter
        return { image with counting := true }
    else if id = some image.terminal then
      match image.terminalTask with
      | none =>
        enter image.terminal
        let task ← TerminalTask.start image.terminal
        settleFor rounds { image with terminalTask := some task }
      | some task =>
        let task ← iterate TerminalTask.act task
        settleFor rounds { image with terminalTask := some task }
    else
      let main ← iterate MainTask.act image.main
      settleFor rounds { image with main := main }

/-- What waits to be done: the messages in all inboxes, and the bytes of the keyboard. -/
def workload (m : Machine) : Nat :=
  let inboxes := match m.scheduler with
    | some lock => lock.value.tasks.tasks.foldr (fun t total => t.inbox.size + total) 0
    | none => 0
  inboxes + m.keyboard.buffer.length

/-- Lets the tasks run until the counter is current.  A message or a byte leads to three
    messages at most, each of which costs a round and perhaps a sleep. -/
def settle (image : Image) : Kernel Image := do
  settleFor (8 * workload (← get) + 16) image

/-! ## What comes from outside -/

/-- Something that happens while the counter runs. -/
inductive Happening
  /-- So many timer interrupts. -/
  | timers (count : Nat)
  /-- An interrupt that the controller withdraws. -/
  | spurious
  /-- The keyboard sends bytes, and interrupts once. -/
  | keys (bytes : List UInt8)
  /-- The processor reports a fault. -/
  | fault (f : Fault)
  deriving DecidableEq, Repr

/-- No interrupts at all: nothing happens. -/
def Happening.isNothing : Happening → Bool
  | .timers count => count == 0
  | _ => false

/-- The processor takes an interrupt: it masks further ones for as long as the handler
    runs. -/
def take (i : Interrupt) : Kernel Unit := do
  let saved := (← get).interrupts
  setInterrupts false
  handle i
  setInterrupts saved

/-- Timer interrupts, each when the counter is current again. -/
def takeTimers : Nat → Image → Kernel Image
  | 0, image => return image
  | count + 1, image => do
    take .timer
    let image ← settle image
    takeTimers count image

/-- Something happens, and the tasks do what is to be done about it. -/
def happen (image : Image) : Happening → Kernel Image
  | .timers count => takeTimers count image
  | .spurious => do
    take .spurious
    settle image
  | .keys bytes => do
    modify fun m =>
      { m with keyboard := { m.keyboard with buffer := m.keyboard.buffer ++ bytes } }
    take .keyboard
    settle image
  | .fault f => stop (.processorFault f)

/-- From power-up to the point where the counter runs for the first time. -/
def boot (loader : Loader) : Kernel Image := do
  let image ← startUp loader
  settle image

end PreemptiveKernel.Boot
