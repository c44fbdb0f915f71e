/-
  Segment descriptors.

  The descriptor table has five words: an empty one, the kernel's code segment, the
  kernel's data segment, and two words for the task state segment, which holds the stacks
  for faults.  In the first three the base and the limit mean nothing, since the whole
  address space is one segment; the descriptor of the task state segment has a base, cut
  into three parts that do not lie side by side.
-/
import PreemptiveKernel.Selector

namespace PreemptiveKernel.Segment

/-! ## Code and data -/

/-- The bits of a descriptor, by their names in the processor's manual. -/
inductive Flag
  | lowLimit
  | accessed
  | writable
  | executable
  | userSegment
  | present
  | highLimit
  | longMode
  | defaultSize
  | granularity
  deriving DecidableEq, Repr

/-- The word with the bits of a flag and no others. -/
def Flag.mask : Flag → Nat
  | .lowLimit => 0xFFFF
  | .accessed => 1 <<< 40
  | .writable => 1 <<< 41
  | .executable => 1 <<< 43
  | .userSegment => 1 <<< 44
  | .present => 1 <<< 47
  | .highLimit => 0xF <<< 48
  | .longMode => 1 <<< 53
  | .defaultSize => 1 <<< 54
  | .granularity => 1 <<< 55

/-- The descriptor with these flags. -/
def ofFlags (flags : List Flag) : Nat :=
  flags.foldl (fun acc flag => acc ||| flag.mask) 0

/-- What code and data have in common. -/
def commonFlags : List Flag :=
  [.userSegment, .present, .writable, .accessed, .lowLimit, .highLimit, .granularity]

/-- The kernel's code segment. -/
def code : Nat :=
  ofFlags (commonFlags ++ [.executable, .longMode])

/-- The kernel's data segment. -/
def data : Nat :=
  ofFlags (commonFlags ++ [.defaultSize])

/-! ## The task state segment -/

/-- A task state segment.  Of what it could hold, only the stacks matter. -/
structure TaskState where
  /-- The stack of the inmost ring. -/
  rsp0 : Nat
  /-- The stack of the second ring. -/
  rsp1 : Nat
  /-- The stack of the third ring. -/
  rsp2 : Nat
  /-- The stacks that a gate can ask for, from number one on. -/
  interruptStacks : Vector Nat 7
  /-- Where the map of permitted ports would begin. -/
  portMap : Nat
  deriving DecidableEq

/-- The size of a task state segment in bytes: four that are not used, the stacks of the
    three rings, a word that is not used, the seven interrupt stacks, and a word and two
    bytes that are not used before the two bytes that say where the map of ports begins. -/
def taskStateBytes : Nat := 4 + 3 * 8 + 8 + 7 * 8 + 8 + 2 + 2

/-- A task state segment without stacks, whose map of ports begins where it ends: there is
    none. -/
def TaskState.empty : TaskState :=
  ⟨0, 0, 0, Vector.replicate 7 0, taskStateBytes⟩

/-- Present, and a task state segment that is not in use. -/
def taskStateAccess : Nat := 0x89

/-- The two words of the descriptor of a task state segment at `base`. -/
def taskState (base : Nat) : Nat × Nat :=
  let limit := taskStateBytes - 1
  (limit % 0x10000
      + base % 0x1000000 * 0x10000
      + taskStateAccess * 0x100_0000_0000
      + limit / 0x10000 % 0x10 * 0x1_0000_0000_0000
      + base / 0x1000000 % 0x100 * 0x100_0000_0000_0000,
   base / 0x1_0000_0000)

/-! ## The table -/

/-- The number of the interrupt stack that a double fault uses. -/
def doubleFaultStack : Nat := 1

/-- The table for a task state segment at `base`. -/
def table (base : Nat) : List Nat :=
  [0, code, data, (taskState base).1, (taskState base).2]

/-- The limit that the table is loaded with: its last byte. -/
def tableLimit : Nat :=
  (table 0).length * 8 - 1

example : code = 49428545226735615 ∧ data = 58426948388454399 := by decide

example : (table 0)[Selector.kernelCode.toNat / 8]? = some code ∧
    (table 0)[Selector.kernelData.toNat / 8]? = some data ∧
    (table 0)[Selector.taskState.toNat / 8]? = some (taskState 0).1 := by decide

end PreemptiveKernel.Segment
