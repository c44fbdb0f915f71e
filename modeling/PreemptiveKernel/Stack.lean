/-
  Task stacks.

  A stack is a row of words at a base address.  All words are zero until they are written,
  so only the written ones are kept.  A stack never changes its size and is never given
  back.

  Stacks come from an allocator, which may refuse: it answers with the stack or with the
  reason why there is none.
-/
import PreemptiveKernel.KernelError

namespace PreemptiveKernel

/-- What a word of a stack holds. -/
inductive StackWord
  /-- A number. -/
  | number (n : Nat)
  /-- The address of the routine that reports a task which came to its end. -/
  | returnTrap
  deriving DecidableEq, Repr

/-- The memory that a task uses as its stack. -/
structure Stack where
  /-- The address of the lowest word. -/
  base : Nat
  /-- The number of words. -/
  words : Nat
  /-- The words that have been written, the last writing first. -/
  written : List (Nat × StackWord)
  deriving DecidableEq, Repr

namespace Stack

/-- A stack on which nothing has been written. -/
def zeroed (base words : Nat) : Stack :=
  ⟨base, words, []⟩

/-- The length in bytes. -/
def bytes (s : Stack) : Nat :=
  s.words * 8

/-- The address just past the last word. -/
def top (s : Stack) : Nat :=
  s.base + s.bytes

/-- The word at an index. -/
def word (s : Stack) (i : Nat) : StackWord :=
  ((s.written.find? fun p => p.1 = i).map Prod.snd).getD (.number 0)

/-- Writes a word. -/
def write (s : Stack) (i : Nat) (w : StackWord) : Stack :=
  { s with written := (i, w) :: s.written }

@[simp] theorem word_zeroed (base words i : Nat) : (zeroed base words).word i = .number 0 := rfl

theorem word_write (s : Stack) (i j : Nat) (w : StackWord) :
    (s.write i w).word j = if i = j then w else s.word j := by
  by_cases h : i = j <;> simp [write, word, h]

@[simp] theorem words_write (s : Stack) (i : Nat) (w : StackWord) :
    (s.write i w).words = s.words := rfl

@[simp] theorem base_write (s : Stack) (i : Nat) (w : StackWord) :
    (s.write i w).base = s.base := rfl

end Stack

/-! ## Allocators -/

/-- A source of stacks: for a number of bytes, a stack or a refusal. -/
abbrev StackAllocator := Nat → Except KernelError Stack

namespace StackAllocator

/-- Requests from this size on are refused at once: no machine has so much memory. -/
def refusalBytes : Nat := 0x4000_0000_0000_0000

/-- Where the stacks of the heap lie.  The address is not a fact of the program; what
    matters is that it is a multiple of sixteen. -/
def heapBase : Nat := 0x100000

/-- Stacks from the heap: as many words as cover the bytes.  A stack without words lies
    nowhere and is given the smallest address that a word can have. -/
def heap : StackAllocator := fun bytes =>
  if refusalBytes ≤ bytes then .error (.allocationFailure bytes)
  else if bytes = 0 then .ok (.zeroed 8 0)
  else .ok (.zeroed heapBase ((bytes + 7) / 8))

/-- No memory at all. -/
def exhausted : StackAllocator := fun bytes => .error (.allocationFailure bytes)

/-- Asks the heap for `bytes` bytes whatever is asked for. -/
def fixed (bytes : Nat) : StackAllocator := fun _ => heap bytes

/-- Refuses with `error` whatever is asked for. -/
def refusing (error : KernelError) : StackAllocator := fun _ => .error error

end StackAllocator

example : (StackAllocator.heap 32768).toOption.map Stack.words = some 4096 := by decide

end PreemptiveKernel
