/-
  The saved registers of a task.

  A context holds the registers of a task that does not run, and the area into which its
  floating point state is saved.  The switch routine finds the fields by their distance
  from the start of the context, so the order of the fields in memory is a contract; the
  two sides of it are `Slot.memoryOffset`, which follows from the order, and `Slot.routineOffset`,
  which is what the routine uses.  The closing example says that they agree.

  Two control words live at fixed places of the floating point area: the x87 control word
  in its first two bytes, and the SSE control and status word in bytes 24 to 27, both with
  the low byte first.
-/
namespace PreemptiveKernel

/-- The routine that a task begins with. -/
inductive EntryPoint
  /-- Waits for interrupts for ever. -/
  | idle
  /-- The terminal of the kernel image. -/
  | terminal
  /-- The counter of the kernel image. -/
  | counter
  /-- Any other routine, by its number. -/
  | routine (number : Nat)
  deriving DecidableEq, Repr

/-! ## Control words -/

/-- Bit 1 of the flags register, which always reads as one. -/
def reservedFlag : UInt64 := 0x2

/-- Bit 9 of the flags register: maskable interrupts are let through. -/
def interruptFlag : UInt64 := 0x200

/-- The flags register with which a task begins. -/
def initialFlags : UInt64 := interruptFlag ||| reservedFlag

/-- The x87 control word with which a task begins: all exceptions masked, 64-bit
    precision, rounding to nearest. -/
def initialFcw : UInt16 := 0x037F

/-- The SSE control word with which a task begins: all exceptions masked. -/
def initialMxcsr : UInt32 := 0x1F80

/-- The root of the page tables as it reads where the processor's register is out of reach, as it is
    for a kernel that another one hosts. -/
def addressSpace : UInt64 := 0

/-! ## The context -/

/-- The registers of a task that does not run. -/
structure Context where
  /-- Root of the page tables. -/
  cr3 : UInt64
  /-- Where the task goes on; `none` before it has been given a beginning. -/
  rip : Option EntryPoint
  /-- Flags. -/
  rflags : UInt64
  /-- Code segment selector. -/
  cs : UInt64
  /-- Stack segment selector. -/
  ss : UInt64
  /-- Segment selector of thread data. -/
  fs : UInt64
  /-- Segment selector of thread data. -/
  gs : UInt64
  /-- Accumulator. -/
  rax : UInt64
  /-- Kept across calls. -/
  rbx : UInt64
  /-- Fourth argument of a call. -/
  rcx : UInt64
  /-- Third argument of a call. -/
  rdx : UInt64
  /-- First argument of a call. -/
  rdi : UInt64
  /-- Second argument of a call. -/
  rsi : UInt64
  /-- Stack pointer, a word kept as a number like every address. -/
  rsp : Nat
  /-- Frame pointer. -/
  rbp : UInt64
  /-- General purpose. -/
  r8 : UInt64
  /-- General purpose. -/
  r9 : UInt64
  /-- General purpose. -/
  r10 : UInt64
  /-- General purpose. -/
  r11 : UInt64
  /-- General purpose. -/
  r12 : UInt64
  /-- General purpose. -/
  r13 : UInt64
  /-- General purpose. -/
  r14 : UInt64
  /-- General purpose. -/
  r15 : UInt64
  /-- Floating point state. -/
  fxsave : Vector UInt8 512
  deriving DecidableEq

namespace Context

/-- All registers zero, no beginning. -/
def zeroed : Context where
  cr3 := 0
  rip := none
  rflags := 0
  cs := 0
  ss := 0
  fs := 0
  gs := 0
  rax := 0
  rbx := 0
  rcx := 0
  rdx := 0
  rdi := 0
  rsi := 0
  rsp := 0
  rbp := 0
  r8 := 0
  r9 := 0
  r10 := 0
  r11 := 0
  r12 := 0
  r13 := 0
  r14 := 0
  r15 := 0
  fxsave := Vector.replicate 512 0

/-- The x87 control word. -/
def fcw (c : Context) : UInt16 :=
  c.fxsave[0].toUInt16 ||| (c.fxsave[1].toUInt16 <<< 8)

/-- Changes the x87 control word. -/
def setFcw (c : Context) (v : UInt16) : Context :=
  { c with fxsave := (c.fxsave.set 0 v.toUInt8).set 1 (v >>> 8).toUInt8 }

/-- The SSE control and status word. -/
def mxcsr (c : Context) : UInt32 :=
  c.fxsave[24].toUInt32 ||| (c.fxsave[25].toUInt32 <<< 8) |||
    (c.fxsave[26].toUInt32 <<< 16) ||| (c.fxsave[27].toUInt32 <<< 24)

/-- Changes the SSE control and status word. -/
def setMxcsr (c : Context) (v : UInt32) : Context :=
  { c with fxsave := (((c.fxsave.set 24 v.toUInt8).set 25 (v >>> 8).toUInt8).set 26
      (v >>> 16).toUInt8).set 27 (v >>> 24).toUInt8 }

/-- Changes one byte of the floating point area; a place outside it is left alone. -/
def setByte (c : Context) (i : Nat) (v : UInt8) : Context :=
  { c with fxsave := c.fxsave.setIfInBounds i v }

/-- The bytes of the floating point area that are not zero, with their places. -/
def nonzeroBytes (c : Context) : List (Nat × UInt8) :=
  (c.fxsave.toList.zipIdx.filter fun p => p.1 != 0).map fun p => (p.2, p.1)

/-- Interrupts are let through when the context is resumed. -/
def interruptsEnabled (c : Context) : Bool :=
  c.rflags &&& interruptFlag != 0

/-- The flag that always reads as one does so here. -/
def reservedFlagSet (c : Context) : Bool :=
  c.rflags &&& reservedFlag != 0

/-- The flags that the kernel knows of, without the others. -/
def knownFlags (c : Context) : UInt64 :=
  c.rflags &&& initialFlags

/-- No flag is set that the kernel does not know of. -/
def onlyKnownFlags (c : Context) : Bool :=
  c.knownFlags == c.rflags

end Context

/-! ## The order in memory -/

/-- A field of a context as the switch routine addresses it. -/
inductive Slot
  | cr3 | rip | rflags | reserved | cs | ss | fs | gs
  | rax | rbx | rcx | rdx | rdi | rsi | rsp | rbp
  | r8 | r9 | r10 | r11 | r12 | r13 | r14 | r15
  | fxsave
  deriving DecidableEq, Repr

namespace Slot

/-- The fields in the order in which they lie in memory.  The reserved one keeps the
    segment selectors where the routine expects them. -/
def inMemory : List Slot :=
  [cr3, rip, rflags, reserved, cs, ss, fs, gs, rax, rbx, rcx, rdx, rdi, rsi, rsp, rbp,
    r8, r9, r10, r11, r12, r13, r14, r15, fxsave]

/-- The size of a field in bytes: a register is one word. -/
def size : Slot → Nat
  | fxsave => 512
  | _ => 8

/-- The distance of a field from the start: the sizes of the fields before it. -/
def memoryOffset (f : Slot) : Nat :=
  (inMemory.takeWhile (· ≠ f)).foldr (fun g total => g.size + total) 0

/-- The distance at which the switch routine looks for a field; it never looks for the
    reserved one. -/
def routineOffset : Slot → Option Nat
  | cr3 => some 0x00
  | rip => some 0x08
  | rflags => some 0x10
  | reserved => none
  | cs => some 0x20
  | ss => some 0x28
  | fs => some 0x30
  | gs => some 0x38
  | rax => some 0x40
  | rbx => some 0x48
  | rcx => some 0x50
  | rdx => some 0x58
  | rdi => some 0x60
  | rsi => some 0x68
  | rsp => some 0x70
  | rbp => some 0x78
  | r8 => some 0x80
  | r9 => some 0x88
  | r10 => some 0x90
  | r11 => some 0x98
  | r12 => some 0xa0
  | r13 => some 0xa8
  | r14 => some 0xb0
  | r15 => some 0xb8
  | fxsave => some 0xc0

/-- The name of a field. -/
def name : Slot → String
  | cr3 => "cr3"
  | rip => "rip"
  | rflags => "rflags"
  | reserved => "reserved"
  | cs => "cs"
  | ss => "ss"
  | fs => "fs"
  | gs => "gs"
  | rax => "rax"
  | rbx => "rbx"
  | rcx => "rcx"
  | rdx => "rdx"
  | rdi => "rdi"
  | rsi => "rsi"
  | rsp => "rsp"
  | rbp => "rbp"
  | r8 => "r8"
  | r9 => "r9"
  | r10 => "r10"
  | r11 => "r11"
  | r12 => "r12"
  | r13 => "r13"
  | r14 => "r14"
  | r15 => "r15"
  | fxsave => "fxsave_area"

end Slot

namespace Context

/-- The size of a context in bytes. -/
def byteSize : Nat :=
  Slot.inMemory.foldr (fun f total => f.size + total) 0

/-- A context starts at a multiple of this, as the floating point area requires. -/
def alignment : Nat := 16

end Context

/-- **The two sides of the contract agree**: every field lies where the switch routine
    looks for it. -/
theorem Slot.routineOffset_eq_memoryOffset (f : Slot) :
    f.routineOffset = none ∧ f = reserved ∨ f.routineOffset = some f.memoryOffset := by
  cases f <;> decide

example : Context.byteSize = 704 ∧ Context.byteSize % Context.alignment = 0 := by decide

end PreemptiveKernel
