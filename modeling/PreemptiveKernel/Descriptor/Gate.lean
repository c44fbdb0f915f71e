/-
  Interrupt gates.

  A gate says where an interrupt or a fault is handled: the address of the handler, cut into
  three parts, the code segment it runs in, the interrupt stack it asks for, and the kind
  of gate.  It takes sixteen bytes, each part with its low byte first.
-/
import PreemptiveKernel.Interrupt
import PreemptiveKernel.Selector
import PreemptiveKernel.Descriptor.Segment

namespace PreemptiveKernel

/-- An interrupt gate. -/
structure Gate where
  /-- The low sixteen bits of the handler's address. -/
  offsetLow : Nat
  /-- The code segment. -/
  selector : Nat
  /-- The interrupt stack; zero for none. -/
  stack : Nat
  /-- Kind and attributes. -/
  attributes : Nat
  /-- The next sixteen bits of the address. -/
  offsetMid : Nat
  /-- The high thirty-two bits of the address. -/
  offsetHigh : Nat
  /-- Not used. -/
  reserved : Nat
  deriving DecidableEq, Repr

namespace Gate

/-- Present, for the inmost ring, masking interrupts on entry. -/
def interruptAttributes : Nat := 0x8E

/-- No gate. -/
def missing : Gate := ⟨0, 0, 0, 0, 0, 0, 0⟩

/-- The gate to a handler. -/
def ofHandler (handler selector stack attributes : Nat) : Gate where
  offsetLow := handler % 0x10000
  selector := selector
  stack := stack
  attributes := attributes
  offsetMid := handler / 0x10000 % 0x10000
  offsetHigh := handler / 0x100000000
  reserved := 0

/-- The address of the handler, put together from its parts. -/
def handler (g : Gate) : Nat :=
  g.offsetLow + g.offsetMid * 0x10000 + g.offsetHigh * 0x100000000

/-- The low `count` bytes of a number, the lowest first. -/
def littleEndian : Nat → Nat → List UInt8
  | 0, _ => []
  | count + 1, n => (n % 256).toUInt8 :: littleEndian count (n / 256)

/-- The sixteen bytes of a gate. -/
def bytes (g : Gate) : List UInt8 :=
  littleEndian 2 g.offsetLow ++ littleEndian 2 g.selector ++ littleEndian 1 g.stack ++
    littleEndian 1 g.attributes ++ littleEndian 2 g.offsetMid ++
    littleEndian 4 g.offsetHigh ++ littleEndian 4 g.reserved

/-! ## The table -/

/-- The vectors of the faults that are handled, each with the interrupt stack it asks for. -/
def faultVectors : List (Nat × Nat) :=
  [(0x00, 0), (0x06, 0), (0x08, Segment.doubleFaultStack), (0x0D, 0), (0x0E, 0)]

/-- The vectors that have a gate, each with its interrupt stack. -/
def vectors : List (Nat × Nat) :=
  faultVectors ++ Interrupt.all.map fun i => (i.vector.toNat, 0)

/-- The limit that the table is loaded with: the last byte of its 256 gates. -/
def tableLimit : Nat := 256 * 16 - 1

end Gate

example : (Gate.ofHandler 0x1122334455667788 8 0 0x8E).bytes =
    [0x88, 0x77, 8, 0, 0, 0x8E, 0x66, 0x55, 0x44, 0x33, 0x22, 0x11, 0, 0, 0, 0] := by decide

end PreemptiveKernel
