/-
  Descriptors lose nothing.

  The descriptor of the task state segment cuts the base into three parts that do not lie side by
  side, and a gate cuts the address of its handler into three.  What is proved here reads them from
  the other side, as the processor does: the bits of a word from one place to another are a number
  (`Word.bits`), and the parts that belong together are joined again.  Every bit of the two words is
  read in one place or another, so a part that was cut too short, or that ran into its neighbour,
  would show.  The crux is that a number cut at two places is the join of its parts (`join_cut`),
  and it is the same for both.

  A gate is more than its fields: in memory it is sixteen bytes.  They are read back with the low
  byte first (`Gate.ofBytes`), and this gives the gate again as long as every field fits into its
  bytes (`ofBytes_bytes`).  So gates that differ anywhere differ in memory.
-/
import PreemptiveKernel.Descriptor.Gate
import PreemptiveKernel.Word

namespace PreemptiveKernel

/-! ## The bits of a word -/

namespace Word

/-- The number that stands in `count` bits of a word, from the bit `first` on. -/
def bits (word first count : Nat) : Nat :=
  (word >>> first) % (1 <<< count)

theorem one_shiftLeft_pos (count : Nat) : 0 < 1 <<< count := by
  rw [Nat.one_shiftLeft]
  exact Nat.two_pow_pos count

/-- Two numbers that lie side by side do not touch. -/
theorem or_shiftLeft {low count : Nat} (h : low < 1 <<< count) (high : Nat) :
    low ||| high <<< count = low + (1 <<< count) * high := by
  rw [Nat.one_shiftLeft] at h ⊢
  rw [Nat.or_comm, ← Nat.shiftLeft_add_eq_or_of_lt h, Nat.shiftLeft_eq, Nat.mul_comm, Nat.add_comm]

/-- **A number that is cut at two places is the join of its parts.** -/
theorem join_cut (n a b : Nat) :
    n % (1 <<< a) ||| (n / (1 <<< a) % (1 <<< b)) <<< a ||| (n / (1 <<< (a + b))) <<< (a + b) = n := by
  have unit : 1 <<< (a + b) = (1 <<< a) * (1 <<< b) := by
    rw [Nat.one_shiftLeft, Nat.one_shiftLeft, Nat.one_shiftLeft, Nat.pow_add]
  have lower : n % (1 <<< a) ||| (n / (1 <<< a) % (1 <<< b)) <<< a = n % (1 <<< (a + b)) := by
    rw [or_shiftLeft (Nat.mod_lt _ (one_shiftLeft_pos a)), unit, Nat.mod_mul]
  rw [lower, or_shiftLeft (Nat.mod_lt _ (one_shiftLeft_pos _)), Nat.mod_add_div]

end Word

/-! ## The task state segment -/

namespace Segment

/-- **The descriptor of a system segment**, as the processor reads its two words. -/
structure Describes (base limit access : Nat) (d : Nat × Nat) : Prop where
  /-- They are words. -/
  words : d.1 < Word.bound ∧ d.2 < Word.bound
  /-- The base is joined from bits 16 to 39 and 56 to 63 of the first word and bits 0 to 31 of the
      second. -/
  base : Word.bits d.1 16 24 ||| Word.bits d.1 56 8 <<< 24 ||| Word.bits d.2 0 32 <<< 32 = base
  /-- The limit is joined from bits 0 to 15 and 48 to 51 of the first word. -/
  limit : Word.bits d.1 0 16 ||| Word.bits d.1 48 4 <<< 16 = limit
  /-- The access byte is in bits 40 to 47 of the first word. -/
  access : Word.bits d.1 40 8 = access
  /-- All other bits are zero. -/
  rest : Word.bits d.1 52 4 = 0 ∧ Word.bits d.2 32 32 = 0

/-- What stands in the bits of the two words, for a base that is a word. -/
theorem bits_taskState {base : Nat} (h : base < Word.bound) :
    Word.bits (taskState base).1 0 16 = taskStateBytes - 1 ∧
    Word.bits (taskState base).1 16 24 = base % (1 <<< 24) ∧
    Word.bits (taskState base).1 40 8 = taskStateAccess ∧
    Word.bits (taskState base).1 48 4 = 0 ∧
    Word.bits (taskState base).1 52 4 = 0 ∧
    Word.bits (taskState base).1 56 8 = base / (1 <<< 24) % (1 <<< 8) ∧
    Word.bits (taskState base).2 0 32 = base / (1 <<< (24 + 8)) ∧
    Word.bits (taskState base).2 32 32 = 0 := by
  unfold Word.bound at h
  unfold Word.bits taskState taskStateBytes taskStateAccess
  simp only [Nat.shiftRight_eq_div_pow, Nat.one_shiftLeft, Nat.reducePow, Nat.reduceAdd]
  omega

theorem taskState_lt {base : Nat} (h : base < Word.bound) :
    (taskState base).1 < Word.bound ∧ (taskState base).2 < Word.bound := by
  unfold Word.bound at *
  unfold taskState taskStateBytes taskStateAccess
  dsimp only
  omega

theorem describes_taskState {base : Nat} (h : base < Word.bound) :
    Describes base (taskStateBytes - 1) taskStateAccess (taskState base) := by
  obtain ⟨limitLow, low, access, limitHigh, flags, mid, high, rest⟩ := bits_taskState h
  refine ⟨taskState_lt h, ?base, ?limit, access, flags, rest⟩
  case base =>
    rw [low, mid, high]
    exact Word.join_cut base 24 8
  case limit =>
    rw [limitLow, limitHigh]
    rfl

example : taskState 0x1122334455667788 = (0x5500896677880067, 0x11223344) := by decide

end Segment

/-! ## Gates -/

namespace Gate

/-- Every field of the gate fits into its bytes. -/
structure Fits (g : Gate) : Prop where
  offsetLow : g.offsetLow < 1 <<< 16
  selector : g.selector < 1 <<< 16
  stack : g.stack < 1 <<< 8
  attributes : g.attributes < 1 <<< 8
  offsetMid : g.offsetMid < 1 <<< 16
  offsetHigh : g.offsetHigh < 1 <<< 32
  reserved : g.reserved < 1 <<< 32

/-- **The gate to a handler**, as the processor reads its fields. -/
structure LeadsTo (handler : UInt64) (selector : UInt16) (stack attributes : UInt8) (g : Gate) :
    Prop where
  /-- Every field has the width that it is to have. -/
  fits : g.Fits
  /-- The address of the handler is joined from its three parts. -/
  address : g.offsetLow ||| g.offsetMid <<< 16 ||| g.offsetHigh <<< 32 = handler.toNat
  /-- The other fields are as given. -/
  given : g.selector = selector.toNat ∧ g.stack = stack.toNat ∧ g.attributes = attributes.toNat
  /-- What is not used is zero. -/
  unused : g.reserved = 0

theorem leadsTo_ofHandler (handler : UInt64) (selector : UInt16) (stack attributes : UInt8) :
    LeadsTo handler selector stack attributes
      (ofHandler handler.toNat selector.toNat stack.toNat attributes.toNat) where
  fits := {
    offsetLow := Nat.mod_lt _ (by decide)
    selector := selector.toNat_lt
    stack := stack.toNat_lt
    attributes := attributes.toNat_lt
    offsetMid := Nat.mod_lt _ (by decide)
    offsetHigh := Nat.div_lt_of_lt_mul handler.toNat_lt
    reserved := Word.one_shiftLeft_pos 32 }
  address := Word.join_cut handler.toNat 16 16
  given := ⟨rfl, rfl, rfl⟩
  unused := rfl

/-- A gate leads to one handler only. -/
theorem LeadsTo.unique {handler handler' : UInt64} {selector selector' : UInt16}
    {stack stack' attributes attributes' : UInt8} {g : Gate}
    (h : LeadsTo handler selector stack attributes g)
    (h' : LeadsTo handler' selector' stack' attributes' g) :
    handler = handler' ∧ selector = selector' ∧ stack = stack' ∧ attributes = attributes' := by
  obtain ⟨sel, st, att⟩ := h.given
  obtain ⟨sel', st', att'⟩ := h'.given
  exact ⟨UInt64.toNat_inj.mp (h.address.symm.trans h'.address),
    UInt16.toNat_inj.mp (sel.symm.trans sel'), UInt8.toNat_inj.mp (st.symm.trans st'),
    UInt8.toNat_inj.mp (att.symm.trans att')⟩

/-! ## Gates in memory -/

/-- The number with these bytes, the lowest first. -/
def number : List UInt8 → Nat
  | [] => 0
  | b :: rest => b.toNat + 256 * number rest

theorem number_littleEndian {count n : Nat} (h : n < 1 <<< (8 * count)) :
    number (littleEndian count n) = n := by
  induction count generalizing n with
  | zero =>
    obtain rfl : n = 0 := Nat.lt_one_iff.mp h
    rfl
  | succ count ih =>
    have unit : 1 <<< (8 * (count + 1)) = 256 * 1 <<< (8 * count) := by
      rw [Nat.one_shiftLeft, Nat.one_shiftLeft, Nat.mul_succ, Nat.pow_add, Nat.mul_comm]
    have small : n / 256 < 1 <<< (8 * count) := Nat.div_lt_of_lt_mul (unit ▸ h)
    have byte : (n % 256).toUInt8.toNat = n % 256 := Nat.mod_mod n 256
    show (n % 256).toUInt8.toNat + 256 * number (littleEndian count (n / 256)) = n
    rw [ih small, byte, Nat.mod_add_div]

/-- The gate that stands in sixteen bytes of memory. -/
def ofBytes (bytes : List UInt8) : Gate where
  offsetLow := number (bytes.take 2)
  selector := number ((bytes.drop 2).take 2)
  stack := number ((bytes.drop 4).take 1)
  attributes := number ((bytes.drop 5).take 1)
  offsetMid := number ((bytes.drop 6).take 2)
  offsetHigh := number ((bytes.drop 8).take 4)
  reserved := number ((bytes.drop 12).take 4)

/-- **What is written to memory is read back.** -/
theorem ofBytes_bytes {g : Gate} (h : g.Fits) : ofBytes g.bytes = g := by
  show Gate.mk (number (littleEndian 2 g.offsetLow)) (number (littleEndian 2 g.selector))
    (number (littleEndian 1 g.stack)) (number (littleEndian 1 g.attributes))
    (number (littleEndian 2 g.offsetMid)) (number (littleEndian 4 g.offsetHigh))
    (number (littleEndian 4 g.reserved)) = g
  rw [number_littleEndian h.offsetLow, number_littleEndian h.selector,
    number_littleEndian h.stack, number_littleEndian h.attributes,
    number_littleEndian h.offsetMid, number_littleEndian h.offsetHigh,
    number_littleEndian h.reserved]

end Gate

/-! ## Every descriptor -/

/-- **Descriptors lose nothing.**

    1. The two words for a task state segment describe, for every base that is a word, exactly this
       base, the limit of the segment and its access byte; all other bits are zero.
    2. Different bases give different words.
    3. The gate to a handler holds, for every address and every selector, stack and attributes, this
       address and the others as given; what is not used is zero.
    4. Its sixteen bytes are the same only if all of these are the same. -/
theorem descriptors_lose_nothing :
    (∀ base : UInt64, Segment.Describes base.toNat (Segment.taskStateBytes - 1) 0x89
      (Segment.taskState base.toNat)) ∧
    (∀ base base' : UInt64,
      Segment.taskState base.toNat = Segment.taskState base'.toNat ↔ base = base') ∧
    (∀ (handler : UInt64) (selector : UInt16) (stack attributes : UInt8),
      Gate.LeadsTo handler selector stack attributes
        (.ofHandler handler.toNat selector.toNat stack.toNat attributes.toNat)) ∧
    ∀ (handler handler' : UInt64) (selector selector' : UInt16)
      (stack stack' attributes attributes' : UInt8),
      (Gate.ofHandler handler.toNat selector.toNat stack.toNat attributes.toNat).bytes =
        (Gate.ofHandler handler'.toNat selector'.toNat stack'.toNat attributes'.toNat).bytes ↔
      handler = handler' ∧ selector = selector' ∧ stack = stack' ∧ attributes = attributes' := by
  refine ⟨fun base => Segment.describes_taskState base.toNat_lt, fun base base' => ?bases,
    Gate.leadsTo_ofHandler, fun handler handler' selector selector' stack stack' attributes
      attributes' => ?gates⟩
  case bases =>
    refine ⟨fun same => ?_, fun same => by rw [same]⟩
    have there := (Segment.describes_taskState base.toNat_lt).base
    have here := (Segment.describes_taskState base'.toNat_lt).base
    rw [same] at there
    exact UInt64.toNat_inj.mp (there.symm.trans here)
  case gates =>
    have there := Gate.leadsTo_ofHandler handler selector stack attributes
    have here := Gate.leadsTo_ofHandler handler' selector' stack' attributes'
    constructor
    · intro same
      -- the bytes tell the gate, and the gate tells where it leads
      have gate := congrArg Gate.ofBytes same
      rw [Gate.ofBytes_bytes there.fits, Gate.ofBytes_bytes here.fits] at gate
      exact there.unique (gate ▸ here)
    · rintro ⟨rfl, rfl, rfl, rfl⟩
      rfl

end PreemptiveKernel
