/-
  Key events give the bytes back.

  A stroke of a key goes over the line as one byte or two: the mark, if the key is in the extended
  set, and the code, whose high bit says that the key goes up (`KeyStroke.encoding`).  A key event
  keeps the same three things in another form, the set in the high bit of the key code and the
  direction beside it (`KeyEvent.stroke`).  So nothing about the keys is lost in between: the
  events of a stream, encoded again, are the stream, and the strokes of an encoding are decoded as
  they are.

  Two things stand in the way of a plain inverse.  A mark before another mark, and one at the end,
  give no event and leave no trace (`collapsed`); and the release of code 0x60 has the mark itself
  for its byte (`lastByte_eq_mark_iff`), so no keyboard can send it.

  The crux is the mark that has been read and not yet used.  An induction over the stream carries
  it in front of the bytes that are still to come (`Keyboard.pending`).
-/
import PreemptiveKernel.Proofs.Decoding

namespace PreemptiveKernel

/-! ## The bytes of a stroke -/

/-- What holds of the numbers below 256 holds of all bytes. -/
theorem forall_byte {p : UInt8 → Prop} (h : ∀ n : Fin 256, p (UInt8.ofNat n.val)) (b : UInt8) :
    p b := by
  have hb := h ⟨b.toNat, b.toNat_lt⟩
  rwa [UInt8.ofNat_toNat] at hb

namespace KeyStroke

/-- The byte that a stroke ends with: the code, and the high bit if the key goes up. -/
def lastByte (code : UInt8) (press : Bool) : UInt8 :=
  if press then code else code ||| Keyboard.releaseBit

/-- The bytes of a stroke: the mark, if the key is in the extended set, and the last byte. -/
def encoding (s : KeyStroke) : List UInt8 :=
  (if s.extended then [Keyboard.extendedMark] else []) ++ [lastByte s.code s.press]

/-- A stroke that a keyboard can send: the code leaves the high bit free, and it is not the release
    of code 0x60. -/
def Sendable (s : KeyStroke) : Prop :=
  s.code < 0x80 ∧ ¬ (s.code = 0x60 ∧ s.press = false)

instance (s : KeyStroke) : Decidable s.Sendable :=
  inferInstanceAs (Decidable (_ ∧ _))

/-- The last byte tells the code and the direction. -/
theorem lastByte_reads {code : UInt8} (h : code < 0x80) (press : Bool) :
    lastByte code press &&& 0x7F = code ∧
      (lastByte code press &&& Keyboard.releaseBit == 0) = press := by
  revert h
  refine forall_byte (p := fun b => b < 0x80 → lastByte b press &&& 0x7F = b ∧
    (lastByte b press &&& Keyboard.releaseBit == 0) = press) ?_ code
  cases press with
  | true => decide +kernel
  | false => decide +kernel

/-- **The mark is the release of code 0x60** and of no other. -/
theorem lastByte_eq_mark_iff {code : UInt8} (h : code < 0x80) (press : Bool) :
    lastByte code press = Keyboard.extendedMark ↔ code = 0x60 ∧ press = false := by
  revert h
  refine forall_byte (p := fun b => b < 0x80 →
    (lastByte b press = Keyboard.extendedMark ↔ b = 0x60 ∧ press = false)) ?_ code
  cases press with
  | true => decide +kernel
  | false => decide +kernel

/-- A byte is the last one of the stroke that is read from it. -/
theorem lastByte_of_byte (b : UInt8) :
    lastByte (b &&& 0x7F) (b &&& Keyboard.releaseBit == 0) = b := by
  refine forall_byte (p := fun b =>
    lastByte (b &&& 0x7F) (b &&& Keyboard.releaseBit == 0) = b) ?_ b
  decide +kernel

end KeyStroke

/-- The stroke that a key event tells of. -/
def KeyEvent.stroke (e : KeyEvent) : KeyStroke :=
  ⟨e.keycode &&& 0x7F, e.keycode &&& 0x80 != 0, e.press⟩

/-- The bytes of a key event: the mark, if the high bit of the key code is set, and the low bits of
    the key code, with the high bit set if the key went up. -/
def KeyEvent.encoding (e : KeyEvent) : List UInt8 :=
  e.stroke.encoding

namespace Keyboard

variable {k : Keyboard} {b : UInt8}

/-! ## Marks that leave no trace -/

/-- A stream in which every run of marks is one mark, and the run at its end is none: a mark stays
    only if something follows it and that is no mark. -/
def collapsed : List UInt8 → List UInt8
  | [] => []
  | b :: rest =>
    if b = extendedMark ∧ rest.head?.all (· == extendedMark) then collapsed rest
    else b :: collapsed rest

theorem collapsed_mark_mark (rest : List UInt8) :
    collapsed (extendedMark :: extendedMark :: rest) = collapsed (extendedMark :: rest) :=
  if_pos ⟨rfl, rfl⟩

theorem collapsed_of_ne (h : b ≠ extendedMark) (rest : List UInt8) :
    collapsed (b :: rest) = b :: collapsed rest :=
  if_neg fun hb => h hb.1

theorem collapsed_mark_of_ne (h : b ≠ extendedMark) (rest : List UInt8) :
    collapsed (extendedMark :: b :: rest) = extendedMark :: b :: collapsed rest := by
  have hkept : ¬ (extendedMark = extendedMark ∧
      (b :: rest).head?.all (· == extendedMark) = true) := by
    rintro ⟨-, hall⟩
    exact h (beq_iff_eq.mp hall)
  rw [collapsed, if_neg hkept, collapsed_of_ne h]

/-! ## One byte -/

/-- The mark that has been read and waits for the next byte. -/
def pending (k : Keyboard) : List UInt8 :=
  if k.extended then [extendedMark] else []

theorem decode_mark (k : Keyboard) : k.decode extendedMark = (none, { k with extended := true }) :=
  if_pos rfl

/-- **A byte that is not the mark gives the event of its stroke**, and no mark waits any more. -/
theorem stroke_of_decode (k : Keyboard) (h : b ≠ extendedMark) :
    ∃ e, (k.decode b).1 = some e ∧
      e.stroke = ⟨b &&& 0x7F, k.extended, b &&& releaseBit == 0⟩ ∧
      (k.decode b).2.extended = false := by
  refine ⟨_, fst_decode_of_ne k h, ?_, ?_⟩
  · unfold KeyEvent.stroke
    rw [KeyStroke.mk.injEq]
    refine ⟨low_bits_keycode b k.extended, ?_, rfl⟩
    rw [Bool.eq_iff_iff, bne_iff_ne]
    exact high_bit_keycode b k.extended
  · unfold decode
    rw [if_neg h]
    exact extended_apply _ _ _ _

/-- The event gives back the byte and the mark that waited for it. -/
theorem encoding_of_stroke {e : KeyEvent}
    (h : e.stroke = ⟨b &&& 0x7F, k.extended, b &&& releaseBit == 0⟩) :
    e.encoding = k.pending ++ [b] := by
  unfold KeyEvent.encoding KeyStroke.encoding
  rw [h, KeyStroke.lastByte_of_byte]
  rfl

theorem collapsed_pending (h : b ≠ extendedMark) (rest : List UInt8) :
    collapsed (k.pending ++ b :: rest) = k.pending ++ b :: collapsed rest := by
  unfold pending
  split
  · exact collapsed_mark_of_ne h rest
  · exact collapsed_of_ne h rest

/-! ## From bytes to events and back -/

/-- **The events of a stream encode the stream**, and the mark that waited before it. -/
theorem flatMap_encoding (k : Keyboard) (bytes : List UInt8) :
    (k.decodeAll bytes).1.flatMap KeyEvent.encoding = collapsed (k.pending ++ bytes) := by
  induction bytes generalizing k with
  | nil =>
    unfold pending
    split <;> rfl
  | cons b rest ih =>
    rw [decodeAll_cons]
    by_cases hmark : b = extendedMark
    · -- the mark waits, and a mark that waited before it is forgotten
      rw [hmark, decode_mark]
      refine (ih _).trans ?_
      show collapsed (extendedMark :: rest) = _
      unfold pending
      split
      · exact (collapsed_mark_mark rest).symm
      · rfl
    · obtain ⟨e, hevent, hstroke, hused⟩ := stroke_of_decode k hmark
      have hnone : (k.decode b).2.pending = [] := if_neg (by rw [hused]; exact Bool.false_ne_true)
      have hrest := ih (k.decode b).2
      rw [hnone, List.nil_append] at hrest
      rw [hevent, Option.toList_some, List.singleton_append, List.flatMap_cons, hrest,
        encoding_of_stroke hstroke, collapsed_pending hmark, List.append_assoc]
      rfl

/-! ## From strokes to bytes and back -/

/-- The bytes of a stroke give one event, and it tells of that stroke. -/
theorem decodeAll_encoding {s : KeyStroke} (plain : k.extended = false) (h : s.Sendable) :
    ∃ e, (k.decodeAll s.encoding).1 = [e] ∧ e.stroke = s ∧
      (k.decodeAll s.encoding).2.extended = false := by
  obtain ⟨hcode, hpress⟩ := KeyStroke.lastByte_reads h.1 s.press
  have hlast : KeyStroke.lastByte s.code s.press ≠ extendedMark := fun e =>
    h.2 ((KeyStroke.lastByte_eq_mark_iff h.1 s.press).mp e)
  -- whatever mark the stroke has in front has been read when its last byte comes
  have hfinal : ∀ k' : Keyboard, k'.extended = s.extended →
      ∃ e, (k'.decodeAll [KeyStroke.lastByte s.code s.press]).1 = [e] ∧ e.stroke = s ∧
        (k'.decodeAll [KeyStroke.lastByte s.code s.press]).2.extended = false := by
    intro k' hset
    obtain ⟨e, hevent, hstroke, hused⟩ := stroke_of_decode k' hlast
    refine ⟨e, ?_, ?_, hused⟩
    · rw [decodeAll_cons, hevent]
      rfl
    · rw [hstroke, hcode, hpress, hset]
  unfold KeyStroke.encoding
  cases hset : s.extended with
  | false => exact hfinal k (plain.trans hset.symm)
  | true =>
    obtain ⟨e, hevent, hstroke, hused⟩ := hfinal { k with extended := true } hset.symm
    refine ⟨e, ?_, hstroke, hused⟩
    rw [if_pos rfl, List.singleton_append, decodeAll_cons, decode_mark]
    exact hevent

/-- **The bytes of strokes are decoded as these strokes**, one event each, and no mark waits
    afterwards. -/
theorem map_stroke {strokes : List KeyStroke} (plain : k.extended = false)
    (h : ∀ s ∈ strokes, s.Sendable) :
    (k.decodeAll (strokes.flatMap KeyStroke.encoding)).1.map KeyEvent.stroke = strokes ∧
      (k.decodeAll (strokes.flatMap KeyStroke.encoding)).2.extended = false := by
  induction strokes generalizing k with
  | nil => exact ⟨rfl, plain⟩
  | cons s rest ih =>
    obtain ⟨e, hevent, hstroke, hused⟩ := decodeAll_encoding plain (h s List.mem_cons_self)
    obtain ⟨hlater, hplain⟩ := ih hused fun x hx => h x (List.mem_cons_of_mem s hx)
    rw [List.flatMap_cons, decodeAll_append, hevent]
    refine ⟨?_, hplain⟩
    rw [List.singleton_append, List.map_cons, hstroke, hlater]

/-- **No key is lost between bytes and events.**  Let no mark wait, whatever modifier keys are down
    and whether caps lock is on or not.  Then the events of any stream, encoded one after the other,
    are that stream with its runs of marks collapsed; and the encodings of any strokes that a
    keyboard can send are decoded as just these strokes, and leave no mark behind. -/
theorem no_key_lost (k : Keyboard) (plain : k.extended = false) :
    (∀ bytes, (k.decodeAll bytes).1.flatMap KeyEvent.encoding = collapsed bytes) ∧
    ∀ strokes : List KeyStroke, (∀ s ∈ strokes, s.Sendable) →
      (k.decodeAll (strokes.flatMap KeyStroke.encoding)).1.map KeyEvent.stroke = strokes ∧
      (k.decodeAll (strokes.flatMap KeyStroke.encoding)).2.extended = false := by
  refine ⟨fun bytes => ?_, fun strokes h => map_stroke plain h⟩
  have hnone : k.pending = [] := if_neg (by rw [plain]; exact Bool.false_ne_true)
  rw [flatMap_encoding, hnone, List.nil_append]

/-- With a shift key down and caps lock on, two marks stand in front of the right control key and
    one at the end; and the press of code 0x60 in the extended set, whose release cannot be sent,
    stands among the strokes of that key. -/
theorem no_key_lost_of_runs :
    (decodeAll ⟨Modifiers.none.set .leftShift true, true, false⟩
      [0xE0, 0xE0, 0x1D, 0x9D, 0xE0]).1.flatMap KeyEvent.encoding = [0xE0, 0x1D, 0x9D] ∧
    (decodeAll ⟨Modifiers.none.set .leftShift true, true, false⟩
      [0xE0, 0x1D, 0xE0, 0x60, 0xE0, 0x9D]).1.map KeyEvent.stroke =
        [⟨0x1D, true, true⟩, ⟨0x60, true, true⟩, ⟨0x1D, true, false⟩] := by
  obtain ⟨hbytes, hstrokes⟩ :=
    no_key_lost ⟨Modifiers.none.set .leftShift true, true, false⟩ rfl
  refine ⟨(hbytes _).trans (by decide), ?_⟩
  exact (hstrokes [⟨0x1D, true, true⟩, ⟨0x60, true, true⟩, ⟨0x1D, true, false⟩] (by decide)).1

end Keyboard

end PreemptiveKernel
