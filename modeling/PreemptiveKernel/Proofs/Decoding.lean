/-
  The keyboard decoder agrees with the history of the stream.

  The decoder goes from byte to byte and remembers three things: which modifier keys are down,
  whether caps lock is on, and whether the last byte was the mark.  Here the same stream is read
  without a memory.  Every byte but the mark is a stroke of some key, and the key is one of the
  extended set if the byte right before it is the mark (`strokes`).  A modifier key is down if the
  last of its strokes went down (`isDown`), and caps lock is on if it went down an odd number of
  times (`capsIsOn`).

  The crux is that the memory is nothing but this reading: `Remembers k bytes` says that of the
  state `k` and the bytes so far.  One byte keeps it (`Remembers.decode`), so it holds after any
  stream (`remembers_decodeAll`), and the event that the next byte gives can be told from the bytes
  alone (`decode_reads_history`).
-/
import PreemptiveKernel.Keyboard

namespace PreemptiveKernel

/-! ## The stream without a memory -/

/-- A key going down or up, as the stream says it. -/
structure KeyStroke where
  /-- The code of the key in its set. -/
  code : UInt8
  /-- The set is the extended one. -/
  extended : Bool
  /-- The key goes down. -/
  press : Bool
  deriving DecidableEq, Repr

/-- Where a modifier key is found: its code, and whether it is in the extended set. -/
def ModifierKey.place : ModifierKey → UInt8 × Bool
  | leftControl => (0x1D, false)
  | leftShift => (0x2A, false)
  | leftAlt => (0x38, false)
  | leftGui => (0x5B, true)
  | rightControl => (0x1D, true)
  | rightShift => (0x36, false)
  | rightAlt => (0x38, true)
  | rightGui => (0x5C, true)

namespace KeyStroke

/-- The stroke is one of this modifier key. -/
def isOf (s : KeyStroke) (key : ModifierKey) : Bool :=
  (s.code, s.extended) == key.place

/-- The stroke turns caps lock on or off. -/
def togglesCaps (s : KeyStroke) : Bool :=
  s.code == Keyboard.capsLockCode && !s.extended && s.press

end KeyStroke

namespace Keyboard

/-- The stroke of a byte, given the byte before it; none for the mark. -/
def stroke? (previous : Option UInt8) (byte : UInt8) : Option KeyStroke :=
  if byte = extendedMark then none
  else some ⟨byte &&& 0x7F, previous == some extendedMark, byte &&& releaseBit == 0⟩

/-- The strokes of a stream: each byte is read together with the one before it. -/
def strokes (bytes : List UInt8) : List KeyStroke :=
  ((none :: bytes.map some).zip bytes).filterMap fun p => stroke? p.1 p.2

/-- The last stroke of the modifier key went down. -/
def isDown (key : ModifierKey) (bytes : List UInt8) : Bool :=
  ((strokes bytes).filter fun s => s.isOf key).getLast?.any KeyStroke.press

/-- One of the shift keys is down. -/
def shiftIsDown (bytes : List UInt8) : Bool :=
  isDown .leftShift bytes || isDown .rightShift bytes

/-- Caps lock went down an odd number of times. -/
def capsIsOn (bytes : List UInt8) : Bool :=
  (strokes bytes).countP KeyStroke.togglesCaps % 2 == 1

/-- The character that the tables have for a key of the plain set: shift chooses the table, and for
    a letter caps lock turns the choice round.  Outside the tables it is zero. -/
def spelling (code : UInt8) (shift caps : Bool) : UInt8 :=
  let plain := plainCharacters.getD code.toNat 0
  let shifted := shiftedCharacters.getD code.toNat 0
  if (if isLetter plain then shift ^^ caps else shift) then shifted else plain

/-! ## One byte more -/

variable {k : Keyboard} {bytes : List UInt8}

theorem zip_previous_concat (previous : Option UInt8) (bytes : List UInt8) (b : UInt8) :
    (previous :: (bytes ++ [b]).map some).zip (bytes ++ [b]) =
      (previous :: bytes.map some).zip bytes ++ [(bytes.getLast?.or previous, b)] := by
  induction bytes generalizing previous with
  | nil => rfl
  | cons x rest ih =>
    have hlast : (x :: rest).getLast?.or previous = rest.getLast?.or (some x) := by
      rw [List.getLast?_cons]
      cases rest.getLast? with
      | none => rfl
      | some y => rfl
    rw [hlast]
    exact congrArg ((previous, x) :: ·) (ih (some x))

/-- The last byte adds its stroke. -/
theorem strokes_concat (bytes : List UInt8) (b : UInt8) :
    strokes (bytes ++ [b]) = strokes bytes ++ (stroke? bytes.getLast? b).toList := by
  unfold strokes
  rw [zip_previous_concat, List.filterMap_append, Option.or_none]
  rfl

theorem isDown_concat_of_none {b : UInt8} (h : stroke? bytes.getLast? b = none)
    (key : ModifierKey) : isDown key (bytes ++ [b]) = isDown key bytes := by
  unfold isDown
  rw [strokes_concat, h, Option.toList_none, List.append_nil]

/-- A stroke decides about its own key and about no other. -/
theorem isDown_concat_of_some {b : UInt8} {s : KeyStroke} (h : stroke? bytes.getLast? b = some s)
    (key : ModifierKey) :
    isDown key (bytes ++ [b]) = if s.isOf key then s.press else isDown key bytes := by
  unfold isDown
  rw [strokes_concat, h, Option.toList_some, List.filter_append]
  cases hkey : s.isOf key with
  | true => simp [hkey]
  | false => simp [hkey]

theorem capsIsOn_concat_of_none {b : UInt8} (h : stroke? bytes.getLast? b = none) :
    capsIsOn (bytes ++ [b]) = capsIsOn bytes := by
  unfold capsIsOn
  rw [strokes_concat, h, Option.toList_none, List.append_nil]

theorem capsIsOn_concat_of_some {b : UInt8} {s : KeyStroke}
    (h : stroke? bytes.getLast? b = some s) :
    capsIsOn (bytes ++ [b]) = (capsIsOn bytes ^^ s.togglesCaps) := by
  unfold capsIsOn
  rw [strokes_concat, h, Option.toList_some, List.countP_append, List.countP_singleton]
  cases s.togglesCaps with
  | false => simp
  | true =>
    rcases Nat.mod_two_eq_zero_or_one ((strokes bytes).countP KeyStroke.togglesCaps) with hp | hp
    · simp [Nat.add_mod, hp]
    · simp [Nat.add_mod, hp]

/-! ## The modifier keys -/

end Keyboard

/-- The decoder finds the modifier keys where they are. -/
theorem ModifierKey.ofCode?_eq_some_iff {code : UInt8} {extended : Bool} {key : ModifierKey} :
    ofCode? code extended = some key ↔ (code, extended) = key.place := by
  constructor
  · intro h
    unfold ofCode? at h
    repeat' split at h
    all_goals cases h
    all_goals simp_all [place]
  · intro h
    cases key <;> (obtain ⟨rfl, rfl⟩ := Prod.mk.inj h; rfl)

/-- The bit of a key is set if the key is held. -/
theorem Modifiers.bit_set_iff (m : Modifiers) (key : ModifierKey) :
    m.bits &&& key.bit ≠ 0 ↔ m.held key = true := by
  obtain ⟨a, b, c, d, e, f, g, h⟩ := m
  revert a b c d e f g h
  cases key <;> decide +kernel

namespace Keyboard

variable {k : Keyboard} {bytes : List UInt8} {code : UInt8} {extended press : Bool}

theorem held_apply (k : Keyboard) (code : UInt8) (extended press : Bool) (key : ModifierKey) :
    (k.apply code extended press).modifiers.held key =
      if (code, extended) == key.place then press else k.modifiers.held key := by
  unfold apply
  split
  · rename_i other h
    rw [Modifiers.held_set]
    have hplace := ModifierKey.ofCode?_eq_some_iff.mp h
    rw [hplace]
    by_cases hkey : key = other
    · rw [if_pos hkey, hkey, if_pos (beq_self_eq_true _)]
    · rw [if_neg hkey, if_neg]
      intro hsame
      have hagain : (code, extended) = key.place := hplace.trans (beq_iff_eq.mp hsame)
      rw [← ModifierKey.ofCode?_eq_some_iff, h] at hagain
      exact hkey (Option.some.inj hagain).symm
  · rename_i h
    have hno : ¬ ((code, extended) == key.place) = true := by
      intro hplace
      rw [ModifierKey.ofCode?_eq_some_iff.mpr (beq_iff_eq.mp hplace)] at h
      nomatch h
    rw [if_neg hno]
    split <;> rfl

theorem capsLock_apply (k : Keyboard) (code : UInt8) (extended press : Bool) :
    (k.apply code extended press).capsLock =
      (k.capsLock ^^ (code == capsLockCode && !extended && press)) := by
  unfold apply
  split
  · -- caps lock is none of the modifier keys
    rename_i key h
    have hne : (code == capsLockCode) = false := by
      rw [beq_eq_false_iff_ne]
      rintro rfl
      have hplace := ModifierKey.ofCode?_eq_some_iff.mp h
      cases key <;> nomatch hplace
    rw [hne]
    simp
  · by_cases hcode : code = capsLockCode
    · cases extended <;> cases press <;> simp [hcode]
    · have hne : (code == capsLockCode) = false := beq_eq_false_iff_ne.mpr hcode
      simp [hcode, hne]

theorem extended_apply (k : Keyboard) (code : UInt8) (extended press : Bool) :
    (k.apply code extended press).extended = k.extended := by
  unfold apply
  split
  · rfl
  · split <;> rfl

/-! ## The memory is the history -/

/-- **The crux**: what the decoder remembers is what the bytes so far say. -/
structure Remembers (k : Keyboard) (bytes : List UInt8) : Prop where
  /-- A modifier key counts as down if its last stroke went down. -/
  modifiers : ∀ key, k.modifiers.held key = isDown key bytes
  /-- Caps lock counts as on if it went down an odd number of times. -/
  capsLock : k.capsLock = capsIsOn bytes
  /-- The last byte counts as the mark if it is. -/
  extended : k.extended = (bytes.getLast? == some extendedMark)

theorem remembers_fresh : Remembers fresh [] where
  modifiers := by
    intro key
    cases key <;> rfl
  capsLock := rfl
  extended := rfl

/-- **The law of one byte.** -/
theorem Remembers.decode (h : Remembers k bytes) (b : UInt8) :
    Remembers (k.decode b).2 (bytes ++ [b]) := by
  by_cases hmark : b = extendedMark
  · -- the mark is no stroke; the decoder only remembers that it came
    have hstroke : stroke? bytes.getLast? b = none := if_pos hmark
    have hafter : (k.decode b).2 = { k with extended := true } := by
      unfold Keyboard.decode
      rw [if_pos hmark]
    rw [hafter]
    refine ⟨fun key => ?_, ?_, ?_⟩
    · rw [isDown_concat_of_none hstroke]
      exact h.modifiers key
    · rw [capsIsOn_concat_of_none hstroke]
      exact h.capsLock
    · rw [List.getLast?_concat, hmark]
      rfl
  · have hstroke : stroke? bytes.getLast? b =
        some ⟨b &&& 0x7F, bytes.getLast? == some extendedMark, b &&& releaseBit == 0⟩ :=
      if_neg hmark
    have hafter : (k.decode b).2 =
        { k with extended := false }.apply (b &&& 0x7F) k.extended (b &&& releaseBit == 0) := by
      unfold Keyboard.decode
      rw [if_neg hmark]
    rw [hafter, h.extended]
    refine ⟨fun key => ?_, ?_, ?_⟩
    · rw [held_apply, isDown_concat_of_some hstroke, ← h.modifiers key]
      rfl
    · rw [capsLock_apply, capsIsOn_concat_of_some hstroke, ← h.capsLock]
      rfl
    · rw [extended_apply, List.getLast?_concat]
      have hne : (some b == some extendedMark) = false := by simpa using hmark
      exact hne.symm

/-- **The law of a stream**: after any bytes the memory is their history. -/
theorem Remembers.decodeAll (h : Remembers k bytes) (more : List UInt8) :
    Remembers (k.decodeAll more).2 (bytes ++ more) := by
  induction more generalizing k bytes with
  | nil =>
    rw [List.append_nil]
    exact h
  | cons b rest ih =>
    have hlater := ih (h.decode b)
    rw [List.append_assoc, List.singleton_append] at hlater
    exact hlater

theorem remembers_decodeAll (bytes : List UInt8) : Remembers (fresh.decodeAll bytes).2 bytes :=
  remembers_fresh.decodeAll bytes

/-! ## The events -/

theorem Remembers.shift (h : Remembers k bytes) : k.modifiers.shift = shiftIsDown bytes :=
  congr (congrArg or (h.modifiers .leftShift)) (h.modifiers .rightShift)

/-- The decoder spells by the tables. -/
theorem character_eq_spelling (k : Keyboard) (code : UInt8) :
    k.character code = spelling code k.modifiers.shift k.capsLock := by
  have hsame : shiftedCharacters.length = plainCharacters.length := by decide +kernel
  unfold character spelling
  -- only the lengths of the tables matter
  generalize plainCharacters = plains at *
  generalize shiftedCharacters = shifteds at *
  rw [List.getD_eq_getElem?_getD, List.getD_eq_getElem?_getD]
  by_cases hin : code.toNat < plains.length
  · rw [List.getElem?_eq_getElem hin, List.getElem?_eq_getElem (hsame ▸ hin)]
    rfl
  · have hout : plains.length ≤ code.toNat := Nat.not_lt.mp hin
    rw [List.getElem?_eq_none hout, List.getElem?_eq_none (hsame ▸ hout)]
    exact (ite_self 0).symm

theorem or_and_distrib (a b c : UInt8) : (a ||| b) &&& c = (a &&& c) ||| (b &&& c) := by
  apply UInt8.toBitVec_inj.mp
  ext i hi
  simp [Bool.and_or_distrib_right]

/-- The low bits of a key code are the code, in whichever set. -/
theorem low_bits_keycode (b : UInt8) (extended : Bool) :
    (if extended then b &&& 0x7F ||| 0x80 else b &&& 0x7F) &&& 0x7F = b &&& 0x7F := by
  have hcode : b &&& 0x7F &&& 0x7F = b &&& 0x7F := UInt8.and_assoc b 0x7F 0x7F
  cases extended with
  | false => exact hcode
  | true =>
    rw [if_pos rfl, or_and_distrib, hcode]
    exact UInt8.or_zero

/-- The high bit of a key code is the mark of the extended set. -/
theorem high_bit_keycode (b : UInt8) (extended : Bool) :
    (if extended then b &&& 0x7F ||| 0x80 else b &&& 0x7F) &&& 0x80 ≠ 0 ↔ extended = true := by
  have hcode : b &&& 0x7F &&& 0x80 = 0 := (UInt8.and_assoc b 0x7F 0x80).trans UInt8.and_zero
  cases extended with
  | false => simp [hcode]
  | true =>
    rw [if_pos rfl, or_and_distrib, hcode]
    decide

/-- A byte that is not the mark gives one event. -/
theorem fst_decode_of_ne (k : Keyboard) {b : UInt8} (h : b ≠ extendedMark) :
    (k.decode b).1 = some
      { modifier := (k.decode b).2.modifiers.bits
        keycode := if k.extended then b &&& 0x7F ||| 0x80 else b &&& 0x7F
        ascii := if k.extended then 0 else (k.decode b).2.character (b &&& 0x7F)
        press := b &&& 0x80 == 0 } := by
  unfold decode
  rw [if_neg h]
  rfl

/-- What a key event has to say of the byte `b` that came after the bytes `before`. -/
structure Tells (e : KeyEvent) (before : List UInt8) (b : UInt8) : Prop where
  /-- The key goes down if the high bit of the byte is clear. -/
  press : e.press = true ↔ b &&& 0x80 = 0
  /-- The code is in the low bits. -/
  code : e.keycode &&& 0x7F = b &&& 0x7F
  /-- The high bit of the key code says that the byte came right after the mark. -/
  extended : e.keycode &&& 0x80 ≠ 0 ↔ before.getLast? = some 0xE0
  /-- Each modifier bit says whether the key is down, this byte included. -/
  modifier : ∀ key, e.modifier &&& key.bit ≠ 0 ↔ isDown key (before ++ [b]) = true
  /-- The character follows from shift and caps lock, this byte included. -/
  ascii : e.ascii =
    if before.getLast? = some 0xE0 then 0
    else spelling (b &&& 0x7F) (shiftIsDown (before ++ [b])) (capsIsOn (before ++ [b]))

/-- **Decoding agrees with the history of the stream.** -/
theorem decode_reads_history (before : List UInt8) (b : UInt8) :
    (b = 0xE0 → ((fresh.decodeAll before).2.decode b).1 = none) ∧
    (b ≠ 0xE0 → ∃ e, ((fresh.decodeAll before).2.decode b).1 = some e ∧ Tells e before b) ∧
    ∀ key, ((fresh.decodeAll before).2.decode b).2.modifiers.bits &&& key.bit ≠ 0 ↔
      isDown key (before ++ [b]) = true := by
  have hbefore := remembers_decodeAll before
  have hafter := hbefore.decode b
  have hbits : ∀ key, ((fresh.decodeAll before).2.decode b).2.modifiers.bits &&& key.bit ≠ 0 ↔
      isDown key (before ++ [b]) = true := by
    intro key
    rw [Modifiers.bit_set_iff, hafter.modifiers key]
  refine ⟨fun hmark => (decode_eq_none_iff _ b).mpr hmark, fun hmark => ?_, hbits⟩
  have hextended : (fresh.decodeAll before).2.extended = true ↔ before.getLast? = some 0xE0 := by
    rw [hbefore.extended]
    exact beq_iff_eq
  refine ⟨_, fst_decode_of_ne _ hmark, ?_⟩
  exact
    { press := beq_iff_eq
      code := low_bits_keycode b _
      extended := (high_bit_keycode b _).trans hextended
      modifier := hbits
      ascii := by
        rw [character_eq_spelling, hafter.shift, hafter.capsLock]
        simp only [hextended] }

/-- The release of the left control key leaves the right one down.  Its own release does not,
    however often the mark stands in front. -/
example : isDown .rightControl [0xE0, 0x1D, 0x9D] = true ∧
    isDown .rightControl [0xE0, 0x1D, 0xE0, 0xE0, 0x9D] = false := by decide

end Keyboard

end PreemptiveKernel
