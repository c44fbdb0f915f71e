/-
  Scancodes to key events.

  The keyboard sends one byte for a key that goes down and the same byte with the high bit
  set for one that goes up.  Keys of the extended set have a mark byte in front.  The
  decoder remembers which modifier keys are down, whether caps lock is on, and whether the
  last byte was the mark.

  A key event carries the modifiers as they are after the key has taken effect, and the
  character that the key stands for.  Shift chooses between the two characters of a key;
  for letters caps lock turns that choice round.
-/
import PreemptiveKernel.Message

namespace PreemptiveKernel

/-! ## Modifier keys -/

/-- The modifier keys. -/
inductive ModifierKey
  | leftControl
  | leftShift
  | leftAlt
  | leftGui
  | rightControl
  | rightShift
  | rightAlt
  | rightGui
  deriving DecidableEq, Repr

namespace ModifierKey

/-- Every modifier key, in the order of their bits in a key event. -/
def all : List ModifierKey :=
  [leftControl, leftShift, leftAlt, leftGui, rightControl, rightShift, rightAlt, rightGui]

/-- The bit of a key in a key event. -/
def bit : ModifierKey → UInt8
  | leftControl => 0x01
  | leftShift => 0x02
  | leftAlt => 0x04
  | leftGui => 0x08
  | rightControl => 0x10
  | rightShift => 0x20
  | rightAlt => 0x40
  | rightGui => 0x80

/-- The modifier key with a code, in the plain or in the extended set.  The control and the
    alt keys have one code in both. -/
def ofCode? (code : UInt8) (extended : Bool) : Option ModifierKey :=
  if code = 0x1D then some (if extended then rightControl else leftControl)
  else if code = 0x38 then some (if extended then rightAlt else leftAlt)
  else if code = 0x2A then (if extended then none else some leftShift)
  else if code = 0x36 then (if extended then none else some rightShift)
  else if code = 0x5B then (if extended then some leftGui else none)
  else if code = 0x5C then (if extended then some rightGui else none)
  else none

end ModifierKey

/-- Which modifier keys are down. -/
structure Modifiers where
  /-- The left control key. -/
  leftControl : Bool
  /-- The left shift key. -/
  leftShift : Bool
  /-- The left alt key. -/
  leftAlt : Bool
  /-- The left key with the sign of the system. -/
  leftGui : Bool
  /-- The right control key. -/
  rightControl : Bool
  /-- The right shift key. -/
  rightShift : Bool
  /-- The right alt key. -/
  rightAlt : Bool
  /-- The right key with the sign of the system. -/
  rightGui : Bool
  deriving DecidableEq, Repr

namespace Modifiers

/-- No key is down. -/
def none : Modifiers :=
  ⟨false, false, false, false, false, false, false, false⟩

/-- A key is down. -/
def held (m : Modifiers) : ModifierKey → Bool
  | .leftControl => m.leftControl
  | .leftShift => m.leftShift
  | .leftAlt => m.leftAlt
  | .leftGui => m.leftGui
  | .rightControl => m.rightControl
  | .rightShift => m.rightShift
  | .rightAlt => m.rightAlt
  | .rightGui => m.rightGui

/-- A key goes down or up. -/
def set (m : Modifiers) (key : ModifierKey) (down : Bool) : Modifiers :=
  match key with
  | .leftControl => { m with leftControl := down }
  | .leftShift => { m with leftShift := down }
  | .leftAlt => { m with leftAlt := down }
  | .leftGui => { m with leftGui := down }
  | .rightControl => { m with rightControl := down }
  | .rightShift => { m with rightShift := down }
  | .rightAlt => { m with rightAlt := down }
  | .rightGui => { m with rightGui := down }

/-- The keys that are down, one bit each. -/
def bits (m : Modifiers) : UInt8 :=
  ModifierKey.all.foldl (fun acc key => if m.held key then acc ||| key.bit else acc) 0

/-- One of the shift keys is down. -/
def shift (m : Modifiers) : Bool :=
  m.leftShift || m.rightShift

theorem held_set (m : Modifiers) (key other : ModifierKey) (down : Bool) :
    (m.set key down).held other = if other = key then down else m.held other := by
  cases key <;> cases other <;> rfl

end Modifiers

/-! ## Characters -/

/-- The characters of a string as bytes. -/
def Keyboard.row (s : String) : List UInt8 :=
  s.toList.map Char.toUInt8

/-- The characters of the keys without shift, by code from zero; zero for keys that stand
    for none. -/
def Keyboard.plainCharacters : List UInt8 :=
  [0, 0x1B] ++ Keyboard.row "1234567890-=" ++ [0x08, 0x09] ++ Keyboard.row "qwertyuiop[]" ++
    [0x0A, 0] ++ Keyboard.row "asdfghjkl;'`" ++ [0] ++ Keyboard.row "\\zxcvbnm,./" ++ [0] ++
    Keyboard.row "*" ++ [0] ++ Keyboard.row " "

/-- The characters of the same keys with shift. -/
def Keyboard.shiftedCharacters : List UInt8 :=
  [0, 0x1B] ++ Keyboard.row "!@#$%^&*()_+" ++ [0x08, 0x09] ++
    Keyboard.row "QWERTYUIOP\x7b\x7d" ++ [0x0A, 0] ++ Keyboard.row "ASDFGHJKL:\"~" ++ [0] ++
    Keyboard.row "|ZXCVBNM<>?" ++ [0] ++ Keyboard.row "*" ++ [0] ++ Keyboard.row " "

/-- The byte is a letter. -/
def Keyboard.isLetter (b : UInt8) : Bool :=
  (0x41 ≤ b && b ≤ 0x5A) || (0x61 ≤ b && b ≤ 0x7A)

/-! ## The decoder -/

/-- What the decoder remembers from one byte to the next. -/
structure Keyboard where
  /-- The modifier keys that are down. -/
  modifiers : Modifiers
  /-- Caps lock is on. -/
  capsLock : Bool
  /-- The last byte was the mark of the extended set. -/
  extended : Bool
  deriving DecidableEq, Repr

namespace Keyboard

/-- The mark of the extended set. -/
def extendedMark : UInt8 := 0xE0

/-- The bit that says that a key goes up. -/
def releaseBit : UInt8 := 0x80

/-- The code of caps lock. -/
def capsLockCode : UInt8 := 0x3A

/-- The state before the first byte. -/
def fresh : Keyboard :=
  ⟨.none, false, false⟩

/-- The character that a key of the plain set stands for, or zero. -/
def character (k : Keyboard) (code : UInt8) : UInt8 :=
  match plainCharacters[code.toNat]?, shiftedCharacters[code.toNat]? with
  | some plain, some shifted =>
    let turned := if isLetter plain then k.modifiers.shift ^^ k.capsLock else k.modifiers.shift
    if turned then shifted else plain
  | _, _ => 0

/-- What a key does to the modifiers and to caps lock. -/
def apply (k : Keyboard) (code : UInt8) (extended press : Bool) : Keyboard :=
  match ModifierKey.ofCode? code extended with
  | some key => { k with modifiers := k.modifiers.set key press }
  | none =>
    if code = capsLockCode && press && !extended then { k with capsLock := !k.capsLock }
    else k

/-- One byte from the keyboard: nothing for the mark, and a key event for any other. -/
def decode (k : Keyboard) (byte : UInt8) : Option KeyEvent × Keyboard :=
  if byte = extendedMark then (none, { k with extended := true })
  else
    let press := byte &&& releaseBit == 0
    let code := byte &&& 0x7F
    let after := { k with extended := false }.apply code k.extended press
    (some
      { modifier := after.modifiers.bits
        keycode := if k.extended then code ||| releaseBit else code
        ascii := if k.extended then 0 else after.character code
        press := press },
     after)

/-- The key events of a row of bytes, and the state after them. -/
def decodeAll (k : Keyboard) : List UInt8 → List KeyEvent × Keyboard
  | [] => ([], k)
  | byte :: rest =>
    let (event, k) := k.decode byte
    let (events, k) := k.decodeAll rest
    (event.toList ++ events, k)

theorem decodeAll_cons (k : Keyboard) (b : UInt8) (rest : List UInt8) :
    k.decodeAll (b :: rest) =
      ((k.decode b).1.toList ++ ((k.decode b).2.decodeAll rest).1,
        ((k.decode b).2.decodeAll rest).2) := rfl

/-- **Decoding does not depend on how the bytes arrive**: a row that is cut in two, even
    between the mark and the byte it belongs to, gives the events of the whole row. -/
theorem decodeAll_append (k : Keyboard) (xs ys : List UInt8) :
    k.decodeAll (xs ++ ys) =
      ((k.decodeAll xs).1 ++ ((k.decodeAll xs).2.decodeAll ys).1,
        ((k.decodeAll xs).2.decodeAll ys).2) := by
  induction xs generalizing k with
  | nil => rfl
  | cons b rest ih =>
    rw [List.cons_append, decodeAll_cons, ih, decodeAll_cons]
    -- the event of the first byte stands in front on both sides
    simp only [List.append_assoc]

/-- The mark is the only byte that gives no event. -/
theorem decode_eq_none_iff (k : Keyboard) (b : UInt8) :
    (k.decode b).1 = none ↔ b = extendedMark := by
  unfold decode
  constructor
  · intro h
    by_cases hb : b = extendedMark
    · exact hb
    · rw [if_neg hb] at h
      nomatch h
  · intro hb
    rw [if_pos hb]

end Keyboard

example : (Keyboard.fresh.decode 0x1E).1 = some ⟨0, 0x1E, 0x61, true⟩ := by decide

example : Keyboard.plainCharacters.length = 0x3A ∧ Keyboard.shiftedCharacters.length = 0x3A := by
  decide

end PreemptiveKernel
