/-
  Checked arithmetic on machine words.

  A sum that passes the largest word and a difference below zero end the computation.  They
  never wrap, so a value that comes out is the true one.
-/
import PreemptiveKernel.Stop

namespace PreemptiveKernel.Word

/-- The sum of two words, if it is a word. -/
def add (a b : Nat) : Except Stop Nat :=
  if a + b < bound then .ok (a + b) else .error .addOverflow

/-- The difference of two words, if it is not negative. -/
def sub (a b : Nat) : Except Stop Nat :=
  if b ≤ a then .ok (a - b) else .error .subOverflow

theorem add_of_lt {a b : Nat} (h : a + b < bound) : add a b = .ok (a + b) := by
  simp [add, h]

theorem add_eq_ok_iff {a b c : Nat} : add a b = .ok c ↔ a + b < bound ∧ a + b = c := by
  by_cases h : a + b < bound <;> simp [add, h]

theorem add_of_le {a b : Nat} (h : bound ≤ a + b) : add a b = .error .addOverflow := by
  rw [add, if_neg (by omega)]

theorem sub_of_le {a b : Nat} (h : b ≤ a) : sub a b = .ok (a - b) := by
  simp [sub, h]

theorem sub_of_lt {a b : Nat} (h : a < b) : sub a b = .error .subOverflow := by
  simp [sub, Nat.not_le.mpr h]

end PreemptiveKernel.Word
