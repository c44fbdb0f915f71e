/-
  Priority levels.

  There are four, numbered from zero; the higher number wins.  Level three is for the main
  task, level one for ordinary work, level zero for the task that runs when nothing else
  can.
-/
import PreemptiveKernel.KernelError

namespace PreemptiveKernel

/-- A priority level; a higher one is served first. -/
abbrev Level := Fin 4

namespace Level

/-- The highest level. -/
def top : Level := 3

/-- The level a task has from its creation until it is first woken at another. -/
def ordinary : Level := 1

/-- The level of the idle task. -/
def bottom : Level := 0

/-- Reads a level from a number; a number above the highest level is refused by name. -/
def ofNat? (n : Nat) : Except KernelError Level :=
  if h : n < 4 then .ok ⟨n, h⟩ else .error (.invalidLevel n)

/-- All levels, the highest first: the order in which they are served. -/
def descending : List Level := [3, 2, 1, 0]

theorem ofNat?_of_lt {n : Nat} (h : n < 4) : ofNat? n = .ok ⟨n, h⟩ := by
  simp [ofNat?, h]

theorem ofNat?_of_le {n : Nat} (h : 4 ≤ n) : ofNat? n = .error (.invalidLevel n) := by
  simp [ofNat?, Nat.not_lt.mpr h]

theorem mem_descending (l : Level) : l ∈ descending := by
  revert l; decide

theorem descending_pairwise : descending.Pairwise fun a b => b < a := by
  decide

end Level

end PreemptiveKernel
