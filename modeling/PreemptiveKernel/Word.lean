/-
  Machine words.

  Counters, ticks, addresses and lengths are natural numbers below two to the power of
  sixty-four.  They are kept as `Nat`, so that statements about them are statements about
  numbers; the bound appears where a sum could pass it and where a difference could fall
  below zero, and there only.  A word shown in hexadecimal has no leading zeros.
-/
namespace PreemptiveKernel.Word

/-- One more than the largest word: a word has sixty-four bits. -/
def bound : Nat := 0x1_0000_0000_0000_0000

/-- The largest word. -/
def greatest : Nat := bound - 1

/-- The digits of a number in base sixteen, the lowest last. -/
def hexDigits (n : Nat) : List Char :=
  Nat.toDigits 16 n

/-- The hexadecimal form of a word, in lower case after its mark. -/
def hex (n : Nat) : String :=
  "0x" ++ String.ofList (hexDigits n)

/-- The first multiple of `unit` that is not below `n`; `unit` must not be zero. -/
def roundUp (n unit : Nat) : Nat :=
  (n + (unit - 1)) / unit * unit

example : hex 0 = "0x0" ∧ hex 4095 = "0xfff" := by decide

example : roundUp 4096 4096 = 4096 ∧ roundUp 4097 4096 = 8192 := by decide

end PreemptiveKernel.Word
