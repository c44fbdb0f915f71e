/-
  The periodic timer.

  The timer divides a fixed input frequency by a number of sixteen bits.  The divisor for a
  wanted frequency is the quotient of the two, kept between the smallest and the largest
  number that the device can count; a wanted frequency of zero counts as one.
-/
import PreemptiveKernel.Config
import PreemptiveKernel.Port

namespace PreemptiveKernel.Pit

/-- The input frequency in hertz. -/
def inputHz : Nat := 1193182

/-- The command that makes channel zero a rate generator: the low byte of the divisor first,
    then the high one, counting in binary. -/
def rateGenerator : UInt8 := 0x34

/-- The largest divisor. -/
def largestDivisor : Nat := 65535

/-- The divisor for a wanted frequency. -/
def divisor (hz : Nat) : Nat :=
  min (max (inputHz / max hz 1) 1) largestDivisor

/-- The port of commands. -/
def command : UInt16 := 0x43

/-- The port of channel zero. -/
def channel : UInt16 := 0x40

/-- Starts the timer at a frequency. -/
def setup (hz : Nat) : List PortAccess :=
  PortAccess.writes
    [(command, rateGenerator), (channel, (divisor hz % 256).toUInt8),
     (channel, (divisor hz / 256).toUInt8)]

theorem divisor_pos (hz : Nat) : 1 ≤ divisor hz := by
  unfold divisor largestDivisor
  omega

theorem divisor_le (hz : Nat) : divisor hz ≤ largestDivisor :=
  Nat.min_le_right _ _

example : divisor 0 = 65535 ∧ divisor 100 = 11931 ∧ divisor 10000000 = 1 := by decide

end PreemptiveKernel.Pit
