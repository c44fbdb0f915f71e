/-
  The interrupt controllers.

  There are two, the second behind the first, with eight lines each.  After power-up they
  report the lines of the first one on the vectors of processor faults, so they are moved
  to the vectors from that of the timer on, and all lines but those of the timer and the
  keyboard are masked.
-/
import PreemptiveKernel.Interrupt
import PreemptiveKernel.Port

namespace PreemptiveKernel.Pic

/-- Commands of the first controller. -/
def firstCommand : UInt16 := 0x20

/-- Data of the first controller. -/
def firstData : UInt16 := 0x21

/-- Commands of the second controller. -/
def secondCommand : UInt16 := 0xA0

/-- Data of the second controller. -/
def secondData : UInt16 := 0xA1

/-- The command that ends an interrupt. -/
def endOfInterrupt : UInt8 := 0x20

/-- Sets both controllers up: the start command, the first vector, the line that joins
    them, the mode, and the mask, each to the first one and then to the second. -/
def setup : List PortAccess :=
  PortAccess.writes
    [(firstCommand, 0x11), (secondCommand, 0x11),
     (firstData, Interrupt.timer.vector), (secondData, Interrupt.timer.vector + 8),
     (firstData, 0x04), (secondData, 0x02),
     (firstData, 0x01), (secondData, 0x01),
     (firstData, 0xFC), (secondData, 0xFF)]

/-- Ends the interrupt of a line.  One of the second controller is ended at both. -/
def acknowledge (line : UInt8) : List PortAccess :=
  PortAccess.writes
    (if 8 ≤ line then [(secondCommand, endOfInterrupt), (firstCommand, endOfInterrupt)]
     else [(firstCommand, endOfInterrupt)])

end PreemptiveKernel.Pic
