/-
  Input and output ports.

  The devices of the machine are reached through numbered ports, one byte at a time.  What
  a driver does to a device is the list of its accesses, in order, with the value that each
  read gave.
-/
namespace PreemptiveKernel

/-- One access to a port. -/
inductive PortAccess
  /-- A byte is written. -/
  | write (port : UInt16) (value : UInt8)
  /-- A byte is read, and this is what it is. -/
  | read (port : UInt16) (value : UInt8)
  deriving DecidableEq, Repr

namespace PortAccess

/-- The port that is accessed. -/
def port : PortAccess → UInt16
  | write p _ => p
  | read p _ => p

/-- Writes to ports, in order. -/
def writes (list : List (UInt16 × UInt8)) : List PortAccess :=
  list.map fun (p, v) => write p v

end PortAccess

end PreemptiveKernel
