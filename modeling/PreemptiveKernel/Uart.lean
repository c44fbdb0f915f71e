/-
  The serial line.

  Text goes out byte by byte.  Before each byte the line status is read until it says that
  the sender is free; how often that takes is the device's affair.  A line feed in the text
  goes out as a carriage return and a line feed.

  The state of the line is the status answers that the device is going to give before it is
  free for good, and whether somebody is in the middle of printing.  Printing waits for its
  turn; the report of a stop does not, because whoever has the turn will never go on.
-/
import PreemptiveKernel.Port
import PreemptiveKernel.Run

namespace PreemptiveKernel

/-- The serial line as the driver finds it. -/
structure Uart where
  /-- The line status answers to come; after them the sender is always free. -/
  status : List UInt8
  /-- Somebody is printing. -/
  locked : Bool
  deriving DecidableEq, Repr

namespace Uart

/-- The port of the bytes to send; the ports of the device follow it. -/
def data : UInt16 := 0x3F8

/-- The port of the line status. -/
def lineStatus : UInt16 := data + 5

/-- The bit of the line status that says that the sender is free. -/
def senderFree : UInt8 := 0x20

/-- A line that is always free. -/
def ready : Uart := ⟨[], false⟩

/-- A line that answers busy `n` times and is free then. -/
def busy (n : Nat) : Uart := ⟨List.replicate n 0, false⟩

/-- Sets the device up: no interrupts, 115200 baud, eight bits without parity and one stop
    bit, buffers cleared and switched on, ready to send. -/
def setup : List PortAccess :=
  PortAccess.writes
    [(data + 1, 0x00), (data + 3, 0x80), (data, 0x01), (data + 1, 0x00), (data + 3, 0x03),
     (data + 2, 0xC7), (data + 4, 0x03)]

/-- The bytes that go out for some bytes of text. -/
def encode : List UInt8 → List UInt8
  | [] => []
  | b :: rest => if b = 0x0A then 0x0D :: 0x0A :: encode rest else b :: encode rest

theorem encode_append (xs ys : List UInt8) : encode (xs ++ ys) = encode xs ++ encode ys := by
  induction xs with
  | nil => rfl
  | cons b rest ih =>
    rw [List.cons_append, encode, encode]
    split
    · rw [ih]
      rfl
    · rw [ih]
      rfl

/-- Reads the line status until the sender is free.  Gives the answers that are left. -/
def awaitFree : List UInt8 → Run PortAccess (List UInt8)
  | [] => do
    Run.emit (.read lineStatus senderFree)
    return []
  | answer :: rest => do
    Run.emit (.read lineStatus answer)
    if answer &&& senderFree = 0 then awaitFree rest else return rest

/-- Sends one byte. -/
def sendByte (u : Uart) (b : UInt8) : Run PortAccess Uart := do
  let rest ← awaitFree u.status
  Run.emit (.write data b)
  return { u with status := rest }

/-- Sends bytes one after the other. -/
def sendBytes (u : Uart) : List UInt8 → Run PortAccess Uart
  | [] => return u
  | b :: rest => do
    let u ← u.sendByte b
    u.sendBytes rest

/-- Sends a text. -/
def writeText (u : Uart) (text : String) : Run PortAccess Uart :=
  u.sendBytes (encode text.toUTF8.toList)

/-- Sends the pieces of a text one after the other. -/
def writePieces (u : Uart) : List String → Run PortAccess Uart
  | [] => return u
  | piece :: rest => do
    let u ← u.writeText piece
    u.writePieces rest

/-- Prints a text, given in pieces.  Nobody else may be printing. -/
def print (u : Uart) (pieces : List String) : Run PortAccess Uart :=
  if u.locked then Run.stop .lockNeverReleased
  else u.writePieces pieces

/-- The text that reports a stop. -/
def stopReport (text : String) : String :=
  s!"\n[KERNEL PANIC] {text}\n"

/-- Prints a text whether or not somebody else is printing: what they hold is taken from
    them first. -/
def printForced (u : Uart) (pieces : List String) : Run PortAccess Uart :=
  { u with locked := false }.print pieces

end Uart

/-! ## Reading a list of accesses -/

namespace PortAccess

/-- The bytes that were sent over the serial line. -/
def sentBytes (accesses : List PortAccess) : List UInt8 :=
  accesses.filterMap fun
    | write p v => if p = Uart.data then some v else none
    | read _ _ => none

/-- How often the line status was read. -/
def polls (accesses : List PortAccess) : Nat :=
  (accesses.filter fun
    | write _ _ => false
    | read p _ => p = Uart.lineStatus).length

end PortAccess

end PreemptiveKernel
