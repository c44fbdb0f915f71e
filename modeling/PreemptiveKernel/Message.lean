/-
  Messages between tasks, and the inbox they wait in.

  A message is copied when it is sent; the kernel never looks into one, it only carries it
  to the inbox of the task it is addressed to.  An inbox gives its messages back in the
  order in which they were put in.
-/
import PreemptiveKernel.TaskId

namespace PreemptiveKernel

/-- A device that sends notifications. -/
inductive Device
  /-- The controller of the serial bus. -/
  | xhci
  /-- The keyboard; the receiver fetches the scancodes itself. -/
  | keyboard
  deriving DecidableEq, Repr

/-- The name of a device as it stands in the log. -/
def Device.name : Device → String
  | .xhci => "Xhci"
  | .keyboard => "Keyboard"

/-- What is asked of a window layer. -/
inductive LayerOperation
  | move
  | moveRelative
  | draw
  | drawArea
  deriving DecidableEq, Repr

/-- The name of a layer operation as it stands in the log. -/
def LayerOperation.name : LayerOperation → String
  | .move => "Move"
  | .moveRelative => "MoveRelative"
  | .draw => "Draw"
  | .drawArea => "DrawArea"

/-- A key going down or up. -/
structure KeyEvent where
  /-- The modifier keys that are down, one bit each. -/
  modifier : UInt8
  /-- The code of the key; the high bit marks the keys of the extended set. -/
  keycode : UInt8
  /-- The character the key stands for, or zero. -/
  ascii : UInt8
  /-- The key went down. -/
  press : Bool
  deriving DecidableEq, Repr, Inhabited

/-- A request to the owner of the window layers. -/
structure LayerRequest where
  /-- What to do. -/
  op : LayerOperation
  /-- The layer it concerns. -/
  layer : UInt32
  /-- Horizontal position. -/
  x : Int32
  /-- Vertical position. -/
  y : Int32
  /-- Width. -/
  w : Int32
  /-- Height. -/
  h : Int32
  /-- The task that asks and that is to be told when it is done. -/
  source : TaskId
  deriving DecidableEq, Repr

/-- A message. -/
inductive Message
  /-- A device wants attention. -/
  | deviceInterrupt (device : Device)
  /-- The deadline `timeout`, set with this value, has come. -/
  | timerTimeout (timeout : Nat) (value : Int32)
  /-- A key went down or up. -/
  | keyPush (event : KeyEvent)
  /-- Something is to be done to a layer. -/
  | layer (request : LayerRequest)
  /-- What was asked of a layer is done. -/
  | layerFinish (layer : UInt32)
  deriving DecidableEq, Repr

/-- Messages that wait for their receiver, the oldest first. -/
structure Inbox where
  /-- The waiting messages. -/
  messages : List Message
  deriving DecidableEq, Repr

namespace Inbox

/-- Nothing waits. -/
def empty : Inbox := ⟨[]⟩

instance : Inhabited Inbox := ⟨empty⟩

/-- Puts a message behind those that wait already. -/
def push (inbox : Inbox) (m : Message) : Inbox :=
  ⟨inbox.messages ++ [m]⟩

/-- Takes the oldest message out, if there is one. -/
def pop (inbox : Inbox) : Option Message × Inbox :=
  match inbox.messages with
  | [] => (none, inbox)
  | m :: rest => (some m, ⟨rest⟩)

/-- The number of messages that wait. -/
def size (inbox : Inbox) : Nat :=
  inbox.messages.length

/-- No message waits. -/
def isEmpty (inbox : Inbox) : Bool :=
  inbox.messages.isEmpty

@[simp] theorem messages_empty : empty.messages = [] := rfl

@[simp] theorem messages_push (inbox : Inbox) (m : Message) :
    (inbox.push m).messages = inbox.messages ++ [m] := rfl

/-- What is taken out, before what stays, is what was there. -/
theorem pop_append (inbox : Inbox) :
    inbox.pop.1.toList ++ inbox.pop.2.messages = inbox.messages := by
  unfold pop
  split
  · rename_i h
    simp [h]
  · rename_i h
    simp [h]

end Inbox

end PreemptiveKernel
