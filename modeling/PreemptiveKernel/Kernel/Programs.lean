/-
  The programs of the main task and of the terminal.

  Both wait for a message, act on it, and wait again; they never end.  What they carry from
  one message to the next is a value, and acting on a message is a function on it, so a
  step of either program can be put into any order with everything else that happens.

  The main task receives timeouts and device notifications.  It keeps the cursor timer
  going, reads the keyboard and passes the key events on, and answers the requests of the
  owner of a layer.  The terminal prints the characters of the keys, has each one drawn,
  and blinks the cursor.
-/
import PreemptiveKernel.Kernel.Shared
import PreemptiveKernel.Keyboard
import PreemptiveKernel.Pic

namespace PreemptiveKernel.Kernel

/-! ## Devices -/

/-- The handler of an interrupt, which acknowledges it at the controllers. -/
def handle (i : Interrupt) : Kernel Unit :=
  match i with
  | .timer => timerInterrupt (access (Pic.acknowledge i.line))
  | .keyboard => deviceInterrupt .keyboard (access (Pic.acknowledge i.line))
  | .spurious => return ()

/-- Reads a byte from the keyboard if one waits. -/
def readScancode : Kernel (Option UInt8) := do
  let (byte, port) ← replay (fun a => observe (.port a)) (← get).keyboard.read
  modify fun m => { m with keyboard := port }
  return byte

/-! ## The main task -/

/-- The value of the cursor timer's timeouts. -/
def cursorTimer : Int32 := 1

/-- Ticks from one blink of the cursor to the next. -/
def blinkTicks : Nat := Config.ticksPerSecond / 2

/-- What the main task carries from one message to the next. -/
structure MainTask where
  /-- The task that gets the key events and the blinks. -/
  terminal : TaskId
  /-- The decoder of the keyboard. -/
  keyboard : Keyboard
  deriving DecidableEq

/-- The beginning of the main task: the cursor timer is set for the first time. -/
def MainTask.start (terminal : TaskId) : Kernel MainTask := do
  let due ← Word.add (← currentTick) blinkTicks
  addTimer due cursorTimer
  return ⟨terminal, .fresh⟩

/-- Reads the keyboard until no byte waits, and sends the key events to the terminal.  As
    many reads are made as are allowed. -/
def drainKeyboard (terminal : TaskId) : Nat → Keyboard → Kernel Keyboard
  | 0, k => return k
  | reads + 1, k => do
    match ← readScancode with
    | none => return k
    | some byte =>
      let (event, k) := k.decode byte
      if let some e := event then
        let _ ← send terminal (.keyPush e)
      drainKeyboard terminal reads k

/-- The main task acts on a message. -/
def MainTask.act (task : MainTask) (m : Message) : Kernel MainTask := do
  match m with
  | .timerTimeout timeout value =>
    if value = cursorTimer then
      addTimer (← Word.add timeout blinkTicks) cursorTimer
    let _ ← send task.terminal m
    return task
  | .deviceInterrupt .keyboard =>
    let waiting := (← get).keyboard.buffer.length
    let k ← drainKeyboard task.terminal (waiting + 1) task.keyboard
    return { task with keyboard := k }
  | .deviceInterrupt .xhci =>
    note .debug Source.image "main: xHCI notification ignored, no controller driver"
    return task
  | .keyPush _ =>
    let _ ← send task.terminal m
    return task
  | .layer r =>
    note .trace Source.image s!"main: layer {r.layer} {r.op.name} from {r.source}"
    let _ ← send r.source (.layerFinish r.layer)
    return task
  | .layerFinish layer =>
    note .warn Source.image s!"main: unexpected ack for layer {layer}"
    return task

/-! ## The terminal -/

/-- The layer of the terminal's window. -/
def terminalLayer : UInt32 := 1

/-- What the terminal carries from one message to the next. -/
structure TerminalTask where
  /-- Its own identifier. -/
  id : TaskId
  /-- The cursor is shown. -/
  cursor : Bool
  deriving DecidableEq

/-- The beginning of the terminal. -/
def TerminalTask.start (id : TaskId) : Kernel TerminalTask := do
  note .info Source.image s!"terminal {id} started"
  return ⟨id, false⟩

/-- The request to draw one character. -/
def TerminalTask.drawRequest (task : TerminalTask) : LayerRequest where
  op := .drawArea
  layer := terminalLayer
  x := 0
  y := 0
  w := 8
  h := 16
  source := task.id

/-- The text of a character given by its byte. -/
def characterText (byte : UInt8) : String :=
  String.singleton (Char.ofNat byte.toNat)

/-- The terminal acts on a message. -/
def TerminalTask.act (task : TerminalTask) (m : Message) : Kernel TerminalTask := do
  match m with
  | .keyPush e =>
    if e.press && e.ascii != 0 then
      print [characterText e.ascii]
      let _ ← send Config.mainTask (.layer task.drawRequest)
    return task
  | .timerTimeout _ value =>
    if value = cursorTimer then
      let cursor := !task.cursor
      let shown := if cursor then "on" else "off"
      note .trace Source.image s!"terminal: cursor {shown}"
      return { task with cursor := cursor }
    else return task
  | .layerFinish layer =>
    note .trace Source.image s!"terminal: layer {layer} drawn"
    return task
  | _ => return task

/-! ## Running a program -/

/-- One iteration of a program as the current task: it takes a message and acts on it, or
    it goes to sleep. -/
def iterate {σ : Type} (act : σ → Message → Kernel σ) (state : σ) : Kernel σ := do
  match ← waitStep with
  | some m => act state m
  | none => return state

/-- Why a program was left. -/
inductive Pause
  /-- It was allowed no more rounds. -/
  | budget
  /-- It found no message and went to sleep. -/
  | waiting
  deriving DecidableEq, Repr

/-- Runs a program as the current task, for at most so many messages: in each round it
    takes a message and acts on it, and when there is none it goes to sleep and is left. -/
def runFor {σ : Type} (act : σ → Message → Kernel σ) : Nat → σ → Kernel Pause
  | 0, _ => return .budget
  | rounds + 1, state => do
    match ← receive with
    | some m => runFor act rounds (← act state m)
    | none =>
      sleepCurrent
      return if rounds = 0 then .budget else .waiting

/-- Runs the main task from its beginning. -/
def runMain (terminal : TaskId) (rounds : Nat) : Kernel Pause := do
  runFor MainTask.act rounds (← MainTask.start terminal)

/-- Runs the terminal from its beginning. -/
def runTerminal (id : TaskId) (rounds : Nat) : Kernel Pause := do
  runFor TerminalTask.act rounds (← TerminalTask.start id)

end PreemptiveKernel.Kernel
