/-
  The main task and the terminal as one system.

  Between two of its calls a task can lose the processor, an interrupt can come, and the keyboard
  can send more bytes.  So what matters about the loop of a task is where it stands between two
  calls: what it carries, and the calls that it still has to make before it waits again (`Loop`).
  A `Console` is the machine with the loops of the main task and of the terminal.  It goes on by
  one cause at a time (`Console.advance`): bytes come from the keyboard, an interrupt is taken,
  or one of the two tasks, if it is current, makes one call.

  Nothing is left out and nothing is added in this picture.  One iteration of either program, as
  the kernel runs it, is a row of such calls (`exists_turns_of_main`, `exists_turns_of_terminal`),
  and in a play of the console anything may happen between any two of them.
-/
import PreemptiveKernel.Proofs.Calls
import PreemptiveKernel.Proofs.Requests

namespace PreemptiveKernel

open Run Scheduler

namespace Kernel

/-! ## Calls -/

/-- A call of one of the two programs. -/
inductive Call
  /-- The cursor timer is set again, counting from the tick at which it was due. -/
  | rearm (timeout : Nat)
  /-- A message is sent. -/
  | send (id : TaskId) (m : Message)
  /-- A record is written to the log. -/
  | note (severity : Severity) (text : String)
  /-- A character is printed. -/
  | echo (byte : UInt8)
  deriving DecidableEq, Repr

/-- What is done for a call. -/
def Call.perform : Call → Kernel Unit
  | rearm timeout => do addTimer (← Word.add timeout blinkTicks) cursorTimer
  | send id m => do
    let _ ← Kernel.send id m
  | note severity text => Kernel.note severity Source.image text
  | echo byte => print [characterText byte]

/-- The letters that a call sends. -/
def Call.letters : Call → List Letter
  | send id m => [⟨id, m⟩]
  | _ => []

/-- The calls of the main task for a message.  For a notification of the keyboard there are
    none, because what it does then depends on the bytes that it finds. -/
def MainTask.calls (task : MainTask) (m : Message) : List Call :=
  match m with
  | .timerTimeout timeout value =>
    (if value = cursorTimer then [.rearm timeout] else []) ++ [.send task.terminal m]
  | .deviceInterrupt .keyboard => []
  | .deviceInterrupt .xhci =>
    [.note .debug "main: xHCI notification ignored, no controller driver"]
  | .keyPush _ => [.send task.terminal m]
  | .layer r =>
    [.note .trace s!"main: layer {r.layer} {r.op.name} from {r.source}",
      .send r.source (.layerFinish r.layer)]
  | .layerFinish layer => [.note .warn s!"main: unexpected ack for layer {layer}"]

/-- The calls of the main task for what the decoder has made of a byte. -/
def keyCalls (terminal : TaskId) (event : Option KeyEvent) : List Call :=
  event.toList.map fun e => .send terminal (.keyPush e)

/-- The calls of the terminal for a message. -/
def TerminalTask.calls (task : TerminalTask) (m : Message) : List Call :=
  match m with
  | .keyPush e =>
    if e.press && e.ascii != 0 then
      [.echo e.ascii, .send Config.mainTask (.layer task.drawRequest)]
    else []
  | .timerTimeout _ value =>
    if value = cursorTimer then
      let shown := if !task.cursor then "on" else "off"
      [.note .trace s!"terminal: cursor {shown}"]
    else []
  | .layerFinish layer => [.note .trace s!"terminal: layer {layer} drawn"]
  | _ => []

/-- What the terminal carries after a message. -/
def TerminalTask.after (task : TerminalTask) (m : Message) : TerminalTask :=
  match m with
  | .timerTimeout _ value =>
    if value = cursorTimer then { task with cursor := !task.cursor } else task
  | _ => task

/-- The main task acts on a message by its calls. -/
theorem MainTask.act_eq (task : MainTask) {m : Message} (hm : m ≠ .deviceInterrupt .keyboard) :
    task.act m = (do
      (task.calls m).forM Call.perform
      return task) := by
  cases m with
  | timerTimeout timeout value =>
    unfold act calls
    by_cases h : value = cursorTimer
    · simp [h, Call.perform]
    · simp [h, Call.perform]
  | deviceInterrupt device =>
    cases device with
    | keyboard => exact absurd rfl hm
    | xhci => simp [act, calls, Call.perform]
  | keyPush e => simp [act, calls, Call.perform]
  | layer r => simp [act, calls, Call.perform]
  | layerFinish layer => simp [act, calls, Call.perform]

/-- **The calls for a message**: the timer is set again for a timeout of the cursor, a message is
    passed on to the terminal, a request for a layer is acknowledged, or something is written to
    the log. -/
theorem MainTask.of_mem_calls {task : MainTask} {m : Message} {call : Call}
    (h : call ∈ task.calls m) :
    (∃ timeout, m = .timerTimeout timeout cursorTimer ∧ call = .rearm timeout) ∨
    ((∀ r, m ≠ .layer r) ∧ call = .send task.terminal m) ∨
    (∃ r, m = .layer r ∧ call = .send r.source (.layerFinish r.layer)) ∨
    ∃ severity text, call = .note severity text := by
  cases m with
  | timerTimeout timeout value =>
    rcases List.mem_append.mp h with hrearm | hsend
    · split at hrearm
      · rename_i cursor
        exact .inl ⟨timeout, by rw [cursor], List.mem_singleton.mp hrearm⟩
      · cases hrearm
    · exact .inr (.inl ⟨nofun, List.mem_singleton.mp hsend⟩)
  | deviceInterrupt device =>
    cases device with
    | keyboard => cases h
    | xhci => exact .inr (.inr (.inr ⟨_, _, List.mem_singleton.mp h⟩))
  | keyPush e => exact .inr (.inl ⟨nofun, List.mem_singleton.mp h⟩)
  | layer r =>
    rcases List.mem_cons.mp h with hnote | hsend
    · exact .inr (.inr (.inr ⟨_, _, hnote⟩))
    · exact .inr (.inr (.inl ⟨r, rfl, List.mem_singleton.mp hsend⟩))
  | layerFinish layer => exact .inr (.inr (.inr ⟨_, _, List.mem_singleton.mp h⟩))

/-- For a key nothing is done but to pass it on. -/
theorem of_mem_keyCalls {terminal : TaskId} {event : Option KeyEvent} {call : Call}
    (h : call ∈ keyCalls terminal event) : ∃ e, call = .send terminal (.keyPush e) := by
  obtain ⟨e, -, rfl⟩ := List.mem_map.mp h
  exact ⟨e, rfl⟩

theorem TerminalTask.act_eq (task : TerminalTask) (m : Message) :
    task.act m = (do
      (task.calls m).forM Call.perform
      return task.after m) := by
  cases m with
  | keyPush e =>
    unfold act calls after
    by_cases h : (e.press && e.ascii != 0) = true
    · simp [h, Call.perform]
    · simp [h]
  | timerTimeout timeout value =>
    unfold act calls after
    by_cases h : value = cursorTimer
    · simp [h, Call.perform]
    · simp [h]
  | layerFinish layer => simp [act, calls, after, Call.perform]
  | deviceInterrupt device => simp [act, calls, after]
  | layer r => simp [act, calls, after]

/-- One more read of the keyboard, and what is done about it. -/
theorem drainKeyboard_succ (terminal : TaskId) (reads : Nat) (k : Keyboard) :
    drainKeyboard terminal (reads + 1) k = (do
      match ← readScancode with
      | none => return k
      | some byte => do
        (keyCalls terminal (k.decode byte).1).forM Call.perform
        drainKeyboard terminal reads (k.decode byte).2) := by
  rw [drainKeyboard]
  refine bind_congr fun byte => ?_
  cases byte with
  | none => rfl
  | some byte =>
    dsimp only
    cases (k.decode byte).1 with
    | none => simp [keyCalls]
    | some e => simp [keyCalls, Call.perform]

/-! ## Loops -/

/-- The loop of a task, as it stands between two calls. -/
structure Loop (σ : Type) where
  /-- What the task carries. -/
  state : σ
  /-- The calls that are still to be made. -/
  calls : List Call

variable {σ : Type}

/-- The next call is made.  If there is none to be made, `resume` tells how the loop goes on. -/
def Loop.step (resume : σ → Kernel (Loop σ)) (loop : Loop σ) : Kernel (Loop σ) :=
  match loop.calls with
  | [] => resume loop.state
  | call :: rest => do
    call.perform
    return ⟨loop.state, rest⟩

/-- A loop goes on if its task is the current one. -/
def Loop.turn (id : TaskId) (resume : σ → Kernel (Loop σ)) (loop : Loop σ) :
    Kernel (Loop σ) := do
  if Boot.current (← get) = some id then loop.step resume else return loop

/-- What the main task carries from one call to the next. -/
structure MainState where
  /-- What it carries from one message to the next. -/
  task : MainTask
  /-- It is reading the keyboard and has not yet found it empty. -/
  reading : Bool
  deriving DecidableEq

namespace MainState

/-- The main task has waited and has taken a message, or has found none. -/
def heard (p : MainState) : Option Message → Loop MainState
  | none => ⟨p, []⟩
  | some m => ⟨{ p with reading := m = .deviceInterrupt .keyboard }, p.task.calls m⟩

theorem heard_of_ne (p : MainState) {m : Message} (hm : m ≠ .deviceInterrupt .keyboard) :
    p.heard (some m) = ⟨{ p with reading := false }, p.task.calls m⟩ := by
  show Loop.mk (MainState.mk p.task (decide (m = .deviceInterrupt .keyboard))) _ = _
  rw [decide_eq_false hm]

theorem task_heard (p : MainState) (message : Option Message) :
    (p.heard message).state.task = p.task := by
  cases message with
  | none => rfl
  | some m => rfl

/-- The main task has read a byte, or has found none. -/
def found (p : MainState) : Option UInt8 → Loop MainState
  | none => ⟨{ p with reading := false }, []⟩
  | some byte =>
    ⟨{ p with task := { p.task with keyboard := (p.task.keyboard.decode byte).2 } },
      keyCalls p.task.terminal (p.task.keyboard.decode byte).1⟩

/-- The main task reads the keyboard, or it waits for a message. -/
def resume (p : MainState) : Kernel (Loop MainState) := do
  if p.reading then return p.found (← readScancode) else return p.heard (← waitStep)

end MainState

/-- What the terminal carries from one call to the next. -/
structure TerminalState where
  /-- What it carries from one message to the next. -/
  task : TerminalTask
  /-- The messages that it has taken so far. -/
  taken : List Message
  deriving DecidableEq

namespace TerminalState

/-- The terminal has waited and has taken a message, or has found none. -/
def heard (p : TerminalState) : Option Message → Loop TerminalState
  | none => ⟨p, []⟩
  | some m => ⟨⟨p.task.after m, p.taken ++ [m]⟩, p.task.calls m⟩

/-- The terminal waits for a message. -/
def resume (p : TerminalState) : Kernel (Loop TerminalState) := do
  return p.heard (← waitStep)

end TerminalState

/-! ## Turns of one loop -/

section Turns

variable {m m' : Machine} {t : List Observation} {id : TaskId}
  {resume : σ → Kernel (Loop σ)} {loop loop' : Loop σ}

/-- Turns of one loop, with nothing in between, and what is seen in each. -/
inductive Turns (id : TaskId) (resume : σ → Kernel (Loop σ)) :
    Loop σ → Machine → List (List Observation) → Loop σ → Machine → Prop
  | nil {loop : Loop σ} {m : Machine} : Turns id resume loop m [] loop m
  | cons {loop loop₁ loop' : Loop σ} {m m₁ m' : Machine} {t : List Observation}
      {ts : List (List Observation)} (current : Boot.current m = some id)
      (first : Comes (loop.step resume) m t loop₁ m₁)
      (later : Turns id resume loop₁ m₁ ts loop' m') :
      Turns id resume loop m (t :: ts) loop' m'

theorem Turns.single (current : Boot.current m = some id)
    (h : Comes (loop.step resume) m t loop' m') : Turns id resume loop m [t] loop' m' :=
  .cons current h .nil

theorem Turns.append {loop₁ : Loop σ} {m₁ : Machine} {ts us : List (List Observation)}
    (h : Turns id resume loop m ts loop₁ m₁) (h' : Turns id resume loop₁ m₁ us loop' m') :
    Turns id resume loop m (ts ++ us) loop' m' := by
  induction h with
  | nil => exact h'
  | cons current first _ ih => exact .cons current first (ih h')

/-- What comes of the turn of a loop: it is another task's turn, or a call is made, or there is
    none to be made and the loop goes on. -/
theorem comes_of_turn (h : Comes (loop.turn id resume) m t loop' m') :
    (t = [] ∧ loop' = loop ∧ m' = m) ∨
    Boot.current m = some id ∧
      ((∃ call rest, loop.calls = call :: rest ∧ loop' = ⟨loop.state, rest⟩ ∧
          Comes call.perform m t () m') ∨
        loop.calls = [] ∧ Comes (resume loop.state) m t loop' m') := by
  obtain ⟨t₁, m₁, m₂, t₂, hget, hrest, rfl⟩ := Comes.of_bind h
  obtain ⟨rfl, rfl, rfl⟩ := hget.of_get
  by_cases current : Boot.current m₂ = some id
  · rw [if_pos current] at hrest
    refine .inr ⟨current, ?_⟩
    obtain ⟨state, calls⟩ := loop
    cases calls with
    | nil => exact .inr ⟨rfl, hrest⟩
    | cons call rest =>
      obtain ⟨u, hcall, rfl⟩ := Comes.exists_of_then_pure hrest
      exact .inl ⟨call, rest, rfl, rfl, hcall⟩
  · rw [if_neg current] at hrest
    exact .inl hrest.of_pure

/-- The turn of a loop whose task is current is a step of it. -/
theorem comes_turn (current : Boot.current m = some id)
    (h : Comes (loop.step resume) m t loop' m') : Comes (loop.turn id resume) m t loop' m' := by
  have hturn : loop.turn id resume m = loop.step resume m := by
    unfold Loop.turn
    rw [bind_apply, get_apply, pure_bind, if_pos current]
  unfold Comes
  rw [hturn]
  exact h

/-- The processor belongs to a task: the scheduler is sound, nobody holds its lock, and the
    task is current. -/
def Holds (id : TaskId) (m : Machine) : Prop :=
  ∃ s, m.scheduler = some ⟨s, false⟩ ∧ s.Sound ∧ s.currentId = .ok id

theorem Holds.current (h : Holds id m) : Boot.current m = some id := by
  obtain ⟨s, hm, -, current⟩ := h
  unfold Boot.current
  rw [hm]
  show s.currentId.toOption = some id
  rw [current]
  rfl

/-- **A call delivers its letters**, and that is all that it does to the scheduler; the keyboard
    is not touched. -/
theorem Call.delivers {call : Call} {s : Scheduler} {u : Unit}
    (free : m.scheduler = some ⟨s, false⟩) (h : Comes call.perform m t u m') :
    ∃ s' acts, Moved m s t s' m' ∧ Steps s acts s' ∧ Carried s call.letters acts := by
  have hbeside : m.Beside t m' → call.letters = [] →
      ∃ s' acts, Moved m s t s' m' ∧ Steps s acts s' ∧ Carried s call.letters acts := by
    intro beside hletters
    rw [hletters]
    exact ⟨s, [], ⟨free, beside.scheduler.trans free, beside.keyboard, beside.unread⟩, .nil,
      List.forall_mem_nil _, rfl⟩
  cases call with
  | rearm timeout =>
    obtain ⟨t₁, due, m₁, t₂, hdue, hadd, rfl⟩ := Comes.of_bind h
    obtain ⟨-, rfl, rfl⟩ := Comes.of_except (x := Word.add timeout blinkTicks) hdue
    obtain ⟨c, c', -, -, -, hscheduler, hkeyboard, hunread⟩ := Comes.of_useClock hadd
    exact ⟨s, [], ⟨free, hscheduler.trans free, hkeyboard, hunread⟩, .nil,
      List.forall_mem_nil _, rfl⟩
  | send id message =>
    obtain ⟨t₁, answer, m₁, t₂, hsend, hpure, rfl⟩ := Comes.of_bind h
    obtain ⟨rfl, -, rfl⟩ := Comes.of_pure hpure
    obtain ⟨s₁, s', hanswer, hmoved, -⟩ := hsend.of_send
    obtain rfl := hmoved.eq_of_free free
    obtain ⟨acts, steps, carried⟩ := (send_carried s₁ ⟨id, message⟩).of_ok hanswer
    rw [List.append_nil]
    exact ⟨s', acts, hmoved, steps, carried⟩
  | note severity text => exact hbeside ((aside_note _ _ _).beside h) rfl
  | echo byte => exact hbeside h.of_print.1 rfl

/-- The task that can be told to be current is the current task of the scheduler. -/
theorem currentId_of_current {s : Scheduler} (free : m.scheduler = some ⟨s, false⟩)
    (current : Boot.current m = some id) : s.currentId = .ok id := by
  unfold Boot.current at current
  rw [free] at current
  have hsome : s.currentId.toOption = some id := current
  cases hid : s.currentId with
  | error stop =>
    rw [hid] at hsome
    nomatch hsome
  | ok key =>
    rw [hid] at hsome
    rw [Option.some.inj hsome]

/-- Calls leave the current task current. -/
theorem Call.holds {call : Call} {u : Unit} (hm : Holds id m)
    (h : Comes call.perform m t u m') : Holds id m' ∧ m'.keyboard = m.keyboard := by
  obtain ⟨s, free, sound, current⟩ := hm
  obtain ⟨s', acts, moved, steps, carried⟩ := Call.delivers free h
  have kept := steps.current_kept sound carried.calm
  exact ⟨⟨s', moved.left, steps.sound sound, kept.trans current⟩, moved.keyboard⟩

/-- Calls that are to be made are made one by one. -/
theorem exists_turns_of_calls {state : σ} {calls : List Call} {u : Unit} (hm : Holds id m)
    (h : Comes (calls.forM Call.perform) m t u m') :
    ∃ ts, Turns id resume ⟨state, calls⟩ m ts ⟨state, []⟩ m' ∧ ts.flatten = t ∧ Holds id m' ∧
      m'.keyboard = m.keyboard := by
  induction calls generalizing m t u with
  | nil =>
    obtain ⟨rfl, -, rfl⟩ := Comes.of_pure (a := ()) h
    exact ⟨[], .nil, rfl, hm, rfl⟩
  | cons call rest ih =>
    obtain ⟨t₁, v, m₁, t₂, hfirst, hlater, rfl⟩ := Comes.of_bind
      (x := call.perform) (f := fun _ => rest.forM Call.perform) h
    obtain ⟨hm₁, hkeyboard⟩ := Call.holds hm hfirst
    obtain ⟨ts, turns, rfl, hm', hkeyboard'⟩ := ih hm₁ hlater
    have hstep : Comes (Loop.step resume ⟨state, call :: rest⟩) m t₁ ⟨state, rest⟩ m₁ :=
      hfirst.then_pure _
    exact ⟨t₁ :: ts, .cons hm.current hstep turns, rfl, hm', hkeyboard'.trans hkeyboard⟩

/-- Whoever takes a message stays current. -/
theorem Comes.holds_of_waitStep {message : Message} (hm : Holds id m)
    (h : Comes waitStep m t (some message) m') : Holds id m' ∧ m'.keyboard = m.keyboard := by
  obtain ⟨s, free, sound, current⟩ := hm
  obtain ⟨s₁, change, s', hwait, moved, -⟩ := h.of_waitStep
  obtain rfl := moved.eq_of_free free
  have houtcome := (waitStep_ends sound).of_ok hwait
  cases houtcome with
  | took current' known step =>
    have kept := step.current_kept sound rfl
    exact ⟨⟨s', moved.left, step.sound sound, kept.trans current⟩, moved.keyboard⟩

/-- **An iteration of the terminal** is a row of turns. -/
theorem exists_turns_of_terminal {task task' : TerminalTask} (taken : List Message)
    (hm : Holds id m) (h : Comes (iterate TerminalTask.act task) m t task' m') :
    ∃ ts taken', Turns id TerminalState.resume ⟨⟨task, taken⟩, []⟩ m ts
      ⟨⟨task', taken'⟩, []⟩ m' ∧ ts.flatten = t := by
  obtain ⟨t₁, message, m₁, t₂, hwait, hact, rfl⟩ := Comes.of_bind h
  have hfirst : Comes (Loop.step TerminalState.resume ⟨⟨task, taken⟩, []⟩) m t₁
      (TerminalState.heard ⟨task, taken⟩ message) m₁ := hwait.then_pure _
  cases message with
  | none =>
    obtain ⟨rfl, rfl, rfl⟩ := Comes.of_pure (a := task) hact
    exact ⟨[t₁], taken, .single hm.current hfirst, by simp⟩
  | some message =>
    have hact : Comes (task.act message) m₁ t₂ task' m' := hact
    rw [TerminalTask.act_eq] at hact
    obtain ⟨t₃, u, m₂, t₄, hcalls, hpure, rfl⟩ := hact.of_bind
    obtain ⟨rfl, rfl, rfl⟩ := Comes.of_pure hpure
    obtain ⟨hm₁, -⟩ := hwait.holds_of_waitStep hm
    obtain ⟨ts, turns, rfl, -⟩ := exists_turns_of_calls hm₁ hcalls
    refine ⟨t₁ :: ts, taken ++ [message], .cons hm.current hfirst turns, ?_⟩
    rw [List.append_nil]
    rfl

/-- Reading the keyboard until it is empty is a row of turns, as long as more reads are allowed
    than bytes wait. -/
theorem exists_turns_of_drain {terminal : TaskId} {reads : Nat} {k k' : Keyboard}
    (hm : Holds id m) (enough : m.keyboard.buffer.length < reads)
    (h : Comes (drainKeyboard terminal reads k) m t k' m') :
    ∃ ts, Turns id MainState.resume ⟨⟨⟨terminal, k⟩, true⟩, []⟩ m ts
      ⟨⟨⟨terminal, k'⟩, false⟩, []⟩ m' ∧ ts.flatten = t := by
  induction reads generalizing m t k with
  | zero => exact absurd enough (Nat.not_lt_zero _)
  | succ reads ih =>
    rw [drainKeyboard_succ] at h
    obtain ⟨t₁, byte, m₁, t₂, hread, hlater, rfl⟩ := h.of_bind
    have hfirst : Comes (Loop.step MainState.resume ⟨⟨⟨terminal, k⟩, true⟩, []⟩) m t₁
        (MainState.found ⟨⟨terminal, k⟩, true⟩ byte) m₁ := hread.then_pure _
    obtain ⟨hscheduler, -, -, hbuffer, -⟩ := hread.of_readScancode
    have hm₁ : Holds id m₁ := by
      obtain ⟨s, free, sound, current⟩ := hm
      exact ⟨s, hscheduler.trans free, sound, current⟩
    cases byte with
    | none =>
      obtain ⟨rfl, rfl, rfl⟩ := Comes.of_pure (a := k) hlater
      exact ⟨[t₁], .single hm.current hfirst, by simp⟩
    | some byte =>
      obtain ⟨t₃, u, m₂, t₄, hcalls, hrest, rfl⟩ := Comes.of_bind hlater
      obtain ⟨ts, turns, rfl, hm₂, hkeyboard⟩ := exists_turns_of_calls hm₁ hcalls
      -- one byte fewer waits, and nobody has put another one there
      have hfewer : m₂.keyboard.buffer.length < reads := by
        rw [← hbuffer] at enough
        rw [hkeyboard]
        simpa using enough
      obtain ⟨us, later, rfl⟩ := ih hm₂ hfewer hrest
      refine ⟨t₁ :: (ts ++ us), .cons hm.current hfirst (turns.append later), ?_⟩
      simp

/-- **An iteration of the main task** is a row of turns. -/
theorem exists_turns_of_main {task task' : MainTask} (hm : Holds id m)
    (h : Comes (iterate MainTask.act task) m t task' m') :
    ∃ ts, Turns id MainState.resume ⟨⟨task, false⟩, []⟩ m ts ⟨⟨task', false⟩, []⟩ m' ∧
      ts.flatten = t := by
  obtain ⟨t₁, message, m₁, t₂, hwait, hact, rfl⟩ := Comes.of_bind h
  have hfirst : Comes (Loop.step MainState.resume ⟨⟨task, false⟩, []⟩) m t₁
      (MainState.heard ⟨task, false⟩ message) m₁ := hwait.then_pure _
  cases message with
  | none =>
    obtain ⟨rfl, rfl, rfl⟩ := Comes.of_pure (a := task) hact
    exact ⟨[t₁], .single hm.current hfirst, by simp⟩
  | some message =>
    have hact : Comes (task.act message) m₁ t₂ task' m' := hact
    obtain ⟨hm₁, -⟩ := hwait.holds_of_waitStep hm
    by_cases notified : message = .deviceInterrupt .keyboard
    · subst notified
      obtain ⟨t₃, m₂, m₃, t₄, hget, hdrain, rfl⟩ := hact.of_bind
      obtain ⟨rfl, rfl, rfl⟩ := hget.of_get
      obtain ⟨t₅, k, m₄, t₆, hreads, hpure, rfl⟩ := hdrain.of_bind
      obtain ⟨rfl, rfl, rfl⟩ := Comes.of_pure hpure
      obtain ⟨ts, turns, rfl⟩ := exists_turns_of_drain hm₁ (Nat.lt_succ_self _) hreads
      refine ⟨t₁ :: ts, .cons hm.current hfirst turns, ?_⟩
      simp
    · rw [task.act_eq notified] at hact
      obtain ⟨t₃, u, m₂, t₄, hcalls, hpure, rfl⟩ := hact.of_bind
      obtain ⟨rfl, hsame, rfl⟩ := Comes.of_pure hpure
      obtain ⟨ts, turns, rfl, -⟩ := exists_turns_of_calls hm₁ hcalls
      rw [MainState.heard_of_ne _ notified] at hfirst
      rw [hsame]
      refine ⟨t₁ :: ts, .cons hm.current hfirst turns, ?_⟩
      simp

end Turns

end Kernel

open Kernel

/-! ## The console -/

/-- The keyboard has sent bytes. -/
def Machine.arrive (m : Machine) (bytes : List UInt8) : Machine :=
  { m with keyboard := { m.keyboard with buffer := m.keyboard.buffer ++ bytes } }

/-- The machine with the loops of the main task and of the terminal. -/
structure Console where
  /-- The machine. -/
  machine : Machine
  /-- The loop of the main task. -/
  main : Loop MainState
  /-- The task of the terminal. -/
  terminalId : TaskId
  /-- The loop of the terminal. -/
  terminal : Loop TerminalState

/-- What makes a console go on. -/
inductive Cause
  /-- Bytes come from the keyboard. -/
  | arrival (bytes : List UInt8)
  /-- The processor takes an interrupt. -/
  | interrupt (i : Interrupt)
  /-- The main task makes a call, if it is current. -/
  | main
  /-- The terminal makes a call, if it is current. -/
  | terminal
  deriving DecidableEq, Repr

namespace Console

/-- The console goes on. -/
def advance (c : Console) : Cause → Run Observation Console
  | .arrival bytes => return { c with machine := c.machine.arrive bytes }
  | .interrupt i => do
    let (_, m) ← Boot.take i c.machine
    return { c with machine := m }
  | .main => do
    let (loop, m) ← c.main.turn Config.mainTask MainState.resume c.machine
    return { c with machine := m, main := loop }
  | .terminal => do
    let (loop, m) ← c.terminal.turn c.terminalId TerminalState.resume c.machine
    return { c with machine := m, terminal := loop }

/-- A turn of the main task is a way for the console to go on. -/
theorem advance_main (c : Console) {loop loop' : Loop MainState} {m m' : Machine}
    {t : List Observation} (h : Comes (loop.turn Config.mainTask MainState.resume) m t loop' m') :
    advance { c with main := loop, machine := m } .main =
      ⟨t, .ok { c with main := loop', machine := m' }⟩ :=
  Run.then_pure h fun p : Loop MainState × Machine =>
    ({ c with main := p.1, machine := p.2 } : Console)

/-- A turn of the terminal is a way for the console to go on. -/
theorem advance_terminal (c : Console) {loop loop' : Loop TerminalState} {m m' : Machine}
    {t : List Observation}
    (h : Comes (loop.turn c.terminalId TerminalState.resume) m t loop' m') :
    advance { c with terminal := loop, machine := m } .terminal =
      ⟨t, .ok { c with terminal := loop', machine := m' }⟩ :=
  Run.then_pure h fun p : Loop TerminalState × Machine =>
    ({ c with terminal := p.1, machine := p.2 } : Console)

/-- **How a console can go on**, what is seen, and what it is then. -/
inductive Advanced (c : Console) : Cause → List Observation → Console → Prop
  /-- Bytes have come. -/
  | arrived {bytes : List UInt8} :
      Advanced c (.arrival bytes) [] { c with machine := c.machine.arrive bytes }
  /-- An interrupt has been taken. -/
  | interrupted {i : Interrupt} {t : List Observation} {m : Machine}
      (comes : Comes (Boot.take i) c.machine t () m) :
      Advanced c (.interrupt i) t { c with machine := m }
  /-- It was another task's turn. -/
  | passed {cause : Cause} (task : cause = .main ∨ cause = .terminal) : Advanced c cause [] c
  /-- The main task has made a call. -/
  | mainCalled {call : Call} {rest : List Call} {t : List Observation} {m : Machine}
      (current : Boot.current c.machine = some Config.mainTask)
      (next : c.main.calls = call :: rest) (comes : Comes call.perform c.machine t () m) :
      Advanced c .main t { c with machine := m, main := ⟨c.main.state, rest⟩ }
  /-- The main task has looked for a byte. -/
  | mainRead {byte : Option UInt8} {t : List Observation} {m : Machine}
      (current : Boot.current c.machine = some Config.mainTask) (done : c.main.calls = [])
      (reading : c.main.state.reading = true) (comes : Comes readScancode c.machine t byte m) :
      Advanced c .main t { c with machine := m, main := c.main.state.found byte }
  /-- The main task has looked for a message. -/
  | mainWaited {message : Option Message} {t : List Observation} {m : Machine}
      (current : Boot.current c.machine = some Config.mainTask) (done : c.main.calls = [])
      (resting : c.main.state.reading = false) (comes : Comes waitStep c.machine t message m) :
      Advanced c .main t { c with machine := m, main := c.main.state.heard message }
  /-- The terminal has made a call. -/
  | terminalCalled {call : Call} {rest : List Call} {t : List Observation} {m : Machine}
      (current : Boot.current c.machine = some c.terminalId)
      (next : c.terminal.calls = call :: rest) (comes : Comes call.perform c.machine t () m) :
      Advanced c .terminal t { c with machine := m, terminal := ⟨c.terminal.state, rest⟩ }
  /-- The terminal has looked for a message. -/
  | terminalWaited {message : Option Message} {t : List Observation} {m : Machine}
      (current : Boot.current c.machine = some c.terminalId) (done : c.terminal.calls = [])
      (comes : Comes waitStep c.machine t message m) :
      Advanced c .terminal t
        { c with machine := m, terminal := c.terminal.state.heard message }

/-- The terminal's task stays what it is. -/
theorem Advanced.terminalId_eq {c c' : Console} {cause : Cause} {t : List Observation}
    (h : Advanced c cause t c') : c'.terminalId = c.terminalId := by
  cases h with
  | _ => rfl

/-- Every console that goes on goes on in one of these ways. -/
theorem advanced {c c' : Console} {cause : Cause} {t : List Observation}
    (h : c.advance cause = ⟨t, .ok c'⟩) : Advanced c cause t c' := by
  cases cause with
  | arrival bytes =>
    obtain rfl := congrArg Run.trace h
    obtain rfl := Except.ok.inj (congrArg Run.outcome h)
    exact .arrived
  | interrupt i =>
    obtain ⟨⟨u, m⟩, htake, rfl⟩ := Run.exists_of_then_pure
      (f := fun p : Unit × Machine => { c with machine := p.2 }) h
    exact .interrupted htake
  | main =>
    obtain ⟨⟨loop, m⟩, hturn, rfl⟩ := Run.exists_of_then_pure
      (f := fun p : Loop MainState × Machine => { c with machine := p.2, main := p.1 }) h
    rcases comes_of_turn hturn with
      ⟨rfl, rfl, rfl⟩ | ⟨current, ⟨call, rest, next, rfl, hcall⟩ | ⟨done, hresume⟩⟩
    · exact .passed (.inl rfl)
    · exact .mainCalled current next hcall
    · unfold MainState.resume at hresume
      by_cases reading : c.main.state.reading = true
      · rw [if_pos reading] at hresume
        obtain ⟨byte, hread, rfl⟩ := hresume.exists_of_then_pure
        exact .mainRead current done reading hread
      · rw [if_neg reading] at hresume
        obtain ⟨message, hwait, rfl⟩ := hresume.exists_of_then_pure
        exact .mainWaited current done (Bool.not_eq_true _ ▸ reading) hwait
  | terminal =>
    obtain ⟨⟨loop, m⟩, hturn, rfl⟩ := Run.exists_of_then_pure
      (f := fun p : Loop TerminalState × Machine =>
        { c with machine := p.2, terminal := p.1 }) h
    rcases comes_of_turn hturn with
      ⟨rfl, rfl, rfl⟩ | ⟨current, ⟨call, rest, next, rfl, hcall⟩ | ⟨done, hresume⟩⟩
    · exact .passed (.inr rfl)
    · exact .terminalCalled current next hcall
    · obtain ⟨message, hwait, rfl⟩ := Comes.exists_of_then_pure hresume
      exact .terminalWaited current done hwait

end Console

/-! ## Plays -/

/-- A console goes on once. -/
structure Beat where
  /-- The console before. -/
  before : Console
  /-- What makes it go on. -/
  cause : Cause
  /-- What is seen. -/
  trace : List Observation
  /-- The console afterwards. -/
  after : Console
  /-- So it goes on. -/
  done : before.advance cause = ⟨trace, .ok after⟩

/-- A console goes on and on, by whatever causes and in whatever order. -/
inductive Play (start : Console) : List Beat → Console → Prop
  | nil : Play start [] start
  | snoc {beats : List Beat} {b : Beat} (earlier : Play start beats b.before) :
      Play start (beats ++ [b]) b.after

/-- A console goes on by one cause after the other. -/
def Console.advanceAll (c : Console) : List Cause → Run Observation Console
  | [] => return c
  | cause :: rest => do
    let c ← c.advance cause
    c.advanceAll rest

namespace Play

variable {start c : Console} {beats : List Beat} {m' : Machine} {t : List Observation}

/-- Causes that are given make up a play. -/
theorem advanceAll (h : Play start beats c) (causes : List Cause) (post : Console → Prop)
    (ends : (c.advanceAll causes).Ends Stop.Never post) :
    ∃ more c', Play start (beats ++ more) c' ∧ post c' ∧ more.map Beat.cause = causes := by
  obtain ⟨c', done, hpost⟩ := ends_never_iff.mp ends
  clear ends
  suffices hmore : ∃ more, Play start (beats ++ more) c' ∧ more.map Beat.cause = causes by
    obtain ⟨more, play, hcauses⟩ := hmore
    exact ⟨more, c', play, hpost, hcauses⟩
  induction causes generalizing c beats with
  | nil =>
    obtain rfl := Except.ok.inj done
    exact ⟨[], by rw [List.append_nil]; exact h, rfl⟩
  | cons cause rest ih =>
    obtain ⟨c₁, hfirst, hrest⟩ := outcome_bind_eq_ok_iff.mp done
    have hdone : c.advance cause = ⟨(c.advance cause).trace, .ok c₁⟩ := by rw [← hfirst]
    obtain ⟨more, play, hcauses⟩ := ih (Play.snoc (b := ⟨_, _, _, _, hdone⟩) h) hrest
    refine ⟨⟨_, _, _, _, hdone⟩ :: more, ?_, ?_⟩
    · rw [List.append_cons]
      exact play
    · rw [List.map_cons, hcauses]

theorem terminalId_eq (h : Play start beats c) : c.terminalId = start.terminalId := by
  induction h with
  | nil => rfl
  | @snoc beats b earlier ih =>
    rw [← ih]
    exact (Console.advanced b.done).terminalId_eq

/-- Turns of one loop may follow.  Here `put` tells which loop of the console it is. -/
theorem turns {σ : Type} {id : TaskId} {resume : σ → Kernel (Loop σ)} {cause : Cause}
    {put : Loop σ → Machine → Console}
    (advances : ∀ {loop loop' m m' t}, Comes (loop.turn id resume) m t loop' m' →
      (put loop m).advance cause = ⟨t, .ok (put loop' m')⟩)
    {loop loop' : Loop σ} {m : Machine} {ts : List (List Observation)}
    (h : Play start beats (put loop m)) (turns : Turns id resume loop m ts loop' m') :
    ∃ more, Play start (beats ++ more) (put loop' m') ∧ more.map Beat.trace = ts := by
  induction turns generalizing beats with
  | nil => exact ⟨[], by rw [List.append_nil]; exact h, rfl⟩
  | @cons loop loop₁ loop' m m₁ m' t ts current first later ih =>
    have hdone := advances (comes_turn current first)
    obtain ⟨more, play, htraces⟩ := ih (Play.snoc (b := ⟨_, _, _, _, hdone⟩) h)
    refine ⟨⟨_, _, _, _, hdone⟩ :: more, ?_, ?_⟩
    · rw [List.append_cons]
      exact play
    · rw [List.map_cons, htraces]

/-- **An iteration of the main task**, as the kernel runs it, is a part of a play. -/
theorem main_iteration {task task' : MainTask} (h : Play start beats c)
    (between : c.main = ⟨⟨task, false⟩, []⟩) (hm : Holds Config.mainTask c.machine)
    (comes : Comes (iterate MainTask.act task) c.machine t task' m') :
    ∃ more, Play start (beats ++ more)
        { c with machine := m', main := ⟨⟨task', false⟩, []⟩ } ∧
      more.flatMap Beat.trace = t := by
  obtain ⟨ts, turns, rfl⟩ := exists_turns_of_main hm comes
  rw [← between] at turns
  obtain ⟨more, play, rfl⟩ := Play.turns (Console.advance_main c) h turns
  exact ⟨more, play, List.flatMap_def⟩

/-- **An iteration of the terminal**, as the kernel runs it, is a part of a play. -/
theorem terminal_iteration {task task' : TerminalTask} {taken : List Message}
    (h : Play start beats c) (between : c.terminal = ⟨⟨task, taken⟩, []⟩)
    (hm : Holds c.terminalId c.machine)
    (comes : Comes (iterate TerminalTask.act task) c.machine t task' m') :
    ∃ more taken', Play start (beats ++ more)
        { c with machine := m', terminal := ⟨⟨task', taken'⟩, []⟩ } ∧
      more.flatMap Beat.trace = t := by
  obtain ⟨ts, taken', turns, rfl⟩ := exists_turns_of_terminal taken hm comes
  rw [← between] at turns
  obtain ⟨more, play, rfl⟩ := Play.turns (Console.advance_terminal c) h turns
  exact ⟨more, taken', play, List.flatMap_def⟩

end Play

end PreemptiveKernel
