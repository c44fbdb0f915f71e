/-
  Keystrokes arrive, from the keyboard's port to the serial line.

  A byte that has been read from the port is decoded, and what the decoder makes of it goes on as
  a message: it is a call that the main task still has to make, then it waits in the inbox of the
  terminal, then the terminal has taken it.  The terminal prints the character of a key, which in
  turn is first a call that it still has to make.

  Whatever happens in between, and wherever a task loses the processor, nothing gets lost on this
  way and nothing overtakes anything.  Two invariants say so.  The key events that the terminal has
  taken, those that wait in its inbox and those that the main task has still to send are, in this
  order, what a fresh decoder makes of all bytes read so far (`Flow`).  The bytes on the serial
  line, followed by those of the characters that the terminal has still to print, are the encoding
  of the characters of the keys that it has taken (`Echo`).
-/
import PreemptiveKernel.Proofs.Console
import PreemptiveKernel.Proofs.Timeouts

namespace PreemptiveKernel

open Run Scheduler Kernel

/-! ## Keys and characters -/

/-- The key event that a message brings. -/
def Message.key? : Message → Option KeyEvent
  | .keyPush e => some e
  | _ => none

/-- The key events that messages bring, in order. -/
def keysIn (ms : List Message) : List KeyEvent :=
  ms.filterMap Message.key?

theorem keysIn_append (xs ys : List Message) : keysIn (xs ++ ys) = keysIn xs ++ keysIn ys :=
  List.filterMap_append

theorem keysIn_eq_nil_iff {ms : List Message} :
    keysIn ms = [] ↔ ∀ m ∈ ms, m.key? = none :=
  List.filterMap_eq_nil_iff

/-- The characters that key events stand for: those of the keys that go down and have one. -/
def typed (events : List KeyEvent) : List UInt8 :=
  (events.filter fun e => e.press && e.ascii != 0).map KeyEvent.ascii

theorem typed_append (xs ys : List KeyEvent) : typed (xs ++ ys) = typed xs ++ typed ys := by
  unfold typed
  rw [List.filter_append, List.map_append]

namespace Keyboard

/-- The keyboard has no other characters than those of the seven bit code. -/
theorem character_lt (k : Keyboard) (code : UInt8) : k.character code < 0x80 := by
  have hplain : ∀ b ∈ plainCharacters, b < 0x80 := by decide +kernel
  have hshifted : ∀ b ∈ shiftedCharacters, b < 0x80 := by decide +kernel
  unfold character
  split
  · rename_i plain shifted hp hs
    have hp := hplain _ (List.mem_of_getElem? hp)
    have hs := hshifted _ (List.mem_of_getElem? hs)
    have heither : ∀ turned : Bool, (if turned then shifted else plain) < 0x80 := by
      intro turned
      cases turned with
      | true => exact hs
      | false => exact hp
    exact heither _
  · decide

theorem ascii_lt_of_decode {k : Keyboard} {b : UInt8} {e : KeyEvent}
    (h : (k.decode b).1 = some e) : e.ascii < 0x80 := by
  unfold decode at h
  split at h
  · nomatch h
  · obtain rfl := Option.some.inj h
    dsimp only
    split
    · decide
    · exact character_lt _ _

theorem ascii_lt_of_decodeAll {k : Keyboard} {bytes : List UInt8} {e : KeyEvent}
    (h : e ∈ (k.decodeAll bytes).1) : e.ascii < 0x80 := by
  induction bytes generalizing k with
  | nil => nomatch h
  | cons b rest ih =>
    rw [decodeAll_cons] at h
    rcases List.mem_append.mp h with hfirst | hlater
    · exact ascii_lt_of_decode (Option.mem_toList.mp hfirst)
    · exact ih hlater

/-- One more byte. -/
theorem decodeAll_concat (k : Keyboard) (bytes : List UInt8) (b : UInt8) :
    k.decodeAll (bytes ++ [b]) =
      ((k.decodeAll bytes).1 ++ (((k.decodeAll bytes).2.decode b).1).toList,
        ((k.decodeAll bytes).2.decode b).2) := by
  rw [decodeAll_append, decodeAll_cons]
  simp [decodeAll]

end Keyboard

/-- A character of the seven bit code goes out as the byte that it is. -/
theorem utf8_characterText {b : UInt8} (h : b < 0x80) :
    (characterText b).toUTF8.toList = [b] := by
  have hall : ∀ n : Fin 128, (characterText (UInt8.ofNat n.val)).toUTF8 =
      ⟨#[UInt8.ofNat n.val]⟩ := by decide
  have hlt : b.toNat < 128 := h
  have hb := hall ⟨b.toNat, hlt⟩
  rw [UInt8.ofNat_toNat] at hb
  rw [hb]
  exact toList_eq_data _

/-! ## What the calls carry -/

/-- The key events that are sent to a task by calls still to be made. -/
def keysFor (id : TaskId) (calls : List Call) : List KeyEvent :=
  keysIn (lettersTo id (calls.flatMap Call.letters))

/-- The characters that are printed by calls still to be made. -/
def echoes (calls : List Call) : List UInt8 :=
  calls.filterMap fun
    | .echo b => some b
    | _ => none

theorem keysFor_cons (id : TaskId) (call : Call) (rest : List Call) :
    keysFor id (call :: rest) = keysIn (lettersTo id call.letters) ++ keysFor id rest := by
  unfold keysFor
  rw [List.flatMap_cons, lettersTo_append, keysIn_append]

/-- Letters that bring no key event bring none to anybody. -/
theorem keysIn_lettersTo_eq_nil {letters : List Letter} (id : TaskId)
    (h : ∀ x ∈ letters, x.message.key? = none) : keysIn (lettersTo id letters) = [] :=
  keysIn_eq_nil_iff.mpr fun _ hm => h _ (mem_lettersTo.mp hm)

/-- If no key event is sent to a task, none is accepted for it. -/
theorem keysIn_accepted_eq_nil {s : Scheduler} {letters : List Letter} {id : TaskId}
    (h : keysIn (lettersTo id letters) = []) :
    keysIn (lettersTo id (s.accepted letters)) = [] := by
  rw [keysIn_eq_nil_iff] at h ⊢
  intro m hm
  have haccepted := mem_lettersTo.mp hm
  rw [accepted_eq_filter] at haccepted
  exact h m (mem_lettersTo.mpr (List.mem_filter.mp haccepted).1)

/-- What the main task sends on for a message is a key event only if the message is one. -/
theorem keysFor_calls_of_main (task : MainTask) {m : Message} (hm : m.key? = none)
    (id : TaskId) : keysFor id (task.calls m) = [] := by
  refine keysIn_lettersTo_eq_nil id fun x hx => ?_
  obtain ⟨call, hcall, hx⟩ := List.mem_flatMap.mp hx
  cases m with
  | timerTimeout timeout value =>
    rcases List.mem_append.mp hcall with hrearm | hsend
    · split at hrearm
      · obtain rfl := List.mem_singleton.mp hrearm
        nomatch hx
      · nomatch hrearm
    · obtain rfl := List.mem_singleton.mp hsend
      obtain rfl := List.mem_singleton.mp hx
      rfl
  | deviceInterrupt device =>
    cases device with
    | keyboard => nomatch hcall
    | xhci =>
      obtain rfl := List.mem_singleton.mp hcall
      nomatch hx
  | keyPush e => nomatch hm
  | layer r =>
    rcases List.mem_cons.mp hcall with rfl | hsend
    · nomatch hx
    · obtain rfl := List.mem_singleton.mp hsend
      obtain rfl := List.mem_singleton.mp hx
      rfl
  | layerFinish layer =>
    obtain rfl := List.mem_singleton.mp hcall
    nomatch hx

/-- The terminal sends no key events. -/
theorem keysFor_calls_of_terminal (task : TerminalTask) (m : Message) (id : TaskId) :
    keysFor id (task.calls m) = [] := by
  refine keysIn_lettersTo_eq_nil id fun x hx => ?_
  obtain ⟨call, hcall, hx⟩ := List.mem_flatMap.mp hx
  unfold TerminalTask.calls at hcall
  cases m with
  | keyPush e =>
    dsimp only at hcall
    split at hcall
    · rcases List.mem_cons.mp hcall with rfl | hsend
      · nomatch hx
      · obtain rfl := List.mem_singleton.mp hsend
        obtain rfl := List.mem_singleton.mp hx
        rfl
    · nomatch hcall
  | timerTimeout timeout value =>
    dsimp only at hcall
    split at hcall
    · obtain rfl := List.mem_singleton.mp hcall
      nomatch hx
    · nomatch hcall
  | layerFinish layer =>
    obtain rfl := List.mem_singleton.mp hcall
    nomatch hx
  | deviceInterrupt device => nomatch hcall
  | layer r => nomatch hcall

/-- What the decoder has made of a byte is sent to the terminal. -/
theorem keysFor_keyCalls (terminal id : TaskId) (event : Option KeyEvent) :
    keysFor id (keyCalls terminal event) = if id = terminal then event.toList else [] := by
  cases event with
  | none => simp [keysFor, keyCalls, lettersTo, keysIn]
  | some e =>
    show keysIn (lettersTo id ([Message.keyPush e].map (Letter.mk terminal))) = _
    rw [lettersTo_map_mk]
    split
    · rfl
    · rfl

/-- What the terminal prints for a message is the character of the key. -/
theorem echoes_calls (task : TerminalTask) (m : Message) :
    echoes (task.calls m) = typed (keysIn [m]) := by
  cases m with
  | keyPush e =>
    unfold TerminalTask.calls
    by_cases h : (e.press && e.ascii != 0) = true
    · simp [echoes, typed, keysIn, Message.key?, h]
    · simp [echoes, typed, keysIn, Message.key?, h]
  | timerTimeout timeout value =>
    unfold TerminalTask.calls
    dsimp only
    split
    · rfl
    · rfl
  | layerFinish layer => rfl
  | deviceInterrupt device => rfl
  | layer r => rfl

/-- The bytes that come from the keyboard. -/
def Cause.arrived : Cause → List UInt8
  | .arrival bytes => bytes
  | _ => []

/-! ## The way of the keys -/

section Flow

variable {c c' : Console} {s s' : Scheduler} {read : List UInt8} {m' : Machine}
  {t : List Observation} {acts : List Act}

/-- **No key is lost on the way**, when the scheduler is `s` and these bytes have been read. -/
structure Flow (c : Console) (s : Scheduler) (read : List UInt8) : Prop where
  /-- Nobody holds the lock of the scheduler. -/
  free : c.machine.scheduler = some ⟨s, false⟩
  /-- The scheduler is sound. -/
  sound : s.Sound
  /-- The terminal's task exists. -/
  known : (s.tasks.get? c.terminalId).isSome
  /-- It is not the main task. -/
  apart : c.terminalId ≠ Config.mainTask
  /-- The main task sends the keys to it. -/
  addressed : c.main.state.task.terminal = c.terminalId
  /-- No key waits for the main task. -/
  unkeyed : keysIn (s.mail Config.mainTask) = []
  /-- The main task sends itself no keys. -/
  aimed : keysFor Config.mainTask c.main.calls = []
  /-- The terminal sends nobody any keys. -/
  unsent : ∀ id, keysFor id c.terminal.calls = []
  /-- The decoder is where the bytes have brought it. -/
  decoder : c.main.state.task.keyboard = (Keyboard.fresh.decodeAll read).2
  /-- What has been taken, what waits and what is still to be sent is what was decoded. -/
  keys : keysIn c.terminal.state.taken ++
      (keysIn (s.mail c.terminalId) ++ keysFor c.terminalId c.main.calls) =
    (Keyboard.fresh.decodeAll read).1

/-- Steps that neither put a key into an inbox nor take one out of it. -/
theorem Flow.quiet (h : Flow c s read) (moved : Moved c.machine s t s' m')
    (steps : Steps s acts s') (quiet : ∀ id, keysIn (s'.mail id) = keysIn (s.mail id)) :
    Flow { c with machine := m' } s' read :=
  { h with
    free := moved.left
    sound := steps.sound h.sound
    known := steps.known_kept h.known
    unkeyed := (quiet _).trans h.unkeyed
    keys := by
      rw [quiet]
      exact h.keys }

/-- Letters without keys are quiet. -/
theorem quiet_of_carried {letters : List Letter} (carried : Carried s letters acts)
    (steps : Steps s acts s') (keyless : ∀ id, keysIn (lettersTo id letters) = []) (id : TaskId) :
    keysIn (s'.mail id) = keysIn (s.mail id) := by
  rw [carried.mail steps id, keysIn_append, keysIn_accepted_eq_nil (keyless id),
    List.append_nil]

/-- **An interrupt brings no keys**: it brings notifications and timeouts, and it may end a
    turn. -/
theorem quiet_of_take {m : Machine} {i : Interrupt} {u : Unit}
    (free : m.scheduler = some ⟨s, false⟩) (h : Comes (Boot.take i) m t u m') :
    ∃ s' acts, Moved m s t s' m' ∧ Steps s acts s' ∧
      ∀ id, keysIn (s'.mail id) = keysIn (s.mail id) := by
  obtain ⟨m₁, hhandle, rfl⟩ := h.of_take
  cases i with
  | timer =>
    obtain ⟨s₁, s', clock, clock', change, hirq, hmoved, -, -⟩ :=
      Comes.of_timerInterrupt (aside_acknowledge _) hhandle
    obtain rfl := hmoved.eq_of_free free
    obtain ⟨ended, s₂, htick, hlast⟩ := Interrupt.parts_of_onTimer hirq
    obtain ⟨-, acts, steps, carried⟩ := (clock.tick_carried s₁).of_ok htick
    have htimeouts : ∀ id, keysIn (lettersTo id clock.letters) = [] := by
      refine fun id => keysIn_lettersTo_eq_nil id fun x hx => ?_
      obtain ⟨timeout, -, rfl⟩ := List.mem_map.mp hx
      rfl
    have hquiet := quiet_of_carried carried steps htimeouts
    have hmoved' : Moved m s₁ t s' { m₁ with interrupts := m.interrupts } :=
      ⟨hmoved.free, hmoved.left, hmoved.keyboard, hmoved.unread⟩
    rcases hlast with ⟨-, rfl⟩ | ⟨-, hswitch⟩
    · exact ⟨s', acts, hmoved', steps, hquiet⟩
    · -- the end of the turn leaves the inboxes alone
      obtain ⟨turn, step⟩ := exists_yield_of_switchTask hswitch
      refine ⟨s', acts ++ [.yield turn], hmoved', steps.append step.single, fun id => ?_⟩
      have hsame : s'.mail id = s₂.mail id := (step.mail id).trans (List.append_nil _)
      rw [hsame]
      exact hquiet id
  | keyboard =>
    obtain ⟨s₁, s', hirq, hmoved, -⟩ :=
      Comes.of_deviceInterrupt (aside_acknowledge _) hhandle
    obtain rfl := hmoved.eq_of_free free
    obtain ⟨acts, steps, carried⟩ := (Interrupt.onDevice_carried s₁ _ _).of_ok hirq
    have hnotice : ∀ id, keysIn (lettersTo id
        [⟨s₁.config.receiver, .deviceInterrupt .keyboard⟩]) = [] := by
      refine fun id => keysIn_lettersTo_eq_nil id fun x hx => ?_
      obtain rfl := List.mem_singleton.mp hx
      rfl
    exact ⟨s', acts, ⟨hmoved.free, hmoved.left, hmoved.keyboard, hmoved.unread⟩, steps,
      quiet_of_carried carried steps hnotice⟩
  | spurious =>
    obtain ⟨rfl, -, rfl⟩ := Comes.of_pure (a := ()) hhandle
    exact ⟨s, [], ⟨free, free, rfl, rfl⟩, .nil, fun _ => rfl⟩

/-- **Waiting takes from one inbox**: what is taken was at its front, and nothing else
    changes in any inbox. -/
theorem mail_of_wait {m : Machine} {id : TaskId} {message : Option Message}
    (free : m.scheduler = some ⟨s, false⟩) (sound : s.Sound)
    (current : Boot.current m = some id) (h : Comes waitStep m t message m') :
    ∃ s' acts, Moved m s t s' m' ∧ Steps s acts s' ∧
      ∀ x, (if x = id then message.toList else []) ++ s'.mail x = s.mail x := by
  obtain ⟨s₁, change, s', hwait, hmoved, -⟩ := h.of_waitStep
  obtain rfl := hmoved.eq_of_free free
  have hnothing : s'.mail = s₁.mail → ∀ x,
      (if x = id then (none : Option Message).toList else []) ++ s'.mail x = s₁.mail x := by
    intro hsame x
    rw [hsame, Option.toList_none, ite_self, List.nil_append]
  cases (waitStep_ends sound).of_ok hwait with
  | @took key task message s' current' known step =>
    obtain rfl : key = id :=
      Except.ok.inj (current'.symm.trans (currentId_of_current free current))
    refine ⟨s', [.take key [message]], hmoved, step.single, fun x => ?_⟩
    exact (step.mail x).trans (List.append_nil _)
  | idled current' known nothing => exact ⟨_, [], hmoved, .nil, hnothing rfl⟩
  | @retired key task change s' current' known nothing leaving step =>
    refine ⟨s', [.retire change], hmoved, step.single, hnothing ?_⟩
    exact funext fun x => (step.mail x).trans (List.append_nil _)

/-- A call of the main task: the key that was still to be sent now waits. -/
theorem Flow.main_called {call : Call} {rest : List Call} {u : Unit} (h : Flow c s read)
    (next : c.main.calls = call :: rest) (comes : Comes call.perform c.machine t u m') :
    ∃ s', Flow { c with machine := m', main := ⟨c.main.state, rest⟩ } s' read ∧
      Moved c.machine s t s' m' := by
  obtain ⟨s', acts, moved, steps, carried⟩ := Call.delivers h.free comes
  have haimed := h.aimed
  rw [next, keysFor_cons, List.append_eq_nil_iff] at haimed
  have hmain : keysIn (s'.mail Config.mainTask) = [] := by
    rw [carried.mail steps, keysIn_append, h.unkeyed, keysIn_accepted_eq_nil haimed.1]
    rfl
  have hterminal : keysIn (s'.mail c.terminalId) ++ keysFor c.terminalId rest =
      keysIn (s.mail c.terminalId) ++ keysFor c.terminalId c.main.calls := by
    rw [carried.mail steps, lettersTo_accepted_of_known _ h.known, next, keysFor_cons,
      keysIn_append, List.append_assoc]
  refine ⟨s', { h with
    free := moved.left
    sound := steps.sound h.sound
    known := steps.known_kept h.known
    unkeyed := hmain
    aimed := haimed.2
    keys := ?_ }, moved⟩
  show _ ++ (keysIn (s'.mail c.terminalId) ++ keysFor c.terminalId rest) = _
  rw [hterminal]
  exact h.keys

/-- The main task has read the keyboard: what the decoder has made of the byte is now to be
    sent. -/
theorem Flow.main_read {byte : Option UInt8} (h : Flow c s read) (done : c.main.calls = [])
    (free : m'.scheduler = some ⟨s, false⟩) :
    Flow { c with machine := m', main := c.main.state.found byte } s (read ++ byte.toList) := by
  have hkeys : keysIn c.terminal.state.taken ++ keysIn (s.mail c.terminalId) =
      (Keyboard.fresh.decodeAll read).1 := by
    have hall := h.keys
    rw [done] at hall
    rw [← hall]
    exact congrArg _ (List.append_nil _).symm
  cases byte with
  | none =>
    rw [Option.toList_none, List.append_nil]
    refine { h with free := free, aimed := rfl, keys := ?_ }
    rw [← hkeys]
    exact congrArg _ (List.append_nil _)
  | some byte =>
    rw [Option.toList_some]
    refine { h with free := free, aimed := ?_, decoder := ?_, keys := ?_ }
    · show keysFor Config.mainTask (keyCalls c.main.state.task.terminal _) = []
      rw [keysFor_keyCalls, h.addressed, if_neg h.apart.symm]
    · show (c.main.state.task.keyboard.decode byte).2 = _
      rw [Keyboard.decodeAll_concat, h.decoder]
    · show _ ++ (_ ++ keysFor c.terminalId (keyCalls c.main.state.task.terminal
        (c.main.state.task.keyboard.decode byte).1)) = _
      rw [keysFor_keyCalls, if_pos h.addressed.symm, Keyboard.decodeAll_concat, ← hkeys,
        h.decoder, List.append_assoc]

/-- What the main task hears is no key, so it has none to send on. -/
theorem keysFor_heard (p : MainState) {message : Option Message}
    (keyless : keysIn message.toList = []) (id : TaskId) :
    keysFor id (p.heard message).calls = [] := by
  cases message with
  | none => rfl
  | some m =>
    have hkey : m.key? = none := keysIn_eq_nil_iff.mp keyless m List.mem_cons_self
    exact keysFor_calls_of_main p.task hkey id

/-- The main task has waited. -/
theorem Flow.main_waited {message : Option Message} (h : Flow c s read)
    (current : Boot.current c.machine = some Config.mainTask) (done : c.main.calls = [])
    (comes : Comes waitStep c.machine t message m') :
    ∃ s', Flow { c with machine := m', main := c.main.state.heard message } s' read ∧
      Moved c.machine s t s' m' := by
  obtain ⟨s', acts, moved, steps, mail⟩ := mail_of_wait h.free h.sound current comes
  have hkeyless : keysIn message.toList = [] := by
    have hmain := h.unkeyed
    rw [← mail, if_pos rfl, keysIn_append] at hmain
    exact (List.append_eq_nil_iff.mp hmain).1
  have hquiet : ∀ id, keysIn (s'.mail id) = keysIn (s.mail id) := by
    intro id
    rw [← mail id, keysIn_append]
    split
    · rw [hkeyless, List.nil_append]
    · rfl
  have hflow := h.quiet moved steps hquiet
  have hcalls := keysFor_heard c.main.state hkeyless
  have htask := c.main.state.task_heard message
  have hkeys := hflow.keys
  refine ⟨s', { hflow with
    addressed := (congrArg MainTask.terminal htask).trans h.addressed
    aimed := hcalls _
    decoder := (congrArg MainTask.keyboard htask).trans h.decoder
    keys := ?_ }, moved⟩
  rw [← hkeys]
  show _ ++ (_ ++ keysFor c.terminalId (c.main.state.heard message).calls) =
    _ ++ (_ ++ keysFor c.terminalId c.main.calls)
  rw [hcalls, done]
  rfl

/-- A call of the terminal. -/
theorem Flow.terminal_called {call : Call} {rest : List Call} {u : Unit} (h : Flow c s read)
    (next : c.terminal.calls = call :: rest) (comes : Comes call.perform c.machine t u m') :
    ∃ s', Flow { c with machine := m', terminal := ⟨c.terminal.state, rest⟩ } s' read ∧
      Moved c.machine s t s' m' := by
  obtain ⟨s', acts, moved, steps, carried⟩ := Call.delivers h.free comes
  have hunsent : ∀ id, keysIn (lettersTo id call.letters) = [] ∧ keysFor id rest = [] := by
    intro id
    have hnone := h.unsent id
    rw [next, keysFor_cons] at hnone
    exact List.append_eq_nil_iff.mp hnone
  have hflow := h.quiet moved steps (quiet_of_carried carried steps fun id => (hunsent id).1)
  exact ⟨s', { hflow with unsent := fun id => (hunsent id).2 }, moved⟩

/-- The terminal has waited: a key that it has taken was the first of those that wait. -/
theorem Flow.terminal_waited {message : Option Message} (h : Flow c s read)
    (current : Boot.current c.machine = some c.terminalId)
    (comes : Comes waitStep c.machine t message m') :
    ∃ s', Flow { c with machine := m', terminal := c.terminal.state.heard message } s' read ∧
      Moved c.machine s t s' m' := by
  obtain ⟨s', acts, moved, steps, mail⟩ := mail_of_wait h.free h.sound current comes
  have hmain : s'.mail Config.mainTask = s.mail Config.mainTask := by
    rw [← mail, if_neg h.apart.symm, List.nil_append]
  have htaken : keysIn (c.terminal.state.heard message).state.taken ++
      keysIn (s'.mail c.terminalId) =
      keysIn c.terminal.state.taken ++ keysIn (s.mail c.terminalId) := by
    rw [← mail c.terminalId, if_pos rfl, keysIn_append]
    cases message with
    | none => rfl
    | some m =>
      show keysIn (c.terminal.state.taken ++ [m]) ++ _ = _
      rw [keysIn_append, List.append_assoc]
      rfl
  refine ⟨s', { h with
    free := moved.left
    sound := steps.sound h.sound
    known := steps.known_kept h.known
    unkeyed := by rw [hmain]; exact h.unkeyed
    unsent := ?_
    keys := ?_ }, moved⟩
  · intro id
    cases message with
    | none => rfl
    | some m => exact keysFor_calls_of_terminal _ m id
  · rw [← h.keys, ← List.append_assoc, ← List.append_assoc, ← htaken]

/-- **Whatever makes the console go on keeps the keys on their way**, and the bytes as well: those
    that are read are the first of those that wait. -/
theorem Flow.next {cause : Cause} (h : Flow c s read) (advanced : c.Advanced cause t c') :
    ∃ s', Flow c' s' (read ++ bytesRead t) ∧
      c.machine.keyboard.buffer ++ cause.arrived = bytesRead t ++ c'.machine.keyboard.buffer := by
  -- but for two causes no byte comes and none is read
  have hmoved : cause.arrived = [] → (∃ s', Flow c' s' read ∧
      Moved c.machine s t s' c'.machine) →
      ∃ s', Flow c' s' (read ++ bytesRead t) ∧ c.machine.keyboard.buffer ++ cause.arrived =
        bytesRead t ++ c'.machine.keyboard.buffer := by
    rintro hnone ⟨s', flow, moved⟩
    rw [moved.unread, hnone, moved.keyboard, List.append_nil, List.append_nil]
    exact ⟨s', flow, rfl⟩
  cases advanced with
  | arrived =>
    rw [show bytesRead [] = [] from rfl, List.append_nil]
    exact ⟨s, { h with }, rfl⟩
  | interrupted comes =>
    obtain ⟨s', acts, moved, steps, quiet⟩ := quiet_of_take h.free comes
    exact hmoved rfl ⟨s', h.quiet moved steps quiet, moved⟩
  | passed task =>
    refine hmoved ?_ ⟨s, h, h.free, h.free, rfl, rfl⟩
    rcases task with rfl | rfl
    · rfl
    · rfl
  | mainCalled current next comes => exact hmoved rfl (h.main_called next comes)
  | mainRead current done reading comes =>
    obtain ⟨hscheduler, -, hread, hbuffer, -⟩ := comes.of_readScancode
    rw [hread, hbuffer]
    exact ⟨s, h.main_read done (hscheduler.trans h.free), List.append_nil _⟩
  | mainWaited current done resting comes =>
    exact hmoved rfl (h.main_waited current done comes)
  | terminalCalled current next comes => exact hmoved rfl (h.terminal_called next comes)
  | terminalWaited current done comes => exact hmoved rfl (h.terminal_waited current comes)

end Flow

/-! ## The way of the characters -/

/-- What goes out on the serial line when a call prints a character. -/
def Kernel.Call.echoed (call : Call) (t : List Observation) : List UInt8 :=
  match call with
  | .echo _ => bytesSent t
  | _ => []

/-- The bytes of the characters that the terminal prints when the console goes on. -/
def Console.echoed (c : Console) (cause : Cause) (t : List Observation) : List UInt8 :=
  match cause, c.terminal.calls with
  | .terminal, call :: _ => call.echoed t
  | _, _ => []

section Echo

variable {state : TerminalState} {sent : List UInt8} {t : List Observation}

/-- **No character is lost on the way**, when these bytes have gone out: the characters that have
    been printed and those still to be printed are those of the keys that have been taken. -/
def Echo (loop : Loop TerminalState) (sent : List UInt8) : Prop :=
  ∃ printed, sent = Uart.encode printed ∧
    printed ++ echoes loop.calls = typed (keysIn loop.state.taken)

/-- A call of the terminal. -/
theorem Echo.called {call : Call} {rest : List Call} {m m' : Machine} {u : Unit}
    (h : Echo ⟨state, call :: rest⟩ sent)
    (plain : ∀ e ∈ keysIn state.taken, e.ascii < 0x80)
    (comes : Comes call.perform m t u m') : Echo ⟨state, rest⟩ (sent ++ call.echoed t) := by
  obtain ⟨printed, rfl, htyped⟩ := h
  cases call with
  | echo b =>
    have htyped : printed ++ b :: echoes rest = typed (keysIn state.taken) := htyped
    have hb : b < 0x80 := by
      have hin : b ∈ typed (keysIn state.taken) := by
        rw [← htyped]
        exact List.mem_append_right _ List.mem_cons_self
      obtain ⟨e, he, rfl⟩ := List.mem_map.mp hin
      exact plain e (List.mem_filter.mp he).1
    have hsent : bytesSent t = Uart.encode [b] := by
      rw [comes.of_print.2, List.flatMap_singleton, utf8_characterText hb]
    refine ⟨printed ++ [b], ?_, ?_⟩
    · rw [Uart.encode_append, ← hsent]
      rfl
    · rw [List.append_assoc]
      exact htyped
  | rearm | send | note => exact ⟨printed, List.append_nil _, htyped⟩

/-- The terminal has waited: what it has to print is the character of the key it has taken. -/
theorem Echo.heard (h : Echo ⟨state, []⟩ sent) (message : Option Message) :
    Echo (state.heard message) sent := by
  cases message with
  | none => exact h
  | some m =>
    obtain ⟨printed, rfl, htyped⟩ := h
    refine ⟨printed, rfl, ?_⟩
    show printed ++ echoes (state.task.calls m) = typed (keysIn (state.taken ++ [m]))
    rw [keysIn_append, typed_append, ← htyped, echoes_calls]
    exact congrArg (· ++ _) (List.append_nil _).symm

/-- **Whatever makes the console go on keeps the characters on their way.** -/
theorem Echo.next {c c' : Console} {cause : Cause} (h : Echo c.terminal sent)
    (plain : ∀ e ∈ keysIn c.terminal.state.taken, e.ascii < 0x80)
    (advanced : c.Advanced cause t c') : Echo c'.terminal (sent ++ c.echoed cause t) := by
  cases advanced with
  | arrived | interrupted | mainCalled | mainRead | mainWaited =>
    rw [show c.echoed _ _ = [] from rfl, List.append_nil]
    exact h
  | passed task =>
    have hnone : c.echoed cause [] = [] := by
      unfold Console.echoed
      split
      · rename_i call _ _
        cases call with
        | _ => rfl
      · rfl
    rw [hnone, List.append_nil]
    exact h
  | terminalCalled current next comes =>
    obtain ⟨machine, main, id, ⟨state, calls⟩⟩ := c
    obtain rfl : calls = _ := next
    exact Echo.called h plain comes
  | terminalWaited current done comes =>
    obtain ⟨machine, main, id, ⟨state, calls⟩⟩ := c
    obtain rfl : calls = _ := done
    rw [show Console.echoed _ _ _ = [] from rfl, List.append_nil]
    exact Echo.heard h _

end Echo

/-! ## Plays -/

namespace Beat

/-- The bytes that come from the keyboard. -/
def arrived (b : Beat) : List UInt8 :=
  b.cause.arrived

theorem flatMap_arrived (beats : List Beat) :
    beats.flatMap arrived = (beats.map Beat.cause).flatMap Cause.arrived := by
  rw [List.flatMap_map]
  rfl

/-- The bytes that are read from the keyboard's port. -/
def read (b : Beat) : List UInt8 :=
  bytesRead b.trace

/-- The bytes of the characters that the terminal prints. -/
def echoed (b : Beat) : List UInt8 :=
  b.before.echoed b.cause b.trace

end Beat

/-- A key that the terminal has taken has come from the decoder. -/
theorem Flow.plain {c : Console} {s : Scheduler} {read : List UInt8} (h : Flow c s read) :
    ∀ e ∈ keysIn c.terminal.state.taken, e.ascii < 0x80 := by
  intro e he
  have hin : e ∈ (Keyboard.fresh.decodeAll read).1 := by
    rw [← h.keys]
    exact List.mem_append_left _ he
  exact Keyboard.ascii_lt_of_decodeAll hin

/-- **In a play** every byte, every key and every character stays on its way. -/
theorem Play.flow {start c : Console} {s : Scheduler} {beats : List Beat}
    (play : Play start beats c) (flow : Flow start s []) (echo : Echo start.terminal []) :
    (∃ s', Flow c s' (beats.flatMap Beat.read)) ∧
    Echo c.terminal (beats.flatMap Beat.echoed) ∧
    start.machine.keyboard.buffer ++ beats.flatMap Beat.arrived =
      beats.flatMap Beat.read ++ c.machine.keyboard.buffer := by
  induction play with
  | nil => exact ⟨⟨s, flow⟩, echo, List.append_nil _⟩
  | @snoc beats b earlier ih =>
    obtain ⟨⟨s₁, hflow⟩, hecho, hbytes⟩ := ih
    obtain ⟨s₂, hnext, hbuffer⟩ := hflow.next (Console.advanced b.done)
    have hecho' := hecho.next hflow.plain (Console.advanced b.done)
    rw [List.flatMap_append, List.flatMap_append, List.flatMap_append, List.flatMap_singleton,
      List.flatMap_singleton, List.flatMap_singleton]
    refine ⟨⟨s₂, hnext⟩, hecho', ?_⟩
    calc start.machine.keyboard.buffer ++ (beats.flatMap Beat.arrived ++ b.arrived)
      _ = beats.flatMap Beat.read ++ (b.before.machine.keyboard.buffer ++ b.arrived) := by
        rw [← List.append_assoc, hbytes, List.append_assoc]
      _ = beats.flatMap Beat.read ++ b.read ++ b.after.machine.keyboard.buffer := by
        rw [List.append_assoc]
        exact congrArg _ hbuffer

namespace Console

/-- **Both loops are about to begin**, whatever has been asked of the scheduler before. -/
structure Ready (c : Console) (s : Scheduler) : Prop where
  /-- Requests have led to the scheduler. -/
  reached : ∃ log, History log s
  /-- Nobody holds its lock. -/
  free : c.machine.scheduler = some ⟨s, false⟩
  /-- The terminal's task exists. -/
  known : (s.tasks.get? c.terminalId).isSome
  /-- It is not the main task. -/
  apart : c.terminalId ≠ Config.mainTask
  /-- No key waits for either task. -/
  keyless : keysIn (s.mail Config.mainTask) = [] ∧ keysIn (s.mail c.terminalId) = []
  /-- The main task waits for its first message. -/
  main : c.main = ⟨⟨⟨c.terminalId, .fresh⟩, false⟩, []⟩
  /-- The terminal waits for its first message. -/
  terminal : ∃ task, c.terminal = ⟨⟨task, []⟩, []⟩

theorem Ready.flow {c : Console} {s : Scheduler} (h : c.Ready s) : Flow c s [] := by
  obtain ⟨log, history⟩ := h.reached
  obtain ⟨task, hterminal⟩ := h.terminal
  have hnone : ∀ id, keysFor id [] = [] := fun _ => rfl
  refine ⟨h.free, history.sound, h.known, h.apart, ?_, h.keyless.1, ?_, ?_, ?_, ?_⟩
  · rw [h.main]
  · rw [h.main]
    exact hnone _
  · rw [hterminal]
    exact hnone
  · rw [h.main]
    rfl
  · rw [hterminal, h.keyless.2, h.main]
    rfl

theorem Ready.echo {c : Console} {s : Scheduler} (h : c.Ready s) : Echo c.terminal [] := by
  obtain ⟨task, hterminal⟩ := h.terminal
  rw [hterminal]
  exact ⟨[], rfl, rfl⟩

variable {c c' : Console} {s : Scheduler} {beats : List Beat}

/-- When nothing is on its way any more, the serial line shows the characters of all bytes that
    have ever come. -/
theorem Ready.all_echoed (ready : c.Ready s) (play : Play c beats c')
    (unread : c'.machine.keyboard.buffer = []) (unsent : c'.main.calls = [])
    (untaken : ∀ s', c'.machine.scheduler = some ⟨s', false⟩ →
      keysIn (s'.mail c.terminalId) = [])
    (unprinted : c'.terminal.calls = []) :
    beats.flatMap Beat.echoed = Uart.encode (typed (Keyboard.fresh.decodeAll
      (c.machine.keyboard.buffer ++ beats.flatMap Beat.arrived)).1) := by
  obtain ⟨⟨s', flow⟩, ⟨printed, hsent, htyped⟩, hbytes⟩ := play.flow ready.flow ready.echo
  have hkeys := flow.keys
  have hinbox := untaken s' flow.free
  rw [← play.terminalId_eq] at hinbox
  rw [hinbox, unsent] at hkeys
  have hkeys : keysIn c'.terminal.state.taken =
      (Keyboard.fresh.decodeAll (beats.flatMap Beat.read)).1 :=
    (List.append_nil _).symm.trans hkeys
  rw [unprinted] at htyped
  have htyped : printed = typed (keysIn c'.terminal.state.taken) :=
    (List.append_nil _).symm.trans htyped
  rw [hbytes, unread, List.append_nil, ← hkeys, ← htyped]
  exact hsent

/-- **Keystrokes arrive, complete and in order.**  Let the keyboard send whatever bytes and
    whenever, let interrupts come at any time, and let the main task and the terminal make their
    calls whenever they are current.  Each byte is read once and in order.  Unless the main task
    has calls to make, the keys that the terminal has taken, followed by those in its inbox, are
    what a fresh decoder makes of all bytes read so far.  Unless the terminal has calls to make,
    it has sent to the serial line the characters of the keys that it has taken, and no others.
    And iterations of either program, as the kernel runs them, are parts of such plays. -/
theorem keystrokes_arrive (ready : c.Ready s) (play : Play c beats c') :
    c.machine.keyboard.buffer ++ beats.flatMap Beat.arrived =
      beats.flatMap Beat.read ++ c'.machine.keyboard.buffer ∧
    (∃ s', c'.machine.scheduler = some ⟨s', false⟩ ∧
      (c'.main.calls = [] →
        keysIn c'.terminal.state.taken ++ keysIn (s'.mail c.terminalId) =
          (Keyboard.fresh.decodeAll (beats.flatMap Beat.read)).1)) ∧
    (c'.terminal.calls = [] →
      beats.flatMap Beat.echoed = Uart.encode (typed (keysIn c'.terminal.state.taken))) ∧
    (∀ task task' m' t, c'.main = ⟨⟨task, false⟩, []⟩ →
      Boot.current c'.machine = some Config.mainTask →
      iterate MainTask.act task c'.machine = ⟨t, .ok (task', m')⟩ →
      ∃ more, Play c (beats ++ more)
          { c' with machine := m', main := ⟨⟨task', false⟩, []⟩ } ∧
        more.flatMap Beat.trace = t) ∧
    (∀ task task' taken m' t, c'.terminal = ⟨⟨task, taken⟩, []⟩ →
      Boot.current c'.machine = some c.terminalId →
      iterate TerminalTask.act task c'.machine = ⟨t, .ok (task', m')⟩ →
      ∃ more taken', Play c (beats ++ more)
          { c' with machine := m', terminal := ⟨⟨task', taken'⟩, []⟩ } ∧
        more.flatMap Beat.trace = t) := by
  obtain ⟨⟨s', flow⟩, ⟨printed, hsent, htyped⟩, hbytes⟩ := play.flow ready.flow ready.echo
  have hid := play.terminalId_eq
  have hholds : ∀ id, Boot.current c'.machine = some id → Holds id c'.machine :=
    fun id current => ⟨s', flow.free, flow.sound, currentId_of_current flow.free current⟩
  refine ⟨hbytes, ⟨s', flow.free, fun unsent => ?_⟩, fun unprinted => ?_, ?_, ?_⟩
  · have hkeys := flow.keys
    rw [unsent, hid] at hkeys
    rw [← hkeys]
    exact congrArg _ (List.append_nil _).symm
  · rw [unprinted] at htyped
    rw [hsent, ← htyped]
    exact congrArg _ (List.append_nil _).symm
  · intro task task' m' t between current comes
    exact play.main_iteration between (hholds _ current) comes
  · intro task task' taken m' t between current comes
    rw [← hid] at current
    exact play.terminal_iteration between (hholds _ current) comes

/-- The mark of the extended set comes with one notification and the byte it belongs to with the
    next, together with the byte of a letter.  The first key has no character and the letter is
    printed. -/
theorem keystrokes_arrive_of_split_prefix : ∃ c s beats c', c.Ready s ∧ Play c beats c' ∧
    c'.main.calls = [] ∧ c'.terminal.calls = [] ∧
    beats.flatMap Beat.arrived = [0xE0, 0x1C, 0x1E] ∧
    beats.flatMap Beat.read = [0xE0, 0x1C, 0x1E] ∧
    keysIn c'.terminal.state.taken = [⟨0, 0x9C, 0, true⟩, ⟨0, 0x1E, 0x61, true⟩] ∧
    beats.flatMap Beat.echoed = [0x61] := by
  have created : (create .standard .heap).outcome = .ok (.ok _) := rfl
  have history := (History.created created).performAll
    (show (Dispatcher.performAll ⟨_, .create .standard⟩ [.spawn .idle 0 3 .heap]).outcome =
      .ok (_, _) from rfl)
  have ready : Ready ⟨{ Machine.initial .absent with
      scheduler := some ⟨_, false⟩, clock := some ⟨.create .standard, false⟩ },
      ⟨⟨⟨⟨3⟩, .fresh⟩, false⟩, []⟩, ⟨3⟩, ⟨⟨⟨⟨3⟩, false⟩, []⟩, []⟩⟩ _ :=
    ⟨⟨_, history⟩, rfl, rfl, by decide, ⟨rfl, rfl⟩, rfl, ⟨_, rfl⟩⟩
  obtain ⟨c, s, ready, hempty, hends⟩ : ∃ c s, Ready c s ∧ c.machine.keyboard.buffer = [] ∧
      (c.advanceAll [.arrival [0xE0], .interrupt .keyboard, .main, .main, .main,
        .arrival [0x1C, 0x1E], .interrupt .keyboard, .main, .main, .main, .main, .main, .main,
        .main, .terminal, .terminal, .terminal, .terminal, .terminal]).Ends Stop.Never
        fun c => c.machine.keyboard.buffer = [] ∧ c.main.calls = [] ∧ c.terminal.calls = [] ∧
          keysIn c.terminal.state.taken = [⟨0, 0x9C, 0, true⟩, ⟨0, 0x1E, 0x61, true⟩] :=
    ⟨_, _, ready, rfl, by decide +kernel⟩
  obtain ⟨beats, c', play, ⟨hbuffer, hmain, hterminal, htaken⟩, hcauses⟩ :=
    Play.nil.advanceAll _ _ hends
  rw [List.nil_append] at play
  have harrived : beats.flatMap Beat.arrived = [0xE0, 0x1C, 0x1E] := by
    rw [Beat.flatMap_arrived, hcauses]
    rfl
  obtain ⟨hbytes, -, hechoed, -⟩ := keystrokes_arrive ready play
  rw [hempty, hbuffer, List.nil_append, List.append_nil, harrived] at hbytes
  refine ⟨c, s, beats, c', ready, play, hmain, hterminal, harrived, hbytes.symm, htaken, ?_⟩
  rw [hechoed hterminal, htaken]
  rfl

end Console

end PreemptiveKernel
