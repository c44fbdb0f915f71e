/-
  Every character is drawn once, and the terminal learns of it.

  For each character that it prints the terminal sends the main task a request to draw it, and the
  main task answers with an acknowledgement that names the layer.  A request and its answer are
  at one place at any moment, and the places stand in a row:

  - the terminal has printed the character, and the request is a call that it has still to make;
  - the request waits in the inbox of the main task;
  - the main task has taken it, and the answer is a call that it has still to make;
  - the answer waits in the inbox of the terminal;
  - the terminal has taken it.

  Whoever goes on moves something from the end of one place to the beginning of the next, or does
  not touch them at all.  So the places, from the last to the first, always hold the layers of the
  characters in the order in which these were printed (`Drawn`), and nothing is doubled or lost
  between two programs that can be interrupted anywhere.  Others may write to both tasks what they
  like, but for the two kinds of messages that the agreement is made of (`Deed.KeepsOut`).
-/
import PreemptiveKernel.Proofs.Company
import PreemptiveKernel.Proofs.Typing

namespace PreemptiveKernel

open Run Scheduler Kernel

/-! ## Requests and answers -/

/-- The layer that the task `T` wants something done to by a message. -/
def Message.wanted? (T : TaskId) : Message → Option UInt32
  | .layer r => if r.source = T then some r.layer else none
  | _ => none

/-- The layer that is done by a message. -/
def Message.finished? : Message → Option UInt32
  | .layerFinish finished => some finished
  | _ => none

/-- The layers of the requests of the task `T`, in order. -/
def wantedIn (T : TaskId) (ms : List Message) : List UInt32 :=
  ms.filterMap (Message.wanted? T)

/-- The layers of the acknowledgements, in order. -/
def finishedIn (ms : List Message) : List UInt32 :=
  ms.filterMap Message.finished?

/-- The layers of the requests that the task `T` sends the main task by these calls. -/
def wantedBy (T : TaskId) (calls : List Call) : List UInt32 :=
  wantedIn T (lettersTo Config.mainTask (calls.flatMap Call.letters))

/-- The layers of the acknowledgements that are sent to the task `T` by these calls. -/
def finishedFor (T : TaskId) (calls : List Call) : List UInt32 :=
  finishedIn (lettersTo T (calls.flatMap Call.letters))

theorem wantedIn_append (T : TaskId) (xs ys : List Message) :
    wantedIn T (xs ++ ys) = wantedIn T xs ++ wantedIn T ys :=
  List.filterMap_append

theorem finishedIn_append (xs ys : List Message) :
    finishedIn (xs ++ ys) = finishedIn xs ++ finishedIn ys :=
  List.filterMap_append

theorem wantedBy_append (T : TaskId) (xs ys : List Call) :
    wantedBy T (xs ++ ys) = wantedBy T xs ++ wantedBy T ys := by
  unfold wantedBy
  rw [List.flatMap_append, lettersTo_append, wantedIn_append]

theorem wantedBy_singleton (T : TaskId) (call : Call) :
    wantedBy T [call] = wantedIn T (lettersTo Config.mainTask call.letters) := by
  rw [wantedBy, List.flatMap_singleton]

theorem finishedFor_cons (T : TaskId) (call : Call) (rest : List Call) :
    finishedFor T (call :: rest) =
      finishedIn (lettersTo T call.letters) ++ finishedFor T rest := by
  unfold finishedFor
  rw [List.flatMap_cons, lettersTo_append, finishedIn_append]

theorem echoes_append (xs ys : List Call) : echoes (xs ++ ys) = echoes xs ++ echoes ys :=
  List.filterMap_append

/-- Letters in which the task `T` wants nothing. -/
theorem wantedIn_lettersTo_eq_nil {T id : TaskId} {letters : List Letter}
    (h : ∀ x ∈ letters, x.receiver = id → x.message.wanted? T = none) :
    wantedIn T (lettersTo id letters) = [] :=
  List.filterMap_eq_nil_iff.mpr fun _ hm => h _ (mem_lettersTo.mp hm) rfl

/-- Letters in which nothing is acknowledged. -/
theorem finishedIn_lettersTo_eq_nil {id : TaskId} {letters : List Letter}
    (h : ∀ x ∈ letters, x.receiver = id → x.message.finished? = none) :
    finishedIn (lettersTo id letters) = [] :=
  List.filterMap_eq_nil_iff.mpr fun _ hm => h _ (mem_lettersTo.mp hm) rfl

/-! ## The two programs -/

theorem finishedFor_send (T id : TaskId) (m : Message) :
    finishedFor T [.send id m] = if T = id then finishedIn [m] else [] := by
  show finishedIn (lettersTo T ([m].map (Letter.mk id))) = _
  rw [lettersTo_map_mk]
  split
  · rfl
  · rfl

/-- **The main task answers each request once**, and nobody else. -/
theorem finishedFor_calls (T : TaskId) (task : MainTask) (m : Message) :
    finishedFor T (task.calls m) = wantedIn T [m] := by
  cases m with
  | timerTimeout timeout value =>
    have sends : finishedFor T (task.calls (.timerTimeout timeout value)) =
        finishedFor T [.send task.terminal (.timerTimeout timeout value)] := by
      unfold MainTask.calls
      dsimp only
      split
      · rfl
      · rfl
    rw [sends, finishedFor_send]
    exact ite_self _
  | deviceInterrupt device =>
    cases device with
    | keyboard => rfl
    | xhci => rfl
  | keyPush e => exact (finishedFor_send T _ _).trans (ite_self _)
  | layer r =>
    show finishedFor T [.send r.source (.layerFinish r.layer)] = _
    rw [finishedFor_send]
    by_cases mine : r.source = T
    · rw [if_pos mine.symm]
      simp [wantedIn, finishedIn, Message.wanted?, Message.finished?, mine]
    · rw [if_neg (Ne.symm mine)]
      simp [wantedIn, Message.wanted?, mine]
  | layerFinish layer => rfl

theorem finishedFor_keyCalls (T terminal : TaskId) (event : Option KeyEvent) :
    finishedFor T (keyCalls terminal event) = [] := by
  cases event with
  | none => rfl
  | some e => exact (finishedFor_send T terminal (.keyPush e)).trans (ite_self _)

/-- **The terminal asks once for each character** that it prints. -/
theorem wantedBy_calls (task : TerminalTask) (m : Message) :
    wantedBy task.id (task.calls m) = (echoes (task.calls m)).map fun _ => terminalLayer := by
  unfold TerminalTask.calls
  cases m with
  | keyPush e =>
    dsimp only
    split
    · show wantedIn task.id [.layer task.drawRequest] = [terminalLayer]
      simp [wantedIn, Message.wanted?, TerminalTask.drawRequest]
    · rfl
  | timerTimeout timeout value =>
    dsimp only
    split
    · rfl
    · rfl
  | layerFinish layer => rfl
  | deviceInterrupt device => rfl
  | layer r => rfl

/-- The main task asks for nothing itself. -/
theorem Kernel.Call.ByMain.wanted {T : TaskId} {call : Call} (h : call.ByMain T) (T' : TaskId) :
    wantedIn T' (lettersTo Config.mainTask call.letters) = [] := by
  refine wantedIn_lettersTo_eq_nil fun x hx _ => ?_
  have none := (h x hx).1
  unfold Message.wanted?
  split
  · rename_i r hr
    exact absurd hr (none r)
  · rfl

/-- The terminal acknowledges nothing. -/
theorem Kernel.Call.ByTerminal.finished {T : TaskId} {call : Call} (h : call.ByTerminal T)
    (id : TaskId) : finishedIn (lettersTo id call.letters) = [] := by
  refine finishedIn_lettersTo_eq_nil fun x hx _ => ?_
  obtain ⟨-, r, hr, -⟩ := h.2 x hx
  rw [hr]
  rfl

/-! ## The others -/

/-- What another task does sends neither the main task a request in the name of the terminal `T`
    nor the terminal an acknowledgement. -/
def Deed.KeepsOut (T : TaskId) : Deed → Prop
  | .other (.send id m) => (id = Config.mainTask → m.wanted? T = none) ∧
    (id = T → m.finished? = none)
  | _ => True

/-- The two programs and the interrupts are no others. -/
theorem Deed.keepsOut_of_own {T : TaskId} {deed : Deed} (h : ∀ op, deed ≠ .other op) :
    deed.KeepsOut T := by
  cases deed with
  | other op => exact absurd rfl (h op)
  | _ => trivial

/-- Neither a device nor the clock asks or answers. -/
theorem letters_keptOut {T : TaskId} {d : Dispatcher} {r : Request} {x : Letter}
    (hx : x ∈ d.letters r) (unsent : ∀ id m, r ≠ .send id m) :
    x.message.wanted? T = none ∧ x.message.finished? = none := by
  cases r with
  | send id m => exact absurd rfl (unsent id m)
  | deviceInterrupt =>
    obtain rfl := List.mem_singleton.mp hx
    exact ⟨rfl, rfl⟩
  | tick | timerInterrupt =>
    obtain ⟨timeout, -, rfl⟩ := List.mem_map.mp hx
    exact ⟨rfl, rfl⟩
  | _ => cases hx

/-- **The others keep out**: neither inbox of the two gets a request or an acknowledgement. -/
theorem other_keptOut {T : TaskId} {op : Operation} (d : Dispatcher)
    (fair : (Deed.other op).KeepsOut T) :
    wantedIn T (lettersTo Config.mainTask ((Deed.other op).letters d)) = [] ∧
    finishedIn (lettersTo T ((Deed.other op).letters d)) = [] := by
  have each : ∀ x ∈ (Deed.other op).letters d,
      (x.receiver = Config.mainTask → x.message.wanted? T = none) ∧
      (x.receiver = T → x.message.finished? = none) := by
    intro x hx
    cases asks : op.request .heap addressSpace d with
    | none =>
      rw [Deed.letters, Deed.request, asks] at hx
      cases hx
    | some r =>
      rw [Deed.letters, Deed.request, asks] at hx
      have hx : x ∈ d.letters r := hx
      by_cases sends : ∃ id m, r = .send id m
      · obtain ⟨id, m, rfl⟩ := sends
        obtain rfl := op.eq_send asks
        obtain rfl := List.mem_singleton.mp hx
        exact fair
      · have quiet := letters_keptOut (T := T) hx fun id m same => sends ⟨id, m, same⟩
        exact ⟨fun _ => quiet.1, fun _ => quiet.2⟩
  exact ⟨wantedIn_lettersTo_eq_nil fun x hx => (each x hx).1,
    finishedIn_lettersTo_eq_nil fun x hx => (each x hx).2⟩

/-- An interrupt brings neither. -/
theorem interrupt_keptOut (T : TaskId) (i : Interrupt) (d : Dispatcher) (id id' : TaskId) :
    wantedIn T (lettersTo id ((Deed.interrupt i).letters d)) = [] ∧
    finishedIn (lettersTo id' ((Deed.interrupt i).letters d)) = [] := by
  have each : ∀ x ∈ (Deed.interrupt i).letters d,
      x.message.wanted? T = none ∧ x.message.finished? = none := by
    intro x hx
    cases i with
    | timer => exact letters_keptOut (r := .timerInterrupt) hx nofun
    | keyboard => exact letters_keptOut (d := d) (r := .deviceInterrupt _ .keyboard) hx nofun
    | spurious => cases hx
  exact ⟨wantedIn_lettersTo_eq_nil fun x hx _ => (each x hx).1,
    finishedIn_lettersTo_eq_nil fun x hx _ => (each x hx).2⟩

/-! ## The places in their row -/

/-- The layers in the places of the row, from the last place to the first: the messages that the
    terminal `T` has taken, its inbox, the calls that the main task has to make, and the inbox of
    the main task. -/
def row (T : TaskId) (taken inbox : List Message) (calls : List Call) (requests : List Message) :
    List UInt32 :=
  finishedIn taken ++ (finishedIn inbox ++ (finishedFor T calls ++ wantedIn T requests))

/-- **Drawn**: when the terminal has made the calls `made`, each character that it has printed is in
    one place of the row, and the places are in order. -/
structure Drawn (made : List Call) (c : Console) (d : Dispatcher) : Prop where
  /-- The terminal is not the main task. -/
  apart : c.terminalId ≠ Config.mainTask
  /-- What the terminal has asked for and has still to ask for is what it prints. -/
  asked : wantedBy c.terminalId (made ++ c.terminal.calls) =
    (echoes (made ++ c.terminal.calls)).map fun _ => terminalLayer
  /-- What has been asked for is acknowledged, or is on its way. -/
  answered : row c.terminalId c.terminal.state.taken (d.scheduler.mail c.terminalId) c.main.calls
    (d.scheduler.mail Config.mainTask) = wantedBy c.terminalId made

namespace Drawn

variable {made : List Call} {c c' : Console} {d d' : Dispatcher} {deed : Deed} {m : Machine}
  {t : List Observation}

/-- Neither of the two has gone on, and nothing has been put into the row. -/
theorem aside (h : Drawn made c d) (idle : ∀ id, deed.taken c.terminalId id = [])
    (quiet : wantedIn c.terminalId (lettersTo Config.mainTask (deed.letters d)) = [] ∧
      finishedIn (lettersTo c.terminalId (deed.letters d)) = [])
    (went : Went c.terminalId d deed d') : Drawn made { c with machine := m } d' := by
  have toMain := went.mail _ (.inl rfl)
  have toTerminal := went.mail _ (.inr rfl)
  rw [idle, List.nil_append] at toMain toTerminal
  refine { h with answered := Eq.trans ?_ h.answered }
  unfold row
  rw [toMain, toTerminal, finishedIn_append, wantedIn_append, quiet.1, quiet.2, List.append_nil,
    List.append_nil]

/-- A call of the main task: the answer that was still to be given now waits. -/
theorem main_called {call : Call} {rest : List Call} (h : Drawn made c d)
    (mine : call.ByMain c.terminalId) (next : c.main.calls = call :: rest)
    (went : Went c.terminalId d (.mainCall call) d') :
    Drawn made { c with machine := m, main := ⟨c.main.state, rest⟩ } d' := by
  have sends : (Deed.mainCall call).letters d = call.letters := call.letters_request
  have toMain : wantedIn c.terminalId (d'.scheduler.mail Config.mainTask) =
      wantedIn c.terminalId (d.scheduler.mail Config.mainTask) := by
    have mail : d'.scheduler.mail Config.mainTask = _ := went.mail _ (.inl rfl)
    rw [mail, sends, wantedIn_append, mine.wanted, List.append_nil]
  have toTerminal : finishedIn (d'.scheduler.mail c.terminalId) ++
      finishedFor c.terminalId rest =
      finishedIn (d.scheduler.mail c.terminalId) ++ finishedFor c.terminalId c.main.calls := by
    have mail : d'.scheduler.mail c.terminalId = _ := went.mail _ (.inr rfl)
    rw [mail, sends, finishedIn_append, next, finishedFor_cons, List.append_assoc]
  refine { h with answered := Eq.trans ?_ h.answered }
  show row c.terminalId _ _ rest _ = _
  unfold row
  rw [toMain, ← List.append_assoc (finishedIn (d'.scheduler.mail _)), toTerminal,
    List.append_assoc (finishedIn (d.scheduler.mail _))]

/-- The main task has waited: the answer to the request that it has taken is now to be given. -/
theorem main_waited {message : Option Message} (h : Drawn made c d) (done : c.main.calls = [])
    (went : Went c.terminalId d (.mainWait message) d') :
    Drawn made { c with machine := m, main := c.main.state.heard message } d' := by
  have toMain : finishedFor c.terminalId (c.main.state.heard message).calls ++
      wantedIn c.terminalId (d'.scheduler.mail Config.mainTask) =
      finishedFor c.terminalId c.main.calls ++
        wantedIn c.terminalId (d.scheduler.mail Config.mainTask) := by
    have mail : (if Config.mainTask = Config.mainTask then message.toList else []) ++
        d'.scheduler.mail Config.mainTask = d.scheduler.mail Config.mainTask ++ [] :=
      went.mail _ (.inl rfl)
    rw [if_pos rfl, List.append_nil] at mail
    rw [← mail, wantedIn_append, done]
    cases message with
    | none => rfl
    | some m =>
      show finishedFor c.terminalId (c.main.state.task.calls m) ++ _ = _
      rw [finishedFor_calls]
      rfl
  have toTerminal : d'.scheduler.mail c.terminalId = d.scheduler.mail c.terminalId := by
    have mail : (if Config.mainTask = c.terminalId then message.toList else []) ++
        d'.scheduler.mail c.terminalId = d.scheduler.mail c.terminalId ++ [] :=
      went.mail _ (.inr rfl)
    rwa [if_neg h.apart.symm, List.nil_append, List.append_nil] at mail
  refine { h with answered := Eq.trans ?_ h.answered }
  show row c.terminalId _ _ (c.main.state.heard message).calls _ = _
  rw [row, toMain, toTerminal, row]

/-- The main task has read the keyboard: a key is no answer. -/
theorem main_read {byte : Option UInt8} (h : Drawn made c d) (done : c.main.calls = [])
    (went : Went c.terminalId d (.mainRead byte) d') :
    Drawn made { c with machine := m, main := c.main.state.found byte } d' := by
  have answers : finishedFor c.terminalId (c.main.state.found byte).calls =
      finishedFor c.terminalId c.main.calls := by
    rw [done]
    cases byte with
    | none => rfl
    | some byte => exact finishedFor_keyCalls _ _ _
  have unmoved : ∀ id, id = Config.mainTask ∨ id = c.terminalId →
      d'.scheduler.mail id = d.scheduler.mail id :=
    fun id party => (went.mail id party).trans (List.append_nil _)
  refine { h with answered := Eq.trans ?_ h.answered }
  show row c.terminalId _ _ (c.main.state.found byte).calls _ = _
  rw [row, answers, unmoved _ (.inl rfl), unmoved _ (.inr rfl), row]

/-- A call of the terminal: the request that was still to be made now waits. -/
theorem terminal_called {call : Call} {rest : List Call} (h : Drawn made c d)
    (own : call.ByTerminal c.terminalId) (next : c.terminal.calls = call :: rest)
    (went : Went c.terminalId d (.terminalCall call) d') :
    Drawn (made ++ [call]) { c with machine := m, terminal := ⟨c.terminal.state, rest⟩ } d' := by
  have sends : (Deed.terminalCall call).letters d = call.letters := call.letters_request
  have toMain : wantedIn c.terminalId (d'.scheduler.mail Config.mainTask) =
      wantedIn c.terminalId (d.scheduler.mail Config.mainTask) ++
        wantedBy c.terminalId [call] := by
    have mail : d'.scheduler.mail Config.mainTask = _ := went.mail _ (.inl rfl)
    rw [mail, sends, wantedIn_append, wantedBy_singleton]
  have toTerminal : finishedIn (d'.scheduler.mail c.terminalId) =
      finishedIn (d.scheduler.mail c.terminalId) := by
    have mail : d'.scheduler.mail c.terminalId = _ := went.mail _ (.inr rfl)
    rw [mail, sends, finishedIn_append, own.finished, List.append_nil]
  refine ⟨h.apart, ?_, ?_⟩
  · have asked := h.asked
    rw [next, List.append_cons] at asked
    exact asked
  · show row c.terminalId _ _ c.main.calls _ = _
    rw [wantedBy_append, ← h.answered, row, row, toMain, toTerminal]
    simp only [List.append_assoc]

/-- The terminal has waited: an answer that it has taken was the first of those that wait, and what
    it has to ask for is what it has to print. -/
theorem terminal_waited {message : Option Message} (h : Drawn made c d)
    (named : c.terminal.state.task.id = c.terminalId) (done : c.terminal.calls = [])
    (went : Went c.terminalId d (.terminalWait message) d') :
    Drawn made { c with machine := m, terminal := c.terminal.state.heard message } d' := by
  have toMain : d'.scheduler.mail Config.mainTask = d.scheduler.mail Config.mainTask := by
    have mail : (if c.terminalId = Config.mainTask then message.toList else []) ++
        d'.scheduler.mail Config.mainTask = d.scheduler.mail Config.mainTask ++ [] :=
      went.mail _ (.inl rfl)
    rwa [if_neg h.apart, List.nil_append, List.append_nil] at mail
  have toTerminal : finishedIn (c.terminal.state.heard message).state.taken ++
      finishedIn (d'.scheduler.mail c.terminalId) =
      finishedIn c.terminal.state.taken ++ finishedIn (d.scheduler.mail c.terminalId) := by
    have mail : (if c.terminalId = c.terminalId then message.toList else []) ++
        d'.scheduler.mail c.terminalId = d.scheduler.mail c.terminalId ++ [] :=
      went.mail _ (.inr rfl)
    rw [if_pos rfl, List.append_nil] at mail
    rw [← mail, finishedIn_append]
    cases message with
    | none => rfl
    | some m =>
      show finishedIn (c.terminal.state.taken ++ [m]) ++ _ = _
      rw [finishedIn_append, List.append_assoc]
      rfl
  refine ⟨h.apart, ?_, ?_⟩
  · show wantedBy c.terminalId (made ++ (c.terminal.state.heard message).calls) = _
    have asked := h.asked
    rw [done, List.append_nil] at asked
    rw [wantedBy_append, echoes_append, List.map_append, asked]
    refine congrArg _ ?_
    cases message with
    | none => rfl
    | some m =>
      rw [← named]
      exact wantedBy_calls _ m
  · refine Eq.trans ?_ h.answered
    show row c.terminalId (c.terminal.state.heard message).state.taken _ _ _ = _
    rw [row, ← List.append_assoc, toTerminal, toMain, List.append_assoc, row]

/-- **Whatever is done, the places stay in their row.** -/
theorem next (h : Drawn made c d) (together : c.Together d) (goes : c.Goes deed t c')
    (fair : deed.KeepsOut c.terminalId) (went : Went c.terminalId d deed d') :
    Drawn (made ++ deed.terminalCalls) c' d' := by
  have silent : deed.terminalCalls = [] → Drawn made c' d' →
      Drawn (made ++ deed.terminalCalls) c' d' := by
    intro none drawn
    rw [none, List.append_nil]
    exact drawn
  cases goes with
  | elsewhere => exact silent rfl (h.aside (fun _ => rfl) ⟨rfl, rfl⟩ went)
  | interrupted => exact silent rfl (h.aside (fun _ => rfl) (interrupt_keptOut _ _ d _ _) went)
  | shared => exact silent rfl (h.aside (fun _ => rfl) (other_keptOut d fair) went)
  | mainCalled current next =>
    have mine := together.main _ (next ▸ List.mem_cons_self)
    exact silent rfl (h.main_called mine next went)
  | mainRead current done => exact silent rfl (h.main_read done went)
  | mainWaited current done => exact silent rfl (h.main_waited done went)
  | terminalCalled current next =>
    have own := together.terminal _ (next ▸ List.mem_cons_self)
    exact h.terminal_called own next went
  | terminalWaited current done => exact silent rfl (h.terminal_waited together.named done went)

end Drawn

/-! ## Runs in company -/

namespace Stroke

/-- The bytes of the characters that the terminal prints in a stroke. -/
def printed (k : Stroke) : List UInt8 :=
  match k.deed with
  | .terminalCall call => call.echoed k.trace
  | _ => []

theorem printed_eq (k : Stroke) :
    k.printed = (echoes k.deed.terminalCalls).flatMap fun b =>
      Uart.encode (characterText b).toUTF8.toList := by
  obtain ⟨c, deed, t, c', goes⟩ := k
  cases goes with
  | @terminalCalled call rest t m current next comes =>
    cases call with
    | echo b =>
      show bytesSent t = [b].flatMap _
      rw [comes.of_print.2, List.flatMap_singleton, List.flatMap_singleton]
    | _ => rfl
  | _ => rfl

/-- What goes out on the serial line is the characters that the terminal prints. -/
theorem flatMap_printed (ks : List Stroke) :
    ks.flatMap printed = (echoes (terminalCalls ks)).flatMap fun b =>
      Uart.encode (characterText b).toUTF8.toList := by
  induction ks with
  | nil => rfl
  | cons k rest ih =>
    have first : terminalCalls (k :: rest) = k.deed.terminalCalls ++ terminalCalls rest :=
      List.flatMap_cons
    rw [List.flatMap_cons, ih, printed_eq, first, echoes_append, List.flatMap_append]

end Stroke

namespace Ensemble

variable {c c' : Console} {d : Dispatcher} {tick : Nat} {ks : List Stroke}

/-- **Every character is drawn once, and acknowledged once and in order.**  Let the main task and
    the terminal begin with no request and no acknowledgement on its way, and let them go on in
    company, with interrupts and other tasks at any moment between two of their calls.  The others
    may do what they like, but send no requests in the terminal's name and no acknowledgements to
    it.  Then at every moment

    1. the layers that the terminal has been told are done, those in the acknowledgements in its
       inbox, those that the main task has still to acknowledge and those in the requests in the
       inbox of the main task are, in this order, the layers of the requests that the terminal has
       made;
    2. the requests that it has made and has still to make are one for each character that it has
       printed and has still to print;
    3. so between two messages of either, the characters that have been printed are as many as the
       requests and the acknowledgements in the two inboxes and the acknowledgements taken;
    4. and these characters have gone out on the serial line.

    So begins what the kernel runs (`Console.begins_of_start`), and iterations of either program,
    as the kernel runs them, are parts of such runs. -/
theorem characters_drawn_once (begins : c.Begins d tick)
    (unasked : wantedIn c.terminalId (d.scheduler.mail Config.mainTask) = [])
    (unanswered : finishedIn (d.scheduler.mail c.terminalId) = []) (run : Ensemble c ks c')
    (others : ∀ k ∈ ks, k.deed.KeepsOut c.terminalId) :
    ∃ d', Shares c'.machine d' ∧
      finishedIn c'.terminal.state.taken ++ (finishedIn (d'.scheduler.mail c.terminalId) ++
          (finishedFor c.terminalId c'.main.calls ++
            wantedIn c.terminalId (d'.scheduler.mail Config.mainTask))) =
        wantedBy c.terminalId (Stroke.terminalCalls ks) ∧
      wantedBy c.terminalId (Stroke.terminalCalls ks ++ c'.terminal.calls) =
        (echoes (Stroke.terminalCalls ks ++ c'.terminal.calls)).map (fun _ => terminalLayer) ∧
      (c'.main.calls = [] → c'.terminal.calls = [] →
        (echoes (Stroke.terminalCalls ks)).length =
          (wantedIn c.terminalId (d'.scheduler.mail Config.mainTask)).length +
          (finishedIn (d'.scheduler.mail c.terminalId)).length +
          (finishedIn c'.terminal.state.taken).length) ∧
      ks.flatMap Stroke.printed = (echoes (Stroke.terminalCalls ks)).flatMap (fun b =>
        Uart.encode (characterText b).toUTF8.toList) ∧
      TakesIn c ks c' := by
  have first : Drawn [] c d := by
    refine ⟨begins.apart, ?_, ?_⟩
    · rw [begins.terminal]
      rfl
    · rw [begins.terminal, begins.main, row, unasked, unanswered]
      rfl
  obtain ⟨d', together, drawn⟩ := run.carries
    (P := fun ks c d => Drawn (Stroke.terminalCalls ks) c d) begins.together first
    fun earlier k d d' hk same here went drawn => by
      rw [Stroke.terminalCalls_concat]
      exact drawn.next here k.done (same ▸ others k hk) went
  have same := run.terminalId_eq
  have answered := drawn.answered
  have asked := drawn.asked
  rw [same] at answered asked
  refine ⟨d', together.shares, answered, asked, fun unsaid unmade => ?_,
    Stroke.flatMap_printed ks, run.takesIn together⟩
  rw [unsaid] at answered
  rw [unmade, List.append_nil] at asked
  have many := (congrArg List.length answered).trans (congrArg List.length asked)
  have none : finishedFor c.terminalId [] = [] := rfl
  rw [row, none, List.nil_append, List.length_append, List.length_append, List.length_map] at many
  omega

/-- Three keys go down, one of them before the others.  In the end its acknowledgement has been
    taken, that of the second waits for the terminal, and the request for the third waits for the
    main task. -/
theorem characters_drawn_once_of_three_keys : ∃ c d ks c' d', c.Begins d 0 ∧ Ensemble c ks c' ∧
    Shares c'.machine d' ∧ wantedIn c.terminalId (d'.scheduler.mail Config.mainTask) = [1] ∧
    finishedIn (d'.scheduler.mail c.terminalId) = [1] ∧
    finishedIn c'.terminal.state.taken = [1] ∧
    (echoes (Stroke.terminalCalls ks)).length = 3 := by
  have created : (create .standard .heap).outcome = .ok (.ok _) := rfl
  have history := (History.created created).performAll
    (show (Dispatcher.performAll ⟨_, .create .standard⟩ [.spawn .idle 0 3 .heap]).outcome =
      .ok (_, _) from rfl)
  have begins := Console.fresh_begins (T := ⟨3⟩) (d := ⟨_, .create .standard⟩) history rfl
    (by decide)
  obtain ⟨c, d, begins, unasked, unanswered, ends⟩ : ∃ c d, Console.Begins c d 0 ∧
      wantedIn c.terminalId (d.scheduler.mail Config.mainTask) = [] ∧
      finishedIn (d.scheduler.mail c.terminalId) = [] ∧
      (c.advanceAll [[.main, .arrival [0x1E], .interrupt .keyboard], .replicate 5 .main,
        .replicate 4 .terminal, .replicate 3 .main, [.arrival [0x30, 0x2E], .interrupt .keyboard],
        .replicate 7 .main, .replicate 9 .terminal, .replicate 3 .main].flatten).Ends Stop.Never
        fun c => c.main.calls = [] ∧ c.terminal.calls = [] ∧
          finishedIn c.terminal.state.taken = [1] ∧
          c.machine.scheduler.map (fun lock =>
            (wantedIn c.terminalId (lock.value.mail Config.mainTask),
              finishedIn (lock.value.mail c.terminalId))) = some ([1], [1]) :=
    ⟨_, _, begins, rfl, rfl, by decide +kernel⟩
  obtain ⟨beats, c', played, ⟨unsaid, unmade, taken, boxes⟩, -⟩ := Play.nil.advanceAll _ _ ends
  obtain ⟨ks, run, -, alone⟩ := Ensemble.nil.play played
  rw [List.nil_append] at run
  obtain ⟨d', shares, -, -, count, -⟩ := characters_drawn_once begins unasked unanswered run
    fun k hk => Deed.keepsOut_of_own (alone k hk)
  rw [shares.scheduler, run.terminalId_eq] at boxes
  obtain ⟨wanted, finished⟩ := Prod.mk.inj (Option.some.inj boxes)
  have many := count unsaid unmade
  rw [taken] at many
  exact ⟨c, d, ks, c', d', begins, run, shares, wanted, finished, taken,
    many.trans (by rw [wanted, finished]; rfl)⟩

end Ensemble

end PreemptiveKernel
