/-
  The cursor blinks at its beat.

  The main task sets the cursor timer when it begins, and sets it again for each timeout of it that
  it takes, half a second after the tick at which that timeout was due.  So the timer is a token:

  - it stands among the alarms of the clock;
  - or it has fired and waits in the inbox of the main task;
  - or the main task has taken it and has still to make the call that sets it again.

  The invariant (`Blinking`) is that there is one token in these three places, and that it is due
  at the next beat: as many half seconds after the beginning as timeouts have been taken, and one
  more.  A tick that ends early at the end of a quantum, a main task that comes late, and timers of
  other values move the token along or leave it where it is, and none of them changes what it is
  due at.  Only the main task, when it takes the token, makes the next one out of it.

  Others may do anything but set timers of this value or send the main task such timeouts
  (`Deed.LeavesCursor`).
-/
import PreemptiveKernel.Proofs.Company

namespace PreemptiveKernel

open Run Scheduler Kernel

/-! ## Beats of the cursor -/

/-- The tick at which a timeout of the cursor timer was due. -/
def Message.blink? : Message → Option Nat
  | .timerTimeout due value => if value = cursorTimer then some due else none
  | _ => none

/-- The tick at which an alarm of the cursor timer is due. -/
def Alarm.blink? (a : Alarm) : Option Nat :=
  match a.kind with
  | .timeout value => if value = cursorTimer then some a.due else none
  | _ => none

/-- The beats that messages tell of, in order. -/
def blinksIn (ms : List Message) : List Nat :=
  ms.filterMap Message.blink?

/-- The beats at which alarms are set. -/
def blinksSet (alarms : List Alarm) : List Nat :=
  alarms.filterMap Alarm.blink?

/-- The beats at which calls will set the cursor timer. -/
def blinksDue (calls : List Call) : List Nat :=
  calls.filterMap fun
    | .rearm timeout => some (timeout + blinkTicks)
    | _ => none

/-- The beats that calls tell the task `T` of. -/
def blinksFor (T : TaskId) (calls : List Call) : List Nat :=
  blinksIn (lettersTo T (calls.flatMap Call.letters))

theorem blinksIn_append (xs ys : List Message) :
    blinksIn (xs ++ ys) = blinksIn xs ++ blinksIn ys :=
  List.filterMap_append

theorem blinksFor_append (T : TaskId) (xs ys : List Call) :
    blinksFor T (xs ++ ys) = blinksFor T xs ++ blinksFor T ys := by
  unfold blinksFor
  rw [List.flatMap_append, lettersTo_append, blinksIn_append]

theorem blinksIn_lettersTo_eq_nil {id : TaskId} {letters : List Letter}
    (h : ∀ x ∈ letters, x.receiver = id → x.message.blink? = none) :
    blinksIn (lettersTo id letters) = [] :=
  List.filterMap_eq_nil_iff.mpr fun _ hm => h _ (mem_lettersTo.mp hm) rfl

/-! ## The clock -/

namespace Clock

/-- A timeout that has fired tells of the beat at which its alarm was set. -/
theorem blinksIn_fired (fired : List Timeout) :
    blinksIn (fired.map Timeout.message) = blinksSet (fired.map Timeout.alarm) := by
  unfold blinksIn blinksSet
  rw [List.filterMap_map, List.filterMap_map]
  rfl

/-- **A new alarm** adds its beat and nothing else. -/
theorem blinksSet_place (a : Alarm) (alarms : List Alarm) :
    (blinksSet (place a alarms)).Perm (a.blink?.toList ++ blinksSet alarms) :=
  filterMap_place Alarm.blink? a alarms

/-- The end of a quantum is no beat. -/
theorem blinksSet_marked (c : Clock) : (blinksSet c.marked.alarms).Perm (blinksSet c.alarms) :=
  blinksSet_place _ _

/-- **Service moves beats** from the alarms to the messages. -/
theorem blinksSet_serve (now : Nat) (alarms : List Alarm) :
    blinksSet alarms = blinksIn ((serve now alarms).fired.map Timeout.message) ++
      blinksSet (serve now alarms).left := by
  rw [blinksIn_fired]
  refine filterMap_serve (fun a marks => ?_) now alarms
  have kind : a.kind = .quantum := of_decide_eq_true marks
  rw [Alarm.blink?, kind]

theorem blinksSet_passed (c : Clock) :
    (blinksSet c.passed.alarms ++ blinksIn (c.fires.map Timeout.message)).Perm
      (blinksSet c.alarms) := by
  have left : (blinksSet c.passed.alarms).Perm (blinksSet c.ticked.alarms) := by
    unfold passed
    split
    · exact blinksSet_marked _
    · exact .refl _
  rw [blinksSet_serve (c.now + 1) c.alarms]
  exact (left.append_right _).trans List.perm_append_comm

theorem config_after (c : Clock) (r : Request) : (c.after r).config = c.config := by
  cases r with
  | arm => exact (moves_wound c).frame.1
  | tick | timerInterrupt => exact (moves_passed c).frame.1
  | _ => rfl

end Clock

open Clock

/-! ## The two programs -/

theorem blinksFor_send (T id : TaskId) (m : Message) :
    blinksFor T [.send id m] = if T = id then blinksIn [m] else [] := by
  show blinksIn (lettersTo T ([m].map (Letter.mk id))) = _
  rw [lettersTo_map_mk]
  split
  · rfl
  · rfl

/-- **The main task sets the timer again** for each beat that it is told of. -/
theorem blinksDue_calls (task : MainTask) (m : Message) :
    blinksDue (task.calls m) = (blinksIn [m]).map (· + blinkTicks) := by
  cases m with
  | timerTimeout timeout value =>
    unfold MainTask.calls blinksIn
    by_cases cursor : value = cursorTimer
    · simp [blinksDue, Message.blink?, cursor]
    · simp [blinksDue, Message.blink?, cursor]
  | deviceInterrupt device =>
    cases device with
    | keyboard => rfl
    | xhci => rfl
  | keyPush e => rfl
  | layer r => rfl
  | layerFinish layer => rfl

/-- **It tells the terminal** of each beat once. -/
theorem blinksFor_calls (task : MainTask) (m : Message) :
    blinksFor task.terminal (task.calls m) = blinksIn [m] := by
  have sent : blinksFor task.terminal [.send task.terminal m] = blinksIn [m] :=
    (blinksFor_send _ _ _).trans (if_pos rfl)
  cases m with
  | timerTimeout timeout value =>
    refine Eq.trans ?_ sent
    unfold MainTask.calls
    dsimp only
    split
    · rfl
    · rfl
  | deviceInterrupt device =>
    cases device with
    | keyboard => rfl
    | xhci => rfl
  | keyPush e => exact sent
  | layer r => exact (blinksFor_send _ r.source _).trans (ite_self _)
  | layerFinish layer => rfl

theorem blinksFor_keyCalls (T terminal : TaskId) (event : Option KeyEvent) :
    blinksFor T (keyCalls terminal event) = [] := by
  cases event with
  | none => rfl
  | some e => exact (blinksFor_send T terminal (.keyPush e)).trans (ite_self _)

theorem blinksDue_keyCalls (terminal : TaskId) (event : Option KeyEvent) :
    blinksDue (keyCalls terminal event) = [] := by
  cases event with
  | none => rfl
  | some e => rfl

/-- The main task tells itself of nothing. -/
theorem Kernel.Call.ByMain.untold {T : TaskId} {call : Call} (h : call.ByMain T)
    (apart : T ≠ Config.mainTask) {x : Letter} (hx : x ∈ call.letters)
    (hid : x.receiver = Config.mainTask) : x.message.blink? = none := by
  rcases (h x hx).2 with same | ⟨layer, done⟩
  · exact absurd (same.symm.trans hid) apart
  · rw [done]
    rfl

/-- The terminal tells nobody of a beat. -/
theorem Kernel.Call.ByTerminal.untold {T : TaskId} {call : Call} (h : call.ByTerminal T)
    {x : Letter} (hx : x ∈ call.letters) : x.message.blink? = none := by
  obtain ⟨-, r, asks, -⟩ := h.2 x hx
  rw [asks]
  rfl

/-! ## The others -/

/-- What another task does sets no cursor timer, and tells the main task of no beat. -/
def Deed.LeavesCursor : Deed → Prop
  | .other (.addTimer _ value) => value ≠ cursorTimer
  | .other (.send id m) => id = Config.mainTask → m.blink? = none
  | _ => True

/-- The two programs and the interrupts are no others. -/
theorem Deed.leavesCursor_of_own {deed : Deed} (h : ∀ op, deed ≠ .other op) :
    deed.LeavesCursor := by
  cases deed with
  | other op => exact absurd rfl (h op)
  | _ => trivial

variable {d d' : Dispatcher}

/-- **A request keeps the beats**: those that leave the clock are sent to the main task, if it is
    the receiver of timeouts. -/
theorem request_balance {r : Request} (receiver : d.clock.config.receiver = Config.mainTask)
    (unset : ∀ due value, r = .addTimer due value → value ≠ cursorTimer)
    (untold : ∀ id m, r = .send id m → id = Config.mainTask → m.blink? = none) :
    (blinksSet (d.clock.after r).alarms ++
      blinksIn (lettersTo Config.mainTask (d.letters r))).Perm (blinksSet d.clock.alarms) := by
  -- most requests neither touch the clock nor tell of a beat
  have quiet : (blinksSet (d.clock.after r).alarms).Perm (blinksSet d.clock.alarms) →
      blinksIn (lettersTo Config.mainTask (d.letters r)) = [] →
      (blinksSet (d.clock.after r).alarms ++
        blinksIn (lettersTo Config.mainTask (d.letters r))).Perm (blinksSet d.clock.alarms) := by
    intro kept none
    rw [none, List.append_nil]
    exact kept
  have fires : blinksIn (lettersTo Config.mainTask d.clock.letters) =
      blinksIn (d.clock.fires.map Timeout.message) := by
    have addressed : d.clock.letters =
        (d.clock.fires.map Timeout.message).map (Letter.mk Config.mainTask) := by
      rw [List.map_map, letters, receiver]
      rfl
    rw [addressed, lettersTo_map_mk, if_pos rfl]
  cases r with
  | addTimer due value =>
    refine quiet ?_ rfl
    have placed := blinksSet_place ⟨due, d.clock.nextSeq, .timeout value⟩ d.clock.alarms
    have beat : (Alarm.mk due d.clock.nextSeq (.timeout value)).blink? = none :=
      if_neg (unset due value rfl)
    rw [beat] at placed
    exact placed
  | arm =>
    refine quiet ?_ rfl
    show (blinksSet d.clock.wound.alarms).Perm _
    unfold wound
    split
    · exact .refl _
    · exact blinksSet_marked _
  | tick | timerInterrupt =>
    show (_ ++ blinksIn (lettersTo Config.mainTask d.clock.letters)).Perm _
    rw [fires]
    exact blinksSet_passed d.clock
  | send id m =>
    refine quiet (.refl _) (blinksIn_lettersTo_eq_nil fun x hx hid => ?_)
    obtain rfl := List.mem_singleton.mp hx
    exact untold id m rfl hid
  | deviceInterrupt =>
    refine quiet (.refl _) (blinksIn_lettersTo_eq_nil fun x hx _ => ?_)
    obtain rfl := List.mem_singleton.mp hx
    rfl
  | _ => exact quiet (.refl _) rfl

/-- **A deed keeps the beats** if its request does. -/
theorem deed_balance (deed : Deed) (receiver : d.clock.config.receiver = Config.mainTask)
    (unset : ∀ due value, deed.request .heap addressSpace d = some (.addTimer due value) →
      value ≠ cursorTimer)
    (untold : ∀ id m, deed.request .heap addressSpace d = some (.send id m) → id = Config.mainTask →
      m.blink? = none) :
    (blinksSet (deed.clock d).alarms ++
      blinksIn (lettersTo Config.mainTask (deed.letters d))).Perm (blinksSet d.clock.alarms) := by
  unfold Deed.clock Deed.letters
  cases asks : deed.request .heap addressSpace d with
  | none => exact .of_eq (List.append_nil _)
  | some r =>
    exact request_balance receiver (fun due value same => unset due value (same ▸ asks))
      fun id m same => untold id m (same ▸ asks)

/-- What the others do keeps the beats. -/
theorem other_balance {op : Operation} (receiver : d.clock.config.receiver = Config.mainTask)
    (fair : (Deed.other op).LeavesCursor) :
    (blinksSet ((Deed.other op).clock d).alarms ++ blinksIn (lettersTo Config.mainTask
      ((Deed.other op).letters d))).Perm (blinksSet d.clock.alarms) := by
  refine deed_balance _ receiver (fun due value asks => ?_) fun id m asks => ?_
  · obtain rfl := op.eq_addTimer asks
    exact fair
  · obtain rfl := op.eq_send asks
    exact fair

theorem interrupt_balance (i : Interrupt) (receiver : d.clock.config.receiver = Config.mainTask) :
    (blinksSet ((Deed.interrupt i).clock d).alarms ++ blinksIn (lettersTo Config.mainTask
      ((Deed.interrupt i).letters d))).Perm (blinksSet d.clock.alarms) := by
  cases i with
  | timer | keyboard | spurious => exact deed_balance _ receiver nofun nofun

/-- A call of the terminal keeps the beats. -/
theorem terminalCall_balance {T : TaskId} {call : Call} (own : call.ByTerminal T)
    (receiver : d.clock.config.receiver = Config.mainTask) :
    (blinksSet ((Deed.terminalCall call).clock d).alarms ++ blinksIn (lettersTo Config.mainTask
      ((Deed.terminalCall call).letters d))).Perm (blinksSet d.clock.alarms) := by
  cases call with
  | rearm timeout => exact absurd rfl (own.1 timeout)
  | send id m =>
    refine deed_balance _ receiver nofun fun id' m' asks _ => ?_
    cases asks
    exact own.untold (x := ⟨_, _⟩) List.mem_cons_self
  | note | echo => exact deed_balance _ receiver nofun nofun

/-! ## The token -/

/-- The `k`-th beat of the cursor after the tick at which the main task has begun. -/
def beat (tick k : Nat) : Nat :=
  tick + k * blinkTicks

theorem beat_succ (tick k : Nat) : beat tick (k + 1) = beat tick k + blinkTicks := by
  unfold beat
  rw [Nat.succ_mul, Nat.add_assoc]

/-- **Blinking**: when the main task has heard these messages and made these calls, there is one
    token, and it is due at the next beat. -/
structure Blinking (tick : Nat) (heard : List Message) (made : List Call) (c : Console)
    (d : Dispatcher) : Prop where
  /-- The terminal is not the main task. -/
  apart : c.terminalId ≠ Config.mainTask
  /-- The clock sends to the main task. -/
  receiver : d.clock.config.receiver = Config.mainTask
  /-- The timer is set, or it has fired, or it is about to be set again. -/
  token : (blinksSet d.clock.alarms ++ (blinksIn (d.scheduler.mail Config.mainTask) ++
    blinksDue c.main.calls)).Perm [beat tick ((blinksIn heard).length + 1)]
  /-- The beats that the main task has been told of are the first ones. -/
  handled : blinksIn heard = (List.range (blinksIn heard).length).map fun k => beat tick (k + 1)
  /-- It has told the terminal of them, or is about to. -/
  forwarded : blinksFor c.terminalId made ++ blinksFor c.terminalId c.main.calls = blinksIn heard

namespace Blinking

variable {tick : Nat} {heard : List Message} {made : List Call} {c c' : Console} {deed : Deed}
  {m : Machine} {t : List Observation}

/-- Nothing is taken from the inbox of the main task, and the token moves. -/
theorem token_moved (h : Blinking tick heard made c d) (went : Went c.terminalId d deed d')
    (idle : deed.taken c.terminalId Config.mainTask = [])
    (balanced : (blinksSet (deed.clock d).alarms ++ blinksIn (lettersTo Config.mainTask
      (deed.letters d))).Perm (blinksSet d.clock.alarms)) :
    (blinksSet d'.clock.alarms ++ (blinksIn (d'.scheduler.mail Config.mainTask) ++
      blinksDue c.main.calls)).Perm [beat tick ((blinksIn heard).length + 1)] := by
  have mail := went.mail _ (.inl rfl)
  rw [idle, List.nil_append] at mail
  have moved : (blinksSet d'.clock.alarms ++ blinksIn (d'.scheduler.mail Config.mainTask)).Perm
      (blinksSet d.clock.alarms ++ blinksIn (d.scheduler.mail Config.mainTask)) := by
    rw [went.clock, mail, blinksIn_append]
    -- what is sent comes from the clock
    refine (List.perm_append_comm.append_left _).trans ?_
    rw [← List.append_assoc]
    exact balanced.append_right _
  have all := moved.append_right (blinksDue c.main.calls)
  rw [List.append_assoc, List.append_assoc] at all
  exact all.trans h.token

theorem receiver_kept (h : Blinking tick heard made c d) (went : Went c.terminalId d deed d') :
    d'.clock.config.receiver = Config.mainTask := by
  rw [went.clock, ← h.receiver]
  unfold Deed.clock
  cases deed.request .heap addressSpace d with
  | none => rfl
  | some r => exact congrArg Config.receiver (config_after d.clock r)

/-- Somebody else has gone on. -/
theorem aside (h : Blinking tick heard made c d) (went : Went c.terminalId d deed d')
    (idle : deed.taken c.terminalId Config.mainTask = [])
    (balanced : (blinksSet (deed.clock d).alarms ++ blinksIn (lettersTo Config.mainTask
      (deed.letters d))).Perm (blinksSet d.clock.alarms)) (terminal : Loop TerminalState) :
    Blinking tick heard made { c with machine := m, terminal := terminal } d' :=
  { h with
    receiver := h.receiver_kept went
    token := h.token_moved went idle balanced }

/-- A call of the main task: if it sets the timer, the token is set at its beat. -/
theorem main_called {call : Call} {rest : List Call} (h : Blinking tick heard made c d)
    (mine : call.ByMain c.terminalId) (next : c.main.calls = call :: rest)
    (went : Went c.terminalId d (.mainCall call) d') :
    Blinking tick heard (made ++ [call])
      { c with machine := m, main := ⟨c.main.state, rest⟩ } d' := by
  have token : (blinksSet d'.clock.alarms ++ (blinksIn (d'.scheduler.mail Config.mainTask) ++
      blinksDue rest)).Perm [beat tick ((blinksIn heard).length + 1)] := by
    cases call with
    | rearm timeout =>
      have mail : d'.scheduler.mail Config.mainTask = d.scheduler.mail Config.mainTask :=
        (went.mail _ (.inl rfl)).trans (List.append_nil _)
      have placed : (blinksSet d'.clock.alarms).Perm
          ((timeout + blinkTicks) :: blinksSet d.clock.alarms) := by
        rw [went.clock]
        exact blinksSet_place ⟨timeout + blinkTicks, d.clock.nextSeq, .timeout cursorTimer⟩ _
      have before := h.token
      rw [next] at before
      rw [mail]
      refine List.Perm.trans ?_ before
      refine (placed.append_right _).trans ?_
      -- the beat goes from the calls to the alarms
      show ((timeout + blinkTicks) :: (blinksSet d.clock.alarms ++
        (blinksIn (d.scheduler.mail Config.mainTask) ++ blinksDue rest))).Perm
        (blinksSet d.clock.alarms ++ (blinksIn (d.scheduler.mail Config.mainTask) ++
          (timeout + blinkTicks) :: blinksDue rest))
      rw [← List.append_assoc, ← List.append_assoc]
      exact List.perm_middle.symm
    | send id message =>
      have balanced := deed_balance (.mainCall (.send id message)) h.receiver nofun
        fun id' m' asks hid => by
          cases asks
          exact mine.untold h.apart (x := ⟨_, _⟩) List.mem_cons_self hid
      have moved := h.token_moved went rfl balanced
      rw [next] at moved
      exact moved
    | note | echo =>
      have moved := h.token_moved went rfl (deed_balance _ h.receiver nofun nofun)
      rw [next] at moved
      exact moved
  refine ⟨h.apart, h.receiver_kept went, token, h.handled, ?_⟩
  have forwarded := h.forwarded
  rw [next, ← blinksFor_append, List.append_cons, blinksFor_append] at forwarded
  exact forwarded

/-- The main task has read the keyboard: a key is no beat. -/
theorem main_read {byte : Option UInt8} (h : Blinking tick heard made c d)
    (done : c.main.calls = []) (went : Went c.terminalId d (.mainRead byte) d') :
    Blinking tick heard made { c with machine := m, main := c.main.state.found byte } d' := by
  have token := h.token_moved went rfl (deed_balance _ h.receiver nofun nofun)
  have forwarded := h.forwarded
  rw [done] at token forwarded
  cases byte with
  | none => exact ⟨h.apart, h.receiver_kept went, token, h.handled, forwarded⟩
  | some byte =>
    refine ⟨h.apart, h.receiver_kept went, ?_, h.handled, ?_⟩
    · show (_ ++ (_ ++ blinksDue (keyCalls _ _))).Perm _
      rw [blinksDue_keyCalls]
      exact token
    · show _ ++ blinksFor c.terminalId (keyCalls _ _) = _
      rw [blinksFor_keyCalls]
      exact forwarded

/-- **The main task has been told of a beat**: that was the token, and there is no other. -/
theorem token_taken {due : Nat} {mail : List Nat} (h : Blinking tick heard made c d)
    (done : c.main.calls = []) (first : blinksIn (d.scheduler.mail Config.mainTask) = due :: mail) :
    due = beat tick ((blinksIn heard).length + 1) ∧ blinksSet d.clock.alarms ++ mail = [] := by
  have token := h.token
  have none : blinksDue [] = [] := rfl
  rw [first, done, none, List.append_nil] at token
  have alone := List.perm_singleton.mp (List.perm_middle.symm.trans token)
  exact List.cons.inj alone

/-- **The main task has waited**: if it has been told of a beat, it makes the next token out of
    it. -/
theorem main_waited {message : Option Message} (h : Blinking tick heard made c d)
    (addressed : c.main.state.task.terminal = c.terminalId) (done : c.main.calls = [])
    (went : Went c.terminalId d (.mainWait message) d') :
    Blinking tick (heard ++ message.toList) made
      { c with machine := m, main := c.main.state.heard message } d' := by
  have mail : message.toList ++ d'.scheduler.mail Config.mainTask =
      d.scheduler.mail Config.mainTask := (went.mail _ (.inl rfl)).trans (List.append_nil _)
  have clock : d'.clock = d.clock := went.clock
  have forwarded := h.forwarded
  rw [done] at forwarded
  have forwarded : blinksFor c.terminalId made = blinksIn heard :=
    (List.append_nil _).symm.trans forwarded
  cases message with
  | none =>
    have mail : d'.scheduler.mail Config.mainTask = d.scheduler.mail Config.mainTask := mail
    have token := h.token
    rw [← clock, ← mail, done] at token
    rw [Option.toList_none, List.append_nil]
    exact ⟨h.apart, h.receiver_kept went, token, h.handled, h.forwarded.symm ▸ by rw [done]; rfl⟩
  | some m =>
    have boxed : blinksIn (d.scheduler.mail Config.mainTask) =
        blinksIn [m] ++ blinksIn (d'.scheduler.mail Config.mainTask) := by
      rw [← mail]
      exact blinksIn_append [m] _
    have due := blinksDue_calls c.main.state.task m
    have tells := blinksFor_calls c.main.state.task m
    rw [addressed] at tells
    have hears := blinksIn_append heard [m]
    rw [Option.toList_some]
    cases told : m.blink? with
    | none =>
      have none : blinksIn [m] = [] := List.filterMap_cons_none told
      rw [none] at boxed due tells hears
      rw [List.append_nil] at hears
      have token := h.token
      rw [done, boxed, ← clock, ← hears] at token
      have handled := h.handled
      rw [← hears] at handled
      refine ⟨h.apart, h.receiver_kept went, ?_, handled, ?_⟩
      · show (_ ++ (_ ++ blinksDue (c.main.state.task.calls m))).Perm _
        rw [due]
        exact token
      · show _ ++ blinksFor c.terminalId (c.main.state.task.calls m) = blinksIn (heard ++ [m])
        rw [tells, List.append_nil, hears, forwarded]
    | some now =>
      have one : blinksIn [m] = [now] := List.filterMap_cons_some told
      rw [one] at boxed due tells hears
      have boxed : blinksIn (d.scheduler.mail Config.mainTask) =
          now :: blinksIn (d'.scheduler.mail Config.mainTask) := boxed
      obtain ⟨rfl, alone⟩ := h.token_taken done boxed
      have many : (blinksIn (heard ++ [m])).length = (blinksIn heard).length + 1 := by
        rw [hears, List.length_append, List.length_singleton]
      refine ⟨h.apart, h.receiver_kept went, ?_, ?_, ?_⟩
      · show (_ ++ (_ ++ blinksDue (c.main.state.task.calls m))).Perm _
        rw [due, clock, ← List.append_assoc, alone, many, beat_succ tick (_ + 1)]
        exact .refl _
      · rw [many, List.range_succ, List.map_append, ← h.handled, hears]
        rfl
      · show _ ++ blinksFor c.terminalId (c.main.state.task.calls m) = blinksIn (heard ++ [m])
        rw [tells, hears, forwarded]

/-- **Whatever is done, there is one token.** -/
theorem next (h : Blinking tick heard made c d) (together : c.Together d)
    (goes : c.Goes deed t c') (fair : deed.LeavesCursor)
    (went : Went c.terminalId d deed d') :
    Blinking tick (heard ++ deed.taken c.terminalId Config.mainTask) (made ++ deed.mainCalls)
      c' d' := by
  have unheard : deed.taken c.terminalId Config.mainTask = [] → deed.mainCalls = [] →
      Blinking tick heard made c' d' → Blinking tick
        (heard ++ deed.taken c.terminalId Config.mainTask) (made ++ deed.mainCalls) c' d' := by
    intro nothing none blinking
    rw [nothing, none, List.append_nil, List.append_nil]
    exact blinking
  cases goes with
  | elsewhere =>
    exact unheard rfl rfl (h.aside went rfl (deed_balance _ h.receiver nofun nofun) _)
  | interrupted =>
    exact unheard rfl rfl (h.aside went rfl (interrupt_balance _ h.receiver) _)
  | shared => exact unheard rfl rfl (h.aside went rfl (other_balance h.receiver fair) _)
  | mainCalled current next =>
    have mine := together.main _ (next ▸ List.mem_cons_self)
    show Blinking tick (heard ++ []) (made ++ [_]) _ d'
    rw [List.append_nil]
    exact h.main_called mine next went
  | mainRead current done => exact unheard rfl rfl (h.main_read done went)
  | mainWaited current done =>
    show Blinking tick (heard ++ Option.toList _) (made ++ []) _ d'
    rw [List.append_nil]
    exact h.main_waited together.addressed done went
  | terminalCalled current next =>
    have own := together.terminal _ (next ▸ List.mem_cons_self)
    exact unheard rfl rfl (h.aside went rfl (terminalCall_balance own h.receiver) _)
  | @terminalWaited message t m current done comes =>
    have other : (Deed.terminalWait message).taken c.terminalId Config.mainTask = [] :=
      if_neg h.apart
    exact unheard other rfl (h.aside went other (deed_balance _ h.receiver nofun nofun) _)

end Blinking

/-! ## Runs in company -/

namespace Ensemble

variable {c c' : Console} {tick : Nat} {ks : List Stroke}

/-- A message that the main task sends the terminal is put into its inbox. -/
theorem lands {k : Stroke} {m : Message} (h : Ensemble c ks c') (together : c.Together d)
    (hk : k ∈ ks) (sends : k.deed = .mainCall (.send c.terminalId m)) :
    ∃ s s', k.before.machine.scheduler = some ⟨s, false⟩ ∧
      k.after.machine.scheduler = some ⟨s', false⟩ ∧
      s'.mail c.terminalId = s.mail c.terminalId ++ [m] := by
  obtain ⟨earlier, run⟩ := h.before_of_mem hk
  obtain ⟨d₁, here, -⟩ := run.carries (P := fun _ _ _ => True) together trivial
    fun _ _ _ _ _ _ _ _ _ => trivial
  obtain ⟨d₂, there, went⟩ := k.done.went here
  have mail := went.mail _ (.inr rfl)
  rw [sends, run.terminalId_eq] at mail
  refine ⟨_, _, here.shares.scheduler, there.shares.scheduler, mail.trans ?_⟩
  have letter : lettersTo c.terminalId ([m].map (Letter.mk c.terminalId)) = [m] :=
    (lettersTo_map_mk _ _ _).trans (if_pos rfl)
  exact congrArg _ letter

/-- **The cursor timer is never lost, doubled or late.**  Let the main task begin at `tick`, when
    no cursor timer is set and none has fired, and let it go on in company, with interrupts and
    other tasks at any moment between two of its calls.  The others may do what they like, but set
    no cursor timers and send the main task no timeouts of it.  Then at every moment

    1. the timeouts that the main task has taken were due at the first beats after the beginning,
       one after the other, however late it has taken them;
    2. unless it has still calls to make, one cursor timer is set, or one such timeout is in its
       inbox, and not both, and it is due at the next beat;
    3. it has told the terminal of each timeout that it has taken, or is about to, once and in
       order, and each of these messages has been put into the inbox of the terminal.

    So begins what the kernel runs (`Console.begins_of_start`), and iterations of either program,
    as the kernel runs them, are parts of such runs. -/
theorem cursor_keeps_its_beat (begins : c.Begins d tick)
    (receiver : d.clock.config.receiver = Config.mainTask)
    (unset : blinksSet d.clock.alarms = [])
    (untold : blinksIn (d.scheduler.mail Config.mainTask) = []) (run : Ensemble c ks c')
    (others : ∀ k ∈ ks, k.deed.LeavesCursor) :
    ∃ d' n, Shares c'.machine d' ∧
      blinksIn (Stroke.taken c.terminalId Config.mainTask ks) =
        (List.range n).map (fun k => beat tick (k + 1)) ∧
      (c'.main.calls = [] →
        blinksSet d'.clock.alarms = [beat tick (n + 1)] ∧
          blinksIn (d'.scheduler.mail Config.mainTask) = [] ∨
        blinksSet d'.clock.alarms = [] ∧
          blinksIn (d'.scheduler.mail Config.mainTask) = [beat tick (n + 1)]) ∧
      blinksFor c.terminalId (Stroke.mainCalls ks) ++ blinksFor c.terminalId c'.main.calls =
        blinksIn (Stroke.taken c.terminalId Config.mainTask ks) ∧
      (∀ k ∈ ks, ∀ m, k.deed = .mainCall (.send c.terminalId m) →
        ∃ s s', k.before.machine.scheduler = some ⟨s, false⟩ ∧
          k.after.machine.scheduler = some ⟨s', false⟩ ∧
          s'.mail c.terminalId = s.mail c.terminalId ++ [m]) ∧
      TakesIn c ks c' := by
  have first : Blinking tick [] [] c d := by
    refine ⟨begins.apart, receiver, ?_, rfl, ?_⟩
    · rw [begins.main, unset, untold]
      show [tick + blinkTicks].Perm [tick + 1 * blinkTicks]
      rw [Nat.one_mul]
    · rw [begins.main]
      rfl
  obtain ⟨d', together, blinking⟩ := run.carries
    (P := fun ks c' d => Blinking tick (Stroke.taken c.terminalId Config.mainTask ks)
      (Stroke.mainCalls ks) c' d) begins.together first
    fun earlier k d d' hk same here went blinking => by
      rw [Stroke.taken_concat, Stroke.mainCalls_concat, ← same]
      exact Blinking.next (same ▸ blinking) here k.done (others k hk) went
  have forwarded := blinking.forwarded
  rw [run.terminalId_eq] at forwarded
  refine ⟨d', _, together.shares, blinking.handled, fun unmade => ?_, forwarded,
    fun k hk m sends => run.lands begins.together hk sends, run.takesIn together⟩
  have token := List.perm_singleton.mp blinking.token
  have none : blinksDue [] = [] := rfl
  rw [unmade, none, List.append_nil] at token
  rcases List.append_eq_singleton_iff.mp token with ⟨left, right⟩ | ⟨left, right⟩
  · exact .inr ⟨left, right⟩
  · exact .inl ⟨left, right⟩

/-- The main task is so late for the first timeout that the second one is due as well when the
    timer is set again; it fires at the next tick, and the third one is set for its own beat. -/
theorem cursor_keeps_its_beat_when_late : ∃ c d ks c' d', c.Begins d 0 ∧ Ensemble c ks c' ∧
    Shares c'.machine d' ∧ d'.clock.now = 121 ∧
    blinksIn (Stroke.taken c.terminalId Config.mainTask ks) = [50, 100] ∧
    blinksSet d'.clock.alarms = [150] ∧
    blinksIn (d'.scheduler.mail c.terminalId) = [50, 100] := by
  have created : (create .standard .heap).outcome = .ok (.ok _) := rfl
  have history := (History.created created).performAll
    (show (Dispatcher.performAll ⟨_, .create .standard⟩ [.spawn .idle 0 3 .heap]).outcome =
      .ok (_, _) from rfl)
  have begins := Console.fresh_begins (T := ⟨3⟩) (d := ⟨_, .create .standard⟩) history rfl
    (by decide)
  obtain ⟨c, d, begins, receiver, unset, untold, ends⟩ : ∃ c d, Console.Begins c d 0 ∧
      d.clock.config.receiver = Config.mainTask ∧ blinksSet d.clock.alarms = [] ∧
      blinksIn (d.scheduler.mail Config.mainTask) = [] ∧
      (c.advanceAll (.main :: (.replicate 120 (.interrupt .timer) ++
        [.main, .main, .main, .interrupt .timer, .main, .main, .main]))).Ends Stop.Never
        fun c => c.main.calls = [] ∧
          c.machine.clock.map (fun lock => (lock.value.now, blinksSet lock.value.alarms)) =
            some (121, [150]) ∧
          c.machine.scheduler.map (fun lock => blinksIn (lock.value.mail c.terminalId)) =
            some [50, 100] :=
    ⟨_, _, begins, rfl, rfl, rfl, by decide +kernel⟩
  obtain ⟨beats, c', played, ⟨unmade, alarms, inbox⟩, -⟩ := Play.nil.advanceAll _ _ ends
  obtain ⟨ks, run, -, alone⟩ := Ensemble.nil.play played
  rw [List.nil_append] at run
  obtain ⟨d', n, shares, handled, outstanding, -⟩ :=
    cursor_keeps_its_beat begins receiver unset untold run
      fun k hk => Deed.leavesCursor_of_own (alone k hk)
  rw [shares.clock] at alarms
  rw [shares.scheduler, run.terminalId_eq] at inbox
  obtain ⟨now, set⟩ := Prod.mk.inj (Option.some.inj alarms)
  -- the beat at which the timer is set tells how many have been handled
  have two : n = 2 := by
    rcases outstanding unmade with ⟨next, -⟩ | ⟨next, -⟩
    · have same : beat 0 (n + 1) = 150 := List.singleton_inj.mp (next.symm.trans set)
      have ticks : blinkTicks = 50 := rfl
      rw [beat, ticks] at same
      omega
    · cases next.symm.trans set
  rw [two] at handled
  exact ⟨c, d, ks, c', d', begins, run, shares, now, handled, set, Option.some.inj inbox⟩

end Ensemble

end PreemptiveKernel
