/-
  What a message can do to the main task.

  The main task does arithmetic with one thing that messages tell: when a timeout of the cursor
  comes, the next one is set half a second after the tick that the message names.  A message that
  names one of the last ticks of all leaves no room for that half second (`Overruns`), and there the
  main task stops.  Whoever sends the message decides what it names, so no clock has to have come
  that far.

  No other message stops it, whatever it tells and whoever is named in it.  A call ends whatever
  has happened before it (`Call.ends`), and it leaves the main task current and the messages that
  wait where they are (`Call.works`).  What the main task sends to itself overruns only if what it
  has been sent did (`MainTask.overruns_of_letter`), so the loop cannot bring itself down later.
  It stops exactly if one of the messages that it gets to overruns (`runFor_main`), unless the
  machine stands in its way: by a limit to the memory, or because somebody is in the middle of
  printing.
-/
import PreemptiveKernel.Proofs.Company
import PreemptiveKernel.Proofs.Provisions

namespace PreemptiveKernel

open Run Scheduler

/-! ## Requests that end no turn -/

namespace Asked

variable {d d' : Dispatcher} {r : Option Request} {ms : List Message}

/-- What has been asked belongs to the history. -/
theorem history (h : Asked d r ms d') (before : ∃ log, History log d.scheduler) :
    ∃ log, History log d'.scheduler := by
  cases h with
  | nothing => exact before
  | request done =>
    obtain ⟨log, history⟩ := before
    exact ⟨_, .request history done⟩

/-- The current task stays current if no turn is asked to end. -/
theorem current_kept (h : Asked d r ms d') (hs : d.scheduler.Sound)
    (calm : ∀ x ∈ r, x ≠ .switch ∧ x ≠ .timerInterrupt ∧ x ≠ .wait ∧ ∀ id, x ≠ .sleep id) :
    d'.scheduler.currentId = d.scheduler.currentId := by
  cases h with
  | nothing => rfl
  | request done =>
    obtain ⟨noSwitch, noInterrupt, noWait, noSleep⟩ := calm _ rfl
    cases Episode.performed ⟨_, _, _, _, done⟩ hs with
    | calm steps silent => exact steps.current_kept hs
    | yielded asked => exact (asked.elim noSwitch noInterrupt).elim
    | dismissed asked => exact absurd asked (noSleep _)
    | retired asked => exact absurd asked (noSleep _)
    | waited asked => exact absurd asked noWait

end Asked

namespace Kernel

variable {α : Type} {m m' m₁ : Machine} {d d' d₁ : Dispatcher} {id : TaskId} {call : Call}
  {x : Message}

/-! ## Messages that overrun -/

/-- The message is a timeout of the cursor, and the next one would be due after the last tick of
    all. -/
def Overruns (x : Message) : Prop :=
  ∃ timeout, x = .timerTimeout timeout cursorTimer ∧ Word.bound ≤ timeout + blinkTicks

instance : DecidablePred Overruns
  | .timerTimeout timeout value =>
    decidable_of_iff (value = cursorTimer ∧ Word.bound ≤ timeout + blinkTicks) <| by
      constructor
      · rintro ⟨rfl, late⟩
        exact ⟨timeout, rfl, late⟩
      · rintro ⟨timeout, same, late⟩
        obtain ⟨rfl, rfl⟩ := Message.timerTimeout.inj same
        exact ⟨rfl, late⟩
  | .deviceInterrupt _ | .keyPush _ | .layer _ | .layerFinish _ =>
    isFalse fun ⟨_, same, _⟩ => nomatch same

/-- The call sets the timer for a tick after the last one. -/
def Call.Overruns (call : Call) : Prop :=
  ∃ timeout, call = .rearm timeout ∧ Word.bound ≤ timeout + blinkTicks

/-- The call sets the timer. -/
def Call.sets : Call → Bool
  | rearm _ => true
  | _ => false

/-- **A call overruns only for a message that does.** -/
theorem MainTask.overruns_of_call {task : MainTask} (h : call ∈ task.calls x)
    (overruns : call.Overruns) : Overruns x := by
  obtain ⟨timeout, rfl, late⟩ := overruns
  rcases of_mem_calls h with ⟨due, rfl, same⟩ | ⟨-, same⟩ | ⟨r, -, same⟩ | ⟨severity, text, same⟩
  · exact ⟨timeout, by rw [Call.rearm.inj same], late⟩
  · cases same
  · cases same
  · cases same

theorem MainTask.call_of_overruns (task : MainTask) (h : Overruns x) :
    ∃ call ∈ task.calls x, call.Overruns := by
  obtain ⟨timeout, rfl, late⟩ := h
  exact ⟨.rearm timeout, List.mem_append_left _ (List.mem_singleton.mpr rfl), timeout, rfl, late⟩

/-- What the main task sends for a message is the message itself or overruns nothing. -/
theorem MainTask.overruns_of_letter {task : MainTask} (h : call ∈ task.calls x) {l : Letter}
    (hl : l ∈ call.letters) (overruns : Overruns l.message) : Overruns x := by
  rcases of_mem_calls h with ⟨due, -, rfl⟩ | ⟨-, rfl⟩ | ⟨r, -, rfl⟩ | ⟨severity, text, rfl⟩
  · cases hl
  · obtain rfl := List.mem_singleton.mp hl
    exact overruns
  · obtain rfl := List.mem_singleton.mp hl
    obtain ⟨timeout, same, -⟩ := overruns
    cases same
  · cases hl

/-- For a message the timer is set once at most. -/
theorem MainTask.countP_sets_calls (task : MainTask) (x : Message) :
    (task.calls x).countP Call.sets ≤ 1 := by
  cases x with
  | timerTimeout due value =>
    dsimp only [calls]
    split
    · exact Nat.le_refl 1
    · exact Nat.zero_le 1
  | deviceInterrupt device =>
    cases device with
    | keyboard | xhci => exact Nat.zero_le 1
  | keyPush | layer | layerFinish => exact Nat.zero_le 1

/-! ## What ends -/

/-- The machine afterwards is blocked by no more than before. -/
def Unblocked (m m' : Machine) : Prop :=
  ∀ s, m'.Blocks s → m.Blocks s

/-- A postcondition may tell that the value has been come to. -/
theorem Ensures.with_comes {f : Kernel α} {admitted : Stop → Prop}
    {post : List Event → α → Machine → Prop} (h : Ensures f m admitted post) :
    Ensures f m admitted fun ks a m' => post ks a m' ∧ ∃ t, Comes f m t a m' := by
  refine ⟨h.guarded, h.ends.with_outcome.imp ?_⟩
  rintro ⟨a, m'⟩ ⟨done, hpost⟩
  refine ⟨hpost, (f m).trace, ?_⟩
  show f m = _
  rw [← done]

theorem Spends.unblocked {f : Kernel α} {admitted : Stop → Prop} (h : Spends f m)
    (himp : ∀ s, m.Blocks s → admitted s) :
    Ensures f m admitted fun _ _ m' => Unblocked m m' :=
  h.mono himp fun _ _ _ spent _ => spent.2.blocks

/-- **An operation ends** if it ends for somebody who has the scheduler and the clock to himself. -/
theorem Operation.ends (op : Operation) (shares : Shares m d)
    (answers : (op.own (op.allocator m d) m.cr3 d).Ends Stop.Never fun _ => True) :
    Ensures op.perform m m.Blocks fun _ a m' => Unblocked m m' ∧ ∃ change d', Shares m' d' ∧
      (op.own (op.allocator m d) m.cr3 d).outcome = .ok (a, change, d') := by
  obtain ⟨p, done, -⟩ := ends_never_iff.mp answers
  refine (op.faithful shares).mono (fun s stopped => ?_) fun ks a m' finished => ?_
  · refine stopped.resolve_left fun stopped => ?_
    cases done.symm.trans stopped
  · obtain ⟨change, d', value, became, -⟩ := finished
    exact ⟨fun _ => became.blocks, change, d', became.toShares, value⟩

/-- **A call ends** unless it overruns, as long as there is a number for the timer that it sets. -/
theorem Call.ends (call : Call) (shares : Shares m d)
    (place : call.sets = true → d.clock.nextSeq + 1 < Word.bound) :
    Ensures call.perform m (fun s => s = .addOverflow ∧ call.Overruns ∨ m.Blocks s)
      fun _ _ m' => ¬ call.Overruns ∧ Unblocked m m' := by
  have blocked : ∀ s, m.Blocks s → s = .addOverflow ∧ call.Overruns ∨ m.Blocks s := fun _ => .inr
  have inWord : (∀ timeout, call ≠ .rearm timeout) → ¬ call.Overruns := by
    rintro other ⟨timeout, same, -⟩
    exact other timeout same
  cases call with
  | rearm timeout =>
    by_cases late : Word.bound ≤ timeout + blinkTicks
    · -- the sum stops, and nothing else is done
      have stopped : (Call.rearm timeout).perform m = ⟨[], .error .addOverflow⟩ := by
        show (liftM (Word.add timeout blinkTicks) >>= fun due =>
          addTimer due cursorTimer : Kernel _) m = _
        rw [Word.add_of_le late]
        rfl
      refine ⟨?_, ?_⟩
      · rw [stopped]
        exact List.forall_mem_nil _
      · rw [stopped]
        exact .inl ⟨rfl, timeout, rfl, late⟩
    · have sum : Word.add timeout blinkTicks = .ok (timeout + blinkTicks) :=
        Word.add_of_lt (Nat.lt_of_not_le late)
      have early : ¬ (Call.rearm timeout).Overruns := by
        rintro ⟨timeout', same, late'⟩
        obtain rfl := Call.rearm.inj same
        exact late late'
      have answers : ((Operation.addTimer (timeout + blinkTicks) cursorTimer).own .heap m.cr3 d).Ends
          Stop.Never fun _ => True :=
        ends_bind_of_ok (Clock.push_answers _ _ (place rfl)) (ends_pure trivial)
      have added := (Operation.addTimer (timeout + blinkTicks) cursorTimer).ends shares answers
      show Ensures (liftM (Word.add timeout blinkTicks) >>= fun due =>
        addTimer due cursorTimer) _ _ _
      rw [sum]
      exact added.mono blocked fun _ _ _ h => ⟨early, h.1⟩
  | send id x =>
    have answers : ((Operation.send id x).own .heap m.cr3 d).Ends Stop.Never fun _ => True :=
      ends_bind (send_ends d.scheduler id x) fun _ _ => ends_pure trivial
    have sent := ((Operation.send id x).ends shares answers).mono blocked fun _ _ _ h => h
    exact sent.bind fun _ _ _ h => ensures_pure ⟨inWord nofun, h.1⟩
  | note severity text =>
    have noted := spends_note severity Source.image text shares.calm
    exact (noted.unblocked blocked).mono (fun _ h => h) fun _ _ _ h => ⟨inWord nofun, h⟩
  | echo byte =>
    have printed : Spends (print [characterText byte]) m := spends_print _
    exact (printed.unblocked blocked).mono (fun _ h => h) fun _ _ _ h => ⟨inWord nofun, h⟩

/-! ## The work of the current task -/

/-- The task `id` is current on a machine that shares `d`, after whatever has happened. -/
structure Standing (id : TaskId) (m : Machine) (d : Dispatcher) : Prop where
  shares : Shares m d
  history : ∃ log, History log d.scheduler
  current : d.scheduler.currentId = .ok id

/-- The current task has done some work: it is still current, it has been sent `sent`, and has
    set so many timers at most. -/
structure Worked (id : TaskId) (m : Machine) (d : Dispatcher) (timers : Nat)
    (sent : List Message) (m' : Machine) (d' : Dispatcher) : Prop extends Standing id m' d' where
  mail : d'.scheduler.mail id = d.scheduler.mail id ++ sent
  places : d'.clock.nextSeq ≤ d.clock.nextSeq + timers
  unblocked : Unblocked m m'

theorem Standing.sound (h : Standing id m d) : d.scheduler.Sound := by
  obtain ⟨log, history⟩ := h.history
  exact history.sound

theorem Standing.known (h : Standing id m d) : (d.scheduler.tasks.get? id).isSome := by
  obtain ⟨t, known, -⟩ := h.sound.current_known h.current
  rw [known]
  rfl

/-- Nothing has been done. -/
theorem Standing.worked (h : Standing id m d) : Worked id m d 0 [] m d :=
  { h with
    mail := (List.append_nil _).symm
    places := Nat.le_refl _
    unblocked := fun _ blocked => blocked }

theorem Worked.trans {k k' : Nat} {sent sent' : List Message} (h : Worked id m d k sent m₁ d₁)
    (later : Worked id m₁ d₁ k' sent' m' d') :
    Worked id m d (k + k') (sent ++ sent') m' d' :=
  { later with
    mail := by rw [later.mail, h.mail, List.append_assoc]
    places := by
      have first := h.places
      have second := later.places
      omega
    unblocked := fun s blocked => h.unblocked s (later.unblocked s blocked) }

/-- **A call is done**, unless it overruns. -/
theorem Call.works (call : Call) (h : Standing id m d)
    (place : call.sets = true → d.clock.nextSeq + 1 < Word.bound) :
    Ensures call.perform m (fun s => s = .addOverflow ∧ call.Overruns ∨ m.Blocks s)
      fun _ _ m' => ¬ call.Overruns ∧
        ∃ d', Worked id m d call.sets.toNat (lettersTo id call.letters) m' d' := by
  refine (call.ends h.shares place).with_comes.mono (fun _ h => h) ?_
  rintro ks u m' ⟨⟨early, unblocked⟩, t, comes⟩
  obtain ⟨d', shares, asked⟩ := Call.asked h.shares comes
  have kept := asked.current_kept h.sound fun r hr => by
    cases call with
    | rearm | send =>
      obtain rfl := Option.some.inj hr
      exact ⟨nofun, nofun, nofun, nofun⟩
    | note | echo => nomatch hr
  have mail := asked.mail h.sound h.known
  rw [ite_self, List.nil_append, Call.letters_request] at mail
  refine ⟨early, d', ⟨shares, asked.history h.history, kept.trans h.current⟩, mail, ?_, unblocked⟩
  rw [asked.clock]
  cases call with
  | rearm => exact Nat.le_refl _
  | send | note | echo => exact Nat.le_refl _

/-- **Calls are done one by one**, up to one that overruns. -/
theorem calls_work (calls : List Call) (h : Standing id m d)
    (places : d.clock.nextSeq + calls.countP Call.sets < Word.bound) :
    Ensures (calls.forM Call.perform) m
      (fun s => s = .addOverflow ∧ (∃ call ∈ calls, call.Overruns) ∨ m.Blocks s)
      fun _ _ m' => (∀ call ∈ calls, ¬ call.Overruns) ∧ ∃ d', Worked id m d
        (calls.countP Call.sets) (lettersTo id (calls.flatMap Call.letters)) m' d' := by
  induction calls generalizing m d with
  | nil => exact ensures_pure ⟨List.forall_mem_nil _, d, h.worked⟩
  | cons call rest ih =>
    have count : (call :: rest).countP Call.sets = call.sets.toNat + rest.countP Call.sets := by
      rw [List.countP_cons, Nat.add_comm]
      cases call.sets with
      | _ => rfl
    rw [count] at places ⊢
    have first := call.works h fun sets => by
      rw [sets, Bool.toNat_true] at places
      omega
    refine Ensures.bind (first.mono ?_ fun _ _ _ h => h) ?_
    · rintro s (⟨stop, overruns⟩ | blocked)
      · exact .inl ⟨stop, call, List.mem_cons_self, overruns⟩
      · exact .inr blocked
    · rintro ks u m₁ ⟨early, d₁, worked⟩
      have placed := worked.places
      refine (ih worked.toStanding (by omega)).mono ?_ ?_
      · rintro s (⟨stop, late, hlate, overruns⟩ | blocked)
        · exact .inl ⟨stop, late, List.mem_cons_of_mem _ hlate, overruns⟩
        · exact .inr (worked.unblocked s blocked)
      · rintro later v m' ⟨others, d', more⟩
        refine ⟨List.forall_mem_cons.mpr ⟨early, others⟩, d', ?_⟩
        rw [List.flatMap_cons, lettersTo_append]
        exact worked.trans more

/-! ## The keyboard -/

theorem readScancode_ends (calm : m.Calm) :
    Ensures readScancode m m.Blocks fun _ _ m' => Unblocked m m' := by
  have reads : m.keyboard.read.Ends Stop.Never fun _ => True := by
    refine ends_bind_of_ok (a := ()) rfl ?_
    cases m.keyboard.buffer with
    | nil => exact ends_pure trivial
    | cons byte rest => exact ends_bind_of_ok (a := ()) rfl (ends_pure trivial)
  obtain ⟨p, done, -⟩ := ends_never_iff.mp reads
  refine Ensures.bind_unmarked (Q := fun a m₁ => a = m ∧ m₁ = m) (ensures_get ⟨rfl, rfl, rfl⟩)
    fun _ _ here => ?_
  obtain ⟨rfl, rfl⟩ := here
  refine Ensures.bind_unmarked (Q := fun _ m₁ => m₁ = _)
    (ensures_replay (ensures_access _ calm) (fun s stopped => ?_) fun _ _ _ _ same => same)
    fun q m₁ same => ?_
  · cases done.symm.trans stopped
  · obtain rfl := same
    exact Ensures.bind_unmarked (Q := fun _ m₂ => m₂ = _) (ensures_modify ⟨rfl, rfl⟩)
      fun _ m₂ same => ensures_pure (by rw [same]; exact fun _ blocked => blocked)

/-- **Reading the keyboard** sends key events, and none of them overruns. -/
theorem drainKeyboard_works (terminal : TaskId) (reads : Nat) (k : Keyboard)
    (h : Standing id m d) (place : d.clock.nextSeq < Word.bound) :
    Ensures (drainKeyboard terminal reads k) m m.Blocks fun _ _ m' =>
      ∃ d' sent, Worked id m d 0 sent m' d' ∧ ∀ y ∈ sent, ¬ Overruns y := by
  induction reads generalizing m d k with
  | zero => exact ensures_pure ⟨d, [], h.worked, List.forall_mem_nil _⟩
  | succ reads ih =>
    rw [drainKeyboard_succ]
    refine Ensures.bind (readScancode_ends h.shares.calm).with_comes ?_
    rintro ks byte m₁ ⟨unblocked, t, comes⟩
    obtain ⟨scheduler, clock, -⟩ := comes.of_readScancode
    have read : Worked id m d 0 [] m₁ d :=
      { h.worked with shares := h.shares.kept scheduler clock, unblocked := unblocked }
    cases byte with
    | none => exact ensures_pure ⟨d, [], read, List.forall_mem_nil _⟩
    | some byte =>
      have none : (keyCalls terminal (k.decode byte).1).countP Call.sets = 0 := by
        rw [List.countP_eq_zero]
        intro call hcall
        obtain ⟨e, rfl⟩ := of_mem_keyCalls hcall
        exact Bool.false_ne_true
      have calls := calls_work (keyCalls terminal (k.decode byte).1) read.toStanding
        (by rw [none]; exact place)
      refine Ensures.bind (calls.mono ?_ fun _ _ _ h => h) ?_
      · rintro s (⟨-, call, hcall, timeout, same, -⟩ | blocked)
        · obtain ⟨e, rfl⟩ := of_mem_keyCalls hcall
          nomatch same
        · exact unblocked s blocked
      · rintro ks u m₂ ⟨-, d₂, sent⟩
        rw [none] at sent
        have done := read.trans sent
        refine (ih _ sent.toStanding (Nat.lt_of_le_of_lt sent.places place)).mono
          (fun s blocked => done.unblocked s blocked) ?_
        rintro later k' m' ⟨d', more, rest, harmless⟩
        refine ⟨d', _, done.trans rest, fun y hy => ?_⟩
        rcases List.mem_append.mp hy with hkey | hmore
        · obtain ⟨call, hcall, hletter⟩ := List.mem_flatMap.mp (mem_lettersTo.mp hkey)
          obtain ⟨e, rfl⟩ := of_mem_keyCalls hcall
          cases List.mem_singleton.mp hletter
          rintro ⟨timeout, same, -⟩
          nomatch same
        · exact harmless y hmore

/-! ## One message -/

/-- **The main task acts on a message** and goes on, unless the message overruns.  What it sends
    to itself does not. -/
theorem MainTask.act_works (task : MainTask) (x : Message) (h : Standing id m d)
    (place : d.clock.nextSeq + 1 < Word.bound) :
    Ensures (task.act x) m (fun s => s = .addOverflow ∧ Overruns x ∨ m.Blocks s)
      fun _ _ m' => ¬ Overruns x ∧
        ∃ d' sent, Worked id m d 1 sent m' d' ∧ ∀ y ∈ sent, ¬ Overruns y := by
  by_cases keyboard : x = .deviceInterrupt .keyboard
  · obtain rfl := keyboard
    have harmless : ¬ Overruns (.deviceInterrupt .keyboard) := by
      rintro ⟨timeout, same, -⟩
      nomatch same
    refine Ensures.bind_unmarked (Q := fun a m₁ => a = m ∧ m₁ = m)
      (ensures_get ⟨rfl, rfl, rfl⟩) fun a m₁ here => ?_
    rw [here.1, here.2]
    have drained := drainKeyboard_works task.terminal (m.keyboard.buffer.length + 1)
      task.keyboard h (by omega)
    refine Ensures.bind (drained.mono (fun _ blocked => .inr blocked) fun _ _ _ h => h) ?_
    rintro ks k m' ⟨d', sent, worked, others⟩
    have places := worked.places
    exact ensures_pure ⟨harmless, d', sent, { worked with places := by omega }, others⟩
  · rw [MainTask.act_eq task keyboard]
    have once := task.countP_sets_calls x
    have calls := calls_work (task.calls x) h (by omega)
    refine Ensures.bind (calls.mono ?_ fun _ _ _ h => h) ?_
    · rintro s (⟨stop, call, hcall, overruns⟩ | blocked)
      · exact .inl ⟨stop, overruns_of_call hcall overruns⟩
      · exact .inr blocked
    · rintro ks u m' ⟨early, d', worked⟩
      have harmless : ¬ Overruns x := by
        intro overruns
        obtain ⟨call, hcall, late⟩ := task.call_of_overruns overruns
        exact early call hcall late
      have places := worked.places
      refine ensures_pure ⟨harmless, d', _, { worked with places := by omega }, fun y hy late => ?_⟩
      obtain ⟨call, hcall, hletter⟩ := List.mem_flatMap.mp (mem_lettersTo.mp hy)
      exact harmless (overruns_of_letter hcall hletter late)

/-- **A message is taken** from the front of the inbox, if there is one. -/
theorem receive_works (h : Standing id m d) :
    Ensures receive m m.Blocks fun _ taken m' => ∃ d', Standing id m' d' ∧
      d.scheduler.mail id = taken.toList ++ d'.scheduler.mail id ∧
      (taken = none → d.scheduler.mail id = []) ∧ d'.clock = d.clock ∧ Unblocked m m' := by
  obtain ⟨t, known, -⟩ := h.sound.current_known h.current
  have value : (Operation.receive.own .heap m.cr3 d).outcome =
      .ok (t.receive.1, none, d.withScheduler (d.scheduler.modifyTask id (·.receive.2))) := by
    show ((d.scheduler.receiveCurrent : Run Effect _) >>= _).outcome = _
    rw [receiveCurrent_of_current h.current known]
    rfl
  refine (Operation.receive.ends h.shares (ends_of_ok value trivial)).mono (fun _ h => h) ?_
  rintro ks taken m' ⟨unblocked, change, d', shares, done⟩
  have asked := Operation.asked done
  cases value.symm.trans done
  have kept := asked.current_kept h.sound fun r hr => by
    obtain rfl := Option.some.inj hr
    exact ⟨nofun, nofun, nofun, nofun⟩
  have mail := asked.mail h.sound h.known
  have reader : d.scheduler.currentId.toOption = some id := by
    rw [h.current]
    rfl
  rw [if_pos (show (Operation.receive.request _ _ d).bind (·.reader d.scheduler) = some id
    from reader)] at mail
  refine ⟨_, ⟨shares, asked.history h.history, kept.trans h.current⟩, ?_, fun none => ?_, rfl,
    unblocked⟩
  · exact (List.append_nil _).symm.trans mail.symm
  · rw [mail_of_known known]
    unfold Task.receive Inbox.pop at none
    cases hmail : t.inbox.messages with
    | nil => rfl
    | cons first others =>
      rw [hmail] at none
      nomatch none

/-- The current task falls asleep, or stays awake because it idles. -/
theorem sleepCurrent_works (h : Standing id m d) :
    Ensures sleepCurrent m m.Blocks fun _ _ m' => ∃ d', Shares m' d' ∧
      (∃ log, History log d'.scheduler) ∧ d'.scheduler.mail id = d.scheduler.mail id := by
  have answers : (Operation.sleepCurrent.own .heap m.cr3 d).Ends Stop.Never fun _ => True := by
    refine ends_bind_of_ok h.current (ends_bind (sleep_ends h.sound id) ?_)
    rintro ⟨answer, s⟩ -
    cases answer with
    | ok change => exact ends_pure trivial
    | error e => exact ends_pure trivial
  refine (Operation.sleepCurrent.ends h.shares answers).mono (fun _ h => h) ?_
  rintro ks u m' ⟨-, change, d', shares, done⟩
  have asked := Operation.asked done
  have asks : Operation.sleepCurrent.request (Operation.sleepCurrent.allocator m d) m.cr3 d =
      some (.sleep id) := by
    show d.scheduler.currentId.toOption.map Request.sleep = _
    rw [h.current]
    rfl
  rw [asks] at asked
  have mail := asked.mail h.sound h.known
  exact ⟨d', shares, asked.history h.history, mail.trans (List.append_nil _)⟩

/-! ## The loop -/

/-- **The loop of the main task** stops only if one of the messages that it gets to overruns.  If it
    is left, it has acted on one message in each round, as long as there were any. -/
theorem runFor_main (rounds : Nat) (task : MainTask) (h : Standing id m d)
    (places : d.clock.nextSeq + rounds < Word.bound) :
    Ensures (runFor MainTask.act rounds task) m
      (fun s => s = .addOverflow ∧ (∃ x ∈ (d.scheduler.mail id).take rounds, Overruns x) ∨
        m.Blocks s)
      fun _ _ m' => (∀ x ∈ (d.scheduler.mail id).take rounds, ¬ Overruns x) ∧
        ∃ d' own, Shares m' d' ∧ (∃ log, History log d'.scheduler) ∧
          d'.scheduler.mail id = (d.scheduler.mail id ++ own).drop rounds := by
  induction rounds generalizing task m d with
  | zero =>
    exact ensures_pure ⟨List.forall_mem_nil _, d, [], h.shares, h.history,
      (List.append_nil _).symm⟩
  | succ rounds ih =>
    refine Ensures.bind ((receive_works h).mono (fun _ blocked => .inr blocked) fun _ _ _ h => h) ?_
    rintro ks taken m₁ ⟨d₁, standing, front, empty, clock, unblocked⟩
    cases taken with
    | none =>
      refine Ensures.bind ((sleepCurrent_works standing).mono
        (fun s blocked => .inr (unblocked s blocked)) fun _ _ _ h => h) ?_
      rintro ks u m' ⟨d', shares, history, same⟩
      rw [empty rfl]
      refine ensures_pure ⟨List.forall_mem_nil _, d', [], shares, history, ?_⟩
      have nothing : d₁.scheduler.mail id = [] := front.symm.trans (empty rfl)
      rw [same, nothing]
      rfl
    | some x =>
      rw [show d.scheduler.mail id = x :: d₁.scheduler.mail id from front]
      have acts := task.act_works x standing (by rw [clock]; omega)
      refine Ensures.bind (acts.mono ?_ fun _ _ _ h => h) ?_
      · rintro s (⟨stop, overruns⟩ | blocked)
        · exact .inl ⟨stop, x, List.mem_cons_self, overruns⟩
        · exact .inr (unblocked s blocked)
      · rintro ks task' m₂ ⟨harmless, d₂, sent, worked, others⟩
        have placed := worked.places
        rw [clock] at placed
        -- the rest of the loop begins with what the main task has sent to itself behind the others
        refine (ih task' worked.toStanding (by omega)).mono ?_ ?_
        · rintro s (⟨stop, y, hy, overruns⟩ | blocked)
          · refine .inl ⟨stop, y, List.mem_cons_of_mem _ ?_, overruns⟩
            rw [worked.mail, List.take_append] at hy
            rcases List.mem_append.mp hy with hold | hnew
            · exact hold
            · exact absurd overruns (others y (List.mem_of_mem_take hnew))
          · exact .inr (unblocked s (worked.unblocked s blocked))
        · rintro later pause m' ⟨safe, d', own, shares, history, left⟩
          refine ⟨List.forall_mem_cons.mpr ⟨harmless, fun y hy => safe y ?_⟩, d', sent ++ own,
            shares, history, ?_⟩
          · rw [worked.mail, List.take_append]
            exact List.mem_append_left _ hy
          · rw [left, worked.mail, List.append_assoc]
            rfl

/-- **The main task begins**: the cursor timer is set, and the messages stay where they are. -/
theorem MainTask.start_works (terminal : TaskId) (h : Standing id m d)
    (tick : d.clock.now + blinkTicks < Word.bound) (place : d.clock.nextSeq + 1 < Word.bound) :
    Ensures (MainTask.start terminal) m m.Blocks fun _ _ m' => ∃ d', Worked id m d 1 [] m' d' := by
  have ticked : Ensures currentTick m m.Blocks fun _ now m₁ => now = d.clock.now ∧
      Shares m₁ d ∧ Unblocked m m₁ := by
    refine (Operation.currentTick.ends h.shares (ends_pure trivial)).mono (fun _ h => h) ?_
    rintro ks now m₁ ⟨unblocked, change, d₁, shares, done⟩
    cases done
    exact ⟨rfl, shares, unblocked⟩
  have begins : MainTask.start terminal = currentTick >>= fun now =>
      (Call.rearm now).perform >>= fun _ => pure ⟨terminal, .fresh⟩ := by
    unfold MainTask.start Call.perform
    simp only [bind_assoc]
  rw [begins]
  refine Ensures.bind ticked ?_
  rintro ks now m₁ ⟨rfl, shares, unblocked⟩
  have told : Worked id m d 0 [] m₁ d := { h.worked with shares := shares, unblocked := unblocked }
  refine Ensures.bind ((Call.works (.rearm d.clock.now) told.toStanding fun _ => place).mono ?_
    fun _ _ _ h => h) ?_
  · rintro s (⟨-, timeout, same, late⟩ | blocked)
    · obtain rfl := Call.rearm.inj same
      omega
    · exact unblocked s blocked
  · rintro ks u m' ⟨-, d', set⟩
    exact ensures_pure ⟨d', told.trans set⟩

theorem runMain_works (terminal : TaskId) (rounds : Nat) (h : Standing id m d)
    (tick : d.clock.now + blinkTicks < Word.bound)
    (places : d.clock.nextSeq + rounds + 1 < Word.bound) :
    Ensures (runMain terminal rounds) m
      (fun s => s = .addOverflow ∧ (∃ x ∈ (d.scheduler.mail id).take rounds, Overruns x) ∨
        m.Blocks s)
      fun _ _ m' => (∀ x ∈ (d.scheduler.mail id).take rounds, ¬ Overruns x) ∧
        ∃ d' own, Shares m' d' ∧ (∃ log, History log d'.scheduler) ∧
          d'.scheduler.mail id = (d.scheduler.mail id ++ own).drop rounds := by
  refine Ensures.bind ((MainTask.start_works terminal h tick (by omega)).mono
    (fun _ blocked => .inr blocked) fun _ _ _ h => h) ?_
  rintro ks task m₁ ⟨d₁, begun⟩
  have placed := begun.places
  have same : d₁.scheduler.mail id = d.scheduler.mail id := begun.mail.trans (List.append_nil _)
  rw [← same]
  refine (runFor_main rounds task begun.toStanding (by omega)).mono ?_ fun _ _ _ h => h
  rintro s (overrun | blocked)
  · exact .inl overrun
  · exact .inr (begun.unblocked s blocked)

/-- **Whatever the main task goes on with between two calls**, and whatever has happened in the
    meantime, it stops only at a call that overruns. -/
theorem step_main (loop : Loop MainState) (history : ∃ log, History log d.scheduler)
    (shares : Shares m d) (place : d.clock.nextSeq + 1 < Word.bound) :
    Ensures (loop.step MainState.resume) m
      (fun s => s = .addOverflow ∧ (∃ call ∈ loop.calls.head?, call.Overruns) ∨ m.Blocks s)
      fun _ _ m' => Unblocked m m' := by
  obtain ⟨log, history⟩ := history
  obtain ⟨state, calls⟩ := loop
  cases calls with
  | cons call rest =>
    refine Ensures.bind ((call.ends shares fun _ => place).mono ?_ fun _ _ _ h => h) ?_
    · rintro s (⟨stop, overruns⟩ | blocked)
      · exact .inl ⟨stop, call, rfl, overruns⟩
      · exact .inr blocked
    · rintro ks u m' ⟨-, unblocked⟩
      exact ensures_pure unblocked
  | nil =>
    show Ensures state.resume m _ _
    unfold MainState.resume
    split
    · exact ((readScancode_ends shares.calm).mono (fun _ blocked => .inr blocked)
        fun _ _ _ h => h).bind fun _ _ _ unblocked => ensures_pure unblocked
    · have answers : (Operation.waitStep.own .heap m.cr3 d).Ends Stop.Never fun _ => True :=
        ends_bind (waitStep_ends history.sound) fun _ _ => ends_pure trivial
      exact ((Operation.waitStep.ends shares answers).mono (fun _ blocked => .inr blocked)
        fun _ _ _ h => h).bind fun _ _ _ h => ensures_pure h.1

/-- **What a message can do to the main task.**  Let the main task begin as the current task, after
    whatever has happened, with whatever messages in its inbox, and let it go on for so many
    messages.

    1. Where neither room nor the serial line can be wanting, it goes through exactly if none of
       these messages overruns.
    2. On any machine it stops only at a message that overruns, because a sum is no word, or for
       want of room or of the serial line.
    3. If it goes through, it has acted on one message after the other as long as there were any,
       those that it has sent to itself the last, and the scheduler has come to nothing that it
       could not come to otherwise.
    4. It need not go on undisturbed: whatever happens between two of its calls, it stops only at a
       call that overruns, and there is such a call only for a message that overruns, and for each
       of them. -/
theorem main_stops_at_overrun {log : List (Request × Response)} (terminal : TaskId) (rounds : Nat)
    (history : History log d.scheduler) (shares : Shares m d)
    (current : d.scheduler.currentId = .ok id) (tick : d.clock.now < 0x8000_0000_0000_0000)
    (numbers : d.clock.nextSeq + rounds + 1 < Word.bound) :
    (m.memory = none → m.uart.locked = false →
      ((∃ p, (runMain terminal rounds m).outcome = .ok p) ↔
        ∀ x ∈ (d.scheduler.mail id).take rounds, ¬ Overruns x)) ∧
    (∀ stop, (runMain terminal rounds m).outcome = .error stop →
      stop = .addOverflow ∧ (∃ x ∈ (d.scheduler.mail id).take rounds, Overruns x) ∨
        m.Blocks stop) ∧
    (∀ pause m', (runMain terminal rounds m).outcome = .ok (pause, m') →
      ∃ d' own, Shares m' d' ∧ (∃ log, History log d'.scheduler) ∧
        d'.scheduler.mail id = (d.scheduler.mail id ++ own).drop rounds) ∧
    (∀ loop m₁ d₁, (∃ log, History log d₁.scheduler) → Shares m₁ d₁ →
      d₁.clock.nextSeq + 1 < Word.bound → ∀ stop,
        (Loop.step MainState.resume loop m₁).outcome = .error stop →
          stop = .addOverflow ∧ (∃ call ∈ loop.calls.head?, call.Overruns) ∨ m₁.Blocks stop) ∧
    (∀ (p : MainState) x, (∃ call ∈ (p.heard (some x)).calls, call.Overruns) ↔ Overruns x) ∧
    ∀ (p : MainState) byte, ∀ call ∈ (p.found byte).calls, ¬ call.Overruns := by
  have word : Word.bound = 0x1_0000_0000_0000_0000 := rfl
  have ticks : blinkTicks = 50 := rfl
  obtain ⟨-, ends⟩ := runMain_works terminal rounds ⟨shares, ⟨log, history⟩, current⟩ (by omega)
    numbers
  have stops : ∀ stop, (runMain terminal rounds m).outcome = .error stop →
      stop = .addOverflow ∧ (∃ x ∈ (d.scheduler.mail id).take rounds, Overruns x) ∨
        m.Blocks stop := by
    intro stop stopped
    rwa [Run.Ends, stopped] at ends
  refine ⟨fun unlimited free => ⟨?_, fun safe => ?_⟩, stops, fun pause m' done => ?_, ?_, ?_, ?_⟩
  · rintro ⟨p, done⟩
    exact (ends.of_ok done).1
  · rcases done : (runMain terminal rounds m).outcome with stop | p
    · rcases stops stop done with ⟨-, x, hx, overruns⟩ | blocked
      · exact absurd overruns (safe x hx)
      · exact absurd blocked (Machine.not_blocks unlimited free)
    · exact ⟨p, rfl⟩
  · exact (ends.of_ok done).2
  · intro loop m₁ d₁ history shares place stop stopped
    have stepped := (step_main loop history shares place).ends
    rwa [Run.Ends, stopped] at stepped
  · intro p x
    constructor
    · rintro ⟨call, hcall, overruns⟩
      exact MainTask.overruns_of_call hcall overruns
    · exact p.task.call_of_overruns
  · rintro p byte call hcall ⟨timeout, same, -⟩
    cases byte with
    | none => cases hcall
    | some byte =>
      obtain ⟨e, rfl⟩ := of_mem_keyCalls hcall
      cases same

/-- A layer of a task that does not exist, a timeout of the cursor at the last tick that leaves
    room for the next one, one of another timer at the last tick of all, and an acknowledgement
    that nobody waits for: the main task goes through. -/
theorem main_stops_at_overrun_not_at_odd_mail : ∃ mail m d p,
    mail = [.layer ⟨.draw, 3, 0, -1, 0, 0, ⟨99⟩⟩,
      .timerTimeout (Word.greatest - blinkTicks) cursorTimer, .timerTimeout Word.greatest 2,
      .layerFinish 7] ∧
    Shares m d ∧ d.scheduler.mail Config.mainTask = mail ∧ (runMain ⟨3⟩ 6 m).outcome = .ok p := by
  obtain ⟨mail, hmail⟩ : ∃ mail : List Message, mail = [.layer ⟨.draw, 3, 0, -1, 0, 0, ⟨99⟩⟩,
      .timerTimeout (Word.greatest - blinkTicks) cursorTimer, .timerTimeout Word.greatest 2,
      .layerFinish 7] := ⟨_, rfl⟩
  have safe : ∀ x ∈ mail.take 6, ¬ Overruns x := by
    rw [hmail]
    decide +kernel
  have created : (create .standard .heap).outcome = .ok (.ok _) := rfl
  have history := (History.created created).performAll
    (show (Dispatcher.performAll ⟨_, .create .standard⟩ [.spawn .idle 0 3 .heap,
      .send ⟨1⟩ (.layer ⟨.draw, 3, 0, -1, 0, 0, ⟨99⟩⟩),
      .send ⟨1⟩ (.timerTimeout (Word.greatest - blinkTicks) cursorTimer),
      .send ⟨1⟩ (.timerTimeout Word.greatest 2), .send ⟨1⟩ (.layerFinish 7)]).outcome =
        .ok (_, _) from rfl)
  obtain ⟨d, history, current, tick, numbers, waits⟩ : ∃ d : Dispatcher,
      (∃ log, History log d.scheduler) ∧ d.scheduler.currentId = .ok Config.mainTask ∧
      d.clock.now < 0x8000_0000_0000_0000 ∧ d.clock.nextSeq + 6 + 1 < Word.bound ∧
      d.scheduler.mail Config.mainTask = mail :=
    ⟨_, ⟨_, history⟩, rfl, by decide, by decide, hmail.symm⟩
  obtain ⟨log, history⟩ := history
  obtain ⟨through, -⟩ := main_stops_at_overrun ⟨3⟩ 6 history (shares_sharing d) current tick numbers
  rw [← waits] at safe
  obtain ⟨p, done⟩ := (through rfl rfl).mpr safe
  exact ⟨mail, sharing d, d, p, hmail, shares_sharing d, waits, done⟩

/-- A timeout of the cursor at the last tick of all stops the main task, and the message behind it
    is not heard. -/
theorem main_stopped_by_last_tick : ∃ log m d, History log d.scheduler ∧ Shares m d ∧
    d.scheduler.currentId = .ok Config.mainTask ∧ d.clock.now = 0 ∧ m.memory = none ∧
    m.uart.locked = false ∧ d.scheduler.mail Config.mainTask =
      [.timerTimeout Word.greatest cursorTimer, .layerFinish 7] ∧
    (runMain ⟨3⟩ 2 m).outcome = .error .addOverflow := by
  have created : (create .standard .heap).outcome = .ok (.ok _) := rfl
  have history := (History.created created).performAll
    (show (Dispatcher.performAll ⟨_, .create .standard⟩ [.spawn .idle 0 3 .heap,
      .send ⟨1⟩ (.timerTimeout Word.greatest cursorTimer),
      .send ⟨1⟩ (.layerFinish 7)]).outcome = .ok (_, _) from rfl)
  obtain ⟨d, history, current, now, mail, stopped⟩ : ∃ d : Dispatcher,
      (∃ log, History log d.scheduler) ∧ d.scheduler.currentId = .ok Config.mainTask ∧
      d.clock.now = 0 ∧ d.scheduler.mail Config.mainTask = _ ∧
      (runMain ⟨3⟩ 2 (sharing d)).Ends (· = .addOverflow) fun _ => False :=
    ⟨_, ⟨_, history⟩, rfl, rfl, rfl, by decide +kernel⟩
  obtain ⟨log, history⟩ := history
  refine ⟨log, sharing d, d, history, shares_sharing d, current, now, rfl, rfl, mail, ?_⟩
  rcases done : (runMain ⟨3⟩ 2 (sharing d)).outcome with stop | p
  · rw [Run.Ends, done] at stopped
    exact congrArg Except.error stopped
  · rw [Run.Ends, done] at stopped
    exact stopped.elim

end Kernel

end PreemptiveKernel
