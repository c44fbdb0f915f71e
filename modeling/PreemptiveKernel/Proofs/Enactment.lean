/-
  The acts that a request consists of.

  Everything that is asked of a dispatcher comes down to a few acts of its scheduler.
  `Enacted` is the account: for a request and the response to it, the acts that have happened,
  in order.  Who gets which message, whose turn ends, who goes to which level and who gets a
  place to begin is read off the acts, and no proof about requests opens an operation again.

  Messages come from tasks, from devices and from the clock.  In each case they are letters
  (`Dispatcher.letters`) that are sent one after the other (`Scheduler.sendAll`), and every
  letter that is accepted is one act (`Carried`).

  A request can stop only in the arithmetic on machine words (`perform_enacted`): when numbers
  run out, when a stack lies at the end of memory, or when the clock does.
-/
import PreemptiveKernel.Dispatcher
import PreemptiveKernel.Proofs.Creation

namespace PreemptiveKernel

open Run

/-! ## Letters -/

/-- A message and the task that it is addressed to. -/
structure Letter where
  receiver : TaskId
  message : Message
  deriving DecidableEq, Repr

/-- What the receiver of a timeout is sent. -/
def Timeout.message (t : Timeout) : Message :=
  .timerTimeout t.due t.value

namespace Clock

/-- The timeouts that the next tick finds due, in the order of service. -/
def fires (c : Clock) : List Timeout :=
  (serve (c.now + 1) c.alarms).fired

/-- Whether the next tick finds the end of a quantum due. -/
def expires (c : Clock) : Bool :=
  (serve (c.now + 1) c.alarms).expired

/-- What the next tick sends. -/
def letters (c : Clock) : List Letter :=
  c.fires.map fun t => ⟨c.config.receiver, t.message⟩

end Clock

/-- The letters that a request sends, in order. -/
def Dispatcher.letters (d : Dispatcher) : Request → List Letter
  | .send id m => [⟨id, m⟩]
  | .deviceInterrupt receiver device => [⟨receiver, .deviceInterrupt device⟩]
  | .tick | .timerInterrupt => d.clock.letters
  | _ => []

namespace Scheduler

variable {s s' : Scheduler}

/-- Sends letters, one after the other, and tells which of them were accepted. -/
def sendAll (s : Scheduler) : List Letter → Run Effect (List Letter × Scheduler)
  | [] => return ([], s)
  | x :: rest => do
    let (sent, s) ← s.send x.receiver x.message
    let (accepted, s) ← s.sendAll rest
    match sent with
    | .ok () => return (x :: accepted, s)
    | .error _ => return (accepted, s)

/-- The letters that are accepted when these are sent. -/
def accepted (s : Scheduler) (letters : List Letter) : List Letter :=
  match (s.sendAll letters).outcome with
  | .ok p => p.1
  | .error _ => []

/-- The letters that an act puts into inboxes. -/
def Act.letters : Act → List Letter
  | .post id m => [⟨id, m⟩]
  | .wake id _ mail => mail.map (Letter.mk id)
  | _ => []

/-- The acts put the letters into inboxes, each accepted letter by an act of its own. -/
structure Carried (s : Scheduler) (letters : List Letter) (acts : List Act) : Prop where
  single : ∀ a ∈ acts, ∃ x, a.letters = [x]
  accepted : acts.flatMap Act.letters = s.accepted letters

/-- An act that delivers a letter posts it or wakes the receiver with it. -/
theorem Act.of_letters_eq_singleton {a : Act} {x : Letter} (h : a.letters = [x]) :
    a = .post x.receiver x.message ∨ ∃ l, a = .wake x.receiver l [x.message] := by
  cases a with
  | post id m =>
    obtain rfl := List.singleton_inj.mp h
    exact .inl rfl
  | wake id l mail =>
    obtain ⟨m, rfl, rfl⟩ := List.map_eq_singleton_iff.mp h
    exact .inr ⟨l, rfl⟩
  | _ => nomatch h

/-- Deliveries create no task. -/
theorem Step.known_of_letters {a : Act} {x : Letter} (h : Step s a s') (hx : a.letters = [x])
    (id : TaskId) : (s'.tasks.get? id).isSome = (s.tasks.get? id).isSome := by
  rw [h.get?_eq]
  rcases Act.of_letters_eq_singleton hx with rfl | ⟨l, rfl⟩
  · simp only [Act.revise]
    split <;> simp
  · simp only [Act.revise]
    split <;> simp

/-- Of the letters, those to existing tasks have been accepted, each by an act of its own. -/
structure Sent (s : Scheduler) (letters accepted : List Letter) (s' : Scheduler) : Prop where
  known : accepted = letters.filter fun x => (s.tasks.get? x.receiver).isSome
  carried : ∃ acts, Steps s acts s' ∧ (∀ a ∈ acts, ∃ x, a.letters = [x]) ∧
    acts.flatMap Act.letters = accepted

theorem Sent.refused {x : Letter} {rest accepted : List Letter}
    (missing : s.tasks.get? x.receiver = none) (h : Sent s rest accepted s') :
    Sent s (x :: rest) accepted s' := by
  refine ⟨?_, h.carried⟩
  rw [List.filter_cons_of_neg (by rw [missing]; exact Bool.false_ne_true)]
  exact h.known

theorem Sent.delivered {s₁ : Scheduler} {a : Act} {t : Task} {x : Letter}
    {rest accepted : List Letter} (known : s.tasks.get? x.receiver = some t)
    (step : Step s a s₁) (hx : a.letters = [x]) (h : Sent s₁ rest accepted s') :
    Sent s (x :: rest) (x :: accepted) s' := by
  obtain ⟨hknown, acts, steps, single, told⟩ := h
  have hreceiver : (s.tasks.get? x.receiver).isSome = true := by
    rw [known]
    rfl
  refine ⟨?_, a :: acts, .cons step steps, ?_, ?_⟩
  · -- the delivery leaves it open to the others whether they find their receivers
    simp only [step.known_of_letters hx] at hknown
    rw [List.filter_cons, if_pos hreceiver, ← hknown]
  · intro b hb
    rcases List.mem_cons.mp hb with rfl | hin
    · exact ⟨x, hx⟩
    · exact single b hin
  · rw [List.flatMap_cons, hx, told]
    rfl

/-- **Sending letters** comes to an end.  Those to existing tasks are accepted, and nothing
    but their deliveries happens. -/
theorem sendAll_ends (s : Scheduler) (letters : List Letter) :
    (s.sendAll letters).Ends Stop.Never fun p => Sent s letters p.1 p.2 := by
  induction letters generalizing s with
  | nil => exact ends_pure ⟨rfl, [], .nil, by simp, rfl⟩
  | cons x rest ih =>
    unfold sendAll
    refine ends_bind (send_ends s x.receiver x.message) ?_
    rintro ⟨sent, s₁⟩ outcome
    refine ends_bind (ih s₁) ?_
    rintro ⟨accepted, s₂⟩ later
    cases outcome with
    | unknown missing => exact ends_pure (later.refused missing)
    | posted known step => exact ends_pure (later.delivered known step rfl)
    | woken known step => exact ends_pure (later.delivered known step rfl)

/-- Letters are accepted exactly if their receivers exist. -/
theorem accepted_eq_filter (s : Scheduler) (letters : List Letter) :
    s.accepted letters = letters.filter fun x => (s.tasks.get? x.receiver).isSome := by
  obtain ⟨p, done, sent⟩ := ends_never_iff.mp (sendAll_ends s letters)
  unfold accepted
  rw [done]
  exact sent.known

/-- What carries letters posts one of them or wakes its receiver with it. -/
theorem Carried.of_mem {letters : List Letter} {acts : List Act} {a : Act}
    (h : Carried s letters acts) (ha : a ∈ acts) : ∃ x ∈ letters,
      a = .post x.receiver x.message ∨ ∃ l, a = .wake x.receiver l [x.message] := by
  obtain ⟨x, hx⟩ := h.single a ha
  have haccepted : x ∈ s.accepted letters := by
    rw [← h.accepted]
    exact List.mem_flatMap.mpr ⟨a, ha, hx ▸ List.mem_cons_self⟩
  rw [accepted_eq_filter] at haccepted
  exact ⟨x, (List.mem_filter.mp haccepted).1, Act.of_letters_eq_singleton hx⟩

theorem sendAll_carried (s : Scheduler) (letters : List Letter) :
    (s.sendAll letters).Ends Stop.Never fun p =>
      ∃ acts, Steps s acts p.2 ∧ Carried s letters acts := by
  refine (sendAll_ends s letters).imp ?_
  rintro ⟨accepted, s'⟩ ⟨known, acts, steps, single, told⟩
  refine ⟨acts, steps, single, ?_⟩
  rw [told, known, accepted_eq_filter]

/-- A message that is sent is a letter. -/
theorem send_carried (s : Scheduler) (x : Letter) :
    (s.send x.receiver x.message).Ends Stop.Never fun p =>
      ∃ acts, Steps s acts p.2 ∧ Carried s [x] acts := by
  refine (send_ends s _ _).with_outcome.imp ?_
  rintro ⟨answer, s'⟩ ⟨done, -⟩
  have hall : ∃ accepted, (s.sendAll [x]).outcome = .ok (accepted, s') := by
    unfold sendAll sendAll
    rw [outcome_bind, done]
    cases answer with
    | ok u => exact ⟨_, rfl⟩
    | error error => exact ⟨_, rfl⟩
  obtain ⟨accepted, hall⟩ := hall
  exact (sendAll_carried s [x]).of_ok hall

end Scheduler

open Scheduler

/-! ## The clock and the devices -/

/-- Timeouts are delivered as letters to the receiver. -/
theorem Clock.outcome_deliver (receiver : TaskId) (timeouts : List Timeout) (s : Scheduler) :
    (Clock.deliver receiver timeouts s).outcome =
      (s.sendAll (timeouts.map fun t => ⟨receiver, t.message⟩)).outcome.map Prod.snd := by
  induction timeouts generalizing s with
  | nil => rfl
  | cons t rest ih =>
    unfold Clock.deliver
    rw [List.map_cons]
    unfold sendAll
    rw [outcome_bind, outcome_bind]
    show (s.send receiver t.message).outcome.bind _ = _
    rcases (s.send receiver t.message).outcome with stop | ⟨sent, s₁⟩
    · rfl
    have hlater := ih s₁
    cases sent with
    | ok u =>
      show (Clock.deliver receiver rest s₁).outcome = (_ >>= _ : Run _ _).outcome.map _
      rw [hlater, outcome_bind]
      rcases (s₁.sendAll _).outcome with stop | ⟨accepted, s₂⟩
      · rfl
      · rfl
    | error error =>
      show (Effect.note _ _ _ >>= fun _ => Clock.deliver receiver rest s₁).outcome =
        (_ >>= _ : Run _ _).outcome.map _
      rw [outcome_bind, Effect.outcome_note, outcome_bind]
      show (Clock.deliver receiver rest s₁).outcome = _
      rw [hlater]
      rcases (s₁.sendAll _).outcome with stop | ⟨accepted, s₂⟩
      · rfl
      · rfl

theorem Clock.deliver_carried (c : Clock) (s : Scheduler) :
    (Clock.deliver c.config.receiver c.fires s).Ends Stop.Never fun s' =>
      ∃ acts, Steps s acts s' ∧ Carried s c.letters acts := by
  obtain ⟨p, done, hp⟩ := ends_never_iff.mp (sendAll_carried s c.letters)
  refine ends_of_ok (a := p.2) ?_ hp
  rw [Clock.outcome_deliver]
  show (s.sendAll c.letters).outcome.map Prod.snd = _
  rw [done]
  rfl

/-- Setting an alarm can only run out of numbers. -/
theorem Clock.push_ends (c : Clock) (due : Nat) (kind : AlarmKind) :
    (ofExcept (c.push due kind) : Run Effect Clock).Ends Stop.IsOverflow fun _ => True := by
  unfold Clock.push
  rw [ofExcept_bind]
  exact ends_bind (Word.add_ends _ _) fun _ _ => trivial

theorem Clock.setQuantum_ends (c : Clock) :
    (ofExcept c.setQuantum : Run Effect Clock).Ends Stop.IsOverflow fun _ => True := by
  unfold Clock.setQuantum
  rw [ofExcept_bind]
  exact ends_bind (Word.add_ends _ _) fun _ _ => Clock.push_ends _ _ _

theorem Clock.arm_ends (c : Clock) : c.arm.Ends Stop.IsOverflow fun _ => True := by
  unfold Clock.arm
  split
  · exact ends_bind_of_ok (a := ()) rfl trivial
  · exact Clock.setQuantum_ends c

/-- **A tick** tells whether a quantum has ended, and does nothing to the scheduler but deliver
    what it sends. -/
theorem Clock.tick_carried (c : Clock) (s : Scheduler) :
    (c.tick s).Ends Stop.IsOverflow fun p =>
      p.1 = c.expires ∧ ∃ acts, Steps s acts p.2.2 ∧ Carried s c.letters acts := by
  unfold Clock.tick
  refine ends_bind (Word.add_ends _ _) ?_
  rintro now rfl
  refine ends_bind (c.deliver_carried s).of_never ?_
  intro s₁ carried
  have hexpires : (serve (c.now + 1) c.alarms).expired = c.expires := rfl
  dsimp only
  rw [hexpires]
  split
  · rename_i ended
    refine ends_bind (Clock.setQuantum_ends _) fun _ _ => ?_
    exact ends_pure ⟨ended.symm, carried⟩
  · rename_i running
    exact ends_pure ⟨(Bool.not_eq_true _ ▸ running).symm, carried⟩

/-- **A device interrupt** is a letter. -/
theorem Interrupt.onDevice_carried (s : Scheduler) (receiver : TaskId) (device : Device) :
    (Interrupt.onDevice s receiver device).Ends Stop.Never fun s' =>
      ∃ acts, Steps s acts s' ∧ Carried s [⟨receiver, .deviceInterrupt device⟩] acts := by
  unfold Interrupt.onDevice
  refine ends_bind (send_carried s ⟨receiver, .deviceInterrupt device⟩) ?_
  rintro ⟨sent, s₁⟩ carried
  cases sent with
  | ok u => exact ends_bind_of_ok (a := ()) rfl (ends_pure carried)
  | error error =>
    refine ends_bind_of_ok (a := ()) rfl ?_
    exact ends_bind_of_ok (a := ()) rfl (ends_pure carried)

/-! ## Requests -/

/-- The requests that a scheduler may refuse without anything being sent. -/
def Request.Refusable : Request → Prop
  | .prepare .. | .spawn .. | .sleep _ | .wakeup .. | .changeLevel .. => True
  | .receive _ | .drain _ => True
  | _ => False

/-- **The acts of a request**, by the response to it. -/
inductive Enacted (d : Dispatcher) : Request → Response → List Act → Prop
  | refused {r : Request} {error : KernelError} (asked : r.Refusable) :
      Enacted d r (.refused error) []
  | enrolled {id : TaskId} : Enacted d .newTask (.task id)
      [.enroll (.create id d.scheduler.config.stackBytes)]
  | equipped {id : TaskId} {t prepared : Task} {entry : EntryPoint} {data : Int64}
      {allocate : StackAllocator} {cr3 : UInt64} (known : d.scheduler.tasks.get? id = some t)
      (done : (t.prepare entry data allocate cr3).outcome = .ok (.ok (), prepared)) :
      Enacted d (.prepare id entry data allocate cr3) (.task prepared.id)
        [.equip id prepared.context prepared.stack]
  | spawned {t : Task} {l : Level} {entry : EntryPoint} {data : Int64} {n : Nat}
      {allocate : StackAllocator} {cr3 : UInt64} (level : l.val = n)
      (done : ((Task.create t.id d.scheduler.config.stackBytes).prepare entry data allocate
        cr3).outcome = .ok (.ok (), t)) :
      Enacted d (.spawn entry data n allocate cr3) (.task t.id) [.enroll t, .wake t.id l []]
  | stayed {id : TaskId} : Enacted d (.sleep id) (.change none) []
  | dismissed {id : TaskId} : Enacted d (.sleep id) (.change none) [.dismiss id]
  | retired {change : Handoff} :
      Enacted d (.sleep change.leaving) (.change (some change)) [.retire change]
  | woken {id : TaskId} {level : Option Nat} {l : Level} :
      Enacted d (.wakeup id level) .done [.wake id l []]
  | moved {r : Request} {id : TaskId} {l : Level} {a : Act}
      (asked : r = .changeLevel id l.val ∨ r = .wakeup id (some l.val))
      (act : a = .relevel id l ∨ a = .shift id l ∨ a = .transfer id l) :
      Enacted d r .done [a]
  | unmoved {r : Request} {id : TaskId} (asked : (∃ n, r = .changeLevel id n) ∨
      ∃ level, r = .wakeup id level) : Enacted d r .done []
  | yielded {change : Handoff} :
      Enacted d .switch (.change change.effective) [.yield change]
  | received {id : TaskId} {m : Option Message} :
      Enacted d (.receive id) (.message m) [.take id m.toList]
  | receivedCurrent {id : TaskId} {m : Option Message}
      (current : d.scheduler.currentId = .ok id) :
      Enacted d .receiveCurrent (.message m) [.take id m.toList]
  | drained {id : TaskId} {ms : List Message} :
      Enacted d (.drain id) (.messages ms) [.take id ms]
  | found {id : TaskId} {m : Message} (current : d.scheduler.currentId = .ok id) :
      Enacted d .wait (.waited (some m) none) [.take id [m]]
  | idled : Enacted d .wait (.waited none none) []
  | waited {t : Task} {change : Handoff}
      (known : d.scheduler.tasks.get? change.leaving = some t)
      (nothing : t.inbox.messages = []) :
      Enacted d .wait (.waited none (some change)) [.retire change]
  | timed {due : Nat} {value : Int32} : Enacted d (.addTimer due value) .done []
  | armed : Enacted d .arm .done []
  | sent {id : TaskId} {m : Message} {answer : Answer Unit} {acts : List Act}
      (carried : Carried d.scheduler [⟨id, m⟩] acts) :
      Enacted d (.send id m) (.ofAnswer (fun _ => .done) answer) acts
  | notified {receiver : TaskId} {device : Device} {acts : List Act}
      (carried : Carried d.scheduler [⟨receiver, .deviceInterrupt device⟩] acts) :
      Enacted d (.deviceInterrupt receiver device) .done acts
  | ticked {acts : List Act} (carried : Carried d.scheduler d.clock.letters acts) :
      Enacted d .tick (.expired d.clock.expires) acts
  | interrupted {acts : List Act} (running : d.clock.expires = false)
      (carried : Carried d.scheduler d.clock.letters acts) :
      Enacted d .timerInterrupt (.change none) acts
  | preempted {change : Handoff} {acts : List Act} (ended : d.clock.expires = true)
      (carried : Carried d.scheduler d.clock.letters acts) :
      Enacted d .timerInterrupt (.change change.effective) (acts ++ [.yield change])

/-- The request has been enacted, and this has led from one scheduler to the other. -/
def Enacts (d : Dispatcher) (r : Request) (response : Response) (s' : Scheduler) : Prop :=
  ∃ acts, Steps d.scheduler acts s' ∧ Enacted d r response acts

section Outcomes

variable {d : Dispatcher} {s' : Scheduler}

theorem Scheduler.PrepareOutcome.enacts {id : TaskId} {entry : EntryPoint} {data : Int64}
    {allocate : StackAllocator} {cr3 : UInt64} {answer : Answer TaskId}
    (h : PrepareOutcome d.scheduler id entry data allocate cr3 answer s') :
    Enacts d (.prepare id entry data allocate cr3) (.ofAnswer .task answer) s' := by
  cases h with
  | unknown missing => exact ⟨[], .nil, .refused trivial⟩
  | refused known refusal => exact ⟨[], .nil, .refused trivial⟩
  | @prepared t prepared known done =>
    have hstep : Step d.scheduler (.equip id prepared.context prepared.stack)
        (d.scheduler.modifyTask id fun _ => prepared) :=
      .equip known (Task.eq_of_prepare done)
    exact ⟨_, hstep.single, .equipped known done⟩

theorem Scheduler.SpawnOutcome.enacts {entry : EntryPoint} {data : Int64} {n : Nat}
    {allocate : StackAllocator} {cr3 : UInt64} {answer : Answer TaskId}
    (h : SpawnOutcome d.scheduler entry data n allocate cr3 answer s') :
    Enacts d (.spawn entry data n allocate cr3) (.ofAnswer .task answer) s' := by
  cases h with
  | invalid above => exact ⟨[], .nil, .refused trivial⟩
  | refused valid refusal => exact ⟨[], .nil, .refused trivial⟩
  | spawned level done steps => exact ⟨_, steps, .spawned level done⟩

theorem Scheduler.SleepOutcome.enacts {id : TaskId} {answer : Answer (Option Handoff)}
    (h : SleepOutcome d.scheduler id answer s') :
    Enacts d (.sleep id) (.ofAnswer .change answer) s' := by
  cases h with
  | unknown missing => exact ⟨[], .nil, .refused trivial⟩
  | kept known why => exact ⟨[], .nil, .stayed⟩
  | retired known wakeful current leaving step =>
    subst leaving
    exact ⟨_, step.single, .retired⟩
  | dismissed known wakeful other step => exact ⟨_, step.single, .dismissed⟩

theorem Scheduler.MoveOutcome.enacts {r : Request} {id : TaskId} {l : Level}
    {answer : Answer Unit}
    (asked : r = .changeLevel id l.val ∨ r = .wakeup id (some l.val))
    (h : MoveOutcome d.scheduler id l answer s') :
    Enacts d r (.ofAnswer (fun _ => .done) answer) s' := by
  cases h with
  | unknown missing =>
    refine ⟨[], .nil, .refused ?_⟩
    rcases asked with rfl | rfl
    · trivial
    · trivial
  | kept known why =>
    have hasked : (∃ n, r = .changeLevel id n) ∨ ∃ level, r = .wakeup id level := by
      rcases asked with rfl | rfl
      · exact .inl ⟨_, rfl⟩
      · exact .inr ⟨_, rfl⟩
    exact ⟨[], .nil, .unmoved hasked⟩
  | releveled known step => exact ⟨_, step.single, .moved asked (.inl rfl)⟩
  | shifted known current step => exact ⟨_, step.single, .moved asked (.inr (.inl rfl))⟩
  | transferred known other step => exact ⟨_, step.single, .moved asked (.inr (.inr rfl))⟩

theorem Scheduler.WakeOutcome.enacts {id : TaskId} {l : Option Level} {answer : Answer Unit}
    (h : WakeOutcome d.scheduler id l answer s') :
    Enacts d (.wakeup id (l.map Fin.val)) (.ofAnswer (fun _ => .done) answer) s' := by
  cases h with
  | unknown missing => exact ⟨[], .nil, .refused trivial⟩
  | kept known ready silent => exact ⟨[], .nil, .unmoved (.inr ⟨_, rfl⟩)⟩
  | moved known ready given move =>
    subst given
    exact move.enacts (.inr rfl)
  | woken known step => exact ⟨_, step.single, .woken⟩

theorem Scheduler.WaitOutcome.enacts {m : Option Message} {change : Option Handoff}
    (h : WaitOutcome d.scheduler m change s') : Enacts d .wait (.waited m change) s' := by
  cases h with
  | took current known step => exact ⟨_, step.single, .found current⟩
  | idled current known nothing => exact ⟨[], .nil, .idled⟩
  | retired current known nothing leaving step =>
    subst leaving
    exact ⟨_, step.single, .waited known nothing⟩

end Outcomes

/-- **A timer interrupt** delivers and, at the end of a quantum, ends the turn of the current
    task as `switchTask` does. -/
theorem Interrupt.onTimer_enacts {d : Dispatcher} (hs : d.scheduler.Sound) :
    (Interrupt.onTimer d.clock d.scheduler).Ends Stop.IsOverflow fun p =>
      Enacts d .timerInterrupt (.change p.1) p.2.2 := by
  unfold Interrupt.onTimer
  refine ends_bind (d.clock.tick_carried d.scheduler) ?_
  rintro ⟨expired, c₁, s₁⟩ ⟨rfl, acts, steps, carried⟩
  refine ends_bind_of_ok (a := ()) rfl ?_
  dsimp only
  split
  · rename_i ended
    refine ends_bind (switchTask_ends (steps.sound hs)).of_never ?_
    rintro ⟨answer, s₂⟩ ⟨change, step, rfl⟩
    have henacts : Enacts d .timerInterrupt (.change change.effective) s₂ :=
      ⟨_, steps.append step.single, .preempted ended carried⟩
    dsimp only
    split
    · exact ends_bind_of_ok (a := ()) rfl (ends_pure henacts)
    · exact ends_pure henacts
  · rename_i running
    exact ends_pure ⟨_, steps, .interrupted (by simpa using running) carried⟩

/-- **Every request to a sound scheduler** is enacted.  Only the arithmetic on machine words can
    stop it. -/
theorem Dispatcher.perform_enacts {d : Dispatcher} (hs : d.scheduler.Sound) (r : Request) :
    (d.perform r).Ends Stop.IsOverflow fun p => Enacts d r p.1 p.2.scheduler := by
  cases r with
  | newTask =>
    refine ends_bind (newTask_ends hs) ?_
    rintro ⟨id, s'⟩ step
    exact ends_pure ⟨_, step.single, .enrolled⟩
  | prepare id entry data allocate cr3 =>
    refine ends_bind (prepareTask_ends hs.keys_nodup id entry data allocate cr3) ?_
    rintro ⟨answer, s'⟩ outcome
    exact ends_pure outcome.enacts
  | spawn entry data level allocate cr3 =>
    refine ends_bind (spawn_ends hs entry data level allocate cr3) ?_
    rintro ⟨answer, s'⟩ outcome
    exact ends_pure outcome.enacts
  | sleep id =>
    refine ends_bind (sleep_ends hs id).of_never ?_
    rintro ⟨answer, s'⟩ outcome
    exact ends_pure outcome.enacts
  | wakeup id level =>
    refine ends_bind (wakeup_ends hs id level).of_never ?_
    rintro ⟨answer, s'⟩ (⟨n, -, -, heq⟩ | ⟨l, rfl, outcome⟩)
    · cases heq
      exact ends_pure ⟨[], .nil, .refused trivial⟩
    · exact ends_pure outcome.enacts
  | changeLevel id level =>
    refine ends_bind (changeLevel_ends hs id level).of_never ?_
    rintro ⟨answer, s'⟩ (⟨-, heq⟩ | ⟨l, rfl, outcome⟩)
    · cases heq
      exact ends_pure ⟨[], .nil, .refused trivial⟩
    · exact ends_pure (outcome.enacts (.inl rfl))
  | switch =>
    refine ends_bind (switchTask_ends hs).of_never ?_
    rintro ⟨answer, s'⟩ ⟨change, step, rfl⟩
    exact ends_pure ⟨_, step.single, .yielded⟩
  | send id m =>
    refine ends_bind (send_carried d.scheduler ⟨id, m⟩).of_never ?_
    rintro ⟨answer, s'⟩ ⟨acts, steps, carried⟩
    exact ends_pure ⟨_, steps, .sent carried⟩
  | receive id =>
    cases known : d.scheduler.tasks.get? id with
    | none =>
      refine ends_of_ok (a := (.refused (.noSuchTask id), d)) ?_
        ⟨[], .nil, .refused trivial⟩
      simp only [perform, receive_of_unknown known]
      rfl
    | some t =>
      refine ends_of_ok (a := (.message t.receive.1, d.withScheduler _)) ?_
        ⟨_, (step_receive known).single, .received⟩
      simp only [perform, receive_of_known known]
      rfl
  | receiveCurrent =>
    obtain ⟨id, rest, head, current⟩ := hs.exists_current
    obtain ⟨t, known, -⟩ := hs.current_known current
    refine ends_bind_of_ok (a := _) (receiveCurrent_of_current current known) ?_
    exact ends_pure ⟨_, (step_receive known).single, .receivedCurrent current⟩
  | drain id =>
    cases known : d.scheduler.tasks.get? id with
    | none =>
      refine ends_of_ok (a := (.refused (.noSuchTask id), d)) ?_
        ⟨[], .nil, .refused trivial⟩
      simp only [perform, drain_of_unknown known]
      rfl
    | some t =>
      refine ends_of_ok (a := (.messages t.inbox.messages, d.withScheduler _)) ?_
        ⟨_, (step_drain known).single, .drained⟩
      simp only [perform, drain_of_known known]
      rfl
  | wait =>
    refine ends_bind (waitStep_ends hs).of_never ?_
    rintro ⟨m, change, s'⟩ outcome
    exact ends_pure outcome.enacts
  | addTimer due value =>
    refine ends_bind (d.clock.push_ends due (.timeout value)) fun _ _ => ?_
    exact ends_pure ⟨[], .nil, .timed⟩
  | arm =>
    refine ends_bind d.clock.arm_ends fun _ _ => ?_
    exact ends_pure ⟨[], .nil, .armed⟩
  | tick =>
    refine ends_bind (d.clock.tick_carried d.scheduler) ?_
    rintro ⟨expired, c', s'⟩ ⟨rfl, acts, steps, carried⟩
    exact ends_pure ⟨_, steps, .ticked carried⟩
  | timerInterrupt =>
    refine ends_bind (Interrupt.onTimer_enacts hs) ?_
    rintro ⟨answer, c', s'⟩ henacts
    exact ends_pure henacts
  | deviceInterrupt receiver device =>
    refine ends_bind (Interrupt.onDevice_carried d.scheduler receiver device).of_never ?_
    rintro s' ⟨acts, steps, carried⟩
    exact ends_pure ⟨_, steps, .notified carried⟩

end PreemptiveKernel
