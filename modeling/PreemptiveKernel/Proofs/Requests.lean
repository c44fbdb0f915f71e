/-
  What comes of a request.

  A request to a dispatcher ends in steps of its scheduler, and in one of four ways
  (`Performed`).  Most requests are calm: no turn ends and nobody falls asleep.  The turn of
  the current task can end, after whatever a timer interrupt has delivered before.  A task
  other than the current one can fall asleep.  The current task itself can fall asleep,
  because it was told to or because it waited and found its inbox empty.

  In all four the response tells of a handoff exactly if the turn passes to another task.
  Which of them it is shows in the acts that the request consists of (`Enacted.performed`).
-/
import PreemptiveKernel.Proofs.Enactment

namespace PreemptiveKernel

open Run

namespace Scheduler

variable {s s' : Scheduler}

/-! ## Calm acts -/

/-- The task that an act puts to sleep. -/
def Act.lulls : Act → Option TaskId
  | .dismiss id => some id
  | .retire change => some change.leaving
  | _ => none

/-- The act ends no turn and puts nobody to sleep. -/
def Act.Calm (a : Act) : Prop :=
  a.turn = none ∧ a.lulls = none

/-- Calm acts leave the current task alone. -/
theorem Steps.current_kept {acts : List Act} (hs : s.Sound) (h : Steps s acts s')
    (calm : ∀ a ∈ acts, a.Calm) : s'.currentId = s.currentId := by
  induction h with
  | nil => rfl
  | cons first rest ih =>
    rw [ih (first.sound hs) fun a ha => calm a (List.mem_cons_of_mem _ ha)]
    exact first.current_kept hs (calm _ List.mem_cons_self).1

/-- Calm steps from `s` to `s'`. -/
def CalmSteps (s s' : Scheduler) : Prop :=
  ∃ acts, Steps s acts s' ∧ ∀ a ∈ acts, a.Calm

theorem CalmSteps.refl (s : Scheduler) : CalmSteps s s :=
  ⟨[], .nil, by simp⟩

theorem CalmSteps.sound (hs : s.Sound) (h : CalmSteps s s') : s'.Sound := by
  obtain ⟨acts, steps, -⟩ := h
  exact steps.sound hs

theorem CalmSteps.current_kept (hs : s.Sound) (h : CalmSteps s s') :
    s'.currentId = s.currentId := by
  obtain ⟨acts, steps, calm⟩ := h
  exact steps.current_kept hs calm

theorem CalmSteps.main_eq (h : CalmSteps s s') : s'.main = s.main := by
  obtain ⟨acts, steps, -⟩ := h
  exact steps.frame.1

/-- Deliveries are calm. -/
theorem Carried.calm {letters : List Letter} {acts : List Act} (h : Carried s letters acts) :
    ∀ a ∈ acts, a.Calm := by
  intro a ha
  obtain ⟨x, -, rfl | ⟨l, rfl⟩⟩ := h.of_mem ha
  · exact ⟨rfl, rfl⟩
  · exact ⟨rfl, rfl⟩

theorem Carried.calmSteps {letters : List Letter} {acts : List Act}
    (h : Carried s letters acts) (steps : Steps s acts s') : CalmSteps s s' :=
  ⟨acts, steps, h.calm⟩

end Scheduler

open Scheduler

/-! ## Interrupts -/

/-- A tick delivers and does nothing else to the scheduler. -/
theorem Clock.tick_ends (c : Clock) (s : Scheduler) :
    (c.tick s).Ends Stop.IsOverflow fun p => CalmSteps s p.2.2 := by
  refine (c.tick_carried s).imp ?_
  rintro p ⟨-, acts, steps, carried⟩
  exact carried.calmSteps steps

/-- At the end of a quantum, what a timer interrupt comes to is what `switchTask` comes to
    after the tick. -/
theorem Interrupt.outcome_onTimer_of_expired {c c' : Clock} {s s' : Scheduler}
    (h : (c.tick s).outcome = .ok (true, c', s')) :
    (Interrupt.onTimer c s).outcome =
      s'.switchTask.outcome.map fun p => (p.1, c', p.2) := by
  unfold Interrupt.onTimer
  rw [outcome_bind, h]
  show (Effect.ack >>= _).outcome = _
  rw [outcome_bind, Effect.outcome_ack]
  show (s'.switchTask >>= _).outcome = _
  rw [outcome_bind]
  rcases s'.switchTask.outcome with stop | ⟨answer, s''⟩
  · rfl
  · cases answer <;> rfl

/-! ## Requests -/

/-- The handoff that a response tells of. -/
def Response.handoff : Response → Option Handoff
  | .change h | .waited _ h => h
  | _ => none

/-- **What can come of a request**: the response and the state of the scheduler after it. -/
inductive Performed (s : Scheduler) (r : Request) : Response → Scheduler → Prop
  /-- No turn ends and nobody falls asleep. -/
  | calm {response : Response} {s' : Scheduler} (steps : CalmSteps s s')
      (silent : response.handoff = none) : Performed s r response s'
  /-- In the end the turn of the current task is over. -/
  | yielded {response : Response} {change : Handoff} {between s' : Scheduler}
      (asked : r = .switch ∨ r = .timerInterrupt) (steps : CalmSteps s between)
      (last : Step between (.yield change) s') (told : response.handoff = change.effective) :
      Performed s r response s'
  /-- A task other than the current one falls asleep. -/
  | dismissed {id : TaskId} {response : Response} {s' : Scheduler} (asked : r = .sleep id)
      (step : Step s (.dismiss id) s') (silent : response.handoff = none) :
      Performed s r response s'
  /-- The current task is told to sleep. -/
  | retired {change : Handoff} {response : Response} {s' : Scheduler}
      (asked : r = .sleep change.leaving) (step : Step s (.retire change) s')
      (told : response.handoff = some change) : Performed s r response s'
  /-- The current task waits for a message and finds none. -/
  | waited {t : Task} {change : Handoff} {response : Response} {s' : Scheduler}
      (asked : r = .wait) (known : s.tasks.get? change.leaving = some t)
      (nothing : t.inbox.messages = []) (step : Step s (.retire change) s')
      (told : response.handoff = some change) : Performed s r response s'

variable {s s' : Scheduler}

/-- A refusal and an answer without a handoff are equally silent. -/
theorem Response.handoff_ofAnswer {α : Type} {f : α → Response} (answer : Answer α)
    (h : ∀ a, (f a).handoff = none) : (Response.ofAnswer f answer).handoff = none := by
  cases answer with
  | ok a => exact h a
  | error error => rfl

/-- Which way a request has gone shows in its acts. -/
theorem Enacted.performed {d : Dispatcher} {r : Request} {response : Response}
    {acts : List Act} (steps : Steps d.scheduler acts s') (h : Enacted d r response acts) :
    Performed d.scheduler r response s' := by
  have hcalm : (∀ a ∈ acts, a.Calm) → response.handoff = none →
      Performed d.scheduler r response s' :=
    fun calm silent => .calm ⟨acts, steps, calm⟩ silent
  cases h with
  | refused asked => exact hcalm (by simp) rfl
  | enrolled => exact hcalm (by simp [Act.Calm, Act.turn, Act.lulls]) rfl
  | equipped known done => exact hcalm (by simp [Act.Calm, Act.turn, Act.lulls]) rfl
  | spawned level done => exact hcalm (by simp [Act.Calm, Act.turn, Act.lulls]) rfl
  | stayed => exact hcalm (by simp) rfl
  | dismissed => exact .dismissed rfl steps.of_single rfl
  | retired => exact .retired rfl steps.of_single rfl
  | woken => exact hcalm (by simp [Act.Calm, Act.turn, Act.lulls]) rfl
  | moved asked act =>
    refine hcalm ?_ rfl
    intro b hb
    obtain rfl := List.mem_singleton.mp hb
    rcases act with rfl | rfl | rfl
    · exact ⟨rfl, rfl⟩
    · exact ⟨rfl, rfl⟩
    · exact ⟨rfl, rfl⟩
  | unmoved asked => exact hcalm (by simp) rfl
  | yielded => exact .yielded (.inl rfl) (.refl _) steps.of_single rfl
  | received => exact hcalm (by simp [Act.Calm, Act.turn, Act.lulls]) rfl
  | receivedCurrent current => exact hcalm (by simp [Act.Calm, Act.turn, Act.lulls]) rfl
  | drained => exact hcalm (by simp [Act.Calm, Act.turn, Act.lulls]) rfl
  | found current => exact hcalm (by simp [Act.Calm, Act.turn, Act.lulls]) rfl
  | idled => exact hcalm (by simp) rfl
  | waited known nothing => exact .waited rfl known nothing steps.of_single rfl
  | timed => exact hcalm (by simp) rfl
  | armed => exact hcalm (by simp) rfl
  | sent carried => exact hcalm carried.calm (Response.handoff_ofAnswer _ fun _ => rfl)
  | notified carried => exact hcalm carried.calm rfl
  | ticked carried => exact hcalm carried.calm rfl
  | interrupted running carried => exact hcalm carried.calm rfl
  | preempted ended carried =>
    -- the deliveries come before the end of the turn
    obtain ⟨between, delivered, last⟩ := steps.split
    exact .yielded (.inr rfl) (carried.calmSteps delivered) last.of_single rfl

/-- **Every request to a sound scheduler**, at whatever clock, ends in one of these ways.
    Only the arithmetic on machine words can stop it. -/
theorem Dispatcher.perform_ends (hs : s.Sound) (c : Clock) (r : Request) :
    (Dispatcher.perform ⟨s, c⟩ r).Ends Stop.IsOverflow fun p =>
      Performed s r p.1 p.2.scheduler := by
  refine (Dispatcher.perform_enacts (d := ⟨s, c⟩) hs r).imp ?_
  rintro p ⟨acts, steps, enacted⟩
  exact enacted.performed steps

theorem Performed.sound {r : Request} {response : Response} (hs : s.Sound)
    (h : Performed s r response s') : s'.Sound := by
  cases h with
  | calm steps silent => exact steps.sound hs
  | yielded asked steps last told => exact last.sound (steps.sound hs)
  | dismissed asked step silent => exact step.sound hs
  | retired asked step told => exact step.sound hs
  | waited asked known nothing step told => exact step.sound hs

/-- No request changes which task is the main task. -/
theorem Performed.main_eq {r : Request} {response : Response} (h : Performed s r response s') :
    s'.main = s.main := by
  cases h with
  | calm steps silent => exact steps.main_eq
  | yielded asked steps last told => exact last.frame.1.trans steps.main_eq
  | dismissed asked step silent => exact step.frame.1
  | retired asked step told => exact step.frame.1
  | waited asked known nothing step told => exact step.frame.1

/-- A response tells of a handoff only after a turn, and after a turn the best task runs. -/
theorem Performed.settled {r : Request} {response : Response} (hs : s.Sound)
    (h : Performed s r response s') (told : response.handoff ≠ none) : s'.Settled := by
  cases h with
  | calm steps silent => exact absurd silent told
  | yielded asked steps last _ => exact last.settled (steps.sound hs) rfl
  | dismissed asked step silent => exact absurd silent told
  | retired asked step _ => exact step.settled hs rfl
  | waited asked known nothing step _ => exact step.settled hs rfl

end PreemptiveKernel
