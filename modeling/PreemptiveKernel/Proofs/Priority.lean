/-
  Strict priority at every scheduling point.

  The current level is remembered and not looked for again at every change, so in between a
  lower level may run while a higher one has ready tasks.  What keeps this honest is one bit:
  whenever it is so, `reschedule` is raised (`Prompt`).  Nothing lowers it but a choice of
  level, and whoever chooses finds the highest (`settled_chooseLevel`).

  So a turn never ends with a lower level running while a higher one waits
  (`highest_runs_after_turn`): not the turn that is given up, not the turn that ends because
  the task falls asleep, and not the one that a timer interrupt takes away.
-/
import PreemptiveKernel.Proofs.Histories

namespace PreemptiveKernel

open Run

namespace Scheduler

variable {s s' : Scheduler}

/-- In a settled state the current level is what a fresh search would find. -/
theorem Settled.highestReady_eq (h : s.Settled) : s.highestReady = some s.currentLevel := by
  cases htop : s.highestReady with
  | none => exact absurd (highestReady_eq_none_iff.mp htop _) h.occupied
  | some top =>
    congr 1
    rcases Nat.lt_trichotomy top.val s.currentLevel.val with hlt | heq | hgt
    · exact absurd (queue_eq_nil_of_highestReady_lt htop hlt) h.occupied
    · exact Fin.ext heq
    · exact absurd (h.highest top hgt) (queue_ne_nil_of_highestReady htop)

/-- **The highest level runs**: the current level is the highest one with a ready task, the
    current task is the head of its queue, and no other choice of level is requested. -/
structure HighestRuns (s : Scheduler) : Prop where
  /-- The current level is the highest one with a ready task. -/
  level : s.highestReady = some s.currentLevel
  /-- The current task is the head of the queue of that level. -/
  head : ∃ id rest, s.queue s.currentLevel = id :: rest ∧ s.currentId = .ok id
  /-- No other choice of level is requested. -/
  quiet : s.reschedule = false

theorem Settled.highestRuns (h : s.Settled) : s.HighestRuns where
  level := h.highestReady_eq
  head := exists_current_of_ne_nil h.occupied
  quiet := h.quiet

theorem switchTask_highestRuns (hs : s.Sound) :
    ∃ change s', s.switchTask.outcome = .ok (change, s') ∧ s'.HighestRuns := by
  obtain ⟨⟨answer, s'⟩, hdone, change, step, -⟩ := ends_never_iff.mp (switchTask_ends hs)
  exact ⟨answer, s', hdone, (step.settled hs rfl).highestRuns⟩

/-- Putting the current task to sleep is a turn as well.  The idle task cannot be put to
    sleep, and stays where it is. -/
theorem sleep_current (hs : s.Sound) {id : TaskId} (current : s.currentId = .ok id) :
    ∃ answer s', (s.sleep id).outcome = .ok (answer, s') ∧
      (id ≠ s.idle → s'.station id = none) ∧ (s'.station id = none → s'.HighestRuns) := by
  obtain ⟨t, known, ready, -⟩ := hs.current_known current
  obtain ⟨⟨answer, s'⟩, hdone, outcome⟩ := ends_never_iff.mp (sleep_ends hs id)
  refine ⟨answer, s', hdone, ?_⟩
  cases outcome with
  | unknown missing =>
    rw [known] at missing
    nomatch missing
  | kept known' why =>
    obtain rfl := Option.some.inj (known.symm.trans known')
    have hst := station_of_ready known ready
    constructor
    · intro wakeful
      -- awake and not the idle task: there was no reason to keep it
      rcases why with asleep | hidle
      · rw [ready] at asleep
        nomatch asleep
      · exact absurd hidle wakeful
    · intro hnone
      rw [hst] at hnone
      nomatch hnone
  | @retired _ change _ known' wakeful _ leaving step =>
    have hst : s'.station id = none := by
      rw [step.station_eq hs, Act.restation, if_pos leaving.symm]
    exact ⟨fun _ => hst, fun _ => (step.settled hs rfl).highestRuns⟩
  | dismissed known' wakeful other step => exact absurd current other

/-- **Strict priority at every scheduling point.**  In every state that a history leads to, a
    level above the current one has ready tasks only if another choice of level is requested;
    and the highest level runs after the turn of the current task has ended, after the current
    task has been put to sleep, after a timer interrupt at the end of a quantum, and after every
    request that tells of a handoff. -/
theorem highest_runs_after_turn {log : List (Request × Response)} (h : History log s) :
    (∀ l, s.currentLevel < l → s.queue l ≠ [] → s.reschedule = true) ∧
    (∃ change s', s.switchTask.outcome = .ok (change, s') ∧ s'.HighestRuns) ∧
    (∀ id, s.currentId = .ok id → ∃ answer s', (s.sleep id).outcome = .ok (answer, s') ∧
      (id ≠ s.idle → s'.station id = none) ∧ (s'.station id = none → s'.HighestRuns)) ∧
    (∀ c c' s', (c.tick s).outcome = .ok (true, c', s') → ∃ change s'',
      (Interrupt.onTimer c s).outcome = .ok (change, c', s'') ∧ s''.HighestRuns) ∧
    (∀ c r, (Dispatcher.perform ⟨s, c⟩ r).Ends Stop.IsOverflow fun p =>
      p.1.handoff ≠ none → p.2.scheduler.HighestRuns) := by
  refine ⟨h.sound.prompt, switchTask_highestRuns h.sound,
    fun id current => sleep_current h.sound current, fun c c' s' expired => ?_, fun c r => ?_⟩
  · have delivered := (c.tick_ends s).of_ok expired
    obtain ⟨change, s'', hdone, hruns⟩ := switchTask_highestRuns (delivered.sound h.sound)
    refine ⟨change, s'', ?_, hruns⟩
    rw [Interrupt.outcome_onTimer_of_expired expired, hdone]
    rfl
  · refine (Dispatcher.perform_ends h.sound c r).imp fun p hp told => ?_
    exact (hp.settled h.sound told).highestRuns

/-- A task is woken above the main task, which runs on until its turn ends; the request for
    another choice is raised all the while. -/
theorem highest_runs_after_late_turn : ∃ s, History
    [(.changeLevel ⟨1⟩ 1, .done), (.switch, .change none), (.spawn .idle 0 3 .heap, .task ⟨3⟩)]
      s ∧ s.currentId = .ok ⟨1⟩ ∧ s.currentLevel < 3 ∧ s.queue 3 ≠ [] ∧ s.reschedule = true ∧
    ∃ s', s.switchTask.outcome = .ok (some ⟨⟨1⟩, ⟨3⟩⟩, s') ∧ s'.HighestRuns := by
  have created : (create .standard .heap).outcome = .ok (.ok _) := rfl
  have h := (History.created created).performAll
    (show (Dispatcher.performAll ⟨_, .create .standard⟩
      [.changeLevel ⟨1⟩ 1, .switch, .spawn .idle 0 3 .heap]).outcome = .ok (_, _) from rfl)
  obtain ⟨hprompt, ⟨change, s', hdone, hruns⟩, -, -⟩ := highest_runs_after_turn h
  obtain rfl : change = some ⟨⟨1⟩, ⟨3⟩⟩ := (Prod.mk.inj (Except.ok.inj hdone)).1.symm
  exact ⟨_, h, rfl, by decide, by decide, hprompt 3 (by decide) (by decide), s', hdone, hruns⟩

end Scheduler

end PreemptiveKernel
