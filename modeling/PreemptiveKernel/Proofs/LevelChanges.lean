/-
  The ways to another level agree.

  A ready task gets another level by being moved, or by falling asleep and being woken there.  A
  sleeper gets it by being moved before it is woken, or by being woken there.  Whichever way is
  taken, the state at the end is the same, with the order of the queues and the request for
  another choice of level in it.

  The crux is about steps.  An act has one result (`Step.unique`), dismissing and waking is
  transferring (`Step.transfer_of_dismiss_wake`), and a level given to a sleeper is forgotten
  when it is woken at another (`Step.wake_of_relevel_wake`).  The operations then only have to be
  told which acts they come to.

  Asking twice is asking once.  What an operation has done to the task's record is what makes it
  do nothing the next time (`SleepOutcome.again`, `MoveOutcome.again`, `WakeOutcome.again`).
-/
import PreemptiveKernel.Proofs.Histories

namespace PreemptiveKernel

open Run

namespace Scheduler

variable {s s' : Scheduler} {id : TaskId} {t : Task}

theorem Sound.modifyTask_congr (hs : s.Sound) {f g : Task → Task}
    (known : s.tasks.get? id = some t) (h : f t = g t) :
    s.modifyTask id f = s.modifyTask id g := by
  unfold modifyTask
  rw [TaskTable.modify_congr hs.keys_nodup known h]

/-- The record of a task after an act that is known to change it by `f`. -/
theorem Step.get?_of_known {a : Act} {f : Task → Task} (h : Step s a s')
    (known : s.tasks.get? id = some t) (ha : ∀ old, a.revise id old = old.map f) :
    s'.tasks.get? id = some (f t) := by
  rw [h.get?_eq, ha, known, Option.map_some]

/-! ## Steps with the same end -/

/-- **An act has one result.** -/
theorem Step.unique {a : Act} {s₁ s₂ : Scheduler} (hs : s.Sound) (h₁ : Step s a s₁)
    (h₂ : Step s a s₂) : s₁ = s₂ := by
  cases h₁ with
  | enroll =>
    cases h₂ with
    | enroll => rfl
  | equip known change =>
    cases h₂ with
    | equip known' change' =>
      obtain rfl := Option.some.inj (known.symm.trans known')
      exact hs.modifyTask_congr known (change.trans change'.symm)
  | post known ready change =>
    cases h₂ with
    | post known' ready' change' =>
      obtain rfl := Option.some.inj (known.symm.trans known')
      exact hs.modifyTask_congr known (change.trans change'.symm)
  | take known oldest change =>
    cases h₂ with
    | take known' oldest' change' =>
      obtain rfl := Option.some.inj (known.symm.trans known')
      -- what is left of the inbox is told by what is taken
      obtain rfl := List.append_cancel_left (oldest.symm.trans oldest')
      exact hs.modifyTask_congr known (change.trans change'.symm)
  | relevel =>
    cases h₂ with
    | relevel => rfl
  | wake known asleep change =>
    cases h₂ with
    | wake known' asleep' change' =>
      obtain rfl := Option.some.inj (known.symm.trans known')
      rw [hs.modifyTask_congr known (change.trans change'.symm)]
  | dismiss known =>
    cases h₂ with
    | dismiss known' =>
      obtain rfl := Option.some.inj (known.symm.trans known')
      rfl
  | transfer known =>
    cases h₂ with
    | transfer known' =>
      obtain rfl := Option.some.inj (known.symm.trans known')
      rfl
  | shift =>
    cases h₂ with
    | shift => rfl
  | yield head =>
    cases h₂ with
    | yield head' =>
      obtain ⟨-, rfl⟩ := List.cons.inj (head.symm.trans head')
      rfl
  | retire head =>
    cases h₂ with
    | retire head' =>
      obtain ⟨-, rfl⟩ := List.cons.inj (head.symm.trans head')
      rfl

/-- **Falling asleep and waking elsewhere is moving.** -/
theorem Step.transfer_of_dismiss_wake (hs : s.Sound) {s₁ : Scheduler} {l : Level}
    (known : s.tasks.get? id = some t) (elsewhere : l ≠ t.level)
    (dismissed : Step s (.dismiss id) s₁) (woken : Step s₁ (.wake id l []) s') :
    Step s (.transfer id l) s' := by
  have found := dismissed.get?_of_known known fun _ => if_pos rfl
  cases dismissed with
  | dismiss known' ready wakeful other =>
    obtain rfl := Option.some.inj (known.symm.trans known')
    cases woken with
    | @wake _ u f _ _ known₁ asleep change =>
      obtain rfl := Option.some.inj (found.symm.trans known₁)
      rw [List.append_nil] at change
      -- asleep and awake again is as before, but for the level
      have hrecord : (s.setRunning id false).modifyTask id f = s.setLevel id l := by
        rw [setRunning, modifyTask_modifyTask]
        refine hs.modifyTask_congr known (change.trans ?_)
        rw [← ready]
      have hqueues : ((s.setRunning id false).setQueue t.level
          ((s.queue t.level).erase id)).modifyTask id f =
            (s.setQueue t.level ((s.queue t.level).erase id)).setLevel id l :=
        congrArg (·.setQueue t.level ((s.queue t.level).erase id)) hrecord
      rw [hqueues]
      exact .transfer known ready wakeful other elsewhere

/-- **A sleeper's level is forgotten** when it is woken at another. -/
theorem Step.wake_of_relevel_wake {s₁ : Scheduler} {k l : Level} {mail : List Message}
    (known : s.tasks.get? id = some t) (releveled : Step s (.relevel id k) s₁)
    (woken : Step s₁ (.wake id l mail) s') : Step s (.wake id l mail) s' := by
  have found := releveled.get?_of_known known fun _ => if_pos rfl
  cases releveled with
  | relevel known' asleep =>
    obtain rfl := Option.some.inj (known.symm.trans known')
    cases woken with
    | wake known₁ asleep₁ change =>
      obtain rfl := Option.some.inj (found.symm.trans known₁)
      rw [setLevel, modifyTask_modifyTask]
      exact .wake known asleep change

/-! ## The acts that the operations come to -/

/-- A level that is named by its own number is that level. -/
theorem changeLevel_val (s : Scheduler) (id : TaskId) (l : Level) :
    s.changeLevel id l.val = s.moveTask id l := by
  unfold changeLevel
  rw [Level.ofNat?_of_lt l.isLt]

theorem wakeup_map_val (s : Scheduler) (id : TaskId) (l : Option Level) :
    s.wakeup id (l.map Fin.val) = s.wakeTask id l := by
  cases l with
  | none => rfl
  | some l =>
    simp only [wakeup, Option.map_some]
    rw [Level.ofNat?_of_lt l.isLt]

/-- Waking a ready task at a level is moving it there. -/
theorem wakeTask_some_of_ready (known : s.tasks.get? id = some t) (ready : t.running = true)
    (l : Level) : s.wakeTask id (some l) = s.moveTask id l := by
  unfold wakeTask
  simp only [known, ready, if_true]

theorem exists_dismiss (hs : s.Sound) (known : s.tasks.get? id = some t)
    (ready : t.running = true) (wakeful : id ≠ s.idle) (other : s.currentId ≠ .ok id) :
    ∃ s', (s.sleep id).outcome = .ok (.ok none, s') ∧ Step s (.dismiss id) s' := by
  obtain ⟨⟨answer, s'⟩, done, outcome⟩ := ends_never_iff.mp (sleep_ends hs id)
  cases outcome with
  | unknown missing => nomatch known.symm.trans missing
  | kept known' why =>
    obtain rfl := Option.some.inj (known.symm.trans known')
    rcases why with asleep | idle
    · nomatch ready.symm.trans asleep
    · exact absurd idle wakeful
  | retired known' wakeful' current => exact absurd current other
  | dismissed known' wakeful' other' step => exact ⟨s', done, step⟩

theorem exists_transfer (hs : s.Sound) {l : Level} (known : s.tasks.get? id = some t)
    (ready : t.running = true) (wakeful : id ≠ s.idle) (other : s.currentId ≠ .ok id)
    (elsewhere : l ≠ t.level) :
    ∃ s', (s.moveTask id l).outcome = .ok (.ok (), s') ∧ Step s (.transfer id l) s' := by
  obtain ⟨⟨answer, s'⟩, done, outcome⟩ := ends_never_iff.mp (moveTask_ends hs id l)
  cases outcome with
  | unknown missing => nomatch known.symm.trans missing
  | kept known' why =>
    obtain rfl := Option.some.inj (known.symm.trans known')
    rcases why with same | idle
    · exact absurd same elsewhere
    · exact absurd idle wakeful
  | releveled known' step =>
    cases step with
    | relevel known' asleep =>
      obtain rfl := Option.some.inj (known.symm.trans known')
      nomatch ready.symm.trans asleep
  | shifted known' current => exact absurd current other
  | transferred known' other' step => exact ⟨s', done, step⟩

/-- A sleeper that is moved has the level already or gets it for its waking. -/
theorem exists_relevel (hs : s.Sound) (l : Level) (known : s.tasks.get? id = some t)
    (asleep : t.running = false) :
    ∃ s', (s.moveTask id l).outcome = .ok (.ok (), s') ∧
      (l = t.level ∧ s' = s ∨ Step s (.relevel id l) s') := by
  obtain ⟨⟨answer, s'⟩, done, outcome⟩ := ends_never_iff.mp (moveTask_ends hs id l)
  cases outcome with
  | unknown missing => nomatch known.symm.trans missing
  | kept known' why =>
    obtain rfl := Option.some.inj (known.symm.trans known')
    rcases why with same | idle
    · exact ⟨_, done, .inl ⟨same, rfl⟩⟩
    · -- the idle task does not sleep
      obtain ⟨u, hu, ready, -⟩ := hs.idle_known
      obtain rfl := Option.some.inj (known.symm.trans (idle ▸ hu))
      nomatch ready.symm.trans asleep
  | releveled known' step => exact ⟨s', done, .inr step⟩
  | shifted known' current =>
    obtain ⟨ready, -⟩ := hs.current_ready current known
    nomatch ready.symm.trans asleep
  | transferred known' other step =>
    cases step with
    | transfer known' ready =>
      obtain rfl := Option.some.inj (known.symm.trans known')
      nomatch ready.symm.trans asleep

theorem exists_wake (l : Option Level) (known : s.tasks.get? id = some t)
    (asleep : t.running = false) :
    ∃ s', (s.wakeTask id l).outcome = .ok (.ok (), s') ∧
      Step s (.wake id (l.getD t.level) []) s' :=
  ⟨_, outcome_wakeTask_of_asleep l known asleep, .wake known asleep (by simp)⟩

/-! ## Asking twice -/

/-- A task that is not to fall asleep, because it sleeps or because it idles, stays as it is. -/
theorem outcome_sleep_of_kept (known : s.tasks.get? id = some t)
    (why : t.running = false ∨ id = s.idle) : (s.sleep id).outcome = .ok (.ok none, s) := by
  unfold sleep
  simp only [known]
  split
  · rfl
  · rename_i ready
    have idle : id = s.idle := why.resolve_left (by simpa using ready)
    rw [if_pos idle]
    rfl

theorem outcome_moveTask_of_kept {l : Level} (known : s.tasks.get? id = some t)
    (why : l = t.level ∨ id = s.idle) : (s.moveTask id l).outcome = .ok (.ok (), s) := by
  unfold moveTask
  simp only [known]
  split
  · rfl
  · rename_i elsewhere
    rw [if_pos (why.resolve_left elsewhere)]
    rfl

theorem SleepOutcome.again {answer : Answer (Option Handoff)}
    (h : SleepOutcome s id answer s') :
    (s'.sleep id).outcome = .ok (answer.map fun _ => none, s') := by
  cases h with
  | unknown missing => exact congrArg Run.outcome (sleep_of_unknown missing)
  | kept known why => exact outcome_sleep_of_kept known why
  | retired known wakeful current leaving step =>
    have found := step.get?_of_known known fun _ => if_pos leaving.symm
    exact outcome_sleep_of_kept found (.inl rfl)
  | dismissed known wakeful other step =>
    have found := step.get?_of_known known fun _ => if_pos rfl
    exact outcome_sleep_of_kept found (.inl rfl)

theorem MoveOutcome.again {l : Level} {answer : Answer Unit} (h : MoveOutcome s id l answer s') :
    (s'.moveTask id l).outcome = .ok (answer, s') := by
  cases h with
  | unknown missing => exact congrArg Run.outcome (moveTask_of_unknown missing l)
  | kept known why => exact outcome_moveTask_of_kept known why
  | releveled known step =>
    exact outcome_moveTask_of_kept (step.get?_of_known known fun _ => if_pos rfl) (.inl rfl)
  | shifted known current step =>
    exact outcome_moveTask_of_kept (step.get?_of_known known fun _ => if_pos rfl) (.inl rfl)
  | transferred known other step =>
    exact outcome_moveTask_of_kept (step.get?_of_known known fun _ => if_pos rfl) (.inl rfl)

/-- Moving a ready task does not put it to sleep. -/
theorem MoveOutcome.exists_ready {l : Level} {answer : Answer Unit}
    (h : MoveOutcome s id l answer s') (known : s.tasks.get? id = some t)
    (ready : t.running = true) : ∃ u, s'.tasks.get? id = some u ∧ u.running = true := by
  cases h with
  | unknown missing => nomatch known.symm.trans missing
  | kept known' why => exact ⟨t, known, ready⟩
  | releveled known' step => exact ⟨_, step.get?_of_known known fun _ => if_pos rfl, ready⟩
  | shifted known' current step => exact ⟨_, step.get?_of_known known fun _ => if_pos rfl, ready⟩
  | transferred known' other step => exact ⟨_, step.get?_of_known known fun _ => if_pos rfl, ready⟩

theorem WakeOutcome.again {l : Option Level} {answer : Answer Unit}
    (h : WakeOutcome s id l answer s') : (s'.wakeTask id l).outcome = .ok (answer, s') := by
  cases h with
  | unknown missing => exact congrArg Run.outcome (wakeTask_of_unknown missing l)
  | kept known ready silent =>
    rw [silent, wakeTask_of_ready known ready]
    rfl
  | moved known ready given move =>
    obtain ⟨u, found, awake⟩ := move.exists_ready known ready
    rw [given, wakeTask_some_of_ready found awake]
    exact move.again
  | woken known step =>
    have found := step.get?_of_known known fun _ => if_pos rfl
    cases l with
    | none =>
      rw [wakeTask_of_ready found rfl]
      rfl
    | some k =>
      rw [wakeTask_some_of_ready found rfl]
      exact outcome_moveTask_of_kept found (.inl rfl)

/-! ## The ways to a level -/

/-- **Falling asleep and being woken at a level** ends as being moved there does. -/
theorem sleep_then_wakeup (hs : s.Sound) {l : Level} (known : s.tasks.get? id = some t)
    (ready : t.running = true) (wakeful : id ≠ s.idle) (other : s.currentId ≠ .ok id)
    (elsewhere : l ≠ t.level) :
    ∃ s₁ s', (s.sleep id).outcome = .ok (.ok none, s₁) ∧
      (s₁.wakeup id (some l.val)).outcome = .ok (.ok (), s') ∧
      (s.changeLevel id l.val).outcome = .ok (.ok (), s') := by
  obtain ⟨s₁, slept, dismissed⟩ := exists_dismiss hs known ready wakeful other
  have found := dismissed.get?_of_known known fun _ => if_pos rfl
  obtain ⟨s', woke, woken⟩ := exists_wake (some l) found rfl
  obtain ⟨s₂, moved, transferred⟩ :=
    exists_transfer hs known ready wakeful other elsewhere
  obtain rfl : s' = s₂ :=
    (Step.transfer_of_dismiss_wake hs known elsewhere dismissed woken).unique hs transferred
  refine ⟨s₁, s', slept, ?_, ?_⟩
  · exact (congrArg Run.outcome (wakeup_map_val s₁ id (some l))).trans woke
  · rw [changeLevel_val]
    exact moved

/-- **Being moved asleep and woken without a level** ends as being woken at the level does. -/
theorem changeLevel_then_wakeup (hs : s.Sound) (l : Level) (known : s.tasks.get? id = some t)
    (asleep : t.running = false) :
    ∃ s₁ s', (s.changeLevel id l.val).outcome = .ok (.ok (), s₁) ∧
      (s₁.wakeup id none).outcome = .ok (.ok (), s') ∧
      (s.wakeup id (some l.val)).outcome = .ok (.ok (), s') := by
  obtain ⟨s₁, moved, releveled⟩ := exists_relevel hs l known asleep
  obtain ⟨s₂, woke, woken⟩ := exists_wake (some l) known asleep
  rw [← changeLevel_val] at moved
  rw [← wakeup_map_val] at woke
  rcases releveled with ⟨rfl, rfl⟩ | releveled
  · -- it has the level already
    obtain ⟨s', woke', woken'⟩ := exists_wake none known asleep
    obtain rfl := woken'.unique hs woken
    exact ⟨_, _, moved, woke', woke⟩
  · have found := releveled.get?_of_known known fun _ => if_pos rfl
    obtain ⟨s', woke', woken'⟩ := exists_wake none found asleep
    obtain rfl := (releveled.wake_of_relevel_wake known woken').unique hs woken
    exact ⟨s₁, s', moved, woke', woke⟩

/-- **Waking a ready task at a level** is moving it there. -/
theorem wakeup_of_ready (hs : s.Sound) (l : Level) (known : s.tasks.get? id = some t)
    (ready : t.running = true) :
    s.wakeup id (some l.val) = s.changeLevel id l.val ∧
      ∃ s', (s.changeLevel id l.val).outcome = .ok (.ok (), s') := by
  refine ⟨?_, ?_⟩
  · have named : s.wakeup id (some l.val) = s.wakeTask id (some l) :=
      wakeup_map_val s id (some l)
    rw [named, changeLevel_val, wakeTask_some_of_ready known ready]
  · rw [changeLevel_val]
    obtain ⟨⟨answer, s'⟩, done, outcome⟩ := ends_never_iff.mp (moveTask_ends hs id l)
    cases outcome with
    | unknown missing => nomatch known.symm.trans missing
    | _ => exact ⟨_, done⟩

/-- **Asking twice is asking once**, whatever is asked and of whomever. -/
theorem sleep_again (hs : s.Sound) (id : TaskId) :
    ∃ answer s', (s.sleep id).outcome = .ok (answer, s') ∧
      (s'.sleep id).outcome = .ok (answer.map fun _ => none, s') := by
  obtain ⟨⟨answer, s'⟩, done, outcome⟩ := ends_never_iff.mp (sleep_ends hs id)
  exact ⟨answer, s', done, outcome.again⟩

theorem wakeup_again (hs : s.Sound) (id : TaskId) (level : Option Nat) :
    ∃ answer s', (s.wakeup id level).outcome = .ok (answer, s') ∧
      (s'.wakeup id level).outcome = .ok (answer, s') := by
  obtain ⟨⟨answer, s'⟩, done, ⟨n, -, -, refused⟩ | ⟨l, named, outcome⟩⟩ :=
    ends_never_iff.mp (wakeup_ends hs id level)
  · -- a level that does not exist is refused, and the state is still the same
    obtain ⟨-, rfl⟩ := Prod.mk.inj refused
    exact ⟨answer, s', done, done⟩
  · refine ⟨answer, s', done, ?_⟩
    rw [← named, wakeup_map_val]
    exact outcome.again

theorem changeLevel_again (hs : s.Sound) (id : TaskId) (n : Nat) :
    ∃ answer s', (s.changeLevel id n).outcome = .ok (answer, s') ∧
      (s'.changeLevel id n).outcome = .ok (answer, s') := by
  obtain ⟨⟨answer, s'⟩, done, ⟨-, refused⟩ | ⟨l, named, outcome⟩⟩ :=
    ends_never_iff.mp (changeLevel_ends hs id n)
  · obtain ⟨-, rfl⟩ := Prod.mk.inj refused
    exact ⟨answer, s', done, done⟩
  · refine ⟨answer, s', done, ?_⟩
    rw [← named, changeLevel_val]
    exact outcome.again

/-- **The ways to a level agree**, after every history, for every task `id` and level `l`.

    A ready task that is neither current nor idle comes to another level in the same way by
    sleeping and being woken there and by being moved.  A sleeper comes to a level in the same way
    by being moved, awake later, and by being woken there.  Waking a ready task at a level is
    moving it, in the answer, the state and what is logged.  And whatever is asked for a second time
    is answered as before, without a change of turns, and leaves the state as it is. -/
theorem ways_to_level_agree {log : List (Request × Response)} (h : History log s) (id : TaskId)
    (l : Level) :
    (∀ t, s.tasks.get? id = some t → t.running = true → id ≠ s.idle → s.currentId ≠ .ok id →
      l ≠ t.level →
        ∃ s₁ s', (s.sleep id).outcome = .ok (.ok none, s₁) ∧
          (s₁.wakeup id (some l.val)).outcome = .ok (.ok (), s') ∧
          (s.changeLevel id l.val).outcome = .ok (.ok (), s')) ∧
    (∀ t, s.tasks.get? id = some t → t.running = false →
      ∃ s₁ s', (s.changeLevel id l.val).outcome = .ok (.ok (), s₁) ∧
        (s₁.wakeup id none).outcome = .ok (.ok (), s') ∧
        (s.wakeup id (some l.val)).outcome = .ok (.ok (), s')) ∧
    (∀ t, s.tasks.get? id = some t → t.running = true →
      s.wakeup id (some l.val) = s.changeLevel id l.val ∧
        ∃ s', (s.changeLevel id l.val).outcome = .ok (.ok (), s')) ∧
    (∃ answer s', (s.sleep id).outcome = .ok (answer, s') ∧
      (s'.sleep id).outcome = .ok (answer.map fun _ => none, s')) ∧
    (∀ level, ∃ answer s', (s.wakeup id level).outcome = .ok (answer, s') ∧
      (s'.wakeup id level).outcome = .ok (answer, s')) ∧
    (∀ n, ∃ answer s', (s.changeLevel id n).outcome = .ok (answer, s') ∧
      (s'.changeLevel id n).outcome = .ok (answer, s')) := by
  have hs := h.sound
  exact ⟨fun t known ready wakeful other elsewhere =>
      sleep_then_wakeup hs known ready wakeful other elsewhere,
    fun t known asleep => changeLevel_then_wakeup hs l known asleep,
    fun t known ready => wakeup_of_ready hs l known ready,
    sleep_again hs id, wakeup_again hs id, changeLevel_again hs id⟩

/-- The third task runs at level one, the main task is behind it, and the fourth sleeps.  The main
    task comes to level two both ways, and the choice of level is to be made anew; the sleeper
    comes there both ways. -/
theorem ways_to_level_two_agree : ∃ log s t s₁ s' s₂ s'', History log s ∧
    s.currentId = .ok ⟨3⟩ ∧ s.queue 1 = [⟨3⟩, ⟨1⟩] ∧ s.reschedule = false ∧
    (s.sleep ⟨1⟩).outcome = .ok (.ok none, s₁) ∧
    (s₁.wakeup ⟨1⟩ (some 2)).outcome = .ok (.ok (), s') ∧
    (s.changeLevel ⟨1⟩ 2).outcome = .ok (.ok (), s') ∧
    s'.queue 2 = [⟨1⟩] ∧ s'.queue 1 = [⟨3⟩] ∧ s'.reschedule = true ∧
    s.tasks.get? ⟨4⟩ = some t ∧ t.running = false ∧
    (s.changeLevel ⟨4⟩ 2).outcome = .ok (.ok (), s₂) ∧
    (s₂.wakeup ⟨4⟩ none).outcome = .ok (.ok (), s'') ∧
    (s.wakeup ⟨4⟩ (some 2)).outcome = .ok (.ok (), s'') ∧ s''.queue 2 = [⟨4⟩] ∧
    s.wakeup ⟨1⟩ (some 2) = s.changeLevel ⟨1⟩ 2 := by
  have created : (create .standard .heap).outcome = .ok (.ok _) := rfl
  have h := (History.created created).performAll
    (show (Dispatcher.performAll ⟨_, .create .standard⟩
      [.spawn .idle 0 1 .heap, .spawn .idle 0 1 .heap, .changeLevel ⟨1⟩ 1, .switch,
        .sleep ⟨4⟩]).outcome = .ok (_, _) from rfl)
  obtain ⟨ready, -, awake, -⟩ := ways_to_level_agree h ⟨1⟩ 2
  obtain ⟨-, asleep, -⟩ := ways_to_level_agree h ⟨4⟩ 2
  obtain ⟨s₁, s', slept, woke, moved⟩ :=
    ready _ rfl rfl (by decide) (by decide) (by decide)
  obtain ⟨s₂, s'', releveled, woke', woken⟩ := asleep _ rfl rfl
  have reached : s' = _ := (Prod.mk.inj (Except.ok.inj (moved.symm.trans
    (show (changeLevel _ _ _).outcome = .ok (_, _) from rfl)))).2
  have reached' : s'' = _ := (Prod.mk.inj (Except.ok.inj (woken.symm.trans
    (show (wakeup _ _ _).outcome = .ok (_, _) from rfl)))).2
  exact ⟨_, _, _, s₁, s', s₂, s'', h, rfl, rfl, rfl, slept, woke, moved,
    congrArg (queue · 2) reached, congrArg (queue · 1) reached, congrArg reschedule reached,
    rfl, rfl, releveled, woke', woken, congrArg (queue · 2) reached', (awake _ rfl rfl).1⟩

end Scheduler

end PreemptiveKernel
