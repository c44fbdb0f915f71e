/-
  What the operations of a scheduler come to.

  Every operation that is asked of a sound scheduler ends in steps.  What comes of it is
  written down once, as a small inductive type with one constructor for each way it can go
  (`SleepOutcome`, `MoveOutcome`, …), and the operation is shown to end in one of them.
  Whoever uses an operation takes the cases apart and never opens the operation.

  Operations on tasks that exist already cannot stop.  The contradictions between queues and
  table that would stop them are excluded by soundness.
-/
import PreemptiveKernel.Proofs.Ends
import PreemptiveKernel.Proofs.Sound

namespace PreemptiveKernel

open Run

/-- The change that is to be carried out: none if the same task goes on. -/
def Handoff.effective (change : Handoff) : Option Handoff :=
  if change.leaving = change.entering then none else some change

theorem Handoff.effective_eq_some_iff {change h : Handoff} :
    change.effective = some h ↔ change = h ∧ h.leaving ≠ h.entering := by
  unfold effective
  split
  · rename_i he
    constructor
    · exact nofun
    · rintro ⟨rfl, hne⟩
      exact absurd he hne
  · rename_i hne
    constructor
    · intro heq
      obtain rfl := Option.some.inj heq
      exact ⟨rfl, hne⟩
    · rintro ⟨rfl, -⟩
      rfl

namespace Scheduler

variable {s s' : Scheduler}

/-! ## Turns -/

theorem rotate_of_head {id : TaskId} {rest : List TaskId}
    (head : s.queue s.currentLevel = id :: rest) (asleep : Bool) :
    s.rotate asleep =
      (s.settle (if asleep then rest else rest ++ [id])).currentId.map fun next =>
        (⟨id, next⟩, s.settle (if asleep then rest else rest ++ [id])) := by
  unfold rotate
  simp only [head]
  show Except.bind _ _ = Except.map _ _
  cases hc : (s.settle (if asleep then rest else rest ++ [id])).currentId with
  | ok next =>
    unfold settle at hc ⊢
    rw [hc]
    rfl
  | error stop =>
    unfold settle at hc ⊢
    rw [hc]
    rfl

theorem queuedTask_of_known {id : TaskId} {t : Task} (known : s.tasks.get? id = some t) :
    s.queuedTask id = .ok t := by
  unfold queuedTask
  rw [known]

/-- Two tasks that exist can hand the processor over. -/
theorem handoff_of_known {change : Handoff} {t u : Task}
    (ht : s.tasks.get? change.leaving = some t) (hu : s.tasks.get? change.entering = some u) :
    s.handoff change = .ok change.effective := by
  unfold handoff Handoff.effective
  rw [queuedTask_of_known ht, queuedTask_of_known hu]
  split <;> rfl

/-- A step that passes the turn leaves both tasks in the table. -/
theorem Step.handoff_eq (hs : s.Sound) {a : Act} (h : Step s a s') {change : Handoff}
    (ha : a.turn = some change) : s'.handoff change = .ok change.effective := by
  obtain ⟨hl, he⟩ := h.current_passed ha
  obtain ⟨t, ht, -⟩ := hs.current_known hl
  obtain ⟨u, hu, -⟩ := (h.sound hs).current_known he
  -- nobody has left the table in between
  have hkeys : change.leaving ∈ s'.tasks.keys := by
    have hk : s'.tasks.keys = s.tasks.keys ∧ True := by
      cases h with
      | yield | retire => simp [setRunning]
      | _ => cases ha
    rw [hk.1, TaskTable.mem_keys_iff]
    exact ⟨t, ht⟩
  obtain ⟨t', ht'⟩ := TaskTable.mem_keys_iff.mp hkeys
  exact handoff_of_known ht' hu

/-- The turn of the current task ends with a step. -/
theorem exists_yield (hs : s.Sound) :
    ∃ change s', s.rotate false = .ok (change, s') ∧ Step s (.yield change) s' := by
  obtain ⟨id, rest, head, -⟩ := hs.exists_current
  obtain ⟨next, -, -, hnext⟩ := exists_current_of_ne_nil (hs.settled_yield id rest).occupied
  refine ⟨⟨id, next⟩, _, ?_, .yield head hnext⟩
  rw [rotate_of_head head]
  show Except.map _ (s.settle (rest ++ [id])).currentId = _
  rw [hnext]
  rfl

/-- Whatever the state is, a turn that has been ended has ended with a step. -/
theorem exists_yield_of_switchTask {change : Option Handoff}
    (done : s.switchTask.outcome = .ok (change, s')) : ∃ h, Step s (.yield h) s' := by
  unfold switchTask at done
  obtain ⟨⟨h, s₁⟩, hrotate, hrest⟩ := outcome_bind_eq_ok_iff.mp done
  obtain ⟨effective, -, hpure⟩ := outcome_bind_eq_ok_iff.mp hrest
  obtain ⟨-, rfl⟩ := Prod.mk.inj (Except.ok.inj hpure)
  have hrotate : s.rotate false = .ok (h, s₁) := hrotate
  cases head : s.queue s.currentLevel with
  | nil =>
    unfold rotate at hrotate
    simp only [head] at hrotate
    nomatch hrotate
  | cons id rest =>
    have hrotated : s.rotate false = (s.settle (rest ++ [id])).currentId.map fun next =>
        (⟨id, next⟩, s.settle (rest ++ [id])) := rotate_of_head head false
    rw [hrotated] at hrotate
    rcases hnext : (s.settle (rest ++ [id])).currentId with stop | next
    · rw [hnext] at hrotate
      nomatch hrotate
    · rw [hnext] at hrotate
      obtain ⟨rfl, rfl⟩ := Prod.mk.inj (Except.ok.inj hrotate)
      exact ⟨_, .yield head hnext⟩

/-- The current task, unless it is the idle task, falls asleep with a step. -/
theorem exists_retire (hs : s.Sound) {id : TaskId} (current : s.currentId = .ok id)
    (wakeful : id ≠ s.idle) :
    ∃ change s', change.leaving = id ∧ (s.setRunning id false).rotate true = .ok (change, s') ∧
      Step s (.retire change) s' := by
  obtain ⟨rest, head⟩ := currentId_eq_ok_iff.mp current
  obtain ⟨next, -, -, hnext⟩ :=
    exists_current_of_ne_nil (hs.settled_retire head wakeful).occupied
  refine ⟨⟨id, next⟩, _, rfl, ?_, .retire head wakeful hnext⟩
  rw [rotate_of_head (s := s.setRunning id false) head]
  show Except.map _ ((s.setRunning id false).settle rest).currentId = _
  rw [hnext]
  rfl

/-- Who falls asleep does not go on: another task is current then. -/
theorem Step.effective_of_retire (hs : s.Sound) {change : Handoff}
    (h : Step s (.retire change) s') : change.effective = some change := by
  refine Handoff.effective_eq_some_iff.mpr ⟨rfl, fun he => ?_⟩
  obtain ⟨hl, hc⟩ := h.current_passed rfl
  obtain ⟨t, ht, -⟩ := hs.current_known hl
  obtain ⟨u, hu, ready, -⟩ := (h.sound hs).current_known hc
  rw [← he, h.get?_eq, ht] at hu
  simp only [Act.revise, if_pos, Option.map_some, Option.some.injEq] at hu
  rw [← hu] at ready
  cases ready

/-- The idle task does not fall asleep. -/
theorem Step.wakeful_of_retire {change : Handoff} (h : Step s (.retire change) s') :
    change.leaving ≠ s.idle := by
  cases h with
  | retire head wakeful chosen => exact wakeful

/-- **Ending the turn of the current task** always succeeds, with one step. -/
theorem switchTask_ends (hs : s.Sound) :
    s.switchTask.Ends Stop.Never fun p =>
      ∃ change, Step s (.yield change) p.2 ∧ p.1 = change.effective := by
  obtain ⟨change, s', hrot, hstep⟩ := exists_yield hs
  unfold switchTask
  refine ends_bind_of_ok (a := (change, s')) hrot ?_
  refine ends_bind_of_ok (a := change.effective) (hstep.handoff_eq hs rfl) ?_
  exact ends_pure ⟨change, hstep, rfl⟩

/-! ## Falling asleep -/

/-- What can come of putting the task `id` to sleep: the answer and the state after it. -/
inductive SleepOutcome (s : Scheduler) (id : TaskId) :
    Answer (Option Handoff) → Scheduler → Prop
  /-- There is no such task. -/
  | unknown (missing : s.tasks.get? id = none) :
      SleepOutcome s id (.error (.noSuchTask id)) s
  /-- It sleeps already, or it is the idle task. -/
  | kept {t : Task} (known : s.tasks.get? id = some t)
      (why : t.running = false ∨ id = s.idle) : SleepOutcome s id (.ok none) s
  /-- It was the current task, and another has its turn. -/
  | retired {t : Task} {change : Handoff} {s' : Scheduler}
      (known : s.tasks.get? id = some t) (wakeful : id ≠ s.idle)
      (current : s.currentId = .ok id) (leaving : change.leaving = id)
      (step : Step s (.retire change) s') : SleepOutcome s id (.ok (some change)) s'
  /-- It was not the current task, and the turn goes on. -/
  | dismissed {t : Task} {s' : Scheduler} (known : s.tasks.get? id = some t)
      (wakeful : id ≠ s.idle) (other : s.currentId ≠ .ok id) (step : Step s (.dismiss id) s') :
      SleepOutcome s id (.ok none) s'

theorem sleep_of_unknown {id : TaskId} (missing : s.tasks.get? id = none) :
    s.sleep id = pure (.error (.noSuchTask id), s) := by
  unfold sleep
  rw [missing]

theorem sleep_ends (hs : s.Sound) (id : TaskId) :
    (s.sleep id).Ends Stop.Never fun p => SleepOutcome s id p.1 p.2 := by
  unfold sleep
  cases known : s.tasks.get? id with
  | none => exact ends_pure (.unknown known)
  | some t =>
    by_cases asleep : t.running = false
    · simp only [asleep]
      exact ends_pure (.kept known (.inl asleep))
    have ready : t.running = true := by simpa using asleep
    simp only [ready, Bool.not_true, if_neg Bool.false_ne_true]
    by_cases hidle : id = s.idle
    · rw [if_pos hidle]
      exact ends_bind_of_ok (a := ()) rfl (ends_pure (.kept known (.inr hidle)))
    rw [if_neg hidle]
    obtain ⟨cur, rest, head, hcur⟩ := hs.exists_current
    refine ends_bind_of_ok (a := cur) hcur ?_
    by_cases hc : id = cur
    · -- the current task: it retires, and both tasks are known for the handoff
      rw [if_pos hc]
      have current : s.currentId = .ok id := hc ▸ hcur
      obtain ⟨change, s', leaving, hrot, hstep⟩ := exists_retire hs current hidle
      refine ends_bind_of_ok (a := (change, s')) hrot ?_
      refine ends_bind_of_ok (a := ()) rfl ?_
      refine ends_bind_of_ok (a := change.effective) (hstep.handoff_eq hs rfl) ?_
      rw [hstep.effective_of_retire hs]
      exact ends_pure (.retired known hidle current leaving hstep)
    · -- another task: it stands in the queue of its level
      rw [if_neg hc]
      have other : s.currentId ≠ .ok id := by
        rw [hcur]
        exact fun e => hc (Except.ok.inj e).symm
      have hdeq := dequeue_of_mem (s := s.setRunning id false) (hs.mem_queue known ready)
      refine ends_bind_of_ok (a := _) hdeq ?_
      refine ends_bind_of_ok (a := ()) rfl ?_
      exact ends_pure (.dismissed known hidle other (.dismiss known ready hidle other))

/-! ## Levels and waking -/

/-- What can come of giving the task `id` the level `l`. -/
inductive MoveOutcome (s : Scheduler) (id : TaskId) (l : Level) :
    Answer Unit → Scheduler → Prop
  /-- There is no such task. -/
  | unknown (missing : s.tasks.get? id = none) :
      MoveOutcome s id l (.error (.noSuchTask id)) s
  /-- It has this level already, or it is the idle task. -/
  | kept {t : Task} (known : s.tasks.get? id = some t) (why : l = t.level ∨ id = s.idle) :
      MoveOutcome s id l (.ok ()) s
  /-- It sleeps and keeps the level for its waking. -/
  | releveled {t : Task} {s' : Scheduler} (known : s.tasks.get? id = some t)
      (step : Step s (.relevel id l) s') : MoveOutcome s id l (.ok ()) s'
  /-- It is the current task and stays so. -/
  | shifted {t : Task} {s' : Scheduler} (known : s.tasks.get? id = some t)
      (current : s.currentId = .ok id) (step : Step s (.shift id l) s') :
      MoveOutcome s id l (.ok ()) s'
  /-- It is another ready task. -/
  | transferred {t : Task} {s' : Scheduler} (known : s.tasks.get? id = some t)
      (other : s.currentId ≠ .ok id) (step : Step s (.transfer id l) s') :
      MoveOutcome s id l (.ok ()) s'

theorem moveTask_of_unknown {id : TaskId} (missing : s.tasks.get? id = none) (l : Level) :
    s.moveTask id l = pure (.error (.noSuchTask id), s) := by
  unfold moveTask
  rw [missing]

theorem moveTask_ends (hs : s.Sound) (id : TaskId) (l : Level) :
    (s.moveTask id l).Ends Stop.Never fun p => MoveOutcome s id l p.1 p.2 := by
  unfold moveTask
  cases known : s.tasks.get? id with
  | none => exact ends_pure (.unknown known)
  | some t =>
    by_cases hsame : l = t.level
    · simp only [hsame]
      exact ends_pure (.kept known (.inl rfl))
    simp only [if_neg hsame]
    by_cases hidle : id = s.idle
    · rw [if_pos hidle]
      exact ends_bind_of_ok (a := ()) rfl (ends_pure (.kept known (.inr hidle)))
    rw [if_neg hidle]
    by_cases asleep : t.running = false
    · simp only [asleep]
      exact ends_pure (.releveled known (.relevel known asleep))
    have ready : t.running = true := by simpa using asleep
    simp only [ready, Bool.not_true, if_neg Bool.false_ne_true]
    obtain ⟨cur, rest, head, hcur⟩ := hs.exists_current
    refine ends_bind_of_ok (a := cur) hcur ?_
    by_cases hc : id = cur
    · rw [if_pos hc]
      have current : s.currentId = .ok id := hc ▸ hcur
      refine ends_bind_of_ok (a := ()) rfl ?_
      refine ends_bind_of_ok (a := ()) rfl ?_
      exact ends_pure (.shifted known current (.shift known hidle current hsame))
    · rw [if_neg hc]
      have other : s.currentId ≠ .ok id := by
        rw [hcur]
        exact fun e => hc (Except.ok.inj e).symm
      have hdeq := dequeue_of_mem (hs.mem_queue known ready)
      refine ends_bind_of_ok (a := _) hdeq ?_
      refine ends_bind_of_ok (a := ()) rfl ?_
      refine ends_bind_of_ok (a := ()) rfl ?_
      exact ends_pure (.transferred known other (.transfer known ready hidle other hsame))

/-- A level named by its number is refused by name, or the task is moved to it. -/
theorem changeLevel_ends (hs : s.Sound) (id : TaskId) (n : Nat) :
    (s.changeLevel id n).Ends Stop.Never fun p =>
      (4 ≤ n ∧ p = (.error (.invalidLevel n), s)) ∨
      ∃ l : Level, l.val = n ∧ MoveOutcome s id l p.1 p.2 := by
  unfold changeLevel
  by_cases hn : n < 4
  · rw [Level.ofNat?_of_lt hn]
    exact (moveTask_ends hs id ⟨n, hn⟩).imp fun p hp => .inr ⟨⟨n, hn⟩, rfl, hp⟩
  · have hle : 4 ≤ n := by omega
    rw [Level.ofNat?_of_le hle]
    exact ends_pure (.inl ⟨hle, rfl⟩)

/-- What can come of waking the task `id`, at a level if one is given. -/
inductive WakeOutcome (s : Scheduler) (id : TaskId) (l : Option Level) :
    Answer Unit → Scheduler → Prop
  /-- There is no such task. -/
  | unknown (missing : s.tasks.get? id = none) :
      WakeOutcome s id l (.error (.noSuchTask id)) s
  /-- It is awake, and nothing is said about its level. -/
  | kept {t : Task} (known : s.tasks.get? id = some t) (ready : t.running = true)
      (silent : l = none) : WakeOutcome s id l (.ok ()) s
  /-- It is awake and gets the level. -/
  | moved {t : Task} {k : Level} {answer : Answer Unit} {s' : Scheduler}
      (known : s.tasks.get? id = some t) (ready : t.running = true) (given : l = some k)
      (move : MoveOutcome s id k answer s') : WakeOutcome s id l answer s'
  /-- It wakes up. -/
  | woken {t : Task} {s' : Scheduler} (known : s.tasks.get? id = some t)
      (step : Step s (.wake id (l.getD t.level) []) s') : WakeOutcome s id l (.ok ()) s'

theorem wakeTask_of_unknown {id : TaskId} (missing : s.tasks.get? id = none) (l : Option Level) :
    s.wakeTask id l = pure (.error (.noSuchTask id), s) := by
  unfold wakeTask
  rw [missing]

/-- A task that is awake is left alone if nothing is said about its level. -/
theorem wakeTask_of_ready {id : TaskId} {t : Task} (known : s.tasks.get? id = some t)
    (ready : t.running = true) : s.wakeTask id none = pure (.ok (), s) := by
  unfold wakeTask
  simp [known, ready]

/-- What waking does to a task that sleeps; nothing is asked of the rest of the state. -/
theorem outcome_wakeTask_of_asleep {id : TaskId} {t : Task} (l : Option Level)
    (known : s.tasks.get? id = some t) (asleep : t.running = false) :
    (s.wakeTask id l).outcome = .ok (.ok (),
      ((s.modifyTask id fun u => { u with level := l.getD t.level, running := true }).pushBack
        (l.getD t.level) id).noteReadyAt (l.getD t.level)) := by
  have hmod : (s.setLevel id (l.getD t.level)).setRunning id true =
      s.modifyTask id fun u => { u with level := l.getD t.level, running := true } := by
    unfold setLevel setRunning
    exact modifyTask_modifyTask s id _ _
  unfold wakeTask
  simp only [known, asleep, ← hmod]
  rfl

theorem wakeTask_ends (hs : s.Sound) (id : TaskId) (l : Option Level) :
    (s.wakeTask id l).Ends Stop.Never fun p => WakeOutcome s id l p.1 p.2 := by
  cases known : s.tasks.get? id with
  | none =>
    rw [wakeTask_of_unknown known]
    exact ends_pure (.unknown known)
  | some t =>
    by_cases asleep : t.running = false
    · refine ends_of_ok (outcome_wakeTask_of_asleep l known asleep) (.woken known ?_)
      exact .wake known asleep (by simp)
    have ready : t.running = true := by simpa using asleep
    cases l with
    | none =>
      rw [wakeTask_of_ready known ready]
      exact ends_pure (.kept known ready rfl)
    | some k =>
      unfold wakeTask
      simp only [known, ready]
      exact (moveTask_ends hs id k).imp fun p hp => .moved known ready rfl hp

/-- A level named by its number is refused by name, or the task is woken at it. -/
theorem wakeup_ends (hs : s.Sound) (id : TaskId) (level : Option Nat) :
    (s.wakeup id level).Ends Stop.Never fun p =>
      (∃ n, level = some n ∧ 4 ≤ n ∧ p = (.error (.invalidLevel n), s)) ∨
      ∃ l : Option Level, l.map Fin.val = level ∧ WakeOutcome s id l p.1 p.2 := by
  unfold wakeup
  cases level with
  | none => exact (wakeTask_ends hs id none).imp fun p hp => .inr ⟨none, rfl, hp⟩
  | some n =>
    by_cases hn : n < 4
    · simp only [Level.ofNat?_of_lt hn]
      exact (wakeTask_ends hs id (some ⟨n, hn⟩)).imp fun p hp => .inr ⟨some ⟨n, hn⟩, rfl, hp⟩
    · have hle : 4 ≤ n := by omega
      simp only [Level.ofNat?_of_le hle]
      exact ends_pure (.inl ⟨n, rfl, hle, rfl⟩)

/-! ## Messages -/

/-- What can come of sending `m` to the task `id`. -/
inductive SendOutcome (s : Scheduler) (id : TaskId) (m : Message) :
    Answer Unit → Scheduler → Prop
  /-- There is no such task, and the message is lost. -/
  | unknown (missing : s.tasks.get? id = none) :
      SendOutcome s id m (.error (.noSuchTask id)) s
  /-- The task is awake and gets the message. -/
  | posted {t : Task} {s' : Scheduler} (known : s.tasks.get? id = some t)
      (step : Step s (.post id m) s') : SendOutcome s id m (.ok ()) s'
  /-- The task wakes up and finds the message. -/
  | woken {t : Task} {s' : Scheduler} (known : s.tasks.get? id = some t)
      (step : Step s (.wake id t.level [m]) s') : SendOutcome s id m (.ok ()) s'

theorem send_of_unknown {id : TaskId} (missing : s.tasks.get? id = none) (m : Message) :
    s.send id m = pure (.error (.noSuchTask id), s) := by
  unfold send
  rw [missing]

/-- **Sending never fails to wake.**  The message is put down first and the task woken after
    it; to whoever looks at the states, both happen at once. -/
theorem send_ends (s : Scheduler) (id : TaskId) (m : Message) :
    (s.send id m).Ends Stop.Never fun p => SendOutcome s id m p.1 p.2 := by
  unfold send
  cases known : s.tasks.get? id with
  | none => exact ends_pure (.unknown known)
  | some t =>
    refine ends_bind_of_ok (a := ()) rfl ?_
    have hdelivered : (s.modifyTask id (·.deliver m)).tasks.get? id = some (t.deliver m) := by
      simp [known]
    by_cases asleep : t.running = false
    · refine ends_of_ok (outcome_wakeTask_of_asleep none hdelivered asleep) (.woken known ?_)
      rw [modifyTask_modifyTask]
      exact .wake known asleep rfl
    · have ready : t.running = true := by simpa using asleep
      rw [wakeTask_of_ready hdelivered ready]
      exact ends_pure (.posted known (.post known ready rfl))

/-- Taking the oldest message is a step if there is such a task, also if its inbox is empty. -/
theorem step_receive {id : TaskId} {t : Task} (known : s.tasks.get? id = some t) :
    Step s (.take id t.receive.1.toList) (s.modifyTask id (·.receive.2)) :=
  .take known (Inbox.pop_append t.inbox).symm rfl

theorem receive_of_known {id : TaskId} {t : Task} (known : s.tasks.get? id = some t) :
    s.receive id = (.ok t.receive.1, s.modifyTask id (·.receive.2)) := by
  unfold receive
  rw [known]

theorem receive_of_unknown {id : TaskId} (missing : s.tasks.get? id = none) :
    s.receive id = (.error (.noSuchTask id), s) := by
  unfold receive
  rw [missing]

theorem step_drain {id : TaskId} {t : Task} (known : s.tasks.get? id = some t) :
    Step s (.take id t.inbox.messages) (s.modifyTask id fun u => { u with inbox := .empty }) :=
  .take known (List.append_nil _).symm rfl

theorem drain_of_known {id : TaskId} {t : Task} (known : s.tasks.get? id = some t) :
    s.drain id =
      (.ok t.inbox.messages, s.modifyTask id fun u => { u with inbox := .empty }) := by
  unfold drain
  rw [known]

theorem drain_of_unknown {id : TaskId} (missing : s.tasks.get? id = none) :
    s.drain id = (.error (.noSuchTask id), s) := by
  unfold drain
  rw [missing]

theorem receiveCurrent_of_current {id : TaskId} {t : Task} (current : s.currentId = .ok id)
    (known : s.tasks.get? id = some t) :
    s.receiveCurrent = .ok (t.receive.1, s.modifyTask id (·.receive.2)) := by
  unfold receiveCurrent
  rw [current]
  show (s.queuedTask id).bind _ = _
  rw [queuedTask_of_known known]
  rfl

/-! ## Waiting -/

/-- What can come of a round of waiting: the message, the change of turns, and the state. -/
inductive WaitOutcome (s : Scheduler) : Option Message → Option Handoff → Scheduler → Prop
  /-- The current task takes its oldest message. -/
  | took {id : TaskId} {t : Task} {m : Message} {s' : Scheduler} (current : s.currentId = .ok id)
      (known : s.tasks.get? id = some t) (step : Step s (.take id [m]) s') :
      WaitOutcome s (some m) none s'
  /-- The idle task finds nothing, and stays awake. -/
  | idled {t : Task} (current : s.currentId = .ok s.idle)
      (known : s.tasks.get? s.idle = some t) (nothing : t.inbox.messages = []) :
      WaitOutcome s none none s
  /-- The current task finds nothing and falls asleep. -/
  | retired {id : TaskId} {t : Task} {change : Handoff} {s' : Scheduler}
      (current : s.currentId = .ok id) (known : s.tasks.get? id = some t)
      (nothing : t.inbox.messages = []) (leaving : change.leaving = id)
      (step : Step s (.retire change) s') : WaitOutcome s none (some change) s'

theorem waitStep_ends (hs : s.Sound) :
    s.waitStep.Ends Stop.Never fun p => WaitOutcome s p.1 p.2.1 p.2.2 := by
  obtain ⟨id, rest, head, current⟩ := hs.exists_current
  obtain ⟨t, known, ready, -⟩ := hs.current_known current
  unfold waitStep
  refine ends_bind_of_ok (a := id) current ?_
  refine ends_bind_of_ok (a := t) (queuedTask_of_known known) ?_
  rcases hmail : t.inbox.messages with _ | ⟨m, others⟩
  · have hpop : t.receive = (none, t) := by
      unfold Task.receive Inbox.pop
      rw [hmail]
    rw [hpop, hs.named known]
    refine ends_bind (sleep_ends hs id) ?_
    rintro ⟨answer, s'⟩ slept
    cases slept with
    | unknown missing => exact ends_pure (by rw [known] at missing; nomatch missing)
    | kept known' why =>
      obtain rfl := Option.some.inj (known.symm.trans known')
      rcases why with hr | hidle
      · rw [ready] at hr
        nomatch hr
      · exact ends_pure (.idled (hidle ▸ current) (hidle ▸ known) hmail)
    | retired known' wakeful current' leaving step =>
      exact ends_pure (.retired current known hmail leaving step)
    | dismissed known' wakeful other step => exact absurd current other
  · have hpop : t.receive = (some m, { t with inbox := ⟨others⟩ }) := by
      unfold Task.receive Inbox.pop
      rw [hmail]
    rw [hpop]
    exact ends_pure (.took current known (.take known hmail rfl))

end Scheduler

end PreemptiveKernel
