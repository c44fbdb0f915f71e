/-
  What every step preserves.

  `Sound` is the invariant of the scheduler.  The keys of the task table are the numbers that
  have been given out, and every task is kept under its own; the queues agree with the table
  (`Arranged`); the idle task is ready at the lowest level; there is a current task; and a
  level above the current one has ready tasks only if another choice of level is requested
  (`Prompt`).

  The parts hang together.  A turn can end because there is a current task, and there is one
  after it because the idle task never leaves its queue.  A task can be taken out of a queue
  because `Arranged` says that it stands there.  So they are preserved together
  (`Step.sound`), and runs of steps preserve them by induction (`Steps.sound`).
-/
import PreemptiveKernel.Proofs.Steps

namespace PreemptiveKernel.Scheduler

variable {s s' : Scheduler} {a : Act}

/-- **The invariant of the scheduler.** -/
structure Sound (s : Scheduler) : Prop where
  /-- Identifiers have been given out from one on, without a gap. -/
  keys : s.tasks.keys = (List.range' 1 s.latest).map TaskId.mk
  /-- Every task is kept under its own identifier. -/
  named : ∀ {id t}, s.tasks.get? id = some t → t.id = id
  /-- The queues agree with the task table. -/
  arranged : s.Arranged
  /-- The idle task is ready at the lowest level. -/
  idle_ready : s.station s.idle = some .bottom
  /-- There is a current task. -/
  occupied : s.queue s.currentLevel ≠ []
  /-- A higher level with ready tasks has been noticed. -/
  prompt : s.Prompt

/-! ## What follows from it -/

theorem Sound.keys_nodup (h : s.Sound) : s.tasks.keys.Nodup := by
  rw [h.keys]
  refine List.Pairwise.map _ (fun a b hab e => hab ?_) List.nodup_range'
  injection e

theorem Sound.fresh (h : s.Sound) : s.tasks.get? ⟨s.latest + 1⟩ = none := by
  rw [TaskTable.get?_eq_none_iff, h.keys]
  intro hm
  obtain ⟨n, hn, he⟩ := List.mem_map.mp hm
  rw [List.mem_range'_1] at hn
  injection he with he
  omega

/-- There is a current task, and it heads its queue. -/
theorem Sound.exists_current (h : s.Sound) :
    ∃ id rest, s.queue s.currentLevel = id :: rest ∧ s.currentId = .ok id :=
  exists_current_of_ne_nil h.occupied

/-- Who stands in a queue is a task of that level and ready. -/
theorem Sound.of_mem_queue (h : s.Sound) {id : TaskId} {l : Level} (hm : id ∈ s.queue l) :
    ∃ t, s.tasks.get? id = some t ∧ t.running = true ∧ t.level = l := by
  have hst := h.arranged.mem_queue_iff.mp hm
  obtain ⟨t, ht, hl⟩ := Option.bind_eq_some_iff.mp hst
  exact ⟨t, ht, Task.station_eq_some_iff.mp hl⟩

theorem Sound.mem_queue (h : s.Sound) {id : TaskId} {t : Task} (ht : s.tasks.get? id = some t)
    (hr : t.running = true) : id ∈ s.queue t.level := by
  rw [h.arranged.mem_queue_iff, station_of_known ht]
  exact Task.station_eq_some_iff.mpr ⟨hr, rfl⟩

/-- Nobody stands twice in a queue. -/
theorem Sound.queue_nodup (h : s.Sound) (l : Level) : (s.queue l).Nodup := by
  refine List.nodup_iff_count.mpr fun id => ?_
  rw [h.arranged id l]
  split
  · exact Nat.le_refl 1
  · exact Nat.zero_le 1

/-- The current task is a ready task of the current level. -/
theorem Sound.current_known (h : s.Sound) {id : TaskId} (hc : s.currentId = .ok id) :
    ∃ t, s.tasks.get? id = some t ∧ t.running = true ∧ t.level = s.currentLevel := by
  obtain ⟨rest, hq⟩ := currentId_eq_ok_iff.mp hc
  exact h.of_mem_queue (hq ▸ List.mem_cons_self)

theorem Sound.current_ready (h : s.Sound) {id : TaskId} {t : Task} (hc : s.currentId = .ok id)
    (known : s.tasks.get? id = some t) : t.running = true ∧ t.level = s.currentLevel := by
  obtain ⟨u, hu, hready⟩ := h.current_known hc
  obtain rfl := Option.some.inj (hu.symm.trans known)
  exact hready

theorem Sound.idle_known (h : s.Sound) :
    ∃ t, s.tasks.get? s.idle = some t ∧ t.running = true ∧ t.level = .bottom :=
  h.of_mem_queue (h.arranged.mem_queue_iff.mpr h.idle_ready)

/-! ## The table -/

/-- Who created the scheduler and who idles in it never changes. -/
theorem Step.frame (h : Step s a s') : s'.main = s.main ∧ s'.idle = s.idle := by
  cases h with
  | _ => simp [pushBack, setLevel, setRunning]

theorem Step.keys (hs : s.Sound) (h : Step s a s') :
    s'.tasks.keys = (List.range' 1 s'.latest).map TaskId.mk := by
  cases h with
  | enroll next fresh asleep empty =>
    show (s.tasks.insert _ _).keys = (List.range' 1 (s.latest + 1)).map TaskId.mk
    rw [TaskTable.keys_insert_of_fresh fresh, hs.keys, next, List.range'_1_concat,
      List.map_append, Nat.add_comm s.latest 1]
    rfl
  | _ => simpa [pushBack, setLevel, setRunning] using hs.keys

theorem Step.named (hs : s.Sound) (h : Step s a s') {x : TaskId} {u : Task}
    (hu : s'.tasks.get? x = some u) : u.id = x := by
  rw [h.get?_eq x] at hu
  -- no act touches the identifier of a task
  have hkept : ∀ f : Task → Task, (s.tasks.get? x).map f = some u →
      (∀ t, (f t).id = t.id) → u.id = x := by
    intro f hm hf
    obtain ⟨t, ht, rfl⟩ := Option.map_eq_some_iff.mp hm
    rw [hf, hs.named ht]
  cases a with
  | enroll t =>
    simp only [Act.revise] at hu
    split at hu
    · rename_i hx
      rw [hx, ← Option.some.inj hu]
    · exact hs.named hu
  | yield change => exact hs.named hu
  | _ =>
    simp only [Act.revise] at hu
    split at hu
    · exact hkept _ hu fun _ => rfl
    · exact hs.named hu

/-! ## The queues -/

/-- Where the task `x` belongs after an act, given where it belonged before. -/
def Act.restation (x : TaskId) (old : Option Level) : Act → Option Level
  | .wake id l _ | .transfer id l | .shift id l => if x = id then some l else old
  | .dismiss id => if x = id then none else old
  | .retire change => if x = change.leaving then none else old
  | _ => old

/-- **A step moves one task** at most, and to where `Act.restation` says. -/
theorem Step.station_eq (hs : s.Sound) (h : Step s a s') (x : TaskId) :
    s'.station x = a.restation x (s.station x) := by
  rw [station, h.get?_eq x]
  cases h with
  | @enroll t next fresh asleep empty =>
    show (if x = t.id then some t else s.tasks.get? x).bind Task.station = s.station x
    by_cases hx : x = t.id
    · rw [if_pos hx, hx, station, fresh, Option.bind_some, Option.bind_none,
        Task.station_eq_none_iff.mpr asleep]
    · rw [if_neg hx]
      rfl
  | equip known change => exact station_revised_same known rfl x
  | post known ready change => exact station_revised_same known rfl x
  | take known oldest change => exact station_revised_same known rfl x
  | relevel known asleep =>
    refine station_revised_same known ?_ x
    rw [Task.station_eq_none_iff.mpr asleep]
    exact Task.station_eq_none_iff.mpr asleep
  | wake known asleep change => exact station_revised known rfl x
  | dismiss known ready wakeful other => exact station_revised known rfl x
  | transfer known ready wakeful other elsewhere =>
    exact station_revised known (Task.station_eq_some_iff.mpr ⟨ready, rfl⟩) x
  | shift known wakeful current elsewhere =>
    obtain ⟨ready, -⟩ := hs.current_ready current known
    exact station_revised known (Task.station_eq_some_iff.mpr ⟨ready, rfl⟩) x
  | yield head chosen => rfl
  | retire head wakeful chosen =>
    obtain ⟨t, ht, -⟩ := hs.of_mem_queue (head ▸ List.mem_cons_self)
    exact station_revised ht rfl x

theorem Step.arranged (hs : s.Sound) (h : Step s a s') : s'.Arranged := by
  have ha := hs.arranged
  have hst := h.station_eq hs
  cases h with
  | enroll | equip | post | take | relevel => exact ha.of_perm (fun _ => .refl _) hst
  | @wake id t f l mail known asleep change =>
    refine ha.resettle id (some l) (fun k => ?_) hst
    have hgone : (s.queue k).erase id = s.queue k :=
      ha.erase_queue (by rw [station_of_asleep known asleep]; exact nofun)
    rw [hgone, queue_woken]
    by_cases hk : l = k
    · rw [if_pos hk.symm, if_pos (by rw [hk])]
      exact List.perm_append_singleton _ _
    · rw [if_neg (Ne.symm hk), if_neg (fun e => hk (Option.some.inj e))]
  | @dismiss id t known ready wakeful other =>
    refine ha.resettle id none (fun k => ?_) hst
    rw [if_neg nofun, queue_dismissed]
    by_cases hk : k = t.level
    · rw [if_pos hk]
    · rw [if_neg hk, ha.erase_queue_of_ready known ready hk]
  | @transfer id t l known ready wakeful other elsewhere =>
    refine ha.resettle id (some l) (fun k => ?_) hst
    rw [queue_transferred]
    by_cases hk : k = t.level
    · -- the queue that is left
      rw [if_pos hk, if_neg (fun e => elsewhere (e.symm.trans hk)),
        if_neg (fun e => elsewhere ((Option.some.inj e).trans hk))]
    · rw [if_neg hk, ha.erase_queue_of_ready known ready hk]
      by_cases hl : l = k
      · rw [if_pos hl.symm, if_pos (by rw [hl])]
        exact List.perm_append_singleton _ _
      · rw [if_neg (Ne.symm hl), if_neg (fun e => hl (Option.some.inj e))]
  | @shift id t l known wakeful current elsewhere =>
    obtain ⟨ready, hlevel⟩ := hs.current_ready current known
    obtain ⟨rest, head⟩ := currentId_eq_ok_iff.mp current
    refine ha.resettle id (some l) (fun k => ?_) hst
    rw [queue_shifted s id (fun e => elsewhere (e.trans hlevel.symm))]
    by_cases hl : l = k
    · have hk : k ≠ t.level := fun e => elsewhere (hl.trans e)
      rw [if_pos hl.symm, if_pos (by rw [hl]), ha.erase_queue_of_ready known ready hk]
    · rw [if_neg (Ne.symm hl), if_neg (fun e => hl (Option.some.inj e))]
      by_cases hk : k = s.currentLevel
      · rw [if_pos hk, hk, head, List.tail_cons, List.erase_cons_head]
      · rw [if_neg hk, ha.erase_queue_of_ready known ready (hlevel ▸ hk)]
  | @yield id next rest head chosen =>
    refine ha.of_perm (fun k => ?_) hst
    rw [queue_settle]
    by_cases hk : k = s.currentLevel
    · rw [if_pos hk, hk, head]
      exact List.perm_append_singleton _ _
    · rw [if_neg hk]
  | @retire id next rest head wakeful chosen =>
    obtain ⟨t, known, ready, hlevel⟩ := hs.of_mem_queue (head ▸ List.mem_cons_self)
    refine ha.resettle id none (fun k => ?_) hst
    have hlevel' : (s.setRunning id false).currentLevel = s.currentLevel := rfl
    rw [if_neg nofun, queue_settle, hlevel']
    by_cases hk : k = s.currentLevel
    · rw [if_pos hk, hk, head, List.erase_cons_head]
    · rw [if_neg hk, ha.erase_queue_of_ready known ready (hlevel ▸ hk)]
      exact .refl _

/-- The idle task is never put to sleep and never moved. -/
theorem Step.idle_ready (hs : s.Sound) (h : Step s a s') : s'.station s'.idle = some .bottom := by
  rw [h.frame.2, h.station_eq hs, hs.idle_ready]
  cases h with
  | wake known asleep change =>
    -- the idle task is awake already
    have hne : s.idle ≠ _ := fun e => by
      have hi := hs.idle_ready
      rw [e, station_of_asleep known asleep] at hi
      nomatch hi
    exact if_neg hne
  | dismiss known ready wakeful other => exact if_neg (Ne.symm wakeful)
  | transfer known ready wakeful other elsewhere => exact if_neg (Ne.symm wakeful)
  | shift known wakeful current elsewhere => exact if_neg (Ne.symm wakeful)
  | retire head wakeful chosen => exact if_neg (Ne.symm wakeful)
  | _ => rfl

/-! ## The current task and its level -/

/-- Nobody but the head can take the head away. -/
theorem exists_head_of_erase {q rest : List TaskId} {cur id : TaskId} {p : Prop} [Decidable p]
    (head : q = cur :: rest) (hne : cur ≠ id) :
    ∃ rest', (if p then q.erase id else q) = cur :: rest' := by
  split
  · rw [head, List.erase_cons_tail (by simpa using hne)]
    exact ⟨_, rfl⟩
  · exact ⟨rest, head⟩

theorem ne_nil_of_erase {q : List TaskId} {id : TaskId} {p : Prop} [Decidable p]
    (h : (if p then q.erase id else q) ≠ []) : q ≠ [] := by
  intro hnil
  rw [hnil, List.erase_nil, ite_self] at h
  exact h rfl

/-- **Only a turn changes the current task.**  Whatever else happens to the queues, nobody
    gets in front of the task that runs, and it takes the current level along. -/
theorem Step.current_kept (hs : s.Sound) (h : Step s a s') (ha : a.turn = none) :
    s'.currentId = s.currentId := by
  obtain ⟨cur, rest, head, hcur⟩ := hs.exists_current
  rw [hcur]
  cases h with
  | enroll | equip | post | take | relevel => exact hcur
  | @wake id t f l mail known asleep change =>
    -- who wakes up joins the tail
    refine currentId_of_head (s := s) (noteReadyAt_frame _ _).2.2.1 ?_
    rw [queue_woken, head]
    split
    · exact ⟨_, rfl⟩
    · exact ⟨_, rfl⟩
  | @dismiss id t known ready wakeful other =>
    -- who leaves is not the head
    refine currentId_of_head (s := s) (setQueue_frame _ _ _).2.2.1 ?_
    rw [queue_dismissed]
    exact exists_head_of_erase head fun e => other (e ▸ hcur)
  | @transfer id t l known ready wakeful other elsewhere =>
    refine currentId_of_head (s := s) (noteReadyAt_frame _ _).2.2.1 ?_
    obtain ⟨rest', hrest⟩ : ∃ rest', (if s.currentLevel = t.level
        then (s.queue s.currentLevel).erase id else s.queue s.currentLevel) = cur :: rest' :=
      exists_head_of_erase head fun e => other (e ▸ hcur)
    rw [queue_transferred, hrest]
    split
    · exact ⟨_, rfl⟩
    · exact ⟨_, rfl⟩
  | @shift id t l known wakeful current elsewhere =>
    obtain ⟨ready, hlevel⟩ := hs.current_ready current known
    -- the current task goes to the head of its new level, which becomes the current one
    obtain rfl : cur = id := Except.ok.inj (hcur.symm.trans current)
    rw [currentId_eq_ok_iff, (shifted_frame _ _ _).2.2.1,
      queue_shifted s cur (fun e => elsewhere (e.trans hlevel.symm)), if_pos rfl]
    exact ⟨_, rfl⟩
  | yield head chosen => cases ha
  | retire head wakeful chosen => cases ha

/-- A turn passes from the task that is current before it to the one that is afterwards. -/
theorem Step.current_passed (h : Step s a s') {change : Handoff} (ha : a.turn = some change) :
    s.currentId = .ok change.leaving ∧ s'.currentId = .ok change.entering := by
  cases h with
  | yield head chosen =>
    obtain rfl := Option.some.inj ha
    exact ⟨currentId_eq_ok_iff.mpr ⟨_, head⟩, chosen⟩
  | retire head wakeful chosen =>
    obtain rfl := Option.some.inj ha
    exact ⟨currentId_eq_ok_iff.mpr ⟨_, head⟩, chosen⟩
  | _ => nomatch ha

theorem Sound.settled_yield (hs : s.Sound) (id : TaskId) (rest : List TaskId) :
    (s.settle (rest ++ [id])).Settled := by
  refine settled_settle hs.prompt ⟨s.currentLevel, ?_⟩
  rw [queue_settle, if_pos rfl]
  exact List.append_ne_nil_of_right_ne_nil _ (List.cons_ne_nil _ _)

/-- The idle task, which never leaves its queue, makes sure that there is a task to run when
    another goes to sleep. -/
theorem Sound.settled_retire (hs : s.Sound) {id : TaskId} {rest : List TaskId}
    (head : s.queue s.currentLevel = id :: rest) (wakeful : id ≠ s.idle) :
    ((s.setRunning id false).settle rest).Settled := by
  have hidle := hs.arranged.mem_queue_iff.mpr hs.idle_ready
  refine settled_settle (s := s.setRunning id false) hs.prompt ⟨.bottom, ?_⟩
  rw [queue_settle]
  show (if Level.bottom = s.currentLevel then rest else s.queue .bottom) ≠ []
  split
  · rename_i hl
    rw [hl, head] at hidle
    rcases List.mem_cons.mp hidle with heq | hin
    · exact absurd heq.symm wakeful
    · exact List.ne_nil_of_mem hin
  · exact List.ne_nil_of_mem hidle

/-- **After every turn the best task runs.** -/
theorem Step.settled (hs : s.Sound) (h : Step s a s') {change : Handoff}
    (ha : a.turn = some change) : s'.Settled := by
  cases h with
  | yield head chosen => exact hs.settled_yield _ _
  | retire head wakeful chosen => exact hs.settled_retire head wakeful
  | _ => nomatch ha

theorem Step.occupied (hs : s.Sound) (h : Step s a s') : s'.queue s'.currentLevel ≠ [] := by
  cases ha : a.turn with
  | none =>
    obtain ⟨cur, -, -, hcur⟩ := hs.exists_current
    rw [← h.current_kept hs ha] at hcur
    obtain ⟨rest, head⟩ := currentId_eq_ok_iff.mp hcur
    rw [head]
    exact List.cons_ne_nil _ _
  | some change => exact (h.settled hs ha).occupied

/-- A level that gets ready tasks above the current one is noticed, and so is one that is left
    behind when the current task goes to a lower level. -/
theorem Step.prompt (hs : s.Sound) (h : Step s a s') : s'.Prompt := by
  intro k hk hne
  cases h with
  | enroll | equip | post | take | relevel => exact hs.prompt k hk hne
  | @wake id t f l mail known asleep change =>
    rw [(noteReadyAt_frame _ _).2.2.1] at hk
    rw [queue_woken] at hne
    rw [reschedule_noteReadyAt, Bool.or_eq_true]
    by_cases hkl : k = l
    · exact .inr (decide_eq_true (hkl ▸ hk))
    · rw [if_neg hkl] at hne
      exact .inl (hs.prompt k hk hne)
  | @dismiss id t known ready wakeful other =>
    rw [queue_dismissed] at hne
    exact hs.prompt k hk (ne_nil_of_erase hne)
  | @transfer id t l known ready wakeful other elsewhere =>
    rw [(noteReadyAt_frame _ _).2.2.1] at hk
    rw [queue_transferred] at hne
    rw [reschedule_noteReadyAt, Bool.or_eq_true]
    by_cases hkl : k = l
    · exact .inr (decide_eq_true (hkl ▸ hk))
    · rw [if_neg hkl] at hne
      exact .inl (hs.prompt k hk (ne_nil_of_erase hne))
  | @shift id t l known wakeful current elsewhere =>
    obtain ⟨ready, hlevel⟩ := hs.current_ready current known
    have hlne : l ≠ s.currentLevel := fun e => elsewhere (e.trans hlevel.symm)
    rw [(shifted_frame _ _ _).2.2.1] at hk
    rw [(shifted_frame _ _ _).2.2.2.1, Bool.or_eq_true]
    by_cases hlow : l < s.currentLevel
    · exact .inr (decide_eq_true hlow)
    · -- above the new level there is nothing that is not above the old one
      rw [queue_shifted s id hlne] at hne
      have hkc : s.currentLevel < k := Fin.lt_of_le_of_lt (Fin.not_lt.mp hlow) hk
      rw [if_neg (Fin.ne_of_gt hk), if_neg (Fin.ne_of_gt hkc)] at hne
      exact .inl (hs.prompt k hkc hne)
  | yield head chosen => exact (hs.settled_yield _ _).prompt k hk hne
  | retire head wakeful chosen => exact (hs.settled_retire head wakeful).prompt k hk hne

/-! ## The invariant -/

theorem Step.sound (hs : s.Sound) (h : Step s a s') : s'.Sound where
  keys := h.keys hs
  named := h.named hs
  arranged := h.arranged hs
  idle_ready := h.idle_ready hs
  occupied := h.occupied hs
  prompt := h.prompt hs

/-- **Runs of steps preserve it.** -/
theorem Steps.sound {acts : List Act} (hs : s.Sound) (h : Steps s acts s') : s'.Sound := by
  induction h with
  | nil => exact hs
  | cons first _ ih => exact ih (first.sound hs)

theorem Steps.frame {acts : List Act} (h : Steps s acts s') :
    s'.main = s.main ∧ s'.idle = s.idle := by
  induction h with
  | nil => exact ⟨rfl, rfl⟩
  | cons first _ ih => exact ⟨ih.1.trans first.frame.1, ih.2.trans first.frame.2⟩

end PreemptiveKernel.Scheduler
