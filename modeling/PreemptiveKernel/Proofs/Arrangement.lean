/-
  Who stands in which queue.

  A task that is ready belongs in one queue, that of its level; a task that sleeps belongs in
  none.  `station` reads this off the task table, and `Arranged` says that the queues agree
  with it: a task is counted once in the queue where it belongs and nowhere else.

  Every change of the queues takes one task out of wherever it stands and puts it at most in
  one place, so one law covers them all (`Arranged.resettle`): waking, falling asleep, moving
  to another level and waiting for the next turn differ only in the place and in the end of
  the queue.  The order inside a queue does not matter to `Arranged`.
-/
import PreemptiveKernel.Scheduler.Operations

namespace PreemptiveKernel

/-! ## The task table as a map -/

namespace TaskTable

theorem find?_eq_none_iff {entries : List (TaskId × Task)} {id : TaskId} :
    find? entries id = none ↔ id ∉ entries.map Prod.fst := by
  induction entries with
  | nil => simp [find?]
  | cons p rest ih =>
    obtain ⟨k, t⟩ := p
    by_cases hk : k = id
    · simp [find?, hk]
    · have : ¬ id = k := fun e => hk e.symm
      simp [find?, hk, this, ih]

theorem get?_eq_none_iff {table : TaskTable} {id : TaskId} :
    table.get? id = none ↔ id ∉ table.keys :=
  find?_eq_none_iff

theorem mem_keys_iff {table : TaskTable} {id : TaskId} :
    id ∈ table.keys ↔ ∃ t, table.get? id = some t := by
  rw [← Option.isSome_iff_exists, Option.isSome_iff_ne_none, Ne, get?_eq_none_iff, Classical.not_not]

theorem find?_of_mem {entries : List (TaskId × Task)} {id : TaskId} {t : Task}
    (hn : (entries.map Prod.fst).Nodup) (h : (id, t) ∈ entries) : find? entries id = some t := by
  induction entries with
  | nil => nomatch h
  | cons p rest ih =>
    obtain ⟨k, u⟩ := p
    obtain ⟨hk, hrest⟩ := List.nodup_cons.mp hn
    rcases List.mem_cons.mp h with heq | hin
    · cases heq
      simp [find?]
    · -- a second entry under the key of the first is ruled out
      have hne : k ≠ id := by
        rintro rfl
        exact hk (List.mem_map.mpr ⟨_, hin, rfl⟩)
      simp [find?, hne, ih hrest hin]

/-- Where no key occurs twice, an entry of the table is what a look-up finds. -/
theorem get?_of_mem {table : TaskTable} {id : TaskId} {t : Task} (hn : table.keys.Nodup)
    (h : (id, t) ∈ table.entries) : table.get? id = some t :=
  find?_of_mem hn h

theorem mem_of_find? {entries : List (TaskId × Task)} {id : TaskId} {t : Task}
    (h : find? entries id = some t) : (id, t) ∈ entries := by
  induction entries with
  | nil => nomatch h
  | cons p rest ih =>
    obtain ⟨k, u⟩ := p
    unfold find? at h
    split at h
    · rename_i hk
      obtain rfl := Option.some.inj h
      rw [hk]
      exact List.mem_cons_self
    · exact List.mem_cons_of_mem _ (ih h)

/-- What a look-up finds is an entry of the table. -/
theorem mem_entries_of_get? {table : TaskTable} {id : TaskId} {t : Task}
    (h : table.get? id = some t) : (id, t) ∈ table.entries :=
  mem_of_find? h

/-- Where no key occurs twice, a change is known by what it does to the task that is there. -/
theorem modify_congr {table : TaskTable} {id : TaskId} {t : Task} {f g : Task → Task}
    (hn : table.keys.Nodup) (known : table.get? id = some t) (h : f t = g t) :
    table.modify id f = table.modify id g := by
  unfold modify
  congr 1
  refine List.map_congr_left fun p hp => ?_
  by_cases hid : p.1 = id
  · have found : table.get? id = some p.2 := get?_of_mem hn (hid ▸ hp)
    obtain rfl := Option.some.inj (known.symm.trans found)
    rw [if_pos hid, if_pos hid, h]
  · rw [if_neg hid, if_neg hid]

/-- A change that keeps the task that is there keeps the table. -/
theorem modify_eq_self {table : TaskTable} {id : TaskId} {t : Task} {f : Task → Task}
    (hn : table.keys.Nodup) (known : table.get? id = some t) (h : f t = t) :
    table.modify id f = table := by
  rw [modify_congr (g := fun u => u) hn known h]
  simp [modify]

theorem modify_modify (table : TaskTable) (id : TaskId) (f g : Task → Task) :
    (table.modify id f).modify id g = table.modify id (g ∘ f) := by
  simp only [modify, List.map_map]
  congr 1
  apply List.map_congr_left
  intro p _
  by_cases h : p.1 = id <;> simp [h]

end TaskTable

namespace Scheduler

variable (s : Scheduler)

/-! ## What each change leaves alone -/

@[simp] theorem setQueue_frame (l : Level) (q : List TaskId) :
    (s.setQueue l q).tasks = s.tasks ∧ (s.setQueue l q).latest = s.latest ∧
    (s.setQueue l q).currentLevel = s.currentLevel ∧
    (s.setQueue l q).reschedule = s.reschedule ∧ (s.setQueue l q).main = s.main ∧
    (s.setQueue l q).idle = s.idle ∧ (s.setQueue l q).config = s.config :=
  ⟨rfl, rfl, rfl, rfl, rfl, rfl, rfl⟩

@[simp] theorem modifyTask_frame (id : TaskId) (f : Task → Task) :
    (s.modifyTask id f).tasks = s.tasks.modify id f ∧
    (s.modifyTask id f).latest = s.latest ∧ (s.modifyTask id f).queue = s.queue ∧
    (s.modifyTask id f).currentLevel = s.currentLevel ∧
    (s.modifyTask id f).reschedule = s.reschedule ∧ (s.modifyTask id f).main = s.main ∧
    (s.modifyTask id f).idle = s.idle ∧ (s.modifyTask id f).config = s.config :=
  ⟨rfl, rfl, rfl, rfl, rfl, rfl, rfl, rfl⟩

@[simp] theorem requestReschedule_frame :
    s.requestReschedule.tasks = s.tasks ∧ s.requestReschedule.latest = s.latest ∧
    s.requestReschedule.queue = s.queue ∧
    s.requestReschedule.currentLevel = s.currentLevel ∧
    s.requestReschedule.reschedule = true ∧ s.requestReschedule.main = s.main ∧
    s.requestReschedule.idle = s.idle ∧ s.requestReschedule.config = s.config :=
  ⟨rfl, rfl, rfl, rfl, rfl, rfl, rfl, rfl⟩

@[simp] theorem noteReadyAt_frame (l : Level) :
    (s.noteReadyAt l).tasks = s.tasks ∧ (s.noteReadyAt l).latest = s.latest ∧
    (s.noteReadyAt l).currentLevel = s.currentLevel ∧
    (s.noteReadyAt l).main = s.main ∧ (s.noteReadyAt l).idle = s.idle ∧
    (s.noteReadyAt l).config = s.config := by
  unfold noteReadyAt
  split <;> exact ⟨rfl, rfl, rfl, rfl, rfl, rfl⟩

@[simp] theorem reschedule_noteReadyAt (l : Level) :
    (s.noteReadyAt l).reschedule = (s.reschedule || decide (s.currentLevel < l)) := by
  unfold noteReadyAt
  split
  · rename_i h
    simp [h]
  · rename_i h
    simp [h]

@[simp] theorem chooseLevel_frame :
    s.chooseLevel.tasks = s.tasks ∧ s.chooseLevel.latest = s.latest ∧
    s.chooseLevel.queue = s.queue ∧ s.chooseLevel.reschedule = false ∧
    s.chooseLevel.main = s.main ∧ s.chooseLevel.idle = s.idle ∧
    s.chooseLevel.config = s.config := by
  unfold chooseLevel
  split
  · exact ⟨rfl, rfl, rfl, rfl, rfl, rfl, rfl⟩
  · rename_i h
    exact ⟨rfl, rfl, rfl, by simpa using h, rfl, rfl, rfl⟩

theorem queue_pushBack (l k : Level) (id : TaskId) :
    (s.pushBack l id).queue k = if k = l then s.queue k ++ [id] else s.queue k := by
  rw [pushBack, queue_setQueue]
  split
  · rename_i h
    rw [h]
  · rfl

theorem queue_pushFront (l k : Level) (id : TaskId) :
    (s.pushFront l id).queue k = if k = l then id :: s.queue k else s.queue k := by
  rw [pushFront, queue_setQueue]
  split
  · rename_i h
    rw [h]
  · rfl

theorem queue_popFront (l k : Level) :
    (s.popFront l).queue k = if k = l then (s.queue k).tail else s.queue k := by
  rw [popFront, queue_setQueue]
  split
  · rename_i h
    rw [h]
  · rfl

theorem modifyTask_modifyTask (id : TaskId) (f g : Task → Task) :
    (s.modifyTask id f).modifyTask id g = s.modifyTask id (g ∘ f) := by
  simp [modifyTask, TaskTable.modify_modify]

/-! ## Stations -/

end Scheduler

/-- The level whose queue the task belongs in; `none` while it sleeps. -/
def Task.station (t : Task) : Option Level :=
  if t.running then some t.level else none

theorem Task.station_eq_some_iff {t : Task} {l : Level} :
    t.station = some l ↔ t.running = true ∧ t.level = l := by
  unfold station
  split <;> simp_all

theorem Task.station_eq_none_iff {t : Task} : t.station = none ↔ t.running = false := by
  unfold station
  split <;> simp_all

namespace Scheduler

variable {s s' : Scheduler} {id : TaskId}

/-- The level whose queue the task with this identifier belongs in. -/
def station (s : Scheduler) (id : TaskId) : Option Level :=
  (s.tasks.get? id).bind Task.station

theorem station_of_known {t : Task} (h : s.tasks.get? id = some t) :
    s.station id = t.station := by
  rw [station, h, Option.bind_some]

theorem station_of_ready {t : Task} (known : s.tasks.get? id = some t)
    (ready : t.running = true) : s.station id = some t.level := by
  rw [station_of_known known]
  exact Task.station_eq_some_iff.mpr ⟨ready, rfl⟩

theorem station_of_asleep {t : Task} (known : s.tasks.get? id = some t)
    (asleep : t.running = false) : s.station id = none := by
  rw [station_of_known known]
  exact Task.station_eq_none_iff.mpr asleep

/-- The stations after one task has changed, given where it belongs then. -/
theorem station_revised {t : Task} {f : Task → Task} {place : Option Level}
    (known : s.tasks.get? id = some t) (hf : (f t).station = place) (x : TaskId) :
    (if x = id then (s.tasks.get? x).map f else s.tasks.get? x).bind Task.station =
      if x = id then place else s.station x := by
  by_cases hx : x = id
  · rw [if_pos hx, if_pos hx, hx, known, Option.map_some, Option.bind_some, hf]
  · rw [if_neg hx, if_neg hx]
    rfl

/-- A change that neither wakes a task nor lulls it nor moves it leaves all stations alone. -/
theorem station_revised_same {t : Task} {f : Task → Task}
    (known : s.tasks.get? id = some t) (hf : (f t).station = t.station) (x : TaskId) :
    (if x = id then (s.tasks.get? x).map f else s.tasks.get? x).bind Task.station =
      s.station x := by
  rw [station_revised known hf]
  by_cases hx : x = id
  · rw [if_pos hx, hx, station_of_known known]
  · rw [if_neg hx]

/-! ## The arrangement of the queues -/

/-- **The queues agree with the table**: every task is counted once in the queue where it
    belongs, and in no other. -/
def Arranged (s : Scheduler) : Prop :=
  ∀ id l, (s.queue l).count id = if s.station id = some l then 1 else 0

theorem Arranged.mem_queue_iff (h : s.Arranged) {l : Level} :
    id ∈ s.queue l ↔ s.station id = some l := by
  rw [← List.count_pos_iff, h id l]
  split <;> simp_all

/-- A task that does not belong in a queue leaves it as it is by leaving it. -/
theorem Arranged.erase_queue (h : s.Arranged) {l : Level} (hl : s.station id ≠ some l) :
    (s.queue l).erase id = s.queue l :=
  List.erase_of_not_mem fun hm => hl (h.mem_queue_iff.mp hm)

theorem Arranged.erase_queue_of_ready (h : s.Arranged) {t : Task} {k : Level}
    (known : s.tasks.get? id = some t) (ready : t.running = true) (hk : k ≠ t.level) :
    (s.queue k).erase id = s.queue k := by
  apply h.erase_queue
  rw [station_of_ready known ready]
  exact fun e => hk (Option.some.inj e).symm

/-- **One task changes its place.**  It is taken out of the queue it stands in, if any, and
    put into that of `place`, if any, wherever in the queue. -/
theorem Arranged.resettle (h : s.Arranged) (id : TaskId) (place : Option Level)
    (hq : ∀ k, (s'.queue k).Perm
      (if place = some k then id :: (s.queue k).erase id else (s.queue k).erase id))
    (hst : ∀ x, s'.station x = if x = id then place else s.station x) : s'.Arranged := by
  intro x k
  rw [(hq k).count_eq x, hst x]
  have hx := h x k
  by_cases hxi : x = id
  · -- of the task itself nothing is left but what is put in
    subst hxi
    have hgone : ((s.queue k).erase x).count x = 0 := by
      rw [List.count_erase_self, hx]
      split <;> rfl
    by_cases hk : place = some k
    · simp [hk, hgone]
    · simp [hk, hgone]
  · have hne : id ≠ x := fun e => hxi e.symm
    by_cases hk : place = some k
    · rw [if_pos hk, if_neg hxi, List.count_cons_of_ne hne, List.count_erase_of_ne hxi, hx]
    · rw [if_neg hk, if_neg hxi, List.count_erase_of_ne hxi, hx]

/-- Changing the order inside the queues changes no place. -/
theorem Arranged.of_perm (h : s.Arranged) (hq : ∀ k, (s'.queue k).Perm (s.queue k))
    (hst : ∀ x, s'.station x = s.station x) : s'.Arranged := by
  intro x k
  rw [(hq k).count_eq x, hst, h x k]

end Scheduler

end PreemptiveKernel
