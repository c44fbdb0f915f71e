/-
  The steps that a scheduler is made of.

  Everything a scheduler is ever asked to do is a sequence of a few indivisible acts.  `Step`
  says for each of them when it can happen and what the state is afterwards; a proof about
  all operations is a proof about these.

  Six acts leave the queues alone or only add to them: a task is enrolled, is equipped with a
  stack and a beginning, is posted a message, has messages taken from its inbox, gets another
  level while it sleeps, is woken.  Two concern a ready task other than the current one, which
  is dismissed to sleep or transferred to another level.  Three concern the current task: it
  shifts to another level and takes its turn along, it yields its turn, or it retires to sleep.

  A message is posted to a ready task only.  For a task that sleeps it comes with the waking,
  in one act, so that no state in between shows a sleeper with mail.
-/
import PreemptiveKernel.Proofs.Arrangement

namespace PreemptiveKernel

namespace Scheduler

variable {s s' : Scheduler}

/-! ## The end of a turn -/

/-- Leaves `q` to the current level and chooses the level to run. -/
def settle (s : Scheduler) (q : List TaskId) : Scheduler :=
  (if q.isEmpty then (s.setQueue s.currentLevel q).requestReschedule
    else s.setQueue s.currentLevel q).chooseLevel

@[simp] theorem settle_frame (s : Scheduler) (q : List TaskId) :
    (s.settle q).tasks = s.tasks ∧ (s.settle q).latest = s.latest ∧
    (s.settle q).reschedule = false ∧ (s.settle q).main = s.main ∧
    (s.settle q).idle = s.idle ∧ (s.settle q).config = s.config := by
  unfold settle
  split <;> simp

theorem queue_settle (s : Scheduler) (q : List TaskId) (k : Level) :
    (s.settle q).queue k = if k = s.currentLevel then q else s.queue k := by
  unfold settle
  split <;> simp [queue_setQueue]

/-- A level that waits for the processor has been noticed: above the current level tasks are
    ready only if another choice of level has been requested. -/
def Prompt (s : Scheduler) : Prop :=
  ∀ l, s.currentLevel < l → s.queue l ≠ [] → s.reschedule = true

/-- The best task runs: the current level is the highest that has a ready task, and nothing
    calls for another choice. -/
structure Settled (s : Scheduler) : Prop where
  /-- There is a current task. -/
  occupied : s.queue s.currentLevel ≠ []
  /-- Above it nobody is ready. -/
  highest : ∀ l, s.currentLevel < l → s.queue l = []
  /-- No other choice of level is requested. -/
  quiet : s.reschedule = false

theorem Settled.prompt (h : s.Settled) : s.Prompt :=
  fun l hl hne => absurd (h.highest l hl) hne

/-- Choosing a level settles the matter, whether the choice is made anew or the old one is
    kept. -/
theorem settled_chooseLevel (hp : s.Prompt) (hready : ∃ l, s.queue l ≠ [])
    (hkept : s.reschedule = false → s.queue s.currentLevel ≠ []) : s.chooseLevel.Settled := by
  by_cases hr : s.reschedule = true
  · obtain ⟨top, htop⟩ : ∃ top, s.highestReady = some top := by
      rw [← Option.ne_none_iff_exists']
      intro hnone
      obtain ⟨l, hl⟩ := hready
      exact hl (highestReady_eq_none_iff.mp hnone l)
    have hlevel : s.chooseLevel.currentLevel = top := by
      simp [chooseLevel, hr, htop]
    refine ⟨?_, fun l hl => ?_, by simp⟩
    · rw [hlevel, (chooseLevel_frame s).2.2.1]
      exact queue_ne_nil_of_highestReady htop
    · rw [hlevel] at hl
      rw [(chooseLevel_frame s).2.2.1]
      exact queue_eq_nil_of_highestReady_lt htop hl
  · -- no request: the level is kept, and promptness says that it is still the highest
    have hsame : s.chooseLevel = s := if_neg hr
    have hfalse : s.reschedule = false := by simpa using hr
    rw [hsame]
    refine ⟨hkept hfalse, fun l hl => ?_, hfalse⟩
    apply Classical.byContradiction
    intro hne
    exact hr (hp l hl hne)

theorem settled_settle {q : List TaskId} (hp : s.Prompt)
    (hready : ∃ l, (s.settle q).queue l ≠ []) : (s.settle q).Settled := by
  obtain ⟨l, hl⟩ := hready
  rw [queue_settle] at hl
  unfold settle
  cases q with
  | nil =>
    refine settled_chooseLevel (fun _ _ _ => rfl) ⟨l, ?_⟩ (fun h => nomatch h)
    simpa [queue_setQueue] using hl
  | cons id rest =>
    refine settled_chooseLevel (fun k hk hne => ?_) ⟨l, ?_⟩ (fun _ => ?_)
    · have hk' : s.currentLevel < k := hk
      have hne' : k ≠ s.currentLevel := fun e => Nat.lt_irrefl _ (e ▸ hk')
      refine hp k hk' ?_
      simpa [queue_setQueue, hne'] using hne
    · simpa [queue_setQueue] using hl
    · simp

/-! ## The current task at another level -/

/-- Moves the current task, which is `id`, to the head of level `l`, and the current level with
    it.  If the level is a lower one, there may be a better task now. -/
def shifted (s : Scheduler) (id : TaskId) (l : Level) : Scheduler :=
  { (if l < s.currentLevel then
      (((s.popFront s.currentLevel).pushFront l id).setLevel id l).requestReschedule
    else ((s.popFront s.currentLevel).pushFront l id).setLevel id l) with
    currentLevel := l }

@[simp] theorem shifted_frame (s : Scheduler) (id : TaskId) (l : Level) :
    (s.shifted id l).tasks = s.tasks.modify id (fun t => { t with level := l }) ∧
    (s.shifted id l).latest = s.latest ∧ (s.shifted id l).currentLevel = l ∧
    (s.shifted id l).reschedule = (s.reschedule || decide (l < s.currentLevel)) ∧
    (s.shifted id l).main = s.main ∧ (s.shifted id l).idle = s.idle ∧
    (s.shifted id l).config = s.config := by
  unfold shifted
  split
  · rename_i h
    exact ⟨rfl, rfl, rfl, by simp [h], rfl, rfl, rfl⟩
  · rename_i h
    exact ⟨rfl, rfl, rfl, by simp [h, popFront, pushFront, setLevel], rfl, rfl, rfl⟩

theorem queue_shifted (s : Scheduler) (id : TaskId) {l : Level} (h : l ≠ s.currentLevel)
    (k : Level) : (s.shifted id l).queue k =
      if k = l then id :: s.queue k
      else if k = s.currentLevel then (s.queue k).tail else s.queue k := by
  have hq : (s.shifted id l).queue k =
      ((s.popFront s.currentLevel).pushFront l id).queue k := by
    unfold shifted
    split <;> rfl
  rw [hq, queue_pushFront, queue_popFront]
  by_cases hk : k = l
  · rw [if_pos hk, if_pos hk, if_neg (fun e => h (hk.symm.trans e))]
  · rw [if_neg hk, if_neg hk]

/-! ## The queues after the other moves -/

theorem queue_woken (s : Scheduler) (id : TaskId) (f : Task → Task) (l k : Level) :
    (((s.modifyTask id f).pushBack l id).noteReadyAt l).queue k =
      if k = l then s.queue k ++ [id] else s.queue k := by
  rw [queue_noteReadyAt, queue_pushBack]
  rfl

theorem queue_dismissed (s : Scheduler) (id : TaskId) (l k : Level) :
    ((s.setRunning id false).setQueue l ((s.queue l).erase id)).queue k =
      if k = l then (s.queue k).erase id else s.queue k := by
  rw [queue_setQueue]
  split
  · rename_i hk
    rw [hk]
  · rfl

theorem queue_transferred (s : Scheduler) (id : TaskId) (old l k : Level) :
    ((((s.setQueue old ((s.queue old).erase id)).pushBack l id).setLevel id l).noteReadyAt
        l).queue k =
      if k = l then (if k = old then (s.queue k).erase id else s.queue k) ++ [id]
      else if k = old then (s.queue k).erase id else s.queue k := by
  rw [queue_noteReadyAt, setLevel, (modifyTask_frame _ _ _).2.2.1, queue_pushBack,
    queue_setQueue]
  by_cases hk : k = old
  · rw [if_pos hk, if_pos hk, hk]
  · rw [if_neg hk, if_neg hk]

/-! ## The current task -/

theorem currentId_eq_ok_iff {id : TaskId} :
    s.currentId = .ok id ↔ ∃ rest, s.queue s.currentLevel = id :: rest := by
  unfold currentId
  split
  · rename_i h
    simp [h]
  · rename_i h
    simp [h]

instance (s : Scheduler) (id : TaskId) : Decidable (s.currentId = .ok id) :=
  decidable_of_iff (s.currentId.toOption = some id) <| by
    cases s.currentId <;> simp [Except.toOption]

/-- Where the level is kept and `cur` heads its queue, `cur` is current. -/
theorem currentId_of_head {cur : TaskId} (hlevel : s'.currentLevel = s.currentLevel)
    (hq : ∃ rest, s'.queue s.currentLevel = cur :: rest) : s'.currentId = .ok cur := by
  rw [currentId_eq_ok_iff, hlevel]
  exact hq

theorem exists_current_of_ne_nil (h : s.queue s.currentLevel ≠ []) :
    ∃ id rest, s.queue s.currentLevel = id :: rest ∧ s.currentId = .ok id := by
  cases hq : s.queue s.currentLevel with
  | nil => exact absurd hq h
  | cons id rest => exact ⟨id, rest, rfl, currentId_eq_ok_iff.mpr ⟨rest, hq⟩⟩

/-! ## Acts and steps -/

/-- One indivisible thing that happens to a scheduler. -/
inductive Act
  /-- A new task joins the table, asleep. -/
  | enroll (task : Task)
  /-- A task gets a stack and a place to begin. -/
  | equip (id : TaskId) (context : Context) (stack : Option Stack)
  /-- A ready task is sent a message. -/
  | post (id : TaskId) (m : Message)
  /-- The oldest messages are taken from an inbox. -/
  | take (id : TaskId) (ms : List Message)
  /-- A sleeping task gets another level. -/
  | relevel (id : TaskId) (l : Level)
  /-- A sleeping task becomes ready and finds `mail` behind its other messages. -/
  | wake (id : TaskId) (l : Level) (mail : List Message)
  /-- A ready task other than the current one falls asleep. -/
  | dismiss (id : TaskId)
  /-- A ready task other than the current one joins the tail of another level. -/
  | transfer (id : TaskId) (l : Level)
  /-- The current task goes to another level and stays current. -/
  | shift (id : TaskId) (l : Level)
  /-- The turn of the current task ends. -/
  | yield (change : Handoff)
  /-- The current task falls asleep. -/
  | retire (change : Handoff)

/-- The change of turns that an act brings: who leaves the processor and who enters it.  They
    may be the same task. -/
def Act.turn : Act → Option Handoff
  | .yield change | .retire change => some change
  | _ => none

/-- **The steps**: when each act can happen, and the state after it.  Changes of a task are
    given by their effect on the task that is there. -/
inductive Step : Scheduler → Act → Scheduler → Prop
  | enroll {s : Scheduler} {t : Task} (next : t.id = ⟨s.latest + 1⟩)
      (fresh : s.tasks.get? t.id = none) (asleep : t.running = false)
      (empty : t.inbox = .empty) :
      Step s (.enroll t) { s with latest := s.latest + 1, tasks := s.tasks.insert t.id t }
  | equip {s : Scheduler} {id : TaskId} {t : Task} {f : Task → Task} {context : Context}
      {stack : Option Stack} (known : s.tasks.get? id = some t)
      (change : f t = { t with context := context, stack := stack }) :
      Step s (.equip id context stack) (s.modifyTask id f)
  | post {s : Scheduler} {id : TaskId} {t : Task} {f : Task → Task} {m : Message}
      (known : s.tasks.get? id = some t) (ready : t.running = true)
      (change : f t = t.deliver m) : Step s (.post id m) (s.modifyTask id f)
  | take {s : Scheduler} {id : TaskId} {t : Task} {f : Task → Task} {ms rest : List Message}
      (known : s.tasks.get? id = some t) (oldest : t.inbox.messages = ms ++ rest)
      (change : f t = { t with inbox := ⟨rest⟩ }) : Step s (.take id ms) (s.modifyTask id f)
  | relevel {s : Scheduler} {id : TaskId} {t : Task} {l : Level}
      (known : s.tasks.get? id = some t) (asleep : t.running = false) :
      Step s (.relevel id l) (s.setLevel id l)
  | wake {s : Scheduler} {id : TaskId} {t : Task} {f : Task → Task} {l : Level}
      {mail : List Message} (known : s.tasks.get? id = some t) (asleep : t.running = false)
      (change : f t =
        { t with level := l, running := true, inbox := ⟨t.inbox.messages ++ mail⟩ }) :
      Step s (.wake id l mail) (((s.modifyTask id f).pushBack l id).noteReadyAt l)
  | dismiss {s : Scheduler} {id : TaskId} {t : Task} (known : s.tasks.get? id = some t)
      (ready : t.running = true) (wakeful : id ≠ s.idle) (other : s.currentId ≠ .ok id) :
      Step s (.dismiss id)
        ((s.setRunning id false).setQueue t.level ((s.queue t.level).erase id))
  | transfer {s : Scheduler} {id : TaskId} {t : Task} {l : Level}
      (known : s.tasks.get? id = some t) (ready : t.running = true) (wakeful : id ≠ s.idle)
      (other : s.currentId ≠ .ok id) (elsewhere : l ≠ t.level) :
      Step s (.transfer id l)
        ((((s.setQueue t.level ((s.queue t.level).erase id)).pushBack l id).setLevel id
          l).noteReadyAt l)
  | shift {s : Scheduler} {id : TaskId} {t : Task} {l : Level}
      (known : s.tasks.get? id = some t) (wakeful : id ≠ s.idle)
      (current : s.currentId = .ok id) (elsewhere : l ≠ t.level) :
      Step s (.shift id l) (s.shifted id l)
  | yield {s : Scheduler} {id next : TaskId} {rest : List TaskId}
      (head : s.queue s.currentLevel = id :: rest)
      (chosen : (s.settle (rest ++ [id])).currentId = .ok next) :
      Step s (.yield ⟨id, next⟩) (s.settle (rest ++ [id]))
  | retire {s : Scheduler} {id next : TaskId} {rest : List TaskId}
      (head : s.queue s.currentLevel = id :: rest) (wakeful : id ≠ s.idle)
      (chosen : ((s.setRunning id false).settle rest).currentId = .ok next) :
      Step s (.retire ⟨id, next⟩) ((s.setRunning id false).settle rest)

/-! ## What a step does to the tasks -/

/-- What is found under the key `x` after an act, given what was there before. -/
def Act.revise (x : TaskId) (old : Option Task) : Act → Option Task
  | .enroll t => if x = t.id then some t else old
  | .equip id context stack =>
    if x = id then old.map fun t => { t with context := context, stack := stack } else old
  | .post id m => if x = id then old.map (·.deliver m) else old
  | .take id ms =>
    if x = id then old.map fun t => { t with inbox := ⟨t.inbox.messages.drop ms.length⟩ }
    else old
  | .relevel id l | .transfer id l | .shift id l =>
    if x = id then old.map fun t => { t with level := l } else old
  | .wake id l mail =>
    if x = id then old.map fun t =>
      { t with level := l, running := true, inbox := ⟨t.inbox.messages ++ mail⟩ }
    else old
  | .dismiss id => if x = id then old.map fun t => { t with running := false } else old
  | .retire change =>
    if x = change.leaving then old.map fun t => { t with running := false } else old
  | .yield _ => old

/-- A change given by its effect on the task that is there. -/
theorem get?_modify_of_known {id : TaskId} {t : Task} {f g : Task → Task}
    (known : s.tasks.get? id = some t) (h : f t = g t) (x : TaskId) :
    (s.tasks.modify id f).get? x =
      if x = id then (s.tasks.get? x).map g else s.tasks.get? x := by
  rw [TaskTable.get?_modify]
  by_cases hx : x = id
  · rw [if_pos hx, if_pos hx, hx, known, Option.map_some, Option.map_some, h]
  · rw [if_neg hx, if_neg hx]

/-- **A step concerns one task**, and changes of it what `Act.revise` says. -/
theorem Step.get?_eq {a : Act} (h : Step s a s') (x : TaskId) :
    s'.tasks.get? x = a.revise x (s.tasks.get? x) := by
  cases h with
  | enroll next fresh asleep empty => exact TaskTable.get?_insert _ _ _ _
  | equip known change => exact get?_modify_of_known known change x
  | post known ready change => exact get?_modify_of_known known change x
  | take known oldest change =>
    refine get?_modify_of_known known ?_ x
    rw [change, oldest, List.drop_left]
  | relevel known asleep => exact get?_modify_of_known known rfl x
  | wake known asleep change =>
    rw [(noteReadyAt_frame _ _).1]
    exact get?_modify_of_known known change x
  | dismiss known ready wakeful other => exact get?_modify_of_known known rfl x
  | transfer known ready wakeful other elsewhere =>
    rw [(noteReadyAt_frame _ _).1]
    exact get?_modify_of_known known rfl x
  | shift known wakeful current elsewhere =>
    rw [(shifted_frame _ _ _).1]
    exact get?_modify_of_known known rfl x
  | yield head chosen => rw [(settle_frame _ _).1, Act.revise]
  | retire head wakeful chosen =>
    rw [(settle_frame _ _).1]
    exact TaskTable.get?_modify _ _ _ _

/-- A task that has been created stays in the table. -/
theorem Step.known_kept {a : Act} (h : Step s a s') {x : TaskId}
    (known : (s.tasks.get? x).isSome) : (s'.tasks.get? x).isSome := by
  rw [h.get?_eq x]
  cases a with
  | enroll t =>
    show (if x = t.id then some t else s.tasks.get? x).isSome
    split
    · rfl
    · exact known
  | yield change => exact known
  | _ =>
    simp only [Act.revise]
    split
    · rw [Option.isSome_map]
      exact known
    · exact known

/-- One step after the other. -/
inductive Steps : Scheduler → List Act → Scheduler → Prop
  | nil {s : Scheduler} : Steps s [] s
  | cons {s s₁ s₂ : Scheduler} {a : Act} {acts : List Act} (first : Step s a s₁)
      (rest : Steps s₁ acts s₂) : Steps s (a :: acts) s₂

theorem Step.single {a : Act} (h : Step s a s') : Steps s [a] s' :=
  .cons h .nil

theorem Steps.of_single {a : Act} (h : Steps s [a] s') : Step s a s' := by
  cases h with
  | cons first rest =>
    cases rest with
    | nil => exact first

theorem Steps.append {s₁ : Scheduler} {as bs : List Act} (h : Steps s as s₁)
    (h' : Steps s₁ bs s') : Steps s (as ++ bs) s' := by
  induction h with
  | nil => exact h'
  | cons first _ ih => exact .cons first (ih h')

theorem Steps.known_kept {acts : List Act} (h : Steps s acts s') {x : TaskId}
    (known : (s.tasks.get? x).isSome) : (s'.tasks.get? x).isSome := by
  induction h with
  | nil => exact known
  | cons first _ ih => exact ih (first.known_kept known)

/-- A sequence of steps can be interrupted anywhere. -/
theorem Steps.split {as bs : List Act} (h : Steps s (as ++ bs) s') :
    ∃ s₁, Steps s as s₁ ∧ Steps s₁ bs s' := by
  induction as generalizing s with
  | nil => exact ⟨s, .nil, h⟩
  | cons a rest ih =>
    cases h with
    | cons first later =>
      obtain ⟨s₁, hrest, hbs⟩ := ih later
      exact ⟨s₁, .cons first hrest, hbs⟩

end Scheduler

end PreemptiveKernel
