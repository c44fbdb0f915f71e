/-
  Operations on one task leave the others alone.

  The queues are shared, and an operation on one task works on them in many ways: it takes the task
  out of the middle or off the head, appends it, puts it in front, rotates.  Whatever it does, the
  others do not notice.  They stand in the queues in which they stood, in their old order, and
  their records are what they were; read each queue without the task in question, and nothing has
  happened (`Spares`).

  The crux is that every act has one subject (`Act.subject`), also the end of a turn, which is about
  the task that leaves.  So one law with a case for each act says it of all of them
  (`Step.spares`), and what an operation on a task does to that task itself is read off the acts
  that it may come to (`Act.Brings`).
-/
import PreemptiveKernel.Proofs.Histories

namespace PreemptiveKernel

open Run

namespace Scheduler

variable {s s₁ s' : Scheduler} {id : TaskId} {a : Act}

/-! ## The others -/

/-- The queue of a level without one task. -/
def others (s : Scheduler) (id : TaskId) (l : Level) : List TaskId :=
  (s.queue l).filter fun x => x ≠ id

/-- **All tasks but `id` are spared** on the way from `s` to `s'`. -/
structure Spares (s : Scheduler) (id : TaskId) (s' : Scheduler) : Prop where
  /-- The others stand in the same queues, in the same order. -/
  queues : ∀ l, s'.others id l = s.others id l
  /-- Their records are the same, and no other task comes or goes. -/
  tasks : ∀ x, x ≠ id → s'.tasks.get? x = s.tasks.get? x

theorem Spares.refl (s : Scheduler) (id : TaskId) : Spares s id s where
  queues _ := rfl
  tasks _ _ := rfl

theorem Spares.trans (h : Spares s id s₁) (h' : Spares s₁ id s') : Spares s id s' where
  queues l := (h'.queues l).trans (h.queues l)
  tasks x hx := (h'.tasks x hx).trans (h.tasks x hx)

/-- A task that joins a queue is not one of the others in it, whether at the tail … -/
theorem filter_concat (q : List TaskId) (id : TaskId) :
    (q ++ [id]).filter (fun x => x ≠ id) = q.filter fun x => x ≠ id := by
  simp

/-- … or at the head. -/
theorem filter_cons (q : List TaskId) (id : TaskId) :
    (id :: q).filter (fun x => x ≠ id) = q.filter fun x => x ≠ id := by
  simp

/-- A task that leaves a queue takes nobody along. -/
theorem filter_erase (q : List TaskId) (id : TaskId) :
    (q.erase id).filter (fun x => x ≠ id) = q.filter fun x => x ≠ id := by
  rw [← List.erase_filter]
  exact List.erase_of_not_mem fun h => of_decide_eq_true (List.mem_filter.mp h).2 rfl

/-! ## One act -/

/-- The task that an act is about; the end of a turn is about the task that leaves. -/
def Act.subject : Act → TaskId
  | .enroll t => t.id
  | .equip id _ _ | .post id _ | .take id _ | .relevel id _ | .wake id _ _ => id
  | .dismiss id | .transfer id _ | .shift id _ => id
  | .yield change | .retire change => change.leaving

theorem Act.revise_of_ne {x : TaskId} (hx : x ≠ a.subject) (old : Option Task) :
    a.revise x old = old := by
  cases a with
  | yield change => rfl
  | _ => exact if_neg hx

/-- An act on the queues leaves those who stand in them beside its subject where they are. -/
theorem Step.others_eq (hs : s.Sound) (h : Step s a s') (l : Level) :
    s'.others a.subject l = s.others a.subject l := by
  unfold others
  cases h with
  | enroll | equip | post | take | relevel => rfl
  | @wake id t f k mail known asleep change =>
    rw [queue_woken]
    split
    · exact filter_concat _ id
    · rfl
  | @dismiss id t known ready wakeful other =>
    rw [queue_dismissed]
    split
    · exact filter_erase _ id
    · rfl
  | @transfer id t k known ready wakeful other elsewhere =>
    have hleft : (if l = t.level then (s.queue l).erase id else s.queue l).filter
        (fun x => x ≠ id) = (s.queue l).filter fun x => x ≠ id := by
      split
      · exact filter_erase _ id
      · rfl
    rw [queue_transferred]
    split
    · exact (filter_concat _ id).trans hleft
    · exact hleft
  | @shift id t k known wakeful current elsewhere =>
    obtain ⟨-, hlevel⟩ := hs.current_ready current known
    obtain ⟨rest, head⟩ := currentId_eq_ok_iff.mp current
    rw [queue_shifted s id (fun e => elsewhere (e.trans hlevel.symm))]
    split
    · exact filter_cons _ id
    · split
      · -- the current task leaves the head of its queue
        rename_i hl
        rw [hl, head, List.tail_cons]
        exact (filter_cons rest id).symm
      · rfl
  | @yield id next rest head chosen =>
    rw [queue_settle]
    split
    · rename_i hl
      rw [hl, head]
      exact (filter_concat rest id).trans (filter_cons rest id).symm
    · rfl
  | @retire id next rest head wakeful chosen =>
    rw [queue_settle]
    split
    · rename_i hl
      have hl : l = s.currentLevel := hl
      rw [hl, head]
      exact (filter_cons rest id).symm
    · rfl

/-- **Every act spares all tasks but its subject.** -/
theorem Step.spares (hs : s.Sound) (h : Step s a s') : Spares s a.subject s' where
  queues := h.others_eq hs
  tasks x hx := (h.get?_eq x).trans (Act.revise_of_ne hx _)

/-! ## The task itself -/

/-- **Only the task `id` is touched**, and of it only its level, whether it is ready, and its
    messages, behind which it finds `mail`. -/
structure Touches (s : Scheduler) (id : TaskId) (mail : List Message) (s' : Scheduler) : Prop
    extends Spares s id s' where
  /-- The record of the task, if there is one. -/
  own : ∃ l ready, s'.tasks.get? id = (s.tasks.get? id).map fun t =>
    { t with level := l, running := ready, inbox := ⟨t.inbox.messages ++ mail⟩ }

/-- The act changes only where its subject belongs, and brings it the messages `mail`. -/
def Act.Brings (mail : List Message) : Act → Prop
  | .post _ m => mail = [m]
  | .wake _ _ ms => mail = ms
  | .relevel _ _ | .dismiss _ | .transfer _ _ | .shift _ _ | .retire _ => mail = []
  | .enroll _ | .equip _ _ _ | .take _ _ | .yield _ => False

theorem Step.touches {mail : List Message} {t : Task} (hs : s.Sound) (h : Step s a s')
    (known : s.tasks.get? a.subject = some t) (brings : a.Brings mail) :
    Touches s a.subject mail s' := by
  refine ⟨h.spares hs, ?_⟩
  rw [h.get?_eq, known]
  cases a with
  | post id m =>
    obtain rfl : mail = [m] := brings
    exact ⟨t.level, t.running, if_pos rfl⟩
  | wake id l ms =>
    obtain rfl : mail = ms := brings
    exact ⟨l, true, if_pos rfl⟩
  | relevel id l | transfer id l | shift id l =>
    obtain rfl : mail = [] := brings
    refine ⟨l, t.running, (if_pos rfl).trans ?_⟩
    simp only [Option.map_some, List.append_nil]
  | dismiss id | retire change =>
    obtain rfl : mail = [] := brings
    refine ⟨t.level, false, (if_pos rfl).trans ?_⟩
    simp only [Option.map_some, List.append_nil]
  | _ => exact brings.elim

/-- Where there is no such task, it gets no message either. -/
theorem Touches.of_unknown (missing : s.tasks.get? id = none) (mail : List Message) :
    Touches s id mail s := by
  refine ⟨.refl s id, .bottom, false, ?_⟩
  rw [missing]
  rfl

/-- Where nothing happens, nothing is touched. -/
theorem Touches.refl (s : Scheduler) (id : TaskId) : Touches s id [] s := by
  cases known : s.tasks.get? id with
  | none => exact .of_unknown known []
  | some t =>
    refine ⟨.refl s id, t.level, t.running, ?_⟩
    rw [known]
    simp only [Option.map_some, List.append_nil]

/-! ## Operations -/

theorem SleepOutcome.touches {answer : Answer (Option Handoff)} (hs : s.Sound)
    (h : SleepOutcome s id answer s') : Touches s id [] s' := by
  cases h with
  | unknown missing => exact .refl s id
  | kept known why => exact .refl s id
  | retired known wakeful current leaving step =>
    obtain rfl := leaving
    exact step.touches hs known rfl
  | dismissed known wakeful other step => exact step.touches hs known rfl

theorem MoveOutcome.touches {l : Level} {answer : Answer Unit} (hs : s.Sound)
    (h : MoveOutcome s id l answer s') : Touches s id [] s' := by
  cases h with
  | unknown missing => exact .refl s id
  | kept known why => exact .refl s id
  | releveled known step => exact step.touches hs known rfl
  | shifted known current step => exact step.touches hs known rfl
  | transferred known other step => exact step.touches hs known rfl

theorem WakeOutcome.touches {l : Option Level} {answer : Answer Unit} (hs : s.Sound)
    (h : WakeOutcome s id l answer s') : Touches s id [] s' := by
  cases h with
  | unknown missing => exact .refl s id
  | kept known ready silent => exact .refl s id
  | moved known ready given move => exact move.touches hs
  | woken known step => exact step.touches hs known rfl

theorem SendOutcome.touches {m : Message} {answer : Answer Unit} (hs : s.Sound)
    (h : SendOutcome s id m answer s') : Touches s id [m] s' := by
  cases h with
  | unknown missing => exact .of_unknown missing [m]
  | posted known step => exact step.touches hs known rfl
  | woken known step => exact step.touches hs known rfl

/-- **What spawning does to the table and the queues**: nothing, if it is refused.  Otherwise a task
    joins that was not there, as it has been prepared and ready at its level, and the others are
    spared. -/
inductive Joins (s : Scheduler) (entry : EntryPoint) (data : Int64) (n : Nat)
    (allocate : StackAllocator) (cr3 : UInt64) : Answer TaskId → Scheduler → Prop
  | refused {error : KernelError} : Joins s entry data n allocate cr3 (.error error) s
  | spawned {t : Task} {l : Level} {s' : Scheduler} (level : l.val = n)
      (fresh : s.tasks.get? t.id = none)
      (done : ((Task.create t.id s.config.stackBytes).prepare entry data allocate cr3).outcome =
        .ok (.ok (), t))
      (own : s'.tasks.get? t.id = some { t with level := l, running := true })
      (spares : Spares s t.id s') : Joins s entry data n allocate cr3 (.ok t.id) s'

theorem SpawnOutcome.joins {entry : EntryPoint} {data : Int64} {n : Nat}
    {allocate : StackAllocator} {cr3 : UInt64} {answer : Answer TaskId} (hs : s.Sound)
    (h : SpawnOutcome s entry data n allocate cr3 answer s') :
    Joins s entry data n allocate cr3 answer s' := by
  cases h with
  | invalid above => exact .refused
  | refused valid refusal => exact .refused
  | @spawned t l s' level done steps =>
    cases steps with
    | @cons _ s₁ _ _ _ first rest =>
      have second := rest.of_single
      have enrolled : s₁.tasks.get? t.id = some t := (first.get?_eq t.id).trans (if_pos rfl)
      have fresh : s.tasks.get? t.id = none := by
        cases first with
        | enroll next fresh asleep empty => exact fresh
      have joined : Spares s t.id s₁ := first.spares hs
      have woken : Spares s₁ t.id s' := second.spares (first.sound hs)
      refine .spawned level fresh done ?_ (joined.trans woken)
      rw [second.get?_eq, enrolled]
      refine (if_pos rfl).trans ?_
      simp only [Option.map_some, List.append_nil]

/-- **Bystanders are spared.**  Take any state that a history leads to, and whatever is done with a
    task: it is put to sleep, woken, given a level, sent a message, and it may be current or not,
    known or not.  The queues without it are the queues without it as they were, the records of the
    others are the same, and of its own record only the level, the readiness and, for a message,
    the end of the inbox have changed.  The same holds of a task that is spawned, which was not
    there before; and if it is refused, nothing has changed at all. -/
theorem bystanders_spared {log : List (Request × Response)} (h : History log s) (id : TaskId) :
    ((s.sleep id).Ends Stop.Never fun p => Touches s id [] p.2) ∧
    (∀ level, (s.wakeup id level).Ends Stop.Never fun p => Touches s id [] p.2) ∧
    (∀ level, (s.changeLevel id level).Ends Stop.Never fun p => Touches s id [] p.2) ∧
    (∀ m, (s.send id m).Ends Stop.Never fun p => Touches s id [m] p.2) ∧
    ∀ entry data level allocate cr3, (s.spawn entry data level allocate cr3).Ends Stop.IsOverflow
      fun p => Joins s entry data level allocate cr3 p.1 p.2 := by
  have hs := h.sound
  refine ⟨(sleep_ends hs id).imp fun p hp => hp.touches hs, fun level => ?_, fun level => ?_,
    fun m => (send_ends s id m).imp fun p hp => hp.touches hs,
    fun entry data level allocate cr3 =>
      (spawn_ends hs entry data level allocate cr3).imp fun p hp => hp.joins hs⟩
  · refine (wakeup_ends hs id level).imp ?_
    rintro p (⟨n, -, -, rfl⟩ | ⟨l, -, outcome⟩)
    · exact .refl s id
    · exact outcome.touches hs
  · refine (changeLevel_ends hs id level).imp ?_
    rintro p (⟨-, rfl⟩ | ⟨l, -, outcome⟩)
    · exact .refl s id
    · exact outcome.touches hs

/-- The main task is current, in front of two others, and leaves them for the head of a lower level,
    which becomes the current one; or it falls asleep. -/
theorem bystanders_spared_by_current : ∃ log s s₁ s₂, History log s ∧ s.currentId = .ok ⟨1⟩ ∧
    s.queue 3 = [⟨1⟩, ⟨3⟩, ⟨4⟩] ∧ s.queue 1 = [⟨5⟩] ∧
    (s.changeLevel ⟨1⟩ 1).outcome = .ok (.ok (), s₁) ∧ s₁.currentLevel = 1 ∧
    s₁.queue 1 = [⟨1⟩, ⟨5⟩] ∧ s₁.others ⟨1⟩ 1 = [⟨5⟩] ∧ s₁.others ⟨1⟩ 3 = [⟨3⟩, ⟨4⟩] ∧
    (s.sleep ⟨1⟩).outcome = .ok (.ok (some ⟨⟨1⟩, ⟨3⟩⟩), s₂) ∧ s₂.others ⟨1⟩ 3 = [⟨3⟩, ⟨4⟩] ∧
    s₂.tasks.get? ⟨4⟩ = s.tasks.get? ⟨4⟩ := by
  have created : (create .standard .heap).outcome = .ok (.ok _) := rfl
  have h := (History.created created).performAll
    (show (Dispatcher.performAll ⟨_, .create .standard⟩
      [.spawn .idle 0 3 .heap, .spawn .idle 0 3 .heap, .spawn .idle 0 1 .heap]).outcome =
        .ok (_, _) from rfl)
  obtain ⟨slept, -, moved, -⟩ := bystanders_spared h ⟨1⟩
  have away := (moved 1).of_ok (show (changeLevel _ _ _).outcome = .ok (_, _) from rfl)
  have asleep := slept.of_ok (show (sleep _ _).outcome = .ok (_, _) from rfl)
  exact ⟨_, _, _, _, h, rfl, rfl, rfl, rfl, rfl, rfl, away.queues 1, away.queues 3, rfl,
    asleep.queues 3, asleep.tasks ⟨4⟩ (by decide)⟩

end Scheduler

end PreemptiveKernel
