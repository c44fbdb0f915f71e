/-
  What creating and preparing a task come to.

  A new task gets the next number, and a prepared one gets a stack from an allocator of which
  nothing is known: it may refuse, and it may answer with a stack that lies at the end of
  memory.  A refusal changes nothing, not even the numbers.  The numbers themselves and the
  place of the stack are machine words, so these operations may stop for want of words, and for
  nothing else.
-/
import PreemptiveKernel.Proofs.Operations

namespace PreemptiveKernel

open Run

/-! ## Machine words -/

/-- A sum overflows or is the sum. -/
theorem Word.add_ends (a b : Nat) :
    (ofExcept (Word.add a b) : Run Effect Nat).Ends Stop.IsOverflow fun n => n = a + b := by
  by_cases h : a + b < Word.bound
  · exact ends_of_ok (a := a + b) (Word.add_of_lt h) rfl
  · have hstop : Word.add a b = .error .addOverflow := Word.add_of_le (Nat.not_lt.mp h)
    unfold Ends
    rw [outcome_ofExcept, hstop]
    exact .inl rfl

/-- A difference falls below zero or is the difference. -/
theorem Word.sub_ends (a b : Nat) :
    (ofExcept (Word.sub a b) : Run Effect Nat).Ends Stop.IsOverflow fun n => n + b = a := by
  by_cases h : b ≤ a
  · exact ends_of_ok (a := a - b) (Word.sub_of_le h) (Nat.sub_add_cancel h)
  · have hstop : Word.sub a b = .error .subOverflow := Word.sub_of_lt (Nat.not_le.mp h)
    unfold Ends
    rw [outcome_ofExcept, hstop]
    exact .inr rfl

/-! ## Preparing a task -/

theorem Task.firstStackPointer_ends (stack : Stack) :
    (ofExcept (Task.firstStackPointer stack) : Run Effect Nat).Ends Stop.IsOverflow
      fun rsp => rsp + 8 = (stack.base + stack.bytes) / 16 * 16 := by
  unfold Task.firstStackPointer
  rw [ofExcept_bind]
  refine ends_bind (Word.add_ends _ _) fun top htop => ?_
  rw [← htop]
  exact Word.sub_ends _ _

/-- **Preparing a task** hands the allocator's refusal on, or gives the task a stack and a
    place to begin and changes nothing else.  It stops only where an address cannot be found. -/
theorem Task.prepare_ends_of_slot {admitted : Stop → Prop} (t : Task) (entry : EntryPoint)
    (data : Int64) (allocate : StackAllocator) (cr3 : UInt64)
    (slot : ∀ stack, allocate t.stackBytes = .ok stack →
      (ofExcept (do Word.sub (← Task.firstStackPointer stack) stack.base) :
        Run Effect Nat).Ends admitted fun _ => True) :
    (t.prepare entry data allocate cr3).Ends admitted fun p =>
      (∃ error, allocate t.stackBytes = .error error ∧ p = (.error error, t)) ∨
      ∃ rsp stack, p =
        (.ok (),
          { t with context := Task.firstContext t.id entry data cr3 rsp, stack := some stack }) := by
  cases given : allocate t.stackBytes with
  | error error =>
    rw [Task.prepare_of_answer (Task.preparation_of_refusal given)]
    exact .inl ⟨error, rfl, rfl⟩
  | ok stack =>
    have slot := slot stack given
    cases place : (do Word.sub (← Task.firstStackPointer stack) stack.base) with
    | error s =>
      rw [Task.prepare_of_stop (Task.preparation_of_stop given place)]
      rwa [place] at slot
    | ok offset =>
      cases pointer : Task.firstStackPointer stack with
      | error s =>
        rw [pointer] at place
        cases place
      | ok rsp =>
        rw [pointer] at place
        rw [Task.prepare_of_answer (Task.preparation_of_done given pointer place)]
        exact .inr ⟨_, _, rfl⟩

theorem Task.prepare_ends (t : Task) (entry : EntryPoint) (data : Int64)
    (allocate : StackAllocator) (cr3 : UInt64) :
    (t.prepare entry data allocate cr3).Ends Stop.IsOverflow fun p =>
      (∃ error, allocate t.stackBytes = .error error ∧ p = (.error error, t)) ∨
      ∃ rsp stack, p =
        (.ok (),
          { t with context := Task.firstContext t.id entry data cr3 rsp, stack := some stack }) := by
  refine t.prepare_ends_of_slot entry data allocate cr3 fun stack _ => ?_
  rw [ofExcept_bind]
  exact ends_bind (Task.firstStackPointer_ends stack) fun rsp _ =>
    (Word.sub_ends rsp stack.base).imp fun _ _ => trivial

/-- A task that has been prepared differs from what it was in registers and stack only. -/
theorem Task.eq_of_prepare {t prepared : Task} {entry : EntryPoint} {data : Int64}
    {allocate : StackAllocator} {cr3 : UInt64}
    (done : (t.prepare entry data allocate cr3).outcome = .ok (.ok (), prepared)) :
    prepared = { t with context := prepared.context, stack := prepared.stack } := by
  rcases (t.prepare_ends entry data allocate cr3).of_ok done with
    ⟨error, -, refused⟩ | ⟨rsp, stack, answered⟩
  · nomatch refused
  · cases answered
    rfl

namespace Scheduler

variable {s s' : Scheduler}

/-! ## Creation -/

/-- A new task is entered as it is created: asleep and without a place to begin. -/
theorem newTask_ends (hs : s.Sound) :
    s.newTask.Ends Stop.IsOverflow fun p =>
      Step s (.enroll (.create p.1 s.config.stackBytes)) p.2 := by
  unfold newTask
  refine ends_bind (Word.add_ends _ _) ?_
  rintro number rfl
  refine ends_bind_of_ok (a := ()) rfl ?_
  rw [hs.fresh]
  exact ends_pure (.enroll rfl hs.fresh rfl rfl)

/-- What can come of preparing the task `id` to begin with `entry`. -/
inductive PrepareOutcome (s : Scheduler) (id : TaskId) (entry : EntryPoint) (data : Int64)
    (allocate : StackAllocator) (cr3 : UInt64) : Answer TaskId → Scheduler → Prop
  /-- There is no such task. -/
  | unknown (missing : s.tasks.get? id = none) :
      PrepareOutcome s id entry data allocate cr3 (.error (.noSuchTask id)) s
  /-- There is no stack for it. -/
  | refused {t : Task} {error : KernelError} (known : s.tasks.get? id = some t)
      (refusal : allocate t.stackBytes = .error error) :
      PrepareOutcome s id entry data allocate cr3 (.error error) s
  /-- It gets a stack and a place to begin. -/
  | prepared {t prepared : Task} (known : s.tasks.get? id = some t)
      (done : (t.prepare entry data allocate cr3).outcome = .ok (.ok (), prepared)) :
      PrepareOutcome s id entry data allocate cr3 (.ok prepared.id)
        (s.modifyTask id fun _ => prepared)

theorem prepareTask_ends (unique : s.tasks.keys.Nodup) (id : TaskId) (entry : EntryPoint)
    (data : Int64) (allocate : StackAllocator) (cr3 : UInt64) :
    (s.prepareTask id entry data allocate cr3).Ends Stop.IsOverflow fun p =>
      PrepareOutcome s id entry data allocate cr3 p.1 p.2 := by
  unfold prepareTask
  cases known : s.tasks.get? id with
  | none => exact ends_pure (.unknown known)
  | some t =>
    refine ends_bind (t.prepare_ends entry data allocate cr3).with_outcome ?_
    rintro p ⟨done, ⟨error, refusal, rfl⟩ | ⟨rsp, stack, rfl⟩⟩
    · -- the task that is put back is the one that was there
      have same : s.modifyTask id (fun _ => t) = s := by
        rw [modifyTask, TaskTable.modify_eq_self unique known rfl]
      refine ends_pure ?_
      rw [same]
      exact .refused known refusal
    · exact ends_pure (.prepared known done)

/-- What can come of spawning a task at the level with this number, to begin with `entry`. -/
inductive SpawnOutcome (s : Scheduler) (entry : EntryPoint) (data : Int64) (n : Nat)
    (allocate : StackAllocator) (cr3 : UInt64) : Answer TaskId → Scheduler → Prop
  /-- There is no such level. -/
  | invalid (above : 4 ≤ n) :
      SpawnOutcome s entry data n allocate cr3 (.error (.invalidLevel n)) s
  /-- There is no stack for the task. -/
  | refused {error : KernelError} (valid : n < 4)
      (refusal : allocate s.config.stackBytes = .error error) :
      SpawnOutcome s entry data n allocate cr3 (.error error) s
  /-- The task joins the table with a place to begin, and wakes up. -/
  | spawned {t : Task} {l : Level} {s' : Scheduler} (level : l.val = n)
      (done : ((Task.create t.id s.config.stackBytes).prepare entry data allocate cr3).outcome =
        .ok (.ok (), t))
      (steps : Steps s [.enroll t, .wake t.id l []] s') :
      SpawnOutcome s entry data n allocate cr3 (.ok t.id) s'

/-- Spawning stops only where its number or the preparation of the task does. -/
theorem spawn_ends_of_prepare {admitted : Stop → Prop} (hs : s.Sound) (entry : EntryPoint)
    (data : Int64) (n : Nat) (allocate : StackAllocator) (cr3 : UInt64)
    (number : (ofExcept (Word.add s.latest 1) : Run Effect Nat).Ends admitted
      fun number => number = s.latest + 1)
    (prepare : ((Task.create ⟨s.latest + 1⟩ s.config.stackBytes).prepare entry data
      allocate cr3).Ends admitted fun _ => True) :
    (s.spawn entry data n allocate cr3).Ends admitted fun p =>
      SpawnOutcome s entry data n allocate cr3 p.1 p.2 := by
  unfold spawn
  by_cases hn : n < 4
  · rw [Level.ofNat?_of_lt hn]
    refine ends_bind number ?_
    rintro number rfl
    refine ends_bind_of_ok (a := ()) rfl ?_
    refine ends_bind prepare.with_outcome ?_
    rintro ⟨answer, t⟩ ⟨done, -⟩
    rcases (Task.prepare_ends _ entry data allocate cr3).of_ok done with
      ⟨error, refusal, refused⟩ | ⟨rsp, stack, answered⟩
    · obtain ⟨rfl, -⟩ := Prod.mk.inj refused
      exact ends_pure (.refused hn refusal)
    · -- the prepared task is entered asleep, and so it can be woken
      obtain ⟨rfl, ht⟩ := Prod.mk.inj answered
      have next : t.id = ⟨s.latest + 1⟩ := by rw [ht]; rfl
      have asleep : t.running = false := by rw [ht]; rfl
      have enrolled : Step s (.enroll t) _ :=
        .enroll next (next ▸ hs.fresh) asleep (by rw [ht]; rfl)
      have known := enrolled.get?_eq t.id
      rw [Act.revise, if_pos rfl] at known
      rw [← next]
      refine ends_bind_of_ok (a := _)
        (outcome_wakeTask_of_asleep (some ⟨n, hn⟩) known asleep) ?_
      rw [← next] at done
      refine ends_pure (.spawned (l := ⟨n, hn⟩) rfl done (.cons enrolled (Step.single ?_)))
      exact .wake known asleep (by simp)
  · have hle : 4 ≤ n := Nat.not_lt.mp hn
    rw [Level.ofNat?_of_le hle]
    exact ends_pure (.invalid hle)

/-- **Spawning** is refused and changes nothing, or it is a creation and a waking. -/
theorem spawn_ends (hs : s.Sound) (entry : EntryPoint) (data : Int64) (n : Nat)
    (allocate : StackAllocator) (cr3 : UInt64) :
    (s.spawn entry data n allocate cr3).Ends Stop.IsOverflow fun p =>
      SpawnOutcome s entry data n allocate cr3 p.1 p.2 :=
  spawn_ends_of_prepare hs entry data n allocate cr3 (Word.add_ends _ _)
    ((Task.prepare_ends _ entry data allocate cr3).imp fun _ _ => trivial)

end Scheduler

end PreemptiveKernel
