/-
  Refusals.

  Why a request is refused can be read off the state before it (`Request.refusal`): the number
  names no level, no task has the identifier, or the allocator says no, in this order.  A request
  is refused for this reason exactly, and for no other (`perform_judged`).

  The allocator is asked last, and that it is asked can be seen even if it refuses.  So the trace of
  a refused request tells how far it got: it is what the request has asked for (`Request.asks`),
  which is nothing if the level or the task was wrong (`trace_of_refused`).

  A refusal comes before everything that changes the state.  Where an operation goes on after its
  last check, as spawning does when the task is in the table and has still to be woken, nothing is
  left to be refused: the outcome of the operation has no case for it.  So a refused request leaves
  the dispatcher as it was, and a run is the same without it (`Course.without_refused`): later
  requests find the same tasks, the same queues and the same next number.
-/
import PreemptiveKernel.Proofs.Provisions

namespace PreemptiveKernel

open Run

/-! ## Reasons -/

/-- Why a level with this number cannot be had. -/
def Level.refusal (n : Nat) : Option KernelError :=
  if 4 ≤ n then some (.invalidLevel n) else none

/-- Why there is no stack of so many bytes. -/
def StackAllocator.refusal (allocate : StackAllocator) (bytes : Nat) : Option KernelError :=
  match allocate bytes with
  | .ok _ => none
  | .error error => some error

/-- Why a task cannot be had. -/
def Scheduler.refusal (s : Scheduler) (id : TaskId) : Option KernelError :=
  match s.tasks.get? id with
  | some _ => none
  | none => some (.noSuchTask id)

/-- **Why a request is refused**, in the state before it; `none` if it is not. -/
def Request.refusal (s : Scheduler) : Request → Option KernelError
  | .sleep id | .wakeup id none | .send id _ | .receive id | .drain id => s.refusal id
  | .wakeup id (some n) | .changeLevel id n => (Level.refusal n).or (s.refusal id)
  | .spawn _ _ n allocate _ => (Level.refusal n).or (allocate.refusal s.config.stackBytes)
  | .prepare id _ _ allocate _ =>
    match s.tasks.get? id with
    | none => some (.noSuchTask id)
    | some t => allocate.refusal t.stackBytes
  | _ => none

theorem Level.refusal_of_le {n : Nat} (h : 4 ≤ n) : Level.refusal n = some (.invalidLevel n) :=
  if_pos h

theorem Level.refusal_of_lt {n : Nat} (h : n < 4) : Level.refusal n = none :=
  if_neg (Nat.not_le.mpr h)

/-- The level is looked at before anything else. -/
theorem Level.refusal_or_eq_some_iff {n : Nat} {reason : Option KernelError} {error : KernelError} :
    (Level.refusal n).or reason = some error ↔
      4 ≤ n ∧ error = .invalidLevel n ∨ n < 4 ∧ reason = some error := by
  rcases Nat.lt_or_ge n 4 with valid | above
  · rw [Level.refusal_of_lt valid, Option.none_or]
    constructor
    · intro h
      exact .inr ⟨valid, h⟩
    · rintro (⟨above, -⟩ | ⟨-, h⟩)
      · exact absurd above (Nat.not_le.mpr valid)
      · exact h
  · rw [Level.refusal_of_le above, Option.some_or]
    constructor
    · intro h
      exact .inl ⟨above, (Option.some.inj h).symm⟩
    · rintro (⟨-, rfl⟩ | ⟨valid, -⟩)
      · rfl
      · exact absurd above (Nat.not_le.mpr valid)

theorem StackAllocator.refusal_eq_some_iff {allocate : StackAllocator} {bytes : Nat}
    {error : KernelError} :
    allocate.refusal bytes = some error ↔ allocate bytes = .error error := by
  unfold refusal
  cases allocate bytes with
  | ok stack => exact ⟨nofun, nofun⟩
  | error e =>
    constructor
    · intro h
      exact congrArg Except.error (Option.some.inj h)
    · intro h
      exact congrArg some (Except.error.inj h)

/-- Who could prepare a task had a stack for it. -/
theorem StackAllocator.refusal_of_prepare {t prepared : Task} {entry : EntryPoint}
    {data : Int64} {allocate : StackAllocator} {cr3 : UInt64}
    (done : (t.prepare entry data allocate cr3).outcome = .ok (.ok (), prepared)) :
    allocate.refusal t.stackBytes = none := by
  unfold refusal
  cases hstack : allocate t.stackBytes with
  | ok stack => rfl
  | error error =>
    rw [Task.prepare_of_answer (Task.preparation_of_refusal hstack)] at done
    nomatch done

namespace Scheduler

variable {s s' : Scheduler} {id : TaskId} {α : Type}

theorem refusal_of_unknown (missing : s.tasks.get? id = none) :
    s.refusal id = some (.noSuchTask id) := by
  unfold refusal
  rw [missing]

theorem refusal_of_known {t : Task} (known : s.tasks.get? id = some t) : s.refusal id = none := by
  unfold refusal
  rw [known]

theorem refusal_eq_some_iff {error : KernelError} :
    s.refusal id = some error ↔ error = .noSuchTask id ∧ s.tasks.get? id = none := by
  cases known : s.tasks.get? id with
  | some t =>
    rw [refusal_of_known known]
    exact ⟨nofun, fun h => nomatch h.2⟩
  | none =>
    rw [refusal_of_unknown known]
    exact ⟨fun h => ⟨(Option.some.inj h).symm, rfl⟩, fun h => congrArg some h.1.symm⟩

/-- A task is found unless it does not exist. -/
theorem task_eq_error_iff {error : KernelError} :
    s.task id = .error error ↔ s.refusal id = some error := by
  unfold task refusal
  cases s.tasks.get? id with
  | none => simp
  | some t => simp

/-! ## Answers -/

/-- The answer and the state after it are as the reason says: without a reason the request is
    granted, and with one it is refused and the state is the same. -/
def Judged (s : Scheduler) (reason : Option KernelError) (answer : Answer α) (s' : Scheduler) :
    Prop :=
  match reason with
  | some error => answer = .error error ∧ s' = s
  | none => ∃ a, answer = .ok a

theorem SleepOutcome.judged {answer : Answer (Option Handoff)}
    (h : SleepOutcome s id answer s') : s.Judged (s.refusal id) answer s' := by
  cases h with
  | unknown missing =>
    rw [refusal_of_unknown missing]
    exact ⟨rfl, rfl⟩
  | kept known | retired known | dismissed known =>
    rw [refusal_of_known known]
    exact ⟨_, rfl⟩

theorem MoveOutcome.judged {l : Level} {answer : Answer Unit}
    (h : MoveOutcome s id l answer s') : s.Judged (s.refusal id) answer s' := by
  cases h with
  | unknown missing =>
    rw [refusal_of_unknown missing]
    exact ⟨rfl, rfl⟩
  | kept known | releveled known | shifted known | transferred known =>
    rw [refusal_of_known known]
    exact ⟨_, rfl⟩

theorem WakeOutcome.judged {l : Option Level} {answer : Answer Unit}
    (h : WakeOutcome s id l answer s') : s.Judged (s.refusal id) answer s' := by
  cases h with
  | unknown missing =>
    rw [refusal_of_unknown missing]
    exact ⟨rfl, rfl⟩
  | moved known ready given move => exact move.judged
  | kept known | woken known =>
    rw [refusal_of_known known]
    exact ⟨_, rfl⟩

theorem SendOutcome.judged {m : Message} {answer : Answer Unit}
    (h : SendOutcome s id m answer s') : s.Judged (s.refusal id) answer s' := by
  cases h with
  | unknown missing =>
    rw [refusal_of_unknown missing]
    exact ⟨rfl, rfl⟩
  | posted known | woken known =>
    rw [refusal_of_known known]
    exact ⟨_, rfl⟩

theorem PrepareOutcome.judged {entry : EntryPoint} {data : Int64} {allocate : StackAllocator}
    {cr3 : UInt64} {answer : Answer TaskId}
    (h : PrepareOutcome s id entry data allocate cr3 answer s') :
    s.Judged (Request.refusal s (.prepare id entry data allocate cr3)) answer s' := by
  cases h with
  | unknown missing =>
    simp only [Request.refusal, missing]
    exact ⟨rfl, rfl⟩
  | refused known refusal =>
    simp only [Request.refusal, known, StackAllocator.refusal_eq_some_iff.mpr refusal]
    exact ⟨rfl, rfl⟩
  | prepared known done =>
    simp only [Request.refusal, known, StackAllocator.refusal_of_prepare done]
    exact ⟨_, rfl⟩

theorem SpawnOutcome.judged {entry : EntryPoint} {data : Int64} {n : Nat}
    {allocate : StackAllocator} {cr3 : UInt64} {answer : Answer TaskId}
    (h : SpawnOutcome s entry data n allocate cr3 answer s') :
    s.Judged (Request.refusal s (.spawn entry data n allocate cr3)) answer s' := by
  show s.Judged ((Level.refusal n).or (allocate.refusal s.config.stackBytes)) answer s'
  cases h with
  | invalid above =>
    rw [Level.refusal_of_le above]
    exact ⟨rfl, rfl⟩
  | refused valid refusal =>
    rw [Level.refusal_of_lt valid, StackAllocator.refusal_eq_some_iff.mpr refusal]
    exact ⟨rfl, rfl⟩
  | @spawned t l _ level done steps =>
    -- once the task is in the table it is woken, and nothing is left to be refused
    have hstack : allocate.refusal s.config.stackBytes = none :=
      StackAllocator.refusal_of_prepare done
    rw [Level.refusal_of_lt (level ▸ l.isLt), hstack]
    exact ⟨_, rfl⟩

theorem receive_judged (s : Scheduler) (id : TaskId) :
    s.Judged (s.refusal id) (s.receive id).1 (s.receive id).2 := by
  cases known : s.tasks.get? id with
  | none =>
    rw [refusal_of_unknown known, receive_of_unknown known]
    exact ⟨rfl, rfl⟩
  | some t =>
    rw [refusal_of_known known, receive_of_known known]
    exact ⟨_, rfl⟩

theorem drain_judged (s : Scheduler) (id : TaskId) :
    s.Judged (s.refusal id) (s.drain id).1 (s.drain id).2 := by
  cases known : s.tasks.get? id with
  | none =>
    rw [refusal_of_unknown known, drain_of_unknown known]
    exact ⟨rfl, rfl⟩
  | some t =>
    rw [refusal_of_known known, drain_of_known known]
    exact ⟨_, rfl⟩

/-- A level named by its number is looked at before the task is. -/
theorem Judged.of_level {reason : Option KernelError} {n : Nat} {answer : Answer α}
    (h : (∃ l : Level, l.val = n ∧ s.Judged reason answer s') ∨
      4 ≤ n ∧ answer = .error (.invalidLevel n) ∧ s' = s) :
    s.Judged ((Level.refusal n).or reason) answer s' := by
  rcases h with ⟨l, rfl, judged⟩ | ⟨above, hanswer, hs⟩
  · rw [Level.refusal_of_lt l.isLt]
    exact judged
  · rw [Level.refusal_of_le above]
    exact ⟨hanswer, hs⟩

end Scheduler

open Scheduler

/-! ## Requests -/

/-- The response is a refusal if there is a reason for one, and tells the reason; then the
    dispatcher is as it was. -/
def Dispatcher.Judged (d : Dispatcher) (r : Request) (response : Response) (d' : Dispatcher) :
    Prop :=
  match r.refusal d.scheduler with
  | some error => response = .refused error ∧ d' = d
  | none => ∀ error, response ≠ .refused error

/-- An answer of the scheduler becomes the response. -/
theorem Scheduler.Judged.response {d : Dispatcher} {s' : Scheduler} {r : Request} {α : Type}
    {answer : Answer α} {f : α → Response} (granted : ∀ a error, f a ≠ .refused error)
    (h : d.scheduler.Judged (r.refusal d.scheduler) answer s') :
    d.Judged r (.ofAnswer f answer) (d.withScheduler s') := by
  unfold Dispatcher.Judged
  unfold Scheduler.Judged at h
  cases hreason : r.refusal d.scheduler with
  | some error =>
    rw [hreason] at h
    obtain ⟨rfl, rfl⟩ := h
    exact ⟨rfl, rfl⟩
  | none =>
    rw [hreason] at h
    obtain ⟨a, rfl⟩ := h
    exact granted a

/-- A request that is never refused. -/
theorem Dispatcher.Judged.of_granted {d d' : Dispatcher} {r : Request} {response : Response}
    (h : r.refusal d.scheduler = none) (granted : ∀ error, response ≠ .refused error) :
    d.Judged r response d' := by
  unfold Dispatcher.Judged
  rw [h]
  exact granted

/-- **A request is refused for its reason and for no other**, and then nothing has changed. -/
theorem Dispatcher.perform_judged {d : Dispatcher} (hs : d.scheduler.Sound) (r : Request) :
    (d.perform r).Ends Stop.IsOverflow fun p => d.Judged r p.1 p.2 := by
  cases r with
  | newTask =>
    exact ends_bind (newTask_ends hs) fun p _ => ends_pure (.of_granted rfl nofun)
  | prepare id entry data allocate cr3 =>
    refine ends_bind (prepareTask_ends hs.keys_nodup id entry data allocate cr3) ?_
    rintro ⟨answer, s'⟩ outcome
    exact ends_pure (outcome.judged.response nofun)
  | spawn entry data n allocate cr3 =>
    refine ends_bind (spawn_ends hs entry data n allocate cr3) ?_
    rintro ⟨answer, s'⟩ outcome
    exact ends_pure (outcome.judged.response nofun)
  | sleep id =>
    refine ends_bind (sleep_ends hs id).of_never ?_
    rintro ⟨answer, s'⟩ outcome
    exact ends_pure (outcome.judged.response nofun)
  | wakeup id level =>
    refine ends_bind (wakeup_ends hs id level).of_never ?_
    rintro ⟨answer, s'⟩ outcome
    cases level with
    | none =>
      rcases outcome with ⟨n, hn, -⟩ | ⟨l, -, outcome⟩
      · nomatch hn
      · exact ends_pure (outcome.judged.response nofun)
    | some n =>
      refine ends_pure (Scheduler.Judged.response nofun (.of_level ?_))
      rcases outcome with ⟨m, hm, above, heq⟩ | ⟨l, hl, outcome⟩
      · obtain rfl := Option.some.inj hm
        exact .inr ⟨above, Prod.mk.inj heq⟩
      · obtain ⟨k, rfl, hk⟩ := Option.map_eq_some_iff.mp hl
        exact .inl ⟨k, hk, outcome.judged⟩
  | changeLevel id n =>
    refine ends_bind (changeLevel_ends hs id n).of_never ?_
    rintro ⟨answer, s'⟩ outcome
    refine ends_pure (Scheduler.Judged.response nofun (.of_level ?_))
    rcases outcome with ⟨above, heq⟩ | ⟨l, hl, outcome⟩
    · exact .inr ⟨above, Prod.mk.inj heq⟩
    · exact .inl ⟨l, hl, outcome.judged⟩
  | switch =>
    exact ends_bind (switchTask_ends hs).of_never fun p _ => ends_pure (.of_granted rfl nofun)
  | send id m =>
    refine ends_bind (send_ends d.scheduler id m).of_never ?_
    rintro ⟨answer, s'⟩ outcome
    exact ends_pure (outcome.judged.response nofun)
  | receive id => exact ends_pure ((receive_judged d.scheduler id).response nofun)
  | receiveCurrent =>
    obtain ⟨id, rest, head, current⟩ := hs.exists_current
    obtain ⟨t, known, -⟩ := hs.current_known current
    exact ends_bind_of_ok (a := _) (receiveCurrent_of_current current known)
      (ends_pure (.of_granted rfl nofun))
  | drain id => exact ends_pure ((drain_judged d.scheduler id).response nofun)
  | wait =>
    exact ends_bind (waitStep_ends hs).of_never fun p _ => ends_pure (.of_granted rfl nofun)
  | addTimer due value =>
    exact ends_bind (d.clock.push_ends due _) fun c _ => ends_pure (.of_granted rfl nofun)
  | arm => exact ends_bind d.clock.arm_ends fun c _ => ends_pure (.of_granted rfl nofun)
  | tick =>
    exact ends_bind (d.clock.tick_carried d.scheduler)
      fun p _ => ends_pure (.of_granted rfl nofun)
  | timerInterrupt =>
    exact ends_bind (Interrupt.onTimer_enacts hs) fun p _ => ends_pure (.of_granted rfl nofun)
  | deviceInterrupt receiver device =>
    exact ends_bind (Interrupt.onDevice_carried d.scheduler receiver device).of_never
      fun p _ => ends_pure (.of_granted rfl nofun)

/-- The two halves of what a request is judged by. -/
theorem Dispatcher.Judged.exact {d d' : Dispatcher} {r : Request} {response : Response}
    (h : d.Judged r response d') :
    (∀ error, response = .refused error ↔ r.refusal d.scheduler = some error) ∧
    (∀ error, response = .refused error → d' = d) := by
  unfold Dispatcher.Judged at h
  cases hreason : r.refusal d.scheduler with
  | none =>
    rw [hreason] at h
    refine ⟨fun error => ⟨fun hrefused => absurd hrefused (h error), nofun⟩, ?_⟩
    exact fun error hrefused => absurd hrefused (h error)
  | some reason =>
    rw [hreason] at h
    obtain ⟨rfl, rfl⟩ := h
    refine ⟨fun error => ⟨fun hrefused => ?_, fun hrefused => ?_⟩, fun _ _ => rfl⟩
    · cases hrefused
      rfl
    · cases hrefused
      rfl

/-! ## What a refused request has asked for -/

/-- The room in memory that a request asks for before it is refused: none, unless it is the
    allocator that refuses. -/
def Request.asks (s : Scheduler) : Request → List Need
  | .spawn _ _ n _ _ => if 4 ≤ n then [] else [.task ⟨s.latest + 1⟩, .stack s.config.stackBytes]
  | .prepare id _ _ _ _ =>
    match s.tasks.get? id with
    | none => []
    | some t => [.stack t.stackBytes]
  | _ => []

namespace Scheduler

variable {s : Scheduler} {id : TaskId} {error : KernelError} {n : Nat} {entry : EntryPoint}
  {data : Int64} {allocate : StackAllocator} {cr3 : UInt64}

theorem changeLevel_of_refusal (reason : (Level.refusal n).or (s.refusal id) = some error) :
    s.changeLevel id n = pure (.error error, s) := by
  unfold changeLevel
  rcases Level.refusal_or_eq_some_iff.mp reason with ⟨above, rfl⟩ | ⟨valid, unknown⟩
  · rw [Level.ofNat?_of_le above]
  · obtain ⟨rfl, missing⟩ := refusal_eq_some_iff.mp unknown
    rw [Level.ofNat?_of_lt valid]
    exact moveTask_of_unknown missing _

theorem wakeup_of_refusal (reason : (Level.refusal n).or (s.refusal id) = some error) :
    s.wakeup id (some n) = pure (.error error, s) := by
  unfold wakeup
  rcases Level.refusal_or_eq_some_iff.mp reason with ⟨above, rfl⟩ | ⟨valid, unknown⟩
  · simp only [Level.ofNat?_of_le above]
  · obtain ⟨rfl, missing⟩ := refusal_eq_some_iff.mp unknown
    simp only [Level.ofNat?_of_lt valid]
    exact wakeTask_of_unknown missing _

/-- A task is looked up before the allocator is asked. -/
theorem trace_prepareTask_of_refusal
    (reason : Request.refusal s (.prepare id entry data allocate cr3) = some error) :
    (s.prepareTask id entry data allocate cr3).trace =
      (Request.asks s (.prepare id entry data allocate cr3)).map Effect.need := by
  cases known : s.tasks.get? id with
  | none =>
    simp only [prepareTask, Request.asks, known]
    rfl
  | some t =>
    simp only [Request.refusal, known] at reason
    have refusal := StackAllocator.refusal_eq_some_iff.mp reason
    simp only [prepareTask, Request.asks, known]
    rw [Task.prepare_of_answer (Task.preparation_of_refusal refusal)]
    rfl

/-- The record of a new task is there before its stack is asked for. -/
theorem trace_spawn_of_refusal {p : Answer TaskId × Scheduler}
    (answered : (s.spawn entry data n allocate cr3).outcome = .ok p)
    (reason : Request.refusal s (.spawn entry data n allocate cr3) = some error) :
    (s.spawn entry data n allocate cr3).trace =
      (Request.asks s (.spawn entry data n allocate cr3)).map Effect.need := by
  unfold spawn at answered ⊢
  rcases Level.refusal_or_eq_some_iff.mp reason with ⟨above, -⟩ | ⟨valid, denied⟩
  · simp only [Request.asks, if_pos above, Level.ofNat?_of_le above]
    rfl
  · rw [Level.ofNat?_of_lt valid] at answered ⊢
    have refusal : allocate (Task.create ⟨s.latest + 1⟩ s.config.stackBytes).stackBytes =
        .error error := StackAllocator.refusal_eq_some_iff.mp denied
    obtain ⟨number, counted, -⟩ := outcome_bind_eq_ok_iff.mp answered
    obtain ⟨-, rfl⟩ := Word.add_eq_ok_iff.mp counted
    simp only [Request.asks, if_neg (Nat.not_le.mpr valid), bind_of_ok counted,
      Task.prepare_of_answer (Task.preparation_of_refusal refusal)]
    rfl

end Scheduler

/-- **A refused request has asked for a stack only if it is the allocator that has refused**, and a
    spawning then also for the record of its task.  Nothing else of it can be seen. -/
theorem Dispatcher.trace_of_refused {d d' : Dispatcher} (hs : d.scheduler.Sound) {r : Request}
    {error : KernelError} (refused : (d.perform r).outcome = .ok (.refused error, d')) :
    (d.perform r).trace = (r.asks d.scheduler).map Effect.need := by
  have reason : r.refusal d.scheduler = some error :=
    (((perform_judged hs r).of_ok refused).exact.1 error).mp rfl
  cases r with
  | newTask | switch | receiveCurrent | wait | addTimer | arm | tick | timerInterrupt
  | deviceInterrupt => nomatch reason
  -- the only two that get as far as the allocator
  | prepare id entry data allocate cr3 =>
    obtain ⟨p, done, -⟩ := outcome_bind_eq_ok_iff.mp refused
    rw [perform, bind_of_ok done]
    exact (List.append_nil _).trans (trace_prepareTask_of_refusal reason)
  | spawn entry data n allocate cr3 =>
    obtain ⟨p, done, -⟩ := outcome_bind_eq_ok_iff.mp refused
    rw [perform, bind_of_ok done]
    exact (List.append_nil _).trans (trace_spawn_of_refusal done reason)
  -- all others are refused before anything can be seen
  | sleep id =>
    obtain ⟨-, missing⟩ := refusal_eq_some_iff.mp reason
    rw [perform, sleep_of_unknown missing]
    rfl
  | wakeup id level =>
    cases level with
    | none =>
      obtain ⟨-, missing⟩ := refusal_eq_some_iff.mp reason
      rw [perform, wakeup, wakeTask_of_unknown missing]
      rfl
    | some n =>
      rw [perform, wakeup_of_refusal reason]
      rfl
  | changeLevel id n =>
    rw [perform, changeLevel_of_refusal reason]
    rfl
  | send id m =>
    obtain ⟨-, missing⟩ := refusal_eq_some_iff.mp reason
    rw [perform, send_of_unknown missing]
    rfl
  | receive id | drain id => rfl

/-! ## Runs -/

/-- The request has been refused. -/
def Episode.refused (e : Episode) : Bool :=
  match e.response with
  | .refused _ => true
  | _ => false

theorem Episode.after_of_refused {e : Episode} (hs : e.before.scheduler.Sound)
    (h : e.refused = true) : e.after = e.before := by
  have judged := ((Dispatcher.perform_judged hs e.request).of_ok e.done).exact.2
  unfold Episode.refused at h
  split at h
  · rename_i error hrefused
    exact judged error hrefused
  · nomatch h

/-- **A run is the same without its refused requests**: the others follow on each other and lead
    to the same dispatcher. -/
theorem Course.without_refused {d d' : Dispatcher} {es : List Episode}
    (h : Course id d es d') (hs : d.scheduler.Sound) :
    Course id d (es.filter fun e => !e.refused) d' := by
  induction h with
  | nil => exact .nil
  | @snoc es e earlier ih =>
    have hbefore : e.before.scheduler.Sound := (earlier.map Dispatcher.scheduler).sound hs
    rw [List.filter_append]
    cases hrefused : e.refused with
    | true =>
      -- the dispatcher has not changed, so nothing is missing where the request is left out
      rw [List.filter_cons_of_neg (by simp [hrefused]), List.filter_nil, List.append_nil]
      show Course id d _ e.after
      rw [Episode.after_of_refused hbefore hrefused]
      exact ih
    | false =>
      rw [List.filter_cons_of_pos (by simp [hrefused]), List.filter_nil]
      exact ih.snoc

namespace Scheduler

variable {s s' : Scheduler}

/-- The next task to be spawned gets the next number. -/
theorem id_of_spawn (hs : s.Sound) {c c' : Clock} {entry : EntryPoint} {data : Int64} {n : Nat}
    {allocate : StackAllocator} {cr3 : UInt64} {id : TaskId}
    (done : (Dispatcher.perform ⟨s, c⟩ (.spawn entry data n allocate cr3)).outcome =
      .ok (.task id, ⟨s', c'⟩)) : id = ⟨s.latest + 1⟩ := by
  obtain ⟨⟨answer, s₁⟩, hspawn, hpure⟩ := outcome_bind_eq_ok_iff.mp done
  have outcome := (spawn_ends hs entry data n allocate cr3).of_ok hspawn
  cases outcome with
  | invalid above => nomatch hpure
  | refused valid refusal => nomatch hpure
  | spawned level prepared steps =>
    cases hpure
    cases steps with
    | cons first later =>
      cases first with
      | enroll next fresh asleep empty => exact next

/-- **Refusals are exact and change nothing.**  In every state that a history leads to, at
    whatever clock, a request is refused if and only if there is a reason for it in that state,
    and the refusal names the reason; then the scheduler and the clock are what they were.  What
    is provided for is answered, one way or the other.  A spawning at a level that does not exist
    is refused before the allocator is asked, and of a refused request nothing is seen but what it
    has asked for until then (`Request.asks`); after a refusal the next task to be spawned gets the
    number that it would have got; and a run leads to the same end without its refused requests. -/
theorem refusals_exact {log : List (Request × Response)} (h : History log s) :
    (∀ c r, (Dispatcher.perform ⟨s, c⟩ r).Ends Stop.IsOverflow fun p =>
      (∀ error, p.1 = .refused error ↔ r.refusal s = some error) ∧
      ∀ error, p.1 = .refused error → p.2 = ⟨s, c⟩) ∧
    (∀ c r, (Dispatcher.mk s c).Provides [r] →
      ∃ p, (Dispatcher.perform ⟨s, c⟩ r).outcome = .ok p) ∧
    (∀ id error, s.task id = .error error ↔ error = .noSuchTask id ∧ s.tasks.get? id = none) ∧
    (∀ entry data n allocate cr3, 4 ≤ n →
      s.spawn entry data n allocate cr3 = pure (.error (.invalidLevel n), s)) ∧
    (∀ c r error d, (Dispatcher.perform ⟨s, c⟩ r).outcome = .ok (.refused error, d) →
      ∀ entry data n allocate cr3 id d', (Dispatcher.perform d
        (.spawn entry data n allocate cr3)).outcome = .ok (.task id, d') → id = ⟨s.latest + 1⟩) ∧
    (∀ c r error d, (Dispatcher.perform ⟨s, c⟩ r).outcome = .ok (.refused error, d) →
      (Dispatcher.perform ⟨s, c⟩ r).trace = (r.asks s).map Effect.need) ∧
    ∀ c es d, Course id ⟨s, c⟩ es d → Course id ⟨s, c⟩ (es.filter fun e => !e.refused) d := by
  refine ⟨fun c r => ?_, fun c r provided => ?_, fun id error => ?_,
    fun entry data n allocate cr3 above => ?_, fun c r error d refused => ?_,
    fun c r error d refused => Dispatcher.trace_of_refused (d := ⟨s, c⟩) h.sound refused,
    fun c es d course => course.without_refused h.sound⟩
  · exact (Dispatcher.perform_judged (d := ⟨s, c⟩) h.sound r).imp fun p judged => judged.exact
  · obtain ⟨p, hp, -⟩ := ends_never_iff.mp (Dispatcher.perform_answers h.sound provided)
    exact ⟨p, hp⟩
  · exact task_eq_error_iff.trans refusal_eq_some_iff
  · unfold spawn
    rw [Level.ofNat?_of_le above]
  · -- the refusal has left the numbers alone
    have hsame := ((Dispatcher.perform_judged (d := ⟨s, c⟩) h.sound r).of_ok refused).exact.2
    obtain rfl := hsame error rfl
    intro entry data n allocate cr3 id d' spawned
    exact id_of_spawn h.sound spawned

/-- There is no memory for a task that is to be spawned, after it has been asked for, and then there
    is. -/
theorem refusals_exact_of_exhausted : ∃ s d d', History [(.newTask, .task ⟨3⟩)] s ∧
    (Dispatcher.perform ⟨s, .create .standard⟩ (.spawn .terminal 0 2 .exhausted)).outcome =
      .ok (.refused (.allocationFailure 32768), d) ∧ d = ⟨s, .create .standard⟩ ∧
    (Dispatcher.perform ⟨s, .create .standard⟩ (.spawn .terminal 0 2 .exhausted)).trace =
      [.need (.task ⟨4⟩), .need (.stack 32768)] ∧
    (Dispatcher.perform d (.spawn .terminal 0 2 .heap)).outcome = .ok (.task ⟨4⟩, d') ∧
    (⟨4⟩ : TaskId) = ⟨s.latest + 1⟩ := by
  have created : (create .standard .heap).outcome = .ok (.ok _) := rfl
  have h := (History.created created).performAll
    (show (Dispatcher.performAll ⟨_, .create .standard⟩ [.newTask]).outcome = .ok (_, _) from rfl)
  obtain ⟨exact, -, -, -, next, asked, -⟩ := refusals_exact h
  refine ⟨_, _, _, h, rfl, ?_, ?_, rfl, ?_⟩
  · exact ((exact _ (.spawn .terminal 0 2 .exhausted)).of_ok rfl).2 _ rfl
  · exact asked (.create .standard) (.spawn .terminal 0 2 .exhausted) _ _ rfl
  · exact next (.create .standard) (.spawn .terminal 0 2 .exhausted) _ _ rfl .terminal 0 2 .heap
      addressSpace _ _ rfl

end Scheduler

end PreemptiveKernel
