/-
  The ready queues.

  Who can run is written down three times: by the flag of a task, by its level, and by the
  place where it stands.  `Consistent` says that the three agree, read off the entries of the
  table and the queues as they are.

  A level that does not exist never gets into the table, because a request that names one is
  refused before anything is done (`Dispatcher.perform_of_invalidLevel`).

  `Consistent` holds in every state that a history leads to (`queues_consistent`).  That needs the whole
  of `Sound`, because a task leaves a queue by the level that the table gives for it and the
  turn ends at the head of a queue: where the three disagree once, the next operation either
  stops or takes the wrong task.
-/
import PreemptiveKernel.Proofs.Histories

namespace PreemptiveKernel

open Run Scheduler

/-! ## Levels that do not exist -/

/-- The number of the level that a request names. -/
def Request.level? : Request → Option Nat
  | .spawn _ _ n _ _ | .changeLevel _ n => some n
  | .wakeup _ n => n
  | _ => none

/-- A request that names no level of the four is refused and changes nothing. -/
theorem Dispatcher.perform_of_invalidLevel (d : Dispatcher) {r : Request} {n : Nat}
    (hr : r.level? = some n) (hn : 4 ≤ n) :
    (d.perform r).outcome = .ok (.refused (.invalidLevel n), d) := by
  have hlevel := Level.ofNat?_of_le hn
  cases r with
  | spawn entry data m allocate cr3 =>
    obtain rfl := Option.some.inj hr
    simp only [Dispatcher.perform, spawn, hlevel]
    rfl
  | changeLevel id m =>
    obtain rfl := Option.some.inj hr
    simp only [Dispatcher.perform, changeLevel, hlevel]
    rfl
  | wakeup id m =>
    obtain rfl : m = some n := hr
    simp only [Dispatcher.perform, wakeup, hlevel]
    rfl
  | _ => cases hr

/-! ## Consistency -/

namespace Scheduler

variable {s : Scheduler}

/-- **The queues are consistent** with the task table. -/
structure Consistent (s : Scheduler) : Prop where
  /-- Every task is kept under its own identifier, and no other task is. -/
  named : s.tasks.keys.Nodup ∧ ∀ id t, (id, t) ∈ s.tasks.entries → t.id = id
  /-- A ready task stands once in the queue of its level and in no other. -/
  ready : ∀ id t, (id, t) ∈ s.tasks.entries → t.running = true →
    (s.queue t.level).count id = 1 ∧ ∀ l, l ≠ t.level → id ∉ s.queue l
  /-- A sleeping task stands in no queue. -/
  asleep : ∀ id t, (id, t) ∈ s.tasks.entries → t.running = false → ∀ l, id ∉ s.queue l
  /-- Whoever stands in a queue is in the table. -/
  known : ∀ l, ∀ id ∈ s.queue l, id ∈ s.tasks.keys
  /-- No task is above the highest level. -/
  bounded : ∀ id t, (id, t) ∈ s.tasks.entries → t.level ≤ .top
  /-- The idle task is ready at the lowest level. -/
  idle : ∃ t, (s.idle, t) ∈ s.tasks.entries ∧ t.running = true ∧ t.level = .bottom
  /-- The queue of the lowest level is never empty. -/
  lowest : s.queue .bottom ≠ []

theorem Sound.consistent (h : s.Sound) : s.Consistent := by
  have hget : ∀ {id t}, (id, t) ∈ s.tasks.entries → s.tasks.get? id = some t :=
    fun hm => TaskTable.get?_of_mem h.keys_nodup hm
  have hidle := h.arranged.mem_queue_iff.mpr h.idle_ready
  refine ⟨⟨h.keys_nodup, ?_⟩, ?_, ?_, ?_, ?_, ?_, List.ne_nil_of_mem hidle⟩
  · intro id t hm
    exact h.named (hget hm)
  · intro id t hm ready
    have hst := station_of_ready (hget hm) ready
    constructor
    · rw [h.arranged, if_pos hst]
    · intro l hl hin
      have hl' := h.arranged.mem_queue_iff.mp hin
      rw [hst] at hl'
      exact hl (Option.some.inj hl').symm
  · intro id t hm asleep l hin
    have hl := h.arranged.mem_queue_iff.mp hin
    rw [station_of_asleep (hget hm) asleep] at hl
    nomatch hl
  · intro l id hin
    obtain ⟨t, ht, -⟩ := h.of_mem_queue hin
    exact TaskTable.mem_keys_iff.mpr ⟨t, ht⟩
  · intro id t _
    exact Fin.le_last t.level
  · obtain ⟨t, ht, ready, hlevel⟩ := h.idle_known
    exact ⟨t, TaskTable.mem_entries_of_get? ht, ready, hlevel⟩

/-- **The ready queues agree with the task table after every operation.**  Whatever has been
    asked of a scheduler since it was set up, its queues are consistent.  Whatever is asked
    next, at whatever clock, they are consistent after it, unless machine words run out; and a
    request for a level above the highest is refused. -/
theorem queues_consistent {log : List (Request × Response)} (h : History log s) :
    s.Consistent ∧
    (∀ c r, (Dispatcher.perform ⟨s, c⟩ r).Ends Stop.IsOverflow
      fun p => p.2.scheduler.Consistent) ∧
    ∀ c r n, r.level? = some n → 4 ≤ n →
      (Dispatcher.perform ⟨s, c⟩ r).outcome = .ok (.refused (.invalidLevel n), ⟨s, c⟩) := by
  refine ⟨h.sound.consistent, fun c r => ?_, fun c r n => ?_⟩
  · exact (h.perform_ends c r).imp fun p hp => hp.2.sound.consistent
  · exact Dispatcher.perform_of_invalidLevel ⟨s, c⟩

/-- A task is spawned below the highest level, the main task goes further down, the turn
    passes, and the new task gets a message and falls asleep. -/
theorem queues_consistent_of_retired : ∃ s, History
    [(.spawn .idle 0 2 .heap, .task ⟨3⟩), (.changeLevel ⟨1⟩ 1, .done),
      (.switch, .change (some ⟨⟨1⟩, ⟨3⟩⟩)), (.send ⟨3⟩ (.timerTimeout 5 7), .done),
      (.sleep ⟨3⟩, .change (some ⟨⟨3⟩, ⟨1⟩⟩))] s ∧ s.Consistent := by
  have created : (create .standard .heap).outcome = .ok (.ok _) := rfl
  have h := (History.created created).performAll
    (show (Dispatcher.performAll ⟨_, .create .standard⟩
      [.spawn .idle 0 2 .heap, .changeLevel ⟨1⟩ 1, .switch, .send ⟨3⟩ (.timerTimeout 5 7),
        .sleep ⟨3⟩]).outcome = .ok (_, _) from rfl)
  exact ⟨_, h, (queues_consistent h).1⟩

end Scheduler

end PreemptiveKernel
