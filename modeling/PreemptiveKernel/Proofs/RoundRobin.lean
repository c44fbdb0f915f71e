/-
  The tasks of a level take turns.

  A turn that ends puts the current task behind the others of its level.  So as long as nothing
  else happens, the queue of the level is rotated by one place a turn, and the tasks run in the
  order in which they stood in it, the first after the last (`turnAt`).

  The first turn of such a row is another matter.  It may begin in any state, with a request for
  another level pending or with the current task at a level that is not the highest; what it does
  to the queues is the same, and afterwards the highest level runs.  From then on nothing calls for
  another choice of level.  That is the crux: in a settled state the end of a turn is a rotation of
  one queue and nothing else (`switchTask_of_settled`), and it leaves a settled state behind, so
  the rotations add up (`performAll_switch`).
-/
import Mathlib.Data.List.Rotate
import PreemptiveKernel.Proofs.Priority

namespace PreemptiveKernel

open Run

namespace Scheduler

variable {s s' : Scheduler} {q : List TaskId}

/-! ## Whose turn it is -/

/-- The task of the queue `q` that runs after `i` turns have ended: they run in their order, and
    the first one follows the last. -/
def turnAt (q : List TaskId) (ready : q ≠ []) (i : Nat) : TaskId :=
  q.get ⟨i % q.length, Nat.mod_lt i (List.length_pos_iff.mpr ready)⟩

/-- The change of turns after `i` turns have ended: none if there is but one task. -/
def changeAt (q : List TaskId) (ready : q ≠ []) (i : Nat) : Option Handoff :=
  if q.length = 1 then none else some ⟨turnAt q ready i, turnAt q ready (i + 1)⟩

theorem rotate_ne_nil (ready : q ≠ []) (k : Nat) : q.rotate k ≠ [] :=
  fun h => ready (List.rotate_eq_nil_iff.mp h)

/-- In a queue that has been rotated the turns are the same, but they begin later. -/
theorem turnAt_rotate (ready : q ≠ []) (k i : Nat) :
    turnAt (q.rotate k) (rotate_ne_nil ready k) i = turnAt q ready (i + k) := by
  unfold turnAt
  rw [List.get_eq_getElem, List.get_eq_getElem, List.getElem_rotate]
  congr 1
  show (i % (q.rotate k).length + k) % q.length = (i + k) % q.length
  rw [List.length_rotate, Nat.mod_add_mod]

theorem changeAt_rotate (ready : q ≠ []) (k i : Nat) :
    changeAt (q.rotate k) (rotate_ne_nil ready k) i = changeAt q ready (i + k) := by
  unfold changeAt
  rw [List.length_rotate, turnAt_rotate, turnAt_rotate, Nat.add_right_comm]

/-- The first turn is that of the head. -/
theorem turnAt_zero {id : TaskId} {rest : List TaskId} (ready : q ≠ [])
    (head : q = id :: rest) : turnAt q ready 0 = id := by
  subst head
  unfold turnAt
  simp only [Nat.zero_mod]
  rfl

/-- When `k` turns have ended, the queue has the task in front whose turn it is. -/
theorem exists_rotate_eq_cons (ready : q ≠ []) (k : Nat) :
    ∃ rest, q.rotate k = turnAt q ready k :: rest := by
  obtain ⟨id, rest, hq⟩ := List.exists_cons_of_ne_nil (rotate_ne_nil ready k)
  have hturn : turnAt q ready k = id := by
    rw [← Nat.zero_add k, ← turnAt_rotate ready k 0]
    exact turnAt_zero _ hq
  exact ⟨rest, hturn ▸ hq⟩

/-- Where nobody stands twice, the turn passes to another task if there is one. -/
theorem effective_turn (nodup : q.Nodup) (ready : q ≠ []) :
    Handoff.effective ⟨turnAt q ready 0, turnAt q ready 1⟩ = changeAt q ready 0 := by
  have hlength := List.length_pos_iff.mpr ready
  have hsame : turnAt q ready 0 = turnAt q ready 1 ↔ q.length = 1 := by
    unfold turnAt
    rw [nodup.get_inj_iff, Fin.mk.injEq, Nat.zero_mod]
    constructor
    · intro hmod
      rcases Nat.lt_or_ge 1 q.length with hmore | hone
      · rw [Nat.mod_eq_of_lt hmore] at hmod
        omega
      · omega
    · intro hone
      rw [hone]
  unfold Handoff.effective changeAt
  by_cases hone : q.length = 1
  · rw [if_pos hone, if_pos (hsame.mpr hone)]
  · rw [if_neg hone, if_neg fun e => hone (hsame.mp e)]

/-- **The tasks that run one after the other** are the queue, begun at some place. -/
theorem map_turnAt (ready : q ≠ []) (j : Nat) :
    (List.range' j q.length).map (turnAt q ready) = q.rotate j := by
  refine List.ext_getElem (by simp) fun i hi hi' => ?_
  rw [List.getElem_map, List.getElem_range', Nat.one_mul, Nat.add_comm, ← turnAt_rotate ready j i]
  have hlt : i % (q.rotate j).length = i := Nat.mod_eq_of_lt hi'
  unfold turnAt
  rw [List.get_eq_getElem]
  simp only [hlt]

/-! ## The end of a turn -/

theorem setQueue_setQueue (s : Scheduler) (l : Level) (q r : List TaskId) :
    (s.setQueue l q).setQueue l r = s.setQueue l r := by
  unfold setQueue
  simp only [Vector.set_set]

/-- What the end of a turn leaves behind is what was there, but for the queue of the current level,
    for the current level, and for the request for another one. -/
theorem settle_eq (s : Scheduler) (q : List TaskId) :
    s.settle q = { s.setQueue s.currentLevel q with
      currentLevel := (s.settle q).currentLevel, reschedule := false } := by
  unfold settle chooseLevel
  split
  · rfl
  · split
    · rfl
    · rename_i hquiet
      have hsame : s.reschedule = false := Bool.eq_false_iff.mpr hquiet
      rw [← hsame]
      rfl

/-- Nothing calls for another choice of level, and none is made. -/
theorem settle_of_quiet (quiet : s.reschedule = false) (ready : q ≠ []) :
    s.settle q = s.setQueue s.currentLevel q := by
  have hempty : ¬ q.isEmpty = true := fun h => ready (List.isEmpty_iff.mp h)
  have hquiet : ¬ (s.setQueue s.currentLevel q).reschedule = true :=
    Bool.eq_false_iff.mp quiet
  unfold settle chooseLevel
  rw [if_neg hempty, if_neg hquiet]

/-- What a turn that has ended has done to the state. -/
theorem Step.of_yield {change : Handoff} (h : Step s (.yield change) s') :
    ∃ rest, s.queue s.currentLevel = change.leaving :: rest ∧
      s' = s.settle (rest ++ [change.leaving]) := by
  cases h with
  | yield head chosen => exact ⟨_, head, rfl⟩

/-- **In a settled state the end of a turn is a rotation** of the queue of the highest level, and
    it leaves a settled state behind. -/
theorem switchTask_of_settled (hs : s.Sound) (settled : s.Settled)
    (hq : s.queue s.currentLevel = q) (ready : q ≠ []) :
    s.switchTask.outcome = .ok (changeAt q ready 0, s.setQueue s.currentLevel (q.rotate 1)) ∧
      (s.setQueue s.currentLevel (q.rotate 1)).Sound ∧
      (s.setQueue s.currentLevel (q.rotate 1)).Settled := by
  obtain ⟨⟨answer, s'⟩, done, change, step, told⟩ := ends_never_iff.mp (switchTask_ends hs)
  have step : Step s (.yield change) s' := step
  obtain ⟨rest, head, hstate⟩ := step.of_yield
  have hrotated : q.rotate 1 = rest ++ [change.leaving] := by
    rw [← hq, head, List.rotate_cons_succ, List.rotate_zero]
  rw [← hrotated, settle_of_quiet settled.quiet (rotate_ne_nil ready 1)] at hstate
  -- the turn passes from the head of the queue to the head of the rotated one
  have hleaving : turnAt q ready 0 = change.leaving := turnAt_zero ready (hq ▸ head)
  have hentering : turnAt q ready 1 = change.entering := by
    obtain ⟨later, hnext⟩ := exists_rotate_eq_cons ready 1
    obtain ⟨others, hcurrent⟩ := currentId_eq_ok_iff.mp (step.current_passed rfl).2
    rw [hstate, (setQueue_frame _ _ _).2.2.1, queue_setQueue_self, hnext] at hcurrent
    exact (List.cons.inj hcurrent).1
  have hnodup : q.Nodup := hq ▸ hs.queue_nodup s.currentLevel
  have hanswer : answer = changeAt q ready 0 := by
    rw [← effective_turn hnodup ready, hleaving, hentering]
    exact told
  rw [← hstate, ← hanswer]
  exact ⟨done, step.sound hs, step.settled hs rfl⟩

/-! ## One turn after the other -/

theorem setQueue_queue (s : Scheduler) (l : Level) : s.setQueue l (s.queue l) = s := by
  unfold setQueue queue
  rw [Fin.getElem_fin, Vector.set_getElem_self]

/-- **Turns that end one after the other** in a settled state rotate the queue of the highest level
    by as many places, and pass from each task to the next one. -/
theorem performAll_switch (hs : s.Sound) (settled : s.Settled)
    (hq : s.queue s.currentLevel = q) (ready : q ≠ []) (c : Clock) (k : Nat) :
    (Dispatcher.performAll ⟨s, c⟩ (List.replicate k .switch)).outcome =
      .ok ((List.range k).map fun i => .change (changeAt q ready i),
        ⟨s.setQueue s.currentLevel (q.rotate k), c⟩) := by
  induction k generalizing s q with
  | zero =>
    have hsame : s.setQueue s.currentLevel (q.rotate 0) = s := by
      rw [List.rotate_zero, ← hq, setQueue_queue]
    rw [hsame]
    rfl
  | succ k ih =>
    obtain ⟨done, hs₁, settled₁⟩ := switchTask_of_settled hs settled hq ready
    have first : (Dispatcher.perform ⟨s, c⟩ .switch).outcome =
        .ok (.change (changeAt q ready 0), ⟨s.setQueue s.currentLevel (q.rotate 1), c⟩) := by
      unfold Dispatcher.perform
      rw [outcome_bind, done]
      rfl
    have later := ih hs₁ settled₁ (queue_setQueue_self _ _ _) (rotate_ne_nil ready 1)
    -- the turns of the rotated queue are those of the queue, but for the first
    have hanswers : (List.range k).map (fun i =>
        Response.change (changeAt (q.rotate 1) (rotate_ne_nil ready 1) i)) =
        (List.range k).map fun i => .change (changeAt q ready (i + 1)) :=
      List.map_congr_left fun i _ => congrArg Response.change (changeAt_rotate ready 1 i)
    rw [(setQueue_frame _ _ _).2.2.1, setQueue_setQueue, List.rotate_rotate, Nat.add_comm 1 k,
      hanswers] at later
    rw [List.replicate_succ, Dispatcher.performAll, outcome_bind, first]
    show Except.map _ (Dispatcher.performAll _ _).outcome = _
    rw [later, List.range_succ_eq_map, List.map_cons, List.map_map]
    rfl

/-! ## From any state -/

/-- **The tasks in the queue `q` go round.** -/
structure GoesRound (m : Scheduler) (q : List TaskId) (ready : q ≠ []) : Prop where
  /-- It is the queue of the current level, which is the highest one with a ready task. -/
  level : m.highestReady = some m.currentLevel ∧ m.queue m.currentLevel = q
  /-- No other choice of level is requested. -/
  quiet : m.reschedule = false
  /-- When `k` turns have ended one after the other, the queue is rotated by `k` places and nothing
      else has changed; the turn has passed from each task to the next one. -/
  turns : ∀ (c : Clock) (k : Nat),
    (Dispatcher.performAll ⟨m, c⟩ (List.replicate k .switch)).outcome =
      .ok ((List.range k).map fun i => .change (changeAt q ready i),
        ⟨m.setQueue m.currentLevel (q.rotate (k % q.length)), c⟩)
  /-- The task whose turn it is is current. -/
  current : ∀ k, (m.setQueue m.currentLevel (q.rotate (k % q.length))).currentId =
    .ok (turnAt q ready k)
  /-- In as many turns as there are tasks they run in the order of the queue, begun at some
      place. -/
  order : ∀ j, (List.range' j q.length).map (turnAt q ready) = q.rotate (j % q.length)
  /-- Each of them runs once. -/
  once : ∀ j, ∀ id ∈ q, ((List.range' j q.length).map (turnAt q ready)).count id = 1

theorem Settled.goesRound (settled : s.Settled) (hs : s.Sound) :
    GoesRound s (s.queue s.currentLevel) settled.occupied where
  level := ⟨settled.highestReady_eq, rfl⟩
  quiet := settled.quiet
  turns := by
    intro c k
    rw [List.rotate_mod]
    exact performAll_switch hs settled rfl settled.occupied c k
  current := by
    intro k
    rw [List.rotate_mod, currentId_eq_ok_iff, (setQueue_frame _ _ _).2.2.1, queue_setQueue_self]
    exact exists_rotate_eq_cons settled.occupied k
  order := by
    intro j
    rw [List.rotate_mod]
    exact map_turnAt settled.occupied j
  once := by
    intro j id hid
    rw [map_turnAt]
    exact List.count_eq_one_of_mem (List.nodup_rotate.mpr (hs.queue_nodup _))
      (List.mem_rotate.mpr hid)

/-- **Ready tasks of a level take turns.**  In every state that a history leads to, the end of a
    turn puts the current task behind the others of its level and reorders nothing else, though
    another level may be chosen.  Then the highest level runs, and from there the tasks in its queue
    go round: each turn that ends rotates the queue by one place and changes nothing else, and the
    turn passes from each task to the one behind it, and from the last one to the first. -/
theorem tasks_go_round {log : List (Request × Response)} (h : History log s) :
    ∃ answer m c rest, s.switchTask.outcome = .ok (answer, m) ∧
      s.currentId = .ok c ∧ s.queue s.currentLevel = c :: rest ∧
      m = { s.setQueue s.currentLevel (rest ++ [c]) with
        currentLevel := m.currentLevel, reschedule := false } ∧
      ∃ q ready, GoesRound m q ready := by
  have hs := h.sound
  obtain ⟨⟨answer, m⟩, done, change, step, -⟩ := ends_never_iff.mp (switchTask_ends hs)
  have step : Step s (.yield change) m := step
  obtain ⟨rest, head, hstate⟩ := step.of_yield
  refine ⟨answer, m, change.leaving, rest, done, (step.current_passed rfl).1, head, ?_,
    _, _, (step.settled hs rfl).goesRound (step.sound hs)⟩
  rw [hstate]
  exact settle_eq s _

/-- The main task is current at level one, in front of another, and above it three tasks have become
    ready.  The first turn puts it behind the other one; four more turns go once round the upper
    level and one turn further. -/
theorem tasks_go_round_from_below : ∃ log s m, History log s ∧ s.currentLevel = 1 ∧
    s.reschedule = true ∧ s.queue 1 = [⟨1⟩, ⟨3⟩] ∧ s.queue 3 = [⟨4⟩, ⟨5⟩, ⟨6⟩] ∧
    s.switchTask.outcome = .ok (some ⟨⟨1⟩, ⟨4⟩⟩, m) ∧ m.queue 1 = [⟨3⟩, ⟨1⟩] ∧
    (Dispatcher.performAll ⟨m, .create .standard⟩ (List.replicate 4 .switch)).outcome =
      .ok ([.change (some ⟨⟨4⟩, ⟨5⟩⟩), .change (some ⟨⟨5⟩, ⟨6⟩⟩), .change (some ⟨⟨6⟩, ⟨4⟩⟩),
        .change (some ⟨⟨4⟩, ⟨5⟩⟩)], ⟨m.setQueue 3 [⟨5⟩, ⟨6⟩, ⟨4⟩], .create .standard⟩) := by
  have created : (create .standard .heap).outcome = .ok (.ok _) := rfl
  have h := (History.created created).performAll
    (show (Dispatcher.performAll ⟨_, .create .standard⟩
      [.spawn .idle 0 1 .heap, .changeLevel ⟨1⟩ 1, .spawn .idle 0 3 .heap, .spawn .idle 0 3 .heap,
        .spawn .idle 0 3 .heap]).outcome = .ok (_, _) from rfl)
  obtain ⟨answer, m, c, rest, done, -, -, -, q, ready, round⟩ := tasks_go_round h
  obtain ⟨rfl, rfl⟩ := Prod.mk.inj (Except.ok.inj done)
  obtain rfl : _ = q := round.level.2
  exact ⟨_, _, _, h, rfl, rfl, rfl, rfl, done, rfl, round.turns (.create .standard) 4⟩

end Scheduler

end PreemptiveKernel
