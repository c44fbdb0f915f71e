/-
  Handoffs track the current task.

  The scheduler believes that the head of the current level runs; the processor runs whoever
  the last handoff named.  The two agree only if the head changes exactly when a handoff says
  so, whatever else is done to the queues: tasks join and leave them, the current level moves,
  the current task moves with it.

  One request either tells of no handoff and leaves the current task as it is, or tells of one
  that leads from the task that was current to another one that is (`Performed.current`).  The
  handoffs of a history therefore form a chain that begins at the main task and ends at the
  current one (`handoffs_track_current`).
-/
import PreemptiveKernel.Proofs.Histories

namespace PreemptiveKernel

open Run

/-! ## Chains -/

/-- The handoffs that a log tells of, in order. -/
def handoffs (log : List (Request × Response)) : List Handoff :=
  log.filterMap fun p => p.2.handoff

/-- Handoffs lead from `first` to `last`: each takes the processor from the task that the one
    before it gave it to, and gives it to another. -/
def Handoff.Chain (first : TaskId) : List Handoff → TaskId → Prop
  | [], last => last = first
  | h :: rest, last => h.leaving = first ∧ h.leaving ≠ h.entering ∧ Chain h.entering rest last

/-- A chain goes on with a handoff from the task that it leads to. -/
theorem Handoff.Chain.concat {first : TaskId} {hs : List Handoff} {h : Handoff}
    (hc : Chain first hs h.leaving) (hne : h.leaving ≠ h.entering) :
    Chain first (hs ++ [h]) h.entering := by
  induction hs generalizing first with
  | nil => exact ⟨hc, hne, rfl⟩
  | cons g rest ih =>
    obtain ⟨hfirst, hg, hrest⟩ := hc
    exact ⟨hfirst, hg, ih hrest⟩

theorem handoffs_concat (log : List (Request × Response)) (r : Request) (response : Response) :
    handoffs (log ++ [(r, response)]) = handoffs log ++ response.handoff.toList := by
  unfold handoffs
  rw [List.filterMap_append]
  cases hr : response.handoff with
  | none => simp [hr]
  | some h => simp [hr]

/-! ## One request -/

/-- The request is not one that may pass the turn on: it does not end a quantum or a turn, it
    is no round of waiting, and if it puts a task to sleep, that is not the current task or it
    is the idle task. -/
def Request.KeepsTurn (s : Scheduler) : Request → Prop
  | .switch | .wait | .timerInterrupt => False
  | .sleep id => s.currentId ≠ .ok id ∨ id = s.idle
  | _ => True

variable {s s' : Scheduler}

/-- **No handoff and the same task, or a handoff and another task.** -/
theorem Performed.current {r : Request} {response : Response} (hs : s.Sound)
    (h : Performed s r response s') :
    (response.handoff = none ∧ s'.currentId = s.currentId) ∨
    ∃ change, response.handoff = some change ∧ change.leaving ≠ change.entering ∧
      s.currentId = .ok change.leaving ∧ s'.currentId = .ok change.entering ∧
      ¬ r.KeepsTurn s := by
  cases h with
  | calm steps silent => exact .inl ⟨silent, steps.current_kept hs⟩
  | @yielded response change between s' asked steps last told =>
    obtain ⟨hleaving, hentering⟩ := last.current_passed rfl
    have hkept : between.currentId = s.currentId := steps.current_kept hs
    rw [hkept] at hleaving
    by_cases hsame : change.leaving = change.entering
    · -- the task is the only one of the highest level, and its turn goes on
      left
      rw [Handoff.effective, if_pos hsame] at told
      exact ⟨told, by rw [hentering, hleaving, hsame]⟩
    · right
      rw [Handoff.effective, if_neg hsame] at told
      refine ⟨change, told, hsame, hleaving, hentering, ?_⟩
      rcases asked with rfl | rfl
      · exact id
      · exact id
  | dismissed asked step silent => exact .inl ⟨silent, step.current_kept hs rfl⟩
  | @retired change response s' asked step told =>
    obtain ⟨hleaving, hentering⟩ := step.current_passed rfl
    have hne := (Handoff.effective_eq_some_iff.mp (step.effective_of_retire hs)).2
    refine .inr ⟨change, told, hne, hleaving, hentering, ?_⟩
    rw [asked]
    rintro (other | hidle)
    · exact other hleaving
    · exact step.wakeful_of_retire hidle
  | @waited t change response s' asked known nothing step told =>
    obtain ⟨hleaving, hentering⟩ := step.current_passed rfl
    have hne := (Handoff.effective_eq_some_iff.mp (step.effective_of_retire hs)).2
    refine .inr ⟨change, told, hne, hleaving, hentering, ?_⟩
    rw [asked]
    exact id

/-- What a request with this response does to the current task, from `s` to `s'`. -/
structure Tracks (s : Scheduler) (r : Request) (response : Response) (s' : Scheduler) :
    Prop where
  /-- A handoff is told of exactly if the current task changes. -/
  told_iff : (∃ change, response.handoff = some change) ↔ s'.currentId ≠ s.currentId
  /-- It leads from the task that was current to another one that is. -/
  leads : ∀ change, response.handoff = some change → s.currentId = .ok change.leaving ∧
    s'.currentId = .ok change.entering ∧ change.leaving ≠ change.entering
  /-- Most requests never change the current task. -/
  kept : r.KeepsTurn s → s'.currentId = s.currentId

theorem Performed.tracks {r : Request} {response : Response} (hs : s.Sound)
    (h : Performed s r response s') : Tracks s r response s' := by
  rcases h.current hs with ⟨silent, hkept⟩ | ⟨change, told, hne, hleaving, hentering, hturn⟩
  · refine ⟨⟨?_, ?_⟩, ?_, fun _ => hkept⟩
    · rintro ⟨change, told⟩
      rw [silent] at told
      nomatch told
    · intro hchanged
      exact absurd hkept hchanged
    · intro change told
      rw [silent] at told
      nomatch told
  · refine ⟨⟨?_, fun _ => ⟨change, told⟩⟩, ?_, fun hkeeps => absurd hkeeps hturn⟩
    · rintro - hsame
      rw [hleaving, hentering] at hsame
      exact hne (Except.ok.inj hsame).symm
    · intro change' told'
      obtain rfl := Option.some.inj (told.symm.trans told')
      exact ⟨hleaving, hentering, hne⟩

/-! ## Histories -/

namespace Scheduler

theorem History.chain {log : List (Request × Response)} (h : History log s) :
    ∃ current, s.currentId = .ok current ∧ Handoff.Chain s.main (handoffs log) current := by
  induction h with
  | created done =>
    obtain ⟨idle, -, rfl⟩ := exists_founded done
    exact ⟨⟨1⟩, rfl, rfl⟩
  | @request log s c r response d before done ih =>
    obtain ⟨current, hcurrent, hchain⟩ := ih
    have performed := (Dispatcher.perform_ends before.sound c r).of_ok done
    rw [performed.main_eq, handoffs_concat]
    rcases performed.current before.sound with
      ⟨silent, hkept⟩ | ⟨change, told, hne, hleaving, hentering, -⟩
    · refine ⟨current, hkept.trans hcurrent, ?_⟩
      rwa [silent, Option.toList_none, List.append_nil]
    · -- the chain ended at the task that leaves now
      obtain rfl : current = change.leaving := Except.ok.inj (hcurrent.symm.trans hleaving)
      refine ⟨change.entering, hentering, ?_⟩
      rw [told]
      exact hchain.concat hne

/-- **Handoffs track the current task exactly.**  The handoffs of a history lead from the main
    task to the current one, each from where the one before it led to.  Whatever is asked next,
    at whatever clock, a handoff is told of if and only if the current task changes, and it
    names the task before and the task after; most requests never change it. -/
theorem handoffs_track_current {log : List (Request × Response)} (h : History log s) :
    (∃ current, s.currentId = .ok current ∧
      Handoff.Chain s.main (handoffs log) current) ∧
    ∀ c r, (Dispatcher.perform ⟨s, c⟩ r).Ends Stop.IsOverflow fun p =>
      Tracks s r p.1 p.2.scheduler := by
  refine ⟨h.chain, fun c r => ?_⟩
  exact (Dispatcher.perform_ends h.sound c r).imp fun p performed => performed.tracks h.sound

/-- The turn passes to a new task and back again. -/
theorem handoffs_track_two_turns : ∃ s, History
    [(.spawn .idle 0 3 .heap, .task ⟨3⟩), (.switch, .change (some ⟨⟨1⟩, ⟨3⟩⟩)),
      (.changeLevel ⟨3⟩ 2, .done), (.switch, .change (some ⟨⟨3⟩, ⟨1⟩⟩))] s ∧
    Handoff.Chain ⟨1⟩ [⟨⟨1⟩, ⟨3⟩⟩, ⟨⟨3⟩, ⟨1⟩⟩] ⟨1⟩ ∧ s.currentId = .ok ⟨1⟩ := by
  have created : (create .standard .heap).outcome = .ok (.ok _) := rfl
  have h := (History.created created).performAll
    (show (Dispatcher.performAll ⟨_, .create .standard⟩
      [.spawn .idle 0 3 .heap, .switch, .changeLevel ⟨3⟩ 2, .switch]).outcome = .ok (_, _)
      from rfl)
  obtain ⟨⟨current, hcurrent, hchain⟩, -⟩ := handoffs_track_current h
  obtain rfl : ⟨1⟩ = current := Except.ok.inj hcurrent
  exact ⟨_, h, hchain, hcurrent⟩

end Scheduler

end PreemptiveKernel
