/-
  The histories of a scheduler.

  A history begins when a scheduler has been set up and goes on with any requests in any
  order.  Each request comes with a clock of its own.  So a history covers one clock, several,
  clocks that are shared with other schedulers, and clocks whose alarms have been tampered
  with; nothing is assumed of them.

  Every history is sound (`History.sound`), because what `create` sets up is (`founded_sound`)
  and a request ends in steps.  A history can always go on (`History.perform_ends`): the next
  request comes to a response and a state, or machine words run out.
-/
import PreemptiveKernel.Proofs.Requests

namespace PreemptiveKernel

open Run

namespace Scheduler

variable {s s' : Scheduler}

/-! ## Setting up -/

/-- A scheduler as it is set up: the main task, and `idle` as the idle task. -/
def founded (config : Config) (idle : Task) : Scheduler where
  tasks := ⟨[(⟨1⟩, { Task.create ⟨1⟩ config.stackBytes with level := .top, running := true }),
    (⟨2⟩, { idle with level := .bottom, running := true })]⟩
  latest := 2
  ready := #v[[⟨2⟩], [], [], [⟨1⟩]]
  currentLevel := .top
  reschedule := false
  main := ⟨1⟩
  idle := ⟨2⟩
  config := config

/-- **Setting up** fails if there is no stack for the idle task, and leads to a scheduler with
    two tasks otherwise. -/
theorem create_ends (config : Config) (allocate : StackAllocator) (cr3 : UInt64) :
    (create config allocate cr3).Ends Stop.IsOverflow fun answer =>
      (∃ error, allocate config.stackBytes = .error error ∧ answer = .error error) ∨
      ∃ idle : Task,
        ((Task.create ⟨2⟩ config.stackBytes).prepare .idle 0 allocate cr3).outcome =
          .ok (.ok (), idle) ∧
        answer = .ok (founded config idle) := by
  unfold create
  -- the two tasks are entered by computation; only the idle task's stack is not known
  refine ends_bind_of_ok (a := _) rfl ?_
  refine ends_bind_of_ok (a := ()) rfl ?_
  refine ends_bind_of_ok (a := _) rfl ?_
  refine ends_bind (prepareTask_ends ?unique _ _ _ _ _) ?_
  case unique =>
    show [(⟨1⟩ : TaskId), ⟨2⟩].Nodup
    decide
  rintro ⟨answer, s⟩ outcome
  cases outcome with
  | unknown missing => nomatch missing
  | refused known refusal =>
    obtain rfl := Option.some.inj known
    exact ends_pure (.inl ⟨_, refusal, rfl⟩)
  | @prepared t idle known prepared =>
    obtain rfl := Option.some.inj known
    refine ends_bind_of_ok (a := ()) rfl ?_
    refine ends_bind_of_ok (a := ()) rfl ?_
    exact ends_pure (.inr ⟨idle, prepared, rfl⟩)

theorem get?_founded (config : Config) (idle : Task) (x : TaskId) :
    (founded config idle).tasks.get? x =
      if x = ⟨1⟩ then
        some { Task.create ⟨1⟩ config.stackBytes with level := .top, running := true }
      else if x = ⟨2⟩ then some { idle with level := .bottom, running := true }
      else none := by
  show TaskTable.find? [_, _] x = _
  unfold TaskTable.find? TaskTable.find? TaskTable.find?
  simp only [eq_comm]

theorem station_founded (config : Config) (idle : Task) (x : TaskId) :
    (founded config idle).station x =
      if x = ⟨1⟩ then some .top else if x = ⟨2⟩ then some .bottom else none := by
  rw [station, get?_founded]
  split
  · rfl
  · split <;> rfl

theorem queue_founded (config : Config) (idle : Task) (l : Level) :
    (founded config idle).queue l =
      if l = .top then [⟨1⟩] else if l = .bottom then [⟨2⟩] else [] := by
  show (#v[[(⟨2⟩ : TaskId)], [], [], [⟨1⟩]])[l] = _
  revert l
  decide

theorem founded_arranged (config : Config) (idle : Task) : (founded config idle).Arranged := by
  intro x l
  rw [station_founded, queue_founded]
  by_cases h1 : x = ⟨1⟩
  · rw [if_pos h1, h1]
    revert l
    decide
  by_cases h2 : x = ⟨2⟩
  · rw [if_neg h1, if_pos h2, h2]
    revert l
    decide
  · -- nobody else stands anywhere
    have hnone : ¬ (none : Option Level) = some l := nofun
    rw [if_neg h1, if_neg h2, if_neg hnone, List.count_eq_zero]
    split
    · simpa using h1
    · split
      · simpa using h2
      · exact List.not_mem_nil

theorem founded_sound (config : Config) {idle : Task} (hid : idle.id = ⟨2⟩) :
    (founded config idle).Sound where
  keys := rfl
  named := by
    intro x t ht
    rw [get?_founded] at ht
    split at ht
    · rename_i hx
      rw [hx, ← Option.some.inj ht]
      rfl
    · split at ht
      · rename_i hx
        rw [hx, ← Option.some.inj ht]
        exact hid
      · nomatch ht
  arranged := founded_arranged config idle
  idle_ready := rfl
  occupied := nofun
  prompt := by
    intro l hl
    exact absurd hl (Fin.not_lt.mpr (Fin.le_last l))

end Scheduler

/-! ## Histories -/

/-- **The histories of a scheduler**: the requests and the responses to them, and the state
    that they lead to. -/
inductive Scheduler.History : List (Request × Response) → Scheduler → Prop
  /-- The scheduler has been set up. -/
  | created {config : Config} {allocate : StackAllocator} {cr3 : UInt64} {s : Scheduler}
      (done : (create config allocate cr3).outcome = .ok (.ok s)) : History [] s
  /-- A request is made, with a clock `c` at hand. -/
  | request {log : List (Request × Response)} {s : Scheduler} {c : Clock} {r : Request}
      {response : Response} {d : Dispatcher} (before : History log s)
      (done : (Dispatcher.perform ⟨s, c⟩ r).outcome = .ok (response, d)) :
      History (log ++ [(r, response)]) d.scheduler

namespace Scheduler.History

variable {log : List (Request × Response)} {s : Scheduler}

/-- A scheduler that has just been set up is `founded` on a task that has been prepared to
    idle. -/
theorem exists_prepared {config : Config} {allocate : StackAllocator} {cr3 : UInt64}
    (done : (create config allocate cr3).outcome = .ok (.ok s)) :
    ∃ idle : Task, s = founded config idle ∧
      ((Task.create ⟨2⟩ config.stackBytes).prepare .idle 0 allocate cr3).outcome =
        .ok (.ok (), idle) := by
  rcases (create_ends config allocate cr3).of_ok done with
    ⟨error, -, hrefused⟩ | ⟨idle, prepared, hs⟩
  · nomatch hrefused
  · exact ⟨idle, Except.ok.inj hs, prepared⟩

theorem exists_founded {config : Config} {allocate : StackAllocator} {cr3 : UInt64}
    (done : (create config allocate cr3).outcome = .ok (.ok s)) :
    ∃ idle : Task, idle.id = ⟨2⟩ ∧ s = founded config idle := by
  obtain ⟨idle, hs, prepared⟩ := exists_prepared done
  refine ⟨idle, ?_, hs⟩
  rw [Task.eq_of_prepare prepared]
  rfl

/-- **Every history is sound.** -/
theorem sound (h : History log s) : s.Sound := by
  induction h with
  | created done =>
    obtain ⟨idle, hid, rfl⟩ := exists_founded done
    exact founded_sound _ hid
  | request before done ih => exact ((Dispatcher.perform_ends ih _ _).of_ok done).sound ih

/-- **A history goes on** whatever is asked next, unless machine words run out. -/
theorem perform_ends (h : History log s) (c : Clock) (r : Request) :
    (Dispatcher.perform ⟨s, c⟩ r).Ends Stop.IsOverflow fun p =>
      Performed s r p.1 p.2.scheduler ∧ History (log ++ [(r, p.1)]) p.2.scheduler := by
  have hends := Dispatcher.perform_ends h.sound c r
  unfold Ends at hends ⊢
  cases done : (Dispatcher.perform ⟨s, c⟩ r).outcome with
  | ok p =>
    rw [done] at hends
    exact ⟨hends, .request h done⟩
  | error stop =>
    rw [done] at hends
    exact hends

/-- What a dispatcher does in a run is a history of its scheduler. -/
theorem performAll {requests : List Request} {responses : List Response} {c : Clock}
    {d : Dispatcher} (h : History log s)
    (done : (Dispatcher.performAll ⟨s, c⟩ requests).outcome = .ok (responses, d)) :
    History (log ++ requests.zip responses) d.scheduler := by
  induction requests generalizing log s c responses with
  | nil =>
    obtain ⟨rfl, rfl⟩ := Prod.mk.inj (Except.ok.inj done)
    rw [List.zip_nil_left, List.append_nil]
    exact h
  | cons r rest ih =>
    -- the first request extends the history, the others go on from its state and its clock
    obtain ⟨⟨response, d₁⟩, hfirst, hrest⟩ := outcome_bind_eq_ok_iff.mp done
    rw [outcome_map] at hrest
    cases hrun : (d₁.performAll rest).outcome with
    | error stop =>
      rw [hrun] at hrest
      nomatch hrest
    | ok p =>
      rw [hrun] at hrest
      obtain ⟨rfl, rfl⟩ := Prod.mk.inj (Except.ok.inj hrest)
      have hlater := ih (.request h hfirst) hrun
      rwa [List.append_assoc, List.singleton_append] at hlater

end Scheduler.History

end PreemptiveKernel
