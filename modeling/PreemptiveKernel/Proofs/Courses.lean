/-
  Courses: histories told with the states in between.

  An episode is one request with the dispatcher before it and the dispatcher after it, and the
  evidence that the one leads to the other.  A course is a row of episodes that hang together
  in one part of the dispatcher, given by a projection: in the scheduler, in the clock, or in
  both.  The other part may be any other from one episode to the next.  So a course of a
  scheduler covers several clocks, and a course of a clock several schedulers, just as they are
  covered by the functions that take both.

  What is counted along a run (messages that were sent, turns that ended, timeouts that fired)
  is counted over the episodes of a course.
-/
import PreemptiveKernel.Proofs.Histories

namespace PreemptiveKernel

open Run Scheduler

/-- One request: what it was made of, what came of it, and that it did. -/
structure Episode where
  before : Dispatcher
  request : Request
  response : Response
  after : Dispatcher
  done : (before.perform request).outcome = .ok (response, after)

namespace Episode

/-- What a history keeps of an episode. -/
def exchange (e : Episode) : Request × Response :=
  (e.request, e.response)

theorem enacts (e : Episode) (hs : e.before.scheduler.Sound) :
    Enacts e.before e.request e.response e.after.scheduler :=
  (Dispatcher.perform_enacts hs e.request).of_ok e.done

theorem performed (e : Episode) (hs : e.before.scheduler.Sound) :
    Performed e.before.scheduler e.request e.response e.after.scheduler := by
  obtain ⟨acts, steps, enacted⟩ := e.enacts hs
  exact enacted.performed steps

/-- No request changes which task is the main task and which one idles. -/
theorem frame (e : Episode) (hs : e.before.scheduler.Sound) :
    e.after.scheduler.main = e.before.scheduler.main ∧
    e.after.scheduler.idle = e.before.scheduler.idle := by
  obtain ⟨acts, steps, -⟩ := e.enacts hs
  exact steps.frame

/-- A task that exists goes on existing. -/
theorem known_kept (e : Episode) (hs : e.before.scheduler.Sound) {id : TaskId}
    (known : (e.before.scheduler.tasks.get? id).isSome) :
    (e.after.scheduler.tasks.get? id).isSome := by
  obtain ⟨acts, steps, -⟩ := e.enacts hs
  exact steps.known_kept known

end Episode

/-- **The courses** of the part that `part` names, from `start`. -/
inductive Course {α : Type} (part : Dispatcher → α) (start : α) : List Episode → α → Prop
  | nil : Course part start [] start
  | snoc {es : List Episode} {e : Episode} (earlier : Course part start es (part e.before)) :
      Course part start (es ++ [e]) (part e.after)

namespace Course

variable {α β : Type} {part : Dispatcher → α} {a b : α} {es : List Episode}

/-- A course of a part is one of every part of it. -/
theorem map (f : α → β) (h : Course part a es b) : Course (f ∘ part) (f a) es (f b) := by
  induction h with
  | nil => exact .nil
  | snoc earlier ih => exact ih.snoc

/-- What comes before an episode of a course is a course that leads to it, and what comes
    after it is one that goes on from it. -/
theorem split {pre post : List Episode} {e : Episode} (h : Course part a (pre ++ e :: post) b) :
    Course part a pre (part e.before) ∧ Course part (part e.after) post b := by
  generalize hes : pre ++ e :: post = es at h
  induction h generalizing post with
  | nil =>
    have := congrArg List.length hes
    simp at this
  | @snoc earlier last hearlier ih =>
    rcases List.eq_nil_or_concat post with rfl | ⟨post', x, rfl⟩
    · -- the episode is the last one
      obtain ⟨rfl, hlast⟩ := List.append_inj' hes rfl
      obtain rfl := List.singleton_inj.mp hlast
      exact ⟨hearlier, .nil⟩
    · have hsplit : (pre ++ e :: post') ++ [x] = earlier ++ [last] := by
        rw [← hes, List.concat_eq_append, List.append_assoc, List.cons_append]
      obtain ⟨hpre, hlast⟩ := List.append_inj' hsplit rfl
      obtain rfl := List.singleton_inj.mp hlast
      obtain ⟨before, after⟩ := ih hpre
      rw [List.concat_eq_append]
      exact ⟨before, after.snoc⟩

/-- A course comes by all that is before one of its episodes. -/
theorem before_of_mem {e : Episode} (h : Course part a es b) (he : e ∈ es) :
    ∃ pre, Course part a pre (part e.before) := by
  obtain ⟨pre, post, rfl⟩ := List.append_of_mem he
  exact ⟨pre, h.split.1⟩

theorem append {ys : List Episode} {c : α} (h : Course part a es b)
    (later : Course part b ys c) : Course part a (es ++ ys) c := by
  induction later with
  | nil =>
    rw [List.append_nil]
    exact h
  | snoc earlier ih =>
    rw [← List.append_assoc]
    exact ih.snoc

/-- A course may begin an episode earlier. -/
theorem cons {e : Episode} (h : Course part (part e.after) es b) :
    Course part (part e.before) (e :: es) b :=
  append (show Course part _ [e] _ from snoc nil) h

/-- A course can be cut in two anywhere. -/
theorem cut {xs ys : List Episode} (h : Course part a (xs ++ ys) b) :
    ∃ mid, Course part a xs mid ∧ Course part mid ys b := by
  cases ys with
  | nil =>
    rw [List.append_nil] at h
    exact ⟨b, h, .nil⟩
  | cons e later => exact ⟨_, h.split.1, h.split.2.cons⟩

/-- The course of a scheduler goes on with its history. -/
theorem history {log : List (Request × Response)} {s s' : Scheduler}
    (h : Course Dispatcher.scheduler s es s') (before : History log s) :
    History (log ++ es.map Episode.exchange) s' := by
  induction h with
  | nil =>
    rw [List.map_nil, List.append_nil]
    exact before
  | @snoc es e earlier ih =>
    rw [List.map_append, ← List.append_assoc]
    exact .request ih e.done

theorem sound {s s' : Scheduler} (h : Course Dispatcher.scheduler s es s') (hs : s.Sound) :
    s'.Sound := by
  induction h with
  | nil => exact hs
  | @snoc es e earlier ih => exact (e.performed ih).sound ih

theorem frame {s s' : Scheduler} (h : Course Dispatcher.scheduler s es s') (hs : s.Sound) :
    s'.main = s.main ∧ s'.idle = s.idle := by
  induction h with
  | nil => exact ⟨rfl, rfl⟩
  | @snoc es e earlier ih =>
    obtain ⟨hmain, hidle⟩ := e.frame (earlier.sound hs)
    exact ⟨hmain.trans ih.1, hidle.trans ih.2⟩

theorem known_kept {s s' : Scheduler} (h : Course Dispatcher.scheduler s es s') (hs : s.Sound)
    {id : TaskId} (known : (s.tasks.get? id).isSome) : (s'.tasks.get? id).isSome := by
  induction h with
  | nil => exact known
  | @snoc es e earlier ih => exact e.known_kept (earlier.sound hs) ih

end Course

namespace Dispatcher

/-- The episodes that come of requests, up to the first one that stops. -/
def episodes (d : Dispatcher) : List Request → List Episode
  | [] => []
  | r :: rest =>
    match h : (d.perform r).outcome with
    | .ok (response, after) => ⟨d, r, response, after, h⟩ :: after.episodes rest
    | .error _ => []

/-- **What a dispatcher does in a run is a course** of it. -/
theorem course_episodes {d d' : Dispatcher} {requests : List Request}
    {responses : List Response} (h : (d.performAll requests).outcome = .ok (responses, d')) :
    Course id d (d.episodes requests) d' := by
  induction requests generalizing d responses with
  | nil =>
    obtain ⟨-, rfl⟩ := Prod.mk.inj (Except.ok.inj h)
    exact .nil
  | cons r rest ih =>
    obtain ⟨⟨response, d₁⟩, hfirst, hrest⟩ := outcome_bind_eq_ok_iff.mp h
    rw [outcome_map] at hrest
    rcases hrun : (d₁.performAll rest).outcome with stop | ⟨later, d₂⟩
    · rw [hrun] at hrest
      nomatch hrest
    · rw [hrun] at hrest
      obtain ⟨-, rfl⟩ := Prod.mk.inj (Except.ok.inj hrest)
      unfold episodes
      split
      · rename_i response' after done
        rw [hfirst] at done
        obtain ⟨-, rfl⟩ := Prod.mk.inj (Except.ok.inj done)
        have later : Course id (id d₁) (d₁.episodes rest) d₂ := ih hrun
        exact later.cons (e := ⟨d, r, response', d₁, _⟩)
      · rename_i stop stopped
        rw [hfirst] at stopped
        nomatch stopped

/-- The requests of the episodes are those that were made. -/
theorem request_of_mem_episodes {d : Dispatcher} {requests : List Request} {e : Episode}
    (h : e ∈ d.episodes requests) : e.request ∈ requests := by
  induction requests generalizing d with
  | nil => nomatch h
  | cons r rest ih =>
    unfold episodes at h
    split at h
    · rcases List.mem_cons.mp h with rfl | hlater
      · exact List.mem_cons_self
      · exact List.mem_cons_of_mem _ (ih hlater)
    · nomatch h

end Dispatcher

namespace Scheduler

/-- A history goes on with what a dispatcher does, and that is a course of the dispatcher. -/
theorem History.runs_on {log : List (Request × Response)} {s : Scheduler} {c : Clock}
    {d : Dispatcher} {requests : List Request} {responses : List Response} (h : History log s)
    (done : (Dispatcher.performAll ⟨s, c⟩ requests).outcome = .ok (responses, d)) :
    History (log ++ requests.zip responses) d.scheduler ∧
    Course id ⟨s, c⟩ ((Dispatcher.mk s c).episodes requests) d :=
  ⟨h.performAll done, Dispatcher.course_episodes done⟩

/-- A history goes on with what a dispatcher does, and that is a course. -/
theorem History.goes_on {log : List (Request × Response)} {s : Scheduler} {c : Clock}
    {d : Dispatcher} {requests : List Request} {responses : List Response} (h : History log s)
    (done : (Dispatcher.performAll ⟨s, c⟩ requests).outcome = .ok (responses, d)) :
    History (log ++ requests.zip responses) d.scheduler ∧
    Course Dispatcher.scheduler s ((Dispatcher.mk s c).episodes requests) d.scheduler :=
  ⟨h.performAll done, (h.runs_on done).2.map Dispatcher.scheduler⟩

/-- **The stories of a scheduler**: its courses from the moment in which it was set up. -/
def Story (es : List Episode) (s : Scheduler) : Prop :=
  ∃ config allocate cr3 first, (create config allocate cr3).outcome = .ok (.ok first) ∧
    Course Dispatcher.scheduler first es s

namespace Story

variable {es : List Episode} {s : Scheduler}

theorem created {config : Config} {allocate : StackAllocator} {cr3 : UInt64}
    (done : (create config allocate cr3).outcome = .ok (.ok s)) : Story [] s :=
  ⟨config, allocate, cr3, s, done, .nil⟩

/-- A story goes on with what a dispatcher does, whatever its clock. -/
theorem performAll {c : Clock} {d : Dispatcher} {requests : List Request}
    {responses : List Response} (h : Story es s)
    (done : (Dispatcher.performAll ⟨s, c⟩ requests).outcome = .ok (responses, d)) :
    Story (es ++ (Dispatcher.mk s c).episodes requests) d.scheduler := by
  obtain ⟨config, allocate, cr3, first, hcreated, course⟩ := h
  have later := (Dispatcher.course_episodes done).map Dispatcher.scheduler
  exact ⟨config, allocate, cr3, first, hcreated, course.append later⟩

theorem sound (h : Story es s) : s.Sound := by
  obtain ⟨config, allocate, cr3, first, hcreated, course⟩ := h
  exact course.sound (History.created hcreated).sound

theorem snoc {e : Episode} (h : Story es e.before.scheduler) :
    Story (es ++ [e]) e.after.scheduler := by
  obtain ⟨config, allocate, cr3, first, hcreated, course⟩ := h
  exact ⟨config, allocate, cr3, first, hcreated, course.snoc⟩

/-- What comes before an episode of a story is a story, with the same main task and the same
    idle task. -/
theorem reaches {pre post : List Episode} {e : Episode} (h : Story (pre ++ e :: post) s) :
    Story pre e.before.scheduler ∧
    e.before.scheduler.main = s.main ∧ e.before.scheduler.idle = s.idle := by
  obtain ⟨config, allocate, cr3, first, hcreated, course⟩ := h
  have hfirst := (History.created hcreated).sound
  obtain ⟨hmain, hidle⟩ := course.frame hfirst
  have before := course.split.1
  obtain ⟨hmain', hidle'⟩ := before.frame hfirst
  exact ⟨⟨config, allocate, cr3, first, hcreated, before⟩, hmain'.trans hmain.symm,
    hidle'.trans hidle.symm⟩

/-- A story leads to where its history leads. -/
theorem history (h : Story es s) : History (es.map Episode.exchange) s := by
  obtain ⟨config, allocate, cr3, first, hcreated, course⟩ := h
  exact course.history (.created hcreated)

end Story

end Scheduler

end PreemptiveKernel
