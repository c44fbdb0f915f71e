/-
  Every task keeps its identity.

  There are two ways to create a task, and they take the next number at different moments: the one
  at once, the other when the task has been prepared and nothing can be refused any more.  A number
  that one of them took and did not use, or used and did not take, would come back, and the task
  that has it would be overwritten.

  The crux is one law for both (`Enacted.enrollment`): a request creates nobody and leaves the last
  number as it is, or it creates the task with the next one.  So the tasks that a run creates have
  the numbers in order (`enrolled_of_course`), whatever has been refused in between.  Since the
  numbers that have been given out are the keys of the table, the next one is free, and who was
  there does not notice the newcomer (`Welcomes`): the records are the same, and in the queues it
  stands behind all others.
-/
import PreemptiveKernel.Proofs.Mail
import PreemptiveKernel.Proofs.Provisions

namespace PreemptiveKernel

open Run

namespace Scheduler

variable {s s₁ s' : Scheduler} {t : Task}

/-! ## Newcomers -/

/-- **Nobody who was there notices** what leads from `s` to `s'`. -/
structure Welcomes (s s' : Scheduler) : Prop where
  /-- The records of the tasks that there were are the same. -/
  records : ∀ id t, s.tasks.get? id = some t → s'.tasks.get? id = some t
  /-- So are the queues, except that newcomers may stand behind. -/
  queues : ∀ l, ∃ joined, s'.queue l = s.queue l ++ joined ∧
    ∀ id ∈ joined, s.tasks.get? id = none
  /-- The same task is current. -/
  current : s'.currentId = s.currentId

theorem Welcomes.refl (s : Scheduler) : s.Welcomes s :=
  ⟨fun _ _ known => known, fun _ => ⟨[], (List.append_nil _).symm, nofun⟩, rfl⟩

/-- A task that has just been entered is in the table under the next number. -/
theorem Step.enrolled (h : Step s (.enroll t) s') :
    t.id = ⟨s.latest + 1⟩ ∧ s.tasks.get? t.id = none ∧ s'.latest = s.latest + 1 ∧
    s'.tasks.get? t.id = some t := by
  have known : s'.tasks.get? t.id = some t := (h.get?_eq t.id).trans (if_pos rfl)
  cases h with
  | enroll next fresh asleep empty => exact ⟨next, fresh, rfl, known⟩

theorem Step.welcomes_of_enroll (hs : s.Sound) (h : Step s (.enroll t) s') : s.Welcomes s' where
  records id u known := by
    have other : id ≠ t.id := by
      rintro rfl
      rw [h.enrolled.2.1] at known
      nomatch known
    exact ((h.get?_eq id).trans (if_neg other)).trans known
  queues l := by
    cases h with
    | enroll => exact ⟨[], (List.append_nil _).symm, nofun⟩
  current := h.current_kept hs rfl

/-- A newcomer may wake up at once. -/
theorem Welcomes.woken {id : TaskId} {l : Level} {mail : List Message} (h : s.Welcomes s₁)
    (hs : s₁.Sound) (fresh : s.tasks.get? id = none) (step : Step s₁ (.wake id l mail) s') :
    s.Welcomes s' where
  records x u known := by
    have other : x ≠ id := by
      rintro rfl
      rw [fresh] at known
      nomatch known
    exact ((step.get?_eq x).trans (if_neg other)).trans (h.records x u known)
  queues k := by
    obtain ⟨joined, hqueue, unknown⟩ := h.queues k
    cases step with
    | wake known asleep change =>
      rw [queue_woken, hqueue]
      split
      · refine ⟨joined ++ [id], List.append_assoc .., fun x hx => ?_⟩
        rcases List.mem_append.mp hx with hin | hin
        · exact unknown x hin
        · obtain rfl := List.mem_singleton.mp hin
          exact fresh
      · exact ⟨joined, rfl, unknown⟩
  current := (step.current_kept hs rfl).trans h.current

end Scheduler

open Scheduler

/-! ## Requests -/

/-- The task that the request has created. -/
def Request.enrolled (r : Request) (response : Response) : Option TaskId :=
  match r, response with
  | .newTask, .task id => some id
  | .spawn .., .task id => some id
  | _, _ => none

theorem Request.enrolled_of_not_enrolls {r : Request} (h : r.enrolls = false)
    (response : Response) : r.enrolled response = none := by
  cases r with
  | newTask | spawn => nomatch h
  | _ => rfl

/-- **What a request that leads from `s` to `s'` does to the numbers.** -/
inductive Enrollment (s : Scheduler) (r : Request) (response : Response) (s' : Scheduler) : Prop
  /-- It creates nobody; if it was to create a task, it has been refused and has done nothing. -/
  | nobody (told : r.enrolled response = none) (latest : s'.latest = s.latest)
      (refused : r.enrolls = true → s' = s)
  /-- It creates the task with the next number, which was free. -/
  | next {id : TaskId} (told : r.enrolled response = some id) (number : id = ⟨s.latest + 1⟩)
      (fresh : s.tasks.get? id = none) (latest : s'.latest = s.latest + 1)
      (known : (s'.tasks.get? id).isSome) (welcome : s.Welcomes s')

/-- **The law of one request** for numbers. -/
theorem Enacted.enrollment {d : Dispatcher} {r : Request} {response : Response}
    {acts : List Act} {s' : Scheduler} (hs : d.scheduler.Sound)
    (steps : Steps d.scheduler acts s') (h : Enacted d r response acts) :
    Enrollment d.scheduler r response s' := by
  cases hr : r.enrolls with
  | false =>
    have hcount := h.enrolls
    rw [hr, Bool.toNat_false, Nat.le_zero] at hcount
    refine .nobody (Request.enrolled_of_not_enrolls hr response) ?_ fun h => nomatch hr.symm.trans h
    rw [steps.latest_eq, hcount, Nat.add_zero]
  | true =>
    cases h with
    | enrolled =>
      have step := steps.of_single
      obtain ⟨number, fresh, latest, known⟩ := step.enrolled
      exact .next rfl number fresh latest (Option.isSome_iff_exists.mpr ⟨_, known⟩)
        (step.welcomes_of_enroll hs)
    | @spawned t l entry data n allocate level done =>
      cases steps with
      | cons first rest =>
        obtain ⟨number, fresh, latest, known⟩ := first.enrolled
        have second := rest.of_single
        have kept := second.known_kept (Option.isSome_iff_exists.mpr ⟨t, known⟩)
        refine .next rfl number fresh ?_ kept
          ((first.welcomes_of_enroll hs).woken (first.sound hs) fresh second)
        exact rest.latest_eq.trans latest
    | refused asked =>
      cases steps with
      | nil =>
        refine .nobody ?_ rfl fun _ => rfl
        cases r with
        | _ => rfl
    | moved asked act =>
      rcases asked with rfl | rfl
      · nomatch hr
      · nomatch hr
    | unmoved asked =>
      rcases asked with ⟨n, rfl⟩ | ⟨level, rfl⟩
      · nomatch hr
      · nomatch hr
    | _ => nomatch hr

namespace Episode

/-- The task that has been created in the episode. -/
def enrolled (e : Episode) : Option TaskId :=
  e.request.enrolled e.response

theorem enrollment (e : Episode) (hs : e.before.scheduler.Sound) :
    Enrollment e.before.scheduler e.request e.response e.after.scheduler := by
  obtain ⟨acts, steps, enacted⟩ := e.enacts hs
  exact enacted.enrollment hs steps

/-- Creating a task, or trying to, disturbs nobody. -/
theorem welcomes_of_enrolls (e : Episode) (hs : e.before.scheduler.Sound)
    (asked : e.request.enrolls = true) : e.before.scheduler.Welcomes e.after.scheduler := by
  cases e.enrollment hs with
  | nobody told latest refused =>
    rw [refused asked]
    exact .refl _
  | next told number fresh latest known welcome => exact welcome

end Episode

/-! ## Courses -/

/-- The first `n` identifiers. -/
def TaskId.firsts (n : Nat) : List TaskId :=
  (List.range' 1 n).map TaskId.mk

theorem TaskId.firsts_succ (n : Nat) : firsts (n + 1) = firsts n ++ [⟨n + 1⟩] := by
  unfold firsts
  rw [List.range'_1_concat, List.map_append, Nat.add_comm 1 n]
  rfl

/-- **The tasks that a course creates have the next numbers in order.** -/
theorem enrolled_of_course {s s' : Scheduler} {es : List Episode} (hs : s.Sound)
    (course : Course Dispatcher.scheduler s es s') :
    TaskId.firsts s.latest ++ es.filterMap Episode.enrolled = TaskId.firsts s'.latest := by
  induction course with
  | nil => exact List.append_nil _
  | @snoc es e earlier ih =>
    rw [List.filterMap_append, ← List.append_assoc, ih]
    cases e.enrollment (earlier.sound hs) with
    | nobody told latest refused =>
      have hnone : e.enrolled = none := told
      rw [List.filterMap_cons_none hnone, List.filterMap_nil, List.append_nil, latest]
    | next told number fresh latest known welcome =>
      have hsome : e.enrolled = some _ := told
      rw [List.filterMap_cons_some hsome, List.filterMap_nil, latest, TaskId.firsts_succ, number]

/-! ## Every story -/

/-- **Who exists** after the episodes `es`, which lead to `s` from its creation. -/
structure Scheduler.Identified (es : List Episode) (s : Scheduler) : Prop where
  /-- The keys of the table are the numbers from one to the last one given out. -/
  keys : s.tasks.keys = TaskId.firsts s.latest
  /-- Every task is kept under its own identifier. -/
  named : ∀ id t, s.tasks.get? id = some t → t.id = id
  /-- The first number is that of the main task, the second that of the idle task. -/
  founders : s.main = ⟨1⟩ ∧ s.idle = ⟨2⟩
  /-- Then come the tasks that have been created, in the order of their creation. -/
  numbered : [s.main, s.idle] ++ es.filterMap Episode.enrolled = TaskId.firsts s.latest
  /-- A task that exists at some time exists ever after. -/
  stays : ∀ pre e post, es = pre ++ e :: post → ∀ id,
    (e.before.scheduler.tasks.get? id).isSome →
      (e.after.scheduler.tasks.get? id).isSome ∧ (s.tasks.get? id).isSome
  /-- A task that is created has not existed before, and exists then. -/
  joins : ∀ e ∈ es, ∀ id, e.enrolled = some id →
    e.before.scheduler.tasks.get? id = none ∧ (e.after.scheduler.tasks.get? id).isSome
  /-- No creation, whatever comes of it, changes the record of another task or its place. -/
  welcomed : ∀ e ∈ es, e.request.enrolls = true →
    e.before.scheduler.Welcomes e.after.scheduler
  /-- A creation that is refused changes nothing. -/
  refused : ∀ e ∈ es, e.request.enrolls = true → e.enrolled = none →
    e.after.scheduler = e.before.scheduler

/-- **Every task keeps its identity.**  Take any story of a scheduler, that is, any requests in any
    order from its creation on, with any allocators and any clocks: numbers are given out once and
    in order, and what has one keeps it. -/
theorem Scheduler.tasks_keep_identity {es : List Episode} {s : Scheduler} (story : Story es s) :
    Identified es s := by
  have hs := story.sound
  obtain ⟨config, allocate, cr3, first, created, course⟩ := story
  obtain ⟨idle, hid, rfl⟩ := History.exists_founded created
  have hfirst := founded_sound config hid
  obtain ⟨hmain, hidle⟩ := course.frame hfirst
  have hbefore : ∀ e ∈ es, e.before.scheduler.Sound := by
    intro e he
    obtain ⟨pre, before⟩ := course.before_of_mem he
    exact before.sound hfirst
  refine ⟨hs.keys, fun _ _ => hs.named, ⟨hmain, hidle⟩, ?numbered, ?stays, ?joins, ?welcomed,
    ?refused⟩
  case numbered =>
    rw [hmain, hidle]
    exact enrolled_of_course hfirst course
  case stays =>
    rintro pre e post rfl id known
    obtain ⟨earlier, later⟩ := course.split
    have kept := e.known_kept (earlier.sound hfirst) known
    exact ⟨kept, later.known_kept ((e.performed (earlier.sound hfirst)).sound
      (earlier.sound hfirst)) kept⟩
  case joins =>
    intro e he id told
    cases e.enrollment (hbefore e he) with
    | nobody told' latest refused => nomatch told.symm.trans told'
    | next told' number fresh latest known welcome =>
      obtain rfl := Option.some.inj (told.symm.trans told')
      exact ⟨fresh, known⟩
  case welcomed => exact fun e he => e.welcomes_of_enrolls (hbefore e he)
  case refused =>
    intro e he asked told
    cases e.enrollment (hbefore e he) with
    | nobody told' latest refused => exact refused asked
    | next told' number fresh latest known welcome => nomatch told.symm.trans told'

/-- A message waits for the main task.  Then a task is to be spawned at a level that there is not,
    one is created, one is to be spawned without memory, and one is spawned: the two that come of
    it are the third and the fourth, and the main task is as it was before them. -/
theorem Scheduler.tasks_keep_identity_after_refusals : ∃ es s, Story es s ∧
    es.map Episode.response = [.done, .refused (.invalidLevel 4), .task ⟨3⟩,
      .refused (.allocationFailure 32768), .task ⟨4⟩] ∧
    es.filterMap Episode.enrolled = [⟨3⟩, ⟨4⟩] ∧
    s.tasks.keys = [⟨1⟩, ⟨2⟩, ⟨3⟩, ⟨4⟩] ∧
    s.mail ⟨1⟩ = [.layerFinish 5] := by
  have created : (create .standard .heap).outcome = .ok (.ok _) := rfl
  have story := (Story.created created).performAll (c := .create .standard)
    (show (Dispatcher.performAll ⟨_, .create .standard⟩
      [.send ⟨1⟩ (.layerFinish 5), .spawn .terminal 0 4 .heap, .newTask,
        .spawn .terminal 0 2 .exhausted, .spawn .terminal 0 2 .heap]).outcome =
      .ok (_, _) from rfl)
  have law := tasks_keep_identity story
  exact ⟨_, _, story, rfl, rfl, law.keys, rfl⟩

end PreemptiveKernel
