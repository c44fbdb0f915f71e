/-
  Timeouts fire in the order of their time, and at the same time in the order in which they were
  added.

  The alarms stand in that order, and a tick takes a first part of them, so what fires at one tick
  is in order.  That it is so over many ticks does not follow from the ticks being in order: a
  timeout that was due earlier may have been left behind the mark when a quantum ended.  The crux
  is that being left is no matter of chance.  As long as a timeout is kept, it stands before
  everything that it comes before, so nothing of that is served while it is left
  (`fires_of_before`).  Whenever the second of two timeouts fires, the first one has fired at an
  earlier tick or fires at the same one, before it (`fired_before`).

  The inbox of the receiver holds the messages in the same order, because every tick puts them at
  the end of it.
-/
import PreemptiveKernel.Proofs.Timeouts

namespace PreemptiveKernel

open Run Scheduler Clock

/-! ## Pairs in a list -/

section Pairs

variable {α : Type} {a b : α} {l : List α}

/-- Of two members of a list, the first comes first if the second is not found up to it. -/
theorem pair_sublist (ha : a ∈ l) (hb : b ∈ l) (hne : b ≠ a)
    (h : ∀ pre post, l = pre ++ a :: post → b ∉ pre) : [a, b].Sublist l := by
  obtain ⟨pre, post, rfl⟩ := List.append_of_mem ha
  have hpost : b ∈ post := by
    rcases List.mem_append.mp hb with hin | hin
    · exact absurd hin (h pre post rfl)
    · exact (List.mem_cons.mp hin).resolve_left hne
  exact ((List.singleton_sublist.mpr hpost).cons_cons a).trans (List.sublist_append_right _ _)

/-- What is part of a list member by member is part of it. -/
theorem flatMap_sublist {β : Type} {f g : α → List β} (h : ∀ x ∈ l, (f x).Sublist (g x)) :
    (l.flatMap f).Sublist (l.flatMap g) := by
  induction l with
  | nil => exact List.Sublist.refl _
  | cons x rest ih =>
    rw [List.flatMap_cons, List.flatMap_cons]
    have hrest := ih fun y hy => h y (List.mem_cons_of_mem _ hy)
    exact (h x List.mem_cons_self).append hrest

end Pairs

/-! ## One tick -/

namespace Clock

variable {now : Nat} {alarms : List Alarm} {x y : Timeout}

/-- What fires has been kept. -/
theorem alarm_of_fired (h : x ∈ (serve now alarms).fired) : x.alarm ∈ alarms := by
  obtain ⟨mark, -, -, hsplit⟩ := serve_split now alarms
  rw [hsplit]
  exact List.mem_append_left _ (List.mem_map_of_mem h)

/-- **What fires at one tick is in order.** -/
theorem fired_sorted (sorted : alarms.Pairwise Alarm.Before) :
    ((serve now alarms).fired.map Timeout.alarm).Pairwise Alarm.Before := by
  obtain ⟨mark, -, -, hsplit⟩ := serve_split now alarms
  rw [hsplit] at sorted
  exact (List.pairwise_append.mp sorted).1

/-- **What stands before a timeout that fires, fires as well.** -/
theorem fires_of_before (sorted : alarms.Pairwise Alarm.Before) (hx : x.alarm ∈ alarms)
    (hy : y ∈ (serve now alarms).fired) (h : x.alarm.Before y.alarm) :
    x ∈ (serve now alarms).fired := by
  obtain ⟨mark, -, -, hsplit⟩ := serve_split now alarms
  rw [hsplit] at sorted hx
  obtain ⟨-, -, hacross⟩ := List.pairwise_append.mp sorted
  rcases List.mem_append.mp hx with hfired | hlater
  · obtain ⟨t, ht, htx⟩ := List.mem_map.mp hfired
    exact Timeout.alarm_inj htx ▸ ht
  · -- behind what fires there is nothing that stands before it
    have hback : y.alarm.Before x.alarm := hacross _ (List.mem_map_of_mem hy) _ hlater
    exact absurd (h.trans hback) (Alarm.Before.irrefl _)

/-- In a list in order, what stands before comes first. -/
theorem sublist_of_before {xs : List Timeout}
    (sorted : (xs.map Timeout.alarm).Pairwise Alarm.Before) (hx : x ∈ xs) (hy : y ∈ xs)
    (h : x.alarm.Before y.alarm) : [x, y].Sublist xs := by
  refine pair_sublist hx hy ?_ fun pre post hxs hpre => ?_
  · rintro rfl
    exact Alarm.Before.irrefl _ h
  · rw [hxs, List.map_append, List.map_cons] at sorted
    obtain ⟨-, -, hacross⟩ := List.pairwise_append.mp sorted
    have hback := hacross _ (List.mem_map_of_mem hpre) _ List.mem_cons_self
    exact Alarm.Before.irrefl _ (h.trans hback)

end Clock

namespace Episode

variable {e : Episode} {x y : Timeout}

/-- What fires in an episode is what the tick finds due. -/
theorem fired_eq (ticks : e.request.ticks = true) : e.fired = e.before.clock.fires :=
  if_pos ticks

theorem fired_eq_nil (h : e.request.ticks = false) : e.fired = [] := by
  unfold fired Dispatcher.fired
  rw [h]
  rfl

theorem kept_of_fired (h : x ∈ e.fired) : x.alarm ∈ e.before.clock.alarms := by
  rw [fired_eq (ticks_of_fired h)] at h
  exact alarm_of_fired h

theorem sorted_fired (hc : e.before.clock.Orderly) :
    (e.fired.map Timeout.alarm).Pairwise Alarm.Before := by
  cases hticks : e.request.ticks with
  | true =>
    rw [fired_eq hticks]
    exact fired_sorted hc.sorted
  | false =>
    rw [fired_eq_nil hticks]
    exact List.Pairwise.nil

theorem nodup_fired (hc : e.before.clock.Orderly) : e.fired.Nodup := by
  refine (List.pairwise_map.mp (sorted_fired hc)).imp ?_
  rintro x y hxy rfl
  exact Alarm.Before.irrefl _ hxy

/-- **The law of one episode**: if a timeout fires, what is kept before it fires first. -/
theorem fires_before (hc : e.before.clock.Orderly) (hx : x.alarm ∈ e.before.clock.alarms)
    (hy : y ∈ e.fired) (h : x.alarm.Before y.alarm) : [x, y].Sublist e.fired := by
  have hin : x ∈ e.fired := by
    have hfires := fired_eq (ticks_of_fired hy)
    rw [hfires] at hy ⊢
    exact fires_of_before hc.sorted hx hy h
  exact sublist_of_before (sorted_fired hc) hin hy h

end Episode

/-! ## Many ticks -/

section Courses

variable {c c' : Clock} {es : List Episode} {x y : Timeout}

/-- A timeout that is kept and does not fire is kept on. -/
theorem kept_of_not_fired (hc : c.Orderly) (course : Course Dispatcher.clock c es c')
    (hx : x.alarm ∈ c.alarms) (h : x ∉ es.flatMap Episode.fired) : x.alarm ∈ c'.alarms := by
  have hcount := count_of_course (hc.numbered _ hx) hc course
  have hfired : (es.flatMap Episode.fired).count x = 0 := List.count_eq_zero.mpr h
  have hkept : 0 < c.alarms.count x.alarm := List.count_pos_iff.mpr hx
  refine List.count_pos_iff.mp ?_
  omega

/-- **The law of a course**: if a timeout fires in it, what was kept before it fires first. -/
theorem fired_before (hc : c.Orderly) (course : Course Dispatcher.clock c es c')
    (hx : x.alarm ∈ c.alarms) (h : x.alarm.Before y.alarm)
    (hy : y ∈ es.flatMap Episode.fired) : [x, y].Sublist (es.flatMap Episode.fired) := by
  obtain ⟨e, he, hfires⟩ := List.mem_flatMap.mp hy
  obtain ⟨pre, post, rfl⟩ := List.append_of_mem he
  have earlier := course.split.1
  rw [List.flatMap_append, List.flatMap_cons]
  by_cases hin : x ∈ pre.flatMap Episode.fired
  · -- it has fired at an earlier tick
    have hlater : [y].Sublist (e.fired ++ post.flatMap Episode.fired) :=
      List.singleton_sublist.mpr (List.mem_append_left _ hfires)
    exact (List.singleton_sublist.mpr hin).append hlater
  · -- it is still kept when the other one fires
    have hkept := kept_of_not_fired hc earlier hx hin
    have hpair := Episode.fires_before (orderly_of_course hc earlier).1 hkept hfires h
    have hrest := List.sublist_append_left e.fired (post.flatMap Episode.fired)
    exact (hpair.trans hrest).trans (List.sublist_append_right _ _)

/-- What has fired in a course is gone, and no two firings are of the same timeout. -/
theorem fired_nodup (hc : c.Orderly) (course : Course Dispatcher.clock c es c') :
    (es.flatMap Episode.fired).Nodup ∧
    ∀ x ∈ es.flatMap Episode.fired, x.seq < c'.nextSeq ∧ x.alarm ∉ c'.alarms := by
  induction course with
  | nil => exact ⟨List.nodup_nil, fun x hx => nomatch hx⟩
  | @snoc es e earlier ih =>
    obtain ⟨hnodup, hgone⟩ := ih
    have horderly := (orderly_of_course hc earlier).1
    have hnext := e.moves.frame.2.2
    rw [List.flatMap_append, List.flatMap_singleton]
    constructor
    · refine List.nodup_append.mpr ⟨hnodup, Episode.nodup_fired horderly, ?_⟩
      rintro x hx y hy rfl
      obtain ⟨hseq, habsent⟩ := hgone x hx
      exact (absent_of_absent hseq habsent).1 hy
    · intro x hx
      rcases List.mem_append.mp hx with hin | hin
      · obtain ⟨hseq, habsent⟩ := hgone x hin
        exact ⟨Nat.lt_of_lt_of_le hseq hnext, (absent_of_absent hseq habsent).2⟩
      · have hseq := horderly.numbered _ (Episode.kept_of_fired hin)
        exact ⟨Nat.lt_of_lt_of_le hseq hnext, absent_of_fired horderly hseq hin⟩

/-- The numbers that are given out in an episode of a course lie between those of its ends. -/
theorem numbers_of_mem {e : Episode} (hc : c.Orderly) (course : Course Dispatcher.clock c es c')
    (he : e ∈ es) : e.before.clock.Orderly ∧ c.nextSeq ≤ e.before.clock.nextSeq ∧
      e.after.clock.nextSeq ≤ c'.nextSeq := by
  obtain ⟨pre, post, rfl⟩ := List.append_of_mem he
  obtain ⟨earlier, later⟩ := course.split
  obtain ⟨hbefore, -, hseq⟩ := orderly_of_course hc earlier
  exact ⟨hbefore, hseq, (orderly_of_course (e.moves.orderly hbefore) later).2.2⟩

end Courses

/-! ## The order of adding -/

/-- The timeout is added in the episode. -/
def Episode.Adds (e : Episode) (x : Timeout) : Prop :=
  e.request = .addTimer x.due x.value ∧ x.seq = e.before.clock.nextSeq

namespace Timeout

/-- The timeout has been added in these episodes and has not fired in them. -/
def Pending (x : Timeout) (es : List Episode) : Prop :=
  (∃ e ∈ es, e.Adds x) ∧ x ∉ es.flatMap Episode.fired

/-- The timeout is due earlier than the other one, or at the same tick and was added earlier in
    these episodes. -/
def Precedes (x y : Timeout) (es : List Episode) : Prop :=
  x.due < y.due ∨ x.due = y.due ∧ ∃ e f, [e, f].Sublist es ∧ e.Adds x ∧ f.Adds y

end Timeout

namespace Episode.Adds

variable {e f : Episode} {x y : Timeout}

/-- The timeout that is added gets the next number, and is kept. -/
theorem after (h : e.Adds x) :
    x.alarm ∈ e.after.clock.alarms ∧ e.after.clock.nextSeq = x.seq + 1 := by
  obtain ⟨asked, hseq⟩ := h
  rw [Episode.added asked]
  refine ⟨mem_place.mpr (.inl ?_), ?_⟩
  · rw [← hseq]
    rfl
  · show e.before.clock.nextSeq + 1 = x.seq + 1
    omega

end Episode.Adds

section Adding

variable {c c' : Clock} {es : List Episode} {e f : Episode} {x y : Timeout}

/-- What was added earlier has the smaller number. -/
theorem seq_lt_of_sublist (hc : c.Orderly) (course : Course Dispatcher.clock c es c')
    (h : [e, f].Sublist es) (hx : e.Adds x) (hy : f.Adds y) : x.seq < y.seq := by
  obtain ⟨pre, post, rfl, he, hpost⟩ := List.cons_sublist_iff.mp h
  have hf : f ∈ post := List.singleton_sublist.mp hpost
  obtain ⟨mid, earlier, later⟩ := course.cut
  have hmid := (orderly_of_course hc earlier).1
  have hbefore := (numbers_of_mem hc earlier he).2.2
  have hafter := (numbers_of_mem hmid later hf).2.1
  have hnext := hx.after.2
  have hseq := hy.2
  omega

/-- What has the smaller number was added earlier. -/
theorem sublist_of_seq_lt (hc : c.Orderly) (course : Course Dispatcher.clock c es c')
    (he : e ∈ es) (hf : f ∈ es) (hx : e.Adds x) (hy : f.Adds y) (h : x.seq < y.seq) :
    [e, f].Sublist es := by
  refine pair_sublist he hf ?_ fun pre post hes hpre => ?_
  · rintro rfl
    have hsame := hx.2.trans hy.2.symm
    omega
  · rw [hes] at course
    have hbefore := (numbers_of_mem hc course.split.1 hpre).2.2
    have hnext := hy.after.2
    have hseq := hx.2
    have hmid : f.after.clock.nextSeq ≤ e.before.clock.nextSeq := hbefore
    omega

/-- A timeout that is pending is kept. -/
theorem Timeout.Pending.kept (hc : c.Orderly) (course : Course Dispatcher.clock c es c')
    (h : x.Pending es) : x.alarm ∈ c'.alarms := by
  obtain ⟨⟨e, he, hadds⟩, hnot⟩ := h
  obtain ⟨pre, post, rfl⟩ := List.append_of_mem he
  obtain ⟨earlier, later⟩ := course.split
  have hafter := e.moves.orderly (orderly_of_course hc earlier).1
  refine kept_of_not_fired hafter later hadds.after.1 fun hin => hnot ?_
  rw [List.flatMap_append, List.flatMap_cons]
  exact List.mem_append_right _ (List.mem_append_right _ hin)

/-- The timeout that precedes has its place before the other one. -/
theorem Timeout.Precedes.before (hc : c.Orderly) (course : Course Dispatcher.clock c es c')
    (h : x.Precedes y es) : x.alarm.Before y.alarm := by
  rcases h with hdue | ⟨hdue, e, f, hsub, hx, hy⟩
  · exact .inl hdue
  · exact .inr ⟨hdue, seq_lt_of_sublist hc course hsub hx hy⟩

/-- A request adds one timeout at most. -/
theorem mem_after {c : Clock} {r : Request} (h : x.alarm ∈ (c.after r).alarms) :
    x.alarm ∈ c.alarms ∨ r = .addTimer x.due x.value ∧ x.seq = c.nextSeq := by
  have hleft : ∀ {now}, x.alarm ∈ (serve now c.alarms).left → x.alarm ∈ c.alarms := mem_of_left
  cases r with
  | addTimer due value =>
    rcases mem_place.mp h with heq | hin
    · obtain ⟨hdue, hseq, hkind⟩ := Alarm.mk.inj heq
      obtain rfl : x.due = due := hdue
      obtain rfl : x.value = value := AlarmKind.timeout.inj hkind
      exact .inr ⟨rfl, hseq⟩
    · exact .inl hin
  | arm =>
    have hwound : x.alarm ∈ c.wound.alarms := h
    unfold wound at hwound
    split at hwound
    · exact .inl hwound
    · -- the mark is no timeout
      rcases mem_place.mp hwound with heq | hin
      · nomatch (Alarm.mk.inj heq).2.2
      · exact .inl hin
  | tick | timerInterrupt =>
    have hpassed : x.alarm ∈ c.passed.alarms := h
    unfold passed at hpassed
    split at hpassed
    · rcases mem_place.mp hpassed with heq | hin
      · nomatch (Alarm.mk.inj heq).2.2
      · exact .inl (hleft hin)
    · exact .inl (hleft hpassed)
  | _ => exact .inl h

/-- **Every timeout that is kept has been added.** -/
theorem added_of_kept {config : Config} (course : Course Dispatcher.clock (.create config) es c')
    (hx : x.alarm ∈ c'.alarms) : ∃ e ∈ es, e.Adds x := by
  induction course with
  | nil =>
    have hnever := List.mem_singleton.mp hx
    nomatch (Alarm.mk.inj hnever).2.2
  | @snoc es e earlier ih =>
    have hin : x.alarm ∈ (e.before.clock.after e.request).alarms := by
      rw [← Dispatcher.clock_eq e.done]
      exact hx
    rcases mem_after hin with hkept | hadds
    · obtain ⟨f, hf, hfadds⟩ := ih hkept
      exact ⟨f, List.mem_append_left _ hf, hfadds⟩
    · exact ⟨e, List.mem_append_right _ List.mem_cons_self, hadds⟩

/-- What fires at one tick is in the order of time and of adding. -/
theorem precedes_of_fired {config : Config}
    (earlier : Course Dispatcher.clock (.create config) es e.before.clock) :
    e.fired.Pairwise fun x y => x.Precedes y es := by
  have horderly := (orderly_of_course (orderly_create config) earlier).1
  refine (List.pairwise_map.mp (Episode.sorted_fired horderly)).imp_of_mem ?_
  intro x y hx hy hbefore
  rcases hbefore with hdue | ⟨hdue, hseq⟩
  · exact .inl hdue
  · obtain ⟨f, hf, hfx⟩ := added_of_kept earlier (Episode.kept_of_fired hx)
    obtain ⟨g, hg, hgy⟩ := added_of_kept earlier (Episode.kept_of_fired hy)
    have hsub := sublist_of_seq_lt (orderly_create config) earlier hf hg hfx hgy hseq
    exact .inr ⟨hdue, f, g, hsub, hfx, hgy⟩

end Adding

/-! ## The inbox of the receiver -/

/-- The request is one to the clock alone: to add a timeout, to arm, or to let a tick pass. -/
def Request.ofClock : Request → Bool
  | .addTimer .. | .arm | .tick => true
  | _ => false

namespace Scheduler

variable {s s' : Scheduler} {es : List Episode} {config : Config}

/-- Deliveries create no task. -/
theorem Carried.known {letters : List Letter} {acts : List Act} (h : Carried s letters acts)
    (steps : Steps s acts s') (id : TaskId) :
    (s'.tasks.get? id).isSome = (s.tasks.get? id).isSome := by
  obtain ⟨single, -⟩ := h
  induction steps with
  | nil => rfl
  | cons first rest ih =>
    obtain ⟨x, hx⟩ := single _ List.mem_cons_self
    rw [ih fun a ha => single a (List.mem_cons_of_mem _ ha), first.known_of_letters hx]

/-- Nothing is delivered where nothing fires. -/
theorem deliveries_nil (s : Scheduler) (receiver id : TaskId) : deliveries s receiver id [] = [] :=
  ite_self _

/-- What is delivered in two parts is delivered. -/
theorem deliveries_append (receiver id : TaskId) (xs ys : List Timeout) :
    deliveries s receiver id (xs ++ ys) =
      deliveries s receiver id xs ++ deliveries s receiver id ys := by
  unfold deliveries
  split
  · exact List.map_append
  · rfl

/-- Whom timeouts reach depends on the tasks that exist. -/
theorem deliveries_congr {receiver : TaskId}
    (h : (s'.tasks.get? receiver).isSome = (s.tasks.get? receiver).isSome) (id : TaskId)
    (xs : List Timeout) : deliveries s' receiver id xs = deliveries s receiver id xs := by
  unfold deliveries
  rw [h]

end Scheduler

/-- The clock does nothing to the scheduler but deliver at a tick. -/
theorem Enacted.of_ofClock {d : Dispatcher} {r : Request} {response : Response} {acts : List Act}
    (h : Enacted d r response acts) (asked : r.ofClock = true) :
    r.ticks = false ∧ acts = [] ∨
    r.ticks = true ∧ Carried d.scheduler d.clock.letters acts := by
  cases h with
  | timed | armed => exact .inl ⟨rfl, rfl⟩
  | ticked carried => exact .inr ⟨rfl, carried⟩
  | refused refusable =>
    cases r with
    | addTimer | arm | tick => exact refusable.elim
    | _ => nomatch asked
  | moved which =>
    rcases which with rfl | rfl
    · nomatch asked
    · nomatch asked
  | unmoved which =>
    rcases which with ⟨n, rfl⟩ | ⟨level, rfl⟩
    · nomatch asked
    · nomatch asked
  | _ => nomatch asked

namespace Episode

variable {e : Episode}

/-- What a tick sends is what fires at it. -/
theorem sentTo_of_ticks (ticks : e.request.ticks = true) (id : TaskId) : e.sentTo id =
    deliveries e.before.scheduler e.before.clock.config.receiver id e.fired := by
  have hletters : e.before.letters e.request = e.before.clock.letters := by
    cases hr : e.request with
    | tick | timerInterrupt => rfl
    | _ =>
      rw [hr] at ticks
      nomatch ticks
  unfold sentTo
  rw [hletters, fired_eq ticks]
  exact lettersTo_accepted _ _ _ _

/-- A request to the clock sends what fires at it, and does nothing else to the scheduler. -/
theorem of_ofClock (hs : e.before.scheduler.Sound) (asked : e.request.ofClock = true)
    (id : TaskId) :
    e.after.scheduler.mail id = e.before.scheduler.mail id ++
      deliveries e.before.scheduler e.before.clock.config.receiver id e.fired ∧
    (e.after.scheduler.tasks.get? id).isSome = (e.before.scheduler.tasks.get? id).isSome := by
  obtain ⟨acts, steps, enacted⟩ := e.enacts hs
  rcases enacted.of_ofClock asked with ⟨hticks, rfl⟩ | ⟨hticks, carried⟩
  · -- nothing fires, and no act is done
    have hsame : e.after.scheduler = e.before.scheduler := by
      generalize e.after.scheduler = s' at steps
      cases steps
      rfl
    rw [fired_eq_nil hticks, deliveries_nil, List.append_nil, hsame]
    exact ⟨rfl, rfl⟩
  · exact ⟨e.delivers hticks id, carried.known steps id⟩

end Episode

section Inboxes

variable {s s' : Scheduler} {es : List Episode} {config : Config}

/-- **What fires is held by the inbox of the receiver in this order**, between other messages: in
    front what has been taken out already, and then what waits. -/
theorem fired_sublist_inbox (hs : s.Sound) (course : Course Dispatcher.scheduler s es s')
    (receiver : ∀ e ∈ es, e.before.clock.config = config)
    (known : (s.tasks.get? config.receiver).isSome) :
    ((es.flatMap Episode.fired).map Timeout.message).Sublist
      (es.flatMap (·.takenFrom config.receiver) ++ s'.mail config.receiver) := by
  rw [mail_of_course hs course, List.map_flatMap]
  refine (flatMap_sublist fun e he => ?_).trans (List.sublist_append_right _ _)
  cases hticks : e.request.ticks with
  | true =>
    obtain ⟨pre, post, rfl⟩ := List.append_of_mem he
    have hknown := course.split.1.known_kept hs known
    have hsent : e.sentTo config.receiver = e.fired.map Timeout.message := by
      rw [Episode.sentTo_of_ticks hticks, receiver e he]
      exact if_pos ⟨rfl, hknown⟩
    exact hsent.symm ▸ List.Sublist.refl _
  | false =>
    rw [Episode.fired_eq_nil hticks]
    exact List.nil_sublist _

/-- **Where only the clock is asked**, what fires is all that gets into the inboxes. -/
theorem mail_of_clock (hs : s.Sound) (course : Course Dispatcher.scheduler s es s')
    (receiver : ∀ e ∈ es, e.before.clock.config = config)
    (asked : ∀ e ∈ es, e.request.ofClock = true) :
    (∀ id, s'.mail id = s.mail id ++
      deliveries s config.receiver id (es.flatMap Episode.fired)) ∧
    (s'.tasks.get? config.receiver).isSome = (s.tasks.get? config.receiver).isSome := by
  induction course with
  | nil => exact ⟨fun id => by rw [List.flatMap_nil, deliveries_nil, List.append_nil], rfl⟩
  | @snoc es e earlier ih =>
    obtain ⟨hmail, hknown⟩ := ih (fun f hf => receiver f (List.mem_append_left _ hf))
      fun f hf => asked f (List.mem_append_left _ hf)
    have hlast : e ∈ es ++ [e] := List.mem_append_right _ List.mem_cons_self
    have hlaw := Episode.of_ofClock (earlier.sound hs) (asked e hlast)
    rw [receiver e hlast] at hlaw
    refine ⟨fun id => ?_, (hlaw _).2.trans hknown⟩
    rw [(hlaw id).1, hmail id, List.flatMap_append, List.flatMap_singleton, deliveries_append,
      deliveries_congr hknown, List.append_assoc]

end Inboxes

/-! ## Every course -/

/-- **What becomes of the order of timeouts** in the course `es` of a clock that sends them to the
    task `receiver`. -/
structure Clock.FiresInOrder (receiver : TaskId) (es : List Episode) : Prop where
  /-- No timeout fires twice. -/
  once : (es.flatMap Episode.fired).Nodup
  /-- If two timeouts are pending at the same time and the second one fires, the one that precedes
      it fires before it. -/
  ordered : ∀ ws zs x y, es = ws ++ zs → x.Pending ws → y.Pending ws → x.Precedes y ws →
    y ∈ zs.flatMap Episode.fired → [x, y].Sublist (zs.flatMap Episode.fired)
  /-- What fires at one tick is in order. -/
  sorted : ∀ ws e zs, es = ws ++ e :: zs → e.fired.Pairwise fun x y => x.Precedes y ws
  /-- What fires at a tick is sent to the receiver, in this order. -/
  sent : ∀ e ∈ es, e.request.ticks = true → ∀ id,
    e.sentTo id = deliveries e.before.scheduler receiver id e.fired
  /-- If one scheduler is served all the while, the inbox of the receiver holds what fires in this
      order, whatever else is asked of the scheduler: in front what has been taken out already,
      and then what waits. -/
  held : ∀ log s s', History log s → Course Dispatcher.scheduler s es s' →
    (s.tasks.get? receiver).isSome →
    ((es.flatMap Episode.fired).map Timeout.message).Sublist
      (es.flatMap (·.takenFrom receiver) ++ s'.mail receiver)
  /-- If nothing else is asked of it, the inboxes get nothing else. -/
  alone : ∀ log s s', History log s → Course Dispatcher.scheduler s es s' →
    (∀ e ∈ es, e.request.ofClock = true) → ∀ id,
    s'.mail id = s.mail id ++ deliveries s receiver id (es.flatMap Episode.fired)

/-- **Timeouts fire in order.**  Take any course of a clock from its beginning, whatever its quantum
    is, whatever is asked in it and whatever schedulers it serves. -/
theorem Clock.timeouts_in_order {config : Config} {es : List Episode} {c : Clock}
    (course : Course Dispatcher.clock (.create config) es c) :
    Clock.FiresInOrder config.receiver es := by
  have hfirst := orderly_create config
  have hconfig : ∀ e ∈ es, e.before.clock.config = config := by
    intro e he
    obtain ⟨pre, before⟩ := course.before_of_mem he
    exact (orderly_of_course hfirst before).2.1
  refine ⟨(fired_nodup hfirst course).1, ?ordered, ?sorted, ?sent, ?held, ?alone⟩
  case ordered =>
    rintro ws zs x y rfl hx - hxy hy
    obtain ⟨mid, earlier, later⟩ := course.cut
    have hmid := (orderly_of_course hfirst earlier).1
    exact fired_before hmid later (hx.kept hfirst earlier) (hxy.before hfirst earlier) hy
  case sorted =>
    rintro ws e zs rfl
    exact precedes_of_fired course.split.1
  case sent =>
    intro e he ticks id
    rw [Episode.sentTo_of_ticks ticks, hconfig e he]
  case held =>
    intro log s s' history served known
    exact fired_sublist_inbox history.sound served hconfig known
  case alone =>
    intro log s s' history served asked
    exact (mail_of_clock history.sound served hconfig asked).1

/-- Three timeouts are due at tick 2, and the quantum ends there, right behind the first one.  The
    other two fire a tick later.  The timeout that was added last is due before all of them. -/
theorem Clock.timeouts_in_order_across_mark : ∃ es d,
    Course Dispatcher.clock (.create ⟨2, 4096, ⟨1⟩⟩) es (Dispatcher.clock d) ∧
    es.map Episode.response = [.done, .done, .done, .done, .done,
      .expired false, .expired true, .expired false] ∧
    es.map Episode.fired = [[], [], [], [], [],
      [⟨1, 5, 6⟩], [⟨2, 1, 7⟩], [⟨2, 3, 8⟩, ⟨2, 4, 9⟩]] ∧
    [(⟨2, 1, 7⟩ : Timeout), ⟨2, 4, 9⟩].Sublist ((es.drop 5).flatMap Episode.fired) ∧
    d.scheduler.mail ⟨1⟩ =
      [.timerTimeout 1 6, .timerTimeout 2 7, .timerTimeout 2 8, .timerTimeout 2 9] := by
  have created : (Scheduler.create ⟨2, 4096, ⟨1⟩⟩ .heap).outcome = .ok (.ok _) := rfl
  have history := History.created created
  obtain ⟨-, run⟩ := history.runs_on
    (show (Dispatcher.performAll ⟨_, .create ⟨2, 4096, ⟨1⟩⟩⟩
      [.addTimer 2 7, .arm, .addTimer 2 8, .addTimer 2 9, .addTimer 1 6,
        .tick, .tick, .tick]).outcome = .ok (_, _) from rfl)
  have course := run.map Dispatcher.clock
  have law := Clock.timeouts_in_order course
  refine ⟨_, _, course, rfl, rfl, ?_, ?_⟩
  · -- both are pending when the first tick comes
    refine law.ordered _ _ _ _ (List.take_append_drop 5 _).symm ⟨⟨_, .head _, rfl, rfl⟩, ?_⟩
      ⟨⟨_, .tail _ (.tail _ (.tail _ (.head _))), rfl, rfl⟩, ?_⟩ (.inr ⟨rfl, _, _,
        .cons_cons _ (.cons _ (.cons _ (.cons_cons _ (List.nil_sublist _)))),
        ⟨rfl, rfl⟩, ⟨rfl, rfl⟩⟩) ?_
    · exact List.not_mem_nil
    · exact List.not_mem_nil
    · exact .tail _ (.tail _ (.tail _ (.head _)))
  · refine law.alone _ _ _ history (run.map Dispatcher.scheduler) (fun e he => ?_) ⟨1⟩
    have hasked := Dispatcher.request_of_mem_episodes he
    simp only [List.mem_cons, List.not_mem_nil, or_false] at hasked
    rcases hasked with h | h | h | h | h | h | h | h <;> rw [h] <;> rfl

end PreemptiveKernel
