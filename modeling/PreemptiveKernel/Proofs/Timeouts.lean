/-
  Every timeout fires once and on time.

  The time for a timeout is its due tick, or the first tick after it was added if it was due
  already.  It never fires earlier.  It can be late, because a tick that finds the end of a
  quantum stops there and leaves what stands behind the mark.  But the mark that is set then is
  due no earlier and was added later, so it goes behind every timeout that was left
  (`Waits.late`), and no other mark is kept.  So a timeout is late by one tick at most, however
  short the quantum is and however many ticks have been cut short.

  That it fires once is a matter of counting: in every move of the clock the timeouts that fire
  are those that the alarms lose (`count_of_course`).
-/
import PreemptiveKernel.Proofs.Alarms
import PreemptiveKernel.Proofs.Mail

namespace PreemptiveKernel

open Run Scheduler Clock

/-! ## Waiting for the time -/

/-- The tick at which a timeout that was added at tick `since` is to fire. -/
def Timeout.deadline (x : Timeout) (since : Nat) : Nat :=
  max x.due (since + 1)

theorem due_le_deadline (x : Timeout) (since : Nat) : x.due ≤ x.deadline since :=
  Nat.le_max_left _ _

/-- The timeout has been added at tick `since` and has not fired yet. -/
structure Timeout.Waits (x : Timeout) (since : Nat) (c : Clock) : Prop where
  /-- It is kept. -/
  kept : x.alarm ∈ c.alarms
  /-- The clock has gone on. -/
  since_le : since ≤ c.now
  /-- The time has not passed. -/
  early : c.now ≤ x.deadline since
  /-- If the time has come, no mark stands before it any more. -/
  late : c.now = x.deadline since → ∀ a ∈ c.alarms, a.marks = true → x.alarm.Before a

namespace Clock

variable {c c' : Clock} {x : Timeout} {since : Nat} {fired : List Timeout} {ended : Bool}

theorem Orderly.before_never (hc : c.Orderly) (hx : x.due < Word.greatest) :
    ∀ a ∈ c.alarms, a.kind = .never → x.alarm.Before a := by
  intro a ha hnever
  refine .inl ?_
  rw [hc.never a ha hnever]
  exact hx

/-- A timeout that does not fire is left. -/
theorem left_of_not_fired (h : x.alarm ∈ c.alarms) (hx : x ∉ c.fires) :
    x.alarm ∈ c.ticked.alarms := by
  have hcount := count_serve (c.now + 1) c.alarms x
  have hfires : c.fires.count x = 0 := List.count_eq_zero.mpr hx
  have hkept : 0 < c.alarms.count x.alarm := List.count_pos_iff.mpr h
  refine List.count_pos_iff.mp ?_
  show 0 < (serve (c.now + 1) c.alarms).left.count x.alarm
  unfold fires at hfires
  omega

/-- The mark that is set when a quantum has ended goes behind every timeout that was left. -/
theorem before_marks (hc : c.Orderly) (h : x.alarm ∈ c.alarms) (ended : c.expires = true)
    (hdue : x.due ≤ c.now + 1) :
    ∀ a ∈ c.ticked.marked.alarms, a.marks = true → x.alarm.Before a := by
  intro a ha hmarks
  rcases mem_place.mp ha with rfl | hin
  · refine Alarm.before_of_added ?_ (hc.numbered _ h)
    show x.due ≤ c.now + 1 + c.config.quantum
    omega
  · -- no other mark is left
    have hnone := hc.left_marks ended
    rw [List.countP_eq_zero] at hnone
    exact absurd hmarks (hnone a hin)

/-- **At its time a timeout fires**, unless the tick stops at a mark; a tick later it fires in
    any case. -/
theorem fires_of_due (hc : c.Orderly) (hx : x.due < Word.greatest) (w : x.Waits since c)
    (hdue : x.due ≤ c.now + 1) (h : c.expires = false ∨ c.now = x.deadline since) :
    x ∈ c.fires := by
  refine mem_fired hc.sorted w.kept hdue (hc.before_never hx) fun ended => ?_
  rcases h with running | late
  · have hended : c.expires = true := ended
    rw [running] at hended
    nomatch hended
  · exact w.late late

/-- A tick at which a waiting timeout does not fire leaves it, and then the time has not come
    yet, or a quantum has ended. -/
theorem waits_ticked (hc : c.Orderly) (hx : x.due < Word.greatest) (w : x.Waits since c)
    (h : x ∉ c.fires) : x.alarm ∈ c.ticked.alarms ∧ c.now < x.deadline since ∧
      (c.now + 1 = x.deadline since → c.expires = true) := by
  have hearly := w.early
  have hdue := due_le_deadline x since
  refine ⟨left_of_not_fired w.kept h, ?_, fun hnow => ?_⟩
  · -- at its time it would have been late already, and would fire
    rcases Nat.lt_or_eq_of_le hearly with hlt | heq
    · exact hlt
    · exact absurd (fires_of_due hc hx w (by omega) (.inr heq)) h
  · have hnow' : x.due ≤ c.now + 1 := by omega
    cases hexpires : c.expires with
    | true => rfl
    | false => exact absurd (fires_of_due hc hx w hnow' (.inl hexpires)) h

/-- An alarm that is added lets a timeout wait on.  If it is a mark and the time has come, it
    has to be due no earlier. -/
theorem waits_put (hx : x.seq < c.nextSeq) (w : x.Waits since c) {due : Nat} {kind : AlarmKind}
    (h : kind = .quantum → c.now = x.deadline since → x.due ≤ due) :
    x.Waits since (c.put due kind) := by
  refine ⟨mem_place.mpr (.inr w.kept), w.since_le, w.early, ?_⟩
  intro hnow a ha hmarks
  rcases mem_place.mp ha with rfl | hin
  · exact Alarm.before_of_added (h (of_decide_eq_true hmarks) hnow) hx
  · exact w.late hnow a hin hmarks

/-- **The law of one move**: a waiting timeout fires at its time, or a tick later; or it goes on
    waiting, and the tick at which its time comes is one at which a quantum ends. -/
theorem Moves.waits (hc : c.Orderly) (hx : x.due < Word.greatest) (w : x.Waits since c)
    (h : Moves c fired ended c') :
    (x ∈ fired ∧ (c'.now = x.deadline since ∨
      c.now = x.deadline since ∧ c'.now = x.deadline since + 1)) ∨
    (x ∉ fired ∧ x.Waits since c' ∧
      (c'.now = x.deadline since → c.now = x.deadline since ∨ ended = true)) := by
  have hsince := w.since_le
  have hearly := w.early
  have hseq : x.seq < c.nextSeq := hc.numbered _ w.kept
  -- what fires is due, so its time has come
  have hfires : x ∈ c.fires → c.now + 1 = x.deadline since ∨
      c.now = x.deadline since ∧ c.now + 1 = x.deadline since + 1 := by
    intro hin
    have hdue := due_le_of_fired hin
    unfold Timeout.deadline at hearly ⊢
    omega
  cases h with
  | still => exact .inr ⟨List.not_mem_nil, w, .inl⟩
  | added due value =>
    exact .inr ⟨List.not_mem_nil, waits_put hseq w nofun, .inl⟩
  | armed idle =>
    refine .inr ⟨List.not_mem_nil, ?_, .inl⟩
    have hwaits : x.Waits since { c with armed := true } := ⟨w.kept, hsince, hearly, w.late⟩
    refine waits_put (c := { c with armed := true }) hseq hwaits fun _ hnow => ?_
    have hnow' : c.now = x.deadline since := hnow
    have hdue := due_le_deadline x since
    show x.due ≤ c.now + c.config.quantum
    omega
  | ticked running =>
    by_cases hin : x ∈ c.fires
    · exact .inl ⟨hin, hfires hin⟩
    · obtain ⟨hleft, hlt, hended⟩ := waits_ticked hc hx w hin
      -- the time has not come, for no quantum has ended
      have hne : c.now + 1 ≠ x.deadline since := by
        intro hnow
        rw [hended hnow] at running
        nomatch running
      exact .inr ⟨hin, ⟨hleft, Nat.le_succ_of_le hsince, hlt, fun hnow => absurd hnow hne⟩,
        fun hnow => absurd hnow hne⟩
  | expired ended =>
    by_cases hin : x ∈ c.fires
    · exact .inl ⟨hin, hfires hin⟩
    · obtain ⟨hleft, hlt, -⟩ := waits_ticked hc hx w hin
      refine .inr ⟨hin, ⟨mem_place.mpr (.inr hleft), Nat.le_succ_of_le hsince, hlt, ?_⟩,
        fun _ => .inr rfl⟩
      intro hnow
      have hnow' : c.now + 1 = x.deadline since := hnow
      have hdue := due_le_deadline x since
      exact before_marks hc w.kept ended (by omega)

end Clock

namespace Episode

/-- The timeouts that fire in the episode. -/
def fired (e : Episode) : List Timeout :=
  e.before.fired e.request

/-- A tick passes in the episode, and a quantum ends at it. -/
def expired (e : Episode) : Bool :=
  e.before.expired e.request

theorem moves (e : Episode) : Moves e.before.clock e.fired e.expired e.after.clock :=
  Dispatcher.moves e.done

end Episode

/-! ## Courses -/

section Courses

variable {c c' : Clock} {x : Timeout} {since : Nat} {es : List Episode}

theorem orderly_of_course (hc : c.Orderly) (course : Course Dispatcher.clock c es c') :
    c'.Orderly ∧ c'.config = c.config ∧ c.nextSeq ≤ c'.nextSeq := by
  induction course with
  | nil => exact ⟨hc, rfl, Nat.le_refl _⟩
  | @snoc es e earlier ih =>
    obtain ⟨horderly, hconfig, hseq⟩ := ih
    obtain ⟨hconfig', -, hseq'⟩ := e.moves.frame
    exact ⟨e.moves.orderly horderly, hconfig'.trans hconfig, Nat.le_trans hseq hseq'⟩

/-- **Timeouts are conserved**: what fires in a course is what the alarms have lost. -/
theorem count_of_course (hx : x.seq < c.nextSeq) (hc : c.Orderly)
    (course : Course Dispatcher.clock c es c') :
    (es.flatMap Episode.fired).count x + c'.alarms.count x.alarm = c.alarms.count x.alarm := by
  induction course with
  | nil => exact Nat.zero_add _
  | @snoc es e earlier ih =>
    have hlater := (orderly_of_course hc earlier).2.2
    have hlaw := e.moves.count (Nat.lt_of_lt_of_le hx hlater)
    rw [List.flatMap_append, List.flatMap_singleton, List.count_append]
    omega

/-- The episode comes in time for the timeout: its tick is the one at which the time has come,
    or the next one, if the former stopped at the end of a quantum. -/
def Timeout.InTime (x : Timeout) (since : Nat) (es : List Episode) (e : Episode) : Prop :=
  e.after.clock.now = x.deadline since ∨
  e.after.clock.now = x.deadline since + 1 ∧
    ∃ f ∈ es, f.expired = true ∧ f.after.clock.now = x.deadline since

theorem Timeout.InTime.append {e : Episode} (h : x.InTime since es e) (fs : List Episode) :
    x.InTime since (es ++ fs) e := by
  rcases h with hnow | ⟨hnow, f, hf, hstopped⟩
  · exact .inl hnow
  · exact .inr ⟨hnow, f, List.mem_append_left _ hf, hstopped⟩

/-- **The invariant**: the timeout waits, or it is gone. -/
inductive Timeout.Stage (x : Timeout) (since : Nat) (es : List Episode) (c : Clock) : Prop
  /-- It waits.  If its time has come, the tick at which it came has been cut short. -/
  | waiting (waits : x.Waits since c)
      (stopped : c.now = x.deadline since →
        ∃ f ∈ es, f.expired = true ∧ f.after.clock.now = x.deadline since)
  /-- It has fired. -/
  | gone (absent : x.alarm ∉ c.alarms)

/-- A timeout that fires is gone. -/
theorem absent_of_fired {e : Episode} (hc : e.before.clock.Orderly)
    (hx : x.seq < e.before.clock.nextSeq) (h : x ∈ e.fired) :
    x.alarm ∉ e.after.clock.alarms := by
  have hlaw := e.moves.count hx
  have hone : e.before.clock.alarms.count x.alarm ≤ 1 :=
    List.nodup_iff_count.mp (nodup_of_sorted hc.sorted) x.alarm
  have hfired : 0 < e.fired.count x := List.count_pos_iff.mpr h
  refine List.count_eq_zero.mp ?_
  omega

/-- A timeout that is gone does not fire and does not come back. -/
theorem absent_of_absent {e : Episode} (hx : x.seq < e.before.clock.nextSeq)
    (h : x.alarm ∉ e.before.clock.alarms) :
    x ∉ e.fired ∧ x.alarm ∉ e.after.clock.alarms := by
  have hlaw := e.moves.count hx
  have hnone : e.before.clock.alarms.count x.alarm = 0 := List.count_eq_zero.mpr h
  constructor
  · refine List.count_eq_zero.mp ?_
    omega
  · refine List.count_eq_zero.mp ?_
    omega

theorem stage_of_course (hc : c.Orderly) (hx : x.due < Word.greatest) (hseq : x.seq < c.nextSeq)
    (w : x.Waits since c) (hearly : c.now < x.deadline since)
    (course : Course Dispatcher.clock c es c') :
    x.Stage since es c' ∧ ∀ e ∈ es, x ∈ e.fired → x.InTime since es e := by
  induction course with
  | nil => exact ⟨.waiting w fun hnow => absurd hnow (Nat.ne_of_lt hearly), by simp⟩
  | @snoc es e earlier ih =>
    obtain ⟨stage, timely⟩ := ih
    obtain ⟨horderly, -, hnext⟩ := orderly_of_course hc earlier
    have hseq' : x.seq < e.before.clock.nextSeq := Nat.lt_of_lt_of_le hseq hnext
    -- what has fired before was in time, so only the last episode is in question
    have hall : (x ∈ e.fired → x.InTime since (es ++ [e]) e) →
        ∀ f ∈ es ++ [e], x ∈ f.fired → x.InTime since (es ++ [e]) f := by
      intro hlast f hf hfires
      rcases List.mem_append.mp hf with hin | hin
      · exact (timely f hin hfires).append [e]
      · obtain rfl := List.mem_singleton.mp hin
        exact hlast hfires
    cases stage with
    | gone absent =>
      obtain ⟨hnot, habsent⟩ := absent_of_absent hseq' absent
      exact ⟨.gone habsent, hall fun hfires => absurd hfires hnot⟩
    | waiting waits stopped =>
      rcases e.moves.waits horderly hx waits with ⟨hfires, hnow⟩ | ⟨hnot, waits', hstopped⟩
      · refine ⟨.gone (absent_of_fired horderly hseq' hfires), hall fun _ => ?_⟩
        rcases hnow with hnow | ⟨hbefore, hnow⟩
        · exact .inl hnow
        · obtain ⟨f, hf, hexpired⟩ := stopped hbefore
          exact .inr ⟨hnow, f, List.mem_append_left _ hf, hexpired⟩
      · refine ⟨.waiting waits' fun hnow => ?_, hall fun hfires => absurd hfires hnot⟩
        rcases hstopped hnow with hbefore | hended
        · obtain ⟨f, hf, hexpired⟩ := stopped hbefore
          exact ⟨f, List.mem_append_left _ hf, hexpired⟩
        · exact ⟨e, List.mem_append_right _ List.mem_cons_self, hended, hnow⟩

end Courses

/-! ## Delivery -/

/-- The messages that reach the task `id` when timeouts are sent to a receiver. -/
def deliveries (s : Scheduler) (receiver id : TaskId) (fired : List Timeout) : List Message :=
  if id = receiver ∧ (s.tasks.get? receiver).isSome then fired.map Timeout.message else []

theorem lettersTo_accepted (s : Scheduler) (receiver id : TaskId) (fired : List Timeout) :
    lettersTo id (s.accepted (fired.map fun t => ⟨receiver, t.message⟩)) =
      deliveries s receiver id fired := by
  have hmap : (fired.map fun t => Letter.mk receiver t.message) =
      (fired.map Timeout.message).map (Letter.mk receiver) := by
    rw [List.map_map]
    rfl
  rw [hmap, accepted_eq_filter]
  unfold deliveries
  by_cases known : (s.tasks.get? receiver).isSome = true
  · have hall : ((fired.map Timeout.message).map (Letter.mk receiver)).filter
        (fun x => (s.tasks.get? x.receiver).isSome) =
        (fired.map Timeout.message).map (Letter.mk receiver) := by
      refine List.filter_eq_self.mpr fun x hx => ?_
      obtain ⟨m, -, rfl⟩ := List.mem_map.mp hx
      exact known
    rw [hall, lettersTo_map_mk]
    simp only [known, and_true]
  · have hnone : ((fired.map Timeout.message).map (Letter.mk receiver)).filter
        (fun x => (s.tasks.get? x.receiver).isSome) = [] := by
      refine List.filter_eq_nil_iff.mpr fun x hx => ?_
      obtain ⟨m, -, rfl⟩ := List.mem_map.mp hx
      exact known
    rw [hnone, if_neg fun h => known h.2]
    rfl

/-- **A tick delivers** what fires at it to the receiver, and nothing to anybody else. -/
theorem mail_of_tick {c c' : Clock} {s s' : Scheduler} {ended : Bool}
    (done : (c.tick s).outcome = .ok (ended, c', s')) (id : TaskId) :
    s'.mail id = s.mail id ++ deliveries s c.config.receiver id c.fires := by
  obtain ⟨-, acts, steps, carried⟩ := (c.tick_carried s).of_ok done
  rw [carried.mail steps id]
  exact congrArg (s.mail id ++ ·) (lettersTo_accepted s _ id c.fires)

theorem Episode.delivers (e : Episode) (ticks : e.request.ticks = true) (id : TaskId) :
    e.after.scheduler.mail id = e.before.scheduler.mail id ++
      deliveries e.before.scheduler e.before.clock.config.receiver id e.fired := by
  obtain ⟨d, r, response, d', done⟩ := e
  cases r with
  | tick =>
    obtain ⟨⟨ended, c, s⟩, htick, hpure⟩ := outcome_bind_eq_ok_iff.mp done
    cases hpure
    exact mail_of_tick htick id
  | timerInterrupt =>
    obtain ⟨⟨change, c, s⟩, hirq, hpure⟩ := outcome_bind_eq_ok_iff.mp done
    obtain ⟨ended, s₁, htick, hlast⟩ := Interrupt.parts_of_onTimer hirq
    cases hpure
    have hmail := mail_of_tick htick id
    rcases hlast with ⟨-, rfl⟩ | ⟨-, hswitch⟩
    · exact hmail
    · -- the end of the turn leaves the inboxes alone
      obtain ⟨h, step⟩ := exists_yield_of_switchTask hswitch
      have hsame := step.mail id
      exact hsame.trans ((List.append_nil _).trans hmail)
  | _ => nomatch ticks

/-! ## Every timeout -/

/-- A timeout that has just been added waits. -/
theorem waits_of_put (c : Clock) (due : Nat) (value : Int32) :
    Timeout.Waits ⟨due, c.nextSeq, value⟩ c.now (c.put due (.timeout value)) ∧
    c.now < Timeout.deadline ⟨due, c.nextSeq, value⟩ c.now := by
  have hlt : c.now < Timeout.deadline ⟨due, c.nextSeq, value⟩ c.now := by
    unfold Timeout.deadline
    omega
  refine ⟨⟨mem_place.mpr (.inl rfl), Nat.le_refl _, Nat.le_of_lt hlt, fun hnow => ?_⟩, hlt⟩
  exact absurd hnow (Nat.ne_of_lt hlt)

/-- **What becomes of a timeout** that was added at tick `since`, in the course `es` of the clock
    that leads to `c`. -/
structure Timeout.Punctual (x : Timeout) (since : Nat) (receiver : TaskId) (es : List Episode)
    (c : Clock) : Prop where
  /-- It fires once or has not fired yet. -/
  once : (es.flatMap Episode.fired).count x + c.alarms.count x.alarm = 1
  /-- It has fired when the tick after its time has passed. -/
  fires : x.deadline since < c.now → (es.flatMap Episode.fired).count x = 1
  /-- It fires in time. -/
  timely : ∀ e ∈ es, x ∈ e.fired → x.InTime since es e
  /-- It is gone as soon as it has fired. -/
  gone : ∀ e ∈ es, x ∈ e.fired → x.alarm ∉ e.after.clock.alarms
  /-- Where it fires, what fires there is sent to the receiver. -/
  sent : ∀ e ∈ es, x ∈ e.fired → ∀ id, e.after.scheduler.mail id =
    e.before.scheduler.mail id ++ deliveries e.before.scheduler receiver id e.fired

theorem Episode.added {e : Episode} {due : Nat} {value : Int32}
    (asked : e.request = .addTimer due value) :
    e.after.clock = e.before.clock.put due (.timeout value) := by
  obtain ⟨d, r, response, d', done⟩ := e
  obtain rfl : r = .addTimer due value := asked
  obtain ⟨c, hpush, hpure⟩ := outcome_bind_eq_ok_iff.mp done
  obtain rfl := push_eq hpush
  cases hpure
  rfl

theorem Episode.ticks_of_fired {e : Episode} {x : Timeout} (h : x ∈ e.fired) :
    e.request.ticks = true := by
  rw [← Bool.not_eq_false]
  intro hticks
  unfold Episode.fired Dispatcher.fired at h
  rw [hticks] at h
  nomatch h

theorem punctual_of_put {c c' : Clock} {es : List Episode} {due : Nat} {value : Int32}
    (hc : c.Orderly) (hdue : due < Word.greatest)
    (course : Course Dispatcher.clock (c.put due (.timeout value)) es c') :
    Timeout.Punctual ⟨due, c.nextSeq, value⟩ c.now c.config.receiver es c' := by
  have horderly : (c.put due (.timeout value)).Orderly := Moves.orderly hc (.added due value)
  have hseq : c.nextSeq < (c.put due (.timeout value)).nextSeq := Nat.lt_succ_self _
  obtain ⟨waits, hearly⟩ := waits_of_put c due value
  obtain ⟨stage, timely⟩ := stage_of_course horderly hdue hseq waits hearly course
  -- it is counted once when it has been added
  have hone : (c.put due (.timeout value)).alarms.count
      (Timeout.alarm ⟨due, c.nextSeq, value⟩) = 1 := by
    rw [(nodup_of_sorted horderly.sorted).count, if_pos waits.kept]
  have hcount := count_of_course (x := ⟨due, c.nextSeq, value⟩) hseq horderly course
  rw [hone] at hcount
  refine ⟨hcount, fun hlate => ?_, timely, fun e he hfires => ?_, fun e he hfires id => ?_⟩
  · cases stage with
    | waiting waits' stopped => exact absurd waits'.early (Nat.not_le.mpr hlate)
    | gone absent =>
      rw [List.count_eq_zero.mpr absent] at hcount
      exact hcount
  · obtain ⟨pre, before⟩ := course.before_of_mem he
    obtain ⟨hbefore, -, hnext⟩ := orderly_of_course horderly before
    exact absent_of_fired hbefore (Nat.lt_of_lt_of_le hseq hnext) hfires
  · obtain ⟨pre, before⟩ := course.before_of_mem he
    obtain ⟨-, hconfig, -⟩ := orderly_of_course horderly before
    have hsent := e.delivers (Episode.ticks_of_fired hfires) id
    rw [hconfig] at hsent
    exact hsent

/-- **Every timeout fires exactly once and on time.**  Take any course of a clock from its
    beginning, whatever its quantum is and whatever schedulers it serves, and any timeout that
    is added in it and is not due at the last tick of all. -/
theorem Clock.timeouts_punctual {config : Config} {es : List Episode} {c : Clock}
    (course : Course Dispatcher.clock (.create config) es c) {n : Nat} (h : n < es.length)
    {due : Nat} {value : Int32} (asked : es[n].request = .addTimer due value)
    (hdue : due < Word.greatest) :
    Timeout.Punctual ⟨due, es[n].before.clock.nextSeq, value⟩ es[n].before.clock.now
      config.receiver (es.drop (n + 1)) c := by
  have split : es.take n ++ es[n] :: es.drop (n + 1) = es := by
    rw [List.getElem_cons_drop, List.take_append_drop]
  obtain ⟨earlier, later⟩ := Course.split (split.symm ▸ course)
  obtain ⟨hbefore, hconfig, -⟩ := orderly_of_course (orderly_create config) earlier
  rw [es[n].added asked] at later
  have punctual := punctual_of_put hbefore hdue later
  rw [hconfig] at punctual
  exact punctual

/-- A quantum of one tick is set before the timeout is added.  It ends at the tick at which the
    timeout is due, and the timeout fires at the next one. -/
theorem Clock.timeouts_punctual_behind_mark : ∃ es d,
    Course Dispatcher.clock (.create ⟨1, 4096, ⟨1⟩⟩) es (Dispatcher.clock d) ∧
    es.map Episode.response = [.done, .done, .expired true, .expired true] ∧
    es.map Episode.fired = [[], [], [], [⟨1, 2, 42⟩]] ∧
    ((es.drop 2).flatMap Episode.fired).count ⟨1, 2, 42⟩ = 1 ∧
    d.scheduler.mail ⟨1⟩ = [.timerTimeout 1 42] := by
  have course := (Dispatcher.course_episodes
    (show (Dispatcher.performAll
      ⟨founded ⟨1, 4096, ⟨1⟩⟩ (.create ⟨2⟩ 4096), .create ⟨1, 4096, ⟨1⟩⟩⟩
      [.arm, .addTimer 1 42, .tick, .tick]).outcome = .ok (_, _) from rfl)).map Dispatcher.clock
  have punctual := Clock.timeouts_punctual course (n := 1) (by decide) rfl (by decide)
  exact ⟨_, _, course, rfl, rfl, punctual.fires (by decide), rfl⟩

end PreemptiveKernel
