/-
  Preemption on time.

  Once the clock has been armed there is one mark among its alarms, and it is due a quantum ahead
  at most (`EndsAt`).  It stays where it is until its tick comes; then the quantum ends, and the
  next mark is due exactly a quantum after it.  So the tick for which the mark is due measures the
  turns that the clock has ended: it moves on by one quantum with each of them and by nothing else
  (`Moves.endsAt`).

  Over a course this adds up (`endsAt_of_course`).  The mark is always ahead, and never by more
  than a quantum, so among as many ticks as make up a quantum exactly one ends one
  (`ended_once`), wherever the first of them falls, however often the clock is armed again, and
  whatever else is served at the same ticks.

  At that tick the turn of the current task ends, and the highest level runs; at the others the
  current task stays.  So a task that has become ready does not wait longer than a quantum for a
  task of its level to run.
-/
import PreemptiveKernel.Proofs.Priority
import PreemptiveKernel.Proofs.Provisions
import PreemptiveKernel.Proofs.Timeouts

namespace PreemptiveKernel

open Run Scheduler Clock

/-! ## The mark -/

namespace Clock

variable {c c' : Clock} {due : Nat} {fired : List Timeout} {ended : Bool}

/-- The current quantum ends at tick `due`, which is ahead by a quantum at most. -/
structure EndsAt (c : Clock) (due : Nat) : Prop where
  /-- A mark is due then. -/
  mark : ∃ a ∈ c.alarms, a.marks = true ∧ a.due = due
  /-- The tick is still to come. -/
  ahead : c.now < due
  /-- It comes within a quantum. -/
  near : due ≤ c.now + c.config.quantum

/-- Where there is a mark, the clock is armed. -/
theorem Orderly.armed_of_mark {a : Alarm} (hc : c.Orderly) (ha : a ∈ c.alarms)
    (marks : a.marks = true) : c.armed = true := by
  have hpos : 0 < c.alarms.countP Alarm.marks := List.countP_pos_iff.mpr ⟨a, ha, marks⟩
  rw [hc.marks] at hpos
  cases harmed : c.armed with
  | true => rfl
  | false =>
    rw [harmed] at hpos
    nomatch hpos

/-- There is no second mark. -/
theorem Orderly.mark_unique {a b : Alarm} (hc : c.Orderly) (ha : a ∈ c.alarms)
    (hb : b ∈ c.alarms) (marks : a.marks = true) (marks' : b.marks = true) : a = b := by
  have hlen : (c.alarms.filter Alarm.marks).length ≤ 1 := by
    rw [← List.countP_eq_length_filter, hc.marks]
    exact Bool.toNat_le c.armed
  have hain : a ∈ c.alarms.filter Alarm.marks := List.mem_filter.mpr ⟨ha, marks⟩
  have hbin : b ∈ c.alarms.filter Alarm.marks := List.mem_filter.mpr ⟨hb, marks'⟩
  obtain ⟨x, hx⟩ := List.length_eq_one_iff.mp
    (Nat.le_antisymm hlen (List.length_pos_of_mem hain))
  rw [hx] at hain hbin
  rw [List.mem_singleton.mp hain, List.mem_singleton.mp hbin]

/-- **A quantum ends when its mark is due**, whatever else is kept. -/
theorem Orderly.expires_iff {a : Alarm} (hc : c.Orderly) (room : c.now + 1 < Word.greatest)
    (ha : a ∈ c.alarms) (marks : a.marks = true) : c.expires = true ↔ a.due ≤ c.now + 1 := by
  constructor
  · intro ended
    obtain ⟨b, hb, hmarks, hdue⟩ := due_of_expired ended
    obtain rfl := hc.mark_unique ha hb marks hmarks
    exact hdue
  · intro hnow
    cases hexpires : c.expires with
    | true => rfl
    | false =>
      -- the mark would be left, although it is due and nothing stands in its way
      have hleft : a ∈ (serve (c.now + 1) c.alarms).left := mark_left ha marks hexpires
      have hnever : ∀ b ∈ c.alarms, b.kind = .never → a.Before b := by
        intro b hb hkind
        refine .inl ?_
        rw [hc.never b hb hkind]
        omega
      rcases served_of_due hc.sorted ha hnow hnever with hserved | ⟨hended, -⟩
      · exact absurd hleft hserved
      · have hended' : c.expires = true := hended
        rw [hexpires] at hended'
        nomatch hended'

/-- **The quantum ends at its tick** and not before. -/
theorem EndsAt.expires_iff (hc : c.Orderly) (room : c.now + 1 < Word.greatest)
    (h : c.EndsAt due) : c.expires = true ↔ due = c.now + 1 := by
  obtain ⟨⟨a, ha, marks, rfl⟩, ahead, near⟩ := h
  rw [hc.expires_iff room ha marks]
  omega

/-- A mark that has just been set. -/
theorem endsAt_marked (quantum : 0 < c.config.quantum) :
    c.marked.EndsAt (c.now + c.config.quantum) where
  mark := ⟨_, mem_place.mpr (.inl rfl), rfl, rfl⟩
  ahead := Nat.lt_add_of_pos_right quantum
  near := Nat.le_refl _

/-- **The law of one move**: the mark moves on by a quantum when one ends, and stays otherwise. -/
theorem Moves.endsAt (h : Moves c fired ended c') (hc : c.Orderly)
    (quantum : 0 < c.config.quantum) (room : c'.now < Word.greatest) (w : c.EndsAt due) :
    c'.EndsAt (due + c.config.quantum * ended.toNat) := by
  cases h with
  | still => exact w
  | added at' value =>
    obtain ⟨⟨a, ha, marks, hdue⟩, ahead, near⟩ := w
    exact ⟨⟨a, mem_place.mpr (.inr ha), marks, hdue⟩, ahead, near⟩
  | armed idle =>
    obtain ⟨a, ha, marks, -⟩ := w.mark
    rw [hc.armed_of_mark ha marks] at idle
    nomatch idle
  | ticked running =>
    have hne : due ≠ c.now + 1 := by
      intro hdue
      rw [(w.expires_iff hc room).mpr hdue] at running
      nomatch running
    obtain ⟨⟨a, ha, marks, rfl⟩, ahead, near⟩ := w
    refine ⟨⟨a, mark_left ha marks running, marks, rfl⟩, ?_, ?_⟩
    · show c.now + 1 < a.due
      omega
    · show a.due ≤ c.now + 1 + c.config.quantum
      omega
  | expired ended =>
    obtain rfl := (w.expires_iff hc room).mp ended
    rw [Bool.toNat_true, Nat.mul_one]
    exact endsAt_marked (c := c.ticked) quantum

/-- As soon as the clock is armed, the quantum ends at some tick. -/
theorem Moves.exists_endsAt (h : Moves c fired ended c') (hc : c.Orderly)
    (quantum : 0 < c.config.quantum) (room : c'.now < Word.greatest)
    (w : c.armed = true → ∃ due, c.EndsAt due) (armed : c'.armed = true) :
    ∃ due, c'.EndsAt due := by
  cases hidle : c.armed with
  | true =>
    obtain ⟨due, hdue⟩ := w hidle
    exact ⟨_, h.endsAt hc quantum room hdue⟩
  | false =>
    cases h with
    | still => exact w armed
    | added at' value =>
      have hnot : c.armed = true := armed
      rw [hidle] at hnot
      nomatch hnot
    | armed idle => exact ⟨_, endsAt_marked quantum⟩
    | ticked running =>
      have hnot : c.armed = true := armed
      rw [hidle] at hnot
      nomatch hnot
    | expired ended =>
      -- a quantum cannot end that has not begun
      obtain ⟨a, ha, marks, -⟩ := due_of_expired ended
      rw [hc.armed_of_mark ha marks] at hidle
      nomatch hidle

/-- The clock is never disarmed. -/
theorem Moves.armed_kept (h : Moves c fired ended c') (armed : c.armed = true) :
    c'.armed = true := by
  cases h with
  | still | added | ticked => exact armed
  | armed | expired => rfl

theorem armed_wound (c : Clock) : c.wound.armed = true := by
  unfold wound
  split
  · rename_i armed
    exact armed
  · rfl

end Clock

/-! ## Courses of the clock -/

section Courses

variable {c c' : Clock} {due : Nat} {es : List Episode}

/-- The time is the number of ticks. -/
theorem Episode.now_eq (e : Episode) :
    e.after.clock.now = e.before.clock.now + e.request.ticks.toNat := by
  rw [Dispatcher.clock_eq e.done]
  exact (Clock.after_bounds e.before.clock e.request).2.1

theorem now_of_course (course : Course Dispatcher.clock c es c') :
    c'.now = c.now + es.countP fun e => e.request.ticks := by
  induction course with
  | nil => rfl
  | @snoc es e earlier ih =>
    rw [e.now_eq, ih, List.countP_append, List.countP_singleton, Nat.add_assoc]
    cases e.request.ticks with
    | true => rfl
    | false => rfl

/-- **The mark measures the turns**: in a course it moves on by a quantum for each quantum that
    ends. -/
theorem endsAt_of_course (course : Course Dispatcher.clock c es c') (hc : c.Orderly)
    (quantum : 0 < c.config.quantum) (room : c'.now < Word.greatest) (w : c.EndsAt due) :
    c'.EndsAt (due + c.config.quantum * es.countP Episode.expired) := by
  induction course with
  | nil => exact w
  | @snoc es e earlier ih =>
    obtain ⟨horderly, hconfig, -⟩ := orderly_of_course hc earlier
    have hnow := e.moves.frame.2.1
    have hbefore := ih (Nat.lt_of_le_of_lt hnow room)
    have hlaw := e.moves.endsAt horderly (hconfig ▸ quantum) room hbefore
    rw [hconfig] at hlaw
    have hcount : (es ++ [e]).countP Episode.expired =
        es.countP Episode.expired + e.expired.toNat := by
      rw [List.countP_append, List.countP_singleton]
      cases e.expired with
      | true => rfl
      | false => rfl
    rw [hcount, Nat.mul_add, ← Nat.add_assoc]
    exact hlaw

/-- Once armed, the clock always knows when the quantum ends. -/
theorem exists_endsAt_of_course {config : Config}
    (course : Course Dispatcher.clock (.create config) es c') (quantum : 0 < config.quantum)
    (room : c'.now < Word.greatest) :
    (c'.armed = true → ∃ due, c'.EndsAt due) ∧
    ((∃ e ∈ es, e.request = .arm) → c'.armed = true) := by
  induction course with
  | nil => exact ⟨nofun, by simp⟩
  | @snoc es e earlier ih =>
    obtain ⟨horderly, hconfig, -⟩ := orderly_of_course (orderly_create config) earlier
    have hnow := e.moves.frame.2.1
    obtain ⟨hends, harmed⟩ := ih (Nat.lt_of_le_of_lt hnow room)
    have hquantum : 0 < e.before.clock.config.quantum := by
      rw [hconfig]
      exact quantum
    refine ⟨e.moves.exists_endsAt horderly hquantum room hends, ?_⟩
    rintro ⟨f, hf, asked⟩
    rcases List.mem_append.mp hf with hin | hlast
    · exact e.moves.armed_kept (harmed ⟨f, hin, asked⟩)
    · obtain rfl := List.mem_singleton.mp hlast
      rw [Dispatcher.clock_eq f.done, asked]
      exact armed_wound _

/-- **A quantum ends once in a quantum.** -/
theorem ended_once (course : Course Dispatcher.clock c es c') (hc : c.Orderly)
    (quantum : 0 < c.config.quantum) (room : c'.now < Word.greatest) (w : c.EndsAt due)
    (count : (es.countP fun e => e.request.ticks) = c.config.quantum) :
    es.countP Episode.expired = 1 := by
  have w' := endsAt_of_course course hc quantum room w
  have hnow := now_of_course course
  have hconfig := (orderly_of_course hc course).2.1
  have hahead := w'.ahead
  have hnear := w'.near
  have hahead₀ := w.ahead
  have hnear₀ := w.near
  rw [count] at hnow
  rw [hconfig] at hnear
  -- the mark was ahead by a quantum at most, and after a quantum it is so again
  rcases Nat.lt_trichotomy (es.countP Episode.expired) 1 with hnone | hone | hmany
  · have hzero : es.countP Episode.expired = 0 := by omega
    rw [hzero] at hahead
    omega
  · exact hone
  · have htwo : c.config.quantum * 2 ≤ c.config.quantum * es.countP Episode.expired :=
      Nat.mul_le_mul_left _ hmany
    omega

/-- So it is in every later part of a run from the beginning, once the clock has been armed. -/
theorem ended_once_of_armed {config : Config} {ws : List Episode}
    (course : Course Dispatcher.clock (.create config) (es ++ ws) c')
    (quantum : 0 < config.quantum) (room : c'.now < Word.greatest)
    (armed : ∃ e ∈ es, e.request = .arm)
    (count : (ws.countP fun e => e.request.ticks) = config.quantum) :
    ws.countP Episode.expired = 1 := by
  obtain ⟨c, before, window⟩ := course.cut
  obtain ⟨horderly, hconfig, -⟩ := orderly_of_course (orderly_create config) before
  have hnow := now_of_course window
  have hstart : c.now < Word.greatest := by omega
  -- the clock knows when the quantum ends before the window begins
  obtain ⟨hends, harmed⟩ := exists_endsAt_of_course before quantum hstart
  obtain ⟨due, hdue⟩ := hends (harmed armed)
  have hquantum : c.config.quantum = config.quantum := congrArg Config.quantum hconfig
  rw [← hquantum] at quantum count
  exact ended_once window horderly quantum room hdue count

end Courses

/-! ## Timer interrupts -/

/-- A timer interrupt delivers, and at the end of a quantum the turn is over. -/
theorem Enacted.of_timerInterrupt {d : Dispatcher} {response : Response} {acts : List Act}
    (h : Enacted d .timerInterrupt response acts) :
    (d.clock.expires = false ∧ response = .change none ∧
      Carried d.scheduler d.clock.letters acts) ∨
    (d.clock.expires = true ∧ ∃ change earlier, acts = earlier ++ [.yield change] ∧
      Carried d.scheduler d.clock.letters earlier) := by
  cases h with
  | refused asked => exact asked.elim
  | moved asked act =>
    rcases asked with asked | asked
    · nomatch asked
    · nomatch asked
  | unmoved asked =>
    rcases asked with ⟨n, asked⟩ | ⟨n, asked⟩
    · nomatch asked
    · nomatch asked
  | interrupted running carried => exact .inl ⟨running, rfl, carried⟩
  | preempted ended carried => exact .inr ⟨ended, _, _, rfl, carried⟩

namespace Episode

variable {e : Episode}

/-- A timer interrupt is a tick. -/
theorem tick_of_timerInterrupt (asked : e.request = .timerInterrupt) :
    ∃ s, (e.before.clock.tick e.before.scheduler).outcome = .ok (e.expired, e.after.clock, s) := by
  obtain ⟨d, r, response, d', done⟩ := e
  obtain rfl : r = .timerInterrupt := asked
  obtain ⟨⟨change, c, s⟩, hirq, hpure⟩ := outcome_bind_eq_ok_iff.mp done
  obtain ⟨ended, s₁, htick, -⟩ := Interrupt.parts_of_onTimer hirq
  obtain ⟨rfl, -⟩ := clock_of_tick htick
  cases hpure
  exact ⟨s₁, htick⟩

/-- At the end of a quantum the highest level gets its turn. -/
theorem highestRuns_of_expired (hs : e.before.scheduler.Sound)
    (asked : e.request = .timerInterrupt) (ended : e.expired = true) :
    e.after.scheduler.HighestRuns := by
  obtain ⟨acts, steps, enacted⟩ := e.enacts hs
  obtain ⟨d, r, response, d', done⟩ := e
  obtain rfl : r = .timerInterrupt := asked
  have hended : d.clock.expires = true := ended
  rcases enacted.of_timerInterrupt with ⟨running, -⟩ | ⟨-, change, earlier, rfl, carried⟩
  · rw [hended] at running
    nomatch running
  · obtain ⟨between, delivered, last⟩ := steps.split
    exact (last.of_single.settled (delivered.sound hs) rfl).highestRuns

/-- In the middle of a quantum the current task stays. -/
theorem kept_of_running (hs : e.before.scheduler.Sound) (asked : e.request = .timerInterrupt)
    (running : e.expired = false) : e.response = .change none ∧
      e.after.scheduler.currentId = e.before.scheduler.currentId := by
  obtain ⟨acts, steps, enacted⟩ := e.enacts hs
  obtain ⟨d, r, response, d', done⟩ := e
  obtain rfl : r = .timerInterrupt := asked
  have hrunning : d.clock.expires = false := running
  rcases enacted.of_timerInterrupt with ⟨-, hresponse, carried⟩ | ⟨ended, -⟩
  · exact ⟨hresponse, (carried.calmSteps steps).current_kept hs⟩
  · rw [hrunning] at ended
    nomatch ended

end Episode

/-! ## Preemption -/

namespace Scheduler

variable {s : Scheduler}

/-- A task of this level or a higher one is ready. -/
def ReadyAbove (s : Scheduler) (l : Level) (id : TaskId) : Prop :=
  ∃ t, s.tasks.get? id = some t ∧ t.running = true ∧ l ≤ t.level

/-- Where the highest level runs, the current task is of a level as high as that of any ready
    task. -/
theorem HighestRuns.outranks (h : s.HighestRuns) (hs : s.Sound) {l : Level} {x : TaskId}
    (ready : s.ReadyAbove l x) : ∃ id, s.currentId = .ok id ∧ s.ReadyAbove l id := by
  obtain ⟨u, hu, hready, hl⟩ := ready
  obtain ⟨id, rest, head, current⟩ := h.head
  obtain ⟨t, known, running, hlevel⟩ := hs.current_known current
  refine ⟨id, current, t, known, running, ?_⟩
  rw [hlevel]
  -- a higher level than the current one would have no ready task
  refine Fin.le_trans hl (Fin.not_lt.mp fun hlt => ?_)
  have hin := hs.mem_queue hu hready
  rw [queue_eq_nil_of_highestReady_lt h.level hlt] at hin
  nomatch hin

/-- **Preemption is on time.**  Take any run of a scheduler with a clock from its beginning, in
    which the clock has been armed, and any later part `ws` of the run in which timer interrupts
    are the only ticks and are as many as make up a quantum; the tick numbers have to last for
    one more quantum.  Then at exactly one of these timer interrupts the quantum ends, and after
    it the highest level runs; at every other the answer is that nothing changes, and the current
    task stays.  So if a task is ready all the while, the current task is of its level or a
    higher one after one of these interrupts.  The next interrupt is answered as well, if there is
    room for it. -/
theorem preempted_within_quantum {log : List (Request × Response)} (h : History log s)
    {config : Config} {es ws : List Episode} {d : Dispatcher}
    (course : Course id ⟨s, .create config⟩ (es ++ ws) d) (quantum : 0 < config.quantum)
    (armed : ∃ e ∈ es, e.request = .arm)
    (only : ∀ e ∈ ws, e.request.ticks = true → e.request = .timerInterrupt)
    (count : (ws.countP fun e => e.request.ticks) = config.quantum)
    (room : d.clock.now + config.quantum < Word.bound) :
    ws.countP Episode.expired = 1 ∧
    (∀ e ∈ ws, e.request = .timerInterrupt →
      (∃ s₁, (e.before.clock.tick e.before.scheduler).outcome =
        .ok (e.expired, e.after.clock, s₁)) ∧
      (e.expired = true → e.after.scheduler.HighestRuns) ∧
      (e.expired = false → e.response = .change none ∧
        e.after.scheduler.currentId = e.before.scheduler.currentId)) ∧
    (∀ l x, (∀ e ∈ ws, e.after.scheduler.ReadyAbove l x) →
      ∃ e ∈ ws, e.request = .timerInterrupt ∧
        ∃ id, e.after.scheduler.currentId = .ok id ∧ e.after.scheduler.ReadyAbove l id) ∧
    (d.Provides [.timerInterrupt] → ∃ p, (d.perform .timerInterrupt).outcome = .ok p) := by
  have hgreatest : Word.greatest + 1 = Word.bound := by decide
  have hroom : d.clock.now < Word.greatest := by omega
  have hone := ended_once_of_armed (course.map Dispatcher.clock) quantum hroom armed count
  -- every state of the run is sound, and so is the one at its end
  have hsched : Course Dispatcher.scheduler s (es ++ ws) d.scheduler :=
    course.map Dispatcher.scheduler
  have hsound : ∀ e ∈ ws, e.before.scheduler.Sound := by
    intro e he
    obtain ⟨pre, before⟩ := hsched.before_of_mem (List.mem_append_right es he)
    exact before.sound h.sound
  have hinterrupts : ∀ e ∈ ws, e.request = .timerInterrupt →
      (e.expired = true → e.after.scheduler.HighestRuns) ∧
      (e.expired = false → e.response = .change none ∧
        e.after.scheduler.currentId = e.before.scheduler.currentId) :=
    fun e he asked => ⟨Episode.highestRuns_of_expired (hsound e he) asked,
      Episode.kept_of_running (hsound e he) asked⟩
  refine ⟨hone, fun e he asked => ⟨Episode.tick_of_timerInterrupt asked, hinterrupts e he asked⟩,
    fun l x ready => ?_, fun provided => ?_⟩
  · -- the interrupt at which the quantum ends
    obtain ⟨e, he, hexpired⟩ := List.countP_pos_iff.mp (Nat.lt_of_lt_of_eq Nat.one_pos hone.symm)
    have hticks : e.request.ticks = true := (Bool.and_eq_true_iff.mp hexpired).1
    have asked := only e he hticks
    have hruns := (hinterrupts e he asked).1 hexpired
    have hafter := (e.performed (hsound e he)).sound (hsound e he)
    exact ⟨e, he, asked, hruns.outranks hafter (ready e he)⟩
  · obtain ⟨p, hp, -⟩ := ends_never_iff.mp
      (Dispatcher.perform_answers (hsched.sound h.sound) provided)
    exact ⟨p, hp⟩

/-- The quantum is two ticks.  In the middle of it a task is spawned above the main task, and the
    clock is armed again, which changes nothing.  At the next interrupt the quantum ends, and the
    new task runs. -/
theorem preempted_within_quantum_of_spawned : ∃ s es ws d, History [] s ∧
    Course id ⟨s, .create .standard⟩ (es ++ ws) d ∧
    es.map Episode.response = [.done, .done, .change none, .change none] ∧
    ws.map Episode.response = [.task ⟨3⟩, .done, .change (some ⟨⟨1⟩, ⟨3⟩⟩), .change none] ∧
    ws.countP Episode.expired = 1 := by
  have created : (create .standard .heap).outcome = .ok (.ok _) := rfl
  have h := History.created created
  obtain ⟨-, before⟩ := h.runs_on
    (show (Dispatcher.performAll ⟨_, .create .standard⟩
      [.arm, .changeLevel ⟨1⟩ 1, .switch, .timerInterrupt]).outcome = .ok (_, _) from rfl)
  have course := before.append (Dispatcher.course_episodes
    (show (Dispatcher.performAll _
      [.spawn .terminal 0 2 .heap, .arm, .timerInterrupt, .timerInterrupt]).outcome = .ok (_, _)
      from rfl))
  obtain ⟨once, -⟩ := preempted_within_quantum h course (by decide) ⟨_, List.mem_cons_self, rfl⟩
    (fun e he ticks => by
      have hasked := Dispatcher.request_of_mem_episodes he
      generalize e.request = r at hasked ticks
      simp only [List.mem_cons, List.not_mem_nil, or_false] at hasked
      rcases hasked with rfl | rfl | rfl | rfl
      · nomatch ticks
      · nomatch ticks
      · rfl
      · rfl)
    rfl (by decide)
  exact ⟨_, _, _, _, h, course, rfl, rfl, once⟩

end Scheduler

end PreemptiveKernel
