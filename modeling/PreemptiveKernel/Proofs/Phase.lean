/-
  Quanta end in phase with the first arming.

  When the clock is armed for the first time, at tick `a`, it sets a mark a quantum ahead.  From
  then on the quanta end at the ticks `a + k` for which the quantum divides `k`, and at no other;
  with a quantum of zero they end at every tick.  The timeouts that are set in the meantime, the
  tasks that get them, and armings that come later have no part in it, although the mark stands
  among the timeouts in one list and is taken out of it and put back again and again.

  The crux is that the mark is never just somewhere ahead: it is due when the ticks run out that
  are left of the quantum that began at the last multiple (`InPhase`).  One move keeps that
  (`Moves.inPhase`), and so does a course (`phase_of_course`).  What a tick answers can therefore be
  told from three numbers, the quantum, the tick of the first arming and the tick itself (`phase`).
-/
import PreemptiveKernel.Proofs.Preemption

namespace PreemptiveKernel

open Run Scheduler Clock

/-! ## What is left of a quantum -/

/-- The ticks that are left of the current quantum when `n` ticks have passed since the first one
    began.  A quantum of zero leaves none. -/
def ticksLeft (quantum n : Nat) : Nat :=
  quantum - n % quantum

/-- In the middle of a quantum a tick leaves one tick less. -/
theorem ticksLeft_succ {quantum n : Nat} (h : 1 < ticksLeft quantum n) :
    ticksLeft quantum (n + 1) + 1 = ticksLeft quantum n := by
  unfold ticksLeft at *
  have hlt : n % quantum + 1 < quantum := by omega
  have hmod : (n + 1) % quantum = n % quantum + 1 := by
    rw [← Nat.mod_add_mod, Nat.mod_eq_of_lt hlt]
  omega

/-- A quantum has one tick left, or none, exactly if the next tick ends it. -/
theorem ticksLeft_le_one_iff {quantum n : Nat} :
    ticksLeft quantum n ≤ 1 ↔ quantum = 0 ∨ quantum ∣ n + 1 := by
  unfold ticksLeft
  rcases Nat.eq_zero_or_pos quantum with rfl | hpos
  · simp
  · have hlt : n % quantum < quantum := Nat.mod_lt n hpos
    have hmod : (n + 1) % quantum = (n % quantum + 1) % quantum :=
      (Nat.mod_add_mod n quantum 1).symm
    rw [Nat.dvd_iff_mod_eq_zero, hmod]
    constructor
    · intro hleft
      have hlast : n % quantum + 1 = quantum := by omega
      rw [hlast, Nat.mod_self]
      exact .inr rfl
    · rintro (hzero | hends)
      · omega
      · have hnot : ¬ n % quantum + 1 < quantum := by
          intro hmiddle
          rw [Nat.mod_eq_of_lt hmiddle] at hends
          omega
        omega

/-- Behind the end of a quantum the next one is whole. -/
theorem ticksLeft_of_ended {quantum n : Nat} (h : quantum = 0 ∨ quantum ∣ n) :
    ticksLeft quantum n = quantum := by
  unfold ticksLeft
  rcases h with rfl | hdvd
  · exact Nat.zero_sub _
  · rw [Nat.mod_eq_zero_of_dvd hdvd, Nat.sub_zero]

/-! ## The mark -/

namespace Clock

variable {c c' : Clock} {origin : Nat} {fired : List Timeout} {ended : Bool}

/-- The mark is due at the end of the quantum that the current tick belongs to, if the first
    quantum began at tick `origin`. -/
structure InPhase (c : Clock) (origin : Nat) : Prop where
  since : origin ≤ c.now
  mark : ∃ a ∈ c.alarms, a.marks = true ∧
    a.due = c.now + ticksLeft c.config.quantum (c.now - origin)

/-- **A clock in phase ends its quanta in phase.** -/
theorem InPhase.expires_iff (hc : c.Orderly) (room : c.now + 1 < Word.greatest)
    (w : c.InPhase origin) :
    c.expires = true ↔ c.config.quantum = 0 ∨ c.config.quantum ∣ c.now + 1 - origin := by
  obtain ⟨since, a, ha, marks, hdue⟩ := w
  have hsub : c.now + 1 - origin = c.now - origin + 1 := by omega
  rw [hc.expires_iff room ha marks, hsub, ← ticksLeft_le_one_iff]
  omega

/-- A mark that has just been set is in phase if the tick begins a quantum. -/
theorem inPhase_marked (since : origin ≤ c.now)
    (begins : c.config.quantum = 0 ∨ c.config.quantum ∣ c.now - origin) :
    c.marked.InPhase origin := by
  refine ⟨since, _, mem_place.mpr (.inl rfl), rfl, ?_⟩
  exact congrArg (c.now + ·) (ticksLeft_of_ended begins).symm

/-- The first arming sets the phase. -/
theorem inPhase_first (c : Clock) : c.marked.InPhase c.now := by
  refine inPhase_marked (Nat.le_refl _) (.inr ?_)
  rw [Nat.sub_self]
  exact Nat.dvd_zero _

/-- **The law of one move**: whatever happens to a clock in phase, it stays in phase. -/
theorem Moves.inPhase (h : Moves c fired ended c') (hc : c.Orderly)
    (room : c'.now < Word.greatest) (w : c.InPhase origin) : c'.InPhase origin := by
  cases h with
  | still => exact w
  | added due value =>
    obtain ⟨since, a, ha, marks, hdue⟩ := w
    exact ⟨since, a, mem_place.mpr (.inr ha), marks, hdue⟩
  | armed idle =>
    -- there is a mark, so the clock is armed already
    obtain ⟨-, a, ha, marks, -⟩ := w
    rw [hc.armed_of_mark ha marks] at idle
    nomatch idle
  | ticked running =>
    obtain ⟨since, a, ha, marks, hdue⟩ := w
    have hlater : ¬ a.due ≤ c.now + 1 := by
      intro hnow
      rw [(hc.expires_iff room ha marks).mpr hnow] at running
      nomatch running
    have hleft : 1 < ticksLeft c.config.quantum (c.now - origin) := by omega
    have hsucc := ticksLeft_succ hleft
    have hsub : c.now + 1 - origin = c.now - origin + 1 := by omega
    refine ⟨Nat.le_succ_of_le since, a, mark_left ha marks running, marks, ?_⟩
    show a.due = c.now + 1 + ticksLeft c.config.quantum (c.now + 1 - origin)
    rw [hsub]
    omega
  | expired ended =>
    have hends := (w.expires_iff hc room).mp ended
    exact inPhase_marked (c := c.ticked) (Nat.le_succ_of_le w.since) hends

/-- An unarmed clock ends no quantum. -/
theorem Orderly.expires_of_idle (hc : c.Orderly) (idle : c.armed = false) : c.expires = false := by
  cases hexpires : c.expires with
  | false => rfl
  | true =>
    obtain ⟨a, ha, marks, -⟩ := due_of_expired hexpires
    rw [hc.armed_of_mark ha marks] at idle
    nomatch idle

end Clock

/-! ## The first arming -/

/-- The request arms the clock. -/
def Request.arms : Request → Bool
  | .arm => true
  | _ => false

/-- The tick at which the clock is armed for the first time in these episodes. -/
def armedAt (es : List Episode) : Option Nat :=
  (es.find? fun e => e.request.arms).map fun e => e.before.clock.now

/-- What the tick answers that raises the count to `n`: whether a quantum ends at it, given the
    tick of the first arming. -/
def Clock.phase (quantum : Nat) (first : Option Nat) (n : Nat) : Bool :=
  first.any fun a => decide (a < n ∧ (quantum = 0 ∨ quantum ∣ n - a))

/-- What the ticks of these episodes have answered. -/
def turns (es : List Episode) : List Bool :=
  (es.filter fun e => e.request.ticks).map Episode.expired

theorem armedAt_append (xs ys : List Episode) :
    armedAt (xs ++ ys) = (armedAt xs).or (armedAt ys) := by
  unfold armedAt
  rw [List.find?_append, Option.map_or]

namespace Episode

variable {e : Episode}

theorem armedAt_singleton (e : Episode) :
    armedAt [e] = if e.request.arms then some e.before.clock.now else none := by
  unfold armedAt
  rw [List.find?_singleton]
  split
  · rfl
  · rfl

/-- What arms leaves the clock wound. -/
theorem clock_of_arms (h : e.request.arms = true) : e.after.clock = e.before.clock.wound := by
  rw [Dispatcher.clock_eq e.done]
  cases hr : e.request with
  | arm => rfl
  | _ =>
    rw [hr] at h
    nomatch h

/-- Nothing else arms a clock, except a tick at which a quantum ends. -/
theorem idle_of_not_arms (hc : e.before.clock.Orderly) (h : e.request.arms = false)
    (idle : e.before.clock.armed = false) : e.after.clock.armed = false := by
  rw [Dispatcher.clock_eq e.done]
  cases hr : e.request with
  | arm =>
    rw [hr] at h
    nomatch h
  | tick | timerInterrupt =>
    show e.before.clock.passed.armed = false
    unfold passed
    rw [hc.expires_of_idle idle]
    exact idle
  | _ => exact idle

/-- **What a tick answers** is whether a quantum ends at it, be it asked for by itself or within a
    timer interrupt. -/
theorem tick_of_ticks (ticks : e.request.ticks = true) :
    ∃ s, (e.before.clock.tick e.before.scheduler).outcome = .ok (e.expired, e.after.clock, s) := by
  cases hr : e.request with
  | timerInterrupt => exact tick_of_timerInterrupt hr
  | tick =>
    obtain ⟨d, r, response, d', done⟩ := e
    obtain rfl : r = .tick := hr
    obtain ⟨⟨ended, c, s⟩, htick, hpure⟩ := outcome_bind_eq_ok_iff.mp done
    obtain ⟨rfl, -⟩ := clock_of_tick htick
    cases hpure
    exact ⟨s, htick⟩
  | _ =>
    rw [hr] at ticks
    nomatch ticks

end Episode

/-! ## Courses -/

section Courses

variable {c c' : Clock} {es : List Episode} {config : Config}

/-- **The invariant**: the clock has not been armed, or it is in phase with its first arming. -/
inductive Clock.Stage (es : List Episode) (c : Clock) : Prop
  | idle (none : armedAt es = none) (unarmed : c.armed = false)
  | phased (a : Nat) (first : armedAt es = some a) (inPhase : c.InPhase a)

theorem phase_of_course (course : Course Dispatcher.clock (.create config) es c)
    (room : c.now < Word.greatest) : Clock.Stage es c := by
  induction course with
  | nil => exact .idle rfl rfl
  | @snoc es e earlier ih =>
    have horderly := (orderly_of_course (orderly_create config) earlier).1
    have hnow := e.moves.frame.2.1
    cases ih (Nat.lt_of_le_of_lt hnow room) with
    | phased a first inPhase =>
      refine .phased a ?_ (e.moves.inPhase horderly room inPhase)
      rw [armedAt_append, first]
      rfl
    | idle none unarmed =>
      cases harms : e.request.arms with
      | true =>
        refine .phased e.before.clock.now ?_ ?_
        · rw [armedAt_append, none, Episode.armedAt_singleton, if_pos harms]
          rfl
        · have hwound : e.before.clock.wound = e.before.clock.marked :=
            if_neg (by rw [unarmed]; exact Bool.false_ne_true)
          rw [Episode.clock_of_arms harms, hwound]
          exact inPhase_first _
      | false =>
        refine .idle ?_ (Episode.idle_of_not_arms horderly harms unarmed)
        rw [armedAt_append, none, Episode.armedAt_singleton, harms]
        rfl

/-- **What the next tick of a course answers** can be told from the quantum and the tick of the
    first arming. -/
theorem expires_eq_phase (course : Course Dispatcher.clock (.create config) es c)
    (room : c.now + 1 < Word.greatest) :
    c.expires = Clock.phase config.quantum (armedAt es) (c.now + 1) := by
  obtain ⟨horderly, hconfig, -⟩ := orderly_of_course (orderly_create config) course
  cases phase_of_course course (Nat.lt_of_succ_lt room) with
  | idle none unarmed =>
    rw [horderly.expires_of_idle unarmed, none]
    rfl
  | phased a first inPhase =>
    have hsince : a < c.now + 1 := Nat.lt_succ_of_le inPhase.since
    have hlaw := inPhase.expires_iff horderly room
    rw [hconfig] at hlaw
    rw [first, Bool.eq_iff_iff, hlaw]
    show _ ↔ decide (a < c.now + 1 ∧ _) = true
    rw [decide_eq_true_iff]
    exact ⟨fun h => ⟨hsince, h⟩, And.right⟩

/-- A later arming comes too late to change what a tick answers. -/
theorem phase_append {quantum n : Nat} (xs : List Episode) {ys : List Episode}
    (late : ∀ a, armedAt ys = some a → n ≤ a) :
    Clock.phase quantum (armedAt (xs ++ ys)) n = Clock.phase quantum (armedAt xs) n := by
  rw [armedAt_append]
  cases armedAt xs with
  | some a => rfl
  | none =>
    rw [Option.none_or]
    cases hys : armedAt ys with
    | none => rfl
    | some a =>
      have hle : ¬ a < n := Nat.not_lt.mpr (late a hys)
      exact decide_eq_false fun h => hle h.1

/-- What happens in a course happens no earlier than it begins. -/
theorem le_armedAt (course : Course Dispatcher.clock c es c') {a : Nat}
    (h : armedAt es = some a) : c.now ≤ a := by
  obtain ⟨e, hfind, rfl⟩ := Option.map_eq_some_iff.mp h
  obtain ⟨pre, post, rfl⟩ := List.append_of_mem (List.mem_of_find?_eq_some hfind)
  have hnow := now_of_course course.split.1
  omega

/-- **What a tick of a course answers** can be told from the quantum and the tick of the first
    arming. -/
theorem expired_eq_phase (course : Course Dispatcher.clock (.create config) es c)
    (room : c.now < Word.greatest) {e : Episode} (he : e ∈ es) (ticks : e.request.ticks = true) :
    e.expired = Clock.phase config.quantum (armedAt es) e.after.clock.now := by
  obtain ⟨pre, post, rfl⟩ := List.append_of_mem he
  obtain ⟨earlier, later⟩ := course.split
  have hend := now_of_course later
  have hnow : e.after.clock.now = e.before.clock.now + 1 := by
    rw [e.now_eq, ticks]
    rfl
  have hroom : e.before.clock.now + 1 < Word.greatest := by omega
  have hnotarms : e.request.arms = false := by
    cases hr : e.request with
    | arm =>
      rw [hr] at ticks
      nomatch ticks
    | _ => rfl
  have hexpired : e.expired = e.before.clock.expires := by
    unfold Episode.expired Dispatcher.expired
    rw [ticks, Bool.true_and]
  rw [hexpired, expires_eq_phase earlier hroom, hnow]
  refine (phase_append pre fun a ha => ?_).symm
  -- what is armed behind the tick is armed at a tick that is no earlier
  have hpost : armedAt post = some a := by
    have hcons : armedAt ([e] ++ post) = some a := ha
    rw [armedAt_append, Episode.armedAt_singleton, hnotarms] at hcons
    exact hcons
  rw [← hnow]
  exact le_armedAt later hpost

/-- The ticks of a course count on from its beginning. -/
theorem ticks_of_course (course : Course Dispatcher.clock c es c') :
    (es.filter fun e => e.request.ticks).map (fun e => e.after.clock.now) =
      List.range' (c.now + 1) (c'.now - c.now) := by
  induction course with
  | nil =>
    rw [Nat.sub_self]
    rfl
  | @snoc es e earlier ih =>
    have hnow := now_of_course earlier
    have hafter := e.now_eq
    rw [List.filter_append, List.map_append, ih]
    cases ticks : e.request.ticks with
    | true =>
      rw [ticks, Bool.toNat_true] at hafter
      have hlen : e.after.clock.now - c.now = e.before.clock.now - c.now + 1 := by omega
      have hlast : c.now + 1 + (e.before.clock.now - c.now) = e.after.clock.now := by omega
      have hone : [e].filter (fun e => e.request.ticks) = [e] := by simp [ticks]
      rw [hlen, List.range'_1_concat, hlast, hone]
      rfl
    | false =>
      rw [ticks, Bool.toNat_false] at hafter
      have hnone : [e].filter (fun e => e.request.ticks) = [] := by simp [ticks]
      rw [hafter, hnone]
      exact List.append_nil _

/-- **The answers of all ticks of a course.** -/
theorem turns_of_course (course : Course Dispatcher.clock (.create config) es c)
    (room : c.now < Word.greatest) :
    turns es = (List.range' 1 c.now).map (Clock.phase config.quantum (armedAt es)) := by
  have hticks := ticks_of_course course
  have hrange : (es.filter fun e => e.request.ticks).map (fun e => e.after.clock.now) =
      List.range' 1 c.now := hticks
  rw [← hrange, List.map_map]
  unfold turns
  refine List.map_congr_left fun e he => ?_
  obtain ⟨hin, ticks⟩ := List.mem_filter.mp he
  exact expired_eq_phase course room hin ticks

/-- **Quanta end in phase with the first arming.**  Take any course of a clock from its beginning,
    whatever its quantum is, however many timeouts are set in it and however often it is armed.  A
    tick that raises the count to `n` answers that a quantum has ended exactly if the clock has been
    armed before, first at tick `a`, and the quantum is zero or divides `n - a`.  The next tick is
    answered as well, and in the same way, if there is room for it.  So two courses of clocks with
    one quantum, which are armed first at one tick and are equally long, give the same answers. -/
theorem Clock.quanta_in_phase (course : Course Dispatcher.clock (.create config) es c)
    (room : c.now < Word.greatest) :
    (∀ e ∈ es, e.request.ticks = true →
      (∃ s, (e.before.clock.tick e.before.scheduler).outcome =
        .ok (e.expired, e.after.clock, s)) ∧
      e.expired = Clock.phase config.quantum (armedAt es) e.after.clock.now) ∧
    (c.now + 1 + config.quantum < Word.greatest → c.nextSeq + 1 < Word.bound →
      ∀ s, ∃ c' s', (c.tick s).outcome =
        .ok (Clock.phase config.quantum (armedAt es) (c.now + 1), c', s')) ∧
    (∀ config' es' c', Course Dispatcher.clock (.create config') es' c' →
      config'.quantum = config.quantum → armedAt es' = armedAt es → c'.now = c.now →
      turns es' = turns es) := by
  refine ⟨fun e he ticks => ?_, fun time place s => ?_, fun config' es' c' course' hq ha hn => ?_⟩
  · exact ⟨Episode.tick_of_ticks ticks, expired_eq_phase course room he ticks⟩
  · have hgreatest : Word.greatest < Word.bound := by decide
    have hconfig : c.config = config := (orderly_of_course (orderly_create config) course).2.1
    have htime : c.now + 1 + c.config.quantum < Word.bound := by
      rw [hconfig]
      omega
    obtain ⟨⟨ended, c', s'⟩, done, -⟩ := ends_never_iff.mp (tick_answers s place htime)
    obtain ⟨rfl, -⟩ := clock_of_tick done
    rw [expires_eq_phase course (by omega)] at done
    exact ⟨c', s', done⟩
  · have hroom : c'.now < Word.greatest := by
      rw [hn]
      exact room
    rw [turns_of_course course' hroom, turns_of_course course room, hq, ha, hn]

/-- The quantum is three ticks, and the clock is armed when one tick has passed.  Timeouts are set
    that are due before the mark, with it and behind it, and the clock is armed again; the quanta
    end three and six ticks after the first arming.  Without all that they end at the same ticks. -/
theorem Clock.quanta_in_phase_of_third : ∃ es es' d d',
    Course Dispatcher.clock (.create ⟨3, 4096, ⟨1⟩⟩) es (Dispatcher.clock d) ∧
    Course Dispatcher.clock (.create ⟨3, 0, ⟨7⟩⟩) es' (Dispatcher.clock d') ∧
    armedAt es = some 1 ∧ turns es = [false, false, false, true, false, false, true] ∧
    turns es' = turns es ∧ d.clock.expires = Clock.phase 3 (some 1) 8 := by
  have course := (Dispatcher.course_episodes
    (show (Dispatcher.performAll
      ⟨founded ⟨3, 4096, ⟨1⟩⟩ (.create ⟨2⟩ 4096), .create ⟨3, 4096, ⟨1⟩⟩⟩
      [.addTimer 4 7, .tick, .addTimer 2 8, .arm, .addTimer 4 9, .tick, .arm, .tick,
        .addTimer 5 6, .tick, .tick, .tick, .arm, .tick]).outcome = .ok (_, _)
      from rfl)).map Dispatcher.clock
  have bare := (Dispatcher.course_episodes
    (show (Dispatcher.performAll
      ⟨founded ⟨3, 4096, ⟨1⟩⟩ (.create ⟨2⟩ 4096), .create ⟨3, 0, ⟨7⟩⟩⟩
      [.tick, .arm, .tick, .tick, .tick, .tick, .tick, .tick]).outcome = .ok (_, _)
      from rfl)).map Dispatcher.clock
  obtain ⟨-, answered, alike⟩ := Clock.quanta_in_phase course (by decide)
  obtain ⟨c, s, done⟩ := answered (by decide) (by decide)
    (founded ⟨3, 4096, ⟨1⟩⟩ (.create ⟨2⟩ 4096))
  exact ⟨_, _, _, _, course, bare, rfl, rfl, alike _ _ _ bare rfl rfl rfl,
    (clock_of_tick done).1.symm⟩

end Courses

end PreemptiveKernel
