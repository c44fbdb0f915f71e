/-
  What the clock keeps, to the last entry.

  The alarms are one entry that is never reached, one mark if the clock is armed and none if it is
  not, and the timeouts that have been added and have not fired; nothing else is ever kept, and no
  two of them have the same number.  So there is always something left to look at, and what is
  pending is counted by leaving out one entry, without looking which (`Clock.Inventory`).

  The entry that is never reached is due at the last tick of all, and a timeout or a mark may be
  due then as well.  It is left in any case, because the service ends there.  The crux is the mark:
  it must not be left behind when its tick has come.  What is due before the last tick stands before
  the entry that is never reached, so the service would have come to it; and what is due at the last
  tick is never overdue (`intact_ticked`).

  What is kept is a law of one move (`Moves.intact`), and so is what comes in and goes out
  (`timeouts_after`); over a course both go by induction.  Whether a call is answered at all is a
  matter of the sums that it makes, and of nothing else (`answers_iff_room`).
-/
import PreemptiveKernel.Proofs.Phase
import PreemptiveKernel.Proofs.TimeoutOrder

namespace PreemptiveKernel

open Run Scheduler Clock

/-- Of a list without duplicates that is made of two others, the second one is what is not found
    in the first one. -/
theorem rest_perm {α : Type} [DecidableEq α] {xs ys zs : List α} (h : (xs ++ ys).Perm zs)
    (nodup : zs.Nodup) : ys.Perm (zs.filter fun x => !xs.contains x) := by
  obtain ⟨-, -, hdisjoint⟩ := List.nodup_append.mp (h.nodup_iff.mpr nodup)
  have hfirst : xs.filter (fun x => !xs.contains x) = [] := by
    refine List.filter_eq_nil_iff.mpr fun x hx => ?_
    rw [List.contains_iff_mem.mpr hx]
    exact Bool.false_ne_true
  have hsecond : ys.filter (fun x => !xs.contains x) = ys := by
    refine List.filter_eq_self.mpr fun x hx => ?_
    rw [Bool.not_eq_true', ← Bool.not_eq_true, List.contains_iff_mem]
    exact fun hin => hdisjoint x hin x hx rfl
  have hfilter := h.filter fun x => !xs.contains x
  rw [List.filter_append, hfirst, hsecond] at hfilter
  exact hfilter

/-! ## The kinds of entries -/

namespace Alarm

/-- The entry that is never reached. -/
def sentinel : Alarm :=
  ⟨Word.greatest, 0, .never⟩

/-- The alarm is never reached. -/
def unreached (a : Alarm) : Bool :=
  decide (a.kind = .never)

/-- The timeout that the alarm is, if it is one. -/
def timeout? (a : Alarm) : Option Timeout :=
  match a.kind with
  | .timeout value => some ⟨a.due, a.seq, value⟩
  | _ => none

theorem unreached_of_marks {a : Alarm} (h : a.marks = true) : a.unreached = false := by
  have hkind : a.kind = .quantum := of_decide_eq_true h
  unfold unreached
  rw [hkind]
  rfl

theorem timeout?_of_marks {a : Alarm} (h : a.marks = true) : a.timeout? = none := by
  have hkind : a.kind = .quantum := of_decide_eq_true h
  unfold timeout?
  rw [hkind]

end Alarm

namespace Clock

variable {c c' : Clock} {a : Alarm} {alarms : List Alarm} {now : Nat}

/-- The timeouts among the alarms. -/
def timeouts (alarms : List Alarm) : List Timeout :=
  alarms.filterMap Alarm.timeout?

/-- Every alarm is of one of the three kinds. -/
theorem length_eq_kinds (alarms : List Alarm) : alarms.length =
    (alarms.filter Alarm.unreached).length + alarms.countP Alarm.marks +
      (timeouts alarms).length := by
  induction alarms with
  | nil => rfl
  | cons a rest ih =>
    obtain ⟨due, seq, kind⟩ := a
    cases kind with
    | never =>
      show rest.length + 1 = (rest.filter Alarm.unreached).length + 1 +
        rest.countP Alarm.marks + (timeouts rest).length
      omega
    | quantum =>
      have hmarks : (⟨due, seq, .quantum⟩ :: rest : List Alarm).countP Alarm.marks =
          rest.countP Alarm.marks + 1 := List.countP_cons_of_pos rfl
      rw [hmarks]
      show rest.length + 1 = (rest.filter Alarm.unreached).length +
        (rest.countP Alarm.marks + 1) + (timeouts rest).length
      omega
    | timeout value =>
      have hmarks : (⟨due, seq, .timeout value⟩ :: rest : List Alarm).countP Alarm.marks =
          rest.countP Alarm.marks := List.countP_cons_of_neg Bool.false_ne_true
      rw [hmarks]
      show rest.length + 1 = (rest.filter Alarm.unreached).length +
        rest.countP Alarm.marks + ((timeouts rest).length + 1)
      omega

/-! ## A new alarm -/

/-- A new alarm does not show among alarms of another kind. -/
theorem filter_place {p : Alarm → Bool} (h : p a = false) (alarms : List Alarm) :
    (place a alarms).filter p = alarms.filter p := by
  induction alarms with
  | nil => exact List.filter_cons_of_neg (Bool.eq_false_iff.mp h)
  | cons b rest ih =>
    unfold place
    split
    · exact List.filter_cons_of_neg (Bool.eq_false_iff.mp h)
    · rw [List.filter_cons, List.filter_cons, ih]

theorem timeouts_place (a : Alarm) (alarms : List Alarm) :
    (timeouts (place a alarms)).Perm (a.timeout?.toList ++ timeouts alarms) :=
  filterMap_place Alarm.timeout? a alarms

theorem numbers_place (a : Alarm) (alarms : List Alarm) :
    ((place a alarms).map Alarm.seq).Perm (a.seq :: alarms.map Alarm.seq) :=
  (place_perm a alarms).map Alarm.seq

/-! ## Service -/

/-- What is served does not show among the alarms that are never reached. -/
theorem filter_unreached_serve (now : Nat) (alarms : List Alarm) :
    (serve now alarms).left.filter Alarm.unreached = alarms.filter Alarm.unreached := by
  obtain ⟨mark, -, hmarks, hsplit⟩ := serve_split now alarms
  have hfired : ((serve now alarms).fired.map Timeout.alarm).filter Alarm.unreached = [] := by
    refine List.filter_eq_nil_iff.mpr fun a ha => ?_
    obtain ⟨t, -, rfl⟩ := List.mem_map.mp ha
    exact Bool.false_ne_true
  have hmark : mark.toList.filter Alarm.unreached = [] := by
    refine List.filter_eq_nil_iff.mpr fun a ha => ?_
    rw [Alarm.unreached_of_marks (hmarks a (Option.mem_toList.mp ha))]
    exact Bool.false_ne_true
  conv => rhs; rw [hsplit]
  rw [List.filter_append, List.filter_append, hfired, hmark]
  rfl

/-- A timeout fires or is left. -/
theorem timeouts_serve (now : Nat) (alarms : List Alarm) :
    (serve now alarms).fired ++ timeouts (serve now alarms).left = timeouts alarms := by
  have hfired : ((serve now alarms).fired.map Timeout.alarm).filterMap Alarm.timeout? =
      (serve now alarms).fired := by
    rw [List.filterMap_map]
    exact List.filterMap_some
  unfold timeouts
  rw [filterMap_serve (fun _ => Alarm.timeout?_of_marks) now alarms, hfired]

/-- A service that no mark ends goes on to what is not due, or is never reached. -/
theorem head_left (now : Nat) (alarms : List Alarm)
    (running : (serve now alarms).expired = false) :
    ∀ a ∈ (serve now alarms).left.head?, now < a.due ∨ a.unreached = true := by
  induction alarms with
  | nil =>
    intro a ha
    cases ha
  | cons b rest ih =>
    obtain ⟨due, seq, kind⟩ := b
    unfold serve at running ⊢
    by_cases hnow : now < due
    · rw [if_pos hnow]
      intro a ha
      obtain rfl := Option.some.inj ha
      exact .inl hnow
    · rw [if_neg hnow] at running ⊢
      cases kind with
      | never =>
        intro a ha
        obtain rfl := Option.some.inj ha
        exact .inr rfl
      | quantum => cases running
      | timeout value => exact ih running

/-! ## What every move keeps -/

/-- **The alarms are intact.** -/
structure Intact (c : Clock) : Prop where
  /-- One of them is never reached, and it is the first one that was numbered. -/
  sentinel : c.alarms.filter Alarm.unreached = [Alarm.sentinel]
  /-- No two have the same number. -/
  numbers : (c.alarms.map Alarm.seq).Nodup
  /-- The quantum has not ended, and ends within a quantum. -/
  mark : ∀ a ∈ c.alarms, a.marks = true → c.now ≤ a.due ∧ a.due ≤ c.now + c.config.quantum

theorem intact_create (config : Config) : (create config).Intact where
  sentinel := rfl
  numbers := List.pairwise_singleton _ _
  mark := by
    intro a ha hmarks
    obtain rfl := List.mem_singleton.mp ha
    nomatch hmarks

/-- Nothing else is never reached. -/
theorem Intact.eq_sentinel (h : c.Intact) (ha : a ∈ c.alarms) (never : a.unreached = true) :
    a = Alarm.sentinel := by
  have hin : a ∈ c.alarms.filter Alarm.unreached := List.mem_filter.mpr ⟨ha, never⟩
  rw [h.sentinel] at hin
  exact List.mem_singleton.mp hin

/-- What is never reached is left by every tick. -/
theorem Intact.spared (h : c.Intact) : Alarm.sentinel ∈ c.ticked.alarms := by
  have hleft : c.ticked.alarms.filter Alarm.unreached = [Alarm.sentinel] :=
    (filter_unreached_serve _ _).trans h.sentinel
  have hin : Alarm.sentinel ∈ c.ticked.alarms.filter Alarm.unreached := by
    rw [hleft]
    exact List.mem_singleton_self _
  exact (List.mem_filter.mp hin).1

theorem intact_put {due : Nat} {kind : AlarmKind} (h : c.Intact)
    (fresh : ∀ a ∈ c.alarms, a.seq < c.nextSeq) (real : kind ≠ .never)
    (mark : kind = .quantum → c.now ≤ due ∧ due ≤ c.now + c.config.quantum) :
    (c.put due kind).Intact where
  sentinel := (filter_place (decide_eq_false real) _).trans h.sentinel
  numbers := by
    refine (numbers_place _ _).nodup_iff.mpr (List.nodup_cons.mpr ⟨?_, h.numbers⟩)
    intro hin
    obtain ⟨b, hb, hseq⟩ := List.mem_map.mp hin
    exact absurd hseq (Nat.ne_of_lt (fresh b hb))
  mark := by
    intro a ha hmarks
    rcases mem_place.mp ha with rfl | hin
    · exact mark (of_decide_eq_true hmarks)
    · exact h.mark a hin hmarks

/-- **A tick leaves the alarms intact**, up to the last tick of all. -/
theorem intact_ticked (hc : c.Orderly) (h : c.Intact) (room : c.now + 1 < Word.bound) :
    c.ticked.Intact where
  sentinel := (filter_unreached_serve _ _).trans h.sentinel
  numbers := h.numbers.sublist ((left_sublist _ _).map Alarm.seq)
  mark := by
    intro a ha hmarks
    have hin : a ∈ c.alarms := mem_of_left ha
    have hgreatest : Word.greatest + 1 = Word.bound := by decide
    obtain ⟨-, hnear⟩ := h.mark a hin hmarks
    refine ⟨?_, show a.due ≤ c.now + 1 + c.config.quantum by omega⟩
    show c.now + 1 ≤ a.due
    refine Nat.le_of_not_lt fun hdue => ?_
    -- it is due, and stands before what is never reached, so it would have been served
    have hnever : ∀ b ∈ c.alarms, b.kind = .never → a.Before b := by
      intro b hb hkind
      refine .inl ?_
      rw [hc.never b hb hkind]
      omega
    rcases served_of_due hc.sorted hin (Nat.le_of_lt hdue) hnever with hserved | ⟨ended, -⟩
    · exact hserved ha
    · -- and if a quantum has ended, no mark is left
      have hnone := hc.left_marks ended
      exact absurd hmarks (List.countP_eq_zero.mp hnone a ha)

/-- **The law of one move**: the alarms stay intact. -/
theorem Moves.intact {fired : List Timeout} {ended : Bool} (h : Moves c fired ended c')
    (hc : c.Orderly) (hi : c.Intact) (room : c'.now < Word.bound) : c'.Intact := by
  cases h with
  | still => exact hi
  | added due value => exact intact_put hi hc.numbered nofun nofun
  | armed idle =>
    refine intact_put (c := { c with armed := true }) ⟨hi.sentinel, hi.numbers, hi.mark⟩
      hc.numbered nofun fun _ => ⟨Nat.le_add_right _ _, Nat.le_refl _⟩
  | ticked running => exact intact_ticked hc hi room
  | expired ended =>
    obtain ⟨hsentinel, hnumbers, hmark⟩ := intact_ticked hc hi room
    refine intact_put (c := { c.ticked with armed := true }) ⟨hsentinel, hnumbers, hmark⟩
      (hc.left_numbered _) nofun fun _ => ⟨Nat.le_add_right _ _, Nat.le_refl _⟩

/-! ## What comes in and what goes out -/

/-- The timeouts that are added when this is asked. -/
def additions (c : Clock) : Request → List Timeout
  | .addTimer due value => [⟨due, c.nextSeq, value⟩]
  | _ => []

/-- **The law of one request**: the timeouts that are kept after it, and those that fire at it,
    are those that were kept before and those that are added. -/
theorem timeouts_after (d : Dispatcher) (r : Request) :
    (d.fired r ++ timeouts (d.clock.after r).alarms).Perm
      (timeouts d.clock.alarms ++ d.clock.additions r) := by
  have hmark : ∀ c : Clock, (timeouts c.marked.alarms).Perm (timeouts c.alarms) :=
    fun c => timeouts_place ⟨c.now + c.config.quantum, c.nextSeq, .quantum⟩ c.alarms
  cases r with
  | addTimer due value =>
    refine (timeouts_place ⟨due, d.clock.nextSeq, .timeout value⟩ d.clock.alarms).trans ?_
    exact List.perm_append_comm
  | arm =>
    show (timeouts d.clock.wound.alarms).Perm (timeouts d.clock.alarms ++ [])
    rw [List.append_nil]
    unfold wound
    split
    · exact List.Perm.refl _
    · exact hmark d.clock
  | tick | timerInterrupt =>
    show (d.clock.fires ++ timeouts d.clock.passed.alarms).Perm (timeouts d.clock.alarms ++ [])
    have hserve : d.clock.fires ++ timeouts d.clock.ticked.alarms = timeouts d.clock.alarms :=
      timeouts_serve (d.clock.now + 1) d.clock.alarms
    rw [List.append_nil, ← hserve]
    refine List.Perm.append_left _ ?_
    unfold passed
    split
    · exact hmark d.clock.ticked
    · exact List.Perm.refl _
  | _ =>
    show (timeouts d.clock.alarms).Perm (timeouts d.clock.alarms ++ [])
    rw [List.append_nil]

end Clock

/-! ## Courses -/

namespace Episode

variable {e : Episode} {x : Timeout}

/-- The timeouts that are added in the episode. -/
def additions (e : Episode) : List Timeout :=
  e.before.clock.additions e.request

theorem mem_additions : x ∈ e.additions ↔ e.Adds x := by
  unfold additions Adds
  cases e.request with
  | addTimer due value =>
    constructor
    · intro hx
      obtain rfl := List.mem_singleton.mp hx
      exact ⟨rfl, rfl⟩
    · rintro ⟨asked, hseq⟩
      obtain ⟨rfl, rfl⟩ := Request.addTimer.inj asked
      exact List.mem_singleton.mpr (hseq ▸ rfl)
  | _ => exact ⟨nofun, fun h => nomatch h.1⟩

theorem nodup_additions (e : Episode) : e.additions.Nodup := by
  unfold additions
  cases e.request with
  | addTimer due value => exact List.pairwise_singleton _ _
  | _ => exact List.nodup_nil

/-- The ticks are words. -/
theorem now_lt (e : Episode) (h : e.before.clock.now < Word.bound) :
    e.after.clock.now < Word.bound := by
  rw [e.now_eq]
  cases hticks : e.request.ticks with
  | true =>
    obtain ⟨s, done⟩ := e.tick_of_ticks hticks
    obtain ⟨now, hnow, -⟩ := outcome_bind_eq_ok_iff.mp done
    exact (Word.add_eq_ok_iff.mp hnow).1
  | false => exact h

theorem ledger (e : Episode) : (e.fired ++ timeouts e.after.clock.alarms).Perm
    (timeouts e.before.clock.alarms ++ e.additions) := by
  rw [Dispatcher.clock_eq e.done]
  exact timeouts_after e.before e.request

end Episode

/-- The timeouts that have been added in these episodes and have not fired in them. -/
def outstanding (es : List Episode) : List Timeout :=
  (es.flatMap Episode.additions).filter fun x => !(es.flatMap Episode.fired).contains x

section Courses

variable {c c' : Clock} {es : List Episode} {config : Config}

/-- **The alarms are intact** after every course, and the ticks are words. -/
theorem intact_of_course (course : Course Dispatcher.clock (.create config) es c) :
    c.Intact ∧ c.now < Word.bound := by
  induction course with
  | nil => exact ⟨intact_create config, show 0 < Word.bound by decide⟩
  | @snoc es e earlier ih =>
    obtain ⟨hintact, hnow⟩ := ih
    have horderly := (orderly_of_course (orderly_create config) earlier).1
    exact ⟨e.moves.intact horderly hintact (e.now_lt hnow), e.now_lt hnow⟩

/-- **The ledger of a course**: what fires in it and what is kept at its end is what was kept at
    its beginning and what is added in it. -/
theorem ledger_of_course (course : Course Dispatcher.clock c es c') :
    (es.flatMap Episode.fired ++ timeouts c'.alarms).Perm
      (timeouts c.alarms ++ es.flatMap Episode.additions) := by
  induction course with
  | nil => exact List.perm_append_comm
  | @snoc es e earlier ih =>
    rw [List.flatMap_append, List.flatMap_singleton, List.flatMap_append, List.flatMap_singleton,
      List.append_assoc, ← List.append_assoc (timeouts c.alarms)]
    refine (e.ledger.append_left _).trans ?_
    rw [← List.append_assoc]
    exact ih.append_right _

/-- No timeout is added twice. -/
theorem additions_nodup (course : Course Dispatcher.clock c es c') :
    (es.flatMap Episode.additions).Nodup ∧
    ∀ x ∈ es.flatMap Episode.additions, x.seq < c'.nextSeq := by
  induction course with
  | nil => exact ⟨List.nodup_nil, nofun⟩
  | @snoc es e earlier ih =>
    obtain ⟨hnodup, hnumbered⟩ := ih
    rw [List.flatMap_append, List.flatMap_singleton]
    constructor
    · refine List.nodup_append.mpr ⟨hnodup, e.nodup_additions, ?_⟩
      rintro x hx y hy rfl
      exact absurd (Episode.mem_additions.mp hy).2 (Nat.ne_of_lt (hnumbered x hx))
    · intro x hx
      rcases List.mem_append.mp hx with hin | hin
      · exact Nat.lt_of_lt_of_le (hnumbered x hin) e.moves.frame.2.2
      · rw [(Episode.mem_additions.mp hin).after.2]
        exact Nat.lt_succ_self _

/-- **What is kept besides the mark** is what has been added and has not fired. -/
theorem outstanding_perm (course : Course Dispatcher.clock (.create config) es c) :
    (timeouts c.alarms).Perm (outstanding es) :=
  rest_perm (ledger_of_course course) (additions_nodup course).1

end Courses

/-! ## The scan of a tick -/

/-- **The scan of a tick** pops a first part of the alarms and leaves the rest. -/
structure Episode.Scans (e : Episode) (popped left : List Alarm) : Prop where
  /-- It pops from the front. -/
  front : e.before.clock.alarms = popped ++ left
  /-- It pops the timeouts that fire, and behind them the mark if a quantum ends. -/
  served : ∃ mark : Option Alarm, popped = e.fired.map Timeout.alarm ++ mark.toList ∧
    mark.isSome = e.expired ∧ ∀ a ∈ mark, a.marks = true
  /-- What it pops is due. -/
  due : ∀ a ∈ popped, a.due ≤ e.after.clock.now
  /-- It pops nothing twice. -/
  once : popped.Nodup
  /-- It ends at a mark, at what is not due, or at what is never reached. -/
  ends : e.expired = false → ∀ a ∈ left.head?, e.after.clock.now < a.due ∨ a = Alarm.sentinel
  /-- What is never reached is left. -/
  spared : Alarm.sentinel ∈ left
  /-- What is left is kept. -/
  kept : e.expired = false → e.after.clock.alarms = left
  /-- If a quantum ends, a mark for the next one is put to it. -/
  rearmed : e.expired = true → e.after.clock.alarms =
    place ⟨e.after.clock.now + e.before.clock.config.quantum, e.before.clock.nextSeq, .quantum⟩ left
  /-- The number of this mark is new, so it is none of what has been popped. -/
  fresh : ∀ a ∈ popped, a.seq < e.before.clock.nextSeq

/-- What a tick pops is due. -/
theorem Clock.due_of_served {c : Clock} {mark : Option Alarm} {a : Alarm} (hc : c.Orderly)
    (hmark : mark.isSome = c.expires) (hmarks : ∀ b ∈ mark, b.marks = true)
    (kept : ∀ b ∈ mark, b ∈ c.alarms) (ha : a ∈ c.fires.map Timeout.alarm ++ mark.toList) :
    a.due ≤ c.now + 1 := by
  rcases List.mem_append.mp ha with hin | hin
  · obtain ⟨t, ht, rfl⟩ := List.mem_map.mp hin
    exact due_le_of_fired ht
  · -- the mark at which the service ends is the only one
    have hsome : a ∈ mark := Option.mem_toList.mp hin
    have hexpired : c.expires = true :=
      hmark.symm.trans (Option.isSome_iff_exists.mpr ⟨a, hsome⟩)
    obtain ⟨b, hb, hbmarks, hdue⟩ := due_of_expired hexpired
    obtain rfl := hc.mark_unique hb (kept a hsome) hbmarks (hmarks a hsome)
    exact hdue

/-- **Every tick is such a scan.** -/
theorem Episode.scans {e : Episode} (hc : e.before.clock.Orderly) (hi : e.before.clock.Intact)
    (ticks : e.request.ticks = true) : ∃ popped left, e.Scans popped left := by
  obtain ⟨s, done⟩ := e.tick_of_ticks ticks
  obtain ⟨hended, hafter⟩ := clock_of_tick done
  have hnow : e.after.clock.now = e.before.clock.now + 1 := by
    rw [e.now_eq, ticks]
    rfl
  obtain ⟨mark, hmark, hmarks, hsplit⟩ :=
    serve_split (e.before.clock.now + 1) e.before.clock.alarms
  have hfront : e.before.clock.alarms =
      (e.fired.map Timeout.alarm ++ mark.toList) ++ e.before.clock.ticked.alarms := by
    rw [fired_eq ticks, List.append_assoc]
    exact hsplit
  have hpopped : ∀ a ∈ e.fired.map Timeout.alarm ++ mark.toList, a ∈ e.before.clock.alarms := by
    intro a ha
    rw [hfront]
    exact List.mem_append_left _ ha
  refine ⟨_, _, hfront, ⟨mark, rfl, hmark.trans hended.symm, hmarks⟩, ?due, ?once, ?ends,
    hi.spared, ?kept, ?rearmed, fun a ha => hc.numbered a (hpopped a ha)⟩
  case due =>
    intro a ha
    rw [fired_eq ticks] at ha hpopped
    rw [hnow]
    refine due_of_served hc hmark hmarks (fun b hb => hpopped b ?_) ha
    exact List.mem_append_right _ (Option.mem_toList.mpr hb)
  case once =>
    have hnodup := nodup_of_sorted hc.sorted
    rw [hfront] at hnodup
    exact (List.nodup_append.mp hnodup).1
  case ends =>
    intro running a ha
    rw [hnow]
    rcases head_left _ _ (hended.symm.trans running) a ha with hahead | hnever
    · exact .inl hahead
    · exact .inr (hi.eq_sentinel (mem_of_left (List.mem_of_mem_head? ha)) hnever)
  case kept =>
    intro running
    rw [hafter, passed, ← hended, running]
    rfl
  case rearmed =>
    intro ended
    rw [hnow, hafter, passed, ← hended, ended]
    rfl

/-! ## Calls -/

namespace Clock

variable {c : Clock} {s : Scheduler}

/-- **A call of the clock is answered if its sums fit**, and only then. -/
theorem answers_iff_room {r : Request} (asked : r.ofClock = true) :
    (∃ p, (Dispatcher.perform ⟨s, c⟩ r).outcome = .ok p) ↔ c.Room r := by
  cases r with
  | addTimer due value =>
    refine Iff.trans ?_ (push_answers_iff due (.timeout value))
    constructor
    · rintro ⟨p, done⟩
      obtain ⟨c', hpush, -⟩ := outcome_bind_eq_ok_iff.mp done
      exact ⟨c', hpush⟩
    · rintro ⟨c', hpush⟩
      exact ⟨_, outcome_bind_eq_ok_iff.mpr ⟨c', hpush, rfl⟩⟩
  | arm =>
    refine Iff.trans ?_ arm_answers_iff
    constructor
    · rintro ⟨p, done⟩
      obtain ⟨c', harm, -⟩ := outcome_bind_eq_ok_iff.mp done
      exact ⟨c', harm⟩
    · rintro ⟨c', harm⟩
      exact ⟨_, outcome_bind_eq_ok_iff.mpr ⟨c', harm, rfl⟩⟩
  | tick =>
    refine Iff.trans ?_ (tick_answers_iff (s := s))
    constructor
    · rintro ⟨p, done⟩
      obtain ⟨q, htick, -⟩ := outcome_bind_eq_ok_iff.mp done
      exact ⟨q, htick⟩
    · rintro ⟨q, htick⟩
      exact ⟨_, outcome_bind_eq_ok_iff.mpr ⟨q, htick, rfl⟩⟩
  | _ => nomatch asked

/-! ## The inventory -/

/-- **What the clock keeps** when the episodes `es` have passed. -/
structure Inventory (config : Config) (es : List Episode) (c : Clock) : Prop where
  /-- One alarm is never reached: the first one that was added, due at the last tick of all. -/
  sentinel : c.alarms.filter Alarm.unreached = [Alarm.sentinel]
  /-- If the clock is armed, one alarm marks the end of a quantum, which has not ended and ends
      within a quantum. -/
  armed : c.armed = true → ∃ mark, c.alarms.filter Alarm.marks = [mark] ∧
    c.now ≤ mark.due ∧ mark.due ≤ c.now + config.quantum
  /-- If it is not armed, none does. -/
  idle : c.armed = false → c.alarms.filter Alarm.marks = []
  /-- The others are the timeouts that have been added and have not fired. -/
  timeouts : (timeouts c.alarms).Perm (outstanding es)
  /-- What has been added has fired or is outstanding. -/
  balance : (es.flatMap Episode.fired).length + (outstanding es).length =
    (es.flatMap Episode.additions).length
  /-- No two alarms have the same number. -/
  distinct : (c.alarms.map Alarm.seq).Nodup
  /-- Their numbers are below the next one. -/
  numbered : ∀ a ∈ c.alarms, a.seq < c.nextSeq
  /-- There is always one alarm to leave out when the pending ones are counted. -/
  counted : Word.sub c.alarms.length 1 = .ok c.pending
  /-- What is pending are the outstanding timeouts, and the mark if there is one. -/
  pending : c.pending = (outstanding es).length + c.armed.toNat
  /-- Every tick scans a first part of the alarms, and spares the one that is never reached. -/
  scans : ∀ e ∈ es, e.request.ticks = true → ∃ popped left, e.Scans popped left
  /-- The next call is answered if its sums fit, whatever the scheduler is. -/
  answers : ∀ s r, r.ofClock = true →
    ((∃ p, (Dispatcher.perform ⟨s, c⟩ r).outcome = .ok p) ↔ c.Room r)

/-- **The inventory of the clock.**  Take any course of a clock from its beginning, whatever its
    quantum is, whatever is asked in it and whatever schedulers it serves. -/
theorem alarms_inventoried {config : Config} {es : List Episode}
    (course : Course Dispatcher.clock (.create config) es c) : c.Inventory config es := by
  obtain ⟨hc, hconfig, -⟩ := orderly_of_course (orderly_create config) course
  obtain ⟨hi, -⟩ := intact_of_course course
  have hperm := outstanding_perm course
  have hmarks : (c.alarms.filter Alarm.marks).length = c.armed.toNat := by
    rw [← List.countP_eq_length_filter]
    exact hc.marks
  have hlength : c.alarms.length = 1 + c.armed.toNat + (outstanding es).length := by
    rw [length_eq_kinds, hi.sentinel, hc.marks, hperm.length_eq]
    rfl
  have hpending : c.pending = (outstanding es).length + c.armed.toNat := by
    unfold pending
    omega
  constructor
  case sentinel => exact hi.sentinel
  case armed =>
    intro armed
    rw [armed, Bool.toNat_true] at hmarks
    obtain ⟨mark, hmark⟩ := List.length_eq_one_iff.mp hmarks
    have hin : mark ∈ c.alarms.filter Alarm.marks := hmark ▸ List.mem_cons_self
    obtain ⟨hkept, hquantum⟩ := List.mem_filter.mp hin
    have hnear := hi.mark mark hkept hquantum
    rw [hconfig] at hnear
    exact ⟨mark, hmark, hnear⟩
  case idle =>
    intro idle
    rw [idle, Bool.toNat_false] at hmarks
    exact List.eq_nil_of_length_eq_zero hmarks
  case timeouts => exact hperm
  case balance =>
    rw [← hperm.length_eq, ← List.length_append]
    exact (ledger_of_course course).length_eq
  case distinct => exact hi.numbers
  case numbered => exact hc.numbered
  case counted => exact Word.sub_of_le (by omega)
  case pending => exact hpending
  case scans =>
    intro e he ticks
    obtain ⟨pre, before⟩ := course.before_of_mem he
    exact Episode.scans (orderly_of_course (orderly_create config) before).1
      (intact_of_course before).1 ticks
  case answers => exact fun s r asked => answers_iff_room asked

/-- A timeout is due at the last tick of all, like what is never reached, and stands behind it.  The
    clock is armed twice; another timeout fires, the quantum ends, and the next mark is set. -/
theorem alarms_inventoried_at_last_tick : ∃ es d,
    Course Dispatcher.clock (.create ⟨2, 4096, ⟨1⟩⟩) es (Dispatcher.clock d) ∧
    es.map Episode.response =
      [.done, .done, .done, .done, .expired false, .expired true, .done] ∧
    d.clock.alarms = [⟨4, 4, .quantum⟩, ⟨5, 5, .timeout 9⟩, Alarm.sentinel,
      ⟨Word.greatest, 1, .timeout 7⟩] ∧
    d.clock.alarms.filter Alarm.unreached = [Alarm.sentinel] ∧
    outstanding es = [⟨Word.greatest, 1, 7⟩, ⟨5, 5, 9⟩] ∧
    d.clock.pending = 2 + true.toNat ∧
    (∃ p, (Dispatcher.perform d .tick).outcome = .ok p) := by
  have course := (Dispatcher.course_episodes
    (show (Dispatcher.performAll
      ⟨founded ⟨2, 4096, ⟨1⟩⟩ (.create ⟨2⟩ 4096), .create ⟨2, 4096, ⟨1⟩⟩⟩
      [.addTimer Word.greatest 7, .arm, .addTimer 1 8, .arm, .tick, .tick,
        .addTimer 5 9]).outcome = .ok (_, _) from rfl)).map Dispatcher.clock
  have law := Clock.alarms_inventoried course
  exact ⟨_, _, course, rfl, rfl, law.sentinel, rfl, law.pending,
    (law.answers _ .tick rfl).mpr ⟨by decide, fun _ => ⟨by decide, by decide⟩⟩⟩

end Clock

end PreemptiveKernel
