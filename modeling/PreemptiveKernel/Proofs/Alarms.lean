/-
  The order of the alarms, and what a tick makes of it.

  The alarms stand in the order in which they are served, and no two have the same place in it.
  At most one of them marks the end of a quantum, and the clock knows whether there is one
  (`Orderly`).  A tick serves a first part of them: timeouts that are due, and perhaps the mark
  behind them, which ends the service (`serve_split`).  So an alarm that is due is served by this
  tick, unless the service ends at a mark that stands before it (`served_of_due`); for a timeout
  this means that it fires (`mem_fired`).

  Whatever is asked of a dispatcher, its clock stays as it is, takes in one alarm, or passes one
  tick (`Moves`).  This is so with every scheduler, also with one that nobody would set up.
-/
import PreemptiveKernel.Proofs.Courses

namespace PreemptiveKernel

open Run

/-! ## The order -/

namespace Alarm

theorem Before.trans {a b c : Alarm} (h : a.Before b) (h' : b.Before c) : a.Before c := by
  unfold Before at *
  omega

theorem Before.irrefl (a : Alarm) : ¬ a.Before a := by
  unfold Before
  omega

theorem Before.due_le {a b : Alarm} (h : a.Before b) : a.due ≤ b.due := by
  unfold Before at h
  omega

/-- An alarm that was added later and is not due earlier stands behind. -/
theorem before_of_added {a b : Alarm} (hdue : a.due ≤ b.due) (hseq : a.seq < b.seq) :
    a.Before b := by
  unfold Before
  omega

theorem before_or_after {a b : Alarm} (h : a.seq ≠ b.seq) : a.Before b ∨ b.Before a := by
  unfold Before
  omega

/-- The alarm marks the end of a quantum. -/
def marks (a : Alarm) : Bool :=
  decide (a.kind = .quantum)

end Alarm

/-- The alarm that a timeout was before it came due. -/
def Timeout.alarm (t : Timeout) : Alarm :=
  ⟨t.due, t.seq, .timeout t.value⟩

theorem Timeout.alarm_inj {t u : Timeout} (h : t.alarm = u.alarm) : t = u := by
  cases t
  cases u
  simpa [alarm] using h

namespace Clock

variable {c : Clock} {a : Alarm} {alarms : List Alarm}

theorem nodup_of_sorted (h : alarms.Pairwise Alarm.Before) : alarms.Nodup :=
  h.imp (by rintro a b hab rfl; exact Alarm.Before.irrefl a hab)

/-- **A new alarm finds its place**, and the order stays. -/
theorem sorted_place (h : alarms.Pairwise Alarm.Before) (fresh : ∀ b ∈ alarms, b.seq < a.seq) :
    (place a alarms).Pairwise Alarm.Before := by
  induction alarms with
  | nil => exact List.pairwise_singleton _ _
  | cons b rest ih =>
    obtain ⟨hb, hrest⟩ := List.pairwise_cons.mp h
    unfold place
    split
    · rename_i hab
      refine List.pairwise_cons.mpr ⟨?_, h⟩
      intro x hx
      rcases List.mem_cons.mp hx with rfl | hin
      · exact hab
      · exact hab.trans (hb x hin)
    · rename_i hab
      have hne : a.seq ≠ b.seq := Nat.ne_of_gt (fresh b List.mem_cons_self)
      have hba : b.Before a := (Alarm.before_or_after hne).resolve_left hab
      refine List.pairwise_cons.mpr ⟨?_, ih hrest fun x hx => fresh x (List.mem_cons_of_mem _ hx)⟩
      intro x hx
      rcases mem_place.mp hx with rfl | hin
      · exact hba
      · exact hb x hin

/-! ## Service -/

/-- **What is served is a first part of the alarms**: timeouts, and behind them the mark at
    which the service ends. -/
theorem serve_split (now : Nat) (alarms : List Alarm) :
    ∃ mark : Option Alarm, mark.isSome = (serve now alarms).expired ∧
      (∀ a ∈ mark, a.marks = true) ∧
      alarms = (serve now alarms).fired.map Timeout.alarm ++
        (mark.toList ++ (serve now alarms).left) := by
  induction alarms with
  | nil => exact ⟨none, rfl, nofun, rfl⟩
  | cons a rest ih =>
    obtain ⟨mark, hexpired, hmarks, hsplit⟩ := ih
    obtain ⟨due, seq, kind⟩ := a
    unfold serve
    by_cases hnow : now < due
    · rw [if_pos hnow]
      exact ⟨none, rfl, nofun, rfl⟩
    · rw [if_neg hnow]
      cases kind with
      | never => exact ⟨none, rfl, nofun, rfl⟩
      | quantum =>
        refine ⟨some ⟨due, seq, .quantum⟩, rfl, ?_, rfl⟩
        intro a ha
        obtain rfl := Option.some.inj ha
        rfl
      | timeout value => exact ⟨mark, hexpired, hmarks, congrArg (_ :: ·) hsplit⟩

/-- Nothing fires before it is due. -/
theorem due_le_of_fired {now : Nat} {x : Timeout} (h : x ∈ (serve now alarms).fired) :
    x.due ≤ now := by
  induction alarms with
  | nil => nomatch h
  | cons a rest ih =>
    obtain ⟨due, seq, kind⟩ := a
    unfold serve at h
    by_cases hnow : now < due
    · rw [if_pos hnow] at h
      nomatch h
    · rw [if_neg hnow] at h
      cases kind with
      | never => nomatch h
      | quantum => nomatch h
      | timeout value =>
        rcases List.mem_cons.mp h with rfl | hin
        · exact Nat.not_lt.mp hnow
        · exact ih hin

/-- What is left has been among the alarms, in the same order. -/
theorem left_sublist (now : Nat) (alarms : List Alarm) :
    (serve now alarms).left.Sublist alarms := by
  obtain ⟨mark, -, -, hsplit⟩ := serve_split now alarms
  conv => rhs; rw [hsplit]
  exact (List.sublist_append_right _ _).trans (List.sublist_append_right _ _)

theorem left_sorted (now : Nat) (h : alarms.Pairwise Alarm.Before) :
    (serve now alarms).left.Pairwise Alarm.Before :=
  h.sublist (left_sublist now alarms)

theorem mem_of_left {now : Nat} (h : a ∈ (serve now alarms).left) : a ∈ alarms :=
  (left_sublist now alarms).mem h

/-- **What is due is served**, unless the service ends at a mark that stands before it. -/
theorem served_of_due {now : Nat} (sorted : alarms.Pairwise Alarm.Before) (ha : a ∈ alarms)
    (due : a.due ≤ now) (never : ∀ b ∈ alarms, b.kind = .never → a.Before b) :
    a ∉ (serve now alarms).left ∨
    (serve now alarms).expired = true ∧ ∃ b ∈ alarms, b.marks = true ∧ b.Before a := by
  induction alarms with
  | nil => nomatch ha
  | cons b rest ih =>
    obtain ⟨hfirst, hrest⟩ := List.pairwise_cons.mp sorted
    -- the first alarm is the one in question or stands before it, so it is due as well
    have hle : b = a ∨ b.Before a := by
      rcases List.mem_cons.mp ha with rfl | hin
      · exact .inl rfl
      · exact .inr (hfirst _ hin)
    have hnotafter : ¬ a.Before b := by
      rintro hafter
      rcases hle with rfl | hbefore
      · exact Alarm.Before.irrefl _ hafter
      · exact Alarm.Before.irrefl _ (hbefore.trans hafter)
    have hdue : ¬ now < b.due := by
      rcases hle with rfl | hbefore
      · exact Nat.not_lt.mpr due
      · exact Nat.not_lt.mpr (Nat.le_trans hbefore.due_le due)
    have hgone : b = a → a ∉ rest := by
      rintro rfl hin
      exact Alarm.Before.irrefl _ (hfirst _ hin)
    obtain ⟨d, q, kind⟩ := b
    unfold serve
    rw [if_neg hdue]
    cases kind with
    | never => exact absurd (never _ List.mem_cons_self rfl) hnotafter
    | quantum =>
      rcases hle with heq | hbefore
      · exact .inl (hgone heq)
      · exact .inr ⟨rfl, _, List.mem_cons_self, rfl, hbefore⟩
    | timeout value =>
      rcases List.mem_cons.mp ha with heq | hin
      · exact .inl fun hleft => hgone heq.symm (mem_of_left hleft)
      · rcases ih hrest hin fun b hb => never b (List.mem_cons_of_mem _ hb) with
          hserved | ⟨hexpired, b, hb, hmarks, hbefore⟩
        · exact .inl hserved
        · exact .inr ⟨hexpired, b, List.mem_cons_of_mem _ hb, hmarks, hbefore⟩

/-- **What is due fires**, unless the service ends at a mark that stands before it. -/
theorem mem_fired {now : Nat} {x : Timeout} (sorted : alarms.Pairwise Alarm.Before)
    (hx : x.alarm ∈ alarms) (due : x.due ≤ now)
    (never : ∀ a ∈ alarms, a.kind = .never → x.alarm.Before a)
    (mark : (serve now alarms).expired = true →
      ∀ a ∈ alarms, a.marks = true → x.alarm.Before a) :
    x ∈ (serve now alarms).fired := by
  have hserved : x.alarm ∉ (serve now alarms).left := by
    rcases served_of_due sorted hx due never with hleft | ⟨hexpired, b, hb, hmarks, hbefore⟩
    · exact hleft
    · exact absurd (hbefore.trans (mark hexpired b hb hmarks)) (Alarm.Before.irrefl b)
  obtain ⟨m, -, hm, hsplit⟩ := serve_split now alarms
  rw [hsplit] at hx
  rcases List.mem_append.mp hx with hfired | hlater
  · obtain ⟨t, ht, htx⟩ := List.mem_map.mp hfired
    exact Timeout.alarm_inj htx ▸ ht
  · rcases List.mem_append.mp hlater with hmark | hleft
    · -- a timeout is no mark
      exact absurd (hm _ (Option.mem_toList.mp hmark)) Bool.false_ne_true
    · exact absurd hleft hserved

/-- A mark that is not served is kept. -/
theorem mark_left {now : Nat} (ha : a ∈ alarms) (marks : a.marks = true)
    (running : (serve now alarms).expired = false) : a ∈ (serve now alarms).left := by
  obtain ⟨m, hexpired, -, hsplit⟩ := serve_split now alarms
  rw [running, Option.isSome_eq_false_iff, Option.isNone_iff_eq_none] at hexpired
  rw [hsplit, hexpired] at ha
  rcases List.mem_append.mp ha with hfired | hleft
  · obtain ⟨t, -, rfl⟩ := List.mem_map.mp hfired
    nomatch marks
  · exact hleft

/-- The mark at which the service ends is due. -/
theorem due_of_expired {now : Nat} (h : (serve now alarms).expired = true) :
    ∃ a ∈ alarms, a.marks = true ∧ a.due ≤ now := by
  induction alarms with
  | nil => nomatch h
  | cons b rest ih =>
    obtain ⟨d, q, kind⟩ := b
    unfold serve at h
    by_cases hnow : now < d
    · rw [if_pos hnow] at h
      nomatch h
    · rw [if_neg hnow] at h
      cases kind with
      | never => nomatch h
      | quantum => exact ⟨_, List.mem_cons_self, rfl, Nat.not_lt.mp hnow⟩
      | timeout value =>
        obtain ⟨a, ha, hmarks, hdue⟩ := ih h
        exact ⟨a, List.mem_cons_of_mem _ ha, hmarks, hdue⟩

/-- A timeout fires or is kept. -/
theorem count_serve (now : Nat) (alarms : List Alarm) (x : Timeout) :
    (serve now alarms).fired.count x + (serve now alarms).left.count x.alarm =
      alarms.count x.alarm := by
  obtain ⟨mark, -, hmarks, hsplit⟩ := serve_split now alarms
  have hfired : ((serve now alarms).fired.map Timeout.alarm).count x.alarm =
      (serve now alarms).fired.count x := by
    rw [List.count_eq_countP, List.countP_map, List.count_eq_countP]
    congr 1
    funext t
    exact Bool.eq_iff_iff.mpr (by simpa using ⟨Timeout.alarm_inj, congrArg Timeout.alarm⟩)
  have hmark : mark.toList.count x.alarm = 0 := by
    rw [List.count_eq_zero]
    intro hx
    exact absurd (hmarks _ (Option.mem_toList.mp hx)) Bool.false_ne_true
  conv => rhs; rw [hsplit]
  rw [List.count_append, List.count_append, hfired, hmark, Nat.zero_add]

/-- The mark at which the service ends is used up. -/
theorem countP_marks_serve (now : Nat) (alarms : List Alarm) :
    (serve now alarms).expired.toNat + (serve now alarms).left.countP Alarm.marks =
      alarms.countP Alarm.marks := by
  obtain ⟨mark, hexpired, hmarks, hsplit⟩ := serve_split now alarms
  have hfired : ((serve now alarms).fired.map Timeout.alarm).countP Alarm.marks = 0 := by
    rw [List.countP_map, List.countP_eq_zero]
    intro t _
    exact Bool.false_ne_true
  have hmark : mark.toList.countP Alarm.marks = (serve now alarms).expired.toNat := by
    rw [← hexpired]
    cases mark with
    | none => rfl
    | some a => simp [hmarks a rfl]
  conv => rhs; rw [hsplit]
  rw [List.countP_append, List.countP_append, hfired, hmark, Nat.zero_add]

/-! ## What is picked out of the alarms -/

section Picking

variable {β : Type}

theorem filterMap_place (f : Alarm → Option β) (a : Alarm) (alarms : List Alarm) :
    ((place a alarms).filterMap f).Perm ((f a).toList ++ alarms.filterMap f) := by
  refine ((place_perm a alarms).filterMap f).trans ?_
  cases hpicked : f a with
  | none =>
    rw [List.filterMap_cons_none hpicked]
    exact List.Perm.refl _
  | some x =>
    rw [List.filterMap_cons_some hpicked]
    exact List.Perm.refl _

/-- What is picked out of the alarms, and not for being a mark, stands among those that fire or
    among those that are left. -/
theorem filterMap_serve {f : Alarm → Option β} (h : ∀ a, a.marks = true → f a = none)
    (now : Nat) (alarms : List Alarm) : alarms.filterMap f =
      ((serve now alarms).fired.map Timeout.alarm).filterMap f ++
        (serve now alarms).left.filterMap f := by
  obtain ⟨mark, -, hmarks, hsplit⟩ := serve_split now alarms
  have hmark : mark.toList.filterMap f = [] := by
    refine List.filterMap_eq_nil_iff.mpr fun a ha => ?_
    exact h a (hmarks a (Option.mem_toList.mp ha))
  conv => lhs; rw [hsplit]
  rw [List.filterMap_append, List.filterMap_append, hmark, List.nil_append]

end Picking

/-! ## Moves -/

/-- The clock with one alarm more. -/
def put (c : Clock) (due : Nat) (kind : AlarmKind) : Clock :=
  { c with nextSeq := c.nextSeq + 1, alarms := place ⟨due, c.nextSeq, kind⟩ c.alarms }

/-- The clock with a mark at the end of a quantum that begins now. -/
def marked (c : Clock) : Clock :=
  { c with armed := true }.put (c.now + c.config.quantum) .quantum

/-- The clock a tick later, before the next quantum is set. -/
def ticked (c : Clock) : Clock :=
  { c with now := c.now + 1, alarms := (serve (c.now + 1) c.alarms).left }

theorem push_eq {c' : Clock} {due : Nat} {kind : AlarmKind} (h : c.push due kind = .ok c') :
    c' = c.put due kind := by
  unfold push at h
  rcases hadd : Word.add c.nextSeq 1 with stop | next
  · rw [hadd] at h
    nomatch h
  · rw [hadd] at h
    obtain rfl := (Word.add_eq_ok_iff.mp hadd).2
    exact (Except.ok.inj h).symm

theorem setQuantum_eq {c' : Clock} (h : c.setQuantum = .ok c') : c' = c.marked := by
  unfold setQuantum at h
  rcases hadd : Word.add c.now c.config.quantum with stop | due
  · rw [hadd] at h
    nomatch h
  · rw [hadd] at h
    obtain rfl := (Word.add_eq_ok_iff.mp hadd).2
    exact push_eq h

/-- **What can happen to a clock**, with the timeouts that fire and whether a quantum ends. -/
inductive Moves (c : Clock) : List Timeout → Bool → Clock → Prop
  /-- It stays as it is. -/
  | still : Moves c [] false c
  /-- A timeout is added. -/
  | added (due : Nat) (value : Int32) : Moves c [] false (c.put due (.timeout value))
  /-- The end of a quantum is set. -/
  | armed (idle : c.armed = false) : Moves c [] false c.marked
  /-- A tick passes. -/
  | ticked (running : c.expires = false) : Moves c c.fires false c.ticked
  /-- A tick passes, at which a quantum ends and the next one begins. -/
  | expired (ended : c.expires = true) : Moves c c.fires true c.ticked.marked

/-- **The alarms are in order.** -/
structure Orderly (c : Clock) : Prop where
  /-- They stand in the order of service. -/
  sorted : c.alarms.Pairwise Alarm.Before
  /-- Their numbers have been given out. -/
  numbered : ∀ a ∈ c.alarms, a.seq < c.nextSeq
  /-- What is never to happen is due at the last tick. -/
  never : ∀ a ∈ c.alarms, a.kind = .never → a.due = Word.greatest
  /-- There is at most one mark, and the clock knows of it. -/
  marks : c.alarms.countP Alarm.marks = c.armed.toNat

theorem orderly_create (config : Config) : (create config).Orderly where
  sorted := List.pairwise_singleton _ _
  numbered := by simp [create]
  never := by simp [create]
  marks := rfl

/-- A clock takes in one alarm more. -/
theorem orderly_put {due : Nat} {kind : AlarmKind} (armed : Bool)
    (sorted : c.alarms.Pairwise Alarm.Before) (numbered : ∀ a ∈ c.alarms, a.seq < c.nextSeq)
    (never : ∀ a ∈ c.alarms, a.kind = .never → a.due = Word.greatest) (real : kind ≠ .never)
    (marks : c.alarms.countP Alarm.marks + (decide (kind = .quantum)).toNat = armed.toNat) :
    ({ c with armed := armed }.put due kind).Orderly where
  sorted := sorted_place sorted numbered
  numbered := by
    intro a ha
    rcases mem_place.mp ha with rfl | hin
    · exact Nat.lt_succ_self _
    · exact Nat.lt_succ_of_lt (numbered a hin)
  never := by
    intro a ha hnever
    rcases mem_place.mp ha with rfl | hin
    · exact absurd hnever real
    · exact never a hin hnever
  marks := by
    show (place _ c.alarms).countP Alarm.marks = armed.toNat
    rw [(place_perm _ _).countP_eq, List.countP_cons, ← marks]
    show _ + (if decide (kind = .quantum) = true then 1 else 0) = _
    cases decide (kind = .quantum) with
    | true => rfl
    | false => rfl

theorem Orderly.left_numbered (h : c.Orderly) (now : Nat) :
    ∀ a ∈ (serve now c.alarms).left, a.seq < c.nextSeq :=
  fun a ha => h.numbered a (mem_of_left ha)

theorem Orderly.left_never (h : c.Orderly) (now : Nat) :
    ∀ a ∈ (serve now c.alarms).left, a.kind = .never → a.due = Word.greatest :=
  fun a ha => h.never a (mem_of_left ha)

/-- When a quantum has ended, the only mark has been used up. -/
theorem Orderly.left_marks (h : c.Orderly) (ended : c.expires = true) :
    c.ticked.alarms.countP Alarm.marks = 0 := by
  have hserve := countP_marks_serve (c.now + 1) c.alarms
  have hexpired : (serve (c.now + 1) c.alarms).expired = true := ended
  have hone := Bool.toNat_le c.armed
  rw [hexpired, Bool.toNat_true, h.marks] at hserve
  show (serve (c.now + 1) c.alarms).left.countP Alarm.marks = 0
  omega

/-- **Every move keeps the order.** -/
theorem Moves.orderly {c' : Clock} {fired : List Timeout} {ended : Bool} (hc : c.Orderly)
    (h : Moves c fired ended c') : c'.Orderly := by
  cases h with
  | still => exact hc
  | added due value =>
    exact orderly_put c.armed hc.sorted hc.numbered hc.never nofun hc.marks
  | armed idle =>
    refine orderly_put true hc.sorted hc.numbered hc.never nofun ?_
    rw [hc.marks, idle]
    rfl
  | ticked running =>
    refine ⟨left_sorted _ hc.sorted, hc.left_numbered _, hc.left_never _, ?_⟩
    have hserve := countP_marks_serve (c.now + 1) c.alarms
    have hexpired : (serve (c.now + 1) c.alarms).expired = false := running
    rw [hexpired, Bool.toNat_false, Nat.zero_add, hc.marks] at hserve
    exact hserve
  | expired ended =>
    refine orderly_put (c := c.ticked) true (left_sorted _ hc.sorted) (hc.left_numbered _)
      (hc.left_never _) nofun ?_
    rw [hc.left_marks ended]
    rfl

theorem count_put (due : Nat) (kind : AlarmKind) (h : a.seq < c.nextSeq) :
    (c.put due kind).alarms.count a = c.alarms.count a := by
  have hne : ¬ (Alarm.mk due c.nextSeq kind == a) = true := by
    rw [beq_iff_eq]
    rintro rfl
    exact Nat.lt_irrefl _ h
  show (place _ c.alarms).count a = c.alarms.count a
  rw [(place_perm _ _).count_eq, List.count_cons, if_neg hne, Nat.add_zero]

/-- **Timeouts are conserved**: one that has been added fires or is kept. -/
theorem Moves.count {c' : Clock} {fired : List Timeout} {ended : Bool}
    (h : Moves c fired ended c') {x : Timeout} (hx : x.seq < c.nextSeq) :
    fired.count x + c'.alarms.count x.alarm = c.alarms.count x.alarm := by
  cases h with
  | still => exact Nat.zero_add _
  | added due value => exact (Nat.zero_add _).trans (count_put due _ hx)
  | armed idle =>
    refine (Nat.zero_add _).trans ?_
    exact count_put (c := { c with armed := true }) _ _ hx
  | ticked running => exact count_serve (c.now + 1) c.alarms x
  | expired ended =>
    have hput : c.ticked.marked.alarms.count x.alarm = c.ticked.alarms.count x.alarm :=
      count_put (c := { c.ticked with armed := true }) _ _ hx
    rw [hput]
    exact count_serve (c.now + 1) c.alarms x

theorem Moves.frame {c' : Clock} {fired : List Timeout} {ended : Bool}
    (h : Moves c fired ended c') :
    c'.config = c.config ∧ c.now ≤ c'.now ∧ c.nextSeq ≤ c'.nextSeq := by
  cases h with
  | still => exact ⟨rfl, Nat.le_refl _, Nat.le_refl _⟩
  | added | armed => exact ⟨rfl, Nat.le_refl _, Nat.le_succ _⟩
  | ticked => exact ⟨rfl, Nat.le_succ _, Nat.le_refl _⟩
  | expired => exact ⟨rfl, Nat.le_succ _, Nat.le_succ _⟩

/-- The clock when a tick has passed. -/
def passed (c : Clock) : Clock :=
  if c.expires then c.ticked.marked else c.ticked

/-- What a tick comes to for the clock. -/
theorem clock_of_tick {c' : Clock} {s s' : Scheduler} {ended : Bool}
    (done : (c.tick s).outcome = .ok (ended, c', s')) : ended = c.expires ∧ c' = c.passed := by
  unfold tick at done
  obtain ⟨now, hnow, hrest⟩ := outcome_bind_eq_ok_iff.mp done
  obtain rfl := (Word.add_eq_ok_iff.mp hnow).2
  obtain ⟨s₁, -, hserved⟩ := outcome_bind_eq_ok_iff.mp hrest
  have hexpires : (serve (c.now + 1) c.alarms).expired = c.expires := rfl
  rw [hexpires] at hserved
  unfold passed
  cases hended : c.expires with
  | true =>
    rw [hended] at hserved
    obtain ⟨c₁, hset, hpure⟩ := outcome_bind_eq_ok_iff.mp hserved
    obtain rfl := setQuantum_eq hset
    cases hpure
    exact ⟨rfl, rfl⟩
  | false =>
    rw [hended] at hserved
    cases hserved
    exact ⟨rfl, rfl⟩

theorem moves_passed (c : Clock) : Moves c c.fires c.expires c.passed := by
  unfold passed
  cases hended : c.expires with
  | true => exact .expired hended
  | false => exact .ticked hended

/-- The clock when the end of a quantum is set. -/
def wound (c : Clock) : Clock :=
  if c.armed then c else c.marked

/-- What arming comes to. -/
theorem clock_of_arm {c' : Clock} (done : c.arm.outcome = .ok c') : c' = c.wound := by
  unfold arm at done
  unfold wound
  split at done
  · rename_i armed
    cases done
    rw [if_pos armed]
  · rename_i idle
    rw [if_neg idle]
    exact setQuantum_eq done

theorem moves_wound (c : Clock) : Moves c [] false c.wound := by
  unfold wound
  split
  · exact .still
  · rename_i idle
    exact .armed (Bool.not_eq_true _ ▸ idle)

end Clock

open Clock

/-! ## Requests -/

/-- A timer interrupt is a tick and, at the end of a quantum, the end of a turn. -/
theorem Interrupt.parts_of_onTimer {c c' : Clock} {s s' : Scheduler} {change : Option Handoff}
    (done : (Interrupt.onTimer c s).outcome = .ok (change, c', s')) :
    ∃ ended s₁, (c.tick s).outcome = .ok (ended, c', s₁) ∧
      (ended = false ∧ s' = s₁ ∨
        ended = true ∧ s₁.switchTask.outcome = .ok (change, s')) := by
  obtain ⟨⟨ended, c₁, s₁⟩, htick, hrest⟩ := outcome_bind_eq_ok_iff.mp done
  obtain ⟨-, -, hlast⟩ := outcome_bind_eq_ok_iff.mp hrest
  cases ended with
  | false =>
    cases hlast
    exact ⟨false, _, htick, .inl ⟨rfl, rfl⟩⟩
  | true =>
    obtain ⟨⟨change', s₂⟩, hswitch, hnoted⟩ := outcome_bind_eq_ok_iff.mp hlast
    refine ⟨true, s₁, ?_⟩
    cases change' with
    | none =>
      cases hnoted
      exact ⟨htick, .inr ⟨rfl, hswitch⟩⟩
    | some h =>
      obtain ⟨u, -, hpure⟩ := outcome_bind_eq_ok_iff.mp hnoted
      cases hpure
      exact ⟨htick, .inr ⟨rfl, hswitch⟩⟩

/-- The request lets a tick pass. -/
def Request.ticks : Request → Bool
  | .tick | .timerInterrupt => true
  | _ => false

/-- The timeouts that fire when this is asked. -/
def Dispatcher.fired (d : Dispatcher) (r : Request) : List Timeout :=
  if r.ticks then d.clock.fires else []

/-- A tick passes when this is asked, and a quantum ends at it. -/
def Dispatcher.expired (d : Dispatcher) (r : Request) : Bool :=
  r.ticks && d.clock.expires

/-- The clock when this has been asked. -/
def Clock.after (c : Clock) : Request → Clock
  | .addTimer due value => c.put due (.timeout value)
  | .arm => c.wound
  | .tick | .timerInterrupt => c.passed
  | _ => c

/-- **What a request does to the clock** depends on the clock alone. -/
theorem Dispatcher.clock_eq {d d' : Dispatcher} {r : Request} {response : Response}
    (done : (d.perform r).outcome = .ok (response, d')) : d'.clock = d.clock.after r := by
  cases r with
  | addTimer due value =>
    obtain ⟨c, hpush, hpure⟩ := outcome_bind_eq_ok_iff.mp done
    obtain rfl := push_eq hpush
    cases hpure
    rfl
  | arm =>
    obtain ⟨c, harm, hpure⟩ := outcome_bind_eq_ok_iff.mp done
    cases hpure
    exact clock_of_arm harm
  | tick =>
    obtain ⟨⟨ended, c, s⟩, htick, hpure⟩ := outcome_bind_eq_ok_iff.mp done
    cases hpure
    exact (clock_of_tick htick).2
  | timerInterrupt =>
    obtain ⟨⟨change, c, s⟩, hirq, hpure⟩ := outcome_bind_eq_ok_iff.mp done
    obtain ⟨ended, s₁, htick, -⟩ := Interrupt.parts_of_onTimer hirq
    cases hpure
    exact (clock_of_tick htick).2
  | receive id =>
    cases done
    rfl
  | drain id =>
    cases done
    rfl
  | _ =>
    -- the others leave the clock to itself
    obtain ⟨p, -, hpure⟩ := outcome_bind_eq_ok_iff.mp done
    cases hpure
    rfl

/-- **Every request is a move of the clock.** -/
theorem Dispatcher.moves {d d' : Dispatcher} {r : Request} {response : Response}
    (done : (d.perform r).outcome = .ok (response, d')) :
    Moves d.clock (d.fired r) (d.expired r) d'.clock := by
  rw [Dispatcher.clock_eq done]
  cases r with
  | addTimer due value => exact .added due value
  | arm => exact moves_wound d.clock
  | tick | timerInterrupt => exact moves_passed d.clock
  | _ => exact .still

end PreemptiveKernel
