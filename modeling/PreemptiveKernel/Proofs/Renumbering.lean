/-
  Timeouts with different ticks may be set in any order.

  An alarm is given a number when it is added, and the numbers tell which of two alarms that are
  due at the same tick was added first.  So when timeouts are set in another order, their numbers
  are others, and two clocks that have parted in this way are never equal again.  But numbers are
  all that they differ in (`Clock.Alike`), and nothing that a clock does depends on the numbers of
  what it keeps: a new alarm has the greatest number of all, so it goes in front of the first one
  that is due later (`plain_place`).  Two such places do not depend on each other if the ticks are
  different (`slot_comm`), whatever else is due at the same ticks.

  Alike clocks answer alike, with every scheduler and for every request (`perform_alike`), and so
  they stay alike.
-/
import Mathlib.Data.List.Forall2
import PreemptiveKernel.Proofs.Timeouts

namespace PreemptiveKernel

open Run Clock

/-! ## Runs that are related -/

section Related

variable {ω α β γ δ : Type}

/-- Two runs show the same, and both stop for the same reason or come to related values. -/
inductive Run.Related (R : α → β → Prop) : Run ω α → Run ω β → Prop
  | ok {a : α} {b : β} (trace : List ω) (related : R a b) : Related R ⟨trace, .ok a⟩ ⟨trace, .ok b⟩
  | stopped (trace : List ω) (s : Stop) : Related R ⟨trace, .error s⟩ ⟨trace, .error s⟩

namespace Run

variable {R : α → β → Prop} {S : γ → δ → Prop} {x : Run ω α} {y : Run ω β}

theorem related_refl {R : α → α → Prop} (h : ∀ a, R a a) (x : Run ω α) : x.Related R x := by
  obtain ⟨trace, outcome⟩ := x
  cases outcome with
  | error s => exact .stopped trace s
  | ok a => exact .ok trace (h a)

theorem related_pure {a : α} {b : β} (h : R a b) : (pure a : Run ω α).Related R (pure b) :=
  .ok [] h

theorem Related.trans {R : α → α → Prop} (transitive : ∀ a b c, R a b → R b c → R a c)
    {x y z : Run ω α} (h : x.Related R y) (h' : y.Related R z) : x.Related R z := by
  cases h with
  | ok trace related =>
    cases h' with
    | ok _ related' => exact .ok trace (transitive _ _ _ related related')
  | stopped trace s =>
    cases h'
    exact .stopped trace s

/-- Related runs end alike. -/
theorem Related.ends (h : x.Related R y) :
    (∃ a b, x.outcome = .ok a ∧ y.outcome = .ok b ∧ R a b) ∨
    ∃ s, x.outcome = .error s ∧ y.outcome = .error s := by
  cases h with
  | ok trace related => exact .inl ⟨_, _, rfl, rfl, related⟩
  | stopped trace s => exact .inr ⟨s, rfl, rfl⟩

/-- What goes on from related values in related ways is related. -/
theorem Related.bind {f : α → Run ω γ} {g : β → Run ω δ} (h : x.Related R y)
    (hfg : ∀ a b, R a b → (f a).Related S (g b)) : (x >>= f).Related S (y >>= g) := by
  cases h with
  | stopped trace s => exact .stopped trace s
  | ok trace related =>
    have later := hfg _ _ related
    rw [bind_of_ok rfl, bind_of_ok rfl]
    generalize f _ = fa at later
    generalize g _ = gb at later
    cases later with
    | ok more related' => exact .ok _ related'
    | stopped more s => exact .stopped _ s

/-- What goes on in related ways after the same beginning is related. -/
theorem related_bind_same {f : α → Run ω γ} {g : α → Run ω δ} (x : Run ω α)
    (hfg : ∀ a, (f a).Related S (g a)) : (x >>= f).Related S (x >>= g) :=
  (related_refl (fun _ => rfl) x).bind (by rintro a _ rfl; exact hfg a)

theorem Related.map {f : α → γ} {g : β → δ} (h : x.Related R y)
    (hfg : ∀ a b, R a b → S (f a) (g b)) : (f <$> x).Related S (g <$> y) := by
  cases h with
  | ok trace related => exact .ok trace (hfg _ _ related)
  | stopped trace s => exact .stopped trace s

/-- Where related values cannot be told apart, the runs cannot. -/
theorem Related.map_eq {f : α → γ} {g : β → γ} (h : x.Related R y)
    (hfg : ∀ a b, R a b → f a = g b) : f <$> x = g <$> y := by
  cases h with
  | ok trace related => exact congrArg (fun c => (⟨trace, .ok c⟩ : Run ω γ)) (hfg _ _ related)
  | stopped trace s => rfl

end Run

end Related

/-! ## Alarms without numbers -/

/-- What an alarm is but for its number. -/
def Alarm.plain (a : Alarm) : Nat × AlarmKind :=
  (a.due, a.kind)

namespace Clock

variable {c c' : Clock} {alarms alarms' : List Alarm}

/-- Puts an alarm without a number in front of the first one that is due later. -/
def slot (x : Nat × AlarmKind) : List (Nat × AlarmKind) → List (Nat × AlarmKind)
  | [] => [x]
  | y :: rest => if x.1 < y.1 then x :: y :: rest else y :: slot x rest

theorem slot_cons_of_lt {x y : Nat × AlarmKind} (h : x.1 < y.1) (rest : List (Nat × AlarmKind)) :
    slot x (y :: rest) = x :: y :: rest :=
  if_pos h

theorem slot_cons_of_le {x y : Nat × AlarmKind} (h : y.1 ≤ x.1) (rest : List (Nat × AlarmKind)) :
    slot x (y :: rest) = y :: slot x rest :=
  if_neg (Nat.not_lt.mpr h)

/-- **The place of a new alarm does not depend on the numbers.** -/
theorem plain_place {a : Alarm} (fresh : ∀ b ∈ alarms, b.seq < a.seq) :
    (place a alarms).map Alarm.plain = slot a.plain (alarms.map Alarm.plain) := by
  induction alarms with
  | nil => rfl
  | cons b rest ih =>
    have hb := fresh b List.mem_cons_self
    rw [List.map_cons, place]
    split
    · rename_i before
      -- the new number is greater, so it does not help among what is due at the same tick
      have hdue : a.due < b.due := by
        unfold Alarm.Before at before
        omega
      rw [slot_cons_of_lt hdue]
      rfl
    · rename_i behind
      have hdue : b.due ≤ a.due := by
        unfold Alarm.Before at behind
        omega
      rw [slot_cons_of_le hdue, List.map_cons, ih fun x hx => fresh x (List.mem_cons_of_mem _ hx)]

theorem slot_comm_of_lt {x y : Nat × AlarmKind} (h : x.1 < y.1)
    (entries : List (Nat × AlarmKind)) : slot x (slot y entries) = slot y (slot x entries) := by
  induction entries with
  | nil =>
    show slot x [y] = slot y [x]
    rw [slot_cons_of_lt h, slot_cons_of_le (Nat.le_of_lt h)]
    rfl
  | cons z rest ih =>
    rcases Nat.lt_or_ge x.1 z.1 with hx | hx
    · -- the earlier one goes to the front, and the later one behind it in either order
      rw [slot_cons_of_lt hx, slot_cons_of_le (Nat.le_of_lt h)]
      rcases Nat.lt_or_ge y.1 z.1 with hy | hy
      · rw [slot_cons_of_lt hy, slot_cons_of_lt h]
      · rw [slot_cons_of_le hy, slot_cons_of_lt hx]
    · have hy : z.1 ≤ y.1 := Nat.le_trans hx (Nat.le_of_lt h)
      rw [slot_cons_of_le hx, slot_cons_of_le hy, slot_cons_of_le hx, slot_cons_of_le hy, ih]

/-- **Alarms with different ticks find their places in any order**, whether or not what is there
    is in order. -/
theorem slot_comm {x y : Nat × AlarmKind} (h : x.1 ≠ y.1) (entries : List (Nat × AlarmKind)) :
    slot x (slot y entries) = slot y (slot x entries) := by
  rcases Nat.lt_or_gt_of_ne h with hxy | hyx
  · exact slot_comm_of_lt hxy entries
  · exact (slot_comm_of_lt hyx entries).symm

/-! ## Clocks that are alike -/

/-- **Two clocks differ in the numbers of their alarms at most.** -/
structure Alike (c c' : Clock) : Prop where
  now : c.now = c'.now
  nextSeq : c.nextSeq = c'.nextSeq
  armed : c.armed = c'.armed
  config : c.config = c'.config
  /-- The same is to happen at the same ticks, in the same order. -/
  entries : c.alarms.map Alarm.plain = c'.alarms.map Alarm.plain
  /-- The numbers have been given out. -/
  numbered : ∀ a ∈ c.alarms, a.seq < c.nextSeq
  numbered' : ∀ a ∈ c'.alarms, a.seq < c'.nextSeq

namespace Alike

theorem refl (numbered : ∀ a ∈ c.alarms, a.seq < c.nextSeq) : c.Alike c :=
  ⟨rfl, rfl, rfl, rfl, rfl, numbered, numbered⟩

theorem trans {c'' : Clock} (h : c.Alike c') (h' : c'.Alike c'') : c.Alike c'' where
  now := h.now.trans h'.now
  nextSeq := h.nextSeq.trans h'.nextSeq
  armed := h.armed.trans h'.armed
  config := h.config.trans h'.config
  entries := h.entries.trans h'.entries
  numbered := h.numbered
  numbered' := h'.numbered'

theorem right (h : c.Alike c') : c'.Alike c' :=
  refl h.numbered'

theorem pending (h : c.Alike c') : c.pending = c'.pending := by
  have hlength := congrArg List.length h.entries
  rw [List.length_map, List.length_map] at hlength
  unfold Clock.pending
  rw [hlength]

end Alike

theorem numbered_put (numbered : ∀ a ∈ c.alarms, a.seq < c.nextSeq) (due : Nat)
    (kind : AlarmKind) : ∀ a ∈ (c.put due kind).alarms, a.seq < (c.put due kind).nextSeq := by
  intro a ha
  rcases mem_place.mp ha with rfl | hin
  · exact Nat.lt_succ_self _
  · exact Nat.lt_succ_of_lt (numbered a hin)

theorem plain_put (numbered : ∀ a ∈ c.alarms, a.seq < c.nextSeq) (due : Nat) (kind : AlarmKind) :
    (c.put due kind).alarms.map Alarm.plain = slot (due, kind) (c.alarms.map Alarm.plain) :=
  plain_place numbered

/-- Alike clocks that take in the same are alike. -/
theorem Alike.put (h : c.Alike c') (due : Nat) (kind : AlarmKind) :
    (c.put due kind).Alike (c'.put due kind) where
  now := h.now
  nextSeq := congrArg (· + 1) h.nextSeq
  armed := h.armed
  config := h.config
  entries := by rw [plain_put h.numbered, plain_put h.numbered', h.entries]
  numbered := numbered_put h.numbered due kind
  numbered' := numbered_put h.numbered' due kind

/-- **Alike clocks that take in two alarms with different ticks**, each in its own order, are
    alike. -/
theorem Alike.put_put (h : c.Alike c') {due due' : Nat} (distinct : due ≠ due')
    (kind kind' : AlarmKind) :
    ((c.put due kind).put due' kind').Alike ((c'.put due' kind').put due kind) where
  now := h.now
  nextSeq := congrArg (· + 2) h.nextSeq
  armed := h.armed
  config := h.config
  entries := by
    have first := numbered_put h.numbered due kind
    have first' := numbered_put h.numbered' due' kind'
    rw [plain_put first, plain_put h.numbered, plain_put first', plain_put h.numbered', h.entries]
    exact slot_comm distinct.symm _
  numbered := numbered_put (numbered_put h.numbered due kind) due' kind'
  numbered' := numbered_put (numbered_put h.numbered' due' kind') due kind

/-! ## What clocks do that are alike -/

/-- An alarm is added if there is a number left for it. -/
theorem push_eq_map (c : Clock) (due : Nat) (kind : AlarmKind) :
    c.push due kind = (Word.add c.nextSeq 1).map fun _ => c.put due kind := by
  unfold push
  rcases hadd : Word.add c.nextSeq 1 with stop | next
  · rfl
  · obtain rfl := (Word.add_eq_ok_iff.mp hadd).2
    rfl

theorem Alike.push (h : c.Alike c') (due : Nat) (kind : AlarmKind) :
    (ofExcept (c.push due kind) : Run Effect Clock).Related Alike
      (ofExcept (c'.push due kind)) := by
  rw [push_eq_map, push_eq_map, h.nextSeq]
  exact (related_refl (fun _ => rfl) (ofExcept _)).map fun _ _ _ => h.put due kind

theorem Alike.setQuantum (h : c.Alike c') :
    (ofExcept c.setQuantum : Run Effect Clock).Related Alike (ofExcept c'.setQuantum) := by
  have armed : ({ c with armed := true } : Clock).Alike { c' with armed := true } :=
    ⟨h.now, h.nextSeq, rfl, h.config, h.entries, h.numbered, h.numbered'⟩
  have due : Word.add c.now c.config.quantum = Word.add c'.now c'.config.quantum := by
    rw [h.now, h.config]
  unfold Clock.setQuantum
  rw [due]
  rcases Word.add c'.now c'.config.quantum with stop | due
  · exact .stopped [] stop
  · exact armed.push due .quantum

theorem Alike.arm (h : c.Alike c') : c.arm.Related Alike c'.arm := by
  unfold Clock.arm
  rw [h.armed]
  split
  · exact related_bind_same _ fun _ => related_pure h
  · exact h.setQuantum

/-- **What is served does not depend on the numbers.** -/
theorem serve_alike (now : Nat) (h : alarms.map Alarm.plain = alarms'.map Alarm.plain) :
    (serve now alarms).expired = (serve now alarms').expired ∧
    (serve now alarms).fired.map Timeout.message = (serve now alarms').fired.map Timeout.message ∧
    (serve now alarms).left.map Alarm.plain = (serve now alarms').left.map Alarm.plain := by
  induction alarms generalizing alarms' with
  | nil =>
    obtain rfl := List.map_eq_nil_iff.mp h.symm
    exact ⟨rfl, rfl, rfl⟩
  | cons a rest ih =>
    obtain ⟨a', rest', rfl, ha, hrest⟩ := List.map_eq_cons_iff.mp h.symm
    obtain ⟨due, seq, kind⟩ := a
    obtain ⟨due', seq', kind'⟩ := a'
    obtain ⟨rfl, rfl⟩ := Prod.mk.inj ha
    unfold serve
    by_cases hnow : now < due'
    · rw [if_pos hnow, if_pos hnow]
      exact ⟨rfl, rfl, h⟩
    · rw [if_neg hnow, if_neg hnow]
      cases kind' with
      | never => exact ⟨rfl, rfl, h⟩
      | quantum => exact ⟨rfl, rfl, hrest.symm⟩
      | timeout value =>
        obtain ⟨hexpired, hfired, hleft⟩ := ih hrest.symm
        exact ⟨hexpired, congrArg (_ :: ·) hfired, hleft⟩

/-- What is sent does not depend on the numbers. -/
theorem deliver_alike (receiver : TaskId) {fired fired' : List Timeout}
    (h : fired.map Timeout.message = fired'.map Timeout.message) (s : Scheduler) :
    deliver receiver fired s = deliver receiver fired' s := by
  induction fired generalizing fired' s with
  | nil =>
    obtain rfl := List.map_eq_nil_iff.mp h.symm
    rfl
  | cons t rest ih =>
    obtain ⟨t', rest', rfl, ht, hrest⟩ := List.map_eq_cons_iff.mp h.symm
    obtain ⟨hdue, hvalue⟩ := Message.timerTimeout.inj ht
    unfold deliver
    rw [hdue, hvalue]
    simp only [ih hrest.symm]

/-- **A tick of alike clocks** ends a quantum of both or of neither, does the same to the
    scheduler, and leaves them alike. -/
theorem Alike.tick (h : c.Alike c') (s : Scheduler) :
    (c.tick s).Related (fun p q => p.1 = q.1 ∧ p.2.1.Alike q.2.1 ∧ p.2.2 = q.2.2) (c'.tick s) := by
  unfold Clock.tick
  rw [h.now]
  refine related_bind_same _ fun now => ?_
  obtain ⟨hexpired, hfired, hleft⟩ := serve_alike now h.entries
  have served : ({ c with now := now, alarms := (serve now c.alarms).left } : Clock).Alike
      { c' with now := now, alarms := (serve now c'.alarms).left } :=
    ⟨rfl, h.nextSeq, h.armed, h.config, hleft, fun a ha => h.numbered a (mem_of_left ha),
      fun a ha => h.numbered' a (mem_of_left ha)⟩
  have sent : deliver c.config.receiver (serve now c.alarms).fired s =
      deliver c'.config.receiver (serve now c'.alarms).fired s := by
    rw [h.config]
    exact deliver_alike _ hfired s
  simp only [sent, hexpired]
  refine related_bind_same _ fun s => ?_
  split
  · exact served.setQuantum.bind fun _ _ set => related_pure ⟨rfl, set, rfl⟩
  · exact related_pure ⟨rfl, served, rfl⟩

end Clock

namespace Dispatcher

/-! ## What dispatchers do that are alike -/

/-- Two dispatchers have the same scheduler, and clocks that are alike. -/
structure Alike (d d' : Dispatcher) : Prop where
  scheduler : d.scheduler = d'.scheduler
  clock : d.clock.Alike d'.clock

/-- The same has been answered by dispatchers that are alike. -/
structure AnswersAlike {α : Type} (p q : α × Dispatcher) : Prop where
  answer : p.1 = q.1
  dispatcher : p.2.Alike q.2

variable {d d' : Dispatcher}

/-- A request that is for the scheduler alone. -/
theorem Alike.scheduler_answers (h : d.Alike d') {α : Type} (answer : α → Response)
    (x : Run Effect (α × Scheduler)) :
    (do let (a, s) ← x; pure (answer a, d.withScheduler s)).Related AnswersAlike
      (do let (a, s) ← x; pure (answer a, d'.withScheduler s)) :=
  related_bind_same x fun _ => related_pure ⟨rfl, rfl, h.clock⟩

/-- **Dispatchers that are alike answer alike**, and stay alike. -/
theorem Alike.perform (h : d.Alike d') (r : Request) :
    (d.perform r).Related AnswersAlike (d'.perform r) := by
  obtain ⟨s, c⟩ := d
  obtain ⟨s', c'⟩ := d'
  obtain rfl : s = s' := h.scheduler
  have clock : c.Alike c' := h.clock
  cases r with
  | newTask => exact h.scheduler_answers .task _
  | prepare => exact h.scheduler_answers (.ofAnswer .task) _
  | spawn => exact h.scheduler_answers (.ofAnswer .task) _
  | sleep => exact h.scheduler_answers (.ofAnswer .change) _
  | wakeup => exact h.scheduler_answers (.ofAnswer fun _ => .done) _
  | changeLevel => exact h.scheduler_answers (.ofAnswer fun _ => .done) _
  | switch => exact h.scheduler_answers .change _
  | send => exact h.scheduler_answers (.ofAnswer fun _ => .done) _
  | receive => exact related_pure ⟨rfl, rfl, clock⟩
  | receiveCurrent => exact h.scheduler_answers .message _
  | drain => exact related_pure ⟨rfl, rfl, clock⟩
  | wait => exact related_bind_same _ fun _ => related_pure ⟨rfl, rfl, clock⟩
  | addTimer due value =>
    exact (clock.push due (.timeout value)).bind fun _ _ added => related_pure ⟨rfl, rfl, added⟩
  | arm => exact clock.arm.bind fun _ _ armed => related_pure ⟨rfl, rfl, armed⟩
  | tick =>
    refine (clock.tick s).bind ?_
    rintro ⟨ended, c, s⟩ ⟨_, c', _⟩ ⟨rfl, ticked, rfl⟩
    exact related_pure ⟨rfl, rfl, ticked⟩
  | timerInterrupt =>
    have irq : (Interrupt.onTimer c s).Related
        (fun p q => p.1 = q.1 ∧ p.2.1.Alike q.2.1 ∧ p.2.2 = q.2.2) (Interrupt.onTimer c' s) := by
      refine (clock.tick s).bind ?_
      rintro ⟨ended, c, s⟩ ⟨_, c', _⟩ ⟨rfl, ticked, rfl⟩
      refine related_bind_same _ fun _ => ?_
      cases ended with
      | false => exact related_pure ⟨rfl, ticked, rfl⟩
      | true =>
        refine related_bind_same _ ?_
        rintro ⟨none | change, s⟩
        · exact related_pure ⟨rfl, ticked, rfl⟩
        · exact related_bind_same _ fun _ => related_pure ⟨rfl, ticked, rfl⟩
    refine irq.bind ?_
    rintro ⟨change, c, s⟩ ⟨_, c', _⟩ ⟨rfl, ticked, rfl⟩
    exact related_pure ⟨rfl, rfl, ticked⟩
  | deviceInterrupt => exact related_bind_same _ fun _ => related_pure ⟨rfl, rfl, clock⟩

/-- A history begins with what its first request comes to. -/
theorem AnswersAlike.cons (response : Response) {p q : List Response × Dispatcher}
    (h : AnswersAlike p q) :
    AnswersAlike (response :: p.1, p.2) (response :: q.1, q.2) :=
  ⟨congrArg (response :: ·) h.answer, h.dispatcher⟩

/-- **So it is with every history.** -/
theorem Alike.performAll (h : d.Alike d') (requests : List Request) :
    (d.performAll requests).Related AnswersAlike (d'.performAll requests) := by
  induction requests generalizing d d' with
  | nil => exact related_pure ⟨rfl, h⟩
  | cons r rest ih =>
    refine (h.perform r).bind ?_
    rintro ⟨response, d⟩ ⟨_, d'⟩ ⟨rfl, h⟩
    exact (ih h).map fun _ _ later => later.cons response

/-- Histories that go on alike. -/
theorem performAll_append_alike {xs xs' ys ys' : List Request}
    (h : (d.performAll xs).Related AnswersAlike (d'.performAll xs'))
    (later : ∀ {d d' : Dispatcher}, d.Alike d' →
      (d.performAll ys).Related AnswersAlike (d'.performAll ys')) :
    (d.performAll (xs ++ ys)).Related AnswersAlike (d'.performAll (xs' ++ ys')) := by
  rw [performAll_append, performAll_append]
  refine h.bind ?_
  rintro ⟨responses, d₁⟩ ⟨_, d₁'⟩ ⟨rfl, h⟩
  refine (later h).bind ?_
  rintro ⟨more, d₂⟩ ⟨_, d₂'⟩ ⟨rfl, h⟩
  exact related_pure ⟨rfl, h⟩

theorem Alike.right (h : d.Alike d') : d'.Alike d' :=
  ⟨rfl, h.clock.right⟩

theorem AnswersAlike.trans {α : Type} (p q r : α × Dispatcher) (h : AnswersAlike p q)
    (h' : AnswersAlike q r) : AnswersAlike p r :=
  ⟨h.answer.trans h'.answer, h.dispatcher.scheduler.trans h'.dispatcher.scheduler,
    h.dispatcher.clock.trans h'.dispatcher.clock⟩

/-! ## A block of timeouts -/

/-- The dispatcher with one timeout more. -/
def timed (d : Dispatcher) (x : Nat × Int32) : Dispatcher :=
  { d with clock := d.clock.put x.1 (.timeout x.2) }

/-- Sets timeouts, one after the other: ticks and values. -/
def setTimers (block : List (Nat × Int32)) : List Request :=
  block.map fun x => .addTimer x.1 x.2

/-- The first timeout is set if there is a number left for it. -/
theorem performAll_setTimers (d : Dispatcher) (x : Nat × Int32) (block : List (Nat × Int32)) :
    d.performAll (setTimers (x :: block)) = ofExcept (Word.add d.clock.nextSeq 1) >>= fun _ =>
      (fun p => (.done :: p.1, p.2)) <$> (d.timed x).performAll (setTimers block) := by
  have first : d.perform (.addTimer x.1 x.2) =
      ofExcept (Word.add d.clock.nextSeq 1) >>= fun _ => pure (.done, d.timed x) := by
    show (ofExcept (d.clock.push x.1 (.timeout x.2)) >>= fun c =>
      pure (Response.done, { d with clock := c })) = _
    rw [push_eq_map]
    rcases Word.add d.clock.nextSeq 1 with stop | next
    · rfl
    · rfl
  show d.perform (.addTimer x.1 x.2) >>= _ = _
  rw [first, bind_assoc]
  rfl

/-- **A block of timeouts with different ticks may be set in any order.** -/
theorem Alike.setTimers_perm {block block' : List (Nat × Int32)} (perm : block.Perm block')
    (distinct : (block.map Prod.fst).Nodup) (h : d.Alike d') :
    (d.performAll (setTimers block)).Related AnswersAlike
      (d'.performAll (setTimers block')) := by
  induction perm generalizing d d' with
  | nil => exact related_pure ⟨rfl, h⟩
  | cons x perm ih =>
    rw [List.map_cons, List.nodup_cons] at distinct
    rw [performAll_setTimers, performAll_setTimers, h.clock.nextSeq]
    refine related_bind_same _ fun _ => ?_
    have added : (d.timed x).Alike (d'.timed x) := ⟨h.scheduler, h.clock.put _ _⟩
    exact (ih distinct.2 added).map fun _ _ later => later.cons .done
  | swap x y rest =>
    have different : y.1 ≠ x.1 := fun same => (List.nodup_cons.mp distinct).1 (by simp [same])
    rw [performAll_setTimers, performAll_setTimers d', h.clock.nextSeq]
    refine related_bind_same _ fun _ => ?_
    have number : (d.timed y).clock.nextSeq = (d'.timed x).clock.nextSeq :=
      congrArg (· + 1) h.clock.nextSeq
    rw [performAll_setTimers, performAll_setTimers (d'.timed x), number]
    have added : ((d.timed y).timed x).Alike ((d'.timed x).timed y) :=
      ⟨h.scheduler, h.clock.put_put different _ _⟩
    have later := (added.performAll (setTimers rest)).map (S := AnswersAlike)
      fun _ _ later => later.cons .done
    exact (related_bind_same _ fun _ => later).map fun _ _ later => later.cons .done
  | trans perm perm' ih ih' =>
    have distinct' := (perm.map Prod.fst).nodup_iff.mp distinct
    exact (ih distinct h).trans AnswersAlike.trans (ih' distinct' h.right)

end Dispatcher

/-! ## What can be told of the difference -/

/-- **Nothing in two episodes tells them apart**, but the numbers. -/
structure Episode.Same (e f : Episode) : Prop where
  request : e.request = f.request
  /-- A tick answers the same, whether or not a quantum has ended. -/
  response : e.response = f.response
  expired : e.expired = f.expired
  /-- The same timeouts fire, in the same order. -/
  fired : e.fired.map Timeout.message = f.fired.map Timeout.message
  /-- The same messages are sent, in the same order. -/
  sent : ∀ id, e.sentTo id = f.sentTo id
  /-- The same task goes on, and everything that is kept of the tasks is the same. -/
  scheduler : e.after.scheduler = f.after.scheduler
  now : e.after.clock.now = f.after.clock.now
  pending : e.after.clock.pending = f.after.clock.pending

namespace Dispatcher

variable {d d' : Dispatcher}

theorem Alike.fires (h : d.Alike d') :
    d.clock.fires.map Timeout.message = d'.clock.fires.map Timeout.message ∧
    d.clock.expires = d'.clock.expires := by
  obtain ⟨expired, fired, -⟩ := serve_alike (d.clock.now + 1) h.clock.entries
  unfold Clock.fires Clock.expires
  rw [← h.clock.now]
  exact ⟨fired, expired⟩

theorem Alike.letters (h : d.Alike d') (r : Request) : d.letters r = d'.letters r := by
  have ticks : d.clock.letters = d'.clock.letters := by
    have fired := congrArg (List.map (Letter.mk d.clock.config.receiver)) h.fires.1
    rw [List.map_map, List.map_map] at fired
    unfold Clock.letters
    rw [← h.clock.config]
    exact fired
  cases r with
  | tick | timerInterrupt => exact ticks
  | _ => rfl

/-! ## Episodes of a history -/

theorem episodes_of_ok {r : Request} {response : Response} {rest : List Request}
    (done : (d.perform r).outcome = .ok (response, d')) :
    d.episodes (r :: rest) = ⟨d, r, response, d', done⟩ :: d'.episodes rest := by
  conv => lhs; unfold episodes
  split
  · rename_i response' after done'
    cases done.symm.trans done'
    rfl
  · rename_i s stopped
    cases done.symm.trans stopped

theorem episodes_of_error {r : Request} {rest : List Request} {stop : Stop}
    (stopped : (d.perform r).outcome = .error stop) : d.episodes (r :: rest) = [] := by
  conv => lhs; unfold episodes
  split
  · rename_i response' after done
    cases stopped.symm.trans done
  · rfl

/-- The episodes that follow a history are those from where it leads to, and there are none if it
    stops. -/
theorem drop_episodes (d : Dispatcher) (earlier later : List Request) :
    (d.episodes (earlier ++ later)).drop earlier.length =
      match (d.performAll earlier).outcome with
      | .ok (_, d') => d'.episodes later
      | .error _ => [] := by
  induction earlier generalizing d with
  | nil => rfl
  | cons r rest ih =>
    rw [performAll, outcome_bind]
    rcases hfirst : (d.perform r).outcome with stop | ⟨response, d₁⟩
    · rw [List.cons_append, episodes_of_error hfirst]
      rfl
    · rw [List.cons_append, episodes_of_ok hfirst, List.length_cons, List.drop_succ_cons, ih]
      show _ = match ((fun p => (response :: p.1, p.2)) <$> d₁.performAll rest).outcome with
        | .ok (_, d') => d'.episodes later
        | .error _ => []
      rw [outcome_map]
      rcases (d₁.performAll rest).outcome with stop | ⟨responses, d₂⟩
      · rfl
      · rfl

/-- **The episodes that follow cannot be told apart.** -/
theorem Alike.episodes (h : d.Alike d') (requests : List Request) :
    List.Forall₂ Episode.Same (d.episodes requests) (d'.episodes requests) := by
  induction requests generalizing d d' with
  | nil => exact .nil
  | cons r rest ih =>
    rcases (h.perform r).ends with ⟨⟨response, d₁⟩, ⟨_, d₁'⟩, done, done', ⟨rfl, after⟩⟩ |
      ⟨stop, stopped, stopped'⟩
    · rw [episodes_of_ok done, episodes_of_ok done']
      refine .cons ?_ (ih after)
      exact {
        request := rfl
        response := rfl
        expired := congrArg (r.ticks && ·) h.fires.2
        fired := by
          show (d.fired r).map Timeout.message = (d'.fired r).map Timeout.message
          unfold Dispatcher.fired
          split
          · exact h.fires.1
          · rfl
        sent := fun id => by
          show lettersTo id (d.scheduler.accepted (d.letters r)) =
            lettersTo id (d'.scheduler.accepted (d'.letters r))
          rw [h.scheduler, h.letters]
        scheduler := after.scheduler
        now := after.clock.now
        pending := after.clock.pending }
    · rw [episodes_of_error stopped, episodes_of_error stopped']
      exact .nil

/-- What can be told of the end of a history: the answers, the scheduler, the tick, and how much is
    pending. -/
def told (p : List Response × Dispatcher) : List Response × Scheduler × Nat × Nat :=
  (p.1, p.2.scheduler, p.2.clock.now, p.2.clock.pending)

theorem AnswersAlike.told {p q : List Response × Dispatcher} (h : AnswersAlike p q) :
    Dispatcher.told p = Dispatcher.told q := by
  unfold Dispatcher.told
  rw [h.answer, h.dispatcher.scheduler, h.dispatcher.clock.now, h.dispatcher.clock.pending]

/-- **Timeouts with different ticks may be set in any order.**  Take any scheduler and a new clock,
    and ask anything of them; then set a block of timeouts with different ticks, in one order or in
    another; then ask anything again.  Both histories let the same be seen and end in the same way.
    From the end of the block on, everything that is asked, a tick or anything else, is answered in
    the same way, the same timeouts fire, the same messages are sent in the same order, and the
    same number of alarms is pending. -/
theorem timeouts_set_in_any_order (s : Scheduler) (config : Config) (before after : List Request)
    {block block' : List (Nat × Int32)} (perm : block.Perm block')
    (distinct : (block.map Prod.fst).Nodup) :
    let d := ofScheduler s config
    let requests := before ++ setTimers block ++ after
    let requests' := before ++ setTimers block' ++ after
    told <$> d.performAll requests = told <$> d.performAll requests' ∧
    List.Forall₂ Episode.Same ((d.episodes requests).drop (before.length + block.length))
      ((d.episodes requests').drop (before.length + block'.length)) := by
  intro d requests requests'
  have start : d.Alike d := by
    refine ⟨rfl, .refl fun a ha => ?_⟩
    obtain rfl := List.mem_singleton.mp ha
    exact Nat.zero_lt_one
  -- where the blocks end, the clocks are alike
  have blocks : (d.performAll (before ++ setTimers block)).Related AnswersAlike
      (d.performAll (before ++ setTimers block')) :=
    performAll_append_alike (start.performAll before) fun h => h.setTimers_perm perm distinct
  constructor
  · exact (performAll_append_alike blocks fun h => h.performAll after).map_eq fun _ _ => (·.told)
  · have length : ∀ block : List (Nat × Int32),
        (before ++ setTimers block).length = before.length + block.length := by
      intro block
      rw [List.length_append, setTimers, List.length_map]
    rw [← length, ← length, drop_episodes, drop_episodes]
    rcases blocks.ends with ⟨⟨responses, d₁⟩, ⟨_, d₁'⟩, done, done', ⟨rfl, h⟩⟩ |
      ⟨stop, stopped, stopped'⟩
    · rw [done, done']
      exact h.episodes after
    · rw [stopped, stopped']
      exact .nil

/-- A timeout of a block of three is due at the tick at which the quantum ends and another timeout
    is due.  What fires from there on is the same in both orders, under other numbers. -/
theorem timeouts_set_in_any_order_of_three : ∃ s first second,
    (Scheduler.create ⟨2, 4096, ⟨1⟩⟩ .heap).outcome = .ok (.ok s) ∧
    first = ((ofScheduler s ⟨2, 4096, ⟨1⟩⟩).episodes ([.addTimer 2 7, .arm] ++
      setTimers [(3, 1), (2, 2), (4, 3)] ++ [.addTimer 3 8, .tick, .tick, .tick, .tick])).drop 5 ∧
    second = ((ofScheduler s ⟨2, 4096, ⟨1⟩⟩).episodes ([.addTimer 2 7, .arm] ++
      setTimers [(4, 3), (3, 1), (2, 2)] ++ [.addTimer 3 8, .tick, .tick, .tick, .tick])).drop 5 ∧
    List.Forall₂ Episode.Same first second ∧
    first.map Episode.response =
      [.done, .expired false, .expired true, .expired false, .expired true] ∧
    first.map Episode.fired =
      [[], [], [⟨2, 1, 7⟩], [⟨2, 4, 2⟩, ⟨3, 3, 1⟩, ⟨3, 6, 8⟩], [⟨4, 5, 3⟩]] ∧
    second.map Episode.fired =
      [[], [], [⟨2, 1, 7⟩], [⟨2, 5, 2⟩, ⟨3, 4, 1⟩, ⟨3, 6, 8⟩], [⟨4, 3, 3⟩]] := by
  obtain ⟨s, created⟩ : ∃ s, (Scheduler.create ⟨2, 4096, ⟨1⟩⟩ .heap).outcome = .ok (.ok s) :=
    ⟨_, rfl⟩
  obtain ⟨-, same⟩ := timeouts_set_in_any_order s ⟨2, 4096, ⟨1⟩⟩ [.addTimer 2 7, .arm]
    [.addTimer 3 8, .tick, .tick, .tick, .tick]
    (show [(3, 1), (2, 2), (4, 3)].Perm [(4, 3), (3, 1), (2, 2)] by decide) (by decide)
  cases created
  exact ⟨_, _, _, rfl, rfl, rfl, same, rfl, rfl, rfl⟩

end Dispatcher

end PreemptiveKernel
