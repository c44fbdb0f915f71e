/-
  Bounded waiting within a level.

  A ready task waits its turn behind others.  Preemption puts whoever ran at the tail, sleeping
  takes him away, wakeups and changes of level join the tail, and somebody in the middle may
  leave.  One thing alone lets anybody in before those who wait: the current task, when it
  moves to their level, goes to the head of the queue and brings its turn along.

  So the place of a waiting task is paid for.  Each rotation at its level brings it one place
  nearer to the head, each such entrance costs it one place, and nothing else costs it anything
  (`Step.place`).  Over a course this adds up (`bounded_waiting`): at most as many turns end at
  the level before the task runs as there were tasks before it, and one more for each entrance.
-/
import PreemptiveKernel.Proofs.Courses

namespace PreemptiveKernel

open Run Scheduler

/-! ## Places in a queue -/

section Places

variable {q : List TaskId} {t id : TaskId}

theorem idxOf_append_of_mem (h : t ∈ q) (later : List TaskId) :
    (q ++ later).idxOf t = q.idxOf t := by
  rw [List.idxOf_append, if_pos h]

theorem idxOf_cons_of_ne (h : id ≠ t) : (id :: q).idxOf t = q.idxOf t + 1 := by
  rw [List.idxOf_cons, beq_false_of_ne h, cond_false]

/-- Who leaves a queue makes nobody's place worse. -/
theorem idxOf_erase_le (h : id ≠ t) (q : List TaskId) :
    (q.erase id).idxOf t ≤ q.idxOf t := by
  induction q with
  | nil => exact Nat.le_refl _
  | cons x rest ih =>
    by_cases hx : x = id
    · -- the head leaves, and the task is not the head
      rw [hx, List.erase_cons_head, idxOf_cons_of_ne h]
      omega
    · rw [List.erase_cons_tail (by simpa using hx)]
      by_cases hxt : x = t
      · rw [hxt, List.idxOf_cons_self]
        exact Nat.zero_le _
      · rw [idxOf_cons_of_ne hxt, idxOf_cons_of_ne hxt]
        omega

variable {p : Prop} [Decidable p]

theorem idxOf_erased_le (h : id ≠ t) (q : List TaskId) :
    (if p then q.erase id else q).idxOf t ≤ q.idxOf t := by
  split
  · exact idxOf_erase_le h q
  · exact Nat.le_refl _

theorem mem_erased (h : id ≠ t) (hin : t ∈ q) : t ∈ if p then q.erase id else q := by
  split
  · exact (List.mem_erase_of_ne (Ne.symm h)).mpr hin
  · exact hin

theorem idxOf_joined (hin : t ∈ q) : (if p then q ++ [id] else q).idxOf t = q.idxOf t := by
  split
  · exact idxOf_append_of_mem hin [id]
  · rfl

theorem toNat_le_of_imp {a b : Bool} (h : a = true → b = true) : a.toNat ≤ b.toNat := by
  cases a with
  | true => exact Nat.le_of_eq (congrArg Bool.toNat (h rfl).symm)
  | false => exact Nat.zero_le _

end Places

namespace Scheduler

variable {s s' : Scheduler} {t : TaskId} {l : Level}

/-! ## Acts -/

/-- The act ends a turn at the level `l`. -/
def Act.rotatesAt (s : Scheduler) (l : Level) (a : Act) : Bool :=
  a.turn.isSome && decide (s.currentLevel = l)

/-- The act moves the current task to the level `l`. -/
def Act.entersAt (l : Level) : Act → Bool
  | .shift _ k => decide (k = l)
  | _ => false

theorem Act.exists_shift {a : Act} (h : a.entersAt l = true) : ∃ id, a = .shift id l := by
  cases a with
  | shift id k =>
    obtain rfl : k = l := of_decide_eq_true h
    exact ⟨id, rfl⟩
  | _ => nomatch h

/-- A turn that ends at the level of a waiting task brings the task one place nearer. -/
theorem idxOf_settle {id : TaskId} {rest q : List TaskId} {a : Act}
    (head : s.queue s.currentLevel = id :: rest) (turn : a.turn.isSome = true)
    (hqueue : ∀ k, s'.queue k = if k = s.currentLevel then q else s.queue k)
    (hq : t ∈ rest → q.idxOf t = rest.idxOf t) (waiting : t ∈ s.queue l) (hne : id ≠ t) :
    (s'.queue l).idxOf t + (a.rotatesAt s l).toNat ≤ (s.queue l).idxOf t := by
  unfold Act.rotatesAt
  rw [hqueue l, turn, Bool.true_and]
  by_cases hl : l = s.currentLevel
  · rw [if_pos hl, decide_eq_true hl.symm, Bool.toNat_true]
    rw [hl, head] at waiting ⊢
    have hin : t ∈ rest := (List.mem_cons.mp waiting).resolve_left (Ne.symm hne)
    have hplace := hq hin
    have hbefore : (id :: rest).idxOf t = rest.idxOf t + 1 := idxOf_cons_of_ne hne
    omega
  · rw [if_neg hl, decide_eq_false (Ne.symm hl), Bool.toNat_false]
    omega

/-- **The law of one act**: what it does to the place of a task that is ready at the level `l`
    before it and after it, and is not current before it. -/
theorem Step.place {a : Act} (hs : s.Sound) (h : Step s a s') (ready : s.station t = some l)
    (still : s'.station t = some l) (other : s.currentId ≠ .ok t) :
    (s'.queue l).idxOf t + (a.rotatesAt s l).toNat ≤
      (s.queue l).idxOf t + (a.entersAt l).toNat := by
  have waiting : t ∈ s.queue l := hs.arranged.mem_queue_iff.mpr ready
  have hstation := h.station_eq hs t
  -- who is current is not the task that waits
  have hother : ∀ {id}, s.currentId = .ok id → id ≠ t := by
    rintro id current rfl
    exact other current
  cases h with
  | enroll | equip | post | take | relevel => exact Nat.le_refl _
  | @wake id u f k mail known asleep change =>
    show (Scheduler.queue _ l).idxOf t ≤ (s.queue l).idxOf t
    rw [queue_woken]
    exact Nat.le_of_eq (idxOf_joined waiting)
  | @dismiss id u known awake wakeful elsewhere =>
    have hne : id ≠ t := by
      rintro rfl
      rw [still, Act.restation, if_pos rfl] at hstation
      nomatch hstation
    show (Scheduler.queue _ l).idxOf t ≤ (s.queue l).idxOf t
    rw [queue_dismissed]
    exact idxOf_erased_le hne _
  | @transfer id u k known awake wakeful elsewhere changed =>
    have hne : id ≠ t := by
      rintro rfl
      rw [still, Act.restation, if_pos rfl] at hstation
      rw [station_of_ready known awake] at ready
      exact changed ((Option.some.inj hstation).symm.trans (Option.some.inj ready).symm)
    show (Scheduler.queue _ l).idxOf t ≤ (s.queue l).idxOf t
    rw [queue_transferred]
    -- it may leave the queue of the waiting task, and it may join its tail
    rw [idxOf_joined (mem_erased hne waiting)]
    exact idxOf_erased_le hne _
  | @shift id u k known wakeful current changed =>
    have hne := hother current
    obtain ⟨awake, hlevel⟩ := hs.current_ready current known
    obtain ⟨rest, head⟩ := currentId_eq_ok_iff.mp current
    show (Scheduler.queue _ l).idxOf t ≤ (s.queue l).idxOf t + (decide (k = l)).toNat
    rw [queue_shifted s id (fun e => changed (e.trans hlevel.symm))]
    by_cases hk : l = k
    · have hplace : (id :: s.queue l).idxOf t = (s.queue l).idxOf t + 1 := idxOf_cons_of_ne hne
      rw [if_pos hk, decide_eq_true hk.symm, Bool.toNat_true]
      omega
    · rw [if_neg hk, decide_eq_false (Ne.symm hk)]
      split
      · rename_i hl
        rw [hl, head, List.tail_cons, idxOf_cons_of_ne hne]
        exact Nat.le_succ _
      · exact Nat.le_refl _
  | @yield id next rest head chosen =>
    have hne := hother (currentId_eq_ok_iff.mpr ⟨rest, head⟩)
    exact idxOf_settle head rfl (queue_settle s _) (fun hin => idxOf_append_of_mem hin _)
      waiting hne
  | @retire id next rest head wakeful chosen =>
    have hne := hother (currentId_eq_ok_iff.mpr ⟨rest, head⟩)
    exact idxOf_settle head rfl (queue_settle (s.setRunning id false) _) (fun _ => rfl)
      waiting hne

/-- A current task that moves brings its turn along to another level. -/
theorem Step.level_of_shift {id : TaskId} {k : Level} (hs : s.Sound)
    (h : Step s (.shift id k) s') : s'.currentLevel = k ∧ s.currentLevel ≠ k := by
  cases h with
  | shift known wakeful current elsewhere =>
    obtain ⟨-, hlevel⟩ := hs.current_ready current known
    exact ⟨(shifted_frame _ _ _).2.2.1, fun e => elsewhere (hlevel.trans e).symm⟩

/-- The act neither takes a task out of a queue nor lets one in before others. -/
def Act.Gentle : Act → Prop
  | .enroll _ | .equip .. | .post .. | .take .. | .relevel .. | .wake .. => True
  | _ => False

/-- Deliveries are gentle. -/
theorem Carried.gentle {letters : List Letter} {acts : List Act} (h : Carried s letters acts) :
    ∀ a ∈ acts, a.Gentle := by
  intro a ha
  obtain ⟨x, -, rfl | ⟨k, rfl⟩⟩ := h.of_mem ha
  · trivial
  · trivial

/-- A gentle act keeps the current task and the current level, and every ready task where it
    is ready. -/
theorem Step.gentle {a : Act} (hs : s.Sound) (h : Step s a s') (ha : a.Gentle) :
    a.turn = none ∧ s'.currentLevel = s.currentLevel ∧
    ∀ id k, s.station id = some k → s'.station id = some k := by
  have hstation := h.station_eq hs
  cases h with
  | enroll | equip | post | take | relevel =>
    exact ⟨rfl, rfl, fun id k ready => (hstation id).trans ready⟩
  | @wake key u f j mail known asleep change =>
    refine ⟨rfl, (noteReadyAt_frame _ _).2.2.1, fun id k ready => ?_⟩
    have hne : id ≠ key := by
      rintro rfl
      rw [station_of_asleep known asleep] at ready
      nomatch ready
    rw [hstation id, Act.restation, if_neg hne]
    exact ready
  | _ => exact ha.elim

/-- Gentle acts cost a waiting task nothing, and it goes on waiting. -/
structure Undisturbed (s : Scheduler) (t : TaskId) (l : Level) (s' : Scheduler) : Prop where
  sound : s'.Sound
  ready : s'.station t = some l
  current : s'.currentId = s.currentId
  level : s'.currentLevel = s.currentLevel
  place : (s'.queue l).idxOf t ≤ (s.queue l).idxOf t

theorem Steps.undisturbed {acts : List Act} (hs : s.Sound) (h : Steps s acts s')
    (gentle : ∀ a ∈ acts, a.Gentle) (ready : s.station t = some l)
    (other : s.currentId ≠ .ok t) : Undisturbed s t l s' := by
  induction h with
  | nil => exact ⟨hs, ready, rfl, rfl, Nat.le_refl _⟩
  | @cons s s₁ s₂ a acts first rest ih =>
    have ha := gentle a List.mem_cons_self
    obtain ⟨hturn, hlevel, hready⟩ := first.gentle hs ha
    have hcurrent := first.current_kept hs hturn
    have still : s₁.station t = some l := hready t l ready
    have later := ih (first.sound hs) (fun b hb => gentle b (List.mem_cons_of_mem _ hb)) still
      (by rw [hcurrent]; exact other)
    have hplace : (s₁.queue l).idxOf t ≤ (s.queue l).idxOf t := by
      have hlaw := first.place hs ready still other
      have hnone : a.entersAt l = false := by
        cases a with
        | shift => exact ha.elim
        | _ => rfl
      rw [hnone] at hlaw
      exact Nat.le_trans (Nat.le_add_right _ _) hlaw
    exact ⟨later.sound, later.ready, later.current.trans hcurrent, later.level.trans hlevel,
      Nat.le_trans later.place hplace⟩

end Scheduler

/-! ## Requests -/

namespace Episode

/-- The turn of the current task ends in the episode: it is told to end, the end of its quantum
    has come, or the task falls asleep. -/
def rotates (e : Episode) : Bool :=
  match e.request with
  | .switch => true
  | .timerInterrupt => e.before.clock.expires
  | _ =>
    match e.before.scheduler.currentId with
    | .ok id => (e.after.scheduler.station id).isNone
    | .error _ => false

/-- A turn ends in the episode at the level `l`. -/
def rotatesAt (l : Level) (e : Episode) : Bool :=
  e.rotates && decide (e.before.scheduler.currentLevel = l)

/-- The current task moves in the episode from another level to the level `l`. -/
def entersAt (l : Level) (e : Episode) : Bool :=
  decide (e.after.scheduler.currentId.toOption = e.before.scheduler.currentId.toOption) &&
    decide (e.before.scheduler.currentLevel ≠ l) && decide (e.after.scheduler.currentLevel = l)

end Episode

/-- The requests after which the turn of the current task is over in any case. -/
def Dispatcher.EndsTurn (d : Dispatcher) (r : Request) : Prop :=
  r = .switch ∨ r = .timerInterrupt ∧ d.clock.expires = true

/-- The acts are gentle, but for at most one other act that comes last.  If the request ends a
    turn, it is by that act. -/
inductive Closing (d : Dispatcher) (r : Request) : List Act → Prop
  | gentle {acts : List Act} (gentle : ∀ a ∈ acts, a.Gentle) (keeps : ¬ d.EndsTurn r) :
      Closing d r acts
  | by_last {before : List Act} {last : Act} (gentle : ∀ a ∈ before, a.Gentle)
      (keeps : last.turn = none → ¬ d.EndsTurn r) : Closing d r (before ++ [last])

theorem Closing.single {d : Dispatcher} {r : Request} {a : Act}
    (keeps : a.turn = none → ¬ d.EndsTurn r) : Closing d r [a] :=
  show Closing d r ([] ++ [a]) from .by_last (List.forall_mem_nil _) keeps

/-- **At most one act of a request** disturbs who waits, and it is the last one. -/
theorem Enacted.closing {d : Dispatcher} {r : Request} {response : Response} {acts : List Act}
    (h : Enacted d r response acts) : Closing d r acts := by
  cases h with
  | refused asked =>
    refine .gentle (List.forall_mem_nil _) ?_
    rintro (rfl | ⟨rfl, -⟩)
    · exact asked
    · exact asked
  | unmoved asked =>
    refine .gentle (List.forall_mem_nil _) ?_
    rcases asked with ⟨n, rfl⟩ | ⟨level, rfl⟩
    · simp [Dispatcher.EndsTurn]
    · simp [Dispatcher.EndsTurn]
  | stayed | idled | timed | armed =>
    exact .gentle (List.forall_mem_nil _) (by simp [Dispatcher.EndsTurn])
  | enrolled | equipped | spawned | woken | received | receivedCurrent | drained | found =>
    exact .gentle (by simp [Act.Gentle]) (by simp [Dispatcher.EndsTurn])
  | sent carried | notified carried | ticked carried =>
    exact .gentle carried.gentle (by simp [Dispatcher.EndsTurn])
  | interrupted running carried =>
    exact .gentle carried.gentle (by simp [Dispatcher.EndsTurn, running])
  | moved asked act =>
    refine .single fun _ => ?_
    rcases asked with rfl | rfl
    · simp [Dispatcher.EndsTurn]
    · simp [Dispatcher.EndsTurn]
  | dismissed => exact .single fun _ => by simp [Dispatcher.EndsTurn]
  | retired | waited | yielded => exact .single fun turn => nomatch turn
  | preempted ended carried => exact .by_last carried.gentle fun turn => nomatch turn

namespace Episode

variable {e : Episode} {t : TaskId} {l : Level}

/-- Where the current task is kept and no turn is told to end, none ends. -/
theorem rotatesAt_eq_false (sound : e.after.scheduler.Sound)
    (kept : e.after.scheduler.currentId = e.before.scheduler.currentId)
    (keeps : ¬ e.before.EndsTurn e.request) : e.rotatesAt l = false := by
  have hawake : (match e.before.scheduler.currentId with
      | .ok id => (e.after.scheduler.station id).isNone
      | .error _ => false) = false := by
    rw [← kept]
    obtain ⟨id, rest, head, current⟩ := sound.exists_current
    obtain ⟨u, known, awake, -⟩ := sound.current_known current
    rw [current]
    show (e.after.scheduler.station id).isNone = false
    rw [station_of_ready known awake]
    rfl
  have hnone : e.rotates = false := by
    unfold rotates
    split
    · rename_i asked
      exact absurd (.inl asked) keeps
    · rename_i asked
      rw [← Bool.not_eq_true]
      exact fun ended => keeps (.inr ⟨asked, ended⟩)
    · exact hawake
  rw [rotatesAt, hnone, Bool.false_and]

theorem entersAt_of_kept (kept : e.after.scheduler.currentId = e.before.scheduler.currentId)
    (hbefore : e.before.scheduler.currentLevel ≠ l)
    (hafter : e.after.scheduler.currentLevel = l) : e.entersAt l = true := by
  rw [entersAt, kept, decide_eq_true rfl, decide_eq_true hbefore, decide_eq_true hafter]
  rfl

/-- **The law of one request**, whichever it is. -/
theorem place (e : Episode) (hs : e.before.scheduler.Sound)
    (ready : e.before.scheduler.station t = some l)
    (still : e.after.scheduler.station t = some l)
    (other : e.before.scheduler.currentId ≠ .ok t) :
    (e.after.scheduler.queue l).idxOf t + (e.rotatesAt l).toNat ≤
      (e.before.scheduler.queue l).idxOf t + (e.entersAt l).toNat := by
  obtain ⟨acts, steps, enacted⟩ := e.enacts hs
  have hafter := steps.sound hs
  cases enacted.closing with
  | gentle gentle keeps =>
    have quiet := steps.undisturbed hs gentle ready other
    have hplace := quiet.place
    rw [rotatesAt_eq_false hafter quiet.current keeps, Bool.toNat_false]
    omega
  | @by_last before last gentle keeps =>
    obtain ⟨between, earlier, final⟩ := steps.split
    have step := final.of_single
    have quiet := earlier.undisturbed hs gentle ready other
    have hplace := quiet.place
    have hlaw := step.place quiet.sound quiet.ready still (by rw [quiet.current]; exact other)
    cases hturn : last.turn with
    | none =>
      -- no turn ends; if the current task moves to the level, it counts as an entrance
      have kept := (step.current_kept quiet.sound hturn).trans quiet.current
      have henters : (last.entersAt l).toNat ≤ (e.entersAt l).toNat := by
        refine toNat_le_of_imp fun hmoves => ?_
        obtain ⟨id, rfl⟩ := Act.exists_shift hmoves
        obtain ⟨hnow, hbefore⟩ := step.level_of_shift quiet.sound
        rw [quiet.level] at hbefore
        exact entersAt_of_kept kept hbefore hnow
      rw [rotatesAt_eq_false hafter kept (keeps hturn), Bool.toNat_false]
      omega
    | some change =>
      have hrotates : (e.rotatesAt l).toNat ≤ (last.rotatesAt between l).toNat := by
        refine toNat_le_of_imp fun hends => ?_
        rw [Act.rotatesAt, hturn, quiet.level]
        exact (Bool.and_eq_true _ _ ▸ hends).2
      have hnone : last.entersAt l = false := by
        cases last with
        | shift => nomatch hturn
        | _ => rfl
      rw [hnone, Bool.toNat_false] at hlaw
      omega

end Episode

/-! ## Runs -/

namespace Scheduler

variable {s s' : Scheduler} {t : TaskId} {l : Level} {es : List Episode}

/-- What a course pays for the place of a task that waits all the while. -/
theorem place_of_course (hs : s.Sound) (ready : s.station t = some l)
    (course : Course Dispatcher.scheduler s es s')
    (still : ∀ e ∈ es, e.after.scheduler.station t = some l)
    (other : ∀ e ∈ es, e.before.scheduler.currentId ≠ .ok t) :
    s'.station t = some l ∧
    (s'.queue l).idxOf t + es.countP (·.rotatesAt l) ≤
      (s.queue l).idxOf t + es.countP (·.entersAt l) := by
  induction course with
  | nil => exact ⟨ready, Nat.le_refl _⟩
  | @snoc es e earlier ih =>
    obtain ⟨hready, hplace⟩ := ih (fun x hx => still x (List.mem_append_left _ hx))
      fun x hx => other x (List.mem_append_left _ hx)
    have hlast : e ∈ es ++ [e] := List.mem_append_right _ List.mem_cons_self
    have hlaw := e.place (earlier.sound hs) hready (still e hlast) (other e hlast)
    have hcount : ∀ p : Episode → Bool, (es ++ [e]).countP p = es.countP p + (p e).toNat := by
      intro p
      rw [List.countP_append, List.countP_singleton]
      cases p e with
      | true => rfl
      | false => rfl
    have hturns := hcount (·.rotatesAt l)
    have hentrances := hcount (·.entersAt l)
    exact ⟨still e hlast, by omega⟩

/-- **Waiting within a level is bounded.**  Let a task be ready at a level, in any state that
    requests lead to, and let it stay ready there while other requests are made, in states in
    which it is not the current task.  Then its place in the queue is at most the one that it
    had, less the turns that have ended at the level, and more by the times that the current
    task has moved there.  So no more turns can end at the level before it runs, whatever
    higher levels do in between. -/
theorem bounded_waiting {log : List (Request × Response)} (h : History log s)
    (waiting : t ∈ s.queue l) (course : Course Dispatcher.scheduler s es s')
    (still : ∀ e ∈ es, e.after.scheduler.station t = some l)
    (other : ∀ e ∈ es, e.before.scheduler.currentId ≠ .ok t) :
    t ∈ s'.queue l ∧
    (s'.queue l).idxOf t + es.countP (·.rotatesAt l) ≤
      (s.queue l).idxOf t + es.countP (·.entersAt l) ∧
    es.countP (·.rotatesAt l) ≤ (s.queue l).idxOf t + es.countP (·.entersAt l) := by
  have ready := h.sound.arranged.mem_queue_iff.mp waiting
  obtain ⟨hready, hplace⟩ := place_of_course h.sound ready course still other
  have hin := (course.sound h.sound).arranged.mem_queue_iff.mpr hready
  exact ⟨hin, hplace, by omega⟩

/-- Two tasks stand before the last one.  The current one leaves the level and comes back, a
    turn ends, the next task falls asleep, and it is the last one's turn. -/
theorem bounded_waiting_of_return : ∃ log s es s', History log s ∧
    Course Dispatcher.scheduler s es s' ∧ s.queue .top = [⟨1⟩, ⟨3⟩, ⟨4⟩] ∧
    es.countP (·.rotatesAt .top) = 2 ∧ es.countP (·.entersAt .top) = 1 ∧
    s'.currentId = .ok ⟨4⟩ ∧ (s'.queue .top).idxOf ⟨4⟩ + 2 ≤ 2 + 1 := by
  have created : (create .standard .heap).outcome = .ok (.ok _) := rfl
  have h := (History.created created).performAll
    (show (Dispatcher.performAll ⟨_, .create .standard⟩
      [.spawn .idle 0 3 .heap, .spawn .idle 0 3 .heap]).outcome = .ok (_, _) from rfl)
  obtain ⟨-, course⟩ := h.goes_on
    (show (Dispatcher.performAll ⟨_, .create .standard⟩
      [.changeLevel ⟨1⟩ 2, .spawn .idle 0 3 .heap, .changeLevel ⟨1⟩ 3, .switch,
        .sleep ⟨3⟩]).outcome = .ok (_, _) from rfl)
  refine ⟨_, _, _, _, h, course, rfl, rfl, rfl, rfl, ?_⟩
  exact (bounded_waiting (t := ⟨4⟩) (l := .top) h (by decide) course (by decide)
    (by decide)).2.1

end Scheduler

end PreemptiveKernel
