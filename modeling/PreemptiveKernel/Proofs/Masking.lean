/-
  What locks do to the interrupt flag.

  A guard that was taken while interrupts were let through is the one that masked them, and it
  alone lets them through again.  Seen this way the permission to be interrupted is a token: it
  lies in the flag, or it is kept by one living guard, or a section holds it until its end.

  1. **Nothing is lost** (`performAll_tokens`).  Taking a lock moves the token into the guard,
     dropping the guard gives it back, a section gives back what it took.  So whenever no guard
     is alive the flag is what it was when none was alive before, in whatever order the guards
     were dropped, and even if their lives cross the bounds of sections.

  2. **Inside a section nothing unmasks** (`performAll_quiet`), provided that the section
     encloses the whole life of every guard that is taken or dropped in it.  The guards taken
     inside found the flag off, so none of them has the token; the one that has it lives outside.

  3. **The crux** (`masker_last_of_masked`, `masked_of_masker_last`).  The token comes back when
     the guard that keeps it is dropped, and at that moment the flag goes on.  Whether another
     guard is still alive then is not checked by anybody.  Hence the flag is off during the life
     of every guard exactly if the guard that masked is always the last to be dropped.  Dropping
     guards in reverse order is enough for that (`masker_last_of_in_turn`); dropping them in any
     order is not.
-/
import PreemptiveKernel.Critical

namespace PreemptiveKernel.Critical

variable {locks slots : Nat} {s t : State locks slots}

/-! ## Programs that leave the flag to sections and locks -/

mutual

/-- Nothing in this action sets the flag by hand. -/
def Action.tame : Action locks slots → Bool
  | .enable => false
  | .disable => false
  | .acquire _ _ => true
  | .add _ _ => true
  | .release _ => true
  | .masked _ work => allTame work

/-- Nothing in these actions sets the flag by hand. -/
def allTame : List (Action locks slots) → Bool
  | [] => true
  | a :: rest => a.tame && allTame rest

end

theorem allTame_append (xs ys : List (Action locks slots)) :
    allTame (xs ++ ys) = (allTame xs && allTame ys) := by
  induction xs with
  | nil => rw [List.nil_append, allTame, Bool.true_and]
  | cons a rest ih => rw [List.cons_append, allTame, allTame, ih, Bool.and_assoc]

/-! ## What each action can do -/

/-- A lock cannot be taken into a slot: it is held, or the slot is. -/
def State.refuses (s : State locks slots) (lock : Fin locks) (slot : Fin slots) : Bool :=
  s.isHeld lock || (s.guards.get slot).isSome

theorem perform_acquire {lock : Fin locks} {slot : Fin slots}
    (h : (perform (.acquire lock slot) s).outcome = .ok t) :
    s.refuses lock slot = true ∧ t = s ∨
      s.refuses lock slot = false ∧ s.guards.get slot = none ∧ t = s.acquire lock slot := by
  rw [perform] at h
  split at h
  · rename_i refused
    exact .inl ⟨refused, (Except.ok.inj h).symm⟩
  · rename_i free
    have vacant : (s.guards.get slot).isSome = false :=
      (Bool.or_eq_false_iff.mp (Bool.not_eq_true _ ▸ free)).2
    have empty : s.guards.get slot = none :=
      Option.not_isSome_iff_eq_none.mp (by rw [vacant]; decide)
    exact .inr ⟨Bool.not_eq_true _ ▸ free, empty, (Except.ok.inj h).symm⟩

theorem perform_add {slot : Fin slots} {n : Int}
    (h : (perform (.add slot n) s).outcome = .ok t) :
    t.enabled = s.enabled ∧ t.guards = s.guards := by
  rw [perform] at h
  split at h
  · obtain rfl := Except.ok.inj h
    exact ⟨rfl, rfl⟩
  · obtain ⟨sum, -, h⟩ := Run.outcome_bind_eq_ok_iff.mp h
    obtain rfl := Except.ok.inj h
    exact ⟨rfl, rfl⟩

theorem perform_release {slot : Fin slots}
    (h : (perform (.release slot) s).outcome = .ok t) :
    s.guards.get slot = none ∧ t = s ∨
      ∃ guard, s.guards.get slot = some guard ∧ t = s.release slot guard := by
  rw [perform] at h
  split at h
  · rename_i empty
    exact .inl ⟨empty, (Except.ok.inj h).symm⟩
  · rename_i guard held
    exact .inr ⟨guard, held, (Except.ok.inj h).symm⟩

/-- A section does its work with the flag off; at its end the flag is on if it was on before,
    or if the work left it on. -/
theorem perform_masked {value : Int} {work : List (Action locks slots)}
    (h : (perform (.masked value work) s).outcome = .ok t) :
    ∃ after, (performAll work { s with enabled := false }).outcome = .ok after ∧
      t = { after with enabled := s.enabled || after.enabled } := by
  rw [perform] at h
  obtain ⟨-, -, h⟩ := Run.outcome_bind_eq_ok_iff.mp h
  obtain ⟨after, worked, h⟩ := Run.outcome_bind_eq_ok_iff.mp h
  refine ⟨after, worked, ?_⟩
  rw [← Except.ok.inj h]
  cases s.enabled <;> rfl

theorem outcome_release {slot : Fin slots} {guard : Guard locks}
    (held : s.guards.get slot = some guard) :
    (perform (.release slot) s).outcome = .ok (s.release slot guard) := by
  have there : s.guards[slot] = some guard := held
  rw [perform, there]
  rfl

theorem performAll_cons {a : Action locks slots} {rest : List (Action locks slots)}
    (h : (performAll (a :: rest) s).outcome = .ok t) :
    ∃ u, (perform a s).outcome = .ok u ∧ (performAll rest u).outcome = .ok t := by
  rw [performAll] at h
  exact Run.outcome_bind_eq_ok_iff.mp h

/-! ## The living guards -/

/-- The living guards with a property, counted slot by slot. -/
theorem countP_alive (s : State locks slots) (p : Guard locks → Bool) :
    s.alive.countP p = s.guards.countP (Option.any p) := by
  rw [State.alive, List.countP_filterMap, ← Vector.countP_toList]
  congr 1
  funext g
  cases g <;> rfl

/-- Taking a lock adds its guard to the living ones. -/
theorem countP_alive_acquire {lock : Fin locks} {slot : Fin slots}
    (empty : s.guards.get slot = none) (p : Guard locks → Bool) :
    (s.acquire lock slot).alive.countP p = s.alive.countP p + (p ⟨lock, s.enabled⟩).toNat := by
  have vacated : s.guards[slot.val] = none := empty
  rw [countP_alive, countP_alive, State.acquire, Vector.countP_set, vacated]
  cases found : p ⟨lock, s.enabled⟩ <;> simp [found]

/-- Dropping a guard takes it from the living ones. -/
theorem countP_alive_release {slot : Fin slots} {guard : Guard locks}
    (held : s.guards.get slot = some guard) (p : Guard locks → Bool) :
    (s.release slot guard).alive.countP p + (p guard).toNat = s.alive.countP p := by
  have there : s.guards[slot.val] = some guard := held
  rw [countP_alive, countP_alive, State.release, Vector.countP_set, there]
  cases found : p guard with
  | false => simp [found]
  | true =>
    have pos : 0 < s.guards.countP (Option.any p) :=
      Vector.countP_pos_iff.mpr ⟨some guard, there ▸ Vector.getElem_mem _, found⟩
    simp [found]
    omega

theorem length_alive_acquire {lock : Fin locks} {slot : Fin slots}
    (empty : s.guards.get slot = none) :
    (s.acquire lock slot).alive.length = s.alive.length + 1 := by
  simpa only [List.countP_true, Bool.toNat_true] using
    countP_alive_acquire empty fun _ => true

theorem length_alive_release {slot : Fin slots} {guard : Guard locks}
    (held : s.guards.get slot = some guard) :
    (s.release slot guard).alive.length + 1 = s.alive.length := by
  simpa only [List.countP_true, Bool.toNat_true] using
    countP_alive_release held fun _ => true

theorem alive_congr (same : t.guards = s.guards) : t.alive = s.alive := by
  rw [State.alive, State.alive, same]

/-! ## The token -/

/-- How many permissions to be interrupted there are: one in the flag if it is on, and one in
    each living guard that masked. -/
def State.tokens (s : State locks slots) : Nat :=
  s.alive.countP Guard.saved + s.enabled.toNat

theorem tokens_withFlag (s : State locks slots) (enabled : Bool) :
    ({ s with enabled := enabled } : State locks slots).tokens =
      s.alive.countP Guard.saved + enabled.toNat := rfl

/-- Of two permissions of which there is at most one, one is given exactly if either is. -/
theorem toNat_or {a b : Bool} (one : a.toNat + b.toNat ≤ 1) :
    (a || b).toNat = a.toNat + b.toNat := by
  cases a <;> cases b
  case true.true => exact absurd one (by decide)
  all_goals rfl

theorem eq_of_toNat : ∀ {a b : Bool}, a.toNat = b.toNat → a = b := by decide

mutual

/-- **Actions keep the token.** -/
theorem perform_tokens {s t : State locks slots} (a : Action locks slots) (tame : a.tame)
    (one : s.tokens ≤ 1) (h : (perform a s).outcome = .ok t) : t.tokens = s.tokens := by
  match a with
  | .enable => exact absurd tame (by simp [Action.tame])
  | .disable => exact absurd tame (by simp [Action.tame])
  | .add slot n =>
    obtain ⟨flag, same⟩ := perform_add h
    rw [State.tokens, State.tokens, flag, alive_congr same]
  | .acquire lock slot =>
    rcases perform_acquire h with ⟨-, rfl⟩ | ⟨-, empty, rfl⟩
    · rfl
    · -- the token goes from the flag into the guard
      rw [State.tokens, State.tokens, countP_alive_acquire empty]
      rfl
  | .release slot =>
    rcases perform_release h with ⟨-, rfl⟩ | ⟨guard, held, rfl⟩
    · rfl
    · -- the token goes back from the guard to the flag, which has none
      have counted := countP_alive_release held Guard.saved
      have fits : s.enabled.toNat + guard.saved.toNat ≤ 1 := by
        rw [State.tokens, ← counted] at one
        omega
      calc (s.release slot guard).tokens
        _ = (s.release slot guard).alive.countP Guard.saved +
              (s.enabled || guard.saved).toNat := rfl
        _ = (s.release slot guard).alive.countP Guard.saved + guard.saved.toNat +
              s.enabled.toNat := by rw [toNat_or fits]; omega
        _ = s.tokens := by rw [counted, State.tokens]
  | .masked value work =>
    obtain ⟨after, worked, rfl⟩ := perform_masked h
    have inner : allTame work := by rwa [Action.tame] at tame
    have entered := tokens_withFlag s false
    have kept := performAll_tokens work inner
      (by rw [entered]; exact Nat.le_trans (Nat.add_le_add_left (Nat.zero_le _) _) one) worked
    rw [entered, State.tokens, Bool.toNat_false] at kept
    -- the section has held the token that it found in the flag
    have fits : s.enabled.toNat + after.enabled.toNat ≤ 1 := by
      rw [State.tokens] at one
      omega
    rw [tokens_withFlag, toNat_or fits, State.tokens]
    omega

/-- **Programs keep the token.** -/
theorem performAll_tokens {s t : State locks slots} (as : List (Action locks slots))
    (tame : allTame as) (one : s.tokens ≤ 1) (h : (performAll as s).outcome = .ok t) :
    t.tokens = s.tokens := by
  match as with
  | [] =>
    rw [performAll] at h
    rw [Except.ok.inj h]
  | a :: rest =>
    obtain ⟨u, first, later⟩ := performAll_cons h
    obtain ⟨ha, hrest⟩ : a.tame ∧ allTame rest := by
      rwa [allTame, Bool.and_eq_true] at tame
    have step := perform_tokens a ha one first
    exact (performAll_tokens rest hrest (step ▸ one) later).trans step

end

/-! ## The moments of a program -/

/-- `Passes as s u`: from `s` the program `as` comes through `u`, between two of its actions or
    in the middle of a section. -/
inductive Passes : List (Action locks slots) → State locks slots → State locks slots → Prop
  /-- The moment at which the program is about to go on. -/
  | here {as : List (Action locks slots)} {s : State locks slots} : Passes as s s
  /-- A moment after the first action. -/
  | next {a : Action locks slots} {rest : List (Action locks slots)} {s t u : State locks slots}
      (first : (perform a s).outcome = .ok t) (later : Passes rest t u) : Passes (a :: rest) s u
  /-- A moment in a section that comes first. -/
  | inside {value : Int} {work rest : List (Action locks slots)} {s u : State locks slots}
      (within : Passes work { s with enabled := false } u) :
      Passes (.masked value work :: rest) s u

/-- The moments of a program are those of its first action and those of the rest. -/
theorem Passes.split {a : Action locks slots} {rest : List (Action locks slots)}
    {u : State locks slots} (p : Passes (a :: rest) s u) :
    Passes [a] s u ∨ ∃ t, (perform a s).outcome = .ok t ∧ Passes rest t u := by
  cases p with
  | here => exact .inl .here
  | next first later => exact .inr ⟨_, first, later⟩
  | inside within => exact .inl (.inside within)

/-- What is seen where an action does not stop. -/
def afterwards (a : Action locks slots) (s : State locks slots)
    (p : State locks slots → Bool) : Bool :=
  match (perform a s).outcome with
  | .ok t => p t
  | .error _ => true

theorem of_afterwards {a : Action locks slots} {p : State locks slots → Bool}
    (h : afterwards a s p) (done : (perform a s).outcome = .ok t) : p t := by
  rw [afterwards, done] at h
  exact h

theorem afterwards_of {a : Action locks slots} {p : State locks slots → Bool}
    (h : ∀ t, (perform a s).outcome = .ok t → p t) : afterwards a s p := by
  rw [afterwards]
  split
  · rename_i t done
    exact h t done
  · rfl

/-! ## Sections that enclose whole lives -/

mutual

/-- No guard that was alive when the innermost section around this action began is dropped by
    it; these are the guards in `outer`.  A section leaves no guard behind that was taken in
    it. -/
def Action.closed (outer : Vector (Option (Guard locks)) slots) :
    Action locks slots → State locks slots → Bool
  | .enable, _ => true
  | .disable, _ => true
  | .acquire _ _, _ => true
  | .add _ _, _ => true
  | .release slot, _ => (outer.get slot).isNone
  | .masked value work, s =>
    allClosed s.guards work { s with enabled := false } &&
      afterwards (.masked value work) s fun t => t.guards = s.guards

/-- The same for every action of a program. -/
def allClosed (outer : Vector (Option (Guard locks)) slots) :
    List (Action locks slots) → State locks slots → Bool
  | [], _ => true
  | a :: rest, s => a.closed outer s && afterwards a s (allClosed outer rest)

end

/-- Interrupts are masked, and no guard but those in `outer` can let them through. -/
structure Quiet (outer : Vector (Option (Guard locks)) slots) (s : State locks slots) :
    Prop where
  /-- The flag is off. -/
  off : s.enabled = false
  /-- A guard that has come since found it off. -/
  unsaved : ∀ slot : Fin slots, outer.get slot = none → ∀ guard, s.guards.get slot = some guard →
    guard.saved = false

/-- A section begins quietly. -/
theorem quiet_entered (s : State locks slots) : Quiet s.guards { s with enabled := false } where
  off := rfl
  unsaved slot empty guard held := by
    rw [empty] at held
    cases held

/-- Putting something into a slot leaves the other slots alone. -/
theorem get_set (guards : Vector (Option (Guard locks)) slots) (slot other : Fin slots)
    (g : Option (Guard locks)) :
    (guards.set slot g slot.isLt).get other = if slot = other then g else guards.get other := by
  simp only [Fin.ext_iff]
  exact Vector.getElem_set slot.isLt other.isLt

variable {outer : Vector (Option (Guard locks)) slots}

theorem Quiet.acquire (q : Quiet outer s) (lock : Fin locks) (slot : Fin slots) :
    Quiet outer (s.acquire lock slot) where
  off := rfl
  unsaved other absent guard held := by
    rw [State.acquire, get_set] at held
    split at held
    · rw [← Option.some.inj held]
      exact q.off
    · exact q.unsaved other absent guard held

theorem Quiet.release (q : Quiet outer s) {slot : Fin slots} {guard : Guard locks}
    (absent : outer.get slot = none) (held : s.guards.get slot = some guard) :
    Quiet outer (s.release slot guard) where
  off := by rw [State.release, q.off, q.unsaved slot absent guard held]; rfl
  unsaved other away g there := by
    rw [State.release, get_set] at there
    split at there
    · cases there
    · exact q.unsaved other away g there

/-- An action that is no section has no moments but its beginning and its end. -/
theorem Quiet.throughout {a : Action locks slots} (q : Quiet outer s)
    (plain : ∀ value work, a ≠ .masked value work)
    (ends : ∀ t, (perform a s).outcome = .ok t → Quiet outer t) (u : State locks slots)
    (passed : Passes [a] s u) : u.enabled = false := by
  cases passed with
  | here => exact q.off
  | next first later =>
    cases later
    exact (ends _ first).off
  | inside within => exact absurd rfl (plain _ _)

/-- A section that is closed and quiet changes neither the flag nor the guards. -/
theorem same_of_section {value : Int} {work : List (Action locks slots)}
    (closed : (Action.masked value work).closed outer s)
    (quiet : ∀ t, (performAll work { s with enabled := false }).outcome = .ok t →
      Quiet s.guards t)
    (h : (perform (.masked value work) s).outcome = .ok t) :
    t.enabled = s.enabled ∧ t.guards = s.guards := by
  rw [Action.closed, Bool.and_eq_true] at closed
  have same : t.guards = s.guards := of_decide_eq_true (of_afterwards closed.2 h)
  obtain ⟨after, worked, rfl⟩ := perform_masked h
  refine ⟨?_, same⟩
  show (s.enabled || after.enabled) = s.enabled
  rw [(quiet after worked).off, Bool.or_false]

mutual

/-- **Inside a section nothing unmasks**: one action. -/
theorem perform_quiet {outer : Vector (Option (Guard locks)) slots} {s : State locks slots}
    (a : Action locks slots) (tame : a.tame) (closed : a.closed outer s) (q : Quiet outer s) :
    (∀ u, Passes [a] s u → u.enabled = false) ∧
      ∀ t, (perform a s).outcome = .ok t → Quiet outer t := by
  match a with
  | .enable => exact absurd tame (by simp [Action.tame])
  | .disable => exact absurd tame (by simp [Action.tame])
  | .acquire lock slot =>
    have ends : ∀ t, (perform (.acquire lock slot) s).outcome = .ok t → Quiet outer t := by
      intro t h
      rcases perform_acquire h with ⟨-, rfl⟩ | ⟨-, -, rfl⟩
      · exact q
      · exact q.acquire lock slot
    exact ⟨q.throughout (by simp) ends, ends⟩
  | .add slot n =>
    have ends : ∀ t, (perform (.add slot n) s).outcome = .ok t → Quiet outer t := by
      intro t h
      obtain ⟨flag, same⟩ := perform_add h
      exact ⟨flag.trans q.off, same ▸ q.unsaved⟩
    exact ⟨q.throughout (by simp) ends, ends⟩
  | .release slot =>
    have ends : ∀ t, (perform (.release slot) s).outcome = .ok t → Quiet outer t := by
      intro t h
      rcases perform_release h with ⟨-, rfl⟩ | ⟨guard, held, rfl⟩
      · exact q
      · exact q.release (Option.isNone_iff_eq_none.mp closed) held
    exact ⟨q.throughout (by simp) ends, ends⟩
  | .masked value work =>
    have inner : allClosed s.guards work { s with enabled := false } := by
      rw [Action.closed, Bool.and_eq_true] at closed
      exact closed.1
    obtain ⟨offWithin, quietWithin⟩ := performAll_quiet work
      (by rwa [Action.tame] at tame) inner (quiet_entered s)
    have ends : ∀ t, (perform (.masked value work) s).outcome = .ok t → Quiet outer t := by
      intro t h
      obtain ⟨flag, same⟩ := same_of_section closed quietWithin h
      exact ⟨flag.trans q.off, same ▸ q.unsaved⟩
    refine ⟨fun u passed => ?_, ends⟩
    cases passed with
    | here => exact q.off
    | next first later =>
      cases later
      exact (ends _ first).off
    | inside within => exact offWithin u within

/-- **Inside a section nothing unmasks**: at no moment of its work is the flag on. -/
theorem performAll_quiet {outer : Vector (Option (Guard locks)) slots} {s : State locks slots}
    (as : List (Action locks slots)) (tame : allTame as) (closed : allClosed outer as s)
    (q : Quiet outer s) :
    (∀ u, Passes as s u → u.enabled = false) ∧
      ∀ t, (performAll as s).outcome = .ok t → Quiet outer t := by
  match as with
  | [] =>
    refine ⟨fun u passed => ?_, fun t h => ?_⟩
    · cases passed
      exact q.off
    · rw [performAll] at h
      rw [← Except.ok.inj h]
      exact q
  | a :: rest =>
    obtain ⟨tameA, tameRest⟩ : a.tame ∧ allTame rest := by
      rwa [allTame, Bool.and_eq_true] at tame
    obtain ⟨closedA, closedRest⟩ :
        a.closed outer s ∧ afterwards a s (allClosed outer rest) := by
      rwa [allClosed, Bool.and_eq_true] at closed
    obtain ⟨offA, quietA⟩ := perform_quiet a tameA closedA q
    refine ⟨fun u passed => ?_, fun t h => ?_⟩
    · rcases passed.split with now | ⟨t, first, later⟩
      · exact offA u now
      · exact (performAll_quiet rest tameRest (of_afterwards closedRest first)
          (quietA t first)).1 u later
    · obtain ⟨v, first, later⟩ := performAll_cons h
      exact (performAll_quiet rest tameRest (of_afterwards closedRest first)
        (quietA v first)).2 t later

end

/-- **A closed section** works with the flag off all the time, and changes neither the flag nor
    the guards. -/
theorem section_closed {value : Int} {work : List (Action locks slots)}
    (tame : (Action.masked value work).tame) (closed : (Action.masked value work).closed outer s) :
    (∀ u, Passes work { s with enabled := false } u → u.enabled = false) ∧
      ∀ t, (perform (.masked value work) s).outcome = .ok t →
        t.enabled = s.enabled ∧ t.guards = s.guards := by
  have inner : allClosed s.guards work { s with enabled := false } := by
    rw [Action.closed, Bool.and_eq_true] at closed
    exact closed.1
  obtain ⟨off, quiet⟩ := performAll_quiet work (by rwa [Action.tame] at tame) inner
    (quiet_entered s)
  exact ⟨off, fun t h => same_of_section closed quiet h⟩

/-! ## The guard that masked, and the last one -/

/-- The flag is off while any guard is alive. -/
def Covered (s : State locks slots) : Prop :=
  s.alive ≠ [] → s.enabled = false

theorem covered_of_same (flag : t.enabled = s.enabled) (same : t.guards = s.guards)
    (c : Covered s) : Covered t := by
  rw [Covered, flag, alive_congr same]
  exact c

/-- The action does not drop the guard that masked while another one is alive. -/
def Action.spares (s : State locks slots) : Action locks slots → Bool
  | .release slot => (s.guards.get slot).all fun guard => !guard.saved || s.alive.length == 1
  | _ => true

/-- The guard that masked is always the last one to be dropped. -/
def maskerLast : List (Action locks slots) → State locks slots → Bool
  | [], _ => true
  | a :: rest, s => a.spares s && afterwards a s (maskerLast rest)

theorem spares_release {slot : Fin slots} {guard : Guard locks}
    (held : s.guards.get slot = some guard) :
    (Action.release slot).spares s ↔ (guard.saved = true → s.alive.length = 1) := by
  rw [Action.spares, held, Option.all_some]
  cases guard.saved <;> simp

/-- Dropping a guard leaves every other one covered exactly if it spares the mask. -/
theorem covered_release_iff {slot : Fin slots} {guard : Guard locks}
    (held : s.guards.get slot = some guard) (c : Covered s) :
    Covered (s.release slot guard) ↔ (guard.saved = true → s.alive.length = 1) := by
  have counted := length_alive_release held
  have off : s.enabled = false := c (List.ne_nil_of_length_pos (by omega))
  have flag : (s.release slot guard).enabled = guard.saved := by
    rw [State.release, off, Bool.false_or]
  rw [Covered, flag]
  constructor
  · intro covered saved
    -- the flag is on again, so nobody is left
    have nobody : (s.release slot guard).alive = [] :=
      Decidable.byContradiction fun some => Bool.noConfusion ((covered some).symm.trans saved)
    rw [← counted, nobody]
    rfl
  · intro last some
    cases saved : guard.saved with
    | false => rfl
    | true =>
      have : (s.release slot guard).alive.length = 0 := by have := last saved; omega
      exact absurd (List.length_eq_zero_iff.mp this) some

/-- One action that spares the mask keeps every guard covered. -/
theorem perform_covered {a : Action locks slots} (tame : a.tame) (closed : a.closed outer s)
    (c : Covered s) (spares : a.spares s) :
    (∀ u, Passes [a] s u → Covered u) ∧
      ∀ t, (perform a s).outcome = .ok t → Covered t := by
  have ends : ∀ t, (perform a s).outcome = .ok t → Covered t := by
    intro t h
    cases a with
    | enable => exact absurd tame (by simp [Action.tame])
    | disable => exact absurd tame (by simp [Action.tame])
    | acquire lock slot =>
      rcases perform_acquire h with ⟨-, rfl⟩ | ⟨-, -, rfl⟩
      · exact c
      · exact fun _ => rfl
    | add slot n =>
      obtain ⟨flag, same⟩ := perform_add h
      exact covered_of_same flag same c
    | release slot =>
      rcases perform_release h with ⟨-, rfl⟩ | ⟨guard, held, rfl⟩
      · exact c
      · exact (covered_release_iff held c).mpr ((spares_release held).mp spares)
    | masked value work =>
      obtain ⟨flag, same⟩ := (section_closed tame closed).2 t h
      exact covered_of_same flag same c
  refine ⟨fun u passed => ?_, ends⟩
  cases passed with
  | here => exact c
  | next first later =>
    cases later
    exact ends _ first
  | inside within => exact fun _ => (section_closed tame closed).1 u within

/-- **If the guard that masked is always dropped last, all guards are covered.** -/
theorem masked_of_masker_last (as : List (Action locks slots)) {s : State locks slots}
    (tame : allTame as) (closed : allClosed outer as s) (c : Covered s)
    (last : maskerLast as s) : ∀ u, Passes as s u → Covered u := by
  induction as generalizing s with
  | nil =>
    intro u passed
    cases passed
    exact c
  | cons a rest ih =>
    rw [allTame, Bool.and_eq_true] at tame
    rw [allClosed, Bool.and_eq_true] at closed
    rw [maskerLast, Bool.and_eq_true] at last
    obtain ⟨coveredA, after⟩ := perform_covered tame.1 closed.1 c last.1
    intro u passed
    rcases passed.split with now | ⟨t, first, later⟩
    · exact coveredA u now
    · exact ih tame.2 (of_afterwards closed.2 first) (after t first)
        (of_afterwards last.2 first) u later

/-- **If all guards are covered, the guard that masked is always dropped last.** -/
theorem masker_last_of_masked (as : List (Action locks slots)) {s : State locks slots}
    (masked : ∀ u, Passes as s u → Covered u) : maskerLast as s := by
  induction as generalizing s with
  | nil => rfl
  | cons a rest ih =>
    rw [maskerLast, Bool.and_eq_true]
    refine ⟨?_, afterwards_of fun t first => ih fun u later => masked u (.next first later)⟩
    cases a with
    | release slot =>
      cases held : s.guards.get slot with
      | none => rw [Action.spares, held]; rfl
      | some guard =>
        -- the moment right after the guard has been dropped
        have dropped := masked _ (.next (outcome_release held) .here)
        exact (spares_release held).mpr ((covered_release_iff held (masked s .here)).mp dropped)
    | _ => rfl

/-! ## In turn -/

/-- The slots of the guards that are alive after an action, the latest first; `taken` are those
    before it. -/
def Action.leaves (taken : List (Fin slots)) (s : State locks slots) :
    Action locks slots → List (Fin slots)
  | .acquire lock slot => if s.refuses lock slot then taken else slot :: taken
  | .release slot => if (s.guards.get slot).isSome then taken.tail else taken
  | _ => taken

/-- An action that drops a guard drops the one that was taken last. -/
def Action.takesTurn (taken : List (Fin slots)) (s : State locks slots) :
    Action locks slots → Bool
  | .release slot => (s.guards.get slot).isNone || taken.head? == some slot
  | _ => true

/-- Guards are dropped in reverse order. -/
def inTurn : List (Fin slots) → List (Action locks slots) → State locks slots → Bool
  | _, [], _ => true
  | taken, a :: rest, s =>
    a.takesTurn taken s && afterwards a s (inTurn (a.leaves taken s) rest)

/-- The living guards lie in the slots `taken`, the latest first, and only the one that was
    taken first can have masked. -/
structure Stacked (taken : List (Fin slots)) (s : State locks slots) : Prop where
  /-- No slot is there twice. -/
  distinct : taken.Nodup
  /-- In each of the slots is a guard. -/
  occupied : ∀ slot ∈ taken, s.guards.get slot ≠ none
  /-- There are no other guards. -/
  counted : s.alive.length = taken.length
  /-- All but the first found the flag off. -/
  unsaved : ∀ slot ∈ taken.dropLast, ∀ guard, s.guards.get slot = some guard → guard.saved = false
  /-- The flag is off while any of them is alive. -/
  covered : Covered s

variable {taken : List (Fin slots)}

theorem stacked_nil (none : s.alive = []) : Stacked [] s where
  distinct := .nil
  occupied _ h := by cases h
  counted := by rw [none]; rfl
  unsaved _ h := by cases h
  covered some := absurd none some

theorem Stacked.of_same (k : Stacked taken s) (flag : t.enabled = s.enabled)
    (same : t.guards = s.guards) : Stacked taken t where
  distinct := k.distinct
  occupied := same ▸ k.occupied
  counted := by rw [alive_congr same, k.counted]
  unsaved := same ▸ k.unsaved
  covered := covered_of_same flag same k.covered

theorem Stacked.acquire (k : Stacked taken s) {lock : Fin locks} {slot : Fin slots}
    (empty : s.guards.get slot = none) : Stacked (slot :: taken) (s.acquire lock slot) := by
  have fresh : slot ∉ taken := fun there => k.occupied slot there empty
  have others : ∀ other ∈ taken, (s.acquire lock slot).guards.get other = s.guards.get other := by
    intro other there
    rw [State.acquire, get_set, if_neg fun (same : slot = other) => fresh (same ▸ there)]
  have here : (s.acquire lock slot).guards.get slot = some ⟨lock, s.enabled⟩ := by
    rw [State.acquire, get_set, if_pos rfl]
  refine ⟨List.nodup_cons.mpr ⟨fresh, k.distinct⟩, ?_, ?_, ?_, fun _ => rfl⟩
  · intro other there
    rcases List.mem_cons.mp there with rfl | there
    · rw [here]
      exact Option.some_ne_none _
    · rw [others other there]
      exact k.occupied other there
  · rw [length_alive_acquire empty, k.counted, List.length_cons]
  · intro other early guard held
    cases taken with
    | nil => cases early
    | cons latest below =>
      rw [List.dropLast_cons_cons] at early
      rcases List.mem_cons.mp early with rfl | early
      · -- the new guard found the flag off, because others were alive
        rw [here] at held
        rw [← Option.some.inj held]
        exact k.covered (List.ne_nil_of_length_pos (by rw [k.counted]; exact Nat.succ_pos _))
      · rw [others other (List.dropLast_subset _ early)] at held
        exact k.unsaved other early guard held

/-- Of guards that are stacked the latest may be dropped. -/
theorem Stacked.spares {slot : Fin slots} (k : Stacked taken s)
    (turn : (Action.release slot).takesTurn taken s) : (Action.release slot).spares s := by
  cases held : s.guards.get slot with
  | none => rw [Action.spares, held]; rfl
  | some guard =>
    rw [spares_release held]
    intro saved
    rw [Action.takesTurn, held, Option.isNone_some, Bool.false_or, beq_iff_eq] at turn
    cases taken with
    | nil => cases turn
    | cons latest below =>
      obtain rfl := Option.some.inj turn
      cases below with
      | nil => exact k.counted
      | cons earlier below =>
        have := k.unsaved latest (by rw [List.dropLast_cons_cons]; exact List.mem_cons_self)
          guard held
        exact Bool.noConfusion (this.symm.trans saved)

theorem Stacked.release {slot : Fin slots} {guard : Guard locks} (k : Stacked (slot :: taken) s)
    (held : s.guards.get slot = some guard) (covered : Covered (s.release slot guard)) :
    Stacked taken (s.release slot guard) := by
  have fresh : slot ∉ taken := (List.nodup_cons.mp k.distinct).1
  have others : ∀ other ∈ taken, (s.release slot guard).guards.get other = s.guards.get other := by
    intro other there
    rw [State.release, get_set, if_neg fun (same : slot = other) => fresh (same ▸ there)]
  refine ⟨(List.nodup_cons.mp k.distinct).2, ?_, ?_, ?_, covered⟩
  · intro other there
    rw [others other there]
    exact k.occupied other (List.mem_cons_of_mem _ there)
  · have counted := k.counted
    rw [← length_alive_release held, List.length_cons] at counted
    exact Nat.succ.inj counted
  · intro other early g there
    rw [others other (List.dropLast_subset _ early)] at there
    refine k.unsaved other ?_ g there
    cases taken with
    | nil => cases early
    | cons latest below =>
      rw [List.dropLast_cons_cons]
      exact List.mem_cons_of_mem _ early

/-- One action in turn spares the mask, and leaves the guards stacked. -/
theorem Stacked.next {a : Action locks slots} (k : Stacked taken s) (tame : a.tame)
    (closed : a.closed outer s) (turn : a.takesTurn taken s) :
    a.spares s ∧ ∀ t, (perform a s).outcome = .ok t → Stacked (a.leaves taken s) t := by
  cases a with
  | enable => exact absurd tame (by simp [Action.tame])
  | disable => exact absurd tame (by simp [Action.tame])
  | add slot n =>
    refine ⟨rfl, fun t h => ?_⟩
    obtain ⟨flag, same⟩ := perform_add h
    exact k.of_same flag same
  | masked value work =>
    refine ⟨rfl, fun t h => ?_⟩
    obtain ⟨flag, same⟩ := (section_closed tame closed).2 t h
    exact k.of_same flag same
  | acquire lock slot =>
    refine ⟨rfl, fun t h => ?_⟩
    rcases perform_acquire h with ⟨refused, rfl⟩ | ⟨accepted, empty, rfl⟩
    · rw [Action.leaves, if_pos refused]
      exact k
    · rw [Action.leaves, accepted]
      exact k.acquire empty
  | release slot =>
    have spares := k.spares turn
    refine ⟨spares, fun t h => ?_⟩
    rcases perform_release h with ⟨empty, rfl⟩ | ⟨guard, held, rfl⟩
    · rw [Action.leaves, empty]
      exact k
    · rw [Action.takesTurn, held, Option.isNone_some, Bool.false_or, beq_iff_eq] at turn
      rw [Action.leaves, held]
      cases taken with
      | nil => cases turn
      | cons latest below =>
        obtain rfl := Option.some.inj turn
        exact k.release held
          ((covered_release_iff held k.covered).mpr ((spares_release held).mp spares))

/-- **Guards that are dropped in reverse order** drop the mask with the last of them. -/
theorem masker_last_of_in_turn (as : List (Action locks slots)) {s : State locks slots}
    {taken : List (Fin slots)} (tame : allTame as) (closed : allClosed outer as s)
    (k : Stacked taken s) (turn : inTurn taken as s) : maskerLast as s := by
  induction as generalizing s taken with
  | nil => rfl
  | cons a rest ih =>
    rw [allTame, Bool.and_eq_true] at tame
    rw [allClosed, Bool.and_eq_true] at closed
    rw [inTurn, Bool.and_eq_true] at turn
    obtain ⟨spares, after⟩ := k.next tame.1 closed.1 turn.1
    rw [maskerLast, Bool.and_eq_true]
    exact ⟨spares, afterwards_of fun t first =>
      ih tame.2 (of_afterwards closed.2 first) (after t first) (of_afterwards turn.2 first)⟩

/-- Where there is no token no guard masks. -/
theorem masker_last_of_no_token (as : List (Action locks slots)) {s : State locks slots}
    (tame : allTame as) (without : s.tokens = 0) : maskerLast as s := by
  induction as generalizing s with
  | nil => rfl
  | cons a rest ih =>
    rw [allTame, Bool.and_eq_true] at tame
    rw [maskerLast, Bool.and_eq_true]
    refine ⟨?_, afterwards_of fun t first => ih tame.2 ?_⟩
    · cases a with
      | release slot =>
        cases held : s.guards.get slot with
        | none => rw [Action.spares, held]; rfl
        | some guard =>
          rw [spares_release held]
          intro saved
          have counted := countP_alive_release held Guard.saved
          rw [saved, Bool.toNat_true] at counted
          rw [State.tokens] at without
          omega
      | _ => rfl
    · rw [perform_tokens a tame.1 (by omega) first, without]

/-! ## The main result -/

/-- **What locks promise.**  Start where no guard is alive, and leave the flag to locks and to
    sections that enclose whole lives.  Then

    1. whenever no guard is alive outside the sections, the flag is what it was at the start;
    2. the flag is off at every moment at which a guard is alive, inside sections and outside,
       exactly if the guard that masked is always the last one to be dropped;
    3. this is so if guards are dropped in reverse order;
    4. and it is so, in whatever order guards are dropped, if interrupts were masked from the
       start. -/
theorem masks_iff_masker_last (as : List (Action locks slots)) (s : State locks slots)
    (tame : allTame as) (closed : allClosed s.guards as s) (nobody : s.alive = []) :
    (∀ before after t, as = before ++ after → (performAll before s).outcome = .ok t →
      t.alive = [] → t.enabled = s.enabled) ∧
    ((∀ u, Passes as s u → u.alive ≠ [] → u.enabled = false) ↔ maskerLast as s) ∧
    (inTurn [] as s → maskerLast as s) ∧
    (s.enabled = false → maskerLast as s) := by
  have start : s.tokens = s.enabled.toNat := by
    rw [State.tokens, nobody, List.countP_nil, Nat.zero_add]
  refine ⟨?_, ⟨?_, ?_⟩, ?_, ?_⟩
  · intro before after t whole done alone
    rw [whole, allTame_append, Bool.and_eq_true] at tame
    have kept := performAll_tokens before tame.1 (start ▸ Bool.toNat_le _) done
    rw [start, State.tokens, alone, List.countP_nil, Nat.zero_add] at kept
    exact eq_of_toNat kept
  · exact masker_last_of_masked as
  · exact masked_of_masker_last as tame closed fun some => absurd nobody some
  · exact masker_last_of_in_turn as tame closed (stacked_nil nobody)
  · intro off
    exact masker_last_of_no_token as tame (by rw [start, off, Bool.toNat_false])

/-- Guards that are not dropped in reverse order, in a section and after it, while the guard that
    masked outlives them all: nothing unmasks before the last one. -/
theorem masked_under_one_guard :
    inTurn [] [.acquire 0 0, .masked 7 [.acquire 1 1, .acquire 2 2, .release 1, .release 2],
        .acquire 3 1, .acquire 2 2, .release 1, .release 2, .release 0]
      (State.initial 4 4 true) = false ∧
    ∀ u, Passes [.acquire 0 0, .masked 7 [.acquire 1 1, .acquire 2 2, .release 1, .release 2],
        .acquire 3 1, .acquire 2 2, .release 1, .release 2, .release 0]
      (State.initial 4 4 true) u → u.alive ≠ [] → u.enabled = false :=
  ⟨by decide +kernel, (masks_iff_masker_last _ _ (by decide +kernel) (by decide +kernel)
    (by decide +kernel)).2.1.mpr (by decide +kernel)⟩

/-- **Locks alone do not mask for the life of every guard**: with two guards the one that was
    taken first, dropped first, lets interrupts through while the other is alive. -/
theorem unmasked_by_first_guard :
    ¬ ∀ u, Passes [.acquire 0 0, .acquire 1 1, .release 0] (State.initial 4 4 true) u →
      u.alive ≠ [] → u.enabled = false := by
  intro masked
  have last := masker_last_of_masked _ masked
  exact absurd last (by decide +kernel)

end PreemptiveKernel.Critical
