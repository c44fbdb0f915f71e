/-
  Computations that leave a trace and may stop.

  A run of type `Run ω α` has emitted a list of observations of type `ω` and then either
  come to a value or stopped for good.  The two are kept side by side because a stop does
  not undo what was seen before it: the trace survives, the value does not.

  `Run ω` is a lawful monad.  The two projections of a sequence are what one expects
  (`outcome_bind`, `trace_bind`), so a proof about states reads only outcomes and a proof
  about what was seen reads only traces.  `outcome_bind_eq_ok_iff` takes a sequence apart
  that has come to a value.
-/
import PreemptiveKernel.Stop

namespace PreemptiveKernel

/-- A finished computation: what it let be seen, and how it ended. -/
structure Run (ω α : Type) where
  /-- What was seen, in order. -/
  trace : List ω
  /-- The value, or the reason why there is none. -/
  outcome : Except Stop α

namespace Run

variable {ω α β : Type}

/-- Sees nothing and gives `a`. -/
protected def pure (a : α) : Run ω α :=
  ⟨[], .ok a⟩

/-- Runs `x` and, if it did not stop, goes on with its value. -/
protected def bind (x : Run ω α) (f : α → Run ω β) : Run ω β :=
  match x.outcome with
  | .error s => ⟨x.trace, .error s⟩
  | .ok a => ⟨x.trace ++ (f a).trace, (f a).outcome⟩

/-- Applies a function to the value, if there is one. -/
protected def map (f : α → β) (x : Run ω α) : Run ω β :=
  ⟨x.trace, x.outcome.map f⟩

instance : Monad (Run ω) where
  pure := Run.pure
  bind := Run.bind
  map := Run.map

/-- Lets one observation be seen. -/
def emit (o : ω) : Run ω Unit :=
  ⟨[o], .ok ()⟩

/-- Ends for good. -/
def stop (s : Stop) : Run ω α :=
  ⟨[], .error s⟩

/-- A computation that sees nothing but may stop. -/
def ofExcept (x : Except Stop α) : Run ω α :=
  ⟨[], x⟩

instance : MonadLift (Except Stop) (Run ω) := ⟨ofExcept⟩

/-! ## The projections of a sequence -/

@[simp] theorem trace_pure (a : α) : (pure a : Run ω α).trace = [] := rfl

@[simp] theorem outcome_pure (a : α) : (pure a : Run ω α).outcome = .ok a := rfl

@[simp] theorem trace_emit (o : ω) : (emit o).trace = [o] := rfl

@[simp] theorem outcome_emit (o : ω) : (emit o).outcome = .ok () := rfl

@[simp] theorem trace_stop (s : Stop) : (stop s : Run ω α).trace = [] := rfl

@[simp] theorem outcome_stop (s : Stop) : (stop s : Run ω α).outcome = .error s := rfl

@[simp] theorem trace_ofExcept (x : Except Stop α) : (ofExcept x : Run ω α).trace = [] := rfl

@[simp] theorem outcome_ofExcept (x : Except Stop α) :
    (ofExcept x : Run ω α).outcome = x := rfl

@[simp] theorem monadLift_eq_ofExcept (x : Except Stop α) :
    (MonadLift.monadLift x : Run ω α) = ofExcept x := rfl

/-- The value of a sequence is the value of its parts in turn. -/
@[simp] theorem outcome_bind (x : Run ω α) (f : α → Run ω β) :
    (x >>= f).outcome = x.outcome.bind fun a => (f a).outcome := by
  show (Run.bind x f).outcome = _
  unfold Run.bind
  cases x.outcome <;> rfl

@[simp] theorem trace_map (f : α → β) (x : Run ω α) : (f <$> x).trace = x.trace := rfl

@[simp] theorem outcome_map (f : α → β) (x : Run ω α) :
    (f <$> x).outcome = x.outcome.map f := rfl

/-- A sequence shows what its first part shows, and then what the second does if it is
    reached. -/
theorem trace_bind (x : Run ω α) (f : α → Run ω β) :
    (x >>= f).trace =
      x.trace ++ (match x.outcome with | .ok a => (f a).trace | .error _ => []) := by
  show (Run.bind x f).trace = _
  unfold Run.bind
  cases x.outcome <;> simp

theorem bind_of_ok {x : Run ω α} {a : α} (h : x.outcome = .ok a) (f : α → Run ω β) :
    x >>= f = ⟨x.trace ++ (f a).trace, (f a).outcome⟩ := by
  show Run.bind x f = _
  simp [Run.bind, h]

theorem bind_of_error {x : Run ω α} {s : Stop} (h : x.outcome = .error s)
    (f : α → Run ω β) : x >>= f = ⟨x.trace, .error s⟩ := by
  show Run.bind x f = _
  simp [Run.bind, h]

/-- A sequence comes to a value exactly when its first part does and the second then comes to
    that value. -/
theorem outcome_bind_eq_ok_iff {x : Run ω α} {f : α → Run ω β} {b : β} :
    (x >>= f).outcome = .ok b ↔ ∃ a, x.outcome = .ok a ∧ (f a).outcome = .ok b := by
  rw [outcome_bind]
  constructor
  · intro h
    rcases hx : x.outcome with s | a
    · rw [hx] at h
      -- a first part that stopped leaves no value to go on with
      nomatch h
    · rw [hx] at h
      exact ⟨a, rfl, h⟩
  · rintro ⟨a, ha, hb⟩
    rw [ha]
    exact hb

instance : LawfulMonad (Run ω) := LawfulMonad.mk' _
  (fun x => by
    obtain ⟨t, o⟩ := x
    cases o <;> rfl)
  (fun a f => by
    show Run.bind (Run.pure a) f = f a
    simp [Run.bind, Run.pure])
  (fun x f g => by
    show Run.bind (Run.bind x f) g = Run.bind x (fun a => Run.bind (f a) g)
    obtain ⟨t, o⟩ := x
    cases o with
    | error s => rfl
    | ok a =>
      simp only [Run.bind]
      cases (f a).outcome <;> simp)
  (fun _ _ => rfl) (fun _ _ => rfl) (fun _ _ => rfl)
  (fun f x => by
    show Run.bind x (fun a => Run.pure (f a)) = Run.map f x
    obtain ⟨t, o⟩ := x
    cases o <;> simp [Run.bind, Run.pure, Run.map, Except.map])

end Run

end PreemptiveKernel
