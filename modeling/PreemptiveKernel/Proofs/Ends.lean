/-
  What a run comes to.

  `Ends` is a postcondition for runs.  It admits some stops and asks the value, if there is
  one, to satisfy a predicate.  With no stop admitted it says that the run does come to a
  value (`ends_never_iff`), so one notion serves both the operations that cannot fail and
  those that may run into the end of a machine word.

  A sequence is proved by its parts (`ends_bind`); a part that is known to come to a certain
  value is stepped over (`ends_bind_of_ok`).
-/
import PreemptiveKernel.Effect

namespace PreemptiveKernel

namespace Stop

/-- No stop. -/
def Never (_ : Stop) : Prop := False

/-- The stops that checked arithmetic on machine words causes. -/
def IsOverflow (s : Stop) : Prop :=
  s = .addOverflow ∨ s = .subOverflow

end Stop

namespace Run

variable {ω α β : Type} {admitted admitted' : Stop → Prop}

/-- The run comes to a value that satisfies `post`, or it stops in a way that is admitted. -/
def Ends (admitted : Stop → Prop) (post : α → Prop) (x : Run ω α) : Prop :=
  match x.outcome with
  | .ok a => post a
  | .error s => admitted s

variable {post post' : α → Prop} {x : Run ω α}

theorem ends_of_ok {a : α} (h : x.outcome = .ok a) (ha : post a) : x.Ends admitted post := by
  unfold Ends
  rw [h]
  exact ha

theorem ends_pure {a : α} (ha : post a) : (pure a : Run ω α).Ends admitted post := ha

instance : DecidablePred Stop.Never := fun _ => instDecidableFalse

/-- How a run ends can be found out by running it. -/
instance [DecidablePred admitted] [DecidablePred post] : Decidable (x.Ends admitted post) :=
  match h : x.outcome with
  | .ok a => decidable_of_iff (post a) (by unfold Ends; rw [h])
  | .error s => decidable_of_iff (admitted s) (by unfold Ends; rw [h])

/-- What is known of a run that ends well holds of its value. -/
theorem Ends.of_ok {a : α} (h : x.Ends admitted post) (hx : x.outcome = .ok a) : post a := by
  unfold Ends at h
  rwa [hx] at h

theorem Ends.mono (h : x.Ends admitted post) (hs : ∀ s, admitted s → admitted' s)
    (hp : ∀ a, post a → post' a) : x.Ends admitted' post' := by
  unfold Ends at h ⊢
  cases hx : x.outcome with
  | ok a => rw [hx] at h; exact hp a h
  | error s => rw [hx] at h; exact hs s h

/-- A weaker postcondition. -/
theorem Ends.imp (h : x.Ends admitted post) (hp : ∀ a, post a → post' a) :
    x.Ends admitted post' :=
  h.mono (fun _ => id) hp

/-- A run that admits no stop comes to a value. -/
theorem ends_never_iff : x.Ends Stop.Never post ↔ ∃ a, x.outcome = .ok a ∧ post a := by
  constructor
  · intro h
    cases hx : x.outcome with
    | ok a => exact ⟨a, rfl, h.of_ok hx⟩
    | error s =>
      unfold Ends at h
      rw [hx] at h
      exact h.elim
  · rintro ⟨a, ha, hp⟩
    exact ends_of_ok ha hp

/-- What cannot stop cannot stop in an admitted way either. -/
theorem Ends.of_never (h : x.Ends Stop.Never post) : x.Ends admitted post :=
  h.mono (fun _ hs => hs.elim) fun _ => id

/-- A run that comes to a value comes to one with all that is known of its values. -/
theorem Ends.of_answer (h : x.Ends admitted post) (hx : ∃ a, x.outcome = .ok a) :
    x.Ends Stop.Never post := by
  obtain ⟨a, ha⟩ := hx
  exact ends_of_ok ha (h.of_ok ha)

/-- Along with what is known of its value, a run that ends well comes to it. -/
theorem Ends.with_outcome (h : x.Ends admitted post) :
    x.Ends admitted fun a => x.outcome = .ok a ∧ post a := by
  unfold Ends at h ⊢
  cases hx : x.outcome with
  | ok a =>
    rw [hx] at h
    exact ⟨rfl, h⟩
  | error s =>
    rw [hx] at h
    exact h

/-- **Sequences are proved by their parts**: the second part has to do its work from every
    value that the first may come to. -/
theorem ends_bind {f : α → Run ω β} {q : β → Prop} (hx : x.Ends admitted post)
    (hf : ∀ a, post a → (f a).Ends admitted q) : (x >>= f).Ends admitted q := by
  unfold Ends at hx ⊢
  rw [outcome_bind]
  cases h : x.outcome with
  | ok a => rw [h] at hx; exact hf a hx
  | error s => rw [h] at hx; exact hx

/-- What is done to the value of a run does not stop it. -/
theorem ends_map {f : α → β} {q : β → Prop} (hx : x.Ends admitted post)
    (hf : ∀ a, post a → q (f a)) : (f <$> x).Ends admitted q := by
  unfold Ends at hx ⊢
  rw [outcome_map]
  cases h : x.outcome with
  | ok a => rw [h] at hx; exact hf a hx
  | error s => rw [h] at hx; exact hx

/-- A first part that comes to `a` is stepped over. -/
theorem ends_bind_of_ok {a : α} {f : α → Run ω β} {q : β → Prop} (h : x.outcome = .ok a)
    (hf : (f a).Ends admitted q) : (x >>= f).Ends admitted q :=
  ends_bind (ends_of_ok h rfl) fun _ e => e ▸ hf

/-- A sequence that can only stop is a sequence of runs. -/
theorem ofExcept_bind (x : Except Stop α) (f : α → Except Stop β) :
    (ofExcept (x >>= f) : Run ω β) = ofExcept x >>= fun a => ofExcept (f a) := by
  cases x <;> rfl

end Run

end PreemptiveKernel
