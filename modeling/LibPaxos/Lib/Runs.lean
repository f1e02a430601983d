import Mathlib.Order.Basic

/-!
# Runs of a partial step function

A system is a partial step function `step : σ → ε → Option σ`: in state `s` the event `e` leads
to `step s e`, or cannot happen there. `Reaches step ok s₀ s` says that `s` is reached from `s₀`
by events each of which satisfies `ok` in the state it happens in; `ok` is the place for a
condition on every step of a run.

* **`Reaches.invariant`** — the induction rule: what holds initially and is kept by every step
  that satisfies `ok` holds in every state reached.
* **`run`** — the same thing executed, so that a concrete run can be evaluated.
-/

namespace Runs

variable {σ ε : Type} {step : σ → ε → Option σ} {ok : σ → ε → Prop} {s₀ s s' : σ}

/-- The states reached from `s₀` by steps that satisfy `ok`. -/
inductive Reaches (step : σ → ε → Option σ) (ok : σ → ε → Prop) (s₀ : σ) : σ → Prop where
  | init : Reaches step ok s₀ s₀
  | step {s s' : σ} {e : ε} (hr : Reaches step ok s₀ s) (hok : ok s e)
      (hs : step s e = some s') : Reaches step ok s₀ s'

/-- **The invariant rule.** -/
theorem Reaches.invariant {I : σ → Prop} (hr : Reaches step ok s₀ s) (hinit : I s₀)
    (hstep : ∀ {s s' : σ} {e : ε}, Reaches step ok s₀ s → I s → ok s e →
      step s e = some s' → I s') : I s := by
  induction hr with
  | init => exact hinit
  | step hr hok hs ih => exact hstep hr ih hok hs

/-- A condition on every step may be weakened. -/
theorem Reaches.mono {ok' : σ → ε → Prop} (h : ∀ s e, ok s e → ok' s e)
    (hr : Reaches step ok s₀ s) : Reaches step ok' s₀ s := by
  induction hr with
  | init => exact .init
  | step _ hok hs ih => exact .step ih (h _ _ hok) hs

/-! ## Executing a run

A run that is given by its events can be evaluated, which shows that a state is reached. The lemmas
about `Except` are for steps whose functions may fail. -/

/-- The state after the events `es`, if each of them can happen and satisfies `ok`. -/
def run (step : σ → ε → Option σ) (ok : σ → ε → Prop) [∀ s e, Decidable (ok s e)] (s : σ) :
    List ε → Option σ
  | [] => some s
  | e :: es =>
    if ok s e then
      match step s e with
      | none => none
      | some s' => run step ok s' es
    else none

theorem Reaches.append_run [∀ s e, Decidable (ok s e)] :
    ∀ (es : List ε) {s : σ}, Reaches step ok s₀ s → run step ok s es = some s' →
      Reaches step ok s₀ s' := by
  intro es
  induction es with
  | nil =>
    intro s hr h
    cases h
    exact hr
  | cons e es ih =>
    intro s hr h
    rw [run] at h
    by_cases hok : ok s e
    · rw [if_pos hok] at h
      cases hs : step s e with
      | none => rw [hs] at h; cases h
      | some s₁ =>
        rw [hs] at h
        exact ih (.step hr hok hs) h
    · rw [if_neg hok] at h
      cases h

/-- What a run computes is reached. -/
theorem reaches_of_run [∀ s e, Decidable (ok s e)] {es : List ε}
    (h : run step ok s₀ es = some s) : Reaches step ok s₀ s :=
  Reaches.append_run es .init h

/-- A concrete run that ends in a state satisfying `p`. -/
theorem exists_reaches_of_run (step : σ → ε → Option σ) (ok : σ → ε → Prop)
    [∀ s e, Decidable (ok s e)] (s₀ : σ) (es : List ε) (p : σ → Bool)
    (h : (run step ok s₀ es).any p = true) : ∃ s, Reaches step ok s₀ s ∧ p s = true := by
  cases hr : run step ok s₀ es with
  | none =>
    rw [hr] at h
    cases h
  | some s =>
    rw [hr] at h
    exact ⟨s, reaches_of_run hr, h⟩

/-- A concrete run with a state on the way. -/
theorem exists_reaches_of_run_run (step : σ → ε → Option σ) (ok : σ → ε → Prop)
    [∀ s e, Decidable (ok s e)] (s₀ : σ) (es es' : List ε) (p : σ → σ → Bool)
    (h : ((run step ok s₀ es).any fun s => (run step ok s es').any (p s)) = true) :
    ∃ s s', Reaches step ok s₀ s ∧ Reaches step ok s s' ∧ p s s' = true := by
  obtain ⟨s, hr, hs⟩ := exists_reaches_of_run step ok s₀ es _ h
  obtain ⟨s', hr', hp⟩ := exists_reaches_of_run step ok s es' _ hs
  exact ⟨s, s', hr, hr', hp⟩

theorem Reaches.trans (hr : Reaches step ok s₀ s) (hr' : Reaches step ok s s') :
    Reaches step ok s₀ s' := by
  induction hr' with
  | init => exact hr
  | step _ hok hs ih => exact .step ih hok hs

end Runs

/-- A step that succeeds hands its result on. -/
theorem Except.ok_bind {ε α β : Type} (a : α) (f : α → Except ε β) : (.ok a >>= f) = f a :=
  rfl

/-- A sequence of two fallible steps succeeds when both do. -/
theorem Except.bind_eq_ok {ε α β : Type} {x : Except ε α} {f : α → Except ε β} {r : β} :
    (x >>= f) = .ok r ↔ ∃ a, x = .ok a ∧ f a = .ok r := by
  cases x with
  | error e =>
    constructor
    · intro h
      cases h
    · rintro ⟨a, ha, -⟩
      cases ha
  | ok a =>
    constructor
    · intro h
      exact ⟨a, rfl, h⟩
    · rintro ⟨a', ha, h⟩
      cases ha
      exact h

theorem Except.exists_bind_eq_ok {ε α β : Type} {x : Except ε α} {f : α → Except ε β} {a : α}
    (hx : x = .ok a) (hf : ∃ r, f a = .ok r) : ∃ r, (x >>= f) = .ok r := by
  obtain ⟨r, hr⟩ := hf
  exact ⟨r, bind_eq_ok.mpr ⟨a, hx, hr⟩⟩

theorem Except.eq_ok_of_toOption {ε α : Type} {x : Except ε α} {a : α}
    (h : x.toOption = some a) : x = .ok a := by
  cases x with
  | error e => cases h
  | ok a' => exact congrArg ok (Option.some.inj h)

/-- Why a call did not return, if it did not. -/
def Except.fault {ε α : Type} : Except ε α → Option ε
  | .error e => some e
  | .ok _ => none

theorem Except.eq_error_of_fault {ε α : Type} {x : Except ε α} {e : ε} (h : x.fault = some e) :
    x = .error e := by
  cases x with
  | error e' => exact congrArg error (Option.some.inj h)
  | ok a => cases h
