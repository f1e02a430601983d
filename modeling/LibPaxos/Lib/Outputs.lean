import Mathlib.Logic.Basic

/-!
# Step functions with outputs

A system that answers every input: `step s i` is the answer to the input `i` in the state `s` and
the state after it. Two such systems give the same answers when a relation between their states is
kept by every step and related states answer alike.

* **`outputs_eq_of_simulation`** — the rule, over whole input sequences.
-/

namespace Outputs

variable {σ τ ι ο : Type}

/-- The answers to a sequence of inputs, and the state after it. -/
def run (step : σ → ι → ο × σ) (s : σ) : List ι → List ο × σ
  | [] => ([], s)
  | i :: is => ((step s i).1 :: (run step (step s i).2 is).1, (run step (step s i).2 is).2)

theorem length_run (step : σ → ι → ο × σ) (s : σ) (is : List ι) :
    (run step s is).1.length = is.length := by
  induction is generalizing s with
  | nil => rfl
  | cons i is ih => exact congrArg (· + 1) (ih _)

/-- **The simulation rule.** -/
theorem outputs_eq_of_simulation {step : σ → ι → ο × σ} {step' : τ → ι → ο × τ}
    {R : σ → τ → Prop} {ok : ι → Prop}
    (hstep : ∀ {s t} i, R s t → ok i →
      (step s i).1 = (step' t i).1 ∧ R (step s i).2 (step' t i).2) :
    ∀ (is : List ι) {s : σ} {t : τ}, R s t → (∀ i ∈ is, ok i) →
      (run step s is).1 = (run step' t is).1 ∧ R (run step s is).2 (run step' t is).2 := by
  intro is
  induction is with
  | nil =>
    intro s t hR _
    exact ⟨rfl, hR⟩
  | cons i is ih =>
    intro s t hR hok
    obtain ⟨hout, hnext⟩ := hstep i hR (hok i List.mem_cons_self)
    obtain ⟨houts, hlast⟩ := ih hnext fun j hj => hok j (List.mem_cons_of_mem i hj)
    exact ⟨congrArg₂ List.cons hout houts, hlast⟩

end Outputs
