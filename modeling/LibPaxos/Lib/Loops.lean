import Mathlib.Order.Basic
import Mathlib.Tactic.Common

/-!
# While loops

A `while` loop is given by its turn: what testing the condition and, if it holds, running the body
makes of the state, and whether there is another turn. `loop turn fuel s` is the loop with a bound
on the turns; the result is `none` as long as the bound is too small.

* **`exists_loop_eq_some`** — a loop ends if a measure drops with every turn that is followed by
  another one.
* **`loop_eq_none`** — a loop does not end if its states have a property that makes for another turn
  and is kept by it.
-/

namespace Loops

variable {σ ε : Type}

/-- The state in which the loop ends, if it does within `fuel` turns. -/
def loop (turn : σ → Except ε (σ × Bool)) : Nat → σ → Except ε (Option σ)
  | 0, _ => .ok none
  | fuel + 1, s =>
    match turn s with
    | .error e => .error e
    | .ok (s', true) => loop turn fuel s'
    | .ok (s', false) => .ok (some s')

variable {turn : σ → Except ε (σ × Bool)} {s s' : σ} {fuel : Nat}

theorem loop_again (h : turn s = .ok (s', true)) :
    loop turn (fuel + 1) s = loop turn fuel s' := by
  simp [loop, h]

theorem loop_done (h : turn s = .ok (s', false)) :
    loop turn (fuel + 1) s = .ok (some s') := by
  simp [loop, h]

theorem loop_fault {e : ε} (h : turn s = .error e) : loop turn (fuel + 1) s = .error e := by
  simp [loop, h]

/-- **The first turn of a loop that ends** is its last one, or the loop goes on and ends. -/
theorem loop_eq_some_cases (h : loop turn fuel s = .ok (some s')) :
    ∃ k, fuel = k + 1 ∧ (turn s = .ok (s', false) ∨
      ∃ s₁, turn s = .ok (s₁, true) ∧ loop turn k s₁ = .ok (some s')) := by
  cases fuel with
  | zero => cases h
  | succ k =>
    refine ⟨k, rfl, ?_⟩
    cases hturn : turn s with
    | error e => cases (loop_fault hturn).symm.trans h
    | ok r =>
      obtain ⟨s₁, again⟩ := r
      cases again with
      | true => exact .inr ⟨s₁, rfl, (loop_again hturn).symm.trans h⟩
      | false =>
        cases (loop_done hturn).symm.trans h
        exact .inl rfl

/-- A larger bound makes no difference to a loop that has ended. -/
theorem loop_mono {fuel' : Nat} (hle : fuel ≤ fuel') (h : loop turn fuel s = .ok (some s')) :
    loop turn fuel' s = .ok (some s') := by
  induction fuel generalizing s fuel' with
  | zero => cases h
  | succ fuel ih =>
    obtain ⟨fuel', rfl⟩ : ∃ k, fuel' = k + 1 := ⟨fuel' - 1, by omega⟩
    obtain ⟨k, ⟨⟩, hturn | ⟨s₁, hturn, hloop⟩⟩ := loop_eq_some_cases h
    · exact loop_done hturn
    · rw [loop_again hturn]
      exact ih (by omega) hloop

/-- What a loop returns does not depend on the fuel. -/
theorem loop_unique {fuel' : Nat} {s'' : σ} (h : loop turn fuel s = .ok (some s'))
    (h' : loop turn fuel' s = .ok (some s'')) : s' = s'' := by
  have heq := loop_mono (Nat.le_max_left fuel fuel') h
  rw [loop_mono (Nat.le_max_right fuel fuel') h'] at heq
  exact (Option.some.inj (Except.ok.inj heq)).symm

/-- What every turn keeps holds where the loop ends. -/
theorem of_loop_eq_some {I : σ → Prop} (hturn : ∀ s s' again, I s → turn s = .ok (s', again) → I s')
    (hs : I s) (h : loop turn fuel s = .ok (some s')) : I s' := by
  induction fuel generalizing s with
  | zero => cases h
  | succ fuel ih =>
    obtain ⟨k, ⟨⟩, hr | ⟨s₁, hr, hloop⟩⟩ := loop_eq_some_cases h
    · exact hturn _ _ _ hs hr
    · exact ih (hturn _ _ _ hs hr) hloop

/-- The last turn of a loop starts with what every other turn keeps. -/
theorem exists_last_turn {I : σ → Prop} (hturn : ∀ s s', I s → turn s = .ok (s', true) → I s')
    (hs : I s) (h : loop turn fuel s = .ok (some s')) : ∃ t, I t ∧ turn t = .ok (s', false) := by
  induction fuel generalizing s with
  | zero => cases h
  | succ fuel ih =>
    obtain ⟨k, ⟨⟩, hr | ⟨s₁, hr, hloop⟩⟩ := loop_eq_some_cases h
    · exact ⟨s, hs, hr⟩
    · exact ih (hturn _ _ hs hr) hloop

/-- **A loop that ends.** `I` holds before every turn, `μ` bounds the turns that are left, and what
the last turn leaves is `Q`. -/
theorem exists_loop_eq_some {I Q : σ → Prop} (μ : σ → Nat)
    (hturn : ∀ s, I s → (∃ s', turn s = .ok (s', true) ∧ I s' ∧ μ s' < μ s) ∨
      ∃ s', turn s = .ok (s', false) ∧ Q s') :
    ∀ s, I s → ∃ s', loop turn (μ s + 1) s = .ok (some s') ∧ Q s' := by
  intro s
  induction hm : μ s using Nat.strongRecOn generalizing s with
  | ind m ih =>
    intro hs
    rcases hturn s hs with ⟨s₁, hs₁, hI, hlt⟩ | ⟨s₁, hs₁, hQ⟩
    · obtain ⟨s', hloop, hQ⟩ := ih (μ s₁) (hm ▸ hlt) s₁ rfl hI
      refine ⟨s', ?_, hQ⟩
      rw [loop_again hs₁]
      exact loop_mono (by omega) hloop
    · exact ⟨s₁, loop_done hs₁, hQ⟩

/-- **A loop that does not end**: there is always another turn. -/
theorem loop_eq_none {J : σ → Prop} (hturn : ∀ s, J s → ∃ s', turn s = .ok (s', true) ∧ J s') :
    ∀ (fuel : Nat) (s : σ), J s → loop turn fuel s = .ok none := by
  intro fuel
  induction fuel with
  | zero => exact fun s _ => rfl
  | succ fuel ih =>
    intro s hs
    obtain ⟨s', hs', hJ⟩ := hturn s hs
    rw [loop_again hs']
    exact ih s' hJ

end Loops
