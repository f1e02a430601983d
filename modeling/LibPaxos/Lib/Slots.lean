import Mathlib.Data.Finset.Card
import Mathlib.Data.Finset.Range
import Mathlib.Data.List.Basic

/-!
# Counting the slots of an array

An array with one slot for each participant, some of which are marked. Counting marks is counting
distinct participants: `card_slots`. A descending list without gaps counts down: `add_index_eq`.
-/

namespace List

variable {α : Type}

/-- The positions of `l` whose content satisfies `q`. -/
def slots (q : α → Bool) (l : List α) : Finset Nat :=
  (Finset.range l.length).filter fun i => l[i]?.any q = true

theorem mem_slots {q : α → Bool} {l : List α} {i : Nat} :
    i ∈ l.slots q ↔ ∃ x, l[i]? = some x ∧ q x = true := by
  unfold slots
  rw [Finset.mem_filter, Finset.mem_range]
  constructor
  · rintro ⟨-, h⟩
    cases hx : l[i]? with
    | none =>
      rw [hx] at h
      cases h
    | some x =>
      rw [hx] at h
      exact ⟨x, rfl, h⟩
  · rintro ⟨x, hx, hq⟩
    refine ⟨(List.getElem?_eq_some_iff.mp hx).1, ?_⟩
    rw [hx]
    exact hq

theorem slots_subset (q : α → Bool) (l : List α) : l.slots q ⊆ Finset.range l.length :=
  Finset.filter_subset _ _

/-- There are as many marked positions as marks. Induction from the end of the list, where the
last index is the one `Finset.range` adds. -/
theorem card_slots (q : α → Bool) (l : List α) : (l.slots q).card = l.countP q := by
  unfold slots
  induction l using List.reverseRecOn with
  | nil => simp
  | append_singleton xs x ih =>
    have hold : ((Finset.range xs.length).filter fun i => (xs ++ [x])[i]?.any q = true)
        = (Finset.range xs.length).filter fun i => xs[i]?.any q = true := by
      apply Finset.filter_congr
      intro i hi
      rw [List.getElem?_append_left (Finset.mem_range.mp hi)]
    have hlast : (xs ++ [x])[xs.length]? = some x := by simp
    rw [List.length_append, List.length_singleton, Finset.range_add_one, Finset.filter_insert, hold,
      List.countP_append, hlast]
    cases hq : q x with
    | false => simpa [hq] using ih
    | true =>
      rw [if_pos (by simpa using hq), Finset.card_insert_of_notMem (by simp), ih]
      simp [hq]

/-- A descending list of positive numbers that leaves none out counts down to 1. -/
theorem add_index_eq {l : List Nat} (hs : l.Pairwise (· > ·)) (hpos : ∀ x ∈ l, 0 < x)
    (hdown : ∀ x ∈ l, ∀ y, 0 < y → y < x → y ∈ l) {i x : Nat} (h : l[i]? = some x) :
    x + i = l.length := by
  induction l generalizing i x with
  | nil => cases h
  | cons z l ih =>
    obtain ⟨hz, hs⟩ := List.pairwise_cons.mp hs
    -- the rest leaves none out either: what it has is below `z`
    have hrest : ∀ x ∈ l, ∀ y, 0 < y → y < x → y ∈ l := by
      intro x hx y hy hlt
      rcases List.mem_cons.mp (hdown x (List.mem_cons_of_mem _ hx) y hy hlt) with rfl | hmem
      · have := hz x hx
        omega
      · exact hmem
    have htail : ∀ {i x}, l[i]? = some x → x + i = l.length :=
      ih hs (fun x hx => hpos x (List.mem_cons_of_mem _ hx)) hrest
    have hhead : z = l.length + 1 := by
      have hzpos := hpos z List.mem_cons_self
      by_cases hone : z = 1
      · cases l with
        | nil => exact hone
        | cons y l =>
          have hy := hz y List.mem_cons_self
          have := hpos y (List.mem_cons_of_mem _ List.mem_cons_self)
          omega
      · have hmem : z - 1 ∈ l := by
          rcases List.mem_cons.mp (hdown z List.mem_cons_self (z - 1) (by omega) (by omega)) with
            heq | hmem
          · omega
          · exact hmem
        cases l with
        | nil => cases hmem
        | cons y l =>
          have hy : y + 0 = (y :: l).length := htail rfl
          have := hz y List.mem_cons_self
          obtain ⟨j, hj⟩ := List.getElem?_of_mem hmem
          have := htail hj
          omega
    cases i with
    | zero =>
      cases h
      exact hhead
    | succ i =>
      have := htail h
      rw [List.length_cons]
      omega

end List
