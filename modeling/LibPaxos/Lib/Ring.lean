import Mathlib.Data.List.Induction

/-!
# Ring buffers

A list lies in a ring of cells if its elements are in successive cells from some head on, where
the cell after the last one is the first. What the other cells hold does not matter.

* **`Stored.push`** — writing to the cell behind the list appends to it.
* **`Stored.pop`** — moving the head on drops the first element.
-/

namespace Ring

variable {α : Type} {cells : List α} {head : Nat} {q : List α} {x : α}

/-- The list `q` lies in the cells from `head` on. -/
structure Stored (cells : List α) (head : Nat) (q : List α) : Prop where
  head_lt : head < cells.length
  fits : q.length ≤ cells.length
  cell : ∀ i y, q[i]? = some y → cells[(head + i) % cells.length]? = some y

theorem stored_nil (h : head < cells.length) : Stored cells head [] where
  head_lt := h
  fits := Nat.zero_le _
  cell i y hy := by cases hy

/-- An offset of at most one turn wraps at most once. -/
theorem add_mod_cases {n i : Nat} (hhead : head < n) (hi : i ≤ n) :
    (head + i < n ∧ (head + i) % n = head + i) ∨
      (n ≤ head + i ∧ (head + i) % n = head + i - n) := by
  by_cases h : head + i < n
  · exact .inl ⟨h, Nat.mod_eq_of_lt h⟩
  · have hle : n ≤ head + i := Nat.not_lt.mp h
    refine .inr ⟨hle, ?_⟩
    rw [Nat.mod_eq_sub_mod hle, Nat.mod_eq_of_lt (by omega)]

/-- Different offsets within one turn are different cells. -/
theorem add_mod_ne {n i j : Nat} (hhead : head < n) (hij : i < j) (hj : j < n) :
    (head + i) % n ≠ (head + j) % n := by
  rcases add_mod_cases hhead (Nat.le_of_lt (Nat.lt_trans hij hj)) with ⟨_, hi⟩ | ⟨_, hi⟩ <;>
    rcases add_mod_cases hhead (Nat.le_of_lt hj) with ⟨_, hj'⟩ | ⟨_, hj'⟩ <;>
    omega

theorem Stored.mod_lt (h : Stored cells head q) (i : Nat) : i % cells.length < cells.length :=
  Nat.mod_lt _ (Nat.lt_of_le_of_lt (Nat.zero_le _) h.head_lt)

/-- **Writing behind the list** appends to it, as long as there is a free cell. -/
theorem Stored.push (h : Stored cells head q) (hroom : q.length < cells.length) (x : α) :
    Stored (cells.set ((head + q.length) % cells.length) x) head (q ++ [x]) where
  head_lt := by
    rw [List.length_set]
    exact h.head_lt
  fits := by
    rw [List.length_set, List.length_append]
    exact hroom
  cell i y hy := by
    rw [List.length_set]
    rcases Nat.lt_trichotomy i q.length with hi | rfl | hi
    · -- an element that was there before is in another cell
      rw [List.getElem?_append_left hi] at hy
      rw [List.getElem?_set_ne (add_mod_ne h.head_lt hi hroom).symm]
      exact h.cell i y hy
    · rw [List.getElem?_concat_length] at hy
      rw [List.getElem?_set_self (h.mod_lt _)]
      exact hy
    · rw [List.getElem?_eq_none (by rw [List.length_append]; exact hi)] at hy
      cases hy

/-- **Moving the head on** drops the first element, which was in the cell of the head. -/
theorem Stored.pop (h : Stored cells head (x :: q)) :
    cells[head]? = some x ∧ Stored cells ((head + 1) % cells.length) q := by
  constructor
  · have hx := h.cell 0 x rfl
    rwa [Nat.add_zero, Nat.mod_eq_of_lt h.head_lt] at hx
  · -- element `i` now was element `i + 1`, and its cell is the same
    refine ⟨h.mod_lt _, Nat.le_of_succ_le h.fits, fun i y hy => ?_⟩
    rw [Nat.mod_add_mod, Nat.add_assoc, Nat.add_comm 1 i]
    exact h.cell (i + 1) y hy

end Ring

/-- Reading the elements of a list by their numbers gives the list. -/
theorem List.mapM_range_eq_ok {ε α : Type} {f : Nat → Except ε α} {q : List α}
    (h : ∀ i x, q[i]? = some x → f i = .ok x) : (List.range q.length).mapM f = .ok q := by
  induction q using List.reverseRecOn with
  | nil => rfl
  | append_singleton q x ih =>
    have hinit : (List.range q.length).mapM f = .ok q := by
      refine ih fun i y hy => h i y ?_
      rw [List.getElem?_append_left (List.getElem?_eq_some_iff.mp hy).1]
      exact hy
    have hlast : f q.length = .ok x := h _ _ List.getElem?_concat_length
    rw [List.length_append, List.length_singleton, List.range_succ, List.mapM_append, hinit,
      List.mapM_cons, hlast]
    rfl
