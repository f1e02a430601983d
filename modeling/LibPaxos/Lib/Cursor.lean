import LibPaxos.Lib.Table

/-!
# Tables with a cursor

A store under ordered keys, given by its operations and their laws: what is written is read back,
other keys are left alone, and a cursor visits the keys in increasing order. A cursor stands on a
key, or before the first one; the next key is the least one above it, whether or not the key it
stands on is still there. So a loop may delete what it visits.

Nothing else is assumed of the store: how it keeps its entries is its own affair.

* **`CursorTable.lookup_sweep`** — what a loop leaves that goes on up to some bound and deletes some
  of the keys on the way.
* `AList.cursorTable` — there are such tables.
-/

namespace Cursors

/-! ## What is ahead of a cursor -/

/-- The key is ahead of a cursor. -/
def Ahead {κ : Type} [LT κ] : Option κ → κ → Prop
  | none, _ => True
  | some p, k => p < k

instance {κ : Type} [LT κ] [DecidableLT κ] (pos : Option κ) : DecidablePred (Ahead pos) :=
  match pos with
  | none => fun _ => instDecidableTrue
  | some p => fun k => inferInstanceAs (Decidable (p < k))

/-- If keys are numbered in their order, then keys are ahead from this number on. -/
def behind {κ : Type} (rank : κ → Nat) : Option κ → Nat
  | none => 0
  | some p => rank p + 1

theorem behind_le {κ : Type} [LT κ] {rank : κ → Nat} (hrank : ∀ k k', k < k' → rank k < rank k')
    {pos : Option κ} {k : κ} (h : Ahead pos k) : behind rank pos ≤ rank k := by
  cases pos with
  | none => exact Nat.zero_le _
  | some p => exact hrank p k h

theorem Ahead.trans {κ : Type} [LT κ] [LE κ] [Std.IsLinearOrder κ] [Std.LawfulOrderLT κ]
    {pos : Option κ} {k k' : κ} (h : Ahead pos k) (hk : k < k') : Ahead pos k' := by
  cases pos with
  | none => trivial
  | some p => exact Std.lt_trans h hk

/-- A table `T` of values `α` under keys `κ`, with cursors. -/
class CursorTable (T : Type) (κ α : outParam Type) [LT κ] [DecidableEq κ] where
  empty : T
  lookup : T → κ → Option α
  put : T → κ → α → T
  del : T → κ → T
  /-- The key that a cursor moves on to. -/
  next : T → Option κ → Option κ
  lookup_empty : ∀ k, lookup empty k = none
  lookup_put : ∀ t k x k', lookup (put t k x) k' = if k' = k then some x else lookup t k'
  lookup_del : ∀ t k k', lookup (del t k) k' = if k' = k then none else lookup t k'
  next_none : ∀ t pos, next t pos = none → ∀ k, Ahead pos k → lookup t k = none
  next_some : ∀ t pos k, next t pos = some k →
    Ahead pos k ∧ ∀ k', Ahead pos k' → k' < k → lookup t k' = none

namespace CursorTable

/-! ## Deleting on the way

The loop below is the one a caller writes with a cursor: move on, delete what was found or leave it,
and decide from the key whether to go on. What it leaves can be said without the cursor, if the loop
goes on at least as long as there is something to delete. -/

section Sweep

variable {T κ α : Type} [LT κ] [DecidableEq κ] [CursorTable T κ α]

/-- A loop over the keys from a cursor on: `drop` says what is deleted, and `go` whether the loop
goes on after a key. -/
def sweep (drop go : κ → Bool) : Nat → Option κ → T → T
  | 0, _, t => t
  | fuel + 1, pos, t =>
    match next t pos with
    | none => t
    | some k =>
      if go k then sweep drop go fuel (some k) (if drop k then del t k else t)
      else if drop k then del t k else t

/-- The cell of the key visited, and of the others. -/
theorem lookup_visit (drop : κ → Bool) (t : T) (k₀ k : κ) :
    lookup (if drop k₀ then del t k₀ else t) k
      = if k = k₀ ∧ drop k₀ = true then none else lookup t k := by
  by_cases hd : drop k₀ = true
  · simp [hd, lookup_del]
  · simp [hd]

variable [DecidableLT κ] [LE κ] [Std.IsLinearOrder κ] [Std.LawfulOrderLT κ]

/-- What a turn deletes and what the turns from the key visited on delete, together. -/
theorem lookup_turn {drop : κ → Bool} {t : T} {pos : Option κ} {k₀ : κ}
    (hnext : next t pos = some k₀) (k : κ) :
    (if Ahead (some k₀) k ∧ drop k = true then none
      else lookup (if drop k₀ then del t k₀ else t) k)
      = if Ahead pos k ∧ drop k = true then none else lookup t k := by
  obtain ⟨hahead, hbefore⟩ := next_some t pos k₀ hnext
  rw [lookup_visit]
  rcases Std.lt_trichotomy k k₀ with hk | rfl | hk
  · -- skipped: there was no such key ahead
    have hne : k ≠ k₀ := fun h => Std.lt_irrefl (h ▸ hk)
    have hnot : ¬ Ahead (some k₀) k := Std.not_lt.mpr (Std.le_of_lt hk)
    rw [if_neg fun h => hnot h.1, if_neg fun h => hne h.1]
    split
    · rename_i h
      exact hbefore k h.1 hk
    · rfl
  · have hnot : ¬ Ahead (some k) k := Std.lt_irrefl
    rw [if_neg fun h => hnot h.1]
    simp [hahead]
  · have hne : k ≠ k₀ := fun h => Std.lt_irrefl (h ▸ hk)
    have hlater : Ahead (some k₀) k := hk
    rw [if_neg fun h : k = k₀ ∧ _ => hne h.1]
    simp [hlater, hahead.trans hk]

/-- **What a sweep leaves.** If the loop goes on at least as long as there is something to delete,
and does not go on again once it has stopped, then exactly the keys ahead of the cursor that are to
be deleted are gone. Induction on the turns: each moves the cursor on by a number at least, and the
loop stops before the numbers run out. -/
theorem lookup_sweep {drop go : κ → Bool} (hgo : ∀ k k', k ≤ k' → go k' = true → go k = true)
    (hdrop : ∀ k, drop k = true → go k = true) (rank : κ → Nat)
    (hrank : ∀ k k', k < k' → rank k < rank k') :
    ∀ (fuel : Nat) (pos : Option κ) (t : T),
      (∀ k, go k = true → rank k < behind rank pos + fuel) →
      ∀ k, lookup (sweep drop go fuel pos t) k
        = if Ahead pos k ∧ drop k = true then none else lookup t k := by
  intro fuel
  induction fuel with
  | zero =>
    intro pos t hfuel k
    -- nothing ahead is to be deleted any more
    have hnone : ¬ (Ahead pos k ∧ drop k = true) := fun h =>
      Nat.not_lt.mpr (behind_le hrank h.1) (hfuel k (hdrop k h.2))
    rw [if_neg hnone, sweep]
  | succ fuel ih =>
    intro pos t hfuel k
    rw [sweep]
    cases hnext : next t pos with
    | none =>
      simp only
      split
      · rename_i h
        exact next_none t pos hnext k h.1
      · rfl
    | some k₀ =>
      obtain ⟨hahead, hbefore⟩ := next_some t pos k₀ hnext
      simp only
      by_cases hg : go k₀ = true
      · have hfuel' : ∀ k, go k = true → rank k < behind rank (some k₀) + fuel := by
          intro k hk
          have hlt := hfuel k hk
          have hle := behind_le hrank hahead
          have heq : behind rank (some k₀) = rank k₀ + 1 := rfl
          omega
        rw [if_pos hg, ih (some k₀) _ hfuel' k, lookup_turn hnext]
      · -- the loop stops here, and there is nothing to delete from here on
        have hd : ¬ drop k₀ = true := fun hd => hg (hdrop k₀ hd)
        rw [if_neg hg, if_neg hd]
        split
        · rename_i h
          exact hbefore k h.1 (Std.not_le.mp fun hle => hg (hgo k₀ k hle (hdrop k h.2)))
        · rfl

end Sweep

end CursorTable

end Cursors

/-! ## Such a table

The entries in a list, and the next key found by a search through all of them. -/

namespace AList

open Cursors

variable {κ α : Type} [LT κ] [DecidableLT κ]

/-- The keys ahead of a cursor. -/
def keysAhead (pos : Option κ) (h : AList fun _ : κ => α) : List κ :=
  h.keys.filter fun k => Ahead pos k

theorem mem_keysAhead {pos : Option κ} {h : AList fun _ : κ => α} {k : κ} :
    k ∈ h.keysAhead pos ↔ k ∈ h ∧ Ahead pos k := by
  unfold keysAhead
  rw [List.mem_filter, decide_eq_true_iff]
  rfl

variable [Min κ] [LE κ] [Std.IsLinearOrder κ] [Std.LawfulOrderMin κ] [Std.LawfulOrderLT κ]
  [DecidableEq κ]

instance cursorTable : CursorTable (AList fun _ : κ => α) κ α where
  empty := ∅
  lookup h k := h.lookup k
  put h k x := h.insert k x
  del h k := h.erase k
  next h pos := (h.keysAhead pos).min?
  lookup_empty _ := rfl
  lookup_put h k x k' := lookup_insert_cases k k' x h
  lookup_del h k k' := lookup_erase_cases k k' h
  next_none h pos hnext k hahead := by
    rw [List.min?_eq_none_iff] at hnext
    refine lookup_eq_none.mpr fun hmem => ?_
    exact List.not_mem_nil (hnext ▸ mem_keysAhead.mpr ⟨hmem, hahead⟩)
  next_some h pos k hnext := by
    obtain ⟨hmem, hle⟩ := List.min?_eq_some_iff.mp hnext
    refine ⟨(mem_keysAhead.mp hmem).2, fun k' hahead hlt => ?_⟩
    refine lookup_eq_none.mpr fun hmem' => ?_
    exact Std.not_le.mpr hlt (hle k' (mem_keysAhead.mpr ⟨hmem', hahead⟩))

end AList
