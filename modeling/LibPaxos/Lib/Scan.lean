import LibPaxos.Lib.Loops
import Mathlib.Data.List.Basic

/-!
# Scanning a list from a cursor

A scan looks for the entries that are due, from a cursor on. An entry that is found is overwritten
where it is, and the cursor stays on it: that it is not found again has to come from what it is
overwritten with.

* **`exists_loop_drained`** — if what is overwritten is not due any more, a loop over a scan ends,
  and has found the entries that were due, in order and each of them once.
* **`loop_scan_eq_none`** — if it is due again, the loop does not end.
-/

namespace Scan

variable {α : Type}

/-- The position of the first entry that is due, counted from `k`, and the entry. If there is none,
the position is the end. -/
def next (due : α → Bool) : List α → Nat → Nat × Option α
  | [], k => (k, none)
  | x :: xs, k => if due x then (k, some x) else next due xs (k + 1)

section Next

variable {due : α → Bool} {xs : List α} {x : α} {k k' : Nat}

theorem next_eq_some (h : next due xs k = (k', some x)) :
    ∃ ys zs, xs = ys ++ x :: zs ∧ k' = k + ys.length ∧ (∀ y ∈ ys, due y = false) ∧
      due x = true := by
  induction xs generalizing k with
  | nil => cases h
  | cons y xs ih =>
    unfold next at h
    split at h
    · rename_i hy
      cases h
      exact ⟨[], xs, rfl, rfl, List.forall_mem_nil _, hy⟩
    · rename_i hy
      obtain ⟨ys, zs, rfl, hk, hys, hx⟩ := ih h
      refine ⟨y :: ys, zs, rfl, ?_, List.forall_mem_cons.mpr ⟨by simpa using hy, hys⟩, hx⟩
      rw [hk, List.length_cons]
      omega

/-- What is found in the list from the cursor on, seen from the whole list. -/
theorem next_drop_eq_some (h : next due (xs.drop k) k = (k', some x)) :
    ∃ before after, xs = before ++ x :: after ∧ k' = before.length ∧ due x = true := by
  obtain ⟨ys, zs, hsplit, rfl, -, hx⟩ := next_eq_some h
  have hlt : k < xs.length := by
    by_contra hge
    rw [List.drop_eq_nil_of_le (by omega)] at hsplit
    simp at hsplit
  refine ⟨xs.take k ++ ys, zs, ?_, ?_, hx⟩
  · rw [List.append_assoc, ← hsplit, List.take_append_drop]
  · rw [List.length_append, List.length_take]
    omega

theorem next_eq_none (h : next due xs k = (k', none)) : ∀ y ∈ xs, due y = false := by
  induction xs generalizing k with
  | nil => exact List.forall_mem_nil _
  | cons y xs ih =>
    unfold next at h
    split at h
    · cases h
    · rename_i hy
      exact List.forall_mem_cons.mpr ⟨by simpa using hy, ih h⟩

theorem exists_next_eq_none (h : ∀ y ∈ xs, due y = false) : ∃ k', next due xs k = (k', none) := by
  cases hn : next due xs k with
  | mk k' found =>
    cases found with
    | none => exact ⟨k', rfl⟩
    | some x =>
      obtain ⟨ys, zs, rfl, -, -, hx⟩ := next_eq_some hn
      exact absurd ((h x (by simp)).symm.trans hx) (by decide)

/-- What is due is found. -/
theorem exists_next_eq_some (hx : x ∈ xs) (hdue : due x = true) (k : Nat) :
    ∃ k' y, next due xs k = (k', some y) := by
  cases h : next due xs k with
  | mk k' found =>
    cases found with
    | none => exact absurd ((next_eq_none h x hx).symm.trans hdue) (by decide)
    | some y => exact ⟨k', y, rfl⟩

end Next

/-! ## Draining

Where a loop over a scan stands: the entries before the cursor have been dealt with, those behind it
are as they were. `Progress.advance` is one turn of the loop, and the number of entries that are due
drops with it. -/

/-- A scan of `es` has found `found`: the entries up to some point were overwritten where they were
due, the cursor `k` is not behind this point, and `cur` is what the list has become. -/
structure Progress (due : α → Bool) (reset : α → α) (es cur : List α) (k : Nat)
    (found : List α) : Prop where
  split : ∃ passed ahead, es = passed ++ ahead ∧ k ≤ passed.length ∧
    cur = (passed.map fun x => if due x then reset x else x) ++ ahead ∧ found = passed.filter due

section Draining

variable {due : α → Bool} {reset : α → α} {es cur found : List α} {x : α} {k k' : Nat}

theorem progress_start (es : List α) : Progress due reset es es 0 [] where
  split := ⟨[], es, rfl, Nat.le_refl 0, rfl, rfl⟩

theorem map_eq_self (h : ∀ x ∈ es, due x = false) :
    (es.map fun x => if due x then reset x else x) = es := by
  calc (es.map fun x => if due x then reset x else x) = es.map id :=
        List.map_congr_left fun x hx => by rw [h x hx]; rfl
    _ = es := List.map_id es

theorem filter_eq_nil (h : ∀ x ∈ es, due x = false) : es.filter due = [] :=
  List.filter_eq_nil_iff.mpr fun x hx => by rw [h x hx]; decide

/-- What has been passed is not due any more. -/
theorem not_due_of_mem_map (hreset : ∀ x, due x = true → due (reset x) = false) :
    ∀ y ∈ es.map (fun x => if due x then reset x else x), due y = false := by
  intro y hy
  obtain ⟨x, -, rfl⟩ := List.mem_map.mp hy
  split
  · rename_i hx
    exact hreset x hx
  · rename_i hx
    simpa using hx

/-- **One more entry is found.** It is the first one ahead that is due, because those passed are not
due any more; and it is the cursor's new place. -/
theorem Progress.advance (hreset : ∀ x, due x = true → due (reset x) = false)
    (h : Progress due reset es cur k found) (hn : next due (cur.drop k) k = (k', some x)) :
    ∃ before after, cur = before ++ x :: after ∧ k' = before.length ∧ due x = true ∧ x ∈ es ∧
      Progress due reset es (before ++ reset x :: after) k' (found ++ [x]) := by
  obtain ⟨passed, ahead, rfl, hk, rfl, rfl⟩ := h.split
  obtain ⟨ys, zs, hsplit, rfl, hys, hx⟩ := next_eq_some hn
  have hpassed : ∀ y ∈ passed.map (fun x => if due x then reset x else x), due y = false :=
    not_due_of_mem_map hreset
  have hlen : (passed.map fun x => if due x then reset x else x).length = passed.length :=
    List.length_map _
  generalize hdone : (passed.map fun x => if due x then reset x else x) = done at *
  rw [List.drop_append_of_le_length (by omega)] at hsplit
  -- what is found lies ahead
  obtain ⟨ws, rfl, rfl⟩ : ∃ ws, ys = done.drop k ++ ws ∧ ahead = ws ++ x :: zs := by
    rcases List.append_eq_append_iff.mp hsplit with ⟨ws, hws, hahead⟩ | ⟨ws, hws, hahead⟩
    · exact ⟨ws, hws, hahead⟩
    · cases ws with
      | nil => exact ⟨[], by simpa using hws.symm, by simpa using hahead.symm⟩
      | cons w ws =>
        cases hahead
        have hmem : x ∈ done.drop k := by
          rw [hws]
          simp
        exact absurd ((hpassed x (List.mem_of_mem_drop hmem)).symm.trans hx) (by decide)
  have hws : ∀ y ∈ ws, due y = false := fun y hy => hys y (List.mem_append_right _ hy)
  refine ⟨done ++ ws, zs, by simp, ?_, hx, by simp, ⟨passed ++ ws ++ [x], zs, by simp, ?_, ?_, ?_⟩⟩
  · rw [List.length_append, List.length_append, List.length_drop]
    omega
  · simp only [List.length_append, List.length_drop, List.length_singleton]
    omega
  · rw [List.map_append, List.map_append, hdone, map_eq_self hws]
    simp [hx]
  · rw [List.filter_append, List.filter_append, filter_eq_nil hws]
    simp [hx]

/-- **Nothing more is found**: all entries were passed. -/
theorem Progress.finished (h : Progress due reset es cur k found)
    (hn : next due (cur.drop k) k = (k', none)) :
    (cur = es.map fun x => if due x then reset x else x) ∧ found = es.filter due := by
  obtain ⟨passed, ahead, rfl, hk, rfl, rfl⟩ := h.split
  have hahead : ∀ y ∈ ahead, due y = false := by
    intro y hy
    refine next_eq_none hn y ?_
    rw [List.drop_append_of_le_length (by rwa [List.length_map])]
    exact List.mem_append_right _ hy
  constructor
  · rw [List.map_append, map_eq_self hahead]
  · rw [List.filter_append, filter_eq_nil hahead, List.append_nil]

/-- An entry that is not due any more leaves fewer that are. -/
theorem countP_reset_lt {before after : List α} (hx : due x = true)
    (hreset : due (reset x) = false) :
    (before ++ reset x :: after).countP due < (before ++ x :: after).countP due := by
  simp [List.countP_append, hx, hreset]

end Draining

/-! ## Loops -/

section Loop

open Loops

variable {σ ε : Type} {turn : σ → Except ε (σ × Bool)} {due : α → Bool} {reset : α → α}
  (cur : σ → List α) (pos : σ → Nat)

/-- **A loop over a scan ends.** `R` is what the states say about the entries found so far. -/
theorem exists_loop_drained {R : σ → List α → Prop} {s₀ : σ}
    (hreset : ∀ x, due x = true → due (reset x) = false)
    (hsome : ∀ s found before x after, R s found → x ∈ cur s₀ → cur s = before ++ x :: after →
      next due ((cur s).drop (pos s)) (pos s) = (before.length, some x) →
      ∃ s', turn s = .ok (s', true) ∧ R s' (found ++ [x]) ∧ cur s' = before ++ reset x :: after ∧
        pos s' = before.length)
    (hnone : ∀ s found k, R s found → next due ((cur s).drop (pos s)) (pos s) = (k, none) →
      ∃ s', turn s = .ok (s', false) ∧ R s' found ∧ cur s' = cur s)
    (hR : R s₀ []) (hpos : pos s₀ = 0) :
    ∃ fuel s, loop turn fuel s₀ = .ok (some s) ∧
      (cur s = (cur s₀).map fun x => if due x then reset x else x) ∧ R s ((cur s₀).filter due) := by
  -- a turn either makes progress with one entry less due, or finds nothing
  have hturn : ∀ s, (∃ found, Progress due reset (cur s₀) (cur s) (pos s) found ∧ R s found) →
      (∃ s', turn s = .ok (s', true) ∧
        (∃ found, Progress due reset (cur s₀) (cur s') (pos s') found ∧ R s' found) ∧
        (cur s').countP due < (cur s).countP due) ∨
      ∃ s', turn s = .ok (s', false) ∧
        (cur s' = (cur s₀).map fun x => if due x then reset x else x) ∧
        R s' ((cur s₀).filter due) := by
    rintro s ⟨found, hprogress, hs⟩
    cases hn : next due ((cur s).drop (pos s)) (pos s) with
    | mk k first =>
      cases first with
      | none =>
        obtain ⟨s', hs', hR', hcur⟩ := hnone s found k hs hn
        obtain ⟨hfinal, rfl⟩ := hprogress.finished hn
        exact .inr ⟨s', hs', hcur.trans hfinal, hR'⟩
      | some x =>
        obtain ⟨before, after, hcur, rfl, hx, hmem, hprogress'⟩ := hprogress.advance hreset hn
        obtain ⟨s', hs', hR', hcur', hpos'⟩ := hsome s found before x after hs hmem hcur hn
        refine .inl ⟨s', hs', ⟨found ++ [x], ?_, hR'⟩, ?_⟩
        · rw [hcur', hpos']
          exact hprogress'
        · rw [hcur, hcur']
          exact countP_reset_lt hx (hreset x hx)
  obtain ⟨s, hs, hfinal⟩ := exists_loop_eq_some (fun s => (cur s).countP due) hturn s₀
    ⟨[], hpos ▸ progress_start _, hR⟩
  exact ⟨_, s, hs, hfinal⟩

/-- **A loop over a scan does not end** if something is due, and due again once overwritten. -/
theorem loop_scan_eq_none {I : σ → Prop} {s₀ : σ}
    (hreset : ∀ x, due x = true → due (reset x) = true)
    (hsome : ∀ s before x after, I s → cur s = before ++ x :: after →
      next due ((cur s).drop (pos s)) (pos s) = (before.length, some x) →
      ∃ s', turn s = .ok (s', true) ∧ I s' ∧ cur s' = before ++ reset x :: after ∧
        pos s' = before.length)
    (hI : I s₀) (hdue : ∃ x ∈ (cur s₀).drop (pos s₀), due x = true) (fuel : Nat) :
    loop turn fuel s₀ = .ok none := by
  refine loop_eq_none (J := fun s => I s ∧ ∃ x ∈ (cur s).drop (pos s), due x = true) ?_ fuel s₀
    ⟨hI, hdue⟩
  rintro s ⟨hs, x, hx, hxdue⟩
  obtain ⟨k, y, hn⟩ := exists_next_eq_some hx hxdue (pos s)
  obtain ⟨before, after, hcur, rfl, hy⟩ := next_drop_eq_some hn
  obtain ⟨s', hs', hI', hcur', hpos'⟩ := hsome s before y after hs hcur hn
  refine ⟨s', hs', hI', reset y, ?_, hreset y hy⟩
  rw [hcur', hpos', List.drop_left]
  exact List.mem_cons_self

end Loop

end Scan
