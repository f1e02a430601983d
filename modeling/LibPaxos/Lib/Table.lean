import Mathlib.Data.List.AList
import Mathlib.Algebra.Order.Group.Multiset

/-!
# Keyed tables with in-place updates

`AList` is the model of a keyed table that is iterated in some slot order: at most one entry
a key, `lookup`, `insert` of a new key, `erase`. What a table of mutable cells needs beyond
Mathlib's interface is collected here:

* `AList.lookup_replace` — reading after the cell of one key was overwritten in place;
* `AList.filter` — a sweep that drops every entry failing a test, with its lookup;
* `AList.entries_perm_cons_erase`, `AList.replace_perm`, `AList.entries_replace` — the entries as
  one cell plus the rest;
* `AList.All` — a property of every cell, kept by each operation;
* `AList.collect` — the multiset of what the cells hold, and what each operation does to it.
-/

namespace AList

variable {κ α : Type} [DecidableEq κ]

/-! ## Entries and lookups -/

theorem mem_entries_iff {k : κ} {x : α} {h : AList fun _ : κ => α} :
    (⟨k, x⟩ : Sigma fun _ : κ => α) ∈ h.entries ↔ h.lookup k = some x :=
  mem_lookup_iff.symm

theorem lookup_eq_of_perm {h h' : AList fun _ : κ => α} (hp : h.entries.Perm h'.entries) (k : κ) :
    h.lookup k = h'.lookup k :=
  perm_lookup hp

theorem lookup_ne_none {k : κ} {h : AList fun _ : κ => α} : h.lookup k ≠ none ↔ k ∈ h := by
  rw [← lookup_isSome, Option.isSome_iff_ne_none]

theorem lookup_eq_some_of_mem {k : κ} {h : AList fun _ : κ => α} (hk : k ∈ h) :
    ∃ x, h.lookup k = some x :=
  Option.isSome_iff_exists.mp (lookup_isSome.mpr hk)

theorem mem_of_lookup {k : κ} {x : α} {h : AList fun _ : κ => α} (hk : h.lookup k = some x) :
    k ∈ h :=
  lookup_isSome.mp (by rw [hk]; rfl)

/-- Reading any key after one key was inserted. -/
theorem lookup_insert_cases (k k' : κ) (x : α) (h : AList fun _ : κ => α) :
    (h.insert k x).lookup k' = if k' = k then some x else h.lookup k' := by
  by_cases hk : k' = k
  · subst hk
    rw [if_pos rfl, lookup_insert]
  · rw [if_neg hk, lookup_insert_ne hk]

/-- Reading any key after one key was deleted. -/
theorem lookup_erase_cases (k k' : κ) (h : AList fun _ : κ => α) :
    (h.erase k).lookup k' = if k' = k then none else h.lookup k' := by
  by_cases hk : k' = k
  · subst hk
    rw [if_pos rfl, lookup_erase]
  · rw [if_neg hk, lookup_erase_ne hk]

/-! ## The entries as one cell and the rest -/

theorem entries_perm_cons_erase {k : κ} {x : α} {h : AList fun _ : κ => α}
    (hk : h.lookup k = some x) : h.entries.Perm (⟨k, x⟩ :: (h.erase k).entries) := by
  obtain ⟨y, l₁, l₂, -, hl, herase⟩ := List.exists_of_kerase (mem_of_lookup hk)
  have hy : h.lookup k = some y := mem_entries_iff.mp (by rw [hl]; simp)
  obtain rfl : x = y := Option.some.inj (hk.symm.trans hy)
  have he : (h.erase k).entries = l₁ ++ l₂ := herase
  rw [he, hl]
  exact List.perm_middle

/-- Overwriting the cell of a present key holds the same cells as inserting the new content:
only the slot order differs. -/
theorem replace_perm {k : κ} (y : α) {h : AList fun _ : κ => α} (hk : k ∈ h) :
    (h.replace k y).entries.Perm (h.insert k y).entries := by
  obtain ⟨x, hx⟩ := lookup_eq_some_of_mem hk
  have hp := List.Perm.kreplace (a := k) (b := y) h.nodupKeys (entries_perm_cons_erase hx)
  have hc : List.kreplace k y (⟨k, x⟩ :: (h.erase k).entries)
      = (⟨k, y⟩ : Sigma fun _ : κ => α) :: (h.erase k).entries :=
    List.lookmap_cons_some _ _ (by simp)
  rw [hc] at hp
  exact hp

/-- The cell of a key is overwritten where it is. -/
theorem entries_replace {k : κ} {x : α} (y : α) {h : AList fun _ : κ => α}
    {l₁ l₂ : List (Sigma fun _ : κ => α)} (he : h.entries = l₁ ++ ⟨k, x⟩ :: l₂) :
    (h.replace k y).entries = l₁ ++ ⟨k, y⟩ :: l₂ := by
  have hnodup := h.nodupKeys
  rw [he] at hnodup
  show List.kreplace k y h.entries = _
  rw [he]
  clear he
  induction l₁ with
  | nil => exact List.lookmap_cons_some _ _ (by simp)
  | cons e l₁ ih =>
    rw [List.cons_append, List.nodupKeys_cons] at hnodup
    have hne : k ≠ e.1 := by
      rintro rfl
      exact hnodup.1 (List.mem_keys_of_mem (s := ⟨e.1, x⟩) (by simp))
    rw [List.cons_append, List.kreplace, List.lookmap_cons_none _ _ (by simp [hne])]
    exact congrArg (e :: ·) (ih hnodup.2)

/-- Reading any key after the cell of a present key was overwritten in place. -/
theorem lookup_replace {k : κ} (k' : κ) (y : α) {h : AList fun _ : κ => α} (hk : k ∈ h) :
    (h.replace k y).lookup k' = if k' = k then some y else h.lookup k' := by
  rw [lookup_eq_of_perm (replace_perm y hk), lookup_insert_cases]

theorem lookup_replace_self {k : κ} {x : α} (y : α) {h : AList fun _ : κ => α}
    (hk : h.lookup k = some x) : (h.replace k y).lookup k = some y :=
  (lookup_replace k y (mem_of_lookup hk)).trans (if_pos rfl)

/-- Overwriting the cell that was just inserted. -/
theorem replace_insert (k : κ) (x y : α) (h : AList fun _ : κ => α) :
    (h.insert k x).replace k y = h.insert k y := by
  apply AList.ext
  have hc : List.kreplace k y (⟨k, x⟩ :: (h.erase k).entries)
      = (⟨k, y⟩ : Sigma fun _ : κ => α) :: (h.erase k).entries :=
    List.lookmap_cons_some _ _ (by simp)
  exact hc

/-! ## Where a cell comes from -/

theorem of_lookup_insert {k k' : κ} {x y : α} {h : AList fun _ : κ => α}
    (hk : (h.insert k y).lookup k' = some x) :
    (k' = k ∧ x = y) ∨ (k' ≠ k ∧ h.lookup k' = some x) := by
  rw [lookup_insert_cases] at hk
  split at hk
  · rename_i heq
    exact .inl ⟨heq, (Option.some.inj hk).symm⟩
  · rename_i hne
    exact .inr ⟨hne, hk⟩

theorem of_lookup_replace {k k' : κ} {x y z : α} {h : AList fun _ : κ => α}
    (hz : h.lookup k = some z) (hk : (h.replace k y).lookup k' = some x) :
    (k' = k ∧ x = y) ∨ (k' ≠ k ∧ h.lookup k' = some x) := by
  rw [lookup_replace k' y (mem_of_lookup hz)] at hk
  split at hk
  · rename_i heq
    exact .inl ⟨heq, (Option.some.inj hk).symm⟩
  · rename_i hne
    exact .inr ⟨hne, hk⟩

theorem of_lookup_erase {k k' : κ} {x : α} {h : AList fun _ : κ => α}
    (hk : (h.erase k).lookup k' = some x) : k' ≠ k ∧ h.lookup k' = some x := by
  rw [lookup_erase_cases] at hk
  split at hk
  · cases hk
  · rename_i hne
    exact ⟨hne, hk⟩

/-! ## Sweeping a table -/

/-- The table after a sweep that keeps the entries whose content passes `keep`. -/
def filter (keep : α → Bool) (h : AList fun _ : κ => α) : AList fun _ : κ => α where
  entries := h.entries.filter fun e => keep e.2
  nodupKeys := h.nodupKeys.sublist List.filter_sublist

theorem lookup_filter_eq_some {keep : α → Bool} {h : AList fun _ : κ => α} {k : κ} {x : α} :
    (h.filter keep).lookup k = some x ↔ h.lookup k = some x ∧ keep x = true := by
  rw [← mem_entries_iff, ← mem_entries_iff]
  exact List.mem_filter

theorem lookup_filter_eq_none {keep : α → Bool} {h : AList fun _ : κ => α} {k : κ}
    (hk : h.lookup k = none) : (h.filter keep).lookup k = none := by
  cases hf : (h.filter keep).lookup k with
  | none => rfl
  | some x =>
    rw [lookup_filter_eq_some, hk] at hf
    exact absurd hf.1 (by simp)

/-! ## A property of every cell -/

/-- Every cell of the table has the property `Q`. -/
def All (Q : κ → α → Prop) (h : AList fun _ : κ => α) : Prop :=
  ∀ k x, h.lookup k = some x → Q k x

section All

variable {Q Q' : κ → α → Prop} {h h' : AList fun _ : κ => α}

theorem all_empty : All Q (∅ : AList fun _ : κ => α) := by
  intro k x hk
  rw [lookup_empty] at hk
  cases hk

theorem All.mono (ha : All Q h) (hQ : ∀ k x, Q k x → Q' k x) : All Q' h :=
  fun k x hk => hQ k x (ha k x hk)

theorem All.insert (ha : All Q h) {k : κ} {x : α} (hx : Q k x) : All Q (h.insert k x) := by
  intro k' x' hk'
  rcases of_lookup_insert hk' with ⟨rfl, rfl⟩ | ⟨-, hold⟩
  · exact hx
  · exact ha k' x' hold

theorem All.replace (ha : All Q h) {k : κ} {x : α} (hk : k ∈ h) (hx : Q k x) :
    All Q (h.replace k x) := by
  intro k' x' hk'
  obtain ⟨z, hz⟩ := lookup_eq_some_of_mem hk
  rcases of_lookup_replace hz hk' with ⟨rfl, rfl⟩ | ⟨-, hold⟩
  · exact hx
  · exact ha k' x' hold

theorem All.erase (ha : All Q h) (k : κ) : All Q (h.erase k) :=
  fun k' x' hk' => ha k' x' (of_lookup_erase hk').2

theorem All.filter (ha : All Q h) (keep : α → Bool) : All Q (h.filter keep) :=
  fun k x hk => ha k x (lookup_filter_eq_some.mp hk).1

theorem All.of_perm (ha : All Q h) (hp : h'.entries.Perm h.entries) : All Q h' := by
  intro k x hk
  rw [lookup_eq_of_perm hp] at hk
  exact ha k x hk

end All

/-! ## What the cells hold -/

section Collect

variable {β : Type} (f : α → Option β)

/-- What the cells of a table hold, as far as `f` finds something there. -/
def collect (h : AList fun _ : κ => α) : Multiset β :=
  ↑(h.entries.filterMap fun e => f e.2)

omit [DecidableEq κ] in
theorem collect_eq_of_perm {h h' : AList fun _ : κ => α} (hp : h.entries.Perm h'.entries) :
    collect f h = collect f h' :=
  Multiset.coe_eq_coe.mpr (hp.filterMap _)

/-- One cell and the rest. -/
theorem collect_eq_add_erase {k : κ} {x : α} {h : AList fun _ : κ => α}
    (hk : h.lookup k = some x) : collect f h = ↑(f x).toList + collect f (h.erase k) := by
  unfold collect
  rw [Multiset.coe_eq_coe.mpr ((entries_perm_cons_erase hk).filterMap fun e => f e.2),
    List.filterMap_cons]
  cases f x with
  | none => simp
  | some y => simp

theorem mem_collect {k : κ} {x : α} {y : β} {h : AList fun _ : κ => α} (hk : h.lookup k = some x)
    (hf : f x = some y) : y ∈ collect f h := by
  rw [collect_eq_add_erase f hk, hf]
  simp

omit [DecidableEq κ] in
theorem map_collect {γ : Type} (g : β → γ) (h : AList fun _ : κ => α) :
    (collect f h).map g = collect (fun x => (f x).map g) h := by
  unfold collect
  rw [Multiset.map_coe, List.map_filterMap]

theorem collect_insert {k : κ} (x : α) {h : AList fun _ : κ => α} (hk : h.lookup k = none) :
    collect f (h.insert k x) = ↑(f x).toList + collect f h := by
  have herase : (h.insert k x).erase k = h := by
    apply AList.ext
    have hne : k ∉ h := fun hmem => lookup_ne_none.mpr hmem hk
    show List.kerase k (⟨k, x⟩ :: List.kerase k h.entries) = h.entries
    rw [List.kerase_cons_eq (by rfl), List.kerase_of_notMem_keys hne]
  have := collect_eq_add_erase f (lookup_insert (s := h) (a := k) (b := x))
  rwa [herase] at this

/-- Overwriting a cell with one that holds the same. -/
theorem collect_replace {k : κ} {x y : α} {h : AList fun _ : κ => α} (hk : h.lookup k = some x)
    (hxy : f y = f x) : collect f (h.replace k y) = collect f h := by
  have herase : (h.insert k y).erase k = h.erase k := by
    apply AList.ext
    show List.kerase k (⟨k, y⟩ :: List.kerase k h.entries) = List.kerase k h.entries
    rw [List.kerase_cons_eq (by rfl)]
  rw [collect_eq_of_perm f (replace_perm y (mem_of_lookup hk)),
    collect_eq_add_erase f (lookup_insert (s := h) (a := k) (b := y)), herase, hxy,
    ← collect_eq_add_erase f hk]

omit [DecidableEq κ] in
/-- A sweep splits what the cells hold into what it drops and what it keeps. -/
theorem collect_filter (keep : α → Bool) (h : AList fun _ : κ => α) :
    collect f h
      = ↑(h.entries.filterMap fun e => if keep e.2 then none else f e.2)
        + collect f (h.filter keep) := by
  unfold collect filter
  simp only
  induction h.entries with
  | nil => rfl
  | cons e es ih =>
    simp only [List.filter_cons, List.filterMap_cons]
    cases hk : keep e.2 with
    | true =>
      simp only [if_true, List.filterMap_cons]
      cases hf : f e.2 with
      | none => exact ih
      | some y =>
        simp only [← Multiset.cons_coe, Multiset.add_cons]
        rw [ih]
    | false =>
      simp only [Bool.false_eq_true, if_false]
      cases hf : f e.2 with
      | none => exact ih
      | some y =>
        simp only [← Multiset.cons_coe, Multiset.cons_add]
        rw [ih]

end Collect

end AList
