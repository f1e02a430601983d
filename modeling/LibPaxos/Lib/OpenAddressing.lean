import LibPaxos.Lib.Probing
import LibPaxos.Lib.Table
import Mathlib.Logic.Function.Basic

/-!
# Open addressing

A table of `2 ^ k` buckets. A bucket may be free, that is, not used so far, and it may have an
entry; a bucket that is not free and has no entry had one that was deleted. A key is searched from
the bucket that its hash gives, along the probe sequence, up to the first free bucket. So an entry
is found as long as no bucket before it on its path is free (`Reached`).

The entries are `contents`, in the order of the buckets, and compared up to `List.Perm`.

* **`Sound.found`**, **`Stops.free_of_absent`** — where the search for a key ends.
* **`Sound.insert`**, **`Sound.erase`** — writing and deleting an entry.
* **`Rehashing`** — moving the entries to their buckets for another size, in place: an entry that
  is in the way is taken out and placed next.
-/

namespace OpenAddressing

open Probing

variable {β : Type}

/-! ## Numbered cells

What the cells below `n` hold, in order. Cells are changed one at a time, so the lemmas say what
becomes of the contents then, up to the order. -/

/-- What the first `n` cells hold, in their order. -/
def contents (f : Nat → Option β) (n : Nat) : List β :=
  (List.range n).filterMap f

theorem mem_contents {f : Nat → Option β} {n : Nat} {b : β} :
    b ∈ contents f n ↔ ∃ i < n, f i = some b := by
  simp [contents, List.mem_filterMap]

theorem contents_congr {f g : Nat → Option β} {n : Nat} (h : ∀ i < n, f i = g i) :
    contents f n = contents g n :=
  List.filterMap_congr fun i hi => h i (List.mem_range.mp hi)

theorem contents_succ (f : Nat → Option β) (n : Nat) :
    contents f (n + 1) = contents f n ++ (f n).toList := by
  unfold contents
  rw [List.range_succ, List.filterMap_append]
  cases hf : f n <;> simp [hf]

theorem contents_filter (f : Nat → Option β) (keep : β → Bool) (n : Nat) :
    contents (fun i => (f i).filter keep) n = (contents f n).filter keep := by
  unfold contents
  rw [List.filter_filterMap]

/-- Cells at the end that hold nothing. -/
theorem contents_of_le {f : Nat → Option β} {m n : Nat} (hle : m ≤ n)
    (h : ∀ i, m ≤ i → i < n → f i = none) : contents f n = contents f m := by
  induction hle with
  | refl => rfl
  | step hle ih =>
    rw [contents_succ, ih fun i hmi hi => h i hmi (Nat.lt_succ_of_lt hi),
      h _ hle (Nat.lt_succ_self _)]
    exact List.append_nil _

/-- **One cell is written**: what it held is exchanged for what it holds now. -/
theorem contents_update_perm (f : Nat → Option β) {n i : Nat} (hi : i < n) (b : Option β) :
    (contents (Function.update f i b) n ++ (f i).toList).Perm (contents f n ++ b.toList) := by
  induction n with
  | zero => exact absurd hi (Nat.not_lt_zero i)
  | succ n ih =>
    rw [contents_succ, contents_succ]
    rcases Nat.lt_succ_iff_lt_or_eq.mp hi with hlt | rfl
    · -- the last cell is as it was
      rw [Function.update_of_ne (Nat.ne_of_gt hlt), List.append_assoc, List.append_assoc]
      calc contents (Function.update f i b) n ++ ((f n).toList ++ (f i).toList)
          _ |>.Perm (contents (Function.update f i b) n ++ ((f i).toList ++ (f n).toList)) :=
            List.perm_append_comm.append_left _
          _ |>.Perm (contents f n ++ (b.toList ++ (f n).toList)) := by
            rw [← List.append_assoc, ← List.append_assoc]
            exact (ih hlt).append_right _
          _ |>.Perm (contents f n ++ ((f n).toList ++ b.toList)) :=
            List.perm_append_comm.append_left _
    · rw [Function.update_self, List.append_assoc, List.append_assoc,
        contents_congr fun j hj => Function.update_of_ne (Nat.ne_of_lt hj) b f]
      exact List.perm_append_comm.append_left _

theorem length_contents_of_isSome {f : Nat → Option β} {n : Nat} (h : ∀ i < n, (f i).isSome) :
    (contents f n).length = n := by
  induction n with
  | zero => rfl
  | succ n ih =>
    obtain ⟨b, hb⟩ := Option.isSome_iff_exists.mp (h n (Nat.lt_succ_self n))
    rw [contents_succ, List.length_append, ih fun i hi => h i (Nat.lt_succ_of_lt hi), hb]
    rfl

/-- The same cells hold something. -/
theorem length_contents_congr {γ : Type} {f : Nat → Option β} {g : Nat → Option γ} {n : Nat}
    (h : ∀ i < n, (f i).isSome = (g i).isSome) : (contents f n).length = (contents g n).length := by
  induction n with
  | zero => rfl
  | succ n ih =>
    have hn := h n (Nat.lt_succ_self n)
    rw [contents_succ, contents_succ, List.length_append, List.length_append,
      ih fun i hi => h i (Nat.lt_succ_of_lt hi)]
    cases hf : f n <;> cases hg : g n <;> simp_all

theorem length_contents_mono (f : Nat → Option β) {m n : Nat} (h : m ≤ n) :
    (contents f m).length ≤ (contents f n).length := by
  induction h with
  | refl => exact Nat.le_refl _
  | step _ ih =>
    rw [contents_succ, List.length_append]
    exact Nat.le_trans ih (Nat.le_add_right _ _)

/-- Fewer entries than cells leave a cell without one. -/
theorem exists_none_of_length_lt {f : Nat → Option β} {m n : Nat} (hle : m ≤ n)
    (h : (contents f n).length < m) : ∃ i < m, f i = none := by
  by_contra hno
  have hsome : ∀ i < m, (f i).isSome := fun i hi =>
    Option.isSome_iff_ne_none.mpr fun hnone => hno ⟨i, hi, hnone⟩
  have hlen := length_contents_of_isSome hsome
  have hmono := length_contents_mono f hle
  omega

/-! ## Entries and free buckets

The invariant of a table is that every entry is reached: no bucket before it on the path of its key
is free. A new entry is written to a bucket that is reached as well, and deleting one frees no
bucket, so the paths of the others stay as they are. -/

variable {κ α : Type}

/-- Different cells hold different keys. -/
theorem eq_of_nodupKeys {f : Nat → Option (Sigma fun _ : κ => α)} {n i j : Nat} {key : κ} {v w : α}
    (hd : (contents f n).NodupKeys) (hi : i < n) (hj : j < n) (hfi : f i = some ⟨key, v⟩)
    (hfj : f j = some ⟨key, w⟩) : i = j := by
  rw [contents, List.nodupKeys_iff_pairwise, List.pairwise_filterMap,
    List.pairwise_iff_getElem] at hd
  simp only [List.length_range, List.getElem_range] at hd
  rcases Nat.lt_trichotomy i j with hlt | heq | hlt
  · exact absurd rfl (hd i j hi hj hlt ⟨key, v⟩ hfi ⟨key, w⟩ hfj)
  · exact heq
  · exact absurd rfl (hd j i hj hi hlt ⟨key, w⟩ hfj ⟨key, v⟩ hfi)

/-- The bucket `i` is on the path of the key, and no bucket before it is free. -/
def Reached (hash : κ → Nat) (k : Nat) (free : Nat → Prop) (key : κ) (i : Nat) : Prop :=
  ∃ s < 2 ^ k, probe k (hash key) s = i ∧ ∀ r < s, ¬ free (probe k (hash key) r)

theorem Reached.mono {hash : κ → Nat} {k : Nat} {free free' : Nat → Prop} {key : κ} {i : Nat}
    (h : Reached hash k free key i) (hsub : ∀ j, free' j → free j) :
    Reached hash k free' key i := by
  obtain ⟨s, hs, heq, hpath⟩ := h
  exact ⟨s, hs, heq, fun r hr hf => hpath r hr (hsub _ hf)⟩

/-- Every entry can be found, and keys are not repeated. -/
structure Sound (hash : κ → Nat) (k : Nat) (free : Nat → Prop)
    (entry : Nat → Option (Sigma fun _ : κ => α)) : Prop where
  reached : ∀ i < 2 ^ k, ∀ e, entry i = some e → Reached hash k free e.1 i
  distinct : (contents entry (2 ^ k)).NodupKeys

/-- Only the buckets of the table matter. -/
theorem Sound.congr {hash : κ → Nat} {k : Nat} {free free' : Nat → Prop}
    {entry entry' : Nat → Option (Sigma fun _ : κ => α)} (h : Sound hash k free entry)
    (hfree : ∀ i < 2 ^ k, free' i → free i) (hentry : ∀ i < 2 ^ k, entry' i = entry i) :
    Sound hash k free' entry' where
  reached i hi e he := by
    obtain ⟨s, hs, heq, hpath⟩ := h.reached i hi e (hentry i hi ▸ he)
    exact ⟨s, hs, heq, fun r hr hf => hpath r hr (hfree _ (probe_lt ..) hf)⟩
  distinct := by
    rw [contents_congr hentry]
    exact h.distinct

/-- Where the search for a key ends. -/
def Stops (free : Nat → Prop) (entry : Nat → Option (Sigma fun _ : κ => α)) (key : κ) (i : Nat) :
    Prop :=
  free i ∨ ∃ v, entry i = some ⟨key, v⟩

section Search

variable {hash : κ → Nat} {k : Nat} {free : Nat → Prop}
  {entry : Nat → Option (Sigma fun _ : κ => α)} {key : κ} {s : Nat}

/-- **The search for a key in the table** ends at its bucket. -/
theorem Sound.found (h : Sound hash k free entry)
    (hstop : Stops free entry key (probe k (hash key) s))
    (hfirst : ∀ r < s, ¬ Stops free entry key (probe k (hash key) r)) {i : Nat} {v : α}
    (hi : i < 2 ^ k) (he : entry i = some ⟨key, v⟩) : probe k (hash key) s = i := by
  obtain ⟨t, ht, heq, hpath⟩ := h.reached i hi _ he
  rcases Nat.lt_trichotomy s t with hlt | rfl | hlt
  · -- the bucket where it ends is not free, so it has the key
    obtain hfree | ⟨w, hw⟩ := hstop
    · exact absurd hfree (hpath s hlt)
    · exact eq_of_nodupKeys h.distinct (probe_lt ..) hi hw he
  · exact heq
  · exact absurd (.inr ⟨v, heq ▸ he⟩) (hfirst t hlt)

/-- **The search for a key that is not in the table** ends at a free bucket. -/
theorem Stops.free_of_absent {i : Nat} (hstop : Stops free entry key i) (hi : i < 2 ^ k)
    (hno : ∀ j < 2 ^ k, ∀ v, entry j ≠ some ⟨key, v⟩) : free i := by
  obtain hfree | ⟨v, hv⟩ := hstop
  · exact hfree
  · exact absurd hv (hno i hi v)

/-- **Writing an entry** with a new key to a bucket on the path of the key. -/
theorem Sound.insert (h : Sound hash k free entry) {free' : Nat → Prop} {i : Nat} (hi : i < 2 ^ k)
    (hr : Reached hash k free key i) (hnone : entry i = none)
    (hno : ∀ j < 2 ^ k, ∀ v, entry j ≠ some ⟨key, v⟩) (hsub : ∀ j, free' j → free j) (v : α) :
    Sound hash k free' (Function.update entry i (some ⟨key, v⟩)) where
  reached j hj e he := by
    rcases eq_or_ne j i with rfl | hne
    · rw [Function.update_self] at he
      cases he
      exact hr.mono hsub
    · rw [Function.update_of_ne hne] at he
      exact (h.reached j hj e he).mono hsub
  distinct := by
    have hperm := contents_update_perm entry hi (some ⟨key, v⟩)
    rw [hnone, Option.toList_none, List.append_nil] at hperm
    rw [List.perm_nodupKeys (hperm.trans List.perm_append_comm)]
    refine List.nodupKeys_cons.mpr ⟨fun hmem => ?_, h.distinct⟩
    obtain ⟨w, hw⟩ := List.exists_of_mem_keys hmem
    obtain ⟨j, hj, hej⟩ := mem_contents.mp hw
    exact hno j hj w hej

/-- **Writing another value** for a key of the table. -/
theorem Sound.replace (h : Sound hash k free entry) {i : Nat} {v : α} (hi : i < 2 ^ k)
    (he : entry i = some ⟨key, v⟩) (w : α) :
    Sound hash k free (Function.update entry i (some ⟨key, w⟩)) where
  reached j hj e hej := by
    rcases eq_or_ne j i with rfl | hne
    · rw [Function.update_self] at hej
      cases hej
      exact h.reached j hj ⟨key, v⟩ he
    · rw [Function.update_of_ne hne] at hej
      exact h.reached j hj e hej
  distinct := by
    have hperm := contents_update_perm entry hi (some ⟨key, w⟩)
    rw [he] at hperm
    -- both sides have one entry with the key too many
    have hkeys : (contents (Function.update entry i (some ⟨key, w⟩)) (2 ^ k)).keys.Perm
        (contents entry (2 ^ k)).keys := by
      have hmap := hperm.map Sigma.fst
      simp only [Option.toList_some, List.map_append, List.map_cons, List.map_nil] at hmap
      exact (List.perm_append_right_iff _).mp hmap
    exact hkeys.nodup_iff.mpr h.distinct

/-- **Deleting an entry.** The bucket does not become free. -/
theorem Sound.erase (h : Sound hash k free entry) {i : Nat} (hi : i < 2 ^ k) :
    Sound hash k free (Function.update entry i none) where
  reached j hj e hej := by
    rcases eq_or_ne j i with rfl | hne
    · rw [Function.update_self] at hej
      cases hej
    · rw [Function.update_of_ne hne] at hej
      exact h.reached j hj e hej
  distinct := by
    have hperm := contents_update_perm entry hi none
    rw [Option.toList_none, List.append_nil] at hperm
    have hd := (List.perm_nodupKeys hperm).mpr h.distinct
    exact hd.sublist (List.sublist_append_left _ _)

end Search

/-! ## Moving the entries in place

While the entries are moved, the old and the new table share the cells. A cell holds an entry of one
of the two at most, and one entry may be in hand that is in neither. It is placed in the first
bucket on its path that the new table has not used; an entry of the old table that lies there is the
next one in hand. Since all of them fit into the new table, there always is such a bucket. -/

/-- The entries that are still in their old bucket and those that are in their new one. -/
def either (old new : Nat → Bool) (cell : Nat → Option β) (i : Nat) : Option β :=
  if old i || new i then cell i else none

/-- **Rehashing in place.** A cell is used by the old table or by the new one, not by both; there
may be one entry in hand; together they are the entries `all` of the table; and an entry in its new
bucket can be found there. -/
structure Rehashing (hash : κ → Nat) (k cap : Nat) (old new : Nat → Bool)
    (cell : Nat → Option (Sigma fun _ : κ => α)) (hand : Option (Sigma fun _ : κ => α))
    (all : List (Sigma fun _ : κ => α)) : Prop where
  fits : 2 ^ k ≤ cap
  cells : ∀ i < cap, (cell i).isSome
  old_lt : ∀ i, old i → i < cap
  new_lt : ∀ i, new i → i < 2 ^ k
  apart : ∀ i, old i → new i = false
  perm : (hand.toList ++ contents (either old new cell) cap).Perm all
  reached : ∀ i e, new i → cell i = some e → Reached hash k (fun j => new j = false) e.1 i

section Rehash

variable {hash : κ → Nat} {k cap : Nat} {old new : Nat → Bool}
  {cell : Nat → Option (Sigma fun _ : κ => α)} {all : List (Sigma fun _ : κ => α)}

/-- Two more lists of entries with the same content, after one cell changed. -/
theorem perm_of_update {f g : Nat → Option β} {n i : Nat} {b hand : Option β} {l : List β}
    (hi : i < n) (hg : ∀ j, g j = Function.update f i b j)
    (h : (hand.toList ++ contents f n).Perm l) (hb : b = hand) :
    ((f i).toList ++ contents g n).Perm l := by
  subst hb
  rw [show g = Function.update f i b from funext hg]
  exact List.perm_append_comm.trans
    ((contents_update_perm f hi b).trans (List.perm_append_comm.trans h))

/-- An entry is taken from its old bucket. -/
theorem Rehashing.take (h : Rehashing hash k cap old new cell none all) {j : Nat} (hj : old j) :
    Rehashing hash k cap (Function.update old j false) new cell (cell j) all where
  fits := h.fits
  cells := h.cells
  old_lt i hi := by
    rcases eq_or_ne i j with rfl | hne
    · exact h.old_lt i hj
    · rw [Function.update_of_ne hne] at hi
      exact h.old_lt i hi
  new_lt := h.new_lt
  apart i hi := by
    rcases eq_or_ne i j with rfl | hne
    · exact h.apart i hj
    · rw [Function.update_of_ne hne] at hi
      exact h.apart i hi
  perm := by
    have hcell : either old new cell j = cell j := by simp [either, hj]
    rw [← hcell]
    refine perm_of_update (h.old_lt j hj) (fun i => ?_) h.perm rfl
    rcases eq_or_ne i j with rfl | hne
    · simp [either, h.apart i hj]
    · simp [either, Function.update_of_ne hne]
  reached := h.reached

/-- There is a free bucket in the new table for the entry in hand. -/
theorem Rehashing.exists_free {e : Sigma fun _ : κ => α}
    (h : Rehashing hash k cap old new cell (some e) all) (hlen : all.length ≤ 2 ^ k) :
    ∃ i < 2 ^ k, new i = false := by
  have hlt : (contents (either old new cell) cap).length < 2 ^ k := by
    have heq := h.perm.length_eq
    simp only [Option.toList_some, List.cons_append, List.nil_append, List.length_cons] at heq
    omega
  obtain ⟨i, hi, hnone⟩ := exists_none_of_length_lt h.fits hlt
  refine ⟨i, hi, ?_⟩
  -- a cell in use has an entry
  cases hnew : new i with
  | false => rfl
  | true =>
    have hsome := h.cells i (Nat.lt_of_lt_of_le hi h.fits)
    simp [either, hnew] at hnone
    simp [hnone] at hsome

/-- **The entry in hand is placed** in the first free bucket of its path. If that is the old bucket
of another entry, this is the one in hand then. -/
theorem Rehashing.place {e : Sigma fun _ : κ => α}
    (h : Rehashing hash k cap old new cell (some e) all) {s : Nat} (hs : s < 2 ^ k)
    (hfree : new (probe k (hash e.1) s) = false)
    (hfirst : ∀ r < s, ¬ new (probe k (hash e.1) r) = false) :
    Rehashing hash k cap (Function.update old (probe k (hash e.1) s) false)
      (Function.update new (probe k (hash e.1) s) true)
      (Function.update cell (probe k (hash e.1) s) (some e))
      (if old (probe k (hash e.1) s) then cell (probe k (hash e.1) s) else none) all := by
  have hlt := probe_lt k (hash e.1) s
  have hon : Reached hash k (fun j => new j = false) e.1 (probe k (hash e.1) s) :=
    ⟨s, hs, rfl, hfirst⟩
  revert hfree hlt hon
  generalize probe k (hash e.1) s = i
  intro hfree hlt hon
  -- the bucket is no longer free, no other becomes free
  have hsub : ∀ j, Function.update new i true j = false → new j = false := by
    intro j hj
    rcases eq_or_ne j i with rfl | hne
    · exact hfree
    · rwa [Function.update_of_ne hne] at hj
  refine ⟨h.fits, fun j hj => ?_, fun j hj => ?_, fun j hj => ?_, fun j hj => ?_, ?_,
    fun j e' hj he' => ?_⟩
  · rcases eq_or_ne j i with rfl | hne
    · rw [Function.update_self]
      rfl
    · rw [Function.update_of_ne hne]
      exact h.cells j hj
  · rcases eq_or_ne j i with rfl | hne
    · exact Nat.lt_of_lt_of_le hlt h.fits
    · rw [Function.update_of_ne hne] at hj
      exact h.old_lt j hj
  · rcases eq_or_ne j i with rfl | hne
    · exact hlt
    · rw [Function.update_of_ne hne] at hj
      exact h.new_lt j hj
  · rcases eq_or_ne j i with rfl | hne
    · simp at hj
    · rw [Function.update_of_ne hne] at hj ⊢
      exact h.apart j hj
  · have hcell : either old new cell i = if old i then cell i else none := by
      simp [either, hfree]
    rw [← hcell]
    refine perm_of_update (Nat.lt_of_lt_of_le hlt h.fits) (fun j => ?_) h.perm rfl
    rcases eq_or_ne j i with rfl | hne
    · simp [either]
    · simp [either, Function.update_of_ne hne]
  · rcases eq_or_ne j i with rfl | hne
    · rw [Function.update_self] at he'
      cases he'
      exact hon.mono hsub
    · rw [Function.update_of_ne hne] at hj he'
      exact (h.reached j e' hj he').mono hsub

/-- **Where nothing is left in an old bucket**, the new table is sound and has the entries. -/
theorem Rehashing.sound (h : Rehashing hash k cap old new cell none all) (hold : ∀ i, old i = false)
    (hd : all.NodupKeys) :
    Sound hash k (fun i => new i = false) (fun i => if new i then cell i else none) ∧
      (contents (fun i => if new i then cell i else none) (2 ^ k)).Perm all := by
  have hperm : (contents (fun i => if new i then cell i else none) (2 ^ k)).Perm all := by
    have heither : either old new cell = fun i => if new i then cell i else none := by
      funext i
      simp [either, hold]
    have hcap := h.perm
    -- cells beyond the new table are not used
    rw [heither, contents_of_le h.fits fun i hle _ => ?_] at hcap
    · exact hcap
    · cases hnew : new i with
      | false => rfl
      | true => exact absurd (h.new_lt i hnew) (Nat.not_lt.mpr hle)
  refine ⟨⟨fun i hi e he => ?_, (List.perm_nodupKeys hperm).mpr hd⟩, hperm⟩
  cases hnew : new i with
  | false => simp [hnew] at he
  | true =>
    simp only [hnew, if_true] at he
    exact h.reached i e hnew he

end Rehash

end OpenAddressing
