import LibPaxos.KhashFlags
import LibPaxos.Lib.OpenAddressing

/-!
# Searching, writing and deleting in the hash table

The state of a bucket is read off the flags and the two arrays (`Khash.entryAt`), which makes the
table one with open addressing (`Khash.Table`). Since the load factor leaves a bucket empty, every
search ends.

* **`khGet_spec`** — `kh_get` returns the bucket of the key.
* **`khPutSite_spec`** — the bucket that `kh_put` finds has the key or is on its path.
* **`Khash.Table.insert`**, **`Khash.Table.setValue`**, **`Khash.Table.delete`** — what is written.
-/

namespace LibPaxos

open Probing OpenAddressing

/-! ## What a table holds -/

section View

variable {κ α : Type}

/-- The key and the value that lie in a bucket. -/
def cellAt (keys : List κ) (vals : List α) (i : Nat) : Option (Sigma fun _ : κ => α) :=
  keys[i]?.bind fun key => vals[i]?.map fun val => ⟨key, val⟩

/-- The entry of a bucket that is neither empty nor deleted. -/
def Khash.entryAt (h : Khash κ α) (i : Nat) : Option (Sigma fun _ : κ => α) :=
  if emptyAt h.flags i || delAt h.flags i then none else cellAt h.keys h.vals i

/-- The entries, in the order in which `kh_foreach` visits them. -/
def Khash.entries (h : Khash κ α) : List (Sigma fun _ : κ => α) :=
  contents h.entryAt h.nBuckets.toNat

/-- A mark for a bucket that is in use or was. -/
def usedAt (flag : List UInt32) (i : Nat) : Option Unit :=
  if emptyAt flag i then none else some ()

/-- **A table that has been allocated**, with `2 ^ k` buckets: entries are found, and the counters
count them. -/
structure Khash.Table (hash : κ → UInt32) (k : Nat) (h : Khash κ α) : Prop where
  two_le : 2 ≤ k
  le : k ≤ 31
  buckets : h.nBuckets.toNat = 2 ^ k
  upper : h.upperBound = hashUpper h.nBuckets
  flags : h.flags.length = (acFsize h.nBuckets).toNat
  keys : 2 ^ k ≤ h.keys.length
  vals : 2 ^ k ≤ h.vals.length
  sound : Sound (fun key => (hash key).toNat) k (fun i => emptyAt h.flags i = true) h.entryAt
  size : h.size.toNat = h.entries.length
  occupied : h.nOccupied.toNat = (contents (usedAt h.flags) (2 ^ k)).length
  load : h.nOccupied ≤ h.upperBound

theorem cellAt_isSome {keys : List κ} {vals : List α} {i : Nat} (hk : i < keys.length)
    (hv : i < vals.length) : cellAt keys vals i = some ⟨keys[i], vals[i]⟩ := by
  simp [cellAt, hk, hv]

/-- Both arrays are written at one bucket. -/
theorem cellAt_set {keys : List κ} {vals : List α} {i : Nat} (hk : i < keys.length)
    (hv : i < vals.length) (key : κ) (val : α) :
    cellAt (keys.set i key) (vals.set i val)
      = Function.update (cellAt keys vals) i (some ⟨key, val⟩) := by
  funext j
  rcases eq_or_ne j i with rfl | hne
  · simp [cellAt, hk, hv]
  · simp [cellAt, Function.update_of_ne hne, hne.symm]

end View

/-! ## Numbers of buckets

The number of buckets is a power of two that has 32 bits, so a mask is a remainder and the moves of
a search are those of `Probing.probe`. -/

section Numbers

variable {n x i step : UInt32} {k : Nat}

theorem toNat_mask (hk : k ≤ 31) (hn : n.toNat = 2 ^ k) : (n - 1).toNat = 2 ^ k - 1 := by
  have hpos := Nat.two_pow_pos k
  have hlt : 2 ^ k < 2 ^ 32 := Nat.pow_lt_pow_right (by decide) (by omega)
  rw [UInt32.toNat_sub, hn, UInt32.toNat_one]
  omega

theorem toNat_and_mask (hk : k ≤ 31) (hn : n.toNat = 2 ^ k) (x : UInt32) :
    (x &&& (n - 1)).toNat = x.toNat % 2 ^ k := by
  rw [UInt32.toNat_and, toNat_mask hk hn, Nat.and_two_pow_sub_one_eq_mod]

/-- One move of a search. -/
theorem toNat_move (hk : k ≤ 31) (hn : n.toNat = 2 ^ k) (i step : UInt32) :
    ((i + step) &&& (n - 1)).toNat = (i.toNat + step.toNat) % 2 ^ k := by
  rw [toNat_and_mask hk hn, UInt32.toNat_add]
  exact Nat.mod_mod_of_dvd _ (Nat.pow_dvd_pow 2 (by omega))

theorem lt_acFsize (hk : k ≤ 31) (hn : n.toNat = 2 ^ k) {i : Nat} (hi : i < 2 ^ k) :
    i / 16 < (acFsize n).toNat := by
  unfold acFsize
  split
  · next hlt =>
    rw [UInt32.lt_iff_toNat_lt, hn] at hlt
    have hlt : 2 ^ k < 16 := hlt
    have hdiv : i / 16 = 0 := Nat.div_eq_of_lt (by omega)
    rw [hdiv]
    decide
  · next hge =>
    rw [UInt32.lt_iff_toNat_lt, hn] at hge
    have hge : ¬ 2 ^ k < 2 ^ 4 := hge
    have hfour : 4 ≤ k := by
      by_contra hsmall
      exact hge (Nat.pow_lt_pow_right (by decide) (by omega))
    have hpow : 2 ^ k = 16 * 2 ^ (k - 4) := by
      rw [show (16 : Nat) = 2 ^ 4 from rfl, ← Nat.pow_add]
      congr 1
      omega
    rw [toNat_shiftRight_four, hn]
    omega

theorem toNat_hashUpper (hk : k ≤ 31) (hn : n.toNat = 2 ^ k) :
    (hashUpper n).toNat = (77 * 2 ^ k + 50) / 100 := by
  have hle : 2 ^ k ≤ 2 ^ 31 := Nat.pow_le_pow_right (by decide) hk
  rw [hashUpper, hn, UInt32.toNat_ofNat', Nat.mod_eq_of_lt]
  omega

/-- The load factor leaves at least one bucket empty. -/
theorem toNat_hashUpper_lt (hk : 2 ≤ k) (hle : k ≤ 31) (hn : n.toNat = 2 ^ k) :
    (hashUpper n).toNat < 2 ^ k := by
  have hfour : 2 ^ 2 ≤ 2 ^ k := Nat.pow_le_pow_right (by decide) hk
  rw [toNat_hashUpper hle hn]
  omega

end Numbers

/-! ## The search

A search stops at a free bucket or at its key. The load factor leaves a bucket that was never used,
and probing reaches every bucket, so there is a first one at which it stops: `khSearch_run` follows
the loop up to there. On the way it notes a deleted bucket, which is before the stop on the path and
may be written to instead. -/

section Search

variable {κ α : Type} {hash : κ → UInt32} {k : Nat} {h : Khash κ α}

theorem Khash.Table.word_lt (hT : h.Table hash k) {i : Nat} (hi : i < 2 ^ k) :
    i / 16 < h.flags.length := by
  rw [hT.flags]
  exact lt_acFsize hT.le hT.buckets hi

theorem Khash.Table.entries_eq (hT : h.Table hash k) : h.entries = contents h.entryAt (2 ^ k) := by
  rw [Khash.entries, hT.buckets]

/-- There is an empty bucket. -/
theorem Khash.Table.exists_empty (hT : h.Table hash k) :
    ∃ i < 2 ^ k, emptyAt h.flags i = true := by
  have hload := UInt32.le_iff_toNat_le.mp hT.load
  rw [hT.occupied, hT.upper] at hload
  have hlt := Nat.lt_of_le_of_lt hload (toNat_hashUpper_lt hT.two_le hT.le hT.buckets)
  obtain ⟨i, hi, hnone⟩ := exists_none_of_length_lt (Nat.le_refl _) hlt
  refine ⟨i, hi, ?_⟩
  cases hempty : emptyAt h.flags i with
  | true => rfl
  | false => simp [usedAt, hempty] at hnone

/-- Where the search for the key ends. -/
abbrev Khash.StopsAt (h : Khash κ α) (key : κ) (i : Nat) : Prop :=
  Stops (fun i => emptyAt h.flags i = true) h.entryAt key i

theorem lift_ok_bind {β γ : Type} (x : β) (f : β → OptionT (Except Fault) γ) :
    (OptionT.lift (Except.ok x : Except Fault β) >>= f) = f x := rfl

/-- The table has no entry for the key. -/
def Khash.Lacks (h : Khash κ α) (k : Nat) (key : κ) : Prop :=
  ∀ i < 2 ^ k, ∀ v, h.entryAt i ≠ some ⟨key, v⟩

theorem entryAt_eq_some {i : Nat} {e : Sigma fun _ : κ => α} (he : h.entryAt i = some e) :
    emptyAt h.flags i = false ∧ delAt h.flags i = false ∧ cellAt h.keys h.vals i = some e := by
  unfold Khash.entryAt at he
  split at he
  · cases he
  · next hlive =>
    simp only [Bool.or_eq_true, not_or, Bool.not_eq_true] at hlive
    exact ⟨hlive.1, hlive.2, he⟩

theorem Khash.Table.nBuckets_ne_zero (hT : h.Table hash k) : h.nBuckets ≠ 0 := by
  intro hzero
  have hn := hT.buckets
  rw [hzero] at hn
  exact absurd hn.symm (Nat.ne_of_gt (Nat.two_pow_pos k))

variable [DecidableEq κ]

/-- The search does not leave a bucket where it ends. -/
theorem khSearch_stop (hT : h.Table hash k) {key : κ} {s : KhSearch} (hi : s.i.toNat < 2 ^ k)
    (hstop : h.StopsAt key s.i.toNat) (mask last : UInt32) (turns : Nat) :
    khSearch h key mask last (turns + 1) s = pure s := by
  have hw := hT.word_lt hi
  rw [khSearch, acIsempty_eq hw, acIsdel_eq hw, lift_ok_bind, lift_ok_bind]
  obtain hempty | ⟨v, hv⟩ := hstop
  · simp [hempty]
  · unfold Khash.entryAt at hv
    split at hv
    · cases hv
    · next hlive =>
      have hk : s.i.toNat < h.keys.length := Nat.lt_of_lt_of_le hi hT.keys
      rw [cellAt_isSome hk (Nat.lt_of_lt_of_le hi hT.vals)] at hv
      cases hv
      simp only [Bool.or_eq_true, not_or, Bool.not_eq_true] at hlive
      simp [hlive.1, hlive.2, readCell_eq hk, lift_ok_bind]

/-- The search moves on from any other bucket. -/
theorem khSearch_move (hT : h.Table hash k) {key : κ} {s : KhSearch} (hi : s.i.toNat < 2 ^ k)
    (hstop : ¬ h.StopsAt key s.i.toNat) {mask last : UInt32} (turns : Nat)
    (hlast : (s.i + (s.step + 1)) &&& mask ≠ last) :
    khSearch h key mask last (turns + 1) s
      = khSearch h key mask last turns
          { i := (s.i + (s.step + 1)) &&& mask
            step := s.step + 1
            site := if delAt h.flags s.i.toNat then s.i else s.site
            wrapped := false } := by
  have hw := hT.word_lt hi
  rw [khSearch, acIsempty_eq hw, acIsdel_eq hw, lift_ok_bind, lift_ok_bind]
  have hempty : emptyAt h.flags s.i.toNat = false := by
    cases hempty : emptyAt h.flags s.i.toNat with
    | false => rfl
    | true => exact absurd (.inl hempty) hstop
  cases hdel : delAt h.flags s.i.toNat with
  | true => simp [hempty, hlast]
  | false =>
    have hk : s.i.toNat < h.keys.length := Nat.lt_of_lt_of_le hi hT.keys
    have hv : s.i.toNat < h.vals.length := Nat.lt_of_lt_of_le hi hT.vals
    -- the bucket has another key
    have hne : h.keys[s.i.toNat] ≠ key := by
      rintro rfl
      exact hstop (.inr ⟨h.vals[s.i.toNat],
        by simp [Khash.entryAt, hempty, hdel, cellAt_isSome hk hv]⟩)
    simp [hempty, readCell_eq hk, lift_ok_bind, hne, hlast]

/-- A bucket whose entry was deleted, before the point `r` of the path. -/
def Khash.SiteBefore (h : Khash κ α) (k start r : Nat) (site : UInt32) : Prop :=
  site = h.nBuckets ∨ ∃ t < r, site.toNat = probe k start t ∧
    emptyAt h.flags site.toNat = false ∧ delAt h.flags site.toNat = true

/-- **A search runs along its path** to the first bucket where it ends. -/
theorem khSearch_run (hT : h.Table hash k) {key : κ} {e : Nat} (he : e < 2 ^ k)
    (hstop : h.StopsAt key (probe k (hash key).toNat e))
    (hfirst : ∀ r < e, ¬ h.StopsAt key (probe k (hash key).toNat r)) {last : UInt32}
    (hlast : last.toNat = probe k (hash key).toNat 0) :
    ∀ (d r turns : Nat) (s : KhSearch), r + d = e → d < turns →
      s.i.toNat = probe k (hash key).toNat r → s.step.toNat = r → s.wrapped = false →
      h.SiteBefore k (hash key).toNat r s.site →
      ∃ s', khSearch h key (h.nBuckets - 1) last turns s = pure s' ∧
        s'.i.toNat = probe k (hash key).toNat e ∧ s'.wrapped = false ∧
        h.SiteBefore k (hash key).toNat e s'.site := by
  intro d
  -- by the number of moves that are left
  induction d with
  | zero =>
    rintro r (_ | turns) s hr hturns hi hstep hwr hsite
    · cases hturns
    · obtain rfl : r = e := hr
      exact ⟨s, khSearch_stop hT (hi ▸ probe_lt ..) (hi ▸ hstop) _ _ _, hi, hwr, hsite⟩
  | succ d ih =>
    rintro r (_ | turns) s hr hturns hi hstep hwr hsite
    · cases hturns
    · have hlt : r < e := by omega
      have hk := hT.le
      have hpow : 2 ^ k ≤ 2 ^ 31 := Nat.pow_le_pow_right (by decide) hk
      have hstep' : (s.step + 1).toNat = r + 1 := by
        rw [UInt32.toNat_add, hstep, UInt32.toNat_one, Nat.mod_eq_of_lt]
        omega
      have hmove : ((s.i + (s.step + 1)) &&& (h.nBuckets - 1)).toNat
          = probe k (hash key).toNat (r + 1) := by
        rw [toNat_move hk hT.buckets, hi, hstep', probe_succ]
      have hne : (s.i + (s.step + 1)) &&& (h.nBuckets - 1) ≠ last := by
        intro heq
        have hback := congrArg UInt32.toNat heq
        rw [hmove, hlast] at hback
        have := probe_inj (by omega) (Nat.two_pow_pos k) hback
        omega
      have hstop' : ¬ h.StopsAt key s.i.toNat := hi ▸ hfirst r hlt
      rw [khSearch_move hT (hi ▸ probe_lt ..) hstop' turns hne]
      refine ih (r + 1) turns _ (by omega) (by omega) hmove hstep' rfl ?_
      -- the site is the bucket passed, if its entry was deleted
      show h.SiteBefore k _ (r + 1) (if delAt h.flags s.i.toNat = true then s.i else s.site)
      split
      · next hdel =>
        refine .inr ⟨r, Nat.lt_succ_self r, hi, ?_, hdel⟩
        cases hempty : emptyAt h.flags s.i.toNat with
        | false => rfl
        | true => exact absurd (.inl hempty) hstop'
      · obtain heq | ⟨t, ht, htr⟩ := hsite
        · exact .inl heq
        · exact .inr ⟨t, Nat.lt_succ_of_lt ht, htr⟩

/-- **The search for a key ends** at the first bucket that is empty or has the key. -/
theorem khSearchFrom_run (hT : h.Table hash k) (key : κ) {fuel : Nat} (hfuel : 2 ^ 32 ≤ fuel) :
    ∃ e < 2 ^ k, h.StopsAt key (probe k (hash key).toNat e) ∧
      (∀ r < e, ¬ h.StopsAt key (probe k (hash key).toNat r)) ∧
      ∃ s, khSearchFrom hash fuel h key = pure s ∧ s.i.toNat = probe k (hash key).toNat e ∧
        s.wrapped = false ∧ h.SiteBefore k (hash key).toNat e s.site := by
  obtain ⟨i, hi, hempty⟩ := hT.exists_empty
  obtain ⟨e, he, hstop, hfirst⟩ := exists_first_probe k (hash key).toNat
    (P := h.StopsAt key) hi (.inl hempty)
  have hstart : (hash key &&& (h.nBuckets - 1)).toNat = probe k (hash key).toNat 0 :=
    toNat_and_mask hT.le hT.buckets _
  have hpow : 2 ^ k ≤ 2 ^ 31 := Nat.pow_le_pow_right (by decide) hT.le
  refine ⟨e, he, hstop, hfirst, ?_⟩
  exact khSearch_run hT he hstop hfirst hstart e 0 fuel _ (Nat.zero_add e) (by omega) hstart rfl rfl
    (.inl rfl)

/-- **`kh_get`** returns the bucket of the key, or `n_buckets` if there is none. -/
theorem khGet_spec (hT : h.Table hash k) (key : κ) {fuel : Nat} (hfuel : 2 ^ 32 ≤ fuel) :
    ∃ x, khGet hash fuel h key = pure x ∧
      ((x = h.nBuckets ∧ h.Lacks k key) ∨
        (x.toNat < 2 ^ k ∧ ∃ v, h.entryAt x.toNat = some ⟨key, v⟩)) := by
  obtain ⟨e, -, hstop, hfirst, s, hs, hi, hwr, -⟩ := khSearchFrom_run hT key hfuel
  have hlt : s.i.toNat < 2 ^ k := hi ▸ probe_lt ..
  rw [khGet, if_pos hT.nBuckets_ne_zero, hs, pure_bind, hwr, acIseither_eq (hT.word_lt hlt),
    lift_ok_bind]
  by_cases hno : h.Lacks k key
  · have hempty : emptyAt h.flags s.i.toNat = true := by
      rw [hi]
      exact hstop.free_of_absent (probe_lt ..) hno
    exact ⟨h.nBuckets, by simp [hempty], .inl ⟨rfl, hno⟩⟩
  · unfold Khash.Lacks at hno
    push Not at hno
    obtain ⟨i, hilt, v, hv⟩ := hno
    have hat : s.i.toNat = i := hi.trans (hT.sound.found hstop hfirst hilt hv)
    rw [← hat] at hv
    obtain ⟨hempty, hdel, -⟩ := entryAt_eq_some hv
    exact ⟨s.i, by simp [hempty, hdel], .inr ⟨hlt, v, hv⟩⟩

/-- **The bucket that `kh_put` finds** has the key already, or is one where it can be written. -/
theorem khPutSite_spec (hT : h.Table hash k) (key : κ) {fuel : Nat} (hfuel : 2 ^ 32 ≤ fuel) :
    ∃ x, khPutSite hash fuel h key = pure x ∧ x.toNat < 2 ^ k ∧
      ((∃ v, h.entryAt x.toNat = some ⟨key, v⟩) ∨
        (h.Lacks k key ∧ (emptyAt h.flags x.toNat = true ∨ delAt h.flags x.toNat = true) ∧
          Reached (fun key => (hash key).toNat) k (fun i => emptyAt h.flags i = true) key
            x.toNat)) := by
  have hstart : (hash key &&& (h.nBuckets - 1)).toNat = probe k (hash key).toNat 0 :=
    toNat_and_mask hT.le hT.buckets _
  have hlt : (hash key &&& (h.nBuckets - 1)).toNat < 2 ^ k := hstart ▸ probe_lt ..
  obtain ⟨e, he, hstop, hfirst, s, hs, hi, hwr, hsite⟩ := khSearchFrom_run hT key hfuel
  have hilt : s.i.toNat < 2 ^ k := hi ▸ probe_lt ..
  -- nothing before the end of the search is empty
  have hpath : ∀ r < e, ¬ emptyAt h.flags (probe k (hash key).toNat r) = true :=
    fun r hr hempty => hfirst r hr (.inl hempty)
  -- where it ends in an empty bucket, the key is not in the table
  have hlacks : emptyAt h.flags s.i.toNat = true → h.Lacks k key := by
    intro hempty i hilt v hv
    have hat : s.i.toNat = i := hi.trans (hT.sound.found hstop hfirst hilt hv)
    rw [hat, (entryAt_eq_some hv).1] at hempty
    cases hempty
  rw [khPutSite, acIsempty_eq (hT.word_lt hlt), lift_ok_bind]
  split
  · next hempty =>
    refine ⟨_, rfl, hlt, .inr ?_⟩
    have hzero : e = 0 := by
      by_contra hne
      exact hpath 0 (Nat.pos_of_ne_zero hne) (hstart ▸ hempty)
    rw [hzero, ← hstart] at hi
    refine ⟨hlacks (hi ▸ hempty), .inl hempty, 0, Nat.two_pow_pos k, hstart.symm, ?_⟩
    intro r hr
    cases hr
  · rw [hs, pure_bind, hwr, acIsempty_eq (hT.word_lt hilt)]
    simp only [Bool.false_eq_true, if_false, if_true, lift_ok_bind]
    cases hempty : emptyAt h.flags s.i.toNat with
    | true =>
      obtain hnone | ⟨t, ht, hat, hne, hdel⟩ := hsite
      · refine ⟨s.i, by simp [hnone], hilt, .inr ⟨hlacks hempty, .inl hempty, e, he, hi.symm, ?_⟩⟩
        exact hpath
      · have hslt : s.site.toNat < 2 ^ k := hat ▸ probe_lt ..
        have hsne : s.site ≠ h.nBuckets := by
          intro heq
          rw [heq, hT.buckets] at hslt
          exact Nat.lt_irrefl _ hslt
        refine ⟨s.site, by simp [hsne], hslt, .inr ⟨hlacks hempty, .inr hdel, t, by omega, ?_⟩⟩
        refine ⟨hat.symm, ?_⟩
        exact fun r hr => hpath r (Nat.lt_trans hr ht)
    | false =>
      refine ⟨s.i, by simp, hilt, .inl ?_⟩
      rw [← hi] at hstop
      exact hstop.resolve_left (by simp [hempty])

end Search

/-! ## Writing and deleting

What a write to one bucket makes of the table: the arrays and flags of all other buckets stay, so
the entries change as those of `OpenAddressing` do, and the two counters with them. -/

section Write

variable {κ α : Type} {hash : κ → UInt32} {k : Nat} {h : Khash κ α}

/-- There are not more entries than buckets in use. -/
theorem length_entries_lt (hT : h.Table hash k) : h.entries.length ≤ 2 ^ k := by
  rw [hT.entries_eq]
  exact (List.length_filterMap_le _ _).trans (by simp)

/-- `kh_value(h, x) = val`. -/
theorem Khash.Table.setValue (hT : h.Table hash k) {x : Nat} {key : κ} {w : α} (hx : x < 2 ^ k)
    (he : h.entryAt x = some ⟨key, w⟩) (v : α) :
    ({ h with vals := h.vals.set x v } : Khash κ α).Table hash k ∧
      ({ h with vals := h.vals.set x v } : Khash κ α).entryAt
        = Function.update h.entryAt x (some ⟨key, v⟩) := by
  have hk : x < h.keys.length := Nat.lt_of_lt_of_le hx hT.keys
  have hv : x < h.vals.length := Nat.lt_of_lt_of_le hx hT.vals
  obtain ⟨hempty, hdel, hcell⟩ := entryAt_eq_some he
  have hat : ({ h with vals := h.vals.set x v } : Khash κ α).entryAt
      = Function.update h.entryAt x (some ⟨key, v⟩) := by
    rw [cellAt_isSome hk hv] at hcell
    cases hcell
    have hset := cellAt_set hk hv h.keys[x] v
    rw [List.set_getElem_self] at hset
    funext j
    unfold Khash.entryAt
    rw [hset]
    rcases eq_or_ne j x with rfl | hne
    · simp [hempty, hdel]
    · simp [Function.update_of_ne hne]
  -- the number of entries does not change
  have hlen : (contents (Function.update h.entryAt x (some ⟨key, v⟩)) (2 ^ k)).length
      = (contents h.entryAt (2 ^ k)).length := by
    have hperm := (contents_update_perm h.entryAt hx (some ⟨key, v⟩)).length_eq
    rw [he] at hperm
    simpa using hperm
  refine ⟨{ hT with vals := ?_, sound := ?_, size := ?_ }, hat⟩
  · simpa using hT.vals
  · rw [hat]
    exact hT.sound.replace hx he v
  · rw [Khash.entries, hat]
    show h.size.toNat = (contents _ h.nBuckets.toNat).length
    rw [hT.buckets, hlen, hT.size, hT.entries_eq]

/-- The table with one more entry, whose key was written to the bucket `x`. -/
def Khash.withKey (h : Khash κ α) (x : Nat) (key : κ) (flags : List UInt32) (occupied : UInt32) :
    Khash κ α :=
  { h with keys := h.keys.set x key, flags := flags, size := h.size + 1, nOccupied := occupied }

/-- **A new key is written to a bucket** that is empty or deleted. The entry has the value that lay
in the bucket. -/
theorem Khash.Table.insert (hT : h.Table hash k) {x : Nat} {key : κ} {flags' : List UInt32}
    {occupied : UInt32} (hx : x < 2 ^ k) (hlacks : h.Lacks k key)
    (hfree : emptyAt h.flags x = true ∨ delAt h.flags x = true)
    (hr : Reached (fun key => (hash key).toNat) k (fun i => emptyAt h.flags i = true) key x)
    (hw : FlagsWritten h.flags flags' x false false)
    (hocc : occupied.toNat = if emptyAt h.flags x then h.nOccupied.toNat + 1 else h.nOccupied.toNat)
    (hload : occupied ≤ h.upperBound) :
    ∃ v, (h.withKey x key flags' occupied).Table hash k ∧
      (h.withKey x key flags' occupied).entryAt x = some ⟨key, v⟩ ∧
      (h.withKey x key flags' occupied).entries.Perm (⟨key, v⟩ :: h.entries) := by
  have hk : x < h.keys.length := Nat.lt_of_lt_of_le hx hT.keys
  have hv : x < h.vals.length := Nat.lt_of_lt_of_le hx hT.vals
  -- what was in the bucket does not count, and its value is what the new entry gets
  have hnone : h.entryAt x = none := by
    unfold Khash.entryAt
    rcases hfree with hfree | hfree <;> simp [hfree]
  have hat : (h.withKey x key flags' occupied).entryAt
      = Function.update h.entryAt x (some ⟨key, h.vals[x]⟩) := by
    have hset := cellAt_set hk hv key h.vals[x]
    rw [List.set_getElem_self] at hset
    funext j
    unfold Khash.entryAt Khash.withKey
    rw [hset, hw.empty, hw.del]
    rcases eq_or_ne j x with rfl | hne
    · simp
    · simp [hne]
  -- the bucket counts as occupied from now on, if it did not before
  have hused : usedAt flags' = Function.update (usedAt h.flags) x (some ()) := by
    funext j
    unfold usedAt
    rw [hw.empty]
    rcases eq_or_ne j x with rfl | hne
    · simp
    · simp [hne]
  have hentries : (h.withKey x key flags' occupied).entries
      = contents (Function.update h.entryAt x (some ⟨key, h.vals[x]⟩)) (2 ^ k) := by
    rw [Khash.entries, hat]
    show contents _ h.nBuckets.toNat = _
    rw [hT.buckets]
  have hperm : (h.withKey x key flags' occupied).entries.Perm (⟨key, h.vals[x]⟩ :: h.entries) := by
    have hupdate := contents_update_perm h.entryAt hx (some ⟨key, h.vals[x]⟩)
    rw [hnone, Option.toList_none, List.append_nil, ← hT.entries_eq] at hupdate
    rw [hentries]
    exact hupdate.trans (List.perm_append_singleton _ _)
  have hsize := length_entries_lt hT
  have hpow : 2 ^ k ≤ 2 ^ 31 := Nat.pow_le_pow_right (by decide) hT.le
  refine ⟨h.vals[x], { hT with flags := ?_, keys := ?_, sound := ?_, size := ?_, occupied := ?_,
                                load := hload }, by rw [hat, Function.update_self], hperm⟩
  -- the fields of the table, in turn
  · exact hw.length.trans hT.flags
  · simpa [Khash.withKey] using hT.keys
  · rw [hat]
    refine hT.sound.insert hx hr hnone hlacks (fun j hj => ?_) _
    have hj : emptyAt flags' j = true := hj
    rw [hw.empty] at hj
    split at hj
    · cases hj
    · exact hj
  · rw [hperm.length_eq, List.length_cons]
    show (h.size + 1).toNat = _
    rw [UInt32.toNat_add, hT.size, UInt32.toNat_one, Nat.mod_eq_of_lt (by omega)]
  · have hupdate := (contents_update_perm (usedAt h.flags) hx (some ())).length_eq
    show occupied.toNat = (contents (usedAt flags') _).length
    rw [hused, hocc, hT.occupied]
    unfold usedAt at hupdate ⊢
    split
    · next hempty => simpa [hempty] using hupdate.symm
    · next hempty => simpa [hempty] using hupdate.symm

/-- **The entry of a bucket is deleted.** -/
theorem Khash.Table.delete (hT : h.Table hash k) {x : Nat} {e : Sigma fun _ : κ => α}
    {flags' : List UInt32} (hx : x < 2 ^ k) (he : h.entryAt x = some e)
    (hw : FlagsWritten h.flags flags' x (emptyAt h.flags x) true) :
    ({ h with flags := flags', size := h.size - 1 } : Khash κ α).Table hash k ∧
      ({ h with flags := flags', size := h.size - 1 } : Khash κ α).entryAt
        = Function.update h.entryAt x none := by
  -- a deleted bucket is not free: searches go on behind it
  have hempty : ∀ j, emptyAt flags' j = emptyAt h.flags j := by
    intro j
    rw [hw.empty]
    split
    · next heq => rw [heq]
    · rfl
  have hat : ({ h with flags := flags', size := h.size - 1 } : Khash κ α).entryAt
      = Function.update h.entryAt x none := by
    funext j
    unfold Khash.entryAt
    rw [hempty, hw.del]
    rcases eq_or_ne j x with rfl | hne
    · simp
    · simp [hne]
  have hperm := (contents_update_perm h.entryAt hx none).length_eq
  rw [he] at hperm
  simp only [List.length_append, Option.toList_some, Option.toList_none, List.length_cons,
    List.length_nil, Nat.zero_add, Nat.add_zero] at hperm
  refine ⟨{ hT with flags := ?_, sound := ?_, size := ?_, occupied := ?_ }, hat⟩
  · exact hw.length.trans hT.flags
  · rw [hat, show (fun i => emptyAt flags' i = true) = fun i => emptyAt h.flags i = true from
      funext fun i => by rw [hempty]]
    exact hT.sound.erase hx
  · have hsize := hT.size
    have hlt := h.size.toNat_lt
    rw [hT.entries_eq] at hsize
    rw [Khash.entries, hat]
    show (h.size - 1).toNat = (contents _ h.nBuckets.toNat).length
    rw [hT.buckets, UInt32.toNat_sub, UInt32.toNat_one]
    omega
  · rw [show usedAt flags' = usedAt h.flags from funext fun i => by unfold usedAt; rw [hempty]]
    exact hT.occupied

end Write

end LibPaxos
