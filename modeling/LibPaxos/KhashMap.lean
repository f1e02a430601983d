import LibPaxos.KhashRehash

/-!
# The hash table is a map

Every sequence of insertions, look-ups, deletions, sweeps and visits on a table of `khash.h` gives
the results of a map. The map is an association list, as the models of proposers, learners and the
memory backend have it; the order in which `kh_foreach` visits the entries is up to the table.

Each function of the table gets one statement: on a table that holds the entries of a map, it
returns what the map returns, and leaves a table that holds the entries of the map afterwards. An
insertion can be refused memory, and `Khash.Starved` says exactly when it is. Whole runs follow by
induction, since nothing but `Khash.Holds` is carried from one use to the next.

* **`khash_is_map`** — the results of a run, with allocations that succeed or fail.
-/

namespace LibPaxos

open Probing OpenAddressing

section Holds

variable {κ α : Type} {hash : κ → UInt32} {h : Khash κ α} {m : AList fun _ : κ => α} {k fuel : Nat}

/-- **The table holds the entries of the map.** -/
structure Khash.Holds (hash : κ → UInt32) (h : Khash κ α) (m : AList fun _ : κ => α) : Prop where
  wf : h.Wf hash
  perm : h.entries.Perm m.entries

theorem khInit_holds (hash : κ → UInt32) : (khInit : Khash κ α).Holds hash ∅ where
  wf := .inl ⟨rfl, rfl, rfl, rfl⟩
  perm := .refl _

/-- The counter is the number of entries. -/
theorem Khash.Holds.size (hh : h.Holds hash m) : h.size.toNat = m.entries.length := by
  rw [hh.wf.ready.size, hh.perm.length_eq]

theorem toNat_ofNat_bucket {j : Nat} (hj : j < h.nBuckets.toNat) : (UInt32.ofNat j).toNat = j := by
  have := h.nBuckets.toNat_lt
  rw [UInt32.toNat_ofNat', Nat.mod_eq_of_lt (by omega)]

/-- A loop over the buckets finds the entry of each. -/
theorem Khash.Ready.bucket (hR : h.Ready) {j : Nat} (hj : j < h.nBuckets.toNat) :
    (khExist h (.ofNat j) = .ok false ∧ h.entryAt j = none) ∨
      ∃ key val, khExist h (.ofNat j) = .ok true ∧ readCell h.keys (.ofNat j) = .ok key ∧
        readCell h.vals (.ofNat j) = .ok val ∧ h.entryAt j = some ⟨key, val⟩ := by
  have hjn := toNat_ofNat_bucket hj
  have hexist : khExist h (.ofNat j) = .ok (!(emptyAt h.flags j || delAt h.flags j)) := by
    rw [khExist, acIseither_eq (by rw [hjn]; exact hR.flags j hj), hjn]
    rfl
  have hkeys : j < h.keys.length := Nat.lt_of_lt_of_le hj hR.keys
  have hvals : j < h.vals.length := Nat.lt_of_lt_of_le hj hR.vals
  cases heither : emptyAt h.flags j || delAt h.flags j with
  | true =>
    refine .inl ⟨by rw [hexist, heither]; rfl, ?_⟩
    rw [Khash.entryAt, heither]
    rfl
  | false =>
    refine .inr ⟨h.keys[j], h.vals[j], by rw [hexist, heither]; rfl, ?_, ?_, ?_⟩
    · rw [readCell_eq (by rw [hjn]; exact hkeys)]
      simp only [hjn]
    · rw [readCell_eq (by rw [hjn]; exact hvals)]
      simp only [hjn]
    · rw [Khash.entryAt, heither, cellAt_isSome hkeys hvals]
      rfl

/-- **A visit** comes to every entry once. -/
theorem khForeach_spec (hw : h.Wf hash) : khForeach h = .ok h.entries := by
  have hR := hw.ready
  -- after `j` turns it has visited the entries of the first `j` buckets
  have hloop : ∀ j ≤ h.nBuckets.toNat,
      (List.range j).foldlM (fun visited i => do
        let live ← khExist h (.ofNat i)
        if live then do
          let key ← readCell h.keys (.ofNat i)
          let val ← readCell h.vals (.ofNat i)
          .ok (visited ++ [⟨key, val⟩])
        else .ok visited) [] = (.ok (contents h.entryAt j) : Except Fault _) := by
    intro j
    induction j with
    | zero => exact fun _ => rfl
    | succ j ih =>
      intro hj
      rw [List.range_succ, List.foldlM_append, ih (by omega), contents_succ]
      simp only [List.foldlM_cons, List.foldlM_nil]
      obtain ⟨hdead, hat⟩ | ⟨key, val, hlive, hkey, hval, hat⟩ := hR.bucket hj
      · rw [hdead, hat]
        exact congrArg Except.ok (List.append_nil _).symm
      · rw [hlive, hat, hkey, hval]
        rfl
  exact hloop _ (Nat.le_refl _)

/-- Deleting the entry of a bucket. -/
theorem khDel_spec (hT : h.Table hash k) {x : UInt32} {e : Sigma fun _ : κ => α}
    (hx : x.toNat < 2 ^ k) (he : h.entryAt x.toNat = some e) :
    ∃ h', khDel h x = .ok h' ∧ h'.Table hash k ∧
      h'.entryAt = Function.update h.entryAt x.toNat none := by
  have hne : x ≠ h.nBuckets := by
    rintro rfl
    exact Nat.lt_irrefl _ (hT.buckets ▸ hx)
  obtain ⟨hempty, hdel, -⟩ := entryAt_eq_some he
  obtain ⟨flags', hflags, hw⟩ := acSetIsdelTrue_eq (hT.word_lt hx)
  obtain ⟨hT', hat⟩ := hT.delete hx he hw
  refine ⟨_, ?_, hT', hat⟩
  rw [khDel, if_pos hne, acIseither_eq (hT.word_lt hx), hempty, hdel, hflags]
  rfl

/-- The buckets while a sweep is at `j`. -/
def sweptTo (drop : α → Bool) (entry : Nat → Option (Sigma fun _ : κ => α)) (j i : Nat) :
    Option (Sigma fun _ : κ => α) :=
  if i < j then (entry i).filter fun e => !drop e.2 else entry i

theorem sweptTo_succ (drop : α → Bool) (entry : Nat → Option (Sigma fun _ : κ => α)) (j : Nat) :
    sweptTo drop entry (j + 1) = Function.update (sweptTo drop entry j) j
      ((entry j).filter fun e => !drop e.2) := by
  funext i
  unfold sweptTo
  rcases Nat.lt_trichotomy i j with hlt | rfl | hgt
  · rw [Function.update_of_ne (by omega), if_pos (by omega), if_pos hlt]
  · rw [Function.update_self, if_pos (Nat.lt_succ_self i)]
  · rw [Function.update_of_ne (by omega), if_neg (by omega), if_neg (by omega)]

theorem khSweepBucket_spec (hT : h.Table hash k) (drop : α → Bool) {j : Nat} (hj : j < 2 ^ k) :
    ∃ h', khSweepBucket drop h j = .ok h' ∧ h'.Table hash k ∧
      h'.entryAt = Function.update h.entryAt j ((h.entryAt j).filter fun e => !drop e.2) := by
  have hbucket : j < h.nBuckets.toNat := hT.buckets ▸ hj
  have hjn := toNat_ofNat_bucket hbucket
  obtain ⟨hdead, hat⟩ | ⟨key, val, hlive, -, hval, hat⟩ :=
    (Khash.Wf.ready (.inr ⟨k, hT⟩)).bucket hbucket
  -- nothing lives in the bucket
  · refine ⟨h, by rw [khSweepBucket, hdead]; rfl, hT, ?_⟩
    rw [hat, Option.filter_none, ← hat, Function.update_eq_self]
  · cases hdrop : drop val with
    | true =>
      obtain ⟨h', hdel, hT', hat'⟩ := khDel_spec hT (x := .ofNat j) (by rw [hjn]; exact hj)
        (by rw [hjn]; exact hat)
      refine ⟨h', ?_, hT', ?_⟩
      · rw [khSweepBucket, hlive, ← hdel, hval]
        show (if drop val then _ else _) = _
        rw [hdrop]
        rfl
      · rw [hat', hjn, hat]
        simp [Option.filter, hdrop]
    | false =>
      refine ⟨h, ?_, hT, ?_⟩
      · rw [khSweepBucket, hlive, hval]
        show (if drop val then _ else _) = _
        rw [hdrop]
        rfl
      · rw [hat]
        simp only [Option.filter, hdrop, Bool.not_false, if_true]
        rw [← hat, Function.update_eq_self]

/-- **A sweep** drops the entries it is meant to. -/
theorem khSweep_spec (hh : h.Holds hash m) (drop : α → Bool) :
    ∃ h', khSweep drop h = .ok h' ∧ h'.Holds hash (m.filter fun v => !drop v) := by
  obtain hu | ⟨k, hT⟩ := hh.wf
  · have hnil : m.entries = [] := List.perm_nil.mp (hu.entries ▸ hh.perm.symm)
    refine ⟨h, by rw [khSweep, hu.nBuckets]; rfl, hh.wf, ?_⟩
    rw [hu.entries]
    show List.Perm [] (m.entries.filter _)
    rw [hnil]
    exact .refl _
  · -- after `j` turns the first `j` buckets are swept
    have hloop : ∀ j ≤ 2 ^ k, ∃ h', (List.range j).foldlM (khSweepBucket drop) h = .ok h' ∧
        h'.Table hash k ∧ h'.entryAt = sweptTo drop h.entryAt j := by
      intro j
      induction j with
      | zero => exact fun _ => ⟨h, rfl, hT, funext fun i => (if_neg (Nat.not_lt_zero i)).symm⟩
      | succ j ih =>
        intro hj
        obtain ⟨h₁, hrun, hT₁, hat₁⟩ := ih (by omega)
        obtain ⟨h₂, hstep, hT₂, hat₂⟩ := khSweepBucket_spec hT₁ drop hj
        refine ⟨h₂, ?_, hT₂, ?_⟩
        · rw [List.range_succ, List.foldlM_append, hrun]
          simp only [List.foldlM_cons, List.foldlM_nil]
          exact (congrArg (· >>= pure) hstep).trans rfl
        · rw [hat₂, hat₁, sweptTo_succ, show sweptTo drop h.entryAt j j = h.entryAt j from
            if_neg (Nat.lt_irrefl j)]
    obtain ⟨h', hrun, hT', hat⟩ := hloop _ (Nat.le_refl _)
    refine ⟨h', by rw [khSweep, hT.buckets, hrun], .inr ⟨k, hT'⟩, ?_⟩
    have hall : h'.entries = h.entries.filter fun e => !drop e.2 := by
      rw [hT'.entries_eq, hT.entries_eq, hat, ← contents_filter]
      exact contents_congr fun i hi => if_pos hi
    rw [hall]
    exact hh.perm.filter _

/-- There is room in the table for one more entry. -/
def Khash.HasRoom (hash : κ → UInt32) (h : Khash κ α) : Prop :=
  ∃ k, h.Table hash k ∧ h.nOccupied < h.upperBound

/-- `kh_put` is refused memory: the table is full, and an allocation fails that is made for a larger
one, or for one without the deleted entries. -/
def Khash.Starved (h : Khash κ α) (alloc : KhAllocs κ α) : Prop :=
  h.upperBound ≤ h.nOccupied ∧ ¬ alloc.Suffice (h.nBuckets ≤ h.size <<< 1)

/-- What making room comes to: memory is refused and nothing has happened to the entries, or
there is room, and the entries are the same in perhaps other buckets. -/
def Khash.MakesRoom (hash : κ → UInt32) (alloc : KhAllocs κ α) (h h' : Khash κ α) (rc : Int) :
    Prop :=
  (rc = -1 ∧ h.Starved alloc ∧ h'.Wf hash ∧ h'.entries = h.entries) ∨
    (rc = 0 ∧ ¬ h.Starved alloc ∧ h'.HasRoom hash ∧ h'.entries.Perm h.entries)

/-- A full table is resized to a size that leaves room. -/
theorem khResize_makesRoom (alloc : KhAllocs κ α) (hw : h.Wf hash) (hfuel : 2 ^ 32 ≤ fuel)
    {req : UInt32} (hfull : h.upperBound ≤ h.nOccupied) (hreq : h.size < hashUpper (resizedTo req))
    (hgrows : h.nBuckets < resizedTo req ↔ h.nBuckets ≤ h.size <<< 1) :
    ∃ h' rc, khResize hash fuel alloc h req = pure (h', rc) ∧ h.MakesRoom hash alloc h' rc := by
  obtain ⟨h', rc, heq, ⟨hrc, hno, hrest⟩ | ⟨hrc, hyes, k, hk, hT, hperm, hsz, hocc⟩⟩ :=
    khResize_spec alloc hw hfuel hreq
  · exact ⟨h', rc, heq, .inl ⟨hrc, ⟨hfull, propext hgrows ▸ hno⟩, hrest⟩⟩
  · have hn : h'.nBuckets = resizedTo req := UInt32.toNat_inj.mp (hT.buckets.trans hk.symm)
    have hfed : ¬ h.Starved alloc := fun hstarved => hstarved.2 (propext hgrows ▸ hyes)
    refine ⟨h', rc, heq, .inr ⟨hrc, hfed, ⟨k, hT, ?_⟩, hperm⟩⟩
    rw [hocc, hT.upper, hn]
    exact hreq

theorem toNat_shiftLeft_one {x : UInt32} (hx : x.toNat < 2 ^ 30) :
    (x <<< 1).toNat = 2 * x.toNat := by
  rw [UInt32.toNat_shiftLeft]
  show x.toNat <<< 1 % 2 ^ 32 = _
  rw [Nat.shiftLeft_eq, Nat.mod_eq_of_lt] <;> omega

/-- Most of the buckets in use are deleted: as many buckets as before leave room. -/
theorem Khash.Table.room_of_sparse (hT : h.Table hash k) (hsize : h.size.toNat < 2 ^ 30)
    (hgt : h.size <<< 1 < h.nBuckets) :
    h.size < hashUpper (resizedTo (h.nBuckets - 1)) ∧
      (h.nBuckets < resizedTo (h.nBuckets - 1) ↔ h.nBuckets ≤ h.size <<< 1) := by
  have hpow : 2 ^ 2 ≤ 2 ^ k := Nat.pow_le_pow_right (by decide) hT.two_le
  have hto := toNat_resizedTo_sub_one hT.two_le hT.le hT.buckets
  rw [UInt32.lt_iff_toNat_lt, toNat_shiftLeft_one hsize, hT.buckets] at hgt
  constructor
  · rw [UInt32.lt_iff_toNat_lt, toNat_hashUpper hT.le hto]
    omega
  · rw [UInt32.lt_iff_toNat_lt, UInt32.le_iff_toNat_le, hto, toNat_shiftLeft_one hsize, hT.buckets]
    omega

/-- Otherwise twice the buckets do. -/
theorem Khash.Table.room_of_dense (hT : h.Table hash k) (hsize : h.size.toNat < 2 ^ 30)
    (hle : ¬ h.size <<< 1 < h.nBuckets) :
    h.size < hashUpper (resizedTo (h.nBuckets + 1)) ∧
      (h.nBuckets < resizedTo (h.nBuckets + 1) ↔ h.nBuckets ≤ h.size <<< 1) := by
  have hpow : 2 ^ 2 ≤ 2 ^ k := Nat.pow_le_pow_right (by decide) hT.two_le
  rw [UInt32.lt_iff_toNat_lt, toNat_shiftLeft_one hsize, hT.buckets] at hle
  have hk : k ≤ 30 := by
    by_contra hgt
    obtain rfl : k = 31 := by have := hT.le; omega
    omega
  have hto := toNat_resizedTo_add_one hT.two_le hk hT.buckets
  have hentries := length_entries_lt hT
  rw [← hT.size] at hentries
  constructor
  · rw [UInt32.lt_iff_toNat_lt, toNat_hashUpper (by omega) hto, Nat.pow_succ]
    omega
  · rw [UInt32.lt_iff_toNat_lt, UInt32.le_iff_toNat_le, hto, toNat_shiftLeft_one hsize, hT.buckets,
      Nat.pow_succ]
    omega

/-- **Room for one more entry** is made, or memory is refused. -/
theorem khMakeRoom_spec (alloc : KhAllocs κ α) (hw : h.Wf hash) (hfuel : 2 ^ 32 ≤ fuel)
    (hsize : h.size.toNat < 2 ^ 30) :
    ∃ h' rc, khMakeRoom hash fuel alloc h = pure (h', rc) ∧ h.MakesRoom hash alloc h' rc := by
  unfold khMakeRoom
  by_cases hfull : h.upperBound ≤ h.nOccupied
  · rw [if_pos hfull]
    obtain hu | ⟨k, hT⟩ := id hw
    · rw [if_neg (by rw [hu.nBuckets, hu.size]; decide)]
      refine khResize_makesRoom alloc hw hfuel hfull ?_ ?_
      · rw [hu.nBuckets, hu.size]
        decide
      · rw [hu.nBuckets, hu.size]
        decide
    · split
      · next hgt =>
        obtain ⟨hroom, hgrows⟩ := hT.room_of_sparse hsize hgt
        exact khResize_makesRoom alloc hw hfuel hfull hroom hgrows
      · next hle =>
        obtain ⟨hroom, hgrows⟩ := hT.room_of_dense hsize hle
        exact khResize_makesRoom alloc hw hfuel hfull hroom hgrows
  · -- a table that is not in use counts as full
    obtain hu | ⟨k, hT⟩ := hw
    · rw [hu.upperBound, hu.nOccupied] at hfull
      exact absurd (UInt32.le_refl 0) hfull
    · rw [if_neg hfull]
      exact ⟨h, 0, rfl, .inr ⟨rfl, fun hstarved => hfull hstarved.1,
        ⟨k, hT, UInt32.not_le.mp hfull⟩, .refl _⟩⟩

/-- **The last block of `kh_put`** writes the key to the bucket, unless it is there. -/
theorem khWriteKey_spec {key : κ} {x : UInt32} (hT : h.Table hash k)
    (hlt : h.nOccupied < h.upperBound) (hx : x.toNat < 2 ^ k)
    (hcase : (∃ v, h.entryAt x.toNat = some ⟨key, v⟩) ∨
      (h.Lacks k key ∧ (emptyAt h.flags x.toNat = true ∨ delAt h.flags x.toNat = true) ∧
        Reached (fun key => (hash key).toNat) k (fun i => emptyAt h.flags i = true) key x.toNat)) :
    ∃ h' ret w, khWriteKey h key x = .ok (h', x, ret) ∧ h'.Table hash k ∧
      h'.entryAt x.toNat = some ⟨key, w⟩ ∧
      ((ret = 0 ∧ h' = h) ∨
        ((ret = 1 ∨ ret = 2) ∧ h.Lacks k key ∧ h'.entries.Perm (⟨key, w⟩ :: h.entries))) := by
  have hword := hT.word_lt hx
  have hkeys := Nat.lt_of_lt_of_le hx hT.keys
  rw [khWriteKey, acIsempty_eq hword, acIsdel_eq hword]
  obtain ⟨w, hw⟩ | ⟨hlacks, hfree, hreached⟩ := hcase
  · obtain ⟨hempty, hdel, -⟩ := entryAt_eq_some hw
    rw [hempty, hdel]
    exact ⟨h, 0, w, rfl, hT, hw, .inl ⟨rfl, rfl⟩⟩
  · obtain ⟨flags', hflags, hwritten⟩ := acSetIsbothFalse_eq hword
    have hltnat := UInt32.lt_iff_toNat_lt.mp hlt
    have hupper := h.upperBound.toNat_lt
    cases hempty : emptyAt h.flags x.toNat with
    | true =>
      have hsucc : (h.nOccupied + 1).toNat = h.nOccupied.toNat + 1 := by
        rw [UInt32.toNat_add, UInt32.toNat_one, Nat.mod_eq_of_lt (by omega)]
      obtain ⟨w, hT', hat, hins⟩ := hT.insert hx hlacks hfree hreached hwritten
        (by rw [hempty, hsucc]; rfl) (UInt32.le_iff_toNat_le.mpr (by omega))
      refine ⟨h.withKey x.toNat key flags' (h.nOccupied + 1), 1, w, ?_, hT', hat,
        .inr ⟨.inl rfl, hlacks, hins⟩⟩
      rw [writeCell_eq hkeys, hflags]
      rfl
    | false =>
      -- a deleted bucket is occupied already
      have hdel : delAt h.flags x.toNat = true := hfree.resolve_left (by simp [hempty])
      obtain ⟨w, hT', hat, hins⟩ := hT.insert hx hlacks hfree hreached hwritten
        (by rw [hempty]; rfl) (UInt32.le_of_lt hlt)
      refine ⟨h.withKey x.toNat key flags' h.nOccupied, 2, w, ?_, hT', hat,
        .inr ⟨.inr rfl, hlacks, hins⟩⟩
      rw [hdel, writeCell_eq hkeys, hflags]
      rfl

variable [DecidableEq κ]

/-- A bucket with an entry has one of the map. -/
theorem Khash.Table.lookup_eq_some (hT : h.Table hash k) (hp : h.entries.Perm m.entries) {i : Nat}
    {key : κ} {v : α} (hi : i < 2 ^ k) (he : h.entryAt i = some ⟨key, v⟩) :
    m.lookup key = some v := by
  refine AList.mem_lookup_iff.mpr (hp.mem_iff.mp ?_)
  rw [hT.entries_eq]
  exact mem_contents.mpr ⟨i, hi, he⟩

theorem Khash.Table.lacks_iff (hT : h.Table hash k) (hp : h.entries.Perm m.entries) (key : κ) :
    h.Lacks k key ↔ key ∉ m := by
  constructor
  · intro hlacks hmem
    obtain ⟨v, hv⟩ := AList.lookup_eq_some_of_mem hmem
    have hin := hp.mem_iff.mpr (AList.mem_lookup_iff.mp hv)
    rw [hT.entries_eq] at hin
    obtain ⟨i, hi, he⟩ := mem_contents.mp hin
    exact hlacks i hi v he
  · intro hno i hi v he
    exact hno (AList.mem_of_lookup (hT.lookup_eq_some hp hi he))

/-! ## Looking up and deleting -/

/-- **A look-up** finds what the map has. -/
theorem khLookup_spec (hh : h.Holds hash m) (hfuel : 2 ^ 32 ≤ fuel) (key : κ) :
    khLookup hash fuel h key = pure (m.lookup key) := by
  obtain hu | ⟨k, hT⟩ := hh.wf
  · -- a table that is not allocated has no entries
    have hnone : m.lookup key = none := by
      rw [AList.lookup_eq_none, AList.mem_keys, AList.keys,
        show m.entries = [] from List.perm_nil.mp (hu.entries ▸ hh.perm.symm)]
      exact List.not_mem_nil
    have hget : khGet hash fuel h key = pure 0 := by simp [khGet, hu.nBuckets]
    rw [khLookup, hget, pure_bind, if_pos hu.nBuckets.symm, hnone]
  · obtain ⟨x, hx, ⟨rfl, hlacks⟩ | ⟨hlt, v, hv⟩⟩ := khGet_spec hT key hfuel
    · rw [khLookup, hx, pure_bind, if_pos rfl,
        AList.lookup_eq_none.mpr ((hT.lacks_iff hh.perm key).mp hlacks)]
    · have hne : x ≠ h.nBuckets := by
        rintro rfl
        exact Nat.lt_irrefl _ (hT.buckets ▸ hlt)
      have hvals := Nat.lt_of_lt_of_le hlt hT.vals
      have hcell := (entryAt_eq_some hv).2.2
      rw [cellAt_isSome (Nat.lt_of_lt_of_le hlt hT.keys) hvals] at hcell
      cases hcell
      rw [khLookup, hx, pure_bind, if_neg hne, readCell_eq hvals, lift_ok_bind,
        hT.lookup_eq_some hh.perm hlt hv]

/-- **A deletion** drops the entry of the key, if there is one. -/
theorem khErase_spec (hh : h.Holds hash m) (hfuel : 2 ^ 32 ≤ fuel) (key : κ) :
    ∃ h', khErase hash fuel h key = pure h' ∧ h'.Holds hash (m.erase key) := by
  obtain hu | ⟨k, hT⟩ := hh.wf
  · have hget : khGet hash fuel h key = pure 0 := by simp [khGet, hu.nBuckets]
    have hnil : m.entries = [] := List.perm_nil.mp (hu.entries ▸ hh.perm.symm)
    refine ⟨h, ?_, hh.wf, ?_⟩
    · rw [khErase, hget, pure_bind, khDel, if_neg (not_not.mpr hu.nBuckets.symm)]
      rfl
    · rw [hu.entries]
      show List.Perm [] (List.kerase key m.entries)
      rw [hnil]
      exact .refl _
  · obtain ⟨x, hx, ⟨rfl, hlacks⟩ | ⟨hlt, v, hv⟩⟩ := khGet_spec hT key hfuel
    · refine ⟨h, ?_, hh.wf, ?_⟩
      · rw [khErase, hx, pure_bind, khDel, if_neg (not_not.mpr rfl)]
        rfl
      · have hno := (hT.lacks_iff hh.perm key).mp hlacks
        show h.entries.Perm (List.kerase key m.entries)
        rw [List.kerase_of_notMem_keys hno]
        exact hh.perm
    · obtain ⟨h', hdel, hT', hat⟩ := khDel_spec hT hlt hv
      refine ⟨h', ?_, .inr ⟨k, hT'⟩, ?_⟩
      · rw [khErase, hx, pure_bind, hdel]
        rfl
      · rw [hT'.entries_eq, hat]
        -- the entry of the bucket is the one of the key
        have hperm := contents_update_perm h.entryAt hlt none
        rw [hv, ← hT.entries_eq, Option.toList_none, List.append_nil] at hperm
        have hcons := AList.entries_perm_cons_erase (hT.lookup_eq_some hh.perm hlt hv)
        exact (List.perm_cons _).mp
          ((List.perm_append_singleton _ _).symm.trans (hperm.trans (hh.perm.trans hcons)))

/-! ## Inserting

`kh_put` makes room first, which may rehash the table or fail, then looks for a bucket and writes
the key to it. The specification goes by these blocks: `khMakeRoom_spec`, `khPutSite_spec` and
`khWriteKey_spec`. -/

variable (alloc : KhAllocs κ α)

/-- **A bucket of the table is given the key.** What is in it is the value that was there before. -/
theorem khPut_spec (hw : h.Wf hash) (hfuel : 2 ^ 32 ≤ fuel) (hsize : h.size.toNat < 2 ^ 30)
    (key : κ) :
    ∃ h' x ret, khPut hash fuel alloc h key = pure (h', x, ret) ∧
      ((ret = -1 ∧ h.Starved alloc ∧ h'.Wf hash ∧ h'.entries = h.entries) ∨
        ¬ h.Starved alloc ∧ ∃ k w, h'.Table hash k ∧ x.toNat < 2 ^ k ∧
          h'.entryAt x.toNat = some ⟨key, w⟩ ∧
          ((ret = 0 ∧ h'.entries.Perm h.entries) ∨
            ((ret = 1 ∨ ret = 2) ∧ (∀ e ∈ h.entries, e.1 ≠ key) ∧
              h'.entries.Perm (⟨key, w⟩ :: h.entries)))) := by
  obtain ⟨h₁, rc, hroom, ⟨rfl, hno, hw₁, heq⟩ | ⟨rfl, hyes, ⟨k, hT, hlt⟩, hperm⟩⟩ :=
    khMakeRoom_spec alloc hw hfuel hsize
  · exact ⟨h₁, h₁.nBuckets, -1, by rw [khPut, hroom, pure_bind]; rfl, .inl ⟨rfl, hno, hw₁, heq⟩⟩
  · obtain ⟨x, hx, hxlt, hcase⟩ := khPutSite_spec hT key hfuel
    obtain ⟨h', ret, w, hwrite, hT', hat, hret⟩ := khWriteKey_spec hT hlt hxlt hcase
    have hput : khPut hash fuel alloc h key = pure (h', x, ret) := by
      rw [khPut, hroom, pure_bind]
      show (khPutSite hash fuel h₁ key >>= fun x => OptionT.lift (khWriteKey h₁ key x)) = _
      rw [hx, pure_bind, hwrite]
      rfl
    refine ⟨h', x, ret, hput, .inr ⟨hyes, k, w, hT', hxlt, hat, ?_⟩⟩
    obtain ⟨rfl, rfl⟩ | ⟨hret, hlacks, hins⟩ := hret
    · exact .inl ⟨rfl, hperm⟩
    · refine .inr ⟨hret, ?_, hins.trans (hperm.cons _)⟩
      rintro ⟨key', v⟩ hmem rfl
      have hmem := hperm.mem_iff.mpr hmem
      rw [hT.entries_eq] at hmem
      obtain ⟨i, hi, he⟩ := mem_contents.mp hmem
      exact hlacks i hi v he

/-- **An insertion** adds the entry or replaces the value of the key, or memory is refused. -/
theorem khPutValue_spec (hh : h.Holds hash m) (hfuel : 2 ^ 32 ≤ fuel)
    (hsize : m.entries.length < 2 ^ 30) (key : κ) (v : α) :
    ∃ h' ret, khPutValue hash fuel alloc h key v = pure (h', ret) ∧
      ((ret = -1 ∧ h.Starved alloc ∧ h'.Holds hash m) ∨
        ((if key ∈ m then ret = 0 else ret = 1 ∨ ret = 2) ∧ ¬ h.Starved alloc ∧
          h'.Holds hash (m.insert key v))) := by
  obtain ⟨h₁, x, ret, hput, ⟨rfl, hno, hw, heq⟩ | ⟨hyes, k, w, hT, hx, hat, hcase⟩⟩ :=
    khPut_spec alloc hh.wf hfuel (hh.size ▸ hsize) key
  · refine ⟨h₁, -1, ?_, .inl ⟨rfl, hno, hw, heq ▸ hh.perm⟩⟩
    rw [khPutValue, hput, pure_bind]
    rfl
  · have hret : ret ≠ -1 := by
      obtain ⟨rfl, -⟩ | ⟨rfl | rfl, -⟩ := hcase <;> decide
    obtain ⟨hT', hat'⟩ := hT.setValue hx hat v
    refine ⟨{ h₁ with vals := h₁.vals.set x.toNat v }, ret, ?_, .inr ⟨?_, hyes, .inr ⟨k, hT'⟩, ?_⟩⟩
    · rw [khPutValue, hput, pure_bind]
      show (if ret = -1 then _ else _) = _
      rw [if_neg hret, writeCell_eq (Nat.lt_of_lt_of_le hx hT.vals), lift_ok_bind]
    · obtain ⟨rfl, hperm⟩ | ⟨hret, hnew, -⟩ := hcase
      · rw [if_pos (AList.mem_of_lookup (hT.lookup_eq_some (hperm.trans hh.perm) hx hat))]
      · rw [if_neg]
        · exact hret
        · intro hmem
          obtain ⟨u, hu⟩ := AList.lookup_eq_some_of_mem hmem
          exact hnew _ (hh.perm.mem_iff.mpr (AList.mem_lookup_iff.mp hu)) rfl
    · -- the value of the bucket is exchanged
      have hupdate := contents_update_perm h₁.entryAt hx (some ⟨key, v⟩)
      rw [hat, ← hat', ← hT'.entries_eq, ← hT.entries_eq] at hupdate
      have hswap := (List.perm_append_singleton _ _).symm.trans
        (hupdate.trans (List.perm_append_singleton _ _))
      obtain ⟨rfl, hperm⟩ | ⟨-, hnew, hperm⟩ := hcase
      · have hcons := AList.entries_perm_cons_erase
          (hT.lookup_eq_some (hperm.trans hh.perm) hx hat)
        have hall := hswap.trans (((hperm.trans hh.perm).trans hcons).cons _)
        exact (List.perm_cons _).mp (hall.trans (.swap _ _ _))
      · have hno : key ∉ m := by
          intro hmem
          obtain ⟨u, hu⟩ := AList.lookup_eq_some_of_mem hmem
          exact hnew _ (hh.perm.mem_iff.mpr (AList.mem_lookup_iff.mp hu)) rfl
        rw [AList.entries_insert_of_notMem hno]
        have hall := hswap.trans ((hperm.trans (hh.perm.cons _)).cons _)
        exact (List.perm_cons _).mp (hall.trans (.swap _ _ _))

end Holds

/-! ## Runs

A map has no allocations, so what a use of the map returns is stated next to the table: whether a
`kh_put` is refused memory depends on the table, and on nothing else of it. -/

/-- A use of a table. A call of `kh_put` comes with what becomes of its allocations. -/
inductive KhOp (κ α : Type) where
  | lookup (key : κ)
  | put (alloc : KhAllocs κ α) (key : κ) (val : α)
  | erase (key : κ)
  | sweep (drop : α → Bool)
  | foreach

/-- What is returned. -/
inductive KhResult (κ α : Type) where
  | found (val : Option α)
  | ret (ret : Int)
  | erased
  | swept
  | visited (entries : List (Sigma fun _ : κ => α))

section Runs

variable {κ α : Type} [DecidableEq κ] (hash : κ → UInt32) (fuel : Nat)

/-- One use of the table. -/
def khStep (h : Khash κ α) : KhOp κ α → OptionT (Except Fault) (Khash κ α × KhResult κ α)
  | .lookup key => do
    let val ← khLookup hash fuel h key
    pure (h, .found val)
  | .put alloc key val => do
    let (h, ret) ← khPutValue hash fuel alloc h key val
    pure (h, .ret ret)
  | .erase key => do
    let h ← khErase hash fuel h key
    pure (h, .erased)
  | .sweep drop => do
    let h ← OptionT.lift (khSweep drop h)
    pure (h, .swept)
  | .foreach => do
    let entries ← OptionT.lift (khForeach h)
    pure (h, .visited entries)

/-- A sequence of uses, with everything that is returned. -/
def khRun (h : Khash κ α) :
    List (KhOp κ α) → OptionT (Except Fault) (Khash κ α × List (KhResult κ α))
  | [] => pure (h, [])
  | op :: ops => do
    let (h, r) ← khStep hash fuel h op
    let (h, rs) ← khRun h ops
    pure (h, r :: rs)

/-- What a use of a map returns and leaves. A `kh_put` fails if its table is starved, and a visit
may come to the entries in any order. -/
inductive MapStep (starved : KhAllocs κ α → Prop) :
    (AList fun _ : κ => α) → KhOp κ α → KhResult κ α → (AList fun _ : κ => α) → Prop
  | lookup (m : AList fun _ : κ => α) (key : κ) :
    MapStep starved m (.lookup key) (.found (m.lookup key)) m
  | put (m : AList fun _ : κ => α) (alloc : KhAllocs κ α) (key : κ) (val : α) (ret : Int)
    (hret : if key ∈ m then ret = 0 else ret = 1 ∨ ret = 2) (hyes : ¬ starved alloc) :
    MapStep starved m (.put alloc key val) (.ret ret) (m.insert key val)
  | refused (m : AList fun _ : κ => α) (alloc : KhAllocs κ α) (key : κ) (val : α)
    (hno : starved alloc) : MapStep starved m (.put alloc key val) (.ret (-1)) m
  | erase (m : AList fun _ : κ => α) (key : κ) :
    MapStep starved m (.erase key) .erased (m.erase key)
  | sweep (m : AList fun _ : κ => α) (drop : α → Bool) :
    MapStep starved m (.sweep drop) .swept (m.filter fun v => !drop v)
  | foreach (m : AList fun _ : κ => α) (entries : List (Sigma fun _ : κ => α))
    (hperm : entries.Perm m.entries) : MapStep starved m .foreach (.visited entries) m

/-- A sequence of uses of a map, next to a table. -/
inductive MapRun : Khash κ α → (AList fun _ : κ => α) → List (KhOp κ α) → List (KhResult κ α) →
    (AList fun _ : κ => α) → Prop
  | nil (h : Khash κ α) (m : AList fun _ : κ => α) : MapRun h m [] [] m
  | cons {h h₁ : Khash κ α} {m m₁ m₂ : AList fun _ : κ => α} {op : KhOp κ α} {r : KhResult κ α}
    {ops : List (KhOp κ α)} {rs : List (KhResult κ α)}
    (hnext : khStep hash fuel h op = pure (h₁, r)) (hstep : MapStep h.Starved m op r m₁)
    (hrun : MapRun h₁ m₁ ops rs m₂) : MapRun h m (op :: ops) (r :: rs) m₂

variable {hash fuel} {h : Khash κ α} {m : AList fun _ : κ => α}

/-- A use adds at most one entry. -/
theorem MapStep.length_le {starved : KhAllocs κ α → Prop} {m' : AList fun _ : κ => α}
    {op : KhOp κ α} {r : KhResult κ α} (hstep : MapStep starved m op r m') :
    m'.entries.length ≤ m.entries.length + 1 := by
  cases hstep with
  | lookup | refused | foreach => exact Nat.le_succ _
  | put alloc key val =>
    show (⟨key, val⟩ :: List.kerase key m.entries).length ≤ _
    exact Nat.succ_le_succ (List.kerase_sublist key m.entries).length_le
  | erase key =>
    exact Nat.le_succ_of_le (List.kerase_sublist key m.entries).length_le
  | sweep drop => exact Nat.le_succ_of_le (List.length_filter_le _ _)

/-- **One use of the table** is one of the map. -/
theorem khStep_spec (hh : h.Holds hash m) (hfuel : 2 ^ 32 ≤ fuel)
    (hsize : m.entries.length < 2 ^ 30) (op : KhOp κ α) :
    ∃ h' r m', khStep hash fuel h op = pure (h', r) ∧ MapStep h.Starved m op r m' ∧
      h'.Holds hash m' := by
  cases op with
  | lookup key =>
    exact ⟨h, _, m, by rw [khStep, khLookup_spec hh hfuel, pure_bind], .lookup m key, hh⟩
  | put alloc key val =>
    obtain ⟨h', ret, hput, ⟨rfl, hno, hh'⟩ | ⟨hret, hyes, hh'⟩⟩ :=
      khPutValue_spec alloc hh hfuel hsize key val
    · exact ⟨h', _, m, by rw [khStep, hput, pure_bind], .refused m alloc key val hno, hh'⟩
    · exact ⟨h', _, _, by rw [khStep, hput, pure_bind], .put m alloc key val ret hret hyes, hh'⟩
  | erase key =>
    obtain ⟨h', herase, hh'⟩ := khErase_spec hh hfuel key
    exact ⟨h', _, _, by rw [khStep, herase, pure_bind], .erase m key, hh'⟩
  | sweep drop =>
    obtain ⟨h', hsweep, hh'⟩ := khSweep_spec hh drop
    exact ⟨h', _, _, by rw [khStep, hsweep, lift_ok_bind], .sweep m drop, hh'⟩
  | foreach =>
    exact ⟨h, _, m, by rw [khStep, khForeach_spec hh.wf, lift_ok_bind], .foreach m _ hh.perm, hh⟩

theorem khRun_spec (hfuel : 2 ^ 32 ≤ fuel) (ops : List (KhOp κ α)) (hh : h.Holds hash m)
    (hsize : m.entries.length + ops.length ≤ 2 ^ 30) :
    ∃ h' rs m', khRun hash fuel h ops = pure (h', rs) ∧ MapRun hash fuel h m ops rs m' ∧
      h'.Holds hash m' := by
  induction ops generalizing h m with
  | nil => exact ⟨h, [], m, rfl, .nil h m, hh⟩
  | cons op ops ih =>
    rw [List.length_cons] at hsize
    obtain ⟨h₁, r, m₁, hop, hstep, hh₁⟩ := khStep_spec hh hfuel (by omega) op
    have hlen := hstep.length_le
    obtain ⟨h₂, rs, m₂, hops, hrun, hh₂⟩ := ih hh₁ (by omega)
    refine ⟨h₂, r :: rs, m₂, ?_, .cons hop hstep hrun, hh₂⟩
    rw [khRun, hop, pure_bind]
    show (khRun hash fuel h₁ ops >>= fun x => pure (x.1, r :: x.2)) = _
    rw [hops, pure_bind]

/-- **The hash table is a map.** Every sequence of at most `2 ^ 30` uses of a new table ends, within
`2 ^ 32` turns of each of its loops and without an access outside its arrays, and returns what a map
returns; the table has the entries of the map and its counter their number. -/
theorem khash_is_map (hfuel : 2 ^ 32 ≤ fuel) (ops : List (KhOp κ α)) (hlen : ops.length ≤ 2 ^ 30) :
    ∃ h rs m, khRun hash fuel khInit ops = pure (h, rs) ∧ MapRun hash fuel khInit ∅ ops rs m ∧
      h.entries.Perm m.entries ∧ h.size.toNat = m.entries.length := by
  obtain ⟨h, rs, m, hops, hrun, hh⟩ := khRun_spec hfuel ops (khInit_holds hash)
    (show ([] : List (Sigma fun _ : κ => α)).length + _ ≤ _ by simpa using hlen)
  exact ⟨h, rs, m, hops, hrun, hh.perm, hh.size⟩

end Runs

/-- Allocations that succeed, in memory full of a number. -/
def filledWith (n : Nat) : KhAllocs UInt32 Nat where
  junkKeys _ := .ofNat n
  junkVals _ := n

/-- Keys that collide: all of them are tried at bucket 0 first. The table grows, an entry is deleted
and its key comes back, small values are swept out, and an allocation fails. -/
def collidingKeys : List (KhOp UInt32 Nat) :=
  [.put (filledWith 1) 0 10, .put (filledWith 2) 8 11, .put (filledWith 3) 16 12,
    .put { filledWith 4 with vals := false } 24 13, .put (filledWith 5) 24 14,
    .erase 8, .lookup 8, .lookup 24, .put (filledWith 6) 8 15, .sweep (· < 12), .foreach]

theorem khash_is_map_colliding :
    ∃ h rs m, khRun id (2 ^ 32) khInit collidingKeys = pure (h, rs) ∧
      MapRun id (2 ^ 32) khInit ∅ collidingKeys rs m ∧ h.entries.Perm m.entries ∧
      h.size.toNat = m.entries.length :=
  khash_is_map (Nat.le_refl _) collidingKeys (by decide)

end LibPaxos
