import LibPaxos.KhashTable

/-!
# Rehashing the hash table

`kh_resize` moves the entries in place: the old and the new table lie in the same arrays, and only
their flags are apart. While it works, the old flags tell which buckets still have an entry of the
old table, and the new ones which have one of the new table (`KhRehash.Moving`). That is the
abstract state `Rehashing` of open addressing, read off the words and the two arrays; what remains
to be shown here is that the loops of the macro make its moves, and that they end.

* **`khKick_spec`** — the kick-out process ends, with all entries in place that it took out.
* **`khResize_spec`** — the table has the entries it had, also if memory is refused.
-/

namespace LibPaxos

open Probing OpenAddressing

/-- The bucket has an entry that was not moved yet. -/
def oldAt (n : Nat) (flag : List UInt32) (i : Nat) : Bool :=
  decide (i < n) && !(emptyAt flag i || delAt flag i)

/-- The bucket has an entry of the new table. -/
def newAt (m : Nat) (newFlag : List UInt32) (i : Nat) : Bool :=
  decide (i < m) && !emptyAt newFlag i

section Bits

variable {n i : Nat} {flag flag' : List UInt32}

theorem oldAt_written (hw : FlagsWritten flag flag' i (emptyAt flag i) true) :
    oldAt n flag' = Function.update (oldAt n flag) i false := by
  funext j
  unfold oldAt
  rw [hw.empty, hw.del]
  rcases eq_or_ne j i with rfl | hne
  · simp
  · simp [hne]

theorem newAt_written (hi : i < n) {del : Bool} (hw : FlagsWritten flag flag' i false del) :
    newAt n flag' = Function.update (newAt n flag) i true := by
  funext j
  unfold newAt
  rw [hw.empty]
  rcases eq_or_ne j i with rfl | hne
  · simp [hi]
  · simp [hne]

end Bits

section Moving

variable {κ α : Type}

/-- **The arrays while a table with `n` buckets is rehashed** into one with `2 ^ k`. -/
structure KhRehash.Moving (hash : κ → UInt32) (k n cap : Nat) (t : KhRehash κ α)
    (hand : Option (Sigma fun _ : κ => α)) (all : List (Sigma fun _ : κ => α)) : Prop where
  rehashing : Rehashing (fun key => (hash key).toNat) k cap (oldAt n t.flags)
    (newAt (2 ^ k) t.newFlags) (cellAt t.keys t.vals) hand all
  le_cap : n ≤ cap
  keys : cap ≤ t.keys.length
  vals : cap ≤ t.vals.length
  flags : ∀ i < n, i / 16 < t.flags.length
  newFlags : t.newFlags.length = (acFsize (.ofNat (2 ^ k))).toNat
  undeleted : ∀ i < 2 ^ k, delAt t.newFlags i = false

variable {hash : κ → UInt32} {k n cap : Nat} {t : KhRehash κ α}
  {all : List (Sigma fun _ : κ => α)}

theorem toNat_ofNat_two_pow (hk : k ≤ 31) : (UInt32.ofNat (2 ^ k)).toNat = 2 ^ k := by
  rw [UInt32.toNat_ofNat', Nat.mod_eq_of_lt (Nat.pow_lt_pow_right (by decide) (by omega))]

theorem KhRehash.Moving.newWord_lt {hand : Option (Sigma fun _ : κ => α)} (hk : k ≤ 31)
    (h : t.Moving hash k n cap hand all) {i : Nat} (hi : i < 2 ^ k) :
    i / 16 < t.newFlags.length := by
  rw [h.newFlags]
  exact lt_acFsize hk (toNat_ofNat_two_pow hk) hi

/-! ## One entry

The kick-out process places the entry in hand and goes on with the entry that it has thrown out,
until it has found an empty bucket. With every round the old table has one entry less, so `oldCount`
bounds the rounds; the inner loop runs along a path that has a free bucket by
`Rehashing.exists_free`. -/

/-- The inner loop runs along the path of the key. -/
theorem khFindEmpty_run {newFlags : List UInt32} {m : UInt32} (hk : k ≤ 31) (hm : m.toNat = 2 ^ k)
    (hword : ∀ i < 2 ^ k, i / 16 < newFlags.length) {start e : Nat} (he : e < 2 ^ k)
    (hempty : emptyAt newFlags (probe k start e) = true)
    (hfirst : ∀ r < e, emptyAt newFlags (probe k start r) = false) :
    ∀ (d r turns : Nat) (i step : UInt32), r + d = e → d < turns → i.toNat = probe k start r →
      step.toNat = r →
      ∃ x, khFindEmpty newFlags (m - 1) turns i step = pure x ∧ x.toNat = probe k start e := by
  intro d
  induction d with
  | zero =>
    rintro r (_ | turns) i step hr hturns hi hstep
    · cases hturns
    · obtain rfl : r = e := hr
      refine ⟨i, ?_, hi⟩
      rw [khFindEmpty, acIsempty_eq (hword _ (hi ▸ probe_lt ..)), lift_ok_bind, hi, hempty]
      rfl
  | succ d ih =>
    rintro r (_ | turns) i step hr hturns hi hstep
    · cases hturns
    · have hpow : 2 ^ k ≤ 2 ^ 31 := Nat.pow_le_pow_right (by decide) hk
      have hstep' : (step + 1).toNat = r + 1 := by
        rw [UInt32.toNat_add, hstep, UInt32.toNat_one, Nat.mod_eq_of_lt]
        omega
      rw [khFindEmpty, acIsempty_eq (hword _ (hi ▸ probe_lt ..)), lift_ok_bind, hi,
        hfirst r (by omega)]
      refine ih (r + 1) turns _ _ (by omega) (by omega) ?_ hstep'
      rw [toNat_move hk hm, hi, hstep', probe_succ]

/-- **There is a bucket for the entry in hand**, and the inner loop finds it. -/
theorem KhRehash.Moving.findEmpty {e : Sigma fun _ : κ => α} {m : UInt32} {fuel : Nat} (hk : k ≤ 31)
    (hm : m.toNat = 2 ^ k) (hfuel : 2 ^ 32 ≤ fuel) (hlen : all.length ≤ 2 ^ k)
    (h : t.Moving hash k n cap (some e) all) :
    ∃ s < 2 ^ k, ∃ x, khFindEmpty t.newFlags (m - 1) fuel (hash e.1 &&& (m - 1)) 0 = pure x ∧
      x.toNat = probe k (hash e.1).toNat s ∧
      newAt (2 ^ k) t.newFlags (probe k (hash e.1).toNat s) = false ∧
      ∀ r < s, ¬ newAt (2 ^ k) t.newFlags (probe k (hash e.1).toNat r) = false := by
  have hiff : ∀ i < 2 ^ k, newAt (2 ^ k) t.newFlags i = false ↔ emptyAt t.newFlags i = true := by
    intro i hi
    simp [newAt, hi]
  obtain ⟨i, hi, hfree⟩ := h.rehashing.exists_free hlen
  obtain ⟨s, hs, hstop, hfirst⟩ := exists_first_probe k (hash e.1).toNat
    (P := fun i => newAt (2 ^ k) t.newFlags i = false) hi hfree
  have hpow : 2 ^ k ≤ 2 ^ 31 := Nat.pow_le_pow_right (by decide) hk
  obtain ⟨x, hx, hxs⟩ := khFindEmpty_run hk hm (fun i hi => h.newWord_lt hk hi) hs
    ((hiff _ (probe_lt ..)).mp hstop)
    (fun r hr => by
      have hne := hfirst r hr
      rw [hiff _ (probe_lt ..)] at hne
      exact Bool.eq_false_iff.mpr hne)
    s 0 fuel (hash e.1 &&& (m - 1)) 0 (Nat.zero_add s) (by omega)
    (toNat_and_mask hk hm _) rfl
  exact ⟨s, hs, x, hx, hxs, hstop, hfirst⟩

/-- How many entries are left in the old table. -/
def oldCount (n : Nat) (flag : List UInt32) : Nat :=
  (contents (fun i => if oldAt n flag i then some () else none) n).length

theorem oldCount_written {i : Nat} {flag flag' : List UInt32} (hi : i < n)
    (hold : oldAt n flag i = true) (hw : FlagsWritten flag flag' i (emptyAt flag i) true) :
    oldCount n flag' < oldCount n flag := by
  have hupdate : (fun j => if oldAt n flag' j then some () else none)
      = Function.update (fun j => if oldAt n flag j then some () else none) i none := by
    funext j
    rw [oldAt_written hw]
    rcases eq_or_ne j i with rfl | hne
    · simp
    · simp [hne]
  have hperm := (contents_update_perm (fun j => if oldAt n flag j then some () else none) hi
    none).length_eq
  unfold oldCount
  rw [hupdate]
  simp only [hold, if_true, List.length_append, Option.toList_some, Option.toList_none,
    List.length_cons, List.length_nil] at hperm
  omega

theorem oldCount_le (n : Nat) (flag : List UInt32) : oldCount n flag ≤ n :=
  (List.length_filterMap_le _ _).trans (by simp)

/-- What the loop asks before it writes: whether the bucket has an entry of the old table. -/
theorem KhRehash.Moving.live_eq {hand : Option (Sigma fun _ : κ => α)} {nb x : UInt32}
    (h : t.Moving hash k n cap hand all) (hn : nb.toNat = n) :
    (if x < nb then do
        let either ← OptionT.lift (acIseither t.flags x)
        pure (!either)
      else pure false : OptionT (Except Fault) Bool) = pure (oldAt n t.flags x.toNat) := by
  unfold oldAt
  split
  · next hlt =>
    rw [UInt32.lt_iff_toNat_lt, hn] at hlt
    rw [acIseither_eq (h.flags _ hlt), lift_ok_bind, decide_eq_true hlt, Bool.true_and]
  · next hge =>
    rw [UInt32.lt_iff_toNat_lt, hn] at hge
    rw [decide_eq_false hge, Bool.false_and]

/-- **The entry in hand is written** to the bucket found for it. An entry of the old table that lies
there is the one in hand then. -/
theorem KhRehash.Moving.place {e : Sigma fun _ : κ => α} {s : Nat} {x : UInt32}
    {flags' newFlags' : List UInt32} (h : t.Moving hash k n cap (some e) all) (hs : s < 2 ^ k)
    (hxs : x.toNat = probe k (hash e.1).toNat s)
    (hfree : newAt (2 ^ k) t.newFlags (probe k (hash e.1).toNat s) = false)
    (hfirst : ∀ r < s, ¬ newAt (2 ^ k) t.newFlags (probe k (hash e.1).toNat r) = false)
    (hnew : FlagsWritten t.newFlags newFlags' x.toNat false (delAt t.newFlags x.toNat))
    (hlen : flags'.length = t.flags.length)
    (hold : oldAt n flags' = Function.update (oldAt n t.flags) x.toNat false) :
    ({ flags := flags', newFlags := newFlags', keys := t.keys.set x.toNat e.1,
       vals := t.vals.set x.toNat e.2 } : KhRehash κ α).Moving hash k n cap
      (if oldAt n t.flags x.toNat then cellAt t.keys t.vals x.toNat else none) all := by
  have hxlt : x.toNat < 2 ^ k := hxs ▸ probe_lt ..
  have hcap : x.toNat < cap := Nat.lt_of_lt_of_le hxlt h.rehashing.fits
  have hplace := h.rehashing.place hs hfree hfirst
  rw [← hxs, ← newAt_written hxlt hnew, ← hold,
    ← cellAt_set (Nat.lt_of_lt_of_le hcap h.keys) (Nat.lt_of_lt_of_le hcap h.vals)] at hplace
  refine { rehashing := hplace, le_cap := h.le_cap, keys := by simpa using h.keys,
           vals := by simpa using h.vals, flags := fun i hi => ?_,
           newFlags := hnew.length.trans h.newFlags, undeleted := fun i hi => ?_ }
  · show i / 16 < flags'.length
    rw [hlen]
    exact h.flags i hi
  · show delAt newFlags' i = false
    rw [hnew.del]
    split
    · exact h.undeleted _ hxlt
    · exact h.undeleted i hi

/-- **The kick-out process ends**: the entry in hand and all entries that were in the way are in
their new buckets. -/
theorem khKick_spec {m nb : UInt32} {fuel : Nat} (hk : k ≤ 31) (hm : m.toNat = 2 ^ k)
    (hn : nb.toNat = n) (hfuel : 2 ^ 32 ≤ fuel) (hlen : all.length ≤ 2 ^ k) :
    ∀ (turns : Nat) (t : KhRehash κ α) (key : κ) (val : α), oldCount n t.flags < turns →
      t.Moving hash k n cap (some ⟨key, val⟩) all →
      ∃ t', khKick hash fuel nb (m - 1) turns t key val = pure t' ∧
        t'.Moving hash k n cap none all ∧
        ∀ i, oldAt n t'.flags i = true → oldAt n t.flags i = true := by
  -- every turn but the last takes an entry out of the old table
  intro turns
  induction turns with
  | zero =>
    intro t key val hcount _
    cases hcount
  | succ turns ih =>
    intro t key val hcount h
    obtain ⟨s, hs, x, hx, hxs, hfree, hfirst⟩ := h.findEmpty hk hm hfuel hlen
    have hxlt : x.toNat < 2 ^ k := hxs ▸ probe_lt ..
    have hcap : x.toNat < cap := Nat.lt_of_lt_of_le hxlt h.rehashing.fits
    have hkeys : x.toNat < t.keys.length := Nat.lt_of_lt_of_le hcap h.keys
    have hvals : x.toNat < t.vals.length := Nat.lt_of_lt_of_le hcap h.vals
    obtain ⟨newFlags', hnew, hwnew⟩ := acSetIsemptyFalse_eq (h.newWord_lt hk hxlt)
    rw [khKick, hx, pure_bind, hnew, lift_ok_bind, h.live_eq hn, pure_bind]
    cases hold : oldAt n t.flags x.toNat with
    | true =>
      -- the entry that lies there is the next one in hand
      have hlt : x.toNat < n := by
        unfold oldAt at hold
        simp only [Bool.and_eq_true, decide_eq_true_eq] at hold
        exact hold.1
      obtain ⟨flags', hflags, hw⟩ := acSetIsdelTrue_eq (h.flags _ hlt)
      have hplace := h.place hs hxs hfree hfirst hwnew hw.length (oldAt_written hw)
      rw [hold, if_pos rfl, cellAt_isSome hkeys hvals] at hplace
      have hless := oldCount_written hlt hold hw
      obtain ⟨t', ht', hmoving, hsub⟩ := ih
        { flags := flags', newFlags := newFlags', keys := t.keys.set x.toNat key,
          vals := t.vals.set x.toNat val }
        t.keys[x.toNat] t.vals[x.toNat]
        (Nat.lt_of_lt_of_le hless (Nat.lt_succ_iff.mp hcount)) hplace
      rw [if_pos rfl, readCell_eq hkeys, lift_ok_bind, writeCell_eq hkeys, lift_ok_bind,
        readCell_eq hvals, lift_ok_bind, writeCell_eq hvals, lift_ok_bind, hflags, lift_ok_bind]
      refine ⟨t', ht', hmoving, fun i hi => ?_⟩
      have hi := hsub i hi
      rw [oldAt_written hw] at hi
      rcases eq_or_ne i x.toNat with rfl | hne
      · exact hold
      · rwa [Function.update_of_ne hne] at hi
    | false =>
      have hsame : oldAt n t.flags = Function.update (oldAt n t.flags) x.toNat false := by
        rw [← hold]
        exact (Function.update_eq_self _ _).symm
      have hplace := h.place hs hxs hfree hfirst hwnew rfl hsame
      rw [hold, if_neg Bool.false_ne_true] at hplace
      rw [if_neg Bool.false_ne_true, writeCell_eq hkeys, lift_ok_bind, writeCell_eq hvals,
        lift_ok_bind]
      exact ⟨_, rfl, hplace, fun i hi => hi⟩

/-! ## All buckets

The loop visits the old buckets from the first to the last. A bucket that still has an entry of the
old table starts a kick-out process, which leaves no entry in hand and none in that bucket; buckets
that were left do not get an old entry again. So no entry of the old table is left in the end. -/

/-- One turn of the loop over the old buckets. -/
theorem khRehashBucket_spec {m nb : UInt32} {fuel j : Nat} (hk : k ≤ 31) (hm : m.toNat = 2 ^ k)
    (hn : nb.toNat = n) (hfuel : 2 ^ 32 ≤ fuel) (hlen : all.length ≤ 2 ^ k) (hj : j < n)
    (h : t.Moving hash k n cap none all) :
    ∃ t', khRehashBucket hash fuel nb (m - 1) t j = pure t' ∧ t'.Moving hash k n cap none all ∧
      oldAt n t'.flags j = false ∧ ∀ i, oldAt n t'.flags i = true → oldAt n t.flags i = true := by
  have hnlt : n < 2 ^ 32 := hn ▸ nb.toNat_lt
  have hjn : (UInt32.ofNat j).toNat = j := by
    rw [UInt32.toNat_ofNat', Nat.mod_eq_of_lt (by omega)]
  have hword : (UInt32.ofNat j).toNat / 16 < t.flags.length := by
    rw [hjn]
    exact h.flags j hj
  have holdj : oldAt n t.flags j = !(emptyAt t.flags j || delAt t.flags j) := by
    simp [oldAt, hj]
  rw [khRehashBucket, acIseither_eq hword, lift_ok_bind, hjn]
  cases heither : emptyAt t.flags j || delAt t.flags j with
  | true =>
    rw [heither] at holdj
    exact ⟨t, rfl, h, holdj, fun i hi => hi⟩
  | false =>
    rw [heither] at holdj
    have hcap : j < cap := Nat.lt_of_lt_of_le hj h.le_cap
    have hkeys : (UInt32.ofNat j).toNat < t.keys.length := by
      rw [hjn]
      exact Nat.lt_of_lt_of_le hcap h.keys
    have hvals : (UInt32.ofNat j).toNat < t.vals.length := by
      rw [hjn]
      exact Nat.lt_of_lt_of_le hcap h.vals
    obtain ⟨flags', hflags, hw⟩ := acSetIsdelTrue_eq hword
    rw [if_neg Bool.false_ne_true, readCell_eq hkeys, lift_ok_bind, readCell_eq hvals, lift_ok_bind,
      hflags, lift_ok_bind]
    simp only [hjn] at hw hkeys hvals ⊢
    -- the entry is in hand, its bucket no longer has one of the old table
    have htake := h.rehashing.take (j := j) holdj
    rw [← oldAt_written hw, cellAt_isSome hkeys hvals] at htake
    have hcount : oldCount n flags' < fuel := by
      have := oldCount_le n flags'
      omega
    obtain ⟨t', ht', hmoving, hsub⟩ := khKick_spec hk hm hn hfuel hlen fuel
      { t with flags := flags' } t.keys[j] t.vals[j] hcount
      { rehashing := htake
        le_cap := h.le_cap
        keys := h.keys
        vals := h.vals
        flags := fun i hi => by rw [hw.length]; exact h.flags i hi
        newFlags := h.newFlags
        undeleted := h.undeleted }
    have hsub' : ∀ i, oldAt n t'.flags i = true → i ≠ j ∧ oldAt n t.flags i = true := by
      intro i hi
      have hi := hsub i hi
      simp only [oldAt_written hw] at hi
      rcases eq_or_ne i j with rfl | hne
      · simp at hi
      · exact ⟨hne, by rwa [Function.update_of_ne hne] at hi⟩
    refine ⟨t', ht', hmoving, ?_, fun i hi => (hsub' i hi).2⟩
    exact Bool.eq_false_iff.mpr fun hi => (hsub' j hi).1 rfl

/-- **The loop over the old buckets** leaves nothing in the old table. -/
theorem khRehash_spec {m nb : UInt32} {fuel : Nat} (hk : k ≤ 31) (hm : m.toNat = 2 ^ k)
    (hn : nb.toNat = n) (hfuel : 2 ^ 32 ≤ fuel) (hlen : all.length ≤ 2 ^ k)
    (h : t.Moving hash k n cap none all) :
    ∃ t', (List.range n).foldlM (khRehashBucket hash fuel nb (m - 1)) t = pure t' ∧
      t'.Moving hash k n cap none all ∧ ∀ i, oldAt n t'.flags i = false := by
  -- after `j` turns the first `j` buckets have no entry of the old table
  have hloop : ∀ j ≤ n, ∃ t',
      (List.range j).foldlM (khRehashBucket hash fuel nb (m - 1)) t = pure t' ∧
      t'.Moving hash k n cap none all ∧ ∀ i < j, oldAt n t'.flags i = false := by
    intro j
    induction j with
    | zero => exact fun _ => ⟨t, rfl, h, fun i hi => absurd hi (Nat.not_lt_zero i)⟩
    | succ j ih =>
      intro hj
      obtain ⟨t₁, ht₁, hmoving₁, hdone₁⟩ := ih (by omega)
      obtain ⟨t₂, ht₂, hmoving₂, hj₂, hsub⟩ :=
        khRehashBucket_spec hk hm hn hfuel hlen (by omega : j < n) hmoving₁
      refine ⟨t₂, ?_, hmoving₂, fun i hi => ?_⟩
      · rw [List.range_succ, List.foldlM_append, ht₁, pure_bind]
        simp only [List.foldlM_cons, List.foldlM_nil, ht₂, pure_bind]
      · rcases Nat.lt_succ_iff_lt_or_eq.mp hi with hlt | rfl
        · refine Bool.eq_false_iff.mpr fun hold => ?_
          have hfalse := hdone₁ i hlt
          rw [hsub i hold] at hfalse
          cases hfalse
        · exact hj₂
  obtain ⟨t', ht', hmoving, hdone⟩ := hloop n (Nat.le_refl n)
  refine ⟨t', ht', hmoving, fun i => ?_⟩
  rcases Nat.lt_or_ge i n with hlt | hge
  · exact hdone i hlt
  · simp [oldAt, Nat.not_lt.mpr hge]

end Moving

/-! ## `kh_resize`

Arrays are made larger before the entries are moved and smaller afterwards, so all cells that matter
are there in between. If an allocation is refused, the entries have not been touched: only the array
of keys may have been made larger already. -/

section Resize

variable {κ α : Type} {hash : κ → UInt32} {h : Khash κ α}

/-- The allocations that are made succeed. Keys and values are allocated only if the table grows. -/
structure KhAllocs.Suffice (alloc : KhAllocs κ α) (grows : Prop) : Prop where
  flags : alloc.flags = true
  arrays : grows → alloc.keys = true ∧ alloc.vals = true

/-- Nothing was allocated yet, or only keys. -/
structure Khash.Unused (h : Khash κ α) : Prop where
  nBuckets : h.nBuckets = 0
  size : h.size = 0
  nOccupied : h.nOccupied = 0
  upperBound : h.upperBound = 0

/-- A table that is not in use yet or has been allocated. -/
def Khash.Wf (hash : κ → UInt32) (h : Khash κ α) : Prop :=
  h.Unused ∨ ∃ k, h.Table hash k

/-- What `kh_resize` needs of the arrays. -/
structure Khash.Ready (h : Khash κ α) : Prop where
  flags : ∀ i < h.nBuckets.toNat, i / 16 < h.flags.length
  keys : h.nBuckets.toNat ≤ h.keys.length
  vals : h.nBuckets.toNat ≤ h.vals.length
  size : h.size.toNat = h.entries.length
  distinct : h.entries.NodupKeys

theorem Khash.Unused.entries (hu : h.Unused) : h.entries = [] := by
  rw [Khash.entries, hu.nBuckets]
  rfl

theorem Khash.Wf.ready (hw : h.Wf hash) : h.Ready := by
  obtain hu | ⟨k, hT⟩ := hw
  · have hzero : h.nBuckets.toNat = 0 := by rw [hu.nBuckets]; rfl
    refine ⟨fun i hi => absurd hi (by omega), by omega, by omega, ?_, ?_⟩
    · rw [hu.entries, hu.size]
      rfl
    · rw [hu.entries]
      exact List.nodupKeys_nil
  · refine ⟨fun i hi => hT.word_lt (hT.buckets ▸ hi), hT.buckets ▸ hT.keys, hT.buckets ▸ hT.vals,
      hT.size, ?_⟩
    rw [hT.entries_eq]
    exact hT.sound.distinct

theorem getElem?_krealloc {β : Type} (junk : Nat → β) {array : List β} {n : UInt32} {i : Nat}
    (hi : i < n.toNat) (ha : i < array.length) : (krealloc junk array n)[i]? = array[i]? := by
  simp [krealloc, hi, ha]

theorem length_krealloc {β : Type} (junk : Nat → β) (array : List β) (n : UInt32) :
    (krealloc junk array n).length = n.toNat := by
  simp [krealloc]

section Krealloc

variable {p : Prop} [Decidable p] {n : UInt32} {m : Nat}

theorem le_length_ite_krealloc {β : Type} (junk : Nat → β) {array : List β} (hn : p → m ≤ n.toNat)
    (hlen : ¬ p → m ≤ array.length) :
    m ≤ (if p then krealloc junk array n else array).length := by
  split
  · next hp =>
    rw [length_krealloc]
    exact hn hp
  · next hp => exact hlen hp

/-- Arrays that are reallocated, or not, keep the cells that they have before and after. -/
theorem cellAt_ite_krealloc (alloc : KhAllocs κ α) {keys : List κ} {vals : List α}
    (hn : p → m ≤ n.toNat) (hkeys : m ≤ keys.length) (hvals : m ≤ vals.length) :
    ∀ i < m, cellAt (if p then krealloc alloc.junkKeys keys n else keys)
      (if p then krealloc alloc.junkVals vals n else vals) i = cellAt keys vals i := by
  intro i hi
  split
  · next hp =>
    have hin := Nat.lt_of_lt_of_le hi (hn hp)
    unfold cellAt
    rw [getElem?_krealloc _ hin (Nat.lt_of_lt_of_le hi hkeys),
      getElem?_krealloc _ hin (Nat.lt_of_lt_of_le hi hvals)]
  · rfl

end Krealloc

/-- **The start of the rehashing**, in arrays that hold the cells of the table. -/
theorem Khash.Ready.moving (hash : κ → UInt32) {k cap : Nat} {m : UInt32} {keys : List κ}
    {vals : List α} (hR : h.Ready) (hk : k ≤ 31) (hm : m.toNat = 2 ^ k) (hfit : 2 ^ k ≤ cap)
    (hcap : h.nBuckets.toNat ≤ cap) (hkeys : cap ≤ keys.length) (hvals : cap ≤ vals.length)
    (hcell : ∀ i < h.nBuckets.toNat, cellAt keys vals i = cellAt h.keys h.vals i) :
    ({ flags := h.flags, newFlags := .replicate (acFsize m).toNat 0xaaaaaaaa, keys := keys,
       vals := vals } : KhRehash κ α).Moving hash k h.nBuckets.toNat cap none h.entries := by
  have hnew : newAt (2 ^ k) (.replicate (acFsize m).toNat 0xaaaaaaaa) = fun _ => false := by
    funext i
    unfold newAt
    by_cases hi : i < 2 ^ k
    · simp only [hi, (flags_replicate (lt_acFsize hk hm hi)).1, decide_true, Bool.not_true,
        Bool.and_false]
    · simp [hi]
  have hm' : m = .ofNat (2 ^ k) := UInt32.toNat_inj.mp (hm.trans (toNat_ofNat_two_pow hk).symm)
  refine { rehashing := ?_, le_cap := hcap, keys := hkeys, vals := hvals, flags := hR.flags,
           newFlags := ?_, undeleted := ?_ }
  · show Rehashing _ k cap (oldAt _ h.flags) (newAt (2 ^ k) _) (cellAt keys vals) none h.entries
    rw [hnew]
    refine ⟨hfit, fun i hi => ?_, fun i hi => ?_, fun i hi => ?_, fun i hi => rfl, ?_,
      fun i e hi => ?_⟩
    · rw [cellAt_isSome (Nat.lt_of_lt_of_le hi hkeys) (Nat.lt_of_lt_of_le hi hvals)]
      rfl
    · simp only [oldAt, Bool.and_eq_true, decide_eq_true_eq] at hi
      exact Nat.lt_of_lt_of_le hi.1 hcap
    · cases hi
    · -- the buckets of the old table have its entries, the others none
      rw [contents_of_le hcap fun i hle _ => by simp [either, oldAt, Nat.not_lt.mpr hle]]
      refine List.Perm.of_eq (contents_congr fun i hi => ?_)
      unfold either oldAt Khash.entryAt
      rw [hcell i hi]
      cases emptyAt h.flags i || delAt h.flags i <;> simp [hi]
    · cases hi
  · rw [List.length_replicate, ← hm']
  · exact fun i hi => (flags_replicate (lt_acFsize hk hm hi)).2

/-- **The end of the rehashing**: the new table. -/
theorem KhRehash.Moving.table {k n cap : Nat} {m size : UInt32} {t : KhRehash κ α} {keys : List κ}
    {vals : List α} {all : List (Sigma fun _ : κ => α)} (h : t.Moving hash k n cap none all)
    (hold : ∀ i, oldAt n t.flags i = false) (hk : 2 ≤ k) (hle : k ≤ 31) (hm : m.toNat = 2 ^ k)
    (hd : all.NodupKeys) (hsize : size.toNat = all.length) (hload : size ≤ hashUpper m)
    (hkeys : 2 ^ k ≤ keys.length) (hvals : 2 ^ k ≤ vals.length)
    (hcell : ∀ i < 2 ^ k, cellAt keys vals i = cellAt t.keys t.vals i) :
    (khRebuilt m size t.newFlags keys vals).Table hash k ∧
      (khRebuilt m size t.newFlags keys vals).entries.Perm all := by
  have hm' : m = .ofNat (2 ^ k) := UInt32.toNat_inj.mp (hm.trans (toNat_ofNat_two_pow hle).symm)
  obtain ⟨hsound, hperm⟩ := h.rehashing.sound hold hd
  -- a bucket of the new table is in use exactly if something was moved there
  have hat : ∀ i < 2 ^ k, (khRebuilt m size t.newFlags keys vals).entryAt i
      = if newAt (2 ^ k) t.newFlags i then cellAt t.keys t.vals i else none := by
    intro i hi
    show (if emptyAt t.newFlags i || delAt t.newFlags i then none else cellAt keys vals i) = _
    rw [h.undeleted i hi, hcell i hi]
    unfold newAt
    cases emptyAt t.newFlags i <;> simp [hi]
  have hentries : (khRebuilt m size t.newFlags keys vals).entries
      = contents (fun i => if newAt (2 ^ k) t.newFlags i then cellAt t.keys t.vals i else none)
          (2 ^ k) := by
    show contents _ m.toNat = _
    rw [hm]
    exact contents_congr hat
  refine ⟨{ two_le := hk, le := hle, buckets := hm, upper := rfl, flags := ?_, keys := hkeys,
            vals := hvals, sound := ?_, size := ?_, occupied := ?_, load := hload },
    hentries ▸ hperm⟩
  · show t.newFlags.length = (acFsize m).toNat
    rw [hm']
    exact h.newFlags
  · refine hsound.congr (fun i hi hempty => ?_) hat
    have hempty : emptyAt t.newFlags i = true := hempty
    simp [newAt, hempty]
  · rw [hentries, hperm.length_eq]
    exact hsize
  -- without deleted entries as many buckets are occupied as there are entries
  · show size.toNat = _
    rw [hsize, ← hperm.length_eq]
    refine length_contents_congr fun i hi => ?_
    have hcell' := cellAt_isSome (Nat.lt_of_lt_of_le hi (Nat.le_trans h.rehashing.fits h.keys))
      (Nat.lt_of_lt_of_le hi (Nat.le_trans h.rehashing.fits h.vals))
    rw [hcell']
    show _ = (usedAt t.newFlags i).isSome
    unfold usedAt newAt
    cases emptyAt t.newFlags i <;> simp [hi]

variable {fuel : Nat} (alloc : KhAllocs κ α)

/-- **A `kh_resize` that gets its memory** keeps the entries. -/
theorem khResize_done (hash : κ → UInt32) (hR : h.Ready) (hfuel : 2 ^ 32 ≤ fuel) {req : UInt32}
    (hyes : alloc.Suffice (h.nBuckets < resizedTo req))
    (hsize : h.size < hashUpper (resizedTo req)) :
    ∃ k h', (resizedTo req).toNat = 2 ^ k ∧
      khResize hash fuel alloc h req = pure (h', 0) ∧ h'.Table hash k ∧
      h'.entries.Perm h.entries ∧ h'.size = h.size ∧ h'.nOccupied = h.size := by
  obtain ⟨k, htwo, hle, hm⟩ := exists_resized req
  have hlt := toNat_hashUpper_lt htwo hle hm
  have hlen : h.entries.length ≤ 2 ^ k := by
    rw [← hR.size]
    exact Nat.le_of_lt (Nat.lt_trans (UInt32.lt_iff_toNat_lt.mp hsize) hlt)
  -- the arrays are extended if the table grows
  have hgrow : h.nBuckets < resizedTo req →
      max h.nBuckets.toNat (2 ^ k) ≤ (resizedTo req).toNat := by
    intro hlt
    rw [UInt32.lt_iff_toNat_lt] at hlt
    omega
  have hstay : ¬ h.nBuckets < resizedTo req → max h.nBuckets.toNat (2 ^ k) = h.nBuckets.toNat := by
    intro hno
    rw [UInt32.lt_iff_toNat_lt] at hno
    omega
  obtain ⟨t, ht, hmoving, hold⟩ := khRehash_spec hle hm rfl hfuel hlen
    (hR.moving hash hle hm (Nat.le_max_right _ _) (Nat.le_max_left _ _)
      (le_length_ite_krealloc alloc.junkKeys hgrow fun hno => (hstay hno).trans_le hR.keys)
      (le_length_ite_krealloc alloc.junkVals hgrow fun hno => (hstay hno).trans_le hR.vals)
      (cellAt_ite_krealloc alloc (fun hlt => Nat.le_trans (Nat.le_max_left _ _) (hgrow hlt))
        hR.keys hR.vals))
  -- and cut off if it shrinks
  have hfits := hmoving.rehashing.fits
  have hkeys := Nat.le_trans hfits hmoving.keys
  have hvals := Nat.le_trans hfits hmoving.vals
  have hcut : h.nBuckets > resizedTo req → 2 ^ k ≤ (resizedTo req).toNat :=
    fun _ => Nat.le_of_eq hm.symm
  obtain ⟨htable, hperm⟩ := hmoving.table hold htwo hle hm hR.distinct hR.size
    (UInt32.le_of_lt hsize) (le_length_ite_krealloc alloc.junkKeys hcut fun _ => hkeys)
    (le_length_ite_krealloc alloc.junkVals hcut fun _ => hvals)
    (cellAt_ite_krealloc alloc hcut hkeys hvals)
  refine ⟨k, _, hm, ?_, htable, hperm, rfl, rfl⟩
  unfold khResize khResizeTo
  rw [if_neg (UInt32.not_le.mpr hsize), if_neg (by simp [hyes.flags]),
    if_neg fun hno => by simp [hyes.arrays hno.1] at hno,
    if_neg fun hno => by simp [hyes.arrays hno.1] at hno]
  dsimp only
  rw [ht, pure_bind]

/-- More keys than buckets make no difference. -/
theorem Khash.Wf.withKeys (hw : h.Wf hash) (keys : List κ) (hlen : h.nBuckets.toNat ≤ keys.length)
    (hkeys : ∀ i < h.nBuckets.toNat, keys[i]? = h.keys[i]?) :
    ({ h with keys := keys } : Khash κ α).Wf hash ∧
      ({ h with keys := keys } : Khash κ α).entries = h.entries := by
  have hat : ∀ i < h.nBuckets.toNat,
      ({ h with keys := keys } : Khash κ α).entryAt i = h.entryAt i := by
    intro i hi
    simp only [Khash.entryAt, cellAt, hkeys i hi]
  have hentries : ({ h with keys := keys } : Khash κ α).entries = h.entries := contents_congr hat
  refine ⟨?_, hentries⟩
  obtain hu | ⟨k, hT⟩ := hw
  · exact .inl ⟨hu.nBuckets, hu.size, hu.nOccupied, hu.upperBound⟩
  · rw [hT.buckets] at hlen hat
    exact .inr ⟨k, { hT with keys := hlen, sound := hT.sound.congr (fun i _ hf => hf) hat,
                             size := hT.size.trans (congrArg List.length hentries).symm }⟩

/-- **`kh_resize`** keeps the entries, or it is refused memory and returns -1. Then the entries are
as they were, in as many buckets. -/
theorem khResize_spec (hw : h.Wf hash) (hfuel : 2 ^ 32 ≤ fuel) {req : UInt32}
    (hsize : h.size < hashUpper (resizedTo req)) :
    ∃ h' rc, khResize hash fuel alloc h req = pure (h', rc) ∧
      ((rc = -1 ∧ ¬ alloc.Suffice (h.nBuckets < resizedTo req) ∧ h'.Wf hash ∧
          h'.entries = h.entries) ∨
        (rc = 0 ∧ alloc.Suffice (h.nBuckets < resizedTo req) ∧
          ∃ k, (resizedTo req).toNat = 2 ^ k ∧ h'.Table hash k ∧
            h'.entries.Perm h.entries ∧ h'.size = h.size ∧ h'.nOccupied = h.size)) := by
  by_cases hyes : alloc.Suffice (h.nBuckets < resizedTo req)
  · obtain ⟨k, h', hk, heq, hrest⟩ := khResize_done alloc hash hw.ready hfuel hyes hsize
    exact ⟨h', 0, heq, .inr ⟨rfl, hyes, k, hk, hrest⟩⟩
  · unfold khResize khResizeTo
    rw [if_neg (UInt32.not_le.mpr hsize)]
    by_cases hflags : alloc.flags = false
    · exact ⟨h, -1, by rw [if_pos hflags], .inl ⟨rfl, hyes, hw, rfl⟩⟩
    · rw [if_neg hflags]
      by_cases hkeys : h.nBuckets < resizedTo req ∧ alloc.keys = false
      · exact ⟨h, -1, by rw [if_pos hkeys], .inl ⟨rfl, hyes, hw, rfl⟩⟩
      · -- the keys are extended already when the values are refused
        have hgrow : h.nBuckets < resizedTo req ∧ alloc.vals = false := by
          by_contra hvals
          refine hyes ⟨by simpa using hflags, fun hlt => ?_⟩
          simp only [hlt, true_and, Bool.not_eq_false] at hkeys hvals
          exact ⟨hkeys, hvals⟩
        have hlt := UInt32.lt_iff_toNat_lt.mp hgrow.1
        obtain ⟨hw', hentries⟩ := hw.withKeys (krealloc alloc.junkKeys h.keys (resizedTo req))
          (by rw [length_krealloc]; omega) fun i hi =>
            getElem?_krealloc _ (by omega) (Nat.lt_of_lt_of_le hi hw.ready.keys)
        rw [if_neg hkeys, if_pos hgrow, if_pos hgrow.1]
        exact ⟨_, -1, rfl, .inl ⟨rfl, hyes, hw', hentries⟩⟩

end Resize

end LibPaxos
