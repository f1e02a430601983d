import LibPaxos.Khash
import Mathlib.Data.Nat.Bitwise

/-!
# Flags and sizes of the hash table

Two bits a bucket, sixteen buckets a word. What the flag macros of `khash.h` read and write is said
in terms of the two bits of one bucket, `emptyAt` and `delAt`. A size that `kh_resize` is asked for
is rounded up to a power of two.

* **`FlagsWritten`** — what a macro that writes does to the bits, and that it does nothing else.
* **`exists_resized`** — the number of buckets after `kh_resize` is a power of two.
-/

namespace LibPaxos

/-! ## Memory -/

theorem readCell_eq {β : Type} {array : List β} {i : UInt32} (h : i.toNat < array.length) :
    readCell array i = .ok array[i.toNat] := by
  unfold readCell
  rw [List.getElem?_eq_getElem h]

theorem writeCell_eq {β : Type} {array : List β} {i : UInt32} (h : i.toNat < array.length) (x : β) :
    writeCell array i x = .ok (array.set i.toNat x) :=
  if_pos h

/-! ## Bits of a word -/

section Words

variable {x m s : UInt32} {j : Nat}

theorem and_bne_zero : (x &&& m != 0) = true ↔ ∃ j, x.toNat.testBit j ∧ m.toNat.testBit j := by
  rw [bne_iff_ne, ne_eq, ← UInt32.toNat_inj, UInt32.toNat_and]
  constructor
  · intro hne
    obtain ⟨j, hj⟩ := Nat.exists_testBit_of_ne_zero hne
    exact ⟨j, by simpa using hj⟩
  · rintro ⟨j, hx, hm⟩ hzero
    have hbit := congrArg (fun n => Nat.testBit n j) hzero
    simp [hx, hm] at hbit

theorem shiftRight_and_bne_zero (hs : s.toNat < 32) :
    (x >>> s &&& m != 0) = true ↔ ∃ j, x.toNat.testBit (s.toNat + j) ∧ m.toNat.testBit j := by
  rw [and_bne_zero, UInt32.toNat_shiftRight, Nat.mod_eq_of_lt hs]
  simp only [Nat.testBit_shiftRight]

theorem testBit_one (j : Nat) : (1 : UInt32).toNat.testBit j = decide (j = 0) := by
  rw [Bool.eq_iff_iff, decide_eq_true_iff]
  exact Nat.testBit_one_eq_true_iff_self_eq_zero

theorem testBit_two (j : Nat) : (2 : UInt32).toNat.testBit j = decide (j = 1) := by
  show (2 ^ 1).testBit j = _
  rw [Nat.testBit_two_pow, decide_eq_decide]
  exact eq_comm

theorem testBit_three (j : Nat) : (3 : UInt32).toNat.testBit j = decide (j < 2) :=
  Nat.testBit_two_pow_sub_one 2 j

/-- The word with the bits of `m` cleared. -/
theorem testBit_clear (hs : s.toNat < 32) (hj : j < 32) :
    (x &&& ~~~ (m <<< s)).toNat.testBit j
      = (x.toNat.testBit j && !(decide (s.toNat ≤ j) && m.toNat.testBit (j - s.toNat))) := by
  have hnot : (~~~ (m <<< s)).toNat.testBit j = !(m <<< s).toNat.testBit j := by
    show (~~~ (m <<< s)).toBitVec.getLsbD j = !(m <<< s).toBitVec.getLsbD j
    rw [UInt32.toBitVec_not, BitVec.getLsbD_not, decide_eq_true hj, Bool.true_and]
  rw [UInt32.toNat_and, Nat.testBit_and, hnot, UInt32.toNat_shiftLeft, Nat.mod_eq_of_lt hs,
    Nat.testBit_mod_two_pow, Nat.testBit_shiftLeft, decide_eq_true hj, Bool.true_and]

/-- The word with the bits of `m` set. -/
theorem testBit_set (hs : s.toNat < 32) (hj : j < 32) :
    (x ||| (m <<< s)).toNat.testBit j
      = (x.toNat.testBit j || (decide (s.toNat ≤ j) && m.toNat.testBit (j - s.toNat))) := by
  rw [UInt32.toNat_or, Nat.testBit_or, UInt32.toNat_shiftLeft, Nat.mod_eq_of_lt hs,
    Nat.testBit_mod_two_pow, Nat.testBit_shiftLeft, decide_eq_true hj, Bool.true_and]

end Words

/-! ## The flags of a bucket

A macro shifts and masks one word. What matters of it is that the two bits of one bucket change and
those of all others do not, also of those in the same word. `FlagsWritten` says this once, and the
rest of the development does not look at words again. -/

/-- The bucket was never used. -/
def emptyAt (flag : List UInt32) (i : Nat) : Bool :=
  (flag.getD (i / 16) 0).toNat.testBit (2 * (i % 16) + 1)

/-- The entry of the bucket was deleted. -/
def delAt (flag : List UInt32) (i : Nat) : Bool :=
  (flag.getD (i / 16) 0).toNat.testBit (2 * (i % 16))

theorem toNat_flagShift (i : UInt32) : (flagShift i).toNat = 2 * (i.toNat % 16) := by
  have hand : i.toNat &&& (0xf : UInt32).toNat = i.toNat % 16 := Nat.and_two_pow_sub_one_eq_mod _ 4
  have hone : (1 : UInt32).toNat % 32 = 1 := rfl
  rw [flagShift, UInt32.toNat_shiftLeft, UInt32.toNat_and, hand, hone, Nat.shiftLeft_eq]
  omega

theorem toNat_shiftRight_four (i : UInt32) : (i >>> 4).toNat = i.toNat / 16 := by
  rw [UInt32.toNat_shiftRight]
  exact Nat.shiftRight_eq_div_pow _ 4

section Flags

variable {flag : List UInt32} {i : UInt32}

theorem readWord_eq (hi : i.toNat / 16 < flag.length) :
    readCell flag (i >>> 4) = .ok (flag.getD (i.toNat / 16) 0) := by
  rw [readCell_eq (by rwa [toNat_shiftRight_four])]
  simp only [toNat_shiftRight_four]
  simp [hi]

theorem flagShift_lt (i : UInt32) : (flagShift i).toNat < 32 := by
  rw [toNat_flagShift]
  omega

theorem acIsempty_eq (hi : i.toNat / 16 < flag.length) :
    acIsempty flag i = .ok (emptyAt flag i.toNat) := by
  unfold acIsempty
  rw [readWord_eq hi]
  refine congrArg Except.ok (Bool.eq_iff_iff.mpr ?_)
  refine (shiftRight_and_bne_zero (flagShift_lt i)).trans ?_
  simp only [testBit_two, toNat_flagShift, decide_eq_true_eq, exists_eq_right]
  rfl

theorem acIsdel_eq (hi : i.toNat / 16 < flag.length) :
    acIsdel flag i = .ok (delAt flag i.toNat) := by
  unfold acIsdel
  rw [readWord_eq hi]
  refine congrArg Except.ok (Bool.eq_iff_iff.mpr ?_)
  refine (shiftRight_and_bne_zero (flagShift_lt i)).trans ?_
  simp only [testBit_one, toNat_flagShift, decide_eq_true_eq, exists_eq_right]
  rfl

theorem acIseither_eq (hi : i.toNat / 16 < flag.length) :
    acIseither flag i = .ok (emptyAt flag i.toNat || delAt flag i.toNat) := by
  unfold acIseither
  rw [readWord_eq hi]
  refine congrArg Except.ok (Bool.eq_iff_iff.mpr ?_)
  refine (shiftRight_and_bne_zero (flagShift_lt i)).trans ?_
  rw [Bool.or_eq_true, toNat_flagShift]
  constructor
  · rintro ⟨j, hj, hm⟩
    rw [testBit_three, decide_eq_true_iff] at hm
    obtain rfl | rfl : j = 0 ∨ j = 1 := by omega
    · exact .inr hj
    · exact .inl hj
  · rintro (h | h)
    · exact ⟨1, h, rfl⟩
    · exact ⟨0, h, rfl⟩

/-- The flags after the two bits of one bucket were written. -/
structure FlagsWritten (flag flag' : List UInt32) (i : Nat) (empty del : Bool) : Prop where
  length : flag'.length = flag.length
  empty : ∀ j, emptyAt flag' j = if j = i then empty else emptyAt flag j
  del : ∀ j, delAt flag' j = if j = i then del else delAt flag j

/-- A word in which only the two bits of the bucket differ. -/
theorem flagsWritten_set {w : UInt32} {empty del : Bool} {i : Nat} (hi : i / 16 < flag.length)
    (hw : ∀ b < 32, w.toNat.testBit b = if b = 2 * (i % 16) + 1 then empty
      else if b = 2 * (i % 16) then del else (flag.getD (i / 16) 0).toNat.testBit b) :
    FlagsWritten flag (flag.set (i / 16) w) i empty del := by
  -- other words are as they were
  have hget : ∀ a, (flag.set (i / 16) w).getD a 0 = if a = i / 16 then w else flag.getD a 0 := by
    intro a
    rw [List.getD_eq_getElem?_getD, List.getD_eq_getElem?_getD, List.getElem?_set]
    split
    · next heq =>
      subst heq
      simp
    · next hne => rw [if_neg fun heq => hne heq.symm]
  refine ⟨List.length_set, fun j => ?_, fun j => ?_⟩
  -- in the word, a bucket is told by its two bits
  · unfold emptyAt
    rw [hget]
    split
    · next heq =>
      rw [hw _ (by omega), heq]
      split
      · rw [if_pos (by omega)]
      · rw [if_neg (by omega), if_neg (by omega)]
    · rw [if_neg (by rintro rfl; contradiction)]
  · unfold delAt
    rw [hget]
    split
    · next heq =>
      rw [hw _ (by omega), heq, if_neg (by omega)]
      split
      · rw [if_pos (by omega)]
      · rw [if_neg (by omega)]
    · rw [if_neg (by rintro rfl; contradiction)]

/-- The word of a bucket is read, changed and written back. -/
theorem modifyWord_eq (hi : i.toNat / 16 < flag.length) (f : UInt32 → UInt32) :
    (do let w ← readCell flag (i >>> 4); writeCell flag (i >>> 4) (f w))
      = .ok (flag.set (i.toNat / 16) (f (flag.getD (i.toNat / 16) 0))) := by
  rw [readWord_eq hi]
  show writeCell flag (i >>> 4) _ = _
  rw [writeCell_eq (by rwa [toNat_shiftRight_four]), toNat_shiftRight_four]

theorem acSetIsdelTrue_eq (hi : i.toNat / 16 < flag.length) :
    ∃ flag', acSetIsdelTrue flag i = .ok flag' ∧
      FlagsWritten flag flag' i.toNat (emptyAt flag i.toNat) true := by
  refine ⟨_, modifyWord_eq hi fun w => w ||| (1 <<< flagShift i),
    flagsWritten_set hi fun b hb => ?_⟩
  · rw [testBit_set (flagShift_lt i) hb, toNat_flagShift, testBit_one]
    split
    · next heq =>
      subst heq
      simp [emptyAt]
    · split
      · next heq => simp [heq]
      · simp
        omega

theorem acSetIsemptyFalse_eq (hi : i.toNat / 16 < flag.length) :
    ∃ flag', acSetIsemptyFalse flag i = .ok flag' ∧
      FlagsWritten flag flag' i.toNat false (delAt flag i.toNat) := by
  refine ⟨_, modifyWord_eq hi fun w => w &&& ~~~ (2 <<< flagShift i),
    flagsWritten_set hi fun b hb => ?_⟩
  · rw [testBit_clear (flagShift_lt i) hb, toNat_flagShift, testBit_two]
    split
    · next heq =>
      subst heq
      simp
    · split
      · next heq => simp [heq, delAt]
      · simp
        omega

theorem acSetIsbothFalse_eq (hi : i.toNat / 16 < flag.length) :
    ∃ flag', acSetIsbothFalse flag i = .ok flag' ∧
      FlagsWritten flag flag' i.toNat false false := by
  refine ⟨_, modifyWord_eq hi fun w => w &&& ~~~ (3 <<< flagShift i),
    flagsWritten_set hi fun b hb => ?_⟩
  · rw [testBit_clear (flagShift_lt i) hb, toNat_flagShift, testBit_three]
    split
    · next heq =>
      subst heq
      simp
    · split
      · next heq => simp [heq]
      · simp
        omega

/-- `memset(new_flags, 0xaa, …)`: all buckets are empty, none is deleted. -/
theorem flags_replicate {n i : Nat} (hi : i / 16 < n) :
    emptyAt (.replicate n 0xaaaaaaaa) i = true ∧ delAt (.replicate n 0xaaaaaaaa) i = false := by
  have hword : (List.replicate n (0xaaaaaaaa : UInt32)).getD (i / 16) 0 = 0xaaaaaaaa := by
    simp [hi]
  have hbits : ∀ a < 16, (0xaaaaaaaa : UInt32).toNat.testBit (2 * a + 1) = true ∧
      (0xaaaaaaaa : UInt32).toNat.testBit (2 * a) = false := by decide
  unfold emptyAt delAt
  rw [hword]
  exact hbits (i % 16) (Nat.mod_lt _ (by decide))

end Flags

/-! ## Sizes

`kroundup32` fills in the bits below the highest one, by shifts of 1, 2, 4, 8 and 16 places, and
adds one. `smear` is the number with these bits filled in. -/

/-- All bits below the first one that is set are set as well. -/
def smear (x : Nat) : Nat :=
  let x := x ||| (x >>> 1)
  let x := x ||| (x >>> 2)
  let x := x ||| (x >>> 4)
  let x := x ||| (x >>> 8)
  x ||| (x >>> 16)

theorem testBit_or_shiftRight (x d w : Nat) (P : Nat → Prop) (hw : w = d)
    (h : ∀ i, x.testBit i ↔ ∃ j, i ≤ j ∧ j < i + w ∧ P j) (i : Nat) :
    (x ||| (x >>> d)).testBit i ↔ ∃ j, i ≤ j ∧ j < i + 2 * w ∧ P j := by
  rw [Nat.testBit_or, Nat.testBit_shiftRight, Bool.or_eq_true, h, h]
  constructor
  · rintro (⟨j, hij, hj, hP⟩ | ⟨j, hij, hj, hP⟩)
    · exact ⟨j, hij, by omega, hP⟩
    · exact ⟨j, by omega, by omega, hP⟩
  · rintro ⟨j, hij, hj, hP⟩
    rcases Nat.lt_or_ge j (i + w) with hlt | hge
    · exact .inl ⟨j, hij, hlt, hP⟩
    · exact .inr ⟨j, by omega, by omega, hP⟩

theorem testBit_smear (x i : Nat) :
    (smear x).testBit i ↔ ∃ j, i ≤ j ∧ j < i + 32 ∧ x.testBit j := by
  have h1 : ∀ i, x.testBit i ↔ ∃ j, i ≤ j ∧ j < i + 1 ∧ x.testBit j := by
    intro i
    constructor
    · intro h
      exact ⟨i, Nat.le_refl i, Nat.lt_succ_self i, h⟩
    · rintro ⟨j, hij, hj, h⟩
      rwa [show i = j by omega]
  have h2 := testBit_or_shiftRight _ 1 1 _ rfl h1
  have h4 := testBit_or_shiftRight _ 2 2 _ rfl h2
  have h8 := testBit_or_shiftRight _ 4 4 _ rfl h4
  have h16 := testBit_or_shiftRight _ 8 8 _ rfl h8
  exact testBit_or_shiftRight _ 16 16 _ rfl h16 i

/-- So one more is a power of two. -/
theorem exists_smear_add_one (x : Nat) (hx : x < 2 ^ 32) :
    ∃ k ≤ 32, smear x + 1 = 2 ^ k ∧ x < 2 ^ k ∧ (x = 0 ∨ 2 ^ k ≤ 2 * x) := by
  rcases Nat.eq_zero_or_pos x with rfl | hpos
  · exact ⟨0, by decide, by decide, by decide, .inl rfl⟩
  · have hne : x ≠ 0 := Nat.ne_of_gt hpos
    have hlog : x.log2 < 32 := (Nat.log2_lt hne).mpr hx
    refine ⟨x.log2 + 1, hlog, ?_, Nat.lt_log2_self, .inr ?_⟩
    -- every bit from the highest one down is set
    · have hsmear : smear x = 2 ^ (x.log2 + 1) - 1 := by
        apply Nat.eq_of_testBit_eq
        intro i
        rw [Bool.eq_iff_iff, testBit_smear, Nat.testBit_two_pow_sub_one, decide_eq_true_iff]
        constructor
        · rintro ⟨j, hij, -, hj⟩
          by_contra hge
          have hlt : x < 2 ^ j := Nat.lt_of_lt_of_le Nat.lt_log2_self
            (Nat.pow_le_pow_right (by decide) (by omega))
          rw [Nat.testBit_lt_two_pow hlt] at hj
          cases hj
        · intro hi
          exact ⟨x.log2, by omega, by omega, Nat.testBit_log2 hne⟩
      have := Nat.two_pow_pos (x.log2 + 1)
      omega
    · have := Nat.log2_self_le hne
      rw [Nat.pow_succ]
      omega

theorem toNat_kroundup32 (x : UInt32) :
    (kroundup32 x).toNat = (smear (x - 1).toNat + 1) % 2 ^ 32 := by
  unfold kroundup32
  rw [UInt32.toNat_add]
  simp only [UInt32.toNat_or, UInt32.toNat_shiftRight]
  rfl

/-- **The number of buckets is a power of two**, whatever was asked for. -/
theorem exists_resized (n : UInt32) :
    ∃ k, 2 ≤ k ∧ k ≤ 31 ∧ (resizedTo n).toNat = 2 ^ k := by
  obtain ⟨k, hk, hsmear, -⟩ := exists_smear_add_one (n - 1).toNat (n - 1).toNat_lt
  have hround := toNat_kroundup32 n
  rw [hsmear] at hround
  unfold resizedTo
  split
  · exact ⟨2, by decide, by decide, rfl⟩
  · next hge =>
    rw [UInt32.lt_iff_toNat_lt, hround] at hge
    have hge : ¬ 2 ^ k % 2 ^ 32 < 4 := hge
    rw [hround]
    rcases Nat.lt_or_eq_of_le hk with hlt | rfl
    · have hpow : 2 ^ k < 2 ^ 32 := Nat.pow_lt_pow_right (by decide) hlt
      rw [Nat.mod_eq_of_lt hpow] at hge ⊢
      refine ⟨k, ?_, by omega, rfl⟩
      by_contra hsmall
      obtain rfl | rfl : k = 0 ∨ k = 1 := by omega
      all_goals exact hge (by decide)
    · exact absurd hge (by decide)

/-- A size above the half of a power of two is rounded up to it. -/
theorem toNat_resizedTo {n : UInt32} {k : Nat} (hk : 1 ≤ k) (hle : k ≤ 30)
    (hlow : 2 ^ k ≤ (n - 1).toNat) (hup : (n - 1).toNat < 2 ^ (k + 1)) :
    (resizedTo n).toNat = 2 ^ (k + 1) := by
  obtain ⟨j, -, hsmear, hlt, hor⟩ := exists_smear_add_one (n - 1).toNat (n - 1).toNat_lt
  have hpos := Nat.two_pow_pos k
  have hj : j = k + 1 := by
    have hgt := (Nat.pow_lt_pow_iff_right (by decide : 1 < 2)).mp (Nat.lt_of_le_of_lt hlow hlt)
    have hlt := (Nat.pow_lt_pow_iff_right (by decide : 1 < 2)).mp
      (show 2 ^ j < 2 ^ (k + 2) by rw [Nat.pow_succ 2 (k + 1)]; omega)
    omega
  subst hj
  have hround := toNat_kroundup32 n
  rw [hsmear, Nat.mod_eq_of_lt (Nat.pow_lt_pow_right (by decide) (by omega))] at hround
  have hfour : 2 ^ 2 ≤ 2 ^ (k + 1) := Nat.pow_le_pow_right (by decide) (by omega)
  rw [resizedTo, if_neg, hround]
  rw [UInt32.lt_iff_toNat_lt, hround]
  exact Nat.not_lt.mpr hfour

/-- A table that is expanded has twice the buckets. -/
theorem toNat_resizedTo_add_one {n : UInt32} {k : Nat} (hk : 2 ≤ k) (hle : k ≤ 30)
    (hn : n.toNat = 2 ^ k) : (resizedTo (n + 1)).toNat = 2 ^ (k + 1) := by
  have hone : (n + 1 - 1).toNat = 2 ^ k := by rw [UInt32.add_sub_cancel, hn]
  have hpos := Nat.two_pow_pos k
  refine toNat_resizedTo (by omega) hle (Nat.le_of_eq hone.symm) ?_
  rw [hone, Nat.pow_succ]
  omega

/-- A table that is rehashed to be rid of its deleted entries keeps its size. -/
theorem toNat_resizedTo_sub_one {n : UInt32} {k : Nat} (hk : 2 ≤ k) (hle : k ≤ 31)
    (hn : n.toNat = 2 ^ k) : (resizedTo (n - 1)).toNat = 2 ^ k := by
  obtain ⟨j, rfl⟩ : ∃ j, k = j + 1 := ⟨k - 1, by omega⟩
  have htwo : 2 ^ 1 ≤ 2 ^ j := Nat.pow_le_pow_right (by decide) (by omega)
  have hlt : 2 ^ (j + 1) < 2 ^ 32 := Nat.pow_lt_pow_right (by decide) (by omega)
  have hsub : (n - 1 - 1).toNat = 2 ^ (j + 1) - 2 := by
    rw [UInt32.toNat_sub, UInt32.toNat_sub, hn, UInt32.toNat_one]
    omega
  refine toNat_resizedTo (by omega) (by omega) ?_ ?_
  · rw [hsub, Nat.pow_succ]
    omega
  · rw [hsub]
    omega

end LibPaxos
