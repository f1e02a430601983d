import Mathlib.Data.Fintype.EquivFin
import Mathlib.Data.Nat.Find
import Mathlib.Data.Nat.Prime.Basic
import Mathlib.Tactic.Ring

/-!
# Triangular probing

A search in a table of `2 ^ k` buckets looks at the bucket `start`, and then moves on by 1, 2, 3, …
buckets. After `s` moves it is `1 + 2 + … + s` buckets from where it began.

* **`probe_inj`** — the first `2 ^ k` buckets looked at are different ones.
* **`exists_probe_eq`** — so every bucket is among them.
* **`exists_first_probe`** — a search for a bucket with some property ends if there is one.
-/

namespace Probing

/-- The distance from the start after `s` moves. -/
def tri : Nat → Nat
  | 0 => 0
  | s + 1 => tri s + (s + 1)

theorem two_mul_tri (s : Nat) : 2 * tri s = s * (s + 1) := by
  induction s with
  | zero => rfl
  | succ s ih =>
    rw [tri, Nat.mul_add, ih]
    ring

/-- The bucket looked at after `s` moves. -/
def probe (k start s : Nat) : Nat :=
  (start + tri s) % 2 ^ k

theorem probe_lt (k start s : Nat) : probe k start s < 2 ^ k :=
  Nat.mod_lt _ (Nat.two_pow_pos k)

/-- One move. -/
theorem probe_succ (k start s : Nat) :
    probe k start (s + 1) = (probe k start s + (s + 1)) % 2 ^ k := by
  unfold probe
  rw [tri, ← Nat.add_assoc, Nat.mod_add_mod]

/-- Twice the distance between two points of a search. One of the two factors is odd. -/
theorem two_mul_tri_sub {s t : Nat} (h : t ≤ s) :
    2 * (tri s - tri t) = (s - t) * (s + t + 1) := by
  obtain ⟨d, rfl⟩ := Nat.exists_eq_add_of_le h
  have hsum : (t + d) * (t + d + 1) = t * (t + 1) + d * (t + d + t + 1) := by ring
  rw [Nat.mul_sub, two_mul_tri, two_mul_tri, hsum, Nat.add_sub_cancel_left, Nat.add_sub_cancel_left]

/-- A power of two divides a factor of a product if the other factor is odd. -/
theorem two_pow_dvd_of_odd {n a b : Nat} (hdvd : 2 ^ n ∣ a * b) (hodd : Odd b) : 2 ^ n ∣ a :=
  (Nat.Coprime.pow_left n (Nat.coprime_two_left.mpr hodd)).dvd_of_dvd_mul_right hdvd

theorem le_of_probe_eq {k start s t : Nat} (hs : s < 2 ^ k) (hle : t ≤ s)
    (h : probe k start s = probe k start t) : s ≤ t := by
  -- the distance is a multiple of the number of buckets
  have hdvd : 2 ^ k ∣ tri s - tri t := by
    have hmod := Nat.sub_mod_eq_zero_of_mod_eq h
    rw [Nat.add_sub_add_left] at hmod
    exact Nat.dvd_of_mod_eq_zero hmod
  have hprod : 2 ^ (k + 1) ∣ (s - t) * (s + t + 1) := by
    rw [← two_mul_tri_sub hle, Nat.pow_succ']
    exact Nat.mul_dvd_mul_left 2 hdvd
  have hpow : 2 ^ (k + 1) = 2 * 2 ^ k := Nat.pow_succ'
  -- so it divides the even one of the two factors, which is smaller
  by_cases hodd : Odd (s + t + 1)
  · have hzero := Nat.eq_zero_of_dvd_of_lt (two_pow_dvd_of_odd hprod hodd) (by omega)
    omega
  · have hodd' : Odd (s - t) := by
      rw [Nat.not_odd_iff_even, Nat.even_iff] at hodd
      rw [Nat.odd_iff]
      omega
    have hle' := Nat.le_of_dvd (by omega)
      (two_pow_dvd_of_odd (Nat.mul_comm _ _ ▸ hprod) hodd')
    omega

/-- **The first `2 ^ k` buckets of a search are different.** -/
theorem probe_inj {k start s t : Nat} (hs : s < 2 ^ k) (ht : t < 2 ^ k)
    (h : probe k start s = probe k start t) : s = t := by
  rcases Nat.le_total t s with hle | hle
  · exact Nat.le_antisymm (le_of_probe_eq hs hle h) hle
  · exact Nat.le_antisymm hle (le_of_probe_eq ht hle h.symm)

/-- **A search comes to every bucket** within `2 ^ k` moves. -/
theorem exists_probe_eq (k start : Nat) {i : Nat} (hi : i < 2 ^ k) :
    ∃ s < 2 ^ k, probe k start s = i := by
  have hinj : Function.Injective fun s : Fin (2 ^ k) =>
      (⟨probe k start s, probe_lt k start s⟩ : Fin (2 ^ k)) := by
    intro s t h
    exact Fin.ext (probe_inj s.isLt t.isLt (congrArg Fin.val h))
  obtain ⟨s, hs⟩ := Finite.injective_iff_surjective.mp hinj ⟨i, hi⟩
  exact ⟨s, s.isLt, congrArg Fin.val hs⟩

/-- **A search ends at the first bucket with the property**, if any bucket has it. -/
theorem exists_first_probe (k start : Nat) {P : Nat → Prop} {i : Nat} (hi : i < 2 ^ k) (hP : P i) :
    ∃ s < 2 ^ k, P (probe k start s) ∧ ∀ r < s, ¬ P (probe k start r) := by
  classical
  obtain ⟨s, hs, rfl⟩ := exists_probe_eq k start hi
  have hex : ∃ s, P (probe k start s) := ⟨s, hP⟩
  refine ⟨Nat.find hex, ?_, Nat.find_spec hex, fun r hr => Nat.find_min hex hr⟩
  exact Nat.lt_of_le_of_lt (Nat.find_min' hex hP) hs

end Probing
