import Mathlib.Data.Nat.Digits.Defs
import Mathlib.Tactic.Common

/-!
# Numbers as bytes

A number in a field of fixed width, the lowest byte first, and reading such fields one after the
other from the front of a buffer.

* **`readLe_append`** — a field is read back, and the rest of the buffer is left.
-/

namespace Bytes

/-- The `w` low bytes of a number, the lowest first. -/
def leBytes : Nat → Nat → List UInt8
  | 0, _ => []
  | w + 1, x => UInt8.ofNat x :: leBytes w (x / 256)

/-- The number that bytes stand for. -/
def leNat (bs : List UInt8) : Nat :=
  Nat.ofDigits 256 (bs.map UInt8.toNat)

/-- Reads a field of `w` bytes, if there are as many: its number and the bytes after it. -/
def readLe (w : Nat) (bs : List UInt8) : Option (Nat × List UInt8) :=
  if bs.length < w then none else some (leNat (bs.take w), bs.drop w)

@[simp] theorem length_leBytes (w x : Nat) : (leBytes w x).length = w := by
  induction w generalizing x with
  | zero => rfl
  | succ w ih => rw [leBytes, List.length_cons, ih]

theorem leNat_leBytes {w x : Nat} (hx : x < 256 ^ w) : leNat (leBytes w x) = x := by
  induction w generalizing x with
  | zero =>
    rw [Nat.pow_zero, Nat.lt_one_iff] at hx
    rw [hx]
    rfl
  | succ w ih =>
    have hdiv : x / 256 < 256 ^ w := by
      rw [Nat.div_lt_iff_lt_mul (by decide), ← Nat.pow_succ]
      exact hx
    have hlow : (UInt8.ofNat x).toNat = x % 256 := UInt8.toNat_ofNat'
    rw [leBytes, leNat, List.map_cons, Nat.ofDigits_cons, hlow]
    show x % 256 + 256 * leNat (leBytes w (x / 256)) = x
    rw [ih hdiv]
    exact Nat.mod_add_div x 256

theorem leBytes_leNat (bs : List UInt8) : leBytes bs.length (leNat bs) = bs := by
  induction bs with
  | nil => rfl
  | cons b bs ih =>
    have hnum : leNat (b :: bs) = b.toNat + 256 * leNat bs := Nat.ofDigits_cons
    have hlow : UInt8.ofNat (leNat (b :: bs)) = b := by
      rw [← UInt8.toNat_inj, UInt8.toNat_ofNat', hnum]
      have hlt := b.toNat_lt
      omega
    have hhigh : leNat (b :: bs) / 256 = leNat bs := by
      rw [hnum]
      have hlt := b.toNat_lt
      omega
    rw [List.length_cons, leBytes, hlow, hhigh, ih]

theorem leNat_lt (bs : List UInt8) : leNat bs < 256 ^ bs.length := by
  have hdigits : ∀ x ∈ bs.map UInt8.toNat, x < 256 := by
    intro x hx
    obtain ⟨b, -, rfl⟩ := List.mem_map.mp hx
    exact b.toNat_lt
  have hlt := Nat.ofDigits_lt_base_pow_length (by decide) hdigits
  rwa [List.length_map] at hlt

/-- **Reading a field back.** -/
theorem readLe_append {w x : Nat} (hx : x < 256 ^ w) (rest : List UInt8) :
    readLe w (leBytes w x ++ rest) = some (x, rest) := by
  have hlen := length_leBytes w x
  unfold readLe
  rw [if_neg (by rw [List.length_append]; omega), List.take_left' hlen, List.drop_left' hlen,
    leNat_leBytes hx]

end Bytes
