import LibPaxos.Lib.Bytes

/-!
# Fields at offsets of a buffer

A buffer of fixed size, written and read at offsets. Writing fields one behind the other leaves
their concatenation at the front of the buffer, whatever it held; reading goes by the same offsets.
Numbers are in network order, the highest byte first.

* **`write_overlay`** — one more field behind those written so far.
* **`read_append_of_le`**, **`read_append`** — a field is skipped, or read.
* `read_eq_some` — what a read in bounds returns.
* `cutOff` — what a field becomes when the buffer is cut off inside it and filled up again.
-/

namespace Buffer

variable {α : Type}

/-- Writes `bs` from `offset` on, if there is room. -/
def write (p : List α) (offset : Nat) (bs : List α) : Option (List α) :=
  if offset + bs.length ≤ p.length then
    some (p.take offset ++ (bs ++ p.drop (offset + bs.length)))
  else none

/-- Reads `n` entries from `offset` on, if there are as many. -/
def read (p : List α) (offset n : Nat) : Option (List α) :=
  if offset + n ≤ p.length then some ((p.drop offset).take n) else none

/-- The buffer with its front overwritten. -/
def overlay (xs p : List α) : List α :=
  xs ++ p.drop xs.length

section Overlay

variable {xs bs p : List α}

theorem overlay_nil (p : List α) : overlay [] p = p := rfl

theorem length_overlay (h : xs.length ≤ p.length) : (overlay xs p).length = p.length := by
  unfold overlay
  rw [List.length_append, List.length_drop]
  omega

/-- **Writing behind what was written so far.** -/
theorem write_overlay {offset : Nat} (ho : xs.length = offset)
    (h : offset + bs.length ≤ p.length) :
    write (overlay xs p) offset bs = some (overlay (xs ++ bs) p) := by
  subst ho
  have hlen : (overlay xs p).length = p.length := length_overlay (by omega)
  unfold write
  rw [if_pos (by omega)]
  unfold overlay
  rw [List.take_left' rfl, List.drop_append, List.drop_drop, List.length_append,
    List.drop_eq_nil_of_le (by omega), List.nil_append, List.append_assoc, Nat.add_sub_cancel_left]

/-- A buffer is its own front. -/
theorem overlay_take (p : List α) (k : Nat) : overlay (p.take k) p = p := by
  unfold overlay
  rw [List.length_take]
  rcases Nat.le_total k p.length with h | h
  · rw [Nat.min_eq_left h, List.take_append_drop]
  · rw [Nat.min_eq_right h, List.take_of_length_le h, List.drop_length, List.append_nil]

end Overlay

section Read

variable {xs ys : List α} {offset n : Nat}

/-- A read that stays in the buffer. -/
theorem read_eq_some : read xs offset n = some ys ↔
    offset + n ≤ xs.length ∧ ys = (xs.drop offset).take n := by
  unfold read
  split
  · rename_i h
    simp [h, eq_comm]
  · rename_i h
    simp [h]

/-- A field further behind. -/
theorem read_append_of_le (h : xs.length ≤ offset) :
    read (xs ++ ys) offset n = read ys (offset - xs.length) n := by
  unfold read
  rw [List.length_append, List.drop_append, List.drop_eq_nil_of_le h, List.nil_append]
  by_cases hb : offset - xs.length + n ≤ ys.length
  · rw [if_pos hb, if_pos (by omega)]
  · rw [if_neg hb, if_neg (by omega)]

/-- The field at the front. -/
theorem read_append (h : xs.length = n) : read (xs ++ ys) 0 n = some xs := by
  unfold read
  rw [if_pos (by rw [List.length_append]; omega), List.drop_zero, List.take_left' h]

end Read

/-! ## Cutting off -/

/-- `v` cut off after `k` entries and filled up with `z`. -/
def cutOff (z : α) (k : Nat) (v : List α) : List α :=
  v.take k ++ List.replicate (v.length - k) z

section CutOff

variable {z : α} {k : Nat} {v : List α}

theorem cutOff_of_le (h : v.length ≤ k) : cutOff z k v = v := by
  unfold cutOff
  rw [List.take_of_length_le h, Nat.sub_eq_zero_of_le h, List.replicate_zero, List.append_nil]

theorem length_cutOff : (cutOff z k v).length = v.length := by
  unfold cutOff
  rw [List.length_append, List.length_take, List.length_replicate]
  omega

/-- Nothing is lost if what is cut off is what it is filled up with. -/
theorem cutOff_eq_self_iff : cutOff z k v = v ↔ ∀ x ∈ v.drop k, x = z := by
  have hsplit : cutOff z k v = v.take k ++ v.drop k ↔
      List.replicate (v.length - k) z = v.drop k := List.append_right_inj _
  rw [List.take_append_drop] at hsplit
  rw [hsplit, eq_comm, List.eq_replicate_iff, List.length_drop]
  exact and_iff_right rfl

/-- The front of a buffer, cut off behind the field `xs` and laid over a buffer of `z`. -/
theorem exists_overlay_take (z : α) (rest : List α) {xs : List α} {n size : Nat}
    (hn : xs.length ≤ n) (hsize : xs.length + v.length ≤ size) :
    ∃ tail, overlay ((xs ++ v ++ rest).take (min n size)) (List.replicate size z)
      = xs ++ (cutOff z (n - xs.length) v ++ tail) := by
  unfold overlay
  by_cases hv : v.length ≤ n - xs.length
  · rw [cutOff_of_le hv, List.take_append, List.take_of_length_le (by simp; omega),
      List.append_assoc (xs ++ v), List.append_assoc xs]
    exact ⟨_, rfl⟩
  · have hcut : (xs ++ v ++ rest).take (min n size) = xs ++ v.take (n - xs.length) := by
      rw [Nat.min_eq_left (by omega), List.take_append_of_le_length (by simp; omega),
        List.take_append, List.take_of_length_le hn]
    refine ⟨List.replicate (size - (xs.length + v.length)) z, ?_⟩
    rw [hcut, List.drop_replicate, cutOff, List.append_assoc, List.append_assoc,
      List.replicate_append_replicate]
    congr 3
    rw [List.length_append, List.length_take]
    omega

end CutOff

/-! ## Network order -/

/-- The `w` low bytes of a number, the highest first. -/
def beBytes (w x : Nat) : List UInt8 :=
  (Bytes.leBytes w x).reverse

/-- The number that bytes in network order stand for. -/
def beNat (bs : List UInt8) : Nat :=
  Bytes.leNat bs.reverse

@[simp] theorem length_beBytes (w x : Nat) : (beBytes w x).length = w := by
  unfold beBytes
  rw [List.length_reverse, Bytes.length_leBytes]

theorem beNat_lt (bs : List UInt8) : beNat bs < 256 ^ bs.length := by
  unfold beNat
  rw [← List.length_reverse]
  exact Bytes.leNat_lt bs.reverse

theorem beNat_beBytes {w x : Nat} (hx : x < 256 ^ w) : beNat (beBytes w x) = x := by
  unfold beNat beBytes
  rw [List.reverse_reverse, Bytes.leNat_leBytes hx]

theorem beBytes_beNat (bs : List UInt8) : beBytes bs.length (beNat bs) = bs := by
  unfold beNat beBytes
  rw [← List.length_reverse, Bytes.leBytes_leNat, List.reverse_reverse]

end Buffer
