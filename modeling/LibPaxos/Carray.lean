import LibPaxos.Types
import LibPaxos.Lib.Runs
import LibPaxos.Lib.Ring

/-!
# The queue of `carray.c`

A growing array used as a ring: the proposer keeps the values it is still to propose in one, of 128
cells at first. When the ring is full, its content is pushed into a new one of twice the size and
the fields are taken over from there, so `carray_push_back` and `carray_grow` call each other.

* **`carray_is_fifo`** — the queue behaves as an unbounded list, as long as its size has less than
  31 bits.
-/

namespace LibPaxos

/-! ## Memory -/

section Memory

variable {α : Type}

/-- `array[i]`. -/
def readAt (array : List α) (i : Int32) : Except Fault α :=
  if i < 0 then .error .outOfBounds
  else
    match array[i.toNatClampNeg]? with
    | none => .error .outOfBounds
    | some x => .ok x

/-- `array[i] = x`. -/
def writeAt (array : List α) (i : Int32) (x : α) : Except Fault (List α) :=
  if 0 ≤ i ∧ i.toNatClampNeg < array.length then .ok (array.set i.toNatClampNeg x)
  else .error .outOfBounds

end Memory

/-! ## The functions of `carray.c` -/

/-- `struct carray`. The fields are `int`s: a sum that is too large wraps here, where C leaves it
undefined. -/
structure Carray (α : Type) where
  head : Int32
  tail : Int32
  size : Int32
  count : Int32
  array : List α

section Functions

/-! What `malloc` leaves in the cells of an array is `junk`, by its size and the cell. -/

variable {α : Type} (junk : Nat → Nat → α)

/-- `carray_new`. -/
def carrayNew (size : Int32) : Carray α where
  head := 0
  tail := 0
  size := size
  count := 0
  array := (List.range size.toNatClampNeg).map (junk size.toNatClampNeg)

/-- `carray_empty`. -/
def carrayEmpty (a : Carray α) : Bool :=
  a.count = 0

/-- `carray_full`. -/
def carrayFull (a : Carray α) : Bool :=
  a.count = a.size

/-- `carray_at`. -/
def carrayAt (a : Carray α) (i : Int32) : Except Fault α :=
  readAt a.array ((a.head + i) % a.size)

/-- `carray_foreach`: the elements in the order in which the callback gets them. -/
def carrayForeach (a : Carray α) : Except Fault (List α) :=
  (List.range a.count.toNatClampNeg).mapM fun i => carrayAt a (Int32.ofNat i)

/-- `carray_pop_front`; the result is `none` where C returns `NULL`. -/
def carrayPopFront (a : Carray α) : Except Fault (Carray α × Option α) :=
  if carrayEmpty a then .ok (a, none)
  else do
    -- the cell keeps its content and is written again when the tail comes round
    let p ← readAt a.array a.head
    .ok ({ a with head := (a.head + 1) % a.size, count := a.count - 1 }, some p)

/-- `carray_grow`, given the `carray_push_back` that it calls. The count stays as it is. -/
def carrayGrow (pushBack : Carray α → α → OptionT (Except Fault) (Carray α)) (a : Carray α) :
    OptionT (Except Fault) (Carray α) := do
  let tmp ← (List.range a.count.toNatClampNeg).foldlM
    (fun tmp i => do
      let p ← OptionT.lift (carrayAt a (Int32.ofNat i))
      pushBack tmp p)
    (carrayNew junk (a.size * 2))
  -- the old array is freed, the fields of the new ring are taken over
  pure { a with head := 0, tail := tmp.tail, size := tmp.size, array := tmp.array }

/-- The stores at the end of `carray_push_back`. -/
def carrayPut (a : Carray α) (p : α) : Except Fault (Carray α) := do
  let array ← writeAt a.array a.tail p
  .ok { a with array := array, tail := (a.tail + 1) % a.size, count := a.count + 1 }

/-- `carray_push_back`, with a bound on how deep the calls may nest; there is no result if the
bound is too small. -/
def carrayPushBack : Nat → Carray α → α → OptionT (Except Fault) (Carray α)
  | 0, _, _ => failure
  | depth + 1, a, p => do
    let a ← (if carrayFull a then carrayGrow junk (carrayPushBack depth) a else pure a)
    OptionT.lift (carrayPut a p)

end Functions

/-- A call of one of the two functions that change the queue. -/
inductive CarrayOp (α : Type) where
  | pushBack (p : α)
  | popFront

section Runs

variable {α : Type} (junk : Nat → Nat → α) (depth : Nat)

/-- A call, with what it returns from the queue. -/
def carrayStep (a : Carray α) : CarrayOp α → OptionT (Except Fault) (Carray α × List (Option α))
  | .pushBack p => do
    let a ← carrayPushBack junk depth a p
    pure (a, [])
  | .popFront => do
    let (a, p) ← OptionT.lift (carrayPopFront a)
    pure (a, [p])

/-- A sequence of calls, with everything they return. -/
def carrayRun (a : Carray α) :
    List (CarrayOp α) → OptionT (Except Fault) (Carray α × List (Option α))
  | [] => pure (a, [])
  | op :: ops => do
    let (a, out) ← carrayStep junk depth a op
    let (a, rest) ← carrayRun a ops
    pure (a, out ++ rest)

end Runs

/-! ## An unbounded queue -/

section Fifo

variable {α : Type}

/-- A call on a list that is used as a queue. -/
def fifoStep (q : List α) : CarrayOp α → List α × List (Option α)
  | .pushBack p => (q ++ [p], [])
  | .popFront => (q.tail, [q.head?])

def fifoRun (q : List α) : List (CarrayOp α) → List α × List (Option α)
  | [] => (q, [])
  | op :: ops =>
    ((fifoRun (fifoStep q op).1 ops).1, (fifoStep q op).2 ++ (fifoRun (fifoStep q op).1 ops).2)

/-- The number of cells after a call: doubled when a queue that fills them all is pushed to. -/
def sizeAfter (size : Nat) (q : List α) : CarrayOp α → Nat
  | .pushBack _ => if q.length = size then size * 2 else size
  | .popFront => size

def sizeAfterRun (size : Nat) (q : List α) : List (CarrayOp α) → Nat
  | [] => size
  | op :: ops => sizeAfterRun (sizeAfter size q op) (fifoStep q op).1 ops

theorem le_sizeAfter (size : Nat) (q : List α) (op : CarrayOp α) : size ≤ sizeAfter size q op := by
  cases op with
  | pushBack p =>
    show size ≤ if q.length = size then size * 2 else size
    split <;> omega
  | popFront => exact Nat.le_refl size

/-- The ring never shrinks. -/
theorem le_sizeAfterRun (size : Nat) (q : List α) (ops : List (CarrayOp α)) :
    size ≤ sizeAfterRun size q ops := by
  induction ops generalizing size q with
  | nil => exact Nat.le_refl size
  | cons op ops ih => exact Nat.le_trans (le_sizeAfter size q op) (ih _ _)

theorem sizeAfterRun_append (size : Nat) (q : List α) (ops ops' : List (CarrayOp α)) :
    sizeAfterRun size q (ops ++ ops')
      = sizeAfterRun (sizeAfterRun size q ops) (fifoRun q ops).1 ops' := by
  induction ops generalizing size q with
  | nil => rfl
  | cons op ops ih => exact ih _ _

end Fifo

/-! ## The queue in the ring

`Carray.Holds` describes the fields by the numbers that they stand for, and the content by
`Ring.Stored`. A push into a full ring copies the content into one of twice the size, which is not
full, so the calls nest only once. The bound on the size is needed for the sums of `int`s. -/

theorem int32_ofNat_inj {m n : Nat} (hm : m < 2 ^ 31) (hn : n < 2 ^ 31) :
    Int32.ofNat m = Int32.ofNat n ↔ m = n := by
  constructor
  · intro h
    have hclamp := congrArg Int32.toNatClampNeg h
    rwa [Int32.toNatClampNeg_ofNat_of_lt hm, Int32.toNatClampNeg_ofNat_of_lt hn] at hclamp
  · exact congrArg Int32.ofNat

theorem int32_zero_le_ofNat {n : Nat} (hn : n < 2 ^ 31) : 0 ≤ Int32.ofNat n := by
  rw [Int32.le_iff_toInt_le, Int32.toInt_ofNat_of_lt hn]
  exact Int.natCast_nonneg n

/-- The next index of a ring, in the arithmetic of C. -/
theorem int32_succ_mod {k size : Nat} (hk : k < 2 ^ 31 - 1) (hsize : size < 2 ^ 31) :
    (Int32.ofNat k + 1) % Int32.ofNat size = Int32.ofNat ((k + 1) % size) := by
  rw [Int32.ofNat_mod (by omega) hsize, Int32.ofNat_add]
  rfl

section Memory

variable {α : Type} {array : List α} {k : Nat}

theorem readAt_ofNat {x : α} (hk : k < 2 ^ 31) (h : array[k]? = some x) :
    readAt array (Int32.ofNat k) = .ok x := by
  unfold readAt
  rw [if_neg (Int32.not_lt.mpr (int32_zero_le_ofNat hk)), Int32.toNatClampNeg_ofNat_of_lt hk, h]

theorem writeAt_ofNat (x : α) (hk : k < 2 ^ 31) (h : k < array.length) :
    writeAt array (Int32.ofNat k) x = .ok (array.set k x) := by
  unfold writeAt
  rw [Int32.toNatClampNeg_ofNat_of_lt hk, if_pos ⟨int32_zero_le_ofNat hk, h⟩]

end Memory

/-- The queue lies in the array: the fields of `a` are the numbers that describe it. -/
structure Carray.Holds {α : Type} (a : Carray α) (head size : Nat) (q : List α) : Prop where
  head_eq : a.head = Int32.ofNat head
  tail_eq : a.tail = Int32.ofNat ((head + q.length) % size)
  size_eq : a.size = Int32.ofNat size
  count_eq : a.count = Int32.ofNat q.length
  length_eq : a.array.length = size
  stored : Ring.Stored a.array head q

section Holds

variable {α : Type} (junk : Nat → Nat → α) {a : Carray α} {head size : Nat} {q : List α}

theorem carrayNew_holds (hpos : 0 < size) (hsize : size < 2 ^ 31) :
    (carrayNew junk (Int32.ofNat size)).Holds 0 size [] := by
  have hlen : (carrayNew junk (Int32.ofNat size)).array.length = size := by
    show ((List.range _).map _).length = size
    rw [List.length_map, List.length_range, Int32.toNatClampNeg_ofNat_of_lt hsize]
  refine ⟨rfl, ?_, rfl, rfl, hlen, Ring.stored_nil (by rw [hlen]; exact hpos)⟩
  rw [List.length_nil, Nat.zero_mod]
  rfl

theorem Carray.Holds.head_lt (h : a.Holds head size q) : head < size := by
  rw [← h.length_eq]
  exact h.stored.head_lt

theorem Carray.Holds.length_le (h : a.Holds head size q) : q.length ≤ size := by
  rw [← h.length_eq]
  exact h.stored.fits

theorem Carray.Holds.carrayEmpty_eq (h : a.Holds head size q) (hsize : size < 2 ^ 31) :
    carrayEmpty a = decide (q = []) := by
  have hlen := h.length_le
  unfold carrayEmpty
  rw [h.count_eq]
  apply decide_eq_decide.mpr
  rw [← List.length_eq_zero_iff]
  exact int32_ofNat_inj (by omega) (by decide)

theorem Carray.Holds.carrayFull_eq (h : a.Holds head size q) (hsize : size < 2 ^ 31) :
    carrayFull a = decide (q.length = size) := by
  have hlen := h.length_le
  unfold carrayFull
  rw [h.count_eq, h.size_eq]
  exact decide_eq_decide.mpr (int32_ofNat_inj (by omega) hsize)

/-- `carray_at` reads the elements of the queue by their numbers. -/
theorem Carray.Holds.carrayAt_eq (h : a.Holds head size q) (hsize : size < 2 ^ 30) {i : Nat} {x : α}
    (hx : q[i]? = some x) : carrayAt a (Int32.ofNat i) = .ok x := by
  have hhead := h.head_lt
  have hlen := h.length_le
  have hi : i < q.length := (List.getElem?_eq_some_iff.mp hx).1
  -- head and number together stay below twice the size
  have hindex : (a.head + Int32.ofNat i) % a.size = Int32.ofNat ((head + i) % size) := by
    rw [h.head_eq, h.size_eq, ← Int32.ofNat_add, Int32.ofNat_mod (by omega) (by omega)]
  have hcell := h.stored.cell i x hx
  rw [h.length_eq] at hcell
  have hlt := Nat.mod_lt (head + i) (Nat.lt_of_le_of_lt (Nat.zero_le head) hhead)
  unfold carrayAt
  rw [hindex]
  exact readAt_ofNat (by omega) hcell

theorem Carray.Holds.carrayForeach_eq (h : a.Holds head size q) (hsize : size < 2 ^ 30) :
    carrayForeach a = .ok q := by
  have hlen := h.length_le
  unfold carrayForeach
  rw [h.count_eq, Int32.toNatClampNeg_ofNat_of_lt (by omega)]
  exact List.mapM_range_eq_ok fun i x hx => h.carrayAt_eq hsize hx

theorem Carray.Holds.carrayPut_eq (h : a.Holds head size q) (hroom : q.length < size)
    (hsize : size < 2 ^ 31) (p : α) :
    ∃ a', carrayPut a p = .ok a' ∧ a'.Holds head size (q ++ [p]) := by
  have htail := Nat.mod_lt (head + q.length) (Nat.lt_of_le_of_lt (Nat.zero_le _) hroom)
  have hwrite : writeAt a.array a.tail p = .ok (a.array.set ((head + q.length) % size) p) := by
    rw [h.tail_eq]
    exact writeAt_ofNat p (by omega) (by rw [h.length_eq]; exact htail)
  refine ⟨_, Except.bind_eq_ok.mpr ⟨_, hwrite, rfl⟩, h.head_eq, ?_, h.size_eq, ?_, ?_, ?_⟩
  · show (a.tail + 1) % a.size = _
    rw [h.tail_eq, h.size_eq, int32_succ_mod (by omega) hsize, Nat.mod_add_mod, List.length_append]
    rfl
  · show a.count + 1 = _
    rw [h.count_eq, List.length_append, Int32.ofNat_add]
    rfl
  · show (a.array.set _ p).length = size
    rw [List.length_set]
    exact h.length_eq
  · have hstored := h.stored.push (by rw [h.length_eq]; exact hroom) p
    rw [h.length_eq] at hstored
    exact hstored

/-- **Pushing to a queue that is not full.** -/
theorem Carray.Holds.pushBack_of_lt (h : a.Holds head size q) (hroom : q.length < size)
    (hsize : size < 2 ^ 31) (depth : Nat) (p : α) :
    ∃ a', carrayPushBack junk (depth + 1) a p = pure a' ∧ a'.Holds head size (q ++ [p]) := by
  have hfull : carrayFull a = false := by
    rw [h.carrayFull_eq hsize]
    exact decide_eq_false (Nat.ne_of_lt hroom)
  obtain ⟨a', hput, hholds⟩ := h.carrayPut_eq hroom hsize p
  refine ⟨a', ?_, hholds⟩
  unfold carrayPushBack
  rw [hfull]
  show OptionT.lift (carrayPut a p) = _
  rw [hput]
  rfl

/-- The loop of `carray_grow`, by induction on its turns: the new ring takes over one element after
the other. -/
theorem Carray.Holds.copy (h : a.Holds head size q) (hsize : size < 2 ^ 30) (depth : Nat) :
    ∀ k, k ≤ q.length → ∃ tmp, (List.range k).foldlM
        (fun tmp i => do
          let p ← OptionT.lift (carrayAt a (Int32.ofNat i))
          carrayPushBack junk (depth + 1) tmp p)
        (carrayNew junk (a.size * 2)) = pure tmp ∧
      tmp.Holds 0 (size * 2) (q.take k) := by
  have hhead := h.head_lt
  have hlen := h.length_le
  intro k hk
  induction k with
  | zero =>
    have hdouble : a.size * 2 = Int32.ofNat (size * 2) := by
      rw [h.size_eq, Int32.ofNat_mul]
      rfl
    refine ⟨_, rfl, ?_⟩
    rw [hdouble]
    exact carrayNew_holds junk (by omega) (by omega)
  | succ k ih =>
    obtain ⟨tmp, hloop, htmp⟩ := ih (Nat.le_of_succ_le hk)
    have hx : q[k]? = some q[k] := List.getElem?_eq_getElem hk
    -- the new ring has room for all of it, so no push grows it again
    have hroom : (q.take k).length < size * 2 := by
      rw [List.length_take]
      omega
    obtain ⟨tmp', hpush, htmp'⟩ := htmp.pushBack_of_lt junk hroom (by omega) depth q[k]
    refine ⟨tmp', ?_, ?_⟩
    · rw [List.range_succ, List.foldlM_append, hloop, pure_bind, List.foldlM_cons,
        h.carrayAt_eq hsize hx]
      show (carrayPushBack junk (depth + 1) tmp q[k] >>= fun tmp => pure tmp) = _
      rw [hpush, pure_bind]
    · rw [List.take_succ_eq_append_getElem hk]
      exact htmp'

/-- **Growing** keeps the queue and doubles the ring, wherever the head was. -/
theorem Carray.Holds.grow (h : a.Holds head size q) (hsize : size < 2 ^ 30) (depth : Nat) :
    ∃ a', carrayGrow junk (carrayPushBack junk (depth + 1)) a = pure a' ∧
      a'.Holds 0 (size * 2) q := by
  have hlen := h.length_le
  obtain ⟨tmp, hloop, htmp⟩ := h.copy junk hsize depth q.length (Nat.le_refl _)
  rw [List.take_length] at htmp
  refine ⟨{ a with head := 0, tail := tmp.tail, size := tmp.size, array := tmp.array }, ?_, rfl,
    htmp.tail_eq, htmp.size_eq, h.count_eq, htmp.length_eq, htmp.stored⟩
  unfold carrayGrow
  rw [h.count_eq, Int32.toNatClampNeg_ofNat_of_lt (by omega), hloop, pure_bind]

/-- **Pushing**, with as much nesting as growing takes. -/
theorem Carray.Holds.pushBack (h : a.Holds head size q) (hsize : size < 2 ^ 30) (depth : Nat)
    (p : α) : ∃ a' head', carrayPushBack junk (depth + 2) a p = pure a' ∧
      a'.Holds head' (sizeAfter size q (.pushBack p)) (q ++ [p]) := by
  have hhead := h.head_lt
  have hlen := h.length_le
  unfold sizeAfter
  by_cases hfull : q.length = size
  · -- one level down the pushes of the copy find room, so two levels are enough
    rw [if_pos hfull]
    obtain ⟨b, hgrow, hb⟩ := h.grow junk hsize depth
    obtain ⟨a', hput, ha'⟩ := hb.carrayPut_eq (by omega) (by omega) p
    refine ⟨a', 0, ?_, ha'⟩
    have hcond : carrayFull a = true := by
      rw [h.carrayFull_eq (by omega)]
      exact decide_eq_true hfull
    unfold carrayPushBack
    rw [if_pos hcond, hgrow, pure_bind, hput]
    rfl
  · rw [if_neg hfull]
    obtain ⟨a', hpush, ha'⟩ := h.pushBack_of_lt junk (by omega) (by omega) (depth + 1) p
    exact ⟨a', head, hpush, ha'⟩

/-- **Popping.** -/
theorem Carray.Holds.popFront (h : a.Holds head size q) (hsize : size < 2 ^ 30) :
    ∃ a' head', carrayPopFront a = .ok (a', q.head?) ∧ a'.Holds head' size q.tail := by
  have hhead := h.head_lt
  have hempty := h.carrayEmpty_eq (by omega)
  unfold carrayPopFront
  cases q with
  | nil =>
    refine ⟨a, head, ?_, h⟩
    rw [hempty]
    rfl
  | cons x q =>
    -- the head moves on, the tail stays where it is
    obtain ⟨hcell, hstored⟩ := h.stored.pop
    have hread : readAt a.array a.head = .ok x := by
      rw [h.head_eq]
      exact readAt_ofNat (by omega) hcell
    rw [hempty, hread]
    refine ⟨_, (head + 1) % size, rfl, ?_, ?_, h.size_eq, ?_, h.length_eq, ?_⟩
    · show (a.head + 1) % a.size = _
      rw [h.head_eq, h.size_eq, int32_succ_mod (by omega) (by omega)]
    · show a.tail = _
      rw [h.tail_eq, List.tail_cons, Nat.mod_add_mod, List.length_cons, Nat.add_assoc,
        Nat.add_comm 1]
    · show a.count - 1 = _
      rw [h.count_eq, List.length_cons, List.tail_cons, Int32.ofNat_add]
      exact Int32.add_sub_cancel _ _
    · rw [h.length_eq] at hstored
      exact hstored

/-- A call does to the ring what it does to the list. -/
theorem Carray.Holds.step (h : a.Holds head size q) (hsize : size < 2 ^ 30) (depth : Nat)
    (op : CarrayOp α) : ∃ a' head',
      carrayStep junk (depth + 2) a op = pure (a', (fifoStep q op).2) ∧
      a'.Holds head' (sizeAfter size q op) (fifoStep q op).1 := by
  cases op with
  | pushBack p =>
    obtain ⟨a', head', hpush, ha'⟩ := h.pushBack junk hsize depth p
    refine ⟨a', head', ?_, ha'⟩
    show (carrayPushBack junk (depth + 2) a p >>= fun a => pure (a, [])) = _
    rw [hpush, pure_bind]
    rfl
  | popFront =>
    obtain ⟨a', head', hpop, ha'⟩ := h.popFront hsize
    refine ⟨a', head', ?_, ha'⟩
    show (OptionT.lift (carrayPopFront a) >>= fun x => pure (x.1, [x.2])) = _
    rw [hpop]
    rfl

/-- **A run does to the ring what it does to the list.** -/
theorem Carray.Holds.run (depth : Nat) : ∀ {ops : List (CarrayOp α)} {a : Carray α}
    {head size : Nat} {q : List α}, a.Holds head size q → sizeAfterRun size q ops < 2 ^ 30 →
    ∃ a' head', carrayRun junk (depth + 2) a ops = pure (a', (fifoRun q ops).2) ∧
      a'.Holds head' (sizeAfterRun size q ops) (fifoRun q ops).1 := by
  intro ops
  induction ops with
  | nil => exact fun h _ => ⟨_, _, rfl, h⟩
  | cons op ops ih =>
    intro a head size q h hlt
    -- the ring only grows, so it is small enough before the last call
    have hsize : size < 2 ^ 30 := Nat.lt_of_le_of_lt (le_sizeAfterRun size q (op :: ops)) hlt
    obtain ⟨b, head', hstep, hb⟩ := h.step junk hsize depth op
    obtain ⟨a', head'', hrun, ha'⟩ := ih hb hlt
    refine ⟨a', head'', ?_, ha'⟩
    unfold carrayRun
    rw [hstep, pure_bind]
    show (carrayRun junk (depth + 2) b ops >>= _) = _
    rw [hrun, pure_bind]
    rfl

/-- What the fields of a queue keep to: head and tail are cells, the count is at most the size. -/
structure Carray.InBounds (a : Carray α) : Prop where
  head : 0 ≤ a.head ∧ a.head < a.size
  tail : 0 ≤ a.tail ∧ a.tail < a.size
  count : 0 ≤ a.count ∧ a.count ≤ a.size
  array : a.array.length = a.size.toNatClampNeg

theorem Carray.Holds.inBounds (h : a.Holds head size q) (hsize : size < 2 ^ 31) : a.InBounds := by
  have hhead := h.head_lt
  have hlen := h.length_le
  have hmod := Nat.mod_lt (head + q.length) (Nat.lt_of_le_of_lt (Nat.zero_le _) hhead)
  have hlt : ∀ {k : Nat}, k < size → Int32.ofNat k < Int32.ofNat size := by
    intro k hk
    rw [Int32.lt_iff_toInt_lt, Int32.toInt_ofNat_of_lt (by omega), Int32.toInt_ofNat_of_lt hsize]
    exact Int.ofNat_lt.mpr hk
  refine ⟨?_, ?_, ?_, ?_⟩
  · rw [h.head_eq, h.size_eq]
    exact ⟨int32_zero_le_ofNat (by omega), hlt hhead⟩
  · rw [h.tail_eq, h.size_eq]
    exact ⟨int32_zero_le_ofNat (by omega), hlt hmod⟩
  · rw [h.count_eq, h.size_eq]
    refine ⟨int32_zero_le_ofNat (by omega), ?_⟩
    rw [Int32.le_iff_toInt_le, Int32.toInt_ofNat_of_lt (by omega), Int32.toInt_ofNat_of_lt hsize]
    exact Int.ofNat_le.mpr hlen
  · rw [h.length_eq, h.size_eq, Int32.toNatClampNeg_ofNat_of_lt hsize]

end Holds

/-- **The array is a queue.** For every size and every sequence of calls that never makes the ring
as large as `2 ^ 30` cells: at every point the calls so far have returned what an unbounded list
returns, from a ring that grew when it was full; `carray_foreach` visits the elements of that list
in order; and the fields of the ring are in bounds. -/
theorem carray_is_fifo {α : Type} (junk : Nat → Nat → α) (size : Int32) (hsize : 1 ≤ size)
    (depth : Nat) (hdepth : 2 ≤ depth) (ops : List (CarrayOp α))
    (hcap : sizeAfterRun size.toNatClampNeg ([] : List α) ops < 2 ^ 30) :
    ∀ front, front <+: ops → ∃ a : Carray α,
      (carrayRun junk depth (carrayNew junk size) front).run
        = .ok (some (a, (fifoRun [] front).2)) ∧
      carrayForeach a = .ok (fifoRun [] front).1 ∧
      a.size.toNatClampNeg = sizeAfterRun size.toNatClampNeg ([] : List α) front ∧
      a.InBounds := by
  rintro front ⟨rest, rfl⟩
  obtain ⟨depth, rfl⟩ : ∃ d, depth = d + 2 := ⟨depth - 2, by omega⟩
  -- the size as a number; it is below `2 ^ 30` at the end, so it was before
  have hnonneg : 0 ≤ size := Int32.le_trans (by decide) hsize
  have hnat : Int32.ofNat size.toNatClampNeg = size := Int32.ofNat_toNatClampNeg size hnonneg
  rw [sizeAfterRun_append] at hcap
  have hfront := Nat.lt_of_le_of_lt (le_sizeAfterRun _ _ _) hcap
  have hlt : size.toNatClampNeg < 2 ^ 30 := Nat.lt_of_le_of_lt (le_sizeAfterRun _ _ _) hfront
  have hpos : 0 < size.toNatClampNeg := by
    rw [← hnat, Int32.le_iff_toInt_le, Int32.toInt_ofNat_of_lt (by omega)] at hsize
    exact Int.ofNat_lt.mp hsize
  have hnew := carrayNew_holds junk hpos (by omega)
  rw [hnat] at hnew
  obtain ⟨a, head, hrun, ha⟩ := hnew.run junk depth hfront
  refine ⟨a, congrArg OptionT.run hrun, ha.carrayForeach_eq hfront, ?_, ha.inBounds (by omega)⟩
  rw [ha.size_eq, Int32.toNatClampNeg_ofNat_of_lt (by omega)]

/-- A ring of two cells that is full with its content around the end when it grows. -/
theorem carray_is_fifo_wrapped :
    let ops : List (CarrayOp Nat) := [.popFront, .pushBack 1, .pushBack 2, .popFront, .pushBack 3,
      .pushBack 4, .popFront, .pushBack 5, .popFront]
    ∃ a : Carray Nat, (carrayRun (fun _ _ => 0) 2 (carrayNew (fun _ _ => 0) 2) ops).run
        = .ok (some (a, [none, some 1, some 2, some 3])) ∧
      carrayForeach a = .ok [4, 5] ∧ a.size.toNatClampNeg = 4 ∧ a.InBounds := by
  intro ops
  exact carray_is_fifo (fun _ _ => 0) 2 (by decide) 2 (Nat.le_refl 2) ops (by decide) ops
    List.prefix_rfl

end LibPaxos
