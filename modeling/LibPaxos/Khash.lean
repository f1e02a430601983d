import LibPaxos.Types
import Mathlib.Control.Lawful
import Mathlib.Data.UInt

/-!
# The hash table of `khash.h`

The tables of proposers, learners and the memory backend are generated by the macros of `khash.h`:
open addressing in a power of two of buckets, with two bits a bucket that tell whether it was never
used and whether its entry was deleted. When the used buckets pass the load factor the table is
rehashed, into twice the buckets, or into as many as before if most of the used ones are deleted.
Rehashing is done in place: an entry that is in the way of another is taken out and placed next.

The macros are generic in the key, its hash and the value, and so are the definitions. They all come
as `KHASH_MAP_INIT_INT` in the library, with 32-bit keys that are their own hash.

A `while` loop has a bound on its turns; there is no result if the bound is too small. `KhAllocs`
says which of the three allocations of `kh_resize` succeed, and what they find in new memory. Every
call of `kh_put` is given its own.
-/

namespace LibPaxos

/-! ## Memory -/

section Memory

variable {β : Type}

/-- `array[i]`. -/
def readCell (array : List β) (i : UInt32) : Except Fault β :=
  match array[i.toNat]? with
  | none => .error .outOfBounds
  | some x => .ok x

/-- `array[i] = x`. -/
def writeCell (array : List β) (i : UInt32) (x : β) : Except Fault (List β) :=
  if i.toNat < array.length then .ok (array.set i.toNat x) else .error .outOfBounds

/-- `krealloc`. What lies in cells that are new is `junk`. -/
def krealloc (junk : Nat → β) (array : List β) (n : UInt32) : List β :=
  (List.range n.toNat).map fun i => array[i]?.getD (junk i)

end Memory

/-! ## Flags -/

/-- The place of the two bits of a bucket in its word: `(i&0xfU)<<1`. -/
def flagShift (i : UInt32) : UInt32 :=
  (i &&& 0xf) <<< 1

/-- `__ac_isempty`. -/
def acIsempty (flag : List UInt32) (i : UInt32) : Except Fault Bool := do
  let w ← readCell flag (i >>> 4)
  .ok ((w >>> flagShift i) &&& 2 != 0)

/-- `__ac_isdel`. -/
def acIsdel (flag : List UInt32) (i : UInt32) : Except Fault Bool := do
  let w ← readCell flag (i >>> 4)
  .ok ((w >>> flagShift i) &&& 1 != 0)

/-- `__ac_iseither`. -/
def acIseither (flag : List UInt32) (i : UInt32) : Except Fault Bool := do
  let w ← readCell flag (i >>> 4)
  .ok ((w >>> flagShift i) &&& 3 != 0)

/-- `__ac_set_isempty_false`. -/
def acSetIsemptyFalse (flag : List UInt32) (i : UInt32) : Except Fault (List UInt32) := do
  let w ← readCell flag (i >>> 4)
  writeCell flag (i >>> 4) (w &&& ~~~ (2 <<< flagShift i))

/-- `__ac_set_isboth_false`. -/
def acSetIsbothFalse (flag : List UInt32) (i : UInt32) : Except Fault (List UInt32) := do
  let w ← readCell flag (i >>> 4)
  writeCell flag (i >>> 4) (w &&& ~~~ (3 <<< flagShift i))

/-- `__ac_set_isdel_true`. -/
def acSetIsdelTrue (flag : List UInt32) (i : UInt32) : Except Fault (List UInt32) := do
  let w ← readCell flag (i >>> 4)
  writeCell flag (i >>> 4) (w ||| (1 <<< flagShift i))

/-- `__ac_fsize`. -/
def acFsize (m : UInt32) : UInt32 :=
  if m < 16 then 1 else m >>> 4

/-- `kroundup32`. -/
def kroundup32 (x : UInt32) : UInt32 :=
  let x := x - 1
  let x := x ||| (x >>> 1)
  let x := x ||| (x >>> 2)
  let x := x ||| (x >>> 4)
  let x := x ||| (x >>> 8)
  let x := x ||| (x >>> 16)
  x + 1

/-- The number of buckets that `kh_resize` gives a table. -/
def resizedTo (n : UInt32) : UInt32 :=
  if kroundup32 n < 4 then 4 else kroundup32 n

/-- `(khint_t)(n * __ac_HASH_UPPER + 0.5)`. The factor is 0.77 and `n` is a power of two, for which
the sum in `double` has the integer part of the exact one. -/
def hashUpper (n : UInt32) : UInt32 :=
  .ofNat ((77 * n.toNat + 50) / 100)

/-! ## The table

The functions follow the macros block by block, since `kh_put` and `kh_resize` are long. A search
keeps the bucket, the length of its last move and the last deleted bucket that it has passed;
rehashing keeps both arrays of flags. -/

/-- `kh_name_t`. -/
structure Khash (κ α : Type) where
  nBuckets : UInt32
  size : UInt32
  nOccupied : UInt32
  upperBound : UInt32
  flags : List UInt32
  keys : List κ
  vals : List α

/-- The table at the end of a `kh_resize`: no bucket is deleted. -/
def khRebuilt {κ α : Type} (n size : UInt32) (flags : List UInt32) (keys : List κ)
    (vals : List α) : Khash κ α where
  nBuckets := n
  size := size
  nOccupied := size
  upperBound := hashUpper n
  flags := flags
  keys := keys
  vals := vals

/-- Which allocations of a `kh_resize` succeed, and what lies in the memory that they add. -/
structure KhAllocs (κ α : Type) where
  flags : Bool := true
  keys : Bool := true
  vals : Bool := true
  junkKeys : Nat → κ
  junkVals : Nat → α

/-- `kh_init`. -/
def khInit {κ α : Type} : Khash κ α where
  nBuckets := 0
  size := 0
  nOccupied := 0
  upperBound := 0
  flags := []
  keys := []
  vals := []

/-- Where a search stands: the bucket, the length of the last move, the last deleted bucket passed
(`n_buckets` if there was none), and whether it came back to its first bucket. -/
structure KhSearch where
  i : UInt32
  step : UInt32
  site : UInt32
  wrapped : Bool

section Functions

variable {κ α : Type} [DecidableEq κ] (hash : κ → UInt32) (fuel : Nat)

/-- The loop of `kh_get` and `kh_put`. Only `kh_put` uses `site`. -/
def khSearch (h : Khash κ α) (key : κ) (mask last : UInt32) :
    Nat → KhSearch → OptionT (Except Fault) KhSearch
  | 0, _ => failure
  | turns + 1, s => do
    let empty ← OptionT.lift (acIsempty h.flags s.i)
    let del ← OptionT.lift (acIsdel h.flags s.i)
    let other ← (if empty || del then pure true
      else do
        let k ← OptionT.lift (readCell h.keys s.i)
        pure (k ≠ key))
    if !empty && (del || other) then
      let site := if del then s.i else s.site
      let step := s.step + 1
      let i := (s.i + step) &&& mask
      if i = last then pure { i := i, step := step, site := site, wrapped := true }
      else khSearch h key mask last turns { i := i, step := step, site := site, wrapped := false }
    else pure s

/-- The search from the first bucket of a key. -/
def khSearchFrom (h : Khash κ α) (key : κ) : OptionT (Except Fault) KhSearch :=
  let mask := h.nBuckets - 1
  let i := hash key &&& mask
  khSearch h key mask i fuel { i := i, step := 0, site := h.nBuckets, wrapped := false }

/-- `kh_get`: the bucket of the key, or `n_buckets`. -/
def khGet (h : Khash κ α) (key : κ) : OptionT (Except Fault) UInt32 :=
  if h.nBuckets ≠ 0 then do
    let s ← khSearchFrom hash fuel h key
    if s.wrapped then pure h.nBuckets
    else do
      let either ← OptionT.lift (acIseither h.flags s.i)
      pure (if either then h.nBuckets else s.i)
  else pure 0

/-- The arrays while the table is rehashed: the flags of the old and of the new table, and the keys
and values of both. -/
structure KhRehash (κ α : Type) where
  flags : List UInt32
  newFlags : List UInt32
  keys : List κ
  vals : List α

/-- The inner loop of the rehashing: the first bucket on the path that is empty in the new table. -/
def khFindEmpty (newFlags : List UInt32) (newMask : UInt32) :
    Nat → UInt32 → UInt32 → OptionT (Except Fault) UInt32
  | 0, _, _ => failure
  | turns + 1, i, step => do
    let empty ← OptionT.lift (acIsempty newFlags i)
    if empty then pure i
    else khFindEmpty newFlags newMask turns ((i + (step + 1)) &&& newMask) (step + 1)

/-- The kick-out process of the rehashing: the entry is written to its bucket, and if the entry of
an old bucket was there, the process goes on with that one. -/
def khKick (nBuckets newMask : UInt32) :
    Nat → KhRehash κ α → κ → α → OptionT (Except Fault) (KhRehash κ α)
  | 0, _, _, _ => failure
  | turns + 1, t, key, val => do
    let i ← khFindEmpty t.newFlags newMask fuel (hash key &&& newMask) 0
    let newFlags ← OptionT.lift (acSetIsemptyFalse t.newFlags i)
    let live ← (if i < nBuckets then do
        let either ← OptionT.lift (acIseither t.flags i)
        pure (!either)
      else pure false)
    if live then do
      let key' ← OptionT.lift (readCell t.keys i)
      let keys ← OptionT.lift (writeCell t.keys i key)
      let val' ← OptionT.lift (readCell t.vals i)
      let vals ← OptionT.lift (writeCell t.vals i val)
      let flags ← OptionT.lift (acSetIsdelTrue t.flags i)
      khKick nBuckets newMask turns
        { flags := flags, newFlags := newFlags, keys := keys, vals := vals } key' val'
    else do
      let keys ← OptionT.lift (writeCell t.keys i key)
      let vals ← OptionT.lift (writeCell t.vals i val)
      pure { t with newFlags := newFlags, keys := keys, vals := vals }

/-- The body of the loop over the old buckets. -/
def khRehashBucket (nBuckets newMask : UInt32) (t : KhRehash κ α) (j : Nat) :
    OptionT (Except Fault) (KhRehash κ α) := do
  let either ← OptionT.lift (acIseither t.flags (.ofNat j))
  if either then pure t
  else do
    let key ← OptionT.lift (readCell t.keys (.ofNat j))
    let val ← OptionT.lift (readCell t.vals (.ofNat j))
    let flags ← OptionT.lift (acSetIsdelTrue t.flags (.ofNat j))
    khKick hash fuel nBuckets newMask fuel { t with flags := flags } key val

/-- `kh_resize` to `n` buckets; the second component is the C result. -/
def khResizeTo (alloc : KhAllocs κ α) (h : Khash κ α) (n : UInt32) :
    OptionT (Except Fault) (Khash κ α × Int) :=
  if h.size ≥ hashUpper n then pure (h, 0) -- requested size is too small
  else if alloc.flags = false then pure (h, -1)
  else if h.nBuckets < n ∧ alloc.keys = false then pure (h, -1)
  else
    let keys := if h.nBuckets < n then krealloc alloc.junkKeys h.keys n else h.keys
    if h.nBuckets < n ∧ alloc.vals = false then pure ({ h with keys := keys }, -1)
    else
      let vals := if h.nBuckets < n then krealloc alloc.junkVals h.vals n else h.vals
      do
        let t ← (List.range h.nBuckets.toNat).foldlM (khRehashBucket hash fuel h.nBuckets (n - 1))
          { flags := h.flags, newFlags := .replicate (acFsize n).toNat 0xaaaaaaaa, keys := keys,
            vals := vals }
        pure (khRebuilt n h.size t.newFlags
          (if h.nBuckets > n then krealloc alloc.junkKeys t.keys n else t.keys)
          (if h.nBuckets > n then krealloc alloc.junkVals t.vals n else t.vals), 0)

/-- `kh_resize`. -/
def khResize (alloc : KhAllocs κ α) (h : Khash κ α) (newNBuckets : UInt32) :
    OptionT (Except Fault) (Khash κ α × Int) :=
  khResizeTo hash fuel alloc h (resizedTo newNBuckets)

/-- The block of `kh_put` that finds the bucket for a key. -/
def khPutSite (h : Khash κ α) (key : κ) : OptionT (Except Fault) UInt32 := do
  let i := hash key &&& (h.nBuckets - 1)
  let empty ← OptionT.lift (acIsempty h.flags i)
  if empty then pure i -- for speed up
  else do
    let s ← khSearchFrom hash fuel h key
    let x := if s.wrapped then s.site else h.nBuckets
    if x = h.nBuckets then do
      let empty ← OptionT.lift (acIsempty h.flags s.i)
      pure (if empty && s.site ≠ h.nBuckets then s.site else s.i)
    else pure x

/-- The first block of `kh_put`: room for one more entry. -/
def khMakeRoom (alloc : KhAllocs κ α) (h : Khash κ α) : OptionT (Except Fault) (Khash κ α × Int) :=
  if h.nOccupied ≥ h.upperBound then
    if h.nBuckets > h.size <<< 1 then
      khResize hash fuel alloc h (h.nBuckets - 1) -- clear "deleted" elements
    else khResize hash fuel alloc h (h.nBuckets + 1) -- expand the hash table
  else pure (h, 0)

/-- The last block of `kh_put`: the key is written to its bucket. -/
def khWriteKey (h : Khash κ α) (key : κ) (x : UInt32) :
    Except Fault (Khash κ α × UInt32 × Int) := do
  let empty ← acIsempty h.flags x
  let del ← acIsdel h.flags x
  if empty then do -- not present at all
    let keys ← writeCell h.keys x key
    let flags ← acSetIsbothFalse h.flags x
    .ok ({ h with keys := keys, flags := flags, size := h.size + 1, nOccupied := h.nOccupied + 1 },
      x, 1)
  else if del then do -- deleted
    let keys ← writeCell h.keys x key
    let flags ← acSetIsbothFalse h.flags x
    .ok ({ h with keys := keys, flags := flags, size := h.size + 1 }, x, 2)
  else .ok (h, x, 0)

/-- `kh_put`: the table, the bucket and the value of `ret`. -/
def khPut (alloc : KhAllocs κ α) (h : Khash κ α) (key : κ) :
    OptionT (Except Fault) (Khash κ α × UInt32 × Int) := do
  let (h, rc) ← khMakeRoom hash fuel alloc h
  if rc < 0 then pure (h, h.nBuckets, -1)
  else do
    let x ← khPutSite hash fuel h key
    OptionT.lift (khWriteKey h key x)

/-- `kh_del`. -/
def khDel (h : Khash κ α) (x : UInt32) : Except Fault (Khash κ α) :=
  if x ≠ h.nBuckets then do
    let either ← acIseither h.flags x
    if either then .ok h
    else do
      let flags ← acSetIsdelTrue h.flags x
      .ok { h with flags := flags, size := h.size - 1 }
  else .ok h

/-- `kh_exist`. -/
def khExist (h : Khash κ α) (x : UInt32) : Except Fault Bool := do
  let either ← acIseither h.flags x
  .ok (!either)

/-- `kh_foreach`: the entries in the order in which they are visited. -/
def khForeach (h : Khash κ α) : Except Fault (List (Sigma fun _ : κ => α)) :=
  (List.range h.nBuckets.toNat).foldlM (fun visited i => do
      let live ← khExist h (.ofNat i)
      if live then do
        let key ← readCell h.keys (.ofNat i)
        let val ← readCell h.vals (.ofNat i)
        .ok (visited ++ [⟨key, val⟩])
      else .ok visited) []

/-! ## How the tables are used -/

/-- The body of a loop over the buckets that deletes entries. -/
def khSweepBucket (drop : α → Bool) (h : Khash κ α) (i : Nat) : Except Fault (Khash κ α) := do
  let live ← khExist h (.ofNat i)
  if live then do
    let val ← readCell h.vals (.ofNat i)
    if drop val then khDel h (.ofNat i) else .ok h
  else .ok h

/-- A loop from `kh_begin` to `kh_end` that deletes the entries with `drop`, as in
`mem_storage_trim` and `proposer_trim_instances`. -/
def khSweep (drop : α → Bool) (h : Khash κ α) : Except Fault (Khash κ α) :=
  (List.range h.nBuckets.toNat).foldlM (khSweepBucket drop) h

/-- `kh_get`, and `kh_value` of what it finds. -/
def khLookup (h : Khash κ α) (key : κ) : OptionT (Except Fault) (Option α) := do
  let x ← khGet hash fuel h key
  if x = h.nBuckets then pure none
  else do
    let val ← OptionT.lift (readCell h.vals x)
    pure (some val)

/-- `kh_put`, and the value is stored in the bucket unless it failed. -/
def khPutValue (alloc : KhAllocs κ α) (h : Khash κ α) (key : κ) (val : α) :
    OptionT (Except Fault) (Khash κ α × Int) := do
  let (h, x, ret) ← khPut hash fuel alloc h key
  if ret = -1 then pure (h, ret)
  else do
    let vals ← OptionT.lift (writeCell h.vals x val)
    pure ({ h with vals := vals }, ret)

/-- `kh_del` of what `kh_get` finds. -/
def khErase (h : Khash κ α) (key : κ) : OptionT (Except Fault) (Khash κ α) := do
  let x ← khGet hash fuel h key
  OptionT.lift (khDel h x)

end Functions

end LibPaxos
