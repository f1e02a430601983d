import LibPaxos.Storage
import LibPaxos.Lib.Bytes
import LibPaxos.Lib.Cursor

/-!
# The LMDB backend

`storage_lmdb.c` and `storage_utils.c`. Records are stored as bytes under their ids, and the trim
mark as four bytes under the key 0.

LMDB itself is a parameter. The contents of a database are of any type `T` with the operations of an
ordered map (`Mdb`): what was written is read back, and a cursor visits keys in the order of
`lmdb_compare_iid`, the order of numbers. A write transaction works on a copy of the contents, which
a commit makes those of the environment. What the LMDB calls of one request return is not computed
but given (`MdbResults`), as is the address of a value in memory, which ends up in the stored bytes.
Cursor calls succeed.

A failed `assert` ends the process: the functions below return a `Fault` then. On tables that the
backend has written itself none fails.

Left out are the opening of the environment in the file system and `mdb_strerror`.
-/

namespace LibPaxos

open Bytes Cursors

/-! ## Records as bytes -/

/-- `paxos_accepted_to_buffer`: the packed structure, with the address of the value in it, and the
bytes of the value. -/
def paxosAcceptedToBuffer (addr : UInt64) (acc : PaxosAccepted) : List UInt8 :=
  leBytes 4 acc.iid.toNat ++ (leBytes 2 acc.ballot.toNat ++ (leBytes 2 acc.valueBallot.toNat ++
    (leBytes 2 acc.aid.toNat ++ (leBytes 4 acc.value.length ++ (leBytes 8 addr.toNat ++
      acc.value)))))

/-- `paxos_accepted_from_buffer`. There is no result if the buffer is too short. The length of a
value is an `int`; the address that was stored is overwritten, or never used. -/
def paxosAcceptedFromBuffer (buffer : List UInt8) : Option PaxosAccepted := do
  let (iid, rest) ← readLe 4 buffer
  let (ballot, rest) ← readLe 2 rest
  let (valueBallot, rest) ← readLe 2 rest
  let (aid, rest) ← readLe 2 rest
  let (len, rest) ← readLe 4 rest
  let (_, rest) ← readLe 8 rest
  let out : PaxosAccepted :=
    { iid := UInt32.ofNat iid, ballot := UInt16.ofNat ballot
      valueBallot := UInt16.ofNat valueBallot, aid := UInt16.ofNat aid }
  if 0 < len ∧ len < 2 ^ 31 then
    if rest.length < len then none else some { out with value := rest.take len }
  else some out

/-- The length of a value fits into an `int`. -/
def PaxosAccepted.FitsInt (acc : PaxosAccepted) : Prop :=
  acc.value.length < 2 ^ 31

/-- **A record is read back as it was written.** -/
theorem paxosAcceptedFromBuffer_toBuffer (addr : UInt64) {acc : PaxosAccepted} (h : acc.FitsInt) :
    paxosAcceptedFromBuffer (paxosAcceptedToBuffer addr acc) = some acc := by
  have hlen : acc.value.length < 256 ^ 4 := Nat.lt_trans h (by decide)
  unfold paxosAcceptedFromBuffer paxosAcceptedToBuffer
  rw [readLe_append acc.iid.toNat_lt]
  simp only [Option.bind_eq_bind, Option.bind_some]
  rw [readLe_append acc.ballot.toNat_lt]
  simp only [Option.bind_some]
  rw [readLe_append acc.valueBallot.toNat_lt]
  simp only [Option.bind_some]
  rw [readLe_append acc.aid.toNat_lt]
  simp only [Option.bind_some]
  rw [readLe_append hlen]
  simp only [Option.bind_some]
  rw [readLe_append addr.toNat_lt]
  simp only [Option.bind_some, UInt32.ofNat_toNat, UInt16.ofNat_toNat]
  -- the value follows the structure, unless it is empty
  by_cases hpos : 0 < acc.value.length
  · rw [if_pos ⟨hpos, h⟩, if_neg (Nat.lt_irrefl _), List.take_length]
  · have hnil : acc.value = [] := List.length_eq_zero_iff.mp (by omega)
    rw [if_neg fun hc => hpos hc.1, ← hnil]

/-! ## LMDB

What is assumed of the library, and its calls as the backend makes them. -/

/-- The contents of a database: bytes under ids. -/
abbrev Mdb (T : Type) := CursorTable T UInt32 (List UInt8)

/-- Contents that can be computed with. -/
abbrev MdbTable := KHash (List UInt8)

/-- What the LMDB calls of a request return: 0, or an error. For `mdb_get` this is an error other
than `MDB_NOTFOUND`. `valueAddr` is where the value of the record lies that is written. -/
structure MdbResults where
  txnBegin : Int := 0
  get : Int := 0
  put : Int := 0
  txnCommit : Int := 0
  valueAddr : UInt64 := 0

/-- `struct lmdb_storage`: the committed table, and the table of the open transaction. -/
structure LmdbStorage (T : Type) where
  env : T
  txn : Option T
  results : MdbResults := {}

/-- `MDB_NOTFOUND`. -/
def mdbNotfound : Int := -30798

/-- `EINVAL`, which LMDB returns without a transaction. -/
def einval : Int := 22

section Backend

variable {T : Type} [Mdb T]

/-- `mdb_get`. -/
def mdbGet (s : LmdbStorage T) (key : UInt32) : Except Int (List UInt8) :=
  match s.txn with
  | none => .error einval
  | some table =>
    if s.results.get ≠ 0 then .error s.results.get
    else
      match CursorTable.lookup table key with
      | none => .error mdbNotfound
      | some data => .ok data

/-- `mdb_put`. -/
def mdbPut (s : LmdbStorage T) (key : UInt32) (data : List UInt8) : Int × LmdbStorage T :=
  match s.txn with
  | none => (einval, s)
  | some table =>
    if s.results.put ≠ 0 then (s.results.put, s)
    else (0, { s with txn := some (CursorTable.put table key data) })

/-! ## The calls of the backend -/

/-- `lmdb_storage_open`, on the environment found under its path. -/
def lmdbStorageOpen (trashFiles : Bool) (env : T) : LmdbStorage T where
  env := if trashFiles then CursorTable.empty else env
  txn := none

/-- `lmdb_storage_close`: an open transaction is aborted. What is left is the environment. -/
def lmdbStorageClose (s : LmdbStorage T) : T :=
  s.env

/-- `lmdb_storage_tx_begin`. -/
def lmdbStorageTxBegin (s : LmdbStorage T) : Except Fault (Int × LmdbStorage T) :=
  match s.txn with
  | some _ => .error .assertion
  | none =>
    if s.results.txnBegin ≠ 0 then .ok (s.results.txnBegin, s)
    else .ok (0, { s with txn := some s.env })

/-- `lmdb_storage_tx_commit`. -/
def lmdbStorageTxCommit (s : LmdbStorage T) : Except Fault (Int × LmdbStorage T) :=
  match s.txn with
  | none => .error .assertion
  | some table =>
    if s.results.txnCommit ≠ 0 then .ok (s.results.txnCommit, { s with txn := none })
    else .ok (0, { s with env := table, txn := none })

/-- `lmdb_storage_tx_abort`. -/
def lmdbStorageTxAbort (s : LmdbStorage T) : LmdbStorage T :=
  { s with txn := none }

/-- `lmdb_storage_get`. An error of `mdb_get` is logged, and counts as a record that is not
there. -/
def lmdbStorageGet (s : LmdbStorage T) (iid : UInt32) : Except Fault (Option PaxosAccepted) :=
  match mdbGet s iid with
  | .error _ => .ok none
  | .ok data =>
    match paxosAcceptedFromBuffer data with
    | none => .error .outOfBounds
    | some out => if iid ≠ out.iid then .error .assertion else .ok (some out)

/-- `lmdb_storage_put`. -/
def lmdbStoragePut (s : LmdbStorage T) (acc : PaxosAccepted) : Int × LmdbStorage T :=
  mdbPut s acc.iid (paxosAcceptedToBuffer s.results.valueAddr acc)

/-- `lmdb_storage_get_trim_instance`. -/
def lmdbStorageGetTrimInstance (s : LmdbStorage T) : Except Fault UInt32 :=
  match mdbGet s 0 with
  | .error result => if result ≠ mdbNotfound then .error .assertion else .ok 0
  | .ok data =>
    match readLe 4 data with
    | none => .error .outOfBounds
    | some (iid, _) => .ok (UInt32.ofNat iid)

/-- `lmdb_storage_put_trim_instance`. -/
def lmdbStoragePutTrimInstance (s : LmdbStorage T) (iid : UInt32) : Except Fault (LmdbStorage T) :=
  match mdbPut s 0 (leBytes 4 iid.toNat) with
  | (result, s) => if result ≠ 0 then .error .assertion else .ok s

/-- The loop of `lmdb_storage_trim`: the cursor starts before the first key, the key 0 is passed
over, and the loop ends after the first key above `iid`. The keys from 0 to `iid` and the one that
ends the loop are all it can visit. -/
def trimTable (table : T) (iid : UInt32) : T :=
  CursorTable.sweep (fun min => min ≠ 0 ∧ min ≤ iid) (fun min => min ≤ iid)
    (iid.toNat + 2) none table

/-- `lmdb_storage_trim`, which returns 0 in all cases. -/
def lmdbStorageTrim (s : LmdbStorage T) (iid : UInt32) : Except Fault (Int × LmdbStorage T) :=
  if iid = 0 then .ok (0, s)
  else do
    let s ← lmdbStoragePutTrimInstance s iid
    match s.txn with
    | none => .ok (0, s)
    | some table => .ok (0, { s with txn := some (trimTable table iid) })

/-- `storage_init_lmdb`. The last arguments of `getD` stand for a process that a failed assertion
has ended. -/
def storageInitLmdb : StorageApi (LmdbStorage T) where
  txBegin s := (lmdbStorageTxBegin s).toOption.getD (-1, s)
  txCommit s := (lmdbStorageTxCommit s).toOption.getD (-1, s)
  txAbort := lmdbStorageTxAbort
  get s iid := (lmdbStorageGet s iid).toOption.getD none
  put := lmdbStoragePut
  trim s iid := (lmdbStorageTrim s iid).toOption.getD (-1, s)
  getTrimInstance s := (lmdbStorageGetTrimInstance s).toOption.getD 0

end Backend

/-! ## What a table holds

Contents are read through the two formats that the backend writes: a record under its id, and the
mark under the key 0. Every lemma below says what one write does to both. -/

namespace Mdb

section Contents

variable {T : Type} [Mdb T]

/-- The record stored under an id. -/
def record (table : T) (iid : UInt32) : Option PaxosAccepted :=
  (CursorTable.lookup table iid).bind paxosAcceptedFromBuffer

/-- The trim mark stored under the key 0. -/
def mark (table : T) : UInt32 :=
  (((CursorTable.lookup table (0 : UInt32)).bind (readLe 4)).map fun field =>
    UInt32.ofNat field.1).getD 0

/-- The table was written by the backend: there are records under their ids, and a mark under the
key 0. -/
structure WellFormed (table : T) : Prop where
  record : ∀ k data, k ≠ 0 → CursorTable.lookup table k = some data →
    ∃ addr acc, data = paxosAcceptedToBuffer addr acc ∧ acc.iid = k ∧ acc.FitsInt
  mark : ∀ data, CursorTable.lookup table (0 : UInt32) = some data →
    ∃ iid : UInt32, data = leBytes 4 iid.toNat

theorem wellFormed_empty : WellFormed (CursorTable.empty : T) where
  record k data _ h := by
    rw [CursorTable.lookup_empty] at h
    cases h
  mark data h := by
    rw [CursorTable.lookup_empty] at h
    cases h

theorem record_empty (k : UInt32) : record (CursorTable.empty : T) k = none := by
  unfold record
  rw [CursorTable.lookup_empty]
  rfl

variable {table : T} {k iid : UInt32} {acc : PaxosAccepted}

theorem WellFormed.record_spec (hw : WellFormed table) (hk : k ≠ 0)
    (h : Mdb.record table k = some acc) : acc.iid = k ∧ acc.FitsInt := by
  obtain ⟨data, hdata, hread⟩ := Option.bind_eq_some_iff.mp h
  obtain ⟨addr, acc', rfl, hiid, hfits⟩ := hw.record k data hk hdata
  rw [paxosAcceptedFromBuffer_toBuffer addr hfits] at hread
  cases hread
  exact ⟨hiid, hfits⟩

theorem lookup_put_eq_some {data data' : List UInt8} {k' : UInt32}
    (h : CursorTable.lookup (CursorTable.put table k data) k' = some data') :
    k' = k ∧ data' = data ∨ k' ≠ k ∧ CursorTable.lookup table k' = some data' := by
  rw [CursorTable.lookup_put] at h
  split at h
  · rename_i hk
    cases h
    exact .inl ⟨hk, rfl⟩
  · rename_i hk
    exact .inr ⟨hk, h⟩

/-- Writing a record. -/
theorem WellFormed.put (hw : WellFormed table) (hiid : acc.iid ≠ 0) (hfits : acc.FitsInt)
    (addr : UInt64) :
    WellFormed (CursorTable.put table acc.iid (paxosAcceptedToBuffer addr acc)) where
  record k data hk h := by
    rcases lookup_put_eq_some h with ⟨rfl, rfl⟩ | ⟨-, hold⟩
    · exact ⟨addr, acc, rfl, rfl, hfits⟩
    · exact hw.record k data hk hold
  mark data h := by
    rcases lookup_put_eq_some h with ⟨hzero, -⟩ | ⟨-, hold⟩
    · exact absurd hzero.symm hiid
    · exact hw.mark data hold

theorem record_put (hfits : acc.FitsInt) (addr : UInt64) (k : UInt32) :
    record (CursorTable.put table acc.iid (paxosAcceptedToBuffer addr acc)) k
      = if k = acc.iid then some acc else record table k := by
  unfold record
  rw [CursorTable.lookup_put]
  split
  · rw [Option.bind_some, paxosAcceptedFromBuffer_toBuffer addr hfits]
  · rfl

theorem mark_put (hiid : k ≠ 0) (data : List UInt8) :
    mark (CursorTable.put table k data) = mark table := by
  unfold mark
  rw [CursorTable.lookup_put, if_neg hiid.symm]

/-- Writing the mark. -/
theorem WellFormed.put_mark (hw : WellFormed table) (iid : UInt32) :
    WellFormed (CursorTable.put table (0 : UInt32) (leBytes 4 iid.toNat)) where
  record k data hk h := by
    rcases lookup_put_eq_some h with ⟨hzero, -⟩ | ⟨-, hold⟩
    · exact absurd hzero hk
    · exact hw.record k data hk hold
  mark data h := by
    rcases lookup_put_eq_some h with ⟨-, rfl⟩ | ⟨hne, -⟩
    · exact ⟨iid, rfl⟩
    · exact absurd rfl hne

/-- **What the cursor loop leaves**: the keys from 1 up to the bound are gone. -/
theorem lookup_trimTable (table : T) (iid k : UInt32) :
    CursorTable.lookup (trimTable table iid) k
      = if k ≠ 0 ∧ k ≤ iid then none else CursorTable.lookup table k := by
  unfold trimTable
  -- the loop goes on up to the bound, and what it deletes is not above it
  rw [CursorTable.lookup_sweep ?_ ?_ UInt32.toNat (fun _ _ => UInt32.lt_iff_toNat_lt.mp) _ none
    table ?_ k]
  · simp [Ahead]
  · intro k k' hle hgo
    exact decide_eq_true (UInt32.le_trans hle (of_decide_eq_true hgo))
  · intro k hdrop
    exact decide_eq_true (of_decide_eq_true hdrop).2
  · intro k hgo
    have hle := UInt32.le_iff_toNat_le.mp (of_decide_eq_true hgo)
    show k.toNat < 0 + (iid.toNat + 2)
    omega

theorem WellFormed.trimTable (hw : WellFormed table) (iid : UInt32) :
    WellFormed (trimTable table iid) where
  record k data hk h := by
    rw [lookup_trimTable] at h
    split at h
    · cases h
    · exact hw.record k data hk h
  mark data h := by
    rw [lookup_trimTable, if_neg fun hc => hc.1 rfl] at h
    exact hw.mark data h

/-! A trim writes the mark and then runs the loop. -/

/-- The table after a trim. -/
def trimmed (table : T) (iid : UInt32) : T :=
  LibPaxos.trimTable (CursorTable.put table (0 : UInt32) (leBytes 4 iid.toNat)) iid

theorem WellFormed.trimmed (hw : WellFormed table) (iid : UInt32) :
    WellFormed (trimmed table iid) :=
  (hw.put_mark iid).trimTable iid

theorem lookup_zero_trimmed (table : T) (iid : UInt32) :
    CursorTable.lookup (trimmed table iid) (0 : UInt32) = some (leBytes 4 iid.toNat) := by
  unfold Mdb.trimmed
  rw [lookup_trimTable, if_neg fun hc => hc.1 rfl, CursorTable.lookup_put, if_pos rfl]

theorem readLe_mark (iid : UInt32) : readLe 4 (leBytes 4 iid.toNat) = some (iid.toNat, []) := by
  have h : iid.toNat < 256 ^ 4 := iid.toNat_lt
  rw [← List.append_nil (leBytes 4 iid.toNat), readLe_append h]

theorem mark_trimmed (table : T) (iid : UInt32) : mark (trimmed table iid) = iid := by
  unfold mark
  rw [lookup_zero_trimmed, Option.bind_some, readLe_mark]
  exact UInt32.ofNat_toNat

theorem record_trimmed (hk : k ≠ 0) (iid : UInt32) :
    record (trimmed table iid) k = if k ≤ iid then none else record table k := by
  unfold record Mdb.trimmed
  rw [lookup_trimTable, CursorTable.lookup_put, if_neg hk]
  by_cases hle : k ≤ iid
  · rw [if_pos ⟨hk, hle⟩, if_pos hle]
    rfl
  · rw [if_neg fun hc => hle hc.2, if_neg hle]

end Contents

end Mdb

theorem MdbTable.wellFormed_empty : Mdb.WellFormed (∅ : MdbTable) :=
  Mdb.wellFormed_empty

/-! ## What the calls do

Between transactions there is none open, inside one there is: then no assertion on the transaction
fails. -/

/-- The handle with a transaction open that has made the table `table`. -/
def LmdbStorage.inTxn {T : Type} (s : LmdbStorage T) (table : T) : LmdbStorage T :=
  { s with txn := some table }

section Calls

variable {T : Type} {s : LmdbStorage T} {table : T} {iid : UInt32}

theorem lmdbStorageTxBegin_ok (h : s.txn = none) : lmdbStorageTxBegin s
    = .ok (if s.results.txnBegin ≠ 0 then (s.results.txnBegin, s) else (0, s.inTxn s.env)) := by
  unfold lmdbStorageTxBegin
  rw [h]
  simp only
  split <;> rfl

theorem lmdbStorageTxCommit_ok : lmdbStorageTxCommit (s.inTxn table)
    = .ok (if s.results.txnCommit ≠ 0 then (s.results.txnCommit, { s with txn := none })
        else (0, { s with env := table, txn := none })) := by
  show (if s.results.txnCommit ≠ 0 then _ else _) = _
  split <;> rfl

variable [Mdb T]

theorem mdbGet_failed (hget : s.results.get ≠ 0) (key : UInt32) :
    mdbGet (s.inTxn table) key = .error s.results.get :=
  if_pos hget

theorem mdbGet_absent (hget : s.results.get = 0) {key : UInt32}
    (hl : CursorTable.lookup table key = none) :
    mdbGet (s.inTxn table) key = .error mdbNotfound := by
  unfold mdbGet LmdbStorage.inTxn
  simp only [hget, ne_eq, not_true_eq_false, if_false, hl]

theorem mdbGet_found (hget : s.results.get = 0) {key : UInt32} {data : List UInt8}
    (hl : CursorTable.lookup table key = some data) : mdbGet (s.inTxn table) key = .ok data := by
  unfold mdbGet LmdbStorage.inTxn
  simp only [hget, ne_eq, not_true_eq_false, if_false, hl]

/-- Reading finds the record, unless `mdb_get` fails. -/
theorem lmdbStorageGet_ok (hw : Mdb.WellFormed table) (hiid : iid ≠ 0) :
    lmdbStorageGet (s.inTxn table) iid
      = .ok (if s.results.get ≠ 0 then none else Mdb.record table iid) := by
  unfold lmdbStorageGet
  by_cases hget : s.results.get = 0
  · rw [if_neg (not_not.mpr hget)]
    unfold Mdb.record
    cases hl : CursorTable.lookup table iid with
    | none =>
      rw [mdbGet_absent hget hl]
      rfl
    | some data =>
      -- the record was written under its id, so `assert(iid == out->iid)` holds
      obtain ⟨addr, acc, rfl, hkey, hfits⟩ := hw.record iid data hiid hl
      rw [mdbGet_found hget hl, Option.bind_some, paxosAcceptedFromBuffer_toBuffer addr hfits]
      simp only [paxosAcceptedFromBuffer_toBuffer addr hfits]
      exact if_neg (not_not.mpr hkey.symm)
  · rw [mdbGet_failed hget, if_pos hget]

theorem lmdbStorageGetTrimInstance_ok (hw : Mdb.WellFormed table) (hget : s.results.get = 0) :
    lmdbStorageGetTrimInstance (s.inTxn table) = .ok (Mdb.mark table) := by
  unfold lmdbStorageGetTrimInstance Mdb.mark
  cases hl : CursorTable.lookup table (0 : UInt32) with
  | none =>
    rw [mdbGet_absent hget hl]
    exact if_neg (not_not.mpr rfl)
  | some data =>
    obtain ⟨iid, rfl⟩ := hw.mark data hl
    rw [mdbGet_found hget hl, Option.bind_some]
    simp only [Mdb.readLe_mark]
    rfl

theorem lmdbStorageTrim_ok (hiid : iid ≠ 0) (hput : s.results.put = 0) :
    lmdbStorageTrim (s.inTxn table) iid = .ok (0, s.inTxn (Mdb.trimmed table iid)) := by
  have hmark : lmdbStoragePutTrimInstance (s.inTxn table) iid
      = .ok (s.inTxn (CursorTable.put table 0 (leBytes 4 iid.toNat))) := by
    have hmdb : mdbPut (s.inTxn table) 0 (leBytes 4 iid.toNat)
        = (0, s.inTxn (CursorTable.put table 0 (leBytes 4 iid.toNat))) := if_neg (not_not.mpr hput)
    unfold lmdbStoragePutTrimInstance
    rw [hmdb]
    rfl
  unfold lmdbStorageTrim
  rw [if_neg hiid, hmark]
  rfl

/-! The same as calls of the backend: none of the defaults is used. -/

theorem lmdb_txBegin (h : s.txn = none) : storageInitLmdb.txBegin s
    = if s.results.txnBegin ≠ 0 then (s.results.txnBegin, s) else (0, s.inTxn s.env) := by
  show (lmdbStorageTxBegin s).toOption.getD (-1, s) = _
  rw [lmdbStorageTxBegin_ok h]
  rfl

theorem lmdb_txCommit : storageInitLmdb.txCommit (s.inTxn table)
    = if s.results.txnCommit ≠ 0 then (s.results.txnCommit, { s with txn := none })
      else (0, { s with env := table, txn := none }) := by
  show (lmdbStorageTxCommit (s.inTxn table)).toOption.getD (-1, s.inTxn table) = _
  rw [lmdbStorageTxCommit_ok]
  rfl

theorem lmdb_get (hw : Mdb.WellFormed table) (hiid : iid ≠ 0) :
    storageInitLmdb.get (s.inTxn table) iid
      = if s.results.get ≠ 0 then none else Mdb.record table iid := by
  show (lmdbStorageGet (s.inTxn table) iid).toOption.getD none = _
  rw [lmdbStorageGet_ok hw hiid]
  rfl

theorem lmdb_put (acc : PaxosAccepted) : storageInitLmdb.put (s.inTxn table) acc
    = if s.results.put ≠ 0 then (s.results.put, s.inTxn table)
      else (0, s.inTxn (CursorTable.put table acc.iid
        (paxosAcceptedToBuffer s.results.valueAddr acc))) :=
  rfl

theorem lmdb_trim (hiid : iid ≠ 0) (hput : s.results.put = 0) :
    storageInitLmdb.trim (s.inTxn table) iid = (0, s.inTxn (Mdb.trimmed table iid)) := by
  show (lmdbStorageTrim (s.inTxn table) iid).toOption.getD (-1, s.inTxn table) = _
  rw [lmdbStorageTrim_ok hiid hput]
  rfl

theorem lmdb_getTrimInstance (hw : Mdb.WellFormed table) (hget : s.results.get = 0) :
    storageInitLmdb.getTrimInstance (s.inTxn table) = Mdb.mark table := by
  show (lmdbStorageGetTrimInstance (s.inTxn table)).toOption.getD 0 = _
  rw [lmdbStorageGetTrimInstance_ok hw hget]
  rfl

end Calls

end LibPaxos
