import LibPaxos.StorageLmdb
import LibPaxos.Lib.Outputs
import Mathlib.Logic.Function.Basic

/-!
# The storage backends are interchangeable

A backend is for keeping one record an instance and a trim mark: that is `Store`. The memory and the
LMDB backend both simulate it, on the calls that an acceptor makes: records and requests for
instances from 1 on, whose values an `int` can measure. Instance 0 is no instance, and the LMDB
backend uses the key for the mark.

* **`simulates_mem`**, **`simulates_lmdb`** — each call returns what the store returns.
* **`backends_interchangeable`** — in every sequence of committed transactions both backends return
  the results of the store.
-/

namespace LibPaxos

open Cursors Outputs

/-! ## The store -/

/-- What a storage backend keeps. -/
structure Store where
  records : UInt32 → Option PaxosAccepted
  mark : UInt32

namespace Store

/-- Nothing stored. -/
def empty : Store where
  records _ := none
  mark := 0

/-- The record replaces the one of its instance. -/
def put (A : Store) (acc : PaxosAccepted) : Store where
  records := Function.update A.records acc.iid (some acc)
  mark := A.mark

/-- The records of the instances `1, …, iid` are dropped, and the mark is set. -/
def trim (A : Store) (iid : UInt32) : Store where
  records k := if 1 ≤ k ∧ k ≤ iid then none else A.records k
  mark := iid

/-- The store as a backend. Its calls succeed. -/
def api : StorageApi Store where
  txBegin A := (0, A)
  txCommit A := (0, A)
  txAbort A := A
  get A iid := A.records iid
  put A acc := (0, A.put acc)
  trim A iid := (0, A.trim iid)
  getTrimInstance A := A.mark

theorem records_put (A : Store) (acc : PaxosAccepted) (k : UInt32) :
    (A.put acc).records k = if k = acc.iid then some acc else A.records k :=
  Function.update_apply _ _ _ _

theorem records_trim (A : Store) {k : UInt32} (hk : k ≠ 0) (iid : UInt32) :
    (A.trim iid).records k = if k ≤ iid then none else A.records k := by
  have hpos : 1 ≤ k := by
    rw [UInt32.le_iff_toNat_le]
    exact Nat.one_le_iff_ne_zero.mpr fun h => hk (UInt32.toNat_inj.mp h)
  simp [trim, hpos]

end Store

/-! ## Simulation -/

/-- The record of an instance, as an acceptor stores it. -/
structure PaxosAccepted.Storable (acc : PaxosAccepted) : Prop where
  iid : acc.iid ≠ 0
  fits : acc.FitsInt

/-- A backend, with the effect on its handle of where the value lies that is stored next. -/
structure Backend (σ : Type) extends StorageApi σ where
  place : σ → UInt64 → σ

/-- The memory backend copies the value. -/
def memBackend : Backend MemStorage where
  toStorageApi := storageInitMem
  place s _ := s

/-- The LMDB backend writes the address into the record. -/
def lmdbBackend {T : Type} [Mdb T] : Backend (LmdbStorage T) where
  toStorageApi := storageInitLmdb
  place s addr := { s with results := { s.results with valueAddr := addr } }

def Store.backend : Backend Store where
  toStorageApi := Store.api
  place A _ := A

/-- The calls of `b` succeed and return what the store returns. `idle` relates handles and stores
between transactions, `busy` inside one. -/
structure Backend.Simulates {σ : Type} (b : Backend σ) (idle busy : σ → Store → Prop) : Prop where
  placeIdle {s : σ} {A : Store} (addr : UInt64) : idle s A → idle (b.place s addr) A
  placeBusy {s : σ} {A : Store} (addr : UInt64) : busy s A → busy (b.place s addr) A
  txBegin {s : σ} {A : Store} : idle s A → ∃ s', b.txBegin s = (0, s') ∧ busy s' A
  txCommit {s : σ} {A : Store} : busy s A → ∃ s', b.txCommit s = (0, s') ∧ idle s' A
  get {s : σ} {A : Store} {iid : UInt32} : busy s A → iid ≠ 0 → b.get s iid = A.records iid
  fits {s : σ} {A : Store} {iid : UInt32} {acc : PaxosAccepted} :
    busy s A → iid ≠ 0 → A.records iid = some acc → acc.FitsInt
  put {s : σ} {A : Store} {acc : PaxosAccepted} :
    busy s A → acc.Storable → ∃ s', b.put s acc = (0, s') ∧ busy s' (A.put acc)
  trim {s : σ} {A : Store} {iid : UInt32} :
    busy s A → iid ≠ 0 → ∃ s', b.trim s iid = (0, s') ∧ busy s' (A.trim iid)
  getTrimInstance {s : σ} {A : Store} : busy s A → b.getTrimInstance s = A.mark

/-! ## The memory backend

The table of the backend has the records of the store, each under its own id. A trim deletes in one
sweep what the store drops. -/

/-- The handle holds what the store holds. -/
structure MemStorage.Holds (s : MemStorage) (A : Store) : Prop where
  keyed : s.records.All fun k acc => acc.iid = k ∧ acc.FitsInt
  records : ∀ k, k ≠ 0 → s.records.lookup k = A.records k
  mark : s.trimIid = A.mark

theorem memStorageNew_holds : memStorageNew.Holds Store.empty where
  keyed := AList.all_empty
  records _ _ := rfl
  mark := rfl

section Mem

variable {s : MemStorage} {A : Store}

theorem MemStorage.Holds.put {acc : PaxosAccepted} (h : s.Holds A) (hs : acc.Storable) :
    (memStoragePut s acc).2.Holds (A.put acc) where
  keyed := h.keyed.insert ⟨rfl, hs.fits⟩
  records k hk := by
    rw [Store.records_put, ← h.records k hk]
    exact AList.lookup_insert_cases _ _ _ _
  mark := h.mark

/-- The sweep goes by the ids in the records, which are the keys. -/
theorem MemStorage.Holds.trim (h : s.Holds A) (iid : UInt32) :
    (memStorageTrim s iid).2.Holds (A.trim iid) where
  keyed := h.keyed.filter _
  records k hk := by
    rw [Store.records_trim A hk, ← h.records k hk]
    ext acc
    show (s.records.filter _).lookup k = some acc ↔ _
    rw [AList.lookup_filter_eq_some]
    constructor
    · -- a record that is kept has an id above the point, and that is its key
      rintro ⟨hl, hkeep⟩
      obtain ⟨rfl, -⟩ := h.keyed k acc hl
      rwa [if_neg (of_decide_eq_true hkeep)]
    · intro hl
      split at hl
      · cases hl
      · next hgt =>
        obtain ⟨rfl, -⟩ := h.keyed k acc hl
        exact ⟨hl, decide_eq_true hgt⟩
  mark := rfl

end Mem

/-- **The memory backend simulates the store.** -/
theorem simulates_mem : memBackend.Simulates MemStorage.Holds MemStorage.Holds where
  placeIdle _ h := h
  placeBusy _ h := h
  txBegin h := ⟨_, rfl, h⟩
  txCommit h := ⟨_, rfl, h⟩
  get h hk := h.records _ hk
  fits h hk hr := (h.keyed _ _ ((h.records _ hk).trans hr)).2
  put h hs := ⟨_, rfl, h.put hs⟩
  trim h _ := ⟨_, rfl, h.trim _⟩
  getTrimInstance h := h.mark

/-! ## The LMDB backend

The simulation relation is what the bytes mean: the record under each id and the mark under the key
0. It holds for the committed table between transactions, and for the table of the open transaction
inside one. -/

/-- All LMDB calls succeed. -/
structure MdbResults.Succeed (r : MdbResults) : Prop where
  txnBegin : r.txnBegin = 0
  get : r.get = 0
  put : r.put = 0
  txnCommit : r.txnCommit = 0

section Lmdb

variable {T : Type} [Mdb T] {table : T} {A : Store}

/-- The table holds what the store holds. -/
structure Mdb.Holds (table : T) (A : Store) : Prop extends Mdb.WellFormed table where
  records : ∀ k, k ≠ 0 → Mdb.record table k = A.records k
  mark_eq : Mdb.mark table = A.mark

/-- What a table holds. -/
def Mdb.toStore (table : T) : Store where
  records := Mdb.record table
  mark := Mdb.mark table

theorem Mdb.WellFormed.holds (hw : Mdb.WellFormed table) : Mdb.Holds table (Mdb.toStore table) where
  toWellFormed := hw
  records _ _ := rfl
  mark_eq := rfl

theorem Mdb.empty_holds : Mdb.Holds (CursorTable.empty : T) Store.empty where
  toWellFormed := Mdb.wellFormed_empty
  records k _ := Mdb.record_empty k
  mark_eq := by
    unfold Mdb.mark
    rw [CursorTable.lookup_empty]
    rfl

theorem Mdb.Holds.put {acc : PaxosAccepted} (h : Mdb.Holds table A) (hs : acc.Storable)
    (addr : UInt64) :
    Mdb.Holds (CursorTable.put table acc.iid (paxosAcceptedToBuffer addr acc)) (A.put acc) where
  toWellFormed := h.toWellFormed.put hs.iid hs.fits addr
  records k hk := by
    rw [Mdb.record_put hs.fits, Store.records_put, h.records k hk]
  mark_eq := (Mdb.mark_put hs.iid _).trans h.mark_eq

theorem Mdb.Holds.trimmed (h : Mdb.Holds table A) (iid : UInt32) :
    Mdb.Holds (Mdb.trimmed table iid) (A.trim iid) where
  toWellFormed := h.toWellFormed.trimmed iid
  records k hk := by
    rw [Mdb.record_trimmed hk, Store.records_trim A hk, h.records k hk]
  mark_eq := Mdb.mark_trimmed table iid

/-- Between transactions. -/
structure LmdbStorage.Idle (s : LmdbStorage T) (A : Store) : Prop where
  txn : s.txn = none
  succeed : s.results.Succeed
  holds : Mdb.Holds s.env A

/-- Inside a transaction. -/
def LmdbStorage.Busy (s : LmdbStorage T) (A : Store) : Prop :=
  ∃ (s₀ : LmdbStorage T) (table : T),
    s = s₀.inTxn table ∧ s₀.results.Succeed ∧ Mdb.Holds table A

theorem lmdbStorageOpen_idle (h : Mdb.Holds table A) :
    (lmdbStorageOpen false table).Idle A where
  txn := rfl
  succeed := ⟨rfl, rfl, rfl, rfl⟩
  holds := h

/-- **The LMDB backend simulates the store**, as long as the LMDB calls succeed. -/
theorem simulates_lmdb :
    (lmdbBackend (T := T)).Simulates LmdbStorage.Idle LmdbStorage.Busy where
  placeIdle _ h := ⟨h.txn, ⟨h.succeed.1, h.succeed.2, h.succeed.3, h.succeed.4⟩, h.holds⟩
  placeBusy := by
    rintro _ A addr ⟨s, table, rfl, hs, hh⟩
    exact ⟨lmdbBackend.place s addr, table, rfl, ⟨hs.1, hs.2, hs.3, hs.4⟩, hh⟩
  txBegin h := ⟨_, (lmdb_txBegin h.txn).trans (if_neg (not_not.mpr h.succeed.txnBegin)),
    _, _, rfl, h.succeed, h.holds⟩
  txCommit := by
    rintro _ A ⟨s, table, rfl, hs, hh⟩
    exact ⟨_, lmdb_txCommit.trans (if_neg (not_not.mpr hs.txnCommit)), rfl, hs, hh⟩
  get := by
    rintro _ A iid ⟨s, table, rfl, hs, hh⟩ hiid
    rw [← hh.records iid hiid]
    exact (lmdb_get hh.toWellFormed hiid).trans (if_neg (not_not.mpr hs.get))
  fits := by
    rintro _ A iid acc ⟨s, table, rfl, hs, hh⟩ hiid hr
    exact (hh.toWellFormed.record_spec hiid ((hh.records iid hiid).trans hr)).2
  put := by
    rintro _ A acc ⟨s, table, rfl, hs, hh⟩ hacc
    exact ⟨_, (lmdb_put acc).trans (if_neg (not_not.mpr hs.put)), s, _, rfl, hs, hh.put hacc _⟩
  trim := by
    rintro _ A iid ⟨s, table, rfl, hs, hh⟩ hiid
    exact ⟨_, lmdb_trim hiid hs.put, s, _, rfl, hs, hh.trimmed iid⟩
  getTrimInstance := by
    rintro _ A ⟨s, table, rfl, hs, hh⟩
    exact (lmdb_getTrimInstance hh.toWellFormed hs.get).trans hh.mark_eq

end Lmdb

/-! ## Sequences of transactions

An acceptor uses a backend in transactions: begin, some calls, commit. Since each call simulates
that of the store, so does a transaction, and then every sequence of them. -/

/-- A call inside a transaction. `addr` is where the value of the record lies. -/
inductive StorageOp where
  | put (acc : PaxosAccepted) (addr : UInt64)
  | get (iid : UInt32)
  | trim (iid : UInt32)
  | getTrimInstance

/-- What a call returns. -/
inductive StorageResult where
  | code (rc : Int)
  | record (found : Option PaxosAccepted)
  | trimInstance (iid : UInt32)
deriving DecidableEq

/-- The call is about an instance, and the value can be measured. -/
def StorageOp.InRange : StorageOp → Prop
  | .put acc _ => acc.Storable
  | .get iid => iid ≠ 0
  | .trim iid => iid ≠ 0
  | .getTrimInstance => True

instance (acc : PaxosAccepted) : Decidable acc.Storable :=
  decidable_of_iff (acc.iid ≠ 0 ∧ acc.value.length < 2 ^ 31)
    ⟨fun h => ⟨h.1, h.2⟩, fun h => ⟨h.iid, h.fits⟩⟩

instance : DecidablePred StorageOp.InRange
  | .put acc _ => inferInstanceAs (Decidable acc.Storable)
  | .get iid => inferInstanceAs (Decidable (iid ≠ 0))
  | .trim iid => inferInstanceAs (Decidable (iid ≠ 0))
  | .getTrimInstance => .isTrue trivial

/-- What a committed transaction returns. -/
structure TxResult where
  txBegin : Int
  calls : List StorageResult
  txCommit : Int
deriving DecidableEq

section Transactions

variable {σ : Type}

/-- One call. -/
def storageCall (b : Backend σ) (s : σ) : StorageOp → StorageResult × σ
  | .put acc addr => (b.put (b.place s addr) acc).map .code id
  | .get iid => (.record (b.get s iid), s)
  | .trim iid => (b.trim s iid).map .code id
  | .getTrimInstance => (.trimInstance (b.getTrimInstance s), s)

/-- A transaction: begin, the calls, commit. -/
def storageTx (b : Backend σ) (s : σ) (ops : List StorageOp) : TxResult × σ :=
  let (rc, s) := b.txBegin s
  let (results, s) := run (storageCall b) s ops
  let (rc', s) := b.txCommit s
  ({ txBegin := rc, calls := results, txCommit := rc' }, s)

variable {b : Backend σ} {idle busy : σ → Store → Prop} {s : σ} {A : Store}

theorem Backend.Simulates.storageCall (h : b.Simulates idle busy) (op : StorageOp)
    (hs : busy s A) (hop : op.InRange) :
    (storageCall b s op).1 = (storageCall Store.backend A op).1
      ∧ busy (storageCall b s op).2 (storageCall Store.backend A op).2 := by
  cases op with
  | put acc addr =>
    obtain ⟨s', heq, hs'⟩ := h.put (h.placeBusy addr hs) hop
    have hcall : LibPaxos.storageCall b s (.put acc addr) = (.code 0, s') :=
      congrArg (Prod.map StorageResult.code id) heq
    rw [hcall]
    exact ⟨rfl, hs'⟩
  | get iid => exact ⟨congrArg StorageResult.record (h.get hs hop), hs⟩
  | trim iid =>
    obtain ⟨s', heq, hs'⟩ := h.trim hs hop
    have hcall : LibPaxos.storageCall b s (.trim iid) = (.code 0, s') :=
      congrArg (Prod.map StorageResult.code id) heq
    rw [hcall]
    exact ⟨rfl, hs'⟩
  | getTrimInstance => exact ⟨congrArg StorageResult.trimInstance (h.getTrimInstance hs), hs⟩

theorem Backend.Simulates.storageTx (h : b.Simulates idle busy) (ops : List StorageOp)
    (hs : idle s A) (hops : ∀ op ∈ ops, op.InRange) :
    (storageTx b s ops).1 = (storageTx Store.backend A ops).1
      ∧ idle (storageTx b s ops).2 (storageTx Store.backend A ops).2 := by
  -- idle, busy through the calls, idle again
  obtain ⟨s₁, hbegin, hs₁⟩ := h.txBegin hs
  obtain ⟨hcalls, hs₂⟩ := outputs_eq_of_simulation h.storageCall ops hs₁ hops
  obtain ⟨s₃, hcommit, hs₃⟩ := h.txCommit hs₂
  unfold LibPaxos.storageTx
  simp only [hbegin, hcommit, hcalls]
  exact ⟨rfl, hs₃⟩

/-- **What a backend returns is what the store returns.** -/
theorem Backend.Simulates.results (h : b.Simulates idle busy) (hs : idle s A)
    (txs : List (List StorageOp)) (hops : ∀ ops ∈ txs, ∀ op ∈ ops, op.InRange) :
    (run (LibPaxos.storageTx b) s txs).1 = (run (LibPaxos.storageTx Store.backend) A txs).1 :=
  (outputs_eq_of_simulation h.storageTx txs hs hops).1

end Transactions

/-- **The backends are interchangeable.** On new storage, in every sequence of committed
transactions of calls in range, both backends return what the store returns, whatever ordered map
LMDB is. -/
theorem backends_interchangeable (T : Type) [Mdb T] (txs : List (List StorageOp))
    (hops : ∀ ops ∈ txs, ∀ op ∈ ops, op.InRange) :
    (run (storageTx memBackend) memStorageNew txs).1
        = (run (storageTx Store.backend) Store.empty txs).1
      ∧ (run (storageTx lmdbBackend) (lmdbStorageOpen false (CursorTable.empty : T)) txs).1
        = (run (storageTx Store.backend) Store.empty txs).1 :=
  ⟨simulates_mem.results memStorageNew_holds txs hops,
    simulates_lmdb.results (lmdbStorageOpen_idle Mdb.empty_holds) txs hops⟩

/-- Records with a hole between them, a trim up to the hole and what is left then. -/
def trimmedToHole : List (List StorageOp) :=
  [[.put { iid := 1, ballot := 10, value := [7] } 4096, .put { iid := 5, ballot := 10 } 0],
    [.trim 3], [.get 1, .get 5, .getTrimInstance]]

theorem backends_interchangeable_hole :
    (run (storageTx lmdbBackend) (lmdbStorageOpen false (∅ : MdbTable)) trimmedToHole).1
      = [⟨0, [.code 0, .code 0], 0⟩, ⟨0, [.code 0], 0⟩,
          ⟨0, [.record none, .record (some { iid := 5, ballot := 10 }), .trimInstance 3], 0⟩] :=
  (backends_interchangeable MdbTable trimmedToHole (by decide)).2.trans (by decide)

end LibPaxos
