import LibPaxos.Types

/-!
# Acceptor storage

`storage.h` declares the storage of an acceptor as a handle and a table of calls, one table for
each backend; `StorageApi` is that table. A call that can fail returns 0 on success. The memory
backend of `storage_mem.c` is the default one and the one used below: its transactions are empty
and its calls succeed.
-/

namespace LibPaxos

/-- The calls of `struct storage`, on the handle type `σ` of a backend. -/
structure StorageApi (σ : Type) where
  txBegin : σ → Int × σ
  txCommit : σ → Int × σ
  txAbort : σ → σ
  get : σ → UInt32 → Option PaxosAccepted
  put : σ → PaxosAccepted → Int × σ
  trim : σ → UInt32 → Int × σ
  getTrimInstance : σ → UInt32

/-! ## The memory backend -/

/-- `struct mem_storage`. -/
structure MemStorage where
  trimIid : UInt32
  records : KHash PaxosAccepted

/-- `mem_storage_new`. -/
def memStorageNew : MemStorage where
  trimIid := 0
  records := ∅

/-- `mem_storage_get`. -/
def memStorageGet (s : MemStorage) (iid : UInt32) : Option PaxosAccepted :=
  s.records.lookup iid

/-- `mem_storage_put`: the record replaces one that is already present. -/
def memStoragePut (s : MemStorage) (acc : PaxosAccepted) : Int × MemStorage :=
  (0, { s with records := s.records.insert acc.iid acc })

/-- `mem_storage_trim`: one sweep over the buckets. -/
def memStorageTrim (s : MemStorage) (iid : UInt32) : Int × MemStorage :=
  (0, { trimIid := iid, records := s.records.filter fun acc => ¬ acc.iid ≤ iid })

/-- `mem_storage_get_trim_instance`. -/
def memStorageGetTrimInstance (s : MemStorage) : UInt32 :=
  s.trimIid

/-- `storage_init_mem`. -/
def storageInitMem : StorageApi MemStorage where
  txBegin s := (0, s)
  txCommit s := (0, s)
  txAbort s := s
  get := memStorageGet
  put := memStoragePut
  trim := memStorageTrim
  getTrimInstance := memStorageGetTrimInstance

end LibPaxos
