import LibPaxos.KhashMap
import LibPaxos.AcceptorDurable

/-!
# The memory backend over its hash table

`storage_mem.c` keeps the records in a table of `khash.h`. Over the table itself a put can fail,
when `kh_put` is refused memory; the acceptor then aborts and stays silent. Otherwise the backend
returns what `MemStorage` returns, whose table is a map.

The records themselves are copied to memory of their own. These allocations are not checked, so a
call whose copy gets no memory ends the process.

* **`khMemStorage_results`** — what the calls return, in any sequence of calls.
* **`khAcceptor_replies`** — an acceptor over the table replies as one over the map that never got
  the requests for which memory was refused.
-/

namespace LibPaxos

/-! ## The backend -/

/-- `struct mem_storage`, with the table as it lies in memory. -/
structure KhMemStorage where
  trimIid : UInt32
  records : Khash UInt32 PaxosAccepted

/-- `mem_storage_new`. -/
def khMemStorageNew : KhMemStorage where
  trimIid := 0
  records := khInit

/-- What becomes of the allocations of a call: those for a record and for the bytes of its value,
and those of `kh_put`. -/
structure MemAllocs where
  record : Bool := true
  value : Bool := true
  table : KhAllocs UInt32 PaxosAccepted

/-- `paxos_accepted_copy`. The destination and the copy of the value may be null pointers. -/
def paxosAcceptedCopy (dst value : Bool) (src : PaxosAccepted) : Except Fault PaxosAccepted :=
  if dst = false then .error .nullPointer
  else if 0 < src.value.length ∧ value = false then .error .nullPointer
  else .ok src

section Backend

variable (fuel : Nat)

/-- `mem_storage_get`. -/
def khMemStorageGet (alloc : MemAllocs) (s : KhMemStorage) (iid : UInt32) :
    OptionT (Except Fault) (Option PaxosAccepted) := do
  match ← khLookup id fuel s.records iid with
  | none => pure none
  | some record => do
    let out ← OptionT.lift (paxosAcceptedCopy true alloc.value record)
    pure (some out)

/-- `mem_storage_put`. -/
def khMemStoragePut (alloc : MemAllocs) (s : KhMemStorage) (acc : PaxosAccepted) :
    OptionT (Except Fault) (Int × KhMemStorage) := do
  let record ← OptionT.lift (paxosAcceptedCopy alloc.record alloc.value acc)
  let (records, rv) ← khPutValue id fuel alloc.table s.records acc.iid record
  pure (if rv = -1 then -1 else 0, { s with records := records })

/-- `mem_storage_trim`. -/
def khMemStorageTrim (s : KhMemStorage) (iid : UInt32) :
    OptionT (Except Fault) (Int × KhMemStorage) := do
  let records ← OptionT.lift (khSweep (fun acc => decide (acc.iid ≤ iid)) s.records)
  pure (0, { trimIid := iid, records := records })

/-- One call. -/
def khMemStorageCall (alloc : MemAllocs) (s : KhMemStorage) :
    StorageOp → OptionT (Except Fault) (StorageResult × KhMemStorage)
  | .put acc _ => do
    let (rc, s) ← khMemStoragePut fuel alloc s acc
    pure (.code rc, s)
  | .get iid => do
    let found ← khMemStorageGet fuel alloc s iid
    pure (.record found, s)
  | .trim iid => do
    let (rc, s) ← khMemStorageTrim s iid
    pure (.code rc, s)
  | .getTrimInstance => pure (.trimInstance s.trimIid, s)

/-- A sequence of calls. -/
def khMemStorageRun (s : KhMemStorage) :
    List (MemAllocs × StorageOp) → OptionT (Except Fault) (List StorageResult × KhMemStorage)
  | [] => pure ([], s)
  | (alloc, op) :: calls => do
    let (r, s) ← khMemStorageCall fuel alloc s op
    let (rs, s) ← khMemStorageRun s calls
    pure (r :: rs, s)

end Backend

/-- The backend has the records of `m`. -/
structure KhMemStorage.Holds (s : KhMemStorage) (m : MemStorage) : Prop where
  trimIid : s.trimIid = m.trimIid
  records : s.records.Holds id m.records

theorem khMemStorageNew_holds : khMemStorageNew.Holds memStorageNew where
  trimIid := rfl
  records := khInit_holds id

/-- The number of records. -/
def MemStorage.size (m : MemStorage) : Nat :=
  m.records.entries.length

theorem memStoragePut_size (m : MemStorage) (acc : PaxosAccepted) :
    (memStoragePut m acc).2.size ≤ m.size + 1 :=
  Nat.succ_le_succ (List.kerase_sublist acc.iid m.records.entries).length_le

theorem memStorageTrim_size (m : MemStorage) (iid : UInt32) :
    (memStorageTrim m iid).2.size ≤ m.size :=
  List.length_filter_le _ _

/-! ## One call

A copy either has its memory or ends the process, and a put that has its copy is either refused by
the table or carried out. Which of these happens is decided before the call. -/

/-- A copy of the record lacks memory. -/
def CopyFails (dst value : Bool) (src : PaxosAccepted) : Prop :=
  dst = false ∨ 0 < src.value.length ∧ value = false

theorem paxosAcceptedCopy_fails {dst value : Bool} {src : PaxosAccepted}
    (h : CopyFails dst value src) : paxosAcceptedCopy dst value src = .error .nullPointer := by
  unfold paxosAcceptedCopy
  split
  · rfl
  · next hdst => rw [if_pos (h.resolve_left hdst)]

theorem paxosAcceptedCopy_eq {dst value : Bool} {src : PaxosAccepted}
    (h : ¬ CopyFails dst value src) : paxosAcceptedCopy dst value src = .ok src := by
  unfold paxosAcceptedCopy
  rw [if_neg fun hdst => h (.inl hdst), if_neg fun hvalue => h (.inr hvalue)]

section Calls

variable {fuel : Nat} {s : KhMemStorage} {m : MemStorage} (alloc : MemAllocs)

theorem KhMemStorage.Holds.get (hs : s.Holds m) (hfuel : 2 ^ 32 ≤ fuel) {iid : UInt32}
    (hcopy : ∀ acc, memStorageGet m iid = some acc → ¬ CopyFails true alloc.value acc) :
    khMemStorageGet fuel alloc s iid = pure (memStorageGet m iid) := by
  rw [khMemStorageGet, khLookup_spec hs.records hfuel iid, pure_bind]
  show _ = pure (m.records.lookup iid)
  cases hfound : m.records.lookup iid with
  | none => rfl
  | some acc =>
    show (OptionT.lift (paxosAcceptedCopy true alloc.value acc) >>= fun out => pure (some out)) = _
    rw [paxosAcceptedCopy_eq (hcopy acc hfound), lift_ok_bind]

/-- **A put** stores the record, or is refused memory and changes nothing. -/
theorem KhMemStorage.Holds.put (hs : s.Holds m) (hfuel : 2 ^ 32 ≤ fuel) (hsize : m.size < 2 ^ 30)
    {acc : PaxosAccepted} (hcopy : ¬ CopyFails alloc.record alloc.value acc) :
    ∃ rc s', khMemStoragePut fuel alloc s acc = pure (rc, s') ∧
      ((rc = -1 ∧ s.records.Starved alloc.table ∧ s'.Holds m) ∨
        (rc = 0 ∧ ¬ s.records.Starved alloc.table ∧ s'.Holds (memStoragePut m acc).2)) := by
  have hrecord : ∀ {h' ret}, khPutValue id fuel alloc.table s.records acc.iid acc = pure (h', ret) →
      khMemStoragePut fuel alloc s acc
        = pure (if ret = -1 then -1 else 0, { s with records := h' }) := by
    intro h' ret hput
    rw [khMemStoragePut, paxosAcceptedCopy_eq hcopy, lift_ok_bind, hput, pure_bind]
  obtain ⟨h', ret, hput, ⟨rfl, hno, hh⟩ | ⟨hret, hyes, hh⟩⟩ :=
    khPutValue_spec alloc.table hs.records hfuel hsize acc.iid acc
  · exact ⟨-1, { s with records := h' }, hrecord hput, .inl ⟨rfl, hno, hs.trimIid, hh⟩⟩
  · have hne : ret ≠ -1 := by
      split at hret
      · rw [hret]
        decide
      · obtain rfl | rfl := hret <;> decide
    refine ⟨0, { s with records := h' }, ?_, .inr ⟨rfl, hyes, hs.trimIid, hh⟩⟩
    rw [hrecord hput, if_neg hne]

/-- **A trim** leaves the records above the instance. -/
theorem KhMemStorage.Holds.trim (hs : s.Holds m) (iid : UInt32) :
    ∃ s', khMemStorageTrim s iid = pure (0, s') ∧ s'.Holds (memStorageTrim m iid).2 := by
  obtain ⟨h', hsweep, hh⟩ := khSweep_spec hs.records fun acc => decide (acc.iid ≤ iid)
  refine ⟨{ trimIid := iid, records := h' }, ?_, rfl, ?_⟩
  · rw [khMemStorageTrim, hsweep, lift_ok_bind]
  · have hkeep : (fun acc : PaxosAccepted => !decide (acc.iid ≤ iid))
        = fun acc => decide (¬ acc.iid ≤ iid) := by
      funext acc
      exact decide_not.symm
    rw [hkeep] at hh
    exact hh

end Calls

/-- A call copies a record without memory: the record of a put, or the one that a get finds. -/
def MemStorage.Dies (m : MemStorage) (alloc : MemAllocs) : StorageOp → Prop
  | .put acc _ => CopyFails alloc.record alloc.value acc
  | .get iid => ∃ acc, memStorageGet m iid = some acc ∧ CopyFails true alloc.value acc
  | .trim _ | .getTrimInstance => False

/-- The table has no memory for the call. -/
def KhMemStorage.Refuses (s : KhMemStorage) (alloc : MemAllocs) : StorageOp → Prop
  | .put _ _ => s.records.Starved alloc.table
  | .get _ | .trim _ | .getTrimInstance => False

/-! ## Sequences of calls

What a sequence of calls returns is stated with the records in a map, next to the storage that has
them in the table: the storage says which puts the table refuses. -/

/-- What a sequence of calls returns. A call that is refused returns -1 and does nothing, and any
other returns what it returns with the records in a map. -/
inductive KhMemStorage.Returns (fuel : Nat) :
    KhMemStorage → MemStorage → List (MemAllocs × StorageOp) → List StorageResult →
      KhMemStorage → MemStorage → Prop
  | nil (s : KhMemStorage) (m : MemStorage) : Returns fuel s m [] [] s m
  | served {s s₁ s' : KhMemStorage} {m m' : MemStorage} {alloc : MemAllocs} {op : StorageOp}
    {calls : List (MemAllocs × StorageOp)} {rs : List StorageResult}
    (hnext : khMemStorageCall fuel alloc s op = pure ((storageCall memBackend m op).1, s₁))
    (hyes : ¬ s.Refuses alloc op)
    (hrest : Returns fuel s₁ (storageCall memBackend m op).2 calls rs s' m') :
    Returns fuel s m ((alloc, op) :: calls) ((storageCall memBackend m op).1 :: rs) s' m'
  | refused {s s₁ s' : KhMemStorage} {m m' : MemStorage} {alloc : MemAllocs} {op : StorageOp}
    {calls : List (MemAllocs × StorageOp)} {rs : List StorageResult}
    (hnext : khMemStorageCall fuel alloc s op = pure (.code (-1), s₁))
    (hno : s.Refuses alloc op) (hrest : Returns fuel s₁ m calls rs s' m') :
    Returns fuel s m ((alloc, op) :: calls) (.code (-1) :: rs) s' m'

section Runs

variable {fuel : Nat} {s : KhMemStorage} {m : MemStorage}

/-- **One call** that has memory for its copy is served as over the map, or is refused. -/
theorem khMemStorageCall_spec (hs : s.Holds m) (hfuel : 2 ^ 32 ≤ fuel) (hsize : m.size < 2 ^ 30)
    {alloc : MemAllocs} {op : StorageOp} (hlives : ¬ m.Dies alloc op) :
    ∃ r s', khMemStorageCall fuel alloc s op = pure (r, s') ∧
      ((r = (storageCall memBackend m op).1 ∧ ¬ s.Refuses alloc op ∧
          s'.Holds (storageCall memBackend m op).2) ∨
        (r = .code (-1) ∧ s.Refuses alloc op ∧ s'.Holds m)) := by
  cases op with
  | put acc addr =>
    obtain ⟨rc, s', hput, ⟨rfl, hno, hs'⟩ | ⟨rfl, hyes, hs'⟩⟩ := hs.put alloc hfuel hsize hlives
    · exact ⟨_, s', by rw [khMemStorageCall, hput, pure_bind], .inr ⟨rfl, hno, hs'⟩⟩
    · exact ⟨.code 0, s', by rw [khMemStorageCall, hput, pure_bind], .inl ⟨rfl, hyes, hs'⟩⟩
  | get iid =>
    have hget := hs.get alloc hfuel fun acc hacc hfails => hlives ⟨acc, hacc, hfails⟩
    exact ⟨.record (memStorageGet m iid), s, by rw [khMemStorageCall, hget, pure_bind],
      .inl ⟨rfl, id, hs⟩⟩
  | trim iid =>
    obtain ⟨s', htrim, hs'⟩ := hs.trim iid
    exact ⟨.code 0, s', by rw [khMemStorageCall, htrim, pure_bind], .inl ⟨rfl, id, hs'⟩⟩
  | getTrimInstance =>
    exact ⟨_, s, rfl, .inl ⟨congrArg StorageResult.trimInstance hs.trimIid, id, hs⟩⟩

/-- A call without memory for its copy writes through a null pointer. -/
theorem khMemStorageCall_dies (hs : s.Holds m) (hfuel : 2 ^ 32 ≤ fuel) {alloc : MemAllocs}
    {op : StorageOp} (hdies : m.Dies alloc op) :
    khMemStorageCall fuel alloc s op = OptionT.lift (.error .nullPointer) := by
  cases op with
  | put acc addr =>
    rw [khMemStorageCall, khMemStoragePut, paxosAcceptedCopy_fails hdies]
    rfl
  | get iid =>
    obtain ⟨acc, hfound, hfails⟩ := hdies
    have hlookup : khLookup id fuel s.records iid = pure (some acc) :=
      (khLookup_spec hs.records hfuel iid).trans (congrArg pure hfound)
    rw [khMemStorageCall, khMemStorageGet, hlookup, pure_bind]
    show (OptionT.lift (paxosAcceptedCopy true alloc.value acc) >>= _) >>= _ = _
    rw [paxosAcceptedCopy_fails hfails]
    rfl
  | trim | getTrimInstance => exact hdies.elim

theorem storageCall_size (m : MemStorage) (op : StorageOp) :
    (storageCall memBackend m op).2.size ≤ m.size + 1 := by
  cases op with
  | put acc addr => exact memStoragePut_size m acc
  | get iid => exact Nat.le_succ _
  | trim iid => exact Nat.le_succ_of_le (memStorageTrim_size m iid)
  | getTrimInstance => exact Nat.le_succ _

/-- The run has ended with the results, or with a call that had no memory for its copy. -/
inductive KhMemStorage.Ends (fuel : Nat) (s : KhMemStorage) (m : MemStorage)
    (calls : List (MemAllocs × StorageOp)) : Prop
  | returns {rs : List StorageResult} {s' : KhMemStorage} {m' : MemStorage}
    (hrun : khMemStorageRun fuel s calls = pure (rs, s')) (hret : s.Returns fuel m calls rs s' m')
    (hs' : s'.Holds m') : Ends fuel s m calls
  | dies {before after : List (MemAllocs × StorageOp)} {alloc : MemAllocs} {op : StorageOp}
    {rs : List StorageResult} {s' : KhMemStorage} {m' : MemStorage}
    (heq : calls = before ++ (alloc, op) :: after)
    (hrun : khMemStorageRun fuel s calls = OptionT.lift (.error .nullPointer))
    (hret : s.Returns fuel m before rs s' m') (hdies : m'.Dies alloc op) : Ends fuel s m calls

/-- A call that returns goes before what comes after it. -/
theorem KhMemStorage.Ends.cons {s₁ : KhMemStorage} {m₁ : MemStorage} {alloc : MemAllocs}
    {op : StorageOp} {r : StorageResult} {calls : List (MemAllocs × StorageOp)}
    (hcall : khMemStorageCall fuel alloc s op = pure (r, s₁))
    (hstep : ∀ {calls rs s' m'}, s₁.Returns fuel m₁ calls rs s' m' →
      s.Returns fuel m ((alloc, op) :: calls) (r :: rs) s' m')
    (hends : s₁.Ends fuel m₁ calls) : s.Ends fuel m ((alloc, op) :: calls) := by
  have hrun : khMemStorageRun fuel s ((alloc, op) :: calls)
      = khMemStorageRun fuel s₁ calls >>= fun x => pure (r :: x.1, x.2) := by
    rw [khMemStorageRun, hcall, pure_bind]
  cases hends with
  | returns hrest hret hs' =>
    refine .returns ?_ (hstep hret) hs'
    rw [hrun, hrest, pure_bind]
  | dies heq hrest hret hdies =>
    refine .dies (congrArg _ heq) ?_ (hstep hret) hdies
    rw [hrun, hrest]
    rfl

theorem khMemStorageRun_ends (hfuel : 2 ^ 32 ≤ fuel) (calls : List (MemAllocs × StorageOp))
    (hs : s.Holds m) (hsize : m.size + calls.length ≤ 2 ^ 30) : s.Ends fuel m calls := by
  induction calls generalizing s m with
  | nil => exact .returns rfl (.nil s m) hs
  | cons call calls ih =>
    obtain ⟨alloc, op⟩ := call
    rw [List.length_cons] at hsize
    by_cases hdies : m.Dies alloc op
    · refine .dies rfl ?_ (.nil s m) hdies
      rw [khMemStorageRun, khMemStorageCall_dies hs hfuel hdies]
      rfl
    · obtain ⟨r, s₁, hcall, ⟨rfl, hyes, hs₁⟩ | ⟨rfl, hno, hs₁⟩⟩ :=
        khMemStorageCall_spec hs hfuel (by omega) hdies
      · have hgrow := storageCall_size m op
        exact .cons hcall (.served hcall hyes) (ih hs₁ (by omega))
      · exact .cons hcall (.refused hcall hno) (ih hs₁ (by omega))

/-- **The memory backend over the hash table.** Every sequence of at most `2 ^ 30` calls on new
storage returns, without an access outside the arrays of the table, what it returns with the records
in a map, except for the puts that the table has no memory for; the records are those of the map in
the end. Or one of the calls has no memory for the copy of its record, and the process ends there
with a null pointer. -/
theorem khMemStorage_results (hfuel : 2 ^ 32 ≤ fuel) (calls : List (MemAllocs × StorageOp))
    (hlen : calls.length ≤ 2 ^ 30) : khMemStorageNew.Ends fuel memStorageNew calls :=
  khMemStorageRun_ends hfuel calls khMemStorageNew_holds (show 0 + calls.length ≤ 2 ^ 30 by omega)

end Runs

/-- Allocations that succeed, in memory full of records of an instance. -/
def recordsOf (iid : UInt32) : MemAllocs where
  table := { junkKeys := fun _ => iid, junkVals := fun _ => { zeroRecord with iid := iid } }

/-- The table gets no memory for its keys. -/
def withoutKeys : MemAllocs where
  table := { (recordsOf 1).table with keys := false }

/-- Records of instances that collide in the table, one of them without memory, and a trim. -/
def collidingRecords : List (MemAllocs × StorageOp) :=
  [(recordsOf 1, .put { iid := 8, ballot := 1 } 0),
    (recordsOf 2, .put { iid := 16, ballot := 1 } 0),
    (recordsOf 3, .put { iid := 24, ballot := 1 } 0),
    (withoutKeys, .put { iid := 32, ballot := 1 } 0), (recordsOf 4, .trim 16),
    (recordsOf 5, .get 32), (recordsOf 6, .get 24), (recordsOf 7, .getTrimInstance)]

theorem khMemStorage_results_colliding :
    khMemStorageNew.Ends (2 ^ 32) memStorageNew collidingRecords :=
  khMemStorage_results (Nat.le_refl _) collidingRecords (by decide)

/-! ## The acceptor

An acceptor aborts the transaction if a put fails, and does not answer. Over the table it is then in
the state of an acceptor over the map that the request never reached. The copies of the records are
taken to have their memory: without it there is no acceptor that could answer. -/

/-- What a call returns. There is no result if a bound on a loop is too small or memory is accessed
outside an array; the call then counts as one that failed. -/
def returned {β : Type} (failed : β) (call : OptionT (Except Fault) β) : β :=
  match call.run with
  | .ok (some r) => r
  | _ => failed

@[simp] theorem returned_pure {β : Type} (failed r : β) : returned failed (pure r) = r := rfl

/-- `storage_init_mem`, over the table. -/
def khStorageInitMem (fuel : Nat) (alloc : MemAllocs) : StorageApi KhMemStorage where
  txBegin s := (0, s)
  txCommit s := (0, s)
  txAbort s := s
  get s iid := returned none (khMemStorageGet fuel alloc s iid)
  put s acc := returned (-1, s) (khMemStoragePut fuel alloc s acc)
  trim s iid := returned (-1, s) (khMemStorageTrim s iid)
  getTrimInstance s := s.trimIid

/-- There is memory for copies of records. -/
structure MemAllocs.Copies (alloc : MemAllocs) : Prop where
  record : alloc.record = true
  value : alloc.value = true

theorem MemAllocs.Copies.not_fails {alloc : MemAllocs} (hc : alloc.Copies) {dst : Bool}
    (hdst : dst = true) (acc : PaxosAccepted) : ¬ CopyFails dst alloc.value acc := by
  simp [CopyFails, hc.value, hdst]

/-- The acceptor writes a record for the request. -/
def MemAcceptor.Writes (b : MemAcceptor) : AcceptorOp → Prop
  | .receivePrepare req =>
    ¬ req.iid ≤ b.trimIid ∧ Admitted (memStorageGet b.store req.iid) req.ballot
  | .receiveAccept req =>
    ¬ req.iid ≤ b.trimIid ∧ Admitted (memStorageGet b.store req.iid) req.ballot
  | .receiveTrim _ | .receiveRepeat _ => False

/-- The request is lost: a record is to be written, and the table has no memory for it. -/
def Acceptor.Loses (a : Acceptor KhMemStorage) (b : MemAcceptor) (alloc : MemAllocs)
    (op : AcceptorOp) : Prop :=
  b.Writes op ∧ a.store.records.Starved alloc.table

/-- What an acceptor over the table replies to a sequence of requests, next to one over the map that
those requests never reach that are lost: they are answered by silence. -/
inductive Acceptor.Replies (fuel : Nat) :
    Acceptor KhMemStorage → MemAcceptor → List (MemAllocs × AcceptorOp) → List AcceptorReply →
      MemAcceptor → Prop
  | nil (a : Acceptor KhMemStorage) (b : MemAcceptor) : Replies fuel a b [] [] b
  | served {a : Acceptor KhMemStorage} {b b' : MemAcceptor} {alloc : MemAllocs} {op : AcceptorOp}
    {reqs : List (MemAllocs × AcceptorOp)} {rs : List AcceptorReply} (hyes : ¬ a.Loses b alloc op)
    (hrest : Replies fuel (acceptorHandle (khStorageInitMem fuel alloc) a op).2
      (acceptorHandle storageInitMem b op).2 reqs rs b') :
    Replies fuel a b ((alloc, op) :: reqs) ((acceptorHandle storageInitMem b op).1 :: rs) b'
  | lost {a : Acceptor KhMemStorage} {b b' : MemAcceptor} {alloc : MemAllocs} {op : AcceptorOp}
    {reqs : List (MemAllocs × AcceptorOp)} {rs : List AcceptorReply} (hno : a.Loses b alloc op)
    (hrest : Replies fuel (acceptorHandle (khStorageInitMem fuel alloc) a op).2 b reqs rs b') :
    Replies fuel a b ((alloc, op) :: reqs) (.message none :: rs) b'

/-- The acceptor `a` over the table is in the state of `b` over the map. -/
structure Acceptor.Mirrors (a : Acceptor KhMemStorage) (b : MemAcceptor) : Prop where
  id : a.id = b.id
  trimIid : a.trimIid = b.trimIid
  store : a.store.Holds b.store

section Acceptor

variable {fuel : Nat} {a : Acceptor KhMemStorage} {b : MemAcceptor} {alloc : MemAllocs}

/-- What becomes of a request that may be lost: `x` over the table, and `y` over the map. -/
def Served (lost : Prop) (x : Acceptor KhMemStorage × Option PaxosMessage)
    (y : MemAcceptor × Option PaxosMessage) (b : MemAcceptor) : Prop :=
  (¬ lost ∧ x.2 = y.2 ∧ x.1.Mirrors y.1) ∨ (lost ∧ x.2 = none ∧ x.1.Mirrors b)

theorem get_khStorageInitMem (hm : a.Mirrors b) (hc : alloc.Copies) (hfuel : 2 ^ 32 ≤ fuel)
    (iid : UInt32) :
    (khStorageInitMem fuel alloc).get a.store iid = storageInitMem.get b.store iid := by
  show returned none (khMemStorageGet fuel alloc a.store iid) = _
  rw [hm.store.get alloc hfuel fun acc _ => hc.not_fails rfl acc, returned_pure]
  rfl

/-- The tail of both handlers that write. -/
theorem putAndAnswer_served (hm : a.Mirrors b) (hc : alloc.Copies) (hfuel : 2 ^ 32 ≤ fuel)
    (hsize : b.store.size < 2 ^ 30) (acc : PaxosAccepted) (out : Option PaxosMessage) :
    Served (a.store.records.Starved alloc.table)
      (putAndAnswer (khStorageInitMem fuel alloc) a a.store acc out)
      (putAndAnswer storageInitMem b b.store acc out) b := by
  have hapi : ∀ {r}, khMemStoragePut fuel alloc a.store acc = pure r →
      (khStorageInitMem fuel alloc).put a.store acc = r := by
    intro r hput
    show returned _ (khMemStoragePut fuel alloc a.store acc) = _
    rw [hput, returned_pure]
  obtain ⟨rc, s', hput, ⟨rfl, hno, hs'⟩ | ⟨rfl, hyes, hs'⟩⟩ :=
    hm.store.put alloc hfuel hsize (hc.not_fails hc.record acc)
  · refine .inr ⟨hno, ?_⟩
    unfold putAndAnswer
    rw [hapi hput]
    exact ⟨rfl, hm.id, hm.trimIid, hs'⟩
  · refine .inl ⟨hyes, ?_⟩
    unfold putAndAnswer
    rw [hapi hput]
    exact ⟨rfl, hm.id, hm.trimIid, hs'⟩

/-- A request that writes is lost if the table is starved. -/
theorem Served.of_writes {writes starved : Prop} {x : Acceptor KhMemStorage × Option PaxosMessage}
    {y : MemAcceptor × Option PaxosMessage} (hw : writes) (h : Served starved x y b) :
    Served (writes ∧ starved) x y b :=
  h.imp (fun ⟨hyes, hrest⟩ => ⟨fun hlost => hyes hlost.2, hrest⟩)
    fun ⟨hno, hrest⟩ => ⟨⟨hw, hno⟩, hrest⟩

theorem receivePrepare_served (hm : a.Mirrors b) (hc : alloc.Copies) (hfuel : 2 ^ 32 ≤ fuel)
    (hsize : b.store.size < 2 ^ 30) (req : PaxosPrepare) :
    Served (a.Loses b alloc (.receivePrepare req))
      (acceptorReceivePrepare (khStorageInitMem fuel alloc) a req)
      (acceptorReceivePrepare storageInitMem b req) b := by
  rw [acceptorReceivePrepare_eq, acceptorReceivePrepare_eq, hm.trimIid]
  split
  · next hle => exact .inl ⟨fun hlost => hlost.1.1 hle, rfl, hm⟩
  · next hlt =>
    show Served _ (answerPrepare _ a req a.store) (answerPrepare storageInitMem b req b.store) b
    unfold answerPrepare
    rw [get_khStorageInitMem hm hc hfuel, hm.id]
    split
    · next hadmitted =>
      exact .of_writes ⟨hlt, hadmitted⟩ (putAndAnswer_served hm hc hfuel hsize _ _)
    · next hrefused => exact .inl ⟨fun hlost => hrefused hlost.1.2, rfl, hm⟩

theorem receiveAccept_served (hm : a.Mirrors b) (hc : alloc.Copies) (hfuel : 2 ^ 32 ≤ fuel)
    (hsize : b.store.size < 2 ^ 30) (req : PaxosAccept) :
    Served (a.Loses b alloc (.receiveAccept req))
      (acceptorReceiveAccept (khStorageInitMem fuel alloc) a req)
      (acceptorReceiveAccept storageInitMem b req) b := by
  rw [acceptorReceiveAccept_eq, acceptorReceiveAccept_eq, hm.trimIid]
  split
  · next hle => exact .inl ⟨fun hlost => hlost.1.1 hle, rfl, hm⟩
  · next hlt =>
    show Served _ (answerAccept _ a req a.store) (answerAccept storageInitMem b req b.store) b
    unfold answerAccept
    rw [get_khStorageInitMem hm hc hfuel, hm.id]
    split
    · next hadmitted =>
      exact .of_writes ⟨hlt, hadmitted⟩ (putAndAnswer_served hm hc hfuel hsize _ _)
    · next hrefused => exact .inl ⟨fun hlost => hrefused hlost.1.2, rfl, hm⟩

/-- **One request** is answered as over the map, or it is lost and nothing happened. -/
theorem acceptorHandle_served (hm : a.Mirrors b) (hc : alloc.Copies) (hfuel : 2 ^ 32 ≤ fuel)
    (hsize : b.store.size < 2 ^ 30) (op : AcceptorOp) :
    (¬ a.Loses b alloc op ∧
        (acceptorHandle (khStorageInitMem fuel alloc) a op).1
          = (acceptorHandle storageInitMem b op).1 ∧
        (acceptorHandle (khStorageInitMem fuel alloc) a op).2.Mirrors
          (acceptorHandle storageInitMem b op).2) ∨
      (a.Loses b alloc op ∧
        (acceptorHandle (khStorageInitMem fuel alloc) a op).1 = .message none ∧
        (acceptorHandle (khStorageInitMem fuel alloc) a op).2.Mirrors b) := by
  cases op with
  | receivePrepare req =>
    obtain ⟨hyes, hout, hm'⟩ | ⟨hno, hout, hm'⟩ := receivePrepare_served hm hc hfuel hsize req
    · exact .inl ⟨hyes, congrArg AcceptorReply.message hout, hm'⟩
    · exact .inr ⟨hno, congrArg AcceptorReply.message hout, hm'⟩
  | receiveAccept req =>
    obtain ⟨hyes, hout, hm'⟩ | ⟨hno, hout, hm'⟩ := receiveAccept_served hm hc hfuel hsize req
    · exact .inl ⟨hyes, congrArg AcceptorReply.message hout, hm'⟩
    · exact .inr ⟨hno, congrArg AcceptorReply.message hout, hm'⟩
  | receiveTrim trim =>
    -- only records that are written can lack memory
    refine .inl ⟨fun hlost => hlost.1, ?_⟩
    obtain ⟨s', htrim, hs'⟩ := hm.store.trim trim.iid
    have hapi : (khStorageInitMem fuel alloc).trim a.store trim.iid = (0, s') := by
      show returned _ (khMemStorageTrim a.store trim.iid) = _
      rw [htrim, returned_pure]
    unfold acceptorHandle
    simp only [acceptorReceiveTrim_eq, hm.trimIid]
    split
    · exact ⟨rfl, hm⟩
    · refine ⟨rfl, hm.id, rfl, ?_⟩
      show ((khStorageInitMem fuel alloc).trim a.store trim.iid).2.Holds _
      rw [hapi]
      exact hs'
  | receiveRepeat iid =>
    refine .inl ⟨fun hlost => hlost.1, congrArg AcceptorReply.message ?_, hm⟩
    show repeatOf ((khStorageInitMem fuel alloc).get a.store iid) = _
    rw [get_khStorageInitMem hm hc hfuel]
    rfl

end Acceptor

/-- An acceptor over the table handles requests, each with what becomes of its allocations. -/
def khAcceptorRun (fuel : Nat) (a : Acceptor KhMemStorage) :
    List (MemAllocs × AcceptorOp) → List AcceptorReply × Acceptor KhMemStorage :=
  Outputs.run (fun a req => acceptorHandle (khStorageInitMem fuel req.1) a req.2) a

/-- A request adds at most one record. -/
theorem acceptorHandle_size (b : MemAcceptor) (op : AcceptorOp) :
    (acceptorHandle storageInitMem b op).2.store.size ≤ b.store.size + 1 := by
  cases op with
  | receivePrepare req =>
    -- a request writes one record at most
    show (acceptorReceivePrepare storageInitMem b req).1.store.size ≤ _
    rw [acceptorReceivePrepare_eq]
    split
    · exact Nat.le_succ _
    · show (answerPrepare storageInitMem b req b.store).1.store.size ≤ _
      unfold answerPrepare
      split
      · exact memStoragePut_size b.store _
      · exact Nat.le_succ _
  | receiveAccept req =>
    show (acceptorReceiveAccept storageInitMem b req).1.store.size ≤ _
    rw [acceptorReceiveAccept_eq]
    split
    · exact Nat.le_succ _
    · show (answerAccept storageInitMem b req b.store).1.store.size ≤ _
      unfold answerAccept
      split
      · exact memStoragePut_size b.store _
      · exact Nat.le_succ _
  | receiveTrim trim =>
    show (acceptorReceiveTrim storageInitMem b trim).1.store.size ≤ _
    rw [acceptorReceiveTrim_eq]
    split
    · exact Nat.le_succ _
    · exact Nat.le_succ_of_le (memStorageTrim_size b.store trim.iid)
  | receiveRepeat iid => exact Nat.le_succ _

section Runs

variable {fuel : Nat} {a : Acceptor KhMemStorage} {b : MemAcceptor}

theorem khAcceptorRun_spec (hfuel : 2 ^ 32 ≤ fuel) (reqs : List (MemAllocs × AcceptorOp))
    (hcopies : ∀ req ∈ reqs, req.1.Copies) (hm : a.Mirrors b)
    (hsize : b.store.size + reqs.length ≤ 2 ^ 30) :
    ∃ b', a.Replies fuel b reqs (khAcceptorRun fuel a reqs).1 b' ∧
      (khAcceptorRun fuel a reqs).2.Mirrors b' := by
  induction reqs generalizing a b with
  | nil => exact ⟨b, .nil a b, hm⟩
  | cons req reqs ih =>
    obtain ⟨alloc, op⟩ := req
    rw [List.length_cons] at hsize
    have hgrow := acceptorHandle_size b op
    obtain ⟨hc, hcopies⟩ := List.forall_mem_cons.mp hcopies
    obtain ⟨hyes, hout, hm'⟩ | ⟨hno, hout, hm'⟩ :=
      acceptorHandle_served hm hc hfuel (by omega) op
    · obtain ⟨b', hrest, hlast⟩ := ih hcopies hm' (by omega)
      refine ⟨b', ?_, hlast⟩
      have hserved := Acceptor.Replies.served hyes hrest
      rw [← hout] at hserved
      exact hserved
    · obtain ⟨b', hrest, hlast⟩ := ih hcopies hm' (by omega)
      refine ⟨b', ?_, hlast⟩
      have hlost := Acceptor.Replies.lost hno hrest
      rw [← hout] at hlost
      exact hlost

/-- **Refused memory is a lost request.** If there is memory for the copies of records, an acceptor
over the hash table replies to every sequence of at most `2 ^ 30` requests as an acceptor over the
map that some of them never reach: those that write a record and for which an allocation of the
table fails. -/
theorem khAcceptor_replies (hfuel : 2 ^ 32 ≤ fuel) (id : Nat)
    (reqs : List (MemAllocs × AcceptorOp)) (hcopies : ∀ req ∈ reqs, req.1.Copies)
    (hlen : reqs.length ≤ 2 ^ 30) :
    ∃ b, (⟨id, 0, khMemStorageNew⟩ : Acceptor KhMemStorage).Replies fuel (memAcceptorNew id) reqs
        (khAcceptorRun fuel ⟨id, 0, khMemStorageNew⟩ reqs).1 b ∧
      (khAcceptorRun fuel ⟨id, 0, khMemStorageNew⟩ reqs).2.Mirrors b :=
  khAcceptorRun_spec hfuel reqs hcopies ⟨rfl, rfl, khMemStorageNew_holds⟩
    (show 0 + reqs.length ≤ 2 ^ 30 by omega)

end Runs

/-- A promise without memory for the table, then one with. -/
def promiseTwice : List (MemAllocs × AcceptorOp) :=
  [(withoutKeys, .receivePrepare { iid := 1, ballot := 5 }),
    (recordsOf 2, .receivePrepare { iid := 1, ballot := 5 }),
    (recordsOf 3, .receiveAccept { iid := 1, ballot := 5, value := [7] }),
    (recordsOf 4, .receiveRepeat 1)]

theorem khAcceptor_replies_twice :
    ∃ b, (⟨0, 0, khMemStorageNew⟩ : Acceptor KhMemStorage).Replies (2 ^ 32) (memAcceptorNew 0)
        promiseTwice (khAcceptorRun (2 ^ 32) ⟨0, 0, khMemStorageNew⟩ promiseTwice).1 b ∧
      (khAcceptorRun (2 ^ 32) ⟨0, 0, khMemStorageNew⟩ promiseTwice).2.Mirrors b := by
  refine khAcceptor_replies (Nat.le_refl _) 0 promiseTwice ?_ (by decide)
  simp only [promiseTwice, List.forall_mem_cons]
  exact ⟨⟨rfl, rfl⟩, ⟨rfl, rfl⟩, ⟨rfl, rfl⟩, ⟨rfl, rfl⟩, List.forall_mem_nil _⟩

end LibPaxos
