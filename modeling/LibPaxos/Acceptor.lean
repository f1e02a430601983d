import LibPaxos.Storage

/-!
# The acceptor

`acceptor.c`. A stored record doubles as the acceptor's promise (`ballot`) and its vote
(`valueBallot`, `value`); a prepare moves the former only, an accept moves both. The handlers are
written over any storage backend, and `receivePrepare_mem`, `receiveAccept_mem` and
`receiveTrim_mem` say what they do over the memory backend, whose calls succeed.
-/

namespace LibPaxos

variable {σ : Type}

/-- `struct acceptor`. -/
structure Acceptor (σ : Type) where
  id : Nat
  trimIid : UInt32
  store : σ

/-- `paxos_accepted_to_promise`. -/
def paxosAcceptedToPromise (acc : PaxosAccepted) : PaxosMessage :=
  .promise
    { iid := acc.iid, ballot := acc.ballot, valueBallot := acc.valueBallot, aid := acc.aid,
      value := acc.value }

/-- The `paxos_accepted` built by `paxos_accept_to_accepted`. -/
def paxosAcceptToAccepted (id : Nat) (acc : PaxosAccept) : PaxosAccepted :=
  { iid := acc.iid, ballot := acc.ballot, valueBallot := acc.ballot, aid := UInt16.ofNat id,
    value := acc.value }

/-- `paxos_accepted_to_preempted`. -/
def paxosAcceptedToPreempted (id : Nat) (acc : PaxosAccepted) : PaxosMessage :=
  .preempted { iid := acc.iid, ballot := acc.ballot, aid := UInt16.ofNat id }

/-- `acceptor_new`, on the handle that `storage_open` returned. -/
def acceptorNew (api : StorageApi σ) (id : Nat) (handle : σ) : Option (Acceptor σ) :=
  let (rc, st) := api.txBegin handle
  if rc ≠ 0 then none else
  let trimIid := api.getTrimInstance st
  let (rc, st) := api.txCommit st
  if rc ≠ 0 then none else
  some { id := id, trimIid := trimIid, store := st }

/-- The record that `memset` leaves when the lookup finds nothing. -/
def zeroRecord : PaxosAccepted := { iid := 0, ballot := 0 }

/-- The end of the handlers: commit, then answer. -/
def commitAndAnswer (api : StorageApi σ) (a : Acceptor σ) (st : σ) (out : Option PaxosMessage) :
    Acceptor σ × Option PaxosMessage :=
  let (rc, st) := api.txCommit st
  if rc ≠ 0 then ({ a with store := st }, none) else
  ({ a with store := st }, out)

/-- `acceptor_receive_prepare`. An acceptor that has promised more answers with what it has
promised. -/
def acceptorReceivePrepare (api : StorageApi σ) (a : Acceptor σ) (req : PaxosPrepare) :
    Acceptor σ × Option PaxosMessage :=
  if req.iid ≤ a.trimIid then (a, none) else
  let (rc, st) := api.txBegin a.store
  if rc ≠ 0 then ({ a with store := st }, none) else
  let found := api.get st req.iid
  let acc := found.getD zeroRecord
  if found = none ∨ acc.ballot ≤ req.ballot then
    let acc := { acc with aid := UInt16.ofNat a.id, iid := req.iid, ballot := req.ballot }
    let (rc, st) := api.put st acc
    if rc ≠ 0 then ({ a with store := api.txAbort st }, none) else
    commitAndAnswer api a st (some (paxosAcceptedToPromise acc))
  else
    commitAndAnswer api a st (some (paxosAcceptedToPromise acc))

/-- `acceptor_receive_accept`. -/
def acceptorReceiveAccept (api : StorageApi σ) (a : Acceptor σ) (req : PaxosAccept) :
    Acceptor σ × Option PaxosMessage :=
  if req.iid ≤ a.trimIid then (a, none) else
  let (rc, st) := api.txBegin a.store
  if rc ≠ 0 then ({ a with store := st }, none) else
  let found := api.get st req.iid
  let acc := found.getD zeroRecord
  if found = none ∨ acc.ballot ≤ req.ballot then
    let out := paxosAcceptToAccepted a.id req
    let (rc, st) := api.put st out
    if rc ≠ 0 then ({ a with store := api.txAbort st }, none) else
    commitAndAnswer api a st (some (.accepted out))
  else
    commitAndAnswer api a st (some (paxosAcceptedToPreempted a.id acc))

/-- `acceptor_receive_repeat`: the stored record as it is, if it has a value. -/
def acceptorReceiveRepeat (api : StorageApi σ) (a : Acceptor σ) (iid : UInt32) :
    Acceptor σ × Option PaxosMessage :=
  let (rc, st) := api.txBegin a.store
  if rc ≠ 0 then ({ a with store := st }, none) else
  let found := api.get st iid
  let out := found.getD zeroRecord
  commitAndAnswer api a st
    (if found ≠ none ∧ out.value.length > 0 then some (.accepted out) else none)

/-- `acceptor_receive_trim`. The result says whether the trim was carried out. -/
def acceptorReceiveTrim (api : StorageApi σ) (a : Acceptor σ) (trim : PaxosTrim) :
    Acceptor σ × Bool :=
  if trim.iid ≤ a.trimIid then (a, false) else
  let a := { a with trimIid := trim.iid }
  let (rc, st) := api.txBegin a.store
  if rc ≠ 0 then ({ a with store := st }, false) else
  let (_, st) := api.trim st trim.iid
  let (rc, st) := api.txCommit st
  if rc ≠ 0 then ({ a with store := st }, false) else
  ({ a with store := st }, true)

/-- `acceptor_set_current_state`. -/
def acceptorSetCurrentState (a : Acceptor σ) : PaxosAcceptorState where
  aid := UInt32.ofNat a.id
  trimIid := a.trimIid

/-! ## Over the memory backend

What the handlers do when no call of the storage fails. A request finds that its instance is
trimmed, that its ballot is admitted, or that a larger one was promised; the handlers for prepares
and accepts have one lemma for each. -/

/-- An acceptor over the memory backend. -/
abbrev MemAcceptor := Acceptor MemStorage

/-- A fresh acceptor over the memory backend. -/
def memAcceptorNew (id : Nat) : MemAcceptor where
  id := id
  trimIid := 0
  store := memStorageNew

theorem acceptorNew_mem (id : Nat) :
    acceptorNew storageInitMem id memStorageNew = some (memAcceptorNew id) := rfl

/-- The record of an instance. -/
def MemAcceptor.record (a : MemAcceptor) (iid : UInt32) : Option PaxosAccepted :=
  a.store.records.lookup iid

/-- Storing a record. -/
def MemAcceptor.put (a : MemAcceptor) (acc : PaxosAccepted) : MemAcceptor :=
  { a with store := { a.store with records := a.store.records.insert acc.iid acc } }

/-- Dropping the records up to an instance. -/
def MemAcceptor.trimTo (a : MemAcceptor) (iid : UInt32) : MemAcceptor where
  id := a.id
  trimIid := iid
  store := { trimIid := iid, records := a.store.records.filter fun acc => ¬ acc.iid ≤ iid }

@[simp] theorem MemAcceptor.put_id (a : MemAcceptor) (acc : PaxosAccepted) :
    (a.put acc).id = a.id := rfl

@[simp] theorem MemAcceptor.put_trimIid (a : MemAcceptor) (acc : PaxosAccepted) :
    (a.put acc).trimIid = a.trimIid := rfl

@[simp] theorem MemAcceptor.trimTo_id (a : MemAcceptor) (iid : UInt32) :
    (a.trimTo iid).id = a.id := rfl

@[simp] theorem MemAcceptor.trimTo_trimIid (a : MemAcceptor) (iid : UInt32) :
    (a.trimTo iid).trimIid = iid := rfl

theorem MemAcceptor.record_put (a : MemAcceptor) (acc : PaxosAccepted) (i : UInt32) :
    (a.put acc).record i = if i = acc.iid then some acc else a.record i :=
  AList.lookup_insert_cases _ _ _ _

theorem MemAcceptor.record_trimTo {a : MemAcceptor} {iid i : UInt32} {r : PaxosAccepted} :
    (a.trimTo iid).record i = some r ↔ a.record i = some r ∧ ¬ r.iid ≤ iid := by
  unfold MemAcceptor.record MemAcceptor.trimTo
  rw [AList.lookup_filter_eq_some]
  simp

/-- The record that a prepare of `ballot` leaves: the vote stays, the promise moves. -/
def promisedRecord (a : MemAcceptor) (req : PaxosPrepare) : PaxosAccepted :=
  { (a.record req.iid).getD zeroRecord with
    aid := UInt16.ofNat a.id, iid := req.iid, ballot := req.ballot }

/-- What a request finds: nothing to answer because the instance is trimmed, nothing in the way
of its ballot, or a record with a larger ballot. -/
def MemAcceptor.Admits (a : MemAcceptor) (iid : UInt32) (ballot : UInt16) : Prop :=
  ∀ r, a.record iid = some r → r.ballot ≤ ballot

theorem MemAcceptor.admits_iff {a : MemAcceptor} {iid : UInt32} {ballot : UInt16} :
    (a.record iid = none ∨ ((a.record iid).getD zeroRecord).ballot ≤ ballot)
      ↔ a.Admits iid ballot := by
  unfold MemAcceptor.Admits
  cases a.record iid with
  | none => simp
  | some r => simp

theorem receivePrepare_trimmed {a : MemAcceptor} {req : PaxosPrepare} (h : req.iid ≤ a.trimIid) :
    acceptorReceivePrepare storageInitMem a req = (a, none) := by
  unfold acceptorReceivePrepare
  rw [if_pos h]

theorem receivePrepare_admits {a : MemAcceptor} {req : PaxosPrepare} (h : ¬ req.iid ≤ a.trimIid)
    (hb : a.Admits req.iid req.ballot) :
    acceptorReceivePrepare storageInitMem a req
      = (a.put (promisedRecord a req), some (paxosAcceptedToPromise (promisedRecord a req))) := by
  unfold acceptorReceivePrepare
  rw [if_neg h]
  exact if_pos (MemAcceptor.admits_iff.mpr hb)

theorem receivePrepare_refused {a : MemAcceptor} {req : PaxosPrepare} {r : PaxosAccepted}
    (h : ¬ req.iid ≤ a.trimIid) (hr : a.record req.iid = some r) (hb : ¬ r.ballot ≤ req.ballot) :
    acceptorReceivePrepare storageInitMem a req = (a, some (paxosAcceptedToPromise r)) := by
  have hn : ¬ a.Admits req.iid req.ballot := fun ha => hb (ha r hr)
  unfold acceptorReceivePrepare
  rw [if_neg h]
  refine (if_neg (fun hc => hn (MemAcceptor.admits_iff.mp hc))).trans ?_
  have hg : storageInitMem.get a.store req.iid = some r := hr
  show (a, some (paxosAcceptedToPromise ((storageInitMem.get a.store req.iid).getD zeroRecord))) = _
  rw [hg]
  rfl

theorem receiveAccept_trimmed {a : MemAcceptor} {req : PaxosAccept} (h : req.iid ≤ a.trimIid) :
    acceptorReceiveAccept storageInitMem a req = (a, none) := by
  unfold acceptorReceiveAccept
  rw [if_pos h]

theorem receiveAccept_admits {a : MemAcceptor} {req : PaxosAccept} (h : ¬ req.iid ≤ a.trimIid)
    (hb : a.Admits req.iid req.ballot) :
    acceptorReceiveAccept storageInitMem a req
      = (a.put (paxosAcceptToAccepted a.id req),
          some (.accepted (paxosAcceptToAccepted a.id req))) := by
  unfold acceptorReceiveAccept
  rw [if_neg h]
  exact if_pos (MemAcceptor.admits_iff.mpr hb)

theorem receiveAccept_refused {a : MemAcceptor} {req : PaxosAccept} {r : PaxosAccepted}
    (h : ¬ req.iid ≤ a.trimIid) (hr : a.record req.iid = some r) (hb : ¬ r.ballot ≤ req.ballot) :
    acceptorReceiveAccept storageInitMem a req = (a, some (paxosAcceptedToPreempted a.id r)) := by
  have hn : ¬ a.Admits req.iid req.ballot := fun ha => hb (ha r hr)
  unfold acceptorReceiveAccept
  rw [if_neg h]
  refine (if_neg (fun hc => hn (MemAcceptor.admits_iff.mp hc))).trans ?_
  have hg : storageInitMem.get a.store req.iid = some r := hr
  show (a, some (paxosAcceptedToPreempted a.id
    ((storageInitMem.get a.store req.iid).getD zeroRecord))) = _
  rw [hg]
  rfl

end LibPaxos
