import LibPaxos.AcceptorDurable
import LibPaxos.Lib.Runs

/-!
# Storage failures of an acceptor

The acceptor over the LMDB backend, when LMDB calls fail. `LmdbMove` says once what a request can do
then: a request that is answered with 0 leaves everything as it was, except for a trim whose
transaction fails, which has moved `trim_iid` already; and a request whose read fails goes on as if
there were no record.

* **`failures_leave_unchanged`** — exactly if the transactions of trims succeed, failures leave the
  acceptor unchanged, and then `trim_iid` is the stored mark.
* **`failed_trim_moves_trimIid`** — a trim whose transaction fails is half done.
* **`failed_reads_keep_promises`** — as long as reads fail only for ballots that pass anyway, stored
  ballots and replies do not go down.
* **`failed_read_breaks_promise`** — otherwise the acceptor promises less than it has promised.
-/

namespace LibPaxos

open Cursors Runs

/-- The handler returns 0. -/
def AcceptorReply.IsZero : AcceptorReply → Prop
  | .message out => out = none
  | .trimmed done => done = false

instance : DecidablePred AcceptorReply.IsZero
  | .message out => inferInstanceAs (Decidable (out = none))
  | .trimmed done => inferInstanceAs (Decidable (done = false))

variable {T : Type}

namespace LmdbAcceptor

/-- The acceptor after it has committed a table. -/
def committed (a : LmdbAcceptor T) (table : T) : LmdbAcceptor T :=
  { a with store := { a.store with env := table, txn := none } }

theorem committed_env {a : LmdbAcceptor T} (ha : a.store.txn = none) :
    a.committed a.store.env = a := by
  unfold committed
  rw [← ha]

variable [Mdb T]

/-- An acceptor between requests: no transaction is open, and the table was written by the
backend. -/
structure Proper (a : LmdbAcceptor T) : Prop where
  txn : a.store.txn = none
  wellFormed : Mdb.WellFormed a.store.env

/-- The stored record of an instance. -/
def record (a : LmdbAcceptor T) (iid : UInt32) : Option PaxosAccepted :=
  Mdb.record a.store.env iid

/-- The stored trim mark. -/
def mark (a : LmdbAcceptor T) : UInt32 :=
  Mdb.mark a.store.env

/-- What the lookup of a request returns. -/
def found (a : LmdbAcceptor T) (iid : UInt32) : Option PaxosAccepted :=
  if a.store.results.get ≠ 0 then none else a.record iid

/-- The acceptor after it has stored a record. -/
def stored (a : LmdbAcceptor T) (acc : PaxosAccepted) : LmdbAcceptor T :=
  a.committed
    (CursorTable.put a.store.env acc.iid (paxosAcceptedToBuffer a.store.results.valueAddr acc))

end LmdbAcceptor

variable [Mdb T]

/-! ## What a request can do

A handler is a transaction with one read and at most one write in it, and any of its calls can fail.
`lmdbMove` goes through the handlers once; what follows is read off the outcomes. -/

/-- The outcomes of a request. Reads go through `found`, so a failed one looks like no record. -/
inductive LmdbMove (a : LmdbAcceptor T) : AcceptorOp → AcceptorReply → LmdbAcceptor T → Prop where
  | silent {op : AcceptorOp} {reply : AcceptorReply} (hz : reply.IsZero) : LmdbMove a op reply a
  | promised {req : PaxosPrepare} (ht : a.trimIid < req.iid)
      (hb : Admitted (a.found req.iid) req.ballot) :
      LmdbMove a (.receivePrepare req)
        (.message (some (paxosAcceptedToPromise (promiseOf a.id req (a.found req.iid)))))
        (a.stored (promiseOf a.id req (a.found req.iid)))
  | rePromised {req : PaxosPrepare} {r : PaxosAccepted} (ht : a.trimIid < req.iid)
      (hr : a.found req.iid = some r) (hb : req.ballot < r.ballot) :
      LmdbMove a (.receivePrepare req) (.message (some (paxosAcceptedToPromise r))) a
  | accepted {req : PaxosAccept} (ht : a.trimIid < req.iid)
      (hb : Admitted (a.found req.iid) req.ballot) :
      LmdbMove a (.receiveAccept req)
        (.message (some (.accepted (paxosAcceptToAccepted a.id req))))
        (a.stored (paxosAcceptToAccepted a.id req))
  | preempted {req : PaxosAccept} {r : PaxosAccepted} :
      LmdbMove a (.receiveAccept req) (.message (some (paxosAcceptedToPreempted a.id r))) a
  | repeated {iid : UInt32} {r : PaxosAccepted} :
      LmdbMove a (.receiveRepeat iid) (.message (some (.accepted r))) a
  | trimmed {trim : PaxosTrim} (ht : a.trimIid < trim.iid) :
      LmdbMove a (.receiveTrim trim) (.trimmed true)
        { a.committed (Mdb.trimmed a.store.env trim.iid) with trimIid := trim.iid }
  | trimLost {trim : PaxosTrim} (ht : a.trimIid < trim.iid)
      (hfail : a.store.results.txnBegin ≠ 0 ∨ a.store.results.txnCommit ≠ 0) :
      LmdbMove a (.receiveTrim trim) (.trimmed false) { a with trimIid := trim.iid }

section Parts

variable {a : LmdbAcceptor T}

theorem inTransaction_lmdb {α : Type} (ha : a.store.txn = none) (failed : α)
    (body : LmdbStorage T → LmdbAcceptor T × α) :
    inTransaction storageInitLmdb a failed body
      = if a.store.results.txnBegin ≠ 0 then (a, failed)
        else body (a.store.inTxn a.store.env) := by
  unfold inTransaction
  rw [lmdb_txBegin ha]
  by_cases hbegin : a.store.results.txnBegin ≠ 0
  · simp only [if_pos hbegin]
  · simp only [if_neg hbegin]
    rfl

theorem commitAndAnswer_lmdb (ha : a.store.txn = none) (table : T)
    (out : Option PaxosMessage) :
    commitAndAnswer storageInitLmdb a (a.store.inTxn table) out
      = if a.store.results.txnCommit ≠ 0 then (a, none) else (a.committed table, out) := by
  unfold commitAndAnswer
  rw [lmdb_txCommit]
  by_cases hcommit : a.store.results.txnCommit ≠ 0
  · simp only [if_pos hcommit, ← ha]
  · simp only [if_neg hcommit]
    rfl

theorem putAndAnswer_lmdb (ha : a.store.txn = none) (acc : PaxosAccepted)
    (out : Option PaxosMessage) :
    putAndAnswer storageInitLmdb a (a.store.inTxn a.store.env) acc out
      = if a.store.results.put ≠ 0 ∨ a.store.results.txnCommit ≠ 0 then (a, none)
        else (a.stored acc, out) := by
  unfold putAndAnswer
  rw [lmdb_put]
  by_cases hput : a.store.results.put ≠ 0
  · simp only [if_pos hput]
    show (LmdbAcceptor.committed a a.store.env, none) = _
    rw [LmdbAcceptor.committed_env ha, if_pos (.inl hput)]
  · simp only [hput, false_or]
    exact commitAndAnswer_lmdb ha _ out

theorem answerTrim_lmdb (ha : a.store.txn = none) (hput : a.store.results.put = 0)
    {trim : PaxosTrim} (hiid : trim.iid ≠ 0) :
    answerTrim storageInitLmdb a trim (a.store.inTxn a.store.env)
      = if a.store.results.txnCommit ≠ 0 then (a, false)
        else (a.committed (Mdb.trimmed a.store.env trim.iid), true) := by
  unfold answerTrim
  rw [lmdb_trim hiid hput, lmdb_txCommit]
  by_cases hcommit : a.store.results.txnCommit ≠ 0
  · simp only [if_pos hcommit, ← ha]
  · simp only [if_neg hcommit]
    rfl

/-- A lookup that does not let the ballot pass has found a larger one. -/
theorem exists_of_not_admitted {found : Option PaxosAccepted} {ballot : UInt16}
    (h : ¬ Admitted found ballot) :
    ∃ r, found = some r ∧ found.getD zeroRecord = r ∧ ballot < r.ballot := by
  cases found with
  | none => exact absurd (.inl rfl) h
  | some r => exact ⟨r, rfl, rfl, UInt16.not_le.mp fun hle => h (.inr hle)⟩

theorem lmdbMove_prepare (ha : a.Proper) (req : PaxosPrepare) :
    LmdbMove a (.receivePrepare req) (.message (acceptorReceivePrepare storageInitLmdb a req).2)
      (acceptorReceivePrepare storageInitLmdb a req).1 := by
  rw [acceptorReceivePrepare_eq, inTransaction_lmdb ha.txn]
  split
  · exact .silent rfl
  next ht =>
  split
  · exact .silent rfl
  have hget : storageInitLmdb.get (a.store.inTxn a.store.env) req.iid = a.found req.iid :=
    lmdb_get ha.wellFormed (ne_zero_of_not_le ht)
  unfold answerPrepare
  rw [hget, putAndAnswer_lmdb ha.txn, commitAndAnswer_lmdb ha.txn,
    LmdbAcceptor.committed_env ha.txn]
  -- the ballot passes what was found or not; either way the commit may fail
  split
  · next hb =>
    split
    · exact .silent rfl
    · exact .promised (UInt32.not_le.mp ht) hb
  · next hb =>
    obtain ⟨r, hr, hgetD, hlt⟩ := exists_of_not_admitted hb
    split
    · exact .silent rfl
    · rw [hgetD]
      exact .rePromised (UInt32.not_le.mp ht) hr hlt

theorem lmdbMove_accept (ha : a.Proper) (req : PaxosAccept) :
    LmdbMove a (.receiveAccept req) (.message (acceptorReceiveAccept storageInitLmdb a req).2)
      (acceptorReceiveAccept storageInitLmdb a req).1 := by
  rw [acceptorReceiveAccept_eq, inTransaction_lmdb ha.txn]
  split
  · exact .silent rfl
  next ht =>
  split
  · exact .silent rfl
  have hget : storageInitLmdb.get (a.store.inTxn a.store.env) req.iid = a.found req.iid :=
    lmdb_get ha.wellFormed (ne_zero_of_not_le ht)
  unfold answerAccept
  rw [hget, putAndAnswer_lmdb ha.txn, commitAndAnswer_lmdb ha.txn,
    LmdbAcceptor.committed_env ha.txn]
  split
  · next hb =>
    split
    · exact .silent rfl
    · exact .accepted (UInt32.not_le.mp ht) hb
  · split
    · exact .silent rfl
    · exact .preempted

theorem lmdbMove_repeat (ha : a.Proper) (iid : UInt32) :
    LmdbMove a (.receiveRepeat iid) (.message (acceptorReceiveRepeat storageInitLmdb a iid).2)
      (acceptorReceiveRepeat storageInitLmdb a iid).1 := by
  rw [acceptorReceiveRepeat_eq, inTransaction_lmdb ha.txn]
  split
  · exact .silent rfl
  rw [commitAndAnswer_lmdb ha.txn, LmdbAcceptor.committed_env ha.txn]
  split
  · exact .silent rfl
  · unfold repeatOf
    split
    · exact .repeated
    · exact .silent rfl

theorem lmdbMove_trim (ha : a.Proper) (hput : a.store.results.put = 0) (trim : PaxosTrim) :
    LmdbMove a (.receiveTrim trim) (.trimmed (acceptorReceiveTrim storageInitLmdb a trim).2)
      (acceptorReceiveTrim storageInitLmdb a trim).1 := by
  have ha' : ({ a with trimIid := trim.iid } : LmdbAcceptor T).store.txn = none := ha.txn
  rw [acceptorReceiveTrim_eq, inTransaction_lmdb ha']
  split
  · exact .silent rfl
  next ht =>
  rw [answerTrim_lmdb ha' hput (ne_zero_of_not_le ht)]
  split
  · next hbegin => exact .trimLost (UInt32.not_le.mp ht) (.inl hbegin)
  · split
    · next hcommit => exact .trimLost (UInt32.not_le.mp ht) (.inr hcommit)
    · exact .trimmed (UInt32.not_le.mp ht)

/-- `trim_iid` is set before the transaction begins, and is not set back. -/
theorem acceptorReceiveTrim_failed (ha : a.store.txn = none) (hput : a.store.results.put = 0)
    {trim : PaxosTrim} (ht : a.trimIid < trim.iid)
    (hfail : a.store.results.txnBegin ≠ 0 ∨ a.store.results.txnCommit ≠ 0) :
    acceptorReceiveTrim storageInitLmdb a trim = ({ a with trimIid := trim.iid }, false) := by
  have ha' : ({ a with trimIid := trim.iid } : LmdbAcceptor T).store.txn = none := ha
  have hnot : ¬ trim.iid ≤ a.trimIid := UInt32.not_le.mpr ht
  rw [acceptorReceiveTrim_eq, if_neg hnot, inTransaction_lmdb ha']
  by_cases hbegin : a.store.results.txnBegin ≠ 0
  · exact if_pos hbegin
  · rw [if_neg hbegin, answerTrim_lmdb ha' hput (ne_zero_of_not_le hnot)]
    exact if_pos (hfail.resolve_left hbegin)

/-- **Every request makes a move.** The write of the trim mark is asserted to succeed. -/
theorem lmdbMove (ha : a.Proper) {op : AcceptorOp}
    (hput : ∀ trim, op = .receiveTrim trim → a.store.results.put = 0) :
    LmdbMove a op (acceptorHandle storageInitLmdb a op).1
      (acceptorHandle storageInitLmdb a op).2 := by
  cases op with
  | receivePrepare req => exact lmdbMove_prepare ha req
  | receiveAccept req => exact lmdbMove_accept ha req
  | receiveTrim trim => exact lmdbMove_trim ha (hput trim rfl) trim
  | receiveRepeat iid => exact lmdbMove_repeat ha iid

end Parts

section Move

variable {a a' : LmdbAcceptor T} {op : AcceptorOp} {reply : AcceptorReply}

theorem ne_zero_of_lt {t iid : UInt32} (h : t < iid) : iid ≠ 0 :=
  ne_zero_of_not_le (UInt32.not_le.mpr h)

/-- What was found was stored. -/
theorem LmdbAcceptor.record_of_found {iid : UInt32} {r : PaxosAccepted}
    (h : a.found iid = some r) : a.record iid = some r := by
  unfold LmdbAcceptor.found at h
  split at h
  · cases h
  · exact h

theorem LmdbAcceptor.Proper.promiseOf_fits (ha : a.Proper) {req : PaxosPrepare}
    (hiid : req.iid ≠ 0) : (promiseOf a.id req (a.found req.iid)).FitsInt := by
  show ((a.found req.iid).getD zeroRecord).FitsInt
  cases hf : a.found req.iid with
  | none => exact Nat.two_pow_pos 31
  | some r => exact (ha.wellFormed.record_spec hiid (LmdbAcceptor.record_of_found hf)).2

theorem LmdbAcceptor.Proper.stored (ha : a.Proper) {acc : PaxosAccepted} (hiid : acc.iid ≠ 0)
    (hfits : acc.FitsInt) : (a.stored acc).Proper where
  txn := rfl
  wellFormed := ha.wellFormed.put hiid hfits _

theorem LmdbMove.proper (hm : LmdbMove a op reply a') (ha : a.Proper) (hop : op.InRange) :
    a'.Proper := by
  cases hm with
  | silent | rePromised | preempted | repeated => exact ha
  | promised ht hb =>
    have hiid := ne_zero_of_lt ht
    exact ha.stored hiid (ha.promiseOf_fits hiid)
  | accepted ht hb => exact ha.stored (ne_zero_of_lt ht) hop
  | trimmed ht => exact ⟨rfl, ha.wellFormed.trimmed _⟩
  | trimLost ht hfail => exact ⟨ha.txn, ha.wellFormed⟩

end Move

/-- The LMDB calls of the next request return `results`. -/
def LmdbAcceptor.withResults (a : LmdbAcceptor T) (results : MdbResults) : LmdbAcceptor T :=
  { a with store := { a.store with results := results } }

/-- A request during which the LMDB calls return `results`. -/
def LmdbAcceptor.handleWith (a : LmdbAcceptor T) (results : MdbResults) (op : AcceptorOp) :
    AcceptorReply × LmdbAcceptor T :=
  acceptorHandle storageInitLmdb (a.withResults results) op

theorem LmdbAcceptor.Proper.withResults {a : LmdbAcceptor T} (ha : a.Proper)
    (results : MdbResults) : (a.withResults results).Proper :=
  ⟨ha.txn, ha.wellFormed⟩

/-- The acceptor that is created on an empty environment. -/
def LmdbAcceptor.fresh (id : Nat) : LmdbAcceptor T where
  id := id
  trimIid := 0
  store := lmdbStorageOpen false CursorTable.empty

theorem acceptorOpen_empty (id : Nat) :
    acceptorOpen id (∅ : MdbTable) = some (LmdbAcceptor.fresh id) := rfl

/-- A new acceptor is proper and starts with the stored mark. -/
theorem acceptorOpen_spec {id : Nat} {env : T} (hw : Mdb.WellFormed env) {a : LmdbAcceptor T}
    (h : acceptorOpen id env = some a) : a.Proper ∧ a.trimIid = a.mark := by
  obtain ⟨a', hnew, hf⟩ := simulates_lmdb.acceptorNew id (lmdbStorageOpen_idle hw.holds)
  obtain rfl : a' = a := Option.some.inj (hnew.symm.trans h)
  have hmark : Mdb.mark a'.store.env = Mdb.mark env := hf.store.holds.mark_eq
  exact ⟨⟨hf.store.txn, hf.store.holds.toWellFormed⟩, hf.trimIid.trans hmark.symm⟩

/-! ## Failures of transactions and writes

`acceptor_receive_trim` sets `trim_iid` before its transaction. That is the one thing that a failure
can leave behind, and the condition of the theorem rules out exactly this. -/

/-- What `storage_tx_begin`, `storage_put_record` and `storage_tx_commit` return, unless 0. -/
structure StorageFailures where
  txBegin : Int := 0
  putRecord : Int := 0
  txCommit : Int := 0

/-- What the LMDB calls return then. A trim does not call `storage_put_record`. -/
def StorageFailures.results (f : StorageFailures) (addr : UInt64) : AcceptorOp → MdbResults
  | .receiveTrim _ => { txnBegin := f.txBegin, txnCommit := f.txCommit, valueAddr := addr }
  | .receivePrepare _ | .receiveAccept _ | .receiveRepeat _ =>
    { txnBegin := f.txBegin, put := f.putRecord, txnCommit := f.txCommit, valueAddr := addr }

/-- What can be observed of an acceptor: `trim_iid`, the stored mark and the stored records. -/
def LmdbAcceptor.observed (a : LmdbAcceptor T) :
    UInt32 × UInt32 × (UInt32 → Option PaxosAccepted) :=
  (a.trimIid, a.mark, a.record)

/-- A request with the failures during it, or a restart. -/
inductive FailureEvent where
  | request (failures : StorageFailures) (addr : UInt64) (op : AcceptorOp)
  | restart

/-- One event. -/
def LmdbAcceptor.step (a : LmdbAcceptor T) : FailureEvent → Option (LmdbAcceptor T)
  | .request failures addr op => some (a.handleWith (failures.results addr op) op).2
  | .restart => acceptorOpen a.id (lmdbStorageClose a.store)

/-- The transaction of a trim that is due succeeds. -/
def StorageFailures.SpareTrim (f : StorageFailures) (a : LmdbAcceptor T) : AcceptorOp → Prop
  | .receiveTrim trim => a.trimIid < trim.iid → f.txBegin = 0 ∧ f.txCommit = 0
  | .receivePrepare _ | .receiveAccept _ | .receiveRepeat _ => True

/-- The request is in range, and the failures spare trims. -/
def FailureEvent.SpareTrim (a : LmdbAcceptor T) : FailureEvent → Prop
  | .request failures _ op => op.InRange ∧ failures.SpareTrim a op
  | .restart => True

section Failures

variable {a a' : LmdbAcceptor T} {op : AcceptorOp} {reply : AcceptorReply}

theorem StorageFailures.results_put (f : StorageFailures) (addr : UInt64) (op : AcceptorOp) :
    ∀ trim, op = .receiveTrim trim → (f.results addr op).put = 0 := by
  rintro trim rfl
  rfl

/-- A request during which storage calls fail. -/
theorem lmdbMove_failures (ha : a.Proper) (f : StorageFailures) (addr : UInt64) (op : AcceptorOp) :
    LmdbMove (a.withResults (f.results addr op)) op
      (a.handleWith (f.results addr op) op).1 (a.handleWith (f.results addr op) op).2 :=
  lmdbMove (ha.withResults _) (f.results_put addr op)

theorem StorageFailures.SpareTrim.not_lost {T : Type} {a : LmdbAcceptor T} {f : StorageFailures}
    {addr : UInt64} {trim : PaxosTrim} (hs : f.SpareTrim a (.receiveTrim trim))
    (ht : a.trimIid < trim.iid)
    (hfail : (f.results addr (.receiveTrim trim)).txnBegin ≠ 0
      ∨ (f.results addr (.receiveTrim trim)).txnCommit ≠ 0) : False :=
  hfail.elim (· (hs ht).1) (· (hs ht).2)

/-- A request that is answered with 0 changes nothing. -/
theorem LmdbAcceptor.observed_of_isZero (ha : a.Proper) {f : StorageFailures} {addr : UInt64}
    (hs : f.SpareTrim a op) (hz : (a.handleWith (f.results addr op) op).1.IsZero) :
    (a.handleWith (f.results addr op) op).2.observed = a.observed := by
  have hm := lmdbMove_failures ha f addr op
  generalize (a.handleWith (f.results addr op) op).1 = reply at hm hz
  generalize (a.handleWith (f.results addr op) op).2 = a' at hm
  cases hm with
  | silent => rfl
  | promised | rePromised | accepted | preempted | repeated => cases hz
  | trimmed => cases hz
  -- the one outcome with 0 that changes something
  | trimLost ht hfail => exact (hs.not_lost ht hfail).elim

/-- A trim that is due and fails is answered with 0, and has changed `trim_iid`. -/
theorem LmdbAcceptor.spareTrim_of_observed (ha : a.Proper) {f : StorageFailures} {addr : UInt64}
    (h : (a.handleWith (f.results addr op) op).1.IsZero →
      (a.handleWith (f.results addr op) op).2.observed = a.observed) :
    f.SpareTrim a op := by
  cases op with
  | receivePrepare | receiveAccept | receiveRepeat => trivial
  | receiveTrim trim =>
    intro ht
    by_contra hfail
    have hfail' : f.txBegin ≠ 0 ∨ f.txCommit ≠ 0 := by tauto
    have hlost := acceptorReceiveTrim_failed
      (a := a.withResults (f.results addr (.receiveTrim trim))) ha.txn rfl ht hfail'
    have hzero : (a.handleWith (f.results addr (.receiveTrim trim)) (.receiveTrim trim)).1
        = .trimmed false := congrArg (AcceptorReply.trimmed ∘ Prod.snd) hlost
    have hmoved : (a.handleWith (f.results addr (.receiveTrim trim)) (.receiveTrim trim)).2.trimIid
        = trim.iid := congrArg (Acceptor.trimIid ∘ Prod.fst) hlost
    have hsame := congrArg Prod.fst (h (hzero ▸ rfl))
    exact UInt32.ne_of_lt ht (hsame.symm.trans hmoved)

/-- `trim_iid` stays the stored mark. -/
theorem LmdbAcceptor.mark_handleWith (ha : a.Proper) (hmark : a.trimIid = a.mark)
    {f : StorageFailures} (addr : UInt64) (hs : f.SpareTrim a op) :
    (a.handleWith (f.results addr op) op).2.trimIid
      = (a.handleWith (f.results addr op) op).2.mark := by
  have hm := lmdbMove_failures ha f addr op
  generalize (a.handleWith (f.results addr op) op).1 = reply at hm
  generalize (a.handleWith (f.results addr op) op).2 = a' at hm
  cases hm with
  | silent | rePromised | preempted | repeated => exact hmark
  | promised ht hb => exact hmark.trans (Mdb.mark_put (ne_zero_of_lt ht) _).symm
  | accepted ht hb => exact hmark.trans (Mdb.mark_put (ne_zero_of_lt ht) _).symm
  | trimmed ht => exact (Mdb.mark_trimmed _ _).symm
  | trimLost ht hfail => exact (hs.not_lost ht hfail).elim

end Failures

/-- **Storage failures leave the acceptor unchanged**, exactly if the transactions of trims succeed:
then a request that is answered with 0 changes nothing that can be observed, and in every state that
is reached `trim_iid` is the stored mark. -/
theorem failures_leave_unchanged (id : Nat) {env : T} (hw : Mdb.WellFormed env)
    {a₀ : LmdbAcceptor T} (hopen : acceptorOpen id env = some a₀) :
    (∀ a : LmdbAcceptor T, a.Proper → ∀ (f : StorageFailures) (addr : UInt64) (op : AcceptorOp),
      ((a.handleWith (f.results addr op) op).1.IsZero →
        (a.handleWith (f.results addr op) op).2.observed = a.observed) ↔ f.SpareTrim a op)
    ∧ ∀ a, Reaches LmdbAcceptor.step (fun a e => e.SpareTrim a) a₀ a →
        a.Proper ∧ a.trimIid = a.mark := by
  refine ⟨fun a ha f addr op => ⟨LmdbAcceptor.spareTrim_of_observed ha, fun hs hz =>
    LmdbAcceptor.observed_of_isZero ha hs hz⟩, fun a hr => ?_⟩
  refine hr.invariant (I := fun a => a.Proper ∧ a.trimIid = a.mark) (acceptorOpen_spec hw hopen) ?_
  rintro s s' e - ⟨hs, hmark⟩ hok hstep
  cases e with
  | request f addr op =>
    cases hstep
    exact ⟨(lmdbMove_failures hs f addr op).proper (hs.withResults _) hok.1,
      LmdbAcceptor.mark_handleWith hs hmark addr hok.2⟩
  | restart => exact acceptorOpen_spec hs.wellFormed hstep

/-- A prepare of a new acceptor, with failures. -/
def failingPrepare (f : StorageFailures) : AcceptorReply × LmdbAcceptor MdbTable :=
  (LmdbAcceptor.fresh 1).handleWith (f.results 0 (.receivePrepare { iid := 1, ballot := 10 }))
    (.receivePrepare { iid := 1, ballot := 10 })

theorem failures_leave_unchanged_put :
    (failingPrepare { putRecord := -30792 }).1 = .message none
      ∧ (failingPrepare { putRecord := -30792 }).2.observed
        = (LmdbAcceptor.fresh 1 : LmdbAcceptor MdbTable).observed := by
  obtain ⟨hzero, hreached⟩ :=
    failures_leave_unchanged 1 MdbTable.wellFormed_empty (acceptorOpen_empty 1)
  exact ⟨by decide,
    (hzero _ (hreached _ .init).1 { putRecord := -30792 } 0 _).mpr trivial (by decide)⟩

/-- A trim of a new acceptor, with failures. -/
def failingTrim (f : StorageFailures) : AcceptorReply × LmdbAcceptor MdbTable :=
  (LmdbAcceptor.fresh 1).handleWith (f.results 0 (.receiveTrim { iid := 5 }))
    (.receiveTrim { iid := 5 })

/-- The handler returns 0, but `trim_iid` has moved; the stored mark has not, and a restart goes
back to it. -/
abbrev HalfTrimmed (f : StorageFailures) : Prop :=
  (failingTrim f).1 = .trimmed false
    ∧ (LmdbAcceptor.fresh 1 : LmdbAcceptor MdbTable).trimIid = 0 ∧ (failingTrim f).2.trimIid = 5
    ∧ (failingTrim f).2.mark = 0
    ∧ (acceptorOpen 1 (lmdbStorageClose (failingTrim f).2.store)).map (·.trimIid) = some 0

/-- **A trim whose transaction fails is half done**, whether it cannot begin or cannot commit. -/
theorem failed_trim_moves_trimIid :
    HalfTrimmed { txBegin := 12 } ∧ HalfTrimmed { txCommit := 28 } := by
  decide

/-! ## Failures of reads

`lmdb_storage_get` logs an error of `mdb_get` and returns as if there were no record. The handler
then admits any ballot and stores it over the record that it could not read. A failure is harmless
if the ballot would have been admitted anyway. -/

/-- A request, with what `mdb_get` returns during it unless it is 0, and where the value lies that
is stored. -/
structure ReadEvent where
  get : Int
  addr : UInt64
  op : AcceptorOp

/-- The message that a handler returns. -/
def AcceptorReply.out : AcceptorReply → Option PaxosMessage
  | .message out => out
  | .trimmed _ => none

/-- An acceptor and what it has been asked and has answered so far, newest first. -/
structure LoggedLmdb (T : Type) where
  acceptor : LmdbAcceptor T
  log : List AcceptorEntry

/-- One request, logged. -/
def LoggedLmdb.step (r : LoggedLmdb T) (e : ReadEvent) : Option (LoggedLmdb T) :=
  let (reply, a) := r.acceptor.handleWith { get := e.get, valueAddr := e.addr } e.op
  some { acceptor := a, log := (e.op, reply.out) :: r.log }

/-- A prepare or an accept request. -/
def ReadEvent.InRange (e : ReadEvent) : Prop :=
  e.op.message ≠ none ∧ e.op.InRange

/-- The ballot of the request passes the stored record, which is what a failed read pretends. -/
def LmdbAcceptor.Passes (a : LmdbAcceptor T) : AcceptorOp → Prop
  | .receivePrepare req => Admitted (a.record req.iid) req.ballot
  | .receiveAccept req => Admitted (a.record req.iid) req.ballot
  | .receiveTrim _ | .receiveRepeat _ => True

/-- Reads fail only where that makes no difference for the ballots. -/
def ReadEvent.Harmless (a : LmdbAcceptor T) (e : ReadEvent) : Prop :=
  e.InRange ∧ (e.get ≠ 0 → a.Passes e.op)

instance : DecidablePred ReadEvent.InRange := fun _ => inferInstanceAs (Decidable (_ ∧ _))

instance (a : LmdbAcceptor T) : DecidablePred a.Passes
  | .receivePrepare req => inferInstanceAs (Decidable (Admitted (a.record req.iid) req.ballot))
  | .receiveAccept req => inferInstanceAs (Decidable (Admitted (a.record req.iid) req.ballot))
  | .receiveTrim _ => .isTrue trivial
  | .receiveRepeat _ => .isTrue trivial

instance (a : LmdbAcceptor T) : DecidablePred (ReadEvent.Harmless a) :=
  fun _ => inferInstanceAs (Decidable (_ ∧ (_ → _)))

/-- The records of `a'` have at least the ballots of those of `a`. -/
def BallotsGrow (a a' : LmdbAcceptor T) : Prop :=
  ∀ iid r, a.record iid = some r → ∃ r', a'.record iid = some r' ∧ r.ballot ≤ r'.ballot

theorem BallotsGrow.refl (a : LmdbAcceptor T) : BallotsGrow a a :=
  fun _ r hr => ⟨r, hr, UInt16.le_refl _⟩

theorem BallotsGrow.trans {a b c : LmdbAcceptor T} (h : BallotsGrow a b) (h' : BallotsGrow b c) :
    BallotsGrow a c := by
  intro iid r hr
  obtain ⟨r', hr', hle⟩ := h iid r hr
  obtain ⟨r'', hr'', hle'⟩ := h' iid r' hr'
  exact ⟨r'', hr'', UInt16.le_trans hle hle'⟩

section Reads

variable {a a' : LmdbAcceptor T} {op : AcceptorOp} {reply : AcceptorReply} {iid : UInt32}

theorem LmdbAcceptor.record_stored {acc : PaxosAccepted} (hfits : acc.FitsInt) (k : UInt32) :
    (a.stored acc).record k = if k = acc.iid then some acc else a.record k :=
  Mdb.record_put hfits _ k

/-- A ballot that passed what was found passes what is stored. -/
theorem LmdbAcceptor.admitted_record {ballot : UInt16} (hb : Admitted (a.found iid) ballot)
    (hread : a.store.results.get ≠ 0 → Admitted (a.record iid) ballot) :
    Admitted (a.record iid) ballot := by
  by_cases hget : a.store.results.get ≠ 0
  · exact hread hget
  · unfold LmdbAcceptor.found at hb
    rwa [if_neg hget] at hb

/-- Storing a record with a ballot that passes. -/
theorem BallotsGrow.stored {acc : PaxosAccepted} (hfits : acc.FitsInt)
    (hb : Admitted (a.record acc.iid) acc.ballot) : BallotsGrow a (a.stored acc) := by
  intro k r hr
  rw [LmdbAcceptor.record_stored hfits]
  split
  · next hk =>
    refine ⟨acc, rfl, ?_⟩
    rw [← hk, hr] at hb
    exact hb.resolve_left (by simp)
  · exact ⟨r, hr, UInt16.le_refl _⟩

/-- Stored ballots do not go down. -/
theorem LmdbMove.ballotsGrow (hm : LmdbMove a op reply a') (ha : a.Proper) (hop : op.InRange)
    (hmsg : op.message ≠ none) (hread : a.store.results.get ≠ 0 → a.Passes op) :
    BallotsGrow a a' := by
  cases hm with
  | silent | rePromised | preempted | repeated => exact .refl a
  | promised ht hb =>
    exact .stored (ha.promiseOf_fits (ne_zero_of_lt ht)) (LmdbAcceptor.admitted_record hb hread)
  | accepted ht hb => exact .stored hop (LmdbAcceptor.admitted_record hb hread)
  | trimmed | trimLost => exact absurd rfl hmsg

/-- A promise or an accepted reply reports the stored ballot. -/
theorem LmdbMove.announced_stored (hm : LmdbMove a op reply a') (ha : a.Proper) (hop : op.InRange)
    (hmsg : op.message ≠ none) {b : UInt16} (hann : announced reply.out = some (iid, b)) :
    ∃ r, a'.record iid = some r ∧ r.ballot = b := by
  cases hm with
  | silent hz =>
    cases reply with
    | message out =>
      rw [show out = none from hz] at hann
      cases hann
    | trimmed done => cases hann
  | promised ht hb =>
    cases hann
    refine ⟨_, ?_, rfl⟩
    rw [LmdbAcceptor.record_stored (ha.promiseOf_fits (ne_zero_of_lt ht)), if_pos rfl]
  | rePromised ht hr hb =>
    cases hann
    -- the promise repeats the record, which sits under its own id
    have hrec := LmdbAcceptor.record_of_found hr
    refine ⟨_, ?_, rfl⟩
    rw [(ha.wellFormed.record_spec (ne_zero_of_lt ht) hrec).1]
    exact hrec
  | @accepted req ht hb =>
    cases hann
    have hfits : (paxosAcceptToAccepted a.id req).FitsInt := hop
    refine ⟨_, ?_, rfl⟩
    rw [LmdbAcceptor.record_stored hfits, if_pos rfl]
  | preempted => cases hann
  | repeated | trimmed | trimLost => exact absurd rfl hmsg

end Reads

/-- What the log says about the stored records. -/
structure LoggedLmdb.Inv (r : LoggedLmdb T) : Prop where
  proper : r.acceptor.Proper
  stored : ∀ e ∈ r.log, ∀ i b, Announces e i b →
    ∃ acc, r.acceptor.record i = some acc ∧ b ≤ acc.ballot
  rising : r.log.Pairwise fun later earlier =>
    ∀ i b b', Announces earlier i b → Announces later i b' → b ≤ b'

/-- Requests keep the invariant. -/
theorem LoggedLmdb.Inv.step {r r' : LoggedLmdb T} {e : ReadEvent} (hi : r.Inv)
    (hok : e.Harmless r.acceptor) (hs : r.step e = some r') :
    r'.Inv ∧ BallotsGrow r.acceptor r'.acceptor := by
  obtain ⟨⟨hmsg, hop⟩, hread⟩ := hok
  have ha := hi.proper.withResults { get := e.get, valueAddr := e.addr }
  have hm : LmdbMove _ e.op _ _ := lmdbMove ha fun _ _ => rfl
  have hgrow : BallotsGrow r.acceptor _ := hm.ballotsGrow ha hop hmsg hread
  have hnew := fun {i b} => @LmdbMove.announced_stored _ _ _ _ _ _ i hm ha hop hmsg b
  cases hs
  refine ⟨⟨hm.proper ha hop, ?_, ?_⟩, hgrow⟩
  · intro e' he' i b hann
    rcases List.mem_cons.mp he' with rfl | hold
    · obtain ⟨acc, hacc, rfl⟩ := hnew hann
      exact ⟨acc, hacc, UInt16.le_refl _⟩
    · obtain ⟨acc, hacc, hle⟩ := hi.stored e' hold i b hann
      obtain ⟨acc', hacc', hle'⟩ := hgrow i acc hacc
      exact ⟨acc', hacc', UInt16.le_trans hle hle'⟩
  · refine List.pairwise_cons.mpr ⟨fun e' he' i b b' hann hann' => ?_, hi.rising⟩
    -- what was announced before is at most what was stored, and that at most what is stored now
    obtain ⟨acc, hacc, hle⟩ := hi.stored e' he' i b hann
    obtain ⟨acc', hacc', hle'⟩ := hgrow i acc hacc
    obtain ⟨acc'', hacc'', rfl⟩ := hnew hann'
    obtain rfl := Option.some.inj (hacc'.symm.trans hacc'')
    exact UInt16.le_trans hle hle'

/-- The condition of a run in which reads may fail. -/
def LoggedLmdb.Harmless (r : LoggedLmdb T) (e : ReadEvent) : Prop :=
  e.Harmless r.acceptor

/-- **Failed reads do not weaken promises**, if they fail only for requests whose ballot passes the
stored record anyway: stored ballots do not go down, and neither do the ballots that are announced
for an instance. -/
theorem failed_reads_keep_promises (id : Nat) {env : T} (hw : Mdb.WellFormed env)
    {a₀ : LmdbAcceptor T} (hopen : acceptorOpen id env = some a₀) {r r' : LoggedLmdb T}
    (hr : Reaches LoggedLmdb.step LoggedLmdb.Harmless ⟨a₀, []⟩ r)
    (hr' : Reaches LoggedLmdb.step LoggedLmdb.Harmless r r') :
    BallotsGrow r.acceptor r'.acceptor
      ∧ r'.log.Pairwise fun later earlier =>
          ∀ i b b', Announces earlier i b → Announces later i b' → b ≤ b' := by
  have hinit : LoggedLmdb.Inv ⟨a₀, []⟩ :=
    ⟨(acceptorOpen_spec hw hopen).1, fun _ he => (List.not_mem_nil he).elim, .nil⟩
  have hinv : r.Inv := hr.invariant hinit fun _ hi hok hs => (hi.step hok hs).1
  obtain ⟨hinv', hgrow⟩ := hr'.invariant (I := fun s => s.Inv ∧ BallotsGrow r.acceptor s.acceptor)
    ⟨hinv, .refl _⟩ fun _ hi hok hs =>
      ⟨(hi.1.step hok hs).1, hi.2.trans (hi.1.step hok hs).2⟩
  exact ⟨hgrow, hinv'.rising⟩

instance (r : LoggedLmdb T) (e : ReadEvent) : Decidable (r.Harmless e) :=
  inferInstanceAs (Decidable (e.Harmless r.acceptor))

/-- A promise, and a larger one whose read fails. -/
theorem failed_reads_keep_promises_larger :
    ∃ r r' : LoggedLmdb MdbTable,
      Reaches LoggedLmdb.step LoggedLmdb.Harmless ⟨LmdbAcceptor.fresh 1, []⟩ r
      ∧ Reaches LoggedLmdb.step LoggedLmdb.Harmless r r'
      ∧ r'.log.map (announced ·.2) = [some (1, 20), some (1, 10)]
      ∧ BallotsGrow r.acceptor r'.acceptor := by
  obtain ⟨r, r', hr, hr', hp⟩ := exists_reaches_of_run_run LoggedLmdb.step LoggedLmdb.Harmless
    (⟨LmdbAcceptor.fresh 1, []⟩ : LoggedLmdb MdbTable)
    [⟨0, 0, .receivePrepare { iid := 1, ballot := 10 }⟩]
    [⟨-30796, 0, .receivePrepare { iid := 1, ballot := 20 }⟩]
    (fun _ r' => r'.log.map (announced ·.2) = [some (1, 20), some (1, 10)]) (by decide +kernel)
  have hkeep := failed_reads_keep_promises 1 MdbTable.wellFormed_empty (acceptorOpen_empty 1) hr hr'
  exact ⟨r, r', hr, hr', of_decide_eq_true hp, hkeep.1⟩

/-- **A failed read breaks a promise**: after a promise of ballot 10, a prepare of ballot 5 whose
`mdb_get` fails is promised, and the stored ballot goes down. -/
theorem failed_read_breaks_promise :
    ∃ r r' : LoggedLmdb MdbTable,
      Reaches LoggedLmdb.step (fun _ e => e.InRange) ⟨LmdbAcceptor.fresh 1, []⟩ r
      ∧ Reaches LoggedLmdb.step (fun _ e => e.InRange) r r'
      ∧ (r.acceptor.record 1).map (·.ballot) = some 10
      ∧ (r'.acceptor.record 1).map (·.ballot) = some 5
      ∧ r'.log.map (announced ·.2) = [some (1, 5), some (1, 10)] := by
  obtain ⟨r, r', hr, hr', hp⟩ := exists_reaches_of_run_run LoggedLmdb.step (fun _ e => e.InRange)
    (⟨LmdbAcceptor.fresh 1, []⟩ : LoggedLmdb MdbTable)
    [⟨0, 0, .receivePrepare { iid := 1, ballot := 10 }⟩]
    [⟨-30796, 0, .receivePrepare { iid := 1, ballot := 5 }⟩]
    (fun r r' => (r.acceptor.record 1).map (·.ballot) = some 10
      ∧ (r'.acceptor.record 1).map (·.ballot) = some 5
      ∧ r'.log.map (announced ·.2) = [some (1, 5), some (1, 10)]) (by decide +kernel)
  exact ⟨r, r', hr, hr', of_decide_eq_true hp⟩

end LibPaxos
