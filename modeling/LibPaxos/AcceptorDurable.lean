import LibPaxos.AcceptorRuns
import LibPaxos.StorageRefinement

/-!
# The acceptor over the LMDB backend

An acceptor over a backend that simulates the store gives the replies of the acceptor over the store
itself. The mark of the store is what the acceptor keeps as `trim_iid`, so a restart, which reads it
back, loses nothing.

* **`Backend.Simulates.acceptorHandle`** — every request is answered as over the store.
* **`restart_transparent`** — the replies of an acceptor over LMDB do not depend on when it was
  restarted.
-/

namespace LibPaxos

open Outputs

/-- What a request handler returns: a message or none, or whether a trim was carried out. -/
inductive AcceptorReply where
  | message (out : Option PaxosMessage)
  | trimmed (done : Bool)
deriving DecidableEq

/-- The request handlers, over any backend. -/
def acceptorHandle {σ : Type} (api : StorageApi σ) (a : Acceptor σ) :
    AcceptorOp → AcceptorReply × Acceptor σ
  | .receivePrepare req =>
    (.message (acceptorReceivePrepare api a req).2, (acceptorReceivePrepare api a req).1)
  | .receiveAccept req =>
    (.message (acceptorReceiveAccept api a req).2, (acceptorReceiveAccept api a req).1)
  | .receiveTrim trim =>
    (.trimmed (acceptorReceiveTrim api a trim).2, (acceptorReceiveTrim api a trim).1)
  | .receiveRepeat iid =>
    (.message (acceptorReceiveRepeat api a iid).2, (acceptorReceiveRepeat api a iid).1)

/-- An `int` measures the value of an accept request, and a repeat request is for an instance. -/
def AcceptorOp.InRange : AcceptorOp → Prop
  | .receivePrepare _ => True
  | .receiveAccept req => req.value.length < 2 ^ 31
  | .receiveTrim _ => True
  | .receiveRepeat iid => iid ≠ 0

instance : DecidablePred AcceptorOp.InRange
  | .receivePrepare _ => .isTrue trivial
  | .receiveAccept req => inferInstanceAs (Decidable (req.value.length < 2 ^ 31))
  | .receiveTrim _ => .isTrue trivial
  | .receiveRepeat iid => inferInstanceAs (Decidable (iid ≠ 0))

/-! ## The parts of a handler

Each handler begins a transaction, reads, and on success writes, commits and answers. Written as a
composition of these parts, a handler simulates another one if its parts do. -/

section Parts

variable {σ α : Type}

/-- The record lets a request with the ballot pass. -/
abbrev Admitted (found : Option PaxosAccepted) (ballot : UInt16) : Prop :=
  found = none ∨ (found.getD zeroRecord).ballot ≤ ballot

/-- The record that a promise leaves. -/
def promiseOf (id : Nat) (req : PaxosPrepare) (found : Option PaxosAccepted) : PaxosAccepted :=
  { found.getD zeroRecord with aid := UInt16.ofNat id, iid := req.iid, ballot := req.ballot }

/-- Store a record, commit, then answer. -/
def putAndAnswer (api : StorageApi σ) (a : Acceptor σ) (st : σ) (acc : PaxosAccepted)
    (out : Option PaxosMessage) : Acceptor σ × Option PaxosMessage :=
  let (rc, st) := api.put st acc
  if rc ≠ 0 then ({ a with store := api.txAbort st }, none) else
  commitAndAnswer api a st out

/-- The prepare handler after `storage_tx_begin`. -/
def answerPrepare (api : StorageApi σ) (a : Acceptor σ) (req : PaxosPrepare) (st : σ) :
    Acceptor σ × Option PaxosMessage :=
  if Admitted (api.get st req.iid) req.ballot then
    putAndAnswer api a st (promiseOf a.id req (api.get st req.iid))
      (some (paxosAcceptedToPromise (promiseOf a.id req (api.get st req.iid))))
  else
    commitAndAnswer api a st
      (some (paxosAcceptedToPromise ((api.get st req.iid).getD zeroRecord)))

/-- The accept handler after `storage_tx_begin`. -/
def answerAccept (api : StorageApi σ) (a : Acceptor σ) (req : PaxosAccept) (st : σ) :
    Acceptor σ × Option PaxosMessage :=
  if Admitted (api.get st req.iid) req.ballot then
    putAndAnswer api a st (paxosAcceptToAccepted a.id req)
      (some (.accepted (paxosAcceptToAccepted a.id req)))
  else
    commitAndAnswer api a st
      (some (paxosAcceptedToPreempted a.id ((api.get st req.iid).getD zeroRecord)))

/-- The answer to a repeat request, from what was read. -/
def repeatOf (found : Option PaxosAccepted) : Option PaxosMessage :=
  if found ≠ none ∧ (found.getD zeroRecord).value.length > 0 then
    some (.accepted (found.getD zeroRecord))
  else none

/-- The trim handler after `storage_tx_begin`. -/
def answerTrim (api : StorageApi σ) (a : Acceptor σ) (trim : PaxosTrim) (st : σ) :
    Acceptor σ × Bool :=
  let (rc, st) := api.txCommit (api.trim st trim.iid).2
  if rc ≠ 0 then ({ a with store := st }, false) else
  ({ a with store := st }, true)

/-- Start a transaction for `body`; if there is none, give up. -/
def inTransaction (api : StorageApi σ) (a : Acceptor σ) (failed : α)
    (body : σ → Acceptor σ × α) : Acceptor σ × α :=
  let (rc, st) := api.txBegin a.store
  if rc ≠ 0 then ({ a with store := st }, failed) else
  body st

variable (api : StorageApi σ) (a : Acceptor σ)

theorem acceptorReceivePrepare_eq (req : PaxosPrepare) : acceptorReceivePrepare api a req
    = if req.iid ≤ a.trimIid then (a, none)
      else inTransaction api a none (answerPrepare api a req) := rfl

theorem acceptorReceiveAccept_eq (req : PaxosAccept) : acceptorReceiveAccept api a req
    = if req.iid ≤ a.trimIid then (a, none)
      else inTransaction api a none (answerAccept api a req) := rfl

theorem acceptorReceiveRepeat_eq (iid : UInt32) : acceptorReceiveRepeat api a iid
    = inTransaction api a none fun st => commitAndAnswer api a st (repeatOf (api.get st iid)) := rfl

theorem acceptorReceiveTrim_eq (trim : PaxosTrim) : acceptorReceiveTrim api a trim
    = if trim.iid ≤ a.trimIid then (a, false)
      else inTransaction api { a with trimIid := trim.iid } false
        (answerTrim api { a with trimIid := trim.iid } trim) := rfl

end Parts

/-! ## Over a backend that simulates the store

The acceptor over the backend and the one over the store keep related handles and the same
`trim_iid`. The relation is carried through the parts of a handler, and what is answered is the same
because it is computed from the same reads. -/

section Simulation

variable {σ : Type} {b : Backend σ} {idle busy : σ → Store → Prop} {s : σ} {A : Store}
  {a : Acceptor σ} {c : Acceptor Store}

/-- The acceptor `a` is in the state of the acceptor `c` over the store. -/
structure Acceptor.Follows (idle : σ → Store → Prop) (a : Acceptor σ) (c : Acceptor Store) :
    Prop where
  id : a.id = c.id
  trimIid : a.trimIid = c.trimIid
  store : idle a.store c.store

/-- The results of a handler agree. -/
def SameAnswer {α : Type} (idle : σ → Store → Prop) (x : Acceptor σ × α) (y : Acceptor Store × α) :
    Prop :=
  x.2 = y.2 ∧ x.1.Follows idle y.1

theorem ne_zero_of_not_le {iid t : UInt32} (h : ¬ iid ≤ t) : iid ≠ 0 := by
  rintro rfl
  exact h UInt32.zero_le

/-- The record of a promise keeps the value that was read. -/
theorem Backend.Simulates.fits_getD (h : b.Simulates idle busy) (hs : busy s A) {iid : UInt32}
    (hiid : iid ≠ 0) : ((A.records iid).getD zeroRecord).FitsInt := by
  cases hr : A.records iid with
  | none => exact Nat.two_pow_pos 31
  | some acc => exact h.fits hs hiid hr

theorem Backend.Simulates.inTransaction {α : Type} (h : b.Simulates idle busy)
    (hf : a.Follows idle c) (failed : α) {body : σ → Acceptor σ × α}
    {body' : Store → Acceptor Store × α}
    (hbody : ∀ s, busy s c.store → SameAnswer idle (body s) (body' c.store)) :
    SameAnswer idle (inTransaction b.toStorageApi a failed body)
      (inTransaction Store.api c failed body') := by
  obtain ⟨s, hbegin, hs⟩ := h.txBegin hf.store
  unfold LibPaxos.inTransaction
  simp only [hbegin]
  exact hbody s hs

theorem Backend.Simulates.commitAndAnswer (h : b.Simulates idle busy) (hf : a.Follows idle c)
    (hs : busy s A) (out : Option PaxosMessage) :
    SameAnswer idle (commitAndAnswer b.toStorageApi a s out)
      (commitAndAnswer Store.api c A out) := by
  obtain ⟨s', hcommit, hs'⟩ := h.txCommit hs
  unfold LibPaxos.commitAndAnswer
  simp only [hcommit]
  exact ⟨rfl, hf.id, hf.trimIid, hs'⟩

theorem Backend.Simulates.putAndAnswer (h : b.Simulates idle busy) (hf : a.Follows idle c)
    (hs : busy s A) {acc : PaxosAccepted} (hacc : acc.Storable) (out : Option PaxosMessage) :
    SameAnswer idle (putAndAnswer b.toStorageApi a s acc out)
      (putAndAnswer Store.api c A acc out) := by
  obtain ⟨s', hput, hs'⟩ := h.put hs hacc
  unfold LibPaxos.putAndAnswer
  simp only [hput]
  exact h.commitAndAnswer hf hs' out

theorem Backend.Simulates.answerPrepare (h : b.Simulates idle busy) (hf : a.Follows idle c)
    (hs : busy s A) {req : PaxosPrepare} (hiid : req.iid ≠ 0) :
    SameAnswer idle (answerPrepare b.toStorageApi a req s) (answerPrepare Store.api c req A) := by
  have hget : b.get s req.iid = Store.api.get A req.iid := h.get hs hiid
  unfold LibPaxos.answerPrepare
  rw [hget, hf.id]
  have hacc : (promiseOf c.id req (Store.api.get A req.iid)).Storable :=
    ⟨hiid, h.fits_getD hs hiid⟩
  split
  · exact h.putAndAnswer hf hs hacc _
  · exact h.commitAndAnswer hf hs _

theorem Backend.Simulates.answerAccept (h : b.Simulates idle busy) (hf : a.Follows idle c)
    (hs : busy s A) {req : PaxosAccept} (hiid : req.iid ≠ 0) (hlen : req.value.length < 2 ^ 31) :
    SameAnswer idle (answerAccept b.toStorageApi a req s) (answerAccept Store.api c req A) := by
  have hget : b.get s req.iid = Store.api.get A req.iid := h.get hs hiid
  unfold LibPaxos.answerAccept
  rw [hget, hf.id]
  have hacc : (paxosAcceptToAccepted c.id req).Storable := ⟨hiid, hlen⟩
  split
  · exact h.putAndAnswer hf hs hacc _
  · exact h.commitAndAnswer hf hs _

theorem Backend.Simulates.answerTrim (h : b.Simulates idle busy) (hf : a.Follows idle c)
    (hs : busy s A) {trim : PaxosTrim} (hiid : trim.iid ≠ 0) :
    SameAnswer idle (answerTrim b.toStorageApi a trim s) (answerTrim Store.api c trim A) := by
  obtain ⟨s₁, htrim, hs₁⟩ := h.trim hs hiid
  obtain ⟨s₂, hcommit, hs₂⟩ := h.txCommit hs₁
  unfold LibPaxos.answerTrim
  simp only [htrim, hcommit]
  exact ⟨rfl, hf.id, hf.trimIid, hs₂⟩

/-- **A request is answered as over the store.** -/
theorem Backend.Simulates.acceptorHandle (h : b.Simulates idle busy) (hf : a.Follows idle c)
    {op : AcceptorOp} (hop : op.InRange) :
    (acceptorHandle b.toStorageApi a op).1 = (acceptorHandle Store.api c op).1
      ∧ (acceptorHandle b.toStorageApi a op).2.Follows idle (acceptorHandle Store.api c op).2 := by
  cases op with
  | receivePrepare req =>
    suffices hsame : SameAnswer idle (acceptorReceivePrepare b.toStorageApi a req)
        (acceptorReceivePrepare Store.api c req) from
      ⟨congrArg AcceptorReply.message hsame.1, hsame.2⟩
    rw [acceptorReceivePrepare_eq, acceptorReceivePrepare_eq, hf.trimIid]
    split
    · exact ⟨rfl, hf⟩
    · next ht =>
      exact h.inTransaction hf none fun s hs => h.answerPrepare hf hs (ne_zero_of_not_le ht)
  | receiveAccept req =>
    suffices hsame : SameAnswer idle (acceptorReceiveAccept b.toStorageApi a req)
        (acceptorReceiveAccept Store.api c req) from
      ⟨congrArg AcceptorReply.message hsame.1, hsame.2⟩
    rw [acceptorReceiveAccept_eq, acceptorReceiveAccept_eq, hf.trimIid]
    split
    · exact ⟨rfl, hf⟩
    · next ht =>
      exact h.inTransaction hf none fun s hs => h.answerAccept hf hs (ne_zero_of_not_le ht) hop
  | receiveTrim trim =>
    -- `trim_iid` is set before the transaction begins, on both sides
    suffices hsame : SameAnswer idle (acceptorReceiveTrim b.toStorageApi a trim)
        (acceptorReceiveTrim Store.api c trim) from
      ⟨congrArg AcceptorReply.trimmed hsame.1, hsame.2⟩
    rw [acceptorReceiveTrim_eq, acceptorReceiveTrim_eq, hf.trimIid]
    split
    · exact ⟨rfl, hf⟩
    · next ht =>
      have hf' : Acceptor.Follows idle { a with trimIid := trim.iid }
          { c with trimIid := trim.iid } := ⟨hf.id, rfl, hf.store⟩
      exact h.inTransaction hf' false fun s hs => h.answerTrim hf' hs (ne_zero_of_not_le ht)
  | receiveRepeat iid =>
    suffices hsame : SameAnswer idle (acceptorReceiveRepeat b.toStorageApi a iid)
        (acceptorReceiveRepeat Store.api c iid) from
      ⟨congrArg AcceptorReply.message hsame.1, hsame.2⟩
    rw [acceptorReceiveRepeat_eq, acceptorReceiveRepeat_eq]
    refine h.inTransaction hf none fun s hs => ?_
    have hget : b.get s iid = Store.api.get c.store iid := h.get hs hop
    rw [hget]
    exact h.commitAndAnswer hf hs _

/-- A new acceptor starts with the stored mark. -/
theorem Backend.Simulates.acceptorNew (h : b.Simulates idle busy) (id : Nat) (hs : idle s A) :
    ∃ a, acceptorNew b.toStorageApi id s = some a ∧ a.Follows idle ⟨id, A.mark, A⟩ := by
  obtain ⟨s₁, hbegin, hs₁⟩ := h.txBegin hs
  obtain ⟨s₂, hcommit, hs₂⟩ := h.txCommit hs₁
  refine ⟨⟨id, A.mark, s₂⟩, ?_, rfl, rfl, hs₂⟩
  unfold LibPaxos.acceptorNew
  simp only [hbegin, hcommit, h.getTrimInstance hs₁]
  rfl

end Simulation

/-- `trim_iid` is the stored mark. -/
def Acceptor.Synced (c : Acceptor Store) : Prop :=
  c.trimIid = c.store.mark

/-- Only a trim changes `trim_iid` or the mark, and it changes both. -/
theorem Acceptor.Synced.handle {c : Acceptor Store} (hc : c.Synced) (op : AcceptorOp) :
    (acceptorHandle Store.api c op).2.Synced := by
  cases op with
  | receivePrepare req =>
    show (acceptorReceivePrepare Store.api c req).1.Synced
    rw [acceptorReceivePrepare_eq]
    split
    · exact hc
    · show (answerPrepare Store.api c req c.store).1.Synced
      unfold answerPrepare
      split <;> exact hc
  | receiveAccept req =>
    show (acceptorReceiveAccept Store.api c req).1.Synced
    rw [acceptorReceiveAccept_eq]
    split
    · exact hc
    · show (answerAccept Store.api c req c.store).1.Synced
      unfold answerAccept
      split <;> exact hc
  | receiveTrim trim =>
    show (acceptorReceiveTrim Store.api c trim).1.Synced
    rw [acceptorReceiveTrim_eq]
    split
    · exact hc
    · -- both are the id of the request now
      rfl
  | receiveRepeat iid => exact hc

/-! ## Restarts

`acceptor_free` closes the environment, and `acceptor_new` opens it again and reads the mark.
Between requests no transaction is open, so what is found again is what was committed; and
`trim_iid` is the stored mark. -/

/-- An acceptor over the LMDB backend. -/
abbrev LmdbAcceptor (T : Type) := Acceptor (LmdbStorage T)

/-- What happens to an acceptor process: a request, with the address at which the value lies that it
makes the acceptor store, or a restart. -/
inductive DurableEvent where
  | request (addr : UInt64) (op : AcceptorOp)
  | restart

/-- The requests among the events. -/
def requestsOf : List DurableEvent → List AcceptorOp
  | [] => []
  | .request _ op :: es => op :: requestsOf es
  | .restart :: es => requestsOf es

section Durable

variable {T : Type} [Mdb T]

/-- `acceptor_new` on an environment that is kept. -/
def acceptorOpen (id : Nat) (env : T) : Option (LmdbAcceptor T) :=
  acceptorNew storageInitLmdb id (lmdbStorageOpen false env)

/-- A request whose value lies at an address. -/
def LmdbAcceptor.handleAt (a : LmdbAcceptor T) (addr : UInt64) (op : AcceptorOp) :
    AcceptorReply × LmdbAcceptor T :=
  acceptorHandle storageInitLmdb { a with store := lmdbBackend.place a.store addr } op

/-- The replies to a sequence of events, unless the acceptor cannot be re-created. A restart is
`acceptor_free`, which closes the storage, and `acceptor_new`. -/
def durableReplies (a : LmdbAcceptor T) : List DurableEvent → Option (List AcceptorReply)
  | [] => some []
  | .request addr op :: es =>
    (durableReplies (a.handleAt addr op).2 es).map ((a.handleAt addr op).1 :: ·)
  | .restart :: es => (acceptorOpen a.id (lmdbStorageClose a.store)).bind (durableReplies · es)

theorem LmdbAcceptor.handleAt_follows {a : LmdbAcceptor T} {c : Acceptor Store}
    (hf : a.Follows LmdbStorage.Idle c) (addr : UInt64) {op : AcceptorOp} (hop : op.InRange) :
    (a.handleAt addr op).1 = (acceptorHandle Store.api c op).1
      ∧ (a.handleAt addr op).2.Follows LmdbStorage.Idle (acceptorHandle Store.api c op).2 := by
  have hplaced : Acceptor.Follows LmdbStorage.Idle
      { a with store := lmdbBackend.place a.store addr } c :=
    ⟨hf.id, hf.trimIid, simulates_lmdb.placeIdle addr hf.store⟩
  exact simulates_lmdb.acceptorHandle hplaced hop

/-- Freeing an acceptor and creating it anew gives back the acceptor. -/
theorem LmdbAcceptor.acceptorOpen_follows {a : LmdbAcceptor T} {c : Acceptor Store}
    (hf : a.Follows LmdbStorage.Idle c) (hc : c.Synced) :
    ∃ a', acceptorOpen a.id (lmdbStorageClose a.store) = some a'
      ∧ a'.Follows LmdbStorage.Idle c := by
  obtain ⟨a', hnew, hf'⟩ :=
    simulates_lmdb.acceptorNew a.id (lmdbStorageOpen_idle hf.store.holds)
  refine ⟨a', hnew, ?_⟩
  rwa [hf.id, ← hc] at hf'

/-- The replies are those over the store, whatever the restarts. -/
theorem durableReplies_eq (es : List DurableEvent) :
    ∀ {a : LmdbAcceptor T} {c : Acceptor Store}, a.Follows LmdbStorage.Idle c → c.Synced →
      (∀ op ∈ requestsOf es, op.InRange) →
      durableReplies a es = some (run (acceptorHandle Store.api) c (requestsOf es)).1 := by
  induction es with
  | nil =>
    intro a c _ _ _
    rfl
  | cons e es ih =>
    intro a c hf hc hops
    cases e with
    | request addr op =>
      obtain ⟨hreply, hf'⟩ := LmdbAcceptor.handleAt_follows hf addr (hops op List.mem_cons_self)
      have hrest := ih hf' (hc.handle op) fun op' hmem => hops op' (List.mem_cons_of_mem _ hmem)
      rw [durableReplies, hrest, hreply]
      rfl
    | restart =>
      obtain ⟨a', hnew, hf'⟩ := LmdbAcceptor.acceptorOpen_follows hf hc
      rw [durableReplies, hnew]
      exact ih hf' hc hops

/-- **Restarts do not show.** Two histories with the same requests, on the same environment, have
the same replies, wherever the acceptor was freed and re-created in them; there is one reply a
request. -/
theorem restart_transparent (id : Nat) {env : T} (hw : Mdb.WellFormed env)
    (es es' : List DurableEvent) (hsame : requestsOf es = requestsOf es')
    (hops : ∀ op ∈ requestsOf es, op.InRange) :
    ∃ replies, replies.length = (requestsOf es).length
      ∧ (acceptorOpen id env).bind (durableReplies · es) = some replies
      ∧ (acceptorOpen id env).bind (durableReplies · es') = some replies := by
  obtain ⟨a, hnew, hf⟩ := simulates_lmdb.acceptorNew id (lmdbStorageOpen_idle hw.holds)
  have hopen : acceptorOpen id env = some a := hnew
  refine ⟨_, length_run (acceptorHandle Store.api) ⟨id, Mdb.mark env, Mdb.toStore env⟩ _, ?_, ?_⟩
  · rw [hopen]
    exact durableReplies_eq es hf rfl hops
  · rw [hsame] at hops ⊢
    rw [hopen]
    exact durableReplies_eq es' hf rfl hops

end Durable

/-- A promise, a vote and a trim, with restarts between them; the values lie elsewhere after
each. -/
def restartedHistory : List DurableEvent :=
  [.request 0 (.receivePrepare { iid := 4, ballot := 10 }), .restart,
    .request 4096 (.receiveAccept { iid := 4, ballot := 10, value := [7] }), .restart,
    .request 0 (.receiveTrim { iid := 3 }), .restart,
    .request 0 (.receivePrepare { iid := 3, ballot := 20 }), .request 0 (.receiveRepeat 4)]

theorem restart_transparent_promise :
    (acceptorOpen 1 (∅ : MdbTable)).bind (durableReplies · restartedHistory)
      = (acceptorOpen 1 (∅ : MdbTable)).bind
          (durableReplies · ((requestsOf restartedHistory).map (.request 8192))) := by
  obtain ⟨replies, -, hrestarted, hsteady⟩ := restart_transparent 1 MdbTable.wellFormed_empty
    restartedHistory ((requestsOf restartedHistory).map (.request 8192)) rfl (by decide)
  rw [hrestarted, hsteady]

/-- The trimmed instance stays silent, and the vote is repeated. -/
example : (acceptorOpen 1 (∅ : MdbTable)).bind (durableReplies · restartedHistory)
    = some [.message (some (.promise { iid := 4, ballot := 10, aid := 1 })),
        .message (some (.accepted
          { iid := 4, ballot := 10, valueBallot := 10, aid := 1, value := [7] })),
        .trimmed true, .message none,
        .message (some (.accepted
          { iid := 4, ballot := 10, valueBallot := 10, aid := 1, value := [7] }))] := by
  decide +kernel

end LibPaxos
