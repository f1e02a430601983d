import LibPaxos.AcceptorFailures
import LibPaxos.Lib.Loops
import LibPaxos.Messages

/-!
# Repeat requests

`acceptor_receive_repeat` is the one handler that does not compare the id with `trim_iid`, so it is
the one that asks the storage for the id 0. Under this key the LMDB backend keeps its trim mark,
which is shorter than a record.

* **`repeat_reports_accepted`** — a repeat request is answered from a record that a prepare or an
  accept has stored, above the trim point, exactly if the id is not 0 or nothing was trimmed.
* **`repeat_of_trim_mark`** — after a trim the LMDB backend takes its mark for the record of 0.
* `exists_repeatLoop_eq_some`, `repeatLoop_eq_none` — the loop over the ids of a repeat message,
  which the acceptors of both stacks have.
-/

namespace LibPaxos

open Bytes Cursors Loops Runs

variable {T : Type} [Mdb T]

/-- `acceptor_receive_repeat` over the LMDB backend, with the assertions of the backend. -/
def lmdbReceiveRepeat (a : LmdbAcceptor T) (iid : UInt32) :
    Except Fault (LmdbAcceptor T × Option PaxosMessage) := do
  let (rc, st) ← lmdbStorageTxBegin a.store
  if rc ≠ 0 then .ok ({ a with store := st }, none)
  else do
    let found ← lmdbStorageGet st iid
    let (rc, st) ← lmdbStorageTxCommit st
    if rc ≠ 0 then .ok ({ a with store := st }, none)
    else .ok ({ a with store := st }, repeatOf found)

/-- Between transactions only the lookup can fail an assertion. -/
theorem lmdbReceiveRepeat_eq {a : LmdbAcceptor T} (ha : a.store.txn = none) {iid : UInt32}
    {found : Option PaxosAccepted}
    (hget : lmdbStorageGet (a.store.inTxn a.store.env) iid = .ok found) :
    lmdbReceiveRepeat a iid
      = .ok (a, if a.store.results.txnBegin ≠ 0 ∨ a.store.results.txnCommit ≠ 0 then none
          else repeatOf found) := by
  have hkept : ({ a.store with txn := none } : LmdbStorage T) = a.store := by rw [← ha]
  unfold lmdbReceiveRepeat
  rw [lmdbStorageTxBegin_ok ha]
  by_cases hbegin : a.store.results.txnBegin ≠ 0
  · simp [bind, Except.bind, hbegin]
  · simp only [hbegin, if_false, false_or]
    refine Except.bind_eq_ok.mpr ⟨_, rfl, ?_⟩
    refine Except.bind_eq_ok.mpr ⟨found, hget, ?_⟩
    refine Except.bind_eq_ok.mpr ⟨_, lmdbStorageTxCommit_ok, ?_⟩
    by_cases hcommit : a.store.results.txnCommit ≠ 0
    · simp [hcommit, hkept]
    · simp [hcommit, hkept]

/-- Where no assertion fails, this is the handler over the backend. -/
theorem acceptorReceiveRepeat_of_lmdb {a : LmdbAcceptor T} {iid : UInt32}
    {r : LmdbAcceptor T × Option PaxosMessage} (h : lmdbReceiveRepeat a iid = .ok r) :
    acceptorReceiveRepeat storageInitLmdb a iid = r := by
  obtain ⟨⟨rc, st⟩, hbegin, h⟩ := Except.bind_eq_ok.mp h
  have hbegin' : storageInitLmdb.txBegin a.store = (rc, st) := by
    simp [storageInitLmdb, hbegin, Except.toOption]
  rw [acceptorReceiveRepeat_eq, inTransaction, hbegin']
  by_cases hrc : rc ≠ 0
  · simpa [hrc] using h
  · simp only [hrc, if_false] at h ⊢
    obtain ⟨found, hget, h⟩ := Except.bind_eq_ok.mp h
    obtain ⟨⟨rc', st'⟩, hcommit, h⟩ := Except.bind_eq_ok.mp h
    have hget' : storageInitLmdb.get st iid = found := by
      simp [storageInitLmdb, hget, Except.toOption]
    have hcommit' : storageInitLmdb.txCommit st = (rc', st') := by
      simp [storageInitLmdb, hcommit, Except.toOption]
    rw [commitAndAnswer, hget', hcommit']
    by_cases hrc' : rc' ≠ 0
    · simpa [hrc'] using h
    · simpa [hrc'] using h

/-! ## What the records come from -/

/-- The record is what the request stored: a promise at the ballot asked for, or a vote. -/
def StoredBy (acc : PaxosAccepted) (e : AcceptorEntry) : Prop :=
  (∃ req : PaxosPrepare, e = (.receivePrepare req, some (paxosAcceptedToPromise acc)) ∧
    acc.iid = req.iid ∧ acc.ballot = req.ballot) ∨
  ∃ req : PaxosAccept, e = (.receiveAccept req, some (.accepted acc)) ∧ acc.iid = req.iid

/-- What the log of an acceptor says about a record under the key `k`. -/
structure Recorded (trimIid : UInt32) (log : List AcceptorEntry) (k : UInt32)
    (acc : PaxosAccepted) : Prop where
  above : trimIid < k
  iid : acc.iid = k
  stored : ∃ e ∈ log, StoredBy acc e
  voted : acc.value ≠ [] → (acc.valueBallot, acc.value) ∈ votesFor k log

section Recorded

variable {trimIid k : UInt32} {log : List AcceptorEntry} {acc : PaxosAccepted}

theorem Recorded.cons (h : Recorded trimIid log k acc) (e : AcceptorEntry) :
    Recorded trimIid (e :: log) k acc where
  above := h.above
  iid := h.iid
  stored := by
    obtain ⟨e', he', hs⟩ := h.stored
    exact ⟨e', List.mem_cons_of_mem _ he', hs⟩
  voted hv := votesFor_cons_subset k e log (h.voted hv)

/-- A promise keeps the vote of the record that it replaces. -/
theorem recorded_promiseOf {req : PaxosPrepare} {found : Option PaxosAccepted} (id : Nat)
    (ht : trimIid < req.iid) (hf : ∀ acc, found = some acc → Recorded trimIid log req.iid acc) :
    Recorded trimIid
      ((.receivePrepare req, some (paxosAcceptedToPromise (promiseOf id req found))) :: log)
      req.iid (promiseOf id req found) where
  above := ht
  iid := rfl
  stored := ⟨_, List.mem_cons_self, .inl ⟨req, rfl, rfl, rfl⟩⟩
  voted hv := by
    cases found with
    | none => exact absurd rfl hv
    | some acc => exact votesFor_cons_subset _ _ _ ((hf acc rfl).voted hv)

theorem recorded_accepted {req : PaxosAccept} (id : Nat) (ht : trimIid < req.iid) :
    Recorded trimIid
      ((.receiveAccept req, some (.accepted (paxosAcceptToAccepted id req))) :: log)
      req.iid (paxosAcceptToAccepted id req) where
  above := ht
  iid := rfl
  stored := ⟨_, List.mem_cons_self, .inr ⟨req, rfl, rfl⟩⟩
  voted _ := mem_votesFor.mpr ⟨req, _, List.mem_cons_self, rfl, rfl, rfl⟩

/-- A trim leaves the records above its point. -/
theorem Recorded.trimmed (h : Recorded trimIid log k acc) {iid : UInt32} (hk : iid < k)
    (e : AcceptorEntry) : Recorded iid (e :: log) k acc :=
  { h.cons e with above := hk }

end Recorded

/-! ## Over the memory backend -/

/-- Every record is accounted for. -/
def LoggedAcceptor.AllRecorded (r : LoggedAcceptor) : Prop :=
  ∀ k acc, r.acceptor.record k = some acc → Recorded r.acceptor.trimIid r.log k acc

theorem LoggedAcceptor.AllRecorded.move {r : LoggedAcceptor} {op : AcceptorOp} {a : MemAcceptor}
    {out : Option PaxosMessage} (h : r.AllRecorded) (hm : AcceptorMove r.acceptor op a out) :
    LoggedAcceptor.AllRecorded ⟨a, (op, out) :: r.log⟩ := by
  intro k acc hk
  cases hm with
  | @promised req ht hb =>
    rw [MemAcceptor.record_put] at hk
    split at hk
    · rename_i hkey
      cases hk
      exact hkey ▸ recorded_promiseOf _ ht (h req.iid)
    · exact (h k acc hk).cons _
  | @accepted req ht hb =>
    rw [MemAcceptor.record_put] at hk
    split at hk
    · rename_i hkey
      cases hk
      exact hkey ▸ recorded_accepted _ ht
    · exact (h k acc hk).cons _
  | @trimmed trim ht =>
    obtain ⟨hold, hgt⟩ := MemAcceptor.record_trimTo.mp hk
    have hrec := h k acc hold
    exact hrec.trimmed (hrec.iid ▸ UInt32.not_le.mp hgt) _
  | rePromised | repeated | silent => exact (h k acc hk).cons _

theorem LoggedAcceptor.AllRecorded.run (ops : List AcceptorOp) :
    ∀ {r : LoggedAcceptor}, r.AllRecorded → (r.run ops).AllRecorded := by
  induction ops with
  | nil => exact fun h => h
  | cons op ops ih => exact fun h => ih (h.move (acceptorStep_move _ op))

/-! ## Over the LMDB backend

The records are accounted for as over the memory backend. The key 0 needs care: it is in use exactly
if something was trimmed, and then not by a record. -/

/-- Every record is accounted for, and the key 0 is free until something is trimmed. Transactions
begin without an error. -/
structure LoggedLmdb.AllRecorded (r : LoggedLmdb T) : Prop where
  proper : r.acceptor.Proper
  recorded : ∀ k acc, k ≠ 0 → r.acceptor.record k = some acc →
    Recorded r.acceptor.trimIid r.log k acc
  free : r.acceptor.trimIid = 0 ↔ CursorTable.lookup r.acceptor.store.env (0 : UInt32) = none
  begins : r.acceptor.store.results.txnBegin = 0

theorem LoggedLmdb.allRecorded_fresh (id : Nat) :
    LoggedLmdb.AllRecorded (T := T) ⟨LmdbAcceptor.fresh id, []⟩ where
  proper := ⟨rfl, Mdb.wellFormed_empty⟩
  recorded k acc _ h := by
    have hrec : Mdb.record (CursorTable.empty : T) k = some acc := h
    rw [Mdb.record_empty] at hrec
    cases hrec
  free := iff_of_true rfl (CursorTable.lookup_empty 0)
  begins := rfl

section Lmdb

variable {a a' : LmdbAcceptor T} {log : List AcceptorEntry} {op : AcceptorOp}
  {reply : AcceptorReply}

/-- A record that is stored leaves the other ones, and the key 0, as they are. -/
theorem LoggedLmdb.AllRecorded.stored (h : LoggedLmdb.AllRecorded ⟨a, log⟩) {acc : PaxosAccepted}
    (hiid : acc.iid ≠ 0) (hfits : acc.FitsInt) {e : AcceptorEntry}
    (hacc : Recorded a.trimIid (e :: log) acc.iid acc) :
    LoggedLmdb.AllRecorded ⟨a.stored acc, e :: log⟩ where
  proper := h.proper.stored hiid hfits
  recorded k acc' hk h' := by
    rw [LmdbAcceptor.record_stored hfits] at h'
    split at h'
    · rename_i hkey
      cases h'
      exact hkey ▸ hacc
    · exact (h.recorded k acc' hk h').cons _
  free := by
    show a.trimIid = 0 ↔ CursorTable.lookup (CursorTable.put a.store.env acc.iid _) 0 = none
    rw [CursorTable.lookup_put, if_neg hiid.symm]
    exact h.free
  begins := h.begins

theorem LoggedLmdb.AllRecorded.move (h : LoggedLmdb.AllRecorded ⟨a, log⟩) (hop : op.InRange)
    (hm : LmdbMove a op reply a')
    (hkept : a.store.results.txnBegin = 0 ∧ a.store.results.txnCommit = 0) :
    LoggedLmdb.AllRecorded ⟨a', (op, reply.out) :: log⟩ := by
  cases hm with
  | silent | rePromised | preempted | repeated =>
    exact ⟨h.proper, fun k acc hk hr => (h.recorded k acc hk hr).cons _, h.free, h.begins⟩
  | @promised req ht hb =>
    have hiid := ne_zero_of_lt ht
    refine h.stored hiid (h.proper.promiseOf_fits hiid) (recorded_promiseOf _ ht fun acc hf => ?_)
    exact h.recorded _ _ hiid (LmdbAcceptor.record_of_found hf)
  | @accepted req ht hb =>
    have hfits : (paxosAcceptToAccepted a.id req).FitsInt := hop
    exact h.stored (ne_zero_of_lt ht) hfits (recorded_accepted _ ht)
  | @trimmed trim ht =>
    refine ⟨⟨rfl, h.proper.wellFormed.trimmed _⟩, fun k acc hk hr => ?_, ?_, h.begins⟩
    · have hrec : (if k ≤ trim.iid then none else a.record k) = some acc :=
        (Mdb.record_trimmed hk trim.iid).symm.trans hr
      split at hrec
      · cases hrec
      · rename_i hgt
        exact (h.recorded k acc hk hrec).trimmed (UInt32.not_le.mp hgt) _
    · refine iff_of_false (ne_zero_of_lt ht) fun hnone => ?_
      cases (Mdb.lookup_zero_trimmed a.store.env trim.iid).symm.trans hnone
  | trimLost ht hfail => exact absurd hkept (by tauto)

end Lmdb

theorem LoggedLmdb.AllRecorded.step {r r' : LoggedLmdb T} {e : ReadEvent} (h : r.AllRecorded)
    (hop : e.op.InRange) (hs : r.step e = some r') : r'.AllRecorded := by
  have hresults : LoggedLmdb.AllRecorded
      ⟨r.acceptor.withResults { get := e.get, valueAddr := e.addr }, r.log⟩ :=
    ⟨h.proper.withResults _, h.recorded, h.free, rfl⟩
  have hm : LmdbMove _ e.op _ _ := lmdbMove hresults.proper fun _ _ => rfl
  cases hs
  exact hresults.move hop hm ⟨rfl, rfl⟩

/-! ## The answer to a repeat request

The lookup is the only thing between the request and the answer. For ids from 1 on it finds what the
handlers have stored there. For the id 0 the LMDB backend finds its own mark, whose four bytes are
too short for a record. -/

/-- The answer is a non-empty value that was accepted for the instance, which is above the trim
point. -/
def RepeatSound (trimIid : UInt32) (log : List AcceptorEntry) (iid : UInt32)
    (out : Option PaxosMessage) : Prop :=
  ∀ m, out = some m → trimIid < iid ∧ ∃ acc, m = .accepted acc ∧ acc.iid = iid ∧
    acc.value ≠ [] ∧ (acc.valueBallot, acc.value) ∈ votesFor iid log

theorem repeatSound_repeatOf {trimIid iid : UInt32} {log : List AcceptorEntry}
    {found : Option PaxosAccepted} (h : ∀ acc, found = some acc → Recorded trimIid log iid acc) :
    RepeatSound trimIid log iid (repeatOf found) := by
  intro m hm
  unfold repeatOf at hm
  split at hm
  · rename_i hfound
    obtain ⟨acc, rfl⟩ := Option.ne_none_iff_exists'.mp hfound.1
    cases hm
    have hrec := h acc rfl
    have hvalue : acc.value ≠ [] := List.ne_nil_of_length_pos hfound.2
    exact ⟨hrec.above, acc, rfl, hrec.iid, hvalue, hrec.voted hvalue⟩
  · cases hm

/-- What the lookup of a repeat request decodes, unless it is the trim mark. -/
theorem LoggedLmdb.AllRecorded.lookup {r : LoggedLmdb T} (h : r.AllRecorded) {iid : UInt32}
    (hiid : iid ≠ 0 ∨ r.acceptor.trimIid = 0) {data : List UInt8}
    (hdata : CursorTable.lookup r.acceptor.store.env iid = some data) :
    ∃ addr acc, data = paxosAcceptedToBuffer addr acc ∧
      Recorded r.acceptor.trimIid r.log iid acc := by
  have hne : iid ≠ 0 := by
    rintro rfl
    rw [h.free.mp (hiid.resolve_left fun hne => hne rfl)] at hdata
    cases hdata
  obtain ⟨addr, acc, rfl, -, hfits⟩ := h.proper.wellFormed.record iid data hne hdata
  have hrec : r.acceptor.record iid = some acc := by
    unfold LmdbAcceptor.record Mdb.record
    rw [hdata, Option.bind_some, paxosAcceptedFromBuffer_toBuffer addr hfits]
  exact ⟨addr, acc, rfl, h.recorded iid acc hne hrec⟩

/-- The lookup returns, and what it returns is accounted for. -/
theorem LoggedLmdb.AllRecorded.get {r : LoggedLmdb T} (h : r.AllRecorded) {iid : UInt32}
    (hiid : iid ≠ 0 ∨ r.acceptor.trimIid = 0) :
    ∃ found, lmdbStorageGet (r.acceptor.store.inTxn r.acceptor.store.env) iid = .ok found ∧
      ∀ acc, found = some acc → Recorded r.acceptor.trimIid r.log iid acc := by
  by_cases hne : iid = 0
  · have hfree := h.free.mp (hiid.resolve_left (not_not.mpr hne))
    refine ⟨none, ?_, fun acc hacc => by cases hacc⟩
    unfold lmdbStorageGet
    by_cases hget : r.acceptor.store.results.get = 0
    · rw [mdbGet_absent hget (hne ▸ hfree)]
    · rw [mdbGet_failed hget]
  · refine ⟨_, lmdbStorageGet_ok h.proper.wellFormed hne, fun acc hacc => ?_⟩
    exact h.recorded iid acc hne (LmdbAcceptor.record_of_found hacc)

/-- The mark of four bytes is too short for a record. -/
theorem mark_ne_record (iid : UInt32) (addr : UInt64) (acc : PaxosAccepted) :
    leBytes 4 iid.toNat ≠ paxosAcceptedToBuffer addr acc := by
  intro h
  have hlen := congrArg List.length h
  simp only [paxosAcceptedToBuffer, List.length_append, length_leBytes] at hlen
  omega

/-- After a trim there is something under the key 0 that is not a record. -/
theorem LoggedLmdb.AllRecorded.lookup_mark {r : LoggedLmdb T} (h : r.AllRecorded)
    (ht : r.acceptor.trimIid ≠ 0) :
    ∃ iid : UInt32,
      CursorTable.lookup r.acceptor.store.env (0 : UInt32) = some (leBytes 4 iid.toNat) := by
  obtain ⟨data, hdata⟩ := Option.ne_none_iff_exists'.mp fun hnone => ht (h.free.mpr hnone)
  obtain ⟨iid, rfl⟩ := h.proper.wellFormed.mark data hdata
  exact ⟨iid, hdata⟩

/-- The mark ends before the record that is read from it does. -/
theorem LoggedLmdb.AllRecorded.get_mark {r : LoggedLmdb T} (h : r.AllRecorded)
    (ht : r.acceptor.trimIid ≠ 0) (hget : r.acceptor.store.results.get = 0) :
    lmdbStorageGet (r.acceptor.store.inTxn r.acceptor.store.env) 0 = .error .outOfBounds := by
  obtain ⟨iid, hlookup⟩ := h.lookup_mark ht
  have hshort : paxosAcceptedFromBuffer (leBytes 4 iid.toNat) = none := by
    unfold paxosAcceptedFromBuffer
    rw [Mdb.readLe_mark]
    rfl
  unfold lmdbStorageGet
  rw [mdbGet_found hget hlookup]
  simp only [hshort]

/-- A request for the id 0 after a trim reads past the mark. -/
theorem LoggedLmdb.AllRecorded.receiveRepeat_mark {r : LoggedLmdb T} (h : r.AllRecorded)
    (ht : r.acceptor.trimIid ≠ 0) (hget : r.acceptor.store.results.get = 0) :
    lmdbReceiveRepeat r.acceptor 0 = .error .outOfBounds := by
  unfold lmdbReceiveRepeat
  rw [lmdbStorageTxBegin_ok h.proper.txn, if_neg (not_not.mpr h.begins)]
  show (lmdbStorageGet (r.acceptor.store.inTxn r.acceptor.store.env) 0).bind _ = _
  rw [h.get_mark ht hget]
  rfl

/-- Other requests are carried out, and change nothing. -/
theorem LoggedLmdb.AllRecorded.receiveRepeat_ok {r : LoggedLmdb T} (h : r.AllRecorded)
    {iid : UInt32}
    (hiid : iid ≠ 0 ∨ r.acceptor.trimIid = 0 ∨ r.acceptor.store.results.get ≠ 0) :
    ∃ out, lmdbReceiveRepeat r.acceptor iid = .ok (r.acceptor, out) := by
  by_cases hget : r.acceptor.store.results.get = 0
  · obtain ⟨found, hfound, -⟩ :=
      h.get (hiid.imp_right fun hor => hor.resolve_right (not_not.mpr hget))
    exact ⟨_, lmdbReceiveRepeat_eq h.proper.txn hfound⟩
  · have hfound : lmdbStorageGet (r.acceptor.store.inTxn r.acceptor.store.env) iid = .ok none := by
      unfold lmdbStorageGet
      rw [mdbGet_failed hget]
    exact ⟨_, lmdbReceiveRepeat_eq h.proper.txn hfound⟩

/-- A vote for the instance 2, and a trim of the instance 1. -/
def votedAndTrimmed : List ReadEvent :=
  [⟨0, 4096, .receiveAccept { iid := 2, ballot := 10, value := [7] }⟩,
    ⟨0, 0, .receiveTrim { iid := 1 }⟩]

/-- The variables of the loop: the acceptor, where the answers go, the id, and the ids asked for so
far. -/
structure RepeatLoop (α γ : Type) where
  acceptor : α
  answers : γ
  iid : UInt32
  visited : List UInt32

section RepeatLoop

variable {α γ : Type} (receive : α → UInt32 → Except Fault (α × Option PaxosMessage))
  (send : γ → PaxosAccepted → Except Fault γ)

/-- An accepted message is sent; a call that returns 0 has none. -/
def sendAnswer (answers : γ) : Option PaxosMessage → Except Fault γ
  | some (.accepted acc) => send answers acc
  | _ => .ok answers

/-- One turn of `for (iid = repeat->from; iid <= repeat->to; ++iid)`. -/
def repeatTurn (toIid : UInt32) (s : RepeatLoop α γ) : Except Fault (RepeatLoop α γ × Bool) :=
  if s.iid ≤ toIid then do
    let (acceptor, out) ← receive s.acceptor s.iid
    let answers ← sendAnswer send s.answers out
    .ok ({ acceptor, answers, iid := s.iid + 1, visited := s.visited ++ [s.iid] }, true)
  else .ok (s, false)

/-- The loop that the repeat handlers of both stacks have. -/
def repeatLoop (fuel : Nat) (a : α) (answers : γ) (msg : PaxosRepeat) :
    Except Fault (Option (RepeatLoop α γ)) :=
  loop (repeatTurn receive send msg.toIid) fuel
    { acceptor := a, answers, iid := msg.fromIid, visited := [] }

/-- The ids of the message were asked for in order, each of them once, and no other id. -/
def RepeatLoop.VisitedAll (s : RepeatLoop α γ) (msg : PaxosRepeat) : Prop :=
  s.visited.Pairwise (· < ·) ∧ ∀ iid, iid ∈ s.visited ↔ msg.fromIid ≤ iid ∧ iid ≤ msg.toIid

/-- The ids from the first one up to the current one were asked for. Without a wrap around, the
current id is at most one above the last one, unless there was nothing to ask for. -/
structure RepeatLoop.Underway (P : α → γ → Prop) (msg : PaxosRepeat) (s : RepeatLoop α γ) :
    Prop where
  ordered : s.visited.Pairwise (· < ·)
  visited : ∀ iid, iid ∈ s.visited ↔
    msg.fromIid.toNat ≤ iid.toNat ∧ iid.toNat < s.iid.toNat
  start : msg.fromIid.toNat ≤ s.iid.toNat
  stop : s.iid.toNat ≤ msg.toIid.toNat + 1 ∨ s.iid = msg.fromIid
  kept : P s.acceptor s.answers

variable {receive send} {P : α → γ → Prop} {msg : PaxosRepeat} {s : RepeatLoop α γ}

theorem repeatTurn_again {toIid : UInt32} {a : α} {out : Option PaxosMessage} {answers : γ}
    (hle : s.iid ≤ toIid) (hreceive : receive s.acceptor s.iid = .ok (a, out))
    (hsend : sendAnswer send s.answers out = .ok answers) :
    repeatTurn receive send toIid s = .ok
      ({ acceptor := a, answers, iid := s.iid + 1, visited := s.visited ++ [s.iid] }, true) := by
  unfold repeatTurn
  rw [if_pos hle]
  exact Except.bind_eq_ok.mpr ⟨_, hreceive, Except.bind_eq_ok.mpr ⟨_, hsend, rfl⟩⟩

/-- Below the largest id there is no wrap around. -/
theorem toNat_add_one_of_le {iid toIid : UInt32} (hmax : toIid ≠ 4294967295) (hle : iid ≤ toIid) :
    (iid + 1).toNat = iid.toNat + 1 := by
  have hle' : iid.toNat ≤ toIid.toNat := UInt32.le_iff_toNat_le.mp hle
  have hmax' : toIid.toNat ≠ 4294967295 := fun he => hmax (UInt32.toNat_inj.mp he)
  have hlt := toIid.toNat_lt
  rw [UInt32.toNat_add, UInt32.toNat_one]
  omega

theorem RepeatLoop.Underway.again (h : s.Underway P msg) (hmax : msg.toIid ≠ 4294967295)
    (hle : s.iid ≤ msg.toIid) {a : α} {answers : γ} (hP : P a answers) :
    RepeatLoop.Underway P msg
      { acceptor := a, answers, iid := s.iid + 1, visited := s.visited ++ [s.iid] } := by
  have hle' : s.iid.toNat ≤ msg.toIid.toNat := UInt32.le_iff_toNat_le.mp hle
  have hnext := toNat_add_one_of_le hmax hle
  have hstart := h.start
  constructor
  · rw [List.pairwise_append]
    refine ⟨h.ordered, List.pairwise_singleton _ _, fun x hx y hy => ?_⟩
    rw [List.mem_singleton.mp hy, UInt32.lt_iff_toNat_lt]
    exact ((h.visited x).mp hx).2
  · intro iid
    rw [List.mem_append, h.visited, List.mem_singleton, ← UInt32.toNat_inj]
    show _ ↔ _ ∧ iid.toNat < (s.iid + 1).toNat
    omega
  · show _ ≤ (s.iid + 1).toNat
    omega
  · left
    show (s.iid + 1).toNat ≤ _
    omega
  · exact hP

theorem RepeatLoop.Underway.visitedAll (h : s.Underway P msg) (hgt : ¬ s.iid ≤ msg.toIid) :
    s.VisitedAll msg := by
  refine ⟨h.ordered, fun iid => ?_⟩
  rw [h.visited, UInt32.le_iff_toNat_le, UInt32.le_iff_toNat_le]
  rw [UInt32.le_iff_toNat_le] at hgt
  have hstart := h.start
  rcases h.stop with hstop | hstop
  · omega
  · rw [hstop] at hgt ⊢
    omega

/-- **The loop ends**, if the last id is not the largest one: with the bound `P` on the calls that
the loop makes, each of them returns. -/
theorem exists_repeatLoop_eq_some {a : α} {answers : γ} (hP : P a answers)
    (hmax : msg.toIid ≠ 4294967295)
    (hcalls : ∀ a answers iid, msg.fromIid ≤ iid → iid ≤ msg.toIid → P a answers →
      ∃ a' out answers', receive a iid = .ok (a', out) ∧
        sendAnswer send answers out = .ok answers' ∧ P a' answers') :
    ∃ fuel s, repeatLoop receive send fuel a answers msg = .ok (some s) ∧ s.VisitedAll msg ∧
      P s.acceptor s.answers := by
  have hinit : RepeatLoop.Underway P msg
      { acceptor := a, answers, iid := msg.fromIid, visited := [] } :=
    ⟨List.Pairwise.nil, fun iid => by simp, Nat.le_refl _, .inr rfl, hP⟩
  -- the ids that are left get fewer with each turn
  have hturn : ∀ s : RepeatLoop α γ, s.Underway P msg →
      (∃ s', repeatTurn receive send msg.toIid s = .ok (s', true) ∧ s'.Underway P msg ∧
        msg.toIid.toNat + 1 - s'.iid.toNat < msg.toIid.toNat + 1 - s.iid.toNat) ∨
      ∃ s', repeatTurn receive send msg.toIid s = .ok (s', false) ∧
        s'.VisitedAll msg ∧ P s'.acceptor s'.answers := by
    intro s h
    by_cases hle : s.iid ≤ msg.toIid
    · obtain ⟨a', out, answers', hreceive, hsend, hP'⟩ := hcalls s.acceptor s.answers s.iid
        (UInt32.le_iff_toNat_le.mpr h.start) hle h.kept
      refine .inl ⟨_, repeatTurn_again hle hreceive hsend, h.again hmax hle hP', ?_⟩
      have hle' : s.iid.toNat ≤ msg.toIid.toNat := UInt32.le_iff_toNat_le.mp hle
      have hnext := toNat_add_one_of_le hmax hle
      show _ - (s.iid + 1).toNat < _
      omega
    · exact .inr ⟨s, if_neg hle, h.visitedAll hle, h.kept⟩
  obtain ⟨s, hs, hvisited⟩ := exists_loop_eq_some _ hturn _ hinit
  exact ⟨_, s, hs, hvisited⟩

/-- **A loop that ends** has not been given the largest id as the last one: the comparison would
never fail. -/
theorem toIid_ne_of_repeatLoop {a : α} {answers : γ} {fuel : Nat}
    (h : repeatLoop receive send fuel a answers msg = .ok (some s)) : msg.toIid ≠ 4294967295 := by
  obtain ⟨t, -, ht⟩ := exists_last_turn (I := fun _ => True) (fun _ _ _ _ => trivial) trivial h
  intro hmax
  have hle : t.iid ≤ msg.toIid := by
    rw [hmax, UInt32.le_iff_toNat_le]
    exact Nat.le_of_lt_succ t.iid.toNat_lt
  unfold repeatTurn at ht
  rw [if_pos hle] at ht
  obtain ⟨r, -, ht⟩ := Except.bind_eq_ok.mp ht
  obtain ⟨answers, -, ht⟩ := Except.bind_eq_ok.mp ht
  cases ht

/-- A loop that ends has asked for the first id, if there is one, without a fault. -/
theorem receive_of_repeatLoop {a : α} {answers : γ} {fuel : Nat}
    (hle : msg.fromIid ≤ msg.toIid)
    (h : repeatLoop receive send fuel a answers msg = .ok (some s)) :
    ∃ r, receive a msg.fromIid = .ok r := by
  obtain ⟨k, -, hturn⟩ := loop_eq_some_cases h
  obtain ⟨r, hr⟩ : ∃ r, repeatTurn receive send msg.toIid
      { acceptor := a, answers, iid := msg.fromIid, visited := [] } = .ok r := by
    rcases hturn with hturn | ⟨s₁, hturn, -⟩
    · exact ⟨_, hturn⟩
    · exact ⟨_, hturn⟩
  unfold repeatTurn at hr
  rw [if_pos hle] at hr
  obtain ⟨r, hreceive, -⟩ := Except.bind_eq_ok.mp hr
  exact ⟨r, hreceive⟩

/-- **The loop goes on for ever** if the last id is the largest one: the comparison never fails. -/
theorem repeatLoop_eq_none {a : α} {answers : γ} (hP : P a answers)
    (hmax : msg.toIid = 4294967295)
    (hcalls : ∀ a answers iid, P a answers → ∃ a' out answers', receive a iid = .ok (a', out) ∧
      sendAnswer send answers out = .ok answers' ∧ P a' answers') (fuel : Nat) :
    repeatLoop receive send fuel a answers msg = .ok none := by
  refine loop_eq_none (J := fun s => P s.acceptor s.answers) (fun s hs => ?_) fuel _ hP
  obtain ⟨a', out, answers', hreceive, hsend, hP'⟩ := hcalls s.acceptor s.answers s.iid hs
  have hle : s.iid ≤ msg.toIid := by
    rw [hmax, UInt32.le_iff_toNat_le]
    exact Nat.le_of_lt_succ s.iid.toNat_lt
  exact ⟨_, repeatTurn_again hle hreceive hsend, hP'⟩

end RepeatLoop

/-! ## The acceptor of `evpaxos` -/

/-- `acceptor_receive_repeat` over the memory backend, which asserts nothing. -/
def memReceiveRepeat (a : MemAcceptor) (iid : UInt32) :
    Except Fault (MemAcceptor × Option PaxosMessage) :=
  .ok (acceptorReceiveRepeat storageInitMem a iid)

theorem memReceiveRepeat_eq (a : MemAcceptor) (iid : UInt32) :
    memReceiveRepeat a iid = .ok (a, repeatOf (a.record iid)) := rfl

/-- `evacceptor_handle_repeat`, with `acceptor_receive_repeat` over a backend. The answers go to the
peer that asked. -/
def evacceptorHandleRepeat {α : Type}
    (receive : α → UInt32 → Except Fault (α × Option PaxosMessage)) (fuel : Nat) (a : α)
    (msg : PaxosRepeat) : Except Fault (Option (RepeatLoop α (List PaxosAccepted))) :=
  repeatLoop receive (fun sent acc => .ok (sent ++ [acc])) fuel a [] msg

/-- Sending to a peer does not fail. -/
theorem exists_sendAnswer_eq_ok (sent : List PaxosAccepted) (out : Option PaxosMessage) :
    ∃ sent', sendAnswer (fun sent acc => .ok (sent ++ [acc])) sent out = .ok sent' := by
  unfold sendAnswer
  split <;> exact ⟨_, rfl⟩

/-- The loop ends over a backend that leaves the acceptor as it is and fails no assertion. -/
theorem exists_evacceptorHandleRepeat_eq_some {α : Type}
    {receive : α → UInt32 → Except Fault (α × Option PaxosMessage)} {a : α} {msg : PaxosRepeat}
    (hmax : msg.toIid ≠ 4294967295)
    (hreceive : ∀ iid, msg.fromIid ≤ iid → ∃ out, receive a iid = .ok (a, out)) :
    ∃ fuel s, evacceptorHandleRepeat receive fuel a msg = .ok (some s) ∧ s.VisitedAll msg := by
  have hcalls : ∀ (a' : α) (sent : List PaxosAccepted) iid, msg.fromIid ≤ iid →
      iid ≤ msg.toIid → a' = a → ∃ a'' out sent', receive a' iid = .ok (a'', out) ∧
        sendAnswer (fun sent acc => .ok (sent ++ [acc])) sent out = .ok sent' ∧ a'' = a := by
    rintro a' sent iid hge - rfl
    obtain ⟨out, hout⟩ := hreceive iid hge
    obtain ⟨sent', hsent⟩ := exists_sendAnswer_eq_ok sent out
    exact ⟨a', out, sent', hout, hsent, rfl⟩
  obtain ⟨fuel, s, hs, hvisited, -⟩ := exists_repeatLoop_eq_some (P := fun a' _ => a' = a) rfl hmax
    hcalls
  exact ⟨fuel, s, hs, hvisited⟩

end LibPaxos
