import LibPaxos.Acceptor
import Mathlib.Data.List.Basic

/-!
# Runs of an acceptor

An acceptor together with the log of the requests it was given and the replies it made, newest
first. `AcceptorMove` says once what a request can do to the acceptor; `AcceptorInv` ties the
stored records to the log and is kept by every request.

* **`acceptor_keeps_its_word`** — over every sequence of requests the ballots announced for an
  instance do not go down, a promise reports the last accept that was answered, a vote is never
  above the promise, and trimmed instances stay silent and absent.
* `AcceptorInv.report_spec`, `AcceptorInv.promised_of_promise` — the same facts in the form the
  protocol uses them.
-/

namespace LibPaxos

/-- A call of one of the acceptor's request handlers. -/
inductive AcceptorOp where
  | receivePrepare (req : PaxosPrepare)
  | receiveAccept (req : PaxosAccept)
  | receiveTrim (trim : PaxosTrim)
  | receiveRepeat (iid : UInt32)
deriving DecidableEq

/-- The message that a call is given. Trim and repeat requests are not modelled as messages. -/
def AcceptorOp.message : AcceptorOp → Option PaxosMessage
  | .receivePrepare req => some (.prepare req)
  | .receiveAccept req => some (.accept req)
  | .receiveTrim _ => none
  | .receiveRepeat _ => none

/-- One request: the acceptor after it and the reply, if there is one. -/
def acceptorStep (a : MemAcceptor) : AcceptorOp → MemAcceptor × Option PaxosMessage
  | .receivePrepare req => acceptorReceivePrepare storageInitMem a req
  | .receiveAccept req => acceptorReceiveAccept storageInitMem a req
  | .receiveTrim trim => ((acceptorReceiveTrim storageInitMem a trim).1, none)
  | .receiveRepeat iid => acceptorReceiveRepeat storageInitMem a iid

/-- A request with its reply. -/
abbrev AcceptorEntry := AcceptorOp × Option PaxosMessage

/-- An acceptor and what it has been asked and has answered so far, newest first. -/
structure LoggedAcceptor where
  acceptor : MemAcceptor
  log : List AcceptorEntry

namespace LoggedAcceptor

/-- A fresh acceptor. -/
def fresh (id : Nat) : LoggedAcceptor where
  acceptor := memAcceptorNew id
  log := []

/-- One request, logged. -/
def step (r : LoggedAcceptor) (op : AcceptorOp) : LoggedAcceptor where
  acceptor := (acceptorStep r.acceptor op).1
  log := (op, (acceptorStep r.acceptor op).2) :: r.log

/-- A sequence of requests. -/
def run (r : LoggedAcceptor) (ops : List AcceptorOp) : LoggedAcceptor :=
  ops.foldl step r

end LoggedAcceptor

/-! ## What a request can do

Six outcomes cover the four handlers. Everything later is a case analysis over these, so the
handlers are not unfolded again. -/

/-- The instance and ballot that a promise or accepted reply announces. -/
def announced : Option PaxosMessage → Option (UInt32 × UInt16)
  | some (.promise m) => some (m.iid, m.ballot)
  | some (.accepted m) => some (m.iid, m.ballot)
  | _ => none

/-- The outcomes of a request. Only `promised`, `accepted` and `trimmed` change the acceptor;
`rePromised` and `repeated` answer from the stored record, and whatever else happens announces
nothing. -/
inductive AcceptorMove (a : MemAcceptor) :
    AcceptorOp → MemAcceptor → Option PaxosMessage → Prop where
  | promised {req : PaxosPrepare} (ht : a.trimIid < req.iid) (hb : a.Admits req.iid req.ballot) :
      AcceptorMove a (.receivePrepare req) (a.put (promisedRecord a req))
        (some (paxosAcceptedToPromise (promisedRecord a req)))
  | rePromised {req : PaxosPrepare} {r : PaxosAccepted} (hr : a.record req.iid = some r)
      (hb : req.ballot < r.ballot) :
      AcceptorMove a (.receivePrepare req) a (some (paxosAcceptedToPromise r))
  | accepted {req : PaxosAccept} (ht : a.trimIid < req.iid) (hb : a.Admits req.iid req.ballot) :
      AcceptorMove a (.receiveAccept req) (a.put (paxosAcceptToAccepted a.id req))
        (some (.accepted (paxosAcceptToAccepted a.id req)))
  | repeated {iid : UInt32} {r : PaxosAccepted} (hr : a.record iid = some r)
      (hv : r.value ≠ []) :
      AcceptorMove a (.receiveRepeat iid) a (some (.accepted r))
  | trimmed {trim : PaxosTrim} (ht : a.trimIid < trim.iid) :
      AcceptorMove a (.receiveTrim trim) (a.trimTo trim.iid) none
  | silent {op : AcceptorOp} {out : Option PaxosMessage}
      (ho : out = none ∨ ∃ m, out = some (.preempted m)) : AcceptorMove a op a out

/-- A request that is not admitted meets a record with a larger ballot. -/
theorem MemAcceptor.not_admits {a : MemAcceptor} {iid : UInt32} {ballot : UInt16}
    (h : ¬ a.Admits iid ballot) : ∃ r, a.record iid = some r ∧ ¬ r.ballot ≤ ballot := by
  unfold MemAcceptor.Admits at h
  push Not at h
  obtain ⟨r, hr, hb⟩ := h
  exact ⟨r, hr, fun hle => absurd hb (by simpa using hle)⟩

theorem acceptorMove_prepare (a : MemAcceptor) (req : PaxosPrepare) :
    AcceptorMove a (.receivePrepare req) (acceptorReceivePrepare storageInitMem a req).1
      (acceptorReceivePrepare storageInitMem a req).2 := by
  by_cases ht : req.iid ≤ a.trimIid
  · rw [receivePrepare_trimmed ht]
    exact .silent (.inl rfl)
  · by_cases hb : a.Admits req.iid req.ballot
    · rw [receivePrepare_admits ht hb]
      exact .promised (by simpa using ht) hb
    · obtain ⟨r, hr, hlt⟩ := MemAcceptor.not_admits hb
      rw [receivePrepare_refused ht hr hlt]
      exact .rePromised hr (UInt16.not_le.mp hlt)

theorem acceptorMove_accept (a : MemAcceptor) (req : PaxosAccept) :
    AcceptorMove a (.receiveAccept req) (acceptorReceiveAccept storageInitMem a req).1
      (acceptorReceiveAccept storageInitMem a req).2 := by
  by_cases ht : req.iid ≤ a.trimIid
  · rw [receiveAccept_trimmed ht]
    exact .silent (.inl rfl)
  · by_cases hb : a.Admits req.iid req.ballot
    · rw [receiveAccept_admits ht hb]
      exact .accepted (by simpa using ht) hb
    · obtain ⟨r, hr, hlt⟩ := MemAcceptor.not_admits hb
      rw [receiveAccept_refused ht hr hlt]
      exact .silent (.inr ⟨_, rfl⟩)

theorem acceptorMove_repeat (a : MemAcceptor) (iid : UInt32) :
    AcceptorMove a (.receiveRepeat iid) (acceptorReceiveRepeat storageInitMem a iid).1
      (acceptorReceiveRepeat storageInitMem a iid).2 := by
  have he : acceptorReceiveRepeat storageInitMem a iid
      = (a, if a.record iid ≠ none ∧ ((a.record iid).getD zeroRecord).value.length > 0
          then some (.accepted ((a.record iid).getD zeroRecord)) else none) := rfl
  rw [he]
  cases hr : a.record iid with
  | none => exact .silent (.inl rfl)
  | some r =>
    by_cases hv : r.value.length > 0
    · have : (if some r ≠ none ∧ ((some r).getD zeroRecord).value.length > 0
          then some (PaxosMessage.accepted ((some r).getD zeroRecord)) else none)
          = some (.accepted r) := if_pos ⟨by simp, hv⟩
      rw [this]
      exact .repeated hr (List.ne_nil_of_length_pos hv)
    · have : (if some r ≠ none ∧ ((some r).getD zeroRecord).value.length > 0
          then some (PaxosMessage.accepted ((some r).getD zeroRecord)) else none)
          = none := if_neg fun h => hv h.2
      rw [this]
      exact .silent (.inl rfl)

theorem acceptorMove_trim (a : MemAcceptor) (trim : PaxosTrim) :
    AcceptorMove a (.receiveTrim trim) (acceptorReceiveTrim storageInitMem a trim).1 none := by
  by_cases ht : trim.iid ≤ a.trimIid
  · have he : acceptorReceiveTrim storageInitMem a trim = (a, false) := by
      unfold acceptorReceiveTrim
      rw [if_pos ht]
    rw [he]
    exact .silent (.inl rfl)
  · have he : acceptorReceiveTrim storageInitMem a trim = (a.trimTo trim.iid, true) := by
      unfold acceptorReceiveTrim
      rw [if_neg ht]
      rfl
    rw [he]
    exact .trimmed (by simpa using ht)

/-- **Every request is one of the outcomes.** -/
theorem acceptorStep_move (a : MemAcceptor) (op : AcceptorOp) :
    AcceptorMove a op (acceptorStep a op).1 (acceptorStep a op).2 := by
  cases op with
  | receivePrepare req => exact acceptorMove_prepare a req
  | receiveAccept req => exact acceptorMove_accept a req
  | receiveTrim trim => exact acceptorMove_trim a trim
  | receiveRepeat iid => exact acceptorMove_repeat a iid

/-! ## What the log says

Votes and promises in terms of the log, newest entry first: the last vote for an instance, the
report that a promise of this moment has to give, and the ballots that were announced. -/

/-- The accept that an entry answers with accepted, if it is one for `i`. -/
def entryVote (i : UInt32) : AcceptorEntry → Option PaxosAccept
  | (.receiveAccept req, some (.accepted _)) => if req.iid = i then some req else none
  | _ => none

/-- The last accept for `i` that was answered with accepted. -/
def lastVote (i : UInt32) (log : List AcceptorEntry) : Option PaxosAccept :=
  log.findSome? (entryVote i)

/-- The ballot and value of a vote; zero and empty if there is none. -/
def voteReport (vote : Option PaxosAccept) : UInt16 × PaxosValue :=
  match vote with
  | none => (0, [])
  | some req => (req.ballot, req.value)

/-- The ballots and values voted for in the instance `i`, newest first. -/
def votesFor (i : UInt32) (log : List AcceptorEntry) : List (UInt16 × PaxosValue) :=
  (log.filterMap (entryVote i)).map fun req => (req.ballot, req.value)

/-- The entry `e` announces ballot `b` for the instance `i`. -/
def Announces (e : AcceptorEntry) (i : UInt32) (b : UInt16) : Prop :=
  announced e.2 = some (i, b)

theorem entryVote_eq_some {i : UInt32} {e : AcceptorEntry} {req : PaxosAccept}
    (h : entryVote i e = some req) :
    req.iid = i ∧ ∃ m, e = (.receiveAccept req, some (.accepted m)) := by
  unfold entryVote at h
  split at h
  · rename_i req' m
    split at h
    · rename_i hi
      cases h
      exact ⟨hi, m, rfl⟩
    · cases h
  · cases h

/-- The last vote is an answered accept of the log. -/
theorem lastVote_mem {i : UInt32} {log : List AcceptorEntry} {req : PaxosAccept}
    (h : lastVote i log = some req) :
    req.iid = i ∧ ∃ m, (AcceptorOp.receiveAccept req, some (.accepted m)) ∈ log := by
  obtain ⟨e, he, hv⟩ := List.exists_of_findSome?_eq_some h
  obtain ⟨hi, m, rfl⟩ := entryVote_eq_some hv
  exact ⟨hi, m, he⟩

theorem mem_votesFor {i : UInt32} {log : List AcceptorEntry} {c : UInt16} {v : PaxosValue} :
    (c, v) ∈ votesFor i log ↔ ∃ req m, (AcceptorOp.receiveAccept req, some (.accepted m)) ∈ log ∧
      req.iid = i ∧ req.ballot = c ∧ req.value = v := by
  unfold votesFor
  rw [List.mem_map]
  constructor
  · rintro ⟨req, hreq, heq⟩
    obtain ⟨e, he, hv⟩ := List.mem_filterMap.mp hreq
    obtain ⟨hi, m, rfl⟩ := entryVote_eq_some hv
    cases heq
    exact ⟨req, m, he, hi, rfl, rfl⟩
  · rintro ⟨req, m, he, hi, rfl, rfl⟩
    exact ⟨req, List.mem_filterMap.mpr ⟨_, he, if_pos hi⟩, rfl⟩

/-- A log with a vote for `i` has a last one. -/
theorem lastVote_ne_none {i : UInt32} {log : List AcceptorEntry} {req : PaxosAccept}
    {m : PaxosAccepted} (h : (AcceptorOp.receiveAccept req, some (.accepted m)) ∈ log)
    (hi : req.iid = i) : lastVote i log ≠ none := by
  intro hn
  have := List.findSome?_eq_none_iff.mp hn _ h
  rw [entryVote, if_pos hi] at this
  cases this

theorem lastVote_mem_votesFor {i : UInt32} {log : List AcceptorEntry} {req : PaxosAccept}
    (h : lastVote i log = some req) : (req.ballot, req.value) ∈ votesFor i log := by
  obtain ⟨hi, m, hm⟩ := lastVote_mem h
  exact mem_votesFor.mpr ⟨req, m, hm, hi, rfl, rfl⟩

theorem votesFor_cons_subset (i : UInt32) (e : AcceptorEntry) (log : List AcceptorEntry)
    {p : UInt16 × PaxosValue} (h : p ∈ votesFor i log) : p ∈ votesFor i (e :: log) := by
  obtain ⟨c, v⟩ := p
  obtain ⟨req, m, he, hr⟩ := mem_votesFor.mp h
  exact mem_votesFor.mpr ⟨req, m, List.mem_cons_of_mem _ he, hr⟩

theorem lastVote_cons_of_none {i : UInt32} {e : AcceptorEntry} {log : List AcceptorEntry}
    (h : entryVote i e = none) : lastVote i (e :: log) = lastVote i log := by
  unfold lastVote
  rw [List.findSome?_cons_of_isNone]
  rw [h]
  rfl

theorem lastVote_cons_of_some {i : UInt32} {e : AcceptorEntry} {log : List AcceptorEntry}
    {req : PaxosAccept} (h : entryVote i e = some req) : lastVote i (e :: log) = some req := by
  unfold lastVote
  rw [List.findSome?_cons, h]

/-- The last vote has the largest ballot of the votes, if announced ballots do not go down. -/
theorem lastVote_ballot_ge {i : UInt32} {log : List AcceptorEntry} {last req : PaxosAccept}
    {m : PaxosAccepted}
    (hasc : log.Pairwise fun later earlier =>
      ∀ i b b', Announces earlier i b → Announces later i b' → b ≤ b')
    (hann : ∀ req m, (AcceptorOp.receiveAccept req, some (.accepted m)) ∈ log →
      Announces (.receiveAccept req, some (.accepted m)) req.iid req.ballot)
    (hl : lastVote i log = some last)
    (h : (AcceptorOp.receiveAccept req, some (.accepted m)) ∈ log) (hi : req.iid = i) :
    req.ballot ≤ last.ballot := by
  have hreq := hann req m h
  obtain ⟨newer, e, older, rfl, he, hnone⟩ := List.findSome?_eq_some_iff.mp hl
  obtain ⟨hli, ml, rfl⟩ := entryVote_eq_some he
  have hlast := hann last ml (by simp)
  rcases List.mem_append.mp h with hnew | hrest
  · exact absurd (hnone _ hnew) (by simp [entryVote, hi])
  · rcases List.mem_cons.mp hrest with heq | hold
    · cases heq
      exact UInt16.le_refl _
    · have hpair := (List.pairwise_cons.mp (List.pairwise_append.mp hasc).2.1).1 _ hold
      exact hpair i req.ballot last.ballot (hi ▸ hreq) (hli ▸ hlast)

/-! ## The invariant

The stored record of an instance is a digest of the log: its ballot bounds what was announced for
the instance, and its value is the last vote. A record that was trimmed is gone for good, as the
handlers compare the id with the trim point first. The fields are kept one by one, each from what
the move says about its record. -/

/-- How the stored records and the log hang together. -/
structure AcceptorInv (r : LoggedAcceptor) : Prop where
  stored : ∀ i rec, r.acceptor.record i = some rec →
    rec.iid = i ∧ rec.aid = UInt16.ofNat r.acceptor.id ∧ r.acceptor.trimIid < i ∧
      rec.valueBallot ≤ rec.ballot
  report : ∀ i rec, r.acceptor.record i = some rec →
    (rec.valueBallot, rec.value) = voteReport (lastVote i r.log)
  bound : ∀ i rec, r.acceptor.record i = some rec →
    ∀ e ∈ r.log, ∀ b, Announces e i b → b ≤ rec.ballot
  absent : ∀ i, r.acceptor.record i = none → r.acceptor.trimIid < i →
    ∀ e ∈ r.log, ∀ b, ¬ Announces e i b
  ascending : r.log.Pairwise fun later earlier =>
    ∀ i b b', Announces earlier i b → Announces later i b' → b ≤ b'
  promises : ∀ newer op m older, r.log = newer ++ (op, some (.promise m)) :: older →
    (m.valueBallot, m.value) = voteReport (lastVote m.iid older) ∧
      m.aid = UInt16.ofNat r.acceptor.id
  votes : ∀ req m, (AcceptorOp.receiveAccept req, some (.accepted m)) ∈ r.log →
    m = paxosAcceptToAccepted r.acceptor.id req
  accepteds : ∀ op m, (op, some (.accepted m)) ∈ r.log →
    m.aid = UInt16.ofNat r.acceptor.id ∧ (m.valueBallot, m.value) ∈ votesFor m.iid r.log
  replies : ∀ e ∈ r.log, ∀ m ∈ e.2, m.isRequest = false
  asked : ∀ op m, (op, some (.promise m)) ∈ r.log →
    ∃ req, op = .receivePrepare req ∧ req.ballot ≤ m.ballot
  answers : ∀ op m, (op, some (.accepted m)) ∈ r.log →
    (∃ req, op = .receiveAccept req) ∨ ∃ iid, op = .receiveRepeat iid

theorem acceptorInv_fresh (id : Nat) : AcceptorInv (.fresh id) where
  stored i rec h := by cases h
  report i rec h := by cases h
  bound i rec h := by cases h
  absent i _ _ e he := by cases he
  ascending := List.Pairwise.nil
  promises newer op m older h := by
    have := congrArg List.length h
    simp [LoggedAcceptor.fresh] at this
  votes req m h := by cases h
  accepteds op m h := by cases h
  replies e he := by cases he
  asked op m h := by cases h
  answers op m h := by cases h

section Step

variable {r : LoggedAcceptor} {op : AcceptorOp} {a' : MemAcceptor} {out : Option PaxosMessage}

theorem AcceptorMove.id_eq {a : MemAcceptor} (hm : AcceptorMove a op a' out) : a'.id = a.id := by
  cases hm <;> rfl

theorem AcceptorMove.admits_of_accepted {a : MemAcceptor} {req : PaxosAccept} {m : PaxosAccepted}
    (hm : AcceptorMove a (.receiveAccept req) a' out) (ho : out = some (.accepted m)) :
    a.trimIid < req.iid ∧ a.Admits req.iid req.ballot := by
  cases hm with
  | accepted ht hb => exact ⟨ht, hb⟩
  | silent hn =>
    rw [ho] at hn
    exact absurd hn (by simp)

theorem AcceptorMove.trimIid_le {a : MemAcceptor} (hm : AcceptorMove a op a' out) :
    a.trimIid ≤ a'.trimIid := by
  cases hm with
  | trimmed ht => exact UInt32.le_of_lt ht
  | promised | rePromised | accepted | repeated | silent => exact UInt32.le_refl _

/-- The stored record of a promise carries the last vote. -/
theorem AcceptorInv.promisedRecord_report (hi : AcceptorInv r) {req : PaxosPrepare}
    (ht : r.acceptor.trimIid < req.iid) :
    ((promisedRecord r.acceptor req).valueBallot, (promisedRecord r.acceptor req).value)
      = voteReport (lastVote req.iid r.log) := by
  unfold promisedRecord
  cases hr : r.acceptor.record req.iid with
  | some rec => exact hi.report req.iid rec hr
  | none =>
    -- nothing was announced for this instance, so nothing was accepted either
    cases hv : lastVote req.iid r.log with
    | none => rfl
    | some v =>
      obtain ⟨hiid, m, hmem⟩ := lastVote_mem hv
      have hann : Announces (.receiveAccept v, some (.accepted m)) req.iid m.ballot := by
        rw [hi.votes v m hmem, ← hiid]
        rfl
      exact absurd hann (hi.absent _ hr ht _ hmem _)

theorem promisedRecord_valueBallot_le (hi : AcceptorInv r) {req : PaxosPrepare}
    (hb : r.acceptor.Admits req.iid req.ballot) :
    (promisedRecord r.acceptor req).valueBallot ≤ req.ballot := by
  unfold promisedRecord
  cases hr : r.acceptor.record req.iid with
  | none => exact UInt16.zero_le
  | some rec => exact UInt16.le_trans (hi.stored _ _ hr).2.2.2 (hb rec hr)

theorem AcceptorInv.stored_move (hi : AcceptorInv r) (hm : AcceptorMove r.acceptor op a' out)
    (i : UInt32) (rec : PaxosAccepted) (h : a'.record i = some rec) :
    rec.iid = i ∧ rec.aid = UInt16.ofNat a'.id ∧ a'.trimIid < i ∧
      rec.valueBallot ≤ rec.ballot := by
  cases hm with
  | @promised req ht hb =>
    rw [MemAcceptor.record_put] at h
    split at h
    · rename_i hiid
      cases h
      exact ⟨hiid.symm, rfl, hiid ▸ ht, promisedRecord_valueBallot_le hi hb⟩
    · exact hi.stored i rec h
  | @accepted req ht hb =>
    rw [MemAcceptor.record_put] at h
    split at h
    · rename_i hiid
      cases h
      exact ⟨hiid.symm, rfl, hiid ▸ ht, UInt16.le_refl _⟩
    · exact hi.stored i rec h
  | @trimmed trim ht =>
    obtain ⟨hr, hlt⟩ := MemAcceptor.record_trimTo.mp h
    obtain ⟨hiid, haid, -, hvb⟩ := hi.stored i rec hr
    exact ⟨hiid, haid, by simpa [hiid] using hlt, hvb⟩
  | rePromised | repeated | silent => exact hi.stored i rec h

/-- What a reply announces is what is stored when it is made. -/
theorem AcceptorInv.record_of_announces (hi : AcceptorInv r)
    (hm : AcceptorMove r.acceptor op a' out) {i : UInt32} {b : UInt16}
    (h : Announces (op, out) i b) : ∃ rec, a'.record i = some rec ∧ rec.ballot = b := by
  unfold Announces at h
  cases hm with
  | @promised req ht hb =>
    cases h
    exact ⟨_, by rw [MemAcceptor.record_put, if_pos rfl], rfl⟩
  | @accepted req ht hb =>
    cases h
    exact ⟨_, by rw [MemAcceptor.record_put, if_pos rfl], rfl⟩
  | @rePromised req rec hr hb =>
    cases h
    rw [(hi.stored _ _ hr).1]
    exact ⟨rec, hr, rfl⟩
  | @repeated iid rec hr hv =>
    cases h
    rw [(hi.stored _ _ hr).1]
    exact ⟨rec, hr, rfl⟩
  | trimmed => cases h
  | silent ho =>
    rcases ho with rfl | ⟨m, rfl⟩
    · cases h
    · cases h

/-- A stored ballot only goes up while its instance is not trimmed. -/
theorem AcceptorMove.record_mono {a : MemAcceptor} (hm : AcceptorMove a op a' out) {i : UInt32}
    {rec : PaxosAccepted} (h : a.record i = some rec) (hiid : rec.iid = i) :
    i ≤ a'.trimIid ∨ ∃ rec', a'.record i = some rec' ∧ rec.ballot ≤ rec'.ballot := by
  cases hm with
  | @promised req ht hb =>
    right
    rw [MemAcceptor.record_put]
    split
    · rename_i hi
      subst hi
      exact ⟨_, rfl, hb rec h⟩
    · exact ⟨rec, h, UInt16.le_refl _⟩
  | @accepted req ht hb =>
    right
    rw [MemAcceptor.record_put]
    split
    · rename_i hi
      subst hi
      exact ⟨_, rfl, hb rec h⟩
    · exact ⟨rec, h, UInt16.le_refl _⟩
  | @trimmed trim ht =>
    -- a trim is the only move that drops a record
    by_cases hle : i ≤ trim.iid
    · exact .inl hle
    · exact .inr ⟨rec, MemAcceptor.record_trimTo.mpr ⟨h, hiid ▸ hle⟩, UInt16.le_refl _⟩
  | rePromised | repeated | silent => exact .inr ⟨rec, h, UInt16.le_refl _⟩

/-- A request does not make up records: one that is there was there, or nothing stood in its
place and the instance was not trimmed. -/
theorem AcceptorInv.record_origin (hi : AcceptorInv r) (hm : AcceptorMove r.acceptor op a' out)
    {i : UInt32} {rec' : PaxosAccepted} (h : a'.record i = some rec') :
    (∃ rec, r.acceptor.record i = some rec ∧ rec.ballot ≤ rec'.ballot) ∨
      (r.acceptor.record i = none ∧ r.acceptor.trimIid < i) := by
  cases hr : r.acceptor.record i with
  | none => exact .inr ⟨rfl, UInt32.lt_of_le_of_lt hm.trimIid_le (hi.stored_move hm i rec' h).2.2.1⟩
  | some rec =>
    rcases hm.record_mono hr (hi.stored _ _ hr).1 with hle | ⟨rec'', hr'', hb⟩
    · exact absurd (hi.stored_move hm i rec' h).2.2.1 (UInt32.not_lt.mpr hle)
    · obtain rfl : rec' = rec'' := Option.some.inj (h.symm.trans hr'')
      exact .inl ⟨rec, rfl, hb⟩

theorem AcceptorInv.bound_move (hi : AcceptorInv r) (hm : AcceptorMove r.acceptor op a' out)
    {i : UInt32} {rec' : PaxosAccepted} (h : a'.record i = some rec') {e : AcceptorEntry}
    (he : e ∈ r.log) {b : UInt16} (hb : Announces e i b) : b ≤ rec'.ballot := by
  rcases hi.record_origin hm h with ⟨rec, hr, hle⟩ | ⟨hr, ht⟩
  · exact UInt16.le_trans (hi.bound i rec hr e he b hb) hle
  · exact absurd hb (hi.absent i hr ht e he b)

theorem AcceptorInv.report_move (hi : AcceptorInv r) (hm : AcceptorMove r.acceptor op a' out)
    (i : UInt32) (rec : PaxosAccepted) (h : a'.record i = some rec) :
    (rec.valueBallot, rec.value) = voteReport (lastVote i ((op, out) :: r.log)) := by
  cases hm with
  | @promised req ht hb =>
    -- a promise is no vote: the record keeps the report it had
    rw [lastVote_cons_of_none rfl]
    rw [MemAcceptor.record_put] at h
    split at h
    · rename_i hiid
      cases h
      rw [hiid]
      exact hi.promisedRecord_report ht
    · exact hi.report i rec h
  | @accepted req ht hb =>
    rw [MemAcceptor.record_put] at h
    split at h
    · rename_i hiid
      cases h
      -- a vote for this instance is the last one now
      have hv : entryVote req.iid (.receiveAccept req,
          some (.accepted (paxosAcceptToAccepted r.acceptor.id req))) = some req := if_pos rfl
      subst hiid
      exact congrArg voteReport (lastVote_cons_of_some hv).symm
    · rename_i hiid
      have hv : entryVote i (.receiveAccept req,
          some (.accepted (paxosAcceptToAccepted r.acceptor.id req))) = none :=
        if_neg fun hc => hiid hc.symm
      rw [lastVote_cons_of_none hv]
      exact hi.report i rec h
  | @trimmed trim ht =>
    rw [lastVote_cons_of_none rfl]
    exact hi.report i rec (MemAcceptor.record_trimTo.mp h).1
  | rePromised hr _ =>
    rw [lastVote_cons_of_none rfl]
    exact hi.report i rec h
  | repeated hr hv =>
    rw [lastVote_cons_of_none rfl]
    exact hi.report i rec h
  | silent ho =>
    have hv : entryVote i (op, out) = none := by
      rcases ho with rfl | ⟨m, rfl⟩
      · cases op <;> rfl
      · cases op <;> rfl
    rw [lastVote_cons_of_none hv]
    exact hi.report i rec h

/-- A promise reports the last vote, and answers a prepare request that it does not fall short of.
-/
theorem AcceptorInv.of_promise (hi : AcceptorInv r) (hm : AcceptorMove r.acceptor op a' out)
    {m : PaxosPromise} (ho : out = some (.promise m)) :
    ((m.valueBallot, m.value) = voteReport (lastVote m.iid r.log) ∧
        m.aid = UInt16.ofNat r.acceptor.id) ∧
      ∃ req, op = .receivePrepare req ∧ req.ballot ≤ m.ballot := by
  cases hm with
  | @promised req ht hb =>
    cases ho
    exact ⟨⟨hi.promisedRecord_report ht, rfl⟩, req, rfl, UInt16.le_refl _⟩
  | @rePromised req rec hr hb =>
    cases ho
    obtain ⟨hiid, haid, -⟩ := hi.stored _ _ hr
    refine ⟨⟨?_, haid⟩, req, rfl, UInt16.le_of_lt hb⟩
    show _ = voteReport (lastVote rec.iid r.log)
    rw [hiid]
    exact hi.report _ _ hr
  | accepted | repeated | trimmed => cases ho
  | silent hn =>
    cases ho
    exact absurd hn (by simp)

/-- An accepted reply reports a vote: the one it is sent for, or the last one. -/
theorem AcceptorInv.of_accepted (hi : AcceptorInv r) (hm : AcceptorMove r.acceptor op a' out)
    {m : PaxosAccepted} (ho : out = some (.accepted m)) :
    (m.aid = UInt16.ofNat r.acceptor.id ∧
        (m.valueBallot, m.value) ∈ votesFor m.iid ((op, out) :: r.log)) ∧
      ((∃ req, op = .receiveAccept req) ∨ ∃ iid, op = .receiveRepeat iid) := by
  cases hm with
  | @accepted req ht hb =>
    cases ho
    exact ⟨⟨rfl, mem_votesFor.mpr ⟨req, _, List.mem_cons_self, rfl, rfl, rfl⟩⟩, .inl ⟨req, rfl⟩⟩
  | @repeated iid rec hr hv =>
    cases ho
    obtain ⟨hiid, haid, -⟩ := hi.stored _ _ hr
    refine ⟨⟨haid, votesFor_cons_subset _ _ _ ?_⟩, .inr ⟨iid, rfl⟩⟩
    -- a stored value was voted for: without a vote the record reports the empty value
    have hrep := hi.report _ _ hr
    cases hl : lastVote iid r.log with
    | none =>
      rw [hl] at hrep
      exact absurd (congrArg Prod.snd hrep) hv
    | some req =>
      rw [hl] at hrep
      rw [hrep, hiid]
      exact lastVote_mem_votesFor hl
  | promised | rePromised | trimmed => cases ho
  | silent hn =>
    cases ho
    exact absurd hn (by simp)

theorem AcceptorMove.isRequest_eq_false {a : MemAcceptor} (hm : AcceptorMove a op a' out)
    {m : PaxosMessage} (hmem : m ∈ out) : m.isRequest = false := by
  cases hm with
  | promised | rePromised | accepted | repeated =>
    cases hmem
    rfl
  | trimmed => cases hmem
  | silent ho =>
    rcases ho with rfl | ⟨m', rfl⟩
    · cases hmem
    · cases hmem
      rfl

/-- **One request keeps the invariant.** -/
theorem AcceptorInv.move (hi : AcceptorInv r) (hm : AcceptorMove r.acceptor op a' out) :
    AcceptorInv ⟨a', (op, out) :: r.log⟩ where
  stored := hi.stored_move hm
  report := hi.report_move hm
  bound i rec h e he b hb := by
    rcases List.mem_cons.mp he with rfl | he
    -- what the new entry announces is the ballot of the record it leaves
    · obtain ⟨rec', hr', rfl⟩ := hi.record_of_announces hm hb
      obtain rfl : rec = rec' := Option.some.inj (h.symm.trans hr')
      exact UInt16.le_refl _
    · exact hi.bound_move hm h he hb
  absent i hn ht e he b hb := by
    rcases List.mem_cons.mp he with rfl | he
    · obtain ⟨rec', hr', -⟩ := hi.record_of_announces hm hb
      exact absurd (hn.symm.trans hr') (by simp)
    · cases hr : r.acceptor.record i with
      -- a record that has gone was trimmed
      | none => exact hi.absent i hr (UInt32.lt_of_le_of_lt hm.trimIid_le ht) e he b hb
      | some rec =>
        rcases hm.record_mono hr (hi.stored _ _ hr).1 with hle | ⟨rec', hr', -⟩
        · exact UInt32.not_lt.mpr hle ht
        · exact absurd (hn.symm.trans hr') (by simp)
  ascending := by
    refine List.pairwise_cons.mpr ⟨?_, hi.ascending⟩
    intro e he i b b' hb hb'
    obtain ⟨rec, hr, rfl⟩ := hi.record_of_announces hm hb'
    exact hi.bound_move hm hr he hb
  promises newer op' m older h := by
    rw [hm.id_eq]
    -- the new entry is the first one, or the promise was there before
    cases newer with
    | cons e newer =>
      rw [List.cons_append, List.cons.injEq] at h
      exact hi.promises newer op' m older h.2
    | nil =>
      rw [List.nil_append, List.cons.injEq] at h
      obtain ⟨heq, rfl⟩ := h
      exact (hi.of_promise hm (congrArg Prod.snd heq)).1
  votes req m h := by
    rw [hm.id_eq]
    rcases List.mem_cons.mp h with heq | h
    · cases heq
      cases hm with
      | accepted => rfl
      | silent ho => exact absurd ho (by simp)
    · exact hi.votes req m h
  accepteds op' m h := by
    rw [hm.id_eq]
    rcases List.mem_cons.mp h with heq | h
    · exact (hi.of_accepted hm (congrArg Prod.snd heq).symm).1
    · obtain ⟨haid, hv⟩ := hi.accepteds op' m h
      exact ⟨haid, votesFor_cons_subset _ _ _ hv⟩
  replies e he m hmem := by
    rcases List.mem_cons.mp he with rfl | he
    · exact hm.isRequest_eq_false hmem
    · exact hi.replies e he m hmem
  asked op' m h := by
    rcases List.mem_cons.mp h with heq | h
    · cases heq
      exact (hi.of_promise hm rfl).2
    · exact hi.asked op' m h
  answers op' m h := by
    rcases List.mem_cons.mp h with heq | h
    · cases heq
      exact (hi.of_accepted hm rfl).2
    · exact hi.answers op' m h

theorem AcceptorInv.step (hi : AcceptorInv r) (op : AcceptorOp) : AcceptorInv (r.step op) :=
  hi.move (acceptorStep_move r.acceptor op)

end Step

/-- The invariant over a whole run. -/
theorem AcceptorInv.run {r : LoggedAcceptor} (hi : AcceptorInv r) (ops : List AcceptorOp) :
    AcceptorInv (r.run ops) := by
  induction ops generalizing r with
  | nil => exact hi
  | cons op ops ih => exact ih (hi.step op)

theorem LoggedAcceptor.trimIid_le_run (r : LoggedAcceptor) (ops : List AcceptorOp) :
    r.acceptor.trimIid ≤ (r.run ops).acceptor.trimIid := by
  induction ops generalizing r with
  | nil => exact UInt32.le_refl _
  | cons op ops ih =>
    exact UInt32.le_trans (acceptorStep_move r.acceptor op).trimIid_le (ih (r.step op))

/-! ## Votes and promises, as the protocol uses them

The consensus argument is about votes and promises of an acceptor, at any time. A record that has
been trimmed counts as a promise of everything, because no vote for its instance can follow. -/

/-- The acceptor voted for `v` at ballot `c` in the instance `i`. -/
def LoggedAcceptor.Voted (r : LoggedAcceptor) (i : UInt32) (c : UInt16) (v : PaxosValue) : Prop :=
  (c, v) ∈ votesFor i r.log

instance (r : LoggedAcceptor) (i : UInt32) (c : UInt16) (v : PaxosValue) :
    Decidable (r.Voted i c v) :=
  inferInstanceAs (Decidable (_ ∈ _))

/-- The acceptor will not vote below `b` in the instance `i` any more. -/
def LoggedAcceptor.Promised (r : LoggedAcceptor) (i : UInt32) (b : UInt16) : Prop :=
  i ≤ r.acceptor.trimIid ∨ ∃ rec, r.acceptor.record i = some rec ∧ b ≤ rec.ballot

section Protocol

variable {r : LoggedAcceptor} {op : AcceptorOp}

theorem LoggedAcceptor.Promised.mono {i : UInt32} {b c : UInt16} (h : r.Promised i b)
    (hle : c ≤ b) : r.Promised i c :=
  h.imp_right fun ⟨rec, hr, hb⟩ => ⟨rec, hr, UInt16.le_trans hle hb⟩

theorem LoggedAcceptor.Voted.step {i : UInt32} {c : UInt16} {v : PaxosValue} (h : r.Voted i c v) :
    (r.step op).Voted i c v :=
  votesFor_cons_subset _ _ _ h

theorem LoggedAcceptor.Promised.step (hi : AcceptorInv r) {i : UInt32} {b : UInt16}
    (h : r.Promised i b) : (r.step op).Promised i b := by
  have hm := acceptorStep_move r.acceptor op
  rcases h with ht | ⟨rec, hr, hb⟩
  · exact .inl (UInt32.le_trans ht hm.trimIid_le)
  · rcases hm.record_mono hr (hi.stored _ _ hr).1 with hle | ⟨rec', hr', hb'⟩
    · exact .inl hle
    · exact .inr ⟨rec', hr', UInt16.le_trans hb hb'⟩

/-- An accept that nothing stands in the way of is a vote. -/
theorem LoggedAcceptor.voted_of_admits {req : PaxosAccept} (ht : ¬ req.iid ≤ r.acceptor.trimIid)
    (hb : r.acceptor.Admits req.iid req.ballot) :
    (r.step (.receiveAccept req)).Voted req.iid req.ballot req.value := by
  have hout : (acceptorStep r.acceptor (.receiveAccept req)).2
      = some (.accepted (paxosAcceptToAccepted r.acceptor.id req)) :=
    congrArg Prod.snd (receiveAccept_admits ht hb)
  refine mem_votesFor.mpr ⟨req, paxosAcceptToAccepted r.acceptor.id req, ?_, rfl, rfl, rfl⟩
  rw [← hout]
  exact List.mem_cons_self

/-- A new vote is for the accept just handled, in an instance that is not trimmed and at a ballot
that no promise excludes. -/
theorem LoggedAcceptor.voted_step {i : UInt32} {c : UInt16} {v : PaxosValue}
    (h : (r.step op).Voted i c v) :
    r.Voted i c v ∨ ∃ req, op = .receiveAccept req ∧ req.iid = i ∧ req.ballot = c ∧ req.value = v ∧
      ∀ b, r.Promised i b → b ≤ c := by
  obtain ⟨req, m, hmem, rfl, rfl, rfl⟩ := mem_votesFor.mp h
  rcases List.mem_cons.mp hmem with heq | hmem
  · right
    obtain ⟨rfl, hout⟩ := Prod.mk.inj heq
    have hmove := acceptorStep_move r.acceptor (.receiveAccept req)
    obtain ⟨ht, hb⟩ := hmove.admits_of_accepted hout.symm
    refine ⟨req, rfl, rfl, rfl, rfl, ?_⟩
    rintro b (ht' | ⟨rec, hr, hb'⟩)
    · exact absurd ht' (UInt32.not_le.mpr ht)
    · exact UInt16.le_trans hb' (hb rec hr)
  · exact .inl (mem_votesFor.mpr ⟨req, m, hmem, rfl, rfl, rfl⟩)

theorem AcceptorInv.promised_of_promise (hi : AcceptorInv r) {op' : AcceptorOp} {m : PaxosPromise}
    (h : (op', some (.promise m)) ∈ r.log) : r.Promised m.iid m.ballot := by
  by_cases ht : m.iid ≤ r.acceptor.trimIid
  · exact .inl ht
  · right
    cases hr : r.acceptor.record m.iid with
    | none => exact absurd rfl (hi.absent _ hr (UInt32.not_le.mp ht) _ h m.ballot)
    | some rec => exact ⟨rec, rfl, hi.bound _ _ hr _ h _ rfl⟩

/-- **A promise reports the last vote.** Any vote below a promise that was ever made is covered by
the vote that the promise reports. -/
theorem AcceptorInv.report_spec (hi : AcceptorInv r) {op' : AcceptorOp} {m : PaxosPromise}
    (h : (op', some (.promise m)) ∈ r.log) {c : UInt16} {v : PaxosValue}
    (hv : r.Voted m.iid c v) (hc : c < m.ballot) :
    c ≤ m.valueBallot ∧ r.Voted m.iid m.valueBallot m.value := by
  obtain ⟨newer, older, hlog⟩ := List.append_of_mem h
  obtain ⟨req, m', hreq, hiid, rfl, rfl⟩ := mem_votesFor.mp hv
  have hann : Announces (.receiveAccept req, some (.accepted m')) m.iid req.ballot := by
    rw [hi.votes req m' hreq, ← hiid]
    rfl
  have hasc := hi.ascending
  rw [hlog, List.pairwise_append] at hasc
  -- the vote is older than the promise, because nothing after the promise is below it
  have hold : (AcceptorOp.receiveAccept req, some (PaxosMessage.accepted m')) ∈ older := by
    rw [hlog] at hreq
    rcases List.mem_append.mp hreq with hnew | hrest
    · have := hasc.2.2 _ hnew _ List.mem_cons_self m.iid m.ballot req.ballot rfl hann
      exact absurd hc (UInt16.not_lt.mpr this)
    · rcases List.mem_cons.mp hrest with heq | hold
      · cases heq
      · exact hold
  obtain ⟨hrep, -⟩ := hi.promises newer op' m older hlog
  cases hl : lastVote m.iid older with
  | none => exact absurd hl (lastVote_ne_none hold hiid)
  | some last =>
    rw [hl] at hrep
    obtain ⟨hvb, hval⟩ := Prod.mk.inj hrep
    rw [hvb, hval]
    refine ⟨?_, ?_⟩
    · refine lastVote_ballot_ge hasc.2.1.of_cons ?_ hl hold hiid
      intro req' m' hmem
      have hmem' : (AcceptorOp.receiveAccept req', some (.accepted m')) ∈ r.log := by
        rw [hlog]
        exact List.mem_append_right _ (List.mem_cons_of_mem _ hmem)
      rw [hi.votes req' m' hmem']
      rfl
    · obtain ⟨hli, ml, hlm⟩ := lastVote_mem hl
      refine mem_votesFor.mpr ⟨last, ml, ?_, hli, rfl, rfl⟩
      rw [hlog]
      exact List.mem_append_right _ (List.mem_cons_of_mem _ hlm)

/-- A promise that reports a ballot reports a vote, and not one above the promise. -/
theorem AcceptorInv.vote_of_promise (hi : AcceptorInv r) {op' : AcceptorOp} {m : PaxosPromise}
    (h : (op', some (.promise m)) ∈ r.log) (hne : m.valueBallot ≠ 0) :
    r.Voted m.iid m.valueBallot m.value ∧ m.valueBallot ≤ m.ballot := by
  obtain ⟨newer, older, hlog⟩ := List.append_of_mem h
  obtain ⟨hrep, -⟩ := hi.promises newer op' m older hlog
  cases hl : lastVote m.iid older with
  | none =>
    rw [hl] at hrep
    exact absurd (Prod.mk.inj hrep).1 hne
  | some last =>
    rw [hl] at hrep
    obtain ⟨hvb, hval⟩ := Prod.mk.inj hrep
    rw [hvb, hval]
    obtain ⟨hli, ml, hlm⟩ := lastVote_mem hl
    have hlm' : (AcceptorOp.receiveAccept last, some (PaxosMessage.accepted ml)) ∈ r.log := by
      rw [hlog]
      exact List.mem_append_right _ (List.mem_cons_of_mem _ hlm)
    refine ⟨mem_votesFor.mpr ⟨last, ml, hlm', hli, rfl, rfl⟩, ?_⟩
    have hasc := hi.ascending
    rw [hlog, List.pairwise_append] at hasc
    refine (List.pairwise_cons.mp hasc.2.1).1 _ hlm m.iid last.ballot m.ballot ?_ rfl
    rw [hi.votes last ml hlm', ← hli]
    rfl

end Protocol

/-! ## The acceptor keeps its word -/

/-- **An acceptor keeps its word.** After any requests to a fresh acceptor: announced ballots of
an instance do not go down; a promise reports the last accept answered before it; a stored vote
is not above the stored promise; and whatever else is asked, the trim point does not go down and
an instance at or below it gets no answer and has no record. -/
theorem acceptor_keeps_its_word (id : Nat) (ops : List AcceptorOp) :
    let r := (LoggedAcceptor.fresh id).run ops
    (r.log.Pairwise fun later earlier =>
      ∀ i b b', Announces earlier i b → Announces later i b' → b ≤ b') ∧
    (∀ newer op m older, r.log = newer ++ (op, some (.promise m)) :: older →
      (m.valueBallot, m.value) = voteReport (lastVote m.iid older)) ∧
    (∀ i rec, r.acceptor.record i = some rec → rec.valueBallot ≤ rec.ballot) ∧
    (∀ ops', r.acceptor.trimIid ≤ (r.run ops').acceptor.trimIid) ∧
    (∀ i, i ≤ r.acceptor.trimIid → ∀ ops',
      (∀ req, req.iid = i → (acceptorStep (r.run ops').acceptor (.receivePrepare req)).2 = none) ∧
      (∀ req, req.iid = i → (acceptorStep (r.run ops').acceptor (.receiveAccept req)).2 = none)) ∧
    (∀ k rec, r.acceptor.record k = some rec → ¬ rec.iid ≤ r.acceptor.trimIid) := by
  intro r
  have hi : AcceptorInv r := (acceptorInv_fresh id).run ops
  refine ⟨hi.ascending, fun newer op m older h => (hi.promises newer op m older h).1,
    fun i rec h => (hi.stored i rec h).2.2.2, r.trimIid_le_run, ?_, ?_⟩
  · intro i hle ops'
    -- the trim point does not go back
    have hle' : i ≤ (r.run ops').acceptor.trimIid := UInt32.le_trans hle (r.trimIid_le_run ops')
    refine ⟨?_, ?_⟩
    · rintro req rfl
      exact congrArg Prod.snd (receivePrepare_trimmed hle')
    · rintro req rfl
      exact congrArg Prod.snd (receiveAccept_trimmed hle')
  · intro k rec h
    obtain ⟨hiid, -, hlt, -⟩ := hi.stored k rec h
    rw [hiid]
    exact UInt32.not_le.mpr hlt

end LibPaxos
