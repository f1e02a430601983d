import LibPaxos.EvPaxos.Deployment

/-!
# A deployment with one proposer

While one proposer is at work and nothing is trimmed, its first ballot is never exceeded: acceptors
refuse nothing and report only what it has asked for itself. The values it was given then go into
the instances `1, 2, …` in the order of their submission.

* **`lone_delivers_in_order`** — every learner has delivered a first part of what was submitted, in
  order and once.
* **`lone_delivers_all`** — when every message has been handled, it has delivered all of it, and
  nothing is pending at the proposer. Which messages were duplicated or late, and when the timers
  have fired, makes no difference.
-/

namespace LibPaxos

open Proposer

/-! ## The attached values

Values are attached to the ids `1, 2, …` in turn, so the list of attached values is the log that
learners should have. -/

section Attached

variable {b : UInt32} {r : LoggedProposer} {calls : List ProposerOp}
  {attached : List (UInt32 × PaxosValue)}

/-- An instance before one with a value has a value, too. -/
theorem LoneProposer.attached_below (hl : LoneProposer b r calls attached)
    {kv : UInt32 × PaxosValue} (hkv : kv ∈ attached) {k : UInt32} (hpos : 0 < k)
    (hlt : k < kv.1) : ∃ v, (k, v) ∈ attached := by
  have hle : k ≤ r.proposer.nextPrepareIid :=
    UInt32.le_trans (UInt32.le_of_lt hlt) (hl.order.bounded kv hkv)
  rcases (hl.opened k hpos hle).2 with hwaits | hattached
  · -- an instance without a value is ahead of all that have one
    obtain ⟨inst, hinst⟩ := AList.lookup_eq_some_of_mem hwaits
    exact absurd ((hl.blank hinst).2.2 kv hkv) (UInt32.lt_asymm hlt)
  · exact hattached

/-- **The values go into the instances `1, 2, …`** -/
theorem LoneProposer.isDecidedLog (hl : LoneProposer b r calls attached) :
    IsDecidedLog (fun k v => (k, v) ∈ attached) attached.reverse := by
  -- the list is descending and without gaps, so the place of an entry tells its id
  have hcount : ∀ {i : Nat} {kv : UInt32 × PaxosValue}, attached[i]? = some kv →
      kv.1.toNat + i = attached.length := by
    intro i kv hget
    have hsorted : (attached.map fun kv => kv.1.toNat).Pairwise (· > ·) := by
      have := hl.order.sorted
      rw [List.pairwise_map] at this ⊢
      exact this.imp fun hlt => UInt32.lt_iff_toNat_lt.mp hlt
    have hindex := List.add_index_eq hsorted ?_ ?_ (i := i) (x := kv.1.toNat) ?_
    · rwa [List.length_map] at hindex
    · intro x hx
      obtain ⟨kv, hkv, rfl⟩ := List.mem_map.mp hx
      exact UInt32.lt_iff_toNat_lt.mp (hl.positive kv hkv)
    · intro x hx y hy hlt
      obtain ⟨kv, hkv, rfl⟩ := List.mem_map.mp hx
      have hy32 : (UInt32.ofNat y).toNat = y :=
        UInt32.toNat_ofNat_of_lt' (Nat.lt_trans hlt kv.1.toNat_lt)
      obtain ⟨v, hv⟩ := hl.attached_below hkv (k := UInt32.ofNat y)
        (UInt32.lt_iff_toNat_lt.mpr (by rw [hy32]; exact hy))
        (UInt32.lt_iff_toNat_lt.mpr (by rw [hy32]; exact hlt))
      exact List.mem_map.mpr ⟨_, hv, hy32⟩
    · rw [List.getElem?_map, hget]
      rfl
  constructor
  · intro j k v hj
    have hlt : j < attached.length := by
      rw [← List.length_reverse]
      exact (List.getElem?_eq_some_iff.mp hj).1
    refine ⟨?_, List.mem_reverse.mp (List.mem_of_getElem? hj)⟩
    rw [List.getElem?_reverse hlt] at hj
    have hk : k.toNat + (attached.length - 1 - j) = attached.length := hcount hj
    omega
  · intro k v hkv hlen
    obtain ⟨i, hi⟩ := List.getElem?_of_mem hkv
    have hk : k.toNat + i = attached.length := hcount hi
    rw [List.length_reverse] at hlen
    omega

end Attached

/-! ## The acceptors

An acceptor meets one ballot only. It refuses nothing, its records are at that ballot, and a vote is
for the value attached to the instance. -/

/-- The vote of the acceptor `a` for a value. -/
def voteAt (b : UInt16) (a : Nat) (kv : UInt32 × PaxosValue) : PaxosAccepted :=
  paxosAcceptToAccepted a (acceptAt b kv.1 kv.2)

/-- A record at the ballot `b`, with no vote or one for a value that was asked for. -/
structure RecordAt (b : UInt16) (a : Nat) (next : UInt32) (attached : List (UInt32 × PaxosValue))
    (acc : PaxosAccepted) : Prop where
  ballot : acc.ballot = b
  aid : acc.aid = UInt16.ofNat a
  iid_le : acc.iid ≤ next
  vote : acc.value = [] ∨ ∃ kv ∈ attached, acc = voteAt b a kv

/-- What the acceptor `a` keeps that gets requests of one proposer only: it has answered every
request in `handled`. -/
structure LoneAcceptor (b : UInt16) (a : Nat) (next : UInt32)
    (attached : List (UInt32 × PaxosValue)) (handled : PaxosMessage → Prop) (r : LoggedAcceptor) :
    Prop where
  id_eq : r.acceptor.id = a
  untrimmed : r.acceptor.trimIid = 0
  records : ∀ k acc, r.acceptor.record k = some acc → acc.iid = k ∧ RecordAt b a next attached acc
  replies : ∀ m ∈ r.log.filterMap Prod.snd,
    (∃ acc, RecordAt b a next attached acc ∧ m = paxosAcceptedToPromise acc) ∨
      ∃ kv ∈ attached, m = .accepted (voteAt b a kv)
  promised : ∀ k, handled (.prepare (prepareAt b k)) → ∃ acc : PaxosAccepted, acc.iid = k ∧
    acc.aid = UInt16.ofNat a ∧ paxosAcceptedToPromise acc ∈ r.log.filterMap Prod.snd
  voted : ∀ k v, handled (.accept (acceptAt b k v)) →
    .accepted (voteAt b a (k, v)) ∈ r.log.filterMap Prod.snd

section Acceptor

variable {b : UInt16} {a : Nat} {next next' : UInt32}
  {attached attached' : List (UInt32 × PaxosValue)} {handled handled' : PaxosMessage → Prop}
  {r : LoggedAcceptor} {op : AcceptorOp}

theorem LoneAcceptor.init (b : UInt16) (a : Nat) :
    LoneAcceptor b a 0 [] (fun _ => False) (.fresh a) where
  id_eq := rfl
  untrimmed := rfl
  records k acc h := by cases h
  replies m h := by cases h
  promised _ h := h.elim
  voted _ _ h := h.elim

theorem RecordAt.mono {acc : PaxosAccepted} (h : RecordAt b a next attached acc)
    (hnext : next ≤ next') (hsub : attached ⊆ attached') : RecordAt b a next' attached' acc where
  ballot := h.ballot
  aid := h.aid
  iid_le := UInt32.le_trans h.iid_le hnext
  vote := by
    rcases h.vote with hnil | ⟨kv, hkv, heq⟩
    · exact .inl hnil
    · exact .inr ⟨kv, hsub hkv, heq⟩

theorem LoneAcceptor.mono (h : LoneAcceptor b a next attached handled r) (hnext : next ≤ next')
    (hsub : attached ⊆ attached') (hhandled : ∀ m, handled' m → handled m) :
    LoneAcceptor b a next' attached' handled' r where
  id_eq := h.id_eq
  untrimmed := h.untrimmed
  records k acc hk := ⟨(h.records k acc hk).1, (h.records k acc hk).2.mono hnext hsub⟩
  replies m hm := by
    rcases h.replies m hm with ⟨acc, hacc, rfl⟩ | ⟨kv, hkv, rfl⟩
    · exact .inl ⟨acc, hacc.mono hnext hsub, rfl⟩
    · exact .inr ⟨kv, hsub hkv, rfl⟩
  promised k hk := h.promised k (hhandled _ hk)
  voted k v hk := h.voted k v (hhandled _ hk)

/-- A request of the proposer, or one to repeat. -/
def RequestAt (b : UInt16) (next : UInt32) (attached : List (UInt32 × PaxosValue)) :
    AcceptorOp → Prop
  | .receivePrepare req => ∃ k, 0 < k ∧ k ≤ next ∧ req = prepareAt b k
  | .receiveAccept req => ∃ kv ∈ attached, 0 < kv.1 ∧ kv.1 ≤ next ∧ req = acceptAt b kv.1 kv.2
  | .receiveTrim _ => False
  | .receiveRepeat _ => True

/-- The acceptor has no record in the way. -/
theorem LoneAcceptor.admits (h : LoneAcceptor b a next attached handled r) (k : UInt32) :
    r.acceptor.Admits k b := by
  intro acc hacc
  rw [(h.records k acc hacc).2.ballot]
  exact UInt16.le_refl b

/-- The record that a prepare request leaves. -/
theorem LoneAcceptor.promisedRecord (h : LoneAcceptor b a next attached handled r) {k : UInt32}
    (hle : k ≤ next) : RecordAt b a next attached (promisedRecord r.acceptor (prepareAt b k)) := by
  unfold LibPaxos.promisedRecord prepareAt
  refine ⟨rfl, by rw [h.id_eq], hle, ?_⟩
  cases hrec : r.acceptor.record k with
  | none => exact .inl rfl
  | some acc =>
    obtain ⟨hiid, hacc⟩ := h.records k acc hrec
    rcases hacc.vote with hnil | ⟨kv, hkv, heq⟩
    · exact .inl hnil
    · refine .inr ⟨kv, hkv, ?_⟩
      rw [h.id_eq, ← hiid]
      show ({ acc with ballot := b, aid := UInt16.ofNat a } : PaxosAccepted) = _
      rw [heq]
      rfl

/-- A reply and a record are added. -/
theorem LoneAcceptor.put (h : LoneAcceptor b a next attached handled r) {acc : PaxosAccepted}
    {m : PaxosMessage} (hacc : RecordAt b a next attached acc)
    (hm : (∃ acc, RecordAt b a next attached acc ∧ m = paxosAcceptedToPromise acc) ∨
      ∃ kv ∈ attached, m = .accepted (voteAt b a kv)) :
    LoneAcceptor b a next attached handled
      { acceptor := r.acceptor.put acc, log := (op, some m) :: r.log } where
  id_eq := h.id_eq
  untrimmed := h.untrimmed
  records k acc' hk := by
    rw [MemAcceptor.record_put] at hk
    split at hk
    · next heq =>
      cases hk
      exact ⟨heq.symm, hacc⟩
    · exact h.records k acc' hk
  replies := List.forall_mem_cons.mpr ⟨hm, h.replies⟩
  promised k hk := by
    obtain ⟨acc', hiid, haid, hmem⟩ := h.promised k hk
    exact ⟨acc', hiid, haid, List.mem_cons_of_mem _ hmem⟩
  voted k v hk := List.mem_cons_of_mem _ (h.voted k v hk)

theorem LoggedAcceptor.step_eq {acceptor : MemAcceptor} {out : Option PaxosMessage}
    (h : acceptorStep r.acceptor op = (acceptor, out)) :
    r.step op = { acceptor := acceptor, log := (op, out) :: r.log } := by
  unfold LoggedAcceptor.step
  rw [h]

/-- A prepare request is answered with a promise. -/
theorem LoneAcceptor.receivePrepare (h : LoneAcceptor b a next attached handled r) {k : UInt32}
    (hpos : 0 < k) (hle : k ≤ next) :
    LoneAcceptor b a next attached (fun m => m = .prepare (prepareAt b k) ∨ handled m)
      (r.step (.receivePrepare (prepareAt b k))) := by
  have hrec := h.promisedRecord hle
  have htrim : ¬ (prepareAt b k).iid ≤ r.acceptor.trimIid := by
    rw [h.untrimmed]
    exact UInt32.not_le.mpr hpos
  have hstep : r.step (.receivePrepare (prepareAt b k)) =
      { acceptor := r.acceptor.put (LibPaxos.promisedRecord r.acceptor (prepareAt b k))
        log := (.receivePrepare (prepareAt b k), some (paxosAcceptedToPromise
          (LibPaxos.promisedRecord r.acceptor (prepareAt b k)))) :: r.log } :=
    LoggedAcceptor.step_eq (receivePrepare_admits htrim (h.admits k))
  rw [hstep]
  refine { h.put hrec (.inl ⟨_, hrec, rfl⟩) with promised := ?_, voted := ?_ }
  · rintro k' (heq | hk')
    · cases heq
      exact ⟨_, rfl, hrec.aid, List.mem_cons_self⟩
    · exact (h.put hrec (.inl ⟨_, hrec, rfl⟩)).promised k' hk'
  · rintro k' v (heq | hk')
    · cases heq
    · exact List.mem_cons_of_mem _ (h.voted k' v hk')

/-- An accept request is answered with the vote. -/
theorem LoneAcceptor.receiveAccept (h : LoneAcceptor b a next attached handled r)
    {kv : UInt32 × PaxosValue} (hkv : kv ∈ attached) (hpos : 0 < kv.1) (hle : kv.1 ≤ next) :
    LoneAcceptor b a next attached (fun m => m = .accept (acceptAt b kv.1 kv.2) ∨ handled m)
      (r.step (.receiveAccept (acceptAt b kv.1 kv.2))) := by
  have hrec : RecordAt b a next attached (voteAt b a kv) := ⟨rfl, rfl, hle, .inr ⟨kv, hkv, rfl⟩⟩
  have htrim : ¬ (acceptAt b kv.1 kv.2).iid ≤ r.acceptor.trimIid := by
    rw [h.untrimmed]
    exact UInt32.not_le.mpr hpos
  have hstep : r.step (.receiveAccept (acceptAt b kv.1 kv.2)) =
      { acceptor := r.acceptor.put (voteAt b a kv)
        log := (.receiveAccept (acceptAt b kv.1 kv.2), some (.accepted (voteAt b a kv))) ::
          r.log } := by
    refine LoggedAcceptor.step_eq ((receiveAccept_admits htrim (h.admits kv.1)).trans ?_)
    rw [h.id_eq]
    rfl
  rw [hstep]
  refine { h.put hrec (.inr ⟨kv, hkv, rfl⟩) with promised := ?_, voted := ?_ }
  · rintro k (heq | hk)
    · cases heq
    · obtain ⟨acc, hiid, haid, hmem⟩ := h.promised k hk
      exact ⟨acc, hiid, haid, List.mem_cons_of_mem _ hmem⟩
  · rintro k v (heq | hk)
    · cases heq
      exact List.mem_cons_self
    · exact List.mem_cons_of_mem _ (h.voted k v hk)

/-- An answer to a repeat request is a record with a value. -/
theorem repeated_of_some {acceptor : MemAcceptor} {k : UInt32} {m : PaxosMessage}
    (h : (acceptorReceiveRepeat storageInitMem acceptor k).2 = some m) :
    ∃ acc, acceptor.record k = some acc ∧ acc.value ≠ [] ∧ m = .accepted acc := by
  change (if acceptor.record k ≠ none ∧ ((acceptor.record k).getD zeroRecord).value.length > 0
    then some (PaxosMessage.accepted ((acceptor.record k).getD zeroRecord)) else none) = some m at h
  split at h
  · next hvalue =>
    obtain ⟨acc, hacc⟩ := Option.ne_none_iff_exists'.mp hvalue.1
    rw [hacc] at h hvalue
    cases h
    exact ⟨acc, hacc, List.ne_nil_of_length_pos hvalue.2, rfl⟩
  · cases h

/-- What is repeated is a vote. -/
theorem LoneAcceptor.receiveRepeat (h : LoneAcceptor b a next attached handled r) (k : UInt32) :
    LoneAcceptor b a next attached handled (r.step (.receiveRepeat k)) := by
  have hsub : r.log.filterMap Prod.snd ⊆ (r.step (.receiveRepeat k)).log.filterMap Prod.snd :=
    ((List.sublist_cons_self _ _).filterMap _).subset
  refine ⟨h.id_eq, h.untrimmed, h.records, fun m hm => ?_, fun k hk => ?_, fun k v hk => ?_⟩
  · obtain ⟨⟨op, out⟩, hmem, rfl⟩ := List.mem_filterMap.mp hm
    rcases List.mem_cons.mp hmem with heq | hold
    · have hout : (acceptorReceiveRepeat storageInitMem r.acceptor k).2 = some m :=
        (congrArg Prod.snd heq).symm
      obtain ⟨acc, hacc, hne, rfl⟩ := repeated_of_some hout
      rcases (h.records k acc hacc).2.vote with hnil | ⟨kv, hkv, rfl⟩
      · exact absurd hnil hne
      · exact .inr ⟨kv, hkv, rfl⟩
    · exact h.replies m (List.mem_filterMap.mpr ⟨(op, some m), hold, rfl⟩)
  · obtain ⟨acc, hiid, haid, hmem⟩ := h.promised k hk
    exact ⟨acc, hiid, haid, hsub hmem⟩
  · exact hsub (h.voted k v hk)

/-- **Every request is answered.** -/
theorem LoneAcceptor.step (h : LoneAcceptor b a next attached handled r)
    (hop : RequestAt b next attached op) :
    LoneAcceptor b a next attached (fun m => op.message = some m ∨ handled m) (r.step op) := by
  have hmono : ∀ {m' : PaxosMessage}, op.message = some m' → ∀ m, op.message = some m ∨ handled m →
      m = m' ∨ handled m := by
    rintro m' hm' m (hm | hm)
    · exact .inl (Option.some.inj (hm.symm.trans hm'))
    · exact .inr hm
  cases op with
  | receivePrepare req =>
    obtain ⟨k, hpos, hle, rfl⟩ := hop
    exact (h.receivePrepare hpos hle).mono (UInt32.le_refl _) (List.Subset.refl _) (hmono rfl)
  | receiveAccept req =>
    obtain ⟨kv, hkv, hpos, hle, rfl⟩ := hop
    exact (h.receiveAccept hkv hpos hle).mono (UInt32.le_refl _) (List.Subset.refl _) (hmono rfl)
  | receiveTrim trim => exact hop.elim
  | receiveRepeat k =>
    refine (h.receiveRepeat k).mono (UInt32.le_refl _) (List.Subset.refl _) ?_
    rintro m (hm | hm)
    · cases hm
    · exact hm

end Acceptor

/-! ## The deployment

The invariant joins what the proposer, the acceptors and the learners keep, over the values attached
so far. What was handled is part of the state, because the result is about the moment at which
everything was. -/

/-- The trim point that a request asks for. -/
def AcceptorOp.trim : AcceptorOp → Option PaxosTrim
  | .receiveTrim trim => some trim
  | _ => none

/-- The instance that a proposer is told to skip to. -/
def EvproposerEvent.instanceId : EvproposerEvent → Option UInt32
  | .setInstanceId iid => some iid
  | _ => none

namespace Deployment

/-- The proposer `p` is the only one at work, and nothing is trimmed. -/
def Undisturbed (p : UInt32) (_ : Deployment) : HandlerEvent → Prop
  | .acceptor _ _ op => op.trim = none
  | .sendAcceptorState _ => True
  | .proposer q _ call => q = p ∧ call.event.instanceId = none
  | .learner _ _ _ _ => True

/-- The node has handled the message. -/
def HandledBy (d : Deployment) (node : Node) (m : PaxosMessage) : Prop :=
  (node, m) ∈ d.handled

/-- What such a deployment keeps of its proposer: what was handled was counted, and nothing that
could be done is left, once it has got a value. -/
structure LoneSide (window : Int) (p : UInt32) (handled : PaxosMessage → Prop) (r : LoggedProposer)
    (calls : List ProposerOp) (attached : List (UInt32 × PaxosValue)) : Prop where
  lone : LoneProposer (maxNOfProposers + p) r calls attached
  promises : ∀ ack, handled (.promise ack) → ∃ now, .receivePromise now ack ∈ calls
  votes : ∀ ack, handled (.accepted ack) → .receiveAccepted ack ∈ calls
  quiet : r.proposer.Quiet
  full : window ≤ proposerPreparedCount r.proposer ∨ r.submitted = []

/-- What such a deployment keeps, with the calls made at the proposer and the values attached so
far. -/
structure LoneInv (su : Setup) (window : Int) (p : UInt32) (d : Deployment)
    (calls : List ProposerOp) (attached : List (UInt32 × PaxosValue)) : Prop where
  proposer : LoneSide window p (d.HandledBy (.proposer p)) (d.cluster.proposers p) calls attached
  rivals : ∀ q, q ≠ p → (d.cluster.proposers q).emitted = []
  acceptors : ∀ a, LoneAcceptor (maxNOfProposers + p).toUInt16 a
    (d.cluster.proposers p).proposer.nextPrepareIid attached (d.HandledBy (.acceptor a))
    (d.cluster.acceptors a)
  learners : ∀ l, (d.cluster.learners l).Tracks
    (fun ack => d.HandledBy (.learner l) (.accepted ack)) su.acceptors ∧
      (d.cluster.learners l).Idle
  silent : ∀ l, (d.cluster.learners l).emitted = []
  states : ∀ state ∈ d.states, state.trimIid = 0

section Undisturbed

variable {su : Setup} {window : Int} {p : UInt32} {d d' : Deployment} {e : HandlerEvent}
  {calls : List ProposerOp} {attached : List (UInt32 × PaxosValue)} {src : Node}

theorem handledBy_next (d : Deployment) (cluster : Cluster) (node node' : Node)
    (m : Option PaxosMessage) : (d.next cluster node m).HandledBy node'
      = if node' = node then fun m' => m = some m' ∨ d.HandledBy node' m'
        else d.HandledBy node' := by
  funext m'
  unfold HandledBy
  rw [mem_handled_next]
  split
  · next heq => simp [heq]
  · next hne => simp [hne]

theorem loneInv_init (su : Setup) (hc : su.config.learnerCatchUp = true)
    (hs : ∀ l, su.start l = none) (window : Int) (p : UInt32) :
    LoneInv su window p (init su) [] [] where
  proposer := ⟨.init p su.acceptors, fun _ h => (by cases h), fun _ h => (by cases h),
    quiet_new p su.acceptors, .inr rfl⟩
  rivals _ _ := rfl
  acceptors a := (LoneAcceptor.init _ a).mono (UInt32.le_refl 0) (List.Subset.refl _)
    fun _ h => by cases h
  learners l := by
    have hfresh : (init su).cluster.learners l = .fresh su.config su.acceptors := by
      show Cluster.learners (Cluster.init su) l = _
      unfold Cluster.init
      simp only [hs]
    rw [hfresh]
    exact ⟨(LoggedLearner.tracks_fresh hc su.acceptors).congr fun ack => ⟨False.elim, fun h => by
      cases h⟩, rfl⟩
  silent := Cluster.init_emitted su
  states _ h := by cases h

/-- The first ballot of a proposer fits into a message. -/
theorem ballot_roundtrip (hp : p.toNat < 10) :
    (maxNOfProposers + p).toUInt16.toUInt32 = maxNOfProposers + p := by
  apply UInt32.toNat_inj.mp
  rw [UInt16.toNat_toUInt32, UInt32.toNat_toUInt16, UInt32.toNat_add]
  have hten : maxNOfProposers.toNat = 10 := rfl
  omega

/-- What is sent: the requests of the proposer, and the answers to them. -/
theorem LoneInv.sent_cases (hi : LoneInv su window p d calls attached) {m : PaxosMessage}
    (hm : m ∈ d.cluster.sent src) :
    (src = .proposer p ∧
      ((∃ k, 0 < k ∧ k ≤ (d.cluster.proposers p).proposer.nextPrepareIid ∧
          m = .prepare (prepareAt (maxNOfProposers + p).toUInt16 k)) ∨
        ∃ kv ∈ attached, m = .accept (acceptAt (maxNOfProposers + p).toUInt16 kv.1 kv.2))) ∨
    ∃ a, src = .acceptor a ∧
      ((∃ acc, RecordAt (maxNOfProposers + p).toUInt16 a
          (d.cluster.proposers p).proposer.nextPrepareIid attached acc ∧
          m = paxosAcceptedToPromise acc) ∨
        ∃ kv ∈ attached, m = .accepted (voteAt (maxNOfProposers + p).toUInt16 a kv)) := by
  cases src with
  | acceptor a => exact .inr ⟨a, rfl, (hi.acceptors a).replies m hm⟩
  | proposer q =>
    by_cases hq : q = p
    · subst hq
      exact .inl ⟨rfl, hi.proposer.lone.sent m hm⟩
    · have hm : m ∈ (d.cluster.proposers q).emitted := hm
      rw [hi.rivals q hq] at hm
      cases hm
  | learner l =>
    have hm : m ∈ (d.cluster.learners l).emitted := hm
    rw [hi.silent l] at hm
    cases hm

/-- An accepted message that was sent is the vote of an acceptor for an attached value. -/
theorem LoneInv.accepted_sent (hi : LoneInv su window p d calls attached) {ack : PaxosAccepted}
    (hm : .accepted ack ∈ d.cluster.sent src) :
    ∃ a, src = .acceptor a ∧ ∃ kv ∈ attached,
      ack = voteAt (maxNOfProposers + p).toUInt16 a kv := by
  rcases hi.sent_cases hm with ⟨-, ⟨k, -, -, heq⟩ | ⟨kv, -, heq⟩⟩ | ⟨a, rfl, ⟨acc, -, heq⟩ |
    ⟨kv, hkv, heq⟩⟩
  · cases heq
  · cases heq
  · cases heq
  · cases heq
    exact ⟨a, rfl, kv, hkv, rfl⟩

/-- Two votes that were sent for one instance by one acceptor are copies. -/
theorem LoneInv.oneVote (hi : LoneInv su window p d calls attached) :
    OneVote fun ack => ∃ src, .accepted ack ∈ d.cluster.sent src := by
  rintro ack ack' ⟨src, hm⟩ ⟨src', hm'⟩ hiid haid
  obtain ⟨a, -, kv, hkv, rfl⟩ := hi.accepted_sent hm
  obtain ⟨a', -, kv', hkv', rfl⟩ := hi.accepted_sent hm'
  obtain rfl := hi.proposer.lone.attached_unique hkv hkv' hiid
  have haid : UInt16.ofNat a = UInt16.ofNat a' := haid
  unfold voteAt paxosAcceptToAccepted
  rw [haid]

/-! ### The acceptors -/

/-- A request at an acceptor is one of the proposer. -/
theorem LoneInv.request (hi : LoneInv su window p d calls attached) {op : AcceptorOp}
    (hmsg : ∀ m ∈ op.message, m ∈ d.cluster.sent src) (htrim : op.trim = none) :
    RequestAt (maxNOfProposers + p).toUInt16 (d.cluster.proposers p).proposer.nextPrepareIid
      attached op := by
  cases op with
  | receivePrepare req =>
    rcases hi.sent_cases (hmsg (.prepare req) rfl) with ⟨-, ⟨k, hpos, hle, heq⟩ | ⟨kv, -, heq⟩⟩ |
      ⟨a, rfl, ⟨acc, -, heq⟩ | ⟨kv, -, heq⟩⟩
    · cases heq
      exact ⟨k, hpos, hle, rfl⟩
    all_goals cases heq
  | receiveAccept req =>
    rcases hi.sent_cases (hmsg (.accept req) rfl) with ⟨-, ⟨k, -, -, heq⟩ | ⟨kv, hkv, heq⟩⟩ |
      ⟨a, rfl, ⟨acc, -, heq⟩ | ⟨kv, -, heq⟩⟩
    · cases heq
    · cases heq
      exact ⟨kv, hkv, hi.proposer.lone.positive kv hkv, hi.proposer.lone.order.bounded kv hkv, rfl⟩
    all_goals cases heq
  | receiveTrim trim => cases htrim
  | receiveRepeat iid => trivial

theorem LoneInv.acceptor_step (hi : LoneInv su window p d calls attached) {a : Nat}
    {op : AcceptorOp} (hmsg : ∀ m ∈ op.message, m ∈ d.cluster.sent src) (htrim : op.trim = none) :
    LoneInv su window p (d.next (d.cluster.setAcceptor a ((d.cluster.acceptors a).step op))
      (.acceptor a) op.message) calls attached := by
  refine ⟨?_, hi.rivals, fun a' => ?_, fun l => ?_, hi.silent, hi.states⟩
  · rw [handledBy_next, if_neg (by simp)]
    exact hi.proposer
  · show LoneAcceptor _ a' _ attached _ ((d.cluster.setAcceptor a _).acceptors a')
    rw [handledBy_next, Cluster.setAcceptor_acceptors]
    by_cases heq : a' = a
    · subst heq
      rw [if_pos rfl, if_pos rfl]
      exact (hi.acceptors a').step (hi.request hmsg htrim)
    · rw [if_neg (by simpa using heq), if_neg heq]
      exact hi.acceptors a'
  · rw [handledBy_next, if_neg (by simp)]
    exact hi.learners l

/-! ### The proposer -/

/-- What the proposer is told is what one without rivals is told. -/
theorem LoneInv.lone_call (hi : LoneInv su window p d calls attached) (hp : p.toNat < 10)
    {call : EvproposerCall} (hmsg : ∀ m ∈ call.message, m ∈ d.cluster.sent src)
    (hstate : ∀ state ∈ call.event.state, state ∈ d.states) (hid : call.event.instanceId = none) :
    ∀ op ∈ call.op, Lone (maxNOfProposers + p) attached (d.cluster.proposers p).proposer op := by
  obtain ⟨fuel, clock, event⟩ := call
  rintro op hop
  cases event with
  | handlePromise ack =>
    cases hop
    -- a promise that was sent is of a record, which is at the one ballot
    rcases hi.sent_cases (hmsg (.promise ack) rfl) with ⟨-, ⟨k, -, -, heq⟩ | ⟨kv, -, heq⟩⟩ |
      ⟨a, rfl, ⟨acc, hacc, heq⟩ | ⟨kv, hkv, heq⟩⟩
    · cases heq
    · cases heq
    · cases heq
      refine ⟨?_, hacc.iid_le, ?_⟩
      · show acc.ballot.toUInt32 = _
        rw [hacc.ballot, ballot_roundtrip hp]
      · rcases hacc.vote with hnil | ⟨kv, hkv, rfl⟩
        · exact .inl hnil
        · exact .inr hkv
    · cases heq
  | handleAccepted ack =>
    cases hop
    obtain ⟨a, -, kv, hkv, rfl⟩ := hi.accepted_sent (hmsg (.accepted ack) rfl)
    exact ⟨ballot_roundtrip hp, hkv⟩
  | handlePreempted ack =>
    cases hop
    -- nobody has sent a preempted message
    rcases hi.sent_cases (hmsg (.preempted ack) rfl) with ⟨-, ⟨k, -, -, heq⟩ | ⟨kv, -, heq⟩⟩ |
      ⟨a, rfl, ⟨acc, -, heq⟩ | ⟨kv, -, heq⟩⟩
    all_goals cases heq
  | handleClientValue value =>
    cases hop
    trivial
  | handleAcceptorState state =>
    cases hop
    exact hi.states state (hstate state rfl)
  | checkTimeouts | preexecOnce => cases hop
  | setInstanceId iid => cases hid
  | rehash hp ha =>
    cases hop
    trivial

/-- A handler leaves nothing undone. -/
theorem LoneInv.settled (hi : LoneInv su window p d calls attached) {call : EvproposerCall}
    (hstate : ∀ state ∈ call.event.state, state ∈ d.states) (hid : call.event.instanceId = none)
    {r : LoggedProposer} (h : (d.cluster.proposers p).handle su.config window call = some r) :
    r.proposer.Quiet ∧
      (window ≤ proposerPreparedCount r.proposer ∨ r.submitted = []) := by
  obtain ⟨s, hs, rfl⟩ := LoggedProposer.handle_eq_some h
  obtain ⟨htries, hkeeps⟩ := evproposerHandle_settled hi.proposer.lone.sound hs
  obtain ⟨fuel, clock, event⟩ := call
  -- a handler that does not try has no value
  have hrest : ¬ event.Trims → (event.call clock).toList.flatMap submittedBy = [] →
      s.proposer.Quiet ∧ (window ≤ proposerPreparedCount s.proposer ∨
        ((d.cluster.proposers p).after (event.call clock) s).submitted = []) := by
    intro htrims hsub
    obtain ⟨hquiet, hfull⟩ := hkeeps htrims hi.proposer.quiet
    refine ⟨hquiet, ?_⟩
    rcases hi.proposer.full with hle | hnil
    · exact .inl (hfull (.inr hle)).full
    · refine .inr ?_
      show (event.call clock).toList.flatMap submittedBy ++ (d.cluster.proposers p).submitted = []
      rw [hsub, hnil]
      rfl
  cases event with
  | handlePromise | handleClientValue =>
    have hsettled := htries trivial
    exact ⟨hsettled.quiet, .inl hsettled.full⟩
  | handleAcceptorState state =>
    cases hs
    have heq := proposerReceiveAcceptorState_zero (d.cluster.proposers p).proposer
      (hi.states state (hstate state rfl))
    show (proposerReceiveAcceptorState _ state).Quiet ∧ (window ≤ proposerPreparedCount
      (proposerReceiveAcceptorState _ state) ∨ (d.cluster.proposers p).submitted = [])
    rw [heq]
    exact ⟨hi.proposer.quiet, hi.proposer.full⟩
  | setInstanceId iid => cases hid
  | handleAccepted | handlePreempted | checkTimeouts | preexecOnce | rehash =>
    exact hrest (fun ht => ht) rfl

theorem LoneInv.proposer_step (hi : LoneInv su window p d calls attached) (hp : p.toNat < 10)
    {call : EvproposerCall} {r : LoggedProposer}
    (hmsg : ∀ m ∈ call.message, m ∈ d.cluster.sent src)
    (hstate : ∀ state ∈ call.event.state, state ∈ d.states) (hid : call.event.instanceId = none)
    (h : (d.cluster.proposers p).handle su.config window call = some r) :
    ∃ calls' attached', LoneInv su window p
      (d.next (d.cluster.setProposer p r) (.proposer p) call.message) calls' attached' := by
  obtain ⟨calls', attached', hgrows, hcalled⟩ :=
    hi.proposer.lone.handle (hi.lone_call hp hmsg hstate hid) h
  have hself : (d.cluster.setProposer p r).proposers p = r := by
    rw [Cluster.setProposer_proposers, if_pos rfl]
  obtain ⟨hquiet, hfull⟩ := hi.settled hstate hid h
  refine ⟨calls', attached', ?_, fun q hq => ?_, fun a => ?_, fun l => ?_, hi.silent, hi.states⟩
  · show LoneSide window p _ ((d.cluster.setProposer p r).proposers p) calls' attached'
    rw [handledBy_next, if_pos rfl, hself]
    -- what was handled was given to a call, this time or before
    refine ⟨hgrows.lone, fun ack hm => ?_, fun ack hm => ?_, hquiet, hfull⟩
    · rcases hm with hm | hm
      · obtain ⟨op, hop, hmessage⟩ := Option.bind_eq_some_iff.mp hm
        obtain ⟨now, rfl⟩ := ProposerOp.eq_of_promise hmessage
        exact ⟨now, hcalled _ hop⟩
      · obtain ⟨now, hmem⟩ := hi.proposer.promises ack hm
        exact ⟨now, hgrows.calls hmem⟩
    · rcases hm with hm | hm
      · obtain ⟨op, hop, hmessage⟩ := Option.bind_eq_some_iff.mp hm
        obtain rfl := ProposerOp.eq_of_accepted hmessage
        exact hcalled _ hop
      · exact hgrows.calls (hi.proposer.votes ack hm)
  · show ((d.cluster.setProposer p r).proposers q).emitted = []
    rw [Cluster.setProposer_proposers, if_neg hq]
    exact hi.rivals q hq
  -- the acceptors are as they were, with more values attached
  · show LoneAcceptor _ a ((d.cluster.setProposer p r).proposers p).proposer.nextPrepareIid _ _ _
    rw [handledBy_next, if_neg (by simp), hself]
    exact (hi.acceptors a).mono hgrows.next hgrows.attached fun _ hm => hm
  · rw [handledBy_next, if_neg (by simp)]
    exact hi.learners l

/-! ### The learners -/

theorem LoneInv.learner_step (hi : LoneInv su window p d calls attached)
    (hhandled : ∀ node m, (node, m) ∈ d.handled → ∃ src, m ∈ d.cluster.sent src) {l : Nat}
    {freed : LoggedLearner → UInt32} {ack : PaxosAccepted}
    (hm : .accepted ack ∈ d.cluster.sent src) :
    LoneInv su window p
      (d.next (d.cluster.setLearner l (evlearnerHandleAccepted freed (d.cluster.learners l) ack))
        (.learner l) (some (.accepted ack))) calls attached := by
  -- the learner of the step: it has taken the vote in and delivered what it could
  have hlearner : (evlearnerHandleAccepted freed (d.cluster.learners l) ack).Tracks
      (fun ack' => some (PaxosMessage.accepted ack) = some (.accepted ack') ∨
        d.HandledBy (.learner l) (.accepted ack')) su.acceptors ∧
      (evlearnerHandleAccepted freed (d.cluster.learners l) ack).Idle ∧
      (evlearnerHandleAccepted freed (d.cluster.learners l) ack).emitted = [] := by
    obtain ⟨a, -, kv, hkv, hack⟩ := hi.accepted_sent hm
    have hpos : ack.iid ≠ 0 := by
      rw [hack]
      exact UInt32.pos_iff_ne_zero.mp (hi.proposer.lone.positive kv hkv)
    have hone : OneVote fun ack' => some (PaxosMessage.accepted ack) = some (.accepted ack') ∨
        d.HandledBy (.learner l) (.accepted ack') := by
      have hsent : ∀ ack', some (PaxosMessage.accepted ack) = some (.accepted ack') ∨
          d.HandledBy (.learner l) (.accepted ack') →
          ∃ src, .accepted ack' ∈ d.cluster.sent src := by
        rintro ack' (heq | hold)
        · cases heq
          exact ⟨src, hm⟩
        · exact hhandled _ _ hold
      exact fun ack₁ ack₂ h₁ h₂ => hi.oneVote ack₁ ack₂ (hsent ack₁ h₁) (hsent ack₂ h₂)
    have hreceive := (hi.learners l).1.receive hpos (fun _ h => .inr h)
      (fun ack' h => h.symm.imp_right fun heq => by cases heq; rfl) (.inl rfl) hone
    obtain ⟨⟨htracks, hsilent⟩, hidle⟩ := evlearnerDeliverNextClosed_rule
      (I := fun r => r.Tracks _ su.acceptors ∧ r.emitted = []) (fun _ h => h.1.learner)
      (fun _ h i => ⟨h.1.deliver i, h.2⟩) freed _ ⟨hreceive, hi.silent l⟩ (Nat.lt_succ_self _)
    exact ⟨htracks, hidle, hsilent⟩
  -- the other nodes are as before, and have handled nothing new
  refine ⟨?_, hi.rivals, fun a => ?_, fun k => ?_, fun k => ?_, hi.states⟩
  · rw [handledBy_next, if_neg (by simp)]
    exact hi.proposer
  · rw [handledBy_next, if_neg (by simp)]
    exact hi.acceptors a
  · show ((d.cluster.setLearner l _).learners k).Tracks _ _ ∧
      ((d.cluster.setLearner l _).learners k).Idle
    rw [handledBy_next, Cluster.setLearner_learners]
    by_cases heq : k = l
    · subst heq
      rw [if_pos rfl, if_pos rfl]
      exact ⟨hlearner.1, hlearner.2.1⟩
    · rw [if_neg heq, if_neg (by simpa using heq)]
      exact hi.learners k
  · show ((d.cluster.setLearner l _).learners k).emitted = []
    rw [Cluster.setLearner_learners]
    split
    · exact hlearner.2.2
    · exact hi.silent k

/-- **Every handler keeps it.** -/
theorem LoneInv.step (hi : LoneInv su window p d calls attached) (hp : p.toNat < 10)
    (hr : Reaches su window (Undisturbed p) d) (hok : d.Undisturbed p e)
    (h : step su window d e = some d') :
    ∃ calls' attached', LoneInv su window p d' calls' attached' := by
  obtain ⟨hen, ⟨a, src, op, rfl, rfl⟩ | ⟨a, rfl, rfl⟩ | ⟨q, src, call, r, rfl, hcall, rfl⟩ |
    ⟨l, src, freed, ack, rfl, rfl⟩⟩ := step_cases h
  · exact ⟨calls, attached, hi.acceptor_step hen.2 hok⟩
  · refine ⟨calls, attached, { hi with states := List.forall_mem_cons.mpr ⟨?_, hi.states⟩ }⟩
    exact (hi.acceptors a).untrimmed
  · obtain ⟨rfl, hid⟩ := hok
    exact hi.proposer_step hp hen.2.1 hen.2.2 hid hcall
  · exact ⟨calls, attached, hi.learner_step hr.handled_sent hen⟩

end Undisturbed

/-! ## What is delivered

A learner delivers what a quorum has voted for, and votes are for attached values. -/

section Delivered

variable {su : Setup} {window : Int} {p : UInt32} {d : Deployment} {calls : List ProposerOp}
  {attached : List (UInt32 × PaxosValue)} {l : Nat}

theorem Reaches.loneInv (hr : Reaches su window (Undisturbed p) d) (hp : p.toNat < 10)
    (hc : su.config.learnerCatchUp = true) (hs : ∀ l, su.start l = none) :
    ∃ calls attached, LoneInv su window p d calls attached :=
  hr.invariant (I := fun d => ∃ calls attached, LoneInv su window p d calls attached)
    ⟨[], [], loneInv_init su hc hs window p⟩
    fun hr ⟨_, _, hi⟩ hok h => hi.step hp hr hok h

/-- What a learner delivers was attached to the instance. -/
theorem LoneInv.delivered_attached (hi : LoneInv su window p d calls attached)
    (hhandled : ∀ node m, (node, m) ∈ d.handled → ∃ src, m ∈ d.cluster.sent src)
    {f : PaxosAccepted} (hf : f ∈ (d.cluster.learners l).delivered) :
    (f.iid, f.value) ∈ attached := by
  obtain ⟨src, hsent⟩ := hhandled _ _ ((hi.learners l).1.delivered f hf).carried
  obtain ⟨a, -, kv, hkv, rfl⟩ := hi.accepted_sent hsent
  exact hkv

/-- What a learner has delivered is a first part of the values attached. -/
theorem LoneInv.deliveries_initial (hi : LoneInv su window p d calls attached)
    (hhandled : ∀ node m, (node, m) ∈ d.handled → ∃ src, m ∈ d.cluster.sent src) :
    (d.cluster.learners l).deliveries <+: attached.reverse := by
  have hlog := hi.proposer.lone.isDecidedLog
  rw [List.prefix_iff_getElem?]
  intro j hj
  have hget : ((d.cluster.learners l).delivered.reverse.map fun f => (f.iid, f.value))[j]?
      = some ((d.cluster.learners l).deliveries[j]) := List.getElem?_eq_getElem hj
  rw [List.getElem?_map] at hget
  obtain ⟨f, hf, heq⟩ := Option.map_eq_some_iff.mp hget
  -- the entry is attached, and its place is given by its id
  have hmem : (f.iid, f.value) ∈ attached.reverse := List.mem_reverse.mpr
    (hi.delivered_attached hhandled (List.mem_reverse.mp (List.mem_of_getElem? hf)))
  obtain ⟨i, hplace⟩ := List.getElem?_of_mem hmem
  have hid := (hi.learners l).1.ids j f hf
  have hid' := (hlog.entry i _ _ hplace).1
  obtain rfl : i = j := by omega
  exact hplace.trans (congrArg some heq)

/-- The values attached are a first part of those submitted. -/
theorem LoneInv.submitted_eq (hi : LoneInv su window p d calls attached) :
    (d.cluster.proposers p).submitted.reverse
      = attached.reverse.map Prod.snd ++ (d.cluster.proposers p).proposer.values := by
  rw [← hi.proposer.lone.order.queue]
  simp

/-- **Learners deliver in the order of submission.** In a deployment in which one proposer is at
work and nothing is trimmed: whatever was lost, late or duplicated so far, and whatever the timers
have sent again, a learner has delivered a first part of the values that clients submitted, in the
order of their submission and each once, in the instances from 1 on. -/
theorem lone_delivers_in_order (su : Setup) (hc : su.config.learnerCatchUp = true)
    (hs : ∀ l, su.start l = none) (window : Int) (p : UInt32) (hp : p.toNat < 10) (d : Deployment)
    (hr : Reaches su window (Undisturbed p) d) (l : Nat) :
    (d.cluster.learners l).delivered.reverse.map PaxosAccepted.value
        <+: (d.cluster.proposers p).submitted.reverse ∧
      ∀ j f, (d.cluster.learners l).delivered.reverse[j]? = some f → f.iid.toNat = j + 1 := by
  obtain ⟨calls, attached, hi⟩ := hr.loneInv hp hc hs
  refine ⟨?_, (hi.learners l).1.ids⟩
  have hvalues := (hi.deliveries_initial hr.handled_sent (l := l)).map Prod.snd
  rw [hi.submitted_eq]
  unfold LoggedLearner.deliveries at hvalues
  rw [List.map_map] at hvalues
  exact hvalues.trans (List.prefix_append _ _)

instance (p : UInt32) (d : Deployment) : DecidablePred (d.Undisturbed p)
  | .acceptor _ _ op => inferInstanceAs (Decidable (op.trim = none))
  | .sendAcceptorState _ => instDecidableTrue
  | .proposer q _ call => inferInstanceAs (Decidable (q = p ∧ call.event.instanceId = none))
  | .learner _ _ _ _ => instDecidableTrue

/-- The acceptors accept a value of the proposer `p`, which gets their votes; so does a learner. -/
def acceptedBy (p : UInt32) (l : Nat) (b : UInt16) (kv : UInt32 × PaxosValue) (as : List Nat) :
    List HandlerEvent :=
  as.map (fun a => .acceptor a (.proposer p) (.receiveAccept (acceptAt b kv.1 kv.2))) ++
    as.flatMap fun a => [ownEvent p (.acceptor a) (.handleAccepted (voteAt b a kv)),
      .learner l (.acceptor a) (·.learner.currentIid) (voteAt b a kv)]

/-- Two values are submitted and go into the instances 1 and 2; the acceptors have answered. -/
def twoSubmitted : List HandlerEvent :=
  [ownEvent 3 (.proposer 3) (.handleClientValue [7]),
    ownEvent 3 (.proposer 3) (.handleClientValue [8])] ++
    preparedBy 3 1 13 [2, 1, 0] ++ preparedBy 3 2 13 [0, 1, 2]

/-- The first value has the votes of two acceptors, the second one has none. -/
theorem lone_delivers_in_order_first :
    ∃ d : Deployment, (d.cluster.proposers 3).submitted.reverse = [[7], [8]] ∧
      (d.cluster.learners 0).delivered.reverse.map PaxosAccepted.value = [[7]] ∧
      (d.cluster.learners 0).delivered.reverse.map PaxosAccepted.value
        <+: (d.cluster.proposers 3).submitted.reverse := by
  obtain ⟨d, hr, hd⟩ := Runs.exists_reaches_of_run (step { acceptors := 3 } 1) (Undisturbed 3)
    (init { acceptors := 3 }) (twoSubmitted ++ acceptedBy 3 0 13 (1, [7]) [0, 2])
    (fun d => (d.cluster.proposers 3).submitted.reverse = [[7], [8]] ∧
      (d.cluster.learners 0).delivered.reverse.map PaxosAccepted.value = [[7]]) (by decide +kernel)
  obtain ⟨hsubmitted, hdelivered⟩ := of_decide_eq_true hd
  exact ⟨d, hsubmitted, hdelivered,
    (lone_delivers_in_order { acceptors := 3 } rfl (fun _ => rfl) 1 3 (by decide) d hr 0).1⟩

end Delivered

/-! ## When everything was handled

Suppose a value is still pending. Its instance has sent its request, all acceptors have handled it
and answered, and the proposer has counted the answers; so the instance has its quorum and would
have moved on. The same for the learners, who have all votes. -/

instance (d : Deployment) (node : Node) (m : PaxosMessage) : Decidable (d.HandledBy node m) :=
  inferInstanceAs (Decidable ((node, m) ∈ d.handled))

/-- The votes among the messages of an acceptor. -/
def votesOf (out : List PaxosMessage) : List PaxosAccepted :=
  out.filterMap fun
    | .accepted ack => some ack
    | _ => none

theorem mem_votesOf {out : List PaxosMessage} {ack : PaxosAccepted} :
    ack ∈ votesOf out ↔ .accepted ack ∈ out := by
  unfold votesOf
  rw [List.mem_filterMap]
  constructor
  · rintro ⟨m, hm, heq⟩
    cases m with
    | accepted ack' =>
      cases heq
      exact hm
    | prepare | promise | accept | preempted => cases heq
  · exact fun h => ⟨_, h, rfl⟩

/-- Every message has been handled: the requests at all acceptors, their answers at the proposer,
and their votes at the learner `l`. -/
structure Quiescent (su : Setup) (p : UInt32) (l : Nat) (d : Deployment) : Prop where
  requests : ∀ m ∈ d.cluster.sent (.proposer p), ∀ a < su.acceptors, d.HandledBy (.acceptor a) m
  answers : ∀ a < su.acceptors, ∀ m ∈ d.cluster.sent (.acceptor a), d.HandledBy (.proposer p) m
  votes : ∀ a < su.acceptors, ∀ ack ∈ votesOf (d.cluster.sent (.acceptor a)),
    d.HandledBy (.learner l) (.accepted ack)

section Quiescent

variable {su : Setup} {window : Int} {p : UInt32} {d : Deployment} {calls : List ProposerOp}
  {attached : List (UInt32 × PaxosValue)} {l : Nat}

/-- Ids of acceptors fit into a message. -/
theorem toNat_aid {n a : Nat} (hn : n ≤ 2 ^ 16) (ha : a < n) : (UInt16.ofNat a).toNat = a :=
  UInt16.toNat_ofNat_of_lt' (Nat.lt_of_lt_of_le ha hn)

/-- An instance that waits has the promises of all acceptors. -/
theorem LoneInv.promised_by_all (hi : LoneInv su window p d calls attached)
    (hq : d.Quiescent su p l) (hn : su.acceptors ≤ 2 ^ 16) {k : UInt32} {inst : Instance}
    (hk : (d.cluster.proposers p).proposer.prepareInstances.lookup k = some inst) :
    Finset.range su.acceptors ⊆ inst.quorum.ids := by
  intro a ha
  have ha := Finset.mem_range.mp ha
  have hsent := (hi.proposer.lone.opened k (hi.proposer.lone.waiting k inst hk).1
    (hi.proposer.lone.sound.sequential.prepare k inst hk)).1
  obtain ⟨acc, rfl, haid, hpromise⟩ :=
    (hi.acceptors a).promised k (hq.requests _ hsent a ha)
  obtain ⟨now, hcall⟩ := hi.proposer.promises _ (hq.answers a ha _ hpromise)
  have hcounted := (hi.proposer.lone.promises now _ hcall).2 inst hk
  have haid : acc.aid.toNat = a := by rw [haid, toNat_aid hn ha]
  exact haid ▸ hcounted

/-- An attached value has the votes of all acceptors. -/
theorem LoneInv.voted_by_all (hi : LoneInv su window p d calls attached)
    (hq : d.Quiescent su p l) {kv : UInt32 × PaxosValue} (hkv : kv ∈ attached) {a : Nat}
    (ha : a < su.acceptors) :
    .accepted (voteAt (maxNOfProposers + p).toUInt16 a kv) ∈ d.cluster.sent (.acceptor a) :=
  (hi.acceptors a).voted kv.1 kv.2 (hq.requests _ (hi.proposer.lone.asked kv hkv) a ha)

/-- Nothing is in the second phase any more. -/
theorem LoneInv.nothing_asked (hi : LoneInv su window p d calls attached)
    (hq : d.Quiescent su p l) (hpos : 0 < su.acceptors) (hn : su.acceptors ≤ 2 ^ 16)
    (hacc : (d.cluster.proposers p).proposer.acceptors = su.acceptors) (k : UInt32) :
    (d.cluster.proposers p).proposer.acceptInstances.lookup k = none := by
  cases hk : (d.cluster.proposers p).proposer.acceptInstances.lookup k with
  | none => rfl
  | some inst =>
    obtain ⟨v, -, hkv, -⟩ := hi.proposer.lone.order.accept k inst hk
    have hq' : inst.quorum.acceptors = su.acceptors :=
      (hi.proposer.lone.sound.wellFormed.accept k inst hk).2.1.trans hacc
    have hreached : quorumReached inst.quorum = true := by
      refine Quorum.reached_of_all (hq'.symm ▸ hpos) fun a ha => ?_
      rw [hq', Finset.mem_range] at ha
      have hcall := hi.proposer.votes _ (hq.answers a ha _ (hi.voted_by_all hq hkv ha))
      have hcounted := (hi.proposer.lone.votes _ hcall).2 inst hk
      rwa [show (voteAt _ a (k, v)).aid.toNat = a from toNat_aid hn ha] at hcounted
    exact absurd (hreached.symm.trans (hi.proposer.lone.undecided k inst hk)) (by simp)

/-- No value waits for an instance: there is one that is ready. -/
theorem LoneInv.nothing_queued (hi : LoneInv su window p d calls attached)
    (hq : d.Quiescent su p l) (hwindow : 0 < window) (hpos : 0 < su.acceptors)
    (hn : su.acceptors ≤ 2 ^ 16)
    (hacc : (d.cluster.proposers p).proposer.acceptors = su.acceptors) :
    (d.cluster.proposers p).proposer.values = [] := by
  rcases hi.proposer.full with hfull | hnil
  · cases hs : smallestInstance (d.cluster.proposers p).proposer.prepareInstances with
    | none =>
      -- an empty table is no full window
      unfold proposerPreparedCount at hfull
      rw [entries_eq_nil_of_smallestInstance hs] at hfull
      exact absurd (Int.lt_of_lt_of_le hwindow hfull) (Int.lt_irrefl 0)
    | some inst =>
      obtain ⟨k, hk⟩ := smallestInstance_mem hs
      have hq' : inst.quorum.acceptors = su.acceptors :=
        (hi.proposer.lone.sound.wellFormed.prepare k inst hk).2.trans hacc
      have hreached : quorumReached inst.quorum = true :=
        Quorum.reached_of_all (hq'.symm ▸ hpos) (hq'.symm ▸ hi.promised_by_all hq hn hk)
      rcases hi.proposer.quiet k inst hk (smallestInstance_le hs) with hfalse | ⟨-, -, hvalues⟩
      · exact absurd (hreached.symm.trans hfalse) (by simp)
      · exact hvalues
  · have hqueue := hi.proposer.lone.order.queue
    rw [hnil] at hqueue
    exact List.reverse_eq_nil_iff.mp (List.append_eq_nil_iff.mp hqueue).1

/-- The learner has delivered all values attached. -/
theorem LoneInv.deliveries_eq (hi : LoneInv su window p d calls attached)
    (hhandled : ∀ node m, (node, m) ∈ d.handled → ∃ src, m ∈ d.cluster.sent src)
    (hq : d.Quiescent su p l) (hpos : 0 < su.acceptors) (hn : su.acceptors ≤ 2 ^ 16) :
    (d.cluster.learners l).deliveries = attached.reverse := by
  obtain ⟨htracks, hidle⟩ := hi.learners l
  refine IsDecidedLog.unique (fun k v v' h h' => ?_)
    (htracks.numbered.isDecidedLog (fun f hf => hi.delivered_attached hhandled hf) ?_)
    hi.proposer.lone.isDecidedLog
  · exact congrArg Prod.snd (hi.proposer.lone.attached_unique h h' rfl)
  · intro v hcur hkv
    -- all acceptors have voted for the next instance
    refine htracks.not_agreed_of_idle hidle (maxNOfProposers + p).toUInt16
      ⟨Finset.range su.acceptors, ⟨Finset.Subset.refl _, ?_⟩, fun a ha => ?_⟩
    · rw [Finset.card_range]
      unfold paxosQuorum
      omega
    · have ha := Finset.mem_range.mp ha
      refine ⟨_, hq.votes a ha _ (mem_votesOf.mpr (hi.voted_by_all hq hkv ha)), hcur, rfl, ?_⟩
      exact toNat_aid hn ha

end Quiescent

/-- **What is submitted is delivered.** In a deployment in which one proposer is at work and nothing
is trimmed, with at least one instance pre-executed: as soon as every message that was sent has been
handled, a learner has delivered all values that clients submitted, in the order of their
submission; the proposer has no value left in its queue and waits for no votes. -/
theorem lone_delivers_all (su : Setup) (hc : su.config.learnerCatchUp = true)
    (hs : ∀ l, su.start l = none) (hpos : 0 < su.acceptors) (hn : su.acceptors ≤ 2 ^ 16)
    (window : Int) (hwindow : 0 < window) (p : UInt32) (hp : p.toNat < 10) (l : Nat)
    (d : Deployment) (hr : Reaches su window (Undisturbed p) d) (hq : d.Quiescent su p l) :
    (d.cluster.learners l).delivered.reverse.map PaxosAccepted.value
        = (d.cluster.proposers p).submitted.reverse ∧
      (d.cluster.proposers p).proposer.values = [] ∧
      ∀ k, (d.cluster.proposers p).proposer.acceptInstances.lookup k = none := by
  obtain ⟨calls, attached, hi⟩ := hr.loneInv hp hc hs
  have hacc := ((Cluster.Reaches.coreInv hr.cluster).inv.nodes.proposers p).acceptors_eq
  have hvalues := hi.nothing_queued hq hwindow hpos hn hacc
  refine ⟨?_, hvalues, hi.nothing_asked hq hpos hn hacc⟩
  have hdelivered := congrArg (List.map Prod.snd) (hi.deliveries_eq hr.handled_sent hq hpos hn)
  rw [hi.submitted_eq, hvalues, List.append_nil, ← hdelivered]
  unfold LoggedLearner.deliveries
  rw [List.map_map]
  rfl

/-- The votes for the second value come before those for the first, and the timers fire in
between. -/
def twoDelivered : List HandlerEvent :=
  twoSubmitted ++
    [.sendAcceptorState 1,
      ownEvent 3 (.acceptor 1) (.handleAcceptorState { aid := 1, trimIid := 0 }),
      ownEvent 3 (.proposer 3) .checkTimeouts] ++
    acceptedBy 3 0 13 (2, [8]) [0, 2, 1] ++ preparedBy 3 3 13 [1, 0, 2] ++
    acceptedBy 3 0 13 (1, [7]) [1, 0, 2]

theorem lone_delivers_all_two :
    ∃ d : Deployment, d.Quiescent { acceptors := 3 } 3 0 ∧
      (d.cluster.proposers 3).submitted.reverse = [[7], [8]] ∧
      (d.cluster.learners 0).delivered.reverse.map PaxosAccepted.value
        = (d.cluster.proposers 3).submitted.reverse := by
  obtain ⟨d, hr, hd⟩ := Runs.exists_reaches_of_run (step { acceptors := 3 } 1) (Undisturbed 3)
    (init { acceptors := 3 }) twoDelivered
    (fun d => (∀ m ∈ d.cluster.sent (.proposer 3), ∀ a < (3 : Nat), d.HandledBy (.acceptor a) m) ∧
      (∀ a < (3 : Nat), ∀ m ∈ d.cluster.sent (.acceptor a), d.HandledBy (.proposer 3) m) ∧
      (∀ a < (3 : Nat), ∀ ack ∈ votesOf (d.cluster.sent (.acceptor a)),
        d.HandledBy (.learner 0) (.accepted ack)) ∧
      (d.cluster.proposers 3).submitted.reverse = [[7], [8]]) (by decide +kernel)
  obtain ⟨hrequests, hanswers, hvotes, hsubmitted⟩ := of_decide_eq_true hd
  have hq : d.Quiescent { acceptors := 3 } 3 0 := ⟨hrequests, hanswers, hvotes⟩
  exact ⟨d, hq, hsubmitted, (lone_delivers_all { acceptors := 3 } rfl (fun _ => rfl) (by decide)
    (by decide) 1 (by decide) 3 (by decide) 0 d hr hq).1⟩

end Deployment

end LibPaxos
