import LibPaxos.Votes
import LibPaxos.ProposerRuns
import LibPaxos.P4xos.Handlers

/-!
# What the handlers of a replica keep

The learner of a replica counts no quorum of its own: it takes every packet of type chosen for true.
So that type may be written by nobody but a leader that has counted a quorum, and by a learner that
passes on what it has delivered.

* **`replicaHandler_callSound`** — a packet is handled soundly, if what was sent so far is true and
  an accept is not rejected.
* **`Worker.call_callSound`** — and so is every other call.
-/

namespace LibPaxos.P4xos

/-! ## The invariant -/

/-- The value of the message was accepted by a quorum at its ballot. -/
def Chose (n : Nat) (A : Nat → LoggedAcceptor) (ack : PaxosAccepted) : Prop :=
  ChosenBy n A ack.iid ack.ballot ack.value

/-- The packet tells a replica that the acceptor `a` accepted `v` for the instance `i` at ballot
`b`. -/
def TellsOf (pkt : Packet) (dst : Addr) (a : Nat) (i : UInt32) (b : UInt16) (v : PaxosValue) :
    Prop :=
  pkt.hdr.msgtype = MsgType.accepted ∧ pkt.dst = dst ∧ pkt.hdr.acptid.toNat = a ∧ pkt.hdr.inst = i ∧
    pkt.hdr.rnd = b ∧ pkt.hdr.value.1 = v

/-- Some packet to the replica tells so. -/
def Told (S : List Packet) (node : Nat) (a : Nat) (i : UInt32) (b : UInt16) (v : PaxosValue) :
    Prop :=
  ∃ pkt ∈ S, TellsOf pkt (.node node) a i b v

/-- What a proposer keeps: it has been told of every vote it has counted. `T a i b v` says that it
has been told that acceptor `a` accepted `v` for `i` at ballot `b`. -/
structure ProposerInv (n : Nat) (T : Nat → UInt32 → UInt16 → PaxosValue → Prop) (p : Proposer) :
    Prop where
  wellFormed : p.WellFormed
  acceptors_eq : p.acceptors = n
  told : p.acceptInstances.All fun k inst =>
    ∀ a ∈ inst.quorum.ids, ∃ v, T a k inst.ballot.toUInt16 v

/-- What a worker keeps: in addition, its learner holds and has delivered chosen values only. -/
structure WorkerInv (n : Nat) (A : Nat → LoggedAcceptor)
    (T : Nat → UInt32 → UInt16 → PaxosValue → Prop) (lp : Worker) : Prop where
  proposer : ProposerInv n T lp.proposer
  acceptors_eq : lp.learner.acceptors = n
  learner : lp.learner.Sound (Chose n A)
  delivered : ∀ d ∈ lp.delivered, Chose n A d

/-- What a worker is told is true: there are such votes, for one value at a ballot, of the size of a
header's. -/
structure Truthful (A : Nat → LoggedAcceptor) (T : Nat → UInt32 → UInt16 → PaxosValue → Prop) :
    Prop where
  unique : ∀ a a' i c v v', T a i c v → T a' i c v' → v = v'
  voted : ∀ a i c v, T a i c v → (A a).Voted i c v
  length : ∀ a i c v, (A a).Voted i c v → v.length = paxosValueSize

section Mono

variable {n : Nat} {A A' : Nat → LoggedAcceptor} {T T' : Nat → UInt32 → UInt16 → PaxosValue → Prop}

theorem Chose.mono (hA : ∀ a i c v, (A a).Voted i c v → (A' a).Voted i c v) (ack : PaxosAccepted)
    (h : Chose n A ack) : Chose n A' ack :=
  ChosenBy.mono hA h

theorem WorkerInv.mono (hA : ∀ a i c v, (A a).Voted i c v → (A' a).Voted i c v)
    (hT : ∀ a i c v, T a i c v → T' a i c v) {lp : Worker} (h : WorkerInv n A T lp) :
    WorkerInv n A' T' lp where
  proposer := ⟨h.proposer.wellFormed, h.proposer.acceptors_eq, h.proposer.told.mono
    fun _ _ ht a ha => (ht a ha).imp fun _ => hT _ _ _ _⟩
  acceptors_eq := h.acceptors_eq
  learner := h.learner.mono (Chose.mono hA)
  delivered d hd := (h.delivered d hd).mono hA

end Mono

/-! ## Handlers that leave the acceptor alone

These handlers change the proposer or the learner. A packet that they send on is a request, or it
says chosen: after a quorum was counted, or for what the learner has delivered. -/

/-- What a header tells that is not the answer of an acceptor. -/
structure HdrInv (n : Nat) (A : Nat → LoggedAcceptor) (hdr : PaxosHdr) : Prop where
  chosen : hdr.msgtype = MsgType.chosen → Chose n A (acceptedOfHdr hdr)
  not_accepted : hdr.msgtype ≠ MsgType.accepted

/-- What such a handler is shown to do. -/
structure Sound (n : Nat) (A : Nat → LoggedAcceptor)
    (T : Nat → UInt32 → UInt16 → PaxosValue → Prop) (lp : Worker) (r : Result) : Prop where
  worker : WorkerInv n A T r.1
  acceptor : r.1.acceptor = lp.acceptor
  hdr : r.2.2 = .success → HdrInv n A r.2.1

section Handlers

variable {n : Nat} {A : Nat → LoggedAcceptor} {T : Nat → UInt32 → UInt16 → PaxosValue → Prop}
  {lp : Worker} {hdr : PaxosHdr} {r : Result}

/-- The other types tell nothing. -/
theorem hdrInv_of_type (t : UInt8) (h : hdr.msgtype = t)
    (ht : t ≠ MsgType.chosen ∧ t ≠ MsgType.accepted) : HdrInv n A hdr where
  chosen hc := absurd (h.symm.trans hc) ht.1
  not_accepted hc := absurd (h.symm.trans hc) ht.2

theorem hdrInv_of_chosen (h : hdr.msgtype = MsgType.chosen) (hc : Chose n A (acceptedOfHdr hdr)) :
    HdrInv n A hdr where
  chosen _ := hc
  not_accepted ht := absurd (h.symm.trans ht) (by decide)

/-- A call of the proposer, if it has been told of the vote that an ack stands for. -/
theorem ProposerInv.step {p p' : Proposer} {out : List PaxosMessage} (hi : ProposerInv n T p)
    (config : PaxosConfig) (op : ProposerOp)
    (hack : ∀ ack, op = .receiveAccepted ack → T ack.aid.toNat ack.iid ack.ballot ack.value)
    (h : proposerStep config p op = .ok (p', out)) : ProposerInv n T p' := by
  have hm := proposerStep_move hi.wellFormed.keyed_prepare hi.wellFormed.keyed_accept h
  refine ⟨hi.wellFormed.move hm, hm.acceptors_eq.trans hi.acceptors_eq, ?_⟩
  cases hm with
  | accepting =>
    refine hi.told.insert fun a ha => ?_
    rw [ids_quorumClear] at ha
    cases ha
  -- the one move that counts an acceptor in
  | @acked ack inst q hk hb hq hr =>
    have ht := hi.told _ _ hk
    refine hi.told.replace (AList.mem_of_lookup hk) fun a ha => ?_
    rw [(quorumAdd_true hq).2.2.1] at ha
    rcases Finset.mem_insert.mp ha with rfl | ha
    · refine ⟨ack.value, ?_⟩
      show T ack.aid.toNat ack.iid inst.ballot.toUInt16 ack.value
      rw [← hb, UInt16.toUInt16_toUInt32]
      exact hack ack rfl
    · exact ht a ha
  | closed | demoted => exact hi.told.erase _
  | trimmed => exact hi.told.filter _
  | retriedAccept hk _ =>
    have ht := hi.told _ _ hk
    exact hi.told.replace (AList.mem_of_lookup hk) ht
  | rehashed _ hpa => exact hi.told.of_perm hpa
  | idle | heard | queued | created | preempted | promised | retriedPrepare => exact hi.told

theorem WorkerInv.setProposer (hi : WorkerInv n A T lp) {p : Proposer} (hp : ProposerInv n T p) :
    WorkerInv n A T { lp with proposer := p } :=
  ⟨hp, hi.acceptors_eq, hi.learner, hi.delivered⟩

theorem Sound.of_acceptor {lp' : Worker} (h : Sound n A T lp' r)
    (heq : lp'.acceptor = lp.acceptor) :
    Sound n A T lp r :=
  ⟨h.worker, h.acceptor.trans heq, h.hdr⟩

theorem tryAccept_sound (hi : WorkerInv n A T lp) (h : tryAccept lp hdr = .ok r) :
    Sound n A T lp r := by
  obtain ⟨⟨p, out⟩, hcall, h⟩ := Except.bind_eq_ok.mp h
  have hp : ProposerInv n T p := hi.proposer.step {} .accept (fun _ h => nomatch h)
    (Except.bind_eq_ok.mpr ⟨_, hcall, rfl⟩)
  cases out with
  | none =>
    cases h
    exact ⟨hi.setProposer hp, rfl, fun h => nomatch h⟩
  | some accept =>
    cases h
    exact ⟨hi.setProposer hp, rfl, fun _ => hdrInv_of_type MsgType.accept rfl (by decide)⟩

theorem proposerPrepareAllocated_sound {now : Int} (hi : WorkerInv n A T lp)
    (h : proposerPrepareAllocated now lp hdr = .ok r) : Sound n A T lp r := by
  obtain ⟨⟨p, pr⟩, hcall, h⟩ := Except.bind_eq_ok.mp h
  have hp : ProposerInv n T p := hi.proposer.step {} (.prepare now) (fun _ h => nomatch h)
    (Except.bind_eq_ok.mpr ⟨_, hcall, rfl⟩)
  cases h
  exact ⟨hi.setProposer hp, rfl, fun _ => hdrInv_of_type MsgType.prepare rfl (by decide)⟩

theorem proposerPrepareInstAllocated_sound {now : Int} (hi : WorkerInv n A T lp)
    (h : proposerPrepareInstAllocated now lp hdr = .ok r) : Sound n A T lp r := by
  obtain ⟨⟨p, pr⟩, hcall, h⟩ := Except.bind_eq_ok.mp h
  have hp : ProposerInv n T p := hi.proposer.step {} (.prepareInstance now hdr.inst)
    (fun _ h => nomatch h) (Except.bind_eq_ok.mpr ⟨_, hcall, rfl⟩)
  cases h
  exact ⟨hi.setProposer hp, rfl, fun _ => hdrInv_of_type MsgType.prepare rfl (by decide)⟩

theorem promiseHandler_sound {conf : Conf} {now : Int} (hi : WorkerInv n A T lp)
    (h : promiseHandler conf now lp hdr = .ok r) : Sound n A T lp r := by
  unfold promiseHandler at h
  split at h
  · cases h
    exact ⟨hi, rfl, fun h => nomatch h⟩
  · obtain ⟨⟨p, out⟩, hcall, h⟩ := Except.bind_eq_ok.mp h
    have hp : ProposerInv n T p := hi.proposer.step {} (.receivePromise now _)
      (fun _ h => nomatch h) (Except.bind_eq_ok.mpr ⟨_, hcall, rfl⟩)
    cases out with
    | none => exact (tryAccept_sound (hi.setProposer hp) h).of_acceptor rfl
    | some pr =>
      cases h
      exact ⟨hi.setProposer hp, rfl, fun _ => hdrInv_of_type MsgType.prepare rfl (by decide)⟩

theorem newCommandHandler_sound {now : Int} (hi : WorkerInv n A T lp)
    (h : newCommandHandler now lp hdr = .ok r) : Sound n A T lp r := by
  unfold newCommandHandler at h
  split at h
  · cases h
    exact ⟨hi, rfl, fun h => nomatch h⟩
  · obtain ⟨⟨lp₁, hdr₁, ret⟩, hcall, h⟩ := Except.bind_eq_ok.mp h
    have hp : ProposerInv n T (proposerPropose lp.proposer hdr.value.1) :=
      hi.proposer.step {} (.propose hdr.value.1) (fun _ h => nomatch h) rfl
    have hs := tryAccept_sound (hi.setProposer hp) hcall
    simp only at h
    split at h
    · cases h
      exact hs.of_acceptor rfl
    · exact (proposerPrepareAllocated_sound hs.worker h).of_acceptor hs.acceptor

theorem proposerSetInstanceHandler_sound {now : Int} (hi : WorkerInv n A T lp)
    (h : proposerSetInstanceHandler now lp hdr = .ok r) : Sound n A T lp r := by
  have hp : ProposerInv n T (proposerSetInstanceId lp.proposer hdr.inst) :=
    hi.proposer.step {} (.setInstanceId hdr.inst) (fun _ h => nomatch h) rfl
  exact (proposerPrepareAllocated_sound (hi.setProposer hp) h).of_acceptor rfl

/-- The result 2 means that a quorum was reached with this ack. -/
theorem proposerReceiveAccepted_two {p p' : Proposer} {ack : PaxosAccepted}
    (h : proposerReceiveAccepted p ack = .ok (p', 2)) :
    ∃ inst q, p.acceptInstances.lookup ack.iid = some inst ∧ ack.ballot.toUInt32 = inst.ballot ∧
      quorumAdd inst.quorum ack.aid.toNat = .ok (q, true) ∧ quorumReached q = true := by
  unfold proposerReceiveAccepted at h
  split at h
  · cases h
  · rename_i inst hk
    split at h
    · rename_i hb
      obtain ⟨⟨q, added⟩, hq, h⟩ := Except.bind_eq_ok.mp h
      simp only at h
      cases added with
      | false => cases h
      | true =>
        simp only [Bool.true_eq_false, if_false] at h
        split at h
        · rename_i hr
          exact ⟨inst, q, hk, hb, hq, hr⟩
        · cases h
    · cases h

/-- A quorum of acks for one instance and ballot is a quorum of votes for the value of any of
them. -/
theorem ProposerInv.chose {p p' : Proposer} {ack : PaxosAccepted} (hi : ProposerInv n T p)
    (ht : Truthful A T) (hack : T ack.aid.toNat ack.iid ack.ballot ack.value)
    (h : proposerReceiveAccepted p ack = .ok (p', 2)) : Chose n A ack := by
  obtain ⟨inst, q, hk, hb, hq, hr⟩ := proposerReceiveAccepted_two h
  obtain ⟨-, -, hids, hacc⟩ := quorumAdd_true hq
  have hn : q.acceptors = n := by
    rw [hacc, (hi.wellFormed.accept _ _ hk).2.1, hi.acceptors_eq]
  refine ⟨q.ids, hn ▸ q.ids_subset, hn ▸ Quorum.le_card_of_reached hr, fun a ha => ?_⟩
  rw [hids] at ha
  rcases Finset.mem_insert.mp ha with rfl | ha
  · exact ht.voted _ _ _ _ hack
  · obtain ⟨v, htold⟩ := hi.told _ _ hk a ha
    rw [← hb, UInt16.toUInt16_toUInt32] at htold
    rw [ht.unique _ _ _ _ _ _ hack htold]
    exact ht.voted _ _ _ _ htold

theorem acceptedHandler_sound {conf : Conf} (hi : WorkerInv n A T lp) (ht : Truthful A T)
    (htold : T hdr.acptid.toNat hdr.inst hdr.rnd hdr.value.1)
    (h : acceptedHandler conf lp hdr = .ok r) : Sound n A T lp r := by
  unfold acceptedHandler at h
  split at h
  · cases h
    exact ⟨hi, rfl, fun h => nomatch h⟩
  · obtain ⟨⟨p, ret⟩, hcall, h⟩ := Except.bind_eq_ok.mp h
    have hp : ProposerInv n T p := by
      refine hi.proposer.step {} (.receiveAccepted (acceptedOfHdr hdr)) (fun ack heq => ?_)
        (Except.bind_eq_ok.mpr ⟨_, hcall, rfl⟩)
      cases heq
      exact htold
    simp only at h
    split at h
    · rename_i hret
      subst hret
      cases h
      have hc := hi.proposer.chose ht htold hcall
      exact ⟨hi.setProposer hp, rfl, fun _ => hdrInv_of_chosen rfl hc⟩
    · cases h
      exact ⟨hi.setProposer hp, rfl, fun h => nomatch h⟩

/-- The header of a packet that tells of a delivery. -/
def deliveredHdr (hdr : PaxosHdr) (d : PaxosAccepted) : PaxosHdr :=
  { hdr with
    msgtype := MsgType.chosen
    inst := d.iid
    rnd := d.ballot
    value := memcpy hdr.value d.value }

/-- **What `learner_chosen_handler` does**: nothing is delivered and the packet is dropped, or it
tells of what was delivered, unless a leader that prepares ahead writes a prepare over it. -/
theorem learnerChosenHandler_cases {conf : Conf} {now : Int} {freed : UInt32}
    (h : learnerChosenHandler conf now freed lp hdr = .ok r) :
    (∃ l,
        learnerDeliverNext (learnerReceiveChosen lp.learner (acceptedOfHdr hdr)) freed = (l, none) ∧
      r = ({ lp with learner := l }, hdr, .dropOriginalPacket)) ∨
    ∃ l d, learnerDeliverNext (learnerReceiveChosen lp.learner (acceptedOfHdr hdr)) freed
        = (l, some d) ∧
      ((conf.leader = true ∧ conf.preexecWindow ≠ 0) ∧
          proposerPrepareAllocated now { lp with learner := l, delivered := d :: lp.delivered }
            (deliveredHdr hdr d) = .ok r ∨
        ¬ (conf.leader = true ∧ conf.preexecWindow ≠ 0) ∧
          r = ({ lp with learner := l, delivered := d :: lp.delivered }, deliveredHdr hdr d,
            .success)) := by
  unfold learnerChosenHandler at h
  cases hd : learnerDeliverNext (learnerReceiveChosen lp.learner (acceptedOfHdr hdr)) freed with
  | mk l out =>
    rw [hd] at h
    cases out with
    | none =>
      cases h
      exact .inl ⟨l, rfl, rfl⟩
    | some d =>
      refine .inr ⟨l, d, rfl, ?_⟩
      simp only at h
      split at h
      · rename_i hahead
        exact .inl ⟨hahead, h⟩
      · rename_i hahead
        cases h
        exact .inr ⟨hahead, rfl⟩

/-- What the learner delivers on a chosen packet was chosen: it holds nothing else. -/
theorem learnerChosenHandler_sound {conf : Conf} {now : Int} {freed : UInt32}
    (hi : WorkerInv n A T lp) (ht : Truthful A T) (hc : Chose n A (acceptedOfHdr hdr))
    (h : learnerChosenHandler conf now freed lp hdr = .ok r) : Sound n A T lp r := by
  have hs : (learnerReceiveChosen lp.learner (acceptedOfHdr hdr)).Sound (Chose n A) :=
    learnerReceiveChosen_sound hi.learner fun _ => hc
  have hacc := (learnerReceiveChosen_acceptors lp.learner (acceptedOfHdr hdr)).trans hi.acceptors_eq
  obtain ⟨hs', hacc', hback⟩ := learnerDeliverNext_sound hs freed
  obtain ⟨l, hd, rfl⟩ | ⟨l, d, hd, hsent⟩ := learnerChosenHandler_cases h
  · rw [hd] at hs' hacc'
    exact ⟨⟨hi.proposer, hacc'.trans hacc, hs', hi.delivered⟩, rfl, fun h => nomatch h⟩
  · rw [hd] at hs' hacc' hback
    have hd : Chose n A d := (hback d rfl).carried
    have hi' : WorkerInv n A T { lp with learner := l, delivered := d :: lp.delivered } :=
      ⟨hi.proposer, hacc'.trans hacc, hs', List.forall_mem_cons.mpr ⟨hd, hi.delivered⟩⟩
    rcases hsent with ⟨-, hr⟩ | ⟨-, rfl⟩
    · exact (proposerPrepareAllocated_sound hi' hr).of_acceptor rfl
    · refine ⟨hi', rfl, fun _ => hdrInv_of_chosen rfl ?_⟩
      obtain ⟨a, -, hvote⟩ := ChosenBy.exists_voted hd
      show ChosenBy n A d.iid d.ballot (memcpy hdr.value d.value).1
      rw [memcpy_of_length (ht.length _ _ _ _ hvote)]
      exact hd

end Handlers

/-! ## Calls

The acceptor handlers answer in the packet of the request and copy the type of the library, in which
the reply to a rejected accept has the code of chosen. Unless that happens, a call adds packets that
are true of the acceptors after it. -/

/-- What a packet tells, when `S` are the packets sent before. The answer of an acceptor goes to the
replica that asked, with the value it asked for. -/
structure PktInv (n : Nat) (A : Nat → LoggedAcceptor) (S : List Packet) (pkt : Packet) : Prop where
  chosen : pkt.hdr.msgtype = MsgType.chosen → Chose n A (acceptedOfHdr pkt.hdr)
  accepted : pkt.hdr.msgtype = MsgType.accepted →
    (A pkt.hdr.acptid.toNat).Voted pkt.hdr.inst pkt.hdr.rnd pkt.hdr.value.1 ∧
      ∃ q ∈ S, q.hdr.msgtype = MsgType.accept ∧ q.src = pkt.dst ∧ q.hdr.inst = pkt.hdr.inst ∧
        q.hdr.rnd = pkt.hdr.rnd ∧ q.hdr.value = pkt.hdr.value
  source : pkt.hdr.msgtype = MsgType.accept → ∃ x, pkt.src = .node x

/-- Two answers to one replica, for one instance and ballot, carry one value. -/
def Agree (p p' : Packet) : Prop :=
  p.hdr.msgtype = MsgType.accepted → p'.hdr.msgtype = MsgType.accepted → p.dst = p'.dst →
    p.hdr.inst = p'.hdr.inst → p.hdr.rnd = p'.hdr.rnd → p.hdr.value = p'.hdr.value

/-- What a call is shown to do at the replica `node`, where `A` are the acceptors and `S` the
packets before it: its acceptor handles one request at most. -/
structure CallSound (n : Nat) (A : Nat → LoggedAcceptor) (S : List Packet) (node : Nat)
    (lp : Worker) (out : List Packet) : Prop where
  acceptor : lp.acceptor = A node ∨ ∃ op, lp.acceptor = (A node).step op ∧
    ∀ req, op = .receiveAccept req → req.value.length = paxosValueSize
  worker : WorkerInv n (Function.update A node lp.acceptor) (Told S node) lp
  sent : ∀ pkt ∈ out, PktInv n (Function.update A node lp.acceptor) S pkt
  agree : ∀ p ∈ out, ∀ p' ∈ out ++ S, Agree p p'

section Calls

variable {n node : Nat} {A : Nat → LoggedAcceptor} {S : List Packet} {lp lp' : Worker} {r : Result}
  {out : List Packet} {pkt : Packet} {dst : Addr}

theorem PktInv.of_hdrInv (h : HdrInv n A pkt.hdr) (hsrc : ∃ x, pkt.src = .node x) :
    PktInv n A S pkt where
  chosen := h.chosen
  accepted ht := absurd ht h.not_accepted
  source _ := hsrc

theorem PktInv.mono {A' : Nat → LoggedAcceptor} {S' : List Packet}
    (hA : ∀ a i c v, (A a).Voted i c v → (A' a).Voted i c v) (hS : S ⊆ S') (h : PktInv n A S pkt) :
    PktInv n A' S' pkt where
  chosen ht := (h.chosen ht).mono hA
  accepted ht := by
    obtain ⟨hv, q, hq, hrest⟩ := h.accepted ht
    exact ⟨hA _ _ _ _ hv, q, hS hq, hrest⟩
  source := h.source

/-- Votes stay when an acceptor handles a request. -/
theorem voted_update (op : AcceptorOp) {a : Nat} {i : UInt32} {c : UInt16} {v : PaxosValue}
    (h : (A a).Voted i c v) : (Function.update A node ((A node).step op) a).Voted i c v := by
  by_cases ha : a = node
  · subst ha
    rw [Function.update_self]
    exact h.step
  · rw [Function.update_of_ne ha]
    exact h

/-- A call that leaves the acceptor alone. -/
theorem callSound_of_acceptor (hacc : lp'.acceptor = A node) (hw : WorkerInv n A (Told S node) lp')
    (hout : ∀ pkt ∈ out, HdrInv n A pkt.hdr ∧ ∃ x, pkt.src = .node x) :
    CallSound n A S node lp' out := by
  have hself : Function.update A node lp'.acceptor = A := by
    rw [hacc, Function.update_eq_self]
  refine ⟨.inl hacc, hself.symm ▸ hw, fun pkt hp => ?_, fun p hp _ _ ht => ?_⟩
  · rw [hself]
    exact .of_hdrInv (hout pkt hp).1 (hout pkt hp).2
  · exact absurd ht (hout p hp).1.not_accepted

/-- A call that makes the acceptor handle a request. -/
theorem callSound_of_step (hi : WorkerInv n A (Told S node) lp) {op : AcceptorOp} {p : Proposer}
    (hp : ProposerInv n (Told S node) p)
    (hop : ∀ req, op = .receiveAccept req → req.value.length = paxosValueSize)
    (hout : ∀ pkt ∈ out, PktInv n (Function.update A node ((A node).step op)) S pkt)
    (hagree : ∀ p ∈ out, ∀ p' ∈ out ++ S, Agree p p') :
    CallSound n A S node { lp with proposer := p, acceptor := (A node).step op } out := by
  have hmono : WorkerInv n (Function.update A node ((A node).step op)) (Told S node)
      { lp with proposer := p } :=
    (hi.setProposer hp).mono (fun _ _ _ _ => voted_update op) fun _ _ _ _ h => h
  exact ⟨.inr ⟨op, rfl, hop⟩, ⟨hmono.proposer, hmono.acceptors_eq, hmono.learner, hmono.delivered⟩,
    hout, hagree⟩

/-- What is sent after `forward`. -/
theorem mem_sentOn_forward {p : Packet} : p ∈ sentOn (forward node pkt dst r) ↔
    r.2.2 = .success ∧ p = { src := .node node, dst := dst, hdr := r.2.1 } := by
  obtain ⟨lp, hdr, ret⟩ := r
  cases ret <;> simp [forward, sentOn]

theorem forward_fst : (forward node pkt dst r).1 = r.1 := by
  obtain ⟨lp, hdr, ret⟩ := r
  cases ret <;> rfl

theorem Sound.callSound (h : Sound n A (Told S node) lp r) (hlp : lp.acceptor = A node) :
    CallSound n A S node (forward node pkt dst r).1 (sentOn (forward node pkt dst r)) := by
  rw [forward_fst]
  refine callSound_of_acceptor (h.acceptor.trans hlp) h.worker fun p hp => ?_
  obtain ⟨hs, rfl⟩ := mem_sentOn_forward.mp hp
  exact ⟨h.hdr hs, node, rfl⟩

/-- A prepare is answered with a promise, or not at all. -/
theorem typeOf_prepare_reply {a : MemAcceptor} {req : PaxosPrepare} {m : PaxosMessage}
    (h : (acceptorStep a (.receivePrepare req)).2 = some m) : typeOf m = MsgType.promise := by
  have h' : (acceptorReceivePrepare storageInitMem a req).2 = some m := h
  by_cases ht : req.iid ≤ a.trimIid
  · rw [receivePrepare_trimmed ht] at h'
    cases h'
  · by_cases hb : a.Admits req.iid req.ballot
    · rw [receivePrepare_admits ht hb] at h'
      cases h'
      rfl
    · obtain ⟨rec, hr, hlt⟩ := MemAcceptor.not_admits hb
      rw [receivePrepare_refused ht hr hlt] at h'
      cases h'
      rfl

theorem prepareHandler_callSound (hi : WorkerInv n A (Told S node) lp)
    (hlp : lp.acceptor = A node) (hr : prepareHandler node lp pkt.hdr = r) :
    CallSound n A S node (forward node pkt dst r).1 (sentOn (forward node pkt dst r)) := by
  obtain ⟨req, hreq⟩ : ∃ req, req = AcceptorOp.receivePrepare
    { iid := pkt.hdr.inst, ballot := pkt.hdr.rnd } := ⟨_, rfl⟩
  have hw : r.1 = { lp with proposer := lp.proposer, acceptor := (A node).step req } := by
    rw [← hr, ← hlp, hreq, prepareHandler]
    split <;> rfl
  have hhdr : ∀ {B : Nat → LoggedAcceptor}, HdrInv n B r.2.1 := by
    intro B
    rw [← hr, prepareHandler]
    split
    · rename_i m hm
      exact hdrInv_of_type MsgType.promise (typeOf_prepare_reply hm) (by decide)
    · exact hdrInv_of_type MsgType.setInstance rfl (by decide)
  rw [forward_fst, hw]
  refine callSound_of_step hi hi.proposer (fun _ h => ?_) (fun p hp => ?_) fun p hp _ _ ht => ?_
  · rw [hreq] at h
    cases h
  · obtain ⟨-, rfl⟩ := mem_sentOn_forward.mp hp
    exact .of_hdrInv hhdr ⟨node, rfl⟩
  · obtain ⟨-, rfl⟩ := mem_sentOn_forward.mp hp
    exact absurd ht (HdrInv.not_accepted (A := A) (n := n) hhdr)

/-- The acceptor does not reject the accept, and whoever asks has asked for no other value in the
instance at the ballot. -/
def Unrejected (a : LoggedAcceptor) (S : List Packet) (pkt : Packet) : Prop :=
  (¬ pkt.hdr.inst ≤ a.acceptor.trimIid →
    ∀ r ∈ a.acceptor.record pkt.hdr.inst, r.ballot ≤ pkt.hdr.rnd) ∧
  ∀ q ∈ S, q.hdr.msgtype = MsgType.accept → q.src = pkt.src → q.hdr.inst = pkt.hdr.inst →
    q.hdr.rnd = pkt.hdr.rnd → q.hdr.value = pkt.hdr.value

instance (a : LoggedAcceptor) (S : List Packet) (pkt : Packet) : Decidable (Unrejected a S pkt) :=
  inferInstanceAs (Decidable (_ ∧ _))

/-- What the handler sends for an accept that is not rejected. -/
theorem acceptHandler_reply (hlp : lp.acceptor = A node) (hok : Unrejected (A node) S pkt)
    (hr : acceptHandler node lp pkt.hdr = r) (hs : r.2.2 = .success) :
    ¬ pkt.hdr.inst ≤ (A node).acceptor.trimIid ∧
      r.2.1 = { pkt.hdr with msgtype := MsgType.accepted, acptid := UInt16.ofNat node } := by
  by_cases ht : pkt.hdr.inst ≤ (A node).acceptor.trimIid
  · -- a trimmed instance is dropped
    have hout : (acceptorStep lp.acceptor.acceptor (.receiveAccept (acceptOfHdr pkt.hdr))).2
        = none := by
      rw [hlp]
      exact congrArg Prod.snd (receiveAccept_trimmed ht)
    rw [← hr, acceptHandler] at hs
    simp only [hout] at hs
    cases hs
  · have hout : (acceptorStep lp.acceptor.acceptor (.receiveAccept (acceptOfHdr pkt.hdr))).2
        = some (.accepted (paxosAcceptToAccepted (A node).acceptor.id (acceptOfHdr pkt.hdr))) := by
      have hadm : (A node).acceptor.Admits (acceptOfHdr pkt.hdr).iid (acceptOfHdr pkt.hdr).ballot :=
        hok.1 ht
      rw [hlp]
      exact congrArg Prod.snd (receiveAccept_admits ht hadm)
    refine ⟨ht, ?_⟩
    rw [← hr, acceptHandler]
    simp only [hout]
    rfl

theorem acceptHandler_callSound (hi : WorkerInv n A (Told S node) lp) (hlp : lp.acceptor = A node)
    (hnode : node < 2 ^ 16) (hS : ∀ p ∈ S, PktInv n A S p) (hmem : pkt ∈ S)
    (htype : pkt.hdr.msgtype = MsgType.accept) (hok : Unrejected (A node) S pkt)
    (hr : acceptHandler node lp pkt.hdr = r) :
    CallSound n A S node (forward node pkt pkt.src r).1 (sentOn (forward node pkt pkt.src r)) := by
  -- the acceptor takes a step, whatever the reply
  have hw : r.1 = { lp with
      proposer := lp.proposer
      acceptor := (A node).step (.receiveAccept (acceptOfHdr pkt.hdr)) } := by
    rw [← hr, ← hlp, acceptHandler]
    split <;> rfl
  have hid : (UInt16.ofNat node).toNat = node := by
    rw [UInt16.toNat_ofNat']
    exact Nat.mod_eq_of_lt hnode
  rw [forward_fst, hw]
  refine callSound_of_step hi hi.proposer (fun req h => ?_) (fun p hp => ?_) fun p hp p' hp' => ?_
  · cases h
    exact pkt.hdr.value.2
  · obtain ⟨hs, rfl⟩ := mem_sentOn_forward.mp hp
    obtain ⟨ht, hhdr⟩ := acceptHandler_reply hlp hok hr hs
    rw [hhdr]
    refine ⟨fun h => ?_, fun _ => ⟨?_, pkt, hmem, htype, rfl, rfl, rfl, rfl⟩, fun h => ?_⟩
    · have hne : MsgType.accepted ≠ MsgType.chosen := by decide
      exact absurd h hne
    · show (Function.update A node _ (UInt16.ofNat node).toNat).Voted _ _ _
      rw [hid, Function.update_self]
      exact LoggedAcceptor.voted_of_admits ht (hok.1 ht)
    · have hne : MsgType.accepted ≠ MsgType.accept := by decide
      exact absurd h hne
  · intro _ ht' hdst hinst hrnd
    obtain ⟨hs, rfl⟩ := mem_sentOn_forward.mp hp
    rcases List.mem_append.mp hp' with hnew | hold
    · obtain ⟨-, rfl⟩ := mem_sentOn_forward.mp hnew
      rfl
    · -- the older answer is for what the same replica asked for
      obtain ⟨-, hhdr⟩ := acceptHandler_reply hlp hok hr hs
      obtain ⟨-, q, hq, hqt, hsrc, hqi, hqr, hqv⟩ := (hS p' hold).accepted ht'
      rw [hhdr] at hinst hrnd ⊢
      rw [← hqv]
      exact (hok.2 q hq hqt (hsrc.trans hdst.symm) (hqi.trans hinst.symm)
        (hqr.trans hrnd.symm)).symm

theorem learnerCheckpointHandler_callSound (hi : WorkerInv n A (Told S node) lp)
    (hlp : lp.acceptor = A node) (hr : learnerCheckpointHandler lp pkt.hdr = r) :
    CallSound n A S node (forward node pkt dst r).1 (sentOn (forward node pkt dst r)) := by
  have hp : ProposerInv n (Told S node)
      (proposerReceiveAcceptorState lp.proposer { aid := 0, trimIid := pkt.hdr.inst }) :=
    hi.proposer.step {} (.receiveAcceptorState _) (fun _ h => nomatch h) rfl
  have hnone : ∀ p ∈ sentOn (forward node pkt dst r), False := by
    intro p hp
    obtain ⟨hs, -⟩ := mem_sentOn_forward.mp hp
    rw [← hr] at hs
    cases hs
  rw [forward_fst, ← hr, learnerCheckpointHandler, hlp]
  exact callSound_of_step hi hp (fun _ h => nomatch h) (fun p hp => (hnone p (hr ▸ hp)).elim)
    fun p hp => (hnone p (hr ▸ hp)).elim

/-- **Every packet is handled soundly**, if what the packets tell is true and an accept is not
rejected. -/
theorem replicaHandler_callSound {conf : Conf} {now : Int} {freed : UInt32}
    {res : Worker × Packet × PaxosReturnCode} (hi : WorkerInv n A (Told S node) lp)
    (ht : Truthful A (Told S node)) (hlp : lp.acceptor = A node) (hnode : node < 2 ^ 16)
    (hS : ∀ p ∈ S, PktInv n A S p) (hmem : pkt ∈ S)
    (hdst : pkt.hdr.msgtype = MsgType.accepted → pkt.dst = .node node)
    (hok : pkt.hdr.msgtype = MsgType.accept → Unrejected (A node) S pkt)
    (h : replicaHandler conf node now freed lp pkt = .ok res) :
    CallSound n A S node res.1 (sentOn res) := by
  have hidle : ∀ {ret}, ret ≠ .success → CallSound n A S node lp (sentOn (lp, pkt, ret)) := by
    intro ret hret
    rw [sentOn, if_neg hret]
    exact callSound_of_acceptor hlp hi (List.forall_mem_nil _)
  -- one case a message type, in the order of the dispatch
  unfold replicaHandler at h
  split at h
  · cases h
    exact hidle (by decide)
  · cases h
    exact hidle (by decide)
  · obtain ⟨r, hr, h⟩ := Except.bind_eq_ok.mp h
    cases h
    exact (newCommandHandler_sound hi hr).callSound hlp
  · cases h
    exact prepareHandler_callSound hi hlp rfl
  · rename_i hd
    have htype := (label_of_dispatch hd).symm
    cases h
    exact acceptHandler_callSound hi hlp hnode hS hmem htype (hok htype) rfl
  · obtain ⟨r, hr, h⟩ := Except.bind_eq_ok.mp h
    cases h
    exact (promiseHandler_sound hi hr).callSound hlp
  · rename_i hd
    have htype := (label_of_dispatch hd).symm
    obtain ⟨r, hr, h⟩ := Except.bind_eq_ok.mp h
    cases h
    have htold : Told S node pkt.hdr.acptid.toNat pkt.hdr.inst pkt.hdr.rnd pkt.hdr.value.1 :=
      ⟨pkt, hmem, htype, hdst htype, rfl, rfl, rfl, rfl⟩
    exact (acceptedHandler_sound hi ht htold hr).callSound hlp
  · rename_i hd
    obtain ⟨⟨lp', hdr, ret⟩, hr, h⟩ := Except.bind_eq_ok.mp h
    have hchosen := (hS pkt hmem).chosen (label_of_dispatch hd).symm
    have hs := learnerChosenHandler_sound hi ht hchosen hr
    have hsent : ∀ {p : Packet}, p.hdr = hdr → p.src = .node node →
        CallSound n A S node lp' (sentOn (lp', p, ret)) := by
      intro p hp hsrc
      refine callSound_of_acceptor (hs.acceptor.trans hlp) hs.worker fun q hq => ?_
      unfold sentOn at hq
      split at hq
      · rename_i hret
        obtain rfl := List.mem_singleton.mp hq
        exact ⟨hp ▸ hs.hdr hret, node, hsrc⟩
      · cases hq
    simp only at h
    split at h
    · cases h
      exact hsent rfl rfl
    · split at h
      · cases h
        exact callSound_of_acceptor (hs.acceptor.trans hlp) hs.worker (List.forall_mem_nil _)
      · cases h
        exact hsent rfl rfl
  · cases h
    exact learnerCheckpointHandler_callSound hi hlp rfl
  · obtain ⟨r, hr, h⟩ := Except.bind_eq_ok.mp h
    cases h
    exact (proposerPrepareInstAllocated_sound hi hr).callSound hlp
  · obtain ⟨r, hr, h⟩ := Except.bind_eq_ok.mp h
    cases h
    exact (proposerSetInstanceHandler_sound hi hr).callSound hlp

/-- **Every call is sound.** -/
theorem Worker.call_callSound {config : PaxosConfig} {conf : Conf} {c : Call}
    (hi : WorkerInv n A (Told S node) lp) (ht : Truthful A (Told S node))
    (hlp : lp.acceptor = A node) (hnode : node < 2 ^ 16) (hS : ∀ p ∈ S, PktInv n A S p)
    (hpkt : ∀ now freed pkt, c = .receive now freed pkt → pkt ∈ S ∧
      (pkt.hdr.msgtype = MsgType.accepted → pkt.dst = .node node) ∧
      (pkt.hdr.msgtype = MsgType.accept → Unrejected (A node) S pkt))
    (h : lp.call config conf node c = .ok (lp', out)) : CallSound n A S node lp' out := by
  -- a timer of the proposer leaves a proposer with the invariant and sends requests
  have htimer : ∀ {p}, ProposerInv n (Told S node) p →
      (∀ pkt ∈ out, HdrInv n A pkt.hdr ∧ ∃ x, pkt.src = .node x) →
      CallSound n A S node { lp with proposer := p } out := fun hp hout =>
    callSound_of_acceptor hlp (hi.setProposer hp) hout
  cases c with
  | receive now freed pkt =>
    obtain ⟨r, hr, h⟩ := Except.bind_eq_ok.mp h
    cases h
    obtain ⟨hmem, hdst, hok⟩ := hpkt now freed pkt rfl
    exact replicaHandler_callSound hi ht hlp hnode hS hmem hdst hok hr
  | preexecute now junk =>
    rw [call] at h
    split at h
    · obtain ⟨⟨p, pr⟩, hcall, h⟩ := Except.bind_eq_ok.mp h
      cases h
      refine htimer (hi.proposer.step {} (.prepare now) (fun _ h => nomatch h)
        (Except.bind_eq_ok.mpr ⟨_, hcall, rfl⟩)) (List.forall_mem_singleton.mpr ?_)
      exact ⟨hdrInv_of_type MsgType.prepare rfl (by decide), node, rfl⟩
    · cases h
      exact callSound_of_acceptor hlp hi (List.forall_mem_nil _)
  | checkPrepareTimeouts iter junk =>
    cases h
    refine htimer (hi.proposer.step config (.timeoutIteratorPrepare iter) (fun _ h => nomatch h)
      rfl) fun pkt hmem => ?_
    obtain ⟨pr, -, rfl⟩ := List.mem_map.mp hmem
    exact ⟨hdrInv_of_type MsgType.prepare rfl (by decide), node, rfl⟩
  | checkAcceptTimeouts iter junk =>
    obtain ⟨⟨p, it, o⟩, hcall, h⟩ := Except.bind_eq_ok.mp h
    cases h
    refine htimer (hi.proposer.step config (.timeoutIteratorAccept iter) (fun _ h => nomatch h)
      (Except.bind_eq_ok.mpr ⟨_, hcall, rfl⟩)) fun pkt hmem => ?_
    obtain ⟨accept, -, rfl⟩ := List.mem_map.mp hmem
    exact ⟨hdrInv_of_type MsgType.accept rfl (by decide), node, rfl⟩
  | checkHoles junk =>
    have hw : ∀ b, WorkerInv n A (Told S node) { lp with hasHoles := b } := fun _ =>
      ⟨hi.proposer, hi.acceptors_eq, hi.learner, hi.delivered⟩
    rw [call] at h
    split at h
    · cases h
      refine callSound_of_acceptor hlp (hw true) fun pkt hmem => ?_
      obtain ⟨i, -, rfl⟩ := List.mem_map.mp hmem
      simp only
      split
      · exact ⟨hdrInv_of_type MsgType.learnerPrepare rfl (by decide), node, rfl⟩
      · exact ⟨hdrInv_of_type MsgType.accept rfl (by decide), node, rfl⟩
    · cases h
      exact callSound_of_acceptor hlp (hw false) (List.forall_mem_nil _)
  | sendCheckpoint junk =>
    cases h
    exact callSound_of_acceptor hlp hi (List.forall_mem_singleton.mpr
      ⟨hdrInv_of_type MsgType.learnerCheckpoint rfl (by decide), node, rfl⟩)

end Calls

end LibPaxos.P4xos
