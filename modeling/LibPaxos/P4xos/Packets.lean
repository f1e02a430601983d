import LibPaxos.P4xos.Chosen

/-!
# What the packets of a replica say and where they go

A handler edits the packet it is given: what it does not write stays as it was in the request. The
caller decides where the packet goes, by the type of the request.

* **`promise_packet_faithful`** — a promise packet says what the acceptor promised exactly if the
  acceptor has not promised more than it was asked for.
* **`promise_packet_overstated`** — `prepare_handler` leaves the ballot of the request, so a larger
  promise is read as one for the ballot of the leader.
* **`packets_routed_by_type`** — packets go where their type belongs exactly if the acceptor does
  not reject an accept and a leader that prepares ahead has an odd window.
* **`packets_misrouted`** — a rejection is sent as chosen, and a prepare to the client.
-/

namespace LibPaxos.P4xos

open Net (packet command)

/-! ## Promises

`prepare_handler` writes the type, the value ballot, the acceptor and the value over the request.
The instance and the ballot stay, so the promise that the leader reads is at its own ballot whatever
the acceptor has promised. -/

/-- The promise that `promise_handler` reads from a header. -/
def promiseOfHdr (hdr : PaxosHdr) : PaxosPromise :=
  { iid := hdr.inst, ballot := hdr.rnd, valueBallot := hdr.vrnd, aid := hdr.acptid,
    value := hdr.value.1 }

/-- What was accepted has the size of the value field. -/
def FitsHdr (a : MemAcceptor) : Prop :=
  ∀ i r, a.record i = some r → 0 < r.valueBallot → r.value.length = paxosValueSize

/-- An accept that the acceptor is given was read from a header. -/
def FromHdr (op : AcceptorOp) : Prop :=
  ∀ req, op = .receiveAccept req → ∃ hdr, req = acceptOfHdr hdr

section FitsHdr

variable {a a' : MemAcceptor} {op : AcceptorOp} {out : Option PaxosMessage}

/-- The record left by a prepare keeps the value. -/
theorem FitsHdr.promisedRecord (h : FitsHdr a) (req : PaxosPrepare)
    (hpos : 0 < (promisedRecord a req).valueBallot) :
    (promisedRecord a req).value.length = paxosValueSize := by
  unfold LibPaxos.promisedRecord at hpos ⊢
  cases hr : a.record req.iid with
  | none =>
    rw [hr] at hpos
    exact absurd hpos (UInt16.lt_irrefl 0)
  | some r =>
    rw [hr] at hpos
    exact h req.iid r hr hpos

theorem FitsHdr.move (h : FitsHdr a) (hop : FromHdr op) (hm : AcceptorMove a op a' out) :
    FitsHdr a' := by
  cases hm with
  | promised _ _ =>
    intro i r hr hpos
    rw [MemAcceptor.record_put] at hr
    split at hr
    · cases hr
      exact h.promisedRecord _ hpos
    · exact h i r hr hpos
  | accepted _ _ =>
    intro i r hr hpos
    rw [MemAcceptor.record_put] at hr
    split at hr
    · cases hr
      obtain ⟨hdr, rfl⟩ := hop _ rfl
      exact hdr.value.2
    · exact h i r hr hpos
  | trimmed _ => exact fun i r hr hpos => h i r (MemAcceptor.record_trimTo.mp hr).1 hpos
  | rePromised | repeated | silent => exact h

theorem fitsHdr_run {r : LoggedAcceptor} (h : FitsHdr r.acceptor) {ops : List AcceptorOp}
    (hops : ∀ op ∈ ops, FromHdr op) : FitsHdr (r.run ops).acceptor := by
  induction ops generalizing r with
  | nil => exact h
  | cons op ops ih =>
    have hstep : FitsHdr (r.step op).acceptor :=
      h.move (hops op List.mem_cons_self) (acceptorStep_move r.acceptor op)
    exact ih hstep fun op' hop' => hops op' (List.mem_cons_of_mem _ hop')

theorem acceptor_id_run (r : LoggedAcceptor) (ops : List AcceptorOp) :
    (r.run ops).acceptor.id = r.acceptor.id := by
  induction ops generalizing r with
  | nil => rfl
  | cons op ops ih => exact (ih (r.step op)).trans (acceptorStep_move r.acceptor op).id_eq

end FitsHdr

/-- What is left of a prepare packet that is answered with a promise. -/
theorem prepareHandler_promise {node : Nat} {lp : Worker} {hdr : PaxosHdr} {m : PaxosPromise}
    (hm : (acceptorStep lp.acceptor.acceptor
      (.receivePrepare { iid := hdr.inst, ballot := hdr.rnd })).2 = some (.promise m)) :
    (prepareHandler node lp hdr).2.1 =
      { hdr with
        msgtype := MsgType.promise
        vrnd := m.valueBallot
        acptid := UInt16.ofNat node
        value := memcpy hdr.value m.value } := by
  unfold prepareHandler
  simp only [hm]
  rfl

/-- A promise for a larger ballot than asked for names the larger ballot. -/
theorem promise_ballot_of_not_admits {a : MemAcceptor} {req : PaxosPrepare} {m : PaxosPromise}
    (hm : (acceptorStep a (.receivePrepare req)).2 = some (.promise m))
    (hb : ¬ a.Admits req.iid req.ballot) : req.ballot < m.ballot := by
  have hstep : (acceptorReceivePrepare storageInitMem a req).2 = some (.promise m) := hm
  by_cases ht : req.iid ≤ a.trimIid
  · rw [receivePrepare_trimmed ht] at hstep
    cases hstep
  · obtain ⟨r, hr, hlt⟩ := MemAcceptor.not_admits hb
    rw [receivePrepare_refused ht hr hlt] at hstep
    cases hstep
    exact UInt16.not_le.mp hlt

/-- **Promise packets say what was promised.** Whatever an acceptor of the replica `node` was given,
if it answers a prepare with a promise, the leader reads that promise from the packet exactly if the
acceptor has no record with a larger ballot. -/
theorem promise_packet_faithful (node : Nat) (ops : List AcceptorOp) (lp : Worker) (hdr : PaxosHdr)
    (m : PaxosPromise) (hops : ∀ op ∈ ops, FromHdr op)
    (hlp : lp.acceptor = (LoggedAcceptor.fresh node).run ops)
    (hm : (acceptorStep lp.acceptor.acceptor
      (.receivePrepare { iid := hdr.inst, ballot := hdr.rnd })).2 = some (.promise m)) :
    let p := promiseOfHdr (prepareHandler node lp hdr).2.1
    (p.iid = m.iid ∧ p.ballot = m.ballot ∧ p.valueBallot = m.valueBallot ∧ p.aid = m.aid ∧
      (0 < m.valueBallot → p.value = m.value)) ↔
    lp.acceptor.acceptor.Admits hdr.inst hdr.rnd := by
  rw [prepareHandler_promise hm]
  constructor
  · rintro ⟨-, hballot, -⟩
    -- the packet has the ballot of the request
    have hballot : hdr.rnd = m.ballot := hballot
    by_contra hb
    have hlt := promise_ballot_of_not_admits hm hb
    exact UInt16.lt_irrefl _ (hballot ▸ hlt)
  · intro hadmits
    have hid : lp.acceptor.acceptor.id = node := by
      rw [hlp]
      exact acceptor_id_run _ ops
    have hfits : FitsHdr lp.acceptor.acceptor := by
      rw [hlp]
      exact fitsHdr_run (fun i r hr => by cases hr) hops
    have hrec : PaxosMessage.promise m = paxosAcceptedToPromise
        (promisedRecord lp.acceptor.acceptor { iid := hdr.inst, ballot := hdr.rnd }) := by
      have hstep : (acceptorReceivePrepare storageInitMem lp.acceptor.acceptor
          { iid := hdr.inst, ballot := hdr.rnd }).2 = some (.promise m) := hm
      by_cases ht : hdr.inst ≤ lp.acceptor.acceptor.trimIid
      · rw [receivePrepare_trimmed ht] at hstep
        cases hstep
      · rw [receivePrepare_admits ht hadmits] at hstep
        exact (Option.some.inj hstep).symm
    cases hrec
    refine ⟨rfl, rfl, rfl, ?_, fun hpos => memcpy_of_length (hfits.promisedRecord _ hpos) _⟩
    rw [← hid]
    rfl

/-- The value accepted at ballot 10 is reported to a leader that asks for ballot 20. -/
theorem promise_packet_faithful_accepted :
    let hdr := (packet (.node 1) .acceptorAddr MsgType.accept 10 1 7).hdr
    let lp : Worker := { Worker.init {} { lcore := 0 } 3 0 with
      acceptor := (LoggedAcceptor.fresh 0).run [.receiveAccept (acceptOfHdr hdr)] }
    let p := promiseOfHdr
      (prepareHandler 0 lp (packet (.node 2) .acceptorAddr MsgType.prepare 20 2 0).hdr).2.1
    p.ballot = 20 ∧ p.valueBallot = 10 ∧ p.value = (command 7).1 := by
  obtain ⟨-, hballot, hvrnd, -, hvalue⟩ := (promise_packet_faithful 0
    [.receiveAccept (acceptOfHdr (packet (.node 1) .acceptorAddr MsgType.accept 10 1 7).hdr)]
    { Worker.init {} { lcore := 0 } 3 0 with
      acceptor := (LoggedAcceptor.fresh 0).run
        [.receiveAccept (acceptOfHdr (packet (.node 1) .acceptorAddr MsgType.accept 10 1 7).hdr)] }
    (packet (.node 2) .acceptorAddr MsgType.prepare 20 2 0).hdr
    { iid := 1, ballot := 20, valueBallot := 10, aid := 0, value := (command 7).1 }
    (by
      intro op hop req hreq
      obtain rfl := List.mem_singleton.mp hop
      cases hreq
      exact ⟨_, rfl⟩)
    rfl (by decide +kernel)).mpr
    (by
      intro r hr
      cases hr
      decide)
  exact ⟨hballot, hvrnd, hvalue (by decide)⟩

/-- **A larger promise is not seen.** An acceptor that has promised ballot 20 says so, but the
packet keeps the ballot 10 of the request; the only acceptor there is, it lets the leader go on to
accept at ballot 10. -/
theorem promise_packet_overstated :
    let lp : Worker := { Worker.init {} { lcore := 0 } 1 0 with
      acceptor := (LoggedAcceptor.fresh 0).run [.receivePrepare { iid := 1, ballot := 20 }] }
    (acceptorStep lp.acceptor.acceptor (.receivePrepare { iid := 1, ballot := 10 })).2
      = some (.promise { iid := 1, ballot := 20, aid := 0 }) ∧
    (((newCommandHandler 0 (Worker.init {} { lcore := 0 } 1 0)
        (packet .client (.node 0) MsgType.newCommand 0 9 1).hdr).toOption.bind fun r =>
      (promiseHandler { lcore := 0, leader := true } 0 r.1
        (prepareHandler 0 lp r.2.1).2.1).toOption).map fun r =>
          (r.2.1.msgtype, r.2.1.rnd, r.2.2))
      = some (MsgType.accept, 10, .success) := by
  decide +kernel

/-! ## Routing

`replica_handler` picks the destination by the type of the request, the handlers pick the type of
the packet by what the acceptor or the proposer answers. The two agree except in two places: a
rejected accept, whose reply has the code of a chosen packet, and a chosen packet that a leader has
turned into a prepare although the caller does not see the window. -/

/-- A packet goes where its type belongs: requests to the acceptors, replies to whoever asked, and
what is chosen to the learners or to the client. -/
structure Routed (pkt out : Packet) : Prop where
  request : out.hdr.msgtype = MsgType.prepare ∨ out.hdr.msgtype = MsgType.accept →
    out.dst = .acceptorAddr
  reply : out.hdr.msgtype = MsgType.promise ∨ out.hdr.msgtype = MsgType.accepted ∨
    out.hdr.msgtype = MsgType.setInstance → out.dst = pkt.src
  chosen : out.hdr.msgtype = MsgType.chosen → out.dst = .learnerAddr ∨ out.dst = .client

section Routed

variable {pkt out : Packet}

theorem routed_request
    (ht : out.hdr.msgtype = MsgType.prepare ∨ out.hdr.msgtype = MsgType.accept)
    (hd : out.dst = .acceptorAddr) : Routed pkt out where
  request _ := hd
  reply h := by rcases ht with ht | ht <;> exact absurd h (by rw [ht]; decide)
  chosen h := by rcases ht with ht | ht <;> exact absurd h (by rw [ht]; decide)

theorem routed_reply
    (ht : out.hdr.msgtype = MsgType.promise ∨ out.hdr.msgtype = MsgType.accepted ∨
      out.hdr.msgtype = MsgType.setInstance) (hd : out.dst = pkt.src) : Routed pkt out where
  request h := by rcases ht with ht | ht | ht <;> exact absurd h (by rw [ht]; decide)
  reply _ := hd
  chosen h := by rcases ht with ht | ht | ht <;> exact absurd h (by rw [ht]; decide)

theorem routed_chosen (ht : out.hdr.msgtype = MsgType.chosen)
    (hd : out.dst = .learnerAddr ∨ out.dst = .client) : Routed pkt out where
  request h := absurd h (by rw [ht]; decide)
  reply h := absurd h (by rw [ht]; decide)
  chosen _ := hd

theorem forward_success {node : Nat} {dst : Addr} {r : Result} {lp' : Worker}
    (h : forward node pkt dst r = (lp', out, .success)) :
    r.2.2 = .success ∧ out.hdr = r.2.1 ∧ out.dst = dst := by
  obtain ⟨lp, hdr, ret⟩ := r
  cases ret with
  | success =>
    cases h
    exact ⟨rfl, rfl, rfl⟩
  | toDrop | dropOriginalPacket | noHandler | noAcceptInstance => cases h

end Routed

/-! The types that the handlers write. -/

section Types

variable {lp : Worker} {hdr : PaxosHdr} {r : Result} {now : Int}

theorem tryAccept_type (h : tryAccept lp hdr = .ok r) (hs : r.2.2 = .success) :
    r.2.1.msgtype = MsgType.accept := by
  obtain ⟨⟨p, out⟩, -, h⟩ := Except.bind_eq_ok.mp h
  cases out with
  | none =>
    cases h
    cases hs
  | some accept =>
    cases h
    rfl

theorem proposerPrepareAllocated_type (h : proposerPrepareAllocated now lp hdr = .ok r) :
    r.2.1.msgtype = MsgType.prepare := by
  obtain ⟨⟨p, pr⟩, -, h⟩ := Except.bind_eq_ok.mp h
  cases h
  rfl

theorem proposerPrepareInstAllocated_type (h : proposerPrepareInstAllocated now lp hdr = .ok r) :
    r.2.1.msgtype = MsgType.prepare := by
  obtain ⟨⟨p, pr⟩, -, h⟩ := Except.bind_eq_ok.mp h
  cases h
  rfl

theorem newCommandHandler_type (h : newCommandHandler now lp hdr = .ok r)
    (hs : r.2.2 = .success) :
    r.2.1.msgtype = MsgType.prepare ∨ r.2.1.msgtype = MsgType.accept := by
  unfold newCommandHandler at h
  split at h
  · cases h
    cases hs
  · obtain ⟨⟨lp', hdr', ret⟩, htry, h⟩ := Except.bind_eq_ok.mp h
    simp only at h
    split at h
    · cases h
      exact .inr (tryAccept_type htry hs)
    · exact .inl (proposerPrepareAllocated_type h)

theorem promiseHandler_type {conf : Conf} (h : promiseHandler conf now lp hdr = .ok r)
    (hs : r.2.2 = .success) :
    r.2.1.msgtype = MsgType.prepare ∨ r.2.1.msgtype = MsgType.accept := by
  unfold promiseHandler at h
  split at h
  · cases h
    cases hs
  · obtain ⟨⟨p, preempted⟩, -, h⟩ := Except.bind_eq_ok.mp h
    cases preempted with
    | some pr =>
      cases h
      exact .inl rfl
    | none => exact .inr (tryAccept_type h hs)

theorem acceptedHandler_type {conf : Conf} (h : acceptedHandler conf lp hdr = .ok r)
    (hs : r.2.2 = .success) : r.2.1.msgtype = MsgType.chosen := by
  unfold acceptedHandler at h
  split at h
  · cases h
    cases hs
  · obtain ⟨⟨p, ret⟩, -, h⟩ := Except.bind_eq_ok.mp h
    simp only at h
    split at h
    · cases h
      rfl
    · cases h
      cases hs

theorem prepareHandler_type (node : Nat) :
    (prepareHandler node lp hdr).2.1.msgtype = MsgType.promise ∨
      (prepareHandler node lp hdr).2.1.msgtype = MsgType.setInstance := by
  unfold prepareHandler
  cases hout : (acceptorStep lp.acceptor.acceptor
      (.receivePrepare { iid := hdr.inst, ballot := hdr.rnd })).2 with
  | some out =>
    simp only [hout]
    exact .inl (typeOf_prepare_reply hout)
  | none =>
    simp only [hout]
    exact .inr trivial

/-- An accept is answered with accepted, or rejected with the type of a chosen packet. -/
theorem acceptHandler_type {node : Nat} (hs : (acceptHandler node lp hdr).2.2 = .success) :
    lp.acceptor.acceptor.Admits hdr.inst hdr.rnd ∧
        (acceptHandler node lp hdr).2.1.msgtype = MsgType.accepted ∨
      ¬ lp.acceptor.acceptor.Admits hdr.inst hdr.rnd ∧
        (acceptHandler node lp hdr).2.1.msgtype = MsgType.chosen := by
  have hout : ∀ {out}, (acceptorStep lp.acceptor.acceptor (.receiveAccept (acceptOfHdr hdr))).2
      = some out → (acceptHandler node lp hdr).2.1.msgtype = typeOf out := by
    intro out hout
    simp only [acceptHandler, hout]
  by_cases ht : hdr.inst ≤ lp.acceptor.acceptor.trimIid
  · -- a trimmed instance is dropped
    have hnone : (acceptorStep lp.acceptor.acceptor (.receiveAccept (acceptOfHdr hdr))).2 = none :=
      congrArg Prod.snd (receiveAccept_trimmed ht)
    simp only [acceptHandler, hnone] at hs
    cases hs
  · by_cases hb : lp.acceptor.acceptor.Admits hdr.inst hdr.rnd
    · exact .inl ⟨hb, hout (congrArg Prod.snd (receiveAccept_admits ht hb))⟩
    · obtain ⟨r, hr, hlt⟩ := MemAcceptor.not_admits hb
      exact .inr ⟨hb, hout (congrArg Prod.snd (receiveAccept_refused ht hr hlt))⟩

/-- A chosen packet goes on as a prepare if the leader prepares ahead, and as it is otherwise. -/
theorem learnerChosenHandler_type {conf : Conf} {freed : UInt32}
    (h : learnerChosenHandler conf now freed lp hdr = .ok r) (hs : r.2.2 = .success) :
    r.2.1.msgtype =
      if conf.leader = true ∧ conf.preexecWindow ≠ 0 then MsgType.prepare else MsgType.chosen := by
  obtain ⟨l, -, rfl⟩ | ⟨l, d, -, ⟨hahead, hr⟩ | ⟨hahead, rfl⟩⟩ := learnerChosenHandler_cases h
  · cases hs
  · rw [if_pos hahead]
    exact proposerPrepareAllocated_type hr
  · rw [if_neg hahead]
    rfl

end Types

/-- A window that is even is not seen by the test of `replica_handler`. -/
def Conf.WindowSeen (conf : Conf) : Prop :=
  conf.leader = true → conf.preexecWindow ≠ 0 → conf.respondToClient = true →
    conf.preexecWindow &&& 1 ≠ 0

section Window

variable {conf : Conf} {pkt out : Packet}

/-- A window that is seen: the chosen packet has become a prepare. -/
theorem routed_of_window (hodd : conf.leader = true ∧ conf.preexecWindow &&& 1 ≠ 0)
    (ht : out.hdr.msgtype = if conf.leader = true ∧ conf.preexecWindow ≠ 0 then MsgType.prepare
      else MsgType.chosen) (hdst : out.dst = .acceptorAddr) : Routed pkt out := by
  have hne : conf.preexecWindow ≠ 0 := by
    intro hzero
    rw [hzero] at hodd
    exact hodd.2 rfl
  rw [if_pos ⟨hodd.1, hne⟩] at ht
  exact routed_request (.inl ht) hdst

/-- A window that is not seen: unless there is none, a prepare goes to the client. -/
theorem routed_iff_of_no_window (hodd : ¬ (conf.leader = true ∧ conf.preexecWindow &&& 1 ≠ 0))
    (hrespond : conf.respondToClient = true)
    (ht : out.hdr.msgtype = if conf.leader = true ∧ conf.preexecWindow ≠ 0 then MsgType.prepare
      else MsgType.chosen) (hdst : out.dst = .client) : Routed pkt out ↔ conf.WindowSeen := by
  by_cases hahead : conf.leader = true ∧ conf.preexecWindow ≠ 0
  · rw [if_pos hahead] at ht
    refine iff_of_false (fun h => ?_) fun hseen => ?_
    · have hacc := h.request (.inl ht)
      rw [hdst] at hacc
      cases hacc
    · exact hodd ⟨hahead.1, hseen hahead.1 hahead.2 hrespond⟩
  · rw [if_neg hahead] at ht
    refine iff_of_true (routed_chosen ht (.inr hdst)) fun hleader hne => ?_
    exact absurd ⟨hleader, hne⟩ hahead

end Window

/-- The reply to an accept goes to whoever asked: the right place, unless it is a rejection and the
request came neither from the learners nor from the client. -/
theorem routed_accept_iff {node : Nat} {lp : Worker} {pkt out : Packet}
    (hs : (acceptHandler node lp pkt.hdr).2.2 = .success)
    (hhdr : out.hdr = (acceptHandler node lp pkt.hdr).2.1) (hdst : out.dst = pkt.src) :
    Routed pkt out ↔ lp.acceptor.acceptor.Admits pkt.hdr.inst pkt.hdr.rnd ∨
      pkt.src = .learnerAddr ∨ pkt.src = .client := by
  rcases acceptHandler_type hs with ⟨hb, ht⟩ | ⟨hb, ht⟩
  · rw [← hhdr] at ht
    exact iff_of_true (routed_reply (.inr (.inl ht)) hdst) (.inl hb)
  · rw [← hhdr] at ht
    constructor
    · intro h
      exact .inr (hdst ▸ h.chosen ht)
    · rintro (hadmits | hsrc)
      · exact absurd hadmits hb
      · exact routed_chosen ht (hdst ▸ hsrc)

/-- **Packets are routed by what they are.** A packet that a replica does not drop goes where its
type belongs exactly if the acceptor has no record above the ballot of an accept, or the accept came
from the learners or the client itself, and a leader that prepares ahead and responds to the client
has an odd window. -/
theorem packets_routed_by_type (conf : Conf) (node : Nat) (now : Int) (freed : UInt32)
    (lp lp' : Worker) (pkt out : Packet)
    (h : replicaHandler conf node now freed lp pkt = .ok (lp', out, .success)) :
    Routed pkt out ↔
      (pkt.hdr.msgtype = MsgType.accept →
        lp.acceptor.acceptor.Admits pkt.hdr.inst pkt.hdr.rnd ∨ pkt.src = .learnerAddr ∨
          pkt.src = .client) ∧
      (pkt.hdr.msgtype = MsgType.chosen → conf.WindowSeen) := by
  unfold replicaHandler at h
  cases hd : dispatch pkt.hdr.msgtype with
  | none =>
    rw [hd] at h
    cases h
  | some handler =>
    rw [hd] at h
    have hlabel := label_of_dispatch hd
    -- nothing is asked of the other types
    have hplain : handler.label ≠ MsgType.accept → handler.label ≠ MsgType.chosen →
        Routed pkt out → (Routed pkt out ↔
          (pkt.hdr.msgtype = MsgType.accept →
            lp.acceptor.acceptor.Admits pkt.hdr.inst pkt.hdr.rnd ∨ pkt.src = .learnerAddr ∨
              pkt.src = .client) ∧
          (pkt.hdr.msgtype = MsgType.chosen → conf.WindowSeen)) := by
      intro ha hc hrouted
      exact iff_of_true hrouted
        ⟨fun ht => absurd (hlabel.trans ht) ha, fun ht => absurd (hlabel.trans ht) hc⟩
    cases handler with
    | reset => cases h
    | newCommand =>
      obtain ⟨r, hr, h⟩ := Except.bind_eq_ok.mp h
      obtain ⟨hs, hhdr, hdst⟩ := forward_success (Except.ok.inj h)
      exact hplain (by decide) (by decide)
        (routed_request (hhdr ▸ newCommandHandler_type hr hs) hdst)
    | prepare =>
      obtain ⟨-, hhdr, hdst⟩ := forward_success (Except.ok.inj h)
      refine hplain (by decide) (by decide) (routed_reply ?_ hdst)
      rw [hhdr]
      rcases prepareHandler_type node with ht | ht
      · exact .inl ht
      · exact .inr (.inr ht)
    | accept =>
      obtain ⟨hs, hhdr, hdst⟩ := forward_success (Except.ok.inj h)
      rw [routed_accept_iff hs hhdr hdst]
      refine ⟨fun hok => ⟨fun _ => hok, fun ht => ?_⟩, fun hok => hok.1 hlabel.symm⟩
      exact absurd (hlabel.trans ht) (by decide)
    | promise =>
      obtain ⟨r, hr, h⟩ := Except.bind_eq_ok.mp h
      obtain ⟨hs, hhdr, hdst⟩ := forward_success (Except.ok.inj h)
      exact hplain (by decide) (by decide) (routed_request (hhdr ▸ promiseHandler_type hr hs) hdst)
    | accepted =>
      obtain ⟨r, hr, h⟩ := Except.bind_eq_ok.mp h
      obtain ⟨hs, hhdr, hdst⟩ := forward_success (Except.ok.inj h)
      exact hplain (by decide) (by decide)
        (routed_chosen (hhdr ▸ acceptedHandler_type hr hs) (.inl hdst))
    | chosen =>
      have hnot : pkt.hdr.msgtype ≠ MsgType.accept := fun ht => absurd (hlabel.trans ht) (by decide)
      obtain ⟨⟨lp₁, hdr, ret⟩, hr, h⟩ := Except.bind_eq_ok.mp h
      simp only at h
      split at h
      · rename_i hodd
        cases h
        refine iff_of_true (routed_of_window hodd (learnerChosenHandler_type hr rfl) rfl)
          ⟨fun ht => absurd ht hnot, fun _ _ _ _ => hodd.2⟩
      · rename_i hodd
        split at h
        · cases h
        · rename_i hrespond
          cases h
          rw [routed_iff_of_no_window hodd (by simpa using hrespond)
            (learnerChosenHandler_type hr rfl) rfl]
          exact ⟨fun hseen => ⟨fun ht => absurd ht hnot, fun _ => hseen⟩,
            fun hok => hok.2 hlabel.symm⟩
    | learnerCheckpoint =>
      obtain ⟨hs, -, -⟩ := forward_success (Except.ok.inj h)
      cases hs
    | learnerPrepare =>
      obtain ⟨r, hr, h⟩ := Except.bind_eq_ok.mp h
      obtain ⟨-, hhdr, hdst⟩ := forward_success (Except.ok.inj h)
      exact hplain (by decide) (by decide)
        (routed_request (.inl (hhdr ▸ proposerPrepareInstAllocated_type hr)) hdst)
    | setInstance =>
      obtain ⟨r, hr, h⟩ := Except.bind_eq_ok.mp h
      obtain ⟨-, hhdr, hdst⟩ := forward_success (Except.ok.inj h)
      exact hplain (by decide) (by decide)
        (routed_request (.inl (hhdr ▸ proposerPrepareAllocated_type hr)) hdst)

/-- A leader with a window of three gets a chosen packet and sends a prepare to the acceptors. -/
theorem packets_routed_by_type_window :
    ∃ out : Packet, out.hdr.msgtype = MsgType.prepare ∧ out.dst = .acceptorAddr := by
  have h : ((replicaHandler { lcore := 0, leader := true, preexecWindow := 3 } 0 0 0
      (Worker.init {} { lcore := 0 } 3 0)
      (packet (.node 1) .learnerAddr MsgType.chosen 10 1 1)).toOption.any fun r =>
        r.2.2 = .success ∧ r.2.1.hdr.msgtype = MsgType.prepare) = true := by
    decide +kernel
  cases hr : replicaHandler { lcore := 0, leader := true, preexecWindow := 3 } 0 0 0
      (Worker.init {} { lcore := 0 } 3 0) (packet (.node 1) .learnerAddr MsgType.chosen 10 1 1) with
  | error e =>
    rw [hr] at h
    cases h
  | ok r =>
    rw [hr] at h
    obtain ⟨hs, ht⟩ := of_decide_eq_true h
    obtain ⟨lp', out, ret⟩ := r
    obtain rfl : ret = .success := hs
    have hrouted := (packets_routed_by_type _ _ _ _ _ _ _ _ hr).mpr
      ⟨fun ht => absurd ht (by decide), fun _ _ _ h => absurd h (by decide)⟩
    exact ⟨out, ht, hrouted.request (.inl ht)⟩

/-- **Packets that go astray.** The acceptor has promised ballot 20 and answers an accept at ballot
10 with preempted, which is sent to the leader under the type of chosen. And a leader with a window
of two sends the prepare that it writes over a chosen packet to the client. -/
theorem packets_misrouted :
    ((replicaHandler { lcore := 0 } 0 0 0
      { Worker.init {} { lcore := 0 } 3 0 with
        acceptor := (LoggedAcceptor.fresh 0).run [.receivePrepare { iid := 1, ballot := 20 }] }
      (packet (.node 1) .acceptorAddr MsgType.accept 10 1 1)).toOption.map fun r =>
        (r.2.1.hdr.msgtype, r.2.1.dst, r.2.2))
      = some (MsgType.chosen, .node 1, .success) ∧
    ((replicaHandler { lcore := 0, leader := true, preexecWindow := 2, respondToClient := true }
      0 0 0 (Worker.init {} { lcore := 0 } 3 0)
      (packet (.node 1) .learnerAddr MsgType.chosen 10 1 1)).toOption.map fun r =>
        (r.2.1.hdr.msgtype, r.2.1.dst, r.2.2))
      = some (MsgType.prepare, .client, .success) := by
  decide +kernel

end LibPaxos.P4xos
