import LibPaxos.AcceptorRuns
import LibPaxos.Proposer
import LibPaxos.Learner

/-!
# The handlers of a p4xos replica

`p4xos_leader.c`, `p4xos_acceptor.c` and the timers of `p4xos_learner.c`. A replica is one worker
with a proposer, an acceptor and a learner. Its handlers change the header of the packet they are
given; whether the packet is sent on depends on their return code.

The type field of a header is written in two ways: the acceptor handlers copy the message type of
the library, everything else is written and read with the codes of `dpp_paxos.h`.

Left out are the fields of the header that no handler of a replica reads (`worker_id`, `log_index`,
`reserved`, `request_id`, `igress_ts`), counters and logging.
-/

namespace LibPaxos.P4xos

/-! ## Headers -/

/-- `PAXOS_VALUE_SIZE`. -/
def paxosValueSize : Nat := 8

/-- The value field of a header. -/
abbrev HdrValue := { v : PaxosValue // v.length = paxosValueSize }

/-- `rte_memcpy` of the bytes of a value over a value field. What does not fit is dropped here; in C
it would run into the next field. -/
def memcpy (dst : HdrValue) (src : PaxosValue) : HdrValue :=
  ⟨(src ++ dst.1.drop src.length).take paxosValueSize, by
    rw [List.length_take, List.length_append, List.length_drop, dst.2]
    omega⟩

theorem memcpy_of_length {src : PaxosValue} (h : src.length = paxosValueSize) (dst : HdrValue) :
    (memcpy dst src).1 = src :=
  List.take_left' h

/-- `struct paxos_hdr`. -/
structure PaxosHdr where
  msgtype : UInt8
  rnd : UInt16
  inst : UInt32
  vrnd : UInt16
  acptid : UInt16
  value : HdrValue
deriving DecidableEq

/-! The first five codes are those of `enum paxos_message_type`, the others those of `dpp_paxos.h`.
-/

def MsgType.prepare : UInt8 := 0
def MsgType.promise : UInt8 := 1
def MsgType.accept : UInt8 := 2
def MsgType.accepted : UInt8 := 3
def MsgType.preempted : UInt8 := 4
def MsgType.chosen : UInt8 := 0x04
def MsgType.reset : UInt8 := 0x07
def MsgType.newCommand : UInt8 := 0x08
def MsgType.learnerPrepare : UInt8 := 0x20
def MsgType.learnerCheckpoint : UInt8 := 0x22
def MsgType.setInstance : UInt8 := 0x30

/-- The `type` of a message of the library. -/
def typeOf : PaxosMessage → UInt8
  | .prepare _ => MsgType.prepare
  | .promise _ => MsgType.promise
  | .accept _ => MsgType.accept
  | .accepted _ => MsgType.accepted
  | .preempted _ => MsgType.preempted

/-- The members of the union have one layout, so this is `u.promise.value_ballot` whatever the
type. -/
def valueBallotOf : PaxosMessage → UInt16
  | .prepare m => m.valueBallot
  | .promise m => m.valueBallot
  | .accept m => m.valueBallot
  | .accepted m => m.valueBallot
  | .preempted m => m.valueBallot

/-- `u.promise.value`, whatever the type. -/
def valueOf : PaxosMessage → PaxosValue
  | .prepare m => m.value
  | .promise m => m.value
  | .accept m => m.value
  | .accepted m => m.value
  | .preempted m => m.value

/-- `set_paxos_hdr`, on a packet whose value field holds `junk`. -/
def setPaxosHdr (junk : HdrValue) (msgtype : UInt8) (inst : UInt32) (rnd acptid : UInt16)
    (value : PaxosValue) : PaxosHdr where
  msgtype := msgtype
  rnd := rnd
  inst := inst
  vrnd := 0
  acptid := acptid
  value := memcpy junk value

/-- Where packets go. Replicas know each other by their node ids; the acceptor and the learner
address are those of groups. -/
inductive Addr where
  | node (id : Nat)
  | acceptorAddr
  | learnerAddr
  | paxosLeader
  | client
deriving DecidableEq

/-- A packet: the addresses of its IP header and its Paxos header. -/
structure Packet where
  src : Addr
  dst : Addr
  hdr : PaxosHdr
deriving DecidableEq

/-! ## Workers -/

/-- `struct p4xos_configuration`, the fields that the handlers read, with the core that the worker
runs on and the default value of the application. -/
structure Conf where
  lcore : UInt32
  leader : Bool := false
  preexecWindow : UInt32 := 0
  respondToClient : Bool := false
  runPrepare : Bool := false
  defaultValue : PaxosValue := []

/-- `struct app_lcore_params_worker`, with what was handed to `deliver`, newest first. The acceptor
keeps its log. -/
structure Worker where
  proposer : Proposer
  acceptor : LoggedAcceptor
  learner : Learner
  hasHoles : Bool
  delivered : List PaxosAccepted

/-- `app_init_leader`, `app_init_acceptor` and `app_init_learner`. -/
def Worker.init (config : PaxosConfig) (conf : Conf) (numAcceptors node : Nat) : Worker where
  proposer := proposerNew conf.lcore numAcceptors
  acceptor := .fresh node
  learner := learnerSetInstanceId (learnerNew config numAcceptors) 0
  hasHoles := false
  delivered := []

/-- `enum PAXOS_RETURN_CODE`, the codes that the handlers of Paxos packets return. A packet is sent
on after `SUCCESS` only. -/
inductive PaxosReturnCode where
  | success
  | toDrop
  | dropOriginalPacket
  | noHandler
  | noAcceptInstance
deriving DecidableEq

/-- What a handler leaves: the worker, the header and the return code. -/
abbrev Result := Worker × PaxosHdr × PaxosReturnCode

/-! ## Acceptor handlers -/

/-- `prepare_handler`. A prepare of a trimmed instance is answered with the highest instance that
the learner has closed. -/
def prepareHandler (node : Nat) (lp : Worker) (hdr : PaxosHdr) : Result :=
  let op := AcceptorOp.receivePrepare { iid := hdr.inst, ballot := hdr.rnd }
  let lp' := { lp with acceptor := lp.acceptor.step op }
  match (acceptorStep lp.acceptor.acceptor op).2 with
  | some out =>
    (lp', { hdr with
      msgtype := typeOf out
      vrnd := valueBallotOf out
      acptid := UInt16.ofNat node
      value := memcpy hdr.value (valueOf out) }, .success)
  | none =>
    (lp', { hdr with msgtype := MsgType.setInstance, inst := lp.learner.highestIidClosed },
      .success)

/-- The accept request that a header carries. -/
def acceptOfHdr (hdr : PaxosHdr) : PaxosAccept :=
  { iid := hdr.inst, ballot := hdr.rnd, value := hdr.value.1 }

/-- `accept_handler`. Whatever the acceptor answers, its type is written into the header. -/
def acceptHandler (node : Nat) (lp : Worker) (hdr : PaxosHdr) : Result :=
  let op := AcceptorOp.receiveAccept (acceptOfHdr hdr)
  let lp' := { lp with acceptor := lp.acceptor.step op }
  match (acceptorStep lp.acceptor.acceptor op).2 with
  | some out => (lp', { hdr with msgtype := typeOf out, acptid := UInt16.ofNat node }, .success)
  | none => (lp', hdr, .dropOriginalPacket)

/-! ## Leader handlers

A leader edits the packet it was given into its own request. Fields that it does not write keep what
they had in the packet. -/

/-- `try_accept`. -/
def tryAccept (lp : Worker) (hdr : PaxosHdr) : Except Fault Result := do
  let (p, out) ← proposerAccept lp.proposer
  match out with
  | some accept =>
    .ok ({ lp with proposer := p }, { hdr with
      msgtype := MsgType.accept
      inst := accept.iid
      rnd := accept.ballot
      value := memcpy hdr.value accept.value }, .success)
  | none => .ok ({ lp with proposer := p }, hdr, .noAcceptInstance)

/-- The prepare request of a proposer, written into a header. -/
def writePrepare (hdr : PaxosHdr) (pr : PaxosPrepare) : PaxosHdr :=
  { hdr with msgtype := MsgType.prepare, inst := pr.iid, rnd := pr.ballot }

/-- `proposer_prepare_allocated`. -/
def proposerPrepareAllocated (now : Int) (lp : Worker) (hdr : PaxosHdr) : Except Fault Result := do
  let (p, pr) ← proposerPrepare now lp.proposer
  .ok ({ lp with proposer := p }, writePrepare hdr pr, .success)

/-- `proposer_prepare_inst_allocated`. -/
def proposerPrepareInstAllocated (now : Int) (lp : Worker) (hdr : PaxosHdr) :
    Except Fault Result := do
  let (p, pr) ← proposerPrepareInstance now lp.proposer hdr.inst
  .ok ({ lp with proposer := p }, writePrepare hdr pr, .success)

/-- `promise_handler`. The promise always has the eight bytes of the header for a value. -/
def promiseHandler (conf : Conf) (now : Int) (lp : Worker) (hdr : PaxosHdr) : Except Fault Result :=
  if conf.leader = false then .ok (lp, hdr, .dropOriginalPacket)
  else do
    let (p, preempted) ← proposerReceivePromise now lp.proposer
      { iid := hdr.inst, ballot := hdr.rnd, valueBallot := hdr.vrnd, aid := hdr.acptid,
        value := hdr.value.1 }
    match preempted with
    | some pr => .ok ({ lp with proposer := p }, writePrepare hdr pr, .success)
    | none => tryAccept { lp with proposer := p } hdr

/-- The acknowledgement that a header carries. -/
def acceptedOfHdr (hdr : PaxosHdr) : PaxosAccepted :=
  { iid := hdr.inst, ballot := hdr.rnd, valueBallot := hdr.vrnd, aid := hdr.acptid,
    value := hdr.value.1 }

/-- `accepted_handler`. The packet that completes the quorum is sent on as chosen, with the value it
carries. -/
def acceptedHandler (conf : Conf) (lp : Worker) (hdr : PaxosHdr) : Except Fault Result :=
  if conf.leader = false then .ok (lp, hdr, .toDrop)
  else do
    let (p, ret) ← proposerReceiveAccepted lp.proposer (acceptedOfHdr hdr)
    if ret = 2 then
      .ok ({ lp with proposer := p }, { hdr with msgtype := MsgType.chosen }, .success)
    else .ok ({ lp with proposer := p }, hdr, .toDrop)

/-- `new_command_handler`. -/
def newCommandHandler (now : Int) (lp : Worker) (hdr : PaxosHdr) : Except Fault Result :=
  if lp.hasHoles then .ok (lp, hdr, .dropOriginalPacket)
  else do
    let (lp, hdr, ret) ←
      tryAccept { lp with proposer := proposerPropose lp.proposer hdr.value.1 } hdr
    if ret = .success then .ok (lp, hdr, ret) else proposerPrepareAllocated now lp hdr

/-- `proposer_set_instance_handler`. -/
def proposerSetInstanceHandler (now : Int) (lp : Worker) (hdr : PaxosHdr) : Except Fault Result :=
  proposerPrepareAllocated now
    { lp with proposer := proposerSetInstanceId lp.proposer hdr.inst } hdr

/-! ## Learner handlers -/

/-- `learner_chosen_handler`. At most one instance is delivered; `freed` is what the delivery finds
in the memory it has freed. -/
def learnerChosenHandler (conf : Conf) (now : Int) (freed : UInt32) (lp : Worker) (hdr : PaxosHdr) :
    Except Fault Result :=
  let (l, deliver) := learnerDeliverNext (learnerReceiveChosen lp.learner (acceptedOfHdr hdr)) freed
  match deliver with
  | none => .ok ({ lp with learner := l }, hdr, .dropOriginalPacket)
  | some d =>
    let lp := { lp with learner := l, delivered := d :: lp.delivered }
    let hdr := { hdr with
      msgtype := MsgType.chosen
      inst := d.iid
      rnd := d.ballot
      value := memcpy hdr.value d.value }
    if conf.leader = true ∧ conf.preexecWindow ≠ 0 then proposerPrepareAllocated now lp hdr
    else .ok (lp, hdr, .success)

/-- `learner_checkpoint_handler`. -/
def learnerCheckpointHandler (lp : Worker) (hdr : PaxosHdr) : Result :=
  ({ lp with
      proposer := proposerReceiveAcceptorState lp.proposer { aid := 0, trimIid := hdr.inst }
      acceptor := lp.acceptor.step (.receiveTrim { iid := hdr.inst }) }, hdr, .dropOriginalPacket)

/-! ## Dispatch -/

/-- The cases of the `switch` of `replica_handler`. -/
inductive Handler where
  | reset
  | newCommand
  | prepare
  | accept
  | promise
  | accepted
  | chosen
  | learnerCheckpoint
  | learnerPrepare
  | setInstance

/-- The label of a case. -/
def Handler.label : Handler → UInt8
  | .reset => MsgType.reset
  | .newCommand => MsgType.newCommand
  | .prepare => MsgType.prepare
  | .accept => MsgType.accept
  | .promise => MsgType.promise
  | .accepted => MsgType.accepted
  | .chosen => MsgType.chosen
  | .learnerCheckpoint => MsgType.learnerCheckpoint
  | .learnerPrepare => MsgType.learnerPrepare
  | .setInstance => MsgType.setInstance

/-- The case that a type selects, if there is one. -/
def dispatch (msgtype : UInt8) : Option Handler :=
  [.reset, .newCommand, .prepare, .accept, .promise, .accepted, .chosen, .learnerCheckpoint,
    .learnerPrepare, .setInstance].find? fun h => h.label = msgtype

theorem label_of_dispatch {msgtype : UInt8} {h : Handler} (hd : dispatch msgtype = some h) :
    h.label = msgtype := by
  unfold dispatch at hd
  simpa using List.find?_some hd

/-- The reply to a rejected accept has the type of a chosen packet. -/
example : dispatch MsgType.preempted = some .chosen := rfl

/-- The packet of a handler that succeeded is addressed to `dst`. -/
def forward (node : Nat) (pkt : Packet) (dst : Addr) : Result → Worker × Packet × PaxosReturnCode
  | (lp, hdr, .success) => (lp, { src := .node node, dst := dst, hdr := hdr }, .success)
  | (lp, hdr, ret) => (lp, { pkt with hdr := hdr }, ret)

/-- `replica_handler`, for a packet to the Paxos port. A chosen packet is answered to the client
only if that is configured; the test for a leader that prepares ahead looks at the lowest bit of the
window only. -/
def replicaHandler (conf : Conf) (node : Nat) (now : Int) (freed : UInt32) (lp : Worker)
    (pkt : Packet) : Except Fault (Worker × Packet × PaxosReturnCode) :=
  match dispatch pkt.hdr.msgtype with
  | none => .ok (lp, pkt, .noHandler)
  | some .reset => .ok (lp, pkt, .toDrop)
  | some .newCommand => do
    .ok (forward node pkt .acceptorAddr (← newCommandHandler now lp pkt.hdr))
  | some .prepare => .ok (forward node pkt pkt.src (prepareHandler node lp pkt.hdr))
  | some .accept => .ok (forward node pkt pkt.src (acceptHandler node lp pkt.hdr))
  | some .promise => do
    .ok (forward node pkt .acceptorAddr (← promiseHandler conf now lp pkt.hdr))
  | some .accepted => do
    .ok (forward node pkt .learnerAddr (← acceptedHandler conf lp pkt.hdr))
  | some .chosen => do
    let (lp, hdr, ret) ← learnerChosenHandler conf now freed lp pkt.hdr
    if conf.leader = true ∧ conf.preexecWindow &&& 1 ≠ 0 then
      .ok (lp, { src := .node node, dst := .acceptorAddr, hdr := hdr }, ret)
    else if conf.respondToClient = false then .ok (lp, { pkt with hdr := hdr }, .dropOriginalPacket)
    else .ok (lp, { src := .node node, dst := .client, hdr := hdr }, ret)
  | some .learnerCheckpoint => .ok (forward node pkt pkt.src (learnerCheckpointHandler lp pkt.hdr))
  | some .learnerPrepare => do
    .ok (forward node pkt .acceptorAddr (← proposerPrepareInstAllocated now lp pkt.hdr))
  | some .setInstance => do
    .ok (forward node pkt .acceptorAddr (← proposerSetInstanceHandler now lp pkt.hdr))

/-! ## Calls -/

/-- What happens at a worker: it handles a packet, or a timer fires. New packets have whatever their
memory held, `junk`, in the value field until it is written; `freed` is what a delivery finds in the
memory it has freed. `preexecute` and the calls for
timeouts are one turn of the loops of `proposer_preexecute`, `check_prepare_timeouts` and
`check_accept_timeouts`. -/
inductive Call where
  | receive (now : Int) (freed : UInt32) (pkt : Packet)
  | preexecute (now : Int) (junk : HdrValue)
  | checkPrepareTimeouts (iter : TimeoutIterator) (junk : HdrValue)
  | checkAcceptTimeouts (iter : TimeoutIterator) (junk : HdrValue)
  | checkHoles (junk : HdrValue)
  | sendCheckpoint (junk : HdrValue)

/-- The packets of `learner_check_holes` for the holes from `first` on: `send_prepare` asks the
leader to prepare them, `fill_holes` asks the acceptors to accept the default value at ballot 0. -/
def holePackets (conf : Conf) (node : Nat) (first : UInt32) (size : Nat) (junk : HdrValue) :
    List Packet :=
  (List.range size).map fun i =>
    let hdr msgtype := setPaxosHdr junk msgtype (first + UInt32.ofNat i) 0 (UInt16.ofNat node)
      conf.defaultValue
    if conf.runPrepare then
      { src := .node node, dst := .paxosLeader, hdr := hdr MsgType.learnerPrepare }
    else { src := .node node, dst := .acceptorAddr, hdr := hdr MsgType.accept }

/-- `MAX_PREPARE_SIZE`. -/
def maxPrepareSize : Nat := 8

/-- A request of the proposer to the acceptors, in a new packet. -/
def sendToAcceptor (node : Nat) (junk : HdrValue) (msgtype : UInt8) (inst : UInt32) (rnd : UInt16)
    (value : PaxosValue) : Packet where
  src := .node node
  dst := .acceptorAddr
  hdr := setPaxosHdr junk msgtype inst rnd (UInt16.ofNat node) value

/-- The packets that the runtime sends after `replica_handler`: it frees the packet unless the
handler succeeded. -/
def sentOn (r : Worker × Packet × PaxosReturnCode) : List Packet :=
  if r.2.2 = .success then [r.2.1] else []

/-- One call: the worker after it and the packets it sends. -/
def Worker.call (config : PaxosConfig) (conf : Conf) (node : Nat) (lp : Worker) :
    Call → Except Fault (Worker × List Packet)
  | .receive now freed pkt => do
    let r ← replicaHandler conf node now freed lp pkt
    .ok (r.1, sentOn r)
  | .preexecute now junk =>
    if lp.proposer.prepareInstances.entries.length < conf.preexecWindow.toNat then do
      let (p, pr) ← proposerPrepare now lp.proposer
      .ok ({ lp with proposer := p },
        [sendToAcceptor node junk MsgType.prepare pr.iid pr.ballot []])
    else .ok (lp, [])
  | .checkPrepareTimeouts iter junk =>
    let (p, _, out) := timeoutIteratorPrepare config lp.proposer iter
    .ok ({ lp with proposer := p }, out.toList.map fun pr =>
      sendToAcceptor node junk MsgType.prepare pr.iid pr.ballot pr.value)
  | .checkAcceptTimeouts iter junk => do
    let (p, _, out) ← timeoutIteratorAccept config lp.proposer iter
    .ok ({ lp with proposer := p }, out.toList.map fun accept =>
      sendToAcceptor node junk MsgType.accept accept.iid accept.ballot accept.value)
  | .checkHoles junk =>
    match learnerHasHoles lp.learner with
    | some (first, last) =>
      .ok ({ lp with hasHoles := true },
        holePackets conf node first (min (last - first).toNat maxPrepareSize) junk)
    | none => .ok ({ lp with hasHoles := false }, [])
  | .sendCheckpoint junk =>
    let hdr := setPaxosHdr junk MsgType.learnerCheckpoint (lp.learner.currentIid - 1) 0
      (UInt16.ofNat node) []
    .ok (lp, [{ src := .node node, dst := .paxosLeader, hdr := hdr }])

end LibPaxos.P4xos
