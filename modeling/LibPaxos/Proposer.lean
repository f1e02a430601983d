import LibPaxos.Quorum

/-!
# The proposer

`proposer.c`. A proposer holds client values in a queue and pending instances in two tables, one
for each phase. `struct instance` and the static functions on it are in the namespace `Proposer`,
since `learner.c` has its own.

The time of day is an argument `now` of the functions that read it, in microseconds. The queue of
`carray.c` is a list. A client value may be attached to an instance as its own value (`value`); a
value learned from a promise is its promised value (`promisedValue`) and takes precedence when the
accept request is built.
-/

namespace LibPaxos

/-- `struct instance` of `proposer.c`. A null pointer to a value is `none`. -/
structure Proposer.Instance where
  iid : UInt32
  ballot : UInt32
  value : Option PaxosValue
  promisedValue : Option PaxosValue
  valueBallot : UInt32
  quorum : Quorum
  createdAt : Int
deriving DecidableEq

/-- `struct proposer`. The C `int` id is only ever added to an unsigned ballot, so it is kept as
its 32 bits. -/
structure Proposer where
  id : UInt32
  acceptors : Nat
  values : List PaxosValue
  maxTrimIid : UInt32
  nextPrepareIid : UInt32
  prepareInstances : KHash Proposer.Instance
  acceptInstances : KHash Proposer.Instance

/-- `struct timeout_iterator`: how far the two tables have been visited, and the time at which
the visit started. -/
structure TimeoutIterator where
  pi : Nat
  ai : Nat
  timeout : Int
deriving DecidableEq

namespace Proposer

/-! ## Instances -/

/-- `instance_new`. -/
def instanceNew (now : Int) (iid ballot : UInt32) (acceptors : Nat) : Except Fault Instance :=
  let inst : Instance :=
    { iid := iid, ballot := ballot, value := none, promisedValue := none, valueBallot := 0,
      quorum := quorumInit acceptors, createdAt := now }
  if 0 < inst.iid then .ok inst else .error .assertion

/-- `tv_sec` of a time. -/
def tvSec (t : Int) : Int :=
  t / 1000000

/-- `instance_has_timedout`. The difference is an `int`, and in whole seconds. -/
def instanceHasTimedout (config : PaxosConfig) (inst : Instance) (now : Int) : Bool :=
  let diff := Int32.ofInt (tvSec now - tvSec inst.createdAt)
  config.proposerTimeout ≤ diff.toInt

/-- The value an accept request of the instance carries. -/
def Instance.proposed (inst : Instance) : Option PaxosValue :=
  inst.promisedValue <|> inst.value

/-- `instance_to_accept`. -/
def instanceToAccept (inst : Instance) : Except Fault PaxosAccept :=
  match inst.proposed with
  | none => .error .nullPointer
  | some v =>
    .ok { iid := inst.iid, ballot := inst.ballot.toUInt16, valueBallot := inst.ballot.toUInt16,
          value := v }

/-- `kh_put_instance` followed by `assert(rv > 0)`: the key must be new. -/
def khPutInstance (h : KHash Instance) (iid : UInt32) (inst : Instance) :
    Except Fault (KHash Instance) :=
  if iid ∈ h then .error .assertion else .ok (h.insert iid inst)

end Proposer

open Proposer

/-! ## Small steps shared by the handlers -/

/-- `proposer_next_ballot`. -/
def proposerNextBallot (p : Proposer) (b : UInt32) : UInt32 :=
  if b > 0 then maxNOfProposers + b else maxNOfProposers + p.id

/-- The prepare request for an instance. -/
def prepareOf (inst : Instance) : PaxosPrepare :=
  { iid := inst.iid, ballot := inst.ballot.toUInt16 }

/-- `proposer_preempt`: what becomes of the instance. The request sent is its `prepareOf`. -/
def proposerPreempt (now : Int) (p : Proposer) (inst : Instance) : Instance :=
  { inst with
    ballot := proposerNextBallot p inst.ballot
    valueBallot := 0
    promisedValue := none
    quorum := quorumClear inst.quorum
    createdAt := now }

/-- `proposer_move_instance`, from the table `f` to the table `t`. -/
def proposerMoveInstance (f t : KHash Instance) (inst : Instance) :
    Except Fault (KHash Instance × KHash Instance) :=
  if inst.iid ∈ f then do
    let t ← khPutInstance t inst.iid { inst with quorum := quorumClear inst.quorum }
    .ok (f.erase inst.iid, t)
  else .error .assertion

/-- `proposer_trim_instances`: the values taken from the dropped instances go back to the queue,
in the order in which the sweep meets them. -/
def proposerTrimInstances (values : List PaxosValue) (h : KHash Instance) (iid : UInt32) :
    List PaxosValue × KHash Instance :=
  (values ++ h.entries.filterMap fun e => if e.2.iid ≤ iid then e.2.value else none,
    h.filter fun inst => ¬ inst.iid ≤ iid)

/-! ## The interface of `proposer.h`

The functions in the order of the source. An assertion that fails and an id outside the array of a
quorum end the process, which is a `Fault`; what is sent is the second component. -/

/-- `proposer_new`. -/
def proposerNew (id : UInt32) (acceptors : Nat) : Proposer where
  id := id
  acceptors := acceptors
  values := []
  maxTrimIid := 0
  nextPrepareIid := 0
  prepareInstances := ∅
  acceptInstances := ∅

/-- `proposer_propose`. -/
def proposerPropose (p : Proposer) (value : PaxosValue) : Proposer :=
  { p with values := p.values ++ [value] }

/-- `proposer_set_instance_id`. -/
def proposerSetInstanceId (p : Proposer) (iid : UInt32) : Proposer :=
  if iid > p.nextPrepareIid then
    let prep := proposerTrimInstances p.values p.prepareInstances iid
    let acc := proposerTrimInstances prep.1 p.acceptInstances iid
    { p with
      nextPrepareIid := iid
      values := acc.1
      prepareInstances := prep.2
      acceptInstances := acc.2 }
  else p

/-- `proposer_prepare`. -/
def proposerPrepare (now : Int) (p : Proposer) : Except Fault (Proposer × PaxosPrepare) := do
  let iid := p.nextPrepareIid + 1
  let bal := proposerNextBallot p 0
  let inst ← instanceNew now iid bal p.acceptors
  let h ← khPutInstance p.prepareInstances iid inst
  .ok ({ p with nextPrepareIid := iid, prepareInstances := h }, prepareOf inst)

/-- `proposer_prepare_instance`: an instance that is not waiting for promises is started from the
base ballot, one that is moves to its next ballot. -/
def proposerPrepareInstance (now : Int) (p : Proposer) (iid : UInt32) :
    Except Fault (Proposer × PaxosPrepare) :=
  match p.prepareInstances.lookup iid with
  | none => do
    let bal := proposerNextBallot p 0
    let inst ← instanceNew now iid bal p.acceptors
    let h ← khPutInstance p.prepareInstances iid inst
    .ok ({ p with prepareInstances := h }, prepareOf inst)
  | some inst =>
    let inst := proposerPreempt now p inst
    .ok ({ p with prepareInstances := p.prepareInstances.replace iid inst }, prepareOf inst)

/-- The value of a promise replaces the one kept so far if it was accepted at a larger ballot. A
promise with an empty value counts as one without a value. -/
def adoptPromise (inst : Instance) (ack : PaxosPromise) : Instance :=
  if ack.value.length > 0 ∧ ack.valueBallot.toUInt32 > inst.valueBallot then
    { inst with valueBallot := ack.valueBallot.toUInt32, promisedValue := some ack.value }
  else inst

/-- `proposer_receive_promise`. -/
def proposerReceivePromise (now : Int) (p : Proposer) (ack : PaxosPromise) :
    Except Fault (Proposer × Option PaxosPrepare) :=
  match p.prepareInstances.lookup ack.iid with
  | none => .ok (p, none)
  | some inst =>
    if ack.ballot.toUInt32 < inst.ballot then .ok (p, none)
    else if ack.ballot.toUInt32 > inst.ballot then
      let inst := proposerPreempt now p inst
      .ok ({ p with prepareInstances := p.prepareInstances.replace ack.iid inst },
        some (prepareOf inst))
    else do
      let (quorum, added) ← quorumAdd inst.quorum ack.aid.toNat
      if added = false then .ok (p, none)
      else
        let inst := adoptPromise { inst with quorum := quorum } ack
        .ok ({ p with prepareInstances := p.prepareInstances.replace ack.iid inst }, none)

/-- The loop of `proposer_accept`: the instance with the smallest id. -/
def smallestInstance (h : KHash Instance) : Option Instance :=
  h.entries.foldl (fun inst e =>
    match inst with
    | none => some e.2
    | some i => if i.iid > e.2.iid then some e.2 else some i) none

/-- The own value of the instance and the queue, after the front of the queue is attached to an
instance without a value. -/
def takeValue (values : List PaxosValue) (inst : Instance) : Option PaxosValue × List PaxosValue :=
  match inst.value with
  | some v => (some v, values)
  | none => (values.head?, values.tail)

/-- `proposer_accept`. -/
def proposerAccept (p : Proposer) : Except Fault (Proposer × Option PaxosAccept) :=
  match smallestInstance p.prepareInstances with
  | none => .ok (p, none)
  | some inst =>
    if quorumReached inst.quorum = false then .ok (p, none)
    else
      let (value, values) := takeValue p.values inst
      let inst := { inst with value := value }
      if inst.value = none ∧ inst.promisedValue = none then .ok (p, none)
      else do
        let (f, t) ← proposerMoveInstance p.prepareInstances p.acceptInstances inst
        let out ← instanceToAccept inst
        .ok ({ p with values := values, prepareInstances := f, acceptInstances := t }, some out)

/-- When an instance closes: an own value that lost against a promised one is queued again. Two
values compare equal when their bytes are the same. -/
def requeueOnClose (values : List PaxosValue) (inst : Instance) : List PaxosValue :=
  match inst.promisedValue, inst.value with
  | some w, some v => if v ≠ w then values ++ [v] else values
  | _, _ => values

/-- `proposer_receive_accepted`; the second component is the C result. -/
def proposerReceiveAccepted (p : Proposer) (ack : PaxosAccepted) : Except Fault (Proposer × Nat) :=
  match p.acceptInstances.lookup ack.iid with
  | none => .ok (p, 0)
  | some inst =>
    if ack.ballot.toUInt32 = inst.ballot then do
      let (quorum, added) ← quorumAdd inst.quorum ack.aid.toNat
      if added = false then .ok (p, 0)
      else if quorumReached quorum then
        .ok ({ p with
          values := requeueOnClose p.values inst
          acceptInstances := p.acceptInstances.erase ack.iid }, 2)
      else
        let inst := { inst with quorum := quorum }
        .ok ({ p with acceptInstances := p.acceptInstances.replace ack.iid inst }, 1)
    else .ok (p, 0)

/-- `proposer_receive_preempted`. -/
def proposerReceivePreempted (now : Int) (p : Proposer) (ack : PaxosPreempted) :
    Except Fault (Proposer × Option PaxosPrepare) :=
  match p.acceptInstances.lookup ack.iid with
  | none => .ok (p, none)
  | some inst =>
    if ack.ballot.toUInt32 > inst.ballot then do
      let (f, t) ← proposerMoveInstance p.acceptInstances p.prepareInstances inst
      let inst := proposerPreempt now p inst
      .ok ({ p with acceptInstances := f, prepareInstances := t.replace inst.iid inst },
        some (prepareOf inst))
    else .ok (p, none)

/-- `proposer_receive_acceptor_state`. -/
def proposerReceiveAcceptorState (p : Proposer) (state : PaxosAcceptorState) : Proposer :=
  if p.maxTrimIid < state.trimIid then
    proposerSetInstanceId { p with maxTrimIid := state.trimIid } state.trimIid
  else p

/-- `proposer_timeout_iterator`. -/
def proposerTimeoutIterator (now : Int) : TimeoutIterator where
  pi := 0
  ai := 0
  timeout := now

/-- `next_timedout`, on the entries from position `k` on: the position and the entry of the first
instance that is short of a quorum and has timed out, or the end of the table. -/
def nextTimedout (config : PaxosConfig) (t : Int) :
    List (Sigma fun _ : UInt32 => Instance) → Nat → Nat × Option (UInt32 × Instance)
  | [], k => (k, none)
  | e :: es, k =>
    if quorumReached e.2.quorum then nextTimedout config t es (k + 1)
    else if instanceHasTimedout config e.2 t then (k, some (e.1, e.2))
    else nextTimedout config t es (k + 1)

/-- `timeout_iterator_prepare`. -/
def timeoutIteratorPrepare (config : PaxosConfig) (p : Proposer) (iter : TimeoutIterator) :
    Proposer × TimeoutIterator × Option PaxosPrepare :=
  match nextTimedout config iter.timeout (p.prepareInstances.entries.drop iter.pi) iter.pi with
  | (k, none) => (p, { iter with pi := k }, none)
  | (k, some (key, inst)) =>
    ({ p with prepareInstances :=
        p.prepareInstances.replace key { inst with createdAt := iter.timeout } },
      { iter with pi := k }, some (prepareOf inst))

/-- `timeout_iterator_accept`. -/
def timeoutIteratorAccept (config : PaxosConfig) (p : Proposer) (iter : TimeoutIterator) :
    Except Fault (Proposer × TimeoutIterator × Option PaxosAccept) :=
  match nextTimedout config iter.timeout (p.acceptInstances.entries.drop iter.ai) iter.ai with
  | (k, none) => .ok (p, { iter with ai := k }, none)
  | (k, some (key, inst)) => do
    let out ← instanceToAccept inst
    .ok ({ p with acceptInstances :=
        p.acceptInstances.replace key { inst with createdAt := iter.timeout } },
      { iter with ai := k }, some out)

/-! ## One step -/

/-- A call of one of the proposer's functions. A call of a timeout iterator names the iterator,
which may be at any position. `rehash` is not a call: it stands for the hash tables moving their
buckets, which they may do whenever they grow. -/
inductive ProposerOp where
  | propose (value : PaxosValue)
  | prepare (now : Int)
  | prepareInstance (now : Int) (iid : UInt32)
  | receivePromise (now : Int) (ack : PaxosPromise)
  | accept
  | receiveAccepted (ack : PaxosAccepted)
  | receivePreempted (now : Int) (ack : PaxosPreempted)
  | receiveAcceptorState (state : PaxosAcceptorState)
  | setInstanceId (iid : UInt32)
  | timeoutIteratorPrepare (iter : TimeoutIterator)
  | timeoutIteratorAccept (iter : TimeoutIterator)
  | rehash (prepareInstances acceptInstances : KHash Instance)

/-- The message that a call is given. -/
def ProposerOp.message : ProposerOp → Option PaxosMessage
  | .receivePromise _ ack => some (.promise ack)
  | .receiveAccepted ack => some (.accepted ack)
  | .receivePreempted _ ack => some (.preempted ack)
  | _ => none

/-- One call: the proposer after it and the requests it hands out. -/
def proposerStep (config : PaxosConfig) (p : Proposer) :
    ProposerOp → Except Fault (Proposer × List PaxosMessage)
  | .propose v => .ok (proposerPropose p v, [])
  | .prepare now => do
    let (p, out) ← proposerPrepare now p
    .ok (p, [.prepare out])
  | .prepareInstance now iid => do
    let (p, out) ← proposerPrepareInstance now p iid
    .ok (p, [.prepare out])
  | .receivePromise now ack => do
    let (p, out) ← proposerReceivePromise now p ack
    .ok (p, out.toList.map .prepare)
  | .accept => do
    let (p, out) ← proposerAccept p
    .ok (p, out.toList.map .accept)
  | .receiveAccepted ack => do
    let (p, _) ← proposerReceiveAccepted p ack
    .ok (p, [])
  | .receivePreempted now ack => do
    let (p, out) ← proposerReceivePreempted now p ack
    .ok (p, out.toList.map .prepare)
  | .receiveAcceptorState state => .ok (proposerReceiveAcceptorState p state, [])
  | .setInstanceId iid => .ok (proposerSetInstanceId p iid, [])
  | .timeoutIteratorPrepare iter =>
    let (p, _, out) := timeoutIteratorPrepare config p iter
    .ok (p, out.toList.map .prepare)
  | .timeoutIteratorAccept iter => do
    let (p, _, out) ← timeoutIteratorAccept config p iter
    .ok (p, out.toList.map .accept)
  | .rehash prepareInstances acceptInstances =>
    if prepareInstances.entries.Perm p.prepareInstances.entries ∧
        acceptInstances.entries.Perm p.acceptInstances.entries then
      .ok ({ p with prepareInstances := prepareInstances, acceptInstances := acceptInstances }, [])
    else .ok (p, [])

end LibPaxos
