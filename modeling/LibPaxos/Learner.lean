import LibPaxos.Types

/-!
# The learner

`learner.c`. A learner keeps one slot for each acceptor in each open instance and delivers
instances in order. `struct instance`, `struct gap` and the static functions on them are in the
namespace `Learner`, since `proposer.c` has its own instances.

For instances it is missing a learner can also run both phases itself, one `Gap` for each.

A pointer to the winning acknowledgement (`final_value`) is kept as the acknowledgement itself:
once it is set, the slots of its instance do not change any more.
-/

namespace LibPaxos

/-- `struct instance` of `learner.c`. The id 0 marks an instance without messages. -/
structure Learner.Instance where
  iid : UInt32
  lastUpdateBallot : UInt32
  acks : List (Option PaxosAccepted)
  finalValue : Option PaxosAccepted
deriving DecidableEq

/-- `struct gap`. -/
structure Learner.Gap where
  iid : UInt32
  ballot : UInt32
  highestAcceptedBallot : UInt32
  highestAcceptedValue : Option PaxosValue
  acceptorBitmap : UInt8
  majority : Nat
  reachedMajority : Bool
deriving DecidableEq

/-- `struct learner`. -/
structure Learner where
  acceptors : Nat
  lateStart : Bool
  currentIid : UInt32
  highestIidClosed : UInt32
  instances : KHash Learner.Instance
  gaps : KHash Learner.Gap

namespace Learner

/-! ## Instances -/

/-- `instance_new`. -/
def instanceNew (acceptors : Nat) : Instance where
  iid := 0
  lastUpdateBallot := 0
  acks := List.replicate acceptors none
  finalValue := none

/-- The acknowledgements that agree with the ballot updated last, in slot order. -/
def Instance.agreeing (inst : Instance) : List PaxosAccepted :=
  (inst.acks.filterMap id).filter fun ack => ack.ballot.toUInt32 = inst.lastUpdateBallot

/-- `instance_has_quorum`: the result, and the instance with the winning acknowledgement, the one
in the last agreeing slot, noted. -/
def instanceHasQuorum (inst : Instance) (acceptors : Nat) : Instance × Bool :=
  if inst.finalValue ≠ none then (inst, true)
  else if paxosQuorum acceptors ≤ inst.agreeing.length then
    ({ inst with finalValue := inst.agreeing.getLast? }, true)
  else (inst, false)

/-- `instance_add_accept`. -/
def instanceAddAccept (inst : Instance) (accepted : PaxosAccepted) : Instance :=
  { inst with
    acks := inst.acks.set accepted.aid.toNat (some accepted)
    lastUpdateBallot := accepted.ballot.toUInt32 }

/-- The start of `instance_update`: the first message names the instance and sets its ballot,
whoever it is from. -/
def instanceOpen (inst : Instance) (accepted : PaxosAccepted) : Instance :=
  if inst.iid = 0 then
    { inst with iid := accepted.iid, lastUpdateBallot := accepted.ballot.toUInt32 }
  else inst

/-- `instance_update`. -/
def instanceUpdate (inst : Instance) (accepted : PaxosAccepted) (acceptors : Nat) : Instance :=
  match instanceHasQuorum (instanceOpen inst accepted) acceptors with
  | (inst, true) => inst
  | (inst, false) =>
    if acceptors ≤ accepted.aid.toNat then inst
    else
      match inst.acks[accepted.aid.toNat]?.join with
      | none => instanceAddAccept inst accepted
      | some prev =>
        if prev.ballot ≥ accepted.ballot then inst else instanceAddAccept inst accepted

/-! ## Gaps -/

/-- `gap_new`. -/
def gapNew (iid : UInt32) (acceptors : Nat) : Gap where
  iid := iid
  ballot := 3
  highestAcceptedBallot := 0
  highestAcceptedValue := none
  acceptorBitmap := 0
  majority := paxosQuorum acceptors
  reachedMajority := false

/-- `gap_reset`. Whether a majority was reached before is not reset. -/
def gapReset (gap : Gap) : Gap :=
  { gap with
    ballot := gap.ballot + 11
    highestAcceptedValue := none
    highestAcceptedBallot := 0
    acceptorBitmap := 0 }

/-- The bit of an acceptor: `1 << acceptor_id`, stored in eight bits. An id of 8 or more has no bit
(C leaves the shift undefined from 31 on). -/
def bitMask (aid : Nat) : UInt8 :=
  UInt8.ofNat (2 ^ aid)

/-- `is_duplicated`: the bitmap after the call, and whether the bit was set before. -/
def isDuplicated (bitmap : UInt8) (aid : Nat) : UInt8 × Bool :=
  if bitmap &&& bitMask aid ≠ 0 then (bitmap, true) else (bitmap ||| bitMask aid, false)

/-- `update_accepted_value`: a larger ballot is noted in any case, its value only if it has one. -/
def updateAcceptedValue (gap : Gap) (promise : PaxosPromise) : Gap :=
  if gap.highestAcceptedBallot < promise.valueBallot.toUInt32 then
    { gap with
      highestAcceptedBallot := promise.valueBallot.toUInt32
      highestAcceptedValue :=
        if promise.value.length ≠ 0 then some promise.value else gap.highestAcceptedValue }
  else gap

/-- `__builtin_popcount` of the bitmap. -/
def popcount (bitmap : UInt8) : Nat :=
  ((List.range 8).filter fun i => bitmap.toNat.testBit i).length

/-- `is_majority_promised`. -/
def isMajorityPromised (gap : Gap) : Gap × Bool :=
  if gap.majority ≤ popcount gap.acceptorBitmap then ({ gap with reachedMajority := true }, true)
  else (gap, false)

/-- `update_gap`. -/
def updateGap (gap : Gap) (promise : PaxosPromise) : Gap × Bool :=
  match isDuplicated gap.acceptorBitmap promise.aid.toNat with
  | (_, true) => (gap, false)
  | (bitmap, false) =>
    isMajorityPromised (updateAcceptedValue { gap with acceptorBitmap := bitmap } promise)

end Learner

open Learner

/-! ## The interface of `learner.h`

The functions in the order of the source. Deliveries and requests are results; a learner has no
assertions that could fail. -/

/-- `learner_new`. -/
def learnerNew (config : PaxosConfig) (acceptors : Nat) : Learner where
  acceptors := acceptors
  lateStart := !config.learnerCatchUp
  currentIid := 1
  highestIidClosed := 1
  instances := ∅
  gaps := ∅

/-- `learner_set_instance_id`. -/
def learnerSetInstanceId (l : Learner) (iid : UInt32) : Learner :=
  { l with currentIid := iid + 1, highestIidClosed := iid }

/-- The end of `learner_receive_accepted` and `learner_receive_chosen`: the updated instance is
stored and counts for the highest closed id if it has a quorum. -/
def learnerUpdate (l : Learner) (iid : UInt32) (inst : Instance) : Learner :=
  match instanceHasQuorum inst l.acceptors with
  | (inst, closed) =>
    { l with
      instances := l.instances.insert iid inst
      highestIidClosed :=
        if closed = true ∧ inst.iid > l.highestIidClosed then inst.iid else l.highestIidClosed }

/-- `learner_receive_accepted`. -/
def learnerReceiveAccepted (l : Learner) (ack : PaxosAccepted) : Learner :=
  let l := if l.lateStart then { l with lateStart := false, currentIid := ack.iid } else l
  if ack.iid < l.currentIid then l
  else
    let inst := (l.instances.lookup ack.iid).getD (instanceNew l.acceptors)
    learnerUpdate l ack.iid (instanceUpdate inst ack l.acceptors)

/-- `learner_receive_chosen`: the instance is created anew and filled as if acceptors 1 and 2 had
acknowledged. -/
def learnerReceiveChosen (l : Learner) (ack : PaxosAccepted) : Learner :=
  if ack.iid < l.currentIid then l
  else
    let inst := instanceUpdate (instanceNew l.acceptors) { ack with aid := 1 } l.acceptors
    let inst := instanceUpdate inst { ack with aid := 2 } l.acceptors
    learnerUpdate l ack.iid inst

/-- `learner_receive_preempted`. -/
def learnerReceivePreempted (l : Learner) (ack : PaxosPreempted) : Learner × Option PaxosPrepare :=
  match l.gaps.lookup ack.iid with
  | none => (l, none)
  | some gap =>
    let gap := gapReset { gap with ballot := ack.ballot.toUInt32 }
    ({ l with gaps := l.gaps.replace ack.iid gap },
      some { iid := gap.iid, ballot := gap.ballot.toUInt16 })

/-- `learner_deliver_next`. The gap to delete is looked up under `inst->iid`, which is read after
the instance was freed; `freed` is what is found there. It need not be the id the instance had, so
the gap of the instance delivered may stay, and another one may go. -/
def learnerDeliverNext (l : Learner) (freed : UInt32) : Learner × Option PaxosAccepted :=
  match l.instances.lookup l.currentIid with
  | none => (l, none)
  | some inst =>
    match instanceHasQuorum inst l.acceptors with
    | (inst, false) => ({ l with instances := l.instances.replace l.currentIid inst }, none)
    | (inst, true) =>
      ({ l with
          instances := l.instances.erase inst.iid
          gaps := l.gaps.erase freed
          currentIid := l.currentIid + 1 }, inst.finalValue)

/-- `learner_has_holes`: the bounds that are filled in. -/
def learnerHasHoles (l : Learner) : Option (UInt32 × UInt32) :=
  if l.highestIidClosed > l.currentIid then some (l.currentIid, l.highestIidClosed) else none

/-- `learner_prepare`, with `get_gap_or_create`: a new gap, or the next ballot of an old one. -/
def learnerPrepare (l : Learner) (iid : UInt32) : Learner × PaxosPrepare :=
  match l.gaps.lookup iid with
  | none =>
    let gap := gapNew iid l.acceptors
    ({ l with gaps := l.gaps.insert iid gap }, { iid := gap.iid, ballot := gap.ballot.toUInt16 })
  | some gap =>
    let gap := gapReset gap
    ({ l with gaps := l.gaps.replace iid gap }, { iid := gap.iid, ballot := gap.ballot.toUInt16 })

/-- `learner_receive_promise`. The request carries the value with the largest ballot reported, or
the empty value if none was. The fields of the request that the function does not set are zero. -/
def learnerReceivePromise (l : Learner) (promise : PaxosPromise) : Learner × Option PaxosAccept :=
  match l.gaps.lookup promise.iid with
  | none => (l, none)
  | some gap =>
    if gap.reachedMajority then (l, none)
    else
      match updateGap gap promise with
      | (gap, false) => ({ l with gaps := l.gaps.replace promise.iid gap }, none)
      | (gap, true) =>
        ({ l with gaps := l.gaps.replace promise.iid gap },
          some { iid := gap.iid, ballot := gap.ballot.toUInt16,
                 value := gap.highestAcceptedValue.getD [] })

end LibPaxos
