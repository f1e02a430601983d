import LibPaxos.Types

/-!
# All message types

`paxos_message` of `paxos_types.h` with its nine types, as the two codecs see it: the msgpack codec
of `evpaxos` and the datagram codec of `net`. Five of the types have one layout, see `Types`.
-/

namespace LibPaxos

/-- `struct paxos_repeat`: the ids asked for, from the first to the last. -/
structure PaxosRepeat where
  fromIid : UInt32
  toIid : UInt32
deriving DecidableEq

/-- `struct paxos_client_value`. -/
structure PaxosClientValue where
  value : PaxosValue
deriving DecidableEq

/-- `enum paxos_message_type`. -/
inductive PaxosMessageType where
  | prepare
  | promise
  | accept
  | accepted
  | preempted
  | repeated
  | trim
  | acceptorState
  | clientValue
deriving DecidableEq

namespace PaxosMessageType

/-- The number of an enumerator. -/
def code : PaxosMessageType → Nat
  | .prepare => 0
  | .promise => 1
  | .accept => 2
  | .accepted => 3
  | .preempted => 4
  | .repeated => 5
  | .trim => 6
  | .acceptorState => 7
  | .clientValue => 8

/-- The case of a `switch` over the types that a number selects. -/
def ofCode (n : Nat) : Option PaxosMessageType :=
  [prepare, promise, accept, accepted, preempted, repeated, trim, acceptorState,
    clientValue].find? fun t => t.code = n

@[simp] theorem ofCode_code (t : PaxosMessageType) : ofCode t.code = some t := by
  cases t <;> rfl

theorem eq_code_of_ofCode {n : Nat} {t : PaxosMessageType} (h : ofCode n = some t) :
    n = t.code := by
  unfold ofCode at h
  have hfound := List.find?_some h
  exact (of_decide_eq_true hfound).symm

end PaxosMessageType

/-- `struct paxos_message`: the type and the member of the union that it selects. -/
inductive WireMessage where
  | prepare (m : PaxosPrepare)
  | promise (m : PaxosPromise)
  | accept (m : PaxosAccept)
  | accepted (m : PaxosAccepted)
  | preempted (m : PaxosPreempted)
  | repeated (m : PaxosRepeat)
  | trim (m : PaxosTrim)
  | state (m : PaxosAcceptorState)
  | clientValue (m : PaxosClientValue)
deriving DecidableEq

/-- The type of a message. -/
def WireMessage.type : WireMessage → PaxosMessageType
  | .prepare _ => .prepare
  | .promise _ => .promise
  | .accept _ => .accept
  | .accepted _ => .accepted
  | .preempted _ => .preempted
  | .repeated _ => .repeated
  | .trim _ => .trim
  | .state _ => .acceptorState
  | .clientValue _ => .clientValue

/-- The value that a message carries; those without the field have none. -/
def WireMessage.value : WireMessage → PaxosValue
  | .prepare m => m.value
  | .promise m => m.value
  | .accept m => m.value
  | .accepted m => m.value
  | .preempted m => m.value
  | .repeated _ | .trim _ | .state _ => []
  | .clientValue m => m.value

/-- A length as an `int`: with the top bit set it is negative. -/
theorem toInt_toInt32_ofNat {n : Nat} (hn : n < 2 ^ 32) :
    (UInt32.ofNat n).toInt32.toInt = if 2 * n < 2 ^ 32 then (n : Int) else n - (2 ^ 32 : Nat) := by
  have hbits : (UInt32.ofNat n).toBitVec.toNat = n := by
    rw [UInt32.toNat_toBitVec, UInt32.toNat_ofNat_of_lt' hn]
  rw [← Int32.toInt_toBitVec]
  show (UInt32.ofNat n).toBitVec.toInt = _
  rw [BitVec.toInt_eq_toNat_cond, hbits]

end LibPaxos
