import LibPaxos.Lib.Table
import Mathlib.Tactic.Common

/-!
# Paxos values, messages and limits

The data of `paxos_types.h` and `paxos.h`. Instance ids are 32 bits wide everywhere; a ballot is
32 bits wide inside a proposer or a learner (`iid_t`, `ballot_t`) and 16 bits wide in every
message, so writing a ballot into a message truncates it.

A `paxos_value` is its bytes: the length field is the length of the list, and the value of
length zero is the empty list.
-/

namespace LibPaxos

/-- The bytes of a `paxos_value`. -/
abbrev PaxosValue := List UInt8

/-! ## Messages

The five protocol messages have one layout. Fields that a C initialiser leaves out are zero. -/

structure PaxosPrepare where
  iid : UInt32
  ballot : UInt16
  valueBallot : UInt16 := 0
  aid : UInt16 := 0
  value : PaxosValue := []
deriving DecidableEq

structure PaxosPromise where
  iid : UInt32
  ballot : UInt16
  valueBallot : UInt16 := 0
  aid : UInt16 := 0
  value : PaxosValue := []
deriving DecidableEq

structure PaxosAccept where
  iid : UInt32
  ballot : UInt16
  valueBallot : UInt16 := 0
  aid : UInt16 := 0
  value : PaxosValue := []
deriving DecidableEq

structure PaxosAccepted where
  iid : UInt32
  ballot : UInt16
  valueBallot : UInt16 := 0
  aid : UInt16 := 0
  value : PaxosValue := []
deriving DecidableEq

structure PaxosPreempted where
  iid : UInt32
  ballot : UInt16
  valueBallot : UInt16 := 0
  aid : UInt16 := 0
  value : PaxosValue := []
deriving DecidableEq

structure PaxosTrim where
  iid : UInt32
deriving DecidableEq

structure PaxosAcceptorState where
  aid : UInt32
  trimIid : UInt32
deriving DecidableEq

/-- `paxos_message`, as far as the modelled handlers exchange it: the tag and the member of the
union that the tag selects. -/
inductive PaxosMessage where
  | prepare (m : PaxosPrepare)
  | promise (m : PaxosPromise)
  | accept (m : PaxosAccept)
  | accepted (m : PaxosAccepted)
  | preempted (m : PaxosPreempted)
deriving DecidableEq

/-- The message asks an acceptor for something; the others are replies. -/
def PaxosMessage.isRequest : PaxosMessage → Bool
  | .prepare _ | .accept _ => true
  | .promise _ | .accepted _ | .preempted _ => false

/-- The instance and ballot that a request uses. -/
def usedBallot : PaxosMessage → Option (UInt32 × UInt16)
  | .prepare m => some (m.iid, m.ballot)
  | .accept m => some (m.iid, m.ballot)
  | _ => none

/-! ## Limits and configuration -/

/-- `MAX_N_OF_PROPOSERS`: proposer ids are `0, …, 9`, and ballots of one proposer are congruent
to its id modulo this number. -/
def maxNOfProposers : UInt32 := 10

/-- `paxos_quorum`. -/
def paxosQuorum (acceptors : Nat) : Nat :=
  acceptors / 2 + 1

theorem paxosQuorum_pos (n : Nat) : 0 < paxosQuorum n := by
  unfold paxosQuorum; omega

/-- Two quorums of `n` acceptors overlap. -/
theorem lt_two_mul_paxosQuorum (n : Nat) : n < 2 * paxosQuorum n := by
  unfold paxosQuorum; omega

/-- The fields of `struct paxos_config` that the modelled code reads. -/
structure PaxosConfig where
  learnerCatchUp : Bool := true
  proposerTimeout : Int := 1

/-- A `khash` map with 32-bit keys: at most one entry a key, visited in bucket order. Where the
buckets end up is up to the hash table, so nothing may depend on the order of the entries. -/
abbrev KHash (α : Type) := AList fun _ : UInt32 => α

/-- Why a call does not return: a failed `assert`, an index outside an array, or a read through
a null pointer. -/
inductive Fault where
  | assertion
  | outOfBounds
  | nullPointer
deriving DecidableEq

end LibPaxos
