import LibPaxos.Votes
import LibPaxos.EvPaxos.Consensus

/-!
# Agreement of proposers and acceptors

The deployment of `evproposer.c` and `evacceptor.c`: proposers with ids from 0 to 9 that prepare
instances in order, and learners that listen but do not fill gaps themselves. Ballots of one
proposer are equal modulo ten, so no ballot has two owners.

* **`proposers_agree`** — once a non-empty value is chosen, every accept request at that ballot or
  above carries it.
-/

namespace LibPaxos.Cluster

open Voting Proposer

/-- A quorum of acceptors accepted `v` for the instance `i` at ballot `b`. -/
abbrev Chosen (su : Setup) (s : Cluster) (i : UInt32) (b : UInt16) (v : PaxosValue) : Prop :=
  ChosenBy su.acceptors s.acceptors i b v

/-- The calls that the event handlers of proposers, acceptors and learners make. -/
def EvHandlers (_ : Cluster) : Event → Prop
  | .acceptor _ _ _ => True
  | .proposer p _ op => p.toNat < 10 ∧ op.InOrder
  | .learner _ _ op => op.onGaps = false

/-- What such a run keeps. -/
structure CoreInv (su : Setup) (s : Cluster) : Prop where
  inv : s.Inv su (· ≠ []) fun _ => True
  ordered : ∀ p, (s.proposers p).Ordered
  unused : ∀ p : UInt32, 10 ≤ p.toNat → s.proposers p = .fresh p su.acceptors
  silent : ∀ l, (s.learners l).emitted = []

section Core

variable {su : Setup} {s s' : Cluster} {e : Event}

theorem coreInv_init (su : Setup) : (init su).CoreInv su where
  inv := inv_init su _ _
  ordered p := LoggedProposer.ordered_fresh p su.acceptors
  unused _ _ := rfl
  silent := init_emitted su

/-- Ballots keep the id of their proposer modulo ten. -/
theorem CoreInv.owns_residue (hi : s.CoreInv su) {i : UInt32} {b : Nat} {node : Node}
    (h : s.Owns i b node) : ∃ p : UInt32, node = .proposer p ∧ p.toNat < 10 ∧ b % 10 = p.toNat := by
  cases node with
  | acceptor a => exact h.elim
  | proposer p =>
    have hp := hi.inv.nodes.proposers p
    -- proposers with other ids have done nothing
    have hlt : p.toNat < 10 := by
      by_contra hle
      have hfresh := hi.unused p (Nat.not_lt.mp hle)
      rcases h with ⟨a, ha, -⟩ | ⟨inst, hk, -⟩
      · rw [hfresh] at ha
        cases ha
      · rw [hfresh] at hk
        cases hk
    refine ⟨p, rfl, hlt, ?_⟩
    have hmod : p.toNat % 10 = p.toNat := Nat.mod_eq_of_lt hlt
    rcases h with ⟨a, ha, -, rfl⟩ | ⟨inst, hk, rfl⟩
    · rw [hp.ballots.residue a ha, hp.id_eq, hmod]
    · rw [(hp.ballots.prepare _ _ hk).residue, hp.id_eq, hmod]
  | learner l =>
    -- learners have sent nothing, so they have no gaps
    have hsilent := hi.silent l
    rcases h with ⟨a, ha, -⟩ | ⟨gap, hk, -⟩
    · rw [hsilent] at ha
      cases ha
    · have hg := (hi.inv.nodes.learners l).gaps
      rw [hsilent] at hg
      exact absurd ((hg.gaps_eq_none i).symm.trans hk) (by simp)

theorem CoreInv.separate (hi : s.CoreInv su) : s.Separate := by
  intro i b node node' h h'
  obtain ⟨p, rfl, -, hb⟩ := hi.owns_residue h
  obtain ⟨p', rfl, -, hb'⟩ := hi.owns_residue h'
  rw [UInt32.toNat_inj.mp (hb.symm.trans hb')]

theorem CoreInv.step (hi : s.CoreInv su) (hok : s.EvHandlers e) (h : step su s e = some s') :
    s'.CoreInv su := by
  -- instances are created in order, and no learner opens a gap
  have hbounds : s.InBounds e := by
    obtain ⟨-, ⟨a, src, op, rfl, -⟩ | ⟨p, src, op, r, rfl, hr, -⟩ | ⟨l, src, op, rfl, -⟩⟩ :=
      step_cases h
    · trivial
    · exact (hi.ordered p).freshCreation hok.2 hr
    · intro iid _ _ a ha
      rw [hi.silent l] at ha
      cases ha
  -- only non-empty values are visible, and a proposer overlooks none of those
  have hcare : s.Careful su (· ≠ []) (fun _ => True) e := by
    cases e with
    | acceptor => trivial
    | proposer p src op =>
      cases op with
      | accept => exact fun _ _ _ hempty => absurd rfl hempty
      | _ => trivial
    | learner l src op =>
      cases op with
      | receivePromise ack => cases hok
      | _ => trivial
  refine ⟨hi.inv.step hi.separate hbounds hcare h, fun p => ?_, fun p hp => ?_, fun k => ?_⟩
  · rcases proposers_step h p with heq | ⟨src, op, rfl, hr⟩
    · rw [heq]
      exact hi.ordered p
    · exact (hi.ordered p).step (hi.inv.nodes.proposers p).wellFormed hok.2 hr
  · rcases proposers_step h p with heq | ⟨src, op, rfl, hr⟩
    · rw [heq]
      exact hi.unused p hp
    · exact absurd hok.1 (Nat.not_lt.mpr hp)
  · obtain ⟨-, ⟨a, src, op, rfl, rfl⟩ | ⟨q, src, op, r, rfl, hr, rfl⟩ | ⟨l, src, op, rfl, rfl⟩⟩ :=
      step_cases h
    · exact hi.silent k
    · exact hi.silent k
    · rw [setLearner_learners]
      split
      · cases op with
        | receiveAccepted | deliverNext => exact hi.silent l
        | prepare | receivePromise | receivePreempted => cases hok
      · exact hi.silent k

theorem Reaches.coreInv (hr : Reaches su EvHandlers s) : s.CoreInv su :=
  hr.invariant (coreInv_init su) fun _ hi hok hs => hi.step hok hs

end Core

/-! ## Agreement -/

section Agreement

variable {su : Setup} {s : Cluster}

theorem quorum_inter (su : Setup) (Q Q' : Finset Nat) (h : isQuorum su Q) (h' : isQuorum su Q') :
    ∃ a, a ∈ Q ∧ a ∈ Q' :=
  IsMajority.inter (lt_two_mul_paxosQuorum su.acceptors) Q Q' h h'

/-- What is chosen at a positive ballot is chosen in the world of the instance. -/
theorem Chosen.world {i : UInt32} {b : UInt16} {v : PaxosValue} (h : s.Chosen su i b v)
    (hb : 0 < b.toNat) : (s.world i).Chosen (isQuorum su) b.toNat v := by
  obtain ⟨Q, hQ, hcard, hv⟩ := h
  exact ⟨Q, ⟨hQ, hcard⟩, fun a ha => ⟨hb, b, rfl, hv a ha⟩⟩

/-- Proposers do not ask at ballot 0. -/
theorem CoreInv.accept_pos (hi : s.CoreInv su) {node : Node} {a : PaxosAccept}
    (ha : .accept a ∈ s.sent node) : 0 < a.ballot.toNat := by
  rcases hi.inv.nodes.accept_sender ha with ⟨p, rfl, hm⟩ | ⟨l, rfl, hm⟩
  · exact (hi.inv.nodes.proposers p).ballots.positive a hm
  · rw [hi.silent l] at hm
    cases hm

theorem CoreInv.chosen_pos (hi : s.CoreInv su) {i : UInt32} {b : UInt16} {v : PaxosValue}
    (h : s.Chosen su i b v) : 0 < b.toNat := by
  obtain ⟨a, -, hv⟩ := h.exists_voted
  obtain ⟨node, m, hm, -, rfl, -⟩ := hi.inv.nodes.requested a i b v hv
  exact hi.accept_pos hm

/-- Two non-empty values chosen for an instance are equal. -/
theorem CoreInv.chosen_eq (hi : s.CoreInv su) {i : UInt32} {b b' : UInt16} {v v' : PaxosValue}
    (h : s.Chosen su i b v) (hv : v ≠ []) (h' : s.Chosen su i b' v') (hv' : v' ≠ []) : v = v' :=
  (hi.inv.safe hi.separate i).chosen_unique (quorum_inter su) (fun _ => .inl trivial)
    (h.world (hi.chosen_pos h)) hv trivial (h'.world (hi.chosen_pos h')) hv' trivial

/-- **Agreement.** In every state that proposers, acceptors and listening learners reach: if a
quorum of acceptors accepted the non-empty value `v` at ballot `b`, every accept request for the
instance at a ballot from `b` on carries `v`; and no other non-empty value is chosen. -/
theorem proposers_agree (su : Setup) (s : Cluster) (hr : Reaches su EvHandlers s) (i : UInt32)
    (b : UInt16) (v : PaxosValue) (hv : v ≠ []) (hc : s.Chosen su i b v) :
    (∀ node a, .accept a ∈ s.sent node → a.iid = i → b ≤ a.ballot → a.value = v) ∧
      ∀ b' v', v' ≠ [] → s.Chosen su i b' v' → v' = v := by
  have hi := Reaches.coreInv hr
  refine ⟨?_, fun b' v' hv' hc' => hi.chosen_eq hc' hv' hc hv⟩
  rintro node a ha rfl hle
  exact (hi.inv.safe hi.separate a.iid).request_eq_of_chosen (quorum_inter su)
    (fun _ => .inl trivial) (hc.world (hi.chosen_pos hc)) hv a.ballot.toNat node a.value trivial
    ⟨hi.accept_pos ha, a, ha, rfl, rfl, rfl⟩ (UInt16.le_iff_toNat_le.mp hle)

end Agreement

/-! ## A takeover -/

/-- A call without a message. -/
def ownCall (p : UInt32) (op : ProposerOp) : Event :=
  .proposer p (.proposer p) op

/-- Acceptors answer the prepare request of the proposer `p` for `i` at `b`, each with the vote it
reports, and the promises arrive. -/
def promiseRound (p i : UInt32) (b : UInt16) (votes : List (Nat × UInt16 × PaxosValue)) :
    List Event :=
  votes.flatMap fun (a, vb, v) =>
    [.acceptor a (.proposer p) (.receivePrepare { iid := i, ballot := b }),
      .proposer p (.acceptor a) (.receivePromise 0
        { iid := i, ballot := b, valueBallot := vb, aid := UInt16.ofNat a, value := v })]

/-- Acceptors get an accept request of the proposer `p`. -/
def acceptRound (p : UInt32) (req : PaxosAccept) (as : List Nat) : List Event :=
  as.map fun a => .acceptor a (.proposer p) (.receiveAccept req)

/-- The accept request of a proposer. -/
def acceptReq (i : UInt32) (b : UInt16) (v : PaxosValue) : PaxosAccept :=
  { iid := i, ballot := b, valueBallot := b, value := v }

/-- Proposer 0 gets its value chosen by the acceptors 0 and 1 of three; proposer 1 prepares the same
instance with the acceptors 1 and 2. -/
def takeover : List Event :=
  [ownCall 0 (.propose [1]), ownCall 0 (.prepare 0)] ++
  promiseRound 0 1 10 [(0, 0, []), (1, 0, [])] ++ [ownCall 0 .accept] ++
  acceptRound 0 (acceptReq 1 10 [1]) [0, 1] ++
  [ownCall 1 (.propose [2]), ownCall 1 (.prepare 0)] ++
  promiseRound 1 1 11 [(1, 10, [1]), (2, 0, [])] ++ [ownCall 1 .accept]

instance (s : Cluster) : DecidablePred s.EvHandlers
  | .acceptor _ _ _ => instDecidableTrue
  | .proposer p _ op => inferInstanceAs (Decidable (p.toNat < 10 ∧ op.InOrder))
  | .learner _ _ op => inferInstanceAs (Decidable (op.onGaps = false))

/-- The second proposer has to ask for the value of the first. -/
theorem proposers_agree_takeover :
    ∃ s : Cluster, s.Chosen { acceptors := 3 } 1 10 [1] ∧
      .accept (acceptReq 1 11 [1]) ∈ s.sent (.proposer 1) ∧
      ∀ node a, .accept a ∈ s.sent node → a.iid = 1 → 10 ≤ a.ballot → a.value = [1] := by
  obtain ⟨s, hr, hs⟩ := Runs.exists_reaches_of_run (step { acceptors := 3 }) EvHandlers
    (init { acceptors := 3 }) takeover
    (fun s => (∀ a ∈ ([0, 1] : List Nat), (s.acceptors a).Voted 1 10 [1]) ∧
      .accept (acceptReq 1 11 [1]) ∈ s.sent (.proposer 1)) (by decide +kernel)
  obtain ⟨hv, hacc⟩ := of_decide_eq_true hs
  have hc : s.Chosen { acceptors := 3 } 1 10 [1] := chosenBy_of_voters [0, 1] (by decide) hv
  exact ⟨s, hc, hacc, (proposers_agree _ s hr 1 10 [1] (by decide) hc).1⟩

end LibPaxos.Cluster
