import LibPaxos.EvPaxos.Values

/-!
# Learners deliver what was chosen

A learner counts accepted messages by their ballot. An acceptor that accepts sends its vote with the
ballot of the vote. An acceptor that is asked to repeat sends its record, and the ballot of the
record moves on with every later promise while the value stays: several acceptors may then repeat
different votes at one ballot.

* **`learners_deliver_chosen`** — if the accepted messages that learners take in carry the ballot of
  the vote, every value delivered was chosen, and all learners deliver the same.
* **`learner_delivers_unchosen`** — a learner that catches up on repeated records.
-/

namespace LibPaxos.Cluster

open Voting

/-- The message tells of a vote of some acceptor. -/
abbrev Acked (su : Setup) (s : Cluster) (ack : PaxosAccepted) : Prop :=
  AckedBy su.acceptors s.acceptors ack

/-- A client value that is submitted is not empty. -/
def NonEmptyValue : Event → Prop
  | .proposer _ _ (.propose v) => v ≠ []
  | _ => True

/-- An accepted message that a learner takes in carries the ballot of the vote. -/
def VoteBallot : Event → Prop
  | .learner _ _ (.receiveAccepted ack) => ack.valueBallot = ack.ballot
  | _ => True

/-- What such a run keeps. -/
structure DeliveryInv (su : Setup) (s : Cluster) : Prop where
  values : s.ValueInv su
  nonempty : ∀ p, ∀ v ∈ (s.proposers p).submitted, v ≠ []
  learners : ∀ l, (s.learners l).Sound (s.Acked su) su.acceptors

section Run

variable {su : Setup} {s s' : Cluster} {e : Event}

theorem deliveryInv_init (su : Setup) : (init su).DeliveryInv su where
  values := valueInv_init su
  nonempty p := List.forall_mem_nil _
  learners l := by
    unfold init
    simp only
    split
    · exact LoggedLearner.sound_fresh _ _ _
    · exact LoggedLearner.sound_startingAt _ _ _ _

theorem Acked.mono (h : step su s e = some s') {ack : PaxosAccepted} (ha : s.Acked su ack) :
    s'.Acked su ack :=
  AckedBy.mono (fun _ _ _ _ => voted_mono h) ha

/-- An accepted message with the ballot of the vote tells of a vote. -/
theorem Nodes.acked (hn : s.Nodes su) {src : Node} {ack : PaxosAccepted}
    (hm : .accepted ack ∈ s.sent src) (hb : ack.valueBallot = ack.ballot) : s.Acked su ack := by
  obtain ⟨a, op, rfl, hlt, hlog⟩ := hn.reply_sender hm rfl
  exact (hn.acceptors a).ackedBy (hn.ids a) hlt hlog hb

theorem DeliveryInv.step (hi : s.DeliveryInv su) (hok : s.EvHandlers e) (hne : NonEmptyValue e)
    (hvb : VoteBallot e) (h : Cluster.step su s e = some s') : s'.DeliveryInv su := by
  refine ⟨hi.values.step hok h, fun p v hv => ?_, fun k => ?_⟩
  · rcases proposers_step h p with heq | ⟨src, op, rfl, hr⟩
    · rw [heq] at hv
      exact hi.nonempty p v hv
    · rw [LoggedProposer.submitted_step hr] at hv
      rcases List.mem_append.mp hv with hnew | hold
      · cases op with
        | propose w =>
          obtain rfl := List.mem_singleton.mp hnew
          exact hne
        | _ => cases hnew
      · exact hi.nonempty p v hold
  · obtain ⟨hen, ⟨a, src, op, rfl, rfl⟩ | ⟨p, src, op, r, rfl, hr, rfl⟩ | ⟨l, src, op, rfl, rfl⟩⟩ :=
      step_cases h
    · exact (hi.learners k).mono fun _ => Acked.mono h
    · exact (hi.learners k).mono fun _ => Acked.mono h
    · rw [setLearner_learners]
      split
      · refine ((hi.learners l).step ?_).mono fun _ => Acked.mono h
        rintro ack rfl
        exact hi.values.core.inv.nodes.acked (hen.2 _ rfl) hvb
      · exact (hi.learners k).mono fun _ => Acked.mono h

/-- Votes for one instance at one ballot are for one value. -/
theorem CoreInv.vote_eq (hi : s.CoreInv su) {a a' : Nat} {i : UInt32} {c : UInt16}
    {v v' : PaxosValue} (hv : (s.acceptors a).Voted i c v) (hv' : (s.acceptors a').Voted i c v') :
    v = v' := by
  obtain ⟨node, m, hm, hiid, hb, hval⟩ := hi.inv.nodes.requested a i c v hv
  obtain ⟨node', m', hm', hiid', hb', hval'⟩ := hi.inv.nodes.requested a' i c v' hv'
  have hpos : 0 < c.toNat := hb ▸ hi.accept_pos hm
  exact (hi.inv.safe hi.separate i).unique node node' c.toNat v v'
    ⟨hpos, m, hm, hiid, by rw [hb], hval⟩ ⟨hpos, m', hm', hiid', by rw [hb'], hval'⟩

/-- A message that is backed by votes has a chosen value. -/
theorem CoreInv.chosen_of_backed (hi : s.CoreInv su) {d : PaxosAccepted}
    (hb : Backed (s.Acked su) su.acceptors d) : s.Chosen su d.iid d.ballot d.value :=
  chosenBy_of_backed hb fun _ _ _ _ => hi.vote_eq

end Run

/-- **Learners deliver what was chosen.** In every run of the event handlers with non-empty client
values in which learners take in accepted messages with the ballot of the vote: every value that a
learner delivers was accepted at one ballot by a quorum, and learners that deliver the same instance
deliver the same value. -/
theorem learners_deliver_chosen (su : Setup) (s : Cluster)
    (hr : Reaches su (fun s e => s.EvHandlers e ∧ NonEmptyValue e ∧ VoteBallot e) s) :
    (∀ l, ∀ d ∈ (s.learners l).delivered, ∃ b, s.Chosen su d.iid b d.value) ∧
      ∀ l l', ∀ d ∈ (s.learners l).delivered, ∀ d' ∈ (s.learners l').delivered,
        d.iid = d'.iid → d.value = d'.value := by
  have hi : s.DeliveryInv su := hr.invariant (deliveryInv_init su)
    fun _ hi ⟨hok, hne, hvb⟩ hs => hi.step hok hne hvb hs
  have hchosen : ∀ l, ∀ d ∈ (s.learners l).delivered, s.Chosen su d.iid d.ballot d.value :=
    fun l d hd => hi.values.core.chosen_of_backed ((hi.learners l).delivered d hd)
  have hvalue : ∀ l, ∀ d ∈ (s.learners l).delivered, d.value ≠ [] := by
    intro l d hd
    obtain ⟨a, -, hvote⟩ := (hchosen l d hd).exists_voted
    obtain ⟨node, m, hm, -, -, hval⟩ := hi.values.core.inv.nodes.requested _ _ _ _ hvote
    obtain ⟨p, hp⟩ := hi.values.submitted node m hm
    exact hval ▸ hi.nonempty p _ hp
  refine ⟨fun l d hd => ⟨d.ballot, hchosen l d hd⟩, fun l l' d hd d' hd' heq => ?_⟩
  exact hi.values.core.chosen_eq (hchosen l d hd) (hvalue l d hd) (heq ▸ hchosen l' d' hd')
    (hvalue l' d' hd')

instance : DecidablePred NonEmptyValue
  | .proposer _ _ op =>
    match op with
    | .propose v => inferInstanceAs (Decidable (v ≠ []))
    | .prepare _ | .prepareInstance _ _ | .receivePromise _ _ | .accept | .receiveAccepted _
    | .receivePreempted _ _ | .receiveAcceptorState _ | .setInstanceId _
    | .timeoutIteratorPrepare _ | .timeoutIteratorAccept _ | .rehash _ _ => instDecidableTrue
  | .acceptor _ _ _ | .learner _ _ _ => instDecidableTrue

instance : DecidablePred VoteBallot
  | .learner _ _ op =>
    match op with
    | .receiveAccepted ack => inferInstanceAs (Decidable (ack.valueBallot = ack.ballot))
    | .deliverNext _ | .prepare _ | .receivePromise _ | .receivePreempted _ => instDecidableTrue
  | .acceptor _ _ _ | .proposer _ _ _ => instDecidableTrue

/-- The accepted message of an acceptor whose record has the ballot `b` and the vote `(vb, v)`. -/
def ackOf (i : UInt32) (b vb : UInt16) (a : Nat) (v : PaxosValue) : PaxosAccepted :=
  { iid := i, ballot := b, valueBallot := vb, aid := UInt16.ofNat a, value := v }

/-- A learner gets accepted messages, each from the acceptor it names, and delivers what it can. -/
def ackRound (l : Nat) (acks : List PaxosAccepted) : List Event :=
  acks.map (fun ack => .learner l (.acceptor ack.aid.toNat) (.receiveAccepted ack)) ++
    [.learner l (.learner l) (.deliverNext 0)]

/-- Acceptors are asked to repeat what they have for the instance `i`. -/
def repeatRound (i : UInt32) (as : List Nat) : List Event :=
  as.map fun a => .acceptor a (.acceptor a) (.receiveRepeat i)

/-- One learner follows the acceptors, a second one catches up on repeated records. -/
theorem learners_deliver_chosen_catch_up :
    ∃ s : Cluster, (s.learners 0).delivered = [ackOf 1 10 10 1 [1]] ∧
      (s.learners 1).delivered = [ackOf 1 10 10 1 [1]] ∧
      ∃ b, s.Chosen { acceptors := 3 } 1 b [1] := by
  obtain ⟨s, hr, hs⟩ := Runs.exists_reaches_of_run (step { acceptors := 3 })
    (fun s e => s.EvHandlers e ∧ NonEmptyValue e ∧ VoteBallot e) (init { acceptors := 3 })
    ([ownCall 0 (.propose [1]), ownCall 0 (.prepare 0)] ++
      promiseRound 0 1 10 [(0, 0, []), (1, 0, [])] ++ [ownCall 0 .accept] ++
      acceptRound 0 (acceptReq 1 10 [1]) [0, 1] ++
      ackRound 0 [ackOf 1 10 10 0 [1], ackOf 1 10 10 1 [1]] ++ repeatRound 1 [0, 1] ++
      ackRound 1 [ackOf 1 10 10 1 [1], ackOf 1 10 10 0 [1]])
    (fun s => (s.learners 0).delivered = [ackOf 1 10 10 1 [1]] ∧
      (s.learners 1).delivered = [ackOf 1 10 10 1 [1]]) (by decide +kernel)
  obtain ⟨h₀, h₁⟩ := of_decide_eq_true hs
  exact ⟨s, h₀, h₁, (learners_deliver_chosen _ s hr).1 0 (ackOf 1 10 10 1 [1])
    (by rw [h₀]; exact List.mem_cons_self)⟩

/-! ## Repeated records -/

/-- Acceptor 0 accepts a value of proposer 1 and acceptor 1 one of proposer 2, both promise ballot
13 to proposer 3, and both repeat their records for a learner that has got the second instance
only. -/
def repeatedRecords : List Event :=
  [ownCall 1 (.propose [1]), ownCall 1 (.propose [9]), ownCall 1 (.prepare 0),
    ownCall 1 (.prepare 0)] ++
  promiseRound 1 1 11 [(0, 0, []), (1, 0, [])] ++ promiseRound 1 2 11 [(0, 0, []), (1, 0, [])] ++
  [ownCall 1 .accept, ownCall 1 .accept] ++ acceptRound 1 (acceptReq 1 11 [1]) [0] ++
  acceptRound 1 (acceptReq 2 11 [9]) [0, 1] ++
  [ownCall 2 (.propose [2]), ownCall 2 (.prepare 0)] ++
  promiseRound 2 1 12 [(1, 0, []), (2, 0, [])] ++ [ownCall 2 .accept] ++
  acceptRound 2 (acceptReq 1 12 [2]) [1] ++ [ownCall 3 (.prepare 0)] ++
  promiseRound 3 1 13 [(0, 11, [1]), (1, 12, [2])] ++ [ownCall 3 .accept] ++
  ackRound 0 [ackOf 2 11 11 0 [9], ackOf 2 11 11 1 [9]] ++ repeatRound 1 [0, 1] ++
  ackRound 0 [ackOf 1 13 11 0 [1], ackOf 1 13 12 1 [2]]

/-- **A learner delivers what was not chosen.** The two records show one ballot, that of the promise
to proposer 3, and the learner takes them for two votes at that ballot. -/
theorem learner_delivers_unchosen :
    ¬ ∀ s, Reaches { acceptors := 3 } (fun s e => s.EvHandlers e ∧ NonEmptyValue e) s →
      ∀ l, ∀ d ∈ (s.learners l).delivered, ∃ b, s.Chosen { acceptors := 3 } d.iid b d.value := by
  obtain ⟨s, hr, hs⟩ := Runs.exists_reaches_of_run (step { acceptors := 3 })
    (fun s e => s.EvHandlers e ∧ NonEmptyValue e) (init { acceptors := 3 }) repeatedRecords
    (fun s => (s.learners 0).delivered = [ackOf 1 13 12 1 [2]] ∧
      ∀ a ∈ ([0, 2] : List Nat), ∀ x ∈ votesFor 1 (s.acceptors a).log, x.2 ≠ [2])
    (by decide +kernel)
  obtain ⟨hdel, hvotes⟩ := of_decide_eq_true hs
  intro hclaim
  obtain ⟨b, hb⟩ := hclaim s hr 0 (ackOf 1 13 12 1 [2]) (by rw [hdel]; exact List.mem_cons_self)
  refine not_chosenBy {1} (by decide) ?_ b hb
  intro a ha hne
  have : a = 0 ∨ a = 2 := by
    have ha' : a < 3 := ha
    have hne' : a ≠ 1 := fun h => hne (Finset.mem_singleton.mpr h)
    omega
  exact hvotes a (by simpa using this)

end LibPaxos.Cluster
