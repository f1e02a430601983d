import LibPaxos.LearnerDelivery

/-!
# Chosen notifications

`learner_receive_chosen` does not keep what the learner knows about an instance: it starts the
instance over and gives it acknowledgements of the acceptors 1 and 2. With three acceptors these are
a quorum; with fewer one of them has no slot, with more two are not enough.

* **`chosen_closes_instance`** — the instance is closed exactly if there are three acceptors, and
  then with the value of the message.
* **`chosen_leaves_open`** — with another number it is open, even if it was closed before.
-/

namespace LibPaxos

open Learner

/-- The instance that two acknowledgements close, of three. -/
def Learner.chosenInstance (ack : PaxosAccepted) : Instance where
  iid := ack.iid
  lastUpdateBallot := ack.ballot.toUInt32
  acks := [none, some { ack with aid := 1 }, some { ack with aid := 2 }]
  finalValue := some { ack with aid := 2 }

/-- Acceptor 1 is the first to be heard of. -/
theorem Learner.instanceUpdate_one (ack : PaxosAccepted) :
    instanceUpdate (instanceNew 3) { ack with aid := 1 } 3
      = { chosenInstance ack with
          acks := [none, some { ack with aid := 1 }, none], finalValue := none } := by
  rfl

/-- Acceptor 2 completes the quorum, which is noted by the next test. -/
theorem Learner.instanceUpdate_two (ack : PaxosAccepted) :
    instanceUpdate (instanceUpdate (instanceNew 3) { ack with aid := 1 } 3) { ack with aid := 2 } 3
      = { chosenInstance ack with finalValue := none } := by
  rw [instanceUpdate_one]
  have hopen : ∀ acks, instanceOpen
      { chosenInstance ack with acks := acks, finalValue := none } { ack with aid := 2 }
        = { chosenInstance ack with acks := acks, finalValue := none } := by
    intro acks
    unfold instanceOpen
    split <;> rfl
  unfold instanceUpdate
  rw [hopen]
  simp [instanceHasQuorum, Instance.agreeing, chosenInstance, paxosQuorum, instanceAddAccept]

theorem Learner.instanceHasQuorum_chosen (ack : PaxosAccepted) :
    instanceHasQuorum { chosenInstance ack with finalValue := none } 3
      = (chosenInstance ack, true) := by
  simp [instanceHasQuorum, Instance.agreeing, chosenInstance, paxosQuorum]

/-- With three acceptors a chosen notification stores a closed instance. -/
theorem learnerReceiveChosen_eq {l : Learner} {ack : PaxosAccepted} (hn : l.acceptors = 3)
    (hle : l.currentIid ≤ ack.iid) :
    learnerReceiveChosen l ack =
      { l with
        instances := l.instances.insert ack.iid (chosenInstance ack)
        highestIidClosed :=
          if ack.iid > l.highestIidClosed then ack.iid else l.highestIidClosed } := by
  unfold learnerReceiveChosen
  rw [if_neg (UInt32.not_lt.mpr hle)]
  simp only [hn, instanceUpdate_two]
  unfold learnerUpdate
  rw [hn, instanceHasQuorum_chosen]
  simp only [true_and]
  rfl

theorem learnerReceiveChosen_of_lt {l : Learner} {ack : PaxosAccepted}
    (hlt : ack.iid < l.currentIid) : learnerReceiveChosen l ack = l :=
  if_pos hlt

/-- What is closed after a chosen notification: its instance, and what was closed before. -/
theorem closed_learnerReceiveChosen {l : Learner} {ack : PaxosAccepted} (hn : l.acceptors = 3)
    (hle : l.currentIid ≤ ack.iid) (k : UInt32) :
    (learnerReceiveChosen l ack).closed k = if k = ack.iid then true else l.closed k := by
  rw [learnerReceiveChosen_eq hn hle]
  unfold closed
  rw [AList.lookup_insert_cases]
  by_cases hk : k = ack.iid
  · rw [if_pos hk, if_pos hk]
    rfl
  · rw [if_neg hk, if_neg hk]

/-- A quorum of the acceptors 1 and 2 alone is one of three. -/
theorem eq_three_of_quorum {n : Nat} {Q : Finset Nat} (hQ : Voting.IsMajority n (paxosQuorum n) Q)
    (hsub : Q ⊆ {1, 2}) : n = 3 := by
  have hin : Q ⊆ ({1, 2} : Finset Nat).filter (· < n) := fun i hi =>
    Finset.mem_filter.mpr ⟨hsub hi, Finset.mem_range.mp (hQ.1 hi)⟩
  have hcard := Nat.le_trans hQ.2 (Finset.card_le_card hin)
  have htwo := Nat.le_trans hQ.2 (Finset.card_le_card hsub)
  -- two acceptors are a quorum of three at most
  have hfew : n = 0 ∨ n = 1 ∨ n = 2 ∨ n = 3 := by
    rw [paxosQuorum] at htwo
    have hpair : ({1, 2} : Finset Nat).card = 2 := rfl
    omega
  rcases hfew with rfl | rfl | rfl | rfl
  · exact absurd hcard (by decide)
  · exact absurd hcard (by decide)
  · exact absurd hcard (by decide)
  · rfl

/-- An instance that a chosen notification closes is one of three acceptors: it holds nothing but
acknowledgements of the acceptors 1 and 2. -/
theorem acceptors_of_closed_learnerReceiveChosen {l : Learner} {ack : PaxosAccepted}
    (hle : l.currentIid ≤ ack.iid) (hc : (learnerReceiveChosen l ack).closed ack.iid = true) :
    l.acceptors = 3 := by
  have hnew := instanceNew_sound (fun a => a.aid = 1 ∨ a.aid = 2) l.acceptors ack.iid
  obtain ⟨h₁, hi₁⟩ : _ ∧ (instanceUpdate _ { ack with aid := 1 } _).iid = _ :=
    instanceUpdate_sound hnew (.inl rfl) (.inl rfl) rfl
  obtain ⟨h₂, -⟩ : _ ∧ (instanceUpdate _ { ack with aid := 2 } _).iid = _ :=
    instanceUpdate_sound h₁ (.inr hi₁) (.inr rfl) rfl
  rw [learnerReceiveChosen, if_neg (UInt32.not_lt.mpr hle)] at hc
  unfold closed learnerUpdate at hc
  rw [AList.lookup_insert] at hc
  obtain ⟨f, hf⟩ := instanceHasQuorum_final hc
  obtain ⟨-, -, Q, hQ, hall⟩ := (instanceHasQuorum_sound (instanceHasQuorum_sound h₂)).final f hf
  refine eq_three_of_quorum hQ fun i hi => ?_
  obtain ⟨a, ha, -, -, rfl⟩ := hall i hi
  rcases ha with ha | ha
  · rw [ha]
    decide
  · rw [ha]
    decide

/-- **A chosen notification closes its instance** exactly if there are three acceptors. Then,
whatever the learner knew of the instance, it is closed with the value of the message, the highest
closed id is at least its id, and what was closed is closed still. -/
theorem chosen_closes_instance (l : Learner) (ack : PaxosAccepted) (hle : l.currentIid ≤ ack.iid) :
    let l' := learnerReceiveChosen l ack
    (l'.closed ack.iid = true ↔ l.acceptors = 3) ∧
    (l.acceptors = 3 →
      (∃ inst f, l'.instances.lookup ack.iid = some inst ∧ inst.finalValue = some f ∧
        f.iid = ack.iid ∧ f.value = ack.value) ∧
      ack.iid ≤ l'.highestIidClosed ∧ ∀ k, l.closed k = true → l'.closed k = true) := by
  intro l'
  refine ⟨⟨acceptors_of_closed_learnerReceiveChosen hle, fun hn => ?_⟩, fun hn => ?_⟩
  · exact (closed_learnerReceiveChosen hn hle ack.iid).trans (if_pos rfl)
  have heq : l' = _ := learnerReceiveChosen_eq hn hle
  have hclosed := closed_learnerReceiveChosen hn hle
  refine ⟨⟨chosenInstance ack, _, ?_, rfl, rfl, rfl⟩, ?_, fun k hk => ?_⟩
  · rw [heq]
    exact AList.lookup_insert _
  · rw [heq]
    show ack.iid ≤ if ack.iid > l.highestIidClosed then ack.iid else l.highestIidClosed
    split
    · exact UInt32.le_refl _
    · rename_i hgt
      exact UInt32.not_lt.mp hgt
  · rw [hclosed, hk, ite_self]

/-- The learner has an acknowledgement at another ballot for the instance. -/
theorem chosen_closes_instance_two :
    let l := learnerReceiveAccepted (learnerNew {} 3)
      { iid := 2, ballot := 20, aid := 1, value := [2] }
    (learnerReceiveChosen l { iid := 2, ballot := 10, value := [1] }).closed 2 = true :=
  (chosen_closes_instance
    (learnerReceiveAccepted (learnerNew {} 3) { iid := 2, ballot := 20, aid := 1, value := [2] })
    { iid := 2, ballot := 10, value := [1] } (by decide)).1.mpr rfl

/-- **A chosen notification that closes nothing.** With one, two, four or five acceptors the
acknowledgements of the acceptors 1 and 2 are no quorum; and of five, three have closed the instance
before it is started over. -/
theorem chosen_leaves_open :
    (∀ n ∈ [1, 2, 4, 5],
      (learnerReceiveChosen (learnerNew {} n) { iid := 1, ballot := 10, value := [1] }).closed 1
        = false) ∧
    let l := [0, 1, 2].foldl
      (fun l aid => learnerReceiveAccepted l { iid := 1, ballot := 10, aid := aid, value := [1] })
      (learnerNew {} 5)
    l.closed 1 = true ∧
      (learnerReceiveChosen l { iid := 1, ballot := 10, value := [1] }).closed 1 = false := by
  decide +kernel

end LibPaxos
