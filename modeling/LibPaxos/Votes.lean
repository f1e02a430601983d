import LibPaxos.AcceptorRuns
import LibPaxos.LearnerDelivery

/-!
# What the acceptors have accepted together

Acceptors by their numbers, with their logs. Messages carry 16 bits of a number.

* **`ChosenBy`** — a quorum accepted one value at one ballot.
* **`chosenBy_of_backed`** — a message that a learner delivers carries a chosen value, if what the
  learner received tells of votes and votes at one ballot agree.
-/

namespace LibPaxos

/-- A quorum of the acceptors accepted `v` for the instance `i` at ballot `b`. -/
def ChosenBy (n : Nat) (acceptors : Nat → LoggedAcceptor) (i : UInt32) (b : UInt16)
    (v : PaxosValue) : Prop :=
  ∃ Q : Finset Nat, Q ⊆ Finset.range n ∧ paxosQuorum n ≤ Q.card ∧
    ∀ a ∈ Q, (acceptors a).Voted i b v

/-- The message tells of a vote of some acceptor. -/
def AckedBy (n : Nat) (acceptors : Nat → LoggedAcceptor) (ack : PaxosAccepted) : Prop :=
  ∃ a < n, ack.aid = UInt16.ofNat a ∧ (acceptors a).Voted ack.iid ack.ballot ack.value

section Votes

variable {n : Nat} {A A' : Nat → LoggedAcceptor} {i : UInt32} {b : UInt16} {v : PaxosValue}

theorem ChosenBy.mono (hA : ∀ a i c v, (A a).Voted i c v → (A' a).Voted i c v)
    (h : ChosenBy n A i b v) : ChosenBy n A' i b v := by
  obtain ⟨Q, hQ, hcard, hv⟩ := h
  exact ⟨Q, hQ, hcard, fun a ha => hA _ _ _ _ (hv a ha)⟩

theorem AckedBy.mono (hA : ∀ a i c v, (A a).Voted i c v → (A' a).Voted i c v)
    {ack : PaxosAccepted} (h : AckedBy n A ack) : AckedBy n A' ack := by
  obtain ⟨a, hlt, haid, hv⟩ := h
  exact ⟨a, hlt, haid, hA _ _ _ _ hv⟩

/-- Some acceptor has accepted what is chosen. -/
theorem ChosenBy.exists_voted (h : ChosenBy n A i b v) : ∃ a < n, (A a).Voted i b v := by
  obtain ⟨Q, hQ, hcard, hv⟩ := h
  obtain ⟨a, ha⟩ := Finset.card_pos.mp (Nat.lt_of_lt_of_le (paxosQuorum_pos n) hcard)
  exact ⟨a, Finset.mem_range.mp (hQ ha), hv a ha⟩

/-- Enough acceptors that accepted the value. -/
theorem chosenBy_of_voters (as : List Nat)
    (has : as.Nodup ∧ (∀ a ∈ as, a < n) ∧ paxosQuorum n ≤ as.length)
    (h : ∀ a ∈ as, (A a).Voted i b v) : ChosenBy n A i b v := by
  refine ⟨as.toFinset, fun a ha => ?_, ?_, fun a ha => h a (List.mem_toFinset.mp ha)⟩
  · exact Finset.mem_range.mpr (has.2.1 a (List.mem_toFinset.mp ha))
  · rw [List.toFinset_card_of_nodup has.1]
    exact has.2.2

/-- A value that too few acceptors accepted is not chosen. -/
theorem not_chosenBy (T : Finset Nat) (hT : T.card < paxosQuorum n)
    (h : ∀ a < n, a ∉ T → ∀ x ∈ votesFor i (A a).log, x.2 ≠ v) (b : UInt16) :
    ¬ ChosenBy n A i b v := by
  rintro ⟨Q, hQ, hcard, hv⟩
  have hsub : Q ⊆ T := by
    intro a ha
    by_contra hnot
    exact h a (Finset.mem_range.mp (hQ ha)) hnot (b, v) (hv a ha) rfl
  have := Finset.card_le_card hsub
  omega

/-- An accepted message with the ballot of the vote tells of a vote. -/
theorem AcceptorInv.ackedBy {a : Nat} (hi : AcceptorInv (A a)) (hid : (A a).acceptor.id = a)
    (hlt : a < n) {op : AcceptorOp} {ack : PaxosAccepted}
    (hlog : (op, some (.accepted ack)) ∈ (A a).log) (hb : ack.valueBallot = ack.ballot) :
    AckedBy n A ack := by
  obtain ⟨haid, hv⟩ := hi.accepteds op ack hlog
  rw [hid] at haid
  rw [hb] at hv
  exact ⟨a, hlt, haid, hv⟩

/-- **A delivered value was chosen.** -/
theorem chosenBy_of_backed {d : PaxosAccepted} (hb : Backed (AckedBy n A) n d)
    (hone : ∀ a a' v v', (A a).Voted d.iid d.ballot v → (A a').Voted d.iid d.ballot v' → v = v') :
    ChosenBy n A d.iid d.ballot d.value := by
  obtain ⟨⟨a₀, -, -, hd⟩, Q, hQ, hall⟩ := hb
  -- the ids counted stand for as many acceptors
  have hvoter : ∀ i ∈ Q, ∃ a, a < n ∧ (UInt16.ofNat a).toNat = i ∧
      (A a).Voted d.iid d.ballot d.value := by
    intro i hi
    obtain ⟨ack, ⟨a, hlt, haid, hv⟩, hiid, hbal, rfl⟩ := hall i hi
    rw [hiid, hbal] at hv
    refine ⟨a, hlt, by rw [haid], ?_⟩
    rw [hone _ _ _ _ hd hv]
    exact hv
  choose! f hlt hid hv using hvoter
  refine ⟨Q.image f, ?_, ?_, ?_⟩
  · intro a ha
    obtain ⟨i, hi, rfl⟩ := Finset.mem_image.mp ha
    exact Finset.mem_range.mpr (hlt i hi)
  · rw [Finset.card_image_of_injOn]
    · exact hQ.2
    · intro i hi j hj hij
      rw [← hid i hi, ← hid j hj, hij]
  · intro a ha
    obtain ⟨i, hi, rfl⟩ := Finset.mem_image.mp ha
    exact hv i hi

end Votes

end LibPaxos
