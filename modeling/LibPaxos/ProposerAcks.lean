import LibPaxos.ProposerBallots

/-!
# Acknowledgements of unknown acceptors

`instance_update` of the learner drops a message whose acceptor id is not below the acceptor count.
`proposer_receive_promise` and `proposer_receive_accepted` hand the id to `quorum_add`, which takes
it for an index. Such a message does no harm only if it is dropped before that.

* **`unknown_acceptor_ignored`** — in every state of a run, exactly the messages at the ballot of a
  pending instance make `quorum_add` leave its array, and exactly those that are stale are ignored.
* **`unknown_acceptor_counted`** — messages of a fourth acceptor, of three.
-/

namespace LibPaxos

open Proposer

/-- `quorum_add` leaves the array for every other id. -/
theorem quorumAdd_eq_error {q : Quorum} {id : Nat} (h : q.acceptors ≤ id) :
    quorumAdd q id = .error .outOfBounds := by
  have hlen := q.length_eq
  unfold quorumAdd
  split
  · rfl
  · rename_i hid
    have hlt := (List.getElem?_eq_some_iff.mp hid).1
    omega
  · rename_i hid
    have hlt := (List.getElem?_eq_some_iff.mp hid).1
    omega

/-! ## What becomes of an acknowledgement

Three cases for a promise: there is no instance for it or its ballot is an earlier one, its ballot
is that of the instance, or it is larger. Only in the second case is the id of the sender used. -/

/-- The promise is for no pending instance, or for an earlier ballot of one. -/
def Proposer.DropsPromise (p : Proposer) (ack : PaxosPromise) : Prop :=
  ∀ inst ∈ p.prepareInstances.lookup ack.iid, ack.ballot.toUInt32 < inst.ballot

/-- The promise is at the ballot of a pending instance. -/
def Proposer.CountsPromise (p : Proposer) (ack : PaxosPromise) : Prop :=
  ∃ inst ∈ p.prepareInstances.lookup ack.iid, ack.ballot.toUInt32 = inst.ballot

/-- The promise tells of a larger ballot than a pending instance has. -/
def Proposer.PreemptedByPromise (p : Proposer) (ack : PaxosPromise) : Prop :=
  ∃ inst ∈ p.prepareInstances.lookup ack.iid, inst.ballot < ack.ballot.toUInt32

/-- The acknowledgement is at the ballot of a pending instance. -/
def Proposer.CountsAccepted (p : Proposer) (ack : PaxosAccepted) : Prop :=
  ∃ inst ∈ p.acceptInstances.lookup ack.iid, ack.ballot.toUInt32 = inst.ballot

section Promise

variable {p : Proposer} {ack : PaxosPromise}

theorem Proposer.promise_cases (p : Proposer) (ack : PaxosPromise) :
    p.DropsPromise ack ∨ p.CountsPromise ack ∨ p.PreemptedByPromise ack := by
  cases hk : p.prepareInstances.lookup ack.iid with
  | none =>
    left
    intro inst hinst
    rw [hk] at hinst
    cases hinst
  | some inst =>
    by_cases hlt : ack.ballot.toUInt32 < inst.ballot
    · left
      intro inst' hinst'
      cases Option.some.inj (hk.symm.trans hinst')
      exact hlt
    · by_cases hgt : inst.ballot < ack.ballot.toUInt32
      · exact .inr (.inr ⟨inst, hk, hgt⟩)
      · exact .inr (.inl ⟨inst, hk, UInt32.le_antisymm (UInt32.not_lt.mp hgt)
          (UInt32.not_lt.mp hlt)⟩)

theorem proposerReceivePromise_of_drops (now : Int) (h : p.DropsPromise ack) :
    proposerReceivePromise now p ack = .ok (p, none) := by
  unfold proposerReceivePromise
  split
  · rfl
  · rename_i inst hk
    rw [if_pos (h inst hk)]

/-- A promise at the ballot of its instance is counted for the index that its sender gives. -/
theorem proposerReceivePromise_of_counts (hw : p.WellFormed) (now : Int) (h : p.CountsPromise ack)
    (haid : p.acceptors ≤ ack.aid.toNat) :
    proposerReceivePromise now p ack = .error .outOfBounds := by
  obtain ⟨inst, hk, hb⟩ := h
  have hadd : quorumAdd inst.quorum ack.aid.toNat = .error .outOfBounds :=
    quorumAdd_eq_error (by rw [(hw.prepare _ _ hk).2]; exact haid)
  unfold proposerReceivePromise
  rw [Option.mem_def.mp hk]
  simp only [hb, UInt32.lt_irrefl, gt_iff_lt, if_false, hadd]
  rfl

/-- A promise at a larger ballot moves its instance to the next one, whoever sends it. -/
theorem proposerReceivePromise_preempted (now : Int) {inst : Instance}
    (hk : p.prepareInstances.lookup ack.iid = some inst) (hb : inst.ballot < ack.ballot.toUInt32) :
    proposerReceivePromise now p ack = .ok
      ({ p with prepareInstances :=
          p.prepareInstances.replace ack.iid (proposerPreempt now p inst) },
        some (prepareOf (proposerPreempt now p inst))) := by
  unfold proposerReceivePromise
  rw [hk]
  simp only [gt_iff_lt, if_neg (UInt32.lt_asymm hb), if_pos hb]

end Promise

section Accepted

variable {p : Proposer} {ack : PaxosAccepted}

theorem proposerReceiveAccepted_of_not_counts (h : ¬ p.CountsAccepted ack) :
    proposerReceiveAccepted p ack = .ok (p, 0) := by
  unfold proposerReceiveAccepted
  split
  · rfl
  · rename_i inst hk
    rw [if_neg fun hb => h ⟨inst, hk, hb⟩]

theorem proposerReceiveAccepted_of_counts (hw : p.WellFormed) (h : p.CountsAccepted ack)
    (haid : p.acceptors ≤ ack.aid.toNat) :
    proposerReceiveAccepted p ack = .error .outOfBounds := by
  obtain ⟨inst, hk, hb⟩ := h
  have hadd : quorumAdd inst.quorum ack.aid.toNat = .error .outOfBounds :=
    quorumAdd_eq_error (by rw [(hw.accept _ _ hk).2.1]; exact haid)
  unfold proposerReceiveAccepted
  rw [Option.mem_def.mp hk]
  simp only [if_pos hb, hadd]
  rfl

end Accepted

/-! ## Messages of unknown acceptors

An id that is not below the number of acceptors is outside the array of flags. The C code reads and
writes there; the model stops with a `Fault`, which is how the theorem can tell. -/

/-- A call that returns if the sender is known or the message is not counted, and only then. -/
theorem exists_ok_iff {α : Type} {x : Except Fault α} {known counted : Prop}
    (hfault : ¬ known → counted → x = .error .outOfBounds) (hknown : known → ∃ r, x = .ok r)
    (hdropped : ¬ counted → ∃ r, x = .ok r) : (∃ r, x = .ok r) ↔ known ∨ ¬ counted := by
  constructor
  · rintro ⟨r, hr⟩
    by_contra hnot
    obtain ⟨hunknown, hcounted⟩ := not_or.mp hnot
    cases (hfault hunknown (not_not.mp hcounted)).symm.trans hr
  · rintro (h | h)
    · exact hknown h
    · exact hdropped h

/-- What a proposer with `n` acceptors does about an acknowledgement, by the id of its sender:
whether `quorum_add` stays inside its array, and whether a message of an unknown acceptor is
ignored. -/
structure Proposer.AcksBySender (p : Proposer) (n : Nat) : Prop where
  promise_inside : ∀ now ack, (∃ r, proposerReceivePromise now p ack = .ok r) ↔
    ack.aid.toNat < n ∨ ¬ p.CountsPromise ack
  promise_ignored : ∀ now ack, n ≤ ack.aid.toNat →
    (proposerReceivePromise now p ack = .ok (p, none) ↔ p.DropsPromise ack)
  accepted_inside : ∀ ack, (∃ r, proposerReceiveAccepted p ack = .ok r) ↔
    ack.aid.toNat < n ∨ ¬ p.CountsAccepted ack
  accepted_ignored : ∀ ack, n ≤ ack.aid.toNat →
    (proposerReceiveAccepted p ack = .ok (p, 0) ↔ ¬ p.CountsAccepted ack)

theorem Proposer.WellFormed.acksBySender {p : Proposer} (hw : p.WellFormed) :
    p.AcksBySender p.acceptors where
  promise_inside now ack := by
    -- the id is used as an index exactly if the promise counts
    apply exists_ok_iff
    · exact fun haid h => proposerReceivePromise_of_counts hw now h (Nat.not_lt.mp haid)
    · exact proposerReceivePromise_isOk hw now
    · intro hnot
      -- a promise with a larger ballot sends a prepare request
      rcases promise_cases p ack with h | h | h
      · exact ⟨_, proposerReceivePromise_of_drops now h⟩
      · exact absurd h hnot
      · obtain ⟨inst, hk, hb⟩ := h
        exact ⟨_, proposerReceivePromise_preempted now hk hb⟩
  promise_ignored now ack haid := by
    constructor
    · intro hr
      rcases promise_cases p ack with h | h | h
      · exact h
      · rw [proposerReceivePromise_of_counts hw now h haid] at hr
        cases hr
      · obtain ⟨inst, hk, hb⟩ := h
        rw [proposerReceivePromise_preempted now hk hb] at hr
        exact absurd (congrArg Prod.snd (Except.ok.inj hr)) (by simp)
    · exact proposerReceivePromise_of_drops now
  accepted_inside ack := by
    apply exists_ok_iff
    · exact fun haid h => proposerReceiveAccepted_of_counts hw h (Nat.not_lt.mp haid)
    · exact proposerReceiveAccepted_isOk hw
    · exact fun hnot => ⟨_, proposerReceiveAccepted_of_not_counts hnot⟩
  accepted_ignored ack haid := by
    constructor
    · intro hr hcounts
      rw [proposerReceiveAccepted_of_counts hw hcounts haid] at hr
      cases hr
    · exact proposerReceiveAccepted_of_not_counts

/-- The ids counted are below `n`, and if they are a quorum there are enough of them. -/
def Quorum.Known (n : Nat) (q : Quorum) : Prop :=
  q.ids ⊆ Finset.range n ∧ (quorumReached q = true → paxosQuorum n ≤ q.ids.card)

theorem Quorum.known (q : Quorum) : q.Known q.acceptors :=
  ⟨q.ids_subset, Quorum.le_card_of_reached⟩

/-- **Acknowledgements of unknown acceptors.** In every state of a run with `n` acceptors a message
of an acceptor that is not below `n` is ignored exactly if it is stale, and makes `quorum_add` leave
its array exactly if it is at the ballot of a pending instance; the ids counted are below `n`. -/
theorem unknown_acceptor_ignored (config : PaxosConfig) (id : UInt32) (n : Nat)
    (r : LoggedProposer)
    (hr : Runs.Reaches (LoggedProposer.stepOption config) (fun _ _ => True)
      (LoggedProposer.fresh id n) r) :
    r.proposer.AcksBySender n ∧
      (r.proposer.prepareInstances.All fun _ inst => inst.quorum.Known n) ∧
      r.proposer.acceptInstances.All fun _ inst => inst.quorum.Known n := by
  obtain ⟨hw, rfl⟩ := LoggedProposer.wellFormed_of_reaches hr
  refine ⟨hw.acksBySender, hw.prepare.mono fun _ inst h => ?_, hw.accept.mono fun _ inst h => ?_⟩
  · rw [← h.2]
    exact inst.quorum.known
  · rw [← h.2.1]
    exact inst.quorum.known

/-- Messages of an acceptor 7 that are too old, or for an instance that is not pending. -/
theorem unknown_acceptor_ignored_seven :
    ∃ p : Proposer, p.prepareInstances.keys = [2] ∧ p.acceptInstances.keys = [1] ∧
      proposerReceivePromise 0 p { iid := 2, ballot := 9, aid := 7 } = .ok (p, none) ∧
      proposerReceiveAccepted p { iid := 2, ballot := 10, aid := 7 } = .ok (p, 0) := by
  obtain ⟨r, hr, hc⟩ := Runs.exists_reaches_of_run (LoggedProposer.stepOption {})
    (fun _ _ => True) (LoggedProposer.fresh 0 3) onePendingEach
    (fun r => r.proposer.prepareInstances.keys = [2] ∧ r.proposer.acceptInstances.keys = [1] ∧
      (r.proposer.prepareInstances.lookup 2).map (·.ballot) = some 10 ∧
      r.proposer.acceptInstances.lookup 2 = none) (by decide +kernel)
  obtain ⟨hkeys, hkeys', hballot, hnone⟩ := of_decide_eq_true hc
  obtain ⟨hacks, -⟩ := unknown_acceptor_ignored {} 0 3 r hr
  have hstale : r.proposer.DropsPromise { iid := 2, ballot := 9, aid := 7 } := by
    intro inst hk
    rw [Option.mem_def.mp hk] at hballot
    have hb : inst.ballot = 10 := Option.some.inj hballot
    rw [hb]
    decide
  have hnot : ¬ r.proposer.CountsAccepted { iid := 2, ballot := 10, aid := 7 } := by
    rintro ⟨inst, hk, -⟩
    cases hnone.symm.trans hk
  exact ⟨r.proposer, hkeys, hkeys', (hacks.promise_ignored 0 _ (by decide)).mpr hstale,
    (hacks.accepted_ignored _ (by decide)).mpr hnot⟩

/-- **A fourth acceptor, of three.** At the ballot of a pending instance its promise and its
acknowledgement make `quorum_add` leave the array, and a promise at a larger ballot moves the
instance to the next ballot. -/
theorem unknown_acceptor_counted :
    ∃ r, Runs.Reaches (LoggedProposer.stepOption {}) (fun _ _ => True)
        (LoggedProposer.fresh 0 3) r ∧
      proposerReceivePromise 0 r.proposer { iid := 2, ballot := 10, aid := 3 }
        = .error .outOfBounds ∧
      proposerReceiveAccepted r.proposer { iid := 1, ballot := 10, aid := 3 }
        = .error .outOfBounds ∧
      ∃ p out, proposerReceivePromise 0 r.proposer { iid := 2, ballot := 20, aid := 3 }
          = .ok (p, some out) ∧
        (r.proposer.prepareInstances.lookup 2).map (·.ballot) = some 10 ∧
        (p.prepareInstances.lookup 2).map (·.ballot) = some 20 := by
  obtain ⟨r, hr, hc⟩ := Runs.exists_reaches_of_run (LoggedProposer.stepOption {})
    (fun _ _ => True) (LoggedProposer.fresh 0 3) onePendingEach
    (fun r =>
      (proposerReceivePromise 0 r.proposer { iid := 2, ballot := 10, aid := 3 }).fault
        = some .outOfBounds ∧
      (proposerReceiveAccepted r.proposer { iid := 1, ballot := 10, aid := 3 }).fault
        = some .outOfBounds ∧
      (r.proposer.prepareInstances.lookup 2).map (·.ballot) = some 10) (by decide +kernel)
  obtain ⟨hpromise, haccepted, hballot⟩ := of_decide_eq_true hc
  obtain ⟨inst, hk, hb⟩ := Option.map_eq_some_iff.mp hballot
  refine ⟨r, hr, Except.eq_error_of_fault hpromise, Except.eq_error_of_fault haccepted, _, _,
    proposerReceivePromise_preempted 0 hk ?_, hballot, ?_⟩
  · rw [hb]
    decide
  · rw [AList.lookup_replace_self _ hk]
    show some (proposerNextBallot r.proposer inst.ballot) = _
    rw [hb]
    rfl

end LibPaxos
