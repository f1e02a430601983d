import LibPaxos.ProposerWire

/-!
# Outbidding a rival ballot

When an acceptor answers with a higher ballot, the proposer gives its attempt up and prepares the
instance again. Its new ballot is its own one and 10, whatever the ballot in the answer was. So it
is above the rival's when the rival's is less than 10 ahead, which is all that the unit tests try.

* **`preempted_outbids`** — the new request is for the same instance and at a ballot of this
  proposer, above those it used; and the exact condition for it to be above the rival's.
* **`preempted_underbids`** — a rival that is further ahead, in either phase, and an instance that
  was dropped and created again.
-/

namespace LibPaxos

open Proposer

/-- The request `out` that follows when the ballot `b` stops the attempt of `inst` on instance
`iid`: it is for that instance, at a ballot of the proposer with the given id, and above `b` when
`b` is less than 10 ahead of the attempt. -/
structure Proposer.Instance.Outbids (inst : Instance) (id iid : UInt32) (b : UInt16)
    (out : PaxosPrepare) : Prop where
  sameInstance : out.iid = iid
  own : out.ballot.toNat % 10 = id.toNat % 10
  aboveRival : b < out.ballot ↔ b.toNat < inst.ballot.toNat + 10

/-- The request is above all requests in `sent` for its instance. -/
def AboveSent (sent : List PaxosMessage) (out : PaxosPrepare) : Prop :=
  ∀ m ∈ sent, ∀ b, usedBallot m = some (out.iid, b) → b < out.ballot

section Preempt

variable {config : PaxosConfig} {id iid : UInt32} {n : Nat} {r : LoggedProposer} {inst : Instance}

/-- **The ballot after a preemption** is 10 above the one before it, on the wire too. -/
theorem LoggedProposer.IssueInv.toNat_preempt (hi : r.IssueInv id)
    (hpend : r.proposer.PendingAt iid inst) (now : Int)
    (hlt : (proposerPreempt now r.proposer inst).ballot.toNat < 2 ^ 16) :
    (prepareOf (proposerPreempt now r.proposer inst)).ballot.toNat = inst.ballot.toNat + 10 := by
  have hnext := (hi.stored iid inst hpend).next r.proposer (hi.narrow.of_pendingAt hpend)
  have hsent := toNat_toUInt16_of_lt hlt
  exact hsent.trans hnext

theorem LoggedProposer.IssueInv.outbids (hi : r.IssueInv id)
    (hpend : r.proposer.PendingAt iid inst) (hiid : inst.iid = iid) (now : Int) (b : UInt16)
    (hlt : (proposerPreempt now r.proposer inst).ballot.toNat < 2 ^ 16) :
    inst.Outbids id iid b (prepareOf (proposerPreempt now r.proposer inst)) := by
  have hball := hi.toNat_preempt hpend now hlt
  obtain ⟨-, hres⟩ := hi.stored iid inst hpend
  refine ⟨hiid, ?_, ?_⟩
  · rw [hball]
    omega
  · rw [UInt16.lt_iff_toNat_lt, hball]

theorem LoggedProposer.WireInv.aboveSent (hi : r.WireInv id)
    (hpend : r.proposer.PendingAt iid inst) (hiid : inst.iid = iid) (now : Int)
    (hlt : (proposerPreempt now r.proposer inst).ballot.toNat < 2 ^ 16) :
    AboveSent r.emitted (prepareOf (proposerPreempt now r.proposer inst)) := by
  intro m hm b hu
  have hused : usedBallot m = some (iid, b) := by
    rw [← hiid]
    exact hu
  -- earlier requests are not above the attempt, and the new one is
  have hle := hi.low iid inst hpend m hm b hused
  rw [UInt16.lt_iff_toNat_lt, hi.toNat_preempt hpend now hlt]
  omega

/-- Runs in which pending ballots keep to 16 bits keep the invariant of the ballots sent. -/
theorem LoggedProposer.IssueInv.of_reaches (hid : id.toNat < 2 ^ 31)
    (hr : Runs.Reaches (LoggedProposer.stepOption config) (LoggedProposer.StaysNarrow config)
      (.fresh id n) r) : r.IssueInv id :=
  LoggedProposer.invariant_of_reaches hr (LoggedProposer.issueInv_fresh id n)
    fun hs hok hstep => hs.step hid hok hstep

/-- A promise that is answered with a request stops an attempt in the first phase. -/
theorem proposerReceivePromise_request {p p' : Proposer} {now : Int} {ack : PaxosPromise}
    {out : PaxosPrepare} (h : proposerReceivePromise now p ack = .ok (p', some out)) :
    ∃ inst, p.prepareInstances.lookup ack.iid = some inst ∧
      out = prepareOf (proposerPreempt now p inst) ∧
      p'.PendingAt ack.iid (proposerPreempt now p inst) := by
  cases proposerReceivePromise_move h with
  | preempted hk hop =>
    rcases hop with ⟨_, heq, rfl, -⟩ | heq
    · cases heq
      exact ⟨_, hk, rfl, .inl (AList.lookup_replace_self _ hk)⟩
    · cases heq
  | created hop => rcases hop with ⟨heq, -⟩ | ⟨heq, -⟩ <;> cases heq

/-- A preempted message that is answered with a request stops an attempt in the second phase. -/
theorem proposerReceivePreempted_request {p p' : Proposer} {now : Int} {ack : PaxosPreempted}
    {out : PaxosPrepare} (hw : p.WellFormed)
    (h : proposerReceivePreempted now p ack = .ok (p', some out)) :
    ∃ inst, p.acceptInstances.lookup ack.iid = some inst ∧
      out = prepareOf (proposerPreempt now p inst) ∧
      p'.PendingAt ack.iid (proposerPreempt now p inst) := by
  have hkey : Keyed p.acceptInstances := fun k inst hk => (hw.accept k inst hk).1
  cases proposerReceivePreempted_move hkey h with
  | preempted hk hop => rcases hop with ⟨_, heq, -⟩ | heq <;> cases heq
  | created hop => rcases hop with ⟨heq, -⟩ | ⟨heq, -⟩ <;> cases heq
  | demoted hk => exact ⟨_, hk, rfl, .inl (AList.lookup_insert _)⟩

end Preempt

/-- The proposer was reached by calls that created instances only for ids without requests and
kept pending ballots to 16 bits. -/
def LoggedProposer.ReachedInOrder (config : PaxosConfig) (id : UInt32) (n : Nat)
    (r : LoggedProposer) : Prop :=
  Runs.Reaches (LoggedProposer.stepOption config) (LoggedProposer.WireSafe config) (.fresh id n) r

/-- **A preempted proposer and the ballot that preempted it.** Take a run of a proposer in which
pending ballots keep to 16 bits, and a promise or preempted message that it answers with a request.
The request is for the instance of the message and at a ballot of this proposer. It is above the
ballot in the message exactly when that is less than 10 ahead of the attempt it stopped. If
instances were only created for ids without requests, it is above all ballots used for the
instance. -/
theorem preempted_outbids (config : PaxosConfig) (id : UInt32) (n : Nat) (hid : id.toNat < 2 ^ 31)
    (r : LoggedProposer)
    (hr : Runs.Reaches (LoggedProposer.stepOption config) (LoggedProposer.StaysNarrow config)
      (.fresh id n) r) (now : Int) (p : Proposer) (hn : p.Narrow) (out : PaxosPrepare) :
    (∀ ack, proposerReceivePromise now r.proposer ack = .ok (p, some out) →
      ∃ inst, r.proposer.prepareInstances.lookup ack.iid = some inst ∧
        inst.Outbids id ack.iid ack.ballot out ∧
        (r.ReachedInOrder config id n → AboveSent r.emitted out)) ∧
    (∀ ack, proposerReceivePreempted now r.proposer ack = .ok (p, some out) →
      ∃ inst, r.proposer.acceptInstances.lookup ack.iid = some inst ∧
        inst.Outbids id ack.iid ack.ballot out ∧
        (r.ReachedInOrder config id n → AboveSent r.emitted out)) := by
  have hi : r.IssueInv id := .of_reaches hid hr
  constructor
  · intro ack h
    obtain ⟨inst, hk, rfl, hpend⟩ := proposerReceivePromise_request h
    have hiid := (hi.wellFormed.prepare _ _ hk).1
    have hlt := hn.of_pendingAt hpend
    refine ⟨inst, hk, hi.outbids (.inl hk) hiid now _ hlt, fun hsafe => ?_⟩
    exact (LoggedProposer.WireInv.of_reaches hid hsafe).aboveSent (.inl hk) hiid now hlt
  · intro ack h
    obtain ⟨inst, hk, rfl, hpend⟩ := proposerReceivePreempted_request hi.wellFormed h
    have hiid := (hi.wellFormed.accept _ _ hk).1
    have hlt := hn.of_pendingAt hpend
    refine ⟨inst, hk, hi.outbids (.inr hk) hiid now _ hlt, fun hsafe => ?_⟩
    exact (LoggedProposer.WireInv.of_reaches hid hsafe).aboveSent (.inr hk) hiid now hlt

/-- The call returns the request and leaves ballots of 16 bits behind: a test that can be
evaluated. -/
def Requests (x : Except Fault (Proposer × Option PaxosPrepare)) (out : PaxosPrepare) : Bool :=
  x.toOption.any fun y => y.1.Narrow ∧ y.2 = some out

theorem exists_of_requests {x : Except Fault (Proposer × Option PaxosPrepare)} {out : PaxosPrepare}
    (h : Requests x out = true) : ∃ p : Proposer, p.Narrow ∧ x = .ok (p, some out) := by
  obtain ⟨⟨p, _⟩, hx, hpost⟩ := (Option.any_eq_true _ _).mp h
  obtain ⟨hn, rfl⟩ := of_decide_eq_true hpost
  exact ⟨p, hn, Except.eq_ok_of_toOption hx⟩

/-- An instance in the second phase at ballot 10, stopped by ballot 11. -/
theorem preempted_outbids_eleven :
    ∃ r : LoggedProposer, ∃ p out,
      proposerReceivePreempted 0 r.proposer { iid := 1, ballot := 11, aid := 2 }
        = .ok (p, some out) ∧
      out.iid = 1 ∧ 11 < out.ballot ∧ r.emitted ≠ [] ∧ AboveSent r.emitted out := by
  obtain ⟨r, hr, hc⟩ := Runs.exists_reaches_of_run (LoggedProposer.stepOption {})
    (LoggedProposer.WireSafe {}) (.fresh 0 3) onePendingEach
    (fun r => r.emitted ≠ [] ∧
      (r.proposer.acceptInstances.lookup 1).map (·.ballot) = some 10 ∧
      Requests (proposerReceivePreempted 0 r.proposer { iid := 1, ballot := 11, aid := 2 })
        { iid := 1, ballot := 20 }) (by decide +kernel)
  obtain ⟨hsent, hball, hcall⟩ := of_decide_eq_true hc
  obtain ⟨p, hn, hans⟩ := exists_of_requests hcall
  have hnarrow := hr.mono fun _ _ h => h.2
  obtain ⟨inst, hk, hbid, habove⟩ :=
    (preempted_outbids {} 0 3 (by decide) r hnarrow 0 p hn _).2 _ hans
  obtain ⟨inst', hk', hb'⟩ := Option.map_eq_some_iff.mp hball
  obtain rfl : inst = inst' := Option.some.inj (hk.symm.trans hk')
  refine ⟨r, p, _, hans, hbid.sameInstance, hbid.aboveRival.mpr ?_, hsent, habove hr⟩
  rw [hb']
  decide

/-- **A preempted proposer need not outbid its rival.** Proposer 0 has an instance in each phase at
ballot 10. Stopped by ballot 30 it prepares the instance at ballot 20, in both phases. After it
dropped an instance for which it had used ballot 30 and created it again, a preemption leads to
ballot 20, too. -/
theorem preempted_underbids :
    (∃ r : LoggedProposer, r.ReachedInOrder {} 0 3 ∧
      (∃ p, p.Narrow ∧ proposerReceivePromise 0 r.proposer { iid := 2, ballot := 30, aid := 2 }
        = .ok (p, some { iid := 2, ballot := 20 })) ∧
      ∃ p, p.Narrow ∧ proposerReceivePreempted 0 r.proposer { iid := 1, ballot := 30, aid := 2 }
        = .ok (p, some { iid := 1, ballot := 20 })) ∧
    ∃ r, Runs.Reaches (LoggedProposer.stepOption {}) (LoggedProposer.StaysNarrow {})
        (.fresh 0 3) r ∧
      .prepare { iid := 1, ballot := 30 } ∈ r.emitted ∧
      ∃ p, p.Narrow ∧ proposerReceivePromise 0 r.proposer { iid := 1, ballot := 11, aid := 2 }
        = .ok (p, some { iid := 1, ballot := 20 }) := by
  constructor
  -- an instance in either phase, and a rival at ballot 30
  · obtain ⟨r, hr, hc⟩ := Runs.exists_reaches_of_run (LoggedProposer.stepOption {})
      (LoggedProposer.WireSafe {}) (.fresh 0 3) onePendingEach
      (fun r =>
        Requests (proposerReceivePromise 0 r.proposer { iid := 2, ballot := 30, aid := 2 })
          { iid := 2, ballot := 20 } &&
        Requests (proposerReceivePreempted 0 r.proposer { iid := 1, ballot := 30, aid := 2 })
          { iid := 1, ballot := 20 }) (by decide +kernel)
    obtain ⟨hpromise, hpreempted⟩ := (Bool.and_eq_true _ _).mp hc
    exact ⟨r, hr, exists_of_requests hpromise, exists_of_requests hpreempted⟩
  · obtain ⟨r, hr, hc⟩ := Runs.exists_reaches_of_run (LoggedProposer.stepOption {})
      (LoggedProposer.StaysNarrow {}) (.fresh 0 3)
      -- the instance is prepared at 10, 20 and 30, dropped, and created again
      [.prepare 0, .prepareInstance 0 1, .prepareInstance 0 1, .setInstanceId 5,
        .prepareInstance 0 1]
      (fun r => .prepare { iid := 1, ballot := 30 } ∈ r.emitted ∧
        Requests (proposerReceivePromise 0 r.proposer { iid := 1, ballot := 11, aid := 2 })
          { iid := 1, ballot := 20 }) (by decide +kernel)
    obtain ⟨hused, hpromise⟩ := of_decide_eq_true hc
    exact ⟨r, hr, hused, exists_of_requests hpromise⟩

end LibPaxos
