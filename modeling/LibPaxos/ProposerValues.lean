import LibPaxos.ProposerRuns
import Mathlib.Tactic.Abel

/-!
# A proposer neither loses nor repeats client values

A client value is in one of three places: in the queue, attached to a pending instance as its own
value, or decided. Every call moves values between these places and drops or copies none.

* **`proposer_conserves_values`** — over every sequence of in-order calls, what was submitted is
  the disjoint union of the three.
-/

namespace LibPaxos

open Proposer

/-- The own values attached to the instances of a table. -/
def Proposer.owned (h : KHash Instance) : Multiset PaxosValue :=
  h.collect fun inst => inst.value

/-- The client values a proposer still holds. -/
def Proposer.held (p : Proposer) : Multiset PaxosValue :=
  ↑p.values + owned p.prepareInstances + owned p.acceptInstances

/-- The client values a call decides. -/
def decidedValues (p : Proposer) (op : ProposerOp) : Multiset PaxosValue :=
  ↑((decidedBy p op).map Prod.snd)

/-! ## One call

The multiset of values in the queue, attached or decided changes only when a value is submitted.
Each move is checked for it: a value goes from the queue to an instance, from there to the decided
ones, or back into the queue when its instance is trimmed or closed with another value. -/

/-- Attaching the front of the queue to an instance moves it there. -/
theorem takeValue_eq {values values' : List PaxosValue} {inst : Instance}
    {value : Option PaxosValue} (h : takeValue values inst = (value, values')) :
    (↑values + ↑inst.value.toList : Multiset PaxosValue) = ↑values' + ↑value.toList := by
  unfold takeValue at h
  split at h
  · rename_i v hv
    cases h
    rw [hv]
  · rename_i hv
    cases h
    rw [hv]
    cases values with
    | nil => rfl
    | cons v vs => simp [← Multiset.cons_coe, ← Multiset.singleton_add, add_comm]

/-- A sweep moves the own values of the instances it drops to the queue. -/
theorem proposerTrimInstances_eq (values : List PaxosValue) (h : KHash Instance) (iid : UInt32) :
    (↑(proposerTrimInstances values h iid).1 + owned (proposerTrimInstances values h iid).2
      : Multiset PaxosValue) = ↑values + owned h := by
  have hsplit := AList.collect_filter (fun inst : Instance => inst.value)
    (fun inst => ¬ inst.iid ≤ iid) h
  have hdrop : (h.entries.filterMap fun e => if e.2.iid ≤ iid then e.2.value else none)
      = h.entries.filterMap fun e =>
          if (decide (¬ e.2.iid ≤ iid)) = true then none else e.2.value := by
    congr 1
    funext e
    by_cases hle : e.2.iid ≤ iid
    · simp [hle]
    · simp [hle]
  unfold proposerTrimInstances owned
  simp only
  rw [hsplit, hdrop, ← Multiset.coe_add, add_assoc]

/-- A closing instance leaves its own value in the queue if it lost, among the decided values if
it won. -/
theorem requeueOnClose_eq (values : List PaxosValue) (inst : Instance) :
    (↑(requeueOnClose values inst) : Multiset PaxosValue)
      + ↑(if inst.proposed = inst.value then inst.value.toList else [])
      = ↑values + ↑inst.value.toList := by
  unfold requeueOnClose Instance.proposed
  cases hw : inst.promisedValue with
  | none => simp
  | some w =>
    cases hv : inst.value with
    | none => simp
    | some v =>
      by_cases hvw : v = w
      · simp [hvw]
      · have hne : ¬ w = v := fun h => hvw h.symm
        simp [hvw, hne, ← Multiset.coe_add]

theorem decidedBy_closed {p : Proposer} {ack : PaxosAccepted} {inst : Instance} {q : Quorum}
    (hk : p.acceptInstances.lookup ack.iid = some inst) (hb : ack.ballot.toUInt32 = inst.ballot)
    (hq : quorumAdd inst.quorum ack.aid.toNat = .ok (q, true)) (hr : quorumReached q = true) :
    decidedBy p (.receiveAccepted ack)
      = if inst.proposed = inst.value then inst.value.toList.map fun v => (ack.iid, v) else [] := by
  have hres : proposerReceiveAccepted p ack
      = .ok ({ p with
          values := requeueOnClose p.values inst
          acceptInstances := p.acceptInstances.erase ack.iid }, 2) := by
    unfold proposerReceiveAccepted
    rw [hk]
    simp only [if_pos hb, hq]
    exact if_pos hr
  simp only [decidedBy, hk, hres]

theorem decidedBy_acked {p : Proposer} {ack : PaxosAccepted} {inst : Instance} {q : Quorum}
    (hk : p.acceptInstances.lookup ack.iid = some inst) (hb : ack.ballot.toUInt32 = inst.ballot)
    (hq : quorumAdd inst.quorum ack.aid.toNat = .ok (q, true)) (hr : quorumReached q = false) :
    decidedBy p (.receiveAccepted ack) = [] := by
  have hres : proposerReceiveAccepted p ack
      = .ok ({ p with acceptInstances :=
          p.acceptInstances.replace ack.iid { inst with quorum := q } }, 1) := by
    unfold proposerReceiveAccepted
    rw [hk]
    simp only [if_pos hb, hq]
    exact if_neg (by simp [hr])
  exact decidedBy_of_ne_two hres (by decide)

section Held

variable {p : Proposer} {inst : Instance} {iid : UInt32}

/-- Dropping an instance takes its own value from what its table owns. -/
theorem Proposer.owned_eq_add_erase {h : KHash Instance} (hk : h.lookup iid = some inst) :
    owned h = ↑inst.value.toList + owned (h.erase iid) :=
  AList.collect_eq_add_erase _ hk

/-- A new instance brings its own value along. -/
theorem Proposer.owned_insert {h : KHash Instance} (inst : Instance)
    (hnew : h.lookup iid = none) : owned (h.insert iid inst) = ↑inst.value.toList + owned h :=
  AList.collect_insert _ inst hnew

/-- A cell that keeps its own value does not change what its table owns. -/
theorem Proposer.owned_replace {h : KHash Instance} (hk : h.lookup iid = some inst)
    (inst' : Instance) (hvalue : inst'.value = inst.value) :
    owned (h.replace iid inst') = owned h :=
  AList.collect_replace _ hk hvalue

/-- An instance that goes on to the second phase takes at most the front of the queue along. -/
theorem Proposer.held_accepting {value : Option PaxosValue} {values : List PaxosValue} {q : Quorum}
    (hk : p.prepareInstances.lookup iid = some inst)
    (hnew : p.acceptInstances.lookup iid = none) (ht : takeValue p.values inst = (value, values)) :
    ({ p with
      values := values
      prepareInstances := p.prepareInstances.erase iid
      acceptInstances := p.acceptInstances.insert iid
        { inst with value := value, quorum := q } } : Proposer).held = p.held := by
  unfold held
  simp only [owned_insert _ hnew, owned_eq_add_erase hk]
  calc _ = (↑values + ↑value.toList : Multiset PaxosValue)
        + owned (p.prepareInstances.erase iid) + owned p.acceptInstances := by abel
    _ = _ := by
      rw [← takeValue_eq ht]
      abel

/-- An instance that closes. -/
theorem Proposer.held_closed (hk : p.acceptInstances.lookup iid = some inst) :
    ({ p with
      values := requeueOnClose p.values inst
      acceptInstances := p.acceptInstances.erase iid } : Proposer).held
        + ↑(if inst.proposed = inst.value then inst.value.toList else []) = p.held := by
  unfold held
  simp only [owned_eq_add_erase hk]
  calc _ = (↑(requeueOnClose p.values inst)
          + ↑(if inst.proposed = inst.value then inst.value.toList else []) : Multiset PaxosValue)
        + owned p.prepareInstances + owned (p.acceptInstances.erase iid) := by abel
    _ = _ := by
      rw [requeueOnClose_eq]
      abel

/-- An instance that goes back to the first phase with its own value. -/
theorem Proposer.held_demoted {inst' : Instance} (hk : p.acceptInstances.lookup iid = some inst)
    (hnew : p.prepareInstances.lookup iid = none) (hvalue : inst'.value = inst.value) :
    ({ p with
      acceptInstances := p.acceptInstances.erase iid
      prepareInstances := p.prepareInstances.insert iid inst' } : Proposer).held = p.held := by
  unfold held
  simp only [owned_insert _ hnew, owned_eq_add_erase hk, hvalue]
  abel

/-- The own values of the instances that a trim drops are in the queue again. -/
theorem Proposer.held_trimTo (p : Proposer) (iid maxTrimIid : UInt32) :
    (p.trimTo iid maxTrimIid).held = p.held := by
  have hp := proposerTrimInstances_eq p.values p.prepareInstances iid
  have ha := proposerTrimInstances_eq (proposerTrimInstances p.values p.prepareInstances iid).1
    p.acceptInstances iid
  calc _ = (↑(p.trimTo iid maxTrimIid).values
          + owned (proposerTrimInstances (proposerTrimInstances p.values p.prepareInstances
              iid).1 p.acceptInstances iid).2)
        + owned (proposerTrimInstances p.values p.prepareInstances iid).2 :=
        add_right_comm _ _ _
    _ = (↑(proposerTrimInstances p.values p.prepareInstances iid).1
          + owned p.acceptInstances)
        + owned (proposerTrimInstances p.values p.prepareInstances iid).2 := by
        rw [← ha]
        rfl
    _ = _ := by
        rw [add_right_comm, hp]
        rfl

end Held

/-- **One call conserves client values.** -/
theorem ProposerMove.conserves {p p' : Proposer} {op : ProposerOp} {out : List PaxosMessage}
    (hm : ProposerMove p op p' out) :
    p'.held + decidedValues p op = p.held + ↑(submittedBy op) := by
  unfold decidedValues
  cases hm with
  | idle hs hd => rw [hs, hd]; rfl
  | heard => rfl
  | queued =>
    unfold held
    simp only [submittedBy, decidedBy, ← Multiset.coe_add, List.map_nil]
    abel
  | @created op now iid next hop hpos hnew =>
    unfold held
    simp only [owned_insert _ hnew]
    rcases hop with ⟨rfl, -, -⟩ | ⟨rfl, -⟩ <;> simp [newInstance, submittedBy, decidedBy]
  -- from here on an instance keeps its value, unless it gets one or is closed
  | preempted hk hop =>
    unfold held
    simp only [owned_replace hk _ (proposerPreempt_value _ _ _)]
    rcases hop with ⟨ack, rfl, -⟩ | rfl
    · rfl
    · rfl
  | @promised now ack inst q hk hb hq =>
    unfold held
    simp only [owned_replace hk _ (adoptPromise_value { inst with quorum := q } ack)]
    rfl
  | @accepting inst value values v hk hq hnew ht hv =>
    rw [held_accepting hk hnew ht]
    rfl
  | @acked ack inst q hk hb hq hr =>
    unfold held
    simp only [owned_replace hk { inst with quorum := q } rfl,
      decidedBy_acked hk hb hq hr]
    rfl
  | @closed ack inst q hk hb hq hr =>
    -- the own value is decided if it is what was asked for, and queued again otherwise
    have hdec : ((decidedBy p (.receiveAccepted ack)).map Prod.snd)
        = if inst.proposed = inst.value then inst.value.toList else [] := by
      rw [decidedBy_closed hk hb hq hr]
      split
      · simp
      · rfl
    rw [hdec, held_closed hk]
    exact (add_zero _).symm
  | @demoted now ack inst hk hb hiid hnew =>
    rw [held_demoted hk hnew (proposerPreempt_value _ _ _)]
    rfl
  | @trimmed op iid maxTrimIid hop hlt =>
    rw [held_trimTo]
    rcases hop with ⟨rfl, -⟩ | ⟨state, rfl, -⟩
    · rfl
    · rfl
  | @retriedPrepare iter key inst hk =>
    unfold held
    simp only [owned_replace hk { inst with createdAt := iter.timeout } rfl]
    rfl
  | @retriedAccept iter key inst v hk hv =>
    unfold held
    simp only [owned_replace hk { inst with createdAt := iter.timeout } rfl]
    rfl
  | rehashed hpp hpa =>
    unfold held owned
    simp only [AList.collect_eq_of_perm _ hpp, AList.collect_eq_of_perm _ hpa]
    rfl

/-! ## Whole runs -/

/-- What was submitted is held or decided. -/
def LoggedProposer.Conserved (r : LoggedProposer) : Prop :=
  (r.submitted : Multiset PaxosValue)
    = ↑r.proposer.values + owned r.proposer.prepareInstances + owned r.proposer.acceptInstances
      + ↑(r.decided.map Prod.snd)

/-- What a run of in-order calls keeps. -/
structure LoggedProposer.ValuesInv (r : LoggedProposer) : Prop where
  wellFormed : r.proposer.WellFormed
  sequential : r.proposer.Sequential
  conserved : r.Conserved

theorem LoggedProposer.valuesInv_fresh (id : UInt32) (n : Nat) : (fresh id n).ValuesInv where
  wellFormed := proposerNew_wellFormed id n
  sequential := proposerNew_sequential id n
  conserved := rfl

theorem LoggedProposer.ValuesInv.step {config : PaxosConfig} {r r' : LoggedProposer}
    {op : ProposerOp} (hi : r.ValuesInv) (hop : op.InOrder) (h : r.step config op = .ok r') :
    r'.ValuesInv := by
  obtain ⟨p, out, hm, rfl⟩ := step_ok hi.wellFormed h
  refine ⟨hi.wellFormed.move hm, hi.sequential.move hop.tidy hm, ?_⟩
  have hc : (r.submitted : Multiset PaxosValue) = r.proposer.held + ↑(r.decided.map Prod.snd) :=
    hi.conserved
  have hmove := hm.conserves
  show (↑(submittedBy op ++ r.submitted) : Multiset PaxosValue)
    = p.held + ↑((decidedBy r.proposer op ++ r.decided).map Prod.snd)
  rw [List.map_append, ← Multiset.coe_add, ← Multiset.coe_add, hc, ← add_assoc, ← add_assoc,
    add_comm (↑(submittedBy op) : Multiset PaxosValue), ← hmove]
  rfl

/-- A run either returns, keeps the invariant and has taken in what was submitted, or stops where
the instance ids are exhausted. Induction on the calls. -/
theorem LoggedProposer.ValuesInv.run {config : PaxosConfig} {n : Nat} :
    ∀ {ops : List ProposerOp} {r : LoggedProposer}, r.ValuesInv → r.proposer.acceptors = n →
      (∀ op ∈ ops, op.InOrder) → (∀ op ∈ ops, op.AidBelow n) →
      (∃ r', r.run config ops = .ok r' ∧ r'.ValuesInv ∧
        (r'.submitted : Multiset PaxosValue) = ↑r.submitted + ↑(ops.flatMap submittedBy)) ∨
      (∃ ops₁ now ops₂ r', ops = ops₁ ++ .prepare now :: ops₂ ∧ r.run config ops₁ = .ok r' ∧
        r'.proposer.nextPrepareIid + 1 = 0) := by
  intro ops
  induction ops with
  | nil =>
    intro r hi _ _ _
    exact .inl ⟨r, rfl, hi, by simp⟩
  | cons op ops ih =>
    intro r hi hn hop haid
    -- the only call that may not return is a prepare when the ids are used up
    by_cases hend : (∃ now, op = .prepare now) ∧ ¬ 0 < r.proposer.nextPrepareIid + 1
    · obtain ⟨⟨now, rfl⟩, hzero⟩ := hend
      exact .inr ⟨[], now, ops, r, rfl, rfl, by simpa using hzero⟩
    · obtain ⟨res, hstep⟩ : ∃ res, proposerStep config r.proposer op = .ok res :=
        proposerStep_isOk hi.wellFormed hi.sequential (hn ▸ haid op List.mem_cons_self)
          ((hop op List.mem_cons_self).idPos
            fun hprep => by_contra fun hzero => hend ⟨hprep, hzero⟩)
      obtain ⟨r₁, hr₁⟩ : ∃ r₁, r.step config op = .ok r₁ :=
        Except.exists_bind_eq_ok hstep ⟨_, rfl⟩
      obtain ⟨p₁, out₁, hm, rfl⟩ := step_ok hi.wellFormed hr₁
      have hrest := ih (hi.step (hop op List.mem_cons_self) hr₁) (hm.acceptors_eq.trans hn)
        (fun o ho => hop o (List.mem_cons_of_mem _ ho))
        (fun o ho => haid o (List.mem_cons_of_mem _ ho))
      rcases hrest with ⟨r', hrun, hi', hsub⟩ | ⟨ops₁, now, ops₂, r', rfl, hrun, hzero⟩
      · refine .inl ⟨r', Except.bind_eq_ok.mpr ⟨_, hr₁, hrun⟩, hi', ?_⟩
        rw [hsub, List.flatMap_cons, ← Multiset.coe_add, ← Multiset.coe_add]
        abel
      · exact .inr ⟨op :: ops₁, now, ops₂, r', rfl, Except.bind_eq_ok.mpr ⟨_, hr₁, hrun⟩, hzero⟩

/-- **Client values are conserved.** A sequence of in-order calls with acceptor ids in range
returns and what was submitted is, as a multiset, what is in the queue, attached to instances and
decided; the only way not to return is to run out of instance ids. -/
theorem proposer_conserves_values (config : PaxosConfig) (id : UInt32) (n : Nat)
    (ops : List ProposerOp) (hop : ∀ op ∈ ops, op.InOrder) (haid : ∀ op ∈ ops, op.AidBelow n) :
    (∃ r, (LoggedProposer.fresh id n).run config ops = .ok r ∧
      (↑(ops.flatMap submittedBy) : Multiset PaxosValue)
        = ↑r.proposer.values + owned r.proposer.prepareInstances + owned r.proposer.acceptInstances
          + ↑(r.decided.map Prod.snd)) ∨
    (∃ ops₁ now ops₂ r, ops = ops₁ ++ .prepare now :: ops₂ ∧
      (LoggedProposer.fresh id n).run config ops₁ = .ok r ∧
      r.proposer.nextPrepareIid + 1 = 0) := by
  have hfresh := LoggedProposer.valuesInv_fresh id n
  rcases @LoggedProposer.ValuesInv.run config n ops _ hfresh rfl hop haid with
    ⟨r, hrun, hi, hsub⟩ | hend
  · have hall : (r.submitted : Multiset PaxosValue) = ↑(ops.flatMap submittedBy) := by
      rw [hsub]
      exact zero_add _
    exact .inl ⟨r, hrun, hall.symm.trans hi.conserved⟩
  · exact .inr hend

/-- A proposer of one acceptor that gets a value into its first instance and closes it. -/
theorem proposer_conserves_values_one_instance :
    let ops : List ProposerOp :=
      [.propose [1], .propose [2], .prepare 0, .receivePromise 0 { iid := 1, ballot := 13 },
        .accept, .receiveAccepted { iid := 1, ballot := 13, valueBallot := 13, value := [1] }]
    (∃ r, (LoggedProposer.fresh 3 1).run {} ops = .ok r ∧
      (↑(ops.flatMap submittedBy) : Multiset PaxosValue)
        = ↑r.proposer.values + owned r.proposer.prepareInstances + owned r.proposer.acceptInstances
          + ↑(r.decided.map Prod.snd)) ∨
    (∃ ops₁ now ops₂ r, ops = ops₁ ++ .prepare now :: ops₂ ∧
      (LoggedProposer.fresh 3 1).run {} ops₁ = .ok r ∧
      r.proposer.nextPrepareIid + 1 = 0) :=
  proposer_conserves_values {} 3 1 _ (by simp [ProposerOp.InOrder]) (by simp [ProposerOp.AidBelow])

end LibPaxos
