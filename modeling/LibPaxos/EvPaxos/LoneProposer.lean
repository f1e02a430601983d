import LibPaxos.EvPaxos.EvproposerRuns

/-!
# A proposer without rivals

As long as a proposer has no rivals its instances stay at the first ballot, none is preempted, and
each goes through the two phases once: it waits for promises without a value, then asks for the
value it was given. A promise or a vote that has been taken in is counted in the instance it is for,
unless the instance has moved on.

* **`LoneProposer.handle`** — what is known of such a proposer, kept by every handler.
-/

namespace LibPaxos

open Proposer

/-- The prepare request for an instance at the ballot `b`. -/
def prepareAt (b : UInt16) (k : UInt32) : PaxosPrepare where
  iid := k
  ballot := b

/-- The accept request for the value `v`. -/
def acceptAt (b : UInt16) (k : UInt32) (v : PaxosValue) : PaxosAccept where
  iid := k
  ballot := b
  valueBallot := b
  value := v

/-- What a proposer without rivals is told: promises and votes at its ballot, for instances it has
prepared, with values it has asked for, and that nothing was trimmed. -/
def Lone (b : UInt32) (attached : List (UInt32 × PaxosValue)) (p : Proposer) : ProposerOp → Prop
  | .receivePromise _ ack =>
    ack.ballot.toUInt32 = b ∧ ack.iid ≤ p.nextPrepareIid ∧
      (ack.value = [] ∨ (ack.iid, ack.value) ∈ attached)
  | .receiveAccepted ack => ack.ballot.toUInt32 = b ∧ (ack.iid, ack.value) ∈ attached
  | .receivePreempted _ _ => False
  | .prepareInstance _ _ => False
  | .receiveAcceptorState state => state.trimIid = 0
  | .setInstanceId _ => False
  | _ => True

/-- An acceptor that has not trimmed anything is nothing new. -/
theorem proposerReceiveAcceptorState_zero (p : Proposer) {state : PaxosAcceptorState}
    (h : state.trimIid = 0) : proposerReceiveAcceptorState p state = p := by
  unfold proposerReceiveAcceptorState
  rw [h]
  exact if_neg UInt32.not_lt_zero

theorem Lone.alone {b : UInt32} {attached : List (UInt32 × PaxosValue)} {p : Proposer}
    {op : ProposerOp} (h : Lone b attached p op) :
    Alone attached op ∨ ∃ state, op = .receiveAcceptorState state ∧ state.trimIid = 0 := by
  cases op with
  | receivePromise now ack => exact .inl h.2.2
  | prepareInstance | setInstanceId => exact .inl h
  | receiveAcceptorState state => exact .inr ⟨state, rfl, h⟩
  | receivePreempted => exact h.elim
  | _ => exact .inl trivial

theorem ProposerOp.eq_of_promise {op : ProposerOp} {ack : PaxosPromise}
    (h : op.message = some (.promise ack)) : ∃ now, op = .receivePromise now ack := by
  cases op with
  | receivePromise now ack' =>
    cases h
    exact ⟨now, rfl⟩
  | _ => cases h

theorem ProposerOp.eq_of_accepted {op : ProposerOp} {ack : PaxosAccepted}
    (h : op.message = some (.accepted ack)) : op = .receiveAccepted ack := by
  cases op with
  | receiveAccepted ack' =>
    cases h
    rfl
  | _ => cases h

/-! ## What a call can do

Without rivals no promise is above the ballot of its instance and none reports a foreign value, so
most moves of a proposer cannot happen. What is left: a new instance, an accept request with the
value at the front of the queue, a retry, and counting. -/

/-- A request that was sent for a pending instance. -/
def Proposer.Requests (p : Proposer) (m : PaxosMessage) : Prop :=
  (∃ k inst, p.prepareInstances.lookup k = some inst ∧ m = .prepare (prepareOf inst)) ∨
    ∃ k inst v, p.acceptInstances.lookup k = some inst ∧ inst.proposed = some v ∧
      m = .accept (acceptOf inst v)

/-- The pending instances stay where they are, apart from those that close, and count more. -/
structure Proposer.Keeps (p p' : Proposer) (out : List PaxosMessage) : Prop where
  id : p'.id = p.id
  next : p'.nextPrepareIid = p.nextPrepareIid
  prepare : p'.prepareInstances.All fun k inst' => ∃ inst, p.prepareInstances.lookup k = some inst ∧
    inst'.ballot = inst.ballot ∧ inst.quorum.ids ⊆ inst'.quorum.ids
  accept : p'.acceptInstances.All fun k inst' => ∃ inst, p.acceptInstances.lookup k = some inst ∧
    inst'.ballot = inst.ballot ∧ inst.quorum.ids ⊆ inst'.quorum.ids
  waits : ∀ k ∈ p.prepareInstances, k ∈ p'.prepareInstances
  undecided : (p.acceptInstances.All fun _ inst => quorumReached inst.quorum = false) →
    p'.acceptInstances.All fun _ inst => quorumReached inst.quorum = false
  out : ∀ m ∈ out, p.Requests m

/-- The outcomes of a call, with the value it attaches: it keeps the instances, creates the next
one, or moves one on that is given the front of the queue. -/
inductive LoneMove (p : Proposer) :
    Proposer → List PaxosMessage → List (UInt32 × PaxosValue) → Prop where
  | keeps {p' : Proposer} {out : List PaxosMessage} (h : p.Keeps p' out) : LoneMove p p' out []
  | created (now : Int) (hpos : 0 < p.nextPrepareIid + 1) :
      LoneMove p
        { p with
          nextPrepareIid := p.nextPrepareIid + 1
          prepareInstances := p.prepareInstances.insert (p.nextPrepareIid + 1)
            (newInstance now (p.nextPrepareIid + 1) (proposerNextBallot p 0) p.acceptors) }
        [.prepare (prepareOf
          (newInstance now (p.nextPrepareIid + 1) (proposerNextBallot p 0) p.acceptors))] []
  | accepting {inst : Instance} {v : PaxosValue} {values : List PaxosValue}
      (hk : p.prepareInstances.lookup inst.iid = some inst) :
      LoneMove p
        { p with
          values := values
          prepareInstances := p.prepareInstances.erase inst.iid
          acceptInstances := p.acceptInstances.insert inst.iid
            { inst with value := some v, quorum := quorumClear inst.quorum } }
        [.accept (acceptOf inst v)] [(inst.iid, v)]

section Keeps

variable {p : Proposer} {k : UInt32} {inst inst' : Instance}

/-- Tables that are as they were. -/
theorem Proposer.all_self (h : KHash Instance) : h.All fun k inst' => ∃ inst,
    h.lookup k = some inst ∧ inst'.ballot = inst.ballot ∧ inst.quorum.ids ⊆ inst'.quorum.ids :=
  fun _ inst hk => ⟨inst, hk, rfl, Finset.Subset.refl _⟩

/-- A table with one cell overwritten. -/
theorem Proposer.all_replace {h : KHash Instance} (hk : h.lookup k = some inst)
    (hb : inst'.ballot = inst.ballot) (hids : inst.quorum.ids ⊆ inst'.quorum.ids) :
    (h.replace k inst').All fun k inst' => ∃ inst, h.lookup k = some inst ∧
      inst'.ballot = inst.ballot ∧ inst.quorum.ids ⊆ inst'.quorum.ids := by
  intro k' x hx
  rcases AList.of_lookup_replace hk hx with ⟨rfl, rfl⟩ | ⟨-, hold⟩
  · exact ⟨inst, hk, hb, hids⟩
  · exact ⟨x, hold, rfl, Finset.Subset.refl _⟩

theorem ids_subset_of_quorumAdd {q q' : Quorum} {i : Nat} (h : quorumAdd q i = .ok (q', true)) :
    q.ids ⊆ q'.ids := by
  rw [(quorumAdd_true h).2.2.1]
  exact Finset.subset_insert _ _

end Keeps

section Move

variable {config : PaxosConfig} {b : UInt32} {attached : List (UInt32 × PaxosValue)}
  {p p' : Proposer} {op : ProposerOp} {out : List PaxosMessage}

/-- An instance without a value moves on with the front of the queue, which is attached to it. -/
theorem LoneMove.of_accepting {inst : Instance} {value : Option PaxosValue}
    {values : List PaxosValue} {v : PaxosValue}
    (hk : p.prepareInstances.lookup inst.iid = some inst)
    (hnew : p.acceptInstances.lookup inst.iid = none)
    (hv : ({ inst with value := value } : Instance).proposed = some v)
    (hnone : inst.value = none ∧ inst.promisedValue = none) :
    LoneMove p
      { p with
        values := values
        prepareInstances := p.prepareInstances.erase inst.iid
        acceptInstances := p.acceptInstances.insert inst.iid
          { inst with value := value, quorum := quorumClear inst.quorum } }
      [.accept (acceptOf inst v)]
      (attachedBy p
        { p with
          values := values
          prepareInstances := p.prepareInstances.erase inst.iid
          acceptInstances := p.acceptInstances.insert inst.iid
            { inst with value := value, quorum := quorumClear inst.quorum } }) := by
  have hown : p.ownValue inst.iid = none := by
    unfold ownValue
    rw [hk, hnew, Option.bind_some, hnone.1]
    rfl
  obtain rfl : value = some v := by
    unfold Instance.proposed at hv
    rw [hnone.2] at hv
    exact hv
  rw [attachedBy_accepting _ rfl, if_pos hown]
  exact .accepting hk

/-- **Every call of a proposer without rivals** is one of the moves. -/
theorem LoneMove.of_move (hop : Lone b attached p op)
    (hwait : p.prepareInstances.All fun _ inst =>
      inst.ballot = b ∧ inst.value = none ∧ inst.promisedValue = none)
    (hm : ProposerMove p op p' out) : LoneMove p p' out (attachedBy p p') := by
  have hm' := hm
  cases hm with
  | idle | queued =>
    rw [hm'.attachedBy_eq_nil (.inr rfl)]
    exact .keeps ⟨rfl, rfl, all_self _, all_self _, fun _ hk => hk, fun ho => ho,
      List.forall_mem_nil _⟩
  | @heard state hlt =>
    -- nothing is trimmed
    have hzero : state.trimIid = 0 := hop
    rw [hzero] at hlt
    exact absurd hlt UInt32.not_lt_zero
  | created hc hpos hnew =>
    rcases hc with ⟨rfl, rfl, rfl⟩ | ⟨rfl, rfl⟩
    · rw [hm'.attachedBy_eq_nil (.inl (by simp))]
      exact .created _ hpos
    · exact hop.elim
  | preempted hk hc =>
    rcases hc with ⟨ack, rfl, rfl, hlt⟩ | rfl
    -- a promise is at the ballot of the instance, so it does not preempt
    · rw [(hwait _ _ hk).1, hop.1] at hlt
      exact absurd hlt (UInt32.lt_irrefl b)
    · exact hop.elim
  | promised hk hb hq =>
    rw [hm'.attachedBy_eq_nil (.inr rfl)]
    refine .keeps ⟨rfl, rfl, all_replace hk (adoptPromise_ballot _ _) ?_, all_self _,
      fun _ hk => AList.mem_replace.mpr hk, fun ho => ho, List.forall_mem_nil _⟩
    rw [adoptPromise_quorum]
    exact ids_subset_of_quorumAdd hq
  | accepting hk hq hnew ht hv => exact .of_accepting hk hnew hv (hwait _ _ hk).2
  | acked hk hb hq hr =>
    rw [hm'.attachedBy_eq_nil (.inr rfl)]
    exact .keeps ⟨rfl, rfl, all_self _, all_replace hk rfl (ids_subset_of_quorumAdd hq),
      fun _ hk => hk, fun ho => ho.replace (AList.mem_of_lookup hk) hr, List.forall_mem_nil _⟩
  | closed hk hb hq hr =>
    rw [hm'.attachedBy_eq_nil (.inr rfl)]
    exact .keeps ⟨rfl, rfl, all_self _, (all_self _).erase _, fun _ hk => hk,
      fun ho => ho.erase _, List.forall_mem_nil _⟩
  | demoted => exact hop.elim
  | trimmed hc hlt =>
    rcases hc with ⟨rfl, -⟩ | ⟨state, rfl, rfl, -⟩
    · exact hop.elim
    · have hzero : state.trimIid = 0 := hop
      rw [hzero] at hlt
      exact absurd hlt UInt32.not_lt_zero
  | @retriedPrepare iter key inst hk =>
    rw [hm'.attachedBy_eq_nil (.inl (by simp))]
    exact .keeps ⟨rfl, rfl, all_replace hk rfl (Finset.Subset.refl _), all_self _,
      fun _ hk => AList.mem_replace.mpr hk, fun ho => ho,
      List.forall_mem_singleton.mpr (.inl ⟨key, inst, hk, rfl⟩)⟩
  | @retriedAccept iter key inst v hk hv =>
    rw [hm'.attachedBy_eq_nil (.inl (by simp))]
    exact .keeps ⟨rfl, rfl, all_self _, all_replace hk rfl (Finset.Subset.refl _),
      fun _ hk => hk, fun ho => ho.replace (AList.mem_of_lookup hk) (ho key inst hk),
      List.forall_mem_singleton.mpr (.inr ⟨key, inst, v, hk, hv, rfl⟩)⟩
  | rehashed hpp hpa =>
    rw [hm'.attachedBy_eq_nil (.inr rfl)]
    -- the tables have the entries that they had
    refine .keeps ⟨rfl, rfl, fun k inst hk => ⟨inst, ?_, rfl, Finset.Subset.refl _⟩,
      fun k inst hk => ⟨inst, ?_, rfl, Finset.Subset.refl _⟩, fun k hk => ?_,
      fun ho k inst hk => ho k inst ?_, List.forall_mem_nil _⟩
    · exact (AList.lookup_eq_of_perm hpp k).symm.trans hk
    · exact (AList.lookup_eq_of_perm hpa k).symm.trans hk
    · obtain ⟨inst, hinst⟩ := AList.lookup_eq_some_of_mem hk
      exact AList.mem_of_lookup ((AList.lookup_eq_of_perm hpp k).trans hinst)
    · exact (AList.lookup_eq_of_perm hpa k).symm.trans hk

variable {new : List (UInt32 × PaxosValue)}

/-- An instance that waits for promises was waiting before, or it is new. -/
theorem LoneMove.prepare_back (hm : LoneMove p p' out new) :
    p'.prepareInstances.All fun k inst' =>
      (∃ inst, p.prepareInstances.lookup k = some inst ∧ inst'.ballot = inst.ballot ∧
        inst.quorum.ids ⊆ inst'.quorum.ids) ∨
      (p.nextPrepareIid < k ∧ 0 < k ∧ inst'.ballot = proposerNextBallot p 0) := by
  intro k inst' hk
  cases hm with
  | keeps h => exact .inl (h.prepare k inst' hk)
  | created now hpos =>
    rcases AList.of_lookup_insert hk with ⟨rfl, rfl⟩ | ⟨-, hold⟩
    · exact .inr ⟨lt_add_one_of_pos hpos, hpos, rfl⟩
    · exact .inl ⟨inst', hold, rfl, Finset.Subset.refl _⟩
  | accepting hk' =>
    exact .inl ⟨inst', (AList.of_lookup_erase hk).2, rfl, Finset.Subset.refl _⟩

/-- An instance in the second phase was there before, or it comes from the first one. -/
theorem LoneMove.accept_back (hm : LoneMove p p' out new) :
    p'.acceptInstances.All fun k inst' =>
      (∃ inst, p.acceptInstances.lookup k = some inst ∧ inst'.ballot = inst.ballot ∧
        inst.quorum.ids ⊆ inst'.quorum.ids) ∨
      ∃ inst, p.prepareInstances.lookup k = some inst ∧ inst'.ballot = inst.ballot := by
  intro k inst' hk
  cases hm with
  | keeps h => exact .inl (h.accept k inst' hk)
  | created now hpos => exact .inl ⟨inst', hk, rfl, Finset.Subset.refl _⟩
  | accepting hk' =>
    rcases AList.of_lookup_insert hk with ⟨rfl, rfl⟩ | ⟨-, hold⟩
    · exact .inr ⟨_, hk', rfl⟩
    · exact .inl ⟨inst', hold, rfl, Finset.Subset.refl _⟩

/-- An instance that has its quorum is gone. -/
theorem LoneMove.undecided (hm : LoneMove p p' out new)
    (ho : p.acceptInstances.All fun _ inst => quorumReached inst.quorum = false) :
    p'.acceptInstances.All fun _ inst => quorumReached inst.quorum = false := by
  cases hm with
  | keeps h => exact h.undecided ho
  | created => exact ho
  | accepting => exact ho.insert (quorumReached_quorumClear _)

/-- A value that is attached is not attached to an instance that waits. -/
theorem LoneMove.not_attached (hm : LoneMove p p' out new) {k : UInt32} {inst : Instance}
    {v : PaxosValue} (hk : p'.prepareInstances.lookup k = some inst) : (k, v) ∉ new := by
  intro hmem
  cases hm with
  | keeps | created => cases hmem
  | accepting =>
    cases List.mem_singleton.mp hmem
    exact (AList.of_lookup_erase hk).1 rfl

end Move

/-! ## The invariant

The invariant knows for each id up to the last one prepared whether its instance waits or a value
was attached to it, and which requests were sent for it. It knows as well that every promise and
vote that was handled is counted, which is what makes progress provable in the end. -/

/-- A proposer without rivals, at the ballot `b`: the calls that were made and the values attached
so far, newest first. -/
structure LoneProposer (b : UInt32) (r : LoggedProposer) (calls : List ProposerOp)
    (attached : List (UInt32 × PaxosValue)) : Prop where
  base : proposerNextBallot r.proposer 0 = b
  sound : r.proposer.Sound
  order : r.proposer.InSubmissionOrder attached r.submitted
  waiting : r.proposer.prepareInstances.All fun k inst =>
    0 < k ∧ inst.ballot = b ∧ ∀ v, (k, v) ∉ attached
  asking : r.proposer.acceptInstances.All fun _ inst => inst.ballot = b
  undecided : r.proposer.acceptInstances.All fun _ inst => quorumReached inst.quorum = false
  sent : ∀ m ∈ r.emitted,
    (∃ k, 0 < k ∧ k ≤ r.proposer.nextPrepareIid ∧ m = .prepare (prepareAt b.toUInt16 k)) ∨
      ∃ kv ∈ attached, m = .accept (acceptAt b.toUInt16 kv.1 kv.2)
  positive : ∀ kv ∈ attached, 0 < kv.1
  opened : ∀ k, 0 < k → k ≤ r.proposer.nextPrepareIid →
    .prepare (prepareAt b.toUInt16 k) ∈ r.emitted ∧
      (k ∈ r.proposer.prepareInstances ∨ ∃ v, (k, v) ∈ attached)
  asked : ∀ kv ∈ attached, .accept (acceptAt b.toUInt16 kv.1 kv.2) ∈ r.emitted
  promises : ∀ now ack, .receivePromise now ack ∈ calls → ack.iid ≤ r.proposer.nextPrepareIid ∧
    ∀ inst, r.proposer.prepareInstances.lookup ack.iid = some inst →
      ack.aid.toNat ∈ inst.quorum.ids
  votes : ∀ ack, .receiveAccepted ack ∈ calls → (ack.iid, ack.value) ∈ attached ∧
    ∀ inst, r.proposer.acceptInstances.lookup ack.iid = some inst →
      ack.aid.toNat ∈ inst.quorum.ids

theorem LoneProposer.init (id : UInt32) (n : Nat) :
    LoneProposer (maxNOfProposers + id) (.fresh id n) [] [] where
  base := rfl
  sound := proposerNew_sound id n
  order := inSubmissionOrder_new id n
  waiting := AList.all_empty
  asking := AList.all_empty
  undecided := AList.all_empty
  sent _ h := by cases h
  positive _ h := by cases h
  opened k hpos hle := absurd (UInt32.lt_of_lt_of_le hpos hle) (UInt32.lt_irrefl 0)
  asked _ h := by cases h
  promises _ _ h := by cases h
  votes _ h := by cases h

section Step

variable {config : PaxosConfig} {b : UInt32} {r r' : LoggedProposer} {calls : List ProposerOp}
  {attached : List (UInt32 × PaxosValue)} {p p' : Proposer} {op : ProposerOp}
  {out : List PaxosMessage}

/-- A promise at the ballot of its instance is counted. -/
theorem promise_counted {now : Int} {ack : PaxosPromise}
    (hb : p.prepareInstances.All fun _ inst => inst.ballot = ack.ballot.toUInt32)
    (h : proposerStep config p (.receivePromise now ack) = .ok (p', out)) {inst : Instance}
    (hk : p'.prepareInstances.lookup ack.iid = some inst) : ack.aid.toNat ∈ inst.quorum.ids := by
  obtain ⟨⟨p₁, prepare⟩, hcall, h⟩ := Except.bind_eq_ok.mp h
  cases h
  unfold proposerReceivePromise at hcall
  split at hcall
  · next hnone =>
    cases hcall
    cases hnone.symm.trans hk
  · next inst₀ hk₀ =>
    -- the promise is at the ballot of the instance, so both comparisons fail
    rw [hb _ _ hk₀, if_neg (UInt32.lt_irrefl _), if_neg (UInt32.lt_irrefl _)] at hcall
    obtain ⟨⟨q, added⟩, hadd, hcall⟩ := Except.bind_eq_ok.mp hcall
    cases added with
    -- a promise already counted
    | false =>
      cases hcall
      cases hk₀.symm.trans hk
      exact quorumAdd_false hadd
    | true =>
      cases hcall
      have hk : (p.prepareInstances.replace ack.iid _).lookup ack.iid = some inst := hk
      rw [AList.lookup_replace_self _ hk₀] at hk
      cases hk
      rw [adoptPromise_quorum]
      show ack.aid.toNat ∈ q.ids
      rw [(quorumAdd_true hadd).2.2.1]
      exact Finset.mem_insert_self _ _

/-- So is a vote, unless it closes the instance. -/
theorem vote_counted {ack : PaxosAccepted}
    (hb : p.acceptInstances.All fun _ inst => inst.ballot = ack.ballot.toUInt32)
    (h : proposerStep config p (.receiveAccepted ack) = .ok (p', out)) {inst : Instance}
    (hk : p'.acceptInstances.lookup ack.iid = some inst) : ack.aid.toNat ∈ inst.quorum.ids := by
  obtain ⟨⟨p₁, rc⟩, hcall, h⟩ := Except.bind_eq_ok.mp h
  cases h
  unfold proposerReceiveAccepted at hcall
  split at hcall
  · next hnone =>
    -- there is no such instance any more
    cases hcall
    cases hnone.symm.trans hk
  · next inst₀ hk₀ =>
    rw [hb _ _ hk₀, if_pos rfl] at hcall
    obtain ⟨⟨q, added⟩, hadd, hcall⟩ := Except.bind_eq_ok.mp hcall
    simp only at hcall
    split at hcall
    · next hfalse =>
      -- the acceptor was counted before
      subst hfalse
      cases hcall
      cases hk₀.symm.trans hk
      exact quorumAdd_false hadd
    · next htrue =>
      obtain rfl : added = true := by simpa using htrue
      split at hcall
      -- the instance closes, and is gone
      · cases hcall
        have hk : (p.acceptInstances.erase ack.iid).lookup ack.iid = some inst := hk
        rw [AList.lookup_erase] at hk
        cases hk
      · cases hcall
        have hk : (p.acceptInstances.replace ack.iid _).lookup ack.iid = some inst := hk
        rw [AList.lookup_replace_self _ hk₀] at hk
        cases hk
        show ack.aid.toNat ∈ q.ids
        rw [(quorumAdd_true hadd).2.2.1]
        exact Finset.mem_insert_self _ _

/-- An instance that waits for promises has no value yet. -/
theorem LoneProposer.blank (hl : LoneProposer b r calls attached) {k : UInt32} {inst : Instance}
    (hk : r.proposer.prepareInstances.lookup k = some inst) : inst.Blank attached k := by
  rcases hl.order.prepare k inst hk with hblank | ⟨v, -, hmem, -⟩
  · exact hblank
  · exact absurd hmem ((hl.waiting k inst hk).2.2 v)

/-- A pending instance asks for what its requests say. -/
theorem LoneProposer.requests (hl : LoneProposer b r calls attached) {m : PaxosMessage}
    (hm : r.proposer.Requests m) :
    (∃ k, 0 < k ∧ k ≤ r.proposer.nextPrepareIid ∧ m = .prepare (prepareAt b.toUInt16 k)) ∨
      ∃ kv ∈ attached, m = .accept (acceptAt b.toUInt16 kv.1 kv.2) := by
  rcases hm with ⟨k, inst, hk, rfl⟩ | ⟨k, inst, v, hk, hv, rfl⟩
  · obtain ⟨hpos, hb, -⟩ := hl.waiting k inst hk
    refine .inl ⟨k, hpos, hl.sound.sequential.prepare k inst hk, ?_⟩
    unfold prepareOf prepareAt
    rw [hb, (hl.sound.wellFormed.prepare k inst hk).1]
  · obtain ⟨w, hw, hmem, hpromised⟩ := hl.order.accept k inst hk
    refine .inr ⟨(k, w), hmem, ?_⟩
    have hvw : v = w := by
      unfold Instance.proposed at hv
      cases hp : inst.promisedValue with
      | none =>
        rw [hp, hw] at hv
        exact (Option.some.inj hv).symm
      | some u =>
        rw [hp] at hv
        obtain rfl := Option.some.inj hv
        exact hpromised _ hp
    unfold acceptOf acceptAt
    rw [hl.asking k inst hk, (hl.sound.wellFormed.accept k inst hk).1, hvw]

/-- The requests that a call hands out. -/
theorem LoneProposer.sent_now (hl : LoneProposer b r calls attached)
    {new : List (UInt32 × PaxosValue)} (hm : LoneMove r.proposer p' out new) {m : PaxosMessage}
    (hmem : m ∈ out) :
    (∃ k, 0 < k ∧ k ≤ p'.nextPrepareIid ∧ m = .prepare (prepareAt b.toUInt16 k)) ∨
      ∃ kv ∈ new ++ attached, m = .accept (acceptAt b.toUInt16 kv.1 kv.2) := by
  cases hm with
  | keeps h =>
    rcases hl.requests (h.out m hmem) with ⟨k, hpos, hle, rfl⟩ | hasked
    · exact .inl ⟨k, hpos, h.next ▸ hle, rfl⟩
    · exact .inr hasked
  | created now hpos =>
    refine .inl ⟨_, hpos, UInt32.le_refl _, ?_⟩
    rw [List.mem_singleton.mp hmem, ← hl.base]
    rfl
  | @accepting inst v values hk =>
    refine .inr ⟨(inst.iid, v), List.mem_cons_self, ?_⟩
    rw [List.mem_singleton.mp hmem, ← (hl.waiting _ _ hk).2.1]
    rfl

/-- A value is attached to an instance that was waiting. -/
theorem LoneProposer.positive_now (hl : LoneProposer b r calls attached)
    {new : List (UInt32 × PaxosValue)} (hm : LoneMove r.proposer p' out new) :
    ∀ kv ∈ new, 0 < kv.1 := by
  intro kv hkv
  cases hm with
  | keeps | created => cases hkv
  | accepting hk =>
    obtain rfl := List.mem_singleton.mp hkv
    exact (hl.waiting _ _ hk).1

/-- The requests for the instances up to the next id, and where they are. -/
theorem LoneProposer.opened_now (hl : LoneProposer b r calls attached)
    {new : List (UInt32 × PaxosValue)} (hm : LoneMove r.proposer p' out new) {k : UInt32}
    (hpos : 0 < k) (hle : k ≤ p'.nextPrepareIid) :
    .prepare (prepareAt b.toUInt16 k) ∈ out ++ r.emitted ∧
      (k ∈ p'.prepareInstances ∨ ∃ v, (k, v) ∈ new ++ attached) := by
  -- an instance that was there already
  have hold : k ≤ r.proposer.nextPrepareIid →
      (k ∈ r.proposer.prepareInstances → k ∈ p'.prepareInstances ∨ ∃ v, (k, v) ∈ new) →
      .prepare (prepareAt b.toUInt16 k) ∈ out ++ r.emitted ∧
        (k ∈ p'.prepareInstances ∨ ∃ v, (k, v) ∈ new ++ attached) := by
    intro hle hwaits
    obtain ⟨hsent, hplace⟩ := hl.opened k hpos hle
    refine ⟨List.mem_append_right _ hsent, ?_⟩
    rcases hplace with hmem | ⟨v, hv⟩
    · rcases hwaits hmem with hmem | ⟨v, hv⟩
      · exact .inl hmem
      · exact .inr ⟨v, List.mem_append_left _ hv⟩
    · exact .inr ⟨v, List.mem_append_right _ hv⟩
  cases hm with
  | keeps h => exact hold (h.next ▸ hle) fun hmem => .inl (h.waits k hmem)
  | created now hnext =>
    by_cases heq : k = r.proposer.nextPrepareIid + 1
    · subst heq
      refine ⟨List.mem_append_left _ (List.mem_singleton.mpr ?_), .inl ?_⟩
      · rw [← hl.base]
        rfl
      · exact (AList.mem_insert _).mpr (.inl rfl)
    · have hlt : k < r.proposer.nextPrepareIid + 1 := UInt32.lt_of_le_of_ne hle heq
      refine hold ?_ fun hmem => .inl ((AList.mem_insert _).mpr (.inr hmem))
      have hsucc := UInt32.lt_iff_toNat_lt.mp (lt_add_one_of_pos hnext)
      have hlt := UInt32.lt_iff_toNat_lt.mp hlt
      rw [UInt32.le_iff_toNat_le]
      rw [UInt32.toNat_add, UInt32.toNat_one] at hlt hsucc
      have := r.proposer.nextPrepareIid.toNat_lt
      omega
  | @accepting inst v values hk =>
    refine hold hle fun hmem => ?_
    by_cases heq : k = inst.iid
    · exact .inr ⟨v, List.mem_singleton.mpr (by rw [heq])⟩
    · exact .inl (AList.mem_erase.mpr ⟨heq, hmem⟩)

/-- The accept requests for the values attached. -/
theorem LoneProposer.asked_now (hl : LoneProposer b r calls attached)
    {new : List (UInt32 × PaxosValue)} (hm : LoneMove r.proposer p' out new) :
    ∀ kv ∈ new ++ attached, .accept (acceptAt b.toUInt16 kv.1 kv.2) ∈ out ++ r.emitted := by
  intro kv hkv
  rcases List.mem_append.mp hkv with hnew | hold
  · cases hm with
    | keeps | created => cases hnew
    | accepting hk =>
      obtain rfl := List.mem_singleton.mp hnew
      refine List.mem_append_left _ (List.mem_singleton.mpr ?_)
      rw [← (hl.waiting _ _ hk).2.1]
      rfl
  · exact List.mem_append_right _ (hl.asked kv hold)

/-- A call that is not about trimming. -/
theorem LoneProposer.step_alone (hl : LoneProposer b r calls attached)
    (hop : Lone b attached r.proposer op) (halone : Alone attached op)
    (h : r.step config op = .ok r') :
    LoneProposer b r' (op :: calls) (attachedBy r.proposer r'.proposer ++ attached) := by
  obtain ⟨⟨p, out⟩, hstep, h⟩ := Except.bind_eq_ok.mp h
  cases h
  have hmove := hl.sound.move hstep
  have hm := LoneMove.of_move hop (fun k inst hk => ⟨(hl.waiting k inst hk).2.1,
    (hl.blank hk).1, (hl.blank hk).2.1⟩) hmove
  have hnext := hmove.nextPrepareIid_le
  have hbase : proposerNextBallot p 0 = b := by
    rw [← hl.base]
    unfold proposerNextBallot
    rw [hmove.id_eq]
  have hsub : attached ⊆ attachedBy r.proposer p ++ attached := List.subset_append_right _ _
  refine
    { base := hbase
      sound := hl.sound.step config op halone.inOrder hstep
      order := hl.order.move hl.sound.wellFormed hl.sound.sequential halone ?_ hmove
      waiting := ?_
      asking := ?_
      undecided := hm.undecided hl.undecided
      sent := ?_
      positive := ?_
      opened := ?_
      asked := ?_
      promises := ?_
      votes := ?_ }
  · rintro rfl
    exact proposerAccept_smallest hstep
  · -- what is attached now does not wait any more
    intro k inst hk
    rcases hm.prepare_back k inst hk with ⟨old, hold, hb, -⟩ | ⟨hlt, hpos, hb⟩
    · obtain ⟨hpos, hbold, hno⟩ := hl.waiting k old hold
      refine ⟨hpos, hb.trans hbold, fun v hmem => ?_⟩
      rcases List.mem_append.mp hmem with hnew | hold'
      · exact hm.not_attached hk hnew
      · exact hno v hold'
    · refine ⟨hpos, hb.trans hl.base, fun v hmem => ?_⟩
      rcases List.mem_append.mp hmem with hnew | hold'
      · exact hm.not_attached hk hnew
      · exact absurd (hl.order.bounded _ hold') (UInt32.not_le.mpr hlt)
  · intro k inst hk
    rcases hm.accept_back k inst hk with ⟨old, hold, hb, -⟩ | ⟨old, hold, hb⟩
    · exact hb.trans (hl.asking k old hold)
    · exact hb.trans (hl.waiting k old hold).2.1
  · intro m hmem
    rcases List.mem_append.mp hmem with hnew | hold
    · exact hl.sent_now hm hnew
    · rcases hl.sent m hold with ⟨k, hpos, hle, rfl⟩ | ⟨kv, hkv, rfl⟩
      · exact .inl ⟨k, hpos, UInt32.le_trans hle hnext, rfl⟩
      · exact .inr ⟨kv, hsub hkv, rfl⟩
  · intro kv hkv
    rcases List.mem_append.mp hkv with hnew | hold
    · exact hl.positive_now hm kv hnew
    · exact hl.positive kv hold
  · exact fun k hpos hle => hl.opened_now hm hpos hle
  · exact hl.asked_now hm
  · intro now ack hmem
    rcases List.mem_cons.mp hmem with rfl | hold
    · refine ⟨UInt32.le_trans hop.2.1 hnext, fun inst hk => ?_⟩
      refine promise_counted (fun k inst hk => ?_) hstep hk
      rw [hop.1]
      exact (hl.waiting k inst hk).2.1
    · obtain ⟨hle, hcounted⟩ := hl.promises now ack hold
      refine ⟨UInt32.le_trans hle hnext, fun inst hk => ?_⟩
      rcases hm.prepare_back _ inst hk with ⟨old, hold, -, hids⟩ | ⟨hlt, -⟩
      · exact hids (hcounted old hold)
      · exact absurd hle (UInt32.not_le.mpr hlt)
  · intro ack hmem
    rcases List.mem_cons.mp hmem with rfl | hold
    · refine ⟨hsub hop.2, fun inst hk => ?_⟩
      refine vote_counted (fun k inst hk => ?_) hstep hk
      rw [hop.1]
      exact hl.asking k inst hk
    · obtain ⟨hattached, hcounted⟩ := hl.votes ack hold
      refine ⟨hsub hattached, fun inst hk => ?_⟩
      rcases hm.accept_back _ inst hk with ⟨old, hold, -, hids⟩ | ⟨old, hold, -⟩
      · exact hids (hcounted old hold)
      · exact absurd hattached ((hl.waiting _ old hold).2.2 _)

/-- **Every call keeps it.** -/
theorem LoneProposer.step (hl : LoneProposer b r calls attached)
    (hop : Lone b attached r.proposer op) (h : r.step config op = .ok r') :
    LoneProposer b r' (op :: calls) (attachedBy r.proposer r'.proposer ++ attached) := by
  rcases hop.alone with halone | ⟨state, rfl, hstate⟩
  · exact hl.step_alone hop halone h
  · cases h
    have hp := proposerReceiveAcceptorState_zero r.proposer hstate
    have hidle : ProposerMove r.proposer (.receiveAcceptorState state) r.proposer [] :=
      .idle rfl rfl
    show LoneProposer b { r with proposer := proposerReceiveAcceptorState r.proposer state } _
      (attachedBy r.proposer (proposerReceiveAcceptorState r.proposer state) ++ attached)
    rw [hp, hidle.attachedBy_eq_nil (.inr rfl)]
    exact
      { hl with
        promises := fun now ack hmem => hl.promises now ack (by simpa using hmem)
        votes := fun ack hmem => hl.votes ack (by simpa using hmem) }

/-- What a proposer without rivals goes on to: more calls, more values attached. -/
structure LoneProposer.Grows (b : UInt32) (r r' : LoggedProposer) (calls calls' : List ProposerOp)
    (attached attached' : List (UInt32 × PaxosValue)) : Prop where
  lone : LoneProposer b r' calls' attached'
  calls : calls ⊆ calls'
  attached : attached ⊆ attached'
  next : r.proposer.nextPrepareIid ≤ r'.proposer.nextPrepareIid

theorem LoneProposer.grows_step (hl : LoneProposer b r calls attached)
    (hop : Lone b attached r.proposer op) (h : r.step config op = .ok r') :
    Grows b r r' calls (op :: calls) attached
      (attachedBy r.proposer r'.proposer ++ attached) where
  lone := hl.step hop h
  calls := List.subset_cons_self _ _
  attached := List.subset_append_right _ _
  next := by
    obtain ⟨⟨p, out⟩, hstep, h⟩ := Except.bind_eq_ok.mp h
    cases h
    exact (hl.sound.move hstep).nextPrepareIid_le

theorem LoneProposer.Grows.trans {r₁ r₂ : LoggedProposer} {calls₁ calls₂ : List ProposerOp}
    {attached₁ attached₂ : List (UInt32 × PaxosValue)}
    (h : Grows b r r₁ calls calls₁ attached attached₁)
    (h' : Grows b r₁ r₂ calls₁ calls₂ attached₁ attached₂) :
    Grows b r r₂ calls calls₂ attached attached₂ :=
  ⟨h'.lone, List.Subset.trans h.calls h'.calls, List.Subset.trans h.attached h'.attached,
    UInt32.le_trans h.next h'.next⟩

theorem ProposerOp.Own.lone (h : op.Own) (b : UInt32) (attached : List (UInt32 × PaxosValue))
    (p : Proposer) : Lone b attached p op := by
  cases op with
  | prepare | accept | timeoutIteratorPrepare | timeoutIteratorAccept => trivial
  | _ => exact h.elim

/-- Calls on a handler's own behalf. -/
theorem LoneProposer.run_own {ops : List ProposerOp} (hl : LoneProposer b r calls attached)
    (hown : ∀ op ∈ ops, op.Own) (h : r.run config ops = .ok r') :
    ∃ calls' attached', Grows b r r' calls calls' attached attached' := by
  induction ops generalizing r calls attached with
  | nil =>
    cases h
    exact ⟨calls, attached, hl, List.Subset.refl _, List.Subset.refl _, UInt32.le_refl _⟩
  | cons op ops ih =>
    obtain ⟨r₁, hop, h⟩ := Except.bind_eq_ok.mp h
    obtain ⟨hfirst, hrest⟩ := List.forall_mem_cons.mp hown
    have hgrows := hl.grows_step (hfirst.lone b attached r.proposer) hop
    obtain ⟨calls', attached', hgrows'⟩ := ih hgrows.lone hrest h
    exact ⟨calls', attached', hgrows.trans hgrows'⟩

/-- **Every handler keeps it**, and the call for its event is among those made. -/
theorem LoneProposer.handle {window : Int} {c : EvproposerCall}
    (hl : LoneProposer b r calls attached) (hop : ∀ op ∈ c.op, Lone b attached r.proposer op)
    (h : r.handle config window c = some r') :
    ∃ calls' attached', Grows b r r' calls calls' attached attached' ∧
      ∀ op ∈ c.op, op ∈ calls' := by
  obtain ⟨ops, hown, hrun⟩ := LoggedProposer.handle_run h
  cases hc : c.op with
  | none =>
    rw [hc] at hrun
    obtain ⟨calls', attached', hgrows⟩ := hl.run_own hown hrun
    exact ⟨calls', attached', hgrows, fun op hop => by cases hop⟩
  | some op =>
    rw [hc] at hrun
    obtain ⟨r₁, hfirst, hrest⟩ := Except.bind_eq_ok.mp hrun
    have hgrows := hl.grows_step (hop op hc) hfirst
    obtain ⟨calls', attached', hgrows'⟩ := hgrows.lone.run_own hown hrest
    refine ⟨calls', attached', hgrows.trans hgrows', ?_⟩
    rintro _ ⟨⟩
    exact hgrows'.calls List.mem_cons_self

/-- A value is attached to one instance, and an instance has one value. -/
theorem LoneProposer.attached_unique {b : UInt32} {r : LoggedProposer}
    (hl : LoneProposer b r calls attached) {kv kv' : UInt32 × PaxosValue} (h : kv ∈ attached)
    (h' : kv' ∈ attached) (heq : kv.1 = kv'.1) : kv = kv' := by
  have hnodup : (attached.map Prod.fst).Nodup :=
    hl.order.sorted.imp fun hlt => (UInt32.ne_of_lt hlt).symm
  exact List.inj_on_of_nodup_map hnodup h h' heq

end Step

end LibPaxos
