import LibPaxos.ProposerBallots

/-!
# What a proposer of a cluster keeps

The ballot invariant and what goes with it, collected in one invariant. A proposer driven by the
event handlers creates its instances in order: a new one is ahead of all ids that accepts were
requested for.

* **`LoggedProposer.Inv.step`** — every call that creates instances afresh keeps the invariant.
* **`LoggedProposer.Ordered.freshCreation`** — in-order calls do.
-/

namespace LibPaxos

open Proposer

/-- The invariant of a proposer with the given id and acceptor count. -/
structure LoggedProposer.Inv (id : UInt32) (n : Nat) (r : LoggedProposer) : Prop
    extends r.BallotInv id where
  acceptors_eq : r.proposer.acceptors = n
  announced : r.proposer.prepareInstances.All fun _ inst => .prepare (prepareOf inst) ∈ r.emitted
  unadopted : r.proposer.prepareInstances.All fun _ inst =>
    inst.promisedValue = none → inst.valueBallot = 0
  requests : ∀ m ∈ r.emitted, m.isRequest = true

theorem LoggedProposer.inv_fresh (id : UInt32) (n : Nat) : (fresh id n).Inv id n where
  id_eq := rfl
  wellFormed := proposerNew_wellFormed id n
  ballots := proposerNew_ballotInv id n
  acceptors_eq := rfl
  announced := AList.all_empty
  unadopted := AList.all_empty
  requests m hm := by cases hm

section Move

variable {p p' : Proposer} {op : ProposerOp} {out : List PaxosMessage}

theorem prepareOf_adoptPromise (inst : Instance) (ack : PaxosPromise) :
    prepareOf (adoptPromise inst ack) = prepareOf inst := by
  unfold prepareOf
  rw [adoptPromise_iid, adoptPromise_ballot]

theorem adoptPromise_unadopted {inst : Instance} (ack : PaxosPromise)
    (h : inst.promisedValue = none → inst.valueBallot = 0) :
    (adoptPromise inst ack).promisedValue = none → (adoptPromise inst ack).valueBallot = 0 := by
  unfold adoptPromise
  split
  · intro hn
    cases hn
  · exact h

theorem ProposerMove.requests (hm : ProposerMove p op p' out) : ∀ m ∈ out, m.isRequest = true := by
  intro m hmem
  cases hm with
  | created | preempted | accepting | demoted | retriedPrepare | retriedAccept =>
    obtain rfl := List.mem_singleton.mp hmem
    rfl
  | idle | heard | queued | promised | acked | closed | trimmed | rehashed => cases hmem

/-- An accept request is for an instance that was prepared. -/
theorem ProposerMove.accept_bounded (hs : p.Sequential) (hw : p.WellFormed)
    (hm : ProposerMove p op p' out) : ∀ a ∈ acceptsOf out, a.iid ≤ p.nextPrepareIid := by
  intro a ha
  cases hm with
  | accepting hk _ _ _ _ =>
    obtain rfl := List.mem_singleton.mp ha
    exact hs.prepare _ _ hk
  | retriedAccept hk _ =>
    obtain rfl := List.mem_singleton.mp ha
    show (acceptOf _ _).iid ≤ _
    rw [acceptOf, (hw.accept _ _ hk).1]
    exact hs.accept _ _ hk
  | idle | heard | queued | created | preempted | promised | acked | closed | demoted | trimmed
  | retriedPrepare | rehashed => cases ha

/-- The prepare request of every waiting instance has been emitted. -/
theorem ProposerMove.announced {E : List PaxosMessage} (hm : ProposerMove p op p' out)
    (h : p.prepareInstances.All fun _ inst => .prepare (prepareOf inst) ∈ E) :
    p'.prepareInstances.All fun _ inst => .prepare (prepareOf inst) ∈ out ++ E := by
  have hold : p.prepareInstances.All fun _ inst => .prepare (prepareOf inst) ∈ out ++ E :=
    h.mono fun _ _ hin => List.mem_append_right _ hin
  cases hm with
  | created _ _ _ => exact hold.insert (List.mem_append_left _ List.mem_cons_self)
  | preempted hk _ =>
    exact hold.replace (AList.mem_of_lookup hk) (List.mem_append_left _ List.mem_cons_self)
  | promised hk _ _ =>
    have hin := hold _ _ hk
    refine hold.replace (AList.mem_of_lookup hk) ?_
    rw [prepareOf_adoptPromise]
    exact hin
  | accepting => exact hold.erase _
  | demoted _ _ _ _ => exact hold.insert (List.mem_append_left _ List.mem_cons_self)
  | trimmed => exact hold.filter _
  | retriedPrepare hk =>
    have hin := hold _ _ hk
    exact hold.replace (AList.mem_of_lookup hk) hin
  | rehashed hpp _ => exact hold.of_perm hpp
  | idle | heard | queued | acked | closed | retriedAccept => exact hold

theorem ProposerMove.unadopted (hm : ProposerMove p op p' out)
    (h : p.prepareInstances.All fun _ inst => inst.promisedValue = none → inst.valueBallot = 0) :
    p'.prepareInstances.All fun _ inst => inst.promisedValue = none → inst.valueBallot = 0 := by
  cases hm with
  | created _ _ _ => exact h.insert fun _ => rfl
  | preempted hk _ => exact h.replace (AList.mem_of_lookup hk) fun _ => rfl
  | promised hk _ _ =>
    have hin := h _ _ hk
    exact h.replace (AList.mem_of_lookup hk) (adoptPromise_unadopted _ hin)
  | accepting => exact h.erase _
  | demoted _ _ _ _ => exact h.insert fun _ => rfl
  | trimmed => exact h.filter _
  | retriedPrepare hk =>
    have hin := h _ _ hk
    exact h.replace (AList.mem_of_lookup hk) hin
  | rehashed hpp _ => exact h.of_perm hpp
  | idle | heard | queued | acked | closed | retriedAccept => exact h

end Move

/-- **Calls keep the invariant**, if they create instances only for ids without accept requests. -/
theorem LoggedProposer.Inv.step {config : PaxosConfig} {id : UInt32} {n : Nat}
    {r r' : LoggedProposer} {op : ProposerOp} (hi : r.Inv id n) (hid : id.toNat < 2 ^ 31)
    (hf : r.FreshCreation op) (h : r.step config op = .ok r') : r'.Inv id n := by
  have hb := hi.toBallotInv.step hid hf h
  obtain ⟨p, out, hm, rfl⟩ := step_ok hi.wellFormed h
  refine ⟨hb, hm.acceptors_eq.trans hi.acceptors_eq, hm.announced hi.announced,
    hm.unadopted hi.unadopted, fun m hmem => ?_⟩
  rcases List.mem_append.mp hmem with hnew | hold
  · exact hm.requests m hnew
  · exact hi.requests m hold

/-! ## In order -/

/-- Everything pending or requested is at or below the last id prepared. -/
structure LoggedProposer.Ordered (r : LoggedProposer) : Prop where
  sequential : r.proposer.Sequential
  bounded : ∀ a ∈ acceptsOf r.emitted, a.iid ≤ r.proposer.nextPrepareIid

theorem LoggedProposer.ordered_fresh (id : UInt32) (n : Nat) : (fresh id n).Ordered where
  sequential := proposerNew_sequential id n
  bounded a ha := by cases ha

section Ordered

variable {r r' : LoggedProposer} {op : ProposerOp}

/-- A proposer does not prepare past the last instance id. -/
theorem LoggedProposer.next_pos_of_prepare {config : PaxosConfig} {now : Int}
    (h : r.step config (.prepare now) = .ok r') : 0 < r.proposer.nextPrepareIid + 1 := by
  obtain ⟨⟨p, out⟩, hs, -⟩ := Except.bind_eq_ok.mp h
  obtain ⟨⟨p₁, out₁⟩, hprep, -⟩ := Except.bind_eq_ok.mp hs
  obtain ⟨inst, hnew, -⟩ := Except.bind_eq_ok.mp hprep
  exact (instanceNew_ok hnew).1

/-- The next id has no accept requests yet. -/
theorem LoggedProposer.Ordered.freshCreation {config : PaxosConfig} (ho : r.Ordered)
    (hop : op.InOrder) (h : r.step config op = .ok r') : r.FreshCreation op := by
  cases op with
  | prepare now =>
    intro a ha heq
    have hlt := lt_add_one_of_pos (LoggedProposer.next_pos_of_prepare h)
    exact UInt32.not_le.mpr hlt (heq ▸ ho.bounded a ha)
  | prepareInstance => exact hop.elim
  | _ => trivial

/-- In-order calls stay in order. -/
theorem LoggedProposer.Ordered.step {config : PaxosConfig} (ho : r.Ordered)
    (hw : r.proposer.WellFormed) (hop : op.InOrder) (h : r.step config op = .ok r') :
    r'.Ordered := by
  obtain ⟨p, out, hm, rfl⟩ := step_ok hw h
  refine ⟨ho.sequential.move hop.tidy hm, fun a ha => ?_⟩
  show a.iid ≤ p.nextPrepareIid
  have hle := hm.nextPrepareIid_le
  rw [acceptsOf_append] at ha
  rcases List.mem_append.mp ha with hnew | hold
  · exact UInt32.le_trans (hm.accept_bounded ho.sequential hw a hnew) hle
  · exact UInt32.le_trans (ho.bounded a hold) hle

end Ordered

end LibPaxos
