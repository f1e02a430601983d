import LibPaxos.EvPaxos.Delivery

/-!
# Replicas and client values

A replica is a collocated acceptor, proposer and learner. What the learner delivers is passed on to
the proposer, which then jumps ahead and drops its instances up to there; the own values of the
instances dropped are queued again.

* **`value_chosen_once`** — if no instance with an own value is dropped and proposers take in
  accepted messages with the ballot of the vote, a value that is submitted once is chosen in one
  instance at most.
* **`value_chosen_twice`** — a value that was adopted by another proposer is queued again.
-/

namespace LibPaxos

open Proposer

/-! ## The place of a client value

An own value stays with its instance until the instance is decided, closed with another value or
dropped. Only in the last two cases does it go back into the queue. -/

section Holds

variable {h h' : KHash Instance} {i k : UInt32} {v : PaxosValue} {x y : Instance}

theorem Proposer.Holds.insert (hh : Holds h i v) (hk : h.lookup k = none) :
    Holds (h.insert k x) i v := by
  obtain ⟨inst, hi, hv⟩ := hh
  refine ⟨inst, ?_, hv⟩
  rw [AList.lookup_insert_cases, if_neg]
  · exact hi
  · rintro rfl
    exact absurd (hk.symm.trans hi) (by simp)

theorem Proposer.Holds.replace (hh : Holds h i v) (hk : h.lookup k = some x)
    (hxy : y.value = x.value) : Holds (h.replace k y) i v := by
  obtain ⟨inst, hi, hv⟩ := hh
  unfold Holds
  rw [AList.lookup_replace _ _ (AList.mem_of_lookup hk)]
  split
  · rename_i heq
    subst heq
    obtain rfl : x = inst := Option.some.inj (hk.symm.trans hi)
    exact ⟨y, rfl, hxy.trans hv⟩
  · exact ⟨inst, hi, hv⟩

theorem Proposer.Holds.erase (hh : Holds h i v) (hne : i ≠ k) : Holds (h.erase k) i v := by
  obtain ⟨inst, hi, hv⟩ := hh
  refine ⟨inst, ?_, hv⟩
  rw [AList.lookup_erase_cases, if_neg hne]
  exact hi

theorem Proposer.Holds.of_perm (hh : Holds h i v) (hp : h'.entries.Perm h.entries) :
    Holds h' i v := by
  obtain ⟨inst, hi, hv⟩ := hh
  exact ⟨inst, (AList.lookup_eq_of_perm hp i).trans hi, hv⟩

theorem Proposer.Holds.filter (hh : Holds h i v) {keep : Instance → Bool}
    (hkeep : ∀ inst, h.lookup i = some inst → inst.value = some v → keep inst = true) :
    Holds (h.filter keep) i v := by
  obtain ⟨inst, hi, hv⟩ := hh
  exact ⟨inst, AList.lookup_filter_eq_some.mpr ⟨hi, hkeep inst hi hv⟩, hv⟩

end Holds

/-- Jumping to `iid` drops no instance with an own value. -/
def Proposer.KeepsOwn (p : Proposer) (iid : UInt32) : Prop :=
  p.nextPrepareIid < iid →
    ∀ e ∈ p.prepareInstances.entries ++ p.acceptInstances.entries, e.2.iid ≤ iid → e.2.value = none

/-- The instance is closed with a value other than its own value `v`. -/
def Proposer.ClosesLost (p : Proposer) (op : ProposerOp) (i : UInt32) (v : PaxosValue) : Prop :=
  ∃ ack inst q w, op = .receiveAccepted ack ∧ ack.iid = i ∧ p.acceptInstances.lookup i = some inst ∧
    ack.ballot.toUInt32 = inst.ballot ∧ quorumAdd inst.quorum ack.aid.toNat = .ok (q, true) ∧
    quorumReached q = true ∧ inst.promisedValue = some w ∧ w ≠ v

/-- A sweep that drops no instance with an own value. -/
theorem Proposer.Holds.sweep {h : KHash Instance} {i iid : UInt32} {v : PaxosValue}
    (hh : Holds h i v)
    (hnone : ∀ inst, h.lookup i = some inst → inst.iid ≤ iid → inst.value = none) :
    Holds (h.filter fun inst => ¬ inst.iid ≤ iid) i v := by
  refine hh.filter fun inst hi hv => decide_eq_true fun hle => ?_
  exact absurd ((hnone inst hi hle).symm.trans hv) (by simp)

/-- An instance with an own value that is closed has proposed it, or a value that it was told. -/
theorem Proposer.decided_or_closesLost {p : Proposer} {ack : PaxosAccepted} {inst : Instance}
    {q : Quorum} {v : PaxosValue} (hk : p.acceptInstances.lookup ack.iid = some inst)
    (hb : ack.ballot.toUInt32 = inst.ballot)
    (hq : quorumAdd inst.quorum ack.aid.toNat = .ok (q, true)) (hr : quorumReached q = true)
    (hv : inst.value = some v) :
    (ack.iid, v) ∈ decidedBy p (.receiveAccepted ack) ∨
      p.ClosesLost (.receiveAccepted ack) ack.iid v := by
  by_cases hpv : inst.proposed = inst.value
  · left
    rw [decidedBy_closed hk hb hq hr, if_pos hpv, hv]
    exact List.mem_singleton.mpr rfl
  · right
    cases hw : inst.promisedValue with
    | none => exact absurd (by simp [Instance.proposed, hw]) hpv
    | some w =>
      refine ⟨ack, inst, q, w, rfl, rfl, hk, hb, hq, hr, hw, ?_⟩
      rintro rfl
      exact hpv (by simp [Instance.proposed, hw, hv])

/-- **Where an own value goes**: it stays with its instance, or the instance is closed, with the
value decided or lost. -/
theorem Proposer.Attached.move {p p' : Proposer} {op : ProposerOp} {out : List PaxosMessage}
    {i : UInt32} {v : PaxosValue} (h : p.Attached i v) (hm : ProposerMove p op p' out)
    (hkeep : ∀ iid, (op = .setInstanceId iid ∨ ∃ state, op = .receiveAcceptorState state ∧
      state.trimIid = iid) → p.KeepsOwn iid) :
    p'.Attached i v ∨ (i, v) ∈ decidedBy p op ∨ p.ClosesLost op i v := by
  cases hm with
  | created _ _ hnew => exact .inl (h.imp_left (·.insert hnew))
  | preempted hk _ => exact .inl (h.imp_left (·.replace hk rfl))
  | promised hk _ _ => exact .inl (h.imp_left (·.replace hk (adoptPromise_value _ _)))
  | @accepting inst value values w hk hq hnew ht hv =>
    left
    rcases h with hp | ha
    · by_cases heq : i = inst.iid
      · -- the instance that moves to the second phase takes its own value along
        obtain ⟨x, hx, hxv⟩ := hp
        rw [heq] at hx
        obtain rfl : inst = x := Option.some.inj (hk.symm.trans hx)
        rw [takeValue, hxv] at ht
        right
        rw [heq]
        exact ⟨_, AList.lookup_insert _, (congrArg Prod.fst ht).symm⟩
      · exact .inl (hp.erase heq)
    · exact .inr (ha.insert hnew)
  | acked hk _ _ _ => exact .inl (h.imp_right (·.replace hk rfl))
  | @closed ack inst q hk hb hq hr =>
    rcases h with hp | ha
    · exact .inl (.inl hp)
    · by_cases heq : i = ack.iid
      · obtain ⟨x, hx, hxv⟩ := ha
        rw [heq] at hx
        obtain rfl : inst = x := Option.some.inj (hk.symm.trans hx)
        rw [heq]
        exact .inr (decided_or_closesLost hk hb hq hr hxv)
      · exact .inl (.inr (ha.erase heq))
  | @demoted now ack inst hk hb hiid hnew =>
    left
    rcases h with hp | ha
    · exact .inl (hp.insert hnew)
    · by_cases heq : i = ack.iid
      · obtain ⟨x, hx, hxv⟩ := ha
        rw [heq] at hx
        obtain rfl : inst = x := Option.some.inj (hk.symm.trans hx)
        rw [heq]
        exact .inl ⟨_, AList.lookup_insert _, hxv⟩
      · exact .inr (ha.erase heq)
  | @trimmed _ iid maxTrimIid hop hlt =>
    -- what is dropped has no own value
    have hnone : p.KeepsOwn iid := by
      rcases hop with ⟨rfl, -⟩ | ⟨state, rfl, htrim, -⟩
      · exact hkeep iid (.inl rfl)
      · exact hkeep iid (.inr ⟨state, rfl, htrim⟩)
    replace hnone := hnone hlt
    left
    refine h.imp (fun hp => hp.sweep fun inst hi => ?_) (fun ha => ha.sweep fun inst hi => ?_)
    · exact hnone ⟨i, inst⟩ (List.mem_append_left _ (AList.mem_entries_iff.mpr hi))
    · exact hnone ⟨i, inst⟩ (List.mem_append_right _ (AList.mem_entries_iff.mpr hi))
  | retriedPrepare hk => exact .inl (h.imp_left (·.replace hk rfl))
  | retriedAccept hk _ => exact .inl (h.imp_right (·.replace hk rfl))
  | rehashed hpp hpa => exact .inl (h.imp (·.of_perm hpp) (·.of_perm hpa))
  | idle | heard | queued => exact .inl h

/-- Promised values are not empty. -/
structure Proposer.PromisedNonEmpty (p : Proposer) : Prop where
  prepare : p.prepareInstances.All fun _ inst => inst.promisedValue ≠ some []
  accept : p.acceptInstances.All fun _ inst => inst.promisedValue ≠ some []

theorem Proposer.PromisedNonEmpty.move {p p' : Proposer} {op : ProposerOp} {out : List PaxosMessage}
    (h : p.PromisedNonEmpty) (hm : ProposerMove p op p' out) : p'.PromisedNonEmpty := by
  obtain ⟨hp, ha⟩ := h
  cases hm with
  | created => exact ⟨hp.insert (by simp [newInstance]), ha⟩
  | preempted hk _ => exact ⟨hp.replace (AList.mem_of_lookup hk) (by simp [proposerPreempt]), ha⟩
  | @promised _ ack inst q hk _ _ =>
    have hinst := hp _ _ hk
    refine ⟨hp.replace (AList.mem_of_lookup hk) ?_, ha⟩
    -- a value is adopted only if it has a length
    unfold adoptPromise
    split
    · rename_i hlen
      intro heq
      rw [Option.some.inj heq] at hlen
      exact absurd hlen.1 (by simp)
    · exact hinst
  | @accepting inst value values v hk _ _ _ _ =>
    have hinst := hp _ _ hk
    exact ⟨hp.erase _, ha.insert hinst⟩
  | acked hk _ _ _ =>
    have hinst := ha _ _ hk
    exact ⟨hp, ha.replace (AList.mem_of_lookup hk) hinst⟩
  | closed => exact ⟨hp, ha.erase _⟩
  | demoted => exact ⟨hp.insert (by simp [proposerPreempt]), ha.erase _⟩
  | trimmed => exact ⟨hp.filter _, ha.filter _⟩
  | retriedPrepare hk =>
    have hinst := hp _ _ hk
    exact ⟨hp.replace (AList.mem_of_lookup hk) hinst, ha⟩
  | retriedAccept hk _ =>
    have hinst := ha _ _ hk
    exact ⟨hp, ha.replace (AList.mem_of_lookup hk) hinst⟩
  | rehashed hpp hpa => exact ⟨hp.of_perm hpp, ha.of_perm hpa⟩
  | idle | heard | queued => exact ⟨hp, ha⟩

/-! ## Counting

Since client values are conserved, a value that was submitted once is in one place. If it were
pending or decided in two instances, it would be counted twice. -/

/-- The own value of an instance with the id it is for. -/
def Proposer.Instance.placed (inst : Instance) : Option (UInt32 × PaxosValue) :=
  inst.value.map fun v => (inst.iid, v)

/-- Client values with the instance they are pending or decided in. -/
def LoggedProposer.placed (r : LoggedProposer) : Multiset (UInt32 × PaxosValue) :=
  r.proposer.prepareInstances.collect Instance.placed
    + r.proposer.acceptInstances.collect Instance.placed + ↑r.decided

/-- Two different elements with one image count twice. -/
theorem two_le_count_map {α β : Type} [DecidableEq α] [DecidableEq β] {f : α → β} {m : Multiset α}
    {x y : α} (hx : x ∈ m) (hy : y ∈ m) (hne : x ≠ y) (hf : f x = f y) :
    2 ≤ (m.map f).count (f x) := by
  obtain ⟨m', rfl⟩ := Multiset.exists_cons_of_mem hx
  have hy' : y ∈ m' := (Multiset.mem_cons.mp hy).resolve_left hne.symm
  have hmem : f x ∈ m'.map f := hf ▸ Multiset.mem_map_of_mem f hy'
  rw [Multiset.map_cons, Multiset.count_cons_self]
  have := Multiset.one_le_count_iff_mem.mpr hmem
  omega

section Placed

variable {r : LoggedProposer} {i j : UInt32} {v : PaxosValue}

/-- `v` is pending or decided in the instance `i`. -/
def LoggedProposer.Live (r : LoggedProposer) (i : UInt32) (v : PaxosValue) : Prop :=
  r.proposer.Attached i v ∨ (i, v) ∈ r.decided

theorem LoggedProposer.Live.mem_placed (h : r.Live i v) (hw : r.proposer.WellFormed) :
    (i, v) ∈ r.placed := by
  unfold placed
  rcases h with (⟨inst, hk, hv⟩ | ⟨inst, hk, hv⟩) | hd
  · refine Multiset.mem_add.mpr (.inl (Multiset.mem_add.mpr (.inl (AList.mem_collect _ hk ?_))))
    rw [Instance.placed, hv, (hw.prepare _ _ hk).1]
    rfl
  · refine Multiset.mem_add.mpr (.inl (Multiset.mem_add.mpr (.inr (AList.mem_collect _ hk ?_))))
    rw [Instance.placed, hv, (hw.accept _ _ hk).1]
    rfl
  · exact Multiset.mem_add.mpr (.inr (Multiset.mem_coe.mpr hd))

/-- What was submitted is queued or has a place. -/
theorem LoggedProposer.Conserved.eq_placed (hc : r.Conserved) :
    (r.submitted : Multiset PaxosValue) = ↑r.proposer.values + r.placed.map Prod.snd := by
  have howned : ∀ h : KHash Instance, (h.collect Instance.placed).map Prod.snd = owned h := by
    intro h
    rw [AList.map_collect]
    unfold owned Instance.placed
    congr 1
    funext inst
    cases inst.value <;> rfl
  rw [hc, placed, Multiset.map_add, Multiset.map_add, howned, howned, Multiset.map_coe, add_assoc,
    add_assoc, add_assoc]

/-- A value in two places was submitted twice. -/
theorem LoggedProposer.Conserved.two_le_count (hc : r.Conserved) (hw : r.proposer.WellFormed)
    (hi : r.Live i v) (hj : r.Live j v) (hne : i ≠ j) :
    2 ≤ (r.submitted : Multiset PaxosValue).count v := by
  have htwo : 2 ≤ (r.placed.map Prod.snd).count v :=
    two_le_count_map (f := Prod.snd) (hi.mem_placed hw) (hj.mem_placed hw)
      (fun heq => hne (congrArg Prod.fst heq)) rfl
  rw [hc.eq_placed, Multiset.count_add]
  omega

theorem LoggedProposer.Conserved.mem_of_live (hc : r.Conserved) (hw : r.proposer.WellFormed)
    (h : r.Live i v) : v ∈ r.submitted := by
  rw [← Multiset.mem_coe, hc.eq_placed]
  exact Multiset.mem_add.mpr (.inr (Multiset.mem_map.mpr ⟨(i, v), h.mem_placed hw, rfl⟩))

end Placed

namespace Cluster

/-! ## Acknowledged votes

An instance closes when a quorum of acknowledgements is counted. If these carry the ballot of the
vote, they stand for votes at one ballot, and the value is chosen. -/

/-- The acks an instance in the second phase has counted stand for as many acceptors that voted for
its value at its ballot. -/
def AckEvidence (su : Setup) (s : Cluster) (i : UInt32) (inst : Proposer.Instance) : Prop :=
  ∃ S : Finset Nat, S ⊆ Finset.range su.acceptors ∧ S.card = inst.quorum.ids.card ∧
    ∀ a ∈ S, (UInt16.ofNat a).toNat ∈ inst.quorum.ids ∧
      ∃ v, inst.proposed = some v ∧ (s.acceptors a).Voted i inst.ballot.toUInt16 v

section Acks

variable {su : Setup} {s s' : Cluster} {e : Event} {p i : UInt32} {inst : Proposer.Instance}

theorem AckEvidence.mono (h : step su s e = some s') (ha : s.AckEvidence su i inst) :
    s'.AckEvidence su i inst := by
  obtain ⟨S, hS, hcard, hall⟩ := ha
  refine ⟨S, hS, hcard, fun a ha => ?_⟩
  obtain ⟨hid, v, hv, hvote⟩ := hall a ha
  exact ⟨hid, v, hv, voted_mono h hvote⟩

theorem ackEvidence_of_empty (s : Cluster) (i : UInt32) (h : inst.quorum.ids = ∅) :
    s.AckEvidence su i inst :=
  ⟨∅, Finset.empty_subset _, by rw [h], by simp⟩

/-- One more ack. The vote it tells of is for the value that was asked for at the ballot. -/
theorem AckEvidence.add (ha : s.AckEvidence su i inst) (hi : s.CoreInv su)
    (hk : (s.proposers p).proposer.acceptInstances.lookup i = some inst) {ack : PaxosAccepted}
    (hack : s.Acked su ack) (hiid : ack.iid = i) (hb : ack.ballot.toUInt32 = inst.ballot)
    {q : Quorum} (hq : quorumAdd inst.quorum ack.aid.toNat = .ok (q, true)) :
    s.AckEvidence su i { inst with quorum := q } := by
  obtain ⟨S, hS, hcard, hall⟩ := ha
  obtain ⟨a, hlt, haid, hvote⟩ := hack
  obtain ⟨hnot, -, hids, -⟩ := quorumAdd_true hq
  have hnew : a ∉ S := fun hmem => hnot (haid ▸ (hall a hmem).1)
  have hball : inst.ballot.toUInt16 = ack.ballot := by
    rw [← hb]
    exact UInt16.toUInt16_toUInt32 ack.ballot
  -- the request at this ballot is the proposer's own
  have hval : inst.proposed = some ack.value := by
    have hreq := (hi.inv.nodes.proposers p).ballots.accept _ _ hk
    obtain ⟨a₀, ha₀, hiid₀, hb₀⟩ := hreq.made
    obtain ⟨node, m, hm, hmi, hmb, hmv⟩ := hi.inv.nodes.requested _ _ _ _ hvote
    have hb₁ : a₀.ballot.toNat = m.ballot.toNat := by
      rw [hb₀, hmb, ← hb, UInt16.toNat_toUInt32]
    have hsent : .accept a₀ ∈ s.sent (.proposer p) := mem_acceptsOf.mp ha₀
    have hpos := hi.accept_pos hsent
    have heq := (hi.inv.safe hi.separate i).unique (.proposer p) node a₀.ballot.toNat a₀.value
      m.value ⟨hpos, a₀, hsent, hiid₀, rfl, rfl⟩ ⟨hpos, m, hm, hmi.trans hiid, hb₁.symm, rfl⟩
    rw [hreq.same a₀ ha₀ hiid₀ hb₀, heq, hmv]
  refine ⟨insert a S, Finset.insert_subset (Finset.mem_range.mpr hlt) hS, ?_, fun x hx => ?_⟩
  · show _ = q.ids.card
    rw [hids, Finset.card_insert_of_notMem hnew, Finset.card_insert_of_notMem hnot, hcard]
  · show (UInt16.ofNat x).toNat ∈ q.ids ∧ _
    rw [hids]
    rcases Finset.mem_insert.mp hx with rfl | hx
    · refine ⟨Finset.mem_insert.mpr (.inl (by rw [haid])), ack.value, hval, ?_⟩
      show (s.acceptors x).Voted i inst.ballot.toUInt16 ack.value
      rw [hball, ← hiid]
      exact hvote
    · obtain ⟨hid, v, hv, hvoted⟩ := hall x hx
      exact ⟨Finset.mem_insert_of_mem hid, v, hv, hvoted⟩

/-- A quorum of acks means that the value was chosen. -/
theorem AckEvidence.chosen (ha : s.AckEvidence su i inst) {v : PaxosValue}
    (hv : inst.proposed = some v) (hq : paxosQuorum su.acceptors ≤ inst.quorum.ids.card) :
    s.Chosen su i inst.ballot.toUInt16 v := by
  obtain ⟨S, hS, hcard, hall⟩ := ha
  refine ⟨S, hS, by omega, fun a ha => ?_⟩
  obtain ⟨-, w, hw, hvote⟩ := hall a ha
  obtain rfl : w = v := Option.some.inj (hw.symm.trans hv)
  exact hvote

end Acks

/-! ## At most one instance

For every accept request that was sent, its value is live in that instance at some proposer, or
another value is chosen there. If a value were chosen in two instances, it would be live in both. -/

/-- The proposer is told only of an instance that the learner has delivered. -/
def ToldDelivered (r : LoggedLearner) : ProposerOp → Prop
  | .setInstanceId iid => iid ∈ r.delivered.map (·.iid)
  | _ => True

/-- The calls of replicas: proposers go by the numbers of the replicas, and each is told what the
learner of its replica delivers. -/
def ReplicaHandlers (su : Setup) (s : Cluster) : Event → Prop
  | .proposer p src op => s.EvHandlers (.proposer p src op) ∧ p.toNat < su.acceptors ∧
    ToldDelivered (s.learners p.toNat) op
  | e => s.EvHandlers e

/-- No proposer drops an instance with an own value, and accepted messages that a proposer takes in
carry the ballot of the vote. -/
def SafeHandover (s : Cluster) : Event → Prop
  | .proposer p _ (.setInstanceId iid) => (s.proposers p).proposer.KeepsOwn iid
  | .proposer p _ (.receiveAcceptorState state) => (s.proposers p).proposer.KeepsOwn state.trimIid
  | .proposer _ _ (.receiveAccepted ack) => ack.valueBallot = ack.ballot
  | _ => True

/-- Where a value that was asked for in the instance `i` is now: pending or decided there, or the
instance has chosen another value. -/
def Settled (su : Setup) (s : Cluster) (i : UInt32) (v : PaxosValue) : Prop :=
  (∃ p, (s.proposers p).Live i v) ∨ ∃ b w, w ≠ [] ∧ w ≠ v ∧ s.Chosen su i b w

/-- What such a run keeps. -/
structure ReplicaInv (su : Setup) (s : Cluster) : Prop where
  values : s.ValueInv su
  promised : ∀ p, (s.proposers p).proposer.PromisedNonEmpty
  acks : ∀ p, (s.proposers p).proposer.acceptInstances.All (s.AckEvidence su)
  settled : ∀ node a, .accept a ∈ s.sent node → s.Settled su a.iid a.value

section Replica

variable {su : Setup} {s s' : Cluster} {e : Event}

theorem ReplicaHandlers.evHandlers (h : s.ReplicaHandlers su e) : s.EvHandlers e := by
  cases e with
  | proposer => exact h.1
  | acceptor | learner => exact h

theorem Chosen.mono (h : step su s e = some s') {i : UInt32} {b : UInt16} {v : PaxosValue}
    (hc : s.Chosen su i b v) : s'.Chosen su i b v :=
  ChosenBy.mono (fun _ _ _ _ => voted_mono h) hc

/-- What proposers have counted in the second phase stays evidence. -/
theorem CoreInv.acks_move (hi : s.CoreInv su) {p : UInt32} {op : ProposerOp} {p' : Proposer}
    {out : List PaxosMessage} (hm : ProposerMove (s.proposers p).proposer op p' out)
    (hack : ∀ ack, op = .receiveAccepted ack → s.Acked su ack)
    (h : (s.proposers p).proposer.acceptInstances.All (s.AckEvidence su)) :
    p'.acceptInstances.All (s.AckEvidence su) := by
  cases hm with
  | accepting => exact h.insert (ackEvidence_of_empty s _ (ids_quorumClear _))
  | acked hk hb hq _ =>
    have hev := h _ _ hk
    exact h.replace (AList.mem_of_lookup hk) (hev.add hi hk (hack _ rfl) rfl hb hq)
  | closed | demoted => exact h.erase _
  | trimmed => exact h.filter _
  | retriedAccept hk _ =>
    have hev := h _ _ hk
    exact h.replace (AList.mem_of_lookup hk) hev
  | rehashed _ hpa => exact h.of_perm hpa
  | idle | heard | queued | created | preempted | promised | retriedPrepare => exact h

/-- An instance that closes with a value other than its own has chosen it. -/
theorem ReplicaInv.chosen_of_closesLost (hi : s.ReplicaInv su) {p : UInt32} {op : ProposerOp}
    {i : UInt32} {v : PaxosValue} (hack : ∀ ack, op = .receiveAccepted ack → s.Acked su ack)
    (h : (s.proposers p).proposer.ClosesLost op i v) :
    ∃ b w, w ≠ [] ∧ w ≠ v ∧ s.Chosen su i b w := by
  obtain ⟨ack, inst, q, w, rfl, hiid, hk, hb, hq, hr, hw, hne⟩ := h
  have hp := hi.values.core.inv.nodes.proposers p
  have hev := (hi.acks p _ _ hk).add hi.values.core hk (hack ack rfl) hiid hb hq
  refine ⟨_, w, ?_, hne, hev.chosen (by simp [Instance.proposed, hw]) ?_⟩
  · rintro rfl
    exact (hi.promised p).accept _ _ hk hw
  · have hacc : q.acceptors = su.acceptors := by
      rw [(quorumAdd_true hq).2.2.2, (hp.wellFormed.accept _ _ hk).2.1, hp.acceptors_eq]
    rw [← hacc]
    exact Quorum.le_card_of_reached hr

/-- A settled value stays settled. -/
theorem ReplicaInv.settled_step (hi : s.ReplicaInv su) (hsafe : s.SafeHandover e)
    (h : Cluster.step su s e = some s') {i : UInt32} {v : PaxosValue} (hs : s.Settled su i v) :
    s'.Settled su i v := by
  rcases hs with ⟨p, hlive⟩ | ⟨b, w, hw, hne, hc⟩
  · rcases proposers_step h p with heq | ⟨src, op, rfl, hr⟩
    · exact .inl ⟨p, heq.symm ▸ hlive⟩
    · obtain ⟨hen, -⟩ := step_cases h
      obtain ⟨p', out, hm, heq⟩ :=
        LoggedProposer.step_ok (hi.values.core.inv.nodes.proposers p).wellFormed hr
      have hack : ∀ ack, op = .receiveAccepted ack → s.Acked su ack := by
        rintro ack rfl
        exact hi.values.core.inv.nodes.acked (hen.2 _ rfl) hsafe
      have hkeep : ∀ iid, (op = .setInstanceId iid ∨ ∃ state, op = .receiveAcceptorState state ∧
          state.trimIid = iid) → (s.proposers p).proposer.KeepsOwn iid := by
        rintro iid (rfl | ⟨state, rfl, rfl⟩)
        · exact hsafe
        · exact hsafe
      rcases hlive with hatt | hdec
      -- the value stays attached, is decided, or its instance closes with another value
      · rcases hatt.move hm hkeep with hatt' | hdec | hlost
        · exact .inl ⟨p, .inl (by rw [heq]; exact hatt')⟩
        · exact .inl ⟨p, .inr (by rw [heq]; exact List.mem_append_left _ hdec)⟩
        · obtain ⟨b, w, hw, hne, hc⟩ := hi.chosen_of_closesLost hack hlost
          exact .inr ⟨b, w, hw, hne, hc.mono h⟩
      · exact .inl ⟨p, .inr ((LoggedProposer.subset_step hr).2.2 hdec)⟩
  · exact .inr ⟨b, w, hw, hne, hc.mono h⟩

theorem replicaInv_init (su : Setup) : (init su).ReplicaInv su where
  values := valueInv_init su
  promised _ := ⟨AList.all_empty, AList.all_empty⟩
  acks _ := AList.all_empty
  settled node a ha := by
    rw [sent_init] at ha
    cases ha

theorem ReplicaInv.step (hi : s.ReplicaInv su) (hok : s.EvHandlers e) (hsafe : s.SafeHandover e)
    (h : Cluster.step su s e = some s') : s'.ReplicaInv su := by
  refine ⟨hi.values.step hok h, fun p => ?_, fun p => ?_, fun node a ha => ?_⟩
  · rcases proposers_step h p with heq | ⟨src, op, rfl, hr⟩
    · rw [heq]
      exact hi.promised p
    · obtain ⟨p', out, hm, heq⟩ :=
        LoggedProposer.step_ok (hi.values.core.inv.nodes.proposers p).wellFormed hr
      rw [heq]
      exact (hi.promised p).move hm
  · have hmono : ∀ {t : KHash Proposer.Instance}, t.All (s.AckEvidence su) →
        t.All (s'.AckEvidence su) := fun ht => ht.mono fun _ _ => AckEvidence.mono h
    rcases proposers_step h p with heq | ⟨src, op, rfl, hr⟩
    · rw [heq]
      exact hmono (hi.acks p)
    · obtain ⟨hen, -⟩ := step_cases h
      obtain ⟨p', out, hm, heq⟩ :=
        LoggedProposer.step_ok (hi.values.core.inv.nodes.proposers p).wellFormed hr
      rw [heq]
      refine hmono (hi.values.core.acks_move hm ?_ (hi.acks p))
      rintro ack rfl
      exact hi.values.core.inv.nodes.acked (hen.2 _ rfl) hsafe
  · rcases hi.values.core.accept_step hok h ha with ⟨node₀, a₀, ha₀, hiid, hval⟩ | ⟨p, hatt⟩
    · rw [← hiid, ← hval]
      exact hi.settled_step hsafe h (hi.settled node₀ a₀ ha₀)
    · exact .inl ⟨p, .inl hatt⟩

end Replica

/-- The value was submitted once, to one proposer. -/
def SubmittedOnce (s : Cluster) (v : PaxosValue) : Prop :=
  ∃ p, ((s.proposers p).submitted : Multiset PaxosValue).count v = 1 ∧
    ∀ q, q ≠ p → v ∉ (s.proposers q).submitted

/-- **A value is chosen in one instance at most.** In every run of replicas in which no instance
with an own value is dropped and accepted messages are taken in with the ballot of the vote: a
non-empty value that was submitted once is not chosen in two instances. -/
theorem value_chosen_once (su : Setup) (s : Cluster)
    (hr : Reaches su (fun s e => s.ReplicaHandlers su e ∧ s.SafeHandover e) s) (v : PaxosValue)
    (hv : v ≠ []) (honce : s.SubmittedOnce v) (i j : UInt32) (b c : UInt16)
    (hi : s.Chosen su i b v) (hj : s.Chosen su j c v) : i = j := by
  have hinv : s.ReplicaInv su := hr.invariant (replicaInv_init su)
    fun _ hinv ⟨hok, hsafe⟩ hs => hinv.step hok.evHandlers hsafe hs
  -- a chosen value is pending or decided in its instance
  have hlive : ∀ {i b}, s.Chosen su i b v → ∃ p, (s.proposers p).Live i v := by
    intro i b hc
    obtain ⟨a, -, hvote⟩ := hc.exists_voted
    obtain ⟨node, m, hm, rfl, -, rfl⟩ := hinv.values.core.inv.nodes.requested _ _ _ _ hvote
    rcases hinv.settled node m hm with hlive | ⟨b', w, hw, hne, hc'⟩
    · exact hlive
    · exact absurd (hinv.values.core.chosen_eq hc' hw hc hv) hne
  obtain ⟨p, hone, hothers⟩ := honce
  have hplace : ∀ {i b}, s.Chosen su i b v → (s.proposers p).Live i v := by
    intro i b hc
    obtain ⟨q, hq⟩ := hlive hc
    by_cases heq : q = p
    · exact heq ▸ hq
    · have hq' := hinv.values.values q
      exact absurd (hq'.conserved.mem_of_live hq'.wellFormed hq)
        (hothers q heq)
  by_contra hne
  have := (hinv.values.values p).conserved.two_le_count (hinv.values.values p).wellFormed
    (hplace hi) (hplace hj) hne
  omega

instance (p : Proposer) (iid : UInt32) : Decidable (p.KeepsOwn iid) :=
  inferInstanceAs (Decidable (p.nextPrepareIid < iid →
    ∀ e ∈ p.prepareInstances.entries ++ p.acceptInstances.entries,
      e.2.iid ≤ iid → e.2.value = none))

instance (r : LoggedLearner) : DecidablePred (ToldDelivered r)
  | .setInstanceId iid => inferInstanceAs (Decidable (iid ∈ r.delivered.map (·.iid)))
  | .propose _ | .prepare _ | .prepareInstance _ _ | .receivePromise _ _ | .accept
  | .receiveAccepted _ | .receivePreempted _ _ | .receiveAcceptorState _
  | .timeoutIteratorPrepare _ | .timeoutIteratorAccept _ | .rehash _ _ => instDecidableTrue

instance (su : Setup) (s : Cluster) : DecidablePred (s.ReplicaHandlers su)
  | .proposer p src op => inferInstanceAs (Decidable (s.EvHandlers (.proposer p src op) ∧
      p.toNat < su.acceptors ∧ ToldDelivered (s.learners p.toNat) op))
  | .acceptor a src op => inferInstanceAs (Decidable (s.EvHandlers (.acceptor a src op)))
  | .learner l src op => inferInstanceAs (Decidable (s.EvHandlers (.learner l src op)))

instance (s : Cluster) : DecidablePred s.SafeHandover
  | .proposer p _ op =>
    match op with
    | .setInstanceId iid => inferInstanceAs (Decidable ((s.proposers p).proposer.KeepsOwn iid))
    | .receiveAcceptorState state =>
      inferInstanceAs (Decidable ((s.proposers p).proposer.KeepsOwn state.trimIid))
    | .receiveAccepted ack => inferInstanceAs (Decidable (ack.valueBallot = ack.ballot))
    | .propose _ | .prepare _ | .prepareInstance _ _ | .receivePromise _ _ | .accept
    | .receivePreempted _ _ | .timeoutIteratorPrepare _ | .timeoutIteratorAccept _
    | .rehash _ _ => instDecidableTrue
  | .acceptor _ _ _ | .learner _ _ _ => instDecidableTrue

/-- With few participants it can be checked whether a value was submitted once. -/
theorem submittedOnce_of_participants {su : Setup} {s : Cluster} {ok : Cluster → Event → Prop}
    {ns : List Node} (hr : Reaches su (fun s e => ok s e ∧ nodeOf e ∈ ns) s) {v : PaxosValue}
    (p : UInt32) (hp : ((s.proposers p).submitted : Multiset PaxosValue).count v = 1)
    (h : ∀ node ∈ ns, ∀ q, node = .proposer q → q ≠ p → v ∉ (s.proposers q).submitted) :
    s.SubmittedOnce v := by
  refine ⟨p, hp, fun q hq => ?_⟩
  by_cases hn : .proposer q ∈ ns
  · exact h _ hn q rfl hq
  · rw [proposers_eq_init hr hn]
    exact List.not_mem_nil

/-- A value adopted by a second proposer is chosen again, in the same instance. -/
theorem value_chosen_once_takeover :
    ∃ s : Cluster, s.Chosen { acceptors := 3 } 1 10 [1] ∧ s.Chosen { acceptors := 3 } 1 11 [1] ∧
      ∀ j c, s.Chosen { acceptors := 3 } j c [1] → j = 1 := by
  obtain ⟨s, hr, hs⟩ := Runs.exists_reaches_of_run (step { acceptors := 3 })
    (fun s e => (s.ReplicaHandlers { acceptors := 3 } e ∧ s.SafeHandover e) ∧ nodeOf e ∈
      [.acceptor 0, .acceptor 1, .acceptor 2, .proposer 0, .proposer 1])
    (init { acceptors := 3 }) (takeover ++ acceptRound 1 (acceptReq 1 11 [1]) [1, 2])
    (fun s => (∀ a ∈ ([0, 1] : List Nat), (s.acceptors a).Voted 1 10 [1]) ∧
      (∀ a ∈ ([1, 2] : List Nat), (s.acceptors a).Voted 1 11 [1]) ∧
      ((s.proposers 0).submitted : Multiset PaxosValue).count [1] = 1 ∧
      [1] ∉ (s.proposers 1).submitted) (by decide +kernel)
  obtain ⟨h₁₀, h₁₁, hone, hnot⟩ := of_decide_eq_true hs
  have hc : s.Chosen { acceptors := 3 } 1 10 [1] := chosenBy_of_voters [0, 1] (by decide) h₁₀
  have honce : s.SubmittedOnce [1] := by
    refine submittedOnce_of_participants hr 0 hone ?_
    simp [hnot]
  exact ⟨s, hc, chosenBy_of_voters [1, 2] (by decide) h₁₁, fun j c hj =>
    value_chosen_once _ s (hr.mono fun _ _ h => h.1) [1] (by decide) honce j 1 c 10 hj hc⟩

/-- The proposer `p` gets `v` accepted by the acceptors 0 and 1 in the instance `i`, at its base
ballot `b`. -/
def decideRound (p i : UInt32) (b : UInt16) (v : PaxosValue) : List Event :=
  [ownCall p (.prepare 0)] ++ promiseRound p i b [(0, 0, []), (1, 0, [])] ++ [ownCall p .accept] ++
  acceptRound p (acceptReq i b v) [0, 1]

/-- The learner of replica 0 gets the votes of the acceptors 0 and 1 for `v` and delivers, and the
proposer is told. -/
def deliverRound (i : UInt32) (b : UInt16) (v : PaxosValue) : List Event :=
  ackRound 0 [ackOf i b b 0 v, ackOf i b b 1 v] ++ [ownCall 0 (.setInstanceId i)]

/-- Proposer 0 gets its value accepted by acceptor 0 only and opens the next instance. Proposer 1
adopts the value, gets it chosen, and goes on with two values of its own. Replica 0 delivers the
three instances, and its proposer starts over after them. -/
def droppedInstance : List Event :=
  [ownCall 0 (.propose [1]), ownCall 0 (.prepare 0)] ++
  promiseRound 0 1 10 [(0, 0, []), (1, 0, [])] ++ [ownCall 0 .accept] ++
  acceptRound 0 (acceptReq 1 10 [1]) [0] ++ [ownCall 0 (.prepare 0)] ++
  [ownCall 1 (.prepare 0)] ++ promiseRound 1 1 11 [(0, 10, [1]), (1, 0, [])] ++
  [ownCall 1 .accept] ++ acceptRound 1 (acceptReq 1 11 [1]) [0, 1] ++
  [ownCall 1 (.propose [2]), ownCall 1 (.propose [3])] ++
  decideRound 1 2 11 [2] ++ decideRound 1 3 11 [3] ++
  deliverRound 1 11 [1] ++ deliverRound 2 11 [2] ++ deliverRound 3 11 [3] ++
  decideRound 0 4 10 [1]

/-- **A value is chosen twice.** The proposer drops the instance its value was chosen in before it
has heard of it, and queues the value again. -/
theorem value_chosen_twice :
    ¬ ∀ s, Reaches { acceptors := 3 } (fun s e => s.ReplicaHandlers { acceptors := 3 } e) s →
      ∀ v, v ≠ [] → s.SubmittedOnce v → ∀ i j b c, s.Chosen { acceptors := 3 } i b v →
        s.Chosen { acceptors := 3 } j c v → i = j := by
  obtain ⟨s, hr, hs⟩ := Runs.exists_reaches_of_run (step { acceptors := 3 })
    (fun s e => s.ReplicaHandlers { acceptors := 3 } e ∧ nodeOf e ∈
      [.acceptor 0, .acceptor 1, .proposer 0, .proposer 1, .learner 0])
    (init { acceptors := 3 }) droppedInstance
    (fun s => (∀ a ∈ ([0, 1] : List Nat), (s.acceptors a).Voted 1 11 [1]) ∧
      (∀ a ∈ ([0, 1] : List Nat), (s.acceptors a).Voted 4 10 [1]) ∧
      ((s.proposers 0).submitted : Multiset PaxosValue).count [1] = 1 ∧
      [1] ∉ (s.proposers 1).submitted) (by decide +kernel)
  obtain ⟨h₁, h₄, hone, hnot⟩ := of_decide_eq_true hs
  have honce : s.SubmittedOnce [1] := by
    refine submittedOnce_of_participants hr 0 hone ?_
    simp [hnot]
  intro hclaim
  exact absurd (hclaim s (hr.mono fun _ _ h => h.1) [1] (by decide) honce 1 4 11 10
    (chosenBy_of_voters [0, 1] (by decide) h₁) (chosenBy_of_voters [0, 1] (by decide) h₄))
    (by decide)

end Cluster

end LibPaxos
