import LibPaxos.ProposerValues
import LibPaxos.EvPaxos.Agreement

/-!
# Where requested values come from

A proposer asks for its own client value or for one that another request carried before. So every
value that is asked for, accepted or chosen was submitted by a client.

* **`CoreInv.accept_step`** — the two origins of an accept request.
* **`ValueInv`** — client values are conserved at every proposer and requests carry client values.
-/

namespace LibPaxos

open Proposer

/-- `v` is the own value of the instance `i` of the table. -/
def Proposer.Holds (h : KHash Instance) (i : UInt32) (v : PaxosValue) : Prop :=
  ∃ inst, h.lookup i = some inst ∧ inst.value = some v

/-- `v` is the own value of a pending instance with the id `i`. -/
def Proposer.Attached (p : Proposer) (i : UInt32) (v : PaxosValue) : Prop :=
  Holds p.prepareInstances i v ∨ Holds p.acceptInstances i v

theorem Proposer.Attached.mem_held {p : Proposer} {i : UInt32} {v : PaxosValue}
    (h : p.Attached i v) : v ∈ p.held := by
  unfold held
  rcases h with ⟨inst, hk, hv⟩ | ⟨inst, hk, hv⟩
  · exact Multiset.mem_add.mpr (.inl (Multiset.mem_add.mpr (.inr (AList.mem_collect _ hk hv))))
  · exact Multiset.mem_add.mpr (.inr (AList.mem_collect _ hk hv))

theorem LoggedProposer.Conserved.mem_submitted {r : LoggedProposer} (hc : r.Conserved)
    {v : PaxosValue} (h : v ∈ r.proposer.held) : v ∈ r.submitted := by
  rw [← Multiset.mem_coe, hc]
  exact Multiset.mem_add.mpr (.inl h)

namespace Cluster

section Origin

variable {su : Setup} {s s' : Cluster} {e : Event}

/-- A request that a proposer makes is for its own value, or carries on one that was made before. -/
theorem CoreInv.accept_move (hi : s.CoreInv su) {p : UInt32} {op : ProposerOp} {p' : Proposer}
    {out : List PaxosMessage} (hm : ProposerMove (s.proposers p).proposer op p' out)
    {a : PaxosAccept} (ha : a ∈ acceptsOf out) :
    (∃ node a₀, .accept a₀ ∈ s.sent node ∧ a₀.iid = a.iid ∧ a₀.value = a.value) ∨
      p'.Attached a.iid a.value := by
  have hp := hi.inv.nodes.proposers p
  cases hm with
  | @accepting inst value values v hk hq hnew ht hv =>
    obtain rfl := List.mem_singleton.mp ha
    cases hpv : inst.promisedValue with
    | none =>
      right
      refine .inr ⟨_, AList.lookup_insert _, ?_⟩
      show value = some v
      simpa [Instance.proposed, hpv] using hv
    | some w =>
      left
      -- the promised value was voted for, hence asked for
      obtain rfl : w = v := by simpa [Instance.proposed, hpv] using hv
      obtain ⟨S, -, -, -, hcol⟩ := hi.inv.prepared p _ _ hk
      obtain ⟨-, a, -, cb, -, hvote⟩ :=
        hcol.voted inst.valueBallot.toNat w (by rw [bestOf, hpv]; rfl)
      obtain ⟨node, m, hm, hiid, -, hval⟩ := hi.inv.nodes.requested _ _ _ _ hvote
      exact ⟨node, m, hm, hiid, hval⟩
  | @retriedAccept iter key inst v hk hv =>
    left
    obtain rfl := List.mem_singleton.mp ha
    obtain rfl : inst.iid = key := (hp.wellFormed.accept _ _ hk).1
    have hreq := hp.ballots.accept _ _ hk
    obtain ⟨a₀, ha₀, hiid, hb⟩ := hreq.made
    have hval : a₀.value = v := Option.some.inj ((hreq.same a₀ ha₀ hiid hb).symm.trans hv)
    exact ⟨.proposer p, a₀, mem_acceptsOf.mp ha₀, hiid, hval⟩
  | idle | heard | queued | created | preempted | promised | acked | closed | demoted | trimmed
  | retriedPrepare | rehashed => cases ha

/-- **The origin of a request**, in a run of the event handlers. -/
theorem CoreInv.accept_step (hi : s.CoreInv su) (hok : s.EvHandlers e)
    (h : Cluster.step su s e = some s') {node : Node} {a : PaxosAccept}
    (ha : .accept a ∈ s'.sent node) :
    (∃ node₀ a₀, .accept a₀ ∈ s.sent node₀ ∧ a₀.iid = a.iid ∧ a₀.value = a.value) ∨
      ∃ p, (s'.proposers p).proposer.Attached a.iid a.value := by
  have hi' := hi.step hok h
  rcases hi'.inv.nodes.accept_sender ha with ⟨q, rfl, hq⟩ | ⟨l, rfl, hl⟩
  · obtain ⟨-, ⟨b, src, op, rfl, rfl⟩ | ⟨p, src, op, r, rfl, hr, rfl⟩ | ⟨l, src, op, rfl, rfl⟩⟩ :=
      step_cases h
    · exact .inl ⟨.proposer q, a, ha, rfl, rfl⟩
    · rw [setProposer_proposers] at hq
      split at hq
      · rename_i heq
        obtain ⟨p', out, hm, rfl⟩ := LoggedProposer.step_ok (hi.inv.nodes.proposers p).wellFormed hr
        rw [acceptsOf_append] at hq
        rcases List.mem_append.mp hq with hnew | hold
        · rcases hi.accept_move hm hnew with horig | hatt
          · exact .inl horig
          · refine .inr ⟨p, ?_⟩
            rw [setProposer_proposers, if_pos rfl]
            exact hatt
        · exact .inl ⟨.proposer p, a, mem_acceptsOf.mp hold, rfl, rfl⟩
      · exact .inl ⟨.proposer q, a, mem_acceptsOf.mp hq, rfl, rfl⟩
    · exact .inl ⟨.proposer q, a, ha, rfl, rfl⟩
  · rw [hi'.silent l] at hl
    cases hl

end Origin

/-- Client values are conserved and requests carry client values. -/
structure ValueInv (su : Setup) (s : Cluster) : Prop where
  core : s.CoreInv su
  values : ∀ p, (s.proposers p).ValuesInv
  submitted : ∀ node a, .accept a ∈ s.sent node → ∃ p, a.value ∈ (s.proposers p).submitted

section Values

variable {su : Setup} {s s' : Cluster} {e : Event}

theorem valueInv_init (su : Setup) : (init su).ValueInv su where
  core := coreInv_init su
  values p := LoggedProposer.valuesInv_fresh p su.acceptors
  submitted node a ha := by
    rcases (nodes_init su).accept_sender ha with ⟨p, rfl, hm⟩ | ⟨l, rfl, hm⟩
    · cases hm
    · rw [init_emitted] at hm
      cases hm

theorem submitted_subset_step (h : step su s e = some s') (p : UInt32) :
    (s.proposers p).submitted ⊆ (s'.proposers p).submitted := by
  rcases proposers_step h p with heq | ⟨src, op, -, hr⟩
  · rw [heq]
    exact List.Subset.refl _
  · exact (LoggedProposer.subset_step hr).2.1

theorem ValueInv.step (hi : s.ValueInv su) (hok : s.EvHandlers e) (h : step su s e = some s') :
    s'.ValueInv su := by
  have hvalues : ∀ p, (s'.proposers p).ValuesInv := by
    intro p
    rcases proposers_step h p with heq | ⟨src, op, rfl, hr⟩
    · rw [heq]
      exact hi.values p
    · exact (hi.values p).step hok.2 hr
  refine ⟨hi.core.step hok h, hvalues, fun node a ha => ?_⟩
  rcases hi.core.accept_step hok h ha with ⟨node₀, a₀, ha₀, -, hval⟩ | ⟨p, hatt⟩
  · obtain ⟨p, hp⟩ := hi.submitted node₀ a₀ ha₀
    rw [hval] at hp
    exact ⟨p, submitted_subset_step h p hp⟩
  · exact ⟨p, (hvalues p).conserved.mem_submitted hatt.mem_held⟩

theorem Reaches.valueInv (hr : Reaches su EvHandlers s) : s.ValueInv su :=
  hr.invariant (valueInv_init su) fun _ hi hok hs => hi.step hok hs

end Values

end Cluster

end LibPaxos
