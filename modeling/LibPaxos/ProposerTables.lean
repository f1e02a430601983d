import LibPaxos.ProposerBallots

/-!
# Pending instances

The two tables of a proposer over whole runs: that no instance is pending in both phases, so that
the assertions on the tables hold, and that none is pending which the acceptors have trimmed.

* **`proposer_tables_apart`** — if `proposer_prepare_instance` is only asked for instances that
  were handed out before and are not in the second phase, the tables stay disjoint and every call
  returns.
* **`proposer_tables_overlap`** — otherwise an instance ends up in both tables, and
  `proposer_prepare` can meet its next id in the table.
* **`trimmed_instances_dropped`** — if a trim point is heard of in time, nothing up to it stays
  pending.
* **`trimmed_instance_pending`** — once pre-execution has passed the trim point, it stays.
-/

namespace LibPaxos

open Proposer

/-! ## One table an instance -/

/-- What the callers of `proposer.h` guarantee: acceptor ids are in range, and an instance is asked
for by an id from 1 on. -/
def ProposerOp.Admissible (p : Proposer) : ProposerOp → Prop
  | .receivePromise _ ack => ack.aid.toNat < p.acceptors
  | .receiveAccepted ack => ack.aid.toNat < p.acceptors
  | .prepareInstance _ iid => 1 ≤ iid
  | _ => True

/-- What keeps the tables apart in addition: there is a next id to prepare, and an instance is asked
for by its id only if it was handed out before and is not in the second phase. -/
def ProposerOp.Orderly (p : Proposer) : ProposerOp → Prop
  | .prepare _ => p.nextPrepareIid + 1 ≠ 0
  | .prepareInstance _ iid => iid ≤ p.nextPrepareIid ∧ p.acceptInstances.lookup iid = none
  | _ => True

section Conditions

variable {p : Proposer} {op : ProposerOp}

theorem ProposerOp.Admissible.aidBelow (ha : op.Admissible p) : op.AidBelow p.acceptors := by
  cases op with
  | receivePromise | receiveAccepted => exact ha
  | _ => trivial

theorem ProposerOp.Admissible.idPos (ha : op.Admissible p) (ho : op.Orderly p) : op.IdPos p := by
  cases op with
  | prepare => exact UInt32.pos_iff_ne_zero.mpr ho
  | prepareInstance => exact UInt32.lt_of_lt_of_le (by decide) ha
  | _ => trivial

theorem ProposerOp.Orderly.tidy (ho : op.Orderly p) : op.Tidy p := by
  cases op with
  | prepareInstance => exact ho
  | _ => trivial

end Conditions

/-- Well-formed tables, in order. -/
structure LoggedProposer.TablesInv (r : LoggedProposer) : Prop where
  wellFormed : r.proposer.WellFormed
  sequential : r.proposer.Sequential

theorem LoggedProposer.TablesInv.step {config : PaxosConfig} {r r' : LoggedProposer}
    {op : ProposerOp} (hi : r.TablesInv) (hop : op.Tidy r.proposer)
    (h : r.step config op = .ok r') : r'.TablesInv := by
  obtain ⟨p, out, hm, rfl⟩ := step_ok hi.wellFormed h
  exact ⟨hi.wellFormed.move hm, hi.sequential.move hop hm⟩

/-- **One table an instance.** In every run of admissible calls in which instances are prepared by
name only if they were handed out before and are not in the second phase, no id is in both tables,
every entry sits under the id of its instance, and the next such call returns: no assertion
fails. -/
theorem proposer_tables_apart (config : PaxosConfig) (id : UInt32) (n : Nat) (r : LoggedProposer)
    (hr : Runs.Reaches (LoggedProposer.stepOption config)
      (fun r op => op.Admissible r.proposer ∧ op.Orderly r.proposer) (.fresh id n) r) :
    (∀ k, ¬ (k ∈ r.proposer.prepareInstances ∧ k ∈ r.proposer.acceptInstances)) ∧
      (∀ k inst, r.proposer.prepareInstances.lookup k = some inst ∨
        r.proposer.acceptInstances.lookup k = some inst → inst.iid = k) ∧
      ∀ op : ProposerOp, op.Admissible r.proposer → op.Orderly r.proposer →
        ∃ r', r.step config op = .ok r' := by
  have hinit : (LoggedProposer.fresh id n).TablesInv :=
    ⟨proposerNew_wellFormed id n, proposerNew_sequential id n⟩
  have hi : r.TablesInv :=
    LoggedProposer.invariant_of_reaches hr hinit fun hs hok hstep => hs.step hok.2.tidy hstep
  refine ⟨?_, ?_, ?_⟩
  · rintro k ⟨hp, ha⟩
    obtain ⟨inst, hinst⟩ := AList.lookup_eq_some_of_mem hp
    exact AList.lookup_eq_none.mp (hi.sequential.apart k inst hinst) ha
  · rintro k inst (hk | hk)
    · exact hi.wellFormed.keyed_prepare k inst hk
    · exact hi.wellFormed.keyed_accept k inst hk
  · intro op hadm hord
    obtain ⟨res, hres⟩ : ∃ res, proposerStep config r.proposer op = .ok res :=
      proposerStep_isOk hi.wellFormed hi.sequential hadm.aidBelow (hadm.idPos hord)
    exact Except.exists_bind_eq_ok hres ⟨_, rfl⟩

instance (p : Proposer) : DecidablePred (ProposerOp.Admissible p)
  | .receivePromise _ ack => inferInstanceAs (Decidable (ack.aid.toNat < p.acceptors))
  | .receiveAccepted ack => inferInstanceAs (Decidable (ack.aid.toNat < p.acceptors))
  | .prepareInstance _ iid => inferInstanceAs (Decidable (1 ≤ iid))
  | .propose _ | .prepare _ | .accept | .receivePreempted _ _ | .receiveAcceptorState _
  | .setInstanceId _ | .timeoutIteratorPrepare _ | .timeoutIteratorAccept _ | .rehash _ _ =>
    instDecidableTrue

instance (p : Proposer) : DecidablePred (ProposerOp.Orderly p)
  | .prepare _ => inferInstanceAs (Decidable (p.nextPrepareIid + 1 ≠ 0))
  | .prepareInstance _ iid =>
    inferInstanceAs (Decidable (iid ≤ p.nextPrepareIid ∧ p.acceptInstances.lookup iid = none))
  | .propose _ | .receivePromise _ _ | .accept | .receiveAccepted _ | .receivePreempted _ _
  | .receiveAcceptorState _ | .setInstanceId _ | .timeoutIteratorPrepare _
  | .timeoutIteratorAccept _ | .rehash _ _ => instDecidableTrue

/-- An instance in the second phase is preempted and waits for promises again, and the next one can
be prepared. -/
theorem proposer_tables_apart_preempted :
    ∃ r : LoggedProposer, 1 ∈ r.proposer.prepareInstances ∧ 1 ∉ r.proposer.acceptInstances ∧
      ∃ r', r.step {} (.prepare 0) = .ok r' := by
  obtain ⟨r, hr, hs⟩ := Runs.exists_reaches_of_run (LoggedProposer.stepOption {})
    (fun r op => op.Admissible r.proposer ∧ op.Orderly r.proposer) (.fresh 0 3)
    ([.propose [1], .prepare 0] ++ twoPromises ++
      [.accept, .receivePreempted 0 { iid := 1, ballot := 15 }, .prepareInstance 0 1])
    (fun r => 1 ∈ r.proposer.prepareInstances ∧ r.proposer.nextPrepareIid + 1 ≠ 0)
    (by decide +kernel)
  obtain ⟨hmem, hnext⟩ := of_decide_eq_true hs
  obtain ⟨hapart, -, hret⟩ := proposer_tables_apart {} 0 3 r hr
  exact ⟨r, hmem, fun ha => hapart 1 ⟨hmem, ha⟩, hret (.prepare 0) trivial hnext⟩

/-- **An instance in both tables.** An instance that waits for acks in the second phase is prepared
by its id: the first table does not have it, so it is created there as well. And an instance that
is prepared by its id ahead of the next id is in the way when the next id gets there. -/
theorem proposer_tables_overlap :
    ¬ (∀ r, Runs.Reaches (LoggedProposer.stepOption {}) (fun r op => op.Admissible r.proposer)
        (.fresh 0 3) r →
      ∀ k, ¬ (k ∈ r.proposer.prepareInstances ∧ k ∈ r.proposer.acceptInstances)) ∧
    ¬ (∀ r, Runs.Reaches (LoggedProposer.stepOption {}) (fun r op => op.Admissible r.proposer)
        (.fresh 0 3) r → ∀ op : ProposerOp, op.Admissible r.proposer →
      r.step {} op ≠ .error .assertion) := by
  constructor
  · intro hclaim
    obtain ⟨r, hr, hs⟩ := Runs.exists_reaches_of_run (LoggedProposer.stepOption {})
      (fun r op => op.Admissible r.proposer) (.fresh 0 3)
      ([.propose [1], .prepare 0] ++ twoPromises ++ [.accept, .prepareInstance 0 1])
      (fun r => 1 ∈ r.proposer.prepareInstances ∧ 1 ∈ r.proposer.acceptInstances)
      (by decide +kernel)
    exact hclaim r hr 1 (of_decide_eq_true hs)
  · intro hclaim
    obtain ⟨r, hr, hs⟩ := Runs.exists_reaches_of_run (LoggedProposer.stepOption {})
      (fun r op => op.Admissible r.proposer) (.fresh 0 3) [.prepareInstance 0 1]
      (fun r => (r.step {} (.prepare 0)).fault = some .assertion) (by decide +kernel)
    exact hclaim r hr (.prepare 0) trivial (Except.eq_error_of_fault (of_decide_eq_true hs))

/-! ## Nothing pending that is trimmed

When a trim point is heard of, the instances up to it are dropped by `proposer_set_instance_id`,
which does nothing if the next id is past the trim point already. Then the instances up to it stay.
-/

/-- The instance is pending under the id `k`, in either phase. -/
def Proposer.PendingAt (p : Proposer) (k : UInt32) (inst : Instance) : Prop :=
  p.prepareInstances.lookup k = some inst ∨ p.acceptInstances.lookup k = some inst

/-- The pending instances, of either phase. -/
def Proposer.pending (p : Proposer) : List Instance :=
  (p.prepareInstances.entries ++ p.acceptInstances.entries).map (·.2)

theorem Proposer.mem_pending {p : Proposer} {inst : Instance} :
    inst ∈ p.pending ↔ ∃ k, p.PendingAt k inst := by
  simp only [pending, List.mem_map, List.mem_append]
  constructor
  · rintro ⟨⟨k, x⟩, hx | hx, rfl⟩
    · exact ⟨k, .inl (AList.mem_entries_iff.mp hx)⟩
    · exact ⟨k, .inr (AList.mem_entries_iff.mp hx)⟩
  · rintro ⟨k, hk | hk⟩
    · exact ⟨⟨k, inst⟩, .inl (AList.mem_entries_iff.mpr hk), rfl⟩
    · exact ⟨⟨k, inst⟩, .inr (AList.mem_entries_iff.mpr hk), rfl⟩

/-- While the phases are apart there is one pending instance under an id. -/
theorem Proposer.PendingAt.unique {p : Proposer} {k : UInt32} {inst inst' : Instance}
    (ha : p.Apart) (h : p.PendingAt k inst) (h' : p.PendingAt k inst') : inst = inst' := by
  rcases h with h | h <;> rcases h' with h' | h'
  · exact Option.some.inj (h.symm.trans h')
  · exact absurd ((ha k inst h).symm.trans h') (by simp)
  · exact absurd ((ha k inst' h').symm.trans h) (by simp)
  · exact Option.some.inj (h.symm.trans h')

/-- A trim point that is new to the proposer is ahead of pre-execution, or nothing is pending up to
it. -/
def ProposerOp.TrimsInTime (p : Proposer) : ProposerOp → Prop
  | .receiveAcceptorState state => p.maxTrimIid < state.trimIid →
      state.trimIid ≤ p.nextPrepareIid → ∀ inst ∈ p.pending, state.trimIid < inst.iid
  | _ => True

/-- Nothing is pending up to the trim point, and pre-execution is at least there. -/
structure Proposer.Untrimmed (p : Proposer) : Prop where
  prepare : p.prepareInstances.All fun _ inst => p.maxTrimIid < inst.iid
  accept : p.acceptInstances.All fun _ inst => p.maxTrimIid < inst.iid
  next : p.maxTrimIid ≤ p.nextPrepareIid

theorem proposerNew_untrimmed (id : UInt32) (n : Nat) : (proposerNew id n).Untrimmed where
  prepare := AList.all_empty
  accept := AList.all_empty
  next := UInt32.le_refl 0

section Trim

variable {p p' : Proposer} {op : ProposerOp} {out : List PaxosMessage}

theorem Proposer.Untrimmed.lt_of_pending (h : p.Untrimmed) {inst : Instance}
    (hi : inst ∈ p.pending) : p.maxTrimIid < inst.iid := by
  obtain ⟨k, hk | hk⟩ := mem_pending.mp hi
  · exact h.prepare k inst hk
  · exact h.accept k inst hk

/-- A table after a sweep holds what it held, above the point swept to. -/
theorem Proposer.all_filter_above {h : KHash Instance} {iid t t' : UInt32}
    (hall : h.All fun _ inst => t < inst.iid) (ht : t' = t ∨ t' = iid) :
    (h.filter fun inst => ¬ inst.iid ≤ iid).All fun _ inst => t' < inst.iid := by
  intro k inst hk
  obtain ⟨hold, hkeep⟩ := AList.lookup_filter_eq_some.mp hk
  rcases ht with rfl | rfl
  · exact hall k inst hold
  · exact UInt32.not_le.mp (of_decide_eq_true hkeep)

/-- **One call in order keeps trimmed instances away**, if trim points come in time. -/
theorem Proposer.Untrimmed.move (h : p.Untrimmed) (hop : op.InOrder) (ht : op.TrimsInTime p)
    (hm : ProposerMove p op p' out) : p'.Untrimmed := by
  obtain ⟨hp, ha, hnext⟩ := h
  cases hm with
  | idle | queued => exact ⟨hp, ha, hnext⟩
  | heard hlt hle =>
    have hpending := ht hlt hle
    exact ⟨fun k inst hk => hpending inst (mem_pending.mpr ⟨k, .inl hk⟩),
      fun k inst hk => hpending inst (mem_pending.mpr ⟨k, .inr hk⟩), hle⟩
  | created hc hpos hnew =>
    rcases hc with ⟨rfl, rfl, rfl⟩ | ⟨rfl, -⟩
    · have hlt := UInt32.lt_of_le_of_lt hnext (lt_add_one_of_pos hpos)
      exact ⟨hp.insert hlt, ha, UInt32.le_of_lt hlt⟩
    · exact hop.elim
  | preempted hk _ =>
    have hlt := hp _ _ hk
    exact ⟨hp.replace (AList.mem_of_lookup hk) hlt, ha, hnext⟩
  | promised hk _ _ =>
    have hlt := hp _ _ hk
    refine ⟨hp.replace (AList.mem_of_lookup hk) ?_, ha, hnext⟩
    rw [adoptPromise_iid]
    exact hlt
  | accepting hk _ _ _ _ =>
    have hlt := hp _ _ hk
    exact ⟨hp.erase _, ha.insert hlt, hnext⟩
  | acked hk _ _ _ =>
    have hlt := ha _ _ hk
    exact ⟨hp, ha.replace (AList.mem_of_lookup hk) hlt, hnext⟩
  | closed => exact ⟨hp, ha.erase _, hnext⟩
  | demoted hk _ _ _ =>
    have hlt := ha _ _ hk
    exact ⟨hp.insert hlt, ha.erase _, hnext⟩
  | @trimmed _ iid t hop' hlt =>
    -- the trim point stays below the next id, or becomes the point swept to
    have hpoint : t = p.maxTrimIid ∨ t = iid := by
      rcases hop' with ⟨-, rfl⟩ | ⟨state, -, -, rfl⟩
      · exact .inl rfl
      · exact .inr rfl
    refine ⟨all_filter_above hp hpoint, all_filter_above ha hpoint, ?_⟩
    show t ≤ iid
    rcases hpoint with rfl | rfl
    · exact UInt32.le_trans hnext (UInt32.le_of_lt hlt)
    · exact UInt32.le_refl _
  | retriedPrepare hk =>
    have hlt := hp _ _ hk
    exact ⟨hp.replace (AList.mem_of_lookup hk) hlt, ha, hnext⟩
  | retriedAccept hk _ =>
    have hlt := ha _ _ hk
    exact ⟨hp, ha.replace (AList.mem_of_lookup hk) hlt, hnext⟩
  | rehashed hpp hpa => exact ⟨hp.of_perm hpp, ha.of_perm hpa, hnext⟩

end Trim

/-- Well-formed tables without trimmed instances. -/
structure LoggedProposer.TrimInv (r : LoggedProposer) : Prop where
  wellFormed : r.proposer.WellFormed
  untrimmed : r.proposer.Untrimmed

theorem LoggedProposer.TrimInv.step {config : PaxosConfig} {r r' : LoggedProposer}
    {op : ProposerOp} (hi : r.TrimInv) (hop : op.InOrder) (ht : op.TrimsInTime r.proposer)
    (h : r.step config op = .ok r') : r'.TrimInv := by
  obtain ⟨p, out, hm, rfl⟩ := step_ok hi.wellFormed h
  exact ⟨hi.wellFormed.move hm, hi.untrimmed.move hop ht hm⟩

/-- A call of `proposer_prepare` hands out the next id. -/
theorem LoggedProposer.emitted_prepare {config : PaxosConfig} {now : Int} {r r' : LoggedProposer}
    (h : r.step config (.prepare now) = .ok r') :
    ∃ m : PaxosPrepare, r'.emitted = .prepare m :: r.emitted ∧
      m.iid = r.proposer.nextPrepareIid + 1 ∧ 0 < m.iid := by
  obtain ⟨⟨p, out⟩, hs, h⟩ := Except.bind_eq_ok.mp h
  cases h
  obtain ⟨⟨p₁, m⟩, hprep, hs⟩ := Except.bind_eq_ok.mp hs
  cases hs
  obtain ⟨inst, hnew, hprep⟩ := Except.bind_eq_ok.mp hprep
  obtain ⟨table, -, hprep⟩ := Except.bind_eq_ok.mp hprep
  obtain ⟨hpos, rfl⟩ := instanceNew_ok hnew
  cases hprep
  exact ⟨_, rfl, rfl, hpos⟩

/-- **Nothing trimmed is pending.** In every run of the calls that evproposer makes in which trim
points come in time, no pending instance is at or below the trim point that the proposer has heard
of, and neither is the next one that it prepares. -/
theorem trimmed_instances_dropped (config : PaxosConfig) (id : UInt32) (n : Nat)
    (r : LoggedProposer)
    (hr : Runs.Reaches (LoggedProposer.stepOption config)
      (fun r op => op.InOrder ∧ op.TrimsInTime r.proposer) (.fresh id n) r) :
    (∀ inst ∈ r.proposer.pending, r.proposer.maxTrimIid < inst.iid) ∧
      ∀ now r', r.step config (.prepare now) = .ok r' →
        ∃ m : PaxosPrepare, r'.emitted = .prepare m :: r.emitted ∧
          r.proposer.maxTrimIid < m.iid := by
  have hinit : (LoggedProposer.fresh id n).TrimInv :=
    ⟨proposerNew_wellFormed id n, proposerNew_untrimmed id n⟩
  have hi : r.TrimInv :=
    LoggedProposer.invariant_of_reaches hr hinit fun hs hok hstep => hs.step hok.1 hok.2 hstep
  refine ⟨fun inst hinst => hi.untrimmed.lt_of_pending hinst, fun now r' h => ?_⟩
  obtain ⟨m, hemit, hiid, hpos⟩ := LoggedProposer.emitted_prepare h
  refine ⟨m, hemit, ?_⟩
  rw [hiid] at hpos ⊢
  exact UInt32.lt_of_le_of_lt hi.untrimmed.next (lt_add_one_of_pos hpos)

instance (p : Proposer) : DecidablePred (ProposerOp.TrimsInTime p)
  | .receiveAcceptorState state => inferInstanceAs (Decidable (p.maxTrimIid < state.trimIid →
      state.trimIid ≤ p.nextPrepareIid → ∀ inst ∈ p.pending, state.trimIid < inst.iid))
  | .propose _ | .prepare _ | .prepareInstance _ _ | .receivePromise _ _ | .accept
  | .receiveAccepted _ | .receivePreempted _ _ | .setInstanceId _ | .timeoutIteratorPrepare _
  | .timeoutIteratorAccept _ | .rehash _ _ => instDecidableTrue

/-- The acceptors have trimmed up to 5 when two instances are pending: both are dropped, and
instance 6 is next. -/
theorem trimmed_instances_dropped_ahead :
    ∃ r : LoggedProposer, r.proposer.maxTrimIid = 5 ∧ r.proposer.pending.map (·.iid) = [6] ∧
      ∀ inst ∈ r.proposer.pending, 5 < inst.iid := by
  obtain ⟨r, hr, hs⟩ := Runs.exists_reaches_of_run (LoggedProposer.stepOption {})
    (fun r op => op.InOrder ∧ op.TrimsInTime r.proposer) (.fresh 0 3)
    [.prepare 0, .prepare 0, .receiveAcceptorState { aid := 0, trimIid := 5 }, .prepare 0]
    (fun r => r.proposer.maxTrimIid = 5 ∧ r.proposer.pending.map (·.iid) = [6])
    (by decide +kernel)
  obtain ⟨htrim, hpending⟩ := of_decide_eq_true hs
  refine ⟨r, htrim, hpending, ?_⟩
  have hdropped := (trimmed_instances_dropped {} 0 3 r hr).1
  rw [htrim] at hdropped
  exact hdropped

/-- **A trimmed instance stays pending.** Two instances are prepared when the proposer hears that
the acceptors have trimmed the first one. Its next id is 2, so nothing is dropped. -/
theorem trimmed_instance_pending :
    ¬ ∀ r, Runs.Reaches (LoggedProposer.stepOption {}) (fun _ op => op.InOrder) (.fresh 0 3) r →
      ∀ inst ∈ r.proposer.pending, r.proposer.maxTrimIid < inst.iid := by
  intro hclaim
  obtain ⟨r, hr, hs⟩ := Runs.exists_reaches_of_run (LoggedProposer.stepOption {})
    (fun _ op => op.InOrder) (.fresh 0 3)
    [.prepare 0, .prepare 0, .receiveAcceptorState { aid := 0, trimIid := 1 }]
    (fun r => r.proposer.maxTrimIid = 1 ∧ ∃ inst ∈ r.proposer.pending, inst.iid = 1)
    (by decide +kernel)
  obtain ⟨htrim, inst, hinst, hiid⟩ := of_decide_eq_true hs
  have hlt := hclaim r hr inst hinst
  rw [htrim, hiid] at hlt
  exact absurd hlt (by decide)

end LibPaxos
