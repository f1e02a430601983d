import LibPaxos.ProposerMoves

/-!
# Runs of a proposer

A proposer together with what it was given and what it handed out: the client values submitted to
it, the requests it emitted (newest first) and the own values of the instances it saw decided.

* `Proposer.WellFormed` — what holds of the two tables after any calls;
* `Proposer.Sequential` — what holds in addition as long as instances are only created in order,
  which is how `evproposer.c` creates them, or by tidy calls;
* **`proposerStep_isOk`** — under the two, a call whose acceptor id is in range returns,
  except that the id after the last one cannot be prepared.
-/

namespace LibPaxos

open Proposer

/-! ## Instances -/

section Instances

variable (inst : Instance) (ack : PaxosPromise) (now : Int) (p : Proposer)

@[simp] theorem adoptPromise_iid : (adoptPromise inst ack).iid = inst.iid := by
  unfold adoptPromise
  split <;> rfl

@[simp] theorem adoptPromise_ballot : (adoptPromise inst ack).ballot = inst.ballot := by
  unfold adoptPromise
  split <;> rfl

@[simp] theorem adoptPromise_value : (adoptPromise inst ack).value = inst.value := by
  unfold adoptPromise
  split <;> rfl

@[simp] theorem adoptPromise_quorum : (adoptPromise inst ack).quorum = inst.quorum := by
  unfold adoptPromise
  split <;> rfl

@[simp] theorem proposerPreempt_iid : (proposerPreempt now p inst).iid = inst.iid := rfl

@[simp] theorem proposerPreempt_value : (proposerPreempt now p inst).value = inst.value := rfl

end Instances

/-! ## Well-formed tables

An entry of either table has its key as id, and its quorum is for the number of acceptors. An
instance in the second phase has a value to ask for, which is what `instance_to_accept` asserts. -/

/-- Entries sit under the id of their instance and count acks of the proposer's acceptors; an
instance in the second phase has a value to propose. -/
structure Proposer.WellFormed (p : Proposer) : Prop where
  prepare : p.prepareInstances.All fun k inst => inst.iid = k ∧ inst.quorum.acceptors = p.acceptors
  accept : p.acceptInstances.All fun k inst =>
    inst.iid = k ∧ inst.quorum.acceptors = p.acceptors ∧ inst.proposed ≠ none

theorem Proposer.WellFormed.keyed_prepare {p : Proposer} (hw : p.WellFormed) :
    Keyed p.prepareInstances :=
  hw.prepare.mono fun _ _ h => h.1

theorem Proposer.WellFormed.keyed_accept {p : Proposer} (hw : p.WellFormed) :
    Keyed p.acceptInstances :=
  hw.accept.mono fun _ _ h => h.1

theorem proposerNew_wellFormed (id : UInt32) (n : Nat) : (proposerNew id n).WellFormed where
  prepare := AList.all_empty
  accept := AList.all_empty

section Move

variable {p p' : Proposer} {op : ProposerOp} {out : List PaxosMessage}

theorem ProposerMove.id_eq (hm : ProposerMove p op p' out) : p'.id = p.id := by
  cases hm <;> rfl

theorem ProposerMove.acceptors_eq (hm : ProposerMove p op p' out) : p'.acceptors = p.acceptors := by
  cases hm <;> rfl

/-- Every call keeps the tables well formed. -/
theorem Proposer.WellFormed.move (hw : p.WellFormed) (hm : ProposerMove p op p' out) :
    p'.WellFormed := by
  obtain ⟨hp, ha⟩ := hw
  cases hm with
  | idle => exact ⟨hp, ha⟩
  | heard => exact ⟨hp, ha⟩
  | queued => exact ⟨hp, ha⟩
  | created hop hpos hnew => exact ⟨hp.insert ⟨rfl, rfl⟩, ha⟩
  | preempted hk hop =>
    exact ⟨hp.replace (AList.mem_of_lookup hk) ⟨(hp _ _ hk).1, (hp _ _ hk).2⟩, ha⟩
  | promised hk hb hq =>
    obtain ⟨-, -, -, hacc⟩ := quorumAdd_true hq
    refine ⟨hp.replace (AList.mem_of_lookup hk) ⟨?_, ?_⟩, ha⟩
    · rw [adoptPromise_iid]
      exact (hp _ _ hk).1
    · rw [adoptPromise_quorum]
      exact hacc.trans (hp _ _ hk).2
  | accepting hk hq hnew ht hv =>
    refine ⟨hp.erase _, ha.insert ⟨rfl, (hp _ _ hk).2, ?_⟩⟩
    exact fun hn => absurd (hv.symm.trans hn) (by simp)
  | acked hk hb hq hr =>
    obtain ⟨-, -, -, hacc⟩ := quorumAdd_true hq
    obtain ⟨hiid, hn, hv⟩ := ha _ _ hk
    exact ⟨hp, ha.replace (AList.mem_of_lookup hk) ⟨hiid, hacc.trans hn, hv⟩⟩
  | closed => exact ⟨hp, ha.erase _⟩
  | demoted hk hb hiid hnew => exact ⟨hp.insert ⟨hiid, (ha _ _ hk).2.1⟩, ha.erase _⟩
  | trimmed => exact ⟨hp.filter _, ha.filter _⟩
  | retriedPrepare hk =>
    have h := hp _ _ hk
    exact ⟨hp.replace (AList.mem_of_lookup hk) h, ha⟩
  | retriedAccept hk hv =>
    have h := ha _ _ hk
    exact ⟨hp, ha.replace (AList.mem_of_lookup hk) h⟩
  | rehashed hpp hpa => exact ⟨hp.of_perm hpp, ha.of_perm hpa⟩

end Move

/-! ## Instances created in order

`proposer_prepare` asserts that its next id is not in the table. This holds if no pending id is
above the last one prepared. `proposer_prepare_instance` takes any id: calls in order do without it,
and tidy ones give it an id that is not ahead. -/

/-- No instance is in both phases. -/
def Proposer.Apart (p : Proposer) : Prop :=
  p.prepareInstances.All fun k _ => p.acceptInstances.lookup k = none

/-- No instance is in both phases, and none is ahead of the last one prepared. -/
structure Proposer.Sequential (p : Proposer) : Prop where
  apart : p.Apart
  prepare : p.prepareInstances.All fun k _ => k ≤ p.nextPrepareIid
  accept : p.acceptInstances.All fun k _ => k ≤ p.nextPrepareIid

theorem proposerNew_sequential (id : UInt32) (n : Nat) : (proposerNew id n).Sequential where
  apart := AList.all_empty
  prepare := AList.all_empty
  accept := AList.all_empty

/-- The call is one that the evproposer handlers make. -/
def ProposerOp.InOrder : ProposerOp → Prop
  | .prepareInstance _ _ => False
  | _ => True

instance : DecidablePred ProposerOp.InOrder
  | .prepareInstance _ _ => instDecidableFalse
  | .propose _ | .prepare _ | .receivePromise _ _ | .accept | .receiveAccepted _
  | .receivePreempted _ _ | .receiveAcceptorState _ | .setInstanceId _ | .timeoutIteratorPrepare _
  | .timeoutIteratorAccept _ | .rehash _ _ => instDecidableTrue

/-- A call that names the instance to prepare names one that was handed out before and is not in the
second phase. Nothing in `proposer_prepare_instance` asks for this. -/
def ProposerOp.Tidy (p : Proposer) : ProposerOp → Prop
  | .prepareInstance _ iid => iid ≤ p.nextPrepareIid ∧ p.acceptInstances.lookup iid = none
  | _ => True

theorem ProposerOp.InOrder.tidy {op : ProposerOp} {p : Proposer} (h : op.InOrder) : op.Tidy p := by
  cases op with
  | prepareInstance => exact h.elim
  | _ => trivial

/-- Preparing the next id goes up, unless it wraps around to zero. -/
theorem lt_add_one_of_pos {x : UInt32} (h : 0 < x + 1) : x < x + 1 := by
  rw [UInt32.lt_iff_toNat_lt] at h ⊢
  rw [UInt32.toNat_add] at h ⊢
  have := x.toNat_lt
  simp at h ⊢
  omega

section SequentialMove

variable {p p' : Proposer} {op : ProposerOp} {out : List PaxosMessage}

/-- The phases stay apart if an instance is only created while none is in the second phase. -/
theorem Proposer.Apart.move (h : p.Apart)
    (hc : ∀ now iid next, Creates p op now iid next → 0 < iid → p.acceptInstances.lookup iid = none)
    (hm : ProposerMove p op p' out) : p'.Apart := by
  -- deleting from the second phase, or overwriting there, does not bring the phases together
  have herase : ∀ k₀, p.prepareInstances.All fun k _ =>
      (p.acceptInstances.erase k₀).lookup k = none :=
    fun k₀ => AList.All.mono h fun k _ hk => by rw [AList.lookup_erase_cases, hk, ite_self]
  have hreplace : ∀ {k₀ : UInt32} {x : Instance}, p.acceptInstances.lookup k₀ = some x →
      ∀ y, p.prepareInstances.All fun k _ => (p.acceptInstances.replace k₀ y).lookup k = none := by
    intro k₀ x hx y k inst hk
    rw [AList.lookup_replace k y (AList.mem_of_lookup hx), if_neg]
    · exact h _ _ hk
    · rintro rfl
      exact absurd ((h _ _ hk).symm.trans hx) (by simp)
  cases hm with
  | idle => exact h
  | heard => exact h
  | queued => exact h
  | created hop hpos hnew => exact AList.All.insert h (hc _ _ _ hop hpos)
  | preempted hk hop => exact AList.All.replace h (AList.mem_of_lookup hk) (h _ _ hk)
  | promised hk hb hq => exact AList.All.replace h (AList.mem_of_lookup hk) (h _ _ hk)
  | @accepting inst value values v hk hq hnew ht hv =>
    intro k x hx
    rw [AList.lookup_erase_cases] at hx
    split at hx
    · cases hx
    · rename_i hne
      rw [AList.lookup_insert_cases, if_neg hne]
      exact h _ _ hx
  | acked hk hb hq hr => exact hreplace hk _
  | closed hk hb hq hr => exact herase _
  | @demoted now ack inst hk hb hiid hnew =>
    exact (herase ack.iid).insert (by rw [AList.lookup_erase_cases, if_pos rfl])
  | trimmed => exact (AList.All.filter h _).mono fun k _ hk => AList.lookup_filter_eq_none hk
  | retriedPrepare hk =>
    have hkey := h _ _ hk
    exact AList.All.replace h (AList.mem_of_lookup hk) hkey
  | retriedAccept hk hv => exact hreplace hk _
  | rehashed hpp hpa =>
    refine (AList.All.of_perm h hpp).mono fun k _ hk => ?_
    rw [AList.lookup_eq_of_perm hpa]
    exact hk

/-- The next id does not go down. -/
theorem ProposerMove.nextPrepareIid_le (hm : ProposerMove p op p' out) :
    p.nextPrepareIid ≤ p'.nextPrepareIid := by
  cases hm with
  | created hc hpos hnew =>
    rcases hc with ⟨rfl, rfl, rfl⟩ | ⟨rfl, rfl⟩
    · exact UInt32.le_of_lt (lt_add_one_of_pos hpos)
    · exact UInt32.le_refl _
  | trimmed _ hlt => exact UInt32.le_of_lt hlt
  | _ => exact UInt32.le_refl _

/-- The id of a new instance is up to the next id then, and not in the second phase. -/
theorem Proposer.Sequential.creates (hs : p.Sequential) (hop : op.Tidy p) {now : Int}
    {iid next : UInt32} (hc : Creates p op now iid next) (hpos : 0 < iid) :
    iid ≤ next ∧ p.acceptInstances.lookup iid = none := by
  rcases hc with ⟨rfl, rfl, rfl⟩ | ⟨rfl, rfl⟩
  · refine ⟨UInt32.le_refl _, ?_⟩
    cases hl : p.acceptInstances.lookup (p.nextPrepareIid + 1) with
    | none => rfl
    | some inst => exact absurd (hs.accept _ _ hl) (UInt32.not_le.mpr (lt_add_one_of_pos hpos))
  · exact hop

/-- Tidy calls keep the tables in order. -/
theorem Proposer.Sequential.move (hs : p.Sequential) (hop : op.Tidy p)
    (hm : ProposerMove p op p' out) : p'.Sequential := by
  have hle := hm.nextPrepareIid_le
  -- the next id does not go down, so old instances stay below it
  have hp := hs.prepare.mono fun k _ h => UInt32.le_trans h hle
  have ha := hs.accept.mono fun k _ h => UInt32.le_trans h hle
  refine ⟨hs.apart.move (fun now iid next hc hpos => (hs.creates hop hc hpos).2) hm, ?_, ?_⟩
  · cases hm with
    | created hc hpos hnew => exact hp.insert (hs.creates hop hc hpos).1
    | preempted hk _ => exact hp.replace (AList.mem_of_lookup hk) (hs.prepare _ _ hk)
    | promised hk _ _ => exact hp.replace (AList.mem_of_lookup hk) (hs.prepare _ _ hk)
    | accepting => exact hp.erase _
    | demoted hk _ _ _ => exact hp.insert (hs.accept _ _ hk)
    | trimmed => exact hp.filter _
    | retriedPrepare hk =>
      have hkey := hp _ _ hk
      exact hp.replace (AList.mem_of_lookup hk) hkey
    | rehashed hpp _ => exact hp.of_perm hpp
    | idle | heard | queued | acked | closed | retriedAccept => exact hp
  · cases hm with
    | accepting hk _ _ _ _ => exact ha.insert (hs.prepare _ _ hk)
    | acked hk _ _ _ =>
      have hkey := ha _ _ hk
      exact ha.replace (AList.mem_of_lookup hk) hkey
    | closed => exact ha.erase _
    | demoted => exact ha.erase _
    | trimmed => exact ha.filter _
    | retriedAccept hk _ =>
      have hkey := ha _ _ hk
      exact ha.replace (AList.mem_of_lookup hk) hkey
    | rehashed _ hpa => exact ha.of_perm hpa
    | idle | heard | queued | created | preempted | promised | retriedPrepare => exact ha

end SequentialMove

/-! ## Calls return

The assertions of `proposer.c` are that keys are new where an instance is put into a table, and that
an instance has a value when it is asked for. Both follow from the two invariants, apart from the id
after the last one, where the counter wraps around. -/

/-- The acceptor id of an acknowledgement is below the acceptor count. -/
def ProposerOp.AidBelow (n : Nat) : ProposerOp → Prop
  | .receivePromise _ ack => ack.aid.toNat < n
  | .receiveAccepted ack => ack.aid.toNat < n
  | _ => True

section Returns

variable {config : PaxosConfig} {p : Proposer}

theorem Proposer.instanceToAccept_isOk {inst : Instance} (h : inst.proposed ≠ none) :
    ∃ acc, instanceToAccept inst = .ok acc := by
  obtain ⟨v, hv⟩ := Option.ne_none_iff_exists'.mp h
  unfold instanceToAccept
  rw [hv]
  exact ⟨_, rfl⟩

theorem Proposer.khPutInstance_isOk {h : KHash Instance} {iid : UInt32} (inst : Instance)
    (hn : h.lookup iid = none) : khPutInstance h iid inst = .ok (h.insert iid inst) := by
  unfold khPutInstance
  rw [if_neg (AList.lookup_eq_none.mp hn)]

theorem proposerMoveInstance_isOk {f t : KHash Instance} {inst : Instance}
    (hf : inst.iid ∈ f) (ht : t.lookup inst.iid = none) :
    ∃ r, proposerMoveInstance f t inst = .ok r := by
  unfold proposerMoveInstance
  rw [if_pos hf, khPutInstance_isOk _ ht]
  exact ⟨_, rfl⟩

theorem proposerPrepare_isOk (hs : p.Sequential) (hpos : 0 < p.nextPrepareIid + 1) (now : Int) :
    ∃ r, proposerPrepare now p = .ok r := by
  have hnew : p.prepareInstances.lookup (p.nextPrepareIid + 1) = none := by
    cases hl : p.prepareInstances.lookup (p.nextPrepareIid + 1) with
    | none => rfl
    | some inst =>
      exact absurd (hs.prepare _ _ hl) (UInt32.not_le.mpr (lt_add_one_of_pos hpos))
  have hinst : instanceNew now (p.nextPrepareIid + 1) (proposerNextBallot p 0) p.acceptors
      = .ok (newInstance now (p.nextPrepareIid + 1) (proposerNextBallot p 0) p.acceptors) :=
    if_pos hpos
  exact Except.exists_bind_eq_ok hinst
    (Except.exists_bind_eq_ok (khPutInstance_isOk _ hnew) ⟨_, rfl⟩)

theorem proposerPrepareInstance_isOk {iid : UInt32} (hpos : 0 < iid) (now : Int) :
    ∃ r, proposerPrepareInstance now p iid = .ok r := by
  unfold proposerPrepareInstance
  split
  · rename_i hnew
    have hinst : instanceNew now iid (proposerNextBallot p 0) p.acceptors
        = .ok (newInstance now iid (proposerNextBallot p 0) p.acceptors) := if_pos hpos
    exact Except.exists_bind_eq_ok hinst
      (Except.exists_bind_eq_ok (khPutInstance_isOk _ hnew) ⟨_, rfl⟩)
  · exact ⟨_, rfl⟩

theorem proposerReceivePromise_isOk (hw : p.WellFormed) (now : Int) {ack : PaxosPromise}
    (haid : ack.aid.toNat < p.acceptors) : ∃ r, proposerReceivePromise now p ack = .ok r := by
  unfold proposerReceivePromise
  split
  · exact ⟨_, rfl⟩
  · rename_i inst hk
    split
    · exact ⟨_, rfl⟩
    · split
      · exact ⟨_, rfl⟩
      · have hlt : ack.aid.toNat < inst.quorum.acceptors := by
          rw [(hw.prepare _ _ hk).2]
          exact haid
        obtain ⟨⟨q, added⟩, hq⟩ := quorumAdd_isOk hlt
        refine Except.exists_bind_eq_ok hq ?_
        cases added with
        | false => exact ⟨_, rfl⟩
        | true => exact ⟨_, rfl⟩

theorem proposerAccept_isOk (hw : p.WellFormed) (hs : p.Sequential) :
    ∃ r, proposerAccept p = .ok r := by
  unfold proposerAccept
  split
  · exact ⟨_, rfl⟩
  · rename_i inst hmin
    obtain ⟨k, hk⟩ := smallestInstance_mem hmin
    obtain rfl := (hw.prepare k inst hk).1
    split
    · exact ⟨_, rfl⟩
    · simp only
      split
      · exact ⟨_, rfl⟩
      · rename_i hval
        -- past the check one of the two values is there, so an accept can be built
        have hprop : ({ inst with value := (takeValue p.values inst).1 } : Instance).proposed
            ≠ none := by
          unfold Instance.proposed
          cases hpv : inst.promisedValue with
          | none => exact fun hn => hval ⟨hn, hpv⟩
          | some w => exact fun hn => by cases hn
        obtain ⟨⟨f, t⟩, hmove⟩ := @proposerMoveInstance_isOk p.prepareInstances p.acceptInstances
          { inst with value := (takeValue p.values inst).1 } (AList.mem_of_lookup hk)
          (hs.apart _ _ hk)
        obtain ⟨acc, hacc⟩ := instanceToAccept_isOk hprop
        exact Except.exists_bind_eq_ok hmove (Except.exists_bind_eq_ok hacc ⟨_, rfl⟩)

theorem proposerReceiveAccepted_isOk (hw : p.WellFormed) {ack : PaxosAccepted}
    (haid : ack.aid.toNat < p.acceptors) : ∃ r, proposerReceiveAccepted p ack = .ok r := by
  unfold proposerReceiveAccepted
  split
  · exact ⟨_, rfl⟩
  · rename_i inst hk
    split
    · have hlt : ack.aid.toNat < inst.quorum.acceptors := by
        rw [(hw.accept _ _ hk).2.1]
        exact haid
      obtain ⟨⟨q, added⟩, hq⟩ := quorumAdd_isOk hlt
      refine Except.exists_bind_eq_ok hq ?_
      cases added with
      | false => exact ⟨_, rfl⟩
      | true =>
        simp only [Bool.true_eq_false, if_false]
        split
        · exact ⟨_, rfl⟩
        · exact ⟨_, rfl⟩
    · exact ⟨_, rfl⟩

theorem proposerReceivePreempted_isOk (hw : p.WellFormed) (hs : p.Sequential) (now : Int)
    (ack : PaxosPreempted) : ∃ r, proposerReceivePreempted now p ack = .ok r := by
  unfold proposerReceivePreempted
  split
  · exact ⟨_, rfl⟩
  · rename_i inst hk
    split
    · have hiid : inst.iid = ack.iid := (hw.accept _ _ hk).1
      have hnew : p.prepareInstances.lookup inst.iid = none := by
        cases hl : p.prepareInstances.lookup inst.iid with
        | none => rfl
        | some inst' =>
          have hnone := hs.apart _ _ hl
          rw [hiid, hk] at hnone
          cases hnone
      obtain ⟨⟨f, t⟩, hmove⟩ :=
        proposerMoveInstance_isOk (by rw [hiid]; exact AList.mem_of_lookup hk) hnew
      exact Except.exists_bind_eq_ok hmove ⟨_, rfl⟩
    · exact ⟨_, rfl⟩

theorem timeoutIteratorAccept_isOk (hw : p.WellFormed) (iter : TimeoutIterator) :
    ∃ r, timeoutIteratorAccept config p iter = .ok r := by
  unfold timeoutIteratorAccept
  split
  · exact ⟨_, rfl⟩
  · rename_i k key inst hn
    have hk := AList.mem_entries_iff.mp (List.mem_of_mem_drop (nextTimedout_mem hn))
    obtain ⟨acc, hacc⟩ := instanceToAccept_isOk (hw.accept _ _ hk).2.2
    exact Except.exists_bind_eq_ok hacc ⟨_, rfl⟩

/-- The id of the instance that a call prepares is not the reserved id 0. -/
def ProposerOp.IdPos (p : Proposer) : ProposerOp → Prop
  | .prepare _ => 0 < p.nextPrepareIid + 1
  | .prepareInstance _ iid => 0 < iid
  | _ => True

theorem ProposerOp.InOrder.idPos {op : ProposerOp} (h : op.InOrder)
    (hpos : (∃ now, op = .prepare now) → 0 < p.nextPrepareIid + 1) : op.IdPos p := by
  cases op with
  | prepare now => exact hpos ⟨now, rfl⟩
  | prepareInstance => exact h.elim
  | _ => trivial

/-- **Calls return.** A call with an acceptor id in range returns, as long as the phases are apart
and it does not have to prepare the id 0. -/
theorem proposerStep_isOk (hw : p.WellFormed) (hs : p.Sequential) {op : ProposerOp}
    (haid : op.AidBelow p.acceptors) (hpos : op.IdPos p) :
    ∃ r, proposerStep config p op = .ok r := by
  cases op with
  | propose v => exact ⟨_, rfl⟩
  -- one call that may fail for each of the others
  | prepare now =>
    obtain ⟨r, hr⟩ := proposerPrepare_isOk hs hpos now
    exact Except.exists_bind_eq_ok hr ⟨_, rfl⟩
  | prepareInstance now iid =>
    obtain ⟨r, hr⟩ := proposerPrepareInstance_isOk hpos now
    exact Except.exists_bind_eq_ok hr ⟨_, rfl⟩
  | receivePromise now ack =>
    obtain ⟨r, hr⟩ := proposerReceivePromise_isOk hw now haid
    exact Except.exists_bind_eq_ok hr ⟨_, rfl⟩
  | accept =>
    obtain ⟨r, hr⟩ := proposerAccept_isOk hw hs
    exact Except.exists_bind_eq_ok hr ⟨_, rfl⟩
  | receiveAccepted ack =>
    obtain ⟨r, hr⟩ := proposerReceiveAccepted_isOk hw haid
    exact Except.exists_bind_eq_ok hr ⟨_, rfl⟩
  | receivePreempted now ack =>
    obtain ⟨r, hr⟩ := proposerReceivePreempted_isOk hw hs now ack
    exact Except.exists_bind_eq_ok hr ⟨_, rfl⟩
  | receiveAcceptorState state => exact ⟨_, rfl⟩
  | setInstanceId iid => exact ⟨_, rfl⟩
  | timeoutIteratorPrepare iter => exact ⟨_, rfl⟩
  | timeoutIteratorAccept iter =>
    obtain ⟨r, hr⟩ := timeoutIteratorAccept_isOk hw iter
    exact Except.exists_bind_eq_ok hr ⟨_, rfl⟩
  | rehash hp ha =>
    simp only [proposerStep]
    split
    · exact ⟨_, rfl⟩
    · exact ⟨_, rfl⟩

end Returns

/-! ## Logged runs -/

/-- A proposer with the client values submitted to it, the requests it emitted and the own values
of the instances it closed as decided, each newest first. -/
structure LoggedProposer where
  proposer : Proposer
  submitted : List PaxosValue
  emitted : List PaxosMessage
  decided : List (UInt32 × PaxosValue)

namespace LoggedProposer

/-- A fresh proposer. -/
def fresh (id : UInt32) (acceptors : Nat) : LoggedProposer where
  proposer := proposerNew id acceptors
  submitted := []
  emitted := []
  decided := []

/-- One call, logged. -/
def step (config : PaxosConfig) (r : LoggedProposer) (op : ProposerOp) :
    Except Fault LoggedProposer := do
  let (p, out) ← proposerStep config r.proposer op
  .ok
    { proposer := p
      submitted := submittedBy op ++ r.submitted
      emitted := out ++ r.emitted
      decided := decidedBy r.proposer op ++ r.decided }

/-- A sequence of calls. -/
def run (config : PaxosConfig) (r : LoggedProposer) : List ProposerOp → Except Fault LoggedProposer
  | [] => .ok r
  | op :: ops => do
    let r ← step config r op
    run config r ops

theorem step_ok {config : PaxosConfig} {r r' : LoggedProposer} {op : ProposerOp}
    (hw : r.proposer.WellFormed) (h : r.step config op = .ok r') :
    ∃ p out, ProposerMove r.proposer op p out ∧
      r' = ⟨p, submittedBy op ++ r.submitted, out ++ r.emitted,
        decidedBy r.proposer op ++ r.decided⟩ := by
  obtain ⟨⟨p, out⟩, hs, h⟩ := Except.bind_eq_ok.mp h
  cases h
  exact ⟨p, out, proposerStep_move hw.keyed_prepare hw.keyed_accept hs, rfl⟩

theorem submitted_step {config : PaxosConfig} {r r' : LoggedProposer} {op : ProposerOp}
    (h : r.step config op = .ok r') : r'.submitted = submittedBy op ++ r.submitted := by
  obtain ⟨⟨p, out⟩, -, h⟩ := Except.bind_eq_ok.mp h
  cases h
  rfl

/-- Nothing is taken back. -/
theorem subset_step {config : PaxosConfig} {r r' : LoggedProposer} {op : ProposerOp}
    (h : r.step config op = .ok r') :
    r.emitted ⊆ r'.emitted ∧ r.submitted ⊆ r'.submitted ∧ r.decided ⊆ r'.decided := by
  obtain ⟨⟨p, out⟩, -, h⟩ := Except.bind_eq_ok.mp h
  cases h
  exact ⟨List.subset_append_right _ _, List.subset_append_right _ _, List.subset_append_right _ _⟩

end LoggedProposer

end LibPaxos
