import LibPaxos.Proposer
import LibPaxos.Lib.Runs

/-!
# What a proposer call can do

`ProposerMove` lists the outcomes of a call once and for all, with the guards under which each
of them happens and the requests it hands out. Every invariant of a proposer is then a case
analysis over moves, and no later proof looks into `proposer.c` again.

* **`proposerStep_move`** — every call that returns is one of the moves.
-/

namespace LibPaxos

open Proposer

/-- The key of an entry is the id of the instance it holds. -/
def Proposer.Keyed (h : KHash Instance) : Prop :=
  h.All fun k inst => inst.iid = k

/-- What `instance_new` returns. -/
def Proposer.newInstance (now : Int) (iid ballot : UInt32) (acceptors : Nat) : Instance where
  iid := iid
  ballot := ballot
  value := none
  promisedValue := none
  valueBallot := 0
  quorum := quorumInit acceptors
  createdAt := now

/-- The accept request for the value `v` in an instance. -/
def acceptOf (inst : Instance) (v : PaxosValue) : PaxosAccept where
  iid := inst.iid
  ballot := inst.ballot.toUInt16
  valueBallot := inst.ballot.toUInt16
  value := v

/-- The proposer after the instances up to `iid` were dropped. -/
def Proposer.trimTo (p : Proposer) (iid maxTrimIid : UInt32) : Proposer where
  id := p.id
  acceptors := p.acceptors
  values := (proposerTrimInstances (proposerTrimInstances p.values p.prepareInstances iid).1
    p.acceptInstances iid).1
  maxTrimIid := maxTrimIid
  nextPrepareIid := iid
  prepareInstances := p.prepareInstances.filter fun inst => ¬ inst.iid ≤ iid
  acceptInstances := p.acceptInstances.filter fun inst => ¬ inst.iid ≤ iid

/-- An instance is created, by a call that continues at the next id or names the id. -/
def Creates (p : Proposer) (op : ProposerOp) (now : Int) (iid next : UInt32) : Prop :=
  (op = .prepare now ∧ iid = p.nextPrepareIid + 1 ∧ next = iid) ∨
    (op = .prepareInstance now iid ∧ next = p.nextPrepareIid)

/-- The client value that a call submits. -/
def submittedBy : ProposerOp → List PaxosValue
  | .propose v => [v]
  | _ => []

/-- The own value of an instance that a call closes (result 2 of `proposer_receive_accepted`), if
it is the value that was proposed there. -/
def decidedBy (p : Proposer) : ProposerOp → List (UInt32 × PaxosValue)
  | .receiveAccepted ack =>
    match p.acceptInstances.lookup ack.iid, proposerReceiveAccepted p ack with
    | some inst, .ok (_, 2) =>
      if inst.proposed = inst.value then inst.value.toList.map fun v => (ack.iid, v) else []
    | _, _ => []
  | _ => []

/-- The outcomes of a call: the proposer after it and the requests handed out. -/
inductive ProposerMove (p : Proposer) : ProposerOp → Proposer → List PaxosMessage → Prop where
  | idle {op : ProposerOp} (hs : submittedBy op = []) (hd : decidedBy p op = []) :
      ProposerMove p op p []
  /-- A trim point is heard of that pre-execution has passed already: the instances up to it stay.
  -/
  | heard {state : PaxosAcceptorState} (hlt : p.maxTrimIid < state.trimIid)
      (hle : state.trimIid ≤ p.nextPrepareIid) :
      ProposerMove p (.receiveAcceptorState state) { p with maxTrimIid := state.trimIid } []
  | queued {v : PaxosValue} :
      ProposerMove p (.propose v) { p with values := p.values ++ [v] } []
  | created {op : ProposerOp} {now : Int} {iid next : UInt32} (hop : Creates p op now iid next)
      (hpos : 0 < iid) (hnew : p.prepareInstances.lookup iid = none) :
      ProposerMove p op
        { p with
          nextPrepareIid := next
          prepareInstances := p.prepareInstances.insert iid
            (newInstance now iid (proposerNextBallot p 0) p.acceptors) }
        [.prepare (prepareOf (newInstance now iid (proposerNextBallot p 0) p.acceptors))]
  /-- An instance waiting for promises goes on to its next ballot. -/
  | preempted {op : ProposerOp} {now : Int} {key : UInt32} {inst : Instance}
      (hk : p.prepareInstances.lookup key = some inst)
      (hop : (∃ ack, op = .receivePromise now ack ∧ ack.iid = key ∧
          inst.ballot < ack.ballot.toUInt32) ∨ op = .prepareInstance now key) :
      ProposerMove p op
        { p with prepareInstances := p.prepareInstances.replace key (proposerPreempt now p inst) }
        [.prepare (prepareOf (proposerPreempt now p inst))]
  | promised {now : Int} {ack : PaxosPromise} {inst : Instance} {q : Quorum}
      (hk : p.prepareInstances.lookup ack.iid = some inst)
      (hb : ack.ballot.toUInt32 = inst.ballot)
      (hq : quorumAdd inst.quorum ack.aid.toNat = .ok (q, true)) :
      ProposerMove p (.receivePromise now ack)
        { p with prepareInstances :=
            p.prepareInstances.replace ack.iid (adoptPromise { inst with quorum := q } ack) }
        []
  /-- A prepared instance with a value moves to the second phase. -/
  | accepting {inst : Instance} {value : Option PaxosValue} {values : List PaxosValue}
      {v : PaxosValue} (hk : p.prepareInstances.lookup inst.iid = some inst)
      (hq : quorumReached inst.quorum = true) (hnew : p.acceptInstances.lookup inst.iid = none)
      (ht : takeValue p.values inst = (value, values))
      (hv : ({ inst with value := value } : Instance).proposed = some v) :
      ProposerMove p .accept
        { p with
          values := values
          prepareInstances := p.prepareInstances.erase inst.iid
          acceptInstances := p.acceptInstances.insert inst.iid
            { inst with value := value, quorum := quorumClear inst.quorum } }
        [.accept (acceptOf inst v)]
  | acked {ack : PaxosAccepted} {inst : Instance} {q : Quorum}
      (hk : p.acceptInstances.lookup ack.iid = some inst)
      (hb : ack.ballot.toUInt32 = inst.ballot)
      (hq : quorumAdd inst.quorum ack.aid.toNat = .ok (q, true)) (hr : quorumReached q = false) :
      ProposerMove p (.receiveAccepted ack)
        { p with acceptInstances := p.acceptInstances.replace ack.iid { inst with quorum := q } } []
  | closed {ack : PaxosAccepted} {inst : Instance} {q : Quorum}
      (hk : p.acceptInstances.lookup ack.iid = some inst)
      (hb : ack.ballot.toUInt32 = inst.ballot)
      (hq : quorumAdd inst.quorum ack.aid.toNat = .ok (q, true)) (hr : quorumReached q = true) :
      ProposerMove p (.receiveAccepted ack)
        { p with
          values := requeueOnClose p.values inst
          acceptInstances := p.acceptInstances.erase ack.iid }
        []
  /-- An instance in the second phase starts over with its next ballot. -/
  | demoted {now : Int} {ack : PaxosPreempted} {inst : Instance}
      (hk : p.acceptInstances.lookup ack.iid = some inst)
      (hb : inst.ballot < ack.ballot.toUInt32) (hiid : inst.iid = ack.iid)
      (hnew : p.prepareInstances.lookup ack.iid = none) :
      ProposerMove p (.receivePreempted now ack)
        { p with
          acceptInstances := p.acceptInstances.erase ack.iid
          prepareInstances := p.prepareInstances.insert ack.iid (proposerPreempt now p inst) }
        [.prepare (prepareOf (proposerPreempt now p inst))]
  | trimmed {op : ProposerOp} {iid maxTrimIid : UInt32}
      (hop : (op = .setInstanceId iid ∧ maxTrimIid = p.maxTrimIid) ∨
        ∃ state, op = .receiveAcceptorState state ∧ state.trimIid = iid ∧ maxTrimIid = iid)
      (hlt : p.nextPrepareIid < iid) :
      ProposerMove p op (p.trimTo iid maxTrimIid) []
  | retriedPrepare {iter : TimeoutIterator} {key : UInt32} {inst : Instance}
      (hk : p.prepareInstances.lookup key = some inst) :
      ProposerMove p (.timeoutIteratorPrepare iter)
        { p with prepareInstances :=
            p.prepareInstances.replace key { inst with createdAt := iter.timeout } }
        [.prepare (prepareOf inst)]
  | retriedAccept {iter : TimeoutIterator} {key : UInt32} {inst : Instance} {v : PaxosValue}
      (hk : p.acceptInstances.lookup key = some inst) (hv : inst.proposed = some v) :
      ProposerMove p (.timeoutIteratorAccept iter)
        { p with acceptInstances :=
            p.acceptInstances.replace key { inst with createdAt := iter.timeout } }
        [.accept (acceptOf inst v)]
  | rehashed {hp ha : KHash Instance} (hpp : hp.entries.Perm p.prepareInstances.entries)
      (hpa : ha.entries.Perm p.acceptInstances.entries) :
      ProposerMove p (.rehash hp ha) { p with prepareInstances := hp, acceptInstances := ha } []

/-! ## The helpers -/

theorem Proposer.instanceNew_ok {now : Int} {iid ballot : UInt32} {n : Nat} {inst : Instance}
    (h : instanceNew now iid ballot n = .ok inst) :
    0 < iid ∧ inst = newInstance now iid ballot n := by
  unfold instanceNew at h
  simp only at h
  split at h
  · rename_i hpos
    cases h
    exact ⟨hpos, rfl⟩
  · cases h

theorem Proposer.khPutInstance_ok {h h' : KHash Instance} {iid : UInt32} {inst : Instance}
    (hput : khPutInstance h iid inst = .ok h') : h.lookup iid = none ∧ h' = h.insert iid inst := by
  unfold khPutInstance at hput
  split at hput
  · cases hput
  · rename_i hne
    cases hput
    exact ⟨AList.lookup_eq_none.mpr hne, rfl⟩

theorem Proposer.instanceToAccept_ok {inst : Instance} {acc : PaxosAccept}
    (h : instanceToAccept inst = .ok acc) :
    ∃ v, inst.proposed = some v ∧ acc = acceptOf inst v := by
  unfold instanceToAccept at h
  split at h
  · cases h
  · rename_i v hv
    cases h
    exact ⟨v, hv, rfl⟩

theorem proposerMoveInstance_ok {f t f' t' : KHash Instance} {inst : Instance}
    (h : proposerMoveInstance f t inst = .ok (f', t')) :
    t.lookup inst.iid = none ∧ f' = f.erase inst.iid ∧
      t' = t.insert inst.iid { inst with quorum := quorumClear inst.quorum } := by
  unfold proposerMoveInstance at h
  split at h
  · obtain ⟨t₁, hput, h⟩ := Except.bind_eq_ok.mp h
    cases h
    obtain ⟨hnone, ht⟩ := khPutInstance_ok hput
    exact ⟨hnone, rfl, ht⟩
  · cases h

/-- A fold that at each entry keeps what it has or takes the entry ends with one of the entries. -/
theorem foldl_pick_mem {α β : Type} {f : Option β → α → Option β} {g : α → β}
    (hf : ∀ acc e x, f acc e = some x → acc = some x ∨ g e = x) :
    ∀ (es : List α) (acc : Option β) {x : β}, es.foldl f acc = some x →
      acc = some x ∨ ∃ e ∈ es, g e = x := by
  intro es
  induction es with
  | nil => exact fun acc x h => .inl h
  | cons e es ih =>
    intro acc x h
    rw [List.foldl_cons] at h
    rcases ih _ h with hacc | ⟨e', he', hx⟩
    · rcases hf _ _ _ hacc with hold | hnew
      · exact .inl hold
      · exact .inr ⟨e, List.mem_cons_self, hnew⟩
    · exact .inr ⟨e', List.mem_cons_of_mem _ he', hx⟩

/-- The loop of `proposer_accept` returns one of the instances. -/
theorem smallestInstance_mem {h : KHash Instance} {inst : Instance}
    (hs : smallestInstance h = some inst) : ∃ k, h.lookup k = some inst := by
  have hpick := foldl_pick_mem (g := fun e : Sigma fun _ : UInt32 => Instance => e.2) ?_
    h.entries none hs
  · rcases hpick with hn | ⟨⟨k, i⟩, hk, rfl⟩
    · cases hn
    · exact ⟨k, AList.mem_entries_iff.mp hk⟩
  · intro acc e x hx
    cases acc with
    | none => exact .inr (Option.some.inj hx)
    | some i =>
      simp only at hx
      split at hx
      · exact .inr (Option.some.inj hx)
      · exact .inl hx

theorem nextTimedout_mem {config : PaxosConfig} {t : Int} {key : UInt32} {inst : Instance}
    {k' : Nat} : ∀ {es : List (Sigma fun _ : UInt32 => Instance)} {k : Nat},
      nextTimedout config t es k = (k', some (key, inst)) → ⟨key, inst⟩ ∈ es := by
  intro es
  induction es with
  | nil =>
    intro k h
    cases h
  | cons e es ih =>
    intro k h
    unfold nextTimedout at h
    split at h
    · exact List.mem_cons_of_mem _ (ih h)
    · split at h
      · cases h
        exact List.mem_cons_self
      · exact List.mem_cons_of_mem _ (ih h)

/-! ## Each call

One lemma for each function, by its branches. The guards of a move are those of the branch, in terms
of the tables. -/

section Calls

variable {config : PaxosConfig} {p p' : Proposer}

theorem proposerSetInstanceId_move (iid : UInt32) :
    ProposerMove p (.setInstanceId iid) (proposerSetInstanceId p iid) [] := by
  unfold proposerSetInstanceId
  split
  · rename_i hlt
    exact .trimmed (.inl ⟨rfl, rfl⟩) hlt
  · exact .idle rfl rfl

theorem proposerReceiveAcceptorState_move (state : PaxosAcceptorState) :
    ProposerMove p (.receiveAcceptorState state) (proposerReceiveAcceptorState p state) [] := by
  unfold proposerReceiveAcceptorState proposerSetInstanceId
  split
  · rename_i hmax
    split
    · rename_i hlt
      exact .trimmed (.inr ⟨state, rfl, rfl, rfl⟩) hlt
    · rename_i hle
      exact .heard hmax (UInt32.not_lt.mp hle)
  · exact .idle rfl rfl

theorem proposerPrepare_move {now : Int} {out : PaxosPrepare}
    (h : proposerPrepare now p = .ok (p', out)) :
    ProposerMove p (.prepare now) p' [.prepare out] := by
  unfold proposerPrepare at h
  obtain ⟨inst, hinst, h⟩ := Except.bind_eq_ok.mp h
  obtain ⟨t, hput, h⟩ := Except.bind_eq_ok.mp h
  obtain ⟨hpos, rfl⟩ := instanceNew_ok hinst
  obtain ⟨hnone, rfl⟩ := khPutInstance_ok hput
  cases h
  exact .created (.inl ⟨rfl, rfl, rfl⟩) hpos hnone

theorem proposerPrepareInstance_move {now : Int} {iid : UInt32} {out : PaxosPrepare}
    (h : proposerPrepareInstance now p iid = .ok (p', out)) :
    ProposerMove p (.prepareInstance now iid) p' [.prepare out] := by
  unfold proposerPrepareInstance at h
  split at h
  · obtain ⟨inst, hinst, h⟩ := Except.bind_eq_ok.mp h
    obtain ⟨t, hput, h⟩ := Except.bind_eq_ok.mp h
    obtain ⟨hpos, rfl⟩ := instanceNew_ok hinst
    obtain ⟨hnone, rfl⟩ := khPutInstance_ok hput
    cases h
    exact .created (.inr ⟨rfl, rfl⟩) hpos hnone
  · rename_i inst hk
    cases h
    exact .preempted hk (.inr rfl)

theorem proposerReceivePromise_move {now : Int} {ack : PaxosPromise} {out : Option PaxosPrepare}
    (h : proposerReceivePromise now p ack = .ok (p', out)) :
    ProposerMove p (.receivePromise now ack) p' (out.toList.map .prepare) := by
  unfold proposerReceivePromise at h
  split at h
  · cases h
    exact .idle rfl rfl
  · rename_i inst hk
    split at h
    · cases h
      exact .idle rfl rfl
    · rename_i hge
      split at h
      · rename_i hgt
        cases h
        exact .preempted hk (.inl ⟨ack, rfl, rfl, hgt⟩)
      · rename_i hle
        obtain ⟨⟨q, added⟩, hq, h⟩ := Except.bind_eq_ok.mp h
        -- neither smaller nor larger
        have hb : ack.ballot.toUInt32 = inst.ballot :=
          UInt32.le_antisymm (UInt32.not_lt.mp hle) (UInt32.not_lt.mp hge)
        cases added with
        | false =>
          cases h
          exact .idle rfl rfl
        | true =>
          cases h
          exact .promised hk hb hq

theorem proposerAccept_move {out : Option PaxosAccept} (hkey : Keyed p.prepareInstances)
    (h : proposerAccept p = .ok (p', out)) :
    ProposerMove p .accept p' (out.toList.map .accept) := by
  unfold proposerAccept at h
  split at h
  · cases h
    exact .idle rfl rfl
  · rename_i inst hs
    obtain ⟨k, hk⟩ := smallestInstance_mem hs
    obtain rfl := hkey k inst hk
    split at h
    · cases h
      exact .idle rfl rfl
    · rename_i hq
      cases ht : takeValue p.values inst with
      | mk value values =>
        rw [ht] at h
        simp only at h
        split at h
        · cases h
          exact .idle rfl rfl
        · obtain ⟨⟨f, t⟩, hmove, h⟩ := Except.bind_eq_ok.mp h
          obtain ⟨acc, hacc, h⟩ := Except.bind_eq_ok.mp h
          -- past its `assert`s the call has moved the instance
          obtain ⟨hnone, rfl, rfl⟩ := proposerMoveInstance_ok hmove
          obtain ⟨v, hv, rfl⟩ := instanceToAccept_ok hacc
          cases h
          exact @ProposerMove.accepting p inst value values v hk (by simpa using hq) hnone ht hv

theorem decidedBy_of_ne_two {ack : PaxosAccepted} {rc : Nat}
    (h : proposerReceiveAccepted p ack = .ok (p', rc)) (hrc : rc ≠ 2) :
    decidedBy p (.receiveAccepted ack) = [] := by
  simp only [decidedBy, h]
  split
  · rename_i heq
    cases heq
    exact absurd rfl hrc
  · rfl

theorem proposerReceiveAccepted_move {ack : PaxosAccepted} {rc : Nat}
    (h : proposerReceiveAccepted p ack = .ok (p', rc)) :
    ProposerMove p (.receiveAccepted ack) p' [] := by
  have hres := h
  unfold proposerReceiveAccepted at h
  split at h
  · cases h
    exact .idle rfl (decidedBy_of_ne_two hres (by decide))
  · rename_i inst hk
    split at h
    · rename_i hb
      obtain ⟨⟨q, added⟩, hq, h⟩ := Except.bind_eq_ok.mp h
      cases added with
      | false =>
        cases h
        exact .idle rfl (decidedBy_of_ne_two hres (by decide))
      | true =>
        simp only [Bool.true_eq_false, if_false] at h
        split at h
        · rename_i hr
          cases h
          exact .closed hk hb hq hr
        · rename_i hr
          cases h
          exact .acked hk hb hq (by simpa using hr)
    · cases h
      exact .idle rfl (decidedBy_of_ne_two hres (by decide))

theorem proposerReceivePreempted_move {now : Int} {ack : PaxosPreempted}
    {out : Option PaxosPrepare} (hkey : Keyed p.acceptInstances)
    (h : proposerReceivePreempted now p ack = .ok (p', out)) :
    ProposerMove p (.receivePreempted now ack) p' (out.toList.map .prepare) := by
  unfold proposerReceivePreempted at h
  split at h
  · cases h
    exact .idle rfl rfl
  · rename_i inst hk
    split at h
    · rename_i hb
      obtain ⟨⟨f, t⟩, hmove, h⟩ := Except.bind_eq_ok.mp h
      obtain ⟨hnone, rfl, rfl⟩ := proposerMoveInstance_ok hmove
      have hiid : inst.iid = ack.iid := hkey _ _ hk
      simp only [Except.ok.injEq, Prod.mk.injEq] at h
      obtain ⟨rfl, rfl⟩ := h
      -- the instance is moved first and changed where it is then
      have hrep : ((p.prepareInstances.insert inst.iid
          { inst with quorum := quorumClear inst.quorum }).replace inst.iid
            (proposerPreempt now p inst))
          = p.prepareInstances.insert ack.iid (proposerPreempt now p inst) := by
        rw [AList.replace_insert, hiid]
      show ProposerMove p _ { p with
        acceptInstances := p.acceptInstances.erase inst.iid
        prepareInstances := (p.prepareInstances.insert inst.iid
          { inst with quorum := quorumClear inst.quorum }).replace inst.iid
            (proposerPreempt now p inst) } _
      rw [hrep, hiid]
      exact .demoted hk hb hiid (hiid ▸ hnone)
    · cases h
      exact .idle rfl rfl

theorem timeoutIteratorPrepare_move (iter : TimeoutIterator) :
    ProposerMove p (.timeoutIteratorPrepare iter) (timeoutIteratorPrepare config p iter).1
      ((timeoutIteratorPrepare config p iter).2.2.toList.map .prepare) := by
  unfold timeoutIteratorPrepare
  split
  · exact .idle rfl rfl
  · rename_i k key inst hn
    exact .retriedPrepare (AList.mem_entries_iff.mp (List.mem_of_mem_drop (nextTimedout_mem hn)))

theorem timeoutIteratorAccept_move {iter iter' : TimeoutIterator} {out : Option PaxosAccept}
    (h : timeoutIteratorAccept config p iter = .ok (p', iter', out)) :
    ProposerMove p (.timeoutIteratorAccept iter) p' (out.toList.map .accept) := by
  unfold timeoutIteratorAccept at h
  split at h
  · cases h
    exact .idle rfl rfl
  · rename_i k key inst hn
    obtain ⟨acc, hacc, h⟩ := Except.bind_eq_ok.mp h
    obtain ⟨v, hv, rfl⟩ := instanceToAccept_ok hacc
    cases h
    exact .retriedAccept (AList.mem_entries_iff.mp (List.mem_of_mem_drop (nextTimedout_mem hn))) hv

/-- **Every call that returns is one of the moves.** -/
theorem proposerStep_move {op : ProposerOp} {out : List PaxosMessage}
    (hkp : Keyed p.prepareInstances) (hka : Keyed p.acceptInstances)
    (h : proposerStep config p op = .ok (p', out)) : ProposerMove p op p' out := by
  cases op with
  | propose v =>
    cases h
    exact .queued
  | prepare now =>
    obtain ⟨⟨p₁, o⟩, hc, h⟩ := Except.bind_eq_ok.mp h
    cases h
    exact proposerPrepare_move hc
  | prepareInstance now iid =>
    obtain ⟨⟨p₁, o⟩, hc, h⟩ := Except.bind_eq_ok.mp h
    cases h
    exact proposerPrepareInstance_move hc
  | receivePromise now ack =>
    obtain ⟨⟨p₁, o⟩, hc, h⟩ := Except.bind_eq_ok.mp h
    cases h
    exact proposerReceivePromise_move hc
  | accept =>
    obtain ⟨⟨p₁, o⟩, hc, h⟩ := Except.bind_eq_ok.mp h
    cases h
    exact proposerAccept_move hkp hc
  | receiveAccepted ack =>
    obtain ⟨⟨p₁, o⟩, hc, h⟩ := Except.bind_eq_ok.mp h
    cases h
    exact proposerReceiveAccepted_move hc
  | receivePreempted now ack =>
    obtain ⟨⟨p₁, o⟩, hc, h⟩ := Except.bind_eq_ok.mp h
    cases h
    exact proposerReceivePreempted_move hka hc
  | receiveAcceptorState state =>
    cases h
    exact proposerReceiveAcceptorState_move state
  | setInstanceId iid =>
    cases h
    exact proposerSetInstanceId_move iid
  | timeoutIteratorPrepare iter =>
    cases h
    exact timeoutIteratorPrepare_move iter
  | timeoutIteratorAccept iter =>
    obtain ⟨⟨p₁, it, o⟩, hc, h⟩ := Except.bind_eq_ok.mp h
    cases h
    exact timeoutIteratorAccept_move hc
  | rehash hp ha =>
    -- tables in another order, or the event does nothing
    simp only [proposerStep] at h
    split at h
    · rename_i hperm
      cases h
      exact .rehashed hperm.1 hperm.2
    · cases h
      exact .idle rfl rfl

end Calls

end LibPaxos
