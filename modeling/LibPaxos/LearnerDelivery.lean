import LibPaxos.Learner
import LibPaxos.Lib.Slots
import LibPaxos.Lib.Voting

/-!
# What a learner delivers

The property `P` stands for "was received": everything below holds for whatever accepted messages
the learner was given. An instance is sound for `P` if its slots hold received messages of the
right acceptor and its winning acknowledgement is backed by a quorum of them.

* **`learner_delivers_in_order`** — over every sequence of calls the delivered ids are consecutive
  and each delivered message is backed by a quorum of received ones.
-/

namespace LibPaxos

open Learner

/-- The message `f` was received, and so were messages for its instance and ballot from a quorum
of distinct acceptors. -/
structure Backed (P : PaxosAccepted → Prop) (n : Nat) (f : PaxosAccepted) : Prop where
  carried : P f
  quorum : ∃ Q, Voting.IsMajority n (paxosQuorum n) Q ∧
    ∀ i ∈ Q, ∃ a, P a ∧ a.iid = f.iid ∧ a.ballot = f.ballot ∧ a.aid.toNat = i

/-- The slots of an open instance hold received messages, and so does its final value. -/
structure Learner.Instance.Sound (P : PaxosAccepted → Prop) (n : Nat) (k : UInt32)
    (inst : Instance) : Prop where
  length : inst.acks.length = n
  acks : ∀ i a, inst.acks[i]? = some (some a) → a.iid = k ∧ a.aid.toNat = i ∧ P a
  final : ∀ f, inst.finalValue = some f → f.iid = k ∧ Backed P n f

/-- Every stored instance is sound and has its key as id. -/
def Learner.Sound (P : PaxosAccepted → Prop) (l : Learner) : Prop :=
  l.instances.All fun k inst => inst.iid = k ∧ inst.Sound P l.acceptors k

/-! ## Instances

`instance_update` keeps the first message of an acceptor for a ballot and overwrites it by a later
ballot. Slots that agree with the ballot updated last are counted, and if they are a quorum one of
them becomes the winning acknowledgement: it is backed by the messages in these slots. -/

section Instances

variable {P P' : PaxosAccepted → Prop} {n : Nat} {k : UInt32} {inst : Instance}
  {ack : PaxosAccepted}

theorem Backed.mono (hP : ∀ a, P a → P' a) (h : Backed P n ack) : Backed P' n ack where
  carried := hP _ h.carried
  quorum := by
    obtain ⟨Q, hQ, hall⟩ := h.quorum
    refine ⟨Q, hQ, fun i hi => ?_⟩
    obtain ⟨a, ha, hrest⟩ := hall i hi
    exact ⟨a, hP a ha, hrest⟩

theorem Learner.Instance.Sound.mono (hP : ∀ a, P a → P' a) (h : inst.Sound P n k) :
    inst.Sound P' n k where
  length := h.length
  acks i a ha := by
    obtain ⟨h₁, h₂, h₃⟩ := h.acks i a ha
    exact ⟨h₁, h₂, hP a h₃⟩
  final f hf := by
    obtain ⟨h₁, h₂⟩ := h.final f hf
    exact ⟨h₁, h₂.mono hP⟩

theorem Learner.instanceNew_sound (P : PaxosAccepted → Prop) (n : Nat) (k : UInt32) :
    (instanceNew n).Sound P n k where
  length := List.length_replicate
  acks i a ha := by
    simp [instanceNew, List.getElem?_replicate] at ha
  final f hf := by cases hf

/-- The slots that agree with the ballot updated last. -/
def Learner.Instance.agreeingSlots (inst : Instance) : Finset Nat :=
  inst.acks.slots fun slot => slot.any fun ack => ack.ballot.toUInt32 = inst.lastUpdateBallot

theorem Learner.Instance.card_agreeingSlots (inst : Instance) :
    inst.agreeingSlots.card = inst.agreeing.length := by
  unfold agreeingSlots agreeing
  rw [List.card_slots, ← List.countP_eq_length_filter, List.countP_filterMap]
  congr 1
  funext slot
  cases slot <;> rfl

theorem Learner.Instance.mem_agreeing {a : PaxosAccepted} (h : a ∈ inst.agreeing) :
    a.ballot.toUInt32 = inst.lastUpdateBallot ∧ ∃ i : Nat, inst.acks[i]? = some (some a) := by
  unfold agreeing at h
  obtain ⟨hmem, hb⟩ := List.mem_filter.mp h
  obtain ⟨o, ho, heq⟩ := List.mem_filterMap.mp hmem
  have hoa : o = some a := heq
  subst hoa
  exact ⟨of_decide_eq_true hb, List.getElem?_of_mem ho⟩

/-- A quorum of agreeing slots backs each of the acknowledgements in them. -/
theorem Learner.Instance.Sound.backed (h : inst.Sound P n k)
    (hq : paxosQuorum n ≤ inst.agreeing.length) {f : PaxosAccepted} (hf : f ∈ inst.agreeing) :
    f.iid = k ∧ Backed P n f := by
  obtain ⟨hfb, i, hi⟩ := Instance.mem_agreeing hf
  obtain ⟨hiid, -, hP⟩ := h.acks i f hi
  refine ⟨hiid, hP, inst.agreeingSlots, ⟨?_, ?_⟩, ?_⟩
  · rw [← h.length]
    exact List.slots_subset _ _
  · rw [Instance.card_agreeingSlots]
    exact hq
  · intro j hj
    obtain ⟨slot, hslot, hany⟩ := List.mem_slots.mp hj
    cases slot with
    | none => cases hany
    | some a =>
      obtain ⟨haiid, haid, haP⟩ := h.acks j a hslot
      have hab : a.ballot.toUInt32 = inst.lastUpdateBallot := of_decide_eq_true hany
      exact ⟨a, haP, haiid.trans hiid.symm, UInt16.toUInt32_inj.mp (hab.trans hfb.symm), haid⟩

theorem Learner.instanceHasQuorum_sound (h : inst.Sound P n k) :
    (instanceHasQuorum inst n).1.Sound P n k := by
  unfold instanceHasQuorum
  split
  · exact h
  · split
    · rename_i hq
      refine ⟨h.length, h.acks, ?_⟩
      intro f hf
      exact h.backed hq (List.mem_of_getLast? hf)
    · exact h

theorem Learner.instanceHasQuorum_iid (inst : Instance) (n : Nat) :
    (instanceHasQuorum inst n).1.iid = inst.iid := by
  unfold instanceHasQuorum
  split
  · rfl
  · split <;> rfl

/-- An instance with a quorum has a final value. -/
theorem Learner.instanceHasQuorum_final (h : (instanceHasQuorum inst n).2 = true) :
    ∃ f, (instanceHasQuorum inst n).1.finalValue = some f := by
  unfold instanceHasQuorum at h ⊢
  split at h
  · rename_i hf
    rw [if_pos hf]
    exact Option.ne_none_iff_exists'.mp hf
  · rename_i hf
    rw [if_neg hf]
    split at h
    · rename_i hq
      rw [if_pos hq]
      have hne : inst.agreeing ≠ [] := by
        intro hnil
        rw [hnil] at hq
        exact absurd hq (by simp [Nat.not_le.mpr (paxosQuorum_pos n)])
      exact ⟨_, List.getLast?_eq_some_getLast hne⟩
    · cases h

theorem Learner.instanceOpen_sound (h : inst.Sound P n k) (ack : PaxosAccepted) :
    (instanceOpen inst ack).Sound P n k := by
  unfold instanceOpen
  split
  · exact ⟨h.length, h.acks, h.final⟩
  · exact h

theorem Learner.instanceOpen_iid (hi : inst.iid = 0 ∨ inst.iid = k) (hk : ack.iid = k) :
    (instanceOpen inst ack).iid = k := by
  unfold instanceOpen
  split
  · exact hk
  · rename_i hne
    exact hi.resolve_left hne

theorem Learner.instanceAddAccept_sound (h : inst.Sound P n k) (hP : P ack) (hk : ack.iid = k)
    (hfin : inst.finalValue = none) : (instanceAddAccept inst ack).Sound P n k where
  length := by
    unfold instanceAddAccept
    rw [List.length_set]
    exact h.length
  acks i a ha := by
    unfold instanceAddAccept at ha
    rw [List.getElem?_set] at ha
    split at ha
    · rename_i heq
      split at ha
      · cases ha
        exact ⟨hk, heq, hP⟩
      · cases ha
    · exact h.acks i a ha
  final f hf := by
    have : inst.finalValue = some f := hf
    rw [hfin] at this
    cases this

theorem Learner.instanceHasQuorum_false (h : (instanceHasQuorum inst n).2 = false) :
    instanceHasQuorum inst n = (inst, false) ∧ inst.finalValue = none := by
  unfold instanceHasQuorum at h ⊢
  split at h
  · cases h
  · rename_i hf
    rw [if_neg hf]
    split at h
    · cases h
    · rename_i hq
      rw [if_neg hq]
      exact ⟨rfl, by simpa using hf⟩

/-- A closed instance stays as it is. -/
theorem Learner.instanceHasQuorum_of_final {f : PaxosAccepted} (h : inst.finalValue = some f) :
    instanceHasQuorum inst n = (inst, true) := by
  unfold instanceHasQuorum
  rw [if_pos (by simp [h])]

theorem Learner.instanceOpen_final (inst : Instance) (ack : PaxosAccepted) :
    (instanceOpen inst ack).finalValue = inst.finalValue := by
  unfold instanceOpen
  split <;> rfl

/-- Messages for a closed instance are not looked at. -/
theorem Learner.instanceUpdate_of_final {f : PaxosAccepted} (h : inst.finalValue = some f) :
    instanceUpdate inst ack n = instanceOpen inst ack := by
  unfold instanceUpdate
  rw [instanceHasQuorum_of_final ((instanceOpen_final inst ack).trans h)]

/-- A received message keeps an instance sound. -/
theorem Learner.instanceUpdate_sound (h : inst.Sound P n k) (hi : inst.iid = 0 ∨ inst.iid = k)
    (hP : P ack) (hk : ack.iid = k) :
    (instanceUpdate inst ack n).Sound P n k ∧ (instanceUpdate inst ack n).iid = k := by
  have ho := instanceOpen_sound h ack
  have hoi : (instanceOpen inst ack).iid = k := instanceOpen_iid hi hk
  unfold instanceUpdate
  cases hq : (instanceHasQuorum (instanceOpen inst ack) n).2 with
  | true =>
    have heq : instanceHasQuorum (instanceOpen inst ack) n
        = ((instanceHasQuorum (instanceOpen inst ack) n).1, true) := by rw [← hq]
    rw [heq]
    exact ⟨instanceHasQuorum_sound ho, by rw [instanceHasQuorum_iid]; exact hoi⟩
  | false =>
    obtain ⟨heq, hfin⟩ := instanceHasQuorum_false hq
    rw [heq]
    have hadd := instanceAddAccept_sound ho hP hk hfin
    simp only
    split
    · exact ⟨ho, hoi⟩
    · split
      · exact ⟨hadd, hoi⟩
      · split
        · exact ⟨ho, hoi⟩
        · exact ⟨hadd, hoi⟩

end Instances

/-! ## The learner

Each call changes one instance at most. The current id changes by a delivery, and by the first
message of a learner that starts late. -/

section Calls

variable {P P' : PaxosAccepted → Prop} {l : Learner}

theorem Learner.Sound.mono (hP : ∀ a, P a → P' a) (h : l.Sound P) : l.Sound P' :=
  AList.All.mono h fun _ _ hi => ⟨hi.1, hi.2.mono hP⟩

theorem learnerUpdate_sound (h : l.Sound P) {k : UInt32} {inst : Instance}
    (hi : inst.Sound P l.acceptors k) (hk : inst.iid = k) : (learnerUpdate l k inst).Sound P := by
  unfold learnerUpdate
  exact AList.All.insert h
    ⟨by rw [instanceHasQuorum_iid]; exact hk, instanceHasQuorum_sound hi⟩

/-- The learner with the late start taken: it begins with the first message it gets. -/
def Learner.started (l : Learner) (ack : PaxosAccepted) : Learner :=
  if l.lateStart then { l with lateStart := false, currentIid := ack.iid } else l

theorem Learner.started_sound (h : l.Sound P) (ack : PaxosAccepted) : (l.started ack).Sound P := by
  unfold started
  split <;> exact h

/-- `learner_receive_accepted` once the start is taken. -/
theorem learnerReceiveAccepted_eq (l : Learner) (ack : PaxosAccepted) :
    learnerReceiveAccepted l ack
      = if ack.iid < (l.started ack).currentIid then l.started ack
        else learnerUpdate (l.started ack) ack.iid (instanceUpdate
          (((l.started ack).instances.lookup ack.iid).getD
            (instanceNew (l.started ack).acceptors)) ack (l.started ack).acceptors) :=
  rfl

theorem learnerReceiveAccepted_sound (h : l.Sound P) {ack : PaxosAccepted} (hP : P ack) :
    (learnerReceiveAccepted l ack).Sound P := by
  have hs := started_sound h ack
  rw [learnerReceiveAccepted_eq]
  split
  · exact hs
  · have hinst : ∀ inst, inst = ((l.started ack).instances.lookup ack.iid).getD
        (instanceNew (l.started ack).acceptors) →
        inst.Sound P (l.started ack).acceptors ack.iid ∧ (inst.iid = 0 ∨ inst.iid = ack.iid) := by
      rintro inst rfl
      cases hl : (l.started ack).instances.lookup ack.iid with
      | none => exact ⟨instanceNew_sound _ _ _, .inl rfl⟩
      | some inst => exact ⟨(hs _ _ hl).2, .inr (hs _ _ hl).1⟩
    obtain ⟨hsound, hiid⟩ := hinst _ rfl
    obtain ⟨hupd, hupdi⟩ := instanceUpdate_sound hsound hiid hP rfl
    exact learnerUpdate_sound hs hupd hupdi

theorem learnerReceiveChosen_sound (h : l.Sound P) {ack : PaxosAccepted}
    (hP : ∀ aid, P { ack with aid := aid }) : (learnerReceiveChosen l ack).Sound P := by
  unfold learnerReceiveChosen
  split
  · exact h
  · obtain ⟨h₁, hi₁⟩ := instanceUpdate_sound (instanceNew_sound P l.acceptors ack.iid) (.inl rfl)
      (hP 1) rfl
    obtain ⟨h₂, hi₂⟩ := instanceUpdate_sound h₁ (.inr hi₁) (hP 2) rfl
    exact learnerUpdate_sound h h₂ hi₂

theorem learnerReceiveChosen_acceptors (l : Learner) (ack : PaxosAccepted) :
    (learnerReceiveChosen l ack).acceptors = l.acceptors := by
  unfold learnerReceiveChosen
  split <;> rfl

theorem learnerReceiveChosen_currentIid (l : Learner) (ack : PaxosAccepted) :
    (learnerReceiveChosen l ack).currentIid = l.currentIid := by
  unfold learnerReceiveChosen
  split <;> rfl

theorem learnerReceiveAccepted_currentIid (hl : l.lateStart = false) (ack : PaxosAccepted) :
    (learnerReceiveAccepted l ack).currentIid = l.currentIid ∧
      (learnerReceiveAccepted l ack).lateStart = false := by
  unfold learnerReceiveAccepted
  simp only [hl, Bool.false_eq_true, if_false]
  split
  · exact ⟨rfl, hl⟩
  · exact ⟨rfl, hl⟩

theorem learnerReceiveAccepted_acceptors (l : Learner) (ack : PaxosAccepted) :
    (learnerReceiveAccepted l ack).acceptors = l.acceptors := by
  unfold learnerReceiveAccepted
  simp only
  split <;> split <;> rfl

/-- No late start is left after a message. -/
theorem learnerReceiveAccepted_lateStart (l : Learner) (ack : PaxosAccepted) :
    (learnerReceiveAccepted l ack).lateStart = false := by
  cases hl : l.lateStart with
  | false => exact (learnerReceiveAccepted_currentIid hl ack).2
  | true =>
    unfold learnerReceiveAccepted
    simp only [hl, if_true]
    split <;> rfl

theorem learnerDeliverNext_lateStart (l : Learner) (freed : UInt32) :
    (learnerDeliverNext l freed).1.lateStart = l.lateStart := by
  unfold learnerDeliverNext
  split
  · rfl
  · split <;> rfl

/-- Without instances there is nothing to deliver. -/
theorem learnerDeliverNext_empty (h : ∀ k, l.instances.lookup k = none) (freed : UInt32) :
    learnerDeliverNext l freed = (l, none) := by
  unfold learnerDeliverNext
  rw [h]

/-- A quorum has accepted in the instance: `learner_deliver_next` would return it, if it was the
current one. -/
def Learner.closed (l : Learner) (k : UInt32) : Bool :=
  (l.instances.lookup k).any fun inst => (instanceHasQuorum inst l.acceptors).2

/-- As long as the current instance is open nothing is delivered and nothing changes. -/
theorem learnerDeliverNext_of_open (h : l.closed l.currentIid = false) (freed : UInt32) :
    ∃ instances, learnerDeliverNext l freed = ({ l with instances := instances }, none) ∧
      ∀ k, instances.lookup k = l.instances.lookup k := by
  unfold closed at h
  unfold learnerDeliverNext
  cases hl : l.instances.lookup l.currentIid with
  | none => exact ⟨l.instances, rfl, fun _ => rfl⟩
  | some inst =>
    rw [hl] at h
    obtain ⟨heq, -⟩ := instanceHasQuorum_false h
    refine ⟨l.instances.replace l.currentIid inst, ?_, fun k => ?_⟩
    · simp only [heq]
    · rw [AList.lookup_replace _ _ (AList.mem_of_lookup hl)]
      split
      · rename_i hk
        rw [hk, hl]
      · rfl

/-- The current instance, once closed, is handed out and removed. -/
theorem learnerDeliverNext_of_closed (h : l.Sound P) (hc : l.closed l.currentIid = true)
    (freed : UInt32) :
    ∃ inst f, l.instances.lookup l.currentIid = some inst ∧
      (instanceHasQuorum inst l.acceptors).1.finalValue = some f ∧
      learnerDeliverNext l freed
        = ({ l with
              instances := l.instances.erase l.currentIid
              gaps := l.gaps.erase freed
              currentIid := l.currentIid + 1 }, some f) ∧
      f.iid = l.currentIid ∧ Backed P l.acceptors f := by
  unfold closed at hc
  unfold learnerDeliverNext
  cases hl : l.instances.lookup l.currentIid with
  | none =>
    rw [hl] at hc
    cases hc
  | some inst =>
    rw [hl] at hc
    have hq : (instanceHasQuorum inst l.acceptors).2 = true := hc
    obtain ⟨hiid, hsound⟩ := h _ _ hl
    obtain ⟨f, hf⟩ := instanceHasQuorum_final hq
    obtain ⟨hfi, hback⟩ := (instanceHasQuorum_sound hsound).final f hf
    have heq : instanceHasQuorum inst l.acceptors
        = ((instanceHasQuorum inst l.acceptors).1, true) := by rw [← hq]
    refine ⟨inst, f, rfl, hf, ?_, hfi, hback⟩
    simp only
    rw [heq]
    simp only [instanceHasQuorum_iid, hiid, hf]

/-- What `learner_deliver_next` does: nothing, or it hands out the message of the current instance,
which is backed, and moves on. -/
theorem learnerDeliverNext_cases (h : l.Sound P) (freed : UInt32) :
    (∃ instances, learnerDeliverNext l freed = ({ l with instances := instances }, none) ∧
      Sound P { l with instances := instances }) ∨
    ∃ f, learnerDeliverNext l freed
        = ({ l with
              instances := l.instances.erase l.currentIid
              gaps := l.gaps.erase freed
              currentIid := l.currentIid + 1 }, some f) ∧
      f.iid = l.currentIid ∧ Backed P l.acceptors f := by
  cases hc : l.closed l.currentIid with
  | false =>
    obtain ⟨instances, heq, hlookup⟩ := learnerDeliverNext_of_open hc freed
    exact .inl ⟨instances, heq, fun k inst hk => h k inst ((hlookup k).symm.trans hk)⟩
  | true =>
    obtain ⟨-, f, -, -, hrest⟩ := learnerDeliverNext_of_closed h hc freed
    exact .inr ⟨f, hrest⟩

/-- A delivery keeps the learner sound, and what it hands out is backed. -/
theorem learnerDeliverNext_sound (h : l.Sound P) (freed : UInt32) :
    (learnerDeliverNext l freed).1.Sound P ∧
      (learnerDeliverNext l freed).1.acceptors = l.acceptors ∧
      ∀ f, (learnerDeliverNext l freed).2 = some f → Backed P l.acceptors f := by
  rcases learnerDeliverNext_cases h freed with ⟨instances, heq, hs⟩ | ⟨f, heq, -, hback⟩
  · rw [heq]
    exact ⟨hs, rfl, fun f hf => nomatch hf⟩
  · rw [heq]
    refine ⟨AList.All.erase h _, rfl, fun f' hf => ?_⟩
    cases hf
    exact hback

end Calls

/-! ## Runs

The calls for gaps leave the instances alone, apart from what they emit, and the other calls leave
the gaps alone. `step_rule` splits a step accordingly. -/

/-- A call of one of the learner's functions. A delivery comes with what it finds in the memory that
it has freed. -/
inductive LearnerOp where
  | receiveAccepted (ack : PaxosAccepted)
  | deliverNext (freed : UInt32)
  | prepare (iid : UInt32)
  | receivePromise (promise : PaxosPromise)
  | receivePreempted (ack : PaxosPreempted)
deriving DecidableEq

/-- The message that a call is given. -/
def LearnerOp.message : LearnerOp → Option PaxosMessage
  | .receiveAccepted ack => some (.accepted ack)
  | .receivePromise promise => some (.promise promise)
  | .receivePreempted ack => some (.preempted ack)
  | .deliverNext _ => none
  | .prepare _ => none

/-- The instance that a call prepares on the learner's own behalf. -/
def LearnerOp.prepares : LearnerOp → Option UInt32
  | .prepare iid => some iid
  | _ => none

/-- A learner with the messages it delivered and the requests it emitted, newest first. -/
structure LoggedLearner where
  learner : Learner
  delivered : List PaxosAccepted
  emitted : List PaxosMessage

namespace LoggedLearner

/-- A fresh learner. -/
def fresh (config : PaxosConfig) (n : Nat) : LoggedLearner where
  learner := learnerNew config n
  delivered := []
  emitted := []

/-- A fresh learner that was told where to start. -/
def startingAt (config : PaxosConfig) (n : Nat) (iid : UInt32) : LoggedLearner where
  learner := learnerSetInstanceId (learnerNew config n) iid
  delivered := []
  emitted := []

/-- One call, logged. -/
def step (r : LoggedLearner) : LearnerOp → LoggedLearner
  | .receiveAccepted ack => { r with learner := learnerReceiveAccepted r.learner ack }
  | .deliverNext freed =>
    { r with
      learner := (learnerDeliverNext r.learner freed).1
      delivered := (learnerDeliverNext r.learner freed).2.toList ++ r.delivered }
  | .prepare iid =>
    { r with
      learner := (learnerPrepare r.learner iid).1
      emitted := .prepare (learnerPrepare r.learner iid).2 :: r.emitted }
  | .receivePromise promise =>
    { r with
      learner := (learnerReceivePromise r.learner promise).1
      emitted := (learnerReceivePromise r.learner promise).2.toList.map .accept ++ r.emitted }
  | .receivePreempted ack =>
    { r with
      learner := (learnerReceivePreempted r.learner ack).1
      emitted := (learnerReceivePreempted r.learner ack).2.toList.map .prepare ++ r.emitted }

/-- A sequence of calls. -/
def run (r : LoggedLearner) (ops : List LearnerOp) : LoggedLearner :=
  ops.foldl step r

end LoggedLearner

/-- Nothing emitted is taken back. -/
theorem LoggedLearner.emitted_subset_step (r : LoggedLearner) (op : LearnerOp) :
    r.emitted ⊆ (r.step op).emitted := by
  cases op with
  | receiveAccepted | deliverNext => exact List.Subset.refl _
  | prepare => exact List.subset_cons_self _ _
  | receivePromise | receivePreempted => exact List.subset_append_right _ _

/-- The call belongs to gap recovery. -/
def LearnerOp.onGaps : LearnerOp → Bool
  | .prepare _ | .receivePromise _ | .receivePreempted _ => true
  | .receiveAccepted _ | .deliverNext _ => false

/-- Gap recovery leaves everything else alone. -/
theorem LoggedLearner.step_onGaps (r : LoggedLearner) {op : LearnerOp} (h : op.onGaps = true) :
    ∃ gaps emitted, r.step op = ⟨{ r.learner with gaps := gaps }, r.delivered, emitted⟩ := by
  cases op with
  | receiveAccepted ack => cases h
  | deliverNext => cases h
  | prepare iid =>
    simp only [step, learnerPrepare]
    split
    · exact ⟨_, _, rfl⟩
    · exact ⟨_, _, rfl⟩
  | receivePromise promise =>
    simp only [step, learnerReceivePromise]
    split
    · exact ⟨_, _, rfl⟩
    · split
      · exact ⟨_, _, rfl⟩
      · split
        · exact ⟨_, _, rfl⟩
        · exact ⟨_, _, rfl⟩
  | receivePreempted ack =>
    simp only [step, learnerReceivePreempted]
    split
    · exact ⟨_, _, rfl⟩
    · exact ⟨_, _, rfl⟩

/-- What a call does: it takes in an accepted message, delivers, or belongs to gap recovery. -/
theorem LoggedLearner.step_rule {I : LoggedLearner → Prop} (r : LoggedLearner) (op : LearnerOp)
    (hreceive : ∀ ack, op = .receiveAccepted ack → I (r.step (.receiveAccepted ack)))
    (hdeliver : ∀ freed, I (r.step (.deliverNext freed)))
    (hgaps : ∀ gaps emitted, I ⟨{ r.learner with gaps := gaps }, r.delivered, emitted⟩) :
    I (r.step op) := by
  have hrecovery : op.onGaps = true → I (r.step op) := by
    intro hop
    obtain ⟨gaps, emitted, heq⟩ := r.step_onGaps hop
    rw [heq]
    exact hgaps gaps emitted
  cases op with
  | receiveAccepted ack => exact hreceive ack rfl
  | deliverNext freed => exact hdeliver freed
  | prepare | receivePromise | receivePreempted => exact hrecovery rfl

/-- Everything held and delivered is backed by what was received; a learner that waits for a late
start holds nothing. -/
structure LoggedLearner.Sound (P : PaxosAccepted → Prop) (n : Nat) (r : LoggedLearner) : Prop where
  acceptors : r.learner.acceptors = n
  learner : r.learner.Sound P
  delivered : ∀ d ∈ r.delivered, Backed P n d
  late : r.learner.lateStart = true → ∀ k, r.learner.instances.lookup k = none

theorem LoggedLearner.sound_fresh (P : PaxosAccepted → Prop) (config : PaxosConfig) (n : Nat) :
    (fresh config n).Sound P n :=
  ⟨rfl, AList.all_empty, List.forall_mem_nil _, fun _ _ => rfl⟩

theorem LoggedLearner.sound_startingAt (P : PaxosAccepted → Prop) (config : PaxosConfig) (n : Nat)
    (iid : UInt32) : (startingAt config n iid).Sound P n :=
  ⟨rfl, AList.all_empty, List.forall_mem_nil _, fun _ _ => rfl⟩

section LoggedStep

variable {P P' : PaxosAccepted → Prop} {n : Nat} {r : LoggedLearner} {op : LearnerOp}

theorem LoggedLearner.Sound.mono (hP : ∀ a, P a → P' a) (h : r.Sound P n) : r.Sound P' n :=
  ⟨h.acceptors, h.learner.mono hP, fun d hd => (h.delivered d hd).mono hP, h.late⟩

/-- One call keeps the learner sound, if an accepted message it takes in counts as received. -/
theorem LoggedLearner.Sound.step (h : r.Sound P n)
    (hP : ∀ ack, op = .receiveAccepted ack → P ack) : (r.step op).Sound P n := by
  refine r.step_rule op (fun ack hop => ?_) (fun freed => ?_) fun gaps emitted => ?_
  · refine ⟨?_, learnerReceiveAccepted_sound h.learner (hP ack hop), h.delivered, fun hl => ?_⟩
    · exact (learnerReceiveAccepted_acceptors r.learner ack).trans h.acceptors
    · exact absurd ((learnerReceiveAccepted_lateStart r.learner ack).symm.trans hl) (by simp)
  · obtain ⟨hs, hacc, hback⟩ := learnerDeliverNext_sound h.learner freed
    refine ⟨hacc.trans h.acceptors, hs, fun d hd => ?_, fun hl => ?_⟩
    · rcases List.mem_append.mp hd with hnew | hold
      · exact h.acceptors ▸ hback d (Option.mem_toList.mp hnew)
      · exact h.delivered d hold
    · -- a learner that still waits has nothing to deliver
      have hlate := h.late ((learnerDeliverNext_lateStart r.learner freed).symm.trans hl)
      show ∀ k, (learnerDeliverNext r.learner freed).1.instances.lookup k = none
      rw [learnerDeliverNext_empty hlate freed]
      exact hlate
  · exact ⟨h.acceptors, h.learner, h.delivered, h.late⟩

end LoggedStep

/-! ## In order

The current id goes up by one with each delivery, so the delivered ids follow each other. After the
last id the counter wraps around to 0. -/

/-- The ids delivered so far follow on `s` one by one, and the next one is the current id. -/
structure LoggedLearner.Ordered (s : UInt32) (r : LoggedLearner) : Prop where
  started : r.learner.lateStart = false
  current : r.learner.currentIid.toNat = s.toNat + 1 + r.delivered.length
  ids : r.delivered.reverse.map (fun d => d.iid.toNat)
    = (List.range r.delivered.length).map fun j => s.toNat + 1 + j

theorem LoggedLearner.ordered_startingAt {config : PaxosConfig} (hc : config.learnerCatchUp = true)
    (n : Nat) {s : UInt32} (hs : s.toNat < 2 ^ 32 - 1) :
    (startingAt config n s).Ordered s where
  started := by
    show (!config.learnerCatchUp) = false
    rw [hc]
    rfl
  current := by
    show (s + 1).toNat = s.toNat + 1 + 0
    rw [UInt32.toNat_add]
    simp
    omega
  ids := rfl

section OrderedStep

variable {P : PaxosAccepted → Prop} {n : Nat} {s : UInt32} {r : LoggedLearner} {op : LearnerOp}

/-- A delivery appends the next id. -/
theorem LoggedLearner.Ordered.deliver (ho : r.Ordered s) {f : PaxosAccepted} {l : Learner}
    (hf : f.iid = r.learner.currentIid) (hlt : f.iid.toNat < 2 ^ 32 - 1)
    (hl : l.lateStart = r.learner.lateStart) (hcur : l.currentIid = r.learner.currentIid + 1) :
    Ordered s ⟨l, f :: r.delivered, r.emitted⟩ where
  started := hl.trans ho.started
  current := by
    have hc := ho.current
    rw [hf] at hlt
    show l.currentIid.toNat = s.toNat + 1 + (f :: r.delivered).length
    rw [hcur, UInt32.toNat_add, List.length_cons]
    simp
    omega
  ids := by
    show ((f :: r.delivered).reverse.map fun d => d.iid.toNat) = _
    rw [List.reverse_cons, List.map_append, ho.ids, List.length_cons, List.range_succ,
      List.map_append, List.map_singleton, List.map_singleton, hf, ho.current]

/-- One call keeps the order. -/
theorem LoggedLearner.Ordered.step (ho : r.Ordered s) (hs : r.Sound P n)
    (hP : ∀ a, P a → a.iid.toNat < 2 ^ 32 - 1) : (r.step op).Ordered s := by
  refine r.step_rule op (fun ack _ => ?_) (fun freed => ?_) fun gaps emitted => ?_
  · obtain ⟨hcur, hlate⟩ := learnerReceiveAccepted_currentIid ho.started ack
    exact ⟨hlate, (congrArg UInt32.toNat hcur).trans ho.current, ho.ids⟩
  · show Ordered s ⟨(learnerDeliverNext r.learner freed).1,
      (learnerDeliverNext r.learner freed).2.toList ++ r.delivered, r.emitted⟩
    rcases learnerDeliverNext_cases hs.learner freed with ⟨instances, heq, -⟩ | ⟨f, heq, hf, hback⟩
    · rw [heq]
      exact ⟨ho.started, ho.current, ho.ids⟩
    · rw [heq]
      exact ho.deliver hf (hP f hback.carried) rfl rfl
  · exact ⟨ho.started, ho.current, ho.ids⟩

end OrderedStep

/-- Soundness and order over a run whose accepted messages count as received. -/
theorem LoggedLearner.run_sound {P : PaxosAccepted → Prop} {n : Nat} {s : UInt32}
    (hP : ∀ a, P a → a.iid.toNat < 2 ^ 32 - 1) :
    ∀ {ops : List LearnerOp} {r : LoggedLearner}, (∀ ack, .receiveAccepted ack ∈ ops → P ack) →
      r.Sound P n → r.Ordered s → (r.run ops).Sound P n ∧ (r.run ops).Ordered s := by
  intro ops
  induction ops with
  | nil => exact fun _ hs ho => ⟨hs, ho⟩
  | cons op ops ih =>
    intro r hops hs ho
    refine ih (fun ack h => hops ack (List.mem_cons_of_mem _ h)) (hs.step ?_) (ho.step hs hP)
    rintro ack rfl
    exact hops ack List.mem_cons_self

/-- **In-order, quorum-backed delivery.** For every acceptor count, every start point and every
sequence of calls, the ids delivered are `s + 1, s + 2, …` without gap or repetition, and each
delivered message was received together with messages for its instance and ballot from a quorum of
distinct acceptors. -/
theorem learner_delivers_in_order (config : PaxosConfig) (hc : config.learnerCatchUp = true)
    (n : Nat) (s : UInt32) (hs : s.toNat < 2 ^ 32 - 1) (ops : List LearnerOp)
    (hiid : ∀ ack, .receiveAccepted ack ∈ ops → ack.iid.toNat < 2 ^ 32 - 1) :
    let r := (LoggedLearner.startingAt config n s).run ops
    r.delivered.reverse.map (fun d => d.iid.toNat)
      = (List.range r.delivered.length).map (fun j => s.toNat + 1 + j) ∧
    ∀ d ∈ r.delivered, .receiveAccepted d ∈ ops ∧
      ∃ Q : Finset Nat, Q ⊆ Finset.range n ∧ paxosQuorum n ≤ Q.card ∧
        ∀ i ∈ Q, ∃ a, .receiveAccepted a ∈ ops ∧ a.iid = d.iid ∧ a.ballot = d.ballot ∧
          a.aid.toNat = i := by
  intro r
  have hstart := LoggedLearner.sound_startingAt (.receiveAccepted · ∈ ops) config n s
  obtain ⟨hsound, hord⟩ := LoggedLearner.run_sound hiid (fun ack h => h) hstart
    (LoggedLearner.ordered_startingAt hc n hs)
  refine ⟨hord.ids, fun d hd => ?_⟩
  obtain ⟨hmem, Q, hQ, hall⟩ := hsound.delivered d hd
  exact ⟨hmem, Q, hQ.1, hQ.2, hall⟩

/-- Three acceptors, a late message for the second instance, one acknowledgement repeated and one
with an id out of range. -/
theorem learner_delivers_in_order_two_instances :
    let ops : List LearnerOp :=
      [.receiveAccepted { iid := 2, ballot := 11, valueBallot := 11, aid := 0, value := [2] },
        .receiveAccepted { iid := 1, ballot := 11, valueBallot := 11, aid := 0, value := [1] },
        .receiveAccepted { iid := 1, ballot := 11, valueBallot := 11, aid := 0, value := [1] },
        .receiveAccepted { iid := 1, ballot := 11, valueBallot := 11, aid := 7, value := [1] },
        .receiveAccepted { iid := 1, ballot := 11, valueBallot := 11, aid := 2, value := [1] },
        .deliverNext 0,
        .receiveAccepted { iid := 2, ballot := 11, valueBallot := 11, aid := 1, value := [2] },
        .deliverNext 0]
    let r := (LoggedLearner.startingAt {} 3 0).run ops
    r.delivered.map (fun d => (d.iid, d.value)) = [(2, [2]), (1, [1])] ∧
      r.delivered.reverse.map (fun d => d.iid.toNat)
        = (List.range r.delivered.length).map (fun j => (0 : UInt32).toNat + 1 + j) := by
  intro ops r
  have hiid : ∀ ack, .receiveAccepted ack ∈ ops → ack.iid.toNat < 2 ^ 32 - 1 := by
    simp [ops, or_imp, forall_and]
  exact ⟨by decide +kernel, (learner_delivers_in_order {} rfl 3 0 (by decide) ops hiid).1⟩

end LibPaxos
