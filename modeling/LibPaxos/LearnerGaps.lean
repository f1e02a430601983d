import LibPaxos.LearnerDelivery
import LibPaxos.ProposerBallots
import Mathlib.Data.Nat.Bitwise

/-!
# A learner filling its gaps

What the calls of gap recovery do to a learner. A gap is the learner's phase 1 for an instance it is
missing: it counts promises in a bitmap, and once a majority has promised it asks for an accept, of
the value noted from the promises or of the empty one.

* **`LoggedLearner.step_gapMove`** — `GapMove` lists the outcomes of a call for the gaps.
* **`LoggedLearner.GapInv.step`** — what a learner keeps: its gaps stand for prepare requests it has
  sent, and it asks for accepts at most once for an instance, because reaching a majority is never
  reset. This needs that no gap is opened twice (`FreshGap`). A delivery is no help with that: it
  means to forget the gap of the instance delivered, but looks for it under an id that it reads
  from freed memory.
-/

namespace LibPaxos

open Learner

/-! ## The bitmap

`acceptor_bitmap` is one byte, a bit for each acceptor. It is read as the set of the ids whose bit
is set: testing a bit is membership, setting it inserts the id, and ids from 8 on have no bit. -/

/-- The acceptor ids whose bit is set. -/
def Learner.bits (bitmap : UInt8) : Finset Nat :=
  (Finset.range 8).filter fun i => bitmap.toNat.testBit i = true

theorem Learner.card_bits (bitmap : UInt8) : (bits bitmap).card = popcount bitmap := by
  unfold bits popcount
  rw [Finset.card_def, Finset.filter_val, Finset.range_val, ← Multiset.coe_range,
    Multiset.filter_coe, Multiset.coe_card]
  congr 2
  funext i
  simp

theorem Learner.bits_zero : bits 0 = ∅ := by
  decide

theorem Learner.toNat_bitMask (aid : Nat) :
    (bitMask aid).toNat = if aid < 8 then 2 ^ aid else 0 := by
  have hmod : (bitMask aid).toNat = 2 ^ aid % 2 ^ 8 := UInt8.toNat_ofNat'
  rw [hmod]
  split
  · rename_i hlt
    exact Nat.mod_eq_of_lt (Nat.pow_lt_pow_right (by decide) hlt)
  · rename_i hge
    exact Nat.mod_eq_zero_of_dvd (Nat.pow_dvd_pow 2 (by omega))

theorem Learner.mem_bits {bitmap : UInt8} {i : Nat} :
    i ∈ bits bitmap ↔ i < 8 ∧ bitmap.toNat.testBit i = true := by
  unfold bits
  rw [Finset.mem_filter, Finset.mem_range]

/-- The test of `is_duplicated` is membership. -/
theorem Learner.and_bitMask_ne_zero {bitmap : UInt8} {aid : Nat} :
    bitmap &&& bitMask aid ≠ 0 ↔ aid ∈ bits bitmap := by
  have hzero : bitmap &&& bitMask aid = 0 ↔ bitmap.toNat &&& (bitMask aid).toNat = 0 := by
    rw [← UInt8.toNat_inj, UInt8.toNat_and]
    rfl
  rw [ne_eq, hzero, toNat_bitMask, mem_bits]
  split
  · rename_i hlt
    rw [Nat.and_two_pow]
    cases bitmap.toNat.testBit aid <;> simp [hlt]
  · rename_i hge
    simp [hge]

/-- Marking an acceptor adds its id, if it has a bit. -/
theorem Learner.bits_or_bitMask (bitmap : UInt8) (aid : Nat) :
    bits (bitmap ||| bitMask aid) = if aid < 8 then insert aid (bits bitmap) else bits bitmap := by
  ext i
  rw [mem_bits, UInt8.toNat_or, toNat_bitMask, Nat.testBit_or]
  split
  · rename_i hlt
    rw [Finset.mem_insert, mem_bits, Nat.testBit_two_pow]
    constructor
    · rintro ⟨hi, h⟩
      rcases Bool.or_eq_true _ _ ▸ h with h | h
      · exact .inr ⟨hi, h⟩
      · exact .inl (of_decide_eq_true h).symm
    · rintro (rfl | ⟨hi, h⟩)
      · exact ⟨hlt, by simp⟩
      · exact ⟨hi, by simp [h]⟩
  · rw [mem_bits]
    simp

/-- What `is_duplicated` does with an id that it has not seen. -/
theorem Learner.isDuplicated_false {bitmap bitmap' : UInt8} {aid : Nat}
    (h : isDuplicated bitmap aid = (bitmap', false)) :
    aid ∉ bits bitmap ∧
      bits bitmap' = if aid < 8 then insert aid (bits bitmap) else bits bitmap := by
  unfold isDuplicated at h
  split at h
  · cases h
  · rename_i hne
    cases h
    exact ⟨fun hmem => hne (and_bitMask_ne_zero.mpr hmem), bits_or_bitMask _ _⟩

theorem Learner.isDuplicated_true {bitmap bitmap' : UInt8} {aid : Nat}
    (h : isDuplicated bitmap aid = (bitmap', true)) : aid ∈ bits bitmap := by
  unfold isDuplicated at h
  split at h
  · rename_i hne
    exact and_bitMask_ne_zero.mp hne
  · cases h

/-! ## What a call does to the gaps

One inversion lemma for each call of the learner. Everything that is proved about gaps later on
splits over these outcomes and not over the bodies of the functions. -/

/-- The prepare request of a gap. -/
def prepareOfGap (gap : Gap) : PaxosPrepare :=
  { iid := gap.iid, ballot := gap.ballot.toUInt16 }

/-- The accept request of a gap. -/
def acceptOfGap (gap : Gap) : PaxosAccept :=
  { iid := gap.iid, ballot := gap.ballot.toUInt16, value := gap.highestAcceptedValue.getD [] }

/-- The gap after a promise was taken in that marks `bitmap`. -/
def takeIn (gap : Gap) (bitmap : UInt8) (promise : PaxosPromise) : Gap :=
  updateAcceptedValue { gap with acceptorBitmap := bitmap } promise

/-- The instance is one that the learner knows to be missing: `learner_has_holes` returns bounds and
`learner_prepare` is called for the ids from the first up to the last, exclusively. -/
def Learner.InHoles (l : Learner) (iid : UInt32) : Prop :=
  ∃ b ∈ learnerHasHoles l, b.1 ≤ iid ∧ iid < b.2

instance (l : Learner) (iid : UInt32) : Decidable (l.InHoles iid) :=
  inferInstanceAs (Decidable (∃ b ∈ learnerHasHoles l, b.1 ≤ iid ∧ iid < b.2))

-- one id at most is tested; the type of all ids is finite, and is not to be enumerated for this
instance (l : Learner) (op : LearnerOp) : Decidable (∀ iid ∈ op.prepares, l.InHoles iid) :=
  Option.decidableForallMem op.prepares

/-- The outcomes of a call for the gaps, the current id and the requests. -/
inductive GapMove (l : Learner) : LearnerOp → Learner → List PaxosMessage → Prop where
  | kept {op : LearnerOp} {l' : Learner} (hg : ∀ k, l'.gaps.lookup k = l.gaps.lookup k)
      (hc : l'.currentIid = l.currentIid) (hl : l'.lateStart = l.lateStart)
      (hh : l.lateStart = true → l'.highestIidClosed = l.highestIidClosed) : GapMove l op l' []
  /-- The first message after a late start sets the current id. -/
  | started {ack : PaxosAccepted} {l' : Learner} (hl : l.lateStart = true)
      (hg : l'.gaps = l.gaps) (hl' : l'.lateStart = false) : GapMove l (.receiveAccepted ack) l' []
  /-- The current instance is delivered, and the gap of whatever id is read is forgotten. -/
  | delivered (freed : UInt32) (instances : KHash Instance) (hl : l.lateStart = false) :
      GapMove l (.deliverNext freed)
        { l with
          instances := instances
          gaps := l.gaps.erase freed
          currentIid := l.currentIid + 1 } []
  | opened {iid : UInt32} (hnew : l.gaps.lookup iid = none) :
      GapMove l (.prepare iid) { l with gaps := l.gaps.insert iid (gapNew iid l.acceptors) }
        [.prepare (prepareOfGap (gapNew iid l.acceptors))]
  /-- A gap goes on to another ballot. -/
  | restarted {op : LearnerOp} {k : UInt32} {gap : Gap} (ballot : UInt32)
      (hk : l.gaps.lookup k = some gap)
      (hop : (op = .prepare k ∧ ballot = gap.ballot) ∨
        ∃ ack, op = .receivePreempted ack ∧ ack.iid = k ∧ ballot = ack.ballot.toUInt32) :
      GapMove l op { l with gaps := l.gaps.replace k (gapReset { gap with ballot := ballot }) }
        [.prepare (prepareOfGap (gapReset { gap with ballot := ballot }))]
  | promised {promise : PaxosPromise} {gap : Gap} {bitmap : UInt8}
      (hk : l.gaps.lookup promise.iid = some gap) (hr : gap.reachedMajority = false)
      (hd : isDuplicated gap.acceptorBitmap promise.aid.toNat = (bitmap, false)) :
      GapMove l (.receivePromise promise)
        { l with gaps := l.gaps.replace promise.iid (takeIn gap bitmap promise) } []
  | requested {promise : PaxosPromise} {gap : Gap} {bitmap : UInt8}
      (hk : l.gaps.lookup promise.iid = some gap) (hr : gap.reachedMajority = false)
      (hd : isDuplicated gap.acceptorBitmap promise.aid.toNat = (bitmap, false))
      (hm : gap.majority ≤ popcount bitmap) :
      GapMove l (.receivePromise promise)
        { l with gaps :=
            l.gaps.replace promise.iid { takeIn gap bitmap promise with reachedMajority := true } }
        [.accept (acceptOfGap (takeIn gap bitmap promise))]

@[simp] theorem takeIn_iid (gap : Gap) (bitmap : UInt8) (m : PaxosPromise) :
    (takeIn gap bitmap m).iid = gap.iid := by
  unfold takeIn updateAcceptedValue
  split <;> rfl

@[simp] theorem takeIn_ballot (gap : Gap) (bitmap : UInt8) (m : PaxosPromise) :
    (takeIn gap bitmap m).ballot = gap.ballot := by
  unfold takeIn updateAcceptedValue
  split <;> rfl

@[simp] theorem takeIn_majority (gap : Gap) (bitmap : UInt8) (m : PaxosPromise) :
    (takeIn gap bitmap m).majority = gap.majority := by
  unfold takeIn updateAcceptedValue
  split <;> rfl

@[simp] theorem takeIn_acceptorBitmap (gap : Gap) (bitmap : UInt8) (m : PaxosPromise) :
    (takeIn gap bitmap m).acceptorBitmap = bitmap := by
  unfold takeIn updateAcceptedValue
  split <;> rfl

@[simp] theorem takeIn_reachedMajority (gap : Gap) (bitmap : UInt8) (m : PaxosPromise) :
    (takeIn gap bitmap m).reachedMajority = gap.reachedMajority := by
  unfold takeIn updateAcceptedValue
  split <;> rfl

section GapCalls

variable {l : Learner}

/-- Overwriting a cell with what it holds changes no lookup. -/
theorem lookup_replace_self {h : KHash Gap} {k : UInt32} {gap : Gap} (hk : h.lookup k = some gap)
    (k' : UInt32) : (h.replace k gap).lookup k' = h.lookup k' := by
  rw [AList.lookup_replace k' gap (AList.mem_of_lookup hk)]
  split
  · rename_i heq
    rw [heq, hk]
  · rfl

theorem GapMove.same (l : Learner) (op : LearnerOp) : GapMove l op l [] :=
  .kept (fun _ => rfl) rfl rfl fun _ => rfl

theorem learnerReceiveAccepted_gapMove (l : Learner) (ack : PaxosAccepted) :
    GapMove l (.receiveAccepted ack) (learnerReceiveAccepted l ack) [] := by
  unfold learnerReceiveAccepted
  simp only
  cases hl : l.lateStart with
  | false =>
    simp only [Bool.false_eq_true, if_false]
    split
    · exact .same l _
    · refine .kept (fun _ => rfl) rfl rfl fun h => ?_
      rw [hl] at h
      cases h
  | true =>
    simp only [if_true]
    split
    · exact .started hl rfl rfl
    · exact .started hl rfl rfl

theorem learnerDeliverNext_gapMove {P : PaxosAccepted → Prop} (hs : l.Sound P)
    (hlate : l.lateStart = true → ∀ k, l.instances.lookup k = none) (freed : UInt32) :
    GapMove l (.deliverNext freed) (learnerDeliverNext l freed).1 [] := by
  cases hl : l.lateStart with
  | true =>
    rw [learnerDeliverNext_empty (hlate hl)]
    exact .same l _
  | false =>
    rcases learnerDeliverNext_cases hs freed with ⟨instances, heq, -⟩ | ⟨f, heq, -⟩
    · rw [heq]
      exact .kept (fun _ => rfl) rfl rfl fun _ => rfl
    · rw [heq]
      exact .delivered freed _ hl

theorem learnerPrepare_gapMove (l : Learner) (iid : UInt32) :
    GapMove l (.prepare iid) (learnerPrepare l iid).1 [.prepare (learnerPrepare l iid).2] := by
  unfold learnerPrepare
  split
  · rename_i hnew
    exact .opened hnew
  · rename_i gap hk
    exact .restarted gap.ballot hk (.inl ⟨rfl, rfl⟩)

theorem learnerReceivePreempted_gapMove (l : Learner) (ack : PaxosPreempted) :
    GapMove l (.receivePreempted ack) (learnerReceivePreempted l ack).1
      ((learnerReceivePreempted l ack).2.toList.map .prepare) := by
  unfold learnerReceivePreempted
  split
  · exact .same l _
  · rename_i gap hk
    exact .restarted ack.ballot.toUInt32 hk (.inr ⟨ack, rfl, rfl, rfl⟩)

/-- `update_gap` of a promise that marks `bitmap`. -/
theorem updateGap_of_new {gap : Gap} {bitmap : UInt8} {promise : PaxosPromise}
    (hd : isDuplicated gap.acceptorBitmap promise.aid.toNat = (bitmap, false)) :
    updateGap gap promise =
      if gap.majority ≤ popcount bitmap then
        ({ takeIn gap bitmap promise with reachedMajority := true }, true)
      else (takeIn gap bitmap promise, false) := by
  unfold updateGap
  rw [hd]
  show isMajorityPromised (takeIn gap bitmap promise) = _
  simp only [isMajorityPromised, takeIn_majority, takeIn_acceptorBitmap]

/-- The outcomes of `learner_receive_promise`. -/
inductive PromiseMove (l : Learner) (promise : PaxosPromise) :
    Learner × Option PaxosAccept → Prop where
  | missing (hk : l.gaps.lookup promise.iid = none) : PromiseMove l promise (l, none)
  | late {gap : Gap} (hk : l.gaps.lookup promise.iid = some gap) (hr : gap.reachedMajority = true) :
      PromiseMove l promise (l, none)
  | duplicate {gap : Gap} (hk : l.gaps.lookup promise.iid = some gap)
      (hr : gap.reachedMajority = false) (hmem : promise.aid.toNat ∈ bits gap.acceptorBitmap) :
      PromiseMove l promise ({ l with gaps := l.gaps.replace promise.iid gap }, none)
  | taken {gap : Gap} {bitmap : UInt8} (hk : l.gaps.lookup promise.iid = some gap)
      (hr : gap.reachedMajority = false)
      (hd : isDuplicated gap.acceptorBitmap promise.aid.toNat = (bitmap, false))
      (hm : popcount bitmap < gap.majority) :
      PromiseMove l promise
        ({ l with gaps := l.gaps.replace promise.iid (takeIn gap bitmap promise) }, none)
  | completed {gap : Gap} {bitmap : UInt8} (hk : l.gaps.lookup promise.iid = some gap)
      (hr : gap.reachedMajority = false)
      (hd : isDuplicated gap.acceptorBitmap promise.aid.toNat = (bitmap, false))
      (hm : gap.majority ≤ popcount bitmap) :
      PromiseMove l promise
        ({ l with gaps :=
            l.gaps.replace promise.iid { takeIn gap bitmap promise with reachedMajority := true } },
          some (acceptOfGap (takeIn gap bitmap promise)))

theorem learnerReceivePromise_move (l : Learner) (promise : PaxosPromise) :
    PromiseMove l promise (learnerReceivePromise l promise) := by
  unfold learnerReceivePromise
  cases hk : l.gaps.lookup promise.iid with
  | none => exact .missing hk
  | some gap =>
    simp only
    -- the branches in the order of the source
    cases hr : gap.reachedMajority with
    | true => exact .late hk hr
    | false =>
      rw [if_neg Bool.false_ne_true]
      cases hd : isDuplicated gap.acceptorBitmap promise.aid.toNat with
      | mk bitmap dup =>
        cases dup with
        | true =>
          have heq : updateGap gap promise = (gap, false) := by
            unfold updateGap
            rw [hd]
          rw [heq]
          exact .duplicate hk hr (isDuplicated_true hd)
        | false =>
          rw [updateGap_of_new hd]
          by_cases hm : gap.majority ≤ popcount bitmap
          · rw [if_pos hm]
            exact .completed hk hr hd hm
          · rw [if_neg hm]
            exact .taken hk hr hd (Nat.lt_of_not_le hm)

theorem learnerReceivePromise_gapMove (l : Learner) (promise : PaxosPromise) :
    GapMove l (.receivePromise promise) (learnerReceivePromise l promise).1
      ((learnerReceivePromise l promise).2.toList.map .accept) := by
  have hmove := learnerReceivePromise_move l promise
  generalize learnerReceivePromise l promise = res at hmove
  cases hmove with
  | missing | late => exact .same l _
  | duplicate hk => exact .kept (lookup_replace_self hk) rfl rfl fun _ => rfl
  | taken hk hr hd => exact .promised hk hr hd
  | completed hk hr hd hm => exact .requested hk hr hd hm

end GapCalls

/-- **Every call is one of the outcomes**, for a learner whose instances sit under their ids. -/
theorem LoggedLearner.step_gapMove {P : PaxosAccepted → Prop} {n : Nat} {r : LoggedLearner}
    (hs : r.Sound P n) (op : LearnerOp) :
    ∃ out, GapMove r.learner op (r.step op).learner out ∧
      (r.step op).emitted = out ++ r.emitted := by
  cases op with
  | receiveAccepted ack => exact ⟨_, learnerReceiveAccepted_gapMove r.learner ack, rfl⟩
  | deliverNext freed => exact ⟨_, learnerDeliverNext_gapMove hs.learner hs.late freed, rfl⟩
  | prepare iid => exact ⟨_, learnerPrepare_gapMove r.learner iid, rfl⟩
  | receivePromise promise => exact ⟨_, learnerReceivePromise_gapMove r.learner promise, rfl⟩
  | receivePreempted ack => exact ⟨_, learnerReceivePreempted_gapMove r.learner ack, rfl⟩

/-! ## The invariant

A gap that has reached its majority takes in no promise any more, so it makes no second accept
request. It can only make one if it is deleted and opened again, which `FreshGap` excludes. -/

/-- The call opens no gap for an instance that the learner has asked accepts for. -/
def LoggedLearner.FreshGap (r : LoggedLearner) (op : LearnerOp) : Prop :=
  ∀ iid ∈ op.prepares, r.learner.gaps.lookup iid = none → ∀ a ∈ acceptsOf r.emitted, a.iid ≠ iid

/-- What a learner that fills its gaps keeps, when `E` is what it emitted: before a late start there
is nothing; the prepare request of a gap was emitted; a gap for whose instance an accept was
requested has reached its majority; and there is one such request at most for an instance. -/
structure Learner.GapInv (n : Nat) (l : Learner) (E : List PaxosMessage) : Prop where
  late : l.lateStart = true → (∀ k, l.gaps.lookup k = none) ∧ E = [] ∧
    l.highestIidClosed ≤ l.currentIid
  gaps : l.gaps.All fun k gap => gap.iid = k ∧ gap.majority = paxosQuorum n ∧
    .prepare (prepareOfGap gap) ∈ E
  requested : ∀ a ∈ acceptsOf E, ∀ gap, l.gaps.lookup a.iid = some gap →
    gap.reachedMajority = true
  single : ∀ a ∈ acceptsOf E, ∀ a' ∈ acceptsOf E, a.iid = a'.iid → a = a'

/-- Holes are between the current instance and a closed one. -/
theorem Learner.InHoles.current_lt {l : Learner} {iid : UInt32} (h : l.InHoles iid) :
    l.currentIid < l.highestIidClosed := by
  obtain ⟨b, hb, -⟩ := h
  unfold learnerHasHoles at hb
  split at hb
  · assumption
  · cases hb

/-- Nothing has happened yet. -/
theorem Learner.gapInv_nil {n : Nat} {l : Learner} (hg : ∀ k, l.gaps.lookup k = none)
    (hl : l.lateStart = true → l.highestIidClosed ≤ l.currentIid) : l.GapInv n [] where
  late h := ⟨hg, rfl, hl h⟩
  gaps k gap hk := absurd ((hg k).symm.trans hk) (by simp)
  requested a ha := by cases ha
  single a ha := by cases ha

section GapStep

variable {n : Nat} {l l' : Learner} {E out : List PaxosMessage} {op : LearnerOp}

/-- A learner that waits for a late start has no gap to find. -/
theorem Learner.GapInv.not_late {k : UInt32} {gap : Gap} (hi : l.GapInv n E)
    (hk : l.gaps.lookup k = some gap) : l.lateStart = false := by
  cases hl : l.lateStart with
  | false => rfl
  | true => exact absurd (((hi.late hl).1 k).symm.trans hk) (by simp)

/-- Overwriting a gap keeps the invariant, if it stays the gap of its instance and keeps a majority
it had. -/
theorem Learner.GapInv.replace (hi : l.GapInv n E) {k : UInt32} {gap gap' : Gap}
    (hk : l.gaps.lookup k = some gap) (hiid : gap'.iid = gap.iid)
    (hmaj : gap'.majority = gap.majority)
    (hreach : gap.reachedMajority = true → gap'.reachedMajority = true)
    (hp : .prepare (prepareOfGap gap') ∈ out ++ E) (hout : acceptsOf out = []) :
    GapInv n { l with gaps := l.gaps.replace k gap' } (out ++ E) := by
  have hlate := hi.not_late hk
  obtain ⟨h₁, h₂, -⟩ := hi.gaps _ _ hk
  have hsame : acceptsOf (out ++ E) = acceptsOf E := by rw [acceptsOf_append, hout, List.nil_append]
  refine ⟨fun h => ?_, ?_, ?_, ?_⟩
  · exact absurd (hlate.symm.trans h) (by simp)
  · have hold : l.gaps.All fun k gap => gap.iid = k ∧ gap.majority = paxosQuorum n ∧
        .prepare (prepareOfGap gap) ∈ out ++ E :=
      hi.gaps.mono fun k g h => ⟨h.1, h.2.1, List.mem_append_right _ h.2.2⟩
    exact hold.replace (AList.mem_of_lookup hk) ⟨hiid.trans h₁, hmaj.trans h₂, hp⟩
  · rw [hsame]
    intro a ha g hg
    rw [AList.lookup_replace _ _ (AList.mem_of_lookup hk)] at hg
    split at hg
    · rename_i heq
      cases hg
      exact hreach (hi.requested a ha gap (heq ▸ hk))
    · exact hi.requested a ha g hg
  · rw [hsame]
    exact hi.single

/-- The request of a gap that reaches its majority is the first one for its instance. -/
theorem Learner.GapInv.request (hi : l.GapInv n E) {k : UInt32} {gap gap' : Gap}
    (hk : l.gaps.lookup k = some gap) (hr : gap.reachedMajority = false)
    (hiid : gap'.iid = gap.iid) (hmaj : gap'.majority = gap.majority)
    (hp : prepareOfGap gap' = prepareOfGap gap) :
    GapInv n { l with gaps := l.gaps.replace k { gap' with reachedMajority := true } }
      (.accept (acceptOfGap gap') :: E) := by
  obtain ⟨h₁, h₂, h₃⟩ := hi.gaps _ _ hk
  have hkey : (acceptOfGap gap').iid = k := hiid.trans h₁
  -- a request made before would have left the gap with a majority
  have hfirst : ∀ a ∈ acceptsOf E, a.iid ≠ k := by
    rintro a ha rfl
    exact absurd (hr.symm.trans (hi.requested a ha gap hk)) (by simp)
  refine ⟨fun h => ?_, ?_, ?_, ?_⟩
  · exact absurd ((hi.not_late hk).symm.trans h) (by simp)
  · have hold : l.gaps.All fun k gap => gap.iid = k ∧ gap.majority = paxosQuorum n ∧
        .prepare (prepareOfGap gap) ∈ PaxosMessage.accept (acceptOfGap gap') :: E :=
      hi.gaps.mono fun k g h => ⟨h.1, h.2.1, List.mem_cons_of_mem _ h.2.2⟩
    refine hold.replace (AList.mem_of_lookup hk) ⟨hiid.trans h₁, hmaj.trans h₂, ?_⟩
    exact List.mem_cons_of_mem _ (hp.symm ▸ h₃)
  · intro a ha g hg
    rw [AList.lookup_replace _ _ (AList.mem_of_lookup hk)] at hg
    split at hg
    · cases hg
      rfl
    · rename_i hne
      rcases List.mem_cons.mp ha with rfl | ha
      · exact absurd hkey hne
      · exact hi.requested a ha g hg
  · intro a ha a' ha' heq
    rcases List.mem_cons.mp ha with rfl | hold
    · rcases List.mem_cons.mp ha' with rfl | hold'
      · rfl
      · exact absurd (heq.symm.trans hkey) (hfirst a' hold')
    · rcases List.mem_cons.mp ha' with rfl | hold'
      · exact absurd (heq.trans hkey) (hfirst a hold)
      · exact hi.single a hold a' hold' heq

/-- A learner that has emitted nothing has no gaps. -/
theorem Learner.GapInv.gaps_eq_none (hi : l.GapInv n []) (k : UInt32) : l.gaps.lookup k = none := by
  cases hk : l.gaps.lookup k with
  | none => rfl
  | some gap =>
    obtain ⟨-, -, hmem⟩ := hi.gaps k gap hk
    cases hmem

/-- **One call keeps the invariant**, if a learner prepares only what it is missing and opens no gap
for an instance that it has asked accepts for. -/
theorem Learner.GapInv.move (hi : l.GapInv n E) (hn : l.acceptors = n)
    (hprep : ∀ iid, op = .prepare iid → l.InHoles iid)
    (hfresh : ∀ iid, op = .prepare iid → l.gaps.lookup iid = none → ∀ a ∈ acceptsOf E, a.iid ≠ iid)
    (hm : GapMove l op l' out) : l'.GapInv n (out ++ E) := by
  cases hm with
  | kept hg hc hl hh =>
    refine ⟨fun h => ?_, ?_, ?_, hi.single⟩
    · obtain ⟨h₁, h₂, h₃⟩ := hi.late (hl ▸ h)
      exact ⟨fun k => (hg k).trans (h₁ k), h₂, by rw [hh (hl ▸ h), hc]; exact h₃⟩
    · intro k gap hk
      rw [hg] at hk
      exact hi.gaps k gap hk
    · intro a ha gap hk
      rw [hg] at hk
      exact hi.requested a ha gap hk
  | started hl hg hl' =>
    -- a learner that has not started has emitted nothing
    obtain ⟨h₁, h₂, -⟩ := hi.late hl
    subst h₂
    exact gapInv_nil (fun k => hg ▸ h₁ k) fun h => absurd (hl'.symm.trans h) (by simp)
  | delivered freed instances hl =>
    refine ⟨fun h => absurd (hl.symm.trans h) (by simp), hi.gaps.erase freed, ?_, hi.single⟩
    intro a ha gap hk
    rw [AList.lookup_erase_cases] at hk
    split at hk
    · cases hk
    · exact hi.requested a ha gap hk
  | @opened iid hnew =>
    have hholes := (hprep iid rfl).current_lt
    refine ⟨fun h => ?_, ?_, ?_, hi.single⟩
    · -- before the start there are no holes
      exact absurd hholes (UInt32.not_lt.mpr (hi.late h).2.2)
    · have hold : l.gaps.All fun k gap => gap.iid = k ∧ gap.majority = paxosQuorum n ∧
          .prepare (prepareOfGap gap) ∈
            PaxosMessage.prepare (prepareOfGap (gapNew iid l.acceptors)) :: E :=
        hi.gaps.mono fun k g h => ⟨h.1, h.2.1, List.mem_cons_of_mem _ h.2.2⟩
      exact hold.insert ⟨rfl, by rw [← hn]; rfl, List.mem_cons_self⟩
    · intro a ha gap hk
      rw [AList.lookup_insert_cases, if_neg (hfresh iid rfl hnew a ha)] at hk
      exact hi.requested a ha gap hk
  | restarted ballot hk _ => exact hi.replace hk rfl rfl id List.mem_cons_self rfl
  | @promised promise gap bitmap hk hr hd =>
    refine @GapInv.replace n l E [] hi _ _ _ hk (takeIn_iid _ _ _) (takeIn_majority _ _ _) ?_ ?_ rfl
    · rw [takeIn_reachedMajority]
      exact id
    · have := (hi.gaps _ _ hk).2.2
      unfold prepareOfGap at this ⊢
      rw [takeIn_iid, takeIn_ballot]
      exact this
  | @requested promise gap bitmap hk hr hd hmaj =>
    refine hi.request hk hr (takeIn_iid _ _ _) (takeIn_majority _ _ _) ?_
    unfold prepareOfGap
    rw [takeIn_iid, takeIn_ballot]

end GapStep

/-- A sound learner with the invariant of its gaps. -/
structure LoggedLearner.GapInv (n : Nat) (r : LoggedLearner) : Prop where
  sound : r.Sound (fun _ => True) n
  gaps : r.learner.GapInv n r.emitted
  requests : ∀ m ∈ r.emitted, m.isRequest = true

theorem LoggedLearner.gapInv_fresh (config : PaxosConfig) (n : Nat) :
    (fresh config n).GapInv n where
  sound := sound_fresh _ config n
  gaps := gapInv_nil (fun _ => rfl) fun _ => UInt32.le_refl 1
  requests m hm := by cases hm

theorem LoggedLearner.gapInv_startingAt (config : PaxosConfig) (n : Nat) {iid : UInt32}
    (h : iid.toNat < 2 ^ 32 - 1) : (startingAt config n iid).GapInv n where
  sound := sound_startingAt _ config n iid
  gaps := by
    refine gapInv_nil (fun _ => rfl) fun _ => ?_
    show iid ≤ iid + 1
    rw [UInt32.le_iff_toNat_le, UInt32.toNat_add]
    simp
    omega
  requests m hm := by cases hm

theorem GapMove.requests {l l' : Learner} {op : LearnerOp} {out : List PaxosMessage}
    (hm : GapMove l op l' out) : ∀ m ∈ out, m.isRequest = true := by
  intro m hmem
  cases hm with
  | opened | restarted | requested =>
    obtain rfl := List.mem_singleton.mp hmem
    rfl
  | kept | started | delivered | promised => cases hmem

theorem LoggedLearner.GapInv.step {n : Nat} {r : LoggedLearner} {op : LearnerOp} (hi : r.GapInv n)
    (hprep : ∀ iid, op = .prepare iid → r.learner.InHoles iid) (hfresh : r.FreshGap op) :
    (r.step op).GapInv n := by
  obtain ⟨out, hm, hemit⟩ := LoggedLearner.step_gapMove hi.sound op
  refine ⟨hi.sound.step fun _ _ => trivial, ?_, ?_⟩
  · rw [hemit]
    refine hi.gaps.move hi.sound.acceptors hprep ?_ hm
    rintro iid rfl
    exact hfresh iid rfl
  · rw [hemit]
    intro m hmem
    rcases List.mem_append.mp hmem with hnew | hold
    · exact hm.requests m hnew
    · exact hi.requests m hold

end LibPaxos
