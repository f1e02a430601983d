import LibPaxos.LearnerOrder
import Mathlib.Order.Bounds.Basic

/-!
# The position of a learner

A learner has two marks: the id it delivers next, and the highest id of an instance that has
closed. `learner_has_holes` compares the two. `learner_set_instance_id` sets both; without catch-up
the first accepted message sets the first one again, whatever was set before.

* **`holes_exact`** — holes are reported exactly when an instance after the current one has reached
  a quorum, and up to the last one that has.
* **`positioned_delivers_after`** — what keeps a positioned learner from delivering an old instance.
* **`holes_after_last_id`**, **`positioned_delivers_again`** — starts where that fails.
-/

namespace LibPaxos

open Learner

/-! ## The highest closed id

The mark goes up when an instance closes and never down, so it is the largest id that has closed, or
where the learner was started. -/

/-- Asking for the quorum twice gives the same answer. -/
theorem Learner.instanceHasQuorum_again (inst : Instance) (n : Nat) :
    (instanceHasQuorum (instanceHasQuorum inst n).1 n).2 = (instanceHasQuorum inst n).2 := by
  cases hq : (instanceHasQuorum inst n).2 with
  | false =>
    rw [(instanceHasQuorum_false hq).1]
    exact hq
  | true =>
    obtain ⟨f, hf⟩ := instanceHasQuorum_final hq
    rw [instanceHasQuorum_of_final hf]

section Update

variable {l : Learner} {k : UInt32} {inst : Instance}

theorem closed_learnerUpdate (l : Learner) (k : UInt32) (inst : Instance) (j : UInt32) :
    (learnerUpdate l k inst).closed j
      = if j = k then (instanceHasQuorum inst l.acceptors).2 else l.closed j := by
  show ((l.instances.insert k (instanceHasQuorum inst l.acceptors).1).lookup j).any _ = _
  rw [AList.lookup_insert_cases]
  split
  · exact instanceHasQuorum_again inst l.acceptors
  · rfl

theorem learnerUpdate_highestIidClosed (hk : inst.iid = k) :
    (learnerUpdate l k inst).highestIidClosed
      = if (instanceHasQuorum inst l.acceptors).2 = true ∧ k > l.highestIidClosed then k
        else l.highestIidClosed := by
  show (if (instanceHasQuorum inst l.acceptors).2 = true ∧
      (instanceHasQuorum inst l.acceptors).1.iid > l.highestIidClosed
    then (instanceHasQuorum inst l.acceptors).1.iid else l.highestIidClosed) = _
  simp only [instanceHasQuorum_iid, hk]

end Update

/-- `C` holds of the ids of all instances that have ever closed. They are not above the highest
closed id, which is one of them unless the learner is not below it. -/
structure Learner.HighMark (C : UInt32 → Prop) (l : Learner) : Prop where
  closed : ∀ k, l.closed k = true → C k
  le : ∀ k, C k → k ≤ l.highestIidClosed
  reached : C l.highestIidClosed ∨ l.highestIidClosed ≤ l.currentIid

section HighMark

variable {C : UInt32 → Prop} {l : Learner}

/-- A call that closes nothing and keeps the highest closed id. -/
theorem Learner.HighMark.of_closed_le {l' : Learner} (h : l.HighMark C)
    (hcl : ∀ k, l'.closed k = true → l.closed k = true)
    (hhigh : l'.highestIidClosed = l.highestIidClosed)
    (hreach : C l.highestIidClosed ∨ l.highestIidClosed ≤ l'.currentIid) :
    l'.HighMark fun k => C k ∨ l'.closed k = true where
  closed k hk := .inr hk
  le k hk := by
    rw [hhigh]
    rcases hk with hk | hk
    · exact h.le k hk
    · exact h.le k (h.closed k (hcl k hk))
  reached := by
    rw [hhigh]
    exact hreach.imp_left .inl

/-- An instance that closes counts for the highest closed id. -/
theorem Learner.HighMark.update (h : l.HighMark C) {k : UInt32} {inst : Instance}
    (hk : inst.iid = k) :
    (learnerUpdate l k inst).HighMark fun j => C j ∨ (learnerUpdate l k inst).closed j = true := by
  have hhigh := learnerUpdate_highestIidClosed (l := l) hk
  have hclosed := closed_learnerUpdate l k inst
  -- an instance that is closed now was closed before, or it is the one that was stored
  have hcases : ∀ j, C j ∨ (learnerUpdate l k inst).closed j = true →
      j ≤ l.highestIidClosed ∨ j = k ∧ (instanceHasQuorum inst l.acceptors).2 = true := by
    intro j hj
    rcases hj with hj | hj
    · exact .inl (h.le j hj)
    · rw [hclosed] at hj
      split at hj
      · exact .inr ⟨‹j = k›, hj⟩
      · exact .inl (h.le j (h.closed j hj))
  by_cases hnew : (instanceHasQuorum inst l.acceptors).2 = true ∧ k > l.highestIidClosed
  · rw [if_pos hnew] at hhigh
    refine ⟨fun j hj => .inr hj, fun j hj => ?_, .inl (.inr ?_)⟩
    · rw [hhigh]
      rcases hcases j hj with hle | ⟨rfl, -⟩
      · exact UInt32.le_trans hle (UInt32.le_of_lt hnew.2)
      · exact UInt32.le_refl j
    · rw [hhigh, hclosed, if_pos rfl]
      exact hnew.1
  · rw [if_neg hnew] at hhigh
    refine ⟨fun j hj => .inr hj, fun j hj => ?_, ?_⟩
    · rw [hhigh]
      rcases hcases j hj with hle | ⟨rfl, hq⟩
      · exact hle
      · exact UInt32.not_lt.mp fun hgt => hnew ⟨hq, hgt⟩
    · rw [hhigh]
      exact h.reached.imp_left .inl

/-- **A message is taken in.** The only instance that it can close is its own. -/
theorem Learner.HighMark.receive (h : l.HighMark C) (hs : l.Sound fun _ => True)
    (hl : l.lateStart = false) (ack : PaxosAccepted) :
    (learnerReceiveAccepted l ack).HighMark fun k =>
      C k ∨ (learnerReceiveAccepted l ack).closed k = true := by
  rw [learnerReceiveAccepted_of_started hl]
  split
  · exact h.of_closed_le (fun _ hk => hk) rfl h.reached
  · apply h.update
    cases hk : l.instances.lookup ack.iid with
    | none =>
      have hnew := instanceNew_sound (fun _ => True) l.acceptors ack.iid
      exact (instanceUpdate_sound hnew (.inl rfl) trivial rfl).2
    | some inst =>
      obtain ⟨hiid, hinst⟩ := hs _ _ hk
      exact (instanceUpdate_sound hinst (.inr hiid) trivial rfl).2

/-- **A delivery.** The current instance has closed, so the highest closed id is not below it. -/
theorem Learner.HighMark.deliver (h : l.HighMark C) (hs : l.Sound fun _ => True) (freed : UInt32) :
    (learnerDeliverNext l freed).1.HighMark fun k =>
      C k ∨ (learnerDeliverNext l freed).1.closed k = true := by
  cases hc : l.closed l.currentIid with
  | false =>
    obtain ⟨instances, heq, hlookup⟩ := learnerDeliverNext_of_open hc freed
    rw [heq]
    refine h.of_closed_le (fun k hk => ?_) rfl h.reached
    unfold Learner.closed at hk ⊢
    rw [← hlookup]
    exact hk
  | true =>
    obtain ⟨inst, f, -, -, heq, -⟩ := learnerDeliverNext_of_closed hs hc freed
    rw [heq]
    refine h.of_closed_le (fun k hk => ?_) rfl ?_
    · unfold Learner.closed at hk ⊢
      rw [AList.lookup_erase_cases] at hk
      split at hk
      · cases hk
      · exact hk
    · -- a mark at or below the current id is the current id, which has closed
      rcases h.reached with hreach | hle
      · exact .inl hreach
      · have hcur : C l.currentIid := h.closed _ hc
        rw [UInt32.le_antisymm hle (h.le _ hcur)]
        exact .inl hcur

end HighMark

/-! ## Over a run -/

/-- The learner before a run: new, or new and positioned. -/
def LoggedLearner.positioned (config : PaxosConfig) (n : Nat) : Option UInt32 → LoggedLearner
  | none => fresh config n
  | some s => startingAt config n s

/-- The instance had reached a quorum at some point of the run. -/
def LoggedLearner.ReachedQuorum (r : LoggedLearner) (ops : List LearnerOp) (k : UInt32) : Prop :=
  ∃ front, front <+: ops ∧ (r.run front).learner.closed k = true

section Run

variable {r : LoggedLearner} {n : Nat}

theorem LoggedLearner.run_concat (r : LoggedLearner) (ops : List LearnerOp) (op : LearnerOp) :
    r.run (ops ++ [op]) = (r.run ops).step op :=
  List.foldl_concat _ _ _ _

theorem LoggedLearner.reachedQuorum_concat (r : LoggedLearner) (ops : List LearnerOp)
    (op : LearnerOp) : r.ReachedQuorum (ops ++ [op]) = fun k =>
      r.ReachedQuorum ops k ∨ ((r.run ops).step op).learner.closed k = true := by
  funext k
  apply propext
  constructor
  · rintro ⟨front, hfront, hk⟩
    rcases List.prefix_concat_iff.mp hfront with rfl | hold
    · rw [run_concat] at hk
      exact .inr hk
    · exact .inl ⟨front, hold, hk⟩
  · rintro (⟨front, hfront, hk⟩ | hk)
    · exact ⟨front, hfront.trans (List.prefix_append _ _), hk⟩
    · refine ⟨ops ++ [op], List.prefix_rfl, ?_⟩
      rw [run_concat]
      exact hk

/-- One call keeps the mark. -/
theorem LoggedLearner.highMark_step {C : UInt32 → Prop} (h : r.learner.HighMark C)
    (hs : r.Sound (fun _ => True) n) (hl : r.learner.lateStart = false) (op : LearnerOp) :
    (r.step op).learner.HighMark (fun k => C k ∨ (r.step op).learner.closed k = true) ∧
      (r.step op).learner.lateStart = false := by
  refine r.step_rule (I := fun r' =>
    r'.learner.HighMark (fun k => C k ∨ r'.learner.closed k = true) ∧
      r'.learner.lateStart = false) op (fun ack _ => ?_) (fun freed => ?_) fun gaps emitted => ?_
  · exact ⟨h.receive hs.learner hl ack, learnerReceiveAccepted_lateStart r.learner ack⟩
  · exact ⟨h.deliver hs.learner freed, (learnerDeliverNext_lateStart r.learner freed).trans hl⟩
  · exact ⟨h.of_closed_le (fun _ hk => hk) rfl h.reached, hl⟩

/-- **The highest closed id over a run**, by induction on the calls made so far. -/
theorem LoggedLearner.highMark_run (hs : r.Sound (fun _ => True) n)
    (hl : r.learner.lateStart = false) (hempty : ∀ k, r.learner.closed k = false)
    (hle : r.learner.highestIidClosed ≤ r.learner.currentIid) (ops : List LearnerOp) :
    (r.run ops).learner.HighMark (r.ReachedQuorum ops) := by
  suffices h : (r.run ops).learner.HighMark (r.ReachedQuorum ops) ∧
      (r.run ops).Sound (fun _ => True) n ∧ (r.run ops).learner.lateStart = false from h.1
  induction ops using List.reverseRecOn with
  | nil =>
    have hnone : ∀ k, ¬ r.ReachedQuorum [] k := by
      rintro k ⟨front, hfront, hk⟩
      obtain rfl := List.prefix_nil.mp hfront
      exact absurd (hk.symm.trans (hempty k)) (by simp)
    refine ⟨⟨fun k hk => ?_, fun k hk => absurd hk (hnone k), .inr hle⟩, hs, hl⟩
    exact absurd (hk.symm.trans (hempty k)) (by simp)
  | append_singleton ops op ih =>
    obtain ⟨hmark, hsound, hlate⟩ := ih
    rw [run_concat, reachedQuorum_concat]
    obtain ⟨hmark', hlate'⟩ := highMark_step hmark hsound hlate op
    exact ⟨hmark', hsound.step fun _ _ => trivial, hlate'⟩

end Run

theorem learnerHasHoles_eq_some {l : Learner} {lo hi : UInt32} :
    learnerHasHoles l = some (lo, hi) ↔
      l.currentIid < l.highestIidClosed ∧ l.currentIid = lo ∧ l.highestIidClosed = hi := by
  unfold learnerHasHoles
  split
  · rename_i hlt
    simp [hlt]
  · rename_i hle
    simp [hle]

theorem isSome_learnerHasHoles {l : Learner} :
    (learnerHasHoles l).isSome ↔ l.currentIid < l.highestIidClosed := by
  rw [Option.isSome_iff_exists]
  constructor
  · rintro ⟨⟨lo, hi⟩, h⟩
    exact (learnerHasHoles_eq_some.mp h).1
  · exact fun hlt => ⟨_, learnerHasHoles_eq_some.mpr ⟨hlt, rfl, rfl⟩⟩

/-- The mark of a learner with catch-up that starts anywhere but at the last id. -/
theorem LoggedLearner.highMark_positioned {config : PaxosConfig}
    (hc : config.learnerCatchUp = true) (n : Nat) {start : Option UInt32}
    (hs : start ≠ some 4294967295) (ops : List LearnerOp) :
    ((positioned config n start).run ops).learner.HighMark
      ((positioned config n start).ReachedQuorum ops) := by
  have hlate : (!config.learnerCatchUp) = false := by
    rw [hc]
    rfl
  cases start with
  | none =>
    exact highMark_run (sound_fresh _ config n) hlate (fun _ => rfl) (UInt32.le_refl 1) ops
  | some s =>
    refine highMark_run (sound_startingAt _ config n s) hlate (fun _ => rfl) ?_ ops
    show s ≤ s + 1
    -- the next id is above the last delivered one, as it does not wrap
    have hne : s.toNat ≠ 4294967295 := fun h => hs (congrArg some (UInt32.toNat_inj.mp h))
    have hlt := s.toNat_lt
    rw [UInt32.le_iff_toNat_le, UInt32.toNat_add]
    show s.toNat ≤ (s.toNat + 1) % 2 ^ 32
    omega

/-- **Hole detection is exact.** For every run of a learner with catch-up, new or positioned at any
id but the last one, there are holes exactly when an instance above the current one has reached a
quorum at some point, and then they lie between the current instance and the last one that has. -/
theorem holes_exact (config : PaxosConfig) (hc : config.learnerCatchUp = true) (n : Nat)
    (start : Option UInt32) (hs : start ≠ some 4294967295) (ops : List LearnerOp) :
    let r₀ := LoggedLearner.positioned config n start
    let l := (r₀.run ops).learner
    ((learnerHasHoles l).isSome ↔ ∃ k, l.currentIid < k ∧ r₀.ReachedQuorum ops k) ∧
    ∀ lo hi, learnerHasHoles l = some (lo, hi) →
      lo = l.currentIid ∧ IsGreatest {k | r₀.ReachedQuorum ops k} hi := by
  intro r₀ l
  have hmark : l.HighMark (r₀.ReachedQuorum ops) := LoggedLearner.highMark_positioned hc n hs ops
  -- above the current instance the mark was reached
  have hreach : l.currentIid < l.highestIidClosed → r₀.ReachedQuorum ops l.highestIidClosed :=
    fun hlt => hmark.reached.resolve_right (UInt32.not_le.mpr hlt)
  constructor
  · rw [isSome_learnerHasHoles]
    constructor
    · exact fun hlt => ⟨_, hlt, hreach hlt⟩
    · rintro ⟨k, hlt, hk⟩
      exact UInt32.lt_of_lt_of_le hlt (hmark.le k hk)
  · intro lo hi h
    obtain ⟨hlt, rfl, rfl⟩ := learnerHasHoles_eq_some.mp h
    exact ⟨rfl, hreach hlt, fun k hk => hmark.le k hk⟩

/-- Acknowledgements for an instance from the first two acceptors. -/
def twoAccepted (iid : UInt32) : List LearnerOp :=
  [.receiveAccepted { iid := iid, ballot := 11, valueBallot := 11, aid := 0, value := [1] },
    .receiveAccepted { iid := iid, ballot := 11, valueBallot := 11, aid := 1, value := [1] }]

/-- The third and the fifth of the instances after a start at 10 reach a quorum. -/
theorem holes_exact_fifteen :
    let r₀ := LoggedLearner.positioned {} 3 (some 10)
    let ops := twoAccepted 15 ++ twoAccepted 13 ++ [.deliverNext 0]
    learnerHasHoles (r₀.run ops).learner = some (11, 15) ∧
      IsGreatest {k | r₀.ReachedQuorum ops k} 15 := by
  intro r₀ ops
  have hholes : learnerHasHoles (r₀.run ops).learner = some (11, 15) := by decide +kernel
  have hexact := holes_exact {} rfl 3 (some 10) (by decide) ops
  exact ⟨hholes, (hexact.2 11 15 hholes).2⟩

/-- **Holes out of nothing.** A learner positioned at the last id reports a hole from instance 0 to
the last one before it has received any message. -/
theorem holes_after_last_id :
    let r₀ := LoggedLearner.positioned {} 3 (some 4294967295)
    learnerHasHoles (r₀.run []).learner = some (0, 4294967295) ∧ ¬ ∃ k, r₀.ReachedQuorum [] k := by
  intro r₀
  refine ⟨by decide, ?_⟩
  rintro ⟨k, front, hfront, hk⟩
  obtain rfl := List.prefix_nil.mp hfront
  cases hk

/-! ## Where deliveries start

A learner that was positioned drops messages up to its position and moves on by deliveries only. A
late start is what sets the current id back: the first message does it, whatever its id is. -/

theorem add_one_eq_zero_or_lt (k : UInt32) : k + 1 = 0 ∨ k < k + 1 := by
  have hlt := k.toNat_lt
  have hsucc : (k + 1).toNat = (k.toNat + 1) % 2 ^ 32 := UInt32.toNat_add k 1
  by_cases hk : k.toNat = 2 ^ 32 - 1
  · left
    apply UInt32.toNat_inj.mp
    rw [hsucc, hk]
    rfl
  · right
    rw [UInt32.lt_iff_toNat_lt, hsucc]
    omega

/-- What a learner positioned at `s` keeps: it has delivered nothing up to `s` and is past it, or
it has wrapped to the id that no instance has. -/
structure LoggedLearner.Past (s : UInt32) (r : LoggedLearner) : Prop where
  delivered : ∀ f ∈ r.delivered, s < f.iid
  current : r.learner.currentIid = 0 ∨ s < r.learner.currentIid
  zero : r.learner.instances.lookup 0 = none

section Past

variable {n : Nat} {s : UInt32} {r : LoggedLearner}

theorem LoggedLearner.past_startingAt (config : PaxosConfig) (n : Nat) (s : UInt32) :
    (startingAt config n s).Past s where
  delivered := List.forall_mem_nil _
  current := add_one_eq_zero_or_lt s
  zero := rfl

/-- A message is taken in. If the learner waits for its start, the message sets it. -/
theorem LoggedLearner.Past.receive (h : r.Past s) {ack : PaxosAccepted} (hpos : ack.iid ≠ 0)
    (hfirst : r.learner.lateStart = true → s < ack.iid) :
    (r.step (.receiveAccepted ack)).Past s := by
  have hcurrent : (r.learner.started ack).currentIid = 0 ∨
      s < (r.learner.started ack).currentIid := by
    unfold started
    split
    · rename_i hl
      exact .inr (hfirst hl)
    · exact h.current
  have hzero : (r.learner.started ack).instances.lookup 0 = none := by
    unfold started
    split <;> exact h.zero
  show Past s ⟨learnerReceiveAccepted r.learner ack, r.delivered, r.emitted⟩
  rw [learnerReceiveAccepted_eq]
  split
  · exact ⟨h.delivered, hcurrent, hzero⟩
  · refine ⟨h.delivered, hcurrent, ?_⟩
    exact (AList.lookup_insert_cases _ _ _ _).trans ((if_neg (Ne.symm hpos)).trans hzero)

/-- A delivery. The current instance is stored, so its id is not 0. -/
theorem LoggedLearner.Past.deliver (h : r.Past s) (hs : r.Sound (fun _ => True) n)
    (freed : UInt32) : (r.step (.deliverNext freed)).Past s := by
  cases hc : r.learner.closed r.learner.currentIid with
  | false =>
    obtain ⟨instances, heq, hlookup⟩ := learnerDeliverNext_of_open hc freed
    rw [step_deliverNext heq]
    exact ⟨h.delivered, h.current, (hlookup 0).trans h.zero⟩
  | true =>
    obtain ⟨inst, f, hinst, -, heq, hf, -⟩ := learnerDeliverNext_of_closed hs.learner hc freed
    -- the id 0 has no instance, so what is delivered is past the position
    have hlt : s < r.learner.currentIid := by
      refine h.current.resolve_left fun hcur => ?_
      rw [hcur, h.zero] at hinst
      cases hinst
    rw [step_deliverNext heq]
    refine ⟨?_, ?_, ?_⟩
    · rintro d (_ | ⟨_, hd⟩)
      · rw [hf]
        exact hlt
      · exact h.delivered d hd
    · rcases add_one_eq_zero_or_lt r.learner.currentIid with hwrap | hnext
      · exact .inl hwrap
      · exact .inr (UInt32.lt_trans hlt hnext)
    · show (r.learner.instances.erase _).lookup 0 = none
      rw [AList.lookup_erase_cases]
      split
      · rfl
      · exact h.zero

/-- One call keeps the learner past `s`. -/
theorem LoggedLearner.Past.step (h : r.Past s) (hs : r.Sound (fun _ => True) n) {op : LearnerOp}
    (hop : ∀ ack, op = .receiveAccepted ack →
      ack.iid ≠ 0 ∧ (r.learner.lateStart = true → s < ack.iid)) : (r.step op).Past s := by
  refine r.step_rule op (fun ack heq => ?_) (h.deliver hs) fun gaps emitted => ?_
  · exact h.receive (hop ack heq).1 (hop ack heq).2
  · exact ⟨h.delivered, h.current, h.zero⟩

/-- A learner that waits for its start after a call has waited before and got no message. -/
theorem LoggedLearner.lateStart_of_step {op : LearnerOp}
    (h : (r.step op).learner.lateStart = true) :
    r.learner.lateStart = true ∧ op.received = none := by
  have hgaps : op.onGaps = true → r.learner.lateStart = true := by
    intro hop
    obtain ⟨gaps, emitted, heq⟩ := r.step_onGaps hop
    rw [heq] at h
    exact h
  cases op with
  | receiveAccepted ack =>
    exact absurd ((learnerReceiveAccepted_lateStart r.learner ack).symm.trans h) (by simp)
  | deliverNext freed => exact ⟨(learnerDeliverNext_lateStart r.learner freed).symm.trans h, rfl⟩
  | prepare | receivePromise | receivePreempted => exact ⟨hgaps rfl, rfl⟩

/-- **A run past `s`.** No message has id 0, and a learner that waits for its start gets a first
message from after `s`. -/
theorem LoggedLearner.Past.run :
    ∀ {ops : List LearnerOp} {r : LoggedLearner}, r.Past s → r.Sound (fun _ => True) n →
      (∀ ack ∈ receivedBy ops, ack.iid ≠ 0) →
      (r.learner.lateStart = true → ∀ ack, (receivedBy ops).head? = some ack → s < ack.iid) →
      (r.run ops).Past s := by
  intro ops
  induction ops with
  | nil => exact fun h _ _ _ => h
  | cons op ops ih =>
    intro r h hs hpos hfirst
    have hrest : ∀ ack ∈ receivedBy ops, ack.iid ≠ 0 := by
      intro ack hack
      exact hpos ack (mem_receivedBy.mpr (List.mem_cons_of_mem _ (mem_receivedBy.mp hack)))
    refine ih (h.step hs ?_) (hs.step fun _ _ => trivial) hrest fun hl => ?_
    · rintro ack rfl
      exact ⟨hpos ack List.mem_cons_self, fun hl => hfirst hl ack rfl⟩
    · -- the first message is still to come
      obtain ⟨hl', hnone⟩ := lateStart_of_step hl
      have hrec : receivedBy (op :: ops) = receivedBy ops := List.filterMap_cons_none hnone
      rw [hrec] at hfirst
      exact hfirst hl'

end Past

/-- **A positioned learner delivers nothing again.** For every configuration, start `s` and run: if
no accepted message has id 0, and catch-up is on or the first accepted message is for an instance
after `s`, then all instances delivered come after `s`. -/
theorem positioned_delivers_after (config : PaxosConfig) (n : Nat) (s : UInt32)
    (ops : List LearnerOp) (hpos : ∀ ack ∈ receivedBy ops, ack.iid ≠ 0)
    (hfirst : config.learnerCatchUp = true ∨
      ∀ ack, (receivedBy ops).head? = some ack → s < ack.iid) :
    ∀ f ∈ ((LoggedLearner.startingAt config n s).run ops).delivered, s < f.iid := by
  have hsound := LoggedLearner.sound_startingAt (fun _ => True) config n s
  refine ((LoggedLearner.past_startingAt config n s).run hsound hpos fun hlate => ?_).delivered
  have hoff : (!config.learnerCatchUp) = true := hlate
  refine hfirst.resolve_left fun hc => ?_
  rw [hc] at hoff
  cases hoff

/-- Without catch-up, positioned at 5: instance 7 comes first and is delivered, 6 is not. -/
theorem positioned_delivers_after_five :
    let ops := twoAccepted 7 ++ twoAccepted 6 ++ [.deliverNext 0, .deliverNext 0]
    let r := (LoggedLearner.startingAt { learnerCatchUp := false } 3 5).run ops
    r.delivered.map (·.iid) = [7] ∧ ∀ f ∈ r.delivered, 5 < f.iid := by
  intro ops r
  refine ⟨by decide +kernel, positioned_delivers_after _ 3 5 ops ?_ (.inr ?_)⟩
  · decide
  · intro ack hack
    cases hack
    decide

/-- **A positioned learner that delivers again.** Without catch-up a learner positioned at 5 is
moved back by a first message for instance 3, and delivers it. With catch-up a learner positioned at
the last id delivers instance 0. -/
theorem positioned_delivers_again :
    let old := (LoggedLearner.startingAt { learnerCatchUp := false } 3 5).run
      (twoAccepted 3 ++ [.deliverNext 0])
    let zero := (LoggedLearner.startingAt {} 3 4294967295).run (twoAccepted 0 ++ [.deliverNext 0])
    old.delivered.map (·.iid) = [3] ∧ zero.delivered.map (·.iid) = [0] := by
  decide +kernel

end LibPaxos
