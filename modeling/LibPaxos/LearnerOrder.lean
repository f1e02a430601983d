import LibPaxos.LearnerDelivery
import Mathlib.Data.Multiset.Basic

/-!
# The delivered log

What a learner delivers depends only on which accepted messages it was given, not on their order or
on when deliveries were asked for. An open instance covers the messages received for it: either it
has its winning acknowledgement, or every message sits in the slot of its acceptor and no ballot has
a quorum yet. When nothing more can be delivered, the log is as long as it can be.

* **`delivered_log_eq`** — two learners that are fed the same messages in any orders deliver the
  same log, which is the longest run of instances from 1 on that are agreed on.
-/

namespace LibPaxos

open Learner

/-! ## Agreement -/

/-- A quorum of acceptors with valid ids agrees on the ballot `b` in the instance `k`. -/
def Agreed (P : PaxosAccepted → Prop) (n k : Nat) (b : UInt16) : Prop :=
  ∃ Q, Voting.IsMajority n (paxosQuorum n) Q ∧
    ∀ i ∈ Q, ∃ a, P a ∧ a.iid.toNat = k ∧ a.ballot = b ∧ a.aid.toNat = i

/-- All messages of one acceptor for one instance are copies of one message. -/
def OneVote (P : PaxosAccepted → Prop) : Prop :=
  ∀ a a', P a → P a' → a.iid = a'.iid → a.aid = a'.aid → a = a'

section Agreement

variable {P P' : PaxosAccepted → Prop} {n k : Nat} {b b' : UInt16}

theorem Agreed.mono (hP : ∀ a, P a → a.iid.toNat = k → P' a) (h : Agreed P n k b) :
    Agreed P' n k b := by
  obtain ⟨Q, hQ, hall⟩ := h
  refine ⟨Q, hQ, fun i hi => ?_⟩
  obtain ⟨a, ha, hk, hrest⟩ := hall i hi
  exact ⟨a, hP a ha hk, hk, hrest⟩

theorem Backed.agreed {f : PaxosAccepted} (h : Backed P n f) : Agreed P n f.iid.toNat f.ballot := by
  obtain ⟨Q, hQ, hall⟩ := h.quorum
  refine ⟨Q, hQ, fun i hi => ?_⟩
  obtain ⟨a, ha, hiid, hrest⟩ := hall i hi
  exact ⟨a, ha, congrArg UInt32.toNat hiid, hrest⟩

/-- Two quorums overlap, so there is one ballot that an instance is agreed on. -/
theorem Agreed.unique (hone : OneVote P) (h : Agreed P n k b) (h' : Agreed P n k b') : b = b' := by
  obtain ⟨Q, hQ, hall⟩ := h
  obtain ⟨Q', hQ', hall'⟩ := h'
  obtain ⟨i, hi, hi'⟩ := Voting.IsMajority.inter (lt_two_mul_paxosQuorum n) Q Q' hQ hQ'
  obtain ⟨a, ha, hk, rfl, haid⟩ := hall i hi
  obtain ⟨a', ha', hk', rfl, haid'⟩ := hall' i hi'
  rw [hone a a' ha ha' (UInt32.toNat_inj.mp (hk.trans hk'.symm))
    (UInt16.toNat_inj.mp (haid.trans haid'.symm))]

/-- Nothing is agreed on without messages. -/
theorem not_agreed_of_absent (h : ∀ a, P a → a.iid.toNat ≠ k) : ¬ Agreed P n k b := by
  rintro ⟨Q, hQ, hall⟩
  have hpos : 0 < Q.card := Nat.lt_of_lt_of_le (paxosQuorum_pos n) hQ.2
  obtain ⟨i, hi⟩ := Finset.card_pos.mp hpos
  obtain ⟨a, ha, hk, -⟩ := hall i hi
  exact h a ha hk

end Agreement

/-! ## Instances that cover the messages received

A slot keeps the message of its acceptor with the largest ballot, so an older one could be lost
before its quorum is complete. `OneVote` rules this out: the messages of one acceptor for one
instance are copies of one message, and an instance without a quorum then has each of them in its
slot. -/

/-- The instance has its winning acknowledgement, or it holds every message received for the id `k`
and no ballot has a quorum. -/
structure Learner.Instance.Covers (P : PaxosAccepted → Prop) (n : Nat) (k : UInt32)
    (inst : Instance) : Prop where
  sound : inst.Sound P n k
  held : inst.finalValue = none → ∀ a, P a → a.iid = k → a.aid.toNat < n →
    inst.acks[a.aid.toNat]? = some (some a)
  undecided : inst.finalValue = none → ∀ b, ¬ Agreed P n k.toNat b

section Covers

variable {P P' : PaxosAccepted → Prop} {n : Nat} {k : UInt32} {inst : Instance}
  {ack : PaxosAccepted}

theorem Learner.instanceNew_covers (h : ∀ a, P a → a.iid ≠ k) : (instanceNew n).Covers P n k where
  sound := instanceNew_sound P n k
  held _ a ha hk := absurd hk (h a ha)
  undecided _ _ := not_agreed_of_absent fun a ha hk => h a ha (UInt32.toNat_inj.mp hk)

/-- Messages that make no difference to the instance. -/
theorem Learner.Instance.Covers.mono (hc : inst.Covers P n k) (hP : ∀ a, P a → P' a)
    (hnew : ∀ a, P' a → a.iid = k → a.aid.toNat < n → P a) : inst.Covers P' n k where
  sound := hc.sound.mono hP
  held hf a ha hk haid := hc.held hf a (hnew a ha hk haid) hk haid
  undecided hf b hagreed := by
    obtain ⟨Q, hQ, hall⟩ := hagreed
    refine hc.undecided hf b ⟨Q, hQ, fun i hi => ?_⟩
    obtain ⟨a, ha, hk, hb, haid⟩ := hall i hi
    have hlt : a.aid.toNat < n := by
      rw [haid]
      exact Finset.mem_range.mp (hQ.1 hi)
    exact ⟨a, hnew a ha (UInt32.toNat_inj.mp hk) hlt, hk, hb, haid⟩

/-- Without agreement there is no quorum to find. -/
theorem Learner.instanceHasQuorum_of_not_agreed (hs : inst.Sound P n k)
    (hf : inst.finalValue = none) (hna : ∀ b, ¬ Agreed P n k.toNat b) :
    instanceHasQuorum inst n = (inst, false) := by
  unfold instanceHasQuorum
  rw [if_neg (not_not.mpr hf), if_neg]
  intro hq
  have hne : inst.agreeing ≠ [] := by
    intro hnil
    rw [hnil] at hq
    exact absurd hq (Nat.not_le.mpr (paxosQuorum_pos n))
  obtain ⟨f, hmem⟩ := List.exists_mem_of_ne_nil _ hne
  obtain ⟨hiid, hback⟩ := hs.backed hq hmem
  exact hna f.ballot (hiid ▸ hback.agreed)

/-- A quorum that is found is an instance with its winning acknowledgement. -/
theorem Learner.instanceHasQuorum_covers (hs : inst.Sound P n k)
    (h : (instanceHasQuorum inst n).2 = true) : (instanceHasQuorum inst n).1.Covers P n k := by
  obtain ⟨f, hf⟩ := instanceHasQuorum_final h
  exact ⟨instanceHasQuorum_sound hs, fun hn => absurd (hf.symm.trans hn) (by simp),
    fun hn => absurd (hf.symm.trans hn) (by simp)⟩

/-- An agreement on the ballot updated last fills as many slots. -/
theorem Learner.Instance.le_agreeing_of_agreed {b : UInt16}
    (hheld : ∀ a, P a → a.iid = k → a.aid.toNat < n → inst.acks[a.aid.toNat]? = some (some a))
    (hb : inst.lastUpdateBallot = b.toUInt32) (h : Agreed P n k.toNat b) :
    paxosQuorum n ≤ inst.agreeing.length := by
  obtain ⟨Q, hQ, hall⟩ := h
  rw [← Instance.card_agreeingSlots]
  refine Nat.le_trans hQ.2 (Finset.card_le_card fun i hi => ?_)
  obtain ⟨a, ha, hk, hab, rfl⟩ := hall i hi
  have hslot := hheld a ha (UInt32.toNat_inj.mp hk) (Finset.mem_range.mp (hQ.1 hi))
  refine List.mem_slots.mpr ⟨some a, hslot, decide_eq_true ?_⟩
  rw [hb, hab]

/-- A message in an empty slot. Agreement can only have come about on its ballot, which is then the
ballot updated last. -/
theorem Learner.Instance.Covers.addAccept (hc : inst.Covers P n k) (hf : inst.finalValue = none)
    (hk : ack.iid = k) (haid : ack.aid.toNat < n) (hP : ∀ a, P a → P' a)
    (hnew : ∀ a, P' a → P a ∨ a = ack) (hack : P' ack) (hone : OneVote P') :
    (instanceHasQuorum (instanceAddAccept inst ack) n).1.Covers P' n k := by
  have hsound : (instanceAddAccept inst ack).Sound P' n k :=
    instanceAddAccept_sound (hc.sound.mono hP) hack hk hf
  have hlen : ack.aid.toNat < inst.acks.length := by
    rw [hc.sound.length]
    exact haid
  -- every slot holds the message of its acceptor: the new one, or one held before
  have hheld : ∀ a, P' a → a.iid = k → a.aid.toNat < n →
      (instanceAddAccept inst ack).acks[a.aid.toNat]? = some (some a) := by
    intro a ha hak halt
    show (inst.acks.set ack.aid.toNat (some ack))[a.aid.toNat]? = some (some a)
    by_cases haid' : a.aid = ack.aid
    · obtain rfl := hone a ack ha hack (hak.trans hk.symm) haid'
      exact List.getElem?_set_self hlen
    · have hne : ack.aid.toNat ≠ a.aid.toNat := fun h => haid' (UInt16.toNat_inj.mp h.symm)
      rw [List.getElem?_set_ne hne]
      rcases hnew a ha with hold | rfl
      · exact hc.held hf a hold hak halt
      · exact absurd rfl haid'
  cases hq : (instanceHasQuorum (instanceAddAccept inst ack) n).2 with
  | true => exact instanceHasQuorum_covers hsound hq
  | false =>
    obtain ⟨heq, hfin⟩ := instanceHasQuorum_false hq
    rw [heq]
    refine ⟨hsound, fun _ => hheld, fun _ b hagreed => ?_⟩
    by_cases hb : b = ack.ballot
    · subst hb
      have hle := Instance.le_agreeing_of_agreed hheld rfl hagreed
      unfold instanceHasQuorum at hq
      rw [if_neg (not_not.mpr hfin), if_pos hle] at hq
      cases hq
    · -- the message is not part of an agreement on another ballot
      obtain ⟨Q, hQ, hall⟩ := hagreed
      refine hc.undecided hf b ⟨Q, hQ, fun i hi => ?_⟩
      obtain ⟨a, ha, hak, hab, hai⟩ := hall i hi
      rcases hnew a ha with hold | rfl
      · exact ⟨a, hold, hak, hab, hai⟩
      · exact absurd hab.symm hb

/-- **A message keeps an instance covering**: it is stored, or it makes no difference. -/
theorem Learner.Instance.Covers.update (hc : inst.Covers P n k) (hk : ack.iid = k)
    (hP : ∀ a, P a → P' a) (hnew : ∀ a, P' a → P a ∨ a = ack) (hack : P' ack)
    (hone : OneVote P') :
    (instanceHasQuorum (instanceUpdate inst ack n) n).1.Covers P' n k := by
  have ho := instanceOpen_sound hc.sound ack
  have hfin := instanceOpen_final inst ack
  have hacks : (instanceOpen inst ack).acks = inst.acks := by
    unfold instanceOpen
    split <;> rfl
  cases hf : inst.finalValue with
  | some f =>
    rw [instanceUpdate_of_final hf, instanceHasQuorum_of_final (hfin.trans hf)]
    exact ⟨ho.mono hP, fun hn => absurd ((hfin.trans hf).symm.trans hn) (by simp),
      fun hn => absurd ((hfin.trans hf).symm.trans hn) (by simp)⟩
  | none =>
    have hcov : (instanceOpen inst ack).Covers P n k :=
      ⟨ho, fun _ => hacks ▸ hc.held hf, fun _ => hc.undecided hf⟩
    have hquiet := instanceHasQuorum_of_not_agreed ho (hfin.trans hf) (hc.undecided hf)
    -- a message that is not stored leaves the instance as it was opened
    have hdropped : (∀ a, P' a → a.iid = k → a.aid.toNat < n → P a) →
        (instanceHasQuorum (instanceOpen inst ack) n).1.Covers P' n k := by
      intro hsame
      rw [hquiet]
      exact hcov.mono hP hsame
    unfold instanceUpdate
    rw [hquiet]
    simp only
    split
    · -- no acceptor has the id
      rename_i hge
      refine hdropped fun a ha _ hlt => (hnew a ha).resolve_right ?_
      rintro rfl
      omega
    · rename_i hlt
      split
      · exact hcov.addAccept (hfin.trans hf) hk (Nat.not_le.mp hlt) hP hnew hack hone
      · -- the slot is taken, by a copy of the message
        rename_i prev hprev
        have hslot : (instanceOpen inst ack).acks[ack.aid.toNat]? = some (some prev) :=
          Option.join_eq_some_iff.mp hprev
        obtain ⟨hpk, hpaid, hpP⟩ := ho.acks _ _ hslot
        obtain rfl := hone prev ack (hP prev hpP) hack (hpk.trans hk.symm)
          (UInt16.toNat_inj.mp hpaid)
        rw [if_pos (UInt16.le_refl _)]
        refine hdropped fun a ha _ _ => (hnew a ha).elim id ?_
        rintro rfl
        exact hpP

end Covers

/-! ## Consecutive ids

The number of deliveries tells the current id, up to the last one. Beyond it there is nothing to
deliver, since no message is for the id 0. -/

/-- The instances `1, 2, …` were delivered in order, and the next one is the current one. The
current id wraps around after the last one; then there is nothing left to deliver, as nothing is
stored for the id 0. -/
structure LoggedLearner.Numbered (n : Nat) (r : LoggedLearner) : Prop where
  acceptors : r.learner.acceptors = n
  learner : r.learner.Sound fun _ => True
  length_lt : r.delivered.length < 2 ^ 32
  current : r.learner.currentIid = UInt32.ofNat (r.delivered.length + 1)
  ids : ∀ j d, r.delivered.reverse[j]? = some d → d.iid.toNat = j + 1
  zero : r.learner.instances.lookup 0 = none

theorem LoggedLearner.step_deliverNext {r : LoggedLearner} {freed : UInt32} {l : Learner}
    {out : Option PaxosAccepted} (heq : learnerDeliverNext r.learner freed = (l, out)) :
    r.step (.deliverNext freed)
      = { r with learner := l, delivered := out.toList ++ r.delivered } := by
  show LoggedLearner.mk (learnerDeliverNext r.learner freed).1
    ((learnerDeliverNext r.learner freed).2.toList ++ r.delivered) r.emitted = _
  rw [heq]

/-- The current instance is open: `learner_deliver_next` would return 0. -/
def LoggedLearner.Idle (r : LoggedLearner) : Prop :=
  r.learner.closed r.learner.currentIid = false

theorem LoggedLearner.Idle.deliverNext_eq_none {r : LoggedLearner} (h : r.Idle) (freed : UInt32) :
    (learnerDeliverNext r.learner freed).2 = none := by
  obtain ⟨instances, heq, -⟩ := learnerDeliverNext_of_open h freed
  rw [heq]

theorem LoggedLearner.Idle.deliver {r : LoggedLearner} (h : r.Idle) (freed : UInt32) :
    (r.step (.deliverNext freed)).Idle := by
  obtain ⟨instances, heq, hlookup⟩ := learnerDeliverNext_of_open h freed
  rw [step_deliverNext heq]
  unfold Idle closed at h ⊢
  rw [hlookup]
  exact h

/-- A delivery closes and opens nothing, the instance delivered apart. -/
theorem LoggedLearner.closed_deliverNext {P : PaxosAccepted → Prop} {r : LoggedLearner}
    (hs : r.learner.Sound P) {k : UInt32}
    (hk : r.learner.closed r.learner.currentIid = true → k ≠ r.learner.currentIid)
    (freed : UInt32) :
    (r.step (.deliverNext freed)).learner.closed k = r.learner.closed k := by
  cases hc : r.learner.closed r.learner.currentIid with
  | false =>
    obtain ⟨instances, heq, hlookup⟩ := learnerDeliverNext_of_open hc freed
    rw [step_deliverNext heq]
    unfold closed
    rw [hlookup]
  | true =>
    obtain ⟨inst, f, -, -, heq, -, -⟩ := learnerDeliverNext_of_closed hs hc freed
    rw [step_deliverNext heq]
    unfold closed
    rw [AList.lookup_erase_cases, if_neg (hk hc)]

section Numbered

variable {n : Nat} {r : LoggedLearner}

/-- The current id, as long as it has not wrapped around. -/
theorem LoggedLearner.Numbered.toNat_current (h : r.Numbered n)
    (hlt : r.delivered.length + 1 < 2 ^ 32) :
    r.learner.currentIid.toNat = r.delivered.length + 1 := by
  rw [h.current, UInt32.toNat_ofNat']
  exact Nat.mod_eq_of_lt hlt

/-- A message below the current id is for an instance that was delivered. -/
theorem LoggedLearner.Numbered.le_of_lt_current (h : r.Numbered n) {k : UInt32}
    (hlt : k < r.learner.currentIid) : k.toNat ≤ r.delivered.length := by
  have hlt' := UInt32.lt_iff_toNat_lt.mp hlt
  rw [h.current, UInt32.toNat_ofNat'] at hlt'
  have hmod := Nat.mod_le (r.delivered.length + 1) (2 ^ 32)
  omega

/-- The current id has not wrapped around if something is stored for it. -/
theorem LoggedLearner.Numbered.toNat_current_of_lookup (h : r.Numbered n) {inst : Instance}
    (hl : r.learner.instances.lookup r.learner.currentIid = some inst) :
    r.learner.currentIid.toNat = r.delivered.length + 1 := by
  refine h.toNat_current ?_
  by_contra hge
  have hlast : r.delivered.length + 1 = 2 ^ 32 := by
    have := h.length_lt
    omega
  have hcur : r.learner.currentIid = 0 := by
    rw [h.current, hlast]
    rfl
  rw [hcur, h.zero] at hl
  cases hl

/-- A delivery goes on with the next id. -/
theorem LoggedLearner.Numbered.deliver (h : r.Numbered n) (freed : UInt32) :
    (r.step (.deliverNext freed)).Numbered n := by
  cases hc : r.learner.closed r.learner.currentIid with
  | false =>
    obtain ⟨instances, heq, hlookup⟩ := learnerDeliverNext_of_open hc freed
    rw [step_deliverNext heq]
    exact ⟨h.acceptors, fun k inst hk => h.learner k inst ((hlookup k).symm.trans hk), h.length_lt,
      h.current, h.ids, (hlookup 0).trans h.zero⟩
  | true =>
    obtain ⟨inst, f, hl, -, heq, hf, -⟩ := learnerDeliverNext_of_closed h.learner hc freed
    have hcur := h.toNat_current_of_lookup hl
    rw [step_deliverNext heq]
    refine ⟨h.acceptors, AList.All.erase h.learner _, ?_, ?_, fun j d hd => ?_, ?_⟩
    · show r.delivered.length + 1 < 2 ^ 32
      rw [← hcur]
      exact r.learner.currentIid.toNat_lt
    · show r.learner.currentIid + 1 = UInt32.ofNat ((f :: r.delivered).length + 1)
      rw [h.current, List.length_cons, UInt32.ofNat_add (r.delivered.length + 1) 1]
      rfl
    · -- an entry of the log so far, or the one that is added at its end
      have hd : (f :: r.delivered).reverse[j]? = some d := hd
      rw [List.reverse_cons, List.getElem?_append] at hd
      split at hd
      · exact h.ids j d hd
      · rename_i hge
        obtain ⟨hj, rfl⟩ := List.getElem?_eq_some_iff.mp hd
        rw [List.length_reverse] at hge hj
        have hone : j - r.delivered.length = 0 := Nat.lt_one_iff.mp hj
        simp only [List.length_reverse, hone, List.getElem_cons_zero, hf, hcur]
        omega
    · show (r.learner.instances.erase r.learner.currentIid).lookup 0 = none
      rw [AList.lookup_erase_cases, h.zero, ite_self]

end Numbered

/-! ## The learner

Later instances cover what was received for them and delivered ones are agreed on. A message for an
instance that was delivered is dropped; one for the current or a later instance is put into its
slot. -/

/-- What a learner started at the first instance keeps when it has received `P`: it has delivered
the instances `1, 2, …` in order, and every later instance covers the messages received for it. The
current id wraps around after the last one; then there is nothing left to deliver, as no message is
for the id 0. -/
structure LoggedLearner.Tracks (P : PaxosAccepted → Prop) (n : Nat) (r : LoggedLearner) : Prop
    extends r.Sound P n where
  started : r.learner.lateStart = false
  length_lt : r.delivered.length < 2 ^ 32
  current : r.learner.currentIid = UInt32.ofNat (r.delivered.length + 1)
  ids : ∀ j d, r.delivered.reverse[j]? = some d → d.iid.toNat = j + 1
  zero : r.learner.instances.lookup 0 = none
  covers : ∀ k, r.delivered.length < k.toNat →
    ((r.learner.instances.lookup k).getD (instanceNew n)).Covers P n k

theorem LoggedLearner.tracks_fresh {config : PaxosConfig} (hc : config.learnerCatchUp = true)
    (n : Nat) : (fresh config n).Tracks (fun _ => False) n where
  acceptors := rfl
  learner := AList.all_empty
  delivered := List.forall_mem_nil _
  late _ _ := rfl
  started := by
    show (!config.learnerCatchUp) = false
    rw [hc]
    rfl
  length_lt := Nat.two_pow_pos 32
  current := rfl
  ids j d h := by cases h
  zero := rfl
  covers _ _ := instanceNew_covers fun _ h => h.elim

section Track

variable {P P' : PaxosAccepted → Prop} {n : Nat} {r : LoggedLearner} {ack : PaxosAccepted}

theorem LoggedLearner.Tracks.numbered (h : r.Tracks P n) : r.Numbered n :=
  ⟨h.acceptors, h.learner.mono fun _ _ => trivial, h.length_lt, h.current, h.ids, h.zero⟩

/-- `learner_receive_accepted` of a learner that has started. -/
theorem learnerReceiveAccepted_of_started {l : Learner} (hl : l.lateStart = false)
    (ack : PaxosAccepted) : learnerReceiveAccepted l ack
      = if ack.iid < l.currentIid then l
        else learnerUpdate l ack.iid (instanceUpdate
          ((l.instances.lookup ack.iid).getD (instanceNew l.acceptors)) ack l.acceptors) := by
  have hstarted : l.started ack = l := if_neg (by simp [hl])
  rw [learnerReceiveAccepted_eq, hstarted]

/-- A message for an instance that was delivered is dropped. -/
theorem LoggedLearner.step_receiveAccepted_of_lt (hl : r.learner.lateStart = false)
    (hlt : ack.iid < r.learner.currentIid) : r.step (.receiveAccepted ack) = r := by
  show { r with learner := learnerReceiveAccepted r.learner ack } = r
  rw [learnerReceiveAccepted_of_started hl, if_pos hlt]

/-- A message for an instance that is still to come is stored there. -/
theorem instances_learnerReceiveAccepted {l : Learner} (hl : l.lateStart = false)
    (hn : l.acceptors = n) (hge : ¬ ack.iid < l.currentIid) :
    (learnerReceiveAccepted l ack).instances
      = l.instances.insert ack.iid (instanceHasQuorum (instanceUpdate
          ((l.instances.lookup ack.iid).getD (instanceNew n)) ack n) n).1 := by
  rw [learnerReceiveAccepted_of_started hl, if_neg hge, ← hn]
  rfl

/-- **A message is taken in.** -/
theorem LoggedLearner.Tracks.receive (h : r.Tracks P n) (hpos : ack.iid ≠ 0)
    (hP : ∀ a, P a → P' a) (hnew : ∀ a, P' a → P a ∨ a = ack) (hack : P' ack)
    (hone : OneVote P') : (r.step (.receiveAccepted ack)).Tracks P' n := by
  have hsound : (r.step (.receiveAccepted ack)).Sound P' n := by
    refine (h.toSound.mono hP).step fun a ha => ?_
    cases ha
    exact hack
  -- instances that the message is not for
  have hother : ∀ k, k ≠ ack.iid → r.delivered.length < k.toNat →
      ((r.learner.instances.lookup k).getD (instanceNew n)).Covers P' n k := by
    intro k hk hlt
    refine (h.covers k hlt).mono hP fun a ha hak _ => (hnew a ha).resolve_right ?_
    rintro rfl
    exact hk hak.symm
  by_cases hlt : ack.iid < r.learner.currentIid
  · -- the instance was delivered, so nothing is claimed about it any more
    rw [LoggedLearner.step_receiveAccepted_of_lt h.started hlt] at hsound ⊢
    refine ⟨hsound, h.started, h.length_lt, h.current, h.ids, h.zero, fun k hk => hother k ?_ hk⟩
    rintro rfl
    have hle := h.numbered.le_of_lt_current hlt
    omega
  · have hinst : (r.step (.receiveAccepted ack)).learner.instances = _ :=
      instances_learnerReceiveAccepted h.started h.acceptors hlt
    have hcur := (learnerReceiveAccepted_currentIid h.started ack).1
    refine ⟨hsound, learnerReceiveAccepted_lateStart r.learner ack, h.length_lt,
      hcur.trans h.current, h.ids, ?_, fun k hk => ?_⟩
    · rw [hinst, AList.lookup_insert_cases, if_neg hpos.symm]
      exact h.zero
    · rw [hinst, AList.lookup_insert_cases]
      split
      · rename_i heq
        subst heq
        exact (h.covers ack.iid hk).update rfl hP hnew hack hone
      · rename_i hne
        exact hother k hne hk

/-- While the current instance is open, the next one of the log is not agreed on. -/
theorem LoggedLearner.Tracks.not_agreed_of_idle (h : r.Tracks P n) (hidle : r.Idle) (b : UInt16) :
    ¬ Agreed P n (r.delivered.length + 1) b := by
  by_cases hlt : r.delivered.length + 1 < 2 ^ 32
  · have hcur := h.numbered.toNat_current hlt
    have hcov := h.covers r.learner.currentIid (by omega)
    rw [← hcur]
    refine hcov.undecided ?_ b
    unfold Idle closed at hidle
    cases hl : r.learner.instances.lookup r.learner.currentIid with
    | none => rfl
    | some inst =>
      rw [hl] at hidle
      exact (instanceHasQuorum_false hidle).2
  · -- all ids were delivered
    refine not_agreed_of_absent fun a _ => ?_
    have hid := a.iid.toNat_lt
    omega

/-- **What `learner_deliver_next` does**: if the next instance is not agreed on it changes nothing,
otherwise it hands out a message of the agreed ballot. -/
theorem LoggedLearner.Tracks.deliverNext_cases (h : r.Tracks P n) (freed : UInt32) :
    (∃ instances, learnerDeliverNext r.learner freed
        = ({ r.learner with instances := instances }, none) ∧
      (∀ k, instances.lookup k = r.learner.instances.lookup k) ∧
      ∀ b, ¬ Agreed P n (r.delivered.length + 1) b) ∨
    ∃ f, learnerDeliverNext r.learner freed
        = ({ r.learner with
              instances := r.learner.instances.erase r.learner.currentIid
              gaps := r.learner.gaps.erase freed
              currentIid := r.learner.currentIid + 1 }, some f) ∧
      f.iid.toNat = r.delivered.length + 1 ∧ Backed P n f := by
  cases hc : r.learner.closed r.learner.currentIid with
  | false =>
    obtain ⟨instances, heq, hlookup⟩ := learnerDeliverNext_of_open hc freed
    exact .inl ⟨instances, heq, hlookup, h.not_agreed_of_idle hc⟩
  | true =>
    obtain ⟨inst, f, hl, -, heq, hfi, hback⟩ := learnerDeliverNext_of_closed h.learner hc freed
    exact .inr ⟨f, heq, hfi ▸ h.numbered.toNat_current_of_lookup hl, h.acceptors ▸ hback⟩

/-- **A delivery is asked for.** -/
theorem LoggedLearner.Tracks.deliver (h : r.Tracks P n) (freed : UInt32) :
    (r.step (.deliverNext freed)).Tracks P n := by
  have hsound : (r.step (.deliverNext freed)).Sound P n := h.toSound.step fun a ha => by cases ha
  have hnum := h.numbered.deliver freed
  rcases h.deliverNext_cases freed with ⟨instances, heq, hl, -⟩ | ⟨f, heq, hf, hback⟩
  · rw [LoggedLearner.step_deliverNext heq] at hsound hnum ⊢
    refine ⟨hsound, h.started, hnum.length_lt, hnum.current, hnum.ids, hnum.zero, fun k hk => ?_⟩
    show ((instances.lookup k).getD (instanceNew n)).Covers P n k
    rw [hl]
    exact h.covers k hk
  · have hlt : r.delivered.length + 1 < 2 ^ 32 := by
      rw [← hf]
      exact f.iid.toNat_lt
    have hcur := h.numbered.toNat_current hlt
    rw [LoggedLearner.step_deliverNext heq] at hsound hnum ⊢
    refine ⟨hsound, h.started, hnum.length_lt, hnum.current, hnum.ids, hnum.zero, fun k hk => ?_⟩
    have hk : r.delivered.length + 1 < k.toNat := hk
    show (((r.learner.instances.erase r.learner.currentIid).lookup k).getD
      (instanceNew n)).Covers P n k
    rw [AList.lookup_erase_cases, if_neg]
    · exact h.covers k (by omega)
    · rintro rfl
      omega

end Track

/-! ## Whole runs -/

/-- The accepted message that a call is given. -/
def LearnerOp.received : LearnerOp → Option PaxosAccepted
  | .receiveAccepted ack => some ack
  | _ => none

/-- The accepted messages that a learner is fed by some calls. -/
def receivedBy (ops : List LearnerOp) : List PaxosAccepted :=
  ops.filterMap LearnerOp.received

theorem mem_receivedBy {ops : List LearnerOp} {ack : PaxosAccepted} :
    ack ∈ receivedBy ops ↔ .receiveAccepted ack ∈ ops := by
  unfold receivedBy
  rw [List.mem_filterMap]
  constructor
  · rintro ⟨op, hop, heq⟩
    cases op with
    | receiveAccepted ack' =>
      cases heq
      exact hop
    | deliverNext | prepare | receivePromise | receivePreempted => cases heq
  · exact fun h => ⟨_, h, rfl⟩

section Run

variable {P M : PaxosAccepted → Prop} {n : Nat} {r : LoggedLearner}

/-- Gap recovery does not matter. -/
theorem LoggedLearner.Tracks.onGaps (h : r.Tracks P n) {op : LearnerOp} (hop : op.onGaps = true) :
    (r.step op).Tracks P n := by
  have hsound : (r.step op).Sound P n := h.toSound.step fun a ha => by
    subst ha
    cases hop
  obtain ⟨gaps, emitted, heq⟩ := r.step_onGaps hop
  rw [heq] at hsound ⊢
  exact ⟨hsound, h.started, h.length_lt, h.current, h.ids, h.zero, h.covers⟩

theorem LoggedLearner.Tracks.congr {P' : PaxosAccepted → Prop} (h : r.Tracks P n)
    (hP : ∀ a, P a ↔ P' a) : r.Tracks P' n :=
  (funext fun a => propext (hP a) : P = P') ▸ h

/-- **A run tracks what was received**, whatever the order of the calls. -/
theorem LoggedLearner.Tracks.run (hone : OneVote M) (hpos : ∀ a, M a → a.iid ≠ 0) :
    ∀ {ops : List LearnerOp} {P : PaxosAccepted → Prop} {r : LoggedLearner},
      (∀ a, P a → M a) → (∀ a ∈ receivedBy ops, M a) → r.Tracks P n →
      (r.run ops).Tracks (fun a => P a ∨ a ∈ receivedBy ops) n := by
  intro ops
  induction ops with
  | nil => exact fun _ _ h => h.congr fun a => by simp [receivedBy]
  | cons op ops ih =>
    intro P r hP hops h
    have hrest : ∀ a ∈ receivedBy ops, M a := by
      intro a ha
      exact hops a (mem_receivedBy.mpr (List.mem_cons_of_mem _ (mem_receivedBy.mp ha)))
    cases op with
    -- the only call that adds to what was heard
    | receiveAccepted ack =>
      have hM : ∀ a, P a ∨ a = ack → M a := by
        rintro a (ha | rfl)
        · exact hP a ha
        · exact hops a (mem_receivedBy.mpr List.mem_cons_self)
      have hstep : (r.step (.receiveAccepted ack)).Tracks (fun a => P a ∨ a = ack) n :=
        h.receive (hpos ack (hM ack (.inr rfl))) (fun _ ha => .inl ha) (fun _ ha => ha) (.inr rfl)
          fun a a' ha ha' => hone a a' (hM a ha) (hM a' ha')
      refine (ih hM hrest hstep).congr fun a => ?_
      show (P a ∨ a = ack) ∨ a ∈ receivedBy ops ↔ P a ∨ a ∈ ack :: receivedBy ops
      rw [List.mem_cons, or_assoc]
    | deliverNext freed => exact ih hP hrest (h.deliver freed)
    | prepare | receivePromise | receivePreempted => exact ih hP hrest (h.onGaps rfl)

end Run

/-- `evlearner_deliver_next_closed`: `learner_deliver_next` until it returns 0. What a call finds in
the memory that it has freed may depend on all that has happened. -/
def evlearnerDeliverNextClosed (freed : LoggedLearner → UInt32) :
    Nat → LoggedLearner → LoggedLearner
  | 0, r => r
  | fuel + 1, r =>
    match (learnerDeliverNext r.learner (freed r)).2 with
    | none => r.step (.deliverNext (freed r))
    | some _ => evlearnerDeliverNextClosed freed fuel (r.step (.deliverNext (freed r)))

/-- Every delivery removes an instance, so that many calls are enough. -/
def deliverClosed (freed : LoggedLearner → UInt32) (r : LoggedLearner) : LoggedLearner :=
  evlearnerDeliverNextClosed freed (r.learner.instances.entries.length + 1) r

section Closed

variable {P : PaxosAccepted → Prop} {n : Nat} {r : LoggedLearner}

/-- **The loop ends with the current instance open**, and keeps what a delivery keeps. Induction on
the calls left, of which there are more than instances. -/
theorem evlearnerDeliverNextClosed_rule {I : LoggedLearner → Prop}
    (hsound : ∀ r, I r → r.learner.Sound P)
    (hstep : ∀ r, I r → ∀ i, I (r.step (.deliverNext i))) (freed : LoggedLearner → UInt32) :
    ∀ (fuel : Nat) {r : LoggedLearner}, I r → r.learner.instances.entries.length < fuel →
      I (evlearnerDeliverNextClosed freed fuel r) ∧
        (evlearnerDeliverNextClosed freed fuel r).Idle := by
  intro fuel
  induction fuel with
  | zero => exact fun _ hlt => absurd hlt (Nat.not_lt_zero _)
  | succ fuel ih =>
    intro r h hlt
    have hnext := hstep r h (freed r)
    rw [evlearnerDeliverNextClosed]
    cases hc : r.learner.closed r.learner.currentIid with
    | false =>
      obtain ⟨instances, heq, -⟩ := learnerDeliverNext_of_open hc (freed r)
      rw [heq]
      exact ⟨hnext, LoggedLearner.Idle.deliver hc _⟩
    | true =>
      -- the instance delivered is gone, so there is one less
      obtain ⟨inst, f, hl, -, heq, -, -⟩ :=
        learnerDeliverNext_of_closed (hsound r h) hc (freed r)
      have hlen := (AList.entries_perm_cons_erase hl).length_eq
      rw [List.length_cons] at hlen
      have hinst : (r.step (.deliverNext (freed r))).learner.instances
          = r.learner.instances.erase r.learner.currentIid := by
        rw [LoggedLearner.step_deliverNext heq]
      rw [heq]
      refine ih hnext ?_
      rw [hinst]
      omega

theorem LoggedLearner.Tracks.deliverNextClosed (h : r.Tracks P n) (freed : LoggedLearner → UInt32) :
    (deliverClosed freed r).Tracks P n ∧ (deliverClosed freed r).Idle :=
  evlearnerDeliverNextClosed_rule (I := (·.Tracks P n)) (fun _ h => h.learner)
    (fun _ h => h.deliver) freed _ h (Nat.lt_succ_self _)

end Closed

/-! ## The log

A log is determined by what was received: it lists the instances from 1 on as long as they are
agreed on. `IsLog.unique` is why two learners with the same messages cannot differ. -/

/-- What was delivered, oldest first. -/
def LoggedLearner.log (r : LoggedLearner) : List (UInt32 × UInt16 × PaxosValue) :=
  r.delivered.reverse.map fun d => (d.iid, d.ballot, d.value)

/-- The log is the longest run of instances `1, 2, …` that are agreed on, each with the agreed
ballot and a value accepted there. -/
structure IsLog (P : PaxosAccepted → Prop) (n : Nat) (L : List (UInt32 × UInt16 × PaxosValue)) :
    Prop where
  entry : ∀ j iid ballot value, L[j]? = some (iid, ballot, value) → iid.toNat = j + 1 ∧
    Agreed P n (j + 1) ballot ∧ ∃ a, P a ∧ a.iid = iid ∧ a.ballot = ballot ∧ a.value = value
  longest : ∀ b, ¬ Agreed P n (L.length + 1) b

/-- The messages for one instance and ballot carry one value. -/
def OneValuePerBallot (P : PaxosAccepted → Prop) : Prop :=
  ∀ a a', P a → P a' → a.iid = a'.iid → a.ballot = a'.ballot → a.value = a'.value

section Log

variable {P : PaxosAccepted → Prop} {n : Nat} {L L' : List (UInt32 × UInt16 × PaxosValue)}

theorem IsLog.length_le (h : IsLog P n L) (h' : IsLog P n L') : L'.length ≤ L.length := by
  by_contra hlt
  have hget : L'[L.length]? = some (L'.get ⟨L.length, by omega⟩) := by simp
  exact h.longest _ (h'.entry _ _ _ _ hget).2.1

/-- There is one such log. -/
theorem IsLog.unique (hone : OneVote P) (hvalue : OneValuePerBallot P) (h : IsLog P n L)
    (h' : IsLog P n L') : L = L' := by
  have hlen : L.length = L'.length := Nat.le_antisymm (h'.length_le h) (h.length_le h')
  refine List.ext_getElem hlen fun j hj hj' => ?_
  obtain ⟨hid, hagreed, a, ha, hiid, hb, hv⟩ := h.entry j _ _ _ (List.getElem?_eq_getElem hj)
  obtain ⟨hid', hagreed', a', ha', hiid', hb', hv'⟩ :=
    h'.entry j _ _ _ (List.getElem?_eq_getElem hj')
  -- two quorums overlap, and an acceptor votes once
  have hball := hagreed.unique hone hagreed'
  have hsame := UInt32.toNat_inj.mp (hid.trans hid'.symm)
  refine Prod.ext hsame (Prod.ext hball ?_)
  have hvalues : a.value = a'.value :=
    hvalue a a' ha ha' (hiid.trans (hsame.trans hiid'.symm)) (hb.trans (hball.trans hb'.symm))
  exact hv.symm.trans (hvalues.trans hv')

theorem LoggedLearner.Tracks.isLog {r : LoggedLearner} (h : r.Tracks P n)
    (hna : ∀ b, ¬ Agreed P n (r.delivered.length + 1) b) : IsLog P n r.log where
  entry j iid ballot value hj := by
    unfold log at hj
    rw [List.getElem?_map] at hj
    obtain ⟨d, hd, heq⟩ := Option.map_eq_some_iff.mp hj
    cases heq
    have hid := h.ids j d hd
    have hback := h.delivered d (List.mem_reverse.mp (List.mem_of_getElem? hd))
    exact ⟨hid, hid ▸ hback.agreed, d, hback.carried, rfl, rfl, rfl⟩
  longest := by
    have hlen : r.log.length = r.delivered.length := by simp [log]
    rw [hlen]
    exact hna

end Log

theorem ne_zero_of_one_le {k : UInt32} (h : 1 ≤ k) : k ≠ 0 :=
  UInt32.pos_iff_ne_zero.mp (UInt32.lt_of_lt_of_le (by decide) h)

/-- A learner that was fed `M` and has delivered all it can. -/
theorem LoggedLearner.isLog_deliverClosed {config : PaxosConfig} (hc : config.learnerCatchUp = true)
    (n : Nat) {M : Multiset PaxosAccepted} (hpos : ∀ a ∈ M, 1 ≤ a.iid) (hone : OneVote (· ∈ M))
    {ops : List LearnerOp} (hM : (receivedBy ops : Multiset PaxosAccepted) = M)
    (freed : LoggedLearner → UInt32) :
    (∀ i, (learnerDeliverNext (deliverClosed freed ((fresh config n).run ops)).learner i).2
      = none) ∧
      IsLog (· ∈ M) n (deliverClosed freed ((fresh config n).run ops)).log := by
  have hmem : ∀ a, a ∈ receivedBy ops ↔ a ∈ M := by
    intro a
    rw [← hM, Multiset.mem_coe]
  have hne : ∀ a, a ∈ M → a.iid ≠ 0 := fun a ha => ne_zero_of_one_le (hpos a ha)
  have hrun : ((fresh config n).run ops).Tracks (· ∈ M) n := by
    refine ((tracks_fresh hc n).run hone hne (fun _ h => h.elim) (fun a ha => (hmem a).mp ha)).congr
      fun a => ?_
    rw [false_or, hmem]
  obtain ⟨htracks, hidle⟩ := hrun.deliverNextClosed freed
  exact ⟨hidle.deliverNext_eq_none, htracks.isLog (htracks.not_agreed_of_idle hidle)⟩

/-- **The log does not depend on the order of the messages.** Let `M` be a multiset of accepted
messages with ids from 1 on in which the messages of one acceptor for one instance are copies, and
messages for one instance and ballot carry one value. Feed `M` to two new learners, in any two
orders and with deliveries asked for anywhere in between, and let both deliver all they can: they
deliver the same instances, ballots and values, and these are the longest run of instances that a
quorum agrees on. What the deliveries find in the memory they have freed makes no difference. -/
theorem delivered_log_eq (config : PaxosConfig) (hc : config.learnerCatchUp = true) (n : Nat)
    (M : Multiset PaxosAccepted) (hpos : ∀ a ∈ M, 1 ≤ a.iid) (hone : OneVote (· ∈ M))
    (hvalue : OneValuePerBallot (· ∈ M)) (ops ops' : List LearnerOp)
    (hM : (receivedBy ops : Multiset PaxosAccepted) = M)
    (hM' : (receivedBy ops' : Multiset PaxosAccepted) = M) (freed freed' : LoggedLearner → UInt32) :
    let r := deliverClosed freed ((LoggedLearner.fresh config n).run ops)
    let r' := deliverClosed freed' ((LoggedLearner.fresh config n).run ops')
    (∀ i, (learnerDeliverNext r.learner i).2 = none) ∧
      (∀ i, (learnerDeliverNext r'.learner i).2 = none) ∧
      r.log = r'.log ∧ IsLog (· ∈ M) n r.log := by
  intro r r'
  obtain ⟨hdone, hlog⟩ := LoggedLearner.isLog_deliverClosed hc n hpos hone hM freed
  obtain ⟨hdone', hlog'⟩ := LoggedLearner.isLog_deliverClosed hc n hpos hone hM' freed'
  exact ⟨hdone, hdone', hlog.unique hone hvalue hlog', hlog⟩

/-- The messages of three acceptors for two instances. In the second instance acceptor 0 has
accepted at a ballot of its own, and one message is from an acceptor that does not exist. -/
def twoInstances : List PaxosAccepted :=
  [{ iid := 1, ballot := 10, aid := 0, value := [1] },
    { iid := 1, ballot := 10, aid := 2, value := [1] },
    { iid := 2, ballot := 20, aid := 0, value := [3] },
    { iid := 2, ballot := 10, aid := 1, value := [2] },
    { iid := 2, ballot := 10, aid := 2, value := [2] },
    { iid := 3, ballot := 10, aid := 7, value := [4] }]

/-- Fed in order with a delivery after each message, or the other way round with none. -/
theorem delivered_log_eq_reversed :
    let r := deliverClosed (·.learner.currentIid) ((LoggedLearner.fresh {} 3).run
      (twoInstances.flatMap fun a => [.receiveAccepted a, .deliverNext 0]))
    let r' := deliverClosed (fun _ => 0) ((LoggedLearner.fresh {} 3).run
      (twoInstances.reverse.map .receiveAccepted))
    r.log = [(1, 10, [1]), (2, 10, [2])] ∧ r.log = r'.log := by
  have hone : OneVote (· ∈ (twoInstances : Multiset PaxosAccepted)) := fun a a' ha ha' =>
    (by decide : ∀ a ∈ twoInstances, ∀ a' ∈ twoInstances, a.iid = a'.iid → a.aid = a'.aid → a = a')
      a ha a' ha'
  have hvalue : OneValuePerBallot (· ∈ (twoInstances : Multiset PaxosAccepted)) :=
    fun a a' ha ha' => (by decide : ∀ a ∈ twoInstances, ∀ a' ∈ twoInstances, a.iid = a'.iid →
      a.ballot = a'.ballot → a.value = a'.value) a ha a' ha'
  have hlog := delivered_log_eq {} rfl 3 (twoInstances : Multiset PaxosAccepted)
    (by decide : ∀ a ∈ twoInstances, 1 ≤ a.iid) hone hvalue
    (twoInstances.flatMap fun a => [.receiveAccepted a, .deliverNext 0])
    (twoInstances.reverse.map .receiveAccepted) rfl
    (Multiset.coe_eq_coe.mpr (List.reverse_perm twoInstances)) (·.learner.currentIid) (fun _ => 0)
  exact ⟨by decide +kernel, hlog.2.2.1⟩

end LibPaxos
