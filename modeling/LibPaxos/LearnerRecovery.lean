import LibPaxos.LearnerGaps
import LibPaxos.ProposerWire

/-!
# Recovery ballots

The ballots at which learners prepare the instances they are missing. A gap starts at ballot 3 and
goes up by 11 with every retry; a preempted message overwrites its ballot with that of the message
first. Proposers use their id plus multiples of 10.

* **`recovery_ballots_apart`** — if a gap is only opened for an instance that no learner has asked
  for, a preempted message never sets a gap back, and no learner goes on to a ballot of a proposer,
  then ballots go up and are never shared.
* **`recovery_ballots_shared`** — each of the conditions is needed.
-/

namespace LibPaxos

open Learner

/-! ## Learners and proposers -/

/-- Learners that recover instances, and the proposers with the ids `0, …, 9`. -/
structure Recovery (m : Nat) where
  learners : Fin m → LoggedLearner
  proposers : Fin 10 → LoggedProposer

/-- A call of one of the participants, with any message. -/
inductive RecoveryEvent (m : Nat) where
  | learner (l : Fin m) (op : LearnerOp)
  | proposer (p : Fin 10) (op : ProposerOp)

namespace Recovery

variable {m : Nat}

/-- All participants are new. A learner may have been told where to start. -/
def init (config : PaxosConfig) (n : Nat) (start : Fin m → Option UInt32) : Recovery m where
  learners l :=
    match start l with
    | none => .fresh config n
    | some iid => .startingAt config n iid
  proposers p := .fresh (UInt32.ofNat p) n

/-- One call. -/
def step (config : PaxosConfig) (s : Recovery m) : RecoveryEvent m → Option (Recovery m)
  | .learner l op =>
    some { s with learners := Function.update s.learners l ((s.learners l).step op) }
  | .proposer p op => do
    let r ← (s.proposers p).stepOption config op
    some { s with proposers := Function.update s.proposers p r }

end Recovery

/-- The number is not a ballot of one of the proposers. -/
def Unowned (ids : List (Fin 10)) (b : Nat) : Prop :=
  ∀ p ∈ ids, b % 10 ≠ p.val

/-- A gap at the ballot `b` may go on to the ballot `b'`. -/
def GoesOn (ids : List (Fin 10)) (b b' : Nat) : Prop :=
  b < b' ∧ b' < 2 ^ 16 ∧ Unowned ids b'

/-- The condition on a call under which recovery ballots are not shared: a gap is opened only for an
instance that no learner has asked for, and goes on to larger ballots that belong to no proposer. -/
def Recovery.Spread {m : Nat} (config : PaxosConfig) (ids : List (Fin 10)) (s : Recovery m) :
    RecoveryEvent m → Prop
  | .learner l (.prepare iid) =>
    ((s.learners l).learner.gaps.lookup iid = none →
      ∀ l', iid ∉ requestedIds (s.learners l').emitted) ∧
    ∀ gap ∈ (s.learners l).learner.gaps.lookup iid,
      GoesOn ids gap.ballot.toNat (gap.ballot.toNat + 11)
  | .learner l (.receivePreempted ack) =>
    ∀ gap ∈ (s.learners l).learner.gaps.lookup ack.iid,
      GoesOn ids gap.ballot.toNat (ack.ballot.toNat + 11)
  | .learner _ _ => True
  | .proposer p op => p ∈ ids ∧ (s.proposers p).StaysNarrow config op

/-! ## The ballots of one learner

A gap is at the largest ballot requested for its id. A retry adds 11; a preempted message overwrites
the ballot first, and only if that sets it back can the next one be among those already used. -/

/-- The ballot can be used by a learner: it is below all ballots of proposers, or owned by none. -/
def Usable (ids : List (Fin 10)) (b : Nat) : Prop :=
  b < 10 ∨ Unowned ids b

/-- A gap under the id `k` when the requests `E` were made: it is at the last of the ballots
requested for its instance. -/
structure Learner.Gap.AtTop (ids : List (Fin 10)) (E : List PaxosMessage) (k : UInt32) (gap : Gap) :
    Prop where
  iid_eq : gap.iid = k
  small : gap.ballot.toNat < 2 ^ 16
  usable : Usable ids gap.ballot.toNat
  asked : k ∈ requestedIds E
  low : ∀ msg ∈ E, ∀ b, usedBallot msg = some (k, b) → b.toNat ≤ gap.ballot.toNat

/-- What a learner keeps. -/
structure LoggedLearner.RecoveryInv (ids : List (Fin 10)) (n : Nat) (r : LoggedLearner) : Prop where
  sound : r.Sound (fun _ => True) n
  gaps : r.learner.gaps.All (Gap.AtTop ids r.emitted)
  used : ∀ msg ∈ r.emitted, ∀ k b, usedBallot msg = some (k, b) → Usable ids b.toNat

section Gap

variable {ids : List (Fin 10)} {E : List PaxosMessage} {k : UInt32} {gap gap' : Gap}
  {msg : PaxosMessage} {b : UInt16}

/-- A request for another instance. -/
theorem Learner.Gap.AtTop.cons_of_ne (h : gap.AtTop ids E k) {k' : UInt32}
    (hu : usedBallot msg = some (k', b)) (hne : k ≠ k') : gap.AtTop ids (msg :: E) k where
  iid_eq := h.iid_eq
  small := h.small
  usable := h.usable
  asked := by
    obtain ⟨m, hm, hb⟩ := mem_requestedIds.mp h.asked
    exact mem_requestedIds.mpr ⟨m, List.mem_cons_of_mem _ hm, hb⟩
  low m hm b' hb' := by
    rcases List.mem_cons.mp hm with rfl | hold
    · exact absurd (Prod.mk.inj (Option.some.inj (hb'.symm.trans hu))).1 hne
    · exact h.low m hold b' hb'

/-- A request for the instance of the gap, at its ballot. -/
theorem Learner.Gap.atTop_cons_self (hiid : gap.iid = k) (hsmall : gap.ballot.toNat < 2 ^ 16)
    (husable : Usable ids gap.ballot.toNat) (hu : usedBallot msg = some (k, gap.ballot.toUInt16))
    (hlow : ∀ msg ∈ E, ∀ b, usedBallot msg = some (k, b) → b.toNat ≤ gap.ballot.toNat) :
    gap.AtTop ids (msg :: E) k where
  iid_eq := hiid
  small := hsmall
  usable := husable
  asked := mem_requestedIds.mpr ⟨msg, List.mem_cons_self, _, hu⟩
  low m hm b' hb' := by
    rcases List.mem_cons.mp hm with rfl | hold
    · obtain rfl := (Prod.mk.inj (Option.some.inj (hb'.symm.trans hu))).2
      exact Nat.le_of_eq (toNat_toUInt16_of_lt hsmall)
    · exact hlow m hold b' hb'

/-- Another gap for the same instance at the same ballot. -/
theorem Learner.Gap.AtTop.of_eq (h : gap.AtTop ids E k) (hiid : gap'.iid = gap.iid)
    (hball : gap'.ballot = gap.ballot) : gap'.AtTop ids E k where
  iid_eq := hiid.trans h.iid_eq
  small := by rw [hball]; exact h.small
  usable := by rw [hball]; exact h.usable
  asked := h.asked
  low := by rw [hball]; exact h.low

/-- A request for one gap of a table, at its ballot, when the other gaps stay as they were. -/
theorem Learner.Gap.all_atTop_cons {gaps gaps' : KHash Gap} (hg : gaps.All (Gap.AtTop ids E))
    (hself : gap.AtTop ids (msg :: E) k) (hu : usedBallot msg = some (k, gap.ballot.toUInt16))
    (gap' : Gap) (hiid : gap'.iid = gap.iid) (hball : gap'.ballot = gap.ballot)
    (hcells : ∀ {k' g}, gaps'.lookup k' = some g →
      (k' = k ∧ g = gap') ∨ (k' ≠ k ∧ gaps.lookup k' = some g)) :
    gaps'.All (Gap.AtTop ids (msg :: E)) ∧
      ∀ m ∈ [msg], ∀ j b, usedBallot m = some (j, b) → Usable ids b.toNat := by
  constructor
  · intro k' g hk'
    rcases hcells hk' with ⟨rfl, rfl⟩ | ⟨hne, hold⟩
    · exact hself.of_eq hiid hball
    · exact (hg k' g hold).cons_of_ne hu hne
  · intro m hm j b hu'
    obtain rfl := List.mem_singleton.mp hm
    obtain rfl := (Prod.mk.inj (Option.some.inj (hu.symm.trans hu'))).2
    rw [toNat_toUInt16_of_lt hself.small]
    exact hself.usable

/-- The ballot of a gap that goes on. -/
theorem toNat_gapReset_ballot {b' : UInt32} (hgo : GoesOn ids gap.ballot.toNat (b'.toNat + 11)) :
    (gapReset { gap with ballot := b' }).ballot.toNat = b'.toNat + 11 := by
  obtain ⟨-, hlt, -⟩ := hgo
  show (b' + 11).toNat = b'.toNat + 11
  rw [UInt32.toNat_add]
  show (b'.toNat + 11) % 2 ^ 32 = _
  omega

end Gap

section Call

variable {ids : List (Fin 10)} {l l' : Learner} {E out : List PaxosMessage} {op : LearnerOp}

/-- **One call keeps gaps at the top**, if a gap is opened only for an instance without requests
and goes on as it may. A prepare request that it makes is above the earlier ones. -/
theorem GapMove.atTop (hm : GapMove l op l' out) (hg : l.gaps.All (Gap.AtTop ids E))
    (hfresh : ∀ iid, op = .prepare iid → l.gaps.lookup iid = none → iid ∉ requestedIds E)
    (hgo : ∀ k gap b', l.gaps.lookup k = some gap →
      ((op = .prepare k ∧ b' = gap.ballot) ∨
        ∃ ack, op = .receivePreempted ack ∧ ack.iid = k ∧ b' = ack.ballot.toUInt32) →
      GoesOn ids gap.ballot.toNat (b'.toNat + 11)) :
    l'.gaps.All (Gap.AtTop ids (out ++ E)) ∧
    (∀ msg ∈ out, ∀ k b, usedBallot msg = some (k, b) → Usable ids b.toNat) ∧ Rising E out := by
  have hnone : (∀ msg ∈ ([] : List PaxosMessage), ∀ k b, usedBallot msg = some (k, b) →
      Usable ids b.toNat) ∧ Rising E [] :=
    ⟨fun msg h => absurd h List.not_mem_nil, fun msg h => absurd h List.not_mem_nil⟩
  cases hm with
  | kept hl _ _ _ =>
    refine ⟨fun k gap hk => ?_, hnone⟩
    rw [hl] at hk
    exact hg k gap hk
  | started _ hl _ =>
    rw [hl]
    exact ⟨hg, hnone⟩
  | delivered => exact ⟨hg.erase _, hnone⟩
  | @opened iid hnew =>
    -- nobody has asked for the instance, so ballot 3 is above all requests for it
    have hnot := hfresh iid rfl hnew
    have hball : (gapNew iid l.acceptors).ballot.toNat = 3 := rfl
    have hself : (gapNew iid l.acceptors).AtTop ids
        (.prepare (prepareOfGap (gapNew iid l.acceptors)) :: E) iid := by
      refine Gap.atTop_cons_self rfl (by rw [hball]; decide) (.inl (by rw [hball]; decide)) rfl ?_
      exact fun msg hm b hu => absurd (mem_requestedIds.mpr ⟨msg, hm, b, hu⟩) hnot
    obtain ⟨hall, hused⟩ := Gap.all_atTop_cons hg hself rfl _ rfl rfl AList.of_lookup_insert
    refine ⟨hall, hused, ?_⟩
    intro msg hm m' hm' b hu
    cases List.mem_singleton.mp hm
    exact absurd (mem_requestedIds.mpr ⟨m', hm', b, hu⟩) hnot
  | @restarted _ k gap b' hk hop =>
    -- the ballot goes up and stays below 2 ^ 16, so it is sent as it is
    have hon := hgo k gap b' hk hop
    have htop := hg k gap hk
    have hball := toNat_gapReset_ballot hon
    obtain ⟨hlt, hsmall, hun⟩ := hon
    rw [← hball] at hlt hsmall hun
    have hsent := toNat_toUInt16_of_lt hsmall
    have hu : usedBallot (.prepare (prepareOfGap (gapReset { gap with ballot := b' })))
        = some (k, (gapReset { gap with ballot := b' }).ballot.toUInt16) :=
      congrArg (fun i => some (i, _)) htop.iid_eq
    have hself : (gapReset { gap with ballot := b' }).AtTop ids
        (.prepare (prepareOfGap (gapReset { gap with ballot := b' })) :: E) k := by
      refine Gap.atTop_cons_self htop.iid_eq hsmall (.inr hun) hu ?_
      exact fun msg hm b hu => Nat.le_of_lt (Nat.lt_of_le_of_lt (htop.low msg hm b hu) hlt)
    obtain ⟨hall, hused⟩ := Gap.all_atTop_cons hg hself hu _ rfl rfl
      (AList.of_lookup_replace hk)
    refine ⟨hall, hused, ?_⟩
    intro msg hm m' hm' b hu
    cases List.mem_singleton.mp hm
    have hle := htop.low m' hm' b (htop.iid_eq ▸ hu)
    rw [UInt16.lt_iff_toNat_lt]
    exact Nat.lt_of_le_of_lt hle (hsent.symm ▸ hlt)
  | @promised promise gap bitmap hk _ _ =>
    have htop := (hg _ _ hk).of_eq (takeIn_iid gap bitmap promise)
      (takeIn_ballot gap bitmap promise)
    exact ⟨hg.replace (AList.mem_of_lookup hk) htop, hnone⟩
  | @requested promise gap bitmap hk _ _ _ =>
    -- the accept request is at the ballot of the prepare request
    have htop := (hg _ _ hk).of_eq (takeIn_iid gap bitmap promise)
      (takeIn_ballot gap bitmap promise)
    have hu : usedBallot (.accept (acceptOfGap (takeIn gap bitmap promise)))
        = some (promise.iid, (takeIn gap bitmap promise).ballot.toUInt16) :=
      congrArg (fun i => some (i, _)) htop.iid_eq
    have hself := Gap.atTop_cons_self htop.iid_eq htop.small htop.usable hu htop.low
    obtain ⟨hall, hused⟩ := Gap.all_atTop_cons hg hself hu
      { takeIn gap bitmap promise with reachedMajority := true } rfl rfl
      (AList.of_lookup_replace hk)
    refine ⟨hall, hused, ?_⟩
    intro msg hm
    cases List.mem_singleton.mp hm

/-- A call makes requests only for instances that it has made requests for, or opens a gap for. -/
theorem GapMove.requestedIds_subset (hm : GapMove l op l' out) (hg : l.gaps.All (Gap.AtTop ids E))
    {k : UInt32} (hk : k ∈ requestedIds (out ++ E)) :
    k ∈ requestedIds E ∨ (op = .prepare k ∧ l.gaps.lookup k = none) := by
  rw [requestedIds, List.filterMap_append, List.mem_append] at hk
  rcases hk with hout | hold
  · obtain ⟨msg, hmem, b, hu⟩ := mem_requestedIds.mp hout
    cases hm with
    | opened hnew =>
      obtain rfl := List.mem_singleton.mp hmem
      cases hu
      exact .inr ⟨rfl, hnew⟩
    | restarted _ hgap _ =>
      obtain rfl := List.mem_singleton.mp hmem
      cases hu
      have htop := hg _ _ hgap
      exact .inl (htop.iid_eq.symm ▸ htop.asked)
    | @requested promise gap bitmap hgap _ _ _ =>
      obtain rfl := List.mem_singleton.mp hmem
      cases hu
      have htop := hg _ _ hgap
      have hiid : (acceptOfGap (takeIn gap bitmap promise)).iid = promise.iid :=
        (takeIn_iid gap bitmap promise).trans htop.iid_eq
      exact .inl (hiid ▸ htop.asked)
    | kept | started | delivered | promised => cases hmem
  · exact .inl hold

end Call

/-! ## The system

Requests for one id come from one learner if a gap is only opened for an id that nobody has asked
for, and the ballots of one learner are increasing. Ballots of proposers are told apart by their
remainder modulo 10, which a learner is required to avoid. -/

/-- The requests have an instance and a ballot in common. -/
def SharedRequest (out out' : List PaxosMessage) : Prop :=
  ∃ msg ∈ out, ∃ msg' ∈ out', ∃ k b, usedBallot msg = some (k, b) ∧ usedBallot msg' = some (k, b)

/-- What all participants keep. -/
structure Recovery.Inv {m : Nat} (ids : List (Fin 10)) (n : Nat) (s : Recovery m) : Prop where
  learners : ∀ l, (s.learners l).RecoveryInv ids n
  separate : ∀ l l' k, k ∈ requestedIds (s.learners l).emitted →
    k ∈ requestedIds (s.learners l').emitted → l = l'
  proposers : ∀ p, (s.proposers p).IssueInv (UInt32.ofNat p)

section Run

variable {m n : Nat} {config : PaxosConfig} {ids : List (Fin 10)} {s s' : Recovery m}

theorem Recovery.inv_init (config : PaxosConfig) (ids : List (Fin 10)) (n : Nat)
    (start : Fin m → Option UInt32) : (Recovery.init config n start).Inv ids n := by
  -- a new learner has made no requests and has no gaps, wherever it starts
  have hsent : ∀ l, ((Recovery.init config n start).learners l).emitted = [] := by
    intro l
    unfold init
    dsimp only
    split <;> rfl
  have hgaps : ∀ l, ((Recovery.init config n start).learners l).learner.gaps = ∅ := by
    intro l
    unfold init
    dsimp only
    split <;> rfl
  refine ⟨fun l => ⟨?_, ?_, ?_⟩, ?_, fun p => LoggedProposer.issueInv_fresh _ n⟩
  · unfold init
    dsimp only
    split
    · exact LoggedLearner.sound_fresh _ _ _
    · exact LoggedLearner.sound_startingAt _ _ _ _
  · rw [hgaps]
    exact AList.all_empty
  · rw [hsent]
    exact fun msg h => absurd h List.not_mem_nil
  · intro l l' k hk
    rw [hsent] at hk
    cases hk

/-- The two conditions of a call of a learner. -/
theorem Recovery.Spread.fresh {l : Fin m} {op : LearnerOp}
    (h : s.Spread config ids (.learner l op)) (iid : UInt32) (hop : op = .prepare iid)
    (hnew : (s.learners l).learner.gaps.lookup iid = none) (l' : Fin m) :
    iid ∉ requestedIds (s.learners l').emitted := by
  subst hop
  exact h.1 hnew l'

theorem Recovery.Spread.goesOn {l : Fin m} {op : LearnerOp}
    (h : s.Spread config ids (.learner l op)) (k : UInt32) (gap : Gap) (b' : UInt32)
    (hk : (s.learners l).learner.gaps.lookup k = some gap)
    (hop : (op = .prepare k ∧ b' = gap.ballot) ∨
      ∃ ack, op = .receivePreempted ack ∧ ack.iid = k ∧ b' = ack.ballot.toUInt32) :
    GoesOn ids gap.ballot.toNat (b'.toNat + 11) := by
  rcases hop with ⟨rfl, rfl⟩ | ⟨ack, rfl, rfl, rfl⟩
  · exact h.2 gap hk
  · rw [UInt16.toNat_toUInt32]
    exact h gap hk

/-- A call of a learner, with what it sends. -/
theorem Recovery.Inv.learner_call (hi : s.Inv ids n) {l : Fin m} {op : LearnerOp}
    (hok : s.Spread config ids (.learner l op)) :
    ∃ out, ((s.learners l).step op).emitted = out ++ (s.learners l).emitted ∧
      ((s.learners l).step op).RecoveryInv ids n ∧ Rising (s.learners l).emitted out ∧
      ∀ k ∈ requestedIds ((s.learners l).step op).emitted,
        k ∈ requestedIds (s.learners l).emitted ∨
          ∀ l', k ∉ requestedIds (s.learners l').emitted := by
  have hl := hi.learners l
  obtain ⟨out, hm, hemit⟩ := LoggedLearner.step_gapMove hl.sound op
  obtain ⟨hgaps, hused, hrise⟩ := hm.atTop hl.gaps (fun iid hop hnew => hok.fresh iid hop hnew l)
    (hok.goesOn)
  refine ⟨out, hemit, ⟨hl.sound.step fun _ _ => trivial, ?_, ?_⟩, hrise, fun k hk => ?_⟩
  · rw [hemit]
    exact hgaps
  · intro msg hmem k b hu
    rw [hemit] at hmem
    rcases List.mem_append.mp hmem with hnew | hold
    · exact hused msg hnew k b hu
    · exact hl.used msg hold k b hu
  · rw [hemit] at hk
    rcases hm.requestedIds_subset hl.gaps hk with hold | ⟨hop, hnew⟩
    · exact .inl hold
    · exact .inr (hok.fresh k hop hnew)

theorem Recovery.Inv.step {e : RecoveryEvent m} (hi : s.Inv ids n)
    (hok : s.Spread config ids e) (h : s.step config e = some s') : s'.Inv ids n := by
  cases e with
  | learner l op =>
    cases h
    obtain ⟨out, -, hl, -, hask⟩ := hi.learner_call hok
    -- an instance that is new to one learner is new to all of them
    have hold : ∀ l₁ k, k ∈ requestedIds
          (Function.update s.learners l ((s.learners l).step op) l₁).emitted →
        k ∈ requestedIds (s.learners l₁).emitted ∨
          (l₁ = l ∧ ∀ l', k ∉ requestedIds (s.learners l').emitted) := by
      intro l₁ k hk
      rw [Function.update_apply] at hk
      split at hk
      · rename_i heq
        subst heq
        exact (hask k hk).imp_right fun hnew => ⟨rfl, hnew⟩
      · exact .inl hk
    refine ⟨fun l₁ => ?_, fun l₁ l₂ k h₁ h₂ => ?_, hi.proposers⟩
    · show (Function.update s.learners l _ l₁).RecoveryInv ids n
      rw [Function.update_apply]
      split
      · exact hl
      · exact hi.learners l₁
    · rcases hold l₁ k h₁ with hold₁ | ⟨rfl, hnew⟩
      · rcases hold l₂ k h₂ with hold₂ | ⟨-, hnew⟩
        · exact hi.separate l₁ l₂ k hold₁ hold₂
        · exact absurd hold₁ (hnew l₁)
      · rcases hold l₂ k h₂ with hold₂ | ⟨rfl, -⟩
        · exact absurd hold₂ (hnew l₂)
        · rfl
  | proposer p op =>
    obtain ⟨r, hr, heq⟩ := Option.bind_eq_some_iff.mp h
    cases heq
    have hid : (UInt32.ofNat p).toNat < 2 ^ 31 := by
      rw [UInt32.toNat_ofNat']
      omega
    have hp := (hi.proposers p).step hid hok.2 (LoggedProposer.stepOption_eq_some hr)
    refine ⟨hi.learners, hi.separate, fun p₁ => ?_⟩
    show (Function.update s.proposers p r p₁).IssueInv (UInt32.ofNat p₁)
    rw [Function.update_apply]
    split
    · rename_i heq
      rw [heq]
      exact hp
    · exact hi.proposers p₁

theorem Recovery.Inv.learners_apart (hi : s.Inv ids n) {l l' : Fin m} (hne : l ≠ l') :
    ¬ SharedRequest (s.learners l).emitted (s.learners l').emitted := by
  rintro ⟨msg, hm, msg', hm', k, b, hu, hu'⟩
  exact hne (hi.separate l l' k (mem_requestedIds.mpr ⟨msg, hm, b, hu⟩)
    (mem_requestedIds.mpr ⟨msg', hm', b, hu'⟩))

theorem Recovery.Inv.proposer_apart (hi : s.Inv ids n) (l : Fin m) {p : Fin 10} (hp : p ∈ ids) :
    ¬ SharedRequest (s.learners l).emitted (s.proposers p).emitted := by
  rintro ⟨msg, hm, msg', hm', k, b, hu, hu'⟩
  obtain ⟨hbase, hres⟩ := (hi.proposers p).issued msg' hm' k b hu'
  have hid : (UInt32.ofNat p).toNat = p.val := by
    rw [UInt32.toNat_ofNat']
    omega
  -- a ballot below 10 is below all of a proposer's; a larger one has another remainder
  rcases (hi.learners l).used msg hm k b hu with hsmall | hun
  · omega
  · refine hun p hp ?_
    omega

end Run

/-- **Recovery ballots are not shared.** In every run of any number of learners and of the proposers
with the ids `ids` in which gaps are opened for different instances and go on to larger ballots that
belong to none of the proposers, all below `2 ^ 16`: the next prepare request of a learner is above
all requests that it made for the instance, and no two learners and no learner and proposer use one
ballot for one instance. -/
theorem recovery_ballots_apart {m : Nat} (config : PaxosConfig) (n : Nat)
    (start : Fin m → Option UInt32) (ids : List (Fin 10)) (s : Recovery m)
    (hr : Runs.Reaches (Recovery.step config) (Recovery.Spread config ids)
      (.init config n start) s) :
    (∀ l op out, s.Spread config ids (.learner l op) →
      ((s.learners l).step op).emitted = out ++ (s.learners l).emitted →
      Rising (s.learners l).emitted out) ∧
    (∀ l l', l ≠ l' → ¬ SharedRequest (s.learners l).emitted (s.learners l').emitted) ∧
    ∀ l, ∀ p ∈ ids, ¬ SharedRequest (s.learners l).emitted (s.proposers p).emitted := by
  have hi : s.Inv ids n := by
    refine hr.invariant (Recovery.inv_init config ids n start) ?_
    intro s s' e _ hs hok hstep
    exact hs.step hok hstep
  refine ⟨fun l op out hok hout => ?_, fun l l' => hi.learners_apart,
    fun l p => hi.proposer_apart l⟩
  obtain ⟨out', hout', -, hrise, -⟩ := hi.learner_call hok
  obtain rfl : out' = out := List.append_cancel_right (hout'.symm.trans hout)
  exact hrise

instance (ids : List (Fin 10)) (b b' : Nat) : Decidable (GoesOn ids b b') :=
  inferInstanceAs (Decidable (b < b' ∧ b' < 2 ^ 16 ∧ ∀ p ∈ ids, b' % 10 ≠ p.val))

instance {m : Nat} (config : PaxosConfig) (ids : List (Fin 10)) (s : Recovery m) :
    DecidablePred (s.Spread config ids)
  | .learner l (.prepare iid) => inferInstanceAs (Decidable
      (((s.learners l).learner.gaps.lookup iid = none →
        ∀ l', iid ∉ requestedIds (s.learners l').emitted) ∧
      ∀ gap ∈ (s.learners l).learner.gaps.lookup iid,
        GoesOn ids gap.ballot.toNat (gap.ballot.toNat + 11)))
  | .learner l (.receivePreempted ack) => inferInstanceAs (Decidable
      (∀ gap ∈ (s.learners l).learner.gaps.lookup ack.iid,
        GoesOn ids gap.ballot.toNat (ack.ballot.toNat + 11)))
  | .learner _ (.receiveAccepted _) | .learner _ (.deliverNext _)
  | .learner _ (.receivePromise _) =>
    instDecidableTrue
  | .proposer p op =>
    inferInstanceAs (Decidable (p ∈ ids ∧ (s.proposers p).StaysNarrow config op))

/-- Two acceptors of three have accepted a value for instance 3, so that a learner finds the
instances 1 and 2 missing. -/
def thirdAccepted {m : Nat} (l : Fin m) : List (RecoveryEvent m) :=
  [.learner l (.receiveAccepted { iid := 3, ballot := 10, aid := 0, value := [1] }),
    .learner l (.receiveAccepted { iid := 3, ballot := 10, aid := 1, value := [1] })]

/-- Two learners recover one instance each while proposer 0 works on both: they use the ballots 3,
14 and 31. -/
theorem recovery_ballots_apart_two :
    ∃ s : Recovery 2, .prepare { iid := 1, ballot := 14 } ∈ (s.learners 0).emitted ∧
      .prepare { iid := 2, ballot := 31 } ∈ (s.learners 1).emitted ∧
      .prepare { iid := 1, ballot := 10 } ∈ (s.proposers 0).emitted ∧
      ¬ SharedRequest (s.learners 0).emitted (s.learners 1).emitted ∧
      ¬ SharedRequest (s.learners 0).emitted (s.proposers 0).emitted := by
  obtain ⟨s, hr, hs⟩ := Runs.exists_reaches_of_run (Recovery.step {}) (Recovery.Spread {} [0])
    (.init (m := 2) {} 3 fun _ => none)
    (thirdAccepted 0 ++ thirdAccepted 1 ++
      [.learner 0 (.prepare 1), .learner 1 (.prepare 2), .learner 0 (.prepare 1),
        .learner 1 (.receivePreempted { iid := 2, ballot := 20 }), .proposer 0 (.prepare 0)])
    (fun s => .prepare { iid := 1, ballot := 14 } ∈ (s.learners 0).emitted ∧
      .prepare { iid := 2, ballot := 31 } ∈ (s.learners 1).emitted ∧
      .prepare { iid := 1, ballot := 10 } ∈ (s.proposers 0).emitted) (by decide +kernel)
  obtain ⟨h₀, h₁, h₂⟩ := of_decide_eq_true hs
  obtain ⟨-, hlearners, hproposers⟩ := recovery_ballots_apart {} 3 (fun _ => none) [0] s hr
  exact ⟨s, h₀, h₁, h₂, hlearners 0 1 (by decide), hproposers 0 0 (by decide)⟩

/-- Learners prepare only what they are missing, and proposers keep to 16 bits. -/
def Recovery.FromHoles {m : Nat} (s : Recovery m) : RecoveryEvent m → Prop
  | .learner l op => ∀ iid ∈ op.prepares, (s.learners l).learner.InHoles iid
  | .proposer p op => (s.proposers p).StaysNarrow {} op

instance {m : Nat} (s : Recovery m) : DecidablePred s.FromHoles
  | .learner l op =>
    inferInstanceAs (Decidable (∀ iid ∈ op.prepares, (s.learners l).learner.InHoles iid))
  | .proposer p op => inferInstanceAs (Decidable ((s.proposers p).StaysNarrow {} op))

/-- **Recovery ballots are shared.** A learner retries an instance up to ballot 25; then a preempted
message for ballot 10 arrives, which an acceptor sent in answer to its first request, and it goes on
at 21. Two learners that miss the same instance both start at ballot 3. And the second ballot
of a learner, 14, is the first one of proposer 4. -/
theorem recovery_ballots_shared :
    (¬ ∀ s : Recovery 1, Runs.Reaches (Recovery.step {}) Recovery.FromHoles
        (.init {} 3 fun _ => none) s → ∀ l op out, s.FromHoles (.learner l op) →
      ((s.learners l).step op).emitted = out ++ (s.learners l).emitted →
      Rising (s.learners l).emitted out) ∧
    (¬ ∀ s : Recovery 2, Runs.Reaches (Recovery.step {}) Recovery.FromHoles
        (.init {} 3 fun _ => none) s →
      ∀ l l', l ≠ l' → ¬ SharedRequest (s.learners l).emitted (s.learners l').emitted) ∧
    ¬ ∀ s : Recovery 1, Runs.Reaches (Recovery.step {}) Recovery.FromHoles
        (.init {} 3 fun _ => none) s →
      ∀ l p, ¬ SharedRequest (s.learners l).emitted (s.proposers p).emitted := by
  refine ⟨fun hclaim => ?_, fun hclaim => ?_, fun hclaim => ?_⟩
  -- a preempted message sets a gap back
  · obtain ⟨s, hr, hs⟩ := Runs.exists_reaches_of_run (Recovery.step {}) Recovery.FromHoles
      (.init (m := 1) {} 3 fun _ => none)
      (thirdAccepted 0 ++
        [.learner 0 (.prepare 1), .learner 0 (.prepare 1), .learner 0 (.prepare 1)])
      (fun s => .prepare { iid := 1, ballot := 25 } ∈ (s.learners 0).emitted ∧
        ((s.learners 0).step (.receivePreempted { iid := 1, ballot := 10 })).emitted
          = [.prepare { iid := 1, ballot := 21 }] ++ (s.learners 0).emitted) (by decide +kernel)
    obtain ⟨hsent, hout⟩ := of_decide_eq_true hs
    have hrise := hclaim s hr 0 _ _ (fun _ h => by cases h) hout
    exact absurd (hrise _ List.mem_cons_self _ hsent _ rfl) (by decide)
  · obtain ⟨s, hr, hs⟩ := Runs.exists_reaches_of_run (Recovery.step {}) Recovery.FromHoles
      -- two learners start the same gap
      (.init (m := 2) {} 3 fun _ => none)
      (thirdAccepted 0 ++ thirdAccepted 1 ++
        [.learner 0 (.prepare 1), .learner 1 (.prepare 1)])
      (fun s => .prepare { iid := 1, ballot := 3 } ∈ (s.learners 0).emitted ∧
        .prepare { iid := 1, ballot := 3 } ∈ (s.learners 1).emitted) (by decide +kernel)
    obtain ⟨h₀, h₁⟩ := of_decide_eq_true hs
    exact hclaim s hr 0 1 (by decide) ⟨_, h₀, _, h₁, 1, 3, rfl, rfl⟩
  · obtain ⟨s, hr, hs⟩ := Runs.exists_reaches_of_run (Recovery.step {}) Recovery.FromHoles
      -- a learner goes on to the first ballot of proposer 4
      (.init (m := 1) {} 3 fun _ => none)
      (thirdAccepted 0 ++
        [.learner 0 (.prepare 1), .learner 0 (.prepare 1), .proposer 4 (.prepare 0)])
      (fun s => .prepare { iid := 1, ballot := 14 } ∈ (s.learners 0).emitted ∧
        .prepare { iid := 1, ballot := 14 } ∈ (s.proposers 4).emitted) (by decide +kernel)
    obtain ⟨h₀, h₁⟩ := of_decide_eq_true hs
    exact hclaim s hr 0 4 ⟨_, h₀, _, h₁, 1, 14, rfl, rfl⟩

end LibPaxos
