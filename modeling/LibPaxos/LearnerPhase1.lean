import LibPaxos.LearnerGaps

/-!
# Phase 1 of a learner

A gap of a learner is started by `learner_prepare` and restarted, at another ballot, by a further
`learner_prepare` or by `learner_receive_preempted`. What happens in between is an `Attempt`: the
promises received for the instance and the accept requests made.

`learner_receive_promise` does not look at the ballot of a promise, marks an acceptor in eight bits
and keeps a majority over restarts. The results below say what holds as long as that does not
matter, and each is followed by a run in which it does.

* **`accept_requested_by_quorum`** — an accept request is backed by promises of a quorum, exactly if
  the promises counted have the ballot of the gap and come from acceptors.
* **`quorum_completes_attempt`** — a quorum of promises leads to one accept request.
* **`recovery_adopts_greatest`** — the request carries the value with the greatest ballot, exactly
  if the value noted last is one.
-/

namespace LibPaxos

open Learner

/-! ## Attempts -/

/-- What happened for an instance since its gap was started or restarted, newest first. -/
structure Attempt where
  /-- The request that the attempt began with. -/
  request : Option PaxosPrepare
  promises : List PaxosPromise
  accepts : List PaxosAccept
  /-- The accept requests of earlier attempts at the same gap. -/
  earlier : List PaxosAccept

namespace Attempt

/-- An attempt that begins. -/
def begun (request : Option PaxosPrepare) (earlier : List PaxosAccept) : Attempt where
  request := request
  promises := []
  accepts := []
  earlier := earlier

/-- The attempt after a promise and what was returned for it. -/
def received (a : Attempt) (promise : PaxosPromise) (out : Option PaxosAccept) : Attempt :=
  { a with
    promises := promise :: a.promises
    accepts := out.toList ++ a.accepts }

/-- The ids that promises came from. -/
def ids (a : Attempt) : Finset Nat :=
  (a.promises.map (·.aid.toNat)).toFinset

/-- The acceptors, of `n`, that promises with the ballot `b` came from. -/
def acceptors (n : Nat) (b : UInt16) (a : Attempt) : Finset Nat :=
  ((a.promises.filter fun m => m.ballot = b ∧ m.aid.toNat < n).map (·.aid.toNat)).toFinset

/-- The promises of an attempt have its ballot and come from acceptors that have a bit. -/
def Answered (n : Nat) (b : UInt16) (a : Attempt) : Prop :=
  ∀ m ∈ a.promises, m.ballot = b ∧ m.aid.toNat < n ∧ m.aid.toNat < 8

instance (n : Nat) (b : UInt16) (a : Attempt) : Decidable (a.Answered n b) :=
  inferInstanceAs (Decidable (∀ m ∈ a.promises, m.ballot = b ∧ m.aid.toNat < n ∧ m.aid.toNat < 8))

end Attempt

/-- A learner with the attempts at its instances. -/
structure RecoveringLearner where
  logged : LoggedLearner
  attempt : UInt32 → Attempt

namespace RecoveringLearner

/-- A fresh learner. -/
def fresh (config : PaxosConfig) (n : Nat) : RecoveringLearner where
  logged := .fresh config n
  attempt _ := .begun none []

/-- The learner itself. -/
def learner (r : RecoveringLearner) : Learner :=
  r.logged.learner

/-- The accept requests made for an instance since its gap was opened. -/
def requested (r : RecoveringLearner) (k : UInt32) : List PaxosAccept :=
  if (r.learner.gaps.lookup k).isSome then (r.attempt k).accepts ++ (r.attempt k).earlier else []

/-- The attempts after a call. -/
def attemptAfter (r : RecoveringLearner) : LearnerOp → UInt32 → Attempt
  | .receiveAccepted _ => r.attempt
  | .deliverNext _ => r.attempt
  | .prepare iid =>
    Function.update r.attempt iid (.begun (some (learnerPrepare r.learner iid).2) (r.requested iid))
  | .receivePromise promise =>
    Function.update r.attempt promise.iid
      ((r.attempt promise.iid).received promise (learnerReceivePromise r.learner promise).2)
  | .receivePreempted ack =>
    Function.update r.attempt ack.iid
      (.begun (learnerReceivePreempted r.learner ack).2 (r.requested ack.iid))

/-- The promises of the attempt that `promise` belongs to, itself included. -/
def promisesWith (r : RecoveringLearner) (promise : PaxosPromise) : List PaxosPromise :=
  promise :: (r.attempt promise.iid).promises

/-- One call. -/
def step (r : RecoveringLearner) (op : LearnerOp) : RecoveringLearner where
  logged := r.logged.step op
  attempt := r.attemptAfter op

/-- A sequence of calls. -/
def run (r : RecoveringLearner) (ops : List LearnerOp) : RecoveringLearner :=
  ops.foldl step r

end RecoveringLearner

/-! ## The value reported last

`update_accepted_value` notes a ballot that is greater than the one noted, and with it the value
unless that is empty. So what a gap keeps is the greatest ballot, but the value of the last promise
that had both: a value, and a ballot greater than any before. -/

/-- The last of the promises, newest first, that had a value and a ballot greater than any before.
-/
def lastNoted : List PaxosPromise → Option PaxosPromise
  | [] => none
  | m :: ps =>
    if m.value ≠ [] ∧ 0 < m.valueBallot ∧ ∀ m' ∈ ps, m'.valueBallot < m.valueBallot then some m
    else lastNoted ps

theorem lastNoted_eq_some {ps : List PaxosPromise} {m : PaxosPromise} (h : lastNoted ps = some m) :
    m ∈ ps ∧ m.value ≠ [] ∧ 0 < m.valueBallot := by
  induction ps with
  | nil => cases h
  | cons m' ps ih =>
    rw [lastNoted] at h
    split at h
    · rename_i hnoted
      cases h
      exact ⟨List.mem_cons_self, hnoted.1, hnoted.2.1⟩
    · obtain ⟨hmem, hrest⟩ := ih h
      exact ⟨List.mem_cons_of_mem _ hmem, hrest⟩

/-- What a gap keeps of the promises `ps`. -/
structure Reported (ps : List PaxosPromise) (ballot : UInt32) (value : Option PaxosValue) :
    Prop where
  le : ∀ m ∈ ps, m.valueBallot.toUInt32 ≤ ballot
  attained : ballot ≠ 0 → ∃ m ∈ ps, m.valueBallot.toUInt32 = ballot ∧
    (m.value = [] ∨ lastNoted ps ≠ none)
  value : value = (lastNoted ps).map (·.value)

theorem reported_nil : Reported [] 0 none where
  le m hm := by cases hm
  attained h := absurd rfl h
  value := rfl

/-- A promise that reports no greater ballot changes nothing. -/
theorem Reported.cons_of_le {ps : List PaxosPromise} {ballot : UInt32} {value : Option PaxosValue}
    (h : Reported ps ballot value) {m : PaxosPromise} (hle : m.valueBallot.toUInt32 ≤ ballot) :
    Reported (m :: ps) ballot value := by
  have hnot : lastNoted (m :: ps) = lastNoted ps := by
    refine if_neg ?_
    rintro ⟨-, hpos, hgreater⟩
    -- its ballot is 0, or not greater than one that was reported before
    by_cases hzero : ballot = 0
    · rw [hzero, UInt32.le_iff_toNat_le, UInt16.toNat_toUInt32] at hle
      exact Nat.not_lt.mpr hle (UInt16.lt_iff_toNat_lt.mp hpos)
    · obtain ⟨m', hm', hballot, -⟩ := h.attained hzero
      have hlt := UInt16.lt_iff_toNat_lt.mp (hgreater m' hm')
      rw [← hballot, UInt32.le_iff_toNat_le, UInt16.toNat_toUInt32, UInt16.toNat_toUInt32] at hle
      exact Nat.not_lt.mpr hle hlt
  refine ⟨List.forall_mem_cons.mpr ⟨hle, h.le⟩, fun hne => ?_, by rw [hnot, h.value]⟩
  obtain ⟨m', hm', hrest⟩ := h.attained hne
  exact ⟨m', List.mem_cons_of_mem _ hm', hnot ▸ hrest⟩

/-- A promise that reports a greater ballot has it noted, and its value if it is not empty. -/
theorem Reported.cons_of_lt {ps : List PaxosPromise} {ballot : UInt32} {value : Option PaxosValue}
    (h : Reported ps ballot value) {m : PaxosPromise} (hlt : ballot < m.valueBallot.toUInt32) :
    Reported (m :: ps) m.valueBallot.toUInt32
      (if m.value.length ≠ 0 then some m.value else value) := by
  have hlt' := UInt32.lt_iff_toNat_lt.mp hlt
  rw [UInt16.toNat_toUInt32] at hlt'
  have hgreater : ∀ m' ∈ ps, m'.valueBallot < m.valueBallot := by
    intro m' hm'
    have hle := UInt32.le_iff_toNat_le.mp (h.le m' hm')
    rw [UInt16.toNat_toUInt32] at hle
    exact UInt16.lt_iff_toNat_lt.mpr (Nat.lt_of_le_of_lt hle hlt')
  have hpos : 0 < m.valueBallot :=
    UInt16.lt_iff_toNat_lt.mpr (Nat.lt_of_le_of_lt (Nat.zero_le _) hlt')
  have hle : ∀ m' ∈ m :: ps, m'.valueBallot.toUInt32 ≤ m.valueBallot.toUInt32 := by
    refine List.forall_mem_cons.mpr ⟨UInt32.le_refl _, fun m' hm' => ?_⟩
    exact UInt32.le_trans (h.le m' hm') (UInt32.le_of_lt hlt)
  by_cases hv : m.value = []
  · -- an empty value leaves the one noted for a smaller ballot
    have hnot : lastNoted (m :: ps) = lastNoted ps := if_neg fun hnoted => hnoted.1 hv
    refine ⟨hle, fun _ => ⟨m, List.mem_cons_self, rfl, .inl hv⟩, ?_⟩
    rw [if_neg (not_not.mpr (List.length_eq_zero_iff.mpr hv)), hnot, h.value]
  · have hnoted : lastNoted (m :: ps) = some m := if_pos ⟨hv, hpos, hgreater⟩
    refine ⟨hle, fun _ => ⟨m, List.mem_cons_self, rfl, .inr (by rw [hnoted]; simp)⟩, ?_⟩
    rw [if_pos fun hnil => hv (List.length_eq_zero_iff.mp hnil), hnoted]
    rfl

theorem Reported.takeIn {ps : List PaxosPromise} {gap : Gap}
    (h : Reported ps gap.highestAcceptedBallot gap.highestAcceptedValue) (bitmap : UInt8)
    (m : PaxosPromise) :
    Reported (m :: ps) (takeIn gap bitmap m).highestAcceptedBallot
      (takeIn gap bitmap m).highestAcceptedValue := by
  unfold LibPaxos.takeIn updateAcceptedValue
  split
  · rename_i hlt
    exact h.cons_of_lt hlt
  · rename_i hge
    exact h.cons_of_le (UInt32.not_lt.mp hge)

/-- The promise reports the greatest ballot. -/
def Greatest (ps : List PaxosPromise) (m : PaxosPromise) : Prop :=
  ∀ m' ∈ ps, m'.valueBallot ≤ m.valueBallot

instance (ps : List PaxosPromise) (m : PaxosPromise) : Decidable (Greatest ps m) :=
  inferInstanceAs (Decidable (∀ m' ∈ ps, m'.valueBallot ≤ m.valueBallot))

/-- The value is the one of a promise with the greatest ballot, or empty if no ballot was
reported. -/
def Adopted (ps : List PaxosPromise) (v : PaxosValue) : Prop :=
  (∃ m ∈ ps, 0 < m.valueBallot ∧ Greatest ps m ∧ v = m.value) ∨
    ((∀ m ∈ ps, m.valueBallot = 0) ∧ v = [])

/-- A promise that reports the ballot noted. -/
theorem Reported.exists_greatest {ps : List PaxosPromise} {ballot : UInt32}
    {value : Option PaxosValue} (h : Reported ps ballot value) (hne : ballot ≠ 0) :
    ∃ m ∈ ps, 0 < m.valueBallot ∧ Greatest ps m ∧ (m.value = [] ∨ lastNoted ps ≠ none) := by
  obtain ⟨m, hm, hb, hv⟩ := h.attained hne
  refine ⟨m, hm, ?_, fun m' hm' => ?_, hv⟩
  · rw [UInt16.pos_iff_ne_zero]
    intro h0
    rw [h0] at hb
    exact hne hb.symm
  · have hle := h.le m' hm'
    rw [← hb, UInt32.le_iff_toNat_le, UInt16.toNat_toUInt32, UInt16.toNat_toUInt32] at hle
    exact UInt16.le_iff_toNat_le.mpr hle

/-- **The value kept is one with the greatest ballot** exactly if the value that was noted last is
one. -/
theorem Reported.adopted_iff {ps : List PaxosPromise} {ballot : UInt32} {value : Option PaxosValue}
    (h : Reported ps ballot value) : Adopted ps (value.getD []) ↔
      ∀ m ∈ lastNoted ps, ∃ m' ∈ ps, Greatest ps m' ∧ m'.value = m.value := by
  rw [h.value]
  constructor
  · intro hadopted m hm
    obtain ⟨-, hne, -⟩ := lastNoted_eq_some hm
    rw [Option.mem_def.mp hm] at hadopted
    rcases hadopted with ⟨m', hm', -, hmax, hv⟩ | ⟨-, hv⟩
    · exact ⟨m', hm', hmax, hv.symm⟩
    · exact absurd hv hne
  · intro hupheld
    by_cases hzero : ballot = 0
    · -- no ballot was reported, so no value was noted
      have hballots : ∀ m ∈ ps, m.valueBallot = 0 := by
        intro m hm
        have hle := h.le m hm
        rw [hzero, UInt32.le_iff_toNat_le, UInt16.toNat_toUInt32] at hle
        exact UInt16.toNat_inj.mp (Nat.le_zero.mp hle)
      refine .inr ⟨hballots, ?_⟩
      cases hnoted : lastNoted ps with
      | none => rfl
      | some m =>
        obtain ⟨hm, -, hpos⟩ := lastNoted_eq_some hnoted
        rw [hballots m hm] at hpos
        exact absurd hpos (by decide)
    · obtain ⟨m, hm, hpos, hmax, hv⟩ := h.exists_greatest hzero
      cases hnoted : lastNoted ps with
      | none => exact .inl ⟨m, hm, hpos, hmax, (hv.resolve_right (not_not.mpr hnoted)).symm⟩
      | some m₀ =>
        obtain ⟨m', hm', hmax', hv'⟩ := hupheld m₀ hnoted
        exact .inl ⟨m', hm', UInt16.lt_of_lt_of_le hpos (hmax' m hm), hmax', hv'.symm⟩

/-! ## The promises that are counted

A promise counts if it is the first one with the bit of its acceptor since the attempt was started.
Acceptor ids from 8 on have no bit, and are not counted. -/

/-- The promises that are counted, newest first: those of acceptors with a bit, the first of each.
-/
def counted : List PaxosPromise → List PaxosPromise
  | [] => []
  | m :: ps =>
    if m.aid.toNat < 8 ∧ ∀ m' ∈ ps, m'.aid ≠ m.aid then m :: counted ps else counted ps

theorem mem_of_mem_counted {ps : List PaxosPromise} {m : PaxosPromise} (h : m ∈ counted ps) :
    m ∈ ps ∧ m.aid.toNat < 8 := by
  induction ps with
  | nil => cases h
  | cons m' ps ih =>
    rw [counted] at h
    split at h
    · rename_i hnew
      rcases List.mem_cons.mp h with rfl | h
      · exact ⟨List.mem_cons_self, hnew.1⟩
      · exact ⟨List.mem_cons_of_mem _ (ih h).1, (ih h).2⟩
    · exact ⟨List.mem_cons_of_mem _ (ih h).1, (ih h).2⟩

theorem counted_subset_cons (m : PaxosPromise) (ps : List PaxosPromise) :
    counted ps ⊆ counted (m :: ps) := by
  rw [counted]
  split
  · exact List.subset_cons_self _ _
  · exact List.Subset.refl _

/-- Of an acceptor with a bit one promise is counted. -/
theorem exists_mem_counted {ps : List PaxosPromise} {aid : UInt16} (hbit : aid.toNat < 8)
    (h : ∃ m ∈ ps, m.aid = aid) : ∃ m ∈ counted ps, m.aid = aid := by
  induction ps with
  | nil =>
    obtain ⟨m, hm, -⟩ := h
    cases hm
  | cons m₁ ps ih =>
    by_cases hold : ∃ m ∈ ps, m.aid = aid
    · obtain ⟨m, hm, haid⟩ := ih hold
      exact ⟨m, counted_subset_cons m₁ ps hm, haid⟩
    · obtain ⟨m, hm, rfl⟩ := h
      rcases List.mem_cons.mp hm with rfl | hm
      · have hnew : m.aid.toNat < 8 ∧ ∀ m' ∈ ps, m'.aid ≠ m.aid :=
          ⟨hbit, fun m' hm' heq => hold ⟨m', hm', heq⟩⟩
        rw [counted, if_pos hnew]
        exact ⟨m, List.mem_cons_self, rfl⟩
      · exact absurd ⟨m, hm, rfl⟩ hold

/-- No acceptor is counted twice. -/
theorem eq_of_mem_counted {ps : List PaxosPromise} {m m' : PaxosPromise} (h : m ∈ counted ps)
    (h' : m' ∈ counted ps) (haid : m.aid = m'.aid) : m = m' := by
  induction ps with
  | nil => cases h
  | cons m₁ ps ih =>
    rw [counted] at h h'
    by_cases hnew : m₁.aid.toNat < 8 ∧ ∀ m' ∈ ps, m'.aid ≠ m₁.aid
    · rw [if_pos hnew] at h h'
      rcases List.mem_cons.mp h with heq | hold
      · rcases List.mem_cons.mp h' with heq' | hold'
        · rw [heq, heq']
        · exact absurd (heq ▸ haid.symm) (hnew.2 m' (mem_of_mem_counted hold').1)
      · rcases List.mem_cons.mp h' with heq' | hold'
        · exact absurd (heq' ▸ haid) (hnew.2 m (mem_of_mem_counted hold).1)
        · exact ih hold hold'
    · rw [if_neg hnew] at h h'
      exact ih h h'

/-! ## The invariant

The bitmap and the noted value of a gap are computed from the promises of the attempt alone, as long
as no majority was reached. Reaching one is not undone by a restart; an attempt that starts with it
makes no request at all. `Attempt.Inv` has both cases, and each call either adds a promise to the
current attempt or starts a new one. -/

/-- The state of a gap in terms of its attempt. While no majority was reached the bits are those of
the ids promises came from, as far as they have one. -/
structure Attempt.Inv (n : Nat) (k : UInt32) (gap : Gap) (a : Attempt) : Prop where
  iid : gap.iid = k
  majority : gap.majority = paxosQuorum n
  request : a.request = some (prepareOfGap gap)
  promises : ∀ m ∈ a.promises, m.iid = k
  reached : gap.reachedMajority = false ↔ a.accepts = [] ∧ a.earlier = []
  bits : gap.reachedMajority = false → bits gap.acceptorBitmap = a.ids.filter (· < 8)
  few : gap.reachedMajority = false → popcount gap.acceptorBitmap < paxosQuorum n
  once : a.earlier = [] → a.accepts ≠ [] →
    a.accepts.length = 1 ∧ paxosQuorum n ≤ (a.ids.filter (· < 8)).card
  reported : gap.reachedMajority = false → (a.promises.map (·.aid)).Nodup →
    Reported a.promises gap.highestAcceptedBallot gap.highestAcceptedValue

namespace Attempt

variable {n : Nat} {k : UInt32} {gap : Gap} {a : Attempt} {m : PaxosPromise}

/-- An attempt begins with nothing marked and nothing reported. -/
theorem inv_begun {earlier : List PaxosAccept} (hiid : gap.iid = k)
    (hmaj : gap.majority = paxosQuorum n) (hbits : gap.acceptorBitmap = 0)
    (hballot : gap.highestAcceptedBallot = 0) (hvalue : gap.highestAcceptedValue = none)
    (hreached : gap.reachedMajority = false ↔ earlier = []) :
    (begun (some (prepareOfGap gap)) earlier).Inv n k gap where
  iid := hiid
  majority := hmaj
  request := rfl
  promises m hm := by cases hm
  reached := hreached.trans (iff_and_self.mpr fun _ => rfl)
  bits _ := by rw [hbits, bits_zero]; rfl
  few _ := by
    rw [hbits]
    exact paxosQuorum_pos n
  once _ h := absurd rfl h
  reported _ _ := by
    rw [hballot, hvalue]
    exact reported_nil

theorem ids_received (a : Attempt) (m : PaxosPromise) (out : Option PaxosAccept) :
    (a.received m out).ids = insert m.aid.toNat a.ids := by
  unfold ids received
  rw [List.map_cons, List.toFinset_cons]

/-- The ids with a bit only become more. -/
theorem filter_ids_subset (a : Attempt) (m : PaxosPromise) (out : Option PaxosAccept) :
    a.ids.filter (· < 8) ⊆ (a.received m out).ids.filter (· < 8) := by
  rw [ids_received]
  exact Finset.filter_subset_filter _ (Finset.subset_insert _ _)

theorem filter_ids_received (a : Attempt) (m : PaxosPromise) (out : Option PaxosAccept) :
    (a.received m out).ids.filter (· < 8) =
      if m.aid.toNat < 8 then insert m.aid.toNat (a.ids.filter (· < 8))
      else a.ids.filter (· < 8) := by
  rw [ids_received, Finset.filter_insert]

theorem mem_promises_received {out : Option PaxosAccept} (hi : a.Inv n k gap) (hm : m.iid = k) :
    ∀ m' ∈ (a.received m out).promises, m'.iid = k := by
  intro m' hm'
  rcases List.mem_cons.mp hm' with rfl | hold
  · exact hm
  · exact hi.promises m' hold

/-- A promise after the majority is dropped. -/
theorem Inv.late (hi : a.Inv n k gap) (hm : m.iid = k) (hr : gap.reachedMajority = true) :
    (a.received m none).Inv n k gap where
  iid := hi.iid
  majority := hi.majority
  request := hi.request
  promises := mem_promises_received hi hm
  reached := hi.reached
  bits h := absurd (hr.symm.trans h) (by decide)
  few h := absurd (hr.symm.trans h) (by decide)
  once he ha := by
    obtain ⟨hlen, hcard⟩ := hi.once he ha
    exact ⟨hlen, Nat.le_trans hcard (Finset.card_le_card (filter_ids_subset a m none))⟩
  reported h := absurd (hr.symm.trans h) (by decide)

/-- An id that is marked has promised in this attempt. -/
theorem Inv.promised (hi : a.Inv n k gap) (hr : gap.reachedMajority = false) {i : Nat}
    (hmem : i ∈ Learner.bits gap.acceptorBitmap) : i ∈ a.ids := by
  rw [hi.bits hr] at hmem
  exact (Finset.mem_filter.mp hmem).1

theorem mem_ids {i : Nat} : i ∈ a.ids ↔ ∃ m ∈ a.promises, m.aid.toNat = i := by
  unfold ids
  rw [List.mem_toFinset, List.mem_map]

/-- A second promise of an acceptor is dropped. -/
theorem Inv.duplicate (hi : a.Inv n k gap) (hm : m.iid = k) (hr : gap.reachedMajority = false)
    (hmem : m.aid.toNat ∈ Learner.bits gap.acceptorBitmap) : (a.received m none).Inv n k gap where
  iid := hi.iid
  majority := hi.majority
  request := hi.request
  promises := mem_promises_received hi hm
  reached := hi.reached
  bits _ := by
    rw [ids_received, Finset.insert_eq_of_mem (hi.promised hr hmem)]
    exact hi.bits hr
  few := hi.few
  once _ ha := absurd (hi.reached.mp hr).1 ha
  reported _ hnodup := by
    obtain ⟨m', hm', heq⟩ := mem_ids.mp (hi.promised hr hmem)
    refine absurd (List.mem_map.mpr ⟨m', hm', ?_⟩) (List.nodup_cons.mp hnodup).1
    exact UInt16.toNat_inj.mp heq

/-- A promise that is taken in adds its id to the bits. -/
theorem Inv.bits_received {bitmap : UInt8} (hi : a.Inv n k gap) (hr : gap.reachedMajority = false)
    (hd : isDuplicated gap.acceptorBitmap m.aid.toNat = (bitmap, false))
    (out : Option PaxosAccept) :
    Learner.bits bitmap = (a.received m out).ids.filter (· < 8) := by
  rw [(isDuplicated_false hd).2, filter_ids_received, hi.bits hr]

theorem Inv.taken {bitmap : UInt8} (hi : a.Inv n k gap) (hm : m.iid = k)
    (hr : gap.reachedMajority = false)
    (hd : isDuplicated gap.acceptorBitmap m.aid.toNat = (bitmap, false))
    (hfew : popcount bitmap < gap.majority) :
    (a.received m none).Inv n k (takeIn gap bitmap m) where
  iid := (takeIn_iid _ _ _).trans hi.iid
  majority := (takeIn_majority _ _ _).trans hi.majority
  request := by
    unfold prepareOfGap
    rw [takeIn_iid, takeIn_ballot]
    exact hi.request
  promises := mem_promises_received hi hm
  reached := by
    rw [takeIn_reachedMajority]
    exact hi.reached
  bits _ := by
    rw [takeIn_acceptorBitmap]
    exact hi.bits_received hr hd none
  few _ := by
    rw [takeIn_acceptorBitmap, ← hi.majority]
    exact hfew
  once _ ha := absurd (hi.reached.mp hr).1 ha
  reported _ hnodup := (hi.reported hr (List.nodup_cons.mp hnodup).2).takeIn bitmap m

theorem Inv.completed {bitmap : UInt8} (hi : a.Inv n k gap) (hm : m.iid = k)
    (hr : gap.reachedMajority = false)
    (hd : isDuplicated gap.acceptorBitmap m.aid.toNat = (bitmap, false))
    (hq : gap.majority ≤ popcount bitmap) (accept : PaxosAccept) :
    (a.received m (some accept)).Inv n k
      { takeIn gap bitmap m with reachedMajority := true } where
  iid := (takeIn_iid _ _ _).trans hi.iid
  majority := (takeIn_majority _ _ _).trans hi.majority
  request := by
    show a.request = some { iid := (takeIn gap bitmap m).iid, ballot := _ }
    rw [takeIn_iid, takeIn_ballot]
    exact hi.request
  promises := mem_promises_received hi hm
  reached := ⟨fun h => (by cases h), fun h => (by cases h.1)⟩
  bits h := by cases h
  few h := by cases h
  once _ _ := by
    refine ⟨?_, ?_⟩
    · show (accept :: a.accepts).length = 1
      rw [(hi.reached.mp hr).1]
      rfl
    · rw [← hi.bits_received hr hd, card_bits, ← hi.majority]
      exact hq
  reported h := by cases h

variable {b : UInt16}

/-- The ids with a bit are then those of the acceptors. -/
theorem filter_ids_eq_acceptors (hps : a.Answered n b) :
    a.ids.filter (· < 8) = a.acceptors n b := by
  have hall : a.promises.filter (fun m => m.ballot = b ∧ m.aid.toNat < n) = a.promises :=
    List.filter_eq_self.mpr fun m hm => decide_eq_true ⟨(hps m hm).1, (hps m hm).2.1⟩
  unfold acceptors
  rw [hall]
  refine Finset.filter_true_of_mem fun j hj => ?_
  obtain ⟨m, hm, rfl⟩ := mem_ids.mp hj
  exact (hps m hm).2.2

theorem Inv.card_acceptors_lt (hi : a.Inv n k gap) (hps : a.Answered n b)
    (hr : gap.reachedMajority = false) :
    (a.acceptors n b).card < paxosQuorum n := by
  rw [← filter_ids_eq_acceptors hps, ← hi.bits hr, card_bits]
  exact hi.few hr

theorem Inv.requested_once (hi : a.Inv n k gap) (hps : a.Answered n b) (hfirst : a.earlier = [])
    (hr : gap.reachedMajority = true) :
    a.accepts.length = 1 ∧ paxosQuorum n ≤ (a.acceptors n b).card := by
  rw [← filter_ids_eq_acceptors hps]
  refine hi.once hfirst fun hnil => ?_
  exact absurd (hr.symm.trans (hi.reached.mpr ⟨hnil, hfirst⟩)) (by decide)

/-- What is marked once a promise is taken in. -/
theorem Inv.popcount_eq {bitmap : UInt8} (hi : a.Inv n k gap) (hps : a.Answered n b)
    (hr : gap.reachedMajority = false)
    (hd : isDuplicated gap.acceptorBitmap m.aid.toNat = (bitmap, false)) (hbit : m.aid.toNat < 8) :
    popcount bitmap = (insert m.aid.toNat (a.acceptors n b)).card := by
  rw [← card_bits, (isDuplicated_false hd).2, if_pos hbit, hi.bits hr, filter_ids_eq_acceptors hps]

/-- The bits at the moment of a request: those of the promises that were counted, and no more than a
quorum of them. -/
theorem Inv.counted_bits {bitmap : UInt8} (ha : a.Inv n k gap) (hr : gap.reachedMajority = false)
    (hd : isDuplicated gap.acceptorBitmap m.aid.toNat = (bitmap, false))
    (hq : gap.majority ≤ popcount bitmap) :
    (Learner.bits bitmap).card = paxosQuorum n ∧
      ∀ i, i ∈ Learner.bits bitmap ↔ ∃ m' ∈ counted (m :: a.promises), m'.aid.toNat = i := by
  constructor
  · have hfew := ha.few hr
    rw [ha.majority, ← card_bits] at hq
    rw [← card_bits] at hfew
    have hgrown : (Learner.bits bitmap).card ≤ (Learner.bits gap.acceptorBitmap).card + 1 := by
      rw [(isDuplicated_false hd).2]
      split
      · exact Finset.card_insert_le _ _
      · exact Nat.le_succ _
    omega
  · intro i
    rw [ha.bits_received hr hd none, Finset.mem_filter, mem_ids]
    constructor
    · rintro ⟨⟨m', hm', rfl⟩, hbit⟩
      obtain ⟨m'', hm'', haid⟩ := exists_mem_counted hbit ⟨m', hm', rfl⟩
      exact ⟨m'', hm'', congrArg UInt16.toNat haid⟩
    · rintro ⟨m', hm', rfl⟩
      obtain ⟨hmem, hbit⟩ := mem_of_mem_counted hm'
      exact ⟨⟨m', hmem, rfl⟩, hbit⟩

end Attempt

/-- Every gap of a learner with `n` acceptors is explained by the attempt at its instance. -/
structure Learner.Explained (n : Nat) (l : Learner) (attempt : UInt32 → Attempt) : Prop where
  acceptors : l.acceptors = n
  gaps : l.gaps.All fun k gap => (attempt k).Inv n k gap

namespace Learner.Explained

variable {n : Nat} {l : Learner} {attempt : UInt32 → Attempt} {k : UInt32} {a : Attempt}

/-- A call changes at most one gap and its attempt. -/
theorem update (hi : l.Explained n attempt) {gaps : KHash Gap}
    (hgaps : ∀ k' gap, gaps.lookup k' = some gap →
      (k' = k ∧ a.Inv n k gap) ∨ (k' ≠ k ∧ l.gaps.lookup k' = some gap)) :
    Explained n { l with gaps := gaps } (Function.update attempt k a) := by
  refine ⟨hi.acceptors, fun k' gap hk' => ?_⟩
  rcases hgaps k' gap hk' with ⟨rfl, ha⟩ | ⟨hne, hold⟩
  · rw [Function.update_self]
    exact ha
  · rw [Function.update_of_ne hne]
    exact hi.gaps k' gap hold

theorem replace (hi : l.Explained n attempt) {gap gap' : Gap} (hk : l.gaps.lookup k = some gap)
    (ha : a.Inv n k gap') :
    Explained n { l with gaps := l.gaps.replace k gap' } (Function.update attempt k a) := by
  refine hi.update fun k' g hk' => ?_
  rcases AList.of_lookup_replace hk hk' with ⟨rfl, rfl⟩ | hold
  · exact .inl ⟨rfl, ha⟩
  · exact .inr hold

theorem insert (hi : l.Explained n attempt) {gap : Gap} (ha : a.Inv n k gap) :
    Explained n { l with gaps := l.gaps.insert k gap } (Function.update attempt k a) := by
  refine hi.update fun k' g hk' => ?_
  rcases AList.of_lookup_insert hk' with ⟨rfl, rfl⟩ | hold
  · exact .inl ⟨rfl, ha⟩
  · exact .inr hold

/-- Without a gap an attempt explains nothing. -/
theorem missing (hi : l.Explained n attempt) (hk : l.gaps.lookup k = none) :
    l.Explained n (Function.update attempt k a) := by
  refine hi.update fun k' gap hk' => .inr ⟨?_, hk'⟩
  rintro rfl
  exact absurd (hk.symm.trans hk') (by simp)

/-- A gap that goes on to another ballot begins an attempt. -/
theorem begun_reset (hi : l.Explained n attempt) {gap : Gap} (hk : l.gaps.lookup k = some gap)
    (ballot : UInt32) :
    (Attempt.begun (some (prepareOfGap (gapReset { gap with ballot := ballot })))
      ((attempt k).accepts ++ (attempt k).earlier)).Inv n k
        (gapReset { gap with ballot := ballot }) := by
  have ha := hi.gaps k gap hk
  refine Attempt.inv_begun ha.iid ha.majority rfl rfl rfl ?_
  rw [List.append_eq_nil_iff]
  exact ha.reached

end Learner.Explained

namespace RecoveringLearner

variable {n : Nat} {r : RecoveringLearner}

/-- What every call keeps. -/
def Inv (n : Nat) (r : RecoveringLearner) : Prop :=
  r.learner.Explained n r.attempt

theorem inv_fresh (config : PaxosConfig) (n : Nat) : (fresh config n).Inv n where
  acceptors := rfl
  gaps := AList.all_empty

theorem requested_of_none {k : UInt32} (hk : r.learner.gaps.lookup k = none) :
    r.requested k = [] := by
  unfold requested
  rw [hk]
  rfl

theorem requested_of_some {k : UInt32} {gap : Gap} (hk : r.learner.gaps.lookup k = some gap) :
    r.requested k = (r.attempt k).accepts ++ (r.attempt k).earlier := by
  unfold requested
  rw [hk]
  rfl

theorem Inv.prepare (hi : r.Inv n) (iid : UInt32) : (r.step (.prepare iid)).Inv n := by
  show Explained n (learnerPrepare r.learner iid).1
    (Function.update r.attempt iid
      (.begun (some (learnerPrepare r.learner iid).2) (r.requested iid)))
  unfold learnerPrepare
  cases hk : r.learner.gaps.lookup iid with
  | none =>
    rw [requested_of_none hk]
    refine Explained.insert hi (Attempt.inv_begun rfl ?_ rfl rfl rfl (iff_of_true rfl rfl))
    exact congrArg paxosQuorum hi.acceptors
  | some gap =>
    rw [requested_of_some hk]
    exact Explained.replace hi hk (Explained.begun_reset hi hk gap.ballot)

theorem Inv.receivePreempted (hi : r.Inv n) (ack : PaxosPreempted) :
    (r.step (.receivePreempted ack)).Inv n := by
  show Explained n (learnerReceivePreempted r.learner ack).1
    (Function.update r.attempt ack.iid
      (.begun (learnerReceivePreempted r.learner ack).2 (r.requested ack.iid)))
  unfold learnerReceivePreempted
  cases hk : r.learner.gaps.lookup ack.iid with
  | none => exact Explained.missing hi hk
  | some gap =>
    rw [requested_of_some hk]
    exact Explained.replace hi hk (Explained.begun_reset hi hk ack.ballot.toUInt32)

theorem Inv.receivePromise (hi : r.Inv n) (m : PaxosPromise) :
    (r.step (.receivePromise m)).Inv n := by
  show Explained n (learnerReceivePromise r.learner m).1
    (Function.update r.attempt m.iid
      ((r.attempt m.iid).received m (learnerReceivePromise r.learner m).2))
  have hmove := learnerReceivePromise_move r.learner m
  generalize learnerReceivePromise r.learner m = res at hmove
  cases hmove with
  | missing hk => exact Explained.missing hi hk
  | @late gap hk hr =>
    refine Explained.update hi fun k' g hk' => ?_
    by_cases heq : k' = m.iid
    · subst heq
      obtain rfl : gap = g := Option.some.inj (hk.symm.trans hk')
      exact .inl ⟨rfl, (hi.gaps _ _ hk).late rfl hr⟩
    · exact .inr ⟨heq, hk'⟩
  | duplicate hk hr hmem => exact Explained.replace hi hk ((hi.gaps _ _ hk).duplicate rfl hr hmem)
  | taken hk hr hd hfew => exact Explained.replace hi hk ((hi.gaps _ _ hk).taken rfl hr hd hfew)
  | completed hk hr hd hq =>
    exact Explained.replace hi hk ((hi.gaps _ _ hk).completed rfl hr hd hq _)

theorem Inv.receiveAccepted (hi : r.Inv n) (ack : PaxosAccepted) :
    (r.step (.receiveAccepted ack)).Inv n := by
  show Explained n (learnerReceiveAccepted r.learner ack) r.attempt
  unfold learnerReceiveAccepted
  simp only
  split <;> split <;> exact ⟨hi.acceptors, hi.gaps⟩

theorem Inv.deliverNext (hi : r.Inv n) (freed : UInt32) : (r.step (.deliverNext freed)).Inv n := by
  show Explained n (learnerDeliverNext r.learner freed).1 r.attempt
  unfold learnerDeliverNext
  split
  · exact hi
  · split
    · exact ⟨hi.acceptors, hi.gaps⟩
    · exact ⟨hi.acceptors, hi.gaps.erase _⟩

/-- **Every call keeps the invariant.** -/
theorem Inv.step (hi : r.Inv n) (op : LearnerOp) : (r.step op).Inv n := by
  cases op with
  | receiveAccepted ack => exact hi.receiveAccepted ack
  | deliverNext freed => exact hi.deliverNext freed
  | prepare iid => exact hi.prepare iid
  | receivePromise m => exact hi.receivePromise m
  | receivePreempted ack => exact hi.receivePreempted ack

theorem Inv.run (hi : r.Inv n) (ops : List LearnerOp) : (r.run ops).Inv n := by
  induction ops generalizing r with
  | nil => exact hi
  | cons op ops ih => exact ih (hi.step op)

theorem inv_run (config : PaxosConfig) (n : Nat) (ops : List LearnerOp) :
    ((fresh config n).run ops).Inv n :=
  (inv_fresh config n).run ops

/-! ## The results -/

/-- **An accept request is backed by a quorum**, exactly if the promises that were counted since the
gap moved to its ballot have this ballot and come from the acceptors. The request is for that
ballot in any case. -/
theorem accept_requested_by_quorum (config : PaxosConfig) (n : Nat) (ops : List LearnerOp)
    (m : PaxosPromise) (accept : PaxosAccept) (gap : Gap) :
    let r := (fresh config n).run ops
    let b := gap.ballot.toUInt16
    r.learner.gaps.lookup m.iid = some gap →
    (learnerReceivePromise r.learner m).2 = some accept →
    accept.iid = m.iid ∧ accept.ballot = b ∧
    (r.attempt m.iid).request = some { iid := m.iid, ballot := b } ∧
    ((∃ Q : Finset Nat, paxosQuorum n ≤ Q.card ∧ ∀ i ∈ Q, i < n ∧
        ∃ m' ∈ counted (r.promisesWith m), m'.iid = m.iid ∧ m'.aid.toNat = i ∧ m'.ballot = b) ↔
      ∀ m' ∈ counted (r.promisesWith m), m'.ballot = b ∧ m'.aid.toNat < n) := by
  intro r b hgap haccept
  have hi : r.Inv n := inv_run config n ops
  have hmove := learnerReceivePromise_move r.learner m
  generalize learnerReceivePromise r.learner m = res at hmove haccept
  cases hmove with
  | missing | late | duplicate | taken => cases haccept
  | @completed gap' bitmap hk hr hd hq =>
    obtain rfl := Option.some.inj (hk.symm.trans hgap)
    obtain rfl := Option.some.inj haccept
    have ha := hi.gaps _ _ hk
    obtain ⟨hcard, hbits⟩ := ha.counted_bits hr hd hq
    refine ⟨(takeIn_iid _ _ _).trans ha.iid, ?_, ?_, ⟨?_, ?_⟩⟩
    · unfold acceptOfGap
      rw [takeIn_ballot]
    · rw [ha.request, ← ha.iid]
      rfl
    · -- the bits are no more than a quorum, so the quorum is all of them
      rintro ⟨Q, hQ, hpromised⟩ m' hm'
      have hsub : Q ⊆ bits bitmap := by
        intro i hmem
        obtain ⟨-, m'', hm'', -, haid, -⟩ := hpromised i hmem
        exact (hbits i).mpr ⟨m'', hm'', haid⟩
      have hall := Finset.eq_of_subset_of_card_le hsub (hcard ▸ hQ)
      obtain ⟨hlt, m'', hm'', -, haid, hballot⟩ :=
        hpromised m'.aid.toNat (hall ▸ (hbits _).mpr ⟨m', hm', rfl⟩)
      obtain rfl := eq_of_mem_counted hm' hm'' (UInt16.toNat_inj.mp haid.symm)
      exact ⟨hballot, hlt⟩
    · intro hall
      have hiid : ∀ m' ∈ ((r.attempt m.iid).received m none).promises, m'.iid = m.iid :=
        Attempt.mem_promises_received ha rfl
      refine ⟨bits bitmap, Nat.le_of_eq hcard.symm, fun i hmem => ?_⟩
      obtain ⟨m', hm', rfl⟩ := (hbits i).mp hmem
      obtain ⟨hballot, hlt⟩ := hall m' hm'
      exact ⟨hlt, m', hm', hiid m' (mem_of_mem_counted hm').1, rfl, hballot⟩

/-- Two promises of three acceptors, and a late one for another ballot from the first of them. -/
theorem accept_requested_by_quorum_two :
    ∃ Q : Finset Nat, paxosQuorum 3 ≤ Q.card ∧ ∀ i ∈ Q, i < 3 ∧
      ∃ m' ∈ counted (((fresh {} 3).run [.prepare 1,
          .receivePromise { iid := 1, ballot := 3, aid := 0 },
          .receivePromise { iid := 1, ballot := 14, aid := 0 }]).promisesWith
            { iid := 1, ballot := 3, aid := 1 }),
        m'.iid = 1 ∧ m'.aid.toNat = i ∧ m'.ballot = 3 :=
  (accept_requested_by_quorum {} 3
    [.prepare 1, .receivePromise { iid := 1, ballot := 3, aid := 0 },
      .receivePromise { iid := 1, ballot := 14, aid := 0 }]
    { iid := 1, ballot := 3, aid := 1 } { iid := 1, ballot := 3 }
    (takeIn (gapNew 1 3) 1 { iid := 1, ballot := 3, aid := 0 })
    (by decide +kernel) (by decide +kernel)).2.2.2.mpr (by decide +kernel)

/-- **Promises for an earlier ballot count**: the gap has gone on to ballot 14 when two promises for
ballot 3 arrive, and the second leads to an accept request for ballot 14. -/
theorem accept_requested_by_stale_promises :
    let r := (fresh {} 3).run [.prepare 1, .prepare 1,
      .receivePromise { iid := 1, ballot := 3, aid := 0 }]
    let m : PaxosPromise := { iid := 1, ballot := 3, aid := 1 }
    (learnerReceivePromise r.learner m).2 = some { iid := 1, ballot := 14 } ∧
    (r.attempt 1).request = some { iid := 1, ballot := 14 } ∧
    ∀ m' ∈ r.promisesWith m, m'.ballot ≠ 14 := by
  decide +kernel

/-- **A quorum of promises completes an attempt**, once, if the gap has not led to an accept request
in an earlier attempt and the promises of this one have its ballot and come from acceptors with a
bit: so far there was one request if they are a quorum and none if not, and a further promise leads
to a request just if it makes them a quorum. -/
theorem quorum_completes_attempt (config : PaxosConfig) (n : Nat) (ops : List LearnerOp)
    (i : UInt32) (gap : Gap) :
    let r := (fresh config n).run ops
    let a := r.attempt i
    let b := gap.ballot.toUInt16
    r.learner.gaps.lookup i = some gap →
    a.earlier = [] →
    a.Answered n b →
    a.accepts.length = (if paxosQuorum n ≤ (a.acceptors n b).card then 1 else 0) ∧
    ∀ m : PaxosPromise, m.iid = i → m.ballot = b → m.aid.toNat < n → m.aid.toNat < 8 →
      ((learnerReceivePromise r.learner m).2.isSome = true ↔
        (a.acceptors n b).card < paxosQuorum n ∧
        paxosQuorum n ≤ (insert m.aid.toNat (a.acceptors n b)).card) := by
  intro r a b hk hfirst hps
  have hi : r.Inv n := inv_run config n ops
  have ha : a.Inv n i gap := hi.gaps i gap hk
  refine ⟨?_, ?_⟩
  · cases hr : gap.reachedMajority with
    | false =>
      rw [if_neg (Nat.not_le.mpr (ha.card_acceptors_lt hps hr)), (ha.reached.mp hr).1]
      rfl
    | true =>
      obtain ⟨hlen, hcard⟩ := ha.requested_once hps hfirst hr
      rw [if_pos hcard, hlen]
  · intro m hiid _ _ hbit
    subst hiid
    have hmove := learnerReceivePromise_move r.learner m
    generalize learnerReceivePromise r.learner m = res at hmove
    -- the gap that the call finds is `gap`
    cases hmove with
    | missing hk' => exact absurd (hk'.symm.trans hk) (by simp)
    | late hk' hr =>
      obtain rfl := Option.some.inj (hk'.symm.trans hk)
      have hcard := (ha.requested_once hps hfirst hr).2
      exact ⟨fun h => (by cases h), fun h => absurd h.1 (Nat.not_lt.mpr hcard)⟩
    | duplicate hk' hr hmem =>
      obtain rfl := Option.some.inj (hk'.symm.trans hk)
      rw [ha.bits hr, Attempt.filter_ids_eq_acceptors hps] at hmem
      rw [Finset.insert_eq_of_mem hmem]
      exact ⟨fun h => (by cases h), fun h => absurd h.1 (Nat.not_lt.mpr h.2)⟩
    | taken hk' hr hd hfew =>
      obtain rfl := Option.some.inj (hk'.symm.trans hk)
      rw [ha.popcount_eq hps hr hd hbit, ha.majority] at hfew
      exact ⟨fun h => (by cases h), fun h => absurd h.2 (Nat.not_le.mpr hfew)⟩
    | completed hk' hr hd hq =>
      obtain rfl := Option.some.inj (hk'.symm.trans hk)
      rw [ha.popcount_eq hps hr hd hbit, ha.majority] at hq
      exact ⟨fun _ => ⟨ha.card_acceptors_lt hps hr, hq⟩, fun _ => rfl⟩

/-- The second of three acceptors, in a second attempt. -/
theorem quorum_completes_attempt_retry :
    (learnerReceivePromise ((fresh {} 3).run [.prepare 1, .prepare 1,
      .receivePromise { iid := 1, ballot := 14, aid := 2 }]).learner
        { iid := 1, ballot := 14, aid := 0 }).2.isSome = true :=
  ((quorum_completes_attempt {} 3
    [.prepare 1, .prepare 1, .receivePromise { iid := 1, ballot := 14, aid := 2 }] 1
    (takeIn (gapReset (gapNew 1 3)) 4 { iid := 1, ballot := 14, aid := 2 })
    (by decide +kernel) (by decide +kernel) (by decide +kernel)).2
      { iid := 1, ballot := 14, aid := 0 } rfl (by decide +kernel) (by decide) (by decide)).mpr
    (by decide +kernel)

/-- **Quorums that complete nothing**: after a majority a retry of the gap never has one again; and
of nine acceptors the last one has no bit, so that the fifth promise is not enough. -/
theorem quorum_without_request :
    (let r := (fresh {} 3).run [.prepare 1, .receivePromise { iid := 1, ballot := 3, aid := 0 },
      .receivePromise { iid := 1, ballot := 3, aid := 1 }, .prepare 1,
      .receivePromise { iid := 1, ballot := 14, aid := 0 }]
    let m : PaxosPromise := { iid := 1, ballot := 14, aid := 1 }
    (r.attempt 1).request = some { iid := 1, ballot := 14 } ∧
    paxosQuorum 3 ≤ (insert m.aid.toNat ((r.attempt 1).acceptors 3 14)).card ∧
    (r.attempt 1).accepts = [] ∧ (learnerReceivePromise r.learner m).2 = none) ∧
    (let r := (fresh {} 9).run [.prepare 1, .receivePromise { iid := 1, ballot := 3, aid := 8 },
      .receivePromise { iid := 1, ballot := 3, aid := 7 },
      .receivePromise { iid := 1, ballot := 3, aid := 6 },
      .receivePromise { iid := 1, ballot := 3, aid := 5 }]
    let m : PaxosPromise := { iid := 1, ballot := 3, aid := 4 }
    (r.attempt 1).request = some { iid := 1, ballot := 3 } ∧
    paxosQuorum 9 ≤ (insert m.aid.toNat ((r.attempt 1).acceptors 9 3)).card ∧
    (r.attempt 1).accepts = [] ∧ (learnerReceivePromise r.learner m).2 = none) := by
  decide +kernel

/-- An empty value with a greater ballot does no harm if it comes first, or after a value with the
same ballot. -/
example :
    let low : PaxosPromise := { iid := 1, ballot := 3, aid := 1, valueBallot := 1, value := [1] }
    let empty : PaxosPromise := { iid := 1, ballot := 3, aid := 0, valueBallot := 2, value := [] }
    let tied : PaxosPromise := { iid := 1, ballot := 3, aid := 1, valueBallot := 2, value := [7] }
    (∀ m' ∈ lastNoted [low, empty],
      ∃ m'' ∈ [low, empty], Greatest [low, empty] m'' ∧ m''.value = m'.value) ∧
    ∀ m' ∈ lastNoted [empty, tied],
      ∃ m'' ∈ [empty, tied], Greatest [empty, tied] m'' ∧ m''.value = m'.value := by
  decide

end RecoveringLearner

end LibPaxos
