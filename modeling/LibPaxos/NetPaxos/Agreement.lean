import LibPaxos.Votes
import LibPaxos.NetPaxos.Sequencer

/-!
# Agreement with a sequencer

At ballot 0 an instance has one value, the one the sequencer stamped. What learners ask for when
they fill a gap is the empty value: the only votes they look at are those at ballots above 0, and
these are votes for what learners asked for. So all depends on whether the value stamped can still
be chosen when the first learner asks.

* **`sequencer_agreement`** — if no learner counts a promise that reports a value at ballot 0, all
  learners deliver the same.
* **`sequencer_disagreement`** — a learner overrides a value that was chosen at ballot 0.
-/

namespace LibPaxos.NetPaxos

open Learner

/-- The acceptor will not vote at ballot 0 for `i` any more and has not voted there for a non-empty
value. -/
def Barred (s : State) (i : UInt32) (a : Nat) : Prop :=
  (s.acceptors a).Promised i 1 ∧ ∀ v, (s.acceptors a).Voted i 0 v → v = []

/-- A quorum of barred acceptors: no non-empty value is chosen at ballot 0. -/
def BarredQuorum (n : Nat) (s : State) (i : UInt32) : Prop :=
  ∃ Q, Voting.IsMajority n (paxosQuorum n) Q ∧ ∀ a ∈ Q, Barred s i a

/-- The promises counted are of barred acceptors, unless there is a barred quorum already. -/
def Counted (n : Nat) (s : State) (i : UInt32) (ids : Finset Nat) : Prop :=
  BarredQuorum n s i ∨ ∃ S : Finset Nat, S ⊆ Finset.range n ∧ S.card = ids.card ∧
    ∀ a ∈ S, (UInt16.ofNat a).toNat ∈ ids ∧ Barred s i a

/-- What holds of a request of a learner. -/
def Recovers (n : Nat) (s : State) : PaxosMessage → Prop
  | .prepare m => m.ballot ≠ 0
  | .accept m => m.ballot ≠ 0 ∧ m.value = [] ∧ BarredQuorum n s m.iid
  | _ => False

/-- What holds of a gap. No value is ever noted. -/
structure GapInv (n : Nat) (s : State) (k : UInt32) (gap : Gap) : Prop where
  iid : gap.iid = k
  majority : gap.majority = paxosQuorum n
  ballot : gap.ballot.toUInt16 ≠ 0
  value : gap.highestAcceptedValue = none
  counted : gap.reachedMajority = false → Counted n s k (bits gap.acceptorBitmap)

/-- The requests that acceptors get. -/
def Asked : AcceptorOp → Prop
  | .receivePrepare req => req.ballot ≠ 0
  | .receiveAccept _ => True
  | .receiveTrim _ | .receiveRepeat _ => False

/-- The invariant. A vote is for the value stamped, or for what a learner asked for. -/
structure Inv (n : Nat) (s : State) : Prop where
  acceptors : ∀ a, AcceptorInv (s.acceptors a)
  ids : ∀ a, (s.acceptors a).acceptor.id = a
  outside : ∀ a, n ≤ a → (s.acceptors a).log = []
  asked : ∀ a, ∀ e ∈ (s.acceptors a).log, Asked e.1
  learners : ∀ l, (s.learners l).Sound (AckedBy n s.acceptors) n
  submitted : ∀ m ∈ s.submitted, m.ballot = 0
  stamped : ∀ m ∈ s.stamped, m.ballot = 0 ∧ m.iid < s.sequencer.currentInstance
  unique : ∀ m ∈ s.stamped, ∀ m' ∈ s.stamped, m.iid = m'.iid → m.value = m'.value
  requests : ∀ l, ∀ m ∈ (s.learners l).emitted, Recovers n s m
  votes : ∀ a i c v, (s.acceptors a).Voted i c v →
    (c = 0 ∧ ∃ m ∈ s.stamped, m.iid = i ∧ m.value = v) ∨ (c ≠ 0 ∧ v = [] ∧ BarredQuorum n s i)
  gaps : ∀ l, (s.learners l).learner.gaps.All (GapInv n s)

theorem inv_init (config : PaxosConfig) (n : Nat) : Inv n (init config n) where
  acceptors a := acceptorInv_fresh a
  ids _ := rfl
  outside _ _ := rfl
  asked a e he := by cases he
  learners _ := ⟨rfl, AList.all_empty, List.forall_mem_nil _, fun _ _ => rfl⟩
  submitted := List.forall_mem_nil _
  stamped := List.forall_mem_nil _
  unique m hm := by cases hm
  requests l m hm := by cases hm
  votes a i c v h := by cases h
  gaps _ := AList.all_empty

/-! ## What stays -/

section Mono

variable {n : Nat} {s s' : State} {e : Event}

theorem Barred.step (hi : Inv n s) (h : step n s e = some s') {i : UInt32} {a : Nat}
    (hb : Barred s i a) : Barred s' i a := by
  rcases acceptors_step h a with heq | ⟨src, op, -, -, heq⟩
  · rw [Barred, heq]
    exact hb
  · rw [Barred, heq]
    refine ⟨hb.1.step (hi.acceptors a), fun v hv => ?_⟩
    rcases LoggedAcceptor.voted_step hv with hv | ⟨req, -, -, -, -, hp⟩
    · exact hb.2 v hv
    · exact absurd (hp 1 hb.1) (by decide)

theorem BarredQuorum.step (hi : Inv n s) (h : NetPaxos.step n s e = some s') {i : UInt32}
    (hb : BarredQuorum n s i) : BarredQuorum n s' i := by
  obtain ⟨Q, hQ, hall⟩ := hb
  exact ⟨Q, hQ, fun a ha => (hall a ha).step hi h⟩

theorem Counted.step (hi : Inv n s) (h : NetPaxos.step n s e = some s') {i : UInt32}
    {ids : Finset Nat} (hc : Counted n s i ids) : Counted n s' i ids := by
  rcases hc with hb | ⟨S, hS, hcard, hall⟩
  · exact .inl (hb.step hi h)
  · exact .inr ⟨S, hS, hcard, fun a ha => ⟨(hall a ha).1, (hall a ha).2.step hi h⟩⟩

theorem Recovers.step (hi : Inv n s) (h : NetPaxos.step n s e = some s') {m : PaxosMessage}
    (hr : Recovers n s m) : Recovers n s' m := by
  cases m with
  | accept m => exact ⟨hr.1, hr.2.1, hr.2.2.step hi h⟩
  | prepare | promise | accepted | preempted => exact hr

theorem GapInv.step (hi : Inv n s) (h : NetPaxos.step n s e = some s') {k : UInt32} {gap : Gap}
    (hg : GapInv n s k gap) : GapInv n s' k gap where
  iid := hg.iid
  majority := hg.majority
  ballot := hg.ballot
  value := hg.value
  counted hr := (hg.counted hr).step hi h

end Mono

/-! ## Promises and votes

An acceptor that has promised a ballot above 0 and has not voted for a non-empty value at ballot 0
is barred. Promises that report no value at ballot 0 come from barred acceptors, and once a quorum
of them is barred the value stamped cannot be chosen any more. -/

section Facts

variable {n : Nat} {s : State}

/-- A reply comes from an acceptor, which has logged it. -/
theorem Inv.reply_sender (hi : Inv n s) {node : Node} {m : PaxosMessage} (h : m ∈ s.sent node)
    (hm : m.isRequest = false) :
    ∃ a op, node = .acceptor a ∧ a < n ∧ (op, some m) ∈ (s.acceptors a).log := by
  cases node with
  | sequencer =>
    obtain ⟨m', -, rfl⟩ := List.mem_map.mp h
    cases hm
  | acceptor a =>
    obtain ⟨⟨op, out⟩, he, rfl⟩ := List.mem_filterMap.mp h
    refine ⟨a, op, rfl, ?_, he⟩
    by_contra hle
    rw [hi.outside a (Nat.not_lt.mp hle)] at he
    cases he
  | learner l =>
    have hr := hi.requests l m h
    cases m with
    | prepare | accept => cases hm
    | promise | accepted | preempted => exact hr.elim

/-- A request comes from the sequencer or a learner. -/
theorem Inv.request_sender (hi : Inv n s) {node : Node} {m : PaxosMessage} (h : m ∈ s.sent node)
    (hm : m.isRequest = true) :
    (∃ a ∈ s.stamped, m = .accept a) ∨ ∃ l, m ∈ (s.learners l).emitted := by
  cases node with
  | sequencer =>
    obtain ⟨a, ha, rfl⟩ := List.mem_map.mp h
    exact .inl ⟨a, ha, rfl⟩
  | acceptor a =>
    obtain ⟨⟨op, out⟩, he, rfl⟩ := List.mem_filterMap.mp h
    exact absurd ((hi.acceptors a).replies _ he m rfl) (by simp [hm])
  | learner l => exact .inr ⟨l, h⟩

/-- Votes for one instance at one ballot are for one value. -/
theorem Inv.vote_eq (hi : Inv n s) {a a' : Nat} {i : UInt32} {c : UInt16} {v v' : PaxosValue}
    (hv : (s.acceptors a).Voted i c v) (hv' : (s.acceptors a').Voted i c v') : v = v' := by
  rcases hi.votes a i c v hv with ⟨hc, m, hm, hiid, rfl⟩ | ⟨hc, rfl, -⟩
  · rcases hi.votes a' i c v' hv' with ⟨-, m', hm', hiid', rfl⟩ | ⟨hc', -⟩
    · exact hi.unique m hm m' hm' (hiid.trans hiid'.symm)
    · exact absurd hc hc'
  · rcases hi.votes a' i c v' hv' with ⟨hc', -⟩ | ⟨-, rfl, -⟩
    · exact absurd hc' hc
    · rfl

/-- An accepted message is told with the ballot of the vote, because nobody asks to repeat. -/
theorem Inv.acked (hi : Inv n s) {src : Node} {ack : PaxosAccepted}
    (hm : .accepted ack ∈ s.sent src) : AckedBy n s.acceptors ack := by
  obtain ⟨a, op, rfl, hlt, hlog⟩ := hi.reply_sender hm rfl
  have hia := hi.acceptors a
  refine hia.ackedBy (hi.ids a) hlt hlog ?_
  rcases hia.answers op ack hlog with ⟨req, rfl⟩ | ⟨iid, rfl⟩
  · rw [hia.votes req ack hlog]
    rfl
  · exact (hi.asked a _ hlog).elim

/-- A vote that a promise reports at a ballot above 0 is for the empty value, and there is a barred
quorum. -/
theorem Inv.reported (hi : Inv n s) {src : Node} {m : PaxosPromise} (hm : .promise m ∈ s.sent src)
    (hne : m.valueBallot ≠ 0) : m.value = [] ∧ BarredQuorum n s m.iid := by
  obtain ⟨a, op, rfl, hlt, hlog⟩ := hi.reply_sender hm rfl
  obtain ⟨hv, -⟩ := (hi.acceptors a).vote_of_promise hlog hne
  rcases hi.votes _ _ _ _ hv with ⟨hzero, -⟩ | ⟨-, hempty, hq⟩
  · exact absurd hzero hne
  · exact ⟨hempty, hq⟩

/-- **One more promise.** An acceptor that reports no value at ballot 0 is barred, unless it reports
a later vote. -/
theorem Inv.counted_insert (hi : Inv n s) {src : Node} {m : PaxosPromise} {ids : Finset Nat}
    (hm : .promise m ∈ s.sent src) (hval : m.valueBallot = 0 → m.value = [])
    (hid : m.aid.toNat ∉ ids) (hc : Counted n s m.iid ids) :
    Counted n s m.iid (insert m.aid.toNat ids) := by
  by_cases hne : m.valueBallot = 0
  · rcases hc with hq | ⟨S, hS, hcard, hall⟩
    · exact .inl hq
    · obtain ⟨a, op, rfl, hlt, hlog⟩ := hi.reply_sender hm rfl
      have hia := hi.acceptors a
      obtain ⟨newer, older, heq⟩ := List.append_of_mem hlog
      have haid := (hia.promises newer op m older heq).2
      rw [hi.ids a] at haid
      -- the promise is above ballot 0
      have hpos : 0 < m.ballot := by
        obtain ⟨req, rfl, hle⟩ := hia.asked op m hlog
        have hreq : req.ballot ≠ 0 := hi.asked a _ hlog
        exact UInt16.lt_of_lt_of_le (UInt16.pos_iff_ne_zero.mpr hreq) hle
      have hbar : Barred s m.iid a := by
        refine ⟨(hia.promised_of_promise hlog).mono ?_, fun v hv => ?_⟩
        · rw [UInt16.le_iff_toNat_le]
          exact UInt16.lt_iff_toNat_lt.mp hpos
        · obtain ⟨-, hv'⟩ := hia.report_spec hlog hv hpos
          rw [hne] at hv'
          rw [hi.vote_eq hv hv', hval hne]
      have hnew : a ∉ S := fun hmem => hid (haid ▸ (hall a hmem).1)
      refine .inr ⟨insert a S, Finset.insert_subset (Finset.mem_range.mpr hlt) hS, ?_, ?_⟩
      · rw [Finset.card_insert_of_notMem hnew, Finset.card_insert_of_notMem hid, hcard]
      · intro x hx
        rcases Finset.mem_insert.mp hx with rfl | hx
        · exact ⟨Finset.mem_insert.mpr (.inl (by rw [haid])), hbar⟩
        · exact ⟨Finset.mem_insert_of_mem (hall x hx).1, (hall x hx).2⟩
  · exact .inl (hi.reported hm hne).2

/-- A barred quorum leaves nothing but the empty value to be chosen. -/
theorem Inv.chosen_eq_nil (hi : Inv n s) {i : UInt32} {b : UInt16} {v : PaxosValue}
    (hq : BarredQuorum n s i) (hc : ChosenBy n s.acceptors i b v) : v = [] := by
  obtain ⟨Q, hQ, hcard, hv⟩ := hc
  obtain ⟨B, hB, hbar⟩ := hq
  obtain ⟨a, ha, haB⟩ := Voting.IsMajority.inter (lt_two_mul_paxosQuorum n) Q B ⟨hQ, hcard⟩ hB
  rcases hi.votes a i b v (hv a ha) with ⟨rfl, -⟩ | ⟨-, hempty, -⟩
  · exact (hbar a haB).2 v (hv a ha)
  · exact hempty

/-- **One value is chosen**: at ballot 0 the one stamped; if anything is chosen at another ballot,
it is the empty value, and then at ballot 0 as well. -/
theorem Inv.chosen_eq (hi : Inv n s) {i : UInt32} {b b' : UInt16} {v v' : PaxosValue}
    (hc : ChosenBy n s.acceptors i b v) (hc' : ChosenBy n s.acceptors i b' v') : v = v' := by
  obtain ⟨a, -, hv⟩ := hc.exists_voted
  obtain ⟨a', -, hv'⟩ := hc'.exists_voted
  by_cases hq : BarredQuorum n s i
  · rw [hi.chosen_eq_nil hq hc, hi.chosen_eq_nil hq hc']
  · have hzero : ∀ {a c v}, (s.acceptors a).Voted i c v → c = 0 := fun hv =>
      (hi.votes _ _ _ _ hv).elim And.left fun h => absurd h.2.2 hq
    obtain rfl := hzero hv
    obtain rfl := hzero hv'
    exact hi.vote_eq hv hv'

end Facts

/-! ## Steps

A learner that has counted a majority has a barred quorum behind it and asks for the empty value. So
at ballots above 0 there are votes for the empty value only, and they come after a barred quorum. -/

/-- What the recovery needs of a step: ids and ballots do not wrap around, and no learner counts a
promise that reports a value accepted at ballot 0. -/
def Mindful (s : State) : Event → Prop
  | .handleProposal _ => s.sequencer.currentInstance + 1 ≠ 0
  | .learner l _ (.receivePromise m) => ∀ gap ∈ (s.learners l).learner.gaps.lookup m.iid,
    gap.reachedMajority = false → m.aid.toNat ∉ bits gap.acceptorBitmap → m.valueBallot = 0 →
      m.value = []
  | .learner l _ (.prepare iid) => ∀ gap ∈ (s.learners l).learner.gaps.lookup iid,
    (gap.ballot + 11).toUInt16 ≠ 0
  | .learner l _ (.receivePreempted ack) => ∀ _ ∈ (s.learners l).learner.gaps.lookup ack.iid,
    (ack.ballot.toUInt32 + 11).toUInt16 ≠ 0
  | .submit _ | .acceptor _ _ _ | .learner _ _ (.receiveAccepted _)
  | .learner _ _ (.deliverNext _) => True

section Step

variable {n : Nat} {s s' : State} {e : Event}

/-- A gap that starts over counts nothing. -/
theorem gapInv_restart (s : State) {k : UInt32} {gap : Gap} (hiid : gap.iid = k)
    (hmaj : gap.majority = paxosQuorum n) (hb : (gap.ballot + 11).toUInt16 ≠ 0) :
    GapInv n s k (gapReset gap) where
  iid := hiid
  majority := hmaj
  ballot := hb
  value := rfl
  counted _ := .inr ⟨∅, Finset.empty_subset _, by rw [gapReset, bits_zero], List.forall_mem_nil _⟩

/-- A promise leaves a gap without a value. -/
theorem Inv.takeIn_gapInv (hi : Inv n s) {src : Node} {m : PaxosPromise} {gap : Gap}
    {bitmap : UInt8} (hm : .promise m ∈ s.sent src) (hg : GapInv n s m.iid gap)
    (hr : gap.reachedMajority = false)
    (hd : isDuplicated gap.acceptorBitmap m.aid.toNat = (bitmap, false))
    (hval : m.aid.toNat ∉ bits gap.acceptorBitmap → m.valueBallot = 0 → m.value = []) :
    GapInv n s m.iid (takeIn gap bitmap m) where
  iid := (takeIn_iid ..).trans hg.iid
  majority := (takeIn_majority ..).trans hg.majority
  ballot := by
    rw [takeIn_ballot]
    exact hg.ballot
  value := by
    unfold takeIn updateAcceptedValue
    split
    · rename_i hlt
      -- a ballot above the one noted is above 0
      have hne : m.valueBallot ≠ 0 := by
        intro h
        rw [h] at hlt
        exact absurd hlt (UInt32.not_lt.mpr (UInt32.zero_le))
      simp only [(hi.reported hm hne).1, List.length_nil, ne_eq, not_true_eq_false, if_false]
      exact hg.value
    · exact hg.value
  counted _ := by
    rw [takeIn_acceptorBitmap]
    obtain ⟨hid, hbits⟩ := isDuplicated_false hd
    rw [hbits]
    split
    · exact hi.counted_insert hm (hval hid) hid (hg.counted hr)
    · exact hg.counted hr

/-- What a call of a learner leaves and emits. -/
theorem Inv.gapMove (hi : Inv n s) {l : Nat} {l' : Learner} {src : Node} {op : LearnerOp}
    {out : List PaxosMessage} (hm : GapMove (s.learners l).learner op l' out)
    (hsent : ∀ m ∈ op.message, m ∈ s.sent src) (hok : Mindful s (.learner l src op)) :
    l'.gaps.All (GapInv n s) ∧ ∀ m ∈ out, Recovers n s m := by
  have hg := hi.gaps l
  have hn := (hi.learners l).acceptors
  cases hm with
  | kept hsame =>
    refine ⟨fun k gap hk => ?_, List.forall_mem_nil _⟩
    rw [hsame] at hk
    exact hg k gap hk
  | started _ hsame => exact ⟨hsame ▸ hg, List.forall_mem_nil _⟩
  | delivered => exact ⟨hg.erase _, List.forall_mem_nil _⟩
  | @opened iid hnew =>
    have hb : (3 : UInt32).toUInt16 ≠ 0 := by decide
    refine ⟨hg.insert ⟨rfl, ?_, hb, rfl, fun _ => ?_⟩, List.forall_mem_singleton.mpr hb⟩
    · rw [← hn]
      rfl
    · exact .inr ⟨∅, Finset.empty_subset _, by rw [gapNew, bits_zero], List.forall_mem_nil _⟩
  | @restarted _ k gap ballot hk hop =>
    have hgap := hg k gap hk
    have hb : (ballot + 11).toUInt16 ≠ 0 := by
      rcases hop with ⟨rfl, rfl⟩ | ⟨ack, rfl, rfl, rfl⟩
      · exact hok gap hk
      · exact hok gap hk
    exact ⟨hg.replace (AList.mem_of_lookup hk) (gapInv_restart s hgap.iid hgap.majority hb),
      List.forall_mem_singleton.mpr hb⟩
  | @promised m gap bitmap hk hr hd =>
    have hgap := hi.takeIn_gapInv (hsent _ rfl) (hg _ gap hk) hr hd (hok gap hk hr)
    exact ⟨hg.replace (AList.mem_of_lookup hk) hgap, List.forall_mem_nil _⟩
  | @requested m gap bitmap hk hr hd hmaj =>
    have hgap := hi.takeIn_gapInv (hsent _ rfl) (hg _ gap hk) hr hd (hok gap hk hr)
    have hreach : (takeIn gap bitmap m).reachedMajority = false := by
      rw [takeIn_reachedMajority, hr]
    -- the majority that was counted is barred from accepting at ballot 0
    have hq : BarredQuorum n s m.iid := by
      rcases hgap.counted hreach with hq | ⟨S, hS, hcard, hall⟩
      · exact hq
      · refine ⟨S, ⟨hS, ?_⟩, fun a ha => (hall a ha).2⟩
        rw [hcard, takeIn_acceptorBitmap, card_bits, ← (hg _ gap hk).majority]
        exact hmaj
    refine ⟨hg.replace (AList.mem_of_lookup hk) ⟨hgap.iid, hgap.majority, hgap.ballot, hgap.value,
      fun h => by cases h⟩, List.forall_mem_singleton.mpr ⟨hgap.ballot, ?_, ?_⟩⟩
    · rw [acceptOfGap, hgap.value]
      rfl
    · rw [acceptOfGap, hgap.iid]
      exact hq

theorem stamped_subset_step (h : step n s e = some s') : s.stamped ⊆ s'.stamped := by
  obtain ⟨-, rfl⟩ := step_eq_some h
  cases e with
  | handleProposal => exact List.subset_cons_self _ _
  | submit | acceptor | learner => exact List.Subset.refl _

/-- What the sequencer stamps has an id of its own. -/
theorem Inv.stamp (hi : Inv n s) (hok : Mindful s e) (h : step n s e = some s') :
    (∀ m ∈ s'.submitted, m.ballot = 0) ∧
      (∀ m ∈ s'.stamped, m.ballot = 0 ∧ m.iid < s'.sequencer.currentInstance) ∧
      ∀ m ∈ s'.stamped, ∀ m' ∈ s'.stamped, m.iid = m'.iid → m.value = m'.value := by
  obtain ⟨hen, rfl⟩ := step_eq_some h
  cases e with
  | submit value => exact ⟨List.forall_mem_cons.mpr ⟨rfl, hi.submitted⟩, hi.stamped, hi.unique⟩
  | handleProposal msg =>
    have hlt : s.sequencer.currentInstance < s.sequencer.currentInstance + 1 :=
      lt_add_one_of_pos (UInt32.pos_iff_ne_zero.mpr hok)
    have hnew : ∀ m ∈ s.stamped, m.iid ≠ s.sequencer.currentInstance := fun m hm heq =>
      UInt32.lt_irrefl _ (heq ▸ (hi.stamped m hm).2)
    refine ⟨hi.submitted,
      List.forall_mem_cons.mpr ⟨⟨hi.submitted msg hen, hlt⟩, fun m hm => ?_⟩, ?_⟩
    · exact ⟨(hi.stamped m hm).1, UInt32.lt_trans (hi.stamped m hm).2 hlt⟩
    · intro m hm m' hm' heq
      rcases List.mem_cons.mp hm with rfl | hm
      · rcases List.mem_cons.mp hm' with rfl | hm'
        · rfl
        · exact absurd heq.symm (hnew m' hm')
      · rcases List.mem_cons.mp hm' with rfl | hm'
        · exact absurd heq (hnew m hm)
        · exact hi.unique m hm m' hm' heq
  | acceptor | learner => exact ⟨hi.submitted, hi.stamped, hi.unique⟩

/-- What an acceptor is asked for, and by whom. -/
theorem Inv.asked_of_sent (hi : Inv n s) {src : Node} {op : AcceptorOp}
    (h : ∃ m ∈ op.message, m ∈ s.sent src) : Asked op := by
  obtain ⟨m, hm, hsent⟩ := h
  cases op with
  | receivePrepare req =>
    cases hm
    rcases hi.request_sender hsent rfl with ⟨a, -, ha⟩ | ⟨l, hl⟩
    · cases ha
    · exact hi.requests l _ hl
  | receiveAccept req => trivial
  | receiveTrim | receiveRepeat => cases hm

/-- A vote follows a request of the sequencer or of a learner. -/
theorem Inv.votes_step (hi : Inv n s) (h : step n s e = some s') {a : Nat} {i : UInt32} {c : UInt16}
    {v : PaxosValue} (hv : (s'.acceptors a).Voted i c v) :
    (c = 0 ∧ ∃ m ∈ s.stamped, m.iid = i ∧ m.value = v) ∨ (c ≠ 0 ∧ v = [] ∧ BarredQuorum n s i) := by
  rcases acceptors_step h a with heq | ⟨src, op, -, ⟨m, hm, hsent⟩, heq⟩
  · rw [heq] at hv
    exact hi.votes a i c v hv
  · rw [heq] at hv
    rcases LoggedAcceptor.voted_step hv with hv | ⟨req, rfl, rfl, rfl, rfl, -⟩
    · exact hi.votes a i c v hv
    · cases hm
      rcases hi.request_sender hsent rfl with ⟨a, ha, hreq⟩ | ⟨l, hl⟩
      · cases hreq
        exact .inl ⟨(hi.stamped req ha).1, req, ha, rfl, rfl⟩
      · exact .inr (hi.requests l _ hl)

/-- **Steps keep the invariant.** -/
theorem Inv.step (hi : Inv n s) (hok : Mindful s e) (h : NetPaxos.step n s e = some s') :
    Inv n s' := by
  obtain ⟨hsub, hstamp, huniq⟩ := hi.stamp hok h
  have hack : ∀ ack, AckedBy n s.acceptors ack → AckedBy n s'.acceptors ack := fun _ =>
    .mono fun _ _ _ _ => voted_mono h
  -- one acceptor: unchanged, or it handles one request
  have hacc : ∀ a, AcceptorInv (s'.acceptors a) ∧ (s'.acceptors a).acceptor.id = a ∧
      (n ≤ a → (s'.acceptors a).log = []) ∧ ∀ e ∈ (s'.acceptors a).log, Asked e.1 := by
    intro a
    rcases acceptors_step h a with heq | ⟨src, op, hlt, hsent, heq⟩
    · rw [heq]
      exact ⟨hi.acceptors a, hi.ids a, hi.outside a, hi.asked a⟩
    · rw [heq]
      refine ⟨(hi.acceptors a).step op, ?_, fun hge => absurd hlt (Nat.not_lt.mpr hge),
        List.forall_mem_cons.mpr ⟨hi.asked_of_sent hsent, hi.asked a⟩⟩
      exact (acceptorStep_move _ op).id_eq.trans (hi.ids a)
  -- one learner: unchanged, or it makes one call
  have hlearn : ∀ l, (s'.learners l).Sound (AckedBy n s'.acceptors) n ∧
      (∀ m ∈ (s'.learners l).emitted, Recovers n s m) ∧
      (s'.learners l).learner.gaps.All (GapInv n s) := by
    intro l
    rcases learners_step h l with heq | ⟨src, op, rfl, hsent, heq⟩
    · rw [heq]
      exact ⟨(hi.learners l).mono hack, hi.requests l, hi.gaps l⟩
    · rw [heq]
      obtain ⟨out, hm, hemit⟩ := LoggedLearner.step_gapMove (hi.learners l) op
      obtain ⟨hgaps, hout⟩ := hi.gapMove hm hsent hok
      refine ⟨?_, hemit ▸ List.forall_mem_append.mpr ⟨hout, hi.requests l⟩, hgaps⟩
      refine ((hi.learners l).step fun ack hop => ?_).mono hack
      subst hop
      exact hi.acked (hsent _ rfl)
  refine ⟨fun a => (hacc a).1, fun a => (hacc a).2.1, fun a => (hacc a).2.2.1,
    fun a => (hacc a).2.2.2, fun l => (hlearn l).1, hsub, hstamp, huniq,
    fun l m hm => ((hlearn l).2.1 m hm).step hi h, fun a i c v hv => ?_,
    fun l => (hlearn l).2.2.mono fun _ _ hg => hg.step hi h⟩
  rcases hi.votes_step h hv with ⟨hc, m, hm, hrest⟩ | ⟨hc, hv, hq⟩
  · exact .inl ⟨hc, m, stamped_subset_step h hm, hrest⟩
  · exact .inr ⟨hc, hv, hq.step hi h⟩

end Step

/-! ## Agreement -/

/-- **Learners agree.** In every run in which ids and recovery ballots do not wrap around and no
learner counts a promise that reports a value accepted at ballot 0, all quorums for an instance
accepted one value, and all learners deliver that one. -/
theorem sequencer_agreement (config : PaxosConfig) (n : Nat) (s : State)
    (hr : Reaches config n Mindful s) :
    (∀ i b b' v v', ChosenBy n s.acceptors i b v → ChosenBy n s.acceptors i b' v' → v = v') ∧
    ∀ l l', ∀ d ∈ (s.learners l).delivered, ∀ d' ∈ (s.learners l').delivered, d.iid = d'.iid →
      d.value = d'.value := by
  have hi : Inv n s := hr.invariant (inv_init config n) fun _ hi hok h => hi.step hok h
  have hchosen : ∀ l, ∀ d ∈ (s.learners l).delivered,
      ChosenBy n s.acceptors d.iid d.ballot d.value := fun l d hd =>
    chosenBy_of_backed ((hi.learners l).delivered d hd) fun _ _ _ _ => hi.vote_eq
  refine ⟨fun i b b' v v' => hi.chosen_eq, fun l l' d hd d' hd' heq => ?_⟩
  exact hi.chosen_eq (hchosen l d hd) (heq ▸ hchosen l' d' hd')

instance (s : State) : DecidablePred (Mindful s)
  | .handleProposal _ => inferInstanceAs (Decidable (_ ≠ _))
  | .learner l _ (.receivePromise m) => inferInstanceAs (Decidable
    (∀ gap ∈ (s.learners l).learner.gaps.lookup m.iid, gap.reachedMajority = false →
      m.aid.toNat ∉ bits gap.acceptorBitmap → m.valueBallot = 0 → m.value = []))
  | .learner l _ (.prepare iid) => inferInstanceAs (Decidable
    (∀ gap ∈ (s.learners l).learner.gaps.lookup iid, (gap.ballot + 11).toUInt16 ≠ 0))
  | .learner l _ (.receivePreempted ack) => inferInstanceAs (Decidable
    (∀ _ ∈ (s.learners l).learner.gaps.lookup ack.iid, (ack.ballot.toUInt32 + 11).toUInt16 ≠ 0))
  | .submit _ | .acceptor _ _ _ | .learner _ _ (.receiveAccepted _)
  | .learner _ _ (.deliverNext _) => instDecidableTrue

/-- A client submits a value and the sequencer stamps it. -/
def sequenced (v : PaxosValue) : List Event :=
  [.submit v, .handleProposal (LibPaxos.submit v)]

/-- The accept request for the instance `i` at ballot `b`. -/
def request (i : UInt32) (b : UInt16) (v : PaxosValue) : PaxosAccept :=
  { LibPaxos.submit v with iid := i, ballot := b }

/-- Acceptors 0 and 1 handle a request. -/
def bothAccept (src : Node) (req : PaxosAccept) : List Event :=
  [.acceptor 0 src (.receiveAccept req), .acceptor 1 src (.receiveAccept req)]

/-- The accepted message of acceptor `a`. -/
def accepted (i : UInt32) (b : UInt16) (v : PaxosValue) (a : UInt16) : PaxosAccepted :=
  { iid := i, ballot := b, valueBallot := b, aid := a, value := v }

/-- A learner gets the accepted messages of acceptors 0 and 1. -/
def bothAccepted (l : Nat) (i : UInt32) (b : UInt16) (v : PaxosValue) : List Event :=
  [.learner l (.acceptor 0) (.receiveAccepted (accepted i b v 0)),
    .learner l (.acceptor 1) (.receiveAccepted (accepted i b v 1))]

/-- A learner prepares the instance `i`; acceptors 0 and 1 promise and report the value `v` at
ballot 0. -/
def recovery (l : Nat) (i : UInt32) (v : PaxosValue) : List Event :=
  [.learner l (.learner l) (.prepare i),
    .acceptor 0 (.learner l) (.receivePrepare { iid := i, ballot := 3 }),
    .acceptor 1 (.learner l) (.receivePrepare { iid := i, ballot := 3 }),
    .learner l (.acceptor 0) (.receivePromise
      { iid := i, ballot := 3, valueBallot := 0, aid := 0, value := v }),
    .learner l (.acceptor 1) (.receivePromise
      { iid := i, ballot := 3, valueBallot := 0, aid := 1, value := v })]

/-- A learner delivers what it can. -/
def deliver (l : Nat) : Event :=
  .learner l (.learner l) (.deliverNext 0)

/-- The first request is lost. One learner fills the gap, the other one follows. -/
theorem sequencer_agreement_filled_gap :
    ∃ s : State, (s.learners 0).delivered = [accepted 2 0 [2] 1, accepted 1 3 [] 1] ∧
      (s.learners 1).delivered = [accepted 1 3 [] 1] ∧
      ∀ d ∈ (s.learners 0).delivered, ∀ d' ∈ (s.learners 1).delivered, d.iid = d'.iid →
        d.value = d'.value := by
  obtain ⟨s, hr, hs⟩ := Runs.exists_reaches_of_run (step 3) Mindful (init {} 3)
    (sequenced [1] ++ sequenced [2] ++ bothAccept .sequencer (request 2 0 [2]) ++
      bothAccepted 0 2 0 [2] ++ recovery 0 1 [] ++ bothAccept (.learner 0) (request 1 3 []) ++
      bothAccepted 0 1 3 [] ++ [deliver 0, deliver 0] ++ bothAccepted 1 1 3 [] ++ [deliver 1])
    (fun s => (s.learners 0).delivered = [accepted 2 0 [2] 1, accepted 1 3 [] 1] ∧
      (s.learners 1).delivered = [accepted 1 3 [] 1]) (by decide +kernel)
  obtain ⟨h₀, h₁⟩ := of_decide_eq_true hs
  exact ⟨s, h₀, h₁, (sequencer_agreement {} 3 s hr).2 0 1⟩

/-! ## Values at ballot 0 -/

/-- Two values are chosen. Learner 0 delivers the first one; learner 1 gets the second one only and
fills the gap. -/
def overlookedValue : List Event :=
  sequenced [1] ++ sequenced [2] ++ bothAccept .sequencer (request 1 0 [1]) ++
    bothAccept .sequencer (request 2 0 [2]) ++ bothAccepted 0 1 0 [1] ++ [deliver 0] ++
    bothAccepted 1 2 0 [2] ++ recovery 1 1 [1] ++ bothAccept (.learner 1) (request 1 3 []) ++
    bothAccepted 1 1 3 [] ++ [deliver 1]

/-- **A chosen value is overridden.** Both promises report the value chosen at ballot 0, and the
learner takes no ballot above 0 for no value at all. -/
theorem sequencer_disagreement :
    ¬ ∀ s, Reaches {} 3 (fun _ _ => True) s →
      ∀ l l', ∀ d ∈ (s.learners l).delivered, ∀ d' ∈ (s.learners l').delivered, d.iid = d'.iid →
        d.value = d'.value := by
  obtain ⟨s, hr, hs⟩ := Runs.exists_reaches_of_run (step 3) (fun _ _ => True) (init {} 3)
    overlookedValue
    (fun s => (s.learners 0).delivered = [accepted 1 0 [1] 1] ∧
      (s.learners 1).delivered = [accepted 1 3 [] 1]) (by decide +kernel)
  obtain ⟨h₀, h₁⟩ := of_decide_eq_true hs
  intro hclaim
  have := hclaim s hr 0 1 (accepted 1 0 [1] 1) (by rw [h₀]; exact List.mem_cons_self)
    (accepted 1 3 [] 1) (by rw [h₁]; exact List.mem_cons_self) rfl
  cases this

end LibPaxos.NetPaxos
