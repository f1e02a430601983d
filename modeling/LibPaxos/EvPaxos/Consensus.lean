import LibPaxos.Lib.Voting
import LibPaxos.EvPaxos.Cluster

/-!
# The consensus argument for a cluster

For each instance a cluster is a voting world: the acceptors' logs say who voted for what, their
records say below which ballots they will not vote any more, and the accept requests sent are the
requests. The steps of the cluster make that world grow, and the counters of proposers and learners
are the reports collected in it.

* **`Inv.step`** — the invariant that every step keeps: the accept requests sent are justified, and
  what a waiting instance or gap has counted is evidence in the world. It needs that no ballot is
  used by two nodes (`Separate`) and that no vote is overlooked that matters (`Careful`).
* **`Inv.safe`** — the invariant makes each instance a safe voting world.

A proposer does not see that an acceptor has accepted the empty value, and a learner sees it only
some of the time. The parameter `vis` holds of the values whose votes count, and `due` of the values
that are only to be asked for with a justification. With `vis` the non-empty values and every
request due, nothing is asked of a proposer, and agreement on non-empty values follows. With every
value visible and `due` the non-empty values, a proposer that asks for a non-empty value must not
have overlooked a vote for the empty one, and a chosen no-op stays. -/

namespace LibPaxos.Cluster

open Voting Proposer Learner

/-! ## The world of an instance

The voting world is read off the logs: an acceptor voted for what it has answered with an accepted
message, it has promised what its record says, and requested is whatever lies in somebody's log of
sent messages. Ballot 0 is left out; it is the ballot of an acceptor that has not voted. -/

/-- What has happened about the instance `i`, leaving out the ballot 0. -/
def world (s : Cluster) (i : UInt32) : World Node Nat PaxosValue where
  vote a c v := 0 < c ∧ ∃ cb : UInt16, cb.toNat = c ∧ (s.acceptors a).Voted i cb v
  promised a b := ∃ bb : UInt16, b ≤ bb.toNat ∧ (s.acceptors a).Promised i bb
  request node b v := 0 < b ∧ ∃ m : PaxosAccept, .accept m ∈ s.sent node ∧ m.iid = i ∧
    m.ballot.toNat = b ∧ m.value = v

/-- The sets of acceptors that decide. -/
abbrev isQuorum (su : Setup) : Finset Nat → Prop :=
  IsMajority su.acceptors (paxosQuorum su.acceptors)

section Growth

variable {su : Setup} {s s' : Cluster} {e : Event}

/-- What a step does to one acceptor: nothing, or it handles one request. -/
theorem acceptors_step (h : step su s e = some s') (a : Nat) :
    s'.acceptors a = s.acceptors a ∨ ∃ op, s'.acceptors a = (s.acceptors a).step op := by
  obtain ⟨-, ⟨b, src, op, -, rfl⟩ | ⟨p, src, op, r, -, -, rfl⟩ | ⟨l, src, op, -, rfl⟩⟩ :=
    step_cases h
  · rw [setAcceptor_acceptors]
    split
    · rename_i heq
      exact .inr ⟨op, heq ▸ rfl⟩
    · exact .inl rfl
  · exact .inl rfl
  · exact .inl rfl

theorem voted_mono (h : step su s e = some s') {a : Nat} {i : UInt32} {c : UInt16} {v : PaxosValue}
    (hv : (s.acceptors a).Voted i c v) : (s'.acceptors a).Voted i c v := by
  rcases acceptors_step h a with heq | ⟨op, heq⟩
  · rw [heq]
    exact hv
  · rw [heq]
    exact hv.step

/-- **The world of an instance grows with every step.** -/
theorem world_extends (hn : s.Nodes su) (h : step su s e = some s') (i : UInt32) :
    (s.world i).Extends (s'.world i) where
  vote := by
    rintro a c v ⟨hpos, cb, hcb, hv⟩
    exact ⟨hpos, cb, hcb, voted_mono h hv⟩
  promised := by
    rintro a b ⟨bb, hle, hp⟩
    rcases acceptors_step h a with heq | ⟨op, heq⟩
    · exact ⟨bb, hle, heq.symm ▸ hp⟩
    · exact ⟨bb, hle, heq.symm ▸ hp.step (hn.acceptors a)⟩
  request := by
    rintro node b v ⟨hpos, m, hm, hr⟩
    exact ⟨hpos, m, sent_subset_step h node hm, hr⟩
  old := by
    rintro a b c v ⟨bb, hle, hp⟩ ⟨hpos, cb, rfl, hv⟩ hlt
    rcases acceptors_step h a with heq | ⟨op, heq⟩
    · exact ⟨hpos, cb, rfl, heq ▸ hv⟩
    · rw [heq] at hv
      rcases LoggedAcceptor.voted_step hv with hv | ⟨req, -, -, -, -, hb⟩
      · exact ⟨hpos, cb, rfl, hv⟩
      · have := UInt16.le_iff_toNat_le.mp (hb bb hp)
        omega

end Growth

/-! ## Evidence

The counters of a node hold 16-bit acceptor ids. `Evidence` says what such a set of ids is worth:
there are as many acceptors behind it, and the reports of these have been collected. Taking in one
more promise is one more report, provided nobody has asked for accepts at the ballot yet; otherwise
the acceptor might report a vote at the ballot itself. -/

/-- The acceptor ids `ids` counted at ballot `b` stand for as many acceptors, whose reports have
been collected with `best` as the vote to adopt. Messages carry 16 bits of an acceptor's number. -/
def Evidence (su : Setup) (vis : PaxosValue → Prop) (s : Cluster) (i : UInt32) (ids : Finset Nat)
    (b : Nat) (best : Option (Nat × PaxosValue)) : Prop :=
  ∃ S : Finset Nat, S ⊆ Finset.range su.acceptors ∧ S.card = ids.card ∧
    (∀ a ∈ S, (UInt16.ofNat a).toNat ∈ ids) ∧ (s.world i).Collected vis b S best

section Evidence

variable {su : Setup} {vis : PaxosValue → Prop} {s s' : Cluster} {i : UInt32} {ids : Finset Nat}
  {b : Nat} {best best' : Option (Nat × PaxosValue)}

theorem evidence_empty (s : Cluster) (i : UInt32) (b : Nat) : s.Evidence su vis i ∅ b none :=
  ⟨∅, Finset.empty_subset _, rfl, by simp, World.Collected.empty _ _ _⟩

theorem Evidence.mono (he : (s.world i).Extends (s'.world i)) (h : s.Evidence su vis i ids b best) :
    s'.Evidence su vis i ids b best := by
  obtain ⟨S, hS, hcard, hids, hc⟩ := h
  exact ⟨S, hS, hcard, hids, hc.mono he⟩

/-- A quorum of ids justifies the value of the vote to adopt, or any value without one. -/
theorem Evidence.justified (h : s.Evidence su vis i ids b best)
    (hq : paxosQuorum su.acceptors ≤ ids.card) {v : PaxosValue}
    (hv : ∀ c w, best = some (c, w) → w = v) : (s.world i).Justified (isQuorum su) vis b v := by
  obtain ⟨S, hS, hcard, -, hc⟩ := h
  exact hc.justified ⟨hS, by omega⟩ hv

/-- A promise that was sent is a report of the acceptor that sent it. -/
theorem Nodes.report (hn : s.Nodes su) {m : PaxosPromise} {src : Node}
    (hm : .promise m ∈ s.sent src) :
    ∃ a < su.acceptors, m.aid = UInt16.ofNat a ∧
      (s.world m.iid).Report a m.ballot.toNat m.valueBallot.toNat m.value ∧
      (m.valueBallot ≠ 0 → (s.acceptors a).Voted m.iid m.valueBallot m.value ∧
        m.valueBallot ≤ m.ballot) := by
  obtain ⟨a, op, rfl, hlt, hlog⟩ := hn.reply_sender hm rfl
  have hi := hn.acceptors a
  obtain ⟨newer, older, heq⟩ := List.append_of_mem hlog
  have haid := (hi.promises newer op m older heq).2
  rw [hn.ids a] at haid
  refine ⟨a, hlt, haid, ⟨⟨m.ballot, le_rfl, hi.promised_of_promise hlog⟩, ?_⟩,
    hi.vote_of_promise hlog⟩
  rintro c v ⟨hpos, cb, rfl, hv⟩ hc
  obtain ⟨hle, hv'⟩ := hi.report_spec hlog hv (UInt16.lt_iff_toNat_lt.mpr hc)
  have hle' := UInt16.le_iff_toNat_le.mp hle
  exact ⟨hle', by omega, m.valueBallot, rfl, hv'⟩

/-- How a node goes on from `best` to `best'` with the promise `m`: it adopts the vote reported,
which is not older, or it keeps what it had, which is not older than a visible vote reported. -/
def Adopts (vis : PaxosValue → Prop) (m : PaxosPromise) (best best' : Option (Nat × PaxosValue)) :
    Prop :=
  (best' = some (m.valueBallot.toNat, m.value) ∧ m.valueBallot ≠ 0 ∧
      ∀ c v, best = some (c, v) → c ≤ m.valueBallot.toNat) ∨
    (best' = best ∧ (m.valueBallot ≠ 0 → vis m.value →
      ∃ c v, best = some (c, v) ∧ m.valueBallot.toNat ≤ c))

/-- **One more promise.** Nobody has asked for a value at this ballot yet, so the vote reported is
below it. -/
theorem Evidence.insert (h : s.Evidence su vis i ids b best) (hn : s.Nodes su)
    (hu : (s.world i).VotesUnique) {m : PaxosPromise} {src : Node} (hm : .promise m ∈ s.sent src)
    (hi : m.iid = i) (hb : m.ballot.toNat = b)
    (hfresh : ∀ node a, .accept a ∈ s.sent node → a.iid = i → a.ballot.toNat ≠ b)
    (hid : m.aid.toNat ∉ ids) (had : Adopts vis m best best') :
    s.Evidence su vis i (insert m.aid.toNat ids) b best' ∧ s.Evidence su vis i ids b best' := by
  subst hi hb
  obtain ⟨S, hS, hcard, hids, hc⟩ := h
  obtain ⟨a, hlt, haid, hrep, hvote⟩ := hn.report hm
  have hnot : a ∉ S := by
    intro ha
    exact hid (haid ▸ hids a ha)
  -- a vote at the ballot itself would have been asked for
  have hbelow : m.valueBallot ≠ 0 → m.valueBallot.toNat < m.ballot.toNat := by
    intro hne
    obtain ⟨hv, hle⟩ := hvote hne
    obtain ⟨node, req, hreq, hiid, hbal, -⟩ := hn.requested _ _ _ _ hv
    have := hfresh node req hreq hiid
    rw [hbal] at this
    have := UInt16.le_iff_toNat_le.mp hle
    omega
  have hpos : m.valueBallot ≠ 0 → 0 < m.valueBallot.toNat := by
    intro hne
    have : m.valueBallot.toNat ≠ (0 : UInt16).toNat := fun h => hne (UInt16.toNat_inj.mp h)
    exact Nat.pos_of_ne_zero this
  have hne_of_vote : (s.world m.iid).vote a m.valueBallot.toNat m.value → m.valueBallot ≠ 0 := by
    rintro ⟨hpos, -⟩ heq
    rw [heq] at hpos
    exact absurd hpos (by decide)
  have hcol : (s.world m.iid).Collected vis m.ballot.toNat (insert a S) best' := by
    rcases had with ⟨rfl, hne, hnewer⟩ | ⟨rfl, hcover⟩
    · refine hc.insert hu hrep (fun _ => hbelow hne) ?_ (fun c v h => ⟨_, _, rfl, hnewer c v h⟩)
        (fun _ _ => ⟨_, _, rfl, le_rfl⟩)
      rintro c v ⟨rfl, rfl⟩
      exact ⟨hbelow hne, a, hpos hne, m.valueBallot, rfl, (hvote hne).1⟩
    · exact hc.insert hu hrep (fun hv => hbelow (hne_of_vote hv)) hc.voted
        (fun c v h => ⟨c, v, h, le_rfl⟩) (fun hv => hcover (hne_of_vote hv))
  refine ⟨⟨insert a S, ?_, ?_, ?_, hcol⟩,
    ⟨S, hS, hcard, hids, hcol.subset (Finset.subset_insert a S)⟩⟩
  · exact Finset.insert_subset (Finset.mem_range.mpr hlt) hS
  · rw [Finset.card_insert_of_notMem hnot, Finset.card_insert_of_notMem hid, hcard]
  · intro a' ha'
    rcases Finset.mem_insert.mp ha' with rfl | ha'
    · exact Finset.mem_insert.mpr (.inl (by rw [haid]))
    · exact Finset.mem_insert_of_mem (hids a' ha')

end Evidence

/-! ## The invariant

What a node would propose is the best vote it has noted (`bestOf`, `bestOfGap`). The ballots in use
are owned by one node each; that is a condition on the whole state, which proposers meet by their
ids and which runs with learners that fill gaps have to be given. -/

/-- The vote a waiting instance would adopt. -/
def bestOf (inst : Proposer.Instance) : Option (Nat × PaxosValue) :=
  inst.promisedValue.map fun v => (inst.valueBallot.toNat, v)

/-- The vote a gap would adopt. -/
def bestOfGap (gap : Gap) : Option (Nat × PaxosValue) :=
  if gap.highestAcceptedBallot = 0 then none
  else some (gap.highestAcceptedBallot.toNat, gap.highestAcceptedValue.getD [])

/-- The node has asked for accepts of the instance `i` at ballot `b`, or is collecting promises to
do so. -/
def Owns (s : Cluster) (i : UInt32) (b : Nat) : Node → Prop
  | .acceptor _ => False
  | .proposer p =>
    (∃ a ∈ acceptsOf (s.proposers p).emitted, a.iid = i ∧ a.ballot.toNat = b) ∨
      ∃ inst, (s.proposers p).proposer.prepareInstances.lookup i = some inst ∧
        inst.ballot.toNat = b
  | .learner l =>
    (∃ a ∈ acceptsOf (s.learners l).emitted, a.iid = i ∧ a.ballot.toNat = b) ∨
      ∃ gap, (s.learners l).learner.gaps.lookup i = some gap ∧ gap.reachedMajority = false ∧
        gap.ballot.toNat = b

/-- No two nodes use one ballot for one instance. -/
def Separate (s : Cluster) : Prop :=
  ∀ i b node node', s.Owns i b node → s.Owns i b node' → node = node'

/-- One of the acceptors that the instance has counted promises of has accepted the empty value,
later than the vote that the instance has noted. -/
def Overlooks (su : Setup) (s : Cluster) (i : UInt32) (inst : Proposer.Instance) : Prop :=
  ∃ j < su.acceptors, (UInt16.ofNat j).toNat ∈ inst.quorum.ids ∧
    ∃ vote ∈ votesFor i (s.acceptors j).log, vote.2 = [] ∧ vote.1.toUInt32 < inst.ballot ∧
      inst.valueBallot < vote.1.toUInt32

/-- The request that `proposer_accept` would make. -/
def acceptMade (p : Proposer) : Option PaxosAccept :=
  (proposerAccept p).toOption.bind (·.2)

/-- No vote is overlooked that matters. A proposer that asks for a value that is due has not
overlooked a vote for the empty value. A learner counts only promises at the ballot of the gap, and
not one that reports a later vote for the empty value after a value was noted. -/
def Careful (su : Setup) (vis due : PaxosValue → Prop) (s : Cluster) : Event → Prop
  | .proposer p _ .accept =>
    ∀ a ∈ acceptMade (s.proposers p).proposer, due a.value → vis [] →
      ∀ inst ∈ (s.proposers p).proposer.prepareInstances.lookup a.iid, ¬ s.Overlooks su a.iid inst
  | .learner l _ (.receivePromise ack) =>
    ∀ gap ∈ (s.learners l).learner.gaps.lookup ack.iid, gap.reachedMajority = false →
      ack.aid.toNat ∉ bits gap.acceptorBitmap → ack.ballot.toUInt32 = gap.ballot ∧
        (gap.highestAcceptedBallot < ack.valueBallot.toUInt32 →
          gap.highestAcceptedValue ≠ none → ack.value ≠ [])
  | _ => True

/-- The values whose votes a proposer sees. -/
abbrev seen (vis : PaxosValue → Prop) (v : PaxosValue) : Prop :=
  vis v ∧ v ≠ []

/-- The invariant: the nodes keep theirs, the requests sent that are due are justified, and what is
counted is evidence. -/
structure Inv (su : Setup) (vis due : PaxosValue → Prop) (s : Cluster) : Prop where
  nodes : s.Nodes su
  justified : ∀ i node b v, due v → (s.world i).request node b v →
    (s.world i).Justified (isQuorum su) vis b v
  prepared : ∀ p, (s.proposers p).proposer.prepareInstances.All fun k inst =>
    s.Evidence su (seen vis) k inst.quorum.ids inst.ballot.toNat (bestOf inst)
  gaps : ∀ l, (s.learners l).learner.gaps.All fun k gap => gap.reachedMajority = false →
    s.Evidence su vis k (bits gap.acceptorBitmap) gap.ballot.toNat (bestOfGap gap)

section Safe

variable {su : Setup} {vis due : PaxosValue → Prop} {s : Cluster}

theorem Nodes.owns_of_accept (hn : s.Nodes su) {node : Node} {m : PaxosAccept}
    (h : .accept m ∈ s.sent node) : s.Owns m.iid m.ballot.toNat node := by
  rcases hn.accept_sender h with ⟨p, rfl, hm⟩ | ⟨l, rfl, hm⟩
  · exact .inl ⟨m, hm, rfl, rfl⟩
  · exact .inl ⟨m, hm, rfl, rfl⟩

theorem Nodes.orderly (hn : s.Nodes su) (hsep : s.Separate) (i : UInt32) :
    (s.world i).Orderly where
  requested := by
    rintro a c v ⟨hpos, cb, rfl, hv⟩
    obtain ⟨node, m, hm, hiid, rfl, hval⟩ := hn.requested a i cb v hv
    exact ⟨node, hpos, m, hm, hiid, rfl, hval⟩
  unique := by
    rintro node node' b v v' ⟨-, m, hm, rfl, rfl, rfl⟩ ⟨-, m', hm', hiid, hb, rfl⟩
    have hown := hn.owns_of_accept hm
    have hown' := hn.owns_of_accept hm'
    rw [hiid, hb] at hown'
    obtain rfl := hsep _ _ _ _ hown hown'
    exact hn.accept_unique hm hm' hiid.symm (UInt16.toNat_inj.mp hb.symm)

/-- **The world of an instance is safe.** -/
theorem Inv.safe (hi : s.Inv su vis due) (hsep : s.Separate) (i : UInt32) :
    (s.world i).Safe (isQuorum su) vis due where
  toOrderly := hi.nodes.orderly hsep i
  justified node b v := hi.justified i node b v

/-- Nobody has asked for accepts at the ballot of an instance that waits for promises. -/
theorem Nodes.fresh_of_waiting (hn : s.Nodes su) (hsep : s.Separate) {p i : UInt32}
    {inst : Proposer.Instance}
    (hk : (s.proposers p).proposer.prepareInstances.lookup i = some inst) :
    ∀ node a, .accept a ∈ s.sent node → a.iid = i → a.ballot.toNat ≠ inst.ballot.toNat := by
  rintro node a ha rfl hb
  have hown := hn.owns_of_accept ha
  rw [hb] at hown
  have hown' : s.Owns a.iid inst.ballot.toNat (.proposer p) := .inr ⟨inst, hk, rfl⟩
  obtain rfl := hsep _ _ _ _ hown hown'
  have := ((hn.proposers p).ballots.prepare _ _ hk).above a (mem_acceptsOf.mpr ha) rfl
  omega

/-- Nobody has asked for accepts at the ballot of a gap without a majority. -/
theorem Nodes.fresh_of_gap (hn : s.Nodes su) (hsep : s.Separate) {l : Nat} {i : UInt32} {gap : Gap}
    (hk : (s.learners l).learner.gaps.lookup i = some gap) (hr : gap.reachedMajority = false) :
    ∀ node a, .accept a ∈ s.sent node → a.iid = i → a.ballot.toNat ≠ gap.ballot.toNat := by
  rintro node a ha rfl hb
  have hown := hn.owns_of_accept ha
  rw [hb] at hown
  have hown' : s.Owns a.iid gap.ballot.toNat (.learner l) := .inr ⟨gap, hk, hr, rfl⟩
  obtain rfl := hsep _ _ _ _ hown hown'
  have hr' := (hn.learners l).gaps.requested a (mem_acceptsOf.mpr ha) gap hk
  exact absurd (hr.symm.trans hr') (by simp)

end Safe

/-! ## Adopting values

A proposer and a gap of a learner both keep the value with the largest ballot that they were told.
What they keep covers the votes of the acceptors counted, except for votes that they overlook. -/

theorem ne_zero_of_lt_toUInt32 {b : UInt32} {c : UInt16} (h : b < c.toUInt32) : c ≠ 0 := by
  rintro rfl
  exact absurd (UInt32.lt_iff_toNat_lt.mp h) (Nat.not_lt_zero _)

/-- A proposer adopts a later vote unless its value is empty. -/
theorem adopts_adoptPromise {vis : PaxosValue → Prop} {inst : Proposer.Instance}
    {ack : PaxosPromise}
    (hinst : inst.promisedValue = none → inst.valueBallot = 0) :
    Adopts (seen vis) ack (bestOf inst) (bestOf (adoptPromise inst ack)) := by
  unfold adoptPromise
  split
  · rename_i hc
    have hlt := UInt32.lt_iff_toNat_lt.mp hc.2
    rw [UInt16.toNat_toUInt32] at hlt
    refine .inl ⟨?_, ne_zero_of_lt_toUInt32 hc.2, ?_⟩
    · simp [bestOf]
    · intro c v hb
      obtain ⟨w, -, heq⟩ := Option.map_eq_some_iff.mp hb
      cases heq
      omega
  · rename_i hc
    refine .inr ⟨rfl, fun hne hv => ?_⟩
    -- the value is not empty, so what was kept is not older
    have hlen : ack.value.length > 0 := List.length_pos_iff.mpr hv.2
    have hle : ack.valueBallot.toUInt32 ≤ inst.valueBallot := UInt32.not_lt.mp fun h => hc ⟨hlen, h⟩
    have hle' := UInt32.le_iff_toNat_le.mp hle
    rw [UInt16.toNat_toUInt32] at hle'
    cases hp : inst.promisedValue with
    | none =>
      rw [hinst hp] at hle'
      exact absurd (UInt16.toNat_inj.mp (Nat.le_zero.mp hle')) hne
    | some w => exact ⟨_, w, by rw [bestOf, hp]; rfl, hle'⟩

/-- A learner adopts a later vote, with its value unless that is empty. -/
theorem adopts_takeIn {vis : PaxosValue → Prop} {gap : Gap} {bitmap : UInt8} {ack : PaxosPromise}
    (hval : gap.highestAcceptedBallot < ack.valueBallot.toUInt32 →
      gap.highestAcceptedValue ≠ none → ack.value ≠ []) :
    Adopts vis ack (bestOfGap gap) (bestOfGap (takeIn gap bitmap ack)) := by
  unfold takeIn updateAcceptedValue
  split
  · rename_i hlt
    have hne := ne_zero_of_lt_toUInt32 hlt
    refine .inl ⟨?_, hne, ?_⟩
    · have hne' : ack.valueBallot.toUInt32 ≠ 0 := by
        intro h
        rw [h] at hlt
        exact absurd (UInt32.lt_iff_toNat_lt.mp hlt) (Nat.not_lt_zero _)
      rw [bestOfGap, if_neg hne']
      simp only [UInt16.toNat_toUInt32]
      by_cases hv : ack.value = []
      · -- nothing was noted before, so the empty value it is
        have hnone : gap.highestAcceptedValue = none := by
          by_contra hsome
          exact hval hlt hsome hv
        simp [hv, hnone]
      · simp [hv]
    · intro c v hb
      have hlt' : gap.highestAcceptedBallot.toNat < ack.valueBallot.toNat := by
        rw [← UInt16.toNat_toUInt32]
        exact UInt32.lt_iff_toNat_lt.mp hlt
      rw [bestOfGap] at hb
      split at hb
      · cases hb
      · cases hb
        omega
  · rename_i hlt
    refine .inr ⟨rfl, fun hne _ => ?_⟩
    have hle := UInt32.le_iff_toNat_le.mp (UInt32.not_lt.mp hlt)
    rw [UInt16.toNat_toUInt32] at hle
    have hhigh : gap.highestAcceptedBallot ≠ 0 := by
      intro h
      have hz : ack.valueBallot.toNat ≤ 0 := by
        show ack.valueBallot.toNat ≤ (0 : UInt32).toNat
        rw [← h]
        exact hle
      exact hne (UInt16.toNat_inj.mp (Nat.le_zero.mp hz))
    exact ⟨_, _, by rw [bestOfGap, if_neg hhigh], hle⟩

/-! ## Steps of a proposer

A promise that is counted is a report in the world of its instance, so it extends what was
collected. When the quorum is complete, the collected reports justify the accept request. -/

section ProposerStep

variable {su : Setup} {vis due : PaxosValue → Prop} {s : Cluster} {p : UInt32} {op : ProposerOp}
  {p' : Proposer} {out : List PaxosMessage} {src : Node}

/-- What a proposer has counted stays evidence. -/
theorem Inv.prepared_move (hi : s.Inv su vis due) (hsep : s.Separate)
    (hen : ∀ m ∈ op.message, m ∈ s.sent src)
    (hm : ProposerMove (s.proposers p).proposer op p' out) :
    p'.prepareInstances.All fun k inst =>
      s.Evidence su (seen vis) k inst.quorum.ids inst.ballot.toNat (bestOf inst) := by
  have h := hi.prepared p
  -- a restarted instance has counted nothing
  have hrestart : ∀ k now inst, s.Evidence su (seen vis) k
      (proposerPreempt now (s.proposers p).proposer inst).quorum.ids
      (proposerPreempt now (s.proposers p).proposer inst).ballot.toNat
      (bestOf (proposerPreempt now (s.proposers p).proposer inst)) := by
    intro k now inst
    rw [show (proposerPreempt now (s.proposers p).proposer inst).quorum.ids = ∅ from
      ids_quorumClear inst.quorum]
    exact evidence_empty s k _
  cases hm with
  | @created _ now iid next hop hpos hnew =>
    refine h.insert ?_
    rw [show (newInstance now iid _ _).quorum.ids = ∅ from ids_quorumInit _]
    exact evidence_empty s iid _
  | preempted hk _ => exact h.replace (AList.mem_of_lookup hk) (hrestart _ _ _)
  | @promised now ack inst q hk hb hq =>
    -- the promise was sent by an acceptor that was not counted yet
    obtain ⟨hnot, -, hids, -⟩ := quorumAdd_true hq
    have hev := h _ _ hk
    have hun := (hi.nodes.proposers p).unadopted _ _ hk
    refine h.replace (AList.mem_of_lookup hk) ?_
    rw [adoptPromise_quorum, adoptPromise_ballot, hids]
    have had : Adopts (seen vis) ack (bestOf { inst with quorum := q })
        (bestOf (adoptPromise { inst with quorum := q } ack)) := adopts_adoptPromise hun
    have hball : ack.ballot.toNat = inst.ballot.toNat := by rw [← hb, UInt16.toNat_toUInt32]
    exact (hev.insert hi.nodes (hi.nodes.orderly hsep _).votesUnique (hen _ rfl) rfl hball
      (hi.nodes.fresh_of_waiting hsep hk) hnot had).1
  | accepting => exact h.erase _
  | demoted _ _ _ _ => exact h.insert (hrestart _ _ _)
  | trimmed => exact h.filter _
  | retriedPrepare hk =>
    have hev := h _ _ hk
    exact h.replace (AList.mem_of_lookup hk) hev
  | rehashed hpp _ => exact h.of_perm hpp
  | idle | heard | queued | acked | closed | retriedAccept => exact h

/-- What an instance has counted is evidence of every visible vote, if none was overlooked. -/
theorem Evidence.of_not_overlooks {i : UInt32} {inst : Proposer.Instance}
    (h : s.Evidence su (seen vis) i inst.quorum.ids inst.ballot.toNat (bestOf inst))
    (hun : inst.promisedValue = none → inst.valueBallot = 0)
    (hov : vis [] → ¬ s.Overlooks su i inst) :
    s.Evidence su vis i inst.quorum.ids inst.ballot.toNat (bestOf inst) := by
  obtain ⟨S, hS, hcard, hids, hc⟩ := h
  refine ⟨S, hS, hcard, hids, hc.widen fun a ha c w hl hw hns => ?_⟩
  obtain rfl : w = [] := by
    by_contra hne
    exact hns ⟨hw, hne⟩
  obtain ⟨⟨hpos, cb, rfl, hv⟩, hlt, -⟩ := hl
  -- the vote is one of the votes that the instance has not overlooked, so it has noted a later one
  have hle : cb.toNat ≤ inst.valueBallot.toNat := by
    by_contra hgt
    refine hov hw ⟨a, Finset.mem_range.mp (hS ha), hids a ha, (cb, []), hv, rfl, ?_, ?_⟩
    · rw [UInt32.lt_iff_toNat_lt, UInt16.toNat_toUInt32]
      exact hlt
    · rw [UInt32.lt_iff_toNat_lt, UInt16.toNat_toUInt32]
      exact Nat.lt_of_not_le hgt
  cases hp : inst.promisedValue with
  | none =>
    rw [hun hp] at hle
    exact absurd hle (Nat.not_le.mpr hpos)
  | some v => exact ⟨_, v, by rw [bestOf, hp]; rfl, hle⟩

/-- **An accept request of a proposer is justified**, if it is due. -/
theorem Inv.justified_move (hi : s.Inv su vis due) {config : PaxosConfig}
    (hc : s.Careful su vis due (.proposer p src op))
    (hs : proposerStep config (s.proposers p).proposer op = .ok (p', out)) {a : PaxosAccept}
    (ha : a ∈ acceptsOf out) (hd : due a.value) :
    (s.world a.iid).Justified (isQuorum su) vis a.ballot.toNat a.value := by
  have hp := hi.nodes.proposers p
  have hm := proposerStep_move hp.wellFormed.keyed_prepare hp.wellFormed.keyed_accept hs
  cases hm with
  | @accepting inst value values v hk hq hnew ht hv =>
    obtain rfl := List.mem_singleton.mp ha
    have hwait := hp.ballots.prepare _ _ hk
    have hcard : paxosQuorum su.acceptors ≤ inst.quorum.ids.card := by
      have hacc : inst.quorum.acceptors = su.acceptors :=
        (hp.wellFormed.prepare _ _ hk).2.trans hp.acceptors_eq
      rw [← hacc]
      exact Quorum.le_card_of_reached hq
    have hsmall : inst.ballot.toNat < 2 ^ 16 := by
      apply hwait.small
      rw [← Finset.card_pos]
      exact Nat.lt_of_lt_of_le (paxosQuorum_pos _) hcard
    have hball : (acceptOf inst v).ballot.toNat = inst.ballot.toNat := toNat_toUInt16_of_lt hsmall
    -- the request is the one that `proposer_accept` makes
    have hmade : acceptMade (s.proposers p).proposer = some (acceptOf inst v) := by
      obtain ⟨⟨q, o⟩, hacc, heq⟩ := Except.bind_eq_ok.mp hs
      rw [acceptMade, hacc]
      cases o with
      | none => cases heq
      | some a =>
        cases heq
        rfl
    rw [hball]
    have hev := (hi.prepared p _ _ hk).of_not_overlooks (hp.unadopted _ _ hk) fun hvis =>
      hc _ hmade hd hvis inst hk
    refine hev.justified hcard ?_
    intro c w hb
    -- a promised value takes precedence over the own one
    obtain ⟨w', hw', heq⟩ := Option.map_eq_some_iff.mp hb
    cases heq
    show w = v
    simpa [Instance.proposed, hw'] using hv
  | @retriedAccept iter key inst v hk hv =>
    obtain rfl := List.mem_singleton.mp ha
    obtain rfl : inst.iid = key := (hp.wellFormed.accept _ _ hk).1
    -- the request was made before
    have hreq := hp.ballots.accept _ _ hk
    obtain ⟨a₀, ha₀, hiid, hb⟩ := hreq.made
    have hval : a₀.value = v := Option.some.inj ((hreq.same a₀ ha₀ hiid hb).symm.trans hv)
    have hball : (acceptOf inst v).ballot.toNat = inst.ballot.toNat :=
      toNat_toUInt16_of_lt hreq.small
    rw [hball]
    exact hi.justified inst.iid (.proposer p) _ _ hd
      ⟨hreq.pos, a₀, mem_acceptsOf.mp ha₀, hiid, hb, hval⟩
  | idle | heard | queued | created | preempted | promised | acked | closed | demoted | trimmed
  | retriedPrepare | rehashed => cases ha

end ProposerStep

/-! ## Steps of a learner

The same for a gap. Here the request is made in the call that completes the majority. -/

section LearnerStep

variable {su : Setup} {vis due : PaxosValue → Prop} {s : Cluster} {l : Nat} {op : LearnerOp}
  {l' : Learner} {out : List PaxosMessage} {src : Node}

/-- A promise that a gap takes in is evidence, and so is what it had if the promise has no bit. -/
theorem Inv.gap_promise (hi : s.Inv su vis due) (hsep : s.Separate) {ack : PaxosPromise} {gap : Gap}
    {bitmap : UInt8} (hsent : .promise ack ∈ s.sent src)
    (hc : s.Careful su vis due (.learner l src (.receivePromise ack)))
    (hk : (s.learners l).learner.gaps.lookup ack.iid = some gap) (hr : gap.reachedMajority = false)
    (hd : isDuplicated gap.acceptorBitmap ack.aid.toNat = (bitmap, false)) :
    ack.ballot.toUInt32 = gap.ballot ∧
      s.Evidence su vis ack.iid (bits bitmap) gap.ballot.toNat
        (bestOfGap (takeIn gap bitmap ack)) := by
  obtain ⟨hnot, hbits⟩ := isDuplicated_false hd
  obtain ⟨hb, hval⟩ := hc gap hk hr hnot
  have hball : ack.ballot.toNat = gap.ballot.toNat := by rw [← hb, UInt16.toNat_toUInt32]
  obtain ⟨hwith, hwithout⟩ := (hi.gaps l _ _ hk hr).insert hi.nodes
    (hi.nodes.orderly hsep _).votesUnique
    hsent rfl hball (hi.nodes.fresh_of_gap hsep hk hr) hnot
    (adopts_takeIn hval : Adopts vis ack (bestOfGap gap) (bestOfGap (takeIn gap bitmap ack)))
  refine ⟨hb, ?_⟩
  rw [hbits]
  split
  · exact hwith
  · exact hwithout

/-- What a learner has counted stays evidence. -/
theorem Inv.gaps_move (hi : s.Inv su vis due) (hsep : s.Separate)
    (hen : ∀ m ∈ op.message, m ∈ s.sent src) (hc : s.Careful su vis due (.learner l src op))
    (hm : GapMove (s.learners l).learner op l' out) :
    l'.gaps.All fun k gap => gap.reachedMajority = false →
      s.Evidence su vis k (bits gap.acceptorBitmap) gap.ballot.toNat (bestOfGap gap) := by
  have h := hi.gaps l
  cases hm with
  | kept hg _ _ _ =>
    intro k gap hk
    rw [hg] at hk
    exact h k gap hk
  | started _ hg _ =>
    rw [hg]
    exact h
  | delivered => exact h.erase _
  | @opened iid hnew =>
    -- a gap that is opened or restarted has counted nothing
    refine h.insert fun _ => ?_
    show s.Evidence su vis iid (bits 0) _ _
    rw [bits_zero]
    exact evidence_empty s iid _
  | @restarted _ k gap ballot hk _ =>
    refine h.replace (AList.mem_of_lookup hk) fun _ => ?_
    show s.Evidence su vis k (bits 0) _ _
    rw [bits_zero]
    exact evidence_empty s k _
  | @promised ack gap bitmap hk hr hd =>
    refine h.replace (AList.mem_of_lookup hk) fun _ => ?_
    rw [takeIn_acceptorBitmap, takeIn_ballot]
    exact (hi.gap_promise hsep (hen _ rfl) hc hk hr hd).2
  | requested hk _ _ _ => exact h.replace (AList.mem_of_lookup hk) fun hfalse => by cases hfalse

/-- **An accept request of a learner is justified.** -/
theorem Inv.justified_gapMove (hi : s.Inv su vis due) (hsep : s.Separate)
    (hen : ∀ m ∈ op.message, m ∈ s.sent src) (hc : s.Careful su vis due (.learner l src op))
    (hm : GapMove (s.learners l).learner op l' out) {a : PaxosAccept} (ha : a ∈ acceptsOf out) :
    (s.world a.iid).Justified (isQuorum su) vis a.ballot.toNat a.value := by
  cases hm with
  | @requested ack gap bitmap hk hr hd hmaj =>
    obtain rfl := List.mem_singleton.mp ha
    obtain ⟨hb, hev⟩ := hi.gap_promise hsep (hen _ rfl) hc hk hr hd
    obtain ⟨hiid, hq, -⟩ := (hi.nodes.learners l).gaps.gaps _ _ hk
    -- the request is at the ballot of the gap, which a promise has shown to have 16 bits
    have hball : (acceptOfGap (takeIn gap bitmap ack)).ballot.toNat = gap.ballot.toNat := by
      show (takeIn gap bitmap ack).ballot.toUInt16.toNat = _
      rw [takeIn_ballot]
      apply toNat_toUInt16_of_lt
      rw [← hb, UInt16.toNat_toUInt32]
      exact ack.ballot.toNat_lt
    have hkey : (acceptOfGap (takeIn gap bitmap ack)).iid = ack.iid := by
      show (takeIn gap bitmap ack).iid = _
      rw [takeIn_iid]
      exact hiid
    rw [hball, hkey]
    refine hev.justified ?_ ?_
    · rw [card_bits, ← hq]
      exact hmaj
    · intro c w hbest
      rw [bestOfGap] at hbest
      split at hbest
      · cases hbest
      · cases hbest
        rfl
  | kept | started | delivered | opened | restarted | promised => cases ha

end LearnerStep

/-! ## Steps of the cluster

A step changes one node. Acceptors make the worlds grow and leave what others have collected valid;
proposers and learners add requests, which have to be justified. -/

section Step

variable {su : Setup} {vis due : PaxosValue → Prop} {s s' : Cluster} {e : Event}

theorem inv_init (su : Setup) (vis due : PaxosValue → Prop) : (init su).Inv su vis due where
  nodes := nodes_init su
  justified := by
    rintro i node b v - ⟨-, m, hm, -⟩
    rcases (nodes_init su).accept_sender hm with ⟨p, rfl, ha⟩ | ⟨l, rfl, ha⟩
    · cases ha
    · exact absurd hm (by rw [sent, init_emitted]; exact List.not_mem_nil)
  prepared _ := AList.all_empty
  gaps l k gap hk := by
    obtain ⟨-, -, hmem⟩ := ((nodes_init su).learners l).gaps.gaps k gap hk
    rw [init_emitted] at hmem
    cases hmem

/-- **Every careful step keeps the invariant**, as long as no ballot is used by two nodes. -/
theorem Inv.step (hi : s.Inv su vis due) (hsep : s.Separate) (hb : s.InBounds e)
    (hc : s.Careful su vis due e) (h : step su s e = some s') : s'.Inv su vis due := by
  have hext := world_extends hi.nodes h
  have hnodes := hi.nodes.step hb h
  -- what was justified and what was evidence still is
  have hold : ∀ i node b v, due v → (s.world i).request node b v →
      (s'.world i).Justified (isQuorum su) vis b v :=
    fun i node b v hd hr => (hi.justified i node b v hd hr).mono (hext i)
  have hprep : ∀ {q : Proposer}, (q.prepareInstances.All fun k inst =>
        s.Evidence su (seen vis) k inst.quorum.ids inst.ballot.toNat (bestOf inst)) →
      q.prepareInstances.All fun k inst =>
        s'.Evidence su (seen vis) k inst.quorum.ids inst.ballot.toNat (bestOf inst) :=
    fun hq => hq.mono fun k inst he => he.mono (hext k)
  have hgaps : ∀ {q : Learner}, (q.gaps.All fun k gap => gap.reachedMajority = false →
        s.Evidence su vis k (bits gap.acceptorBitmap) gap.ballot.toNat (bestOfGap gap)) →
      q.gaps.All fun k gap => gap.reachedMajority = false →
        s'.Evidence su vis k (bits gap.acceptorBitmap) gap.ballot.toNat (bestOfGap gap) :=
    fun hq => hq.mono fun k gap he hr => (he hr).mono (hext k)
  obtain ⟨hen, ⟨a, src, op, rfl, rfl⟩ | ⟨p, src, op, r, rfl, hr, rfl⟩ | ⟨l, src, op, rfl, rfl⟩⟩ :=
    step_cases h
  · refine ⟨hnodes, ?_, fun q => hprep (hi.prepared q), fun k => hgaps (hi.gaps k)⟩
    rintro i node b v hd ⟨hpos, m, hm, hreq⟩
    -- the requests are not the acceptor's
    have hm' : .accept m ∈ s.sent node := by
      rcases hnodes.accept_sender hm with ⟨p, rfl, -⟩ | ⟨l, rfl, -⟩
      · exact hm
      · exact hm
    exact hold i node b v hd ⟨hpos, m, hm', hreq⟩
  · have hwf := (hi.nodes.proposers p).wellFormed
    obtain ⟨⟨p', out⟩, hs, heq⟩ := Except.bind_eq_ok.mp hr
    cases heq
    have hm := proposerStep_move hwf.keyed_prepare hwf.keyed_accept hs
    refine ⟨hnodes, ?_, fun q => ?_, fun k => hgaps (hi.gaps k)⟩
    · rintro i node b v hd ⟨hpos, m, hmem, hreq⟩
      rw [sent_setProposer] at hmem
      split at hmem
      · rename_i heq
        rcases List.mem_append.mp hmem with hnew | hmem
        · obtain ⟨rfl, rfl, rfl⟩ := hreq
          exact (hi.justified_move hc hs (mem_acceptsOf.mpr hnew) hd).mono (hext _)
        · exact hold i (.proposer p) b v hd ⟨hpos, m, hmem, hreq⟩
      · exact hold i node b v hd ⟨hpos, m, hmem, hreq⟩
    · rw [setProposer_proposers]
      split
      · exact hprep (hi.prepared_move hsep hen.2 hm)
      · exact hprep (hi.prepared q)
  · obtain ⟨out, hm, hemit⟩ := LoggedLearner.step_gapMove (hi.nodes.learners l).sound op
    refine ⟨hnodes, ?_, fun q => hprep (hi.prepared q), fun k => ?_⟩
    · rintro i node b v hd ⟨hpos, m, hmem, hreq⟩
      rw [sent_setLearner] at hmem
      split at hmem
      · rw [hemit] at hmem
        rcases List.mem_append.mp hmem with hnew | hmem
        · obtain ⟨rfl, rfl, rfl⟩ := hreq
          exact (hi.justified_gapMove hsep hen.2 hc hm (mem_acceptsOf.mpr hnew)).mono (hext _)
        · exact hold i (.learner l) b v hd ⟨hpos, m, hmem, hreq⟩
      · exact hold i node b v hd ⟨hpos, m, hmem, hreq⟩
    · rw [setLearner_learners]
      split
      · exact hgaps (hi.gaps_move hsep hen.2 hc hm)
      · exact hgaps (hi.gaps k)

end Step

end LibPaxos.Cluster
