import LibPaxos.ProposerRuns

/-!
# One value a ballot

The ballots at which a proposer asks for accepts. An instance that waits for promises is above
every accept request made for its id so far, an instance in the second phase is at the last of
them and repeats its value. What breaks this is an instance that is started again from the base
ballot although accepts were already requested for its id: `proposer_prepare_instance` does not
rule it out.

* **`proposer_one_value_per_ballot`** — in every run in which an instance is only created for an
  id without accept requests, two accept requests for one id at one ballot carry one value.
* **`proposer_two_values_at_one_ballot`** — a run that creates an instance again.
-/

namespace LibPaxos

open Proposer

/-- The accept requests among some messages. -/
def acceptsOf (out : List PaxosMessage) : List PaxosAccept :=
  out.filterMap fun
    | .accept a => some a
    | _ => none

theorem mem_acceptsOf {out : List PaxosMessage} {a : PaxosAccept} :
    a ∈ acceptsOf out ↔ .accept a ∈ out := by
  unfold acceptsOf
  rw [List.mem_filterMap]
  constructor
  · rintro ⟨m, hm, heq⟩
    cases m with
    | accept a' =>
      cases heq
      exact hm
    | prepare _ => cases heq
    | promise _ => cases heq
    | accepted _ => cases heq
    | preempted _ => cases heq
  · exact fun h => ⟨_, h, rfl⟩

theorem acceptsOf_append (out out' : List PaxosMessage) :
    acceptsOf (out ++ out') = acceptsOf out ++ acceptsOf out' :=
  List.filterMap_append

/-! ## Ballot arithmetic -/

/-- The next ballot, when it fits into 32 bits. -/
theorem toNat_proposerNextBallot (p : Proposer) {b : UInt32} (hpos : 0 < b.toNat)
    (hroom : b.toNat + 10 < 2 ^ 32) : (proposerNextBallot p b).toNat = b.toNat + 10 := by
  have hb : b > 0 := UInt32.lt_iff_toNat_lt.mpr hpos
  unfold proposerNextBallot
  rw [if_pos hb, UInt32.toNat_add]
  have hten : maxNOfProposers.toNat = 10 := rfl
  rw [hten]
  omega

/-- The base ballot. -/
theorem toNat_proposerNextBallot_zero {p : Proposer} (hid : p.id.toNat < 2 ^ 31) :
    (proposerNextBallot p 0).toNat = p.id.toNat + 10 := by
  unfold proposerNextBallot
  rw [if_neg (by decide), UInt32.toNat_add]
  have hten : maxNOfProposers.toNat = 10 := rfl
  rw [hten]
  omega

/-- A ballot below a ballot from a message has 16 bits. -/
theorem toNat_lt_of_lt_toUInt32 {b : UInt32} {c : UInt16} (h : b < c.toUInt32) :
    b.toNat < 2 ^ 16 := by
  have hlt := UInt32.lt_iff_toNat_lt.mp h
  rw [UInt16.toNat_toUInt32] at hlt
  have := c.toNat_lt
  omega

theorem toNat_toUInt16_of_lt {b : UInt32} (h : b.toNat < 2 ^ 16) : b.toUInt16.toNat = b.toNat := by
  rw [UInt32.toNat_toUInt16]
  exact Nat.mod_eq_of_lt h

/-! ## Pending instances and the requests made for them

An instance in the first phase is above the requests for its id and one in the second phase is at
the last of them. A preemption moves an instance back to the first phase at a ballot that is larger
by 10, which is what takes it above its own last request. -/

/-- An instance that waits for promises under the id `k` is above the accept requests `A` made for
`k`. Once a promise was counted its ballot is known to have 16 bits. -/
structure Proposer.Waiting (id : UInt32) (A : List PaxosAccept) (k : UInt32) (inst : Instance) :
    Prop where
  pos : 0 < inst.ballot.toNat
  residue : inst.ballot.toNat % 10 = id.toNat % 10
  small : inst.quorum.ids.Nonempty → inst.ballot.toNat < 2 ^ 16
  above : ∀ a ∈ A, a.iid = k → a.ballot.toNat < inst.ballot.toNat

/-- An instance in the second phase is at the last of the accept requests made for its id, and
keeps the value requested there. -/
structure Proposer.Requested (id : UInt32) (A : List PaxosAccept) (k : UInt32) (inst : Instance) :
    Prop where
  pos : 0 < inst.ballot.toNat
  residue : inst.ballot.toNat % 10 = id.toNat % 10
  small : inst.ballot.toNat < 2 ^ 16
  last : ∀ a ∈ A, a.iid = k → a.ballot.toNat ≤ inst.ballot.toNat
  same : ∀ a ∈ A, a.iid = k → a.ballot.toNat = inst.ballot.toNat → inst.proposed = some a.value
  made : ∃ a ∈ A, a.iid = k ∧ a.ballot.toNat = inst.ballot.toNat

section Pending

variable {id k : UInt32} {A : List PaxosAccept} {inst : Instance} {a : PaxosAccept}

theorem Proposer.Waiting.cons_of_ne (h : Waiting id A k inst) (hne : a.iid ≠ k) :
    Waiting id (a :: A) k inst where
  pos := h.pos
  residue := h.residue
  small := h.small
  above a' ha' hk := by
    rcases List.mem_cons.mp ha' with rfl | ha'
    · exact absurd hk hne
    · exact h.above a' ha' hk

theorem Proposer.Requested.cons_of_ne (h : Requested id A k inst) (hne : a.iid ≠ k) :
    Requested id (a :: A) k inst where
  pos := h.pos
  residue := h.residue
  small := h.small
  last a' ha' hk := by
    rcases List.mem_cons.mp ha' with rfl | ha'
    · exact absurd hk hne
    · exact h.last a' ha' hk
  same a' ha' hk := by
    rcases List.mem_cons.mp ha' with rfl | ha'
    · exact absurd hk hne
    · exact h.same a' ha' hk
  made := by
    obtain ⟨a₀, ha₀, hk₀⟩ := h.made
    exact ⟨a₀, List.mem_cons_of_mem _ ha₀, hk₀⟩

/-- A new request at the ballot of the instance and for its value. -/
theorem Proposer.Requested.cons_self {v : PaxosValue} (hpos : 0 < inst.ballot.toNat)
    (hres : inst.ballot.toNat % 10 = id.toNat % 10) (hsmall : inst.ballot.toNat < 2 ^ 16)
    (hlast : ∀ a ∈ A, a.iid = inst.iid → a.ballot.toNat ≤ inst.ballot.toNat)
    (hsame : ∀ a ∈ A, a.iid = inst.iid → a.ballot.toNat = inst.ballot.toNat →
      inst.proposed = some a.value) (hv : inst.proposed = some v) :
    Requested id (acceptOf inst v :: A) inst.iid inst where
  pos := hpos
  residue := hres
  small := hsmall
  last a' ha' hk := by
    rcases List.mem_cons.mp ha' with rfl | ha'
    · exact Nat.le_of_eq (toNat_toUInt16_of_lt hsmall)
    · exact hlast a' ha' hk
  same a' ha' hk hb := by
    rcases List.mem_cons.mp ha' with rfl | ha'
    · exact hv
    · exact hsame a' ha' hk hb
  made := ⟨_, List.mem_cons_self, rfl, toNat_toUInt16_of_lt hsmall⟩

/-- Going on to the next ballot puts an instance above every request made for it. -/
theorem Proposer.Waiting.preempt (p : Proposer) (now : Int) (hpos : 0 < inst.ballot.toNat)
    (hres : inst.ballot.toNat % 10 = id.toNat % 10) (hroom : inst.ballot.toNat + 10 < 2 ^ 32)
    (hlast : ∀ a ∈ A, a.iid = k → a.ballot.toNat ≤ inst.ballot.toNat) :
    Waiting id A k (proposerPreempt now p inst) := by
  have hb : (proposerPreempt now p inst).ballot.toNat = inst.ballot.toNat + 10 :=
    toNat_proposerNextBallot p hpos hroom
  refine ⟨by omega, by omega, ?_, ?_⟩
  · intro hne
    rw [show (proposerPreempt now p inst).quorum.ids = ∅ from ids_quorumClear inst.quorum] at hne
    exact absurd hne Finset.not_nonempty_empty
  · intro a ha hk
    have := hlast a ha hk
    omega

end Pending

/-- Two requests for one id at one ballot carry one value. -/
def OneValue (A : List PaxosAccept) : Prop :=
  ∀ a ∈ A, ∀ a' ∈ A, a.iid = a'.iid → a.ballot = a'.ballot → a.value = a'.value

theorem OneValue.cons {A : List PaxosAccept} {x : PaxosAccept} (h : OneValue A)
    (hx : ∀ a ∈ A, a.iid = x.iid → a.ballot = x.ballot → a.value = x.value) :
    OneValue (x :: A) := by
  intro a ha a' ha' hiid hb
  rcases List.mem_cons.mp ha with rfl | hold
  · rcases List.mem_cons.mp ha' with rfl | hold'
    · rfl
    · exact (hx a' hold' hiid.symm hb.symm).symm
  · rcases List.mem_cons.mp ha' with rfl | hold'
    · exact hx a hold hiid hb
    · exact h a hold a' hold' hiid hb

/-! ## The invariant

The step to the second phase is the one that makes a new request, and by `Waiting` it is above all
others for its id. Retries repeat the value that was asked for. Creating an instance is harmless
only if no request was made for its id. -/

/-- How a proposer relates to the accept requests `A` it has made so far. -/
structure Proposer.BallotInv (p : Proposer) (A : List PaxosAccept) : Prop where
  prepare : p.prepareInstances.All (Waiting p.id A)
  accept : p.acceptInstances.All (Requested p.id A)
  apart : p.Apart
  unique : OneValue A
  positive : ∀ a ∈ A, 0 < a.ballot.toNat
  residue : ∀ a ∈ A, a.ballot.toNat % 10 = p.id.toNat % 10

theorem proposerNew_ballotInv (id : UInt32) (n : Nat) : (proposerNew id n).BallotInv [] where
  prepare := AList.all_empty
  accept := AList.all_empty
  apart := AList.all_empty
  unique a ha := by cases ha
  positive a ha := by cases ha
  residue a ha := by cases ha

section Move

variable {p p' : Proposer} {op : ProposerOp} {out : List PaxosMessage} {A : List PaxosAccept}

/-- Moving an instance to the second phase makes the first request at its ballot. -/
theorem Proposer.BallotInv.accepting (hi : p.BallotInv A) {inst : Instance}
    {value : Option PaxosValue} {values : List PaxosValue} {v : PaxosValue}
    (hk : p.prepareInstances.lookup inst.iid = some inst) (hq : quorumReached inst.quorum = true)
    (hv : ({ inst with value := value } : Instance).proposed = some v)
    (hapart : Apart
      { p with
        values := values
        prepareInstances := p.prepareInstances.erase inst.iid
        acceptInstances := p.acceptInstances.insert inst.iid
          { inst with value := value, quorum := quorumClear inst.quorum } }) :
    BallotInv
      { p with
        values := values
        prepareInstances := p.prepareInstances.erase inst.iid
        acceptInstances := p.acceptInstances.insert inst.iid
          { inst with value := value, quorum := quorumClear inst.quorum } }
      (acceptOf inst v :: A) := by
  have hwait := hi.prepare _ _ hk
  -- promises were counted, and they carry the ballot in 16 bits
  have hsmall : inst.ballot.toNat < 2 ^ 16 := by
    apply hwait.small
    rw [← Finset.card_pos]
    exact Nat.lt_of_lt_of_le (paxosQuorum_pos _) (Quorum.le_card_of_reached hq)
  have hball : (acceptOf inst v).ballot.toNat = inst.ballot.toNat := toNat_toUInt16_of_lt hsmall
  refine ⟨?_, ?_, hapart, hi.unique.cons ?_, ?_, ?_⟩
  · intro k x hx
    obtain ⟨hne, hold⟩ := AList.of_lookup_erase hx
    exact (hi.prepare _ _ hold).cons_of_ne hne.symm
  · intro k x hx
    rcases AList.of_lookup_insert hx with ⟨rfl, rfl⟩ | ⟨hne, hold⟩
    · -- no request was made at this ballot so far
      have hsame : ∀ a ∈ A, a.iid = inst.iid → a.ballot.toNat = inst.ballot.toNat →
          ({ inst with value := value, quorum := quorumClear inst.quorum } : Instance).proposed
            = some a.value :=
        fun a ha hk hb => absurd hb (Nat.ne_of_lt (hwait.above a ha hk))
      exact @Requested.cons_self p.id A
        { inst with value := value, quorum := quorumClear inst.quorum } v hwait.pos hwait.residue
        hsmall (fun a ha hk => Nat.le_of_lt (hwait.above a ha hk)) hsame hv
    · exact (hi.accept _ _ hold).cons_of_ne hne.symm
  · intro a ha hiid hb
    have := hwait.above a ha hiid
    rw [hb, hball] at this
    exact absurd this (Nat.lt_irrefl _)
  · exact List.forall_mem_cons.mpr ⟨hball.symm ▸ hwait.pos, hi.positive⟩
  · exact List.forall_mem_cons.mpr ⟨hball.symm ▸ hwait.residue, hi.residue⟩

/-- A retransmitted request repeats the one at its ballot. -/
theorem Proposer.BallotInv.retriedAccept (hi : p.BallotInv A) (hw : p.WellFormed) {key : UInt32}
    {inst : Instance} {v : PaxosValue} {now : Int}
    (hk : p.acceptInstances.lookup key = some inst) (hv : inst.proposed = some v)
    (hapart : Apart { p with acceptInstances :=
      p.acceptInstances.replace key { inst with createdAt := now } }) :
    BallotInv
      { p with acceptInstances := p.acceptInstances.replace key { inst with createdAt := now } }
      (acceptOf inst v :: A) := by
  obtain rfl : inst.iid = key := (hw.accept _ _ hk).1
  have hreq := hi.accept _ _ hk
  have hball : (acceptOf inst v).ballot.toNat = inst.ballot.toNat :=
    toNat_toUInt16_of_lt hreq.small
  have hself := Requested.cons_self hreq.pos hreq.residue hreq.small hreq.last hreq.same hv
  refine ⟨?_, ?_, hapart, hi.unique.cons ?_, ?_, ?_⟩
  · intro k x hx
    refine (hi.prepare _ _ hx).cons_of_ne ?_
    rintro rfl
    exact absurd ((hi.apart _ _ hx).symm.trans hk) (by simp)
  · intro k x hx
    rcases AList.of_lookup_replace hk hx with ⟨rfl, rfl⟩ | ⟨hne, hold⟩
    · exact ⟨hself.pos, hself.residue, hself.small, hself.last, hself.same, hself.made⟩
    · exact (hi.accept _ _ hold).cons_of_ne hne.symm
  · -- an earlier request at this ballot had the value of the instance, which has not changed
    intro a ha hiid hb
    exact Option.some.inj ((hreq.same a ha hiid (by rw [hb, hball])).symm.trans hv)
  · exact List.forall_mem_cons.mpr ⟨hball.symm ▸ hreq.pos, hi.positive⟩
  · exact List.forall_mem_cons.mpr ⟨hball.symm ▸ hreq.residue, hi.residue⟩

/-- **One call keeps the ballots in order**, if it creates no instance for an id with accept
requests and does not push a pending ballot past 32 bits. -/
theorem Proposer.BallotInv.move (hi : p.BallotInv A) (hw : p.WellFormed)
    (hid : p.id.toNat < 2 ^ 31)
    (hfresh : ∀ now iid next, Creates p op now iid next → 0 < iid →
      p.prepareInstances.lookup iid = none → ∀ a ∈ A, a.iid ≠ iid)
    (hroom : ∀ now iid inst, op = .prepareInstance now iid →
      p.prepareInstances.lookup iid = some inst → inst.ballot.toNat + 10 < 2 ^ 32)
    (hm : ProposerMove p op p' out) : p'.BallotInv (acceptsOf out ++ A) := by
  obtain ⟨hp, ha, hd, hu, hpositive, hres⟩ := hi
  -- an instance in the second phase has requests, so none is created beside it
  have hapart : p'.Apart := by
    refine hd.move (fun now iid next hc hpos => ?_) hm
    cases hl : p.acceptInstances.lookup iid with
    | none => rfl
    | some inst =>
      obtain ⟨a, hA, hk, -⟩ := (ha _ _ hl).made
      cases hp' : p.prepareInstances.lookup iid with
      | none => exact absurd hk (hfresh now iid next hc hpos hp' a hA)
      | some x => exact absurd ((hd _ _ hp').symm.trans hl) (by simp)
  cases hm with
  | idle => exact ⟨hp, ha, hapart, hu, hpositive, hres⟩
  | heard => exact ⟨hp, ha, hapart, hu, hpositive, hres⟩
  | queued => exact ⟨hp, ha, hapart, hu, hpositive, hres⟩
  | @created op now iid next hop hpos hnew =>
    have hbase := toNat_proposerNextBallot_zero hid
    have hball : (newInstance now iid (proposerNextBallot p 0) p.acceptors).ballot.toNat
        = p.id.toNat + 10 := hbase
    refine ⟨hp.insert ⟨by omega, by omega, ?_, ?_⟩, ha, hapart, hu, hpositive, hres⟩
    · intro hne
      rw [show (newInstance now iid (proposerNextBallot p 0) p.acceptors).quorum.ids = ∅ from
        ids_quorumInit p.acceptors] at hne
      exact absurd hne Finset.not_nonempty_empty
    · exact fun a hA hk => absurd hk (hfresh now iid next hop hpos hnew a hA)
  | @preempted op now key inst hk hop =>
    have hwait := hp _ _ hk
    -- a message that preempts has a larger ballot, in 16 bits
    have hnext : inst.ballot.toNat + 10 < 2 ^ 32 := by
      rcases hop with ⟨ack, rfl, -, hb⟩ | rfl
      · have := toNat_lt_of_lt_toUInt32 hb
        omega
      · exact hroom now key inst rfl hk
    exact ⟨hp.replace (AList.mem_of_lookup hk) (Waiting.preempt p now hwait.pos hwait.residue hnext
      fun a hA hak => Nat.le_of_lt (hwait.above a hA hak)), ha, hapart, hu, hpositive, hres⟩
  | @promised now ack inst q hk hb hq =>
    have hwait := hp _ _ hk
    have hball : (adoptPromise { inst with quorum := q } ack).ballot = inst.ballot :=
      adoptPromise_ballot _ _
    refine ⟨hp.replace (AList.mem_of_lookup hk) ⟨?_, ?_, fun _ => ?_, ?_⟩, ha, hapart, hu,
      hpositive, hres⟩
    all_goals rw [hball]
    · exact hwait.pos
    · exact hwait.residue
    · rw [← hb, UInt16.toNat_toUInt32]
      exact ack.ballot.toNat_lt
    · exact hwait.above
  | accepting hk hq hnew ht hv =>
    exact BallotInv.accepting ⟨hp, ha, hd, hu, hpositive, hres⟩ hk hq hv hapart
  | acked hk hb hq hr =>
    have h := ha _ _ hk
    exact ⟨hp, ha.replace (AList.mem_of_lookup hk)
      ⟨h.pos, h.residue, h.small, h.last, h.same, h.made⟩, hapart, hu, hpositive, hres⟩
  | closed hk hb hq hr => exact ⟨hp, ha.erase _, hapart, hu, hpositive, hres⟩
  | @demoted now ack inst hk hb hiid hnew =>
    have hreq := ha _ _ hk
    have hnext : inst.ballot.toNat + 10 < 2 ^ 32 := by
      have := hreq.small
      omega
    exact ⟨hp.insert (Waiting.preempt p now hreq.pos hreq.residue hnext hreq.last), ha.erase _,
      hapart, hu, hpositive, hres⟩
  | trimmed => exact ⟨hp.filter _, ha.filter _, hapart, hu, hpositive, hres⟩
  | retriedPrepare hk =>
    have h := hp _ _ hk
    exact ⟨hp.replace (AList.mem_of_lookup hk) ⟨h.pos, h.residue, h.small, h.above⟩, ha, hapart, hu,
      hpositive, hres⟩
  | retriedAccept hk hv =>
    exact BallotInv.retriedAccept ⟨hp, ha, hd, hu, hpositive, hres⟩ hw hk hv hapart
  | rehashed hpp hpa => exact ⟨hp.of_perm hpp, ha.of_perm hpa, hapart, hu, hpositive, hres⟩

end Move

/-! ## Whole runs -/

/-- One call as a partial step: no state is reached if the call does not return. -/
def LoggedProposer.stepOption (config : PaxosConfig) (r : LoggedProposer) (op : ProposerOp) :
    Option LoggedProposer :=
  (r.step config op).toOption

theorem LoggedProposer.stepOption_eq_some {config : PaxosConfig} {r r' : LoggedProposer}
    {op : ProposerOp} (h : r.stepOption config op = some r') : r.step config op = .ok r' :=
  Except.eq_ok_of_toOption h

/-- **The invariant rule for runs of a proposer**: it is enough to look at calls that return. -/
theorem LoggedProposer.invariant_of_reaches {config : PaxosConfig}
    {ok : LoggedProposer → ProposerOp → Prop} {I : LoggedProposer → Prop} {r₀ r : LoggedProposer}
    (hr : Runs.Reaches (LoggedProposer.stepOption config) ok r₀ r) (hinit : I r₀)
    (hstep : ∀ {s s' op}, I s → ok s op → s.step config op = .ok s' → I s') : I r :=
  hr.invariant hinit fun _ hi hok hs => hstep hi hok (stepOption_eq_some hs)

/-- Every run keeps the tables well formed, and the acceptor count. -/
theorem LoggedProposer.wellFormed_of_reaches {config : PaxosConfig} {id : UInt32} {n : Nat}
    {r : LoggedProposer}
    (hr : Runs.Reaches (stepOption config) (fun _ _ => True) (fresh id n) r) :
    r.proposer.WellFormed ∧ r.proposer.acceptors = n := by
  refine invariant_of_reaches (I := fun r => r.proposer.WellFormed ∧ r.proposer.acceptors = n) hr
    ⟨proposerNew_wellFormed id n, rfl⟩ ?_
  rintro s s' op ⟨hw, hn⟩ - hs
  obtain ⟨p, out, hm, rfl⟩ := step_ok hw hs
  exact ⟨hw.move hm, hm.acceptors_eq.trans hn⟩

/-- The call creates an instance only for an id without accept requests so far, and does not push
a pending ballot past 32 bits. -/
def LoggedProposer.FreshCreation (r : LoggedProposer) : ProposerOp → Prop
  | .prepare _ => ∀ a ∈ acceptsOf r.emitted, a.iid ≠ r.proposer.nextPrepareIid + 1
  | .prepareInstance _ iid =>
    (r.proposer.prepareInstances.lookup iid = none → ∀ a ∈ acceptsOf r.emitted, a.iid ≠ iid) ∧
      ∀ inst ∈ r.proposer.prepareInstances.lookup iid, inst.ballot.toNat + 10 < 2 ^ 32
  | _ => True

instance (r : LoggedProposer) : DecidablePred r.FreshCreation
  | .prepare _ =>
    inferInstanceAs (Decidable (∀ a ∈ acceptsOf r.emitted, a.iid ≠ r.proposer.nextPrepareIid + 1))
  | .prepareInstance _ iid =>
    inferInstanceAs (Decidable
      ((r.proposer.prepareInstances.lookup iid = none → ∀ a ∈ acceptsOf r.emitted, a.iid ≠ iid) ∧
        ∀ inst ∈ r.proposer.prepareInstances.lookup iid, inst.ballot.toNat + 10 < 2 ^ 32))
  | .propose _ | .receivePromise _ _ | .accept | .receiveAccepted _ | .receivePreempted _ _
  | .receiveAcceptorState _ | .setInstanceId _ | .timeoutIteratorPrepare _
  | .timeoutIteratorAccept _ | .rehash _ _ => instDecidableTrue

/-- What such a run keeps. -/
structure LoggedProposer.BallotInv (id : UInt32) (r : LoggedProposer) : Prop where
  id_eq : r.proposer.id = id
  wellFormed : r.proposer.WellFormed
  ballots : r.proposer.BallotInv (acceptsOf r.emitted)

theorem LoggedProposer.BallotInv.step {config : PaxosConfig} {id : UInt32} {r r' : LoggedProposer}
    {op : ProposerOp} (hid : id.toNat < 2 ^ 31) (hi : r.BallotInv id) (hf : r.FreshCreation op)
    (h : r.step config op = .ok r') : r'.BallotInv id := by
  obtain ⟨p, out, hm, rfl⟩ := step_ok hi.wellFormed h
  refine ⟨hm.id_eq.trans hi.id_eq, hi.wellFormed.move hm, ?_⟩
  show p.BallotInv (acceptsOf (out ++ r.emitted))
  rw [acceptsOf_append]
  refine hi.ballots.move hi.wellFormed (by rw [hi.id_eq]; exact hid) ?_ ?_ hm
  · rintro now iid next (⟨rfl, rfl, rfl⟩ | ⟨rfl, rfl⟩) _ hnone
    · exact hf
    · exact hf.1 hnone
  · rintro now iid inst rfl hsome
    exact hf.2 inst hsome

/-- **One value a ballot.** In every run of a proposer in which instances are created only for ids
without accept requests and pending ballots stay within 32 bits, two accept requests for the same
instance at the same ballot carry the same value. -/
theorem proposer_one_value_per_ballot (config : PaxosConfig) (id : UInt32) (n : Nat)
    (hid : id.toNat < 2 ^ 31) (r : LoggedProposer)
    (hr : Runs.Reaches (LoggedProposer.stepOption config) LoggedProposer.FreshCreation
      (LoggedProposer.fresh id n) r)
    (a a' : PaxosAccept) (ha : .accept a ∈ r.emitted) (ha' : .accept a' ∈ r.emitted)
    (hiid : a.iid = a'.iid) (hb : a.ballot = a'.ballot) : a.value = a'.value := by
  have hinit : (LoggedProposer.fresh id n).BallotInv id :=
    ⟨rfl, proposerNew_wellFormed id n, proposerNew_ballotInv id n⟩
  have hi : r.BallotInv id :=
    LoggedProposer.invariant_of_reaches hr hinit fun hs hf hstep => hs.step hid hf hstep
  exact hi.ballots.unique a (mem_acceptsOf.mpr ha) a' (mem_acceptsOf.mpr ha') hiid hb

/-- The promises of two acceptors of three for the first instance at the base ballot of the
proposer with id 0, from acceptors that have accepted nothing. -/
def twoPromises : List ProposerOp :=
  [.receivePromise 0 { iid := 1, ballot := 10, aid := 0 },
    .receivePromise 0 { iid := 1, ballot := 10, aid := 1 }]

/-- The accept request of that proposer for a value in the first instance. -/
def firstAccept (v : PaxosValue) : PaxosAccept :=
  { iid := 1, ballot := 10, valueBallot := 10, value := v }

/-- Calls after which a proposer with three acceptors has an instance in each phase. -/
def onePendingEach : List ProposerOp :=
  [.prepare 0] ++ twoPromises ++ [.propose [1], .accept, .prepare 0]

/-- An accept request that times out is sent again with its value. -/
theorem proposer_one_value_per_ballot_retry :
    ∃ r : LoggedProposer, r.emitted.count (.accept (firstAccept [1])) = 2 ∧
      ∀ a : PaxosAccept, .accept a ∈ r.emitted → a.iid = 1 → a.ballot = 10 → a.value = [1] := by
  obtain ⟨r, hr, hc⟩ := Runs.exists_reaches_of_run (LoggedProposer.stepOption {})
    LoggedProposer.FreshCreation (LoggedProposer.fresh 0 3)
    ([.prepare 0] ++ twoPromises ++ [.propose [1], .accept, .timeoutIteratorAccept ⟨0, 0, 5000000⟩])
    (fun r => r.emitted.count (.accept (firstAccept [1])) = 2) (by decide +kernel)
  have hc' : r.emitted.count (.accept (firstAccept [1])) = 2 := of_decide_eq_true hc
  have hmem : .accept (firstAccept [1]) ∈ r.emitted := by
    rw [← List.count_pos_iff]
    omega
  exact ⟨r, hc', fun a ha hiid hb => proposer_one_value_per_ballot {} 0 3 (by decide) r hr a
    (firstAccept [1]) ha hmem hiid hb⟩

/-- **An instance started again.** The accept request for the first value is still on its way when
the proposer jumps ahead and drops the instance; asked to prepare the instance again it starts
from the same ballot, and two acceptors that have seen nothing let it request another value. -/
theorem proposer_two_values_at_one_ballot :
    ¬ ∀ r, Runs.Reaches (LoggedProposer.stepOption {}) (fun _ _ => True)
        (LoggedProposer.fresh 0 3) r →
      ∀ a a' : PaxosAccept, .accept a ∈ r.emitted → .accept a' ∈ r.emitted → a.iid = a'.iid →
        a.ballot = a'.ballot → a.value = a'.value := by
  obtain ⟨r, hr, hmem⟩ := Runs.exists_reaches_of_run (LoggedProposer.stepOption {})
    (fun _ _ => True) (LoggedProposer.fresh 0 3)
    ([.propose [1], .propose [2], .prepare 0] ++ twoPromises ++
      [.accept, .setInstanceId 5, .prepareInstance 0 1] ++ twoPromises ++ [.accept])
    (fun r => .accept (firstAccept [1]) ∈ r.emitted ∧ .accept (firstAccept [2]) ∈ r.emitted)
    (by decide +kernel)
  obtain ⟨h₁, h₂⟩ := of_decide_eq_true hmem
  intro hclaim
  exact absurd (hclaim r hr _ _ h₁ h₂ rfl rfl) (by decide)

end LibPaxos
