import LibPaxos.ProposerTables

/-!
# Ballots on the wire

A proposer keeps its ballots in 32 bits and sends them in 16. While no stored ballot passes 16
bits, the ballots of one proposer are its id modulo 10 and never below its base ballot, and the
ballots of successive attempts on an instance go up. A few thousand preemptions of one instance undo
all of it.

* **`ballots_on_wire`** — what holds while stored ballots have 16 bits and an instance is only
  created for an id without requests so far.
* **`ballots_wrap_on_wire`** — a proposer whose instance is preempted 6554 times.
-/

namespace LibPaxos

open Proposer

/-! ## What a call does to the ballots

By the moves, the ballot of a pending instance after a call is the one it had, larger by 10 after a
preemption, or the base ballot of a new instance. Requests that go out are at the ballot of their
instance. -/

/-- The call repeats a request that has timed out. -/
def ProposerOp.Repeats : ProposerOp → Prop
  | .timeoutIteratorPrepare _ | .timeoutIteratorAccept _ => True
  | _ => False

section Move

variable {p p' : Proposer} {op : ProposerOp} {out : List PaxosMessage}

/-- **Where a pending ballot comes from**: it was pending before, it is the next one of a ballot
that was, or it is the base ballot of a new instance. -/
theorem ProposerMove.pendingAt_cases (hm : ProposerMove p op p' out) {k : UInt32}
    {inst' : Instance} (h : p'.PendingAt k inst') :
    (∃ inst, p.PendingAt k inst ∧
      (inst'.ballot = inst.ballot ∨ inst'.ballot = proposerNextBallot p inst.ballot)) ∨
    ∃ now next, Creates p op now k next ∧ p.prepareInstances.lookup k = none ∧
      inst'.ballot = proposerNextBallot p 0 ∧ ∃ m ∈ out, ∃ b, usedBallot m = some (k, b) := by
  -- an entry of a table that was not touched
  have hprep : p.prepareInstances.lookup k = some inst' → ∃ inst, p.PendingAt k inst ∧
      (inst'.ballot = inst.ballot ∨ inst'.ballot = proposerNextBallot p inst.ballot) :=
    fun hk => ⟨inst', .inl hk, .inl rfl⟩
  have hacc : p.acceptInstances.lookup k = some inst' → ∃ inst, p.PendingAt k inst ∧
      (inst'.ballot = inst.ballot ∨ inst'.ballot = proposerNextBallot p inst.ballot) :=
    fun hk => ⟨inst', .inr hk, .inl rfl⟩
  cases hm with
  | idle | heard | queued => exact .inl ⟨inst', h, .inl rfl⟩
  | @created _ now iid next hc hpos hnew =>
    -- the only case with a base ballot
    rcases h with h | h
    · rcases AList.of_lookup_insert h with ⟨rfl, rfl⟩ | ⟨-, hold⟩
      · exact .inr ⟨now, next, hc, hnew, rfl, _, List.mem_cons_self, _, rfl⟩
      · exact .inl (hprep hold)
    · exact .inl (hacc h)
  | @preempted _ now key inst hk _ =>
    rcases h with h | h
    · rcases AList.of_lookup_replace hk h with ⟨rfl, rfl⟩ | ⟨-, hold⟩
      · exact .inl ⟨inst, .inl hk, .inr rfl⟩
      · exact .inl (hprep hold)
    · exact .inl (hacc h)
  | @promised now ack inst q hk _ _ =>
    rcases h with h | h
    · rcases AList.of_lookup_replace hk h with ⟨rfl, rfl⟩ | ⟨-, hold⟩
      · exact .inl ⟨inst, .inl hk, .inl (adoptPromise_ballot _ _)⟩
      · exact .inl (hprep hold)
    · exact .inl (hacc h)
  | @accepting inst value values v hk _ _ _ _ =>
    rcases h with h | h
    · exact .inl (hprep (AList.of_lookup_erase h).2)
    · rcases AList.of_lookup_insert h with ⟨rfl, rfl⟩ | ⟨-, hold⟩
      · exact .inl ⟨inst, .inl hk, .inl rfl⟩
      · exact .inl (hacc hold)
  | @acked ack inst q hk _ _ _ =>
    rcases h with h | h
    · exact .inl (hprep h)
    · rcases AList.of_lookup_replace hk h with ⟨rfl, rfl⟩ | ⟨-, hold⟩
      · exact .inl ⟨inst, .inr hk, .inl rfl⟩
      · exact .inl (hacc hold)
  | closed =>
    rcases h with h | h
    · exact .inl (hprep h)
    · exact .inl (hacc (AList.of_lookup_erase h).2)
  | @demoted now ack inst hk _ _ _ =>
    -- back to the first phase, one ballot on
    rcases h with h | h
    · rcases AList.of_lookup_insert h with ⟨rfl, rfl⟩ | ⟨-, hold⟩
      · exact .inl ⟨inst, .inr hk, .inr rfl⟩
      · exact .inl (hprep hold)
    · exact .inl (hacc (AList.of_lookup_erase h).2)
  | trimmed =>
    rcases h with h | h
    · exact .inl (hprep (AList.lookup_filter_eq_some.mp h).1)
    · exact .inl (hacc (AList.lookup_filter_eq_some.mp h).1)
  | @retriedPrepare iter key inst hk =>
    rcases h with h | h
    · rcases AList.of_lookup_replace hk h with ⟨rfl, rfl⟩ | ⟨-, hold⟩
      · exact .inl ⟨inst, .inl hk, .inl rfl⟩
      · exact .inl (hprep hold)
    · exact .inl (hacc h)
  | @retriedAccept iter key inst v hk _ =>
    rcases h with h | h
    · exact .inl (hprep h)
    · rcases AList.of_lookup_replace hk h with ⟨rfl, rfl⟩ | ⟨-, hold⟩
      · exact .inl ⟨inst, .inr hk, .inl rfl⟩
      · exact .inl (hacc hold)
  | rehashed hpp hpa =>
    rcases h with h | h
    · exact .inl (hprep ((AList.lookup_eq_of_perm hpp k).symm.trans h))
    · exact .inl (hacc ((AList.lookup_eq_of_perm hpa k).symm.trans h))

/-- **A request is for a pending instance**, at the low 16 bits of its ballot. -/
theorem ProposerMove.out_pendingAt (hm : ProposerMove p op p' out) (hw : p.WellFormed)
    {m : PaxosMessage} {k : UInt32} {b : UInt16} (hmem : m ∈ out)
    (hu : usedBallot m = some (k, b)) :
    ∃ inst, p'.PendingAt k inst ∧ b = inst.ballot.toUInt16 := by
  cases hm with
  | created _ _ _ =>
    obtain rfl := List.mem_singleton.mp hmem
    cases hu
    exact ⟨_, .inl (AList.lookup_insert _), rfl⟩
  | preempted hk _ =>
    obtain rfl := List.mem_singleton.mp hmem
    obtain rfl := (hw.prepare _ _ hk).1
    cases hu
    exact ⟨_, .inl (AList.lookup_replace_self _ hk), rfl⟩
  | accepting _ _ _ _ _ =>
    obtain rfl := List.mem_singleton.mp hmem
    cases hu
    exact ⟨_, .inr (AList.lookup_insert _), rfl⟩
  | demoted _ _ hiid _ =>
    obtain rfl := List.mem_singleton.mp hmem
    cases hu
    -- the request is for the id of the instance, the entry sits under the id of the message
    refine ⟨_, .inl ?_, rfl⟩
    exact (AList.lookup_insert_cases _ _ _ _).trans (if_pos hiid)
  | retriedPrepare hk =>
    obtain rfl := List.mem_singleton.mp hmem
    obtain rfl := (hw.prepare _ _ hk).1
    cases hu
    exact ⟨_, .inl (AList.lookup_replace_self _ hk), rfl⟩
  | retriedAccept hk _ =>
    obtain rfl := List.mem_singleton.mp hmem
    obtain rfl := (hw.accept _ _ hk).1
    cases hu
    exact ⟨_, .inr (AList.lookup_replace_self _ hk), rfl⟩
  | idle | heard | queued | promised | acked | closed | trimmed | rehashed => cases hmem

/-- A prepare request that is not a repeated one starts a new attempt: it is at the next ballot of
a pending instance, or for an instance that is created. -/
theorem ProposerMove.attempt (hm : ProposerMove p op p' out) (hw : p.WellFormed)
    {m : PaxosPrepare} (hmem : .prepare m ∈ out) (hop : ¬ op.Repeats) :
    (∃ inst inst', p.PendingAt m.iid inst ∧ p'.PendingAt m.iid inst' ∧
      inst'.ballot = proposerNextBallot p inst.ballot ∧ m.ballot = inst'.ballot.toUInt16) ∨
    ∃ now next, Creates p op now m.iid next ∧ p.prepareInstances.lookup m.iid = none := by
  cases hm with
  | @created _ now iid next hc hpos hnew =>
    cases List.mem_singleton.mp hmem
    exact .inr ⟨now, next, hc, hnew⟩
  | preempted hk _ =>
    cases List.mem_singleton.mp hmem
    obtain rfl := (hw.prepare _ _ hk).1
    exact .inl ⟨_, _, .inl hk, .inl (AList.lookup_replace_self _ hk), rfl, rfl⟩
  | @demoted now ack inst hk _ hiid _ =>
    cases List.mem_singleton.mp hmem
    have hold : p.acceptInstances.lookup inst.iid = some inst := by
      rw [hiid]
      exact hk
    refine .inl ⟨inst, _, .inr hold, .inl ?_, rfl, rfl⟩
    exact (AList.lookup_insert_cases _ _ _ _).trans (if_pos hiid)
  | accepting => cases List.mem_singleton.mp hmem
  | retriedPrepare => exact absurd trivial hop
  | retriedAccept => exact absurd trivial hop
  | idle | heard | queued | promised | acked | closed | trimmed | rehashed => cases hmem

end Move

/-! ## The ballots of one proposer -/

/-- No pending ballot has more than the 16 bits of a message. -/
def Proposer.Narrow (p : Proposer) : Prop :=
  ∀ inst ∈ p.pending, inst.ballot.toNat < 2 ^ 16

/-- The call leaves pending ballots of 16 bits behind, if it returns. -/
def LoggedProposer.StaysNarrow (config : PaxosConfig) (r : LoggedProposer) (op : ProposerOp) :
    Prop :=
  ∀ r' ∈ r.stepOption config op, r'.proposer.Narrow

/-- The number is a ballot of the proposer with the given id, at or above its base ballot. -/
def OwnBallot (id : UInt32) (b : Nat) : Prop :=
  id.toNat + 10 ≤ b ∧ b % 10 = id.toNat % 10

/-- What a proposer keeps while its ballots have 16 bits: the ballots it stores and those it has
sent are its own. -/
structure LoggedProposer.IssueInv (id : UInt32) (r : LoggedProposer) : Prop where
  id_eq : r.proposer.id = id
  wellFormed : r.proposer.WellFormed
  narrow : r.proposer.Narrow
  stored : ∀ k inst, r.proposer.PendingAt k inst → OwnBallot id inst.ballot.toNat
  issued : ∀ m ∈ r.emitted, ∀ k b, usedBallot m = some (k, b) → OwnBallot id b.toNat

theorem LoggedProposer.issueInv_fresh (id : UInt32) (n : Nat) : (fresh id n).IssueInv id where
  id_eq := rfl
  wellFormed := proposerNew_wellFormed id n
  narrow inst hinst := by cases hinst
  stored k inst h := by rcases h with h | h <;> cases h
  issued m hm := by cases hm

section Issue

variable {config : PaxosConfig} {id : UInt32} {r r' : LoggedProposer} {op : ProposerOp}

theorem Proposer.Narrow.of_pendingAt {p : Proposer} (hn : p.Narrow) {k : UInt32} {inst : Instance}
    (h : p.PendingAt k inst) : inst.ballot.toNat < 2 ^ 16 :=
  hn inst (mem_pending.mpr ⟨k, h⟩)

/-- In 16 bits, the next ballot of a ballot of the proposer is 10 above it. -/
theorem OwnBallot.next {b : UInt32} (p : Proposer) (hb : OwnBallot id b.toNat)
    (hlt : b.toNat < 2 ^ 16) : (proposerNextBallot p b).toNat = b.toNat + 10 := by
  obtain ⟨hbase, -⟩ := hb
  exact toNat_proposerNextBallot p (by omega) (by omega)

theorem LoggedProposer.IssueInv.step (hi : r.IssueInv id) (hid : id.toNat < 2 ^ 31)
    (hn : r.StaysNarrow config op) (h : r.step config op = .ok r') : r'.IssueInv id := by
  have hnarrow : r'.proposer.Narrow := hn r' (by rw [stepOption, h]; rfl)
  obtain ⟨p, out, hm, rfl⟩ := step_ok hi.wellFormed h
  have hstored : ∀ k inst, p.PendingAt k inst → OwnBallot id inst.ballot.toNat := by
    intro k inst' hk
    rcases hm.pendingAt_cases hk with ⟨inst, hold, hsame | hnext⟩ | ⟨_, _, _, _, hbase, _⟩
    · rw [hsame]
      exact hi.stored k inst hold
    · -- 10 more keeps the remainder, as the sum fits into 32 bits
      have hown := hi.stored k inst hold
      rw [hnext, hown.next _ (hi.narrow.of_pendingAt hold)]
      unfold OwnBallot at hown ⊢
      omega
    · have hbase' := toNat_proposerNextBallot_zero (by rw [hi.id_eq]; exact hid)
      rw [hbase, hbase', hi.id_eq]
      unfold OwnBallot
      omega
  refine ⟨hm.id_eq.trans hi.id_eq, hi.wellFormed.move hm, hnarrow, hstored, ?_⟩
  intro m hmem k b hu
  rcases List.mem_append.mp hmem with hnew | hold
  · obtain ⟨inst, hpend, rfl⟩ := hm.out_pendingAt hi.wellFormed hnew hu
    rw [toNat_toUInt16_of_lt (hnarrow.of_pendingAt hpend)]
    exact hstored k inst hpend
  · exact hi.issued m hold k b hu

end Issue

/-! ## Successive attempts

As long as an id is not created again, its ballots are those of one instance, which go up by 10.
What is on the wire are the low 16 bits, and these tell the ballots apart while none is larger. -/

/-- The instances that requests were made for. -/
def requestedIds (out : List PaxosMessage) : List UInt32 :=
  out.filterMap fun m => (usedBallot m).map (·.1)

theorem mem_requestedIds {out : List PaxosMessage} {k : UInt32} :
    k ∈ requestedIds out ↔ ∃ m ∈ out, ∃ b, usedBallot m = some (k, b) := by
  simp [requestedIds]

/-- The call creates an instance only for an id that no request was made for. -/
def LoggedProposer.FreshRequest (r : LoggedProposer) : ProposerOp → Prop
  | .prepare _ => r.proposer.nextPrepareIid + 1 ∉ requestedIds r.emitted
  | .prepareInstance _ iid =>
    r.proposer.prepareInstances.lookup iid = none → iid ∉ requestedIds r.emitted
  | _ => True

/-- The condition on a call under which ballots stay in order on the wire. -/
def LoggedProposer.WireSafe (config : PaxosConfig) (r : LoggedProposer) (op : ProposerOp) : Prop :=
  r.FreshRequest op ∧ r.StaysNarrow config op

/-- The ballot in a request is the one stored for its instance. -/
def LoggedProposer.SentAsStored (r : LoggedProposer) (out : List PaxosMessage) : Prop :=
  ∀ m ∈ out, ∀ k b, usedBallot m = some (k, b) →
    (∃ inst, r.proposer.PendingAt k inst) ∧
      ∀ inst, r.proposer.PendingAt k inst → inst.ballot = b.toUInt32

/-- The prepare requests in `out` are above all requests in `sent` for their instances. -/
def Rising (sent out : List PaxosMessage) : Prop :=
  ∀ m : PaxosPrepare, .prepare m ∈ out → ∀ m' ∈ sent, ∀ b,
    usedBallot m' = some (m.iid, b) → b < m.ballot

/-- Two of the requests are at one ballot. -/
def SharedBallot (out out' : List PaxosMessage) : Prop :=
  ∃ m ∈ out, ∃ m' ∈ out', ∃ k k' b,
    usedBallot m = some (k, b) ∧ usedBallot m' = some (k', b)

/-- What a proposer keeps under that condition: a pending instance is at or above the requests made
for it, and there is one. -/
structure LoggedProposer.WireInv (id : UInt32) (r : LoggedProposer) : Prop
    extends r.IssueInv id where
  apart : r.proposer.Apart
  asked : ∀ k inst, r.proposer.PendingAt k inst → k ∈ requestedIds r.emitted
  low : ∀ k inst, r.proposer.PendingAt k inst → ∀ m ∈ r.emitted, ∀ b,
    usedBallot m = some (k, b) → b.toNat ≤ inst.ballot.toNat

theorem LoggedProposer.wireInv_fresh (id : UInt32) (n : Nat) : (fresh id n).WireInv id where
  toIssueInv := issueInv_fresh id n
  apart := AList.all_empty
  asked k inst h := by rcases h with h | h <;> cases h
  low k inst h := by rcases h with h | h <;> cases h

section Wire

variable {config : PaxosConfig} {id : UInt32} {r r' : LoggedProposer} {op : ProposerOp}

/-- An id for which an instance is created has no requests. -/
theorem LoggedProposer.FreshRequest.notMem {now : Int} {iid next : UInt32}
    (hf : r.FreshRequest op) (hc : Creates r.proposer op now iid next)
    (hnew : r.proposer.prepareInstances.lookup iid = none) : iid ∉ requestedIds r.emitted := by
  rcases hc with ⟨rfl, rfl, rfl⟩ | ⟨rfl, rfl⟩
  · exact hf
  · exact hf hnew

theorem LoggedProposer.WireInv.apart_move (hi : r.WireInv id) (hf : r.FreshRequest op)
    {p : Proposer} {out : List PaxosMessage} (hm : ProposerMove r.proposer op p out) :
    p.Apart := by
  refine hi.apart.move (fun now iid next hc _ => ?_) hm
  cases hacc : r.proposer.acceptInstances.lookup iid with
  | none => rfl
  | some inst =>
    -- an instance in the second phase is not in the first, so it would be created here
    cases hprep : r.proposer.prepareInstances.lookup iid with
    | none => exact absurd (hi.asked iid inst (.inr hacc)) (hf.notMem hc hprep)
    | some x => exact absurd ((hi.apart iid x hprep).symm.trans hacc) (by simp)

/-- **A call keeps the ballots in order on the wire.** -/
theorem LoggedProposer.WireInv.step (hi : r.WireInv id) (hid : id.toNat < 2 ^ 31)
    (hs : r.WireSafe config op) (h : r.step config op = .ok r') : r'.WireInv id := by
  have hissue := hi.toIssueInv.step hid hs.2 h
  obtain ⟨p, out, hm, rfl⟩ := step_ok hi.wellFormed h
  have hapart : p.Apart := hi.apart_move hs.1 hm
  refine ⟨hissue, hapart, ?_, ?_⟩
  · intro k inst' hk
    show k ∈ requestedIds (out ++ r.emitted)
    rw [requestedIds, List.filterMap_append, List.mem_append]
    rcases hm.pendingAt_cases hk with ⟨inst, hold, -⟩ | ⟨_, _, _, _, _, hreq⟩
    · exact .inr (hi.asked k inst hold)
    · exact .inl (mem_requestedIds.mpr hreq)
  · intro k inst' hk m hmem b hu
    rcases List.mem_append.mp hmem with hnew | hold
    · -- the request is for the one instance pending under its id
      obtain ⟨inst, hpend, rfl⟩ := hm.out_pendingAt hi.wellFormed hnew hu
      obtain rfl := hpend.unique hapart hk
      exact Nat.le_of_eq (toNat_toUInt16_of_lt (hissue.narrow.of_pendingAt hk))
    · rcases hm.pendingAt_cases hk with ⟨inst, hpend, hsame | hnext⟩ | ⟨_, _, hc, hnone, _⟩
      · rw [hsame]
        exact hi.low k inst hpend m hold b hu
      · have hle := hi.low k inst hpend m hold b hu
        rw [hnext, (hi.stored k inst hpend).next _ (hi.narrow.of_pendingAt hpend)]
        omega
      · exact absurd (mem_requestedIds.mpr ⟨m, hold, b, hu⟩) (hs.1.notMem hc hnone)

theorem LoggedProposer.WireInv.sentAsStored (hi : r.WireInv id) {p : Proposer}
    {out : List PaxosMessage} (hm : ProposerMove r.proposer op p out) (hi' : r'.WireInv id)
    (hp : r'.proposer = p) : r'.SentAsStored out := by
  subst hp
  intro m hmem k b hu
  obtain ⟨inst, hpend, rfl⟩ := hm.out_pendingAt hi.wellFormed hmem hu
  refine ⟨⟨inst, hpend⟩, fun inst' hpend' => ?_⟩
  obtain rfl := hpend.unique hi'.apart hpend'
  have hlt := hi'.narrow.of_pendingAt hpend'
  apply UInt32.toNat_inj.mp
  rw [UInt16.toNat_toUInt32, toNat_toUInt16_of_lt hlt]

/-- A new attempt is above the earlier ones. -/
theorem LoggedProposer.WireInv.rising (hi : r.WireInv id) (hf : r.FreshRequest op)
    (hop : ¬ op.Repeats) {p : Proposer} {out : List PaxosMessage}
    (hm : ProposerMove r.proposer op p out) (hn : p.Narrow) : Rising r.emitted out := by
  intro m hmem m' hm' b hu
  rcases hm.attempt hi.wellFormed hmem hop with
    ⟨inst, inst', hpend, hpend', hb, hm⟩ | ⟨now, next, hc, hnone⟩
  · have hle := hi.low _ inst hpend m' hm' b hu
    have hnext := (hi.stored _ inst hpend).next r.proposer (hi.narrow.of_pendingAt hpend)
    -- the new ballot is stored, so it is sent as it is
    have hsent := toNat_toUInt16_of_lt (hn.of_pendingAt hpend')
    rw [UInt16.lt_iff_toNat_lt, hm, hsent, hb, hnext]
    omega
  · exact absurd (mem_requestedIds.mpr ⟨m', hm', b, hu⟩) (hf.notMem hc hnone)

end Wire

/-- Runs of a new proposer keep the invariant. -/
theorem LoggedProposer.WireInv.of_reaches {config : PaxosConfig} {id : UInt32} {n : Nat}
    {r : LoggedProposer} (hid : id.toNat < 2 ^ 31)
    (hr : Runs.Reaches (LoggedProposer.stepOption config) (LoggedProposer.WireSafe config)
      (.fresh id n) r) : r.WireInv id :=
  LoggedProposer.invariant_of_reaches hr (LoggedProposer.wireInv_fresh id n)
    fun hs hok hstep => hs.step hid hok hstep

/-- **Ballots on the wire.** Take two proposers with different ids below 10 and runs of each in
which instances are created only for ids without requests and pending ballots keep to 16 bits. A
request is sent at the ballot that is stored for its instance, a new attempt is above all earlier
requests for its instance, and the two proposers never send the same ballot. -/
theorem ballots_on_wire (config : PaxosConfig) (id id' : UInt32) (n n' : Nat) (hid : id < 10)
    (hid' : id' < 10) (hne : id ≠ id') (r r' : LoggedProposer)
    (hr : Runs.Reaches (LoggedProposer.stepOption config) (LoggedProposer.WireSafe config)
      (.fresh id n) r)
    (hr' : Runs.Reaches (LoggedProposer.stepOption config) (LoggedProposer.WireSafe config)
      (.fresh id' n') r') :
    (∀ op s out, r.WireSafe config op → r.step config op = .ok s → s.emitted = out ++ r.emitted →
      s.SentAsStored out ∧ (¬ op.Repeats → Rising r.emitted out)) ∧
    ¬ SharedBallot r.emitted r'.emitted := by
  have hlt : id.toNat < 10 := UInt32.lt_iff_toNat_lt.mp hid
  have hlt' : id'.toNat < 10 := UInt32.lt_iff_toNat_lt.mp hid'
  have hi : r.WireInv id := LoggedProposer.WireInv.of_reaches (by omega) hr
  have hi' : r'.WireInv id' := LoggedProposer.WireInv.of_reaches (by omega) hr'
  constructor
  · intro op s out hok hstep hout
    have hs := hi.step (by omega) hok hstep
    obtain ⟨p, out', hm, rfl⟩ := LoggedProposer.step_ok hi.wellFormed hstep
    obtain rfl : out' = out := List.append_cancel_right hout
    exact ⟨hi.sentAsStored hm hs rfl, fun hop => hi.rising hok.1 hop hm hs.narrow⟩
  · -- the remainder modulo 10 tells whose ballot it is
    rintro ⟨m, hm, m', hm', k, k', b, hu, hu'⟩
    obtain ⟨-, hres⟩ := hi.issued m hm k b hu
    obtain ⟨-, hres'⟩ := hi'.issued m' hm' k' b hu'
    exact hne (UInt32.toNat_inj.mp (by omega))

instance (p : Proposer) : Decidable p.Narrow :=
  inferInstanceAs (Decidable (∀ inst ∈ p.pending, inst.ballot.toNat < 2 ^ 16))

instance (r : LoggedProposer) : DecidablePred r.FreshRequest
  | .prepare _ =>
    inferInstanceAs (Decidable (r.proposer.nextPrepareIid + 1 ∉ requestedIds r.emitted))
  | .prepareInstance _ iid =>
    inferInstanceAs (Decidable
      (r.proposer.prepareInstances.lookup iid = none → iid ∉ requestedIds r.emitted))
  | .propose _ | .receivePromise _ _ | .accept | .receiveAccepted _ | .receivePreempted _ _
  | .receiveAcceptorState _ | .setInstanceId _ | .timeoutIteratorPrepare _
  | .timeoutIteratorAccept _ | .rehash _ _ => instDecidableTrue

instance (config : PaxosConfig) (r : LoggedProposer) : DecidablePred (r.StaysNarrow config) :=
  fun op => inferInstanceAs (Decidable (∀ r' ∈ r.stepOption config op, r'.proposer.Narrow))

instance (config : PaxosConfig) (r : LoggedProposer) : DecidablePred (r.WireSafe config) :=
  fun op => inferInstanceAs (Decidable (r.FreshRequest op ∧ r.StaysNarrow config op))

/-- Proposer 0 is preempted at ballot 10 by a promise for ballot 15, while proposer 1 has prepared
the same instance: the new attempt is above the first one, and not at a ballot of proposer 1. -/
theorem ballots_on_wire_preempted :
    ∃ r r' s : LoggedProposer, ∃ m : PaxosPrepare,
      s.emitted = [.prepare m] ++ r.emitted ∧ r.emitted ≠ [] ∧ r'.emitted ≠ [] ∧
      s.SentAsStored [.prepare m] ∧ Rising r.emitted [.prepare m] ∧
      ¬ SharedBallot r.emitted r'.emitted := by
  obtain ⟨r, hr, hs⟩ := Runs.exists_reaches_of_run (LoggedProposer.stepOption {})
    (LoggedProposer.WireSafe {}) (.fresh 0 3) [.prepare 0]
    (fun r => r.WireSafe {} (.receivePromise 0 { iid := 1, ballot := 15, aid := 1 }) ∧
      r.emitted ≠ [] ∧
      (r.stepOption {} (.receivePromise 0 { iid := 1, ballot := 15, aid := 1 })).any fun s =>
        s.emitted = .prepare { iid := 1, ballot := 20 } :: r.emitted) (by decide +kernel)
  obtain ⟨hok, hsent, hnext⟩ := of_decide_eq_true hs
  obtain ⟨r', hr', hs'⟩ := Runs.exists_reaches_of_run (LoggedProposer.stepOption {})
    (LoggedProposer.WireSafe {}) (.fresh 1 3) [.prepare 0] (fun r => r.emitted ≠ [])
    (by decide +kernel)
  obtain ⟨s, hstep, hemit⟩ := (Option.any_eq_true _ _).mp hnext
  have hwire := ballots_on_wire {} 0 1 3 3 (by decide) (by decide) (by decide) r r' hr hr'
  have hout : s.emitted = [.prepare { iid := 1, ballot := 20 }] ++ r.emitted :=
    of_decide_eq_true hemit
  have hcall := hwire.1 _ s _ hok (LoggedProposer.stepOption_eq_some hstep) hout
  exact ⟨r, r', s, _, hout, hsent, of_decide_eq_true hs', hcall.1, hcall.2 id, hwire.2⟩

/-! ## Ballots that wrap

A run of 6554 preemptions cannot be evaluated, so the instance is followed through it by induction:
after `n` preemptions it is at the base ballot plus `10 * n`. -/

/-- A proposer with id 0 whose first instance was preempted `k` times. -/
def wornOut (k : Nat) : Proposer :=
  { proposerNew 0 3 with
    nextPrepareIid := 1
    prepareInstances := AList.insert 1 (newInstance 0 1 (UInt32.ofNat (10 + 10 * k)) 3) ∅ }

/-- The request it sends at its last ballot. -/
def wornOutPrepare (k : Nat) : PaxosPrepare :=
  { iid := 1, ballot := UInt16.ofNat (10 + 10 * k) }

/-- A promise for the largest ballot that fits into a message. -/
def largestPromise : PaxosPromise :=
  { iid := 1, ballot := 65535 }

theorem wornOut_lookup (k : Nat) : (wornOut k).prepareInstances.lookup 1
    = some (newInstance 0 1 (UInt32.ofNat (10 + 10 * k)) 3) :=
  AList.lookup_insert _

/-- Preempting the instance once more. -/
theorem wornOut_preempt {k : Nat} (hk : k ≤ 6553) :
    proposerPreempt 0 (wornOut k) (newInstance 0 1 (UInt32.ofNat (10 + 10 * k)) 3)
      = newInstance 0 1 (UInt32.ofNat (10 + 10 * (k + 1))) 3 := by
  have hball : (UInt32.ofNat (10 + 10 * k)).toNat = 10 + 10 * k := by
    rw [UInt32.toNat_ofNat']
    omega
  have hnext : proposerNextBallot (wornOut k) (UInt32.ofNat (10 + 10 * k))
      = UInt32.ofNat (10 + 10 * (k + 1)) := by
    apply UInt32.toNat_inj.mp
    rw [toNat_proposerNextBallot _ (by omega) (by omega), hball, UInt32.toNat_ofNat']
    omega
  show { newInstance 0 1 (proposerNextBallot (wornOut k) (UInt32.ofNat (10 + 10 * k))) 3 with
    quorum := quorumClear (quorumInit 3) } = _
  rw [hnext]
  rfl

theorem prepareOf_wornOut (k : Nat) :
    prepareOf (newInstance 0 1 (UInt32.ofNat (10 + 10 * k)) 3) = wornOutPrepare k := by
  have hball : (UInt32.ofNat (10 + 10 * k)).toUInt16 = UInt16.ofNat (10 + 10 * k) := by
    apply UInt16.toNat_inj.mp
    rw [UInt32.toNat_toUInt16, UInt32.toNat_ofNat', UInt16.toNat_ofNat']
    omega
  exact congrArg (fun b => ({ iid := 1, ballot := b } : PaxosPrepare)) hball

/-- Overwriting the instance with the one preempted once more. -/
theorem wornOut_replace {k : Nat} (hk : k ≤ 6553) :
    { wornOut k with
      prepareInstances := (wornOut k).prepareInstances.replace 1
        (proposerPreempt 0 (wornOut k) (newInstance 0 1 (UInt32.ofNat (10 + 10 * k)) 3)) }
      = wornOut (k + 1) := by
  have htable : (wornOut k).prepareInstances.replace 1
      (newInstance 0 1 (UInt32.ofNat (10 + 10 * (k + 1))) 3)
        = (wornOut (k + 1)).prepareInstances := AList.replace_insert 1 _ _ ∅
  rw [wornOut_preempt hk, htable]
  rfl

/-- The promise preempts the instance as long as its ballot is below. -/
theorem wornOut_promise {k : Nat} (hk : k < 6553) :
    proposerStep {} (wornOut k) (.receivePromise 0 largestPromise)
      = .ok (wornOut (k + 1), [.prepare (wornOutPrepare (k + 1))]) := by
  have hbelow : largestPromise.ballot.toUInt32
      > (newInstance 0 1 (UInt32.ofNat (10 + 10 * k)) 3).ballot := by
    show UInt32.ofNat (10 + 10 * k) < 65535
    rw [UInt32.lt_iff_toNat_lt, UInt32.toNat_ofNat']
    show (10 + 10 * k) % 2 ^ 32 < 65535
    rw [Nat.mod_eq_of_lt (by omega)]
    omega
  have hpromise : proposerReceivePromise 0 (wornOut k) largestPromise
      = .ok (wornOut (k + 1), some (wornOutPrepare (k + 1))) := by
    have hlookup : (wornOut k).prepareInstances.lookup largestPromise.iid = _ := wornOut_lookup k
    unfold proposerReceivePromise
    rw [hlookup]
    show (if _ then _ else if _ then _ else _) = _
    rw [if_neg (UInt32.not_lt.mpr (UInt32.le_of_lt hbelow)), if_pos hbelow]
    show Except.ok (_, _) = _
    rw [← wornOut_replace (Nat.le_of_lt hk), ← prepareOf_wornOut,
      ← wornOut_preempt (Nat.le_of_lt hk)]
    rfl
  show (proposerReceivePromise 0 (wornOut k) largestPromise >>= _) = _
  rw [hpromise]
  rfl

theorem wornOut_prepareInstance :
    proposerStep {} (wornOut 6553) (.prepareInstance 0 1)
      = .ok (wornOut 6554, [.prepare (wornOutPrepare 6554)]) := by
  have hprepare : proposerPrepareInstance 0 (wornOut 6553) 1
      = .ok (wornOut 6554, wornOutPrepare 6554) := by
    have hnext := wornOut_preempt (Nat.le_refl 6553)
    unfold proposerPrepareInstance
    rw [wornOut_lookup]
    show Except.ok (_, _) = _
    rw [wornOut_replace (Nat.le_refl 6553), hnext, prepareOf_wornOut]
  show (proposerPrepareInstance 0 (wornOut 6553) 1 >>= _) = _
  rw [hprepare]
  rfl

theorem LoggedProposer.stepOption_of_proposerStep {config : PaxosConfig} {r : LoggedProposer}
    {op : ProposerOp} {p : Proposer} {out : List PaxosMessage}
    (h : proposerStep config r.proposer op = .ok (p, out)) :
    r.stepOption config op = some ⟨p, submittedBy op ++ r.submitted, out ++ r.emitted,
      decidedBy r.proposer op ++ r.decided⟩ := by
  unfold stepOption step
  rw [h]
  rfl

/-- The proposer gets there. -/
theorem exists_reaches_wornOut {k : Nat} (hk : k ≤ 6553) : ∃ r,
    Runs.Reaches (LoggedProposer.stepOption {}) (fun _ _ => True) (.fresh 0 3) r ∧
      r.proposer = wornOut k ∧ .prepare (wornOutPrepare k) ∈ r.emitted := by
  induction k with
  | zero =>
    have hprepare : proposerStep {} (LoggedProposer.fresh 0 3).proposer (.prepare 0)
        = .ok (wornOut 0, [.prepare (wornOutPrepare 0)]) := rfl
    exact ⟨_, .step .init trivial (LoggedProposer.stepOption_of_proposerStep hprepare), rfl,
      List.mem_cons_self⟩
  | succ k ih =>
    obtain ⟨r, hr, hp, -⟩ := ih (by omega)
    have hpromise : proposerStep {} r.proposer (.receivePromise 0 largestPromise)
        = .ok (wornOut (k + 1), [.prepare (wornOutPrepare (k + 1))]) := by
      rw [hp]
      exact wornOut_promise (by omega)
    exact ⟨_, .step hr trivial (LoggedProposer.stepOption_of_proposerStep hpromise), rfl,
      List.mem_cons_self⟩

/-- **Ballots wrap on the wire.** A proposer with id 0 is preempted at ballot 65530 and stores
65540, but sends ballot 4: not the ballot it stores, and below its earlier ones. Preempted once
more it sends ballot 14, the first ballot of proposer 4. -/
theorem ballots_wrap_on_wire :
    (¬ ∀ r, Runs.Reaches (LoggedProposer.stepOption {}) (fun _ _ => True) (.fresh 0 3) r →
      ∀ op s out, r.step {} op = .ok s → s.emitted = out ++ r.emitted → s.SentAsStored out) ∧
    (¬ ∀ r, Runs.Reaches (LoggedProposer.stepOption {}) (fun _ _ => True) (.fresh 0 3) r →
      ∀ op s out, r.step {} op = .ok s → s.emitted = out ++ r.emitted → ¬ op.Repeats →
        Rising r.emitted out) ∧
    ¬ ∀ r r', Runs.Reaches (LoggedProposer.stepOption {}) (fun _ _ => True) (.fresh 0 3) r →
      Runs.Reaches (LoggedProposer.stepOption {}) (fun _ _ => True) (.fresh 4 3) r' →
      ¬ SharedBallot r.emitted r'.emitted := by
  obtain ⟨r, hr, hp, hmem⟩ := exists_reaches_wornOut (k := 6552) (by decide)
  have hpromise : proposerStep {} r.proposer (.receivePromise 0 largestPromise)
      = .ok (wornOut 6553, [.prepare (wornOutPrepare 6553)]) := by
    rw [hp]
    exact wornOut_promise (by decide)
  have hstep := LoggedProposer.stepOption_of_proposerStep hpromise
  have hcall := LoggedProposer.stepOption_eq_some hstep
  refine ⟨fun hclaim => ?_, fun hclaim => ?_, fun hclaim => ?_⟩
  · have hsent := hclaim r hr _ _ _ hcall rfl
    obtain ⟨-, hball⟩ := hsent _ List.mem_cons_self 1 _ rfl
    exact absurd (hball _ (.inl (wornOut_lookup 6553))) (by decide)
  · have hrise := hclaim r hr _ _ _ hcall rfl id
    exact absurd (hrise _ List.mem_cons_self _ hmem _ rfl) (by decide)
  · obtain ⟨r₁, hr₁, hp₁, -⟩ := exists_reaches_wornOut (Nat.le_refl 6553)
    have hagain := wornOut_prepareInstance
    rw [← hp₁] at hagain
    have hfirst : proposerStep {} (LoggedProposer.fresh 4 3).proposer (.prepare 0) = _ := rfl
    exact hclaim _ _ (hr₁.step trivial (LoggedProposer.stepOption_of_proposerStep hagain))
      (.step .init trivial (LoggedProposer.stepOption_of_proposerStep hfirst))
      ⟨_, List.mem_cons_self, _, List.mem_cons_self, 1, 1, 14, rfl, rfl⟩

end LibPaxos
