import LibPaxos.EvPaxos.Evproposer

/-!
# Runs of the event handlers

What the handlers of `evproposer.c` do over whole runs. Every turn of `try_accept` moves an instance
to the second phase, so it ends; the requests that are pre-executed are for new instances, which are
not ready, so nothing can be accepted after it.

* **`evproposer_returns`** — in every run the handlers return, and they drive the proposer by calls
  in order only.
* **`evproposer_leaves_nothing`** — between two events no instance is left that could be accepted
  and the window is full, unless a trim point has been heard of since the last promise or value.
-/

namespace LibPaxos

open Proposer Loops

/-! ## Nothing left to accept

`proposer_accept` returns nothing if no instance waits for promises, if the smallest one has no
quorum, or if it has nothing to ask for: no own value, no promised one and an empty queue. `Quiet`
is the state in which it does so, and new instances do not end it, since they are larger and have no
promises. -/

/-- The instance with the smallest id has no quorum of promises, or there is no value for it. -/
def Proposer.Quiet (p : Proposer) : Prop :=
  ∀ k inst, p.prepareInstances.lookup k = some inst →
    (p.prepareInstances.All fun _ other => inst.iid ≤ other.iid) →
    quorumReached inst.quorum = false ∨
      (inst.value = none ∧ inst.promisedValue = none ∧ p.values = [])

section Quiet

variable {config : PaxosConfig} {p p' : Proposer}

theorem foldl_isSome {α β : Type} {f : Option β → α → Option β} (hf : ∀ acc e, (f acc e).isSome) :
    ∀ (es : List α) (acc : Option β), acc.isSome → (es.foldl f acc).isSome := by
  intro es
  induction es with
  | nil => exact fun _ h => h
  | cons e es ih => exact fun acc _ => ih _ (hf acc e)

theorem entries_eq_nil_of_smallestInstance {h : KHash Instance}
    (hs : smallestInstance h = none) : h.entries = [] := by
  cases he : h.entries with
  | nil => rfl
  | cons e es =>
    have hsome : (smallestInstance h).isSome := by
      unfold smallestInstance
      rw [he, List.foldl_cons]
      refine foldl_isSome (fun acc e => ?_) es _ rfl
      cases acc with
      | none => rfl
      | some i =>
        simp only
        split <;> rfl
    rw [hs] at hsome
    cases hsome

theorem smallestInstance_eq_none {h : KHash Instance} (hs : smallestInstance h = none)
    (k : UInt32) : h.lookup k = none := by
  have hnil := entries_eq_nil_of_smallestInstance hs
  refine AList.lookup_eq_none.mpr fun hmem => ?_
  obtain ⟨inst, hk⟩ := AList.lookup_eq_some_of_mem hmem
  have := AList.mem_entries_iff.mpr hk
  rw [hnil] at this
  cases this

/-- Ids are keys, so there is one instance with the smallest id. -/
theorem smallestInstance_unique {h : KHash Instance} (hk : Keyed h) {k : UInt32}
    {inst inst' : Instance} (hs : smallestInstance h = some inst) (hl : h.lookup k = some inst')
    (hle : h.All fun _ other => inst'.iid ≤ other.iid) : inst' = inst := by
  obtain ⟨k', hl'⟩ := smallestInstance_mem hs
  have hiid : inst'.iid = inst.iid :=
    UInt32.le_antisymm (hle k' inst hl') (smallestInstance_le hs k inst' hl)
  rw [hk k inst' hl, hk k' inst hl'] at hiid
  rw [hiid] at hl
  exact Option.some.inj (hl.symm.trans hl')

theorem takeValue_eq_none {values : List PaxosValue} {inst : Instance} :
    (takeValue values inst).1 = none ↔ inst.value = none ∧ values = [] := by
  unfold takeValue
  cases inst.value with
  | some v => simp
  | none => simp

/-- **`proposer_accept` returns 0** exactly when nothing can be accepted, and changes nothing. -/
theorem proposerAccept_eq_none_iff (hw : p.WellFormed) :
    (∃ p', proposerAccept p = .ok (p', none)) ↔ proposerAccept p = .ok (p, none) ∧ p.Quiet := by
  constructor
  · rintro ⟨p', h⟩
    have hself : p' = p ∧ p.Quiet := by
      unfold proposerAccept at h
      split at h
      · next hs =>
        -- no instance waits
        cases h
        refine ⟨rfl, fun k inst hk => ?_⟩
        cases (smallestInstance_eq_none hs k).symm.trans hk
      · next inst hs =>
        split at h
        -- the smallest one has no quorum
        · next hq =>
          cases h
          refine ⟨rfl, fun k inst' hk hle => .inl ?_⟩
          rw [smallestInstance_unique hw.keyed_prepare hs hk hle]
          exact hq
        · simp only at h
          split at h
          -- it has a quorum, and nothing to ask for
          · next hnone =>
            cases h
            refine ⟨rfl, fun k inst' hk hle => .inr ?_⟩
            rw [smallestInstance_unique hw.keyed_prepare hs hk hle]
            obtain ⟨hvalue, hvalues⟩ := takeValue_eq_none.mp hnone.1
            exact ⟨hvalue, hnone.2, hvalues⟩
          · obtain ⟨r, -, h⟩ := Except.bind_eq_ok.mp h
            obtain ⟨out, -, h⟩ := Except.bind_eq_ok.mp h
            cases h
    rw [hself.1] at h
    exact ⟨h, hself.2⟩
  · exact fun h => ⟨p, h.1⟩

/-- A quiet proposer has nothing to accept. -/
theorem Proposer.Quiet.accept (hq : p.Quiet) : proposerAccept p = .ok (p, none) := by
  unfold proposerAccept
  split
  · rfl
  · next inst hs =>
    obtain ⟨k, hk⟩ := smallestInstance_mem hs
    rcases hq k inst hk (smallestInstance_le hs) with hfalse | ⟨hvalue, hpromised, hvalues⟩
    · rw [if_pos hfalse]
    · split
      · rfl
      · exact if_pos ⟨takeValue_eq_none.mpr ⟨hvalue, hvalues⟩, hpromised⟩

theorem quorumReached_quorumInit (n : Nat) : quorumReached (quorumInit n) = false := by
  simp [quorumReached, quorumInit, paxosQuorum]

theorem Proposer.quiet_new (id : UInt32) (n : Nat) : (proposerNew id n).Quiet := by
  intro k inst hk
  cases hk

/-- An instance that is prepared now is the largest, and has no promises. -/
theorem Proposer.Quiet.prepare (hq : p.Quiet) {now : Int} {out : PaxosPrepare}
    (h : proposerPrepare now p = .ok (p', out)) : p'.Quiet := by
  have hm := proposerPrepare_move h
  cases hm with
  | created hc hpos hnew =>
    rcases hc with ⟨-, rfl, rfl⟩ | ⟨hop, -⟩
    · intro k inst hk hle
      change (p.prepareInstances.insert _ _).lookup k = some inst at hk
      rw [AList.lookup_insert_cases] at hk
      split at hk
      · cases hk
        exact .inl (quorumReached_quorumInit p.acceptors)
      · refine hq k inst hk fun k' other hk' => hle k' other ?_
        show (p.prepareInstances.insert _ _).lookup k' = some other
        rw [AList.lookup_insert_cases, if_neg]
        · exact hk'
        · rintro rfl
          exact absurd (hnew.symm.trans hk') (by simp)
    · cases hop
  | preempted _ hop =>
    obtain ⟨ack, hop, -⟩ | hop := hop
    · cases hop
    · cases hop

/-- Setting the time of an instance makes no difference. -/
theorem Proposer.Quiet.restart (hq : p.Quiet) {key : UInt32} {inst : Instance}
    (hk : p.prepareInstances.lookup key = some inst) (now : Int) :
    ({ p with prepareInstances :=
        p.prepareInstances.replace key { inst with createdAt := now } } : Proposer).Quiet := by
  have hlookup := fun k => AList.lookup_replace k { inst with createdAt := now }
    (AList.mem_of_lookup hk)
  intro k inst' hl hle
  change (p.prepareInstances.replace _ _).lookup k = some inst' at hl
  have hsmaller : ∀ i : Instance, i.iid = inst'.iid →
      p.prepareInstances.All fun _ other => i.iid ≤ other.iid := by
    intro i hi k' other hk'
    rw [hi]
    by_cases heq : k' = key
    · subst heq
      obtain rfl := Option.some.inj (hk.symm.trans hk')
      exact hle k' { inst with createdAt := now } ((hlookup k').trans (if_pos rfl))
    · exact hle k' other ((hlookup k').trans ((if_neg heq).trans hk'))
  rw [hlookup] at hl
  split at hl
  · cases hl
    exact hq key inst hk (hsmaller inst rfl)
  · exact hq k inst' hl (hsmaller inst' rfl)

/-- A retry does nothing else. -/
theorem Proposer.Quiet.retry (hq : p.Quiet) (hp : p.Sound) {op : ProposerOp} (hop : op.Retries)
    {out : List PaxosMessage} (h : proposerStep config p op = .ok (p', out)) : p'.Quiet := by
  have hm := hp.move h
  cases hm with
  | idle => exact hq
  | retriedPrepare hk => exact hq.restart hk _
  | retriedAccept hk hv => exact hq
  | heard | queued | promised | accepting | acked | closed | demoted | rehashed => exact hop.elim
  | created hc =>
    rcases hc with ⟨rfl, -⟩ | ⟨rfl, -⟩ <;> exact hop.elim
  | preempted hk hc =>
    rcases hc with ⟨ack, rfl, -⟩ | rfl <;> exact hop.elim
  | trimmed hc =>
    rcases hc with ⟨rfl, -⟩ | ⟨state, rfl, -⟩ <;> exact hop.elim

end Quiet

/-! ## What a handler leaves

`try_accept` goes on until nothing can be accepted and then fills the window. The handlers that do
not end with it change nothing that would call for it, except when a trim point drops instances. -/

/-- Nothing can be accepted, and the window is full. -/
structure Proposer.Settled (window : Int) (p : Proposer) : Prop where
  quiet : p.Quiet
  full : window ≤ proposerPreparedCount p

/-- The event may drop instances, and no `try_accept` follows. -/
def EvproposerEvent.Trims : EvproposerEvent → Prop
  | .handleAcceptorState _ => True
  | .setInstanceId _ => True
  | _ => False

/-- The event is followed by `try_accept` in any case. -/
def EvproposerEvent.Tries : EvproposerEvent → Prop
  | .handlePromise _ => True
  | .handleClientValue _ => True
  | _ => False

section Settled

variable {config : PaxosConfig} {window : Int} {fuel : Nat} {clock : Nat → Int} {s s' : Sending}
  {p p' : Proposer}

theorem proposerPrepare_preparedCount {now : Int} {out : PaxosPrepare}
    (h : proposerPrepare now p = .ok (p', out)) :
    proposerPreparedCount p' = proposerPreparedCount p + 1 := by
  obtain ⟨inst, -, h⟩ := Except.bind_eq_ok.mp h
  obtain ⟨t, hput, h⟩ := Except.bind_eq_ok.mp h
  obtain ⟨hnew, rfl⟩ := khPutInstance_ok hput
  cases h
  unfold proposerPreparedCount
  rw [AList.entries_insert_of_notMem (AList.lookup_eq_none.mp hnew)]
  rfl

/-- **Pre-execution** adds instances that are not ready. -/
theorem foldlM_preexecuteTurn_settled {is : List Nat} (hq : s.proposer.Quiet)
    (h : is.foldlM (preexecuteTurn clock) s = .ok s') :
    s'.proposer.Quiet ∧
      proposerPreparedCount s'.proposer = proposerPreparedCount s.proposer + is.length := by
  induction is generalizing s with
  | nil =>
    cases h
    exact ⟨hq, (Int.add_zero _).symm⟩
  | cons i is ih =>
    rw [List.foldlM_cons] at h
    obtain ⟨s₁, hturn, h⟩ := Except.bind_eq_ok.mp h
    obtain ⟨⟨p₁, pr⟩, hprepare, hturn⟩ := Except.bind_eq_ok.mp hturn
    cases hturn
    obtain ⟨hq', hcount⟩ := ih (hq.prepare hprepare) h
    refine ⟨hq', ?_⟩
    rw [hcount, proposerPrepare_preparedCount hprepare, List.length_cons]
    omega

theorem proposerPreexecute_settled (hq : s.proposer.Quiet)
    (h : proposerPreexecute window clock s = .ok s') : s'.proposer.Settled window := by
  unfold proposerPreexecute at h
  simp only at h
  split at h
  · cases h
    exact ⟨hq, by omega⟩
  · obtain ⟨hq', hcount⟩ := foldlM_preexecuteTurn_settled hq h
    rw [List.length_range] at hcount
    exact ⟨hq', by omega⟩

/-- **`try_accept` leaves nothing.** -/
theorem tryAccept_settled (hs : s.proposer.Sound)
    (h : tryAccept window fuel clock s = .ok (some s')) : s'.proposer.Settled window := by
  obtain ⟨out, hloop, h⟩ := Except.bind_eq_ok.mp h
  cases out with
  | none => cases h
  | some s₁ =>
    obtain ⟨s₂, hpre, h⟩ := Except.bind_eq_ok.mp h
    cases h
    refine proposerPreexecute_settled ?_ hpre
    -- the last turn found nothing to accept
    obtain ⟨t, ht, hlast⟩ := exists_last_turn (I := fun t : Sending => t.proposer.Sound)
      (fun t t' ht hturn => CallsOf.sound
        (show CallsOf {} ProposerOp.Own t t' from tryAcceptTurn_callsOf hturn)
        (fun _ hop => hop.inOrder) ht) hs hloop
    obtain ⟨⟨p, out⟩, haccept, hlast⟩ := Except.bind_eq_ok.mp hlast
    cases out with
    | some accept => cases hlast
    | none =>
      cases hlast
      obtain ⟨hsame, hquiet⟩ := (proposerAccept_eq_none_iff ht.wellFormed).mp ⟨p, haccept⟩
      cases haccept.symm.trans hsame
      exact hquiet

theorem proposerReceiveAccepted_zero {ack : PaxosAccepted}
    (h : proposerReceiveAccepted p ack = .ok (p', 0)) : p' = p := by
  unfold proposerReceiveAccepted at h
  split at h
  · cases h
    rfl
  · split at h
    · obtain ⟨⟨q, added⟩, -, h⟩ := Except.bind_eq_ok.mp h
      simp only at h
      split at h
      · cases h
        rfl
      · split at h <;> cases h
    · cases h
      rfl

theorem proposerReceivePreempted_none {now : Int} {ack : PaxosPreempted}
    (h : proposerReceivePreempted now p ack = .ok (p', none)) : p' = p := by
  unfold proposerReceivePreempted at h
  split at h
  · cases h
    rfl
  · split at h
    · obtain ⟨r, -, h⟩ := Except.bind_eq_ok.mp h
      cases h
    · cases h
      rfl

theorem preparedCount_retry (hp : p.Sound) {op : ProposerOp} (hop : op.Retries)
    {out : List PaxosMessage} (h : proposerStep config p op = .ok (p', out)) :
    proposerPreparedCount p' = proposerPreparedCount p := by
  have hm := hp.move h
  cases hm with
  | idle => rfl
  | retriedPrepare hk =>
    exact congrArg Nat.cast ((AList.replace_perm _ (AList.mem_of_lookup hk)).length_eq.trans
      ((AList.entries_perm_cons_erase hk).length_eq.symm))
  | retriedAccept hk hv => rfl
  | heard | queued | promised | accepting | acked | closed | demoted | rehashed => exact hop.elim
  | created hc => rcases hc with ⟨rfl, -⟩ | ⟨rfl, -⟩ <;> exact hop.elim
  | preempted hk hc => rcases hc with ⟨ack, rfl, -⟩ | rfl <;> exact hop.elim
  | trimmed hc => rcases hc with ⟨rfl, -⟩ | ⟨state, rfl, -⟩ <;> exact hop.elim

/-- A visit of the timer changes times only. -/
theorem checkTimeouts_settled {now : Int} {c : Checking} (hp : p.Sound)
    (h : evproposerCheckTimeouts config fuel now p = .ok (some c)) :
    (p.Quiet → c.proposer.Quiet) ∧
      proposerPreparedCount c.proposer = proposerPreparedCount p := by
  have hinv := (checkTimeouts_callsOf h).invariant
    (I := fun q => q.Sound ∧ (p.Quiet → q.Quiet) ∧
      proposerPreparedCount q = proposerPreparedCount p) ?_ ⟨hp, fun hq => hq, rfl⟩
  · exact hinv.2
  · rintro q op q' out ⟨hq, hquiet, hcount⟩ hop hstep
    refine ⟨hq.step config op hop.own.inOrder hstep, fun h => (hquiet h).retry hq hop hstep, ?_⟩
    rw [← hcount]
    exact preparedCount_retry hq hop hstep

/-- **What a handler leaves.** After a promise or a value nothing is left, and no handler brings
something back except one that trims. -/
theorem evproposerHandle_settled {ev : EvproposerEvent} (hp : p.Sound)
    (h : evproposerHandle config window fuel clock p ev = .ok (some s')) :
    (ev.Tries → s'.proposer.Settled window) ∧
      (¬ ev.Trims → p.Quiet → s'.proposer.Quiet ∧
        (ev = .preexecOnce ∨ window ≤ proposerPreparedCount p → s'.proposer.Settled window)) := by
  cases ev with
  | handlePromise ack =>
    obtain ⟨⟨p₁, prepare⟩, hcall, h⟩ := Except.bind_eq_ok.mp h
    have hp₁ : p₁.Sound := hp.step config (.receivePromise (clock 0) ack) trivial
      (Except.bind_eq_ok.mpr ⟨_, hcall, rfl⟩)
    have hs := tryAccept_settled hp₁ h
    exact ⟨fun _ => hs, fun _ _ => ⟨hs.quiet, fun _ => hs⟩⟩
  | handleAccepted ack =>
    obtain ⟨⟨p₁, rv⟩, hcall, h⟩ := Except.bind_eq_ok.mp h
    have hp₁ : p₁.Sound := hp.step config (.receiveAccepted ack) trivial
      (Except.bind_eq_ok.mpr ⟨_, hcall, rfl⟩)
    refine ⟨fun ht => ht.elim, fun _ hq => ?_⟩
    simp only at h
    split at h
    · have hs := tryAccept_settled hp₁ h
      exact ⟨hs.quiet, fun _ => hs⟩
    · next hrv =>
      cases h
      -- an acknowledgement that changes nothing leaves the proposer as it was
      obtain rfl : rv = 0 := not_not.mp hrv
      obtain rfl := proposerReceiveAccepted_zero hcall
      exact ⟨hq, fun hfull => ⟨hq, hfull.resolve_left (by simp)⟩⟩
  | handlePreempted ack =>
    obtain ⟨⟨p₁, preempted⟩, hcall, h⟩ := Except.bind_eq_ok.mp h
    have hp₁ : p₁.Sound := hp.step config (.receivePreempted (clock 0) ack) trivial
      (Except.bind_eq_ok.mpr ⟨_, hcall, rfl⟩)
    refine ⟨fun ht => ht.elim, fun _ hq => ?_⟩
    cases preempted with
    | some prepare =>
      have hs := tryAccept_settled hp₁ h
      exact ⟨hs.quiet, fun _ => hs⟩
    | none =>
      cases h
      obtain rfl := proposerReceivePreempted_none hcall
      exact ⟨hq, fun hfull => ⟨hq, hfull.resolve_left (by simp)⟩⟩
  | handleClientValue value =>
    have hp₁ : (proposerPropose p value).Sound :=
      hp.step config (.propose value) trivial rfl
    have hs := tryAccept_settled hp₁ h
    exact ⟨fun _ => hs, fun _ _ => ⟨hs.quiet, fun _ => hs⟩⟩
  | handleAcceptorState state => exact ⟨fun ht => ht.elim, fun ht => absurd trivial ht⟩
  | checkTimeouts =>
    obtain ⟨out, hcheck, h⟩ := Except.bind_eq_ok.mp h
    cases out with
    | none => cases h
    | some c =>
      cases h
      -- retries change the times of instances only
      obtain ⟨hquiet, hcount⟩ := checkTimeouts_settled hp hcheck
      refine ⟨fun ht => ht.elim, fun _ hq => ⟨hquiet hq, fun hfull => ⟨hquiet hq, ?_⟩⟩⟩
      show window ≤ proposerPreparedCount c.proposer
      rw [hcount]
      exact hfull.resolve_left (by simp)
  | preexecOnce =>
    obtain ⟨s₁, hpre, h⟩ := Except.bind_eq_ok.mp h
    cases h
    refine ⟨fun ht => ht.elim, fun _ hq => ?_⟩
    have hs := proposerPreexecute_settled hq hpre
    exact ⟨hs.quiet, fun _ => hs⟩
  | setInstanceId iid => exact ⟨fun ht => ht.elim, fun ht => absurd trivial ht⟩
  | rehash tp ta =>
    simp only [evproposerHandle] at h
    split at h
    · next hperm =>
      cases h
      -- the order of a table does not matter for either
      have hlookup := AList.lookup_eq_of_perm hperm.1
      have hquiet : p.Quiet →
          ({ p with prepareInstances := tp, acceptInstances := ta } : Proposer).Quiet := by
        intro hq k inst hk hle
        refine hq k inst ((hlookup k).symm.trans hk) fun k' other hk' => ?_
        exact hle k' other ((hlookup k').trans hk')
      refine ⟨fun ht => ht.elim, fun _ hq => ⟨hquiet hq, fun hfull => ⟨hquiet hq, ?_⟩⟩⟩
      show window ≤ (tp.entries.length : Int)
      rw [hperm.1.length_eq]
      exact hfull.resolve_left (by simp)
    · cases h
      exact ⟨fun ht => ht.elim, fun _ hq => ⟨hq, fun hfull => ⟨hq, hfull.resolve_left (by simp)⟩⟩⟩

end Settled

/-! ## The handlers return

Every turn of `try_accept` takes an instance out of the first table, and every turn of the
pre-execution prepares one more id. The scan for timeouts ends by `Lib.Scan`. What is left to ask is
that there are ids to prepare. -/

/-- A window of instances can be prepared before the ids run out. -/
def Proposer.HasIds (window : Int) (p : Proposer) : Prop :=
  p.nextPrepareIid.toNat + window.toNat < 2 ^ 32

/-- The sender of an acknowledgement is one of the acceptors, ids do not run out, and the timeout is
positive. -/
def EvproposerEvent.InRange (config : PaxosConfig) (window : Int) (p : Proposer) :
    EvproposerEvent → Prop
  | .handlePromise ack => ack.aid.toNat < p.acceptors ∧ p.HasIds window
  | .handleAccepted ack => ack.aid.toNat < p.acceptors ∧ p.HasIds window
  | .handlePreempted _ => p.HasIds window
  | .handleClientValue _ => p.HasIds window
  | .handleAcceptorState _ => True
  | .checkTimeouts => 1 ≤ config.proposerTimeout
  | .preexecOnce => p.HasIds window
  | .setInstanceId _ => True
  | .rehash _ _ => True

section Returns

variable {config : PaxosConfig} {window : Int} (clock : Nat → Int) {s : Sending} {p p' : Proposer}

/-- A call for a message leaves the next id alone. -/
theorem ProposerMove.nextPrepareIid_eq {op : ProposerOp} {out : List PaxosMessage}
    (hm : ProposerMove p op p' out)
    (hop : op.message ≠ none ∨ op = .accept ∨ ∃ v, op = .propose v) :
    p'.nextPrepareIid = p.nextPrepareIid := by
  cases hm with
  | created hc =>
    rcases hc with ⟨rfl, -⟩ | ⟨rfl, -⟩ <;> simp [ProposerOp.message] at hop
  | trimmed hc =>
    rcases hc with ⟨rfl, -⟩ | ⟨state, rfl, -⟩ <;> simp [ProposerOp.message] at hop
  | _ => rfl

/-- A turn of `try_accept` returns, and there is another one if an instance has moved on. -/
theorem tryAcceptTurn_returns (hs : s.proposer.Sound) :
    (∃ s', tryAcceptTurn s = .ok (s', true) ∧ s'.proposer.Sound ∧
      s'.proposer.nextPrepareIid = s.proposer.nextPrepareIid ∧
      s'.proposer.prepareInstances.entries.length
        < s.proposer.prepareInstances.entries.length) ∨
    ∃ s', tryAcceptTurn s = .ok (s', false) ∧
      s'.proposer.Sound ∧ s'.proposer.nextPrepareIid = s.proposer.nextPrepareIid := by
  obtain ⟨⟨p, out⟩, haccept⟩ := proposerAccept_isOk hs.wellFormed hs.sequential
  have hstep : proposerStep {} s.proposer .accept = .ok (p, out.toList.map .accept) :=
    Except.bind_eq_ok.mpr ⟨_, haccept, rfl⟩
  have hp := hs.step {} .accept trivial hstep
  have hm := hs.move hstep
  have hnext := hm.nextPrepareIid_eq (.inr (.inl rfl))
  cases out with
  | none => exact .inr ⟨_, Except.bind_eq_ok.mpr ⟨_, haccept, rfl⟩, hp, hnext⟩
  | some accept =>
    refine .inl ⟨_, Except.bind_eq_ok.mpr ⟨_, haccept, rfl⟩, hp, hnext, ?_⟩
    cases hm with
    | accepting hk _ _ _ _ =>
      have hlen := (AList.entries_perm_cons_erase hk).length_eq
      rw [List.length_cons] at hlen
      exact Nat.lt_of_succ_le (Nat.le_of_eq hlen.symm)

theorem foldlM_preexecuteTurn_returns {is : List Nat} (hs : s.proposer.Sound)
    (hids : s.proposer.nextPrepareIid.toNat + is.length < 2 ^ 32) :
    ∃ s', is.foldlM (preexecuteTurn clock) s = .ok s' := by
  induction is generalizing s with
  | nil => exact ⟨s, rfl⟩
  | cons i is ih =>
    rw [List.length_cons] at hids
    -- the ids do not wrap in this turn
    have hadd : (s.proposer.nextPrepareIid + 1).toNat = s.proposer.nextPrepareIid.toNat + 1 := by
      rw [UInt32.toNat_add, UInt32.toNat_one, Nat.mod_eq_of_lt (by omega)]
    have hpos : 0 < s.proposer.nextPrepareIid + 1 := by
      rw [UInt32.lt_iff_toNat_lt, hadd]
      exact Nat.succ_pos _
    obtain ⟨⟨p, pr⟩, hprepare⟩ := proposerPrepare_isOk hs.sequential hpos (clock i)
    have hturn : preexecuteTurn clock s i
        = .ok { proposer := p, sent := s.sent ++ [.prepare pr] } :=
      Except.bind_eq_ok.mpr ⟨_, hprepare, rfl⟩
    have hnext : p.nextPrepareIid = s.proposer.nextPrepareIid + 1 := by
      obtain ⟨inst, -, h⟩ := Except.bind_eq_ok.mp hprepare
      obtain ⟨t, -, h⟩ := Except.bind_eq_ok.mp h
      cases h
      rfl
    have hp : p.Sound := hs.step {} (.prepare (clock i)) trivial
      (Except.bind_eq_ok.mpr ⟨_, hprepare, rfl⟩)
    obtain ⟨s', hrest⟩ := ih (s := { proposer := p, sent := s.sent ++ [.prepare pr] }) hp
      (by show p.nextPrepareIid.toNat + _ < _; rw [hnext, hadd]; omega)
    exact ⟨s', by rw [List.foldlM_cons]; exact Except.bind_eq_ok.mpr ⟨_, hturn, hrest⟩⟩

theorem proposerPreexecute_returns (hs : s.proposer.Sound) (hids : s.proposer.HasIds window) :
    ∃ s', proposerPreexecute window clock s = .ok s' := by
  unfold proposerPreexecute
  simp only
  split
  · exact ⟨s, rfl⟩
  · refine foldlM_preexecuteTurn_returns clock hs ?_
    rw [List.length_range]
    unfold HasIds at hids
    unfold proposerPreparedCount
    omega

/-- **`try_accept` returns**: every turn moves an instance to the second phase. -/
theorem tryAccept_returns (hs : s.proposer.Sound) (hids : s.proposer.HasIds window) :
    ∃ bound s', ∀ fuel ≥ bound, tryAccept window fuel clock s = .ok (some s') := by
  have hends : ∃ s₁, loop tryAcceptTurn (s.proposer.prepareInstances.entries.length + 1) s
      = .ok (some s₁) ∧ s₁.proposer.Sound ∧
        s₁.proposer.nextPrepareIid = s.proposer.nextPrepareIid := exists_loop_eq_some
    (I := fun t => t.proposer.Sound ∧ t.proposer.nextPrepareIid = s.proposer.nextPrepareIid)
    (Q := fun t => t.proposer.Sound ∧ t.proposer.nextPrepareIid = s.proposer.nextPrepareIid)
    (fun t => t.proposer.prepareInstances.entries.length)
    (by
      rintro t ⟨ht, hnext⟩
      obtain ⟨t', hturn, ht', hnext', hlt⟩ | ⟨t', hturn, ht', hnext'⟩ := tryAcceptTurn_returns ht
      · exact .inl ⟨t', hturn, ⟨ht', hnext'.trans hnext⟩, hlt⟩
      · exact .inr ⟨t', hturn, ht', hnext'.trans hnext⟩)
    s ⟨hs, rfl⟩
  obtain ⟨s₁, hloop, hs₁, hnext⟩ := hends
  have hids₁ : s₁.proposer.HasIds window := by
    unfold HasIds
    rw [hnext]
    exact hids
  obtain ⟨s', hpre⟩ := proposerPreexecute_returns clock hs₁ hids₁
  refine ⟨s.proposer.prepareInstances.entries.length + 1, s', fun fuel hle => ?_⟩
  exact Except.bind_eq_ok.mpr ⟨_, loop_mono hle hloop, Except.bind_eq_ok.mpr ⟨_, hpre, rfl⟩⟩

theorem checkTimeouts_mono {fuel fuel' : Nat} {now : Int} {c : Checking} (hle : fuel ≤ fuel')
    (h : evproposerCheckTimeouts config fuel now p = .ok (some c)) :
    evproposerCheckTimeouts config fuel' now p = .ok (some c) := by
  obtain ⟨out, hloop, h⟩ := Except.bind_eq_ok.mp h
  cases out with
  | none => cases h
  | some c₁ => exact Except.bind_eq_ok.mpr ⟨_, loop_mono hle hloop, loop_mono hle h⟩

/-- **A handler returns**, whatever bound it has on its loops as long as it is large enough. -/
theorem evproposerHandle_returns {ev : EvproposerEvent} (hp : p.Sound)
    (hev : ev.InRange config window p) :
    ∃ bound s, ∀ fuel ≥ bound, evproposerHandle config window fuel clock p ev = .ok (some s) := by
  -- `try_accept` after a call that leaves the next id alone
  have hrest : ∀ (op : ProposerOp) (q : Proposer) (out sent : List PaxosMessage)
      (clock' : Nat → Int), op.InOrder →
      (op.message ≠ none ∨ op = .accept ∨ ∃ v, op = .propose v) →
      proposerStep config p op = .ok (q, out) → p.HasIds window →
      ∃ bound s, ∀ fuel ≥ bound,
        tryAccept window fuel clock' { proposer := q, sent := sent } = .ok (some s) := by
    intro op q out sent clock' hop hkeep hstep hids
    refine tryAccept_returns clock' (s := { proposer := q, sent := sent })
      (hp.step config op hop hstep) ?_
    unfold HasIds
    rw [(hp.move hstep).nextPrepareIid_eq hkeep]
    exact hids
  cases ev with
  | handlePromise ack =>
    obtain ⟨⟨q, out⟩, hcall⟩ := proposerReceivePromise_isOk hp.wellFormed (clock 0) hev.1
    obtain ⟨bound, s, hs⟩ := hrest (.receivePromise (clock 0) ack) q _ (out.toList.map .prepare)
      (fun i => clock (i + 1)) trivial (.inl (by simp [ProposerOp.message]))
      (Except.bind_eq_ok.mpr ⟨_, hcall, rfl⟩) hev.2
    exact ⟨bound, s, fun fuel hle => Except.bind_eq_ok.mpr ⟨_, hcall, hs fuel hle⟩⟩
  | handleAccepted ack =>
    obtain ⟨⟨q, rv⟩, hcall⟩ := proposerReceiveAccepted_isOk hp.wellFormed hev.1
    obtain ⟨bound, s, hs⟩ := hrest (.receiveAccepted ack) q _ [] clock trivial
      (.inl (by simp [ProposerOp.message])) (Except.bind_eq_ok.mpr ⟨_, hcall, rfl⟩) hev.2
    by_cases hrv : rv ≠ 0
    · exact ⟨bound, s, fun fuel hle =>
        Except.bind_eq_ok.mpr ⟨_, hcall, (if_pos hrv).trans (hs fuel hle)⟩⟩
    · exact ⟨0, _, fun fuel _ => Except.bind_eq_ok.mpr ⟨_, hcall, if_neg hrv⟩⟩
  | handlePreempted ack =>
    obtain ⟨⟨q, out⟩, hcall⟩ :=
      proposerReceivePreempted_isOk hp.wellFormed hp.sequential (clock 0) ack
    obtain ⟨bound, s, hs⟩ := hrest (.receivePreempted (clock 0) ack) q _ (out.toList.map .prepare)
      (fun i => clock (i + 1)) trivial (.inl (by simp [ProposerOp.message]))
      (Except.bind_eq_ok.mpr ⟨_, hcall, rfl⟩) hev
    cases out with
    | some prepare =>
      exact ⟨bound, s, fun fuel hle => Except.bind_eq_ok.mpr ⟨_, hcall, hs fuel hle⟩⟩
    | none => exact ⟨0, _, fun fuel _ => Except.bind_eq_ok.mpr ⟨_, hcall, rfl⟩⟩
  | handleClientValue value =>
    exact hrest (.propose value) _ _ [] clock trivial (.inr (.inr ⟨value, rfl⟩)) rfl hev
  | handleAcceptorState state => exact ⟨0, _, fun fuel _ => rfl⟩
  | checkTimeouts =>
    have hends : ∃ bound c, evproposerCheckTimeouts config bound (clock 0) p = .ok (some c) := by
      obtain ⟨bound, c, hcheck, -⟩ :=
        exists_checkTimeouts_eq_some _ hev hp.wellFormed.proposed_ne_none
      exact ⟨bound, c, hcheck⟩
    obtain ⟨bound, c, hcheck⟩ := hends
    refine ⟨bound, c.sending, fun fuel hle => ?_⟩
    exact Except.bind_eq_ok.mpr ⟨some c, checkTimeouts_mono hle hcheck, rfl⟩
  | preexecOnce =>
    obtain ⟨s, hpre⟩ := proposerPreexecute_returns clock
      (s := { proposer := p, sent := [] }) hp hev
    exact ⟨0, s, fun fuel _ => Except.bind_eq_ok.mpr ⟨_, hpre, rfl⟩⟩
  | setInstanceId iid => exact ⟨0, _, fun fuel _ => rfl⟩
  | rehash tp ta =>
    simp only [evproposerHandle]
    split
    · exact ⟨0, _, fun fuel _ => rfl⟩
    · exact ⟨0, _, fun fuel _ => rfl⟩

end Returns

/-! ## Whole runs -/

section Runs

variable {config : PaxosConfig} {window : Int} {id : UInt32} {n : Nat} {r r' : LoggedProposer}

theorem EvproposerEvent.call_inOrder (ev : EvproposerEvent) (clock : Nat → Int) :
    ∀ op ∈ (ev.call clock).toList, op.InOrder := by
  cases ev with
  | checkTimeouts | preexecOnce => exact List.forall_mem_nil _
  | _ => exact List.forall_mem_singleton.mpr trivial

theorem LoggedProposer.reaches_of_calls {r₀ : LoggedProposer} {ops : List ProposerOp}
    (hr : Runs.Reaches (stepOption config) (fun _ op => op.InOrder) r₀ r)
    (hops : ∀ op ∈ ops, op.InOrder) (h : r.run config ops = .ok r') :
    Runs.Reaches (stepOption config) (fun _ op => op.InOrder) r₀ r' := by
  induction ops generalizing r with
  | nil =>
    cases h
    exact hr
  | cons op ops ih =>
    obtain ⟨r₁, hstep, h⟩ := Except.bind_eq_ok.mp h
    refine ih (.step hr (hops op List.mem_cons_self) (stepOption_of_step hstep)) ?_ h
    exact fun op hop => hops op (List.mem_cons_of_mem _ hop)

/-- A handler that returns is a run of calls in order. -/
theorem LoggedProposer.handle_run {c : EvproposerCall} (h : r.handle config window c = some r') :
    ∃ ops, (∀ op ∈ ops, op.Own) ∧ r.run config (c.op.toList ++ ops) = .ok r' := by
  obtain ⟨s, hs, rfl⟩ := handle_eq_some h
  exact evproposerHandle_run hs

theorem LoggedProposer.reaches_of_handle
    (hr : Runs.Reaches (handle config window) (fun _ _ => True) (.fresh id n) r) :
    Runs.Reaches (stepOption config) (fun _ op => op.InOrder) (.fresh id n) r := by
  refine hr.invariant .init fun _ hi _ h => ?_
  obtain ⟨ops, hown, hrun⟩ := handle_run h
  refine reaches_of_calls hi (List.forall_mem_append.mpr ⟨?_, fun op hop => ?_⟩) hrun
  · exact EvproposerEvent.call_inOrder _ _
  · exact (hown op hop).inOrder

theorem LoggedProposer.sound_of_handle
    (hr : Runs.Reaches (handle config window) (fun _ _ => True) (.fresh id n) r) :
    r.proposer.Sound := by
  refine invariant_of_reaches (I := fun r => r.proposer.Sound) (reaches_of_handle hr)
    (proposerNew_sound id n) ?_
  intro r r' op hp hop h
  obtain ⟨⟨p, out⟩, hstep, h⟩ := Except.bind_eq_ok.mp h
  cases h
  exact hp.step config op hop hstep

/-- **The handlers return, and keep to the order.** A proposer that is only driven by its handlers
is one that creates its instances in order, so all that holds of such runs holds of it; and in every
state each handler returns, without a failed assertion and whatever larger bound its loops have, if
the sender of an acknowledgement is an acceptor, the timeout is positive and the ids do not run
out. -/
theorem evproposer_returns (config : PaxosConfig) (window : Int) (id : UInt32) (n : Nat)
    (r : LoggedProposer)
    (hr : Runs.Reaches (LoggedProposer.handle config window) (fun _ _ => True) (.fresh id n) r) :
    Runs.Reaches (LoggedProposer.stepOption config) (fun _ op => op.InOrder) (.fresh id n) r ∧
      ∀ ev, EvproposerEvent.InRange config window r.proposer ev → ∀ clock : Nat → Int,
        ∃ bound s, ∀ fuel ≥ bound,
          evproposerHandle config window fuel clock r.proposer ev = .ok (some s) :=
  ⟨LoggedProposer.reaches_of_handle hr, fun _ hev clock =>
    evproposerHandle_returns clock (LoggedProposer.sound_of_handle hr) hev⟩

/-- A handler called at the time 0. -/
def callAt (event : EvproposerEvent) : EvproposerCall where
  fuel := 8
  clock _ := 0
  event := event

/-- Two instances are prepared, a value comes in, and two of three acceptors promise the first. -/
def promisedOnce : List EvproposerCall :=
  [callAt .preexecOnce, callAt (.handleClientValue [7]),
    callAt (.handlePromise { iid := 1, ballot := 10, aid := 0 }),
    callAt (.handlePromise { iid := 1, ballot := 10, aid := 2 })]

theorem evproposer_returns_promised :
    ∃ r : LoggedProposer, r.emitted =
        [.prepare { iid := 3, ballot := 10 },
          .accept { iid := 1, ballot := 10, valueBallot := 10, value := [7] },
          .prepare { iid := 2, ballot := 10 }, .prepare { iid := 1, ballot := 10 }] ∧
      ∃ bound s, ∀ fuel ≥ bound, evproposerHandle {} 2 fuel (fun _ => 0) r.proposer
        (.handleAccepted { iid := 1, ballot := 10, aid := 1, value := [7] }) = .ok (some s) := by
  obtain ⟨r, hr, hs⟩ := Runs.exists_reaches_of_run (LoggedProposer.handle {} 2)
    (fun _ _ => True) (.fresh 0 3) promisedOnce
    (fun r => r.emitted = [.prepare { iid := 3, ballot := 10 },
        .accept { iid := 1, ballot := 10, valueBallot := 10, value := [7] },
        .prepare { iid := 2, ballot := 10 }, .prepare { iid := 1, ballot := 10 }] ∧
      r.proposer.acceptors = 3 ∧ r.proposer.nextPrepareIid = 3) (by decide +kernel)
  obtain ⟨hemitted, hacceptors, hnext⟩ := of_decide_eq_true hs
  have hrange : EvproposerEvent.InRange {} 2 r.proposer
      (.handleAccepted { iid := 1, ballot := 10, aid := 1, value := [7] }) := by
    refine ⟨?_, ?_⟩
    · rw [hacceptors]
      decide
    · unfold HasIds
      rw [hnext]
      decide
  exact ⟨r, hemitted, (evproposer_returns {} 2 0 3 r hr).2 _ hrange _⟩

/-- **Between two events nothing is left undone.** From the start-up, or from a promise or a client
value on, as long as no trim point is heard of: `proposer_accept` has nothing to do, so that a value
waits only for promises, and `preexec_window` instances are waiting for promises. -/
theorem evproposer_leaves_nothing (config : PaxosConfig) (window : Int) (id : UInt32) (n : Nat)
    (r₀ r₁ r : LoggedProposer) (c : EvproposerCall)
    (hr₀ : Runs.Reaches (LoggedProposer.handle config window) (fun _ _ => True) (.fresh id n) r₀)
    (hc : r₀.handle config window c = some r₁)
    (hstart : c.event.Tries ∨ r₀ = .fresh id n ∧ c.event = .preexecOnce)
    (hr : Runs.Reaches (LoggedProposer.handle config window) (fun _ c => ¬ c.event.Trims) r₁ r) :
    proposerAccept r.proposer = .ok (r.proposer, none) ∧
      window ≤ proposerPreparedCount r.proposer := by
  have hr₁ := Runs.Reaches.step hr₀ trivial hc
  have hsettled₁ : r₁.proposer.Settled window := by
    obtain ⟨s, hs, rfl⟩ := LoggedProposer.handle_eq_some hc
    obtain ⟨htries, hkeeps⟩ := evproposerHandle_settled (LoggedProposer.sound_of_handle hr₀) hs
    rcases hstart with htry | ⟨rfl, hpre⟩
    · exact htries htry
    · have hquiet : (LoggedProposer.fresh id n).proposer.Quiet := quiet_new id n
      exact (hkeeps (by rw [hpre]; exact fun h => h.elim) hquiet).2 (.inl hpre)
  have hsettled : r.proposer.Settled window := by
    refine hr.invariant (I := fun r => r.proposer.Settled window) hsettled₁ ?_
    intro r r' c hr hi hc h
    have hreached := hr₁.trans (hr.mono fun _ _ _ => trivial)
    obtain ⟨s, hs, rfl⟩ := LoggedProposer.handle_eq_some h
    obtain ⟨-, hkeeps⟩ := evproposerHandle_settled (LoggedProposer.sound_of_handle hreached) hs
    exact (hkeeps hc hi.quiet).2 (.inr hi.full)
  exact ⟨hsettled.quiet.accept, hsettled.full⟩

end Runs

instance : DecidablePred EvproposerEvent.Trims
  | .handleAcceptorState _ | .setInstanceId _ => instDecidableTrue
  | .handlePromise _ | .handleAccepted _ | .handlePreempted _ | .handleClientValue _
  | .checkTimeouts | .preexecOnce | .rehash _ _ => instDecidableFalse

/-- Two values come in after the start-up; one of them waits for promises. -/
theorem evproposer_leaves_nothing_waiting :
    ∃ r : LoggedProposer, r.proposer.values = [[8]] ∧
      proposerAccept r.proposer = .ok (r.proposer, none) ∧
      2 ≤ proposerPreparedCount r.proposer := by
  have hruns : (((LoggedProposer.fresh 0 3).handle {} 2 (callAt .preexecOnce)).any fun r₁ =>
      (Runs.run (LoggedProposer.handle {} 2) (fun _ c => ¬ c.event.Trims) r₁
        (promisedOnce.tail ++ [callAt (.handleClientValue [8]), callAt .checkTimeouts])).any
          fun r => r.proposer.values = [[8]]) = true := by decide +kernel
  obtain ⟨r₁, hc, hrun⟩ := (Option.any_eq_true _ _).mp hruns
  obtain ⟨r, hr, hvalues⟩ := (Option.any_eq_true _ _).mp hrun
  exact ⟨r, of_decide_eq_true hvalues, evproposer_leaves_nothing {} 2 0 3 _ r₁ r
    (callAt .preexecOnce) .init hc (.inr ⟨rfl, rfl⟩) (Runs.reaches_of_run hr)⟩

end LibPaxos
