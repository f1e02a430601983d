import LibPaxos.ProposerTables

/-!
# The order of client values

A proposer attaches the value at the front of its queue to the smallest instance that waits for
promises. Preempted instances come back to that table with their value, so the smallest instance may
be an old one; what keeps the order is that every instance below one without a value has its own.

The condition `Alone` stands for a proposer without rivals: promises report no values, or the own
value of the instance they are for.

* **`submission_order_is_instance_order`** — the values attached so far, in the order of their
  instances, followed by the queue are the values submitted.
-/

namespace LibPaxos

open Proposer

/-! ## The smallest instance

The loop of `proposer_accept` over the table keeps the smallest id it has met. -/

/-- A fold that at each entry keeps what it has or takes the entry, whichever has the smaller key,
ends with a key up to all that it has seen. -/
theorem foldl_pick_le {α β : Type} {f : Option β → α → Option β} {g : α → β}
    (key : β → UInt32) (hf : ∀ acc e, ∃ y, f acc e = some y ∧ key y ≤ key (g e) ∧
      ∀ i, acc = some i → key y ≤ key i) :
    ∀ (es : List α) (acc : Option β) {x : β}, es.foldl f acc = some x →
      (∀ i, acc = some i → key x ≤ key i) ∧ ∀ e ∈ es, key x ≤ key (g e) := by
  intro es
  induction es with
  | nil =>
    intro acc x h
    refine ⟨fun i hi => ?_, fun e he => by cases he⟩
    obtain rfl := Option.some.inj (h.symm.trans hi)
    exact UInt32.le_refl _
  | cons e es ih =>
    intro acc x h
    rw [List.foldl_cons] at h
    obtain ⟨hacc, hes⟩ := ih _ h
    obtain ⟨y, hy, hye, hyacc⟩ := hf acc e
    have hxy := hacc y hy
    refine ⟨fun i hi => UInt32.le_trans hxy (hyacc i hi), fun e' he' => ?_⟩
    rcases List.mem_cons.mp he' with rfl | hold
    · exact UInt32.le_trans hxy hye
    · exact hes e' hold

/-- The loop of `proposer_accept` returns an instance with the smallest id. -/
theorem smallestInstance_le {h : KHash Instance} {inst : Instance}
    (hs : smallestInstance h = some inst) : h.All fun _ other => inst.iid ≤ other.iid := by
  intro k other hk
  have hpick := foldl_pick_le (g := fun e : Sigma fun _ : UInt32 => Instance => e.2)
    Instance.iid ?_ h.entries none hs
  · exact hpick.2 ⟨k, other⟩ (AList.mem_entries_iff.mpr hk)
  · intro acc e
    cases acc with
    | none => exact ⟨e.2, rfl, UInt32.le_refl _, fun i hi => by cases hi⟩
    | some i =>
      simp only
      split
      · rename_i hgt
        refine ⟨e.2, rfl, UInt32.le_refl _, fun i' hi' => ?_⟩
        obtain rfl := Option.some.inj hi'
        exact UInt32.le_of_lt hgt
      · rename_i hle
        refine ⟨i, rfl, UInt32.not_lt.mp hle, fun i' hi' => ?_⟩
        obtain rfl := Option.some.inj hi'
        exact UInt32.le_refl _

/-- An accept request is for the smallest instance. -/
theorem proposerAccept_smallest {config : PaxosConfig} {p p' : Proposer} {out : List PaxosMessage}
    (h : proposerStep config p .accept = .ok (p', out)) :
    ∀ a ∈ acceptsOf out, p.prepareInstances.All fun _ other => a.iid ≤ other.iid := by
  obtain ⟨⟨p₁, o⟩, hc, h⟩ := Except.bind_eq_ok.mp h
  cases h
  unfold proposerAccept at hc
  split at hc
  · cases hc
    intro a ha
    cases ha
  · rename_i inst hs
    split at hc
    · cases hc
      intro a ha
      cases ha
    · simp only at hc
      split at hc
      · cases hc
        intro a ha
        cases ha
      -- the one branch that asks for an accept
      · obtain ⟨⟨f, t⟩, -, hc⟩ := Except.bind_eq_ok.mp hc
        obtain ⟨acc, hacc, hc⟩ := Except.bind_eq_ok.mp hc
        obtain ⟨v, -, rfl⟩ := instanceToAccept_ok hacc
        cases hc
        intro a ha
        obtain rfl := List.mem_singleton.mp ha
        exact smallestInstance_le hs

/-! ## Attached values

The value that a call attaches, if it attaches one, and that all other calls leave the own values of
instances as they are. Only `proposer_accept` attaches a value, to the instance it takes. -/

/-- The own value of the instance pending under an id, if there is one and it has a value. -/
def Proposer.ownValue (p : Proposer) (k : UInt32) : Option PaxosValue :=
  (p.prepareInstances.lookup k).bind (·.value) <|> (p.acceptInstances.lookup k).bind (·.value)

/-- The own values that pending instances have after a call and did not have before. -/
def attachedBy (p p' : Proposer) : List (UInt32 × PaxosValue) :=
  (p'.acceptInstances.entries ++ p'.prepareInstances.entries).filterMap fun e =>
    if p.ownValue e.1 = none then e.2.value.map (e.1, ·) else none

section Attached

variable {p p' : Proposer} {op : ProposerOp} {out : List PaxosMessage}

theorem Proposer.ownValue_ne_none {k : UInt32} {inst : Instance} {v : PaxosValue}
    (hk : p.PendingAt k inst) (hv : inst.value = some v) : p.ownValue k ≠ none := by
  unfold ownValue
  rcases hk with hk | hk
  · rw [hk, Option.bind_some, hv]
    simp
  · rw [hk, Option.bind_some, hv]
    simp

theorem Proposer.pendingAt_of_ownValue {k : UInt32} {v : PaxosValue} (h : p.ownValue k = some v) :
    ∃ inst, p.PendingAt k inst ∧ inst.value = some v := by
  unfold ownValue at h
  cases hp : (p.prepareInstances.lookup k).bind (·.value) with
  | some w =>
    rw [hp] at h
    obtain ⟨inst, hk, hv⟩ := Option.bind_eq_some_iff.mp hp
    exact ⟨inst, .inl hk, hv.trans h⟩
  | none =>
    rw [hp] at h
    obtain ⟨inst, hk, hv⟩ := Option.bind_eq_some_iff.mp h
    exact ⟨inst, .inr hk, hv⟩

/-- No value is attached if every own value was one before. -/
theorem filterMap_own_eq_nil {es : List (Sigma fun _ : UInt32 => Instance)}
    (h : ∀ e ∈ es, ∀ v, e.2.value = some v → p.ownValue e.1 ≠ none) :
    (es.filterMap fun e =>
      if p.ownValue e.1 = none then e.2.value.map (e.1, ·) else none) = [] := by
  rw [List.filterMap_eq_nil_iff]
  intro e he
  cases hv : e.2.value with
  | none => simp
  | some v => rw [if_neg (h e he v hv)]

/-- Only an accept request attaches a value: after any other call every own value was there
before. -/
theorem ProposerMove.own_kept (hm : ProposerMove p op p' out) (hop : op ≠ .accept ∨ out = [])
    {k : UInt32} {inst : Instance} (hk : p'.PendingAt k inst) {v : PaxosValue}
    (hv : inst.value = some v) : p.ownValue k ≠ none := by
  -- an instance that was overwritten had the same own value
  have hcell : ∀ {h : KHash Instance} {k₀ : UInt32} {x y : Instance}, h.lookup k₀ = some x →
      (h.replace k₀ y).lookup k = some inst → y.value = x.value →
      (∀ x', h.lookup k = some x' → p.PendingAt k x') → p.ownValue k ≠ none := by
    intro h k₀ x y hx hlook hxy hpend
    rcases AList.of_lookup_replace hx hlook with ⟨rfl, rfl⟩ | ⟨-, hold⟩
    · exact ownValue_ne_none (hpend x hx) (hxy ▸ hv)
    · exact ownValue_ne_none (hpend inst hold) hv
  cases hm with
  | idle | heard | queued => exact ownValue_ne_none hk hv
  | created _ _ _ =>
    rcases hk with hk | hk
    · rcases AList.of_lookup_insert hk with ⟨rfl, rfl⟩ | ⟨-, hold⟩
      · cases hv
      · exact ownValue_ne_none (.inl hold) hv
    · exact ownValue_ne_none (.inr hk) hv
  | preempted hk' _ =>
    rcases hk with hk | hk
    · exact hcell hk' hk rfl fun _ => .inl
    · exact ownValue_ne_none (.inr hk) hv
  | promised hk' _ _ =>
    rcases hk with hk | hk
    · exact hcell hk' hk (adoptPromise_value _ _) fun _ => .inl
    · exact ownValue_ne_none (.inr hk) hv
  | accepting =>
    rcases hop with hop | hop
    · exact absurd rfl hop
    · cases hop
  | acked hk' _ _ _ =>
    rcases hk with hk | hk
    · exact ownValue_ne_none (.inl hk) hv
    · exact hcell hk' hk rfl fun _ => .inr
  | closed =>
    rcases hk with hk | hk
    · exact ownValue_ne_none (.inl hk) hv
    · exact ownValue_ne_none (.inr (AList.of_lookup_erase hk).2) hv
  | @demoted now ack x hk' _ _ _ =>
    rcases hk with hk | hk
    · rcases AList.of_lookup_insert hk with ⟨rfl, rfl⟩ | ⟨-, hold⟩
      · exact @ownValue_ne_none p _ x v (.inr hk') hv
      · exact ownValue_ne_none (.inl hold) hv
    · exact ownValue_ne_none (.inr (AList.of_lookup_erase hk).2) hv
  | trimmed =>
    rcases hk with hk | hk
    · exact ownValue_ne_none (.inl (AList.lookup_filter_eq_some.mp hk).1) hv
    · exact ownValue_ne_none (.inr (AList.lookup_filter_eq_some.mp hk).1) hv
  | retriedPrepare hk' =>
    rcases hk with hk | hk
    · exact hcell hk' hk rfl fun _ => .inl
    · exact ownValue_ne_none (.inr hk) hv
  | retriedAccept hk' _ =>
    rcases hk with hk | hk
    · exact ownValue_ne_none (.inl hk) hv
    · exact hcell hk' hk rfl fun _ => .inr
  | rehashed hpp hpa =>
    rcases hk with hk | hk
    · exact ownValue_ne_none (.inl ((AList.lookup_eq_of_perm hpp k).symm.trans hk)) hv
    · exact ownValue_ne_none (.inr ((AList.lookup_eq_of_perm hpa k).symm.trans hk)) hv

theorem ProposerMove.attachedBy_eq_nil (hm : ProposerMove p op p' out)
    (hop : op ≠ .accept ∨ out = []) : attachedBy p p' = [] := by
  refine filterMap_own_eq_nil fun e he v hv => hm.own_kept hop ?_ hv
  rcases List.mem_append.mp he with he | he
  · exact .inr (AList.mem_entries_iff.mp he)
  · exact .inl (AList.mem_entries_iff.mp he)

/-- An accept request attaches the value to its instance, if that had none. -/
theorem attachedBy_accepting {inst : Instance} {value : Option PaxosValue}
    {values : List PaxosValue} (inst' : Instance) (hvalue : inst'.value = value) :
    attachedBy p
        { p with
          values := values
          prepareInstances := p.prepareInstances.erase inst.iid
          acceptInstances := p.acceptInstances.insert inst.iid inst' }
      = if p.ownValue inst.iid = none then value.toList.map (inst.iid, ·) else [] := by
  have hrest : (((p.acceptInstances.erase inst.iid).entries ++
      (p.prepareInstances.erase inst.iid).entries).filterMap fun e =>
        if p.ownValue e.1 = none then e.2.value.map (e.1, ·) else none) = [] := by
    refine filterMap_own_eq_nil fun e he v hv => ?_
    rcases List.mem_append.mp he with he | he
    · exact ownValue_ne_none (.inr (AList.of_lookup_erase (AList.mem_entries_iff.mp he)).2) hv
    · exact ownValue_ne_none (.inl (AList.of_lookup_erase (AList.mem_entries_iff.mp he)).2) hv
  have hcons : (p.acceptInstances.insert inst.iid inst').entries
      = ⟨inst.iid, inst'⟩ :: (p.acceptInstances.erase inst.iid).entries := rfl
  unfold attachedBy
  rw [hcons, List.cons_append, List.filterMap_cons]
  simp only [hvalue, hrest]
  split <;> cases value <;> simp_all

end Attached

/-! ## The invariant

Instances without a value are above all that have got one, so the smallest one that waits is either
an old instance with its own value, or the first of those without. In both cases the front of the
queue, if it is used at all, goes to the next id. -/

/-- An instance without an own value has no promised one either, and its id is ahead of those that
values were attached to. -/
def Proposer.Instance.Blank (attached : List (UInt32 × PaxosValue)) (k : UInt32)
    (inst : Instance) : Prop :=
  inst.value = none ∧ inst.promisedValue = none ∧ ∀ a ∈ attached, a.1 < k

/-- An instance with an own value that was attached to it, and no other promised value. -/
def Proposer.Instance.Owned (attached : List (UInt32 × PaxosValue)) (k : UInt32)
    (inst : Instance) : Prop :=
  ∃ v, inst.value = some v ∧ (k, v) ∈ attached ∧ ∀ w ∈ inst.promisedValue, w = v

/-- The values attached so far and the queue are what was submitted, newest first. -/
structure Proposer.InSubmissionOrder (p : Proposer) (attached : List (UInt32 × PaxosValue))
    (submitted : List PaxosValue) : Prop where
  queue : p.values.reverse ++ attached.map Prod.snd = submitted
  sorted : (attached.map Prod.fst).Pairwise (· > ·)
  bounded : ∀ a ∈ attached, a.1 ≤ p.nextPrepareIid
  prepare : p.prepareInstances.All fun k inst => inst.Blank attached k ∨ inst.Owned attached k
  accept : p.acceptInstances.All fun k inst => inst.Owned attached k

/-- What a proposer hears while it is alone: promises report no value, or one that was attached to
their instance. It is not told about ids by name. -/
def Alone (attached : List (UInt32 × PaxosValue)) : ProposerOp → Prop
  | .receivePromise _ ack => ack.value = [] ∨ (ack.iid, ack.value) ∈ attached
  | .prepareInstance _ _ => False
  | .receiveAcceptorState _ => False
  | .setInstanceId _ => False
  | _ => True

theorem Alone.inOrder {attached : List (UInt32 × PaxosValue)} {op : ProposerOp}
    (h : Alone attached op) : op.InOrder := by
  cases op with
  | prepareInstance => exact h
  | _ => trivial

section Order

variable {attached : List (UInt32 × PaxosValue)} {submitted : List PaxosValue}
  {p p' : Proposer} {op : ProposerOp} {out : List PaxosMessage} {k : UInt32} {inst : Instance}

theorem Proposer.inSubmissionOrder_new (id : UInt32) (n : Nat) :
    (proposerNew id n).InSubmissionOrder [] [] where
  queue := rfl
  sorted := .nil
  bounded a ha := by cases ha
  prepare := AList.all_empty
  accept := AList.all_empty

/-- Ids have one value each. -/
theorem Proposer.InSubmissionOrder.unique (hi : p.InSubmissionOrder attached submitted)
    {v w : PaxosValue} (hv : (k, v) ∈ attached) (hw : (k, w) ∈ attached) : v = w := by
  have hnodup : (attached.map Prod.fst).Nodup := by
    refine List.Pairwise.imp ?_ hi.sorted
    rintro a b hgt rfl
    exact UInt32.lt_irrefl a hgt
  exact congrArg Prod.snd (List.inj_on_of_nodup_map hnodup hv hw rfl)

/-- The promised value of an owned instance stays its own one. -/
theorem Proposer.Instance.Owned.preempt (h : inst.Owned attached k) (now : Int) (p : Proposer) :
    (proposerPreempt now p inst).Owned attached k := by
  obtain ⟨v, hv, hmem, -⟩ := h
  exact ⟨v, hv, hmem, fun w hw => by cases hw⟩

theorem Proposer.Instance.Owned.mono {attached' : List (UInt32 × PaxosValue)}
    (h : inst.Owned attached k) (hsub : attached ⊆ attached') : inst.Owned attached' k := by
  obtain ⟨v, hv, hmem, hw⟩ := h
  exact ⟨v, hv, hsub hmem, hw⟩

/-- A promise that reports no foreign value changes neither kind of instance. -/
theorem Proposer.InSubmissionOrder.adoptPromise (hi : p.InSubmissionOrder attached submitted)
    {now : Int} {ack : PaxosPromise} (hop : Alone attached (.receivePromise now ack))
    (h : inst.Blank attached ack.iid ∨ inst.Owned attached ack.iid) :
    (adoptPromise inst ack).Blank attached ack.iid ∨
      (adoptPromise inst ack).Owned attached ack.iid := by
  unfold LibPaxos.adoptPromise
  split
  · rename_i hnew
    have hack : (ack.iid, ack.value) ∈ attached := by
      rcases hop with hnil | hmem
      · rw [hnil] at hnew
        exact absurd hnew.1 (Nat.lt_irrefl 0)
      · exact hmem
    rcases h with ⟨-, -, hlt⟩ | ⟨v, hv, hmem, -⟩
    · exact absurd (hlt _ hack) (UInt32.lt_irrefl _)
    · refine .inr ⟨v, hv, hmem, fun w hw => ?_⟩
      obtain rfl := Option.some.inj hw
      exact hi.unique hack hmem
  · exact h

/-- An owned instance closes with its own value. -/
theorem requeueOnClose_owned (h : inst.Owned attached k) (values : List PaxosValue) :
    requeueOnClose values inst = values := by
  obtain ⟨v, hv, -, hpromised⟩ := h
  unfold requeueOnClose
  rw [hv]
  cases hw : inst.promisedValue with
  | none => rfl
  | some w =>
    obtain rfl := hpromised w hw
    exact if_neg (not_not.mpr rfl)

/-- **The front of the queue goes to the smallest instance.** -/
theorem Proposer.InSubmissionOrder.accepting (hi : p.InSubmissionOrder attached submitted)
    (hw : p.WellFormed) (hs : p.Sequential) {value : Option PaxosValue} {values : List PaxosValue}
    {v : PaxosValue} (hk : p.prepareInstances.lookup inst.iid = some inst)
    (hnew : p.acceptInstances.lookup inst.iid = none)
    (ht : takeValue p.values inst = (value, values))
    (hv : ({ inst with value := value } : Instance).proposed = some v)
    (hmin : p.prepareInstances.All fun _ other => inst.iid ≤ other.iid) :
    let p' : Proposer :=
      { p with
        values := values
        prepareInstances := p.prepareInstances.erase inst.iid
        acceptInstances := p.acceptInstances.insert inst.iid
          { inst with value := value, quorum := quorumClear inst.quorum } }
    p'.InSubmissionOrder (attachedBy p p' ++ attached) submitted := by
  intro p'
  have hatt : attachedBy p p' = _ := attachedBy_accepting _ rfl
  rcases hi.prepare _ _ hk with ⟨hnone, hpromised, hlt⟩ | ⟨w, hvalue, hmem, hw'⟩
  · -- a new value: the front of the queue
    have hown : p.ownValue inst.iid = none := by
      unfold ownValue
      rw [hk, hnew, Option.bind_some, hnone]
      rfl
    obtain ⟨hvalue, hvalues⟩ : value = some v ∧ p.values = v :: values := by
      unfold takeValue at ht
      rw [hnone] at ht
      cases ht
      unfold Instance.proposed at hv
      simp only [hpromised] at hv
      have hhead : p.values.head? = some v := hv
      exact ⟨hhead, (List.cons_head?_tail hhead).symm⟩
    rw [if_pos hown, hvalue] at hatt
    rw [hatt]
    refine ⟨?_, ?_, ?_, ?_, ?_⟩
    · -- the value moves from the queue to the attached ones
      rw [← hi.queue, hvalues]
      simp [p']
    · refine List.pairwise_cons.mpr ⟨fun a ha => ?_, hi.sorted⟩
      obtain ⟨b, hb, rfl⟩ := List.mem_map.mp ha
      exact hlt b hb
    · intro a ha
      rcases List.mem_cons.mp ha with rfl | hold
      · exact hs.prepare _ _ hk
      · exact hi.bounded a hold
    · intro k' x hx
      obtain ⟨hne, hold⟩ := AList.of_lookup_erase hx
      rcases hi.prepare k' x hold with ⟨h₁, h₂, h₃⟩ | howned
      · refine .inl ⟨h₁, h₂, fun a ha => ?_⟩
        rcases List.mem_cons.mp ha with rfl | ha
        · -- the other instances without a value are ahead of the smallest one
          have hle : inst.iid ≤ k' := by
            rw [← (hw.prepare k' x hold).1]
            exact hmin k' x hold
          exact UInt32.lt_of_le_of_ne hle (Ne.symm hne)
        · exact h₃ a ha
      · exact .inr (howned.mono (List.subset_cons_self _ _))
    · refine AList.All.insert ?_ ⟨v, hvalue, List.mem_cons_self, fun w hw => ?_⟩
      · exact hi.accept.mono fun _ _ h => h.mono (List.subset_cons_self _ _)
      · exact absurd (hpromised.symm.trans hw) (by simp)
  · -- the instance has its value already
    have hown : p.ownValue inst.iid ≠ none := ownValue_ne_none (.inl hk) hvalue
    obtain ⟨rfl, rfl⟩ : some w = value ∧ p.values = values := by
      unfold takeValue at ht
      rw [hvalue] at ht
      cases ht
      exact ⟨rfl, rfl⟩
    rw [if_neg hown] at hatt
    rw [hatt]
    exact ⟨hi.queue, hi.sorted, hi.bounded, hi.prepare.erase _,
      hi.accept.insert ⟨w, rfl, hmem, hw'⟩⟩

/-- **Every call keeps the order.** -/
theorem Proposer.InSubmissionOrder.move (hi : p.InSubmissionOrder attached submitted)
    (hw : p.WellFormed) (hs : p.Sequential) (hop : Alone attached op)
    (hmin : op = .accept → ∀ a ∈ acceptsOf out,
      p.prepareInstances.All fun _ other => a.iid ≤ other.iid)
    (hm : ProposerMove p op p' out) :
    p'.InSubmissionOrder (attachedBy p p' ++ attached) (submittedBy op ++ submitted) := by
  have hmove := hm
  cases hm with
  | @idle op hsub _ =>
    rw [hmove.attachedBy_eq_nil (.inr rfl), hsub]
    exact hi
  | heard => exact hop.elim
  | queued =>
    rw [hmove.attachedBy_eq_nil (.inr rfl)]
    refine ⟨?_, hi.sorted, hi.bounded, hi.prepare, hi.accept⟩
    rw [← hi.queue]
    simp [submittedBy]
  | created hc hpos hnew =>
    rcases hc with ⟨rfl, rfl, rfl⟩ | ⟨rfl, rfl⟩
    · rw [hmove.attachedBy_eq_nil (.inl (by simp))]
      -- the new instance is beyond all that have a value
      have hlt := lt_add_one_of_pos hpos
      refine ⟨hi.queue, hi.sorted, fun a ha => ?_, hi.prepare.insert ?_, hi.accept⟩
      · exact UInt32.le_trans (hi.bounded a ha) (UInt32.le_of_lt hlt)
      · exact .inl ⟨rfl, rfl, fun a ha => UInt32.lt_of_le_of_lt (hi.bounded a ha) hlt⟩
    · exact hop.elim
  | preempted hk hc =>
    rcases hc with ⟨ack, rfl, -, -⟩ | rfl
    · rw [hmove.attachedBy_eq_nil (.inl (by simp))]
      refine ⟨hi.queue, hi.sorted, hi.bounded, ?_, hi.accept⟩
      refine hi.prepare.replace (AList.mem_of_lookup hk) ?_
      rcases hi.prepare _ _ hk with ⟨h₁, -, h₃⟩ | howned
      · exact .inl ⟨h₁, rfl, h₃⟩
      · exact .inr (howned.preempt _ _)
    · exact hop.elim
  | promised hk _ _ =>
    rw [hmove.attachedBy_eq_nil (.inr rfl)]
    have h := hi.prepare _ _ hk
    -- a value that the promise carries is the instance's own
    refine ⟨hi.queue, hi.sorted, hi.bounded, ?_, hi.accept⟩
    exact hi.prepare.replace (AList.mem_of_lookup hk) (hi.adoptPromise hop h)
  | accepting hk _ hnew ht hv =>
    exact hi.accepting hw hs hk hnew ht hv (hmin rfl _ List.mem_cons_self)
  | acked hk _ _ _ =>
    rw [hmove.attachedBy_eq_nil (.inr rfl)]
    have h := hi.accept _ _ hk
    exact ⟨hi.queue, hi.sorted, hi.bounded, hi.prepare,
      hi.accept.replace (AList.mem_of_lookup hk) h⟩
  | closed hk _ _ _ =>
    rw [hmove.attachedBy_eq_nil (.inr rfl)]
    -- the value that was closed is the own one, so nothing goes back to the queue
    refine ⟨?_, hi.sorted, hi.bounded, hi.prepare, hi.accept.erase _⟩
    show (requeueOnClose p.values _).reverse ++ _ = _
    rw [requeueOnClose_owned (hi.accept _ _ hk)]
    exact hi.queue
  | demoted hk _ _ _ =>
    rw [hmove.attachedBy_eq_nil (.inl (by simp))]
    exact ⟨hi.queue, hi.sorted, hi.bounded,
      hi.prepare.insert (.inr ((hi.accept _ _ hk).preempt _ _)), hi.accept.erase _⟩
  | trimmed hc _ =>
    rcases hc with ⟨rfl, -⟩ | ⟨state, rfl, -, -⟩
    · exact hop.elim
    · exact hop.elim
  | retriedPrepare hk =>
    rw [hmove.attachedBy_eq_nil (.inl (by simp))]
    have h := hi.prepare _ _ hk
    exact ⟨hi.queue, hi.sorted, hi.bounded,
      hi.prepare.replace (AList.mem_of_lookup hk) h, hi.accept⟩
  | retriedAccept hk _ =>
    rw [hmove.attachedBy_eq_nil (.inl (by simp))]
    have h := hi.accept _ _ hk
    exact ⟨hi.queue, hi.sorted, hi.bounded, hi.prepare,
      hi.accept.replace (AList.mem_of_lookup hk) h⟩
  | rehashed hpp hpa =>
    rw [hmove.attachedBy_eq_nil (.inr rfl)]
    exact ⟨hi.queue, hi.sorted, hi.bounded, hi.prepare.of_perm hpp, hi.accept.of_perm hpa⟩

end Order

/-! ## Whole runs -/

/-- A proposer with the values attached to its instances so far, newest first. -/
structure AttachingProposer where
  logged : LoggedProposer
  attached : List (UInt32 × PaxosValue)

namespace AttachingProposer

/-- A fresh proposer. -/
def fresh (id : UInt32) (n : Nat) : AttachingProposer where
  logged := .fresh id n
  attached := []

/-- One call that returns. -/
def step (config : PaxosConfig) (s : AttachingProposer) (op : ProposerOp) :
    Option AttachingProposer :=
  (s.logged.stepOption config op).map fun r =>
    { logged := r, attached := attachedBy s.logged.proposer r.proposer ++ s.attached }

/-- What every call keeps. -/
structure Inv (s : AttachingProposer) : Prop where
  wellFormed : s.logged.proposer.WellFormed
  sequential : s.logged.proposer.Sequential
  order : s.logged.proposer.InSubmissionOrder s.attached s.logged.submitted

theorem inv_fresh (id : UInt32) (n : Nat) : (fresh id n).Inv where
  wellFormed := proposerNew_wellFormed id n
  sequential := proposerNew_sequential id n
  order := inSubmissionOrder_new id n

theorem Inv.step {config : PaxosConfig} {s s' : AttachingProposer} {op : ProposerOp} (hi : s.Inv)
    (hop : Alone s.attached op) (h : s.step config op = some s') : s'.Inv := by
  obtain ⟨r, hr, rfl⟩ := Option.map_eq_some_iff.mp h
  obtain ⟨⟨p, out⟩, hs, hr⟩ := Except.bind_eq_ok.mp (LoggedProposer.stepOption_eq_some hr)
  cases hr
  have hm := proposerStep_move hi.wellFormed.keyed_prepare hi.wellFormed.keyed_accept hs
  refine ⟨hi.wellFormed.move hm, hi.sequential.move hop.inOrder.tidy hm, ?_⟩
  refine hi.order.move hi.wellFormed hi.sequential hop ?_ hm
  rintro rfl
  exact proposerAccept_smallest hs

end AttachingProposer

/-- **The order of submission is the order of instances**, for a proposer that is alone. Newest
first, the queue followed by the values attached so far is what was submitted, and the ids that
values were attached to decrease; a value that a pending instance has for its own is among them. -/
theorem submission_order_is_instance_order (config : PaxosConfig) (id : UInt32) (n : Nat)
    (s : AttachingProposer)
    (hr : Runs.Reaches (AttachingProposer.step config) (fun s op => Alone s.attached op)
      (.fresh id n) s) :
    s.logged.proposer.values.reverse ++ s.attached.map Prod.snd = s.logged.submitted ∧
      (s.attached.map Prod.fst).Pairwise (· > ·) ∧
      ∀ k v, s.logged.proposer.ownValue k = some v → (k, v) ∈ s.attached := by
  have hi : s.Inv := hr.invariant (AttachingProposer.inv_fresh id n)
    fun _ hs hop hstep => hs.step hop hstep
  refine ⟨hi.order.queue, hi.order.sorted, fun k v hown => ?_⟩
  obtain ⟨inst, hk, hv⟩ := pendingAt_of_ownValue hown
  have howned : inst.Owned s.attached k := by
    rcases hk with hk | hk
    · rcases hi.order.prepare k inst hk with ⟨hnone, -⟩ | howned
      · exact absurd (hnone.symm.trans hv) (by simp)
      · exact howned
    · exact hi.order.accept k inst hk
  obtain ⟨w, hw, hmem, -⟩ := howned
  obtain rfl := Option.some.inj (hv.symm.trans hw)
  exact hmem

instance (attached : List (UInt32 × PaxosValue)) : DecidablePred (Alone attached)
  | .receivePromise _ ack =>
    inferInstanceAs (Decidable (ack.value = [] ∨ (ack.iid, ack.value) ∈ attached))
  | .prepareInstance _ _ | .receiveAcceptorState _ | .setInstanceId _ => instDecidableFalse
  | .propose _ | .prepare _ | .accept | .receiveAccepted _ | .receivePreempted _ _
  | .timeoutIteratorPrepare _ | .timeoutIteratorAccept _ | .rehash _ _ => instDecidableTrue

/-- Two values are submitted before two instances are prepared. The first instance is preempted and
comes back with its value, and the second value goes to the second instance. -/
theorem submission_order_is_instance_order_preempted :
    ∃ s : AttachingProposer, s.attached = [(2, [2]), (1, [1])] ∧
      s.logged.proposer.values = [[3]] ∧ s.logged.submitted = [[3], [2], [1]] ∧
      (s.attached.map Prod.fst).Pairwise (· > ·) := by
  obtain ⟨s, hr, hs⟩ := Runs.exists_reaches_of_run (AttachingProposer.step {})
    (fun s op => Alone s.attached op) (.fresh 0 3)
    ([.propose [1], .propose [2], .propose [3], .prepare 0, .prepare 0] ++ twoPromises ++
      [.accept, .receivePreempted 0 { iid := 1, ballot := 15 },
        .receivePromise 0 { iid := 2, ballot := 10, aid := 0 },
        .receivePromise 0 { iid := 2, ballot := 10, aid := 1 },
        .receivePromise 0 { iid := 1, ballot := 20, aid := 0, valueBallot := 10, value := [1] },
        .receivePromise 0 { iid := 1, ballot := 20, aid := 2 }, .accept, .accept])
    (fun s => s.attached = [(2, [2]), (1, [1])] ∧ s.logged.proposer.values = [[3]])
    (by decide +kernel)
  obtain ⟨hatt, hvalues⟩ := of_decide_eq_true hs
  obtain ⟨hqueue, hsorted, -⟩ := submission_order_is_instance_order {} 0 3 s hr
  refine ⟨s, hatt, hvalues, ?_, hsorted⟩
  rw [← hqueue, hatt, hvalues]
  rfl

end LibPaxos
