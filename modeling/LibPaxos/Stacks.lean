import LibPaxos.LearnerChosen
import LibPaxos.LearnerOrder
import LibPaxos.P4xos.Chosen

/-!
# The three stacks

`evlearner.c`, `net/learner.c` and `p4xos_leader.c` each have their own code for what is delivered
after a message. The first two count the acknowledgements of acceptors and deliver in a loop. The
handler of p4xos is told what was chosen and delivers at most one instance, so an instance that was
chosen ahead of its turn stays behind when the hole before it is filled.

Whether an instance is decided for a learner that counts depends on the messages for this instance
only, in the order they came in: `heard`. The log is then the longest run of decided instances.

* **`nothing_deliverable_left`** — if no chosen message fills a hole, no stack leaves anything
  behind, and for the same decided instances all of them deliver the same.
* **`chosen_left_behind`** — two chosen messages in the wrong order.
-/

namespace LibPaxos

open Learner

/-! ## Logs of decided instances -/

/-- The log is the longest run of instances `1, 2, …` that are decided. -/
structure IsDecidedLog (decided : UInt32 → PaxosValue → Prop) (L : List (UInt32 × PaxosValue)) :
    Prop where
  entry : ∀ j k v, L[j]? = some (k, v) → k.toNat = j + 1 ∧ decided k v
  longest : ∀ k v, decided k v → k.toNat ≠ L.length + 1

section DecidedLog

variable {decided : UInt32 → PaxosValue → Prop} {L L' : List (UInt32 × PaxosValue)}

theorem IsDecidedLog.length_le (h : IsDecidedLog decided L) (h' : IsDecidedLog decided L') :
    L'.length ≤ L.length := by
  by_contra hlt
  have hget : L'[L.length]? = some (L'.get ⟨L.length, by omega⟩) := by simp
  obtain ⟨hk, hdec⟩ := h'.entry _ _ _ hget
  exact h.longest _ _ hdec hk

/-- There is one such log, if an instance is decided for one value. -/
theorem IsDecidedLog.unique (hone : ∀ k v v', decided k v → decided k v' → v = v')
    (h : IsDecidedLog decided L) (h' : IsDecidedLog decided L') : L = L' := by
  have hlen : L.length = L'.length := Nat.le_antisymm (h'.length_le h) (h.length_le h')
  refine List.ext_getElem hlen fun j hj hj' => ?_
  obtain ⟨hid, hdec⟩ := h.entry j _ _ (List.getElem?_eq_getElem hj)
  obtain ⟨hid', hdec'⟩ := h'.entry j _ _ (List.getElem?_eq_getElem hj')
  have hk := UInt32.toNat_inj.mp (hid.trans hid'.symm)
  exact Prod.ext hk (hone _ _ _ hdec (hk ▸ hdec'))

end DecidedLog

/-- The instances and values delivered, oldest first. -/
def LoggedLearner.deliveries (r : LoggedLearner) : List (UInt32 × PaxosValue) :=
  r.delivered.reverse.map fun d => (d.iid, d.value)

/-- A learner that has delivered decided instances and for which the next one is not decided. -/
theorem LoggedLearner.Numbered.isDecidedLog {n : Nat} {r : LoggedLearner} (h : r.Numbered n)
    {decided : UInt32 → PaxosValue → Prop} (hdelivered : ∀ d ∈ r.delivered, decided d.iid d.value)
    (hnext : ∀ v, r.learner.currentIid.toNat = r.delivered.length + 1 →
      ¬ decided r.learner.currentIid v) : IsDecidedLog decided r.deliveries where
  entry j k v hj := by
    unfold deliveries at hj
    rw [List.getElem?_map] at hj
    obtain ⟨d, hd, heq⟩ := Option.map_eq_some_iff.mp hj
    cases heq
    exact ⟨h.ids j d hd, hdelivered d (List.mem_reverse.mp (List.mem_of_getElem? hd))⟩
  longest k v hdec hk := by
    have hlen : r.deliveries.length = r.delivered.length := by simp [deliveries]
    rw [hlen] at hk
    have hcur := h.toNat_current (hk ▸ k.toNat_lt)
    have hkcur := UInt32.toNat_inj.mp (hk.trans hcur.symm)
    exact hnext v hcur (hkcur ▸ hdec)

/-! ## What is heard of an instance

An instance of a learner is a function of the messages for it, in the order in which they came. Once
it has its winning acknowledgement it does not change, so a decision is never revised. -/

/-- What a message does to its instance, with the test for a quorum that follows. -/
def Learner.instanceHear (n : Nat) (inst : Instance) (ack : PaxosAccepted) : Instance :=
  (instanceHasQuorum (instanceUpdate inst ack n) n).1

/-- What a learner knows of the instance `k` after the messages `acks`. -/
def Learner.heard (n : Nat) (acks : List PaxosAccepted) (k : UInt32) : Instance :=
  (acks.filter fun ack => ack.iid = k).foldl (instanceHear n) (instanceNew n)

/-- The messages decide the instance for a value. -/
def DecidedBy (n : Nat) (acks : List PaxosAccepted) (k : UInt32) (v : PaxosValue) : Prop :=
  ∃ f, (heard n acks k).finalValue = some f ∧ f.value = v

section Heard

variable {n : Nat} {acks : List PaxosAccepted} {k : UInt32} {ack f : PaxosAccepted}

theorem DecidedBy.unique {v v' : PaxosValue} (h : DecidedBy n acks k v)
    (h' : DecidedBy n acks k v') : v = v' := by
  obtain ⟨f, hf, rfl⟩ := h
  obtain ⟨f', hf', rfl⟩ := h'
  rw [Option.some.inj (hf.symm.trans hf')]

/-- Without messages nothing is decided. -/
theorem not_decidedBy_of_absent (h : ∀ a ∈ acks, a.iid ≠ k) {v : PaxosValue} :
    ¬ DecidedBy n acks k v := by
  rintro ⟨f, hf, -⟩
  have hnone : acks.filter (fun ack => ack.iid = k) = [] := by
    simpa [List.filter_eq_nil_iff] using h
  unfold heard at hf
  rw [hnone] at hf
  cases hf

theorem Learner.heard_concat (n : Nat) (acks : List PaxosAccepted) (ack : PaxosAccepted)
    (k : UInt32) : heard n (acks ++ [ack]) k
      = if ack.iid = k then instanceHear n (heard n acks k) ack else heard n acks k := by
  unfold heard
  rw [List.filter_append, List.foldl_append]
  split
  · rename_i hk
    simp [hk]
  · rename_i hk
    simp [hk]

/-- A closed instance stays closed with the message it has. -/
theorem Learner.instanceHear_final {inst : Instance} (h : inst.finalValue = some f)
    (ack : PaxosAccepted) : (instanceHear n inst ack).finalValue = some f := by
  have hopen := (instanceOpen_final inst ack).trans h
  unfold instanceHear
  rw [instanceUpdate_of_final h, instanceHasQuorum_of_final hopen]
  exact hopen

theorem Learner.heard_concat_final (h : (heard n acks k).finalValue = some f)
    (ack : PaxosAccepted) : (heard n (acks ++ [ack]) k).finalValue = some f := by
  rw [heard_concat]
  split
  · exact instanceHear_final h ack
  · exact h

/-- The test for a quorum finds nothing that it has not found before. -/
theorem Learner.instanceHasQuorum_idem (inst : Instance) (n : Nat) :
    (instanceHasQuorum (instanceHasQuorum inst n).1 n).1 = (instanceHasQuorum inst n).1 := by
  cases hq : (instanceHasQuorum inst n).2 with
  | true =>
    obtain ⟨f, hf⟩ := instanceHasQuorum_final hq
    rw [instanceHasQuorum_of_final hf]
  | false =>
    obtain ⟨heq, -⟩ := instanceHasQuorum_false hq
    rw [heq, heq]

theorem Learner.instanceHasQuorum_heard (n : Nat) (acks : List PaxosAccepted) (k : UInt32) :
    (instanceHasQuorum (heard n acks k) n).1 = heard n acks k := by
  induction acks using List.reverseRecOn with
  | nil =>
    have hquiet := instanceHasQuorum_of_not_agreed (instanceNew_sound (fun _ => False) n k) rfl
      fun b => not_agreed_of_absent fun _ h => h.elim
    exact congrArg Prod.fst hquiet
  | append_singleton acks ack ih =>
    rw [heard_concat]
    split
    · exact instanceHasQuorum_idem _ _
    · exact ih

end Heard

/-! ## Delivering in a loop

After each message the learner delivers until it meets an instance that is not closed. What it has
delivered is then the longest run of decided instances. -/

/-- A message is taken in and all that can be is delivered. -/
def receiveAndDeliver (freed : LoggedLearner → UInt32) (r : LoggedLearner) (ack : PaxosAccepted) :
    LoggedLearner :=
  deliverClosed freed (r.step (.receiveAccepted ack))

/-- `evlearner_handle_accepted`. -/
def evlearnerHandleAccepted (freed : LoggedLearner → UInt32) :
    LoggedLearner → PaxosAccepted → LoggedLearner :=
  receiveAndDeliver freed

/-- `on_paxos_accepted` of `net/learner.c`, which has the loop of `evlearner_deliver_next_closed`
written out. -/
def NetPaxos.onPaxosAccepted (freed : LoggedLearner → UInt32) :
    LoggedLearner → PaxosAccepted → LoggedLearner :=
  receiveAndDeliver freed

section Loop

variable {n : Nat} {r : LoggedLearner} {acks : List PaxosAccepted} {ack : PaxosAccepted}
  {freed : LoggedLearner → UInt32}

/-- The loop after a message leaves nothing behind. -/
theorem idle_receiveAndDeliver (h : r.Sound (fun _ => True) n) (ack : PaxosAccepted) :
    (receiveAndDeliver freed r ack).Sound (fun _ => True) n ∧
      (receiveAndDeliver freed r ack).Idle :=
  evlearnerDeliverNextClosed_rule (I := (·.Sound (fun _ => True) n)) (fun _ h => h.learner)
    (fun _ h _ => h.step fun _ _ => trivial) freed _ (h.step fun _ _ => trivial)
    (Nat.lt_succ_self _)

/-- Nor does it after any sequence of messages. -/
theorem idle_foldl_receiveAndDeliver (acks : List PaxosAccepted) (h : r.Sound (fun _ => True) n)
    (hidle : r.Idle) : (acks.foldl (receiveAndDeliver freed) r).Idle := by
  induction acks generalizing r with
  | nil => exact hidle
  | cons ack acks ih =>
    obtain ⟨hsound, hidle⟩ := idle_receiveAndDeliver h ack
    exact ih hsound hidle

/-- What a learner keeps that takes every message in from the start: it knows of the instances to
come what was heard of them, and it has delivered what was decided. -/
structure LoggedLearner.Follows (n : Nat) (acks : List PaxosAccepted) (r : LoggedLearner) : Prop
    extends r.Numbered n where
  started : r.learner.lateStart = false
  heard : ∀ k, r.delivered.length < k.toNat →
    (r.learner.instances.lookup k).getD (instanceNew n) = heard n acks k
  final : ∀ d ∈ r.delivered, (Learner.heard n acks d.iid).finalValue = some d

theorem LoggedLearner.Follows.receive (h : r.Follows n acks) (hpos : ack.iid ≠ 0) :
    (r.step (.receiveAccepted ack)).Follows n (acks ++ [ack]) := by
  have hfinal : ∀ d ∈ r.delivered, (Learner.heard n (acks ++ [ack]) d.iid).finalValue = some d :=
    fun d hd => heard_concat_final (h.final d hd) ack
  by_cases hlt : ack.iid < r.learner.currentIid
  · -- the instance was delivered, so nothing is claimed about it any more
    rw [step_receiveAccepted_of_lt h.started hlt]
    refine ⟨h.toNumbered, h.started, fun k hk => ?_, hfinal⟩
    rw [heard_concat, if_neg]
    · exact h.heard k hk
    · rintro rfl
      have hle := h.le_of_lt_current hlt
      omega
  · have hlookup : ∀ k, (learnerReceiveAccepted r.learner ack).instances.lookup k
        = if k = ack.iid then some (instanceHear n
            ((r.learner.instances.lookup ack.iid).getD (instanceNew n)) ack)
          else r.learner.instances.lookup k := by
      intro k
      rw [instances_learnerReceiveAccepted h.started h.acceptors hlt]
      exact AList.lookup_insert_cases _ _ _ _
    obtain ⟨hcur, hstarted⟩ := learnerReceiveAccepted_currentIid h.started ack
    refine ⟨⟨(learnerReceiveAccepted_acceptors _ _).trans h.acceptors,
      learnerReceiveAccepted_sound h.learner trivial, h.length_lt, hcur.trans h.current, h.ids,
      (hlookup 0).trans ((if_neg hpos.symm).trans h.zero)⟩, hstarted, fun k hk => ?_, hfinal⟩
    -- what is stored is what was heard before and the message
    refine (congrArg (Option.getD · _) (hlookup k)).trans ?_
    rw [heard_concat]
    by_cases hk' : k = ack.iid
    · subst hk'
      rw [if_pos rfl, if_pos rfl, ← h.heard ack.iid hk]
      rfl
    · rw [if_neg hk', if_neg (Ne.symm hk')]
      exact h.heard k hk

theorem LoggedLearner.Follows.deliver (h : r.Follows n acks) (i : UInt32) :
    (r.step (.deliverNext i)).Follows n acks := by
  have hnum := h.toNumbered.deliver i
  cases hc : r.learner.closed r.learner.currentIid with
  | false =>
    obtain ⟨instances, heq, hlookup⟩ := learnerDeliverNext_of_open hc i
    rw [step_deliverNext heq] at hnum ⊢
    refine ⟨hnum, h.started, fun k hk => ?_, h.final⟩
    exact (congrArg (Option.getD · _) (hlookup k)).trans (h.heard k hk)
  | true =>
    obtain ⟨inst, f, hl, hf, heq, hfi, -⟩ := learnerDeliverNext_of_closed h.learner hc i
    have hcur := h.toNat_current_of_lookup hl
    rw [step_deliverNext heq] at hnum ⊢
    refine ⟨hnum, h.started, fun k hk => ?_, List.forall_mem_cons.mpr ⟨?_, h.final⟩⟩
    · have hk : r.delivered.length + 1 < k.toNat := hk
      show ((r.learner.instances.erase r.learner.currentIid).lookup k).getD (instanceNew n) = _
      rw [AList.lookup_erase_cases, if_neg]
      · exact h.heard k (by omega)
      · rintro rfl
        omega
    · -- the instance delivered is the one heard of
      have hheard := h.heard r.learner.currentIid (by omega)
      rw [hl] at hheard
      have hinst : inst = Learner.heard n acks r.learner.currentIid := hheard
      rw [hinst, h.acceptors, instanceHasQuorum_heard] at hf
      rw [hfi]
      exact hf

/-- **The log of a learner that counts** is the longest run of instances that its messages
decide. -/
theorem isDecidedLog_foldl_receiveAndDeliver (hr : r.Follows n []) (hidle : r.Idle)
    (hpos : ∀ a ∈ acks, 1 ≤ a.iid) :
    IsDecidedLog (DecidedBy n acks) (acks.foldl (receiveAndDeliver freed) r).deliveries := by
  -- message by message: taken in, then delivered in a loop
  have hrun : (acks.foldl (receiveAndDeliver freed) r).Follows n acks ∧
      (acks.foldl (receiveAndDeliver freed) r).Idle := by
    induction acks using List.reverseRecOn with
    | nil => exact ⟨hr, hidle⟩
    | append_singleton acks ack ih =>
      obtain ⟨hfollows, -⟩ := ih fun a ha => hpos a (List.mem_append_left _ ha)
      have hack := hpos ack (List.mem_append_right _ List.mem_cons_self)
      rw [List.foldl_append]
      exact evlearnerDeliverNextClosed_rule (I := (·.Follows n (acks ++ [ack])))
        (fun _ h => h.learner) (fun _ h => h.deliver) freed _
        (hfollows.receive (ne_zero_of_one_le hack)) (Nat.lt_succ_self _)
  obtain ⟨h, hopen⟩ := hrun
  refine h.isDecidedLog (fun d hd => ⟨d, h.final d hd, rfl⟩) ?_
  -- the current instance is not closed, so what was heard of it decides nothing
  rintro v hcur ⟨f, hf, -⟩
  rw [← h.heard _ (by omega)] at hf
  unfold LoggedLearner.Idle closed at hopen
  cases hl : (acks.foldl (receiveAndDeliver freed) r).learner.instances.lookup
      (acks.foldl (receiveAndDeliver freed) r).learner.currentIid with
  | none =>
    rw [hl] at hf
    cases hf
  | some inst =>
    rw [hl] at hf hopen
    have hnone := (instanceHasQuorum_false hopen).2
    exact absurd (hnone.symm.trans hf) (by simp)

end Loop

/-- The learner of `evlearner.c`, and that of `net/learner.c`, before the first message. -/
theorem LoggedLearner.follows_fresh {config : PaxosConfig} (hc : config.learnerCatchUp = true)
    (n : Nat) : (fresh config n).Follows n [] ∧ (startingAt config n 0).Follows n [] := by
  have hlate : (!config.learnerCatchUp) = false := by
    rw [hc]
    rfl
  exact ⟨⟨⟨rfl, AList.all_empty, Nat.two_pow_pos 32, rfl, fun j d h => (by cases h), rfl⟩, hlate,
      fun _ _ => rfl, List.forall_mem_nil _⟩,
    ⟨⟨rfl, AList.all_empty, Nat.two_pow_pos 32, rfl, fun j d h => (by cases h), rfl⟩, hlate,
      fun _ _ => rfl, List.forall_mem_nil _⟩⟩

/-! ## Delivering once

The handler of p4xos takes one message in and delivers the current instance, if it is closed. That
is enough as long as a message does not fill a hole in front of an instance that has closed already.
-/

namespace P4xos

/-- The learner of a worker with what it has delivered. -/
def Worker.logged (lp : Worker) : LoggedLearner where
  learner := lp.learner
  delivered := lp.delivered
  emitted := []

/-- `learner_chosen_handler`, as far as the learner is concerned. -/
def chosenAndDeliver (freed : UInt32) (r : LoggedLearner) (ack : PaxosAccepted) : LoggedLearner :=
  LoggedLearner.step { r with learner := learnerReceiveChosen r.learner ack } (.deliverNext freed)

theorem learnerChosenHandler_logged {conf : Conf} {now : Int} {freed : UInt32} {lp : Worker}
    {hdr : PaxosHdr} {r : Result} (h : learnerChosenHandler conf now freed lp hdr = .ok r) :
    r.1.logged = chosenAndDeliver freed lp.logged (acceptedOfHdr hdr) := by
  have hstep : ∀ {l out},
      learnerDeliverNext (learnerReceiveChosen lp.learner (acceptedOfHdr hdr)) freed
        = (l, out) → chosenAndDeliver freed lp.logged (acceptedOfHdr hdr)
        = { learner := l, delivered := out.toList ++ lp.delivered, emitted := [] } :=
    LoggedLearner.step_deliverNext
      (r := { lp.logged with learner := learnerReceiveChosen lp.learner (acceptedOfHdr hdr) })
  obtain ⟨l, hd, rfl⟩ | ⟨l, d, hd, hsent⟩ := learnerChosenHandler_cases h
  · rw [hstep hd]
    rfl
  · rw [hstep hd]
    rcases hsent with ⟨-, hr⟩ | ⟨-, rfl⟩
    · -- a leader that prepares ahead
      obtain ⟨pr, -, hpr⟩ := Except.bind_eq_ok.mp hr
      cases hpr
      rfl
    · rfl

/-- A header tells that the value was chosen for the instance. -/
def Announced (received : List PaxosHdr) (k : UInt32) (v : PaxosValue) : Prop :=
  ∃ hdr ∈ received, hdr.inst = k ∧ hdr.value.1 = v

/-- What the learner holds and has delivered it was told. -/
structure Holds (received : List PaxosHdr) (r : LoggedLearner) : Prop where
  acceptors : r.learner.acceptors = 3
  learner : r.learner.Sound fun a => Announced received a.iid a.value
  delivered : ∀ d ∈ r.delivered, Announced received d.iid d.value

/-- If all ids are from 1 on, the instances told of are delivered or wait for their turn. -/
structure InTurn (received : List PaxosHdr) (r : LoggedLearner) : Prop extends r.Numbered 3 where
  waiting : ∀ hdr ∈ received, r.delivered.length < hdr.inst.toNat → r.learner.closed hdr.inst = true

section Handler

variable {received : List PaxosHdr} {r : LoggedLearner} {hdr : PaxosHdr}

theorem Holds.chosen (h : Holds received r) (freed : UInt32) (hdr : PaxosHdr) :
    Holds (hdr :: received) (chosenAndDeliver freed r (acceptedOfHdr hdr)) := by
  have hmono : ∀ k v, Announced received k v → Announced (hdr :: received) k v := by
    rintro k v ⟨hdr', hmem, hrest⟩
    exact ⟨hdr', List.mem_cons_of_mem _ hmem, hrest⟩
  have hsound : (learnerReceiveChosen r.learner (acceptedOfHdr hdr)).Sound
      fun a => Announced (hdr :: received) a.iid a.value :=
    learnerReceiveChosen_sound (h.learner.mono fun a ha => hmono _ _ ha)
      fun _ => ⟨hdr, List.mem_cons_self, rfl, rfl⟩
  have hacceptors : (learnerReceiveChosen r.learner (acceptedOfHdr hdr)).acceptors = 3 :=
    (learnerReceiveChosen_acceptors _ _).trans h.acceptors
  have hdelivered : ∀ d ∈ r.delivered, Announced (hdr :: received) d.iid d.value :=
    fun d hd => hmono _ _ (h.delivered d hd)
  obtain ⟨hs, hacc, hback⟩ := learnerDeliverNext_sound hsound freed
  refine ⟨hacc.trans hacceptors, hs, fun d hd => ?_⟩
  rcases List.mem_append.mp hd with hnew | hold
  · exact (hback d (Option.mem_toList.mp hnew)).carried
  · exact hdelivered d hold

/-- **A chosen message leaves nothing behind** if it does not fill a hole. -/
theorem Holds.idle_chosen (h : Holds received r) (hidle : r.Idle) (freed : UInt32)
    (ack : PaxosAccepted) (hok : ack.iid = r.learner.currentIid →
      r.learner.closed (r.learner.currentIid + 1) = false) :
    (chosenAndDeliver freed r ack).Idle := by
  unfold chosenAndDeliver
  by_cases hlt : ack.iid < r.learner.currentIid
  · -- a late message
    rw [learnerReceiveChosen_of_lt hlt]
    exact hidle.deliver freed
  have hcur := learnerReceiveChosen_currentIid r.learner ack
  have hclosed := closed_learnerReceiveChosen h.acceptors (UInt32.not_lt.mp hlt)
  by_cases hinst : ack.iid = r.learner.currentIid
  · -- the current instance is delivered, and the next one was open before
    have hsound : (learnerReceiveChosen r.learner ack).Sound fun _ => True :=
      learnerReceiveChosen_sound (h.learner.mono fun _ _ => trivial) fun _ => trivial
    have hc : (learnerReceiveChosen r.learner ack).closed
        (learnerReceiveChosen r.learner ack).currentIid = true := by
      rw [hcur, hclosed, if_pos hinst.symm]
    have hne : r.learner.currentIid + 1 ≠ r.learner.currentIid := by
      simp
    obtain ⟨inst, f, -, -, heq, -, -⟩ := learnerDeliverNext_of_closed hsound hc freed
    have hsame := LoggedLearner.closed_deliverNext
      (r := { r with learner := learnerReceiveChosen r.learner ack }) hsound
      (k := r.learner.currentIid + 1) (fun _ => hcur.symm ▸ hne) freed
    have hnext : (LoggedLearner.step { r with learner := learnerReceiveChosen r.learner ack }
        (.deliverNext freed)).learner.currentIid = r.learner.currentIid + 1 := by
      rw [LoggedLearner.step_deliverNext heq]
      exact congrArg (· + 1) hcur
    unfold LoggedLearner.Idle
    rw [hnext, hsame, hclosed, if_neg (hinst ▸ hne)]
    exact hok hinst
  · refine LoggedLearner.Idle.deliver ?_ freed
    unfold LoggedLearner.Idle
    rw [hcur, hclosed, if_neg (Ne.symm hinst)]
    exact hidle

theorem InTurn.receive (h : InTurn received r) (hpos : hdr.inst ≠ 0) :
    InTurn (hdr :: received)
      { r with learner := learnerReceiveChosen r.learner (acceptedOfHdr hdr) } := by
  by_cases hlt : (acceptedOfHdr hdr).iid < r.learner.currentIid
  · rw [learnerReceiveChosen_of_lt hlt]
    refine ⟨h.toNumbered, List.forall_mem_cons.mpr ⟨fun hgt => ?_, h.waiting⟩⟩
    have hle := h.le_of_lt_current hlt
    exact absurd hgt (Nat.not_lt.mpr hle)
  · have hle := UInt32.not_lt.mp hlt
    have hclosed := closed_learnerReceiveChosen h.acceptors hle
    have hsound : (learnerReceiveChosen r.learner (acceptedOfHdr hdr)).Sound fun _ => True :=
      learnerReceiveChosen_sound h.learner fun _ => trivial
    have hzero :
        (learnerReceiveChosen r.learner (acceptedOfHdr hdr)).instances.lookup 0 = none := by
      rw [learnerReceiveChosen_eq h.acceptors hle]
      exact (AList.lookup_insert_cases _ _ _ _).trans ((if_neg hpos.symm).trans h.zero)
    refine ⟨⟨(learnerReceiveChosen_acceptors _ _).trans h.acceptors, hsound, h.length_lt,
      (learnerReceiveChosen_currentIid _ _).trans h.current, h.ids, hzero⟩,
      List.forall_mem_cons.mpr ⟨fun _ => (hclosed _).trans (if_pos rfl), fun hdr' hmem hgt => ?_⟩⟩
    have hwaiting := h.waiting hdr' hmem hgt
    exact (hclosed _).trans (by rw [hwaiting, ite_self])

theorem InTurn.deliver (h : InTurn received r) (freed : UInt32) :
    InTurn received (r.step (.deliverNext freed)) := by
  refine ⟨h.toNumbered.deliver freed, fun hdr hmem hgt => ?_⟩
  cases hc : r.learner.closed r.learner.currentIid with
  | false =>
    have hsame : (r.step (.deliverNext freed)).delivered = r.delivered := by
      obtain ⟨instances, heq, -⟩ := learnerDeliverNext_of_open hc freed
      rw [LoggedLearner.step_deliverNext heq]
      rfl
    rw [LoggedLearner.closed_deliverNext h.learner fun ht => absurd (hc.symm.trans ht) (by simp)]
    exact h.waiting hdr hmem (hsame ▸ hgt)
  | true =>
    obtain ⟨inst, f, hl, -, heq, -, -⟩ := learnerDeliverNext_of_closed h.learner hc freed
    have hcur := h.toNat_current_of_lookup hl
    have hlen : (r.step (.deliverNext freed)).delivered.length = r.delivered.length + 1 := by
      rw [LoggedLearner.step_deliverNext heq]
      rfl
    rw [hlen] at hgt
    rw [LoggedLearner.closed_deliverNext h.learner]
    · exact h.waiting hdr hmem (by omega)
    · intro _ hk
      rw [hk, hcur] at hgt
      omega

end Handler

/-! ## Runs of chosen messages -/

/-- A worker with the chosen headers that it was given, newest first. -/
structure ChosenLearner where
  worker : Worker
  received : List PaxosHdr

namespace ChosenLearner

/-- A fresh worker, with three acceptors. -/
def init (config : PaxosConfig) (conf : Conf) (node : Nat) : ChosenLearner where
  worker := .init config conf 3 node
  received := []

/-- A chosen header is handled at some time, with whatever the delivery finds in the memory it has
freed. A call that does not return is no step. -/
def step (conf : Conf) (s : ChosenLearner) (e : Int × UInt32 × PaxosHdr) : Option ChosenLearner :=
  match learnerChosenHandler conf e.1 e.2.1 s.worker e.2.2 with
  | .ok r => some { worker := r.1, received := e.2.2 :: s.received }
  | .error _ => none

/-- The header does not fill a hole: if it is for the current instance, the next one is open. -/
def FillsNoHole (s : ChosenLearner) (e : Int × UInt32 × PaxosHdr) : Prop :=
  e.2.2.inst = s.worker.learner.currentIid →
    s.worker.learner.closed (s.worker.learner.currentIid + 1) = false

instance (s : ChosenLearner) (e : Int × UInt32 × PaxosHdr) : Decidable (s.FillsNoHole e) :=
  inferInstanceAs (Decidable (_ → _))

/-- The states reached from a fresh worker. -/
abbrev Reaches (config : PaxosConfig) (conf : Conf) (node : Nat)
    (ok : ChosenLearner → Int × UInt32 × PaxosHdr → Prop) (s : ChosenLearner) : Prop :=
  Runs.Reaches (step conf) ok (init config conf node) s

section Run

variable {config : PaxosConfig} {conf : Conf} {node : Nat} {s s' : ChosenLearner}
  {e : Int × UInt32 × PaxosHdr}

theorem logged_step (h : step conf s e = some s') :
    s'.worker.logged = chosenAndDeliver e.2.1 s.worker.logged (acceptedOfHdr e.2.2) ∧
      s'.received = e.2.2 :: s.received := by
  unfold step at h
  split at h
  · rename_i r hr
    cases h
    exact ⟨learnerChosenHandler_logged hr, rfl⟩
  · cases h

/-- A run without holes being filled leaves nothing behind. -/
theorem idle_of_reaches (hr : Reaches config conf node FillsNoHole s) :
    Holds s.received s.worker.logged ∧ s.worker.logged.Idle := by
  refine hr.invariant
    (I := fun s : ChosenLearner => Holds s.received s.worker.logged ∧ s.worker.logged.Idle)
    ⟨⟨rfl, AList.all_empty, List.forall_mem_nil _⟩, rfl⟩ ?_
  rintro s s' e - ⟨hholds, hidle⟩ hok hstep
  obtain ⟨hlogged, hreceived⟩ := logged_step hstep
  rw [hlogged, hreceived]
  exact ⟨hholds.chosen e.2.1 e.2.2, hholds.idle_chosen hidle e.2.1 (acceptedOfHdr e.2.2) hok⟩

theorem inTurn_of_reaches (hr : Reaches config conf node FillsNoHole s) :
    (∀ hdr ∈ s.received, hdr.inst ≠ 0) → InTurn s.received s.worker.logged := by
  refine hr.invariant
    (I := fun s : ChosenLearner =>
      (∀ hdr ∈ s.received, hdr.inst ≠ 0) → InTurn s.received s.worker.logged)
    (fun _ => ⟨⟨rfl, AList.all_empty, Nat.two_pow_pos 32, rfl, fun j d h => (by cases h), rfl⟩,
      List.forall_mem_nil _⟩) ?_
  intro s s' e _ ih _ hstep hpos
  obtain ⟨hlogged, hreceived⟩ := logged_step hstep
  rw [hreceived] at hpos
  obtain ⟨hinst, hrest⟩ := List.forall_mem_cons.mp hpos
  rw [hlogged, hreceived]
  exact ((ih hrest).receive hinst).deliver e.2.1

/-- **The log of a learner that is told** is the longest run of instances that it was told of. -/
theorem isDecidedLog_of_reaches (hr : Reaches config conf node FillsNoHole s)
    (hpos : ∀ hdr ∈ s.received, hdr.inst ≠ 0) :
    IsDecidedLog (Announced s.received) s.worker.logged.deliveries := by
  obtain ⟨hholds, hidle⟩ := idle_of_reaches hr
  have hturn := inTurn_of_reaches hr hpos
  refine hturn.isDecidedLog hholds.delivered ?_
  rintro v hcur ⟨hdr, hmem, hinst, -⟩
  have hwaiting := hturn.waiting hdr hmem (by rw [hinst]; omega)
  rw [hinst] at hwaiting
  exact absurd (hidle.symm.trans hwaiting) (by simp)

end Run

end ChosenLearner

end P4xos

open P4xos

/-- **Nothing deliverable is left behind.** After every sequence of accepted messages the learners
of `evlearner.c` and `net/learner.c` have nothing to deliver, and neither has the learner of a p4xos
replica with three acceptors after any chosen messages none of which fills a hole. If the messages
that the three got decide the same instances, for the same values, all three have delivered the same
log, unless learners are configured to start late. -/
theorem nothing_deliverable_left (config : PaxosConfig) (conf : Conf) (n node : Nat)
    (acks acks' : List PaxosAccepted) (freed freed' : LoggedLearner → UInt32) (s : ChosenLearner)
    (hr : ChosenLearner.Reaches config conf node ChosenLearner.FillsNoHole s) :
    let ev := acks.foldl (evlearnerHandleAccepted freed) (.fresh config n)
    let net := acks'.foldl (NetPaxos.onPaxosAccepted freed') (.startingAt config n 0)
    (∀ i, (learnerDeliverNext ev.learner i).2 = none) ∧
    (∀ i, (learnerDeliverNext net.learner i).2 = none) ∧
    (∀ i, (learnerDeliverNext s.worker.learner i).2 = none) ∧
    (config.learnerCatchUp = true → (∀ a ∈ acks, 1 ≤ a.iid) → (∀ a ∈ acks', 1 ≤ a.iid) →
      (∀ k v, DecidedBy n acks k v ↔ Announced s.received k v) →
      (∀ k v, DecidedBy n acks' k v ↔ Announced s.received k v) →
      ev.deliveries = s.worker.logged.deliveries ∧
        net.deliveries = s.worker.logged.deliveries) := by
  intro ev net
  have hidle : ev.Idle :=
    idle_foldl_receiveAndDeliver acks (LoggedLearner.sound_fresh _ config n) rfl
  have hidle' : net.Idle :=
    idle_foldl_receiveAndDeliver acks' (LoggedLearner.sound_startingAt _ config n 0) rfl
  refine ⟨hidle.deliverNext_eq_none, hidle'.deliverNext_eq_none,
    (ChosenLearner.idle_of_reaches hr).2.deliverNext_eq_none, ?_⟩
  -- each log is the longest run of decided instances, and these are the same
  intro hc hpos hpos' hsame hsame'
  obtain ⟨hfollows, hfollows'⟩ := LoggedLearner.follows_fresh hc n
  have hlog : IsDecidedLog (DecidedBy n acks) ev.deliveries :=
    isDecidedLog_foldl_receiveAndDeliver hfollows rfl hpos
  have hlog' : IsDecidedLog (DecidedBy n acks') net.deliveries :=
    isDecidedLog_foldl_receiveAndDeliver hfollows' rfl hpos'
  have htold : IsDecidedLog (Announced s.received) s.worker.logged.deliveries :=
    ChosenLearner.isDecidedLog_of_reaches hr fun hdr hmem hzero =>
      not_decidedBy_of_absent (fun a ha => hzero ▸ ne_zero_of_one_le (hpos a ha))
        ((hsame _ _).mpr ⟨hdr, hmem, rfl, rfl⟩)
  have heq : DecidedBy n acks = Announced s.received :=
    funext fun k => funext fun v => propext (hsame k v)
  have heq' : DecidedBy n acks' = Announced s.received :=
    funext fun k => funext fun v => propext (hsame' k v)
  have hone : ∀ k v v', Announced s.received k v → Announced s.received k v' → v = v' :=
    heq ▸ fun _ _ _ h h' => DecidedBy.unique h h'
  rw [heq] at hlog
  rw [heq'] at hlog'
  exact ⟨hlog.unique hone htold, hlog'.unique hone htold⟩

open P4xos.Net (command packet)

/-- Acknowledgements of three acceptors for two instances, the second one decided first. -/
def twoDecided : List PaxosAccepted :=
  [{ iid := 1, ballot := 10, aid := 0, value := (command 1).1 },
    { iid := 2, ballot := 10, aid := 1, value := (command 2).1 },
    { iid := 2, ballot := 10, aid := 2, value := (command 2).1 },
    { iid := 1, ballot := 10, aid := 2, value := (command 1).1 }]

/-- The header of a chosen packet for one of them. -/
def chosenHdr (inst : UInt32) (b : UInt8) : PaxosHdr :=
  { (packet (.node 0) .learnerAddr MsgType.chosen 10 1 b).hdr with inst := inst }

/-- The messages decide what was announced, if every instance they are for was announced and has
come out so. -/
theorem decidedBy_iff_announced {n : Nat} {acks : List PaxosAccepted} {received : List PaxosHdr}
    (hacks : ∀ a ∈ acks, ∃ hdr ∈ received, hdr.inst = a.iid)
    (hreceived : ∀ hdr ∈ received,
      (heard n acks hdr.inst).finalValue.map (fun f => f.value) = some hdr.value.1)
    (k : UInt32) (v : PaxosValue) : DecidedBy n acks k v ↔ Announced received k v := by
  constructor
  · intro h
    obtain ⟨a, ha, rfl⟩ : ∃ a ∈ acks, a.iid = k := by
      by_contra habsent
      exact not_decidedBy_of_absent (fun a ha hk => habsent ⟨a, ha, hk⟩) h
    obtain ⟨hdr, hmem, hinst⟩ := hacks a ha
    obtain ⟨f, hf, rfl⟩ := h
    have hvalue := hreceived hdr hmem
    rw [hinst, hf] at hvalue
    exact ⟨hdr, hmem, hinst, (Option.some.inj hvalue).symm⟩
  · rintro ⟨hdr, hmem, rfl, rfl⟩
    obtain ⟨f, hf, hv⟩ := Option.map_eq_some_iff.mp (hreceived hdr hmem)
    exact ⟨f, hf, hv⟩

/-- The learners that count get the messages in opposite orders. -/
theorem nothing_deliverable_left_two :
    ∃ s : ChosenLearner, s.worker.logged.deliveries = [(1, (command 1).1), (2, (command 2).1)] ∧
      (∀ i, (learnerDeliverNext s.worker.learner i).2 = none) ∧
      (twoDecided.foldl (evlearnerHandleAccepted (·.learner.currentIid)) (.fresh {} 3)).deliveries
        = s.worker.logged.deliveries ∧
      (twoDecided.reverse.foldl (NetPaxos.onPaxosAccepted fun _ => 0)
          (.startingAt {} 3 0)).deliveries
        = s.worker.logged.deliveries := by
  obtain ⟨s, hr, hs⟩ := Runs.exists_reaches_of_run (ChosenLearner.step { lcore := 0 })
    ChosenLearner.FillsNoHole (ChosenLearner.init {} { lcore := 0 } 0)
    [(0, 0, chosenHdr 1 1), (0, 0, chosenHdr 2 2)]
    (fun s => s.received = [chosenHdr 2 2, chosenHdr 1 1] ∧
      s.worker.logged.deliveries = [(1, (command 1).1), (2, (command 2).1)]) (by decide +kernel)
  obtain ⟨hreceived, hlog⟩ := of_decide_eq_true hs
  obtain ⟨-, -, hdone, hsame⟩ :=
    nothing_deliverable_left {} { lcore := 0 } 3 0 twoDecided twoDecided.reverse
      (·.learner.currentIid) (fun _ => 0) s hr
  rw [hreceived] at hsame
  obtain ⟨hev, hnet⟩ := hsame rfl (by decide) (by decide)
    (decidedBy_iff_announced (by decide) (by decide +kernel))
    (decidedBy_iff_announced (by decide) (by decide +kernel))
  exact ⟨s, hlog, hdone, hev, hnet⟩

/-- **A chosen instance stays behind.** The second instance is chosen before the first one. The
handler delivers the first one and not the second, which the learner has closed, until another
message comes in. -/
theorem chosen_left_behind :
    ∃ s : ChosenLearner,
      ChosenLearner.Reaches {} { lcore := 0 } 0 (fun _ _ => True) s ∧
      s.received = [chosenHdr 1 1, chosenHdr 2 2] ∧
      s.worker.logged.deliveries = [(1, (command 1).1)] ∧
      ((learnerDeliverNext s.worker.learner 0).2.map fun d => (d.iid, d.value))
        = some (2, (command 2).1) ∧
      (twoDecided.foldl (evlearnerHandleAccepted fun _ => 0) (.fresh {} 3)).deliveries
        = [(1, (command 1).1), (2, (command 2).1)] := by
  obtain ⟨s, hr, hs⟩ := Runs.exists_reaches_of_run (ChosenLearner.step { lcore := 0 })
    (fun _ _ => True) (ChosenLearner.init {} { lcore := 0 } 0)
    [(0, 0, chosenHdr 2 2), (0, 0, chosenHdr 1 1)]
    (fun s => s.received = [chosenHdr 1 1, chosenHdr 2 2] ∧
      s.worker.logged.deliveries = [(1, (command 1).1)] ∧
      ((learnerDeliverNext s.worker.learner 0).2.map fun d => (d.iid, d.value))
        = some (2, (command 2).1)) (by decide +kernel)
  obtain ⟨hreceived, hlog, hnext⟩ := of_decide_eq_true hs
  exact ⟨s, hr, hreceived, hlog, hnext, by decide +kernel⟩

end LibPaxos
