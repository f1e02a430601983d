import LibPaxos.AcceptorRepeat
import LibPaxos.LearnerPosition
import LibPaxos.EvPaxos.Quiescence

/-!
# Catching up

A learner that misses votes is helped by its timer: `evlearner_check_holes` asks all acceptors to
repeat what they have for the next instances, eleven at most, if a later instance is closed. An
acceptor answers with its record, if there is a value in it.

* **`lone_catches_up`** — with the answers the learner has delivered the instances it asked for, if
  they are chosen.
-/

namespace LibPaxos

open Loops

/-- `evlearner_check_holes`: the request that is sent to all acceptors, if there is one. -/
def evlearnerCheckHoles (l : Learner) : Option PaxosRepeat :=
  (learnerHasHoles l).map fun (lo, hi) =>
    { fromIid := lo, toIid := if hi - lo > 10 then lo + 10 else hi }

/-! ## The answers of an acceptor

The loop over the ids asks for one record after the other, and each record with a value is sent. So
the answer for an id is among those sent. -/

section Answers

variable {a : MemAcceptor} {msg : PaxosRepeat}

theorem repeatOf_of_value {acc : PaxosAccepted} (h : acc.value ≠ []) :
    repeatOf (some acc) = some (.accepted acc) :=
  if_pos ⟨Option.some_ne_none acc, List.length_pos_of_ne_nil h⟩

theorem sendAnswer_append {sent sent' : List PaxosAccepted} {out : Option PaxosMessage}
    (h : sendAnswer (fun sent acc => .ok (sent ++ [acc])) sent out = .ok sent') :
    sent ⊆ sent' ∧ ∀ acc, out = some (.accepted acc) → acc ∈ sent' := by
  unfold sendAnswer at h
  split at h
  · cases h
    refine ⟨List.subset_append_left _ _, fun acc heq => ?_⟩
    cases heq
    exact List.mem_append_right _ List.mem_cons_self
  · next hother =>
    cases h
    exact ⟨List.Subset.refl _, fun acc heq => absurd heq (hother acc)⟩

/-- What the loop has asked for so far was answered. -/
def RepeatLoop.Answers (a : MemAcceptor) (s : RepeatLoop MemAcceptor (List PaxosAccepted)) : Prop :=
  s.acceptor = a ∧ ∀ iid ∈ s.visited, ∀ acc, a.record iid = some acc → acc.value ≠ [] →
    acc ∈ s.answers

theorem RepeatLoop.Answers.turn {s s' : RepeatLoop MemAcceptor (List PaxosAccepted)} {again : Bool}
    (h : s.Answers a) (hturn : repeatTurn memReceiveRepeat (fun sent acc => .ok (sent ++ [acc]))
      msg.toIid s = .ok (s', again)) : s'.Answers a := by
  unfold repeatTurn at hturn
  split at hturn
  · obtain ⟨⟨a', out⟩, hreceive, hturn⟩ := Except.bind_eq_ok.mp hturn
    obtain ⟨sent, hsend, hturn⟩ := Except.bind_eq_ok.mp hturn
    cases hturn
    rw [memReceiveRepeat_eq, h.1] at hreceive
    cases hreceive
    obtain ⟨hsub, hnew⟩ := sendAnswer_append hsend
    refine ⟨rfl, fun iid hiid acc hacc hne => ?_⟩
    rcases List.mem_append.mp hiid with hold | hlast
    · exact hsub (h.2 iid hold acc hacc hne)
    · obtain rfl := List.mem_singleton.mp hlast
      refine hnew acc ?_
      rw [hacc]
      exact repeatOf_of_value hne
  · cases hturn
    exact h

/-- **Every record with a value that was asked for is among the answers.** -/
theorem mem_answers_of_handleRepeat {fuel : Nat}
    {s : RepeatLoop MemAcceptor (List PaxosAccepted)}
    (h : evacceptorHandleRepeat memReceiveRepeat fuel a msg = .ok (some s)) {iid : UInt32}
    (hlo : msg.fromIid ≤ iid) (hhi : iid ≤ msg.toIid) {acc : PaxosAccepted}
    (hacc : a.record iid = some acc) (hne : acc.value ≠ []) : acc ∈ s.answers := by
  by_cases hmax : msg.toIid = 4294967295
  · -- then the loop does not end
    have hnone : evacceptorHandleRepeat memReceiveRepeat fuel a msg = .ok none :=
      repeatLoop_eq_none (P := fun _ _ => True) trivial hmax (fun a sent iid _ => by
        obtain ⟨sent', hsend⟩ := exists_sendAnswer_eq_ok sent (repeatOf (a.record iid))
        exact ⟨a, _, sent', memReceiveRepeat_eq a iid, hsend, trivial⟩) fuel
    cases hnone.symm.trans h
  · obtain ⟨fuel', s', h', hvisited⟩ := exists_evacceptorHandleRepeat_eq_some hmax
      fun iid _ => ⟨_, memReceiveRepeat_eq a iid⟩
    have hsame : s' = s := by
      have hlarge := loop_mono (Nat.le_max_left fuel fuel') h
      cases hlarge.symm.trans (loop_mono (Nat.le_max_right fuel fuel') h')
      rfl
    have hanswers : s.Answers a := of_loop_eq_some (I := RepeatLoop.Answers a)
      (fun _ _ _ ht hturn => ht.turn hturn) ⟨rfl, fun iid hiid => by cases hiid⟩ h
    rw [hsame] at hvisited
    exact hanswers.2 iid ((hvisited.2 iid).mpr ⟨hlo, hhi⟩) acc hacc hne

end Answers

/-! ## Votes are recorded

Nothing is trimmed and no ballot is exceeded, so an acceptor that has voted still has the vote as
its record and repeats it as it was. -/

/-- What is delivered stays delivered. -/
theorem LoggedLearner.delivered_length_le (r : LoggedLearner) (op : LearnerOp) :
    r.delivered.length ≤ (r.step op).delivered.length := by
  cases op with
  | deliverNext freed =>
    show _ ≤ ((learnerDeliverNext r.learner freed).2.toList ++ r.delivered).length
    rw [List.length_append]
    exact Nat.le_add_left _ _
  | receiveAccepted | prepare | receivePromise | receivePreempted => exact Nat.le_refl _

/-- The ids that a learner asks for follow on those it has delivered. -/
theorem LoggedLearner.Tracks.asked_for {P : PaxosAccepted → Prop} {n : Nat} {r : LoggedLearner}
    (h : r.Tracks P n) {msg : PaxosRepeat} (hmsg : evlearnerCheckHoles r.learner = some msg)
    {i : UInt32} {k : Nat} (hle : r.delivered.length ≤ k)
    (hlt : k < min (r.delivered.length + 11) r.learner.highestIidClosed.toNat)
    (hi : i.toNat = k + 1) : msg.fromIid ≤ i ∧ i ≤ msg.toIid := by
  obtain ⟨⟨lo, hi⟩, hholes, rfl⟩ := Option.map_eq_some_iff.mp hmsg
  obtain ⟨hopen, rfl, rfl⟩ := learnerHasHoles_eq_some.mp hholes
  have hmax := r.learner.highestIidClosed.toNat_lt
  have hcurrent := h.numbered.toNat_current (by omega)
  have hclosed := UInt32.lt_iff_toNat_lt.mp hopen
  simp only [UInt32.le_iff_toNat_le]
  refine ⟨by omega, ?_⟩
  split
  · next hmany =>
    have hmany : (10 : UInt32).toNat < (r.learner.highestIidClosed - r.learner.currentIid).toNat :=
      UInt32.lt_iff_toNat_lt.mp hmany
    have hten : (10 : UInt32).toNat = 10 := rfl
    rw [UInt32.toNat_sub_of_le _ _ (UInt32.le_of_lt hopen)] at hmany
    rw [UInt32.toNat_add]
    omega
  · omega

theorem Cluster.CallsFrom.delivered_length_le {su : Setup} {s₀ s : Cluster}
    (hr : CallsFrom su s₀ s) (l : Nat) :
    (s₀.learners l).delivered.length ≤ (s.learners l).delivered.length := by
  refine hr.invariant
    (I := fun s => (s₀.learners l).delivered.length ≤ (s.learners l).delivered.length)
    (Nat.le_refl _) ?_
  intro s s' e _ hi _ h
  refine Nat.le_trans hi ?_
  obtain ⟨-, ⟨a, src, op, -, rfl⟩ | ⟨p, src, op, r, -, -, rfl⟩ | ⟨k, src, op, -, rfl⟩⟩ :=
    step_cases h
  · exact Nat.le_refl _
  · exact Nat.le_refl _
  · rw [setLearner_learners]
    split
    · next heq =>
      rw [heq]
      exact LoggedLearner.delivered_length_le _ op
    · exact Nat.le_refl _

namespace Deployment

section Votes

variable {su : Setup} {window : Int} {p : UInt32} {d d' : Deployment} {calls : List ProposerOp}
  {attached : List (UInt32 × PaxosValue)} {l : Nat}

/-- An acceptor votes for what is attached. -/
theorem LoneInv.vote_attached (hi : LoneInv su window p d calls attached) {a : Nat}
    {req : PaxosAccept} {m : PaxosAccepted}
    (hlog : (.receiveAccept req, some (.accepted m)) ∈ (d.cluster.acceptors a).log)
    (hinv : AcceptorInv (d.cluster.acceptors a)) : (req.iid, req.value) ∈ attached := by
  have hsent : .accepted m ∈ d.cluster.sent (.acceptor a) :=
    List.mem_filterMap.mpr ⟨_, hlog, rfl⟩
  obtain ⟨a', -, kv, hkv, heq⟩ := hi.accepted_sent hsent
  rw [hinv.votes req m hlog] at heq
  have hiid : req.iid = kv.1 := congrArg PaxosAccepted.iid heq
  have hvalue : req.value = kv.2 := congrArg PaxosAccepted.value heq
  rw [hiid, hvalue]
  exact hkv

/-- **A vote for a value is what the acceptor has on record.** -/
theorem LoneInv.vote_recorded (hi : LoneInv su window p d calls attached) {a : Nat}
    (hinv : AcceptorInv (d.cluster.acceptors a)) {i : UInt32} {c : UInt16} {v : PaxosValue}
    (hv : (d.cluster.acceptors a).Voted i c v) (hne : v ≠ []) :
    (d.cluster.acceptors a).acceptor.record i
      = some (voteAt (maxNOfProposers + p).toUInt16 a (i, v)) := by
  obtain ⟨req, m, hlog, rfl, rfl, rfl⟩ := mem_votesFor.mp hv
  have hattached := hi.vote_attached hlog hinv
  have hpos := hi.proposer.lone.positive _ hattached
  cases hrec : (d.cluster.acceptors a).acceptor.record req.iid with
  | none =>
    refine absurd ?_ (hinv.absent req.iid hrec ?_ _ hlog req.ballot)
    · show some (m.iid, m.ballot) = _
      rw [hinv.votes req m hlog]
      rfl
    · rw [(hi.acceptors a).untrimmed]
      exact hpos
  | some acc =>
    obtain ⟨hiid, hacc⟩ := (hi.acceptors a).records _ _ hrec
    -- the last vote is for the same value
    obtain ⟨last, hlast⟩ := Option.ne_none_iff_exists'.mp (lastVote_ne_none hlog rfl)
    obtain ⟨hlastiid, m', hlastlog⟩ := lastVote_mem hlast
    have hreport := hinv.report _ _ hrec
    rw [hlast] at hreport
    have hvalue : acc.value = last.value := congrArg Prod.snd hreport
    have hsame := hi.proposer.lone.attached_unique (hi.vote_attached hlastlog hinv) hattached
      hlastiid
    have hsame : last.value = req.value := congrArg Prod.snd hsame
    rcases hacc.vote with hnil | ⟨kv, hkv, heq⟩
    · exact absurd (hsame.symm.trans (hvalue.symm.trans hnil)) hne
    · have hkviid : kv.1 = req.iid := by
        rw [← hiid, heq]
        rfl
      have hkv' := hi.proposer.lone.attached_unique hkv hattached hkviid
      rw [heq, hkv']

/-- A chosen instance that the learner was told of by all acceptors is agreed on. -/
theorem LoneInv.agreed_of_chosen (hi : LoneInv su window p d calls attached)
    (hcore : d.cluster.CoreInv su) (hn : su.acceptors ≤ 2 ^ 16) {P : PaxosAccepted → Prop}
    {i : UInt32} {c : UInt16} {v : PaxosValue} (hc : d.cluster.Chosen su i c v) (hne : v ≠ [])
    (hP : ∀ a < su.acceptors, ∀ acc, (d.cluster.acceptors a).acceptor.record i = some acc →
      acc.value ≠ [] → P acc) :
    Agreed P su.acceptors i.toNat (maxNOfProposers + p).toUInt16 := by
  obtain ⟨Q, hQ, hcard, hvotes⟩ := hc
  refine ⟨Q, ⟨hQ, hcard⟩, fun a ha => ?_⟩
  have hlt := Finset.mem_range.mp (hQ ha)
  have hrec := hi.vote_recorded (hcore.inv.nodes.acceptors a) (hvotes a ha) hne
  exact ⟨_, hP a hlt _ hrec hne, rfl, rfl, toNat_aid hn hlt⟩

end Votes

theorem callsFrom_of_reaches {su : Setup} {window : Int} {ok : Deployment → HandlerEvent → Prop}
    {d d' : Deployment} (hr : Runs.Reaches (step su window) ok d d') :
    Cluster.CallsFrom su d.cluster d'.cluster :=
  hr.invariant (I := fun d' => Cluster.CallsFrom su d.cluster d'.cluster) .init
    fun _ hi _ h => hi.trans (cluster_step h)

/-- **A learner catches up.** In a deployment in which one proposer is at work and nothing is
trimmed let a learner find holes, and let the instances it asks the acceptors to repeat be chosen,
with values that are not empty. As soon as it has handled the answers, whatever else has happened in
the meantime, it has delivered eleven more instances, or all up to the last one it knew to be
closed. -/
theorem lone_catches_up (su : Setup) (hc : su.config.learnerCatchUp = true)
    (hs : ∀ l, su.start l = none) (hn : su.acceptors ≤ 2 ^ 16) (window : Int) (p : UInt32)
    (hp : p.toNat < 10) (l : Nat) (d d' : Deployment)
    (hr : Reaches su window (Undisturbed p) d)
    (hr' : Runs.Reaches (step su window) (Undisturbed p) d d') (msg : PaxosRepeat)
    (hmsg : evlearnerCheckHoles (d.cluster.learners l).learner = some msg)
    (hchosen : ∀ i, msg.fromIid ≤ i → i ≤ msg.toIid →
      ∃ b v, v ≠ [] ∧ d.cluster.Chosen su i b v)
    (hanswers : ∀ a < su.acceptors, ∃ fuel s,
      evacceptorHandleRepeat memReceiveRepeat fuel (d.cluster.acceptors a).acceptor msg
        = .ok (some s) ∧ ∀ ack ∈ s.answers, d'.HandledBy (.learner l) (.accepted ack)) :
    min ((d.cluster.learners l).delivered.length + 11)
        (d.cluster.learners l).learner.highestIidClosed.toNat
      ≤ (d'.cluster.learners l).delivered.length := by
  have hreach : Reaches su window (Undisturbed p) d' := hr.trans hr'
  obtain ⟨calls, attached, hi⟩ := hr.loneInv hp hc hs
  obtain ⟨calls', attached', hi'⟩ := hreach.loneInv hp hc hs
  obtain ⟨htracks, hidle⟩ := hi'.learners l
  have hgrows := (callsFrom_of_reaches hr').delivered_length_le l
  by_contra hlt
  -- the instance after the last one that was delivered is among those asked for
  have hlast : (d'.cluster.learners l).delivered.length + 1 < 2 ^ 32 := by
    have := (d.cluster.learners l).learner.highestIidClosed.toNat_lt
    omega
  have hnext : (UInt32.ofNat ((d'.cluster.learners l).delivered.length + 1)).toNat
      = (d'.cluster.learners l).delivered.length + 1 := UInt32.toNat_ofNat_of_lt' hlast
  obtain ⟨hlo, hhi⟩ := (hi.learners l).1.asked_for hmsg hgrows (by omega) hnext
  obtain ⟨b, v, hne, hchosen⟩ := hchosen _ hlo hhi
  refine htracks.not_agreed_of_idle hidle (maxNOfProposers + p).toUInt16 ?_
  rw [← hnext]
  refine hi.agreed_of_chosen (Cluster.Reaches.coreInv hr.cluster) hn hchosen hne
    fun a ha acc hacc hvalue => ?_
  obtain ⟨fuel, s, hhandle, hall⟩ := hanswers a ha
  exact hall acc (mem_answers_of_handleRepeat hhandle hlo hhi hacc hvalue)

/-- The votes for the second value get through, those for the first do not. -/
def firstMissing : List HandlerEvent :=
  twoSubmitted ++ acceptedBy 3 0 13 (2, [8]) [0, 2, 1] ++
    [0, 1].map fun a => .acceptor a (.proposer 3) (.receiveAccept (acceptAt 13 1 [7]))

/-- The two acceptors that have voted for it are asked, and their answers arrive. -/
def firstRepeated : List HandlerEvent :=
  [0, 1].flatMap fun a => [.acceptor a (.learner 0) (.receiveRepeat 1),
    .learner 0 (.acceptor a) (·.learner.currentIid) (voteAt 13 a (1, [7]))]

theorem lone_catches_up_first :
    ∃ d d' : Deployment, (d.cluster.learners 0).delivered = [] ∧
      evlearnerCheckHoles (d.cluster.learners 0).learner = some { fromIid := 1, toIid := 2 } ∧
      2 ≤ (d'.cluster.learners 0).delivered.length := by
  obtain ⟨d, d', hr, hr', hp⟩ := Runs.exists_reaches_of_run_run (step { acceptors := 3 } 1)
    (Undisturbed 3) (init { acceptors := 3 }) firstMissing firstRepeated
    (fun d d' => (d.cluster.learners 0).delivered = [] ∧
      evlearnerCheckHoles (d.cluster.learners 0).learner = some { fromIid := 1, toIid := 2 } ∧
      (d.cluster.learners 0).learner.highestIidClosed = 2 ∧
      (∀ a ∈ ([0, 1] : List Nat), (d.cluster.acceptors a).Voted 1 13 [7] ∧
        (d.cluster.acceptors a).Voted 2 13 [8]) ∧
      ∀ a < (3 : Nat), ((evacceptorHandleRepeat memReceiveRepeat 3
        (d.cluster.acceptors a).acceptor { fromIid := 1, toIid := 2 }).toOption.join.any fun s =>
          s.answers.all fun ack => d'.HandledBy (.learner 0) (.accepted ack)) = true)
    (by decide +kernel)
  obtain ⟨hnone, hmsg, hclosed, hvoted, hanswers⟩ := of_decide_eq_true hp
  refine ⟨d, d', hnone, hmsg, ?_⟩
  have hle := lone_catches_up { acceptors := 3 } rfl (fun _ => rfl) (by decide) 1 3 (by decide) 0
    d d' hr hr' _ hmsg (fun i hlo hhi => ?_) fun a ha => ?_
  · rw [hnone, hclosed] at hle
    exact hle
  · have hi : i = 1 ∨ i = 2 := by
      have hlo : 1 ≤ i.toNat := UInt32.le_iff_toNat_le.mp hlo
      have hhi : i.toNat ≤ 2 := UInt32.le_iff_toNat_le.mp hhi
      rw [← UInt32.toNat_inj, ← UInt32.toNat_inj]
      show i.toNat = 1 ∨ i.toNat = 2
      omega
    rcases hi with rfl | rfl
    · exact ⟨13, [7], by decide, chosenBy_of_voters [0, 1] (by decide) fun a ha => (hvoted a ha).1⟩
    · exact ⟨13, [8], by decide, chosenBy_of_voters [0, 1] (by decide) fun a ha => (hvoted a ha).2⟩
  · obtain ⟨s, hs, hall⟩ := (Option.any_eq_true _ _).mp (hanswers a ha)
    refine ⟨3, s, Except.eq_ok_of_toOption (Option.join_eq_some_iff.mp hs), fun ack hack => ?_⟩
    exact of_decide_eq_true (List.all_eq_true.mp hall ack hack)

end Deployment

end LibPaxos
