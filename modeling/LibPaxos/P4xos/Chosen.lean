import LibPaxos.Lib.Runs
import LibPaxos.P4xos.HandlersSound

/-!
# Chosen packets

A network of p4xos replicas, and what a packet of type chosen tells the learner that gets it.

* **`chosen_packets_sound`** — if no acceptor rejects an accept and no replica asks for two values
  at one ballot, what is delivered was accepted by a quorum.
* **`rejected_accept_delivered`** — the reply to a rejected accept is delivered as chosen.
-/

namespace LibPaxos.P4xos

/-! ## The network -/

/-- The deployment. Node ids have 16 bits. -/
structure Setup where
  config : PaxosConfig := {}
  numAcceptors : Nat
  replicas : Nat
  replicas_le : replicas ≤ 2 ^ 16
  conf : Nat → Conf

/-- The workers of the replicas by node id, and all packets sent so far. -/
structure Net where
  workers : Nat → Worker
  sent : List Packet

/-- What can happen: a client sends a command to a replica, or a replica makes a call. -/
inductive Event where
  | submit (leader : Nat) (inst : UInt32) (id : UInt16) (value : PaxosValue) (junk : HdrValue)
  | call (node : Nat) (c : Call)

namespace Net

/-- All replicas fresh. -/
def init (su : Setup) : Net where
  workers node := .init su.config (su.conf node) su.numAcceptors node
  sent := []

/-- The acceptors by their node ids. -/
def acceptors (s : Net) (node : Nat) : LoggedAcceptor :=
  (s.workers node).acceptor

/-- The packet with this destination gets to the node. -/
def Gets (su : Setup) (node : Nat) : Addr → Prop
  | .node id => id = node
  | .acceptorAddr | .learnerAddr => True
  | .paxosLeader => (su.conf node).leader = true
  | .client => False

instance (su : Setup) (node : Nat) : DecidablePred (Gets su node)
  | .node id => inferInstanceAs (Decidable (id = node))
  | .acceptorAddr | .learnerAddr => instDecidableTrue
  | .paxosLeader => inferInstanceAs (Decidable (_ = true))
  | .client => instDecidableFalse

/-- The event may happen: a packet that a replica handles was sent, to it. -/
def Enabled (su : Setup) (s : Net) : Event → Prop
  | .submit _ _ _ _ _ => True
  | .call node (.receive _ _ pkt) => node < su.replicas ∧ pkt ∈ s.sent ∧ Gets su node pkt.dst
  | .call node _ => node < su.replicas

instance (su : Setup) (s : Net) : DecidablePred (Enabled su s)
  | .submit _ _ _ _ _ => instDecidableTrue
  | .call node c => by
    cases c with
    | receive now freed pkt =>
      exact inferInstanceAs (Decidable (_ ∧ pkt ∈ s.sent ∧ Gets su node pkt.dst))
    | _ => exact inferInstanceAs (Decidable (node < su.replicas))

/-- What an event does. A call that does not return is no step. -/
def apply (su : Setup) (s : Net) : Event → Option Net
  | .submit leader inst id value junk =>
    some { s with sent := { src := .client, dst := .node leader,
                            hdr := setPaxosHdr junk MsgType.newCommand inst 0 id value } :: s.sent }
  | .call node c =>
    match (s.workers node).call su.config (su.conf node) node c with
    | .ok (lp, out) =>
      some { workers := Function.update s.workers node lp, sent := out ++ s.sent }
    | .error _ => none

/-- One step. -/
def step (su : Setup) (s : Net) (e : Event) : Option Net :=
  if s.Enabled su e then s.apply su e else none

/-- The states reached by steps that satisfy `ok`. -/
abbrev Reaches (su : Setup) (ok : Net → Event → Prop) (s : Net) : Prop :=
  Runs.Reaches (step su) ok (init su) s

/-- **A step** is a command of a client, or one call at one replica. -/
theorem step_cases {su : Setup} {s s' : Net} {e : Event} (h : step su s e = some s') :
    s.Enabled su e ∧
    ((∃ pkt, pkt.hdr.msgtype = MsgType.newCommand ∧ s' = { s with sent := pkt :: s.sent }) ∨
      ∃ node c lp out, e = .call node c ∧
        (s.workers node).call su.config (su.conf node) node c = .ok (lp, out) ∧
        s' = { workers := Function.update s.workers node lp, sent := out ++ s.sent }) := by
  unfold step at h
  split at h
  · rename_i hen
    refine ⟨hen, ?_⟩
    cases e with
    | submit =>
      cases h
      exact .inl ⟨_, rfl, rfl⟩
    | call node c =>
      simp only [apply] at h
      split at h
      · rename_i lp out hcall
        cases h
        exact .inr ⟨node, c, lp, out, rfl, hcall, rfl⟩
      · cases h
  · cases h

end Net

/-! ## Runs

What was sent so far is true of the acceptors, and stays true as they vote. A leader counts accepted
packets of different acceptors at one ballot; these are votes for one value, since no replica has
asked for two at that ballot. -/

namespace Net

/-- An accept that a replica handles is not rejected, and whoever asks has asked for no other value
in the instance at the ballot. -/
def HandlesUnrejected (s : Net) : Event → Prop
  | .call node (.receive _ _ pkt) => pkt.hdr.msgtype = MsgType.accept →
    Unrejected (s.acceptors node) s.sent pkt
  | _ => True

/-- What such a run keeps. -/
structure Inv (su : Setup) (s : Net) : Prop where
  workers : ∀ node, WorkerInv su.numAcceptors s.acceptors (Told s.sent node) (s.workers node)
  sent : ∀ pkt ∈ s.sent, PktInv su.numAcceptors s.acceptors s.sent pkt
  agree : ∀ p ∈ s.sent, ∀ p' ∈ s.sent, Agree p p'
  length : ∀ a i c v, (s.acceptors a).Voted i c v → v.length = paxosValueSize

theorem inv_init (su : Setup) : (init su).Inv su where
  workers _ := ⟨⟨proposerNew_wellFormed _ _, rfl, AList.all_empty⟩, rfl, AList.all_empty,
    List.forall_mem_nil _⟩
  sent := List.forall_mem_nil _
  agree := List.forall_mem_nil _
  length _ _ _ _ h := absurd h List.not_mem_nil

section Step

variable {su : Setup} {s s' : Net} {e : Event}

/-- What a replica has been told is true. -/
theorem Inv.truthful (hi : s.Inv su) (node : Nat) : Truthful s.acceptors (Told s.sent node) where
  unique a a' i c v v' := by
    rintro ⟨p, hp, ht, hdst, -, rfl, rfl, rfl⟩ ⟨p', hp', ht', hdst', -, hi', hr', rfl⟩
    exact congrArg Subtype.val
      (hi.agree p hp p' hp' ht ht' (hdst.trans hdst'.symm) hi'.symm hr'.symm)
  voted a i c v := by
    rintro ⟨p, hp, ht, -, rfl, rfl, rfl, rfl⟩
    exact ((hi.sent p hp).accepted ht).1
  length := hi.length

/-- An answer of an acceptor gets to the replica that asked. -/
theorem Inv.dst_of_gets (hi : s.Inv su) {node : Nat} {pkt : Packet} (hpkt : pkt ∈ s.sent)
    (hg : Gets su node pkt.dst) (ht : pkt.hdr.msgtype = MsgType.accepted) :
    pkt.dst = .node node := by
  obtain ⟨-, q, hq, hqt, hsrc, -⟩ := (hi.sent pkt hpkt).accepted ht
  obtain ⟨x, hx⟩ := (hi.sent q hq).source hqt
  rw [← hsrc, hx] at hg ⊢
  rw [show x = node from hg]

theorem acceptors_update (s : Net) (node : Nat) (lp : Worker) (sent : List Packet) :
    acceptors { workers := Function.update s.workers node lp, sent := sent }
      = Function.update s.acceptors node lp.acceptor := by
  funext a
  by_cases ha : a = node
  · subst ha
    simp [acceptors]
  · simp [acceptors, ha]

/-- **A sound call keeps the invariant.** -/
theorem Inv.call (hi : s.Inv su) {node : Nat} {lp : Worker} {out : List Packet}
    (hcs : CallSound su.numAcceptors s.acceptors s.sent node lp out) :
    Inv su { workers := Function.update s.workers node lp, sent := out ++ s.sent } := by
  have hsub : s.sent ⊆ out ++ s.sent := List.subset_append_right _ _
  have htold : ∀ a b i c v, Told s.sent a b i c v → Told (out ++ s.sent) a b i c v := by
    rintro a b i c v ⟨p, hp, h⟩
    exact ⟨p, hsub hp, h⟩
  -- packets and votes only add up
  have hvoted : ∀ a i c v, (s.acceptors a).Voted i c v →
      (Function.update s.acceptors node lp.acceptor a).Voted i c v := by
    rcases hcs.acceptor with heq | ⟨op, heq, -⟩
    · rw [heq, Function.update_eq_self]
      exact fun _ _ _ _ h => h
    · rw [heq]
      exact fun _ _ _ _ => voted_update op
  refine ⟨fun a => ?_, fun pkt hpkt => ?_, fun p hp p' hp' => ?_, fun a i c v hv => ?_⟩
  · rw [acceptors_update]
    show WorkerInv _ _ _ (Function.update s.workers node lp a)
    by_cases ha : a = node
    · subst ha
      rw [Function.update_self]
      exact hcs.worker.mono (fun _ _ _ _ h => h) (htold a)
    · rw [Function.update_of_ne ha]
      exact (hi.workers a).mono hvoted (htold a)
  · rw [acceptors_update]
    rcases List.mem_append.mp hpkt with hnew | hold
    · exact (hcs.sent pkt hnew).mono (fun _ _ _ _ h => h) hsub
    · exact (hi.sent pkt hold).mono hvoted hsub
  · rcases List.mem_append.mp hp with hnew | hold
    · exact hcs.agree p hnew p' hp'
    · rcases List.mem_append.mp hp' with hnew' | hold'
      · intro ht ht' hdst hinst hrnd
        exact (hcs.agree p' hnew' p hp ht' ht hdst.symm hinst.symm hrnd.symm).symm
      · exact hi.agree p hold p' hold'
  · rw [acceptors_update] at hv
    by_cases ha : a = node
    · subst ha
      rw [Function.update_self] at hv
      rcases hcs.acceptor with heq | ⟨op, heq, hop⟩
      · rw [heq] at hv
        exact hi.length a i c v hv
      · rw [heq] at hv
        rcases LoggedAcceptor.voted_step hv with hv | ⟨req, hreq, -, -, rfl, -⟩
        · exact hi.length a i c v hv
        · exact hop req hreq
    · rw [Function.update_of_ne ha] at hv
      exact hi.length a i c v hv

theorem Inv.step (hi : s.Inv su) (hok : s.HandlesUnrejected e) (h : Net.step su s e = some s') :
    s'.Inv su := by
  obtain ⟨hen, ⟨pkt, ht, rfl⟩ | ⟨node, c, lp, out, rfl, hcall, rfl⟩⟩ := step_cases h
  · -- a command tells nothing
    have hsub : s.sent ⊆ pkt :: s.sent := List.subset_cons_self _ _
    have hnew : ∀ t, t ≠ MsgType.newCommand → pkt.hdr.msgtype ≠ t := fun t hne heq =>
      hne (heq.symm.trans ht)
    refine ⟨fun a => (hi.workers a).mono (fun _ _ _ _ h => h) ?_, ?_, ?_, hi.length⟩
    · rintro b i c v ⟨p, hp, h⟩
      exact ⟨p, hsub hp, h⟩
    · refine List.forall_mem_cons.mpr ⟨⟨fun h => ?_, fun h => ?_, fun h => ?_⟩, fun p hp =>
        (hi.sent p hp).mono (fun _ _ _ _ h => h) hsub⟩
      · exact absurd h (hnew _ (by decide))
      · exact absurd h (hnew _ (by decide))
      · exact absurd h (hnew _ (by decide))
    · intro p hp p' hp' hpt hpt'
      rcases List.mem_cons.mp hp with rfl | hold
      · exact absurd hpt (hnew _ (by decide))
      · rcases List.mem_cons.mp hp' with rfl | hold'
        · exact absurd hpt' (hnew _ (by decide))
        · exact hi.agree p hold p' hold' hpt hpt'
  · have hnode : node < su.replicas := by
      cases c with
      | receive => exact hen.1
      | _ => exact hen
    refine hi.call (Worker.call_callSound (hi.workers node) (hi.truthful node) rfl
      (Nat.lt_of_lt_of_le hnode su.replicas_le) hi.sent ?_ hcall)
    rintro now freed pkt rfl
    exact ⟨hen.2.1, hi.dst_of_gets hen.2.1 hen.2.2, hok⟩

end Step

/-- **Chosen packets are true.** In every run in which no acceptor rejects an accept that it
handles, and accepts of one replica for one instance and ballot that are handled have one value,
everything a learner delivers was accepted by a quorum at one ballot, and so was the value of every
packet of type chosen. -/
theorem chosen_packets_sound (su : Setup) (s : Net) (hr : Reaches su HandlesUnrejected s) :
    (∀ node, ∀ d ∈ (s.workers node).delivered,
      ∃ b, ChosenBy su.numAcceptors s.acceptors d.iid b d.value) ∧
    ∀ pkt ∈ s.sent, pkt.hdr.msgtype = MsgType.chosen →
      ∃ b, ChosenBy su.numAcceptors s.acceptors pkt.hdr.inst b pkt.hdr.value.1 := by
  have hi : s.Inv su := hr.invariant (inv_init su) fun _ hi hok h => hi.step hok h
  exact ⟨fun node d hd => ⟨d.ballot, (hi.workers node).delivered d hd⟩,
    fun pkt hpkt ht => ⟨pkt.hdr.rnd, (hi.sent pkt hpkt).chosen ht⟩⟩

instance (s : Net) : DecidablePred s.HandlesUnrejected
  | .submit _ _ _ _ _ => instDecidableTrue
  | .call node c => by
    cases c with
    | receive now freed pkt => exact inferInstanceAs (Decidable (_ → Unrejected _ _ pkt))
    | _ => exact instDecidableTrue

/-- Three replicas, two of them leaders. -/
def twoLeaders : Setup where
  numAcceptors := 3
  replicas := 3
  replicas_le := by decide
  conf node := { lcore := UInt32.ofNat node, leader := node < 2 }

/-- A value of eight bytes. -/
def command (b : UInt8) : HdrValue :=
  ⟨[b, 0, 0, 0, 0, 0, 0, 0], rfl⟩

/-- A packet for the first instance. -/
def packet (src dst : Addr) (msgtype : UInt8) (rnd acptid : UInt16) (b : UInt8) : Packet where
  src := src
  dst := dst
  hdr := { msgtype := msgtype, rnd := rnd, inst := 1, vrnd := 0, acptid := acptid,
           value := command b }

/-- A client sends a command to a leader, which prepares the first instance for it. -/
def commandRound (leader : Nat) (b : UInt8) : List Event :=
  [.submit leader 1 9 (command b).1 (command 0),
    .call leader (.receive 0 0 (packet .client (.node leader) MsgType.newCommand 0 9 b))]

/-- The replicas get a packet of the leader, and the leader gets their replies. -/
def round (leader : Nat) (msgtype reply : UInt8) (rnd acptid : UInt16) (b : UInt8)
    (nodes : List Nat) : List Event :=
  nodes.map (fun a => .call a (.receive 0 0
      (packet (.node leader) .acceptorAddr msgtype rnd acptid b))) ++
    nodes.map (fun a => .call leader (.receive 0 0
      (packet (.node a) (.node leader) reply rnd (UInt16.ofNat a) b)))

/-- A command goes through both phases, and the third replica delivers it. -/
theorem chosen_packets_sound_one_command :
    ∃ s : Net, ((s.workers 2).delivered.map fun d => (d.iid, d.value)) = [(1, (command 1).1)] ∧
      ∃ b, ChosenBy 3 s.acceptors 1 b (command 1).1 := by
  obtain ⟨s, hr, hs⟩ := Runs.exists_reaches_of_run (step twoLeaders) HandlesUnrejected
    (init twoLeaders)
    (commandRound 0 1 ++ round 0 MsgType.prepare MsgType.promise 10 9 1 [0, 1] ++
      round 0 MsgType.accept MsgType.accepted 10 1 1 [0, 1] ++
      [.call 2 (.receive 0 0 (packet (.node 0) .learnerAddr MsgType.chosen 10 1 1))])
    (fun s => (s.workers 2).delivered =
      [{ iid := 1, ballot := 10, aid := 2, value := (command 1).1 }])
    (by decide +kernel)
  have hdel := of_decide_eq_true hs
  obtain ⟨b, hb⟩ := (chosen_packets_sound twoLeaders s hr).1 2
    { iid := 1, ballot := 10, aid := 2, value := (command 1).1 }
    (by rw [hdel]; exact List.mem_cons_self)
  exact ⟨s, by rw [hdel]; rfl, b, hb⟩

/-! ## Rejected accepts -/

/-- Two leaders prepare the first instance. The third replica has promised the larger ballot when it
gets the accept of the first leader. -/
def rejectedAccept : List Event :=
  commandRound 0 1 ++ commandRound 1 2 ++
    round 0 MsgType.prepare MsgType.promise 10 9 1 [0, 1] ++
    [.call 2 (.receive 0 0 (packet (.node 1) .acceptorAddr MsgType.prepare 11 9 2)),
      .call 2 (.receive 0 0 (packet (.node 0) .acceptorAddr MsgType.accept 10 1 1)),
      .call 0 (.receive 0 0 (packet (.node 2) (.node 0) MsgType.preempted 10 2 1))]

/-- **A rejected accept is delivered.** The type that the third replica writes for preempted is the
one that the leader reads as chosen. No acceptor has accepted anything. -/
theorem rejected_accept_delivered :
    ¬ ∀ s, Reaches twoLeaders (fun _ _ => True) s → ∀ node, ∀ d ∈ (s.workers node).delivered,
      ∃ b, ChosenBy 3 s.acceptors d.iid b d.value := by
  obtain ⟨s, hr, hs⟩ := Runs.exists_reaches_of_run (step twoLeaders) (fun _ _ => True)
    (init twoLeaders) rejectedAccept
    (fun s =>
      (s.workers 0).delivered = [{ iid := 1, ballot := 10, aid := 2, value := (command 1).1 }] ∧
      ∀ a < (3 : Nat), votesFor 1 (s.acceptors a).log = []) (by decide +kernel)
  obtain ⟨hdel, hvotes⟩ := of_decide_eq_true hs
  intro hclaim
  obtain ⟨b, hb⟩ := hclaim s hr 0 _ (by rw [hdel]; exact List.mem_cons_self)
  refine not_chosenBy ∅ (by decide) (fun a ha _ x hx => ?_) b hb
  rw [hvotes a ha] at hx
  cases hx

end Net

end LibPaxos.P4xos
