import LibPaxos.AcceptorRuns
import LibPaxos.ProposerInOrder
import LibPaxos.LearnerGaps

/-!
# Proposers, acceptors and learners on a network

A cluster is a set of nodes, each with its log. The network is what the nodes have sent so far: a
message may be taken from the sender's log by any node, any number of times, in any order, or
never. This covers loss, duplication, delay and reordering.

The nodes run the handlers of the library one call at a time, which is finer than the event
handlers of `evproposer.c`, `evacceptor.c` and `evlearner.c`. Whether an event may happen is
`Cluster.Enabled`; a deployment that uses fewer of the calls, or restricts them, is a condition on
the steps of a run.
-/

namespace LibPaxos

/-- A node of a cluster. Proposers go by their id. -/
inductive Node where
  | acceptor (id : Nat)
  | proposer (id : UInt32)
  | learner (id : Nat)
deriving DecidableEq

/-- What does not change in a run: the number of acceptors, the configuration, and the instance
after which a learner was told to start, if it was. -/
structure Setup where
  acceptors : Nat
  config : PaxosConfig := {}
  start : Nat → Option UInt32 := fun _ => none
  start_lt : ∀ l iid, start l = some iid → iid.toNat < 2 ^ 32 - 1 := by simp

/-- The nodes with their logs. -/
structure Cluster where
  acceptors : Nat → LoggedAcceptor
  proposers : UInt32 → LoggedProposer
  learners : Nat → LoggedLearner

/-- A call at a node, with the node that sent the message it is given, if it is given one. -/
inductive Event where
  | acceptor (id : Nat) (src : Node) (op : AcceptorOp)
  | proposer (id : UInt32) (src : Node) (op : ProposerOp)
  | learner (id : Nat) (src : Node) (op : LearnerOp)

namespace Cluster

/-- All nodes fresh. -/
def init (su : Setup) : Cluster where
  acceptors a := .fresh a
  proposers p := .fresh p su.acceptors
  learners l :=
    match su.start l with
    | none => .fresh su.config su.acceptors
    | some iid => .startingAt su.config su.acceptors iid

theorem init_emitted (su : Setup) (l : Nat) : ((init su).learners l).emitted = [] := by
  unfold init
  simp only
  split <;> rfl

/-- The messages a node has sent. -/
def sent (s : Cluster) : Node → List PaxosMessage
  | .acceptor a => (s.acceptors a).log.filterMap Prod.snd
  | .proposer p => (s.proposers p).emitted
  | .learner l => (s.learners l).emitted

theorem sent_init (su : Setup) (node : Node) : (init su).sent node = [] := by
  cases node with
  | acceptor | proposer => rfl
  | learner l => exact init_emitted su l

/-- The event may happen: the node exists, a message given to it was sent, and a learner prepares
only an instance it is missing. -/
def Enabled (su : Setup) (s : Cluster) : Event → Prop
  | .acceptor a src op => a < su.acceptors ∧ ∀ m ∈ op.message, m ∈ s.sent src
  | .proposer p src op => p.toNat < 2 ^ 31 ∧ ∀ m ∈ op.message, m ∈ s.sent src
  | .learner l src op =>
    (∀ iid ∈ op.prepares, (s.learners l).learner.InHoles iid) ∧ ∀ m ∈ op.message, m ∈ s.sent src

instance (su : Setup) (s : Cluster) : DecidablePred (Enabled su s)
  | .acceptor _ src op => inferInstanceAs (Decidable (_ ∧ ∀ m ∈ op.message, m ∈ s.sent src))
  | .proposer _ src op => inferInstanceAs (Decidable (_ ∧ ∀ m ∈ op.message, m ∈ s.sent src))
  | .learner l src op =>
    inferInstanceAs (Decidable ((∀ iid ∈ op.prepares, (s.learners l).learner.InHoles iid) ∧
      ∀ m ∈ op.message, m ∈ s.sent src))

/-- The cluster with one node replaced. -/
def setAcceptor (s : Cluster) (a : Nat) (r : LoggedAcceptor) : Cluster :=
  { s with acceptors := Function.update s.acceptors a r }

@[inherit_doc setAcceptor]
def setProposer (s : Cluster) (p : UInt32) (r : LoggedProposer) : Cluster :=
  { s with proposers := Function.update s.proposers p r }

@[inherit_doc setAcceptor]
def setLearner (s : Cluster) (l : Nat) (r : LoggedLearner) : Cluster :=
  { s with learners := Function.update s.learners l r }

/-- What the event does to its node. A call that does not return is no step. -/
def apply (su : Setup) (s : Cluster) : Event → Option Cluster
  | .acceptor a _ op => some (s.setAcceptor a ((s.acceptors a).step op))
  | .proposer p _ op => ((s.proposers p).stepOption su.config op).map (s.setProposer p)
  | .learner l _ op => some (s.setLearner l ((s.learners l).step op))

/-- One step of the cluster. -/
def step (su : Setup) (s : Cluster) (e : Event) : Option Cluster :=
  if s.Enabled su e then s.apply su e else none

/-- The states reached by steps that satisfy `ok`. -/
abbrev Reaches (su : Setup) (ok : Cluster → Event → Prop) (s : Cluster) : Prop :=
  Runs.Reaches (step su) ok (init su) s

/-- **Every step is a call at one node** on a message that was sent. -/
theorem step_cases {su : Setup} {s s' : Cluster} {e : Event} (h : step su s e = some s') :
    s.Enabled su e ∧
    ((∃ a src op, e = .acceptor a src op ∧ s' = s.setAcceptor a ((s.acceptors a).step op)) ∨
      (∃ p src op r, e = .proposer p src op ∧ (s.proposers p).step su.config op = .ok r ∧
        s' = s.setProposer p r) ∨
      (∃ l src op, e = .learner l src op ∧ s' = s.setLearner l ((s.learners l).step op))) := by
  unfold step at h
  split at h
  · rename_i he
    refine ⟨he, ?_⟩
    cases e with
    | acceptor a src op =>
      cases h
      exact .inl ⟨a, src, op, rfl, rfl⟩
    | proposer p src op =>
      obtain ⟨r, hr, rfl⟩ := Option.map_eq_some_iff.mp h
      exact .inr (.inl ⟨p, src, op, r, rfl, LoggedProposer.stepOption_eq_some hr, rfl⟩)
    | learner l src op =>
      cases h
      exact .inr (.inr ⟨l, src, op, rfl, rfl⟩)
  · cases h

/-! ## Replacing one node -/

section Set

variable (s : Cluster) (node : Node)

@[simp] theorem setAcceptor_acceptors (a b : Nat) (r : LoggedAcceptor) :
    (s.setAcceptor a r).acceptors b = if b = a then r else s.acceptors b :=
  Function.update_apply ..

@[simp] theorem setAcceptor_proposers (a : Nat) (r : LoggedAcceptor) :
    (s.setAcceptor a r).proposers = s.proposers := rfl

@[simp] theorem setAcceptor_learners (a : Nat) (r : LoggedAcceptor) :
    (s.setAcceptor a r).learners = s.learners := rfl

@[simp] theorem setProposer_acceptors (p : UInt32) (r : LoggedProposer) :
    (s.setProposer p r).acceptors = s.acceptors := rfl

@[simp] theorem setProposer_proposers (p q : UInt32) (r : LoggedProposer) :
    (s.setProposer p r).proposers q = if q = p then r else s.proposers q :=
  Function.update_apply ..

@[simp] theorem setProposer_learners (p : UInt32) (r : LoggedProposer) :
    (s.setProposer p r).learners = s.learners := rfl

@[simp] theorem setLearner_acceptors (l : Nat) (r : LoggedLearner) :
    (s.setLearner l r).acceptors = s.acceptors := rfl

@[simp] theorem setLearner_proposers (l : Nat) (r : LoggedLearner) :
    (s.setLearner l r).proposers = s.proposers := rfl

@[simp] theorem setLearner_learners (l k : Nat) (r : LoggedLearner) :
    (s.setLearner l r).learners k = if k = l then r else s.learners k :=
  Function.update_apply ..

theorem sent_setAcceptor (a : Nat) (r : LoggedAcceptor) :
    (s.setAcceptor a r).sent node
      = if node = .acceptor a then r.log.filterMap Prod.snd else s.sent node := by
  cases node with
  | acceptor b =>
    simp only [sent, setAcceptor_acceptors, Node.acceptor.injEq]
    split <;> rfl
  | proposer | learner => rfl

theorem sent_setProposer (p : UInt32) (r : LoggedProposer) :
    (s.setProposer p r).sent node = if node = .proposer p then r.emitted else s.sent node := by
  cases node with
  | proposer q =>
    simp only [sent, setProposer_proposers, Node.proposer.injEq]
    split <;> rfl
  | acceptor | learner => rfl

theorem sent_setLearner (l : Nat) (r : LoggedLearner) :
    (s.setLearner l r).sent node = if node = .learner l then r.emitted else s.sent node := by
  cases node with
  | learner k =>
    simp only [sent, setLearner_learners, Node.learner.injEq]
    split <;> rfl
  | acceptor | proposer => rfl

end Set

/-- **No message is taken back.** -/
theorem sent_subset_step {su : Setup} {s s' : Cluster} {e : Event} (h : step su s e = some s')
    (node : Node) : s.sent node ⊆ s'.sent node := by
  obtain ⟨-, ⟨a, src, op, -, rfl⟩ | ⟨p, src, op, r, -, hr, rfl⟩ | ⟨l, src, op, -, rfl⟩⟩ :=
    step_cases h
  · rw [sent_setAcceptor]
    split
    · rename_i heq
      rw [heq]
      exact (List.sublist_cons_self _ _).filterMap _ |>.subset
    · exact List.Subset.refl _
  · rw [sent_setProposer]
    split
    · rename_i heq
      rw [heq]
      exact (LoggedProposer.subset_step hr).1
    · exact List.Subset.refl _
  · rw [sent_setLearner]
    split
    · rename_i heq
      rw [heq]
      exact LoggedLearner.emitted_subset_step _ op
    · exact List.Subset.refl _

/-- What a step does to one proposer: nothing, or it makes one call. -/
theorem proposers_step {su : Setup} {s s' : Cluster} {e : Event} (h : step su s e = some s')
    (p : UInt32) :
    s'.proposers p = s.proposers p ∨
      ∃ src op, e = .proposer p src op ∧
        (s.proposers p).step su.config op = .ok (s'.proposers p) := by
  obtain ⟨-, ⟨b, src, op, -, rfl⟩ | ⟨q, src, op, r, rfl, hr, rfl⟩ | ⟨l, src, op, -, rfl⟩⟩ :=
    step_cases h
  · exact .inl rfl
  · rw [setProposer_proposers]
    split
    · rename_i heq
      subst heq
      exact .inr ⟨src, op, rfl, hr⟩
    · exact .inl rfl
  · exact .inl rfl

/-! ## Nodes that take no step -/

/-- The node at which an event happens. -/
def nodeOf : Event → Node
  | .acceptor a _ _ => .acceptor a
  | .proposer p _ _ => .proposer p
  | .learner l _ _ => .learner l

section Participants

variable {su : Setup} {s : Cluster} {ok : Cluster → Event → Prop} {ns : List Node}

theorem proposers_eq_init (hr : Reaches su (fun s e => ok s e ∧ nodeOf e ∈ ns) s) {p : UInt32}
    (hp : .proposer p ∉ ns) : s.proposers p = .fresh p su.acceptors := by
  refine hr.invariant (I := fun s => s.proposers p = .fresh p su.acceptors) rfl ?_
  intro s s' e _ hi hok h
  rcases proposers_step h p with heq | ⟨src, op, rfl, -⟩
  · rw [heq]
    exact hi
  · exact absurd hok.2 hp

theorem sent_eq_init (hr : Reaches su (fun s e => ok s e ∧ nodeOf e ∈ ns) s) {node : Node}
    (hn : node ∉ ns) : s.sent node = (init su).sent node := by
  refine hr.invariant (I := fun s => s.sent node = (init su).sent node) rfl ?_
  intro s s' e _ hi hok h
  have hne : node ≠ nodeOf e := fun heq => hn (heq ▸ hok.2)
  obtain ⟨-, ⟨a, src, op, rfl, rfl⟩ | ⟨p, src, op, r, rfl, -, rfl⟩ | ⟨l, src, op, rfl, rfl⟩⟩ :=
    step_cases h
  · rw [sent_setAcceptor]
    exact (if_neg hne).trans hi
  · rw [sent_setProposer]
    exact (if_neg hne).trans hi
  · rw [sent_setLearner]
    exact (if_neg hne).trans hi

end Participants

/-! ## What every node keeps

The invariants of single nodes, lifted to the cluster. A message that was sent tells who has sent
it, since replies carry the id of the acceptor and requests the ballot of their proposer. -/

/-- Neither does a proposer create instances nor a learner open gaps for ids with accept requests of
its own. -/
def InBounds (s : Cluster) : Event → Prop
  | .acceptor _ _ _ => True
  | .proposer p _ op => (s.proposers p).FreshCreation op
  | .learner l _ op => (s.learners l).FreshGap op

/-- Each node keeps its own invariant, and what was voted for was asked for. -/
structure Nodes (su : Setup) (s : Cluster) : Prop where
  acceptors : ∀ a, AcceptorInv (s.acceptors a)
  ids : ∀ a, (s.acceptors a).acceptor.id = a
  outside : ∀ a, su.acceptors ≤ a → (s.acceptors a).log = []
  proposers : ∀ p, (s.proposers p).Inv p su.acceptors
  learners : ∀ l, (s.learners l).GapInv su.acceptors
  requested : ∀ a i c v, (s.acceptors a).Voted i c v →
    ∃ node m, .accept m ∈ s.sent node ∧ m.iid = i ∧ m.ballot = c ∧ m.value = v

theorem nodes_init (su : Setup) : (init su).Nodes su where
  acceptors a := acceptorInv_fresh a
  ids _ := rfl
  outside _ _ := rfl
  proposers p := LoggedProposer.inv_fresh p su.acceptors
  learners l := by
    unfold init
    cases hs : su.start l with
    | none =>
      simp only [hs]
      exact LoggedLearner.gapInv_fresh _ _
    | some iid =>
      simp only [hs]
      exact LoggedLearner.gapInv_startingAt _ _ (su.start_lt l iid hs)
  requested a i c v h := by cases h

section Step

variable {su : Setup} {s s' : Cluster} {e : Event}

/-- **Every step keeps the nodes' invariants.** -/
theorem Nodes.step (hn : s.Nodes su) (hb : s.InBounds e) (h : step su s e = some s') :
    s'.Nodes su := by
  have hsent := sent_subset_step h
  -- a vote that was there stays asked for
  have hold : ∀ {a i c v}, (s.acceptors a).Voted i c v →
      ∃ node m, .accept m ∈ s'.sent node ∧ m.iid = i ∧ m.ballot = c ∧ m.value = v := by
    intro a i c v hv
    obtain ⟨node, m, hm, hr⟩ := hn.requested a i c v hv
    exact ⟨node, m, hsent node hm, hr⟩
  obtain ⟨hen, ⟨a, src, op, rfl, rfl⟩ | ⟨p, src, op, r, rfl, hr, rfl⟩ | ⟨l, src, op, rfl, rfl⟩⟩ :=
    step_cases h
  · refine ⟨fun b => ?_, fun b => ?_, fun b hle => ?_, hn.proposers, hn.learners,
      fun b i c v hv => ?_⟩
    · rw [setAcceptor_acceptors]
      split
      · exact (hn.acceptors a).step op
      · exact hn.acceptors b
    · rw [setAcceptor_acceptors]
      split
      · rename_i heq
        rw [heq]
        exact (acceptorStep_move (s.acceptors a).acceptor op).id_eq.trans (hn.ids a)
      · exact hn.ids b
    · rw [setAcceptor_acceptors, if_neg]
      · exact hn.outside b hle
      · rintro rfl
        exact absurd hen.1 (Nat.not_lt.mpr hle)
    · rw [setAcceptor_acceptors] at hv
      split at hv
      · rename_i heq
        rcases LoggedAcceptor.voted_step hv with hv | ⟨req, rfl, hiid, hbal, hval, -⟩
        · exact hold hv
        · exact ⟨src, req, hsent src (hen.2 _ rfl), hiid, hbal, hval⟩
      · exact hold hv
  · refine ⟨hn.acceptors, hn.ids, hn.outside, fun q => ?_, hn.learners, fun a i c v hv => hold hv⟩
    rw [setProposer_proposers]
    split
    · rename_i heq
      rw [heq]
      exact (hn.proposers p).step hen.1 hb hr
    · exact hn.proposers q
  · refine ⟨hn.acceptors, hn.ids, hn.outside, hn.proposers, fun k => ?_, fun a i c v hv => hold hv⟩
    rw [setLearner_learners]
    split
    · refine (hn.learners l).step ?_ hb
      rintro iid rfl
      exact hen.1 iid rfl
    · exact hn.learners k

/-- A reply comes from an acceptor, which has logged it. -/
theorem Nodes.reply_sender (hn : s.Nodes su) {node : Node} {m : PaxosMessage}
    (h : m ∈ s.sent node) (hm : m.isRequest = false) :
    ∃ a op, node = .acceptor a ∧ a < su.acceptors ∧ (op, some m) ∈ (s.acceptors a).log := by
  cases node with
  | acceptor a =>
    obtain ⟨⟨op, out⟩, he, rfl⟩ := List.mem_filterMap.mp h
    refine ⟨a, op, rfl, ?_, he⟩
    by_contra hle
    rw [hn.outside a (Nat.not_lt.mp hle)] at he
    cases he
  | proposer p => exact absurd ((hn.proposers p).requests m h) (by simp [hm])
  | learner l => exact absurd ((hn.learners l).requests m h) (by simp [hm])

/-- A request does not come from an acceptor. -/
theorem Nodes.accept_sender (hn : s.Nodes su) {node : Node} {m : PaxosAccept}
    (h : .accept m ∈ s.sent node) :
    (∃ p, node = .proposer p ∧ m ∈ acceptsOf (s.proposers p).emitted) ∨
      ∃ l, node = .learner l ∧ m ∈ acceptsOf (s.learners l).emitted := by
  cases node with
  | acceptor a =>
    obtain ⟨⟨op, out⟩, he, rfl⟩ := List.mem_filterMap.mp h
    exact absurd ((hn.acceptors a).replies _ he _ rfl) (by simp [PaxosMessage.isRequest])
  | proposer p => exact .inl ⟨p, rfl, mem_acceptsOf.mpr h⟩
  | learner l => exact .inr ⟨l, rfl, mem_acceptsOf.mpr h⟩

/-- One node asks for one value at a ballot. -/
theorem Nodes.accept_unique (hn : s.Nodes su) {node : Node} {m m' : PaxosAccept}
    (h : .accept m ∈ s.sent node) (h' : .accept m' ∈ s.sent node) (hiid : m.iid = m'.iid)
    (hb : m.ballot = m'.ballot) : m.value = m'.value := by
  rcases hn.accept_sender h with ⟨p, rfl, hm⟩ | ⟨l, rfl, hm⟩
  · exact (hn.proposers p).ballots.unique m hm m' (mem_acceptsOf.mpr h') hiid hb
  · rw [(hn.learners l).gaps.single m hm m' (mem_acceptsOf.mpr h') hiid]

end Step

end Cluster

end LibPaxos
