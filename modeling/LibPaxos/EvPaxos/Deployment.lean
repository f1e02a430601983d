import LibPaxos.EvPaxos.Agreement
import LibPaxos.EvPaxos.LoneProposer
import LibPaxos.Stacks

/-!
# A deployment of event handlers

The programs of `evpaxos` as they run: an event handler of `evproposer.c`, `evacceptor.c` or
`evlearner.c` runs to its end before the next event of its node. The network is that of a cluster.
Beside the nodes a deployment has the trim points that acceptors report once a second, and the
messages that each node has handled.

A repeat request is handled one instance at a time, which is finer than its handler, and it may
come at any time.

* **`deployment_refines`** — a deployment is a cluster whose nodes make their calls in order, so
  that what holds of those holds of it.
-/

namespace LibPaxos

/-- The nodes, the states that acceptors have reported, and the messages each node has handled. -/
structure Deployment where
  cluster : Cluster
  states : List PaxosAcceptorState
  handled : List (Node × PaxosMessage)

/-- The message that a handler of a proposer is given. -/
def EvproposerCall.message (c : EvproposerCall) : Option PaxosMessage :=
  c.op.bind ProposerOp.message

/-- The state of an acceptor that a handler of a proposer is given. -/
def EvproposerEvent.state : EvproposerEvent → Option PaxosAcceptorState
  | .handleAcceptorState state => some state
  | _ => none

/-- A handler that runs at a node, with the node that sent its message, if it is given one. That of
a learner comes with what its deliveries find in the memory they have freed. -/
inductive HandlerEvent where
  | acceptor (id : Nat) (src : Node) (op : AcceptorOp)
  | sendAcceptorState (id : Nat)
  | proposer (id : UInt32) (src : Node) (call : EvproposerCall)
  | learner (id : Nat) (src : Node) (freed : LoggedLearner → UInt32) (ack : PaxosAccepted)

namespace Deployment

/-- All nodes fresh. -/
def init (su : Setup) : Deployment where
  cluster := .init su
  states := []
  handled := []

/-- The handler may run: the node exists, and what it is given was sent. -/
def Enabled (su : Setup) (d : Deployment) : HandlerEvent → Prop
  | .acceptor a src op => a < su.acceptors ∧ ∀ m ∈ op.message, m ∈ d.cluster.sent src
  | .sendAcceptorState a => a < su.acceptors
  | .proposer p src call =>
    p.toNat < 10 ∧ (∀ m ∈ call.message, m ∈ d.cluster.sent src) ∧
      ∀ state ∈ call.event.state, state ∈ d.states
  | .learner _ src _ ack => .accepted ack ∈ d.cluster.sent src

instance (su : Setup) (d : Deployment) : DecidablePred (Enabled su d)
  | .acceptor _ src op =>
    inferInstanceAs (Decidable (_ ∧ ∀ m ∈ op.message, m ∈ d.cluster.sent src))
  | .sendAcceptorState _ => inferInstanceAs (Decidable (_ < _))
  | .proposer _ src call =>
    inferInstanceAs (Decidable (_ ∧ (∀ m ∈ call.message, m ∈ d.cluster.sent src) ∧
      ∀ state ∈ call.event.state, state ∈ d.states))
  | .learner _ src _ ack => inferInstanceAs (Decidable (.accepted ack ∈ d.cluster.sent src))

/-- The nodes are changed and a message is handled. -/
def next (d : Deployment) (cluster : Cluster) (node : Node) (m : Option PaxosMessage) :
    Deployment where
  cluster := cluster
  states := d.states
  handled := m.toList.map (node, ·) ++ d.handled

/-- What a handler does: `evacceptor_handle_*`, `send_acceptor_state`, `evproposer_handle_*` and the
timers of a proposer, and `evlearner_handle_accepted`. A handler that does not return is no step. -/
def apply (su : Setup) (window : Int) (d : Deployment) : HandlerEvent → Option Deployment
  | .acceptor a _ op =>
    some (d.next (d.cluster.setAcceptor a ((d.cluster.acceptors a).step op)) (.acceptor a)
      op.message)
  | .sendAcceptorState a =>
    some { d with states := acceptorSetCurrentState (d.cluster.acceptors a).acceptor :: d.states }
  | .proposer p _ call =>
    ((d.cluster.proposers p).handle su.config window call).map fun r =>
      d.next (d.cluster.setProposer p r) (.proposer p) call.message
  | .learner l _ freed ack =>
    some (d.next
      (d.cluster.setLearner l (evlearnerHandleAccepted freed (d.cluster.learners l) ack))
      (.learner l) (some (.accepted ack)))

/-- One step of the deployment. -/
def step (su : Setup) (window : Int) (d : Deployment) (e : HandlerEvent) : Option Deployment :=
  if d.Enabled su e then d.apply su window e else none

/-- The states reached by handlers that satisfy `ok`. -/
abbrev Reaches (su : Setup) (window : Int) (ok : Deployment → HandlerEvent → Prop)
    (d : Deployment) : Prop :=
  Runs.Reaches (step su window) ok (init su) d

section Step

variable {su : Setup} {window : Int} {d d' : Deployment} {e : HandlerEvent}

/-- **Every step is a handler at one node**, on what was sent. -/
theorem step_cases (h : step su window d e = some d') :
    d.Enabled su e ∧
    ((∃ a src op, e = .acceptor a src op ∧
        d' = d.next (d.cluster.setAcceptor a ((d.cluster.acceptors a).step op)) (.acceptor a)
          op.message) ∨
      (∃ a, e = .sendAcceptorState a ∧ d' = { d with
        states := acceptorSetCurrentState (d.cluster.acceptors a).acceptor :: d.states }) ∨
      (∃ p src call r, e = .proposer p src call ∧
        (d.cluster.proposers p).handle su.config window call = some r ∧
        d' = d.next (d.cluster.setProposer p r) (.proposer p) call.message) ∨
      ∃ l src freed ack, e = .learner l src freed ack ∧
        d' = d.next
          (d.cluster.setLearner l (evlearnerHandleAccepted freed (d.cluster.learners l) ack))
          (.learner l) (some (.accepted ack))) := by
  unfold step at h
  split at h
  · next he =>
    refine ⟨he, ?_⟩
    cases e with
    | acceptor a src op =>
      cases h
      exact .inl ⟨a, src, op, rfl, rfl⟩
    | sendAcceptorState a =>
      cases h
      exact .inr (.inl ⟨a, rfl, rfl⟩)
    | proposer p src call =>
      obtain ⟨r, hr, rfl⟩ := Option.map_eq_some_iff.mp h
      exact .inr (.inr (.inl ⟨p, src, call, r, rfl, hr, rfl⟩))
    | learner l src freed ack =>
      cases h
      exact .inr (.inr (.inr ⟨l, src, freed, ack, rfl, rfl⟩))
  · cases h

/-- What was handled stays handled. -/
theorem mem_handled_next {cluster : Cluster} {node node' : Node} {m : Option PaxosMessage}
    {m' : PaxosMessage} :
    (node', m') ∈ (d.next cluster node m).handled ↔
      (node' = node ∧ m = some m') ∨ (node', m') ∈ d.handled := by
  unfold next
  rw [List.mem_append, List.mem_map]
  simp only [Option.mem_toList, Prod.mk.injEq]
  constructor
  · rintro (⟨_, hm, rfl, rfl⟩ | h)
    · exact .inl ⟨rfl, hm⟩
    · exact .inr h
  · rintro (⟨rfl, hm⟩ | h)
    · exact .inl ⟨m', hm, rfl, rfl⟩
    · exact .inr h

end Step

end Deployment

/-! ## Handlers are sequences of calls

A step of the deployment is a run of the cluster: the handlers of proposers by
`evproposerHandle_run`, and those of learners by the loop of deliveries. The network is the same,
since what a call hands out is what its handler sends. -/

namespace Cluster

section Calls

variable {su : Setup} {s₀ s : Cluster}

theorem setProposer_setProposer (s : Cluster) (p : UInt32) (r r' : LoggedProposer) :
    (s.setProposer p r).setProposer p r' = s.setProposer p r' := by
  unfold setProposer
  rw [Function.update_idem]

theorem setProposer_self (s : Cluster) (p : UInt32) : s.setProposer p (s.proposers p) = s := by
  unfold setProposer
  rw [Function.update_eq_self]

theorem setLearner_setLearner (s : Cluster) (l : Nat) (r r' : LoggedLearner) :
    (s.setLearner l r).setLearner l r' = s.setLearner l r' := by
  unfold setLearner
  rw [Function.update_idem]

theorem setLearner_self (s : Cluster) (l : Nat) : s.setLearner l (s.learners l) = s := by
  unfold setLearner
  rw [Function.update_eq_self]

/-- The states reached from `s₀` by calls in order. -/
abbrev CallsFrom (su : Setup) (s₀ s : Cluster) : Prop :=
  Runs.Reaches (step su) EvHandlers s₀ s

/-- **No message is taken back.** -/
theorem CallsFrom.sent_subset (hr : CallsFrom su s₀ s) (node : Node) :
    s₀.sent node ⊆ s.sent node :=
  hr.invariant (I := fun s => s₀.sent node ⊆ s.sent node) (List.Subset.refl _)
    fun _ hi _ h => List.Subset.trans hi (sent_subset_step h node)

/-- A sequence of calls at one proposer is a run of the cluster. -/
theorem CallsFrom.proposer_calls {p : UInt32} (hp : p.toNat < 10) (src : Node)
    {ops : List ProposerOp} {r : LoggedProposer} (hr : CallsFrom su s₀ s)
    (hops : ∀ op ∈ ops, op.InOrder ∧ ∀ m ∈ op.message, m ∈ s.sent src)
    (h : (s.proposers p).run su.config ops = .ok r) : CallsFrom su s₀ (s.setProposer p r) := by
  induction ops generalizing s with
  | nil =>
    cases h
    rw [setProposer_self]
    exact hr
  | cons op ops ih =>
    obtain ⟨r₁, hop, h⟩ := Except.bind_eq_ok.mp h
    obtain ⟨hfirst, hrest⟩ := List.forall_mem_cons.mp hops
    have hen : s.Enabled su (.proposer p src op) :=
      ⟨Nat.lt_trans hp (by decide), hfirst.2⟩
    have hstep : step su s (.proposer p src op) = some (s.setProposer p r₁) := by
      unfold step
      rw [if_pos hen]
      show ((s.proposers p).stepOption su.config op).map (s.setProposer p) = _
      rw [LoggedProposer.stepOption, hop]
      rfl
    have hlook : (s.setProposer p r₁).proposers p = r₁ := by
      rw [setProposer_proposers, if_pos rfl]
    have hok : s.EvHandlers (.proposer p src op) := ⟨hp, hfirst.1⟩
    rw [← setProposer_setProposer s p r₁ r]
    refine ih (.step hr hok hstep) (fun op hmem => ?_) ?_
    -- what was sent stays sent, so later calls are still enabled
    · obtain ⟨hord, hsent⟩ := hrest op hmem
      exact ⟨hord, fun m hm => sent_subset_step hstep src (hsent m hm)⟩
    · rw [hlook]
      exact h

/-- So is the loop that delivers. -/
theorem CallsFrom.deliverNextClosed (hr : CallsFrom su s₀ s) (freed : LoggedLearner → UInt32)
    (l fuel : Nat) :
    CallsFrom su s₀ (s.setLearner l (evlearnerDeliverNextClosed freed fuel (s.learners l))) := by
  -- one delivery is a step
  have hone : ∀ {s : Cluster}, CallsFrom su s₀ s →
      CallsFrom su s₀
        (s.setLearner l ((s.learners l).step (.deliverNext (freed (s.learners l))))) := by
    intro s hr
    refine .step hr (e := .learner l (.learner l) (.deliverNext (freed (s.learners l)))) rfl ?_
    exact if_pos ⟨by simp [LearnerOp.prepares], by simp [LearnerOp.message]⟩
  induction fuel generalizing s with
  | zero =>
    rw [evlearnerDeliverNextClosed, setLearner_self]
    exact hr
  | succ fuel ih =>
    rw [evlearnerDeliverNextClosed]
    split
    · exact hone hr
    · have hrest := ih (hone hr)
      rwa [setLearner_setLearner, setLearner_learners, if_pos rfl] at hrest

end Calls

end Cluster

namespace Deployment

section Refines

variable {su : Setup} {window : Int} {ok : Deployment → HandlerEvent → Prop} {d d' : Deployment}
  {e : HandlerEvent}

/-- **A handler is a run of calls.** -/
theorem cluster_step (h : step su window d e = some d') :
    Cluster.CallsFrom su d.cluster d'.cluster := by
  obtain ⟨hen, ⟨a, src, op, rfl, rfl⟩ | ⟨a, rfl, rfl⟩ | ⟨p, src, call, r, rfl, hcall, rfl⟩ |
    ⟨l, src, freed, ack, rfl, rfl⟩⟩ := step_cases h
  · exact .step .init (e := .acceptor a src op) trivial (if_pos hen)
  · exact .init
  · obtain ⟨ops, hown, hrun⟩ := LoggedProposer.handle_run hcall
    refine Cluster.CallsFrom.proposer_calls hen.1 src .init
      (List.forall_mem_append.mpr ⟨fun op hop => ?_, fun op hop => ?_⟩) hrun
    · refine ⟨EvproposerEvent.call_inOrder _ _ op hop, fun m hm => hen.2.1 m ?_⟩
      exact Option.mem_bind_iff.mpr ⟨op, Option.mem_toList.mp hop, hm⟩
    · refine ⟨(hown op hop).inOrder, fun m hm => ?_⟩
      rw [(hown op hop).message_eq_none] at hm
      cases hm
  · have hreceive : Cluster.CallsFrom su d.cluster
        (d.cluster.setLearner l ((d.cluster.learners l).step (.receiveAccepted ack))) := by
      refine .step .init (e := .learner l src (.receiveAccepted ack)) rfl (if_pos ⟨?_, ?_⟩)
      · exact fun iid hiid => by cases hiid
      · rintro m ⟨⟩
        exact hen
    have hrest := hreceive.deliverNextClosed freed l
      (((d.cluster.learners l).step (.receiveAccepted ack)).learner.instances.entries.length + 1)
    rwa [Cluster.setLearner_setLearner, Cluster.setLearner_learners, if_pos rfl] at hrest

theorem Reaches.cluster (hr : Reaches su window ok d) :
    Cluster.Reaches su Cluster.EvHandlers d.cluster :=
  hr.invariant (I := fun d => Cluster.Reaches su Cluster.EvHandlers d.cluster) .init
    fun _ hi _ h => hi.trans (cluster_step h)

/-- **What is handled was sent.** -/
theorem Reaches.handled_sent (hr : Reaches su window ok d) :
    ∀ node m, (node, m) ∈ d.handled → ∃ src, m ∈ d.cluster.sent src := by
  refine hr.invariant
    (I := fun d => ∀ node m, (node, m) ∈ d.handled → ∃ src, m ∈ d.cluster.sent src)
    (fun _ _ h => by cases h) ?_
  intro d d' e _ hi _ h node m hmem
  have hsub := fun src => Cluster.CallsFrom.sent_subset (cluster_step h) src
  have hold : (node, m) ∈ d.handled → ∃ src, m ∈ d'.cluster.sent src := by
    intro hmem
    obtain ⟨src, hsrc⟩ := hi node m hmem
    exact ⟨src, hsub src hsrc⟩
  obtain ⟨hen, ⟨a, src, op, rfl, rfl⟩ | ⟨a, rfl, rfl⟩ | ⟨p, src, call, r, rfl, hcall, rfl⟩ |
    ⟨l, src, freed, ack, rfl, rfl⟩⟩ := step_cases h
  · rcases mem_handled_next.mp hmem with ⟨-, hm⟩ | hmem
    · exact ⟨src, hsub src (hen.2 m hm)⟩
    · exact hold hmem
  · exact hold hmem
  · rcases mem_handled_next.mp hmem with ⟨-, hm⟩ | hmem
    · exact ⟨src, hsub src (hen.2.1 m hm)⟩
    · exact hold hmem
  · rcases mem_handled_next.mp hmem with ⟨-, hm⟩ | hmem
    · cases hm
      exact ⟨src, hsub src hen⟩
    · exact hold hmem

end Refines

/-- **A deployment is a cluster.** Whatever handlers run, and in whatever order, the nodes are in a
state that they reach by single calls in order, with each message taken from what was sent; so two
non-empty values that are chosen for an instance are equal. -/
theorem deployment_refines (su : Setup) (window : Int) (d : Deployment)
    (hr : Reaches su window (fun _ _ => True) d) :
    Cluster.Reaches su Cluster.EvHandlers d.cluster ∧
      (∀ node m, (node, m) ∈ d.handled → ∃ src, m ∈ d.cluster.sent src) ∧
      ∀ i b b' v v', v ≠ [] → v' ≠ [] → d.cluster.Chosen su i b v → d.cluster.Chosen su i b' v' →
        v = v' :=
  ⟨hr.cluster, hr.handled_sent, fun _ _ _ _ _ hv hv' h h' =>
    (Cluster.Reaches.coreInv hr.cluster).chosen_eq h hv h' hv'⟩

/-- A handler of the proposer `p` at the time 0. -/
def ownEvent (p : UInt32) (src : Node) (event : EvproposerEvent) : HandlerEvent :=
  .proposer p src (callAt event)

/-- The acceptors answer the prepare request of the proposer `p`, and it gets the answers. -/
def preparedBy (p i : UInt32) (b : UInt16) (as : List Nat) : List HandlerEvent :=
  as.map (fun a => .acceptor a (.proposer p) (.receivePrepare (prepareAt b i))) ++
    as.map fun a => ownEvent p (.acceptor a)
      (.handlePromise { iid := i, ballot := b, aid := UInt16.ofNat a })

/-- A value is submitted before the start-up, and two of three acceptors accept it. -/
def chosenAtOnce : List HandlerEvent :=
  [ownEvent 0 (.proposer 0) (.handleClientValue [1]), ownEvent 1 (.proposer 1) .preexecOnce] ++
    preparedBy 0 1 10 [0, 2] ++
    [.acceptor 2 (.proposer 0) (.receiveAccept (acceptAt 10 1 [1])), .sendAcceptorState 1,
      .acceptor 0 (.proposer 0) (.receiveAccept (acceptAt 10 1 [1]))]

theorem deployment_refines_chosen :
    ∃ d : Deployment, d.cluster.Chosen { acceptors := 3 } 1 10 [1] ∧
      Cluster.Reaches { acceptors := 3 } Cluster.EvHandlers d.cluster ∧
      ∀ b v, v ≠ [] → d.cluster.Chosen { acceptors := 3 } 1 b v → v = [1] := by
  obtain ⟨d, hr, hd⟩ := Runs.exists_reaches_of_run (step { acceptors := 3 } 2) (fun _ _ => True)
    (init { acceptors := 3 }) chosenAtOnce
    (fun d => ∀ a ∈ ([0, 2] : List Nat), (d.cluster.acceptors a).Voted 1 10 [1]) (by decide +kernel)
  have hc : d.cluster.Chosen { acceptors := 3 } 1 10 [1] :=
    chosenBy_of_voters [0, 2] (by decide) (of_decide_eq_true hd)
  obtain ⟨hcluster, -, hagree⟩ := deployment_refines _ _ d hr
  exact ⟨d, hc, hcluster, fun b v hv h => hagree 1 b 10 v [1] hv (by decide) h hc⟩

end Deployment

end LibPaxos
