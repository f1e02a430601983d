import LibPaxos.Lib.Runs
import LibPaxos.AcceptorRuns
import LibPaxos.LearnerGaps

/-!
# The sequencer deployment

Clients send accept requests with ballot 0, a sequencer stamps each with the next instance id and
passes it on to the acceptors. There is no first phase for ordinary traffic. Learners find the gaps
of what they got and fill them themselves, with a first phase of their own.

Messages are taken from what the sender has sent so far, any number of times and in any order. The
acceptor of `net/acceptor.c` drops preempted replies; here they may be delivered too, as
`on_paxos_preempted` of `net/learner.c` expects them.
-/

namespace LibPaxos

/-- `struct sequencer`. -/
structure Sequencer where
  currentInstance : UInt32

/-- `sequencer_new`. -/
def sequencerNew : Sequencer where
  currentInstance := 1

/-- `sequencer_handle_proposal`: the request with the next instance id written over its own. -/
def sequencerHandleProposal (sq : Sequencer) (msg : PaxosAccept) : Sequencer × PaxosAccept :=
  ({ currentInstance := sq.currentInstance + 1 }, { msg with iid := sq.currentInstance })

/-- `submit`: the request of a client. -/
def submit (value : PaxosValue) : PaxosAccept where
  iid := 1
  ballot := 0
  valueBallot := 0
  aid := 0
  value := value

namespace NetPaxos

/-- Who sends messages that acceptors and learners get. -/
inductive Node where
  | sequencer
  | acceptor (id : Nat)
  | learner (id : Nat)
deriving DecidableEq

/-- The parties and what they have sent. `submitted` holds what clients have sent to the sequencer,
`stamped` what the sequencer has sent on. -/
structure State where
  submitted : List PaxosAccept
  sequencer : Sequencer
  stamped : List PaxosAccept
  acceptors : Nat → LoggedAcceptor
  learners : Nat → LoggedLearner

/-- What can happen, with the node that sent the message that a call is given. -/
inductive Event where
  | submit (value : PaxosValue)
  | handleProposal (msg : PaxosAccept)
  | acceptor (id : Nat) (src : Node) (op : AcceptorOp)
  | learner (id : Nat) (src : Node) (op : LearnerOp)

/-- All parties fresh; `make_learner` starts a learner at the first instance. -/
def init (config : PaxosConfig) (n : Nat) : State where
  submitted := []
  sequencer := sequencerNew
  stamped := []
  acceptors a := .fresh a
  learners _ := .startingAt config n 0

/-- The messages a node has sent. -/
def State.sent (s : State) : Node → List PaxosMessage
  | .sequencer => s.stamped.map .accept
  | .acceptor a => (s.acceptors a).log.filterMap Prod.snd
  | .learner l => (s.learners l).emitted

/-- The event may happen. Acceptors get prepare and accept requests; a learner prepares only an
instance it is missing. -/
def Enabled (n : Nat) (s : State) : Event → Prop
  | .submit _ => True
  | .handleProposal msg => msg ∈ s.submitted
  | .acceptor a src op => a < n ∧ ∃ m ∈ op.message, m ∈ s.sent src
  | .learner l src op =>
    (∀ iid ∈ op.prepares, (s.learners l).learner.InHoles iid) ∧ ∀ m ∈ op.message, m ∈ s.sent src

instance (n : Nat) (s : State) : DecidablePred (Enabled n s)
  | .submit _ => instDecidableTrue
  | .handleProposal msg => inferInstanceAs (Decidable (msg ∈ s.submitted))
  | .acceptor _ src op => inferInstanceAs (Decidable (_ ∧ ∃ m ∈ op.message, m ∈ s.sent src))
  | .learner l src op =>
    inferInstanceAs (Decidable ((∀ iid ∈ op.prepares, (s.learners l).learner.InHoles iid) ∧
      ∀ m ∈ op.message, m ∈ s.sent src))

/-- What an event does. -/
def apply (s : State) : Event → State
  | .submit value => { s with submitted := LibPaxos.submit value :: s.submitted }
  | .handleProposal msg =>
    { s with
      sequencer := (sequencerHandleProposal s.sequencer msg).1
      stamped := (sequencerHandleProposal s.sequencer msg).2 :: s.stamped }
  | .acceptor a _ op =>
    { s with acceptors := Function.update s.acceptors a ((s.acceptors a).step op) }
  | .learner l _ op => { s with learners := Function.update s.learners l ((s.learners l).step op) }

/-- One step. -/
def step (n : Nat) (s : State) (e : Event) : Option State :=
  if Enabled n s e then some (apply s e) else none

/-- The states reached by steps that satisfy `ok`. -/
abbrev Reaches (config : PaxosConfig) (n : Nat) (ok : State → Event → Prop) (s : State) : Prop :=
  Runs.Reaches (step n) ok (init config n) s

theorem step_eq_some {n : Nat} {s s' : State} {e : Event} (h : step n s e = some s') :
    Enabled n s e ∧ s' = apply s e := by
  unfold step at h
  split at h
  · rename_i he
    cases h
    exact ⟨he, rfl⟩
  · cases h

section Step

variable {n : Nat} {s s' : State} {e : Event}

/-- What a step does to one acceptor: nothing, or it handles one request that was sent. -/
theorem acceptors_step (h : step n s e = some s') (a : Nat) :
    s'.acceptors a = s.acceptors a ∨ ∃ src op, a < n ∧ (∃ m ∈ op.message, m ∈ s.sent src) ∧
      s'.acceptors a = (s.acceptors a).step op := by
  obtain ⟨hen, rfl⟩ := step_eq_some h
  cases e with
  | acceptor b src op =>
    by_cases hab : a = b
    · subst hab
      exact .inr ⟨src, op, hen.1, hen.2, Function.update_self ..⟩
    · exact .inl (Function.update_of_ne hab ..)
  | submit | handleProposal | learner => exact .inl rfl

/-- What a step does to one learner: nothing, or it makes one call. -/
theorem learners_step (h : step n s e = some s') (l : Nat) :
    s'.learners l = s.learners l ∨ ∃ src op, e = .learner l src op ∧
      (∀ m ∈ op.message, m ∈ s.sent src) ∧ s'.learners l = (s.learners l).step op := by
  obtain ⟨hen, rfl⟩ := step_eq_some h
  cases e with
  | learner k src op =>
    by_cases hlk : l = k
    · subst hlk
      exact .inr ⟨src, op, rfl, hen.2, Function.update_self ..⟩
    · exact .inl (Function.update_of_ne hlk ..)
  | submit | handleProposal | acceptor => exact .inl rfl

theorem voted_mono (h : step n s e = some s') {a : Nat} {i : UInt32} {c : UInt16} {v : PaxosValue}
    (hv : (s.acceptors a).Voted i c v) : (s'.acceptors a).Voted i c v := by
  rcases acceptors_step h a with heq | ⟨src, op, -, -, heq⟩
  · rw [heq]
    exact hv
  · rw [heq]
    exact hv.step

end Step

end NetPaxos

end LibPaxos
