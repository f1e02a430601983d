import LibPaxos.ProposerOrder
import LibPaxos.ProposerTimeouts

/-!
# The event handlers of a proposer

`evproposer.c`. A handler makes one call of `proposer.c` for its message and sends what the call
hands out. If something has changed it goes on with `try_accept`: accept requests for all instances
that are ready, then prepare requests until `preexec_window` instances wait for promises. A trim
point that is heard of is not followed by `try_accept`.

* **`evproposerHandle_run`** — a handler is a run of calls: that of its event, then some on its own
  behalf.
-/

namespace LibPaxos

open Proposer Loops

/-! ## The handlers -/

/-- A handler at work: its proposer, and the requests sent to all acceptors, oldest first. -/
structure Sending where
  proposer : Proposer
  sent : List PaxosMessage

/-- What calls a handler: a message, a timer, or the program around it. `rehash` is not a call, as
in `ProposerOp`. -/
inductive EvproposerEvent where
  | handlePromise (ack : PaxosPromise)
  | handleAccepted (ack : PaxosAccepted)
  | handlePreempted (ack : PaxosPreempted)
  | handleClientValue (value : PaxosValue)
  | handleAcceptorState (state : PaxosAcceptorState)
  | checkTimeouts
  | preexecOnce
  | setInstanceId (iid : UInt32)
  | rehash (prepareInstances acceptInstances : KHash Instance)

/-- `proposer_prepared_count`. -/
def proposerPreparedCount (p : Proposer) : Int :=
  p.prepareInstances.entries.length

/-- The body of the loop of `proposer_preexecute`, which reads the clock for the `i`th time. -/
def preexecuteTurn (clock : Nat → Int) (s : Sending) (i : Nat) : Except Fault Sending := do
  let (p, pr) ← proposerPrepare (clock i) s.proposer
  .ok { proposer := p, sent := s.sent ++ [.prepare pr] }

/-- `proposer_preexecute`. -/
def proposerPreexecute (window : Int) (clock : Nat → Int) (s : Sending) : Except Fault Sending :=
  let count := window - proposerPreparedCount s.proposer
  if count ≤ 0 then .ok s
  else (List.range count.toNat).foldlM (preexecuteTurn clock) s

/-- A turn of the loop of `try_accept`. -/
def tryAcceptTurn (s : Sending) : Except Fault (Sending × Bool) := do
  match ← proposerAccept s.proposer with
  | (p, none) => .ok ({ s with proposer := p }, false)
  | (p, some accept) => .ok ({ proposer := p, sent := s.sent ++ [.accept accept] }, true)

/-- `try_accept`, with a bound on the turns of its loop. -/
def tryAccept (window : Int) (fuel : Nat) (clock : Nat → Int) (s : Sending) :
    Except Fault (Option Sending) := do
  match ← loop tryAcceptTurn fuel s with
  | none => .ok none
  | some s => do
    let s ← proposerPreexecute window clock s
    .ok (some s)

/-- The handlers `evproposer_handle_*`, the two timers and `evproposer_set_instance_id`. `clock`
gives the times of day that are read after the event. -/
def evproposerHandle (config : PaxosConfig) (window : Int) (fuel : Nat) (clock : Nat → Int)
    (p : Proposer) : EvproposerEvent → Except Fault (Option Sending)
  | .handlePromise ack => do
    let (p, prepare) ← proposerReceivePromise (clock 0) p ack
    tryAccept window fuel (fun i => clock (i + 1))
      { proposer := p, sent := prepare.toList.map .prepare }
  | .handleAccepted ack => do
    let (p, rv) ← proposerReceiveAccepted p ack
    if rv ≠ 0 then tryAccept window fuel clock { proposer := p, sent := [] }
    else .ok (some { proposer := p, sent := [] })
  | .handlePreempted ack => do
    let (p, preempted) ← proposerReceivePreempted (clock 0) p ack
    match preempted with
    | some prepare =>
      tryAccept window fuel (fun i => clock (i + 1)) { proposer := p, sent := [.prepare prepare] }
    | none => .ok (some { proposer := p, sent := [] })
  | .handleClientValue value =>
    tryAccept window fuel clock { proposer := proposerPropose p value, sent := [] }
  | .handleAcceptorState state =>
    .ok (some { proposer := proposerReceiveAcceptorState p state, sent := [] })
  | .checkTimeouts => do
    match ← evproposerCheckTimeouts config fuel (clock 0) p with
    | none => .ok none
    | some s =>
      .ok (some
        { proposer := s.proposer, sent := s.prepares.map .prepare ++ s.accepts.map .accept })
  | .preexecOnce => do
    let s ← proposerPreexecute window clock { proposer := p, sent := [] }
    .ok (some s)
  | .setInstanceId iid => .ok (some { proposer := proposerSetInstanceId p iid, sent := [] })
  | .rehash hp ha =>
    if hp.entries.Perm p.prepareInstances.entries ∧ ha.entries.Perm p.acceptInstances.entries then
      .ok (some
        { proposer := { p with prepareInstances := hp, acceptInstances := ha }, sent := [] })
    else .ok (some { proposer := p, sent := [] })

/-- The call of `proposer.c` that a handler makes first, if it makes one for the event. -/
def EvproposerEvent.call (clock : Nat → Int) : EvproposerEvent → Option ProposerOp
  | .handlePromise ack => some (.receivePromise (clock 0) ack)
  | .handleAccepted ack => some (.receiveAccepted ack)
  | .handlePreempted ack => some (.receivePreempted (clock 0) ack)
  | .handleClientValue value => some (.propose value)
  | .handleAcceptorState state => some (.receiveAcceptorState state)
  | .checkTimeouts => none
  | .preexecOnce => none
  | .setInstanceId iid => some (.setInstanceId iid)
  | .rehash hp ha => some (.rehash hp ha)

/-! ## Sequences of calls

What is true of every call is true of a handler. `CallsOf` is closed under composition, so that a
handler can be taken apart like its code. -/

/-- A call of `evproposer_check_timeouts`. -/
def ProposerOp.Retries : ProposerOp → Prop
  | .timeoutIteratorPrepare _ => True
  | .timeoutIteratorAccept _ => True
  | _ => False

/-- A call that a handler makes on its own behalf. -/
def ProposerOp.Own : ProposerOp → Prop
  | .prepare _ => True
  | .accept => True
  | .timeoutIteratorPrepare _ => True
  | .timeoutIteratorAccept _ => True
  | _ => False

theorem ProposerOp.Retries.own {op : ProposerOp} (h : op.Retries) : op.Own := by
  cases op with
  | timeoutIteratorPrepare | timeoutIteratorAccept => trivial
  | _ => exact h.elim

/-- The calls `ops` lead from `s` to `s'`, and what they hand out is sent. -/
inductive Calls (config : PaxosConfig) : Sending → List ProposerOp → Sending → Prop where
  | nil (s : Sending) : Calls config s [] s
  | cons {s s' : Sending} {op : ProposerOp} {ops : List ProposerOp} {p : Proposer}
      {out : List PaxosMessage} (hop : proposerStep config s.proposer op = .ok (p, out))
      (hops : Calls config { proposer := p, sent := s.sent ++ out } ops s') :
      Calls config s (op :: ops) s'

section Calls

variable {config : PaxosConfig} {s s' s₁ s₂ : Sending} {ops ops' : List ProposerOp}
  {op : ProposerOp}

theorem Calls.one {p : Proposer} {out : List PaxosMessage}
    (hop : proposerStep config s.proposer op = .ok (p, out)) :
    Calls config s [op] { proposer := p, sent := s.sent ++ out } :=
  .cons hop (.nil _)

theorem Calls.trans (h : Calls config s ops s₁) (h' : Calls config s₁ ops' s₂) :
    Calls config s (ops ++ ops') s₂ := by
  induction h with
  | nil => exact h'
  | cons hop _ ih => exact .cons hop (ih h')

/-- **What every call in order keeps**: the tables are well formed and the phases apart. -/
structure Proposer.Sound (p : Proposer) : Prop where
  wellFormed : p.WellFormed
  sequential : p.Sequential

theorem proposerNew_sound (id : UInt32) (n : Nat) : (proposerNew id n).Sound :=
  ⟨proposerNew_wellFormed id n, proposerNew_sequential id n⟩

theorem Proposer.Sound.move {p : Proposer} (hp : p.Sound) {p' : Proposer}
    {out : List PaxosMessage} (h : proposerStep config p op = .ok (p', out)) :
    ProposerMove p op p' out :=
  proposerStep_move hp.wellFormed.keyed_prepare hp.wellFormed.keyed_accept h

theorem Proposer.Sound.step {p : Proposer} (hp : p.Sound) (config : PaxosConfig) (op : ProposerOp)
    (hop : op.InOrder) {p' : Proposer} {out : List PaxosMessage}
    (h : proposerStep config p op = .ok (p', out)) : p'.Sound :=
  ⟨hp.wellFormed.move (hp.move h), hp.sequential.move hop.tidy (hp.move h)⟩

theorem ProposerOp.Own.inOrder (h : op.Own) : op.InOrder := by
  cases op with
  | prepareInstance => exact h
  | _ => trivial

theorem ProposerOp.Own.message_eq_none (h : op.Own) : op.message = none := by
  cases op with
  | receivePromise | receiveAccepted | receivePreempted => exact h.elim
  | _ => rfl

/-- The rule for sequences of calls. -/
theorem Calls.invariant {I : Proposer → Prop} (h : Calls config s ops s')
    (hstep : ∀ p op p' out, I p → op ∈ ops → proposerStep config p op = .ok (p', out) → I p')
    (hs : I s.proposer) : I s'.proposer := by
  induction h with
  | nil => exact hs
  | cons hop _ ih =>
    refine ih (fun p op p' out hp hmem => hstep p op p' out hp (List.mem_cons_of_mem _ hmem)) ?_
    exact hstep _ _ _ _ hs List.mem_cons_self hop

/-- Calls of the kind `ok` lead from `s` to `s'`. -/
def CallsOf (config : PaxosConfig) (ok : ProposerOp → Prop) (s s' : Sending) : Prop :=
  ∃ ops, (∀ op ∈ ops, ok op) ∧ Calls config s ops s'

variable {ok ok' : ProposerOp → Prop}

theorem CallsOf.refl (config : PaxosConfig) (ok : ProposerOp → Prop) (s : Sending) :
    CallsOf config ok s s :=
  ⟨[], List.forall_mem_nil _, .nil s⟩

theorem CallsOf.trans (h : CallsOf config ok s s₁) (h' : CallsOf config ok s₁ s₂) :
    CallsOf config ok s s₂ := by
  obtain ⟨ops, hok, hops⟩ := h
  obtain ⟨ops', hok', hops'⟩ := h'
  exact ⟨ops ++ ops', List.forall_mem_append.mpr ⟨hok, hok'⟩, hops.trans hops'⟩

theorem CallsOf.one (op : ProposerOp) {p : Proposer} {out : List PaxosMessage} (hok : ok op)
    (hop : proposerStep config s.proposer op = .ok (p, out)) :
    CallsOf config ok s { proposer := p, sent := s.sent ++ out } :=
  ⟨[op], List.forall_mem_singleton.mpr hok, .one hop⟩

theorem CallsOf.mono (h : CallsOf config ok s s') (hok : ∀ op, ok op → ok' op) :
    CallsOf config ok' s s' := by
  obtain ⟨ops, hops, hcalls⟩ := h
  exact ⟨ops, fun op hop => hok op (hops op hop), hcalls⟩

theorem CallsOf.invariant {I : Proposer → Prop} (h : CallsOf config ok s s')
    (hstep : ∀ p op p' out, I p → ok op → proposerStep config p op = .ok (p', out) → I p')
    (hs : I s.proposer) : I s'.proposer := by
  obtain ⟨ops, hops, hcalls⟩ := h
  exact hcalls.invariant (fun p op p' out hp hmem hop => hstep p op p' out hp (hops op hmem) hop) hs

theorem CallsOf.sound (h : CallsOf config ok s s') (hok : ∀ op, ok op → op.InOrder)
    (hs : s.proposer.Sound) : s'.proposer.Sound :=
  h.invariant (fun _ op _ _ hp hop hstep => hp.step config op (hok op hop) hstep) hs

end Calls

/-! ## The handlers make calls in order

One lemma for each function of `evproposer.c`: the loops by induction on their turns, the handlers
by composing what they call. -/

section Own

variable {config : PaxosConfig} {window : Int} {fuel : Nat} {clock : Nat → Int} {s s' : Sending}

theorem tryAcceptTurn_callsOf {again : Bool} (h : tryAcceptTurn s = .ok (s', again)) :
    CallsOf config ProposerOp.Own s s' := by
  obtain ⟨⟨p, out⟩, haccept, h⟩ := Except.bind_eq_ok.mp h
  have hstep : proposerStep config s.proposer .accept = .ok (p, out.toList.map .accept) :=
    Except.bind_eq_ok.mpr ⟨_, haccept, rfl⟩
  cases out with
  | none =>
    cases h
    have hcall : CallsOf config ProposerOp.Own s _ := .one .accept trivial hstep
    rwa [Option.toList_none, List.map_nil, List.append_nil] at hcall
  | some accept =>
    cases h
    exact CallsOf.one .accept trivial hstep

theorem preexecuteTurn_callsOf {i : Nat} (h : preexecuteTurn clock s i = .ok s') :
    CallsOf config ProposerOp.Own s s' := by
  obtain ⟨⟨p, pr⟩, hprepare, h⟩ := Except.bind_eq_ok.mp h
  cases h
  exact CallsOf.one (.prepare (clock i)) trivial
    (Except.bind_eq_ok.mpr ⟨_, hprepare, rfl⟩)

theorem foldlM_preexecuteTurn_callsOf {is : List Nat}
    (h : is.foldlM (preexecuteTurn clock) s = .ok s') : CallsOf config ProposerOp.Own s s' := by
  induction is generalizing s with
  | nil =>
    cases h
    exact .refl config _ _
  | cons i is ih =>
    rw [List.foldlM_cons] at h
    obtain ⟨s₁, hturn, h⟩ := Except.bind_eq_ok.mp h
    exact (preexecuteTurn_callsOf hturn).trans (ih h)

theorem proposerPreexecute_callsOf (h : proposerPreexecute window clock s = .ok s') :
    CallsOf config ProposerOp.Own s s' := by
  unfold proposerPreexecute at h
  simp only at h
  split at h
  · cases h
    exact .refl config _ s
  · exact foldlM_preexecuteTurn_callsOf h

theorem tryAccept_callsOf (h : tryAccept window fuel clock s = .ok (some s')) :
    CallsOf config ProposerOp.Own s s' := by
  obtain ⟨out, hloop, h⟩ := Except.bind_eq_ok.mp h
  cases out with
  | none => cases h
  | some s₁ =>
    obtain ⟨s₂, hpre, h⟩ := Except.bind_eq_ok.mp h
    cases h
    refine .trans ?_ (proposerPreexecute_callsOf hpre)
    exact of_loop_eq_some (I := CallsOf config ProposerOp.Own s)
      (fun _ _ _ hcalls hturn => hcalls.trans (tryAcceptTurn_callsOf hturn)) (.refl config _ s)
      hloop

/-- What the timer has sent so far. -/
def Checking.sending (c : Checking) : Sending where
  proposer := c.proposer
  sent := c.prepares.map .prepare ++ c.accepts.map .accept

theorem prepareTurn_callsOf {c c' : Checking} {again : Bool} (hc : c.accepts = [])
    (h : prepareTurn config c = .ok (c', again)) :
    CallsOf config ProposerOp.Retries c.sending c'.sending ∧ c'.accepts = [] := by
  have hstep : proposerStep config c.proposer (.timeoutIteratorPrepare c.iter)
      = .ok ((timeoutIteratorPrepare config c.proposer c.iter).1,
          (timeoutIteratorPrepare config c.proposer c.iter).2.2.toList.map .prepare) := rfl
  have hcall : CallsOf config ProposerOp.Retries c.sending _ :=
    .one (.timeoutIteratorPrepare c.iter) trivial hstep
  unfold prepareTurn at h
  generalize timeoutIteratorPrepare config c.proposer c.iter = found at h hcall
  obtain ⟨p, iter, _ | out⟩ := found
  · cases h
    refine ⟨?_, hc⟩
    rwa [Option.toList_none, List.map_nil, List.append_nil] at hcall
  · cases h
    refine ⟨?_, hc⟩
    unfold Checking.sending at hcall ⊢
    simpa [hc] using hcall

theorem acceptTurn_callsOf {c c' : Checking} {again : Bool}
    (h : acceptTurn config c = .ok (c', again)) :
    CallsOf config ProposerOp.Retries c.sending c'.sending := by
  obtain ⟨⟨p, iter, out⟩, hnext, h⟩ := Except.bind_eq_ok.mp h
  have hstep : proposerStep config c.proposer (.timeoutIteratorAccept c.iter)
      = .ok (p, out.toList.map .accept) := Except.bind_eq_ok.mpr ⟨_, hnext, rfl⟩
  have hcall : CallsOf config ProposerOp.Retries c.sending _ :=
    .one (.timeoutIteratorAccept c.iter) trivial hstep
  cases out with
  | none =>
    cases h
    rwa [Option.toList_none, List.map_nil, List.append_nil] at hcall
  | some out =>
    cases h
    unfold Checking.sending at hcall ⊢
    simpa using hcall

theorem checkTimeouts_callsOf {now : Int} {p : Proposer} {c : Checking}
    (h : evproposerCheckTimeouts config fuel now p = .ok (some c)) :
    CallsOf config ProposerOp.Retries { proposer := p, sent := [] } c.sending := by
  obtain ⟨out, hloop, h⟩ := Except.bind_eq_ok.mp h
  cases out with
  | none => cases h
  | some c₁ =>
    -- the first loop leaves the accept requests alone, so the order of the two lists is right
    have hfirst := of_loop_eq_some
      (I := fun c => CallsOf config ProposerOp.Retries { proposer := p, sent := [] } c.sending ∧
        c.accepts = [])
      (fun _ _ _ hc hturn =>
        ⟨hc.1.trans (prepareTurn_callsOf hc.2 hturn).1, (prepareTurn_callsOf hc.2 hturn).2⟩)
      ⟨.refl config _ _, rfl⟩ hloop
    exact of_loop_eq_some
      (I := fun c => CallsOf config ProposerOp.Retries { proposer := p, sent := [] } c.sending)
      (fun _ _ _ hc hturn => hc.trans (acceptTurn_callsOf hturn)) hfirst.1 h

/-- **A handler makes the call of its event**, then calls on its own behalf. -/
theorem evproposerHandle_calls {p : Proposer} {ev : EvproposerEvent}
    (h : evproposerHandle config window fuel clock p ev = .ok (some s')) :
    ∃ s, Calls config { proposer := p, sent := [] } (ev.call clock).toList s ∧
      CallsOf config ProposerOp.Own s s' := by
  cases ev with
  | handlePromise ack =>
    obtain ⟨⟨p₁, prepare⟩, hcall, h⟩ := Except.bind_eq_ok.mp h
    exact ⟨_, .one (Except.bind_eq_ok.mpr ⟨_, hcall, rfl⟩), tryAccept_callsOf h⟩
  | handleAccepted ack =>
    obtain ⟨⟨p₁, rv⟩, hcall, h⟩ := Except.bind_eq_ok.mp h
    refine ⟨_, .one (Except.bind_eq_ok.mpr ⟨_, hcall, rfl⟩), ?_⟩
    simp only at h
    split at h
    · exact tryAccept_callsOf h
    · cases h
      exact .refl config _ _
  | handlePreempted ack =>
    obtain ⟨⟨p₁, preempted⟩, hcall, h⟩ := Except.bind_eq_ok.mp h
    refine ⟨_, .one (Except.bind_eq_ok.mpr ⟨_, hcall, rfl⟩), ?_⟩
    cases preempted with
    | some prepare => exact tryAccept_callsOf h
    | none =>
      cases h
      exact .refl config _ _
  | handleClientValue value => exact ⟨_, .one rfl, tryAccept_callsOf h⟩
  | handleAcceptorState state =>
    cases h
    exact ⟨_, .one rfl, .refl config _ _⟩
  -- the timers make no call for an event
  | checkTimeouts =>
    obtain ⟨out, hcheck, h⟩ := Except.bind_eq_ok.mp h
    cases out with
    | none => cases h
    | some c =>
      cases h
      exact ⟨_, .nil _, (checkTimeouts_callsOf hcheck).mono fun _ h => h.own⟩
  | preexecOnce =>
    obtain ⟨s₁, hpre, h⟩ := Except.bind_eq_ok.mp h
    cases h
    exact ⟨_, .nil _, proposerPreexecute_callsOf hpre⟩
  | setInstanceId iid =>
    cases h
    exact ⟨_, .one rfl, .refl config _ _⟩
  | rehash hp ha =>
    simp only [evproposerHandle] at h
    split at h
    · next hperm =>
      cases h
      exact ⟨_, .one (if_pos hperm), .refl config _ _⟩
    · next hperm =>
      cases h
      exact ⟨_, .one (if_neg hperm), .refl config _ _⟩

end Own

/-! ## Logged handlers

The logs of a proposer are per call and newest first, a handler sends in the order of its calls. The
two are the same, as a call hands out one request at most. -/

/-- A call of a handler: the bound on its loops, the times of day it reads, and the event. -/
structure EvproposerCall where
  fuel : Nat
  clock : Nat → Int
  event : EvproposerEvent

/-- The call of `proposer.c` that is made for the event. -/
def EvproposerCall.op (c : EvproposerCall) : Option ProposerOp :=
  c.event.call c.clock

namespace LoggedProposer

/-- The proposer after a handler has made the call `op` for its event and has ended in `s`. -/
def after (r : LoggedProposer) (op : Option ProposerOp) (s : Sending) : LoggedProposer where
  proposer := s.proposer
  submitted := op.toList.flatMap submittedBy ++ r.submitted
  emitted := s.sent.reverse ++ r.emitted
  decided := op.toList.flatMap (decidedBy r.proposer) ++ r.decided

/-- A handler as a step: no state is reached if it does not return. -/
def handle (config : PaxosConfig) (window : Int) (r : LoggedProposer) (c : EvproposerCall) :
    Option LoggedProposer :=
  match evproposerHandle config window c.fuel c.clock r.proposer c.event with
  | .ok (some s) => some (r.after c.op s)
  | _ => none

theorem handle_eq_some {config : PaxosConfig} {window : Int} {r r' : LoggedProposer}
    {c : EvproposerCall} (h : r.handle config window c = some r') :
    ∃ s, evproposerHandle config window c.fuel c.clock r.proposer c.event = .ok (some s) ∧
      r' = r.after c.op s := by
  unfold handle at h
  split at h
  · next s hs =>
    cases h
    exact ⟨s, hs, rfl⟩
  · cases h

end LoggedProposer

section Logged

variable {config : PaxosConfig} {window : Int} {s s' : Sending} {ops : List ProposerOp}
  {op : ProposerOp} {p p' : Proposer} {out : List PaxosMessage}

/-- A call hands out one request at most. -/
theorem proposerStep_length_le (h : proposerStep config p op = .ok (p', out)) :
    out.length ≤ 1 := by
  have hopt : ∀ {α : Type} (f : α → PaxosMessage) (o : Option α), (o.toList.map f).length ≤ 1 := by
    intro α f o
    cases o <;> simp
  cases op with
  | propose | receiveAcceptorState | setInstanceId =>
    cases h
    exact Nat.zero_le _
  | prepare | prepareInstance =>
    obtain ⟨r, -, h⟩ := Except.bind_eq_ok.mp h
    cases h
    exact Nat.le_refl _
  | receivePromise | accept | receivePreempted | timeoutIteratorAccept =>
    obtain ⟨r, -, h⟩ := Except.bind_eq_ok.mp h
    cases h
    exact hopt _ _
  | receiveAccepted =>
    obtain ⟨r, -, h⟩ := Except.bind_eq_ok.mp h
    cases h
    exact Nat.zero_le _
  | timeoutIteratorPrepare =>
    cases h
    exact hopt _ _
  | rehash =>
    simp only [proposerStep] at h
    split at h <;> cases h <;> exact Nat.zero_le _

theorem reverse_of_length_le {α : Type} {l : List α} (h : l.length ≤ 1) : l.reverse = l := by
  match l, h with
  | [], _ => rfl
  | [_], _ => rfl

theorem ProposerOp.Own.logs_nothing (h : op.Own) (p : Proposer) :
    submittedBy op = [] ∧ decidedBy p op = [] := by
  cases op with
  | prepare | accept | timeoutIteratorPrepare | timeoutIteratorAccept => exact ⟨rfl, rfl⟩
  | _ => exact h.elim

/-- Calls on a handler's own behalf only add to what was sent. -/
theorem Calls.run_own (h : Calls config s ops s') (hown : ∀ op ∈ ops, op.Own)
    {r : LoggedProposer} {E : List PaxosMessage} (hp : r.proposer = s.proposer)
    (he : r.emitted = s.sent.reverse ++ E) :
    r.run config ops
      = .ok { r with proposer := s'.proposer, emitted := s'.sent.reverse ++ E } := by
  induction h generalizing r with
  | nil s =>
    rw [← hp, ← he]
    rfl
  | @cons s s' op ops p out hop _ ih =>
    obtain ⟨hsub, hdec⟩ := (hown op List.mem_cons_self).logs_nothing r.proposer
    have hstep : r.step config op = .ok { r with proposer := p, emitted := out ++ r.emitted } := by
      rw [← hp] at hop
      refine Except.bind_eq_ok.mpr ⟨_, hop, ?_⟩
      rw [hsub, hdec]
      rfl
    refine Except.bind_eq_ok.mpr ⟨_, hstep, ?_⟩
    refine ih (fun op hop => hown op (List.mem_cons_of_mem _ hop)) rfl ?_
    rw [List.reverse_append, reverse_of_length_le (proposerStep_length_le hop), he,
      List.append_assoc]

/-- **A handler is a run of calls**: that of its event, then some on its own behalf. -/
theorem evproposerHandle_run {r : LoggedProposer} {c : EvproposerCall}
    (h : evproposerHandle config window c.fuel c.clock r.proposer c.event = .ok (some s')) :
    ∃ ops, (∀ op ∈ ops, op.Own) ∧
      r.run config (c.op.toList ++ ops) = .ok (r.after c.op s') := by
  obtain ⟨s, hfirst, ops, hown, hops⟩ := evproposerHandle_calls h
  refine ⟨ops, hown, ?_⟩
  change Calls config _ c.op.toList s at hfirst
  -- the call of the event is logged with its value or decision
  cases hc : c.op with
  | none =>
    rw [hc] at hfirst
    cases hfirst
    exact hops.run_own hown rfl rfl
  | some op =>
    rw [hc] at hfirst
    cases hfirst with
    | @cons _ _ _ _ p out hop hnil =>
      cases hnil
      have hstep : r.step config op = .ok
          { proposer := p, submitted := submittedBy op ++ r.submitted, emitted := out ++ r.emitted,
            decided := decidedBy r.proposer op ++ r.decided } :=
        Except.bind_eq_ok.mpr ⟨_, hop, rfl⟩
      refine Except.bind_eq_ok.mpr ⟨_, hstep, ?_⟩
      rw [List.nil_append] at hops
      refine (hops.run_own (E := r.emitted) hown rfl ?_).trans ?_
      · rw [reverse_of_length_le (proposerStep_length_le hop)]
      · simp [LoggedProposer.after]

end Logged

end LibPaxos
