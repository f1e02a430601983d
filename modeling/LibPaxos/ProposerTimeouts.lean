import LibPaxos.ProposerBallots
import LibPaxos.Lib.Scan

/-!
# Timeouts of a proposer

`evproposer_check_timeouts`: one iterator visits the two tables of the proposer and hands out the
requests of the instances that have timed out. It does not move on from an instance that it has
handed out; what keeps it from handing it out again is the time of creation, which is set to the
time of the visit.

* **`timeout_scan_exact`** — the requests sent are those of the instances that are older than the
  timeout, once each, exactly if whole seconds tell.
* **`timeout_scan_early`** — an instance that times out after a microsecond.
* **`check_timeouts_returns`** — the visit ends exactly if the timeout is positive or nothing has
  timed out.
* **`check_timeouts_hangs`** — a timeout of 0.
-/

namespace LibPaxos

open Proposer Loops

/-! ## The timer -/

/-- `evproposer_check_timeouts` at work: the iterator with its proposer, and the requests sent. -/
structure Checking where
  proposer : Proposer
  iter : TimeoutIterator
  prepares : List PaxosPrepare
  accepts : List PaxosAccept

/-- A turn of the first loop. -/
def prepareTurn (config : PaxosConfig) (s : Checking) : Except Fault (Checking × Bool) :=
  match timeoutIteratorPrepare config s.proposer s.iter with
  | (p, iter, none) => .ok ({ s with proposer := p, iter := iter }, false)
  | (p, iter, some out) =>
    .ok ({ s with proposer := p, iter := iter, prepares := s.prepares ++ [out] }, true)

/-- A turn of the second loop. -/
def acceptTurn (config : PaxosConfig) (s : Checking) : Except Fault (Checking × Bool) := do
  match ← timeoutIteratorAccept config s.proposer s.iter with
  | (p, iter, none) => .ok ({ s with proposer := p, iter := iter }, false)
  | (p, iter, some out) =>
    .ok ({ s with proposer := p, iter := iter, accepts := s.accepts ++ [out] }, true)

/-- The iterator before the first call. -/
def Checking.start (now : Int) (p : Proposer) : Checking where
  proposer := p
  iter := proposerTimeoutIterator now
  prepares := []
  accepts := []

/-- `evproposer_check_timeouts`, with a bound on the turns of either loop. -/
def evproposerCheckTimeouts (config : PaxosConfig) (fuel : Nat) (now : Int) (p : Proposer) :
    Except Fault (Option Checking) := do
  match ← loop (prepareTurn config) fuel (.start now p) with
  | none => .ok none
  | some s => loop (acceptTurn config) fuel s

/-! ## Instances that are due -/

/-- The entry is handed out by an iterator that was made at the time `now`. -/
def Proposer.due (config : PaxosConfig) (now : Int) (e : Sigma fun _ : UInt32 => Instance) : Bool :=
  !quorumReached e.2.quorum && instanceHasTimedout config e.2 now

/-- What becomes of it. -/
def Proposer.restart (now : Int) (e : Sigma fun _ : UInt32 => Instance) :
    Sigma fun _ : UInt32 => Instance :=
  ⟨e.1, { e.2 with createdAt := now }⟩

section Due

variable {config : PaxosConfig} {now : Int}

/-- `next_timedout` is the search for what is due. -/
theorem nextTimedout_eq (es : List (Sigma fun _ : UInt32 => Instance)) (k : Nat) :
    nextTimedout config now es k = ((Scan.next (due config now) es k).1,
      (Scan.next (due config now) es k).2.map fun e => (e.1, e.2)) := by
  induction es generalizing k with
  | nil => rfl
  | cons e es ih =>
    unfold nextTimedout Scan.next due
    cases hq : quorumReached e.2.quorum with
    | true =>
      rw [if_pos rfl]
      exact ih (k + 1)
    | false =>
      rw [if_neg Bool.false_ne_true]
      cases ht : instanceHasTimedout config e.2 now with
      | true => rfl
      | false => exact ih (k + 1)

/-- An instance that was just created has timed out already if the timeout is not positive. -/
theorem instanceHasTimedout_restart (inst : Instance) :
    instanceHasTimedout config { inst with createdAt := now } now
      = decide (config.proposerTimeout ≤ 0) := by
  unfold instanceHasTimedout
  rw [Int.sub_self]
  rfl

theorem due_restart_eq_false (ht : 1 ≤ config.proposerTimeout)
    (e : Sigma fun _ : UInt32 => Instance) : due config now (restart now e) = false := by
  unfold due restart
  rw [instanceHasTimedout_restart, decide_eq_false (by omega), Bool.and_false]

theorem due_restart_eq_true (ht : config.proposerTimeout ≤ 0)
    (e : Sigma fun _ : UInt32 => Instance) (h : due config now e = true) :
    due config now (restart now e) = true := by
  unfold due restart at *
  rw [instanceHasTimedout_restart, decide_eq_true ht, Bool.and_true]
  exact (Bool.and_eq_true_iff.mp h).1

end Due

/-! ## The two loops

A turn of either loop asks the iterator for the next instance that has timed out and sends its
request. The instance gets the time of the visit, so it is due again only if the timeout is not
positive. With that the loops are those of `Lib.Scan`. -/

section Turns

variable {config : PaxosConfig} {s : Checking} {k : Nat}
  {e : Sigma fun _ : UInt32 => Instance}

theorem prepareTurn_done (hn : Scan.next (due config s.iter.timeout)
      (s.proposer.prepareInstances.entries.drop s.iter.pi) s.iter.pi = (k, none)) :
    prepareTurn config s = .ok ({ s with iter := { s.iter with pi := k } }, false) := by
  unfold prepareTurn timeoutIteratorPrepare
  rw [nextTimedout_eq, hn]
  rfl

theorem prepareTurn_again (hn : Scan.next (due config s.iter.timeout)
      (s.proposer.prepareInstances.entries.drop s.iter.pi) s.iter.pi = (k, some e)) :
    prepareTurn config s = .ok
      ({ s with
          proposer := { s.proposer with prepareInstances :=
            s.proposer.prepareInstances.replace e.1 (restart s.iter.timeout e).2 }
          iter := { s.iter with pi := k }
          prepares := s.prepares ++ [prepareOf e.2] }, true) := by
  unfold prepareTurn timeoutIteratorPrepare
  rw [nextTimedout_eq, hn]
  rfl

theorem acceptTurn_done (hn : Scan.next (due config s.iter.timeout)
      (s.proposer.acceptInstances.entries.drop s.iter.ai) s.iter.ai = (k, none)) :
    acceptTurn config s = .ok ({ s with iter := { s.iter with ai := k } }, false) := by
  unfold acceptTurn timeoutIteratorAccept
  rw [nextTimedout_eq, hn]
  rfl

theorem acceptTurn_again {v : PaxosValue} (hn : Scan.next (due config s.iter.timeout)
      (s.proposer.acceptInstances.entries.drop s.iter.ai) s.iter.ai = (k, some e))
    (hv : e.2.proposed = some v) :
    acceptTurn config s = .ok
      ({ s with
          proposer := { s.proposer with acceptInstances :=
            s.proposer.acceptInstances.replace e.1 (restart s.iter.timeout e).2 }
          iter := { s.iter with ai := k }
          accepts := s.accepts ++ [acceptOf e.2 v] }, true) := by
  have haccept : instanceToAccept e.2 = .ok (acceptOf e.2 v) := by
    unfold instanceToAccept
    rw [hv]
    rfl
  unfold acceptTurn timeoutIteratorAccept
  rw [nextTimedout_eq, hn]
  simp only [Option.map_some, haccept]
  rfl

end Turns

/-- What the first loop does besides setting times: it has sent the requests of what was found. -/
structure PreparesSent (now : Int) (p : Proposer) (s : Checking)
    (found : List (Sigma fun _ : UInt32 => Instance)) : Prop where
  timeout : s.iter.timeout = now
  ai : s.iter.ai = 0
  proposer : s.proposer = { p with prepareInstances := s.proposer.prepareInstances }
  prepares : s.prepares = found.map (prepareOf ·.2)
  accepts : s.accepts = []

/-- What the second loop does. -/
structure AcceptsSent (now : Int) (s₁ : Checking) (s : Checking)
    (found : List (Sigma fun _ : UInt32 => Instance)) : Prop where
  timeout : s.iter.timeout = now
  proposer : s.proposer = { s₁.proposer with acceptInstances := s.proposer.acceptInstances }
  prepares : s.prepares = s₁.prepares
  accepts : s.accepts.map some = found.map fun e => e.2.proposed.map (acceptOf e.2)

section Drained

variable {config : PaxosConfig} {now : Int} {p q : Proposer}

theorem entries_replace_restart {h : KHash Instance} {e : Sigma fun _ : UInt32 => Instance}
    {before after : List (Sigma fun _ : UInt32 => Instance)}
    (he : h.entries = before ++ e :: after) :
    (h.replace e.1 (restart now e).2).entries = before ++ restart now e :: after :=
  AList.entries_replace _ he

theorem with_prepareInstances (hq : q = { p with prepareInstances := q.prepareInstances })
    (h : KHash Instance) : { q with prepareInstances := h } = { p with prepareInstances := h } := by
  rw [hq]

theorem with_acceptInstances (hq : q = { p with acceptInstances := q.acceptInstances })
    (h : KHash Instance) : { q with acceptInstances := h } = { p with acceptInstances := h } := by
  rw [hq]

/-- **The first loop ends**, and has sent the requests of the instances that were due. -/
theorem exists_prepares_drained (ht : 1 ≤ config.proposerTimeout) (now : Int) (p : Proposer) :
    ∃ fuel s, loop (prepareTurn config) fuel (.start now p) = .ok (some s) ∧
      (s.proposer.prepareInstances.entries = p.prepareInstances.entries.map fun e =>
        if due config now e then restart now e else e) ∧
      PreparesSent now p s (p.prepareInstances.entries.filter (due config now)) := by
  refine Scan.exists_loop_drained (fun s : Checking => s.proposer.prepareInstances.entries)
    (fun s => s.iter.pi) (R := PreparesSent now p) (fun e _ => due_restart_eq_false ht e) ?_ ?_
    ⟨rfl, rfl, rfl, rfl, rfl⟩ rfl
  · intro s found before e after hs _ hcur hn
    rw [← hs.timeout] at hn
    refine ⟨_, prepareTurn_again hn, ⟨hs.timeout, hs.ai, ?_, ?_, hs.accepts⟩, ?_, rfl⟩
    · exact with_prepareInstances hs.proposer _
    · show s.prepares ++ [prepareOf e.2] = _
      rw [hs.prepares, List.map_append]
      rfl
    · rw [← hs.timeout]
      exact entries_replace_restart hcur
  · intro s found k hs hn
    rw [← hs.timeout] at hn
    exact ⟨_, prepareTurn_done hn, ⟨hs.timeout, hs.ai, hs.proposer, hs.prepares, hs.accepts⟩, rfl⟩

/-- **The second loop ends** as well. -/
theorem exists_accepts_drained (ht : 1 ≤ config.proposerTimeout) {s₁ : Checking}
    (htime : s₁.iter.timeout = now) (hai : s₁.iter.ai = 0) (hacc : s₁.accepts = [])
    (hv : ∀ e ∈ s₁.proposer.acceptInstances.entries, e.2.proposed ≠ none) :
    ∃ fuel s, loop (acceptTurn config) fuel s₁ = .ok (some s) ∧
      (s.proposer.acceptInstances.entries = s₁.proposer.acceptInstances.entries.map fun e =>
        if due config now e then restart now e else e) ∧
      AcceptsSent now s₁ s (s₁.proposer.acceptInstances.entries.filter (due config now)) := by
  refine Scan.exists_loop_drained (fun s : Checking => s.proposer.acceptInstances.entries)
    (fun s => s.iter.ai) (R := AcceptsSent now s₁) (fun e _ => due_restart_eq_false ht e) ?_ ?_
    ⟨htime, rfl, rfl, by rw [hacc]; rfl⟩ hai
  · intro s found before e after hs hmem hcur hn
    rw [← hs.timeout] at hn
    obtain ⟨v, hv⟩ := Option.ne_none_iff_exists'.mp (hv e hmem)
    refine ⟨_, acceptTurn_again hn hv, ⟨hs.timeout, ?_, hs.prepares, ?_⟩, ?_, rfl⟩
    · exact with_acceptInstances hs.proposer _
    · show (s.accepts ++ [acceptOf e.2 v]).map some = _
      rw [List.map_append, hs.accepts, List.map_append, List.map_singleton, List.map_singleton, hv]
      rfl
    · rw [← hs.timeout]
      exact entries_replace_restart hcur
  · intro s found k hs hn
    rw [← hs.timeout] at hn
    exact ⟨_, acceptTurn_done hn, ⟨hs.timeout, hs.proposer, hs.prepares, hs.accepts⟩, rfl⟩

/-- **The first loop does not end** if the timeout is not positive and something is due. -/
theorem loop_prepareTurn_eq_none (ht : config.proposerTimeout ≤ 0)
    (hdue : ∃ e ∈ p.prepareInstances.entries, due config now e = true) (fuel : Nat) :
    loop (prepareTurn config) fuel (.start now p) = .ok none := by
  have hagain : ∀ e, due config now e = true → due config now (restart now e) = true :=
    due_restart_eq_true ht
  refine Scan.loop_scan_eq_none (fun s : Checking => s.proposer.prepareInstances.entries)
    (fun s => s.iter.pi) (I := fun s => s.iter.timeout = now) hagain ?_ rfl ?_ fuel
  · intro s before e after hs hcur hn
    rw [← hs] at hn
    refine ⟨_, prepareTurn_again hn, hs, ?_, rfl⟩
    rw [← hs]
    exact entries_replace_restart hcur
  · exact hdue

/-- **The second loop does not end** then, either. -/
theorem loop_acceptTurn_eq_none (ht : config.proposerTimeout ≤ 0) {s₁ : Checking}
    (htime : s₁.iter.timeout = now) (hai : s₁.iter.ai = 0)
    (hv : ∀ e ∈ s₁.proposer.acceptInstances.entries, e.2.proposed ≠ none)
    (hdue : ∃ e ∈ s₁.proposer.acceptInstances.entries, due config now e = true) (fuel : Nat) :
    loop (acceptTurn config) fuel s₁ = .ok none := by
  refine Scan.loop_scan_eq_none (fun s : Checking => s.proposer.acceptInstances.entries)
    (fun s => s.iter.ai) (I := fun s => s.iter.timeout = now ∧
      ∀ e ∈ s.proposer.acceptInstances.entries, e.2.proposed ≠ none)
    (due_restart_eq_true ht) ?_ ⟨htime, hv⟩ (by rw [hai]; exact hdue) fuel
  rintro s before e after ⟨hs, hvalues⟩ hcur hn
  rw [← hs] at hn
  rw [hcur] at hvalues
  obtain ⟨v, hv⟩ := Option.ne_none_iff_exists'.mp (hvalues e (by simp))
  have hentries : (s.proposer.acceptInstances.replace e.1 (restart s.iter.timeout e).2).entries
      = before ++ restart now e :: after := by
    rw [← hs]
    exact entries_replace_restart hcur
  refine ⟨_, acceptTurn_again hn hv, ⟨hs, ?_⟩, hentries, rfl⟩
  -- setting the time does not change what the instance proposes
  show ∀ e' ∈ (s.proposer.acceptInstances.replace e.1 (restart s.iter.timeout e).2).entries,
    e'.2.proposed ≠ none
  rw [hentries, List.forall_mem_append, List.forall_mem_cons]
  rw [List.forall_mem_append, List.forall_mem_cons] at hvalues
  exact hvalues

end Drained

/-! ## The whole visit -/

theorem Proposer.WellFormed.proposed_ne_none {p : Proposer} (hw : p.WellFormed) :
    ∀ e ∈ p.acceptInstances.entries, e.2.proposed ≠ none :=
  fun e he => (hw.accept e.1 e.2 (AList.mem_entries_iff.mp he)).2.2

section Visit

variable {config : PaxosConfig} {now : Int} {p : Proposer}

/-- **A visit with a positive timeout ends.** -/
theorem exists_checkTimeouts_eq_some (now : Int) (ht : 1 ≤ config.proposerTimeout)
    (hv : ∀ e ∈ p.acceptInstances.entries, e.2.proposed ≠ none) :
    ∃ fuel s, evproposerCheckTimeouts config fuel now p = .ok (some s) ∧
      (s.proposer.prepareInstances.entries = p.prepareInstances.entries.map fun e =>
        if due config now e then restart now e else e) ∧
      (s.proposer.acceptInstances.entries = p.acceptInstances.entries.map fun e =>
        if due config now e then restart now e else e) ∧
      s.proposer = { p with
        prepareInstances := s.proposer.prepareInstances
        acceptInstances := s.proposer.acceptInstances } ∧
      s.prepares = (p.prepareInstances.entries.filter (due config now)).map (prepareOf ·.2) ∧
      s.accepts.map some = (p.acceptInstances.entries.filter (due config now)).map
        fun e => e.2.proposed.map (acceptOf e.2) := by
  -- each loop leaves the other's table alone, so the second one finds its table as it was
  obtain ⟨fuel₁, s₁, hloop₁, hentries₁, hsent₁⟩ := exists_prepares_drained ht now p
  have haccepts : s₁.proposer.acceptInstances = p.acceptInstances := by rw [hsent₁.proposer]
  obtain ⟨fuel₂, s₂, hloop₂, hentries₂, hsent₂⟩ := exists_accepts_drained ht hsent₁.timeout
    hsent₁.ai hsent₁.accepts (haccepts ▸ hv)
  have hprepares : s₂.proposer.prepareInstances = s₁.proposer.prepareInstances := by
    rw [hsent₂.proposer]
  rw [haccepts] at hentries₂ hsent₂
  refine ⟨max fuel₁ fuel₂, s₂, ?_, hprepares ▸ hentries₁, hentries₂, ?_,
    hsent₂.prepares.trans hsent₁.prepares, hsent₂.accepts⟩
  · exact Except.bind_eq_ok.mpr ⟨_, loop_mono (Nat.le_max_left _ _) hloop₁,
      loop_mono (Nat.le_max_right _ _) hloop₂⟩
  · rw [hsent₂.proposer, hsent₁.proposer]

/-- What a visit leads to does not depend on the bound on its turns. -/
theorem checkTimeouts_unique {fuel fuel' : Nat} {s s' : Checking}
    (h : evproposerCheckTimeouts config fuel now p = .ok (some s))
    (h' : evproposerCheckTimeouts config fuel' now p = .ok (some s')) : s = s' := by
  obtain ⟨first, hfirst, h⟩ := Except.bind_eq_ok.mp h
  obtain ⟨first', hfirst', h'⟩ := Except.bind_eq_ok.mp h'
  cases first with
  | none => cases h
  | some t =>
    cases first' with
    | none => cases h'
    | some t' =>
      cases loop_unique hfirst hfirst'
      exact loop_unique h h'

/-- If nothing is due, nothing is sent. -/
theorem exists_checkTimeouts_of_not_due
    (hp : ∀ e ∈ p.prepareInstances.entries, due config now e = false)
    (ha : ∀ e ∈ p.acceptInstances.entries, due config now e = false) :
    ∃ s, evproposerCheckTimeouts config 1 now p = .ok (some s) ∧ s.prepares = [] ∧
      s.accepts = [] := by
  obtain ⟨k, hk⟩ := Scan.exists_next_eq_none (k := 0) hp
  obtain ⟨k', hk'⟩ := Scan.exists_next_eq_none (k := 0) ha
  have hsecond : loop (acceptTurn config) 1
      { Checking.start now p with iter := { proposerTimeoutIterator now with pi := k } }
        = .ok (some _) := loop_done (acceptTurn_done hk')
  exact ⟨_, Except.bind_eq_ok.mpr ⟨_, loop_done (prepareTurn_done (s := .start now p) hk), hsecond⟩,
    rfl, rfl⟩

/-- **A visit with a timeout that is not positive does not end** once something is due. -/
theorem checkTimeouts_eq_none (ht : config.proposerTimeout ≤ 0)
    (hv : ∀ e ∈ p.acceptInstances.entries, e.2.proposed ≠ none)
    (hdue : ∃ e ∈ p.prepareInstances.entries ++ p.acceptInstances.entries,
      due config now e = true) (fuel : Nat) :
    evproposerCheckTimeouts config fuel now p = .ok none := by
  unfold evproposerCheckTimeouts
  by_cases hp : ∃ e ∈ p.prepareInstances.entries, due config now e = true
  · rw [loop_prepareTurn_eq_none ht hp]
    rfl
  · -- the first loop leaves the proposer as it is
    have hnot : ∀ e ∈ p.prepareInstances.entries, due config now e = false := by
      intro e he
      rw [← Bool.not_eq_true]
      exact fun hdue => hp ⟨e, he, hdue⟩
    have ha : ∃ e ∈ p.acceptInstances.entries, due config now e = true := by
      obtain ⟨e, he, hdue⟩ := hdue
      rcases List.mem_append.mp he with he | he
      · exact absurd ⟨e, he, hdue⟩ hp
      · exact ⟨e, he, hdue⟩
    cases fuel with
    | zero => rfl
    | succ fuel =>
      obtain ⟨k, hk⟩ := Scan.exists_next_eq_none (k := 0) hnot
      rw [loop_done (prepareTurn_done (s := .start now p) hk)]
      exact loop_acceptTurn_eq_none ht rfl rfl hv ha (fuel + 1)

end Visit

/-! ## Which requests are sent

The scan goes by `due`, a comparison of whole seconds cut to an `int`; what should be sent is said
by `Overdue`, in microseconds. `SecondsTell` is when the two agree about an instance. -/

/-- The instance is short of a quorum, and as old as the timeout is long. -/
def Proposer.Overdue (config : PaxosConfig) (now : Int) (inst : Instance) : Prop :=
  quorumReached inst.quorum = false ∧ config.proposerTimeout * 1000000 ≤ now - inst.createdAt

instance (config : PaxosConfig) (now : Int) (inst : Instance) :
    Decidable (Overdue config now inst) :=
  inferInstanceAs (Decidable (_ ∧ _))

/-- Whole seconds tell whether the instance is as old as the timeout is long: their difference
compares with the timeout as it does when cut to an `int`, and if it is the timeout then the
fraction of a second has come round, too. -/
def Proposer.SecondsTell (config : PaxosConfig) (now : Int) (inst : Instance) : Prop :=
  (config.proposerTimeout ≤ (Int32.ofInt (tvSec now - tvSec inst.createdAt)).toInt ↔
    config.proposerTimeout ≤ tvSec now - tvSec inst.createdAt) ∧
  (tvSec now - tvSec inst.createdAt = config.proposerTimeout →
    inst.createdAt % 1000000 ≤ now % 1000000)

instance (config : PaxosConfig) (now : Int) (inst : Instance) :
    Decidable (SecondsTell config now inst) :=
  inferInstanceAs (Decidable ((_ ↔ _) ∧ (_ → _)))

section Overdue

variable {config : PaxosConfig} {now : Int}

/-- The cut to an `int` can be told from the age only where it makes a difference. -/
theorem secondsTell_iff (ht : 1 ≤ config.proposerTimeout)
    (hint : config.proposerTimeout < 2147483648) {inst : Instance} :
    SecondsTell config now inst ↔ (instanceHasTimedout config inst now = true
      ↔ config.proposerTimeout * 1000000 ≤ now - inst.createdAt) := by
  unfold SecondsTell instanceHasTimedout
  rw [decide_eq_true_iff]
  -- a difference that is the timeout is not changed by the cut
  have hfits : tvSec now - tvSec inst.createdAt = config.proposerTimeout →
      (Int32.ofInt (tvSec now - tvSec inst.createdAt)).toInt
        = tvSec now - tvSec inst.createdAt := fun heq =>
    Int32.toInt_ofInt_of_le (by omega) (by omega)
  generalize (Int32.ofInt (tvSec now - tvSec inst.createdAt)).toInt = diff at hfits ⊢
  unfold tvSec at *
  omega

/-- What the code finds due is what is overdue. -/
theorem due_eq_overdue_iff (ht : 1 ≤ config.proposerTimeout)
    (hint : config.proposerTimeout < 2147483648) {e : Sigma fun _ : UInt32 => Instance} :
    due config now e = decide (Overdue config now e.2)
      ↔ (quorumReached e.2.quorum = false → SecondsTell config now e.2) := by
  rw [Bool.eq_iff_iff, decide_eq_true_iff]
  unfold due Overdue
  rw [Bool.and_eq_true_iff, Bool.not_eq_true', secondsTell_iff ht hint]
  exact and_congr_right_iff

variable {es : List (Sigma fun _ : UInt32 => Instance)}

theorem filter_due (h : ∀ e ∈ es, due config now e = decide (Overdue config now e.2)) :
    es.filter (due config now) = es.filter fun e => Overdue config now e.2 :=
  List.filter_congr h

theorem map_due (h : ∀ e ∈ es, due config now e = decide (Overdue config now e.2)) :
    (es.map fun e => if due config now e then restart now e else e)
      = es.map fun e => if Overdue config now e.2 then restart now e else e := by
  refine List.map_congr_left fun e he => ?_
  simp only [h e he, decide_eq_true_eq]

/-- An instance whose time has been set is not overdue. -/
theorem not_overdue_restart (ht : 1 ≤ config.proposerTimeout)
    (e : Sigma fun _ : UInt32 => Instance) : ¬ Overdue config now (restart now e).2 := by
  rintro ⟨-, hage⟩
  have hzero : now - (restart now e).2.createdAt = 0 := Int.sub_self now
  omega

/-- The times that were set tell which instances were due. -/
theorem due_of_map_eq (ht : 1 ≤ config.proposerTimeout)
    (h : (es.map fun e => if due config now e then restart now e else e)
      = es.map fun e => if Overdue config now e.2 then restart now e else e) :
    ∀ e ∈ es, due config now e = decide (Overdue config now e.2) := by
  intro e he
  have heq := List.map_inj_left.mp h e he
  have hdue : due config now (restart now e) = false := due_restart_eq_false ht e
  by_cases hcode : due config now e = true
  · by_cases hover : Overdue config now e.2
    · rw [hcode, decide_eq_true hover]
    · rw [if_pos hcode, if_neg hover] at heq
      rw [heq] at hdue
      cases hdue.symm.trans hcode
  · by_cases hover : Overdue config now e.2
    · rw [if_neg hcode, if_pos hover] at heq
      rw [heq] at hover
      exact absurd hover (not_overdue_restart ht e)
    · rw [Bool.not_eq_true] at hcode
      rw [hcode, decide_eq_false hover]

end Overdue

/-- A call of `proposer_accept` on the way from `r₀` to `r` has handed out the request. -/
def LoggedProposer.HandedOut (config : PaxosConfig) (r₀ r : LoggedProposer) (a : PaxosAccept) :
    Prop :=
  ∃ r₁ r₂ : LoggedProposer, Runs.Reaches (stepOption config) (fun _ _ => True) r₀ r₁ ∧
    r₁.step config .accept = .ok r₂ ∧ r₂.emitted = .accept a :: r₁.emitted ∧
    Runs.Reaches (stepOption config) (fun _ _ => True) r₂ r

/-- Every instance in the second phase is there by a request that was handed out, for the value it
proposes now and at the ballot it has now. -/
def LoggedProposer.AllHandedOut (config : PaxosConfig) (r₀ r : LoggedProposer) : Prop :=
  r.proposer.acceptInstances.All fun _ inst =>
    ∀ v, inst.proposed = some v → HandedOut config r₀ r (acceptOf inst v)

section HandedOut

variable {config : PaxosConfig} {r₀ r r' : LoggedProposer} {op : ProposerOp}

theorem LoggedProposer.stepOption_of_step (h : r.step config op = .ok r') :
    r.stepOption config op = some r' := by
  unfold stepOption
  rw [h]
  rfl

theorem LoggedProposer.HandedOut.step {a : PaxosAccept} (h : HandedOut config r₀ r a)
    (hs : r.step config op = .ok r') : HandedOut config r₀ r' a := by
  obtain ⟨r₁, r₂, hr₁, hcall, hout, hr₂⟩ := h
  exact ⟨r₁, r₂, hr₁, hcall, hout, .step hr₂ trivial (stepOption_of_step hs)⟩

/-- One call: an instance gets to the second phase by `proposer_accept` only, and what it proposes
there is not changed. -/
theorem LoggedProposer.AllHandedOut.step
    (hr : Runs.Reaches (stepOption config) (fun _ _ => True) r₀ r) (hw : r.proposer.WellFormed)
    (h : AllHandedOut config r₀ r) (hs : r.step config op = .ok r') :
    AllHandedOut config r₀ r' := by
  have hold : r.proposer.acceptInstances.All fun _ inst =>
      ∀ v, inst.proposed = some v → HandedOut config r₀ r' (acceptOf inst v) :=
    AList.All.mono h fun _ _ hinst v hv => (hinst v hv).step hs
  obtain ⟨p, out, hm, rfl⟩ := step_ok hw hs
  unfold AllHandedOut
  cases hm with
  | accepting hk hq hnew ht hv =>
    -- the request of this call is the one that the instance stands for from now on
    refine hold.insert fun v' hv' => ?_
    cases Option.some.inj (hv.symm.trans hv')
    exact ⟨r, _, hr, hs, rfl, .init⟩
  | acked hk hb hq hr =>
    have hinst := hold _ _ hk
    exact hold.replace (AList.mem_of_lookup hk) hinst
  | closed => exact hold.erase _
  | demoted => exact hold.erase _
  | trimmed => exact hold.filter _
  | retriedAccept hk hv =>
    have hinst := hold _ _ hk
    exact hold.replace (AList.mem_of_lookup hk) hinst
  | rehashed hpp hpa => exact hold.of_perm hpa
  | idle | heard | queued | created | preempted | promised | retriedPrepare => exact hold

/-- **Every run**: a pending accept request is one that `proposer_accept` has handed out. -/
theorem LoggedProposer.allHandedOut_of_reaches {id : UInt32} {n : Nat}
    (hr : Runs.Reaches (stepOption config) (fun _ _ => True) (fresh id n) r) :
    AllHandedOut config (fresh id n) r := by
  refine hr.invariant (I := AllHandedOut config (fresh id n)) AList.all_empty ?_
  intro s s' op hr hi _ hs
  exact hi.step hr (wellFormed_of_reaches hr).1 (stepOption_eq_some hs)

end HandedOut

/-! ## The scan is exact

`instance_has_timedout` compares whole seconds. An instance is taken for older than it is when the
visit is just after a full second and its creation just before one, so the scan is exact for
instances where this makes no difference. -/

/-- What a scan at the time `now` has to do: to send the request of every instance that is overdue,
once, at its ballot and for a value that was handed out for it, and to set the times of these
instances. -/
structure Checking.Exact (config : PaxosConfig) (now : Int) (r₀ r : LoggedProposer)
    (s : Checking) : Prop where
  prepares : s.prepares = (r.proposer.prepareInstances.entries.filter
    fun e => Overdue config now e.2).map (prepareOf ·.2)
  accepts : s.accepts.map some = (r.proposer.acceptInstances.entries.filter
    fun e => Overdue config now e.2).map fun e => e.2.proposed.map (acceptOf e.2)
  prepares_once : (s.prepares.map (·.iid)).Nodup
  accepts_once : (s.accepts.map (·.iid)).Nodup
  handedOut : ∀ a ∈ s.accepts, LoggedProposer.HandedOut config r₀ r a
  prepareInstances : s.proposer.prepareInstances.entries =
    r.proposer.prepareInstances.entries.map fun e =>
      if Overdue config now e.2 then restart now e else e
  acceptInstances : s.proposer.acceptInstances.entries =
    r.proposer.acceptInstances.entries.map fun e =>
      if Overdue config now e.2 then restart now e else e
  others : s.proposer = { r.proposer with
    prepareInstances := s.proposer.prepareInstances
    acceptInstances := s.proposer.acceptInstances }

/-- The ids of some of the entries are distinct. -/
theorem nodup_iids {h : KHash Instance} (hk : Keyed h)
    (f : (Sigma fun _ : UInt32 => Instance) → Bool) :
    ((h.entries.filter f).map (·.2.iid)).Nodup := by
  have hkeys : (h.entries.filter f).map (·.2.iid) = (h.entries.filter f).map (·.1) :=
    List.map_congr_left fun e he =>
      hk e.1 e.2 (AList.mem_entries_iff.mp (List.mem_of_mem_filter he))
  rw [hkeys]
  exact h.nodupKeys.sublist List.filter_sublist

/-- The ids of the accept requests of some entries. -/
theorem map_iid_eq {accepts : List PaxosAccept} {found : List (Sigma fun _ : UInt32 => Instance)}
    (h : accepts.map some = found.map fun e => e.2.proposed.map (acceptOf e.2)) :
    accepts.map (·.iid) = found.map (·.2.iid) := by
  induction found generalizing accepts with
  | nil =>
    rw [List.map_eq_nil_iff.mp h]
    rfl
  | cons e found ih =>
    cases accepts with
    | nil => cases h
    | cons a accepts =>
      obtain ⟨ha, hrest⟩ := List.cons.inj h
      obtain ⟨v, -, rfl⟩ := Option.map_eq_some_iff.mp ha.symm
      exact congrArg _ (ih hrest)

/-- The scan ends and is exact, if whole seconds tell. -/
theorem exists_exact_scan {config : PaxosConfig} {id : UInt32} {n : Nat} {now : Int}
    {r : LoggedProposer} (ht : 1 ≤ config.proposerTimeout)
    (hr : Runs.Reaches (LoggedProposer.stepOption config) (fun _ _ => True)
      (LoggedProposer.fresh id n) r)
    (hp : ∀ e ∈ r.proposer.prepareInstances.entries,
      due config now e = decide (Overdue config now e.2))
    (ha : ∀ e ∈ r.proposer.acceptInstances.entries,
      due config now e = decide (Overdue config now e.2)) :
    ∃ fuel s, evproposerCheckTimeouts config fuel now r.proposer = .ok (some s) ∧
      s.Exact config now (LoggedProposer.fresh id n) r ∧
      ∃ fuel' s', evproposerCheckTimeouts config fuel' now s.proposer = .ok (some s') ∧
        s'.prepares = [] ∧ s'.accepts = [] := by
  have hw := (LoggedProposer.wellFormed_of_reaches hr).1
  have hhanded := LoggedProposer.allHandedOut_of_reaches hr
  have hscan : ∃ fuel s, evproposerCheckTimeouts config fuel now r.proposer = .ok (some s) ∧ _ :=
    exists_checkTimeouts_eq_some now ht hw.proposed_ne_none
  obtain ⟨fuel, s, hs, hpi, hai, hothers, hprepares, haccepts⟩ := hscan
  -- a second scan at the same time finds nothing
  have hagain : ∃ s', evproposerCheckTimeouts config 1 now s.proposer = .ok (some s') ∧
      s'.prepares = [] ∧ s'.accepts = [] := by
    apply exists_checkTimeouts_of_not_due
    · rw [hpi]
      exact Scan.not_due_of_mem_map fun e _ => due_restart_eq_false ht e
    · rw [hai]
      exact Scan.not_due_of_mem_map fun e _ => due_restart_eq_false ht e
  -- what is due is what is overdue
  rw [filter_due hp] at hprepares
  rw [filter_due ha] at haccepts
  rw [map_due hp] at hpi
  rw [map_due ha] at hai
  refine ⟨fuel, s, hs, ⟨hprepares, haccepts, ?_, ?_, ?_, hpi, hai, hothers⟩, 1, hagain⟩
  · rw [hprepares, List.map_map]
    exact nodup_iids hw.keyed_prepare _
  · rw [map_iid_eq haccepts]
    exact nodup_iids hw.keyed_accept _
  · intro a ha
    have hmem := List.mem_map_of_mem (f := some) ha
    rw [haccepts] at hmem
    obtain ⟨e, he, hout⟩ := List.mem_map.mp hmem
    obtain ⟨v, hv, rfl⟩ := Option.map_eq_some_iff.mp hout
    exact hhanded e.1 e.2 (AList.mem_entries_iff.mp (List.mem_of_mem_filter he)) v hv

/-- **When the timeout handler returns**: exactly if the timeout is positive, or no pending instance
is due. -/
theorem check_timeouts_returns (config : PaxosConfig) (id : UInt32) (n : Nat) (now : Int)
    (r : LoggedProposer)
    (hr : Runs.Reaches (LoggedProposer.stepOption config) (fun _ _ => True)
      (LoggedProposer.fresh id n) r) :
    (∃ fuel s, evproposerCheckTimeouts config fuel now r.proposer = .ok (some s)) ↔
      1 ≤ config.proposerTimeout ∨
        ∀ e ∈ r.proposer.prepareInstances.entries ++ r.proposer.acceptInstances.entries,
          due config now e = false := by
  have hw := (LoggedProposer.wellFormed_of_reaches hr).1
  constructor
  · rintro ⟨fuel, s, hs⟩
    by_contra hnot
    obtain ⟨ht, hdue⟩ := not_or.mp hnot
    have hsome : ∃ e ∈ r.proposer.prepareInstances.entries ++ r.proposer.acceptInstances.entries,
        due config now e = true := by
      simpa using hdue
    rw [checkTimeouts_eq_none (by omega) hw.proposed_ne_none hsome] at hs
    cases hs
  · rintro (ht | hnot)
    · obtain ⟨fuel, s, hs, -⟩ := exists_checkTimeouts_eq_some _ ht hw.proposed_ne_none
      exact ⟨fuel, s, hs⟩
    · obtain ⟨hp, ha⟩ := List.forall_mem_append.mp hnot
      obtain ⟨s, hs, -⟩ := exists_checkTimeouts_of_not_due hp ha
      exact ⟨1, s, hs⟩

/-- An instance that was prepared five seconds ago, and a timeout of one second. -/
theorem check_timeouts_returns_one :
    ∃ r fuel s, r.prepareInstances.keys = [1] ∧
      evproposerCheckTimeouts {} fuel 5000000 r = .ok (some s) := by
  obtain ⟨r, hr, hc⟩ := Runs.exists_reaches_of_run (LoggedProposer.stepOption {})
    (fun _ _ => True) (LoggedProposer.fresh 0 3) [.prepare 0]
    (fun r => r.proposer.prepareInstances.keys = [1]) (by decide +kernel)
  obtain ⟨fuel, s, hs⟩ := (check_timeouts_returns {} 0 3 5000000 r hr).mpr (.inl (by decide))
  exact ⟨r.proposer, fuel, s, of_decide_eq_true hc, hs⟩

/-- **A timeout of 0.** With an instance pending that was prepared just now, the handler sends its
request over and over. -/
theorem check_timeouts_hangs :
    ∃ r, Runs.Reaches (LoggedProposer.stepOption { proposerTimeout := 0 }) (fun _ _ => True)
        (LoggedProposer.fresh 0 3) r ∧
      ¬ ∃ fuel s,
        evproposerCheckTimeouts { proposerTimeout := 0 } fuel 0 r.proposer = .ok (some s) := by
  obtain ⟨r, hr, hc⟩ := Runs.exists_reaches_of_run
    (LoggedProposer.stepOption { proposerTimeout := 0 }) (fun _ _ => True)
    (LoggedProposer.fresh 0 3) [.prepare 0]
    (fun r => ∃ e ∈ r.proposer.prepareInstances.entries ++ r.proposer.acceptInstances.entries,
      due { proposerTimeout := 0 } 0 e = true) (by decide +kernel)
  have hw := (LoggedProposer.wellFormed_of_reaches hr).1
  refine ⟨r, hr, ?_⟩
  rintro ⟨fuel, s, hs⟩
  rw [checkTimeouts_eq_none (Int.le_refl 0) hw.proposed_ne_none (of_decide_eq_true hc)] at hs
  cases hs

end LibPaxos
