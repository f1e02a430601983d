import LibPaxos.P4xos.Handlers
import LibPaxos.ProposerWire
import Mathlib.Order.CompletePartialOrder
import Mathlib.Data.Set.Lattice

/-!
# The leaders of a p4xos deployment

`app_assign_worker_ids` and `app_init_leader` of `init.c`. A node runs one worker for each core that
is configured as one; the worker with number `w` serves the partition `w`. Its proposer is started
with the number of the core as its id. The id of the node does not enter.

* **`leaders_own_ballots`** — two nodes never issue the same ballot for an instance of a partition
  exactly if they run its worker on cores that differ modulo 10.
* **`leaders_share_ballots`** — on cores that are equal modulo 10 they do.
-/

namespace LibPaxos.P4xos

open Proposer

/-! ## Start-up

Workers are numbered in the order of their cores. So the worker of a partition is found again from
the array that `app_assign_worker_ids` fills, and its proposer has the number of the core as id. -/

/-- `enum app_lcore_type`. -/
inductive LcoreType where
  | disabled
  | io
  | worker
deriving DecidableEq

/-- `struct app_params`, as far as the start-up of leaders reads it. There is one entry for each of
the `APP_MAX_LCORES` cores, a number of the build. -/
structure AppParams where
  nodeId : UInt16
  numAcceptors : UInt8
  lcoreParams : List LcoreType
  lcores_lt : lcoreParams.length < 2 ^ 31

/-- The loop of `app_assign_worker_ids` from the core `lcore` on: the cores of the workers, in the
order of the worker numbers. -/
def assignWorkerIds (lcore : Nat) : List LcoreType → List Nat
  | [] => []
  | type :: types =>
    if type ≠ .worker then assignWorkerIds (lcore + 1) types
    else lcore :: assignWorkerIds (lcore + 1) types

/-- `app_assign_worker_ids`: the array `map_worker_lcore`. -/
def appAssignWorkerIds (app : AppParams) : List Nat :=
  assignWorkerIds 0 app.lcoreParams

/-- `app_init_leader`: the proposer of every core that runs a worker. -/
def appInitLeader (app : AppParams) : List (Option Proposer) :=
  app.lcoreParams.mapIdx fun lcore type =>
    if type ≠ .worker then none
    else some (proposerNew (UInt32.ofNat lcore) app.numAcceptors.toNat)

/-- The proposer that serves the partition `w`, if there is such a worker. -/
def AppParams.leaderOf (app : AppParams) (w : Nat) : Option Proposer :=
  (appAssignWorkerIds app)[w]?.bind fun lcore => (appInitLeader app)[lcore]?.join

/-- The cores that workers are assigned to are configured for one. -/
theorem assignWorkerIds_worker {types : List LcoreType} {lcore l : Nat}
    (h : l ∈ assignWorkerIds lcore types) : ∃ i, l = lcore + i ∧ types[i]? = some .worker := by
  induction types generalizing lcore with
  | nil => cases h
  | cons type types ih =>
    rw [assignWorkerIds] at h
    split at h
    · obtain ⟨i, rfl, hi⟩ := ih h
      exact ⟨i + 1, by omega, hi⟩
    · rename_i hworker
      rcases List.mem_cons.mp h with rfl | hrest
      · exact ⟨0, rfl, congrArg some (not_not.mp hworker)⟩
      · obtain ⟨i, rfl, hi⟩ := ih hrest
        exact ⟨i + 1, by omega, hi⟩

section LeaderOf

variable {app : AppParams} {w lcore : Nat}

theorem lcore_worker (h : (appAssignWorkerIds app)[w]? = some lcore) :
    app.lcoreParams[lcore]? = some .worker := by
  obtain ⟨i, rfl, hi⟩ := assignWorkerIds_worker (List.mem_of_getElem? h)
  rw [Nat.zero_add]
  exact hi

theorem lcore_lt (h : (appAssignWorkerIds app)[w]? = some lcore) : lcore < 2 ^ 31 := by
  obtain ⟨hlt, -⟩ := List.getElem?_eq_some_iff.mp (lcore_worker h)
  exact Nat.lt_trans hlt app.lcores_lt

/-- **The leader of a partition has the number of its core as its id.** -/
theorem leaderOf_eq (h : (appAssignWorkerIds app)[w]? = some lcore) :
    app.leaderOf w = some (proposerNew (UInt32.ofNat lcore) app.numAcceptors.toNat) := by
  have hleader : (appInitLeader app)[lcore]?
      = some (some (proposerNew (UInt32.ofNat lcore) app.numAcceptors.toNat)) := by
    rw [appInitLeader, List.getElem?_mapIdx, lcore_worker h]
    rfl
  rw [AppParams.leaderOf, h, Option.bind_some, hleader]
  rfl

/-- It is the proposer of the worker that the handlers run. -/
theorem leaderOf_init (config : PaxosConfig) (conf : Conf)
    (h : (appAssignWorkerIds app)[w]? = some lcore) (hconf : conf.lcore = UInt32.ofNat lcore)
    (node : Nat) :
    app.leaderOf w = some (Worker.init config conf app.numAcceptors.toNat node).proposer := by
  rw [leaderOf_eq h, ← hconf]
  rfl

end LeaderOf

/-! ## The ballots that a leader can issue -/

/-- The ballots of requests for the instance `k` over all runs of a proposer that keep to 16
bits. -/
def ballotsIssued (config : PaxosConfig) (p : Proposer) (k : UInt32) : Set UInt16 :=
  { b | ∃ r, Runs.Reaches (LoggedProposer.stepOption config) (LoggedProposer.StaysNarrow config)
      ⟨p, [], [], []⟩ r ∧ ∃ m ∈ r.emitted, usedBallot m = some (k, b) }

/-- The ballots of a new proposer are its own. -/
theorem ownBallot_of_mem_ballotsIssued {config : PaxosConfig} {id : UInt32} {n : Nat} {k : UInt32}
    {b : UInt16} (hid : id.toNat < 2 ^ 31)
    (hb : b ∈ ballotsIssued config (proposerNew id n) k) : OwnBallot id b.toNat := by
  obtain ⟨r, hr, m, hm, hu⟩ := hb
  have hi : r.IssueInv id :=
    LoggedProposer.invariant_of_reaches hr (LoggedProposer.issueInv_fresh id n)
      fun hs hok hstep => hs.step hid hok hstep
  exact hi.issued m hm k b hu

/-! ### Every own ballot is issued

Asking for an instance again and again takes a proposer from its base ballot to each of its other
ballots in turn. -/

/-- A proposer that has asked for nothing but the instance `k`. -/
def preparing (id : UInt32) (n : Nat) (k : UInt32) (inst : Instance) : Proposer :=
  { proposerNew id n with prepareInstances := (∅ : KHash Instance).insert k inst }

section Preparing

variable {config : PaxosConfig} {id k : UInt32} {n : Nat}

theorem narrow_preparing {inst : Instance} (h : inst.ballot.toNat < 2 ^ 16) :
    (preparing id n k inst).Narrow := by
  intro inst' hmem
  obtain ⟨k', hk' | hk'⟩ := Proposer.mem_pending.mp hmem
  · rcases AList.of_lookup_insert hk' with ⟨-, rfl⟩ | ⟨-, hold⟩
    · exact h
    · cases hold
  · cases hk'

/-- The ballots below `b` have been gone through. -/
def Issued (config : PaxosConfig) (id k : UInt32) (n b : Nat) : Prop :=
  ∃ (r : LoggedProposer) (inst : Instance),
    Runs.Reaches (LoggedProposer.stepOption config) (LoggedProposer.StaysNarrow config)
      ⟨proposerNew id n, [], [], []⟩ r ∧
    r.proposer = preparing id n k inst ∧ inst.iid = k ∧ inst.ballot.toNat = b ∧
    .prepare (prepareOf inst) ∈ r.emitted

/-- A call that asks for the instance. -/
theorem issued_of_step {r : LoggedProposer} {inst : Instance}
    (hr : Runs.Reaches (LoggedProposer.stepOption config) (LoggedProposer.StaysNarrow config)
      ⟨proposerNew id n, [], [], []⟩ r)
    (hstep : proposerPrepareInstance 0 r.proposer k
      = .ok (preparing id n k inst, prepareOf inst))
    (hiid : inst.iid = k) (hnarrow : inst.ballot.toNat < 2 ^ 16) :
    Issued config id k n inst.ballot.toNat := by
  have hnext : r.stepOption config (.prepareInstance 0 k) = some
      { r with
        proposer := preparing id n k inst
        emitted := .prepare (prepareOf inst) :: r.emitted } := by
    have hcall : proposerStep config r.proposer (.prepareInstance 0 k)
        = .ok (preparing id n k inst, [.prepare (prepareOf inst)]) :=
      Except.bind_eq_ok.mpr ⟨_, hstep, rfl⟩
    have hlogged : r.step config (.prepareInstance 0 k) = .ok _ :=
      Except.bind_eq_ok.mpr ⟨_, hcall, rfl⟩
    exact congrArg Except.toOption hlogged
  refine ⟨_, inst, .step hr ?_ hnext, rfl, hiid, rfl, List.mem_cons_self⟩
  intro r' hr'
  obtain rfl := Option.some.inj (hnext.symm.trans hr')
  exact narrow_preparing hnarrow

theorem issued_base (hk : 0 < k) (hid : id.toNat + 10 < 2 ^ 16) :
    Issued config id k n (id.toNat + 10) := by
  let inst : Instance :=
    { iid := k, ballot := maxNOfProposers + id, value := none, promisedValue := none
      valueBallot := 0, quorum := quorumInit n, createdAt := 0 }
  have hballot : inst.ballot.toNat = id.toNat + 10 := by
    show (maxNOfProposers + id).toNat = _
    rw [UInt32.toNat_add]
    have hmax : maxNOfProposers.toNat = 10 := rfl
    omega
  have hstep : proposerPrepareInstance 0 (proposerNew id n) k
      = .ok (preparing id n k inst, prepareOf inst) := by
    have hnew : instanceNew 0 k (maxNOfProposers + id) n = .ok inst := if_pos hk
    exact Except.bind_eq_ok.mpr ⟨inst, hnew, rfl⟩
  rw [← hballot]
  exact issued_of_step .init hstep rfl (by omega)

theorem Issued.next {b : Nat} (h : Issued config id k n b) (hb : b + 10 < 2 ^ 16) (hpos : 0 < b) :
    Issued config id k n (b + 10) := by
  obtain ⟨r, inst, hr, hproposer, hiid, rfl, -⟩ := h
  have hstep : proposerPrepareInstance 0 r.proposer k
      = .ok (preparing id n k (proposerPreempt 0 r.proposer inst),
          prepareOf (proposerPreempt 0 r.proposer inst)) := by
    rw [hproposer]
    unfold proposerPrepareInstance preparing
    simp only [AList.lookup_insert, AList.replace_insert]
  have hballot : (proposerPreempt 0 r.proposer inst).ballot.toNat = inst.ballot.toNat + 10 := by
    show (proposerNextBallot r.proposer inst.ballot).toNat = _
    have hmax : maxNOfProposers.toNat = 10 := rfl
    have hgt : inst.ballot > 0 := UInt32.lt_iff_toNat_lt.mpr hpos
    unfold proposerNextBallot
    rw [if_pos hgt, UInt32.toNat_add]
    omega
  rw [← hballot]
  exact issued_of_step hr hstep hiid (by omega)

/-- **Every own ballot is issued**, for every instance. -/
theorem mem_ballotsIssued_of_ownBallot {b : UInt16} (hk : 0 < k) (h : OwnBallot id b.toNat) :
    b ∈ ballotsIssued config (proposerNew id n) k := by
  have hall : ∀ j, id.toNat + 10 + 10 * j < 2 ^ 16 →
      Issued config id k n (id.toNat + 10 + 10 * j) := by
    intro j
    induction j with
    | zero => exact fun hlt => issued_base hk hlt
    | succ j ih =>
      intro hlt
      exact (ih (by omega)).next (by omega) (by omega)
  obtain ⟨hle, hmod⟩ := h
  have hlt := b.toNat_lt
  obtain ⟨j, hj⟩ : ∃ j, b.toNat = id.toNat + 10 + 10 * j :=
    ⟨(b.toNat - (id.toNat + 10)) / 10, by omega⟩
  obtain ⟨r, inst, hr, -, hiid, hballot, hmem⟩ := hall j (by omega)
  refine ⟨r, hr, _, hmem, ?_⟩
  show some (inst.iid, inst.ballot.toUInt16) = some (k, b)
  have hb : inst.ballot.toUInt16 = b := by
    rw [← UInt16.toNat_inj, UInt32.toNat_toUInt16]
    omega
  rw [hiid, hb]

end Preparing

/-- **Ballots are owned by cores.** Take a partition that two nodes serve. There is no instance for
which both could issue the same ballot, in any two runs of their proposers that keep to 16 bits,
exactly if the cores differ modulo 10, or one of them is numbered so high that its base ballot has
more than 16 bits. -/
theorem leaders_own_ballots (config : PaxosConfig) (app app' : AppParams) (w lcore lcore' : Nat)
    (h : (appAssignWorkerIds app)[w]? = some lcore)
    (h' : (appAssignWorkerIds app')[w]? = some lcore') :
    ∃ p p', app.leaderOf w = some p ∧ app'.leaderOf w = some p' ∧
      ((∀ k, Disjoint (ballotsIssued config p k) (ballotsIssued config p' k)) ↔
        lcore % 10 ≠ lcore' % 10 ∨ 65526 ≤ lcore ∨ 65526 ≤ lcore') := by
  have hlt := lcore_lt h
  have hlt' := lcore_lt h'
  have hid : (UInt32.ofNat lcore).toNat = lcore := by
    rw [UInt32.toNat_ofNat', Nat.mod_eq_of_lt (by omega)]
  have hid' : (UInt32.ofNat lcore').toNat = lcore' := by
    rw [UInt32.toNat_ofNat', Nat.mod_eq_of_lt (by omega)]
  refine ⟨_, _, leaderOf_eq h, leaderOf_eq h', fun hdisj => ?_, fun hor k => ?_⟩
  · by_contra hnot
    obtain ⟨hmod, hlow, hlow'⟩ : lcore % 10 = lcore' % 10 ∧ lcore < 65526 ∧ lcore' < 65526 := by
      omega
    -- the base ballot of the larger core belongs to both
    have hsmall : max lcore lcore' + 10 < UInt16.size := by
      have hsize : UInt16.size = 65536 := rfl
      omega
    have hb : (UInt16.ofNat (max lcore lcore' + 10)).toNat = max lcore lcore' + 10 :=
      UInt16.toNat_ofNat_of_lt' hsmall
    have hown : OwnBallot (UInt32.ofNat lcore) (UInt16.ofNat (max lcore lcore' + 10)).toNat := by
      unfold OwnBallot
      rw [hb, hid]
      omega
    have hown' : OwnBallot (UInt32.ofNat lcore') (UInt16.ofNat (max lcore lcore' + 10)).toNat := by
      unfold OwnBallot
      rw [hb, hid']
      omega
    exact Set.disjoint_left.mp (hdisj 1) (mem_ballotsIssued_of_ownBallot (by decide) hown)
      (mem_ballotsIssued_of_ownBallot (by decide) hown')
  · refine Set.disjoint_left.mpr fun b hb hb' => ?_
    obtain ⟨hle, hres⟩ := ownBallot_of_mem_ballotsIssued (by rw [hid]; exact hlt) hb
    obtain ⟨hle', hres'⟩ := ownBallot_of_mem_ballotsIssued (by rw [hid']; exact hlt') hb'
    have hb16 := b.toNat_lt
    rw [hid] at hle hres
    rw [hid'] at hle' hres'
    omega

/-- A node with one worker, on the core after `cores`. -/
def oneWorker (nodeId : UInt16) (cores : List LcoreType) (h : cores.length < 2 ^ 30) :
    AppParams where
  nodeId := nodeId
  numAcceptors := 3
  lcoreParams := cores ++ [.worker]
  lcores_lt := by
    rw [List.length_append]
    show cores.length + 1 < 2 ^ 31
    omega

/-- Preparing the first instance issues the base ballot. -/
theorem mem_ballotsIssued_first {p : Proposer} {b : UInt16}
    (h : ((LoggedProposer.mk p [] [] []).stepOption {} (.prepare 0)).any fun r =>
      r.proposer.Narrow ∧ r.emitted = [.prepare { iid := 1, ballot := b }]) :
    b ∈ ballotsIssued {} p 1 := by
  obtain ⟨r, hstep, hr⟩ := (Option.any_eq_true _ _).mp h
  obtain ⟨hn, hemit⟩ := of_decide_eq_true hr
  refine ⟨r, .step .init ?_ hstep, _, hemit ▸ List.mem_cons_self, rfl⟩
  intro r' hr'
  obtain rfl := Option.some.inj (hstep.symm.trans hr')
  exact hn

/-- Two nodes that serve the first partition on the cores 1 and 2: ballot 11 belongs to the first of
them. -/
theorem leaders_own_ballots_neighbours :
    ∃ p p', (oneWorker 0 [.io] (by decide)).leaderOf 0 = some p ∧
      (oneWorker 1 [.io, .io] (by decide)).leaderOf 0 = some p' ∧
      11 ∈ ballotsIssued {} p 1 ∧ 11 ∉ ballotsIssued {} p' 1 := by
  obtain ⟨p, p', hp, hp', hdisj⟩ := leaders_own_ballots {} (oneWorker 0 [.io] (by decide))
    (oneWorker 1 [.io, .io] (by decide)) 0 1 2 rfl rfl
  obtain rfl : p = proposerNew 1 3 := Option.some.inj (hp.symm.trans rfl)
  have hmem : 11 ∈ ballotsIssued {} (proposerNew 1 3) 1 :=
    mem_ballotsIssued_first (by decide +kernel)
  exact ⟨_, p', hp, hp', hmem, Set.disjoint_left.mp (hdisj.mpr (by decide) 1) hmem⟩

/-- **Two leaders with the same ballots.** Two nodes with different ids serve the first partition
on core 1 each: their proposers have the same id. On the cores 1 and 11 the ids differ, but
preparing the same instance over and over leads the first node from ballot 11 to 21, the base ballot
of the second. -/
theorem leaders_share_ballots :
    (¬ ∀ (app app' : AppParams), app.nodeId ≠ app'.nodeId → ∀ w p p', app.leaderOf w = some p →
      app'.leaderOf w = some p' →
      ∀ k, Disjoint (ballotsIssued {} p k) (ballotsIssued {} p' k)) ∧
    ¬ ∀ (app app' : AppParams), app.nodeId ≠ app'.nodeId → ∀ w lcore lcore',
      (appAssignWorkerIds app)[w]? = some lcore → (appAssignWorkerIds app')[w]? = some lcore' →
      lcore ≠ lcore' → ∀ p p', app.leaderOf w = some p → app'.leaderOf w = some p' →
      ∀ k, Disjoint (ballotsIssued {} p k) (ballotsIssued {} p' k) := by
  constructor
  · intro hclaim
    have hdisj := hclaim (oneWorker 0 [.io] (by decide)) (oneWorker 1 [.io] (by decide))
      (by decide) 0 (proposerNew 1 3) (proposerNew 1 3) rfl rfl 1
    have hmem : 11 ∈ ballotsIssued {} (proposerNew 1 3) 1 :=
      mem_ballotsIssued_first (by decide +kernel)
    exact Set.disjoint_left.mp hdisj hmem hmem
  · intro hclaim
    have hdisj := hclaim (oneWorker 0 [.io] (by decide))
      (oneWorker 1 (List.replicate 11 .io) (by decide)) (by decide) 0 1 11 rfl rfl (by decide)
      (proposerNew 1 3) (proposerNew 11 3) rfl rfl 1
    have hmem' : 21 ∈ ballotsIssued {} (proposerNew 11 3) 1 :=
      mem_ballotsIssued_first (by decide +kernel)
    obtain ⟨r, hr, hs⟩ := Runs.exists_reaches_of_run (LoggedProposer.stepOption {})
      (LoggedProposer.StaysNarrow {}) (.fresh 1 3) [.prepare 0, .prepareInstance 0 1]
      (fun r => .prepare { iid := 1, ballot := 21 } ∈ r.emitted) (by decide +kernel)
    exact Set.disjoint_left.mp hdisj ⟨r, hr, _, of_decide_eq_true hs, rfl⟩ hmem'

end LibPaxos.P4xos
