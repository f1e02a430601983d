import LibPaxos.LearnerGaps
import LibPaxos.NetPaxos.Datagrams

/-!
# The learner of `netpaxos`

`net/learner.c`. What a learner that fills its gaps sends to the acceptors: the prepare requests for
the missing instances as one batch, and the requests that answer a promise or a preempted message
one by one.

* **`hole_prepares_intact`** — the batch arrives as it was meant only for a single instance of
  certain ids and ballots.
* **`hole_prepares_garbled`** — three missing instances.
* **`recovery_accept_sent`** — the accept request that a promise leads to arrives, except for the
  part of its value that the datagram leaves out.
* **`recovery_accept_cut`** — a value that is cut off.
-/

namespace LibPaxos

open Learner

/-! ## The ids of the gaps -/

/-- Every gap sits under its instance id. -/
def Learner.Keyed (l : Learner) : Prop :=
  l.gaps.All fun k gap => gap.iid = k

theorem GapMove.keyed {l l' : Learner} {op : LearnerOp} {out : List PaxosMessage}
    (hm : GapMove l op l' out) (h : l.Keyed) : l'.Keyed := by
  cases hm with
  | kept hg =>
    intro k gap hk
    exact h k gap ((hg k).symm.trans hk)
  | started _ hg =>
    unfold Keyed
    rw [hg]
    exact h
  | delivered => exact h.erase _
  | opened => exact h.insert rfl
  | @restarted _ k gap _ hk => exact h.replace (AList.mem_of_lookup hk) (h k gap hk)
  | promised hk => exact h.replace (AList.mem_of_lookup hk) ((takeIn_iid _ _ _).trans (h _ _ hk))
  | requested hk => exact h.replace (AList.mem_of_lookup hk) ((takeIn_iid _ _ _).trans (h _ _ hk))

theorem LoggedLearner.keyed_run {n : Nat} (ops : List LearnerOp) :
    ∀ {r : LoggedLearner}, r.Sound (fun _ => True) n → r.learner.Keyed →
      (r.run ops).learner.Keyed := by
  induction ops with
  | nil => exact fun _ h => h
  | cons op ops ih =>
    intro r hs h
    obtain ⟨out, hm, -⟩ := LoggedLearner.step_gapMove hs op
    exact ih (hs.step fun _ _ => trivial) (hm.keyed h)

theorem LoggedLearner.keyed_startingAt (config : PaxosConfig) (n : Nat) (iid : UInt32)
    (ops : List LearnerOp) : ((startingAt config n iid).run ops).learner.Keyed :=
  keyed_run ops (sound_startingAt _ config n iid)
    AList.all_empty

/-- The request is for the instance, and nothing but its ballot is filled in. -/
theorem learnerPrepare_keyed {l : Learner} (h : l.Keyed) (iid : UInt32) :
    (learnerPrepare l iid).1.Keyed ∧
      ∃ ballot, (learnerPrepare l iid).2 = { iid := iid, ballot := ballot } := by
  refine ⟨(learnerPrepare_gapMove l iid).keyed h, ?_⟩
  unfold learnerPrepare
  split
  · exact ⟨_, rfl⟩
  · rename_i gap hk
    obtain rfl : gap.iid = iid := h iid gap hk
    exact ⟨_, rfl⟩

end LibPaxos

namespace LibPaxos.NetPaxos

open Buffer Bytes

/-! ## The batch of prepare requests -/

/-- `MAX_GAPS`. -/
def maxGaps : UInt32 := 128

/-- Where the batch ends. -/
def batchEnd (fromInst toInst : UInt32) : UInt32 :=
  if toInst - fromInst > maxGaps then fromInst + maxGaps else toInst

/-- The ids that the loop of `learner_check_holes` goes through. -/
def batchIds (fromInst toInst : UInt32) : List UInt32 :=
  (List.range (toInst - fromInst).toNat).map fun k => fromInst + UInt32.ofNat k

/-- A `paxos_message` with a prepare request as it lies in memory: packed, in the byte order of the
machine, its type four bytes long. The request has no value, so there is no address. -/
def inMemory (out : PaxosPrepare) : List UInt8 :=
  leBytes 4 PaxosMessageType.prepare.code ++ (leBytes 4 out.iid.toNat ++
    (leBytes 2 out.ballot.toNat ++ (leBytes 2 out.valueBallot.toNat ++
      (leBytes 2 out.aid.toNat ++ (leBytes 4 out.value.length ++ leBytes 8 0)))))

/-- The loop of `learner_check_holes`. -/
structure Batch where
  learner : Learner
  /-- What `learner_prepare` returned, for one id after the other. -/
  chosen : List PaxosPrepare
  /-- The variable that it was returned in. -/
  out : Option PaxosPrepare

/-- One turn. -/
def Batch.add (b : Batch) (iid : UInt32) : Batch :=
  match learnerPrepare b.learner iid with
  | (l, out) => { learner := l, chosen := b.chosen ++ [out], out := some out }

/-- `learner_check_holes`: the batch, and the datagrams that `sendmmsg` is given. -/
def learnerCheckHoles (l : Learner) : Batch × List (List UInt8) :=
  match learnerHasHoles l with
  | none => ({ learner := l, chosen := [], out := none }, [])
  | some (fromInst, toInst) =>
    let toInst := batchEnd fromInst toInst
    let batch := (batchIds fromInst toInst).foldl Batch.add
      { learner := l, chosen := [], out := none }
    -- every entry is the address of `out`, which is read when all of them are sent
    (batch, List.replicate (toInst - fromInst).toNat (batch.out.toList.flatMap inMemory))

/-! ### What arrives of it -/

/-- The datagram is read as the prepare request, as far as its instance and its ballot go. -/
def Arrives (d : List UInt8) (out : PaxosPrepare) : Prop :=
  ∃ m, unpackPaxosMessage (received d d.length) = .ok (some (.prepare m)) ∧
    m.iid = out.iid ∧ m.ballot = out.ballot

section InMemory

variable (iid : UInt32) (ballot : UInt16)

theorem received_inMemory :
    received (inMemory { iid, ballot }) (inMemory { iid, ballot }).length =
      [0, 0, 0, 0, UInt8.ofNat iid.toNat, UInt8.ofNat (iid.toNat / 256),
        UInt8.ofNat (iid.toNat / 256 / 256), UInt8.ofNat (iid.toNat / 256 / 256 / 256),
        UInt8.ofNat ballot.toNat, UInt8.ofNat (ballot.toNat / 256)] ++ List.replicate 118 0 := by
  simp only [inMemory, leBytes, PaxosMessageType.code]
  rfl

/-- The decoder takes the upper half of the type for the type, and the lower half of the type and
of the id, its bytes exchanged, for the id; the upper half of the id is taken for the ballot. -/
theorem unpack_inMemory :
    ∃ m, unpackPaxosMessage (received (inMemory { iid, ballot }) (inMemory { iid, ballot }).length)
        = .ok (some (.prepare m)) ∧
      m.iid.toNat = 256 * (iid.toNat % 256) + iid.toNat / 256 % 256 ∧
      m.ballot.toNat = 256 * (iid.toNat / 65536 % 256) + iid.toNat / 16777216 % 256 := by
  rw [received_inMemory]
  generalize hp : [0, 0, 0, 0, UInt8.ofNat iid.toNat, UInt8.ofNat (iid.toNat / 256),
    UInt8.ofNat (iid.toNat / 256 / 256), UInt8.ofNat (iid.toNat / 256 / 256 / 256),
    UInt8.ofNat ballot.toNat, UInt8.ofNat (ballot.toNat / 256)] ++ List.replicate 118 0 = p
  have hlen : p.length = bufsize := by
    rw [← hp]
    rfl
  -- the type of a prepare is 0, so two bytes of it are read as the type
  have htype : typeOf p = some .prepare := by
    rw [← hp]
    rfl
  have hvalue : unpackValue p valueOffset = .ok [] := by
    refine Except.bind_eq_ok.mpr ⟨_, unpackUint32_ok (by rw [hlen]; decide), ?_⟩
    have hzero : numberAt 4 p valueOffset = 0 := by
      rw [← hp]
      rfl
    rw [hzero]
    rfl
  -- the decoder is two bytes early, and takes the bytes in the other order
  refine ⟨_, unpackPaxosMessage_of_type hlen htype (Except.bind_eq_ok.mpr
    ⟨{ iid := UInt32.ofNat (numberAt 4 p iidOffset)
       ballot := UInt16.ofNat (numberAt 2 p ballotOffset)
       valueBallot := UInt16.ofNat (numberAt 2 p valueBallotOffset)
       aid := UInt16.ofNat (numberAt 2 p aidOffset)
       value := [] },
      Except.bind_eq_ok.mpr ⟨_, unpackFields_ok hlen hvalue, rfl⟩, rfl⟩), ?_, ?_⟩
  · rw [UInt32.toNat_ofNat_of_lt' (numberAt_lt 4), ← hp]
    show beNat [0, 0, UInt8.ofNat iid.toNat, UInt8.ofNat (iid.toNat / 256)] = _
    simp [beNat, leNat, Nat.ofDigits]
    omega
  · rw [UInt16.toNat_ofNat_of_lt' (numberAt_lt 2), ← hp]
    show beNat [UInt8.ofNat (iid.toNat / 256 / 256), UInt8.ofNat (iid.toNat / 256 / 256 / 256)] = _
    simp [beNat, leNat, Nat.ofDigits]
    omega

end InMemory

/-- The fields that `learner_prepare` fills in, and no other. -/
def Filled (out : PaxosPrepare) : Prop :=
  out = { iid := out.iid, ballot := out.ballot }

theorem arrives_inMemory_iff {last : PaxosPrepare} (h : Filled last) (out : PaxosPrepare) :
    Arrives (inMemory last) out ↔
      out.iid.toNat = 256 * (last.iid.toNat % 256) + last.iid.toNat / 256 % 256 ∧
      out.ballot.toNat
        = 256 * (last.iid.toNat / 65536 % 256) + last.iid.toNat / 16777216 % 256 := by
  obtain ⟨m, hm, hiid, hballot⟩ := unpack_inMemory last.iid last.ballot
  rw [← h] at hm
  rw [← hiid, ← hballot, UInt32.toNat_inj, UInt16.toNat_inj]
  constructor
  · rintro ⟨m', hm', h₁, h₂⟩
    cases hm.symm.trans hm'
    exact ⟨h₁.symm, h₂.symm⟩
  · rintro ⟨h₁, h₂⟩
    exact ⟨m, hm, h₁.symm, h₂.symm⟩

/-- The loop asks for every id, and `out` has the last request. -/
theorem foldl_add (ids : List UInt32) : ∀ b : Batch, b.learner.Keyed →
    ∃ outs, (ids.foldl Batch.add b).chosen = b.chosen ++ outs ∧ outs.map (·.iid) = ids ∧
      (∀ out ∈ outs, Filled out) ∧ (ids.foldl Batch.add b).out = outs.getLast?.or b.out := by
  induction ids with
  | nil =>
    intro b _
    exact ⟨[], by simp⟩
  | cons iid ids ih =>
    intro b h
    obtain ⟨hkeyed, ballot, hout⟩ := learnerPrepare_keyed h iid
    obtain ⟨outs, hchosen, hids, hfilled, hlast⟩ := ih (b.add iid) hkeyed
    refine ⟨{ iid := iid, ballot := ballot } :: outs, ?_, ?_, ?_, ?_⟩
    · rw [List.foldl_cons, hchosen, ← hout]
      exact List.append_assoc _ _ _
    · rw [List.map_cons, hids]
    · exact List.forall_mem_cons.mpr ⟨rfl, hfilled⟩
    · rw [List.foldl_cons, hlast]
      show outs.getLast?.or (some (learnerPrepare b.learner iid).2) = _
      rw [hout, List.getLast?_cons]
      cases outs.getLast? <;> rfl

section Batch

variable {l : Learner} {fromInst toInst : UInt32}

theorem lt_of_learnerHasHoles (h : learnerHasHoles l = some (fromInst, toInst)) :
    fromInst < toInst := by
  unfold learnerHasHoles at h
  split at h
  · rename_i hlt
    cases h
    exact hlt
  · cases h

theorem toNat_batchEnd_sub (h : fromInst < toInst) :
    (batchEnd fromInst toInst - fromInst).toNat = min (toInst.toNat - fromInst.toNat) 128 := by
  have hlt := UInt32.lt_iff_toNat_lt.mp h
  have hsub : (toInst - fromInst).toNat = toInst.toNat - fromInst.toNat :=
    UInt32.toNat_sub_of_le _ _ (UInt32.le_of_lt h)
  have hmax : maxGaps.toNat = 128 := rfl
  unfold batchEnd
  split
  · rename_i hgt
    rw [gt_iff_lt, UInt32.lt_iff_toNat_lt, hsub, hmax] at hgt
    rw [UInt32.add_comm, UInt32.add_sub_cancel, hmax]
    omega
  · rename_i hle
    rw [gt_iff_lt, UInt32.lt_iff_toNat_lt, hsub, hmax] at hle
    rw [hsub]
    omega

/-- The ids of the batch, without wrapping around. -/
theorem map_toNat_batchIds (h : fromInst < toInst) :
    (batchIds fromInst (batchEnd fromInst toInst)).map (·.toNat)
      = List.range' fromInst.toNat (min (toInst.toNat - fromInst.toNat) 128) := by
  have hlt := toInst.toNat_lt
  have hsize : UInt32.size = 2 ^ 32 := rfl
  unfold batchIds
  rw [toNat_batchEnd_sub h, List.map_map, List.range'_eq_map_range]
  refine List.map_congr_left fun k hk => ?_
  have hk := List.mem_range.mp hk
  show (fromInst + UInt32.ofNat k).toNat = fromInst.toNat + k
  rw [UInt32.toNat_add, UInt32.toNat_ofNat_of_lt' (by omega)]
  omega

/-- What is sent: one and the same datagram, as often as there are ids. -/
theorem learnerCheckHoles_eq (hkeyed : l.Keyed)
    (hholes : learnerHasHoles l = some (fromInst, toInst)) :
    ∃ outs last, (learnerCheckHoles l).1.chosen = outs ++ [last] ∧
      (outs ++ [last]).map (·.iid) = batchIds fromInst (batchEnd fromInst toInst) ∧
      Filled last ∧
      (learnerCheckHoles l).2 = List.replicate (outs ++ [last]).length (inMemory last) := by
  have hlt := lt_of_learnerHasHoles hholes
  have hnat := UInt32.lt_iff_toNat_lt.mp hlt
  obtain ⟨chosen, hchosen, hids, hfilled, hout⟩ :=
    foldl_add (batchIds fromInst (batchEnd fromInst toInst)) ⟨l, [], none⟩ hkeyed
  have hlen : chosen.length = (batchEnd fromInst toInst - fromInst).toNat := by
    rw [← List.length_map, hids, batchIds, List.length_map, List.length_range]
  have hne : chosen ≠ [] := by
    rw [← List.length_pos_iff, hlen, toNat_batchEnd_sub hlt]
    omega
  obtain ⟨outs, last, rfl⟩ := List.eq_nil_or_concat' chosen |>.resolve_left hne
  refine ⟨outs, last, ?_, hids, hfilled last (by simp), ?_⟩
  · unfold learnerCheckHoles
    rw [hholes]
    exact hchosen
  · unfold learnerCheckHoles
    rw [hholes]
    simp only [hout, hlen, List.getLast?_concat]
    simp

end Batch

/-- A list of equal entries. -/
theorem forall₂_replicate_left {α β : Type} {R : α → β → Prop} {x : α} {ys : List β} :
    List.Forall₂ R (List.replicate ys.length x) ys ↔ ∀ y ∈ ys, R x y := by
  induction ys with
  | nil => simp
  | cons y ys ih => rw [List.length_cons, List.replicate_succ, List.forall₂_cons, ih,
      List.forall_mem_cons]

/-- Exchanging its two bytes leaves an id as it is, if they are equal. -/
theorem eq_swapped_iff {n : Nat} :
    n = 256 * (n % 256) + n / 256 % 256 ↔ n < 65536 ∧ n % 257 = 0 := by
  constructor
  · intro h
    have hsmall : n < 65536 := by omega
    have hbytes : n % 256 = n / 256 := by omega
    have hmul : n = 257 * (n / 256) := by omega
    exact ⟨hsmall, by omega⟩
  · rintro ⟨hsmall, hmul⟩
    have hbytes : n / 256 = n / 257 := by omega
    omega

theorem upper_half_eq_zero {n : Nat} (h : n < 65536) :
    256 * (n / 65536 % 256) + n / 16777216 % 256 = 0 := by
  rw [Nat.div_eq_of_lt h, Nat.div_eq_of_lt (by omega)]

/-- Consecutive ids are all the same only if there is one. -/
theorem forall_mem_range'_eq_iff {i k x : Nat} (hk : 1 ≤ k) :
    (∀ j ∈ List.range' i k, j = x) ↔ k = 1 ∧ x = i := by
  constructor
  · intro h
    have hfirst := h i (List.mem_range'_1.mpr ⟨Nat.le_refl _, by omega⟩)
    refine ⟨?_, hfirst.symm⟩
    by_contra hne
    have hsecond := h (i + 1) (List.mem_range'_1.mpr ⟨by omega, by omega⟩)
    omega
  · rintro ⟨rfl, rfl⟩
    simp

/-- **Requests with consecutive ids that are all read from the datagram of the last one.** -/
theorem forall_arrives_iff {outs : List PaxosPrepare} {last : PaxosPrepare} {i k : Nat}
    (hfilled : Filled last) (hlast : last ∈ outs) (hk : 1 ≤ k)
    (hids : outs.map (·.iid.toNat) = List.range' i k) :
    (∀ out ∈ outs, Arrives (inMemory last) out) ↔
      k = 1 ∧ i < 65536 ∧ i % 257 = 0 ∧ ∀ out ∈ outs, out.ballot = 0 := by
  have hread := arrives_inMemory_iff hfilled
  constructor
  · intro harrive
    obtain ⟨hswapped, -⟩ := (hread last).mp (harrive last hlast)
    -- all requests have the id that is read, so there is only one
    have hsame : ∀ j ∈ List.range' i k, j = last.iid.toNat := by
      rw [← hids]
      intro j hj
      obtain ⟨out, hout, rfl⟩ := List.mem_map.mp hj
      exact ((hread out).mp (harrive out hout)).1.trans hswapped.symm
    obtain ⟨hone, rfl⟩ := (forall_mem_range'_eq_iff hk).mp hsame
    obtain ⟨hsmall, hmul⟩ := eq_swapped_iff.mp hswapped
    refine ⟨hone, hsmall, hmul, fun out hout => ?_⟩
    obtain ⟨-, hballot⟩ := (hread out).mp (harrive out hout)
    exact UInt16.toNat_inj.mp (hballot.trans (upper_half_eq_zero hsmall))
  · rintro ⟨rfl, hsmall, hmul, hballot⟩ out hout
    have hiid : ∀ out ∈ outs, out.iid.toNat = i := by
      intro out hout
      have hmem := List.mem_map_of_mem (f := (·.iid.toNat)) hout
      rw [hids] at hmem
      exact List.mem_singleton.mp hmem
    refine (hread out).mpr ⟨?_, ?_⟩
    · rw [hiid out hout, hiid last hlast]
      exact eq_swapped_iff.mpr ⟨hsmall, hmul⟩
    · rw [hballot out hout, hiid last hlast, upper_half_eq_zero hsmall]
      rfl

/-- **Which prepare requests arrive.** A learner with missing instances chooses a prepare request
for each of them, at most 128; but all datagrams are the bytes of the last one, in the byte order of
the machine. So they are read as the requests that were chosen exactly if one instance is missing,
its id has two equal bytes and no other, and the ballot, of 16 bits, is 0. -/
theorem hole_prepares_intact (config : PaxosConfig) (n : Nat) (iid : UInt32)
    (ops : List LearnerOp) (fromInst toInst : UInt32)
    (hholes : learnerHasHoles ((LoggedLearner.startingAt config n iid).run ops).learner
      = some (fromInst, toInst)) :
    let sent := learnerCheckHoles ((LoggedLearner.startingAt config n iid).run ops).learner
    sent.1.chosen.map (·.iid.toNat)
        = List.range' fromInst.toNat (min (toInst.toNat - fromInst.toNat) 128) ∧
      (List.Forall₂ Arrives sent.2 sent.1.chosen ↔
        toInst.toNat = fromInst.toNat + 1 ∧ fromInst.toNat < 65536 ∧ fromInst.toNat % 257 = 0 ∧
          ∀ out ∈ sent.1.chosen, out.ballot = 0) := by
  intro sent
  have hlt := lt_of_learnerHasHoles hholes
  have hnat := UInt32.lt_iff_toNat_lt.mp hlt
  obtain ⟨outs, last, hchosen, hids, hfilled, hdatagrams⟩ :=
    learnerCheckHoles_eq (LoggedLearner.keyed_startingAt config n iid ops) hholes
  have hrange : sent.1.chosen.map (·.iid.toNat)
      = List.range' fromInst.toNat (min (toInst.toNat - fromInst.toNat) 128) := by
    rw [← map_toNat_batchIds hlt, ← hids, hchosen, List.map_map]
    rfl
  refine ⟨hrange, ?_⟩
  rw [hchosen] at hrange
  rw [hdatagrams, hchosen, forall₂_replicate_left,
    forall_arrives_iff hfilled (by simp) (by omega) hrange]
  exact and_congr_left' (by omega)

/-- A learner that has closed the instances above `iid` that are listed. -/
def closedAbove (iid : UInt32) (closed : List UInt32) (ops : List LearnerOp) : LoggedLearner :=
  (LoggedLearner.startingAt {} 3 iid).run
    (closed.flatMap (fun k => [.receiveAccepted { iid := k, ballot := 10, aid := 0, value := [1] },
      .receiveAccepted { iid := k, ballot := 10, aid := 1, value := [1] }]) ++ ops)

/-- The instance 257 is missing, and its next ballot is 65536. -/
theorem hole_prepares_intact_one :
    let l := (closedAbove 256 [258]
      [.prepare 257, .receivePreempted { iid := 257, ballot := 65514 }]).learner
    learnerHasHoles l = some (257, 258) ∧
      List.Forall₂ Arrives (learnerCheckHoles l).2 (learnerCheckHoles l).1.chosen := by
  intro l
  have hholes : learnerHasHoles l = some (257, 258) := by decide +kernel
  refine ⟨hholes, (hole_prepares_intact {} 3 256 _ 257 258 hholes).2.mpr ?_⟩
  decide +kernel

/-- **Prepare requests that do not arrive.** The instances 1 to 3 are missing; what the acceptors
are sent is three times a request for the instance 768. -/
theorem hole_prepares_garbled :
    let l := (closedAbove 0 [4] []).learner
    learnerHasHoles l = some (1, 4) ∧
      (learnerCheckHoles l).1.chosen
        = [{ iid := 1, ballot := 3 }, { iid := 2, ballot := 3 }, { iid := 3, ballot := 3 }] ∧
      (learnerCheckHoles l).2.map (fun d => unpackPaxosMessage (received d d.length)) =
        List.replicate 3
          (.ok (some (.prepare { iid := 768, ballot := 0, valueBallot := 768 }))) := by
  decide +kernel

/-! ## Requests sent one by one

The handlers fill in a message on the stack and say how long the datagram is to be, by the length of
the promise they have got. The accept request may carry another value than that promise. -/

/-- What a handler finds on the stack: fields of `out` that it does not set, the buffer of
`send_paxos_message`, and what lies behind that. -/
structure Stack where
  valueBallot : UInt16
  aid : UInt16
  buffer : List UInt8
  behind : List UInt8
  length_buffer : buffer.length = bufsize

/-- `send_paxos_message`: the datagram. The caller says how long it is, whatever the encoder
announces; `sendto` succeeds. -/
def sendPaxosMessage (s : Stack) (msg : WireMessage) (msgSize : Nat) :
    Except Fault (List UInt8) := do
  let (p, _) ← packPaxosMessage s.buffer msg
  .ok ((p ++ s.behind).take msgSize)

/-- `on_paxos_promise`. The length is made up with the value of the promise. -/
def onPaxosPromise (s : Stack) (l : Learner) (promise : PaxosPromise) :
    Except Fault (Learner × Option (List UInt8)) :=
  match learnerReceivePromise l promise with
  | (l, none) => .ok (l, none)
  | (l, some out) => do
    let out := { out with valueBallot := s.valueBallot, aid := s.aid }
    let d ← sendPaxosMessage s (.accept out) (sizeofPaxosMessage + promise.value.length)
    .ok (l, some d)

/-- `on_paxos_preempted`. -/
def onPaxosPreempted (s : Stack) (l : Learner) (ack : PaxosPreempted) :
    Except Fault (Learner × Option (List UInt8)) :=
  match learnerReceivePreempted l ack with
  | (l, none) => .ok (l, none)
  | (l, some out) => do
    let d ← sendPaxosMessage s (.prepare out) sizeofPaxosMessage
    .ok (l, some d)

section Sent

variable {s : Stack} {l : Learner} {value : PaxosValue} {msgSize : Nat}

/-- **What arrives of a request**: all of it, but for the part of the value that is left out, which
is read as zeros. -/
theorem received_fields (t : PaxosMessageType) (iid : UInt32) (ballot valueBallot aid : UInt16)
    (hfit : 16 + value.length ≤ bufsize) (hsize : 16 ≤ msgSize) :
    let d := (overlay (encoding.fields t iid ballot valueBallot aid value) s.buffer
      ++ s.behind).take msgSize
    ∃ tail, received d d.length
      = encoding.fields t iid ballot valueBallot aid (cutOff 0 (msgSize - 16) value) ++ tail := by
  intro d
  obtain ⟨front, hfront, hfields⟩ :=
    exists_fields_eq_append t iid ballot valueBallot aid value.length
  obtain ⟨rest, hrest⟩ : ∃ rest,
      overlay (encoding.fields t iid ballot valueBallot aid value) s.buffer ++ s.behind
        = front ++ value ++ rest := by
    unfold overlay
    rw [hfields value rfl, List.append_assoc (front ++ value)]
    exact ⟨_, rfl⟩
  -- the cut falls in the value, since the fields in front take 16 bytes
  have hcut : ∃ tail, overlay ((front ++ value ++ rest).take (min msgSize bufsize))
      (List.replicate bufsize 0) = front ++ (cutOff 0 (msgSize - front.length) value ++ tail) :=
    exists_overlay_take _ _ (by omega) (by omega)
  obtain ⟨tail, htail⟩ := hcut
  refine ⟨tail, ?_⟩
  rw [hfields _ length_cutOff, List.append_assoc, ← hfront, ← htail]
  unfold received d
  congr 1
  rw [hrest, List.take_take, List.length_take]
  exact List.take_eq_take_iff.mpr (by omega)

/-- The message that is read from the datagram of `msg` is the one with the value cut off. -/
theorem sendPaxosMessage_fields {t : PaxosMessageType} {iid : UInt32}
    {ballot valueBallot aid : UInt16} {msg msg' : WireMessage}
    (henc : encoding s.buffer msg = encoding.fields t iid ballot valueBallot aid value)
    (henc' : encoding s.buffer msg'
      = encoding.fields t iid ballot valueBallot aid (cutOff 0 (msgSize - 16) value))
    (hclient : ∀ v, msg' ≠ .clientValue v)
    (hfit : 16 + value.length ≤ bufsize) (hsize : 16 ≤ msgSize) :
    ∃ d, sendPaxosMessage s msg msgSize = .ok d ∧
      unpackPaxosMessage (received d d.length) = .ok (some msg') := by
  have hpack : packPaxosMessage s.buffer msg = .ok (overlay (encoding s.buffer msg) s.buffer, _) :=
    packPaxosMessage_eq s.length_buffer (by rw [henc, length_fields]; exact hfit)
  obtain ⟨tail, htail⟩ := received_fields (s := s) t iid ballot valueBallot aid hfit hsize
  refine ⟨_, Except.bind_eq_ok.mpr ⟨_, hpack, rfl⟩, ?_⟩
  rw [henc, htail, ← henc']
  refine unpackPaxosMessage_encoding ?_ (fun v hv => absurd hv (hclient v)) tail
  have hle : msg'.value.length ≤ (encoding s.buffer msg').length := length_value_le msg'
  rw [henc', length_fields, length_cutOff] at hle
  exact Nat.lt_of_le_of_lt (Nat.le_trans hle hfit) (by decide)

/-- The prepare request that answers a preempted message arrives. -/
theorem arrives_onPaxosPreempted {ack : PaxosPreempted} {l' : Learner} {out : PaxosPrepare}
    (h : learnerReceivePreempted l ack = (l', some out)) :
    ∃ d, onPaxosPreempted s l ack = .ok (l', some d) ∧ Arrives d out := by
  have hvalue : out.value = [] := by
    unfold learnerReceivePreempted at h
    split at h
    · cases h
    · cases h
      rfl
  have hsend : ∃ d, sendPaxosMessage s (.prepare out) sizeofPaxosMessage = .ok d ∧
      unpackPaxosMessage (received d d.length) = .ok (some (.prepare out)) := by
    refine sendPaxosMessage_fields rfl ?_ (by simp) ?_ (by decide)
    · rw [cutOff_of_le (by rw [hvalue]; decide)]
      rfl
    · rw [hvalue]
      decide
  obtain ⟨d, hd, hread⟩ := hsend
  refine ⟨d, ?_, out, hread, rfl, rfl⟩
  unfold onPaxosPreempted
  rw [h]
  exact Except.bind_eq_ok.mpr ⟨d, hd, rfl⟩

end Sent

/-- **The accept request that a promise leads to.** If the encoding of the request fits into the
buffer, it is sent, and read as a request for the same instance and ballot. The value is the same
exactly if there are zeros only, or nothing, behind as many of its bytes as the value of the promise
has, and ten more. -/
theorem recovery_accept_sent (s : Stack) (l l' : Learner) (promise : PaxosPromise)
    (accept : PaxosAccept) (h : learnerReceivePromise l promise = (l', some accept))
    (hfit : 16 + accept.value.length ≤ bufsize) :
    ∃ d m, onPaxosPromise s l promise = .ok (l', some d) ∧
      unpackPaxosMessage (received d d.length) = .ok (some (.accept m)) ∧
      m.iid = accept.iid ∧ m.ballot = accept.ballot ∧
      (m.value = accept.value ↔ ∀ b ∈ accept.value.drop (promise.value.length + 10), b = 0) := by
  have hlen : sizeofPaxosMessage + promise.value.length - 16 = promise.value.length + 10 := by
    have hsize : sizeofPaxosMessage = 26 := rfl
    omega
  have hsend : ∃ d, sendPaxosMessage s
        (.accept { accept with valueBallot := s.valueBallot, aid := s.aid })
        (sizeofPaxosMessage + promise.value.length) = .ok d ∧
      unpackPaxosMessage (received d d.length) = .ok (some (.accept
        { accept with
          valueBallot := s.valueBallot
          aid := s.aid
          value := cutOff 0 (promise.value.length + 10) accept.value })) := by
    refine sendPaxosMessage_fields rfl ?_ (by simp) hfit ?_
    · rw [hlen]
      rfl
    · exact Nat.le_trans (by decide) (Nat.le_add_right sizeofPaxosMessage _)
  obtain ⟨d, hd, hread⟩ := hsend
  refine ⟨d, _, ?_, hread, rfl, rfl, cutOff_eq_self_iff⟩
  unfold onPaxosPromise
  rw [h]
  exact Except.bind_eq_ok.mpr ⟨d, hd, rfl⟩

/-- A stack of zeros. -/
def Stack.zero : Stack where
  valueBallot := 0
  aid := 0
  buffer := List.replicate bufsize 0
  behind := []
  length_buffer := List.length_replicate

/-- A learner that fills a gap for the instance 1, and has a promise with the value. -/
def promisedValue (value : PaxosValue) : Learner :=
  ((LoggedLearner.startingAt {} 3 0).run [.prepare 1,
    .receivePromise { iid := 1, ballot := 3, valueBallot := 2, aid := 0, value }]).learner

/-- The last promise has no value, and the value requested is that of the promise before. -/
theorem recovery_accept_sent_ten :
    let accept : PaxosAccept := { iid := 1, ballot := 3, value := List.replicate 10 7 }
    ∃ d m, (onPaxosPromise .zero (promisedValue (List.replicate 10 7))
        { iid := 1, ballot := 3, aid := 1 }).map (·.2) = .ok (some d) ∧
      unpackPaxosMessage (received d d.length) = .ok (some (.accept m)) ∧
      m.iid = accept.iid ∧ m.ballot = accept.ballot ∧ m.value = accept.value := by
  intro accept
  obtain ⟨d, m, hd, hread, hiid, hballot, hvalue⟩ :=
    recovery_accept_sent .zero (promisedValue (List.replicate 10 7)) _
      { iid := 1, ballot := 3, aid := 1 } accept rfl (by decide)
  refine ⟨d, m, ?_, hread, hiid, hballot, hvalue.mpr (List.forall_mem_nil _)⟩
  rw [hd]
  rfl

/-- **A value that is cut off.** Of the twenty bytes that are requested ten are sent, and the
acceptors accept the value with ten zeros behind them. -/
theorem recovery_accept_cut :
    let promise : PaxosPromise := { iid := 1, ballot := 3, aid := 1 }
    (learnerReceivePromise (promisedValue (List.replicate 20 7)) promise).2
        = some { iid := 1, ballot := 3, value := List.replicate 20 7 } ∧
      ∃ d, (onPaxosPromise .zero (promisedValue (List.replicate 20 7)) promise).map (·.2)
          = .ok (some d) ∧
        unpackPaxosMessage (received d d.length) = .ok (some (.accept
          { iid := 1, ballot := 3, value := List.replicate 10 7 ++ List.replicate 10 0 })) := by
  refine ⟨by decide +kernel, (encoding [] (.accept
    { iid := 1, ballot := 3, value := List.replicate 20 7 })).take 26, ?_, ?_⟩
  · decide +kernel
  · decide +kernel

end LibPaxos.NetPaxos
