import LibPaxos.AcceptorRepeat
import LibPaxos.NetPaxos.Datagrams

/-!
# The acceptor of `netpaxos`

`net/acceptor.c`. A datagram is received into a buffer of zeros, decoded from there and handled; the
answers are packed into the same buffer and sent from it. The storage is in memory, and `sendto`
succeeds.

* `Fitting.step` — the values that the acceptor stores fit into the buffer, so packing an answer
  never leaves it.
* **`repeat_visits_each_id`** — the loops over the ids of a repeat message end, for the acceptors of
  both stacks, if the last id is not the largest one.
* **`repeat_of_largest_id`** — otherwise they do not.
-/

namespace LibPaxos

/-- A message of the protocol as it is sent. -/
def PaxosMessage.toWire : PaxosMessage → WireMessage
  | .prepare m => .prepare m
  | .promise m => .promise m
  | .accept m => .accept m
  | .accepted m => .accepted m
  | .preempted m => .preempted m

end LibPaxos

namespace LibPaxos.NetPaxos

open Buffer Loops Runs

/-- Where a datagram is sent to. -/
inductive Destination where
  | remote
  | learner
deriving DecidableEq

/-- A datagram that was sent. -/
abbrev Sent := Destination × List UInt8

/-- `pack_paxos_message` into `ctx->buffer`: the buffer, and the datagram that is sent from it. -/
def packDatagram (buffer : List UInt8) (out : PaxosMessage) :
    Except Fault (List UInt8 × List UInt8) := do
  let (p, msgLen) ← packPaxosMessage buffer out.toWire
  .ok (p, p.take msgLen)

/-- `acceptor_handle_prepare`. -/
def acceptorHandlePrepare (a : MemAcceptor) (buffer : List UInt8) (m : PaxosPrepare) :
    Except Fault (MemAcceptor × List Sent) :=
  match acceptorReceivePrepare storageInitMem a m with
  | (a, none) => .ok (a, [])
  | (a, some out) => do
    let (_, datagram) ← packDatagram buffer out
    .ok (a, [(.remote, datagram)])

/-- `acceptor_handle_accept`. A preempted message is not sent. -/
def acceptorHandleAccept (a : MemAcceptor) (buffer : List UInt8) (m : PaxosAccept) :
    Except Fault (MemAcceptor × List Sent) :=
  match acceptorReceiveAccept storageInitMem a m with
  | (a, some (.accepted out)) => do
    let (_, datagram) ← packDatagram buffer (.accepted out)
    .ok (a, [(.learner, datagram), (.remote, datagram)])
  | (a, _) => .ok (a, [])

/-- `ctx->buffer`, and the datagrams sent from it. -/
structure Outbox where
  buffer : List UInt8
  sent : List Sent

/-- One answer of the repeat loop. -/
def Outbox.send (o : Outbox) (acc : PaxosAccepted) : Except Fault Outbox := do
  let (buffer, datagram) ← packDatagram o.buffer (.accepted acc)
  .ok { buffer := buffer, sent := o.sent ++ [(.remote, datagram)] }

/-- `acceptor_handle_repeat`. -/
def acceptorHandleRepeat (fuel : Nat) (a : MemAcceptor) (buffer : List UInt8) (m : PaxosRepeat) :
    Except Fault (Option (RepeatLoop MemAcceptor Outbox)) :=
  repeatLoop memReceiveRepeat Outbox.send fuel a { buffer := buffer, sent := [] } m

/-- `acceptor_handle_benchmark`: the part of the value behind a command id and an address, as long
as the datagram was. The value is followed by a zero byte. The size is a `size_t`. -/
def acceptorHandleBenchmark (m : PaxosAccepted) (size : Nat) : Except Fault (List Sent) := do
  let skipped := 2 + 16
  let retsize := (size + 2 ^ 64 - 22 + skipped) % 2 ^ 64
  let retval ← inBounds (read (m.value ++ [0]) skipped retsize)
  .ok [(.remote, retval)]

/-- `acceptor_read`. There is no result as long as the repeat loop is going on. -/
def acceptorRead (fuel : Nat) (a : MemAcceptor) (d : List UInt8) :
    Except Fault (Option (MemAcceptor × List Sent)) := do
  let buffer := received d d.length
  match ← unpackPaxosMessage buffer with
  | some (.accept m) => return some (← acceptorHandleAccept a buffer m)
  | some (.prepare m) => return some (← acceptorHandlePrepare a buffer m)
  | some (.repeated m) =>
    return (← acceptorHandleRepeat fuel a buffer m).map fun s => (s.acceptor, s.answers.sent)
  | some (.accepted m) => return some (a, ← acceptorHandleBenchmark m (min d.length bufsize))
  | _ => return some (a, [])

/-- A datagram is handled, with a bound on the turns of the repeat loop. There is no next state if a
fault ends the process or the loop is still going on. -/
def readStep (a : MemAcceptor) (e : Nat × List UInt8) : Option MemAcceptor :=
  match acceptorRead e.1 a e.2 with
  | .ok (some (a', _)) => some a'
  | _ => none

/-! ## The stored values fit into the buffer

A value came out of a datagram behind its fields, so it fits into a buffer behind the same fields.
The invariant is on the stored records and is kept by every datagram. -/

/-- Every stored value leaves room for the fields in front of it. -/
def Fitting (a : MemAcceptor) : Prop :=
  ∀ k acc, a.record k = some acc → 16 + acc.value.length ≤ bufsize

theorem fitting_memAcceptorNew (id : Nat) : Fitting (memAcceptorNew id) := by
  intro k acc h
  cases h

section Fitting

variable {a a' : MemAcceptor} {op : AcceptorOp} {out : Option PaxosMessage}

/-- Only an accept brings a new value. -/
theorem Fitting.move (h : Fitting a) (hm : AcceptorMove a op a' out)
    (hop : ∀ req, op = .receiveAccept req → 16 + req.value.length ≤ bufsize) : Fitting a' := by
  intro k acc hk
  cases hm with
  | @promised req ht hb =>
    rw [MemAcceptor.record_put] at hk
    split at hk
    · cases hk
      show 16 + ((a.record req.iid).getD zeroRecord).value.length ≤ bufsize
      cases hr : a.record req.iid with
      | none => decide
      | some old => exact h _ _ hr
    · exact h k acc hk
  | @accepted req ht hb =>
    rw [MemAcceptor.record_put] at hk
    split at hk
    · cases hk
      exact hop req rfl
    · exact h k acc hk
  | trimmed ht => exact h k acc (MemAcceptor.record_trimTo.mp hk).1
  | rePromised | repeated | silent => exact h k acc hk

/-- An answer with a value that fits is packed, and the buffer keeps its size. -/
theorem packDatagram_isOk {buffer : List UInt8} (hbuf : buffer.length = bufsize)
    {acc : PaxosAccepted} (hfit : 16 + acc.value.length ≤ bufsize) :
    ∃ p d, packDatagram buffer (.accepted acc) = .ok (p, d) ∧ p.length = bufsize := by
  have hlen : (encoding buffer (.accepted acc)).length ≤ bufsize := by
    rw [encoding, length_fields]
    exact hfit
  refine ⟨_, _, Except.bind_eq_ok.mpr ⟨_, packPaxosMessage_eq hbuf hlen, rfl⟩, ?_⟩
  rw [length_overlay (by rw [hbuf]; exact hlen), hbuf]

theorem acceptorHandlePrepare_fst {buffer : List UInt8} {m : PaxosPrepare} {sent : List Sent}
    (h : acceptorHandlePrepare a buffer m = .ok (a', sent)) :
    a' = (acceptorReceivePrepare storageInitMem a m).1 := by
  unfold acceptorHandlePrepare at h
  split at h
  · rename_i hr
    cases h
    rw [hr]
  · rename_i hr
    obtain ⟨p, -, h⟩ := Except.bind_eq_ok.mp h
    cases h
    rw [hr]

theorem acceptorHandleAccept_fst {buffer : List UInt8} {m : PaxosAccept} {sent : List Sent}
    (h : acceptorHandleAccept a buffer m = .ok (a', sent)) :
    a' = (acceptorReceiveAccept storageInitMem a m).1 := by
  unfold acceptorHandleAccept at h
  split at h
  · rename_i hr
    obtain ⟨p, -, h⟩ := Except.bind_eq_ok.mp h
    cases h
    rw [hr]
  · rename_i hr
    cases h
    rw [hr]

/-- A repeat request changes nothing. -/
theorem acceptorHandleRepeat_acceptor {fuel : Nat} {buffer : List UInt8} {m : PaxosRepeat}
    {s : RepeatLoop MemAcceptor Outbox}
    (h : acceptorHandleRepeat fuel a buffer m = .ok (some s)) : s.acceptor = a := by
  refine of_loop_eq_some (I := fun s => s.acceptor = a) (fun s s' again hs hturn => ?_) rfl h
  unfold repeatTurn at hturn
  split at hturn
  · obtain ⟨r, hr, hturn⟩ := Except.bind_eq_ok.mp hturn
    obtain ⟨answers, -, hturn⟩ := Except.bind_eq_ok.mp hturn
    cases hturn
    rw [memReceiveRepeat_eq] at hr
    cases hr
    exact hs
  · cases hturn
    exact hs

/-- The value of a datagram fits, and so do those that are stored. -/
theorem Fitting.read {fuel : Nat} {d : List UInt8} {sent : List Sent} (h : Fitting a)
    (hread : acceptorRead fuel a d = .ok (some (a', sent))) : Fitting a' := by
  obtain ⟨msg, hmsg, hread⟩ := Except.bind_eq_ok.mp hread
  split at hread
  · rename_i m
    obtain ⟨r, hr, hread⟩ := Except.bind_eq_ok.mp hread
    cases hread
    rw [acceptorHandleAccept_fst hr]
    refine h.move (acceptorMove_accept a m) fun req hreq => ?_
    cases hreq
    exact length_value_of_unpack (length_received _ _) hmsg rfl
  · rename_i m
    obtain ⟨r, hr, hread⟩ := Except.bind_eq_ok.mp hread
    cases hread
    rw [acceptorHandlePrepare_fst hr]
    exact h.move (acceptorMove_prepare a m) fun req hreq => by cases hreq
  · obtain ⟨s, hs, hread⟩ := Except.bind_eq_ok.mp hread
    obtain ⟨s, rfl, hs'⟩ := Option.map_eq_some_iff.mp (Except.ok.inj hread)
    cases hs'
    rw [acceptorHandleRepeat_acceptor hs]
    exact h
  · obtain ⟨r, -, hread⟩ := Except.bind_eq_ok.mp hread
    cases hread
    exact h
  · cases hread
    exact h

theorem Fitting.step {e : Nat × List UInt8} (h : Fitting a) (hs : readStep a e = some a') :
    Fitting a' := by
  unfold readStep at hs
  split at hs
  · rename_i hread
    cases hs
    exact h.read hread
  · cases hs

/-- Every answer of the repeat loop is packed. -/
theorem sendAnswer_isOk (h : Fitting a) {o : Outbox} (ho : o.buffer.length = bufsize)
    (iid : UInt32) : ∃ o', sendAnswer Outbox.send o (repeatOf (a.record iid)) = .ok o' ∧
      o'.buffer.length = bufsize := by
  unfold repeatOf
  split
  · rename_i hfound
    obtain ⟨acc, hacc⟩ := Option.ne_none_iff_exists'.mp hfound.1
    rw [hacc]
    obtain ⟨p, d, hpack, hlen⟩ := packDatagram_isOk ho (h iid acc hacc)
    exact ⟨_, Except.bind_eq_ok.mpr ⟨_, hpack, rfl⟩, hlen⟩
  · exact ⟨o, rfl, ho⟩

theorem exists_acceptorHandleRepeat_eq_some (h : Fitting a) {buffer : List UInt8}
    (hbuf : buffer.length = bufsize) {m : PaxosRepeat} (hmax : m.toIid ≠ 4294967295) :
    ∃ fuel s, acceptorHandleRepeat fuel a buffer m = .ok (some s) ∧ s.VisitedAll m := by
  have hcalls : ∀ (a' : MemAcceptor) (o : Outbox) iid, m.fromIid ≤ iid → iid ≤ m.toIid →
      a' = a ∧ o.buffer.length = bufsize → ∃ a'' out o', memReceiveRepeat a' iid = .ok (a'', out) ∧
        sendAnswer Outbox.send o out = .ok o' ∧ a'' = a ∧ o'.buffer.length = bufsize := by
    rintro a' o iid - - ⟨rfl, ho⟩
    obtain ⟨o', ho', hlen⟩ := sendAnswer_isOk h ho iid
    exact ⟨a', _, o', memReceiveRepeat_eq a' iid, ho', rfl, hlen⟩
  have hstart : a = a ∧ (Outbox.mk buffer []).buffer.length = bufsize := ⟨rfl, hbuf⟩
  obtain ⟨fuel, s, hs, hvisited, -⟩ := exists_repeatLoop_eq_some
    (P := fun a' (o : Outbox) => a' = a ∧ o.buffer.length = bufsize) hstart hmax hcalls
  exact ⟨fuel, s, hs, hvisited⟩

end Fitting

/-! ## Repeat messages

The two acceptors have the same loop over a counter of 32 bits. It ends where the comparison with
the last id fails, so never if that is the largest number. Over LMDB a call can also end the process
before: the one for the id 0, which comes first if it comes at all. -/

/-- Over LMDB: the loop ends unless the last id is the largest number or the first call reads the
mark. -/
theorem lmdb_repeat_visits_each_id {T : Type} [Mdb T] {r : LoggedLmdb T} (h : r.AllRecorded)
    (m : PaxosRepeat) :
    (∃ fuel s, evacceptorHandleRepeat lmdbReceiveRepeat fuel r.acceptor m = .ok (some s) ∧
      s.VisitedAll m) ↔
    m.toIid ≠ 4294967295 ∧
      (m.fromIid ≠ 0 ∨ r.acceptor.trimIid = 0 ∨ r.acceptor.store.results.get ≠ 0) := by
  refine ⟨fun ⟨_, _, hs, _⟩ => ⟨toIid_ne_of_repeatLoop hs, ?_⟩, fun ⟨hmax, hzero⟩ => ?_⟩
  · by_contra hmark
    push Not at hmark
    obtain ⟨hfrom, ht, hget⟩ := hmark
    have hle : m.fromIid ≤ m.toIid := hfrom ▸ UInt32.zero_le
    obtain ⟨x, hx⟩ := receive_of_repeatLoop hle hs
    rw [hfrom] at hx
    cases (h.receiveRepeat_mark ht hget).symm.trans hx
  · refine exists_evacceptorHandleRepeat_eq_some hmax fun iid hge => h.receiveRepeat_ok ?_
    refine hzero.imp_left fun hne hz => hne ?_
    rw [hz] at hge
    exact UInt32.le_antisymm hge UInt32.zero_le

/-- **Every id of a repeat message is asked for once**, exactly if the last id is not the largest
number: then the loops end, and have asked for the ids from the first to the last one, in order and
each of them once, and for none if the first is above the last. For the acceptor of `evpaxos` this
holds over both backends; over LMDB the first id must not be 0 either, after a trim and if the read
succeeds: its key is that of the trim mark. For the acceptor of `netpaxos` it holds in every state
that datagrams lead to. -/
theorem repeat_visits_each_id (T : Type) [Mdb T] (m : PaxosRepeat) :
    (∀ a : MemAcceptor, (∃ fuel s,
      evacceptorHandleRepeat memReceiveRepeat fuel a m = .ok (some s) ∧ s.VisitedAll m) ↔
        m.toIid ≠ 4294967295) ∧
    (∀ id (r : LoggedLmdb T),
      Runs.Reaches LoggedLmdb.step (fun _ e => e.op.InRange) ⟨LmdbAcceptor.fresh id, []⟩ r →
      ((∃ fuel s, evacceptorHandleRepeat lmdbReceiveRepeat fuel r.acceptor m = .ok (some s) ∧
          s.VisitedAll m) ↔
        m.toIid ≠ 4294967295 ∧
          (m.fromIid ≠ 0 ∨ r.acceptor.trimIid = 0 ∨ r.acceptor.store.results.get ≠ 0))) ∧
    ∀ id a, Runs.Reaches readStep (fun _ _ => True) (memAcceptorNew id) a →
      ∀ buffer : List UInt8, buffer.length = bufsize →
        ((∃ fuel s, acceptorHandleRepeat fuel a buffer m = .ok (some s) ∧ s.VisitedAll m) ↔
          m.toIid ≠ 4294967295) := by
  refine ⟨fun a => ⟨fun ⟨_, _, hs, _⟩ => toIid_ne_of_repeatLoop hs, fun hmax => ?_⟩,
    fun id r hr => ?_, fun id a hr buffer hbuf =>
      ⟨fun ⟨_, _, hs, _⟩ => toIid_ne_of_repeatLoop hs, fun hmax => ?_⟩⟩
  · exact exists_evacceptorHandleRepeat_eq_some hmax fun iid _ => ⟨_, memReceiveRepeat_eq a iid⟩
  · have hrec : r.AllRecorded := hr.invariant (LoggedLmdb.allRecorded_fresh id)
      fun _ hi hok hs => hi.step hok hs
    exact lmdb_repeat_visits_each_id hrec m
  · have hfit : Fitting a := hr.invariant (fitting_memAcceptorNew id) fun _ hi _ hs => hi.step hs
    exact exists_acceptorHandleRepeat_eq_some hfit hbuf hmax

/-- Three ids, of which the second has a vote. -/
theorem repeat_visits_each_id_three :
    ∃ fuel s, evacceptorHandleRepeat memReceiveRepeat fuel
        ((LoggedAcceptor.fresh 1).run
          [.receiveAccept { iid := 6, ballot := 10, value := [7] }]).acceptor ⟨5, 7⟩
      = .ok (some s) ∧ s.VisitedAll ⟨5, 7⟩ :=
  ((repeat_visits_each_id MdbTable ⟨5, 7⟩).1 _).mpr (by decide)

/-- **A repeat message that is never done with**: after the largest id the counter is 0, and goes on
from there. -/
theorem repeat_of_largest_id :
    ¬ (∃ fuel s, evacceptorHandleRepeat memReceiveRepeat fuel (memAcceptorNew 1)
        ⟨4294967295, 4294967295⟩ = .ok (some s)) ∧
    ¬ ∃ fuel s, acceptorHandleRepeat fuel (memAcceptorNew 1) (List.replicate bufsize 0)
        ⟨4294967295, 4294967295⟩ = .ok (some s) := by
  have hforever : ∀ {γ : Type} (send : γ → PaxosAccepted → Except Fault γ) (answers : γ) fuel,
      repeatLoop memReceiveRepeat send fuel (memAcceptorNew 1) answers ⟨4294967295, 4294967295⟩
        = .ok none := by
    intro γ send answers fuel
    refine repeatLoop_eq_none (P := fun a _ => a = memAcceptorNew 1) rfl rfl ?_ fuel
    rintro _ answers iid rfl
    exact ⟨_, _, answers, memReceiveRepeat_eq _ iid, rfl, rfl⟩
  constructor
  · rintro ⟨fuel, s, hs⟩
    cases (hforever _ [] fuel).symm.trans hs
  · rintro ⟨fuel, s, hs⟩
    cases (hforever Outbox.send _ fuel).symm.trans hs

end LibPaxos.NetPaxos
