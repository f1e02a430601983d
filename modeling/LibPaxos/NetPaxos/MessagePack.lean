import LibPaxos.Messages
import LibPaxos.Lib.Buffer
import LibPaxos.Lib.Runs

/-!
# The datagram codec

`message_pack.c`. Fields are written at fixed offsets into a buffer, in network order, and the
length of the datagram is announced by the message type: the size of the C structure, for some types
with the length of the value added. What a receiver gets is as much of the buffer.

A write or read outside the buffer is a `Fault`.

* **`datagram_round_trip`** — a datagram is read back, exactly if there are only zeros behind what
  the announced length covers and the buffer names the type of a client value already.
* **`datagram_truncated`** — a client value is sent without its type, and a long value of a prepare
  is cut off.
-/

namespace LibPaxos.NetPaxos

open Buffer

/-! ## Offsets and sizes -/

/-- `BUFSIZE`. -/
def bufsize : Nat := 128

/-- `sizeof(paxos_message)`: four bytes for the type, and the largest member of the union, with an
`int` and an address of eight bytes for its value. The structures are packed. -/
def sizeofPaxosMessage : Nat := 4 + (4 + 2 + 2 + 2 + (4 + 8))

def msgtypeOffset : Nat := 0
def iidOffset : Nat := 2
def ballotOffset : Nat := 6
def valueBallotOffset : Nat := 8
def aidOffset : Nat := 10
def valueOffset : Nat := 12
def fromOffset : Nat := 2
def toOffset : Nat := 6
def trimOffset : Nat := 2
def stateAidOffset : Nat := 2
def trimIidOffset : Nat := 6

/-! ## Fields -/

/-- An access that has to stay in the buffer. -/
def inBounds {α : Type} : Option α → Except Fault α
  | some x => .ok x
  | none => .error .outOfBounds

/-- `pack_uint32`. -/
def packUint32 (p : List UInt8) (value : UInt32) (offset : Nat) : Except Fault (List UInt8) :=
  inBounds (write p offset (beBytes 4 value.toNat))

/-- `pack_uint16`. -/
def packUint16 (p : List UInt8) (value : UInt16) (offset : Nat) : Except Fault (List UInt8) :=
  inBounds (write p offset (beBytes 2 value.toNat))

/-- `pack_value`. -/
def packValue (p : List UInt8) (v : PaxosValue) (offset : Nat) : Except Fault (List UInt8) := do
  let p ← packUint32 p (UInt32.ofNat v.length) offset
  inBounds (write p (offset + 4) v)

/-- `unpack_uint32`. -/
def unpackUint32 (p : List UInt8) (offset : Nat) : Except Fault UInt32 := do
  let bytes ← inBounds (read p offset 4)
  .ok (UInt32.ofNat (beNat bytes))

/-- `unpack_uint16`. -/
def unpackUint16 (p : List UInt8) (offset : Nat) : Except Fault UInt16 := do
  let bytes ← inBounds (read p offset 2)
  .ok (UInt16.ofNat (beNat bytes))

/-- `unpack_value`. The length is an `int`; if it is not positive, no bytes are read. -/
def unpackValue (p : List UInt8) (offset : Nat) : Except Fault PaxosValue := do
  let len ← unpackUint32 p offset
  if 0 < len.toNat ∧ len.toNat < 2 ^ 31 then inBounds (read p (offset + 4) len.toNat)
  else .ok []

/-! ## Messages

Five messages have one layout and differ in their type and structure only; the others have their
own. `pack_paxos_message` announces a length by the type, which is the place where it can be wrong.
-/

/-- The type as it is written. -/
def typeUint16 (t : PaxosMessageType) : UInt16 := UInt16.ofNat t.code

/-- What the five messages of one layout write. -/
def packFields (p : List UInt8) (t : PaxosMessageType) (iid : UInt32)
    (ballot valueBallot aid : UInt16) (value : PaxosValue) : Except Fault (List UInt8) := do
  let p ← packUint16 p (typeUint16 t) msgtypeOffset
  let p ← packUint32 p iid iidOffset
  let p ← packUint16 p ballot ballotOffset
  let p ← packUint16 p valueBallot valueBallotOffset
  let p ← packUint16 p aid aidOffset
  packValue p value valueOffset

/-- What they read. -/
def unpackFields (p : List UInt8) :
    Except Fault (UInt32 × UInt16 × UInt16 × UInt16 × PaxosValue) := do
  let iid ← unpackUint32 p iidOffset
  let ballot ← unpackUint16 p ballotOffset
  let valueBallot ← unpackUint16 p valueBallotOffset
  let aid ← unpackUint16 p aidOffset
  let value ← unpackValue p valueOffset
  .ok (iid, ballot, valueBallot, aid, value)

/-- `pack_paxos_prepare`. -/
def packPaxosPrepare (p : List UInt8) (v : PaxosPrepare) : Except Fault (List UInt8) :=
  packFields p .prepare v.iid v.ballot v.valueBallot v.aid v.value

/-- `unpack_paxos_prepare`. -/
def unpackPaxosPrepare (p : List UInt8) : Except Fault PaxosPrepare := do
  let (iid, ballot, valueBallot, aid, value) ← unpackFields p
  .ok { iid, ballot, valueBallot, aid, value }

/-- `pack_paxos_promise`. -/
def packPaxosPromise (p : List UInt8) (v : PaxosPromise) : Except Fault (List UInt8) :=
  packFields p .promise v.iid v.ballot v.valueBallot v.aid v.value

/-- `unpack_paxos_promise`. -/
def unpackPaxosPromise (p : List UInt8) : Except Fault PaxosPromise := do
  let (iid, ballot, valueBallot, aid, value) ← unpackFields p
  .ok { iid, ballot, valueBallot, aid, value }

/-- `pack_paxos_accept`. -/
def packPaxosAccept (p : List UInt8) (v : PaxosAccept) : Except Fault (List UInt8) :=
  packFields p .accept v.iid v.ballot v.valueBallot v.aid v.value

/-- `unpack_paxos_accept`. -/
def unpackPaxosAccept (p : List UInt8) : Except Fault PaxosAccept := do
  let (iid, ballot, valueBallot, aid, value) ← unpackFields p
  .ok { iid, ballot, valueBallot, aid, value }

/-- `pack_paxos_accepted`. -/
def packPaxosAccepted (p : List UInt8) (v : PaxosAccepted) : Except Fault (List UInt8) :=
  packFields p .accepted v.iid v.ballot v.valueBallot v.aid v.value

/-- `unpack_paxos_accepted`. -/
def unpackPaxosAccepted (p : List UInt8) : Except Fault PaxosAccepted := do
  let (iid, ballot, valueBallot, aid, value) ← unpackFields p
  .ok { iid, ballot, valueBallot, aid, value }

/-- `pack_paxos_preempted`. -/
def packPaxosPreempted (p : List UInt8) (v : PaxosPreempted) : Except Fault (List UInt8) :=
  packFields p .preempted v.iid v.ballot v.valueBallot v.aid v.value

/-- `unpack_paxos_preempted`. -/
def unpackPaxosPreempted (p : List UInt8) : Except Fault PaxosPreempted := do
  let (iid, ballot, valueBallot, aid, value) ← unpackFields p
  .ok { iid, ballot, valueBallot, aid, value }

/-- `pack_paxos_repeat`. -/
def packPaxosRepeat (p : List UInt8) (v : PaxosRepeat) : Except Fault (List UInt8) := do
  let p ← packUint16 p (typeUint16 .repeated) msgtypeOffset
  let p ← packUint32 p v.fromIid fromOffset
  packUint32 p v.toIid toOffset

/-- `unpack_paxos_repeat`. -/
def unpackPaxosRepeat (p : List UInt8) : Except Fault PaxosRepeat := do
  let fromIid ← unpackUint32 p fromOffset
  let toIid ← unpackUint32 p toOffset
  .ok { fromIid, toIid }

/-- `pack_paxos_trim`. -/
def packPaxosTrim (p : List UInt8) (v : PaxosTrim) : Except Fault (List UInt8) := do
  let p ← packUint16 p (typeUint16 .trim) msgtypeOffset
  packUint32 p v.iid trimOffset

/-- `unpack_paxos_trim`. -/
def unpackPaxosTrim (p : List UInt8) : Except Fault PaxosTrim := do
  let iid ← unpackUint32 p trimOffset
  .ok { iid }

/-- `pack_paxos_acceptor_state`. -/
def packPaxosAcceptorState (p : List UInt8) (v : PaxosAcceptorState) :
    Except Fault (List UInt8) := do
  let p ← packUint16 p (typeUint16 .acceptorState) msgtypeOffset
  let p ← packUint32 p v.aid stateAidOffset
  packUint32 p v.trimIid trimIidOffset

/-- `unpack_paxos_acceptor_state`. -/
def unpackPaxosAcceptorState (p : List UInt8) : Except Fault PaxosAcceptorState := do
  let aid ← unpackUint32 p stateAidOffset
  let trimIid ← unpackUint32 p trimIidOffset
  .ok { aid, trimIid }

/-- `pack_paxos_client_value`, which is the one that does not write its type. -/
def packPaxosClientValue (p : List UInt8) (v : PaxosClientValue) : Except Fault (List UInt8) :=
  packValue p v.value 2

/-- `unpack_paxos_client_value`. -/
def unpackPaxosClientValue (p : List UInt8) : Except Fault PaxosClientValue := do
  let value ← unpackValue p 2
  .ok { value }

/-- `pack_paxos_message`: the buffer, and the length that is announced. -/
def packPaxosMessage (p : List UInt8) : WireMessage → Except Fault (List UInt8 × Nat)
  | .prepare v => return (← packPaxosPrepare p v, sizeofPaxosMessage)
  | .promise v => return (← packPaxosPromise p v, sizeofPaxosMessage + v.value.length)
  | .accept v => return (← packPaxosAccept p v, sizeofPaxosMessage + v.value.length)
  | .accepted v => return (← packPaxosAccepted p v, sizeofPaxosMessage + v.value.length)
  | .preempted v => return (← packPaxosPreempted p v, sizeofPaxosMessage)
  | .repeated v => return (← packPaxosRepeat p v, sizeofPaxosMessage)
  | .trim v => return (← packPaxosTrim p v, sizeofPaxosMessage)
  | .state v => return (← packPaxosAcceptorState p v, sizeofPaxosMessage)
  | .clientValue v => return (← packPaxosClientValue p v, sizeofPaxosMessage)

/-- The cases of the `switch` of `unpack_paxos_message`. -/
def unpackCase (p : List UInt8) : PaxosMessageType → Except Fault WireMessage
  | .prepare => return .prepare (← unpackPaxosPrepare p)
  | .promise => return .promise (← unpackPaxosPromise p)
  | .accept => return .accept (← unpackPaxosAccept p)
  | .accepted => return .accepted (← unpackPaxosAccepted p)
  | .preempted => return .preempted (← unpackPaxosPreempted p)
  | .repeated => return .repeated (← unpackPaxosRepeat p)
  | .trim => return .trim (← unpackPaxosTrim p)
  | .acceptorState => return .state (← unpackPaxosAcceptorState p)
  | .clientValue => return .clientValue (← unpackPaxosClientValue p)

/-- `unpack_paxos_message`. There is no message if the type is none of the nine. -/
def unpackPaxosMessage (p : List UInt8) : Except Fault (Option WireMessage) := do
  let type ← unpackUint16 p msgtypeOffset
  match PaxosMessageType.ofCode type.toNat with
  | some t => return some (← unpackCase p t)
  | none => return none

/-- The receive buffer: as much of the sender's buffer as was announced, the rest zero. -/
def received (p : List UInt8) (msglen : Nat) : List UInt8 :=
  overlay (p.take (min msglen bufsize)) (List.replicate bufsize 0)

/-- A datagram from the sender's buffer to the message read. -/
def sendAndReceive (buffer : List UInt8) (m : WireMessage) : Except Fault (Option WireMessage) := do
  let (p, msglen) ← packPaxosMessage buffer m
  unpackPaxosMessage (received p msglen)

/-! ## The encoding -/

/-- What is written to the front of a buffer. A client value leaves its first two bytes as they
are. -/
def encoding (buffer : List UInt8) : WireMessage → List UInt8
  | .prepare v => fields .prepare v.iid v.ballot v.valueBallot v.aid v.value
  | .promise v => fields .promise v.iid v.ballot v.valueBallot v.aid v.value
  | .accept v => fields .accept v.iid v.ballot v.valueBallot v.aid v.value
  | .accepted v => fields .accepted v.iid v.ballot v.valueBallot v.aid v.value
  | .preempted v => fields .preempted v.iid v.ballot v.valueBallot v.aid v.value
  | .repeated v => tag .repeated ++ (beBytes 4 v.fromIid.toNat ++ beBytes 4 v.toIid.toNat)
  | .trim v => tag .trim ++ beBytes 4 v.iid.toNat
  | .state v => tag .acceptorState ++ (beBytes 4 v.aid.toNat ++ beBytes 4 v.trimIid.toNat)
  | .clientValue v => buffer.take 2 ++ valueBytes v.value
where
  tag (t : PaxosMessageType) : List UInt8 := beBytes 2 t.code
  valueBytes (v : PaxosValue) : List UInt8 := beBytes 4 v.length ++ v
  fields (t : PaxosMessageType) (iid : UInt32) (ballot valueBallot aid : UInt16)
      (value : PaxosValue) : List UInt8 :=
    tag t ++ (beBytes 4 iid.toNat ++ (beBytes 2 ballot.toNat ++ (beBytes 2 valueBallot.toNat ++
      (beBytes 2 aid.toNat ++ valueBytes value))))

@[simp] theorem length_tag (t : PaxosMessageType) : (encoding.tag t).length = 2 :=
  length_beBytes 2 t.code

/-! ## Writing

Each call writes behind the fields written so far. So a packed message is an initial part of the
buffer with its fields one behind the other. -/

section Pack

variable {xs p : List UInt8} {offset : Nat}

theorem packUint32_overlay (v : UInt32) (ho : xs.length = offset) (h : offset + 4 ≤ p.length) :
    packUint32 (overlay xs p) v offset = .ok (overlay (xs ++ beBytes 4 v.toNat) p) := by
  unfold packUint32
  rw [write_overlay ho (by rw [length_beBytes]; exact h)]
  rfl

theorem packUint16_overlay (v : UInt16) (ho : xs.length = offset) (h : offset + 2 ≤ p.length) :
    packUint16 (overlay xs p) v offset = .ok (overlay (xs ++ beBytes 2 v.toNat) p) := by
  unfold packUint16
  rw [write_overlay ho (by rw [length_beBytes]; exact h)]
  rfl

theorem packValue_overlay {v : PaxosValue} (ho : xs.length = offset)
    (h : offset + (4 + v.length) ≤ p.length) (hv : v.length < 2 ^ 32) :
    packValue (overlay xs p) v offset = .ok (overlay (xs ++ encoding.valueBytes v) p) := by
  have hlen : (UInt32.ofNat v.length).toNat = v.length := UInt32.toNat_ofNat_of_lt' hv
  unfold packValue
  refine Except.bind_eq_ok.mpr ⟨_, packUint32_overlay _ ho (by omega), ?_⟩
  rw [hlen, write_overlay (by rw [List.length_append, length_beBytes, ho]) (by omega),
    List.append_assoc]
  rfl

theorem toNat_typeUint16 (t : PaxosMessageType) : (typeUint16 t).toNat = t.code := by
  cases t <;> rfl

theorem packType_overlay (t : PaxosMessageType) (h : 2 ≤ p.length) :
    packUint16 p (typeUint16 t) msgtypeOffset = .ok (overlay (encoding.tag t) p) := by
  have hpack := packUint16_overlay (typeUint16 t) (List.length_nil (α := UInt8))
    (Nat.le_trans (Nat.le_of_eq (Nat.zero_add 2)) h)
  rw [overlay_nil, toNat_typeUint16, List.nil_append] at hpack
  exact hpack

/-- Two numbers behind the type. -/
theorem packTwo_eq (t : PaxosMessageType) (a b : UInt32) (h : 10 ≤ p.length) :
    (do
      let p ← packUint16 p (typeUint16 t) msgtypeOffset
      let p ← packUint32 p a 2
      packUint32 p b 6)
      = .ok (overlay (encoding.tag t ++ (beBytes 4 a.toNat ++ beBytes 4 b.toNat)) p) := by
  refine Except.bind_eq_ok.mpr ⟨_, packType_overlay t (by omega), ?_⟩
  refine Except.bind_eq_ok.mpr ⟨_, packUint32_overlay a (length_tag t) (by omega), ?_⟩
  rw [packUint32_overlay b (by simp) (by omega), List.append_assoc]

/-- Each field is written behind the one before. -/
theorem packFields_eq (t : PaxosMessageType) (iid : UInt32) (ballot valueBallot aid : UInt16)
    {value : PaxosValue} (h : 16 + value.length ≤ p.length) (hv : value.length < 2 ^ 32) :
    packFields p t iid ballot valueBallot aid value
      = .ok (overlay (encoding.fields t iid ballot valueBallot aid value) p) := by
  unfold packFields
  refine Except.bind_eq_ok.mpr ⟨_, packType_overlay t (by omega), ?_⟩
  refine Except.bind_eq_ok.mpr
    ⟨_, packUint32_overlay _ (length_beBytes _ _) (by unfold iidOffset; omega), ?_⟩
  refine Except.bind_eq_ok.mpr
    ⟨_, packUint16_overlay _ (by simp [ballotOffset]) (by unfold ballotOffset; omega), ?_⟩
  refine Except.bind_eq_ok.mpr
    ⟨_, packUint16_overlay _ (by simp [valueBallotOffset]) (by unfold valueBallotOffset; omega), ?_⟩
  refine Except.bind_eq_ok.mpr
    ⟨_, packUint16_overlay _ (by simp [aidOffset]) (by unfold aidOffset; omega), ?_⟩
  rw [packValue_overlay (by simp [valueOffset]) (by unfold valueOffset; omega) hv]
  simp only [List.append_assoc, encoding.fields]

end Pack

/-! ## Reading

Reading goes over the same fields by their offsets. A field that is not complete in the buffer is a
fault. -/

section Unpack

variable {p : List UInt8} {offset : Nat}

theorem unpackUint32_eq {v : UInt32} (h : read p offset 4 = some (beBytes 4 v.toNat)) :
    unpackUint32 p offset = .ok v := by
  unfold unpackUint32
  rw [h]
  show Except.ok (UInt32.ofNat (beNat (beBytes 4 v.toNat))) = _
  rw [beNat_beBytes v.toNat_lt, UInt32.ofNat_toNat]

theorem unpackUint16_eq {v : UInt16} (h : read p offset 2 = some (beBytes 2 v.toNat)) :
    unpackUint16 p offset = .ok v := by
  unfold unpackUint16
  rw [h]
  show Except.ok (UInt16.ofNat (beNat (beBytes 2 v.toNat))) = _
  rw [beNat_beBytes v.toNat_lt, UInt16.ofNat_toNat]

theorem unpackValue_eq {v : PaxosValue} (hv : v.length < 2 ^ 31)
    (hlen : read p offset 4 = some (beBytes 4 v.length))
    (h : read p (offset + 4) v.length = some v) : unpackValue p offset = .ok v := by
  have hofNat : (UInt32.ofNat v.length).toNat = v.length :=
    UInt32.toNat_ofNat_of_lt' (Nat.lt_trans hv (by decide))
  unfold unpackValue
  refine Except.bind_eq_ok.mpr ⟨_, unpackUint32_eq (v := UInt32.ofNat v.length) ?_, ?_⟩
  · rw [hofNat]
    exact hlen
  · rw [hofNat, h]
    split
    · rfl
    · have hnil : v.length = 0 := by omega
      rw [List.length_eq_zero_iff.mp hnil]

/-- The offsets of the decoder are those of the encoder. -/
theorem unpackFields_eq (t : PaxosMessageType) (iid : UInt32) (ballot valueBallot aid : UInt16)
    {value : PaxosValue} (hv : value.length < 2 ^ 31) (tail : List UInt8) :
    unpackFields (encoding.fields t iid ballot valueBallot aid value ++ tail)
      = .ok (iid, ballot, valueBallot, aid, value) := by
  simp only [encoding.fields, encoding.valueBytes, List.append_assoc]
  unfold unpackFields
  refine Except.bind_eq_ok.mpr ⟨iid, unpackUint32_eq ?_, ?_⟩
  · simp [iidOffset, read_append_of_le, read_append]
  refine Except.bind_eq_ok.mpr ⟨ballot, unpackUint16_eq ?_, ?_⟩
  · simp [ballotOffset, read_append_of_le, read_append]
  refine Except.bind_eq_ok.mpr ⟨valueBallot, unpackUint16_eq ?_, ?_⟩
  · simp [valueBallotOffset, read_append_of_le, read_append]
  refine Except.bind_eq_ok.mpr ⟨aid, unpackUint16_eq ?_, ?_⟩
  · simp [aidOffset, read_append_of_le, read_append]
  refine Except.bind_eq_ok.mpr ⟨value, unpackValue_eq hv ?_ ?_, rfl⟩
  · simp [valueOffset, read_append_of_le, read_append]
  · simp [valueOffset, read_append_of_le, read_append]

theorem unpackTwo_eq (t : PaxosMessageType) (a b : UInt32) (tail : List UInt8) :
    unpackUint32 (encoding.tag t ++ (beBytes 4 a.toNat ++ (beBytes 4 b.toNat ++ tail))) 2 = .ok a ∧
      unpackUint32 (encoding.tag t ++ (beBytes 4 a.toNat ++ (beBytes 4 b.toNat ++ tail))) 6
        = .ok b := by
  refine ⟨unpackUint32_eq ?_, unpackUint32_eq ?_⟩
  · simp [read_append_of_le, read_append]
  · simp [read_append_of_le, read_append]

/-- The type selects its case. -/
theorem unpackPaxosMessage_of_case {t : PaxosMessageType} {m : WireMessage} (tail : List UInt8)
    (hm : unpackCase (encoding.tag t ++ tail) t = .ok m) :
    unpackPaxosMessage (encoding.tag t ++ tail) = .ok (some m) := by
  have htype : unpackUint16 (encoding.tag t ++ tail) msgtypeOffset = .ok (typeUint16 t) := by
    refine unpackUint16_eq ?_
    rw [toNat_typeUint16]
    exact read_append (length_beBytes _ _)
  unfold unpackPaxosMessage
  refine Except.bind_eq_ok.mpr ⟨_, htype, ?_⟩
  rw [toNat_typeUint16, PaxosMessageType.ofCode_code]
  exact Except.bind_eq_ok.mpr ⟨m, hm, rfl⟩

/-- The five messages of one layout differ in what they make of the fields. -/
theorem unpackPaxosMessage_fields (t : PaxosMessageType) (iid : UInt32)
    (ballot valueBallot aid : UInt16) {value : PaxosValue} (hv : value.length < 2 ^ 31)
    (tail : List UInt8) {m : WireMessage}
    (hcase : ∀ p, unpackFields p = .ok (iid, ballot, valueBallot, aid, value) →
      unpackCase p t = .ok m) :
    unpackPaxosMessage (encoding.fields t iid ballot valueBallot aid value ++ tail)
      = .ok (some m) := by
  have hm := hcase _ (unpackFields_eq t iid ballot valueBallot aid hv tail)
  rw [encoding.fields, List.append_assoc] at hm ⊢
  exact unpackPaxosMessage_of_case _ hm

end Unpack

/-! ## Datagrams

Packing writes `encoding` to the front of the buffer and announces a length; the receiver gets so
much of it, in a buffer of zeros. What it reads is what was written, as far as the announced length
covers it. -/

/-- The length that a message announces. -/
def announced : WireMessage → Nat
  | .promise v => sizeofPaxosMessage + v.value.length
  | .accept v => sizeofPaxosMessage + v.value.length
  | .accepted v => sizeofPaxosMessage + v.value.length
  | .prepare _ | .preempted _ | .repeated _ | .trim _ | .state _ | .clientValue _ =>
    sizeofPaxosMessage

theorem length_fields (t : PaxosMessageType) (iid : UInt32) (ballot valueBallot aid : UInt16)
    (value : PaxosValue) :
    (encoding.fields t iid ballot valueBallot aid value).length = 16 + value.length := by
  simp [encoding.fields, encoding.valueBytes]
  omega

/-- The encoder writes the encoding over the front of the buffer. -/
theorem packPaxosMessage_eq {buffer : List UInt8} {m : WireMessage} (hbuf : buffer.length = bufsize)
    (hfit : (encoding buffer m).length ≤ bufsize) :
    packPaxosMessage buffer m = .ok (overlay (encoding buffer m) buffer, announced m) := by
  have hsmall : bufsize < 2 ^ 32 := by decide
  have hroom : 10 ≤ buffer.length := by
    rw [hbuf]
    decide
  have hfields : ∀ {t iid ballot valueBallot aid value},
      (encoding.fields t iid ballot valueBallot aid value).length ≤ bufsize →
      packFields buffer t iid ballot valueBallot aid value
        = .ok (overlay (encoding.fields t iid ballot valueBallot aid value) buffer) := by
    intro t iid ballot valueBallot aid value hle
    rw [length_fields] at hle
    exact packFields_eq t iid ballot valueBallot aid (by omega) (by omega)
  cases m with
  | prepare v => exact Except.bind_eq_ok.mpr ⟨_, hfields hfit, rfl⟩
  | promise v => exact Except.bind_eq_ok.mpr ⟨_, hfields hfit, rfl⟩
  | accept v => exact Except.bind_eq_ok.mpr ⟨_, hfields hfit, rfl⟩
  | accepted v => exact Except.bind_eq_ok.mpr ⟨_, hfields hfit, rfl⟩
  | preempted v => exact Except.bind_eq_ok.mpr ⟨_, hfields hfit, rfl⟩
  | repeated v => exact Except.bind_eq_ok.mpr ⟨_, packTwo_eq .repeated _ _ hroom, rfl⟩
  | trim v =>
    refine Except.bind_eq_ok.mpr ⟨overlay (encoding buffer (.trim v)) buffer, ?_, rfl⟩
    refine Except.bind_eq_ok.mpr ⟨_, packType_overlay .trim (by omega), ?_⟩
    exact packUint32_overlay _ (length_beBytes _ _) (by unfold trimOffset; omega)
  | state v => exact Except.bind_eq_ok.mpr ⟨_, packTwo_eq .acceptorState _ _ hroom, rfl⟩
  | clientValue v =>
    -- the first two bytes stay as they are
    have htake : (buffer.take 2).length = 2 := List.length_take_of_le (by omega)
    have hlen : 2 + (4 + v.value.length) ≤ buffer.length := by
      rw [encoding, encoding.valueBytes, List.length_append, List.length_append, htake,
        length_beBytes] at hfit
      omega
    have hpack := packValue_overlay htake hlen (by omega)
    rw [overlay_take] at hpack
    exact Except.bind_eq_ok.mpr ⟨_, hpack, rfl⟩

/-- **The decoder reads what was written**, whatever follows. -/
theorem unpackPaxosMessage_encoding {buffer : List UInt8} {m : WireMessage}
    (hv : m.value.length < 2 ^ 31)
    (htag : ∀ v, m = .clientValue v → buffer.take 2 = encoding.tag .clientValue)
    (tail : List UInt8) : unpackPaxosMessage (encoding buffer m ++ tail) = .ok (some m) := by
  cases m with
  -- five messages of one layout
  | prepare v =>
    exact unpackPaxosMessage_fields _ _ _ _ _ hv tail fun p hp =>
      Except.bind_eq_ok.mpr ⟨v, Except.bind_eq_ok.mpr ⟨_, hp, rfl⟩, rfl⟩
  | promise v =>
    exact unpackPaxosMessage_fields _ _ _ _ _ hv tail fun p hp =>
      Except.bind_eq_ok.mpr ⟨v, Except.bind_eq_ok.mpr ⟨_, hp, rfl⟩, rfl⟩
  | accept v =>
    exact unpackPaxosMessage_fields _ _ _ _ _ hv tail fun p hp =>
      Except.bind_eq_ok.mpr ⟨v, Except.bind_eq_ok.mpr ⟨_, hp, rfl⟩, rfl⟩
  | accepted v =>
    exact unpackPaxosMessage_fields _ _ _ _ _ hv tail fun p hp =>
      Except.bind_eq_ok.mpr ⟨v, Except.bind_eq_ok.mpr ⟨_, hp, rfl⟩, rfl⟩
  | preempted v =>
    exact unpackPaxosMessage_fields _ _ _ _ _ hv tail fun p hp =>
      Except.bind_eq_ok.mpr ⟨v, Except.bind_eq_ok.mpr ⟨_, hp, rfl⟩, rfl⟩
  -- two numbers, or one
  | repeated v =>
    simp only [encoding, List.append_assoc]
    obtain ⟨h₁, h₂⟩ := unpackTwo_eq .repeated v.fromIid v.toIid tail
    refine unpackPaxosMessage_of_case _ (Except.bind_eq_ok.mpr ⟨v, ?_, rfl⟩)
    exact Except.bind_eq_ok.mpr ⟨_, h₁, Except.bind_eq_ok.mpr ⟨_, h₂, rfl⟩⟩
  | trim v =>
    simp only [encoding, List.append_assoc]
    refine unpackPaxosMessage_of_case _ (Except.bind_eq_ok.mpr ⟨v, ?_, rfl⟩)
    refine Except.bind_eq_ok.mpr ⟨v.iid, unpackUint32_eq ?_, rfl⟩
    simp [trimOffset, read_append_of_le, read_append]
  | state v =>
    simp only [encoding, List.append_assoc]
    obtain ⟨h₁, h₂⟩ := unpackTwo_eq .acceptorState v.aid v.trimIid tail
    refine unpackPaxosMessage_of_case _ (Except.bind_eq_ok.mpr ⟨v, ?_, rfl⟩)
    exact Except.bind_eq_ok.mpr ⟨_, h₁, Except.bind_eq_ok.mpr ⟨_, h₂, rfl⟩⟩
  -- a client value has the type that the buffer held before
  | clientValue v =>
    simp only [encoding, htag v rfl, encoding.valueBytes, List.append_assoc]
    refine unpackPaxosMessage_of_case _ (Except.bind_eq_ok.mpr ⟨v, ?_, rfl⟩)
    refine Except.bind_eq_ok.mpr ⟨v.value, unpackValue_eq hv ?_ ?_, rfl⟩
    · simp [read_append_of_le, read_append]
    · simp [read_append_of_le, read_append]

theorem length_value_le {buffer : List UInt8} (m : WireMessage) :
    m.value.length ≤ (encoding buffer m).length := by
  cases m with
  | prepare v | promise v | accept v | accepted v | preempted v =>
    rw [encoding, length_fields]
    exact Nat.le_add_left _ _
  | repeated v | trim v | state v => exact Nat.zero_le _
  | clientValue v =>
    rw [encoding, encoding.valueBytes, List.length_append, List.length_append]
    show v.value.length ≤ _
    omega

/-! ## What arrives

The announced length always covers the fields in front of the value. What it does not cover of the
value is read from the zeros of the receive buffer, so the value arrives cut off and filled up. -/

/-- The message as it arrives, if its type does. -/
def arrived : WireMessage → WireMessage
  | .prepare v => .prepare { v with value := cutOff 0 10 v.value }
  | .preempted v => .preempted { v with value := cutOff 0 10 v.value }
  | .clientValue v => .clientValue { v with value := cutOff 0 20 v.value }
  | .promise v => .promise v
  | .accept v => .accept v
  | .accepted v => .accepted v
  | .repeated v => .repeated v
  | .trim v => .trim v
  | .state v => .state v

/-- The five messages of one layout have their value behind 16 bytes, which depend on its length
only. -/
theorem exists_fields_eq_append (t : PaxosMessageType) (iid : UInt32)
    (ballot valueBallot aid : UInt16) (len : Nat) : ∃ front : List UInt8, front.length = 16 ∧
      ∀ v : PaxosValue, v.length = len →
        encoding.fields t iid ballot valueBallot aid v = front ++ v := by
  refine ⟨encoding.tag t ++ (beBytes 4 iid.toNat ++ (beBytes 2 ballot.toNat ++
    (beBytes 2 valueBallot.toNat ++ (beBytes 2 aid.toNat ++ beBytes 4 len)))), by simp, ?_⟩
  rintro v rfl
  simp only [encoding.fields, encoding.valueBytes, List.append_assoc]

theorem length_take_two {buffer : List UInt8} (hbuf : buffer.length = bufsize) :
    (buffer.take 2).length = 2 := by
  rw [List.length_take_of_le]
  rw [hbuf]
  decide

/-- The encodings of a message and of what arrives of it differ in the value only. -/
theorem exists_encoding_eq_append {buffer : List UInt8} (hbuf : buffer.length = bufsize)
    (m : WireMessage) : ∃ front : List UInt8, front.length ≤ announced m ∧
      encoding buffer m = front ++ m.value ∧
      encoding buffer (arrived m) = front ++ cutOff 0 (announced m - front.length) m.value := by
  have hsize : sizeofPaxosMessage = 26 := rfl
  cases m with
  -- a prepare and a preempted message do not announce their value
  | prepare v | preempted v =>
    obtain ⟨front, hfront, hfields⟩ :=
      exists_fields_eq_append _ v.iid v.ballot v.valueBallot v.aid v.value.length
    refine ⟨front, by rw [hfront, announced, hsize]; omega, hfields v.value rfl, ?_⟩
    rw [hfront]
    exact hfields _ length_cutOff
  | promise v | accept v | accepted v =>
    obtain ⟨front, hfront, hfields⟩ :=
      exists_fields_eq_append _ v.iid v.ballot v.valueBallot v.aid v.value.length
    refine ⟨front, by rw [hfront, announced, hsize]; omega, hfields v.value rfl, ?_⟩
    rw [hfront, cutOff_of_le]
    · exact hfields v.value rfl
    · show v.value.length ≤ sizeofPaxosMessage + v.value.length - 16
      omega
  | repeated v | trim v | state v =>
    refine ⟨_, ?_, (List.append_nil _).symm, (List.append_nil _).symm⟩
    simp [encoding, announced, hsize]
  -- a client value has six bytes in front of its own, where the others have 16
  | clientValue v =>
    have hfront : (buffer.take 2 ++ beBytes 4 v.value.length).length = 6 := by
      rw [List.length_append, length_take_two hbuf, length_beBytes]
    refine ⟨_, by rw [hfront, announced, hsize]; omega, (List.append_assoc _ _ _).symm, ?_⟩
    rw [hfront]
    show buffer.take 2 ++ (beBytes 4 (cutOff 0 20 v.value).length ++ cutOff 0 20 v.value) = _
    rw [length_cutOff, List.append_assoc]
    rfl

/-- The receive buffer holds the encoding of what arrives. -/
theorem exists_received_eq {buffer : List UInt8} {m : WireMessage} (hbuf : buffer.length = bufsize)
    (hfit : (encoding buffer m).length ≤ bufsize) :
    ∃ tail, received (overlay (encoding buffer m) buffer) (announced m)
      = encoding buffer (arrived m) ++ tail := by
  obtain ⟨front, hfront, hm, hcut⟩ := exists_encoding_eq_append hbuf m
  rw [hm, List.length_append] at hfit
  obtain ⟨tail, htail⟩ := exists_overlay_take (0 : UInt8)
    (buffer.drop (encoding buffer m).length) hfront hfit
  refine ⟨tail, ?_⟩
  rw [hcut, List.append_assoc, ← htail, ← hm]
  rfl

/-- **A message arrives** up to the part of its value that is left out, if its type is written. -/
theorem sendAndReceive_eq {buffer : List UInt8} {m : WireMessage} (hbuf : buffer.length = bufsize)
    (hfit : (encoding buffer m).length ≤ bufsize)
    (htag : ∀ v, m = .clientValue v → buffer.take 2 = encoding.tag .clientValue) :
    sendAndReceive buffer m = .ok (some (arrived m)) := by
  obtain ⟨tail, htail⟩ := exists_received_eq hbuf hfit
  have hlen : (arrived m).value.length = m.value.length := by
    cases m with
    | prepare v | preempted v | clientValue v => exact length_cutOff
    | promise v | accept v | accepted v | repeated v | trim v | state v => rfl
  have hv : (arrived m).value.length < 2 ^ 31 := by
    rw [hlen]
    exact Nat.lt_of_le_of_lt (Nat.le_trans (length_value_le m) hfit) (by decide)
  have htag' : ∀ v, arrived m = .clientValue v → buffer.take 2 = encoding.tag .clientValue := by
    intro v hm
    cases m with
    | clientValue v' => exact htag v' rfl
    | prepare v | promise v | accept v | accepted v | preempted v | repeated v | trim v
    | state v => cases hm
  refine Except.bind_eq_ok.mpr ⟨_, packPaxosMessage_eq hbuf hfit, ?_⟩
  show unpackPaxosMessage (received (overlay (encoding buffer m) buffer) (announced m)) = _
  rw [htail]
  exact unpackPaxosMessage_encoding hv htag' tail

/-! ### The type of a client value

It is the one that is not written: the two bytes that were in the buffer are read as the type. -/

theorem inBounds_eq_ok {α : Type} {x : Option α} {y : α} (h : inBounds x = .ok y) : x = some y := by
  cases x with
  | none => cases h
  | some x =>
    cases h
    rfl

theorem type_of_unpackCase {p : List UInt8} {t : PaxosMessageType} {m : WireMessage}
    (h : unpackCase p t = .ok m) : m.type = t := by
  cases t with
  | prepare | promise | accept | accepted | preempted | repeated | trim | acceptorState
  | clientValue =>
    obtain ⟨v, -, h⟩ := Except.bind_eq_ok.mp h
    cases h
    rfl

/-- The number read as the type of a message is the one of its type. -/
theorem type_of_unpack {p : List UInt8} {m : WireMessage}
    (h : unpackPaxosMessage p = .ok (some m)) :
    ∃ bytes, read p msgtypeOffset 2 = some bytes ∧ beNat bytes = m.type.code := by
  obtain ⟨type, htype, h⟩ := Except.bind_eq_ok.mp h
  obtain ⟨bytes, hbytes, htype⟩ := Except.bind_eq_ok.mp htype
  have hread := inBounds_eq_ok hbytes
  obtain ⟨hroom, hlen⟩ := read_eq_some.mp hread
  have hlt : beNat bytes < 2 ^ 16 := by
    have htwo : bytes.length = 2 := by
      rw [hlen, List.length_take, List.length_drop]
      omega
    have hbytes := beNat_lt bytes
    rw [htwo] at hbytes
    exact hbytes
  cases htype
  rw [UInt16.toNat_ofNat_of_lt' hlt] at h
  refine ⟨bytes, hread, ?_⟩
  cases hcode : PaxosMessageType.ofCode (beNat bytes) with
  | none =>
    rw [hcode] at h
    cases h
  | some t =>
    rw [hcode] at h
    obtain ⟨m', hm', h⟩ := Except.bind_eq_ok.mp h
    cases h
    rw [type_of_unpackCase hm', PaxosMessageType.eq_code_of_ofCode hcode]

/-- The message is read back: the announced length covers its value, up to zeros, and a client value
finds its type in the buffer. -/
def ReadBack (buffer : List UInt8) : WireMessage → Prop
  | .prepare v => ∀ b ∈ v.value.drop 10, b = 0
  | .preempted v => ∀ b ∈ v.value.drop 10, b = 0
  | .clientValue v => buffer.take 2 = encoding.tag .clientValue ∧ ∀ b ∈ v.value.drop 20, b = 0
  | .promise _ | .accept _ | .accepted _ | .repeated _ | .trim _ | .state _ => True

/-- What the receiver takes for the type of a client value is what the buffer began with. -/
theorem tag_of_sendAndReceive {buffer : List UInt8} {v : PaxosClientValue}
    (hbuf : buffer.length = bufsize) (hfit : (encoding buffer (.clientValue v)).length ≤ bufsize)
    (h : sendAndReceive buffer (.clientValue v) = .ok (some (.clientValue v))) :
    buffer.take 2 = encoding.tag .clientValue := by
  unfold sendAndReceive at h
  rw [packPaxosMessage_eq hbuf hfit] at h
  have hread : unpackPaxosMessage (received (overlay (encoding buffer (.clientValue v)) buffer)
      (announced (.clientValue v))) = .ok (some (.clientValue v)) := h
  obtain ⟨tail, htail⟩ := exists_received_eq hbuf hfit
  rw [htail, arrived, encoding, List.append_assoc] at hread
  obtain ⟨bytes, hbytes, hcode⟩ := type_of_unpack hread
  have hfront : read (buffer.take 2 ++ (encoding.valueBytes (cutOff 0 20 v.value) ++ tail))
      msgtypeOffset 2 = some (buffer.take 2) := read_append (length_take_two hbuf)
  obtain rfl := Option.some.inj (hfront.symm.trans hbytes)
  rw [← beBytes_beNat (buffer.take 2), hcode, length_take_two hbuf]
  rfl

/-- **Datagrams are read back.** Whatever the sender's buffer held before, a message whose encoding
fits into the buffer is read back from as much of it as was announced, exactly if there are only
zeros in what is left out: behind the tenth byte of the value of a prepare or preempted message, and
behind the twentieth of a client value. A client value must also find its type in the buffer. -/
theorem datagram_round_trip (m : WireMessage) (buffer : List UInt8) (hbuf : buffer.length = bufsize)
    (hfit : (encoding buffer m).length ≤ bufsize) :
    sendAndReceive buffer m = .ok (some m) ↔ ReadBack buffer m := by
  cases m with
  | prepare v | preempted v =>
    rw [sendAndReceive_eq hbuf hfit (by rintro _ ⟨⟩), ReadBack, ← cutOff_eq_self_iff]
    refine ⟨fun h => ?_, fun h => by rw [arrived, h]⟩
    exact congrArg WireMessage.value (Option.some.inj (Except.ok.inj h))
  | promise v | accept v | accepted v | repeated v | trim v | state v =>
    exact iff_of_true (sendAndReceive_eq hbuf hfit (by rintro _ ⟨⟩)) trivial
  | clientValue v =>
    rw [ReadBack, ← cutOff_eq_self_iff]
    refine ⟨fun h => ?_, fun ⟨htag, hvalue⟩ => ?_⟩
    · have htag := tag_of_sendAndReceive hbuf hfit h
      rw [sendAndReceive_eq hbuf hfit fun _ _ => htag] at h
      exact ⟨htag, congrArg WireMessage.value (Option.some.inj (Except.ok.inj h))⟩
    · rw [sendAndReceive_eq hbuf hfit fun _ _ => htag, arrived, hvalue]

/-- An accept with a value of eleven bytes, over a buffer that was used before. -/
theorem datagram_round_trip_accept :
    sendAndReceive (List.replicate bufsize 255)
      (.accept { iid := 7, ballot := 20, value := [1, 2, 3, 4, 5, 6, 7, 8, 9, 10, 11] })
      = .ok (some
          (.accept { iid := 7, ballot := 20, value := [1, 2, 3, 4, 5, 6, 7, 8, 9, 10, 11] })) :=
  (datagram_round_trip _ _ List.length_replicate (by decide)).mpr trivial

/-- **Datagrams that are not read back**: a client value does not write its type, and is read as a
prepare from a zeroed buffer; a prepare announces the length of the structure, which holds ten bytes
of its value. -/
theorem datagram_truncated :
    sendAndReceive (List.replicate bufsize 0) (.clientValue ⟨[1, 2, 3]⟩)
      = .ok (some (.prepare { iid := 3, ballot := 258, valueBallot := 768, value := [] })) ∧
    sendAndReceive (List.replicate bufsize 0)
      (.prepare { iid := 1, ballot := 10, value := [1, 1, 1, 1, 1, 1, 1, 1, 1, 1, 1] })
      = .ok (some
          (.prepare { iid := 1, ballot := 10, value := [1, 1, 1, 1, 1, 1, 1, 1, 1, 1, 0] })) := by
  decide +kernel

end LibPaxos.NetPaxos
