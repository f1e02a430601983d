import LibPaxos.Messages
import LibPaxos.Lib.Runs

/-!
# The msgpack codec

`paxos_types_pack.c`. The msgpack library is not part of the repository, so it is a parameter here:
`MsgpackPacker` has the calls that the encoder makes and says what is unpacked again, namely an
array object with as many elements as announced, in order, in which a non-negative integer is a
`u64` and a binary has the bytes of its body.

The decoder never looks at the type of an object. It reads the members of the union `via` that the
encoder has set on the other side, and where another member was set, it reads the bytes that the two
have in common. Its functions are therefore given a `UnionReader`. The code's is
`UnionReader.shared`, over any content of the bytes that nobody has set; `UnionReader.typed` reads
no other member than the one that was set, and tells which objects are read as what they are.

Five of the messages have one layout, and their functions differ in the type and in the structure
only.

* **`msgpack_round_trip`** — what is unpacked is what was packed, for each of the nine types.
-/

namespace LibPaxos.EvPaxos

/-! ## Objects

An object has a type and a union of 16 bytes. In its first eight bytes lies a number, or the size of
what is pointed to, and the pointer lies in the other eight. -/

/-- `msgpack_object`: the member of `via` that goes with the type. A `map` has its keys and values
in turn. -/
inductive MsgpackObject where
  | nil
  | boolean (b : Bool)
  | u64 (n : UInt64)
  | i64 (n : Int64)
  | f64 (bits : UInt64)
  | str (bytes : List UInt8)
  | bin (bytes : List UInt8)
  | array (elements : List MsgpackObject)
  | map (entries : List MsgpackObject)
  | ext (type : Int8) (bytes : List UInt8)

/-- The low `w` bits of a word are set. -/
def overwrite (w : Nat) (old : UInt64) (n : Nat) : UInt64 :=
  UInt64.ofNat (old.toNat / 2 ^ w * 2 ^ w + n % 2 ^ w)

/-- The first eight bytes of the union, if they were `old` before the member was set. The numbers
are little-endian, so the size comes before the bytes that pad it. -/
def MsgpackObject.word (old : UInt64) : MsgpackObject → UInt64
  | .nil => old
  | .boolean b => overwrite 8 old b.toNat
  | .u64 n => n
  | .i64 n => n.toUInt64
  | .f64 bits => bits
  | .str bytes | .bin bytes => overwrite 32 old bytes.length
  | .array elements => overwrite 32 old elements.length
  | .map entries => overwrite 32 old (entries.length / 2)
  | .ext type bytes =>
    -- the type is a byte, and the size lies behind it
    overwrite 32 (UInt64.ofNat (bytes.length % 2 ^ 32 * 2 ^ 32))
      (overwrite 8 old type.toUInt8.toNat).toNat

/-- `memcpy` of `len` bytes from the pointer of the union. Only the members for byte strings have
set one to bytes; `behind` are the bytes in memory that the pointer of another leads to. -/
def MsgpackObject.copied (behind : Except Fault (Nat → UInt8)) (len : Nat) :
    MsgpackObject → Except Fault (List UInt8)
  | .str bytes | .bin bytes | .ext _ bytes =>
    if len ≤ bytes.length then .ok (bytes.take len) else .error .outOfBounds
  | .nil | .boolean _ | .u64 _ | .i64 _ | .f64 _ | .array _ | .map _ =>
    return (List.range len).map (← behind)

/-- What the unions hold that was not set with their members: for the element at each index, the
first eight bytes as they were before and what the pointer leads to, and for an object that is no
array, the elements that its pointer leads to. -/
structure Leftovers where
  word : Nat → UInt64
  behind : Nat → Except Fault (Nat → UInt8)
  elements : Except Fault (List MsgpackObject)

/-- Nothing is left but pointers that lead nowhere. -/
def Leftovers.wild : Leftovers where
  word _ := 0
  behind _ := .error .outOfBounds
  elements := .error .outOfBounds

/-- How the members of `via` are read: `array.ptr` of an object, and `u64`, `bin.size` and what is
behind `bin.ptr` of the element at an index. -/
structure UnionReader where
  elements : MsgpackObject → Except Fault (List MsgpackObject)
  u64 : Nat → MsgpackObject → Except Fault UInt64
  binSize : Nat → MsgpackObject → Except Fault UInt32
  binBytes : Nat → MsgpackObject → Nat → Except Fault (List UInt8)

/-- The reads of the code: the bytes of the union, whatever was set. -/
def UnionReader.shared (left : Leftovers) : UnionReader where
  elements
    | .array elements => .ok elements
    | _ => left.elements
  u64 i o := .ok (o.word (left.word i))
  binSize i o := .ok (o.word (left.word i)).toUInt32
  binBytes i o len := o.copied (left.behind i) len

/-- Reads of the member that was set: any other read is a fault. -/
def UnionReader.typed : UnionReader where
  elements
    | .array elements => .ok elements
    | _ => .error .outOfBounds
  u64
    | _, .u64 n => .ok n
    | _, _ => .error .outOfBounds
  binSize
    | _, .bin bytes => .ok (UInt32.ofNat bytes.length)
    | _, _ => .error .outOfBounds
  binBytes
    | _, .bin bytes, len => .ok (bytes.take len)
    | _, _, _ => .error .outOfBounds

/-! ## The library

A packer is used through the calls below only. What has been packed is a sequence of arrays, whose
elements are numbers and byte strings. -/

/-- A call on a `msgpack_packer`. -/
inductive PackCall where
  | array (n : Nat)
  | integer (n : Int)
  | bin (len : Nat)
  | binBody (bytes : List UInt8)
deriving DecidableEq

/-- An element of an array that is packed. -/
inductive PackedElement where
  | number (n : UInt64)
  | bytes (v : List UInt8)

/-- The calls that pack an element. -/
def PackedElement.calls : PackedElement → List PackCall
  | .number n => [.integer n.toNat]
  | .bytes v => [.bin v.length, .binBody v]

/-- The object that an element is unpacked as. -/
def PackedElement.object : PackedElement → MsgpackObject
  | .number n => .u64 n
  | .bytes v => .bin v

/-- The lengths of byte strings have 32 bits on the wire. -/
def PackedElement.Fits : PackedElement → Prop
  | .number _ => True
  | .bytes v => v.length < 2 ^ 32

/-- The msgpack library: the calls of a packer, and `msgpack_unpack_next` on what has been packed.
An array that was packed first is unpacked first, and leaves what was packed after it. -/
class MsgpackPacker (P : Type) where
  empty : P
  pack : P → PackCall → P
  unpackNext : P → Option (MsgpackObject × P)
  unpackNext_array : ∀ (es : List PackedElement) (rest : List PackCall), es.length < 2 ^ 32 →
    (∀ e ∈ es, e.Fits) →
    unpackNext (rest.foldl pack ((.array es.length :: es.flatMap (·.calls)).foldl pack empty))
      = some (.array (es.map (·.object)), rest.foldl pack empty)

section Codec

open MsgpackPacker

variable {P : Type} [MsgpackPacker P] (rd : UnionReader)

/-- `msgpack_pack_array`. -/
def msgpackPackArray (p : P) (n : Nat) : P := pack p (.array n)

/-- `msgpack_pack_uint32`. -/
def msgpackPackUint32 (p : P) (v : UInt32) : P := pack p (.integer v.toNat)

/-- `msgpack_pack_uint16`. -/
def msgpackPackUint16 (p : P) (v : UInt16) : P := pack p (.integer v.toNat)

/-- `msgpack_pack_int16`. -/
def msgpackPackInt16 (p : P) (v : Int16) : P := pack p (.integer v.toInt)

/-- `msgpack_pack_string`. -/
def msgpackPackString (p : P) (buffer : List UInt8) (len : Nat) : P :=
  pack (pack p (.bin len)) (.binBody (buffer.take len))

/-- `MSGPACK_OBJECT_AT`. -/
def msgpackObjectAt (o : MsgpackObject) (i : Nat) : Except Fault MsgpackObject := do
  let elements ← rd.elements o
  match elements[i]? with
  | some element => .ok element
  | none => .error .outOfBounds

/-- `msgpack_unpack_uint32_at`: the field and the index after it. -/
def msgpackUnpackUint32At (o : MsgpackObject) (i : Nat) : Except Fault (UInt32 × Nat) := do
  let element ← msgpackObjectAt rd o i
  let v ← rd.u64 i element
  .ok (v.toUInt32, i + 1)

/-- `msgpack_unpack_uint16_at`. -/
def msgpackUnpackUint16At (o : MsgpackObject) (i : Nat) : Except Fault (UInt16 × Nat) := do
  let element ← msgpackObjectAt rd o i
  let v ← rd.u64 i element
  .ok (v.toUInt16, i + 1)

/-- `msgpack_unpack_string_at`. The size is an `int` here: from 2^31 on it is negative, and nothing
is copied. -/
def msgpackUnpackStringAt (o : MsgpackObject) (i : Nat) : Except Fault (PaxosValue × Nat) := do
  let element ← msgpackObjectAt rd o i
  let size ← rd.binSize i element
  let len := size.toInt32.toInt
  if 0 < len then do
    let buffer ← rd.binBytes i element len.toNat
    .ok (buffer, i + 1)
  else .ok ([], i + 1)

/-- `msgpack_pack_paxos_value`. -/
def msgpackPackPaxosValue (p : P) (v : PaxosValue) : P :=
  msgpackPackString p v v.length

/-- `msgpack_unpack_paxos_value_at`. -/
def msgpackUnpackPaxosValueAt (o : MsgpackObject) (i : Nat) : Except Fault (PaxosValue × Nat) :=
  msgpackUnpackStringAt rd o i

/-! ## Messages -/

/-- The fields that the five messages of one layout pack behind their type. -/
def packFields (p : P) (iid : UInt32) (ballot valueBallot aid : UInt16) (value : PaxosValue) :
    P :=
  let p := msgpackPackUint32 p iid
  let p := msgpackPackUint16 p ballot
  let p := msgpackPackUint16 p valueBallot
  let p := msgpackPackUint16 p aid
  msgpackPackPaxosValue p value

/-- The fields that they unpack. -/
def unpackFields (o : MsgpackObject) :
    Except Fault (UInt32 × UInt16 × UInt16 × UInt16 × PaxosValue) := do
  let i := 1
  let (iid, i) ← msgpackUnpackUint32At rd o i
  let (ballot, i) ← msgpackUnpackUint16At rd o i
  let (valueBallot, i) ← msgpackUnpackUint16At rd o i
  let (aid, i) ← msgpackUnpackUint16At rd o i
  let (value, _) ← msgpackUnpackPaxosValueAt rd o i
  .ok (iid, ballot, valueBallot, aid, value)

/-- The type as the 16-bit argument of a call. -/
def typeUint16 (t : PaxosMessageType) : UInt16 := UInt16.ofNat t.code

/-- The type as a signed argument. -/
def typeInt16 (t : PaxosMessageType) : Int16 := Int16.ofNat t.code

/-- `msgpack_pack_paxos_prepare`. -/
def msgpackPackPaxosPrepare (p : P) (v : PaxosPrepare) : P :=
  let p := msgpackPackArray p 6
  let p := msgpackPackUint16 p (typeUint16 .prepare)
  packFields p v.iid v.ballot v.valueBallot v.aid v.value

/-- `msgpack_unpack_paxos_prepare`. -/
def msgpackUnpackPaxosPrepare (o : MsgpackObject) : Except Fault PaxosPrepare := do
  let (iid, ballot, valueBallot, aid, value) ← unpackFields rd o
  .ok { iid, ballot, valueBallot, aid, value }

/-- `msgpack_pack_paxos_promise`. -/
def msgpackPackPaxosPromise (p : P) (v : PaxosPromise) : P :=
  let p := msgpackPackArray p 6
  let p := msgpackPackInt16 p (typeInt16 .promise)
  packFields p v.iid v.ballot v.valueBallot v.aid v.value

/-- `msgpack_unpack_paxos_promise`. -/
def msgpackUnpackPaxosPromise (o : MsgpackObject) : Except Fault PaxosPromise := do
  let (iid, ballot, valueBallot, aid, value) ← unpackFields rd o
  .ok { iid, ballot, valueBallot, aid, value }

/-- `msgpack_pack_paxos_accept`. -/
def msgpackPackPaxosAccept (p : P) (v : PaxosAccept) : P :=
  let p := msgpackPackArray p 6
  let p := msgpackPackInt16 p (typeInt16 .accept)
  packFields p v.iid v.ballot v.valueBallot v.aid v.value

/-- `msgpack_unpack_paxos_accept`. -/
def msgpackUnpackPaxosAccept (o : MsgpackObject) : Except Fault PaxosAccept := do
  let (iid, ballot, valueBallot, aid, value) ← unpackFields rd o
  .ok { iid, ballot, valueBallot, aid, value }

/-- `msgpack_pack_paxos_accepted`. -/
def msgpackPackPaxosAccepted (p : P) (v : PaxosAccepted) : P :=
  let p := msgpackPackArray p 6
  let p := msgpackPackInt16 p (typeInt16 .accepted)
  packFields p v.iid v.ballot v.valueBallot v.aid v.value

/-- `msgpack_unpack_paxos_accepted`. -/
def msgpackUnpackPaxosAccepted (o : MsgpackObject) : Except Fault PaxosAccepted := do
  let (iid, ballot, valueBallot, aid, value) ← unpackFields rd o
  .ok { iid, ballot, valueBallot, aid, value }

/-- `msgpack_pack_paxos_preempted`. -/
def msgpackPackPaxosPreempted (p : P) (v : PaxosPreempted) : P :=
  let p := msgpackPackArray p 6
  let p := msgpackPackInt16 p (typeInt16 .preempted)
  packFields p v.iid v.ballot v.valueBallot v.aid v.value

/-- `msgpack_unpack_paxos_preempted`. -/
def msgpackUnpackPaxosPreempted (o : MsgpackObject) : Except Fault PaxosPreempted := do
  let (iid, ballot, valueBallot, aid, value) ← unpackFields rd o
  .ok { iid, ballot, valueBallot, aid, value }

/-- `msgpack_pack_paxos_repeat`. -/
def msgpackPackPaxosRepeat (p : P) (v : PaxosRepeat) : P :=
  let p := msgpackPackArray p 3
  let p := msgpackPackInt16 p (typeInt16 .repeated)
  let p := msgpackPackUint32 p v.fromIid
  msgpackPackUint32 p v.toIid

/-- `msgpack_unpack_paxos_repeat`. -/
def msgpackUnpackPaxosRepeat (o : MsgpackObject) : Except Fault PaxosRepeat := do
  let i := 1
  let (fromIid, i) ← msgpackUnpackUint32At rd o i
  let (toIid, _) ← msgpackUnpackUint32At rd o i
  .ok { fromIid, toIid }

/-- `msgpack_pack_paxos_trim`. -/
def msgpackPackPaxosTrim (p : P) (v : PaxosTrim) : P :=
  let p := msgpackPackArray p 2
  let p := msgpackPackInt16 p (typeInt16 .trim)
  msgpackPackUint32 p v.iid

/-- `msgpack_unpack_paxos_trim`. -/
def msgpackUnpackPaxosTrim (o : MsgpackObject) : Except Fault PaxosTrim := do
  let i := 1
  let (iid, _) ← msgpackUnpackUint32At rd o i
  .ok { iid }

/-- `msgpack_pack_paxos_acceptor_state`. -/
def msgpackPackPaxosAcceptorState (p : P) (v : PaxosAcceptorState) : P :=
  let p := msgpackPackArray p 3
  let p := msgpackPackInt16 p (typeInt16 .acceptorState)
  let p := msgpackPackUint32 p v.aid
  msgpackPackUint32 p v.trimIid

/-- `msgpack_unpack_paxos_acceptor_state`. -/
def msgpackUnpackPaxosAcceptorState (o : MsgpackObject) : Except Fault PaxosAcceptorState := do
  let i := 1
  let (aid, i) ← msgpackUnpackUint32At rd o i
  let (trimIid, _) ← msgpackUnpackUint32At rd o i
  .ok { aid, trimIid }

/-- `msgpack_pack_paxos_client_value`. -/
def msgpackPackPaxosClientValue (p : P) (v : PaxosClientValue) : P :=
  let p := msgpackPackArray p 2
  let p := msgpackPackInt16 p (typeInt16 .clientValue)
  msgpackPackPaxosValue p v.value

/-- `msgpack_unpack_paxos_client_value`. -/
def msgpackUnpackPaxosClientValue (o : MsgpackObject) : Except Fault PaxosClientValue := do
  let i := 1
  let (value, _) ← msgpackUnpackPaxosValueAt rd o i
  .ok { value }

/-- `msgpack_pack_paxos_message`. -/
def msgpackPackPaxosMessage (p : P) : WireMessage → P
  | .prepare v => msgpackPackPaxosPrepare p v
  | .promise v => msgpackPackPaxosPromise p v
  | .accept v => msgpackPackPaxosAccept p v
  | .accepted v => msgpackPackPaxosAccepted p v
  | .preempted v => msgpackPackPaxosPreempted p v
  | .repeated v => msgpackPackPaxosRepeat p v
  | .trim v => msgpackPackPaxosTrim p v
  | .state v => msgpackPackPaxosAcceptorState p v
  | .clientValue v => msgpackPackPaxosClientValue p v

/-- The cases of the `switch` of `msgpack_unpack_paxos_message`. -/
def unpackCase (o : MsgpackObject) : PaxosMessageType → Except Fault WireMessage
  | .prepare => return .prepare (← msgpackUnpackPaxosPrepare rd o)
  | .promise => return .promise (← msgpackUnpackPaxosPromise rd o)
  | .accept => return .accept (← msgpackUnpackPaxosAccept rd o)
  | .accepted => return .accepted (← msgpackUnpackPaxosAccepted rd o)
  | .preempted => return .preempted (← msgpackUnpackPaxosPreempted rd o)
  | .repeated => return .repeated (← msgpackUnpackPaxosRepeat rd o)
  | .trim => return .trim (← msgpackUnpackPaxosTrim rd o)
  | .acceptorState => return .state (← msgpackUnpackPaxosAcceptorState rd o)
  | .clientValue => return .clientValue (← msgpackUnpackPaxosClientValue rd o)

/-- `msgpack_unpack_paxos_message`. A type that is none of the nine leaves the union as it was:
there is no message then. -/
def msgpackUnpackPaxosMessage (o : MsgpackObject) : Except Fault (Option WireMessage) := do
  let element ← msgpackObjectAt rd o 0
  let type ← rd.u64 0 element
  match PaxosMessageType.ofCode type.toUInt32.toNat with
  | some t => return some (← unpackCase rd o t)
  | none => return none

end Codec

/-! ## What is packed

The calls that pack a message announce an array and pack its elements one by one. The library's law
then gives the object. -/

/-- The elements of the array that a message is packed as. -/
def elementsOf : WireMessage → List PackedElement
  | .prepare v => fields .prepare v.iid v.ballot v.valueBallot v.aid v.value
  | .promise v => fields .promise v.iid v.ballot v.valueBallot v.aid v.value
  | .accept v => fields .accept v.iid v.ballot v.valueBallot v.aid v.value
  | .accepted v => fields .accepted v.iid v.ballot v.valueBallot v.aid v.value
  | .preempted v => fields .preempted v.iid v.ballot v.valueBallot v.aid v.value
  | .repeated v => [tag .repeated, .number v.fromIid.toUInt64, .number v.toIid.toUInt64]
  | .trim v => [tag .trim, .number v.iid.toUInt64]
  | .state v => [tag .acceptorState, .number v.aid.toUInt64, .number v.trimIid.toUInt64]
  | .clientValue v => [tag .clientValue, .bytes v.value]
where
  tag (t : PaxosMessageType) : PackedElement := .number (UInt64.ofNat t.code)
  fields (t : PaxosMessageType) (iid : UInt32) (ballot valueBallot aid : UInt16)
      (value : PaxosValue) : List PackedElement :=
    [tag t, .number iid.toUInt64, .number ballot.toUInt64, .number valueBallot.toUInt64,
      .number aid.toUInt64, .bytes value]

/-- The object of a message. -/
def objectOf (m : WireMessage) : MsgpackObject := .array ((elementsOf m).map (·.object))

theorem toInt_typeInt16 (t : PaxosMessageType) :
    (typeInt16 t).toInt = ((UInt64.ofNat t.code).toNat : Int) := by
  cases t <;> rfl

theorem toNat_typeUint16 (t : PaxosMessageType) :
    (typeUint16 t).toNat = (UInt64.ofNat t.code).toNat := by
  cases t <;> rfl

section Packed

open MsgpackPacker

variable {P : Type} [MsgpackPacker P]

/-- **The calls that pack a message.** -/
theorem msgpackPackPaxosMessage_eq (p : P) (m : WireMessage) :
    msgpackPackPaxosMessage p m
      = (.array (elementsOf m).length :: (elementsOf m).flatMap (·.calls)).foldl pack p := by
  cases m <;>
    simp only [msgpackPackPaxosMessage, msgpackPackPaxosPrepare, msgpackPackPaxosPromise,
      msgpackPackPaxosAccept, msgpackPackPaxosAccepted, msgpackPackPaxosPreempted,
      msgpackPackPaxosRepeat, msgpackPackPaxosTrim, msgpackPackPaxosAcceptorState,
      msgpackPackPaxosClientValue, packFields, msgpackPackArray, msgpackPackUint32,
      msgpackPackUint16, msgpackPackInt16, msgpackPackPaxosValue, msgpackPackString,
      toInt_typeInt16, toNat_typeUint16, List.take_length, elementsOf, elementsOf.fields,
      elementsOf.tag, PackedElement.calls, UInt32.toNat_toUInt64, UInt16.toNat_toUInt64,
      List.flatMap_cons, List.flatMap_nil, List.cons_append, List.nil_append, List.foldl_cons,
      List.foldl_nil, List.length_cons, List.length_nil]

theorem length_elementsOf_le (m : WireMessage) : (elementsOf m).length ≤ 6 := by
  cases m <;> simp [elementsOf, elementsOf.fields]

theorem fits_of_mem_elementsOf {m : WireMessage} (hv : m.value.length < 2 ^ 32) :
    ∀ e ∈ elementsOf m, e.Fits := by
  intro e he
  cases e with
  | number => trivial
  | bytes v =>
    have hvalue : v = m.value := by
      cases m <;>
        simp_all [elementsOf, elementsOf.fields, elementsOf.tag, WireMessage.value]
    rw [hvalue]
    exact hv

/-- **The object of what was packed**, whatever was packed after it. -/
theorem unpackNext_packPaxosMessage {m : WireMessage} (hv : m.value.length < 2 ^ 32)
    (rest : List PackCall) :
    unpackNext (rest.foldl pack (msgpackPackPaxosMessage (empty : P) m))
      = some (objectOf m, rest.foldl pack empty) := by
  rw [msgpackPackPaxosMessage_eq]
  refine unpackNext_array _ rest ?_ (fits_of_mem_elementsOf hv)
  exact Nat.lt_of_le_of_lt (length_elementsOf_le m) (by decide)

end Packed

/-! ## Fields are read back

The decoder finds each field at the index at which the encoder has put it, and what it reads there
is the member that the library has set. -/

section Fields

variable (left : Leftovers) {elements : List MsgpackObject} {i : Nat}

theorem msgpackObjectAt_array {rd : UnionReader} {element : MsgpackObject}
    (hrd : rd.elements (.array elements) = .ok elements) (h : elements[i]? = some element) :
    msgpackObjectAt rd (.array elements) i = .ok element := by
  refine Except.bind_eq_ok.mpr ⟨_, hrd, ?_⟩
  rw [h]

theorem msgpackUnpackUint32At_eq {v : UInt32} (h : elements[i]? = some (.u64 v.toUInt64)) :
    msgpackUnpackUint32At (.shared left) (.array elements) i = .ok (v, i + 1) := by
  refine Except.bind_eq_ok.mpr ⟨_, msgpackObjectAt_array rfl h, ?_⟩
  refine Except.bind_eq_ok.mpr ⟨v.toUInt64, rfl, ?_⟩
  rw [UInt32.toUInt32_toUInt64]

theorem msgpackUnpackUint16At_eq {v : UInt16} (h : elements[i]? = some (.u64 v.toUInt64)) :
    msgpackUnpackUint16At (.shared left) (.array elements) i = .ok (v, i + 1) := by
  refine Except.bind_eq_ok.mpr ⟨_, msgpackObjectAt_array rfl h, ?_⟩
  refine Except.bind_eq_ok.mpr ⟨v.toUInt64, rfl, ?_⟩
  rw [UInt16.toUInt16_toUInt64]

/-- The size of a byte string is where a number has its low bits. -/
theorem toUInt32_overwrite (old : UInt64) (n : Nat) :
    (overwrite 32 old n).toUInt32 = UInt32.ofNat n := by
  rw [overwrite, UInt64.toUInt32_ofNat', ← UInt32.toNat_inj]
  simp

theorem msgpackUnpackPaxosValueAt_eq {v : PaxosValue} (hv : v.length < 2 ^ 31)
    (h : elements[i]? = some (.bin v)) :
    msgpackUnpackPaxosValueAt (.shared left) (.array elements) i = .ok (v, i + 1) := by
  refine Except.bind_eq_ok.mpr ⟨_, msgpackObjectAt_array rfl h, ?_⟩
  refine Except.bind_eq_ok.mpr ⟨UInt32.ofNat v.length, ?_, ?_⟩
  · exact congrArg Except.ok (toUInt32_overwrite _ _)
  have hlen : (UInt32.ofNat v.length).toInt32.toInt = v.length := by
    rw [toInt_toInt32_ofNat (by omega), if_pos (by omega)]
  rw [hlen]
  dsimp only
  split
  · refine Except.bind_eq_ok.mpr ⟨v, ?_, rfl⟩
    show MsgpackObject.copied (left.behind i) (v.length : Int).toNat (.bin v) = _
    rw [Int.toNat_natCast, MsgpackObject.copied, if_pos le_rfl, List.take_length]
  · have hnil : v.length = 0 := by omega
    rw [List.length_eq_zero_iff.mp hnil]

/-- The indices of the decoder are those of the encoder. -/
theorem unpackFields_fields (t : PaxosMessageType) (iid : UInt32) (ballot valueBallot aid : UInt16)
    {value : PaxosValue} (hv : value.length < 2 ^ 31) :
    unpackFields (.shared left)
        (.array ((elementsOf.fields t iid ballot valueBallot aid value).map (·.object)))
      = .ok (iid, ballot, valueBallot, aid, value) := by
  unfold unpackFields
  refine Except.bind_eq_ok.mpr ⟨_, msgpackUnpackUint32At_eq left (v := iid) rfl, ?_⟩
  refine Except.bind_eq_ok.mpr ⟨_, msgpackUnpackUint16At_eq left (v := ballot) rfl, ?_⟩
  refine Except.bind_eq_ok.mpr ⟨_, msgpackUnpackUint16At_eq left (v := valueBallot) rfl, ?_⟩
  refine Except.bind_eq_ok.mpr ⟨_, msgpackUnpackUint16At_eq left (v := aid) rfl, ?_⟩
  exact Except.bind_eq_ok.mpr ⟨_, msgpackUnpackPaxosValueAt_eq left hv rfl, rfl⟩

/-- The type is read back as well, and selects its case. -/
theorem msgpackUnpackPaxosMessage_of_case {t : PaxosMessageType} {m : WireMessage}
    (htag : elements[0]? = some (elementsOf.tag t).object)
    (hm : unpackCase (.shared left) (.array elements) t = .ok m) :
    msgpackUnpackPaxosMessage (.shared left) (.array elements) = .ok (some m) := by
  have hcode : PaxosMessageType.ofCode (UInt64.ofNat t.code).toUInt32.toNat = some t := by
    cases t <;> rfl
  refine Except.bind_eq_ok.mpr ⟨_, msgpackObjectAt_array rfl htag, ?_⟩
  refine Except.bind_eq_ok.mpr ⟨UInt64.ofNat t.code, rfl, ?_⟩
  rw [hcode]
  exact Except.bind_eq_ok.mpr ⟨m, hm, rfl⟩

/-- The five messages of one layout differ in what they make of the fields. -/
theorem msgpackUnpackPaxosMessage_fields (t : PaxosMessageType) (iid : UInt32)
    (ballot valueBallot aid : UInt16) {value : PaxosValue} (hv : value.length < 2 ^ 31)
    {m : WireMessage}
    (hcase : ∀ o, unpackFields (.shared left) o = .ok (iid, ballot, valueBallot, aid, value) →
      unpackCase (.shared left) o t = .ok m) :
    msgpackUnpackPaxosMessage (.shared left)
        (.array ((elementsOf.fields t iid ballot valueBallot aid value).map (·.object)))
      = .ok (some m) :=
  msgpackUnpackPaxosMessage_of_case left rfl
    (hcase _ (unpackFields_fields left t iid ballot valueBallot aid hv))

end Fields

/-- **The decoder reads the object of a message.** -/
theorem msgpackUnpackPaxosMessage_objectOf (left : Leftovers) {m : WireMessage}
    (hv : m.value.length < 2 ^ 31) :
    msgpackUnpackPaxosMessage (.shared left) (objectOf m) = .ok (some m) := by
  cases m with
  -- five messages of one layout
  | prepare v =>
    exact msgpackUnpackPaxosMessage_fields left _ _ _ _ _ hv fun o ho =>
      Except.bind_eq_ok.mpr ⟨v, Except.bind_eq_ok.mpr ⟨_, ho, rfl⟩, rfl⟩
  | promise v =>
    exact msgpackUnpackPaxosMessage_fields left _ _ _ _ _ hv fun o ho =>
      Except.bind_eq_ok.mpr ⟨v, Except.bind_eq_ok.mpr ⟨_, ho, rfl⟩, rfl⟩
  | accept v =>
    exact msgpackUnpackPaxosMessage_fields left _ _ _ _ _ hv fun o ho =>
      Except.bind_eq_ok.mpr ⟨v, Except.bind_eq_ok.mpr ⟨_, ho, rfl⟩, rfl⟩
  | accepted v =>
    exact msgpackUnpackPaxosMessage_fields left _ _ _ _ _ hv fun o ho =>
      Except.bind_eq_ok.mpr ⟨v, Except.bind_eq_ok.mpr ⟨_, ho, rfl⟩, rfl⟩
  | preempted v =>
    exact msgpackUnpackPaxosMessage_fields left _ _ _ _ _ hv fun o ho =>
      Except.bind_eq_ok.mpr ⟨v, Except.bind_eq_ok.mpr ⟨_, ho, rfl⟩, rfl⟩
  -- those with fields of their own
  | repeated v =>
    have hcase : msgpackUnpackPaxosRepeat (.shared left) (objectOf (.repeated v)) = .ok v :=
      Except.bind_eq_ok.mpr ⟨_, msgpackUnpackUint32At_eq left (v := v.fromIid) rfl,
        Except.bind_eq_ok.mpr ⟨_, msgpackUnpackUint32At_eq left (v := v.toIid) rfl, rfl⟩⟩
    exact msgpackUnpackPaxosMessage_of_case left rfl (Except.bind_eq_ok.mpr ⟨v, hcase, rfl⟩)
  | trim v =>
    have hcase : msgpackUnpackPaxosTrim (.shared left) (objectOf (.trim v)) = .ok v :=
      Except.bind_eq_ok.mpr ⟨_, msgpackUnpackUint32At_eq left (v := v.iid) rfl, rfl⟩
    exact msgpackUnpackPaxosMessage_of_case left rfl (Except.bind_eq_ok.mpr ⟨v, hcase, rfl⟩)
  | state v =>
    have hcase : msgpackUnpackPaxosAcceptorState (.shared left) (objectOf (.state v)) = .ok v :=
      Except.bind_eq_ok.mpr ⟨_, msgpackUnpackUint32At_eq left (v := v.aid) rfl,
        Except.bind_eq_ok.mpr ⟨_, msgpackUnpackUint32At_eq left (v := v.trimIid) rfl, rfl⟩⟩
    exact msgpackUnpackPaxosMessage_of_case left rfl (Except.bind_eq_ok.mpr ⟨v, hcase, rfl⟩)
  | clientValue v =>
    have hcase : msgpackUnpackPaxosClientValue (.shared left) (objectOf (.clientValue v)) = .ok v :=
      Except.bind_eq_ok.mpr ⟨_, msgpackUnpackPaxosValueAt_eq left hv rfl, rfl⟩
    exact msgpackUnpackPaxosMessage_of_case left rfl (Except.bind_eq_ok.mpr ⟨v, hcase, rfl⟩)

/-- **The msgpack round trip.** For a message of any type, with any fields and a value whose length
is an `int`, the library finds one object in what was packed, and unpacking it gives the message
back, whatever the unions of the object held before. -/
theorem msgpack_round_trip {P : Type} [MsgpackPacker P] (left : Leftovers) (m : WireMessage)
    (hv : m.value.length < 2 ^ 31) (rest : List PackCall) :
    ∃ o, MsgpackPacker.unpackNext
          (rest.foldl MsgpackPacker.pack (msgpackPackPaxosMessage (MsgpackPacker.empty : P) m))
        = some (o, rest.foldl MsgpackPacker.pack MsgpackPacker.empty) ∧
      msgpackUnpackPaxosMessage (.shared left) o = .ok (some m) :=
  ⟨objectOf m, unpackNext_packPaxosMessage (by omega) rest,
    msgpackUnpackPaxosMessage_objectOf left hv⟩

/-! ### A library

The calls themselves, with what they stand for. -/

namespace PackCalls

/-- The element that the next calls make. -/
def readElement : List PackCall → Option (MsgpackObject × List PackCall)
  | .integer n :: rest =>
    some (if 0 ≤ n then .u64 (UInt64.ofNat n.toNat) else .i64 (Int64.ofInt n), rest)
  | .bin len :: .binBody bytes :: rest =>
    if bytes.length = len then some (.bin bytes, rest) else none
  | _ => none

/-- The next elements, as many as announced. -/
def readElements : Nat → List PackCall → Option (List MsgpackObject × List PackCall)
  | 0, calls => some ([], calls)
  | n + 1, calls => do
    let (element, calls) ← readElement calls
    let (elements, calls) ← readElements n calls
    some (element :: elements, calls)

/-- The object that is unpacked next, and what is left. -/
def unpackNext : List PackCall → Option (MsgpackObject × List PackCall)
  | .array n :: rest => do
    let (elements, rest) ← readElements n rest
    some (.array elements, rest)
  | _ => none

theorem readElement_calls (e : PackedElement) (rest : List PackCall) :
    readElement (e.calls ++ rest) = some (e.object, rest) := by
  cases e with
  | number n =>
    show some (if (0 : Int) ≤ n.toNat then MsgpackObject.u64 (UInt64.ofNat (n.toNat : Int).toNat)
      else .i64 (Int64.ofInt n.toNat), rest) = some (.u64 n, rest)
    rw [if_pos (Int.natCast_nonneg _), Int.toNat_natCast, UInt64.ofNat_toNat]
  | bytes v => exact if_pos rfl

theorem readElements_calls (es : List PackedElement) (rest : List PackCall) :
    readElements es.length (es.flatMap (·.calls) ++ rest) = some (es.map (·.object), rest) := by
  induction es with
  | nil => rfl
  | cons e es ih =>
    rw [List.flatMap_cons, List.append_assoc, List.length_cons, readElements, readElement_calls]
    show ((readElements _ _).bind _) = _
    rw [ih]
    rfl

theorem foldl_snoc (calls p : List PackCall) :
    calls.foldl (fun p call => p ++ [call]) p = p ++ calls := by
  induction calls generalizing p with
  | nil => exact (List.append_nil p).symm
  | cons call calls ih => rw [List.foldl_cons, ih, List.append_assoc, List.singleton_append]

end PackCalls

instance PackCalls.packer : MsgpackPacker (List PackCall) where
  empty := []
  pack p call := p ++ [call]
  unpackNext := PackCalls.unpackNext
  unpackNext_array es rest _ _ := by
    simp only [foldl_snoc, List.nil_append, List.cons_append, unpackNext, readElements_calls]
    rfl

/-- A promise with all fields at their largest, and a value of two bytes. -/
theorem msgpack_round_trip_promise :
    let m : WireMessage := .promise
      { iid := 4294967295, ballot := 65535, valueBallot := 65535, aid := 65535, value := [7, 255] }
    m.value.length = 2 ∧
      ∃ o, PackCalls.unpackNext (msgpackPackPaxosMessage [] m) = some (o, []) ∧
        msgpackUnpackPaxosMessage (.shared .wild) o = .ok (some m) :=
  ⟨rfl, msgpack_round_trip (P := List PackCall) .wild _ (by decide) []⟩

end LibPaxos.EvPaxos
