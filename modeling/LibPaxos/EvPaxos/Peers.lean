import LibPaxos.EvPaxos.TypesPack
import LibPaxos.Lib.Loops
import Mathlib.Logic.Relation

/-!
# Messages from a connection

`recv_paxos_message` of `message.c`, and `dispatch_message` and `on_read` of `peers.c`. What comes
in on a connection is a string of msgpack objects. The library is a parameter: `Msgpack` says what
is known of `msgpack_unpack_next`.

The decoder does not reject anything. What it makes of an object depends on the bytes of the unions
alone, so an object of another type is either read past its memory or taken for a message. Which
objects are read as what they are is therefore a question of its own, and is asked of the decoder
with `UnionReader.typed`.

* **`object_handled_exactly`** — an object is read as what it is, and handled by the handlers for
  the messages of its type and by no other, exactly if it is a message or an array with an unknown
  type in front.
* **`object_not_rejected`** — the other objects are read past their elements or taken for messages.
* **`reading_ends`** — the loop over the objects ends exactly if each of them can be read.
* **`reading_fails`** — a byte that is no object.
-/

namespace LibPaxos.EvPaxos

open Loops

/-! ## Objects -/

/-- `struct subscription`, with a number for the handler. -/
structure Subscription where
  type : PaxosMessageType
  callback : Nat

/-- `dispatch_message`: the handlers that are called, and the message they are given. -/
def dispatchMessage (subs : List Subscription) : Option WireMessage → List (Nat × WireMessage)
  | none => []
  | some m => (subs.filter fun sub => sub.type = m.type).map fun sub => (sub.callback, m)

/-- What is done with an object. -/
def handleObject (left : Leftovers) (subs : List Subscription) (o : MsgpackObject) :
    Except Fault (List (Nat × WireMessage)) := do
  let msg ← msgpackUnpackPaxosMessage (.shared left) o
  .ok (dispatchMessage subs msg)

/-! ### The grammar -/

/-- What a field of a message is sent as. -/
inductive FieldType where
  | number
  | bytes

/-- The fields behind the type of a message. -/
def layout : PaxosMessageType → List FieldType
  | .prepare | .promise | .accept | .accepted | .preempted =>
    [.number, .number, .number, .number, .bytes]
  | .repeated | .acceptorState => [.number, .number]
  | .trim => [.number]
  | .clientValue => [.bytes]

/-- The object has the type of the field. -/
def MsgpackObject.isField : MsgpackObject → FieldType → Bool
  | .u64 _, .number => true
  | .bin _, .bytes => true
  | _, _ => false

/-- The objects have the types of the fields, one by one. -/
def areFields : List MsgpackObject → List FieldType → Bool
  | [], [] => true
  | o :: os, f :: fs => o.isField f && areFields os fs
  | _, _ => false

/-- The object is a message of the type: an array with the number of the type, and the fields that
belong to it. -/
def MsgpackObject.isMessage : MsgpackObject → PaxosMessageType → Bool
  | .array (.u64 n :: fields), t => n.toNat = t.code && areFields fields (layout t)
  | _, _ => false

/-! ### What the decoder reads

The decoder returns exactly if it can read the type and the fields behind it, one after the other.
This holds of any way to read the unions, and says both when the code returns and when it has read
nothing but what was set. -/

/-- The element at the index can be read as the field: it is there, and if it has bytes, they can be
copied. -/
def UnionReader.Reads (rd : UnionReader) (o : MsgpackObject) (i : Nat) : FieldType → Prop
  | .number => ∃ element n, msgpackObjectAt rd o i = .ok element ∧ rd.u64 i element = .ok n
  | .bytes => ∃ element size, msgpackObjectAt rd o i = .ok element ∧
      rd.binSize i element = .ok size ∧
      (0 < size.toInt32.toInt →
        ∃ bytes, rd.binBytes i element size.toInt32.toInt.toNat = .ok bytes)

/-- The fields can be read, from the index on. -/
def UnionReader.ReadsFrom (rd : UnionReader) (o : MsgpackObject) : Nat → List FieldType → Prop
  | _, [] => True
  | i, f :: fs => rd.Reads o i f ∧ rd.ReadsFrom o (i + 1) fs

section Read

variable {rd : UnionReader} {o : MsgpackObject} {i : Nat}

theorem exists_uint32At (h : rd.Reads o i .number) :
    ∃ v, msgpackUnpackUint32At rd o i = .ok (v, i + 1) := by
  obtain ⟨element, n, helement, hn⟩ := h
  exact ⟨_, Except.bind_eq_ok.mpr ⟨_, helement, Except.bind_eq_ok.mpr ⟨n, hn, rfl⟩⟩⟩

theorem exists_uint16At (h : rd.Reads o i .number) :
    ∃ v, msgpackUnpackUint16At rd o i = .ok (v, i + 1) := by
  obtain ⟨element, n, helement, hn⟩ := h
  exact ⟨_, Except.bind_eq_ok.mpr ⟨_, helement, Except.bind_eq_ok.mpr ⟨n, hn, rfl⟩⟩⟩

theorem exists_valueAt (h : rd.Reads o i .bytes) :
    ∃ v, msgpackUnpackPaxosValueAt rd o i = .ok (v, i + 1) := by
  obtain ⟨element, size, helement, hsize, hbytes⟩ := h
  by_cases hlen : 0 < size.toInt32.toInt
  · obtain ⟨bytes, hbytes⟩ := hbytes hlen
    refine ⟨bytes, Except.bind_eq_ok.mpr ⟨_, helement, Except.bind_eq_ok.mpr ⟨_, hsize, ?_⟩⟩⟩
    dsimp only
    rw [if_pos hlen]
    exact Except.bind_eq_ok.mpr ⟨bytes, hbytes, rfl⟩
  · refine ⟨[], Except.bind_eq_ok.mpr ⟨_, helement, Except.bind_eq_ok.mpr ⟨_, hsize, ?_⟩⟩⟩
    exact if_neg hlen

theorem reads_of_uint32At {r : UInt32 × Nat} (h : msgpackUnpackUint32At rd o i = .ok r) :
    rd.Reads o i .number ∧ r.2 = i + 1 := by
  obtain ⟨element, helement, h⟩ := Except.bind_eq_ok.mp h
  obtain ⟨n, hn, h⟩ := Except.bind_eq_ok.mp h
  cases h
  exact ⟨⟨element, n, helement, hn⟩, rfl⟩

theorem reads_of_uint16At {r : UInt16 × Nat} (h : msgpackUnpackUint16At rd o i = .ok r) :
    rd.Reads o i .number ∧ r.2 = i + 1 := by
  obtain ⟨element, helement, h⟩ := Except.bind_eq_ok.mp h
  obtain ⟨n, hn, h⟩ := Except.bind_eq_ok.mp h
  cases h
  exact ⟨⟨element, n, helement, hn⟩, rfl⟩

theorem reads_of_valueAt {r : PaxosValue × Nat} (h : msgpackUnpackPaxosValueAt rd o i = .ok r) :
    rd.Reads o i .bytes := by
  obtain ⟨element, helement, h⟩ := Except.bind_eq_ok.mp h
  obtain ⟨size, hsize, h⟩ := Except.bind_eq_ok.mp h
  refine ⟨element, size, helement, hsize, fun hlen => ?_⟩
  dsimp only at h
  rw [if_pos hlen] at h
  obtain ⟨bytes, hbytes, -⟩ := Except.bind_eq_ok.mp h
  exact ⟨bytes, hbytes⟩

theorem exists_unpackFields_iff :
    (∃ r, unpackFields rd o = .ok r) ↔ rd.ReadsFrom o 1 (layout .prepare) := by
  constructor
  · rintro ⟨r, h⟩
    obtain ⟨⟨iid, _⟩, hiid, h⟩ := Except.bind_eq_ok.mp h
    obtain ⟨riid, rfl⟩ := reads_of_uint32At hiid
    obtain ⟨⟨ballot, _⟩, hballot, h⟩ := Except.bind_eq_ok.mp h
    obtain ⟨rballot, rfl⟩ := reads_of_uint16At hballot
    obtain ⟨⟨valueBallot, _⟩, hvalueBallot, h⟩ := Except.bind_eq_ok.mp h
    obtain ⟨rvalueBallot, rfl⟩ := reads_of_uint16At hvalueBallot
    obtain ⟨⟨aid, _⟩, haid, h⟩ := Except.bind_eq_ok.mp h
    obtain ⟨raid, rfl⟩ := reads_of_uint16At haid
    obtain ⟨value, hvalue, -⟩ := Except.bind_eq_ok.mp h
    exact ⟨riid, rballot, rvalueBallot, raid, reads_of_valueAt hvalue, trivial⟩
  · rintro ⟨hiid, hballot, hvalueBallot, haid, hvalue, -⟩
    obtain ⟨iid, hiid⟩ := exists_uint32At hiid
    obtain ⟨ballot, hballot⟩ := exists_uint16At hballot
    obtain ⟨valueBallot, hvalueBallot⟩ := exists_uint16At hvalueBallot
    obtain ⟨aid, haid⟩ := exists_uint16At haid
    obtain ⟨value, hvalue⟩ := exists_valueAt hvalue
    exact ⟨_, Except.bind_eq_ok.mpr ⟨_, hiid, Except.bind_eq_ok.mpr ⟨_, hballot,
      Except.bind_eq_ok.mpr ⟨_, hvalueBallot, Except.bind_eq_ok.mpr ⟨_, haid,
        Except.bind_eq_ok.mpr ⟨_, hvalue, rfl⟩⟩⟩⟩⟩⟩

/-- What a message consists of is read. -/
theorem exists_unpackCase {t : PaxosMessageType} (h : rd.ReadsFrom o 1 (layout t)) :
    ∃ m, unpackCase rd o t = .ok m ∧ m.type = t := by
  cases t with
  | prepare | promise | accept | accepted | preempted =>
    obtain ⟨r, hr⟩ := exists_unpackFields_iff.mpr h
    exact ⟨_, Except.bind_eq_ok.mpr ⟨_, Except.bind_eq_ok.mpr ⟨r, hr, rfl⟩, rfl⟩, rfl⟩
  | repeated | acceptorState =>
    obtain ⟨ha, hb, -⟩ := h
    obtain ⟨a, ha⟩ := exists_uint32At ha
    obtain ⟨b, hb⟩ := exists_uint32At hb
    exact ⟨_, Except.bind_eq_ok.mpr ⟨_, Except.bind_eq_ok.mpr ⟨_, ha,
      Except.bind_eq_ok.mpr ⟨_, hb, rfl⟩⟩, rfl⟩, rfl⟩
  | trim =>
    obtain ⟨a, ha⟩ := exists_uint32At h.1
    exact ⟨_, Except.bind_eq_ok.mpr ⟨_, Except.bind_eq_ok.mpr ⟨_, ha, rfl⟩, rfl⟩, rfl⟩
  | clientValue =>
    obtain ⟨v, hv⟩ := exists_valueAt h.1
    exact ⟨_, Except.bind_eq_ok.mpr ⟨_, Except.bind_eq_ok.mpr ⟨_, hv, rfl⟩, rfl⟩, rfl⟩

/-- A message that was read has the type of its case, and its fields could be read. -/
theorem readsFrom_of_unpackCase {t : PaxosMessageType} {m : WireMessage}
    (h : unpackCase rd o t = .ok m) : m.type = t ∧ rd.ReadsFrom o 1 (layout t) := by
  cases t with
  | prepare | promise | accept | accepted | preempted =>
    obtain ⟨v, hv, h⟩ := Except.bind_eq_ok.mp h
    obtain ⟨r, hr, -⟩ := Except.bind_eq_ok.mp hv
    cases h
    exact ⟨rfl, exists_unpackFields_iff.mp ⟨r, hr⟩⟩
  | repeated | acceptorState =>
    obtain ⟨v, hv, h⟩ := Except.bind_eq_ok.mp h
    obtain ⟨⟨a, _⟩, ha, hv⟩ := Except.bind_eq_ok.mp hv
    obtain ⟨ra, rfl⟩ := reads_of_uint32At ha
    obtain ⟨b, hb, -⟩ := Except.bind_eq_ok.mp hv
    cases h
    exact ⟨rfl, ra, (reads_of_uint32At hb).1, trivial⟩
  | trim =>
    obtain ⟨v, hv, h⟩ := Except.bind_eq_ok.mp h
    obtain ⟨a, ha, -⟩ := Except.bind_eq_ok.mp hv
    cases h
    exact ⟨rfl, (reads_of_uint32At ha).1, trivial⟩
  | clientValue =>
    obtain ⟨v, hv, h⟩ := Except.bind_eq_ok.mp h
    obtain ⟨a, ha, -⟩ := Except.bind_eq_ok.mp hv
    cases h
    exact ⟨rfl, reads_of_valueAt ha, trivial⟩

/-- **What the decoder has read**, if it returns: a number in front, and the fields of the type that
the number stands for. There is no message if it stands for none. -/
theorem exists_type_of_unpackPaxosMessage {msg : Option WireMessage}
    (h : msgpackUnpackPaxosMessage rd o = .ok msg) :
    ∃ element n, msgpackObjectAt rd o 0 = .ok element ∧ rd.u64 0 element = .ok n ∧
      PaxosMessageType.ofCode n.toUInt32.toNat = msg.map (·.type) ∧
      ∀ t, PaxosMessageType.ofCode n.toUInt32.toNat = some t → rd.ReadsFrom o 1 (layout t) := by
  obtain ⟨element, helement, h⟩ := Except.bind_eq_ok.mp h
  obtain ⟨n, hn, h⟩ := Except.bind_eq_ok.mp h
  refine ⟨element, n, helement, hn, ?_⟩
  cases hcode : PaxosMessageType.ofCode n.toUInt32.toNat with
  | none =>
    rw [hcode] at h
    cases h
    exact ⟨rfl, fun t ht => nomatch ht⟩
  | some t =>
    rw [hcode] at h
    obtain ⟨m, hm, h⟩ := Except.bind_eq_ok.mp h
    cases h
    obtain ⟨htype, hreads⟩ := readsFrom_of_unpackCase hm
    refine ⟨congrArg some htype.symm, fun t' ht' => ?_⟩
    cases ht'
    exact hreads

/-- The decoder returns if it can read that. -/
theorem exists_unpackPaxosMessage {element : MsgpackObject} {n : UInt64}
    (helement : msgpackObjectAt rd o 0 = .ok element) (hn : rd.u64 0 element = .ok n)
    (hreads : ∀ t, PaxosMessageType.ofCode n.toUInt32.toNat = some t →
      rd.ReadsFrom o 1 (layout t)) :
    ∃ msg, msgpackUnpackPaxosMessage rd o = .ok msg ∧
      msg.map (·.type) = PaxosMessageType.ofCode n.toUInt32.toNat := by
  cases hcode : PaxosMessageType.ofCode n.toUInt32.toNat with
  | none =>
    refine ⟨none, Except.bind_eq_ok.mpr ⟨_, helement, Except.bind_eq_ok.mpr ⟨n, hn, ?_⟩⟩, rfl⟩
    rw [hcode]
    rfl
  | some t =>
    obtain ⟨m, hm, htype⟩ := exists_unpackCase (hreads t hcode)
    refine ⟨some m, Except.bind_eq_ok.mpr ⟨_, helement, Except.bind_eq_ok.mpr ⟨n, hn, ?_⟩⟩,
      congrArg some htype⟩
    rw [hcode]
    exact Except.bind_eq_ok.mpr ⟨m, hm, rfl⟩

end Read

/-! ### Members that were set

Both readers read the member that was set. The typed one reads nothing else. -/

/-- The reader reads a member that was set. -/
structure UnionReader.ReadsSet (rd : UnionReader) : Prop where
  elements : ∀ os, rd.elements (.array os) = .ok os
  u64 : ∀ i n, rd.u64 i (.u64 n) = .ok n
  bin : ∀ i v, ∃ size, rd.binSize i (.bin v) = .ok size ∧
    (0 < size.toInt32.toInt → ∃ bytes, rd.binBytes i (.bin v) size.toInt32.toInt.toNat = .ok bytes)

theorem UnionReader.readsSet_typed : UnionReader.typed.ReadsSet where
  elements _ := rfl
  u64 _ _ := rfl
  bin _ v := ⟨UInt32.ofNat v.length, rfl, fun _ => ⟨_, rfl⟩⟩

/-- A size is not greater as an `int`. -/
theorem toInt_toInt32_ofNat_le (n : Nat) : (UInt32.ofNat n).toInt32.toInt ≤ n := by
  have hmod : UInt32.ofNat n = UInt32.ofNat (n % 2 ^ 32) := by
    rw [← UInt32.toNat_inj, UInt32.toNat_ofNat', UInt32.toNat_ofNat', Nat.mod_mod]
  rw [hmod, toInt_toInt32_ofNat (Nat.mod_lt _ (by decide))]
  split <;> omega

theorem UnionReader.readsSet_shared (left : Leftovers) : (UnionReader.shared left).ReadsSet where
  elements _ := rfl
  u64 _ _ := rfl
  bin i v := by
    refine ⟨UInt32.ofNat v.length, congrArg Except.ok (toUInt32_overwrite _ _), fun _ => ?_⟩
    have hle := toInt_toInt32_ofNat_le v.length
    exact ⟨_, if_pos (by omega)⟩

section Fields

variable {rd : UnionReader}

theorem msgpackObjectAt_length (hrd : rd.ReadsSet) (os₀ os : List MsgpackObject)
    (o : MsgpackObject) :
    msgpackObjectAt rd (.array (os₀ ++ o :: os)) os₀.length = .ok o :=
  msgpackObjectAt_array (hrd.elements _) (by simp)

/-- Fields of the types that they are read as are read. The induction is on the fields; `os₀` are
the elements before them. -/
theorem UnionReader.ReadsSet.readsFrom (hrd : rd.ReadsSet) :
    ∀ (os₀ os : List MsgpackObject) (fs : List FieldType), areFields os fs = true →
      rd.ReadsFrom (.array (os₀ ++ os)) os₀.length fs
  | _, [], [], _ => trivial
  | _, [], _ :: _, h => nomatch h
  | _, _ :: _, [], h => nomatch h
  | os₀, o :: os, f :: fs, h => by
    obtain ⟨hfield, hrest⟩ := Bool.and_eq_true_iff.mp h
    have hrest := hrd.readsFrom (os₀ ++ [o]) os fs hrest
    rw [List.append_assoc, List.length_append] at hrest
    refine ⟨?_, hrest⟩
    have hobj := msgpackObjectAt_length hrd os₀ os o
    cases f with
    | number =>
      cases o with
      | u64 n => exact ⟨_, n, hobj, hrd.u64 _ n⟩
      | _ => cases hfield
    | bytes =>
      cases o with
      | bin v =>
        obtain ⟨size, hsize, hbytes⟩ := hrd.bin os₀.length v
        exact ⟨_, size, hobj, hsize, hbytes⟩
      | _ => cases hfield

end Fields

section Object

variable {o : MsgpackObject} {t : PaxosMessageType}

theorem isMessage_iff : o.isMessage t = true ↔
    ∃ n fields, o = .array (.u64 n :: fields) ∧ n.toNat = t.code ∧
      areFields fields (layout t) = true := by
  unfold MsgpackObject.isMessage
  split
  · rename_i n fields
    rw [Bool.and_eq_true_iff, decide_eq_true_iff]
    constructor
    · rintro ⟨hn, hfields⟩
      exact ⟨n, fields, rfl, hn, hfields⟩
    · rintro ⟨n', fields', heq, hn, hfields⟩
      cases heq
      exact ⟨hn, hfields⟩
  · rename_i hne
    constructor
    · intro h
      cases h
    · rintro ⟨n, fields, rfl, -⟩
      exact absurd rfl (hne n fields)

theorem code_lt (t : PaxosMessageType) : t.code < 2 ^ 32 := by
  cases t <;> decide

theorem ofCode_toUInt32 {n : UInt64} (h : n.toNat = t.code) :
    PaxosMessageType.ofCode n.toUInt32.toNat = some t := by
  rw [UInt64.toNat_toUInt32, h, Nat.mod_eq_of_lt (code_lt t), PaxosMessageType.ofCode_code]

/-- The decoder accepts the messages. -/
theorem exists_message_of_isMessage {rd : UnionReader} (hrd : rd.ReadsSet)
    (h : o.isMessage t = true) :
    ∃ m, msgpackUnpackPaxosMessage rd o = .ok (some m) ∧ m.type = t := by
  obtain ⟨n, fields, rfl, hn, hfields⟩ := isMessage_iff.mp h
  have hcode := ofCode_toUInt32 hn
  have hreads : ∀ t', PaxosMessageType.ofCode n.toUInt32.toNat = some t' →
      rd.ReadsFrom (.array (.u64 n :: fields)) 1 (layout t') := by
    intro t' ht'
    cases hcode.symm.trans ht'
    exact hrd.readsFrom [.u64 n] fields _ hfields
  obtain ⟨msg, hmsg, htype⟩ := exists_unpackPaxosMessage
    (msgpackObjectAt_length hrd [] fields (.u64 n)) (hrd.u64 0 n) hreads
  rw [hcode] at htype
  obtain ⟨m, rfl, hm⟩ := Option.map_eq_some_iff.mp htype
  exact ⟨m, hmsg, hm⟩

/-- It makes no message of an array with an unknown type in front. -/
theorem unpackPaxosMessage_eq_none {rd : UnionReader} (hrd : rd.ReadsSet) {n : UInt64}
    {fields : List MsgpackObject} (hn : PaxosMessageType.ofCode n.toUInt32.toNat = none) :
    msgpackUnpackPaxosMessage rd (.array (.u64 n :: fields)) = .ok none := by
  obtain ⟨msg, hmsg, htype⟩ := exists_unpackPaxosMessage
    (msgpackObjectAt_length hrd [] fields (.u64 n)) (hrd.u64 0 n)
    fun t ht => nomatch hn.symm.trans ht
  rw [hn] at htype
  exact hmsg.trans (congrArg Except.ok (Option.map_eq_none_iff.mp htype))

/-- What is read as what it is has a number in front. -/
theorem exists_number_of_typed {msg : Option WireMessage}
    (h : msgpackUnpackPaxosMessage .typed o = .ok msg) :
    ∃ n fields, o = .array (.u64 n :: fields) := by
  obtain ⟨element, n, helement, hn, -⟩ := exists_type_of_unpackPaxosMessage h
  obtain ⟨os, hos, helement⟩ := Except.bind_eq_ok.mp helement
  cases o with
  | array elements =>
    cases hos
    cases os with
    | nil => cases helement
    | cons tag fields =>
      cases helement
      cases element with
      | u64 n => exact ⟨n, fields, rfl⟩
      | _ => cases hn
  | _ => cases hos

/-- The type of a message is the one it is sent with. -/
theorem isMessage_unique {t' : PaxosMessageType} (h : o.isMessage t = true)
    (h' : o.isMessage t' = true) : t' = t := by
  obtain ⟨n, fields, rfl, hn, -⟩ := isMessage_iff.mp h
  obtain ⟨n', fields', heq, hn', -⟩ := isMessage_iff.mp h'
  cases heq
  exact Option.some.inj ((ofCode_toUInt32 hn').symm.trans (ofCode_toUInt32 hn))

theorem isMessage_eq_false {n : UInt64} {fields : List MsgpackObject}
    (hn : PaxosMessageType.ofCode n.toUInt32.toNat = none) (t : PaxosMessageType) :
    (MsgpackObject.array (.u64 n :: fields)).isMessage t = false := by
  rw [Bool.eq_false_iff]
  intro h
  obtain ⟨n', fields', heq, hn', -⟩ := isMessage_iff.mp h
  cases heq
  cases hn.symm.trans (ofCode_toUInt32 hn')

end Object

/-- **Objects are handled by their type.** For every object, whatever its unions held before: the
decoder reads only elements that are there and have the types it reads them as, and the handlers
that are called are those for the type that it is a message of, exactly if it is a message, or an
array with a number in front whose low 32 bits are none of the types. -/
theorem object_handled_exactly (left : Leftovers) (o : MsgpackObject) :
    ((∃ msg, msgpackUnpackPaxosMessage .typed o = .ok msg) ∧
      ∀ subs : List Subscription, ∃ calls, handleObject left subs o = .ok calls ∧
        calls.map (·.1) = (subs.filter fun sub => o.isMessage sub.type).map (·.callback)) ↔
    (∃ t, o.isMessage t = true) ∨
      ∃ n fields, o = .array (.u64 n :: fields) ∧
        PaxosMessageType.ofCode n.toUInt32.toNat = none := by
  have hshared := UnionReader.readsSet_shared left
  constructor
  · rintro ⟨⟨msg, hmsg⟩, hcalls⟩
    obtain ⟨n, fields, rfl⟩ := exists_number_of_typed hmsg
    cases hcode : PaxosMessageType.ofCode n.toUInt32.toNat with
    | none => exact .inr ⟨n, fields, rfl, hcode⟩
    | some t =>
      -- a handler for the type is called, so the object has to be a message of it
      obtain ⟨calls, hcalls, heq⟩ := hcalls [⟨t, 0⟩]
      obtain ⟨msg', hmsg', hdispatch⟩ := Except.bind_eq_ok.mp hcalls
      obtain ⟨element, n', helement, hn', htype, -⟩ := exists_type_of_unpackPaxosMessage hmsg'
      cases helement.symm.trans (msgpackObjectAt_length hshared [] fields (.u64 n))
      cases hn'.symm.trans (hshared.u64 0 n)
      obtain ⟨m, rfl, rfl⟩ := Option.map_eq_some_iff.mp (htype.symm.trans hcode)
      cases hdispatch
      refine .inl ⟨m.type, ?_⟩
      by_contra hne
      simp [dispatchMessage, hne] at heq
  · rintro (⟨t, ht⟩ | ⟨n, fields, rfl, hn⟩)
    · obtain ⟨m', hm', -⟩ := exists_message_of_isMessage UnionReader.readsSet_typed ht
      obtain ⟨m, hm, rfl⟩ := exists_message_of_isMessage hshared ht
      refine ⟨⟨_, hm'⟩, fun subs => ⟨_, Except.bind_eq_ok.mpr ⟨_, hm, rfl⟩, ?_⟩⟩
      have hfilter : (subs.filter fun sub => o.isMessage sub.type)
          = subs.filter fun sub => sub.type = m.type := by
        refine List.filter_congr fun sub _ => ?_
        rw [Bool.eq_iff_iff, decide_eq_true_iff]
        exact ⟨isMessage_unique ht, fun h => h ▸ ht⟩
      rw [hfilter, dispatchMessage, List.map_map]
      rfl
    · refine ⟨⟨_, unpackPaxosMessage_eq_none UnionReader.readsSet_typed hn⟩, fun subs =>
        ⟨_, Except.bind_eq_ok.mpr ⟨_, unpackPaxosMessage_eq_none hshared hn, rfl⟩, ?_⟩⟩
      simp [dispatchMessage, isMessage_eq_false hn]

/-- **Objects that are not rejected.** A number is taken for an array, and an array is read past its
end. An array whose element has another type, one that is too long and one with a large number in
front are no messages and are taken for one: the size of a byte string and the low bits of a
negative number are read as an instance id. -/
theorem object_not_rejected :
    let subs : List Subscription := [⟨.trim, 0⟩, ⟨.prepare, 1⟩]
    let bin : MsgpackObject := .array [.u64 6, .bin [1]]
    let negative : MsgpackObject := .array [.u64 6, .i64 (-1)]
    let long : MsgpackObject := .array [.u64 6, .u64 3, .u64 4]
    let large : MsgpackObject := .array [.u64 4294967302, .u64 3]
    handleObject .wild subs (.u64 6) = .error .outOfBounds ∧
      (∀ left, handleObject left subs (.array [.u64 0]) = .error .outOfBounds) ∧
      (∀ o ∈ [bin, negative, long, large], o.isMessage .trim = false) ∧
      ∀ left, handleObject left subs bin = .ok [(0, .trim { iid := 1 })] ∧
        handleObject left subs negative = .ok [(0, .trim { iid := 4294967295 })] ∧
        handleObject left subs long = .ok [(0, .trim { iid := 3 })] ∧
        handleObject left subs large = .ok [(0, .trim { iid := 3 })] := by
  intro subs bin negative long large
  -- the type is cut to 32 bits
  have hcode : PaxosMessageType.ofCode (4294967302 : UInt64).toUInt32.toNat = some .trim := by
    decide
  have hnegative : (-1 : Int64).toUInt64.toUInt32 = 4294967295 := by decide
  refine ⟨by decide +kernel, fun left => rfl, by decide +kernel, fun left => ⟨?_, ?_, rfl, ?_⟩⟩
  · show Except.ok [(0, WireMessage.trim { iid := (overwrite 32 (left.word 1) 1).toUInt32 })] = _
    rw [toUInt32_overwrite]
    rfl
  · show Except.ok [(0, WireMessage.trim { iid := (-1 : Int64).toUInt64.toUInt32 })] = _
    rw [hnegative]
  · refine Except.bind_eq_ok.mpr ⟨some (.trim { iid := 3 }), ?_, rfl⟩
    refine Except.bind_eq_ok.mpr ⟨_, rfl, Except.bind_eq_ok.mpr ⟨4294967302, rfl, ?_⟩⟩
    rw [hcode]
    rfl

/-! ## Reading a connection -/

/-- What `msgpack_unpack_next` returns and leaves behind, if it is called with the offset 0. There
is no object if it is left as `msgpack_unpacked_init` has made it, which is all zeros. -/
structure UnpackResult where
  result : Int
  offset : Nat
  data : Option MsgpackObject
  left : Leftovers

/-- The library, from version 1 on: a positive result stands for an object, which ends at the
offset; 0 for more bytes that are needed, and a negative result for an error. -/
structure Msgpack where
  unpackNext : List UInt8 → UnpackResult
  success : ∀ buf, 0 < (unpackNext buf).result →
    0 < (unpackNext buf).offset ∧ (unpackNext buf).offset ≤ buf.length
  failure : ∀ buf, (unpackNext buf).result ≤ 0 →
    (unpackNext buf).offset = 0 ∧ (unpackNext buf).data = none

/-- `msgpack_unpack_paxos_message` of what was unpacked. The array of an object that is all zeros is
a null pointer. -/
def UnpackResult.message (r : UnpackResult) : Except Fault (Option WireMessage) :=
  match r.data with
  | some o => msgpackUnpackPaxosMessage (.shared r.left) o
  | none => .error .nullPointer

/-- `recv_paxos_message`: what was received and how many bytes it took, unless 0 is returned. Any
other result of the library than 0 is taken for an object. -/
def recvPaxosMessage (lib : Msgpack) (buf : List UInt8) :
    Except Fault (Option (Option WireMessage × Nat)) :=
  if buf.length = 0 then .ok none
  else if (lib.unpackNext buf).result ≠ 0 then do
    let msg ← (lib.unpackNext buf).message
    .ok (some (msg, (lib.unpackNext buf).offset))
  else .ok none

/-- `on_read` at work: what is left in the buffer, and the calls of handlers. -/
structure Reading where
  buffer : List UInt8
  calls : List (Nat × WireMessage)
deriving DecidableEq

/-- A turn of the loop of `on_read`. -/
def readTurn (lib : Msgpack) (subs : List Subscription) (s : Reading) :
    Except Fault (Reading × Bool) := do
  match ← recvPaxosMessage lib s.buffer with
  | none => .ok (s, false)
  | some (msg, offset) =>
    .ok ({ buffer := s.buffer.drop offset
           calls := s.calls ++ dispatchMessage subs msg }, true)

/-- `on_read`. -/
def onRead (lib : Msgpack) (subs : List Subscription) (fuel : Nat) (buf : List UInt8) :
    Except Fault (Option Reading) :=
  loop (readTurn lib subs) fuel { buffer := buf, calls := [] }

/-- An object is found at the front of the buffer, and `rest` follows it. -/
def Follows (lib : Msgpack) (buf rest : List UInt8) : Prop :=
  0 < (lib.unpackNext buf).result ∧ rest = buf.drop (lib.unpackNext buf).offset

/-- The object can be read: it has a first element, and if that stands for a type, the fields of the
type behind it, with the bytes of the value. -/
def MsgpackObject.Legible (left : Leftovers) (o : MsgpackObject) : Prop :=
  ∃ tag, msgpackObjectAt (.shared left) o 0 = .ok tag ∧
    ∀ t, PaxosMessageType.ofCode (tag.word (left.word 0)).toUInt32.toNat = some t →
      (UnionReader.shared left).ReadsFrom o 1 (layout t)

/-- The front of the buffer is no error, and if there is an object, it can be read. -/
def Legible (lib : Msgpack) (buf : List UInt8) : Prop :=
  buf = [] ∨ 0 ≤ (lib.unpackNext buf).result ∧
    (0 < (lib.unpackNext buf).result →
      ∃ o, (lib.unpackNext buf).data = some o ∧ o.Legible (lib.unpackNext buf).left)

theorem exists_message_iff {r : UnpackResult} :
    (∃ msg, r.message = .ok msg) ↔ ∃ o, r.data = some o ∧ o.Legible r.left := by
  unfold UnpackResult.message
  constructor
  · rintro ⟨msg, h⟩
    cases hdata : r.data with
    | none =>
      rw [hdata] at h
      cases h
    | some o =>
      rw [hdata] at h
      obtain ⟨tag, n, htag, hn, -, hreads⟩ := exists_type_of_unpackPaxosMessage h
      cases hn
      exact ⟨o, rfl, tag, htag, hreads⟩
  · rintro ⟨o, hdata, tag, htag, hreads⟩
    obtain ⟨msg, hmsg, -⟩ := exists_unpackPaxosMessage htag rfl hreads
    rw [hdata]
    exact ⟨msg, hmsg⟩

section Reading

variable {lib : Msgpack} {subs : List Subscription} {s : Reading}

/-- **A turn**: there is nothing to read yet, an object is read, or the front of the buffer is not
legible and the process ends. -/
inductive ReadMove (lib : Msgpack) (subs : List Subscription) (s : Reading) :
    Except Fault (Reading × Bool) → Prop where
  | done (h : s.buffer = [] ∨ (lib.unpackNext s.buffer).result = 0) :
      ReadMove lib subs s (.ok (s, false))
  | object {msg : Option WireMessage} (hpos : 0 < (lib.unpackNext s.buffer).result)
      (hmsg : (lib.unpackNext s.buffer).message = .ok msg) :
      ReadMove lib subs s (.ok
        ({ buffer := s.buffer.drop (lib.unpackNext s.buffer).offset
           calls := s.calls ++ dispatchMessage subs msg }, true))
  | fault {e : Fault} (h : ¬ Legible lib s.buffer) : ReadMove lib subs s (.error e)

theorem readTurn_move (lib : Msgpack) (subs : List Subscription) (s : Reading) :
    ReadMove lib subs s (readTurn lib subs s) := by
  unfold readTurn recvPaxosMessage
  split
  · rename_i hlen
    exact .done (.inl (List.length_eq_zero_iff.mp hlen))
  · rename_i hlen
    have hne : s.buffer ≠ [] := fun h => hlen (List.length_eq_zero_iff.mpr h)
    split
    · rename_i hres
      cases hmsg : (lib.unpackNext s.buffer).message with
      | error e =>
        refine .fault ?_
        rintro (h | ⟨hnonneg, hread⟩)
        · exact hne h
        · obtain ⟨msg, hok⟩ := exists_message_iff.mpr (hread (by omega))
          cases hmsg.symm.trans hok
      | ok msg =>
        -- an error leaves an object that cannot be read
        have hpos : 0 < (lib.unpackNext s.buffer).result := by
          by_contra hneg
          obtain ⟨o, hdata, -⟩ := exists_message_iff.mp ⟨msg, hmsg⟩
          cases hdata.symm.trans (lib.failure s.buffer (by omega)).2
        exact .object hpos hmsg
    · rename_i hres
      exact .done (.inr (not_not.mp hres))

theorem Follows.length_lt {buf rest : List UInt8} (h : Follows lib buf rest) :
    rest.length < buf.length := by
  obtain ⟨hpos, hle⟩ := lib.success buf h.1
  rw [h.2, List.length_drop]
  omega

theorem exists_onRead_eq_some {buf : List UInt8}
    (h : ∀ rest, Relation.ReflTransGen (Follows lib) buf rest → Legible lib rest) :
    ∃ fuel s, onRead lib subs fuel buf = .ok (some s) := by
  have hturn : ∀ s : Reading, Relation.ReflTransGen (Follows lib) buf s.buffer →
      (∃ s', readTurn lib subs s = .ok (s', true) ∧
        Relation.ReflTransGen (Follows lib) buf s'.buffer ∧ s'.buffer.length < s.buffer.length) ∨
      ∃ s', readTurn lib subs s = .ok (s', false) ∧ True := by
    intro s hs
    have hmove := readTurn_move lib subs s
    generalize readTurn lib subs s = r at hmove
    cases hmove with
    | done => exact .inr ⟨s, rfl, trivial⟩
    | object hpos hmsg =>
      have hstep : Follows lib s.buffer (s.buffer.drop (lib.unpackNext s.buffer).offset) :=
        ⟨hpos, rfl⟩
      exact .inl ⟨_, rfl, hs.tail hstep, hstep.length_lt⟩
    | fault hill => exact absurd (h s.buffer hs) hill
  obtain ⟨s', hs', -⟩ := exists_loop_eq_some (fun s : Reading => s.buffer.length) hturn
    { buffer := buf, calls := [] } .refl
  exact ⟨_, s', hs'⟩

/-- A loop that ends has passed every object. -/
theorem loop_of_follows {buf rest : List UInt8} {fuel : Nat} {s₀ : Reading}
    (h : onRead lib subs fuel buf = .ok (some s₀))
    (hrest : Relation.ReflTransGen (Follows lib) buf rest) :
    ∃ (s : Reading) (fuel : Nat), s.buffer = rest ∧
      loop (readTurn lib subs) fuel s = .ok (some s₀) := by
  induction hrest with
  | refl => exact ⟨_, fuel, rfl, h⟩
  | @tail b b' hb hfollows ih =>
    obtain ⟨s, fuel, rfl, hloop⟩ := ih
    have hmove := readTurn_move lib subs s
    obtain ⟨k, -, hturn | ⟨s₁, hturn, hloop⟩⟩ := loop_eq_some_cases hloop
    · rw [hturn] at hmove
      cases hmove with
      | done hdone =>
        -- the turn would not have been the last one: there is an object
        obtain ⟨hpos, hle⟩ := lib.success s₀.buffer hfollows.1
        rcases hdone with hnil | hzero
        · have hlen : s₀.buffer.length = 0 := by rw [hnil, List.length_nil]
          omega
        · exact absurd hfollows.1 (by omega)
    · rw [hturn] at hmove
      cases hmove with
      | object => exact ⟨_, k, hfollows.2.symm, hloop⟩

theorem legible_of_loop {fuel : Nat} {s₀ : Reading}
    (h : loop (readTurn lib subs) fuel s = .ok (some s₀)) : Legible lib s.buffer := by
  have hmove := readTurn_move lib subs s
  obtain ⟨k, -, hturn | ⟨s₁, hturn, -⟩⟩ := loop_eq_some_cases h
  · rw [hturn] at hmove
    cases hmove with
    | done hdone => exact hdone.imp_right fun hzero => ⟨by omega, fun hpos => by omega⟩
  · rw [hturn] at hmove
    cases hmove with
    | object hpos hmsg => exact .inr ⟨by omega, fun _ => exists_message_iff.mp ⟨_, hmsg⟩⟩

end Reading

/-- **When reading a connection ends.** Whatever is in the buffer, the loop ends exactly if each of
the objects that follow one another in it can be read, and what follows them is not an error of the
library. Every turn that reports a message takes at least one byte. -/
theorem reading_ends (lib : Msgpack) (subs : List Subscription) (buf : List UInt8) :
    ((∃ fuel s, onRead lib subs fuel buf = .ok (some s)) ↔
      ∀ rest, Relation.ReflTransGen (Follows lib) buf rest → Legible lib rest) ∧
    ∀ s s', readTurn lib subs s = .ok (s', true) → s'.buffer.length < s.buffer.length := by
  refine ⟨⟨?_, exists_onRead_eq_some⟩, fun s s' hturn => ?_⟩
  · rintro ⟨fuel, s₀, h⟩ rest hrest
    obtain ⟨s, fuel, rfl, hloop⟩ := loop_of_follows h hrest
    exact legible_of_loop hloop
  · have hmove := readTurn_move lib subs s
    rw [hturn] at hmove
    cases hmove with
    | object hpos =>
      exact Follows.length_lt ⟨hpos, rfl⟩

/-- A library for numbers of one byte and arrays of them. -/
def Msgpack.smallNumbers : Msgpack where
  unpackNext
    | [] => ⟨0, 0, none, .wild⟩
    | b :: bs =>
      if isNumber b then ⟨2, 1, some (number b), .wild⟩
      else if b < 144 ∨ 160 ≤ b then ⟨-1, 0, none, .wild⟩
      else if bs.length < b.toNat - 144 then ⟨0, 0, none, .wild⟩
      else if (bs.take (b.toNat - 144)).all isNumber then
        ⟨2, b.toNat - 144 + 1, some (.array ((bs.take (b.toNat - 144)).map number)), .wild⟩
      else ⟨-1, 0, none, .wild⟩
  success buf h := by
    cases buf with
    | nil => cases h
    | cons b bs =>
      dsimp only at h ⊢
      split_ifs at h ⊢ with h₁ h₂ h₃ h₄
      · exact ⟨Nat.one_pos, Nat.succ_pos _⟩
      · cases h
      · cases h
      · exact ⟨Nat.succ_pos _, Nat.succ_le_succ (Nat.le_of_not_lt h₃)⟩
      · cases h
  failure buf h := by
    cases buf with
    | nil => exact ⟨rfl, rfl⟩
    | cons b bs =>
      dsimp only at h ⊢
      split_ifs at h ⊢
      · cases h
      · exact ⟨rfl, rfl⟩
      · exact ⟨rfl, rfl⟩
      · cases h
      · exact ⟨rfl, rfl⟩
where
  isNumber (b : UInt8) : Bool := b < 128 || 224 ≤ b
  number (b : UInt8) : MsgpackObject := if b < 128 then .u64 b.toUInt64 else .i64 b.toInt8.toInt64

/-- A trim message, an array whose second element is `-1`, and the front of another message. -/
theorem reading_ends_two :
    let lib := Msgpack.smallNumbers
    let buf : List UInt8 := [0x92, 6, 3, 0x92, 6, 0xff, 0x92, 6]
    onRead lib [⟨.trim, 0⟩] 3 buf = .ok (some ⟨[0x92, 6],
        [(0, .trim { iid := 3 }), (0, .trim { iid := 4294967295 })]⟩) ∧
      ∀ rest, Relation.ReflTransGen (Follows lib) buf rest → Legible lib rest := by
  intro lib buf
  have hread : onRead lib [⟨.trim, 0⟩] 3 buf = .ok (some ⟨[0x92, 6],
      [(0, .trim { iid := 3 }), (0, .trim { iid := 4294967295 })]⟩) := by decide +kernel
  exact ⟨hread, (reading_ends lib [⟨.trim, 0⟩] buf).1.mp ⟨3, _, hread⟩⟩

/-- **A byte that ends the process.** `0xc1` is no object; the negative result is taken for one, and
the object is read through a null pointer. -/
theorem reading_fails :
    let lib := Msgpack.smallNumbers
    (lib.unpackNext [0xc1]).result = -1 ∧
      onRead lib [⟨.trim, 0⟩] 1 [0xc1] = .error .nullPointer ∧
      ¬ ∃ fuel s, onRead lib [⟨.trim, 0⟩] fuel [0xc1] = .ok (some s) := by
  intro lib
  have hturn : readTurn lib [⟨.trim, 0⟩] ⟨[0xc1], []⟩ = .error .nullPointer := by decide +kernel
  refine ⟨rfl, loop_fault hturn, ?_⟩
  rintro ⟨fuel, s, h⟩
  cases fuel with
  | zero => cases h
  | succ fuel => cases (loop_fault hturn).symm.trans h

end LibPaxos.EvPaxos
