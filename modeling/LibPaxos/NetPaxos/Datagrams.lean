import LibPaxos.NetPaxos.MessagePack

/-!
# What the decoder reads of a datagram

`unpack_paxos_message` is given the receive buffer and not the length of the datagram. It reads the
fields of fixed size from the buffer, and then as many bytes as the length of the value says.

* **`unpack_inside_datagram`** — the value read is part of the datagram exactly if the datagram
  covers the length that it declares.
* **`unpack_outside_datagram`** — other lengths are read past the datagram, past the buffer, or come
  out negative.
* `length_value_of_unpack` — what is read fits into the buffer.
-/

namespace LibPaxos.NetPaxos

open Buffer

/-! ## The field with the value -/

/-- Where a message has its value, if it has one. -/
def valueField : PaxosMessageType → Option Nat
  | .prepare | .promise | .accept | .accepted | .preempted => some valueOffset
  | .clientValue => some 2
  | .repeated | .trim | .acceptorState => none

theorem add_four_le_of_valueField {t : PaxosMessageType} {offset : Nat}
    (h : valueField t = some offset) : offset + 4 ≤ bufsize := by
  cases t <;> cases h <;> decide

/-- The number that is read from a field of `w` bytes. -/
def numberAt (w : Nat) (p : List UInt8) (offset : Nat) : Nat :=
  beNat ((p.drop offset).take w)

/-- The message type that a buffer begins with. -/
def typeOf (p : List UInt8) : Option PaxosMessageType :=
  PaxosMessageType.ofCode (numberAt 2 p msgtypeOffset)

/-- `paxos_value_len` as `unpack_value` fills it in: 32 bits, taken for an `int`. -/
def unpackValueLen (p : List UInt8) (offset : Nat) : Except Fault Int := do
  let len ← unpackUint32 p offset
  .ok len.toInt32.toInt

section Fields

variable {p : List UInt8} {offset : Nat}

theorem numberAt_lt (w : Nat) : numberAt w p offset < 256 ^ w := by
  refine Nat.lt_of_lt_of_le (beNat_lt _) (Nat.pow_le_pow_right (by decide) ?_)
  simp

theorem unpackUint32_ok (h : offset + 4 ≤ p.length) :
    unpackUint32 p offset = .ok (UInt32.ofNat (numberAt 4 p offset)) := by
  unfold unpackUint32
  rw [read_eq_some.mpr ⟨h, rfl⟩]
  rfl

theorem unpackUint16_ok (h : offset + 2 ≤ p.length) :
    unpackUint16 p offset = .ok (UInt16.ofNat (numberAt 2 p offset)) := by
  unfold unpackUint16
  rw [read_eq_some.mpr ⟨h, rfl⟩]
  rfl

/-- A value lies behind its length, inside the buffer. -/
theorem length_of_unpackValue {v : PaxosValue} (h : unpackValue p offset = .ok v) :
    offset + 4 + v.length ≤ p.length := by
  obtain ⟨len, hlen, h⟩ := Except.bind_eq_ok.mp h
  obtain ⟨bytes, hbytes, -⟩ := Except.bind_eq_ok.mp hlen
  obtain ⟨hfield, -⟩ := read_eq_some.mp (inBounds_eq_ok hbytes)
  split at h
  · obtain ⟨hroom, rfl⟩ := read_eq_some.mp (inBounds_eq_ok h)
    rw [List.length_take, List.length_drop]
    omega
  · cases h
    simpa using hfield

end Fields

/-! ## Messages

The fields in front of the value have fixed offsets in the buffer and can always be read. Only the
value can be too long. -/

section Messages

variable {p : List UInt8} {t : PaxosMessageType} {m : WireMessage} {offset : Nat} {v : PaxosValue}

/-- The fields in front of the value are inside every receive buffer. -/
theorem unpackFields_ok (hp : p.length = bufsize) (hv : unpackValue p valueOffset = .ok v) :
    unpackFields p
      = .ok (UInt32.ofNat (numberAt 4 p iidOffset), UInt16.ofNat (numberAt 2 p ballotOffset),
          UInt16.ofNat (numberAt 2 p valueBallotOffset), UInt16.ofNat (numberAt 2 p aidOffset),
          v) := by
  have hsize : bufsize = 128 := rfl
  refine Except.bind_eq_ok.mpr ⟨_, unpackUint32_ok (by unfold iidOffset; omega), ?_⟩
  refine Except.bind_eq_ok.mpr ⟨_, unpackUint16_ok (by unfold ballotOffset; omega), ?_⟩
  refine Except.bind_eq_ok.mpr ⟨_, unpackUint16_ok (by unfold valueBallotOffset; omega), ?_⟩
  refine Except.bind_eq_ok.mpr ⟨_, unpackUint16_ok (by unfold aidOffset; omega), ?_⟩
  exact Except.bind_eq_ok.mpr ⟨v, hv, rfl⟩

theorem unpackValue_of_unpackFields {fields : UInt32 × UInt16 × UInt16 × UInt16 × PaxosValue}
    (h : unpackFields p = .ok fields) : unpackValue p valueOffset = .ok fields.2.2.2.2 := by
  obtain ⟨iid, -, h⟩ := Except.bind_eq_ok.mp h
  obtain ⟨ballot, -, h⟩ := Except.bind_eq_ok.mp h
  obtain ⟨valueBallot, -, h⟩ := Except.bind_eq_ok.mp h
  obtain ⟨aid, -, h⟩ := Except.bind_eq_ok.mp h
  obtain ⟨value, hvalue, h⟩ := Except.bind_eq_ok.mp h
  cases h
  exact hvalue

/-- The value decides whether the message is read: the other fields are inside the buffer. -/
theorem unpackCase_isOk (hp : p.length = bufsize)
    (hv : ∀ offset, valueField t = some offset → ∃ v, unpackValue p offset = .ok v) :
    ∃ m, unpackCase p t = .ok m := by
  have hnumber : ∀ offset, offset ≤ 6 →
      unpackUint32 p offset = .ok (UInt32.ofNat (numberAt 4 p offset)) := by
    intro offset hle
    exact unpackUint32_ok (by rw [hp]; unfold bufsize; omega)
  cases t with
  | prepare | promise | accept | accepted | preempted =>
    obtain ⟨v, hv⟩ := hv valueOffset rfl
    exact ⟨_, Except.bind_eq_ok.mpr
      ⟨_, Except.bind_eq_ok.mpr ⟨_, unpackFields_ok hp hv, rfl⟩, rfl⟩⟩
  | repeated | acceptorState =>
    exact ⟨_, Except.bind_eq_ok.mpr
      ⟨_, Except.bind_eq_ok.mpr ⟨_, hnumber 2 (by omega),
        Except.bind_eq_ok.mpr ⟨_, hnumber 6 (by omega), rfl⟩⟩, rfl⟩⟩
  | trim =>
    exact ⟨_, Except.bind_eq_ok.mpr
      ⟨_, Except.bind_eq_ok.mpr ⟨_, hnumber 2 (by omega), rfl⟩, rfl⟩⟩
  | clientValue =>
    obtain ⟨v, hv⟩ := hv 2 rfl
    exact ⟨_, Except.bind_eq_ok.mpr ⟨_, Except.bind_eq_ok.mpr ⟨_, hv, rfl⟩, rfl⟩⟩

/-- The value of a message that was read. -/
theorem unpackValue_of_unpackCase (h : unpackCase p t = .ok m) (ht : valueField t = some offset) :
    unpackValue p offset = .ok m.value := by
  cases t with
  | prepare | promise | accept | accepted | preempted =>
    cases ht
    obtain ⟨v, hv, h⟩ := Except.bind_eq_ok.mp h
    obtain ⟨fields, hfields, hv⟩ := Except.bind_eq_ok.mp hv
    cases h
    cases hv
    exact unpackValue_of_unpackFields hfields
  | clientValue =>
    cases ht
    obtain ⟨v, hv, h⟩ := Except.bind_eq_ok.mp h
    obtain ⟨value, hvalue, hv⟩ := Except.bind_eq_ok.mp hv
    cases h
    cases hv
    exact hvalue
  | repeated | trim | acceptorState => cases ht

theorem unpackType_ok (hp : p.length = bufsize) :
    ∃ type, unpackUint16 p msgtypeOffset = .ok type ∧
      PaxosMessageType.ofCode type.toNat = typeOf p := by
  have hlt : numberAt 2 p msgtypeOffset < 256 ^ 2 := numberAt_lt 2
  refine ⟨_, unpackUint16_ok (by rw [hp]; decide), ?_⟩
  rw [UInt16.toNat_ofNat_of_lt' hlt, typeOf]

/-- The type at the front of the buffer selects the case. -/
theorem unpackPaxosMessage_of_type (hp : p.length = bufsize) (ht : typeOf p = some t)
    (hm : unpackCase p t = .ok m) : unpackPaxosMessage p = .ok (some m) := by
  obtain ⟨type, htype, hcode⟩ := unpackType_ok hp
  refine Except.bind_eq_ok.mpr ⟨type, htype, ?_⟩
  rw [hcode, ht]
  exact Except.bind_eq_ok.mpr ⟨m, hm, rfl⟩

theorem unpackPaxosMessage_of_unknown (hp : p.length = bufsize) (ht : typeOf p = none) :
    unpackPaxosMessage p = .ok none := by
  obtain ⟨type, htype, hcode⟩ := unpackType_ok hp
  refine Except.bind_eq_ok.mpr ⟨type, htype, ?_⟩
  rw [hcode, ht]
  rfl

theorem unpackCase_of_unpack (hp : p.length = bufsize)
    (h : unpackPaxosMessage p = .ok (some m)) :
    typeOf p = some m.type ∧ unpackCase p m.type = .ok m := by
  obtain ⟨type, htype, hcode⟩ := unpackType_ok hp
  obtain ⟨type', htype', h⟩ := Except.bind_eq_ok.mp h
  rw [htype] at htype'
  cases htype'
  rw [hcode] at h
  cases ht : typeOf p with
  | none =>
    rw [ht] at h
    cases h
  | some t =>
    rw [ht] at h
    obtain ⟨m', hm', h⟩ := Except.bind_eq_ok.mp h
    cases h
    rw [type_of_unpackCase hm']
    exact ⟨rfl, hm'⟩

theorem typeOf_of_unpack_none (hp : p.length = bufsize) (h : unpackPaxosMessage p = .ok none) :
    typeOf p = none := by
  cases ht : typeOf p with
  | none => rfl
  | some t =>
    obtain ⟨type, htype, hcode⟩ := unpackType_ok hp
    obtain ⟨type', htype', h⟩ := Except.bind_eq_ok.mp h
    rw [htype] at htype'
    cases htype'
    rw [hcode, ht] at h
    obtain ⟨m, -, h⟩ := Except.bind_eq_ok.mp h
    cases h

/-- **What is read fits into the buffer.** -/
theorem length_value_of_unpack (hp : p.length = bufsize)
    (h : unpackPaxosMessage p = .ok (some m)) (ht : valueField m.type = some offset) :
    offset + 4 + m.value.length ≤ bufsize := by
  rw [← hp]
  exact length_of_unpackValue (unpackValue_of_unpackCase (unpackCase_of_unpack hp h).2 ht)

end Messages

/-! ## Datagrams

A datagram lies at the front of a receive buffer that is zero behind it. The field with the length
is read from there even if the datagram is too short to have one, and then says 0. -/

section Datagrams

variable {d : List UInt8}

/-- A datagram in the receive buffer is followed by zeros. -/
theorem received_eq (hn : d.length ≤ bufsize) :
    received d d.length = d ++ List.replicate (bufsize - d.length) 0 := by
  unfold received overlay
  rw [Nat.min_eq_left hn, List.take_length, List.drop_replicate]

theorem length_received (p : List UInt8) (msglen : Nat) : (received p msglen).length = bufsize := by
  unfold received
  rw [length_overlay, List.length_replicate]
  rw [List.length_take, List.length_replicate]
  omega

/-- The length that the datagram declares for its value does not exceed the bytes that follow. -/
def Covered (d : List UInt8) : Prop :=
  ∀ t ∈ typeOf (received d d.length), ∀ offset ∈ valueField t,
    numberAt 4 (received d d.length) offset = 0 ∨
      offset + 4 + numberAt 4 (received d d.length) offset ≤ d.length

instance : DecidablePred Covered := fun d =>
  inferInstanceAs (Decidable (∀ t ∈ typeOf (received d d.length), ∀ offset ∈ valueField t, _))

/-- The value of the message consists of the bytes of the datagram behind the length, and the length
is not negative. -/
structure InsideDatagram (d : List UInt8) (m : WireMessage) : Prop where
  bytes : ∀ offset, valueField m.type = some offset → m.value <+: d.drop (offset + 4)
  length : ∀ offset, valueField m.type = some offset →
    unpackValueLen (received d d.length) offset = .ok (m.value.length : Int)

theorem unpackValue_covered (hn : d.length ≤ bufsize) {offset : Nat} (ho : offset + 4 ≤ bufsize)
    (hlen : numberAt 4 (received d d.length) offset = 0 ∨
      offset + 4 + numberAt 4 (received d d.length) offset ≤ d.length) :
    unpackValue (received d d.length) offset
      = .ok ((d.drop (offset + 4)).take (numberAt 4 (received d d.length) offset)) := by
  have hsize : bufsize = 128 := rfl
  have hfield : unpackUint32 (received d d.length) offset = _ :=
    unpackUint32_ok (by rw [length_received]; exact ho)
  have hlt : numberAt 4 (received d d.length) offset < 256 ^ 4 := numberAt_lt 4
  refine Except.bind_eq_ok.mpr ⟨_, hfield, ?_⟩
  rw [UInt32.toNat_ofNat_of_lt' hlt]
  split
  · rw [read_eq_some.mpr ⟨by rw [length_received]; omega, rfl⟩]
    show Except.ok _ = _
    rw [received_eq hn] at *
    rw [List.drop_append_of_le_length (by omega), List.take_append_of_le_length]
    rw [List.length_drop]
    omega
  · have hzero : numberAt 4 (received d d.length) offset = 0 := by omega
    rw [hzero, List.take_zero]

theorem unpackValueLen_covered (hn : d.length ≤ bufsize) {offset : Nat} (ho : offset + 4 ≤ bufsize)
    (hlen : numberAt 4 (received d d.length) offset = 0 ∨
      offset + 4 + numberAt 4 (received d d.length) offset ≤ d.length) :
    unpackValueLen (received d d.length) offset
      = .ok (numberAt 4 (received d d.length) offset : Int) := by
  have hsize : bufsize = 128 := rfl
  have hfield : unpackUint32 (received d d.length) offset = _ :=
    unpackUint32_ok (by rw [length_received]; exact ho)
  refine Except.bind_eq_ok.mpr ⟨_, hfield, ?_⟩
  rw [toInt_toInt32_ofNat (numberAt_lt 4), if_pos (by omega)]

/-- A message that was read from a covered datagram: its value is the part of the datagram behind
the length, if there is one. -/
theorem insideDatagram_of_unpackCase (hn : d.length ≤ bufsize) (hc : Covered d)
    {t : PaxosMessageType} {m : WireMessage} (ht : typeOf (received d d.length) = some t)
    (hm : unpackCase (received d d.length) t = .ok m) : InsideDatagram d m := by
  have htype := type_of_unpackCase hm
  have hvalue : ∀ offset, valueField t = some offset →
      m.value = (d.drop (offset + 4)).take (numberAt 4 (received d d.length) offset) := by
    intro offset hoff
    have hread := unpackValue_covered hn (add_four_le_of_valueField hoff) (hc t ht offset hoff)
    rw [unpackValue_of_unpackCase hm hoff] at hread
    exact Except.ok.inj hread
  constructor
  · intro offset hoff
    rw [hvalue offset (htype ▸ hoff)]
    exact List.take_prefix _ _
  · intro offset hoff
    rw [htype] at hoff
    have hlen := hc t ht offset hoff
    rw [unpackValueLen_covered hn (add_four_le_of_valueField hoff) hlen, hvalue offset hoff,
      List.length_take, List.length_drop]
    congr 2
    omega

/-- The length that comes out as an `int` that is not negative. -/
theorem numberAt_of_unpackValueLen {offset k : Nat} (ho : offset + 4 ≤ bufsize)
    (h : unpackValueLen (received d d.length) offset = .ok (k : Int)) :
    numberAt 4 (received d d.length) offset = k := by
  have hfield : unpackUint32 (received d d.length) offset = _ :=
    unpackUint32_ok (by rw [length_received]; exact ho)
  have hlt : numberAt 4 (received d d.length) offset < 256 ^ 4 := numberAt_lt 4
  obtain ⟨len, hlen, h⟩ := Except.bind_eq_ok.mp h
  rw [hfield] at hlen
  cases hlen
  have hint := Except.ok.inj h
  rw [toInt_toInt32_ofNat hlt] at hint
  split at hint <;> omega

/-- A message that lies inside its datagram was covered by it. -/
theorem covered_of_insideDatagram {m : WireMessage}
    (hm : unpackPaxosMessage (received d d.length) = .ok (some m)) (h : InsideDatagram d m) :
    Covered d := by
  have hp := length_received d d.length
  obtain ⟨htype, hcase⟩ := unpackCase_of_unpack hp hm
  intro t ht offset hoff
  cases Option.some.inj (htype.symm.trans ht)
  have hnumber := numberAt_of_unpackValueLen (add_four_le_of_valueField hoff) (h.length offset hoff)
  have hle := (h.bytes offset hoff).length_le
  rw [List.length_drop] at hle
  omega

end Datagrams

/-- **The decoder stays inside the datagram** exactly if the length declared for the value does not
exceed the bytes present: then it reads from the receive buffer only, and what it returns as the
value are the bytes of the datagram behind the length, as many as the length says, which is not
negative. -/
theorem unpack_inside_datagram (d : List UInt8) (hn : d.length ≤ bufsize) :
    (∃ r, unpackPaxosMessage (received d d.length) = .ok r ∧
      ∀ m, r = some m → InsideDatagram d m) ↔ Covered d := by
  have hp := length_received d d.length
  refine ⟨fun ⟨r, hr, hinside⟩ => ?_, fun hc => ?_⟩
  · cases r with
    | some m => exact covered_of_insideDatagram hr (hinside m rfl)
    | none =>
      intro t ht
      rw [typeOf_of_unpack_none hp hr] at ht
      cases ht
  cases ht : typeOf (received d d.length) with
  | none => exact ⟨none, unpackPaxosMessage_of_unknown hp ht, fun m hm => by cases hm⟩
  | some t =>
    obtain ⟨m, hm⟩ := unpackCase_isOk hp fun offset hoff =>
      ⟨_, unpackValue_covered hn (add_four_le_of_valueField hoff) (hc t ht offset hoff)⟩
    refine ⟨some m, unpackPaxosMessage_of_type hp ht hm, ?_⟩
    rintro _ ⟨⟩
    exact insideDatagram_of_unpackCase hn hc ht hm

/-- An accept whose value of three bytes is declared to have the length `len`. -/
def declaring (len : List UInt8) : List UInt8 :=
  [0, 2, 0, 0, 0, 7, 0, 20, 0, 0, 0, 0] ++ len ++ [1, 2, 3]

/-- The length is right. -/
theorem unpack_inside_datagram_three :
    unpackPaxosMessage (received (declaring [0, 0, 0, 3]) 19)
        = .ok (some (.accept { iid := 7, ballot := 20, value := [1, 2, 3] })) ∧
      InsideDatagram (declaring [0, 0, 0, 3])
        (.accept { iid := 7, ballot := 20, value := [1, 2, 3] }) := by
  obtain ⟨r, hr, hinside⟩ :=
    (unpack_inside_datagram (declaring [0, 0, 0, 3]) (by decide)).mpr (by decide)
  have hread : unpackPaxosMessage (received (declaring [0, 0, 0, 3]) 19)
      = .ok (some (.accept { iid := 7, ballot := 20, value := [1, 2, 3] })) := by
    decide +kernel
  exact ⟨hread, hinside _ (Except.ok.inj (hr.symm.trans hread))⟩

/-- **The decoder leaves the datagram**: a length of five takes two bytes that were not received
into the value, a length of 255 is read past the receive buffer, and a length with the top bit set
is negative. None of the three is rejected. -/
theorem unpack_outside_datagram :
    unpackPaxosMessage (received (declaring [0, 0, 0, 5]) 19)
        = .ok (some (.accept { iid := 7, ballot := 20, value := [1, 2, 3, 0, 0] })) ∧
      unpackPaxosMessage (received (declaring [0, 0, 0, 255]) 19) = .error .outOfBounds ∧
      unpackPaxosMessage (received (declaring [128, 0, 0, 3]) 19)
        = .ok (some (.accept { iid := 7, ballot := 20, value := [] })) ∧
      unpackValueLen (received (declaring [128, 0, 0, 3]) 19) valueOffset = .ok (-2147483645) := by
  decide +kernel

end LibPaxos.NetPaxos
