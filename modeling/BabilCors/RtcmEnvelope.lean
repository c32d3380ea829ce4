import BabilCors.PyValue
import BabilCors.Rtcm
import BabilCors.TextEncodings
import BabilCors.WireFormat

/-!
# The envelope of a frame

`ProtobufSerializer` puts a frame and what is known of it into a message with
fields of fixed widths.  The protobuf library is a parameter; what it is
documented to do is a statement about it, and the wire format is a library
that does so.
-/

namespace BabilCors

open Py WireFormat

/-! ## The library -/

structure RtcmEnvelope where
  rtcm : Bytes
  msgType : ℕ
  stationId : ℕ
  tsUnixMs : ℤ
  crcErrors : ℕ
  mountpoint : String
  deriving DecidableEq, Repr

def FitsUint32 (v : ℤ) : Prop :=
  0 ≤ v ∧ v < 2 ^ 32

def FitsInt64 (v : ℤ) : Prop :=
  -2 ^ 63 ≤ v ∧ v < 2 ^ 63

instance (v : ℤ) : Decidable (FitsUint32 v) :=
  inferInstanceAs (Decidable (_ ∧ _))

instance (v : ℤ) : Decidable (FitsInt64 v) :=
  inferInstanceAs (Decidable (_ ∧ _))

/-- Every number is one that its field can hold. -/
structure RtcmEnvelope.InRange (m : RtcmEnvelope) : Prop where
  msgType : m.msgType < 2 ^ 32
  stationId : m.stationId < 2 ^ 32
  tsUnixMs : FitsInt64 m.tsUnixMs
  crcErrors : m.crcErrors < 2 ^ 32

/-- What the serializer uses of protobuf: assigning an integer to a field of
one of the two kinds, and the two conversions of a message. -/
structure ProtobufLib where
  assignUint32 : ℤ → Except PyErr ℕ
  assignInt64 : ℤ → Except PyErr ℤ
  serializeToString : RtcmEnvelope → Bytes
  parseFromString : Bytes → Except PyErr RtcmEnvelope

/-- Values in range round trip, and an integer out of the range of its field
raises `ValueError`. -/
structure ProtobufLib.Documented (lib : ProtobufLib) : Prop where
  uint32 : ∀ v, FitsUint32 v → lib.assignUint32 v = .ok v.toNat
  uint32_raises : ∀ v, ¬ FitsUint32 v →
    ∃ text, lib.assignUint32 v = .error (.valueError text)
  int64 : ∀ v, FitsInt64 v → lib.assignInt64 v = .ok v
  int64_raises : ∀ v, ¬ FitsInt64 v →
    ∃ text, lib.assignInt64 v = .error (.valueError text)
  roundTrip : ∀ m : RtcmEnvelope, m.InRange →
    lib.parseFromString (lib.serializeToString m) = .ok m

/-! ## The serializer -/

/-- What `publish_rtcm_frame` puts into the queue of the relay. -/
structure RelayItem where
  rtcm : Bytes
  msgType : ℤ
  stationId : ℤ
  crcErrors : ℤ
  deriving DecidableEq, Repr

namespace ProtobufLib

/-- `serialize`, at a time in milliseconds. -/
def serialize (lib : ProtobufLib) (item : RelayItem) (mountpoint : String)
    (tsMs : ℤ) : Except PyErr Bytes := do
  let msgType ← lib.assignUint32 item.msgType
  let stationId ← lib.assignUint32 item.stationId
  let tsUnixMs ← lib.assignInt64 tsMs
  let crcErrors ← lib.assignUint32 item.crcErrors
  return lib.serializeToString
    ⟨item.rtcm, msgType, stationId, tsUnixMs, crcErrors, mountpoint⟩

def deserialize (lib : ProtobufLib) (payload : Bytes) :
    Except PyErr RtcmEnvelope :=
  lib.parseFromString payload

/-- The item is serialized, and the result deserializes to its values. -/
def Envelopes (lib : ProtobufLib) (item : RelayItem) (mountpoint : String)
    (tsMs : ℤ) : Prop :=
  ∃ payload m, lib.serialize item mountpoint tsMs = .ok payload ∧
    lib.deserialize payload = .ok m ∧ m.rtcm = item.rtcm ∧
    (m.msgType : ℤ) = item.msgType ∧ (m.stationId : ℤ) = item.stationId ∧
    (m.crcErrors : ℤ) = item.crcErrors ∧ m.mountpoint = mountpoint

variable {lib : ProtobufLib}

theorem Documented.of_assignUint32 (hlib : lib.Documented) {v : ℤ} {n : ℕ}
    (hassign : lib.assignUint32 v = .ok n) : FitsUint32 v := by
  by_contra hrange
  obtain ⟨text, herror⟩ := hlib.uint32_raises v hrange
  rw [herror] at hassign
  cases hassign

theorem Documented.of_assignInt64 (hlib : lib.Documented) {v n : ℤ}
    (hassign : lib.assignInt64 v = .ok n) : FitsInt64 v := by
  by_contra hrange
  obtain ⟨text, herror⟩ := hlib.int64_raises v hrange
  rw [herror] at hassign
  cases hassign

/-- The four numbers of an envelope fit their fields. -/
structure Fits (item : RelayItem) (tsMs : ℤ) : Prop where
  msgType : FitsUint32 item.msgType
  stationId : FitsUint32 item.stationId
  tsUnixMs : FitsInt64 tsMs
  crcErrors : FitsUint32 item.crcErrors

theorem Documented.fits_of_serialize (hlib : lib.Documented)
    {item : RelayItem} {mountpoint : String} {tsMs : ℤ} {payload : Bytes}
    (hserialize : lib.serialize item mountpoint tsMs = .ok payload) :
    Fits item tsMs := by
  obtain ⟨msgType, hmsgType, hserialize⟩ := bind_eq_ok.mp hserialize
  obtain ⟨stationId, hstationId, hserialize⟩ := bind_eq_ok.mp hserialize
  obtain ⟨tsUnixMs, htsUnixMs, hserialize⟩ := bind_eq_ok.mp hserialize
  obtain ⟨crcErrors, hcrcErrors, -⟩ := bind_eq_ok.mp hserialize
  exact ⟨hlib.of_assignUint32 hmsgType, hlib.of_assignUint32 hstationId,
    hlib.of_assignInt64 htsUnixMs, hlib.of_assignUint32 hcrcErrors⟩

/-- An item has an envelope exactly if its numbers fit their fields. -/
theorem Documented.envelopes_iff (hlib : lib.Documented) (item : RelayItem)
    (mountpoint : String) (tsMs : ℤ) :
    lib.Envelopes item mountpoint tsMs ↔ Fits item tsMs := by
  constructor
  · rintro ⟨payload, m, hserialize, -⟩
    exact hlib.fits_of_serialize hserialize
  · rintro ⟨hmsgType, hstationId, htsUnixMs, hcrcErrors⟩
    let m : RtcmEnvelope := ⟨item.rtcm, item.msgType.toNat,
      item.stationId.toNat, tsMs, item.crcErrors.toNat, mountpoint⟩
    have hrange : m.InRange := by
      unfold FitsUint32 at hmsgType hstationId hcrcErrors
      refine ⟨?_, ?_, htsUnixMs, ?_⟩
      · change item.msgType.toNat < 2 ^ 32
        omega
      · change item.stationId.toNat < 2 ^ 32
        omega
      · change item.crcErrors.toNat < 2 ^ 32
        omega
    refine ⟨lib.serializeToString m, m, ?_, hlib.roundTrip m hrange, rfl,
      Int.toNat_of_nonneg hmsgType.1, Int.toNat_of_nonneg hstationId.1,
      Int.toNat_of_nonneg hcrcErrors.1, rfl⟩
    unfold serialize
    rw [hlib.uint32 _ hmsgType, hlib.uint32 _ hstationId,
      hlib.int64 _ htsUnixMs, hlib.uint32 _ hcrcErrors]
    rfl

end ProtobufLib

/-! ## The wire format -/

namespace RtcmEnvelope

/-- The fields are optional ones with presence: one that has been assigned is
written, whatever its value. -/
def toFields (m : RtcmEnvelope) : List Field :=
  [(1, .bytes m.rtcm), (2, .varint m.msgType), (3, .varint m.stationId),
    (4, .varint (m.tsUnixMs % 2 ^ 64).toNat), (5, .varint m.crcErrors),
    (6, .bytes (utf8Encode m.mountpoint))]

def signed64 (n : ℕ) : ℤ :=
  if n < 2 ^ 63 then n else n - 2 ^ 64

/-- A text that is not UTF-8 is refused. -/
def ofFields (fields : List Field) : Option RtcmEnvelope :=
  let text := safeDecode (bytesOf 6 fields)
  if utf8Encode text = bytesOf 6 fields then
    some
      { rtcm := bytesOf 1 fields
        msgType := varintOf 2 fields % 2 ^ 32
        stationId := varintOf 3 fields % 2 ^ 32
        tsUnixMs := signed64 (varintOf 4 fields % 2 ^ 64)
        crcErrors := varintOf 5 fields % 2 ^ 32
        mountpoint := text }
  else none

theorem ofFields_toFields {m : RtcmEnvelope} (hm : m.InRange) :
    ofFields m.toFields = some m := by
  have hrtcm : bytesOf 1 m.toFields = m.rtcm := rfl
  have hmsgType : varintOf 2 m.toFields = m.msgType := rfl
  have hstationId : varintOf 3 m.toFields = m.stationId := rfl
  have hts : varintOf 4 m.toFields = (m.tsUnixMs % 2 ^ 64).toNat := rfl
  have hcrcErrors : varintOf 5 m.toFields = m.crcErrors := rfl
  have hmountpoint : bytesOf 6 m.toFields = utf8Encode m.mountpoint := rfl
  have hsigned : signed64 ((m.tsUnixMs % 2 ^ 64).toNat % 2 ^ 64) =
      m.tsUnixMs := by
    have hrange : -2 ^ 63 ≤ m.tsUnixMs ∧ m.tsUnixMs < 2 ^ 63 := hm.tsUnixMs
    unfold signed64
    split_ifs
    · omega
    · omega
  unfold ofFields
  rw [hrtcm, hmsgType, hstationId, hts, hcrcErrors, hmountpoint,
    safeDecode_utf8Encode, if_pos rfl, hsigned, Nat.mod_eq_of_lt hm.msgType,
    Nat.mod_eq_of_lt hm.stationId, Nat.mod_eq_of_lt hm.crcErrors]

end RtcmEnvelope

namespace ProtobufLib

/-- The library on the wire format of the message. -/
def wire : ProtobufLib where
  assignUint32 v :=
    if FitsUint32 v then .ok v.toNat
    else .error (.valueError ("Value out of range: " ++ toString v))
  assignInt64 v :=
    if FitsInt64 v then .ok v
    else .error (.valueError ("Value out of range: " ++ toString v))
  serializeToString m := encode m.toFields
  parseFromString data :=
    ((decode data).bind RtcmEnvelope.ofFields).elim
      (.error (.valueError "Error parsing message")) .ok

theorem wire_documented : wire.Documented where
  uint32 _ hv := if_pos hv
  uint32_raises _ hv := ⟨_, if_neg hv⟩
  int64 _ hv := if_pos hv
  int64_raises _ hv := ⟨_, if_neg hv⟩
  roundTrip m hm := by
    have hparse : (decode (encode m.toFields)).bind RtcmEnvelope.ofFields =
        some m := by
      rw [decode_encode, Option.bind_some, RtcmEnvelope.ofFields_toFields hm]
    change ((decode (encode m.toFields)).bind RtcmEnvelope.ofFields).elim _ _ =
      _
    rw [hparse]
    rfl

end ProtobufLib

end BabilCors
