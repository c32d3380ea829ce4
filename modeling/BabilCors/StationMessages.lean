import Mathlib.Data.Nat.Bitwise
import BabilCors.BitReader
import BabilCors.ExactFloat

/-!
# The position messages 1005 and 1006

`parse_rtcm_1005_1006`: fields of changing widths across the byte boundaries,
with coordinates in two's complement and in units of a tenth of a millimetre.
-/

namespace BabilCors
namespace Rtcm

open BitStrings Py

section Decoder

variable {F : Type} [PyFloat F]

/-- `float(v) * 0.0001`. -/
def metres (v : ℤ) : F :=
  PyFloat.mul (PyFloat.ofInt v) (PyFloat.quot 1 10000)

/-- The sign of a number of 38 bits. -/
def signed38 (v : ℕ) : ℤ :=
  if v &&& (1 <<< 37) ≠ 0 then (v : ℤ) - (1 <<< 38 : ℕ) else v

def s38 (br : BitReader) : Option (F × BitReader) :=
  (br.readBits 38).map fun (v, br) => (metres (signed38 v), br)

def parseRtcm10051006 (payload : Bytes) :
    Option (PyDict String (Json F)) := do
  let (mt, br) ← (BitReader.new payload).readBits 12
  if mt ≠ 1005 ∧ mt ≠ 1006 then none
  else
    let (stid, br) ← br.readBits 12
    let (_, br) ← br.readBits 6
    let (_, br) ← br.readBits 1
    let (_, br) ← br.readBits 1
    let (_, br) ← br.readBits 1
    let (_, br) ← br.readBits 1
    let (x, br) ← s38 br
    let (_, br) ← br.readBits 2
    let (y, br) ← s38 br
    let (_, br) ← br.readBits 2
    let (z, br) ← s38 br
    let h ←
      if mt = 1006 then
        (br.readBits 16).map fun (hv, _) => Json.float (metres hv)
      else some .null
    return [("station_id", .int stid), ("ecef_x_m", .float x),
      ("ecef_y_m", .float y), ("ecef_z_m", .float z),
      ("antenna_height_m", h)]

/-! ## The fields -/

/-- The values of a position message. -/
structure Reference where
  stationId : ℕ
  x : ℤ
  y : ℤ
  z : ℤ
  height : Option ℕ
  deriving DecidableEq, Repr

/-- The values where the format has them. -/
def referenceOf (payload : Bytes) : Reference where
  stationId := field (bits payload) 12 12
  x := signed38 (field (bits payload) 34 38)
  y := signed38 (field (bits payload) 74 38)
  z := signed38 (field (bits payload) 114 38)
  height :=
    if messageNumber payload = 1006 then some (field (bits payload) 152 16)
    else none

/-- The dictionary of the values. -/
def Reference.info (r : Reference) : PyDict String (Json F) :=
  [("station_id", .int r.stationId), ("ecef_x_m", .float (metres r.x)),
    ("ecef_y_m", .float (metres r.y)), ("ecef_z_m", .float (metres r.z)),
    ("antenna_height_m", r.height.elim .null fun h => .float (metres h))]

/-- A message of one of the two types with all its bytes. -/
def HasReference (payload : Bytes) : Prop :=
  (messageNumber payload = 1005 ∧ 19 ≤ payload.length) ∨
    (messageNumber payload = 1006 ∧ 21 ≤ payload.length)

instance (payload : Bytes) : Decidable (HasReference payload) :=
  inferInstanceAs (Decidable (_ ∨ _))

/-- A message is decoded if it has one of the types and all its bits. -/
theorem parseRtcm10051006_eq (payload : Bytes) :
    parseRtcm10051006 (F := F) payload =
      if HasReference payload then some (referenceOf payload).info
      else none := by
  have hread (pos nbits : ℕ) (hpos : 0 < nbits) :
      BitReader.readBits ⟨payload, pos⟩ nbits =
        if pos + nbits ≤ 8 * payload.length then
          some (field (bits payload) pos nbits, ⟨payload, pos + nbits⟩)
        else none :=
    BitReader.readBits_eq hpos
  unfold parseRtcm10051006 BitReader.new s38
  simp only [hread, Option.bind_eq_bind, bind_ite_none, map_ite_none,
    Nat.reduceAdd, Nat.reduceLT, ite_le_ite_none, Nat.reduceLeDiff]
  by_cases hall : HasReference payload
  · rw [if_pos hall]
    rcases hall with ⟨hnumber, hlength⟩ | ⟨hnumber, hlength⟩
    · have hmt : field (bits payload) 0 12 = 1005 := hnumber
      rw [if_pos (by omega), if_neg (by omega), if_pos (by omega),
        if_neg (by omega)]
      simp [Reference.info, referenceOf, hnumber]
    · have hmt : field (bits payload) 0 12 = 1006 := hnumber
      rw [if_pos (by omega), if_neg (by omega), if_pos (by omega),
        if_pos hmt, if_pos (by omega)]
      simp [Reference.info, referenceOf, hnumber]
  · rw [if_neg hall]
    unfold HasReference messageNumber at hall
    split_ifs
    · rfl
    · omega
    · rfl
    · omega
    · rfl
    · rfl

end Decoder

/-! ## Packing -/

theorem signed38_eq {v : ℕ} (hlt : v < 2 ^ 38) :
    signed38 v = if 2 ^ 37 ≤ v then (v : ℤ) - 2 ^ 38 else (v : ℤ) := by
  have hbit : v &&& (1 <<< 37) ≠ 0 ↔ 2 ^ 37 ≤ v := by
    rw [Nat.one_shiftLeft, Nat.and_two_pow, Nat.toNat_testBit]
    omega
  unfold signed38
  by_cases hhigh : 2 ^ 37 ≤ v
  · rw [if_pos (hbit.mpr hhigh), if_pos hhigh]
    rfl
  · rw [if_neg (mt hbit.mp hhigh), if_neg hhigh]

/-- A coordinate in two's complement. -/
def signedBits (v : ℤ) : List Bool :=
  toBits 38 (v % 2 ^ 38).toNat

@[simp]
theorem length_signedBits (v : ℤ) : (signedBits v).length = 38 :=
  length_toBits 38 _

theorem field_signedBits {v : ℤ} (hv : -2 ^ 37 ≤ v ∧ v < 2 ^ 37)
    (behind : List Bool) :
    signed38 (field (signedBits v ++ behind) 0 38) = v := by
  have hlt : (v % 2 ^ 38).toNat < 2 ^ 38 := by omega
  rw [signedBits, field_toBits hlt, signed38_eq hlt]
  split_ifs with hhigh
  · omega
  · omega

/-- A position message: a 1006 if it has an antenna height. -/
structure ReferenceMessage where
  stationId : ℕ
  itrf : ℕ
  gps : Bool
  glonass : Bool
  galileo : Bool
  refstation : Bool
  x : ℤ
  afterX : ℕ
  y : ℤ
  afterY : ℕ
  z : ℤ
  height : Option ℕ
  stationId_lt : stationId < 2 ^ 12
  itrf_lt : itrf < 2 ^ 6
  x_mem : -2 ^ 37 ≤ x ∧ x < 2 ^ 37
  afterX_lt : afterX < 2 ^ 2
  y_mem : -2 ^ 37 ≤ y ∧ y < 2 ^ 37
  afterY_lt : afterY < 2 ^ 2
  z_mem : -2 ^ 37 ≤ z ∧ z < 2 ^ 37
  height_lt : ∀ h, height = some h → h < 2 ^ 16

namespace ReferenceMessage

def number (m : ReferenceMessage) : ℕ :=
  if m.height.isSome then 1006 else 1005

/-- The fields in the order of the format. -/
def encode (m : ReferenceMessage) : List Bool :=
  toBits 12 m.number ++ (toBits 12 m.stationId ++ (toBits 6 m.itrf ++
    ([m.gps, m.glonass, m.galileo, m.refstation] ++ (signedBits m.x ++
      (toBits 2 m.afterX ++ (signedBits m.y ++ (toBits 2 m.afterY ++
        (signedBits m.z ++ m.height.elim [] (toBits 16)))))))))

def values (m : ReferenceMessage) : Reference :=
  ⟨m.stationId, m.x, m.y, m.z, m.height⟩

theorem length_encode (m : ReferenceMessage) :
    m.encode.length = if m.height.isSome then 168 else 152 := by
  cases hheight : m.height with
  | none => simp [encode, hheight]
  | some h => simp [encode, hheight]

variable {m : ReferenceMessage} {payload : Bytes} {behind : List Bool}

theorem number_eq (hbits : bits payload = m.encode ++ behind) :
    messageNumber payload = m.number := by
  have hlt : m.number < 2 ^ 12 := by
    unfold number
    split_ifs <;> decide
  rw [messageNumber, hbits, encode, List.append_assoc, field_toBits hlt]

theorem values_eq (hbits : bits payload = m.encode ++ behind) :
    referenceOf payload = m.values := by
  have hnumber := number_eq hbits
  unfold referenceOf
  rw [hnumber, hbits]
  simp only [encode, List.append_assoc, field_append, length_toBits,
    length_signedBits, List.length_cons, List.length_nil, Nat.reduceAdd,
    Nat.reduceSub, Nat.reduceLeDiff, field_toBits m.stationId_lt,
    field_signedBits m.x_mem, field_signedBits m.y_mem,
    field_signedBits m.z_mem]
  cases hheight : m.height with
  | none =>
      have hshort : m.number ≠ 1006 := by simp [number, hheight]
      rw [if_neg hshort, values, hheight]
  | some h =>
      have hlong : m.number = 1006 := by simp [number, hheight]
      rw [if_pos hlong, Option.elim_some,
        field_toBits (m.height_lt h hheight), values, hheight]

theorem hasReference (hbits : bits payload = m.encode ++ behind) :
    HasReference payload := by
  have hlength := congrArg List.length hbits
  rw [length_bits, List.length_append, length_encode] at hlength
  unfold HasReference
  rw [number_eq hbits, number]
  cases hheight : m.height.isSome with
  | false =>
      rw [hheight, if_neg Bool.false_ne_true] at hlength
      exact .inl ⟨rfl, by omega⟩
  | true =>
      rw [hheight, if_pos rfl] at hlength
      exact .inr ⟨rfl, by omega⟩

end ReferenceMessage

theorem metres_eq (v : ℤ) : (metres v : ℚ) = v / 10000 := by
  have hscale : (metres v : ℚ) = (v : ℚ) * ((1 : ℤ) / (10000 : ℤ)) := rfl
  rw [hscale]
  push_cast
  ring

/-- A packed position message is decoded to its values, whatever bytes stand
behind it; and a payload is refused if it has another type or is cut. -/
theorem parseRtcm10051006_packed :
    (∀ (m : ReferenceMessage) (trailing : Bytes),
      parseRtcm10051006 (F := ℚ) (pack m.encode ++ trailing) =
        some [("station_id", .int m.stationId),
          ("ecef_x_m", .float ((m.x : ℚ) / 10000)),
          ("ecef_y_m", .float ((m.y : ℚ) / 10000)),
          ("ecef_z_m", .float ((m.z : ℚ) / 10000)),
          ("antenna_height_m",
            m.height.elim .null fun h => .float ((h : ℚ) / 10000))]) ∧
    ∀ payload : Bytes, parseRtcm10051006 (F := ℚ) payload = none ↔
      (messageNumber payload ≠ 1005 ∧ messageNumber payload ≠ 1006) ∨
        (messageNumber payload = 1005 ∧ payload.length < 19) ∨
        (messageNumber payload = 1006 ∧ payload.length < 21) := by
  constructor
  · intro m trailing
    have hwhole : 8 ∣ m.encode.length := by
      rw [m.length_encode]
      split_ifs <;> decide
    have hbits : bits (pack m.encode ++ trailing) =
        m.encode ++ bits trailing := by
      rw [bits_append, bits_pack hwhole]
    rw [parseRtcm10051006_eq, if_pos (ReferenceMessage.hasReference hbits),
      ReferenceMessage.values_eq hbits, Reference.info]
    simp only [ReferenceMessage.values, metres_eq, Int.cast_natCast]
  · intro payload
    rw [parseRtcm10051006_eq, ite_eq_right_iff]
    unfold HasReference
    simp only [reduceCtorEq, imp_false]
    omega

end Rtcm
end BabilCors
