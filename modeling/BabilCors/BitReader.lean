import BabilCors.BitStrings
import BabilCors.Rtcm

/-!
# The bit reader of the message decoders

`_BitReader` of `rtcm.py`: a byte string and a position in its bits.  A read
gives the number that the next bits spell, and `none` is the `IndexError` of a
read behind the last byte.
-/

namespace BabilCors
namespace Rtcm

open BitStrings

structure BitReader where
  data : Bytes
  bitpos : ℕ
  deriving DecidableEq, Repr

/-- A bound in front of a larger one does not matter. -/
theorem ite_le_ite_none {α : Type*} {a b n : ℕ} (hab : a ≤ b)
    (x : Option α) :
    (if a ≤ n then (if b ≤ n then x else none) else none) =
      if b ≤ n then x else none := by
  by_cases hb : b ≤ n
  · rw [if_pos (hab.trans hb)]
  · rw [if_neg hb, ite_self]

namespace BitReader

def new (data : Bytes) : BitReader :=
  ⟨data, 0⟩

def skip (br : BitReader) (nbits : ℕ) : BitReader :=
  { br with bitpos := br.bitpos + nbits }

/-- One pass of the loop of `read_bits`. -/
def readBit (br : BitReader) : Option (ℕ × BitReader) :=
  let byteIdx := br.bitpos / 8
  let off := 7 - br.bitpos % 8
  if br.data.length ≤ byteIdx then none
  else some ((byteAt br.data byteIdx >>> off) &&& 1, br.skip 1)

def readBitsLoop : ℕ → BitReader → ℕ → Option (ℕ × BitReader)
  | 0, br, val => some (val, br)
  | nbits + 1, br, val =>
      br.readBit.bind fun (bit, br) =>
        readBitsLoop nbits br ((val <<< 1) ||| bit)

def readBits (br : BitReader) (nbits : ℕ) : Option (ℕ × BitReader) :=
  readBitsLoop nbits br 0

/-- Aligned to the next byte and cut at the end of the data, while the
position advances by all `n` bytes. -/
def readBytes (br : BitReader) (n : ℕ) : Bytes × BitReader :=
  let bitpos :=
    if br.bitpos % 8 ≠ 0 then br.bitpos + (8 - br.bitpos % 8) else br.bitpos
  let byteIdx := bitpos / 8
  let stop := byteIdx + n
  let stop := if br.data.length < stop then br.data.length else stop
  ((br.data.take stop).drop byteIdx, { br with bitpos := bitpos + n * 8 })

/-- The bits in front of the reader. -/
def rest (br : BitReader) : List Bool :=
  (bits br.data).drop br.bitpos

variable {br : BitReader} {nbits : ℕ}

@[simp]
theorem rest_skip (br : BitReader) (nbits : ℕ) :
    (br.skip nbits).rest = br.rest.drop nbits := by
  rw [rest, rest, skip, List.drop_drop]

@[simp]
theorem skip_skip (br : BitReader) (m n : ℕ) :
    (br.skip m).skip n = br.skip (m + n) := by
  rw [skip, skip, skip, Nat.add_assoc]

theorem length_rest (br : BitReader) :
    br.rest.length = 8 * br.data.length - br.bitpos := by
  rw [rest, List.length_drop, length_bits]

theorem readBit_eq_none (hrest : br.rest = []) : br.readBit = none := by
  have hlength := br.length_rest
  rw [hrest, List.length_nil] at hlength
  unfold readBit
  dsimp only
  rw [if_pos (by omega)]

theorem readBit_eq_some {b : Bool} {later : List Bool}
    (hrest : br.rest = b :: later) :
    br.readBit = some (b.toNat, br.skip 1) := by
  have hlength := br.length_rest
  rw [hrest, List.length_cons] at hlength
  have hfirst : (bits br.data)[br.bitpos]? = some b := by
    have hhead := congrArg List.head? hrest
    rwa [rest, List.head?_drop] at hhead
  rw [getElem?_bits (by omega)] at hfirst
  have hbit : (byteAt br.data (br.bitpos / 8) >>> (7 - br.bitpos % 8)) &&& 1 =
      b.toNat := by
    rw [← Option.some.inj hfirst, Nat.toNat_testBit, Nat.and_one_is_mod,
      Nat.shiftRight_eq_div_pow, byteAt]
  unfold readBit
  dsimp only
  rw [if_neg (by omega), hbit]

theorem readBitsLoop_eq_none {br : BitReader} (hshort : br.rest.length < nbits)
    (val : ℕ) : readBitsLoop nbits br val = none := by
  induction nbits generalizing br val with
  | zero => omega
  | succ nbits ih =>
      rw [readBitsLoop]
      cases hrest : br.rest with
      | nil => rw [readBit_eq_none hrest, Option.bind_none]
      | cons b later =>
          rw [readBit_eq_some hrest, Option.bind_some]
          apply ih
          rw [hrest, List.length_cons] at hshort
          rw [rest_skip, hrest, List.drop_succ_cons, List.drop_zero]
          omega

theorem readBitsLoop_eq_some {br : BitReader} {field later : List Bool}
    (hrest : br.rest = field ++ later) (val : ℕ) :
    readBitsLoop field.length br val =
      some (val * 2 ^ field.length + ofBits field, br.skip field.length) := by
  induction field generalizing br val with
  | nil =>
      rw [List.length_nil, readBitsLoop, pow_zero, mul_one]
      rfl
  | cons b field ih =>
      have hskip : (br.skip 1).rest = field ++ later := by
        rw [rest_skip, hrest]
        rfl
      have hbit : b.toNat < 2 ^ 1 := by cases b <;> decide
      have hval : (val <<< 1) ||| b.toNat = 2 * val + b.toNat := by
        rw [← Nat.shiftLeft_add_eq_or_of_lt hbit, Nat.shiftLeft_eq, pow_one,
          Nat.mul_comm]
      rw [List.length_cons, readBitsLoop, readBit_eq_some hrest,
        Option.bind_some]
      dsimp only
      rw [ih hskip, hval, skip_skip, ofBits_cons, pow_succ,
        Nat.add_comm 1 field.length]
      congr 2
      ring

variable {data : Bytes} {pos : ℕ}

/-- A read within the data gives the field at the position. -/
theorem readBits_of_le (hle : pos + nbits ≤ 8 * data.length) :
    readBits ⟨data, pos⟩ nbits =
      some (field (bits data) pos nbits, ⟨data, pos + nbits⟩) := by
  have hlength : (rest ⟨data, pos⟩).length = 8 * data.length - pos :=
    length_rest ⟨data, pos⟩
  have htake : ((rest ⟨data, pos⟩).take nbits).length = nbits := by
    rw [List.length_take, hlength]
    omega
  have hloop := readBitsLoop_eq_some
    (List.take_append_drop nbits (rest ⟨data, pos⟩)).symm 0
  rw [htake, Nat.zero_mul, Nat.zero_add] at hloop
  exact hloop

theorem readBits_of_lt (hlt : 8 * data.length < pos + nbits)
    (hpos : 0 < nbits) : readBits ⟨data, pos⟩ nbits = none := by
  have hlength : (rest ⟨data, pos⟩).length = 8 * data.length - pos :=
    length_rest ⟨data, pos⟩
  have hshort : (rest ⟨data, pos⟩).length < nbits := by omega
  exact readBitsLoop_eq_none hshort 0

theorem readBits_eq (hpos : 0 < nbits) :
    readBits ⟨data, pos⟩ nbits =
      if pos + nbits ≤ 8 * data.length then
        some (field (bits data) pos nbits, ⟨data, pos + nbits⟩)
      else none := by
  split_ifs with hle
  · exact readBits_of_le hle
  · exact readBits_of_lt (not_le.mp hle) hpos

/-- On a byte boundary the bytes are cut out of the data. -/
theorem readBytes_eq (data : Bytes) (pos n : ℕ) :
    readBytes ⟨data, 8 * pos⟩ n =
      ((data.drop pos).take n, ⟨data, 8 * (pos + n)⟩) := by
  have haligned : ¬ 8 * pos % 8 ≠ 0 := by omega
  have hindex : 8 * pos / 8 = pos := by omega
  have hstop : (data.take (if data.length < pos + n then data.length
      else pos + n)).drop pos = (data.drop pos).take n := by
    split_ifs with hcut
    · rw [List.take_length, List.take_of_length_le]
      rw [List.length_drop]
      omega
    · rw [List.drop_take, Nat.add_sub_cancel_left]
  unfold readBytes
  dsimp only
  rw [if_neg haligned, hindex, hstop]
  congr 2
  omega

end BitReader

/-- The type in the first twelve bits of a message. -/
def messageNumber (payload : Bytes) : ℕ :=
  field (bits payload) 0 12

end Rtcm
end BabilCors
