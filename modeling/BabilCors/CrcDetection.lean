import Mathlib.Data.Nat.Bitwise
import BabilCors.CyclicRedundancy
import BabilCors.Resynchronisation

/-!
# What the checksum of a frame detects

`crc24q` is the shift register of the degree-24 generator `crc24qPoly`, so the
checksum comparison of the parser passes exactly if the generator divides the
frame as a polynomial.
-/

namespace BabilCors
namespace Rtcm

open BitStrings CyclicRedundancy

/-! ## The checksum as a register -/

theorem isGenerator_crc24qPoly : IsGenerator 24 crc24qPoly :=
  ⟨by decide, by decide⟩

theorem crc24qShift_eq (crc : ℕ) :
    crc24qShift crc = shift 24 crc24qPoly crc := by
  have hbit : (crc <<< 1) &&& 0x1000000 ≠ 0 ↔
      (crc <<< 1).testBit 24 = true := by
    have hand := Nat.and_two_pow (crc <<< 1) 24
    rw [show (0x1000000 : ℕ) = 2 ^ 24 by rfl, hand]
    cases (crc <<< 1).testBit 24 <;> simp
  unfold crc24qShift shift
  simp only [hbit]

theorem crc24qByte_eq (crc : ℕ) (b : UInt8) :
    crc24qByte crc b = absorb 24 crc24qPoly crc b.toNat := by
  have hbyte : b.toNat &&& 0xFF = b.toNat :=
    Nat.and_two_pow_sub_one_of_lt_two_pow (n := 8) b.toNat_lt
  rw [crc24qByte, absorb, hbyte, funext crc24qShift_eq]

theorem crc24q_eq (data : Bytes) :
    crc24q data = remainder 24 crc24qPoly data := by
  have hlt := remainder_lt isGenerator_crc24qPoly (by decide) data
  unfold crc24q
  rw [funext fun crc => funext (crc24qByte_eq crc)]
  exact Nat.and_two_pow_sub_one_of_lt_two_pow (n := 24) hlt

theorem crcField_lt (frame : Bytes) : crcField frame < 2 ^ 24 := by
  have hbyte : ∀ i, byteAt frame i < 2 ^ 8 := fun i => UInt8.toNat_lt _
  have hfirst : byteAt frame (frame.length - 3) <<< 16 < 2 ^ 24 := by
    have := hbyte (frame.length - 3)
    rw [Nat.shiftLeft_eq]
    omega
  have hsecond : byteAt frame (frame.length - 2) <<< 8 < 2 ^ 24 := by
    have := hbyte (frame.length - 2)
    rw [Nat.shiftLeft_eq]
    omega
  have hthird : byteAt frame (frame.length - 1) < 2 ^ 24 := by
    have := hbyte (frame.length - 1)
    omega
  exact Nat.or_lt_two_pow (Nat.or_lt_two_pow hfirst hsecond) hthird

/-- The last three bytes are the bits of the checksum field. -/
theorem bits_crcField {frame : Bytes} (hlength : 3 ≤ frame.length) :
    bits (frame.drop (frame.length - 3)) = toBits 24 (crcField frame) := by
  have hbyte : ∀ i, byteAt frame i < 2 ^ 8 := fun i => UInt8.toNat_lt _
  have hdrop : frame.drop (frame.length - 3) =
      [frame.getD (frame.length - 3) 0, frame.getD (frame.length - 2) 0,
        frame.getD (frame.length - 1) 0] := by
    apply List.ext_getElem
    · simp only [List.length_drop, List.length_cons, List.length_nil]
      omega
    · intro i hi _
      simp only [List.length_drop] at hi
      have hcases : i = 0 ∨ i = 1 ∨ i = 2 := by omega
      rcases hcases with rfl | rfl | rfl
      · simp [List.getD_eq_getElem?_getD,
          show frame.length - 3 < frame.length by omega]
      · simp [List.getD_eq_getElem?_getD,
          show frame.length - 2 < frame.length by omega,
          show frame.length - 3 + 1 = frame.length - 2 by omega]
      · simp [List.getD_eq_getElem?_getD,
          show frame.length - 1 < frame.length by omega,
          show frame.length - 3 + 2 = frame.length - 1 by omega]
  have hjoin : byteAt frame (frame.length - 3) <<< 16 |||
      byteAt frame (frame.length - 2) <<< 8 =
        (byteAt frame (frame.length - 3) <<< 8 |||
          byteAt frame (frame.length - 2)) <<< 8 := by
    rw [Nat.shiftLeft_or_distrib, ← Nat.shiftLeft_add]
  rw [hdrop, bits_cons, bits_cons, bits_cons, bits_nil, List.append_nil,
    crcField, hjoin, toBits_shiftLeft_or (hbyte _) 16,
    toBits_shiftLeft_or (hbyte _) 8, List.append_assoc]
  rfl

/-- The comparison passes exactly if the generator divides the frame. -/
theorem crc_passes_iff {frame : Bytes} (hlength : 3 ≤ frame.length) :
    crc24q (frame.take (frame.length - 3)) = crcField frame ↔
      generator 24 crc24qPoly ∣ poly (bits frame) := by
  rw [crc24q_eq, remainder_eq_iff isGenerator_crc24qPoly (by decide) _
    (crcField_lt frame), ← bits_crcField hlength, ← bits_append,
    List.take_append_drop]

/-! ## Corrupted frames -/

/-- The bytes with the bits of the error flipped. -/
def flipBits (frame error : Bytes) : Bytes :=
  List.zipWith (· ^^^ ·) frame error

/-- All bits of the error lie among 24 consecutive ones. -/
def WithinWindow (error : Bytes) : Prop :=
  ∃ start, ∀ i, (bits error)[i]? = some true → start ≤ i ∧ i < start + 24

theorem length_flipBits {frame error : Bytes}
    (hlength : error.length = frame.length) :
    (flipBits frame error).length = frame.length := by
  rw [flipBits, List.length_zipWith, hlength, min_self]

theorem error_not_divisible {error : Bytes} (herror : ∃ b ∈ error, b ≠ 0)
    (hkind : Odd ((bits error).count true) ∨ WithinWindow error) :
    ¬ generator 24 crc24qPoly ∣ poly (bits error) := by
  rcases hkind with hodd | ⟨start, hwindow⟩
  · exact not_dvd_of_odd (eval_one_generator (by decide)) hodd
  · apply not_dvd_of_window (coeff_zero_generator (by decide))
      (true_mem_bits herror)
    rw [natDegree_generator isGenerator_crc24qPoly]
    exact hwindow

theorem getD_flipBits {frame error : Bytes}
    (hlength : error.length = frame.length) {i : ℕ}
    (hzero : error[i]? = some 0) :
    (flipBits frame error).getD i 0 = frame.getD i 0 := by
  have hi : i < frame.length := by
    rw [← hlength]
    exact (List.getElem?_eq_some_iff.mp hzero).1
  rw [List.getD_eq_getElem?_getD, List.getD_eq_getElem?_getD, flipBits,
    List.getElem?_zipWith, hzero, List.getElem?_eq_getElem hi]
  simp

/-- The header of a frame with an error behind the header. -/
theorem header_flipBits {frame error : Bytes}
    (hlength : error.length = frame.length)
    (hheader : error.take 3 = [0, 0, 0]) :
    ∀ i < 3, (flipBits frame error).getD i 0 = frame.getD i 0 := by
  intro i hi
  apply getD_flipBits hlength
  rw [← List.getElem?_take_of_lt hi, hheader]
  have hcases : i = 0 ∨ i = 1 ∨ i = 2 := by omega
  rcases hcases with rfl | rfl | rfl <;> rfl

theorem lengthField_flipBits {frame error : Bytes}
    (hlength : error.length = frame.length)
    (hheader : error.take 3 = [0, 0, 0]) :
    lengthField (flipBits frame error) = lengthField frame := by
  have hbytes := header_flipBits hlength hheader
  simp only [lengthField, byteAt, hbytes 1 (by decide),
    hbytes 2 (by decide)]

theorem head?_flipBits {frame error : Bytes}
    (hlength : error.length = frame.length)
    (hheader : error.take 3 = [0, 0, 0])
    (hframe : frame.head? = some preamble) :
    (flipBits frame error).head? = some preamble := by
  have hbyte := header_flipBits hlength hheader 0 (by decide)
  have hsize := length_flipBits hlength
  cases frame with
  | nil => cases hframe
  | cons first frame =>
      cases hflip : flipBits (first :: frame) error with
      | nil =>
          rw [hflip] at hsize
          cases hsize
      | cons b bytes =>
          rw [hflip] at hbyte
          rw [← hframe]
          exact congrArg some hbyte

/-- A complete candidate whose checksum does not match costs one byte. -/
theorem parseIteration_of_mismatch {raw : Bytes}
    (hhead : raw.head? = some preamble)
    (hlength : raw.length = 3 + lengthField raw + 3)
    (hcrc : crc24q (raw.take (raw.length - 3)) ≠ crcField raw)
    (behind : Bytes) :
    parseIteration (raw ++ behind) = .crcError ((raw ++ behind).drop 1) := by
  have hcomplete : Complete raw := ⟨by omega, hlength.ge⟩
  have hjudge : judge raw = none := by
    have htotal : totalLength raw = raw.length := hlength.symm
    rw [judge, htotal, List.take_length, if_pos hcrc]
  have hskip : (raw ++ behind).dropWhile (· != preamble) = raw ++ behind := by
    cases raw with
    | nil => cases hhead
    | cons first raw =>
        obtain rfl : first = preamble := Option.some.inj hhead
        simp
  rw [parseIteration, hskip, parseCandidate_eq,
    if_pos (complete_append hcomplete behind),
    judge_append hcomplete behind, hjudge]
  rfl

/-- A frame in whose bits, behind the header, an odd number is flipped, or
some within 24 consecutive ones, does not pass the checksum comparison: the
parser counts a CRC error, whatever stands behind the frame. -/
theorem corrupted_frame_rejected {frame error : Bytes}
    (hframe : IsFrame frame) (hlength : error.length = frame.length)
    (hheader : error.take 3 = [0, 0, 0]) (herror : ∃ b ∈ error, b ≠ 0)
    (hkind : Odd ((bits error).count true) ∨ WithinWindow error) :
    crc24q ((flipBits frame error).take (frame.length - 3)) ≠
        crcField (flipBits frame error) ∧
      ∀ behind, parseIteration (flipBits frame error ++ behind) =
        .crcError ((flipBits frame error ++ behind).drop 1) := by
  have hsize := length_flipBits hlength
  have hlong : 3 ≤ frame.length := by
    have htotal := hframe.length
    omega
  have hcrc : crc24q ((flipBits frame error).take
      ((flipBits frame error).length - 3)) ≠
        crcField (flipBits frame error) := by
    intro hpasses
    have hcorrupted := (crc_passes_iff (by omega)).mp hpasses
    have hvalid := (crc_passes_iff hlong).mp hframe.crc
    rw [flipBits, bits_zipWith_xor hlength.symm,
      poly_zipWith_xor (by simp [hlength])] at hcorrupted
    exact error_not_divisible herror hkind
      ((dvd_add_right hvalid).mp hcorrupted)
  constructor
  · rw [hsize] at hcrc
    exact hcrc
  · apply parseIteration_of_mismatch _ _ hcrc
    · exact head?_flipBits hlength hheader hframe.preamble
    · rw [hsize, lengthField_flipBits hlength hheader]
      exact hframe.length

theorem corrupted_frame_rejected_smallFrame :
    crc24q ((flipBits smallFrame [0, 0, 0, 1, 0, 0, 0, 0]).take 5) ≠
        crcField (flipBits smallFrame [0, 0, 0, 1, 0, 0, 0, 0]) ∧
      ∀ behind,
        parseIteration
            (flipBits smallFrame [0, 0, 0, 1, 0, 0, 0, 0] ++ behind) =
          .crcError
            ((flipBits smallFrame [0, 0, 0, 1, 0, 0, 0, 0] ++
              behind).drop 1) := by
  have hframe : IsFrame smallFrame :=
    ⟨by decide, by decide, by decide +kernel⟩
  exact corrupted_frame_rejected hframe (by decide) (by decide)
    ⟨1, by decide, by decide⟩ (.inl (by decide))

end Rtcm
end BabilCors
