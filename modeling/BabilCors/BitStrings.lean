import Mathlib.Tactic

/-!
# Strings of bits

Numbers and byte strings as lists of bits, the most significant first, and
back.
-/

namespace BitStrings

/-! ## Numbers -/

/-- The low bits of a number in a field of the width. -/
def toBits : ℕ → ℕ → List Bool
  | 0, _ => []
  | width + 1, n => n.testBit width :: toBits width n

/-- The number that the bits spell. -/
def ofBits (bits : List Bool) : ℕ :=
  bits.foldl (fun n b => 2 * n + b.toNat) 0

@[simp]
theorem length_toBits (width n : ℕ) : (toBits width n).length = width := by
  induction width with
  | zero => rfl
  | succ width ih => rw [toBits, List.length_cons, ih]

theorem toBits_xor (width m n : ℕ) :
    toBits width (m ^^^ n) =
      List.zipWith xor (toBits width m) (toBits width n) := by
  induction width with
  | zero => rfl
  | succ width ih =>
      simp only [toBits, Nat.testBit_xor, List.zipWith_cons_cons, ih]

/-- The high bits come first. -/
theorem toBits_add (high low n : ℕ) :
    toBits (high + low) n = toBits high (n >>> low) ++ toBits low n := by
  induction high with
  | zero => rw [Nat.zero_add, toBits, List.nil_append]
  | succ high ih =>
      rw [Nat.add_right_comm, toBits, toBits, ih, List.cons_append,
        Nat.testBit_shiftRight, Nat.add_comm]

theorem toBits_congr {width m n : ℕ}
    (hbits : ∀ i < width, m.testBit i = n.testBit i) :
    toBits width m = toBits width n := by
  induction width with
  | zero => rfl
  | succ width ih =>
      rw [toBits, toBits, hbits width (Nat.lt_succ_self width),
        ih fun i hi => hbits i (Nat.lt_succ_of_lt hi)]

theorem toBits_zero (width : ℕ) :
    toBits width 0 = List.replicate width false := by
  induction width with
  | zero => rfl
  | succ width ih =>
      rw [toBits, ih, Nat.zero_testBit, List.replicate_succ]

theorem toBits_shiftLeft (width shift n : ℕ) :
    toBits (width + shift) (n <<< shift) =
      toBits width n ++ List.replicate shift false := by
  have hlow : toBits shift (n <<< shift) = toBits shift 0 := by
    apply toBits_congr
    intro i hi
    simp only [Nat.testBit_shiftLeft, Nat.zero_testBit]
    simp [Nat.not_le.mpr hi]
  rw [toBits_add, Nat.shiftLeft_shiftRight, hlow, toBits_zero]

/-- Two fields joined by a shift. -/
theorem toBits_shiftLeft_or {shift m : ℕ} (hlow : m < 2 ^ shift)
    (width n : ℕ) :
    toBits (width + shift) ((n <<< shift) ||| m) =
      toBits width n ++ toBits shift m := by
  have hhigh : toBits width (((n <<< shift) ||| m) >>> shift) =
      toBits width n := by
    apply toBits_congr
    intro i _
    have hzero : m.testBit (shift + i) = false := by
      apply Nat.testBit_lt_two_pow
      exact lt_of_lt_of_le hlow (Nat.pow_le_pow_right Nat.two_pos (by omega))
    rw [Nat.testBit_shiftRight, Nat.testBit_or, hzero, Bool.or_false,
      Nat.testBit_shiftLeft, Nat.add_sub_cancel_left]
    simp
  have hsame : toBits shift ((n <<< shift) ||| m) = toBits shift m := by
    apply toBits_congr
    intro i hi
    rw [Nat.testBit_or, Nat.testBit_shiftLeft]
    simp [Nat.not_le.mpr hi]
  rw [toBits_add, hhigh, hsame]

theorem toBits_of_lt {width n : ℕ} (hlt : n < 2 ^ width) :
    toBits (width + 1) n = false :: toBits width n := by
  rw [toBits, Nat.testBit_lt_two_pow hlt]

theorem foldl_bits (bits : List Bool) (n : ℕ) :
    bits.foldl (fun n b => 2 * n + b.toNat) n =
      n * 2 ^ bits.length + ofBits bits := by
  induction bits generalizing n with
  | nil => simp [ofBits]
  | cons b bits ih =>
      unfold ofBits
      rw [List.foldl_cons, List.foldl_cons, ih, ih, List.length_cons,
        pow_succ]
      ring

theorem ofBits_cons (b : Bool) (bits : List Bool) :
    ofBits (b :: bits) = b.toNat * 2 ^ bits.length + ofBits bits := by
  rw [ofBits, List.foldl_cons, foldl_bits, Nat.mul_zero, Nat.zero_add]

theorem ofBits_lt (bits : List Bool) : ofBits bits < 2 ^ bits.length := by
  induction bits with
  | nil => exact Nat.one_pos
  | cons b bits ih =>
      rw [ofBits_cons, List.length_cons, pow_succ]
      cases b
      · simp only [Bool.toNat_false]
        omega
      · simp only [Bool.toNat_true]
        omega

theorem ofBits_take_lt (bits : List Bool) (width : ℕ) :
    ofBits (bits.take width) < 2 ^ width :=
  (ofBits_lt _).trans_le
    (Nat.pow_le_pow_right (by decide) (List.length_take_le width bits))

theorem ofBits_toBits (width n : ℕ) :
    ofBits (toBits width n) = n % 2 ^ width := by
  induction width with
  | zero => rw [pow_zero, Nat.mod_one]; rfl
  | succ width ih =>
      rw [toBits, ofBits_cons, ih, length_toBits, Nat.toNat_testBit,
        Nat.mod_pow_succ, Nat.mul_comm, Nat.add_comm]

theorem ofBits_toBits_of_lt {width n : ℕ} (hlt : n < 2 ^ width) :
    ofBits (toBits width n) = n := by
  rw [ofBits_toBits, Nat.mod_eq_of_lt hlt]

theorem toBits_injective {width m n : ℕ} (hm : m < 2 ^ width)
    (hn : n < 2 ^ width) (heq : toBits width m = toBits width n) : m = n := by
  have hnumbers := congrArg ofBits heq
  rwa [ofBits_toBits_of_lt hm, ofBits_toBits_of_lt hn] at hnumbers

theorem toBits_ofBits (bits : List Bool) :
    toBits bits.length (ofBits bits) = bits := by
  induction bits with
  | nil => rfl
  | cons b bits ih =>
      have hlow := ofBits_lt bits
      have hjoin : ofBits (b :: bits) =
          (b.toNat <<< bits.length) ||| ofBits bits := by
        rw [ofBits_cons, ← Nat.shiftLeft_add_eq_or_of_lt hlow,
          Nat.shiftLeft_eq]
      have hone : toBits 1 b.toNat = [b] := by cases b <;> rfl
      rw [List.length_cons, Nat.add_comm, hjoin, toBits_shiftLeft_or hlow,
        ih, hone, List.singleton_append]

theorem getElem?_toBits {width i : ℕ} (hi : i < width) (n : ℕ) :
    (toBits width n)[i]? = some (n.testBit (width - 1 - i)) := by
  induction width generalizing i with
  | zero => omega
  | succ width ih =>
      cases i with
      | zero => rfl
      | succ i =>
          have hindex : width + 1 - 1 - (i + 1) = width - 1 - i := by omega
          rw [toBits, List.getElem?_cons_succ, ih (Nat.lt_of_succ_lt_succ hi),
            hindex]

/-- The number in a field of the string. -/
def field (bits : List Bool) (start width : ℕ) : ℕ :=
  ofBits ((bits.drop start).take width)

/-- What stands in front of a field does not matter. -/
theorem field_append {front : List Bool} {start : ℕ}
    (hfront : front.length ≤ start) (behind : List Bool) (width : ℕ) :
    field (front ++ behind) start width =
      field behind (start - front.length) width := by
  rw [field, List.drop_append, List.drop_eq_nil_of_le hfront,
    List.nil_append]
  rfl

theorem field_toBits {width n : ℕ} (hlt : n < 2 ^ width)
    (behind : List Bool) : field (toBits width n ++ behind) 0 width = n := by
  have htake : (toBits width n ++ behind).take width = toBits width n := by
    rw [List.take_append_of_le_length (length_toBits width n).ge,
      List.take_of_length_le (length_toBits width n).le]
  rw [field, List.drop_zero, htake, ofBits_toBits_of_lt hlt]

/-! ## Byte strings -/

/-- The bits of a byte string. -/
def bits (data : List UInt8) : List Bool :=
  data.flatMap fun b => toBits 8 b.toNat

@[simp]
theorem bits_nil : bits [] = [] :=
  rfl

theorem bits_cons (b : UInt8) (data : List UInt8) :
    bits (b :: data) = toBits 8 b.toNat ++ bits data :=
  rfl

theorem bits_append (left right : List UInt8) :
    bits (left ++ right) = bits left ++ bits right :=
  List.flatMap_append

@[simp]
theorem length_bits (data : List UInt8) :
    (bits data).length = 8 * data.length := by
  induction data with
  | nil => rfl
  | cons b data ih =>
      rw [bits_cons, List.length_append, length_toBits, ih, List.length_cons]
      omega

theorem true_mem_toBits {width n : ℕ} (hlt : n < 2 ^ width) (hn : n ≠ 0) :
    true ∈ toBits width n := by
  by_contra hmem
  have hbits : toBits width n = toBits width 0 := by
    rw [toBits_zero, List.eq_replicate_iff]
    refine ⟨length_toBits width n, ?_⟩
    intro b hb
    cases b
    · rfl
    · exact (hmem hb).elim
  exact hn (toBits_injective hlt (Nat.two_pow_pos width) hbits)

theorem true_mem_bits {data : List UInt8} (hdata : ∃ b ∈ data, b ≠ 0) :
    true ∈ bits data := by
  obtain ⟨b, hmem, hb⟩ := hdata
  have hzero : b.toNat ≠ 0 := by
    intro h
    exact hb (UInt8.toNat_inj.mp h)
  exact List.mem_flatMap.mpr ⟨b, hmem, true_mem_toBits b.toNat_lt hzero⟩

theorem bits_zipWith_xor {left right : List UInt8}
    (hlength : left.length = right.length) :
    bits (List.zipWith (· ^^^ ·) left right) =
      List.zipWith xor (bits left) (bits right) := by
  induction left generalizing right with
  | nil => rfl
  | cons a left ih =>
      cases right with
      | nil => cases hlength
      | cons b right =>
          rw [List.zipWith_cons_cons, bits_cons, bits_cons, bits_cons,
            ih (Nat.succ.inj hlength), UInt8.toNat_xor, toBits_xor,
            List.zipWith_append (by simp)]

theorem bits_drop (data : List UInt8) (k : ℕ) :
    bits (data.drop k) = (bits data).drop (8 * k) := by
  induction k generalizing data with
  | zero => rfl
  | succ k ih =>
      cases data with
      | nil => simp
      | cons b data =>
          have hbyte : (toBits 8 b.toNat).length ≤ 8 * (k + 1) := by
            rw [length_toBits]
            omega
          rw [List.drop_succ_cons, ih, bits_cons, List.drop_append,
            List.drop_eq_nil_of_le hbyte, List.nil_append, length_toBits]
          congr 1

theorem getElem?_bits {data : List UInt8} {i : ℕ}
    (hi : i < 8 * data.length) :
    (bits data)[i]? =
      some ((data.getD (i / 8) 0).toNat.testBit (7 - i % 8)) := by
  induction data generalizing i with
  | nil => simp at hi
  | cons b data ih =>
      rw [bits_cons]
      by_cases hfirst : i < 8
      · rw [List.getElem?_append_left (by rwa [length_toBits]),
          getElem?_toBits hfirst, Nat.div_eq_of_lt hfirst,
          Nat.mod_eq_of_lt hfirst]
        rfl
      · have hrest : i - 8 < 8 * data.length := by
          rw [List.length_cons] at hi
          omega
        have hbyte : i / 8 = (i - 8) / 8 + 1 := by omega
        have hbit : (i - 8) % 8 = i % 8 := by omega
        rw [List.getElem?_append_right (by rw [length_toBits]; omega),
          length_toBits, ih hrest, hbyte, hbit, List.getD_cons_succ]

/-- Every eight bits as a byte. -/
def packBytes : ℕ → List Bool → List UInt8
  | 0, _ => []
  | n + 1, bits =>
      UInt8.ofNat (ofBits (bits.take 8)) :: packBytes n (bits.drop 8)

def pack (bits : List Bool) : List UInt8 :=
  packBytes (bits.length / 8) bits

theorem bits_packBytes {n : ℕ} {field : List Bool}
    (hlength : field.length = 8 * n) : bits (packBytes n field) = field := by
  induction n generalizing field with
  | zero => rw [List.length_eq_zero_iff.mp hlength]; rfl
  | succ n ih =>
      have htake : (field.take 8).length = 8 := by
        rw [List.length_take]
        omega
      have hdrop : (field.drop 8).length = 8 * n := by
        rw [List.length_drop]
        omega
      have hlt : ofBits (field.take 8) < 2 ^ 8 := by
        have hbits := ofBits_lt (field.take 8)
        rwa [htake] at hbits
      have hbyte : (UInt8.ofNat (ofBits (field.take 8))).toNat =
          ofBits (field.take 8) :=
        UInt8.toNat_ofNat_of_lt' hlt
      have hfirst := toBits_ofBits (field.take 8)
      rw [htake] at hfirst
      rw [packBytes, bits_cons, hbyte, hfirst, ih hdrop,
        List.take_append_drop]

/-- What is packed without a part of a byte left over is read back. -/
theorem bits_pack {field : List Bool} (hlength : 8 ∣ field.length) :
    bits (pack field) = field :=
  bits_packBytes (Nat.mul_div_cancel' hlength).symm

theorem length_pack (field : List Bool) :
    (pack field).length = field.length / 8 := by
  unfold pack
  generalize field.length / 8 = n
  induction n generalizing field with
  | zero => rfl
  | succ n ih => rw [packBytes, List.length_cons, ih]

end BitStrings
