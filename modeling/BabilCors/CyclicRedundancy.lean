import Mathlib.Tactic
import Mathlib.RingTheory.AdjoinRoot
import BabilCors.BitStrings

/-!
# Cyclic redundancy checks

Strings of bits as polynomials over the field of two elements, and a shift
register that computes the remainder modulo a generator.  A message and its
check pass together exactly if the generator divides their polynomial, which
says what errors cannot pass.
-/

namespace CyclicRedundancy

open Polynomial BitStrings

/-! ## Bits as a polynomial -/

/-- The bits are the coefficients, the highest first. -/
noncomputable def poly : List Bool → (ZMod 2)[X]
  | [] => 0
  | b :: bits => C (b.toNat : ZMod 2) * X ^ bits.length + poly bits

theorem poly_append (left right : List Bool) :
    poly (left ++ right) = poly left * X ^ right.length + poly right := by
  induction left with
  | nil => rw [List.nil_append, poly, zero_mul, zero_add]
  | cons b left ih =>
      rw [List.cons_append, poly, poly, ih, List.length_append, pow_add]
      ring

theorem toNat_xor_cast (a b : Bool) :
    ((a ^^ b).toNat : ZMod 2) = a.toNat + b.toNat := by
  cases a <;> cases b <;> decide

theorem poly_zipWith_xor {left right : List Bool}
    (hlength : left.length = right.length) :
    poly (List.zipWith xor left right) = poly left + poly right := by
  induction left generalizing right with
  | nil =>
      cases right with
      | nil => simp [poly]
      | cons => cases hlength
  | cons a left ih =>
      cases right with
      | nil => cases hlength
      | cons b right =>
          have htail : left.length = right.length := Nat.succ.inj hlength
          rw [List.zipWith_cons_cons, poly, poly, poly, ih htail,
            List.length_zipWith, htail, min_self, toNat_xor_cast, C_add]
          ring

theorem poly_eq_zero {bits : List Bool} (hbits : true ∉ bits) :
    poly bits = 0 := by
  induction bits with
  | nil => rfl
  | cons b bits ih =>
      rw [List.mem_cons, not_or] at hbits
      have hb : b = false := by
        cases b
        · rfl
        · exact (hbits.1 rfl).elim
      rw [poly, ih hbits.2, hb]
      simp

theorem degree_poly_lt (bits : List Bool) :
    (poly bits).degree < bits.length := by
  induction bits with
  | nil =>
      rw [poly, degree_zero]
      exact WithBot.bot_lt_coe 0
  | cons b bits ih =>
      have hhead := degree_C_mul_X_pow_le bits.length (b.toNat : ZMod 2)
      have hlength : (bits.length : WithBot ℕ) < (b :: bits).length := by
        exact_mod_cast Nat.lt_succ_self bits.length
      rw [poly]
      apply lt_of_le_of_lt (degree_add_le _ _)
      exact max_lt (lt_of_le_of_lt hhead hlength) (lt_trans ih hlength)

theorem poly_ne_zero {bits : List Bool} (hbits : true ∈ bits) :
    poly bits ≠ 0 := by
  induction bits with
  | nil => cases hbits
  | cons b bits ih =>
      have hcoeff : (poly bits).coeff bits.length = 0 :=
        coeff_eq_zero_of_degree_lt (degree_poly_lt bits)
      cases b
      · have hzero : ((false.toNat : ℕ) : ZMod 2) = 0 := by decide
        rw [poly, hzero, C_0, zero_mul, zero_add]
        apply ih
        simpa using hbits
      · intro hpoly
        have htop := congrArg (fun p => p.coeff bits.length) hpoly
        simp [poly, hcoeff] at htop

theorem poly_injective {left right : List Bool}
    (hlength : left.length = right.length) (hpoly : poly left = poly right) :
    left = right := by
  induction left generalizing right with
  | nil =>
      rw [eq_comm, List.length_nil, List.length_eq_zero_iff] at hlength
      exact hlength.symm
  | cons a left ih =>
      cases right with
      | nil => cases hlength
      | cons b right =>
          have htail : left.length = right.length := Nat.succ.inj hlength
          have hleft : (poly left).coeff left.length = 0 :=
            coeff_eq_zero_of_degree_lt (degree_poly_lt left)
          have hright : (poly right).coeff left.length = 0 := by
            rw [htail]
            exact coeff_eq_zero_of_degree_lt (degree_poly_lt right)
          have htop := congrArg (fun p => p.coeff left.length) hpoly
          simp only [poly, ← htail, coeff_add, coeff_C_mul, coeff_X_pow_self,
            mul_one, hleft, hright, add_zero] at htop
          have hab : a = b := by
            cases a <;> cases b <;> first | rfl | exact absurd htop (by decide)
          subst hab
          simp only [poly, htail, add_right_inj] at hpoly
          rw [ih htail hpoly]

theorem eval_one_poly (bits : List Bool) :
    (poly bits).eval 1 = (bits.count true : ZMod 2) := by
  induction bits with
  | nil => simp [poly]
  | cons b bits ih =>
      rw [poly, eval_add, ih, eval_mul, eval_C, eval_pow, eval_X, one_pow,
        mul_one, List.count_cons]
      cases b
      · simp
      · simp [add_comm]

/-! ## Errors that a divisor excludes -/

/-- A generator with the factor `X + 1` divides no odd number of bits. -/
theorem not_dvd_of_odd {generator : (ZMod 2)[X]}
    (heval : generator.eval 1 = 0) {error : List Bool}
    (hodd : Odd (error.count true)) : ¬ generator ∣ poly error := by
  intro hdvd
  have hzero : (poly error).eval 1 = 0 :=
    eval_eq_zero_of_dvd_of_eval_eq_zero hdvd heval
  rw [eval_one_poly, (ZMod.natCast_eq_one_iff_odd).mpr hodd] at hzero
  exact one_ne_zero hzero

theorem isCoprime_X_pow {generator : (ZMod 2)[X]}
    (hconst : generator.coeff 0 ≠ 0) (k : ℕ) :
    IsCoprime generator (X ^ k) := by
  have hX : ¬ (X : (ZMod 2)[X]) ∣ generator := mt X_dvd_iff.mp hconst
  exact ((irreducible_X.coprime_iff_not_dvd.mpr hX).symm).pow_right

/-- A generator with a constant term divides no burst that is shorter than
its degree. -/
theorem not_dvd_of_burst {generator : (ZMod 2)[X]}
    (hconst : generator.coeff 0 ≠ 0) {before burst behind : List Bool}
    (hbefore : true ∉ before) (hbehind : true ∉ behind)
    (hburst : true ∈ burst) (hlength : burst.length ≤ generator.natDegree) :
    ¬ generator ∣ poly (before ++ burst ++ behind) := by
  intro hdvd
  rw [poly_append, poly_append, poly_eq_zero hbefore, poly_eq_zero hbehind,
    zero_mul, zero_add, add_zero] at hdvd
  have hburst_dvd : generator ∣ poly burst :=
    (isCoprime_X_pow hconst behind.length).dvd_of_dvd_mul_right hdvd
  have hgenerator : generator ≠ 0 := by
    intro hzero
    rw [hzero, coeff_zero] at hconst
    exact hconst rfl
  have hdegree : (poly burst).degree < generator.degree := by
    rw [degree_eq_natDegree hgenerator]
    apply lt_of_lt_of_le (degree_poly_lt burst)
    exact_mod_cast hlength
  exact poly_ne_zero hburst (eq_zero_of_dvd_of_degree_lt hburst_dvd hdegree)

/-- The same with the burst given by the positions of its bits. -/
theorem not_dvd_of_window {generator : (ZMod 2)[X]}
    (hconst : generator.coeff 0 ≠ 0) {error : List Bool} {start : ℕ}
    (herror : true ∈ error)
    (hwindow : ∀ i, error[i]? = some true →
      start ≤ i ∧ i < start + generator.natDegree) :
    ¬ generator ∣ poly error := by
  have hsplit : error = error.take start ++
      (error.drop start).take generator.natDegree ++
        (error.drop start).drop generator.natDegree := by
    rw [List.append_assoc, List.take_append_drop, List.take_append_drop]
  have hbefore : true ∉ error.take start := by
    intro hmem
    obtain ⟨i, hi⟩ := List.getElem?_of_mem hmem
    rw [List.getElem?_take] at hi
    split_ifs at hi with hlt
    have hle := (hwindow i hi).1
    omega
  have hbehind :
      true ∉ (error.drop start).drop generator.natDegree := by
    intro hmem
    obtain ⟨i, hi⟩ := List.getElem?_of_mem hmem
    rw [List.drop_drop, List.getElem?_drop] at hi
    have hlt := (hwindow _ hi).2
    omega
  have hburst : true ∈ (error.drop start).take generator.natDegree := by
    rw [hsplit, List.mem_append, List.mem_append] at herror
    rcases herror with (hmem | hmem) | hmem
    · exact (hbefore hmem).elim
    · exact hmem
    · exact (hbehind hmem).elim
  rw [hsplit]
  exact not_dvd_of_burst hconst hbefore hbehind hburst
    (List.length_take_le _ _)

/-! ## The shift register -/

/-- A shift by one bit: the bit that leaves the register is cancelled by the
generator. -/
def shift (width g register : ℕ) : ℕ :=
  let register := register <<< 1
  if register.testBit width then register ^^^ g else register

/-- A byte goes in at the high end and is shifted through. -/
def absorb (width g register byte : ℕ) : ℕ :=
  (shift width g)^[8] (register ^^^ (byte <<< (width - 8)))

noncomputable def generator (width g : ℕ) : (ZMod 2)[X] :=
  poly (toBits (width + 1) g)

/-- The number of a generator with the degree of the width. -/
structure IsGenerator (width g : ℕ) : Prop where
  lead : g.testBit width = true
  lt : g < 2 ^ (width + 1)

variable {width g : ℕ}

theorem shift_lt (hg : IsGenerator width g) {register : ℕ}
    (hregister : register < 2 ^ width) :
    shift width g register < 2 ^ width := by
  have hshifted : register <<< 1 < 2 ^ (width + 1) := by
    rw [Nat.shiftLeft_eq, pow_succ]
    omega
  apply Nat.lt_pow_two_of_testBit
  intro i hi
  have hsplit : i = width ∨ width + 1 ≤ i := by omega
  unfold shift
  dsimp only
  rcases hsplit with rfl | hhigh
  · split_ifs with hbit
    · rw [Nat.testBit_xor, hbit, hg.lead]
      rfl
    · exact eq_false_of_ne_true hbit
  · have hpow := Nat.pow_le_pow_right Nat.two_pos hhigh
    have hlow : (register <<< 1).testBit i = false :=
      Nat.testBit_lt_two_pow (lt_of_lt_of_le hshifted hpow)
    split_ifs
    · rw [Nat.testBit_xor, hlow,
        Nat.testBit_lt_two_pow (lt_of_lt_of_le hg.lt hpow)]
      rfl
    · exact hlow

/-- A shift multiplies by `X` modulo the generator. -/
theorem mk_shift (hg : IsGenerator width g) {register : ℕ}
    (hregister : register < 2 ^ width) :
    AdjoinRoot.mk (generator width g)
        (poly (toBits width (shift width g register))) =
      AdjoinRoot.mk (generator width g)
        (X * poly (toBits width register)) := by
  have hhead : poly (toBits (width + 1) (shift width g register)) =
      poly (toBits width (shift width g register)) := by
    rw [toBits_of_lt (shift_lt hg hregister), poly]
    simp
  have hshifted : poly (toBits (width + 1) (register <<< 1)) =
      X * poly (toBits width register) := by
    have hbehind : poly (List.replicate 1 false) = 0 :=
      poly_eq_zero (by simp)
    rw [toBits_shiftLeft, poly_append, List.length_replicate, pow_one,
      mul_comm, hbehind, add_zero]
  have hcancel : AdjoinRoot.mk (generator width g)
      (poly (toBits (width + 1) g)) = 0 :=
    AdjoinRoot.mk_self
  rw [← hhead, ← hshifted]
  unfold shift
  dsimp only
  split_ifs
  · rw [toBits_xor, poly_zipWith_xor (by simp), map_add, hcancel, add_zero]
  · rfl

theorem shifts_lt (hg : IsGenerator width g) {register : ℕ}
    (hregister : register < 2 ^ width) (n : ℕ) :
    (shift width g)^[n] register < 2 ^ width := by
  induction n with
  | zero => exact hregister
  | succ n ih =>
      rw [Function.iterate_succ_apply']
      exact shift_lt hg ih

theorem mk_shifts (hg : IsGenerator width g) {register : ℕ}
    (hregister : register < 2 ^ width) (n : ℕ) :
    AdjoinRoot.mk (generator width g)
        (poly (toBits width ((shift width g)^[n] register))) =
      AdjoinRoot.mk (generator width g)
        (X ^ n * poly (toBits width register)) := by
  induction n with
  | zero => rw [Function.iterate_zero_apply, pow_zero, one_mul]
  | succ n ih =>
      rw [Function.iterate_succ_apply',
        mk_shift hg (shifts_lt hg hregister n), map_mul, ih, ← map_mul,
        ← mul_assoc, pow_succ']

theorem absorbed_lt (hwidth : 8 ≤ width) {register byte : ℕ}
    (hregister : register < 2 ^ width) (hbyte : byte < 2 ^ 8) :
    register ^^^ (byte <<< (width - 8)) < 2 ^ width := by
  apply Nat.xor_lt_two_pow hregister
  have hpow : 2 ^ width = 2 ^ 8 * 2 ^ (width - 8) := by
    rw [← pow_add, Nat.add_sub_cancel' hwidth]
  rw [Nat.shiftLeft_eq, hpow]
  exact Nat.mul_lt_mul_of_pos_right hbyte (Nat.two_pow_pos _)

theorem absorb_lt (hg : IsGenerator width g) (hwidth : 8 ≤ width)
    {register byte : ℕ} (hregister : register < 2 ^ width)
    (hbyte : byte < 2 ^ 8) : absorb width g register byte < 2 ^ width :=
  shifts_lt hg (absorbed_lt hwidth hregister hbyte) 8

theorem mk_absorb (hg : IsGenerator width g) (hwidth : 8 ≤ width)
    {register byte : ℕ} (hregister : register < 2 ^ width)
    (hbyte : byte < 2 ^ 8) :
    AdjoinRoot.mk (generator width g)
        (poly (toBits width (absorb width g register byte))) =
      AdjoinRoot.mk (generator width g)
        (X ^ 8 * poly (toBits width register) +
          X ^ width * poly (toBits 8 byte)) := by
  have hin : toBits width (byte <<< (width - 8)) =
      toBits 8 byte ++ List.replicate (width - 8) false := by
    rw [← toBits_shiftLeft]
    congr 1
    omega
  have hpow : (X : (ZMod 2)[X]) ^ width = X ^ 8 * X ^ (width - 8) := by
    rw [← pow_add, Nat.add_sub_cancel' hwidth]
  have hbehind : poly (List.replicate (width - 8) false) = 0 :=
    poly_eq_zero (by simp)
  rw [absorb, mk_shifts hg (absorbed_lt hwidth hregister hbyte), toBits_xor,
    poly_zipWith_xor (by simp), hin, poly_append, List.length_replicate,
    hbehind, add_zero, hpow]
  apply congrArg (AdjoinRoot.mk (generator width g))
  ring

/-- The register after a byte string. -/
def remainder (width g : ℕ) (data : List UInt8) : ℕ :=
  data.foldl (fun register b => absorb width g register b.toNat) 0

theorem foldl_absorb (hg : IsGenerator width g) (hwidth : 8 ≤ width)
    (data : List UInt8) {register : ℕ} (hregister : register < 2 ^ width) :
    data.foldl (fun register b => absorb width g register b.toNat) register <
        2 ^ width ∧
      AdjoinRoot.mk (generator width g)
          (poly (toBits width (data.foldl
            (fun register b => absorb width g register b.toNat) register))) =
        AdjoinRoot.mk (generator width g)
          (X ^ (bits data).length * poly (toBits width register) +
            X ^ width * poly (bits data)) := by
  induction data generalizing register with
  | nil =>
      constructor
      · exact hregister
      · rw [List.foldl_nil, bits_nil, poly, List.length_nil, pow_zero,
          one_mul, mul_zero, add_zero]
  | cons b data ih =>
      have hbyte : b.toNat < 2 ^ 8 := b.toNat_lt
      obtain ⟨hlt, hmk⟩ := ih (absorb_lt hg hwidth hregister hbyte)
      rw [List.foldl_cons]
      constructor
      · exact hlt
      · rw [hmk, map_add, map_mul, mk_absorb hg hwidth hregister hbyte,
          ← map_mul, ← map_add, bits_cons, poly_append, List.length_append,
          length_toBits, pow_add]
        apply congrArg (AdjoinRoot.mk (generator width g))
        ring

theorem remainder_lt (hg : IsGenerator width g) (hwidth : 8 ≤ width)
    (data : List UInt8) : remainder width g data < 2 ^ width :=
  (foldl_absorb hg hwidth data (Nat.two_pow_pos width)).1

theorem degree_generator (hg : IsGenerator width g) :
    (generator width g).degree = width := by
  have hone : ((true.toNat : ℕ) : ZMod 2) = 1 := by decide
  have hlow := degree_poly_lt (toBits width g)
  rw [generator, toBits, hg.lead, poly, length_toBits, hone, C_1, one_mul]
  rw [length_toBits] at hlow
  rw [degree_add_eq_left_of_degree_lt (by rwa [degree_X_pow]), degree_X_pow]

theorem natDegree_generator (hg : IsGenerator width g) :
    (generator width g).natDegree = width :=
  natDegree_eq_of_degree_eq_some (degree_generator hg)

/-- A generator with as many terms as vanish at one. -/
theorem eval_one_generator (hg : Even ((toBits (width + 1) g).count true)) :
    (generator width g).eval 1 = 0 := by
  rw [generator, eval_one_poly]
  exact (ZMod.natCast_eq_zero_iff_even).mpr hg

theorem coeff_zero_generator (hg : g.testBit 0 = true) :
    (generator width g).coeff 0 ≠ 0 := by
  have hone : ((true.toNat : ℕ) : ZMod 2) = 1 := by decide
  rw [generator, toBits_add, poly_append, length_toBits, pow_one, toBits,
    hg, toBits, poly, poly, hone]
  simp

/-- A message with its check passes exactly if the generator divides both of
them together. -/
theorem remainder_eq_iff (hg : IsGenerator width g) (hwidth : 8 ≤ width)
    (data : List UInt8) {check : ℕ} (hcheck : check < 2 ^ width) :
    remainder width g data = check ↔
      generator width g ∣ poly (bits data ++ toBits width check) := by
  obtain ⟨hlt, hmk⟩ := foldl_absorb hg hwidth data (Nat.two_pow_pos width)
  rw [← remainder] at hlt hmk
  have hzero : poly (toBits width 0) = 0 := by
    apply poly_eq_zero
    rw [toBits_zero]
    simp
  have hsame : AdjoinRoot.mk (generator width g)
      (poly (bits data ++ toBits width check)) =
        AdjoinRoot.mk (generator width g)
          (poly (toBits width (remainder width g data ^^^ check))) := by
    rw [toBits_xor, poly_zipWith_xor (by simp), map_add, hmk, hzero,
      mul_zero, zero_add, poly_append, length_toBits, map_add,
      mul_comm (poly (bits data))]
  rw [← AdjoinRoot.mk_eq_zero, hsame, AdjoinRoot.mk_eq_zero]
  constructor
  · intro heq
    rw [heq, Nat.xor_self, hzero]
    exact dvd_zero _
  · intro hdvd
    have hdegree : (poly (toBits width
        (remainder width g data ^^^ check))).degree <
          (generator width g).degree := by
      have hlow := degree_poly_lt
        (toBits width (remainder width g data ^^^ check))
      rw [length_toBits] at hlow
      rwa [degree_generator hg]
    have hpoly := eq_zero_of_dvd_of_degree_lt hdvd hdegree
    have hbits : toBits width (remainder width g data ^^^ check) =
        toBits width 0 :=
      poly_injective (by simp) (hpoly.trans hzero.symm)
    have hxor := toBits_injective (Nat.xor_lt_two_pow hlt hcheck)
      (Nat.two_pow_pos width) hbits
    calc remainder width g data
        = remainder width g data ^^^ check ^^^ check := by
          rw [Nat.xor_assoc, Nat.xor_self, Nat.xor_zero]
      _ = check := by rw [hxor, Nat.zero_xor]

end CyclicRedundancy
