import BabilCors.PyValue

/-!
# Exact arithmetic in place of floats

The rationals as an implementation of `PyFloat`: a decimal text denotes its
exact value, and no operation rounds.  There are no infinities and no NaN.
-/

namespace Py

/-- Digits with single underscores between them, their number counted. -/
def decimalDigits? (cs : List Char) : Option (ℕ × ℕ) :=
  (digits 10 digitValue? false 0 cs).map fun n =>
    (n, cs.countP fun c => c != '_')

def decimalMantissa? (cs : List Char) : Option ℚ :=
  match cs.splitOn '.' with
  | [whole] => (decimalDigits? whole).map fun w => (w.1 : ℚ)
  | [whole, fraction] =>
      if whole = [] ∧ fraction = [] then none
      else
        let part (cs : List Char) : Option (ℕ × ℕ) :=
          if cs = [] then some (0, 0) else decimalDigits? cs
        (part whole).bind fun w =>
          (part fraction).map fun f => (w.1 : ℚ) + f.1 / 10 ^ f.2
  | _ => none

def decimalUnsigned? (cs : List Char) : Option ℚ :=
  match cs.splitOnP fun c => c = 'e' || c = 'E' with
  | [mantissa] => decimalMantissa? mantissa
  | [mantissa, exponent] =>
      (decimalMantissa? mantissa).bind fun m =>
        (signed (digits 10 digitValue? false 0) exponent).map fun e =>
          m * 10 ^ e
  | _ => none

def decimalValue? (s : String) : Option ℚ :=
  match numberBody s with
  | '-' :: cs => (decimalUnsigned? cs).map fun x => -x
  | '+' :: cs => decimalUnsigned? cs
  | cs => decimalUnsigned? cs

instance : PyFloat ℚ where
  ofString? := decimalValue?
  ofInt n := n
  quot a b := (a : ℚ) / b
  trunc? x := some (if 0 ≤ x then ⌊x⌋ else ⌈x⌉)
  isNaN _ := false
  repr x := toString x
  add x y := x + y
  sub x y := x - y
  mul x y := x * y
  div x y := x / y
  floorDiv x y := ⌊x / y⌋
  neg x := -x
  abs x := |x|
  lt x y := x < y
  beq x y := x = y
  round1 x := round (x * 10) / 10
  printable _ := true

example : decimalValue? " -12.50e1 " = some (-125) := by decide +kernel

end Py
