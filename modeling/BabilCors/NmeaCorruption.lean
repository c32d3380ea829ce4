import Mathlib.Data.LawfulXor.Basic
import BabilCors.ExactFloat
import BabilCors.GsvSentences

/-!
# Corrupted NMEA sentences

The xor of a sentence sees every change of one character: a replaced character
changes it by the xor of the two, and a lost one by the character itself.  A
star that comes or goes in the body does not move the last star, so the number
behind it stays the same.
-/

namespace BabilCors

open Py

/-! ## The xor of a text -/

def xorOf (cs : List Char) : ℕ :=
  cs.foldl (fun x ch => x ^^^ ch.toNat) 0

theorem foldl_xor (x : ℕ) (cs : List Char) :
    cs.foldl (fun x ch => x ^^^ ch.toNat) x = x ^^^ xorOf cs := by
  induction cs generalizing x with
  | nil => exact (Nat.xor_zero x).symm
  | cons c cs ih =>
      have hcons : xorOf (c :: cs) = c.toNat ^^^ xorOf cs := by
        rw [xorOf, List.foldl_cons, ih, Nat.zero_xor]
      rw [List.foldl_cons, ih, hcons, Nat.xor_assoc]

theorem xorOf_cons (c : Char) (cs : List Char) :
    xorOf (c :: cs) = c.toNat ^^^ xorOf cs := by
  rw [xorOf, List.foldl_cons, foldl_xor, Nat.zero_xor]

theorem xorOf_append (cs ds : List Char) :
    xorOf (cs ++ ds) = xorOf cs ^^^ xorOf ds := by
  rw [xorOf, List.foldl_append, foldl_xor]
  rfl

/-- What stands in front does not hide a difference. -/
theorem xorOf_append_inj {cs ds es : List Char}
    (hsame : xorOf (cs ++ ds) = xorOf (cs ++ es)) : xorOf ds = xorOf es := by
  rw [xorOf_append, xorOf_append] at hsame
  calc
    xorOf ds = xorOf cs ^^^ (xorOf cs ^^^ xorOf ds) :=
      (xor_cancel_left _ _).symm
    _ = xorOf cs ^^^ (xorOf cs ^^^ xorOf es) := by
      rw [hsame]
    _ = xorOf es := xor_cancel_left _ _

/-- Between the same neighbours the xor tells two characters apart. -/
theorem xorOf_replace {c d : Char} (hne : c ≠ d) (cs ds : List Char) :
    xorOf (cs ++ d :: ds) ≠ xorOf (cs ++ c :: ds) := by
  intro hsame
  have htail := xorOf_append_inj hsame
  rw [xorOf_cons, xorOf_cons] at htail
  have hcode : d.toNat = c.toNat := by
    calc
      d.toNat = d.toNat ^^^ xorOf ds ^^^ xorOf ds :=
        (xor_cancel_right _ _).symm
      _ = c.toNat ^^^ xorOf ds ^^^ xorOf ds := by
        rw [htail]
      _ = c.toNat := xor_cancel_right _ _
  exact hne (Char.toNat_inj.mp hcode.symm)

theorem xorOf_delete {c : Char} (hnul : c.toNat ≠ 0) (cs ds : List Char) :
    xorOf (cs ++ ds) ≠ xorOf (cs ++ c :: ds) := by
  intro hsame
  have htail := xorOf_append_inj hsame
  rw [xorOf_cons] at htail
  apply hnul
  calc
    c.toNat = c.toNat ^^^ xorOf ds ^^^ xorOf ds :=
      (xor_cancel_right _ _).symm
    _ = xorOf ds ^^^ xorOf ds := by
      rw [← htail]
    _ = 0 := Nat.xor_self _

/-! ## The last star -/

theorem checksumOk_iff {body cs : List Char} (hstar : '*' ∉ cs) :
    checksumOk (.ofList ('$' :: body ++ '*' :: cs)) = true ↔
      intBase16? (.ofList cs) = some (xorOf body : ℤ) := by
  unfold checksumOk
  rw [rpartition?_of_notMem hstar]
  dsimp only
  rw [String.toList_ofList]
  cases intBase16? (.ofList cs) with
  | none => simp
  | some val =>
      dsimp only
      rw [decide_eq_true_iff, Option.some.injEq]
      exact eq_comm

/-! ## Refused by every parser -/

/-- `_checksum_ok` is false and no parser returns a value. -/
structure Refused (F : Type) [PyFloat F] (line : String) : Prop where
  checksum : checksumOk line = false
  gga : (parseGga line : Option (Gga F)) = none
  gsa : (parseGsa line : Option (Gsa F)) = none
  gsv : parseGsv line = none
  rmc : (parseRmc line : Option (Rmc F)) = none
  vtg : (parseVtg line : Option (Vtg F)) = none
  zda : parseZda line = none

theorem refused_of_checksum (F : Type) [PyFloat F] {line : String}
    (hchecksum : checksumOk line = false) : Refused F line := by
  have hparts (least : ℕ) : sentenceParts? line least = none := by
    unfold sentenceParts?
    rw [hchecksum, Bool.and_false, if_neg Bool.false_ne_true]
  exact
    { checksum := hchecksum
      gga := by rw [parseGga, hparts]; rfl
      gsa := by rw [parseGsa, hparts]; rfl
      gsv := by rw [parseGsv, hparts]; rfl
      rmc := by rw [parseRmc, hparts]; rfl
      vtg := by rw [parseVtg, hparts]; rfl
      zda := by rw [parseZda, hparts]; rfl }

/-- Another body before the same number is refused if its xor is another. -/
theorem refused_of_body (F : Type) [PyFloat F] {body other cs : List Char}
    (hstar : '*' ∉ cs)
    (hok : checksumOk (.ofList ('$' :: body ++ '*' :: cs)) = true)
    (hne : xorOf other ≠ xorOf body) :
    Refused F (.ofList ('$' :: other ++ '*' :: cs)) := by
  apply refused_of_checksum
  rw [← Bool.not_eq_true, checksumOk_iff hstar, (checksumOk_iff hstar).mp hok]
  intro hsame
  exact hne (by exact_mod_cast (Option.some.inj hsame).symm)

theorem Refused.replaced {F : Type} [PyFloat F] {body cs : List Char}
    (hstar : '*' ∉ cs)
    (hok : checksumOk (.ofList ('$' :: body ++ '*' :: cs)) = true) {j : ℕ}
    (hj : j < body.length) {d : Char} (hne : body[j] ≠ d) :
    Refused F (.ofList ('$' :: body.set j d ++ '*' :: cs)) := by
  apply refused_of_body F hstar hok
  have hbody : body = body.take j ++ body[j] :: body.drop (j + 1) := by
    rw [List.cons_getElem_drop_succ, List.take_append_drop]
  have hxor := xorOf_replace hne (body.take j) (body.drop (j + 1))
  rw [List.set_eq_take_append_cons_drop, if_pos hj]
  rwa [← hbody] at hxor

theorem Refused.deleted {F : Type} [PyFloat F] {body cs : List Char}
    (hstar : '*' ∉ cs)
    (hok : checksumOk (.ofList ('$' :: body ++ '*' :: cs)) = true) {j : ℕ}
    (hj : j < body.length) (hnul : body[j].toNat ≠ 0) :
    Refused F (.ofList ('$' :: body.eraseIdx j ++ '*' :: cs)) := by
  apply refused_of_body F hstar hok
  have hbody : body = body.take j ++ body[j] :: body.drop (j + 1) := by
    rw [List.cons_getElem_drop_succ, List.take_append_drop]
  have hxor := xorOf_delete hnul (body.take j) (body.drop (j + 1))
  rwa [← hbody, ← List.eraseIdx_eq_take_drop_succ] at hxor

/-! ## Two hexadecimal digits -/

end BabilCors
