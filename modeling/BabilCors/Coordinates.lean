import BabilCors.ExactFloat
import BabilCors.Nmea
import BabilCors.PyNumbers

/-!
# Coordinates

A latitude or longitude as it is written, degrees and minutes without anything
between them, and the two ways `nmea.py` reads it: `_parse_lat` and
`_parse_lon` cut the text behind the degrees, `_parse_lat_lon` divides the
number by a hundred.  In exact arithmetic both give the same angle.
-/

namespace Py

/-! ## Decimal fractions -/

def digitText (ds : List (Fin 10)) : List Char :=
  ds.map fun digit => Nat.digitChar digit.val

def digitsValue (ds : List (Fin 10)) : ℕ :=
  Nat.ofDigits 10 (ds.map Fin.val).reverse

/-- A point and the digits behind it, or nothing. -/
def fractionText : Option (List (Fin 10)) → List Char
  | none => []
  | some ds => '.' :: digitText ds

def fractionValue : Option (List (Fin 10)) → ℚ
  | none => 0
  | some ds => digitsValue ds / 10 ^ ds.length

theorem digitsValue_append (ds es : List (Fin 10)) :
    digitsValue (ds ++ es) =
      digitsValue ds * 10 ^ es.length + digitsValue es := by
  unfold digitsValue
  rw [List.map_append, List.reverse_append, Nat.ofDigits_append,
    List.length_reverse, List.length_map]
  ring

theorem digitsValue_lt (ds : List (Fin 10)) :
    digitsValue ds < 10 ^ ds.length := by
  have hlt := Nat.ofDigits_lt_base_pow_length (b := 10)
    (l := (ds.map Fin.val).reverse) (by decide) (by
      intro d hd
      obtain ⟨digit, -, rfl⟩ := List.mem_map.mp (List.mem_reverse.mp hd)
      exact digit.isLt)
  rwa [List.length_reverse, List.length_map] at hlt

theorem fractionValue_nonneg (decimals : Option (List (Fin 10))) :
    0 ≤ fractionValue decimals := by
  cases decimals with
  | none => exact le_refl 0
  | some ds =>
      unfold fractionValue
      positivity

theorem fractionValue_lt_one (decimals : Option (List (Fin 10))) :
    fractionValue decimals < 1 := by
  cases decimals with
  | none => exact zero_lt_one
  | some ds =>
      have hlt : (digitsValue ds : ℚ) < 10 ^ ds.length := by
        exact_mod_cast digitsValue_lt ds
      unfold fractionValue
      rw [div_lt_one (by positivity)]
      exact hlt

theorem decimalDigits?_digitText {ds : List (Fin 10)} (hne : ds ≠ []) :
    decimalDigits? (digitText ds) = some (digitsValue ds, ds.length) := by
  have hvalue : digits 10 digitValue? false 0 (digitText ds) =
      some (digitsValue ds) := Decimal.digits_digitChars hne
  have hcount : ((digitText ds).countP fun c => c != '_') = ds.length := by
    rw [List.countP_eq_length.mpr, digitText, List.length_map]
    intro c hc
    obtain ⟨digit, -, rfl⟩ := List.mem_map.mp hc
    exact bne_iff_ne.mpr (Decimal.digitChar_ne digit (by decide))
  rw [decimalDigits?, hvalue, hcount]
  rfl

/-- What the characters of a decimal fraction are not. -/
theorem mem_decimal {whole : List (Fin 10)} {decimals : Option (List (Fin 10))}
    {c : Char} (hc : c ∈ digitText whole ++ fractionText decimals) :
    isSpace c = false ∧ c ≠ 'e' ∧ c ≠ 'E' ∧ c ≠ '-' ∧ c ≠ '+' := by
  have hdigits {ds : List (Fin 10)} (hmem : c ∈ digitText ds) :
      isSpace c = false ∧ c ≠ 'e' ∧ c ≠ 'E' ∧ c ≠ '-' ∧ c ≠ '+' := by
    obtain ⟨digit, -, rfl⟩ := List.mem_map.mp hmem
    obtain ⟨hspace, -, -⟩ := Decimal.digitChar_plain digit
    exact ⟨hspace, Decimal.digitChar_ne digit (by decide),
      Decimal.digitChar_ne digit (by decide),
      Decimal.digitChar_ne digit (by decide),
      Decimal.digitChar_ne digit (by decide)⟩
  rcases List.mem_append.mp hc with hwhole | hfraction
  · exact hdigits hwhole
  · cases decimals with
    | none => cases hfraction
    | some ds =>
        rcases List.mem_cons.mp hfraction with rfl | hrest
        · decide
        · exact hdigits hrest

theorem point_notMem_digitText (ds : List (Fin 10)) : '.' ∉ digitText ds := by
  intro hpoint
  obtain ⟨digit, -, hdigit⟩ := List.mem_map.mp hpoint
  exact Decimal.digitChar_ne digit (by decide) hdigit

theorem decimalMantissa?_text {whole : List (Fin 10)} (hne : whole ≠ [])
    (decimals : Option (List (Fin 10))) :
    decimalMantissa? (digitText whole ++ fractionText decimals) =
      some (digitsValue whole + fractionValue decimals) := by
  have hwhole : digitText whole ≠ [] :=
    fun hnil => hne (List.map_eq_nil_iff.mp hnil)
  unfold decimalMantissa?
  cases decimals with
  | none =>
      rw [fractionText, List.append_nil,
        List.splitOn_eq_singleton (point_notMem_digitText whole)]
      dsimp only
      rw [decimalDigits?_digitText hne, fractionValue, add_zero]
      rfl
  | some ds =>
      rw [fractionText, List.splitOn_append_cons_self_of_not_mem
          (point_notMem_digitText whole),
        List.splitOn_eq_singleton (point_notMem_digitText ds)]
      dsimp only
      rw [if_neg fun hboth => hwhole hboth.1, if_neg hwhole,
        decimalDigits?_digitText hne, Option.bind_some]
      cases ds with
      | nil =>
          have hnil : digitText [] = [] := rfl
          rw [if_pos hnil]
          rfl
      | cons digit ds =>
          rw [if_neg (by simp [digitText]),
            decimalDigits?_digitText (List.cons_ne_nil digit ds)]
          rfl

/-- Digits with any number of decimals are their exact value. -/
theorem decimalValue?_text {whole : List (Fin 10)} (hne : whole ≠ [])
    (decimals : Option (List (Fin 10))) :
    decimalValue? (.ofList (digitText whole ++ fractionText decimals)) =
      some (digitsValue whole + fractionValue decimals) := by
  have hsplit : ((digitText whole ++ fractionText decimals).splitOnP
      fun c => c = 'e' || c = 'E') =
        [digitText whole ++ fractionText decimals] := by
    apply List.splitOnP_eq_singleton
    intro c hc
    obtain ⟨-, he, hE, -⟩ := mem_decimal hc
    simp [he, hE]
  unfold decimalValue?
  rw [numberBody_of_noSpace fun c hc => (mem_decimal hc).1]
  have hunsigned : decimalUnsigned?
      (digitText whole ++ fractionText decimals) =
        some (digitsValue whole + fractionValue decimals) := by
    rw [decimalUnsigned?, hsplit]
    exact decimalMantissa?_text hne decimals
  split
  · next heq =>
      have hminus := (mem_decimal (heq ▸ List.mem_cons_self)).2.2.2.1
      exact (hminus rfl).elim
  · next heq =>
      have hplus := (mem_decimal (heq ▸ List.mem_cons_self)).2.2.2.2
      exact (hplus rfl).elim
  · exact hunsigned

end Py

namespace BabilCors

open Py

/-! ## An angle in degrees and minutes -/

/-- Some degree digits, two minute digits, and any decimals of the minutes. -/
structure WrittenAngle (n : ℕ) where
  degrees : List (Fin 10)
  minutes : List (Fin 10)
  decimals : Option (List (Fin 10))
  degrees_length : degrees.length = n
  minutes_length : minutes.length = 2

namespace WrittenAngle

variable {n : ℕ}

def minutesText (a : WrittenAngle n) : List Char :=
  digitText a.minutes ++ fractionText a.decimals

def text (a : WrittenAngle n) : String :=
  .ofList (digitText a.degrees ++ a.minutesText)

def minutesValue (a : WrittenAngle n) : ℚ :=
  digitsValue a.minutes + fractionValue a.decimals

/-- Degrees plus minutes over sixty. -/
def value (a : WrittenAngle n) : ℚ :=
  digitsValue a.degrees + a.minutesValue / 60

def signed (a : WrittenAngle n) (negative : Bool) : ℚ :=
  if negative then -a.value else a.value

theorem minutes_ne_nil (a : WrittenAngle n) : a.minutes ≠ [] := by
  intro hnil
  have hlength := a.minutes_length
  rw [hnil] at hlength
  cases hlength

theorem minutesValue_nonneg (a : WrittenAngle n) : 0 ≤ a.minutesValue := by
  have hfraction := fractionValue_nonneg a.decimals
  unfold minutesValue
  positivity

theorem minutesValue_lt (a : WrittenAngle n) : a.minutesValue < 100 := by
  have hdigits := digitsValue_lt a.minutes
  rw [a.minutes_length] at hdigits
  have hle : (digitsValue a.minutes : ℚ) ≤ 99 := by
    exact_mod_cast Nat.lt_succ_iff.mp hdigits
  have hfraction := fractionValue_lt_one a.decimals
  unfold minutesValue
  linarith

theorem value_nonneg (a : WrittenAngle n) : 0 ≤ a.value := by
  have hminutes := a.minutesValue_nonneg
  unfold value
  positivity

theorem text_ne_empty (a : WrittenAngle n) : a.text ≠ "" := by
  intro hempty
  have hnil : digitText a.degrees ++ a.minutesText = [] := by
    have hlist := congrArg String.toList hempty
    rwa [text, String.toList_ofList] at hlist
  have hminutes := (List.append_eq_nil_iff.mp
    (List.append_eq_nil_iff.mp hnil).2).1
  exact a.minutes_ne_nil (List.map_eq_nil_iff.mp hminutes)

/-- The number of the whole text: the degrees are its hundreds. -/
theorem ofString?_text (a : WrittenAngle n) :
    (PyFloat.ofString? a.text : Option ℚ) =
      some (digitsValue a.degrees * 100 + a.minutesValue) := by
  have htext : digitText a.degrees ++ a.minutesText =
      digitText (a.degrees ++ a.minutes) ++ fractionText a.decimals := by
    rw [digitText, digitText, List.map_append, List.append_assoc]
    rfl
  have hne : a.degrees ++ a.minutes ≠ [] :=
    List.append_ne_nil_of_right_ne_nil a.degrees a.minutes_ne_nil
  change decimalValue? a.text = _
  rw [text, htext, decimalValue?_text hne, digitsValue_append,
    a.minutes_length, minutesValue]
  push_cast
  congr 1
  ring

/-! ## Cutting behind the degrees -/

theorem parseDegrees_text (a : WrittenAngle n) (hpos : 0 < n)
    (hfits : n ≤ maxStrDigits) (negative hemi : String) :
    parseDegrees n negative a.text hemi =
      some (a.signed (hemi = negative)) := by
  have hdegrees : a.degrees ≠ [] := by
    intro hnil
    have hlength := a.degrees_length
    rw [hnil, List.length_nil] at hlength
    omega
  have hlength : (digitText a.degrees).length = n := by
    rw [digitText, List.length_map, a.degrees_length]
  have htake : (digitText a.degrees ++ a.minutesText).take n =
      digitText a.degrees := by
    rw [List.take_append_of_le_length hlength.ge,
      List.take_of_length_le hlength.le]
  have hdrop : (digitText a.degrees ++ a.minutesText).drop n =
      a.minutesText := by
    rw [List.drop_append_of_le_length hlength.ge,
      List.drop_of_length_le hlength.le, List.nil_append]
  have hint : int? (.ofList (digitText a.degrees)) =
      some (digitsValue a.degrees : ℤ) := by
    have htext := Decimal.int?_text ⟨a.degrees, hdegrees⟩
    rw [if_pos (by unfold Decimal.Fits; rw [a.degrees_length]; exact hfits)]
      at htext
    exact htext
  have hminutes : (PyFloat.ofString? (.ofList a.minutesText) : Option ℚ) =
      some a.minutesValue :=
    decimalValue?_text a.minutes_ne_nil a.decimals
  unfold parseDegrees
  rw [if_neg a.text_ne_empty, text, String.toList_ofList, htake, hdrop, hint,
    Option.bind_some, hminutes, Option.map_some]
  by_cases hsign : hemi = negative
  · simp [hsign, signed, value, PyFloat.mul, PyFloat.add, PyFloat.div,
      PyFloat.ofInt]
  · simp [hsign, signed, value, PyFloat.mul, PyFloat.add, PyFloat.div,
      PyFloat.ofInt]

/-! ## Dividing by a hundred -/

theorem floor_hundreds {degrees : ℕ} {minutes : ℚ} (hnonneg : 0 ≤ minutes)
    (hlt : minutes < 100) :
    ⌊((degrees : ℚ) * 100 + minutes) / 100⌋ = (degrees : ℤ) := by
  rw [Int.floor_eq_iff]
  push_cast
  constructor
  · rw [le_div_iff₀ (by norm_num)]
    linarith
  · rw [div_lt_iff₀ (by norm_num)]
    linarith

theorem floatOfInt_degrees {k : ℕ} (hk : k < 10 ^ 5) :
    (floatOfInt (k : ℤ) : Except PyErr ℚ) = .ok k := by
  have hbound : 10 ^ 5 ≤ floatBound := by
    decide +kernel
  unfold floatOfInt
  rw [if_neg (by rw [Int.natAbs_natCast]; omega)]
  rfl

theorem convLatLon_text (a : WrittenAngle n) (hn : n ≤ 3) :
    (convLatLon a.text : Except PyErr ℚ) = .ok a.value := by
  have hdegrees : digitsValue a.degrees < 10 ^ 3 := by
    calc
      digitsValue a.degrees < 10 ^ a.degrees.length := digitsValue_lt _
      _ ≤ 10 ^ 3 := by
        rw [a.degrees_length]
        exact Nat.pow_le_pow_right (by decide) hn
  have hdeg : (intOfFloat (PyFloat.floorDiv
      ((digitsValue a.degrees : ℚ) * 100 + a.minutesValue)
        (PyFloat.ofInt 100)) : Except PyErr ℤ) =
          .ok (digitsValue a.degrees : ℤ) := by
    have hfloor := @floor_hundreds (digitsValue a.degrees) _
      a.minutesValue_nonneg a.minutesValue_lt
    simp only [PyFloat.floorDiv, PyFloat.ofInt, intOfFloat, PyFloat.trunc?]
    push_cast
    rw [hfloor]
    simp
  have hhundreds : (floatOfInt ((digitsValue a.degrees : ℤ) * 100) :
      Except PyErr ℚ) = .ok ((digitsValue a.degrees * 100 : ℕ) : ℚ) := by
    have hfits : digitsValue a.degrees * 100 < 10 ^ 5 := by
      omega
    exact_mod_cast floatOfInt_degrees hfits
  have hwhole : (floatOfInt (digitsValue a.degrees : ℤ) : Except PyErr ℚ) =
      .ok (digitsValue a.degrees : ℚ) :=
    floatOfInt_degrees (by omega)
  unfold convLatLon
  rw [if_neg a.text_ne_empty, a.ofString?_text]
  dsimp only
  rw [hdeg]
  simp only [bind, Except.bind, pure, Except.pure]
  rw [hhundreds, hwhole]
  simp [PyFloat.add, PyFloat.sub, PyFloat.div, PyFloat.ofInt, value]

end WrittenAngle

/-! ## Both readings -/

def latitudeLetter (south : Bool) : String :=
  if south then "S" else "N"

def longitudeLetter (west : Bool) : String :=
  if west then "W" else "E"

theorem neg_abs_value {n : ℕ} (a : WrittenAngle n) :
    PyFloat.neg (PyFloat.abs a.value) = -a.value :=
  congrArg Neg.neg (abs_of_nonneg a.value_nonneg)

/-- The fields of a GGA sentence and those of an RMC sentence give the same
latitude and longitude, negative to the south and to the west. -/
theorem coordinates_agree (lat : WrittenAngle 2) (lon : WrittenAngle 3)
    (south west : Bool) :
    (parseLat lat.text (latitudeLetter south) : Option ℚ) =
        some (lat.signed south) ∧
      (parseLon lon.text (longitudeLetter west) : Option ℚ) =
        some (lon.signed west) ∧
      (parseLatLon lat.text (latitudeLetter south) lon.text
        (longitudeLetter west) : Except PyErr (ℚ × ℚ)) =
          .ok (lat.signed south, lon.signed west) := by
  refine ⟨?_, ?_, ?_⟩
  · have hlat := lat.parseDegrees_text (by decide) (by decide) "S"
      (latitudeLetter south)
    cases south with
    | false => exact hlat
    | true => exact hlat
  · have hlon := lon.parseDegrees_text (by decide) (by decide) "W"
      (longitudeLetter west)
    cases west with
    | false => exact hlon
    | true => exact hlon
  · unfold parseLatLon
    rw [lat.convLatLon_text (by decide), lon.convLatLon_text (by decide)]
    simp only [bind, Except.bind, pure, Except.pure, neg_abs_value]
    cases south with
    | false =>
        cases west with
        | false => rfl
        | true => rfl
    | true =>
        cases west with
        | false => rfl
        | true => rfl

end BabilCors
