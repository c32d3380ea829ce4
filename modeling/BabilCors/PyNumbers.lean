import Mathlib.Data.Nat.Digits.Defs
import BabilCors.PyText

/-!
# Numbers as they are written

What `int` makes of a text of digits: of a decimal with any number of leading
zeros, and of the hexadecimal text of at least two digits that `format` gives.
-/

namespace Py

theorem trim_of_ends {p : Char → Bool} {cs : List Char}
    (hleading : ∀ c, cs.head? = some c → p c = false)
    (htrailing : ∀ c, cs.getLast? = some c → p c = false) :
    (cs.dropWhile p).rdropWhile p = cs := by
  have hdrop : cs.dropWhile p = cs := by
    apply List.dropWhile_eq_self_iff.mpr
    intro hlength
    have hhead : cs.head? = some cs[0] := by
      rw [List.head?_eq_getElem?, List.getElem?_eq_getElem hlength]
    rw [hleading _ hhead]
    exact Bool.false_ne_true
  have hrdrop : cs.rdropWhile p = cs := by
    apply List.rdropWhile_eq_self_iff.mpr
    intro hne
    rw [htrailing _ (List.getLast?_eq_some_getLast hne)]
    exact Bool.false_ne_true
  rw [hdrop, hrdrop]

theorem strip_of_ends {cs : List Char}
    (hleading : ∀ c, cs.head? = some c → isSpace c = false)
    (htrailing : ∀ c, cs.getLast? = some c → isSpace c = false) :
    strip (.ofList cs) = .ofList cs := by
  rw [strip, String.toList_ofList, trim_of_ends hleading htrailing]

theorem strip_of_noSpace {cs : List Char}
    (hspace : ∀ c ∈ cs, isSpace c = false) : strip (.ofList cs) = .ofList cs :=
  strip_of_ends (fun _ hc => hspace _ (List.mem_of_head? hc))
    (fun _ hc => hspace _ (List.mem_of_getLast? hc))

theorem isNumberSpace_of_noSpace {c : Char} (hc : isSpace c = false) :
    isNumberSpace c = false := by
  unfold isNumberSpace
  dsimp only
  split_ifs
  · simp only [isSpace, Bool.or_eq_false_iff, Bool.and_eq_false_iff,
      decide_eq_false_iff_not, beq_eq_false_iff_ne] at hc ⊢
    omega
  · exact hc

theorem numberBody_of_noSpace {cs : List Char}
    (hspace : ∀ c ∈ cs, isSpace c = false) :
    numberBody (.ofList cs) = cs := by
  unfold numberBody
  rw [String.toList_ofList]
  exact trim_of_ends
    (fun _ hc => isNumberSpace_of_noSpace (hspace _ (List.mem_of_head? hc)))
    (fun _ hc => isNumberSpace_of_noSpace (hspace _ (List.mem_of_getLast? hc)))

theorem signed_of_unsigned {unsigned : List Char → Option ℕ} {cs : List Char}
    (hplus : '+' ∉ cs) (hminus : '-' ∉ cs) :
    signed unsigned cs = (unsigned cs).map Int.ofNat := by
  unfold signed
  split
  · simp at hplus
  · simp at hminus
  · rfl

/-- The value of a text of digits, the most significant first. -/
theorem digits_map {base : ℕ} {value? : Char → Option ℕ} {char : ℕ → Char}
    {ds : List ℕ}
    (hds : ∀ d ∈ ds, char d ≠ '_' ∧ value? (char d) = some d) (acc : ℕ) :
    digits base value? true acc (ds.map char) =
      some (ds.foldl (fun acc d => acc * base + d) acc) := by
  induction ds generalizing acc with
  | nil => rfl
  | cons d ds ih =>
      obtain ⟨⟨hunderscore, hvalue⟩, hrest⟩ := List.forall_mem_cons.mp hds
      rw [List.map_cons, digits, if_neg hunderscore, hvalue, Option.bind_some,
        ih hrest]
      rfl

theorem foldl_eq_ofDigits (base : ℕ) (ds : List ℕ) :
    ds.foldl (fun acc d => acc * base + d) 0 =
      Nat.ofDigits base ds.reverse := by
  rw [Nat.ofDigits_eq_foldr, List.foldr_reverse]
  congr 1
  funext acc d
  simp only [Nat.cast_id]
  ring

/-- The text of at least one digit. -/
theorem digits_text {base : ℕ} {value? : Char → Option ℕ} {char : ℕ → Char}
    {ds : List ℕ} (hne : ds ≠ [])
    (hds : ∀ d ∈ ds, char d ≠ '_' ∧ value? (char d) = some d) :
    digits base value? false 0 (ds.map char) =
      some (Nat.ofDigits base ds.reverse) := by
  rw [← foldl_eq_ofDigits]
  cases ds with
  | nil => exact (hne rfl).elim
  | cons d ds =>
      obtain ⟨⟨hunderscore, hvalue⟩, hrest⟩ := List.forall_mem_cons.mp hds
      rw [List.map_cons, digits, if_neg hunderscore, hvalue, Option.bind_some,
        digits_map hrest]
      rfl

/-- A text with a character that is no digit is no number. -/
theorem digits_eq_none {base : ℕ} {value? : Char → Option ℕ} {c : Char}
    (hunderscore : c ≠ '_') (hvalue : value? c = none) {cs : List Char}
    (hc : c ∈ cs) (flag : Bool) (acc : ℕ) :
    digits base value? flag acc cs = none := by
  induction cs generalizing flag acc with
  | nil => cases hc
  | cons first cs ih =>
      unfold digits
      rcases List.mem_cons.mp hc with rfl | hrest
      · rw [if_neg hunderscore, hvalue]
        rfl
      · split_ifs
        · exact ih hrest false acc
        · rfl
        · cases value? first with
          | none => rfl
          | some d => exact ih hrest true _

/-! ## Decimals -/

/-- A number in decimal, with any leading zeros. -/
structure Decimal where
  digits : List (Fin 10)
  digits_ne_nil : digits ≠ []

namespace Decimal

def text (d : Decimal) : List Char :=
  d.digits.map fun digit => Nat.digitChar digit.val

def value (d : Decimal) : ℕ :=
  Nat.ofDigits 10 (d.digits.map Fin.val).reverse

/-- `int` takes no more digits. -/
def Fits (d : Decimal) : Prop :=
  d.digits.length ≤ maxStrDigits

instance (d : Decimal) : Decidable d.Fits :=
  inferInstanceAs (Decidable (_ ≤ _))

theorem digitChar_plain (digit : Fin 10) :
    isSpace (Nat.digitChar digit.val) = false ∧
      Nat.digitChar digit.val ∉ ['+', '-', '_', ',', '*', '.', 'e', 'E'] ∧
      digitValue? (Nat.digitChar digit.val) = some digit.val := by
  revert digit
  decide

theorem digitChar_ne (digit : Fin 10) {c : Char}
    (hc : c ∈ ['+', '-', '_', ',', '*', '.', 'e', 'E']) :
    Nat.digitChar digit.val ≠ c := by
  intro heq
  obtain ⟨-, hplain, -⟩ := digitChar_plain digit
  exact hplain (heq ▸ hc)

/-- The value of decimal digits as a text. -/
theorem digits_digitChars {ds : List (Fin 10)} (hne : ds ≠ []) :
    Py.digits 10 digitValue? false 0
        (ds.map fun digit => Nat.digitChar digit.val) =
      some (Nat.ofDigits 10 (ds.map Fin.val).reverse) := by
  have hmap : (ds.map fun digit => Nat.digitChar digit.val) =
      (ds.map Fin.val).map Nat.digitChar := by
    rw [List.map_map]
    rfl
  rw [hmap]
  apply digits_text fun hnil => hne (List.map_eq_nil_iff.mp hnil)
  intro n hn
  obtain ⟨digit, -, rfl⟩ := List.mem_map.mp hn
  obtain ⟨-, -, hdigit⟩ := digitChar_plain digit
  exact ⟨digitChar_ne digit (by decide), hdigit⟩

theorem mem_text {d : Decimal} {c : Char} (hc : c ∈ d.text) :
    isSpace c = false ∧ c ∉ ['+', '-', '_', ',', '*', '.', 'e', 'E'] ∧
      (digitValue? c).isSome = true := by
  obtain ⟨digit, -, rfl⟩ := List.mem_map.mp hc
  obtain ⟨hspace, hplain, hvalue⟩ := digitChar_plain digit
  exact ⟨hspace, hplain, by rw [hvalue]; rfl⟩

theorem text_ne_nil (d : Decimal) : d.text ≠ [] :=
  fun hnil => d.digits_ne_nil (List.map_eq_nil_iff.mp hnil)

theorem int?_text (d : Decimal) :
    int? (.ofList d.text) = if d.Fits then some (d.value : ℤ) else none := by
  have hbody := numberBody_of_noSpace fun c hc => (mem_text (d := d) hc).1
  have hcount : (d.text.countP fun c => (digitValue? c).isSome) =
      d.digits.length := by
    rw [List.countP_eq_length.mpr fun c hc => (mem_text hc).2.2, text,
      List.length_map]
  have hplus : '+' ∉ d.text := fun hc => absurd (mem_text hc).2.1 (by decide)
  have hminus : '-' ∉ d.text := fun hc => absurd (mem_text hc).2.1 (by decide)
  have hvalue : Py.digits 10 digitValue? false 0 d.text = some d.value :=
    digits_digitChars d.digits_ne_nil
  unfold int?
  rw [hbody]
  dsimp only
  rw [hcount, signed_of_unsigned hplus hminus, hvalue]
  by_cases hfits : d.Fits
  · have hle : d.digits.length ≤ maxStrDigits := hfits
    rw [if_neg (Nat.not_lt.mpr hle), if_pos hfits]
    rfl
  · have hlt : maxStrDigits < d.digits.length := Nat.lt_of_not_le hfits
    rw [if_pos hlt, if_neg hfits]

/-- A star makes a text no number. -/
theorem int?_star (d : Decimal) {tail : List Char}
    (htail : ∀ c ∈ tail, isSpace c = false ∧ c ∉ ['+', '-']) :
    int? (.ofList (d.text ++ '*' :: tail)) = none := by
  have hbody : numberBody (.ofList (d.text ++ '*' :: tail)) =
      d.text ++ '*' :: tail := by
    apply numberBody_of_noSpace
    intro c hc
    rcases List.mem_append.mp hc with htext | hrest
    · exact (mem_text htext).1
    · rcases List.mem_cons.mp hrest with rfl | hmem
      · decide
      · exact (htail c hmem).1
  have hnoSign {sign : Char} (hsign : sign ∈ ['+', '-']) :
      sign ∉ d.text ++ '*' :: tail := by
    intro hc
    rcases List.mem_append.mp hc with htext | hrest
    · exact (mem_text htext).2.1 (List.mem_append_left _ hsign)
    · rcases List.mem_cons.mp hrest with rfl | hmem
      · exact absurd hsign (by decide)
      · exact (htail sign hmem).2 hsign
  unfold int?
  rw [hbody]
  dsimp only
  rw [signed_of_unsigned (hnoSign (by decide)) (hnoSign (by decide)),
    digits_eq_none (c := '*') (by decide) (by decide) (by simp)]
  split_ifs <;> rfl

end Decimal

/-! ## Hexadecimal -/

def upperHexDigit (n : ℕ) : Char :=
  if n < 10 then Char.ofNat (n + '0'.toNat)
  else Char.ofNat (n - 10 + 'A'.toNat)

def hexDigits (n : ℕ) : List ℕ :=
  List.leftpad 2 0 (Nat.digits 16 n).reverse

/-- `format(n, "02X")`. -/
def hexText (n : ℕ) : List Char :=
  (hexDigits n).map upperHexDigit

theorem upperHexDigit_plain (digit : Fin 16) :
    isSpace (upperHexDigit digit.val) = false ∧
      upperHexDigit digit.val ∉ ['+', '-', 'x', 'X', '_', ',', '*'] ∧
      hexValue? (upperHexDigit digit.val) = some digit.val := by
  revert digit
  decide

theorem hexDigits_lt {n digit : ℕ} (hdigit : digit ∈ hexDigits n) :
    digit < 16 := by
  rcases List.mem_append.mp hdigit with hzero | hmem
  · rw [(List.mem_replicate.mp hzero).2]
    decide
  · exact Nat.digits_lt_base (by decide) (List.mem_reverse.mp hmem)

theorem ofDigits_hexDigits (n : ℕ) :
    Nat.ofDigits 16 (hexDigits n).reverse = n := by
  rw [hexDigits, List.leftpad, List.reverse_append, List.reverse_reverse,
    List.reverse_replicate, Nat.ofDigits_append_replicate_zero,
    Nat.ofDigits_digits]

theorem mem_hexText {n : ℕ} {c : Char} (hc : c ∈ hexText n) :
    isSpace c = false ∧ c ∉ ['+', '-', 'x', 'X', '_', ',', '*'] := by
  obtain ⟨digit, hdigit, rfl⟩ := List.mem_map.mp hc
  obtain ⟨hspace, hplain, -⟩ :=
    upperHexDigit_plain ⟨digit, hexDigits_lt hdigit⟩
  exact ⟨hspace, hplain⟩

/-- Without an `x` there is no marker in front of the digits. -/
theorem intBase16?_unmarked {cs : List Char}
    (hspace : ∀ c ∈ cs, isSpace c = false)
    (hplain : ∀ c ∈ ['+', '-', 'x', 'X'], c ∉ cs) :
    intBase16? (.ofList cs) =
      (digits 16 hexValue? false 0 cs).map Int.ofNat := by
  unfold intBase16?
  rw [numberBody_of_noSpace hspace,
    signed_of_unsigned (hplain '+' (by decide)) (hplain '-' (by decide))]
  congr 1
  split
  · exact absurd (by simp) (hplain 'x' (by decide))
  · exact absurd (by simp) (hplain 'X' (by decide))
  · rfl

theorem intBase16?_hexText (n : ℕ) :
    intBase16? (.ofList (hexText n)) = some (n : ℤ) := by
  have hne : hexDigits n ≠ [] := by
    intro hnil
    have hlength := congrArg List.length hnil
    rw [hexDigits, List.leftpad, List.length_append,
      List.length_replicate, List.length_nil] at hlength
    omega
  have hdigits : digits 16 hexValue? false 0 (hexText n) =
      some (Nat.ofDigits 16 (hexDigits n).reverse) := by
    apply digits_text hne
    intro digit hdigit
    obtain ⟨-, hplain, hvalue⟩ :=
      upperHexDigit_plain ⟨digit, hexDigits_lt hdigit⟩
    refine ⟨?_, hvalue⟩
    intro heq
    rw [heq] at hplain
    exact absurd hplain (by decide)
  rw [intBase16?_unmarked (fun c hc => (mem_hexText hc).1), hdigits,
    ofDigits_hexDigits]
  · rfl
  · intro c hc hmem
    exact (mem_hexText hmem).2 (List.mem_append_left ['_', ',', '*'] hc)

end Py
