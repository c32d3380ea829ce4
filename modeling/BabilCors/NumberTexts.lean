import BabilCors.PyNumbers

/-!
# Numbers and bytes as text

What `str` makes of an integer `int` reads back, and what `hexlify` makes of
bytes `unhexlify` does.
-/

namespace Py

/-! ## Numbers -/

/-- `str` of an integer; `none` is the `ValueError` of too many digits. -/
def strInt? (z : ℤ) : Option String :=
  if maxStrDigits < (Nat.toDigits 10 z.natAbs).length then none
  else some (.ofList ((if z < 0 then ['-'] else []) ++
    Nat.toDigits 10 z.natAbs))

/-- The digits of a number are a decimal with its value. -/
theorem exists_decimal (n : ℕ) :
    ∃ d : Decimal, d.text = Nat.toDigits 10 n ∧ d.value = n := by
  induction n using Nat.strong_induction_on with
  | _ n ih =>
      rw [Nat.toDigits_eq_if (by decide)]
      split_ifs with hsmall
      · exact ⟨⟨[⟨n, hsmall⟩], List.cons_ne_nil _ _⟩, rfl, by
          simp [Decimal.value]⟩
      · obtain ⟨d, htext, hvalue⟩ := ih (n / 10) (by omega)
        have hdigit : n % 10 < 10 := Nat.mod_lt n (by decide)
        refine ⟨⟨d.digits ++ [⟨n % 10, hdigit⟩], by simp⟩, ?_, ?_⟩
        · rw [← htext]
          simp [Decimal.text]
        · have hparts : Nat.ofDigits 10 (d.digits.map Fin.val).reverse =
              n / 10 := hvalue
          simp only [Decimal.value, List.map_append, List.map_singleton,
            List.reverse_append, List.reverse_singleton,
            List.singleton_append, Nat.ofDigits_cons, hparts]
          omega

theorem int?_negative {d : Decimal} (hfits : d.Fits) :
    int? (.ofList ('-' :: d.text)) = some (-(d.value : ℤ)) := by
  have hnoSpace : ∀ c ∈ '-' :: d.text, isSpace c = false :=
    List.forall_mem_cons.mpr
      ⟨by decide, fun c hc => (Decimal.mem_text hc).1⟩
  have hcount : (('-' :: d.text).countP fun c => (digitValue? c).isSome) =
      d.digits.length := by
    rw [List.countP_cons_of_neg (by decide),
      List.countP_eq_length.mpr fun c hc => (Decimal.mem_text hc).2.2,
      Decimal.text, List.length_map]
  have hvalue : digits 10 digitValue? false 0 d.text = some d.value :=
    Decimal.digits_digitChars d.digits_ne_nil
  have hle : d.digits.length ≤ maxStrDigits := hfits
  unfold int?
  rw [numberBody_of_noSpace hnoSpace]
  dsimp only
  rw [hcount, if_neg (Nat.not_lt.mpr hle)]
  rw [signed, hvalue]
  rfl

/-- An integer is read back from its text. -/
theorem int?_strInt? {z : ℤ} {text : String} (htext : strInt? z = some text) :
    int? text = some z := by
  obtain ⟨d, hdigits, hvalue⟩ := exists_decimal z.natAbs
  unfold strInt? at htext
  rw [← hdigits] at htext
  split_ifs at htext with hlong hnegative
  all_goals
    have hfits : d.Fits := by
      rw [Decimal.text, List.length_map] at hlong
      exact Nat.not_lt.mp hlong
    obtain rfl := Option.some.inj htext
  · rw [List.singleton_append, int?_negative hfits, hvalue]
    congr 1
    omega
  · rw [List.nil_append, Decimal.int?_text, if_pos hfits, hvalue]
    congr 1
    omega

/-! ## Bytes -/

theorem asciiHexValue?_hexDigit (digit : Fin 16) :
    asciiHexValue? (hexDigit digit) = some digit.val ∧
      hexDigit digit ≠ '$' := by
  revert digit
  decide

theorem mem_hexlify {data : List UInt8} {c : Char}
    (hc : c ∈ (hexlify data).toList) : c ≠ '$' := by
  unfold hexlify at hc
  rw [String.toList_ofList] at hc
  obtain ⟨b, -, hmem⟩ := List.mem_flatMap.mp hc
  have hlt : b.toNat < 256 := b.toNat_lt
  simp only [List.mem_cons, List.not_mem_nil, or_false] at hmem
  rcases hmem with rfl | rfl
  · exact (asciiHexValue?_hexDigit ⟨b.toNat / 16, by omega⟩).2
  · exact (asciiHexValue?_hexDigit ⟨b.toNat % 16, by omega⟩).2

/-- Bytes are read back from their hexadecimal text. -/
theorem unhexlify?_hexlify (data : List UInt8) :
    unhexlify? (hexlify data) = some data := by
  unfold unhexlify? hexlify
  rw [String.toList_ofList]
  induction data with
  | nil => rfl
  | cons b data ih =>
      have hlt : b.toNat < 256 := b.toNat_lt
      have hhigh := (asciiHexValue?_hexDigit ⟨b.toNat / 16, by omega⟩).1
      have hlow := (asciiHexValue?_hexDigit ⟨b.toNat % 16, by omega⟩).1
      dsimp only at hhigh hlow
      have hbyte : UInt8.ofNat (16 * (b.toNat / 16) + b.toNat % 16) = b := by
        rw [Nat.div_add_mod, UInt8.ofNat_toNat]
      rw [List.flatMap_cons, List.cons_append, List.cons_append,
        List.nil_append, unhexlifyChars, hhigh, Option.bind_some, hlow,
        Option.bind_some, ih, Option.map_some, hbyte]

end Py
