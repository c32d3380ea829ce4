import BabilCors.JsonText
import BabilCors.NumberTexts

/-!
# JSON there and back

What `json.dumps` writes `json.loads` reads, for every document whose
dictionaries have distinct keys and whose floats are read back from their own
texts.  The values come one at a time: strings, numbers, words, and from these
by induction the lists and the dictionaries.
-/

namespace Py
namespace Json

variable {F : Type} [PyFloat F]

/-! ## What is read back -/

/-- A float as `repr` writes it. -/
structure FloatLiteral where
  negative : Bool
  whole : ℕ
  fraction : List (Fin 10)
  exponent : Option (Bool × Decimal)
  real : fraction ≠ [] ∨ exponent.isSome

namespace FloatLiteral

def fractionText (x : FloatLiteral) : List Char :=
  match x.fraction with
  | [] => []
  | digit :: digits =>
      '.' :: (digit :: digits).map fun digit => Nat.digitChar digit.val

def exponentText (x : FloatLiteral) : List Char :=
  match x.exponent with
  | none => []
  | some (negative, digits) =>
      'e' :: (if negative then '-' else '+') :: digits.text

def chars (x : FloatLiteral) : List Char :=
  signText x.negative ++
    (Nat.toDigits 10 x.whole ++ (x.fractionText ++ x.exponentText))

end FloatLiteral

/-- The text of the float denotes it: a literal, or the word for an infinity
or a NaN. -/
inductive FloatReads (x : F) : Prop
  | literal (l : FloatLiteral) (htext : floatText x = l.chars)
      (hvalue : PyFloat.ofString? (.ofList l.chars) = some x)
  | word (hword : (floatText x, some (float x)) ∈ constants F)

/-- Dictionaries have distinct keys, and floats are read back. -/
inductive Proper : Json F → Prop
  | null : Proper null
  | bool (b : Bool) : Proper (bool b)
  | int (z : ℤ) : Proper (int z)
  | float {x : F} (hreads : FloatReads x) : Proper (float x)
  | str (s : String) : Proper (str s)
  | arr {items : List (Json F)} (hitems : ∀ item ∈ items, Proper item) :
      Proper (arr items)
  | obj {fields : List (String × Json F)}
      (hkeys : (PyDict.keys fields).Nodup)
      (hfields : ∀ field ∈ fields, Proper field.2) : Proper (obj fields)

/-! ### Strings -/

theorem unescape?_control {c : Char} (hc : c.toNat < 0x20)
    (rest : List Char) :
    unescape? ('u' :: '0' :: '0' :: hexDigit (c.toNat / 16) ::
      hexDigit (c.toNat % 16) :: rest) = some (c, rest) := by
  have hhigh := (asciiHexValue?_hexDigit ⟨c.toNat / 16, by omega⟩).1
  have hlow := (asciiHexValue?_hexDigit ⟨c.toNat % 16, by omega⟩).1
  have hzero : asciiHexValue? '0' = some 0 := by
    decide
  have hhex : hex4? ('0' :: '0' :: hexDigit (c.toNat / 16) ::
      hexDigit (c.toNat % 16) :: rest) = some (c.toNat, rest) := by
    have hvalue : ((0 * 16 + 0) * 16 + c.toNat / 16) * 16 + c.toNat % 16 =
        c.toNat := by
      omega
    dsimp only at hhigh hlow
    unfold hex4?
    dsimp only
    rw [hzero, hhigh, hlow]
    exact congrArg (fun n => some (n, rest)) hvalue
  rw [unescape?, if_pos rfl, unicodeEscape?, hhex, Option.bind_some,
    if_neg (by omega), if_neg (by omega), Char.ofNat_toNat]

/-- A character stands for itself, or there is an escape for it. -/
theorem escapeChar_cases (c : Char) :
    (escapeChar c = [c] ∧ c ≠ doubleQuote ∧ c ≠ '\\' ∧ ¬c.toNat < 0x20) ∨
      ∃ more, escapeChar c = '\\' :: more ∧
        ∀ rest, unescape? (more ++ rest) = some (c, rest) := by
  unfold escapeChar
  split_ifs with hquote hslash hnewline hreturn htab hform hback hcontrol
  · exact .inr ⟨_, rfl, fun rest => by rw [hquote]; rfl⟩
  · exact .inr ⟨_, rfl, fun rest => by rw [hslash]; rfl⟩
  · exact .inr ⟨_, rfl, fun rest => by rw [hnewline]; rfl⟩
  · exact .inr ⟨_, rfl, fun rest => by rw [hreturn]; rfl⟩
  · exact .inr ⟨_, rfl, fun rest => by rw [htab]; rfl⟩
  · exact .inr ⟨_, rfl, fun rest => by rw [hform]; rfl⟩
  · exact .inr ⟨_, rfl, fun rest => by rw [hback]; rfl⟩
  · exact .inr ⟨_, rfl, unescape?_control hcontrol⟩
  · exact .inl ⟨rfl, hquote, hslash, hcontrol⟩

theorem scanString_text (s rest : List Char) {n : ℕ}
    (hn : (s.flatMap escapeChar).length < n) :
    scanString n (s.flatMap escapeChar ++ doubleQuote :: rest) =
      some (s, rest) := by
  induction s generalizing n with
  | nil =>
      cases n with
      | zero => exact absurd hn (Nat.not_lt_zero _)
      | succ n => rfl
  | cons c s ih =>
      cases n with
      | zero => exact absurd hn (Nat.not_lt_zero _)
      | succ n =>
          rw [List.flatMap_cons, List.length_append] at hn
          rw [List.flatMap_cons, List.append_assoc]
          rcases escapeChar_cases c with ⟨hc, hquote, hslash, hcontrol⟩ |
            ⟨more, hc, hmore⟩
          · rw [hc, List.length_singleton] at hn
            rw [hc, List.singleton_append, scanString, if_neg hquote,
              if_neg hslash, if_neg hcontrol, ih (by omega)]
            rfl
          · have hslash : '\\' ≠ doubleQuote := by
              decide
            rw [hc, List.length_cons] at hn
            rw [hc, List.cons_append, scanString, if_neg hslash, if_pos rfl,
              hmore, Option.bind_some, ih (by omega)]
            rfl

/-! ### Numbers -/

/-- What may stand behind a value. -/
def Delimited (rest : List Char) : Prop :=
  ∀ c ∈ rest.head?, c = ',' ∨ c = '\n' ∨ c = ']' ∨ c = '\x7d'

theorem Delimited.plain {rest : List Char} (h : Delimited rest) {c : Char}
    (hc : c ∈ rest.head?) :
    c.isDigit = false ∧ c ≠ '.' ∧ c ≠ 'e' ∧ c ≠ 'E' := by
  rcases h c hc with rfl | rfl | rfl | rfl <;> decide

theorem takeWhile_digits {ds rest : List Char}
    (hds : ∀ c ∈ ds, c.isDigit = true)
    (hrest : ∀ c ∈ rest.head?, c.isDigit = false) :
    (ds ++ rest).takeWhile Char.isDigit = ds ∧
      (ds ++ rest).dropWhile Char.isDigit = rest := by
  rw [List.takeWhile_append_of_pos hds, List.dropWhile_append_of_pos hds]
  cases rest with
  | nil => simp
  | cons c rest => simp [hrest c rfl]

theorem digitChar_isDigit (digit : Fin 10) :
    (Nat.digitChar digit.val).isDigit = true ∧
      (Nat.digitChar digit.val = '0' → digit.val = 0) := by
  revert digit
  decide

theorem isDigit_of_mem_text {d : Decimal} {c : Char}
    (hc : c ∈ d.text) : c.isDigit = true := by
  obtain ⟨digit, -, rfl⟩ := List.mem_map.mp hc
  exact (digitChar_isDigit digit).1

/-- The digits of a number begin with a zero only if there is no other. -/
theorem exists_leadingDigit (n : ℕ) :
    ∃ c cs, Nat.toDigits 10 n = c :: cs ∧ c.isDigit = true ∧
      (∀ d ∈ cs, d.isDigit = true) ∧ (c = '0' → n = 0) := by
  induction n using Nat.strong_induction_on with
  | _ n ih =>
      rw [Nat.toDigits_eq_if (by decide)]
      split_ifs with hsmall
      · have hdigit := digitChar_isDigit ⟨n, hsmall⟩
        exact ⟨_, [], rfl, hdigit.1, List.forall_mem_nil _, hdigit.2⟩
      · obtain ⟨c, cs, htext, hc, hcs, hzero⟩ := ih (n / 10) (by omega)
        have hlast := (digitChar_isDigit
          ⟨n % 10, Nat.mod_lt n (by decide)⟩).1
        refine ⟨c, cs ++ [Nat.digitChar (n % 10)], ?_, hc, ?_, ?_⟩
        · rw [htext, List.cons_append]
        · intro d hd
          rcases List.mem_append.mp hd with hd | hd
          · exact hcs d hd
          · rw [List.mem_singleton.mp hd]
            exact hlast
        · intro hc
          have hsmall' := hzero hc
          omega

theorem integerPart?_digits (n : ℕ) {rest : List Char}
    (hrest : ∀ c ∈ rest.head?, c.isDigit = false) :
    integerPart? (Nat.toDigits 10 n ++ rest) =
      some (Nat.toDigits 10 n, rest) := by
  obtain ⟨c, cs, htext, hc, hcs, hzero⟩ := exists_leadingDigit n
  obtain ⟨htake, hdrop⟩ := takeWhile_digits hcs hrest
  by_cases hfirst : c = '0'
  · obtain rfl := hzero hfirst
    rfl
  · rw [htext, List.cons_append, integerPart?, if_neg hfirst, if_pos hc,
      htake, hdrop]

theorem fractionPart_absent {cs : List Char} (hcs : '.' ∉ cs.head?) :
    fractionPart cs = ([], cs) := by
  unfold fractionPart
  dsimp only
  rw [if_neg]
  rintro ⟨hpoint, -⟩
  exact hcs hpoint

theorem exponentPart_absent {cs : List Char}
    (hcs : ∀ c ∈ cs.head?, c ≠ 'e' ∧ c ≠ 'E') :
    exponentPart cs = ([], cs) := by
  cases cs with
  | nil => rfl
  | cons c cs =>
      obtain ⟨hlower, hupper⟩ := hcs c rfl
      unfold exponentPart
      dsimp only
      rw [if_neg]
      rintro ⟨hc, -⟩
      exact hc.elim hlower hupper

/-- A number whose parts are read as they stand. -/
theorem scanNumber_parts (negative : Bool) (n : ℕ)
    {fraction exponent rest : List Char}
    (hstop : ∀ c ∈ (fraction ++ (exponent ++ rest)).head?,
      c.isDigit = false)
    (hfraction : fractionPart (fraction ++ (exponent ++ rest)) =
      (fraction, exponent ++ rest))
    (hexponent : exponentPart (exponent ++ rest) = (exponent, rest)) :
    (scanNumber (signText negative ++ (Nat.toDigits 10 n ++
        (fraction ++ (exponent ++ rest)))) : Option (Json F × List Char)) =
      if fraction = [] ∧ exponent = [] then
        (int? (.ofList (signText negative ++ (Nat.toDigits 10 n ++
          (fraction ++ exponent))))).map fun z => (int z, rest)
      else
        (PyFloat.ofString? (.ofList (signText negative ++
          (Nat.toDigits 10 n ++ (fraction ++ exponent))))).map
            fun x => (float x, rest) := by
  obtain ⟨c, cs, htext, hc, -, -⟩ := exists_leadingDigit n
  have hminus : c ≠ '-' := by
    rintro rfl
    exact absurd hc (by decide)
  have hsign : decide ((signText negative ++ (Nat.toDigits 10 n ++
      (fraction ++ (exponent ++ rest)))).head? = some '-') = negative := by
    cases negative with
    | true => rfl
    | false => simp [signText, htext, hminus]
  unfold scanNumber
  rw [hsign]
  dsimp only
  rw [List.drop_left, integerPart?_digits n hstop, Option.bind_some]
  dsimp only
  rw [hfraction]
  dsimp only
  rw [hexponent]

/-- No word begins like a number. -/
theorem scanPlain_number (negative : Bool) (n : ℕ) (rest : List Char) :
    (scanPlain (signText negative ++ (Nat.toDigits 10 n ++ rest)) :
        Option (Json F × List Char)) =
      scanNumber (signText negative ++ (Nat.toDigits 10 n ++ rest)) := by
  obtain ⟨c, cs, htext, hc, -, -⟩ := exists_leadingDigit n
  have hne {d : Char} (hd : d.isDigit = false) : (d == c) = false := by
    rw [beq_eq_false_iff_ne]
    rintro rfl
    rw [hc] at hd
    cases hd
  have hnone : ((constants F).find? fun constant =>
      constant.1.isPrefixOf
        (signText negative ++ (Nat.toDigits 10 n ++ rest))) = none := by
    rw [htext]
    cases negative with
    | true =>
        simp [constants, infinityText, signText, List.isPrefixOf,
          hne (d := 'I') (by decide)]
    | false =>
        simp [constants, infinityText, signText, List.isPrefixOf,
          hne (d := 'n') (by decide), hne (d := 't') (by decide),
          hne (d := 'f') (by decide), hne (d := 'N') (by decide),
          hne (d := 'I') (by decide), hne (d := '-') (by decide)]
  unfold scanPlain
  rw [hnone]

theorem scanPlain_int {z : ℤ}
    (hshort : (Nat.toDigits 10 z.natAbs).length ≤ maxStrDigits)
    {rest : List Char} (hrest : Delimited rest) :
    (scanPlain (intText z ++ rest) : Option (Json F × List Char)) =
      some (int z, rest) := by
  have htext : strInt? z = some (.ofList (intText z)) := by
    unfold strInt? intText signText
    rw [if_neg (Nat.not_lt.mpr hshort)]
    simp only [decide_eq_true_eq]
  have hparts := @scanNumber_parts F _ (z < 0) z.natAbs [] [] rest
    (fun c hc => (hrest.plain hc).1)
    (fractionPart_absent fun hc => (hrest.plain hc).2.1 rfl)
    (exponentPart_absent fun c hc => (hrest.plain hc).2.2)
  rw [intText, List.append_assoc, scanPlain_number]
  simp only [List.nil_append, List.append_nil, and_self, if_true] at hparts
  rw [hparts]
  have hvalue := int?_strInt? htext
  rw [intText] at hvalue
  rw [hvalue]
  rfl

theorem FloatLiteral.fractionPart_text (x : FloatLiteral) {rest : List Char}
    (hrest : ∀ c ∈ rest.head?, c.isDigit = false ∧ c ≠ '.') :
    fractionPart (x.fractionText ++ rest) = (x.fractionText, rest) := by
  unfold FloatLiteral.fractionText
  cases x.fraction with
  | nil => exact fractionPart_absent fun hc => (hrest _ hc).2 rfl
  | cons digit digits =>
      have hdigits : ∀ c ∈ (digit :: digits).map
          fun digit => Nat.digitChar digit.val, c.isDigit = true := by
        intro c hc
        obtain ⟨d, -, rfl⟩ := List.mem_map.mp hc
        exact (digitChar_isDigit d).1
      obtain ⟨htake, hdrop⟩ :=
        takeWhile_digits hdigits fun c hc => (hrest c hc).1
      rw [List.cons_append]
      unfold fractionPart
      dsimp only
      rw [List.tail_cons, htake, hdrop, if_pos ⟨rfl, List.cons_ne_nil _ _⟩]

theorem FloatLiteral.exponentPart_text (x : FloatLiteral) {rest : List Char}
    (hrest : Delimited rest) :
    exponentPart (x.exponentText ++ rest) = (x.exponentText, rest) := by
  unfold FloatLiteral.exponentText
  cases x.exponent with
  | none => exact exponentPart_absent fun c hc => (hrest.plain hc).2.2
  | some exponent =>
      obtain ⟨negative, d⟩ := exponent
      obtain ⟨htake, hdrop⟩ := takeWhile_digits
        (fun c hc => isDigit_of_mem_text hc)
        fun c hc => (hrest.plain hc).1
      have hsign : exponentSign ((if negative then '-' else '+') ::
          (d.text ++ rest)) =
            ([if negative then '-' else '+'], d.text ++ rest) := by
        cases negative <;> rfl
      dsimp only
      rw [List.cons_append, List.cons_append]
      unfold exponentPart
      dsimp only
      rw [hsign]
      dsimp only
      rw [htake, hdrop, if_pos ⟨.inl rfl, d.text_ne_nil⟩]
      rfl

theorem FloatLiteral.behindFraction (x : FloatLiteral) {rest : List Char}
    (hrest : Delimited rest) :
    ∀ c ∈ (x.exponentText ++ rest).head?, c.isDigit = false ∧ c ≠ '.' := by
  intro c hc
  unfold FloatLiteral.exponentText at hc
  cases hexponent : x.exponent with
  | none =>
      rw [hexponent] at hc
      exact ⟨(hrest.plain hc).1, (hrest.plain hc).2.1⟩
  | some exponent =>
      rw [hexponent] at hc
      obtain rfl := Option.some.inj hc
      decide

theorem FloatLiteral.behindWhole (x : FloatLiteral) {rest : List Char}
    (hrest : Delimited rest) :
    ∀ c ∈ (x.fractionText ++ (x.exponentText ++ rest)).head?,
      c.isDigit = false := by
  intro c hc
  unfold FloatLiteral.fractionText at hc
  cases hfraction : x.fraction with
  | nil =>
      rw [hfraction] at hc
      exact (x.behindFraction hrest c hc).1
  | cons digit digits =>
      rw [hfraction] at hc
      obtain rfl := Option.some.inj hc
      decide

theorem FloatLiteral.not_integer (x : FloatLiteral) :
    ¬(x.fractionText = [] ∧ x.exponentText = []) := by
  rintro ⟨hfraction, hexponent⟩
  unfold FloatLiteral.fractionText at hfraction
  unfold FloatLiteral.exponentText at hexponent
  rcases x.real with hreal | hreal
  · cases hx : x.fraction with
    | nil => exact hreal hx
    | cons digit digits =>
        rw [hx] at hfraction
        cases hfraction
  · cases hx : x.exponent with
    | none =>
        rw [hx] at hreal
        cases hreal
    | some exponent =>
        rw [hx] at hexponent
        cases hexponent

theorem scanPlain_literal {x : F} (l : FloatLiteral)
    (hvalue : PyFloat.ofString? (.ofList l.chars) = some x)
    {rest : List Char} (hrest : Delimited rest) :
    (scanPlain (l.chars ++ rest) : Option (Json F × List Char)) =
      some (float x, rest) := by
  have hchars : l.chars ++ rest = signText l.negative ++
      (Nat.toDigits 10 l.whole ++
        (l.fractionText ++ (l.exponentText ++ rest))) := by
    simp only [FloatLiteral.chars, List.append_assoc]
  rw [hchars, scanPlain_number,
    scanNumber_parts l.negative l.whole (l.behindWhole hrest)
      (l.fractionPart_text (l.behindFraction hrest))
      (l.exponentPart_text hrest), if_neg l.not_integer]
  unfold FloatLiteral.chars at hvalue
  rw [hvalue]
  rfl

theorem find?_constant {entry : List Char × Option (Json F)}
    (hentry : entry ∈ constants F) (rest : List Char) :
    ((constants F).find? fun constant =>
      constant.1.isPrefixOf (entry.1 ++ rest)) = some entry := by
  simp only [constants, List.mem_cons, List.not_mem_nil, or_false] at hentry
  rcases hentry with rfl | rfl | rfl | rfl | rfl | rfl <;> rfl

theorem scanPlain_word {word : List Char} {value : Json F}
    (hword : (word, some value) ∈ constants F) (rest : List Char) :
    scanPlain (word ++ rest) = some (value, rest) := by
  unfold scanPlain
  rw [find?_constant hword]
  dsimp only
  rw [List.drop_left]
  rfl

/-! ### The first character -/

/-- What a number or a word begins with. -/
def isPlainStart (c : Char) : Bool :=
  c.isDigit || c == '-' || c == 'n' || c == 't' || c == 'f' || c == 'N' ||
    c == 'I'

theorem isPlainStart_ne {c d : Char} (hc : isPlainStart c = true)
    (hd : isPlainStart d = false) : c ≠ d := by
  rintro rfl
  rw [hc] at hd
  cases hd

/-- What no text of a value begins with. -/
def StartsValue (cs : List Char) : Prop :=
  ∃ c rest, cs = c :: rest ∧ isWhitespace c = false ∧ c ≠ ']' ∧
    c ≠ '\ufeff'

theorem startsValue_of_plain {c : Char} (hc : isPlainStart c = true)
    (rest : List Char) : StartsValue (c :: rest) := by
  refine ⟨c, rest, rfl, ?_, isPlainStart_ne hc (by decide),
    isPlainStart_ne hc (by decide)⟩
  unfold isWhitespace
  simp [isPlainStart_ne hc (by decide : isPlainStart ' ' = false),
    isPlainStart_ne hc (by decide : isPlainStart '\t' = false),
    isPlainStart_ne hc (by decide : isPlainStart '\n' = false),
    isPlainStart_ne hc (by decide : isPlainStart '\r' = false)]

theorem scanOnce_plain {c : Char} (hc : isPlainStart c = true)
    (rest : List Char) (n : ℕ) :
    (scanOnce (n + 1) (c :: rest) : Option (Json F × List Char)) =
      scanPlain (c :: rest) := by
  rw [scanOnce, if_neg (isPlainStart_ne hc (by decide)),
    if_neg (isPlainStart_ne hc (by decide)),
    if_neg (isPlainStart_ne hc (by decide))]

theorem number_start (negative : Bool) (n : ℕ) (rest : List Char) :
    ∃ c cs, signText negative ++ (Nat.toDigits 10 n ++ rest) = c :: cs ∧
      isPlainStart c = true := by
  obtain ⟨c, cs, htext, hc, -, -⟩ := exists_leadingDigit n
  cases negative with
  | true => exact ⟨_, _, rfl, by decide⟩
  | false =>
      refine ⟨c, cs ++ rest, ?_, ?_⟩
      · rw [htext]
        rfl
      · unfold isPlainStart
        rw [hc]
        rfl

theorem word_start {word : List Char} {value : Option (Json F)}
    (hword : (word, value) ∈ constants F) :
    ∃ c cs, word = c :: cs ∧ isPlainStart c = true := by
  simp only [constants, List.mem_cons, List.not_mem_nil, or_false,
    Prod.mk.injEq] at hword
  rcases hword with ⟨rfl, -⟩ | ⟨rfl, -⟩ | ⟨rfl, -⟩ | ⟨rfl, -⟩ | ⟨rfl, -⟩ |
    ⟨rfl, -⟩ <;> exact ⟨_, _, rfl, by decide⟩

theorem intText_start (z : ℤ) :
    ∃ c cs, intText z = c :: cs ∧ isPlainStart c = true := by
  have hstart := number_start (z < 0) z.natAbs []
  rwa [List.append_nil] at hstart

theorem FloatReads.start {x : F} (hx : FloatReads x) :
    ∃ c cs, floatText x = c :: cs ∧ isPlainStart c = true := by
  cases hx with
  | literal l htext hvalue =>
      rw [htext]
      exact number_start l.negative l.whole _
  | word hword => exact word_start hword

theorem Proper.starts {v : Json F} (hv : Proper v) (indent : Option ℕ)
    (level : ℕ) : StartsValue (text indent level v) := by
  have hplain {cs : List Char} (hcs : ∃ c rest, cs = c :: rest ∧
      isPlainStart c = true) : StartsValue cs := by
    obtain ⟨c, rest, rfl, hc⟩ := hcs
    exact startsValue_of_plain hc rest
  cases hv with
  | null => exact ⟨_, _, rfl, by decide, by decide, by decide⟩
  | bool b => cases b <;> exact ⟨_, _, rfl, by decide, by decide, by decide⟩
  | int z => exact hplain (intText_start z)
  | float hreads => exact hplain hreads.start
  | str s => exact ⟨_, _, rfl, by decide, by decide, by decide⟩
  | arr hitems =>
      unfold text
      split_ifs <;> exact ⟨_, _, rfl, by decide, by decide, by decide⟩
  | obj hkeys hfields =>
      unfold text
      split_ifs <;> exact ⟨_, _, rfl, by decide, by decide, by decide⟩

/-! ### Whole values -/

theorem skipWhitespace_gap (indent : Option ℕ) (level : ℕ) {c : Char}
    (hc : isWhitespace c = false) (rest : List Char) :
    skipWhitespace (gap indent level ++ c :: rest) = c :: rest := by
  have hgap : ∀ d ∈ gap indent level, isWhitespace d = true := by
    intro d hd
    cases indent with
    | none => cases hd
    | some width =>
        rcases List.mem_cons.mp hd with rfl | hd
        · decide
        · rw [List.eq_of_mem_replicate hd]
          decide
  unfold skipWhitespace
  rw [List.dropWhile_append_of_pos hgap,
    List.dropWhile_cons_of_neg (by rw [hc]; exact Bool.false_ne_true)]

theorem skipWhitespace_of_starts {cs : List Char} (hcs : StartsValue cs)
    (rest : List Char) : skipWhitespace (cs ++ rest) = cs ++ rest := by
  obtain ⟨c, more, rfl, hc, -⟩ := hcs
  exact skipWhitespace_gap none 0 hc (more ++ rest)

theorem skipWhitespace_gap_of_starts (indent : Option ℕ) (level : ℕ)
    {cs : List Char} (hcs : StartsValue cs) (rest : List Char) :
    skipWhitespace (gap indent level ++ (cs ++ rest)) = cs ++ rest := by
  obtain ⟨c, more, rfl, hc, -⟩ := hcs
  exact skipWhitespace_gap indent level hc (more ++ rest)

/-- The blanks behind a comma. -/
theorem skipWhitespace_separator (indent : Option ℕ) (level : ℕ)
    {cs : List Char} (hcs : StartsValue cs) (rest : List Char) :
    skipWhitespace ((if indent = none then [' '] else gap indent level) ++
      (cs ++ rest)) = cs ++ rest := by
  obtain ⟨c, more, rfl, hc, -⟩ := hcs
  split_ifs
  · have hblank : isWhitespace ' ' = true := by
      decide
    unfold skipWhitespace
    rw [List.singleton_append, List.dropWhile_cons_of_pos hblank]
    exact skipWhitespace_gap none 0 hc (more ++ rest)
  · exact skipWhitespace_gap indent level hc (more ++ rest)

theorem skipWhitespace_comma (rest : List Char) :
    skipWhitespace (',' :: rest) = ',' :: rest :=
  skipWhitespace_gap none 0 (by decide) rest

theorem delimited_gap (indent : Option ℕ) (level : ℕ) {c : Char}
    (hc : c = ']' ∨ c = '\x7d') (rest : List Char) :
    Delimited (gap indent level ++ c :: rest) := by
  intro d hd
  cases indent with
  | none =>
      obtain rfl := Option.some.inj hd
      exact .inr (.inr hc)
  | some width =>
      obtain rfl := Option.some.inj hd
      exact .inr (.inl rfl)

theorem delimited_comma (rest : List Char) : Delimited (',' :: rest) := by
  intro d hd
  obtain rfl := Option.some.inj hd
  exact .inl rfl

/-- The text of the value is read back, whatever delimiter follows. -/
def ReadsBack (indent : Option ℕ) (v : Json F) : Prop :=
  ∀ level rest n, Delimited rest → (text indent level v).length ≤ n →
    scanOnce n (text indent level v ++ rest) = some (v, rest)

theorem textItems_cons (indent : Option ℕ) (level : ℕ)
    (item next : Json F) (items : List (Json F)) :
    textItems indent level (item :: next :: items) =
      text indent level item ++ itemSeparator indent level ++
        textItems indent level (next :: items) := by
  rw [textItems]
  exact fun h => List.cons_ne_nil _ _ h

theorem textItems_starts (indent : Option ℕ) (level : ℕ)
    {items : List (Json F)} (hne : items ≠ [])
    (hitems : ∀ item ∈ items, Proper item) :
    StartsValue (textItems indent level items) := by
  cases items with
  | nil => exact absurd rfl hne
  | cons item items =>
      obtain ⟨c, rest, htext, hc⟩ :=
        (hitems item List.mem_cons_self).starts indent level
      cases items with
      | nil => exact ⟨c, rest, htext, hc⟩
      | cons next items =>
          rw [textItems_cons, htext]
          exact ⟨c, _, rfl, hc⟩

theorem scanItems_text {indent : Option ℕ} {items : List (Json F)}
    (hne : items ≠ []) (hproper : ∀ item ∈ items, Proper item)
    (hitems : ∀ item ∈ items, ReadsBack indent item) (level depth : ℕ)
    (rest : List Char) {n : ℕ}
    (hn : (textItems indent level items).length < n) :
    scanItems n (textItems indent level items ++
      (gap indent depth ++ ']' :: rest)) = some (items, rest) := by
  induction items generalizing n with
  | nil => exact absurd rfl hne
  | cons item items ih =>
      obtain ⟨hitem, hmore⟩ := List.forall_mem_cons.mp hitems
      obtain ⟨-, hproper'⟩ := List.forall_mem_cons.mp hproper
      cases n with
      | zero => exact absurd hn (Nat.not_lt_zero _)
      | succ n =>
          cases items with
          | nil =>
              rw [textItems] at hn ⊢
              rw [scanItems, hitem level _ n
                (delimited_gap indent depth (.inl rfl) rest) (by omega),
                Option.bind_some]
              dsimp only
              rw [skipWhitespace_gap indent depth (by decide)]
              rfl
          | cons next items =>
              rw [textItems_cons] at hn ⊢
              simp only [itemSeparator, List.append_assoc, List.cons_append,
                List.length_append, List.length_cons] at hn ⊢
              have hstarts := textItems_starts indent level
                (List.cons_ne_nil next items) hproper'
              rw [scanItems, hitem level _ n (delimited_comma _) (by omega),
                Option.bind_some]
              dsimp only
              rw [skipWhitespace_comma, if_pos (by rfl), List.tail_cons,
                skipWhitespace_separator indent level hstarts,
                ih (List.cons_ne_nil next items) hproper' hmore (by omega)]
              rfl

theorem textFields_cons (indent : Option ℕ) (level : ℕ) (key : String)
    (value : Json F) (next : String × Json F)
    (fields : List (String × Json F)) :
    textFields indent level ((key, value) :: next :: fields) =
      stringText key ++ [':', ' '] ++ text indent level value ++
        itemSeparator indent level ++
          textFields indent level (next :: fields) := by
  rw [textFields]
  exact fun h => List.cons_ne_nil _ _ h

theorem textFields_starts (indent : Option ℕ) (level : ℕ)
    {fields : List (String × Json F)} (hne : fields ≠ []) :
    ∃ rest, textFields indent level fields = doubleQuote :: rest := by
  cases fields with
  | nil => exact absurd rfl hne
  | cons field fields =>
      obtain ⟨key, value⟩ := field
      cases fields with
      | nil => exact ⟨_, rfl⟩
      | cons next fields =>
          rw [textFields_cons]
          exact ⟨_, rfl⟩

theorem scanString_key (s rest : List Char) :
    scanString ((s.flatMap escapeChar ++ doubleQuote :: rest).length + 1)
      (s.flatMap escapeChar ++ doubleQuote :: rest) = some (s, rest) := by
  apply scanString_text
  rw [List.length_append]
  omega

theorem scanKey_text (key : String) {cs : List Char} (hcs : StartsValue cs)
    (rest : List Char) :
    scanKey (stringText key ++ [':', ' '] ++ (cs ++ rest)) =
      some (key, cs ++ rest) := by
  have htext : stringText key ++ [':', ' '] ++ (cs ++ rest) =
      doubleQuote :: (key.toList.flatMap escapeChar ++
        doubleQuote :: (':' :: ' ' :: (cs ++ rest))) := by
    simp [stringText]
  have hcolon : skipWhitespace (':' :: ' ' :: (cs ++ rest)) =
      ':' :: ' ' :: (cs ++ rest) := rfl
  have hblank : skipWhitespace (' ' :: (cs ++ rest)) = cs ++ rest :=
    skipWhitespace_separator none 0 hcs rest
  rw [htext, scanKey, if_pos rfl, scanString_key, Option.bind_some]
  dsimp only
  rw [hcolon, if_pos (by rfl), String.ofList_toList, List.tail_cons, hblank]

theorem scanFields_text {indent : Option ℕ}
    {fields : List (String × Json F)} (hne : fields ≠ [])
    (hproper : ∀ field ∈ fields, Proper field.2)
    (hfields : ∀ field ∈ fields, ReadsBack indent field.2)
    (level depth : ℕ) (rest : List Char) {n : ℕ}
    (hn : (textFields indent level fields).length < n) :
    scanFields n (textFields indent level fields ++
      (gap indent depth ++ '\x7d' :: rest)) = some (fields, rest) := by
  induction fields generalizing n with
  | nil => exact absurd rfl hne
  | cons field fields ih =>
      obtain ⟨key, value⟩ := field
      obtain ⟨hvalue, hmore⟩ := List.forall_mem_cons.mp hfields
      obtain ⟨hfirst, hproper'⟩ := List.forall_mem_cons.mp hproper
      have hstart := hfirst.starts indent level
      change ReadsBack indent value at hvalue
      change StartsValue (text indent level value) at hstart
      cases n with
      | zero => exact absurd hn (Nat.not_lt_zero _)
      | succ n =>
          cases fields with
          | nil =>
              rw [textFields] at hn ⊢
              rw [List.length_append] at hn
              rw [scanFields, List.append_assoc, scanKey_text key hstart,
                Option.bind_some]
              dsimp only
              rw [hvalue level _ n
                (delimited_gap indent depth (.inr rfl) rest) (by omega),
                Option.bind_some]
              dsimp only
              rw [skipWhitespace_gap indent depth (by decide)]
              rfl
          | cons next fields =>
              obtain ⟨more, hnext⟩ := textFields_starts indent level
                (List.cons_ne_nil next fields)
              have hstarts : StartsValue
                  (textFields indent level (next :: fields)) :=
                ⟨_, more, hnext, by decide, by decide, by decide⟩
              have htext : textFields indent level
                  ((key, value) :: next :: fields) ++
                    (gap indent depth ++ '\x7d' :: rest) =
                  stringText key ++ [':', ' '] ++ (text indent level value ++
                    (',' :: ((if indent = none then [' ']
                        else gap indent level) ++
                      (textFields indent level (next :: fields) ++
                        (gap indent depth ++ '\x7d' :: rest))))) := by
                rw [textFields_cons]
                simp only [itemSeparator, List.append_assoc,
                  List.cons_append]
              rw [textFields_cons] at hn
              simp only [itemSeparator, List.append_assoc, List.cons_append,
                List.length_append, List.length_cons] at hn
              rw [htext, scanFields, scanKey_text key hstart,
                Option.bind_some]
              dsimp only
              rw [hvalue level _ n (delimited_comma _) (by omega),
                Option.bind_some]
              dsimp only
              rw [skipWhitespace_comma, if_pos (by rfl), List.tail_cons,
                skipWhitespace_separator indent level hstarts,
                ih (List.cons_ne_nil next fields) hproper' hmore (by omega)]
              rfl

omit [PyFloat F] in
theorem short_of_mem {items : List (Json F)}
    (hshort : shortItems items = true) {item : Json F}
    (hitem : item ∈ items) : item.short = true := by
  induction items with
  | nil => cases hitem
  | cons first items ih =>
      rw [shortItems, Bool.and_eq_true] at hshort
      rcases List.mem_cons.mp hitem with rfl | hitem
      · exact hshort.1
      · exact ih hshort.2 hitem

omit [PyFloat F] in
theorem short_of_mem_fields {fields : List (String × Json F)}
    (hshort : shortFields fields = true) {field : String × Json F}
    (hfield : field ∈ fields) : field.2.short = true := by
  induction fields with
  | nil => cases hfield
  | cons first fields ih =>
      obtain ⟨key, value⟩ := first
      rw [shortFields, Bool.and_eq_true] at hshort
      rcases List.mem_cons.mp hfield with rfl | hfield
      · exact hshort.1
      · exact ih hshort.2 hfield

theorem readsBack_of_plain {indent : Option ℕ} {v : Json F}
    {cs : List Char} (htext : ∀ level, text indent level v = cs)
    (hstart : ∃ c rest, cs = c :: rest ∧ isPlainStart c = true)
    (hscan : ∀ rest, Delimited rest →
      scanPlain (cs ++ rest) = some (v, rest)) : ReadsBack indent v := by
  intro level rest n hrest hn
  obtain ⟨c, more, hcs, hc⟩ := hstart
  rw [htext level] at hn ⊢
  rw [← hscan rest hrest]
  rw [hcs, List.length_cons] at hn
  obtain ⟨m, rfl⟩ := Nat.exists_eq_succ_of_ne_zero (by omega : n ≠ 0)
  rw [hcs, List.cons_append]
  exact scanOnce_plain hc _ m

theorem readsBack_of_word {indent : Option ℕ} {v : Json F}
    {word : List Char} (hword : (word, some v) ∈ constants F)
    (htext : ∀ level, text indent level v = word) : ReadsBack indent v :=
  readsBack_of_plain htext (word_start hword)
    fun rest _ => scanPlain_word hword rest

theorem Proper.readsBack {v : Json F} (hv : Proper v)
    (hshort : v.short = true) (indent : Option ℕ) : ReadsBack indent v := by
  induction hv with
  | null =>
      have hword : (['n', 'u', 'l', 'l'], some Json.null) ∈ constants F := by
        simp [constants]
      exact readsBack_of_word hword fun _ => by rw [text]
  | bool b =>
      cases b with
      | true =>
          have hword : (['t', 'r', 'u', 'e'], some (Json.bool true)) ∈
              constants F := by
            simp [constants]
          exact readsBack_of_word hword fun _ => by rw [text]
      | false =>
          have hword : (['f', 'a', 'l', 's', 'e'], some (Json.bool false)) ∈
              constants F := by
            simp [constants]
          exact readsBack_of_word hword fun _ => by rw [text]
  | int z =>
      rw [short, decide_eq_true_eq] at hshort
      exact readsBack_of_plain (fun _ => by rw [text]) (intText_start z)
        fun rest hrest => scanPlain_int hshort hrest
  | @float x hreads =>
      have htext (level : ℕ) :
          text indent level (Json.float x) = floatText x := by
        rw [text]
      cases hreads with
      | literal l hliteral hvalue =>
          apply readsBack_of_plain htext
            (FloatReads.literal l hliteral hvalue).start
          intro rest hrest
          rw [hliteral]
          exact scanPlain_literal l hvalue hrest
      | word hword => exact readsBack_of_word hword htext
  | str s =>
      intro level rest n hrest hn
      rw [text, stringText, List.length_cons] at hn
      obtain ⟨m, rfl⟩ := Nat.exists_eq_succ_of_ne_zero (by omega : n ≠ 0)
      rw [text, stringText, List.cons_append, List.append_assoc,
        List.singleton_append, scanOnce, if_pos rfl, scanString_key]
      dsimp only [Option.map_some]
      rw [String.ofList_toList]
  | @arr items hproper ih =>
      intro level rest n hrest hn
      rw [short] at hshort
      have hitems : ∀ item ∈ items, ReadsBack indent item :=
        fun item hitem => ih item hitem (short_of_mem hshort hitem)
      cases items with
      | nil =>
          obtain ⟨m, rfl⟩ := Nat.exists_eq_succ_of_ne_zero
            (by rintro rfl; exact absurd hn (by simp [text]) : n ≠ 0)
          simp only [text, List.isEmpty_nil, if_true, List.cons_append]
          rw [scanOnce, if_neg (by decide), if_pos rfl]
          rfl
      | cons item items =>
          have hstarts := textItems_starts indent (level + 1)
            (List.cons_ne_nil item items) hproper
          simp only [text, List.isEmpty_cons, Bool.false_eq_true, if_false,
            List.length_cons, List.length_append] at hn
          obtain ⟨m, rfl⟩ := Nat.exists_eq_succ_of_ne_zero
            (by omega : n ≠ 0)
          simp only [text, List.isEmpty_cons, Bool.false_eq_true, if_false,
            List.cons_append, List.append_assoc, List.nil_append]
          rw [scanOnce, if_neg (by decide), if_pos rfl]
          dsimp only
          rw [skipWhitespace_gap_of_starts indent (level + 1) hstarts,
            if_neg, scanItems_text (List.cons_ne_nil item items) hproper
              hitems (level + 1) level rest (by omega)]
          · rfl
          · obtain ⟨c, more, hc, -, hclose, -⟩ := hstarts
            rw [hc]
            exact fun h => hclose (Option.some.inj h)
  | @obj fields hkeys hproper ih =>
      intro level rest n hrest hn
      rw [short] at hshort
      have hfields : ∀ field ∈ fields, ReadsBack indent field.2 :=
        fun field hfield =>
          ih field hfield (short_of_mem_fields hshort hfield)
      cases fields with
      | nil =>
          obtain ⟨m, rfl⟩ := Nat.exists_eq_succ_of_ne_zero
            (by rintro rfl; exact absurd hn (by simp [text]) : n ≠ 0)
          simp only [text, List.isEmpty_nil, if_true, List.cons_append]
          rw [scanOnce, if_neg (by decide), if_neg (by decide), if_pos rfl]
          rfl
      | cons field fields =>
          obtain ⟨more, hfirst⟩ := textFields_starts indent (level + 1)
            (List.cons_ne_nil field fields)
          have hstarts : StartsValue
              (textFields indent (level + 1) (field :: fields)) :=
            ⟨_, more, hfirst, by decide, by decide, by decide⟩
          simp only [text, List.isEmpty_cons, Bool.false_eq_true, if_false,
            List.length_cons, List.length_append] at hn
          obtain ⟨m, rfl⟩ := Nat.exists_eq_succ_of_ne_zero
            (by omega : n ≠ 0)
          simp only [text, List.isEmpty_cons, Bool.false_eq_true, if_false,
            List.cons_append, List.append_assoc, List.nil_append]
          rw [scanOnce, if_neg (by decide), if_neg (by decide), if_pos rfl]
          dsimp only
          rw [skipWhitespace_gap_of_starts indent (level + 1) hstarts,
            if_neg, scanFields_text (List.cons_ne_nil field fields) hproper
              hfields (level + 1) level rest (by omega)]
          · dsimp only [Option.map_some]
            rw [PyDict.update_nil_of_nodup hkeys]
          · rw [hfirst]
            exact fun h => absurd (Option.some.inj h) (by decide)

/-- What `json.dumps` writes `json.loads` reads. -/
theorem loads?_dumps? {v : Json F} (hv : Proper v) {indent : Option ℕ}
    {s : String} (hdumps : dumps? indent v = some s) :
    loads? s = some v := by
  unfold dumps? at hdumps
  split_ifs at hdumps with hshort
  obtain rfl := Option.some.inj hdumps
  have hstart := hv.starts indent 0
  have hskip := skipWhitespace_of_starts hstart []
  have hread := hv.readsBack hshort indent 0 []
    ((text indent 0 v).length + 1) (fun c hc => by cases hc) (by omega)
  rw [List.append_nil] at hskip hread
  unfold loads?
  rw [String.toList_ofList, if_neg, hskip, hread, Option.bind_some]
  · rfl
  · obtain ⟨c, more, htext, -, -, hmark⟩ := hstart
    rw [htext]
    exact fun h => hmark (Option.some.inj h)

/-! ## One line -/

theorem newline_notMem_escapeChar (c : Char) : '\n' ∉ escapeChar c := by
  have hhex : ∀ digit : Fin 16, '\n' ≠ hexDigit digit := by
    decide
  unfold escapeChar
  split_ifs with hquote hslash hnewline hreturn htab hform hback hcontrol
  · decide
  · decide
  · decide
  · decide
  · decide
  · decide
  · decide
  · have hhigh := hhex ⟨c.toNat / 16, by omega⟩
    have hlow := hhex ⟨c.toNat % 16, by omega⟩
    simp only [List.mem_cons, List.not_mem_nil, or_false, not_or]
    exact ⟨by decide, by decide, by decide, by decide, hhigh, hlow⟩
  · exact fun h => hnewline (List.mem_singleton.mp h).symm

theorem newline_notMem_stringText (s : String) : '\n' ∉ stringText s := by
  unfold stringText
  simp only [List.mem_cons, List.mem_append, List.mem_flatMap,
    List.not_mem_nil, or_false, not_or]
  refine ⟨by decide, ?_, by decide⟩
  rintro ⟨c, -, hc⟩
  exact newline_notMem_escapeChar c hc

theorem newline_notMem_toDigits (n : ℕ) : '\n' ∉ Nat.toDigits 10 n := by
  intro hmem
  have hdigit := Nat.isDigit_of_mem_toDigits (by decide) (by decide) hmem
  revert hdigit
  decide

theorem newline_notMem_signText (negative : Bool) :
    '\n' ∉ signText negative := by
  cases negative <;> decide

theorem FloatLiteral.newline_notMem (l : FloatLiteral) : '\n' ∉ l.chars := by
  have hplain : '\n'.isDigit = false := by
    decide
  unfold FloatLiteral.chars
  simp only [List.mem_append, not_or]
  refine ⟨newline_notMem_signText _, newline_notMem_toDigits _, ?_, ?_⟩
  · unfold FloatLiteral.fractionText
    cases l.fraction with
    | nil => exact List.not_mem_nil
    | cons digit digits =>
        rw [List.mem_cons, not_or]
        refine ⟨by decide, fun hmem => ?_⟩
        obtain ⟨d, -, hd⟩ := List.mem_map.mp hmem
        rw [← hd, (digitChar_isDigit d).1] at hplain
        cases hplain
  · unfold FloatLiteral.exponentText
    cases l.exponent with
    | none => exact List.not_mem_nil
    | some exponent =>
        obtain ⟨negative, d⟩ := exponent
        simp only [List.mem_cons, not_or]
        refine ⟨by decide, by cases negative <;> decide, fun hmem => ?_⟩
        rw [isDigit_of_mem_text hmem] at hplain
        cases hplain

theorem FloatReads.newline_notMem {x : F} (hx : FloatReads x) :
    '\n' ∉ floatText x := by
  cases hx with
  | literal l htext hvalue =>
      rw [htext]
      exact l.newline_notMem
  | word hword =>
      generalize floatText x = word at hword
      simp only [constants, List.mem_cons, List.not_mem_nil, or_false,
        Prod.mk.injEq] at hword
      rcases hword with ⟨rfl, -⟩ | ⟨rfl, -⟩ | ⟨rfl, -⟩ | ⟨rfl, -⟩ |
        ⟨rfl, -⟩ | ⟨rfl, -⟩ <;> decide

theorem newline_notMem_separator (level : ℕ) :
    '\n' ∉ itemSeparator none level := by
  unfold itemSeparator
  rw [if_pos rfl]
  decide

theorem newline_notMem_textItems {items : List (Json F)} {level : ℕ}
    (hitems : ∀ item ∈ items, '\n' ∉ text none level item) :
    '\n' ∉ textItems none level items := by
  induction items with
  | nil => exact List.not_mem_nil
  | cons item items ih =>
      obtain ⟨hitem, hmore⟩ := List.forall_mem_cons.mp hitems
      cases items with
      | nil => exact hitem
      | cons next items =>
          simp only [textItems_cons, List.mem_append, not_or]
          exact ⟨⟨hitem, newline_notMem_separator level⟩, ih hmore⟩

theorem newline_notMem_textFields {fields : List (String × Json F)}
    {level : ℕ}
    (hfields : ∀ field ∈ fields, '\n' ∉ text none level field.2) :
    '\n' ∉ textFields none level fields := by
  induction fields with
  | nil => exact List.not_mem_nil
  | cons field fields ih =>
      obtain ⟨key, value⟩ := field
      obtain ⟨hvalue, hmore⟩ := List.forall_mem_cons.mp hfields
      have hkey : '\n' ∉ stringText key ++ [':', ' '] := by
        rw [List.mem_append, not_or]
        exact ⟨newline_notMem_stringText key, by decide⟩
      cases fields with
      | nil =>
          rw [textFields, List.mem_append, not_or]
          exact ⟨hkey, hvalue⟩
      | cons next fields =>
          rw [textFields_cons]
          simp only [List.mem_append, not_or] at hkey ⊢
          exact ⟨⟨⟨hkey, hvalue⟩, newline_notMem_separator level⟩, ih hmore⟩

/-- A text that is not indented is one line. -/
theorem Proper.newline_notMem {v : Json F} (hv : Proper v) (level : ℕ) :
    '\n' ∉ text none level v := by
  induction hv generalizing level with
  | null =>
      rw [text]
      decide
  | bool b => cases b <;> (rw [text]; decide)
  | int z =>
      rw [text, intText, List.mem_append, not_or]
      exact ⟨newline_notMem_signText _, newline_notMem_toDigits _⟩
  | float hreads =>
      rw [text]
      exact hreads.newline_notMem
  | str s =>
      rw [text]
      exact newline_notMem_stringText s
  | arr hproper ih =>
      rw [text]
      split_ifs
      · decide
      · simp only [gap, List.nil_append, List.append_nil, List.mem_cons,
          List.mem_append, List.not_mem_nil, or_false, not_or]
        exact ⟨by decide, newline_notMem_textItems
          fun item hitem => ih item hitem _, by decide⟩
  | obj hkeys hproper ih =>
      rw [text]
      split_ifs
      · decide
      · simp only [gap, List.nil_append, List.append_nil, List.mem_cons,
          List.mem_append, List.not_mem_nil, or_false, not_or]
        exact ⟨by decide, newline_notMem_textFields
          fun field hfield => ih field hfield _, by decide⟩

end Json
end Py
