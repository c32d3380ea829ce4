import Mathlib.Data.Bool.AllAny
import BabilCors.SeparatedRecords
import BabilCors.TextEncodings

/-!
# Percent-encoded text

`unquote` and `parse_qsl` of the source's library, and the form that a client
gives to a query.  A `+` is a blank, an escape is a byte, and what is no
escape stands for itself; runs of ASCII characters are decoded as UTF-8.
-/

namespace Py

/-! ## Reading -/

/-- The bytes of an ASCII text with escapes. -/
def unquoteToBytes : List Char → List UInt8
  | [] => []
  | '%' :: a :: b :: rest =>
      match asciiHexValue? a, asciiHexValue? b with
      | some hi, some lo => UInt8.ofNat (16 * hi + lo) :: unquoteToBytes rest
      | _, _ => UInt8.ofNat '%'.toNat :: unquoteToBytes (a :: b :: rest)
  | c :: cs => UInt8.ofNat c.toNat :: unquoteToBytes cs

def unquoteRun (run : List Char) : List Char :=
  (safeDecode (unquoteToBytes run)).toList

/-- The characters to come behind a run of ASCII characters. -/
def unquoteLoop : List Char → List Char → List Char
  | run, [] => unquoteRun run
  | run, c :: cs =>
      if c.toNat < 128 then unquoteLoop (run ++ [c]) cs
      else unquoteRun run ++ c :: unquoteLoop [] cs

/-- `unquote(s.replace("+", " "))`. -/
def unquotePlus (s : String) : String :=
  .ofList (unquoteLoop [] (s.toList.map fun c => if c = '+' then ' ' else c))

/-- `parse_qsl` with `keep_blank_values`. -/
def parseQsl (qs : String) : List (String × String) :=
  ((split '&' qs).filter (· ≠ "")).map fun nameValue =>
    (unquotePlus (before '=' nameValue),
      unquotePlus ((after? '=' nameValue).getD ""))

/-! ## Writing -/

def isUnreserved (c : Char) : Bool :=
  ('a' ≤ c && c ≤ 'z') || ('A' ≤ c && c ≤ 'Z') || ('0' ≤ c && c ≤ '9') ||
    c == '_' || c == '.' || c == '-' || c == '~'

def quoteByte (b : UInt8) : List Char :=
  if b = 32 then ['+']
  else if isUnreserved (Char.ofNat b.toNat) then [Char.ofNat b.toNat]
  else ['%', upperHexDigit (b.toNat / 16), upperHexDigit (b.toNat % 16)]

def quotePlus (s : String) : List Char :=
  (utf8Encode s).flatMap quoteByte

def quotePair (pair : String × String) : List Char :=
  quotePlus pair.1 ++ '=' :: quotePlus pair.2

def urlencode (pairs : List (String × String)) : String :=
  .ofList (['&'].intercalate (pairs.map quotePair))

/-! ## There and back -/

/-- What reading makes of a written byte: one character, or an escape. -/
inductive Written (b : UInt8) : List Char → Prop
  | plain (c : Char) (hc : c ≠ '%') (hb : UInt8.ofNat c.toNat = b) :
      Written b [c]
  | escape (x y : Char) (hi lo : ℕ) (hx : asciiHexValue? x = some hi)
      (hy : asciiHexValue? y = some lo) (hb : UInt8.ofNat (16 * hi + lo) = b) :
      Written b ['%', x, y]

theorem asciiHexValue?_upperHexDigit (digit : Fin 16) :
    asciiHexValue? (upperHexDigit digit) = some digit.val ∧
      upperHexDigit digit ≠ '+' := by
  revert digit
  decide

theorem ne_of_isUnreserved {c : Char} (hc : isUnreserved c = true) :
    c ≠ '+' ∧ c ≠ '%' := by
  constructor <;> rintro rfl <;> revert hc <;> decide

theorem written_quoteByte (b : UInt8) :
    Written b ((quoteByte b).map fun c => if c = '+' then ' ' else c) := by
  have hlt : b.toNat < 256 := b.toNat_lt
  have hback : UInt8.ofNat b.toNat = b := UInt8.ofNat_toNat
  unfold quoteByte
  split_ifs with hblank hplain
  · subst hblank
    exact .plain ' ' (by decide) rfl
  · obtain ⟨hplus, hpercent⟩ := ne_of_isUnreserved hplain
    rw [List.map_singleton, if_neg hplus]
    refine .plain _ hpercent ?_
    have hchar : (Char.ofNat b.toNat).toNat = b.toNat := by
      have hall : ∀ n : Fin 256, (Char.ofNat n).toNat = n := by
        decide +kernel
      exact hall ⟨b.toNat, hlt⟩
    rw [hchar, hback]
  · obtain ⟨hhigh, hhighPlus⟩ :=
      asciiHexValue?_upperHexDigit ⟨b.toNat / 16, by omega⟩
    obtain ⟨hlow, hlowPlus⟩ :=
      asciiHexValue?_upperHexDigit ⟨b.toNat % 16, by omega⟩
    have htext : (['%', upperHexDigit (b.toNat / 16),
        upperHexDigit (b.toNat % 16)].map
          fun c => if c = '+' then ' ' else c) =
        ['%', upperHexDigit (b.toNat / 16), upperHexDigit (b.toNat % 16)] := by
      simp [hhighPlus, hlowPlus]
    rw [htext]
    refine .escape _ _ _ _ hhigh hlow ?_
    rw [Nat.div_add_mod, hback]

theorem unquoteToBytes_cons {c : Char} (hc : c ≠ '%') (rest : List Char) :
    unquoteToBytes (c :: rest) =
      UInt8.ofNat c.toNat :: unquoteToBytes rest := by
  rw [unquoteToBytes]
  intro a b rest' hpercent _
  exact hc hpercent

theorem unquoteToBytes_written {b : UInt8} {text : List Char}
    (h : Written b text) (rest : List Char) :
    unquoteToBytes (text ++ rest) = b :: unquoteToBytes rest := by
  cases h with
  | plain c hc hb => rw [List.singleton_append, unquoteToBytes_cons hc, hb]
  | escape x y hi lo hx hy hb =>
      simp only [List.cons_append, List.nil_append]
      rw [unquoteToBytes, hx, hy]
      exact congrArg (· :: unquoteToBytes rest) hb

/-- The characters of a written text. -/
theorem mem_quotePlus {s : String} {c : Char} (hc : c ∈ quotePlus s) :
    c.toNat < 128 ∧ isSpace c = false ∧ c ∉ ['&', '=', '?', '#', '/'] := by
  obtain ⟨b, -, hmem⟩ := List.mem_flatMap.mp hc
  have hall : ∀ n : Fin 256, (quoteByte (UInt8.ofNat n)).all fun c =>
      c.toNat < 128 ∧ isSpace c = false ∧
        c ∉ ['&', '=', '?', '#', '/'] := by
    decide +kernel
  refine List.all_iff_forall_prop.mp (hall ⟨b.toNat, b.toNat_lt⟩) c ?_
  rwa [UInt8.ofNat_toNat]

/-- A written text is read back. -/
theorem unquotePlus_quotePlus (s : String) :
    unquotePlus (.ofList (quotePlus s)) = s := by
  have hbytes : unquoteToBytes ((quotePlus s).map
      fun c => if c = '+' then ' ' else c) = utf8Encode s := by
    unfold quotePlus
    generalize utf8Encode s = data
    induction data with
    | nil => rfl
    | cons b data ih =>
        rw [List.flatMap_cons, List.map_append,
          unquoteToBytes_written (written_quoteByte b), ih]
  have hrun {run : List Char} {cs : List Char}
      (hcs : ∀ c ∈ cs, c.toNat < 128) :
      unquoteLoop run cs = unquoteRun (run ++ cs) := by
    induction cs generalizing run with
    | nil => rw [unquoteLoop, List.append_nil]
    | cons c cs ih =>
        obtain ⟨hc, hcs⟩ := List.forall_mem_cons.mp hcs
        rw [unquoteLoop, if_pos hc, ih hcs, List.append_assoc]
        rfl
  have hascii : ∀ c ∈ (quotePlus s).map
      (fun c => if c = '+' then ' ' else c), c.toNat < 128 := by
    intro c hc
    obtain ⟨x, hx, rfl⟩ := List.mem_map.mp hc
    split_ifs
    · decide
    · exact (mem_quotePlus hx).1
  unfold unquotePlus
  rw [String.toList_ofList, hrun hascii, List.nil_append, unquoteRun, hbytes,
    safeDecode_utf8Encode, String.ofList_toList]

theorem parts_at {sep : Char} {front : List Char} (hsep : sep ∉ front)
    (rest : List Char) :
    before sep (.ofList (front ++ sep :: rest)) = .ofList front ∧
      after? sep (.ofList (front ++ sep :: rest)) = some (.ofList rest) := by
  have hpass : ∀ c ∈ front, (c != sep) = true := by
    intro c hc
    simpa using fun h : c = sep => hsep (h ▸ hc)
  constructor
  · rw [before, String.toList_ofList, List.takeWhile_append_of_pos hpass]
    simp
  · have hrest : (front ++ sep :: rest).dropWhile (· != sep) =
        sep :: rest := by
      rw [List.dropWhile_append_of_pos hpass]
      simp
    rw [after?, String.toList_ofList, hrest]

/-- A written pair is cut at its separator. -/
theorem parse_quotePair (pair : String × String) :
    (unquotePlus (before '=' (.ofList (quotePair pair))),
      unquotePlus ((after? '=' (.ofList (quotePair pair))).getD "")) =
        pair := by
  have hsep : '=' ∉ quotePlus pair.1 :=
    fun hmem => (mem_quotePlus hmem).2.2 (by decide)
  obtain ⟨hbefore, hafter⟩ := parts_at hsep (quotePlus pair.2)
  unfold quotePair
  rw [hbefore, hafter, Option.getD_some, unquotePlus_quotePlus,
    unquotePlus_quotePlus]

/-- A written query is read back. -/
theorem parseQsl_urlencode (pairs : List (String × String)) :
    parseQsl (urlencode pairs) = pairs := by
  have hand : ∀ field ∈ pairs.map quotePair, '&' ∉ field := by
    intro field hfield
    obtain ⟨pair, -, rfl⟩ := List.mem_map.mp hfield
    unfold quotePair
    simp only [List.mem_append, List.mem_cons, not_or]
    exact ⟨fun h => (mem_quotePlus h).2.2 (by decide), by decide,
      fun h => (mem_quotePlus h).2.2 (by decide)⟩
  unfold parseQsl urlencode split
  rw [String.toList_ofList]
  cases pairs with
  | nil => rfl
  | cons pair pairs =>
      rw [List.splitOn_intercalate '&' hand (List.cons_ne_nil _ _),
        List.map_map, List.filter_eq_self.mpr, List.map_map]
      · conv_rhs => rw [← List.map_id (pair :: pairs)]
        apply List.map_congr_left
        intro p _
        exact parse_quotePair p
      · intro field hfield
        obtain ⟨p, -, rfl⟩ := List.mem_map.mp hfield
        apply decide_eq_true
        intro hempty
        have hnil := String.ofList_eq_empty_iff.mp hempty
        simp [quotePair] at hnil

end Py
