import BabilCors.PyNumbers

/-!
# UTF-8 and Base64 there and back

What `safe_decode` makes of an encoded text is the text, and what the strict
decoder makes of a Base64 text is the bytes that it stands for.
-/

namespace Py

/-! ## UTF-8 -/

theorem takeWhile_cons_toNat {p : ℕ → Bool} {x : UInt8}
    (hx : p x.toNat = true) (rest : List UInt8) :
    ((x :: rest).map UInt8.toNat).takeWhile p =
      x.toNat :: (rest.map UInt8.toNat).takeWhile p := by
  rw [List.map_cons, List.takeWhile_cons_of_pos hx]

theorem takeWhile_cons_tail {x : UInt8}
    (hx : 0x80 ≤ x.toNat ∧ x.toNat ≤ 0xbf) (rest : List UInt8) :
    ((x :: rest).map UInt8.toNat).takeWhile
        (fun c => 0x80 ≤ c && c ≤ 0xbf) =
      x.toNat :: (rest.map UInt8.toNat).takeWhile
        fun c => 0x80 ≤ c && c ≤ 0xbf :=
  takeWhile_cons_toNat (by simpa using hx) rest

theorem drop_one_toNat (x : UInt8) (rest : List UInt8) :
    ((x :: rest).map UInt8.toNat).drop 1 = rest.map UInt8.toNat := rfl

theorem decodeChar_one {b : UInt8} (hb : b.toNat < 0x80)
    (rest : List UInt8) : decodeChar b rest = (Char.ofNat b.toNat, 0) := by
  unfold decodeChar
  dsimp only
  rw [if_pos hb]

theorem decodeChar_two {b x : UInt8} (hb : 0xc2 ≤ b.toNat ∧ b.toNat ≤ 0xdf)
    (hx : 0x80 ≤ x.toNat ∧ x.toNat ≤ 0xbf) (rest : List UInt8) :
    decodeChar b (x :: rest) =
      (Char.ofNat ((b.toNat - 0xc0) * 64 + (x.toNat - 0x80)), 1) := by
  unfold decodeChar
  dsimp only
  rw [if_neg (by omega), if_pos hb, if_neg (by omega), if_neg (by omega),
    if_neg (by omega), if_neg (by omega),
    takeWhile_cons_tail hx]

/-- After four of the leading bytes the next one has a narrower range. -/
theorem secondByte_valid {b x : ℕ} (hx : 0x80 ≤ x ∧ x ≤ 0xbf)
    (hlow₃ : b = 0xe0 → 0xa0 ≤ x) (hlow₄ : b = 0xf0 → 0x90 ≤ x)
    (hhigh₃ : b = 0xed → x ≤ 0x9f) (hhigh₄ : b = 0xf4 → x ≤ 0x8f) :
    (decide ((if b = 0xe0 then 0xa0 else if b = 0xf0 then 0x90 else 0x80) ≤
        x) &&
      decide (x ≤ if b = 0xed then 0x9f
        else if b = 0xf4 then 0x8f else 0xbf)) = true := by
  rw [Bool.and_eq_true, decide_eq_true_eq, decide_eq_true_eq]
  split_ifs <;> omega

theorem decodeChar_three {b x y : UInt8}
    (hb : 0xe0 ≤ b.toNat ∧ b.toNat ≤ 0xef)
    (hx : 0x80 ≤ x.toNat ∧ x.toNat ≤ 0xbf)
    (hlow : b.toNat = 0xe0 → 0xa0 ≤ x.toNat)
    (hhigh : b.toNat = 0xed → x.toNat ≤ 0x9f)
    (hy : 0x80 ≤ y.toNat ∧ y.toNat ≤ 0xbf) (rest : List UInt8) :
    decodeChar b (x :: y :: rest) =
      (Char.ofNat ((b.toNat - 0xe0) * 4096 + (x.toNat - 0x80) * 64 +
        (y.toNat - 0x80)), 2) := by
  have hsecond := secondByte_valid hx hlow (by omega) hhigh (by omega)
  unfold decodeChar
  dsimp only
  rw [if_neg (by omega), if_neg (by omega), if_pos hb,
    takeWhile_cons_toNat hsecond, drop_one_toNat,
    takeWhile_cons_tail hy]

theorem decodeChar_four {b x y z : UInt8}
    (hb : 0xf0 ≤ b.toNat ∧ b.toNat ≤ 0xf4)
    (hx : 0x80 ≤ x.toNat ∧ x.toNat ≤ 0xbf)
    (hlow : b.toNat = 0xf0 → 0x90 ≤ x.toNat)
    (hhigh : b.toNat = 0xf4 → x.toNat ≤ 0x8f)
    (hy : 0x80 ≤ y.toNat ∧ y.toNat ≤ 0xbf)
    (hz : 0x80 ≤ z.toNat ∧ z.toNat ≤ 0xbf) (rest : List UInt8) :
    decodeChar b (x :: y :: z :: rest) =
      (Char.ofNat ((b.toNat - 0xf0) * 262144 + (x.toNat - 0x80) * 4096 +
        (y.toNat - 0x80) * 64 + (z.toNat - 0x80)), 3) := by
  have hsecond := secondByte_valid hx (by omega) hlow (by omega) hhigh
  unfold decodeChar
  dsimp only
  rw [if_neg (by omega), if_neg (by omega), if_neg (by omega), if_pos hb,
    takeWhile_cons_toNat hsecond, drop_one_toNat,
    takeWhile_cons_tail hy,
    takeWhile_cons_tail hz]

theorem decodeChar_utf8EncodeChar (c : Char) (rest : List UInt8) :
    ∃ first more, String.utf8EncodeChar c = first :: more ∧
      decodeChar first (more ++ rest) = (c, more.length) := by
  have hback : Char.ofNat c.val.toNat = c := Char.ofNat_toNat c
  have hvalid : c.val.toNat < 0xd800 ∨
      0xdfff < c.val.toNat ∧ c.val.toNat < 0x110000 := c.valid
  have htoNat {n : ℕ} (hn : n < 256) : (UInt8.ofNat n).toNat = n :=
    Nat.mod_eq_of_lt hn
  unfold String.utf8EncodeChar
  dsimp only
  generalize c.val.toNat = v at hback hvalid
  split_ifs with hone htwo hthree
  · refine ⟨_, _, rfl, ?_⟩
    have hfirst := @htoNat v (by omega)
    rw [decodeChar_one (by omega), hfirst, hback]
    rfl
  · refine ⟨_, _, rfl, ?_⟩
    have hfirst := @htoNat (v / 64 % 0x20 + 0xc0) (by omega)
    have hsecond := @htoNat (v % 0x40 + 0x80) (by omega)
    rw [List.cons_append, decodeChar_two (by omega) (by omega), hfirst,
      hsecond]
    have hvalue : (v / 64 % 0x20 + 0xc0 - 0xc0) * 64 +
        (v % 0x40 + 0x80 - 0x80) = v := by
      omega
    rw [hvalue, hback]
    rfl
  · refine ⟨_, _, rfl, ?_⟩
    have hfirst := @htoNat (v / 4096 % 0x10 + 0xe0) (by omega)
    have hsecond := @htoNat (v / 64 % 0x40 + 0x80) (by omega)
    have hthird := @htoNat (v % 0x40 + 0x80) (by omega)
    rw [List.cons_append, List.cons_append,
      decodeChar_three (by omega) (by omega) (by omega) (by omega)
        (by omega), hfirst, hsecond, hthird]
    have hvalue : (v / 4096 % 0x10 + 0xe0 - 0xe0) * 4096 +
        (v / 64 % 0x40 + 0x80 - 0x80) * 64 + (v % 0x40 + 0x80 - 0x80) =
          v := by
      omega
    rw [hvalue, hback]
    rfl
  · refine ⟨_, _, rfl, ?_⟩
    have hfirst := @htoNat (v / 262144 % 0x08 + 0xf0) (by omega)
    have hsecond := @htoNat (v / 4096 % 0x40 + 0x80) (by omega)
    have hthird := @htoNat (v / 64 % 0x40 + 0x80) (by omega)
    have hfourth := @htoNat (v % 0x40 + 0x80) (by omega)
    rw [List.cons_append, List.cons_append, List.cons_append,
      decodeChar_four (by omega) (by omega) (by omega) (by omega)
        (by omega) (by omega), hfirst, hsecond, hthird, hfourth]
    have hvalue : (v / 262144 % 0x08 + 0xf0 - 0xf0) * 262144 +
        (v / 4096 % 0x40 + 0x80 - 0x80) * 4096 +
          (v / 64 % 0x40 + 0x80 - 0x80) * 64 + (v % 0x40 + 0x80 - 0x80) =
            v := by
      omega
    rw [hvalue, hback]
    rfl

theorem decodeChars_flatMap (cs : List Char) {fuel : ℕ}
    (hfuel : (cs.flatMap String.utf8EncodeChar).length ≤ fuel) :
    decodeChars fuel (cs.flatMap String.utf8EncodeChar) = cs := by
  induction cs generalizing fuel with
  | nil =>
      cases fuel <;> rfl
  | cons c cs ih =>
      rcases decodeChar_utf8EncodeChar c (cs.flatMap String.utf8EncodeChar)
        with ⟨first, more, hbytes, hchar⟩
      rw [List.flatMap_cons, hbytes, List.cons_append] at hfuel ⊢
      cases fuel with
      | zero => exact absurd hfuel (Nat.not_succ_le_zero _)
      | succ fuel =>
          have hrest : (cs.flatMap String.utf8EncodeChar).length ≤ fuel := by
            rw [List.length_cons, List.length_append] at hfuel
            omega
          rw [decodeChars, hchar]
          dsimp only
          rw [List.drop_left, ih hrest]

theorem byteArray_toList (data : ByteArray) :
    data.toList = data.data.toList := by
  have hloop (n i : ℕ) (r : List UInt8) (hn : data.size - i = n) :
      ByteArray.toList.loop data i r =
        r.reverse ++ data.data.toList.drop i := by
    induction n generalizing i r with
    | zero =>
        rw [ByteArray.toList.loop, if_neg (by omega),
          List.drop_of_length_le, List.append_nil]
        rw [Array.length_toList]
        exact Nat.le_of_sub_eq_zero hn
    | succ n ih =>
        have hi : i < data.data.size := by
          have hcount : data.size = data.data.size := rfl
          omega
        have hget : data.get! i = data.data.toList[i] := by
          rw [ByteArray.get!, getElem!_pos data.data i hi,
            Array.getElem_toList]
        have hdrop := List.drop_eq_getElem_cons
          (l := data.data.toList) (i := i) hi
        have hsize : i < data.size := hi
        rw [ByteArray.toList.loop, if_pos hsize, ih (i + 1) _ (by omega),
          hdrop, hget]
        simp
  rw [ByteArray.toList, hloop _ 0 [] rfl]
  rfl

theorem utf8Encode_eq (s : String) :
    utf8Encode s = s.toList.flatMap String.utf8EncodeChar := by
  have hbytes : s.toUTF8 = s.toList.utf8Encode :=
    String.utf8Encode_toList.symm
  rw [utf8Encode, hbytes, byteArray_toList, List.utf8Encode,
    List.toList_data_toByteArray]

/-- Decoding gives an encoded text back. -/
theorem safeDecode_utf8Encode (s : String) :
    safeDecode (utf8Encode s) = s := by
  rw [safeDecode, utf8Encode_eq, decodeChars_flatMap _ le_rfl,
    String.ofList_toList]

/-! ## Base64 -/

def base64Char (n : ℕ) : Char :=
  if n < 26 then Char.ofNat (n + 'A'.toNat)
  else if n < 52 then Char.ofNat (n - 26 + 'a'.toNat)
  else if n < 62 then Char.ofNat (n - 52 + '0'.toNat)
  else if n = 62 then '+'
  else '/'

def base64Chars : List UInt8 → List Char
  | [] => []
  | [a] => [base64Char (a.toNat / 4), base64Char (a.toNat % 4 * 16), '=', '=']
  | [a, b] =>
      [base64Char (a.toNat / 4),
        base64Char (a.toNat % 4 * 16 + b.toNat / 16),
        base64Char (b.toNat % 16 * 4), '=']
  | a :: b :: c :: rest =>
      base64Char (a.toNat / 4) ::
        base64Char (a.toNat % 4 * 16 + b.toNat / 16) ::
          base64Char (b.toNat % 16 * 4 + c.toNat / 64) ::
            base64Char (c.toNat % 64) :: base64Chars rest

/-- `base64.b64encode(data).decode("ascii")`. -/
def b64encode (data : List UInt8) : String :=
  .ofList (base64Chars data)

theorem base64Char_plain (n : Fin 64) :
    base64Value? (base64Char n) = some n.val ∧ base64Char n ≠ '=' ∧
      isSpace (base64Char n) = false ∧ (base64Char n).toNat < 128 := by
  revert n
  decide +kernel

theorem base64Loop_char {n : ℕ} (hn : n < 64) (quad left pads : ℕ)
    (cs : List Char) :
    base64Loop quad left pads false (base64Char n :: cs) =
      match quad with
      | 0 => base64Loop 1 n 0 false cs
      | 1 => (base64Loop 2 (n % 16) 0 false cs).map
          (UInt8.ofNat (left * 4 + n / 16) :: ·)
      | 2 => (base64Loop 3 (n % 4) 0 false cs).map
          (UInt8.ofNat (left * 16 + n / 4) :: ·)
      | _ => (base64Loop 0 0 0 false cs).map
          (UInt8.ofNat (left * 64 + n) :: ·) := by
  have hplain := base64Char_plain ⟨n, hn⟩
  rw [base64Loop, if_neg hplain.2.1, hplain.1]
  rfl

theorem base64Loop_first {n : ℕ} (hn : n < 64) (left pads : ℕ)
    (cs : List Char) :
    base64Loop 0 left pads false (base64Char n :: cs) =
      base64Loop 1 n 0 false cs :=
  base64Loop_char hn 0 left pads cs

theorem base64Loop_second {n left : ℕ} {a : UInt8} (hn : n < 64)
    (ha : left * 4 + n / 16 = a.toNat) (pads : ℕ) (cs : List Char) :
    base64Loop 1 left pads false (base64Char n :: cs) =
      (base64Loop 2 (n % 16) 0 false cs).map (a :: ·) := by
  rw [base64Loop_char hn, ha, UInt8.ofNat_toNat]
  rfl

theorem base64Loop_third {n left : ℕ} {a : UInt8} (hn : n < 64)
    (ha : left * 16 + n / 4 = a.toNat) (pads : ℕ) (cs : List Char) :
    base64Loop 2 left pads false (base64Char n :: cs) =
      (base64Loop 3 (n % 4) 0 false cs).map (a :: ·) := by
  rw [base64Loop_char hn, ha, UInt8.ofNat_toNat]
  rfl

theorem base64Loop_fourth {n left : ℕ} {a : UInt8} (hn : n < 64)
    (ha : left * 64 + n = a.toNat) (pads : ℕ) (cs : List Char) :
    base64Loop 3 left pads false (base64Char n :: cs) =
      (base64Loop 0 0 0 false cs).map (a :: ·) := by
  rw [base64Loop_char hn, ha, UInt8.ofNat_toNat]
  rfl

theorem base64Loop_base64Chars (data : List UInt8) :
    base64Loop 0 0 0 false (base64Chars data) = some data := by
  induction data using base64Chars.induct with
  | case1 => rfl
  | case2 a =>
      have ha := a.toNat_lt
      rw [base64Chars, base64Loop_first (by omega),
        base64Loop_second (a := a) (by omega) (by omega)]
      rfl
  | case3 a b =>
      have ha := a.toNat_lt
      have hb := b.toNat_lt
      rw [base64Chars, base64Loop_first (by omega),
        base64Loop_second (a := a) (by omega) (by omega),
        base64Loop_third (a := b) (by omega) (by omega)]
      rfl
  | case4 a b c rest ih =>
      have ha := a.toNat_lt
      have hb := b.toNat_lt
      have hc := c.toNat_lt
      rw [base64Chars, base64Loop_first (by omega),
        base64Loop_second (a := a) (by omega) (by omega),
        base64Loop_third (a := b) (by omega) (by omega),
        base64Loop_fourth (a := c) (by omega) (by omega), ih]
      rfl

theorem base64Chars_ne_nil {data : List UInt8} (hdata : data ≠ []) :
    base64Chars data ≠ [] := by
  unfold base64Chars
  split
  · exact absurd rfl hdata
  all_goals exact List.cons_ne_nil _ _

theorem base64Chars_head {data : List UInt8} :
    (base64Chars data).head? ≠ some '=' := by
  have hplain (a : UInt8) : base64Char (a.toNat / 4) ≠ '=' :=
    (base64Char_plain ⟨a.toNat / 4, by have := a.toNat_lt; omega⟩).2.1
  unfold base64Chars
  split
  · simp
  all_goals
    rw [List.head?_cons]
    exact fun h => hplain _ (Option.some.inj h)

theorem base64Char_ascii {n : ℕ} (hn : n < 64) :
    isSpace (base64Char n) = false ∧ (base64Char n).toNat < 128 :=
  (base64Char_plain ⟨n, hn⟩).2.2

theorem mem_base64Chars {data : List UInt8} :
    ∀ c ∈ base64Chars data, isSpace c = false ∧ c.toNat < 128 := by
  have hpad : isSpace '=' = false ∧ '='.toNat < 128 := by
    decide
  induction data using base64Chars.induct with
  | case1 =>
      intro c hc
      cases hc
  | case2 a =>
      have ha := a.toNat_lt
      rw [base64Chars, List.forall_mem_cons, List.forall_mem_cons,
        List.forall_mem_cons, List.forall_mem_singleton]
      exact ⟨base64Char_ascii (by omega), base64Char_ascii (by omega), hpad,
        hpad⟩
  | case3 a b =>
      have ha := a.toNat_lt
      have hb := b.toNat_lt
      rw [base64Chars, List.forall_mem_cons, List.forall_mem_cons,
        List.forall_mem_cons, List.forall_mem_singleton]
      exact ⟨base64Char_ascii (by omega), base64Char_ascii (by omega),
        base64Char_ascii (by omega), hpad⟩
  | case4 a b c rest ih =>
      have ha := a.toNat_lt
      have hb := b.toNat_lt
      have hc := c.toNat_lt
      rw [base64Chars, List.forall_mem_cons, List.forall_mem_cons,
        List.forall_mem_cons, List.forall_mem_cons]
      exact ⟨base64Char_ascii (by omega), base64Char_ascii (by omega),
        base64Char_ascii (by omega), base64Char_ascii (by omega), ih⟩

/-- Strict decoding gives the encoded bytes back. -/
theorem b64decode?_b64encode (data : List UInt8) :
    b64decode? (b64encode data) = some data := by
  rw [b64decode?, b64encode, String.toList_ofList,
    if_neg base64Chars_head, base64Loop_base64Chars]

theorem isAscii_b64encode (data : List UInt8) :
    isAscii (b64encode data) = true := by
  rw [isAscii, b64encode, String.toList_ofList, List.all_eq_true]
  intro c hc
  simpa using (mem_base64Chars c hc).2

end Py
