import Mathlib.Data.List.DropRight
import Mathlib.Tactic

/-!
# Text functions of the source language

The string and byte-string operations of Python that the modelled functions
use, on Lean strings.  A function keeps the documented behaviour on every
input, except that `lower` and `upper` are exact on ASCII texts only: the
whitespace and decimal digits are those of Unicode 15, and `int` accepts
surrounding blanks, a sign and single underscores between digits.
-/

namespace Py

/-! ## Cutting and trimming -/

def isSpace (c : Char) : Bool :=
  let n := c.toNat
  (9 ≤ n && n ≤ 13) || (0x1c ≤ n && n ≤ 0x20) || n == 0x85 || n == 0xa0 ||
    n == 0x1680 || (0x2000 ≤ n && n ≤ 0x200a) || n == 0x2028 ||
    n == 0x2029 || n == 0x202f || n == 0x205f || n == 0x3000

def strip (s : String) : String :=
  .ofList ((s.toList.dropWhile isSpace).rdropWhile isSpace)

def stripChar (c : Char) (s : String) : String :=
  .ofList ((s.toList.dropWhile (· == c)).rdropWhile (· == c))

def lstripChar (c : Char) (s : String) : String :=
  .ofList (s.toList.dropWhile (· == c))

def split (sep : Char) (s : String) : List String :=
  (s.toList.splitOn sep).map .ofList

/-- `s.split()`: the maximal runs without whitespace. -/
def splitWs (s : String) : List String :=
  ((s.toList.splitOnP isSpace).filter (· ≠ [])).map .ofList

/-- `s.split(None, 1)` on a string without surrounding whitespace, when it has
two parts. -/
def splitWsOnce? (s : String) : Option (String × String) :=
  let rest := (s.toList.dropWhile (!isSpace ·)).dropWhile isSpace
  if rest = [] then none
  else some (.ofList (s.toList.takeWhile (!isSpace ·)), .ofList rest)

/-- `s.split(sep, 1)[0]`: what stands before the first separator. -/
def before (sep : Char) (s : String) : String :=
  .ofList (s.toList.takeWhile (· != sep))

/-- `s.split(sep, 1)[1]`, when the separator occurs. -/
def after? (sep : Char) (s : String) : Option String :=
  match s.toList.dropWhile (· != sep) with
  | [] => none
  | _ :: rest => some (.ofList rest)

/-- `s.rpartition(sep)` on a string that contains the separator: what stands
before and behind its last occurrence. -/
def rpartition? (sep : Char) (s : String) : Option (String × String) :=
  if sep ∈ s.toList then
    some (.ofList ((s.toList.rdropWhile (· != sep)).rdrop 1),
      .ofList (s.toList.rtakeWhile (· != sep)))
  else
    none

def startsWith (s p : String) : Bool :=
  p.toList.isPrefixOf s.toList

theorem startsWith_comparable {s p q : String}
    (hp : startsWith s p = true) (hq : startsWith s q = true) :
    startsWith p q = true ∨ startsWith q p = true := by
  unfold startsWith at hp hq ⊢
  rw [List.isPrefixOf_iff_prefix] at hp hq ⊢
  rw [List.isPrefixOf_iff_prefix]
  rcases List.prefix_or_prefix_of_prefix hp hq with hpq | hqp
  · exact .inr hpq
  · exact .inl hqp

theorem not_startsWith {path base other : String}
    (hpath : startsWith path base = true)
    (hbase : startsWith base other = false)
    (hother : startsWith other base = false) :
    startsWith path other = false := by
  by_contra hboth
  have hstarts : startsWith path other = true := by
    simpa using hboth
  rcases startsWith_comparable hpath hstarts with h | h
  · rw [hbase] at h
    cases h
  · rw [hother] at h
    cases h

/-- A character that stays keeps what stands before it. -/
theorem rdropWhile_append_cons {α : Type*} {p : α → Bool} {x : α}
    (hx : p x = false) (l rest : List α) :
    (l ++ x :: rest).rdropWhile p = l ++ x :: rest.rdropWhile p := by
  unfold List.rdropWhile
  have hreverse : (l ++ x :: rest).reverse =
      rest.reverse ++ x :: l.reverse := by
    simp
  rw [hreverse, List.dropWhile_append]
  split_ifs with hempty
  · have hnil : rest.reverse.dropWhile p = [] := by
      simpa using hempty
    rw [hnil, List.dropWhile_cons_of_neg (by simp [hx])]
    simp
  · simp

def contains (s p : String) : Bool :=
  s.toList.tails.any p.toList.isPrefixOf

/-- `s.lower()` of an ASCII text.  Outside ASCII it lowers only the two
characters whose lower case has ASCII letters, so that a comparison with an
ASCII word comes out right for every text. -/
def lower (s : String) : String :=
  .ofList (s.toList.flatMap fun c =>
    if 'A' ≤ c ∧ c ≤ 'Z' then [Char.ofNat (c.toNat + 32)]
    else if c.toNat = 0x212a then ['k']
    else if c.toNat = 0x130 then ['i', Char.ofNat 0x307]
    else [c])

/-- `s.upper()` of an ASCII text.  Outside ASCII it takes only the characters
whose upper case consists of ASCII letters, so that a comparison with an ASCII
word comes out right for every text. -/
def upper (s : String) : String :=
  .ofList (s.toList.flatMap fun c =>
    if 'a' ≤ c ∧ c ≤ 'z' then [Char.ofNat (c.toNat - 32)]
    else match c.toNat with
      | 0x17f => ['S']
      | 0x131 => ['I']
      | 0xdf => ['S', 'S']
      | 0xfb00 => ['F', 'F']
      | 0xfb01 => ['F', 'I']
      | 0xfb02 => ['F', 'L']
      | 0xfb03 => ['F', 'F', 'I']
      | 0xfb04 => ['F', 'F', 'L']
      | 0xfb05 | 0xfb06 => ['S', 'T']
      | _ => [c])

/-! ## Numbers -/

def digitZeros : List ℕ :=
  [0x30, 0x660, 0x6f0, 0x7c0, 0x966, 0x9e6, 0xa66, 0xae6, 0xb66, 0xbe6,
    0xc66, 0xce6, 0xd66, 0xde6, 0xe50, 0xed0, 0xf20, 0x1040, 0x1090, 0x17e0,
    0x1810, 0x1946, 0x19d0, 0x1a80, 0x1a90, 0x1b50, 0x1bb0, 0x1c40, 0x1c50,
    0xa620, 0xa8d0, 0xa900, 0xa9d0, 0xa9f0, 0xaa50, 0xabf0, 0xff10, 0x104a0,
    0x10d30, 0x11066, 0x110f0, 0x11136, 0x111d0, 0x112f0, 0x11450, 0x114d0,
    0x11650, 0x116c0, 0x11730, 0x118e0, 0x11950, 0x11c50, 0x11d50, 0x11da0,
    0x11f50, 0x16a60, 0x16ac0, 0x16b50, 0x1d7ce, 0x1d7d8, 0x1d7e2, 0x1d7ec,
    0x1d7f6, 0x1e140, 0x1e2f0, 0x1e4f0, 0x1e950, 0x1fbf0]

def digitValue? (c : Char) : Option ℕ :=
  (digitZeros.find? fun z => z ≤ c.toNat && c.toNat < z + 10).map
    (c.toNat - ·)

def hexValue? (c : Char) : Option ℕ :=
  if 'a' ≤ c ∧ c ≤ 'f' then some (c.toNat - 'a'.toNat + 10)
  else if 'A' ≤ c ∧ c ≤ 'F' then some (c.toNat - 'A'.toNat + 10)
  else digitValue? c

/-- Digits in a base, with single underscores between them.  The flag says
whether the character before was a digit. -/
def digits (base : ℕ) (value? : Char → Option ℕ) :
    Bool → ℕ → List Char → Option ℕ
  | afterDigit, acc, [] => if afterDigit then some acc else none
  | afterDigit, acc, c :: cs =>
      if c = '_' then
        if afterDigit then digits base value? false acc cs else none
      else
        (value? c).bind fun d =>
          digits base value? true (acc * base + d) cs

/-- An optional sign in front of an unsigned number. -/
def signed (unsigned : List Char → Option ℕ) : List Char → Option ℤ
  | '+' :: cs => (unsigned cs).map Int.ofNat
  | '-' :: cs => (unsigned cs).map fun n => -(n : ℤ)
  | cs => (unsigned cs).map Int.ofNat

def maxStrDigits : ℕ := 4300

/-- What `int` and `float` skip around a number: the whitespace of C among the
ASCII characters, which lacks the separators 0x1c to 0x1f, and any whitespace
outside ASCII. -/
def isNumberSpace (c : Char) : Bool :=
  let n := c.toNat
  if n < 128 then (9 ≤ n && n ≤ 13) || n == 0x20 else isSpace c

def numberBody (s : String) : List Char :=
  (s.toList.dropWhile isNumberSpace).rdropWhile isNumberSpace

/-- `int(s)`; `none` is the `ValueError`. -/
def int? (s : String) : Option ℤ :=
  let body := numberBody s
  if maxStrDigits < body.countP fun c => (digitValue? c).isSome then none
  else signed (digits 10 digitValue? false 0) body

/-- `int(s, 16)`; `none` is the `ValueError`. -/
def intBase16? (s : String) : Option ℤ :=
  signed
    (fun cs =>
      match cs with
      | '0' :: 'x' :: rest | '0' :: 'X' :: rest =>
          match rest with
          | '_' :: rest => digits 16 hexValue? false 0 rest
          | rest => digits 16 hexValue? false 0 rest
      | cs => digits 16 hexValue? false 0 cs)
    (numberBody s)

/-! ## Bytes -/

def hexDigit (n : ℕ) : Char :=
  if n < 10 then Char.ofNat (n + '0'.toNat)
  else Char.ofNat (n - 10 + 'a'.toNat)

/-- `binascii.hexlify(b).decode("ascii")`, and the `hexdigest` of a digest. -/
def hexlify (data : List UInt8) : String :=
  .ofList (data.flatMap fun b =>
    [hexDigit (b.toNat / 16), hexDigit (b.toNat % 16)])

def asciiHexValue? (c : Char) : Option ℕ :=
  if c.toNat < 128 then hexValue? c else none

def unhexlifyChars : List Char → Option (List UInt8)
  | [] => some []
  | [_] => none
  | c :: d :: cs =>
      (asciiHexValue? c).bind fun hi =>
        (asciiHexValue? d).bind fun lo =>
          (unhexlifyChars cs).map (UInt8.ofNat (16 * hi + lo) :: ·)

/-- `binascii.unhexlify(s.encode("ascii"))`; `none` is the exception of a
non-ASCII, odd-length or non-hexadecimal string. -/
def unhexlify? (s : String) : Option (List UInt8) :=
  unhexlifyChars s.toList

def base64Value? (c : Char) : Option ℕ :=
  if 'A' ≤ c ∧ c ≤ 'Z' then some (c.toNat - 'A'.toNat)
  else if 'a' ≤ c ∧ c ≤ 'z' then some (c.toNat - 'a'.toNat + 26)
  else if '0' ≤ c ∧ c ≤ '9' then some (c.toNat - '0'.toNat + 52)
  else if c = '+' then some 62
  else if c = '/' then some 63
  else none

/-- The loop of a strict Base64 decoder: the position in the group of four,
the bits left over, the padding characters of this group, and whether padding
has begun. -/
def base64Loop : ℕ → ℕ → ℕ → Bool → List Char → Option (List UInt8)
  | quad, _, _, _, [] => if quad = 0 then some [] else none
  | quad, left, pads, padded, c :: cs =>
      if c = '=' then
        if quad < 2 then base64Loop quad left pads true cs
        else if 4 ≤ quad + (pads + 1) then
          if cs = [] then some [] else none
        else base64Loop quad left (pads + 1) true cs
      else
        (base64Value? c).bind fun v =>
          if padded then none
          else match quad with
            | 0 => base64Loop 1 v 0 false cs
            | 1 => (base64Loop 2 (v % 16) 0 false cs).map
                (UInt8.ofNat (left * 4 + v / 16) :: ·)
            | 2 => (base64Loop 3 (v % 4) 0 false cs).map
                (UInt8.ofNat (left * 16 + v / 4) :: ·)
            | _ => (base64Loop 0 0 0 false cs).map
                (UInt8.ofNat (left * 64 + v) :: ·)

/-- `base64.b64decode(s, validate=True)` of an ASCII string; `none` is the
`binascii.Error`. -/
def b64decode? (s : String) : Option (List UInt8) :=
  if s.toList.head? = some '=' then none
  else base64Loop 0 0 0 false s.toList

def isAscii (s : String) : Bool :=
  s.toList.all fun c => c.toNat < 128

def utf8Encode (s : String) : List UInt8 :=
  s.toUTF8.toList

def replacementChar : Char := Char.ofNat 0xfffd

/-- One character of `b.decode("utf-8", errors="replace")`: the character for
a first byte, and how many of the bytes behind it belong to it.  An invalid or
cut sequence gives one replacement character for its longest valid start. -/
def decodeChar (first : UInt8) (rest : List UInt8) : Char × ℕ :=
  let b := first.toNat
  let lo := if b = 0xe0 then 0xa0 else if b = 0xf0 then 0x90 else 0x80
  let hi := if b = 0xed then 0x9f else if b = 0xf4 then 0x8f else 0xbf
  let second := (rest.map UInt8.toNat).takeWhile fun c => lo ≤ c && c ≤ hi
  let later :=
    ((rest.map UInt8.toNat).drop 1).takeWhile fun c => 0x80 ≤ c && c ≤ 0xbf
  if b < 0x80 then (Char.ofNat b, 0)
  else if 0xc2 ≤ b ∧ b ≤ 0xdf then
    match second with
    | c :: _ => (Char.ofNat ((b - 0xc0) * 64 + (c - 0x80)), 1)
    | [] => (replacementChar, 0)
  else if 0xe0 ≤ b ∧ b ≤ 0xef then
    match second, later with
    | c :: _, d :: _ =>
        (Char.ofNat ((b - 0xe0) * 4096 + (c - 0x80) * 64 + (d - 0x80)), 2)
    | _ :: _, [] => (replacementChar, 1)
    | [], _ => (replacementChar, 0)
  else if 0xf0 ≤ b ∧ b ≤ 0xf4 then
    match second, later with
    | c :: _, d :: e :: _ =>
        (Char.ofNat ((b - 0xf0) * 262144 + (c - 0x80) * 4096 +
          (d - 0x80) * 64 + (e - 0x80)), 3)
    | _ :: _, [_] => (replacementChar, 2)
    | _ :: _, [] => (replacementChar, 1)
    | [], _ => (replacementChar, 0)
  else (replacementChar, 0)

def decodeChars : ℕ → List UInt8 → List Char
  | 0, _ | _, [] => []
  | fuel + 1, b :: rest =>
      let one := decodeChar b rest
      one.1 :: decodeChars fuel (rest.drop one.2)

/-- `safe_decode`: every byte takes part, since a character uses at least one
byte and the fuel is their number. -/
def safeDecode (data : List UInt8) : String :=
  .ofList (decodeChars data.length data)

end Py
