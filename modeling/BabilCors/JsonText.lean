import BabilCors.MergedWrites
import BabilCors.PyValue

/-!
# The text of a JSON document

`json.dumps` with `ensure_ascii=False`, on one line or indented, and
`json.loads`.  The depth of the recursion is not limited.
-/

namespace Py
namespace Json

variable {F : Type}

/-! ## Writing -/

/-- One character of a string: `ESCAPE_DCT`, and `\u` for the other control
characters. -/
def escapeChar (c : Char) : List Char :=
  if c = doubleQuote then ['\\', doubleQuote]
  else if c = '\\' then ['\\', '\\']
  else if c = '\n' then ['\\', 'n']
  else if c = '\r' then ['\\', 'r']
  else if c = '\t' then ['\\', 't']
  else if c = Char.ofNat 12 then ['\\', 'f']
  else if c = Char.ofNat 8 then ['\\', 'b']
  else if c.toNat < 0x20 then
    ['\\', 'u', '0', '0', hexDigit (c.toNat / 16), hexDigit (c.toNat % 16)]
  else [c]

def stringText (s : String) : List Char :=
  doubleQuote :: (s.toList.flatMap escapeChar ++ [doubleQuote])

def signText (negative : Bool) : List Char :=
  if negative then ['-'] else []

def intText (z : ℤ) : List Char :=
  signText (z < 0) ++ Nat.toDigits 10 z.natAbs

/-- A new line at the depth of the value, where the text is indented. -/
def gap (indent : Option ℕ) (level : ℕ) : List Char :=
  match indent with
  | none => []
  | some width => '\n' :: List.replicate (width * level) ' '

def itemSeparator (indent : Option ℕ) (level : ℕ) : List Char :=
  ',' :: if indent = none then [' '] else gap indent level

def infinityText : List Char :=
  ['I', 'n', 'f', 'i', 'n', 'i', 't', 'y']

variable [PyFloat F]

def floatText (x : F) : List Char :=
  if PyFloat.isNaN x then ['N', 'a', 'N']
  else if (PyFloat.trunc? x).isNone then
    if PyFloat.lt floatZero x then infinityText else '-' :: infinityText
  else (PyFloat.repr x).toList

mutual

def text (indent : Option ℕ) : ℕ → Json F → List Char
  | _, null => ['n', 'u', 'l', 'l']
  | _, bool true => ['t', 'r', 'u', 'e']
  | _, bool false => ['f', 'a', 'l', 's', 'e']
  | _, int z => intText z
  | _, float x => floatText x
  | _, str s => stringText s
  | level, arr items =>
      if items.isEmpty then ['[', ']']
      else '[' :: (gap indent (level + 1) ++
        textItems indent (level + 1) items ++ gap indent level ++ [']'])
  | level, obj fields =>
      if fields.isEmpty then ['\x7b', '\x7d']
      else '\x7b' :: (gap indent (level + 1) ++
        textFields indent (level + 1) fields ++ gap indent level ++ ['\x7d'])

def textItems (indent : Option ℕ) : ℕ → List (Json F) → List Char
  | _, [] => []
  | level, [item] => text indent level item
  | level, item :: items =>
      text indent level item ++ itemSeparator indent level ++
        textItems indent level items

def textFields (indent : Option ℕ) :
    ℕ → List (String × Json F) → List Char
  | _, [] => []
  | level, [(key, value)] =>
      stringText key ++ [':', ' '] ++ text indent level value
  | level, (key, value) :: fields =>
      stringText key ++ [':', ' '] ++ text indent level value ++
        itemSeparator indent level ++ textFields indent level fields

end

mutual

/-- No integer has too many digits for `str`. -/
def short : Json F → Bool
  | int z => (Nat.toDigits 10 z.natAbs).length ≤ maxStrDigits
  | arr items => shortItems items
  | obj fields => shortFields fields
  | null | bool _ | float _ | str _ => true

def shortItems : List (Json F) → Bool
  | [] => true
  | item :: items => short item && shortItems items

def shortFields : List (String × Json F) → Bool
  | [] => true
  | (_, value) :: fields => short value && shortFields fields

end

/-- `json.dumps(value, ensure_ascii=False, indent=indent)`; `none` is the
`ValueError` of an integer with too many digits. -/
def dumps? (indent : Option ℕ) (value : Json F) : Option String :=
  if value.short then some (.ofList (text indent 0 value)) else none

/-! ## Reading -/

def isWhitespace (c : Char) : Bool :=
  c == ' ' || c == '\t' || c == '\n' || c == '\r'

def skipWhitespace (cs : List Char) : List Char :=
  cs.dropWhile isWhitespace

def hex4? : List Char → Option (ℕ × List Char)
  | a :: b :: c :: d :: rest => do
      let a ← asciiHexValue? a
      let b ← asciiHexValue? b
      let c ← asciiHexValue? c
      let d ← asciiHexValue? d
      return (((a * 16 + b) * 16 + c) * 16 + d, rest)
  | _ => none

/-- What `\u` stands for.  A lone surrogate, which is not a character here, is
refused. -/
def unicodeEscape? (cs : List Char) : Option (Char × List Char) :=
  (hex4? cs).bind fun first =>
    if 0xd800 ≤ first.1 ∧ first.1 ≤ 0xdbff then
      match first.2 with
      | '\\' :: 'u' :: more =>
          (hex4? more).bind fun second =>
            if 0xdc00 ≤ second.1 ∧ second.1 ≤ 0xdfff then
              some (Char.ofNat (0x10000 + (first.1 - 0xd800) * 0x400 +
                (second.1 - 0xdc00)), second.2)
            else none
      | _ => none
    else if 0xdc00 ≤ first.1 ∧ first.1 ≤ 0xdfff then none
    else some (Char.ofNat first.1, first.2)

/-- `BACKSLASH`. -/
def plainEscape? (c : Char) : Option Char :=
  if c = doubleQuote ∨ c = '\\' ∨ c = '/' then some c
  else if c = 'b' then some (Char.ofNat 8)
  else if c = 'f' then some (Char.ofNat 12)
  else if c = 'n' then some '\n'
  else if c = 'r' then some '\r'
  else if c = 't' then some '\t'
  else none

def unescape? : List Char → Option (Char × List Char)
  | [] => none
  | c :: cs =>
      if c = 'u' then unicodeEscape? cs
      else (plainEscape? c).map fun d => (d, cs)

/-- `scanstring`, behind the opening quote. -/
def scanString : ℕ → List Char → Option (List Char × List Char)
  | 0, _ => none
  | _ + 1, [] => none
  | n + 1, c :: cs =>
      if c = doubleQuote then some ([], cs)
      else if c = '\\' then
        (unescape? cs).bind fun first =>
          (scanString n first.2).map fun more => (first.1 :: more.1, more.2)
      else if c.toNat < 0x20 then none
      else (scanString n cs).map fun more => (c :: more.1, more.2)

def integerPart? : List Char → Option (List Char × List Char)
  | [] => none
  | c :: cs =>
      if c = '0' then some (['0'], cs)
      else if c.isDigit then
        some (c :: cs.takeWhile Char.isDigit, cs.dropWhile Char.isDigit)
      else none

def fractionPart (cs : List Char) : List Char × List Char :=
  let digits := cs.tail.takeWhile Char.isDigit
  if cs.head? = some '.' ∧ digits ≠ [] then
    ('.' :: digits, cs.tail.dropWhile Char.isDigit)
  else ([], cs)

def exponentSign : List Char → List Char × List Char
  | '+' :: rest => (['+'], rest)
  | '-' :: rest => (['-'], rest)
  | rest => ([], rest)

def exponentPart (cs : List Char) : List Char × List Char :=
  match cs with
  | [] => ([], [])
  | e :: rest =>
      let sign := exponentSign rest
      if (e = 'e' ∨ e = 'E') ∧ sign.2.takeWhile Char.isDigit ≠ [] then
        (e :: (sign.1 ++ sign.2.takeWhile Char.isDigit),
          sign.2.dropWhile Char.isDigit)
      else ([], cs)

/-- `_match_number`. -/
def scanNumber (cs : List Char) : Option (Json F × List Char) :=
  let sign := signText (cs.head? = some '-')
  (integerPart? (cs.drop sign.length)).bind fun whole =>
    let fraction := fractionPart whole.2
    let exponent := exponentPart fraction.2
    let literal := String.ofList
      (sign ++ (whole.1 ++ (fraction.1 ++ exponent.1)))
    if fraction.1 = [] ∧ exponent.1 = [] then
      (int? literal).map fun z => (int z, exponent.2)
    else (PyFloat.ofString? literal).map fun x => (float x, exponent.2)

/-- The words that stand for a value. -/
def constants (F : Type) [PyFloat F] : List (List Char × Option (Json F)) :=
  [(['n', 'u', 'l', 'l'], some null), (['t', 'r', 'u', 'e'], some (bool true)),
    (['f', 'a', 'l', 's', 'e'], some (bool false)),
    (['N', 'a', 'N'], (PyFloat.ofString? "nan").map float),
    (infinityText, (PyFloat.ofString? "inf").map float),
    ('-' :: infinityText, (PyFloat.ofString? "-inf").map float)]

def scanPlain (cs : List Char) : Option (Json F × List Char) :=
  match (constants F).find? fun constant => constant.1.isPrefixOf cs with
  | some constant =>
      constant.2.map fun value => (value, cs.drop constant.1.length)
  | none => scanNumber cs

/-- The key of an entry with its colon. -/
def scanKey : List Char → Option (String × List Char)
  | [] => none
  | c :: cs =>
      if c = doubleQuote then
        (scanString (cs.length + 1) cs).bind fun key =>
          let rest := skipWhitespace key.2
          if rest.head? = some ':' then
            some (.ofList key.1, skipWhitespace rest.tail)
          else none
      else none

mutual

/-- `scan_once`; `none` is where it raises. -/
def scanOnce : ℕ → List Char → Option (Json F × List Char)
  | 0, _ => none
  | _ + 1, [] => none
  | n + 1, c :: cs =>
      if c = doubleQuote then
        (scanString (cs.length + 1) cs).map fun s =>
          (str (.ofList s.1), s.2)
      else if c = '[' then
        let rest := skipWhitespace cs
        if rest.head? = some ']' then some (arr [], rest.tail)
        else (scanItems n rest).map fun items => (arr items.1, items.2)
      else if c = '\x7b' then
        let rest := skipWhitespace cs
        if rest.head? = some '\x7d' then some (obj [], rest.tail)
        else (scanFields n rest).map fun fields =>
            (obj (PyDict.update [] fields.1), fields.2)
      else scanPlain (c :: cs)

def scanItems : ℕ → List Char → Option (List (Json F) × List Char)
  | 0, _ => none
  | n + 1, cs =>
      (scanOnce n cs).bind fun first =>
        let rest := skipWhitespace first.2
        if rest.head? = some ',' then
          (scanItems n (skipWhitespace rest.tail)).map fun more =>
            (first.1 :: more.1, more.2)
        else if rest.head? = some ']' then some ([first.1], rest.tail)
        else none

def scanFields : ℕ → List Char →
    Option (List (String × Json F) × List Char)
  | 0, _ => none
  | n + 1, cs =>
      (scanKey cs).bind fun key =>
        (scanOnce n key.2).bind fun value =>
          let rest := skipWhitespace value.2
          if rest.head? = some ',' then
            (scanFields n (skipWhitespace rest.tail)).map fun more =>
              ((key.1, value.1) :: more.1, more.2)
          else if rest.head? = some '\x7d' then
            some ([(key.1, value.1)], rest.tail)
          else none

end

/-- `json.loads(s)`; `none` is the `ValueError`. -/
def loads? (s : String) : Option (Json F) :=
  if s.toList.head? = some '\ufeff' then none
  else
    (scanOnce (s.toList.length + 1) (skipWhitespace s.toList)).bind
      fun value => if skipWhitespace value.2 = [] then some value.1 else none

end Json
end Py
