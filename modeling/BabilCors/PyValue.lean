import BabilCors.PyText
import BabilCors.PyDict

/-!
# Dynamic values of the source language

Floats, the values a JSON document loads to, and the conversions `str`, `int`,
`float`, `bool` and `list` on them with the exceptions they raise.  Float
arithmetic stays a parameter: a theorem about the model holds for every
implementation of it.
-/

namespace Py

/-! ## Exceptions -/

inductive PyErr where
  | attributeError (typeName attr : String)
  | typeError (text : String)
  | valueError (text : String)
  | overflowError (text : String)
  | keyError (text : String)
  | permissionError (text : String)
  | configError (errors : List String)
  deriving DecidableEq, Repr

/-- `str(e)`. -/
def PyErr.message : PyErr → String
  | attributeError typeName attr =>
      "'" ++ typeName ++ "' object has no attribute '" ++ attr ++ "'"
  | typeError text | valueError text | overflowError text
  | keyError text | permissionError text => text
  | configError errors => "; ".intercalate errors

theorem bind_eq_ok {α β : Type} {x : Except PyErr α} {f : α → Except PyErr β}
    {b : β} : x >>= f = .ok b ↔ ∃ a, x = .ok a ∧ f a = .ok b := by
  cases x with
  | error e => simp [bind, Except.bind]
  | ok a => simp [bind, Except.bind]

theorem map_eq_ok {α β : Type} {x : Except PyErr α} {f : α → β} {b : β} :
    x.map f = .ok b ↔ ∃ a, x = .ok a ∧ f a = b := by
  cases x with
  | error e => simp [Except.map]
  | ok a => simp [Except.map]

theorem toOption_eq_some {α : Type} {x : Except PyErr α} {a : α} :
    x.toOption = some a ↔ x = .ok a := by
  cases x with
  | error e => simp [Except.toOption]
  | ok a => simp [Except.toOption]

theorem bind_ite_none {α β : Type*} {c : Prop} [Decidable c] (a : α)
    (f : α → Option β) :
    (if c then some a else none).bind f = if c then f a else none := by
  split_ifs <;> rfl

theorem map_ite_none {α β : Type*} {c : Prop} [Decidable c] (a : α)
    (f : α → β) :
    (if c then some a else none).map f =
      if c then some (f a) else none := by
  split_ifs <;> rfl

/-! ## Floats -/

class PyFloat (F : Type) where
  /-- `float(s)`; `none` is the `ValueError`. -/
  ofString? : String → Option F
  /-- The float nearest to an integer in range. -/
  ofInt : ℤ → F
  /-- The float nearest to a quotient in range. -/
  quot : ℤ → ℤ → F
  /-- `int(x)`; `none` for an infinity or a NaN. -/
  trunc? : F → Option ℤ
  isNaN : F → Bool
  repr : F → String
  add : F → F → F
  sub : F → F → F
  mul : F → F → F
  /-- `x / y` for a divisor other than zero. -/
  div : F → F → F
  /-- `x // y` for a divisor other than zero. -/
  floorDiv : F → F → F
  neg : F → F
  abs : F → F
  lt : F → F → Bool
  beq : F → F → Bool
  /-- `round(x, 1)`. -/
  round1 : F → F
  /-- `str.isprintable` of a non-ASCII character, on which the `repr` of a
  string depends. -/
  printable : Char → Bool

/-- From here on an integer is too large for a float. -/
def floatBound : ℕ := 2 ^ 1024 - 2 ^ 970

theorem floatBound_pos : 0 < floatBound := by
  decide +kernel

section Floats

variable {F : Type} [PyFloat F]

def floatOfInt (n : ℤ) : Except PyErr F :=
  if floatBound ≤ n.natAbs then
    .error (.overflowError "int too large to convert to float")
  else
    .ok (PyFloat.ofInt n)

/-- `a / b` of two integers. -/
def trueDiv (a b : ℤ) : Except PyErr F :=
  if b = 0 then .error (.valueError "division by zero")
  else if floatBound * b.natAbs ≤ a.natAbs then
    .error (.overflowError "integer division result too large for a float")
  else
    .ok (PyFloat.quot a b)

def floatZero : F := PyFloat.ofInt 0

def floatIsZero (x : F) : Bool := PyFloat.beq x (PyFloat.ofInt 0)

def floatDiv (x y : F) : Except PyErr F :=
  if floatIsZero y then .error (.valueError "float division by zero")
  else .ok (PyFloat.div x y)

def floatMax (x y : F) : F := if PyFloat.lt x y then y else x

def floatMin (x y : F) : F := if PyFloat.lt y x then y else x

def intOfFloat (x : F) : Except PyErr ℤ :=
  match PyFloat.trunc? x with
  | some n => .ok n
  | none =>
      if PyFloat.isNaN x then
        .error (.valueError "cannot convert float NaN to integer")
      else
        .error (.overflowError "cannot convert float infinity to integer")

end Floats

/-! ## Values of a JSON document -/

inductive Json (F : Type) where
  | null
  | bool (b : Bool)
  | int (n : ℤ)
  | float (x : F)
  | str (s : String)
  | arr (items : List (Json F))
  | obj (fields : List (String × Json F))

namespace Json

variable {F : Type}

def typeName : Json F → String
  | null => "NoneType"
  | bool _ => "bool"
  | int _ => "int"
  | float _ => "float"
  | str _ => "str"
  | arr _ => "list"
  | obj _ => "dict"

def isObj : Json F → Bool
  | obj _ => true
  | _ => false

def eqStr (s : String) : Json F → Bool
  | str t => t == s
  | _ => false

/-- `j.get(key)`, `none` standing for an absent key. -/
def get (j : Json F) (key : String) : Except PyErr (Option (Json F)) :=
  match j with
  | obj fields => .ok (PyDict.get? fields key)
  | j => .error (.attributeError j.typeName "get")

/-- `j.get(key, default)`. -/
def getD (j : Json F) (key : String) (default : Json F) :
    Except PyErr (Json F) :=
  (j.get key).map fun value? => value?.getD default

def items (j : Json F) : Except PyErr (PyDict String (Json F)) :=
  match j with
  | obj fields => .ok fields
  | j => .error (.attributeError j.typeName "items")

/-- `list(j)`, and what a `for` loop over `j` yields. -/
def iter : Json F → Except PyErr (List (Json F))
  | arr items => .ok items
  | str s => .ok (s.toList.map fun c => str (.singleton c))
  | obj fields => .ok (fields.map fun field => str field.1)
  | j => .error (.typeError ("'" ++ j.typeName ++ "' object is not iterable"))

/-- `a, b = j`. -/
def unpack2 (j : Json F) : Except PyErr (Json F × Json F) :=
  match j.iter with
  | .ok [a, b] => .ok (a, b)
  | .ok items =>
      .error (.valueError (if items.length < 2 then
        "not enough values to unpack (expected 2, got " ++
          toString items.length ++ ")"
      else "too many values to unpack (expected 2)"))
  | .error _ =>
      .error (.typeError
        ("cannot unpack non-iterable " ++ j.typeName ++ " object"))

def contains (j : Json F) (key : String) : Except PyErr Bool :=
  match j with
  | obj fields => .ok (PyDict.has fields key)
  | arr items => .ok (items.any (eqStr key))
  | str s => .ok (Py.contains s key)
  | j => .error (.typeError
      ("argument of type '" ++ j.typeName ++ "' is not iterable"))

/-- `set(j)`: the elements, which have to be hashable. -/
def toSet (j : Json F) : Except PyErr (List (Json F)) := do
  (← j.iter).mapM fun item =>
    match item with
    | arr _ | obj _ =>
        .error (.typeError ("unhashable type: '" ++ item.typeName ++ "'"))
    | item => .ok item

/-- `dict(j)`, as far as its keys are texts. -/
def toDict (j : Json F) : Except PyErr (PyDict String (Json F)) :=
  match j with
  | obj fields => .ok fields
  | j => do
      (← j.iter).foldlM
        (fun d item => do
          let (key, value) ← item.unpack2
          match key with
          | str key => return PyDict.set d key value
          | arr _ | obj _ =>
              throw (.typeError ("unhashable type: '" ++ key.typeName ++ "'"))
          | _ => return d)
        []

/-! ### Assignments -/

def setItem (j : Json F) (key : String) (value : Json F) :
    Except PyErr (Json F) :=
  match j with
  | obj fields => .ok (obj (PyDict.set fields key value))
  | arr _ =>
      .error (.typeError "list indices must be integers or slices, not str")
  | j => .error (.typeError
      ("'" ++ j.typeName ++ "' object does not support item assignment"))

def delItem (j : Json F) (key : String) : Except PyErr (Json F) :=
  match j with
  | obj fields => .ok (obj (PyDict.erase fields key))
  | arr _ =>
      .error (.typeError "list indices must be integers or slices, not str")
  | j => .error (.typeError
      ("'" ++ j.typeName ++ "' object doesn't support item deletion"))

/-- What `f` makes of `j.setdefault(key, {})`, in its place in `j`. -/
def withDefault (j : Json F) (key : String)
    (f : Json F → Except PyErr (Json F)) : Except PyErr (Json F) :=
  match j with
  | obj fields =>
      (f ((PyDict.get? fields key).getD (obj []))).map fun value =>
        obj (PyDict.set fields key value)
  | j => .error (.attributeError j.typeName "setdefault")

theorem withDefault_eq_ok {j j' : Json F} {key : String}
    {f : Json F → Except PyErr (Json F)}
    (hok : j.withDefault key f = .ok j') :
    ∃ fields value, j = obj fields ∧
      f ((PyDict.get? fields key).getD (obj [])) = .ok value ∧
      j' = obj (PyDict.set fields key value) := by
  cases j with
  | obj fields =>
      rcases map_eq_ok.mp hok with ⟨value, hvalue, rfl⟩
      exact ⟨fields, value, rfl, hvalue, rfl⟩
  | null | bool _ | int _ | float _ | str _ | arr _ => cases hok

variable [PyFloat F]

def truthy : Json F → Bool
  | null => false
  | bool b => b
  | int n => n != 0
  | float x => !floatIsZero x
  | str s => s != ""
  | arr items => !items.isEmpty
  | obj fields => !fields.isEmpty

/-- `j or other`. -/
def orElse (j other : Json F) : Json F :=
  if j.truthy then j else other

/-! ### `repr` and `str` -/

def singleQuote : Char := Char.ofNat 39

def doubleQuote : Char := Char.ofNat 34

/-- One character of the `repr` of a string in the given quotes. -/
def reprChar (F : Type) [PyFloat F] (quote c : Char) : List Char :=
  let hex (width n : ℕ) : List Char :=
    (List.range width).reverse.map fun i => hexDigit (n / 16 ^ i % 16)
  if c = quote ∨ c = '\\' then ['\\', c]
  else if c = '\n' then ['\\', 'n']
  else if c = '\r' then ['\\', 'r']
  else if c = '\t' then ['\\', 't']
  else if ' ' ≤ c ∧ c ≤ '~' then [c]
  else if 127 < c.toNat ∧ PyFloat.printable F c then [c]
  else if c.toNat < 256 then '\\' :: 'x' :: hex 2 c.toNat
  else if c.toNat < 65536 then '\\' :: 'u' :: hex 4 c.toNat
  else '\\' :: 'U' :: hex 8 c.toNat

def reprStr (F : Type) [PyFloat F] (s : String) : String :=
  let quote :=
    if singleQuote ∈ s.toList ∧ doubleQuote ∉ s.toList then doubleQuote
    else singleQuote
  .ofList (quote :: s.toList.flatMap (reprChar F quote) ++ [quote])

mutual

def repr : Json F → String
  | null => "None"
  | bool b => if b then "True" else "False"
  | int n => toString n
  | float x => PyFloat.repr x
  | str s => reprStr F s
  | arr items => "[" ++ ", ".intercalate (reprItems items) ++ "]"
  | obj fields => "\x7b" ++ ", ".intercalate (reprFields fields) ++ "\x7d"

def reprItems : List (Json F) → List String
  | [] => []
  | item :: items => repr item :: reprItems items

def reprFields : List (String × Json F) → List String
  | [] => []
  | (key, value) :: fields =>
      (reprStr F key ++ ": " ++ repr value) :: reprFields fields

end

def pyStr : Json F → String
  | str s => s
  | j => j.repr

@[simp] theorem pyStr_str (s : String) : pyStr (.str s : Json F) = s := rfl

def getItem (j : Json F) (key : String) : Except PyErr (Json F) :=
  match j with
  | obj fields =>
      match PyDict.get? fields key with
      | some value => .ok value
      | none => .error (.keyError (reprStr F key))
  | arr _ =>
      .error (.typeError "list indices must be integers or slices, not str")
  | str _ =>
      .error (.typeError "string indices must be integers, not 'str'")
  | j => .error (.typeError
      ("'" ++ j.typeName ++ "' object is not subscriptable"))

/-! ### Numbers -/

def pyInt : Json F → Except PyErr ℤ
  | bool b => .ok (if b then 1 else 0)
  | int n => .ok n
  | float x => intOfFloat x
  | str s =>
      match int? s with
      | some n => .ok n
      | none => .error (.valueError
          ("invalid literal for int() with base 10: " ++ reprStr F s))
  | j => .error (.typeError ("int() argument must be a string, a bytes-like " ++
      "object or a real number, not '" ++ j.typeName ++ "'"))

def pyFloat : Json F → Except PyErr F
  | bool b => .ok (PyFloat.ofInt (if b then 1 else 0))
  | int n => floatOfInt n
  | float x => .ok x
  | str s =>
      match PyFloat.ofString? s with
      | some x => .ok x
      | none => .error (.valueError
          ("could not convert string to float: " ++ reprStr F s))
  | j => .error (.typeError ("float() argument must be a string or a real " ++
      "number, not '" ++ j.typeName ++ "'"))

end Json

end Py
