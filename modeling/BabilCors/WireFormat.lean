import Mathlib.Tactic

/-!
# Tagged fields of bytes

Numbers are written seven bits a byte, the lowest first, with the high bit set
in every byte but the last.  A message is a list of fields; the tag of a field
is its number and whether a varint or a text of a written length follows.
-/

namespace WireFormat

/-! ## Varints -/

def varintLoop : ℕ → ℕ → List UInt8
  | 0, n => [UInt8.ofNat n]
  | fuel + 1, n =>
      if n < 128 then [UInt8.ofNat n]
      else UInt8.ofNat (n % 128 + 128) :: varintLoop fuel (n / 128)

/-- Every byte divides the number, so it is fuel enough. -/
def encodeVarint (n : ℕ) : List UInt8 :=
  varintLoop n n

def decodeVarint : List UInt8 → Option (ℕ × List UInt8)
  | [] => none
  | b :: data =>
      if b.toNat < 128 then some (b.toNat, data)
      else (decodeVarint data).map fun result =>
        (b.toNat - 128 + 128 * result.1, result.2)

theorem decodeVarint_last {n : ℕ} (hn : n < 128) (rest : List UInt8) :
    decodeVarint (UInt8.ofNat n :: rest) = some (n, rest) := by
  have htoNat : (UInt8.ofNat n).toNat = n := Nat.mod_eq_of_lt (by omega)
  rw [decodeVarint, htoNat, if_pos hn]

theorem decodeVarint_varintLoop {fuel n : ℕ} (hfuel : n ≤ fuel)
    (rest : List UInt8) :
    decodeVarint (varintLoop fuel n ++ rest) = some (n, rest) := by
  induction fuel generalizing n with
  | zero => exact decodeVarint_last (by omega) rest
  | succ fuel ih =>
      unfold varintLoop
      split_ifs with hlast
      · exact decodeVarint_last hlast rest
      · have htoNat : (UInt8.ofNat (n % 128 + 128)).toNat = n % 128 + 128 :=
          Nat.mod_eq_of_lt (by omega)
        rw [List.cons_append, decodeVarint, htoNat, if_neg (by omega),
          ih (by omega), Option.map_some]
        congr 2
        omega

theorem decodeVarint_encodeVarint (n : ℕ) (rest : List UInt8) :
    decodeVarint (encodeVarint n ++ rest) = some (n, rest) :=
  decodeVarint_varintLoop le_rfl rest

theorem encodeVarint_ne_nil (n : ℕ) : encodeVarint n ≠ [] := by
  unfold encodeVarint
  cases n with
  | zero => exact List.cons_ne_nil _ _
  | succ n =>
      unfold varintLoop
      split_ifs
      · exact List.cons_ne_nil _ _
      · exact List.cons_ne_nil _ _

/-! ## Fields -/

inductive Value where
  | varint (n : ℕ)
  | bytes (data : List UInt8)
  deriving DecidableEq, Repr

abbrev Field := ℕ × Value

def encodeField (field : Field) : List UInt8 :=
  match field.2 with
  | .varint n => encodeVarint (8 * field.1) ++ encodeVarint n
  | .bytes data =>
      encodeVarint (8 * field.1 + 2) ++ (encodeVarint data.length ++ data)

/-- The value behind a tag. -/
def decodeValue (tag : ℕ) (data : List UInt8) :
    Option (Field × List UInt8) :=
  (decodeVarint data).bind fun head =>
    if tag % 8 = 0 then some ((tag / 8, .varint head.1), head.2)
    else if tag % 8 = 2 ∧ head.1 ≤ head.2.length then
      some ((tag / 8, .bytes (head.2.take head.1)), head.2.drop head.1)
    else none

def decodeField (data : List UInt8) : Option (Field × List UInt8) :=
  (decodeVarint data).bind fun tag => decodeValue tag.1 tag.2

def decodeFields : ℕ → List UInt8 → Option (List Field)
  | _, [] => some []
  | 0, _ :: _ => none
  | fuel + 1, data =>
      (decodeField data).bind fun head =>
        (decodeFields fuel head.2).map fun fields => head.1 :: fields

/-- A field takes at least one byte, so the length is fuel enough. -/
def decode (data : List UInt8) : Option (List Field) :=
  decodeFields data.length data

def encode (fields : List Field) : List UInt8 :=
  fields.flatMap encodeField

theorem decodeField_encodeField (field : Field) (rest : List UInt8) :
    decodeField (encodeField field ++ rest) = some (field, rest) := by
  rcases field with ⟨number, n | data⟩
  · have htype : 8 * number % 8 = 0 := by omega
    have hnumber : 8 * number / 8 = number := by omega
    unfold decodeField encodeField decodeValue
    dsimp only
    rw [List.append_assoc, decodeVarint_encodeVarint, Option.bind_some]
    dsimp only
    rw [decodeVarint_encodeVarint, Option.bind_some, if_pos htype, hnumber]
  · have htype : (8 * number + 2) % 8 = 2 := by omega
    have hnumber : (8 * number + 2) / 8 = number := by omega
    unfold decodeField encodeField decodeValue
    dsimp only
    rw [List.append_assoc, decodeVarint_encodeVarint, Option.bind_some]
    dsimp only
    rw [List.append_assoc, decodeVarint_encodeVarint, Option.bind_some,
      if_neg (by omega), if_pos ⟨htype, by simp⟩, hnumber]
    dsimp only
    rw [List.take_left, List.drop_left]

theorem encodeField_ne_nil (field : Field) : encodeField field ≠ [] := by
  rcases field with ⟨number, n | data⟩
  · exact List.append_ne_nil_of_left_ne_nil (encodeVarint_ne_nil _) _
  · exact List.append_ne_nil_of_left_ne_nil (encodeVarint_ne_nil _) _

theorem decodeFields_encode {fields : List Field} {fuel : ℕ}
    (hfuel : fields.length ≤ fuel) :
    decodeFields fuel (encode fields) = some fields := by
  induction fields generalizing fuel with
  | nil =>
      unfold encode
      rw [List.flatMap_nil, decodeFields]
  | cons field fields ih =>
      rw [List.length_cons] at hfuel
      obtain ⟨b, data, hdata⟩ :=
        List.exists_cons_of_ne_nil (encodeField_ne_nil field)
      have hfield := decodeField_encodeField field (encode fields)
      unfold encode at hfield ⊢
      rw [List.flatMap_cons]
      cases fuel with
      | zero => omega
      | succ fuel =>
          rw [hdata, List.cons_append] at hfield ⊢
          rw [decodeFields, hfield, Option.bind_some]
          · dsimp only
            rw [← encode, ih (by omega)]
            rfl
          · exact List.cons_ne_nil _ _

theorem length_le_length_encode (fields : List Field) :
    fields.length ≤ (encode fields).length := by
  unfold encode
  induction fields with
  | nil => exact le_rfl
  | cons field fields ih =>
      have hpos := List.length_pos_of_ne_nil (encodeField_ne_nil field)
      rw [List.flatMap_cons, List.length_cons, List.length_append]
      omega

/-- Decoding gives the encoded fields back. -/
theorem decode_encode (fields : List Field) :
    decode (encode fields) = some fields :=
  decodeFields_encode (length_le_length_encode fields)

/-! ## The value of a field -/

def varint? (number : ℕ) (field : Field) : Option ℕ :=
  match field.2 with
  | .varint n => if field.1 = number then some n else none
  | .bytes _ => none

def bytes? (number : ℕ) (field : Field) : Option (List UInt8) :=
  match field.2 with
  | .varint _ => none
  | .bytes data => if field.1 = number then some data else none

/-- The last value of the field, or the default. -/
def varintOf (number : ℕ) (fields : List Field) : ℕ :=
  (fields.filterMap (varint? number)).getLast?.getD 0

def bytesOf (number : ℕ) (fields : List Field) : List UInt8 :=
  (fields.filterMap (bytes? number)).getLast?.getD []

end WireFormat
