import BabilCors.PyText

/-!
# Addresses and networks of the ipaddress module

Parsing and membership as the standard library documents them, for strings.
An address is a bit vector of its family's width, so every value is in range.
The last section says which characters the text of an address can have.
-/

namespace IpAddress

open Py

inductive IpAddr where
  | v4 (ip : BitVec 32)
  | v6 (ip : BitVec 128)
  deriving DecidableEq, Repr

inductive IpNetwork where
  | v4 (address netmask : BitVec 32)
  | v6 (address netmask : BitVec 128)
  deriving DecidableEq, Repr

/-- `ip in network`: always false across families. -/
def IpNetwork.contains : IpNetwork → IpAddr → Bool
  | .v4 address netmask, .v4 ip => ip &&& netmask == address
  | .v6 address netmask, .v6 ip => ip &&& netmask == address
  | _, _ => false

def isAsciiDigit (c : Char) : Bool :=
  '0' ≤ c && c ≤ '9'

def isHexDigit (c : Char) : Bool :=
  isAsciiDigit c || ('a' ≤ c && c ≤ 'f') || ('A' ≤ c && c ≤ 'F')

def ofDigits (base : ℕ) (cs : List Char) : ℕ :=
  cs.foldl (fun acc c => acc * base + (hexValue? c).getD 0) 0

/-- `_parse_octet`: one to three digits, no leading zero, at most 255. -/
def octet? (cs : List Char) : Option ℕ :=
  if cs ≠ [] ∧ cs.all isAsciiDigit ∧ cs.length ≤ 3 ∧
      (cs = ['0'] ∨ cs.head? ≠ some '0') ∧ ofDigits 10 cs ≤ 255 then
    some (ofDigits 10 cs)
  else
    none

/-- `_parse_hextet`: one to four hexadecimal digits. -/
def hextet? (cs : List Char) : Option ℕ :=
  if cs ≠ [] ∧ cs.all isHexDigit ∧ cs.length ≤ 4 then
    some (ofDigits 16 cs)
  else
    none

def ipv4? (cs : List Char) : Option (BitVec 32) :=
  match cs.splitOn '.' with
  | [a, b, c, d] =>
      (octet? a).bind fun a =>
        (octet? b).bind fun b =>
          (octet? c).bind fun c =>
            (octet? d).map fun d =>
              .ofNat 32 (((a * 256 + b) * 256 + c) * 256 + d)
  | _ => none

def hextets? (parts : List (List Char)) : Option (List ℕ) :=
  parts.mapM hextet?

def ofHextets (hextets : List ℕ) : ℕ :=
  hextets.foldl (fun acc h => acc * 65536 + h) 0

/-- An IPv4-style last part becomes two hextets. -/
def expandLast? (parts : List (List Char)) : Option (List (List Char)) :=
  match parts.getLast? with
  | some last =>
      if '.' ∈ last then
        (ipv4? last).map fun ip =>
          parts.dropLast ++
            [Nat.toDigits 16 (ip.toNat / 65536),
              Nat.toDigits 16 (ip.toNat % 65536)]
      else
        some parts
  | none => some parts

/-- The indices of the empty parts that are neither first nor last. -/
def innerEmpty (parts : List (List Char)) : List ℕ :=
  (List.range parts.length).filter fun i =>
    0 < i && i + 1 < parts.length && parts.getD i [] == []

/-- The parts on the two sides of the `::`, and how many hextets it stands
for. -/
def hextetParts? (parts : List (List Char)) :
    Option (List (List Char) × ℕ × List (List Char)) :=
  match innerEmpty parts with
  | [] =>
      if parts.length = 8 ∧ parts.head? ≠ some [] ∧
          parts.getLast? ≠ some [] then
        some (parts, 0, [])
      else
        none
  | [skip] =>
      let hi := parts.take skip
      let lo := parts.drop (skip + 1)
      -- an empty first or last part is allowed only next to the `::`
      let hi? := if hi.head? = some [] then
        (if hi.length = 1 then some [] else none) else some hi
      let lo? := if lo.getLast? = some [] then
        (if lo.length = 1 then some [] else none) else some lo
      hi?.bind fun hi =>
        lo?.bind fun lo =>
          if hi.length + lo.length < 8 then
            some (hi, 8 - (hi.length + lo.length), lo)
          else
            none
  | _ => none

/-- `_ip_int_from_string` of IPv6. -/
def ipv6Int? (cs : List Char) : Option ℕ :=
  let parts := cs.splitOn ':'
  if parts.length < 3 then none
  else
    (expandLast? parts).bind fun parts =>
      if 9 < parts.length then none
      else
        (hextetParts? parts).bind fun (hi, skipped, lo) =>
          (hextets? hi).bind fun hi =>
            (hextets? lo).map fun lo =>
              ofHextets (hi ++ List.replicate skipped 0 ++ lo)

/-- `_split_scope_id`: the address in front of an optional scope. -/
def splitScope? (cs : List Char) : Option (List Char) :=
  match cs.splitOn '%' with
  | [address] => some address
  | [address, scope] => if scope = [] then none else some address
  | _ => none

def ipv6? (cs : List Char) : Option (BitVec 128) :=
  (splitScope? cs).bind fun cs => (ipv6Int? cs).map (.ofNat 128)

/-- `ipaddress.ip_address(s)`; `none` is the `ValueError`. -/
def ipAddress? (s : String) : Option IpAddr :=
  let cs := s.toList
  if '/' ∈ cs then none
  else ((ipv4? cs).map .v4).orElse fun _ => (ipv6? cs).map .v6

def netmask (width prefixlen : ℕ) : BitVec width :=
  ~~~ (BitVec.allOnes width >>> prefixlen)

def prefixString? (width : ℕ) (cs : List Char) : Option ℕ :=
  if cs ≠ [] ∧ cs.all isAsciiDigit ∧ ofDigits 10 cs ≤ width then
    some (ofDigits 10 cs)
  else
    none

/-- `_prefix_from_ip_string`: a dotted netmask, else a hostmask. -/
def prefixOfMask? (cs : List Char) : Option ℕ :=
  (ipv4? cs).bind fun ip =>
    ((List.range 33).find? fun p => netmask 32 p == ip).orElse fun _ =>
      (List.range 33).find? fun p => netmask 32 p == ~~~ ip

/-- `ipaddress.ip_network(s, strict=False)`; `none` is the `ValueError`. -/
def ipNetwork? (s : String) : Option IpNetwork :=
  let parsed? : Option (List Char × Option (List Char)) :=
    match s.toList.splitOn '/' with
    | [address] => some (address, none)
    | [address, mask] => some (address, some mask)
    | _ => none
  parsed?.bind fun (address, mask?) =>
    let v4? := (ipv4? address).bind fun ip =>
      (match mask? with
        | none => some 32
        | some mask =>
            (prefixString? 32 mask).orElse fun _ => prefixOfMask? mask).map
        fun p => IpNetwork.v4 (ip &&& netmask 32 p) (netmask 32 p)
    let v6? := (ipv6? address).bind fun ip =>
      (match mask? with
        | none => some 128
        | some mask => prefixString? 128 mask).map
        fun p => IpNetwork.v6 (ip &&& netmask 128 p) (netmask 128 p)
    v4?.orElse fun _ => v6?

/-! ## The text of an address -/

theorem exists_mem_splitOn {α : Type*} [DecidableEq α] {sep x : α}
    {l : List α} (hx : x ∈ l) (hne : x ≠ sep) :
    ∃ part ∈ l.splitOn sep, x ∈ part := by
  induction l with
  | nil => simp at hx
  | cons a l ih =>
      rw [List.splitOn_cons_eq_if_modifyHead]
      cases hsplit : l.splitOn sep with
      | nil => exact (List.splitOn_ne_nil _ _ hsplit).elim
      | cons part parts =>
          rw [hsplit] at ih
          rcases List.mem_cons.mp hx with rfl | htail
          · exact ⟨x :: part, by simp [hne], List.mem_cons_self⟩
          · obtain ⟨found, hfound, hmem⟩ := ih htail
            by_cases ha : a = sep
            · refine ⟨found, ?_, hmem⟩
              simpa [ha] using Or.inr (List.mem_cons.mp hfound)
            · rcases List.mem_cons.mp hfound with rfl | hrest
              · exact ⟨a :: found, by simp [ha],
                  List.mem_cons_of_mem a hmem⟩
              · exact ⟨found, by simp [ha, hrest], hmem⟩

theorem head?_splitOn {α : Type*} [DecidableEq α] (sep : α) (l : List α) :
    (l.splitOn sep).head? = some (l.takeWhile (· != sep)) := by
  induction l with
  | nil => rfl
  | cons a l ih =>
      rw [List.splitOn_cons_eq_if_modifyHead]
      by_cases ha : a = sep
      · simp [ha]
      · cases hsplit : l.splitOn sep with
        | nil => exact (List.splitOn_ne_nil _ _ hsplit).elim
        | cons part parts =>
            rw [hsplit] at ih
            simpa [ha] using ih

theorem takeWhile_ne_append_cons {α : Type*} [DecidableEq α] (sep : α)
    (l r : List α) :
    (l ++ sep :: r).takeWhile (· != sep) = l.takeWhile (· != sep) := by
  induction l with
  | nil => simp
  | cons a l ih =>
      by_cases ha : a = sep
      · simp [ha]
      · simpa [ha] using ih

theorem octet?_all_digits {cs : List Char} {n : ℕ}
    (hoctet : octet? cs = some n) : ∀ c ∈ cs, isAsciiDigit c = true := by
  unfold octet? at hoctet
  split_ifs at hoctet with hvalid
  exact List.all_eq_true.mp hvalid.2.1

theorem hextet?_all_hex {cs : List Char} {n : ℕ}
    (hhextet : hextet? cs = some n) : ∀ c ∈ cs, isHexDigit c = true := by
  unfold hextet? at hhextet
  split_ifs at hhextet with hvalid
  exact List.all_eq_true.mp hvalid.2.1

theorem ipv4?_splitOn {cs : List Char} {ip : BitVec 32}
    (hip : ipv4? cs = some ip) :
    (cs.splitOn '.').length = 4 ∧
      ∀ part ∈ cs.splitOn '.', ∀ c ∈ part, isAsciiDigit c = true := by
  unfold ipv4? at hip
  split at hip
  next a b c d hsplit =>
    simp only [Option.bind_eq_some_iff, Option.map_eq_some_iff] at hip
    obtain ⟨_, ha, _, hb, _, hc, _, hd, _⟩ := hip
    rw [hsplit]
    refine ⟨rfl, ?_⟩
    intro part hpart
    simp only [List.mem_cons, List.not_mem_nil, or_false] at hpart
    rcases hpart with rfl | rfl | rfl | rfl
    · exact octet?_all_digits ha
    · exact octet?_all_digits hb
    · exact octet?_all_digits hc
    · exact octet?_all_digits hd
  next => cases hip

theorem colon_not_mem_of_ipv4? {cs : List Char} {ip : BitVec 32}
    (hip : ipv4? cs = some ip) : ':' ∉ cs := by
  intro hcolon
  obtain ⟨part, hpart, hmem⟩ := exists_mem_splitOn hcolon
    (by decide : ':' ≠ '.')
  have hdigit := (ipv4?_splitOn hip).2 part hpart ':' hmem
  exact absurd hdigit (by decide)

theorem ipv4?_eq_none_of_no_dot {cs : List Char} (hdot : '.' ∉ cs) :
    ipv4? cs = none := by
  unfold ipv4?
  rw [List.splitOn_eq_singleton hdot]

theorem length_splitOn_of_ipv6Int? {cs : List Char} {n : ℕ}
    (hint : ipv6Int? cs = some n) : 3 ≤ (cs.splitOn ':').length := by
  unfold ipv6Int? at hint
  dsimp only at hint
  split_ifs at hint with hshort
  omega

theorem ipv6Int?_eq_none_of_no_colon {cs : List Char} (hcolon : ':' ∉ cs) :
    ipv6Int? cs = none := by
  unfold ipv6Int?
  rw [List.splitOn_eq_singleton hcolon]
  rfl

theorem splitScope?_eq {cs address : List Char}
    (hscope : splitScope? cs = some address) :
    address = cs.takeWhile (· != '%') := by
  have hhead := head?_splitOn '%' cs
  unfold splitScope? at hscope
  split at hscope
  next found hsplit =>
    rw [hsplit] at hhead
    cases hscope
    exact Option.some.inj hhead
  next found scope hsplit =>
    rw [hsplit] at hhead
    split_ifs at hscope
    cases hscope
    exact Option.some.inj hhead
  next => cases hscope

theorem ipv6?_eq_none_of_no_colon {cs : List Char} (hcolon : ':' ∉ cs) :
    ipv6? cs = none := by
  unfold ipv6?
  cases hscope : splitScope? cs with
  | none => rfl
  | some address =>
      have haddress : ':' ∉ address := by
        rw [splitScope?_eq hscope]
        exact fun hmem => hcolon ((List.takeWhile_subset _) hmem)
      simp [ipv6Int?_eq_none_of_no_colon haddress]

theorem head?_expandLast? {parts expanded : List (List Char)}
    (hlength : 2 ≤ parts.length)
    (hexpand : expandLast? parts = some expanded) :
    expanded.head? = parts.head? := by
  unfold expandLast? at hexpand
  match parts, hlength with
  | first :: second :: rest, _ =>
      split at hexpand
      next last hlast =>
        split_ifs at hexpand with hdot
        · obtain ⟨ip, _, rfl⟩ := Option.map_eq_some_iff.mp hexpand
          simp [List.dropLast]
        · cases hexpand
          rfl
      next hlast => simp at hlast

theorem mem_innerEmpty {parts : List (List Char)} {i : ℕ}
    (hi : i ∈ innerEmpty parts) : 0 < i ∧ i < parts.length := by
  unfold innerEmpty at hi
  simp only [List.mem_filter, List.mem_range, Bool.and_eq_true,
    decide_eq_true_eq] at hi
  exact ⟨hi.2.1.1, hi.1⟩

theorem head_hex_of_hextetParts? {parts hi lo : List (List Char)}
    {skipped : ℕ} {first : List Char}
    (hparts : hextetParts? parts = some (hi, skipped, lo))
    (hfirst : parts.head? = some first) : first = [] ∨ first ∈ hi := by
  unfold hextetParts? at hparts
  split at hparts
  next =>
    split_ifs at hparts
    cases hparts
    exact .inr (List.mem_of_head? hfirst)
  next skip hskip =>
    have hpos : 0 < skip ∧ skip < parts.length :=
      mem_innerEmpty (by rw [hskip]; exact List.mem_singleton_self skip)
    have htake : (parts.take skip).head? = some first := by
      rw [List.head?_take, if_neg (by omega)]
      exact hfirst
    by_cases hempty : first = []
    · exact .inl hempty
    · refine .inr ?_
      have hne : ¬ (parts.take skip).head? = some [] := by
        rw [htake]
        exact fun h => hempty (Option.some.inj h)
      simp only [if_neg hne, Option.bind_some] at hparts
      obtain ⟨lo', _, hlo⟩ := Option.bind_eq_some_iff.mp hparts
      split_ifs at hlo
      cases hlo
      exact List.mem_of_head? htake
  next => cases hparts

theorem hextets?_mem {parts : List (List Char)} {values : List ℕ}
    (hparts : hextets? parts = some values) :
    ∀ part ∈ parts, ∃ n, hextet? part = some n := by
  unfold hextets? at hparts
  induction parts generalizing values with
  | nil => simp
  | cons part parts ih =>
      rw [List.mapM_cons] at hparts
      simp only [Option.bind_eq_bind, Option.bind_eq_some_iff] at hparts
      obtain ⟨n, hn, rest, hrest, _⟩ := hparts
      intro other hother
      rcases List.mem_cons.mp hother with rfl | htail
      · exact ⟨n, hn⟩
      · exact ih hrest other htail

/-- What stands before the first colon of an IPv6 text has no dot. -/
theorem dot_not_mem_before_colon {cs : List Char} {n : ℕ}
    (hint : ipv6Int? cs = some n) : '.' ∉ cs.takeWhile (· != ':') := by
  have hlength := length_splitOn_of_ipv6Int? hint
  have hhead := head?_splitOn ':' cs
  unfold ipv6Int? at hint
  dsimp only at hint
  rw [if_neg (by omega)] at hint
  obtain ⟨parts, hexpand, hint⟩ := Option.bind_eq_some_iff.mp hint
  split_ifs at hint
  obtain ⟨⟨hi, skipped, lo⟩, hparts, hint⟩ := Option.bind_eq_some_iff.mp hint
  obtain ⟨values, hvalues, _⟩ := Option.bind_eq_some_iff.mp hint
  rw [← head?_expandLast? (by omega) hexpand] at hhead
  rcases head_hex_of_hextetParts? hparts hhead with hempty | hmem
  · rw [hempty]
    exact List.not_mem_nil
  · obtain ⟨value, hvalue⟩ := hextets?_mem hvalues _ hmem
    intro hdot
    exact absurd (hextet?_all_hex hvalue '.' hdot) (by decide)

theorem ipAddress?_cases {s : String} {ip : IpAddr}
    (hip : ipAddress? s = some ip) :
    (∃ a, ip = .v4 a ∧ ipv4? s.toList = some a) ∨
      (∃ a, ip = .v6 a ∧ ipv6? s.toList = some a) := by
  unfold ipAddress? at hip
  dsimp only at hip
  split_ifs at hip with hslash
  cases hv4 : ipv4? s.toList with
  | some a =>
      rw [hv4] at hip
      exact .inl ⟨a, (Option.some.inj hip).symm, rfl⟩
  | none =>
      rw [hv4] at hip
      obtain ⟨a, ha, rfl⟩ := Option.map_eq_some_iff.mp hip
      exact .inr ⟨a, rfl, ha⟩

end IpAddress
