import BabilCors.MetricsPage
import BabilCors.PasswordSafety
import BabilCors.SeparatedRecords
import BabilCors.TextEncodings
import BabilCors.ValidatedStart
import Mathlib.Data.String.Basic

/-!
# The sourcetable

`build_sourcetable` joins free text with semicolons and line breaks and encodes
it as ASCII, dropping what does not fit.  The lines read back exactly when the
names are ASCII and no text that is written has a separator of its own.
-/

namespace BabilCors

open Py SeparatedRecords

/-! ## `build_sourcetable` -/

/-- `format(x, ".6f")`. -/
class FixedFloat (F : Type) where
  fixed6 : F → FloatRepr

/-- `s.encode("ascii", errors="ignore")`. -/
def asciiIgnore (s : String) : List UInt8 :=
  (s.toList.filter fun c => c.toNat < 128).map fun c => UInt8.ofNat c.toNat

section Build

variable {F : Type} [PyFloat F]

/-- `str(m.get(key) or default)`. -/
def metaText (m : PyDict String (Json F)) (key : String)
    (default : Json F) : String :=
  (((m.get? key).getD .null).orElse default).pyStr

/-- `str(m.get(key) if m.get(key) is not None else default)`. -/
def metaNumber (m : PyDict String (Json F)) (key : String)
    (default : ℤ) : String :=
  match m.get? key with
  | none | some .null => (Json.int default : Json F).pyStr
  | some value => value.pyStr

/-- `float(m.get(key) or 0.0)`. -/
def metaCoordinate (m : PyDict String (Json F)) (key : String) :
    Except PyErr F :=
  (((m.get? key).getD .null).orElse (.float floatZero)).pyFloat

/-- The values of the entries that go into the last field, with their
labels. -/
def miscValues (m : PyDict String (Json F)) : List (String × String) :=
  [("ANT", "antenna"), ("RX", "receiver"), ("FW", "firmware"),
    ("DATUM", "datum")].filterMap fun item =>
      ((m.get? item.2).filter Json.truthy).map fun value =>
        (item.1, value.pyStr)

def misc (m : PyDict String (Json F)) : String :=
  " ".intercalate ((miscValues m).map fun item => item.1 ++ "=" ++ item.2)

variable [FixedFloat F]

def lineFields (info : SourcetableInfo F) (mp : String)
    (m : PyDict String (Json F)) (lat lon : F) : List String :=
  ["STR",
    mp,
    metaText m "identifier" (.str "RTCM32"),
    metaText m "format" (.str "RTCM 3.2"),
    metaText m "format_details" (.str ""),
    metaNumber m "carrier" 2,
    metaText m "nav_system" (.str "GPS+GLO+GAL+BDS+QZSS+SBAS"),
    metaText m "network"
      ((Json.str info.network).orElse (.str info.operator)),
    metaText m "country" (.str info.country),
    (FixedFloat.fixed6 lat).text,
    (FixedFloat.fixed6 lon).text,
    metaNumber m "nmea" 0,
    metaNumber m "solution" 0,
    metaText m "generator" (.str info.operator),
    metaText m "compression" (.str "none"),
    metaText m "authentication" (.str "B"),
    metaText m "fee" (.str "N"),
    metaNumber m "bitrate" 0,
    misc m]

/-- `meta_map.get(mp, {})`. -/
def metaEntry (metaMap : PyDict String (Json F)) (mp : String) : Json F :=
  (metaMap.get? mp).getD (.obj [])

def sourcetableLine (info : SourcetableInfo F)
    (metaMap : PyDict String (Json F)) (mp : String) :
    Except PyErr String :=
  match metaEntry metaMap mp with
  | .obj m => do
      let lat ← metaCoordinate m "latitude"
      let lon ← metaCoordinate m "longitude"
      return ";".intercalate (lineFields info mp m lat lon)
  | j => .error (.attributeError j.typeName "get")

/-- `meta or info.mountpoints_meta or {}`. -/
def metaMapOf (info : SourcetableInfo F)
    (given : Option (PyDict String (Json F))) : PyDict String (Json F) :=
  match given with
  | none | some [] => info.mountpointsMeta.getD []
  | some metaMap => metaMap

/-- `sorted(set(mountpoints))`. -/
def sortedNames (mountpoints : List String) : List String :=
  mountpoints.dedup.mergeSort (· ≤ ·)

def buildSourcetable (mountpoints : List String) (info : SourcetableInfo F)
    (given : Option (PyDict String (Json F))) :
    Except PyErr (List UInt8) := do
  let lines ← (sortedNames mountpoints).mapM
    (sourcetableLine info (metaMapOf info given))
  let body := "\r\n".intercalate (lines ++ ["ENDSOURCETABLE"]) ++ "\r\n"
  return asciiIgnore body

end Build

/-! ## Bytes of the texts -/

def asciiBytes (cs : List Char) : List UInt8 :=
  (cs.filter fun c => c.toNat < 128).map fun c => UInt8.ofNat c.toNat

theorem asciiIgnore_eq (s : String) : asciiIgnore s = asciiBytes s.toList :=
  rfl

theorem asciiBytes_append (cs ds : List Char) :
    asciiBytes (cs ++ ds) = asciiBytes cs ++ asciiBytes ds := by
  simp [asciiBytes]

theorem asciiIgnore_append (s t : String) :
    asciiIgnore (s ++ t) = asciiIgnore s ++ asciiIgnore t := by
  rw [asciiIgnore_eq, String.toList_append, asciiBytes_append]
  rfl

theorem asciiIgnore_intercalate (sep : String) (parts : List String) :
    asciiIgnore (sep.intercalate parts) =
      (asciiIgnore sep).intercalate (parts.map asciiIgnore) := by
  induction parts with
  | nil =>
      simp [asciiIgnore]
  | cons part parts ih =>
      cases parts with
      | nil => simp
      | cons next parts =>
          rw [String.intercalate_cons_cons, asciiIgnore_append,
            asciiIgnore_append, ih]
          exact List.intercalate_cons_cons.symm

/-- The bytes have no semicolon and no line break. -/
def CleanBytes (data : List UInt8) : Prop :=
  59 ∉ data ∧ ¬ [13, 10] <:+: data

/-- What is written of the text has no semicolon and no line break. -/
def Clean (text : String) : Prop :=
  CleanBytes (asciiIgnore text)

theorem cleanBytes_append {sep : UInt8} (hsep : sep ∉ [59, 13, 10])
    {data rest : List UInt8} :
    CleanBytes (data ++ sep :: rest) ↔ CleanBytes data ∧ CleanBytes rest := by
  have hsemicolon : 59 ≠ sep := fun h => hsep (by simp [← h])
  have hreturn : sep ≠ 13 := fun h => hsep (by simp [h])
  have hfeed : sep ≠ 10 := fun h => hsep (by simp [h])
  unfold CleanBytes
  rw [pair_infix_append hreturn hfeed, List.mem_append, List.mem_cons]
  tauto

theorem cleanBytes_intercalate {sep : UInt8} (hsep : sep ∉ [59, 13, 10])
    {parts : List (List UInt8)} :
    CleanBytes ([sep].intercalate parts) ↔
      ∀ part ∈ parts, CleanBytes part := by
  induction parts with
  | nil => simp [CleanBytes]
  | cons part parts ih =>
      cases parts with
      | nil => simp
      | cons next parts =>
          rw [List.intercalate_cons_cons, List.append_assoc,
            List.singleton_append, cleanBytes_append hsep, ih,
            List.forall_mem_cons (l := next :: parts)]

theorem cleanBytes_of_notMem {data : List UInt8} (hsemicolon : 59 ∉ data)
    (hreturn : 13 ∉ data) : CleanBytes data := by
  refine ⟨hsemicolon, ?_⟩
  rintro ⟨front, rest, rfl⟩
  simp at hreturn

theorem mem_asciiIgnore {text : String} {c : Char} (hc : c.toNat < 128) :
    UInt8.ofNat c.toNat ∈ asciiIgnore text ↔ c ∈ text.toList := by
  rw [asciiIgnore, List.mem_map]
  constructor
  · rintro ⟨d, hd, heq⟩
    rcases List.mem_filter.mp hd with ⟨hmem, hascii⟩
    have hlt : d.toNat < 128 := by
      simpa using hascii
    have htoNat := congrArg UInt8.toNat heq
    rw [UInt8.toNat_ofNat', UInt8.toNat_ofNat', Nat.mod_eq_of_lt (by omega),
      Nat.mod_eq_of_lt (by omega)] at htoNat
    rwa [← Char.ofNat_toNat c, ← htoNat, Char.ofNat_toNat]
  · intro hmem
    exact ⟨c, List.mem_filter.mpr ⟨hmem, by simpa using hc⟩, rfl⟩

/-- The bytes of a name are what is written exactly if it is ASCII. -/
theorem asciiIgnore_eq_utf8Encode_iff (name : String) :
    asciiIgnore name = utf8Encode name ↔ isAscii name = true := by
  rw [asciiIgnore_eq, utf8Encode_eq, isAscii, List.all_eq_true]
  generalize name.toList = cs
  constructor
  · intro heq
    have hbytes : cs.length ≤ (cs.flatMap String.utf8EncodeChar).length := by
      have hsizes : cs.length =
          (cs.map fun c => (String.utf8EncodeChar c).length).length :=
        (List.length_map _).symm
      rw [List.length_flatMap, hsizes]
      apply List.length_le_sum_of_one_le
      intro n hn
      rcases List.mem_map.mp hn with ⟨c, _, rfl⟩
      exact List.length_pos_of_ne_nil String.utf8EncodeChar_ne_nil
    have hfilter := List.length_filter_le (fun c => c.toNat < 128) cs
    rw [← heq, asciiBytes, List.length_map] at hbytes
    exact List.length_filter_eq_length_iff.mp (hfilter.antisymm hbytes)
  · intro hascii
    rw [asciiBytes, List.filter_eq_self.mpr hascii]
    induction cs with
    | nil => rfl
    | cons c cs ih =>
        rw [List.forall_mem_cons] at hascii
        have hsmall : c.val.toNat ≤ 0x7f := by
          have hlt : c.val.toNat < 128 := by
            simpa using hascii.1
          omega
        rw [List.map_cons, List.flatMap_cons, ih hascii.2,
          String.utf8EncodeChar, if_pos hsmall]
        rfl

/-! ## The fields of a line -/

theorem clean_of_chars {text : String}
    (hchars : ∀ c ∈ text.toList, c ≠ ';' ∧ c ≠ '\r') : Clean text := by
  apply cleanBytes_of_notMem
  · intro hmem
    exact (hchars ';' ((mem_asciiIgnore (by decide)).mp hmem)).1 rfl
  · intro hmem
    exact (hchars '\r' ((mem_asciiIgnore (by decide)).mp hmem)).2 rfl

theorem isDigit_toDigits {n : ℕ} {c : Char}
    (hc : c ∈ Nat.toDigits 10 n) : c.isDigit = true :=
  (isDigits_toDigits n).2 c hc

theorem FloatRepr.mem_chars {x : FloatRepr} {c : Char} (hc : c ∈ x.chars) :
    c.isDigit = true ∨ c ∈ "+-.aefin".toList := by
  have hminus (negative : Bool) (hmem : c ∈ minus negative) :
      c ∈ "+-.aefin".toList := by
    cases negative with
    | false => cases hmem
    | true =>
        rw [List.mem_singleton.mp hmem]
        decide
  cases x with
  | nan =>
      right
      fin_cases hc <;> decide
  | infinity negative =>
      right
      rcases List.mem_append.mp hc with hsign | hword
      · exact hminus negative hsign
      · fin_cases hword <;> decide
  | decimal negative whole fraction exponent =>
      simp only [FloatRepr.chars, List.mem_append] at hc
      rcases hc with ((hsign | hwhole) | hfraction) | hexponent
      · exact .inr (hminus negative hsign)
      · exact .inl (isDigit_toDigits hwhole)
      · split_ifs at hfraction with hempty
        · cases hfraction
        · rcases List.mem_cons.mp hfraction with rfl | hdigit
          · exact .inr (by decide)
          · exact .inl ((isDigits_map_digitChar hempty).2 c hdigit)
      · rcases exponent with _ | ⟨negative', size⟩
        · cases hexponent
        · simp only [Option.elim_some, List.mem_cons, List.mem_append]
            at hexponent
          rcases hexponent with rfl | hsign | hpad | hsize
          · exact .inr (by decide)
          · right
            split_ifs at hsign
            · rw [List.mem_singleton.mp hsign]
              decide
            · rw [List.mem_singleton.mp hsign]
              decide
          · split_ifs at hpad
            · rw [List.mem_singleton.mp hpad]
              exact .inl (by decide)
            · cases hpad
          · exact .inl (isDigit_toDigits hsize)

theorem FloatRepr.clean (x : FloatRepr) : Clean x.text := by
  apply clean_of_chars
  intro c hc
  rw [FloatRepr.text, String.toList_ofList] at hc
  rcases x.mem_chars hc with hdigit | hletter
  · constructor
    · rintro rfl
      exact absurd hdigit (by decide)
    · rintro rfl
      exact absurd hdigit (by decide)
  · constructor
    · rintro rfl
      exact absurd hletter (by decide)
    · rintro rfl
      exact absurd hletter (by decide)

/-! ## Two lists side by side -/

theorem forall₂_iff_of_forall₂ {α β : Type} {R S : α → β → Prop}
    {T : α → Prop} {l : List α} {out : List β} (hR : List.Forall₂ R l out)
    (hiff : ∀ x y, R x y → (S x y ↔ T x)) :
    List.Forall₂ S l out ↔ ∀ x ∈ l, T x := by
  induction hR with
  | nil => simp
  | cons hxy _ ih =>
      rw [List.forall₂_cons, List.forall_mem_cons, hiff _ _ hxy, ih]

theorem forall₂_and_right {α β : Type} {R : α → β → Prop} {P : β → Prop}
    (l : List α) (out : List β) :
    List.Forall₂ (fun x y => R x y ∧ P y) l out ↔
      List.Forall₂ R l out ∧ ∀ y ∈ out, P y := by
  induction out generalizing l with
  | nil => simp
  | cons y out ih =>
      cases l with
      | nil => simp
      | cons x l =>
          rw [List.forall₂_cons, List.forall₂_cons, List.forall_mem_cons, ih]
          tauto

section Lines

variable {F : Type} [PyFloat F]

/-- The free text of a line, field by field, the last field by the values that
it consists of. -/
def lineTexts (info : SourcetableInfo F) (m : PyDict String (Json F)) :
    List String :=
  [metaText m "identifier" (.str "RTCM32"),
    metaText m "format" (.str "RTCM 3.2"),
    metaText m "format_details" (.str ""),
    metaNumber m "carrier" 2,
    metaText m "nav_system" (.str "GPS+GLO+GAL+BDS+QZSS+SBAS"),
    metaText m "network"
      ((Json.str info.network).orElse (.str info.operator)),
    metaText m "country" (.str info.country),
    metaNumber m "nmea" 0,
    metaNumber m "solution" 0,
    metaText m "generator" (.str info.operator),
    metaText m "compression" (.str "none"),
    metaText m "authentication" (.str "B"),
    metaText m "fee" (.str "N"),
    metaNumber m "bitrate" 0] ++
    (miscValues m).map Prod.snd

theorem clean_misc_iff (m : PyDict String (Json F)) :
    Clean (misc m) ↔ ∀ text ∈ (miscValues m).map Prod.snd, Clean text := by
  have hlabels : ∀ item ∈ miscValues m,
      item.1 ∈ ["ANT", "RX", "FW", "DATUM"] := by
    intro item hitem
    rcases List.mem_filterMap.mp hitem with ⟨labelled, hlabelled, hvalue⟩
    rcases Option.map_eq_some_iff.mp hvalue with ⟨value, _, rfl⟩
    fin_cases hlabelled <;> simp
  have hlabel : ∀ label ∈ ["ANT", "RX", "FW", "DATUM"],
      CleanBytes (asciiIgnore label) := by
    intro label hlabel
    apply clean_of_chars
    fin_cases hlabel <;> simp
  have hitem : ∀ item ∈ miscValues m,
      Clean (item.1 ++ "=" ++ item.2) ↔ Clean item.2 := by
    intro item hitem
    have hequals : asciiIgnore "=" = [61] := by
      decide
    rw [Clean, asciiIgnore_append, asciiIgnore_append, hequals,
      List.append_assoc, List.singleton_append,
      cleanBytes_append (by decide)]
    exact and_iff_right (hlabel _ (hlabels item hitem))
  have hblank : asciiIgnore " " = [32] := by
    decide
  rw [Clean, misc, asciiIgnore_intercalate, hblank,
    cleanBytes_intercalate (by decide), List.map_map, List.forall_mem_map,
    List.forall_mem_map]
  constructor
  · intro hall item hmem
    exact (hitem item hmem).mp (hall item hmem)
  · intro hall item hmem
    exact (hitem item hmem).mpr (hall item hmem)

variable [FixedFloat F]

theorem clean_lineFields_iff (info : SourcetableInfo F) (mp : String)
    (m : PyDict String (Json F)) (lat lon : F) :
    (∀ field ∈ lineFields info mp m lat lon, Clean field) ↔
      Clean mp ∧ ∀ text ∈ lineTexts info m, Clean text := by
  have hmark : Clean "STR" := clean_of_chars (by simp)
  have hlat := (FixedFloat.fixed6 lat).clean
  have hlon := (FixedFloat.fixed6 lon).clean
  unfold lineFields lineTexts
  rw [List.forall_mem_append, ← clean_misc_iff]
  simp only [List.forall_mem_cons, List.not_mem_nil, false_implies,
    implies_true, hmark, hlat, hlon, true_and, and_true, and_assoc]

/-! ## The bytes of a line -/

/-- The line has nineteen fields, the first is `STR` and the second is the
name. -/
structure IsLineOf (name : String) (line : List UInt8) : Prop where
  fields : (line.splitOn 59).length = 19
  mark : (line.splitOn 59)[0]? = some (utf8Encode "STR")
  name : (line.splitOn 59)[1]? = some (utf8Encode name)

def lineData (info : SourcetableInfo F) (mp : String)
    (m : PyDict String (Json F)) (lat lon : F) : List UInt8 :=
  asciiIgnore (";".intercalate (lineFields info mp m lat lon))

theorem isLineOf_iff (info : SourcetableInfo F) (mp : String)
    (m : PyDict String (Json F)) (lat lon : F) :
    IsLineOf mp (lineData info mp m lat lon) ∧
        ¬ [13, 10] <:+: lineData info mp m lat lon ↔
      isAscii mp = true ∧ Clean mp ∧
        ∀ text ∈ lineTexts info m, Clean text := by
  let fields := (lineFields info mp m lat lon).map asciiIgnore
  have hne : fields ≠ [] := List.cons_ne_nil _ _
  have hmark : utf8Encode "STR" = asciiIgnore "STR" :=
    ((asciiIgnore_eq_utf8Encode_iff "STR").mpr (by decide)).symm
  have hsemicolon : asciiIgnore ";" = [59] := by
    decide
  have hdata : lineData info mp m lat lon = [59].intercalate fields := by
    rw [lineData, asciiIgnore_intercalate, hsemicolon]
  have hclean : (∀ field ∈ fields, 59 ∉ field) ∧
      ¬ [13, 10] <:+: [59].intercalate fields ↔
        Clean mp ∧ ∀ text ∈ lineTexts info m, Clean text := by
    have hfields : (∀ field ∈ fields, CleanBytes field) ↔
        ∀ field ∈ lineFields info mp m lat lon, Clean field :=
      List.forall_mem_map
    rw [← clean_lineFields_iff info mp m lat lon, ← hfields,
      pair_infix_intercalate (by decide) (by decide)]
    constructor
    · rintro ⟨hsep, hpair⟩ field hfield
      exact ⟨hsep field hfield, fun h => hpair ⟨field, hfield, h⟩⟩
    · intro hall
      refine ⟨fun field hfield => (hall field hfield).1, ?_⟩
      rintro ⟨field, hfield, hpair⟩
      exact (hall field hfield).2 hpair
  rw [hdata]
  constructor
  · rintro ⟨hline, hpair⟩
    have hsep : ∀ field ∈ fields, 59 ∉ field :=
      (length_splitOn_fields hne).mp hline.fields
    have hname := hline.name
    rw [List.splitOn_intercalate 59 hsep hne] at hname
    exact ⟨(asciiIgnore_eq_utf8Encode_iff mp).mp (Option.some.inj hname),
      hclean.mp ⟨hsep, hpair⟩⟩
  · rintro ⟨hascii, htexts⟩
    rcases hclean.mpr htexts with ⟨hsep, hpair⟩
    refine ⟨⟨?_, ?_, ?_⟩, hpair⟩
    · exact (length_splitOn_fields hne).mpr hsep
    · rw [List.splitOn_intercalate 59 hsep hne, hmark]
      rfl
    · rw [List.splitOn_intercalate 59 hsep hne,
        ← (asciiIgnore_eq_utf8Encode_iff mp).mpr hascii]
      rfl

/-! ## The table -/

/-- The value of the coordinate is a number that fits a float. -/
def CoordinateFits (m : PyDict String (Json F)) (key : String) : Prop :=
  (((m.get? key).getD .null).orElse (.float floatZero)).FloatLike

/-- The name is ASCII, no text of the line has a semicolon or a line break,
and the coordinates are numbers. -/
structure CleanEntry (info : SourcetableInfo F) (mp : String)
    (m : PyDict String (Json F)) : Prop where
  ascii : isAscii mp = true
  name : Clean mp
  texts : ∀ text ∈ lineTexts info m, Clean text
  latitude : CoordinateFits m "latitude"
  longitude : CoordinateFits m "longitude"

/-- The bytes split into a line for each name, in their order, behind which
the end stands. -/
def ParsesBack (mountpoints : List String) (body : List UInt8) : Prop :=
  ∃ names lines, names.Pairwise (· < ·) ∧
    (∀ mp, mp ∈ names ↔ mp ∈ mountpoints) ∧
    splitPair 13 10 body = lines ++ [utf8Encode "ENDSOURCETABLE", []] ∧
    List.Forall₂ IsLineOf names lines

theorem sourcetableLine_eq_ok {info : SourcetableInfo F}
    {metaMap : PyDict String (Json F)} {mp line : String} :
    sourcetableLine info metaMap mp = .ok line ↔
      ∃ m lat lon, metaEntry metaMap mp = .obj m ∧
        metaCoordinate m "latitude" = .ok lat ∧
        metaCoordinate m "longitude" = .ok lon ∧
        line = ";".intercalate (lineFields info mp m lat lon) := by
  unfold sourcetableLine
  cases hentry : metaEntry metaMap mp with
  | obj m =>
      constructor
      · intro hline
        rcases bind_eq_ok.mp hline with ⟨lat, hlat, hline⟩
        rcases bind_eq_ok.mp hline with ⟨lon, hlon, hline⟩
        exact ⟨m, lat, lon, rfl, hlat, hlon, (Except.ok.inj hline).symm⟩
      · rintro ⟨m', lat, lon, hobj, hlat, hlon, rfl⟩
        obtain rfl := Json.obj.inj hobj
        dsimp only
        rw [hlat, hlon]
        rfl
  | null | bool _ | int _ | float _ | str _ | arr _ => simp

theorem sortedNames_pairwise (mountpoints : List String) :
    (sortedNames mountpoints).Pairwise (· < ·) := by
  have hnodup : (sortedNames mountpoints).Nodup :=
    (List.mergeSort_perm _ _).nodup_iff.mpr mountpoints.nodup_dedup
  have hsorted := List.pairwise_mergeSort' (· ≤ ·) mountpoints.dedup
  exact (hsorted.and hnodup).imp fun h => lt_of_le_of_ne h.1 h.2

theorem mem_sortedNames {mountpoints : List String} {mp : String} :
    mp ∈ sortedNames mountpoints ↔ mp ∈ mountpoints := by
  rw [sortedNames, List.mem_mergeSort, List.mem_dedup]

theorem buildSourcetable_eq_ok {mountpoints : List String}
    {info : SourcetableInfo F} {given : Option (PyDict String (Json F))}
    {body : List UInt8} :
    buildSourcetable mountpoints info given = .ok body ↔
      ∃ lines, (sortedNames mountpoints).mapM
          (sourcetableLine info (metaMapOf info given)) = .ok lines ∧
        body = joinLines 13 10
          (lines.map asciiIgnore ++ [utf8Encode "ENDSOURCETABLE"]) := by
  have hend : asciiIgnore "ENDSOURCETABLE" = utf8Encode "ENDSOURCETABLE" :=
    (asciiIgnore_eq_utf8Encode_iff _).mpr (by decide)
  have hbreak : asciiIgnore "\r\n" = [13, 10] := by
    decide
  have hbody (lines : List String) :
      asciiIgnore ("\r\n".intercalate (lines ++ ["ENDSOURCETABLE"]) ++
        "\r\n") = joinLines 13 10
          (lines.map asciiIgnore ++ [utf8Encode "ENDSOURCETABLE"]) := by
    rw [asciiIgnore_append, asciiIgnore_intercalate, hbreak,
      joinLines_eq (by simp), List.map_append, List.map_singleton, hend]
  unfold buildSourcetable
  constructor
  · intro hok
    rcases bind_eq_ok.mp hok with ⟨lines, hlines, hok⟩
    exact ⟨lines, hlines, by rw [← Except.ok.inj hok, hbody]⟩
  · rintro ⟨lines, hlines, rfl⟩
    rw [hlines, ← hbody]
    rfl

/-- A line that is built is read back exactly if its entry is clean. -/
theorem line_reads_iff {info : SourcetableInfo F}
    {metaMap : PyDict String (Json F)} {mp line : String}
    (hline : sourcetableLine info metaMap mp = .ok line) :
    IsLineOf mp (asciiIgnore line) ∧ ¬ [13, 10] <:+: asciiIgnore line ↔
      ∃ m, metaEntry metaMap mp = .obj m ∧ CleanEntry info mp m := by
  rcases sourcetableLine_eq_ok.mp hline with
    ⟨m, lat, lon, hentry, hlat, hlon, rfl⟩
  refine (isLineOf_iff info mp m lat lon).trans ?_
  constructor
  · rintro ⟨hascii, hname, htexts⟩
    exact ⟨m, hentry, hascii, hname, htexts,
      Json.pyFloat_ok_iff.mp ⟨lat, hlat⟩, Json.pyFloat_ok_iff.mp ⟨lon, hlon⟩⟩
  · rintro ⟨m', hentry', hclean⟩
    obtain rfl : m = m' := Json.obj.inj (hentry.symm.trans hentry')
    exact ⟨hclean.ascii, hclean.name, hclean.texts⟩

/-- A table that is built is read back exactly if every entry is clean. -/
theorem parsesBack_iff {mountpoints : List String} {info : SourcetableInfo F}
    {metaMap : PyDict String (Json F)} {lines : List String}
    (hlines : (sortedNames mountpoints).mapM (sourcetableLine info metaMap) =
      .ok lines) :
    ParsesBack mountpoints (joinLines 13 10
        (lines.map asciiIgnore ++ [utf8Encode "ENDSOURCETABLE"])) ↔
      ∀ mp ∈ mountpoints, ∃ m, metaEntry metaMap mp = .obj m ∧
        CleanEntry info mp m := by
  have hbuilt := forall₂_of_mapM_ok hlines
  have hread : List.Forall₂ (fun mp line => IsLineOf mp (asciiIgnore line) ∧
      ¬ [13, 10] <:+: asciiIgnore line) (sortedNames mountpoints) lines ↔
        ∀ mp ∈ mountpoints, ∃ m, metaEntry metaMap mp = .obj m ∧
          CleanEntry info mp m := by
    rw [forall₂_iff_of_forall₂ hbuilt fun mp line => line_reads_iff]
    exact ⟨fun h mp hmp => h mp (mem_sortedNames.mpr hmp),
      fun h mp hmp => h mp (mem_sortedNames.mp hmp)⟩
  have hend : ¬ [13, 10] <:+: utf8Encode "ENDSOURCETABLE" := by
    rw [← (asciiIgnore_eq_utf8Encode_iff _).mpr (by decide)]
    exact (clean_of_chars (by simp)).2
  rw [← hread, forall₂_and_right (R := fun mp line =>
    IsLineOf mp (asciiIgnore line))]
  constructor
  · rintro ⟨names, parts, hsorted, hmem, hsplit, hall⟩
    obtain rfl : names = sortedNames mountpoints := by
      refine hsorted.eq_of_mem_iff (sortedNames_pairwise mountpoints) ?_
      intro mp
      rw [hmem, mem_sortedNames]
    have hlength : (parts ++ [utf8Encode "ENDSOURCETABLE"]).length =
        (lines.map asciiIgnore ++ [utf8Encode "ENDSOURCETABLE"]).length := by
      rw [List.length_append, List.length_append, List.length_map,
        ← hall.length_eq, ← hbuilt.length_eq]
    have hparts : splitPair 13 10 (joinLines 13 10
        (lines.map asciiIgnore ++ [utf8Encode "ENDSOURCETABLE"])) =
          (parts ++ [utf8Encode "ENDSOURCETABLE"]) ++ [[]] := by
      rw [hsplit, List.append_assoc]
      rfl
    rcases (splitPair_lines_iff (by decide) hlength).mp hparts with
      ⟨hsame, hpairs⟩
    obtain rfl := List.append_cancel_right hsame
    refine ⟨List.forall₂_map_right_iff.mp hall, ?_⟩
    intro line hline
    exact hpairs _ (List.mem_append_left _ (List.mem_map_of_mem hline))
  · rintro ⟨hall, hpairs⟩
    refine ⟨sortedNames mountpoints, lines.map asciiIgnore,
      sortedNames_pairwise mountpoints, fun _ => mem_sortedNames, ?_,
      List.forall₂_map_right_iff.mpr hall⟩
    have hall' : ∀ data ∈ lines.map asciiIgnore ++
        [utf8Encode "ENDSOURCETABLE"], ¬ [13, 10] <:+: data := by
      intro data hdata
      rcases List.mem_append.mp hdata with hmem | hlast
      · rcases List.mem_map.mp hmem with ⟨line, hline, rfl⟩
        exact hpairs line hline
      · rw [List.mem_singleton.mp hlast]
        exact hend
    have hparts := (splitPair_lines_iff (by decide) rfl).mpr ⟨rfl, hall'⟩
    rw [hparts, List.append_assoc]
    rfl

/-- The sourcetable is built and reads back exactly when every entry is
clean. -/
theorem sourcetable_parses_iff (mountpoints : List String)
    (info : SourcetableInfo F) (given : Option (PyDict String (Json F))) :
    (∃ body, buildSourcetable mountpoints info given = .ok body ∧
        ParsesBack mountpoints body) ↔
      ∀ mp ∈ mountpoints, ∃ m,
        metaEntry (metaMapOf info given) mp = .obj m ∧
          CleanEntry info mp m := by
  constructor
  · rintro ⟨body, hbody, hparses⟩
    rcases buildSourcetable_eq_ok.mp hbody with ⟨lines, hlines, rfl⟩
    exact (parsesBack_iff hlines).mp hparses
  · intro hclean
    have hok : ∀ mp ∈ sortedNames mountpoints, ∃ line,
        sourcetableLine info (metaMapOf info given) mp = .ok line := by
      intro mp hmp
      rcases hclean mp (mem_sortedNames.mp hmp) with ⟨m, hentry, hm⟩
      rcases Json.pyFloat_ok_iff.mpr hm.latitude with ⟨lat, hlat⟩
      rcases Json.pyFloat_ok_iff.mpr hm.longitude with ⟨lon, hlon⟩
      exact ⟨_, sourcetableLine_eq_ok.mpr
        ⟨m, lat, lon, hentry, hlat, hlon, rfl⟩⟩
    rcases exists_mapM_ok_iff.mpr hok with ⟨lines, hlines⟩
    exact ⟨_, buildSourcetable_eq_ok.mpr ⟨lines, hlines, rfl⟩,
      (parsesBack_iff hlines).mpr hclean⟩

end Lines

/-! ## A name with a semicolon -/

/-- The text of a rational with six digits. -/
@[reducible] def sixDigits : FixedFloat ℚ where
  fixed6 x :=
    let millionths := (2 * 10 ^ 6 * x.num.natAbs + x.den) / (2 * x.den)
    .decimal (x.num.sign == -1) (millionths / 10 ^ 6)
      ((List.range 6).reverse.filterMap fun i =>
        (List.finRange 10).find? fun digit =>
          digit.val == millionths / 10 ^ i % 10) none

def semicolonDocument : Json ℚ :=
  .obj [("sources", .obj [("password", .str "s3cret"),
    ("mountpoints", .arr [.str "A;B"])])]

def semicolonCfg : CasterCfg ℚ :=
  { CasterCfg.basic "s3cret" [] with sources := ⟨"s3cret", ["A;B"]⟩ }

theorem semicolonCfg_accepted :
    AcceptedConfig (fun _ => none) semicolonCfg :=
  ⟨semicolonDocument, by rfl, by rfl⟩

/-- The validation accepts the name, and its line has twenty fields. -/
theorem semicolon_splits :
    AcceptedConfig (fun _ => none) semicolonCfg ∧
      ¬ ∃ body, @buildSourcetable ℚ _ sixDigits
          semicolonCfg.sources.mountpoints semicolonCfg.sourcetable none =
            .ok body ∧
        ParsesBack semicolonCfg.sources.mountpoints body := by
  refine ⟨semicolonCfg_accepted, ?_⟩
  rintro ⟨body, hbody, hparses⟩
  rcases (@buildSourcetable_eq_ok ℚ _ sixDigits _ _ _ _).mp hbody with
    ⟨lines, hlines, rfl⟩
  rcases (@parsesBack_iff ℚ _ sixDigits _ _ _ _ hlines).mp hparses "A;B"
    List.mem_cons_self with ⟨m, _, hclean⟩
  exact hclean.name.1 (by decide)

end BabilCors
