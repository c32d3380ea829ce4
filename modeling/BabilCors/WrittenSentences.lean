import Mathlib.Data.List.GetD
import Mathlib.Data.List.ReduceOption
import BabilCors.Coordinates
import BabilCors.GsvSentences
import BabilCors.LineSentences
import BabilCors.NmeaCorruption
import BabilCors.TextEncodings

/-!
# Sentences as receivers write them

A sentence of a receiver is `$`, a talker and a name, fields without a comma,
and the checksum.  The parsers read each kind of sentence back, whatever the
talker and the fields that they pass over, and the read loop takes the line of
the sentence for what it is when no other name comes first in it.
-/

namespace BabilCors

open Py

/-! ## The frame -/

/-- `$`, the talker and the name, and fields without a comma. -/
structure WrittenSentence where
  talker : List Char
  name : List Char
  fields : List (List Char)
  header_plain : ',' ∉ talker ++ name
  fields_plain : ∀ field ∈ fields, ',' ∉ field

namespace WrittenSentence

def header (w : WrittenSentence) : List Char :=
  '$' :: (w.talker ++ w.name)

def body (w : WrittenSentence) : List Char :=
  w.header ++ w.fields.flatMap fun field => ',' :: field

def tail (w : WrittenSentence) : List Char :=
  '*' :: hexText (WrittenGsv.checksum w.body)

/-- The sentence with its checksum. -/
def text (w : WrittenSentence) : String :=
  .ofList (w.body ++ w.tail)

theorem comma_notMem_tail (w : WrittenSentence) : ',' ∉ w.tail := by
  rw [tail, List.mem_cons, not_or]
  exact ⟨by decide, fun hc => (mem_hexText hc).2 (by decide)⟩

theorem checksumOk_text (w : WrittenSentence) : checksumOk w.text = true := by
  have hplain : '*' ∉ hexText (WrittenGsv.checksum w.body) :=
    fun hc => (mem_hexText hc).2 (by decide)
  unfold checksumOk text tail
  rw [rpartition?_of_notMem hplain]
  dsimp only
  rw [intBase16?_hexText, String.toList_ofList]
  dsimp only
  exact decide_eq_true rfl

theorem splitOn_text (w : WrittenSentence) :
    (w.body ++ w.tail).splitOn ',' =
      withTail w.tail (w.header :: w.fields) := by
  have hheader : ',' ∉ w.header := by
    rw [header, List.mem_cons, not_or]
    exact ⟨by decide, w.header_plain⟩
  exact splitOn_withTail w.fields_plain w.comma_notMem_tail hheader

theorem length_withTail (tail : List Char) (fields : List (List Char)) :
    (withTail tail fields).length = fields.length := by
  induction fields with
  | nil => rfl
  | cons field fields ih =>
      cases fields with
      | nil => rfl
      | cons next fields => simpa [withTail] using ih

/-- Fields in front of another one have no tail. -/
theorem withTail_append (tail : List Char) (front : List (List Char))
    (field : List Char) (fields : List (List Char)) :
    withTail tail (front ++ field :: fields) =
      front ++ withTail tail (field :: fields) := by
  induction front with
  | nil => rfl
  | cons first front ih =>
      rw [List.cons_append, List.cons_append, ← ih]
      cases front with
      | nil => rfl
      | cons next front => rfl

theorem startsWith_text (w : WrittenSentence) :
    startsWith w.text "$" = true := by
  unfold startsWith text
  rw [String.toList_ofList, String.toList_ofList]
  rfl

theorem sentenceParts?_text (w : WrittenSentence) {least : ℕ}
    (hleast : least ≤ w.fields.length + 1) :
    sentenceParts? w.text least =
      some ((withTail w.tail (w.header :: w.fields)).map .ofList) := by
  have hstar : contains w.text "*" = true := by
    unfold contains text
    rw [String.toList_ofList, List.any_eq_true]
    exact ⟨w.tail, by simp, rfl⟩
  have hsplit : split ',' w.text =
      (withTail w.tail (w.header :: w.fields)).map .ofList := by
    unfold split text
    rw [String.toList_ofList, splitOn_text]
  have hlength : ¬ (split ',' w.text).length < least := by
    rw [hsplit, List.length_map, length_withTail, List.length_cons]
    exact Nat.not_lt.mpr hleast
  unfold sentenceParts?
  rw [w.startsWith_text, hstar, w.checksumOk_text]
  simp only [Bool.and_self, if_true]
  rw [if_neg hlength, hsplit]

/-- The parts up to one of the fields, which may have the tail. -/
theorem sentenceParts?_field (w : WrittenSentence)
    (front rest : List (List Char)) (field : List Char)
    (hfields : w.fields = front ++ field :: rest) {least : ℕ}
    (hleast : least ≤ w.fields.length + 1) :
    ∃ last later, (last = field ∨ last = field ++ w.tail) ∧
      sentenceParts? w.text least =
        some ((w.header :: (front ++ last :: later)).map .ofList) := by
  obtain ⟨last, hlast, hparts⟩ := withTail_cons w.tail field rest
  refine ⟨last, (withTail w.tail (field :: rest)).drop 1, hlast, ?_⟩
  rw [w.sentenceParts?_text hleast, hfields, ← List.cons_append,
    withTail_append, hparts, List.cons_append]
  rfl

/-- The parts in front of some other field. -/
theorem sentenceParts?_front (w : WrittenSentence)
    (front : List (List Char)) {rest : List (List Char)}
    (hfields : w.fields = front ++ rest)
    (hrest : rest ≠ []) {least : ℕ}
    (hleast : least ≤ w.fields.length + 1) :
    ∃ later, sentenceParts? w.text least =
      some ((w.header :: (front ++ later)).map .ofList) := by
  obtain ⟨field, rest, rfl⟩ := List.exists_cons_of_ne_nil hrest
  obtain ⟨last, later, -, hparts⟩ :=
    w.sentenceParts?_field front rest field hfields hleast
  exact ⟨last :: later, hparts⟩

end WrittenSentence

/-! ## Numbers -/

/-- A number with decimals, of at least one digit. -/
structure WrittenNumber where
  whole : List (Fin 10)
  decimals : Option (List (Fin 10))
  whole_ne_nil : whole ≠ []

namespace WrittenNumber

def text (x : WrittenNumber) : List Char :=
  digitText x.whole ++ fractionText x.decimals

def value (x : WrittenNumber) : ℚ :=
  digitsValue x.whole + fractionValue x.decimals

theorem ofString?_text (x : WrittenNumber) :
    (PyFloat.ofString? (.ofList x.text) : Option ℚ) = some x.value :=
  decimalValue?_text x.whole_ne_nil x.decimals

end WrittenNumber

/-- A field that may be left empty. -/
def fieldText {α : Type} (text : α → List Char) : Option α → List Char
  | none => []
  | some x => text x

theorem comma_notMem_digitText (ds : List (Fin 10)) : ',' ∉ digitText ds := by
  intro hcomma
  obtain ⟨digit, -, hdigit⟩ := List.mem_map.mp hcomma
  exact Decimal.digitChar_ne digit (by decide) hdigit

theorem comma_notMem_fractionText (decimals : Option (List (Fin 10))) :
    ',' ∉ fractionText decimals := by
  cases decimals with
  | none => exact List.not_mem_nil
  | some ds =>
      rw [fractionText, List.mem_cons, not_or]
      exact ⟨by decide, comma_notMem_digitText ds⟩

theorem WrittenNumber.comma_notMem (x : WrittenNumber) : ',' ∉ x.text := by
  rw [text, List.mem_append, not_or]
  exact ⟨comma_notMem_digitText _, comma_notMem_fractionText _⟩

theorem WrittenAngle.comma_notMem {n : ℕ} (a : WrittenAngle n) :
    ',' ∉ a.text.toList := by
  rw [text, String.toList_ofList, minutesText, List.mem_append,
    List.mem_append, not_or, not_or]
  exact ⟨comma_notMem_digitText _, comma_notMem_digitText _,
    comma_notMem_fractionText _⟩

theorem comma_notMem_fieldText {α : Type} {text : α → List Char}
    (htext : ∀ x, ',' ∉ text x) (x? : Option α) : ',' ∉ fieldText text x? := by
  cases x? with
  | none => exact List.not_mem_nil
  | some x => exact htext x

theorem comma_notMem_latitude (south : Bool) :
    ',' ∉ (latitudeLetter south).toList := by
  cases south <;> decide

theorem comma_notMem_longitude (west : Bool) :
    ',' ∉ (longitudeLetter west).toList := by
  cases west <;> decide

theorem ofString?_fieldText (x? : Option WrittenNumber) :
    ((PyFloat.ofString? (.ofList (fieldText WrittenNumber.text x?)) :
        Option ℚ).getD floatZero) = (x?.map WrittenNumber.value).getD 0 := by
  cases x? with
  | none => decide +kernel
  | some x =>
      change (PyFloat.ofString? (.ofList x.text) : Option ℚ).getD _ = _
      rw [x.ofString?_text]
      rfl

theorem int?_fieldText {d? : Option Decimal} (hfits : ∀ d ∈ d?, d.Fits) :
    (int? (.ofList (fieldText Decimal.text d?))).getD 0 =
      (d?.map fun d => (d.value : ℤ)).getD 0 := by
  cases d? with
  | none => decide +kernel
  | some d =>
      change (int? (.ofList d.text)).getD 0 = _
      rw [Decimal.int?_text, if_pos (hfits d rfl)]
      rfl

/-! ## Positions -/

structure WrittenGga where
  talker : List Char
  time : List Char
  lat : WrittenAngle 2
  south : Bool
  lon : WrittenAngle 3
  west : Bool
  fixQ : Decimal
  nsat : Option Decimal
  hdop : Option WrittenNumber
  rest : List (List Char)
  rest_length : 6 ≤ rest.length
  talker_plain : ',' ∉ talker
  time_plain : ',' ∉ time
  rest_plain : ∀ field ∈ rest, ',' ∉ field

namespace WrittenGga

/-- The fields that the parser reads. -/
def front (g : WrittenGga) : List (List Char) :=
  [g.time, g.lat.text.toList, (latitudeLetter g.south).toList,
    g.lon.text.toList, (longitudeLetter g.west).toList, g.fixQ.text,
    fieldText Decimal.text g.nsat, fieldText WrittenNumber.text g.hdop]

/-- `$..GGA,time,lat,N,lon,E,fix,satellites,hdop,...*CS`. -/
def sentence (g : WrittenGga) : WrittenSentence where
  talker := g.talker
  name := ['G', 'G', 'A']
  fields := g.front ++ g.rest
  header_plain := by simp [g.talker_plain]
  fields_plain := by
    simp only [front, List.cons_append, List.nil_append, List.forall_mem_cons]
    exact ⟨g.time_plain, g.lat.comma_notMem, comma_notMem_latitude _,
      g.lon.comma_notMem, comma_notMem_longitude _,
      WrittenGsv.comma_notMem_text _,
      comma_notMem_fieldText WrittenGsv.comma_notMem_text _,
      comma_notMem_fieldText WrittenNumber.comma_notMem _, g.rest_plain⟩

def gga (g : WrittenGga) : Gga ℚ where
  lat := g.lat.signed g.south
  lon := g.lon.signed g.west
  fixQ := g.fixQ.value
  nsat := (g.nsat.map fun d => (d.value : ℤ)).getD 0
  hdop := (g.hdop.map WrittenNumber.value).getD 0

def Fits (g : WrittenGga) : Prop :=
  g.fixQ.Fits ∧ ∀ d ∈ g.nsat, d.Fits

theorem parseLat_text (lat : WrittenAngle 2) (south : Bool) :
    (parseLat lat.text (latitudeLetter south) : Option ℚ) =
      some (lat.signed south) := by
  have hlat := lat.parseDegrees_text (by decide) (by decide) "S"
    (latitudeLetter south)
  cases south <;> exact hlat

theorem parseLon_text (lon : WrittenAngle 3) (west : Bool) :
    (parseLon lon.text (longitudeLetter west) : Option ℚ) =
      some (lon.signed west) := by
  have hlon := lon.parseDegrees_text (by decide) (by decide) "W"
    (longitudeLetter west)
  cases west <;> exact hlon

/-- A position is read back. -/
theorem parseGga_text {g : WrittenGga} (hfits : g.Fits) :
    parseGga g.sentence.text = some g.gga := by
  obtain ⟨hfix, hnsat⟩ := hfits
  have hleast : 15 ≤ g.sentence.fields.length + 1 := by
    have hlength := g.rest_length
    change 15 ≤ (g.front ++ g.rest).length + 1
    rw [List.length_append]
    exact Nat.succ_le_succ (Nat.add_le_add_left hlength 8)
  have hrest : g.rest ≠ [] := by
    intro hnil
    have hlength := g.rest_length
    rw [hnil] at hlength
    cases hlength
  obtain ⟨later, hparts⟩ :=
    g.sentence.sentenceParts?_front g.front rfl hrest hleast
  unfold parseGga
  rw [hparts, Option.bind_some, front]
  simp only [List.cons_append, List.nil_append]
  simp only [List.map_cons, List.getD_cons_succ, List.getD_cons_zero,
    String.ofList_toList]
  rw [Decimal.int?_text, if_pos hfix, Option.bind_some, parseLat_text,
    Option.bind_some, parseLon_text, Option.map_some, int?_fieldText hnsat,
    ofString?_fieldText]
  rfl

end WrittenGga

/-! ## Precision -/

structure WrittenGsa where
  talker : List Char
  mode : List Char
  fixType : Option Decimal
  sats : List (Option Decimal)
  pdop : Option WrittenNumber
  hdop : Option WrittenNumber
  vdop : Option WrittenNumber
  rest : List (List Char)
  sats_length : sats.length = 12
  talker_plain : ',' ∉ talker
  mode_plain : ',' ∉ mode
  rest_plain : ∀ field ∈ rest, ',' ∉ field

theorem intOrZero?_fieldText {d? : Option Decimal} (hfits : ∀ d ∈ d?, d.Fits) :
    intOrZero? (.ofList (fieldText Decimal.text d?)) =
      some ((d?.map fun d => (d.value : ℤ)).getD 0) := by
  cases d? with
  | none => decide
  | some d =>
      change intOrZero? (.ofList d.text) = _
      rw [intOrZero?_text, if_pos (hfits d rfl)]
      rfl

/-- The satellites in use: the slots that are not empty. -/
theorem filterMap_slots {slots : List (Option Decimal)}
    (hfits : ∀ d? ∈ slots, ∀ d ∈ d?, d.Fits) :
    ((slots.map (fieldText Decimal.text)).map String.ofList).filterMap
        (fun p => if strip p = "" then none else int? (strip p)) =
      slots.reduceOption.map fun d => (d.value : ℤ) := by
  induction slots with
  | nil => rfl
  | cons d? slots ih =>
      obtain ⟨hfirst, hrest⟩ := List.forall_mem_cons.mp hfits
      rw [List.map_cons, List.map_cons, List.filterMap_cons, ih hrest]
      cases d? with
      | none =>
          have hempty :
              strip (.ofList (fieldText Decimal.text none)) = "" := by
            decide
          rw [if_pos hempty, List.reduceOption_cons_of_none]
      | some d =>
          have hstrip : strip (.ofList d.text) = .ofList d.text :=
            strip_of_noSpace fun c hc => (Decimal.mem_text hc).1
          have hne : String.ofList d.text ≠ "" := by
            intro hempty
            apply d.text_ne_nil
            rw [← String.toList_ofList (l := d.text), hempty]
            rfl
          rw [fieldText, hstrip, if_neg hne, Decimal.int?_text,
            if_pos (hfirst d rfl), List.reduceOption_cons_of_some,
            List.map_cons]

namespace WrittenGsa

def front (g : WrittenGsa) : List (List Char) :=
  g.mode :: fieldText Decimal.text g.fixType ::
    (g.sats.map (fieldText Decimal.text) ++
      [fieldText WrittenNumber.text g.pdop,
        fieldText WrittenNumber.text g.hdop])

/-- `$..GSA,mode,fix,twelve satellites,pdop,hdop,vdop,...*CS`; the last field
that is read may be the last one of the sentence. -/
def sentence (g : WrittenGsa) : WrittenSentence where
  talker := g.talker
  name := ['G', 'S', 'A']
  fields := g.front ++ fieldText WrittenNumber.text g.vdop :: g.rest
  header_plain := by simp [g.talker_plain]
  fields_plain := by
    simp only [front, List.cons_append, List.append_assoc, List.nil_append,
      List.forall_mem_cons, List.forall_mem_append]
    refine ⟨g.mode_plain,
      comma_notMem_fieldText WrittenGsv.comma_notMem_text _, ?_,
      comma_notMem_fieldText WrittenNumber.comma_notMem _,
      comma_notMem_fieldText WrittenNumber.comma_notMem _,
      comma_notMem_fieldText WrittenNumber.comma_notMem _, g.rest_plain⟩
    rw [List.forall_mem_map]
    exact fun d? _ => comma_notMem_fieldText WrittenGsv.comma_notMem_text d?

def gsa (g : WrittenGsa) : Gsa ℚ where
  mode := .ofList g.mode
  fixType := (g.fixType.map fun d => (d.value : ℤ)).getD 0
  sats := g.sats.reduceOption.map fun d => (d.value : ℤ)
  pdop := (g.pdop.map WrittenNumber.value).getD 0
  hdop := (g.hdop.map WrittenNumber.value).getD 0
  vdop := (g.vdop.map WrittenNumber.value).getD 0

def Fits (g : WrittenGsa) : Prop :=
  (∀ d ∈ g.fixType, d.Fits) ∧ ∀ d? ∈ g.sats, ∀ d ∈ d?, d.Fits

theorem star_notMem_fieldText (x? : Option WrittenNumber) :
    '*' ∉ fieldText WrittenNumber.text x? := by
  intro hstar
  cases x? with
  | none => cases hstar
  | some x =>
      rcases List.mem_append.mp hstar with hwhole | hfraction
      · obtain ⟨digit, -, hdigit⟩ := List.mem_map.mp hwhole
        exact Decimal.digitChar_ne digit (by decide) hdigit
      · cases hdecimals : x.decimals with
        | none =>
            rw [hdecimals] at hfraction
            cases hfraction
        | some ds =>
            rw [hdecimals, fractionText, List.mem_cons] at hfraction
            rcases hfraction with hpoint | hdigits
            · exact absurd hpoint (by decide)
            · obtain ⟨digit, -, hdigit⟩ := List.mem_map.mp hdigits
              exact Decimal.digitChar_ne digit (by decide) hdigit

/-- Satellites and precision are read back. -/
theorem parseGsa_text {g : WrittenGsa} (hfits : g.Fits) :
    parseGsa g.sentence.text = some g.gsa := by
  obtain ⟨hfix, hsats⟩ := hfits
  have hslots : (g.sats.map (fieldText Decimal.text)).length = 12 := by
    rw [List.length_map, g.sats_length]
  have hleast : 18 ≤ g.sentence.fields.length + 1 := by
    change 18 ≤ (g.front ++ fieldText WrittenNumber.text g.vdop ::
      g.rest).length + 1
    rw [List.length_append, List.length_cons, front, List.length_cons,
      List.length_cons, List.length_append, hslots]
    simp only [List.length_cons, List.length_nil]
    omega
  obtain ⟨last, later, hlast, hparts⟩ := g.sentence.sentenceParts?_field
    g.front g.rest (fieldText WrittenNumber.text g.vdop) rfl hleast
  have hvdop : before '*' (.ofList last) =
      .ofList (fieldText WrittenNumber.text g.vdop) := by
    have hbefore := before_star (star_notMem_fieldText g.vdop)
      (hexText (WrittenGsv.checksum g.sentence.body))
    rcases hlast with rfl | rfl
    · exact hbefore.1
    · exact hbefore.2
  have htake : (g.sats.map (fieldText Decimal.text) ++
      (fieldText WrittenNumber.text g.pdop ::
        fieldText WrittenNumber.text g.hdop :: last :: later)).take 12 =
      g.sats.map (fieldText Decimal.text) := by
    rw [← hslots, List.take_left]
  have hdop (k : ℕ) : ((g.sats.map (fieldText Decimal.text) ++
      (fieldText WrittenNumber.text g.pdop ::
        fieldText WrittenNumber.text g.hdop :: last :: later)).map
          String.ofList).getD (12 + k) "" =
      ((fieldText WrittenNumber.text g.pdop ::
        fieldText WrittenNumber.text g.hdop :: last :: later).map
          String.ofList).getD k "" := by
    have hlength : ((g.sats.map (fieldText Decimal.text)).map
        String.ofList).length = 12 := by
      rw [List.length_map, hslots]
    rw [List.map_append, List.getD_append_right _ _ _ _
      (hlength.le.trans (Nat.le_add_right 12 k)), hlength,
      Nat.add_sub_cancel_left]
  unfold parseGsa
  rw [hparts, Option.map_some, front]
  simp only [List.cons_append, List.append_assoc, List.nil_append,
    List.map_cons, List.getD_cons_succ, List.getD_cons_zero,
    List.drop_succ_cons, List.drop_zero]
  rw [← List.map_take, htake, filterMap_slots hsats, hdop 0, hdop 1, hdop 2]
  simp only [List.map_cons, List.getD_cons_succ, List.getD_cons_zero]
  rw [hvdop, intOrZero?_fieldText hfix, ofString?_fieldText,
    ofString?_fieldText, ofString?_fieldText]
  rfl

end WrittenGsa

/-! ## Motion and time -/

theorem floatOrZero_fieldText (x? : Option WrittenNumber) :
    (floatOrZero (.ofList (fieldText WrittenNumber.text x?)) : ℚ) =
      (x?.map WrittenNumber.value).getD 0 := by
  unfold floatOrZero
  cases x? with
  | none => exact if_pos rfl
  | some x =>
      have hne : (String.ofList x.text) ≠ "" := by
        intro hempty
        have hnil : x.text = [] := by
          rw [← String.toList_ofList (l := x.text), hempty]
          rfl
        exact x.whole_ne_nil (List.map_eq_nil_iff.mp
          (List.append_eq_nil_iff.mp hnil).1)
      change (if String.ofList x.text = "" then _ else _) = _
      rw [if_neg hne]
      exact ofString?_fieldText (some x)

/-- An angle with its hemisphere; a receiver without a fix leaves both
empty. -/
def placeFields {n : ℕ} (letter : Bool → String)
    (place? : Option (WrittenAngle n × Bool)) : List (List Char) :=
  [fieldText (fun place => place.1.text.toList) place?,
    fieldText (fun place => (letter place.2).toList) place?]

def placeValue {n : ℕ} (place? : Option (WrittenAngle n × Bool)) : ℚ :=
  (place?.map fun place => place.1.signed place.2).getD 0

/-- The angle of one of the two fields of `_parse_lat_lon`. -/
theorem signedAngle_fieldText {n : ℕ} (hn : n ≤ 3) (letter : Bool → String)
    (negative : String) (hnone : upper "" ≠ negative)
    (hletter : ∀ neg, upper (letter neg) = negative ↔ neg = true)
    (place? : Option (WrittenAngle n × Bool)) :
    ∃ value : ℚ, convLatLon (.ofList (fieldText
        (fun place => place.1.text.toList) place?)) = .ok value ∧
      (if upper (.ofList (fieldText (fun place => (letter place.2).toList)
          place?)) = negative then PyFloat.neg (PyFloat.abs value)
        else value) = placeValue place? := by
  cases place? with
  | none => exact ⟨floatZero, rfl, if_neg hnone⟩
  | some place =>
      refine ⟨place.1.value, ?_, ?_⟩
      · rw [fieldText, String.ofList_toList, place.1.convLatLon_text hn]
      · rw [fieldText, String.ofList_toList, neg_abs_value]
        change _ = place.1.signed place.2
        unfold WrittenAngle.signed
        by_cases hneg : place.2 = true
        · rw [if_pos ((hletter place.2).mpr hneg), if_pos hneg]
        · rw [if_neg fun h => hneg ((hletter place.2).mp h), if_neg hneg]

theorem parseLatLon_fieldText (lat? : Option (WrittenAngle 2 × Bool))
    (lon? : Option (WrittenAngle 3 × Bool)) :
    (parseLatLon
        (.ofList (fieldText (fun place => place.1.text.toList) lat?))
        (.ofList (fieldText (fun place => (latitudeLetter place.2).toList)
          lat?))
        (.ofList (fieldText (fun place => place.1.text.toList) lon?))
        (.ofList (fieldText (fun place => (longitudeLetter place.2).toList)
          lon?)) : Except PyErr (ℚ × ℚ)) =
      .ok (placeValue lat?, placeValue lon?) := by
  obtain ⟨lat, hlat, hlatSign⟩ := signedAngle_fieldText (by decide)
    latitudeLetter "S" (by decide) (by decide) lat?
  obtain ⟨lon, hlon, hlonSign⟩ := signedAngle_fieldText (by decide)
    longitudeLetter "W" (by decide) (by decide) lon?
  unfold parseLatLon
  rw [hlat, hlon]
  simp only [bind, Except.bind, pure, Except.pure]
  rw [hlatSign, hlonSign]

theorem comma_notMem_placeFields {n : ℕ} {letter : Bool → String}
    (hletter : ∀ neg, ',' ∉ (letter neg).toList)
    (place? : Option (WrittenAngle n × Bool)) :
    ∀ field ∈ placeFields letter place?, ',' ∉ field := by
  intro field hfield
  simp only [placeFields, List.mem_cons, List.not_mem_nil, or_false] at hfield
  rcases hfield with rfl | rfl
  · exact comma_notMem_fieldText (fun place => place.1.comma_notMem) place?
  · exact comma_notMem_fieldText (fun place => hletter place.2) place?

structure WrittenRmc where
  talker : List Char
  time : List Char
  status : List Char
  lat : Option (WrittenAngle 2 × Bool)
  lon : Option (WrittenAngle 3 × Bool)
  spd : Option WrittenNumber
  crs : Option WrittenNumber
  date : List Char
  rest : List (List Char)
  rest_length : 2 ≤ rest.length
  talker_plain : ',' ∉ talker
  time_plain : ',' ∉ time
  status_plain : ',' ∉ status
  date_plain : ',' ∉ date
  rest_plain : ∀ field ∈ rest, ',' ∉ field

namespace WrittenRmc

def front (g : WrittenRmc) : List (List Char) :=
  [g.time, g.status] ++ placeFields latitudeLetter g.lat ++
    placeFields longitudeLetter g.lon ++
      [fieldText WrittenNumber.text g.spd,
        fieldText WrittenNumber.text g.crs, g.date]

/-- `$..RMC,time,status,lat,N,lon,E,speed,course,date,...*CS`. -/
def sentence (g : WrittenRmc) : WrittenSentence where
  talker := g.talker
  name := ['R', 'M', 'C']
  fields := g.front ++ g.rest
  header_plain := by simp [g.talker_plain]
  fields_plain := by
    simp only [front, List.forall_mem_append, List.forall_mem_cons]
    exact ⟨⟨⟨⟨⟨g.time_plain, g.status_plain, List.forall_mem_nil _⟩,
      comma_notMem_placeFields comma_notMem_latitude _⟩,
      comma_notMem_placeFields comma_notMem_longitude _⟩,
      comma_notMem_fieldText WrittenNumber.comma_notMem _,
      comma_notMem_fieldText WrittenNumber.comma_notMem _, g.date_plain,
      List.forall_mem_nil _⟩, g.rest_plain⟩

def rmc (g : WrittenRmc) : Rmc ℚ where
  status := .ofList g.status
  lat := placeValue g.lat
  lon := placeValue g.lon
  spd := (g.spd.map WrittenNumber.value).getD 0
  crs := (g.crs.map WrittenNumber.value).getD 0
  date := .ofList g.date

/-- Status, position and motion are read back. -/
theorem parseRmc_text (g : WrittenRmc) :
    parseRmc g.sentence.text = some g.rmc := by
  have hleast : 12 ≤ g.sentence.fields.length + 1 := by
    have hlength := g.rest_length
    change 12 ≤ (g.front ++ g.rest).length + 1
    rw [List.length_append]
    exact Nat.succ_le_succ (Nat.add_le_add_left hlength 9)
  have hrest : g.rest ≠ [] := by
    intro hnil
    have hlength := g.rest_length
    rw [hnil] at hlength
    cases hlength
  obtain ⟨later, hparts⟩ :=
    g.sentence.sentenceParts?_front g.front rfl hrest hleast
  unfold parseRmc
  rw [hparts, Option.map_some, front, placeFields, placeFields]
  simp only [List.cons_append, List.nil_append, List.map_cons,
    List.getD_cons_succ, List.getD_cons_zero]
  rw [parseLatLon_fieldText, floatOrZero_fieldText, floatOrZero_fieldText]
  rfl

end WrittenRmc

structure WrittenVtg where
  talker : List Char
  crs : Option WrittenNumber
  between : List (List Char)
  spdKmh : Option WrittenNumber
  rest : List (List Char)
  between_length : between.length = 5
  rest_ne_nil : rest ≠ []
  talker_plain : ',' ∉ talker
  between_plain : ∀ field ∈ between, ',' ∉ field
  rest_plain : ∀ field ∈ rest, ',' ∉ field

namespace WrittenVtg

def front (g : WrittenVtg) : List (List Char) :=
  fieldText WrittenNumber.text g.crs ::
    (g.between ++ [fieldText WrittenNumber.text g.spdKmh])

/-- `$..VTG,course,T,,M,knots,N,speed,K,...*CS`. -/
def sentence (g : WrittenVtg) : WrittenSentence where
  talker := g.talker
  name := ['V', 'T', 'G']
  fields := g.front ++ g.rest
  header_plain := by simp [g.talker_plain]
  fields_plain := by
    simp only [front, List.cons_append, List.append_assoc, List.nil_append,
      List.forall_mem_cons, List.forall_mem_append]
    exact ⟨comma_notMem_fieldText WrittenNumber.comma_notMem _,
      g.between_plain, comma_notMem_fieldText WrittenNumber.comma_notMem _,
      g.rest_plain⟩

def vtg (g : WrittenVtg) : Vtg ℚ where
  crs := (g.crs.map WrittenNumber.value).getD 0
  spdKmh := (g.spdKmh.map WrittenNumber.value).getD 0

/-- Course and speed are read back. -/
theorem parseVtg_text (g : WrittenVtg) :
    parseVtg g.sentence.text = some g.vtg := by
  have hbetween := g.between_length
  have hleast : 9 ≤ g.sentence.fields.length + 1 := by
    have hpos := List.length_pos_iff.mpr g.rest_ne_nil
    change 9 ≤ (g.front ++ g.rest).length + 1
    rw [List.length_append, front, List.length_cons, List.length_append,
      hbetween]
    exact Nat.succ_le_succ (Nat.add_le_add_left hpos 7)
  obtain ⟨later, hparts⟩ :=
    g.sentence.sentenceParts?_front g.front rfl g.rest_ne_nil hleast
  have hspeed : ((g.between ++ fieldText WrittenNumber.text g.spdKmh ::
      later).map String.ofList).getD 5 "" =
        .ofList (fieldText WrittenNumber.text g.spdKmh) := by
    have hlength : (g.between.map String.ofList).length = 5 := by
      rw [List.length_map, hbetween]
    rw [List.map_append, List.getD_append_right _ _ _ _ hlength.le, hlength]
    rfl
  unfold parseVtg
  rw [hparts, Option.map_some, front]
  simp only [List.cons_append, List.append_assoc, List.nil_append,
    List.map_cons, List.getD_cons_succ, List.getD_cons_zero]
  rw [hspeed, floatOrZero_fieldText, floatOrZero_fieldText]
  rfl

end WrittenVtg

structure WrittenZda where
  talker : List Char
  time : List Char
  day : Option Decimal
  month : Option Decimal
  year : Option Decimal
  rest : List (List Char)
  rest_ne_nil : rest ≠ []
  talker_plain : ',' ∉ talker
  time_plain : ',' ∉ time
  rest_plain : ∀ field ∈ rest, ',' ∉ field

namespace WrittenZda

def front (g : WrittenZda) : List (List Char) :=
  [g.time, fieldText Decimal.text g.day, fieldText Decimal.text g.month,
    fieldText Decimal.text g.year]

/-- `$..ZDA,time,day,month,year,zone,...*CS`. -/
def sentence (g : WrittenZda) : WrittenSentence where
  talker := g.talker
  name := ['Z', 'D', 'A']
  fields := g.front ++ g.rest
  header_plain := by simp [g.talker_plain]
  fields_plain := by
    simp only [front, List.cons_append, List.nil_append, List.forall_mem_cons]
    exact ⟨g.time_plain, comma_notMem_fieldText WrittenGsv.comma_notMem_text _,
      comma_notMem_fieldText WrittenGsv.comma_notMem_text _,
      comma_notMem_fieldText WrittenGsv.comma_notMem_text _, g.rest_plain⟩

def zda (g : WrittenZda) : Zda where
  timeStr := .ofList g.time
  day := (g.day.map fun d => (d.value : ℤ)).getD 0
  month := (g.month.map fun d => (d.value : ℤ)).getD 0
  year := (g.year.map fun d => (d.value : ℤ)).getD 0

def Fits (g : WrittenZda) : Prop :=
  (∀ d ∈ g.day, d.Fits) ∧ (∀ d ∈ g.month, d.Fits) ∧ ∀ d ∈ g.year, d.Fits

/-- Time and date are read back. -/
theorem parseZda_text {g : WrittenZda} (hfits : g.Fits) :
    parseZda g.sentence.text = some g.zda := by
  obtain ⟨hday, hmonth, hyear⟩ := hfits
  have hleast : 5 ≤ g.sentence.fields.length + 1 := by
    change 5 ≤ (g.front ++ g.rest).length + 1
    rw [List.length_append]
    exact Nat.succ_le_succ (Nat.le_add_right 4 _)
  obtain ⟨later, hparts⟩ :=
    g.sentence.sentenceParts?_front g.front rfl g.rest_ne_nil hleast
  unfold parseZda
  rw [hparts, Option.bind_some, front]
  simp only [List.cons_append, List.nil_append, List.map_cons,
    List.getD_cons_succ, List.getD_cons_zero]
  rw [intOrZero?_fieldText hday, intOrZero?_fieldText hmonth,
    intOrZero?_fieldText hyear]
  rfl

end WrittenZda

/-! ## Satellites in view -/

/-- Satellites in view are read back when there are some. -/
theorem WrittenGsv.parseGsv_of_fits {g : WrittenGsv} (hsats : g.sats ≠ [])
    (hfits : g.Fits) : parseGsv g.sentence = some g.gsv := by
  obtain ⟨htotal, hnumber, hview, hgroups⟩ := g.fits_iff.mp hfits
  have hkept := (sats_kept_iff g.sats).mpr hgroups
  have hread := gsvSats_withTail g.sats (hexText (checksum g.body))
    g.totalSv.text
  rw [hkept] at hread
  obtain ⟨s, sats, hcons⟩ := List.exists_cons_of_ne_nil hsats
  have hparts : withTail g.tail (g.totalSv.text ::
      g.sats.flatMap WrittenSat.fields) =
      g.totalSv.text :: (withTail g.tail (g.totalSv.text ::
        g.sats.flatMap WrittenSat.fields)).drop 1 := by
    rw [hcons]
    rfl
  unfold parseGsv
  rw [g.sentenceParts?_sentence, g.splitOn_sentence, Option.bind_some, hparts]
  simp only [List.map_cons, List.getD_cons_succ, List.getD_cons_zero,
    List.drop_succ_cons, List.drop_zero]
  rw [Decimal.int?_text, Decimal.int?_text, Decimal.int?_text, if_pos htotal,
    if_pos hnumber, if_pos hview]
  exact congrArg (fun kept => some (⟨_, _, _, kept⟩ : Gsv)) hread

end BabilCors
