import BabilCors.Nmea
import BabilCors.PyNumbers

/-!
# GSV sentences

A sentence as it is written, with decimals of any length and the checksum that
belongs to it, and what `parse_gsv` reads from it.  The checksum stands on the
last field; without satellites that field is the number of satellites, which
is then no number.
-/

namespace BabilCors

open Py

/-! ## Writing -/

structure WrittenSat where
  prn : Decimal
  elev : Decimal
  az : Decimal
  snr : Decimal
  prn_pos : 0 < prn.value

namespace WrittenSat

def numbers (s : WrittenSat) : List Decimal :=
  [s.prn, s.elev, s.az, s.snr]

def sat (s : WrittenSat) : GsvSat :=
  ⟨s.prn.value, s.elev.value, s.az.value, s.snr.value⟩

end WrittenSat

/-- `$`, the talker, `GSV`, and behind it fields without a comma. -/
structure WrittenGsv where
  talker : List Char
  totalSent : Decimal
  sentNum : Decimal
  totalSv : Decimal
  sats : List WrittenSat
  talker_plain : ',' ∉ talker

namespace WrittenGsv

def numbers (g : WrittenGsv) : List Decimal :=
  g.totalSent :: g.sentNum :: g.totalSv :: g.sats.flatMap WrittenSat.numbers

def header (g : WrittenGsv) : List Char :=
  '$' :: (g.talker ++ ['G', 'S', 'V'])

def body (g : WrittenGsv) : List Char :=
  g.header ++ g.numbers.flatMap fun d => ',' :: d.text

/-- The xor of the characters behind the first one. -/
def checksum (body : List Char) : ℕ :=
  (body.drop 1).foldl (fun x ch => x ^^^ ch.toNat) 0

def tail (g : WrittenGsv) : List Char :=
  '*' :: hexText (checksum g.body)

/-- `$..GSV,total,num,count{,prn,elev,az,snr}*CS`. -/
def sentence (g : WrittenGsv) : String :=
  .ofList (g.body ++ g.tail)

def gsv (g : WrittenGsv) : Gsv :=
  ⟨g.totalSent.value, g.sentNum.value, g.totalSv.value,
    g.sats.map WrittenSat.sat⟩

end WrittenGsv

/-! ## The checksum -/

theorem rpartition?_of_notMem {sep : Char} {body behind : List Char}
    (hsep : sep ∉ behind) :
    rpartition? sep (.ofList (body ++ sep :: behind)) =
      some (.ofList body, .ofList behind) := by
  have hother : ∀ c ∈ behind, (c != sep) = true := by
    intro c hc
    rw [bne_iff_ne]
    rintro rfl
    exact hsep hc
  have hdrop : (body ++ sep :: behind).rdropWhile (· != sep) =
      body ++ [sep] := by
    rw [rdropWhile_append_cons (p := (· != sep)) (bne_self_eq_false sep),
      List.rdropWhile_eq_nil_iff.mpr hother]
  have htake : (body ++ sep :: behind).rtakeWhile (· != sep) = behind := by
    rw [List.rtakeWhile, List.reverse_append, List.reverse_cons,
      List.append_assoc, List.takeWhile_append_of_pos
        (fun c hc => hother c (List.mem_reverse.mp hc)),
      List.singleton_append, List.takeWhile_cons_of_neg (by simp),
      List.append_nil, List.reverse_reverse]
  unfold rpartition?
  rw [String.toList_ofList, if_pos (by simp), hdrop, htake,
    List.rdrop_concat_succ, List.rdrop_zero]

theorem WrittenGsv.checksumOk_sentence (g : WrittenGsv) :
    checksumOk g.sentence = true := by
  have hplain : '*' ∉ hexText (checksum g.body) :=
    fun hc => (mem_hexText hc).2 (by decide)
  unfold checksumOk sentence tail
  rw [rpartition?_of_notMem hplain]
  dsimp only
  rw [intBase16?_hexText, String.toList_ofList]
  dsimp only
  exact decide_eq_true rfl

/-! ## The fields -/

/-- The fields with the tail on the last one. -/
def withTail (tail : List Char) : List (List Char) → List (List Char)
  | [] => []
  | [field] => [field ++ tail]
  | field :: next :: fields => field :: withTail tail (next :: fields)

theorem splitOn_withTail {fields : List (List Char)} {tail : List Char}
    (hfields : ∀ field ∈ fields, ',' ∉ field) (htail : ',' ∉ tail)
    {first : List Char} (hfirst : ',' ∉ first) :
    (first ++ (fields.flatMap fun field => ',' :: field) ++ tail).splitOn ',' =
      withTail tail (first :: fields) := by
  induction fields generalizing first with
  | nil =>
      have hwhole : ',' ∉ first ++ tail := by
        simp [hfirst, htail]
      rw [List.flatMap_nil, List.append_nil, List.splitOn_eq_singleton hwhole,
        withTail]
  | cons field fields ih =>
      obtain ⟨hfield, hrest⟩ := List.forall_mem_cons.mp hfields
      rw [List.flatMap_cons, List.append_assoc, List.append_assoc,
        List.cons_append, List.splitOn_append_cons_self_of_not_mem hfirst,
        ← List.append_assoc, ih hrest hfield, withTail]

/-- The field behind which the rest stands may have the tail. -/
theorem withTail_cons (tail field : List Char) (fields : List (List Char)) :
    ∃ head, (head = field ∨ head = field ++ tail) ∧
      withTail tail (field :: fields) =
        head :: (withTail tail (field :: fields)).drop 1 := by
  cases fields with
  | nil => exact ⟨field ++ tail, .inr rfl, rfl⟩
  | cons next fields => exact ⟨field, .inl rfl, rfl⟩

/-! ## The groups -/

theorem before_star {field : List Char} (hstar : '*' ∉ field)
    (behind : List Char) :
    before '*' (.ofList field) = .ofList field ∧
      before '*' (.ofList (field ++ '*' :: behind)) = .ofList field := by
  have hother : ∀ c ∈ field, (c != '*') = true := by
    intro c hc
    rw [bne_iff_ne]
    rintro rfl
    exact hstar hc
  unfold before
  rw [String.toList_ofList, String.toList_ofList,
    List.takeWhile_append_of_pos hother, List.takeWhile_cons_of_neg (by simp),
    List.append_nil, List.takeWhile_eq_self_iff.mpr hother]
  exact ⟨rfl, rfl⟩

theorem intOrZero?_text (d : Decimal) :
    intOrZero? (.ofList d.text) =
      if d.Fits then some (d.value : ℤ) else none := by
  have hne : (String.ofList d.text) ≠ "" := by
    intro hempty
    apply d.text_ne_nil
    rw [← String.toList_ofList (l := d.text), hempty]
    rfl
  rw [intOrZero?, if_neg hne, d.int?_text]

namespace WrittenSat

def Fits (s : WrittenSat) : Prop :=
  ∀ d ∈ s.numbers, d.Fits

instance : DecidablePred Fits :=
  fun s => inferInstanceAs (Decidable (∀ d ∈ s.numbers, d.Fits))

def fields (s : WrittenSat) : List (List Char) :=
  s.numbers.map Decimal.text

/-- A group is read when `int` takes its numbers, and skipped otherwise. -/
theorem gsvSat?_eq (s : WrittenSat) {snr : String}
    (hsnr : before '*' snr = .ofList s.snr.text) :
    gsvSat? (.ofList s.prn.text) (.ofList s.elev.text) (.ofList s.az.text)
      snr = if s.Fits then some s.sat else none := by
  have hpos : (s.prn.value : ℤ) ≠ 0 := by
    have hprn := s.prn_pos
    omega
  have hfits : s.Fits ↔
      s.prn.Fits ∧ s.elev.Fits ∧ s.az.Fits ∧ s.snr.Fits := by
    simp [Fits, numbers]
  unfold gsvSat?
  rw [hsnr]
  simp only [intOrZero?_text, bind_ite_none, if_neg hpos, hfits, ite_and]
  rfl

end WrittenSat

/-- The groups behind the number of satellites: those that `int` takes. -/
theorem gsvSats_withTail (sats : List WrittenSat) (behind : List Char)
    (first : List Char) :
    gsvSats (((withTail ('*' :: behind)
        (first :: sats.flatMap WrittenSat.fields)).drop 1).map .ofList) =
      (sats.filter fun s => s.Fits).map WrittenSat.sat := by
  induction sats generalizing first with
  | nil => rfl
  | cons s sats ih =>
      obtain ⟨last, hlast, hparts⟩ := withTail_cons ('*' :: behind)
        s.snr.text (sats.flatMap WrittenSat.fields)
      have hsnr : before '*' (.ofList last) = .ofList s.snr.text := by
        have hstar : '*' ∉ s.snr.text :=
          fun hc => (Decimal.mem_text hc).2.1 (by decide)
        rcases hlast with rfl | rfl
        · exact (before_star hstar behind).1
        · exact (before_star hstar behind).2
      have hgroup : (withTail ('*' :: behind)
          (first :: (s :: sats).flatMap WrittenSat.fields)).drop 1 =
          s.prn.text :: s.elev.text :: s.az.text :: last ::
            (withTail ('*' :: behind)
              (s.snr.text :: sats.flatMap WrittenSat.fields)).drop 1 := by
        rw [← hparts]
        rfl
      rw [hgroup, List.map_cons, List.map_cons, List.map_cons, List.map_cons,
        gsvSats, s.gsvSat?_eq hsnr, ih, List.filter_cons]
      by_cases hfits : s.Fits
      · simp [hfits]
      · simp [hfits]

/-! ## The sentence -/

namespace WrittenGsv

def Fits (g : WrittenGsv) : Prop :=
  ∀ d ∈ g.numbers, d.Fits

theorem comma_notMem_text (d : Decimal) : ',' ∉ d.text :=
  fun hc => (Decimal.mem_text hc).2.1 (by decide)

theorem splitOn_sentence (g : WrittenGsv) :
    (g.body ++ g.tail).splitOn ',' =
      g.header :: g.totalSent.text :: g.sentNum.text ::
        withTail g.tail
          (g.totalSv.text :: g.sats.flatMap WrittenSat.fields) := by
  have hheader : ',' ∉ g.header := by
    simp [header, g.talker_plain]
  have htail : ',' ∉ g.tail := by
    rw [tail, List.mem_cons, not_or]
    exact ⟨by decide, fun hc => (mem_hexText hc).2 (by decide)⟩
  have hfields : ∀ field ∈ g.numbers.map Decimal.text, ',' ∉ field := by
    rw [List.forall_mem_map]
    exact fun d _ => comma_notMem_text d
  have hbody : g.body = g.header ++
      (g.numbers.map Decimal.text).flatMap fun field => ',' :: field := by
    rw [body, List.flatMap_map]
  have hnumbers : g.numbers.map Decimal.text = g.totalSent.text ::
      g.sentNum.text :: g.totalSv.text ::
        g.sats.flatMap WrittenSat.fields := by
    rw [numbers, List.map_cons, List.map_cons, List.map_cons,
      List.map_flatMap]
    rfl
  rw [hbody, splitOn_withTail hfields htail hheader, hnumbers]
  rfl

theorem sentenceParts?_sentence (g : WrittenGsv) :
    sentenceParts? g.sentence 4 =
      some (((g.body ++ g.tail).splitOn ',').map .ofList) := by
  have hstart : startsWith g.sentence "$" = true := by
    unfold startsWith sentence
    rw [String.toList_ofList, String.toList_ofList]
    rfl
  have hstar : contains g.sentence "*" = true := by
    unfold contains sentence
    rw [String.toList_ofList, List.any_eq_true]
    exact ⟨g.tail, by simp, rfl⟩
  have hlength : ¬ (split ',' g.sentence).length < 4 := by
    unfold split sentence
    obtain ⟨field, -, hparts⟩ := withTail_cons g.tail
      g.totalSv.text (g.sats.flatMap WrittenSat.fields)
    rw [String.toList_ofList, splitOn_sentence, hparts]
    simp
  unfold sentenceParts?
  rw [hstart, hstar, g.checksumOk_sentence]
  simp only [Bool.and_self, if_true]
  rw [if_neg hlength]
  unfold split sentence
  rw [String.toList_ofList]

theorem fits_iff (g : WrittenGsv) :
    g.Fits ↔ g.totalSent.Fits ∧ g.sentNum.Fits ∧ g.totalSv.Fits ∧
      ∀ s ∈ g.sats, s.Fits := by
  unfold Fits numbers
  rw [List.forall_mem_cons, List.forall_mem_cons, List.forall_mem_cons,
    List.forall_mem_flatMap]
  rfl

/-- No group is skipped if and only if every group fits. -/
theorem sats_kept_iff (sats : List WrittenSat) :
    (sats.filter fun s => s.Fits).map WrittenSat.sat =
        sats.map WrittenSat.sat ↔ ∀ s ∈ sats, s.Fits := by
  constructor
  · intro hkept s hs
    have hlength := congrArg List.length hkept
    rw [List.length_map, List.length_map,
      List.length_filter_eq_length_iff] at hlength
    exact of_decide_eq_true (hlength s hs)
  · intro hfits
    rw [List.filter_eq_self.mpr fun s hs => decide_eq_true (hfits s hs)]

/-- A sentence with its checksum is read back exactly if it has a satellite
and `int` takes all its numbers. -/
theorem parseGsv_sentence_iff (g : WrittenGsv) :
    parseGsv g.sentence = some g.gsv ↔ g.sats ≠ [] ∧ g.Fits := by
  unfold parseGsv
  rw [g.sentenceParts?_sentence, g.splitOn_sentence, Option.bind_some,
    fits_iff]
  cases hsats : g.sats with
  | nil =>
      have hnumber : int? (.ofList (g.totalSv.text ++ g.tail)) = none := by
        apply Decimal.int?_star
        intro c hc
        obtain ⟨hspace, hplain⟩ := mem_hexText hc
        exact ⟨hspace, fun hsign =>
          hplain (List.mem_append_left ['x', 'X', '_', ',', '*'] hsign)⟩
      have hread : int? ((List.map String.ofList (g.header ::
          g.totalSent.text :: g.sentNum.text :: withTail g.tail
            (g.totalSv.text :: List.flatMap WrittenSat.fields []))).getD 3
              "") = none := hnumber
      dsimp only
      rw [hread]
      simp
  | cons s sats =>
      have hparts : withTail g.tail (g.totalSv.text ::
          (s :: sats).flatMap WrittenSat.fields) =
          g.totalSv.text :: withTail g.tail
            ((s :: sats).flatMap WrittenSat.fields) := rfl
      have hgroups := gsvSats_withTail (s :: sats)
        (hexText (checksum g.body)) g.totalSv.text
      rw [← tail, hparts] at hgroups
      have hsame : (⟨g.totalSent.value, g.sentNum.value, g.totalSv.value,
          ((s :: sats).filter fun sat => sat.Fits).map WrittenSat.sat⟩ :
            Gsv) = g.gsv ↔ ∀ sat ∈ s :: sats, sat.Fits := by
        rw [gsv, hsats, Gsv.mk.injEq, sats_kept_iff]
        simp only [true_and]
      rw [hparts]
      change ((int? (.ofList g.totalSent.text)).bind fun totalSent =>
        (int? (.ofList g.sentNum.text)).bind fun sentNum =>
          (int? (.ofList g.totalSv.text)).map fun totalSv =>
            (⟨totalSent, sentNum, totalSv, gsvSats (((g.totalSv.text ::
              withTail g.tail ((s :: sats).flatMap
                WrittenSat.fields)).drop 1).map .ofList)⟩ : Gsv)) = _ ↔ _
      rw [hgroups, Decimal.int?_text, Decimal.int?_text, Decimal.int?_text]
      simp only [bind_ite_none, map_ite_none, Option.ite_none_right_eq_some,
        Option.some.injEq, hsame, ne_eq, reduceCtorEq, not_false_eq_true,
        true_and]

/-- Nothing in view: the number of satellites is the last field. -/
def noSatellites : WrittenGsv where
  talker := ['G', 'P']
  totalSent := ⟨[1], by decide⟩
  sentNum := ⟨[1], by decide⟩
  totalSv := ⟨[0, 0], by decide⟩
  sats := []
  talker_plain := by decide

theorem parseGsv_noSatellites :
    noSatellites.sentence = "$GPGSV,1,1,00*79" ∧
      checksumOk noSatellites.sentence = true ∧
      parseGsv noSatellites.sentence = none := by
  decide +kernel

end WrittenGsv

end BabilCors
