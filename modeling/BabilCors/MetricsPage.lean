import BabilCors.ExpositionFormat
import BabilCors.HubTable
import BabilCors.RoverVerdicts
import BabilCors.ServerRuns

/-!
# The metrics page

`_send_metrics_prom` puts the name of a mountpoint into a label as it is.  The
names come from the hubs and from the counters of refused requests, whose paths
anybody can choose.
-/

namespace BabilCors

open Py TransitionRuns ExpositionFormat

variable {F : Type}

/-! ## The page -/

/-- A float as `repr` prints it: the digits of the fraction, and an exponent
by its sign and its size. -/
inductive FloatRepr where
  | nan
  | infinity (negative : Bool)
  | decimal (negative : Bool) (whole : ℕ) (fraction : List (Fin 10))
      (exponent : Option (Bool × ℕ))

def minus (negative : Bool) : List Char :=
  if negative then ['-'] else []

def FloatRepr.chars : FloatRepr → List Char
  | nan => "nan".toList
  | infinity negative => minus negative ++ "inf".toList
  | decimal negative whole fraction exponent =>
      minus negative ++ Nat.toDigits 10 whole ++
        (if fraction = [] then []
          else '.' :: fraction.map fun d => Nat.digitChar d.val) ++
        (exponent.elim [] fun e =>
          'e' :: ((if e.1 then ['-'] else ['+']) ++
            ((if e.2 < 10 then ['0'] else []) ++ Nat.toDigits 10 e.2)))

/-- `str(x)`. -/
def FloatRepr.text (x : FloatRepr) : String :=
  .ofList x.chars

structure RoverAges where
  connId : ℕ
  lastNmeaAge : Option FloatRepr
  nmeaToRtcmTimeDelta : Option FloatRepr

/-- What the snapshot of a hub holds beside the counters of its stream. -/
structure HubReadings where
  rtcmFramesTotal : ℕ
  rtcmCrcErrorsTotal : ℕ
  rtcmMsgCounts : List (ℕ × ℕ)
  stationId : ℕ
  antennaHeight : Option FloatRepr
  lastRtcmTimeAge : Option FloatRepr
  roverSamples : List RoverAges

/-- A line of the page, and the mountpoint whose counter it gives. -/
structure MetricLine where
  text : String
  owner : Option String

namespace MetricLine

def comment (words : String) : MetricLine :=
  ⟨"# " ++ words, none⟩

def total (metric value : String) : MetricLine :=
  ⟨metric ++ " " ++ value, none⟩

/-- `metric{mountpoint="mp"} value`, with one more label if there is one. -/
def counter (metric mp : String) (more : Option (String × String))
    (value : String) : MetricLine :=
  ⟨metric ++ "\x7b" ++
    ",".intercalate ((("mountpoint", mp) :: more.toList).map fun label =>
      label.1 ++ "=\"" ++ label.2 ++ "\"") ++
    "\x7d " ++ value, some mp⟩

end MetricLine

open MetricLine

def typedMetrics : List String :=
  ["TYPE caster_mountpoint_source_up gauge",
    "TYPE caster_mountpoint_rovers gauge",
    "TYPE caster_mountpoint_rx_bytes_total counter",
    "TYPE caster_mountpoint_tx_bytes_total counter",
    "TYPE caster_mountpoint_dropped_bytes_total counter",
    "TYPE caster_mountpoint_rtcm_frames_total counter",
    "TYPE caster_mountpoint_rtcm_crc_errors_total counter",
    "TYPE caster_mountpoint_rtcm_messages_total counter",
    "TYPE caster_mountpoint_station_id gauge",
    "TYPE caster_mountpoint_antenna_height_m gauge",
    "TYPE caster_mountpoint_last_rtcmtime_age_seconds gauge",
    "TYPE caster_rover_last_nmea_age_seconds gauge",
    "TYPE caster_rover_nmea_to_rtcmtime_delta_seconds gauge"]

def streamLines (mp : String) (hub : MountpointHub) : List MetricLine :=
  [counter "caster_mountpoint_source_up" mp none
      (if hub.sourceAddr.isSome then "1" else "0"),
    counter "caster_mountpoint_rovers" mp none (toString hub.rovers.length),
    counter "caster_mountpoint_rx_bytes_total" mp none (toString hub.rxBytes),
    counter "caster_mountpoint_tx_bytes_total" mp none
      (toString hub.txBytesTotal),
    counter "caster_mountpoint_dropped_bytes_total" mp none
      (toString hub.droppedBytesTotal)]

def rtcmLines (mp : String) (r : HubReadings) : List MetricLine :=
  [counter "caster_mountpoint_rtcm_frames_total" mp none
      (toString r.rtcmFramesTotal),
    counter "caster_mountpoint_rtcm_crc_errors_total" mp none
      (toString r.rtcmCrcErrorsTotal)] ++
  (r.rtcmMsgCounts.map fun entry =>
    counter "caster_mountpoint_rtcm_messages_total" mp
      (some ("type", toString entry.1)) (toString entry.2)) ++
  (if r.stationId = 0 then []
    else [counter "caster_mountpoint_station_id" mp none
      (toString r.stationId)]) ++
  (r.antennaHeight.map fun x =>
    counter "caster_mountpoint_antenna_height_m" mp none x.text).toList ++
  (r.lastRtcmTimeAge.map fun x =>
    counter "caster_mountpoint_last_rtcmtime_age_seconds" mp none
      x.text).toList

def roverLines (mp : String) (s : RoverAges) : List MetricLine :=
  let conn := some ("conn_id", toString s.connId)
  (s.lastNmeaAge.map fun x =>
    counter "caster_rover_last_nmea_age_seconds" mp conn x.text).toList ++
  (s.nmeaToRtcmTimeDelta.map fun x =>
    counter "caster_rover_nmea_to_rtcmtime_delta_seconds" mp conn
      x.text).toList

def hubLines (readings : String → HubReadings)
    (entry : String × MountpointHub) : List MetricLine :=
  streamLines entry.1 entry.2 ++ rtcmLines entry.1 (readings entry.1) ++
    ((readings entry.1).roverSamples.take 10).flatMap (roverLines entry.1)

def refusedLine (entry : String × ℕ) : MetricLine :=
  counter "caster_auth_unauthorized_total" entry.1 none (toString entry.2)

/-- The lines that `_send_metrics_prom` builds. -/
def Caster.metricsLines (c : Caster F) (readings : String → HubReadings) :
    List MetricLine :=
  [comment "HELP caster_rovers_total Current total rover sessions",
    comment "TYPE caster_rovers_total gauge",
    total "caster_rovers_total" (toString c.roverTotal)] ++
  typedMetrics.map comment ++ c.mountpoints.flatMap (hubLines readings) ++
  [comment "TYPE caster_auth_unauthorized_total counter",
    total "caster_auth_unauthorized_total" (toString c.authUnauthTotal)] ++
  c.authUnauthPerMp.map refusedLine ++
  [comment "TYPE caster_source_unauthorized_total counter",
    total "caster_source_unauthorized_total" (toString c.sourceUnauthTotal)]

def pageBody (lines : List MetricLine) : String :=
  "\n".intercalate (lines.map MetricLine.text) ++ "\n"

/-! ## What a well-formed page is -/

/-- A comment, or a valid sample that names its mountpoint. -/
def MetricLine.WellFormed (line : MetricLine) : Prop :=
  line.text.toList.head? = some '#' ∨
    match line.owner with
    | none => ∃ s : Sample, s.Valid ∧ s.text = line.text.toList
    | some mp =>
        Sample.Gives line.text.toList "mountpoint".toList mp.toList

/-- The body falls into these lines, and each is well formed. -/
def WellFormedPage (lines : List MetricLine) : Prop :=
  (pageBody lines).toList.splitOn '\n' =
      lines.map (fun line => line.text.toList) ++ [[]] ∧
    ∀ line ∈ lines, line.WellFormed

/-! ## The numbers -/

theorem isDigits_toDigits (n : ℕ) : IsDigits (Nat.toDigits 10 n) :=
  ⟨Nat.toDigits_ne_nil,
    fun _ hc => Nat.isDigit_of_mem_toDigits (by decide) (by decide) hc⟩

theorem isNumber_nat (n : ℕ) : IsNumber (toString n).toList := by
  have hnumber := IsNumber.decimal [] (Nat.toDigits 10 n) [] [] (by decide)
    (isDigits_toDigits n) (.inl rfl) (.inl rfl)
  simpa [Nat.toString_eq_repr, Nat.toList_repr] using hnumber

theorem minus_mem (negative : Bool) : minus negative ∈ signs := by
  cases negative <;> decide

theorem isDigits_map_digitChar {digits : List (Fin 10)}
    (hdigits : digits ≠ []) :
    IsDigits (digits.map fun d => Nat.digitChar d.val) := by
  refine ⟨fun h => hdigits (List.map_eq_nil_iff.mp h), ?_⟩
  have hall : ∀ d : Fin 10, (Nat.digitChar d.val).isDigit = true := by
    decide
  rw [List.forall_mem_map]
  exact fun d _ => hall d

theorem isNumber_float (x : FloatRepr) : IsNumber x.text.toList := by
  unfold FloatRepr.text
  rw [String.toList_ofList]
  cases x with
  | nan => exact .nan
  | infinity negative => exact .infinity _ (minus_mem negative)
  | decimal negative whole fraction exponent =>
      refine .decimal _ _ _ _ (minus_mem negative) (isDigits_toDigits whole)
        ?_ ?_
      · split_ifs with hfraction
        · exact .inl rfl
        · exact .inr ⟨_, isDigits_map_digitChar hfraction, rfl⟩
      · rcases exponent with _ | ⟨negative', size⟩
        · exact .inl rfl
        · refine .inr ⟨_, ?_, _, ?_, rfl⟩
          · cases negative' <;> simp [signs]
          · have hsize := isDigits_toDigits size
            split_ifs
            · refine ⟨by simp, ?_⟩
              exact List.forall_mem_cons.mpr ⟨by decide, hsize.2⟩
            · exact hsize

theorem plain_nat (n : ℕ) : Plain (toString n).toList := by
  intro c hc
  have hdigit : c.isDigit = true := by
    rw [Nat.toString_eq_repr, Nat.toList_repr] at hc
    exact (isDigits_toDigits n).2 c hc
  refine ⟨?_, ?_, ?_⟩ <;>
  · rintro rfl
    exact absurd hdigit (by decide)

/-! ## The lines -/

/-- A comment, a sample without labels, or the line of a counter whose first
label is the name of its mountpoint, written as it is. -/
inductive MetricLine.Kind (line : MetricLine) : Prop
  | comment (hhash : line.text.toList.head? = some '#')
      (hline : '\n' ∉ line.text.toList) (howner : line.owner = none)
  | total (s : Sample) (hvalid : s.Valid) (hlabels : s.labels = [])
      (htext : line.text.toList = s.rawText) (howner : line.owner = none)
  | counter (mp : String) (s : Sample) (hvalid : s.Valid)
      (labels : List (List Char × List Char))
      (hlabels : s.labels = ("mountpoint".toList, mp.toList) :: labels)
      (hplain : ∀ label ∈ labels, Plain label.2)
      (htext : line.text.toList = s.rawText) (howner : line.owner = some mp)

theorem total_kind {metric value : String}
    (hmetric : IsName isMetricChar metric.toList)
    (hvalue : IsNumber value.toList) :
    (MetricLine.total metric value).Kind := by
  refine .total ⟨metric.toList, [], value.toList⟩ ⟨hmetric, ?_, ?_, hvalue⟩
    rfl ?_ rfl
  · simp
  · simp
  · simp [MetricLine.total, Sample.rawText, Sample.line]

theorem counter_kind {metric mp value : String}
    {more : Option (String × String)}
    (hmetric : IsName isMetricChar metric.toList)
    (hmore : ∀ label ∈ more, IsName isLabelChar label.1.toList ∧
      label.1 ≠ "mountpoint" ∧ Plain label.2.toList)
    (hvalue : IsNumber value.toList) :
    (MetricLine.counter metric mp more value).Kind := by
  have hmountpoint : IsName isLabelChar "mountpoint".toList := by
    decide
  let labels := more.toList.map fun label => (label.1.toList, label.2.toList)
  refine .counter mp
    ⟨metric.toList, ("mountpoint".toList, mp.toList) :: labels, value.toList⟩
    ⟨hmetric, ?_, ?_, hvalue⟩ labels rfl ?_ ?_ rfl
  · refine List.forall_mem_cons.mpr ⟨hmountpoint, ?_⟩
    rw [List.forall_mem_map]
    exact fun label hlabel => (hmore label (by simpa using hlabel)).1
  · cases more with
    | none => simp [labels]
    | some label =>
        have hne := (hmore label rfl).2.1
        have hne' : "mountpoint".toList ≠ label.1.toList :=
          fun h => hne (String.toList_inj.mp h).symm
        simpa [labels] using hne'
  · rw [List.forall_mem_map]
    exact fun label hlabel => (hmore label (by simpa using hlabel)).2.2
  · have hquote : quote = '\x22' := rfl
    cases more <;>
      simp [MetricLine.counter, Sample.rawText, Sample.line, Sample.pair,
        labels, hquote, List.intercalate]

theorem comment_kind {words : String} (hline : '\n' ∉ words.toList) :
    (MetricLine.comment words).Kind := by
  have htext : (MetricLine.comment words).text.toList =
      '#' :: ' ' :: words.toList := by
    simp [MetricLine.comment]
  refine .comment ?_ ?_ rfl
  · rw [htext]
    rfl
  · rw [htext]
    simpa using hline

/-- The line of a counter with no further label.  The name is given by its
characters, since deciding about a literal would decode it first. -/
theorem plainCounter_kind {metric : List Char} {mp value : String}
    (hmetric : IsName isMetricChar metric) (hvalue : IsNumber value.toList) :
    (MetricLine.counter (.ofList metric) mp none value).Kind := by
  rw [← String.toList_ofList (l := metric)] at hmetric
  exact counter_kind hmetric (by simp) hvalue

theorem numberedCounter_kind {metric : List Char} {mp key value : String}
    (n : ℕ) (hmetric : IsName isMetricChar metric)
    (hkey : IsName isLabelChar key.toList) (hne : key ≠ "mountpoint")
    (hvalue : IsNumber value.toList) :
    (MetricLine.counter (.ofList metric) mp (some (key, toString n))
      value).Kind := by
  rw [← String.toList_ofList (l := metric)] at hmetric
  refine counter_kind hmetric ?_ hvalue
  intro label hlabel
  obtain rfl := Option.some.inj hlabel
  exact ⟨hkey, hne, plain_nat n⟩

/-- The line is one of this mountpoint. -/
def MetricLine.Of (mp : String) (line : MetricLine) : Prop :=
  line.Kind ∧ line.owner = some mp

theorem floatLine_of {mp : String} {x? : Option FloatRepr}
    {line : FloatRepr → MetricLine} (hline : ∀ x, (line x).Of mp) :
    ∀ l ∈ (x?.map line).toList, l.Of mp := by
  intro l hl
  rcases Option.map_eq_some_iff.mp (Option.mem_toList.mp hl) with ⟨x, _, rfl⟩
  exact hline x

theorem streamLines_of (mp : String) (hub : MountpointHub) :
    ∀ line ∈ streamLines mp hub, line.Of mp := by
  have hup : IsNumber (if hub.sourceAddr.isSome then "1" else "0").toList := by
    split_ifs
    · exact isNumber_nat 1
    · exact isNumber_nat 0
  simp only [streamLines, List.forall_mem_cons]
  exact ⟨⟨plainCounter_kind (by decide +kernel) hup, rfl⟩,
    ⟨plainCounter_kind (by decide +kernel) (isNumber_nat _), rfl⟩,
    ⟨plainCounter_kind (by decide +kernel) (isNumber_nat _), rfl⟩,
    ⟨plainCounter_kind (by decide +kernel) (isNumber_nat _), rfl⟩,
    ⟨plainCounter_kind (by decide +kernel) (isNumber_nat _), rfl⟩,
    List.forall_mem_nil _⟩

theorem rtcmLines_of (mp : String) (r : HubReadings) :
    ∀ line ∈ rtcmLines mp r, line.Of mp := by
  simp only [rtcmLines, List.forall_mem_append, List.forall_mem_cons,
    List.forall_mem_map]
  refine ⟨⟨⟨⟨⟨⟨?_, rfl⟩, ⟨?_, rfl⟩, List.forall_mem_nil _⟩, ?_⟩, ?_⟩, ?_⟩, ?_⟩
  · exact plainCounter_kind (by decide +kernel) (isNumber_nat _)
  · exact plainCounter_kind (by decide +kernel) (isNumber_nat _)
  · intro entry _
    exact ⟨numberedCounter_kind entry.1 (by decide +kernel)
      (by decide) (by decide) (isNumber_nat _), rfl⟩
  · split_ifs
    · exact List.forall_mem_nil _
    · exact List.forall_mem_singleton.mpr
        ⟨plainCounter_kind (by decide +kernel) (isNumber_nat _), rfl⟩
  · exact floatLine_of fun x =>
      ⟨plainCounter_kind (by decide +kernel) (isNumber_float x), rfl⟩
  · exact floatLine_of fun x =>
      ⟨plainCounter_kind (by decide +kernel) (isNumber_float x), rfl⟩

theorem roverLines_of (mp : String) (s : RoverAges) :
    ∀ line ∈ roverLines mp s, line.Of mp := by
  simp only [roverLines, List.forall_mem_append]
  refine ⟨floatLine_of fun x => ⟨?_, rfl⟩, floatLine_of fun x => ⟨?_, rfl⟩⟩
  · exact numberedCounter_kind s.connId (by decide +kernel)
      (by decide) (by decide) (isNumber_float x)
  · exact numberedCounter_kind s.connId (by decide +kernel)
      (by decide) (by decide) (isNumber_float x)

theorem hubLines_of (readings : String → HubReadings)
    (entry : String × MountpointHub) :
    ∀ line ∈ hubLines readings entry, line.Of entry.1 := by
  simp only [hubLines, List.forall_mem_append]
  refine ⟨⟨streamLines_of _ _, rtcmLines_of _ _⟩, ?_⟩
  intro line hline
  rcases List.mem_flatMap.mp hline with ⟨s, _, hs⟩
  exact roverLines_of entry.1 s line hs

theorem wellFormed_of_ownerless {line : MetricLine} (hkind : line.Kind)
    (howner : line.owner = none) :
    line.WellFormed ∧ '\n' ∉ line.text.toList := by
  cases hkind with
  | comment hhash hline _ => exact ⟨.inl hhash, hline⟩
  | total s hvalid hlabels htext _ =>
      have hsame : s.rawText = s.text :=
        Sample.rawText_eq_text (by simp [hlabels])
      rw [hsame] at htext
      refine ⟨.inr ?_, ?_⟩
      · rw [howner]
        exact ⟨s, hvalid, htext.symm⟩
      · rw [htext]
        exact Sample.newline_notMem_text hvalid
  | counter mp s _ labels _ _ _ hmine =>
      rw [howner] at hmine
      cases hmine

/-- The line of a counter is well formed exactly if the name is plain. -/
theorem wellFormed_of_owner {line : MetricLine} {mp : String}
    (hline : line.Of mp) :
    (line.WellFormed ↔ Plain mp.toList) ∧
      (Plain mp.toList → '\n' ∉ line.text.toList) := by
  rcases hline with ⟨hkind, howner⟩
  cases hkind with
  | comment hhash _ hnone =>
      rw [howner] at hnone
      cases hnone
  | total s hvalid hlabels htext hnone =>
      rw [howner] at hnone
      cases hnone
  | counter mp' s hvalid labels hlabels hplain htext hmine =>
      rw [howner] at hmine
      obtain rfl := Option.some.inj hmine
      have hhash : s.rawText.head? ≠ some '#' := by
        intro hhead
        rcases hvalid.name with ⟨hne, hok, _⟩
        cases hname : s.name with
        | nil => exact hne hname
        | cons c cs =>
            have hc := hok c (by simp [hname])
            have hfirst : s.rawText.head? = some c := by
              simp [Sample.rawText, Sample.line, hname]
            rw [hfirst] at hhead
            obtain rfl := Option.some.inj hhead
            exact absurd hc (by decide)
      have hgives := Sample.gives_rawText_iff hvalid hlabels hplain
      constructor
      · unfold MetricLine.WellFormed
        rw [howner, htext, or_iff_right hhash]
        exact hgives
      · intro hmp
        have hsame : s.rawText = s.text := Sample.rawText_eq_text (by
          rw [hlabels]
          exact List.forall_mem_cons.mpr ⟨hmp, hplain⟩)
        rw [htext, hsame]
        exact Sample.newline_notMem_text hvalid

namespace Caster

/-- The names that the page has a counter of. -/
def metricNames (c : Caster F) : List String :=
  c.mountpoints.keys ++ c.authUnauthPerMp.keys

/-- A comment or a total, which belongs to no mountpoint. -/
def Ownerless (line : MetricLine) : Prop :=
  line.Kind ∧ line.owner = none

theorem comment_ownerless {words : List Char} (hline : '\n' ∉ words) :
    Ownerless (MetricLine.comment (.ofList words)) := by
  rw [← String.toList_ofList (l := words)] at hline
  exact ⟨comment_kind hline, rfl⟩

theorem total_ownerless {metric : List Char}
    (hmetric : IsName isMetricChar metric) (n : ℕ) :
    Ownerless (MetricLine.total (.ofList metric) (toString n)) := by
  rw [← String.toList_ofList (l := metric)] at hmetric
  exact ⟨total_kind hmetric (isNumber_nat n), rfl⟩

theorem typedMetrics_ownerless :
    ∀ line ∈ typedMetrics.map comment, Ownerless line := by
  unfold typedMetrics
  repeat
    refine List.forall_mem_cons.mpr
      ⟨comment_ownerless (by decide +kernel), ?_⟩
  exact List.forall_mem_nil _

/-- Every line of the page belongs to no mountpoint or to one of the names. -/
theorem metricsLines_cases {c : Caster F} {readings : String → HubReadings}
    {line : MetricLine} (hline : line ∈ c.metricsLines readings) :
    Ownerless line ∨ ∃ mp ∈ c.metricNames, line.Of mp := by
  simp only [metricsLines, List.mem_append, List.mem_cons, List.not_mem_nil,
    or_false] at hline
  rcases hline with ((((hfirst | htype) | hhub) | htotal) | hrefused) | hlast
  · left
    rcases hfirst with rfl | rfl | rfl
    · exact comment_ownerless (by decide +kernel)
    · exact comment_ownerless (by decide +kernel)
    · exact total_ownerless (by decide +kernel) _
  · exact .inl (typedMetrics_ownerless line htype)
  · rcases List.mem_flatMap.mp hhub with ⟨entry, hentry, hmem⟩
    refine .inr ⟨entry.1, ?_, hubLines_of readings entry line hmem⟩
    exact List.mem_append_left _ (List.mem_map_of_mem hentry)
  · left
    rcases htotal with rfl | rfl
    · exact comment_ownerless (by decide +kernel)
    · exact total_ownerless (by decide +kernel) _
  · rcases List.mem_map.mp hrefused with ⟨entry, hentry, rfl⟩
    refine .inr ⟨entry.1, ?_,
      plainCounter_kind (by decide +kernel) (isNumber_nat _), rfl⟩
    exact List.mem_append_right _ (List.mem_map_of_mem hentry)
  · left
    rcases hlast with rfl | rfl
    · exact comment_ownerless (by decide +kernel)
    · exact total_ownerless (by decide +kernel) _

theorem exists_line_of_name {c : Caster F} {mp : String}
    (hmp : mp ∈ c.metricNames) (readings : String → HubReadings) :
    ∃ line ∈ c.metricsLines readings, line.Of mp := by
  unfold metricsLines
  rcases List.mem_append.mp hmp with hhub | hrefused
  · rcases List.mem_map.mp hhub with ⟨entry, hentry, rfl⟩
    have hline : counter "caster_mountpoint_source_up" entry.1 none
        (if entry.2.sourceAddr.isSome then "1" else "0") ∈
          hubLines readings entry := by
      simp [hubLines, streamLines]
    refine ⟨_, ?_, hubLines_of readings entry _ hline⟩
    have hmem := List.mem_flatMap.mpr ⟨entry, hentry, hline⟩
    simp only [List.mem_append]
    exact .inl (.inl (.inl (.inr hmem)))
  · rcases List.mem_map.mp hrefused with ⟨entry, hentry, rfl⟩
    refine ⟨refusedLine entry, ?_,
      plainCounter_kind (by decide +kernel) (isNumber_nat _), rfl⟩
    simp only [List.mem_append]
    exact .inl (.inr (List.mem_map_of_mem hentry))

theorem splitOn_pageBody {lines : List MetricLine} (hne : lines ≠ [])
    (hlines : ∀ line ∈ lines, '\n' ∉ line.text.toList) :
    (pageBody lines).toList.splitOn '\n' =
      lines.map (fun line => line.text.toList) ++ [[]] := by
  have hbody : (pageBody lines).toList = ['\n'].intercalate
      (lines.map (fun line => line.text.toList) ++ [[]]) := by
    have hjoin := String.intercalate_append_of_ne_nil
      (l := lines.map MetricLine.text) (m := [""]) (s := "\n")
      (by simpa using hne) (by simp)
    rw [String.intercalate_singleton, String.append_empty] at hjoin
    unfold pageBody
    rw [← hjoin, String.toList_intercalate]
    simp [Function.comp_def]
  rw [hbody, List.splitOn_intercalate]
  · intro l hl
    rcases List.mem_append.mp hl with hl | hl
    · rcases List.mem_map.mp hl with ⟨line, hline, rfl⟩
      exact hlines line hline
    · rw [List.mem_singleton.mp hl]
      exact List.not_mem_nil
  · simp

/-- The page is well formed exactly if every name is plain. -/
theorem metricsPage_wellFormed_iff (c : Caster F)
    (readings : String → HubReadings) :
    WellFormedPage (c.metricsLines readings) ↔
      ∀ mp ∈ c.metricNames, Plain mp.toList := by
  constructor
  · rintro ⟨_, hlines⟩ mp hmp
    rcases exists_line_of_name hmp readings with
      ⟨line, hline, hof⟩
    exact (wellFormed_of_owner hof).1.mp (hlines line hline)
  · intro hnames
    have hlines : ∀ line ∈ c.metricsLines readings,
        line.WellFormed ∧ '\n' ∉ line.text.toList := by
      intro line hline
      rcases metricsLines_cases hline with ⟨hkind, howner⟩ | ⟨mp, hmp, hof⟩
      · exact wellFormed_of_ownerless hkind howner
      · rcases wellFormed_of_owner hof with ⟨hiff, hnewline⟩
        exact ⟨hiff.mpr (hnames mp hmp), hnewline (hnames mp hmp)⟩
    refine ⟨splitOn_pageBody ?_ fun line hline => (hlines line hline).2,
      fun line hline => (hlines line hline).1⟩
    simp [metricsLines]

end Caster

end BabilCors
