import BabilCors.HttpRequests
import BabilCors.RoverShadow
import BabilCors.WrittenSentences

/-!
# The stream of a rover

A receiver writes one sentence after another, each with its line end.  The read
loop of the caster takes them from the stream one by one, as what they were
written for, and the shadow of the rover shows what has been written last.
-/

namespace BabilCors

open Py

theorem StreamReader.readline_shorter {r r' : StreamReader}
    {line : List UInt8} (hread : r.readline = .ok (some (line, r')))
    (hne : line ≠ []) : r'.buffer.length < r.buffer.length := by
  have hpos := List.length_pos_iff.mpr hne
  cases r.lineRead_of_readline hread with
  | ended line rest hline hbuffer =>
      rw [hbuffer, List.length_append]
      exact Nat.lt_add_of_pos_left hpos
  | cut _ => exact hpos

/-- The lines that `readline` gives one after another, and the exception that
ends them, if one does. -/
def StreamReader.lines (r : StreamReader) :
    List (List UInt8) × Option PyErr :=
  match _hread : r.readline with
  | .error e => ([], some e)
  | .ok none => ([], none)
  | .ok (some (line, r')) =>
      if _hne : line = [] then ([], none)
      else (line :: r'.lines.1, r'.lines.2)
termination_by r.buffer.length
decreasing_by all_goals exact readline_shorter _hread _hne

/-- The names of sentences in the order in which the loop looks for them. -/
def lineNames : List String := ["RMC", "VTG", "ZDA", "GGA", "GSA", "GSV"]

/-- The sentence that the parser of the name reads. -/
def readAs (name line : String) : Option (Sentence ℚ) :=
  if name = "RMC" then (parseRmc line).map .rmc
  else if name = "VTG" then (parseVtg line).map .vtg
  else if name = "ZDA" then (parseZda line).map .zda
  else if name = "GGA" then (parseGga line).map .gga
  else if name = "GSA" then (parseGsa line).map .gsa
  else (parseGsv line).map .gsv

theorem sentenceOf_eq {lineB : List UInt8} {line : String}
    (hline : strip (safeDecode lineB) = line)
    (hstart : startsWith line "$" = true) :
    sentenceOf lineB = ((lineNames.find? (contains line)).bind fun name =>
      readAs name line).getD .other := by
  unfold sentenceOf lineNames
  dsimp only
  rw [hline, hstart]
  simp only [List.find?_cons, List.find?_nil]
  cases contains line "RMC"
  swap
  · rfl
  cases contains line "VTG"
  swap
  · rfl
  cases contains line "ZDA"
  swap
  · rfl
  cases contains line "GGA"
  swap
  · rfl
  cases contains line "GSA"
  swap
  · rfl
  cases contains line "GSV"
  · rfl
  · rfl

/-! ## Lines of all kinds -/

inductive WrittenLine where
  | rmc (g : WrittenRmc)
  | vtg (g : WrittenVtg)
  | zda (g : WrittenZda)
  | gga (g : WrittenGga)
  | gsa (g : WrittenGsa)
  | gsv (g : WrittenGsv)

def WrittenGsv.frame (g : WrittenGsv) : WrittenSentence where
  talker := g.talker
  name := ['G', 'S', 'V']
  fields := g.numbers.map Decimal.text
  header_plain := by simp [g.talker_plain]
  fields_plain := by
    rw [List.forall_mem_map]
    exact fun d _ => comma_notMem_text d

theorem WrittenGsv.text_frame (g : WrittenGsv) :
    g.frame.text = g.sentence := by
  have hbody : g.frame.body = g.body := by
    unfold WrittenSentence.body body frame
    rw [List.flatMap_map]
    rfl
  unfold WrittenSentence.text WrittenSentence.tail sentence tail
  rw [hbody]

namespace WrittenLine

def frame : WrittenLine → WrittenSentence
  | .rmc g => g.sentence
  | .vtg g => g.sentence
  | .zda g => g.sentence
  | .gga g => g.sentence
  | .gsa g => g.sentence
  | .gsv g => g.frame

/-- What the line says. -/
def meaning : WrittenLine → Sentence ℚ
  | .rmc g => .rmc g.rmc
  | .vtg g => .vtg g.vtg
  | .zda g => .zda g.zda
  | .gga g => .gga g.gga
  | .gsa g => .gsa g.gsa
  | .gsv g => .gsv g.gsv

/-- The numbers are short enough for `int`. -/
def Fits : WrittenLine → Prop
  | .rmc _ => True
  | .vtg _ => True
  | .zda g => g.Fits
  | .gga g => g.Fits
  | .gsa g => g.Fits
  | .gsv g => g.sats ≠ [] ∧ g.Fits

def bytes (w : WrittenLine) : List UInt8 :=
  utf8Encode (w.frame.text ++ "\r\n")

/-- What a receiver may send: one line, not too long, with no other name in
front of its own. -/
structure Sent (w : WrittenLine) : Prop where
  fits : w.Fits
  named : lineNames.find? (contains w.frame.text) = some (.ofList w.frame.name)
  one_line : '\n' ∉ w.frame.text.toList
  short : w.bytes.length ≤ 1024

theorem readAs_text {w : WrittenLine} (hfits : w.Fits) :
    readAs (.ofList w.frame.name) w.frame.text = some w.meaning := by
  cases w with
  | rmc g =>
      change (parseRmc g.sentence.text).map Sentence.rmc = _
      rw [g.parseRmc_text]
      rfl
  | vtg g =>
      change (parseVtg g.sentence.text).map Sentence.vtg = _
      rw [g.parseVtg_text]
      rfl
  | zda g =>
      change (parseZda g.sentence.text).map Sentence.zda = _
      rw [WrittenZda.parseZda_text hfits]
      rfl
  | gga g =>
      change (parseGga g.sentence.text).map Sentence.gga = _
      rw [WrittenGga.parseGga_text hfits]
      rfl
  | gsa g =>
      change (parseGsa g.sentence.text).map Sentence.gsa = _
      rw [WrittenGsa.parseGsa_text hfits]
      rfl
  | gsv g =>
      change (parseGsv g.frame.text).map Sentence.gsv = _
      rw [g.text_frame, WrittenGsv.parseGsv_of_fits hfits.1 hfits.2]
      rfl

end WrittenLine

theorem strip_lineEnd {c : Char} (hc : isSpace c = false) (cs : List Char) :
    strip (.ofList (c :: cs) ++ "\r\n") = strip (.ofList (c :: cs)) := by
  have hlist : (String.ofList (c :: cs) ++ "\r\n").toList =
      c :: cs ++ ['\r'] ++ ['\n'] := by
    rw [String.toList_append, String.toList_ofList, List.append_assoc]
    rfl
  have hlead (more : List Char) :
      (c :: more).dropWhile isSpace = c :: more :=
    List.dropWhile_cons_of_neg (by simp [hc])
  unfold strip
  rw [hlist, String.toList_ofList, List.cons_append, List.cons_append, hlead,
    hlead, ← List.cons_append, List.rdropWhile_concat_pos _ _ _ (by decide),
    ← List.cons_append, List.rdropWhile_concat_pos _ _ _ (by decide)]

theorem WrittenSentence.strip_line (w : WrittenSentence) :
    strip (w.text ++ "\r\n") = w.text := by
  have hlast : ∀ c ∈ w.tail, isSpace c = false := by
    intro c hc
    rcases List.mem_cons.mp hc with rfl | hhex
    · decide
    · exact (mem_hexText hhex).1
  have htail : w.tail ≠ [] := List.cons_ne_nil _ _
  have htext : w.body ++ w.tail = '$' :: (w.body ++ w.tail).drop 1 := rfl
  unfold text
  rw [htext, strip_lineEnd (by decide), ← htext]
  apply strip_of_ends
  · intro c hc
    rw [htext, List.head?_cons] at hc
    obtain rfl := Option.some.inj hc
    decide
  · intro c hc
    rw [List.getLast?_append_of_ne_nil _ htail] at hc
    exact hlast c (List.mem_of_getLast? hc)

namespace WrittenLine

theorem sentenceOf_bytes {w : WrittenLine} (hsent : w.Sent) :
    sentenceOf w.bytes = w.meaning := by
  have hline : strip (safeDecode w.bytes) = w.frame.text := by
    rw [bytes, safeDecode_utf8Encode, w.frame.strip_line]
  rw [sentenceOf_eq hline w.frame.startsWith_text, hsent.named,
    Option.bind_some, readAs_text hsent.fits]
  rfl

theorem isLine_bytes {w : WrittenLine} (hsent : w.Sent) : IsLine w.bytes := by
  refine ⟨utf8Encode w.frame.text ++ [13], ?_, ?_⟩
  · rw [List.mem_append, not_or]
    exact ⟨newline_notMem_utf8Encode hsent.one_line, by decide⟩
  · rw [bytes, utf8Encode_eq, utf8Encode_eq, String.toList_append,
      List.flatMap_append, List.append_assoc]
    rfl

/-- The digits of a text. -/
def digitsOf (cs : List Char) : List (Fin 10) :=
  cs.filterMap fun c =>
    let n := c.toNat - 48
    if h : n < 10 then some ⟨n, h⟩ else none

/-- A position of 48 degrees north, 11 east. -/
def positionLine : WrittenLine :=
  .gga
    { talker := ['G', 'N']
      time := ['1', '2', '3', '5', '1', '9']
      lat := ⟨digitsOf ['4', '8'], digitsOf ['0', '7'],
        some (digitsOf ['0', '3', '8']), rfl, rfl⟩
      south := false
      lon := ⟨digitsOf ['0', '1', '1'], digitsOf ['3', '1'],
        some (digitsOf ['0', '0', '0']), rfl, rfl⟩
      west := false
      fixQ := ⟨digitsOf ['1'], by decide⟩
      nsat := some ⟨digitsOf ['0', '8'], by decide⟩
      hdop := some ⟨digitsOf ['0'], some (digitsOf ['9']), by decide⟩
      rest := [['5', '4', '5', '.', '4'], ['M'], ['4', '6', '.', '9'], ['M'],
        [], []]
      rest_length := by decide
      talker_plain := by decide
      time_plain := by decide
      rest_plain := by decide }

theorem positionLine_sent : positionLine.Sent where
  fits := ⟨by decide, by
    intro d hd
    obtain rfl := Option.mem_some.mp hd
    decide⟩
  named := by decide +kernel
  one_line := by decide +kernel
  short := by decide +kernel

end WrittenLine

/-! ## What the shadow shows -/

theorem Sentence.get?_fields {x : Sentence ℚ} {key : String} {value : Json ℚ}
    (hvalue : x.fields.get? key = some value) : key ∈ sentenceKeys := by
  have hkey : key ∈ x.fields.keys := by
    rw [← PyDict.get?_isSome_iff, hvalue]
    rfl
  have hall : ∀ k ∈ x.fields.keys, k ∈ sentenceKeys := by
    cases x with
    | gga x =>
        change ∀ k ∈ ["lat", "lon", "fixq", "nsat", "hdop"], k ∈ sentenceKeys
        decide
    | gsa x =>
        change ∀ k ∈ ["fix_type", "pdop", "hdop", "vdop", "used"],
          k ∈ sentenceKeys
        decide
    | other | rmc _ | vtg _ | zda _ | gsv _ => exact List.forall_mem_nil _
  exact hall key hkey

namespace ReaderPool

open TransitionRuns

variable [PyMath ℚ]

omit [PyMath ℚ] in
theorem heard_line {pool : ReaderPool ℚ} {i : ℕ} {r : RoverReader ℚ}
    (hreader : pool.readers[i]? = some r) (hreading : r.session.reading = true)
    {w : WrittenLine} (hsent : w.Sent) (now : ℕ → ℚ) (tsMs : ℤ) :
    pool.heard r.env.deviceId (.line i ⟨w.bytes, now⟩ tsMs) = [w.meaning] := by
  have htakes : r.session.takes ⟨w.bytes, now⟩ = true := by
    have hne : w.bytes ≠ [] :=
      List.ne_nil_of_mem (WrittenLine.isLine_bytes hsent).mem
    have hshort := Nat.not_lt.mpr hsent.short
    unfold FencedSession.takes
    rw [hreading, decide_eq_false (not_or.mpr ⟨hne, hshort⟩)]
    rfl
  change (pool.readers[i]?.map fun r' =>
    if r'.env.deviceId = r.env.deviceId then
      r'.session.sentences ⟨w.bytes, now⟩ else []).getD [] = _
  rw [hreader, Option.map_some, if_pos rfl, Option.getD_some]
  unfold FencedSession.sentences
  rw [if_pos htakes, WrittenLine.sentenceOf_bytes hsent]

/-- What a rover has written is what the shadow of its device shows, until a
session of the device reads another sentence with the field; whatever the
sessions read before, and whatever the others read meanwhile. -/
theorem written_shown {ttlS : ℤ} {before later : List (PoolEvent ℚ)}
    {pool next final : ReaderPool ℚ}
    (hbefore : run step (opened ttlS) before = some pool)
    {i : ℕ} {r : RoverReader ℚ} (hreader : pool.readers[i]? = some r)
    (hreading : r.session.reading = true)
    {w : WrittenLine} (hsent : w.Sent) {now : ℕ → ℚ} {tsMs : ℤ}
    (hstep : pool.step (.line i ⟨w.bytes, now⟩ tsMs) = some next)
    (hlater : run step next later = some final)
    {key : String} {value : Json ℚ}
    (hvalue : w.meaning.fields.get? key = some value)
    (hnone : ∀ x ∈ outputs step (heard r.env.deviceId) next later,
      x.fields.get? key = none) :
    final.shadow.field? r.env.deviceId key = some value := by
  have hkey := Sentence.get?_fields hvalue
  have hrest : run step pool
      (.line i ⟨w.bytes, now⟩ tsMs :: later) = some final :=
    run_cons_eq_some.mpr ⟨next, hstep, hlater⟩
  have hrun : run step (opened ttlS)
      (before ++ .line i ⟨w.bytes, now⟩ tsMs :: later) = some final := by
    rw [run_append, hbefore, Option.bind_some, hrest]
  have hquiet : (outputs step (heard r.env.deviceId) next later).filterMap
      (fun x => x.fields.get? key) = [] :=
    List.filterMap_eq_nil_iff.mpr hnone
  have hone : [w.meaning].filterMap (fun x => x.fields.get? key) =
      [value] := by
    simp [hvalue]
  rw [run_field? hrun _ (ne_updated hkey), outputs_heard _ _ _ hkey,
    outputs_append hbefore, outputs_cons hstep,
    heard_line hreader hreading hsent, List.filterMap_append,
    List.filterMap_append, hquiet, List.append_nil, hone,
    List.getLast?_append, List.getLast?_singleton, Option.some_or]

end ReaderPool

theorem ReaderPool.written_shown_positionLine :
    ∃ pool, TransitionRuns.run (@ReaderPool.step ℚ _ noMath) (.opened 60)
        [.accept defaultEnv none,
          .line 0 ⟨WrittenLine.positionLine.bytes, fun _ => 0⟩ 5] =
            some pool ∧
      pool.shadow.field? "rover" "fixq" = some (.int 1) :=
  ⟨_, rfl, @ReaderPool.written_shown noMath 60 [.accept defaultEnv none] []
    _ _ _ rfl 0 _ rfl rfl _ WrittenLine.positionLine_sent (fun _ => 0) 5 rfl
    rfl "fixq" (.int 1) rfl (List.forall_mem_nil _)⟩

end BabilCors
