import BabilCors.BitReader
import BabilCors.ExactFloat
import BabilCors.PyNumbers

/-!
# The descriptor messages 1033, 1007 and 1008

Texts with a counter of one byte in front of each.  The decoders cut a text at
the end of the payload without an error, and only the next read fails; so a
payload that ends inside its last text is decoded to a part of that text.
-/

namespace BabilCors
namespace Rtcm

open BitStrings Py

variable {F : Type}

/-! ## The decoders -/

/-- `.decode("ascii", errors="ignore").strip()`. -/
def asciiText (data : Bytes) : String :=
  strip (.ofList ((data.filter fun b => b < 128).map fun b =>
    Char.ofNat b.toNat))

/-- The two reads of every text: its counter, and that many bytes. -/
def readText (br : BitReader) : Option (String × BitReader) := do
  let (length, br) ← br.readBits 8
  let (text, br) := br.readBytes length
  return (asciiText text, br)

def parseRtcm1033 (payload : Bytes) : Option (PyDict String (Json F)) := do
  let br := (BitReader.new payload).skip 12
  let (_, br) ← br.readBits 12
  let (antDesc, br) ← readText br
  let (_, br) ← br.readBits 8
  let (antSerial, br) ← readText br
  let (rxDesc, br) ← readText br
  let (rxVer, br) ← readText br
  let (rxSerial, _) ← readText br
  return [("antenna_descriptor", .str antDesc),
    ("antenna_serial", .str antSerial), ("receiver_descriptor", .str rxDesc),
    ("receiver_version", .str rxVer), ("receiver_serial", .str rxSerial)]

def parseRtcm10071008 (payload : Bytes) :
    Option (PyDict String (Json F)) := do
  let (mt, br) ← (BitReader.new payload).readBits 12
  if mt ≠ 1007 ∧ mt ≠ 1008 then none
  else
    let (_, br) ← br.readBits 12
    let (desc, br) ← readText br
    let (_, br) ← br.readBits 8
    let serial ←
      if mt = 1008 then (readText br).map Prod.fst else some ""
    let out : PyDict String (Json F) := [("antenna_descriptor", .str desc)]
    return if serial ≠ "" then out.set "antenna_serial" (.str serial) else out

/-! ## Reads on byte boundaries -/

theorem field_byte {data : Bytes} {pos : ℕ} (hpos : pos < data.length) :
    field (bits data) (8 * pos) 8 = byteAt data pos := by
  have hbyte := data[pos].toNat_lt
  rw [field, ← bits_drop, List.drop_eq_getElem_cons hpos, bits_cons,
    List.take_append_of_le_length (by simp),
    List.take_of_length_le (by simp), ofBits_toBits_of_lt hbyte, byteAt,
    List.getD_eq_getElem?_getD, List.getElem?_eq_getElem hpos,
    Option.getD_some]

theorem readByte_eq (payload : Bytes) (pos : ℕ) :
    BitReader.readBits ⟨payload, 8 * pos⟩ 8 =
      if pos < payload.length then
        some (byteAt payload pos, ⟨payload, 8 * (pos + 1)⟩)
      else none := by
  by_cases hpos : pos < payload.length
  · rw [BitReader.readBits_of_le (by omega), if_pos hpos, field_byte hpos,
      Nat.mul_add]
  · rw [BitReader.readBits_of_lt (by omega) (by decide), if_neg hpos]

/-- The text with its counter at the position, and where it ends when it is
not cut.  A missing counter counts as zero. -/
def textAt (payload : Bytes) (pos : ℕ) : String :=
  asciiText ((payload.drop (pos + 1)).take (byteAt payload pos))

def textEnd (payload : Bytes) (pos : ℕ) : ℕ :=
  pos + 1 + byteAt payload pos

theorem lt_textEnd (payload : Bytes) (pos : ℕ) :
    pos < textEnd payload pos := by
  unfold textEnd
  omega

theorem readText_eq (payload : Bytes) (pos : ℕ) :
    readText ⟨payload, 8 * pos⟩ =
      if pos < payload.length then
        some (textAt payload pos, ⟨payload, 8 * textEnd payload pos⟩)
      else none := by
  unfold readText
  rw [readByte_eq, Option.bind_eq_bind, bind_ite_none]
  dsimp only
  rw [BitReader.readBytes_eq]
  rfl

/-! ## What the decoders accept -/

/-- The positions of the counters behind the first one, at 3. -/
def antSerialAt (payload : Bytes) : ℕ :=
  textEnd payload 3 + 1

def rxDescAt (payload : Bytes) : ℕ :=
  textEnd payload (antSerialAt payload)

def rxVerAt (payload : Bytes) : ℕ :=
  textEnd payload (rxDescAt payload)

def rxSerialAt (payload : Bytes) : ℕ :=
  textEnd payload (rxVerAt payload)

theorem readStation_eq (payload : Bytes) :
    BitReader.readBits ⟨payload, 12⟩ 12 =
      if 3 ≤ payload.length then
        some (field (bits payload) 12 12, ⟨payload, 8 * 3⟩)
      else none := by
  by_cases hheader : 3 ≤ payload.length
  · rw [BitReader.readBits_of_le (by omega), if_pos hheader]
  · rw [BitReader.readBits_of_lt (by omega) (by decide), if_neg hheader]

/-- The dictionary of a 1008, which has no entry for an empty serial. -/
def withSerial (desc serial : String) : PyDict String (Json F) :=
  if serial ≠ "" then
    [("antenna_descriptor", .str desc), ("antenna_serial", .str serial)]
  else [("antenna_descriptor", .str desc)]

/-- A 1033 is decoded as soon as its last counter is there. -/
theorem parseRtcm1033_eq (payload : Bytes) :
    parseRtcm1033 (F := F) payload =
      if rxSerialAt payload < payload.length then
        some [("antenna_descriptor", .str (textAt payload 3)),
          ("antenna_serial", .str (textAt payload (antSerialAt payload))),
          ("receiver_descriptor", .str (textAt payload (rxDescAt payload))),
          ("receiver_version", .str (textAt payload (rxVerAt payload))),
          ("receiver_serial", .str (textAt payload (rxSerialAt payload)))]
      else none := by
  have h₁ := lt_textEnd payload 3
  have h₂ := lt_textEnd payload (antSerialAt payload)
  have h₃ := lt_textEnd payload (rxDescAt payload)
  have h₄ := lt_textEnd payload (rxVerAt payload)
  unfold parseRtcm1033 BitReader.new BitReader.skip
  simp only [readStation_eq, Option.bind_eq_bind, bind_ite_none, readText_eq,
    readByte_eq, Nat.zero_add]
  rw [← antSerialAt, ← rxDescAt, ← rxVerAt, ← rxSerialAt]
  by_cases hlast : rxSerialAt payload < payload.length
  · unfold rxSerialAt rxVerAt rxDescAt antSerialAt at *
    rw [if_pos (by omega), if_pos (by omega), if_pos (by omega),
      if_pos (by omega), if_pos (by omega), if_pos (by omega), if_pos hlast,
      if_pos hlast]
    rfl
  · simp only [if_neg hlast, ite_self]

/-- Of the other two types, a 1007 ends with the setup id behind its text and
a 1008 is decoded as soon as its last counter is there. -/
theorem parseRtcm10071008_eq (payload : Bytes) :
    parseRtcm10071008 (F := F) payload =
      if messageNumber payload = 1007 ∧ textEnd payload 3 < payload.length
      then some [("antenna_descriptor", .str (textAt payload 3))]
      else if messageNumber payload = 1008 ∧
          antSerialAt payload < payload.length
      then some (withSerial (textAt payload 3)
        (textAt payload (antSerialAt payload)))
      else none := by
  have h₁ := lt_textEnd payload 3
  have hnumber : BitReader.readBits ⟨payload, 0⟩ 12 =
      if 0 + 12 ≤ 8 * payload.length then
        some (messageNumber payload, ⟨payload, 12⟩)
      else none :=
    BitReader.readBits_eq (by decide)
  unfold parseRtcm10071008 BitReader.new
  simp only [hnumber, readStation_eq, Option.bind_eq_bind, bind_ite_none,
    map_ite_none, readText_eq, readByte_eq]
  rw [← antSerialAt]
  by_cases hseven : messageNumber payload = 1007
  · rw [hseven]
    by_cases hend : textEnd payload 3 < payload.length
    · rw [if_pos (by omega), if_neg (by decide), if_pos (by omega),
        if_pos (by omega), if_pos hend, if_neg (by decide),
        if_pos ⟨rfl, hend⟩]
      rfl
    · simp [hend]
  by_cases height : messageNumber payload = 1008
  · rw [height]
    by_cases hserial : antSerialAt payload < payload.length
    · have hend : textEnd payload 3 < payload.length := by
        unfold antSerialAt at hserial
        omega
      have hother : ¬ (1008 = 1007 ∧ textEnd payload 3 < payload.length) := by
        omega
      have hthis : 1008 = 1008 ∧ antSerialAt payload < payload.length :=
        ⟨rfl, hserial⟩
      rw [if_pos (by omega), if_neg (by decide), if_pos (by omega),
        if_pos (by omega), if_pos hend, if_pos rfl, if_pos hserial,
        if_neg hother, if_pos hthis]
      unfold withSerial
      split_ifs
      · rfl
      · rfl
    · simp [hserial]
  · simp [hseven, height]

/-! ## Packing -/

/-- A text that the format can carry and that trimming does not change. -/
structure Descriptor where
  text : String
  ascii : ∀ c ∈ text.toList, c.toNat < 128
  short : text.toList.length ≤ 255
  no_leading : ∀ c, text.toList.head? = some c → isSpace c = false
  no_trailing : ∀ c, text.toList.getLast? = some c → isSpace c = false

namespace Descriptor

def chars (d : Descriptor) : Bytes :=
  d.text.toList.map fun c => UInt8.ofNat c.toNat

/-- The counter and the characters. -/
def encode (d : Descriptor) : Bytes :=
  UInt8.ofNat d.text.toList.length :: d.chars

theorem asciiText_chars (d : Descriptor) : asciiText d.chars = d.text := by
  have hbyte : ∀ c ∈ d.text.toList, (UInt8.ofNat c.toNat).toNat = c.toNat := by
    intro c hc
    have hascii := d.ascii c hc
    exact UInt8.toNat_ofNat_of_lt' (lt_trans hascii (by decide))
  have hkept : (d.chars.filter fun b => b < 128) = d.chars := by
    apply List.filter_eq_self.mpr
    intro b hb
    obtain ⟨c, hc, rfl⟩ := List.mem_map.mp hb
    have hascii := d.ascii c hc
    rw [decide_eq_true_eq, UInt8.lt_iff_toNat_lt, hbyte c hc]
    exact hascii
  have hback : (d.chars.map fun b => Char.ofNat b.toNat) = d.text.toList := by
    rw [chars, List.map_map]
    conv_rhs => rw [← List.map_id d.text.toList]
    apply List.map_congr_left
    intro c hc
    rw [Function.comp_apply, hbyte c hc, Char.ofNat_toNat]
    rfl
  rw [asciiText, hkept, hback,
    strip_of_ends d.no_leading d.no_trailing, String.ofList_toList]

/-- What is read where a text stands. -/
theorem read {payload rest : Bytes} {pos : ℕ} (d : Descriptor)
    (hdrop : payload.drop pos = d.encode ++ rest) :
    pos < payload.length ∧ textAt payload pos = d.text ∧
      payload.drop (textEnd payload pos) = rest := by
  have hlength :
      (UInt8.ofNat d.text.toList.length).toNat = d.chars.length := by
    rw [UInt8.toNat_ofNat_of_lt' (lt_of_le_of_lt d.short (by decide)),
      chars, List.length_map]
  have hpos : pos < payload.length := by
    by_contra hbehind
    rw [List.drop_eq_nil_of_le (not_lt.mp hbehind)] at hdrop
    cases hdrop
  rw [List.drop_eq_getElem_cons hpos, encode, List.cons_append,
    List.cons.injEq] at hdrop
  obtain ⟨hcounter, hchars⟩ := hdrop
  have hbyte : byteAt payload pos = d.chars.length := by
    rw [byteAt, List.getD_eq_getElem?_getD, List.getElem?_eq_getElem hpos,
      Option.getD_some, hcounter, hlength]
  refine ⟨hpos, ?_, ?_⟩
  · rw [textAt, hbyte, hchars, List.take_left, d.asciiText_chars]
  · rw [textEnd, hbyte, ← List.drop_drop, hchars, List.drop_left]

end Descriptor

/-- The three bytes of the type and the station id. -/
def header (number stationId : ℕ) : Bytes :=
  pack (toBits 12 number ++ toBits 12 stationId)

theorem length_header (number stationId : ℕ) :
    (header number stationId).length = 3 := by
  rw [header, length_pack, List.length_append, length_toBits, length_toBits]

theorem messageNumber_header (number : ℕ) (hnumber : number < 2 ^ 12)
    (stationId : ℕ) (behind : Bytes) :
    messageNumber (header number stationId ++ behind) = number := by
  have hwhole : 8 ∣ (toBits 12 number ++ toBits 12 stationId).length := by
    rw [List.length_append, length_toBits, length_toBits]
    decide
  rw [messageNumber, header, bits_append, bits_pack hwhole,
    List.append_assoc, field_toBits hnumber]

theorem drop_header (number stationId : ℕ) (behind : Bytes) :
    (header number stationId ++ behind).drop 3 = behind := by
  rw [← length_header number stationId, List.drop_left]

theorem drop_byte {payload behind : Bytes} {pos : ℕ} {b : UInt8}
    (hdrop : payload.drop pos = b :: behind) :
    pos < payload.length ∧ payload.drop (pos + 1) = behind := by
  constructor
  · by_contra hbehind
    rw [List.drop_eq_nil_of_le (not_lt.mp hbehind)] at hdrop
    cases hdrop
  · rw [← List.drop_drop, hdrop]
    rfl

def encode1033 (stationId : ℕ) (setupId : UInt8)
    (antDesc antSerial rxDesc rxVer rxSerial : Descriptor) : Bytes :=
  header 1033 stationId ++ (antDesc.encode ++ (setupId ::
    (antSerial.encode ++ (rxDesc.encode ++ (rxVer.encode ++
      rxSerial.encode)))))

def encode1007 (stationId : ℕ) (setupId : UInt8) (antDesc : Descriptor) :
    Bytes :=
  header 1007 stationId ++ (antDesc.encode ++ [setupId])

def encode1008 (stationId : ℕ) (setupId : UInt8)
    (antDesc antSerial : Descriptor) : Bytes :=
  header 1008 stationId ++ (antDesc.encode ++ (setupId :: antSerial.encode))

theorem parse_encode1033 (stationId : ℕ) (setupId : UInt8)
    (antDesc antSerial rxDesc rxVer rxSerial : Descriptor) :
    parseRtcm1033 (F := F) (encode1033 stationId setupId antDesc antSerial
        rxDesc rxVer rxSerial) =
      some [("antenna_descriptor", .str antDesc.text),
        ("antenna_serial", .str antSerial.text),
        ("receiver_descriptor", .str rxDesc.text),
        ("receiver_version", .str rxVer.text),
        ("receiver_serial", .str rxSerial.text)] := by
  obtain ⟨_, htext₁, hdrop₁⟩ := antDesc.read
    (drop_header 1033 stationId (antDesc.encode ++ (setupId ::
      (antSerial.encode ++ (rxDesc.encode ++ (rxVer.encode ++
        rxSerial.encode))))))
  rw [← encode1033] at htext₁ hdrop₁
  generalize encode1033 stationId setupId antDesc antSerial rxDesc rxVer
    rxSerial = payload at *
  obtain ⟨_, hsetup⟩ := drop_byte hdrop₁
  rw [← antSerialAt] at hsetup
  obtain ⟨_, htext₂, hdrop₂⟩ := antSerial.read hsetup
  rw [← rxDescAt] at hdrop₂
  obtain ⟨_, htext₃, hdrop₃⟩ := rxDesc.read hdrop₂
  rw [← rxVerAt] at hdrop₃
  obtain ⟨_, htext₄, hdrop₄⟩ := rxVer.read hdrop₃
  rw [← rxSerialAt, ← List.append_nil rxSerial.encode] at hdrop₄
  obtain ⟨hlast, htext₅, _⟩ := rxSerial.read hdrop₄
  rw [parseRtcm1033_eq, if_pos hlast, htext₁, htext₂, htext₃, htext₄,
    htext₅]

theorem parse_encode1007 (stationId : ℕ) (setupId : UInt8)
    (antDesc : Descriptor) :
    parseRtcm10071008 (F := F) (encode1007 stationId setupId antDesc) =
      some [("antenna_descriptor", .str antDesc.text)] := by
  have htype := messageNumber_header 1007 (by decide) stationId
    (antDesc.encode ++ [setupId])
  obtain ⟨_, htext, hdrop⟩ := antDesc.read
    (drop_header 1007 stationId (antDesc.encode ++ [setupId]))
  rw [← encode1007] at htype htext hdrop
  obtain ⟨hend, _⟩ := drop_byte hdrop
  rw [parseRtcm10071008_eq, if_pos ⟨htype, hend⟩, htext]

theorem parse_encode1008 (stationId : ℕ) (setupId : UInt8)
    (antDesc antSerial : Descriptor) :
    parseRtcm10071008 (F := F)
        (encode1008 stationId setupId antDesc antSerial) =
      some (withSerial antDesc.text antSerial.text) := by
  have htype := messageNumber_header 1008 (by decide) stationId
    (antDesc.encode ++ (setupId :: antSerial.encode))
  obtain ⟨_, htext, hdrop⟩ := antDesc.read
    (drop_header 1008 stationId
      (antDesc.encode ++ (setupId :: antSerial.encode)))
  rw [← encode1008] at htype htext hdrop
  obtain ⟨_, hsetup⟩ := drop_byte hdrop
  rw [← antSerialAt, ← List.append_nil antSerial.encode] at hsetup
  obtain ⟨hserial, htext₂, _⟩ := antSerial.read hsetup
  rw [parseRtcm10071008_eq, if_neg (by rw [htype]; omega),
    if_pos ⟨htype, hserial⟩, htext, htext₂]

/-! ## What the counters declare -/

def declaredEnd1033 (payload : Bytes) : ℕ :=
  textEnd payload (rxSerialAt payload)

/-- A 1008 ends with its serial, a 1007 with the setup id. -/
def declaredEnd10071008 (payload : Bytes) : ℕ :=
  if messageNumber payload = 1008 then
    textEnd payload (antSerialAt payload)
  else antSerialAt payload

/-- The payload has the last counter, and ends inside the text behind it. -/
def EndsInLastText (payload : Bytes) (counterAt : ℕ) : Prop :=
  counterAt < payload.length ∧ payload.length < textEnd payload counterAt

theorem textEnd_le_antSerialAt (payload : Bytes) :
    textEnd payload 3 < antSerialAt payload :=
  Nat.lt_succ_self _

theorem parseRtcm1033_rejects_iff (payload : Bytes) :
    (payload.length < declaredEnd1033 payload →
        parseRtcm1033 (F := F) payload = none) ↔
      ¬ EndsInLastText payload (rxSerialAt payload) := by
  rw [parseRtcm1033_eq, ite_eq_right_iff]
  unfold EndsInLastText declaredEnd1033
  simp only [reduceCtorEq, imp_false]
  omega

theorem parseRtcm10071008_rejects_iff (payload : Bytes) :
    (payload.length < declaredEnd10071008 payload →
        parseRtcm10071008 (F := F) payload = none) ↔
      ¬ (messageNumber payload = 1008 ∧
        EndsInLastText payload (antSerialAt payload)) := by
  have hsetup := textEnd_le_antSerialAt payload
  have hnext : antSerialAt payload = textEnd payload 3 + 1 := rfl
  rw [parseRtcm10071008_eq]
  unfold EndsInLastText declaredEnd10071008
  by_cases height : messageNumber payload = 1008
  · rw [if_pos height, if_neg (by omega), ite_eq_right_iff]
    simp only [reduceCtorEq, imp_false]
    omega
  -- A 1007 is rejected without its setup id, and any other type always is.
  · have hother : ¬ (messageNumber payload = 1008 ∧
        antSerialAt payload < payload.length) :=
      fun hthis => height hthis.1
    rw [if_neg height, if_neg hother, ite_eq_right_iff]
    simp only [reduceCtorEq, imp_false]
    omega

/-- Packed texts come back, an empty serial of a 1008 as the missing entry.
A payload shorter than its counters declare is rejected exactly when it does
not end inside the last text of a 1033 or a 1008. -/
theorem descriptors_faithful :
    (∀ (stationId : ℕ) (setupId : UInt8)
        (antDesc antSerial rxDesc rxVer rxSerial : Descriptor),
      parseRtcm1033 (F := F) (encode1033 stationId setupId antDesc antSerial
          rxDesc rxVer rxSerial) =
        some [("antenna_descriptor", .str antDesc.text),
          ("antenna_serial", .str antSerial.text),
          ("receiver_descriptor", .str rxDesc.text),
          ("receiver_version", .str rxVer.text),
          ("receiver_serial", .str rxSerial.text)]) ∧
    (∀ (stationId : ℕ) (setupId : UInt8) (antDesc : Descriptor),
      parseRtcm10071008 (F := F) (encode1007 stationId setupId antDesc) =
        some [("antenna_descriptor", .str antDesc.text)]) ∧
    (∀ (stationId : ℕ) (setupId : UInt8) (antDesc antSerial : Descriptor),
      ∃ info : PyDict String (Json F),
        parseRtcm10071008 (encode1008 stationId setupId antDesc antSerial) =
          some info ∧
        info.get? "antenna_descriptor" = some (.str antDesc.text) ∧
        (info.get? "antenna_serial").getD (.str "") =
          .str antSerial.text) ∧
    (∀ payload : Bytes,
      (payload.length < declaredEnd1033 payload →
          parseRtcm1033 (F := F) payload = none) ↔
        ¬ EndsInLastText payload (rxSerialAt payload)) ∧
    ∀ payload : Bytes,
      (payload.length < declaredEnd10071008 payload →
          parseRtcm10071008 (F := F) payload = none) ↔
        ¬ (messageNumber payload = 1008 ∧
          EndsInLastText payload (antSerialAt payload)) := by
  refine ⟨parse_encode1033, parse_encode1007, ?_, parseRtcm1033_rejects_iff,
    parseRtcm10071008_rejects_iff⟩
  intro stationId setupId antDesc antSerial
  refine ⟨_, parse_encode1008 stationId setupId antDesc antSerial, ?_⟩
  unfold withSerial
  by_cases hserial : antSerial.text = ""
  · rw [if_neg (not_not.mpr hserial), hserial]
    exact ⟨rfl, rfl⟩
  · rw [if_pos hserial]
    exact ⟨rfl, rfl⟩

/-- A 1033 whose last counter says four and which ends behind `RS`. -/
def shortReceiver : Bytes :=
  [0x40, 0x90, 0x01, 0, 0, 0, 0, 0, 4, 0x52, 0x53]

/-- A 1008 whose last counter says three and which ends behind `SN`. -/
def shortAntenna : Bytes :=
  [0x3F, 0x00, 0x01, 0, 0, 3, 0x53, 0x4E]

theorem last_text_clamped :
    shortReceiver.length < declaredEnd1033 shortReceiver ∧
    parseRtcm1033 (F := ℚ) shortReceiver =
      some [("antenna_descriptor", .str ""), ("antenna_serial", .str ""),
        ("receiver_descriptor", .str ""), ("receiver_version", .str ""),
        ("receiver_serial", .str "RS")] ∧
    shortAntenna.length < declaredEnd10071008 shortAntenna ∧
    parseRtcm10071008 (F := ℚ) shortAntenna =
      some [("antenna_descriptor", .str ""),
        ("antenna_serial", .str "SN")] :=
  ⟨by decide, rfl, by decide, rfl⟩

end Rtcm
end BabilCors
