import BabilCors.AuditRotation
import BabilCors.ExactFloat
import BabilCors.HttpRequests
import BabilCors.JsonRoundTrip

/-!
# The lines of the audit files

`_audit_add` writes the JSON text of a record and a newline.  No such text has
a newline of its own, so that the files, from the oldest backup to the current
one, are read line by line as the newest records in their order.
-/

namespace BabilCors

open Py

variable {F : Type}

/-! ## The records -/

/-- A call of `_audit_add`, with the time it reads. -/
structure AuditCall (F : Type) where
  ts : F
  action : String
  clientIp : String
  traceId : String
  ok : Bool
  detail : PyDict String (Json F)

def AuditCall.item (call : AuditCall F) : Json F :=
  .obj ([("ts", .float call.ts), ("action", .str call.action),
    ("client_ip", .str call.clientIp), ("trace_id", .str call.traceId),
    ("ok", .bool call.ok)] ++
      if call.detail.isEmpty then [] else [("detail", .obj call.detail)])

variable [PyFloat F]

/-- `json.dumps(item, ensure_ascii=False).encode("utf-8")`. -/
def AuditCall.json? (call : AuditCall F) : Option (List UInt8) :=
  (Json.dumps? none call.item).map utf8Encode

/-- The time and the detail are read back from their texts. -/
structure AuditCall.Readable (call : AuditCall F) : Prop where
  ts : Json.FloatReads call.ts
  detail : Json.Proper (.obj call.detail)

namespace AuditFile

/-- The file part of `_audit_add`, which passes over what raises. -/
def addCall (a : AuditFile) (files : Files) (call : AuditCall F) : Files :=
  match call.json? with
  | none => files
  | some json => a.auditAdd files json

def addCalls (a : AuditFile) (calls : List (AuditCall F)) : Files :=
  calls.foldl a.addCall .empty

/-- The lines of a file as `json.loads` reads them. -/
def readLines (F : Type) [PyFloat F] (data : List UInt8) :
    List (Option (Json F)) :=
  (data.splitOn newline).dropLast.map fun line =>
    Json.loads? (safeDecode line)

end AuditFile

/-! ## The lines -/

theorem AuditCall.Readable.proper {call : AuditCall F}
    (h : call.Readable) : call.item.Proper := by
  unfold AuditCall.item
  apply Json.Proper.obj
  · split_ifs
    · change ["ts", "action", "client_ip", "trace_id", "ok"].Nodup
      decide
    · change ["ts", "action", "client_ip", "trace_id", "ok", "detail"].Nodup
      decide
  · intro field hfield
    simp only [List.mem_append, List.mem_cons, List.not_mem_nil,
      or_false] at hfield
    rcases hfield with (rfl | rfl | rfl | rfl | rfl) | hdetail
    · exact .float h.ts
    · exact .str _
    · exact .str _
    · exact .str _
    · exact .bool _
    · split_ifs at hdetail
      · cases hdetail
      · obtain rfl := List.mem_singleton.mp hdetail
        exact h.detail

namespace AuditFile

omit [PyFloat F] in
theorem splitOn_text {records : List (List UInt8)}
    (hrecords : ∀ json ∈ records, newline ∉ json) :
    (text records).splitOn newline = records ++ [[]] := by
  induction records with
  | nil => rfl
  | cons json records ih =>
      obtain ⟨hjson, hmore⟩ := List.forall_mem_cons.mp hrecords
      have htext : text (json :: records) =
          json ++ newline :: text records := by
        simp [text, line, newline]
      rw [htext, List.splitOn_append_cons_self_of_not_mem hjson, ih hmore]
      rfl

theorem foldl_addCall (a : AuditFile) (calls : List (AuditCall F))
    (files : Files) :
    calls.foldl a.addCall files =
      (calls.filterMap AuditCall.json?).foldl a.auditAdd files := by
  induction calls generalizing files with
  | nil => rfl
  | cons call calls ih =>
      rw [List.foldl_cons, ih, List.filterMap_cons]
      unfold addCall
      cases call.json? with
      | none => rfl
      | some json => rfl

/-- The line of a record whose integers `json.dumps` takes. -/
def jsonLine (call : AuditCall F) : List UInt8 :=
  utf8Encode (.ofList (Json.text none 0 call.item))

theorem filterMap_json? (calls : List (AuditCall F)) :
    calls.filterMap AuditCall.json? =
      (calls.filter fun call => call.item.short).map jsonLine := by
  induction calls with
  | nil => rfl
  | cons call calls ih =>
      rw [List.filterMap_cons, ih]
      unfold AuditCall.json? Json.dumps?
      cases hshort : call.item.short with
      | true => simp [hshort, jsonLine]
      | false => simp [hshort]

theorem loads?_jsonLine {call : AuditCall F} (h : call.Readable)
    (hshort : call.item.short = true) :
    Json.loads? (safeDecode (jsonLine call)) = some call.item := by
  unfold jsonLine
  rw [safeDecode_utf8Encode]
  apply Json.loads?_dumps? h.proper
  unfold Json.dumps?
  rw [if_pos hshort]

theorem newline_notMem_jsonLine {call : AuditCall F} (h : call.Readable) :
    newline ∉ jsonLine call := by
  apply newline_notMem_utf8Encode
  rw [String.toList_ofList]
  exact h.proper.newline_notMem 0

/-- Whatever was audited, the files hold whole lines: read as JSON they are the
newest of the records that could be written, in their order. -/
theorem audit_readable (a : AuditFile) (hdir : dirname a.file ≠ "")
    (hbackups : 1 ≤ a.backups) {calls : List (AuditCall F)}
    (hcalls : ∀ call ∈ calls, call.Readable) :
    ∃ kept, kept <:+ (calls.filter fun call => call.item.short) ∧
      kept.getLast? =
        (calls.filter fun call => call.item.short).getLast? ∧
      readLines F (a.concatenation (a.addCalls calls)) =
        kept.map fun call => some call.item := by
  have hfiles : a.addCalls calls =
      a.auditAll (calls.filterMap AuditCall.json?) :=
    foldl_addCall a calls .empty
  have hkeep : 1 ≤ a.backups.toNat := by
    omega
  rw [hfiles, filterMap_json?]
  have hwritten : ∀ call ∈ calls.filter fun call => call.item.short,
      call.Readable ∧ call.item.short = true := by
    intro call hcall
    obtain ⟨hmem, hshort⟩ := List.mem_filter.mp hcall
    exact ⟨hcalls call hmem, hshort⟩
  generalize (calls.filter fun call => call.item.short) = written
    at hwritten ⊢
  have hconcat := (describes_auditAll hdir hbackups
    (written.map jsonLine)).concatenation
  have hsuffix : (RotatingLog.writeAll a.backups.toNat a.full
      (written.map jsonLine)).kept <:+ written.map jsonLine :=
    RotatingLog.writeAll_kept_suffix hkeep _
  have hlast : (RotatingLog.writeAll a.backups.toNat a.full
      (written.map jsonLine)).kept.getLast? =
        (written.map jsonLine).getLast? :=
    RotatingLog.writeAll_kept_getLast? hkeep _
  generalize (RotatingLog.writeAll a.backups.toNat a.full
    (written.map jsonLine)).kept = lines at hconcat hsuffix hlast
  obtain ⟨front, hfront⟩ := hsuffix
  obtain ⟨old, kept, rfl, -, rfl⟩ := List.map_eq_append_iff.mp hfront.symm
  refine ⟨kept, List.suffix_append old kept, ?_, ?_⟩
  · cases kept with
    | nil =>
        have hold : old = [] := by
          simpa using hlast.symm
        rw [hold]
        rfl
    | cons call kept =>
        rw [List.getLast?_append,
          List.getLast?_eq_some_getLast (List.cons_ne_nil call kept)]
        rfl
  · have hkept : ∀ call ∈ kept, call.Readable ∧ call.item.short = true :=
      fun call hcall => hwritten call (List.mem_append_right old hcall)
    have hclean : ∀ json ∈ kept.map jsonLine, newline ∉ json := by
      intro json hjson
      obtain ⟨call, hcall, rfl⟩ := List.mem_map.mp hjson
      exact newline_notMem_jsonLine (hkept call hcall).1
    rw [hconcat, readLines, splitOn_text hclean, List.dropLast_concat,
      List.map_map]
    apply List.map_congr_left
    intro call hcall
    exact loads?_jsonLine (hkept call hcall).1 (hkept call hcall).2

/-! ## Two records -/

/-- `repr` of a float with one decimal. -/
def tenthsRepr (x : ℚ) : String :=
  let tenths := ⌊x * 10⌋
  (if tenths < 0 then "-" else "") ++ toString (tenths.natAbs / 10) ++ "." ++
    toString (tenths.natAbs % 10)

@[reducible] def tenthFloats : PyFloat ℚ where
  __ := (inferInstance : PyFloat ℚ)
  repr := tenthsRepr

def enableCall (ts : ℚ) : AuditCall ℚ where
  ts := ts
  action := "enable"
  clientIp := "127.0.0.1"
  traceId := "t"
  ok := true
  detail := [("mountpoint", .str "MP1"), ("rovers", .int 2)]

theorem enableCall_readable {ts : ℚ}
    (hts : @Json.FloatReads ℚ tenthFloats ts) :
    @AuditCall.Readable ℚ tenthFloats (enableCall ts) := by
  apply @AuditCall.Readable.mk ℚ tenthFloats _ hts
  apply @Json.Proper.obj ℚ tenthFloats
  · change ["mountpoint", "rovers"].Nodup
    decide
  · intro field hfield
    simp only [enableCall, List.mem_cons, List.not_mem_nil, or_false]
      at hfield
    rcases hfield with rfl | rfl
    · exact @Json.Proper.str ℚ tenthFloats _
    · exact @Json.Proper.int ℚ tenthFloats _

theorem oneAndAHalf_reads : @Json.FloatReads ℚ tenthFloats (3 / 2) :=
  @Json.FloatReads.literal ℚ tenthFloats (3 / 2)
    ⟨false, 1, [5], none, .inl (by decide)⟩ (by decide +kernel)
    (by decide +kernel)

theorem audit_readable_twoRecords :
    ∃ kept, kept <:+ ([enableCall (3 / 2), enableCall (3 / 2)].filter
        fun call => call.item.short) ∧
      kept.getLast? = ([enableCall (3 / 2), enableCall (3 / 2)].filter
        fun call => call.item.short).getLast? ∧
      @readLines ℚ tenthFloats (evenFile.concatenation
        (@addCalls ℚ tenthFloats evenFile
          [enableCall (3 / 2), enableCall (3 / 2)])) =
        kept.map fun call => some call.item :=
  @audit_readable ℚ tenthFloats evenFile evenFile_dirname le_rfl _
    (List.forall_mem_cons.mpr ⟨enableCall_readable oneAndAHalf_reads,
      List.forall_mem_singleton.mpr
        (enableCall_readable oneAndAHalf_reads)⟩)

end AuditFile

end BabilCors
