import BabilCors.PyText
import BabilCors.RotatingLog

/-!
# The files of the audit

`_audit_add` appends a record to the audit file and, once the file is larger
than the limit, moves it and its backups up by one.  The files are the segments
of a rotating log whose items are the records.
-/

namespace BabilCors

open Py

/-! ## Files -/

/-- `os.path.dirname`. -/
def dirname (path : String) : String :=
  let head := path.toList.rdropWhile (· != '/')
  .ofList (if head.all (· == '/') then head else head.rdropWhile (· == '/'))

abbrev Files := String → Option (List UInt8)

namespace Files

def append (files : Files) (path : String) (data : List UInt8) : Files :=
  Function.update files path (some ((files path).getD [] ++ data))

/-- `os.path.getsize` of a file that exists. -/
def size (files : Files) (path : String) : ℕ :=
  ((files path).getD []).length

def remove (files : Files) (path : String) : Files :=
  Function.update files path none

/-- `os.replace`, which raises when there is no source. -/
def replace (files : Files) (src dst : String) : Files :=
  match files src with
  | none => files
  | some data =>
      Function.update (Function.update files src none) dst (some data)

def empty : Files := fun _ => none

end Files

/-! ## `_audit_add` -/

structure AuditFile where
  file : String
  maxBytes : ℤ
  backups : ℤ

namespace AuditFile

def backup (a : AuditFile) (i : ℤ) : String :=
  a.file ++ "." ++ toString i

/-- `for i in range(n, 0, -1)`. -/
def shift (a : AuditFile) : ℕ → Files → Files
  | 0, files => files
  | i + 1, files =>
      let src := a.backup (i + 1 : ℕ)
      let dst := a.backup (i + 2 : ℕ)
      a.shift i (if (files src).isSome then files.replace src dst else files)

def rotate (a : AuditFile) (files : Files) : Files :=
  let oldest := a.backup a.backups
  let files := if (files oldest).isSome then files.remove oldest else files
  let files := a.shift (a.backups - 1).toNat files
  files.replace a.file (a.backup 1)

/-- The file part of `_audit_add`, for the bytes of the JSON text. -/
def auditAdd (a : AuditFile) (files : Files) (json : List UInt8) : Files :=
  -- `os.makedirs("")` raises before anything is written.
  if dirname a.file = "" then files
  else
    let files := files.append a.file (json ++ [10])
    if a.maxBytes < files.size a.file then
      if 0 < a.backups then a.rotate files else files
    else files

def auditAll (a : AuditFile) (records : List (List UInt8)) : Files :=
  records.foldl a.auditAdd .empty

/-! ## What the files should hold -/

def line (json : List UInt8) : List UInt8 := json ++ [10]

def text (records : List (List UInt8)) : List UInt8 :=
  records.flatMap line

/-- The main file has the current segment, and the backups have the closed
ones. -/
structure Describes (a : AuditFile) (files : Files)
    (log : RotatingLog (List UInt8)) : Prop where
  few : (log.closed.length : ℤ) ≤ a.backups
  main : files a.file =
    if log.current = [] then none else some (text log.current)
  backup : ∀ i < a.backups.toNat,
    files (a.backup (i + 1 : ℕ)) = log.closed[i]?.map text

/-- The files from the oldest backup to the main one. -/
def concatenation (a : AuditFile) (files : Files) : List UInt8 :=
  ((List.range a.backups.toNat).reverse.flatMap fun i =>
    (files (a.backup (i + 1 : ℕ))).getD []) ++ (files a.file).getD []

/-- `within` says how large a file may be whose last record has this
length. -/
structure Keeps (a : AuditFile) (within : ℕ → ℕ → Prop)
    (records : List (List UInt8)) (files : Files)
    (log : RotatingLog (List UInt8)) : Prop where
  describes : a.Describes files log
  concatenation : a.concatenation files = text log.kept
  suffix : log.kept <:+ records
  newest : log.kept.getLast? = records.getLast?
  bounded : ∀ segment ∈ log.current :: log.closed,
    ∀ last ∈ segment.getLast?, within (text segment).length (line last).length

/-- A write loses nothing, or the records of the oldest backup. -/
def LosesOldest (a : AuditFile) (files : Files)
    (log : RotatingLog (List UInt8)) (json : List UInt8)
    (after : RotatingLog (List UInt8)) : Prop :=
  ∃ gone, log.kept ++ [json] = gone ++ after.kept ∧
    (gone = [] ∨ files (a.backup a.backups) = some (text gone))

/-- After every sequence of records the files fall into segments that keep the
end of the sequence, and the next record loses the oldest segment only. -/
def Rotates (a : AuditFile) (within : ℕ → ℕ → Prop) : Prop :=
  ∃ log : List (List UInt8) → RotatingLog (List UInt8),
    (∀ records, a.Keeps within records (a.auditAll records) (log records)) ∧
    ∀ records json, a.LosesOldest (a.auditAll records) (log records) json
      (log (records ++ [json]))

/-! ## The paths -/

theorem backup_toList (a : AuditFile) (n : ℕ) :
    (a.backup n).toList = a.file.toList ++ '.' :: Nat.toDigits 10 n := by
  have hrepr : toString (n : ℤ) = n.repr := rfl
  rw [backup, hrepr]
  simp

theorem backup_inj {a : AuditFile} {m n : ℕ}
    (h : a.backup m = a.backup n) : m = n := by
  have hlists := congrArg String.toList h
  rw [backup_toList, backup_toList] at hlists
  have hdigits := (List.cons.inj (List.append_cancel_left hlists)).2
  calc
    m = Nat.ofDigitChars 10 (Nat.toDigits 10 m) 0 :=
      Nat.ofDigitChars_ten_toDigits.symm
    _ = Nat.ofDigitChars 10 (Nat.toDigits 10 n) 0 := by rw [hdigits]
    _ = n := Nat.ofDigitChars_ten_toDigits

theorem file_ne_backup (a : AuditFile) (n : ℕ) : a.file ≠ a.backup n := by
  intro h
  have hlengths := congrArg (fun path => path.toList.length) h
  rw [backup_toList] at hlengths
  simp at hlengths

/-! ## The shift -/

theorem replace_of_free {files : Files} {src dst : String}
    (hfree : files dst = none) (path : String) :
    (if (files src).isSome then files.replace src dst else files) path =
      if path = dst then files src
      else if path = src then none
      else files path := by
  cases hsrc : files src with
  | none =>
      rw [if_neg (by simp)]
      split_ifs with hdst hpath
      · rw [hdst, hfree]
      · rw [hpath, hsrc]
      · rfl
  | some data =>
      rw [if_pos (by simp), Files.replace, hsrc]
      dsimp only
      simp only [Function.update_apply]

/-- With the place above free, every backup moves up by one. -/
theorem shift_spec (a : AuditFile) (n : ℕ) (files : Files)
    (hfree : files (a.backup (n + 1 : ℕ)) = none) :
    (∀ i < n, a.shift n files (a.backup (i + 2 : ℕ)) =
      files (a.backup (i + 1 : ℕ))) ∧
    a.shift n files (a.backup (1 : ℕ)) = none ∧
    ∀ path, (∀ i ≤ n, path ≠ a.backup (i + 1 : ℕ)) →
      a.shift n files path = files path := by
  induction n generalizing files with
  | zero =>
      refine ⟨fun i hi => absurd hi (Nat.not_lt_zero i), hfree, ?_⟩
      intro path _
      rfl
  | succ n ih =>
      have hne : a.backup (n + 1 : ℕ) ≠ a.backup (n + 2 : ℕ) := by
        intro h
        have := backup_inj h
        omega
      let moved := if (files (a.backup (n + 1 : ℕ))).isSome then
        files.replace (a.backup (n + 1 : ℕ)) (a.backup (n + 2 : ℕ)) else files
      have hshift : a.shift (n + 1) files = a.shift n moved := rfl
      have hmoved (path : String) : moved path =
          if path = a.backup (n + 2 : ℕ) then files (a.backup (n + 1 : ℕ))
          else if path = a.backup (n + 1 : ℕ) then none else files path :=
        replace_of_free hfree path
      rw [hshift]
      rcases ih moved (by rw [hmoved, if_neg hne, if_pos rfl]) with
        ⟨hbelow, hfirst, hother⟩
      refine ⟨?_, hfirst, ?_⟩
      · intro i hi
        rcases Nat.lt_succ_iff_lt_or_eq.mp hi with hless | rfl
        · have habove : a.backup (i + 1 : ℕ) ≠ a.backup (n + 2 : ℕ) := by
            intro h
            have := backup_inj h
            omega
          have hself : a.backup (i + 1 : ℕ) ≠ a.backup (n + 1 : ℕ) := by
            intro h
            have := backup_inj h
            omega
          rw [hbelow i hless, hmoved, if_neg habove, if_neg hself]
        · rw [hother _ ?_, hmoved, if_pos rfl]
          intro j hj h
          have := backup_inj h
          omega
      · intro path hpath
        rw [hother path fun i hi => hpath i (Nat.le_succ_of_le hi), hmoved,
          if_neg (hpath (n + 1) le_rfl), if_neg (hpath n (Nat.le_succ n))]

theorem rotate_spec {a : AuditFile} (hbackups : 1 ≤ a.backups)
    {files : Files} (hmain : (files a.file).isSome = true) :
    a.rotate files a.file = none ∧
    a.rotate files (a.backup (1 : ℕ)) = files a.file ∧
    ∀ i, i + 1 < a.backups.toNat → a.rotate files (a.backup (i + 2 : ℕ)) =
      files (a.backup (i + 1 : ℕ)) := by
  obtain ⟨n, hn⟩ : ∃ n : ℕ, a.backups = (n + 1 : ℕ) :=
    ⟨(a.backups - 1).toNat, by omega⟩
  have hrange : (a.backups - 1).toNat = n := by
    omega
  have hcount : a.backups.toNat = n + 1 := by
    omega
  let freed := if (files (a.backup a.backups)).isSome then
    files.remove (a.backup a.backups) else files
  have hfree : freed (a.backup (n + 1 : ℕ)) = none := by
    rw [← hn]
    dsimp only [freed]
    split_ifs with hsome
    · exact Function.update_self _ _ _
    · simpa using hsome
  have hkept (path : String) (hpath : path ≠ a.backup (n + 1 : ℕ)) :
      freed path = files path := by
    rw [← hn] at hpath
    dsimp only [freed]
    split_ifs
    · exact Function.update_of_ne hpath _ _
    · rfl
  rcases shift_spec a n freed hfree with ⟨hbelow, hfirst, hother⟩
  have hshifted : a.shift n freed a.file = files a.file := by
    rw [hother _ fun i _ => file_ne_backup a (i + 1),
      hkept _ (file_ne_backup a (n + 1))]
  have hreplaced : a.rotate files =
      if ((a.shift n freed) a.file).isSome then
        (a.shift n freed).replace a.file (a.backup (1 : ℕ))
      else a.shift n freed := by
    rw [hshifted, if_pos hmain, rotate, hrange]
    rfl
  have hvalue (path : String) := by
    have hmoved := @replace_of_free (a.shift n freed) a.file _ hfirst path
    rw [← hreplaced, hshifted] at hmoved
    exact hmoved
  refine ⟨?_, ?_, ?_⟩
  · rw [hvalue, if_neg (file_ne_backup a 1), if_pos rfl]
  · rw [hvalue, if_pos rfl]
  · intro i hi
    have habove : a.backup (i + 2 : ℕ) ≠ a.backup (1 : ℕ) := by
      intro h
      have := backup_inj h
      omega
    rw [hvalue, if_neg habove, if_neg (file_ne_backup a (i + 2)).symm,
      hbelow i (by omega), hkept]
    intro h
    have := backup_inj h
    omega

/-! ## The files as a rotating log -/

def full (a : AuditFile) (records : List (List UInt8)) : Bool :=
  a.maxBytes < (text records).length

theorem text_concat (records : List (List UInt8)) (json : List UInt8) :
    text (records ++ [json]) = text records ++ line json := by
  simp [text]

theorem Describes.empty {a : AuditFile} (hbackups : 1 ≤ a.backups) :
    a.Describes .empty .empty := by
  constructor
  · have hnone : ((RotatingLog.empty : RotatingLog (List UInt8)).closed.length
        : ℤ) = 0 := rfl
    omega
  · rfl
  · intro i _
    rfl

theorem Describes.main_getD {a : AuditFile} {files : Files}
    {log : RotatingLog (List UInt8)} (h : a.Describes files log) :
    (files a.file).getD [] = text log.current := by
  rw [h.main]
  split_ifs with hempty
  · rw [hempty]
    rfl
  · rfl

theorem Describes.auditAdd {a : AuditFile} (hdir : dirname a.file ≠ "")
    (hbackups : 1 ≤ a.backups) {files : Files}
    {log : RotatingLog (List UInt8)} (h : a.Describes files log)
    (json : List UInt8) :
    a.Describes (a.auditAdd files json)
      (log.write a.backups.toNat a.full json) := by
  have hmain : files.append a.file (line json) a.file =
      some (text (log.current ++ [json])) := by
    rw [Files.append, Function.update_self, h.main_getD, text_concat]
  have hbackup (n : ℕ) : files.append a.file (line json) (a.backup n) =
      files (a.backup n) :=
    Function.update_of_ne (file_ne_backup a n).symm _ _
  have hsize : (files.append a.file (line json)).size a.file =
      (text (log.current ++ [json])).length := by
    rw [Files.size, hmain, Option.getD_some]
  have hadd : a.auditAdd files json =
      if a.full (log.current ++ [json]) then
        a.rotate (files.append a.file (line json))
      else files.append a.file (line json) := by
    rw [AuditFile.auditAdd, if_neg hdir]
    dsimp only
    rw [← line, hsize, if_pos (by omega : 0 < a.backups)]
    simp only [full, decide_eq_true_eq]
  rw [hadd, RotatingLog.write]
  split
  · have hsome : (files.append a.file (line json) a.file).isSome = true := by
      rw [hmain]
      rfl
    rcases rotate_spec hbackups hsome with ⟨hnone, hfirst, hmoved⟩
    constructor
    · have hlength := List.length_take_le a.backups.toNat
        ((log.current ++ [json]) :: log.closed)
      dsimp only
      omega
    · rw [hnone]
      rfl
    · intro i hi
      dsimp only
      rw [List.getElem?_take_of_lt hi]
      cases i with
      | zero =>
          rw [hfirst, hmain]
          rfl
      | succ i =>
          rw [hmoved i hi, hbackup, h.backup i (by omega)]
          rfl
  · constructor
    · exact h.few
    · rw [hmain, if_neg (by simp)]
    · intro i hi
      rw [hbackup, h.backup i hi]

theorem auditAll_concat (a : AuditFile) (records : List (List UInt8))
    (json : List UInt8) :
    a.auditAll (records ++ [json]) = a.auditAdd (a.auditAll records) json := by
  simp [auditAll]

theorem describes_auditAll {a : AuditFile} (hdir : dirname a.file ≠ "")
    (hbackups : 1 ≤ a.backups) (records : List (List UInt8)) :
    a.Describes (a.auditAll records)
      (.writeAll a.backups.toNat a.full records) := by
  induction records using List.reverseRecOn with
  | nil => exact .empty hbackups
  | append_singleton records json ih =>
      rw [auditAll_concat, RotatingLog.writeAll_concat]
      exact ih.auditAdd hdir hbackups json

/-! ## What the files keep -/

theorem flatMap_reverse_range (closed : List (List (List UInt8)))
    {count : ℕ} (hcount : closed.length ≤ count) :
    ((List.range count).reverse.flatMap fun i =>
      (closed[i]?.map text).getD []) = text closed.reverse.flatten := by
  induction closed generalizing count with
  | nil =>
      simp [text]
  | cons segment closed ih =>
      obtain ⟨n, rfl⟩ := Nat.exists_eq_add_of_le' hcount
      have hlength : closed.length ≤ n + closed.length :=
        Nat.le_add_left _ _
      rw [List.length_cons, ← Nat.add_assoc, List.range_succ_eq_map,
        List.reverse_cons, List.flatMap_append, ← List.map_reverse,
        List.flatMap_map, List.reverse_cons, List.flatten_append, text,
        List.flatMap_append]
      refine congrArg₂ _ (ih hlength) ?_
      simp [text]

theorem Describes.concatenation {a : AuditFile} {files : Files}
    {log : RotatingLog (List UInt8)} (h : a.Describes files log) :
    a.concatenation files = text log.kept := by
  have hbackups : ((List.range a.backups.toNat).reverse.flatMap fun i =>
      (files (a.backup (i + 1 : ℕ))).getD []) =
        text log.closed.reverse.flatten := by
    have hfew := h.few
    rw [← flatMap_reverse_range log.closed
      (by omega : log.closed.length ≤ a.backups.toNat)]
    apply List.flatMap_congr
    intro i hi
    rw [h.backup i (List.mem_range.mp (List.mem_reverse.mp hi))]
  rw [AuditFile.concatenation, hbackups, h.main_getD, RotatingLog.kept, text,
    text, text, List.flatMap_append]

theorem length_of_fits {a : AuditFile} {segment : List (List UInt8)}
    (hfits : RotatingLog.Fits a.full segment) :
    ((text segment).length : ℤ) ≤ max a.maxBytes 0 := by
  rcases hfits with rfl | hshort
  · exact le_max_right _ _
  · refine le_trans ?_ (le_max_left _ _)
    simpa [full] using hshort

theorem bounded_of_wellFormed {a : AuditFile} {keep : ℕ}
    {log : RotatingLog (List UInt8)} (hlog : log.WellFormed keep a.full)
    {segment : List (List UInt8)}
    (hsegment : segment ∈ log.current :: log.closed) {last : List UInt8}
    (hlast : last ∈ segment.getLast?) :
    ((text segment).length : ℤ) - max a.maxBytes 0 ≤ (line last).length := by
  rcases List.mem_cons.mp hsegment with rfl | hclosed
  · have hlength := length_of_fits hlog.current
    omega
  · rcases hlog.closed segment hclosed with ⟨front, newest, rfl, hfits⟩
    have hlength := length_of_fits hfits
    obtain rfl : newest = last := by
      simpa using hlast
    rw [text_concat, List.length_append]
    push_cast
    omega

/-- The files keep the newest records in order, lose the oldest backup as a
whole, and are larger than the limit by a record at most. -/
theorem audit_rotates (a : AuditFile) (hdir : dirname a.file ≠ "")
    (hbackups : 1 ≤ a.backups) :
    a.Rotates fun size last => (size : ℤ) - max a.maxBytes 0 ≤ last := by
  have hkeep : 1 ≤ a.backups.toNat := by
    omega
  refine ⟨.writeAll a.backups.toNat a.full, ?_, ?_⟩
  · intro records
    have hdescribes := describes_auditAll hdir hbackups records
    constructor
    · exact hdescribes
    · exact hdescribes.concatenation
    · exact RotatingLog.writeAll_kept_suffix hkeep records
    · exact RotatingLog.writeAll_kept_getLast? hkeep records
    · intro segment hsegment last hlast
      exact bounded_of_wellFormed (RotatingLog.wellFormed_writeAll records)
        hsegment hlast
  · intro records json
    rcases RotatingLog.write_loses hkeep
      (RotatingLog.wellFormed_writeAll records) json with ⟨gone, hloses⟩
    rw [RotatingLog.writeAll_concat]
    refine ⟨gone, hloses.kept, ?_⟩
    rcases hloses.oldest with hnone | ⟨hfull, hlast⟩
    · exact .inl hnone
    · right
      have hbackup := (describes_auditAll hdir hbackups records).backup
        (a.backups.toNat - 1) (by omega)
      have holdest : ((a.backups.toNat - 1 + 1 : ℕ) : ℤ) = a.backups := by
        omega
      rw [holdest] at hbackup
      rw [List.getLast?_eq_getElem?, hfull] at hlast
      rw [hbackup, hlast]
      rfl

/-! ## A file as large as the limit -/

def enableJson : List UInt8 :=
  utf8Encode ("\x7b\"ts\": 1.0, \"action\": \"enable\", \"client_ip\": " ++
    "\"127.0.0.1\", \"trace_id\": \"t\", \"ok\": true\x7d")

def evenFile : AuditFile where
  file := "logs/audit.log"
  maxBytes := (line enableJson).length
  backups := 1

theorem evenFile_dirname : dirname evenFile.file ≠ "" := by
  decide

def twoBackups : AuditFile :=
  { evenFile with backups := 2 }

def disableJson : List UInt8 :=
  utf8Encode ("\x7b\"ts\": 2.0, \"action\": \"disable\", \"client_ip\": " ++
    "\"127.0.0.1\", \"trace_id\": \"t\", \"ok\": true\x7d")

/-- The third record closes a second backup, and the first one is shifted. -/
theorem twoBackups_rotates :
    (twoBackups.Rotates fun size last =>
        (size : ℤ) - max twoBackups.maxBytes 0 ≤ last) ∧
      twoBackups.auditAll [enableJson, enableJson, disableJson]
        (twoBackups.backup 1) = some (text [disableJson]) ∧
      twoBackups.auditAll [enableJson, enableJson, disableJson]
        (twoBackups.backup 2) = some (text [enableJson, enableJson]) := by
  refine ⟨audit_rotates twoBackups evenFile_dirname (by decide), ?_, ?_⟩
  · decide +kernel
  · decide +kernel

theorem evenFile_full (records : List (List UInt8)) :
    evenFile.full records =
      decide ((line enableJson).length < (text records).length) := by
  simp only [full, evenFile, Nat.cast_lt]

theorem evenFile_writeAll :
    RotatingLog.writeAll evenFile.backups.toNat evenFile.full
      [enableJson, enableJson] = ⟨[], [[enableJson, enableJson]]⟩ := by
  have hone : evenFile.full [enableJson] = false := by
    simp [evenFile_full, text]
  have htwo : evenFile.full [enableJson, enableJson] = true := by
    simp [evenFile_full, text, line]
  have hbackups : evenFile.backups.toNat = 1 := rfl
  simp [RotatingLog.writeAll, RotatingLog.write, RotatingLog.empty, hone,
    htwo, hbackups]

/-- A file that the first record fills exactly is not moved, and the second
record is all over the limit. -/
theorem fullFile_waits :
    ¬ evenFile.Rotates fun size last =>
      (size : ℤ) - evenFile.maxBytes < last := by
  rintro ⟨log, hkeeps, _⟩
  have hkept := hkeeps [enableJson, enableJson]
  have hfiles := describes_auditAll evenFile_dirname le_rfl
    [enableJson, enableJson]
  rw [evenFile_writeAll] at hfiles
  have hmain : (log [enableJson, enableJson]).current = [] := by
    have hnone := hkept.describes.main
    rw [hfiles.main] at hnone
    by_contra hcurrent
    rw [if_pos rfl, if_neg hcurrent] at hnone
    cases hnone
  have hfew := hkept.describes.few
  have hbackup := hkept.describes.backup 0 Nat.one_pos
  rw [hfiles.backup 0 Nat.one_pos] at hbackup
  rcases hclosed : (log [enableJson, enableJson]).closed with _ | ⟨g, rest⟩
  · rw [hclosed] at hbackup
    cases hbackup
  rw [hclosed] at hbackup hfew
  obtain rfl : rest = [] := by
    have hlength : ((g :: rest).length : ℤ) ≤ 1 := hfew
    rw [List.length_cons] at hlength
    exact List.length_eq_zero_iff.mp (by omega)
  have htext : text [enableJson, enableJson] = text g :=
    Option.some.inj hbackup
  have hlast : g.getLast? = some enableJson := by
    have hnewest := hkept.newest
    rw [RotatingLog.kept, hclosed, hmain] at hnewest
    simpa using hnewest
  have hbound := hkept.bounded g (by rw [hclosed]; simp) enableJson hlast
  rw [← htext] at hbound
  simp [text, evenFile] at hbound

end AuditFile

end BabilCors
