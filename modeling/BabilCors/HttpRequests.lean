import Mathlib.Data.Bool.AllAny
import BabilCors.BasicAuthentication
import BabilCors.ConnectionFilter
import BabilCors.HttpHead

/-!
# The request in the bytes

The first part of `_handle_http`: the head is decoded and cut into lines, the
request line gives the method and the target, and the lines up to the first
empty one give the headers, the last one of a name winning.  What a client
writes is read back, and the bytes behind the head are left for the body.
-/

namespace Py

/-- The characters that end a line for `str.splitlines`. -/
def isLineBreak (c : Char) : Bool :=
  let n := c.toNat
  (10 ≤ n && n ≤ 13) || (0x1c ≤ n && n ≤ 0x1e) || n == 0x85 ||
    n == 0x2028 || n == 0x2029

/-- The lines of the characters to come: whether a carriage return has just
ended a line, and the characters of the line so far. -/
def splitLinesLoop : Bool → List Char → List Char → List (List Char)
  | _, line, [] => if line = [] then [] else [line]
  | afterCr, line, c :: cs =>
      if afterCr && c == '\n' then splitLinesLoop false line cs
      else if isLineBreak c then line :: splitLinesLoop (c == '\r') [] cs
      else splitLinesLoop false (line ++ [c]) cs

def splitlines (s : String) : List String :=
  (splitLinesLoop false [] s.toList).map .ofList

theorem isLineBreak_of_isSpace {c : Char} (hc : isSpace c = false) :
    isLineBreak c = false := by
  unfold isSpace at hc
  unfold isLineBreak
  grind

theorem noLineBreak {s : String} (hs : (s.toList.all fun c =>
    !isLineBreak c) = true) {c : Char} (hc : c ∈ s.toList) :
    isLineBreak c = false := by
  simpa using List.all_eq_true.mp hs c hc

theorem splitLinesLoop_line {text : List Char}
    (htext : ∀ c ∈ text, isLineBreak c = false) (line rest : List Char) :
    splitLinesLoop false line (text ++ '\r' :: '\n' :: rest) =
      (line ++ text) :: splitLinesLoop false [] rest := by
  induction text generalizing line with
  | nil => simp [splitLinesLoop, isLineBreak]
  | cons c text ih =>
      obtain ⟨hc, htext⟩ := List.forall_mem_cons.mp htext
      rw [List.cons_append, splitLinesLoop, Bool.false_and,
        if_neg Bool.false_ne_true, hc, if_neg Bool.false_ne_true, ih htext,
        List.append_assoc, List.singleton_append]

/-- Lines with their ends are read back. -/
theorem splitlines_lines {lines : List String}
    (hlines : ∀ line ∈ lines, ∀ c ∈ line.toList, isLineBreak c = false) :
    splitlines (.ofList (lines.flatMap fun line =>
      line.toList ++ ['\r', '\n'])) = lines := by
  unfold splitlines
  rw [String.toList_ofList]
  induction lines with
  | nil => rfl
  | cons line lines ih =>
      obtain ⟨hline, hlines⟩ := List.forall_mem_cons.mp hlines
      have hflat : (line :: lines).flatMap (fun line =>
          line.toList ++ ['\r', '\n']) = line.toList ++ '\r' :: '\n' ::
            lines.flatMap fun line => line.toList ++ ['\r', '\n'] := by
        simp
      rw [hflat, splitLinesLoop_line hline, List.nil_append, List.map_cons,
        ih hlines, String.ofList_toList]

/-- Bytes of a character other than the newline. -/
theorem newline_notMem_utf8EncodeChar {c : Char} (hc : c ≠ '\n') :
    (10 : UInt8) ∉ String.utf8EncodeChar c := by
  have hne : c.val.toNat ≠ 10 := by
    intro h
    apply hc
    rw [← Char.ofNat_toNat c]
    exact congrArg Char.ofNat h
  have hvalid : c.val.toNat < 0xd800 ∨
      0xdfff < c.val.toNat ∧ c.val.toNat < 0x110000 := c.valid
  have hother {n : ℕ} (hn : n < 256) (hten : n ≠ 10) :
      (10 : UInt8) ≠ UInt8.ofNat n := by
    intro heq
    have hback : (UInt8.ofNat n).toNat = n := Nat.mod_eq_of_lt hn
    rw [← heq] at hback
    exact hten hback.symm
  unfold String.utf8EncodeChar
  dsimp only
  generalize c.val.toNat = v at hne hvalid
  intro hmem
  split_ifs at hmem
  all_goals
    simp only [List.mem_cons, List.not_mem_nil, or_false] at hmem
  · exact hother (by omega) hne hmem
  · rcases hmem with h | h <;> exact hother (by omega) (by omega) h
  · rcases hmem with h | h | h <;> exact hother (by omega) (by omega) h
  · rcases hmem with h | h | h | h <;> exact hother (by omega) (by omega) h

theorem newline_notMem_utf8Encode {s : String} (hs : '\n' ∉ s.toList) :
    (10 : UInt8) ∉ utf8Encode s := by
  rw [utf8Encode_eq, List.mem_flatMap]
  rintro ⟨c, hc, hbyte⟩
  exact newline_notMem_utf8EncodeChar (fun h => hs (h ▸ hc)) hbyte

end Py

namespace BabilCors

open Py

/-! ## The functions of the source -/

structure HttpHead where
  method : String
  target : String
  headers : PyDict String String
  deriving DecidableEq, Repr

/-- A line of the headers: one without a colon is passed over. -/
def addHeader (headers : PyDict String String) (ln : String) :
    PyDict String String :=
  match after? ':' ln with
  | none => headers
  | some v => headers.set (lower (strip (before ':' ln))) (strip v)

/-- The request line and the headers of the decoded head; `none` is where
`_handle_http` returns without a reply. -/
def parseHead (raw : List UInt8) : Option HttpHead :=
  match splitlines (safeDecode raw) with
  | [] => none
  | first :: rest =>
      match splitWs first with
      | method :: target :: _ =>
          some ⟨upper method, target,
            (rest.takeWhile fun ln => strip ln ≠ "").foldl addHeader []⟩
      | _ => none

/-- The beginning of `_handle_http`. -/
def readHead (first : List UInt8) (r : StreamReader) :
    Except PyErr (Option (HttpHead × StreamReader)) :=
  match readHttpHeaders first r with
  | .error e => .error e
  | .ok none => .ok none
  | .ok (some (raw, r)) => .ok ((parseHead raw).map fun head => (head, r))

/-! ## What a client writes -/

structure ClientRequest where
  method : String
  target : String
  headers : List (String × String)

def lineBytes (line : String) : List UInt8 :=
  utf8Encode line ++ [13, newline]

namespace ClientRequest

def requestLine (q : ClientRequest) : String :=
  q.method ++ " " ++ q.target ++ " HTTP/1.1"

def headerLines (q : ClientRequest) : List String :=
  q.headers.map fun header => header.1 ++ ": " ++ header.2

/-- The header lines and the empty line behind them. -/
def headBytes (q : ClientRequest) : List UInt8 :=
  q.headerLines.flatMap lineBytes ++ [13, newline]

def bytes (q : ClientRequest) : List UInt8 :=
  lineBytes q.requestLine ++ q.headBytes

end ClientRequest

/-- A header as a client may write it: the name is an ASCII word without a
colon, and the value has no line breaks and no blanks around it. -/
structure PlainHeader (header : String × String) : Prop where
  name : header.1 ≠ ""
  ascii : ∀ c ∈ header.1.toList, c.toNat < 128
  word : ∀ c ∈ header.1.toList, isSpace c = false ∧ c ≠ ':'
  value : ∀ c ∈ header.2.toList, isLineBreak c = false
  stripped : strip header.2 = header.2

theorem PlainHeader.of_all {header : String × String}
    (hname : header.1 ≠ "")
    (hchars : (header.1.toList.all fun c =>
      c.toNat < 128 && !isSpace c && c != ':') = true)
    (hvalue : (header.2.toList.all fun c => !isLineBreak c) = true)
    (hstripped : strip header.2 = header.2) : PlainHeader header := by
  have hplain : ∀ c ∈ header.1.toList,
      c.toNat < 128 ∧ isSpace c = false ∧ c ≠ ':' := by
    intro c hc
    simpa [and_assoc] using List.all_eq_true.mp hchars c hc
  exact ⟨hname, fun c hc => (hplain c hc).1, fun c hc => (hplain c hc).2,
    fun c hc => by simpa using List.all_eq_true.mp hvalue c hc, hstripped⟩

def httpMethods : List String :=
  ["GET", "POST", "PATCH", "DELETE", "PUT", "OPTIONS"]

/-- A request within the limits of the server. -/
structure PlainRequest (q : ClientRequest) : Prop where
  method : q.method ∈ httpMethods
  target : q.target ≠ ""
  word : ∀ c ∈ q.target.toList, isSpace c = false
  headers : ∀ header ∈ q.headers, PlainHeader header
  requestLine : (lineBytes q.requestLine).length ≤ lineLimit
  headerLines : ∀ line ∈ q.headerLines, (lineBytes line).length ≤ lineLimit
  total : q.bytes.length ≤ maxTotalBytes

/-- What the server makes of the headers. -/
def headerDict (headers : List (String × String)) : PyDict String String :=
  headers.foldl (fun d header => d.set (lower header.1) header.2) []

/-! ## One line -/

theorem strip_space_cons (s : String) : strip (" " ++ s) = strip s := by
  unfold strip
  rw [String.toList_append]
  rfl

theorem strip_word {s : String} (hs : ∀ c ∈ s.toList, isSpace c = false) :
    strip s = s := by
  rw [← String.ofList_toList (s := s)]
  exact strip_of_noSpace (by simpa using hs)

theorem addHeader_plain {header : String × String} (h : PlainHeader header)
    (d : PyDict String String) :
    addHeader d (header.1 ++ ": " ++ header.2) =
      d.set (lower header.1) header.2 := by
  have hcolon : ':' ∉ header.1.toList :=
    fun hmem => (h.word ':' hmem).2 rfl
  have hline : header.1 ++ ": " ++ header.2 =
      header.1 ++ ":" ++ (" " ++ header.2) := by
    have hsep : ": " = ":" ++ " " := by decide
    rw [hsep, ← String.append_assoc, String.append_assoc]
  obtain ⟨hbefore, hafter⟩ := parts_at_colon hcolon (" " ++ header.2)
  unfold addHeader
  rw [hline, hafter, hbefore]
  dsimp only
  rw [strip_word fun c hc => (h.word c hc).1, strip_space_cons, h.stripped]

theorem strip_ne_empty {s : String} {c : Char} (hc : c ∈ s.toList)
    (hspace : isSpace c = false) : strip s ≠ "" := by
  intro hempty
  have hchars : ((s.toList.dropWhile isSpace).rdropWhile isSpace) = [] := by
    rw [← String.toList_ofList
      (l := (s.toList.dropWhile isSpace).rdropWhile isSpace)]
    exact congrArg String.toList hempty
  have hall := List.rdropWhile_eq_nil_iff.mp hchars
  have hsuffix : ∀ x ∈ s.toList, isSpace x = true := by
    intro x hx
    rw [← List.takeWhile_append_dropWhile (p := isSpace) (l := s.toList)]
      at hx
    rcases List.mem_append.mp hx with hfront | hback
    · exact List.mem_takeWhile_imp hfront
    · exact hall x hback
  rw [hsuffix c hc] at hspace
  cases hspace

/-- A header line has something in it. -/
theorem strip_header_ne {header : String × String} (h : PlainHeader header) :
    strip (header.1 ++ ": " ++ header.2) ≠ "" := by
  obtain ⟨c, hc⟩ := List.exists_mem_of_ne_nil header.1.toList
    fun hnil => h.name (String.toList_eq_nil_iff.mp hnil)
  apply strip_ne_empty (c := c) _ (h.word c hc).1
  simp [String.toList_append, hc]

theorem header_noBreak {header : String × String} (h : PlainHeader header) :
    ∀ c ∈ (header.1 ++ ": " ++ header.2).toList, isLineBreak c = false := by
  intro c hc
  simp only [String.toList_append, List.mem_append] at hc
  rcases hc with (hname | hcolon) | hvalue
  · exact isLineBreak_of_isSpace (h.word c hname).1
  · exact noLineBreak (by decide) hcolon
  · exact h.value c hvalue

/-- Three words with blanks between them. -/
theorem splitWs_words {a b c : String} (ha : a ≠ "") (hb : b ≠ "")
    (hc : c ≠ "") (hwords : ∀ s ∈ [a, b, c], ∀ x ∈ s.toList,
      isSpace x = false) :
    splitWs (a ++ " " ++ b ++ " " ++ c) = [a, b, c] := by
  have hne {s : String} (hs : s ≠ "") : s.toList ≠ [] :=
    fun h => hs (String.toList_eq_nil_iff.mp h)
  have hlist : (a ++ " " ++ b ++ " " ++ c).toList =
      a.toList ++ ' ' :: (b.toList ++ ' ' :: c.toList) := by
    simp [String.toList_append]
  unfold splitWs
  rw [hlist, List.splitOnP_append_cons _ _ (by decide),
    List.splitOnP_append_cons _ _ (by decide),
    List.splitOnP_eq_singleton (hwords a (by simp)),
    List.splitOnP_eq_singleton (hwords b (by simp)),
    List.splitOnP_eq_singleton (hwords c (by simp))]
  simp [hne ha, hne hb, hne hc]

theorem foldl_addHeader {headers : List (String × String)}
    (hplain : ∀ header ∈ headers, PlainHeader header)
    (d : PyDict String String) :
    (headers.map fun header => header.1 ++ ": " ++ header.2).foldl addHeader
        d =
      headers.foldl (fun d header => d.set (lower header.1) header.2) d := by
  rw [List.foldl_map]
  induction headers generalizing d with
  | nil => rfl
  | cons header headers ih =>
      obtain ⟨hheader, hplain⟩ := List.forall_mem_cons.mp hplain
      rw [List.foldl_cons, List.foldl_cons, addHeader_plain hheader,
        ih hplain]

/-! ## The head that is read -/

theorem PlainRequest.methodWord {q : ClientRequest} (h : PlainRequest q) :
    q.method ≠ "" ∧ upper q.method = q.method ∧
      ∀ c ∈ q.method.toList, isSpace c = false := by
  have hall : ∀ method ∈ httpMethods, method ≠ "" ∧
      upper method = method ∧ method.toList.all fun c => !isSpace c := by
    decide +kernel
  obtain ⟨hne, hupper, hword⟩ := hall q.method h.method
  exact ⟨hne, hupper, by simpa using hword⟩

theorem PlainRequest.requestLine_noBreak {q : ClientRequest}
    (h : PlainRequest q) :
    ∀ c ∈ q.requestLine.toList, isLineBreak c = false := by
  obtain ⟨-, -, hmethod⟩ := h.methodWord
  intro c hc
  simp only [ClientRequest.requestLine, String.toList_append,
    List.mem_append] at hc
  rcases hc with ((hword | hblank) | hword) | hversion
  · exact isLineBreak_of_isSpace (hmethod c hword)
  · exact noLineBreak (by decide) hblank
  · exact isLineBreak_of_isSpace (h.word c hword)
  · exact noLineBreak (by decide) hversion

theorem PlainRequest.headerLines_noBreak {q : ClientRequest}
    (h : PlainRequest q) {line : String} (hline : line ∈ q.headerLines) :
    ∀ c ∈ line.toList, isLineBreak c = false := by
  obtain ⟨header, hheader, rfl⟩ := List.mem_map.mp hline
  exact header_noBreak (h.headers header hheader)

theorem isLine_lineBytes {line : String}
    (hline : ∀ c ∈ line.toList, isLineBreak c = false) :
    IsLine (lineBytes line) := by
  have hnewline : '\n' ∉ line.toList := by
    intro hmem
    have hbreak := hline '\n' hmem
    revert hbreak
    decide
  refine ⟨utf8Encode line ++ [13], ?_, by simp [lineBytes]⟩
  rw [List.mem_append, not_or]
  exact ⟨newline_notMem_utf8Encode hnewline, by decide⟩

theorem safeDecode_lines (lines : List String) :
    safeDecode (lines.flatMap lineBytes) =
      .ofList (lines.flatMap fun line => line.toList ++ ['\r', '\n']) := by
  have hbytes : lines.flatMap lineBytes =
      utf8Encode (.ofList (lines.flatMap fun line =>
        line.toList ++ ['\r', '\n'])) := by
    rw [utf8Encode_eq, String.toList_ofList, List.flatMap_assoc]
    congr 1
    funext line
    rw [lineBytes, utf8Encode_eq, List.flatMap_append]
    rfl
  rw [hbytes, safeDecode_utf8Encode]

theorem parseHead_bytes {q : ClientRequest} (h : PlainRequest q) :
    parseHead q.bytes = some ⟨q.method, q.target, headerDict q.headers⟩ := by
  obtain ⟨hne, hupper, hmethod⟩ := h.methodWord
  have hbytes : q.bytes =
      (q.requestLine :: (q.headerLines ++ [""])).flatMap lineBytes := by
    have hempty : lineBytes "" = [13, newline] := by
      rw [lineBytes, utf8Encode_eq]
      rfl
    rw [List.flatMap_cons, List.flatMap_append, List.flatMap_singleton,
      hempty]
    rfl
  have hlines : splitlines (safeDecode q.bytes) =
      q.requestLine :: (q.headerLines ++ [""]) := by
    rw [hbytes, safeDecode_lines]
    apply splitlines_lines
    intro line hline
    rcases List.mem_cons.mp hline with rfl | hline
    · exact h.requestLine_noBreak
    · rcases List.mem_append.mp hline with hheader | hempty
      · exact h.headerLines_noBreak hheader
      · obtain rfl := List.mem_singleton.mp hempty
        simp
  have hwords : splitWs q.requestLine = [q.method, q.target, "HTTP/1.1"] := by
    have hline : q.requestLine =
        q.method ++ " " ++ q.target ++ " " ++ "HTTP/1.1" := by
      have hversion : " HTTP/1.1" = " " ++ "HTTP/1.1" := by decide
      rw [ClientRequest.requestLine, hversion, ← String.append_assoc]
    rw [hline]
    apply splitWs_words hne h.target (by decide)
    intro s hs
    simp only [List.mem_cons, List.not_mem_nil, or_false] at hs
    rcases hs with rfl | rfl | rfl
    · exact hmethod
    · exact h.word
    · exact List.all_iff_forall_prop.mp (by decide)
  have htake : (q.headerLines ++ [""]).takeWhile (fun ln => strip ln ≠ "") =
      q.headerLines := by
    have hpass : ∀ line ∈ q.headerLines, decide (strip line ≠ "") = true := by
      intro line hline
      obtain ⟨header, hheader, rfl⟩ := List.mem_map.mp hline
      exact decide_eq_true (strip_header_ne (h.headers header hheader))
    rw [List.takeWhile_append_of_pos hpass]
    simp [strip]
  unfold parseHead
  rw [hlines]
  dsimp only
  rw [hwords]
  dsimp only
  rw [hupper, htake]
  exact congrArg (fun headers => some (HttpHead.mk q.method q.target headers))
    (foldl_addHeader h.headers [])

theorem notBlank_lineBytes {line : String} (hline : line ≠ "") :
    ¬ IsBlank (lineBytes line) := by
  have hbytes : utf8Encode line ≠ [] := by
    intro hempty
    apply hline
    rw [← safeDecode_utf8Encode line, hempty]
    rfl
  have hpos := List.length_pos_of_ne_nil hbytes
  rintro (hblank | hblank)
  all_goals
    have hlength := congrArg List.length hblank
    simp only [lineBytes, List.length_append, List.length_cons,
      List.length_nil] at hlength
    omega

theorem isHead_headBytes {q : ClientRequest} (h : PlainRequest q) :
    IsHead q.headBytes := by
  have hlines : ∀ line ∈ q.headerLines, IsHeaderLine (lineBytes line) := by
    intro line hline
    refine ⟨isLine_lineBytes (h.headerLines_noBreak hline),
      h.headerLines line hline, notBlank_lineBytes ?_⟩
    obtain ⟨header, hheader, rfl⟩ := List.mem_map.mp hline
    intro hempty
    exact strip_header_ne (h.headers header hheader) (by rw [hempty]; rfl)
  unfold ClientRequest.headBytes
  generalize q.headerLines = lines at hlines
  induction lines with
  | nil => exact .blank (.inl rfl)
  | cons line lines ih =>
      obtain ⟨hline, hlines⟩ := List.forall_mem_cons.mp hlines
      rw [List.flatMap_cons, List.append_assoc]
      exact .line hline (ih hlines)

/-- Whatever stands behind it, a request is read as the client wrote it, and
the rest is left for the body. -/
theorem readHead_bytes {q : ClientRequest} (h : PlainRequest q)
    (rest : List UInt8) (closed : Bool) :
    readLine lineLimit ⟨q.bytes ++ rest, closed⟩ =
        .ok (some (lineBytes q.requestLine, ⟨q.headBytes ++ rest, closed⟩)) ∧
      readHead (lineBytes q.requestLine) ⟨q.headBytes ++ rest, closed⟩ =
        .ok (some (⟨q.method, q.target, headerDict q.headers⟩,
          ⟨rest, closed⟩)) := by
  constructor
  · rw [ClientRequest.bytes, List.append_assoc]
    exact readLine_of_line (by decide)
      (isLine_lineBytes h.requestLine_noBreak) h.requestLine _ closed
  · unfold readHead readHttpHeaders
    rw [readHeaderLines_of_head (isHead_headBytes h) h.total rest closed]
    dsimp only
    rw [← ClientRequest.bytes, parseHead_bytes h]
    rfl

end BabilCors
