import BabilCors.PyValue

/-!
# Reading the head of a request

`read_line` and `read_http_headers` over a stream reader.  The reader stands
for what a client sends in time: the bytes that have come and have not been
read, and whether the peer closes behind them or goes silent.  A head is read
exactly when it is a series of lines, none too long, up to the first empty
one, and not too large altogether; what stands behind the empty line is left
for the body.
-/

namespace BabilCors

open Py

/-! ## The functions of the source -/

structure StreamReader where
  buffer : List UInt8
  closed : Bool
  deriving DecidableEq, Repr

/-- The limit of a reader that `asyncio.start_server` makes. -/
def streamLimit : ℕ := 65536

def newline : UInt8 := 10

/-- `readline` within its time: the line with its end, or what is left when
the peer has closed.  `none` is the time-out.  The exception of an overlong
line has one of two texts, which nobody reads. -/
def StreamReader.readline (r : StreamReader) :
    Except PyErr (Option (List UInt8 × StreamReader)) :=
  let line := r.buffer.takeWhile (· != newline)
  if streamLimit < line.length then
    .error (.valueError "Separator is not found, and chunk exceed the limit")
  else
    match r.buffer.drop line.length with
    | stop :: rest => .ok (some (line ++ [stop], { r with buffer := rest }))
    | [] =>
        if r.closed then .ok (some (line, { r with buffer := [] }))
        else .ok none

def readLine (limit : ℕ) (r : StreamReader) :
    Except PyErr (Option (List UInt8 × StreamReader)) :=
  match r.readline with
  | .error e => .error e
  | .ok none => .ok none
  | .ok (some (line, r)) =>
      if line = [] ∨ limit < line.length then .ok none
      else .ok (some (line, r))

/-! ## One line -/

/-- A line with its end. -/
def IsLine (line : List UInt8) : Prop :=
  ∃ text, newline ∉ text ∧ line = text ++ [newline]

/-- The next line of the reader: one with its end, or the rest of a stream
that the peer has closed. -/
inductive LineRead (r : StreamReader) : List UInt8 → StreamReader → Prop
  | ended (line rest : List UInt8) (hline : IsLine line)
      (hbuffer : r.buffer = line ++ rest) :
      LineRead r line { r with buffer := rest }
  | cut (hnone : newline ∉ r.buffer) : LineRead r r.buffer ⟨[], r.closed⟩

theorem bne_newline {text : List UInt8} (htext : newline ∉ text) :
    ∀ b ∈ text, (b != newline) = true := by
  intro b hb
  have hne : b ≠ newline := fun h => htext (h ▸ hb)
  simpa using hne

theorem takeWhile_line {text : List UInt8} (htext : newline ∉ text)
    (rest : List UInt8) :
    (text ++ newline :: rest).takeWhile (· != newline) = text := by
  rw [List.takeWhile_append_of_pos (bne_newline htext)]
  simp

theorem StreamReader.readline_of_line {r : StreamReader}
    {text rest : List UInt8} (htext : newline ∉ text)
    (hbuffer : r.buffer = text ++ newline :: rest) :
    r.readline =
      if streamLimit < text.length then
        .error (.valueError
          "Separator is not found, and chunk exceed the limit")
      else .ok (some (text ++ [newline], { r with buffer := rest })) := by
  unfold readline
  simp only [hbuffer, takeWhile_line htext, List.drop_left]

theorem StreamReader.lineRead_of_readline {r r' : StreamReader}
    {line : List UInt8} (hread : r.readline = .ok (some (line, r'))) :
    LineRead r line r' := by
  by_cases hstop : newline ∈ r.buffer
  · obtain ⟨text, rest, hbuffer, htext⟩ := List.eq_append_cons_of_mem hstop
    rw [readline_of_line htext hbuffer] at hread
    split_ifs at hread
    obtain ⟨rfl, rfl⟩ := Prod.mk.inj (Option.some.inj (Except.ok.inj hread))
    refine .ended _ rest ⟨text, htext, rfl⟩ ?_
    simpa using hbuffer
  · have hall : r.buffer.takeWhile (· != newline) = r.buffer :=
      List.takeWhile_eq_self_iff.mpr (bne_newline hstop)
    unfold readline at hread
    simp only [hall, List.drop_length] at hread
    split_ifs at hread
    · obtain ⟨rfl, rfl⟩ := Prod.mk.inj (Option.some.inj (Except.ok.inj hread))
      exact .cut hstop
    · cases hread

theorem lineRead_of_readLine {limit : ℕ} {r r' : StreamReader}
    {line : List UInt8} (hread : readLine limit r = .ok (some (line, r'))) :
    LineRead r line r' ∧ line ≠ [] ∧ line.length ≤ limit := by
  unfold readLine at hread
  cases hline : r.readline with
  | error e =>
      rw [hline] at hread
      cases hread
  | ok line? =>
      rw [hline] at hread
      cases line? with
      | none => cases hread
      | some pair =>
          obtain ⟨first, r₁⟩ := pair
          dsimp only at hread
          split_ifs at hread with hbad
          · cases hread
          · obtain ⟨rfl, rfl⟩ :=
              Prod.mk.inj (Option.some.inj (Except.ok.inj hread))
            rw [not_or, Nat.not_lt] at hbad
            exact ⟨r.lineRead_of_readline hline, hbad.1, hbad.2⟩

theorem readLine_shorter {limit : ℕ} {r r' : StreamReader}
    {line : List UInt8} (hread : readLine limit r = .ok (some (line, r'))) :
    r'.buffer.length < r.buffer.length := by
  obtain ⟨hline, hne, -⟩ := lineRead_of_readLine hread
  have hpos := List.length_pos_iff.mpr hne
  cases hline with
  | ended line rest hline hbuffer =>
      rw [hbuffer, List.length_append]
      exact Nat.lt_add_of_pos_left hpos
  | cut _ => exact hpos

/-- A line that is not too long is read. -/
theorem readLine_of_line {limit : ℕ} (hlimit : limit ≤ streamLimit)
    {line : List UInt8} (hline : IsLine line) (hlength : line.length ≤ limit)
    (rest : List UInt8) (closed : Bool) :
    readLine limit ⟨line ++ rest, closed⟩ =
      .ok (some (line, ⟨rest, closed⟩)) := by
  obtain ⟨text, htext, rfl⟩ := hline
  have hshort : ¬ streamLimit < text.length := by
    rw [List.length_append, List.length_singleton] at hlength
    omega
  have hbuffer : text ++ [newline] ++ rest = text ++ newline :: rest :=
    List.append_assoc _ _ _
  unfold readLine
  rw [StreamReader.readline_of_line htext hbuffer, if_neg hshort]
  dsimp only
  rw [if_neg]
  simpa using hlength

/-! ## The head -/

def lineLimit : ℕ := 8192

def maxTotalBytes : ℕ := 64 * 1024

/-- The two lines that end a head. -/
def IsBlank (line : List UInt8) : Prop :=
  line = [13, newline] ∨ line = [newline]

instance : DecidablePred IsBlank := fun line =>
  inferInstanceAs (Decidable (line = [13, newline] ∨ line = [newline]))

/-- The loop of `read_http_headers`; `total` of the source is the length of
the buffer. -/
def readHeaderLines (buf : List UInt8) (r : StreamReader) :
    Except PyErr (Option (List UInt8 × StreamReader)) :=
  match _hread : readLine lineLimit r with
  | .error e => .error e
  | .ok none => .ok none
  | .ok (some (line, r')) =>
      if maxTotalBytes < (buf ++ line).length then .ok none
      else if IsBlank line then .ok (some (buf ++ line, r'))
      else readHeaderLines (buf ++ line) r'
termination_by r.buffer.length
decreasing_by exact readLine_shorter _hread

def readHttpHeaders (firstLine : List UInt8) (r : StreamReader) :
    Except PyErr (Option (List UInt8 × StreamReader)) :=
  readHeaderLines firstLine r

theorem IsBlank.isLine {line : List UInt8} (h : IsBlank line) :
    IsLine line := by
  rcases h with rfl | rfl
  · exact ⟨[13], by decide, rfl⟩
  · exact ⟨[], by decide, rfl⟩

theorem readHeaderLines_eq (buf : List UInt8) (r : StreamReader) :
    readHeaderLines buf r =
      match readLine lineLimit r with
      | .error e => .error e
      | .ok none => .ok none
      | .ok (some (line, r')) =>
          if maxTotalBytes < (buf ++ line).length then .ok none
          else if IsBlank line then .ok (some (buf ++ line, r'))
          else readHeaderLines (buf ++ line) r' := by
  rw [readHeaderLines]
  split <;> next hread => rw [hread]

theorem readHeaderLines_of_line {buf line : List UInt8} (hline : IsLine line)
    (hlength : line.length ≤ lineLimit)
    (htotal : (buf ++ line).length ≤ maxTotalBytes) (rest : List UInt8)
    (closed : Bool) :
    readHeaderLines buf ⟨line ++ rest, closed⟩ =
      if IsBlank line then .ok (some (buf ++ line, ⟨rest, closed⟩))
      else readHeaderLines (buf ++ line) ⟨rest, closed⟩ := by
  rw [readHeaderLines_eq, readLine_of_line (by decide) hline hlength]
  exact if_neg (Nat.not_lt.mpr htotal)

/-- A line of the head before the empty one. -/
structure IsHeaderLine (line : List UInt8) : Prop where
  ended : IsLine line
  length : line.length ≤ lineLimit
  notBlank : ¬ IsBlank line

/-- The bytes are the lines of a head, with the empty line that ends it. -/
inductive IsHead : List UInt8 → Prop
  | blank {line : List UInt8} (hblank : IsBlank line) : IsHead line
  | line {line rest : List UInt8} (hline : IsHeaderLine line)
      (hrest : IsHead rest) : IsHead (line ++ rest)

theorem IsLine.mem {line : List UInt8} (h : IsLine line) :
    newline ∈ line := by
  obtain ⟨text, -, rfl⟩ := h
  simp

theorem IsHead.ne_nil {head : List UInt8} (h : IsHead head) : head ≠ [] := by
  have hmem : newline ∈ head := by
    cases h with
    | blank hblank => exact hblank.isLine.mem
    | line hline _ => exact List.mem_append_left _ hline.ended.mem
  exact List.ne_nil_of_mem hmem

theorem readHeaderLines_of_head {head : List UInt8} (hhead : IsHead head)
    {buf : List UInt8} (htotal : (buf ++ head).length ≤ maxTotalBytes)
    (rest : List UInt8) (closed : Bool) :
    readHeaderLines buf ⟨head ++ rest, closed⟩ =
      .ok (some (buf ++ head, ⟨rest, closed⟩)) := by
  induction hhead generalizing buf with
  | @blank line hblank =>
      have hlength : line.length ≤ lineLimit := by
        rcases hblank with rfl | rfl <;> decide
      rw [readHeaderLines_of_line hblank.isLine hlength htotal,
        if_pos hblank]
  | @line line later hline hrest ih =>
      rw [← List.append_assoc] at htotal
      have hfirst : (buf ++ line).length ≤ maxTotalBytes := by
        rw [List.length_append] at htotal
        omega
      rw [List.append_assoc,
        readHeaderLines_of_line hline.ended hline.length hfirst,
        if_neg hline.notBlank, ih htotal, List.append_assoc]

theorem head_of_readHeaderLines {buf raw : List UInt8} {r r' : StreamReader}
    (hread : readHeaderLines buf r = .ok (some (raw, r'))) :
    ∃ head, IsHead head ∧ raw = buf ++ head ∧
      r.buffer = head ++ r'.buffer ∧ r'.closed = r.closed ∧
      raw.length ≤ maxTotalBytes := by
  induction buf, r using readHeaderLines.induct with
  | case1 buf r e hline =>
      rw [readHeaderLines_eq, hline] at hread
      cases hread
  | case2 buf r hline =>
      rw [readHeaderLines_eq, hline] at hread
      cases hread
  | case3 buf r line next hline hover =>
      rw [readHeaderLines_eq, hline] at hread
      dsimp only at hread
      rw [if_pos hover] at hread
      cases hread
  | case4 buf r line next hline hover hblank =>
      rw [readHeaderLines_eq, hline] at hread
      dsimp only at hread
      rw [if_neg hover, if_pos hblank] at hread
      obtain ⟨rfl, rfl⟩ := Prod.mk.inj (Option.some.inj (Except.ok.inj hread))
      obtain ⟨hnext, -, -⟩ := lineRead_of_readLine hline
      refine ⟨line, .blank hblank, rfl, ?_⟩
      cases hnext with
      | ended line rest _ hbuffer =>
          exact ⟨hbuffer, rfl, Nat.not_lt.mp hover⟩
      | cut hnone => exact (hnone hblank.isLine.mem).elim
  | case5 buf r line next hline hover hblank ih =>
      rw [readHeaderLines_eq, hline] at hread
      dsimp only at hread
      rw [if_neg hover, if_neg hblank] at hread
      obtain ⟨hnext, hne, hlength⟩ := lineRead_of_readLine hline
      obtain ⟨head, hhead, rfl, hbuffer, hclosed, htotal⟩ := ih hread
      cases hnext with
      | ended line rest hends hstart =>
          refine ⟨line ++ head, .line ⟨hends, hlength, hblank⟩ hhead,
            List.append_assoc _ _ _, ?_, hclosed, htotal⟩
          rw [hstart, List.append_assoc]
          exact congrArg (line ++ ·) hbuffer
      | cut _ =>
          -- nothing is left for the empty line
          exact (hhead.ne_nil (List.append_eq_nil_iff.mp hbuffer.symm).1).elim

/-- A head is read exactly when the stream begins with one that is not too
large together with the request line; what stands behind it is left. -/
theorem readHttpHeaders_eq_some_iff {firstLine raw : List UInt8}
    {r r' : StreamReader} :
    readHttpHeaders firstLine r = .ok (some (raw, r')) ↔
      ∃ head, IsHead head ∧ raw = firstLine ++ head ∧
        r.buffer = head ++ r'.buffer ∧ r'.closed = r.closed ∧
        raw.length ≤ maxTotalBytes := by
  constructor
  · exact head_of_readHeaderLines
  · rintro ⟨head, hhead, rfl, hbuffer, hclosed, htotal⟩
    obtain ⟨buffer, closed⟩ := r
    obtain ⟨rest, closed'⟩ := r'
    dsimp only at hbuffer hclosed
    rw [hbuffer, hclosed]
    exact readHeaderLines_of_head hhead htotal rest closed

end BabilCors
