import Mathlib.Tactic

/-!
# The text exposition format

A sample of a metrics page is a name, labels in braces and a number; in the
value of a label a backslash, a double quote and a newline are escaped.  A line
that puts the values of its labels down as they are is a sample that gives
them back exactly when none of them has such a character.
-/

namespace ExpositionFormat

def quote : Char := Char.ofNat 34

def escapeChar (c : Char) : List Char :=
  if c = '\\' then ['\\', '\\']
  else if c = quote then ['\\', quote]
  else if c = '\n' then ['\\', 'n']
  else [c]

def escape (s : List Char) : List Char :=
  s.flatMap escapeChar

/-- A text without a character to escape. -/
def Plain (s : List Char) : Prop :=
  ∀ c ∈ s, c ≠ '\\' ∧ c ≠ quote ∧ c ≠ '\n'

@[simp] theorem escape_cons (c : Char) (s : List Char) :
    escape (c :: s) = escapeChar c ++ escape s := rfl

theorem escape_of_plain {s : List Char} (hplain : Plain s) :
    escape s = s := by
  induction s with
  | nil => rfl
  | cons c s ih =>
      rcases List.forall_mem_cons.mp hplain with ⟨⟨hslash, hquote, hline⟩, hs⟩
      rw [escape_cons, ih hs]
      simp [escapeChar, hslash, hquote, hline]

theorem newline_notMem_escape (s : List Char) : '\n' ∉ escape s := by
  intro hmem
  rcases List.mem_flatMap.mp hmem with ⟨c, _, hc⟩
  unfold escapeChar at hc
  split_ifs at hc with hslash hquote hline
  · exact absurd hc (by decide)
  · exact absurd hc (by decide)
  · exact absurd hc (by decide)
  · exact hline (List.mem_singleton.mp hc).symm

/-- A text and its escaped form that are both followed by the closing quote are
the same only if nothing was escaped.  Each escaped character leaves one more
backslash pending, and pending backslashes are never used up. -/
theorem plain_of_escape_append {s r r' : List Char} {pending : ℕ}
    (heq : List.replicate pending '\\' ++ escape s ++ quote :: r =
      s ++ quote :: r') : pending = 0 ∧ Plain s := by
  induction s generalizing pending with
  | nil =>
      cases pending with
      | zero => exact ⟨rfl, by simp [Plain]⟩
      | succ pending => exact absurd (List.cons.inj heq).1 (by decide)
  | cons c s ih =>
      rw [escape_cons] at heq
      cases pending with
      | zero =>
          unfold escapeChar at heq
          split_ifs at heq with hslash hquote hline
          · have hone : List.replicate 1 '\\' ++ escape s ++ quote :: r =
                s ++ quote :: r' := (List.cons.inj heq).2
            exact absurd (ih hone).1 (by decide)
          · have hhead : '\\' = c := (List.cons.inj heq).1
            exact absurd hhead.symm hslash
          · have hhead : '\\' = c := (List.cons.inj heq).1
            exact absurd hhead.symm hslash
          · have hrest : List.replicate 0 '\\' ++ escape s ++ quote :: r =
                s ++ quote :: r' := (List.cons.inj heq).2
            exact ⟨rfl,
              List.forall_mem_cons.mpr ⟨⟨hslash, hquote, hline⟩, (ih hrest).2⟩⟩
      | succ pending =>
          have hhead : '\\' = c := (List.cons.inj heq).1
          subst hhead
          have hrest : List.replicate pending '\\' ++
              (escapeChar '\\' ++ escape s) ++ quote :: r =
                s ++ quote :: r' := (List.cons.inj heq).2
          have hmore : List.replicate (pending + 2) '\\' ++ escape s ++
              quote :: r = s ++ quote :: r' := by
            rw [← hrest, List.replicate_add]
            simp [escapeChar, List.replicate_succ]
          exact absurd (ih hmore).1 (by omega)

/-! ## Samples -/

def isLabelChar (c : Char) : Bool :=
  c.isAlphanum || c == '_'

def isMetricChar (c : Char) : Bool :=
  isLabelChar c || c == ':'

/-- A name of the given characters that does not begin with a digit. -/
def IsName (ok : Char → Bool) (name : List Char) : Prop :=
  name ≠ [] ∧ (∀ c ∈ name, ok c = true) ∧
    ∀ c ∈ name.head?, c.isDigit = false

-- Over the characters of the name: with all of Mathlib imported there is also
-- an instance that goes through every character.
instance (ok : Char → Bool) (name : List Char) : Decidable (IsName ok name) :=
  @instDecidableAnd _ _ inferInstance
    (@instDecidableAnd _ _ (List.decidableBAll _ name)
      (Option.decidableForallMem name.head?))

def signs : List (List Char) :=
  [[], ['+'], ['-']]

def IsDigits (cs : List Char) : Prop :=
  cs ≠ [] ∧ ∀ c ∈ cs, c.isDigit = true

inductive IsNumber : List Char → Prop
  | nan : IsNumber "nan".toList
  | infinity (sign : List Char) (hsign : sign ∈ signs) :
      IsNumber (sign ++ "inf".toList)
  | decimal (sign whole fraction exponent : List Char) (hsign : sign ∈ signs)
      (hwhole : IsDigits whole)
      (hfraction : fraction = [] ∨
        ∃ digits, IsDigits digits ∧ fraction = '.' :: digits)
      (hexponent : exponent = [] ∨
        ∃ sign' ∈ signs, ∃ digits, IsDigits digits ∧
          exponent = 'e' :: (sign' ++ digits)) :
      IsNumber (sign ++ whole ++ fraction ++ exponent)

structure Sample where
  name : List Char
  labels : List (List Char × List Char)
  value : List Char

namespace Sample

def pair (write : List Char → List Char) (label : List Char × List Char) :
    List Char :=
  label.1 ++ '=' :: quote :: (write label.2 ++ [quote])

/-- A line with the values of the labels as `write` puts them down. -/
def line (write : List Char → List Char) (s : Sample) : List Char :=
  s.name ++
    (if s.labels = [] then []
      else '{' :: ([','].intercalate (s.labels.map (pair write)) ++ ['}'])) ++
    ' ' :: s.value

def text (s : Sample) : List Char :=
  s.line escape

def rawText (s : Sample) : List Char :=
  s.line id

structure Valid (s : Sample) : Prop where
  name : IsName isMetricChar s.name
  labelNames : ∀ label ∈ s.labels, IsName isLabelChar label.1
  distinct : (s.labels.map Prod.fst).Nodup
  value : IsNumber s.value

/-- The line is a valid sample that gives this value to this label. -/
def Gives (line key value : List Char) : Prop :=
  ∃ s : Sample, s.Valid ∧ s.text = line ∧ s.labels.lookup key = some value

/-! ## Reading a line back -/

theorem line_eq {s : Sample} {key value : List Char}
    {labels : List (List Char × List Char)}
    (hlabels : s.labels = (key, value) :: labels)
    (write : List Char → List Char) :
    ∃ rest, s.line write =
      s.name ++ '{' :: (key ++ '=' :: (quote ::
        (write value ++ quote :: rest))) := by
  unfold line
  rw [hlabels, if_neg (by simp)]
  cases labels with
  | nil =>
      refine ⟨'}' :: ' ' :: s.value, ?_⟩
      simp [pair, List.intercalate]
  | cons label labels =>
      refine ⟨',' :: ([','].intercalate ((label :: labels).map (pair write)) ++
        '}' :: ' ' :: s.value), ?_⟩
      simp [pair, List.intercalate]

end Sample

/-- Two runs of good characters up to the first bad one. -/
theorem append_cons_inj_of_forall {α : Type*} {ok : α → Bool}
    {l l' r r' : List α} {x x' : α} (hl : ∀ a ∈ l, ok a = true)
    (hl' : ∀ a ∈ l', ok a = true) (hx : ok x = false) (hx' : ok x' = false)
    (heq : l ++ x :: r = l' ++ x' :: r') : l = l' ∧ x = x' ∧ r = r' := by
  induction l generalizing l' with
  | nil =>
      cases l' with
      | nil => exact ⟨rfl, List.cons.inj heq⟩
      | cons a l' =>
          have hbad := hl' a List.mem_cons_self
          rw [← (List.cons.inj heq).1, hx] at hbad
          cases hbad
  | cons a l ih =>
      cases l' with
      | nil =>
          have hbad := hl a List.mem_cons_self
          rw [(List.cons.inj heq).1, hx'] at hbad
          cases hbad
      | cons a' l' =>
          rcases List.cons.inj heq with ⟨rfl, hrest⟩
          rcases ih (fun b hb => hl b (List.mem_cons_of_mem _ hb))
            (fun b hb => hl' b (List.mem_cons_of_mem _ hb)) hrest with
            ⟨rfl, hmid, hend⟩
          exact ⟨rfl, hmid, hend⟩

namespace Sample

theorem rawText_eq_text {s : Sample}
    (hplain : ∀ label ∈ s.labels, Plain label.2) : s.rawText = s.text := by
  have hpairs : s.labels.map (pair id) = s.labels.map (pair escape) := by
    apply List.map_congr_left
    intro label hlabel
    unfold pair
    rw [escape_of_plain (hplain label hlabel), id]
  unfold rawText text line
  rw [hpairs]

/-- A line written without escaping gives back the value of its first label
only if that value is plain. -/
theorem plain_of_gives {s : Sample} (hvalid : s.Valid)
    {key value : List Char} {labels : List (List Char × List Char)}
    (hlabels : s.labels = (key, value) :: labels)
    (hgives : Gives s.rawText key value) : Plain value := by
  rcases hgives with ⟨s', hvalid', htext, hlookup⟩
  rcases line_eq hlabels id with ⟨rest, hraw⟩
  cases hlabels' : s'.labels with
  | nil =>
      rw [hlabels'] at hlookup
      cases hlookup
  | cons label' labels' =>
      rcases label' with ⟨key', value'⟩
      rcases line_eq hlabels' escape with ⟨rest', hesc⟩
      have heq : s'.line escape = s.line id := htext
      rw [hesc, hraw] at heq
      rcases append_cons_inj_of_forall hvalid'.name.2.1 hvalid.name.2.1
        (by decide) (by decide) heq with ⟨_, _, hinner⟩
      have hkey' := (hvalid'.labelNames (key', value') (by simp [hlabels'])).2.1
      have hkey := (hvalid.labelNames (key, value) (by simp [hlabels])).2.1
      rcases append_cons_inj_of_forall hkey' hkey (by decide) (by decide)
        hinner with ⟨rfl, _, hquoted⟩
      rw [hlabels', List.lookup_cons, beq_self_eq_true] at hlookup
      obtain rfl : value' = value := Option.some.inj hlookup
      have hpending : List.replicate 0 '\\' ++ escape value' ++
          quote :: rest' = value' ++ quote :: rest := (List.cons.inj hquoted).2
      exact (plain_of_escape_append hpending).2

/-- A line written without escaping gives back the value of its first label
exactly if that value is plain. -/
theorem gives_rawText_iff {s : Sample} (hvalid : s.Valid)
    {key value : List Char} {labels : List (List Char × List Char)}
    (hlabels : s.labels = (key, value) :: labels)
    (hplain : ∀ label ∈ labels, Plain label.2) :
    Gives s.rawText key value ↔ Plain value := by
  constructor
  · exact plain_of_gives hvalid hlabels
  · intro hvalue
    refine ⟨s, hvalid, (rawText_eq_text ?_).symm, ?_⟩
    · rw [hlabels]
      exact List.forall_mem_cons.mpr ⟨hvalue, hplain⟩
    · simp [hlabels]

/-! ## Lines -/

theorem newline_notMem_name {ok : Char → Bool} {name : List Char}
    (hname : IsName ok name) (hok : ok '\n' = false) : '\n' ∉ name := by
  intro hmem
  have hbad := hname.2.1 _ hmem
  rw [hok] at hbad
  cases hbad

theorem newline_notMem_digits {cs : List Char} (hdigits : IsDigits cs) :
    '\n' ∉ cs :=
  fun hmem => absurd (hdigits.2 _ hmem) (by decide)

theorem newline_notMem_sign {sign : List Char} (hsign : sign ∈ signs) :
    '\n' ∉ sign := by
  have hall : ∀ sign ∈ signs, '\n' ∉ sign := by
    decide
  exact hall sign hsign

theorem newline_notMem_number {cs : List Char} (hnumber : IsNumber cs) :
    '\n' ∉ cs := by
  cases hnumber with
  | nan => decide
  | infinity sign hsign =>
      simp [newline_notMem_sign hsign]
  | decimal sign whole fraction exponent hsign hwhole hfraction hexponent =>
      have hfraction' : '\n' ∉ fraction := by
        rcases hfraction with rfl | ⟨digits, hdigits, rfl⟩
        · simp
        · simp [newline_notMem_digits hdigits]
      have hexponent' : '\n' ∉ exponent := by
        rcases hexponent with rfl | ⟨sign', hsign', digits, hdigits, rfl⟩
        · simp
        · simp [newline_notMem_sign hsign', newline_notMem_digits hdigits]
      simp [newline_notMem_sign hsign, newline_notMem_digits hwhole,
        hfraction', hexponent']

theorem newline_notMem_intercalate {ls : List (List Char)}
    (hls : ∀ l ∈ ls, '\n' ∉ l) : '\n' ∉ [','].intercalate ls := by
  induction ls with
  | nil => simp [List.intercalate]
  | cons l ls ih =>
      rcases List.forall_mem_cons.mp hls with ⟨hl, hrest⟩
      cases ls with
      | nil => simpa [List.intercalate] using hl
      | cons l' ls =>
          have htail := ih hrest
          simp only [List.intercalate, List.intersperse, List.flatten_cons,
            List.mem_append, not_or] at htail ⊢
          exact ⟨hl, by simp, htail⟩

/-- A sample is one line. -/
theorem newline_notMem_text {s : Sample} (hvalid : s.Valid) :
    '\n' ∉ s.text := by
  have hpairs : ∀ l ∈ s.labels.map (pair escape), '\n' ∉ l := by
    rw [List.forall_mem_map]
    intro label hlabel
    have hkey := newline_notMem_name (hvalid.labelNames label hlabel)
      (by decide)
    have hquote : '\n' ≠ quote := by decide
    simp [pair, hkey, hquote, newline_notMem_escape]
  have hname := newline_notMem_name hvalid.name (by decide)
  have hlabels := newline_notMem_intercalate hpairs
  have hvalue := newline_notMem_number hvalid.value
  unfold text line
  split_ifs
  · simp [hname, hvalue]
  · simp [hname, hvalue, hlabels]

end Sample

end ExpositionFormat
