import Mathlib.Tactic

/-!
# Incremental scanners

A scanner looks at the front of a byte buffer and either yields one output and
drops a nonempty prefix, or pauses until more input arrives.  When neither
decision can be revised by bytes that arrive later, the outputs do not depend
on how the input was cut into pieces.  Nothing here mentions a particular
format: a format supplies its `look` function and the four stability facts.
-/

namespace IncrementalScanner

inductive Look (α ω : Type*) where
  | yield (output : ω) (rest : List α)
  | pause (rest : List α)

def Look.extend {α ω : Type*} (more : List α) : Look α ω → Look α ω
  | .yield output rest => .yield output (rest ++ more)
  | .pause rest => .pause (rest ++ more)

/-- A look function whose decisions are stable under later input. -/
structure Scanner (α ω : Type*) where
  look : List α → Look α ω
  yield_suffix :
    ∀ {buf output rest}, look buf = .yield output rest → rest <:+ buf
  yield_shorter :
    ∀ {buf output rest},
      look buf = .yield output rest → rest.length < buf.length
  pause_suffix :
    ∀ {buf rest}, look buf = .pause rest → rest <:+ buf
  yield_append :
    ∀ {buf output rest} (more : List α),
      look buf = .yield output rest →
        look (buf ++ more) = .yield output (rest ++ more)
  pause_append :
    ∀ {buf rest} (more : List α),
      look buf = .pause rest → look (buf ++ more) = look (rest ++ more)

variable {α ω : Type*}

namespace Scanner

/-- Look again and again until the scanner pauses: the outputs in order and
the buffer kept for the next piece of input. -/
def drain (scanner : Scanner α ω) (buf : List α) : List ω × List α :=
  match _hlook : scanner.look buf with
  | .pause rest => ([], rest)
  | .yield output rest =>
      let result := drain scanner rest
      (output :: result.1, result.2)
termination_by buf.length
decreasing_by exact scanner.yield_shorter _hlook

theorem drain_of_pause {scanner : Scanner α ω} {buf rest : List α}
    (hlook : scanner.look buf = .pause rest) :
    scanner.drain buf = ([], rest) := by
  rw [drain]
  split
  next rest' hrest =>
    rw [hlook] at hrest
    cases hrest
    rfl
  next output rest' hyield =>
    rw [hlook] at hyield
    cases hyield

theorem drain_of_yield {scanner : Scanner α ω} {buf rest : List α}
    {output : ω} (hlook : scanner.look buf = .yield output rest) :
    scanner.drain buf =
      (output :: (scanner.drain rest).1, (scanner.drain rest).2) := by
  rw [drain]
  split
  next rest' hpause =>
    rw [hlook] at hpause
    cases hpause
  next output' rest' hyield =>
    rw [hlook] at hyield
    cases hyield
    rfl

/-- Induction along the looks of a drain. -/
theorem drain_induction (scanner : Scanner α ω)
    {motive : List α → Prop}
    (pause : ∀ buf rest, scanner.look buf = .pause rest → motive buf)
    (yield : ∀ buf output rest,
      scanner.look buf = .yield output rest → motive rest → motive buf)
    (buf : List α) : motive buf := by
  induction hlength : buf.length using Nat.strong_induction_on
    generalizing buf with
  | _ length ih =>
      cases hlook : scanner.look buf with
      | pause rest => exact pause buf rest hlook
      | yield output rest =>
          have hshorter := scanner.yield_shorter hlook
          exact yield buf output rest hlook
            (ih rest.length (by omega) rest rfl)

/-- Draining a buffer that grew is draining the old part first and then what
was left of it together with the new input. -/
theorem drain_append (scanner : Scanner α ω) (buf more : List α) :
    scanner.drain (buf ++ more) =
      ((scanner.drain buf).1 ++
          (scanner.drain ((scanner.drain buf).2 ++ more)).1,
        (scanner.drain ((scanner.drain buf).2 ++ more)).2) := by
  induction buf using scanner.drain_induction with
  | pause buf rest hlook =>
      have hsame := scanner.pause_append more hlook
      rw [drain_of_pause hlook]
      cases hmore : scanner.look (rest ++ more) with
      | pause rest' =>
          rw [drain_of_pause (hsame.trans hmore), drain_of_pause hmore]
          rfl
      | yield output rest' =>
          rw [drain_of_yield (hsame.trans hmore), drain_of_yield hmore]
          rfl
  | yield buf output rest hlook ih =>
      rw [drain_of_yield (scanner.yield_append more hlook),
        drain_of_yield hlook, ih]
      rfl

theorem drain_forall (scanner : Scanner α ω) {P : ω → Prop}
    (hyield : ∀ {buf output rest},
      scanner.look buf = .yield output rest → P output)
    (buf : List α) : ∀ output ∈ (scanner.drain buf).1, P output := by
  induction buf using scanner.drain_induction with
  | pause buf rest hlook =>
      rw [drain_of_pause hlook]
      simp
  | yield buf output rest hlook ih =>
      rw [drain_of_yield hlook]
      intro other hother
      rcases List.mem_cons.mp hother with rfl | htail
      · exact hyield hlook
      · exact ih other htail

def feedAll (scanner : Scanner α ω) :
    List α → List (List α) → List ω × List α
  | kept, [] => ([], kept)
  | kept, piece :: pieces =>
      let here := scanner.drain (kept ++ piece)
      let later := scanner.feedAll here.2 pieces
      (here.1 ++ later.1, later.2)

/-- A buffer on which the scanner pauses without dropping anything. -/
def Settled (scanner : Scanner α ω) (buf : List α) : Prop :=
  scanner.drain buf = ([], buf)

theorem settled_drain (scanner : Scanner α ω) (buf : List α) :
    scanner.Settled (scanner.drain buf).2 := by
  have happend := scanner.drain_append buf []
  rw [List.append_nil, List.append_nil] at happend
  have houtputs := congrArg Prod.fst happend
  have hkept := congrArg Prod.snd happend
  simp only [List.self_eq_append_right] at houtputs hkept
  exact Prod.ext houtputs hkept.symm

/-- Segmentation independence: from a settled buffer, feeding pieces gives the
outputs and the kept buffer of one drain of everything together. -/
theorem feedAll_eq_drain (scanner : Scanner α ω) {kept : List α}
    (hkept : scanner.Settled kept) (pieces : List (List α)) :
    scanner.feedAll kept pieces =
      scanner.drain (kept ++ pieces.flatten) := by
  induction pieces generalizing kept with
  | nil =>
      rw [List.flatten_nil, List.append_nil, hkept]
      rfl
  | cons piece pieces ih =>
      rw [List.flatten_cons, ← List.append_assoc, scanner.drain_append]
      simp only [feedAll]
      rw [ih (scanner.settled_drain (kept ++ piece))]

end Scanner

end IncrementalScanner
