import BabilCors.IncrementalScanner

/-!
# The offsets of a scanner's outputs

A drain with a running offset: every output is given off together with the
offset behind the bytes that it used.
-/

namespace IncrementalScanner

namespace Scanner

variable {α ω : Type*}

/-- The outputs of a drain that starts at the offset, each with the offset
behind it. -/
def outputsAt (scanner : Scanner α ω) (offset : ℕ) (buf : List α) :
    List (ℕ × ω) :=
  match _hlook : scanner.look buf with
  | .pause _ => []
  | .yield output rest =>
      (offset + (buf.length - rest.length), output) ::
        outputsAt scanner (offset + (buf.length - rest.length)) rest
termination_by buf.length
decreasing_by exact scanner.yield_shorter _hlook

theorem outputsAt_of_pause {scanner : Scanner α ω} {buf rest : List α}
    (hlook : scanner.look buf = .pause rest) (offset : ℕ) :
    scanner.outputsAt offset buf = [] := by
  rw [outputsAt]
  split
  next => rfl
  next output rest' hyield =>
    rw [hlook] at hyield
    cases hyield

theorem outputsAt_of_yield {scanner : Scanner α ω} {buf rest : List α}
    {output : ω} (hlook : scanner.look buf = .yield output rest)
    (offset : ℕ) :
    scanner.outputsAt offset buf =
      (offset + (buf.length - rest.length), output) ::
        scanner.outputsAt (offset + (buf.length - rest.length)) rest := by
  rw [outputsAt]
  split
  next rest' hpause =>
    rw [hlook] at hpause
    cases hpause
  next output' rest' hyield =>
    rw [hlook] at hyield
    cases hyield
    rfl

theorem outputsAt_snd (scanner : Scanner α ω) (offset : ℕ)
    (buf : List α) :
    (scanner.outputsAt offset buf).map Prod.snd = (scanner.drain buf).1 := by
  induction buf using scanner.drain_induction generalizing offset with
  | pause buf rest hlook =>
      rw [outputsAt_of_pause hlook, drain_of_pause hlook]
      rfl
  | yield buf output rest hlook ih =>
      rw [outputsAt_of_yield hlook, drain_of_yield hlook, List.map_cons, ih]

/-- What holds of every look inside a buffer holds of every output, by its
offset.  A look is at the rest of the whole input behind some offset. -/
theorem outputsAt_forall (scanner : Scanner α ω) {P : ℕ → ω → Prop}
    {input : List α}
    (hyield : ∀ {offset buf output rest}, buf <:+ input →
      offset + buf.length = input.length →
        scanner.look buf = .yield output rest →
          P (offset + (buf.length - rest.length)) output)
    {offset : ℕ} {buf : List α} (hbuf : buf <:+ input)
    (hoffset : offset + buf.length = input.length) :
    ∀ entry ∈ scanner.outputsAt offset buf, P entry.1 entry.2 := by
  induction buf using scanner.drain_induction generalizing offset with
  | pause buf rest hlook =>
      rw [outputsAt_of_pause hlook]
      exact fun _ h => (List.not_mem_nil h).elim
  | yield buf output rest hlook ih =>
      have hshorter := scanner.yield_shorter hlook
      rw [outputsAt_of_yield hlook, List.forall_mem_cons]
      refine ⟨hyield hbuf hoffset hlook, ih ?_ (by omega)⟩
      exact (scanner.yield_suffix hlook).trans hbuf

end Scanner

end IncrementalScanner
