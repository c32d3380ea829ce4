import BabilCors.IncrementalScanner
import BabilCors.Rtcm

/-!
# Segmentation independence of the RTCM parser

One pass of the parser loop is a look of an incremental scanner: a CRC error
and an emitted frame are both decided by bytes that are already in the buffer,
and a break keeps the buffer from the first preamble on.  The loop with its
accumulators computes the drain of that scanner, so the library's theorem
about pieces of input transfers to `feed`.
-/

namespace BabilCors
namespace Rtcm

open IncrementalScanner

/-! ## What one pass does -/

theorem lengthField_append {buf : Bytes} (hlength : 3 ≤ buf.length)
    (more : Bytes) : lengthField (buf ++ more) = lengthField buf := by
  have hbyte : ∀ i < 3, byteAt (buf ++ more) i = byteAt buf i := by
    intro i hi
    simp only [byteAt, List.getD_eq_getElem?_getD]
    rw [List.getElem?_append_left (by omega)]
  simp only [lengthField, hbyte 1 (by decide), hbyte 2 (by decide)]

def totalLength (buf : Bytes) : ℕ :=
  3 + lengthField buf + 3

def Complete (buf : Bytes) : Prop :=
  3 ≤ buf.length ∧ totalLength buf ≤ buf.length

instance (buf : Bytes) : Decidable (Complete buf) :=
  inferInstanceAs (Decidable (_ ∧ _))

/-- The decision on a candidate that has all its bytes. -/
def judge (buf : Bytes) : Option RtcmFrame :=
  let frame := buf.take (totalLength buf)
  if crc24q (frame.take (frame.length - 3)) ≠ crcField frame then
    none
  else
    (rtcmMessageType ((frame.drop 3).take (lengthField buf))).map
      fun mt => ⟨mt, frame⟩

theorem parseCandidate_eq (buf : Bytes) :
    parseCandidate buf =
      if Complete buf then
        (judge buf).elim (.crcError (buf.drop 1)) fun fr =>
          .frame fr (buf.drop (totalLength buf))
      else
        .incomplete buf := by
  by_cases hcomplete : Complete buf
  · have hheader : ¬ buf.length < 3 := Nat.not_lt.mpr hcomplete.1
    have htotal : ¬ buf.length < 3 + lengthField buf + 3 :=
      Nat.not_lt.mpr hcomplete.2
    rw [if_pos hcomplete]
    unfold parseCandidate judge totalLength
    dsimp only
    rw [if_neg hheader, if_neg htotal]
    split_ifs with hcrc
    · rfl
    · cases rtcmMessageType
        (((buf.take (3 + lengthField buf + 3)).drop 3).take
          (lengthField buf)) <;> rfl
  · rw [if_neg hcomplete]
    unfold parseCandidate
    by_cases hheader : buf.length < 3
    · rw [if_pos hheader]
    · have htotal : buf.length < 3 + lengthField buf + 3 := by
        by_contra hlong
        exact hcomplete ⟨Nat.not_lt.mp hheader, Nat.not_lt.mp hlong⟩
      simp only [if_neg hheader, if_pos htotal]

theorem complete_append {buf : Bytes} (hcomplete : Complete buf)
    (more : Bytes) : Complete (buf ++ more) := by
  unfold Complete totalLength at hcomplete ⊢
  rw [lengthField_append hcomplete.1, List.length_append]
  omega

theorem judge_append {buf : Bytes} (hcomplete : Complete buf)
    (more : Bytes) : judge (buf ++ more) = judge buf := by
  have hlength := lengthField_append hcomplete.1 more
  have htotal : totalLength (buf ++ more) = totalLength buf := by
    simp only [totalLength, hlength]
  have htake :
      (buf ++ more).take (totalLength buf) = buf.take (totalLength buf) :=
    List.take_append_of_le_length hcomplete.2
  simp only [judge, htotal, hlength, htake]

theorem dropWhile_append_dropWhile {α : Type*} (p : α → Bool)
    (left right : List α) :
    (left.dropWhile p ++ right).dropWhile p =
      (left ++ right).dropWhile p := by
  induction left with
  | nil => rfl
  | cons a left ih =>
      by_cases ha : p a
      · simpa [ha] using ih
      · simp [ha]

theorem dropWhile_append_of_ne_nil {α : Type*} {p : α → Bool}
    {left : List α} (hleft : left.dropWhile p ≠ []) (right : List α) :
    (left ++ right).dropWhile p = left.dropWhile p ++ right := by
  induction left with
  | nil => exact (hleft rfl).elim
  | cons a left ih =>
      by_cases ha : p a
      · simp only [List.dropWhile_cons, ha, if_true] at hleft ⊢
        simpa [ha] using ih hleft
      · simp [ha]

/-- A scan stops at the end or at a preamble. -/
theorem head?_dropWhile_preamble (buf : Bytes) :
    buf.dropWhile (· != preamble) = [] ∨
      (buf.dropWhile (· != preamble)).head? = some preamble := by
  have hhead := List.head?_dropWhile_not (· != preamble) buf
  cases hkept : buf.dropWhile (· != preamble) with
  | nil => exact .inl rfl
  | cons b kept =>
      rw [hkept] at hhead
      have hb : b = preamble := by simpa using hhead
      exact .inr (congrArg some hb)

theorem Complete.ne_nil {buf : Bytes} (hcomplete : Complete buf) :
    buf ≠ [] := by
  intro hnil
  have hlength := hcomplete.1
  rw [hnil] at hlength
  exact absurd hlength (by decide)

/-! ## The parser as a scanner -/

/-- A pass as a look: a CRC error is the output `none`. -/
def Iteration.toLook : Iteration → Look UInt8 (Option RtcmFrame)
  | .incomplete buf => .pause buf
  | .crcError buf => .yield none buf
  | .frame fr buf => .yield (some fr) buf

def consumed (buf : Bytes) : ℕ :=
  if (judge buf).isSome then totalLength buf else 1

theorem toLook_parseIteration (buf : Bytes) :
    (parseIteration buf).toLook =
      let candidate := buf.dropWhile (· != preamble)
      if Complete candidate then
        .yield (judge candidate) (candidate.drop (consumed candidate))
      else
        .pause candidate := by
  unfold parseIteration consumed
  rw [parseCandidate_eq]
  dsimp only
  split_ifs with hcomplete hsome
  · obtain ⟨fr, hfr⟩ := Option.isSome_iff_exists.mp hsome
    rw [hfr]
    rfl
  · have hnone := Option.not_isSome_iff_eq_none.mp hsome
    rw [hnone]
    rfl
  · rfl

theorem consumed_pos (buf : Bytes) : 0 < consumed buf := by
  unfold consumed totalLength
  split_ifs <;> omega

theorem consumed_le {buf : Bytes} (hcomplete : Complete buf) :
    consumed buf ≤ buf.length := by
  unfold consumed
  split_ifs
  · exact hcomplete.2
  · exact le_trans (by omega) hcomplete.1

theorem consumed_append {buf : Bytes} (hcomplete : Complete buf)
    (more : Bytes) : consumed (buf ++ more) = consumed buf := by
  unfold consumed totalLength
  rw [judge_append hcomplete, lengthField_append hcomplete.1]

/-- What a yielding pass says: the candidate behind the skipped bytes was
complete, and it was judged. -/
theorem toLook_yield_iff {buf rest : Bytes} {output : Option RtcmFrame} :
    (parseIteration buf).toLook = .yield output rest ↔
      Complete (buf.dropWhile (· != preamble)) ∧
        output = judge (buf.dropWhile (· != preamble)) ∧
        rest = (buf.dropWhile (· != preamble)).drop
          (consumed (buf.dropWhile (· != preamble))) := by
  rw [toLook_parseIteration]
  dsimp only
  split_ifs with hcomplete
  · simp only [Look.yield.injEq, hcomplete, true_and]
    exact ⟨fun h => ⟨h.1.symm, h.2.symm⟩, fun h => ⟨h.1.symm, h.2.symm⟩⟩
  · simp [hcomplete]

theorem toLook_pause_iff {buf rest : Bytes} :
    (parseIteration buf).toLook = .pause rest ↔
      ¬ Complete (buf.dropWhile (· != preamble)) ∧
        rest = buf.dropWhile (· != preamble) := by
  rw [toLook_parseIteration]
  dsimp only
  split_ifs with hcomplete
  · simp [hcomplete]
  · simp only [Look.pause.injEq, hcomplete, not_false_eq_true, true_and]
    exact eq_comm

def scanner : Scanner UInt8 (Option RtcmFrame) where
  look := fun buf => (parseIteration buf).toLook
  yield_suffix := by
    intro buf output rest hlook
    obtain ⟨_, _, rfl⟩ := toLook_yield_iff.mp hlook
    exact (List.drop_suffix _ _).trans (List.dropWhile_suffix _)
  yield_shorter := by
    intro buf output rest hlook
    obtain ⟨hcomplete, _, rfl⟩ := toLook_yield_iff.mp hlook
    have hpos := consumed_pos (buf.dropWhile (· != preamble))
    have hle := consumed_le hcomplete
    have hsuffix := (List.dropWhile_suffix (l := buf) (· != preamble)).length_le
    rw [List.length_drop]
    omega
  pause_suffix := by
    intro buf rest hlook
    obtain ⟨_, rfl⟩ := toLook_pause_iff.mp hlook
    exact List.dropWhile_suffix _
  yield_append := by
    intro buf output rest more hlook
    obtain ⟨hcomplete, rfl, rfl⟩ := toLook_yield_iff.mp hlook
    apply toLook_yield_iff.mpr
    rw [dropWhile_append_of_ne_nil hcomplete.ne_nil]
    refine ⟨complete_append hcomplete more,
      (judge_append hcomplete more).symm, ?_⟩
    rw [consumed_append hcomplete,
      List.drop_append_of_le_length (consumed_le hcomplete)]
  pause_append := by
    intro buf rest more hlook
    obtain ⟨_, rfl⟩ := toLook_pause_iff.mp hlook
    unfold parseIteration
    rw [dropWhile_append_dropWhile]

/-- The accumulators of the loop as functions of the scanner's outputs. -/
def FeedResult.ofDrain (result : List (Option RtcmFrame) × Bytes) :
    FeedResult :=
  ⟨result.1.filterMap id, result.1.count none, result.2⟩

theorem feedLoop_eq_drain {fuel : ℕ} {buf : Bytes}
    (hfuel : buf.length < fuel) (frames : List RtcmFrame)
    (crcErrors : ℕ) :
    feedLoop fuel buf frames crcErrors =
      ⟨frames ++ (FeedResult.ofDrain (scanner.drain buf)).frames,
        crcErrors + (FeedResult.ofDrain (scanner.drain buf)).crcErrors,
        (FeedResult.ofDrain (scanner.drain buf)).buf⟩ := by
  induction fuel generalizing buf frames crcErrors with
  | zero => omega
  | succ fuel ih =>
      simp only [feedLoop]
      cases hpass : parseIteration buf with
      | incomplete rest =>
          have hlook : scanner.look buf = .pause rest := by
            simp [scanner, hpass, Iteration.toLook]
          simp [Scanner.drain_of_pause hlook, FeedResult.ofDrain]
      | crcError rest =>
          have hlook : scanner.look buf = .yield none rest := by
            simp [scanner, hpass, Iteration.toLook]
          have hshorter := scanner.yield_shorter hlook
          simp only
          rw [ih (by omega), Scanner.drain_of_yield hlook]
          simp [FeedResult.ofDrain]
          omega
      | frame fr rest =>
          have hlook : scanner.look buf = .yield (some fr) rest := by
            simp [scanner, hpass, Iteration.toLook]
          have hshorter := scanner.yield_shorter hlook
          simp only
          rw [ih (by omega), Scanner.drain_of_yield hlook]
          simp [FeedResult.ofDrain]

theorem feed_eq_drain (buf chunk : Bytes) :
    feed buf chunk = .ofDrain (scanner.drain (buf ++ chunk)) := by
  unfold feed
  rw [feedLoop_eq_drain (Nat.lt_succ_self _)]
  simp

/-- Feed chunks one after another to a parser whose `_buf` is `buf`, and
collect the frames and the error count of all calls. -/
def feedAll : Bytes → List Bytes → FeedResult
  | buf, [] => ⟨[], 0, buf⟩
  | buf, chunk :: chunks =>
      let here := feed buf chunk
      let later := feedAll here.buf chunks
      ⟨here.frames ++ later.frames, here.crcErrors + later.crcErrors,
        later.buf⟩

theorem feedAll_eq_scanner (buf : Bytes) (chunks : List Bytes) :
    feedAll buf chunks = .ofDrain (scanner.feedAll buf chunks) := by
  induction chunks generalizing buf with
  | nil => rfl
  | cons chunk chunks ih =>
      simp only [feedAll, Scanner.feedAll]
      rw [feed_eq_drain, ih]
      simp [FeedResult.ofDrain]

theorem settled_nil : scanner.Settled [] := by
  have hlook : scanner.look [] = .pause [] := rfl
  exact Scanner.drain_of_pause hlook

theorem feedAll_eq_drain (chunks : List Bytes) :
    feedAll [] chunks = .ofDrain (scanner.drain chunks.flatten) := by
  rw [feedAll_eq_scanner, Scanner.feedAll_eq_drain scanner settled_nil,
    List.nil_append]

/-- However a byte string is cut into chunks, a fresh parser emits the same
frames, counts the same number of CRC errors and keeps the same buffer as for
one chunk. -/
theorem feedAll_eq_feed_flatten (chunks : List Bytes) :
    feedAll [] chunks = feed [] chunks.flatten := by
  rw [feedAll_eq_drain, feed_eq_drain, List.nil_append]

/-! ## What the parser emits -/

theorem lengthField_take {buf : Bytes} {k : ℕ} (hk : 3 ≤ k) :
    lengthField (buf.take k) = lengthField buf := by
  have hbyte : ∀ i < 3, byteAt (buf.take k) i = byteAt buf i := by
    intro i hi
    simp only [byteAt, List.getD_eq_getElem?_getD]
    rw [List.getElem?_take_of_lt (by omega)]
  simp only [lengthField, hbyte 1 (by decide), hbyte 2 (by decide)]

theorem judge_isFrame {buf : Bytes} {fr : RtcmFrame}
    (hcomplete : Complete buf) (hhead : buf.head? = some preamble)
    (hjudge : judge buf = some fr) : IsFrame fr.raw := by
  unfold judge at hjudge
  dsimp only at hjudge
  split_ifs at hjudge with hcrc
  obtain ⟨mt, _, rfl⟩ := Option.map_eq_some_iff.mp hjudge
  have hlength :
      (buf.take (totalLength buf)).length = totalLength buf := by
    rw [List.length_take, min_eq_left hcomplete.2]
  refine ⟨?_, ?_, not_not.mp hcrc⟩
  · rw [List.head?_take, if_neg (by unfold totalLength; omega)]
    exact hhead
  · rw [hlength, lengthField_take (by unfold totalLength; omega)]
    rfl

/-- Every frame `feed` returns is complete, has a matching length field and a
correct checksum. -/
theorem feed_isFrame (buf chunk : Bytes) :
    ∀ fr ∈ (feed buf chunk).frames, IsFrame fr.raw := by
  have houtputs :=
    scanner.drain_forall
      (P := fun output => ∀ fr, output = some fr → IsFrame fr.raw)
      (by
        intro buf output rest hlook fr hfr
        obtain ⟨hcomplete, hjudge, _⟩ := toLook_yield_iff.mp hlook
        have hhead := (head?_dropWhile_preamble buf).resolve_left
          hcomplete.ne_nil
        exact judge_isFrame hcomplete hhead (hjudge.symm.trans hfr))
      (buf ++ chunk)
  intro fr hfr
  rw [feed_eq_drain] at hfr
  obtain ⟨output, hmem, hid⟩ := List.mem_filterMap.mp hfr
  exact houtputs output hmem fr hid

end Rtcm
end BabilCors
