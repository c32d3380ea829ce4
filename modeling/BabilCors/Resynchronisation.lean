import BabilCors.RtcmSegmentation
import BabilCors.ScannerOffsets

/-!
# Finding a good frame behind garbage

A false preamble makes the parser wait for at most 1029 bytes, and a candidate
that fails costs one byte.  So with enough bytes behind it a valid frame is
found where it starts, unless a frame that is emitted runs over its start.
-/

namespace BabilCors
namespace Rtcm

open IncrementalScanner

/-- The frames that a fresh parser emits for the input, with the offsets at
which they start. -/
def framesAt (input : Bytes) : List (ℕ × RtcmFrame) :=
  (scanner.outputsAt 0 input).filterMap fun entry =>
    entry.2.map fun fr => (entry.1 - fr.raw.length, fr)

/-- These are the frames of `feed`. -/
theorem framesAt_snd (input : Bytes) :
    (framesAt input).map Prod.snd = (feed [] input).frames := by
  rw [feed_eq_drain, List.nil_append, FeedResult.ofDrain,
    ← scanner.outputsAt_snd 0]
  unfold framesAt
  rw [List.map_filterMap, List.filterMap_map]
  congr 1
  funext entry
  rcases entry with ⟨behind, _ | fr⟩ <;> rfl

theorem judge_raw {buf : Bytes} {fr : RtcmFrame}
    (hjudge : judge buf = some fr) : fr.raw = buf.take (totalLength buf) := by
  unfold judge at hjudge
  dsimp only at hjudge
  split_ifs at hjudge
  rcases Option.map_eq_some_iff.mp hjudge with ⟨mt, _, rfl⟩
  rfl

/-- The bytes of a frame stand in the input at its offset. -/
theorem framesAt_prefix {input : Bytes} {k : ℕ} {fr : RtcmFrame}
    (hmem : (k, fr) ∈ framesAt input) : fr.raw <+: input.drop k := by
  rcases List.mem_filterMap.mp hmem with ⟨⟨behind, output⟩, hout, hframe⟩
  rcases Option.map_eq_some_iff.mp hframe with ⟨fr', hfr', heq⟩
  obtain ⟨rfl, rfl⟩ := Prod.mk.inj heq
  dsimp only at hfr' ⊢
  refine scanner.outputsAt_forall
    (P := fun behind output => ∀ fr, output = some fr →
      fr.raw <+: input.drop (behind - fr.raw.length))
    ?_ (List.suffix_refl input) (Nat.zero_add _) _ hout _ hfr'
  intro offset buf output rest hbuf hoffset hlook fr hfr
  rcases toLook_yield_iff.mp hlook with ⟨hcomplete, hjudge, hrest⟩
  have hsuffix : buf.dropWhile (· != preamble) <:+ buf :=
    List.dropWhile_suffix _
  generalize buf.dropWhile (· != preamble) = candidate at *
  rw [hfr] at hjudge
  have hraw := judge_raw hjudge.symm
  have hlength : fr.raw.length = totalLength candidate := by
    rw [hraw, List.length_take, min_eq_left hcomplete.2]
  have hconsumed : rest.length = candidate.length - totalLength candidate := by
    rw [hrest, consumed, ← hjudge, List.length_drop]
    rfl
  have hstart : offset + (buf.length - rest.length) - fr.raw.length =
      input.length - candidate.length := by
    have hle := hsuffix.length_le
    have htotal := hcomplete.2
    omega
  rw [hstart, ← List.suffix_iff_eq_drop.mp (hsuffix.trans hbuf), hraw]
  exact List.take_prefix _ _

theorem lengthField_le (buf : Bytes) : lengthField buf ≤ 1023 := by
  have hhigh : (byteAt buf 1 &&& 3) <<< 8 < 2 ^ 10 := by
    have hand : byteAt buf 1 &&& 3 ≤ 3 := Nat.and_le_right
    rw [Nat.shiftLeft_eq]
    omega
  have hlow : byteAt buf 2 < 2 ^ 10 := by
    have hbyte := (buf.getD 2 0).toNat_lt
    unfold byteAt
    omega
  have hor := Nat.or_lt_two_pow hhigh hlow
  unfold lengthField
  omega

theorem exists_messageType {payload : Bytes} (hlength : 2 ≤ payload.length) :
    ∃ mt, rtcmMessageType payload = some mt := by
  match payload, hlength with
  | b₀ :: b₁ :: _, _ => exact ⟨_, rfl⟩

/-- A valid frame with a message type is judged as that frame, whatever stands
behind it. -/
theorem judge_of_isFrame {f : Bytes} (hframe : IsFrame f)
    (hlength : 2 ≤ lengthField f) (b : Bytes) :
    Complete (f ++ b) ∧ totalLength (f ++ b) = f.length ∧
      ∃ mt, judge (f ++ b) = some ⟨mt, f⟩ := by
  have htotal : totalLength f = f.length := hframe.length.symm
  have hcomplete : Complete f := by
    refine ⟨?_, htotal.le⟩
    rw [← htotal, totalLength]
    omega
  refine ⟨complete_append hcomplete b, ?_, ?_⟩
  · rw [← htotal, totalLength, lengthField_append hcomplete.1]
    rfl
  · rw [judge_append hcomplete, judge, htotal, List.take_length,
      if_neg (not_not.mpr hframe.crc)]
    have hpayload : 2 ≤ ((f.drop 3).take (lengthField f)).length := by
      have hsize := hframe.length
      rw [List.length_take, List.length_drop]
      omega
    rcases exists_messageType hpayload with ⟨mt, hmt⟩
    exact ⟨mt, by rw [hmt, Option.map_some]⟩

/-- The garbage in front of a frame, scanned from its first preamble on. -/
theorem dropWhile_garbage {x f b : Bytes} (hf : f.head? = some preamble) :
    (x ++ f ++ b).dropWhile (· != preamble) =
      x.dropWhile (· != preamble) ++ f ++ b := by
  cases f with
  | nil => cases hf
  | cons first f =>
      obtain rfl : first = preamble := Option.some.inj hf
      induction x with
      | nil => simp
      | cons c x ih =>
          by_cases hc : c = preamble
          · simp [hc]
          · simpa [hc] using ih

/-- The entry of a frame that ends behind an offset and starts before it. -/
def Overruns (start : ℕ) (entry : ℕ × Option RtcmFrame) : Prop :=
  ∃ (k : ℕ) (fr : RtcmFrame), entry = (k + fr.raw.length, some fr) ∧
    k < start ∧ start < k + fr.raw.length

/-- The look at garbage with a frame behind it, by the garbage that is left
from the first preamble on. -/
theorem look_garbage {x x' f b : Bytes}
    (hcandidate : (x ++ f ++ b).dropWhile (· != preamble) = x' ++ f ++ b)
    (hcomplete : Complete (x' ++ f ++ b)) :
    scanner.look (x ++ f ++ b) =
      .yield (judge (x' ++ f ++ b))
        ((x' ++ f ++ b).drop (consumed (x' ++ f ++ b))) :=
  toLook_yield_iff.mpr (by rw [hcandidate]; exact ⟨hcomplete, rfl, rfl⟩)

theorem complete_of_long {buf : Bytes} (hlength : 1029 ≤ buf.length) :
    Complete buf := by
  have hle := lengthField_le buf
  unfold Complete totalLength
  omega

/-- A candidate that costs more than one byte is a frame of that length. -/
theorem judge_of_consumed {buf : Bytes} (hcomplete : Complete buf)
    (hmore : consumed buf ≠ 1) :
    ∃ fr, judge buf = some fr ∧ fr.raw.length = consumed buf := by
  unfold consumed at hmore ⊢
  cases hjudge : judge buf with
  | none => simp [hjudge] at hmore
  | some fr =>
      refine ⟨fr, rfl, ?_⟩
      rw [judge_raw hjudge, List.length_take, min_eq_left hcomplete.2]
      rfl

/-- With no preamble in front of it the frame is found where it starts. -/
theorem outputsAt_frame {x f b : Bytes} (hframe : IsFrame f)
    (hlength : 2 ≤ lengthField f)
    (hcandidate : (x ++ f ++ b).dropWhile (· != preamble) = [] ++ f ++ b)
    (offset : ℕ) :
    ∃ mt, (offset + x.length + f.length, some ⟨mt, f⟩) ∈
      scanner.outputsAt offset (x ++ f ++ b) := by
  rcases judge_of_isFrame hframe hlength b with
    ⟨hcomplete, htotal, mt, hjudge⟩
  have hlook := look_garbage hcandidate hcomplete
  have hconsumed : consumed (f ++ b) = f.length := by
    rw [consumed, hjudge, ← htotal]
    rfl
  rw [List.nil_append, hjudge, hconsumed, List.drop_left] at hlook
  have hbuf : (x ++ f ++ b).length = x.length + f.length + b.length := by
    simp only [List.length_append]
  refine ⟨mt, ?_⟩
  rw [Scanner.outputsAt_of_yield hlook, List.mem_cons]
  left
  rw [Prod.mk.injEq]
  exact ⟨by omega, rfl⟩

/-- A candidate that starts in the garbage and does not end there is a frame
that runs over the start of the other one. -/
theorem outputsAt_overruns {x x' f b : Bytes}
    (hcandidate : (x ++ f ++ b).dropWhile (· != preamble) = x' ++ f ++ b)
    (hcomplete : Complete (x' ++ f ++ b)) (hpositive : 0 < x'.length)
    (hskipped : x'.length ≤ x.length)
    (hover : x'.length < consumed (x' ++ f ++ b)) (offset : ℕ) :
    ∃ entry ∈ scanner.outputsAt offset (x ++ f ++ b),
      Overruns (offset + x.length) entry := by
  have hlook := look_garbage hcandidate hcomplete
  have hle := consumed_le hcomplete
  rcases judge_of_consumed hcomplete (by omega) with ⟨fr, hjudge, hsize⟩
  have hbuf : (x ++ f ++ b).length = x.length + f.length + b.length := by
    simp only [List.length_append]
  have hleft : (x' ++ f ++ b).length = x'.length + f.length + b.length := by
    simp only [List.length_append]
  have hrest : ((x' ++ f ++ b).drop (consumed (x' ++ f ++ b))).length =
      x'.length + f.length + b.length - consumed (x' ++ f ++ b) := by
    rw [List.length_drop, hleft]
  rw [hjudge] at hlook
  rw [Scanner.outputsAt_of_yield hlook]
  refine ⟨_, List.mem_cons_self, offset + x.length - x'.length, fr, ?_,
    by omega, by omega⟩
  rw [Prod.mk.injEq]
  exact ⟨by omega, rfl⟩

/-- Behind any garbage the frame is found where it starts, or a frame that is
found runs over its start.  The induction is on the garbage that is left. -/
theorem outputsAt_resynchronises {f b : Bytes} (hframe : IsFrame f)
    (hlength : 2 ≤ lengthField f) (hb : 1028 ≤ b.length) (x : Bytes)
    (offset : ℕ) :
    (∃ mt, (offset + x.length + f.length, some ⟨mt, f⟩) ∈
      scanner.outputsAt offset (x ++ f ++ b)) ∨
    ∃ entry ∈ scanner.outputsAt offset (x ++ f ++ b),
      Overruns (offset + x.length) entry := by
  induction hsize : x.length using Nat.strong_induction_on
    generalizing x offset with
  | _ size ih =>
      subst hsize
      have hcandidate := dropWhile_garbage (x := x) (b := b) hframe.preamble
      have hskipped := (List.dropWhile_suffix (l := x) (· != preamble)).length_le
      generalize x.dropWhile (· != preamble) = x' at hcandidate hskipped
      by_cases hnone : x' = []
      · subst hnone
        exact .inl (outputsAt_frame hframe hlength hcandidate offset)
      have hpositive : 0 < x'.length := List.length_pos_iff.mpr hnone
      have hbuf : (x ++ f ++ b).length = x.length + f.length + b.length := by
        simp only [List.length_append]
      have hleft : (x' ++ f ++ b).length =
          x'.length + f.length + b.length := by
        simp only [List.length_append]
      have hcomplete : Complete (x' ++ f ++ b) :=
        complete_of_long (by omega)
      by_cases hover : x'.length < consumed (x' ++ f ++ b)
      · exact .inr (outputsAt_overruns hcandidate hcomplete hpositive
          hskipped hover offset)
      -- the candidate costs a part of the garbage
      have hlook := look_garbage hcandidate hcomplete
      have hpos := consumed_pos (x' ++ f ++ b)
      generalize consumed (x' ++ f ++ b) = k at hlook hpos hover
      have hdrop : (x' ++ f ++ b).drop k = x'.drop k ++ f ++ b := by
        rw [List.append_assoc, List.drop_append_of_le_length (by omega),
          ← List.append_assoc]
      have hrest : ((x' ++ f ++ b).drop k).length =
          x'.length + f.length + b.length - k := by
        rw [List.length_drop, hleft]
      have hless : (x'.drop k).length = x'.length - k := List.length_drop
      have hnext := ih _ (by omega) (x'.drop k)
        (offset + ((x ++ f ++ b).length -
          ((x' ++ f ++ b).drop k).length)) rfl
      have hsame : offset + ((x ++ f ++ b).length -
          ((x' ++ f ++ b).drop k).length) + (x'.drop k).length =
            offset + x.length := by
        omega
      rw [hsame, ← hdrop] at hnext
      rw [Scanner.outputsAt_of_yield hlook]
      rcases hnext with ⟨mt, hmem⟩ | ⟨entry, hmem, hover⟩
      · exact .inl ⟨mt, List.mem_cons_of_mem _ hmem⟩
      · exact .inr ⟨entry, List.mem_cons_of_mem _ hmem, hover⟩

/-- With at least 1028 bytes behind a valid frame, a fresh parser emits it at
its offset, whatever stands in front of it, unless a valid frame that it emits
starts before that offset and ends behind it. -/
theorem feed_resynchronises (a b : Bytes) {f : Bytes} (hframe : IsFrame f)
    (hlength : 2 ≤ lengthField f) (hb : 1028 ≤ b.length) :
    (framesAt (a ++ f ++ b)).map Prod.snd =
        (feed [] (a ++ f ++ b)).frames ∧
      ((∃ mt, (a.length, ⟨mt, f⟩) ∈ framesAt (a ++ f ++ b)) ∨
        ∃ k fr, (k, fr) ∈ framesAt (a ++ f ++ b) ∧ IsFrame fr.raw ∧
          k < a.length ∧ a.length < k + fr.raw.length) := by
  refine ⟨framesAt_snd _, ?_⟩
  have hentry {k : ℕ} {fr : RtcmFrame}
      (hmem : (k + fr.raw.length, some fr) ∈
        scanner.outputsAt 0 (a ++ f ++ b)) :
      (k, fr) ∈ framesAt (a ++ f ++ b) := by
    refine List.mem_filterMap.mpr ⟨_, hmem, ?_⟩
    rw [Option.map_some, Nat.add_sub_cancel]
  rcases outputsAt_resynchronises hframe hlength hb a 0 with
    ⟨mt, hmem⟩ | ⟨_, hmem, k, fr, rfl, hbefore, hbehind⟩
  · rw [Nat.zero_add] at hmem
    exact .inl ⟨mt, hentry hmem⟩
  · rw [Nat.zero_add] at hbefore hbehind
    have hframes := List.mem_map_of_mem (f := Prod.snd) (hentry hmem)
    rw [framesAt_snd] at hframes
    exact .inr ⟨k, fr, hentry hmem, feed_isFrame _ _ fr hframes, hbefore,
      hbehind⟩

/-- A frame with a payload of two bytes. -/
def smallFrame : Bytes :=
  [0xD3, 0x00, 0x02, 0x3E, 0xD0, 0xA4, 0xE0, 0x00]

theorem feed_resynchronises_preamble :
    (∃ mt, (1, ⟨mt, smallFrame⟩) ∈
        framesAt ([preamble] ++ smallFrame ++ List.replicate 1028 0)) ∨
      ∃ k fr,
        (k, fr) ∈
          framesAt ([preamble] ++ smallFrame ++ List.replicate 1028 0) ∧
        IsFrame fr.raw ∧ k < 1 ∧ 1 < k + fr.raw.length :=
  (feed_resynchronises [preamble] (List.replicate 1028 0)
    ⟨by decide, by decide, by decide +kernel⟩ (by decide)
    (List.length_replicate.ge)).2

end Rtcm
end BabilCors
