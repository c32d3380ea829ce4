import BabilCors.BitStrings
import BabilCors.Resynchronisation

/-!
# What the parser keeps, emits and discards

Whatever is fed, the bytes so far are the frames that were emitted and bytes
that were discarded, in order, and then the buffer.
-/

namespace BabilCors
namespace Rtcm

open IncrementalScanner BitStrings

/-! ## Termination -/

/-- The loop of `feed` breaks after the passes.  The relation has no fuel. -/
inductive LoopBreaks :
    ℕ → Bytes → List RtcmFrame → ℕ → FeedResult → Prop where
  | incomplete {buf rest : Bytes} {frames : List RtcmFrame} {crcErrors : ℕ}
      (hpass : parseIteration buf = .incomplete rest) :
      LoopBreaks 1 buf frames crcErrors ⟨frames, crcErrors, rest⟩
  | crcError {passes : ℕ} {buf rest : Bytes} {frames : List RtcmFrame}
      {crcErrors : ℕ} {result : FeedResult}
      (hpass : parseIteration buf = .crcError rest)
      (hlater : LoopBreaks passes rest frames (crcErrors + 1) result) :
      LoopBreaks (passes + 1) buf frames crcErrors result
  | frame {passes : ℕ} {buf rest : Bytes} {fr : RtcmFrame}
      {frames : List RtcmFrame} {crcErrors : ℕ} {result : FeedResult}
      (hpass : parseIteration buf = .frame fr rest)
      (hlater : LoopBreaks passes rest (frames ++ [fr]) crcErrors result) :
      LoopBreaks (passes + 1) buf frames crcErrors result

theorem feedLoop_breaks {fuel : ℕ} {buf : Bytes} (hfuel : buf.length < fuel)
    (frames : List RtcmFrame) (crcErrors : ℕ) :
    ∃ passes ≤ buf.length + 1,
      LoopBreaks passes buf frames crcErrors
        (feedLoop fuel buf frames crcErrors) := by
  induction fuel generalizing buf frames crcErrors with
  | zero => omega
  | succ fuel ih =>
      simp only [feedLoop]
      cases hpass : parseIteration buf with
      | incomplete rest => exact ⟨1, by omega, .incomplete hpass⟩
      | crcError rest =>
          have hlook : scanner.look buf = .yield none rest := by
            simp [scanner, hpass, Iteration.toLook]
          have hshorter := scanner.yield_shorter hlook
          have hrest : rest.length < fuel := by omega
          obtain ⟨passes, hle, hlater⟩ := ih hrest frames (crcErrors + 1)
          exact ⟨passes + 1, by omega, .crcError hpass hlater⟩
      | frame fr rest =>
          have hlook : scanner.look buf = .yield (some fr) rest := by
            simp [scanner, hpass, Iteration.toLook]
          have hshorter := scanner.yield_shorter hlook
          have hrest : rest.length < fuel := by omega
          obtain ⟨passes, hle, hlater⟩ := ih hrest (frames ++ [fr]) crcErrors
          exact ⟨passes + 1, by omega, .frame hpass hlater⟩

theorem feed_terminates (buf chunk : Bytes) :
    ∃ passes ≤ (buf ++ chunk).length + 1,
      LoopBreaks passes (buf ++ chunk) [] 0 (feed buf chunk) :=
  feedLoop_breaks (Nat.lt_succ_self _) [] 0

/-! ## The buffer -/

/-- A buffer that waits for more bytes. -/
structure Waiting (buf : Bytes) : Prop where
  short : buf.length ≤ 1028
  head : buf = [] ∨ buf.head? = some preamble

theorem waiting_of_pause {buf rest : Bytes}
    (hlook : scanner.look buf = .pause rest) : Waiting rest := by
  obtain ⟨hincomplete, rfl⟩ := toLook_pause_iff.mp hlook
  constructor
  · by_contra hlong
    exact hincomplete (complete_of_long (by omega))
  · exact head?_dropWhile_preamble buf

/-! ## The consumed bytes -/

/-- The bytes are those of the frames, in order, with other bytes before,
between and behind them. -/
inductive Interleaved : List RtcmFrame → Bytes → Prop where
  | done : Interleaved [] []
  | discard {frames : List RtcmFrame} {bytes : Bytes} (b : UInt8)
      (hlater : Interleaved frames bytes) : Interleaved frames (b :: bytes)
  | frame {frames : List RtcmFrame} {bytes : Bytes} (fr : RtcmFrame)
      (hlater : Interleaved frames bytes) :
      Interleaved (fr :: frames) (fr.raw ++ bytes)

theorem Interleaved.discard_all {frames : List RtcmFrame} {bytes : Bytes}
    (hlater : Interleaved frames bytes) (discarded : Bytes) :
    Interleaved frames (discarded ++ bytes) := by
  induction discarded with
  | nil => exact hlater
  | cons b discarded ih => exact .discard b ih

/-- The bytes that a yielding look consumes: skipped ones, and the frame or
one more. -/
theorem interleaved_of_yield {buf rest : Bytes} {output : Option RtcmFrame}
    (hlook : scanner.look buf = .yield output rest) :
    ∃ consumed, buf = consumed ++ rest ∧
      ∀ {frames bytes}, Interleaved frames bytes →
        Interleaved (output.toList ++ frames) (consumed ++ bytes) := by
  obtain ⟨hcomplete, houtput, hrest⟩ := toLook_yield_iff.mp hlook
  have hsplit := List.takeWhile_append_dropWhile
    (p := (· != preamble)) (l := buf)
  generalize buf.takeWhile (· != preamble) = skipped at hsplit
  generalize buf.dropWhile (· != preamble) = candidate at *
  refine ⟨skipped ++ candidate.take (consumed candidate), ?_, ?_⟩
  · rw [hrest, List.append_assoc, List.take_append_drop, hsplit]
  · intro frames bytes hlater
    rw [List.append_assoc]
    apply Interleaved.discard_all
    cases output with
    | none => exact hlater.discard_all _
    | some fr =>
        have hraw := judge_raw houtput.symm
        have hconsumed : consumed candidate = totalLength candidate := by
          rw [consumed, ← houtput]
          rfl
        rw [hconsumed, ← hraw]
        exact .frame fr hlater

theorem drain_accounting (buf : Bytes) :
    Waiting (scanner.drain buf).2 ∧
      ∃ consumed, buf = consumed ++ (scanner.drain buf).2 ∧
        Interleaved ((scanner.drain buf).1.filterMap id) consumed := by
  induction buf using scanner.drain_induction with
  | pause buf rest hlook =>
      rw [Scanner.drain_of_pause hlook]
      obtain ⟨discarded, hdiscarded⟩ := scanner.pause_suffix hlook
      have hnone := Interleaved.done.discard_all discarded
      rw [List.append_nil] at hnone
      exact ⟨waiting_of_pause hlook, discarded, hdiscarded.symm, hnone⟩
  | yield buf output rest hlook ih =>
      rw [Scanner.drain_of_yield hlook]
      obtain ⟨hwaiting, later, hlater, hframes⟩ := ih
      obtain ⟨here, hhere, hinterleaved⟩ := interleaved_of_yield hlook
      refine ⟨hwaiting, here ++ later, ?_, ?_⟩
      · rw [List.append_assoc, ← hlater]
        exact hhere
      · have hboth := hinterleaved hframes
        cases output <;> exact hboth

/-! ## The emitted frames -/

def payload (raw : Bytes) : Bytes :=
  (raw.drop 3).take (raw.length - 6)

/-- A frame as the format describes it: a length field of ten bits, and a
message type in the first twelve bits of the payload. -/
structure WellFormed (fr : RtcmFrame) : Prop where
  isFrame : IsFrame fr.raw
  length : fr.raw.length = 6 + ofBits (((bits fr.raw).drop 14).take 10)
  typed : 2 ≤ (payload fr.raw).length
  msgType : fr.msgType = ofBits ((bits (payload fr.raw)).take 12)

theorem lengthField_eq_ofBits {buf : Bytes} (hlength : 3 ≤ buf.length) :
    lengthField buf = ofBits (((bits buf).drop 14).take 10) := by
  match buf, hlength with
  | b₀ :: b₁ :: b₂ :: buf, _ =>
      have hlt : lengthField (b₀ :: b₁ :: b₂ :: buf) < 2 ^ 10 :=
        Nat.lt_succ_of_le (lengthField_le _)
      have hlow : toBits 2 (b₁.toNat &&& 3) = toBits 2 b₁.toNat := by
        have hmask : Nat.testBit 3 1 = true := by decide
        simp [toBits, hmask]
      have hfield : toBits 10 (lengthField (b₀ :: b₁ :: b₂ :: buf)) =
          toBits 2 b₁.toNat ++ toBits 8 b₂.toNat := by
        rw [← hlow]
        exact toBits_shiftLeft_or b₂.toNat_lt 2 _
      rw [← ofBits_toBits_of_lt hlt, hfield]
      simp [bits_cons, toBits]

theorem rtcmMessageType_eq_ofBits {payload : Bytes} {mt : ℕ}
    (hmt : rtcmMessageType payload = some mt) :
    2 ≤ payload.length ∧ mt = ofBits ((bits payload).take 12) := by
  match payload, hmt with
  | b₀ :: b₁ :: payload, hmt =>
      constructor
      · simp
      · have hlow : b₁.toNat >>> 4 < 2 ^ 4 := by
          have hbyte := b₁.toNat_lt
          rw [Nat.shiftRight_eq_div_pow]
          omega
        have htype := toBits_shiftLeft_or hlow 8 b₀.toNat
        have htake : (bits (b₀ :: b₁ :: payload)).take 12 =
            toBits 8 b₀.toNat ++ toBits 4 (b₁.toNat >>> 4) := by
          rw [bits_cons, bits_cons, toBits_add 4 4 b₁.toNat]
          simp [List.take_append]
        rw [htake, ← htype, ofBits_toBits]
        rw [← Option.some.inj hmt]
        exact Nat.and_two_pow_sub_one_eq_mod _ 12

theorem judge_wellFormed {buf : Bytes} {fr : RtcmFrame}
    (hcomplete : Complete buf) (hhead : buf.head? = some preamble)
    (hjudge : judge buf = some fr) : WellFormed fr := by
  have hisFrame := judge_isFrame hcomplete hhead hjudge
  have hsize := hisFrame.length
  have hraw := judge_raw hjudge
  have hfield : lengthField buf = lengthField fr.raw := by
    rw [hraw, lengthField_take (by unfold totalLength; omega)]
  unfold judge at hjudge
  dsimp only at hjudge
  split_ifs at hjudge
  obtain ⟨mt, hmt, hfr⟩ := Option.map_eq_some_iff.mp hjudge
  have hpayload : ((buf.take (totalLength buf)).drop 3).take
      (lengthField buf) = payload fr.raw := by
    rw [payload, ← hraw, hfield]
    congr 1
    omega
  rw [hpayload] at hmt
  obtain ⟨hlong, htype⟩ := rtcmMessageType_eq_ofBits hmt
  refine ⟨hisFrame, ?_, hlong, ?_⟩
  · rw [← lengthField_eq_ofBits (by omega)]
    omega
  · rw [← htype, ← hfr]

theorem drain_wellFormed (buf : Bytes) :
    ∀ fr ∈ (scanner.drain buf).1.filterMap id, WellFormed fr := by
  have houtputs := scanner.drain_forall
    (P := fun output => ∀ fr, output = some fr → WellFormed fr)
    (by
      intro buf output rest hlook fr hfr
      obtain ⟨hcomplete, hjudge, _⟩ := toLook_yield_iff.mp hlook
      have hhead := (head?_dropWhile_preamble buf).resolve_left
        hcomplete.ne_nil
      exact judge_wellFormed hcomplete hhead (hjudge.symm.trans hfr))
    buf
  intro fr hfr
  obtain ⟨output, hmem, hid⟩ := List.mem_filterMap.mp hfr
  exact houtputs output hmem fr hid

/-- For every sequence of chunks: a call terminates, at most one pass for each
byte and one more; the buffer is short, a suffix of what was fed, and starts
with the preamble; the bytes in front of it are the emitted frames with
discarded bytes; and every frame is well formed. -/
theorem feedAll_accounting (chunks : List Bytes) :
    (∀ buf chunk, ∃ passes ≤ (buf ++ chunk).length + 1,
      LoopBreaks passes (buf ++ chunk) [] 0 (feed buf chunk)) ∧
    Waiting (feedAll [] chunks).buf ∧
    (feedAll [] chunks).buf <:+ chunks.flatten ∧
    (∃ consumed, chunks.flatten = consumed ++ (feedAll [] chunks).buf ∧
      Interleaved (feedAll [] chunks).frames consumed) ∧
    ∀ fr ∈ (feedAll [] chunks).frames, WellFormed fr := by
  rw [feedAll_eq_drain]
  obtain ⟨hwaiting, consumed, hconsumed, hframes⟩ :=
    drain_accounting chunks.flatten
  exact ⟨feed_terminates, hwaiting, ⟨consumed, hconsumed.symm⟩,
    ⟨consumed, hconsumed, hframes⟩, drain_wellFormed chunks.flatten⟩

end Rtcm
end BabilCors
