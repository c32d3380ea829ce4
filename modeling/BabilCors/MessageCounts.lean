import BabilCors.OverflowCounts

/-!
# The counters of the message types

A hub counts the frames of its sources by their type.  The map has room for 64
types; a frame of a type that finds no room is counted as one of type 0, whose
key may be the sixty-fifth.
-/

namespace BabilCors

open OverflowCounts

/-- What a hub counts of the frames of its sources. -/
structure RtcmStats where
  rtcmFramesTotal : ℕ
  rtcmCrcErrorsTotal : ℕ
  rtcmMsgCounts : PyDict ℕ ℕ
  lastRtcmtimeMono : ℚ

namespace RtcmStats

def rtcmMaxTypes : ℕ := 64

def new : RtcmStats where
  rtcmFramesTotal := 0
  rtcmCrcErrorsTotal := 0
  rtcmMsgCounts := []
  lastRtcmtimeMono := 0

def recordRtcmCrcErrors (s : RtcmStats) (n : ℕ) : RtcmStats :=
  if 0 < n then { s with rtcmCrcErrorsTotal := s.rtcmCrcErrorsTotal + n }
  else s

def recordRtcmFrame (s : RtcmStats) (msgType : ℕ) (now : ℚ) : RtcmStats :=
  let counts := s.rtcmMsgCounts
  { s with
    rtcmFramesTotal := s.rtcmFramesTotal + 1
    lastRtcmtimeMono := now
    rtcmMsgCounts :=
      match counts.get? msgType with
      | some n => counts.set msgType (n + 1)
      | none =>
          if rtcmMaxTypes ≤ counts.length then
            counts.set 0 ((counts.get? 0).getD 0 + 1)
          else counts.set msgType 1 }

/-- The three assignments are one more under the slot of the type. -/
theorem recordRtcmFrame_counts (s : RtcmStats) (msgType : ℕ) (now : ℚ) :
    (s.recordRtcmFrame msgType now).rtcmMsgCounts =
      count rtcmMaxTypes 0 s.rtcmMsgCounts msgType := by
  have hmem := s.rtcmMsgCounts.get?_isSome_iff msgType
  unfold recordRtcmFrame count slot increment
  dsimp only
  cases hget : s.rtcmMsgCounts.get? msgType with
  | some n =>
      rw [hget] at hmem
      rw [if_pos (hmem.mp rfl), hget]
      rfl
  | none =>
      rw [hget] at hmem
      have hkey : msgType ∉ s.rtcmMsgCounts.keys :=
        fun h => Bool.false_ne_true (hmem.mpr h)
      rw [if_neg hkey]
      split_ifs
      · rfl
      · rw [hget]
        rfl

/-- What the counters hold after frames of these types. -/
structure Counted (types : List ℕ) (s : RtcmStats) : Prop where
  framesTotal : s.rtcmFramesTotal = types.length
  counts : Exact rtcmMaxTypes 0 types s.rtcmMsgCounts

theorem counted_new : new.Counted [] where
  framesTotal := rfl
  counts := exact_nil rtcmMaxTypes 0

theorem Counted.recordRtcmFrame {types : List ℕ} {s : RtcmStats}
    (h : s.Counted types) (msgType : ℕ) (now : ℚ) :
    (s.recordRtcmFrame msgType now).Counted (types ++ [msgType]) := by
  constructor
  · rw [List.length_append, ← h.framesTotal]
    rfl
  · rw [recordRtcmFrame_counts]
    exact h.counts.step msgType

theorem Counted.recordRtcmCrcErrors {types : List ℕ} {s : RtcmStats}
    (h : s.Counted types) (n : ℕ) :
    (s.recordRtcmCrcErrors n).Counted types := by
  unfold RtcmStats.recordRtcmCrcErrors
  split_ifs
  · exact ⟨h.framesTotal, h.counts⟩
  · exact h

/-- Record frames of these types, each at its time. -/
def recordFrames (s : RtcmStats) (frames : List (ℕ × ℚ)) : RtcmStats :=
  frames.foldl (fun s frame => s.recordRtcmFrame frame.1 frame.2) s

theorem Counted.recordFrames {types : List ℕ} {s : RtcmStats}
    (h : s.Counted types) (frames : List (ℕ × ℚ)) :
    (s.recordFrames frames).Counted (types ++ frames.map Prod.fst) := by
  induction frames generalizing s types with
  | nil =>
      rw [List.map_nil, List.append_nil]
      exact h
  | cons frame rest ih =>
      have hrest := ih (h.recordRtcmFrame frame.1 frame.2)
      rw [List.append_assoc] at hrest
      exact hrest

/-- After any frames the counters sum up to all of them, under no more than 65
keys, and each is exact: the one of type 0 stands for the types without an
entry as well. -/
theorem messageCounts_exact (frames : List (ℕ × ℚ)) :
    let s : RtcmStats := recordFrames new frames
    let types := frames.map Prod.fst
    s.rtcmFramesTotal = types.length ∧
      s.rtcmMsgCounts.values.sum = s.rtcmFramesTotal ∧
      s.rtcmMsgCounts.keys.Nodup ∧
      s.rtcmMsgCounts.keys.length ≤ 65 ∧
      (∀ msgType ∈ s.rtcmMsgCounts.keys, msgType ≠ 0 →
        s.rtcmMsgCounts.get? msgType = some (types.count msgType)) ∧
      (s.rtcmMsgCounts.get? 0).getD 0 =
        types.count 0 +
          types.countP fun msgType => msgType ∉ s.rtcmMsgCounts.keys := by
  intro s types
  have hs : s.Counted types := counted_new.recordFrames frames
  refine ⟨hs.framesTotal, ?_, hs.counts.nodup, ?_, ?_, hs.counts.overflow_eq⟩
  · rw [hs.counts.total, hs.framesTotal]
  · have hmax : rtcmMaxTypes = 64 := rfl
    have hbound := hs.counts.bound
    rw [length_keys]
    omega
  · intro msgType hkey hne
    have hexact := hs.counts.exact msgType hkey hne
    rw [← PyDict.get?_isSome_iff] at hkey
    obtain ⟨n, hget⟩ := Option.isSome_iff_exists.mp hkey
    rw [hget] at hexact ⊢
    exact congrArg some hexact

/-- The sixty-fifth type, and a sixty-sixth, are counted as type 0. -/
example : (new.recordFrames ((List.range' 1 66).map fun t =>
    (t, 0))).rtcmMsgCounts.get? 0 = some 2 := by
  decide +kernel

end RtcmStats

end BabilCors
