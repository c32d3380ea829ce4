import BabilCors.GatedBatches
import BabilCors.HubFanOut
import BabilCors.RtcmSegmentation

/-!
# Epochs and the reads of a source

What a rover with an epoch limit is sent of a source, read by read: the parser
collects the frames that a read completes, and the gate decides on them as one
chunk.  Two ways of cutting the source's bytes into reads are compared.
-/

namespace BabilCors

open GatedBatches Py Rtcm

variable {F : Type}

/-- A read of the source, the clock behind it, and the rover's queue at that
moment. -/
structure SourceRead where
  chunk : Bytes
  now : ℚ
  queue : ByteQueue

/-- What became of the frames that a read completed. -/
structure Relayed where
  now : ℚ
  frames : List RtcmFrame
  put : Bool
  deriving DecidableEq

/-- The read loop of `_handle_source`, as one rover of the hub sees it: a read
that completes no frame is not handed on, and an exception of the gate ends the
loop. -/
def relay (s : RoverSession F) (buf : Bytes) : List SourceRead → List Relayed
  | [] => []
  | read :: reads =>
      let result := feed buf read.chunk
      if result.frames = [] then relay s result.buf reads
      else
        let out := rawBytes result.frames
        let s := { s with queue := read.queue }
        match epochGate s.epLastTs s.tier.maxEpochsPerMinute read.now with
        | .error _ => []
        | .ok passed =>
            ⟨read.now, result.frames,
                passed && (s.queue.putNowait out).isSome⟩ ::
              relay (s.offer out read.now) result.buf reads

def enqueued (log : List Relayed) : Bytes :=
  log.flatMap fun x => if x.put then rawBytes x.frames else []

/-- Frames of one instant are all forwarded or all withheld. -/
def WholeInstants (log : List Relayed) : Prop :=
  ∀ x ∈ log, ∀ y ∈ log, x.now = y.now → x.put = y.put

/-- The reads that complete frames, with the clock and the frames. -/
def completing : Bytes → List SourceRead → List (ℚ × List RtcmFrame)
  | _, [] => []
  | buf, read :: reads =>
      let result := feed buf read.chunk
      if result.frames = [] then completing result.buf reads
      else (read.now, result.frames) :: completing result.buf reads

/-- The time at which each frame is completed. -/
def completionTimes (reads : List SourceRead) : List ℚ :=
  (timed (completing [] reads)).map Prod.snd

/-- The queue takes whatever a read completes. -/
def RoomFor : Bytes → List SourceRead → Prop
  | _, [] => True
  | buf, read :: reads =>
      let result := feed buf read.chunk
      (result.frames ≠ [] → 0 < read.queue.max ∧
        (read.queue.putNowait (rawBytes result.frames)).isSome = true) ∧
        RoomFor result.buf reads

instance decidableRoomFor :
    ∀ (buf : Bytes) (reads : List SourceRead), Decidable (RoomFor buf reads)
  | _, [] => isTrue trivial
  | buf, read :: reads =>
      have := decidableRoomFor (feed buf read.chunk).buf reads
      inferInstanceAs (Decidable (_ ∧ _))

def epochOpen (epm : ℤ) (last : Option ℚ) (now : ℚ) : Bool :=
  epochGateOk last epm now

theorem epochOpen_self {epm : ℤ} (hlimit : 0 < epm) (now : ℚ) :
    epochOpen epm (some now) now = false := by
  have hperiod : 0 < 60 / (epm : ℚ) := by positivity
  simp [epochOpen, epochGateOk, not_le.mpr hlimit, hperiod]

/-! ## The frames of the stream -/

theorem completing_frames (buf : Bytes) (reads : List SourceRead) :
    (completing buf reads).flatMap Prod.snd =
      (feedAll buf (reads.map SourceRead.chunk)).frames := by
  induction reads generalizing buf with
  | nil => rfl
  | cons read reads ih =>
      simp only [completing, List.map_cons, feedAll]
      by_cases hnone : (feed buf read.chunk).frames = []
      · rw [if_pos hnone, ih]
        simp [hnone]
      · rw [if_neg hnone, List.flatMap_cons, ih]

theorem timed_fst (batches : List (ℚ × List RtcmFrame)) :
    (timed batches).map Prod.fst = batches.flatMap Prod.snd := by
  simp [timed, List.map_flatMap, Function.comp_def]

/-- The same bytes with the same completion times are the same frames with the
same times. -/
theorem timed_completing_eq {reads reads' : List SourceRead}
    (hbytes : reads.flatMap SourceRead.chunk =
      reads'.flatMap SourceRead.chunk)
    (htimes : completionTimes reads = completionTimes reads') :
    timed (completing [] reads) = timed (completing [] reads') := by
  have hframes : (timed (completing [] reads)).map Prod.fst =
      (timed (completing [] reads')).map Prod.fst := by
    rw [timed_fst, timed_fst, completing_frames, completing_frames,
      Rtcm.feedAll_eq_drain, Rtcm.feedAll_eq_drain]
    rw [← List.flatMap_def, ← List.flatMap_def, hbytes]
  rw [List.zip_of_prod hframes htimes]
  exact (List.zip_of_prod rfl rfl).symm

theorem completing_ne_nil (buf : Bytes) (reads : List SourceRead) :
    ∀ b ∈ completing buf reads, b.2 ≠ [] := by
  induction reads generalizing buf with
  | nil => simp [completing]
  | cons read reads ih =>
      unfold completing
      dsimp only
      split_ifs with hnone
      · exact ih _
      · intro b hb
        rcases List.mem_cons.mp hb with rfl | hb
        · exact hnone
        · exact ih _ b hb

/-! ## The log of a rover -/

theorem enqueued_cons (x : Relayed) (log : List Relayed) :
    enqueued (x :: log) =
      (if x.put then rawBytes x.frames else []) ++ enqueued log :=
  List.flatMap_cons

theorem rawBytes_append (frames frames' : List RtcmFrame) :
    rawBytes (frames ++ frames') = rawBytes frames ++ rawBytes frames' :=
  List.flatMap_append

theorem RoverSession.offer_epLastTs (s : RoverSession F) (chunk : Bytes)
    (now : ℚ) : (s.offer chunk now).epLastTs =
      if epochGateOk s.epLastTs s.tier.maxEpochsPerMinute now then
        s.epochAfter now
      else s.epLastTs := by
  have houtcome := s.offer_outcome chunk now
  generalize s.offer chunk now = s' at houtcome ⊢
  cases houtcome with
  | gated hgate => simp [hgate]
  | accepted q hgate hput => simp [hgate]
  | dropped hgate hput => simp [hgate]

/-- With a limit that converts, the log is that of the gate on the batches. -/
theorem relay_limited {epm : ℤ} (hlimit : 0 < epm) (s : RoverSession F)
    (hepm : s.tier.maxEpochsPerMinute = epm) (hconverts : s.tier.Converts)
    (buf : Bytes) (reads : List SourceRead) (hroom : RoomFor buf reads) :
    (relay s buf reads).map (fun x => (x.now, x.put)) =
        decisions (epochOpen epm) s.epLastTs
          ((completing buf reads).map Prod.fst) ∧
      enqueued (relay s buf reads) =
        rawBytes (forwarded (epochOpen epm) s.epLastTs
          (completing buf reads)) := by
  induction reads generalizing s buf with
  | nil => exact ⟨rfl, rfl⟩
  | cons read reads ih =>
      unfold relay completing
      dsimp only
      by_cases hnone : (feed buf read.chunk).frames = []
      · rw [if_pos hnone, if_pos hnone]
        exact ih s hepm hconverts _ hroom.2
      · rw [if_neg hnone, if_neg hnone]
        have htakes := (hroom.1 hnone).2
        have htier := RoverSession.offer_tier { s with queue := read.queue }
          (rawBytes (feed buf read.chunk).frames) read.now
        have hlast := RoverSession.offer_epLastTs
          { s with queue := read.queue }
          (rawBytes (feed buf read.chunk).frames) read.now
        rw [epochGate_of_converts hconverts]
        dsimp only at hlast ⊢
        rw [htakes, Bool.and_true]
        generalize RoverSession.offer { s with queue := read.queue }
          (rawBytes (feed buf read.chunk).frames) read.now = s' at *
        have hloop := ih s' (by rw [htier, hepm]) (by
          unfold Tier.Converts at hconverts ⊢
          rwa [htier]) _ hroom.2
        rw [List.map_cons, List.map_cons, enqueued_cons, hloop.1, hloop.2]
        rw [decisions, forwarded]
        rw [hepm] at hlast ⊢
        by_cases hopen : epochGateOk s.epLastTs epm read.now = true
        · have hafter : s'.epLastTs = some read.now := by
            rw [hlast, if_pos hopen]
            simp [RoverSession.epochAfter, hepm, hlimit]
          have hgate : epochOpen epm s.epLastTs read.now = true := hopen
          rw [hafter, if_pos hgate, if_pos hgate, hopen, rawBytes_append]
          exact ⟨rfl, rfl⟩
        · have hclosed : epochGateOk s.epLastTs epm read.now = false := by
            simpa using hopen
          have hgate : ¬ epochOpen epm s.epLastTs read.now = true := hopen
          have hafter : s'.epLastTs = s.epLastTs := by
            rw [hlast, if_neg hopen]
          rw [hafter, if_neg hgate, if_neg hgate, hclosed]
          exact ⟨rfl, rfl⟩

/-- Without a limit everything is forwarded. -/
theorem relay_unlimited (s : RoverSession F)
    (hepm : s.tier.maxEpochsPerMinute ≤ 0) (buf : Bytes)
    (reads : List SourceRead) (hroom : RoomFor buf reads) :
    (∀ x ∈ relay s buf reads, x.put = true) ∧
      enqueued (relay s buf reads) =
        rawBytes ((completing buf reads).flatMap Prod.snd) := by
  induction reads generalizing s buf with
  | nil =>
      constructor
      · simp [relay]
      · rfl
  | cons read reads ih =>
      unfold relay completing
      dsimp only
      by_cases hnone : (feed buf read.chunk).frames = []
      · rw [if_pos hnone, if_pos hnone]
        exact ih s hepm _ hroom.2
      · rw [if_neg hnone, if_neg hnone]
        have htakes := (hroom.1 hnone).2
        have htier := RoverSession.offer_tier { s with queue := read.queue }
          (rawBytes (feed buf read.chunk).frames) read.now
        have hgate : epochGate s.epLastTs s.tier.maxEpochsPerMinute
            read.now = .ok true := by
          rw [epochGate, if_pos hepm, epochGateOk, if_pos hepm]
        rw [hgate]
        dsimp only
        rw [htakes]
        generalize RoverSession.offer { s with queue := read.queue }
          (rawBytes (feed buf read.chunk).frames) read.now = s' at *
        have hloop := ih s' (by rw [htier]; exact hepm) _ hroom.2
        constructor
        · intro x hx
          rcases List.mem_cons.mp hx with rfl | hx
          · rfl
          · exact hloop.1 x hx
        · rw [enqueued_cons, hloop.2, List.flatMap_cons, rawBytes_append]
          rfl

/-- A limit too large for a float ends the loop at the first frames. -/
theorem relay_raises (s : RoverSession F) (hlarge : ¬ s.tier.Converts)
    (buf : Bytes) (reads : List SourceRead) : relay s buf reads = [] := by
  induction reads generalizing buf with
  | nil => rfl
  | cons read reads ih =>
      unfold relay
      dsimp only
      split_ifs
      · exact ih _
      · have hbound := floatBound_pos
        have hraises : ∃ e, epochGate s.epLastTs s.tier.maxEpochsPerMinute
            read.now = .error e := by
          unfold Tier.Converts at hlarge
          have hlimited : ¬ s.tier.maxEpochsPerMinute ≤ 0 := by omega
          have hfloat : floatBound ≤ s.tier.maxEpochsPerMinute.natAbs := by
            omega
          rw [epochGate, if_neg hlimited, floatOfInt, if_pos hfloat]
          exact ⟨_, rfl⟩
        rcases hraises with ⟨e, he⟩
        rw [he]

/-! ## The result -/

/-- Every time at which the gate is open has one read that completes frames. -/
def OneReadEach (epm : ℤ) (last : Option ℚ) (reads : List SourceRead) :
    Prop :=
  OneEach (epochOpen epm) last ((completing [] reads).map Prod.fst)

instance (epm : ℤ) (last : Option ℚ) (reads : List SourceRead) :
    Decidable (OneReadEach epm last reads) :=
  inferInstanceAs (Decidable (OneEach _ _ _))

theorem completing_sublist (buf : Bytes) (reads : List SourceRead) :
    ((completing buf reads).map Prod.fst).Sublist
      (reads.map SourceRead.now) := by
  induction reads generalizing buf with
  | nil => exact List.Sublist.refl []
  | cons read reads ih =>
      unfold completing
      dsimp only
      split_ifs
      · exact (ih _).cons read.now
      · exact (ih _).cons_cons read.now

theorem completing_sorted (buf : Bytes) {reads : List SourceRead}
    (hclock : reads.Pairwise fun a b => a.now ≤ b.now) :
    ((completing buf reads).map Prod.fst).Pairwise (· ≤ ·) := by
  apply List.Pairwise.sublist (completing_sublist buf reads)
  exact List.pairwise_map.mpr hclock

theorem wholeInstants_iff {log : List Relayed} :
    WholeInstants log ↔ AllOrNone (log.map fun x => (x.now, x.put)) := by
  unfold WholeInstants AllOrNone
  simp

/-- Whether two cuttings of one stream, with every frame completed at the same
time in both, give the rover the same bytes with no instant cut in two. -/
theorem same_for_both_cuts_iff (s : RoverSession F)
    {reads reads' : List SourceRead}
    (hbytes : reads.flatMap SourceRead.chunk =
      reads'.flatMap SourceRead.chunk)
    (htimes : completionTimes reads = completionTimes reads')
    (hclock : reads.Pairwise fun a b => a.now ≤ b.now)
    (hclock' : reads'.Pairwise fun a b => a.now ≤ b.now)
    (hroom : RoomFor [] reads) (hroom' : RoomFor [] reads') :
    (enqueued (relay s [] reads) = enqueued (relay s [] reads') ∧
        WholeInstants (relay s [] reads) ∧
        WholeInstants (relay s [] reads')) ↔
      (s.tier.maxEpochsPerMinute ≤ 0 ∨ ¬ s.tier.Converts ∨
        (OneReadEach s.tier.maxEpochsPerMinute s.epLastTs reads ∧
          OneReadEach s.tier.maxEpochsPerMinute s.epLastTs reads')) := by
  by_cases hlimit : s.tier.maxEpochsPerMinute ≤ 0
  · have hall := relay_unlimited s hlimit [] reads hroom
    have hall' := relay_unlimited s hlimit [] reads' hroom'
    have hsame : enqueued (relay s [] reads) =
        enqueued (relay s [] reads') := by
      rw [hall.2, hall'.2, ← timed_fst, ← timed_fst,
        timed_completing_eq hbytes htimes]
    constructor
    · intro _
      exact .inl hlimit
    · intro _
      refine ⟨hsame, ?_, ?_⟩
      · intro x hx y hy _
        rw [hall.1 x hx, hall.1 y hy]
      · intro x hx y hy _
        rw [hall'.1 x hx, hall'.1 y hy]
  by_cases hconverts : s.tier.Converts
  · have hpos : 0 < s.tier.maxEpochsPerMinute := not_le.mp hlimit
    rcases relay_limited hpos s rfl hconverts [] reads hroom with
      ⟨hlog, hsent⟩
    rcases relay_limited hpos s rfl hconverts [] reads' hroom' with
      ⟨hlog', hsent'⟩
    rw [wholeInstants_iff, wholeInstants_iff, hlog, hlog']
    constructor
    · rintro ⟨_, hwhole, hwhole'⟩
      right
      right
      constructor
      · exact oneEach_of_allOrNone (epochOpen_self hpos) hwhole
      · exact oneEach_of_allOrNone (epochOpen_self hpos) hwhole'
    · rintro (hfree | hlarge | ⟨hone, hone'⟩)
      · exact absurd hfree hlimit
      · exact absurd hconverts hlarge
      · refine ⟨?_, ?_, ?_⟩
        · rw [hsent, hsent', forwarded_eq (completing_ne_nil [] reads)
            (completing_ne_nil [] reads') hone hone'
            (timed_completing_eq hbytes htimes)]
        · exact allOrNone_of_oneEach (completing_sorted [] hclock) hone
        · exact allOrNone_of_oneEach (completing_sorted [] hclock') hone'
  · rw [relay_raises s hconverts, relay_raises s hconverts]
    constructor
    · intro _
      exact .inr (.inl hconverts)
    · intro _
      refine ⟨rfl, ?_, ?_⟩
      · intro x hx
        cases hx
      · intro x hx
        cases hx

def stationFrame : Bytes :=
  [211, 0, 2, 62, 208, 164, 224, 0]

def readAt (now : ℚ) (chunk : Bytes) : SourceRead :=
  ⟨chunk, now, .new 262144⟩

/-- Two frames of one instant: both are sent when one read completes them, and
the first alone when each has a read of its own. -/
theorem epoch_cut_in_two :
    ¬ ∀ (s : RoverSession ℚ) (reads reads' : List SourceRead),
      reads.flatMap SourceRead.chunk = reads'.flatMap SourceRead.chunk →
        completionTimes reads = completionTimes reads' →
        (reads.Pairwise fun a b => a.now ≤ b.now) →
        (reads'.Pairwise fun a b => a.now ≤ b.now) →
        RoomFor [] reads → RoomFor [] reads' →
        enqueued (relay s [] reads) = enqueued (relay s [] reads') := by
  intro hall
  have hsame := hall (freshTask ⟨0, 60, 0⟩).session
    [readAt 0 (stationFrame ++ stationFrame)]
    [readAt 0 stationFrame, readAt 0 stationFrame]
    (by decide +kernel) (by decide +kernel) (by simp)
    (by simp [readAt]) (by decide +kernel) (by decide +kernel)
  have hdiffer : enqueued (relay (freshTask ⟨0, 60, 0⟩).session []
      [readAt 0 (stationFrame ++ stationFrame)]) ≠
        enqueued (relay (freshTask ⟨0, 60, 0⟩).session []
          [readAt 0 stationFrame, readAt 0 stationFrame]) := by
    decide +kernel
  exact hdiffer hsame

theorem same_for_both_cuts_iff_torn :
    (enqueued (relay (freshTask ⟨0, 60, 0⟩).session []
          [readAt 0 stationFrame]) =
        enqueued (relay (freshTask ⟨0, 60, 0⟩).session []
          [readAt 0 (stationFrame.take 3), readAt 0 (stationFrame.drop 3)]) ∧
      WholeInstants (relay (freshTask ⟨0, 60, 0⟩).session []
        [readAt 0 stationFrame]) ∧
      WholeInstants (relay (freshTask ⟨0, 60, 0⟩).session []
        [readAt 0 (stationFrame.take 3),
          readAt 0 (stationFrame.drop 3)])) := by
  apply (same_for_both_cuts_iff (freshTask ⟨0, 60, 0⟩).session
    (by decide +kernel) (by decide +kernel) (by simp) (by simp [readAt])
    (by decide +kernel) (by decide +kernel)).mpr
  right
  right
  constructor
  · decide +kernel
  · decide +kernel

end BabilCors
