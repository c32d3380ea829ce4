import BabilCors.IotRelay
import BabilCors.MessageCounts
import BabilCors.StationInfo

/-!
# The frames of the sources of a hub

A hub with the sources that feed it and with its relay.  Of the three numbers
that go with a frame to the relay, two come out of fields of twelve bits.  The
third is the counter of the CRC errors.
-/

namespace BabilCors

open BitStrings Py Rtcm TransitionRuns

variable {F : Type} [PyFloat F]

/-! ## The hub -/

/-- What the frames of its sources touch of a hub, and the parsers of the
sources, each with what it has in its buffer. -/
structure HubFeed (F : Type) where
  stats : RtcmStats
  stationInfo : PyDict String (Json F)
  relay : Option IoTRelay
  parsers : ℕ → Option Bytes

inductive FeedEvent where
  | attach (source : ℕ)
  | read (source : ℕ) (chunk : Bytes) (now : ℚ)
  | detach (source : ℕ)
  | relay (event : RelayEvent)
  deriving DecidableEq, Repr

/-- The station id that goes with a frame. -/
def stationId (stationInfo : PyDict String (Json F)) : ℤ :=
  let value := (stationInfo.get? "station_id").getD .null
  match (value.orElse (.int 0)).pyInt with
  | .ok n => n
  | .error _ => 0

namespace HubFeed

/-- The hub as `get_or_create_hub` makes it. -/
def opened (mountpoint : String) : HubFeed F where
  stats := .new
  stationInfo := []
  relay := some (.new mountpoint)
  parsers := fun _ => none

def publishRtcmFrame (s : HubFeed F) (frame : Bytes) (msgType : ℕ) :
    HubFeed F :=
  match s.relay with
  | none => s
  | some relay =>
      let item : RelayItem := ⟨frame, msgType, stationId s.stationInfo,
        s.stats.rtcmCrcErrorsTotal⟩
      { s with relay := some (relay.put item) }

/-- The body of the loop over the frames. -/
def sourceFrame (now : ℚ) (s : HubFeed F) (fr : RtcmFrame) : HubFeed F :=
  let recorded : HubFeed F :=
    { s with
      stats := s.stats.recordRtcmFrame fr.msgType now
      stationInfo := extractStationInfo s.stationInfo fr }
  recorded.publishRtcmFrame fr.raw fr.msgType

/-- One pass of `_handle_source`, with what its parser had in its buffer. -/
def sourceRead (s : HubFeed F) (source : ℕ) (buf chunk : Bytes) (now : ℚ) :
    HubFeed F :=
  let out := feed buf chunk
  let counted : HubFeed F :=
    { s with
      stats := s.stats.recordRtcmCrcErrors out.crcErrors
      parsers := Function.update s.parsers source (some out.buf) }
  out.frames.foldl (sourceFrame now) counted

def step (lib : ProtobufLib) (s : HubFeed F) : FeedEvent → Option (HubFeed F)
  | .attach source =>
      if s.parsers source = none then
        some { s with parsers := Function.update s.parsers source (some []) }
      else none
  | .read source chunk now =>
      if chunk = [] then none
      else (s.parsers source).map fun buf => s.sourceRead source buf chunk now
  | .detach source =>
      some { s with parsers := Function.update s.parsers source none }
  | .relay event =>
      (s.relay.bind fun relay => relay.step lib event).map fun relay =>
        { s with relay := some relay }

/-! ## The numbers of a frame -/

theorem msgType_lt {buf chunk : Bytes} {fr : RtcmFrame}
    (hfr : fr ∈ (feed buf chunk).frames) : fr.msgType < 2 ^ 12 := by
  rw [feed_eq_drain] at hfr
  rw [(drain_wellFormed (buf ++ chunk) fr hfr).msgType]
  exact ofBits_take_lt _ 12

/-- The station id is the number of twelve bits of a position message. -/
def KnownStation (stationInfo : PyDict String (Json F)) : Prop :=
  ∀ value, stationInfo.get? "station_id" = some value →
    ∃ n : ℕ, n < 2 ^ 12 ∧ value = .int n

theorem knownStation_extractStationInfo
    {stationInfo : PyDict String (Json F)} (h : KnownStation stationInfo)
    (fr : RtcmFrame) : KnownStation (extractStationInfo stationInfo fr) := by
  intro value hget
  rw [get?_extractStationInfo, stationMessage_position fr (by decide)] at hget
  rcases Option.or_eq_some_iff.mp hget with hnew | ⟨-, hold⟩
  · obtain ⟨info, hinfo, hvalue⟩ := Option.bind_eq_some_iff.mp hnew
    rw [positionInfo_eq hinfo] at hvalue
    have hentry : (referenceOf (payload fr.raw)).info.get? "station_id" =
        some value := (Option.filter_eq_some_iff.mp hvalue).1
    exact ⟨(referenceOf (payload fr.raw)).stationId, ofBits_take_lt _ 12,
      (Option.some.inj hentry).symm⟩
  · exact h value hold

theorem stationId_bounds {stationInfo : PyDict String (Json F)}
    (h : KnownStation stationInfo) :
    0 ≤ stationId stationInfo ∧ stationId stationInfo < 2 ^ 12 := by
  unfold stationId
  cases hget : stationInfo.get? "station_id" with
  | none =>
      change 0 ≤ (0 : ℤ) ∧ (0 : ℤ) < 2 ^ 12
      decide
  | some value =>
      obtain ⟨n, hn, rfl⟩ := h value hget
      have hvalue : ((Json.int (n : ℤ) : Json F).orElse (.int 0)).pyInt =
          .ok (n : ℤ) := by
        unfold Json.orElse
        split_ifs with htruthy
        · rfl
        · have hzero : (n : ℤ) = 0 := by
            simpa [Json.truthy] using htruthy
          rw [hzero]
          rfl
      dsimp only [Option.getD_some]
      rw [hvalue]
      dsimp only
      omega

/-! ## Steps -/

/-- What a hub with this many CRC errors passes to its relay for a frame. -/
structure PublishedAs (crcErrors : ℕ) (fr : RtcmFrame) (item : RelayItem) :
    Prop where
  rtcm : item.rtcm = fr.raw
  msgType : item.msgType = fr.msgType
  stationId : 0 ≤ item.stationId ∧ item.stationId < 2 ^ 12
  crcErrors : item.crcErrors = crcErrors

variable {mountpoint : String} {s s' : HubFeed F} {lib : ProtobufLib}

@[simp] theorem recordRtcmCrcErrors_crcErrors (stats : RtcmStats) (n : ℕ) :
    (stats.recordRtcmCrcErrors n).rtcmCrcErrorsTotal =
      stats.rtcmCrcErrorsTotal + n := by
  unfold RtcmStats.recordRtcmCrcErrors
  split_ifs
  · rfl
  · omega

@[simp] theorem recordFrames_crcErrors (stats : RtcmStats)
    (frames : List (ℕ × ℚ)) :
    (stats.recordFrames frames).rtcmCrcErrorsTotal =
      stats.rtcmCrcErrorsTotal := by
  induction frames generalizing stats with
  | nil => rfl
  | cons frame rest ih => exact ih (stats.recordRtcmFrame frame.1 frame.2)

/-- What the frames of a read make of a hub. -/
structure Fed (now : ℚ) (frames : List RtcmFrame) (items : List RelayItem)
    (s s' : HubFeed F) : Prop where
  known : KnownStation s'.stationInfo
  stats : s'.stats =
    s.stats.recordFrames (frames.map fun fr => (fr.msgType, now))
  relay : s'.relay = s.relay.map fun relay => items.foldl IoTRelay.put relay
  items : ∀ item ∈ items, ∃ fr ∈ frames,
    PublishedAs s.stats.rtcmCrcErrorsTotal fr item

theorem sourceFrame_eq (s : HubFeed F) (now : ℚ) (fr : RtcmFrame) :
    s.sourceFrame now fr =
      { s with
        stats := s.stats.recordRtcmFrame fr.msgType now
        stationInfo := extractStationInfo s.stationInfo fr
        relay := s.relay.map fun relay => relay.put ⟨fr.raw, fr.msgType,
          stationId (extractStationInfo s.stationInfo fr),
          s.stats.rtcmCrcErrorsTotal⟩ } := by
  unfold sourceFrame publishRtcmFrame
  cases s.relay <;> rfl

theorem fed_foldl (hs : KnownStation s.stationInfo) (now : ℚ)
    (frames : List RtcmFrame) :
    ∃ items, Fed now frames items s (frames.foldl (sourceFrame now) s) := by
  induction frames generalizing s with
  | nil => exact ⟨[], hs, rfl, by simp, nofun⟩
  | cons fr rest ih =>
      have hknown := knownStation_extractStationInfo hs fr
      let item : RelayItem := ⟨fr.raw, fr.msgType,
        stationId (extractStationInfo s.stationInfo fr),
        s.stats.rtcmCrcErrorsTotal⟩
      rw [List.foldl_cons, sourceFrame_eq]
      obtain ⟨items, hitems⟩ := ih (s := { s with
        stats := s.stats.recordRtcmFrame fr.msgType now
        stationInfo := extractStationInfo s.stationInfo fr
        relay := s.relay.map fun relay => relay.put item }) hknown
      refine ⟨item :: items, hitems.known, hitems.stats, ?_, ?_⟩
      · rw [hitems.relay, Option.map_map]
        rfl
      · intro item hmem
        rcases List.mem_cons.mp hmem with rfl | hrest
        · exact ⟨fr, List.mem_cons_self, rfl, rfl, stationId_bounds hknown,
            rfl⟩
        · obtain ⟨fr', hfr', hitem⟩ := hitems.items item hrest
          exact ⟨fr', List.mem_cons_of_mem fr hfr', hitem⟩

/-- One step of the hub: a read, or a step that passes nothing on. -/
theorem step_cases {event : FeedEvent} (hs : KnownStation s.stationInfo)
    (hstep : s.step lib event = some s') :
    (∃ source chunk now buf items, event = .read source chunk now ∧
      s.parsers source = some buf ∧
      Fed now (feed buf chunk).frames items
        { s with
          stats := s.stats.recordRtcmCrcErrors (feed buf chunk).crcErrors }
        s') ∨
    (∃ own relay relay', event = .relay own ∧ s.relay = some relay ∧
      relay.step lib own = some relay' ∧ s' = { s with relay := relay' }) ∨
    (∃ parsers, s' = { s with parsers := parsers } ∧
      ((∃ source, event = .attach source) ∨
        ∃ source, event = .detach source)) := by
  cases event with
  | attach source =>
      obtain ⟨-, hs'⟩ := Option.ite_none_right_eq_some.mp hstep
      exact .inr (.inr ⟨_, (Option.some.inj hs').symm, .inl ⟨source, rfl⟩⟩)
  | read source chunk now =>
      obtain ⟨-, hread⟩ := Option.ite_none_left_eq_some.mp hstep
      obtain ⟨buf, hbuf, rfl⟩ := Option.map_eq_some_iff.mp hread
      obtain ⟨items, hitems⟩ := fed_foldl (s := { s with
          stats := s.stats.recordRtcmCrcErrors (feed buf chunk).crcErrors
          parsers := Function.update s.parsers source
            (some (feed buf chunk).buf) }) hs now (feed buf chunk).frames
      exact .inl ⟨source, chunk, now, buf, items, rfl, hbuf, hitems.known,
        hitems.stats, hitems.relay, hitems.items⟩
  | detach source =>
      exact .inr (.inr ⟨_, (Option.some.inj hstep).symm, .inr ⟨source, rfl⟩⟩)
  | relay own =>
      obtain ⟨relay', hbind, rfl⟩ := Option.map_eq_some_iff.mp hstep
      obtain ⟨relay, hrelay, hrelay'⟩ := Option.bind_eq_some_iff.mp hbind
      exact .inr (.inl ⟨own, relay, relay', rfl, hrelay, hrelay', rfl⟩)

theorem known_step {event : FeedEvent} (hs : KnownStation s.stationInfo)
    (hstep : s.step lib event = some s') : KnownStation s'.stationInfo := by
  rcases step_cases hs hstep with
    ⟨_, _, _, _, _, -, -, hfed⟩ | ⟨_, _, _, -, -, -, rfl⟩ | ⟨_, rfl, -⟩
  · exact hfed.known
  · exact hs
  · exact hs

/-- The types that an event records. -/
def recorded (s : HubFeed F) : FeedEvent → List ℕ
  | .read source chunk _ =>
      (s.parsers source).elim [] fun buf =>
        (feed buf chunk).frames.map RtcmFrame.msgType
  | _ => []

/-- The counters of a hub are those of all the frames of its sources. -/
theorem run_counted {events : List FeedEvent}
    (hrun : run (step lib) (opened mountpoint) events = some s) :
    s.stats.Counted
      (outputs (step lib) recorded (opened mountpoint : HubFeed F)
        events) := by
  have hmeet : StepsMeet (step lib) (fun _ _ => True)
      (opened mountpoint : HubFeed F) events :=
    StepsMeet.of_forall fun _ _ _ => trivial
  have hcounted : KnownStation s.stationInfo ∧ s.stats.Counted ([] ++
      outputs (step lib) recorded (opened mountpoint : HubFeed F) events) := by
    apply hmeet.run_outputs (P := fun types s =>
      KnownStation s.stationInfo ∧ s.stats.Counted types) _ _ hrun
    · rintro types s event next ⟨hs, hcounted⟩ - hstep
      refine ⟨known_step hs hstep, ?_⟩
      rcases step_cases hs hstep with
        ⟨source, chunk, now, buf, items, rfl, hbuf, hfed⟩ |
        ⟨own, relay, relay', rfl, -, -, rfl⟩ | ⟨parsers, rfl, hevent⟩
      · have htypes := (hcounted.recordRtcmCrcErrors
          (feed buf chunk).crcErrors).recordFrames
            ((feed buf chunk).frames.map fun fr => (fr.msgType, now))
        rw [hfed.stats]
        simpa [recorded, hbuf, Function.comp_def] using htypes
      · simpa [recorded] using hcounted
      · rcases hevent with ⟨source, rfl⟩ | ⟨source, rfl⟩ <;>
          simpa [recorded] using hcounted
    · exact ⟨nofun, RtcmStats.counted_new⟩
  exact hcounted.2

end HubFeed

end BabilCors
