import BabilCors.SourceFrames
import BabilCors.StreamSubscribers

/-!
# The envelopes of the frames of a hub

Nothing resets the counter of the CRC errors.  Once it does not fit its field
any more, no frame has an envelope; the relay passes over all of them, and the
streams are silent from then on.
-/

namespace BabilCors

open ProtobufLib Py Rtcm TransitionRuns

namespace HubFeed

variable {F : Type} [PyFloat F] {mountpoint : String} {s s' : HubFeed F}
  {lib : ProtobufLib}

/-! ## What is in the queue -/

/-- What the relay of the hub has not taken yet. -/
def queued (s : HubFeed F) : List RelayItem :=
  (s.relay.map fun relay => relay.queue.items).getD []

/-- The event reads a frame that the hub passes on as the item. -/
def Publishes (s : HubFeed F) (event : FeedEvent) (item : RelayItem) : Prop :=
  ∃ source chunk now buf fr, event = .read source chunk now ∧
    s.parsers source = some buf ∧ fr ∈ (feed buf chunk).frames ∧
    PublishedAs (s.stats.rtcmCrcErrorsTotal + (feed buf chunk).crcErrors)
      fr item

theorem queued_step {event : FeedEvent} {item : RelayItem}
    (hs : KnownStation s.stationInfo) (hstep : s.step lib event = some s')
    (hitem : item ∈ s'.queued) :
    item ∈ s.queued ∨ s.Publishes event item := by
  unfold queued at hitem ⊢
  rcases step_cases hs hstep with
    ⟨source, chunk, now, buf, items, rfl, hbuf, hfed⟩ |
    ⟨own, relay, relay', -, hrelay, hown, rfl⟩ | ⟨parsers, rfl, -⟩
  · rw [hfed.relay] at hitem
    cases hrelay : s.relay with
    | none =>
        rw [hrelay] at hitem
        cases hitem
    | some relay =>
        rw [hrelay] at hitem
        rcases IoTRelay.mem_foldl_put hitem with hold | hnew
        · exact .inl hold
        · obtain ⟨fr, hfr, hpublished⟩ := hfed.items item hnew
          rw [recordRtcmCrcErrors_crcErrors] at hpublished
          exact .inr ⟨source, chunk, now, buf, fr, rfl, hbuf, hfr,
            hpublished⟩
  · rw [hrelay]
    exact .inl ((IoTRelay.step_spec hown).1.subset hitem)
  · exact .inl hitem

/-- Every item of the queue has been published by a read of the run. -/
theorem run_queued {events : List FeedEvent}
    (hrun : run (step lib) (opened mountpoint) events = some s) :
    KnownStation s.stationInfo ∧ ∀ item ∈ s.queued,
      ∃ before event after s₀, events = before ++ event :: after ∧
        run (step lib) (opened mountpoint : HubFeed F) before = some s₀ ∧
        s₀.Publishes event item := by
  induction events using List.reverseRecOn generalizing s with
  | nil =>
      obtain rfl := Option.some.inj hrun
      exact ⟨nofun, nofun⟩
  | append_singleton events event ih =>
      obtain ⟨s₀, next, hbefore, hstep, hlast⟩ := run_split hrun
      obtain rfl := Option.some.inj hlast
      obtain ⟨hknown, hqueued⟩ := ih hbefore
      refine ⟨known_step hknown hstep, ?_⟩
      intro item hmem
      -- an item that was there before has its read in the events before
      rcases queued_step hknown hstep hmem with hold | hpublishes
      · obtain ⟨before, first, after, s₁, rfl, hrun₁, hpublishes⟩ :=
          hqueued item hold
        refine ⟨before, first, after ++ [event], s₁, ?_, hrun₁, hpublishes⟩
        rw [List.append_assoc, List.cons_append]
      · exact ⟨events, event, [], s₀, rfl, hbefore, hpublishes⟩

/-! ## A source that sends errors -/

/-- One CRC error, and nothing left in the buffer. -/
def badChunk : Bytes := [0xD3, 0, 0, 0, 0, 0]

/-- A source that sends this many bad chunks, and then a good frame. -/
def errorRun (n : ℕ) : List FeedEvent :=
  .attach 0 :: List.replicate n (.read 0 badChunk 0) ++
    [.read 0 beforeMove.raw 0]

theorem recordRtcmCrcErrors_succ (stats : RtcmStats) (n : ℕ) :
    (stats.recordRtcmCrcErrors 1).recordRtcmCrcErrors n =
      stats.recordRtcmCrcErrors (n + 1) := by
  unfold RtcmStats.recordRtcmCrcErrors
  rw [if_pos Nat.one_pos, if_pos (Nat.succ_pos n)]
  split_ifs with hn
  · simp only [Nat.add_assoc, Nat.add_comm 1 n]
  · obtain rfl : n = 0 := by omega
    rfl

theorem step_read {source : ℕ} {buf chunk : Bytes} {now : ℚ}
    (hchunk : chunk ≠ []) (hbuf : s.parsers source = some buf) :
    s.step lib (.read source chunk now) =
      some (s.sourceRead source buf chunk now) := by
  simp [step, hchunk, hbuf]

theorem run_badChunks (n : ℕ) (hparser : s.parsers 0 = some []) :
    run (step lib) s (List.replicate n (.read 0 badChunk 0)) =
      some { s with stats := s.stats.recordRtcmCrcErrors n } := by
  induction n generalizing s with
  | zero => rfl
  | succ n ih =>
      have hfeed : feed [] badChunk = ⟨[], 1, []⟩ := by decide +kernel
      have hsame : Function.update s.parsers 0 (some []) = s.parsers := by
        rw [← hparser, Function.update_eq_self]
      let next : HubFeed F :=
        { s with stats := s.stats.recordRtcmCrcErrors 1 }
      have hread : s.sourceRead 0 [] badChunk 0 = next := by
        unfold sourceRead
        rw [hfeed]
        dsimp only [List.foldl_nil]
        rw [hsame]
      have hstep : s.step lib (.read 0 badChunk 0) = some next := by
        rw [← hread]
        exact step_read (by decide) hparser
      have hrest : run (step lib) next
          (List.replicate n (.read 0 badChunk 0)) =
          some { s with
            stats := (s.stats.recordRtcmCrcErrors 1).recordRtcmCrcErrors n } :=
        ih hparser
      rw [recordRtcmCrcErrors_succ] at hrest
      rw [List.replicate_succ]
      exact run_cons_eq_some.mpr ⟨next, hstep, hrest⟩

theorem stationId_beforeMove : stationId (extractStationInfo
    ([] : PyDict String (Json F)) beforeMove) = 7 := by
  have hget : (extractStationInfo ([] : PyDict String (Json F))
      beforeMove).get? "station_id" = some (.int 7) := by
    rw [get?_extractStationInfo, stationMessage_position _ (by decide),
      positionInfo_beforeMove]
    rfl
  unfold stationId
  rw [hget]
  rfl

/-- The frame that follows this many errors is in the queue, with them as its
third number. -/
theorem run_errorRun (n : ℕ) :
    ∃ s relay, run (step lib) (opened mountpoint : HubFeed F) (errorRun n) =
        some s ∧ s.relay = some relay ∧
      relay.queue.items = [⟨beforeMove.raw, 1005, 7, n⟩] := by
  let attached : HubFeed F := { opened mountpoint with
    parsers := Function.update (fun _ => none) 0 (some []) }
  have hattach : (opened mountpoint : HubFeed F).step lib (.attach 0) =
      some attached := rfl
  have hparser : attached.parsers 0 = some [] := rfl
  have hfeed : feed [] beforeMove.raw = ⟨[beforeMove], 0, []⟩ := by
    decide +kernel
  let counted : HubFeed F :=
    { attached with stats := attached.stats.recordRtcmCrcErrors n }
  have htotal : (counted.stats.recordRtcmCrcErrors 0).rtcmCrcErrorsTotal =
      n := by
    simp [counted, attached, opened, RtcmStats.new]
  have hread : (counted.sourceRead 0 [] beforeMove.raw 0).relay =
      some ((IoTRelay.new mountpoint).put ⟨beforeMove.raw, 1005, 7, n⟩) := by
    unfold sourceRead
    rw [hfeed, ← stationId_beforeMove (F := F), ← htotal]
    rfl
  have hstep : counted.step lib (.read 0 beforeMove.raw 0) =
      some (counted.sourceRead 0 [] beforeMove.raw 0) :=
    step_read (by decide) hparser
  refine ⟨_, _, ?_, hread, rfl⟩
  unfold errorRun
  rw [List.cons_append]
  refine run_cons_eq_some.mpr ⟨attached, hattach, ?_⟩
  exact run_concat (run_badChunks n hparser) hstep

/-! ## Envelopes -/

/-- Whatever the library does that is documented, whatever the run of the hub
and its sources: an item of the queue is a frame that some read has found, and
it has an envelope exactly if the hub had counted fewer than 2 ^ 32 CRC errors
by then, as long as the clock fits its field. -/
theorem enveloped_iff (hlib : lib.Documented) {events : List FeedEvent}
    {relay : IoTRelay} {item : RelayItem}
    (hrun : run (step lib) (opened mountpoint) events = some s)
    (hrelay : s.relay = some relay) (hitem : item ∈ relay.queue.items)
    (tsMs : ℤ) :
    ∃ before source chunk now after s₀ buf fr,
      events = before ++ .read source chunk now :: after ∧
      run (step lib) (opened mountpoint : HubFeed F) before = some s₀ ∧
      s₀.parsers source = some buf ∧ fr ∈ (feed buf chunk).frames ∧
      item.rtcm = fr.raw ∧ item.msgType = fr.msgType ∧
      item.crcErrors = ((s₀.stats.rtcmCrcErrorsTotal +
        (feed buf chunk).crcErrors : ℕ) : ℤ) ∧
      (lib.Envelopes item relay.mountpoint tsMs ↔
        s₀.stats.rtcmCrcErrorsTotal + (feed buf chunk).crcErrors < 2 ^ 32 ∧
          FitsInt64 tsMs) := by
  obtain ⟨-, hqueued⟩ := run_queued hrun
  have hmem : item ∈ s.queued := by
    rw [queued, hrelay]
    exact hitem
  obtain ⟨before, event, after, s₀, hevents, hbefore, source, chunk, now, buf,
    fr, rfl, hbuf, hfr, hpublished⟩ := hqueued item hmem
  refine ⟨before, source, chunk, now, after, s₀, buf, fr, hevents, hbefore,
    hbuf, hfr, hpublished.rtcm, hpublished.msgType, hpublished.crcErrors, ?_⟩
  have hmsgType := msgType_lt hfr
  have hstationId := hpublished.stationId
  have hcrcErrors := hpublished.crcErrors
  rw [hlib.envelopes_iff item relay.mountpoint tsMs]
  constructor
  · intro hfits
    have hlt := hfits.crcErrors.2
    exact ⟨by omega, hfits.tsUnixMs⟩
  · rintro ⟨hlt, hclock⟩
    have hnumber := hpublished.msgType
    exact ⟨⟨by omega, by omega⟩, ⟨hstationId.1, by omega⟩, hclock,
      ⟨by omega, by omega⟩⟩

theorem enveloped_iff_errorRun :
    ∃ s relay item, run (step .wire) (opened "M" : HubFeed ℚ) (errorRun 1) =
        some s ∧ s.relay = some relay ∧ item ∈ relay.queue.items ∧
      ProtobufLib.wire.Envelopes item relay.mountpoint 1700000000000 := by
  have hrun : ∃ s relay, run (step .wire) (opened "M" : HubFeed ℚ)
      (errorRun 1) = some s ∧ s.relay = some relay ∧
      relay.queue.items = [⟨beforeMove.raw, 1005, 7, 1⟩] := run_errorRun 1
  obtain ⟨s, relay, hrun, hrelay, hitems⟩ := hrun
  have hmem : ⟨beforeMove.raw, 1005, 7, 1⟩ ∈ relay.queue.items := by
    rw [hitems]
    exact List.mem_cons_self
  obtain ⟨_, _, chunk, _, _, s₀, buf, fr, -, -, -, -, -, -, hcrcErrors,
    hiff⟩ := enveloped_iff wire_documented hrun hrelay hmem
      1700000000000
  refine ⟨s, relay, _, hrun, hrelay, hmem, hiff.mpr ⟨?_, by decide⟩⟩
  dsimp only at hcrcErrors
  omega

/-- After 2 ^ 32 CRC errors a good frame has no envelope. -/
theorem crcErrors_overflow :
    ¬ ∀ (lib : ProtobufLib) (mountpoint : String) (events : List FeedEvent)
      (s : HubFeed ℚ) (relay : IoTRelay) (item : RelayItem) (tsMs : ℤ),
      lib.Documented → FitsInt64 tsMs →
      run (step lib) (opened mountpoint) events = some s →
      s.relay = some relay → item ∈ relay.queue.items →
      lib.Envelopes item relay.mountpoint tsMs := by
  intro hall
  obtain ⟨n, hn⟩ : ∃ n : ℕ, n = 2 ^ 32 := ⟨_, rfl⟩
  have hclock : FitsInt64 1700000000000 := by decide
  have hrun : ∃ s relay, run (step .wire) (opened "M" : HubFeed ℚ)
      (errorRun n) = some s ∧ s.relay = some relay ∧
      relay.queue.items = [⟨beforeMove.raw, 1005, 7, n⟩] := run_errorRun n
  obtain ⟨s, relay, hrun, hrelay, hitems⟩ := hrun
  have hmem : ⟨beforeMove.raw, 1005, 7, n⟩ ∈ relay.queue.items := by
    rw [hitems]
    exact List.mem_cons_self
  have henvelopes := hall .wire "M" (errorRun n) s relay _ 1700000000000
    wire_documented hclock hrun hrelay hmem
  rw [wire_documented.envelopes_iff] at henvelopes
  have hfits : (n : ℤ) < 2 ^ 32 := henvelopes.crcErrors.2
  omega

/-! ## Silence -/

/-- The counter does not fit its field any more, and what is still waiting for
an envelope has come after that. -/
structure Overflowed (s : HubFeed F) : Prop where
  total : 2 ^ 32 ≤ s.stats.rtcmCrcErrorsTotal
  queued : ∀ item ∈ s.queued, 2 ^ 32 ≤ item.crcErrors
  task : ∀ relay, s.relay = some relay → ∀ e, relay.task ≠ .publishing e

/-- The envelopes that the relay of the hub publishes. -/
def publishedBy (s : HubFeed F) : FeedEvent → List Bytes
  | .relay event =>
      (s.relay.map fun relay => relay.publishedBy (.own event)).getD []
  | _ => []

theorem Overflowed.queued_step {event : FeedEvent} (h : s.Overflowed)
    (hs : KnownStation s.stationInfo) (hstep : s.step lib event = some s') :
    ∀ item ∈ s'.queued, 2 ^ 32 ≤ item.crcErrors := by
  intro item hmem
  rcases HubFeed.queued_step hs hstep hmem with
    hold | ⟨_, _, _, _, _, -, -, -, hpublished⟩
  · exact h.queued item hold
  · have htotal := h.total
    have hcrcErrors := hpublished.crcErrors
    omega

omit [PyFloat F] in
theorem Overflowed.not_serialized {item : RelayItem} {tsMs : ℤ}
    {relay : IoTRelay} (h : s.Overflowed) (hlib : lib.Documented)
    (hrelay : s.relay = some relay) (hitem : item ∈ relay.queue.items)
    {mountpoint : String} {e : Bytes} :
    lib.serialize item mountpoint tsMs ≠ .ok e := by
  intro hserialize
  have hfits := (hlib.fits_of_serialize hserialize).crcErrors.2
  have hover : 2 ^ 32 ≤ item.crcErrors := by
    apply h.queued
    rw [HubFeed.queued, hrelay]
    exact hitem
  omega

theorem Overflowed.step {event : FeedEvent} (h : s.Overflowed)
    (hlib : lib.Documented) (hs : KnownStation s.stationInfo)
    (hstep : s.step lib event = some s') :
    s'.Overflowed ∧ s.publishedBy event = [] := by
  have hqueued := h.queued_step hs hstep
  rcases step_cases hs hstep with
    ⟨source, chunk, now, buf, items, rfl, hbuf, hfed⟩ |
    ⟨own, relay, relay', rfl, hrelay, hown, rfl⟩ | ⟨parsers, rfl, hevent⟩
  · refine ⟨⟨?_, hqueued, ?_⟩, rfl⟩
    · rw [hfed.stats, recordFrames_crcErrors, recordRtcmCrcErrors_crcErrors]
      exact Nat.le_add_right_of_le h.total
    · intro relay' hrelay' e
      rw [hfed.relay] at hrelay'
      obtain ⟨relay, hrelay, rfl⟩ := Option.map_eq_some_iff.mp hrelay'
      rw [IoTRelay.foldl_put_task]
      exact h.task relay hrelay e
  · refine ⟨⟨h.total, hqueued, ?_⟩, ?_⟩
    · -- an envelope to wait with would be that of an item of the queue
      intro r hr e he
      obtain rfl := Option.some.inj hr
      rcases (IoTRelay.step_spec hown).2 e he with
        hbefore | ⟨item, hitem, tsMs, hserialize⟩
      · exact h.task relay hrelay e hbefore
      · exact h.not_serialized hlib hrelay hitem hserialize
    · unfold publishedBy
      rw [hrelay]
      exact IoTRelay.publishedBy_eq_nil (h.task relay hrelay) (.own own)
  · refine ⟨⟨h.total, hqueued, h.task⟩, ?_⟩
    rcases hevent with ⟨source, rfl⟩ | ⟨source, rfl⟩ <;> rfl

/-- From then on, whatever the sources send, the relay publishes nothing. -/
theorem run_silent {events : List FeedEvent} (h : s.Overflowed)
    (hlib : lib.Documented) (hs : KnownStation s.stationInfo)
    (hrun : run (step lib) s events = some s') :
    outputs (step lib) publishedBy s events = [] := by
  induction events generalizing s with
  | nil => rfl
  | cons event events ih =>
      obtain ⟨next, hnext, hrest⟩ := run_cons_eq_some.mp hrun
      obtain ⟨hover, hnothing⟩ := h.step hlib hs hnext
      rw [outputs_cons hnext, hnothing, List.nil_append]
      exact ih hover (known_step hs hnext) hrest

end HubFeed

end BabilCors
