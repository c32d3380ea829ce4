import BabilCors.Diagnostics
import BabilCors.ExactFloat

/-!
# Which rovers the alerts cover

An alert about a mark of a rover comes from a sample of that rover, so the
alerts cover the marked rovers exactly when each of them is among the twenty
that the snapshot of its hub takes, and its mountpoint and user have names.
-/

namespace BabilCors

open Py

/-! ## Marks -/

inductive Mark where
  | geofenceViolation
  | jamming
  | spoofing
  deriving DecidableEq, Repr

def Mark.code : Mark → AlertCode
  | geofenceViolation => .geofenceViolation
  | jamming => .jammingSuspect
  | spoofing => .spoofingSuspect

section Marks

variable {F : Type}

def WatchedSession.markedAt (s : WatchedSession F) : Mark → F
  | .geofenceViolation => s.geofenceViolationTsMono
  | .jamming => s.jammingSuspectTsMono
  | .spoofing => s.spoofingSuspectTsMono

/-- The session has the mark, and the mark is younger than a minute. -/
def WatchedSession.Marked [PyFloat F] (s : WatchedSession F) (mark : Mark)
    (now : F) : Prop :=
  floatIsZero (s.markedAt mark) = false ∧
    PyFloat.lt (PyFloat.sub now (s.markedAt mark)) (PyFloat.ofInt 60) = true

def RoverSample.flag (r : RoverSample F) : Mark → Bool
  | .geofenceViolation => r.geofenceViolationRecent
  | .jamming => r.jammingSuspectRecent
  | .spoofing => r.spoofingSuspectRecent

/-- The alert names the mark, the mountpoint, the id and the user. -/
structure Alert.IsFor (a : Alert F) (mark : Mark) (s : WatchedSession F) :
    Prop where
  code : a.code = mark.code
  mountpoint : a.mountpoint = s.mountpoint
  connId : a.connId = some s.id
  user : a.user = some s.username

/-- The marked rovers have an alert each, and no other rover has one. -/
structure AlertsCover [PyFloat F] (w : WatchedHubs F) (now : F)
    (alerts : List (Alert F)) : Prop where
  marked : ∀ hub ∈ w.hubs, ∀ s ∈ hub.rovers, ∀ mark,
    (∃ a ∈ alerts, a.IsFor mark s) ↔ s.Marked mark now
  attached : ∀ a ∈ alerts, ∀ mark : Mark, a.code = mark.code →
    ∃ hub ∈ w.hubs, ∃ s ∈ hub.rovers, a.IsFor mark s

/-- Each marked rover is sampled, and its mountpoint and its user have
names. -/
def WatchedHubs.SamplesMarked [PyFloat F] (w : WatchedHubs F) (now : F) :
    Prop :=
  ∀ hub ∈ w.hubs, ∀ s ∈ hub.rovers, ∀ mark, s.Marked mark now →
    s ∈ hub.rovers.take 20 ∧ s.mountpoint ≠ "" ∧ s.username ≠ ""

/-! ## The alerts of a mark -/

variable [PyFloat F]

theorem WatchedSession.sample_flag (s : WatchedSession F) (mark : Mark)
    (now : F) : (s.sample now).flag mark = true ↔ s.Marked mark now := by
  have hrecent (ts : F) : recent now ts = true ↔ floatIsZero ts = false ∧
      PyFloat.lt (PyFloat.sub now ts) (PyFloat.ofInt 60) = true := by
    unfold recent
    cases floatIsZero ts <;> simp
  cases mark with
  | geofenceViolation => exact hrecent s.geofenceViolationTsMono
  | jamming => exact hrecent s.jammingSuspectTsMono
  | spoofing => exact hrecent s.spoofingSuspectTsMono

/-- Every alert of a sample names its rover. -/
theorem mem_roverAlerts_names {thr : PyDict String (Json F)} {mp : String}
    {r : RoverSample F} {a : Alert F} (ha : a ∈ roverAlerts thr mp r) :
    a.mountpoint = mp ∧
      a.connId = (if r.connId = 0 then none else some r.connId) ∧
      a.user = (if r.user = "" then none else some r.user) := by
  simp only [roverAlerts, List.mem_append, mem_alertIf] at ha
  rcases ha with ((((((h | h) | h) | h) | h) | h) | h) | h
  all_goals
    rcases h with ⟨_, rfl⟩
    exact ⟨rfl, rfl, rfl⟩

/-- The condition of each alert of a sample. -/
def RoverSample.reports (thr : PyDict String (Json F)) (r : RoverSample F) :
    AlertCode → Bool
  | .nmeaStale =>
      r.lastNmeaAgeS.any fun age =>
        PyFloat.lt (threshold thr "nmea_stale_s" 10) age
  | .noFix => r.gga.map Gga.fixQ = some 0
  | .nsatLow => (r.gga.map Gga.nsat).any fun n => 0 < n && n < 10
  | .snrLow => weakSignal r.gsvSnrMean (threshold thr "snr_low" 25)
  | .geofenceViolation => r.geofenceViolationRecent
  | .jammingSuspect => r.jammingSuspectRecent
  | .spoofingSuspect => r.spoofingSuspectRecent
  | .antennaOrRfSuspect =>
      r.gga.map Gga.fixQ = some 0 &&
        (r.gga.map Gga.nsat).any (fun n => n ≤ 3) &&
        weakSignal r.gsvSnrMean (PyFloat.ofInt 25)
  | .noSource | .rtcmStale | .stationMetaMissing => false

theorem exists_mem_roverAlerts {thr : PyDict String (Json F)} {mp : String}
    {r : RoverSample F} {code : AlertCode} :
    (∃ a ∈ roverAlerts thr mp r, a.code = code) ↔
      r.reports thr code = true := by
  simp only [roverAlerts, List.mem_append, mem_alertIf]
  constructor
  · rintro ⟨a, ha, rfl⟩
    rcases ha with ((((((h | h) | h) | h) | h) | h) | h) | h
    all_goals
      rcases h with ⟨hholds, rfl⟩
      exact hholds
  · intro hreports
    cases code with
    | nmeaStale =>
        exact ⟨_, .inl (.inl (.inl (.inl (.inl (.inl (.inl
          ⟨hreports, rfl⟩)))))), rfl⟩
    | noFix =>
        exact ⟨_, .inl (.inl (.inl (.inl (.inl (.inl (.inr
          ⟨hreports, rfl⟩)))))), rfl⟩
    | nsatLow =>
        exact ⟨_, .inl (.inl (.inl (.inl (.inl (.inr
          ⟨hreports, rfl⟩))))), rfl⟩
    | snrLow =>
        exact ⟨_, .inl (.inl (.inl (.inl (.inr ⟨hreports, rfl⟩)))), rfl⟩
    | geofenceViolation =>
        exact ⟨_, .inl (.inl (.inl (.inr ⟨hreports, rfl⟩))), rfl⟩
    | jammingSuspect => exact ⟨_, .inl (.inl (.inr ⟨hreports, rfl⟩)), rfl⟩
    | spoofingSuspect => exact ⟨_, .inl (.inr ⟨hreports, rfl⟩), rfl⟩
    | antennaOrRfSuspect => exact ⟨_, .inr ⟨hreports, rfl⟩, rfl⟩
    | noSource | rtcmStale | stationMetaMissing => cases hreports

theorem reports_mark (thr : PyDict String (Json F)) (r : RoverSample F)
    (mark : Mark) : r.reports thr mark.code = r.flag mark := by
  cases mark <;> rfl

/-- What concerns a hub and no rover. -/
def hubCodes : List AlertCode :=
  [.noSource, .rtcmStale, .stationMetaMissing]

theorem Mark.code_notMem (mark : Mark) : mark.code ∉ hubCodes := by
  cases mark <;> decide

theorem hubAlerts_code {thr : PyDict String (Json F)} {snap : Snapshot F}
    {a : Alert F} (ha : a ∈ hubAlerts thr snap) : a.code ∈ hubCodes := by
  simp only [hubAlerts, List.mem_append, mem_alertIf] at ha
  rcases ha with (h | h) | h
  all_goals
    rcases h with ⟨_, rfl⟩
    dsimp only
    decide

theorem mem_computeAlerts {snaps : List (Snapshot F)}
    {thresholds : PyDict String (Json F)} {a : Alert F}
    (hcode : a.code ∉ hubCodes) :
    a ∈ computeAlerts snaps thresholds ↔
      ∃ snap ∈ snaps, snap.mountpoint ≠ "" ∧ ∃ r ∈ snap.roverSamples,
        a ∈ roverAlerts (snapshotThresholds thresholds snap)
          snap.mountpoint r := by
  unfold computeAlerts
  rw [List.mem_flatMap]
  constructor
  · rintro ⟨snap, hsnap, ha⟩
    by_cases hmp : snap.mountpoint = ""
    · rw [if_pos hmp] at ha
      cases ha
    · rw [if_neg hmp] at ha
      rcases List.mem_append.mp ha with hhub | hrovers
      · exact absurd (hubAlerts_code hhub) hcode
      · exact ⟨snap, hsnap, hmp, List.mem_flatMap.mp hrovers⟩
  · rintro ⟨snap, hsnap, hmp, hrovers⟩
    refine ⟨snap, hsnap, ?_⟩
    rw [if_neg hmp]
    exact List.mem_append_right _ (List.mem_flatMap.mpr hrovers)

namespace WatchedHubs

/-- An alert about a mark comes from a sampled session of a hub with a
name. -/
theorem alert_origin {w : WatchedHubs F} {now : F}
    {thresholds : PyDict String (Json F)} {a : Alert F} {mark : Mark}
    (ha : a ∈ computeAlerts (w.getStatusSnapshots now) thresholds)
    (hcode : a.code = mark.code) :
    ∃ hub ∈ w.hubs, ∃ s ∈ hub.rovers.take 20, s.Marked mark now ∧
      s.mountpoint ≠ "" ∧ a.mountpoint = s.mountpoint ∧
      a.connId = some s.id ∧
      a.user = (if s.username = "" then none else some s.username) := by
  have hcodes : a.code ∉ hubCodes := hcode ▸ mark.code_notMem
  rcases (mem_computeAlerts hcodes).mp ha with
    ⟨snap, hsnap, hmp, r, hr, hrover⟩
  rcases List.mem_map.mp hsnap with ⟨hub, hhub, rfl⟩
  rcases List.mem_map.mp hr with ⟨s, hs, rfl⟩
  have hattached := hub.attached s (List.mem_of_mem_take hs)
  have hid : s.id ≠ 0 :=
    (hub.positive s (List.mem_of_mem_take hs)).ne'
  have hmarked : s.Marked mark now := by
    have hreports := exists_mem_roverAlerts.mp ⟨a, hrover, hcode⟩
    rw [reports_mark] at hreports
    exact (s.sample_flag mark now).mp hreports
  rcases mem_roverAlerts_names hrover with ⟨hmountpoint, hconn, huser⟩
  refine ⟨hub, hhub, s, hs, hmarked, ?_, ?_, ?_, huser⟩
  · rw [hattached]
    exact hmp
  · rw [hattached]
    exact hmountpoint
  · rw [hconn]
    exact if_neg hid

/-- A marked session that is sampled has its alert. -/
theorem exists_alert {w : WatchedHubs F} {now : F}
    {thresholds : PyDict String (Json F)} {hub : WatchedHub F}
    {s : WatchedSession F} {mark : Mark} (hhub : hub ∈ w.hubs)
    (hs : s ∈ hub.rovers.take 20) (hmarked : s.Marked mark now)
    (hmp : s.mountpoint ≠ "") (huser : s.username ≠ "") :
    ∃ a ∈ computeAlerts (w.getStatusSnapshots now) thresholds,
      a.IsFor mark s := by
  have hattached := hub.attached s (List.mem_of_mem_take hs)
  have hid : s.id ≠ 0 :=
    (hub.positive s (List.mem_of_mem_take hs)).ne'
  let snap : Snapshot F :=
    { hub.snapshot now with diagnosticsCfg := some w.diagCfg }
  have hreports : (s.sample now).reports (snapshotThresholds thresholds snap)
      mark.code = true := by
    rw [reports_mark]
    exact (s.sample_flag mark now).mpr hmarked
  rcases exists_mem_roverAlerts.mpr hreports with ⟨a, ha, hcode⟩
  have hcodes : a.code ∉ hubCodes := hcode ▸ mark.code_notMem
  rcases mem_roverAlerts_names ha with ⟨hmountpoint, hconn, hname⟩
  refine ⟨a, (mem_computeAlerts hcodes).mpr ⟨snap, ?_, ?_, s.sample now, ?_,
    ha⟩, hcode, ?_, ?_, ?_⟩
  · exact List.mem_map.mpr ⟨hub, hhub, rfl⟩
  · rw [← show s.mountpoint = snap.mountpoint from hattached]
    exact hmp
  · exact List.mem_map.mpr ⟨s, hs, rfl⟩
  · rw [hmountpoint]
    exact hattached.symm
  · rw [hconn]
    exact if_neg hid
  · rw [hname]
    exact if_neg huser

omit [PyFloat F] in
/-- A session is named by its mountpoint and its id. -/
theorem eq_of_names {w : WatchedHubs F} {hub hub' : WatchedHub F}
    {s s' : WatchedSession F} (hhub : hub ∈ w.hubs) (hhub' : hub' ∈ w.hubs)
    (hs : s ∈ hub.rovers) (hs' : s' ∈ hub'.rovers)
    (hmountpoint : s'.mountpoint = s.mountpoint) (hid : s'.id = s.id) :
    hub' = hub ∧ s' = s := by
  have hsame : hub' = hub := by
    apply List.inj_on_of_nodup_map w.distinct hhub' hhub
    calc
      hub'.mountpoint = s'.mountpoint := (hub'.attached s' hs').symm
      _ = s.mountpoint := hmountpoint
      _ = hub.mountpoint := hub.attached s hs
  subst hsame
  exact ⟨rfl, List.inj_on_of_nodup_map hub'.distinct hs' hs hid⟩

/-- The alerts cover the marked rovers exactly when every marked rover is
among the twenty of its hub, with a named mountpoint and a named user. -/
theorem alertsCover_iff (w : WatchedHubs F) (now : F)
    (thresholds : PyDict String (Json F)) :
    AlertsCover w now (computeAlerts (w.getStatusSnapshots now) thresholds) ↔
      w.SamplesMarked now := by
  constructor
  · intro hcover hub hhub s hs mark hmarked
    rcases (hcover.marked hub hhub s hs mark).mpr hmarked with ⟨a, ha, hfor⟩
    rcases alert_origin ha hfor.code with
      ⟨hub', hhub', s', hs', _, hmp, hmountpoint, hconn, huser⟩
    have hid : s'.id = s.id :=
      Option.some.inj (hconn.symm.trans hfor.connId)
    rcases eq_of_names hhub hhub' hs (List.mem_of_mem_take hs')
      (hmountpoint.symm.trans hfor.mountpoint) hid with ⟨rfl, rfl⟩
    refine ⟨hs', hmp, ?_⟩
    intro hempty
    rw [if_pos hempty, hfor.user] at huser
    cases huser
  · intro hsamples
    constructor
    · intro hub hhub s hs mark
      constructor
      · rintro ⟨a, ha, hfor⟩
        rcases alert_origin ha hfor.code with
          ⟨hub', hhub', s', hs', hmarked, _, hmountpoint, hconn, _⟩
        have hid : s'.id = s.id :=
          Option.some.inj (hconn.symm.trans hfor.connId)
        rcases eq_of_names hhub hhub' hs (List.mem_of_mem_take hs')
          (hmountpoint.symm.trans hfor.mountpoint) hid with ⟨_, rfl⟩
        exact hmarked
      · intro hmarked
        rcases hsamples hub hhub s hs mark hmarked with ⟨hsampled, hmp, huser⟩
        exact exists_alert hhub hsampled hmarked hmp huser
    · intro a ha mark hcode
      rcases alert_origin ha hcode with
        ⟨hub, hhub, s, hs, hmarked, hmp, hmountpoint, hconn, huser⟩
      have hattached := List.mem_of_mem_take hs
      have hname := (hsamples hub hhub s hattached mark hmarked).2.2
      rw [if_neg hname] at huser
      exact ⟨hub, hhub, s, hattached, hcode, hmountpoint, hconn, huser⟩

end WatchedHubs

end Marks

/-! ## A hub with twenty-one marked rovers -/

def outsideRover (i : ℕ) : WatchedSession ℚ where
  id := i + 1
  username := "alice"
  tier := ⟨0, 0, 0⟩
  mountpoint := "MP1"
  addr := "10.0.0.1:5000"
  queue := .new 262144
  bucket := none
  epLastTs := none
  droppedBytes := 0
  sentBytes := 0
  lastGga := none
  writerClosing := false
  socket := []
  lastGsvSnrMean := none
  lastNmeaTsMono := 0
  geofenceViolationTsMono := 100
  jammingSuspectTsMono := 0
  spoofingSuspectTsMono := 0

def crowdedHub : WatchedHub ℚ where
  mountpoint := "MP1"
  sourceAddr := some "10.0.0.2:5000"
  lastRtcmtimeMono := 0
  stationInfo := []
  rovers := (List.range 21).map outsideRover
  attached := by
    intro s hs
    rcases List.mem_map.mp hs with ⟨i, _, rfl⟩
    rfl
  positive := by
    intro s hs
    rcases List.mem_map.mp hs with ⟨i, _, rfl⟩
    exact Nat.succ_pos i
  distinct := by
    decide +kernel

def crowdedServer : WatchedHubs ℚ where
  hubs := [crowdedHub]
  distinct := by
    decide
  diagCfg := []

/-- All twenty-one rovers have left their fence ten seconds ago, and there is
no alert with the id of the last one. -/
theorem last_rover_has_no_alert :
    ¬ AlertsCover crowdedServer 110
      (computeAlerts (crowdedServer.getStatusSnapshots 110) []) := by
  intro hcover
  have hlast : outsideRover 20 ∈ crowdedHub.rovers :=
    List.mem_map.mpr ⟨20, by decide, rfl⟩
  have hmarked : (outsideRover 20).Marked .geofenceViolation 110 := by
    constructor <;> decide +kernel
  rcases (hcover.marked crowdedHub (List.mem_singleton_self _)
    (outsideRover 20) hlast .geofenceViolation).mpr hmarked with ⟨a, ha, hfor⟩
  have hnone : ∀ connId ∈ (computeAlerts
      (crowdedServer.getStatusSnapshots 110) []).map Alert.connId,
        connId ≠ some 21 := by
    decide +kernel
  exact hnone a.connId (List.mem_map.mpr ⟨a, ha, rfl⟩) hfor.connId

end BabilCors
