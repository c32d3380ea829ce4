import BabilCors.AlertCoverage
import BabilCors.MergedWrites
import BabilCors.ReadLoopSafety

/-!
# One threshold for a weak signal

The read loop, the alert and the suspicion about the antenna judge the mean of
a series by `snr_low`, by `snr_low` and by a constant, each with a default of
its own.  They agree on a mean exactly when the configured number and the
constant agree on it.
-/

namespace BabilCors

open Py

variable {F : Type} [PyFloat F]

/-! ## The event of the read loop -/

def ReportsLowSnr (result : LineResult F) : Prop :=
  ∃ call, Effect.event call ∈ result.effects ∧ call.code = "SNR_LOW"

/-- `mean_snr < float(diag_cfg.get("snr_low", 25.0) or 25.0)`. -/
def lowSnr (env : ReadEnv F) (mean : F) : Except PyErr Bool :=
  (env.threshold "snr_low" (.float (PyFloat.ofInt 25))).pyFloat.map
    fun snrLow => PyFloat.lt mean snrLow

theorem jammingEvent_code {env : ReadEnv F} {s : NmeaState F} {mean : F}
    {effect : Effect F}
    (hjamming : jammingEvent env s mean = .ok (some effect))
    {call : EventCall F} (hcall : effect = .event call) :
    call.code = "JAMMING_SUSPECT" := by
  subst hcall
  unfold jammingEvent at hjamming
  split at hjamming
  · cases hjamming
  · rcases bind_eq_ok.mp hjamming with ⟨_, _, hjamming⟩
    rcases bind_eq_ok.mp hjamming with ⟨_, _, hjamming⟩
    rcases bind_eq_ok.mp hjamming with ⟨_, _, hjamming⟩
    split at hjamming
    · cases hjamming
      rfl
    · cases hjamming

theorem reportsLowSnr_iff {env : ReadEnv F} {s : NmeaState F} {mean : F}
    {low : Bool} {event : EventCall F} (hevent : event.code = "SNR_LOW")
    {shadow : List (String × Json F)} {state : NmeaState F} {blocked : Bool} :
    ReportsLowSnr (F := F) ⟨state, (if low then [.event event] else []) ++
        (jammingEvent env s mean).toOption.join.toList ++
          [env.shadow shadow], blocked⟩ ↔ low = true := by
  unfold ReportsLowSnr
  constructor
  · rintro ⟨call, hcall, hcode⟩
    rcases List.mem_append.mp hcall with hcall | hshadow
    · rcases List.mem_append.mp hcall with hlow | hjamming
      · by_contra hstrong
        rw [if_neg hstrong] at hlow
        cases hlow
      · have hjoin := Option.join_eq_some_iff.mp
          (Option.mem_toList.mp hjamming)
        have hother := jammingEvent_code (toOption_eq_some.mp hjoin) rfl
        rw [hother] at hcode
        exact absurd hcode (by decide)
    · cases List.mem_singleton.mp hshadow
  · intro hlow
    refine ⟨event, ?_, hevent⟩
    refine List.mem_append_left _ (List.mem_append_left _ ?_)
    rw [if_pos hlow]
    exact List.mem_singleton_self _

/-- The end of a series raises where its condition does, and reports a weak
signal exactly when the condition holds. -/
theorem completeGsv_lowSnr {env : ReadEnv F} {s : NmeaState F} {gsv : Gsv}
    {sats : List GsvSat} {now : ℕ → F} {mean : F}
    (hmean : meanSnr sats = .ok mean) (low : Bool) :
    (∃ result, completeGsv env s gsv sats now = .ok result ∧
        (ReportsLowSnr result ↔ low = true)) ↔
      lowSnr env mean = .ok low := by
  unfold completeGsv lowSnr
  rw [hmean]
  cases hsnr : (env.threshold "snr_low"
      (.float (PyFloat.ofInt 25))).pyFloat with
  | error e => simp [bind, Except.bind, Except.map]
  | ok snrLow =>
      simp only [bind, Except.bind, Except.map, pure, Except.pure,
        Except.ok.injEq, exists_eq_left']
      refine Iff.trans (iff_congr (reportsLowSnr_iff rfl) Iff.rfl) ?_
      exact Bool.eq_iff_iff.symm

/-! ## The alerts of one connection -/

/-- An alert with this code about the connection of the sample. -/
def HasAlert (alerts : List (Alert F)) (code : AlertCode)
    (r : RoverSample F) : Prop :=
  ∃ a ∈ alerts, a.code = code ∧ a.connId = some r.connId

/-- A sample with this mean in a snapshot with this configuration.  The ids of
connections are positive, and each connection has one sample. -/
structure SampledRover (cfg : PyDict String (Json F)) (snap : Snapshot F)
    (r : RoverSample F) (mean : F) : Prop where
  keys : cfg.keys.Nodup
  configured : snap.diagnosticsCfg = some cfg
  named : snap.mountpoint ≠ ""
  sampled : r ∈ snap.roverSamples
  positive : ∀ r' ∈ snap.roverSamples, 0 < r'.connId
  distinct : ∀ r' ∈ snap.roverSamples, r'.connId = r.connId → r' = r
  measured : r.gsvSnrMean = some mean
  nonneg : PyFloat.lt floatZero mean = true ∨ floatIsZero mean = true

theorem SampledRover.hasAlert_iff {cfg : PyDict String (Json F)}
    {snap : Snapshot F} {r : RoverSample F} {mean : F}
    (h : SampledRover cfg snap r mean) {code : AlertCode}
    (hcode : code ∉ hubCodes) :
    HasAlert (computeAlerts [snap] []) code r ↔
      r.reports (snapshotThresholds [] snap) code = true := by
  have hreports : (∃ a ∈ roverAlerts (snapshotThresholds [] snap)
      snap.mountpoint r, a.code = code) ↔ _ := exists_mem_roverAlerts
  rw [← hreports]
  constructor
  · rintro ⟨a, ha, rfl, hconn⟩
    rcases (mem_computeAlerts hcode).mp ha with
      ⟨_, hsnap, _, r', hr', hmem⟩
    rw [List.mem_singleton] at hsnap
    subst hsnap
    have hnames := (mem_roverAlerts_names hmem).2.1
    rw [if_neg (h.positive r' hr').ne', hconn] at hnames
    obtain rfl := h.distinct r' hr' (Option.some.inj hnames).symm
    exact ⟨a, hmem, rfl⟩
  · rintro ⟨a, hmem, rfl⟩
    refine ⟨a, (mem_computeAlerts hcode).mpr
      ⟨snap, List.mem_singleton_self snap, h.named, r, h.sampled, hmem⟩,
      rfl, ?_⟩
    rw [(mem_roverAlerts_names hmem).2.1,
      if_neg (h.positive r h.sampled).ne']

theorem SampledRover.weakSignal {cfg : PyDict String (Json F)}
    {snap : Snapshot F} {r : RoverSample F} {mean : F}
    (h : SampledRover cfg snap r mean) (bound : F) :
    weakSignal r.gsvSnrMean bound = PyFloat.lt mean bound := by
  have hnonneg : (PyFloat.lt floatZero mean || floatIsZero mean) = true := by
    rw [Bool.or_eq_true]
    exact h.nonneg
  rw [BabilCors.weakSignal, h.measured, Option.any_some, hnonneg,
    Bool.true_and]

theorem SampledRover.get? {cfg : PyDict String (Json F)} {snap : Snapshot F}
    {r : RoverSample F} {mean : F} (h : SampledRover cfg snap r mean)
    (key : String) :
    (snapshotThresholds [] snap).get? key = cfg.get? key := by
  have hupdate : snapshotThresholds [] snap = PyDict.update [] cfg := by
    rw [snapshotThresholds, h.configured]
    rfl
  rw [hupdate, PyDict.get?_update h.keys]
  cases cfg.get? key <;> rfl

/-! ## Three verdicts -/

def NumberOrNone : Option (Json F) → Prop
  | none | some .null | some (.int _) | some (.float _) => True
  | _ => False

/-- The event of the read loop, the alert and the low-signal part of the
suspicion agree, and the suspicion comes with both other alerts. -/
structure OneThreshold (read : Except PyErr (LineResult F))
    (snap : Snapshot F) (r : RoverSample F) : Prop where
  agree : ∃ low, (∃ result, read = .ok result ∧
      (ReportsLowSnr result ↔ low = true)) ∧
    (HasAlert (computeAlerts [snap] []) .snrLow r ↔ low = true) ∧
    weakSignal r.gsvSnrMean (PyFloat.ofInt 25) = low
  accompanied : HasAlert (computeAlerts [snap] []) .antennaOrRfSuspect r →
    HasAlert (computeAlerts [snap] []) .snrLow r ∧
      HasAlert (computeAlerts [snap] []) .noFix r

/-- The configured number is no integer beyond the floats, and the mean is
below it exactly if it is below 25. -/
def SameSide (cfg : PyDict String (Json F)) (mean : F) : Prop :=
  match cfg.get? "snr_low" with
  | some (.int n) => n.natAbs < floatBound ∧
      PyFloat.lt mean (PyFloat.ofInt n) = PyFloat.lt mean (PyFloat.ofInt 25)
  | some (.float x) => PyFloat.lt mean x = PyFloat.lt mean (PyFloat.ofInt 25)
  | _ => True

theorem pyFloat_orElse (value : Json F) (default : F) :
    (value.orElse (.float default)).pyFloat =
      if value.truthy then value.pyFloat else .ok default := by
  unfold Json.orElse
  split_ifs <;> rfl

/-- The read loop and the alert agree with the constant on the same side of
it. -/
theorem agree_iff_sameSide {env : ReadEnv F} {mean : F}
    (hnumber : NumberOrNone (env.diagCfg.get? "snr_low")) :
    (lowSnr env mean = .ok (PyFloat.lt mean (PyFloat.ofInt 25)) ∧
        PyFloat.lt mean (threshold env.diagCfg "snr_low" 25) =
          PyFloat.lt mean (PyFloat.ofInt 25)) ↔
      SameSide env.diagCfg mean := by
  rw [lowSnr, ReadEnv.threshold, pyFloat_orElse, threshold, SameSide]
  cases hget : env.diagCfg.get? "snr_low" with
  | none => simp [Json.pyFloat, Except.map]
  | some value =>
      rw [hget] at hnumber
      cases value with
      | null => simp [Json.truthy, Except.map]
      | int n =>
          by_cases hlarge : floatBound ≤ n.natAbs
          · have hzero : n ≠ 0 := by
              rintro rfl
              exact absurd hlarge (not_le.mpr floatBound_pos)
            simp [Json.truthy, Json.pyFloat, floatOfInt, Except.map, hzero,
              hlarge]
          · have hsmall := not_le.mp hlarge
            by_cases hzero : n = 0
            · simp [Json.truthy, Json.pyFloat, floatOfInt, Except.map,
                Except.toOption, hzero, floatBound_pos.ne', floatBound_pos]
            · simp [Json.truthy, Json.pyFloat, floatOfInt, Except.map,
                Except.toOption, hzero, hlarge, hsmall]
      | float x =>
          cases hzero : floatIsZero x <;>
            simp [Json.truthy, Json.pyFloat, Except.map, Except.toOption,
              hzero]
      | bool _ | str _ | arr _ | obj _ => exact hnumber.elim

/-- The three verdicts on a mean agree exactly when the configured number is
on the same side of it as 25. -/
theorem oneThreshold_iff {env : ReadEnv F} {snap : Snapshot F}
    {r : RoverSample F} {mean : F} {s : NmeaState F} {gsv : Gsv}
    {sats : List GsvSat} {now : ℕ → F} (hmean : meanSnr sats = .ok mean)
    (hsampled : SampledRover env.diagCfg snap r mean)
    (hnumber : NumberOrNone (env.diagCfg.get? "snr_low")) :
    OneThreshold (completeGsv env s gsv sats now) snap r ↔
      SameSide env.diagCfg mean := by
  have hthreshold : threshold (snapshotThresholds [] snap) "snr_low" 25 =
      (threshold env.diagCfg "snr_low" 25 : F) := by
    unfold threshold
    rw [hsampled.get?]
  have hsnrLow : HasAlert (computeAlerts [snap] []) .snrLow r ↔
      PyFloat.lt mean (threshold env.diagCfg "snr_low" 25) = true := by
    rw [hsampled.hasAlert_iff (by decide), RoverSample.reports,
      hsampled.weakSignal, hthreshold]
  rw [← agree_iff_sameSide hnumber]
  constructor
  · rintro ⟨⟨low, hread, halert, hweak⟩, _⟩
    rw [hsampled.weakSignal] at hweak
    rw [completeGsv_lowSnr hmean] at hread
    rw [hsnrLow, ← Bool.eq_iff_iff] at halert
    rw [hweak]
    exact ⟨hread, halert⟩
  · rintro ⟨hread, halert⟩
    constructor
    · refine ⟨_, (completeGsv_lowSnr hmean _).mpr hread, ?_,
        hsampled.weakSignal _⟩
      rw [hsnrLow, halert]
    · intro hsuspect
      rw [hsampled.hasAlert_iff (by decide), RoverSample.reports,
        Bool.and_eq_true, Bool.and_eq_true] at hsuspect
      rcases hsuspect with ⟨⟨hfix, _⟩, hweak⟩
      rw [hsampled.weakSignal] at hweak
      constructor
      · rw [hsnrLow, halert]
        exact hweak
      · rw [hsampled.hasAlert_iff (by decide)]
        exact hfix

/-! ## A threshold of zero -/

def weakSats : List GsvSat := [⟨1, 40, 83, 20⟩]

def weakEnv (snrLow : ℤ) : ReadEnv ℚ :=
  { defaultEnv with diagCfg := [("snr_low", .int snrLow)] }

def weakSample : RoverSample ℚ where
  connId := 1
  user := "rover"
  gga := some ⟨41, 29, 0, 3, 1⟩
  gsvSnrMean := some 20
  lastNmeaAgeS := none
  geofenceViolationRecent := false
  jammingSuspectRecent := false
  spoofingSuspectRecent := false

def weakSnapshot (snrLow : ℤ) : Snapshot ℚ where
  mountpoint := "MP"
  sourceAttached := true
  lastRtcmtimeAgeS := none
  stationInfo := []
  roverSamples := [weakSample]
  diagnosticsCfg := some (weakEnv snrLow).diagCfg

def weakSeries (snrLow : ℤ) : Except PyErr (LineResult ℚ) :=
  completeGsv (weakEnv snrLow) .new ⟨1, 1, 1, weakSats⟩ weakSats fun _ => 0

theorem weakSats_mean : meanSnr weakSats = .ok (20 : ℚ) := by
  decide +kernel

theorem weak_sampled (snrLow : ℤ) :
    SampledRover (weakEnv snrLow).diagCfg (weakSnapshot snrLow) weakSample
      20 := by
  constructor
  · exact List.nodup_singleton _
  · rfl
  · exact (by decide : "MP" ≠ "")
  · exact List.mem_singleton_self _
  · intro r hr
    rw [List.mem_singleton.mp hr]
    exact Nat.one_pos
  · intro r hr _
    exact List.mem_singleton.mp hr
  · rfl
  · exact .inl (by decide +kernel)

theorem oneThreshold_default :
    OneThreshold (weakSeries 25) (weakSnapshot 25) weakSample :=
  (oneThreshold_iff weakSats_mean (weak_sampled 25) trivial).mpr
    ⟨by decide +kernel, rfl⟩

/-- With a threshold of zero the suspicion about the antenna comes without the
alert about the signal. -/
theorem zeroThreshold_splits :
    ¬ OneThreshold (weakSeries 0) (weakSnapshot 0) weakSample := by
  intro hone
  have hsuspect : HasAlert (computeAlerts [weakSnapshot 0] [])
      .antennaOrRfSuspect weakSample :=
    ((weak_sampled 0).hasAlert_iff (by decide)).mpr (by decide +kernel)
  have hlow := (hone.accompanied hsuspect).1
  rw [(weak_sampled 0).hasAlert_iff (by decide)] at hlow
  exact absurd hlow (by decide +kernel)

end BabilCors
