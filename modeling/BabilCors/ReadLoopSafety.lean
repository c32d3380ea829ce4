import BabilCors.ExactFloat
import BabilCors.RoverReadLoop
import BabilCors.TransitionRuns

/-!
# Which lines end a session by an exception

Only a GSV sentence can make a pass of the read loop raise, in three ways: it
continues a series that never began, the positive SNRs of a completed series
have a mean out of the range of a float, or the threshold for a low SNR is an
integer out of that range.  A session whose lines do none of the three ends
only in the regular ways.
-/

namespace BabilCors

open Py TransitionRuns

section Safety

variable {F : Type} [PyFloat F]

def gsvOfLine? (lineB : List UInt8) : Option Gsv :=
  let line := strip (safeDecode lineB)
  if startsWith line "$" && !contains line "RMC" && !contains line "VTG" &&
      !contains line "ZDA" && !contains line "GGA" && !contains line "GSA" &&
      contains line "GSV" then
    parseGsv line
  else
    none

/-- The diagnostics settings that the read loop takes numbers from. -/
def thresholdKeys : List String :=
  ["snr_low", "spoofing_jump_dist_m", "spoofing_jump_speed_mps",
    "jamming_snr", "jamming_nsat", "jamming_hdop"]

def NumericThresholds (diagCfg : PyDict String (Json F)) : Prop :=
  ∀ key ∈ thresholdKeys, ∀ value, diagCfg.get? key = some value →
    (∃ n, value = .int n) ∨ ∃ x, value = .float x

/-- The threshold for a low SNR is an integer out of the range of a float. -/
def ThresholdOverflows (env : ReadEnv F) : Prop :=
  ∃ n : ℤ, env.diagCfg.get? "snr_low" = some (.int n) ∧
    floatBound ≤ n.natAbs

/-- The mean of the positive SNRs is out of the range of a float. -/
def MeanOverflows (sats : List GsvSat) : Prop :=
  positiveSnrs sats ≠ [] ∧
    floatBound * (positiveSnrs sats).length ≤ (positiveSnrs sats).sum.natAbs

def StartsSeries (s : NmeaState F) (gsv : Gsv) : Prop :=
  gsv.sentNum = 1 ∨ s.gsvPendingTotal ≠ gsv.totalSent

instance (s : NmeaState F) (gsv : Gsv) : Decidable (StartsSeries s gsv) :=
  inferInstanceAs (Decidable (_ ∨ _))

def seriesSats (s : NmeaState F) (gsv : Gsv) : List GsvSat :=
  if StartsSeries s gsv then gsv.sats
  else s.gsvPendingSats.getD [] ++ gsv.sats

theorem meanSnr_ok_iff (sats : List GsvSat) :
    (∃ mean : F, meanSnr sats = .ok mean) ↔ ¬ MeanOverflows sats := by
  unfold meanSnr MeanOverflows
  dsimp only
  by_cases hnil : positiveSnrs sats = []
  · simp [hnil]
  · have hlength : ((positiveSnrs sats).length : ℤ) ≠ 0 := by
      simpa using hnil
    rw [if_neg hnil, trueDiv, if_neg hlength, Int.natAbs_natCast]
    by_cases hbound : floatBound * (positiveSnrs sats).length ≤
        (positiveSnrs sats).sum.natAbs
    · simp [hnil, hbound]
    · simp only [hbound, and_false, not_false_eq_true,
        iff_true]
      exact ⟨_, rfl⟩

theorem threshold_ok_iff {env : ReadEnv F}
    (hnumeric : NumericThresholds env.diagCfg) :
    (∃ x : F, (env.threshold "snr_low" (.float (PyFloat.ofInt 25))).pyFloat =
        .ok x) ↔ ¬ ThresholdOverflows env := by
  unfold ReadEnv.threshold ThresholdOverflows
  cases hget : env.diagCfg.get? "snr_low" with
  | none =>
      simp only [Option.getD_none, Json.orElse, ite_self, reduceCtorEq,
        false_and, exists_false, not_false_eq_true, iff_true]
      exact ⟨_, rfl⟩
  | some value =>
      rcases hnumeric "snr_low" List.mem_cons_self value hget with
        ⟨n, rfl⟩ | ⟨x, rfl⟩
      · simp only [Option.getD_some, Option.some.injEq, Json.int.injEq,
          exists_eq_left']
        by_cases hzero : n = 0
        · subst hzero
          have hpos : floatBound ≠ 0 := floatBound_pos.ne'
          simp [Json.orElse, Json.truthy, Json.pyFloat, hpos]
        · by_cases hbound : floatBound ≤ n.natAbs
          · simp [Json.orElse, Json.truthy, Json.pyFloat, floatOfInt, hzero,
              hbound]
          · simp [Json.orElse, Json.truthy, Json.pyFloat, floatOfInt, hzero,
              hbound]
      · simp only [Option.getD_some, Option.some.injEq, reduceCtorEq,
          false_and, exists_false, not_false_eq_true, iff_true, Json.orElse]
        split_ifs <;> exact ⟨_, rfl⟩

omit [PyFloat F] in
theorem mergeGsv_ok {s : NmeaState F} {gsv : Gsv}
    (hseries : StartsSeries s gsv ∨ s.gsvPendingSats ≠ none) :
    ∃ s', mergeGsv s gsv = .ok (s', seriesSats s gsv) := by
  unfold mergeGsv seriesSats
  dsimp only
  by_cases hstarts : StartsSeries s gsv
  · have hnew : gsv.sentNum = 1 ∨ s.gsvPendingTotal ≠ gsv.totalSent := hstarts
    rw [if_pos hnew, if_pos hstarts]
    exact ⟨_, rfl⟩
  · have hcontinues : ¬ (gsv.sentNum = 1 ∨
        s.gsvPendingTotal ≠ gsv.totalSent) := hstarts
    rw [if_neg hcontinues, if_neg hstarts]
    cases hsats : s.gsvPendingSats with
    | none => exact (hseries.resolve_left hstarts hsats).elim
    | some sats => exact ⟨_, rfl⟩

theorem completeGsv_ok_iff {env : ReadEnv F}
    (hnumeric : NumericThresholds env.diagCfg) (s : NmeaState F) (gsv : Gsv)
    (sats : List GsvSat) (now : ℕ → F) :
    (∃ result, completeGsv env s gsv sats now = .ok result) ↔
      ¬ MeanOverflows sats ∧ ¬ ThresholdOverflows env := by
  rw [← meanSnr_ok_iff (F := F), ← threshold_ok_iff hnumeric]
  unfold completeGsv
  constructor
  · rintro ⟨result, hresult⟩
    cases hmean : (meanSnr sats : Except PyErr F) with
    | error e =>
        rw [hmean] at hresult
        cases hresult
    | ok mean =>
        rw [hmean] at hresult
        cases hlow : (env.threshold "snr_low"
            (.float (PyFloat.ofInt 25))).pyFloat with
        | error e =>
            simp only [bind, Except.bind, hlow] at hresult
            cases hresult
        | ok snrLow => exact ⟨⟨mean, rfl⟩, ⟨snrLow, rfl⟩⟩
  · rintro ⟨⟨mean, hmean⟩, snrLow, hlow⟩
    simp only [bind, Except.bind, hmean, hlow]
    exact ⟨_, rfl⟩

variable [PyMath F]

/-- One pass that the loop goes on after. -/
def readStep (env : ReadEnv F) (s : NmeaState F) (input : ReadInput F) :
    Option (NmeaState F) :=
  if input.lineB = [] ∨ 1024 < input.lineB.length then none
  else
    match processLine env s input.lineB input.now with
    | .error _ => none
    | .ok result => if result.blocked then none else some result.state

end Safety

/-! ## Two sessions -/

@[reducible] def noMath : PyMath ℚ where
  radians x := x
  sin? _ := none
  cos? _ := none
  sqrt? _ := none
  atan2 _ x := x

def defaultEnv : ReadEnv ℚ where
  sessionId := 1
  username := "rover"
  mountpoint := "MP"
  users := []
  geofencePolygons := .obj []
  diagCfg := [("snr_low", .int 30)]

def lineAtZero (line : String) : ReadInput ℚ :=
  ⟨utf8Encode line, fun _ => 0⟩

theorem numericThresholds_default : NumericThresholds defaultEnv.diagCfg := by
  intro key hkey value hget
  fin_cases hkey <;> cases hget
  exact .inl ⟨30, rfl⟩

end BabilCors
