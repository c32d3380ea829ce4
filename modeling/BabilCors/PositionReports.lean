import BabilCors.BlockedRovers
import BabilCors.LineSentences

/-!
# Position reports

A GGA sentence reports a position.  What the read loop asks for because of it,
the missing fix, the jump and the fence, and what it tells the device shadow,
depends on the positions reported before it and on nothing else that the rover
sends.
-/

namespace BabilCors

open Py TransitionRuns

variable {F : Type} [PyFloat F]

/-! ## The effects of a session -/

namespace FencedSession

variable [PyMath F]

def step (env : ReadEnv F) (s : FencedSession F) (input : ReadInput F) :
    Option (FencedSession F) :=
  some (s.report env input)

/-- What a pass asks for.  One that raises has asked for nothing. -/
def effects (env : ReadEnv F) (s : FencedSession F) (input : ReadInput F) :
    List (Effect F) :=
  if s.takes input then
    match processLine env s.state input.lineB input.now with
    | .ok result => result.effects
    | .error _ => []
  else []

end FencedSession

/-! ## The last position -/

/-- A reported position, with the clock while it is processed. -/
structure PositionReport (F : Type) where
  gga : Gga F
  now : ℕ → F

/-- What the spoofing heuristic remembers. -/
structure Track (F : Type) where
  lastPosition : Option (F × F)
  lastPosTs : F

def NmeaState.track (s : NmeaState F) : Track F where
  lastPosition := s.lastPosition
  lastPosTs := s.lastPosTs

namespace Track

variable [PyMath F]

/-- The jump to the report, if it is one that looks like spoofing; `none` is
an exception. -/
def jump? (env : ReadEnv F) (t : Track F) (report : PositionReport F) :
    Option (Option (Effect F)) :=
  spoofingEvent? env
    { NmeaState.new with
      lastPosition := t.lastPosition
      lastPosTs := t.lastPosTs }
    report.gga (report.now 1)

def moved (env : ReadEnv F) (t : Track F) (report : PositionReport F) :
    Track F :=
  if (t.jump? env report).isSome then
    ⟨some (report.gga.lat, report.gga.lon), report.now 3⟩
  else t

def step (env : ReadEnv F) (t : Track F) (report : PositionReport F) :
    Option (Track F) :=
  some (t.moved env report)

def effects (env : ReadEnv F) (t : Track F) (report : PositionReport F) :
    List (Effect F) :=
  noFixEvent report.gga ++ (t.jump? env report).join.toList ++
    [positionShadow env report.gga] ++
    ((violatedMode? env report.gga).map (violationEvent report.gga)).toList

theorem run_moved (env : ReadEnv F) (t : Track F)
    (reports : List (PositionReport F)) :
    run (step env) t reports = some (reports.foldl (moved env) t) := by
  induction reports generalizing t with
  | nil => rfl
  | cons report reports ih => exact ih (t.moved env report)

theorem spoofingEvent?_track (env : ReadEnv F) (s : NmeaState F)
    (report : PositionReport F) :
    spoofingEvent? env s report.gga (report.now 1) =
      s.track.jump? env report := rfl

end Track

/-! ## Effects about the position -/

def positionCodes : List String :=
  ["NO_FIX", "SPOOFING_SUSPECT", "GEOFENCE_VIOLATION"]

/-- An event about the position, or an update of the shadow with one. -/
def Effect.ofPosition : Effect F → Bool
  | .event call => positionCodes.contains call.code
  | .shadow _ payload => payload.has "lat"

/-- The position that a line reports. -/
def PositionReport.ofInput? (input : ReadInput F) :
    Option (PositionReport F) :=
  (sentenceOf input.lineB).gga?.map fun gga => ⟨gga, input.now⟩

/-- The reports that a session takes. -/
def FencedSession.reports (s : FencedSession F) (input : ReadInput F) :
    List (PositionReport F) :=
  if s.takes input then (PositionReport.ofInput? input).toList else []

theorem Effect.ofPosition_of_isOf {call : EventCall F} {kind : String × ℤ}
    (hcall : call.IsOf kind) :
    (Effect.event call).ofPosition = positionCodes.contains kind.1 := by
  rw [Effect.ofPosition, hcall.1]

section Line

variable [PyMath F] {env : ReadEnv F} {s : NmeaState F}

theorem filter_trackEffects (t : Track F) (report : PositionReport F) :
    (t.effects env report).filter Effect.ofPosition =
      t.effects env report := by
  rw [List.filter_eq_self]
  intro effect heffect
  rcases List.mem_append.mp heffect with hbefore | hviolation
  · rcases List.mem_append.mp hbefore with hevents | hshadow
    · rcases List.mem_append.mp hevents with hnoFix | hjump
      · unfold noFixEvent at hnoFix
        split_ifs at hnoFix
        · obtain rfl := List.mem_singleton.mp hnoFix
          rfl
        · cases hnoFix
      · have hsome := Option.join_eq_some_iff.mp (Option.mem_toList.mp hjump)
        obtain ⟨call, rfl, hkind⟩ := spoofingEvent?_known hsome
        rw [Effect.ofPosition_of_isOf hkind]
        decide
    · obtain rfl := List.mem_singleton.mp hshadow
      rfl
  · obtain ⟨mode, -, rfl⟩ :=
      Option.map_eq_some_iff.mp (Option.mem_toList.mp hviolation)
    rfl

variable (env s) in
theorem processGga_track (report : PositionReport F) :
    (processGga env s report.gga report.now).effects =
        s.track.effects env report ∧
      (processGga env s report.gga report.now).state.track =
        s.track.moved env report := by
  constructor
  · exact processGga_effects env s report.gga report.now
  · obtain ⟨hposition, hposTs⟩ :=
      processGga_position env s report.gga report.now
    unfold NmeaState.track Track.moved
    rw [hposition, hposTs, Track.spoofingEvent?_track]
    unfold NmeaState.track
    split_ifs
    · rfl
    · rfl

omit [PyMath F] in
theorem completeGsv_other {gsv : Gsv} {sats : List GsvSat} {now : ℕ → F}
    {result : LineResult F}
    (hresult : completeGsv env s gsv sats now = .ok result) :
    result.effects.filter Effect.ofPosition = [] ∧
      result.state.track = s.track := by
  constructor
  · rw [List.filter_eq_nil_iff]
    intro effect heffect
    rcases completeGsv_effect hresult heffect with
      ⟨call, rfl, hkind⟩ | ⟨mean, rfl⟩
    · rcases hkind with hlow | hjam
      · rw [Effect.ofPosition_of_isOf hlow]
        decide
      · rw [Effect.ofPosition_of_isOf hjam]
        decide
    · have hlat : (signalShadow env gsv mean).ofPosition = false := rfl
      rw [hlat]
      decide
  · obtain ⟨mean, -, hresult⟩ := bind_eq_ok.mp hresult
    obtain ⟨snrLow, -, hresult⟩ := bind_eq_ok.mp hresult
    obtain rfl := Except.ok.inj hresult
    dsimp only
    split_ifs
    · rfl
    · rfl

omit [PyMath F] [PyFloat F] in
theorem mergeGsv_track {gsv : Gsv} {merged : NmeaState F × List GsvSat}
    (hmerged : mergeGsv s gsv = .ok merged) :
    merged.1.track = s.track := by
  unfold mergeGsv at hmerged
  dsimp only at hmerged
  split at hmerged
  · cases hmerged
  · obtain rfl := Except.ok.inj hmerged
    dsimp only
    split_ifs
    · rfl
    · rfl

/-- The other sentences leave the last position alone and are not about it. -/
theorem process_other {sentence : Sentence F} (hother : sentence.gga? = none)
    {now : ℕ → F} {result : LineResult F}
    (hresult : sentence.process env s now = .ok result) :
    result.effects.filter Effect.ofPosition = [] ∧
      result.state.track = s.track := by
  cases sentence with
  | other | rmc _ | vtg _ | zda _ | gsa _ =>
      obtain rfl := Except.ok.inj hresult
      exact ⟨rfl, rfl⟩
  | gga gga => cases hother
  | gsv gsv =>
      obtain ⟨⟨s', sats⟩, hmerged, hresult⟩ := bind_eq_ok.mp hresult
      have htrack : s'.track = s.track := mergeGsv_track hmerged
      dsimp only at hresult
      split_ifs at hresult
      · obtain ⟨hnone, hkept⟩ := completeGsv_other hresult
        exact ⟨hnone, hkept.trans htrack⟩
      · obtain rfl := Except.ok.inj hresult
        exact ⟨rfl, htrack⟩

variable (env) in
/-- One pass of the loop, by the report that it takes. -/
theorem FencedSession.report_track (s : FencedSession F)
    (input : ReadInput F) :
    (s.effects env input).filter Effect.ofPosition =
        outputs (Track.step env) (Track.effects env) s.state.track
          (s.reports input) ∧
      (s.report env input).state.track =
        (s.reports input).foldl (Track.moved env) s.state.track := by
  unfold effects reports report takes
  cases hreading : s.reading with
  | false => exact ⟨rfl, rfl⟩
  | true =>
      by_cases hends : input.lineB = [] ∨ 1024 < input.lineB.length
      · simp [hends, outputs]
      · simp only [hends, decide_false, Bool.not_false, Bool.and_self,
          if_true, Bool.not_true, Bool.false_eq_true, if_false]
        rw [processLine_eq]
        cases hgga : (sentenceOf input.lineB : Sentence F).gga? with
        | some gga =>
            have hsentence : (sentenceOf input.lineB : Sentence F) =
                .gga gga := by
              cases hs : (sentenceOf input.lineB : Sentence F) <;>
                simp_all [Sentence.gga?]
            obtain ⟨heffects, htrack⟩ :=
              processGga_track env s.state ⟨gga, input.now⟩
            rw [PositionReport.ofInput?, hgga, hsentence]
            simp only [Sentence.process, Option.map_some, Option.toList_some,
              List.foldl_cons, List.foldl_nil]
            refine ⟨?_, htrack⟩
            rw [heffects, filter_trackEffects]
            simp [outputs, Track.step]
        | none =>
            rw [PositionReport.ofInput?, hgga]
            cases hresult : (sentenceOf input.lineB).process env s.state
                input.now with
            | error e => exact ⟨rfl, rfl⟩
            | ok result => exact process_other hgga hresult

end Line

/-- In every session, whatever else the rover sends, the events about its
position and the positions given to the shadow are those that its position
reports alone give rise to. -/
theorem FencedSession.positions_alone [PyMath F] (env : ReadEnv F)
    (s : FencedSession F) (inputs : List (ReadInput F)) :
    (outputs (step env) (effects env) s inputs).filter Effect.ofPosition =
        outputs (Track.step env) (Track.effects env) s.state.track
          (outputs (step env) reports s inputs) ∧
      (inputs.foldl (report env) s).state.track =
        (outputs (step env) reports s inputs).foldl (Track.moved env)
          s.state.track := by
  induction inputs generalizing s with
  | nil => exact ⟨rfl, rfl⟩
  | cons input inputs ih =>
      have hstep : step env s input = some (s.report env input) := rfl
      obtain ⟨heffects, htrack⟩ := s.report_track env input
      obtain ⟨hlater, hend⟩ := ih (s.report env input)
      rw [outputs_cons hstep, outputs_cons hstep, List.filter_append,
        heffects, hlater, List.foldl_append, List.foldl_cons, hend, htrack]
      refine ⟨?_, rfl⟩
      exact (outputs_append (Track.run_moved env _ _) _).symm

end BabilCors
