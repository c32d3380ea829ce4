import BabilCors.RoverReadLoop

/-!
# The sentence of a line

`_rover_read_loop` decides from the line alone which sentence it carries, and
what it does with the sentence depends on nothing else of the line.  The events
that it asks for are of five kinds, each with a throttle of its own.
-/

namespace BabilCors

open Py

/-- What a line carries, by the branch of the loop that takes it; `other` is a
line that the loop passes over. -/
inductive Sentence (F : Type) where
  | other
  | rmc (rmc : Rmc F)
  | vtg (vtg : Vtg F)
  | zda (zda : Zda)
  | gga (gga : Gga F)
  | gsa (gsa : Gsa F)
  | gsv (gsv : Gsv)

variable {F : Type} [PyFloat F]

/-- The first talker-independent name that occurs in the line decides, also
when the sentence is then refused. -/
def sentenceOf (lineB : List UInt8) : Sentence F :=
  let line := strip (safeDecode lineB)
  if !startsWith line "$" then .other
  else if contains line "RMC" then ((parseRmc line).map .rmc).getD .other
  else if contains line "VTG" then ((parseVtg line).map .vtg).getD .other
  else if contains line "ZDA" then ((parseZda line).map .zda).getD .other
  else if contains line "GGA" then ((parseGga line).map .gga).getD .other
  else if contains line "GSA" then ((parseGsa line).map .gsa).getD .other
  else if contains line "GSV" then ((parseGsv line).map .gsv).getD .other
  else .other

namespace Sentence

def process [PyMath F] (env : ReadEnv F) (s : NmeaState F) (now : ℕ → F) :
    Sentence F → Except PyErr (LineResult F)
  | .other => quietLine s
  | .rmc x => quietLine { s with lastNmeaTs := now 0, lastRmc := some x }
  | .vtg x => quietLine { s with lastNmeaTs := now 0, lastVtg := some x }
  | .zda x => quietLine { s with lastNmeaTs := now 0, lastZda := some x }
  | .gga x => .ok (processGga env s x now)
  | .gsa x => .ok (processGsa env s x now)
  | .gsv x => processGsv env s x now

def gga? : Sentence F → Option (Gga F)
  | .gga x => some x
  | _ => none

end Sentence

theorem processLine_eq [PyMath F] (env : ReadEnv F) (s : NmeaState F)
    (lineB : List UInt8) (now : ℕ → F) :
    processLine env s lineB now = (sentenceOf lineB).process env s now := by
  unfold processLine sentenceOf
  dsimp only
  generalize strip (safeDecode lineB) = line
  cases startsWith line "$"
  · rfl
  cases contains line "RMC"
  swap
  · cases parseRmc (F := F) line <;> rfl
  cases contains line "VTG"
  swap
  · cases parseVtg (F := F) line <;> rfl
  cases contains line "ZDA"
  swap
  · cases parseZda line <;> rfl
  cases contains line "GGA"
  swap
  · cases parseGga (F := F) line <;> rfl
  cases contains line "GSA"
  swap
  · cases parseGsa (F := F) line <;> rfl
  cases contains line "GSV"
  · rfl
  · cases parseGsv line <;> rfl

theorem processLine_of_gga? [PyMath F] {lineB : List UInt8} {gga : Gga F}
    (hgga : (sentenceOf lineB).gga? = some gga) (env : ReadEnv F)
    (s : NmeaState F) (now : ℕ → F) :
    processLine env s lineB now = .ok (processGga env s gga now) := by
  rw [processLine_eq]
  cases hsentence : sentenceOf (F := F) lineB with
  | gga gga' =>
      rw [hsentence] at hgga
      obtain rfl := Option.some.inj hgga
      rfl
  | other | rmc _ | vtg _ | zda _ | gsa _ | gsv _ =>
      rw [hsentence] at hgga
      cases hgga

/-! ## Kinds of events -/

/-- The codes of the loop's events with their throttles in seconds. -/
def eventKinds : List (String × ℤ) :=
  [("NO_FIX", 10), ("SPOOFING_SUSPECT", 30), ("GEOFENCE_VIOLATION", 10),
    ("SNR_LOW", 10), ("JAMMING_SUSPECT", 30)]

def EventCall.IsOf (call : EventCall F) (kind : String × ℤ) : Prop :=
  call.code = kind.1 ∧ call.throttle = PyFloat.ofInt kind.2

def EventCall.Known (call : EventCall F) : Prop :=
  ∃ kind ∈ eventKinds, call.IsOf kind

theorem noFixEvent_known {gga : Gga F} {call : EventCall F}
    (hcall : .event call ∈ noFixEvent gga) :
    call.IsOf ("NO_FIX", 10) := by
  unfold noFixEvent at hcall
  split_ifs at hcall
  · obtain rfl := Effect.event.inj (List.mem_singleton.mp hcall)
    exact ⟨rfl, rfl⟩
  · cases hcall

theorem spoofingEvent?_known [PyMath F] {env : ReadEnv F} {s : NmeaState F}
    {gga : Gga F} {now : F} {effect : Effect F}
    (heffect : spoofingEvent? env s gga now = some (some effect)) :
    ∃ call, effect = .event call ∧ call.IsOf ("SPOOFING_SUSPECT", 30) := by
  unfold spoofingEvent? at heffect
  split at heffect
  · cases heffect
  · split_ifs at heffect
    · cases heffect
    · obtain ⟨dist, -, heffect⟩ := Option.bind_eq_some_iff.mp heffect
      obtain ⟨distThr, -, heffect⟩ := Option.bind_eq_some_iff.mp heffect
      obtain ⟨spdThr, -, heffect⟩ := Option.bind_eq_some_iff.mp heffect
      split_ifs at heffect
      · obtain rfl := Option.some.inj (Option.some.inj heffect)
        exact ⟨_, rfl, rfl, rfl⟩
      · cases Option.some.inj heffect

/-! ## What a GGA sentence does -/

/-- The update of the shadow with a position. -/
def positionShadow (env : ReadEnv F) (gga : Gga F) : Effect F :=
  env.shadow [("lat", .float gga.lat), ("lon", .float gga.lon),
    ("fixq", .int gga.fixQ), ("nsat", .int gga.nsat),
    ("hdop", .float gga.hdop)]

/-- The mode of the fence that the position violates; an exception of the
check counts as none. -/
def violatedMode? (env : ReadEnv F) (gga : Gga F) : Option String :=
  (geofenceViolation env gga).toOption.join

section Gga

variable [PyMath F] (env : ReadEnv F) (s : NmeaState F) (gga : Gga F)
  (now : ℕ → F)

theorem processGga_effects :
    (processGga env s gga now).effects =
      noFixEvent gga ++ (spoofingEvent? env s gga (now 1)).join.toList ++
        [positionShadow env gga] ++
        ((violatedMode? env gga).map (violationEvent gga)).toList := by
  have hspoof : spoofingEvent? env
      { s with lastNmeaTs := now 0, lastGga := some gga } gga (now 1) =
        spoofingEvent? env s gga (now 1) := rfl
  unfold processGga violatedMode? positionShadow
  dsimp only
  rw [hspoof]
  cases geofenceViolation env gga with
  | error e => cases spoofingEvent? env s gga (now 1) <;> simp [Except.toOption]
  | ok mode? =>
      cases mode? <;> cases spoofingEvent? env s gga (now 1) <;>
        simp [Except.toOption]

/-- The position that the heuristic compares with moves on unless the
heuristic raises. -/
theorem processGga_position :
    (processGga env s gga now).state.lastPosition =
        (if (spoofingEvent? env s gga (now 1)).isSome then
          some (gga.lat, gga.lon) else s.lastPosition) ∧
      (processGga env s gga now).state.lastPosTs =
        if (spoofingEvent? env s gga (now 1)).isSome then now 3
        else s.lastPosTs := by
  have hspoof : spoofingEvent? env
      { s with lastNmeaTs := now 0, lastGga := some gga } gga (now 1) =
        spoofingEvent? env s gga (now 1) := rfl
  unfold processGga
  dsimp only
  rw [hspoof]
  cases geofenceViolation env gga with
  | error e => cases spoofingEvent? env s gga (now 1) <;> simp
  | ok mode? =>
      cases mode? <;> cases spoofingEvent? env s gga (now 1) <;> simp

variable {env s gga now}

theorem processGga_known {call : EventCall F}
    (hcall : .event call ∈ (processGga env s gga now).effects) :
    call.Known := by
  rw [processGga_effects] at hcall
  rcases List.mem_append.mp hcall with hbefore | hviolation
  · rcases List.mem_append.mp hbefore with hevents | hshadow
    · rcases List.mem_append.mp hevents with hnoFix | hspoof
      · exact ⟨_, by decide, noFixEvent_known hnoFix⟩
      · have hjoin := Option.join_eq_some_iff.mp (Option.mem_toList.mp hspoof)
        obtain ⟨call, heq, hkind⟩ := spoofingEvent?_known hjoin
        obtain rfl := Effect.event.inj heq
        exact ⟨_, by decide, hkind⟩
    · cases List.mem_singleton.mp hshadow
  · obtain ⟨mode, -, hevent⟩ :=
      Option.map_eq_some_iff.mp (Option.mem_toList.mp hviolation)
    obtain rfl := Effect.event.inj hevent
    exact ⟨("GEOFENCE_VIOLATION", 10), by decide, rfl, rfl⟩

end Gga

/-! ## The events of a line -/

theorem jammingEvent_known {env : ReadEnv F} {s : NmeaState F} {mean : F}
    {effect : Effect F}
    (heffect : jammingEvent env s mean = .ok (some effect)) :
    ∃ call, effect = .event call ∧ call.IsOf ("JAMMING_SUSPECT", 30) := by
  unfold jammingEvent at heffect
  split at heffect
  · cases heffect
  · obtain ⟨jamSnr, -, heffect⟩ := bind_eq_ok.mp heffect
    obtain ⟨jamNsat, -, heffect⟩ := bind_eq_ok.mp heffect
    obtain ⟨jamHdop, -, heffect⟩ := bind_eq_ok.mp heffect
    split at heffect
    · obtain rfl := Option.some.inj (Except.ok.inj heffect)
      exact ⟨_, rfl, rfl, rfl⟩
    · cases heffect

/-- The update of the shadow at the end of a series. -/
def signalShadow (env : ReadEnv F) (gsv : Gsv) (mean : F) : Effect F :=
  env.shadow [("total_sv", .int gsv.totalSv),
    ("snr_mean", .float (PyFloat.round1 mean))]

theorem completeGsv_effect {env : ReadEnv F} {s : NmeaState F} {gsv : Gsv}
    {sats : List GsvSat} {now : ℕ → F} {result : LineResult F}
    (hresult : completeGsv env s gsv sats now = .ok result)
    {effect : Effect F} (heffect : effect ∈ result.effects) :
    (∃ call, effect = .event call ∧
        (call.IsOf ("SNR_LOW", 10) ∨ call.IsOf ("JAMMING_SUSPECT", 30))) ∨
      ∃ mean, effect = signalShadow env gsv mean := by
  obtain ⟨mean, -, hresult⟩ := bind_eq_ok.mp hresult
  obtain ⟨snrLow, -, hresult⟩ := bind_eq_ok.mp hresult
  obtain rfl := Except.ok.inj hresult
  rcases List.mem_append.mp heffect with hevents | hshadow
  · left
    rcases List.mem_append.mp hevents with hlow | hjam
    · split_ifs at hlow
      · obtain rfl := List.mem_singleton.mp hlow
        exact ⟨_, rfl, .inl ⟨rfl, rfl⟩⟩
      · cases hlow
    · have hjoin := Option.join_eq_some_iff.mp (Option.mem_toList.mp hjam)
      obtain ⟨call, hcall, hkind⟩ :=
        jammingEvent_known (toOption_eq_some.mp hjoin)
      exact ⟨call, hcall, .inr hkind⟩
  · exact .inr ⟨mean, List.mem_singleton.mp hshadow⟩

theorem completeGsv_known {env : ReadEnv F} {s : NmeaState F} {gsv : Gsv}
    {sats : List GsvSat} {now : ℕ → F} {result : LineResult F}
    (hresult : completeGsv env s gsv sats now = .ok result)
    {call : EventCall F} (hcall : .event call ∈ result.effects) :
    call.Known := by
  rcases completeGsv_effect hresult hcall with
    ⟨_, heq, hkind⟩ | ⟨mean, hshadow⟩
  · obtain rfl := Effect.event.inj heq
    rcases hkind with hlow | hjam
    · exact ⟨_, by decide, hlow⟩
    · exact ⟨_, by decide, hjam⟩
  · cases hshadow

/-- Every event that the loop asks for is of one of the five kinds. -/
theorem processLine_known [PyMath F] {env : ReadEnv F} {s : NmeaState F}
    {lineB : List UInt8} {now : ℕ → F} {result : LineResult F}
    (hresult : processLine env s lineB now = .ok result)
    {call : EventCall F} (hcall : .event call ∈ result.effects) :
    call.Known := by
  rw [processLine_eq] at hresult
  cases hsentence : (sentenceOf lineB : Sentence F) with
  | other | rmc _ | vtg _ | zda _ =>
      rw [hsentence] at hresult
      obtain rfl := Except.ok.inj hresult
      cases hcall
  | gga gga =>
      rw [hsentence] at hresult
      obtain rfl := Except.ok.inj hresult
      exact processGga_known hcall
  | gsa gsa =>
      rw [hsentence] at hresult
      obtain rfl := Except.ok.inj hresult
      cases List.mem_singleton.mp hcall
  | gsv gsv =>
      rw [hsentence] at hresult
      obtain ⟨⟨s', sats⟩, -, hresult⟩ := bind_eq_ok.mp hresult
      dsimp only at hresult
      split_ifs at hresult
      · exact completeGsv_known hresult hcall
      · obtain rfl := Except.ok.inj hresult
        cases hcall

end BabilCors
