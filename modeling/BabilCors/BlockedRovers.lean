import BabilCors.Caster
import BabilCors.LineSentences
import BabilCors.ReadLoopSafety
import BabilCors.TransitionRuns

/-!
# Fences that end a session

A rover reports positions in the `Ntrip-GGA` header of its request and in the
GGA lines of its session.  Every line is checked against the fence that applies
to the session, and one outside a blocking fence ends the session.  The
position of the header is stored and not checked; that of a line is stored, the
shadow store is called, and the check comes when the call has returned.
-/

namespace BabilCors

open Py TransitionRuns

section Sessions

variable {F : Type} [PyFloat F]

/-! ## The session -/

/-- The position of the request header, `none` without one; no session comes
of a header that does not parse. -/
def headerGga (req : Caster.RoverRequest) : Option (Option (Gga F)) :=
  let header := (req.headers.get? "ntrip-gga").getD ""
  if header = "" then some none
  else (parseGga (strip header)).map some

def Effect.isShadow : Effect F → Bool
  | .event _ => false
  | .shadow _ _ => true

structure FencedSession (F : Type) where
  state : NmeaState F
  writerClosed : Bool
  reading : Bool

namespace FencedSession

def accept (gga? : Option (Gga F)) : FencedSession F where
  state := { NmeaState.new with lastGga := gga? }
  writerClosed := false
  reading := true

/-- The loop goes on with the line. -/
def takes (s : FencedSession F) (input : ReadInput F) : Bool :=
  s.reading && !(input.lineB = [] ∨ 1024 < input.lineB.length)

/-- The position that a line reports. -/
def reported? (s : FencedSession F) (input : ReadInput F) :
    Option (Gga F) :=
  if s.takes input then (sentenceOf input.lineB).gga? else none

variable [PyMath F]

/-- One pass of `_rover_read_loop`, from its line to the next one.  An exception
ends the loop with the position that the session had. -/
def report (env : ReadEnv F) (s : FencedSession F) (input : ReadInput F) :
    FencedSession F :=
  if !s.reading then s
  else if input.lineB = [] ∨ 1024 < input.lineB.length then
    { s with reading := false }
  else
    match processLine env s.state input.lineB input.now with
    | .error _ => { s with reading := false }
    | .ok result =>
        { state := result.state
          writerClosed := s.writerClosed || result.blocked
          reading := !result.blocked }

/-- The session while the call of the shadow store for the line has not
returned: what the line says is stored, and the fence is not asked yet. -/
def waiting? (env : ReadEnv F) (s : FencedSession F) (input : ReadInput F) :
    Option (FencedSession F) :=
  if s.takes input then
    match processLine env s.state input.lineB input.now with
    | .error _ => none
    | .ok result =>
        if result.effects.any Effect.isShadow then
          some { s with
            state :=
              { result.state with
                geofenceViolationTs := s.state.geofenceViolationTs } }
        else none
  else none

end FencedSession

/-! ## Fences -/

/-- The position is outside the polygon of the fence that applies, and the
fence is a blocking one. -/
def OutsideBlockingFence (env : ReadEnv F) (gga : Gga F) : Prop :=
  ∃ fence poly mode ring, selectGeofence env = .ok fence ∧
    fence.get "mode" = .ok (some (.str mode)) ∧ lower mode = "block" ∧
    fence.get "polygon" = .ok (some poly) ∧ polygonOfJson poly = .ok ring ∧
    pointInPolygon (gga.lat, gga.lon) ring = .ok false

/-- The polygon of the fence is a list of at least one pair of numbers. -/
def WellFormedFence (fence : Json F) : Prop :=
  ∃ poly ring, fence.get "polygon" = .ok (some poly) ∧
    polygonOfJson poly = .ok ring ∧ ring ≠ []

def WellFormedPolygons (polygons : Json F) : Prop :=
  ∃ fences : PyDict String (Json F), polygons.orElse (.obj []) = .obj fences ∧
    ∀ name fence, fences.get? name = some fence → WellFormedFence fence

/-- A session whose last position is outside a blocking fence is over. -/
def FencedSession.StoppedWhenOutside (env : ReadEnv F)
    (s : FencedSession F) : Prop :=
  ∀ gga, s.state.lastGga = some gga → OutsideBlockingFence env gga →
    s.writerClosed = true ∧ s.reading = false

/-! ## The session from moment to moment -/

/-- A session, and the one behind the call of the shadow store that has not
returned. -/
structure ReportingSession (F : Type) where
  session : FencedSession F
  behind : Option (FencedSession F)

/-- A line comes, with whether the call of the shadow store for it suspends the
loop, or that call returns.  The store in memory never suspends; over Redis a
call waits for its answer. -/
inductive ReportEvent (F : Type) where
  | line (input : ReadInput F) (suspends : Bool)
  | stored

namespace ReportingSession

def start (gga? : Option (Gga F)) : ReportingSession F :=
  ⟨.accept gga?, none⟩

/-- No line is read while a call has not returned. -/
def step [PyMath F] (env : ReadEnv F) (s : ReportingSession F) :
    ReportEvent F → Option (ReportingSession F)
  | .line input suspends =>
      if s.behind.isSome then none
      else
        match if suspends then s.session.waiting? env input else none with
        | none => some ⟨s.session.report env input, none⟩
        | some waiting =>
            some ⟨waiting, some (s.session.report env input)⟩
  | .stored => s.behind.map fun behind => ⟨behind, none⟩

/-- A line whose call suspends the loop reports no position outside a blocking
fence. -/
def Unseen (env : ReadEnv F) (s : ReportingSession F) :
    ReportEvent F → Prop
  | .line input suspends => suspends = true → s.behind = none →
      ∀ gga, s.session.reported? input = some gga →
        ¬ OutsideBlockingFence env gga
  | .stored => True

end ReportingSession

/-! ## The check -/

theorem truthy_of_polygon {poly : Json F} {ring : List (Point F)}
    (hring : polygonOfJson poly = .ok ring) (hne : ring ≠ []) :
    poly.truthy = true := by
  rcases bind_eq_ok.mp hring with ⟨items, hitems, hpoints⟩
  cases items with
  | nil => exact absurd (Except.ok.inj hpoints).symm hne
  | cons item items =>
      cases poly with
      | arr entries =>
          obtain rfl := Except.ok.inj hitems
          rfl
      | str s =>
          have hs : s ≠ "" := by
            rintro rfl
            cases hitems
          simp [Json.truthy, hs]
      | obj fields =>
          cases fields with
          | nil => cases hitems
          | cons field fields => rfl
      | null | bool _ | int _ | float _ => cases hitems

theorem wellFormed_obj {fence : Json F} (hformed : WellFormedFence fence) :
    ∃ fields, fence = .obj fields := by
  rcases hformed with ⟨poly, ring, hpoly, _, _⟩
  cases fence with
  | obj fields => exact ⟨fields, rfl⟩
  | null | bool _ | int _ | float _ | str _ | arr _ => cases hpoly

/-- Where the fences are well formed, so is the one that applies, if one
does. -/
theorem selectGeofence_wellFormed {env : ReadEnv F} {fence : Json F}
    (hformed : WellFormedPolygons env.geofencePolygons)
    (hselect : selectGeofence env = .ok fence) :
    fence = .null ∨ WellFormedFence fence := by
  rcases hformed with ⟨fences, hfences, hall⟩
  have hget (name : String) :
      ((.obj fences : Json F).getD name .null) =
        .ok ((fences.get? name).getD .null) := rfl
  have hentry (name : String) : (fences.get? name).getD .null = .null ∨
      WellFormedFence ((fences.get? name).getD .null) := by
    cases hname : fences.get? name with
    | none => exact .inl rfl
    | some fence => exact .inr (hall name fence hname)
  -- behind the user's own fence: the mountpoint's, else the one for all
  have hshared (hshared : (do
      let __do_lift ← (Json.obj fences).getD env.mountpoint .null
      let __do_lift_1 ← (Json.obj fences).getD "*" .null
      pure (__do_lift.orElse __do_lift_1)) = Except.ok fence) :
      fence = .null ∨ WellFormedFence fence := by
    rw [hget, hget] at hshared
    obtain rfl := Except.ok.inj hshared
    unfold Json.orElse
    split_ifs
    · exact hentry env.mountpoint
    · exact hentry "*"
  unfold selectGeofence at hselect
  rw [hfences] at hselect
  dsimp only at hselect
  cases hid : (env.users.get? env.username).bind (·.geofenceId) with
  | none =>
      rw [hid] at hselect
      exact hshared hselect
  | some id =>
      rw [hid] at hselect
      dsimp only at hselect
      by_cases hempty : id = ""
      · rw [if_pos hempty] at hselect
        exact hshared hselect
      · rw [if_neg hempty, hget] at hselect
        rcases hentry id with hnull | hown
        · rw [hnull] at hselect
          exact hshared hselect
        · rcases wellFormed_obj hown with ⟨fields, hfields⟩
          rw [hfields] at hselect hown
          obtain rfl := Except.ok.inj hselect
          exact .inr hown

/-- `(gf.get("mode") or "alert").lower()`. -/
def fenceMode (value : Json F) : Except PyErr String :=
  match value.orElse (.str "alert") with
  | .str mode => .ok (lower mode)
  | j => .error (.attributeError j.typeName "lower")

theorem fenceMode_block_iff (value? : Option (Json F)) :
    fenceMode (value?.getD .null) = .ok "block" ↔
      ∃ mode, value? = some (.str mode) ∧ lower mode = "block" := by
  have halert : lower "alert" ≠ "block" := by
    decide +kernel
  have hempty : lower "" ≠ "block" := by
    decide +kernel
  unfold fenceMode Json.orElse
  cases value? with
  | none => simp [Json.truthy, halert]
  | some value =>
      cases value with
      | str mode =>
          by_cases hmode : mode = ""
          · simp [Json.truthy, hmode, halert, hempty]
          · simp [Json.truthy, hmode]
      | bool _ | int _ | float _ | arr _ | obj _ =>
          simp only [Option.getD_some]
          split_ifs <;> simp [halert]
      | null => simp [Json.truthy, halert]

theorem geofenceViolation_eq {env : ReadEnv F} {gga : Gga F}
    {fields : PyDict String (Json F)} {poly : Json F} {ring : List (Point F)}
    (hselect : selectGeofence env = .ok (.obj fields))
    (hpoly : (Json.obj fields).get "polygon" = .ok (some poly))
    (hring : polygonOfJson poly = .ok ring) (hne : ring ≠ []) :
    geofenceViolation env gga =
      fenceMode ((PyDict.get? fields "mode").getD .null) >>= fun mode =>
        pointInPolygon (gga.lat, gga.lon) ring >>= fun inside =>
          .ok (if inside then none else some mode) := by
  have htruthy := truthy_of_polygon hring hne
  have hpolyD : (Json.obj fields).getD "polygon" .null = .ok poly := by
    unfold Json.getD
    rw [hpoly]
    rfl
  have hor : poly.orElse (.arr []) = poly := if_pos htruthy
  have hmodeD : (Json.obj fields).getD "mode" .null =
      .ok ((PyDict.get? fields "mode").getD .null) := rfl
  unfold geofenceViolation fenceMode
  rw [hselect]
  simp only [bind, Except.bind, Json.isObj, hpolyD, hmodeD, hor, htruthy,
    hring]
  cases ((PyDict.get? fields "mode").getD .null).orElse (.str "alert") <;>
    rfl

/-- The check finds the positions outside a blocking fence. -/
theorem geofenceViolation_block_iff {env : ReadEnv F}
    (hformed : WellFormedPolygons env.geofencePolygons) (gga : Gga F) :
    geofenceViolation env gga = .ok (some "block") ↔
      OutsideBlockingFence env gga := by
  cases hselect : selectGeofence env with
  | error e =>
      have hfails : geofenceViolation env gga = .error e := by
        unfold geofenceViolation
        rw [hselect]
        rfl
      rw [hfails]
      apply iff_of_false nofun
      rintro ⟨fence, poly, mode, ring, hfence, _⟩
      rw [hselect] at hfence
      cases hfence
  | ok fence =>
      rcases selectGeofence_wellFormed hformed hselect with rfl | hfence
      · have hnone : geofenceViolation env gga = .ok none := by
          unfold geofenceViolation
          rw [hselect]
          rfl
        rw [hnone]
        apply iff_of_false nofun
        rintro ⟨fence, poly, mode, ring, hfence, hmode, _⟩
        rw [hselect] at hfence
        obtain rfl := Except.ok.inj hfence
        cases hmode
      · rcases wellFormed_obj hfence with ⟨fields, rfl⟩
        rcases hfence with ⟨poly, ring, hpoly, hring, hne⟩
        rw [geofenceViolation_eq hselect hpoly hring hne]
        constructor
        · intro hviolation
          rcases bind_eq_ok.mp hviolation with ⟨mode, hmode, hviolation⟩
          rcases bind_eq_ok.mp hviolation with ⟨inside, hinside, hend⟩
          cases inside with
          | true => cases hend
          | false =>
              obtain rfl := Option.some.inj (Except.ok.inj hend)
              rcases (fenceMode_block_iff _).mp hmode with ⟨mode, hget, hlower⟩
              exact ⟨.obj fields, poly, mode, ring, hselect,
                congrArg Except.ok hget, hlower, hpoly, hring, hinside⟩
        · rintro ⟨fence, poly', mode, ring', hfence, hget, hlower, hpoly',
            hring', houtside⟩
          obtain rfl := Except.ok.inj (hselect.symm.trans hfence)
          obtain rfl := Option.some.inj
            (Except.ok.inj (hpoly.symm.trans hpoly'))
          obtain rfl := Except.ok.inj (hring.symm.trans hring')
          have hmode : fenceMode ((PyDict.get? fields "mode").getD .null) =
              .ok "block" :=
            (fenceMode_block_iff _).mpr ⟨mode, Except.ok.inj hget, hlower⟩
          rw [hmode, houtside]
          rfl

/-! ## One line -/

omit [PyFloat F] in
theorem mergeGsv_lastGga {s s' : NmeaState F} {gsv : Gsv}
    {sats : List GsvSat} (hmerge : mergeGsv s gsv = .ok (s', sats)) :
    s'.lastGga = s.lastGga := by
  unfold mergeGsv at hmerge
  dsimp only at hmerge
  split at hmerge
  · cases hmerge
  · obtain ⟨rfl, _⟩ := Prod.mk.inj (Except.ok.inj hmerge)
    dsimp only
    split_ifs <;> rfl

theorem processGsv_lastGga {env : ReadEnv F} {s : NmeaState F} {gsv : Gsv}
    {now : ℕ → F} {result : LineResult F}
    (hline : processGsv env s gsv now = .ok result) :
    result.state.lastGga = s.lastGga ∧ result.blocked = false := by
  unfold processGsv at hline
  rcases bind_eq_ok.mp hline with ⟨⟨s', sats⟩, hmerge, hrest⟩
  have hkept := mergeGsv_lastGga hmerge
  dsimp only at hrest hkept
  split_ifs at hrest
  · unfold completeGsv at hrest
    rcases bind_eq_ok.mp hrest with ⟨mean, _, hrest⟩
    rcases bind_eq_ok.mp hrest with ⟨snrLow, _, hresult⟩
    obtain rfl := Except.ok.inj hresult
    dsimp only
    split_ifs <;> exact ⟨hkept, rfl⟩
  · obtain rfl := Except.ok.inj hrest
    exact ⟨hkept, rfl⟩

variable [PyMath F]

/-- A line is a position, or it leaves the position alone and blocks
nothing. -/
theorem processLine_position {env : ReadEnv F} {s : NmeaState F}
    {lineB : List UInt8} {now : ℕ → F} {result : LineResult F}
    (hline : processLine env s lineB now = .ok result) :
    (∃ gga, result = processGga env s gga now) ∨
      result.state.lastGga = s.lastGga ∧ result.blocked = false := by
  have hquiet {s' : NmeaState F} (hresult : quietLine s' = .ok result)
      (hkept : s'.lastGga = s.lastGga) :
      result.state.lastGga = s.lastGga ∧ result.blocked = false := by
    obtain rfl := Except.ok.inj hresult
    exact ⟨hkept, rfl⟩
  unfold processLine at hline
  dsimp only at hline
  split_ifs at hline
  · exact .inr (hquiet hline rfl)
  · split at hline <;> exact .inr (hquiet hline rfl)
  · split at hline <;> exact .inr (hquiet hline rfl)
  · split at hline <;> exact .inr (hquiet hline rfl)
  · split at hline
    next gga _ => exact .inl ⟨gga, (Except.ok.inj hline).symm⟩
    · exact .inr (hquiet hline rfl)
  · split at hline
    · obtain rfl := Except.ok.inj hline
      exact .inr ⟨rfl, rfl⟩
    · exact .inr (hquiet hline rfl)
  · split at hline
    · exact .inr (processGsv_lastGga hline)
    · exact .inr (hquiet hline rfl)
  · exact .inr (hquiet hline rfl)

theorem processGga_lastGga (env : ReadEnv F) (s : NmeaState F) (gga : Gga F)
    (now : ℕ → F) :
    (processGga env s gga now).state.lastGga = some gga := by
  unfold processGga
  dsimp only
  split <;> split <;> rfl

/-- The last position after a line is the one of the line, if it has one. -/
theorem processLine_lastGga {env : ReadEnv F} {s : NmeaState F}
    {lineB : List UInt8} {now : ℕ → F} {result : LineResult F}
    (hline : processLine env s lineB now = .ok result) :
    result.state.lastGga = (sentenceOf lineB).gga?.or s.lastGga := by
  rw [processLine_eq] at hline
  cases hsentence : sentenceOf (F := F) lineB with
  | gsv gsv =>
      rw [hsentence] at hline
      exact (processGsv_lastGga hline).1
  | gga gga =>
      rw [hsentence] at hline
      obtain rfl := Except.ok.inj hline
      exact processGga_lastGga env s gga now
  | other | rmc _ | vtg _ | zda _ | gsa _ =>
      rw [hsentence] at hline
      obtain rfl := Except.ok.inj hline
      rfl

theorem processGga_blocked (env : ReadEnv F) (s : NmeaState F) (gga : Gga F)
    (now : ℕ → F) :
    (processGga env s gga now).blocked = true ↔
      geofenceViolation env gga = .ok (some "block") := by
  unfold processGga
  dsimp only
  split
  next mode hmode =>
    rw [hmode]
    simp
  next hno =>
    constructor
    · intro hblocked
      cases hblocked
    · intro hblock
      exact (hno "block" hblock).elim

/-! ## The session and the code that serves it -/

omit [PyMath F] in
/-- The position of the header is the one a new session starts with. -/
theorem takeSlot_headerGga {c : Caster F} {user : UserRecord}
    {username mountpoint : String} {req : Caster.RoverRequest} {now : ℚ}
    {t : RoverTask F}
    (ht : t ∈ (c.takeSlot user username mountpoint req now).rovers) :
    t ∈ c.rovers ∨
      headerGga req = some t.session.lastGga ∧
        t.session.writerClosing = false := by
  unfold Caster.takeSlot at ht
  unfold headerGga
  dsimp only at ht ⊢
  by_cases hroom : c.hasRoom (clientIpOf req.addr) = true
  swap
  · rw [if_neg hroom] at ht
    exact .inl ht
  rw [if_pos hroom] at ht
  by_cases hheader : (req.headers.get? "ntrip-gga").getD "" = ""
  · rw [if_pos hheader] at ht ⊢
    rcases List.mem_append.mp ht with hold | hnew
    · exact .inl hold
    · obtain rfl := List.mem_singleton.mp hnew
      exact .inr ⟨rfl, rfl⟩
  · rw [if_neg hheader] at ht ⊢
    cases hgga : parseGga (F := F)
        (strip ((req.headers.get? "ntrip-gga").getD "")) with
    | none =>
        rw [hgga] at ht
        exact .inl ht
    | some gga =>
        rw [hgga] at ht
        rcases List.mem_append.mp ht with hold | hnew
        · exact .inl hold
        · obtain rfl := List.mem_singleton.mp hnew
          exact .inr ⟨rfl, rfl⟩

namespace FencedSession

theorem foldl_report_ended {env : ReadEnv F} {s : FencedSession F}
    (hended : s.reading = false) (inputs : List (ReadInput F)) :
    inputs.foldl (report env) s = s := by
  induction inputs with
  | nil => rfl
  | cons input inputs ih =>
      have hstays : s.report env input = s := by
        simp [report, hended]
      rw [List.foldl_cons, hstays, ih]

/-- The writer is closed exactly when the loop ends at a blocking fence. -/
theorem foldl_report_closed_iff (env : ReadEnv F) (state : NmeaState F)
    (inputs : List (ReadInput F)) :
    (inputs.foldl (report env) ⟨state, false, true⟩).writerClosed = true ↔
      ∃ state', readLoop env state inputs = .blocked state' := by
  induction inputs generalizing state with
  | nil => simp [readLoop]
  | cons input inputs ih =>
      have hended {s : FencedSession F} (hreading : s.reading = false) :
          inputs.foldl (report env) s = s :=
        foldl_report_ended hreading inputs
      unfold readLoop
      rw [List.foldl_cons]
      by_cases hempty : input.lineB = []
      · have hreport : report env ⟨state, false, true⟩ input =
            ⟨state, false, false⟩ := by
          simp [report, hempty]
        rw [hreport, hended rfl]
        simp [hempty]
      by_cases hlong : 1024 < input.lineB.length
      · have hreport : report env ⟨state, false, true⟩ input =
            ⟨state, false, false⟩ := by
          simp [report, hlong]
        rw [hreport, hended rfl]
        simp [hempty, hlong]
      rw [if_neg hempty, if_neg hlong]
      cases hline : processLine env state input.lineB input.now with
      | error e =>
          have hreport : report env ⟨state, false, true⟩ input =
              ⟨state, false, false⟩ := by
            simp [report, hempty, hlong, hline]
          rw [hreport, hended rfl]
          simp
      | ok result =>
          have hreport : report env ⟨state, false, true⟩ input =
              ⟨result.state, result.blocked, !result.blocked⟩ := by
            simp [report, hempty, hlong, hline]
          rw [hreport]
          cases hblocked : result.blocked with
          | true =>
              rw [Bool.not_true, hended rfl]
              simp [hblocked]
          | false =>
              rw [Bool.not_false]
              simpa [hblocked] using ih result.state

end FencedSession

/-! ## Every line of a session -/

namespace FencedSession

omit [PyMath F] in
theorem stopped_accept_iff {env : ReadEnv F} {gga? : Option (Gga F)} :
    (accept gga?).StoppedWhenOutside env ↔
      ∀ gga, gga? = some gga → ¬ OutsideBlockingFence env gga := by
  constructor
  · intro hstopped gga hgga houtside
    exact absurd (hstopped gga hgga houtside).2 (by simp [accept])
  · intro hinside gga hgga houtside
    exact (hinside gga hgga houtside).elim

theorem report_stopped {env : ReadEnv F}
    (hformed : WellFormedPolygons env.geofencePolygons)
    {s : FencedSession F} (hs : s.StoppedWhenOutside env)
    (input : ReadInput F) : (s.report env input).StoppedWhenOutside env := by
  unfold report
  by_cases hreading : s.reading = true
  swap
  · rw [if_pos (by simpa using hreading)]
    exact hs
  have hinside : ∀ gga, s.state.lastGga = some gga →
      ¬ OutsideBlockingFence env gga := by
    intro gga hgga houtside
    have hstopped := (hs gga hgga houtside).2
    rw [hreading] at hstopped
    cases hstopped
  rw [if_neg (by simp [hreading])]
  by_cases hend : input.lineB = [] ∨ 1024 < input.lineB.length
  · rw [if_pos hend]
    intro gga hgga houtside
    exact (hinside gga hgga houtside).elim
  rw [if_neg hend]
  cases hline : processLine env s.state input.lineB input.now with
  | error e =>
      intro gga hgga houtside
      exact (hinside gga hgga houtside).elim
  | ok result =>
      intro gga hgga houtside
      rcases processLine_position hline with ⟨gga', rfl⟩ | ⟨hkept, _⟩
      · dsimp only at hgga ⊢
        rw [processGga_lastGga] at hgga
        obtain rfl := Option.some.inj hgga
        have hblocked := (processGga_blocked env s.state gga' input.now).mpr
          ((geofenceViolation_block_iff hformed gga').mpr houtside)
        simp [hblocked]
      · dsimp only at hgga
        rw [hkept] at hgga
        exact (hinside gga hgga houtside).elim

/-- What the session has stored when the store is called. -/
theorem waiting?_lastGga {env : ReadEnv F} {s waiting : FencedSession F}
    {input : ReadInput F} (hwaiting : s.waiting? env input = some waiting) :
    s.reading = true ∧
      waiting.state.lastGga =
        (s.reported? input).or s.state.lastGga := by
  unfold waiting? at hwaiting
  by_cases htakes : s.takes input = true
  swap
  · rw [if_neg htakes] at hwaiting
    cases hwaiting
  have hreading : s.reading = true := by
    unfold takes at htakes
    exact (Bool.and_eq_true_iff.mp htakes).1
  rw [if_pos htakes] at hwaiting
  cases hline : processLine env s.state input.lineB input.now with
  | error e =>
      rw [hline] at hwaiting
      cases hwaiting
  | ok result =>
      rw [hline] at hwaiting
      dsimp only at hwaiting
      split_ifs at hwaiting
      obtain rfl := Option.some.inj hwaiting
      refine ⟨hreading, ?_⟩
      unfold reported?
      rw [if_pos htakes]
      exact processLine_lastGga hline

theorem waiting?_stopped {env : ReadEnv F} {s waiting : FencedSession F}
    {input : ReadInput F} (hs : s.StoppedWhenOutside env)
    (hinside : ∀ gga, s.reported? input = some gga →
      ¬ OutsideBlockingFence env gga)
    (hwaiting : s.waiting? env input = some waiting) :
    waiting.StoppedWhenOutside env := by
  obtain ⟨hreading, hlast⟩ := waiting?_lastGga hwaiting
  intro gga hgga houtside
  rw [hlast] at hgga
  -- a position of the line, or the one of before
  rcases Option.or_eq_some_iff.mp hgga with hline | ⟨_, hold⟩
  · exact (hinside gga hline houtside).elim
  · have hstopped := (hs gga hold houtside).2
    rw [hreading] at hstopped
    cases hstopped

/-- A position that the loop takes is stored in front of the call. -/
theorem waiting?_of_reported (env : ReadEnv F) {s : FencedSession F}
    {input : ReadInput F} {gga : Gga F}
    (hgga : s.reported? input = some gga) :
    ∃ waiting, s.waiting? env input = some waiting ∧
      waiting.reading = true ∧ waiting.state.lastGga = some gga := by
  unfold reported? at hgga
  by_cases htakes : s.takes input = true
  swap
  · rw [if_neg htakes] at hgga
    cases hgga
  rw [if_pos htakes] at hgga
  have hreading : s.reading = true := by
    unfold takes at htakes
    exact (Bool.and_eq_true_iff.mp htakes).1
  have hline := processLine_of_gga? hgga env s.state input.now
  have hshadow : (processGga env s.state gga input.now).effects.any
      Effect.isShadow = true := by
    rw [processGga_effects, List.any_append, List.any_append]
    simp [positionShadow, ReadEnv.shadow, Effect.isShadow]
  unfold waiting?
  rw [if_pos htakes, hline]
  dsimp only
  rw [if_pos hshadow]
  exact ⟨_, rfl, hreading,
    processGga_lastGga env s.state gga input.now⟩

end FencedSession

namespace ReportingSession

/-- Of a session that waits for the store, both sides of the call. -/
def Stopped (env : ReadEnv F) (s : ReportingSession F) : Prop :=
  s.session.StoppedWhenOutside env ∧
    ∀ behind, s.behind = some behind → behind.StoppedWhenOutside env

theorem step_stopped {env : ReadEnv F}
    (hformed : WellFormedPolygons env.geofencePolygons)
    (s : ReportingSession F) (event : ReportEvent F)
    (next : ReportingSession F) (hs : s.Stopped env)
    (hunseen : s.Unseen env event)
    (hstep : step env s event = some next) : next.Stopped env := by
  cases event with
  | stored =>
      rcases Option.map_eq_some_iff.mp hstep with ⟨behind, hbehind, rfl⟩
      exact ⟨hs.2 behind hbehind, fun _ hnone => nomatch hnone⟩
  | line input suspends =>
      have hreport := FencedSession.report_stopped hformed hs.1 input
      unfold step at hstep
      cases hbehind : s.behind with
      | some behind =>
          rw [hbehind] at hstep
          cases hstep
      | none =>
          rw [hbehind] at hstep
          dsimp only [Option.isSome] at hstep
          rw [if_neg (by simp)] at hstep
          cases hwaiting :
            if suspends then s.session.waiting? env input else none with
          | none =>
              rw [hwaiting] at hstep
              obtain rfl := Option.some.inj hstep
              exact ⟨hreport, fun _ hnone => nomatch hnone⟩
          | some waiting =>
              rw [hwaiting] at hstep
              obtain rfl := Option.some.inj hstep
              refine ⟨?_, fun behind hsome => ?_⟩
              · cases suspends with
                | false => cases hwaiting
                | true =>
                    rw [if_pos rfl] at hwaiting
                    exact FencedSession.waiting?_stopped hs.1
                      (hunseen rfl hbehind) hwaiting
              · obtain rfl := Option.some.inj hsome
                exact hreport

/-- Where every state has stopped the positions outside, no line shows one
while its call of the store has not returned. -/
theorem unseen_of_stopped {env : ReadEnv F} {s : ReportingSession F}
    {events : List (ReportEvent F)}
    (hstates : StatesMeet (step env)
      (fun s => s.session.StoppedWhenOutside env) s events) :
    StepsMeet (step env) (Unseen env) s events := by
  induction events generalizing s with
  | nil => trivial
  | cons event events ih =>
      refine ⟨?_, fun next hnext => ih (hstates.2 next hnext)⟩
      cases event with
      | stored => trivial
      | line input suspends =>
          intro hsuspends hbehind gga hgga houtside
          subst hsuspends
          rcases FencedSession.waiting?_of_reported env hgga with
            ⟨waiting, hwaiting, hreading, hlast⟩
          have hstep : step env s (.line input true) =
              some ⟨waiting, some (s.session.report env input)⟩ := by
            unfold step
            dsimp only
            rw [hbehind, if_neg (by simp), if_pos rfl, hwaiting]
          have hstopped := (hstates.2 _ hstep).head gga hlast houtside
          rw [hreading] at hstopped
          cases hstopped.2

/-- At every moment of a session a position outside a blocking fence has ended
it, exactly when the position of the header is not one and no line shows one
while the store is called. -/
theorem run_stopped_iff {env : ReadEnv F}
    (hformed : WellFormedPolygons env.geofencePolygons)
    {req : Caster.RoverRequest} {gga? : Option (Gga F)}
    (hheader : headerGga req = some gga?) (events : List (ReportEvent F)) :
    StatesMeet (step env) (fun s => s.session.StoppedWhenOutside env)
        (start gga?) events ↔
      (∀ gga, headerGga req = some (some gga) →
          ¬ OutsideBlockingFence env gga) ∧
        StepsMeet (step env) (Unseen env) (start gga?) events := by
  rw [hheader]
  simp only [Option.some.injEq]
  rw [← FencedSession.stopped_accept_iff]
  constructor
  · intro hstates
    exact ⟨hstates.head, unseen_of_stopped hstates⟩
  · rintro ⟨haccept, hunseen⟩
    exact hunseen.statesMeet (step_stopped hformed) (fun _ hs => hs.1)
      ⟨haccept, fun _ hnone => nomatch hnone⟩

end ReportingSession

end Sessions

/-! ## A position in the header -/

/-- All rovers are kept inside one square. -/
def squareEnv : ReadEnv ℚ where
  sessionId := 1
  username := "rover"
  mountpoint := "MP"
  users := []
  geofencePolygons := .obj [("*", .obj
    [("polygon", .arr [.arr [.float 0, .float 0], .arr [.float 0, .float 1],
      .arr [.float 1, .float 1], .arr [.float 1, .float 0]]),
      ("mode", .str "block")])]
  diagCfg := []

def squareRing : List (Point ℚ) := [(0, 0), (0, 1), (1, 1), (1, 0)]

def rejectedGga : Gga ℚ := ⟨41, 29, 1, 8, 1⟩

def awayRequest : Caster.RoverRequest where
  addr := "10.0.0.1:5000"
  path := "/MP"
  headers := [("ntrip-gga",
    "$GPGGA,120000,4100.0000,N,02900.0000,E,1,08,1.0,100.0,M,0.0,M,,*77")]

def plainRequest : Caster.RoverRequest where
  addr := "10.0.0.1:5000"
  path := "/MP"
  headers := []

theorem wellFormed_square : WellFormedPolygons squareEnv.geofencePolygons := by
  refine ⟨_, rfl, ?_⟩
  intro name fence hfence
  by_cases hname : name = "*"
  · subst hname
    obtain rfl := Option.some.inj hfence
    exact ⟨_, squareRing, rfl, rfl, by decide⟩
  · have hno : (name == "*") = false := by
      simpa using hname
    simp [PyDict.get?, List.lookup_cons, hno] at hfence

/-- The same position in a line. -/
def awayLine : ReadInput ℚ where
  lineB := (
    "$GPGGA,120000,4100.0000,N,02900.0000,E,1,08,1.0,100.0,M,0.0,M,,*77"
    ).toUTF8.data.toList
  now _ := 1

/-- A position inside the square. -/
def homeLine : ReadInput ℚ where
  lineB := (
    "$GPGGA,120000,0030.0000,N,00030.0000,E,1,08,1.0,100.0,M,0.0,M,,*79"
    ).toUTF8.data.toList
  now _ := 1

def homeGga : Gga ℚ := ⟨1 / 2, 1 / 2, 1, 8, 1⟩

theorem outside_square : OutsideBlockingFence squareEnv rejectedGga := by
  refine ⟨_, _, "block", squareRing, rfl, rfl, ?_, rfl, ?_, ?_⟩
  · decide +kernel
  · rfl
  · apply toOption_eq_some.mp
    decide +kernel

theorem inside_square : ¬ OutsideBlockingFence squareEnv homeGga := by
  rw [← geofenceViolation_block_iff wellFormed_square]
  intro hblock
  have hnone : (geofenceViolation squareEnv homeGga).toOption = some none := by
    decide +kernel
  rw [hblock] at hnone
  cases Option.some.inj hnone

namespace ReportingSession

/-- The session of a rover outside the square is accepted and read; so is one
whose position comes in a line, while the store is called. -/
theorem header_outside_served :
    headerGga awayRequest = some (some rejectedGga) ∧
      OutsideBlockingFence squareEnv rejectedGga ∧
      (start (some rejectedGga)).session.reading = true ∧
      ¬ StatesMeet (@step ℚ _ noMath squareEnv)
        (fun s => s.session.StoppedWhenOutside squareEnv)
        (start (some rejectedGga)) [] ∧
      ¬ StatesMeet (@step ℚ _ noMath squareEnv)
        (fun s => s.session.StoppedWhenOutside squareEnv)
        (start none) [.line awayLine true] := by
  have hgga : headerGga awayRequest = some (some rejectedGga) := by
    decide +kernel
  refine ⟨hgga, outside_square, rfl, ?_, ?_⟩
  · intro hstates
    exact absurd (hstates rejectedGga rfl outside_square).2 (by decide)
  · intro hstates
    have hunseen := (@unseen_of_stopped ℚ _ noMath _ _ _ hstates).1
    have hreported :
        (start none).session.reported? awayLine = some rejectedGga := by
      decide +kernel
    exact hunseen rfl rfl rejectedGga hreported outside_square

/-- A session without the header that reports a position inside the square,
over a store that suspends. -/
theorem run_stopped_iff_home :
    headerGga (F := ℚ) plainRequest = some none ∧
      StatesMeet (@step ℚ _ noMath squareEnv)
        (fun s => s.session.StoppedWhenOutside squareEnv)
        (start none) [.line homeLine true, .stored] := by
  have hheader : headerGga (F := ℚ) plainRequest = some none := rfl
  have hreported :
      (start none).session.reported? homeLine = some homeGga := by
    decide +kernel
  refine ⟨hheader, ?_⟩
  apply (@run_stopped_iff ℚ _ noMath squareEnv wellFormed_square
    plainRequest none hheader _).mpr
  refine ⟨fun gga hgga => ?_, ?_, fun next _ => ?_⟩
  · rw [hheader] at hgga
    cases hgga
  · intro _ _ gga hgga
    obtain rfl := Option.some.inj (hreported.symm.trans hgga)
    exact inside_square
  · exact ⟨trivial, fun _ _ => trivial⟩

end ReportingSession

end BabilCors
