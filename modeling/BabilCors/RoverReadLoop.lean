import BabilCors.Auth
import BabilCors.Geofence
import BabilCors.Nmea

/-!
# The read loop of a rover

The body of `_rover_read_loop`.  A line is processed from the session's NMEA
state, the settings and the clock, and gives the new state with what it asks of
the event list and of the device shadow, or the exception that leaves the loop.
Within a line every reading of the clock is its own value.
-/

namespace BabilCors

open Py

/-- The trigonometric functions of `haversine_m`; `none` is the exception of an
argument out of their domain. -/
class PyMath (F : Type) where
  radians : F → F
  sin? : F → Option F
  cos? : F → Option F
  sqrt? : F → Option F
  atan2 : F → F → F

structure NmeaState (F : Type) where
  lastGga : Option (Gga F)
  lastGsa : Option (Gsa F)
  lastGsvSnrMean : Option F
  lastRmc : Option (Rmc F)
  lastVtg : Option (Vtg F)
  lastZda : Option Zda
  lastGsvTotalSv : Option ℤ
  gsvPendingTotal : ℤ
  gsvPendingLastNum : ℤ
  /-- Absent until the first series begins. -/
  gsvPendingSats : Option (List GsvSat)
  lastNmeaTs : F
  lastPosition : Option (F × F)
  lastPosTs : F
  geofenceViolationTs : F
  jammingSuspectTs : F
  spoofingSuspectTs : F

structure ReadEnv (F : Type) where
  sessionId : ℕ
  username : String
  mountpoint : String
  users : PyDict String UserRecord
  geofencePolygons : Json F
  diagCfg : PyDict String (Json F)

/-- A call of `_event_add`; the mountpoint, the session and the user are those
of the loop. -/
structure EventCall (F : Type) where
  code : String
  severity : String
  msg : String
  ctx : Json F
  throttle : F

inductive Effect (F : Type) where
  | event (call : EventCall F)
  | shadow (deviceId : String) (payload : PyDict String (Json F))

structure LineResult (F : Type) where
  state : NmeaState F
  effects : List (Effect F)
  /-- A block-mode geofence violation ends the loop. -/
  blocked : Bool

variable {F : Type} [PyFloat F]

def NmeaState.new : NmeaState F where
  lastGga := none
  lastGsa := none
  lastGsvSnrMean := none
  lastRmc := none
  lastVtg := none
  lastZda := none
  lastGsvTotalSv := none
  gsvPendingTotal := 0
  gsvPendingLastNum := 0
  gsvPendingSats := none
  lastNmeaTs := floatZero
  lastPosition := none
  lastPosTs := floatZero
  geofenceViolationTs := floatZero
  jammingSuspectTs := floatZero
  spoofingSuspectTs := floatZero

namespace ReadEnv

def threshold (env : ReadEnv F) (key : String) (default : Json F) : Json F :=
  ((env.diagCfg.get? key).getD default).orElse default

def deviceId (env : ReadEnv F) : String :=
  if env.username = "" then env.mountpoint ++ ":" ++ toString env.sessionId
  else env.username

/-- A shadow update: the payload starts with the mountpoint and the user. -/
def shadow (env : ReadEnv F) (payload : PyDict String (Json F)) : Effect F :=
  .shadow env.deviceId
    ([("mountpoint", .str env.mountpoint), ("username", .str env.username)] ++
      payload)

end ReadEnv

/-! ## GGA -/

def haversineM [PyMath F] (lat1 lon1 lat2 lon2 : F) : Option F := do
  let p1 := PyMath.radians lat1
  let p2 := PyMath.radians lat2
  let dphi := PyFloat.sub p2 p1
  let dl := PyMath.radians (PyFloat.sub lon2 lon1)
  let half (x : F) : F := PyFloat.div x (PyFloat.ofInt 2)
  let s1 ← PyMath.sin? (half dphi)
  let c1 ← PyMath.cos? p1
  let c2 ← PyMath.cos? p2
  let s2 ← PyMath.sin? (half dl)
  let a := PyFloat.add (PyFloat.mul s1 s1)
    (PyFloat.mul (PyFloat.mul c1 c2) (PyFloat.mul s2 s2))
  let y ← PyMath.sqrt? a
  let x ← PyMath.sqrt? (PyFloat.sub (PyFloat.ofInt 1) a)
  return PyFloat.mul (PyFloat.ofInt (2 * 6371000)) (PyMath.atan2 y x)

/-- The spoofing heuristic: whether the jump from the last position is too
large, with the event for it; `none` is an exception. -/
def spoofingEvent? [PyMath F] (env : ReadEnv F) (s : NmeaState F)
    (gga : Gga F) (now : F) : Option (Option (Effect F)) :=
  match s.lastPosition with
  | none => some none
  | some (lastLat, lastLon) =>
      if floatIsZero s.lastPosTs then some none
      else do
        let dt := floatMax (PyFloat.sub now s.lastPosTs)
          (PyFloat.quot 1 1000)
        let dist ← haversineM lastLat lastLon gga.lat gga.lon
        let speed := PyFloat.div dist dt
        let distThr ← (env.threshold "spoofing_jump_dist_m"
          (.float (PyFloat.ofInt 500))).pyFloat.toOption
        let spdThr ← (env.threshold "spoofing_jump_speed_mps"
          (.float (PyFloat.ofInt 80))).pyFloat.toOption
        if PyFloat.lt distThr dist && PyFloat.lt spdThr speed then
          return some (.event
            { code := "SPOOFING_SUSPECT"
              severity := "warning"
              msg := "Olası spoofing (ani konum sıçraması)"
              ctx := .obj [("dist_m", .float (PyFloat.round1 dist)),
                ("speed_mps", .float (PyFloat.round1 speed)),
                ("dist_thr", .float distThr), ("speed_thr", .float spdThr)]
              throttle := PyFloat.ofInt 30 })
        else
          return none

/-- The geofence that applies to the session: the user's own, else the
mountpoint's, else the one for all. -/
def selectGeofence (env : ReadEnv F) : Except PyErr (Json F) := do
  let polygons := env.geofencePolygons.orElse (.obj [])
  let own ← match (env.users.get? env.username).bind (·.geofenceId) with
    | some id => if id = "" then .ok .null else polygons.getD id .null
    | none => .ok .null
  match own with
  | .null =>
      return (← polygons.getD env.mountpoint .null).orElse
        (← polygons.getD "*" .null)
  | own => return own

/-- The geofence check: the mode of the fence when the position is outside. -/
def geofenceViolation (env : ReadEnv F) (gga : Gga F) :
    Except PyErr (Option String) := do
  let gf ← selectGeofence env
  if !gf.isObj then return none
  let poly := (← gf.getD "polygon" .null).orElse (.arr [])
  let mode ← match (← gf.getD "mode" .null).orElse (.str "alert") with
    | .str mode => .ok (lower mode)
    | j => .error (.attributeError j.typeName "lower")
  if !poly.truthy then return none
  let inside ← pointInPolygon (gga.lat, gga.lon) (← polygonOfJson poly)
  return if inside then none else some mode

def noFixEvent (gga : Gga F) : List (Effect F) :=
  if gga.fixQ = 0 then
    [.event
      { code := "NO_FIX"
        severity := "warning"
        msg := "Fix yok"
        ctx := .obj [("nsat", .int gga.nsat), ("hdop", .float gga.hdop)]
        throttle := PyFloat.ofInt 10 }]
  else []

def violationEvent (gga : Gga F) (mode : String) : Effect F :=
  .event
    { code := "GEOFENCE_VIOLATION"
      severity := if mode = "block" then "warning" else "info"
      msg := "Geofence ihlali"
      ctx := .obj [("mode", .str mode), ("lat", .float gga.lat),
        ("lon", .float gga.lon)]
      throttle := PyFloat.ofInt 10 }

def processGga [PyMath F] (env : ReadEnv F) (s : NmeaState F) (gga : Gga F)
    (now : ℕ → F) : LineResult F :=
  let s := { s with lastNmeaTs := now 0, lastGga := some gga }
  -- an exception of the heuristic leaves the last position as it was
  let (s, spoofing) : NmeaState F × List (Effect F) :=
    match spoofingEvent? env s gga (now 1) with
    | none => (s, [])
    | some event? =>
        ({ s with
            spoofingSuspectTs :=
              if event?.isSome then now 2 else s.spoofingSuspectTs
            lastPosition := some (gga.lat, gga.lon)
            lastPosTs := now 3 }, event?.toList)
  let effects := noFixEvent gga ++ spoofing ++
    [env.shadow [("lat", .float gga.lat), ("lon", .float gga.lon),
      ("fixq", .int gga.fixQ), ("nsat", .int gga.nsat),
      ("hdop", .float gga.hdop)]]
  match geofenceViolation env gga with
  | .ok (some mode) =>
      { state := { s with geofenceViolationTs := now 4 }
        effects := effects ++ [violationEvent gga mode]
        blocked := mode = "block" }
  | _ => { state := s, effects := effects, blocked := false }

/-! ## GSV -/

/-- The satellites of the series so far, after the sentence: a first sentence
or another total starts a new series. -/
def mergeGsv (s : NmeaState F) (gsv : Gsv) :
    Except PyErr (NmeaState F × List GsvSat) :=
  let s :=
    if gsv.sentNum = 1 ∨ s.gsvPendingTotal ≠ gsv.totalSent then
      { s with
        gsvPendingTotal := gsv.totalSent
        gsvPendingLastNum := 1
        gsvPendingSats := some [] }
    else s
  match s.gsvPendingSats with
  | none => .error (.attributeError "NoneType" "extend")
  | some sats =>
      .ok ({ s with
        gsvPendingLastNum := gsv.sentNum
        gsvPendingSats := some (sats ++ gsv.sats) }, sats ++ gsv.sats)

def positiveSnrs (sats : List GsvSat) : List ℤ :=
  (sats.map GsvSat.snr).filter (0 < ·)

def meanSnr (sats : List GsvSat) : Except PyErr F :=
  let snrs := positiveSnrs sats
  if snrs = [] then .ok floatZero else trueDiv snrs.sum snrs.length

/-- The jamming heuristic; an exception in it is the same as no event. -/
def jammingEvent (env : ReadEnv F) (s : NmeaState F) (mean : F) :
    Except PyErr (Option (Effect F)) :=
  match s.lastGga with
  | none => .ok none
  | some gga => do
      let jamSnr ← (env.threshold "jamming_snr"
        (.float (PyFloat.ofInt 20))).pyFloat
      let jamNsat ← (env.threshold "jamming_nsat" (.int 8)).pyInt
      let jamHdop ← (env.threshold "jamming_hdop"
        (.float (PyFloat.quot 5 2))).pyFloat
      if PyFloat.lt mean jamSnr && decide (gga.nsat < jamNsat) &&
          PyFloat.lt jamHdop gga.hdop then
        return some (.event
          { code := "JAMMING_SUSPECT"
            severity := if gga.fixQ = 0 then "warning" else "info"
            msg :=
              "Olası jamming (SNR düşük + uydu düşük + HDOP yüksek)"
            ctx := .obj [("snr", .float (PyFloat.round1 mean)),
              ("nsat", .int gga.nsat), ("hdop", .float gga.hdop),
              ("fixq", .int gga.fixQ),
              ("thr", .obj [("snr", .float jamSnr), ("nsat", .int jamNsat),
                ("hdop", .float jamHdop)])]
            throttle := PyFloat.ofInt 30 })
      else
        return none

/-- The end of a series: the mean, the low-SNR event, the jamming heuristic and
the shadow. -/
def completeGsv (env : ReadEnv F) (s : NmeaState F) (gsv : Gsv)
    (sats : List GsvSat) (now : ℕ → F) : Except PyErr (LineResult F) := do
  let mean ← meanSnr sats
  let s := { s with
    lastGsvSnrMean := some mean
    lastGsvTotalSv := some gsv.totalSv }
  let snrLow ← (env.threshold "snr_low" (.float (PyFloat.ofInt 25))).pyFloat
  let low : List (Effect F) :=
    if PyFloat.lt mean snrLow then
      [.event
        { code := "SNR_LOW"
          severity := "info"
          msg := "Zayıf sinyal (SNR düşük)"
          ctx := .obj [("snr", .float (PyFloat.round1 mean)),
            ("total_sv", .int gsv.totalSv)]
          throttle := PyFloat.ofInt 10 }]
    else []
  let jamming := (jammingEvent env s mean).toOption.join
  return {
    state := if jamming.isSome then { s with jammingSuspectTs := now 1 } else s
    effects := low ++ jamming.toList ++
      [env.shadow [("total_sv", .int gsv.totalSv),
        ("snr_mean", .float (PyFloat.round1 mean))]]
    blocked := false }

def processGsv (env : ReadEnv F) (s : NmeaState F) (gsv : Gsv)
    (now : ℕ → F) : Except PyErr (LineResult F) := do
  let (s, sats) ← mergeGsv { s with lastNmeaTs := now 0 } gsv
  if gsv.sentNum = gsv.totalSent then completeGsv env s gsv sats now
  else return { state := s, effects := [], blocked := false }

/-! ## The other sentences and the dispatch -/

def processGsa (env : ReadEnv F) (s : NmeaState F) (gsa : Gsa F)
    (now : ℕ → F) : LineResult F where
  state := { s with lastNmeaTs := now 0, lastGsa := some gsa }
  effects := [env.shadow [("fix_type", .int gsa.fixType),
    ("pdop", .float gsa.pdop), ("hdop", .float gsa.hdop),
    ("vdop", .float gsa.vdop), ("used", .int gsa.sats.length)]]
  blocked := false

/-- A line that changes no more than the state. -/
def quietLine (s : NmeaState F) : Except PyErr (LineResult F) :=
  .ok { state := s, effects := [], blocked := false }

/-- One pass of the loop. -/
def processLine [PyMath F] (env : ReadEnv F) (s : NmeaState F)
    (lineB : List UInt8) (now : ℕ → F) : Except PyErr (LineResult F) :=
  let line := strip (safeDecode lineB)
  if !startsWith line "$" then quietLine s
  else if contains line "RMC" then
    match parseRmc line with
    | some rmc => quietLine
        { s with lastNmeaTs := now 0, lastRmc := some rmc }
    | none => quietLine s
  else if contains line "VTG" then
    match parseVtg line with
    | some vtg => quietLine
        { s with lastNmeaTs := now 0, lastVtg := some vtg }
    | none => quietLine s
  else if contains line "ZDA" then
    match parseZda line with
    | some zda => quietLine
        { s with lastNmeaTs := now 0, lastZda := some zda }
    | none => quietLine s
  else if contains line "GGA" then
    match parseGga line with
    | some gga => .ok (processGga env s gga now)
    | none => quietLine s
  else if contains line "GSA" then
    match parseGsa line with
    | some gsa => .ok (processGsa env s gsa now)
    | none => quietLine s
  else if contains line "GSV" then
    match parseGsv line with
    | some gsv => processGsv env s gsv now
    | none => quietLine s
  else quietLine s

inductive ReadEnd (F : Type) where
  | endOfStream (s : NmeaState F)
  | lineTooLong (s : NmeaState F)
  | blocked (s : NmeaState F)
  | raised (e : PyErr)

/-- What `readline` gives, with the clock while the line is processed; an empty
line is the end of the stream. -/
structure ReadInput (F : Type) where
  lineB : List UInt8
  now : ℕ → F

/-- `_rover_read_loop`; the inputs end where the stream does or the read times
out. -/
def readLoop [PyMath F] (env : ReadEnv F) :
    NmeaState F → List (ReadInput F) → ReadEnd F
  | s, [] => .endOfStream s
  | s, input :: inputs =>
      if input.lineB = [] then .endOfStream s
      else if 1024 < input.lineB.length then .lineTooLong s
      else
        match processLine env s input.lineB input.now with
        | .error e => .raised e
        | .ok result =>
            if result.blocked then .blocked result.state
            else readLoop env result.state inputs

end BabilCors
