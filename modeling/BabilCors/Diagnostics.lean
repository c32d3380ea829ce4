import BabilCors.RoverTask

/-!
# Diagnostics

The snapshot of a hub, and the alerts that `compute_alerts` reads off the
snapshots.  Of a snapshot the model has what the alerts read.
-/

namespace BabilCors

open Py

/-! ## Alerts -/

inductive AlertCode where
  | noSource
  | rtcmStale
  | stationMetaMissing
  | nmeaStale
  | noFix
  | nsatLow
  | snrLow
  | geofenceViolation
  | jammingSuspect
  | spoofingSuspect
  | antennaOrRfSuspect
  deriving DecidableEq, Repr

def AlertCode.name : AlertCode → String
  | noSource => "NO_SOURCE"
  | rtcmStale => "RTCM_STALE"
  | stationMetaMissing => "STATION_META_MISSING"
  | nmeaStale => "NMEA_STALE"
  | noFix => "NO_FIX"
  | nsatLow => "NSAT_LOW"
  | snrLow => "SNR_LOW"
  | geofenceViolation => "GEOFENCE_VIOLATION"
  | jammingSuspect => "JAMMING_SUSPECT"
  | spoofingSuspect => "SPOOFING_SUSPECT"
  | antennaOrRfSuspect => "ANTENNA_OR_RF_SUSPECT"

inductive Severity where
  | info
  | warning
  | critical
  deriving DecidableEq, Repr

structure Alert (F : Type) where
  code : AlertCode
  severity : Severity
  message : String
  mountpoint : String
  connId : Option ℕ
  user : Option String
  ctx : PyDict String (Json F)

/-- The probable causes and the recommended actions. -/
def recommendationTexts : AlertCode → List String × List String
  | .noSource =>
      (["Base (SOURCE) bağlantısı yok", "Yanlış kaynak şifresi",
        "Mountpoint disabled", "Ağ/firewall sorunu"],
      ["Base cihazının caster’a bağlı olduğunu doğrula",
        "SOURCE şifresini ve mountpoint adını kontrol et",
        "Admin’den mountpoint enable et",
        "Firewall/NAT ve port erişimini kontrol et"])
  | .rtcmStale =>
      (["Base uplink kesintisi", "RTCM üretimi durdu",
        "Ağ gecikmesi/packet loss"],
      ["Base cihaz loglarını ve uplink’i kontrol et",
        "RTCM çıkış ayarlarını kontrol et",
        "Ağ gecikmesi için ping/trace yap"])
  | .nmeaStale =>
      (["Rover NMEA uplink göndermiyor", "Cihaz NMEA output kapalı",
        "TCP bağlantısı tek yönlü"],
      ["Rover’da NMEA (GGA) output açık mı kontrol et",
        "Caster’a Ntrip-GGA/stream NMEA akışı var mı kontrol et",
        "Mobil ağ/NAT keepalive ayarlarını gözden geçir"])
  | .snrLow | .nsatLow =>
      (["Kapalı alan/engel", "Anten konumu kötü", "RF girişimi/jamming"],
      ["Anten’i açık gökyüzüne taşı", "Kablo/konnektörleri kontrol et",
        "Yakında RF parazit kaynağı var mı incele"])
  | .noFix =>
      (["Düzeltme yok veya kalitesiz", "Anten/RF sorunu",
        "Uydu görünürlüğü düşük"],
      ["Doğru mountpoint’e bağlı olduğunu doğrula",
        "Anten ve kabloyu kontrol et",
        "SNR/NSAT/HDOP değerlerini takip et"])
  | .antennaOrRfSuspect =>
      (["Anten kablosu/konnektör arızası", "LNA beslemesi yok",
        "Anten kısa devre/temassızlık"],
      ["Anten kablosunu ve konnektörleri yeniden tak",
        "Anten beslemesini/LNA’yı kontrol et",
        "Farklı anten/kablo ile dene"])
  | .jammingSuspect =>
      (["RF jamming", "Güçlü parazit kaynağı",
        "Anten yakınında elektronik gürültü"],
      ["Cihazı parazit kaynağından uzaklaştır",
        "Band-pass filtre/kaliteli anten kullan",
        "Saha haritasında jamming kümelenmesini kontrol et"])
  | .spoofingSuspect =>
      (["GNSS spoofing", "Cihaz konum filtrelemesi kapalı",
        "Yanlış datum/format"],
      ["Cihazda anti-spoof/RAIM özelliklerini aç",
        "IMU/odometre ile çapraz doğrula",
        "Zaman/konum sıçramalarını logla ve karşılaştır"])
  | .geofenceViolation =>
      (["Cihaz izinli bölge dışına çıktı", "Geofence polygon hatalı çizildi",
        "Yanlış geofence ataması"],
      ["Haritada konumu ve geofence’i karşılaştır",
        "Gerekirse polygon’u düzelt",
        "Kullanıcıya atanmış geofence_id’yi kontrol et"])
  | .stationMetaMissing =>
      ([], [])

section Alerts

variable {F : Type}

/-- `_recommendations`. -/
def recommendations (code : AlertCode) : PyDict String (Json F) :=
  let (causes, actions) := recommendationTexts code
  [("probable_causes", .arr (causes.map .str)),
    ("recommended_actions", .arr (actions.map .str))]

def alertIf (holds : Bool) (alert : Alert F) : List (Alert F) :=
  if holds then [alert] else []

theorem mem_alertIf {holds : Bool} {alert a : Alert F} :
    a ∈ alertIf holds alert ↔ holds = true ∧ a = alert := by
  unfold alertIf
  cases holds <;> simp

/-! ## Snapshots -/

/-- A session with what only the diagnostics read; `0.0` stands for a time
that was never set. -/
structure WatchedSession (F : Type) extends RoverSession F where
  lastGsvSnrMean : Option F
  lastNmeaTsMono : F
  geofenceViolationTsMono : F
  jammingSuspectTsMono : F
  spoofingSuspectTsMono : F

/-- A hub with its sessions in the order in which the set gives them.  Their
ids come from one counter, which starts above zero. -/
structure WatchedHub (F : Type) where
  mountpoint : String
  sourceAddr : Option String
  lastRtcmtimeMono : F
  stationInfo : PyDict String (Json F)
  rovers : List (WatchedSession F)
  attached : ∀ s ∈ rovers, s.mountpoint = mountpoint
  positive : ∀ s ∈ rovers, 0 < s.id
  distinct : (rovers.map fun s => s.id).Nodup

structure RoverSample (F : Type) where
  connId : ℕ
  user : String
  gga : Option (Gga F)
  gsvSnrMean : Option F
  lastNmeaAgeS : Option F
  geofenceViolationRecent : Bool
  jammingSuspectRecent : Bool
  spoofingSuspectRecent : Bool

structure Snapshot (F : Type) where
  mountpoint : String
  sourceAttached : Bool
  lastRtcmtimeAgeS : Option F
  stationInfo : PyDict String (Json F)
  roverSamples : List (RoverSample F)
  diagnosticsCfg : Option (PyDict String (Json F))

variable [PyFloat F]

/-- The age of a time that was set. -/
def ageOf (now ts : F) : Option F :=
  if floatIsZero ts then none else some (PyFloat.sub now ts)

/-- Whether a mark is younger than a minute. -/
def recent (now ts : F) : Bool :=
  if floatIsZero ts then false
  else PyFloat.lt (PyFloat.sub now ts) (PyFloat.ofInt 60)

def WatchedSession.sample (s : WatchedSession F) (now : F) :
    RoverSample F where
  connId := s.id
  user := s.username
  gga := s.lastGga
  gsvSnrMean := s.lastGsvSnrMean
  lastNmeaAgeS := ageOf now s.lastNmeaTsMono
  geofenceViolationRecent := recent now s.geofenceViolationTsMono
  jammingSuspectRecent := recent now s.jammingSuspectTsMono
  spoofingSuspectRecent := recent now s.spoofingSuspectTsMono

def WatchedHub.snapshot (hub : WatchedHub F) (now : F) : Snapshot F where
  mountpoint := hub.mountpoint
  sourceAttached := hub.sourceAddr.isSome
  lastRtcmtimeAgeS := ageOf now hub.lastRtcmtimeMono
  stationInfo := hub.stationInfo
  roverSamples := (hub.rovers.take 20).map fun s => s.sample now
  diagnosticsCfg := none

/-- The hubs of a server, whose mountpoints are keys of a dictionary. -/
structure WatchedHubs (F : Type) where
  hubs : List (WatchedHub F)
  distinct : (hubs.map fun hub => hub.mountpoint).Nodup
  diagCfg : PyDict String (Json F)

def WatchedHubs.getStatusSnapshots (w : WatchedHubs F) (now : F) :
    List (Snapshot F) :=
  w.hubs.map fun hub =>
    { hub.snapshot now with diagnosticsCfg := some w.diagCfg }

/-! ## `compute_alerts` -/

/-- `_thr`. -/
def threshold (cfg : PyDict String (Json F)) (key : String) (default : ℤ) : F :=
  match cfg.get? key with
  | none | some .null => PyFloat.ofInt default
  | some v => v.pyFloat.toOption.getD (PyFloat.ofInt default)

/-- The signal is known, and weaker than the bound. -/
def weakSignal (snr : Option F) (bound : F) : Bool :=
  snr.any fun x =>
    (PyFloat.lt floatZero x || floatIsZero x) && PyFloat.lt x bound

def optionJson {α : Type} (toJson : α → Json F) : Option α → Json F
  | some a => toJson a
  | none => .null

/-- The alerts of a hub without those of its rovers. -/
def hubAlerts (thr : PyDict String (Json F)) (snap : Snapshot F) :
    List (Alert F) :=
  let rtcmStaleS := threshold thr "rtcm_stale_s" 5
  let described (key : String) : Bool :=
    (snap.stationInfo.get? key).any Json.truthy
  alertIf (!snap.sourceAttached)
      ⟨.noSource, .critical, "Base kaynağı bağlı değil", snap.mountpoint,
        none, none, recommendations .noSource⟩ ++
    alertIf (snap.lastRtcmtimeAgeS.any fun age => PyFloat.lt rtcmStaleS age)
      ⟨.rtcmStale, .warning, "RTCM akışı bayat", snap.mountpoint, none, none,
        [("age_s", optionJson .float snap.lastRtcmtimeAgeS),
          ("threshold_s", .float rtcmStaleS)] ++
            recommendations .rtcmStale⟩ ++
    alertIf (!(described "antenna_descriptor" ||
        described "receiver_descriptor"))
      ⟨.stationMetaMissing, .info,
        "İstasyon donanım metası yok (1033/1008 bekleniyor)",
        snap.mountpoint, none, none,
        [("recommended_actions", .arr
            [.str "Base’in 1033/1008 mesajı gönderdiğini doğrula",
              .str ("RTCM message type sayaçlarında 1033/1008 var mı " ++
                "kontrol et")]),
          ("probable_causes", .arr
            [.str "Base 1033/1008 yayınlamıyor",
              .str "RTCM yapılandırması eksik"])]⟩

/-- The alerts of one sample. -/
def roverAlerts (thr : PyDict String (Json F)) (mp : String)
    (r : RoverSample F) : List (Alert F) :=
  let connId := if r.connId = 0 then none else some r.connId
  let user := if r.user = "" then none else some r.user
  let alert (code : AlertCode) (severity : Severity) (message : String)
      (ctx : PyDict String (Json F)) : Alert F :=
    ⟨code, severity, message, mp, connId, user, ctx ++ recommendations code⟩
  let fixQ := r.gga.map Gga.fixQ
  let nsat := r.gga.map Gga.nsat
  let nmeaStaleS := threshold thr "nmea_stale_s" 10
  let snrLow := threshold thr "snr_low" 25
  let snr := optionJson .float r.gsvSnrMean
  let fewSatellites := nsat.any fun n => n ≤ 3
  alertIf (r.lastNmeaAgeS.any fun age => PyFloat.lt nmeaStaleS age)
      (alert .nmeaStale .info "Rover NMEA bayat"
        [("age_s", optionJson .float r.lastNmeaAgeS),
          ("threshold_s", .float nmeaStaleS)]) ++
    alertIf (fixQ = some 0)
      (alert .noFix (if fewSatellites then .critical else .warning)
        (if weakSignal r.gsvSnrMean snrLow then "Fix yok (SNR düşük)"
        else if fewSatellites then "Fix yok (uydu sayısı çok düşük)"
        else "Fix yok")
        [("nsat", optionJson .int nsat), ("snr", snr),
          ("hdop", optionJson .float (r.gga.map Gga.hdop)),
          ("snr_low", .float snrLow)]) ++
    alertIf (nsat.any fun n => 0 < n && n < 10)
      (alert .nsatLow .info "Uydu sayısı düşük"
        [("nsat", optionJson .int nsat)]) ++
    alertIf (weakSignal r.gsvSnrMean snrLow)
      (alert .snrLow .info "Zayıf sinyal (SNR düşük)"
        [("snr", snr), ("threshold", .float snrLow)]) ++
    alertIf r.geofenceViolationRecent
      (alert .geofenceViolation .warning "Geofence ihlali (son 60 sn)" []) ++
    alertIf r.jammingSuspectRecent
      (alert .jammingSuspect .warning "Olası jamming (son 60 sn)" []) ++
    alertIf r.spoofingSuspectRecent
      (alert .spoofingSuspect .warning "Olası spoofing (son 60 sn)" []) ++
    alertIf (fixQ = some 0 && fewSatellites &&
        weakSignal r.gsvSnrMean (PyFloat.ofInt 25))
      (alert .antennaOrRfSuspect .warning
        "Anten/RF zinciri şüpheli (no-fix + low nsat + low snr)" [])

/-- The thresholds of a snapshot: its own entries replace the given ones. -/
def snapshotThresholds (thresholds : PyDict String (Json F))
    (snap : Snapshot F) : PyDict String (Json F) :=
  (snap.diagnosticsCfg.getD []).foldl
    (fun thr (key, value) => thr.set key value) thresholds

def computeAlerts (snaps : List (Snapshot F))
    (thresholds : PyDict String (Json F)) : List (Alert F) :=
  snaps.flatMap fun snap =>
    if snap.mountpoint = "" then []
    else
      let thr := snapshotThresholds thresholds snap
      hubAlerts thr snap ++
        snap.roverSamples.flatMap (roverAlerts thr snap.mountpoint)

end Alerts

end BabilCors
