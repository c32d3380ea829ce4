import BabilCors.Auth
import BabilCors.IpAddress
import BabilCors.Tiers

/-!
# The configuration

`load_config` on a parsed document, `validate_config` with its error texts,
and `compile_ip_nets`.
-/

namespace BabilCors

open Py IpAddress

structure ListenCfg where
  host : String
  port : ℤ
  backlog : ℤ
  reusePort : Bool
  tlsCertfile : Option String
  tlsKeyfile : Option String
  tlsClientCa : Option String
  deriving DecidableEq, Repr

structure SourcesCfg where
  password : String
  mountpoints : List String
  deriving DecidableEq, Repr

structure LoggingCfg where
  level : String
  fmt : String
  deriving DecidableEq, Repr

structure SourcetableInfo (F : Type) where
  operator : String
  country : String
  network : String
  mountpointsMeta : Option (PyDict String (Json F))

structure CasterCfg (F : Type) where
  listen : ListenCfg
  logging : LoggingCfg
  sourcetable : SourcetableInfo F
  sources : SourcesCfg
  tiers : PyDict String Tier
  users : PyDict String UserRecord
  limits : PyDict String ℤ
  security : Json F

/-- The configuration of a document that gives nothing but the source password
and the users. -/
def CasterCfg.basic {F : Type} (password : String)
    (users : PyDict String UserRecord) : CasterCfg F where
  listen := ⟨"0.0.0.0", 2101, 200, false, none, none, none⟩
  logging := ⟨"INFO", "plain"⟩
  sourcetable := ⟨"NTRIP", "XX", "", none⟩
  sources := ⟨password, []⟩
  tiers := []
  users := users
  limits := []
  security := .obj []

variable {F : Type} [PyFloat F]

/-! ## Loading -/

def nonEmpty? (s : String) : Option String :=
  if s = "" then none else some s

def buildTier (data : PyDict String (Json F)) : Except PyErr Tier := do
  let field (key : String) : Except PyErr ℤ :=
    (((data.get? key).getD (.int 0)).orElse (.int 0)).pyInt
  let rl ← field "rate_limit_bps"
  let ep ← field "max_epochs_per_minute"
  let mq ← field "max_queue_bytes"
  return ⟨rl, ep, mq⟩

def loadTiers (tiers : Json F) : Except PyErr (PyDict String Tier) := do
  (← tiers.items).foldlM
    (fun out (name, td) =>
      match td with
      | .obj td => (buildTier td).map (PyDict.set out name)
      | _ => .ok out)
    []

/-- The numbers among the limits, booleans included. -/
def loadLimits (limits : Json F) : Except PyErr (PyDict String ℤ) := do
  (← limits.items).foldlM
    (fun out (key, value) =>
      match value with
      | .bool _ | .int _ | .float _ => value.pyInt.map (PyDict.set out key)
      | _ => .ok out)
    []

def loadListen (listen : Json F) : Except PyErr ListenCfg := do
  let str (key default : String) : Except PyErr String :=
    (listen.getD key (.str default)).map Json.pyStr
  return {
    host := ← str "host" "0.0.0.0"
    port := ← (← listen.getD "port" (.int 2101)).pyInt
    backlog := ← (← listen.getD "backlog" (.int 200)).pyInt
    reusePort := (← listen.getD "reuse_port" (.bool false)).truthy
    tlsCertfile := nonEmpty? (← str "tls_certfile" "")
    tlsKeyfile := nonEmpty? (← str "tls_keyfile" "")
    tlsClientCa := nonEmpty? (← str "tls_client_ca" "") }

def loadSources (env : Env) (sources : Json F) :
    Except PyErr SourcesCfg := do
  let password := (← sources.getD "password" (.str "")).pyStr
  let mps ← sources.getD "mountpoints" (.arr [])
  return {
    password := resolveSecret env password
    mountpoints :=
      match mps with
      | .arr mps => mps.map Json.pyStr
      | _ => [] }

/-- `load_config` on the document that the file holds. -/
def loadConfig (env : Env) (raw : Json F) : Except PyErr (CasterCfg F) := do
  let part (key : String) : Except PyErr (Json F) :=
    (raw.getD key .null).map (·.orElse (.obj []))
  let listen ← part "listen"
  let logging ← part "logging"
  let st ← part "sourcetable"
  let sources ← part "sources"
  let tiers ← part "tiers"
  let users ← part "users"
  let limits ← part "limits"
  let security ← part "security"
  let listenCfg ← loadListen listen
  let logCfg : LoggingCfg := {
    level := (← logging.getD "level" (.str "INFO")).pyStr
    fmt := (← logging.getD "format" (.str "plain")).pyStr }
  let stInfo : SourcetableInfo F := {
    operator := (← st.getD "operator" (.str "NTRIP")).pyStr
    country := (← st.getD "country" (.str "XX")).pyStr
    network := (← st.getD "network" (.str "")).pyStr
    mountpointsMeta :=
      match ← st.get "mountpoints_meta" with
      | some (.obj entries) => some entries
      | _ => none }
  let sourcesCfg ← loadSources env sources
  let tierMap ← loadTiers tiers
  let userMap ← loadUsers env users
  return {
    listen := listenCfg
    logging := logCfg
    sourcetable := stInfo
    sources := sourcesCfg
    tiers := tierMap
    users := userMap
    limits := ← loadLimits limits
    security := security }

/-! ## IP lists -/

/-- One entry of an IP list; a blank one is skipped. -/
def compileIpNet (value : Json F) : Except PyErr (Option IpNetwork) :=
  let s := strip value.pyStr
  if s = "" then .ok none
  else
    let text := if '/' ∈ s.toList then s else s ++ "/32"
    match ipNetwork? text with
    | some network => .ok (some network)
    | none => .error (.valueError
        (Json.reprStr F text ++ " does not appear to be an IPv4 or IPv6 network"))

def compileIpNets (values : Json F) : Except PyErr (List IpNetwork) := do
  let compiled ← (← values.iter).mapM compileIpNet
  return compiled.filterMap id

/-! ## Validation -/

def listenErrors (listen : ListenCfg) : List String :=
  (if 0 ≤ listen.port ∧ listen.port ≤ 65535 then []
    else ["listen.port 0-65535 aralığında olmalı"]) ++
  (if strip listen.host = "" then ["listen.host boş olamaz"] else []) ++
  (if listen.backlog < 1 then ["listen.backlog en az 1 olmalı"] else []) ++
  (if (listen.tlsCertfile.isSome || listen.tlsKeyfile.isSome) &&
      !(listen.tlsCertfile.isSome && listen.tlsKeyfile.isSome) then
    ["TLS için listen.tls_certfile ve listen.tls_keyfile birlikte verilmeli"]
  else [])

def mountpointError? (mp : String) : Option String :=
  if strip mp = "" then
    some "sources.mountpoints boş değer içeremez"
  else if mp.toList.any isSpace then
    some ("sources.mountpoints geçersiz: '" ++ mp ++ "' (boşluk içeremez)")
  else if '/' ∈ mp.toList then
    some ("sources.mountpoints geçersiz: '" ++ mp ++ "' ('/' içeremez)")
  else none

def sourcesErrors (sources : SourcesCfg) : List String :=
  (if sources.password = "" then ["sources.password boş olamaz"] else []) ++
  (if sources.mountpoints.Nodup then []
    else ["sources.mountpoints içinde tekrar eden değerler var"]) ++
  (sources.mountpoints.findSome? mountpointError?).toList

def tierErrors (name : String) (t : Tier) : List String :=
  (if t.rateLimitBps < 0 then
    ["tiers." ++ name ++ ".rate_limit_bps negatif olamaz"] else []) ++
  (if t.maxEpochsPerMinute < 0 then
    ["tiers." ++ name ++ ".max_epochs_per_minute negatif olamaz"] else []) ++
  (if t.maxQueueBytes < 0 then
    ["tiers." ++ name ++ ".max_queue_bytes negatif olamaz"] else [])

def isTruthy (s? : Option String) : Bool :=
  s?.any (· ≠ "")

def lacksCredential (u : UserRecord) : Bool :=
  u.password = "" && !isTruthy u.passwordSha256 && !isTruthy u.passwordHash

def userErrors (users : PyDict String UserRecord) : List String :=
  match users.values.find? lacksCredential with
  | some u => ["users." ++ u.username ++
      " için password, password_sha256 veya password_hash gerekli"]
  | none => []

def limitErrors (limits : PyDict String ℤ) : List String :=
  limits.flatMap fun (key, value) =>
    if value < 0 then ["limits." ++ key ++ " negatif olamaz"] else []

def securityErrors (security : Json F) : List String :=
  if security.isObj then
    let compile (key : String) : Except PyErr (List IpNetwork) :=
      security.getD key (.arr []) >>= compileIpNets
    match compile "ip_allow", compile "ip_deny" with
    | .ok _, .ok _ => []
    | _, _ =>
        ["security.ip_allow/ip_deny geçersiz IP veya CIDR içeriyor"]
  else []

def missingTiers (tiers : PyDict String Tier)
    (users : PyDict String UserRecord) : List String :=
  ((users.values.map UserRecord.tier).filter fun tier =>
    tier ≠ "" && !tiers.has tier).dedup

def tierReferenceErrors (tiers : PyDict String Tier)
    (users : PyDict String UserRecord) : List String :=
  if tiers = [] ∨ missingTiers tiers users = [] then []
  else ["users.*.tier tanımsız: " ++
    ", ".intercalate ((missingTiers tiers users).insertionSort (· ≤ ·))]

def configErrors (cfg : CasterCfg F) : List String :=
  listenErrors cfg.listen ++ sourcesErrors cfg.sources ++
    cfg.tiers.flatMap (fun (name, t) => tierErrors name t) ++
    userErrors cfg.users ++ limitErrors cfg.limits ++
    securityErrors cfg.security ++ tierReferenceErrors cfg.tiers cfg.users

def validateConfig (cfg : CasterCfg F) : Except PyErr Unit :=
  if configErrors cfg = [] then .ok ()
  else .error (.configError (configErrors cfg))

theorem validateConfig_eq_ok {cfg : CasterCfg F} :
    validateConfig cfg = .ok () ↔ configErrors cfg = [] := by
  unfold validateConfig
  split_ifs with hempty <;> simp [hempty]

theorem lacksCredential_of_validateConfig {cfg : CasterCfg F}
    (hvalid : validateConfig cfg = .ok ()) {u : UserRecord}
    (hu : u ∈ cfg.users.values) : lacksCredential u = false := by
  have hempty := validateConfig_eq_ok.mp hvalid
  simp only [configErrors, List.append_eq_nil_iff] at hempty
  have husers : userErrors cfg.users = [] := hempty.1.1.1.2
  unfold userErrors at husers
  split at husers
  · cases husers
  next hnone =>
    simpa using List.find?_eq_none.mp hnone u hu

end BabilCors
