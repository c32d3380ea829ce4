import BabilCors.AdminGate
import BabilCors.ServerRuns

/-!
# The start of a server

`__init__` of the caster, as far as its fields are modelled; the settings of
the audit, of the MQTT client and of the shadow store are computed for their
exceptions only.  Five of the settings are computed here and nowhere else: the
admin IP list, the admin rate limit, the secret of the tokens and their two
lifetimes.  No step of the server changes them.
-/

namespace BabilCors

open Py IpAddress TransitionRuns

section Settings

variable {F : Type} [PyFloat F]

/-- `int((cfg.security or {}).get(key, default) or default)`. -/
def securityInt (security : Json F) (key : String) (default : ℤ) :
    Except PyErr ℤ := do
  let value ← securityD security key (.int default)
  (value.orElse (.int default)).pyInt

/-- `dict((cfg.security or {}).get(key, {}) or {})`. -/
def securityDict (security : Json F) (key : String) :
    Except PyErr (PyDict String (Json F)) := do
  let value ← securityD security key (.obj [])
  (value.orElse (.obj [])).toDict

def securityJwtSecret (environ : Env) (security : Json F) :
    Except PyErr String :=
  (securityD security "admin_jwt_secret" (.str "")).map fun secret =>
    resolveSecret environ secret.pyStr

end Settings

/-- The settings that are computed at the start only. -/
structure StartSettings where
  adminIpAllow : List IpNetwork
  adminRateLimitPerMin : ℤ
  adminJwtSecret : String
  adminJwtExpS : ℤ
  jwtRefreshExpS : ℤ
  deriving DecidableEq

variable {F : Type}

def startSettings [PyFloat F] (environ : Env) (cfg : CasterCfg F) :
    Except PyErr StartSettings := do
  return {
    adminIpAllow := ← securityNets cfg.security "admin_ip_allow"
    adminRateLimitPerMin :=
      ← securityInt cfg.security "admin_rate_limit_per_min" 60
    adminJwtSecret := ← securityJwtSecret environ cfg.security
    adminJwtExpS := ← securityInt cfg.security "admin_jwt_exp_s" 3600
    jwtRefreshExpS :=
      ← securityInt cfg.security "admin_jwt_refresh_exp_s" (7 * 24 * 3600) }

namespace NtripCaster

/-! ## The constructor -/

def init [PyFloat F] (environ : Env) (cfg : CasterCfg F)
    (cfgPath : Option String) (file : Except PyErr (Json F)) :
    Except PyErr (NtripCaster F) := do
  let security := cfg.security
  let ipAllow ← securityNets security "ip_allow"
  let ipDeny ← securityNets security "ip_deny"
  let adminToken ← securityToken environ security
  let requireMtls ← securityD security "require_mtls_for_source" (.bool false)
  let disabled ← securityDisabled security
  let adminIpAllow ← securityNets security "admin_ip_allow"
  let rateLimit ← securityInt security "admin_rate_limit_per_min" 60
  let _ ← securityInt security "audit_max_bytes" 1048576
  let _ ← securityInt security "audit_backups" 3
  let timeout ← securityD security "audit_http_timeout_s"
    (.float (PyFloat.ofInt 2))
  let _ ← (timeout.orElse (.float (PyFloat.ofInt 2))).pyFloat
  let _ ← securityDict security "audit_http_headers"
  let secret ← securityJwtSecret environ security
  let accessExpS ← securityInt security "admin_jwt_exp_s" 3600
  let refreshExpS ← securityInt security "admin_jwt_refresh_exp_s"
    (7 * 24 * 3600)
  let _ ← securityInt security "iot_mqtt_port" 1883
  let apiWsPort ← securityInt security "api_ws_port" 0
  let _ ← securityInt security "shadow_ttl_s" 86400
  let polygons ← securityD security "geofence_polygons" (.obj [])
  let diag ← securityDict security "diagnostics"
  return {
    caster := .new cfg requireMtls.truthy disabled
    environ := environ
    cfgPath := cfgPath
    file := file
    ipAllow := ipAllow
    ipDeny := ipDeny
    adminIpAllow := adminIpAllow
    adminToken := adminToken
    adminRateLimitPerMin := rateLimit
    adminBuckets := []
    jwt := ⟨secret, accessExpS, refreshExpS, [], none⟩
    audit := []
    apiWsPort := apiWsPort
    geofencePolygons := polygons
    diagCfg := diag }

def startSettings (s : NtripCaster F) : StartSettings where
  adminIpAllow := s.adminIpAllow
  adminRateLimitPerMin := s.adminRateLimitPerMin
  adminJwtSecret := s.jwt.secret
  adminJwtExpS := s.jwt.accessExpS
  jwtRefreshExpS := s.jwt.refreshExpS

/-- What the fields of a new server come from. -/
structure StartedWith [PyFloat F] (environ : Env) (cfg : CasterCfg F)
    (s : NtripCaster F) : Prop where
  start : BabilCors.startSettings environ cfg = .ok s.startSettings
  ipAllow : securityNets cfg.security "ip_allow" = .ok s.ipAllow
  ipDeny : securityNets cfg.security "ip_deny" = .ok s.ipDeny
  adminToken : securityToken environ cfg.security = .ok s.adminToken
  requireMtls : (securityD cfg.security "require_mtls_for_source"
    (.bool false)).map Json.truthy = .ok s.caster.requireMtlsForSource
  disabled : securityDisabled cfg.security = .ok s.caster.disabledMountpoints
  apiWsPort : securityInt cfg.security "api_ws_port" 0 = .ok s.apiWsPort
  polygons : securityD cfg.security "geofence_polygons" (.obj []) =
    .ok s.geofencePolygons
  diagCfg : securityDict cfg.security "diagnostics" = .ok s.diagCfg
  cfg : s.caster.cfg = cfg

theorem init_started [PyFloat F] {environ : Env} {cfg : CasterCfg F}
    {cfgPath : Option String} {file : Except PyErr (Json F)}
    {s : NtripCaster F} (hinit : init environ cfg cfgPath file = .ok s) :
    s.StartedWith environ cfg ∧ s.environ = environ ∧ s.cfgPath = cfgPath ∧
      s.file = file := by
  unfold init at hinit
  rcases bind_eq_ok.mp hinit with ⟨ipAllow, hallow, hinit⟩
  rcases bind_eq_ok.mp hinit with ⟨ipDeny, hdeny, hinit⟩
  rcases bind_eq_ok.mp hinit with ⟨adminToken, htoken, hinit⟩
  rcases bind_eq_ok.mp hinit with ⟨requireMtls, hmtls, hinit⟩
  rcases bind_eq_ok.mp hinit with ⟨disabled, hdisabled, hinit⟩
  rcases bind_eq_ok.mp hinit with ⟨adminIpAllow, hadmin, hinit⟩
  rcases bind_eq_ok.mp hinit with ⟨rateLimit, hrate, hinit⟩
  rcases bind_eq_ok.mp hinit with ⟨_, _, hinit⟩
  rcases bind_eq_ok.mp hinit with ⟨_, _, hinit⟩
  rcases bind_eq_ok.mp hinit with ⟨_, _, hinit⟩
  rcases bind_eq_ok.mp hinit with ⟨_, _, hinit⟩
  rcases bind_eq_ok.mp hinit with ⟨_, _, hinit⟩
  rcases bind_eq_ok.mp hinit with ⟨secret, hsecret, hinit⟩
  rcases bind_eq_ok.mp hinit with ⟨accessExpS, haccess, hinit⟩
  rcases bind_eq_ok.mp hinit with ⟨refreshExpS, hrefresh, hinit⟩
  rcases bind_eq_ok.mp hinit with ⟨_, _, hinit⟩
  rcases bind_eq_ok.mp hinit with ⟨apiWsPort, hport, hinit⟩
  rcases bind_eq_ok.mp hinit with ⟨_, _, hinit⟩
  rcases bind_eq_ok.mp hinit with ⟨polygons, hpolygons, hinit⟩
  rcases bind_eq_ok.mp hinit with ⟨diag, hdiag, hinit⟩
  cases hinit
  refine ⟨?_, rfl, rfl, rfl⟩
  constructor
  case start =>
    unfold BabilCors.startSettings
    rw [hadmin, hrate, hsecret, haccess, hrefresh]
    rfl
  case requireMtls =>
    rw [hmtls]
    rfl
  all_goals first
    | rfl
    | assumption

/-! ## The steps leave the start settings alone -/

structure SameStart (s s' : NtripCaster F) : Prop where
  settings : s'.startSettings = s.startSettings
  cfgPath : s'.cfgPath = s.cfgPath

theorem SameStart.refl (s : NtripCaster F) : SameStart s s :=
  ⟨rfl, rfl⟩

theorem SameStart.trans {s s' s'' : NtripCaster F} (hfirst : SameStart s s')
    (hsecond : SameStart s' s'') : SameStart s s'' :=
  ⟨hsecond.settings.trans hfirst.settings,
    hsecond.cfgPath.trans hfirst.cfgPath⟩

theorem SameStart.of_reloaded {s s' : NtripCaster F}
    (hsame : SameButReloaded s s') : SameStart s s' := by
  rcases hsame with ⟨_, _, _, _, _, _, _, _, _, rfl⟩
  exact ⟨rfl, rfl⟩

theorem SameStart.of_jwt {s : NtripCaster F} {jwt : JwtManager}
    (hsame : JwtManager.SameMint s.jwt jwt) :
    SameStart s { s with jwt := jwt } := by
  constructor
  · unfold startSettings
    simp only [hsame.secret, hsame.access, hsame.refresh]
  · rfl

section Handlers

variable [PyFloat F]

theorem updateConfig_start (s : NtripCaster F) (updater : Updater F)
    (diskError : Option PyErr) :
    SameStart s (s.updateConfig updater diskError).2 := by
  cases s.updateConfig_outcome updater diskError with
  | kept hwrite hs' =>
      rw [hs']
      exact .refl s
  | written raw hwrite hs' =>
      rw [hs']
      have hfile : SameStart s { s with file := .ok raw } := ⟨rfl, rfl⟩
      exact hfile.trans
        (.of_reloaded ({ s with file := .ok raw }).reloadFromDisk_reloaded.1)

theorem answerUpdate_start (s : NtripCaster F) (m : Moment)
    (updater : Updater F) (answer : Bool → String → Reply F)
    (failed : PyErr → Except PyErr (Reply F)) :
    SameStart s (s.answerUpdate m updater answer failed).server := by
  rw [answerUpdate_server]
  exact s.updateConfig_start updater m.diskError

theorem resource_start [SchemaLib F] {s : NtripCaster F} {b : Bearer F}
    {req : AdminRequest F} {body : Json F} {m : Moment} {o : Outcome F}
    (hresource : s.resource b req body m = some o) :
    SameStart s o.server := by
  have hfollows := s.resource_follows b req body m
  rw [hresource] at hfollows
  generalize resourceCall? b.principal req body = call? at hfollows
  cases hfollows with
  | calls call =>
      exact s.answerUpdate_start m call.updater call.answer call.failed
  | idle hkept =>
      rw [hkept o rfl]
      exact .refl s

theorem switchMountpoint_start (s : NtripCaster F) (b : Bearer F)
    (req : AdminRequest F) (body : Json F) (m : Moment) (action : String)
    (updater : String → Updater F) :
    SameStart s
      (s.switchMountpoint b req body m action updater).server := by
  cases s.switchMountpoint_outcome b req body m action updater with
  | kept hno hs' =>
      rw [hs']
      exact .refl s
  | updated value hmethod hvalue hname hs' =>
      rw [hs']
      have hupdate := s.updateConfig_start (updater value.pyStr) m.diskError
      exact ⟨hupdate.settings, hupdate.cfgPath⟩

theorem kick_start (s : NtripCaster F) (b : Bearer F) (req : AdminRequest F)
    (body : Json F) (m : Moment) :
    SameStart s (s.kick b req body m).server := by
  cases s.kick_outcome b req body m with
  | kept hno hs' =>
      rw [hs']
      exact .refl s
  | missed connv mpv hconnv hmpv htarget hs' =>
      rw [hs']
      exact ⟨rfl, rfl⟩
  | kicked connv mpv connId mp hmethod hconnv hmpv htarget hs' =>
      rw [hs']
      exact ⟨rfl, rfl⟩

theorem operation_start [Crypto] (s : NtripCaster F) (b : Bearer F)
    (req : AdminRequest F) (body : Json F) (m : Moment) :
    SameStart s (s.operation b req body m).server := by
  cases s.operation_outcome b req body m with
  | replied reply hreply ho =>
      rw [ho]
      exact .refl s
  | raised e ho =>
      rw [ho]
      exact .refl s
  | operates base hbase hpath hrole ho =>
      rcases ho with ⟨_, ho⟩ | ⟨_, ho⟩ | ⟨_, ho⟩
      · rw [ho]
        exact s.switchMountpoint_start b req body m "disable"
          disableMountpoint
      · rw [ho]
        exact s.switchMountpoint_start b req body m "enable" enableMountpoint
      · rw [ho]
        exact s.kick_start b req body m
  | passed ho =>
      rw [ho]
      exact ⟨rfl, rfl⟩

end Handlers

section Tokens

variable [PyFloat F] [JwtLib F]

theorem presentedRefresh_start (s : NtripCaster F) (rtok : String)
    (m : Moment) :
    SameStart s (s.presentedRefresh rtok m : Option (Claims F) × _).2 :=
  .of_jwt (s.jwt.decode_sameMint rtok "refresh" (m.time 2) (m.time 3))

omit [JwtLib F] in
theorem rotate_start (s : NtripCaster F) (claims : Claims F) (m : Moment) :
    SameStart s (s.rotate claims m) := by
  unfold rotate
  cases expOf claims with
  | error e => exact .refl s
  | ok exp => exact .of_jwt (s.jwt.revokeJti_sameMint _ exp _ _)

theorem tokenRefresh_start (s : NtripCaster F) (body : Json F)
    (m : Moment) : SameStart s (s.tokenRefresh body m).server := by
  cases s.tokenRefresh_outcome body m with
  | kept hs' =>
      rw [hs']
      exact .refl s
  | refused rtok hrtok hs' =>
      rw [hs']
      exact s.presentedRefresh_start rtok m
  | rotated rtok claims hrtok hclaims hs' =>
      rw [hs']
      exact (s.presentedRefresh_start rtok m).trans
        (rotate_start _ claims m)

theorem revocationOf_start (s : NtripCaster F) (body : Json F)
    (m : Moment) : SameStart s (s.revocationOf body m).2 := by
  unfold revocationOf
  dsimp only
  split
  · exact .refl s
  · split_ifs
    · split <;>
        exact .of_jwt (s.jwt.decode_sameMint _ _ (m.time 2) (m.time 3))
    · exact .refl s

theorem tokenRevoke_start (s : NtripCaster F) (b : Bearer F)
    (body : Json F) (m : Moment) :
    SameStart s (s.tokenRevoke b body m).server := by
  have hrevocation := s.revocationOf_start body m
  unfold tokenRevoke
  split_ifs
  · exact .refl s
  · generalize s.revocationOf body m = revocation at hrevocation ⊢
    rcases revocation with ⟨e | ⟨jti, exp⟩, s₁⟩
    · exact hrevocation
    · dsimp only
      split_ifs
      · exact hrevocation
      · have hrevoked := SameStart.of_jwt (s := s₁)
          (s₁.jwt.revokeJti_sameMint jti exp (m.time 4) (m.time 5))
        exact hrevocation.trans hrevoked

theorem authenticate_start [Crypto] (s : NtripCaster F)
    (req : AdminRequest F) (m : Moment) :
    SameStart s (s.authenticate req m).2 := by
  unfold authenticate
  by_cases hpublic : req.path ∈ AdminRequest.publicPaths
  · rw [if_pos hpublic]
    exact .refl s
  rw [if_neg hpublic]
  dsimp only
  by_cases htoken : s.jwt.secret ≠ "" ∧ req.bearer ≠ ""
  · rw [if_pos htoken]
    have hsame := SameStart.of_jwt (s.jwt.decode_sameMint (F := F)
      req.bearer "access" (m.time 0) (m.time 1))
    dsimp only
    split
    · exact hsame
    · split_ifs <;> exact hsame
  · rw [if_neg htoken]
    dsimp only
    split_ifs <;> exact .refl s

variable [Crypto] [SchemaLib F]

theorem dispatch_start (s : NtripCaster F) (b : Bearer F)
    (req : AdminRequest F) (m : Moment) :
    SameStart s (s.dispatch b req m).server := by
  unfold dispatch
  dsimp only
  split_ifs
  · rw [login_server]
    exact .refl s
  · exact s.tokenRefresh_start _ m
  · exact s.tokenRevoke_start b _ m
  · exact .refl s
  · cases hresource : s.resource b req req.bodyJson m with
    | none => exact s.operation_start b req req.bodyJson m
    | some o => exact resource_start hresource

theorem handleAdmin_start (s : NtripCaster F) (req : AdminRequest F)
    (m : Moment) : SameStart s (s.handleAdmin req m).server := by
  have hbuckets (buckets : PyDict String TokenBucket) :
      SameStart s (s.withBuckets buckets) := ⟨rfl, rfl⟩
  cases s.handleAdmin_gate req m with
  | filtered buckets reply hreply ho =>
      rw [ho]
      exact hbuckets buckets
  | unauthenticated buckets s' hauth ho =>
      have hsame := (s.withBuckets buckets).authenticate_start req m
      rw [hauth] at hsame
      rw [ho]
      exact (hbuckets buckets).trans hsame
  | authenticated buckets b s' hauth ho =>
      have hsame := (s.withBuckets buckets).authenticate_start req m
      rw [hauth] at hsame
      have hs' := (hbuckets buckets).trans hsame
      rcases ho with ho | ho
      · rw [ho]
        exact hs'
      · rw [ho]
        exact hs'.trans (s'.dispatch_start b req m)

theorem step_start {s s' : NtripCaster F} {event : Event F}
    (hstep : s.step event = some s') : SameStart s s' := by
  cases event with
  | connection event =>
      rcases Option.map_eq_some_iff.mp hstep with ⟨c, hc, rfl⟩
      exact ⟨rfl, rfl⟩
  | admin req m =>
      obtain rfl := Option.some.inj hstep
      exact s.handleAdmin_start req m
  | snapshot mountpoint =>
      obtain rfl := Option.some.inj hstep
      exact .refl s
  | reload =>
      obtain rfl := Option.some.inj hstep
      exact .of_reloaded s.reloadFromDisk_reloaded.1

end Tokens

end NtripCaster

end BabilCors
