import BabilCors.Caster
import BabilCors.ConfigDocument

/-!
# The administered server

The streaming server with what the admin interface reads and writes: the
configuration file, the settings that a reload takes over, the token manager,
the rate buckets and the audit.  The file is what opening and parsing it gives;
writing a document and reading it back gives the document.
-/

namespace BabilCors

open Py IpAddress

structure AuditItem (F : Type) where
  ts : ℚ
  action : String
  clientIp : String
  traceId : String
  ok : Bool
  detail : PyDict String (Json F)

structure NtripCaster (F : Type) where
  caster : Caster F
  environ : Env
  cfgPath : Option String
  file : Except PyErr (Json F)
  ipAllow : List IpNetwork
  ipDeny : List IpNetwork
  adminIpAllow : List IpNetwork
  adminToken : String
  adminRateLimitPerMin : ℤ
  adminBuckets : PyDict String TokenBucket
  jwt : JwtManager
  audit : List (AuditItem F)
  apiWsPort : ℤ
  geofencePolygons : Json F
  diagCfg : PyDict String (Json F)

/-- What a request reads of its surroundings: the clocks, fresh ids, and the
exception of the first file operation that fails after the updater, if one
does. -/
structure Moment where
  time : ℕ → ℤ
  monotonic : ℚ
  uuid : ℕ → String
  diskError : Option PyErr

def applyUntilError {σ : Type} : List (σ → Except PyErr σ) → σ → σ
  | [], s => s
  | step :: steps, s =>
      match step s with
      | .ok s => applyUntilError steps s
      | .error _ => s

theorem applyUntilError_cons_ok {σ : Type} {step : σ → Except PyErr σ}
    {steps : List (σ → Except PyErr σ)} {s s' : σ} (hstep : step s = .ok s') :
    applyUntilError (step :: steps) s = applyUntilError steps s' := by
  simp [applyUntilError, hstep]

theorem applyUntilError_cons_error {σ : Type} {step : σ → Except PyErr σ}
    {steps : List (σ → Except PyErr σ)} {s : σ} {e : PyErr}
    (hstep : step s = .error e) : applyUntilError (step :: steps) s = s := by
  simp [applyUntilError, hstep]

theorem applyUntilError_preserves {σ : Type} {P : σ → Prop}
    {steps : List (σ → Except PyErr σ)}
    (hstep : ∀ step ∈ steps, ∀ s s', P s → step s = .ok s' → P s') (s : σ)
    (hs : P s) : P (applyUntilError steps s) := by
  induction steps generalizing s with
  | nil => exact hs
  | cons step steps ih =>
      have hrest : ∀ step ∈ steps, ∀ s s', P s → step s = .ok s' → P s' := by
        intro later hlater
        exact hstep later (List.mem_cons_of_mem step hlater)
      cases hnext : step s with
      | error e =>
          rw [applyUntilError_cons_error hnext]
          exact hs
      | ok s' =>
          rw [applyUntilError_cons_ok hnext]
          exact ih hrest s' (hstep step List.mem_cons_self s s' hs hnext)

variable {F : Type} [PyFloat F]

/-! ## Settings of the security section -/

/-- `(cfg.security or {}).get(key, default)`. -/
def securityD (security : Json F) (key : String) (default : Json F) :
    Except PyErr (Json F) :=
  (security.orElse (.obj [])).getD key default

/-- `compile_ip_nets(security.get(key, []))` of a dictionary. -/
def securityNets (security : Json F) (key : String) :
    Except PyErr (List IpNetwork) :=
  if security.isObj then security.getD key (.arr []) >>= compileIpNets
  else .ok []

def securityToken (environ : Env) (security : Json F) :
    Except PyErr String :=
  (securityD security "admin_token" (.str "")).map fun token =>
    resolveSecret environ token.pyStr

def securityDisabled (security : Json F) : Except PyErr (List (Json F)) :=
  securityD security "disabled_mountpoints" (.arr []) >>= Json.toSet

/-- `configure_logging_ex`: the level is an attribute of the logging module,
and two of the attributes are no level. -/
def configureLoggingEx (cfg : LoggingCfg) : Except PyErr Unit :=
  if upper cfg.level = "BASIC_FORMAT" then
    .error (.valueError
      "Unknown level: '%(levelname)s:%(name)s:%(message)s'")
  else if upper cfg.level = "_STYLES" then
    .error (.typeError "Level not an integer or a valid string")
  else
    .ok ()

namespace NtripCaster

/-! ## Reload and update -/

def reloadSteps (cfg : CasterCfg F) :
    List (NtripCaster F → Except PyErr (NtripCaster F)) :=
  [fun s => .ok { s with caster := { s.caster with cfg := cfg } },
    fun s => (configureLoggingEx cfg.logging).map fun _ => s,
    fun s => (securityNets cfg.security "ip_allow").map fun nets =>
      { s with ipAllow := nets },
    fun s => (securityNets cfg.security "ip_deny").map fun nets =>
      { s with ipDeny := nets },
    fun s => (securityToken s.environ cfg.security).map fun token =>
      { s with adminToken := token },
    fun s => (securityD cfg.security "require_mtls_for_source"
      (.bool false)).map fun value =>
        { s with
          caster := { s.caster with requireMtlsForSource := value.truthy } },
    fun s => (securityDisabled cfg.security).map fun disabled =>
      { s with
        caster := { s.caster with disabledMountpoints := disabled } },
    fun s => do
      let port := (← securityD cfg.security "api_ws_port" (.int 0)).orElse
        (.int 0)
      return { s with apiWsPort := ← port.pyInt },
    fun s => (securityD cfg.security "geofence_polygons" (.obj [])).map
      fun polygons => { s with geofencePolygons := polygons },
    fun s => do
      let diag := (← securityD cfg.security "diagnostics" (.obj [])).orElse
        (.obj [])
      return { s with diagCfg := ← diag.toDict }]

def checkedConfig (environ : Env) (raw : Json F) :
    Except PyErr (CasterCfg F) := do
  let cfg ← loadConfig environ raw
  validateConfig cfg
  return cfg

def reloadFromDisk (s : NtripCaster F) : NtripCaster F :=
  match s.cfgPath, s.file >>= checkedConfig s.environ with
  | some _, .ok cfg => applyUntilError (reloadSteps cfg) s
  | _, _ => s

/-- The document that an update puts in the place of the file, or the exception
that keeps it from that. -/
def committed (s : NtripCaster F) (updater : Updater F)
    (diskError : Option PyErr) : Except PyErr (Json F) := do
  let raw ← updater (← s.file)
  match diskError with
  | some e => throw e
  | none =>
      let _ ← checkedConfig s.environ raw
      return raw

/-- `_admin_update_config`: an exception is a failed update, but a
`PermissionError` is passed on. -/
def updateConfig (s : NtripCaster F) (updater : Updater F)
    (diskError : Option PyErr) :
    Except PyErr (Bool × String) × NtripCaster F :=
  match s.cfgPath with
  | none => (.ok (false, "config_path_missing"), s)
  | some _ =>
      match s.committed updater diskError with
      | .ok raw =>
          (.ok (true, "ok"), ({ s with file := .ok raw }).reloadFromDisk)
      | .error (.permissionError text) => (.error (.permissionError text), s)
      | .error e => (.ok (false, e.message), s)

def write? (s : NtripCaster F) (updater : Updater F)
    (diskError : Option PyErr) : Option (Json F) :=
  if s.cfgPath.isNone then none
  else (s.committed updater diskError).toOption

/-! ## Rate limit and audit -/

omit [PyFloat F] in
/-- `_admin_rate_ok` in exact arithmetic: the conversion of the limit to a
float does not raise. -/
def adminRateOk (s : NtripCaster F) (ip : String) (now : ℚ) :
    Bool × NtripCaster F :=
  if s.adminRateLimitPerMin ≤ 0 then (true, s)
  else
    let rps : ℚ := max (s.adminRateLimitPerMin / 60) (1 / 1000)
    let cap : ℚ := max s.adminRateLimitPerMin 1
    let bucket := (s.adminBuckets.get? ip).getD (.new rps cap now)
    let (ok, bucket) := bucket.consume 1 now
    (ok, { s with adminBuckets := s.adminBuckets.set ip bucket })

omit [PyFloat F] in
/-- `_audit_add`, as far as the deque goes: it keeps the last thousand. -/
def auditAdd (s : NtripCaster F) (item : AuditItem F) : NtripCaster F :=
  let audit := s.audit ++ [item]
  { s with audit := audit.drop (audit.length - 1000) }

/-! ## What a reload and an update change -/

structure SameButSettings (s s' : NtripCaster F) : Prop where
  file : s'.file = s.file
  cfgPath : s'.cfgPath = s.cfgPath
  environ : s'.environ = s.environ
  jwt : s'.jwt = s.jwt
  audit : s'.audit = s.audit
  mountpoints : s'.caster.mountpoints = s.caster.mountpoints
  rovers : s'.caster.rovers = s.caster.rovers

/-- The servers differ at most in the fields that a reload assigns. -/
def SameButReloaded (s s' : NtripCaster F) : Prop :=
  ∃ cfg mtls disabled ipAllow ipDeny token port polygons diag, s' = { s with
    caster := { s.caster with
      cfg := cfg
      requireMtlsForSource := mtls
      disabledMountpoints := disabled }
    ipAllow := ipAllow
    ipDeny := ipDeny
    adminToken := token
    apiWsPort := port
    geofencePolygons := polygons
    diagCfg := diag }

omit [PyFloat F] in
theorem SameButReloaded.refl (s : NtripCaster F) : SameButReloaded s s :=
  ⟨_, _, _, _, _, _, _, _, _, rfl⟩

omit [PyFloat F] in
theorem SameButReloaded.trans {s s' s'' : NtripCaster F}
    (hfirst : SameButReloaded s s') (hsecond : SameButReloaded s' s'') :
    SameButReloaded s s'' := by
  rcases hfirst with ⟨_, _, _, _, _, _, _, _, _, rfl⟩
  rcases hsecond with ⟨_, _, _, _, _, _, _, _, _, rfl⟩
  exact ⟨_, _, _, _, _, _, _, _, _, rfl⟩

omit [PyFloat F] in
theorem SameButReloaded.settings {s s' : NtripCaster F}
    (hsame : SameButReloaded s s') : SameButSettings s s' := by
  rcases hsame with ⟨_, _, _, _, _, _, _, _, _, rfl⟩
  exact ⟨rfl, rfl, rfl, rfl, rfl, rfl, rfl⟩

/-- One assignment of a reload: the disabled mountpoints stay, or they are
those of the new configuration. -/
theorem reloadSteps_keep {cfg : CasterCfg F}
    {step : NtripCaster F → Except PyErr (NtripCaster F)}
    (hmem : step ∈ reloadSteps cfg) {s s' : NtripCaster F}
    (hstep : step s = .ok s') :
    SameButReloaded s s' ∧
      (s'.caster.disabledMountpoints = s.caster.disabledMountpoints ∨
        securityDisabled cfg.security =
          .ok s'.caster.disabledMountpoints) := by
  simp only [reloadSteps, List.mem_cons, List.not_mem_nil, or_false] at hmem
  rcases hmem with rfl | rfl | rfl | rfl | rfl | rfl | rfl | rfl | rfl | rfl
  · cases hstep
    exact ⟨⟨_, _, _, _, _, _, _, _, _, rfl⟩, .inl rfl⟩
  · rcases map_eq_ok.mp hstep with ⟨_, _, rfl⟩
    exact ⟨.refl s, .inl rfl⟩
  · rcases map_eq_ok.mp hstep with ⟨_, _, rfl⟩
    exact ⟨⟨_, _, _, _, _, _, _, _, _, rfl⟩, .inl rfl⟩
  · rcases map_eq_ok.mp hstep with ⟨_, _, rfl⟩
    exact ⟨⟨_, _, _, _, _, _, _, _, _, rfl⟩, .inl rfl⟩
  · rcases map_eq_ok.mp hstep with ⟨_, _, rfl⟩
    exact ⟨⟨_, _, _, _, _, _, _, _, _, rfl⟩, .inl rfl⟩
  · rcases map_eq_ok.mp hstep with ⟨_, _, rfl⟩
    exact ⟨⟨_, _, _, _, _, _, _, _, _, rfl⟩, .inl rfl⟩
  · rcases map_eq_ok.mp hstep with ⟨disabled, hdisabled, rfl⟩
    exact ⟨⟨_, _, _, _, _, _, _, _, _, rfl⟩, .inr hdisabled⟩
  · rcases bind_eq_ok.mp hstep with ⟨_, _, hport⟩
    rcases bind_eq_ok.mp hport with ⟨_, _, hs'⟩
    cases hs'
    exact ⟨⟨_, _, _, _, _, _, _, _, _, rfl⟩, .inl rfl⟩
  · rcases map_eq_ok.mp hstep with ⟨_, _, rfl⟩
    exact ⟨⟨_, _, _, _, _, _, _, _, _, rfl⟩, .inl rfl⟩
  · rcases bind_eq_ok.mp hstep with ⟨_, _, hdiag⟩
    rcases bind_eq_ok.mp hdiag with ⟨_, _, hs'⟩
    cases hs'
    exact ⟨⟨_, _, _, _, _, _, _, _, _, rfl⟩, .inl rfl⟩

/-- A reload changes nothing but its fields, and the disabled mountpoints only
to those of the file. -/
theorem reloadFromDisk_reloaded (s : NtripCaster F) :
    SameButReloaded s s.reloadFromDisk ∧
      (s.reloadFromDisk.caster.disabledMountpoints =
          s.caster.disabledMountpoints ∨
        ∃ cfg, s.file >>= checkedConfig s.environ = .ok cfg ∧
          securityDisabled cfg.security =
            .ok s.reloadFromDisk.caster.disabledMountpoints) := by
  unfold reloadFromDisk
  cases s.cfgPath with
  | none => exact ⟨.refl s, .inl rfl⟩
  | some path =>
      cases hcfg : s.file >>= checkedConfig s.environ with
      | error e => exact ⟨.refl s, .inl rfl⟩
      | ok cfg =>
          have hsteps : ∀ step ∈ reloadSteps cfg, ∀ s₁ s₂ : NtripCaster F,
              SameButReloaded s s₁ ∧
                (s₁.caster.disabledMountpoints =
                    s.caster.disabledMountpoints ∨
                  securityDisabled cfg.security =
                    .ok s₁.caster.disabledMountpoints) →
              step s₁ = .ok s₂ →
              SameButReloaded s s₂ ∧
                (s₂.caster.disabledMountpoints =
                    s.caster.disabledMountpoints ∨
                  securityDisabled cfg.security =
                    .ok s₂.caster.disabledMountpoints) := by
            rintro step hmem s₁ s₂ ⟨hsame, hdisabled⟩ hstep
            rcases reloadSteps_keep hmem hstep with ⟨hnext, hkept | hnew⟩
            · rw [hkept]
              exact ⟨hsame.trans hnext, hdisabled⟩
            · exact ⟨hsame.trans hnext, .inr hnew⟩
          have hkeep := applyUntilError_preserves hsteps s
            ⟨.refl s, .inl rfl⟩
          rcases hkeep with ⟨hsame, hdisabled⟩
          refine ⟨hsame, ?_⟩
          rcases hdisabled with hkept | hnew
          · exact .inl hkept
          · exact .inr ⟨cfg, rfl, hnew⟩

theorem reloadFromDisk_keeps (s : NtripCaster F) :
    SameButSettings s s.reloadFromDisk ∧
      (s.reloadFromDisk.caster.disabledMountpoints =
          s.caster.disabledMountpoints ∨
        ∃ cfg, s.file >>= checkedConfig s.environ = .ok cfg ∧
          securityDisabled cfg.security =
            .ok s.reloadFromDisk.caster.disabledMountpoints) :=
  ⟨s.reloadFromDisk_reloaded.1.settings, s.reloadFromDisk_reloaded.2⟩

/-- An update writes nothing and leaves the server as it was, or it puts its
document in the place of the file and reloads. -/
inductive UpdateOutcome (s : NtripCaster F) (updater : Updater F)
    (diskError : Option PyErr) (s' : NtripCaster F) : Prop
  | kept (hwrite : s.write? updater diskError = none) (hs' : s' = s)
  | written (raw : Json F) (hwrite : s.write? updater diskError = some raw)
      (hs' : s' = ({ s with file := .ok raw }).reloadFromDisk)

theorem updateConfig_outcome (s : NtripCaster F) (updater : Updater F)
    (diskError : Option PyErr) :
    UpdateOutcome s updater diskError (s.updateConfig updater diskError).2 := by
  unfold updateConfig
  cases hpath : s.cfgPath with
  | none =>
      have hwrite : s.write? updater diskError = none := by
        simp [write?, hpath]
      exact .kept hwrite rfl
  | some path =>
      have hwrite : s.write? updater diskError =
          (s.committed updater diskError).toOption := by
        simp [write?, hpath]
      cases hcommitted : s.committed updater diskError with
      | ok raw =>
          rw [hcommitted] at hwrite
          refine .written raw hwrite ?_
          rw [hpath]
      | error e =>
          rw [hcommitted] at hwrite
          cases e <;> exact .kept hwrite rfl

theorem write?_eq_some {s : NtripCaster F} {updater : Updater F}
    {diskError : Option PyErr} {raw' : Json F}
    (hwrite : s.write? updater diskError = some raw') :
    ∃ raw, s.file = .ok raw ∧ updater raw = .ok raw' ∧
      ∃ cfg, checkedConfig s.environ raw' = .ok cfg := by
  unfold write? at hwrite
  split_ifs at hwrite
  cases hcommitted : s.committed updater diskError with
  | error e =>
      rw [hcommitted] at hwrite
      cases hwrite
  | ok written =>
      rw [hcommitted] at hwrite
      obtain rfl := Option.some.inj hwrite
      rcases bind_eq_ok.mp hcommitted with ⟨raw, hfile, hupdated⟩
      rcases bind_eq_ok.mp hupdated with ⟨raw', hraw', hchecked⟩
      cases diskError with
      | some e => cases hchecked
      | none =>
          rcases bind_eq_ok.mp hchecked with ⟨cfg, hcfg, hwritten⟩
          obtain rfl := Except.ok.inj hwritten
          exact ⟨raw, hfile, hraw', cfg, hcfg⟩

theorem cfgPath_of_write? {s : NtripCaster F} {updater : Updater F}
    {diskError : Option PyErr} {raw : Json F}
    (hwrite : s.write? updater diskError = some raw) :
    s.cfgPath.isSome := by
  unfold write? at hwrite
  split_ifs at hwrite with hpath
  rwa [Option.isNone_iff_eq_none, ← Ne, ← Option.isSome_iff_ne_none] at hpath

end NtripCaster

end BabilCors
