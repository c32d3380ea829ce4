import BabilCors.ServerStart

/-!
# Reload and restart

A reload that runs to its end leaves the server that a start with the new file
gives, with the history of the old one, up to the settings that only a start
computes.
-/

namespace BabilCors

open Py IpAddress TransitionRuns

variable {F : Type}

/-- The settings that accepting and rejecting depends on. -/
structure AccessSettings (F : Type) where
  ipAllow : List IpNetwork
  ipDeny : List IpNetwork
  start : StartSettings
  adminToken : String
  requireMtlsForSource : Bool
  disabledMountpoints : List (Json F)
  users : PyDict String UserRecord
  tiers : PyDict String Tier
  sourcePassword : String

namespace NtripCaster

def accessSettings (s : NtripCaster F) : AccessSettings F where
  ipAllow := s.ipAllow
  ipDeny := s.ipDeny
  start := s.startSettings
  adminToken := s.adminToken
  requireMtlsForSource := s.caster.requireMtlsForSource
  disabledMountpoints := s.caster.disabledMountpoints
  users := s.caster.cfg.users
  tiers := s.caster.cfg.tiers
  sourcePassword := s.caster.cfg.sources.password

/-- The server with the sessions, hubs and counters, the rate buckets, the
revoked tokens and the audit of another. -/
def withHistory (s old : NtripCaster F) : NtripCaster F :=
  { s with
    caster := { old.caster with
      cfg := s.caster.cfg
      requireMtlsForSource := s.caster.requireMtlsForSource
      disabledMountpoints := s.caster.disabledMountpoints }
    adminBuckets := old.adminBuckets
    jwt := { s.jwt with revoked := old.jwt.revoked, redis := old.jwt.redis }
    audit := old.audit }

section Reload

variable [PyFloat F]

/-- All assignments of a reload, or the exception that ends it. -/
def assignAll (cfg : CasterCfg F) (s : NtripCaster F) :
    Except PyErr (NtripCaster F) :=
  (reloadSteps cfg).foldlM (fun s step => step s) s

/-- A reload that runs to its end. -/
structure Reloads (s : NtripCaster F) (cfg : CasterCfg F)
    (s' : NtripCaster F) : Prop where
  path : s.cfgPath.isSome
  loaded : s.file >>= checkedConfig s.environ = .ok cfg
  steps : assignAll cfg s = .ok s'

theorem applyUntilError_of_foldlM {σ : Type}
    {steps : List (σ → Except PyErr σ)} {s s' : σ}
    (hsteps : steps.foldlM (fun s step => step s) s = .ok s') :
    applyUntilError steps s = s' := by
  induction steps generalizing s with
  | nil => exact Except.ok.inj hsteps
  | cons step steps ih =>
      rcases bind_eq_ok.mp hsteps with ⟨next, hstep, hrest⟩
      rw [applyUntilError_cons_ok hstep]
      exact ih hrest

theorem Reloads.reloadFromDisk {s s' : NtripCaster F} {cfg : CasterCfg F}
    (hreload : s.Reloads cfg s') : s.reloadFromDisk = s' := by
  unfold NtripCaster.reloadFromDisk
  rcases Option.isSome_iff_exists.mp hreload.path with ⟨path, hpath⟩
  rw [hpath, hreload.loaded]
  exact applyUntilError_of_foldlM hreload.steps

omit [PyFloat F] in
/-- The server after the assignments of a reload. -/
def assigned (s : NtripCaster F) (cfg : CasterCfg F)
    (ipAllow ipDeny : List IpNetwork) (token : String) (mtls : Bool)
    (disabled : List (Json F)) (port : ℤ) (polygons : Json F)
    (diag : PyDict String (Json F)) : NtripCaster F :=
  { s with
    caster := { s.caster with
      cfg := cfg
      requireMtlsForSource := mtls
      disabledMountpoints := disabled }
    ipAllow := ipAllow
    ipDeny := ipDeny
    adminToken := token
    apiWsPort := port
    geofencePolygons := polygons
    diagCfg := diag }

/-- Where a start raises nothing, a reload can raise at the logging only, and
it assigns the values of the start. -/
theorem assignAll_eq {s fresh : NtripCaster F} {cfg : CasterCfg F}
    (hfresh : fresh.StartedWith s.environ cfg) :
    assignAll cfg s =
      (configureLoggingEx cfg.logging).map fun _ =>
        s.assigned fresh.caster.cfg fresh.ipAllow fresh.ipDeny
          fresh.adminToken fresh.caster.requireMtlsForSource
          fresh.caster.disabledMountpoints fresh.apiWsPort
          fresh.geofencePolygons fresh.diagCfg := by
  rcases map_eq_ok.mp hfresh.requireMtls with ⟨mtls, hmtls, htruthy⟩
  rcases bind_eq_ok.mp hfresh.apiWsPort with ⟨portv, hportv, hport⟩
  rcases bind_eq_ok.mp hfresh.diagCfg with ⟨diagv, hdiagv, hdiag⟩
  cases hlogging : configureLoggingEx cfg.logging with
  | error e =>
      simp only [assignAll, reloadSteps, List.foldlM_cons, hlogging]
      rfl
  | ok _ =>
      simp only [assignAll, reloadSteps, List.foldlM_cons, hlogging,
        hfresh.ipAllow, hfresh.ipDeny, hmtls, hfresh.disabled, hportv,
        hfresh.polygons, hdiagv]
      simp only [bind, Except.bind, Except.map, hfresh.adminToken, hport,
        hdiag, ← htruthy, hfresh.cfg]
      rfl

theorem exists_reloads {s fresh : NtripCaster F} {cfg : CasterCfg F}
    (hpath : s.cfgPath.isSome)
    (hloaded : s.file >>= checkedConfig s.environ = .ok cfg)
    (hlogging : configureLoggingEx cfg.logging = .ok ())
    (hfresh : fresh.StartedWith s.environ cfg) :
    ∃ s', s.Reloads cfg s' := by
  have hsteps := assignAll_eq hfresh
  rw [hlogging] at hsteps
  exact ⟨_, hpath, hloaded, hsteps⟩

theorem Reloads.eq_started {s s' fresh : NtripCaster F} {cfg : CasterCfg F}
    (hreload : s.Reloads cfg s') (hfresh : fresh.StartedWith s.environ cfg) :
    s' = s.assigned fresh.caster.cfg fresh.ipAllow fresh.ipDeny
      fresh.adminToken fresh.caster.requireMtlsForSource
      fresh.caster.disabledMountpoints fresh.apiWsPort
      fresh.geofencePolygons fresh.diagCfg := by
  have hsteps := hreload.steps
  rw [assignAll_eq hfresh] at hsteps
  rcases map_eq_ok.mp hsteps with ⟨_, _, hs'⟩
  exact hs'.symm

theorem startSettings_reloaded {s s' fresh : NtripCaster F}
    {cfg : CasterCfg F} (hreload : s.Reloads cfg s')
    (hfresh : fresh.StartedWith s.environ cfg) :
    s'.startSettings = s.startSettings := by
  rw [hreload.eq_started hfresh]
  rfl

theorem accessSettings_eq_iff {s s' fresh : NtripCaster F}
    {cfg : CasterCfg F} (hreload : s.Reloads cfg s')
    (hfresh : fresh.StartedWith s.environ cfg) :
    s'.accessSettings = fresh.accessSettings ↔
      s.startSettings = fresh.startSettings := by
  rw [← startSettings_reloaded hreload hfresh]
  constructor
  · intro haccess
    exact congrArg AccessSettings.start haccess
  · intro hstart
    unfold accessSettings
    rw [hstart, hreload.eq_started hfresh]
    rfl

theorem eq_withHistory {s s' fresh : NtripCaster F} {cfg : CasterCfg F}
    (hreload : s.Reloads cfg s')
    (hfresh : fresh.StartedWith s.environ cfg)
    (henviron : fresh.environ = s.environ)
    (hpath : fresh.cfgPath = s.cfgPath) (hfile : fresh.file = s.file)
    (hstart : s.startSettings = fresh.startSettings) :
    s' = fresh.withHistory s' := by
  have hadmin := congrArg StartSettings.adminIpAllow hstart
  have hrate := congrArg StartSettings.adminRateLimitPerMin hstart
  have hsecret := congrArg StartSettings.adminJwtSecret hstart
  have haccess := congrArg StartSettings.adminJwtExpS hstart
  have hrefresh := congrArg StartSettings.jwtRefreshExpS hstart
  dsimp only [startSettings] at hadmin hrate hsecret haccess hrefresh
  rw [hreload.eq_started hfresh]
  unfold withHistory assigned
  dsimp only
  rw [henviron, hpath, hfile, ← hadmin, ← hrate, ← hsecret, ← haccess,
    ← hrefresh]

end Reload

/-! ## The life of a server -/

/-- The server takes a step, its environment changes, or its file does. -/
inductive LifeEvent (F : Type) where
  | server (event : Event F)
  | environ (environ : Env)
  | file (file : Except PyErr (Json F))

section Life

variable [PyFloat F] [Crypto] [JwtLib F] [SchemaLib F]

def lifeStep (s : NtripCaster F) : LifeEvent F → Option (NtripCaster F)
  | .server event => s.step event
  | .environ environ => some { s with environ := environ }
  | .file file => some { s with file := file }

theorem lifeStep_start {s s' : NtripCaster F} {event : LifeEvent F}
    (hstep : s.lifeStep event = some s') : SameStart s s' := by
  cases event with
  | server event => exact step_start hstep
  | environ environ =>
      obtain rfl := Option.some.inj hstep
      exact ⟨rfl, rfl⟩
  | file file =>
      obtain rfl := Option.some.inj hstep
      exact ⟨rfl, rfl⟩

theorem run_lifeStep_start {s s' : NtripCaster F}
    {events : List (LifeEvent F)}
    (hrun : run lifeStep s events = some s') : SameStart s s' := by
  apply run_preserves (P := SameStart s) ?_ (.refl s) hrun
  intro state event next hstate hstep
  exact hstate.trans (lifeStep_start hstep)

/-- Whatever has happened since the start: the reload of a new file gives the
access settings of a restart, and but for its history the restarted server,
exactly when the two files agree on the settings of the start. -/
theorem reload_eq_restart_iff {environ : Env} {cfg cfg' : CasterCfg F}
    {path : String} {file : Except PyErr (Json F)}
    {s₀ s s' fresh : NtripCaster F} {events : List (LifeEvent F)}
    (hstart : init environ cfg (some path) file = .ok s₀)
    (hrun : run lifeStep s₀ events = some s)
    (hreload : s.Reloads cfg' s')
    (hfresh : init s.environ cfg' (some path) s.file = .ok fresh) :
    (s'.accessSettings = fresh.accessSettings ∧
        s' = fresh.withHistory s') ↔
      BabilCors.startSettings environ cfg =
        BabilCors.startSettings s.environ cfg' := by
  rcases init_started hstart with ⟨hstarted, _, hpath₀, _⟩
  rcases init_started hfresh with ⟨hfresh, henviron, hpath, hfile⟩
  have hsame := run_lifeStep_start hrun
  have hpath' : fresh.cfgPath = s.cfgPath := by
    rw [hsame.cfgPath, hpath₀, hpath]
  have hiff : BabilCors.startSettings environ cfg =
      BabilCors.startSettings s.environ cfg' ↔
        s.startSettings = fresh.startSettings := by
    rw [hstarted.start, hfresh.start, hsame.settings]
    constructor
    · exact fun hok => Except.ok.inj hok
    · exact congrArg Except.ok
  rw [hiff]
  constructor
  · rintro ⟨haccess, _⟩
    exact (accessSettings_eq_iff hreload hfresh).mp haccess
  · intro hsettings
    constructor
    · exact (accessSettings_eq_iff hreload hfresh).mpr hsettings
    · exact eq_withHistory hreload hfresh henviron hpath' hfile hsettings

end Life

end NtripCaster

/-! ## A list that a reload does not take -/

def sourceDocument (security : Json ℚ) : Json ℚ :=
  .obj [("sources", .obj [("password", .str "s3cret")]),
    ("security", security)]

def noEnviron : Env := fun _ => none

/-- Admin requests are for the hosts of one network. -/
def adminNetwork : Json ℚ :=
  .obj [("admin_ip_allow", .arr [.str "10.0.0.0/8"])]

def tokenSection : Json ℚ :=
  .obj [("admin_token", .str "t0ken")]

def strangerRequest : AdminRequest ℚ where
  method := "GET"
  path := "/admin/status"
  hasQuery := false
  headers := []
  body := none
  addr := "192.168.0.9:5000"
  clientIp := "192.168.0.9"
  traceId := "t1"

namespace NtripCaster

theorem exists_of_isOk {α : Type} {x : Except PyErr α}
    (hok : x.isOk = true) : ∃ value, x = .ok value := by
  cases x with
  | error e => cases hok
  | ok value => exact ⟨value, rfl⟩

theorem exists_start (security : Json ℚ)
    (hok : (checkedConfig noEnviron (sourceDocument security) >>= fun cfg =>
      configureLoggingEx cfg.logging >>= fun _ =>
        init noEnviron cfg (some "caster.json")
          (.ok (sourceDocument security))).isOk = true) :
    ∃ cfg s, checkedConfig noEnviron (sourceDocument security) = .ok cfg ∧
      configureLoggingEx cfg.logging = .ok () ∧
      init noEnviron cfg (some "caster.json")
        (.ok (sourceDocument security)) = .ok s := by
  rcases exists_of_isOk hok with ⟨s, hs⟩
  rcases bind_eq_ok.mp hs with ⟨cfg, hcfg, hs⟩
  rcases bind_eq_ok.mp hs with ⟨_, hlogging, hs⟩
  exact ⟨cfg, s, hcfg, hlogging, hs⟩

theorem reloads_of_start {s fresh : NtripCaster ℚ} {cfg : CasterCfg ℚ}
    {raw : Json ℚ} (henviron : s.environ = noEnviron)
    (hpath : s.cfgPath = some "caster.json")
    (hcfg : checkedConfig noEnviron raw = .ok cfg)
    (hlogging : configureLoggingEx cfg.logging = .ok ())
    (hfresh : fresh.StartedWith noEnviron cfg) :
    ∃ s', ({ s with file := .ok raw }).Reloads cfg s' := by
  rw [← henviron] at hcfg hfresh
  have hsome : s.cfgPath.isSome := by
    simp [hpath]
  exact exists_reloads hsome hcfg hlogging hfresh

/-- After the reload a stranger still passes the address check, which a
restarted server does not let him pass. -/
theorem reload_misses_admin_list :
    ∃ (cfg cfg' : CasterCfg ℚ) (s s' fresh : NtripCaster ℚ),
      checkedConfig noEnviron (sourceDocument (.obj [])) = .ok cfg ∧
      init noEnviron cfg (some "caster.json")
        (.ok (sourceDocument (.obj []))) = .ok s ∧
      ({ s with file := .ok (sourceDocument adminNetwork) }).Reloads cfg'
        s' ∧
      init noEnviron cfg' (some "caster.json")
        (.ok (sourceDocument adminNetwork)) = .ok fresh ∧
      s'.accessSettings ≠ fresh.accessSettings ∧
      s'.adminIpOk strangerRequest = true ∧
      fresh.adminIpOk strangerRequest = false := by
  rcases exists_start (.obj []) (by decide +kernel) with
    ⟨cfg, s, hcfg, _, hs⟩
  rcases exists_start adminNetwork (by decide +kernel) with
    ⟨cfg', fresh, hcfg', hlogging, hfresh⟩
  rcases init_started hs with ⟨hstarted, henviron, hpath, _⟩
  have hstarted' := (init_started hfresh).1
  rcases reloads_of_start henviron hpath hcfg' hlogging hstarted' with
    ⟨s', hreload⟩
  have hkept : s'.adminIpAllow = s.adminIpAllow := by
    rw [← henviron] at hstarted'
    rw [hreload.eq_started hstarted']
    rfl
  have hold : s.adminIpAllow = [] := by
    have hvalue : (checkedConfig noEnviron (sourceDocument (.obj [])) >>=
        fun cfg => BabilCors.startSettings noEnviron cfg).toOption.map
          StartSettings.adminIpAllow = some [] := by
      decide +kernel
    rw [hcfg] at hvalue
    change (BabilCors.startSettings noEnviron cfg).toOption.map _ = _
      at hvalue
    rw [hstarted.start] at hvalue
    exact Option.some.inj hvalue
  have hnew : ipAllowed "192.168.0.9" fresh.adminIpAllow [] = false := by
    have hvalue : (checkedConfig noEnviron (sourceDocument adminNetwork) >>=
        fun cfg => BabilCors.startSettings noEnviron cfg).toOption.map
          (fun st => ipAllowed "192.168.0.9" st.adminIpAllow []) =
        some false := by
      decide +kernel
    rw [hcfg'] at hvalue
    change (BabilCors.startSettings noEnviron cfg').toOption.map _ = _
      at hvalue
    rw [hstarted'.start] at hvalue
    exact Option.some.inj hvalue
  have hpasses : s'.adminIpOk strangerRequest = true := by
    unfold adminIpOk
    rw [hkept, hold]
    rfl
  have hstops : fresh.adminIpOk strangerRequest = false := by
    have hsome : fresh.adminIpAllow ≠ [] := by
      intro hempty
      rw [hempty] at hnew
      exact absurd hnew (by decide +kernel)
    unfold adminIpOk
    simp [hsome, strangerRequest, hnew]
  refine ⟨cfg, cfg', s, s', fresh, hcfg, hs, hreload, hfresh, ?_, hpasses,
    hstops⟩
  intro haccess
  have hstart : s'.startSettings = fresh.startSettings :=
    congrArg AccessSettings.start haccess
  have hlists : s'.adminIpAllow = fresh.adminIpAllow :=
    congrArg StartSettings.adminIpAllow hstart
  unfold adminIpOk at hpasses hstops
  rw [hlists, hstops] at hpasses
  cases hpasses

/-- A change of the token is taken. -/
theorem reload_takes_token :
    ∃ (cfg cfg' : CasterCfg ℚ) (s s' fresh : NtripCaster ℚ),
      init noEnviron cfg (some "caster.json")
        (.ok (sourceDocument (.obj []))) = .ok s ∧
      ({ s with file := .ok (sourceDocument tokenSection) }).Reloads cfg'
        s' ∧
      s'.accessSettings = fresh.accessSettings ∧
      s' = fresh.withHistory s' := by
  rcases exists_start (.obj []) (by decide +kernel) with
    ⟨cfg, s, hcfg, _, hs⟩
  rcases exists_start tokenSection (by decide +kernel) with
    ⟨cfg', fresh, hcfg', hlogging, hfresh⟩
  rcases init_started hs with ⟨hstarted, henviron, hpath, _⟩
  have hstarted' := (init_started hfresh).1
  rcases reloads_of_start henviron hpath hcfg' hlogging hstarted' with
    ⟨s', hreload⟩
  let edited : NtripCaster ℚ :=
    { s with file := .ok (sourceDocument tokenSection) }
  have hfresh' : init edited.environ cfg' (some "caster.json") edited.file =
      .ok fresh := by
    rw [← henviron] at hfresh
    exact hfresh
  have hagree : BabilCors.startSettings noEnviron cfg =
      BabilCors.startSettings edited.environ cfg' := by
    have hvalue : (checkedConfig noEnviron (sourceDocument (.obj [])) >>=
        fun cfg => BabilCors.startSettings noEnviron cfg).toOption =
      (checkedConfig noEnviron (sourceDocument tokenSection) >>=
        fun cfg => BabilCors.startSettings noEnviron cfg).toOption := by
      decide +kernel
    rw [hcfg, hcfg'] at hvalue
    change (BabilCors.startSettings noEnviron cfg).toOption =
      (BabilCors.startSettings noEnviron cfg').toOption at hvalue
    have henviron' : edited.environ = noEnviron := henviron
    rw [hstarted.start, hstarted'.start] at hvalue
    rw [henviron', hstarted.start, hstarted'.start]
    exact congrArg Except.ok (Option.some.inj hvalue)
  have hboth := (@reload_eq_restart_iff ℚ _ noDigest (oneToken []) anyBody
    noEnviron cfg cfg' "caster.json" _ s edited s' fresh
    [.file (.ok (sourceDocument tokenSection))]
    hs rfl hreload hfresh').mpr hagree
  exact ⟨cfg, cfg', s, s', fresh, hs, hreload, hboth⟩

end NtripCaster

end BabilCors
