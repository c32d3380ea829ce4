import BabilCors.AdminGate
import BabilCors.OrderedAssignments

/-!
# How much of a reload is done

`reload_from_disk` computes and assigns its nine fields one after the other,
and the first exception ends it.  A document that validates can still raise in
the middle; then the reload is whole only when what has been assigned, or what
has not, is as the document wants it anyway.
-/

namespace BabilCors

open Py IpAddress OrderedAssignments

inductive Setting where
  | cfg
  | ipAllow
  | ipDeny
  | adminToken
  | requireMtlsForSource
  | disabledMountpoints
  | apiWsPort
  | geofencePolygons
  | diagCfg
  deriving DecidableEq

/-- The disabled mountpoints are a set. -/
@[reducible] def Setting.Value (F : Type) : Setting → Type
  | .cfg => CasterCfg F
  | .ipAllow => List IpNetwork
  | .ipDeny => List IpNetwork
  | .adminToken => String
  | .requireMtlsForSource => Bool
  | .disabledMountpoints => Set (Json F)
  | .apiWsPort => ℤ
  | .geofencePolygons => Json F
  | .diagCfg => PyDict String (Json F)

variable {F : Type} [PyFloat F]

/-- The value that a configuration gives a field, or the exception of its
computation. -/
def derived (environ : Env) (cfg : CasterCfg F) :
    (k : Setting) → Except PyErr (k.Value F)
  | .cfg => .ok cfg
  | .ipAllow => securityNets cfg.security "ip_allow"
  | .ipDeny => securityNets cfg.security "ip_deny"
  | .adminToken => securityToken environ cfg.security
  | .requireMtlsForSource =>
      (securityD cfg.security "require_mtls_for_source" (.bool false)).map
        Json.truthy
  | .disabledMountpoints =>
      (securityDisabled cfg.security).map fun names => {name | name ∈ names}
  | .apiWsPort => do
      let port ← securityD cfg.security "api_ws_port" (.int 0)
      (port.orElse (.int 0)).pyInt
  | .geofencePolygons =>
      securityD cfg.security "geofence_polygons" (.obj [])
  | .diagCfg => do
      let diag ← securityD cfg.security "diagnostics" (.obj [])
      (diag.orElse (.obj [])).toDict

def securityOrder : List Setting :=
  [.ipAllow, .ipDeny, .adminToken, .requireMtlsForSource,
    .disabledMountpoints, .apiWsPort, .geofencePolygons, .diagCfg]

/-- The order of the assignments; an exception of the logging ends them behind
the first. -/
def reloadOrder (cfg : CasterCfg F) : List Setting :=
  if (configureLoggingEx cfg.logging).isOk then .cfg :: securityOrder
  else [.cfg]

/-! ## The disabled mountpoints of a document -/

/-- What a reload makes of the disabled mountpoints of the file. -/
def fileDisabled (raw : Json F) : Except PyErr (List (Json F)) := do
  let sec ← raw.getD "security" .null
  securityDisabled (sec.orElse (.obj []))

theorem orElse_obj (sec : PyDict String (Json F)) :
    (Json.obj sec).orElse (.obj []) = .obj sec := by
  cases sec <;> rfl

theorem loadConfig_security {environ : Env} {raw : Json F}
    {cfg : CasterCfg F} (hload : loadConfig environ raw = .ok cfg) :
    ∃ sec, raw.getD "security" .null = .ok sec ∧
      cfg.security = sec.orElse (.obj []) := by
  unfold loadConfig at hload
  rcases bind_eq_ok.mp hload with ⟨_, _, hload⟩
  rcases bind_eq_ok.mp hload with ⟨_, _, hload⟩
  rcases bind_eq_ok.mp hload with ⟨_, _, hload⟩
  rcases bind_eq_ok.mp hload with ⟨_, _, hload⟩
  rcases bind_eq_ok.mp hload with ⟨_, _, hload⟩
  rcases bind_eq_ok.mp hload with ⟨_, _, hload⟩
  rcases bind_eq_ok.mp hload with ⟨_, _, hload⟩
  rcases bind_eq_ok.mp hload with ⟨security, hsecurity, hload⟩
  rcases map_eq_ok.mp hsecurity with ⟨sec, hsec, rfl⟩
  repeat rcases bind_eq_ok.mp hload with ⟨_, _, hload⟩
  cases hload
  exact ⟨sec, hsec, rfl⟩

theorem fileDisabled_of_checkedConfig {environ : Env} {raw : Json F}
    {cfg : CasterCfg F}
    (hchecked : NtripCaster.checkedConfig environ raw = .ok cfg) :
    fileDisabled raw = securityDisabled cfg.security := by
  rcases bind_eq_ok.mp hchecked with ⟨loaded, hload, hvalid⟩
  rcases bind_eq_ok.mp hvalid with ⟨_, _, hsame⟩
  obtain rfl := Except.ok.inj hsame
  rcases loadConfig_security hload with ⟨sec, hsec, hsecurity⟩
  unfold fileDisabled
  rw [hsec, hsecurity]
  rfl

namespace NtripCaster

/-! ## The fields of the server -/

omit [PyFloat F] in
noncomputable def setting (s : NtripCaster F) : (k : Setting) → k.Value F
  | .cfg => s.caster.cfg
  | .ipAllow => s.ipAllow
  | .ipDeny => s.ipDeny
  | .adminToken => s.adminToken
  | .requireMtlsForSource => s.caster.requireMtlsForSource
  | .disabledMountpoints => {name | name ∈ s.caster.disabledMountpoints}
  | .apiWsPort => s.apiWsPort
  | .geofencePolygons => s.geofencePolygons
  | .diagCfg => s.diagCfg

/-- Every field is as it was, or every field has the value of the file. -/
def ReloadedWhole (s s' : NtripCaster F) : Prop :=
  s'.setting = s.setting ∨
    ∃ cfg, s.file >>= checkedConfig s.environ = .ok cfg ∧
      ∀ k, derived s.environ cfg k = .ok (s'.setting k)

/-! ## The assignments of the source -/

inductive AssignOutcome (environ : Env) (cfg : CasterCfg F) (k : Setting)
    (s : NtripCaster F) (r : Except PyErr (NtripCaster F)) : Prop
  | raised (e : PyErr) (hvalue : derived environ cfg k = .error e)
      (hr : r = .error e)
  | assigned (value : k.Value F) (s' : NtripCaster F)
      (hvalue : derived environ cfg k = .ok value) (hr : r = .ok s')
      (hsetting : s'.setting = Function.update s.setting k value)
      (henviron : s'.environ = s.environ)

def Assigns (environ : Env) (cfg : CasterCfg F)
    (step : NtripCaster F → Except PyErr (NtripCaster F)) (k : Setting) :
    Prop :=
  ∀ s, s.environ = environ → AssignOutcome environ cfg k s (step s)

theorem setting_applyUntilError {environ : Env} {cfg : CasterCfg F}
    {steps : List (NtripCaster F → Except PyErr (NtripCaster F))}
    {ks : List Setting}
    (hsteps : List.Forall₂ (Assigns environ cfg) steps ks)
    (s : NtripCaster F) (henviron : s.environ = environ) :
    (applyUntilError steps s).setting =
      assignInOrder (derived environ cfg) ks s.setting := by
  induction hsteps generalizing s with
  | nil => rfl
  | cons hstep _ ih =>
      cases hstep s henviron with
      | raised e hvalue hr =>
          rw [applyUntilError_cons_error hr, assignInOrder_cons_error hvalue]
      | assigned value s' hvalue hr hsetting henviron' =>
          rw [applyUntilError_cons_ok hr, assignInOrder_cons_ok hvalue,
            ← hsetting]
          exact ih s' (henviron'.trans henviron)

theorem assigns_map {environ : Env} {cfg : CasterCfg F} {k : Setting}
    {α : Type} {x : NtripCaster F → Except PyErr α}
    {put : α → NtripCaster F → NtripCaster F} {value : α → k.Value F}
    (hvalue : ∀ s, s.environ = environ →
      derived environ cfg k = (x s).map value)
    (henviron : ∀ a s, (put a s).environ = s.environ)
    (hsetting : ∀ a s,
      (put a s).setting = Function.update s.setting k (value a)) :
    Assigns environ cfg (fun s => (x s).map fun a => put a s) k := by
  intro s hs
  have hderived := hvalue s hs
  dsimp only
  cases hx : x s with
  | error e =>
      rw [hx] at hderived
      exact .raised e hderived rfl
  | ok a =>
      rw [hx] at hderived
      exact .assigned (value a) (put a s) hderived rfl (hsetting a s)
        (henviron a s)

omit [PyFloat F] in
theorem bind_bind_pure {α β γ : Type} (x : Except PyErr α)
    (f : α → Except PyErr β) (g : β → γ) :
    (x >>= fun a => f a >>= fun b => pure (g b)) = (x >>= f).map g := by
  cases x with
  | error e => rfl
  | ok a =>
      change (f a >>= fun b => pure (g b)) = (f a).map g
      cases f a <;> rfl

theorem reloadSteps_assign (environ : Env) (cfg : CasterCfg F) :
    List.Forall₂ (Assigns environ cfg) ((reloadSteps cfg).drop 2)
      securityOrder := by
  have hid {α : Type} (x : Except PyErr α) : x = x.map id := by
    cases x <;> rfl
  refine .cons ?_ <| .cons ?_ <| .cons ?_ <| .cons ?_ <| .cons ?_ <|
    .cons ?_ <| .cons ?_ <| .cons ?_ .nil
  · refine assigns_map (fun _ _ => hid _) (fun nets s => rfl) ?_
    intro nets s
    funext k
    cases k <;> rfl
  · refine assigns_map (fun _ _ => hid _) (fun nets s => rfl) ?_
    intro nets s
    funext k
    cases k <;> rfl
  · have hvalue (s : NtripCaster F) (hs : s.environ = environ) :
        derived environ cfg .adminToken =
          (securityToken s.environ cfg.security).map id := by
      rw [hs]
      exact hid _
    refine assigns_map hvalue (fun token s => rfl) ?_
    intro token s
    funext k
    cases k <;> rfl
  · refine assigns_map (fun _ _ => rfl) (fun value s => rfl) ?_
    intro value s
    funext k
    cases k <;> rfl
  · refine assigns_map (fun _ _ => rfl) (fun names s => rfl) ?_
    intro names s
    funext k
    cases k <;> rfl
  · change Assigns environ cfg (fun s =>
      securityD cfg.security "api_ws_port" (.int 0) >>= fun port =>
        (port.orElse (.int 0)).pyInt >>= fun port =>
          pure { s with apiWsPort := port }) .apiWsPort
    simp only [bind_bind_pure]
    refine assigns_map (fun _ _ => hid _) (fun port s => rfl) ?_
    intro port s
    funext k
    cases k <;> rfl
  · refine assigns_map (fun _ _ => hid _) (fun polygons s => rfl) ?_
    intro polygons s
    funext k
    cases k <;> rfl
  · change Assigns environ cfg (fun s =>
      securityD cfg.security "diagnostics" (.obj []) >>= fun diag =>
        (diag.orElse (.obj [])).toDict >>= fun diag =>
          pure { s with diagCfg := diag }) .diagCfg
    simp only [bind_bind_pure]
    refine assigns_map (fun _ _ => hid _) (fun diag s => rfl) ?_
    intro diag s
    funext k
    cases k <;> rfl

theorem setting_reloadSteps (s : NtripCaster F) (cfg : CasterCfg F) :
    (applyUntilError (reloadSteps cfg) s).setting =
      assignInOrder (derived s.environ cfg) (reloadOrder cfg) s.setting := by
  let begun : NtripCaster F :=
    { s with caster := { s.caster with cfg := cfg } }
  have hbegun : begun.setting = Function.update s.setting .cfg cfg := by
    funext k
    cases k <;> rfl
  have hfirst : applyUntilError (reloadSteps cfg) s =
      applyUntilError ((reloadSteps cfg).drop 1) begun :=
    applyUntilError_cons_ok rfl
  have hvalue : derived s.environ cfg .cfg = .ok cfg := rfl
  rw [hfirst]
  unfold reloadOrder
  cases hlogging : configureLoggingEx cfg.logging with
  | error e =>
      have hstops : applyUntilError ((reloadSteps cfg).drop 1) begun = begun :=
        applyUntilError_cons_error (e := e) (by rw [hlogging]; rfl)
      change _ = assignInOrder (derived s.environ cfg) [.cfg] s.setting
      rw [hstops, hbegun, assignInOrder_cons_ok hvalue]
      rfl
  | ok _ =>
      have hsecond : applyUntilError ((reloadSteps cfg).drop 1) begun =
          applyUntilError ((reloadSteps cfg).drop 2) begun :=
        applyUntilError_cons_ok (by rw [hlogging]; rfl)
      rw [hsecond,
        setting_applyUntilError (reloadSteps_assign s.environ cfg) begun rfl,
        hbegun]
      exact (assignInOrder_cons_ok hvalue s.setting).symm

/-! ## Where a reload can raise -/

theorem securityNets_of_validateConfig {cfg : CasterCfg F}
    (hvalid : validateConfig cfg = .ok ()) :
    (∃ nets, securityNets cfg.security "ip_allow" = .ok nets) ∧
      ∃ nets, securityNets cfg.security "ip_deny" = .ok nets := by
  have herrors := validateConfig_eq_ok.mp hvalid
  simp only [configErrors, List.append_eq_nil_iff] at herrors
  have hsecurity : securityErrors cfg.security = [] := herrors.1.2
  unfold securityErrors at hsecurity
  unfold securityNets
  by_cases hobj : cfg.security.isObj = true
  · simp only [if_pos hobj] at hsecurity ⊢
    split at hsecurity
    next allow deny hallow hdeny => exact ⟨⟨allow, hallow⟩, ⟨deny, hdeny⟩⟩
    · cases hsecurity
  · simp only [if_neg hobj]
    exact ⟨⟨[], rfl⟩, ⟨[], rfl⟩⟩

theorem securityD_of_obj {security : Json F} {sec : PyDict String (Json F)}
    (hsec : security.orElse (.obj []) = .obj sec) (key : String)
    (default : Json F) :
    securityD security key default =
      .ok ((PyDict.get? sec key).getD default) := by
  unfold securityD
  rw [hsec]
  rfl

theorem obj_of_securityD {security value default : Json F} {key : String}
    (hvalue : securityD security key default = .ok value) :
    ∃ sec, security.orElse (.obj []) = .obj sec := by
  unfold securityD at hvalue
  cases hsec : security.orElse (.obj []) with
  | obj sec => exact ⟨sec, rfl⟩
  | null | bool _ | int _ | float _ | str _ | arr _ =>
      rw [hsec] at hvalue
      cases hvalue

/-- A validated configuration gives every field a value when the security
section is a dictionary and three of its entries have the expected form. -/
theorem derived_complete_iff {environ : Env} {cfg : CasterCfg F}
    (hvalid : validateConfig cfg = .ok ()) :
    (∀ k, ∃ value, derived environ cfg k = .ok value) ↔
      ∃ sec, cfg.security.orElse (.obj []) = .obj sec ∧
        (∃ names, ((PyDict.get? sec "disabled_mountpoints").getD
          (.arr [])).toSet = .ok names) ∧
        (∃ port, (((PyDict.get? sec "api_ws_port").getD (.int 0)).orElse
          (.int 0)).pyInt = .ok port) ∧
        ∃ diag, (((PyDict.get? sec "diagnostics").getD (.obj [])).orElse
          (.obj [])).toDict = .ok diag := by
  constructor
  · intro hall
    rcases hall .geofencePolygons with ⟨polygons, hpolygons⟩
    rcases obj_of_securityD hpolygons with ⟨sec, hsec⟩
    have hvalue := securityD_of_obj hsec
    refine ⟨sec, hsec, ?_, ?_, ?_⟩
    · rcases hall .disabledMountpoints with ⟨_, hdisabled⟩
      rcases map_eq_ok.mp hdisabled with ⟨names, hnames, _⟩
      unfold securityDisabled at hnames
      rw [hvalue] at hnames
      exact ⟨names, hnames⟩
    · rcases hall .apiWsPort with ⟨port, hport⟩
      dsimp only [derived] at hport
      rw [hvalue] at hport
      exact ⟨port, hport⟩
    · rcases hall .diagCfg with ⟨diag, hdiag⟩
      dsimp only [derived] at hdiag
      rw [hvalue] at hdiag
      exact ⟨diag, hdiag⟩
  · rintro ⟨sec, hsec, ⟨names, hnames⟩, ⟨port, hport⟩, diag, hdiag⟩ k
    have hvalue := securityD_of_obj hsec
    rcases securityNets_of_validateConfig hvalid with ⟨hallow, hdeny⟩
    cases k with
    | cfg => exact ⟨cfg, rfl⟩
    | ipAllow => exact hallow
    | ipDeny => exact hdeny
    | adminToken =>
        dsimp only [derived, securityToken]
        rw [hvalue]
        exact ⟨_, rfl⟩
    | requireMtlsForSource =>
        dsimp only [derived]
        rw [hvalue]
        exact ⟨_, rfl⟩
    | disabledMountpoints =>
        dsimp only [derived, securityDisabled]
        rw [hvalue]
        exact ⟨_, map_eq_ok.mpr ⟨names, hnames, rfl⟩⟩
    | apiWsPort =>
        dsimp only [derived]
        rw [hvalue]
        exact ⟨port, hport⟩
    | geofencePolygons => exact ⟨_, hvalue _ _⟩
    | diagCfg =>
        dsimp only [derived]
        rw [hvalue]
        exact ⟨diag, hdiag⟩

/-! ## The reload -/

def reloadedFields (s : NtripCaster F) (cfg : CasterCfg F) : List Setting :=
  assigned (derived s.environ cfg) (reloadOrder cfg)

/-- No configuration is taken; or the fields in front of the first exception
have the values of the file already; or all the other ones have. -/
def ReloadsWhole (s : NtripCaster F) : Prop :=
  ∀ cfg, s.cfgPath.isSome → s.file >>= checkedConfig s.environ = .ok cfg →
    (∀ k ∈ s.reloadedFields cfg,
      derived s.environ cfg k = .ok (s.setting k)) ∨
      ∀ k ∉ s.reloadedFields cfg,
        derived s.environ cfg k = .ok (s.setting k)

omit [PyFloat F] in
theorem reloadOrder_nodup (cfg : CasterCfg F) :
    (reloadOrder cfg).Nodup := by
  unfold reloadOrder
  split_ifs <;> decide

theorem reloadFromDisk_whole_iff (s : NtripCaster F) :
    s.ReloadedWhole s.reloadFromDisk ↔ s.ReloadsWhole := by
  unfold reloadFromDisk
  cases hpath : s.cfgPath with
  | none =>
      apply iff_of_true (.inl rfl)
      intro cfg hsome
      rw [hpath] at hsome
      cases hsome
  | some path =>
      cases hcfg : s.file >>= checkedConfig s.environ with
      | error e =>
          apply iff_of_true (.inl rfl)
          intro cfg _ hloaded
          rw [hcfg] at hloaded
          cases hloaded
      | ok cfg =>
          have hiff : AllOrNothing (derived s.environ cfg) s.setting _ ↔ _ :=
            allOrNothing_iff (reloadOrder_nodup cfg) s.setting
          rw [← setting_reloadSteps] at hiff
          constructor
          · rintro hwhole cfg' _ hloaded
            rw [hcfg] at hloaded
            obtain rfl := Except.ok.inj hloaded
            apply hiff.mp
            rcases hwhole with hkept | ⟨cfg', hloaded, hnew⟩
            · exact .inl hkept
            · rw [hcfg] at hloaded
              obtain rfl := Except.ok.inj hloaded
              exact .inr hnew
          · intro hwhole
            have hsome : s.cfgPath.isSome := by
              rw [hpath]
              rfl
            rcases hiff.mpr (hwhole cfg hsome hcfg) with hkept | hnew
            · exact .inl hkept
            · exact .inr ⟨cfg, hcfg, hnew⟩

theorem ReloadedWhole.kept_or_disabled {s s' : NtripCaster F}
    {raw : Json F} (hwhole : s.ReloadedWhole s') (hfile : s.file = .ok raw) :
    s'.setting = s.setting ∨ ∃ names, fileDisabled raw = .ok names := by
  rcases hwhole with hkept | ⟨cfg, hloaded, hnew⟩
  · exact .inl hkept
  · right
    rw [hfile] at hloaded
    have hchecked : checkedConfig s.environ raw = .ok cfg := hloaded
    rcases map_eq_ok.mp (hnew .disabledMountpoints) with ⟨names, hnames, _⟩
    exact ⟨names, (fileDisabled_of_checkedConfig hchecked).trans hnames⟩

/-! ## The disabled mountpoints behind a reload -/

/-- The settings of the document that a reload assigns change for some
mountpoint whether it is disabled. -/
def ReloadSwitches (s : NtripCaster F) (raw : Json F) : Prop :=
  ∃ cfg names, checkedConfig s.environ raw = .ok cfg ∧
    configureLoggingEx cfg.logging = .ok () ∧
    securityDisabled cfg.security = .ok names ∧
    ∃ mp, names.any (Json.eqStr mp) ≠ s.caster.isDisabled mp

omit [PyFloat F] in
theorem any_of_sameElements {names names' : List (Json F)}
    (hsame : {name | name ∈ names} = {name | name ∈ names'})
    (p : Json F → Bool) : names.any p = names'.any p := by
  rw [Bool.eq_iff_iff, List.any_eq_true, List.any_eq_true]
  simp only [show ∀ name, name ∈ names ↔ name ∈ names' from
    fun name => Set.ext_iff.mp hsame name]

/-- The disabled mountpoints of a validated configuration are taken unless the
logging raises in front of them or they are no set. -/
theorem disabled_mem_reloadedFields_iff {cfg : CasterCfg F}
    (hvalid : validateConfig cfg = .ok ()) (s : NtripCaster F) :
    .disabledMountpoints ∈ s.reloadedFields cfg ↔
      configureLoggingEx cfg.logging = .ok () ∧
        ∃ names, securityDisabled cfg.security = .ok names := by
  unfold reloadedFields reloadOrder
  have hcfg : derived s.environ cfg .cfg = .ok cfg := rfl
  cases hlogging : configureLoggingEx cfg.logging with
  | error e =>
      rw [if_neg (by simp [Except.isOk, Except.toBool]),
        assigned_cons_ok hcfg]
      simp [assigned]
  | ok _ =>
      rw [if_pos (by rfl), assigned_cons_ok hcfg]
      obtain ⟨⟨allow, hallow⟩, deny, hdeny⟩ :=
        securityNets_of_validateConfig hvalid
      constructor
      · intro hmem
        refine ⟨rfl, ?_⟩
        have hnodup : (Setting.cfg :: securityOrder).Nodup := by decide
        have hnew := assignInOrder_of_mem hnodup s.setting
          ((assigned_cons_ok hcfg).symm ▸ hmem)
        obtain ⟨names, hnames, -⟩ := map_eq_ok.mp hnew
        exact ⟨names, hnames⟩
      · rintro ⟨-, names, hnames⟩
        obtain ⟨_, hdict, -⟩ := bind_eq_ok.mp hnames
        obtain ⟨sec, hsec⟩ := obj_of_securityD hdict
        have hallowed : derived s.environ cfg .ipAllow = .ok allow := hallow
        have hdenied : derived s.environ cfg .ipDeny = .ok deny := hdeny
        have htoken : ∃ value, derived s.environ cfg .adminToken =
            .ok value := by
          dsimp only [derived, securityToken]
          rw [securityD_of_obj hsec]
          exact ⟨_, rfl⟩
        have hmtls : ∃ value, derived s.environ cfg .requireMtlsForSource =
            .ok value := by
          dsimp only [derived]
          rw [securityD_of_obj hsec]
          exact ⟨_, rfl⟩
        obtain ⟨token, htoken⟩ := htoken
        obtain ⟨mtls, hmtls⟩ := hmtls
        have hdisabled : derived s.environ cfg .disabledMountpoints =
            .ok {name | name ∈ names} := by
          dsimp only [derived]
          rw [hnames]
          rfl
        unfold securityOrder
        rw [assigned_cons_ok hallowed,
          assigned_cons_ok hdenied, assigned_cons_ok htoken,
          assigned_cons_ok hmtls, assigned_cons_ok hdisabled]
        simp

theorem validateConfig_of_checkedConfig {environ : Env} {raw : Json F}
    {cfg : CasterCfg F} (hchecked : checkedConfig environ raw = .ok cfg) :
    validateConfig cfg = .ok () := by
  rcases bind_eq_ok.mp hchecked with ⟨loaded, _, hrest⟩
  rcases bind_eq_ok.mp hrest with ⟨_, hvalid, hsame⟩
  obtain rfl := Except.ok.inj hsame
  exact hvalid

theorem reloadFromDisk_of_checkedConfig {s : NtripCaster F} {raw : Json F}
    {cfg : CasterCfg F} (hpath : s.cfgPath.isSome)
    (hchecked : checkedConfig s.environ raw = .ok cfg) :
    ({ s with file := .ok raw }).reloadFromDisk =
      applyUntilError (reloadSteps cfg) { s with file := .ok raw } := by
  obtain ⟨path, hpath⟩ := Option.isSome_iff_exists.mp hpath
  have hfile : (Except.ok raw >>= checkedConfig s.environ) = .ok cfg :=
    hchecked
  unfold reloadFromDisk
  simp only [hpath, hfile]

/-- Behind a reload a mountpoint is disabled as before, or as the names of the
document say when they are taken. -/
theorem isDisabled_applyUntilError {cfg : CasterCfg F}
    (hvalid : validateConfig cfg = .ok ()) (s : NtripCaster F)
    (mp : String) :
    (∀ names, configureLoggingEx cfg.logging = .ok () →
      securityDisabled cfg.security = .ok names →
        (applyUntilError (reloadSteps cfg) s).caster.isDisabled mp =
          names.any (Json.eqStr mp)) ∧
      ((∀ names, configureLoggingEx cfg.logging = .ok () →
        securityDisabled cfg.security ≠ .ok names) →
          (applyUntilError (reloadSteps cfg) s).caster.isDisabled mp =
            s.caster.isDisabled mp) := by
  have htaken := s.disabled_mem_reloadedFields_iff hvalid
  have hsettings := s.setting_reloadSteps cfg
  constructor
  · intro names hlogging hnames
    have hnew := assignInOrder_of_mem (reloadOrder_nodup cfg) s.setting
      (htaken.mpr ⟨hlogging, names, hnames⟩)
    rw [← hsettings] at hnew
    dsimp only [derived] at hnew
    rw [hnames] at hnew
    exact any_of_sameElements (Except.ok.inj hnew).symm _
  · intro hnone
    have hmem : .disabledMountpoints ∉ s.reloadedFields cfg := by
      intro hmem
      obtain ⟨hlogging, names, hnames⟩ := htaken.mp hmem
      exact hnone names hlogging hnames
    have hkept := assignInOrder_of_not_mem s.setting hmem
    rw [← hsettings] at hkept
    exact any_of_sameElements hkept _

/-- A reload of the document leaves every mountpoint disabled or enabled
exactly when it does not switch one. -/
theorem isDisabled_reload {s : NtripCaster F} {raw : Json F}
    (hno : ¬ s.ReloadSwitches raw) (mp : String) :
    ({ s with file := .ok raw }).reloadFromDisk.caster.isDisabled mp =
      s.caster.isDisabled mp := by
  unfold reloadFromDisk
  split
  next cfg _ hcfg =>
    have hchecked : checkedConfig s.environ raw = .ok cfg := hcfg
    obtain ⟨htaken, hkept⟩ := isDisabled_applyUntilError
      (validateConfig_of_checkedConfig hchecked)
      { s with file := .ok raw } mp
    by_cases hnone : ∀ names, configureLoggingEx cfg.logging = .ok () →
        securityDisabled cfg.security ≠ .ok names
    · exact hkept hnone
    · push Not at hnone
      obtain ⟨names, hlogging, hnames⟩ := hnone
      rw [htaken names hlogging hnames]
      by_contra hother
      exact hno ⟨cfg, names, hchecked, hlogging, hnames, mp, hother⟩
  · rfl

theorem reload_switches {s : NtripCaster F} {raw : Json F}
    (hpath : s.cfgPath.isSome) (hswitches : s.ReloadSwitches raw) :
    ∃ mp, ({ s with file := .ok raw }).reloadFromDisk.caster.isDisabled mp ≠
      s.caster.isDisabled mp := by
  obtain ⟨cfg, names, hchecked, hlogging, hnames, mp, hother⟩ := hswitches
  refine ⟨mp, ?_⟩
  rw [reloadFromDisk_of_checkedConfig hpath hchecked,
    (isDisabled_applyUntilError (validateConfig_of_checkedConfig hchecked)
      { s with file := .ok raw } mp).1 names hlogging hnames]
  exact hother

end NtripCaster

/-! ## A reload that stops in the middle -/

/-- The file brings a token, and disabled mountpoints that are no list. -/
def oddServer : NtripCaster ℚ :=
  smallServer (.obj [("admin_token", .str "t0ken"),
    ("disabled_mountpoints", .int 5)])

namespace NtripCaster

/-- The token is taken, the mountpoints are not. -/
theorem oddServer_reloaded_half :
    ¬ oddServer.ReloadedWhole oddServer.reloadFromDisk := by
  have hafter : oddServer.reloadFromDisk.adminToken = "t0ken" := by
    decide +kernel
  generalize oddServer.reloadFromDisk = s' at hafter ⊢
  intro hwhole
  rcases hwhole.kept_or_disabled rfl with hkept | ⟨names, hnames⟩
  · have htoken := congrFun hkept Setting.adminToken
    change s'.adminToken = "" at htoken
    rw [hafter] at htoken
    exact absurd htoken (by decide)
  · cases hnames

end NtripCaster

end BabilCors
