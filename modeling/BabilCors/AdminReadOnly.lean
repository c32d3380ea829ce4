import BabilCors.ReloadAtomicity
import BabilCors.UpdateCalls

/-!
# What a reader's token can change

The role check of the operations asks for one of four paths, the dispatch only
for a beginning of the path.  A request whose token may not write leaves the
file, the sessions and the revocations alone, unless its path goes on behind
`/admin/disable`, `/admin/enable` or `/admin/kick`.  An editor may write the
geofences, and the reload behind the write takes the disabled mountpoints of
the file with them.
-/

namespace BabilCors

open Py

section ReadOnly

variable {F : Type} [PyFloat F]

namespace NtripCaster

/-! ## The effect of a reader's request -/

section Effects

variable [JwtLib F]

/-- The id of the refresh token that the body of an exchange presents. -/
def PresentsRefresh (s : NtripCaster F) (req : AdminRequest F) (m : Moment)
    (jti : String) : Prop :=
  req.path = "/admin/token/refresh" ∧ req.method = "POST" ∧
    ∃ rtok, ∃ claims : Claims F,
      bodyText req.bodyJson "refresh" = .ok rtok ∧
        JwtLib.decode? rtok s.jwt.secret (m.time 2) = some claims ∧
        JwtManager.jtiOf claims = jti

/-- What a request of a reader may do.  The file stays as it is, but for the
geofences when an editor writes them; every mountpoint stays disabled or
enabled; no session changes; and no token is revoked but the refresh token that
is exchanged. -/
structure ReadOnlyEffect (p : Principal) (req : AdminRequest F) (m : Moment)
    (s s' : NtripCaster F) : Prop where
  file : s'.file = s.file ∨
    p.isEditor = true ∧ req.resource? = some "geofences" ∧
      ∃ raw raw', s.file = .ok raw ∧ s'.file = .ok raw' ∧
        SameButGeofences raw raw'
  disabled : ∀ mp, s'.caster.isDisabled mp = s.caster.isDisabled mp
  rovers : s.caster.RoversKept s'.caster
  revoked : ∀ jti exp, s'.jwt.store.get? jti = some exp →
    s.jwt.store.get? jti = some exp ∨ s.PresentsRefresh req m jti

theorem ReadOnlyEffect.refl (p : Principal) (req : AdminRequest F)
    (m : Moment) (s : NtripCaster F) : ReadOnlyEffect p req m s s where
  file := .inl rfl
  disabled := fun _ => rfl
  rovers := fun _ _ ht => ht
  revoked := fun _ _ hentry => .inl hentry

theorem ReadOnlyEffect.audit {p : Principal} {req : AdminRequest F}
    {m : Moment} {s s' : NtripCaster F}
    (heffect : ReadOnlyEffect p req m s s') (audit : List (AuditItem F)) :
    ReadOnlyEffect p req m s { s' with audit := audit } :=
  ⟨heffect.file, heffect.disabled, heffect.rovers, heffect.revoked⟩

theorem SameButBuckets.effect {p : Principal} {req : AdminRequest F}
    {m : Moment} {s s₁ s' : NtripCaster F} (hsame : SameButBuckets s s₁)
    (heffect : ReadOnlyEffect p req m s₁ s') :
    ReadOnlyEffect p req m s s' where
  file := by
    rw [← hsame.file]
    exact heffect.file
  disabled := by
    rw [← hsame.caster]
    exact heffect.disabled
  rovers := by
    rw [← hsame.caster]
    exact heffect.rovers
  revoked := by
    intro jti exp hentry
    rcases heffect.revoked jti exp hentry with hold | hpresents
    · exact .inl (hsame.revoked jti exp hold)
    · refine .inr ?_
      unfold PresentsRefresh at hpresents ⊢
      rwa [hsame.secret] at hpresents

/-! ## One effect for each handler -/

/-- A call of `_admin_update_config` that writes nothing new, or an editor's
geofences, and whose reload switches no mountpoint. -/
theorem updateConfig_effect {s : NtripCaster F} {updater : Updater F}
    {diskError : Option PyErr} (p : Principal) (req : AdminRequest F)
    (m : Moment)
    (hfile : ∀ raw, s.write? updater diskError = some raw →
      s.file = .ok raw ∨ p.isEditor = true ∧
        req.resource? = some "geofences" ∧
          ∃ old, s.file = .ok old ∧ SameButGeofences old raw)
    (hno : ∀ raw, s.write? updater diskError = some raw →
      ¬ s.ReloadSwitches raw) :
    ReadOnlyEffect p req m s (s.updateConfig updater diskError).2 := by
  cases s.updateConfig_outcome updater diskError with
  | kept _ hs' =>
      rw [hs']
      exact .refl p req m s
  | written raw hwrite hs' =>
      have hsettings := (reloadFromDisk_keeps { s with file := .ok raw }).1
      rw [hs']
      constructor
      · rcases hfile raw hwrite with hsame |
          ⟨heditor, hresource, old, hold, hgeofences⟩
        · exact .inl (hsettings.file.trans hsame.symm)
        · exact .inr ⟨heditor, hresource, old, raw, hold, hsettings.file,
            hgeofences⟩
      · exact isDisabled_reload (hno raw hwrite)
      · intro i t ht
        rw [hsettings.rovers]
        exact ht
      · intro jti exp hentry
        rw [hsettings.jwt] at hentry
        exact .inl hentry

/-- The request writes the geofences, the write is committed, and the reload
behind it finds other mountpoints disabled than the server has. -/
def FenceWriteSwitches (s : NtripCaster F) (p : Principal)
    (req : AdminRequest F) (m : Moment) : Prop :=
  req.resource? = some "geofences" ∧ ∃ call raw,
    geofencesCall? p req req.bodyJson = some call ∧
      s.write? call.updater m.diskError = some raw ∧ s.ReloadSwitches raw

omit [JwtLib F] in
theorem geofencesCall?_updater {p : Principal}
    {req : AdminRequest F} {body : Json F} {call : UpdateCall F}
    (hadmin : p.isAdmin = false)
    (hcall : geofencesCall? p req body = some call) :
    p.isEditor = true ∧ ∃ f, call.updater = updateGeofences f := by
  have hwriter (hlet : ¬ (req.isWrite && !(p.isAdmin || p.isEditor)) = true)
      (hwrite : req.isWrite = true) : p.isEditor = true := by
    simpa [hwrite, hadmin] using hlet
  unfold geofencesCall? at hcall
  cases hnamed : req.named? with
  | none =>
      simp only [hnamed] at hcall
      split_ifs at hcall with hdenied hsubject hpost
      split at hcall
      · obtain rfl := Option.some.inj hcall
        exact ⟨hwriter hdenied (by simp [AdminRequest.isWrite, hpost.2]), _,
          rfl⟩
      · cases hcall
  | some ident =>
      simp only [hnamed] at hcall
      split_ifs at hcall with hdenied hsubject hpatch hdelete
      · unfold patchGeofenceCall? at hcall
        split at hcall
        · cases hcall
        · obtain rfl := Option.some.inj hcall
          exact ⟨hwriter hdenied (by simp [AdminRequest.isWrite, hpatch]), _,
            rfl⟩
        · cases hcall
      · obtain rfl := Option.some.inj hcall
        exact ⟨hwriter hdenied (by simp [AdminRequest.isWrite, hdelete]), _,
          rfl⟩

theorem geofences_effect {s : NtripCaster F} {p : Principal}
    {req : AdminRequest F} {m : Moment} {o : Outcome F}
    (hadmin : p.isAdmin = false)
    (hresource : req.resource? = some "geofences")
    (hno : ¬ s.FenceWriteSwitches p req m)
    (hgeofences : s.geofences p req req.bodyJson m = some o) :
    ReadOnlyEffect p req m s o.server := by
  have hfollows := s.geofences_follows p req req.bodyJson m
  rw [hgeofences] at hfollows
  generalize hcall : geofencesCall? p req req.bodyJson = call? at hfollows
  cases hfollows with
  | idle hkept =>
      rw [hkept o rfl]
      exact .refl p req m s
  | calls call =>
      obtain ⟨heditor, f, hupdater⟩ := geofencesCall?_updater hadmin hcall
      rw [answerUpdate_server]
      apply updateConfig_effect
      · intro raw hwrite
        rw [hupdater] at hwrite
        rcases write?_eq_some hwrite with ⟨old, hold, hupdated, _⟩
        exact .inr ⟨heditor, hresource, old, hold,
          updateGeofences_sameBut hupdated⟩
      · intro raw hwrite hswitches
        exact hno ⟨hresource, call, raw, hcall, hwrite, hswitches⟩

theorem rover_effect [Crypto] (s : NtripCaster F) (p : Principal)
    (req : AdminRequest F) (m : Moment) (rover : Caster.RoverRequest)
    (now : ℚ) :
    ReadOnlyEffect p req m s
      { s with caster := s.caster.handleRover rover now } where
  file := .inl rfl
  disabled := by
    intro mp
    unfold Caster.isDisabled
    exact congrArg (List.any · _) (s.caster.handleRover_disabled rover now)
  rovers := by
    intro i t ht
    rcases s.caster.handleRover_cases rover now with
      hsame | ⟨base, session, ip, hsame, -, -, hjoin⟩
    · rw [hsame.rovers]
      exact ht
    · have hi : i < base.rovers.length := by
        rw [hsame.rovers]
        exact (List.getElem?_eq_some_iff.mp ht).1
      change (s.caster.handleRover rover now).rovers[i]? = some t
      rw [hjoin]
      change (base.rovers ++ [_])[i]? = some t
      rw [List.getElem?_append_left hi, hsame.rovers]
      exact ht
  revoked := fun _ _ hentry => .inl hentry

theorem tokenRefresh_effect {s : NtripCaster F} {req : AdminRequest F}
    {m : Moment} (p : Principal) (hpath : req.path = "/admin/token/refresh")
    (hmethod : req.method = "POST") :
    ReadOnlyEffect p req m s (s.tokenRefresh req.bodyJson m).server := by
  cases s.tokenRefresh_outcome req.bodyJson m with
  | kept hs' =>
      rw [hs']
      exact .refl p req m s
  | refused rtok hrtok hs' =>
      rw [hs']
      exact (s.decode_same rtok "refresh" (m.time 2) (m.time 3)).effect
        (.refl p req m _)
  | rotated rtok claims hrtok hclaims hs' =>
      have hsame : SameButBuckets s
          (s.presentedRefresh rtok m : Option (Claims F) × _).2 :=
        s.decode_same rtok "refresh" (m.time 2) (m.time 3)
      have hdecode : JwtLib.decode? rtok s.jwt.secret (m.time 2) =
          some claims :=
        JwtManager.decode?_of_decode hclaims
      rw [hs']
      unfold rotate
      cases expOf claims with
      | error e => exact hsame.effect (.refl p req m _)
      | ok exp =>
          constructor
          · exact .inl hsame.file
          · exact fun mp => congrArg (Caster.isDisabled · mp) hsame.caster
          · intro i t ht
            exact (congrArg (fun c => c.rovers[i]?) hsame.caster).trans ht
          · intro jti exp' hentry
            by_cases hjti : jti = JwtManager.jtiOf claims
            · exact .inr ⟨hpath, hmethod, rtok, claims, hrtok, hdecode,
                hjti.symm⟩
            · have hold := JwtManager.store_revokeJti hentry hjti
              exact .inl (hsame.revoked jti exp' hold)

/-! ## The operations -/

def BeyondPath (req : AdminRequest F) (base : String) : Prop :=
  startsWith req.path base = true ∧ req.path ≠ base

/-- The update is committed, and it changes the file, or the reload behind it
changes for some mountpoint whether it is disabled. -/
def SwitchActs (s : NtripCaster F) (req : AdminRequest F) (m : Moment)
    (updater : String → Updater F) : Prop :=
  ∃ value raw, req.bodyJson.getD "mountpoint" (.str "") = .ok value ∧
    value.pyStr ≠ "" ∧
    s.write? (updater value.pyStr) m.diskError = some raw ∧
    (s.file ≠ .ok raw ∨ s.ReloadSwitches raw)

def KickActs (s : NtripCaster F) (req : AdminRequest F) : Prop :=
  ∃ connv mpv connId mp,
    req.bodyJson.getD "conn_id" .null = .ok connv ∧
    req.bodyJson.getD "mountpoint" .null = .ok mpv ∧
    kickTarget? connv mpv = some (connId, mp) ∧
    s.caster.KicksOpen connId mp

/-- An operation that its path hides from the role check, and that acts. -/
def ActsUnchecked (s : NtripCaster F) (req : AdminRequest F) (m : Moment) :
    Prop :=
  BeyondPath req "/admin/disable" ∧ s.SwitchActs req m disableMountpoint ∨
    BeyondPath req "/admin/enable" ∧ s.SwitchActs req m enableMountpoint ∨
    BeyondPath req "/admin/kick" ∧ s.KickActs req

omit [JwtLib F] in
theorem SameButBuckets.actsUnchecked_iff {s s' : NtripCaster F}
    (hsame : SameButBuckets s s') (req : AdminRequest F) (m : Moment) :
    s'.ActsUnchecked req m ↔ s.ActsUnchecked req m := by
  unfold ActsUnchecked SwitchActs KickActs ReloadSwitches
  simp only [hsame.file, hsame.caster, hsame.environ, hsame.write?]

omit [JwtLib F] in
theorem SameButBuckets.fenceWriteSwitches_iff {s s' : NtripCaster F}
    (hsame : SameButBuckets s s') (p : Principal) (req : AdminRequest F)
    (m : Moment) :
    s'.FenceWriteSwitches p req m ↔ s.FenceWriteSwitches p req m := by
  unfold FenceWriteSwitches ReloadSwitches
  simp only [hsame.caster, hsame.environ, hsame.write?]

theorem switch_effect {s : NtripCaster F} {req : AdminRequest F}
    {m : Moment} {updater : String → Updater F} (p : Principal)
    (b : Bearer F) (action : String)
    (hno : req.method = "POST" → ¬ s.SwitchActs req m updater) :
    ReadOnlyEffect p req m s
      (s.switchMountpoint b req req.bodyJson m action updater).server := by
  cases s.switchMountpoint_outcome b req req.bodyJson m action updater with
  | kept _ hs' =>
      rw [hs']
      exact .refl p req m s
  | updated value hmethod hvalue hname hs' =>
      have hsame : ∀ raw,
          s.write? (updater value.pyStr) m.diskError = some raw →
            s.file = .ok raw ∧ ¬ s.ReloadSwitches raw := by
        intro raw hwrite
        by_contra hother
        refine hno hmethod ⟨value, raw, hvalue, hname, hwrite, ?_⟩
        by_cases hfile : s.file = .ok raw
        · exact .inr (by_contra fun hkeeps => hother ⟨hfile, hkeeps⟩)
        · exact .inl hfile
      rw [hs']
      exact (updateConfig_effect p req m
        (fun raw hwrite => .inl (hsame raw hwrite).1)
        (fun raw hwrite => (hsame raw hwrite).2)).audit _

theorem kick_effect {s : NtripCaster F} {req : AdminRequest F} {m : Moment}
    (p : Principal) (b : Bearer F)
    (hno : req.method = "POST" → ¬ s.KickActs req) :
    ReadOnlyEffect p req m s (s.kick b req req.bodyJson m).server := by
  cases s.kick_outcome b req req.bodyJson m with
  | kept _ hs' =>
      rw [hs']
      exact .refl p req m s
  | missed connv mpv _ _ _ hs' =>
      rw [hs']
      exact (ReadOnlyEffect.refl p req m s).audit _
  | kicked connv mpv connId mp hmethod hconnv hmpv htarget hs' =>
      have hclosed : ¬ s.caster.KicksOpen connId mp := by
        intro hopen
        exact hno hmethod ⟨connv, mpv, connId, mp, hconnv, hmpv, htarget,
          hopen⟩
      have hkept := (s.caster.roversKept_kickRover_iff connId mp).mpr hclosed
      have hdisabled : ∀ mp', (s.caster.kickRover connId mp).2.isDisabled
          mp' = s.caster.isDisabled mp' := by
        intro mp'
        rw [Caster.kickRover_eq]
        rfl
      rw [hs']
      exact ⟨.inl rfl, hdisabled, hkept,
        fun _ _ hentry => .inl hentry⟩

theorem operation_effect [Crypto] {s : NtripCaster F} {b : Bearer F}
    {req : AdminRequest F} {m : Moment} (p : Principal)
    (hadmin : b.principal.isAdmin = false)
    (hno : req.method = "POST" → ¬ s.ActsUnchecked req m) :
    ReadOnlyEffect p req m s (s.operation b req req.bodyJson m).server := by
  cases s.operation_outcome b req req.bodyJson m with
  | replied reply hreply ho =>
      rw [ho]
      exact .refl p req m s
  | raised e ho =>
      rw [ho]
      exact .refl p req m s
  | operates base hbase hstarts hrole ho =>
      have hbeyond : req.method = "POST" → BeyondPath req base := by
        intro hpost
        refine ⟨hstarts, fun hexact => hrole ⟨?_, hpost, ?_⟩⟩
        · rw [hexact]
          exact List.mem_append_left ["/admin/audit"] hbase
        · rw [hadmin]
          rfl
      rcases ho with ⟨rfl, ho⟩ | ⟨rfl, ho⟩ | ⟨rfl, ho⟩
      · rw [ho]
        exact switch_effect p b "disable" fun hpost hacts =>
          hno hpost (.inl ⟨hbeyond hpost, hacts⟩)
      · rw [ho]
        exact switch_effect p b "enable" fun hpost hacts =>
          hno hpost (.inr (.inl ⟨hbeyond hpost, hacts⟩))
      · rw [ho]
        exact kick_effect p b fun hpost hacts =>
          hno hpost (.inr (.inr ⟨hbeyond hpost, hacts⟩))
  | passed ho =>
      rw [ho]
      exact rover_effect s p req m _ m.monotonic

/-! ## The dispatch -/

theorem resource_effect [SchemaLib F] {s : NtripCaster F} {b : Bearer F}
    {req : AdminRequest F} {m : Moment} {o : Outcome F}
    (hadmin : b.principal.isAdmin = false)
    (hno : ¬ s.FenceWriteSwitches b.principal req m)
    (hresource : s.resource b req req.bodyJson m = some o) :
    ReadOnlyEffect b.principal req m s o.server := by
  unfold resource at hresource
  split_ifs at hresource with hgeofences hothers hdenied husers htiers
  · exact geofences_effect hadmin hgeofences hno hresource
  · obtain rfl := Option.some.inj hresource
    exact .refl b.principal req m s
  · have hread : req.isWrite = false := by
      simpa [hadmin] using hdenied
    rw [users_read hread hresource]
    exact .refl b.principal req m s
  · have hread : req.isWrite = false := by
      simpa [hadmin] using hdenied
    rw [tiers_read hread hresource]
    exact .refl b.principal req m s
  · have hread : req.isWrite = false := by
      simpa [hadmin] using hdenied
    rw [mountpoints_read hread hresource]
    exact .refl b.principal req m s

theorem dispatch_effect [Crypto] [SchemaLib F] {s : NtripCaster F}
    {b : Bearer F} {req : AdminRequest F} {m : Moment} {p : Principal}
    (hwho : b.principal = p ∧ p.isAdmin = false ∨
      req.path ∈ AdminRequest.publicPaths)
    (hno : req.method = "POST" → ¬ s.ActsUnchecked req m)
    (hfences : ¬ s.FenceWriteSwitches p req m) :
    ReadOnlyEffect p req m s (s.dispatch b req m).server := by
  unfold dispatch
  dsimp only
  by_cases hlogin : req.path = "/admin/login" ∧ req.method = "POST"
  · rw [if_pos hlogin, login_server]
    exact .refl p req m s
  rw [if_neg hlogin]
  by_cases hrefresh :
      req.path = "/admin/token/refresh" ∧ req.method = "POST"
  · rw [if_pos hrefresh]
    exact tokenRefresh_effect p hrefresh.1 hrefresh.2
  rw [if_neg hrefresh]
  by_cases hrevoke : req.path = "/admin/token/revoke" ∧ req.method = "POST"
  · rw [if_pos hrevoke]
    rcases hwho with ⟨hprincipal, hadmin⟩ | hpublic
    · unfold tokenRevoke
      rw [hprincipal, hadmin]
      exact .refl p req m s
    · rw [hrevoke.1] at hpublic
      exact absurd hpublic (by decide)
  rw [if_neg hrevoke]
  by_cases hme : req.path = "/admin/me" ∧ req.method = "GET"
  · rw [if_pos hme]
    exact .refl p req m s
  rw [if_neg hme]
  rcases hwho with ⟨rfl, hadmin⟩ | hpublic
  · cases hresource : s.resource b req req.bodyJson m with
    | none => exact operation_effect b.principal hadmin hno
    | some o => exact resource_effect hadmin hfences hresource
  · have hfixed : req.path ∈ fixedPaths :=
      List.mem_append_left _ hpublic
    rw [resource_none (resource?_of_fixed hfixed), Option.getD_none,
      operation_public hpublic]
    exact rover_effect s p req m _ m.monotonic

/-! ## Paths behind an operation -/

omit [PyFloat F] [JwtLib F] in
theorem ne_fixed_of_base {req : AdminRequest F} {base : String}
    (hbase : base ∈ basePaths) (hpath : startsWith req.path base = true) :
    ∀ other ∈ fixedPaths, req.path ≠ other := by
  have hother : ∀ base ∈ basePaths, ∀ other ∈ fixedPaths,
      startsWith other base = false := by
    decide +kernel
  rintro other hmem hexact
  rw [hexact, hother base hbase other hmem] at hpath
  cases hpath

theorem dispatch_of_base [Crypto] [SchemaLib F] {s : NtripCaster F}
    {b : Bearer F} {req : AdminRequest F} {m : Moment} {base : String}
    (hbase : base ∈ basePaths) (hpath : startsWith req.path base = true) :
    s.dispatch b req m = s.operation b req req.bodyJson m := by
  have hne := ne_fixed_of_base hbase hpath
  have hlogin := hne "/admin/login" (by decide)
  have hrefresh := hne "/admin/token/refresh" (by decide)
  have hrevoke := hne "/admin/token/revoke" (by decide)
  have hme := hne "/admin/me" (by decide)
  unfold dispatch
  simp [hlogin, hrefresh, hrevoke, hme,
    resource_none (resource?_of_base hbase hpath)]

omit [PyFloat F] [JwtLib F] in
/-- Behind an operation the role check does not know the path, and only that
operation takes it. -/
theorem beyondPath_excludes {req : AdminRequest F} {base : String}
    (hbase : base ∈ basePaths) (hpath : BeyondPath req base) :
    req.path ∉ operationPaths ∧ req.path ≠ "/admin/openapi.json" ∧
      req.path ≠ "/admin/status" ∧
      ∀ other ∈ "/admin/rovers" :: basePaths, other ≠ base →
        startsWith req.path other = false := by
  have hexact : ∀ base ∈ basePaths,
      ∀ other ∈ "/admin/openapi.json" :: "/admin/status" :: operationPaths,
        startsWith other base = true → other = base := by
    decide +kernel
  have hne (other : String) (hmem : other ∈
      "/admin/openapi.json" :: "/admin/status" :: operationPaths) :
      req.path ≠ other := by
    intro heq
    have hstarts : startsWith other base = true := by
      rw [← heq]
      exact hpath.1
    exact hpath.2 (heq.trans (hexact base hbase other hmem hstarts))
  refine ⟨?_, hne _ (by simp), hne _ (by simp), ?_⟩
  · intro hmem
    exact hne req.path (by simp [hmem]) rfl
  · intro other hmem hother
    have hdiffer : ∀ base ∈ basePaths, ∀ other ∈
        "/admin/rovers" :: basePaths, other ≠ base →
          startsWith base other = false ∧ startsWith other base = false := by
      decide +kernel
    rcases hdiffer base hbase other hmem hother with ⟨hforth, hback⟩
    exact not_startsWith hpath.1 hforth hback

omit [JwtLib F] in
theorem operation_of_beyond_disable [Crypto] {s : NtripCaster F}
    {b : Bearer F} {req : AdminRequest F} {body : Json F} {m : Moment}
    (hpath : BeyondPath req "/admin/disable") :
    s.operation b req body m = s.disable b req body m := by
  rcases beyondPath_excludes (by decide) hpath with
    ⟨hoperation, hopenapi, hstatus, hothers⟩
  have hrovers := hothers "/admin/rovers" (by decide) (by decide)
  unfold operation
  simp [hoperation, hopenapi, hstatus, hrovers, hpath.1]

omit [JwtLib F] in
theorem operation_of_beyond_enable [Crypto] {s : NtripCaster F}
    {b : Bearer F} {req : AdminRequest F} {body : Json F} {m : Moment}
    (hpath : BeyondPath req "/admin/enable") :
    s.operation b req body m = s.enable b req body m := by
  rcases beyondPath_excludes (by decide) hpath with
    ⟨hoperation, hopenapi, hstatus, hothers⟩
  have hrovers := hothers "/admin/rovers" (by decide) (by decide)
  have hdisable := hothers "/admin/disable" (by decide) (by decide)
  unfold operation
  simp [hoperation, hopenapi, hstatus, hrovers, hdisable, hpath.1]

omit [JwtLib F] in
theorem operation_of_beyond_kick [Crypto] {s : NtripCaster F}
    {b : Bearer F} {req : AdminRequest F} {body : Json F} {m : Moment}
    (hpath : BeyondPath req "/admin/kick") :
    s.operation b req body m = s.kick b req body m := by
  rcases beyondPath_excludes (by decide) hpath with
    ⟨hoperation, hopenapi, hstatus, hothers⟩
  have hrovers := hothers "/admin/rovers" (by decide) (by decide)
  have hdisable := hothers "/admin/disable" (by decide) (by decide)
  have henable := hothers "/admin/enable" (by decide) (by decide)
  unfold operation
  simp [hoperation, hopenapi, hstatus, hrovers, hdisable, henable, hpath.1]

/-- The file has changed, or some mountpoint has been disabled or enabled. -/
def Switched (s s' : NtripCaster F) : Prop :=
  s'.file ≠ s.file ∨
    ∃ mp, s'.caster.isDisabled mp ≠ s.caster.isDisabled mp

omit [JwtLib F] in
theorem updateConfig_of_write? {s : NtripCaster F} {updater : Updater F}
    {diskError : Option PyErr} {raw : Json F}
    (hwrite : s.write? updater diskError = some raw) :
    (s.updateConfig updater diskError).2 =
      ({ s with file := .ok raw }).reloadFromDisk := by
  cases s.updateConfig_outcome updater diskError with
  | kept hnone _ =>
      rw [hwrite] at hnone
      cases hnone
  | written raw' hwrite' hserver =>
      rw [hwrite] at hwrite'
      obtain rfl := Option.some.inj hwrite'
      exact hserver

omit [JwtLib F] in
theorem switch_changes {s : NtripCaster F} {b : Bearer F}
    {req : AdminRequest F} {m : Moment} {updater : String → Updater F}
    (action : String) (hmethod : req.method = "POST")
    (hacts : s.SwitchActs req m updater) :
    Switched s
      (s.switchMountpoint b req req.bodyJson m action updater).server := by
  rcases hacts with ⟨value, raw, hvalue, hname, hwrite, hother⟩
  cases s.switchMountpoint_outcome b req req.bodyJson m action updater with
  | kept hno _ => exact (hname (hno value hmethod hvalue)).elim
  | updated value' _ hvalue' _ hs' =>
      rw [hvalue] at hvalue'
      obtain rfl := Except.ok.inj hvalue'
      have hfile := (reloadFromDisk_keeps { s with file := .ok raw }).1.file
      unfold Switched
      rw [hs', updateConfig_of_write? hwrite]
      rcases hother with hother | hswitches
      · exact .inl fun hsame => hother (hsame.symm.trans hfile)
      · exact .inr (reload_switches (cfgPath_of_write? hwrite) hswitches)

theorem fenceWrite_changes [Crypto] [SchemaLib F] {s : NtripCaster F}
    {b : Bearer F} {req : AdminRequest F} {m : Moment}
    (hfences : s.FenceWriteSwitches b.principal req m) :
    ∃ mp, (s.dispatch b req m).server.caster.isDisabled mp ≠
      s.caster.isDisabled mp := by
  rcases hfences with ⟨hresource, call, raw, hcall, hwrite, hswitches⟩
  have hhandler : s.resource b req req.bodyJson m =
      s.geofences b.principal req req.bodyJson m := by
    unfold resource
    rw [if_pos hresource]
  have hfollows := s.geofences_follows b.principal req req.bodyJson m
  have hname : "geofences" ∈ resourceNames := by
    decide
  rw [hcall] at hfollows
  rw [dispatch_of_resource hname hresource, hhandler]
  generalize s.geofences b.principal req req.bodyJson m = o? at hfollows ⊢
  cases hfollows with
  | calls _ =>
      rw [Option.getD_some, answerUpdate_server, updateConfig_of_write? hwrite]
      exact reload_switches (cfgPath_of_write? hwrite) hswitches

omit [JwtLib F] in
theorem kick_changes_rovers {s : NtripCaster F} {b : Bearer F}
    {req : AdminRequest F} {m : Moment} (hmethod : req.method = "POST")
    (hacts : s.KickActs req) :
    ¬ s.caster.RoversKept (s.kick b req req.bodyJson m).server.caster := by
  rcases hacts with ⟨connv, mpv, connId, mp, hconnv, hmpv, htarget, hopen⟩
  cases s.kick_outcome b req req.bodyJson m with
  | kept hno _ => exact (hno connv mpv hmethod hconnv hmpv).elim
  | missed connv' mpv' hconnv' hmpv' htarget' _ =>
      rw [hconnv] at hconnv'
      rw [hmpv] at hmpv'
      obtain rfl := Except.ok.inj hconnv'
      obtain rfl := Except.ok.inj hmpv'
      rw [htarget] at htarget'
      cases htarget'
  | kicked connv' mpv' connId' mp' _ hconnv' hmpv' htarget' hs' =>
      rw [hconnv] at hconnv'
      rw [hmpv] at hmpv'
      obtain rfl := Except.ok.inj hconnv'
      obtain rfl := Except.ok.inj hmpv'
      rw [htarget] at htarget'
      cases htarget'
      rw [hs']
      intro hkept
      exact (s.caster.roversKept_kickRover_iff connId mp).mp hkept hopen

theorem dispatch_acts [Crypto] [SchemaLib F] {s : NtripCaster F}
    {b : Bearer F} {req : AdminRequest F} {m : Moment}
    (hmethod : req.method = "POST") (hacts : s.ActsUnchecked req m) :
    Switched s (s.dispatch b req m).server ∧
        req.resource? ≠ some "geofences" ∨
      ¬ s.caster.RoversKept (s.dispatch b req m).server.caster := by
  rcases hacts with ⟨hpath, hacts⟩ | ⟨hpath, hacts⟩ | ⟨hpath, hacts⟩
  · have hbase : "/admin/disable" ∈ basePaths := by
      decide
    rw [dispatch_of_base hbase hpath.1, operation_of_beyond_disable hpath]
    exact .inl ⟨switch_changes "disable" hmethod hacts,
      resource?_of_base hbase hpath.1 "geofences" (by decide)⟩
  · have hbase : "/admin/enable" ∈ basePaths := by
      decide
    rw [dispatch_of_base hbase hpath.1, operation_of_beyond_enable hpath]
    exact .inl ⟨switch_changes "enable" hmethod hacts,
      resource?_of_base hbase hpath.1 "geofences" (by decide)⟩
  · have hbase : "/admin/kick" ∈ basePaths := by
      decide
    rw [dispatch_of_base hbase hpath.1, operation_of_beyond_kick hpath]
    exact .inr (kick_changes_rovers hmethod hacts)

/-! ## The request -/

/-- The request passes the filters, and its path hides an operation that acts,
or the reload behind its write of the geofences switches a mountpoint. -/
structure Escalates (s : NtripCaster F) (p : Principal)
    (req : AdminRequest F) (m : Moment) : Prop where
  filters : s.PassesFilters req m
  acts : req.method = "POST" ∧ s.ActsUnchecked req m ∨
    s.FenceWriteSwitches p req m

theorem dispatch_readOnly_iff [Crypto] [SchemaLib F] {s s' : NtripCaster F}
    {b : Bearer F} {req : AdminRequest F} {m : Moment} {p : Principal}
    (hsame : SameButBuckets s s') (hfilters : s.PassesFilters req m)
    (hwho : b.principal = p ∨ req.path ∈ AdminRequest.publicPaths)
    (hrole : p.isAdmin = false) :
    ReadOnlyEffect p req m s (s'.dispatch b req m).server ↔
      ¬ s.Escalates p req m := by
  have hacts := hsame.actsUnchecked_iff req m
  have hfences := hsame.fenceWriteSwitches_iff p req m
  have hfixed : req.path ∈ AdminRequest.publicPaths →
      req.resource? ≠ some "geofences" := by
    intro hpublic
    exact resource?_of_fixed (List.mem_append_left _ hpublic) "geofences"
      (by decide)
  constructor
  · rintro heffect ⟨_, ⟨hmethod, hunchecked⟩ | hswitches⟩
    · rcases dispatch_acts (b := b) hmethod (hacts.mpr hunchecked) with
        ⟨hfile | ⟨mp, hmp⟩, hresource⟩ | hrovers
      · rcases heffect.file with hkept | ⟨_, hgeofences, _⟩
        · exact hfile (hkept.trans hsame.file.symm)
        · exact hresource hgeofences
      · apply hmp
        rw [heffect.disabled mp, hsame.caster]
      · apply hrovers
        rw [hsame.caster]
        exact heffect.rovers
    · rcases hwho with rfl | hpublic
      · obtain ⟨mp, hmp⟩ := fenceWrite_changes (hfences.mpr hswitches)
        apply hmp
        rw [heffect.disabled mp, hsame.caster]
      · exact hfixed hpublic hswitches.1
  · intro hchecked
    have hno : req.method = "POST" → ¬ s'.ActsUnchecked req m := by
      intro hpost hunchecked
      exact hchecked ⟨hfilters, .inl ⟨hpost, hacts.mp hunchecked⟩⟩
    have hkeeps : ¬ s'.FenceWriteSwitches p req m := by
      intro hswitches
      exact hchecked ⟨hfilters, .inr (hfences.mp hswitches)⟩
    have hreader : b.principal = p ∧ p.isAdmin = false ∨
        req.path ∈ AdminRequest.publicPaths := by
      rcases hwho with hprincipal | hpublic
      · exact .inl ⟨hprincipal, hrole⟩
      · exact .inr hpublic
    exact hsame.effect (dispatch_effect hreader hno hkeeps)

/-- With an access token that may not write, a request does no more than a
reader may exactly when it neither reaches an operation around the role check
nor makes a reload switch a mountpoint. -/
theorem handleAdmin_readOnly_iff [Crypto] [SchemaLib F] {s : NtripCaster F}
    {req : AdminRequest F} {m : Moment} {claims : Claims F}
    (haccess : s.PresentsAccess req m claims)
    (hrole : JwtManager.roleAllows (principalOf claims).role true = false) :
    ReadOnlyEffect (principalOf claims) req m s
        (s.handleAdmin req m).server ↔
      ¬ s.Escalates (principalOf claims) req m := by
  cases handleAdmin_outcome haccess with
  | stopped hfilters hsame =>
      refine iff_of_true (hsame.effect (.refl _ req m _)) ?_
      intro hescalates
      exact hfilters hescalates.filters
  | dispatched b s₁ hfilters hsame hwho hs' =>
      rw [hs']
      exact dispatch_readOnly_iff hsame hfilters hwho hrole

end Effects

end NtripCaster

end ReadOnly

/-! ## A reader at the switch -/

def readerPost (path : String) : AdminRequest ℚ :=
  bearerRequest "POST" path (.obj [("mountpoint", .str "MP")])

def reader : Principal :=
  principalOf (accessClaims "ria" "admin_ro")

def afterReader (req : AdminRequest ℚ) : NtripCaster ℚ :=
  (@NtripCaster.handleAdmin ℚ _ noDigest
    (oneToken (accessClaims "ria" "admin_ro")) anyBody
    (smallServer (.obj [])) req firstMoment).server

namespace NtripCaster

theorem handleAdmin_readOnly_iff_disable :
    @ReadOnlyEffect ℚ _ (oneToken (accessClaims "ria" "admin_ro")) reader
      (readerPost "/admin/disable") firstMoment (smallServer (.obj []))
      (afterReader (readerPost "/admin/disable")) := by
  refine (@handleAdmin_readOnly_iff ℚ _
    (oneToken (accessClaims "ria" "admin_ro")) noDigest anyBody
    (smallServer (.obj [])) (readerPost "/admin/disable") firstMoment
    (accessClaims "ria" "admin_ro") (bearerRequest_access _ _ _ _ _ _)
    (by decide +kernel)).mpr ?_
  rintro ⟨_, ⟨_, ⟨hpath, _⟩ | ⟨hpath, _⟩ | ⟨hpath, _⟩⟩ | ⟨hresource, _⟩⟩
  · exact hpath.2 rfl
  · exact absurd hpath.1 (by decide +kernel)
  · exact absurd hpath.1 (by decide +kernel)
  · exact absurd hresource (by decide +kernel)

def listsDisabled (file : Except PyErr (Json ℚ)) : Bool :=
  match file with
  | .ok raw => (securityField? raw "disabled_mountpoints").isSome
  | .error _ => false

/-- With a slash behind the path the same request writes the file. -/
theorem reader_disables_behind_slash :
    ¬ @ReadOnlyEffect ℚ _ (oneToken (accessClaims "ria" "admin_ro")) reader
      (readerPost "/admin/disable/") firstMoment (smallServer (.obj []))
      (afterReader (readerPost "/admin/disable/")) := by
  rintro ⟨hfile, -, -, -⟩
  have hafter : listsDisabled
      (afterReader (readerPost "/admin/disable/")).file = true := by
    decide +kernel
  have heditor : reader.isEditor = false := by
    decide +kernel
  rcases hfile with hkept | ⟨heditor', _⟩
  · rw [hkept] at hafter
    exact absurd hafter (by decide +kernel)
  · rw [heditor] at heditor'
    cases heditor'

end NtripCaster

end BabilCors
