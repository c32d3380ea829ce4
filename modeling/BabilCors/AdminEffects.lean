import BabilCors.AdminRequests
import BabilCors.ExactFloat

/-!
# What the admin handlers change

For each handler the servers it can lead to, in terms of the updates and the
operations it runs; the results about admin requests split their cases by
these.
-/

namespace BabilCors

open Py

namespace NtripCaster

variable {F : Type} [PyFloat F]

/-! ## Paths and resources -/

def resourceNames : List String :=
  ["geofences", "users", "tiers", "mountpoints"]

/-- The paths that the dispatch asks for as a whole before the resources. -/
def fixedPaths : List String :=
  AdminRequest.publicPaths ++ ["/admin/token/revoke", "/admin/me"]

omit [PyFloat F] in
theorem resource?_of_fixed {req : AdminRequest F}
    (hfixed : req.path ∈ fixedPaths) :
    ∀ name ∈ resourceNames, req.resource? ≠ some name := by
  have hpaths : ∀ path ∈ fixedPaths, ∀ name ∈ resourceNames,
      (split '/' (stripChar '/' path))[1]? ≠ some name := by
    decide +kernel
  intro name hname
  exact hpaths req.path hfixed name hname

/-- Where the role check looks for the whole path. -/
def basePaths : List String :=
  ["/admin/disable", "/admin/enable", "/admin/kick"]

omit [PyFloat F] in
theorem resource?_of_base {req : AdminRequest F} {base : String}
    (hbase : base ∈ basePaths) (hpath : startsWith req.path base = true) :
    ∀ name ∈ resourceNames,
      req.resource? ≠ some name := by
  have hchars : ∃ c rest,
      req.path.toList = "/admin/".toList ++ c :: rest ∧
        (c = 'd' ∨ c = 'e' ∨ c = 'k') := by
    unfold startsWith at hpath
    rcases List.isPrefixOf_iff_prefix.mp hpath with ⟨rest, hrest⟩
    simp only [basePaths, List.mem_cons, List.not_mem_nil, or_false] at hbase
    rcases hbase with rfl | rfl | rfl
    · exact ⟨'d', "isable".toList ++ rest, hrest.symm, by simp⟩
    · exact ⟨'e', "nable".toList ++ rest, hrest.symm, by simp⟩
    · exact ⟨'k', "ick".toList ++ rest, hrest.symm, by simp⟩
  rcases hchars with ⟨c, rest, hlist, hc⟩
  have hslash : c ≠ '/' := by
    rcases hc with rfl | rfl | rfl <;> decide
  rcases AdminRequest.resource?_head hlist hslash with ⟨seg, hseg, hhead⟩
  intro name hname hresource
  rw [hseg] at hresource
  obtain rfl := Option.some.inj hresource
  have hfirst : c ≠ 'g' ∧ c ≠ 'u' ∧ c ≠ 't' ∧ c ≠ 'm' := by
    rcases hc with rfl | rfl | rfl <;> decide
  rcases hfirst with ⟨hg, hu, ht, hm⟩
  simp only [resourceNames, List.mem_cons, List.not_mem_nil, or_false]
    at hname
  rcases hname with rfl | rfl | rfl | rfl
  · exact hg (by simpa using hhead.symm)
  · exact hu (by simpa using hhead.symm)
  · exact ht (by simpa using hhead.symm)
  · exact hm (by simpa using hhead.symm)

/-! ## The filters and the token check -/

/-- What the filters and the token check change: buckets, and revocations that
are over. -/
structure SameButBuckets (s s' : NtripCaster F) : Prop where
  file : s'.file = s.file
  cfgPath : s'.cfgPath = s.cfgPath
  environ : s'.environ = s.environ
  caster : s'.caster = s.caster
  secret : s'.jwt.secret = s.jwt.secret
  revoked : JwtManager.NoNewRevocation s.jwt s'.jwt

omit [PyFloat F] in
theorem SameButBuckets.trans {s s' s'' : NtripCaster F}
    (hfirst : SameButBuckets s s') (hsecond : SameButBuckets s' s'') :
    SameButBuckets s s'' :=
  ⟨hsecond.file.trans hfirst.file, hsecond.cfgPath.trans hfirst.cfgPath,
    hsecond.environ.trans hfirst.environ,
    hsecond.caster.trans hfirst.caster,
    hsecond.secret.trans hfirst.secret,
    hfirst.revoked.trans hsecond.revoked⟩

theorem SameButBuckets.write? {s s' : NtripCaster F}
    (hsame : SameButBuckets s s') (updater : Updater F)
    (diskError : Option PyErr) :
    s'.write? updater diskError = s.write? updater diskError := by
  unfold NtripCaster.write? committed
  rw [hsame.file, hsame.cfgPath, hsame.environ]

omit [PyFloat F] in
theorem adminRateOk_same (s : NtripCaster F) (ip : String) (now : ℚ) :
    SameButBuckets s (s.adminRateOk ip now).2 := by
  unfold adminRateOk
  split_ifs
  · exact ⟨rfl, rfl, rfl, rfl, rfl, .refl s.jwt⟩
  · exact ⟨rfl, rfl, rfl, rfl, rfl, .refl s.jwt⟩

omit [PyFloat F] in
theorem adminRateOk_jwt (s : NtripCaster F) (ip : String) (now : ℚ) :
    (s.adminRateOk ip now).2.jwt = s.jwt := by
  unfold adminRateOk
  split_ifs <;> rfl

structure PassesFilters (s : NtripCaster F) (req : AdminRequest F)
    (m : Moment) : Prop where
  address : s.adminIpOk req = true
  rate : (s.adminRateOk req.clientIp m.monotonic).1 = true
  query : queryOk req = true

/-! ## Updates and resources -/

theorem answerUpdate_server (s : NtripCaster F) (m : Moment)
    (updater : Updater F) (answer : Bool → String → Reply F)
    (failed : PyErr → Except PyErr (Reply F)) :
    (s.answerUpdate m updater answer failed).server =
      (s.updateConfig updater m.diskError).2 := by
  unfold answerUpdate
  split
  next heq => rw [heq]; rfl
  next heq => rw [heq]

section Reads

variable [SchemaLib F]

theorem users_read {s : NtripCaster F} {req : AdminRequest F} {body : Json F}
    {m : Moment} {o : Outcome F} (hread : req.isWrite = false)
    (husers : s.users req body m = some o) : o.server = s := by
  simp only [AdminRequest.isWrite, Bool.or_eq_false_iff,
    decide_eq_false_iff_not] at hread
  rcases hread with ⟨⟨hpost, hpatch⟩, hdelete⟩
  unfold users at husers
  cases hnamed : req.named? with
  | none =>
      simp only [hnamed, if_neg hpost] at husers
      split_ifs at husers
      obtain rfl := Option.some.inj husers
      rfl
  | some ident =>
      simp only [hnamed, if_neg hpatch, if_neg hdelete] at husers
      split_ifs at husers
      cases huser : s.caster.cfg.users.get? ident with
      | none =>
          rw [huser] at husers
          obtain rfl := Option.some.inj husers
          rfl
      | some u =>
          rw [huser] at husers
          obtain rfl := Option.some.inj husers
          rfl

theorem tiers_read {s : NtripCaster F} {req : AdminRequest F} {body : Json F}
    {m : Moment} {o : Outcome F} (hread : req.isWrite = false)
    (htiers : s.tiers req body m = some o) : o.server = s := by
  simp only [AdminRequest.isWrite, Bool.or_eq_false_iff,
    decide_eq_false_iff_not] at hread
  rcases hread with ⟨⟨hpost, hpatch⟩, hdelete⟩
  unfold tiers at htiers
  cases hnamed : req.named? with
  | none =>
      simp only [hnamed, if_neg hpost] at htiers
      split_ifs at htiers
      obtain rfl := Option.some.inj htiers
      rfl
  | some ident =>
      simp only [hnamed, if_neg hpatch, if_neg hdelete] at htiers
      split_ifs at htiers
      cases htier : s.caster.cfg.tiers.get? ident with
      | none =>
          rw [htier] at htiers
          obtain rfl := Option.some.inj htiers
          rfl
      | some t =>
          rw [htier] at htiers
          obtain rfl := Option.some.inj htiers
          rfl

theorem mountpoints_read {s : NtripCaster F} {req : AdminRequest F}
    {body : Json F} {m : Moment} {o : Outcome F}
    (hread : req.isWrite = false)
    (hmountpoints : s.mountpoints req body m = some o) : o.server = s := by
  simp only [AdminRequest.isWrite, Bool.or_eq_false_iff,
    decide_eq_false_iff_not] at hread
  rcases hread with ⟨⟨hpost, hpatch⟩, hdelete⟩
  unfold mountpoints at hmountpoints
  cases hnamed : req.named? with
  | none =>
      simp only [hnamed, if_neg hpost] at hmountpoints
      split_ifs at hmountpoints
      obtain rfl := Option.some.inj hmountpoints
      rfl
  | some ident =>
      simp [hnamed, hpost, hpatch, hdelete] at hmountpoints

theorem resource_none {s : NtripCaster F} {b : Bearer F}
    {req : AdminRequest F} {body : Json F} {m : Moment}
    (hno : ∀ name ∈ resourceNames, req.resource? ≠ some name) :
    s.resource b req body m = none := by
  have hgeofences := hno "geofences" (by decide)
  have husers := hno "users" (by decide)
  have htiers := hno "tiers" (by decide)
  have hmountpoints := hno "mountpoints" (by decide)
  unfold resource
  simp [hgeofences, husers, htiers, hmountpoints]

theorem dispatch_of_resource [Crypto] [JwtLib F] {s : NtripCaster F}
    {b : Bearer F} {req : AdminRequest F} {m : Moment} {name : String}
    (hname : name ∈ resourceNames) (hresource : req.resource? = some name) :
    s.dispatch b req m =
      (s.resource b req req.bodyJson m).getD
        (s.operation b req req.bodyJson m) := by
  have hpath : ∀ path ∈ fixedPaths, req.path ≠ path := by
    rintro path hpath rfl
    exact resource?_of_fixed hpath name hname hresource
  have hlogin := hpath "/admin/login" (by decide)
  have hrefresh := hpath "/admin/token/refresh" (by decide)
  have hrevoke := hpath "/admin/token/revoke" (by decide)
  have hme := hpath "/admin/me" (by decide)
  simp [dispatch, hlogin, hrefresh, hrevoke, hme]

end Reads

inductive GeofenceOutcome (s : NtripCaster F) (p : Principal)
    (req : AdminRequest F) (body : Json F) (m : Moment)
    (s' : NtripCaster F) : Prop
  | kept (hs' : s' = s)
  | created (draft : GeofenceDraft F) (hmethod : req.method = "POST")
      (hident : req.ident? = none)
      (hsubject : p.isEditor = true →
        p.subUser ∉ ["", "public", "static"])
      (hdraft : geofenceDraft p body = .ok (.ok draft))
      (hs' : s' = (s.updateConfig (createGeofence draft) m.diskError).2)
  | patched (ident : String) (poly mode : Json F) (gj : Option (Json F))
      (hs' : s' = (s.updateConfig
        (patchGeofence p ident poly mode gj body) m.diskError).2)
  | deleted (ident : String)
      (hs' : s' = (s.updateConfig (deleteGeofence p ident) m.diskError).2)

theorem patchGeofenceRequest_outcome (s : NtripCaster F) (p : Principal)
    (req : AdminRequest F) (ident : String) (body : Json F) (m : Moment) :
    GeofenceOutcome s p req body m
      (s.patchGeofenceRequest p ident body m).server := by
  unfold patchGeofenceRequest
  split
  · exact .kept rfl
  · exact .kept rfl
  · exact .kept rfl
  · exact .kept rfl
  · rw [answerUpdate_server]
    exact .patched ident _ _ _ rfl

theorem geofences_outcome {s : NtripCaster F} {p : Principal}
    {req : AdminRequest F} {body : Json F} {m : Moment} {o : Outcome F}
    (hgeofences : s.geofences p req body m = some o) :
    GeofenceOutcome s p req body m o.server := by
  unfold geofences at hgeofences
  by_cases hdenied : (req.isWrite && !(p.isAdmin || p.isEditor)) = true
  · rw [if_pos hdenied] at hgeofences
    obtain rfl := Option.some.inj hgeofences
    exact .kept rfl
  rw [if_neg hdenied] at hgeofences
  by_cases hsubject :
      (p.isEditor && (p.subUser ∈ ["", "public", "static"])) = true
  · rw [if_pos hsubject] at hgeofences
    obtain rfl := Option.some.inj hgeofences
    exact .kept rfl
  rw [if_neg hsubject] at hgeofences
  cases hnamed : req.named? with
  | none =>
      simp only [hnamed] at hgeofences
      split_ifs at hgeofences with hident hget hpost
      · obtain rfl := Option.some.inj hgeofences
        exact .kept rfl
      · obtain rfl := Option.some.inj hgeofences
        unfold postGeofence
        split
        · exact .kept rfl
        · exact .kept rfl
        next draft hdraft =>
          rw [answerUpdate_server]
          have hsubject' : p.isEditor = true →
              p.subUser ∉ ["", "public", "static"] := by
            intro heditor hmem
            exact hsubject (by simp [heditor, hmem])
          exact .created draft hpost (by simpa using hident) hsubject' hdraft
            rfl
  | some ident =>
      simp only [hnamed] at hgeofences
      split_ifs at hgeofences with hpatch hdelete
      · obtain rfl := Option.some.inj hgeofences
        exact s.patchGeofenceRequest_outcome p req ident body m
      · obtain rfl := Option.some.inj hgeofences
        unfold deleteGeofenceRequest
        rw [answerUpdate_server]
        exact .deleted ident rfl

omit [PyFloat F] in
theorem auditAdd_eq (s : NtripCaster F) (item : AuditItem F) :
    s.auditAdd item = { s with audit := (s.auditAdd item).audit } := by
  simp only [auditAdd]

/-- A switch that gets as far as an update, or else leaves the server alone. -/
inductive SwitchOutcome (s : NtripCaster F) (req : AdminRequest F)
    (body : Json F) (m : Moment) (updater : String → Updater F)
    (s' : NtripCaster F) : Prop
  | kept (hno : ∀ value, req.method = "POST" →
        body.getD "mountpoint" (.str "") = .ok value → value.pyStr = "")
      (hs' : s' = s)
  | updated (value : Json F) (hmethod : req.method = "POST")
      (hvalue : body.getD "mountpoint" (.str "") = .ok value)
      (hname : value.pyStr ≠ "")
      (hs' : s' = { (s.updateConfig (updater value.pyStr) m.diskError).2 with
        audit := s'.audit })

theorem switchMountpoint_outcome (s : NtripCaster F) (b : Bearer F)
    (req : AdminRequest F) (body : Json F) (m : Moment) (action : String)
    (updater : String → Updater F) :
    SwitchOutcome s req body m updater
      (s.switchMountpoint b req body m action updater).server := by
  unfold switchMountpoint
  by_cases hmethod : req.method = "POST"
  swap
  · rw [if_pos hmethod]
    exact .kept (fun _ hpost _ => (hmethod hpost).elim) rfl
  rw [if_neg (not_not.mpr hmethod)]
  cases hvalue : body.getD "mountpoint" (.str "") with
  | error e =>
      refine .kept (fun value _ hok => ?_) rfl
      rw [hvalue] at hok
      cases hok
  | ok value =>
      dsimp only
      by_cases hname : value.pyStr = ""
      · rw [if_pos hname]
        refine .kept (fun value' _ hok => ?_) rfl
        rw [hvalue] at hok
        obtain rfl := Except.ok.inj hok
        exact hname
      · rw [if_neg hname]
        split
        next heq =>
          refine .updated value hmethod hvalue hname ?_
          rw [heq]
          rfl
        next heq =>
          refine .updated value hmethod hvalue hname ?_
          rw [heq]
          exact auditAdd_eq _ _

inductive KickOutcome (s : NtripCaster F) (req : AdminRequest F)
    (body : Json F) (s' : NtripCaster F) : Prop
  | kept (hno : ∀ connv mpv, req.method = "POST" →
        body.getD "conn_id" .null = .ok connv →
        body.getD "mountpoint" .null = .ok mpv → False)
      (hs' : s' = s)
  | missed (connv mpv : Json F)
      (hconnv : body.getD "conn_id" .null = .ok connv)
      (hmpv : body.getD "mountpoint" .null = .ok mpv)
      (htarget : kickTarget? connv mpv = none)
      (hs' : s' = { s with audit := s'.audit })
  | kicked (connv mpv : Json F) (connId : ℤ) (mp : String)
      (hmethod : req.method = "POST")
      (hconnv : body.getD "conn_id" .null = .ok connv)
      (hmpv : body.getD "mountpoint" .null = .ok mpv)
      (htarget : kickTarget? connv mpv = some (connId, mp))
      (hs' : s' = { s with
        caster := (s.caster.kickRover connId mp).2, audit := s'.audit })

theorem kick_outcome (s : NtripCaster F) (b : Bearer F)
    (req : AdminRequest F) (body : Json F) (m : Moment) :
    KickOutcome s req body (s.kick b req body m).server := by
  unfold kick
  by_cases hmethod : req.method = "POST"
  swap
  · rw [if_pos hmethod]
    exact .kept (fun _ _ hpost _ _ => hmethod hpost) rfl
  rw [if_neg (not_not.mpr hmethod)]
  cases hconnv : body.getD "conn_id" .null with
  | error e =>
      refine .kept (fun connv _ _ hok _ => ?_) rfl
      rw [hconnv] at hok
      cases hok
  | ok connv =>
      cases hmpv : body.getD "mountpoint" .null with
      | error e =>
          refine .kept (fun _ mpv _ _ hok => ?_) rfl
          rw [hmpv] at hok
          cases hok
      | ok mpv =>
          cases htarget : kickTarget? connv mpv with
          | none =>
              refine .missed connv mpv hconnv hmpv htarget ?_
              simp only [htarget]
              exact auditAdd_eq _ _
          | some target =>
              refine .kicked connv mpv target.1 target.2 hmethod hconnv hmpv
                htarget ?_
              simp only [htarget]
              exact auditAdd_eq _ _

/-- What is not one of the three operations goes to the rover part, or is
answered and leaves the server alone. -/
inductive OperationOutcome [Crypto] (s : NtripCaster F) (b : Bearer F)
    (req : AdminRequest F) (body : Json F) (m : Moment) (o : Outcome F) : Prop
  | replied (reply : Reply F) (hreply : reply ≠ .rover)
      (ho : o = s.replies reply)
  | raised (e : PyErr) (ho : o = s.raises e)
  | operates (base : String) (hbase : base ∈ basePaths)
      (hpath : startsWith req.path base = true)
      (hrole : ¬ (req.path ∈ operationPaths ∧ req.method = "POST" ∧
        (!b.principal.isAdmin) = true))
      (ho : base = "/admin/disable" ∧ o = s.disable b req body m ∨
        base = "/admin/enable" ∧ o = s.enable b req body m ∨
        base = "/admin/kick" ∧ o = s.kick b req body m)
  | passed (ho : o = ⟨{ s with
      caster := s.caster.handleRover ⟨req.addr, req.path, req.headers⟩
        m.monotonic }, .ok .rover⟩)

theorem operation_outcome [Crypto] (s : NtripCaster F) (b : Bearer F)
    (req : AdminRequest F) (body : Json F) (m : Moment) :
    OperationOutcome s b req body m (s.operation b req body m) := by
  have hpage : OperationOutcome s b req body m (s.replies .page) :=
    .replied .page (by simp) rfl
  unfold operation
  by_cases hrole : req.path ∈ operationPaths ∧ req.method = "POST" ∧
      (!b.principal.isAdmin) = true
  · rw [if_pos hrole]
    exact .replied .writeRequiresAdmin
      (by simp [Reply.writeRequiresAdmin, Reply.failure]) rfl
  rw [if_neg hrole]
  by_cases hopenapi : req.path = "/admin/openapi.json"
  · rw [if_pos hopenapi]
    exact hpage
  rw [if_neg hopenapi]
  by_cases hstatus : req.path = "/admin/status"
  · rw [if_pos hstatus]
    unfold status
    split_ifs
    · exact hpage
    · exact .raised _ rfl
  rw [if_neg hstatus]
  by_cases hrovers : startsWith req.path "/admin/rovers" = true
  · rw [if_pos hrovers]
    exact hpage
  rw [if_neg hrovers]
  by_cases hdisable : startsWith req.path "/admin/disable" = true
  · rw [if_pos hdisable]
    exact .operates "/admin/disable" (by decide) hdisable hrole
      (.inl ⟨rfl, rfl⟩)
  rw [if_neg hdisable]
  by_cases henable : startsWith req.path "/admin/enable" = true
  · rw [if_pos henable]
    exact .operates "/admin/enable" (by decide) henable hrole
      (.inr (.inl ⟨rfl, rfl⟩))
  rw [if_neg henable]
  by_cases hkick : startsWith req.path "/admin/kick" = true
  · rw [if_pos hkick]
    exact .operates "/admin/kick" (by decide) hkick hrole
      (.inr (.inr ⟨rfl, rfl⟩))
  rw [if_neg hkick]
  by_cases haudit : startsWith req.path "/admin/audit" = true
  · rw [if_pos haudit]
    unfold auditTail
    split_ifs
    · exact .replied usePost (by simp [usePost, Reply.failure]) rfl
    · exact .replied _ (by simp) rfl
  · rw [if_neg haudit]
    exact .passed rfl

/-! ## Tokens -/

section Tokens

variable [JwtLib F]

theorem decode_same (s : NtripCaster F) (token typ : String)
    (libNow now : ℤ) :
    SameButBuckets s { s with
      jwt := (s.jwt.decode token typ libNow now :
        Option (Claims F) × JwtManager).2 } :=
  ⟨rfl, rfl, rfl, rfl, (s.jwt.decode_sameMint token typ libNow now).secret,
    s.jwt.decode_noNew token typ libNow now⟩

def PresentsAccess (s : NtripCaster F) (req : AdminRequest F) (m : Moment)
    (claims : Claims F) : Prop :=
  s.jwt.secret ≠ "" ∧ req.bearer ≠ "" ∧
    (s.jwt.decode req.bearer "access" (m.time 0) (m.time 1)).1 = some claims

theorem authenticate_same [Crypto] (s : NtripCaster F) (req : AdminRequest F)
    (m : Moment) : SameButBuckets s (s.authenticate req m).2 := by
  unfold authenticate
  by_cases hpublic : req.path ∈ AdminRequest.publicPaths
  · rw [if_pos hpublic]
    exact ⟨rfl, rfl, rfl, rfl, rfl, .refl s.jwt⟩
  · rw [if_neg hpublic]
    dsimp only
    by_cases htoken : s.jwt.secret ≠ "" ∧ req.bearer ≠ ""
    · rw [if_pos htoken]
      have hsame := s.decode_same req.bearer "access" (m.time 0) (m.time 1)
      dsimp only
      split
      · exact hsame
      · split_ifs <;> exact hsame
    · rw [if_neg htoken]
      dsimp only
      split_ifs <;> exact ⟨rfl, rfl, rfl, rfl, rfl, .refl s.jwt⟩

/-- A valid access token is accepted, and its claims are those of the bearer
unless the endpoint is public. -/
theorem authenticate_of_access [Crypto] {s : NtripCaster F}
    {req : AdminRequest F} {m : Moment} {claims : Claims F}
    (haccess : s.PresentsAccess req m claims) :
    ∃ b s', s.authenticate req m = (some b, s') ∧ SameButBuckets s s' ∧
      (b.principal = principalOf claims ∨
        req.path ∈ AdminRequest.publicPaths) := by
  rcases haccess with ⟨hsecret, hbearer, hdecode⟩
  unfold authenticate
  by_cases hpublic : req.path ∈ AdminRequest.publicPaths
  · rw [if_pos hpublic]
    exact ⟨_, s, rfl, ⟨rfl, rfl, rfl, rfl, rfl, .refl s.jwt⟩, .inr hpublic⟩
  · rw [if_neg hpublic]
    dsimp only
    rw [if_pos ⟨hsecret, hbearer⟩]
    simp only [hdecode]
    exact ⟨_, _, rfl, s.decode_same req.bearer "access" (m.time 0)
      (m.time 1), .inl rfl⟩

theorem login_server [Crypto] (s : NtripCaster F) (body : Json F)
    (m : Moment) : (s.login body m).server = s := by
  unfold login
  dsimp only
  split
  · rfl
  · rfl
  next uname pwd huname hpwd =>
    cases s.caster.cfg.users.get? uname with
    | none => rfl
    | some u =>
        by_cases hsecret : s.jwt.secret = ""
        · simp only [if_pos hsecret]
          rfl
        simp only [if_neg hsecret]
        cases verifyPassword u pwd with
        | none => rfl
        | some valid =>
            cases valid with
            | false => rfl
            | true =>
                dsimp only
                split_ifs
                · split <;> rfl
                · rfl

/-- A request with a valid access token is stopped by a filter, or it is
dispatched with the claims of the token. -/
inductive AccessOutcome [Crypto] [SchemaLib F] (s : NtripCaster F)
    (req : AdminRequest F) (m : Moment) (claims : Claims F)
    (s' : NtripCaster F) : Prop
  | stopped (hfilters : ¬ s.PassesFilters req m)
      (hsame : SameButBuckets s s')
  | dispatched (b : Bearer F) (s₁ : NtripCaster F)
      (hfilters : s.PassesFilters req m) (hsame : SameButBuckets s s₁)
      (hwho : b.principal = principalOf claims ∨
        req.path ∈ AdminRequest.publicPaths)
      (hs' : s' = (s₁.dispatch b req m).server)

theorem handleAdmin_outcome [Crypto] [SchemaLib F] {s : NtripCaster F}
    {req : AdminRequest F} {m : Moment} {claims : Claims F}
    (haccess : s.PresentsAccess req m claims) :
    AccessOutcome s req m claims (s.handleAdmin req m).server := by
  unfold handleAdmin
  cases haddress : s.adminIpOk req with
  | false =>
      refine .stopped (fun hfilters => ?_)
        ⟨rfl, rfl, rfl, rfl, rfl, .refl s.jwt⟩
      have hpasses := hfilters.address
      rw [haddress] at hpasses
      cases hpasses
  | true =>
      cases hrate : s.adminRateOk req.clientIp m.monotonic with
      | mk ok s₁ =>
          have hsame₁ := s.adminRateOk_same req.clientIp m.monotonic
          have hjwt := s.adminRateOk_jwt req.clientIp m.monotonic
          rw [hrate] at hsame₁ hjwt
          cases ok with
          | false =>
              refine .stopped (fun hfilters => ?_) hsame₁
              have hpasses := hfilters.rate
              rw [hrate] at hpasses
              cases hpasses
          | true =>
              have haccess₁ : s₁.PresentsAccess req m claims := by
                unfold PresentsAccess at haccess ⊢
                rwa [hjwt]
              rcases authenticate_of_access haccess₁ with
                ⟨b, s₂, hauth, hsame₂, hwho⟩
              have hsame := hsame₁.trans hsame₂
              simp only [hauth]
              cases hquery : queryOk req with
              | false =>
                  refine .stopped (fun hfilters => ?_) hsame
                  have hpasses := hfilters.query
                  rw [hquery] at hpasses
                  cases hpasses
              | true =>
                  have hfilters : s.PassesFilters req m :=
                    ⟨haddress, by rw [hrate], hquery⟩
                  exact .dispatched b s₂ hfilters hsame hwho rfl

inductive RefreshOutcome (s : NtripCaster F) (body : Json F) (m : Moment)
    (s' : NtripCaster F) : Prop
  | kept (hs' : s' = s)
  | refused (rtok : String) (hrtok : bodyText body "refresh" = .ok rtok)
      (hs' : s' = (s.presentedRefresh rtok m : Option (Claims F) × _).2)
  | rotated (rtok : String) (claims : Claims F)
      (hrtok : bodyText body "refresh" = .ok rtok)
      (hclaims : (s.presentedRefresh rtok m).1 = some claims)
      (hs' : s' = (s.presentedRefresh rtok m : Option (Claims F) × _).2.rotate
        claims m)

theorem tokenRefresh_outcome (s : NtripCaster F) (body : Json F)
    (m : Moment) :
    RefreshOutcome s body m (s.tokenRefresh body m).server := by
  unfold tokenRefresh
  split
  · exact .kept rfl
  next rtok hrtok =>
    split
    next s₁ hpresented =>
      refine .refused rtok hrtok ?_
      rw [hpresented]
      rfl
    next claims s₁ hpresented =>
      refine .rotated rtok claims hrtok ?_ ?_
      · rw [hpresented]
      · dsimp only
        rw [hpresented]
        split <;> rfl

/-! ### Only the revocations -/

theorem tokenRefresh_jwt (s : NtripCaster F) (body : Json F) (m : Moment) :
    ∃ jwt, (s.tokenRefresh body m).server = { s with jwt := jwt } := by
  cases s.tokenRefresh_outcome body m with
  | kept hs' => exact ⟨s.jwt, hs'⟩
  | refused rtok hrtok hs' => exact ⟨_, hs'⟩
  | rotated rtok claims hrtok hclaims hs' =>
      rw [hs']
      unfold rotate
      cases expOf claims <;> exact ⟨_, rfl⟩

theorem revocationOf_jwt (s : NtripCaster F) (body : Json F) (m : Moment) :
    ∃ jwt, (s.revocationOf body m).2 = { s with jwt := jwt } ∧
      JwtManager.NoNewRevocation s.jwt jwt := by
  unfold revocationOf
  dsimp only
  split
  · exact ⟨s.jwt, rfl, .refl s.jwt⟩
  · split_ifs
    · split <;> exact ⟨_, rfl, s.jwt.decode_noNew _ _ (m.time 2) (m.time 3)⟩
    · exact ⟨s.jwt, rfl, .refl s.jwt⟩

theorem tokenRevoke_jwt (s : NtripCaster F) (b : Bearer F) (body : Json F)
    (m : Moment) :
    ∃ jwt, (s.tokenRevoke b body m).server = { s with jwt := jwt } := by
  rcases s.revocationOf_jwt body m with ⟨jwt, hjwt, _⟩
  unfold tokenRevoke
  split_ifs
  · exact ⟨s.jwt, rfl⟩
  · generalize s.revocationOf body m = revocation at hjwt ⊢
    rcases revocation with ⟨e | ⟨jti, exp⟩, s'⟩
    · exact ⟨jwt, hjwt⟩
    · dsimp only at hjwt ⊢
      rw [hjwt]
      split_ifs <;> exact ⟨_, rfl⟩

theorem authenticate_jwt [Crypto] (s : NtripCaster F) (req : AdminRequest F)
    (m : Moment) :
    ∃ jwt, (s.authenticate req m).2 = { s with jwt := jwt } := by
  unfold authenticate
  by_cases hpublic : req.path ∈ AdminRequest.publicPaths
  · rw [if_pos hpublic]
    exact ⟨s.jwt, rfl⟩
  rw [if_neg hpublic]
  dsimp only
  by_cases htoken : s.jwt.secret ≠ "" ∧ req.bearer ≠ ""
  · rw [if_pos htoken]
    dsimp only
    split
    · exact ⟨_, rfl⟩
    · split_ifs <;> exact ⟨_, rfl⟩
  · rw [if_neg htoken]
    dsimp only
    split_ifs <;> exact ⟨_, rfl⟩

end Tokens

end NtripCaster

/-! ## A small server -/

@[reducible] def oneToken (claims : Claims ℚ) : JwtLib ℚ where
  encode _ _ := .ok "access-token"
  decode? token _ _ := if token = "access-token" then some claims else none

@[reducible] def anyBody : SchemaLib ℚ where
  violation? _ _ := none

def accessClaims (sub role : String) : Claims ℚ :=
  [("sub", .str sub), ("role", .str role), ("type", .str "access"),
    ("iat", .int 0), ("exp", .int 900), ("jti", .str "a1")]

/-- A server whose file holds a source password and this security section. -/
def smallServer (security : Json ℚ) : NtripCaster ℚ where
  caster := .oneUser
  environ := fun _ => none
  cfgPath := some "caster.json"
  file := .ok (.obj [("sources", .obj [("password", .str "s3cret")]),
    ("security", security)])
  ipAllow := []
  ipDeny := []
  adminIpAllow := []
  adminToken := ""
  adminRateLimitPerMin := 60
  adminBuckets := []
  jwt := ⟨"secret", 900, 604800, [], none⟩
  audit := []
  apiWsPort := 0
  geofencePolygons := .obj []
  diagCfg := []

def firstMoment : Moment where
  time := fun _ => 100
  monotonic := 0
  uuid := fun _ => "b2"
  diskError := none

def bearerRequest (method path : String) (body : Json ℚ) :
    AdminRequest ℚ where
  method := method
  path := path
  hasQuery := false
  headers := [("authorization", "Bearer access-token"),
    ("content-type", "application/json"), ("content-length", "99")]
  body := some body
  addr := "10.0.0.1:5000"
  clientIp := "10.0.0.1"
  traceId := "t1"

theorem bearerRequest_access (sub role method path : String)
    (body security : Json ℚ) :
    @NtripCaster.PresentsAccess ℚ _ (oneToken (accessClaims sub role))
      (smallServer security) (bearerRequest method path body) firstMoment
      (accessClaims sub role) := by
  have hbearer : (bearerRequest method path body).bearer =
      "access-token" := by
    change (bearerRequest "" "" .null).bearer = "access-token"
    decide +kernel
  have hsecret : "secret" ≠ "" := by
    decide
  unfold NtripCaster.PresentsAccess
  rw [hbearer]
  exact ⟨hsecret, by decide, rfl⟩

theorem bearerRequest_bodyJson {method : String} (path : String)
    (body : Json ℚ) (hmethod : method = "POST" ∨ method = "PATCH") :
    (bearerRequest method path body).bodyJson = body := by
  have hctype : startsWith (lower "application/json")
      "application/json" = true := by
    decide +kernel
  have hlength : int? "99" = some 99 := by
    decide +kernel
  have hannounced : (bearerRequest method path body).headers.get?
      "content-length" = some "99" := rfl
  have htype : (bearerRequest method path body).headers.get?
      "content-type" = some "application/json" := rfl
  have hm : (bearerRequest method path body).method = method := rfl
  unfold AdminRequest.bodyJson
  rw [hannounced, htype]
  simp only [hm, hmethod, Option.getD_some, hctype, hlength]
  rfl

end BabilCors
