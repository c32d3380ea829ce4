import BabilCors.AdminGate
import BabilCors.AdminReadOnly
import BabilCors.GeofenceOwnership
import BabilCors.ResponseTruth

/-!
# What the audit records

A request that changes anything commits an update, kicks a rover or revokes a
token.  Only the operations write to the audit, one record each, whose outcome
says whether the operation changed anything.  So a run is audited as long as
every change in it is made by an operation.
-/

namespace BabilCors

open Py TransitionRuns

namespace NtripCaster

variable {F : Type} [PyFloat F]

/-! ## The changes of a request -/

def commits (s : NtripCaster F) (updater : Updater F) (m : Moment) : Bool :=
  (s.write? updater m.diskError).isSome

/-- The switch of a mountpoint commits. -/
def switchChanges (s : NtripCaster F) (req : AdminRequest F) (body : Json F)
    (m : Moment) (updater : String → Updater F) : Bool :=
  req.method = "POST" &&
    match body.getD "mountpoint" (.str "") with
    | .ok value =>
        value.pyStr ≠ "" && s.commits (updater value.pyStr) m
    | .error _ => false

/-- The kick finds its rover. -/
def kickChanges (s : NtripCaster F) (req : AdminRequest F) (body : Json F) :
    Bool :=
  req.method = "POST" &&
    match body.getD "conn_id" .null, body.getD "mountpoint" .null with
    | .ok connv, .ok mpv =>
        (kickTarget? connv mpv).any fun (connId, mp) =>
          (s.caster.kickRover connId mp).1
    | _, _ => false

def operationChanges (s : NtripCaster F) (b : Bearer F)
    (req : AdminRequest F) (body : Json F) (m : Moment) : Bool :=
  if req.path ∈ operationPaths ∧ req.method = "POST" ∧
      !b.principal.isAdmin then
    false
  else if req.path = "/admin/openapi.json" ∨ req.path = "/admin/status" ∨
      startsWith req.path "/admin/rovers" then
    false
  else if startsWith req.path "/admin/disable" then
    s.switchChanges req body m disableMountpoint
  else if startsWith req.path "/admin/enable" then
    s.switchChanges req body m enableMountpoint
  else if startsWith req.path "/admin/kick" then s.kickChanges req body
  else false

section Requests

variable [Crypto] [JwtLib F] [SchemaLib F]

omit [Crypto] [SchemaLib F] in
/-- The exchange of a refresh token revokes it. -/
def refreshChanges (s : NtripCaster F) (body : Json F) (m : Moment) : Bool :=
  match bodyText body "refresh" with
  | .ok rtok =>
      (s.presentedRefresh rtok m).1.any fun claims : Claims F =>
        match expOf claims with
        | .ok exp => m.time 4 < exp
        | .error _ => false
  | .error _ => false

omit [Crypto] [SchemaLib F] in
def revokeChanges (s : NtripCaster F) (b : Bearer F) (body : Json F)
    (m : Moment) : Bool :=
  b.principal.isAdmin &&
    match (s.revocationOf body m).1 with
    | .ok (jti, exp) => jti ≠ "" && exp ≠ 0 && m.time 4 < exp
    | .error _ => false

/-- Whether the request commits an update, kicks a rover or revokes a
token. -/
def dispatchChanges (s : NtripCaster F) (b : Bearer F)
    (req : AdminRequest F) (m : Moment) : Bool :=
  if req.path = "/admin/token/refresh" ∧ req.method = "POST" then
    s.refreshChanges req.bodyJson m
  else if req.path = "/admin/token/revoke" ∧ req.method = "POST" then
    s.revokeChanges b req.bodyJson m
  else
    match s.resource b req req.bodyJson m with
    | some _ =>
        (resourceCall? b.principal req req.bodyJson).any fun call =>
          s.commits call.updater m
    | none => s.operationChanges b req req.bodyJson m

def changes (s : NtripCaster F) (req : AdminRequest F) (m : Moment) : Bool :=
  s.adminIpOk req &&
    match s.adminRateOk req.clientIp m.monotonic with
    | (false, _) => false
    | (true, s) =>
        match s.authenticate req m with
        | (none, _) => false
        | (some b, s) => queryOk req && s.dispatchChanges b req m

end Requests

/-! ## One record -/

/-- A request leaves the audit as it is, or it appends one record of itself,
whose outcome says whether it changed anything; no change goes without. -/
inductive AuditStep (req : AdminRequest F) (change : Bool)
    (audit audit' : List (AuditItem F)) : Prop
  | quiet (hchange : change = false) (haudit : audit' = audit)
  | record (item : AuditItem F) (hip : item.clientIp = req.clientIp)
      (htrace : item.traceId = req.traceId) (hok : item.ok = change)
      (haudit : audit' = (audit ++ [item]).rtake 1000)

omit [PyFloat F] in
theorem AuditStep.of_add {s : NtripCaster F} {req : AdminRequest F}
    {m : Moment} {action : String} {ok change : Bool}
    {detail : PyDict String (Json F)} (hok : ok = change) :
    AuditStep req change s.audit
      (s.auditAdd (auditItem req m action ok detail)).audit := by
  have haudit (item : AuditItem F) :
      (s.auditAdd item).audit = (s.audit ++ [item]).rtake 1000 := by
    simp only [auditAdd, List.rtake]
  exact .record _ rfl rfl hok (haudit _)

theorem updateConfig_audit (s : NtripCaster F) (updater : Updater F)
    (diskError : Option PyErr) :
    (s.updateConfig updater diskError).2.audit = s.audit := by
  cases s.updateConfig_outcome updater diskError with
  | kept _ hs' => rw [hs']
  | written raw _ hs' =>
      rw [hs']
      exact ({ s with file := .ok raw }).reloadFromDisk_keeps.1.audit

theorem switchMountpoint_audit (s : NtripCaster F) (b : Bearer F)
    (req : AdminRequest F) (body : Json F) (m : Moment) (action : String)
    (updater : String → Updater F) :
    AuditStep req (s.switchChanges req body m updater) s.audit
      (s.switchMountpoint b req body m action updater).server.audit := by
  unfold switchMountpoint switchChanges
  by_cases hmethod : req.method = "POST"
  swap
  · rw [if_pos hmethod]
    exact .quiet (by simp [hmethod]) rfl
  rw [if_neg (not_not.mpr hmethod)]
  cases body.getD "mountpoint" (.str "" : Json F) with
  | error e => exact .quiet (by simp) rfl
  | ok value =>
      dsimp only
      by_cases hname : value.pyStr = ""
      · rw [if_pos hname]
        exact .quiet (by simp [hname]) rfl
      rw [if_neg hname]
      have hverdict := s.updateConfig_verdict (updater value.pyStr)
        m.diskError
      have haudit := s.updateConfig_audit (updater value.pyStr) m.diskError
      generalize s.updateConfig (updater value.pyStr) m.diskError = updated
        at hverdict haudit ⊢
      rcases updated with ⟨result, s'⟩
      dsimp only at hverdict haudit
      rw [← haudit]
      cases hverdict with
      | done raw hwrite =>
          apply AuditStep.of_add
          simp [commits, hmethod, hname, hwrite]
      | refused msg hrefuses =>
          apply AuditStep.of_add
          simp [commits, hrefuses.write?]
      | denied text hwrite hlets =>
          exact .quiet (by simp [commits, hwrite]) rfl

theorem kick_audit (s : NtripCaster F) (b : Bearer F)
    (req : AdminRequest F) (body : Json F) (m : Moment) :
    AuditStep req (s.kickChanges req body) s.audit
      (s.kick b req body m).server.audit := by
  unfold kick kickChanges
  by_cases hmethod : req.method = "POST"
  swap
  · rw [if_pos hmethod]
    exact .quiet (by simp [hmethod]) rfl
  rw [if_neg (not_not.mpr hmethod)]
  cases body.getD "conn_id" (.null : Json F) with
  | error e => exact .quiet (by simp) rfl
  | ok connv =>
      cases body.getD "mountpoint" (.null : Json F) with
      | error e => exact .quiet (by simp) rfl
      | ok mpv =>
          cases htarget : kickTarget? connv mpv with
          | none =>
              simp only [htarget]
              apply AuditStep.of_add (s := s)
              simp
          | some target =>
              simp only [htarget]
              apply AuditStep.of_add (s := { s with
                caster := (s.caster.kickRover target.1 target.2).2 })
              simp [hmethod]

/-- What `operation` comes to, and whether it changes anything. -/
inductive ChangeOutcome [Crypto] (s : NtripCaster F) (b : Bearer F)
    (req : AdminRequest F) (body : Json F) (m : Moment) (change : Bool)
    (o : Outcome F) : Prop
  | replied (reply : Reply F) (hchange : change = false)
      (ho : o = s.replies reply)
  | raised (e : PyErr) (hchange : change = false) (ho : o = s.raises e)
  | switches (action : String) (updater : String → Updater F)
      (hchange : change = s.switchChanges req body m updater)
      (ho : o = s.switchMountpoint b req body m action updater)
  | kicks (hchange : change = s.kickChanges req body)
      (ho : o = s.kick b req body m)
  | passed (hchange : change = false)
      (ho : o = ⟨{ s with
        caster := s.caster.handleRover ⟨req.addr, req.path, req.headers⟩
          m.monotonic }, .ok .rover⟩)

theorem operation_change [Crypto] (s : NtripCaster F) (b : Bearer F)
    (req : AdminRequest F) (body : Json F) (m : Moment) :
    ChangeOutcome s b req body m (s.operationChanges b req body m)
      (s.operation b req body m) := by
  unfold operation operationChanges
  by_cases hrole : req.path ∈ operationPaths ∧ req.method = "POST" ∧
      (!b.principal.isAdmin) = true
  · rw [if_pos hrole, if_pos hrole]
    exact .replied .writeRequiresAdmin rfl rfl
  rw [if_neg hrole, if_neg hrole]
  by_cases hpage : req.path = "/admin/openapi.json" ∨
      req.path = "/admin/status" ∨ startsWith req.path "/admin/rovers" = true
  · rw [if_pos hpage]
    rcases hpage with hopenapi | hstatus | hrovers
    · rw [if_pos hopenapi]
      exact .replied .page rfl rfl
    · have hopenapi : req.path ≠ "/admin/openapi.json" := by
        rw [hstatus]
        decide
      rw [if_neg hopenapi, if_pos hstatus]
      unfold status
      split_ifs
      · exact .replied .page rfl rfl
      · exact .raised _ rfl rfl
    · have hstatus : req.path ≠ "/admin/status" := by
        intro hstatus
        rw [hstatus] at hrovers
        revert hrovers
        decide +kernel
      rw [if_neg hstatus, if_pos hrovers, ite_self]
      exact .replied .page rfl rfl
  rw [if_neg hpage]
  simp only [not_or] at hpage
  rcases hpage with ⟨hopenapi, hstatus, hrovers⟩
  rw [if_neg hopenapi, if_neg hstatus, if_neg hrovers]
  by_cases hdisable : startsWith req.path "/admin/disable" = true
  · rw [if_pos hdisable, if_pos hdisable]
    exact .switches "disable" disableMountpoint rfl rfl
  rw [if_neg hdisable, if_neg hdisable]
  by_cases henable : startsWith req.path "/admin/enable" = true
  · rw [if_pos henable, if_pos henable]
    exact .switches "enable" enableMountpoint rfl rfl
  rw [if_neg henable, if_neg henable]
  by_cases hkick : startsWith req.path "/admin/kick" = true
  · rw [if_pos hkick, if_pos hkick]
    exact .kicks rfl rfl
  rw [if_neg hkick, if_neg hkick]
  by_cases haudit : startsWith req.path "/admin/audit" = true
  · rw [if_pos haudit]
    unfold auditTail
    split_ifs
    · exact .replied usePost rfl rfl
    · exact .replied _ rfl rfl
  · rw [if_neg haudit]
    exact .passed rfl rfl

theorem operation_audit [Crypto] (s : NtripCaster F) (b : Bearer F)
    (req : AdminRequest F) (body : Json F) (m : Moment) :
    AuditStep req (s.operationChanges b req body m) s.audit
      (s.operation b req body m).server.audit := by
  cases s.operation_change b req body m with
  | replied reply hchange ho =>
      rw [ho]
      exact .quiet hchange rfl
  | raised e hchange ho =>
      rw [ho]
      exact .quiet hchange rfl
  | switches action updater hchange ho =>
      rw [hchange, ho]
      exact s.switchMountpoint_audit b req body m action updater
  | kicks hchange ho =>
      rw [hchange, ho]
      exact s.kick_audit b req body m
  | passed hchange ho =>
      rw [ho]
      exact .quiet hchange rfl

/-! ## The other handlers leave the audit alone -/

/-- The path is one of a disable, an enable or a kick. -/
def operates (req : AdminRequest F) : Bool :=
  basePaths.any fun base => startsWith req.path base

section Requests

variable [JwtLib F]

variable [Crypto] [SchemaLib F]

theorem dispatch_quiet {s : NtripCaster F} {b : Bearer F}
    {req : AdminRequest F} {m : Moment}
    (hno : ∀ base ∈ basePaths, startsWith req.path base = false) :
    (s.dispatch b req m).server.audit = s.audit := by
  unfold dispatch
  dsimp only
  split_ifs
  · rw [login_server]
  · rcases s.tokenRefresh_jwt req.bodyJson m with ⟨jwt, hjwt⟩
    rw [hjwt]
  · rcases s.tokenRevoke_jwt b req.bodyJson m with ⟨jwt, hjwt⟩
    rw [hjwt]
  · rfl
  · have hfollows := s.resource_follows b req req.bodyJson m
    generalize s.resource b req req.bodyJson m = o? at hfollows ⊢
    generalize resourceCall? b.principal req req.bodyJson = call?
      at hfollows
    cases hfollows with
    | calls call =>
        rw [Option.getD_some, answerUpdate_server]
        exact s.updateConfig_audit call.updater m.diskError
    | idle hkept =>
        cases o? with
        | none =>
            rcases operation_other (s := s) (b := b) (m := m) hno with
              ⟨caster, hoperation⟩
            rw [Option.getD_none, hoperation]
        | some o =>
            rw [Option.getD_some, hkept o rfl]

/-! ## One request -/

omit [Crypto] in
theorem dispatchChanges_of_base {s : NtripCaster F} {b : Bearer F}
    {req : AdminRequest F} {m : Moment} {base : String}
    (hbase : base ∈ basePaths) (hpath : startsWith req.path base = true) :
    s.dispatchChanges b req m =
      s.operationChanges b req req.bodyJson m := by
  have hne := ne_fixed_of_base hbase hpath
  have hrefresh := hne "/admin/token/refresh" (by decide)
  have hrevoke := hne "/admin/token/revoke" (by decide)
  unfold dispatchChanges
  simp [hrefresh, hrevoke, resource_none (resource?_of_base hbase hpath)]

theorem dispatch_audit (s : NtripCaster F) (b : Bearer F)
    (req : AdminRequest F) (m : Moment) :
    AuditStep req (operates req && s.dispatchChanges b req m) s.audit
      (s.dispatch b req m).server.audit := by
  cases hoperates : operates req with
  | true =>
      rcases List.any_eq_true.mp hoperates with ⟨base, hbase, hpath⟩
      rw [Bool.true_and, dispatch_of_base hbase hpath,
        dispatchChanges_of_base hbase hpath]
      exact s.operation_audit b req req.bodyJson m
  | false =>
      rw [Bool.false_and]
      apply AuditStep.quiet rfl
      apply dispatch_quiet
      intro base hbase
      simpa using List.any_eq_false.mp hoperates base hbase

/-- The audit records the changes of the operations, and no others. -/
theorem handleAdmin_audit (s : NtripCaster F) (req : AdminRequest F)
    (m : Moment) :
    AuditStep req (operates req && s.changes req m) s.audit
      (s.handleAdmin req m).server.audit := by
  unfold handleAdmin changes
  cases s.adminIpOk req with
  | false => exact .quiet (by simp) rfl
  | true =>
      rcases s.adminRateOk_eq req.clientIp m.monotonic with
        ⟨ok, buckets, hrate⟩
      simp only [hrate, Bool.not_true, Bool.false_eq_true, if_false,
        Bool.true_and]
      cases ok with
      | false => exact .quiet (by simp) rfl
      | true =>
          rcases (s.withBuckets buckets).authenticate_jwt req m with
            ⟨jwt, hjwt⟩
          rcases hauth : (s.withBuckets buckets).authenticate req m with
            ⟨b?, s'⟩
          rw [hauth] at hjwt
          have haudit : s'.audit = s.audit := by
            rw [show s' = _ from hjwt]
            rfl
          cases b? with
          | none =>
              refine .quiet ?_ ?_
              · simp only [hauth, Bool.and_false]
              · simp only [hauth]
                exact haudit
          | some b =>
              simp only [hauth]
              rw [← haudit]
              cases queryOk req with
              | false => exact .quiet (by simp) rfl
              | true => exact s'.dispatch_audit b req m

/-! ## Nothing else is changed -/

/-- A request without a change leaves the file as it is and revokes nothing
new. -/
structure Unchanged (s s' : NtripCaster F) : Prop where
  file : s'.file = s.file
  revoked : JwtManager.NoNewRevocation s.jwt s'.jwt

omit [PyFloat F] [JwtLib F] [Crypto] [SchemaLib F] in
theorem Unchanged.refl (s : NtripCaster F) : Unchanged s s :=
  ⟨rfl, .refl s.jwt⟩

omit [PyFloat F] [JwtLib F] [Crypto] [SchemaLib F] in
theorem Unchanged.trans {s s' s'' : NtripCaster F}
    (hfirst : Unchanged s s') (hsecond : Unchanged s' s'') :
    Unchanged s s'' :=
  ⟨hsecond.file.trans hfirst.file, hfirst.revoked.trans hsecond.revoked⟩

omit [JwtLib F] [Crypto] [SchemaLib F] in
theorem updateConfig_unchanged {s : NtripCaster F} {updater : Updater F}
    {m : Moment} (hno : s.commits updater m = false) :
    (s.updateConfig updater m.diskError).2 = s := by
  cases s.updateConfig_outcome updater m.diskError with
  | kept _ hs' => exact hs'
  | written raw hwrite _ =>
      simp [commits, hwrite] at hno

omit [JwtLib F] [Crypto] [SchemaLib F] in
theorem switchMountpoint_unchanged {s : NtripCaster F} (b : Bearer F)
    {req : AdminRequest F} {body : Json F} {m : Moment} (action : String)
    {updater : String → Updater F}
    (hno : s.switchChanges req body m updater = false) :
    Unchanged s (s.switchMountpoint b req body m action updater).server := by
  have houtcome := s.switchMountpoint_outcome b req body m action updater
  generalize (s.switchMountpoint b req body m action updater).server = s'
    at houtcome ⊢
  cases houtcome with
  | kept _ hs' =>
      rw [hs']
      exact .refl s
  | updated value hmethod hvalue hname hs' =>
      have hcommits : s.commits (updater value.pyStr) m = false := by
        simpa [switchChanges, hmethod, hvalue, hname] using hno
      rw [hs', updateConfig_unchanged hcommits]
      exact ⟨rfl, .refl s.jwt⟩

omit [JwtLib F] [Crypto] [SchemaLib F] in
theorem kick_unchanged (s : NtripCaster F) (b : Bearer F)
    (req : AdminRequest F) (body : Json F) (m : Moment) :
    Unchanged s (s.kick b req body m).server := by
  have houtcome := s.kick_outcome b req body m
  generalize (s.kick b req body m).server = s' at houtcome ⊢
  cases houtcome with
  | kept _ hs' | missed _ _ _ _ _ hs' | kicked _ _ _ _ _ _ _ _ hs' =>
      rw [hs']
      exact ⟨rfl, .refl s.jwt⟩

omit [Crypto] [SchemaLib F] in
theorem tokenRefresh_unchanged {s : NtripCaster F} {body : Json F}
    {m : Moment} (hno : s.refreshChanges body m = false) :
    Unchanged s (s.tokenRefresh body m).server := by
  cases s.tokenRefresh_outcome body m with
  | kept hs' =>
      rw [hs']
      exact .refl s
  | refused rtok hrtok hs' =>
      rw [hs']
      exact ⟨rfl, s.jwt.decode_noNew rtok "refresh" (m.time 2) (m.time 3)⟩
  | rotated rtok claims hrtok hclaims hs' =>
      have hpresented : Unchanged s
          (s.presentedRefresh rtok m : Option (Claims F) × _).2 :=
        ⟨rfl, s.jwt.decode_noNew rtok "refresh" (m.time 2) (m.time 3)⟩
      refine hpresented.trans ?_
      rw [hs']
      unfold rotate
      cases hexp : expOf claims with
      | error e => exact .refl _
      | ok exp =>
          have hover : exp ≤ m.time 4 := by
            simpa [refreshChanges, hrtok, hclaims, hexp] using hno
          simp only [JwtManager.revokeJti, if_pos hover]
          exact .refl _

omit [Crypto] [SchemaLib F] in
theorem tokenRevoke_unchanged {s : NtripCaster F} {b : Bearer F}
    {body : Json F} {m : Moment} (hno : s.revokeChanges b body m = false) :
    Unchanged s (s.tokenRevoke b body m).server := by
  rcases s.revocationOf_jwt body m with ⟨jwt, hjwt, hnone⟩
  unfold tokenRevoke
  unfold revokeChanges at hno
  by_cases hdenied : (!b.principal.isAdmin) = true
  · rw [if_pos hdenied]
    exact .refl s
  rw [if_neg hdenied]
  have hadmin : b.principal.isAdmin = true := by
    simpa using hdenied
  rw [hadmin, Bool.true_and] at hno
  generalize s.revocationOf body m = revocation at hjwt hno ⊢
  rcases revocation with ⟨e | ⟨jti, exp⟩, s'⟩
  · dsimp only at hjwt
    rw [hjwt]
    exact ⟨rfl, hnone⟩
  · dsimp only at hjwt hno ⊢
    have hread : Unchanged s s' := by
      rw [hjwt]
      exact ⟨rfl, hnone⟩
    refine hread.trans ?_
    by_cases hempty : jti = "" ∨ exp = 0
    · rw [if_pos hempty]
      exact .refl s'
    · rw [if_neg hempty]
      have hover : exp ≤ m.time 4 := by
        simp only [not_or] at hempty
        simpa [hempty.1, hempty.2] using hno
      simp only [JwtManager.revokeJti, if_pos hover]
      exact .refl s'

omit [JwtLib F] [SchemaLib F] in
theorem operation_unchanged {s : NtripCaster F} {b : Bearer F}
    {req : AdminRequest F} {body : Json F} {m : Moment}
    (hno : s.operationChanges b req body m = false) :
    Unchanged s (s.operation b req body m).server := by
  cases s.operation_change b req body m with
  | replied reply hchange ho =>
      rw [ho]
      exact .refl s
  | raised e hchange ho =>
      rw [ho]
      exact .refl s
  | switches action updater hchange ho =>
      rw [hchange] at hno
      rw [ho]
      exact switchMountpoint_unchanged b action hno
  | kicks hchange ho =>
      rw [ho]
      exact s.kick_unchanged b req body m
  | passed hchange ho =>
      rw [ho]
      exact ⟨rfl, .refl s.jwt⟩

theorem dispatch_unchanged {s : NtripCaster F} {b : Bearer F}
    {req : AdminRequest F} {m : Moment}
    (hno : s.dispatchChanges b req m = false) :
    Unchanged s (s.dispatch b req m).server := by
  unfold dispatch
  unfold dispatchChanges at hno
  dsimp only
  by_cases hlogin : req.path = "/admin/login" ∧ req.method = "POST"
  · rw [if_pos hlogin, login_server]
    exact .refl s
  rw [if_neg hlogin]
  by_cases hrefresh :
      req.path = "/admin/token/refresh" ∧ req.method = "POST"
  · rw [if_pos hrefresh] at hno ⊢
    exact tokenRefresh_unchanged hno
  rw [if_neg hrefresh] at hno ⊢
  by_cases hrevoke : req.path = "/admin/token/revoke" ∧ req.method = "POST"
  · rw [if_pos hrevoke] at hno ⊢
    exact tokenRevoke_unchanged hno
  rw [if_neg hrevoke] at hno ⊢
  by_cases hme : req.path = "/admin/me" ∧ req.method = "GET"
  · rw [if_pos hme]
    exact .refl s
  rw [if_neg hme]
  have hfollows := s.resource_follows b req req.bodyJson m
  generalize s.resource b req req.bodyJson m = o? at hfollows hno ⊢
  generalize resourceCall? b.principal req req.bodyJson = call?
    at hfollows hno
  cases hfollows with
  | calls call =>
      rw [Option.getD_some, answerUpdate_server]
      have hcommits : s.commits call.updater m = false := by
        simpa using hno
      rw [updateConfig_unchanged hcommits]
      exact .refl s
  | idle hkept =>
      cases o? with
      | none => exact operation_unchanged hno
      | some o =>
          rw [Option.getD_some, hkept o rfl]
          exact .refl s

/-- What `changes` leaves out changes neither the file nor the revocations. -/
theorem handleAdmin_unchanged {s : NtripCaster F} {req : AdminRequest F}
    {m : Moment} (hno : s.changes req m = false) :
    Unchanged s (s.handleAdmin req m).server := by
  unfold handleAdmin
  unfold changes at hno
  cases haddress : s.adminIpOk req with
  | false => exact .refl s
  | true =>
      rcases s.adminRateOk_eq req.clientIp m.monotonic with
        ⟨ok, buckets, hrate⟩
      rw [haddress, hrate] at hno
      simp only [hrate, Bool.not_true, Bool.false_eq_true, if_false]
      cases ok with
      | false => exact ⟨rfl, .refl s.jwt⟩
      | true =>
          have hsame := (s.withBuckets buckets).authenticate_same req m
          rcases hauth : (s.withBuckets buckets).authenticate req m with
            ⟨b?, s'⟩
          rw [hauth] at hsame
          have hchecked : Unchanged s s' := ⟨hsame.file, hsame.revoked⟩
          cases b? with
          | none =>
              simp only [hauth]
              exact hchecked
          | some b =>
              simp only [hauth] at hno ⊢
              cases hquery : queryOk req with
              | false => exact hchecked
              | true =>
                  rw [hquery] at hno
                  exact hchecked.trans
                    (dispatch_unchanged (by simpa using hno))

end Requests

/-! ## Runs -/

/-- The last records before further ones are appended do not matter. -/
theorem rtake_append_rtake {α : Type*} (n : ℕ) (first second : List α) :
    (first.rtake n ++ second).rtake n = (first ++ second).rtake n := by
  simp [List.rtake_eq_reverse_take_reverse, List.take_append,
    List.take_take]

section Runs

variable [Crypto] [JwtLib F] [SchemaLib F]

/-- The client addresses and the trace ids of the records of success. -/
def successes (items : List (AuditItem F)) : List (String × String) :=
  (items.filter AuditItem.ok).map fun item => (item.clientIp, item.traceId)

/-- The request is named when it is counted. -/
def namesOf (counted : NtripCaster F → AdminRequest F → Moment → Bool)
    (s : NtripCaster F) (event : AdminRequest F × Moment) :
    List (String × String) :=
  if counted s event.1 event.2 then
    [(event.1.clientIp, event.1.traceId)]
  else []

omit [PyFloat F] [Crypto] [JwtLib F] [SchemaLib F] in
theorem AuditStep.extends {req : AdminRequest F} {change : Bool}
    {start audit audit' items : List (AuditItem F)}
    (hstep : AuditStep req change audit audit')
    (haudit : audit = (start ++ items).rtake 1000) :
    ∃ items', audit' = (start ++ items').rtake 1000 ∧
      successes items' = successes items ++
        if change then [(req.clientIp, req.traceId)] else [] := by
  cases hstep with
  | quiet hchange haudit' =>
      refine ⟨items, haudit'.trans haudit, ?_⟩
      rw [hchange]
      simp
  | record item hip htrace hok haudit' =>
      refine ⟨items ++ [item], ?_, ?_⟩
      · rw [haudit', haudit, rtake_append_rtake, List.append_assoc]
      · unfold successes
        rw [List.filter_append, List.map_append, ← hok, ← hip, ← htrace]
        cases hitem : item.ok <;> simp [hitem]

/-- When each step appends a record of success exactly for a counted request,
the audit is the end of the records of the run, whose successes are the
counted requests in order. -/
theorem run_records
    {counted : NtripCaster F → AdminRequest F → Moment → Bool}
    {s s' : NtripCaster F} {events : List (AdminRequest F × Moment)}
    (hbound : s.audit.length ≤ 1000)
    (hmeets : StepsMeet adminStep (fun s event =>
      AuditStep event.1 (counted s event.1 event.2) s.audit
        (s.handleAdmin event.1 event.2).server.audit) s events)
    (hrun : run adminStep s events = some s') :
    ∃ items, s'.audit = (s.audit ++ items).rtake 1000 ∧
      successes items = outputs adminStep (namesOf counted) s events := by
  have hstart : ∃ items, s.audit = (s.audit ++ items).rtake 1000 ∧
      successes items = [] := by
    refine ⟨[], ?_, rfl⟩
    simp [List.rtake, Nat.sub_eq_zero_of_le hbound]
  refine StepsMeet.run_outputs (P := fun log state => ∃ items,
    state.audit = (s.audit ++ items).rtake 1000 ∧ successes items = log) ?_
    hstart hmeets hrun
  rintro log state event next ⟨items, haudit, hlog⟩ hstep hnext
  obtain rfl := Option.some.inj hnext
  rcases hstep.extends haudit with ⟨items', haudit', hlog'⟩
  refine ⟨items', haudit', ?_⟩
  rw [hlog', hlog]
  rfl

/-- In every run the audit records the changes made by the operations. -/
theorem run_records_operations {s s' : NtripCaster F}
    {events : List (AdminRequest F × Moment)}
    (hbound : s.audit.length ≤ 1000)
    (hrun : run adminStep s events = some s') :
    ∃ items, s'.audit = (s.audit ++ items).rtake 1000 ∧
      successes items = outputs adminStep
        (namesOf fun s req m => operates req && s.changes req m) s events := by
  refine run_records hbound (StepsMeet.of_forall ?_) hrun
  intro event _ state
  exact state.handleAdmin_audit event.1 event.2

/-- When every request that changes anything is a disable, an enable or a
kick, each change appends one record that names the client, the trace and the
success, and the audit is the end of the records of the run. -/
theorem run_audited {s s' : NtripCaster F}
    {events : List (AdminRequest F × Moment)}
    (hbound : s.audit.length ≤ 1000)
    (hmeets : StepsMeet adminStep (fun s event =>
      s.changes event.1 event.2 = true → operates event.1 = true) s events)
    (hrun : run adminStep s events = some s') :
    StepsMeet adminStep (fun s event =>
        AuditStep event.1 (s.changes event.1 event.2) s.audit
          (s.handleAdmin event.1 event.2).server.audit) s events ∧
      ∃ items, s'.audit = (s.audit ++ items).rtake 1000 ∧
        successes items = outputs adminStep (namesOf changes) s events := by
  have hsteps : StepsMeet adminStep (fun s event =>
      AuditStep event.1 (s.changes event.1 event.2) s.audit
        (s.handleAdmin event.1 event.2).server.audit) s events := by
    refine StepsMeet.of_invariant (P := fun _ => True) (fun _ _ _ _ _ _ =>
      trivial) ?_ trivial hmeets
    intro state event _ hoperates
    have haudit := state.handleAdmin_audit event.1 event.2
    cases hchanges : state.changes event.1 event.2 with
    | false => simpa [hchanges] using haudit
    | true => simpa [hchanges, hoperates hchanges] using haudit
  exact ⟨hsteps, run_records hbound hsteps hrun⟩

end Runs

end NtripCaster

/-! ## A disable and a new mountpoint -/

namespace NtripCaster

def disableRequest : AdminRequest ℚ :=
  adminRequest "POST" "/admin/disable" (.obj [("mountpoint", .str "MP1")])

/-- The only change of the run is recorded. -/
theorem run_audited_disable :
    ∃ items : List (AuditItem ℚ),
      (@handleAdmin ℚ _ noDigest adminJwt anyBody (smallServer (.obj []))
        disableRequest firstMoment).server.audit =
          ([] ++ items).rtake 1000 ∧
      successes items = [("10.0.0.1", "t1")] := by
  have haudited := @run_audited ℚ _ noDigest adminJwt anyBody
    (smallServer (.obj [])) _ [(disableRequest, firstMoment)]
    (Nat.zero_le _) ⟨fun _ => by decide +kernel, fun _ _ => trivial⟩ rfl
  have hchanges : @changes ℚ _ noDigest adminJwt anyBody
      (smallServer (.obj [])) disableRequest firstMoment = true := by
    decide +kernel
  have hnames : outputs (@adminStep ℚ _ adminJwt noDigest anyBody)
      (namesOf (@changes ℚ _ noDigest adminJwt anyBody))
      (smallServer (.obj [])) [(disableRequest, firstMoment)] =
        [("10.0.0.1", "t1")] := by
    simp only [outputs, namesOf, hchanges, if_true]
    rfl
  rw [hnames] at haudited
  exact haudited.2

/-- A new mountpoint is a change, and the audit stays empty. -/
theorem new_mountpoint_unaudited :
    @changes ℚ _ noDigest adminJwt anyBody (smallServer (.obj []))
        newMountpoint firstMoment = true ∧
      ¬ ∃ items : List (AuditItem ℚ),
        (@handleAdmin ℚ _ noDigest adminJwt anyBody (smallServer (.obj []))
          newMountpoint firstMoment).server.audit =
            ((smallServer (.obj [])).audit ++ items).rtake 1000 ∧
        successes items =
          [(newMountpoint.clientIp, newMountpoint.traceId)] := by
  refine ⟨by decide +kernel, ?_⟩
  rintro ⟨items, haudit, hsuccess⟩
  have hempty : (@handleAdmin ℚ _ noDigest adminJwt anyBody
      (smallServer (.obj [])) newMountpoint firstMoment).server.audit = [] :=
    List.length_eq_zero_iff.mp (by decide +kernel)
  rw [hempty] at haudit
  have hlength := congrArg List.length haudit
  have hnone : items = [] := by
    change 0 = (items.drop (items.length - 1000)).length at hlength
    rw [List.length_drop] at hlength
    apply List.length_eq_zero_iff.mp
    omega
  rw [hnone] at hsuccess
  cases hsuccess

end NtripCaster

end BabilCors
