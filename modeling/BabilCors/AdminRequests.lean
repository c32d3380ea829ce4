import BabilCors.NtripCaster

/-!
# Admin requests

The part of `_handle_http` for paths under `/admin/`: the filters, the token,
the body, and the handlers in the order in which the source asks for them.  A
handler that reads a value where the source would raise gives the exception in
place of the reply; what it had changed stays changed.
-/

namespace BabilCors

open Py

/-- A parsed request; the header names are in lower case.  The body is what the
announced bytes load to, when they arrive and are a JSON document. -/
structure AdminRequest (F : Type) where
  method : String
  path : String
  hasQuery : Bool
  headers : PyDict String String
  body : Option (Json F)
  addr : String
  clientIp : String
  traceId : String

/-- A reply.  The contents of the status page, the list of rovers, the list of
geofences and the API description are not modelled. -/
inductive Reply (F : Type) where
  | forbidden
  | tooManyRequests
  | json (status : ℕ) (body : Json F)
  | auditTail (items : List (AuditItem F))
  | page
  /-- The rover part of `_handle_http` answers. -/
  | rover

structure Outcome (F : Type) where
  server : NtripCaster F
  reply : Except PyErr (Reply F)

/-- A JSON schema of the source: the properties with their type and lower
bound, which are required, and whether there may be others. -/
structure BodySchema where
  properties : List (String × String × Option ℕ)
  required : List String
  additionalProperties : Bool
  deriving DecidableEq, Repr

/-- `jsonschema.validate`; the text is that of its `ValidationError`. -/
class SchemaLib (F : Type) where
  violation? : BodySchema → Json F → Option String

structure Bearer (F : Type) where
  claims : Claims F
  tokenFp : String

section Replies

variable {F : Type}

/-- `_send_json_error`. -/
def Reply.failure (status : ℕ) (code message : String)
    (details : Option String) : Reply F :=
  .json status (.obj ([("code", .str code), ("message", .str message)] ++
    (details.map fun text => ("details", Json.str text)).toList))

def Reply.updated (status : ℕ) (ok : Bool) (msg : String) : Reply F :=
  .json status (.obj [("ok", .bool ok), ("msg", .str msg)])

def Reply.done (status : ℕ) : Reply F :=
  .json status (.obj [("ok", .bool true)])

def Reply.writeRequiresAdmin : Reply F :=
  .failure 403 "forbidden" "write requires admin" none

namespace NtripCaster

def replies (s : NtripCaster F) (reply : Reply F) : Outcome F :=
  ⟨s, .ok reply⟩

def raises (s : NtripCaster F) (e : PyErr) : Outcome F :=
  ⟨s, .error e⟩

end NtripCaster

end Replies

namespace AdminRequest

variable {F : Type}

def publicPaths : List String :=
  ["/admin/login", "/admin/token/refresh"]

def bearer (req : AdminRequest F) : String :=
  let authz := strip ((req.headers.get? "authorization").getD "")
  if startsWith (lower authz) "bearer " then
    ((splitWsOnce? authz).map Prod.snd).getD ""
  else
    ""

/-- `body_json`: empty unless the request announces JSON that loads. -/
def bodyJson (req : AdminRequest F) : Json F :=
  let announced := (req.headers.get? "content-length").getD ""
  let ctype := lower ((req.headers.get? "content-type").getD "")
  if (req.method = "POST" ∨ req.method = "PATCH") ∧ announced ≠ "" ∧
      startsWith ctype "application/json" then
    match int? announced with
    | some n => if 0 < n then req.body.getD (.obj []) else .obj []
    | none => .obj []
  else
    .obj []

def parts (req : AdminRequest F) : List String :=
  split '/' (stripChar '/' req.path)

def resource? (req : AdminRequest F) : Option String :=
  req.parts[1]?

def ident? (req : AdminRequest F) : Option String :=
  req.parts[2]?

def named? (req : AdminRequest F) : Option String :=
  req.ident?.filter (· ≠ "")

def isWrite (req : AdminRequest F) : Bool :=
  req.method = "POST" || req.method = "PATCH" || req.method = "DELETE"

theorem resource?_head {req : AdminRequest F} {c : Char} {rest : List Char}
    (hpath : req.path.toList = "/admin/".toList ++ c :: rest)
    (hc : c ≠ '/') :
    ∃ seg, req.resource? = some seg ∧ seg.toList.head? = some c := by
  have hstays : (fun x => x == '/') c = false := by
    simpa using hc
  have htrim : (req.path.toList.dropWhile (· == '/')).rdropWhile (· == '/') =
      "admin/".toList ++ c :: rest.rdropWhile (· == '/') := by
    rw [hpath]
    exact rdropWhile_append_cons (p := fun x => x == '/') hstays
      "admin/".toList rest
  have hsplit : ∃ seg segs,
      ("admin/".toList ++ c :: rest.rdropWhile (· == '/')).splitOn '/' =
        "admin".toList :: (c :: seg) :: segs := by
    cases htail : (rest.rdropWhile (· == '/')).splitOn '/' with
    | nil => exact (List.splitOn_ne_nil _ _ htail).elim
    | cons seg segs =>
        refine ⟨seg, segs, ?_⟩
        simp [List.splitOn_cons_eq_if_modifyHead, hc, htail]
  rcases hsplit with ⟨seg, segs, hsegs⟩
  refine ⟨.ofList (c :: seg), ?_, by simp⟩
  unfold resource? parts split stripChar
  rw [String.toList_ofList, htrim, hsegs]
  rfl

end AdminRequest

section Roles

variable {F : Type} [PyFloat F]

/-- `str(claims.get("role", "admin"))` and `str(claims.get("sub", ""))`. -/
def principalOf (claims : Claims F) : Principal where
  role := ((claims.get? "role").getD (.str "admin")).pyStr
  subUser := ((claims.get? "sub").getD (.str "")).pyStr

def Bearer.principal (b : Bearer F) : Principal :=
  principalOf b.claims

end Roles

/-- `str(body_json.get(key) or "")`. -/
def bodyText {F : Type} [PyFloat F] (body : Json F) (key : String) :
    Except PyErr String :=
  (body.getD key .null).map fun value => (value.orElse (.str "")).pyStr

namespace NtripCaster

variable {F : Type} [PyFloat F]

/-! ## The token -/

section Tokens

variable [Crypto] [JwtLib F]

/-- The bearer of the request, when it is accepted: the public endpoints need
none, a token is decoded when there is a secret, and anything else has to be
the static token. -/
def authenticate (s : NtripCaster F) (req : AdminRequest F) (m : Moment) :
    Option (Bearer F) × NtripCaster F :=
  if req.path ∈ AdminRequest.publicPaths then
    (some ⟨[("sub", .str "public"), ("role", .str "admin")], ""⟩, s)
  else
    let bearer := req.bearer
    let fingerprint : String :=
      .ofList ((hexlify (Crypto.sha256 (utf8Encode bearer))).toList.take 12)
    let (claims?, s) : Option (Claims F) × NtripCaster F :=
      if s.jwt.secret ≠ "" ∧ bearer ≠ "" then
        let (claims?, jwt) := s.jwt.decode bearer "access" (m.time 0) (m.time 1)
        (claims?, { s with jwt := jwt })
      else
        (none, s)
    match claims? with
    | some claims => (some ⟨claims, fingerprint⟩, s)
    | none =>
        if s.adminToken = "" ∨ bearer ≠ s.adminToken then (none, s)
        else (some ⟨[("sub", .str "static"), ("role", .str "admin")],
          if bearer = "" then "" else fingerprint⟩, s)

def loginRoles : List String :=
  ["admin", "superadmin", "admin_ro", "admin_readonly", "readonly_admin",
    "geofence_editor"]

omit [PyFloat F] in
def mintPair (s : NtripCaster F) (sub role : String) (m : Moment) :
    Except PyErr (PyDict String (Json F)) := do
  let (access, accClaims) ← s.jwt.mintAccess sub role (m.time 6) (m.uuid 0)
  let (refresh, refClaims) ← s.jwt.mintRefresh sub role (m.time 7) (m.uuid 1)
  return [("access", .str access), ("refresh", .str refresh),
    ("role", .str role), ("exp", (accClaims.get? "exp").getD .null),
    ("refresh_exp", (refClaims.get? "exp").getD .null)]

def login (s : NtripCaster F) (body : Json F) (m : Moment) : Outcome F :=
  let refused : Outcome F := s.replies
    (.failure 401 "unauthorized" "invalid creds or jwt secret" none)
  match bodyText body "username", bodyText body "password" with
  | .error e, _ | _, .error e => s.raises e
  | .ok uname, .ok pwd =>
      match s.caster.cfg.users.get? uname with
      | none => refused
      | some u =>
          if s.jwt.secret = "" then refused
          else
            match verifyPassword u pwd with
            | none => s.raises
                (.valueError "iteration value must be greater than 0.")
            | some false => refused
            | some true =>
                if lower u.role ∉ loginRoles then
                  s.replies (.failure 403 "forbidden" "role not allowed" none)
                else
                  match s.mintPair uname u.role m with
                  | .ok pair => s.replies (.json 200 (.obj pair))
                  | .error e =>
                      s.replies (.failure 500 "jwt_error" e.message none)

omit [Crypto] in
def presentedRefresh (s : NtripCaster F) (rtok : String) (m : Moment) :
    Option (Claims F) × NtripCaster F :=
  let (claims?, jwt) := s.jwt.decode rtok "refresh" (m.time 2) (m.time 3)
  (claims?, { s with jwt := jwt })

omit [Crypto] [JwtLib F] in
def expOf (claims : Claims F) : Except PyErr ℤ :=
  (((claims.get? "exp").getD .null).orElse (.int 0)).pyInt

omit [Crypto] [JwtLib F] in
/-- The revocation of the old token; an exception leaves it out. -/
def rotate (s : NtripCaster F) (claims : Claims F) (m : Moment) :
    NtripCaster F :=
  match expOf claims with
  | .ok exp =>
      { s with
        jwt := s.jwt.revokeJti (JwtManager.jtiOf claims) exp (m.time 4)
          (m.time 5) }
  | .error _ => s

omit [Crypto] in
def tokenRefresh (s : NtripCaster F) (body : Json F) (m : Moment) :
    Outcome F :=
  match bodyText body "refresh" with
  | .error e => s.raises e
  | .ok rtok =>
      match s.presentedRefresh rtok m with
      | (none, s) => s.replies
          (.failure 401 "unauthorized" "invalid refresh" none)
      | (some claims, s) =>
          let sub := ((claims.get? "sub").getD .null).pyStr
          let role := ((claims.get? "role").getD (.str "admin")).pyStr
          let s := s.rotate claims m
          match s.mintPair sub role m with
          | .ok pair => s.replies (.json 200 (.obj pair))
          | .error e => s.raises e

omit [Crypto] in
/-- The id and the expiry that the body of a revocation gives, by a token that
decodes or by themselves. -/
def revocationOf (s : NtripCaster F) (body : Json F) (m : Moment) :
    Except PyErr (String × ℤ) × NtripCaster F :=
  let fields : Except PyErr (String × String × ℤ × String) := do
    let tok ← bodyText body "token"
    let jti ← bodyText body "jti"
    let exp ← ((← body.getD "exp" .null).orElse (.int 0)).pyInt
    let typ := ((← body.getD "type" .null).orElse (.str "access")).pyStr
    return (tok, jti, exp, typ)
  match fields with
  | .error e => (.error e, s)
  | .ok (tok, jti, exp, typ) =>
      if tok ≠ "" ∧ s.jwt.secret ≠ "" then
        let (claims?, jwt) :=
          (s.jwt.decode tok typ (m.time 2) (m.time 3) :
            Option (Claims F) × JwtManager)
        let s := { s with jwt := jwt }
        match claims? with
        | some claims =>
            ((expOf claims).map fun exp => (JwtManager.jtiOf claims, exp), s)
        | none => (.ok (jti, exp), s)
      else
        (.ok (jti, exp), s)

omit [Crypto] in
def tokenRevoke (s : NtripCaster F) (b : Bearer F) (body : Json F)
    (m : Moment) : Outcome F :=
  if !b.principal.isAdmin then s.replies .writeRequiresAdmin
  else
    match s.revocationOf body m with
    | (.error e, s) => s.raises e
    | (.ok (jti, exp), s) =>
        if jti = "" ∨ exp = 0 then
          s.replies (.failure 400 "invalid_body" "token or jti+exp required"
            none)
        else
          ({ s with
            jwt := s.jwt.revokeJti jti exp (m.time 4) (m.time 5) }).replies
              (.done 200)

end Tokens

/-! ## Resources -/

def answerUpdate (s : NtripCaster F) (m : Moment) (updater : Updater F)
    (answer : Bool → String → Reply F)
    (failed : PyErr → Except PyErr (Reply F)) : Outcome F :=
  match s.updateConfig updater m.diskError with
  | (.ok (ok, msg), s) => s.replies (answer ok msg)
  | (.error e, s) => ⟨s, failed e⟩

def conflict (e : PyErr) : Except PyErr (Reply F) :=
  .ok (.failure 409 "conflict" e.message none)

def notFound (e : PyErr) : Except PyErr (Reply F) :=
  .ok (.failure 404 "not_found" e.message none)

section Resources

variable [SchemaLib F]

def validated (s : NtripCaster F) (schema : BodySchema) (body : Json F)
    (next : Outcome F) : Outcome F :=
  match SchemaLib.violation? schema body with
  | some text => s.replies
      (.failure 400 "invalid_body" "validation error" (some text))
  | none => next

def withField (s : NtripCaster F) (field : Except PyErr (Json F))
    (next : String → Outcome F) : Outcome F :=
  match field with
  | .error e => s.raises e
  | .ok value => next value.pyStr

def credentialProperties : List (String × String × Option ℕ) :=
  [("tier", "string", none), ("mountpoints", "array of string", none),
    ("password", "string", none), ("password_sha256", "string", none),
    ("password_hash", "string", none)]

def createUserSchema : BodySchema where
  properties := ("username", "string", some 1) :: credentialProperties
  required := ["username", "tier", "mountpoints"]
  additionalProperties := true

def patchUserSchema : BodySchema where
  properties := credentialProperties
  required := []
  additionalProperties := true

def tierProperties : List (String × String × Option ℕ) :=
  [("rate_limit_bps", "integer", some 0),
    ("max_epochs_per_minute", "integer", some 0),
    ("max_queue_bytes", "integer", some 0)]

def createTierSchema : BodySchema where
  properties := ("name", "string", some 1) :: tierProperties
  required := ["name"]
  additionalProperties := false

def patchTierSchema : BodySchema where
  properties := tierProperties
  required := []
  additionalProperties := false

def createMountpointSchema : BodySchema where
  properties := [("name", "string", some 1)]
  required := ["name"]
  additionalProperties := false

omit [PyFloat F] [SchemaLib F] in
def userReply (u : UserRecord) : Reply F :=
  .json 200 (.obj
    [("username", .str u.username), ("tier", .str u.tier),
      ("mountpoints", .arr (u.mountpoints.map .str)),
      ("geofence_id", (u.geofenceId.map Json.str).getD .null),
      ("role", .str u.role)])

omit [PyFloat F] [SchemaLib F] in
def tierReply (name : String) (t : Tier) : Reply F :=
  .json 200 (.obj
    [("name", .str name), ("rate_limit_bps", .int t.rateLimitBps),
      ("max_epochs_per_minute", .int t.maxEpochsPerMinute),
      ("max_queue_bytes", .int t.maxQueueBytes)])

omit [PyFloat F] [SchemaLib F] in
def namesReply (key : String) (names : List String) : Reply F :=
  .json 200 (.obj [(key, .arr (names.map .str))])

def users (s : NtripCaster F) (req : AdminRequest F) (body : Json F)
    (m : Moment) : Option (Outcome F) :=
  match req.named? with
  | none =>
      if req.ident?.isSome then none
      else if req.method = "GET" then
        some (s.replies (namesReply "users" s.caster.cfg.users.keys))
      else if req.method = "POST" then
        some <| s.validated createUserSchema body <|
          s.withField (body.getD "username" .null) fun uname =>
            s.answerUpdate m (createUser uname body)
              (fun ok => .updated (if ok then 201 else 400) ok) conflict
      else none
  | some ident =>
      if req.method = "GET" then
        match s.caster.cfg.users.get? ident with
        | none => some (s.replies
            (.failure 404 "not_found" "user not found" none))
        | some u => some (s.replies (userReply u))
      else if req.method = "PATCH" then
        some <| s.validated patchUserSchema body <|
          s.answerUpdate m (patchUser ident body)
            (fun ok => .updated (if ok then 200 else 400) ok) notFound
      else if req.method = "DELETE" then
        some (s.answerUpdate m (deleteUser ident)
          (fun _ _ => .done 204) notFound)
      else none

def tiers (s : NtripCaster F) (req : AdminRequest F) (body : Json F)
    (m : Moment) : Option (Outcome F) :=
  match req.named? with
  | none =>
      if req.ident?.isSome then none
      else if req.method = "GET" then
        some (s.replies (namesReply "tiers" s.caster.cfg.tiers.keys))
      else if req.method = "POST" then
        some <| s.validated createTierSchema body <|
          s.withField (body.getItem "name") fun name =>
            s.answerUpdate m (createTier name body)
              (fun ok => .updated (if ok then 201 else 400) ok) conflict
      else none
  | some ident =>
      if req.method = "GET" then
        match s.caster.cfg.tiers.get? ident with
        | none => some (s.replies
            (.failure 404 "not_found" "tier not found" none))
        | some t => some (s.replies (tierReply ident t))
      else if req.method = "PATCH" then
        some <| s.validated patchTierSchema body <|
          s.answerUpdate m (patchTier ident body)
            (fun ok => .updated (if ok then 200 else 400) ok) notFound
      else if req.method = "DELETE" then
        some (s.answerUpdate m (deleteTier ident)
          (fun _ _ => .done 204) notFound)
      else none

/-- `/admin/mountpoints`; the metadata are merged without a handler for
exceptions. -/
def mountpoints (s : NtripCaster F) (req : AdminRequest F) (body : Json F)
    (m : Moment) : Option (Outcome F) :=
  match req.named? with
  | none =>
      if req.ident?.isSome then none
      else if req.method = "GET" then
        some (s.replies
          (namesReply "mountpoints" s.caster.cfg.sources.mountpoints))
      else if req.method = "POST" then
        some <| s.validated createMountpointSchema body <|
          s.withField (body.getItem "name") fun name =>
            s.answerUpdate m (createMountpoint name)
              (fun ok => .updated (if ok then 201 else 400) ok) conflict
      else none
  | some ident =>
      if req.method = "DELETE" then
        some (s.answerUpdate m (deleteMountpoint ident)
          (fun _ _ => .done 204) notFound)
      else if (req.method = "PATCH" ∨ req.method = "POST") ∧
          req.parts[3]? = some "meta" then
        some (s.answerUpdate m (mergeMeta ident body)
          (fun ok => .updated (if ok then 200 else 400) ok) .error)
      else none

end Resources

/-! ## Geofences -/

def bodyGeojson (body : Json F) : Except PyErr (Option (Json F)) :=
  (body.getD "geojson" .null).map fun gj =>
    if gj.isObj then some gj else none

/-- The polygon of the body, or the first ring of its geometry. -/
def draftPolygon (poly : Json F) (gj : Option (Json F)) :
    Except PyErr (Json F) :=
  match poly.truthy, gj with
  | false, some gj =>
      (geojsonToRings gj).map fun rings =>
        match rings with
        | [] => poly
        | ring :: _ => pointsToJson ring
  | _, _ => .ok poly

/-- The fence that the body of a POST describes, or the answer to a body
without one. -/
def geofenceDraft (p : Principal) (body : Json F) :
    Except PyErr (Except (Reply F) (GeofenceDraft F)) := do
  let gid ← bodyText body "id"
  let poly := (← body.getD "polygon" .null).orElse (.arr [])
  let mode ← match (← body.getD "mode" .null).orElse (.str "alert") with
    | .str mode => .ok (lower mode)
    | j => .error (.attributeError j.typeName "lower")
  if gid = "" then
    return .error (.failure 400 "invalid_body" "id required" none)
  else
    let gj := (← bodyGeojson body).filter Json.truthy
    let poly ← draftPolygon poly gj
    match poly with
    | .arr (_ :: _) =>
        let bbox := (polygonOfJson poly >>= polygonBBox).toOption
        let given ← body.getD "owner" .null
        let owner :=
          if p.isAdmin && given.truthy then some given.pyStr
          else if p.isEditor then some p.subUser
          else none
        return .ok ⟨gid, poly, mode, bbox, gj, owner⟩
    | _ =>
        return .error
          (.failure 400 "invalid_body" "polygon or geojson required" none)

def notOwner (e : PyErr) : Except PyErr (Reply F) :=
  match e with
  | .permissionError text => .ok (.failure 403 "forbidden" text none)
  | e => notFound e

def postGeofence (s : NtripCaster F) (p : Principal) (body : Json F)
    (m : Moment) : Outcome F :=
  match geofenceDraft p body with
  | .error e => s.raises e
  | .ok (.error reply) => s.replies reply
  | .ok (.ok draft) =>
      s.answerUpdate m (createGeofence draft)
        (fun ok => .updated (if ok then 201 else 400) ok) .error

def patchGeofenceRequest (s : NtripCaster F) (p : Principal)
    (ident : String) (body : Json F) (m : Moment) : Outcome F :=
  match body.getD "polygon" .null, body.getD "mode" .null,
      bodyGeojson body with
  | .error e, _, _ | _, .error e, _ | _, _, .error e => s.raises e
  | .ok .null, .ok .null, .ok _ => s.replies
      (.failure 400 "invalid_body" "polygon or mode required" none)
  | .ok poly, .ok mode, .ok gj =>
      s.answerUpdate m (patchGeofence p ident poly mode gj body)
        (fun ok => .updated (if ok then 200 else 400) ok) notOwner

def deleteGeofenceRequest (s : NtripCaster F) (p : Principal)
    (ident : String) (m : Moment) : Outcome F :=
  s.answerUpdate m (deleteGeofence p ident)
    (fun ok msg => if ok then .done 204
      else .failure 400 "update_failed" msg none) notOwner

/-- `/admin/geofences`: writing needs an admin or an editor, and an editor a
subject of his own. -/
def geofences (s : NtripCaster F) (p : Principal) (req : AdminRequest F)
    (body : Json F) (m : Moment) : Option (Outcome F) :=
  if req.isWrite && !(p.isAdmin || p.isEditor) then
    some (s.replies (.failure 403 "forbidden"
      "write requires admin or geofence_editor" none))
  else if p.isEditor && (p.subUser ∈ ["", "public", "static"]) then
    some (s.replies (.failure 403 "forbidden"
      "geofence_editor requires jwt subject" none))
  else
    match req.named? with
    | none =>
        if req.ident?.isSome then none
        else if req.method = "GET" then some (s.replies .page)
        else if req.method = "POST" then some (s.postGeofence p body m)
        else none
    | some ident =>
        if req.method = "PATCH" then
          some (s.patchGeofenceRequest p ident body m)
        else if req.method = "DELETE" then
          some (s.deleteGeofenceRequest p ident m)
        else none

/-- The resources: writing anything but geofences needs an admin. -/
def resource [SchemaLib F] (s : NtripCaster F) (b : Bearer F)
    (req : AdminRequest F) (body : Json F) (m : Moment) :
    Option (Outcome F) :=
  if req.resource? = some "geofences" then
    s.geofences b.principal req body m
  else if req.resource? = some "users" ∨ req.resource? = some "tiers" ∨
      req.resource? = some "mountpoints" then
    if req.isWrite && !b.principal.isAdmin then
      some (s.replies .writeRequiresAdmin)
    else if req.resource? = some "users" then s.users req body m
    else if req.resource? = some "tiers" then s.tiers req body m
    else s.mountpoints req body m
  else
    none

/-! ## Operations -/

def operationPaths : List String :=
  ["/admin/disable", "/admin/enable", "/admin/kick", "/admin/audit"]

def auditItem (req : AdminRequest F) (m : Moment) (action : String)
    (ok : Bool) (detail : PyDict String (Json F)) : AuditItem F where
  ts := m.monotonic
  action := action
  clientIp := req.clientIp
  traceId := req.traceId
  ok := ok
  detail := detail

def usePost : Reply F :=
  .failure 405 "method_not_allowed" "use POST" none

def switchMountpoint (s : NtripCaster F) (b : Bearer F)
    (req : AdminRequest F) (body : Json F) (m : Moment) (action : String)
    (updater : String → Updater F) : Outcome F :=
  if req.method ≠ "POST" then s.replies usePost
  else
    match body.getD "mountpoint" (.str "") with
    | .error e => s.raises e
    | .ok value =>
        let mp := value.pyStr
        if mp = "" then
          s.replies (.updated 400 false "mountpoint_required")
        else
          match s.updateConfig (updater mp) m.diskError with
          | (.error e, s) => s.raises e
          | (.ok (ok, msg), s) =>
              (s.auditAdd (auditItem req m action ok
                [("mountpoint", .str mp), ("msg", .str msg),
                  ("token_fp", .str b.tokenFp)])).replies
                (.updated (if ok then 200 else 400) ok msg)

def disable (s : NtripCaster F) (b : Bearer F) (req : AdminRequest F)
    (body : Json F) (m : Moment) : Outcome F :=
  s.switchMountpoint b req body m "disable" disableMountpoint

def enable (s : NtripCaster F) (b : Bearer F) (req : AdminRequest F)
    (body : Json F) (m : Moment) : Outcome F :=
  s.switchMountpoint b req body m "enable" enableMountpoint

/-- The session that a kick names, when the values can name one. -/
def kickTarget? (connv mpv : Json F) : Option (ℤ × String) :=
  if connv.truthy && mpv.truthy then
    match connv.pyInt, mpv with
    | .ok connId, .str mp => some (connId, mp)
    | _, _ => none
  else
    none

def kick (s : NtripCaster F) (b : Bearer F) (req : AdminRequest F)
    (body : Json F) (m : Moment) : Outcome F :=
  if req.method ≠ "POST" then s.replies usePost
  else
    match body.getD "conn_id" .null, body.getD "mountpoint" .null with
    | .error e, _ | _, .error e => s.raises e
    | .ok connv, .ok mpv =>
        let (ok, caster) :=
          match kickTarget? connv mpv with
          | some (connId, mp) => s.caster.kickRover connId mp
          | none => (false, s.caster)
        (({ s with caster := caster }).auditAdd (auditItem req m "kick" ok
          [("mountpoint", mpv), ("conn_id", connv),
            ("token_fp", .str b.tokenFp)])).replies
          (.json (if ok then 200 else 404) (.obj [("ok", .bool ok)]))

def auditTail (s : NtripCaster F) (req : AdminRequest F) (body : Json F) :
    Outcome F :=
  if req.method ≠ "POST" then s.replies usePost
  else
    let limit : ℤ :=
      match body.getD "limit" (.int 100) >>= fun value =>
          (value.orElse (.int 100)).pyInt with
      | .ok limit => limit
      | .error _ => 100
    let kept := (max 1 (min limit 1000)).toNat
    s.replies (.auditTail (s.audit.drop (s.audit.length - kept)))

/-- `sorted` puts the elements of a set in order: texts, numbers, or the one
null; it cannot compare values of two kinds. -/
def sorts (items : List (Json F)) : Bool :=
  (items.all fun item => item matches .str _) ||
    (items.all fun item => item matches .bool _ | .int _ | .float _) ||
    items.all fun item => item matches .null

/-- The status page lists the disabled mountpoints in order.  The two names in
the text of the exception are those of the first pair that is compared. -/
def status (s : NtripCaster F) : Outcome F :=
  if sorts s.caster.disabledMountpoints then s.replies .page
  else s.raises (.typeError "'<' not supported between instances")

/-- Behind the resources: the role check of the operations, the pages, and the
operations by the beginning of the path; what is left goes to the rover
part. -/
def operation [Crypto] (s : NtripCaster F) (b : Bearer F)
    (req : AdminRequest F) (body : Json F) (m : Moment) : Outcome F :=
  if req.path ∈ operationPaths ∧ req.method = "POST" ∧
      !b.principal.isAdmin then
    s.replies .writeRequiresAdmin
  else if req.path = "/admin/openapi.json" then s.replies .page
  else if req.path = "/admin/status" then s.status
  else if startsWith req.path "/admin/rovers" then s.replies .page
  else if startsWith req.path "/admin/disable" then s.disable b req body m
  else if startsWith req.path "/admin/enable" then s.enable b req body m
  else if startsWith req.path "/admin/kick" then s.kick b req body m
  else if startsWith req.path "/admin/audit" then s.auditTail req body
  else
    let caster := s.caster.handleRover ⟨req.addr, req.path, req.headers⟩
      m.monotonic
    ⟨{ s with caster := caster }, .ok .rover⟩

/-! ## The request -/

variable [Crypto] [JwtLib F] [SchemaLib F]

def dispatch (s : NtripCaster F) (b : Bearer F) (req : AdminRequest F)
    (m : Moment) : Outcome F :=
  let body := req.bodyJson
  if req.path = "/admin/login" ∧ req.method = "POST" then s.login body m
  else if req.path = "/admin/token/refresh" ∧ req.method = "POST" then
    s.tokenRefresh body m
  else if req.path = "/admin/token/revoke" ∧ req.method = "POST" then
    s.tokenRevoke b body m
  else if req.path = "/admin/me" ∧ req.method = "GET" then
    s.replies (.json 200 (.obj
      [("sub", (b.claims.get? "sub").getD .null),
        ("role", (b.claims.get? "role").getD .null)]))
  else
    (s.resource b req body m).getD (s.operation b req body m)

omit [PyFloat F] [Crypto] [JwtLib F] [SchemaLib F] in
def adminIpOk (s : NtripCaster F) (req : AdminRequest F) : Bool :=
  s.adminIpAllow.isEmpty || ipAllowed req.clientIp s.adminIpAllow []

omit [PyFloat F] [Crypto] [JwtLib F] [SchemaLib F] in
def queryOk (req : AdminRequest F) : Bool :=
  !req.hasQuery || startsWith req.path "/admin/rovers" ||
    startsWith req.path "/admin/geofences"

def handleAdmin (s : NtripCaster F) (req : AdminRequest F) (m : Moment) :
    Outcome F :=
  if !s.adminIpOk req then s.replies .forbidden
  else
    match s.adminRateOk req.clientIp m.monotonic with
    | (false, s) => s.replies .tooManyRequests
    | (true, s) =>
        match s.authenticate req m with
        | (none, s) => s.replies .forbidden
        | (some b, s) =>
            if !queryOk req then
              s.replies (.failure 400 "invalid_request"
                "query parameters are not allowed for admin api" none)
            else
              s.dispatch b req m

end NtripCaster

end BabilCors
