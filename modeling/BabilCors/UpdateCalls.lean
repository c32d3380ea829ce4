import BabilCors.AdminEffects

/-!
# The update that a request asks for

Each handler of a write makes one call of `_admin_update_config`.  The call of
a request is read off its method, path and body here, and the handlers are
shown to make it.
-/

namespace BabilCors

open Py

/-- A call of `_admin_update_config` with the answers to its result and to its
exceptions. -/
structure UpdateCall (F : Type) where
  updater : Updater F
  answer : Bool → String → Reply F
  failed : PyErr → Except PyErr (Reply F)

namespace NtripCaster

variable {F : Type} [PyFloat F]

/-! ## The calls -/

omit [PyFloat F] in
def createCall (updater : Updater F) : UpdateCall F :=
  ⟨updater, fun ok => .updated (if ok then 201 else 400) ok, conflict⟩

omit [PyFloat F] in
def changeCall (updater : Updater F) : UpdateCall F :=
  ⟨updater, fun ok => .updated (if ok then 200 else 400) ok, notFound⟩

omit [PyFloat F] in
def deleteCall (updater : Updater F) : UpdateCall F :=
  ⟨updater, fun _ _ => .done 204, notFound⟩

section Calls

variable [SchemaLib F]

omit [PyFloat F] in
def meets (schema : BodySchema) (body : Json F) : Bool :=
  (SchemaLib.violation? schema body).isNone

def usersCall? (req : AdminRequest F) (body : Json F) :
    Option (UpdateCall F) :=
  match req.named? with
  | none =>
      if req.ident? = none ∧ req.method = "POST" ∧
          meets createUserSchema body then
        (body.getD "username" .null).toOption.map fun uname =>
          createCall (createUser uname.pyStr body)
      else none
  | some ident =>
      if req.method = "PATCH" ∧ meets patchUserSchema body then
        some (changeCall (patchUser ident body))
      else if req.method = "DELETE" then
        some (deleteCall (deleteUser ident))
      else none

def tiersCall? (req : AdminRequest F) (body : Json F) :
    Option (UpdateCall F) :=
  match req.named? with
  | none =>
      if req.ident? = none ∧ req.method = "POST" ∧
          meets createTierSchema body then
        (body.getItem "name").toOption.map fun name =>
          createCall (createTier name.pyStr body)
      else none
  | some ident =>
      if req.method = "PATCH" ∧ meets patchTierSchema body then
        some (changeCall (patchTier ident body))
      else if req.method = "DELETE" then
        some (deleteCall (deleteTier ident))
      else none

def mountpointsCall? (req : AdminRequest F) (body : Json F) :
    Option (UpdateCall F) :=
  match req.named? with
  | none =>
      if req.ident? = none ∧ req.method = "POST" ∧
          meets createMountpointSchema body then
        (body.getItem "name").toOption.map fun name =>
          createCall (createMountpoint name.pyStr)
      else none
  | some ident =>
      if req.method = "DELETE" then
        some (deleteCall (deleteMountpoint ident))
      else if (req.method = "PATCH" ∨ req.method = "POST") ∧
          req.parts[3]? = some "meta" then
        some { changeCall (mergeMeta ident body) with failed := .error }
      else none

end Calls

def patchGeofenceCall? (p : Principal) (ident : String) (body : Json F) :
    Option (UpdateCall F) :=
  match body.getD "polygon" .null, body.getD "mode" .null,
      bodyGeojson body with
  | .ok .null, .ok .null, .ok _ => none
  | .ok poly, .ok mode, .ok gj =>
      some { changeCall (patchGeofence p ident poly mode gj body) with
        failed := notOwner }
  | _, _, _ => none

def geofencesCall? (p : Principal) (req : AdminRequest F) (body : Json F) :
    Option (UpdateCall F) :=
  if req.isWrite && !(p.isAdmin || p.isEditor) then none
  else if p.isEditor && (p.subUser ∈ ["", "public", "static"]) then none
  else
    match req.named? with
    | none =>
        if req.ident? = none ∧ req.method = "POST" then
          match geofenceDraft p body with
          | .ok (.ok draft) =>
              some { createCall (createGeofence draft) with failed := .error }
          | _ => none
        else none
    | some ident =>
        if req.method = "PATCH" then patchGeofenceCall? p ident body
        else if req.method = "DELETE" then
          some ⟨deleteGeofence p ident, fun ok msg => if ok then .done 204
            else .failure 400 "update_failed" msg none, notOwner⟩
        else none

def resourceCall? [SchemaLib F] (p : Principal) (req : AdminRequest F)
    (body : Json F) : Option (UpdateCall F) :=
  if req.resource? = some "geofences" then geofencesCall? p req body
  else if req.isWrite && !p.isAdmin then none
  else if req.resource? = some "users" then usersCall? req body
  else if req.resource? = some "tiers" then tiersCall? req body
  else if req.resource? = some "mountpoints" then mountpointsCall? req body
  else none

/-! ## The handlers make these calls -/

/-- The handler answers with the result of the call, or, when there is none,
leaves the server as it is. -/
inductive Follows (s : NtripCaster F) (m : Moment) :
    Option (UpdateCall F) → Option (Outcome F) → Prop
  | calls (call : UpdateCall F) : Follows s m (some call)
      (some (s.answerUpdate m call.updater call.answer call.failed))
  | idle {o? : Option (Outcome F)} (hkept : ∀ o, o? = some o → o.server = s) :
      Follows s m none o?

theorem Follows.of_server {s : NtripCaster F} {m : Moment} {o : Outcome F}
    (hserver : o.server = s) : Follows s m none (some o) := by
  apply Follows.idle
  intro o' ho'
  obtain rfl := Option.some.inj ho'
  exact hserver

theorem Follows.of_none {s : NtripCaster F} {m : Moment} :
    Follows s m none none := by
  apply Follows.idle
  intro o ho
  cases ho

section Handlers

variable [SchemaLib F]

theorem follows_validated {s : NtripCaster F} {m : Moment}
    {schema : BodySchema} {body : Json F} {call? : Option (UpdateCall F)}
    {next : Outcome F}
    (hnext : meets schema body = true → Follows s m call? (some next))
    (hnone : meets schema body = false → call? = none) :
    Follows s m call? (some (s.validated schema body next)) := by
  unfold validated
  cases hviolation : SchemaLib.violation? schema body with
  | none => exact hnext (by simp [meets, hviolation])
  | some text =>
      rw [hnone (by simp [meets, hviolation])]
      exact .of_server rfl

omit [SchemaLib F] in
theorem follows_withField {s : NtripCaster F} {m : Moment}
    {field : Except PyErr (Json F)} {call : Json F → UpdateCall F}
    {next : String → Outcome F}
    (hnext : ∀ value : Json F,
      Follows s m (some (call value)) (some (next value.pyStr))) :
    Follows s m (field.toOption.map call) (some (s.withField field next)) := by
  cases field with
  | error e => exact .of_server rfl
  | ok value => exact hnext value

theorem create_follows {s : NtripCaster F} {m : Moment}
    {req : AdminRequest F} {body : Json F} {schema : BodySchema}
    {field : Except PyErr (Json F)} {call : Json F → UpdateCall F}
    {listed : Outcome F} {next : String → Outcome F}
    (hlisted : listed.server = s)
    (hnext : ∀ value : Json F,
      Follows s m (some (call value)) (some (next value.pyStr))) :
    Follows s m
      (if req.ident? = none ∧ req.method = "POST" ∧ meets schema body then
        field.toOption.map call
      else none)
      (if req.ident?.isSome then none
      else if req.method = "GET" then some listed
      else if req.method = "POST" then
        some (s.validated schema body (s.withField field next))
      else none) := by
  by_cases hpost : req.ident? = none ∧ req.method = "POST"
  · rcases hpost with ⟨hident, hmethod⟩
    rw [hident, hmethod]
    simp only [Option.isSome_none, Bool.false_eq_true, if_false, true_and,
      if_true, String.reduceEq]
    apply follows_validated
    · intro hmeets
      rw [if_pos hmeets]
      exact follows_withField hnext
    · intro hmeets
      rw [if_neg (by simp [hmeets])]
  · have hno : ¬ (req.ident? = none ∧ req.method = "POST" ∧
        meets schema body = true) := fun h => hpost ⟨h.1, h.2.1⟩
    rw [if_neg hno]
    split_ifs with hident hget hmethod
    · exact .of_none
    · exact .of_server hlisted
    · exact (hpost ⟨by simpa using hident, hmethod⟩).elim
    · exact .of_none

theorem change_follows {s : NtripCaster F} {m : Moment}
    {req : AdminRequest F} {body : Json F} {schema : BodySchema}
    {patch delete : UpdateCall F} {shown : Option (Outcome F)}
    {patched deleted : Outcome F}
    (hshown : ∀ o, shown = some o → o.server = s)
    (hpatch : Follows s m (some patch) (some patched))
    (hdelete : Follows s m (some delete) (some deleted)) :
    Follows s m
      (if req.method = "PATCH" ∧ meets schema body then some patch
      else if req.method = "DELETE" then some delete
      else none)
      (if req.method = "GET" then shown
      else if req.method = "PATCH" then
        some (s.validated schema body patched)
      else if req.method = "DELETE" then some deleted
      else none) := by
  by_cases hmethod : req.method = "PATCH"
  · rw [hmethod]
    simp only [String.reduceEq, if_false, if_true, true_and]
    apply follows_validated
    · intro hmeets
      rw [if_pos hmeets]
      exact hpatch
    · intro hmeets
      rw [if_neg (by simp [hmeets])]
  · have hno : ¬ (req.method = "PATCH" ∧ meets schema body = true) :=
      fun h => hmethod h.1
    rw [if_neg hno, if_neg hmethod]
    by_cases hdel : req.method = "DELETE"
    · rw [hdel]
      simpa only [String.reduceEq, if_false, if_true] using hdelete
    · rw [if_neg hdel, if_neg hdel]
      split_ifs
      · exact .idle hshown
      · exact .of_none

theorem users_follows (s : NtripCaster F) (req : AdminRequest F)
    (body : Json F) (m : Moment) :
    Follows s m (usersCall? req body) (s.users req body m) := by
  unfold users usersCall?
  cases req.named? with
  | none =>
      apply create_follows
      · rfl
      · intro value
        exact .calls _
  | some ident =>
      refine change_follows ?_ (.calls _) (.calls _)
      intro o ho
      cases huser : s.caster.cfg.users.get? ident with
      | none =>
          rw [huser] at ho
          obtain rfl := Option.some.inj ho
          rfl
      | some u =>
          rw [huser] at ho
          obtain rfl := Option.some.inj ho
          rfl

theorem tiers_follows (s : NtripCaster F) (req : AdminRequest F)
    (body : Json F) (m : Moment) :
    Follows s m (tiersCall? req body) (s.tiers req body m) := by
  unfold tiers tiersCall?
  cases req.named? with
  | none =>
      apply create_follows
      · rfl
      · intro value
        exact .calls _
  | some ident =>
      refine change_follows ?_ (.calls _) (.calls _)
      intro o ho
      cases htier : s.caster.cfg.tiers.get? ident with
      | none =>
          rw [htier] at ho
          obtain rfl := Option.some.inj ho
          rfl
      | some t =>
          rw [htier] at ho
          obtain rfl := Option.some.inj ho
          rfl

theorem mountpoints_follows (s : NtripCaster F) (req : AdminRequest F)
    (body : Json F) (m : Moment) :
    Follows s m (mountpointsCall? req body) (s.mountpoints req body m) := by
  unfold mountpoints mountpointsCall?
  cases req.named? with
  | none =>
      apply create_follows
      · rfl
      · intro value
        exact .calls _
  | some ident =>
      dsimp only
      split_ifs
      · exact .calls _
      · exact .calls _
      · exact .of_none

end Handlers

theorem patchGeofence_follows (s : NtripCaster F) (p : Principal)
    (ident : String) (body : Json F) (m : Moment) :
    Follows s m (patchGeofenceCall? p ident body)
      (some (s.patchGeofenceRequest p ident body m)) := by
  unfold patchGeofenceCall? patchGeofenceRequest
  cases body.getD "polygon" (.null : Json F) with
  | error e => exact .of_server rfl
  | ok poly =>
      cases body.getD "mode" (.null : Json F) with
      | error e => cases poly <;> exact .of_server rfl
      | ok mode =>
          -- the two values together decide which branch is taken
          cases bodyGeojson body with
          | error e => cases poly <;> cases mode <;> exact .of_server rfl
          | ok gj =>
              cases poly <;> cases mode <;>
                first | exact .calls _ | exact .of_server rfl

theorem geofences_follows (s : NtripCaster F) (p : Principal)
    (req : AdminRequest F) (body : Json F) (m : Moment) :
    Follows s m (geofencesCall? p req body) (s.geofences p req body m) := by
  unfold geofences geofencesCall?
  by_cases hdenied : (req.isWrite && !(p.isAdmin || p.isEditor)) = true
  · rw [if_pos hdenied, if_pos hdenied]
    exact .of_server rfl
  rw [if_neg hdenied, if_neg hdenied]
  by_cases hsubject :
      (p.isEditor && (p.subUser ∈ ["", "public", "static"])) = true
  · rw [if_pos hsubject, if_pos hsubject]
    exact .of_server rfl
  rw [if_neg hsubject, if_neg hsubject]
  cases req.named? with
  | none =>
      dsimp only
      by_cases hpost : req.ident? = none ∧ req.method = "POST"
      · rcases hpost with ⟨hident, hmethod⟩
        rw [hident, hmethod]
        simp only [Option.isSome_none, Bool.false_eq_true, if_false,
          and_self, if_true, String.reduceEq]
        unfold postGeofence
        cases geofenceDraft p body with
        | error e => exact .of_server rfl
        | ok drafted =>
            cases drafted with
            | error reply => exact .of_server rfl
            | ok draft => exact .calls _
      · rw [if_neg hpost]
        split_ifs with hident hget hmethod
        · exact .of_none
        · exact .of_server rfl
        · exact (hpost ⟨by simpa using hident, hmethod⟩).elim
        · exact .of_none
  | some ident =>
      dsimp only
      by_cases hpatch : req.method = "PATCH"
      · rw [if_pos hpatch, if_pos hpatch]
        exact s.patchGeofence_follows p ident body m
      · rw [if_neg hpatch, if_neg hpatch]
        split_ifs
        · exact .calls _
        · exact .of_none

theorem resource_follows [SchemaLib F] (s : NtripCaster F) (b : Bearer F)
    (req : AdminRequest F) (body : Json F) (m : Moment) :
    Follows s m (resourceCall? b.principal req body)
      (s.resource b req body m) := by
  unfold resource resourceCall?
  by_cases hgeofences : req.resource? = some "geofences"
  · rw [if_pos hgeofences, if_pos hgeofences]
    exact s.geofences_follows b.principal req body m
  rw [if_neg hgeofences, if_neg hgeofences]
  by_cases hresource : req.resource? = some "users" ∨
      req.resource? = some "tiers" ∨ req.resource? = some "mountpoints"
  · rw [if_pos hresource]
    by_cases hdenied : (req.isWrite && !b.principal.isAdmin) = true
    · rw [if_pos hdenied, if_pos hdenied]
      exact .of_server rfl
    rw [if_neg hdenied, if_neg hdenied]
    rcases hresource with husers | htiers | hmountpoints
    · rw [if_pos husers, if_pos husers]
      exact s.users_follows req body m
    · have husers : req.resource? ≠ some "users" := by simp [htiers]
      rw [if_neg husers, if_neg husers, if_pos htiers, if_pos htiers]
      exact s.tiers_follows req body m
    · have husers : req.resource? ≠ some "users" := by simp [hmountpoints]
      have htiers : req.resource? ≠ some "tiers" := by simp [hmountpoints]
      rw [if_neg husers, if_neg husers, if_neg htiers, if_neg htiers,
        if_pos hmountpoints]
      exact s.mountpoints_follows req body m
  · rw [if_neg hresource]
    simp only [not_or] at hresource
    rcases hresource with ⟨husers, htiers, hmountpoints⟩
    rw [if_neg husers, if_neg htiers, if_neg hmountpoints, ite_self]
    exact .of_none

end NtripCaster

end BabilCors
