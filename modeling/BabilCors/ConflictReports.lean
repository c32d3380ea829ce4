import BabilCors.AdminGate
import BabilCors.ResponseTruth
import BabilCors.RoverVerdicts

/-!
# Conflicts and missing resources

The handlers of the admin interface answer an exception of the updater with
409 or 404.  The call of `_admin_update_config` between them turns every
exception but a `PermissionError` into a failed result, and the updaters raise
no such error for a name that is taken or missing.
-/

namespace BabilCors

open Py

variable {F : Type}

/-! ## What a document has -/

inductive AdminResource where
  | users
  | tiers
  | geofences
  | mountpoints
  deriving DecidableEq, Repr

namespace AdminResource

def segment : AdminResource → String
  | users => "users"
  | tiers => "tiers"
  | geofences => "geofences"
  | mountpoints => "mountpoints"

theorem segment_mem (r : AdminResource) :
    r.segment ∈ NtripCaster.resourceNames := by
  cases r <;> decide

/-- The document has a resource of this name. -/
def Stored (raw : Json F) (name : String) : AdminResource → Prop
  | users => ((field? raw "users").bind (field? · name)).isSome = true
  | tiers => ((field? raw "tiers").bind (field? · name)).isSome = true
  | geofences => ((securityField? raw "geofence_polygons").bind
      (field? · name)).isSome = true
  | mountpoints => ∃ mps, storedMountpoints raw = .ok mps ∧
      mps.any (Json.eqStr name) = true

variable [PyFloat F]

/-- The name that the body of a POST gives. -/
def newName? (body : Json F) : AdminResource → Option String
  | users => (body.getD "username" .null).toOption.map Json.pyStr
  | _ => (body.getItem "name").toOption.map Json.pyStr

end AdminResource

/-- A POST of a user, tier or mountpoint under a name that is taken. -/
structure CreatesStored [PyFloat F] (raw : Json F) (req : AdminRequest F)
    (r : AdminResource) (name : String) : Prop where
  kind : r ≠ .geofences
  method : req.method = "POST"
  resource : req.resource? = some r.segment
  ident : req.ident? = none
  given : r.newName? req.bodyJson = some name
  stored : r.Stored raw name

/-- A PATCH or DELETE under a name that the document does not have. -/
structure ChangesMissing (raw : Json F) (req : AdminRequest F)
    (r : AdminResource) (ident : String) : Prop where
  method : req.method = "PATCH" ∨ req.method = "DELETE"
  resource : req.resource? = some r.segment
  named : req.named? = some ident
  missing : ¬ r.Stored raw ident

/-! ## The updaters refuse -/

/-- The updater raises, and no `PermissionError`. -/
def RefusedBy (updater : Updater F) (raw : Json F) : Prop :=
  ∃ e, updater raw = .error e ∧ ∀ text, e ≠ .permissionError text

theorem RefusedBy.of_error {updater : Updater F} {raw : Json F} {e : PyErr}
    (hraises : updater raw = .error e)
    (hother : ∀ text, e ≠ .permissionError text) : RefusedBy updater raw :=
  ⟨e, hraises, hother⟩

theorem RefusedBy.withDefault {f : Updater F} {raw : Json F} {key : String}
    (hrefused : RefusedBy f (((field? raw key).getD (.obj [])))) :
    RefusedBy (fun raw => raw.withDefault key f) raw := by
  cases raw with
  | obj fields =>
      rcases hrefused with ⟨e, he, hother⟩
      refine .of_error (e := e) ?_ hother
      change Except.map _ (f ((PyDict.get? fields key).getD (.obj []))) = _
      have he' : f ((PyDict.get? fields key).getD (.obj [])) = .error e := he
      rw [he']
      rfl
  | null | bool _ | int _ | float _ | str _ | arr _ =>
      exact .of_error rfl (by rintro text ⟨⟩)

theorem exists_entry_of_stored {raw : Json F} {key name : String}
    (hstored : ((field? raw key).bind (field? · name)).isSome = true) :
    ∃ entries, field? raw key = some (.obj entries) ∧
      PyDict.has entries name = true := by
  cases hfield : field? raw key with
  | none =>
      rw [hfield] at hstored
      cases hstored
  | some value =>
      rw [hfield] at hstored
      cases value with
      | obj entries => exact ⟨entries, rfl, hstored⟩
      | null | bool _ | int _ | float _ | str _ | arr _ => cases hstored

variable [PyFloat F]

theorem createUser_refused {raw body : Json F} {name : String}
    (hstored : AdminResource.users.Stored raw name) :
    RefusedBy (createUser name body) raw := by
  rcases exists_entry_of_stored hstored with ⟨entries, hfield, hhas⟩
  apply RefusedBy.withDefault
  rw [hfield]
  refine .of_error (e := .valueError "user exists") ?_ (by rintro text ⟨⟩)
  simp only [Option.getD_some, Json.contains, hhas]
  rfl

theorem createTier_refused {raw body : Json F} {name : String}
    (hstored : AdminResource.tiers.Stored raw name) :
    RefusedBy (createTier name body) raw := by
  rcases exists_entry_of_stored hstored with ⟨entries, hfield, hhas⟩
  apply RefusedBy.withDefault
  rw [hfield]
  refine .of_error (e := .valueError "tier exists") ?_ (by rintro text ⟨⟩)
  simp only [Option.getD_some, Json.contains, hhas]
  rfl

omit [PyFloat F] in
theorem createMountpoint_refused {raw : Json F} {name : String}
    (hstored : AdminResource.mountpoints.Stored raw name) :
    RefusedBy (createMountpoint name) raw := by
  rcases hstored with ⟨mps, hmps, hany⟩
  refine .of_error (e := .valueError "exists") ?_ (by rintro text ⟨⟩)
  unfold createMountpoint
  rw [hmps]
  change (if mps.any (Json.eqStr name) = true then _ else _) = _
  rw [if_pos hany]
  rfl

theorem field?_section {value? : Option (Json F)} {name : String}
    (hmissing : ¬ (value?.bind (field? · name)).isSome = true) :
    field? ((value?.getD .null).orElse (.obj [])) name = none := by
  unfold Json.orElse
  split_ifs
  · cases value? with
    | none => rfl
    | some value => simpa using hmissing
  · rfl

/-- What `patchNamed` does with the section that it finds. -/
theorem patch_section_refused {entries : Json F} {name : String}
    (hmissing : field? entries name = none) (next : Json F → Updater F)
    (raw : Json F) :
    RefusedBy (fun raw => entries.getD name .null >>= fun entry =>
      if entry.truthy then next entry raw
      else throw (.valueError "not found")) raw := by
  cases entries with
  | obj fields =>
      have hnone : PyDict.get? fields name = none := hmissing
      have hentry : (Json.obj fields).getD name .null = .ok .null := by
        simp [Json.getD, Json.get, hnone, Except.map]
      refine .of_error (e := .valueError "not found") ?_ (by rintro text ⟨⟩)
      rw [hentry]
      rfl
  | null | bool _ | int _ | float _ | str _ | arr _ =>
      exact .of_error rfl (by rintro text ⟨⟩)

theorem patchNamed_refused {raw : Json F} {key name : String}
    {patch : Updater F}
    (hmissing : ¬ ((field? raw key).bind (field? · name)).isSome = true) :
    RefusedBy (patchNamed key name patch) raw := by
  cases raw with
  | obj fields =>
      exact patch_section_refused (field?_section hmissing)
        (fun entry raw => do return replaceIn raw key name (← patch entry))
        (.obj fields)
  | null | bool _ | int _ | float _ | str _ | arr _ =>
      exact .of_error rfl (by rintro text ⟨⟩)

omit [PyFloat F] in
/-- `del entries[name]` of a name that `entries` lacks. -/
theorem delete_section_refused {entries : Json F} {name : String}
    (hmissing : field? entries name = none) (next : Json F → Updater F)
    (raw : Json F) :
    RefusedBy (fun raw => entries.contains name >>= fun has =>
      if has then entries.delItem name >>= fun rest => next rest raw
      else throw (.valueError "not found")) raw := by
  cases entries with
  | obj fields =>
      have hhas : (Json.obj fields).contains name = .ok false := by
        have hnone : PyDict.get? fields name = none := hmissing
        simp [Json.contains, PyDict.has, hnone]
      refine .of_error (e := .valueError "not found") ?_ (by rintro text ⟨⟩)
      rw [hhas]
      rfl
  | arr items =>
      cases hany : items.any (Json.eqStr name) with
      | true =>
          refine .of_error (e := .typeError
            "list indices must be integers or slices, not str") ?_
            (by rintro text ⟨⟩)
          simp only [Json.contains, hany]
          rfl
      | false =>
          refine .of_error (e := .valueError "not found") ?_
            (by rintro text ⟨⟩)
          simp only [Json.contains, hany]
          rfl
  | str s =>
      cases hcontains : Py.contains s name with
      | true =>
          refine .of_error (e := .typeError
            "'str' object doesn't support item deletion") ?_
            (by rintro text ⟨⟩)
          simp only [Json.contains, hcontains]
          rfl
      | false =>
          refine .of_error (e := .valueError "not found") ?_
            (by rintro text ⟨⟩)
          simp only [Json.contains, hcontains]
          rfl
  | null | bool _ | int _ | float _ =>
      exact .of_error rfl (by rintro text ⟨⟩)

theorem deleteNamed_refused {raw : Json F} {key name : String}
    (hmissing : ¬ ((field? raw key).bind (field? · name)).isSome = true) :
    RefusedBy (deleteNamed key name) raw := by
  cases raw with
  | obj fields =>
      exact delete_section_refused (field?_section hmissing)
        (fun rest raw => raw.setItem key rest) (.obj fields)
  | null | bool _ | int _ | float _ | str _ | arr _ =>
      exact .of_error rfl (by rintro text ⟨⟩)

omit [PyFloat F] in
theorem storedMountpoints_refused {raw : Json F} {e : PyErr}
    (herror : storedMountpoints raw = .error e) (text : String) :
    e ≠ .permissionError text := by
  rintro rfl
  cases raw with
  | obj fields =>
      unfold storedMountpoints at herror
      change (((PyDict.get? fields "sources").getD (.obj [])).getD
        "mountpoints" (.arr []) >>= Json.iter) = _ at herror
      generalize (PyDict.get? fields "sources").getD (.obj []) = sources
        at herror
      cases sources with
      | obj entries =>
          change ((PyDict.get? entries "mountpoints").getD (.arr [])).iter = _
            at herror
          generalize (PyDict.get? entries "mountpoints").getD (.arr []) = mps
            at herror
          cases mps <;> cases herror
      | null | bool _ | int _ | float _ | str _ | arr _ => cases herror
  | null | bool _ | int _ | float _ | str _ | arr _ => cases herror

omit [PyFloat F] in
theorem deleteMountpoint_refused {raw : Json F} {name : String}
    (hmissing : ¬ AdminResource.mountpoints.Stored raw name) :
    RefusedBy (deleteMountpoint name) raw := by
  cases hmps : storedMountpoints raw with
  | error e =>
      refine .of_error (e := e) ?_ (storedMountpoints_refused hmps)
      unfold deleteMountpoint
      rw [hmps]
      rfl
  | ok mps =>
      have hany : ¬ mps.any (Json.eqStr name) = true := by
        intro hany
        exact hmissing ⟨mps, hmps, hany⟩
      refine .of_error (e := .valueError "not found") ?_ (by rintro text ⟨⟩)
      unfold deleteMountpoint
      rw [hmps]
      change (if mps.any (Json.eqStr name) = true then _ else _) = _
      rw [if_neg hany]
      rfl

omit [PyFloat F] in
theorem updateGeofences_refused {f : Updater F} {raw : Json F}
    {name : String} (hmissing : ¬ AdminResource.geofences.Stored raw name)
    (hf : ∀ gf, field? gf name = none → RefusedBy f gf) :
    RefusedBy (updateGeofences f) raw := by
  apply RefusedBy.withDefault
  apply RefusedBy.withDefault
  apply hf
  unfold AdminResource.Stored securityField? at hmissing
  cases hsec : field? raw "security" with
  | none => rfl
  | some sec =>
      rw [hsec] at hmissing
      rw [Option.getD_some]
      cases hgf : field? sec "geofence_polygons" with
      | none => rfl
      | some gf => simpa [hgf] using hmissing

theorem patchGeofence_refused {p : Principal} {poly mode : Json F}
    {gj : Option (Json F)} {raw body : Json F} {name : String}
    (hmissing : ¬ AdminResource.geofences.Stored raw name) :
    RefusedBy (patchGeofence p name poly mode gj body) raw := by
  refine updateGeofences_refused hmissing fun gf hgf => ?_
  exact patch_section_refused hgf (fun cur gf => do
    p.checkOwner cur
    gf.setItem name (← editFence p poly mode gj body cur)) gf

theorem deleteGeofence_refused {p : Principal} {raw : Json F}
    {name : String} (hmissing : ¬ AdminResource.geofences.Stored raw name) :
    RefusedBy (deleteGeofence p name) raw := by
  refine updateGeofences_refused hmissing fun gf hgf => ?_
  cases gf with
  | obj fields =>
      have hnone : PyDict.get? fields name = none := hgf
      have hentry : (Json.obj fields).getD name .null = .ok .null := by
        simp [Json.getD, Json.get, hnone, Except.map]
      refine .of_error (e := .valueError "not found") ?_ (by rintro text ⟨⟩)
      rw [hentry]
      rfl
  | null | bool _ | int _ | float _ | str _ | arr _ =>
      exact .of_error rfl (by rintro text ⟨⟩)

/-! ## The statuses -/

/-- The status line of the rover part; an exception leaves none. -/
def RoverVerdict.status? : Caster.RoverVerdict F → Option ℕ
  | .refused .page => some 200
  | .refused .forbidden => some 403
  | .refused .unauthorized => some 401
  | .refused .raises => none
  | .headerRaises => none
  | .icy _ _ _ => some 200

omit [PyFloat F] in
theorem roverStatus?_le {verdict : Caster.RoverVerdict F} {code : ℕ}
    (hcode : RoverVerdict.status? verdict = some code) : code ≤ 403 := by
  unfold RoverVerdict.status? at hcode
  split at hcode <;> cases hcode <;> decide

/-- No answer of the outcome has this status. -/
def Outcome.Avoids (code : ℕ) (o : Outcome F) : Prop :=
  ∀ reply, o.reply = .ok reply → reply.status? ≠ some code

namespace NtripCaster

omit [PyFloat F] in
theorem replies_avoids {s : NtripCaster F} {reply : Reply F} {code : ℕ}
    (hcode : reply.status? ≠ some code) :
    (s.replies reply).Avoids code := by
  intro reply' hreply
  obtain rfl := Except.ok.inj hreply
  exact hcode

omit [PyFloat F] in
theorem raises_avoids (s : NtripCaster F) (e : PyErr) (code : ℕ) :
    (s.raises e).Avoids code := by
  rintro reply ⟨⟩

/-- An update that the document refuses is answered as a failed one. -/
theorem answerUpdate_refused {s : NtripCaster F} {m : Moment}
    {updater : Updater F} {raw : Json F} (hfile : s.file = .ok raw)
    (hrefused : RefusedBy updater raw) (answer : Bool → String → Reply F)
    (failed : PyErr → Except PyErr (Reply F)) :
    ∃ msg, s.answerUpdate m updater answer failed =
      s.replies (answer false msg) := by
  rcases hrefused with ⟨e, he, hother⟩
  have hcommitted : s.committed updater m.diskError = .error e := by
    unfold committed
    rw [hfile]
    change updater raw >>= _ = _
    rw [he]
    rfl
  unfold answerUpdate updateConfig
  cases s.cfgPath with
  | none => exact ⟨_, rfl⟩
  | some path =>
      rw [hcommitted]
      cases e with
      | permissionError text => exact (hother text rfl).elim
      | attributeError _ _ | typeError _ | valueError _ | overflowError _
      | keyError _ | configError _ => exact ⟨_, rfl⟩

theorem refused_avoids {s : NtripCaster F} {m : Moment}
    {updater : Updater F} {raw : Json F} {code : ℕ}
    {answer : Bool → String → Reply F} (hfile : s.file = .ok raw)
    (hrefused : RefusedBy updater raw)
    (hanswer : ∀ msg, (answer false msg).status? ≠ some code)
    (failed : PyErr → Except PyErr (Reply F)) :
    (s.answerUpdate m updater answer failed).Avoids code := by
  rcases answerUpdate_refused (m := m) hfile hrefused answer failed with
    ⟨msg, hmsg⟩
  rw [hmsg]
  exact replies_avoids (hanswer msg)

section Schemas

variable [SchemaLib F]

omit [PyFloat F] in
theorem validated_avoids {s : NtripCaster F} {schema : BodySchema}
    {body : Json F} {next : Outcome F} {code : ℕ} (hcode : 400 ≠ code)
    (hnext : next.Avoids code) :
    (s.validated schema body next).Avoids code := by
  unfold validated
  cases SchemaLib.violation? schema body with
  | none => exact hnext
  | some text =>
      apply replies_avoids
      rintro ⟨⟩
      exact hcode rfl

/-! ## A name that is taken -/

theorem create_avoids {s : NtripCaster F} {m : Moment} {raw : Json F}
    {schema : BodySchema} {body : Json F} {field : Except PyErr (Json F)}
    {name : String} {updater : String → Updater F}
    (hfile : s.file = .ok raw)
    (hname : field.toOption.map Json.pyStr = some name)
    (hrefused : RefusedBy (updater name) raw) :
    (s.validated schema body (s.withField field fun name =>
      s.answerUpdate m (updater name)
        (fun ok => .updated (if ok then 201 else 400) ok)
        conflict)).Avoids 409 := by
  apply validated_avoids (by decide)
  rcases Option.map_eq_some_iff.mp hname with ⟨value, hvalue, rfl⟩
  rw [toOption_eq_some.mp hvalue]
  refine refused_avoids hfile hrefused (fun msg => ?_) conflict
  simp [Reply.updated, Reply.status?]

/-- The handler of a resource other than the geofences. -/
def table (s : NtripCaster F) (req : AdminRequest F) (body : Json F)
    (m : Moment) : AdminResource → Option (Outcome F)
  | .users => s.users req body m
  | .tiers => s.tiers req body m
  | .mountpoints => s.mountpoints req body m
  | .geofences => none

theorem resource_eq_table {r : AdminResource} (hr : r ≠ .geofences)
    {req : AdminRequest F} (hresource : req.resource? = some r.segment)
    (s : NtripCaster F) (b : Bearer F) (body : Json F) (m : Moment) :
    s.resource b req body m =
      if req.isWrite && !b.principal.isAdmin then
        some (s.replies .writeRequiresAdmin)
      else s.table req body m r := by
  have hgeofences : req.resource? ≠ some "geofences" := by
    rw [hresource]
    cases r with
    | geofences => exact (hr rfl).elim
    | users | tiers | mountpoints => decide
  unfold resource
  rw [if_neg hgeofences]
  cases r with
  | geofences => exact (hr rfl).elim
  | users =>
      have husers : req.resource? = some "users" := hresource
      rw [if_pos (.inl husers), if_pos husers]
      rfl
  | tiers =>
      have htiers : req.resource? = some "tiers" := hresource
      have husers : req.resource? ≠ some "users" := by simp [htiers]
      rw [if_pos (.inr (.inl htiers)), if_neg husers, if_pos htiers]
      rfl
  | mountpoints =>
      have hmountpoints : req.resource? = some "mountpoints" := hresource
      have husers : req.resource? ≠ some "users" := by simp [hmountpoints]
      have htiers : req.resource? ≠ some "tiers" := by simp [hmountpoints]
      rw [if_pos (.inr (.inr hmountpoints)), if_neg husers, if_neg htiers]
      rfl

theorem table_of_stored {s : NtripCaster F} {m : Moment} {raw : Json F}
    {req : AdminRequest F} {r : AdminResource} {name : String}
    (hfile : s.file = .ok raw) (hcreates : CreatesStored raw req r name) :
    ∃ o, s.table req req.bodyJson m r = some o ∧ o.Avoids 409 := by
  have hident := hcreates.ident
  have hnamed : req.named? = none := by
    simp [AdminRequest.named?, hident]
  have hgiven := hcreates.given
  have hstored := hcreates.stored
  unfold table
  cases r with
  | geofences => exact (hcreates.kind rfl).elim
  | users =>
      unfold users
      rw [hnamed, hident, hcreates.method]
      refine ⟨_, rfl, ?_⟩
      apply create_avoids hfile hgiven
      exact createUser_refused hstored
  | tiers =>
      unfold tiers
      rw [hnamed, hident, hcreates.method]
      refine ⟨_, rfl, ?_⟩
      apply create_avoids hfile hgiven
      exact createTier_refused hstored
  | mountpoints =>
      unfold mountpoints
      rw [hnamed, hident, hcreates.method]
      refine ⟨_, rfl, ?_⟩
      apply create_avoids hfile hgiven
      exact createMountpoint_refused hstored

/-! ## A name that is missing -/

theorem change_avoids {s : NtripCaster F} {m : Moment} {raw : Json F}
    {req : AdminRequest F} {schema : BodySchema} {body : Json F}
    {shown : Option (Outcome F)} {patch delete : Updater F} {o : Outcome F}
    (hfile : s.file = .ok raw) (hmethod : req.method ≠ "GET")
    (hpatch : RefusedBy patch raw) (hdelete : RefusedBy delete raw)
    (ho : (if req.method = "GET" then shown
      else if req.method = "PATCH" then
        some (s.validated schema body (s.answerUpdate m patch
          (fun ok => .updated (if ok then 200 else 400) ok) notFound))
      else if req.method = "DELETE" then
        some (s.answerUpdate m delete (fun _ _ => .done 204) notFound)
      else none) = some o) : o.Avoids 404 := by
  rw [if_neg hmethod] at ho
  split_ifs at ho
  · obtain rfl := Option.some.inj ho
    apply validated_avoids (by decide)
    refine refused_avoids hfile hpatch (fun msg => ?_) notFound
    simp [Reply.updated, Reply.status?]
  · obtain rfl := Option.some.inj ho
    refine refused_avoids hfile hdelete (fun msg => ?_) notFound
    simp [Reply.done, Reply.status?]

omit [SchemaLib F] in
theorem meta_avoids (s : NtripCaster F) (m : Moment) (updater : Updater F) :
    (s.answerUpdate m updater
      (fun ok => .updated (if ok then 200 else 400) ok) .error).Avoids
        404 := by
  unfold answerUpdate
  rcases s.updateConfig updater m.diskError with ⟨e | ⟨ok, msg⟩, s'⟩
  · rintro reply ⟨⟩
  · apply replies_avoids
    cases ok <;> simp [Reply.updated, Reply.status?]

theorem table_of_missing {s : NtripCaster F} {m : Moment} {raw : Json F}
    {req : AdminRequest F} {r : AdminResource} {ident : String}
    (hfile : s.file = .ok raw) (hchanges : ChangesMissing raw req r ident)
    {o : Outcome F} (ho : s.table req req.bodyJson m r = some o) :
    o.Avoids 404 := by
  have hnamed := hchanges.named
  have hmissing := hchanges.missing
  have hget : req.method ≠ "GET" := by
    rcases hchanges.method with h | h <;> simp [h]
  unfold table at ho
  cases r with
  | geofences => cases ho
  | users =>
      unfold users at ho
      simp only [hnamed] at ho
      exact change_avoids hfile hget (patchNamed_refused hmissing)
        (deleteNamed_refused hmissing) ho
  | tiers =>
      unfold tiers at ho
      simp only [hnamed] at ho
      exact change_avoids hfile hget (patchNamed_refused hmissing)
        (deleteNamed_refused hmissing) ho
  | mountpoints =>
      unfold mountpoints at ho
      simp only [hnamed] at ho
      split_ifs at ho
      · obtain rfl := Option.some.inj ho
        refine refused_avoids hfile (deleteMountpoint_refused hmissing)
          (fun msg => ?_) notFound
        simp [Reply.done, Reply.status?]
      · obtain rfl := Option.some.inj ho
        exact s.meta_avoids m _

omit [SchemaLib F] in
theorem patchGeofence_avoids {s : NtripCaster F} {m : Moment}
    {raw body : Json F} {ident : String} (hfile : s.file = .ok raw)
    (hmissing : ¬ AdminResource.geofences.Stored raw ident) (p : Principal) :
    (s.patchGeofenceRequest p ident body m).Avoids 404 := by
  have hcall (poly mode : Json F) (gj : Option (Json F)) :
      (s.answerUpdate m (patchGeofence p ident poly mode gj body)
        (fun ok => .updated (if ok then 200 else 400) ok)
        notOwner).Avoids 404 := by
    refine refused_avoids hfile (patchGeofence_refused hmissing)
      (fun msg => ?_) notOwner
    simp [Reply.updated, Reply.status?]
  unfold patchGeofenceRequest
  split
  · exact raises_avoids _ _ _
  · exact raises_avoids _ _ _
  · exact raises_avoids _ _ _
  · exact replies_avoids (by simp [Reply.failure, Reply.status?])
  · exact hcall _ _ _

omit [SchemaLib F] in
theorem geofences_of_missing {s : NtripCaster F} {p : Principal} {m : Moment}
    {raw body : Json F} {req : AdminRequest F} {ident : String}
    (hfile : s.file = .ok raw)
    (hchanges : ChangesMissing raw req .geofences ident) {o : Outcome F}
    (ho : s.geofences p req body m = some o) : o.Avoids 404 := by
  have hforbidden (message : String) :
      (s.replies (.failure 403 "forbidden" message none)).Avoids 404 :=
    replies_avoids (by simp [Reply.failure, Reply.status?])
  unfold geofences at ho
  simp only [hchanges.named] at ho
  split_ifs at ho
  · obtain rfl := Option.some.inj ho
    exact hforbidden _
  · obtain rfl := Option.some.inj ho
    exact hforbidden _
  · obtain rfl := Option.some.inj ho
    exact patchGeofence_avoids hfile hchanges.missing p
  · obtain rfl := Option.some.inj ho
    refine refused_avoids hfile (deleteGeofence_refused hchanges.missing)
      (fun msg => ?_) notOwner
    simp [Reply.failure, Reply.status?]

theorem resource_of_missing {s : NtripCaster F} {b : Bearer F} {m : Moment}
    {raw : Json F} {req : AdminRequest F} {r : AdminResource}
    {ident : String} (hfile : s.file = .ok raw)
    (hchanges : ChangesMissing raw req r ident) {o : Outcome F}
    (ho : s.resource b req req.bodyJson m = some o) : o.Avoids 404 := by
  by_cases hr : r = .geofences
  · subst hr
    have hresource : req.resource? = some "geofences" := hchanges.resource
    unfold resource at ho
    rw [if_pos hresource] at ho
    exact geofences_of_missing hfile hchanges ho
  · rw [resource_eq_table hr hchanges.resource] at ho
    split_ifs at ho
    · obtain rfl := Option.some.inj ho
      exact replies_avoids (by simp [Reply.writeRequiresAdmin,
        Reply.failure, Reply.status?])
    · exact table_of_missing hfile hchanges ho

omit [SchemaLib F] in
/-- Behind the resources only a kick is answered with 404, and it takes a
POST. -/
theorem operation_avoids [Crypto] (s : NtripCaster F) (b : Bearer F)
    {req : AdminRequest F} (hmethod : req.method ≠ "POST") (body : Json F)
    (m : Moment) : (s.operation b req body m).Avoids 404 := by
  have hpost : (s.replies usePost).Avoids 404 :=
    replies_avoids (by simp [usePost, Reply.failure, Reply.status?])
  have hpage : (s.replies Reply.page).Avoids 404 :=
    replies_avoids (by simp [Reply.status?])
  have hstatus : s.status.Avoids 404 := by
    unfold status
    split_ifs
    · exact hpage
    · exact raises_avoids s _ 404
  unfold operation disable enable switchMountpoint kick auditTail
  simp only [hmethod, ne_eq, not_false_eq_true, if_true, false_and, and_false,
    if_false]
  split_ifs
  · exact hpage
  · exact hstatus
  · exact hpage
  · exact hpost
  · exact hpost
  · exact hpost
  · exact hpost
  · rintro reply ⟨⟩
    simp [Reply.status?]

variable [Crypto] [JwtLib F]

theorem dispatch_of_stored {s : NtripCaster F} {m : Moment} {raw : Json F}
    {req : AdminRequest F} {r : AdminResource} {name : String}
    (hfile : s.file = .ok raw) (hcreates : CreatesStored raw req r name)
    (b : Bearer F) : (s.dispatch b req m).Avoids 409 := by
  rw [dispatch_of_resource r.segment_mem hcreates.resource,
    resource_eq_table hcreates.kind hcreates.resource]
  split_ifs
  · exact replies_avoids (by simp [Reply.writeRequiresAdmin, Reply.failure,
      Reply.status?])
  · rcases table_of_stored (m := m) hfile hcreates with ⟨o, ho, havoids⟩
    rw [ho]
    exact havoids

theorem dispatch_of_missing {s : NtripCaster F} {m : Moment} {raw : Json F}
    {req : AdminRequest F} {r : AdminResource} {ident : String}
    (hfile : s.file = .ok raw) (hchanges : ChangesMissing raw req r ident)
    (b : Bearer F) : (s.dispatch b req m).Avoids 404 := by
  rw [dispatch_of_resource r.segment_mem hchanges.resource]
  cases ho : s.resource b req req.bodyJson m with
  | none =>
      refine s.operation_avoids b ?_ req.bodyJson m
      rcases hchanges.method with h | h <;> simp [h]
  | some o => exact resource_of_missing hfile hchanges ho

/-- The filters and the token check have their own statuses. -/
theorem handleAdmin_avoids {s : NtripCaster F} {req : AdminRequest F}
    {m : Moment} {code : ℕ} (hcode : code ∉ [400, 403, 429])
    (hdispatch : ∀ (s' : NtripCaster F) (b : Bearer F), s'.file = s.file →
      (s'.dispatch b req m).Avoids code) :
    (s.handleAdmin req m).Avoids code := by
  have hforbidden : code ≠ 403 := by
    rintro rfl
    exact hcode (by decide)
  cases s.handleAdmin_gate req m with
  | filtered buckets reply hreply ho =>
      rw [ho]
      apply replies_avoids
      rcases hreply with rfl | rfl
      · simpa [Reply.status?] using hforbidden.symm
      · rintro ⟨⟩
        exact hcode (by decide)
  | unauthenticated buckets s' hauth ho =>
      rw [ho]
      exact replies_avoids (by simpa [Reply.status?] using hforbidden.symm)
  | authenticated buckets b s' hauth ho =>
      have hsame := (s.withBuckets buckets).authenticate_same req m
      rw [hauth] at hsame
      rcases ho with ho | ho
      · rw [ho]
        apply replies_avoids
        rintro ⟨⟩
        exact hcode (by decide)
      · rw [ho]
        exact hdispatch s' b hsame.file

/-- The status of the answer to a request; the rover part gives its own. -/
def answerStatus? (s : NtripCaster F) (req : AdminRequest F) (m : Moment) :
    Option ℕ :=
  match (s.handleAdmin req m).reply with
  | .ok .rover => RoverVerdict.status?
      (s.caster.roverVerdict ⟨req.addr, req.path, req.headers⟩)
  | .ok reply => reply.status?
  | .error _ => none

theorem answerStatus?_ne {s : NtripCaster F} {req : AdminRequest F}
    {m : Moment} {code : ℕ} (hrover : 403 < code)
    (havoids : (s.handleAdmin req m).Avoids code) :
    s.answerStatus? req m ≠ some code := by
  unfold answerStatus?
  intro hstatus
  split at hstatus
  · exact absurd (roverStatus?_le hstatus) (by omega)
  next reply _ hreply => exact havoids reply hreply hstatus
  · cases hstatus

/-- A name that is taken is never a conflict, and a missing one is never not
found. -/
theorem handleAdmin_never_reports {s : NtripCaster F} {raw : Json F}
    (hfile : s.file = .ok raw) (req : AdminRequest F) (m : Moment)
    (r : AdminResource) (name : String) :
    (CreatesStored raw req r name → s.answerStatus? req m ≠ some 409) ∧
      (ChangesMissing raw req r name → s.answerStatus? req m ≠ some 404) := by
  constructor
  · intro hcreates
    refine answerStatus?_ne (by decide)
      (handleAdmin_avoids (by decide) fun s' b hs' => ?_)
    exact dispatch_of_stored (hs'.trans hfile) hcreates b
  · intro hchanges
    refine answerStatus?_ne (by decide)
      (handleAdmin_avoids (by decide) fun s' b hs' => ?_)
    exact dispatch_of_missing (hs'.trans hfile) hchanges b

end Schemas

theorem deleteNobody_missing (raw : Json ℚ)
    (hraw : field? raw "users" = none) :
    ChangesMissing raw deleteNobody .users "nobody" where
  method := .inr rfl
  resource := by decide +kernel
  named := by decide +kernel
  missing := by simp [AdminResource.Stored, hraw]

/-- The document of a server with one mountpoint. -/
def oneMountpoint : Json ℚ :=
  .obj [("sources", .obj [("password", .str "s3cret"),
    ("mountpoints", .arr [.str "MP1"])])]

theorem newMountpoint_stored :
    CreatesStored oneMountpoint newMountpoint .mountpoints "MP1" where
  kind := by decide
  method := rfl
  resource := by decide +kernel
  ident := by decide +kernel
  given := by
    have hbody : newMountpoint.bodyJson = .obj [("name", .str "MP1")] :=
      bearerRequest_bodyJson _ _ (.inl rfl)
    rw [hbody]
    rfl
  stored := ⟨[.str "MP1"], rfl, by decide⟩

theorem handleAdmin_never_reports_twice :
    @answerStatus? ℚ _ anyBody noDigest adminJwt
        { smallServer (.obj []) with file := .ok oneMountpoint }
        newMountpoint firstMoment ≠ some 409 ∧
      @answerStatus? ℚ _ anyBody noDigest adminJwt (smallServer (.obj []))
        deleteNobody firstMoment ≠ some 404 :=
  ⟨(@handleAdmin_never_reports ℚ _ anyBody noDigest adminJwt
      { smallServer (.obj []) with file := .ok oneMountpoint } oneMountpoint
      rfl newMountpoint firstMoment .mountpoints "MP1").1
        newMountpoint_stored,
    (@handleAdmin_never_reports ℚ _ anyBody noDigest adminJwt
      (smallServer (.obj [])) _ rfl deleteNobody firstMoment .users
      "nobody").2 (deleteNobody_missing _ rfl)⟩

/-- Deleting a user that is not there is answered with 204, not with 404. -/
theorem deleteNobody_not_reported :
    @RequestsUpdate ℚ _ noDigest adminJwt anyBody (smallServer (.obj []))
        deleteNobody firstMoment (deleteCall (deleteUser "nobody")) ∧
      (∃ raw, (smallServer (.obj [])).file = .ok raw ∧
        ChangesMissing raw deleteNobody .users "nobody") ∧
      @answerStatus? ℚ _ anyBody noDigest adminJwt (smallServer (.obj []))
        deleteNobody firstMoment = some 204 := by
  refine ⟨deleteNobody_requests, ⟨_, rfl, deleteNobody_missing _ rfl⟩, ?_⟩
  decide +kernel

end NtripCaster

end BabilCors
