import BabilCors.AdminEffects
import BabilCors.TransitionRuns

/-!
# Fences of other owners

Changing and deleting a geofence compare its owner with the editor, creating
one does not look whether the id is taken.  In a run of editor requests in
which no POST takes the id of a stored foreign fence, every foreign fence stays
as it is.
-/

namespace BabilCors

open Py TransitionRuns

section Ownership

variable {F : Type} [PyFloat F]

/-! ## Stored fences -/

/-- `str(fence.get("owner") or "")`; a fence that is no dictionary has no
owner. -/
def ownerOf (fence : Json F) : String :=
  (((field? fence "owner").getD .null).orElse (.str "")).pyStr

omit [PyFloat F] in
def fence? (raw : Json F) (gid : String) : Option (Json F) :=
  (securityField? raw "geofence_polygons").bind fun gf => field? gf gid

omit [PyFloat F] in
theorem fence?_updateGeofences {f : Updater F} {raw raw' : Json F}
    (hok : updateGeofences f raw = .ok raw') :
    ∃ polygons polygons', f polygons = .ok polygons' ∧
      (∀ gid, fence? raw gid = field? polygons gid) ∧
      ∀ gid, fence? raw' gid = field? polygons' gid := by
  rcases updateGeofences_eq_ok hok with
    ⟨fields, sec, polygons', rfl, hsec, hf, rfl⟩
  refine ⟨_, polygons', hf, ?_, ?_⟩
  · intro gid
    unfold fence?
    rw [securityField?_of_obj hsec]
    cases PyDict.get? sec "geofence_polygons" with
    | none => rfl
    | some gf => rfl
  · intro gid
    have hsec' : (PyDict.get? (PyDict.set fields "security"
        (.obj (PyDict.set sec "geofence_polygons" polygons')))
        "security").getD (.obj []) =
          .obj (PyDict.set sec "geofence_polygons" polygons') := by
      rw [PyDict.get?_set_self, Option.getD_some]
    unfold fence?
    rw [securityField?_of_obj hsec', PyDict.get?_set_self]
    rfl

/-- An editor is no admin. -/
theorem isAdmin_of_isEditor {p : Principal} (heditor : p.isEditor = true) :
    p.isAdmin = false := by
  have hrole : lower p.role = "geofence_editor" := by
    simpa [Principal.isEditor] using heditor
  unfold Principal.isAdmin JwtManager.roleAllows
  simp [hrole]

theorem ownerOf_of_checkOwner {p : Principal} {cur : Json F} {u : Unit}
    (heditor : p.isEditor = true) (hok : p.checkOwner cur = .ok u) :
    ownerOf cur = p.subUser := by
  unfold Principal.checkOwner at hok
  rw [heditor, isAdmin_of_isEditor heditor] at hok
  rcases bind_eq_ok.mp hok with ⟨value, hvalue, hsame⟩
  rcases map_eq_ok.mp hvalue with ⟨owner?, howner, rfl⟩
  have hfield : field? cur "owner" = owner? := by
    cases cur with
    | obj fields => exact Except.ok.inj howner
    | null | bool _ | int _ | float _ | str _ | arr _ => cases howner
  unfold ownerOf
  rw [hfield]
  dsimp only at hsame
  split_ifs at hsame with howned
  exact howned

/-! ## What the three updates do to another fence -/

omit [PyFloat F] in
theorem fence?_createGeofence {draft : GeofenceDraft F} {raw raw' : Json F}
    {gid : String} (hok : createGeofence draft raw = .ok raw')
    (hother : draft.gid ≠ gid) : fence? raw' gid = fence? raw gid := by
  rcases fence?_updateGeofences hok with
    ⟨polygons, polygons', hset, hbefore, hafter⟩
  rw [hbefore, hafter]
  cases polygons with
  | obj fences =>
      obtain rfl := Except.ok.inj hset
      exact PyDict.get?_set_of_ne fences draft.record hother
  | null | bool _ | int _ | float _ | str _ | arr _ => cases hset

theorem patchGeofence_eq_ok {p : Principal} {ident : String}
    {poly mode : Json F} {gj : Option (Json F)} {body raw raw' : Json F}
    (hok : patchGeofence p ident poly mode gj body raw = .ok raw') :
    ∃ cur u edited, fence? raw ident = some cur ∧
      p.checkOwner cur = .ok u ∧
      editFence p poly mode gj body cur = .ok edited ∧
      fence? raw' ident = some edited ∧
      ∀ gid ≠ ident, fence? raw' gid = fence? raw gid := by
  rcases fence?_updateGeofences hok with
    ⟨polygons, polygons', hpatch, hbefore, hafter⟩
  rcases bind_eq_ok.mp hpatch with ⟨cur, hcur, hpatch⟩
  cases polygons with
  | obj fences =>
      have hget : (PyDict.get? fences ident).getD .null = cur :=
        Except.ok.inj hcur
      cases htruthy : cur.truthy with
      | false =>
          rw [htruthy] at hpatch
          cases hpatch
      | true =>
          have hstored : PyDict.get? fences ident = some cur := by
            cases hfence : PyDict.get? fences ident with
            | none =>
                rw [hfence] at hget
                rw [← hget] at htruthy
                cases htruthy
            | some value =>
                rw [hfence, Option.getD_some] at hget
                rw [hget]
          rw [htruthy, if_pos rfl] at hpatch
          rcases bind_eq_ok.mp hpatch with ⟨u, hchecked, hpatch⟩
          rcases bind_eq_ok.mp hpatch with ⟨edited, hedited, hset⟩
          obtain rfl := Except.ok.inj hset
          refine ⟨cur, u, edited, ?_, hchecked, hedited, ?_, ?_⟩
          · rw [hbefore]
            exact hstored
          · rw [hafter]
            exact PyDict.get?_set_self fences ident edited
          · intro gid hother
            rw [hbefore, hafter]
            exact PyDict.get?_set_of_ne fences edited hother.symm
  | null | bool _ | int _ | float _ | str _ | arr _ => cases hcur

theorem deleteGeofence_eq_ok {p : Principal} {ident : String}
    {raw raw' : Json F} (hok : deleteGeofence p ident raw = .ok raw') :
    ∃ cur u, fence? raw ident = some cur ∧ p.checkOwner cur = .ok u ∧
      ∀ gid ≠ ident, fence? raw' gid = fence? raw gid := by
  rcases fence?_updateGeofences hok with
    ⟨polygons, polygons', hdelete, hbefore, hafter⟩
  rcases bind_eq_ok.mp hdelete with ⟨cur, hcur, hdelete⟩
  cases polygons with
  | obj fences =>
      have hget : (PyDict.get? fences ident).getD .null = cur :=
        Except.ok.inj hcur
      cases hstored : PyDict.get? fences ident with
      | none =>
          rw [hstored] at hget
          subst hget
          cases hdelete
      | some value =>
          rw [hstored, Option.getD_some] at hget
          subst hget
          have hchecked : ∃ u, p.checkOwner value = .ok u ∧
              (Json.obj fences).delItem ident = .ok polygons' := by
            cases value with
            | null => cases hdelete
            | bool _ | int _ | float _ | str _ | arr _ | obj _ =>
                exact bind_eq_ok.mp hdelete
          rcases hchecked with ⟨u, hchecked, hdel⟩
          obtain rfl := Except.ok.inj hdel
          refine ⟨value, u, ?_, hchecked, ?_⟩
          · rw [hbefore]
            exact hstored
          · intro gid hother
            rw [hbefore, hafter]
            exact PyDict.get?_erase_of_ne fences hother.symm
  | null | bool _ | int _ | float _ | str _ | arr _ => cases hcur

namespace NtripCaster

/-! ## One request -/

omit [PyFloat F] in
def storedFence? (s : NtripCaster F) (gid : String) : Option (Json F) :=
  s.file.toOption.bind fun raw => fence? raw gid

theorem storedFence?_updateConfig {s : NtripCaster F} {updater : Updater F}
    {diskError : Option PyErr} {gid : String}
    (hkeep : ∀ raw raw', s.file = .ok raw →
      s.write? updater diskError = some raw' → updater raw = .ok raw' →
        fence? raw' gid = fence? raw gid) :
    (s.updateConfig updater diskError).2.storedFence? gid =
      s.storedFence? gid := by
  cases s.updateConfig_outcome updater diskError with
  | kept _ hs' => rw [hs']
  | written raw' hwrite hs' =>
      rcases write?_eq_some hwrite with ⟨raw, hfile, hupdated, -⟩
      have hfile' := (reloadFromDisk_keeps
        { s with file := .ok raw' }).1.file
      rw [← hs'] at hfile'
      unfold storedFence?
      rw [hfile', hfile]
      exact hkeep raw raw' hfile hwrite hupdated

omit [PyFloat F] in
theorem storedFence?_of_file {s : NtripCaster F} {raw : Json F}
    (hfile : s.file = .ok raw) (gid : String) :
    s.storedFence? gid = fence? raw gid := by
  unfold storedFence?
  rw [hfile]
  rfl

/-- Away from the operations only the rover part changes the server. -/
theorem operation_other [Crypto] {s : NtripCaster F} {b : Bearer F}
    {req : AdminRequest F} {body : Json F} {m : Moment}
    (hno : ∀ base ∈ basePaths, startsWith req.path base = false) :
    ∃ caster, (s.operation b req body m).server =
      { s with caster := caster } := by
  cases s.operation_outcome b req body m with
  | replied reply hreply ho => exact ⟨s.caster, by rw [ho]; rfl⟩
  | raised e ho => exact ⟨s.caster, by rw [ho]; rfl⟩
  | operates base hbase hpath hrole ho =>
      rw [hno base hbase] at hpath
      cases hpath
  | passed ho => exact ⟨_, by rw [ho]⟩

section Requests

variable [JwtLib F] [Crypto] [SchemaLib F]

/-- No path of the geofences is one of an endpoint outside the resources. -/
theorem dispatch_eq_geofences {s : NtripCaster F} {b : Bearer F}
    {req : AdminRequest F} {m : Moment}
    (hresource : req.resource? = some "geofences") :
    s.dispatch b req m =
        (s.geofences b.principal req req.bodyJson m).getD
          (s.operation b req req.bodyJson m) ∧
      (s.operation b req req.bodyJson m).server.file = s.file := by
  have hfixed : req.path ∉ fixedPaths := by
    intro hmem
    exact resource?_of_fixed hmem "geofences" (by decide) hresource
  have hbase : ∀ base ∈ basePaths, startsWith req.path base = false := by
    intro base hmem
    by_contra hstarts
    exact resource?_of_base hmem (by simpa using hstarts) "geofences"
      (by decide) hresource
  have hne (path : String) (hmem : path ∈ fixedPaths) : req.path ≠ path := by
    rintro rfl
    exact hfixed hmem
  have hlogin := hne "/admin/login" (by decide)
  have hrefresh := hne "/admin/token/refresh" (by decide)
  have hrevoke := hne "/admin/token/revoke" (by decide)
  have hme := hne "/admin/me" (by decide)
  constructor
  · unfold dispatch resource
    simp [hlogin, hrefresh, hrevoke, hme, hresource]
  · have hserver : ∃ caster, (s.operation b req req.bodyJson m).server =
        { s with caster := caster } := operation_other hbase
    rcases hserver with ⟨caster, hoperation⟩
    rw [hoperation]

theorem dispatch_geofences {s : NtripCaster F} {b : Bearer F}
    {req : AdminRequest F} {m : Moment}
    (hresource : req.resource? = some "geofences") :
    (s.dispatch b req m).server.file = s.file ∨
      GeofenceOutcome s b.principal req req.bodyJson m
        (s.dispatch b req m).server := by
  rcases dispatch_eq_geofences (s := s) (b := b) (m := m) hresource with
    ⟨hdispatch, hoperation⟩
  rw [hdispatch]
  cases hgeofences : s.geofences b.principal req req.bodyJson m with
  | none => exact .inl hoperation
  | some o => exact .inr (geofences_outcome hgeofences)

/-- A write to the geofences with an access token of an editor `u`. -/
structure EditorRequest (s : NtripCaster F) (u : String)
    (req : AdminRequest F) (m : Moment) : Prop where
  resource : req.resource? = some "geofences"
  method : req.isWrite = true
  token : ∃ claims, s.PresentsAccess req m claims ∧
    (principalOf claims).isEditor = true ∧
    (principalOf claims).subUser = u

omit [JwtLib F] [Crypto] [SchemaLib F] in
/-- A POST that reaches the update, with the id of a stored fence of another
owner and a body that the update accepts. -/
structure TakesForeignId (s : NtripCaster F) (u : String)
    (req : AdminRequest F) (m : Moment) : Prop where
  filters : s.PassesFilters req m
  method : req.method = "POST"
  ident : req.ident? = none
  subject : u ∉ ["", "public", "static"]
  takes : ∃ p draft raw fence, p.isEditor = true ∧ p.subUser = u ∧
    geofenceDraft p req.bodyJson = .ok (.ok draft) ∧
    s.write? (createGeofence draft) m.diskError = some raw ∧
    s.storedFence? draft.gid = some fence ∧ ownerOf fence ≠ u

theorem handleAdmin_keeps_foreign {s : NtripCaster F} {u : String}
    {req : AdminRequest F} {m : Moment} (hrequest : s.EditorRequest u req m)
    (hno : ¬ s.TakesForeignId u req m) {gid : String} {fence : Json F}
    (hstored : s.storedFence? gid = some fence)
    (howner : ownerOf fence ≠ u) :
    (s.handleAdmin req m).server.storedFence? gid = some fence := by
  rcases hrequest.token with ⟨claims, haccess, heditor, hsubject⟩
  cases handleAdmin_outcome haccess with
  | stopped _ hsame =>
      unfold storedFence? at hstored ⊢
      rw [hsame.file]
      exact hstored
  | dispatched b s₁ hfilters hsame hwho hs' =>
      have hprincipal : b.principal = principalOf claims := by
        rcases hwho with hprincipal | hpublic
        · exact hprincipal
        · have hfixed : req.path ∈ fixedPaths :=
            List.mem_append_left _ hpublic
          exact absurd hrequest.resource
            (resource?_of_fixed hfixed "geofences" (by decide))
      have hstored₁ : s₁.storedFence? gid = some fence := by
        unfold storedFence? at hstored ⊢
        rw [hsame.file]
        exact hstored
      -- a fence whose owner has been checked is none of the foreign ones
      have hchecked (ident : String) (raw raw' cur : Json F) (u' : Unit)
          (hfile : s₁.file = .ok raw) (hcur : fence? raw ident = some cur)
          (hok : (principalOf claims).checkOwner cur = .ok u')
          (hothers : ∀ gid ≠ ident, fence? raw' gid = fence? raw gid) :
          fence? raw' gid = fence? raw gid := by
        apply hothers
        rintro rfl
        rw [storedFence?_of_file hfile, hcur] at hstored₁
        obtain rfl := Option.some.inj hstored₁
        exact howner ((ownerOf_of_checkOwner heditor hok).trans hsubject)
      rw [hs']
      rcases dispatch_geofences (s := s₁) (b := b) (m := m)
        hrequest.resource with hkept | houtcome
      · unfold storedFence? at hstored₁ ⊢
        rw [hkept]
        exact hstored₁
      rw [hprincipal] at houtcome
      cases houtcome with
      | kept hserver =>
          rw [hserver]
          exact hstored₁
      | created draft hpost hident hnamed hdraft hserver =>
          rw [hserver]
          refine (storedFence?_updateConfig ?_).trans hstored₁
          intro raw raw' hfile hwrite hupdated
          apply fence?_createGeofence hupdated
          rintro rfl
          have hwrite' := (hsame.write? (createGeofence draft)
            m.diskError).symm.trans hwrite
          exact hno ⟨hfilters, hpost, hident, hsubject ▸ hnamed heditor,
            principalOf claims, draft, raw', fence, heditor, hsubject,
            hdraft, hwrite', hstored, howner⟩
      | patched ident poly mode gj hserver =>
          rw [hserver]
          refine (storedFence?_updateConfig ?_).trans hstored₁
          intro raw raw' hfile _ hupdated
          rcases patchGeofence_eq_ok hupdated with
            ⟨cur, u', edited, hcur, hok, _, _, hothers⟩
          exact hchecked ident raw raw' cur u' hfile hcur hok hothers
      | deleted ident hserver =>
          rw [hserver]
          refine (storedFence?_updateConfig ?_).trans hstored₁
          intro raw raw' hfile _ hupdated
          rcases deleteGeofence_eq_ok hupdated with
            ⟨cur, u', hcur, hok, hothers⟩
          exact hchecked ident raw raw' cur u' hfile hcur hok hothers

/-! ## Runs -/

def adminStep (s : NtripCaster F) (event : AdminRequest F × Moment) :
    Option (NtripCaster F) :=
  some (s.handleAdmin event.1 event.2).server

/-- In a run of writes by the editor `u` none of which takes a foreign id,
every fence of another owner is stored unchanged. -/
theorem run_keeps_foreign {u : String} {s s' : NtripCaster F}
    {events : List (AdminRequest F × Moment)}
    (hmeets : StepsMeet adminStep (fun s event =>
      s.EditorRequest u event.1 event.2 ∧
        ¬ s.TakesForeignId u event.1 event.2) s events)
    (hrun : run adminStep s events = some s') {gid : String}
    {fence : Json F} (hstored : s.storedFence? gid = some fence)
    (howner : ownerOf fence ≠ u) : s'.storedFence? gid = some fence := by
  refine StepsMeet.run_preserves
    (P := fun s => s.storedFence? gid = some fence) ?_ hstored hmeets hrun
  intro state event next hkept hcondition hstep
  obtain rfl := Option.some.inj hstep
  exact handleAdmin_keeps_foreign hcondition.1 hcondition.2 hkept howner

end Requests

end NtripCaster

end Ownership

/-! ## Two editors -/

def triangle : Json ℚ :=
  .arr [.arr [.int 37, .int 32], .arr [.int 38, .int 32],
    .arr [.int 38, .int 33]]

def aliceFence : Json ℚ :=
  .obj [("polygon", triangle), ("mode", .str "block"),
    ("owner", .str "alice")]

def fencedServer : NtripCaster ℚ :=
  smallServer (.obj [("geofence_polygons", .obj [("A1", aliceFence)])])

def bobRequest (method path : String) : AdminRequest ℚ :=
  bearerRequest method path
    (.obj [("id", .str "A1"), ("polygon", triangle)])

@[reducible] def bobJwt : JwtLib ℚ :=
  oneToken (accessClaims "bob" "geofence_editor")

def afterBob (req : AdminRequest ℚ) : NtripCaster ℚ :=
  (@NtripCaster.handleAdmin ℚ _ noDigest bobJwt anyBody fencedServer req
    firstMoment).server

namespace NtripCaster

theorem bobRequest_editor {method path : String}
    (hresource : (bobRequest method path).resource? = some "geofences")
    (hmethod : (bobRequest method path).isWrite = true) :
    @EditorRequest ℚ _ bobJwt fencedServer "bob" (bobRequest method path)
      firstMoment :=
  @EditorRequest.mk ℚ _ bobJwt fencedServer "bob" _ _ hresource hmethod
    ⟨accessClaims "bob" "geofence_editor",
      bearerRequest_access _ _ _ _ _ _, by decide +kernel, rfl⟩

theorem run_keeps_foreign_delete :
    (afterBob (bobRequest "DELETE" "/admin/geofences/A1")).storedFence? "A1" =
      some aliceFence := by
  refine @run_keeps_foreign ℚ _ bobJwt noDigest anyBody "bob" fencedServer _
    [(bobRequest "DELETE" "/admin/geofences/A1", firstMoment)]
    ⟨⟨?_, ?_⟩, fun _ _ => trivial⟩ rfl "A1" aliceFence rfl
    (by decide +kernel)
  · exact bobRequest_editor (by decide +kernel) (by decide +kernel)
  · intro htakes
    exact absurd htakes.method (by decide)

/-- A POST of `bob` with the id of that fence puts his own in its place. -/
theorem bob_takes_foreign_id :
    @EditorRequest ℚ _ bobJwt fencedServer "bob"
        (bobRequest "POST" "/admin/geofences") firstMoment ∧
      fencedServer.storedFence? "A1" = some aliceFence ∧
      ownerOf aliceFence ≠ "bob" ∧
      (afterBob (bobRequest "POST" "/admin/geofences")).storedFence? "A1" ≠
        some aliceFence := by
  refine ⟨bobRequest_editor (by decide +kernel) (by decide +kernel), rfl,
    by decide +kernel, fun hkept => ?_⟩
  have howner : ((afterBob
      (bobRequest "POST" "/admin/geofences")).storedFence? "A1").map
        ownerOf = some "bob" := by
    decide +kernel
  rw [hkept] at howner
  exact absurd howner (by decide +kernel)

end NtripCaster

end BabilCors
