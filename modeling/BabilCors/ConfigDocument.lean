import BabilCors.Geofence
import BabilCors.JwtManager

/-!
# Changes of the configuration document

The updaters that the admin requests hand to `_admin_update_config`: what each
makes of the document that the file holds.
-/

namespace BabilCors

open Py

variable {F : Type} [PyFloat F]

/-- A change of the document; an exception discards it. -/
abbrev Updater (F : Type) := Json F → Except PyErr (Json F)

/-- `u[k] = body[k]` for the keys that the body has. -/
def copyFields (body : Json F) (keys : List String) : Updater F :=
  fun u => keys.foldlM
    (fun u key => do
      if ← body.contains key then u.setItem key (← body.getItem key)
      else return u)
    u

/-- `raw[key][name] = value` for a name that `raw[key]` has. -/
def replaceIn (raw : Json F) (key name : String) (value : Json F) :
    Json F :=
  match raw with
  | .obj fields =>
      match PyDict.get? fields key with
      | some (.obj entries) =>
          .obj (PyDict.set fields key (.obj (PyDict.set entries name value)))
      | _ => raw
  | raw => raw

def patchNamed (key name : String) (patch : Updater F) : Updater F :=
  fun raw => do
    let entries := (← raw.getD key .null).orElse (.obj [])
    let entry ← entries.getD name .null
    if entry.truthy then
      return replaceIn raw key name (← patch entry)
    else
      throw (.valueError "not found")

def deleteNamed (key name : String) : Updater F :=
  fun raw => do
    let entries := (← raw.getD key .null).orElse (.obj [])
    if ← entries.contains name then
      raw.setItem key (← entries.delItem name)
    else
      throw (.valueError "not found")

/-! ## Users and tiers -/

def createUser (uname : String) (body : Json F) : Updater F :=
  fun raw => raw.withDefault "users" fun users => do
    if ← users.contains uname then
      throw (.valueError "user exists")
    else
      users.setItem uname (← copyFields body
        ["password", "password_sha256", "password_hash", "tier",
          "mountpoints", "geofence_id", "role"] (.obj []))

def patchUser (ident : String) (body : Json F) : Updater F :=
  patchNamed "users" ident (copyFields body
    ["tier", "password", "password_sha256", "password_hash", "mountpoints",
      "geofence_id", "role"])

def deleteUser (ident : String) : Updater F :=
  deleteNamed "users" ident

def createTier (name : String) (body : Json F) : Updater F :=
  fun raw => raw.withDefault "tiers" fun tiers => do
    if ← tiers.contains name then
      throw (.valueError "tier exists")
    else
      let fields ← ["rate_limit_bps", "max_epochs_per_minute",
        "max_queue_bytes"].mapM fun key => do
          let value := (← body.getD key (.int 0)).orElse (.int 0)
          return (key, Json.int (← value.pyInt))
      tiers.setItem name (.obj fields)

def patchTier (ident : String) (body : Json F) : Updater F :=
  patchNamed "tiers" ident fun t => do
    (← body.items).foldlM
      (fun t (key, value) => do t.setItem key (.int (← value.pyInt))) t

def deleteTier (ident : String) : Updater F :=
  deleteNamed "tiers" ident

/-! ## Mountpoints -/

def storedMountpoints (raw : Json F) : Except PyErr (List (Json F)) := do
  (← (← raw.getD "sources" (.obj [])).getD "mountpoints" (.arr [])).iter

def storeMountpoints (mps : List (Json F)) : Updater F :=
  fun raw => raw.withDefault "sources" fun sources =>
    sources.setItem "mountpoints" (.arr mps)

def createMountpoint (name : String) : Updater F :=
  fun raw => do
    let mps ← storedMountpoints raw
    if mps.any (Json.eqStr name) then
      throw (.valueError "exists")
    else
      storeMountpoints (mps ++ [.str name]) raw

def deleteMountpoint (ident : String) : Updater F :=
  fun raw => do
    let mps ← storedMountpoints raw
    if mps.any (Json.eqStr ident) then
      storeMountpoints (mps.eraseP (Json.eqStr ident)) raw
    else
      throw (.valueError "not found")

def metaField (key : String) (value : Json F) : Except PyErr (Json F) :=
  if key = "latitude" ∨ key = "longitude" then value.pyFloat.map Json.float
  else if key = "bitrate" ∨ key = "carrier" then value.pyInt.map Json.int
  else .ok value

def mergeMeta (ident : String) (body : Json F) : Updater F :=
  fun raw => raw.withDefault "sourcetable" fun st =>
    st.withDefault "mountpoints_meta" fun mm =>
      mm.withDefault ident fun item => do
        (← (body.orElse (.obj [])).items).foldlM
          (fun item (key, value) => do
            item.setItem key (← metaField key value))
          item

/-! ## Geofences -/

structure Principal where
  role : String
  subUser : String
  deriving DecidableEq, Repr

namespace Principal

def isAdmin (p : Principal) : Bool :=
  JwtManager.roleAllows p.role true

def isEditor (p : Principal) : Bool :=
  lower p.role == "geofence_editor"

def checkOwner (p : Principal) (cur : Json F) : Except PyErr Unit :=
  if p.isEditor && !p.isAdmin then do
    let owner := ((← cur.getD "owner" .null).orElse (.str "")).pyStr
    if owner = p.subUser then return ()
    else throw (.permissionError "not owner")
  else
    .ok ()

end Principal

structure GeofenceDraft (F : Type) where
  gid : String
  polygon : Json F
  mode : String
  bbox : Option (BBox F)
  geojson : Option (Json F)
  owner : Option String

def GeofenceDraft.record (draft : GeofenceDraft F) : Json F :=
  .obj ([("polygon", draft.polygon), ("mode", .str draft.mode)] ++
    (draft.bbox.map fun b => ("bbox", b.toJson)).toList ++
    (draft.geojson.map fun gj => ("geojson", gj)).toList ++
    (draft.owner.map fun owner => ("owner", .str owner)).toList)

def updateGeofences (f : Updater F) : Updater F :=
  fun raw => raw.withDefault "security" fun sec =>
    sec.withDefault "geofence_polygons" f

def createGeofence (draft : GeofenceDraft F) : Updater F :=
  updateGeofences fun gf => gf.setItem draft.gid draft.record

def pointsToJson (points : List (Point F)) : Json F :=
  .arr (points.map fun (a, b) => .arr [.float a, .float b])

/-- The fence with the first ring of a GeoJSON geometry. -/
def applyGeojson (gj : Option (Json F)) (cur : Json F) :
    Except PyErr (Json F) :=
  match gj with
  | none => .ok cur
  | some gj => do
      match ← geojsonToRings gj with
      | [] => return cur
      | ring :: _ =>
          (← cur.setItem "polygon" (pointsToJson ring)).setItem "geojson" gj

/-- The fence with the box of its polygon; an exception leaves it as it is. -/
def refreshBBox (cur : Json F) : Json F :=
  let refreshed : Except PyErr (Json F) := do
    let poly := (← cur.getD "polygon" .null).orElse (.arr [])
    let bbox ← polygonBBox (← polygonOfJson poly)
    cur.setItem "bbox" bbox.toJson
  match refreshed with
  | .ok cur => cur
  | .error _ => cur

/-- The fence with what the body gives. -/
def editFence (p : Principal) (poly mode : Json F) (gj : Option (Json F))
    (body : Json F) : Updater F :=
  fun cur => do
    let cur ← applyGeojson gj cur
    let cur ← match poly with
      | .null => .ok cur
      | poly => cur.setItem "polygon" poly
    let cur ← match mode with
      | .null => .ok cur
      | mode => cur.setItem "mode" (.str mode.pyStr)
    let cur ←
      if p.isAdmin && (← body.contains "owner") then
        cur.setItem "owner" (.str
          ((← body.getD "owner" .null).orElse (.str "")).pyStr)
      else
        .ok cur
    return refreshBBox cur

def patchGeofence (p : Principal) (ident : String) (poly mode : Json F)
    (gj : Option (Json F)) (body : Json F) : Updater F :=
  updateGeofences fun gf => do
    let cur ← gf.getD ident .null
    if cur.truthy then
      p.checkOwner cur
      gf.setItem ident (← editFence p poly mode gj body cur)
    else
      throw (.valueError "not found")

def deleteGeofence (p : Principal) (ident : String) : Updater F :=
  updateGeofences fun gf => do
    match ← gf.getD ident .null with
    | .null => throw (.valueError "not found")
    | cur =>
        p.checkOwner cur
        gf.delItem ident

/-! ## Disabled mountpoints -/

def storedDisabled (sec : Json F) : Except PyErr (List (Json F)) := do
  ((← sec.getD "disabled_mountpoints" (.arr [])).orElse (.arr [])).iter

def disableMountpoint (mp : String) : Updater F :=
  fun raw => raw.withDefault "security" fun sec => do
    let cur ← storedDisabled sec
    let cur := if cur.any (Json.eqStr mp) then cur else cur ++ [.str mp]
    sec.setItem "disabled_mountpoints" (.arr cur)

def enableMountpoint (mp : String) : Updater F :=
  fun raw => raw.withDefault "security" fun sec => do
    let cur ← storedDisabled sec
    sec.setItem "disabled_mountpoints" (.arr (cur.eraseP (Json.eqStr mp)))

/-! ## What a change of the geofences leaves alone -/

omit [PyFloat F] in
def field? (j : Json F) (key : String) : Option (Json F) :=
  match j with
  | .obj fields => PyDict.get? fields key
  | _ => none

omit [PyFloat F] in
def securityField? (raw : Json F) (key : String) : Option (Json F) :=
  (field? raw "security").bind fun sec => field? sec key

/-- The documents agree but for the geofences. -/
structure SameButGeofences (raw raw' : Json F) : Prop where
  top : ∀ key ≠ "security", field? raw' key = field? raw key
  security : ∀ key ≠ "geofence_polygons",
    securityField? raw' key = securityField? raw key

omit [PyFloat F] in
/-- The parts of a document whose geofences are changed: the security section is
a dictionary, or absent, and gets its geofences replaced. -/
theorem updateGeofences_eq_ok {f : Updater F} {raw raw' : Json F}
    (hok : updateGeofences f raw = .ok raw') :
    ∃ fields sec polygons, raw = .obj fields ∧
      (PyDict.get? fields "security").getD (.obj []) = .obj sec ∧
      f ((PyDict.get? sec "geofence_polygons").getD (.obj [])) =
        .ok polygons ∧
      raw' = .obj (PyDict.set fields "security"
        (.obj (PyDict.set sec "geofence_polygons" polygons))) := by
  rcases Json.withDefault_eq_ok hok with ⟨fields, value, hraw, hsec, hraw'⟩
  rcases Json.withDefault_eq_ok hsec with
    ⟨sec, polygons, hobj, hpolygons, rfl⟩
  exact ⟨fields, sec, polygons, hraw, hobj, hpolygons, hraw'⟩

omit [PyFloat F] in
theorem securityField?_of_obj {fields sec : PyDict String (Json F)}
    (hsec : (PyDict.get? fields "security").getD (.obj []) = .obj sec)
    (key : String) :
    securityField? (.obj fields) key = PyDict.get? sec key := by
  unfold securityField? field?
  cases hget : PyDict.get? fields "security" with
  | none =>
      rw [hget] at hsec
      cases hsec
      simp [hget]
  | some value =>
      rw [hget, Option.getD_some] at hsec
      subst hsec
      simp [hget]

omit [PyFloat F] in
theorem updateGeofences_sameBut {f : Updater F} {raw raw' : Json F}
    (hok : updateGeofences f raw = .ok raw') :
    SameButGeofences raw raw' := by
  rcases updateGeofences_eq_ok hok with
    ⟨fields, sec, polygons, rfl, hsec, -, rfl⟩
  constructor
  · intro key hkey
    exact PyDict.get?_set_of_ne fields _ hkey.symm
  · intro key hkey
    have hsec' : (PyDict.get? (PyDict.set fields "security"
        (.obj (PyDict.set sec "geofence_polygons" polygons)))
        "security").getD (.obj []) =
          .obj (PyDict.set sec "geofence_polygons" polygons) := by
      rw [PyDict.get?_set_self, Option.getD_some]
    rw [securityField?_of_obj hsec', securityField?_of_obj hsec]
    exact PyDict.get?_set_of_ne sec polygons hkey.symm

end BabilCors
