import BabilCors.AdminReadOnly
import BabilCors.BlockedRovers
import BabilCors.FenceConsistency
import BabilCors.ReloadAtomicity

/-!
# Fences created from a geometry

A POST with a geometry and no polygon stores the outer ring of its first
member.  The record goes through the file and the settings that are loaded
from it to the check of the read loop, so the positions that count as inside
are those of the first member, whatever the others enclose.
-/

namespace BabilCors

open NtripCaster Py

variable {F : Type} [PyFloat F]

def Encloses (ring : List (Point F)) (gga : Gga F) : Prop :=
  pointInPolygon (gga.lat, gga.lon) ring = .ok true

/-- The fence check of the read loop finds the position inside. -/
def TreatsInside (env : ReadEnv F) (gga : Gga F) : Prop :=
  geofenceViolation env gga = .ok none

/-! ## The record -/

theorem geofenceDraft_gid {p : Principal} {body : Json F}
    {draft : GeofenceDraft F} (hok : geofenceDraft p body = .ok (.ok draft)) :
    bodyText body "id" = .ok draft.gid := by
  unfold geofenceDraft at hok
  rcases bind_eq_ok.mp hok with ⟨gid, hid, hok⟩
  rcases bind_eq_ok.mp hok with ⟨_, _, hok⟩
  rcases bind_eq_ok.mp hok with ⟨_, _, hok⟩
  dsimp only at hok
  split at hok
  swap
  · cases hok
  rcases bind_eq_ok.mp hok with ⟨_, _, hok⟩
  by_cases hgid : gid = ""
  · rw [if_pos hgid] at hok
    cases hok
  rw [if_neg hgid] at hok
  rcases bind_eq_ok.mp hok with ⟨_, _, hok⟩
  rcases bind_eq_ok.mp hok with ⟨_, _, hok⟩
  split at hok
  · rcases bind_eq_ok.mp hok with ⟨_, _, hok⟩
    obtain rfl := Except.ok.inj (Except.ok.inj hok)
    exact hid
  · cases hok

/-- Without a polygon the draft has the first ring of the geometry. -/
theorem geofenceDraft_of_geojson {p : Principal} {body gj : Json F}
    {draft : GeofenceDraft F} (hok : geofenceDraft p body = .ok (.ok draft))
    (hpolygon : field? body "polygon" = none)
    (hgeojson : field? body "geojson" = some gj) (hobj : gj.isObj = true) :
    ∃ ring rest, geojsonToRings gj = .ok (ring :: rest) ∧ ring ≠ [] ∧
      draft.polygon = pointsToJson ring := by
  rcases geofenceDraft_eq_ok hok with
    ⟨poly, gj', items, hpoly, hgj', hdraft, hitems, hne, -, -⟩
  obtain rfl : poly = .null := by
    rw [getD_eq_ok hpoly, hpolygon]
    rfl
  obtain rfl : gj' = some gj := by
    rw [bodyGeojson_eq_ok hgj', givenGeojson, hgeojson, Option.filter_some,
      if_pos hobj]
  have hempty : Json.orElse (.null : Json F) (.arr []) = .arr [] := rfl
  have hnonempty : draft.polygon ≠ .arr [] := by
    rw [hitems]
    exact fun hnil => hne (Json.arr.inj hnil)
  rw [hempty, Option.filter_some] at hdraft
  by_cases htruthy : gj.truthy = true
  · rw [if_pos htruthy] at hdraft
    rcases map_eq_ok.mp hdraft with ⟨rings, hread, hfirst⟩
    cases rings with
    | nil => exact (hnonempty hfirst.symm).elim
    | cons ring rest =>
        refine ⟨ring, rest, hread, ?_, hfirst.symm⟩
        rintro rfl
        exact hnonempty hfirst.symm
  · rw [if_neg htruthy] at hdraft
    exact (hnonempty (Except.ok.inj hdraft).symm).elim

/-- The check of the stored record is the scan of the ring. -/
theorem treatsInside_iff {env : ReadEnv F} {draft : GeofenceDraft F}
    {ring : List (Point F)} (hselect : selectGeofence env = .ok draft.record)
    (hpolygon : draft.polygon = pointsToJson ring) (hne : ring ≠ [])
    (gga : Gga F) : TreatsInside env gga ↔ Encloses ring gga := by
  obtain ⟨fields, hfields⟩ : ∃ fields, draft.record = .obj fields :=
    ⟨_, rfl⟩
  have hmodeField : field? draft.record "mode" = some (.str draft.mode) := rfl
  have hstored := (field?_record draft).1
  rw [hfields] at hselect hstored hmodeField
  have hget : (Json.obj fields).get "polygon" =
      .ok (some (pointsToJson ring)) := by
    rw [← hpolygon, ← hstored]
    rfl
  have hmode : PyDict.get? fields "mode" = some (.str draft.mode) :=
    hmodeField
  obtain ⟨mode, hfence⟩ : ∃ mode,
      fenceMode (.str draft.mode : Json F) = .ok mode := by
    unfold fenceMode Json.orElse
    split_ifs
    · exact ⟨_, rfl⟩
    · exact ⟨_, rfl⟩
  unfold TreatsInside Encloses
  rw [geofenceViolation_eq hselect hget (polygonOfJson_pointsToJson ring) hne,
    hmode, Option.getD_some, hfence]
  cases pointInPolygon (gga.lat, gga.lon) ring with
  | error e => simp [bind, Except.bind]
  | ok inside =>
      cases inside with
      | false => simp [bind, Except.bind]
      | true => simp [bind, Except.bind]

/-! ## From the file to the check -/

/-- The read loop runs with the geofences of the server's file. -/
def ReadsFile (s : NtripCaster F) (env : ReadEnv F) : Prop :=
  ∃ cfg, s.file >>= checkedConfig s.environ = .ok cfg ∧
    securityD cfg.security "geofence_polygons" (.obj []) =
      .ok env.geofencePolygons

/-- The fence that applies to the session is the one with this id. -/
def AppliesTo (env : ReadEnv F) (gid : String) : Prop :=
  selectGeofence env =
    .ok ((field? env.geofencePolygons gid).getD .null)

/-- Without a fence of the user, the one of the mountpoint applies. -/
theorem appliesTo_of_mountpoint {env : ReadEnv F} {gid : String}
    {fence : Json F}
    (hown : (env.users.get? env.username).bind (·.geofenceId) = none)
    (hmountpoint : env.mountpoint = gid)
    (hfence : field? env.geofencePolygons gid = some fence)
    (htruthy : fence.truthy = true) : AppliesTo env gid := by
  unfold AppliesTo selectGeofence
  rw [hown, hmountpoint, hfence, Option.getD_some]
  cases hpolygons : env.geofencePolygons with
  | obj fences =>
      rw [hpolygons] at hfence
      have hget : PyDict.get? fences gid = some fence := hfence
      rw [orElse_obj]
      change (.ok (((PyDict.get? fences gid).getD .null).orElse
        ((PyDict.get? fences "*").getD .null)) : Except PyErr (Json F)) = _
      rw [hget, Option.getD_some, Json.orElse, if_pos htruthy]
  | null | bool _ | int _ | float _ | str _ | arr _ =>
      rw [hpolygons] at hfence
      cases hfence

theorem ReadsFile.field? {s : NtripCaster F} {env : ReadEnv F} {gid : String}
    {fence : Json F} (hreads : ReadsFile s env)
    (hstored : s.storedFence? gid = some fence) :
    field? env.geofencePolygons gid = some fence := by
  rcases hreads with ⟨cfg, hcfg, hpolygons⟩
  rcases bind_eq_ok.mp hcfg with ⟨raw, hfile, hchecked⟩
  rcases bind_eq_ok.mp hchecked with ⟨loaded, hload, hvalid⟩
  rcases bind_eq_ok.mp hvalid with ⟨_, _, hsame⟩
  obtain rfl := Except.ok.inj hsame
  rcases loadConfig_security hload with ⟨sec, hsec, hsecurity⟩
  have hfence : fence? raw gid = some fence := by
    unfold storedFence? at hstored
    rw [hfile] at hstored
    exact hstored
  rcases Option.bind_eq_some_iff.mp hfence with ⟨gf, hgf, hgid⟩
  rcases Option.bind_eq_some_iff.mp hgf with ⟨security, hsection, hgf⟩
  have hsame : sec = security := by
    rw [getD_eq_ok hsec, hsection, Option.getD_some]
  cases security with
  | obj fields =>
      have hget : PyDict.get? fields "geofence_polygons" = some gf := hgf
      rw [hsecurity, hsame, orElse_obj,
        securityD_of_obj (orElse_obj fields), hget, Option.getD_some]
        at hpolygons
      rw [← Except.ok.inj hpolygons]
      exact hgid
  | null | bool _ | int _ | float _ | str _ | arr _ => cases hgf

/-! ## The request -/

section Requests

variable [Crypto] [JwtLib F] [SchemaLib F]

/-- A POST that creates a fence from a geometry: its body has an id and a
GeoJSON object and no polygon, and it is answered with success. -/
structure CreatesFence (s : NtripCaster F) (req : AdminRequest F)
    (m : Moment) (gid : String) (gj : Json F) : Prop where
  resource : req.resource? = some "geofences"
  ident : req.ident? = none
  method : req.method = "POST"
  requests : ∃ call, s.RequestsUpdate req m call
  id : bodyText req.bodyJson "id" = .ok gid
  polygon : field? req.bodyJson "polygon" = none
  geojson : field? req.bodyJson "geojson" = some gj
  isObj : gj.isObj = true
  created : (s.handleAdmin req m).isSuccess = true

theorem CreatesFence.stored {s : NtripCaster F} {req : AdminRequest F}
    {m : Moment} {gid : String} {gj : Json F}
    (h : CreatesFence s req m gid gj) :
    ∃ ring rest, ∃ draft : GeofenceDraft F,
      geojsonToRings gj = .ok (ring :: rest) ∧ ring ≠ [] ∧
      draft.polygon = pointsToJson ring ∧
      (s.handleAdmin req m).server.storedFence? gid = some draft.record := by
  rcases h.requests with ⟨call, hrequests⟩
  rcases hrequests.accepted with ⟨b, _, hcall⟩
  have hnamed : req.named? = none := by
    unfold AdminRequest.named?
    rw [h.ident]
    rfl
  obtain ⟨draft, hdraft, hupdater⟩ : ∃ draft,
      geofenceDraft b.principal req.bodyJson = .ok (.ok draft) ∧
        call.updater = createGeofence draft := by
    unfold resourceCall? geofencesCall? at hcall
    rw [if_pos h.resource, hnamed] at hcall
    dsimp only at hcall
    split_ifs at hcall
    split at hcall
    next draft hdraft =>
      obtain rfl := Option.some.inj hcall
      exact ⟨draft, hdraft, rfl⟩
    next => cases hcall
  rcases geofenceDraft_of_geojson hdraft h.polygon h.geojson h.isObj with
    ⟨ring, rest, hrings, hne, hpolygon⟩
  refine ⟨ring, rest, draft, hrings, hne, hpolygon, ?_⟩
  obtain rfl : gid = draft.gid :=
    Except.ok.inj (h.id.symm.trans (geofenceDraft_gid hdraft))
  have hnotBlind : ¬ (BlindDelete req ∧
      s.Refuses call.updater m.diskError) := by
    rintro ⟨⟨hdelete, _⟩, _⟩
    rw [h.method] at hdelete
    exact absurd hdelete (by decide)
  have hwritten :=
    (hrequests.isSuccess_iff.mp h.created).resolve_right hnotBlind
  rcases Option.isSome_iff_exists.mp hwritten with ⟨raw', hwrite⟩
  have hfile := hrequests.file
  rw [hwrite] at hfile
  rcases write?_eq_some hwrite with ⟨raw, _, hupdated, _⟩
  rw [hupdater] at hupdated
  unfold storedFence?
  rw [hfile]
  exact fence?_createGeofence_self hupdated

/-- A fence that is created from a geometry treats a position as inside
exactly if some member encloses it, if and only if every member that encloses
it does so together with the first one. -/
theorem geojson_fence_iff {s : NtripCaster F} {req : AdminRequest F}
    {m : Moment} {gid : String} {gj : Json F} {env : ReadEnv F}
    (hcreates : CreatesFence s req m gid gj)
    (hreads : ReadsFile (s.handleAdmin req m).server env)
    (happlies : AppliesTo env gid) (gga : Gga F) :
    ∃ first others, geojsonToRings gj = .ok (first :: others) ∧
      ((TreatsInside env gga ↔
          ∃ member ∈ first :: others, Encloses member gga) ↔
        ∀ member ∈ others, Encloses member gga → Encloses first gga) := by
  rcases hcreates.stored with
    ⟨first, others, draft, hrings, hne, hpolygon, hstored⟩
  have hselect : selectGeofence env = .ok draft.record := by
    rw [happlies, hreads.field? hstored, Option.getD_some]
  refine ⟨first, others, hrings, ?_⟩
  rw [treatsInside_iff hselect hpolygon hne, List.exists_mem_cons_iff]
  constructor
  · intro hregion member hmember hinside
    exact hregion.mpr (.inr ⟨member, hmember, hinside⟩)
  · intro hfirst
    constructor
    · exact .inl
    · rintro (hinside | ⟨member, hmember, hinside⟩)
      · exact hinside
      · exact hfirst member hmember hinside

end Requests

/-! ## Two members -/

def twoMembers : Json ℚ :=
  multiPolygon [southRing, northRing]

def postTwoMembers : AdminRequest ℚ :=
  postFence [("geojson", twoMembers)]

/-- A session at the mountpoint that has the name of the fence. -/
def envAt (polygons : Json ℚ) : ReadEnv ℚ where
  sessionId := 1
  username := "rover"
  mountpoint := "A1"
  users := []
  geofencePolygons := polygons
  diagCfg := []

def afterTwoMembers : Outcome ℚ :=
  afterFence (smallServer (.obj [])) postTwoMembers

def northGga : Gga ℚ := ⟨163 / 4, 129 / 4, 1, 8, 1⟩

theorem postTwoMembers_creates :
    @CreatesFence ℚ _ noDigest adminJwt anyBody (smallServer (.obj []))
      postTwoMembers firstMoment "A1" twoMembers := by
  have hbody : postTwoMembers.bodyJson =
      .obj [("id", .str "A1"), ("geojson", twoMembers)] :=
    bearerRequest_bodyJson _ _ (.inl rfl)
  have hcall : (@resourceCall? ℚ _ anyBody
      (principalOf (accessClaims "root" "admin")) postTwoMembers
        postTwoMembers.bodyJson).isSome = true := by
    decide +kernel
  rcases Option.isSome_iff_exists.mp hcall with ⟨call, hcall⟩
  refine @CreatesFence.mk ℚ _ noDigest adminJwt anyBody _ _ _ _ _
    (by decide +kernel) (by decide +kernel) rfl ⟨call, ?_⟩ ?_ ?_ ?_ rfl
    (by decide +kernel)
  · exact @RequestsUpdate.of_access ℚ _ noDigest adminJwt anyBody _ _ _ _ _
      (bearerRequest_access _ _ _ _ _ _) smallServer_passes (by decide) hcall
  all_goals
    rw [hbody]
    rfl

theorem geojson_fence_iff_twoMembers :
    ∃ polygons, ReadsFile afterTwoMembers.server (envAt polygons) ∧
      ∃ first others, geojsonToRings twoMembers = .ok (first :: others) ∧
        ((TreatsInside (envAt polygons) northGga ↔
            ∃ member ∈ first :: others, Encloses member northGga) ↔
          ∀ member ∈ others, Encloses member northGga →
            Encloses first northGga) := by
  have hloaded : ((afterTwoMembers.server.file >>=
      checkedConfig afterTwoMembers.server.environ) >>= fun cfg =>
        securityD cfg.security "geofence_polygons"
          (.obj [])).toOption.isSome = true := by
    decide +kernel
  rcases Option.isSome_iff_exists.mp hloaded with ⟨polygons, hpolygons⟩
  rcases bind_eq_ok.mp (toOption_eq_some.mp hpolygons) with
    ⟨cfg, hcfg, hpolygons⟩
  have hreads : ReadsFile afterTwoMembers.server (envAt polygons) :=
    ⟨cfg, hcfg, hpolygons⟩
  rcases @CreatesFence.stored ℚ _ noDigest adminJwt anyBody _ _ _ _ _
    postTwoMembers_creates with ⟨_, _, draft, _, _, _, hstored⟩
  have happlies : AppliesTo (envAt polygons) "A1" :=
    appliesTo_of_mountpoint rfl rfl (hreads.field? hstored) rfl
  exact ⟨polygons, hreads, @geojson_fence_iff ℚ _ noDigest adminJwt anyBody
    _ _ _ _ _ _ postTwoMembers_creates hreads happlies northGga⟩

/-- A position inside the second member is a violation. -/
theorem second_member_lost :
    afterTwoMembers.isSuccess = true ∧
      geojsonToRings twoMembers = .ok [southRing, northRing] ∧
      Encloses northRing northGga ∧
      ¬ TreatsInside (envAt afterTwoMembers.server.geofencePolygons)
        northGga := by
  have hviolation : (geofenceViolation
      (envAt afterTwoMembers.server.geofencePolygons) northGga).toOption =
        some (some "alert") := by
    decide +kernel
  refine ⟨by decide +kernel, geojsonToRings_multiPolygon _, ?_, ?_⟩
  · apply toOption_eq_some.mp
    decide +kernel
  · intro hinside
    rw [TreatsInside] at hinside
    rw [hinside] at hviolation
    cases hviolation

end BabilCors
