import BabilCors.AdminGate
import BabilCors.GeofenceOwnership
import BabilCors.PolygonEdges
import BabilCors.ResponseTruth
import BabilCors.UpdateCalls

/-!
# One shape in three representations

The record of a geofence has a polygon, the box of the polygon, and sometimes
a GeoJSON geometry.  Creating and changing a fence keep the box right; the
geometry stays right as long as a polygon that is given agrees with the
geometry that the record will have.
-/

namespace BabilCors

open NtripCaster Py TransitionRuns

variable {F : Type} [PyFloat F]

/-- The polygon is the outer ring of the geometry. -/
def SameShape (poly gj : Json F) : Prop :=
  ∃ ring rest, polygonOfJson poly = .ok ring ∧
    geojsonToRings gj = .ok (ring :: rest)

/-- The box is that of the polygon, and so is the geometry, if there is one. -/
structure Consistent (fence : Json F) : Prop where
  box : ∃ poly ring b, field? fence "polygon" = some poly ∧
    polygonOfJson poly = .ok ring ∧ polygonBBox ring = .ok b ∧
    field? fence "bbox" = some b.toJson
  geojson : ∀ poly gj, field? fence "polygon" = some poly →
    field? fence "geojson" = some gj → SameShape poly gj

def IsPolygon (poly : Json F) : Prop :=
  ∃ p ps, polygonOfJson poly = .ok (p :: ps)

/-- The geometry of the body, which counts when it is an object. -/
def givenGeojson (body : Json F) : Option (Json F) :=
  (field? body "geojson").filter Json.isObj

/-- The polygon of the body is well formed, and its geometry is a single
polygon. -/
structure WellFormed (body : Json F) : Prop where
  polygon : ∀ poly, field? body "polygon" = some poly →
    poly = .null ∨ IsPolygon poly
  geojson : ∀ gj, givenGeojson body = some gj →
    ∃ p ps, geojsonToRings gj = .ok [p :: ps]

/-- The geometry that the record will have: the one of the body, or else the
one that is stored. -/
def geometryAfter (stored : Option (Json F)) (body : Json F) :
    Option (Json F) :=
  (givenGeojson body).or
    (stored.bind fun fence => field? fence "geojson")

/-- A polygon that is given is the outer ring of the geometry that the record
will have. -/
def KeepsShape (stored : Option (Json F)) (body : Json F) : Prop :=
  ∀ poly, field? body "polygon" = some poly → poly ≠ .null →
    ∀ gj, geometryAfter stored body = some gj → SameShape poly gj

/-! ## Reading what is written -/

theorem polygonOfJson_pointsToJson (ring : List (Point F)) :
    polygonOfJson (pointsToJson ring) = .ok ring :=
  mapM_pointOfJson ring

theorem IsPolygon.truthy {poly : Json F} (hpoly : IsPolygon poly) :
    poly.truthy = true := by
  rcases hpoly with ⟨p, ps, hring⟩
  cases poly with
  | arr items =>
      cases items with
      | nil => cases hring
      | cons item items => rfl
  | str s =>
      by_cases hs : s = ""
      · subst hs
        cases hring
      · simp [Json.truthy, hs]
  | obj fields =>
      cases fields with
      | nil => cases hring
      | cons field fields => rfl
  | null | bool _ | int _ | float _ => cases hring

omit [PyFloat F] in
theorem field?_setItem {j j' value : Json F} {key : String}
    (hok : j.setItem key value = .ok j') :
    field? j' key = some value ∧
      ∀ other ≠ key, field? j' other = field? j other := by
  cases j with
  | obj fields =>
      obtain rfl := Except.ok.inj hok
      constructor
      · exact PyDict.get?_set_self fields key value
      · intro other hother
        exact PyDict.get?_set_of_ne fields value hother.symm
  | null | bool _ | int _ | float _ | str _ | arr _ => cases hok

omit [PyFloat F] in
theorem getD_eq_ok {j value default : Json F} {key : String}
    (hok : j.getD key default = .ok value) :
    value = (field? j key).getD default := by
  cases j with
  | obj fields => exact (Except.ok.inj hok).symm
  | null | bool _ | int _ | float _ | str _ | arr _ => cases hok

omit [PyFloat F] in
theorem field?_of_getD {j value : Json F} {key : String}
    (hok : j.getD key .null = .ok value) (hnull : value ≠ .null) :
    field? j key = some value := by
  have hvalue := getD_eq_ok hok
  cases hfield : field? j key with
  | none =>
      rw [hfield] at hvalue
      exact absurd hvalue hnull
  | some stored =>
      rw [hfield, Option.getD_some] at hvalue
      rw [hvalue]

/-! ## A record without its box -/

structure Shaped (fence : Json F) (poly : Json F) : Prop where
  stored : field? fence "polygon" = some poly
  isPolygon : IsPolygon poly
  geojson : ∀ gj, field? fence "geojson" = some gj → SameShape poly gj

theorem Consistent.shaped {fence : Json F} (h : Consistent fence) :
    ∃ poly, Shaped fence poly := by
  rcases h.box with ⟨poly, ring, b, hstored, hring, hb, _⟩
  refine ⟨poly, hstored, ?_, fun gj => h.geojson poly gj hstored⟩
  cases ring with
  | nil => cases hb
  | cons p ps => exact ⟨p, ps, hring⟩

theorem Shaped.setOther {cur cur' poly value : Json F} {key : String}
    (h : Shaped cur poly) (hok : cur.setItem key value = .ok cur')
    (hpolygon : key ≠ "polygon") (hgeojson : key ≠ "geojson") :
    Shaped cur' poly := by
  rcases field?_setItem hok with ⟨_, hothers⟩
  refine ⟨?_, h.isPolygon, ?_⟩
  · rw [hothers _ hpolygon.symm]
    exact h.stored
  · rw [hothers _ hgeojson.symm]
    exact h.geojson

theorem refreshBBox_eq {cur cur' poly : Json F} {ring : List (Point F)}
    {b : BBox F} (hpoly : cur.getD "polygon" .null = .ok poly)
    (htruthy : poly.truthy = true) (hring : polygonOfJson poly = .ok ring)
    (hb : polygonBBox ring = .ok b)
    (hset : cur.setItem "bbox" b.toJson = .ok cur') :
    refreshBBox cur = cur' := by
  unfold refreshBBox
  simp only [hpoly, Json.orElse, htruthy, if_true, bind, Except.bind, hring,
    hb, hset]

/-- The box is computed from the polygon that is stored. -/
theorem Shaped.refreshBBox {cur poly : Json F} (h : Shaped cur poly) :
    Consistent (refreshBBox cur) := by
  rcases h.isPolygon with ⟨p, ps, hring⟩
  rcases hb : polygonBBox (p :: ps) with e | b
  · cases hb
  cases cur with
  | obj fields =>
      have hget : PyDict.get? fields "polygon" = some poly := h.stored
      have hpoly : (Json.obj fields).getD "polygon" .null = .ok poly := by
        simp [Json.getD, Json.get, hget, Except.map]
      have hset : (Json.obj fields).setItem "bbox" b.toJson =
          .ok (.obj (PyDict.set fields "bbox" b.toJson)) := rfl
      rw [refreshBBox_eq hpoly h.isPolygon.truthy hring hb hset]
      rcases field?_setItem hset with ⟨hbox, hothers⟩
      have hstored := (hothers "polygon" (by decide)).trans h.stored
      constructor
      · exact ⟨poly, p :: ps, b, hstored, hring, hb, hbox⟩
      · intro poly' gj hpoly' hgj
        rw [hstored] at hpoly'
        obtain rfl := Option.some.inj hpoly'
        rw [hothers "geojson" (by decide)] at hgj
        exact h.geojson gj hgj
  | null | bool _ | int _ | float _ | str _ | arr _ => cases h.stored

/-! ## A new record -/

omit [PyFloat F] in
theorem bodyGeojson_eq_ok {body : Json F} {gj : Option (Json F)}
    (hok : bodyGeojson body = .ok gj) : gj = givenGeojson body := by
  rcases map_eq_ok.mp hok with ⟨value, hvalue, rfl⟩
  rw [getD_eq_ok hvalue]
  unfold givenGeojson
  cases field? body "geojson" with
  | none => rfl
  | some value => rfl

theorem truthy_of_rings {gj : Json F} {ring : List (Point F)}
    {rings : List (List (Point F))}
    (hrings : geojsonToRings gj = .ok (ring :: rings)) :
    gj.truthy = true := by
  by_contra hfalsy
  have hempty : gj.orElse (.obj []) = .obj [] := if_neg hfalsy
  unfold geojsonToRings at hrings
  rw [hempty] at hrings
  cases hrings

theorem geofenceDraft_eq_ok {p : Principal} {body : Json F}
    {draft : GeofenceDraft F}
    (hok : geofenceDraft p body = .ok (.ok draft)) :
    ∃ poly gj items, body.getD "polygon" .null = .ok poly ∧
      bodyGeojson body = .ok gj ∧
      draftPolygon (poly.orElse (.arr [])) (gj.filter Json.truthy) =
        .ok draft.polygon ∧
      draft.polygon = .arr items ∧ items ≠ [] ∧
      draft.bbox = (polygonOfJson draft.polygon >>= polygonBBox).toOption ∧
      draft.geojson = gj.filter Json.truthy := by
  unfold geofenceDraft at hok
  rcases bind_eq_ok.mp hok with ⟨gid, _, hok⟩
  rcases bind_eq_ok.mp hok with ⟨poly, hpoly, hok⟩
  rcases bind_eq_ok.mp hok with ⟨mode, _, hok⟩
  dsimp only at hok
  split at hok
  swap
  · cases hok
  rcases bind_eq_ok.mp hok with ⟨mode, _, hok⟩
  by_cases hgid : gid = ""
  · rw [if_pos hgid] at hok
    cases hok
  rw [if_neg hgid] at hok
  rcases bind_eq_ok.mp hok with ⟨gj, hgj, hok⟩
  rcases bind_eq_ok.mp hok with ⟨polygon, hpolygon, hok⟩
  split at hok
  · rcases bind_eq_ok.mp hok with ⟨given, _, hok⟩
    obtain rfl := Except.ok.inj (Except.ok.inj hok)
    exact ⟨poly, gj, _, hpoly, hgj, hpolygon, rfl, List.cons_ne_nil _ _,
      rfl, rfl⟩
  · cases hok

omit [PyFloat F] in
theorem field?_record (draft : GeofenceDraft F) :
    field? draft.record "polygon" = some draft.polygon ∧
      field? draft.record "bbox" = draft.bbox.map BBox.toJson ∧
      field? draft.record "geojson" = draft.geojson := by
  rcases draft with ⟨gid, polygon, mode, bbox, geojson, owner⟩
  unfold field? GeofenceDraft.record
  cases bbox <;> cases geojson <;> cases owner <;> exact ⟨rfl, rfl, rfl⟩

/-- The polygon of a draft is the one of the body, or the ring of its
geometry. -/
theorem draftPolygon_shape {body poly polygon : Json F} {gj : Option (Json F)}
    (hwell : WellFormed body) (hkeeps : KeepsShape none body)
    (hpoly : body.getD "polygon" .null = .ok poly)
    (hgj : bodyGeojson body = .ok gj)
    (hok : draftPolygon (poly.orElse (.arr [])) (gj.filter Json.truthy) =
      .ok polygon) (hnonempty : polygon ≠ .arr []) :
    IsPolygon polygon ∧
      ∀ geometry, gj.filter Json.truthy = some geometry →
        SameShape polygon geometry := by
  obtain rfl := bodyGeojson_eq_ok hgj
  by_cases hnull : poly = .null
  · subst hnull
    have hempty : Json.orElse (.null : Json F) (.arr []) = .arr [] := rfl
    rw [hempty] at hok
    cases hgiven : givenGeojson body with
    | none =>
        rw [hgiven] at hok
        exact absurd (Except.ok.inj hok).symm hnonempty
    | some geometry =>
        rcases hwell.geojson geometry hgiven with ⟨p, ps, hrings⟩
        have htruthy : (some geometry).filter Json.truthy = some geometry := by
          rw [Option.filter_some, if_pos (truthy_of_rings hrings)]
        rw [hgiven, htruthy] at hok
        have hpolygon : polygon = pointsToJson (p :: ps) := by
          have hdraft : draftPolygon (.arr []) (some geometry) =
              .ok (pointsToJson (p :: ps)) := by
            simp [draftPolygon, Json.truthy, hrings, Except.map]
          exact Except.ok.inj (hok.symm.trans hdraft)
        have hring : polygonOfJson polygon = .ok (p :: ps) := by
          rw [hpolygon]
          exact polygonOfJson_pointsToJson (p :: ps)
        constructor
        · exact ⟨p, ps, hring⟩
        · intro geometry' hgeometry'
          rw [htruthy] at hgeometry'
          obtain rfl := Option.some.inj hgeometry'
          exact ⟨p :: ps, [], hring, hrings⟩
  · have hfield := field?_of_getD hpoly hnull
    have hpolygon : IsPolygon poly :=
      (hwell.polygon poly hfield).resolve_left hnull
    have hsame : polygon = poly := by
      have horElse : poly.orElse (.arr []) = poly := if_pos hpolygon.truthy
      unfold draftPolygon at hok
      rw [horElse, hpolygon.truthy] at hok
      exact (Except.ok.inj hok).symm
    rw [hsame]
    constructor
    · exact hpolygon
    · intro geometry hgeometry
      apply hkeeps poly hfield hnull
      unfold geometryAfter
      rw [(Option.filter_eq_some_iff.mp hgeometry).1]
      rfl

theorem Consistent.of_draft {p : Principal} {body : Json F}
    {draft : GeofenceDraft F}
    (hok : geofenceDraft p body = .ok (.ok draft))
    (hwell : WellFormed body) (hkeeps : KeepsShape none body) :
    Consistent draft.record := by
  rcases geofenceDraft_eq_ok hok with
    ⟨poly, gj, items, hpoly, hgj, hdraft, hitems, hne, hbbox, hgeojson⟩
  have hnonempty : draft.polygon ≠ .arr [] := by
    rw [hitems]
    intro hempty
    exact hne (Json.arr.inj hempty)
  rcases draftPolygon_shape hwell hkeeps hpoly hgj hdraft hnonempty with
    ⟨⟨p, ps, hring⟩, hshape⟩
  rcases field?_record draft with ⟨hstored, hbox, hgeometry⟩
  rcases hb : polygonBBox (p :: ps) with e | b
  · cases hb
  constructor
  · refine ⟨draft.polygon, p :: ps, b, hstored, hring, hb, ?_⟩
    rw [hbox, hbbox, hring]
    simp only [bind, Except.bind, hb]
    rfl
  · intro poly' geometry hpoly' hgeometry'
    rw [hstored] at hpoly'
    obtain rfl := Option.some.inj hpoly'
    apply hshape
    rw [← hgeojson, ← hgeometry]
    exact hgeometry'

/-! ## A changed record -/

theorem Shaped.applyGeojson {cur cur' poly : Json F} {gj : Option (Json F)}
    (h : Shaped cur poly)
    (hrings : ∀ geometry, gj = some geometry →
      ∃ p ps, geojsonToRings geometry = .ok [p :: ps])
    (hok : applyGeojson gj cur = .ok cur') :
    (∃ poly', Shaped cur' poly') ∧
      field? cur' "geojson" = gj.or (field? cur "geojson") := by
  cases gj with
  | none =>
      obtain rfl := Except.ok.inj hok
      exact ⟨⟨poly, h⟩, rfl⟩
  | some geometry =>
      rcases hrings geometry rfl with ⟨p, ps, hrings⟩
      unfold BabilCors.applyGeojson at hok
      simp only [hrings, bind, Except.bind] at hok
      rcases bind_eq_ok.mp hok with ⟨polygoned, hpolygon, hgeojson⟩
      rcases field?_setItem hpolygon with ⟨hpolygon, _⟩
      rcases field?_setItem hgeojson with ⟨hgeojson, hothers⟩
      have hring := polygonOfJson_pointsToJson (p :: ps)
      refine ⟨⟨pointsToJson (p :: ps), ?_, ⟨p, ps, hring⟩, ?_⟩, hgeojson⟩
      · rw [hothers "polygon" (by decide)]
        exact hpolygon
      · intro gj hgj
        rw [hgeojson] at hgj
        obtain rfl := Option.some.inj hgj
        exact ⟨p :: ps, [], hring, hrings⟩

/-- The record with `written` under the key when a value is given. -/
def setGiven (key : String) (given written : Json F) : Updater F :=
  fun cur =>
    match given with
    | .null => .ok cur
    | _ => cur.setItem key written

def setOwner (p : Principal) (body : Json F) : Updater F :=
  fun cur => do
    if p.isAdmin && (← body.contains "owner") then
      cur.setItem "owner" (.str
        ((← body.getD "owner" .null).orElse (.str "")).pyStr)
    else
      .ok cur

theorem editFence_eq (p : Principal) (poly mode : Json F)
    (gj : Option (Json F)) (body cur : Json F) :
    editFence p poly mode gj body cur = (do
      let cur ← applyGeojson gj cur
      let cur ← setGiven "polygon" poly poly cur
      let cur ← setGiven "mode" mode (.str mode.pyStr) cur
      return refreshBBox (← setOwner p body cur)) := by
  have howner (cur : Json F) : (do
      if p.isAdmin && (← body.contains "owner") then
        let cur ← cur.setItem "owner" (.str
          ((← body.getD "owner" .null).orElse (.str "")).pyStr)
        pure (refreshBBox cur)
      else
        let cur ← Except.ok cur
        pure (refreshBBox cur)) =
      (do return refreshBBox (← setOwner p body cur)) := by
    unfold setOwner
    simp only [bind_assoc]
    congr 1
    funext given
    split_ifs <;> simp only [bind_assoc]
  unfold editFence setGiven
  congr 1
  funext a
  cases poly <;> cases mode <;> simp only [howner]

theorem Shaped.setPolygon {cur cur' poly poly' : Json F}
    (h : Shaped cur poly) (hpoly : poly' = .null ∨ IsPolygon poly')
    (hsame : poly' ≠ .null → ∀ gj, field? cur "geojson" = some gj →
      SameShape poly' gj)
    (hok : setGiven "polygon" poly' poly' cur = .ok cur') :
    ∃ poly, Shaped cur' poly := by
  by_cases hnull : poly' = .null
  · subst hnull
    obtain rfl := Except.ok.inj hok
    exact ⟨poly, h⟩
  · have hset : cur.setItem "polygon" poly' = .ok cur' := by
      cases poly' with
      | null => exact absurd rfl hnull
      | bool _ | int _ | float _ | str _ | arr _ | obj _ => exact hok
    rcases field?_setItem hset with ⟨hstored, hothers⟩
    refine ⟨poly', hstored, hpoly.resolve_left hnull, ?_⟩
    rw [hothers "geojson" (by decide)]
    exact hsame hnull

theorem Shaped.setMode {cur cur' poly mode written : Json F}
    (h : Shaped cur poly) (hok : setGiven "mode" mode written cur = .ok cur') :
    Shaped cur' poly := by
  cases mode with
  | null =>
      obtain rfl := Except.ok.inj hok
      exact h
  | bool _ | int _ | float _ | str _ | arr _ | obj _ =>
      exact h.setOther hok (by decide) (by decide)

theorem Shaped.setOwner {p : Principal} {body cur cur' poly : Json F}
    (h : Shaped cur poly) (hok : setOwner p body cur = .ok cur') :
    Shaped cur' poly := by
  unfold BabilCors.setOwner at hok
  rcases bind_eq_ok.mp hok with ⟨given, _, hok⟩
  split_ifs at hok
  · rcases bind_eq_ok.mp hok with ⟨owner, _, hok⟩
    exact h.setOther hok (by decide) (by decide)
  · obtain rfl := Except.ok.inj hok
    exact h

theorem Consistent.edited {p : Principal} {poly mode : Json F}
    {body cur cur' : Json F} (h : Consistent cur) (hwell : WellFormed body)
    (hkeeps : KeepsShape (some cur) body)
    (hpoly : body.getD "polygon" .null = .ok poly)
    (hok : editFence p poly mode (givenGeojson body) body cur = .ok cur') :
    Consistent cur' := by
  have hfield (hnull : poly ≠ .null) : field? body "polygon" = some poly :=
    field?_of_getD hpoly hnull
  have hgiven : poly = .null ∨ IsPolygon poly := by
    by_cases hnull : poly = .null
    · exact .inl hnull
    · exact hwell.polygon poly (hfield hnull)
  rw [editFence_eq] at hok
  rcases bind_eq_ok.mp hok with ⟨a, ha, hok⟩
  rcases bind_eq_ok.mp hok with ⟨b, hb, hok⟩
  rcases bind_eq_ok.mp hok with ⟨c, hc, hok⟩
  rcases bind_eq_ok.mp hok with ⟨d, hd, hok⟩
  rcases h.shaped with ⟨stored, hstored⟩
  rcases hstored.applyGeojson hwell.geojson ha with ⟨⟨_, hshaped⟩, hgeojson⟩
  have hsame : poly ≠ .null → ∀ gj, field? a "geojson" = some gj →
      SameShape poly gj := by
    intro hnull gj hgj
    apply hkeeps poly (hfield hnull) hnull gj
    rw [← hgj, hgeojson]
    rfl
  rcases hshaped.setPolygon hgiven hsame hb with ⟨_, hshaped⟩
  obtain rfl := Except.ok.inj hok
  exact ((hshaped.setMode hc).setOwner hd).refreshBBox

/-! ## What the list shows -/

/-- The box of a record with which the list filters. -/
def listedBBox (fence : Json F) : Except PyErr (Option (BBox F)) := do
  let stored : Option (BBox F) :=
    match ← fence.getD "bbox" .null with
    | .arr [minLon, minLat, maxLon, maxLat] => Except.toOption do
        return ⟨← minLon.pyFloat, ← minLat.pyFloat, ← maxLon.pyFloat,
          ← maxLat.pyFloat⟩
    | _ => none
  match stored with
  | some b => return some b
  | none =>
      let poly := (← fence.getD "polygon" .null).orElse (.arr [])
      if poly.truthy then
        return some (← polygonBBox (← polygonOfJson poly))
      else
        return none

/-- The geometry of a record in a list with `format=geojson`. -/
def featureGeometry (fence : Json F) : Except PyErr (Json F) := do
  let gj ← fence.getD "geojson" .null
  if gj.isObj then return gj
  else
    let poly := (← fence.getD "polygon" .null).orElse (.arr [])
    if poly.truthy then
      return ringsToGeojsonPolygon (← polygonOfJson poly)
    else
      return gj

/-- The list filters with the box of the enforced polygon, and shows a
geometry that encloses the same points. -/
def ShowsRegion (fence : Json F) : Prop :=
  ∃ poly ring b geometry outer rest,
    field? fence "polygon" = some poly ∧ polygonOfJson poly = .ok ring ∧
      polygonBBox ring = .ok b ∧ listedBBox fence = .ok (some b) ∧
      featureGeometry fence = .ok geometry ∧
      geojsonToRings geometry = .ok (outer :: rest) ∧
      ∀ point, pointInPolygon point outer = pointInPolygon point ring

omit [PyFloat F] in
theorem getD_of_field? {j default : Json F} {key other : String}
    {value : Json F} (hfield : field? j other = some value) :
    j.getD key default = .ok ((field? j key).getD default) := by
  cases j with
  | obj fields => rfl
  | null | bool _ | int _ | float _ | str _ | arr _ => cases hfield

theorem isObj_of_rings {gj : Json F} {ring : List (Point F)}
    {rings : List (List (Point F))}
    (hrings : geojsonToRings gj = .ok (ring :: rings)) : gj.isObj = true := by
  have horElse : gj.orElse (.obj []) = gj := if_pos (truthy_of_rings hrings)
  unfold geojsonToRings at hrings
  rw [horElse] at hrings
  cases gj with
  | obj fields => rfl
  | null | bool _ | int _ | float _ | str _ | arr _ => cases hrings

theorem Consistent.showsRegion {fence : Json F} (h : Consistent fence) :
    ShowsRegion fence := by
  rcases h.shaped with ⟨_, hshaped⟩
  rcases h.box with ⟨poly, ring, b, hstored, hring, hb, hbox⟩
  have hgetD (key : String) :
      fence.getD key .null = .ok ((field? fence key).getD .null) :=
    getD_of_field? hstored
  have hlisted : listedBBox fence = .ok (some b) := by
    unfold listedBBox
    rw [hgetD "bbox", hbox]
    rfl
  have htruthy : poly.truthy = true := by
    have hpoly := hshaped.isPolygon.truthy
    rwa [Option.some.inj (hshaped.stored.symm.trans hstored)] at hpoly
  cases hgeojson : field? fence "geojson" with
  | some gj =>
      rcases h.geojson poly gj hstored hgeojson with
        ⟨outer, rest, houter, hrings⟩
      obtain rfl := Except.ok.inj (houter.symm.trans hring)
      refine ⟨poly, outer, b, gj, outer, rest, hstored, hring, hb, hlisted,
        ?_, hrings, fun _ => rfl⟩
      unfold featureGeometry
      rw [hgetD "geojson", hgeojson]
      exact if_pos (isObj_of_rings hrings)
  | none =>
      refine ⟨poly, ring, b, ringsToGeojsonPolygon ring, closeRing ring, [],
        hstored, hring, hb, hlisted, ?_,
        geojsonToRings_ringsToGeojsonPolygon ring,
        fun point => pointInPolygon_closeRing point ring⟩
      have horElse : poly.orElse (.arr []) = poly := if_pos htruthy
      unfold featureGeometry
      rw [hgetD "geojson", hgeojson, hgetD "polygon", hstored]
      simp only [bind, Except.bind, Option.getD_some, Option.getD_none,
        Json.isObj, Bool.false_eq_true, if_false, horElse, htruthy, if_true,
        hring]
      rfl

/-! ## The stored records -/

omit [PyFloat F] in
theorem fence?_createGeofence_self {draft : GeofenceDraft F}
    {raw raw' : Json F} (hok : createGeofence draft raw = .ok raw') :
    fence? raw' draft.gid = some draft.record := by
  rcases fence?_updateGeofences hok with ⟨_, polygons', hset, _, hafter⟩
  rw [hafter]
  exact (field?_setItem hset).1

namespace NtripCaster

/-- All stored records are consistent. -/
def FencesConsistent (s : NtripCaster F) : Prop :=
  ∀ gid fence, s.storedFence? gid = some fence → Consistent fence

/-- A request to create or to change a geofence whose polygon, when it is
given, is the outer ring of the geometry that the record will have. -/
structure GivesOneShape (s : NtripCaster F) (req : AdminRequest F) :
    Prop where
  resource : req.resource? = some "geofences"
  method : req.method = "POST" ∨ req.method = "PATCH"
  wellFormed : WellFormed req.bodyJson
  keepsShape : KeepsShape (req.named?.bind s.storedFence?) req.bodyJson

theorem FencesConsistent.of_file {s s' : NtripCaster F}
    (h : s.FencesConsistent) (hfile : s'.file = s.file) :
    s'.FencesConsistent := by
  intro gid fence hfence
  apply h gid fence
  unfold storedFence? at hfence ⊢
  rw [← hfile]
  exact hfence

theorem GivesOneShape.of_file {s s' : NtripCaster F} {req : AdminRequest F}
    (h : s.GivesOneShape req) (hfile : s'.file = s.file) :
    s'.GivesOneShape req := by
  refine ⟨h.resource, h.method, h.wellFormed, ?_⟩
  have hstored : s'.storedFence? = s.storedFence? := by
    funext gid
    unfold storedFence?
    rw [hfile]
  rw [hstored]
  exact h.keepsShape

theorem FencesConsistent.updateConfig {s : NtripCaster F}
    {updater : Updater F} {diskError : Option PyErr}
    (h : s.FencesConsistent)
    (hupdater : ∀ raw raw', s.file = .ok raw → updater raw = .ok raw' →
      ∀ gid fence, fence? raw' gid = some fence →
        fence? raw gid = some fence ∨ Consistent fence) :
    (s.updateConfig updater diskError).2.FencesConsistent := by
  cases s.updateConfig_outcome updater diskError with
  | kept _ hs' =>
      rw [hs']
      exact h
  | written raw' hwrite hs' =>
      rcases write?_eq_some hwrite with ⟨raw, hfile, hupdated, -⟩
      have hfile' := (reloadFromDisk_keeps
        { s with file := .ok raw' }).1.file
      rw [← hs'] at hfile'
      intro gid fence hfence
      rw [storedFence?_of_file hfile'] at hfence
      rcases hupdater raw raw' hfile hupdated gid fence hfence with
        hkept | hconsistent
      · exact h gid fence ((storedFence?_of_file hfile gid).trans hkept)
      · exact hconsistent

theorem FencesConsistent.create {s : NtripCaster F} {p : Principal}
    {body : Json F} {draft : GeofenceDraft F} {diskError : Option PyErr}
    (h : s.FencesConsistent) (hdraft : geofenceDraft p body = .ok (.ok draft))
    (hwell : WellFormed body) (hkeeps : KeepsShape none body) :
    (s.updateConfig (createGeofence draft) diskError).2.FencesConsistent := by
  apply h.updateConfig
  intro raw raw' _ hupdated gid fence hfence
  by_cases hgid : draft.gid = gid
  · subst hgid
    rw [fence?_createGeofence_self hupdated] at hfence
    obtain rfl := Option.some.inj hfence
    exact .inr (.of_draft hdraft hwell hkeeps)
  · rw [fence?_createGeofence hupdated hgid] at hfence
    exact .inl hfence

theorem FencesConsistent.patch {s : NtripCaster F} {p : Principal}
    {ident : String} {poly mode body : Json F} {diskError : Option PyErr}
    (h : s.FencesConsistent) (hwell : WellFormed body)
    (hkeeps : KeepsShape (s.storedFence? ident) body)
    (hpoly : body.getD "polygon" .null = .ok poly) :
    (s.updateConfig (patchGeofence p ident poly mode (givenGeojson body) body)
      diskError).2.FencesConsistent := by
  apply h.updateConfig
  intro raw raw' hfile hupdated gid fence hfence
  rcases patchGeofence_eq_ok hupdated with
    ⟨cur, _, edited, hcur, _, hedited, hself, hothers⟩
  by_cases hgid : gid = ident
  · subst hgid
    rw [hself] at hfence
    obtain rfl := Option.some.inj hfence
    have hstored := (storedFence?_of_file hfile gid).trans hcur
    rw [hstored] at hkeeps
    exact .inr ((h gid cur hstored).edited hwell hkeeps hpoly hedited)
  · rw [hothers gid hgid] at hfence
    exact .inl hfence

theorem FencesConsistent.call {s : NtripCaster F} {p : Principal}
    {req : AdminRequest F} {call : UpdateCall F} {diskError : Option PyErr}
    (h : s.FencesConsistent) (hshape : s.GivesOneShape req)
    (hcall : geofencesCall? p req req.bodyJson = some call) :
    (s.updateConfig call.updater diskError).2.FencesConsistent := by
  have hkeeps := hshape.keepsShape
  unfold geofencesCall? at hcall
  split at hcall
  · cases hcall
  split at hcall
  · cases hcall
  cases hnamed : req.named? with
  | none =>
      simp only [hnamed] at hcall
      rw [hnamed] at hkeeps
      split at hcall
      · split at hcall
        next draft hdraft =>
          obtain rfl := Option.some.inj hcall
          exact h.create hdraft hshape.wellFormed hkeeps
        next => cases hcall
      · cases hcall
  | some ident =>
      simp only [hnamed] at hcall
      rw [hnamed] at hkeeps
      by_cases hpatch : req.method = "PATCH"
      · rw [if_pos hpatch] at hcall
        unfold patchGeofenceCall? at hcall
        split at hcall
        · cases hcall
        next poly mode gj hpoly hmode hgj =>
          obtain rfl := Option.some.inj hcall
          rw [bodyGeojson_eq_ok hgj]
          exact h.patch hshape.wellFormed hkeeps hpoly
        · cases hcall
      · have hpost : req.method = "POST" :=
          hshape.method.resolve_right hpatch
        rw [hpost] at hcall
        simp at hcall

section Requests

variable [JwtLib F] [Crypto] [SchemaLib F]

theorem FencesConsistent.dispatch {s : NtripCaster F} {b : Bearer F}
    {req : AdminRequest F} {m : Moment} (h : s.FencesConsistent)
    (hshape : s.GivesOneShape req) :
    (s.dispatch b req m).server.FencesConsistent := by
  rcases dispatch_eq_geofences (s := s) (b := b) (m := m) hshape.resource with
    ⟨hdispatch, hoperation⟩
  rw [hdispatch]
  have hfollows := s.geofences_follows b.principal req req.bodyJson m
  generalize hcall : geofencesCall? b.principal req req.bodyJson = call?
    at hfollows
  generalize s.geofences b.principal req req.bodyJson m = o? at hfollows
  cases hfollows with
  | calls call =>
      rw [Option.getD_some, answerUpdate_server]
      exact h.call hshape hcall
  | idle hkept =>
      cases o? with
      | none => exact h.of_file hoperation
      | some o =>
          rw [Option.getD_some, hkept o rfl]
          exact h

theorem handleAdmin_consistent {s : NtripCaster F} {req : AdminRequest F}
    {m : Moment} (h : s.FencesConsistent) (hshape : s.GivesOneShape req) :
    (s.handleAdmin req m).server.FencesConsistent := by
  cases s.handleAdmin_gate req m with
  | filtered buckets reply _ ho =>
      rw [ho]
      exact h.of_file rfl
  | unauthenticated buckets s' hauth ho =>
      have hsame := (s.withBuckets buckets).authenticate_same req m
      rw [hauth] at hsame
      rw [ho]
      exact h.of_file hsame.file
  | authenticated buckets b s' hauth ho =>
      have hsame := (s.withBuckets buckets).authenticate_same req m
      rw [hauth] at hsame
      have hfile : s'.file = s.file := hsame.file
      rcases ho with ho | ho
      · rw [ho]
        exact h.of_file hfile
      · rw [ho]
        exact (h.of_file hfile).dispatch (hshape.of_file hfile)

/-- From no geofences on, when every request gives one shape, the three
representations of each stored record agree, and so do the lists. -/
theorem run_consistent {s s' : NtripCaster F}
    {events : List (AdminRequest F × Moment)}
    (hempty : ∀ gid, s.storedFence? gid = none)
    (hmeets : StepsMeet adminStep (fun s event => s.GivesOneShape event.1) s
      events) (hrun : run adminStep s events = some s') :
    ∀ gid fence, s'.storedFence? gid = some fence →
      Consistent fence ∧ ShowsRegion fence := by
  have hstart : s.FencesConsistent := by
    intro gid fence hfence
    rw [hempty gid] at hfence
    cases hfence
  have hconsistent : s'.FencesConsistent := by
    refine StepsMeet.run_preserves ?_ hstart hmeets hrun
    intro state event next h hshape hstep
    obtain rfl := Option.some.inj hstep
    exact handleAdmin_consistent h hshape
  intro gid fence hfence
  have h := hconsistent gid fence hfence
  exact ⟨h, h.showsRegion⟩

end Requests

end NtripCaster

/-! ## Two triangles -/

def southRing : List (Point ℚ) :=
  [(37, 32), (38, 32), (38, 33), (37, 32)]

def northRing : List (Point ℚ) :=
  [(40, 32), (41, 32), (41, 33), (40, 32)]

def postFence (fields : PyDict String (Json ℚ)) : AdminRequest ℚ :=
  adminRequest "POST" "/admin/geofences" (.obj (("id", .str "A1") :: fields))

def southGeojson : String × Json ℚ :=
  ("geojson", ringsToGeojsonPolygon southRing)

namespace NtripCaster

def afterFence (s : NtripCaster ℚ) (req : AdminRequest ℚ) : Outcome ℚ :=
  @handleAdmin ℚ _ noDigest adminJwt anyBody s req firstMoment

omit [PyFloat F] in
theorem smallServer_noFence (gid : String) :
    (smallServer (.obj [])).storedFence? gid = none := rfl

theorem southGeojson_rings :
    geojsonToRings southGeojson.2 = .ok [southRing] := by
  have hrings := geojsonToRings_ringsToGeojsonPolygon southRing
  have hclosed : closeRing southRing = southRing := by
    decide +kernel
  rwa [hclosed] at hrings

def bothShapes : AdminRequest ℚ :=
  postFence [("polygon", pointsToJson southRing), southGeojson]

theorem bothShapes_givesOneShape :
    (smallServer (.obj [])).GivesOneShape bothShapes := by
  have hbody : bothShapes.bodyJson = .obj [("id", .str "A1"),
      ("polygon", pointsToJson southRing), southGeojson] :=
    bearerRequest_bodyJson _ _ (.inl rfl)
  have hring := polygonOfJson_pointsToJson southRing
  have hshape : SameShape (pointsToJson southRing) southGeojson.2 :=
    ⟨southRing, [], hring, southGeojson_rings⟩
  have hnamed : bothShapes.named? = none := by
    decide +kernel
  refine ⟨by decide +kernel, .inl rfl, ⟨?_, ?_⟩, ?_⟩
  · rw [hbody]
    rintro poly ⟨⟩
    exact .inr ⟨_, _, hring⟩
  · rw [hbody]
    rintro gj ⟨⟩
    exact ⟨_, _, southGeojson_rings⟩
  · rw [hbody, hnamed]
    rintro poly ⟨⟩ _ gj ⟨⟩
    exact hshape

theorem run_consistent_bothShapes :
    ∃ fence, (afterFence (smallServer (.obj []))
        bothShapes).server.storedFence? "A1" = some fence ∧
      Consistent fence ∧ ShowsRegion fence := by
  have hstored : ((afterFence (smallServer (.obj []))
      bothShapes).server.storedFence? "A1").isSome = true := by
    decide +kernel
  rcases Option.isSome_iff_exists.mp hstored with ⟨fence, hfence⟩
  refine ⟨fence, hfence, ?_⟩
  exact @run_consistent ℚ _ adminJwt noDigest anyBody (smallServer (.obj []))
    _ [(bothShapes, firstMoment)] smallServer_noFence
    ⟨bothShapes_givesOneShape, fun _ _ => trivial⟩ rfl "A1" fence hfence

def southShape : AdminRequest ℚ :=
  postFence [southGeojson]

def movedNorth : AdminRequest ℚ :=
  adminRequest "PATCH" "/admin/geofences/A1"
    (.obj [("polygon", pointsToJson northRing)])

def movedServer : Outcome ℚ :=
  afterFence (afterFence (smallServer (.obj [])) southShape).server movedNorth

theorem southShape_wellFormed : WellFormed southShape.bodyJson := by
  have hbody : southShape.bodyJson = .obj [("id", .str "A1"), southGeojson] :=
    bearerRequest_bodyJson _ _ (.inl rfl)
  rw [hbody]
  constructor
  · rintro poly ⟨⟩
  · rintro gj ⟨⟩
    exact ⟨_, _, southGeojson_rings⟩

theorem movedNorth_wellFormed : WellFormed movedNorth.bodyJson := by
  have hbody : movedNorth.bodyJson =
      .obj [("polygon", pointsToJson northRing)] :=
    bearerRequest_bodyJson _ _ (.inr rfl)
  rw [hbody]
  constructor
  · rintro poly ⟨⟩
    exact .inr ⟨_, _, polygonOfJson_pointsToJson northRing⟩
  · rintro gj ⟨⟩

/-- A fence is created with a geometry and then given another polygon: the
geometry stays. -/
theorem patched_polygon_keeps_geojson :
    (∀ gid, (smallServer (.obj [])).storedFence? gid = none) ∧
      WellFormed southShape.bodyJson ∧ WellFormed movedNorth.bodyJson ∧
      (afterFence (smallServer (.obj [])) southShape).isSuccess = true ∧
      movedServer.isSuccess = true ∧
      ∃ fence, movedServer.server.storedFence? "A1" = some fence ∧
        ¬ Consistent fence := by
  refine ⟨smallServer_noFence, southShape_wellFormed, movedNorth_wellFormed,
    by decide +kernel, by decide +kernel, ?_⟩
  have hpolygon : ((movedServer.server.storedFence? "A1").bind fun fence =>
      (field? fence "polygon").bind fun poly =>
        (polygonOfJson poly).toOption) = some northRing := by
    decide +kernel
  have hgeojson : ((movedServer.server.storedFence? "A1").bind fun fence =>
      (field? fence "geojson").bind fun gj =>
        (geojsonToRings gj).toOption) = some [southRing] := by
    decide +kernel
  rcases Option.bind_eq_some_iff.mp hpolygon with ⟨fence, hfence, hpolygon⟩
  rw [hfence, Option.bind_some] at hgeojson
  rcases Option.bind_eq_some_iff.mp hpolygon with ⟨poly, hpoly, hring⟩
  rcases Option.bind_eq_some_iff.mp hgeojson with ⟨gj, hgj, hrings⟩
  refine ⟨fence, hfence, ?_⟩
  intro hconsistent
  rcases hconsistent.geojson poly gj hpoly hgj with
    ⟨ring, rest, hring', hrings'⟩
  rw [toOption_eq_some.mp hring] at hring'
  rw [toOption_eq_some.mp hrings] at hrings'
  obtain rfl := Except.ok.inj hring'
  have hsame : southRing = northRing :=
    (List.cons.inj (Except.ok.inj hrings')).1
  exact absurd hsame (by decide +kernel)

end NtripCaster

end BabilCors
