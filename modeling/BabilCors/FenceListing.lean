import BabilCors.EvenOddRule
import BabilCors.FenceConsistency
import BabilCors.ValidatedStart

/-!
# The list of fences

`GET /admin/geofences` with its filters: an editor sees the fences that are
his, and a box in the query keeps the fences whose boxes meet it.  A fence lies
within its box, so no fence that has a point in the query box is left out.
-/

namespace BabilCors

open CyclicPairs EvenOdd Py

/-! ## A fence lies within its box -/

/-- The point is in the box. -/
structure BBox.Contains (b : BBox ℚ) (point : Point ℚ) : Prop where
  lon : b.minLon ≤ point.2 ∧ point.2 ≤ b.maxLon
  lat : b.minLat ≤ point.1 ∧ point.1 ≤ b.maxLat

theorem contains_vertex {ring : List (Point ℚ)} {b : BBox ℚ}
    (hb : polygonBBox ring = .ok b) {vertex : Point ℚ}
    (hvertex : vertex ∈ ring) : b.Contains vertex := by
  obtain ⟨hminLon, hminLat, hmaxLon, hmaxLat⟩ := polygonBBox_iff.mp hb
  have hlon := List.mem_map_of_mem (f := Prod.snd) hvertex
  have hlat := List.mem_map_of_mem (f := Prod.fst) hvertex
  exact
    { lon := ⟨(List.min?_eq_some_iff.mp hminLon).2 _ hlon,
        (List.max?_eq_some_iff.mp hmaxLon).2 _ hlon⟩
      lat := ⟨(List.min?_eq_some_iff.mp hminLat).2 _ hlat,
        (List.max?_eq_some_iff.mp hmaxLat).2 _ hlat⟩ }

theorem mem_of_mem_pairsFrom {α : Type*} {previous : α} {walk : List α}
    {e : α × α} (he : e ∈ pairsFrom previous walk) :
    e.1 ∈ walk ∧ (e.2 = previous ∨ e.2 ∈ walk) := by
  induction walk generalizing previous with
  | nil => cases he
  | cons x walk ih =>
      rcases List.mem_cons.mp he with rfl | hrest
      · exact ⟨List.mem_cons_self, .inl rfl⟩
      · obtain ⟨hfirst, hsecond⟩ := ih hrest
        refine ⟨List.mem_cons_of_mem _ hfirst, .inr ?_⟩
        rcases hsecond with rfl | hmem
        · exact List.mem_cons_self
        · exact List.mem_cons_of_mem _ hmem

theorem mem_of_mem_cyclicPairs {α : Type*} {walk : List α} {e : α × α}
    (he : e ∈ cyclicPairs walk) : e.1 ∈ walk ∧ e.2 ∈ walk := by
  unfold cyclicPairs at he
  cases hlast : walk.getLast? with
  | none =>
      rw [hlast] at he
      cases he
  | some last =>
      rw [hlast] at he
      obtain ⟨hfirst, hsecond⟩ := mem_of_mem_pairsFrom he
      refine ⟨hfirst, ?_⟩
      rcases hsecond with heq | hmem
      · rw [heq]
        exact List.mem_of_getLast? hlast
      · exact hmem

namespace EvenOdd.Edge

/-- The longitude lies between those of the ends. -/
theorem lon_between {e : Edge} {lon : ℚ} (hstraddles : e.straddles lon) :
    e.1.2 ≤ lon ∧ lon < e.2.2 ∨ e.2.2 ≤ lon ∧ lon < e.1.2 := by
  unfold straddles at hstraddles
  by_cases hi : lon < e.1.2
  · have hj : e.2.2 ≤ lon := by
      simpa [hi] using hstraddles
    exact .inr ⟨hj, hi⟩
  · have hj : lon < e.2.2 := by
      simpa [hi] using hstraddles
    exact .inl ⟨not_lt.mp hi, hj⟩

/-- The crossing lies between the ends. -/
theorem crossingLat_between {e : Edge} {lon : ℚ}
    (hstraddles : e.straddles lon) {lower upper : ℚ}
    (hlower : lower ≤ e.1.1 ∧ lower ≤ e.2.1)
    (hupper : e.1.1 ≤ upper ∧ e.2.1 ≤ upper) :
    lower ≤ e.crossingLat lon ∧ e.crossingLat lon ≤ upper := by
  -- the part of the way from the first end to the second
  obtain ⟨t, hzero, hone, hlat⟩ : ∃ t : ℚ, 0 ≤ t ∧ t ≤ 1 ∧
      e.crossingLat lon = (1 - t) * e.1.1 + t * e.2.1 := by
    refine ⟨(lon - e.1.2) / e.width, ?_, ?_, ?_⟩
    · unfold width
      rcases lon_between hstraddles with ⟨hi, hj⟩ | ⟨hj, hi⟩
      · exact div_nonneg (by linarith) (by linarith)
      · exact div_nonneg_of_nonpos (by linarith) (by linarith)
    · unfold width
      rcases lon_between hstraddles with ⟨hi, hj⟩ | ⟨hj, hi⟩
      · rw [div_le_one (by linarith)]
        linarith
      · rw [div_le_one_of_neg (by linarith)]
        linarith
    · unfold crossingLat height
      ring
  obtain ⟨hlower, hlower'⟩ := hlower
  obtain ⟨hupper, hupper'⟩ := hupper
  rw [hlat]
  constructor
  · nlinarith only [hlower, hlower', hzero, hone]
  · nlinarith only [hupper, hupper', hzero, hone]

end EvenOdd.Edge

/-- South of the fence every edge of the longitude is crossed, and these are
even in number. -/
theorem contains_of_inside {ring : List (Point ℚ)} {b : BBox ℚ}
    (hb : polygonBBox ring = .ok b) {point : Point ℚ}
    (hinside : Inside point ring) : b.Contains point := by
  have hends {e : Edge} (he : e ∈ cyclicPairs ring) :
      b.Contains e.1 ∧ b.Contains e.2 := by
    obtain ⟨hfirst, hsecond⟩ := mem_of_mem_cyclicPairs he
    exact ⟨contains_vertex hb hfirst, contains_vertex hb hsecond⟩
  have hbetween {e : Edge} (he : e ∈ cyclicPairs ring)
      (hstraddles : e.straddles point.2) :
      b.minLat ≤ e.crossingLat point.2 ∧
        e.crossingLat point.2 ≤ b.maxLat := by
    obtain ⟨hfirst, hsecond⟩ := hends he
    exact Edge.crossingLat_between hstraddles
      ⟨hfirst.lat.1, hsecond.lat.1⟩ ⟨hfirst.lat.2, hsecond.lat.2⟩
  obtain ⟨e, he, hcrossed⟩ := List.countP_pos_iff.mp hinside.pos
  obtain ⟨hstraddles, hbelow⟩ := Bool.and_eq_true_iff.mp hcrossed
  obtain ⟨hfirst, hsecond⟩ := hends he
  refine ⟨?_, ?_, ?_⟩
  · rcases Edge.lon_between hstraddles with ⟨hi, hj⟩ | ⟨hj, hi⟩
    · exact ⟨hfirst.lon.1.trans hi, hj.le.trans hsecond.lon.2⟩
    · exact ⟨hsecond.lon.1.trans hj, hi.le.trans hfirst.lon.2⟩
  · by_contra hsouth
    have hall : (cyclicPairs ring).countP (Edge.crossed point) =
        (cyclicPairs ring).countP fun e =>
          decide (point.2 < e.1.2) != decide (point.2 < e.2.2) := by
      apply List.countP_congr
      intro e he
      unfold Edge.crossed
      rw [Bool.and_eq_true]
      constructor
      · exact fun h => h.1
      · intro h
        refine ⟨h, decide_eq_true ?_⟩
        have hlow := (hbetween he h).1
        linarith
    have heven := even_countP_cyclicPairs
      (fun v : Point ℚ => decide (point.2 < v.2)) ring
    unfold Inside at hinside
    rw [hall] at hinside
    exact (Nat.not_odd_iff_even.mpr heven) hinside
  · exact (of_decide_eq_true hbelow).le.trans (hbetween he hstraddles).2

/-! ## The request -/

section Listing

variable {F : Type} [PyFloat F]

def bboxIntersects (a b : BBox F) : Bool :=
  !(PyFloat.lt a.maxLon b.minLon || PyFloat.lt b.maxLon a.minLon ||
    PyFloat.lt a.maxLat b.minLat || PyFloat.lt b.maxLat a.minLat)

/-- The box of the query; one that does not parse counts as none. -/
def queryBBox (query : PyDict String String) : Option (BBox F) :=
  let text := (query.get? "bbox").getD ""
  if text = "" then none
  else
    match (split ',' text).map strip with
    | [minLon, minLat, maxLon, maxLat] => do
        return ⟨← PyFloat.ofString? minLon, ← PyFloat.ofString? minLat,
          ← PyFloat.ofString? maxLon, ← PyFloat.ofString? maxLat⟩
    | _ => none

omit [PyFloat F] in
/-- `j.items()`. -/
def itemsOf (j : Json F) : Except PyErr (PyDict String (Json F)) :=
  match j with
  | .obj fields => .ok fields
  | j => .error (.attributeError j.typeName "items")

/-- `str((g or {}).get("owner") or "")`. -/
def listedOwner (fence : Json F) : Except PyErr String := do
  let owner ← (fence.orElse (.obj [])).getD "owner" .null
  return (owner.orElse (.str "")).pyStr

def isOwn (p : Principal) (entry : String × Json F) : Except PyErr Bool :=
  (listedOwner entry.2).map fun owner => owner = p.subUser

def ownFences (p : Principal) (out : Json F) : Except PyErr (Json F) :=
  if p.isEditor && !p.isAdmin then do
    return .obj (← (← itemsOf out).filterM (isOwn p))
  else
    .ok out

def isInBox (qb : BBox F) (entry : String × Json F) : Except PyErr Bool :=
  (listedBBox entry.2).map fun bb? => bb?.any fun bb => bboxIntersects bb qb

def fencesInBox (box? : Option (BBox F)) (out : Json F) :
    Except PyErr (Json F) :=
  match box? with
  | none => .ok out
  | some qb => do return .obj (← (← itemsOf out).filterM (isInBox qb))

omit [PyFloat F] in
def featureOf (gid : String) (mode geometry : Json F) : Json F :=
  .obj [("type", .str "Feature"),
    ("properties", .obj [("id", .str gid), ("mode", mode)]),
    ("geometry", geometry)]

def fenceFeature (entry : String × Json F) : Except PyErr (Json F) := do
  let geometry ← featureGeometry entry.2
  let mode ← entry.2.getD "mode" .null
  return featureOf entry.1 mode geometry

/-- The body of the answer; `polygons` is the dictionary of the server. -/
def fenceList (polygons : Json F) (p : Principal)
    (query : PyDict String String) : Except PyErr (Json F) := do
  let out ← ownFences p (polygons.orElse (.obj []))
  let out ← fencesInBox (queryBBox query) out
  if query.get? "format" = some "geojson" then
    let feats ← (← itemsOf out).mapM fenceFeature
    return .obj [("type", .str "FeatureCollection"),
      ("features", .arr feats)]
  else
    return .obj [("geofences", out)]

end Listing

/-! ## What is listed -/

/-- The fences are shown to all but editors, and to an editor his own. -/
def Principal.Sees (p : Principal) (fence : Json ℚ) : Prop :=
  p.isEditor = true → p.isAdmin = false → ownerOf fence = p.subUser

instance (p : Principal) (fence : Json ℚ) : Decidable (p.Sees fence) :=
  inferInstanceAs (Decidable (_ → _ → _))

theorem bboxIntersects_iff {a b : BBox ℚ} :
    bboxIntersects a b = true ↔
      b.minLon ≤ a.maxLon ∧ a.minLon ≤ b.maxLon ∧
        b.minLat ≤ a.maxLat ∧ a.minLat ≤ b.maxLat := by
  unfold bboxIntersects
  change (!(decide (a.maxLon < b.minLon) || decide (b.maxLon < a.minLon) ||
    decide (a.maxLat < b.minLat) || decide (b.maxLat < a.minLat))) = true ↔ _
  simp only [Bool.not_eq_true', Bool.or_eq_false_iff, decide_eq_false_iff_not,
    not_lt]
  tauto

/-- Boxes that share a point intersect. -/
theorem BBox.Contains.intersects {a b : BBox ℚ} {point : Point ℚ}
    (ha : a.Contains point) (hb : b.Contains point) :
    bboxIntersects a b = true :=
  bboxIntersects_iff.mpr ⟨hb.lon.1.trans ha.lon.2, ha.lon.1.trans hb.lon.2,
    hb.lat.1.trans ha.lat.2, ha.lat.1.trans hb.lat.2⟩

def HasRing (fence : Json ℚ) (ring : List (Point ℚ)) : Prop :=
  ∃ poly, field? fence "polygon" = some poly ∧ polygonOfJson poly = .ok ring

/-- The box of the fence and that of the query meet. -/
def Overlaps (fence : Json ℚ) (qb : BBox ℚ) : Prop :=
  ∃ ring b, HasRing fence ring ∧ polygonBBox ring = .ok b ∧
    bboxIntersects b qb = true

/-- The feature has the id of the fence and a geometry that encloses the same
points. -/
def ShowsFence (entry : String × Json ℚ) (feature : Json ℚ) : Prop :=
  ∃ ring mode geometry outer rest, HasRing entry.2 ring ∧
    feature = featureOf entry.1 mode geometry ∧
    geojsonToRings geometry = .ok (outer :: rest) ∧
    ∀ point, pointInPolygon point outer = pointInPolygon point ring

theorem filterM_ok {α : Type} {f : α → Except PyErr Bool} {g : α → Bool}
    {l : List α} (hok : ∀ a ∈ l, f a = .ok (g a)) :
    l.filterM f = .ok (l.filter g) := by
  have haux (acc : List α) :
      l.filterAuxM f acc = .ok ((l.filter g).reverse ++ acc) := by
    induction l generalizing acc with
    | nil => rfl
    | cons a l ih =>
        obtain ⟨ha, hrest⟩ := List.forall_mem_cons.mp hok
        rw [List.filterAuxM, ha]
        change l.filterAuxM f (bif g a then a :: acc else acc) = _
        rw [ih hrest]
        cases ha : g a with
        | true => simp [ha]
        | false => simp [ha]
  unfold List.filterM
  rw [haux, List.append_nil]
  change Except.ok (l.filter g).reverse.reverse = _
  rw [List.reverse_reverse]

/-- What a consistent record is, as the list reads it. -/
theorem Consistent.listed {fence : Json ℚ} (h : Consistent fence) :
    listedOwner fence = .ok (ownerOf fence) ∧
      ∃ ring b, HasRing fence ring ∧ polygonBBox ring = .ok b ∧
        listedBBox fence = .ok (some b) := by
  obtain ⟨poly, ring, b, geometry, outer, rest, hpoly, hring, hb, hlisted,
    -⟩ := h.showsRegion
  refine ⟨?_, ring, b, ⟨poly, hpoly, hring⟩, hb, hlisted⟩
  cases fence with
  | obj fields =>
      cases fields with
      | nil => cases hpoly
      | cons field fields => rfl
  | null | bool _ | int _ | float _ | str _ | arr _ => cases hpoly

theorem HasRing.unique {fence : Json ℚ} {ring ring' : List (Point ℚ)}
    (h : HasRing fence ring) (h' : HasRing fence ring') : ring' = ring := by
  obtain ⟨poly, hpoly, hring⟩ := h
  obtain ⟨poly', hpoly', hring'⟩ := h'
  obtain rfl := Option.some.inj (hpoly.symm.trans hpoly')
  exact Except.ok.inj (hring'.symm.trans hring)

/-- The two filters on the record of a fence. -/
def boxMeets (box? : Option (BBox ℚ)) (fence : Json ℚ) : Bool :=
  box?.all fun qb => (listedBBox fence).toOption.join.any fun bb =>
    bboxIntersects bb qb

theorem ownFences_ok {fences : PyDict String (Json ℚ)}
    (hconsistent : ∀ entry ∈ fences, Consistent entry.2) (p : Principal) :
    ownFences p (.obj fences) =
      .ok (.obj (fences.filter fun entry => p.Sees entry.2)) := by
  unfold ownFences
  split_ifs with hown
  · have hok : ∀ entry ∈ fences,
        isOwn p entry = .ok (decide (p.Sees entry.2)) := by
      intro entry hentry
      rw [isOwn, (hconsistent entry hentry).listed.1]
      simp only [Bool.and_eq_true, Bool.not_eq_true'] at hown
      change Except.ok _ = _
      congr 1
      rw [decide_eq_decide]
      exact ⟨fun h _ _ => h, fun h => h hown.1 hown.2⟩
    change (do return Json.obj (← fences.filterM (isOwn p))) = _
    rw [filterM_ok hok]
    rfl
  · have hall : fences.filter (fun entry => p.Sees entry.2) = fences := by
      rw [List.filter_eq_self]
      intro entry _
      apply decide_eq_true
      intro heditor hadmin
      exact absurd (by simp [heditor, hadmin]) hown
    rw [hall]

theorem fencesInBox_ok {fences : PyDict String (Json ℚ)}
    (hconsistent : ∀ entry ∈ fences, Consistent entry.2)
    (box? : Option (BBox ℚ)) :
    fencesInBox box? (.obj fences) =
      .ok (.obj (fences.filter fun entry => boxMeets box? entry.2)) := by
  cases box? with
  | none =>
      have hall : fences.filter (fun entry => boxMeets none entry.2) =
          fences := by
        rw [List.filter_eq_self]
        exact fun _ _ => rfl
      rw [hall]
      rfl
  | some qb =>
      have hok : ∀ entry ∈ fences,
          isInBox qb entry = .ok (boxMeets (some qb) entry.2) := by
        intro entry hentry
        obtain ⟨-, ring, b, -, -, hlisted⟩ := (hconsistent entry hentry).listed
        unfold isInBox boxMeets
        rw [hlisted]
        rfl
      change (do return Json.obj (← fences.filterM (isInBox qb))) = _
      rw [filterM_ok hok]
      rfl

theorem boxMeets_iff {fence : Json ℚ} (h : Consistent fence)
    (box? : Option (BBox ℚ)) :
    boxMeets box? fence = true ↔ ∀ qb ∈ box?, Overlaps fence qb := by
  obtain ⟨-, ring, b, hring, hb, hlisted⟩ := h.listed
  cases box? with
  | none => simp [boxMeets]
  | some qb =>
      have hmeets : boxMeets (some qb) fence = bboxIntersects b qb := by
        unfold boxMeets
        rw [hlisted]
        rfl
      rw [hmeets]
      constructor
      · intro hintersects other hother
        obtain rfl := Option.mem_some_iff.mp hother
        exact ⟨ring, b, hring, hb, hintersects⟩
      · intro hall
        obtain ⟨ring', b', hring', hb', hintersects⟩ := hall qb rfl
        obtain rfl := hring.unique hring'
        obtain rfl := Except.ok.inj (hb'.symm.trans hb)
        exact hintersects

theorem fenceFeature_ok {entry : String × Json ℚ} (h : Consistent entry.2) :
    ∃ feature, fenceFeature entry = .ok feature ∧
      ShowsFence entry feature := by
  obtain ⟨poly, ring, b, geometry, outer, rest, hpoly, hring, -, -, hgeometry,
    hrings, hsame⟩ := h.showsRegion
  have hmode : entry.2.getD "mode" .null =
      .ok ((field? entry.2 "mode").getD .null) := getD_of_field? hpoly
  refine ⟨featureOf entry.1 ((field? entry.2 "mode").getD .null) geometry,
    ?_, ring, _, geometry, outer, rest, ⟨poly, hpoly, hring⟩, rfl, hrings,
    hsame⟩
  unfold fenceFeature
  rw [hgeometry, hmode]
  rfl

theorem mapM_fenceFeature {listed : List (String × Json ℚ)}
    (hconsistent : ∀ entry ∈ listed, Consistent entry.2) :
    ∃ feats, listed.mapM fenceFeature = .ok feats ∧
      List.Forall₂ ShowsFence listed feats := by
  obtain ⟨feats, hfeats⟩ := exists_mapM_ok_iff.mpr fun entry hentry =>
    (fenceFeature_ok (hconsistent entry hentry)).imp fun _ h => h.1
  refine ⟨feats, hfeats, ?_⟩
  have hpairs := forall₂_of_mapM_ok hfeats
  clear hfeats
  induction hpairs with
  | nil => exact .nil
  | cons hfirst _ ih =>
      obtain ⟨hconsistent', hrest⟩ := List.forall_mem_cons.mp hconsistent
      obtain ⟨feature, hfeature, hshows⟩ := fenceFeature_ok hconsistent'
      obtain rfl := Except.ok.inj (hfirst.symm.trans hfeature)
      exact .cons hshows (ih hrest)

/-- The answer has the fences that the caller sees and whose boxes meet the
one of the query.  A fence with a point in the box of the query is among
them. -/
theorem fenceList_exact {fences : PyDict String (Json ℚ)}
    (hconsistent : ∀ entry ∈ fences, Consistent entry.2) (p : Principal)
    (query : PyDict String String) :
    ∃ listed : PyDict String (Json ℚ),
      (if query.get? "format" = some "geojson" then
        ∃ feats, List.Forall₂ ShowsFence listed feats ∧
          fenceList (.obj fences) p query =
            .ok (.obj [("type", .str "FeatureCollection"),
              ("features", .arr feats)])
      else
        fenceList (.obj fences) p query =
          .ok (.obj [("geofences", .obj listed)])) ∧
      (∀ gid fence, (gid, fence) ∈ listed ↔
        (gid, fence) ∈ fences ∧ p.Sees fence ∧
          ∀ qb ∈ queryBBox query, Overlaps fence qb) ∧
      ∀ gid fence ring point, (gid, fence) ∈ fences → p.Sees fence →
        HasRing fence ring → Inside point ring →
        (∀ qb ∈ queryBBox query, BBox.Contains qb point) →
          (gid, fence) ∈ listed := by
  have horElse : (Json.obj fences).orElse (.obj []) = .obj fences := by
    cases fences with
    | nil => rfl
    | cons entry fences => rfl
  have hseen : ∀ entry ∈ fences.filter fun entry => p.Sees entry.2,
      Consistent entry.2 :=
    fun entry hentry => hconsistent entry (List.mem_filter.mp hentry).1
  have hmem (gid : String) (fence : Json ℚ) :
      (gid, fence) ∈ (fences.filter fun entry => p.Sees entry.2).filter
          (fun entry => boxMeets (queryBBox query) entry.2) ↔
        (gid, fence) ∈ fences ∧ p.Sees fence ∧
          ∀ qb ∈ queryBBox query, Overlaps fence qb := by
    rw [List.mem_filter, List.mem_filter, decide_eq_true_iff, and_assoc]
    constructor
    · rintro ⟨hfence, hsees, hmeets⟩
      exact ⟨hfence, hsees,
        (boxMeets_iff (hconsistent _ hfence) _).mp hmeets⟩
    · rintro ⟨hfence, hsees, hmeets⟩
      exact ⟨hfence, hsees,
        (boxMeets_iff (hconsistent _ hfence) _).mpr hmeets⟩
  refine ⟨_, ?_, hmem, ?_⟩
  · split_ifs with hformat
    · have hlisted : ∀ entry ∈ (fences.filter fun entry =>
          p.Sees entry.2).filter (fun entry =>
            boxMeets (queryBBox query) entry.2), Consistent entry.2 :=
        fun entry hentry => hseen entry (List.mem_filter.mp hentry).1
      obtain ⟨feats, hfeats, hshows⟩ := mapM_fenceFeature hlisted
      refine ⟨feats, hshows, ?_⟩
      unfold fenceList
      rw [horElse, ownFences_ok hconsistent]
      change (fencesInBox _ (.obj _) >>= _) = _
      rw [fencesInBox_ok hseen]
      change (if _ then _ else _) = _
      rw [if_pos hformat]
      change ((List.mapM fenceFeature _) >>= _) = _
      rw [hfeats]
      rfl
    · unfold fenceList
      rw [horElse, ownFences_ok hconsistent]
      change (fencesInBox _ (.obj _) >>= _) = _
      rw [fencesInBox_ok hseen]
      change (if _ then _ else _) = _
      rw [if_neg hformat]
      rfl
  · intro gid fence ring point hfence hsees hring hinside hbox
    refine (hmem gid fence).mpr ⟨hfence, hsees, ?_⟩
    intro qb hqb
    obtain ⟨-, ring', b, hring', hb, -⟩ := (hconsistent _ hfence).listed
    obtain rfl := hring.unique hring'
    exact ⟨ring', b, hring, hb,
      (contains_of_inside hb hinside).intersects (hbox qb hqb)⟩

theorem consistent_of_ring {ring : List (Point ℚ)} {b : BBox ℚ}
    (hb : polygonBBox ring = .ok b) :
    Consistent
      (.obj [("polygon", pointsToJson ring), ("bbox", b.toJson)]) where
  box := ⟨pointsToJson ring, ring, b, rfl, polygonOfJson_pointsToJson ring,
    hb, rfl⟩
  geojson _ _ _ hgeojson := by
    cases hgeojson

theorem fenceList_exact_southFence :
    ∃ (b : BBox ℚ) (listed : PyDict String (Json ℚ)),
      polygonBBox southRing = .ok b ∧
      fenceList (.obj [("A1", .obj [("polygon", pointsToJson southRing),
        ("bbox", b.toJson)])]) ⟨"admin", "root"⟩ [] =
          .ok (.obj [("geofences", .obj listed)]) ∧
      "A1" ∈ listed.map Prod.fst := by
  obtain ⟨b, hb⟩ : ∃ b, polygonBBox southRing = .ok b := ⟨_, rfl⟩
  have hconsistent : ∀ entry ∈ ([("A1", .obj
      [("polygon", pointsToJson southRing), ("bbox", b.toJson)])] :
        PyDict String (Json ℚ)), Consistent entry.2 :=
    List.forall_mem_singleton.mpr (consistent_of_ring hb)
  obtain ⟨listed, hreply, hmem, -⟩ :=
    fenceList_exact hconsistent ⟨"admin", "root"⟩ []
  refine ⟨b, listed, hb, hreply, ?_⟩
  have hsees (fence : Json ℚ) : Principal.Sees ⟨"admin", "root"⟩ fence :=
    fun heditor => absurd heditor (by decide)
  exact List.mem_map.mpr ⟨_, (hmem "A1" _).mpr
    ⟨List.mem_singleton_self _, hsees _, nofun⟩, rfl⟩

end BabilCors
