import BabilCors.PyValue

/-!
# Geofences

The functions of `geofence.py` on points `(lat, lon)`, and the reading of a
polygon from a document.
-/

namespace BabilCors

open Py

variable {F : Type} [PyFloat F]

/-- `(lat, lon)`. -/
abbrev Point (F : Type) := F × F

def edgeEpsilon : F := PyFloat.quot 1 (10 ^ 12)

/-- Whether the ray from the point crosses the edge; the division is reached
only when the ends lie on different sides of the point's longitude. -/
def edgeIntersects (point pi pj : Point F) : Except PyErr Bool :=
  let (lat, lon) := point
  let (yi, xi) := pi
  let (yj, xj) := pj
  if PyFloat.lt lon xi != PyFloat.lt lon xj then
    (floatDiv (PyFloat.mul (PyFloat.sub yj yi) (PyFloat.sub lon xi))
      (PyFloat.add (PyFloat.sub xj xi) edgeEpsilon)).map fun y =>
        PyFloat.lt lat (PyFloat.add y yi)
  else
    .ok false

/-- The loop of `point_in_polygon` from the vertex before. -/
def crossings (point : Point F) : Point F → Bool → List (Point F) →
    Except PyErr Bool
  | _, inside, [] => .ok inside
  | pj, inside, pi :: rest =>
      (edgeIntersects point pi pj).bind fun crosses =>
        crossings point pi (inside != crosses) rest

def pointInPolygon (point : Point F) (polygon : List (Point F)) :
    Except PyErr Bool :=
  match polygon.getLast? with
  | none => .ok false
  | some last => crossings point last false polygon

structure BBox (F : Type) where
  minLon : F
  minLat : F
  maxLon : F
  maxLat : F

def polygonBBox : List (Point F) → Except PyErr (BBox F)
  | [] => .error (.valueError "min() iterable argument is empty")
  | first :: rest =>
      .ok
        { minLon := rest.foldl (fun m p => floatMin m p.2) first.2
          minLat := rest.foldl (fun m p => floatMin m p.1) first.1
          maxLon := rest.foldl (fun m p => floatMax m p.2) first.2
          maxLat := rest.foldl (fun m p => floatMax m p.1) first.1 }

def BBox.toJson (b : BBox F) : Json F :=
  .arr [.float b.minLon, .float b.minLat, .float b.maxLon, .float b.maxLat]

def pointOfJson (j : Json F) : Except PyErr (Point F) := do
  let (a, b) ← j.unpack2
  return (← a.pyFloat, ← b.pyFloat)

/-- `[(float(a), float(b)) for a, b in poly]`. -/
def polygonOfJson (poly : Json F) : Except PyErr (List (Point F)) := do
  (← poly.iter).mapM pointOfJson

def firstEntry (j : Json F) : Except PyErr (Json F) :=
  match j with
  | .arr (first :: _) => .ok first
  | .arr [] => .error (.valueError "list index out of range")
  | .str s =>
      match s.toList with
      | c :: _ => .ok (.str (.singleton c))
      | [] => .error (.valueError "string index out of range")
  | .obj _ => .error (.keyError "0")
  | j => .error (.typeError
      ("'" ++ j.typeName ++ "' object is not subscriptable"))

/-- The outer ring of one polygon: its positions are longitude first. -/
def outerRing (poly : Json F) : Except PyErr (List (Point F)) := do
  let outer ← firstEntry poly
  let ring ← polygonOfJson outer
  return ring.map Prod.swap

def geojsonToRings (geojson : Json F) :
    Except PyErr (List (List (Point F))) := do
  let geojson := geojson.orElse (.obj [])
  let t := ((← geojson.getD "type" .null).orElse (.str "")).pyStr
  let coords := (← geojson.getD "coordinates" .null).orElse (.arr [])
  if t = "Polygon" then
    if coords.truthy then return [← outerRing coords] else return []
  else if t = "MultiPolygon" then
    ((← coords.iter).filter Json.truthy).mapM outerRing
  else
    return []

/-! ## A ring as a geometry -/

/-- The ring with its first point once more at the end, unless it ends
there. -/
def closeRing (ring : List (Point F)) : List (Point F) :=
  match ring with
  | first :: second :: rest =>
      let last := (second :: rest).getLast (List.cons_ne_nil second rest)
      if PyFloat.beq first.2 last.2 && PyFloat.beq first.1 last.1 then ring
      else ring ++ [first]
  | ring => ring

def ringsToGeojsonPolygon (ring : List (Point F)) : Json F :=
  .obj [("type", .str "Polygon"),
    ("coordinates", .arr [.arr ((closeRing ring).map fun (lat, lon) =>
      .arr [.float lon, .float lat])])]

theorem mapM_pointOfJson (points : List (Point F)) :
    (points.map fun p => (.arr [.float p.1, .float p.2] : Json F)).mapM
      pointOfJson = .ok points := by
  induction points with
  | nil => rfl
  | cons p ps ih =>
      rw [List.map_cons, List.mapM_cons, ih]
      rfl

/-- A ring as the positions of a geometry, longitude first. -/
def positions (ring : List (Point F)) : Json F :=
  .arr (ring.map fun p => .arr [.float p.2, .float p.1])

theorem outerRing_positions (ring : List (Point F)) :
    outerRing (.arr [positions ring]) = .ok ring := by
  have hswapped := mapM_pointOfJson (ring.map Prod.swap)
  rw [List.map_map] at hswapped
  have hring : polygonOfJson (positions ring) = .ok (ring.map Prod.swap) :=
    hswapped
  have houter : outerRing (.arr [positions ring]) =
      (polygonOfJson (positions ring)).map fun ring => ring.map Prod.swap :=
    rfl
  rw [houter, hring]
  simp [Except.map]

theorem geojsonToRings_ringsToGeojsonPolygon (ring : List (Point F)) :
    geojsonToRings (ringsToGeojsonPolygon ring) = .ok [closeRing ring] := by
  calc
    geojsonToRings (ringsToGeojsonPolygon ring) =
        (outerRing (.arr [positions (closeRing ring)])).map
          fun outer => [outer] := rfl
    _ = .ok [closeRing ring] := by
      rw [outerRing_positions]
      rfl

/-- Any number of polygons without holes. -/
def multiPolygon (members : List (List (Point F))) : Json F :=
  .obj [("type", .str "MultiPolygon"),
    ("coordinates", .arr (members.map fun ring => .arr [positions ring]))]

theorem geojsonToRings_multiPolygon (members : List (List (Point F))) :
    geojsonToRings (multiPolygon members) = .ok members := by
  have hall : (members.map fun ring => (.arr [positions ring] : Json F)).mapM
      outerRing = .ok members := by
    induction members with
    | nil => rfl
    | cons ring members ih =>
        rw [List.map_cons, List.mapM_cons, outerRing_positions, ih]
        rfl
  have htruthy : ((members.map fun ring =>
      (.arr [positions ring] : Json F)).filter Json.truthy) =
        members.map fun ring => .arr [positions ring] := by
    rw [List.filter_eq_self, List.forall_mem_map]
    exact fun ring _ => rfl
  have hcoordinates : ((.arr (members.map fun ring => .arr [positions ring]) :
      Json F).orElse (.arr [])) =
        .arr (members.map fun ring => .arr [positions ring]) := by
    cases members with
    | nil => rfl
    | cons ring members => rfl
  calc
    geojsonToRings (multiPolygon members) =
        (((.arr (members.map fun ring => .arr [positions ring]) :
          Json F).orElse (.arr [])).iter >>= fun items =>
            (items.filter Json.truthy).mapM outerRing) := rfl
    _ = .ok members := by
      rw [hcoordinates]
      change (((members.map fun ring =>
        (.arr [positions ring] : Json F)).filter Json.truthy).mapM
          outerRing) = _
      rw [htruthy, hall]

end BabilCors
