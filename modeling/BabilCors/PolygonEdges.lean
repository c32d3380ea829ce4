import BabilCors.CyclicPairs
import BabilCors.ExactFloat
import BabilCors.Geofence

/-!
# The edges of a ring

The scan of `point_in_polygon` sees a ring only through its edges, and their
order does not matter: it fails when one of them divides by zero, and counts
the crossed ones otherwise.  A ring that is written differently has the same
edges, up to those that begin where they end.
-/

namespace BabilCors

open CyclicPairs
open Py

section Scan

variable {F : Type} [PyFloat F]

def edgeFails (point : Point F) (edge : Point F × Point F) : Bool :=
  (edgeIntersects point edge.1 edge.2).toOption.isNone

def edgeCrosses (point : Point F) (edge : Point F × Point F) : Bool :=
  (edgeIntersects point edge.1 edge.2).toOption.getD false

theorem edgeIntersects_self (point p : Point F) :
    edgeIntersects point p p = .ok false := by
  simp [edgeIntersects]

/-- An edge fails in one way only. -/
theorem edgeIntersects_error {point pi pj : Point F} {e : PyErr}
    (herror : edgeIntersects point pi pj = .error e) :
    e = .valueError "float division by zero" := by
  unfold edgeIntersects floatDiv at herror
  dsimp only at herror
  split_ifs at herror
  · exact (Except.error.inj herror).symm
  · cases herror

theorem edgeIntersects_eq (point : Point F) (edge : Point F × Point F) :
    edgeIntersects point edge.1 edge.2 =
      if edgeFails point edge then
        .error (.valueError "float division by zero")
      else
        .ok (edgeCrosses point edge) := by
  unfold edgeFails edgeCrosses
  cases hedge : edgeIntersects point edge.1 edge.2 with
  | error e =>
      rw [edgeIntersects_error hedge]
      rfl
  | ok crosses => rfl

/-- What the scan makes of the edges. -/
def scanEdges (point : Point F) (edges : List (Point F × Point F)) :
    Except PyErr Bool :=
  if edges.any (edgeFails point) then
    .error (.valueError "float division by zero")
  else
    .ok (decide (Odd (edges.countP (edgeCrosses point))))

theorem crossings_eq (point pj : Point F) (inside : Bool)
    (ring : List (Point F)) :
    crossings point pj inside ring =
      (scanEdges point (pairsFrom pj ring)).map fun crossed =>
        inside != crossed := by
  induction ring generalizing pj inside with
  | nil => simp [crossings, pairsFrom, scanEdges, Except.map]
  | cons pi rest ih =>
      have hedge := edgeIntersects_eq point (pi, pj)
      dsimp only at hedge
      rw [crossings, hedge, pairsFrom]
      unfold scanEdges
      rw [List.any_cons, List.countP_cons]
      cases hfails : edgeFails point (pi, pj) with
      | true => rfl
      | false =>
          simp only [Bool.false_eq_true, if_false, Except.bind,
            Bool.false_or]
          rw [ih pi, scanEdges]
          split_ifs with hany hcrosses
          · rfl
          · simp only [Except.map, hcrosses, Nat.odd_add_one,
              decide_not, Bool.bne_true, Bool.bne_not, Bool.not_bne]
          · simp only [Except.map, Bool.not_eq_true] at hcrosses ⊢
            rw [hcrosses, Bool.bne_false, Nat.add_zero]

/-- `point_in_polygon` by the edges of the ring. -/
theorem pointInPolygon_eq (point : Point F) (ring : List (Point F)) :
    pointInPolygon point ring = scanEdges point (cyclicPairs ring) := by
  unfold pointInPolygon cyclicPairs
  cases ring.getLast? with
  | none => rfl
  | some last =>
      dsimp only
      rw [crossings_eq]
      cases scanEdges point (pairsFrom last ring) with
      | error e => rfl
      | ok crossed => simp [Except.map]

theorem scanEdges_perm (point : Point F)
    {edges edges' : List (Point F × Point F)} (hperm : edges.Perm edges') :
    scanEdges point edges = scanEdges point edges' := by
  have hany : edges.any (edgeFails point) = edges'.any (edgeFails point) := by
    rw [Bool.eq_iff_iff, List.any_eq_true, List.any_eq_true]
    simp only [hperm.mem_iff]
  unfold scanEdges
  rw [hany, hperm.countP_eq]

/-- An edge that begins where it ends is never crossed. -/
theorem scanEdges_self (point p : Point F) (edges : List (Point F × Point F)) :
    scanEdges point ((p, p) :: edges) = scanEdges point edges := by
  have hfails : edgeFails point (p, p) = false := by
    rw [edgeFails, edgeIntersects_self]
    rfl
  have hcrosses : edgeCrosses point (p, p) = false := by
    rw [edgeCrosses, edgeIntersects_self]
    rfl
  unfold scanEdges
  rw [List.any_cons, hfails, Bool.false_or, List.countP_cons_of_neg]
  simp [hcrosses]

theorem pointInPolygon_rotate (point : Point F) (ring : List (Point F))
    (n : ℕ) :
    pointInPolygon point (ring.rotate n) = pointInPolygon point ring := by
  rw [pointInPolygon_eq, pointInPolygon_eq]
  exact scanEdges_perm point (cyclicPairs_rotate ring n)

theorem pointInPolygon_repeat (point : Point F) (before : List (Point F))
    (p : Point F) (after : List (Point F)) :
    pointInPolygon point (before ++ p :: p :: after) =
      pointInPolygon point (before ++ p :: after) := by
  rw [pointInPolygon_eq, pointInPolygon_eq,
    scanEdges_perm point (cyclicPairs_repeat before p after), scanEdges_self]

theorem pointInPolygon_snoc (point first : Point F)
    (rest : List (Point F)) :
    pointInPolygon point (first :: rest ++ [first]) =
      pointInPolygon point (first :: rest) := by
  rw [pointInPolygon_eq, pointInPolygon_eq,
    scanEdges_perm point (cyclicPairs_close first rest), scanEdges_self]

theorem pointInPolygon_closeRing (point : Point F) (ring : List (Point F)) :
    pointInPolygon point (closeRing ring) = pointInPolygon point ring := by
  unfold closeRing
  split
  · dsimp only
    split_ifs
    · rfl
    · exact pointInPolygon_snoc point _ _
  · rfl

theorem mem_closeRing {ring : List (Point F)} {p : Point F} :
    p ∈ closeRing ring ↔ p ∈ ring := by
  unfold closeRing
  split
  · next first second rest =>
      dsimp only
      split_ifs
      · rfl
      · rw [List.mem_append, List.mem_singleton, or_iff_left_of_imp]
        rintro rfl
        exact List.mem_cons_self
  · rfl

end Scan

/-! ## The box around a ring -/

theorem floatMin_exact (x y : ℚ) : floatMin x y = min x y := by
  change (if decide (y < x) then y else x) = min x y
  rcases lt_or_ge y x with hlt | hle
  · rw [decide_eq_true hlt, if_pos rfl, min_eq_right hlt.le]
  · rw [decide_eq_false (not_lt.mpr hle), if_neg Bool.false_ne_true,
      min_eq_left hle]

theorem floatMax_exact (x y : ℚ) : floatMax x y = max x y := by
  change (if decide (x < y) then y else x) = max x y
  rcases lt_or_ge x y with hlt | hle
  · rw [decide_eq_true hlt, if_pos rfl, max_eq_right hlt.le]
  · rw [decide_eq_false (not_lt.mpr hle), if_neg Bool.false_ne_true,
      max_eq_left hle]

/-- The bounds of the box are the extreme coordinates. -/
theorem polygonBBox_iff {ring : List (Point ℚ)} {b : BBox ℚ} :
    polygonBBox ring = .ok b ↔
      (ring.map Prod.snd).min? = some b.minLon ∧
        (ring.map Prod.fst).min? = some b.minLat ∧
        (ring.map Prod.snd).max? = some b.maxLon ∧
        (ring.map Prod.fst).max? = some b.maxLat := by
  cases ring with
  | nil => simp [polygonBBox]
  | cons first rest =>
      obtain ⟨minLon, minLat, maxLon, maxLat⟩ := b
      simp only [polygonBBox, floatMin_exact, floatMax_exact, List.map_cons,
        List.min?_cons', List.max?_cons', List.foldl_map, Except.ok.injEq,
        BBox.mk.injEq, Option.some.injEq]

theorem min?_congr {xs ys : List ℚ} (hmem : ∀ x, x ∈ xs ↔ x ∈ ys) :
    xs.min? = ys.min? := by
  ext x
  rw [List.min?_eq_some_iff, List.min?_eq_some_iff]
  simp only [hmem]

theorem max?_congr {xs ys : List ℚ} (hmem : ∀ x, x ∈ xs ↔ x ∈ ys) :
    xs.max? = ys.max? := by
  ext x
  rw [List.max?_eq_some_iff, List.max?_eq_some_iff]
  simp only [hmem]

/-- The box depends on the points only, not on their order or number. -/
theorem polygonBBox_congr {ring ring' : List (Point ℚ)} (hne : ring ≠ [])
    (hmem : ∀ p, p ∈ ring' ↔ p ∈ ring) :
    polygonBBox ring' = polygonBBox ring := by
  have himage (f : Point ℚ → ℚ) (x : ℚ) :
      x ∈ ring'.map f ↔ x ∈ ring.map f := by
    rw [List.mem_map, List.mem_map]
    simp only [hmem]
  obtain ⟨b, hb⟩ : ∃ b, polygonBBox ring = .ok b := by
    cases ring with
    | nil => exact (hne rfl).elim
    | cons first rest => exact ⟨_, rfl⟩
  rw [hb, polygonBBox_iff, min?_congr (himage Prod.snd),
    min?_congr (himage Prod.fst), max?_congr (himage Prod.snd),
    max?_congr (himage Prod.fst)]
  exact polygonBBox_iff.mp hb

/-! ## The same ring written differently -/

structure SameFence (ring ring' : List (Point ℚ)) : Prop where
  inside : ∀ point, pointInPolygon point ring' = pointInPolygon point ring
  bbox : polygonBBox ring' = polygonBBox ring

/-- Starting elsewhere, repeating a vertex, closing the ring, and writing it
to a document and reading it back leave the fence as it is. -/
theorem ring_rewritten (ring : List (Point ℚ)) (hne : ring ≠ []) :
    (∀ n, SameFence ring (ring.rotate n)) ∧
      (∀ before p after, ring = before ++ p :: after →
        SameFence ring (before ++ p :: p :: after)) ∧
      SameFence ring (ring ++ [ring.head hne]) ∧
      ∃ back, geojsonToRings (ringsToGeojsonPolygon ring) = .ok [back] ∧
        SameFence ring back := by
  refine ⟨?_, ?_, ?_, ?_⟩
  · intro n
    exact
      { inside := fun point => pointInPolygon_rotate point ring n
        bbox := polygonBBox_congr hne fun p => List.mem_rotate }
  · rintro before p after rfl
    exact
      { inside := fun point => pointInPolygon_repeat point before p after
        bbox := polygonBBox_congr hne fun q => by simp }
  · cases ring with
    | nil => exact (hne rfl).elim
    | cons first rest =>
        exact
          { inside := fun point => pointInPolygon_snoc point first rest
            bbox := polygonBBox_congr hne fun p => by
              rw [List.head_cons, List.mem_append, List.mem_singleton,
                or_iff_left_of_imp]
              rintro rfl
              exact List.mem_cons_self }
  · exact ⟨closeRing ring, geojsonToRings_ringsToGeojsonPolygon ring,
      { inside := fun point => pointInPolygon_closeRing point ring
        bbox := polygonBBox_congr hne fun p => mem_closeRing }⟩

theorem ring_rewritten_triangle :
    SameFence [(0, 0), (0, 2), (2, 0)] [(2, 0), (0, 0), (0, 2)] :=
  (ring_rewritten [(0, 0), (0, 2), (2, 0)] (List.cons_ne_nil _ _)).1 2

end BabilCors
