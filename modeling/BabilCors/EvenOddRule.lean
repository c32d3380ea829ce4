import BabilCors.PolygonEdges

/-!
# The even-odd rule

`point_in_polygon` in exact arithmetic against the rule it computes.  The
addend in its denominator moves the crossing of an edge a little, along the
edge by an amount that depends on the edge's direction, and the denominator of
an edge that runs back by just the addend is zero.
-/

namespace BabilCors

open CyclicPairs
open Py

namespace EvenOdd

/-- A vertex and the vertex before it. -/
abbrev Edge := Point ℚ × Point ℚ

def epsilon : ℚ := 1 / 10 ^ 12

namespace Edge

/-- `xj - xi`. -/
def width (e : Edge) : ℚ := e.2.2 - e.1.2

/-- `yj - yi`. -/
def height (e : Edge) : ℚ := e.2.1 - e.1.1

/-- `(xi > lon) != (xj > lon)`. -/
def straddles (lon : ℚ) (e : Edge) : Bool :=
  decide (lon < e.1.2) != decide (lon < e.2.2)

/-- The latitude at which the edge has this longitude. -/
def crossingLat (lon : ℚ) (e : Edge) : ℚ :=
  e.1.1 + e.height * (lon - e.1.2) / e.width

/-- The same with the addend in the denominator. -/
def shiftedLat (lon : ℚ) (e : Edge) : ℚ :=
  e.1.1 + e.height * (lon - e.1.2) / (e.width + epsilon)

/-- The ray from the point towards larger latitudes crosses the edge. -/
def crossed (point : Point ℚ) (e : Edge) : Bool :=
  e.straddles point.2 && decide (point.1 < e.crossingLat point.2)

/-- The point lies between the crossing and where it is computed to be. -/
def misjudged (point : Point ℚ) (e : Edge) : Bool :=
  e.straddles point.2 &&
    (decide (min (e.crossingLat point.2) (e.shiftedLat point.2) ≤ point.1) &&
      decide (point.1 <
        max (e.crossingLat point.2) (e.shiftedLat point.2)))

end Edge

/-- An odd number of edges is crossed. -/
def Inside (point : Point ℚ) (polygon : List (Point ℚ)) : Prop :=
  Odd ((cyclicPairs polygon).countP (Edge.crossed point))

instance (point : Point ℚ) (polygon : List (Point ℚ)) :
    Decidable (Inside point polygon) :=
  inferInstanceAs (Decidable (Odd _))

/-! ## One edge -/

theorem edgeEpsilon_exact : (edgeEpsilon : ℚ) = epsilon := by
  norm_num [edgeEpsilon, epsilon, PyFloat.quot]

theorem denominator_isZero (e : Edge) :
    floatIsZero (PyFloat.add (PyFloat.sub e.2.2 e.1.2) (edgeEpsilon : ℚ)) =
      decide (e.width = -epsilon) := by
  rw [edgeEpsilon_exact]
  change decide (e.width + epsilon = ((0 : ℤ) : ℚ)) = _
  rw [Int.cast_zero, decide_eq_decide]
  exact add_eq_zero_iff_eq_neg

theorem edgeIntersects_exact (point : Point ℚ) (e : Edge) :
    edgeIntersects point e.1 e.2 =
      if e.straddles point.2 = true then
        if e.width = -epsilon then
          .error (.valueError "float division by zero")
        else
          .ok (decide (point.1 < e.shiftedLat point.2))
      else
        .ok false := by
  have hzero := denominator_isZero e
  obtain ⟨⟨yi, xi⟩, yj, xj⟩ := e
  have hshifted : PyFloat.add (PyFloat.div
      (PyFloat.mul (PyFloat.sub yj yi) (PyFloat.sub point.2 xi))
        (PyFloat.add (PyFloat.sub xj xi) epsilon)) yi =
      Edge.shiftedLat point.2 ((yi, xi), (yj, xj)) :=
    add_comm _ _
  change (if Edge.straddles point.2 ((yi, xi), (yj, xj)) = true then
      (floatDiv (PyFloat.mul (PyFloat.sub yj yi) (PyFloat.sub point.2 xi))
        (PyFloat.add (PyFloat.sub xj xi) edgeEpsilon)).map fun y =>
          decide (point.1 < PyFloat.add y yi)
    else .ok false) = _
  rw [floatDiv, hzero, edgeEpsilon_exact]
  split_ifs with hstraddles hwidth hother hother
  · rfl
  · exact (hother (of_decide_eq_true hwidth)).elim
  · exact (hwidth (decide_eq_true hother)).elim
  · rw [Except.map, hshifted]
  · rfl

theorem edgeFails_exact (point : Point ℚ) (e : Edge) :
    edgeFails point e =
      (e.straddles point.2 && decide (e.width = -epsilon)) := by
  unfold edgeFails
  rw [edgeIntersects_exact]
  cases e.straddles point.2 with
  | false => rfl
  | true =>
      rw [if_pos rfl, Bool.true_and]
      split_ifs with hwidth
      · exact (decide_eq_true hwidth).symm
      · exact (decide_eq_false hwidth).symm

theorem edgeCrosses_exact {point : Point ℚ} {e : Edge}
    (hfails : edgeFails point e = false) :
    edgeCrosses point e =
      (e.straddles point.2 && decide (point.1 < e.shiftedLat point.2)) := by
  rw [edgeFails_exact] at hfails
  unfold edgeCrosses
  rw [edgeIntersects_exact]
  cases hstraddles : e.straddles point.2 with
  | false => rfl
  | true =>
      rw [hstraddles, Bool.true_and, decide_eq_false_iff_not] at hfails
      rw [if_pos rfl, if_neg hfails, Bool.true_and]
      rfl

theorem lt_bne_lt (lat a b : ℚ) :
    (decide (lat < b) != decide (lat < a)) =
      (decide (min a b ≤ lat) && decide (lat < max a b)) := by
  by_cases ha : lat < a
  · by_cases hb : lat < b
    · simp [ha, hb]
    · simp [ha, hb, not_lt.mp hb]
  · by_cases hb : lat < b
    · simp [ha, hb, not_lt.mp ha]
    · simp [ha, hb]

/-- The computed test differs from the rule on a misjudged edge only. -/
theorem misjudged_eq {point : Point ℚ} {e : Edge}
    (hfails : edgeFails point e = false) :
    e.misjudged point = (edgeCrosses point e != e.crossed point) := by
  rw [edgeCrosses_exact hfails, Edge.misjudged, Edge.crossed, ← lt_bne_lt]
  cases e.straddles point.2 with
  | false => rfl
  | true => simp only [Bool.true_and]

/-! ## The whole ring -/

/-- Two tests find both an odd or both an even number exactly if they differ
an even number of times. -/
theorem even_countP_differs {α : Type*} {l : List α} {p q r : α → Bool}
    (hdiffers : ∀ a ∈ l, r a = (p a != q a)) :
    Even (l.countP r) ↔ (Odd (l.countP p) ↔ Odd (l.countP q)) := by
  induction l with
  | nil => simp
  | cons a l ih =>
      obtain ⟨ha, hrest⟩ := List.forall_mem_cons.mp hdiffers
      rw [List.countP_cons, List.countP_cons, List.countP_cons, ha]
      cases p a with
      | false =>
          cases q a with
          | false => simpa using ih hrest
          | true =>
              simp only [Bool.bne_true, Bool.not_false, if_true,
                Bool.false_eq_true, if_false, Nat.add_zero,
                Nat.even_add_one, Nat.odd_add_one, ih hrest]
              tauto
      | true =>
          cases q a with
          | false =>
              simp only [Bool.bne_false, if_true, Bool.false_eq_true,
                if_false, Nat.add_zero, Nat.even_add_one, Nat.odd_add_one,
                ih hrest]
              tauto
          | true =>
              simp only [bne_self_eq_false, Bool.false_eq_true, if_false,
                if_true, Nat.add_zero, Nat.odd_add_one, ih hrest]
              tauto

/-- Where no edge fails, the scan is the even-odd rule up to the parity of the
misjudged edges. -/
theorem pointInPolygon_eq_ok_iff {point : Point ℚ}
    {polygon : List (Point ℚ)}
    (hnone : ∀ e ∈ cyclicPairs polygon, edgeFails point e = false) :
    pointInPolygon point polygon = .ok (decide (Inside point polygon)) ↔
      Even ((cyclicPairs polygon).countP (Edge.misjudged point)) := by
  have hfails : ¬ (cyclicPairs polygon).any (edgeFails point) = true := by
    simpa using hnone
  rw [pointInPolygon_eq, scanEdges, if_neg hfails,
    even_countP_differs fun e he => misjudged_eq (hnone e he),
    Except.ok.injEq, decide_eq_decide]
  rfl

/-- `point_in_polygon` is the even-odd rule exactly if no straddling edge runs
back by the addend and an even number of edges is misjudged. -/
theorem pointInPolygon_evenOdd_iff (point : Point ℚ)
    (polygon : List (Point ℚ)) :
    pointInPolygon point polygon = .ok (decide (Inside point polygon)) ↔
      (∀ e ∈ cyclicPairs polygon, Edge.straddles point.2 e = true →
        Edge.width e ≠ -epsilon) ∧
      Even ((cyclicPairs polygon).countP (Edge.misjudged point)) := by
  by_cases hfails : (cyclicPairs polygon).any (edgeFails point) = true
  · rw [pointInPolygon_eq, scanEdges, if_pos hfails]
    obtain ⟨e, he, hedge⟩ := List.any_eq_true.mp hfails
    rw [edgeFails_exact, Bool.and_eq_true, decide_eq_true_iff] at hedge
    constructor
    · intro hok
      cases hok
    · rintro ⟨hwidths, -⟩
      exact (hwidths e he hedge.1 hedge.2).elim
  · have hnone : ∀ e ∈ cyclicPairs polygon, edgeFails point e = false := by
      simpa using hfails
    have hwidths : ∀ e ∈ cyclicPairs polygon,
        Edge.straddles point.2 e = true → Edge.width e ≠ -epsilon := by
      intro e he hstraddles hwidth
      have hedge := hnone e he
      rw [edgeFails_exact, hstraddles, hwidth] at hedge
      simp at hedge
    rw [and_iff_right hwidths]
    exact pointInPolygon_eq_ok_iff hnone

/-! ## Away from the edges -/

theorem abs_sub_lon_le {lon : ℚ} {e : Edge}
    (hstraddles : e.straddles lon = true) : |lon - e.1.2| ≤ |e.width| := by
  unfold Edge.straddles at hstraddles
  unfold Edge.width
  by_cases hi : lon < e.1.2
  · have hj : e.2.2 ≤ lon := by
      simpa [hi] using hstraddles
    rw [abs_of_neg (by linarith), abs_of_neg (by linarith)]
    linarith
  · have hj : lon < e.2.2 := by
      simpa [hi] using hstraddles
    have hi' := not_lt.mp hi
    rw [abs_of_nonneg (by linarith), abs_of_nonneg (by linarith)]
    linarith

/-- An edge that is not too narrow has its crossing moved by at most twice the
addend times its slope. -/
theorem abs_shift_le {lon : ℚ} {e : Edge}
    (hstraddles : e.straddles lon = true) (hwide : 2 * epsilon ≤ |e.width|) :
    |e.shiftedLat lon - e.crossingLat lon| ≤
      2 * epsilon * |e.height| / |e.width| := by
  have hpos : (0 : ℚ) < epsilon := by
    norm_num [epsilon]
  have hwidth : 0 < |e.width| := by
    linarith
  have hhalf : |e.width| / 2 ≤ |e.width + epsilon| := by
    have hsub := abs_sub_abs_le_abs_sub e.width (-epsilon)
    rw [abs_neg, abs_of_pos hpos, sub_neg_eq_add] at hsub
    linarith
  have hsum : 0 < |e.width + epsilon| := by
    linarith
  have hdiff : e.shiftedLat lon - e.crossingLat lon =
      -(epsilon * e.height * (lon - e.1.2)) /
        (e.width * (e.width + epsilon)) := by
    have hw : e.width ≠ 0 := abs_pos.mp hwidth
    have hs : e.width + epsilon ≠ 0 := abs_pos.mp hsum
    unfold Edge.shiftedLat Edge.crossingLat
    field_simp
    ring
  calc
    |e.shiftedLat lon - e.crossingLat lon| =
        epsilon * |e.height| * |lon - e.1.2| /
          (|e.width| * |e.width + epsilon|) := by
      rw [hdiff, abs_div, abs_neg, abs_mul, abs_mul, abs_mul,
        abs_of_pos hpos]
    _ ≤ epsilon * |e.height| * |e.width| /
          (|e.width| * (|e.width| / 2)) := by
      have hlon := abs_sub_lon_le hstraddles
      gcongr
    _ = 2 * epsilon * |e.height| / |e.width| := by
      field_simp

theorem abs_sub_crossingLat_le {point : Point ℚ} {e : Edge}
    (hmisjudged : e.misjudged point = true) :
    |point.1 - e.crossingLat point.2| ≤
      |e.shiftedLat point.2 - e.crossingLat point.2| := by
  unfold Edge.misjudged at hmisjudged
  simp only [Bool.and_eq_true, decide_eq_true_eq] at hmisjudged
  obtain ⟨-, hmin, hmax⟩ := hmisjudged
  rcases le_total (e.crossingLat point.2) (e.shiftedLat point.2) with hle | hle
  · rw [min_eq_left hle] at hmin
    rw [max_eq_right hle] at hmax
    rw [abs_of_nonneg (by linarith), abs_of_nonneg (by linarith)]
    linarith
  · rw [min_eq_right hle] at hmin
    rw [max_eq_left hle] at hmax
    rw [abs_of_nonpos (by linarith), abs_of_nonpos (by linarith)]
    linarith

/-- A point that is clear of the edges above and below it is judged by the
even-odd rule, as long as these edges are at least two addends wide. -/
theorem pointInPolygon_of_clear {point : Point ℚ} {polygon : List (Point ℚ)}
    (hclear : ∀ e ∈ cyclicPairs polygon, Edge.straddles point.2 e = true →
      2 * epsilon ≤ |Edge.width e| ∧
        2 * epsilon * |Edge.height e| / |Edge.width e| <
          |point.1 - Edge.crossingLat point.2 e|) :
    pointInPolygon point polygon = .ok (decide (Inside point polygon)) := by
  rw [pointInPolygon_eq_ok_iff]
  · have hnone : (cyclicPairs polygon).countP (Edge.misjudged point) = 0 := by
      rw [List.countP_eq_zero]
      intro e he hmisjudged
      have hstraddles : Edge.straddles point.2 e = true :=
        (Bool.and_eq_true_iff.mp hmisjudged).1
      obtain ⟨hwide, hfar⟩ := hclear e he hstraddles
      have hshift := abs_shift_le hstraddles hwide
      have hnear := abs_sub_crossingLat_le hmisjudged
      linarith
    rw [hnone]
    exact Even.zero
  · intro e he
    rw [edgeFails_exact, Bool.and_eq_false_iff]
    by_cases hstraddles : Edge.straddles point.2 e = true
    · right
      rw [decide_eq_false_iff_not]
      intro hwidth
      have hwide := (hclear e he hstraddles).1
      rw [hwidth, abs_neg] at hwide
      norm_num [epsilon] at hwide
    · exact .inl (Bool.eq_false_iff.mpr hstraddles)

/-! ## Two rings on which the scan goes wrong -/

/-- The edge to the second vertex runs back by the addend. -/
def dividingRing : List (Point ℚ) :=
  [(0, 0), (1, epsilon), (0, 1)]

/-- The long edge back to the first vertex is as wide as the addend. -/
def narrowRing : List (Point ℚ) :=
  [(0, 0), (0, 3 * epsilon), (1, epsilon)]

theorem pointInPolygon_wrong :
    pointInPolygon (1 / 2, 0) dividingRing =
        .error (.valueError "float division by zero") ∧
      pointInPolygon (3 / 8, epsilon / 2) narrowRing = .ok false ∧
      Inside (3 / 8, epsilon / 2) narrowRing := by
  decide +kernel

end EvenOdd

end BabilCors
