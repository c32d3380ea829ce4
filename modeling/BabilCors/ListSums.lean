import Mathlib.Algebra.BigOperators.Group.List.Basic
import Mathlib.Tactic

/-!
# Sums over a list that changes at an index

A sum of weights over a list, when an element is removed or replaced, or when
each element is changed at its place.
-/

namespace ListSums

variable {α β : Type*} {l : List α} {i : ℕ} {x : α}

theorem sum_map_eraseIdx (hx : l[i]? = some x) (w : α → ℕ) :
    w x + ((l.eraseIdx i).map w).sum = (l.map w).sum := by
  rcases List.getElem?_eq_some_iff.mp hx with ⟨hi, rfl⟩
  have hsum := List.CommMonoid.add_sum_eraseIdx (l := l.map w)
    (by simpa using hi)
  rwa [List.getElem_map, List.eraseIdx_map] at hsum

theorem sum_map_set (hx : l[i]? = some x) (y : α) (w : α → ℕ) :
    ((l.set i y).map w).sum + w x = (l.map w).sum + w y := by
  have hi : i < l.length := (List.getElem?_eq_some_iff.mp hx).1
  have hy : (l.set i y)[i]? = some y := by simp [hi]
  have hold := sum_map_eraseIdx hx w
  have hnew := sum_map_eraseIdx hy w
  rw [List.eraseIdx_set_eq] at hnew
  omega

theorem sum_map_mapIdx {g : ℕ → α → α} {w : α → ℕ} {e : ℕ → α → ℕ}
    (he : ∀ (i : ℕ) x, l[i]? = some x → w (g i x) = w x + e i x) :
    ((l.mapIdx g).map w).sum = (l.map w).sum + (l.mapIdx e).sum := by
  induction l generalizing g e with
  | nil => rfl
  | cons head tail ih =>
      have hhead := he 0 head rfl
      have htail := ih (g := fun i => g (i + 1))
        (e := fun i => e (i + 1)) fun i x hx =>
          he (i + 1) x (by simpa using hx)
      simp only [List.mapIdx_cons, List.map_cons, List.sum_cons]
      omega

theorem map_mapIdx_eq {g : ℕ → α → α} {w : α → β}
    (hsame : ∀ (i : ℕ) x, l[i]? = some x → w (g i x) = w x) :
    (l.mapIdx g).map w = l.map w := by
  apply List.ext_getElem?
  intro i
  simp only [List.getElem?_map, List.getElem?_mapIdx]
  cases hi : l[i]? with
  | none => rfl
  | some x => simp [hsame i x hi]

theorem sum_mapIdx_add (e e' : ℕ → α → ℕ) (l : List α) :
    (l.mapIdx fun i x => e i x + e' i x).sum =
      (l.mapIdx e).sum + (l.mapIdx e').sum := by
  induction l generalizing e e' with
  | nil => rfl
  | cons head tail ih =>
      have htail := ih (fun i => e (i + 1)) (fun i => e' (i + 1))
      simp only [List.mapIdx_cons, List.sum_cons]
      omega

theorem sum_mapIdx_zero (l : List α) : (l.mapIdx fun _ _ => 0).sum = 0 := by
  induction l with
  | nil => rfl
  | cons head tail ih =>
      simp only [List.mapIdx_cons, List.sum_cons]
      omega

theorem sum_mapIdx_single (f : α → ℕ) (k : ℕ) (l : List α) :
    (l.mapIdx fun i x => if i = k then f x else 0).sum =
      (l[k]?).elim 0 f := by
  induction l generalizing k with
  | nil => rfl
  | cons head tail ih =>
      cases k with
      | zero =>
          have hrest := sum_mapIdx_zero tail
          simpa [List.mapIdx_cons] using hrest
      | succ k =>
          have htail := ih k
          simpa [List.mapIdx_cons] using htail

/-- A sum over the positions of a set, in any order of the set. -/
theorem sum_mapIdx_mem {order : List ℕ} (hnodup : order.Nodup) (f : α → ℕ)
    (l : List α) :
    (l.mapIdx fun i x => if i ∈ order then f x else 0).sum =
      (order.map fun i => (l[i]?).elim 0 f).sum := by
  induction order with
  | nil => simpa using sum_mapIdx_zero l
  | cons k rest ih =>
      rcases List.nodup_cons.mp hnodup with ⟨hk, hrest⟩
      have hsplit : (fun (i : ℕ) x => if i ∈ k :: rest then f x else 0) =
          fun i x => (if i = k then f x else 0) +
            if i ∈ rest then f x else 0 := by
        funext i x
        by_cases hi : i = k
        · subst hi
          simp [hk]
        · simp [hi]
      rw [hsplit, sum_mapIdx_add, sum_mapIdx_single, ih hrest]
      rfl

end ListSums
