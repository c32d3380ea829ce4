import Mathlib.Data.List.Rotate
import Mathlib.Tactic

/-!
# The neighbours on a closed walk

Every element of a list with the one before it, the last one standing before
the first.  Up to their order the pairs are those of the closed walk: they do
not depend on where it starts, and a stop adds a pair of equal ends only.
-/

namespace CyclicPairs

variable {α : Type*}

def pairsFrom : α → List α → List (α × α)
  | _, [] => []
  | previous, x :: rest => (x, previous) :: pairsFrom x rest

def cyclicPairs (walk : List α) : List (α × α) :=
  match walk.getLast? with
  | none => []
  | some last => pairsFrom last walk

theorem pairsFrom_append (previous : α) (walk rest : List α) :
    pairsFrom previous (walk ++ rest) =
      pairsFrom previous walk ++
        pairsFrom
          ((previous :: walk).getLast (List.cons_ne_nil _ _)) rest := by
  induction walk generalizing previous with
  | nil => rfl
  | cons x walk ih =>
      rw [List.cons_append, pairsFrom, pairsFrom, ih, List.cons_append,
        List.getLast_cons_cons]

theorem cyclicPairs_concat (walk : List α) (last : α) :
    cyclicPairs (walk ++ [last]) =
      pairsFrom last walk ++
        [(last, (last :: walk).getLast (List.cons_ne_nil _ _))] := by
  unfold cyclicPairs
  rw [List.getLast?_append, List.getLast?_singleton, Option.some_or]
  dsimp only
  rw [pairsFrom_append]
  rfl

theorem cyclicPairs_cons (first : α) (walk : List α) :
    cyclicPairs (first :: walk) =
      (first, (first :: walk).getLast (List.cons_ne_nil _ _)) ::
        pairsFrom first walk := by
  unfold cyclicPairs
  rw [List.getLast?_eq_some_getLast (List.cons_ne_nil first walk)]
  rfl

/-- One step further the walk has the same pairs. -/
theorem cyclicPairs_shift (first : α) (walk : List α) :
    (cyclicPairs (walk ++ [first])).Perm (cyclicPairs (first :: walk)) := by
  rw [cyclicPairs_concat, cyclicPairs_cons]
  exact List.perm_append_singleton _ _

theorem cyclicPairs_rotate (walk : List α) (n : ℕ) :
    (cyclicPairs (walk.rotate n)).Perm (cyclicPairs walk) := by
  induction n generalizing walk with
  | zero => rw [List.rotate_zero]
  | succ n ih =>
      cases walk with
      | nil => rw [List.rotate_nil]
      | cons first walk =>
          rw [List.rotate_cons_succ]
          exact (ih (walk ++ [first])).trans (cyclicPairs_shift first walk)

theorem cyclicPairs_repeat_first (first : α) (walk : List α) :
    cyclicPairs (first :: first :: walk) =
      (first, (first :: walk).getLast (List.cons_ne_nil _ _)) ::
        (first, first) :: pairsFrom first walk := by
  rw [cyclicPairs_cons, List.getLast_cons_cons]
  rfl

/-- A stop anywhere on the walk. -/
theorem cyclicPairs_repeat (before : List α) (x : α) (after : List α) :
    (cyclicPairs (before ++ x :: x :: after)).Perm
      ((x, x) :: cyclicPairs (before ++ x :: after)) := by
  have hrotate (rest : List α) :
      (cyclicPairs (before ++ rest)).Perm (cyclicPairs (rest ++ before)) := by
    have hperm := cyclicPairs_rotate (before ++ rest) before.length
    rw [List.rotate_append_length_eq] at hperm
    exact hperm.symm
  calc
    (cyclicPairs (before ++ x :: x :: after)).Perm
        (cyclicPairs (x :: x :: (after ++ before))) := hrotate _
    _ = (x, (x :: (after ++ before)).getLast (List.cons_ne_nil _ _)) ::
          (x, x) :: pairsFrom x (after ++ before) :=
      cyclicPairs_repeat_first x (after ++ before)
    List.Perm _ ((x, x) :: cyclicPairs (x :: (after ++ before))) := by
      rw [cyclicPairs_cons]
      exact List.Perm.swap _ _ _
    List.Perm _ ((x, x) :: cyclicPairs (before ++ x :: after)) :=
      ((hrotate (x :: after)).symm).cons (x, x)

/-- Ending where it began, the walk stops there once. -/
theorem cyclicPairs_close (first : α) (walk : List α) :
    (cyclicPairs (first :: walk ++ [first])).Perm
      ((first, first) :: cyclicPairs (first :: walk)) :=
  (cyclicPairs_shift first (first :: walk)).trans
    (cyclicPairs_repeat [] first walk)

/-! ## Changes along the walk -/

/-- A property changes an odd number of times between two stops exactly if it
holds of one of them only. -/
theorem odd_countP_pairsFrom (p : α → Bool) (previous : α) (walk : List α) :
    Odd ((pairsFrom previous walk).countP fun e => p e.1 != p e.2) ↔
      (p previous !=
        p ((previous :: walk).getLast (List.cons_ne_nil _ _))) = true := by
  induction walk generalizing previous with
  | nil => simp [pairsFrom]
  | cons x walk ih =>
      rw [pairsFrom, List.countP_cons, List.getLast_cons_cons]
      have hrest := ih x
      cases hx : p x with
      | false =>
          cases hprevious : p previous with
          | false => simpa [hx, hprevious] using hrest
          | true =>
              rw [hx] at hrest
              simp only [Bool.bne_true, Bool.not_false, if_true,
                Nat.odd_add_one, hrest, Bool.true_bne, Bool.false_bne]
              simp
      | true =>
          cases hprevious : p previous with
          | false =>
              rw [hx] at hrest
              simp only [Bool.bne_false, if_true, Nat.odd_add_one, hrest,
                Bool.true_bne, Bool.false_bne]
              simp
          | true => simpa [hx, hprevious] using hrest

/-- Around a closed walk a property changes an even number of times. -/
theorem even_countP_cyclicPairs (p : α → Bool) (walk : List α) :
    Even ((cyclicPairs walk).countP fun e => p e.1 != p e.2) := by
  cases walk with
  | nil => exact Even.zero
  | cons first walk =>
      rw [← Nat.not_odd_iff_even]
      unfold cyclicPairs
      rw [List.getLast?_eq_some_getLast (List.cons_ne_nil first walk)]
      dsimp only
      rw [odd_countP_pairsFrom, List.getLast_cons_cons]
      simp

end CyclicPairs
