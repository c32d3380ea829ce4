import Mathlib.Tactic

/-!
# Assignments in order, up to the first failure

A program computes a new value for one field after the other and stores each
at once; the first computation that fails ends it.  The fields in front of the
failure have their new values then and the others their old ones.  This is all
or nothing exactly when one of the two groups has its new values anyway.
-/

namespace OrderedAssignments

variable {κ : Type*} [DecidableEq κ] {β : κ → Type*} {ε : Type*}

def assignInOrder (new : (k : κ) → Except ε (β k)) :
    List κ → ((k : κ) → β k) → (k : κ) → β k
  | [], old => old
  | k :: ks, old =>
      match new k with
      | .ok value => assignInOrder new ks (Function.update old k value)
      | .error _ => old

/-- The fields in front of the first failure. -/
def assigned (new : (k : κ) → Except ε (β k)) (ks : List κ) : List κ :=
  ks.takeWhile fun k => (new k).isOk

/-- Every field is as it was, or every field has its new value. -/
def AllOrNothing (new : (k : κ) → Except ε (β k))
    (old final : (k : κ) → β k) : Prop :=
  final = old ∨ ∀ k, new k = .ok (final k)

variable {new : (k : κ) → Except ε (β k)} {k : κ} {ks : List κ}

omit [DecidableEq κ] in
theorem assigned_cons_ok {value : β k} (hvalue : new k = .ok value) :
    assigned new (k :: ks) = k :: assigned new ks := by
  simp [assigned, hvalue, Except.isOk, Except.toBool]

omit [DecidableEq κ] in
theorem assigned_cons_error {e : ε} (hfails : new k = .error e) :
    assigned new (k :: ks) = [] := by
  simp [assigned, hfails, Except.isOk, Except.toBool]

omit [DecidableEq κ] in
theorem mem_of_mem_assigned (hk : k ∈ assigned new ks) : k ∈ ks :=
  (List.takeWhile_prefix _).subset hk

theorem assignInOrder_cons_ok {value : β k} (hvalue : new k = .ok value)
    (old : (k : κ) → β k) :
    assignInOrder new (k :: ks) old =
      assignInOrder new ks (Function.update old k value) := by
  simp [assignInOrder, hvalue]

theorem assignInOrder_cons_error {e : ε} (hfails : new k = .error e)
    (old : (k : κ) → β k) : assignInOrder new (k :: ks) old = old := by
  simp [assignInOrder, hfails]

theorem assignInOrder_of_not_mem (old : (k : κ) → β k)
    (hk : k ∉ assigned new ks) : assignInOrder new ks old k = old k := by
  induction ks generalizing old with
  | nil => rfl
  | cons k' ks ih =>
      cases hnew : new k' with
      | error e => rw [assignInOrder_cons_error hnew]
      | ok value =>
          rw [assigned_cons_ok hnew, List.mem_cons, not_or] at hk
          rw [assignInOrder_cons_ok hnew, ih _ hk.2]
          exact Function.update_of_ne hk.1 value old

/-- A field in front of the failure has its new value. -/
theorem assignInOrder_of_mem (hnodup : ks.Nodup) (old : (k : κ) → β k)
    (hk : k ∈ assigned new ks) :
    new k = .ok (assignInOrder new ks old k) := by
  induction ks generalizing old with
  | nil => exact (List.not_mem_nil hk).elim
  | cons k' ks ih =>
      rcases List.nodup_cons.mp hnodup with ⟨hfresh, hrest⟩
      cases hnew : new k' with
      | error e =>
          rw [assigned_cons_error hnew] at hk
          exact (List.not_mem_nil hk).elim
      | ok value =>
          rw [assigned_cons_ok hnew, List.mem_cons] at hk
          rw [assignInOrder_cons_ok hnew]
          rcases hk with rfl | hk
          · have hlater : k ∉ assigned new ks := by
              intro hmem
              exact hfresh (mem_of_mem_assigned hmem)
            rw [assignInOrder_of_not_mem _ hlater, Function.update_self, hnew]
          · exact ih hrest _ hk

theorem allOrNothing_iff (hnodup : ks.Nodup) (old : (k : κ) → β k) :
    AllOrNothing new old (assignInOrder new ks old) ↔
      (∀ k ∈ assigned new ks, new k = .ok (old k)) ∨
        ∀ k ∉ assigned new ks, new k = .ok (old k) := by
  constructor
  · rintro (hkept | hnew)
    · left
      intro k hk
      rw [assignInOrder_of_mem hnodup old hk, hkept]
    · right
      intro k hk
      rw [hnew k, assignInOrder_of_not_mem old hk]
  · rintro (hfront | hrest)
    · left
      funext k
      by_cases hk : k ∈ assigned new ks
      · have hfinal := assignInOrder_of_mem hnodup old hk
        rw [hfront k hk] at hfinal
        exact (Except.ok.inj hfinal).symm
      · exact assignInOrder_of_not_mem old hk
    · right
      intro k
      by_cases hk : k ∈ assigned new ks
      · exact assignInOrder_of_mem hnodup old hk
      · rw [hrest k hk, assignInOrder_of_not_mem old hk]

end OrderedAssignments
