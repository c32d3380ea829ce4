import Mathlib.Tactic

/-!
# Gates with one memory for each key

Items come one after another, and each has a key.  A gate decides on an item
from the last item of the same key that it let pass.  Items of other keys have
no say in it, so the decisions on a set of keys are those on the items of these
keys alone.  A gate that makes an item wait keeps the passing items of one key
apart.
-/

namespace KeyedGates

variable {κ α : Type*} [DecidableEq κ]

structure Gate (κ α : Type*) where
  key : α → κ
  /-- From the last item of the key that passed, if there is one. -/
  opens : Option α → α → Bool

namespace Gate

variable (g : Gate κ α)

def passes (last : κ → Option α) (item : α) : Bool :=
  g.opens (last (g.key item)) item

def after (last : κ → Option α) (item : α) : κ → Option α :=
  if g.passes last item then Function.update last (g.key item) (some item)
  else last

def afterAll (last : κ → Option α) (items : List α) : κ → Option α :=
  items.foldl g.after last

def decisions : (κ → Option α) → List α → List (α × Bool)
  | _, [] => []
  | last, item :: items =>
      (item, g.passes last item) :: decisions (g.after last item) items

/-- The items that pass. -/
def passed (last : κ → Option α) (items : List α) : List α :=
  ((g.decisions last items).filter Prod.snd).map Prod.fst

variable {g} {last last' : κ → Option α}

theorem passed_cons (item : α) (items : List α) :
    g.passed last (item :: items) =
      (if g.passes last item then [item] else []) ++
        g.passed (g.after last item) items := by
  unfold passed
  rw [decisions]
  cases hpass : g.passes last item with
  | false => simp
  | true => simp

theorem passed_sublist (items : List α) :
    (g.passed last items).Sublist items := by
  induction items generalizing last with
  | nil => exact List.Sublist.refl []
  | cons item items ih =>
      rw [passed_cons]
      split_ifs
      · exact ih.cons_cons item
      · exact ih.cons item

theorem passed_append (first second : List α) :
    g.passed last (first ++ second) =
      g.passed last first ++ g.passed (g.afterAll last first) second := by
  induction first generalizing last with
  | nil => rfl
  | cons item first ih =>
      rw [List.cons_append, passed_cons, ih, passed_cons, List.append_assoc]
      rfl

theorem passed_concat (items : List α) (item : α) :
    g.passed last (items ++ [item]) =
      g.passed last items ++
        if g.passes (g.afterAll last items) item then [item] else [] := by
  rw [passed_append, passed_cons]
  simp [passed, decisions]

/-! ## Other keys -/

theorem after_of_ne {item : α} {k : κ} (hne : g.key item ≠ k) :
    g.after last item k = last k := by
  unfold after
  split_ifs
  · exact Function.update_of_ne (Ne.symm hne) _ _
  · rfl

/-- What the gate remembers of a key is the last item of it that passed. -/
theorem afterAll_eq (items : List α) (k : κ) :
    g.afterAll last items k =
      (((g.passed last items).filter fun item => g.key item = k).getLast?).or
        (last k) := by
  induction items generalizing last with
  | nil => simp [afterAll, passed, decisions]
  | cons item items ih =>
      have hstep : g.afterAll last (item :: items) =
          g.afterAll (g.after last item) items := rfl
      rw [hstep, ih, passed_cons]
      by_cases hkey : g.key item = k
      · cases hpass : g.passes last item with
        | false =>
            have hsame : g.after last item = last := by
              simp [after, hpass]
            simp [hsame]
        | true =>
            have hset : g.after last item k = some item := by
              simp [after, hpass, ← hkey]
            rw [hset]
            cases hlast : ((g.passed (g.after last item) items).filter
                fun item => g.key item = k).getLast? with
            | none =>
                rw [List.getLast?_eq_none_iff] at hlast
                simp [hkey, hlast]
            | some later =>
                simp [hkey, List.getLast?_cons, hlast]
      · rw [after_of_ne hkey]
        cases g.passes last item with
        | false => simp
        | true => simp [hkey]

theorem decisions_congr {items : List α}
    (hsame : ∀ item ∈ items, last (g.key item) = last' (g.key item)) :
    g.decisions last items = g.decisions last' items := by
  induction items generalizing last last' with
  | nil => rfl
  | cons item items ih =>
      rcases List.forall_mem_cons.mp hsame with ⟨hfirst, hrest⟩
      have hpass : g.passes last item = g.passes last' item := by
        unfold passes
        rw [hfirst]
      rw [decisions, decisions, hpass]
      congr 1
      apply ih
      intro later hlater
      unfold after
      rw [hpass]
      split_ifs
      · by_cases hkey : g.key later = g.key item
        · rw [hkey, Function.update_self, Function.update_self]
        · rw [Function.update_of_ne hkey, Function.update_of_ne hkey]
          exact hrest later hlater
      · exact hrest later hlater

/-- The decisions on some keys are those on their items alone. -/
theorem decisions_filter (p : κ → Bool) (last : κ → Option α)
    (items : List α) :
    ((g.decisions last items).filter fun d => p (g.key d.1)) =
      g.decisions last (items.filter fun item => p (g.key item)) := by
  induction items generalizing last with
  | nil => rfl
  | cons item items ih =>
      rw [decisions]
      cases hp : p (g.key item) with
      | true =>
          rw [List.filter_cons_of_pos (by simpa using hp), ih,
            List.filter_cons_of_pos (by simpa using hp), decisions]
      | false =>
          rw [List.filter_cons_of_neg (by simp [hp]),
            List.filter_cons_of_neg (by simp [hp]), ih]
          apply decisions_congr
          intro other hother
          have hpo := (List.mem_filter.mp hother).2
          apply after_of_ne
          intro hkey
          rw [hkey, hpo] at hp
          cases hp

theorem passed_filter (p : κ → Bool) (last : κ → Option α)
    (items : List α) :
    ((g.passed last items).filter fun item => p (g.key item)) =
      g.passed last (items.filter fun item => p (g.key item)) := by
  unfold passed
  rw [← decisions_filter, List.filter_map, List.filter_filter,
    List.filter_filter]
  congr 1
  apply List.filter_congr
  intro d _
  exact Bool.and_comm _ _

end Gate

/-! ## Gates that make an item wait -/

section Waits

variable {K : Type*} [AddCommGroup K] [LinearOrder K] [IsOrderedAddMonoid K]

/-- An item passes when the last one of its key is its own wait away. -/
def waiting (key : α → κ) (time wait : α → K) : Gate κ α where
  key := key
  opens
    | none, _ => true
    | some earlier, item => wait item ≤ time item - time earlier

variable {key : α → κ} {time wait : α → K} {last : κ → Option α}

omit [DecidableEq κ] [IsOrderedAddMonoid K] in
theorem passes_waiting {item : α} :
    (waiting key time wait).passes last item = true ↔
      ∀ earlier, last (key item) = some earlier →
        wait item ≤ time item - time earlier := by
  unfold Gate.passes waiting
  dsimp only
  cases last (key item) with
  | none => simp
  | some earlier => simp

/-- An item that passes is its wait away from what passed before it. -/
theorem wait_le_of_passed {items : List α}
    (hsorted : items.Pairwise fun a b => time a ≤ time b) {item : α}
    (hitem : item ∈ (waiting key time wait).passed last items)
    {earlier : α} (hlast : last (key item) = some earlier)
    (htime : ∀ a ∈ items, time earlier ≤ time a) :
    wait item ≤ time item - time earlier := by
  induction items generalizing last earlier with
  | nil => cases hitem
  | cons first items ih =>
      rcases List.pairwise_cons.mp hsorted with ⟨hfirst, hrest⟩
      rcases List.forall_mem_cons.mp htime with ⟨hbefore, hlater⟩
      rw [Gate.passed_cons] at hitem
      rcases List.mem_append.mp hitem with hhead | htail
      · split_ifs at hhead with hpass
        · obtain rfl := List.mem_singleton.mp hhead
          exact passes_waiting.mp hpass earlier hlast
        · cases hhead
      · by_cases hkey : key first = key item
        · by_cases hpass : (waiting key time wait).passes last first = true
          · have hset : (waiting key time wait).after last first
                (key item) = some first := by
              unfold Gate.after
              rw [if_pos hpass, ← hkey]
              exact Function.update_self _ _ _
            have hwait := ih hrest htail hset hfirst
            exact hwait.trans (sub_le_sub_left hbefore _)
          · have hkept : (waiting key time wait).after last first
                (key item) = some earlier := by
              unfold Gate.after
              rw [if_neg hpass, hlast]
            exact ih hrest htail hkept hlater
        · have hkept : (waiting key time wait).after last first
              (key item) = some earlier :=
            (Gate.after_of_ne hkey).trans hlast
          exact ih hrest htail hkept hlater

/-- Of two items of one key that pass, the later one has waited. -/
theorem passed_apart {items : List α}
    (hsorted : items.Pairwise fun a b => time a ≤ time b) :
    ((waiting key time wait).passed last items).Pairwise fun a b =>
      key a = key b → wait b ≤ time b - time a := by
  induction items generalizing last with
  | nil => exact List.Pairwise.nil
  | cons first items ih =>
      rcases List.pairwise_cons.mp hsorted with ⟨hfirst, hrest⟩
      rw [Gate.passed_cons]
      by_cases hpass : (waiting key time wait).passes last first = true
      · rw [if_pos hpass]
        refine List.pairwise_cons.mpr ⟨?_, ih hrest⟩
        intro item hitem hkey
        have hset : (waiting key time wait).after last first
            (key item) = some first := by
          unfold Gate.after
          rw [if_pos hpass, ← hkey]
          exact Function.update_self _ _ _
        exact wait_le_of_passed hrest hitem hset hfirst
      · rw [if_neg hpass, List.nil_append]
        exact ih hrest

omit [IsOrderedAddMonoid K] in
/-- An item that does not pass comes too soon after one that did. -/
theorem exists_of_not_passes {items : List α} {item : α}
    (hclosed : (waiting key time wait).passes
      ((waiting key time wait).afterAll (fun _ => none) items) item =
        false) :
    ∃ earlier ∈ (waiting key time wait).passed (fun _ => none) items,
      key earlier = key item ∧ time item - time earlier < wait item := by
  rw [← Bool.not_eq_true, passes_waiting] at hclosed
  push Not at hclosed
  rcases hclosed with ⟨earlier, hlast, hsoon⟩
  rw [Gate.afterAll_eq, Option.or_none] at hlast
  have hmem := List.mem_filter.mp (List.mem_of_getLast? hlast)
  exact ⟨earlier, hmem.1, of_decide_eq_true hmem.2, hsoon⟩

end Waits

end KeyedGates
