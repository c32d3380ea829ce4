import Mathlib.Tactic

/-!
# Insertion-ordered dictionaries

A dictionary is the list of its entries in insertion order.  Assigning to a
key that is present keeps its place, a new key goes to the end, and deleting a
key removes it.  The lemmas say how a lookup sees each operation.
-/

/-- The entries of a dictionary. -/
abbrev PyDict (κ α : Type*) := List (κ × α)

namespace PyDict

variable {κ α : Type*}

def keys (d : PyDict κ α) : List κ :=
  d.map Prod.fst

def values (d : PyDict κ α) : List α :=
  d.map Prod.snd

variable [DecidableEq κ]

def get? (d : PyDict κ α) (key : κ) : Option α :=
  d.lookup key

def has (d : PyDict κ α) (key : κ) : Bool :=
  (d.get? key).isSome

def set : PyDict κ α → κ → α → PyDict κ α
  | [], key, value => [(key, value)]
  | (k, v) :: d, key, value =>
      if k = key then (key, value) :: d else (k, v) :: set d key value

/-- `del d[key]`, and the dictionary itself when the key is absent. -/
def erase (d : PyDict κ α) (key : κ) : PyDict κ α :=
  d.filter fun entry => entry.1 ≠ key

@[simp] theorem get?_nil (key : κ) :
    get? ([] : PyDict κ α) key = none := rfl

theorem get?_cons (k key : κ) (v : α) (d : PyDict κ α) :
    get? ((k, v) :: d) key = if k = key then some v else get? d key := by
  unfold get?
  rw [List.lookup_cons]
  by_cases hkey : k = key
  · simp [hkey]
  · have hne : (key == k) = false := by
      simpa using fun h : key = k => hkey h.symm
    simp [hkey, hne]

@[simp] theorem get?_set_self (d : PyDict κ α) (key : κ) (value : α) :
    (d.set key value).get? key = some value := by
  induction d with
  | nil => simp [set, get?_cons]
  | cons entry d ih =>
      obtain ⟨k, v⟩ := entry
      simp only [set]
      split_ifs with hkey
      · simp [get?_cons]
      · rw [get?_cons, if_neg hkey, ih]

theorem get?_set_of_ne (d : PyDict κ α) {key other : κ} (value : α)
    (hne : key ≠ other) :
    (d.set key value).get? other = d.get? other := by
  induction d with
  | nil => simp [set, get?_cons, hne]
  | cons entry d ih =>
      obtain ⟨k, v⟩ := entry
      simp only [set]
      split_ifs with hkey
      · subst hkey
        rw [get?_cons, get?_cons, if_neg hne, if_neg hne]
      · rw [get?_cons, get?_cons, ih]

theorem get?_set (d : PyDict κ α) (key other : κ) (value : α) :
    (d.set key value).get? other =
      if key = other then some value else d.get? other := by
  split_ifs with hkey
  · subst hkey
    exact get?_set_self d key value
  · exact get?_set_of_ne d value hkey

@[simp] theorem get?_erase_self (d : PyDict κ α) (key : κ) :
    (d.erase key).get? key = none := by
  induction d with
  | nil => rfl
  | cons entry d ih =>
      obtain ⟨k, v⟩ := entry
      unfold erase at ih ⊢
      by_cases hkey : k = key
      · simpa [hkey] using ih
      · simpa [hkey, get?_cons] using ih

theorem get?_erase_of_ne (d : PyDict κ α) {key other : κ}
    (hne : key ≠ other) : (d.erase key).get? other = d.get? other := by
  induction d with
  | nil => rfl
  | cons entry d ih =>
      obtain ⟨k, v⟩ := entry
      unfold erase at ih ⊢
      by_cases hkey : k = key
      · subst hkey
        simpa [get?_cons, hne] using ih
      · simp only [ne_eq, hkey, not_false_eq_true, decide_true,
          List.filter_cons_of_pos, get?_cons]
        rw [ih]

theorem mem_of_get? {d : PyDict κ α} {key : κ} {value : α}
    (hget : d.get? key = some value) : (key, value) ∈ d := by
  induction d with
  | nil => simp at hget
  | cons entry d ih =>
      obtain ⟨k, v⟩ := entry
      rw [get?_cons] at hget
      split_ifs at hget with hkey
      · cases hget
        subst hkey
        exact List.mem_cons_self
      · exact List.mem_cons_of_mem _ (ih hget)

theorem mem_set {d : PyDict κ α} {key : κ} {value : α}
    {entry : κ × α} (hmem : entry ∈ d.set key value) :
    entry = (key, value) ∨ entry ∈ d := by
  induction d with
  | nil => exact .inl (by simpa [set] using hmem)
  | cons head d ih =>
      obtain ⟨k, v⟩ := head
      simp only [set] at hmem
      split_ifs at hmem with hkey
      · rcases List.mem_cons.mp hmem with rfl | htail
        · exact .inl rfl
        · exact .inr (List.mem_cons_of_mem _ htail)
      · rcases List.mem_cons.mp hmem with rfl | htail
        · exact .inr List.mem_cons_self
        · exact (ih htail).imp_right (List.mem_cons_of_mem _)

/-! ## Keys -/

theorem keys_set (d : PyDict κ α) (key : κ) (value : α) :
    (d.set key value).keys =
      if key ∈ d.keys then d.keys else d.keys ++ [key] := by
  induction d with
  | nil => rfl
  | cons entry d ih =>
      rcases entry with ⟨k, v⟩
      simp only [keys, set] at ih ⊢
      by_cases hkey : k = key
      · simp [hkey]
      · rw [if_neg hkey, List.map_cons, ih]
        have hne : key ≠ k := fun h => hkey h.symm
        by_cases hmem : key ∈ d.map Prod.fst
        · simp [hmem]
        · simp [hmem, hne]

theorem nodup_keys_set {d : PyDict κ α} (hkeys : d.keys.Nodup) (key : κ)
    (value : α) : (d.set key value).keys.Nodup := by
  rw [keys_set]
  split_ifs with hmem
  · exact hkeys
  · apply hkeys.append (List.nodup_singleton key)
    simpa using hmem

theorem get?_isSome_iff (d : PyDict κ α) (key : κ) :
    (d.get? key).isSome = true ↔ key ∈ d.keys := by
  induction d with
  | nil => simp [keys]
  | cons entry d ih =>
      rcases entry with ⟨k, v⟩
      rw [get?_cons]
      simp only [keys, List.map_cons, List.mem_cons] at ih ⊢
      by_cases hkey : k = key
      · simp [hkey]
      · have hne : key ≠ k := fun h => hkey h.symm
        rw [if_neg hkey, ih]
        simp [hne]

theorem values_eq_map {d : PyDict κ α} (hkeys : d.keys.Nodup) (default : α) :
    d.values = d.keys.map fun key => (d.get? key).getD default := by
  induction d with
  | nil => rfl
  | cons entry d ih =>
      rcases entry with ⟨k, v⟩
      rcases List.nodup_cons.mp hkeys with ⟨hnew, hrest⟩
      have htail : (keys d).map (fun key =>
          (get? ((k, v) :: d) key).getD default) =
          (keys d).map fun key => (get? d key).getD default := by
        apply List.map_congr_left
        intro key hmem
        have hne : k ≠ key := by
          rintro rfl
          exact hnew hmem
        rw [get?_cons, if_neg hne]
      change v :: values d = (get? ((k, v) :: d) k).getD default ::
        (keys d).map _
      rw [htail, ih hrest, get?_cons, if_pos rfl]
      rfl

theorem eq_map_keys {d : PyDict κ α} (hkeys : d.keys.Nodup) (default : α) :
    d = d.keys.map fun key => (key, (d.get? key).getD default) := by
  rw [List.map_prod_left_eq_zip, ← values_eq_map hkeys default]
  exact List.zip_of_prod rfl rfl

end PyDict
