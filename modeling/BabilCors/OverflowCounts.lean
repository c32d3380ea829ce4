import BabilCors.PyDict

/-!
# Counts with an overflow key

A dictionary counts items by their key.  It takes new keys up to a capacity;
after that an item with a new key is counted under the overflow key, which is
a key like the others.  The count under every other key stays exact, because a
key that was turned away once is turned away for good.
-/

namespace OverflowCounts

variable {κ : Type*} [DecidableEq κ]

/-- The key that an item is counted under. -/
def slot (capacity : ℕ) (other : κ) (d : PyDict κ ℕ) (key : κ) : κ :=
  if key ∈ d.keys then key
  else if capacity ≤ d.length then other
  else key

/-- One more under the key. -/
def increment (d : PyDict κ ℕ) (key : κ) : PyDict κ ℕ :=
  d.set key ((d.get? key).getD 0 + 1)

def count (capacity : ℕ) (other : κ) (d : PyDict κ ℕ) (key : κ) :
    PyDict κ ℕ :=
  increment d (slot capacity other d key)

/-- An item that is counted under the overflow key. -/
def Folded (other : κ) (d : PyDict κ ℕ) (key : κ) : Prop :=
  key = other ∨ key ∉ d.keys

instance (other : κ) (d : PyDict κ ℕ) : DecidablePred (Folded other d) :=
  fun _ => inferInstanceAs (Decidable (_ ∨ _))

/-- What the dictionary holds after these items. -/
structure Exact (capacity : ℕ) (other : κ) (items : List κ)
    (d : PyDict κ ℕ) : Prop where
  nodup : d.keys.Nodup
  bound : d.length ≤ capacity ∨ d.length = capacity + 1 ∧ other ∈ d.keys
  complete : d.length < capacity → ∀ key ∈ items, key ∈ d.keys
  total : d.values.sum = items.length
  exact : ∀ key ∈ d.keys, key ≠ other →
    (d.get? key).getD 0 = items.count key
  overflow : (d.get? other).getD 0 = items.countP (Folded other d)

/-! ## One more under a key -/

omit [DecidableEq κ] in
theorem length_keys (d : PyDict κ ℕ) : d.keys.length = d.length :=
  List.length_map _

theorem keys_increment (d : PyDict κ ℕ) (key : κ) :
    (increment d key).keys =
      if key ∈ d.keys then d.keys else d.keys ++ [key] :=
  d.keys_set key _

theorem mem_keys_increment {d : PyDict κ ℕ} {key k : κ} :
    k ∈ (increment d key).keys ↔ k ∈ d.keys ∨ k = key := by
  rw [keys_increment]
  split_ifs with hkey
  · constructor
    · exact .inl
    · rintro (hk | rfl)
      · exact hk
      · exact hkey
  · simp

theorem length_increment (d : PyDict κ ℕ) (key : κ) :
    (increment d key).length =
      if key ∈ d.keys then d.length else d.length + 1 := by
  rw [← length_keys, keys_increment]
  split_ifs
  · exact length_keys d
  · rw [List.length_append, length_keys]
    rfl

theorem get?_increment (d : PyDict κ ℕ) (key k : κ) :
    ((increment d key).get? k).getD 0 =
      (d.get? k).getD 0 + if key = k then 1 else 0 := by
  unfold increment
  rw [PyDict.get?_set]
  split_ifs with hkey
  · rw [hkey]
    rfl
  · rfl

theorem sum_values_increment (d : PyDict κ ℕ) (key : κ) :
    (increment d key).values.sum = d.values.sum + 1 := by
  unfold increment
  induction d with
  | nil => rfl
  | cons entry d ih =>
      obtain ⟨k, v⟩ := entry
      rw [PyDict.set, PyDict.get?_cons]
      simp only [PyDict.values] at ih ⊢
      split_ifs
      · rw [List.map_cons, List.map_cons, List.sum_cons, List.sum_cons,
          Option.getD_some]
        omega
      · rw [List.map_cons, List.map_cons, List.sum_cons, List.sum_cons, ih]
        omega

/-! ## Counting -/

theorem exact_nil (capacity : ℕ) (other : κ) :
    Exact capacity other ([] : List κ) [] where
  nodup := List.nodup_nil
  bound := .inl (Nat.zero_le capacity)
  complete := nofun
  total := rfl
  exact := nofun
  overflow := rfl

/-- What the slot of an item says about its key. -/
theorem slot_cases (capacity : ℕ) (other : κ) (d : PyDict κ ℕ) (key : κ) :
    (key ∈ d.keys ∧ slot capacity other d key = key) ∨
      (key ∉ d.keys ∧ capacity ≤ d.length ∧
        slot capacity other d key = other) ∨
      (key ∉ d.keys ∧ d.length < capacity ∧
        slot capacity other d key = key) := by
  unfold slot
  split_ifs with hkey hfull
  · exact .inl ⟨hkey, rfl⟩
  · exact .inr (.inl ⟨hkey, hfull, rfl⟩)
  · exact .inr (.inr ⟨hkey, Nat.lt_of_not_le hfull, rfl⟩)

theorem slot_eq_other_iff {capacity : ℕ} {other : κ} {d : PyDict κ ℕ}
    {key : κ} :
    slot capacity other d key = other ↔
      Folded other (count capacity other d key) key := by
  unfold Folded count
  rw [mem_keys_increment]
  rcases slot_cases capacity other d key with ⟨hkey, hslot⟩ | ⟨hkey, -, hslot⟩
    | ⟨-, -, hslot⟩
  · rw [hslot]
    tauto
  · rw [hslot]
    tauto
  · rw [hslot]
    tauto

namespace Exact

variable {capacity : ℕ} {other : κ} {items : List κ} {d : PyDict κ ℕ}

/-- The items that were folded before are those that are folded now. -/
theorem countP_folded (h : Exact capacity other items d) (key : κ) :
    items.countP (Folded other (count capacity other d key)) =
      items.countP (Folded other d) := by
  apply List.countP_congr
  intro k hk
  simp only [decide_eq_true_eq]
  unfold Folded count
  rw [mem_keys_increment]
  rcases slot_cases capacity other d key with ⟨hkey, hslot⟩ | ⟨-, -, hslot⟩ |
    ⟨-, hroom, hslot⟩
  · rw [hslot]
    constructor
    · tauto
    · rintro (hother | hnew)
      · exact .inl hother
      · refine .inr ?_
        rintro (hold | rfl)
        · exact hnew hold
        · exact hnew hkey
  · rw [hslot]
    tauto
  · have hold := h.complete hroom k hk
    tauto

theorem step (h : Exact capacity other items d) (key : κ) :
    Exact capacity other (items ++ [key]) (count capacity other d key) := by
  have hslot := slot_cases capacity other d key
  constructor
  · exact PyDict.nodup_keys_set h.nodup _ _
  · unfold count
    rw [length_increment, mem_keys_increment]
    rcases hslot with ⟨hkey, hslot⟩ | ⟨-, hfull, hslot⟩ | ⟨hkey, hroom, hslot⟩
    · rw [hslot, if_pos hkey]
      exact h.bound.imp_right fun hb => ⟨hb.1, .inl hb.2⟩
    · rw [hslot]
      split_ifs with hother
      · exact h.bound.imp_right fun hb => ⟨hb.1, .inl hb.2⟩
      · rcases h.bound with hle | ⟨-, hmem⟩
        · exact .inr ⟨by omega, .inr rfl⟩
        · exact (hother hmem).elim
    · rw [hslot, if_neg hkey]
      exact .inl hroom
  · intro hroom k hk
    unfold count at hroom ⊢
    rw [length_increment] at hroom
    rw [mem_keys_increment]
    have hbefore : d.length < capacity := by
      split_ifs at hroom
      · exact hroom
      · omega
    rcases List.mem_append.mp hk with hold | hnew
    · exact .inl (h.complete hbefore k hold)
    · obtain rfl := List.mem_singleton.mp hnew
      rcases hslot with ⟨hkey, -⟩ | ⟨-, hfull, -⟩ | ⟨-, -, hslot⟩
      · exact .inl hkey
      · omega
      · exact .inr hslot.symm
  · rw [count, sum_values_increment, h.total, List.length_append]
    rfl
  · intro k hk hne
    unfold count at hk ⊢
    rw [mem_keys_increment] at hk
    rw [get?_increment, List.count_append, List.count_singleton]
    rcases hslot with ⟨hkey, hslot⟩ | ⟨hkey, -, hslot⟩ | ⟨hkey, hroom, hslot⟩
    · rw [hslot] at hk ⊢
      have hmem : k ∈ d.keys := by
        rcases hk with hmem | rfl
        · exact hmem
        · exact hkey
      rw [h.exact k hmem hne]
      simp only [beq_iff_eq]
    · rw [hslot] at hk ⊢
      have hmem : k ∈ d.keys := hk.resolve_right hne
      have hother : other ≠ k := fun heq => hne heq.symm
      have hnew : key ≠ k := by
        rintro rfl
        exact hkey hmem
      rw [h.exact k hmem hne, if_neg hother, if_neg (by simpa using hnew)]
    · rw [hslot] at hk ⊢
      rcases hk with hmem | rfl
      · rw [h.exact k hmem hne]
        simp only [beq_iff_eq]
      · have hcount : items.count k = 0 :=
          List.count_eq_zero.mpr fun hitem => hkey (h.complete hroom k hitem)
        have hget : d.get? k = none := by
          rw [← Option.not_isSome_iff_eq_none, d.get?_isSome_iff]
          exact hkey
        rw [hget, hcount]
        simp
  · have hget : ((count capacity other d key).get? other).getD 0 =
        (d.get? other).getD 0 +
          if slot capacity other d key = other then 1 else 0 :=
      get?_increment _ _ _
    rw [List.countP_append, h.countP_folded, ← h.overflow, hget,
      List.countP_singleton]
    simp only [decide_eq_true_eq, slot_eq_other_iff]

/-- An item with the overflow key leaves that key in the dictionary. -/
theorem other_mem (h : Exact capacity other items d)
    (hother : other ∈ items) : other ∈ d.keys := by
  have hpos : 0 < items.countP (Folded other d) :=
    List.countP_pos_iff.mpr ⟨other, hother, decide_eq_true (.inl rfl)⟩
  rw [← h.overflow] at hpos
  rw [← d.get?_isSome_iff]
  cases hget : d.get? other with
  | none =>
      rw [hget] at hpos
      exact absurd hpos (lt_irrefl 0)
  | some n => rfl

/-- The overflow key counts its own items and those without an entry. -/
theorem overflow_eq (h : Exact capacity other items d) :
    (d.get? other).getD 0 =
      items.count other + items.countP fun key => key ∉ d.keys := by
  rw [h.overflow]
  have hmem : ∀ key ∈ items, key = other → key ∈ d.keys := by
    rintro key hkey rfl
    exact h.other_mem hkey
  clear h
  induction items with
  | nil => rfl
  | cons key items ih =>
      obtain ⟨hfirst, hrest⟩ := List.forall_mem_cons.mp hmem
      rw [List.countP_cons, List.countP_cons, List.count_cons, ih hrest]
      by_cases hkey : key = other
      · have hpresent := hfirst hkey
        simp [Folded, hkey ▸ hpresent, hkey]
        omega
      · by_cases hentry : key ∈ d.keys
        · simp [Folded, hkey, hentry]
        · simp [Folded, hkey, hentry]
          omega

end Exact

end OverflowCounts
