import Mathlib.Tactic

/-!
# A ledger of slots

Connections take a slot in a group and under an owner, and give it back.  The
ledger keeps, besides the slots themselves, the members of every group, a
total and a count for every owner.  `Balanced` says that the three agree with
the slots; taking and releasing keep it.
-/

namespace SlotLedger

variable {κ ι : Type*}

@[ext] structure Ledger (κ ι : Type*) where
  /-- By connection: its group and owner while it has a slot. -/
  slots : List (Option (κ × ι))
  members : κ → List ℕ
  total : ℕ
  perOwner : ι → ℕ

namespace Ledger

def empty : Ledger κ ι :=
  ⟨[], fun _ => [], 0, fun _ => 0⟩

variable [DecidableEq κ] [DecidableEq ι]

def take (l : Ledger κ ι) (group : κ) (owner : ι) : Ledger κ ι where
  slots := l.slots ++ [some (group, owner)]
  members := fun g =>
    if group = g then l.members g ++ [l.slots.length] else l.members g
  total := l.total + 1
  perOwner := fun o => if owner = o then l.perOwner o + 1 else l.perOwner o

def release (l : Ledger κ ι) (i : ℕ) (group : κ) (owner : ι) :
    Ledger κ ι where
  slots := l.slots.set i none
  members := fun g =>
    if group = g then (l.members g).filter (· ≠ i) else l.members g
  total := l.total - 1
  perOwner := fun o => if owner = o then l.perOwner o - 1 else l.perOwner o

def ownedBy (l : Ledger κ ι) (owner : ι) : ℕ :=
  l.slots.countP fun slot => slot.any fun s => s.2 = owner

structure Balanced (l : Ledger κ ι) : Prop where
  members : ∀ group i, i ∈ l.members group ↔
    ∃ owner, l.slots[i]? = some (some (group, owner))
  total : l.total = l.slots.countP Option.isSome
  perOwner : ∀ owner, l.perOwner owner = l.ownedBy owner

omit [DecidableEq κ] in
theorem balanced_empty : (empty : Ledger κ ι).Balanced :=
  ⟨by simp [empty], rfl, fun _ => rfl⟩

theorem Balanced.take {l : Ledger κ ι} (hl : l.Balanced) (group : κ)
    (owner : ι) : (l.take group owner).Balanced := by
  refine ⟨fun g i => ?_, ?_, fun o => ?_⟩
  · rcases lt_trichotomy i l.slots.length with hlt | rfl | hgt
    · have hold := hl.members g i
      have hne : i ≠ l.slots.length := hlt.ne
      simp only [Ledger.take, List.getElem?_append_left hlt]
      split_ifs
      · simpa [hne] using hold
      · exact hold
    · have hnew := hl.members g l.slots.length
      simp only [List.getElem?_eq_none le_rfl, reduceCtorEq, exists_false,
        iff_false] at hnew
      simp only [Ledger.take, List.getElem?_concat_length, Option.some.injEq,
        Prod.mk.injEq, exists_and_left, exists_eq', and_true]
      split_ifs with hg
      · simp [hg]
      · simp [hg, hnew]
    · have hnone := hl.members g i
      have hne : i ≠ l.slots.length := hgt.ne'
      rw [List.getElem?_eq_none hgt.le] at hnone
      simp only [Ledger.take]
      rw [List.getElem?_eq_none (by simpa using hgt)]
      split_ifs
      · simpa [hne] using hnone
      · simpa using hnone
  · simp [Ledger.take, hl.total]
  · have hold := hl.perOwner o
    unfold ownedBy at hold
    simp only [Ledger.take, ownedBy, List.countP_append, hold]
    split_ifs with ho
    · simp [ho]
    · simp [ho]

theorem Balanced.release {l : Ledger κ ι} (hl : l.Balanced) {i : ℕ}
    {group : κ} {owner : ι}
    (hi : l.slots[i]? = some (some (group, owner))) :
    (l.release i group owner).Balanced := by
  obtain ⟨hlt, hslot⟩ := List.getElem?_eq_some_iff.mp hi
  refine ⟨fun g k => ?_, ?_, fun o => ?_⟩
  · have hold := hl.members g k
    simp only [Ledger.release, List.getElem?_set]
    by_cases hk : i = k
    · subst hk
      rw [if_pos rfl, if_pos hlt]
      split_ifs with hg
      · simp
      · simp only [Option.some.injEq, reduceCtorEq, exists_false, iff_false]
        rw [hold]
        rintro ⟨o, ho⟩
        rw [hi] at ho
        exact hg (by simpa using congrArg (fun s => s.map (·.map Prod.fst)) ho)
    · rw [if_neg hk]
      split_ifs
      · simpa [Ne.symm hk] using hold
      · exact hold
  · simp [Ledger.release, List.countP_set hlt, hslot, hl.total]
  · have hold := hl.perOwner o
    unfold ownedBy at hold
    simp only [Ledger.release, ownedBy, List.countP_set hlt, hslot, hold]
    by_cases ho : owner = o
    · simp [ho]
    · simp [ho]

omit [DecidableEq κ] in
theorem Balanced.not_member {l : Ledger κ ι} (hl : l.Balanced) {i : ℕ}
    (hi : l.slots[i]? = some none) (group : κ) : i ∉ l.members group := by
  rw [hl.members, hi]
  simp

/-! ## Members and counts -/

/-- No group lists a connection twice. -/
def Proper (l : Ledger κ ι) : Prop :=
  ∀ group, (l.members group).Nodup

theorem Balanced.take_proper {l : Ledger κ ι} (hl : l.Balanced)
    (hproper : l.Proper) (group : κ) (owner : ι) :
    (l.take group owner).Proper := by
  intro g
  have hold := hproper g
  have hnew : l.slots.length ∉ l.members g := by
    rw [hl.members, List.getElem?_eq_none le_rfl]
    simp
  simp only [Ledger.take]
  split_ifs
  · exact hold.append (List.nodup_singleton _) (by simpa using hnew)
  · exact hold

theorem Proper.release {l : Ledger κ ι} (hproper : l.Proper) (i : ℕ)
    (group : κ) (owner : ι) : (l.release i group owner).Proper := by
  intro g
  simp only [Ledger.release]
  split_ifs
  · exact (hproper g).filter _
  · exact hproper g

theorem countP_eq_range {α : Type*} (p : α → Bool) (xs : List α) :
    xs.countP p = (List.range xs.length).countP fun i => xs[i]?.any p := by
  induction xs with
  | nil => rfl
  | cons x xs ih =>
      rw [List.length_cons, List.range_succ_eq_map, List.countP_cons,
        List.countP_cons, List.countP_map, ih]
      rfl

omit [DecidableEq κ] in
/-- The connections with a slot, in the order of the groups. -/
theorem Balanced.members_perm {l : Ledger κ ι} (hl : l.Balanced)
    (hproper : l.Proper) {groups : List κ} (hgroups : groups.Nodup)
    (hcover : ∀ group, l.members group ≠ [] → group ∈ groups) :
    (groups.flatMap l.members).Perm
      ((List.range l.slots.length).filter fun i =>
        l.slots[i]?.any Option.isSome) := by
  have hdisjoint : groups.Pairwise
      (Function.onFun List.Disjoint l.members) := by
    apply hgroups.imp
    intro g g' hne i hi hi'
    rcases (hl.members g i).mp hi with ⟨owner, hslot⟩
    rcases (hl.members g' i).mp hi' with ⟨owner', hslot'⟩
    rw [hslot] at hslot'
    exact hne (Prod.mk.inj (Option.some.inj (Option.some.inj hslot'))).1
  have hnodup : (groups.flatMap l.members).Nodup :=
    List.nodup_flatMap.mpr ⟨fun g _ => hproper g, hdisjoint⟩
  apply (List.perm_ext_iff_of_nodup hnodup
    (List.nodup_range.filter _)).mpr
  intro i
  rw [List.mem_flatMap, List.mem_filter, List.mem_range]
  constructor
  · rintro ⟨g, _, hi⟩
    rcases (hl.members g i).mp hi with ⟨owner, hslot⟩
    exact ⟨(List.getElem?_eq_some_iff.mp hslot).1, by simp [hslot]⟩
  · rintro ⟨hlt, hsome⟩
    rw [List.getElem?_eq_getElem hlt, Option.any_some] at hsome
    rcases Option.isSome_iff_exists.mp hsome with ⟨⟨g, owner⟩, hslot⟩
    have hi : i ∈ l.members g := by
      rw [hl.members, List.getElem?_eq_getElem hlt, hslot]
      exact ⟨owner, rfl⟩
    exact ⟨g, hcover g (List.ne_nil_of_mem hi), hi⟩

section Counts

variable {l : Ledger κ ι} {groups : List κ}

omit [DecidableEq κ] in
theorem Balanced.members_nodup (hl : l.Balanced) (hproper : l.Proper)
    (hgroups : groups.Nodup)
    (hcover : ∀ group, l.members group ≠ [] → group ∈ groups) :
    (groups.flatMap l.members).Nodup :=
  (hl.members_perm hproper hgroups hcover).nodup_iff.mpr
    (List.nodup_range.filter _)

omit [DecidableEq κ] in
theorem Balanced.total_eq (hl : l.Balanced) (hproper : l.Proper)
    (hgroups : groups.Nodup)
    (hcover : ∀ group, l.members group ≠ [] → group ∈ groups) :
    l.total = (groups.flatMap l.members).length := by
  rw [(hl.members_perm hproper hgroups hcover).length_eq, hl.total,
    countP_eq_range, List.countP_eq_length_filter]

omit [DecidableEq κ] in
theorem Balanced.perOwner_eq (hl : l.Balanced) (hproper : l.Proper)
    (hgroups : groups.Nodup)
    (hcover : ∀ group, l.members group ≠ [] → group ∈ groups) (owner : ι) :
    l.perOwner owner = (groups.flatMap l.members).countP fun i =>
      l.slots[i]?.any fun slot => slot.any fun s => s.2 = owner := by
  rw [(hl.members_perm hproper hgroups hcover).countP_eq, hl.perOwner,
    ownedBy, countP_eq_range, List.countP_filter]
  apply List.countP_congr
  intro i _
  cases hslot : l.slots[i]? with
  | none => simp
  | some slot => cases slot <;> simp

end Counts

end Ledger

end SlotLedger
