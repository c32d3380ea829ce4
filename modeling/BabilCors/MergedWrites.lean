import BabilCors.PyDict

/-!
# Writes that merge a patch into a dictionary

`update` assigns every entry of a patch.  A write of this kind, computed from
an old copy of the dictionary, has the effect it would have on the current one
exactly if the two agree on the keys that the patch leaves alone.
-/

namespace PyDict

variable {κ α : Type*} [DecidableEq κ]

/-- `d.update(patch)`. -/
def update (d patch : PyDict κ α) : PyDict κ α :=
  patch.foldl (fun d entry => d.set entry.1 entry.2) d

@[simp] theorem update_nil (d : PyDict κ α) : d.update [] = d := rfl

@[simp] theorem update_cons (d patch : PyDict κ α) (entry : κ × α) :
    d.update (entry :: patch) = (d.set entry.1 entry.2).update patch := rfl

theorem get?_update_of_notMem {patch : PyDict κ α} {key : κ}
    (hkey : key ∉ patch.keys) (d : PyDict κ α) :
    (d.update patch).get? key = d.get? key := by
  induction patch generalizing d with
  | nil => rfl
  | cons entry patch ih =>
      have hne : entry.1 ≠ key := fun h => hkey (h ▸ List.mem_cons_self)
      have hrest : key ∉ keys patch :=
        fun h => hkey (List.mem_cons_of_mem _ h)
      rw [update_cons, ih hrest, get?_set_of_ne _ _ hne]

theorem get?_update_of_mem {patch : PyDict κ α} {key : κ}
    (hkey : key ∈ patch.keys) (d d' : PyDict κ α) :
    (d.update patch).get? key = (d'.update patch).get? key := by
  induction patch generalizing d d' with
  | nil => exact (List.not_mem_nil hkey).elim
  | cons entry patch ih =>
      rw [update_cons, update_cons]
      by_cases hrest : key ∈ keys patch
      · exact ih hrest _ _
      · have hfirst : key = entry.1 := by
          rcases List.mem_cons.mp hkey with hfirst | hmem
          · exact hfirst
          · exact (hrest hmem).elim
        rw [get?_update_of_notMem hrest, get?_update_of_notMem hrest, hfirst,
          get?_set_self, get?_set_self]

theorem get?_eq_none_of_notMem {d : PyDict κ α} {key : κ}
    (hkey : key ∉ d.keys) : d.get? key = none := by
  rw [← get?_isSome_iff] at hkey
  exact Option.not_isSome_iff_eq_none.mp hkey

theorem get?_update {patch : PyDict κ α} (hkeys : patch.keys.Nodup)
    (d : PyDict κ α) (key : κ) :
    (d.update patch).get? key = (patch.get? key).or (d.get? key) := by
  induction patch generalizing d with
  | nil => rfl
  | cons entry patch ih =>
      rcases entry with ⟨k, v⟩
      rcases List.nodup_cons.mp hkeys with ⟨hnew, hrest⟩
      rw [update_cons, ih hrest, get?_cons, get?_set]
      by_cases hkey : k = key
      · subst hkey
        rw [get?_eq_none_of_notMem hnew, if_pos rfl, if_pos rfl]
        rfl
      · rw [if_neg hkey, if_neg hkey]

theorem get?_filter {d : PyDict κ α} (hkeys : d.keys.Nodup) (key : κ)
    (keep : α → Bool) :
    get? (d.filter fun entry => keep entry.2) key =
      (d.get? key).filter keep := by
  induction d with
  | nil => rfl
  | cons entry d ih =>
      rcases entry with ⟨k, v⟩
      rcases List.nodup_cons.mp hkeys with ⟨hnew, hrest⟩
      rw [List.filter_cons, get?_cons]
      by_cases hkey : k = key
      · subst hkey
        have hbehind := ih hrest
        rw [get?_eq_none_of_notMem hnew] at hbehind
        rw [if_pos rfl, Option.filter_some]
        by_cases hkeep : keep v = true
        · rw [if_pos hkeep, if_pos hkeep, get?_cons, if_pos rfl]
        · rw [if_neg hkeep, if_neg hkeep, hbehind, Option.filter_none]
      · by_cases hkeep : keep v = true
        · rw [if_pos hkeep, get?_cons, if_neg hkey, if_neg hkey, ih hrest]
        · rw [if_neg hkeep, if_neg hkey, ih hrest]

/-- The dictionaries agree on the keys that are not ignored. -/
def AgreeOff (ignored : κ → Prop) (d d' : PyDict κ α) : Prop :=
  ∀ key, ¬ ignored key → d.get? key = d'.get? key

variable {ignored : κ → Prop} {d d' d'' patch : PyDict κ α}

theorem AgreeOff.refl (d : PyDict κ α) : AgreeOff ignored d d :=
  fun _ _ => rfl

theorem AgreeOff.symm (h : AgreeOff ignored d d') : AgreeOff ignored d' d :=
  fun key hkey => (h key hkey).symm

theorem AgreeOff.trans (h : AgreeOff ignored d d')
    (h' : AgreeOff ignored d' d'') : AgreeOff ignored d d'' :=
  fun key hkey => (h key hkey).trans (h' key hkey)

theorem AgreeOff.set {key : κ} (hkey : ignored key) (d : PyDict κ α)
    (value : α) : AgreeOff ignored (d.set key value) d := by
  intro other hother
  apply get?_set_of_ne
  rintro rfl
  exact hother hkey

/-- A patch written over an old copy does what it does to the current one
exactly if they agree on the keys that it leaves alone. -/
theorem agreeOff_update_iff :
    AgreeOff ignored (d.update patch) (d'.update patch) ↔
      AgreeOff (fun key => ignored key ∨ key ∈ patch.keys) d d' := by
  constructor
  · intro hagree key hkey
    rcases not_or.mp hkey with ⟨hignored, hpatch⟩
    have hsame := hagree key hignored
    rwa [get?_update_of_notMem hpatch, get?_update_of_notMem hpatch] at hsame
  · intro hagree key hignored
    by_cases hpatch : key ∈ patch.keys
    · exact get?_update_of_mem hpatch d d'
    · rw [get?_update_of_notMem hpatch, get?_update_of_notMem hpatch]
      exact hagree key (not_or.mpr ⟨hignored, hpatch⟩)

theorem AgreeOff.update (h : AgreeOff ignored d d') (patch : PyDict κ α) :
    AgreeOff ignored (d.update patch) (d'.update patch) :=
  agreeOff_update_iff.mpr fun key hkey => h key (not_or.mp hkey).1

theorem set_of_notMem {d : PyDict κ α} {key : κ} (hkey : key ∉ d.keys)
    (value : α) : d.set key value = d ++ [(key, value)] := by
  induction d with
  | nil => rfl
  | cons entry d ih =>
      obtain ⟨k, v⟩ := entry
      rw [keys, List.map_cons, List.mem_cons, not_or] at hkey
      rw [set, if_neg fun h => hkey.1 h.symm, ih hkey.2, List.cons_append]

theorem update_append {d patch : PyDict κ α}
    (hkeys : (d ++ patch : PyDict κ α).keys.Nodup) :
    d.update patch = d ++ patch := by
  induction patch generalizing d with
  | nil => simp
  | cons entry patch ih =>
      have hnew : entry.1 ∉ d.keys := by
        rw [keys, List.map_append, List.map_cons] at hkeys
        intro hmem
        exact (List.nodup_append.mp hkeys).2.2 _ hmem _ List.mem_cons_self rfl
      have happend : d ++ entry :: patch = (d ++ [entry]) ++ patch := by
        simp
      rw [happend] at hkeys ⊢
      rw [update_cons, set_of_notMem hnew, ih hkeys]

/-- `dict` of pairs with distinct keys. -/
theorem update_nil_of_nodup {d : PyDict κ α} (hkeys : d.keys.Nodup) :
    update [] d = d :=
  update_append hkeys

end PyDict
