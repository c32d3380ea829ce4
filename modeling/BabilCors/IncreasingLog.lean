import Mathlib.Tactic

/-!
# Logs that accept increasing keys only

`push` appends an item whose key is allowed and greater than the last one of
the log, and drops any other.  Over items in order of their keys this keeps the
first item of every allowed key.
-/

namespace IncreasingLog

variable {α κ : Type*} [LinearOrder κ] (key : α → κ) (ok : κ → Prop)
  [DecidablePred ok]

def Accepts (log : List α) (item : α) : Prop :=
  ok (key item) ∧ ∀ last ∈ log.getLast?, key last < key item

instance (log : List α) (item : α) : Decidable (Accepts key ok log item) :=
  inferInstanceAs (Decidable (_ ∧ _))

def push (log : List α) (item : α) : List α :=
  if Accepts key ok log item then log ++ [item] else log

def pushAll (log items : List α) : List α :=
  items.foldl (push key ok) log

variable {key ok}

theorem prefix_push (log : List α) (item : α) :
    log <+: push key ok log item := by
  unfold push
  split_ifs
  · exact List.prefix_append _ _
  · exact List.prefix_rfl

theorem prefix_pushAll (log items : List α) :
    log <+: pushAll key ok log items := by
  induction items generalizing log with
  | nil => exact List.prefix_rfl
  | cons item items ih => exact (prefix_push log item).trans (ih _)

theorem pushAll_sublist (log items : List α) :
    (pushAll key ok log items).Sublist (log ++ items) := by
  induction items generalizing log with
  | nil => simp [pushAll]
  | cons item items ih =>
      refine (ih _).trans ?_
      rw [← List.singleton_append, ← List.append_assoc]
      apply List.Sublist.append_right
      unfold push
      split_ifs
      · exact List.Sublist.refl _
      · exact List.sublist_append_left _ _

/-- The keys of the log are allowed and increase. -/
def Increasing (key : α → κ) (ok : κ → Prop) (log : List α) : Prop :=
  (∀ item ∈ log, ok (key item)) ∧
    log.Pairwise fun first second => key first < key second

omit [DecidablePred ok] in
theorem Increasing.le_last {log : List α} {last item : α}
    (hlog : Increasing key ok log) (hlast : log.getLast? = some last)
    (hitem : item ∈ log) : key item ≤ key last := by
  rcases List.getLast?_eq_some_iff.mp hlast with ⟨front, rfl⟩
  rcases List.mem_append.mp hitem with hfront | hmem
  · have hpairs := List.pairwise_append.mp hlog.2
    exact (hpairs.2.2 item hfront last List.mem_cons_self).le
  · rw [List.mem_singleton.mp hmem]

theorem Increasing.push {log : List α} (hlog : Increasing key ok log)
    (item : α) : Increasing key ok (push key ok log item) := by
  unfold IncreasingLog.push
  split_ifs with haccepts
  swap
  · exact hlog
  rcases haccepts with ⟨hok, hlast⟩
  constructor
  · intro a ha
    rcases List.mem_append.mp ha with hold | hnew
    · exact hlog.1 a hold
    · rw [List.mem_singleton.mp hnew]
      exact hok
  · refine List.pairwise_append.mpr ⟨hlog.2, List.pairwise_singleton _ _, ?_⟩
    intro a ha b hb
    rw [List.mem_singleton.mp hb]
    cases hend : log.getLast? with
    | none =>
        rw [List.getLast?_eq_none_iff.mp hend] at ha
        exact (List.not_mem_nil ha).elim
    | some last => exact (hlog.le_last hend ha).trans_lt (hlast last hend)

theorem Increasing.pushAll {log : List α} (hlog : Increasing key ok log)
    (items : List α) : Increasing key ok (pushAll key ok log items) := by
  induction items generalizing log with
  | nil => exact hlog
  | cons item items ih => exact ih (hlog.push item)

omit [DecidablePred ok] in
theorem increasing_nil : Increasing key ok ([] : List α) :=
  ⟨fun _ h => (List.not_mem_nil h).elim, List.Pairwise.nil⟩

/-- Over items in order, an allowed key that is pushed is in the log. -/
theorem exists_key_mem_pushAll {log items : List α}
    (hlog : Increasing key ok log)
    (hbefore : ∀ a ∈ log, ∀ b ∈ items, key a ≤ key b)
    (hsorted : items.Pairwise fun a b => key a ≤ key b) {item : α}
    (hitem : item ∈ items) (hok : ok (key item)) :
    ∃ kept ∈ pushAll key ok log items, key kept = key item := by
  induction items generalizing log with
  | nil => exact (List.not_mem_nil hitem).elim
  | cons head items ih =>
      rcases List.pairwise_cons.mp hsorted with ⟨hhead, hsorted⟩
      rcases List.mem_cons.mp hitem with rfl | hitem
      · have hkept : ∃ kept ∈ push key ok log item, key kept = key item := by
          by_cases haccepts : Accepts key ok log item
          · refine ⟨item, ?_, rfl⟩
            rw [push, if_pos haccepts]
            simp
          · rw [push, if_neg haccepts]
            have hlast : ∃ last ∈ log.getLast?, ¬ key last < key item := by
              by_contra hnone
              push Not at hnone
              exact haccepts ⟨hok, hnone⟩
            rcases hlast with ⟨last, hmem, hnot⟩
            have hlast := List.mem_of_getLast? hmem
            exact ⟨last, hlast, (hbefore last hlast item
              List.mem_cons_self).antisymm (not_lt.mp hnot)⟩
        rcases hkept with ⟨kept, hmem, hkey⟩
        exact ⟨kept, (prefix_pushAll _ items).subset hmem, hkey⟩
      · refine ih (hlog.push head) ?_ hsorted hitem
        intro a ha b hb
        have hold : a ∈ log ∨ a = head := by
          unfold push at ha
          split_ifs at ha
          · simpa using ha
          · exact .inl ha
        rcases hold with hold | rfl
        · exact hbefore a hold b (List.mem_cons_of_mem _ hb)
        · exact hhead b hb

/-- Of the items in a range of keys the log has all, exactly if their keys are
allowed and increase. -/
theorem filter_pushAll_eq_iff {items : List α} (p : κ → Bool)
    (hsorted : items.Pairwise fun a b => key a ≤ key b) :
    (pushAll key ok [] items).filter (fun a => p (key a)) =
        items.filter (fun a => p (key a)) ↔
      Increasing key ok (items.filter fun a => p (key a)) := by
  have hpushed : Increasing key ok (pushAll key ok [] items) :=
    increasing_nil.pushAll items
  have hsub : ((pushAll key ok [] items).filter fun a => p (key a)).Sublist
      (items.filter fun a => p (key a)) :=
    (pushAll_sublist [] items).filter _
  constructor
  · intro hsame
    rw [← hsame]
    exact ⟨fun a ha => hpushed.1 a (List.mem_of_mem_filter ha),
      hpushed.2.filter _⟩
  · rintro ⟨hok, hstrict⟩
    have hkeys : ((items.filter fun a => p (key a)).map key).Nodup :=
      List.pairwise_map.mpr (hstrict.imp ne_of_lt)
    refine hsub.eq_of_length_le (hkeys.of_map.subperm ?_).length_le
    intro a ha
    rcases List.mem_filter.mp ha with ⟨hmem, hp⟩
    rcases exists_key_mem_pushAll increasing_nil
      (fun b hb => (List.not_mem_nil hb).elim) hsorted hmem (hok a ha) with
        ⟨kept, hkept, hkey⟩
    have hrange : kept ∈ (pushAll key ok [] items).filter
        fun a => p (key a) :=
      List.mem_filter.mpr ⟨hkept, hkey ▸ hp⟩
    have hsame : kept = a :=
      List.inj_on_of_nodup_map hkeys (hsub.subset hrange) ha hkey
    exact hsame ▸ hrange

end IncreasingLog
