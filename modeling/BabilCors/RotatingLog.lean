import Mathlib.Tactic

/-!
# Logs that are closed when full

The newest items stand in the current segment.  A full segment is closed, and
of the closed ones the newest few are kept.  So the log always keeps the end of
what was written, and what it loses is the oldest closed segment as a whole.
-/

/-- The closed segments stand newest first. -/
structure RotatingLog (α : Type*) where
  current : List α
  closed : List (List α)

namespace RotatingLog

variable {α : Type*}

def empty : RotatingLog α := ⟨[], []⟩

/-- What the log keeps, oldest first. -/
def kept (log : RotatingLog α) : List α :=
  log.closed.reverse.flatten ++ log.current

def write (keep : ℕ) (full : List α → Bool) (log : RotatingLog α) (a : α) :
    RotatingLog α :=
  let current := log.current ++ [a]
  if full current then ⟨[], (current :: log.closed).take keep⟩
  else ⟨current, log.closed⟩

def writeAll (keep : ℕ) (full : List α → Bool) (items : List α) :
    RotatingLog α :=
  items.foldl (write keep full) empty

variable {keep : ℕ} {full : List α → Bool}

theorem writeAll_concat (items : List α) (a : α) :
    writeAll keep full (items ++ [a]) =
      write keep full (writeAll keep full items) a := by
  simp [writeAll]

/-! ## Segments -/

/-- An item found the segment short of full, or opened it. -/
def Fits (full : List α → Bool) (segment : List α) : Prop :=
  segment = [] ∨ full segment = false

structure WellFormed (keep : ℕ) (full : List α → Bool)
    (log : RotatingLog α) : Prop where
  few : log.closed.length ≤ keep
  current : Fits full log.current
  closed : ∀ segment ∈ log.closed, ∃ front a,
    segment = front ++ [a] ∧ Fits full front

theorem WellFormed.empty : WellFormed keep full (empty : RotatingLog α) := by
  constructor
  · exact Nat.zero_le _
  · exact .inl rfl
  · intro segment hsegment
    cases hsegment

theorem WellFormed.write {log : RotatingLog α}
    (hlog : WellFormed keep full log) (a : α) :
    WellFormed keep full (write keep full log a) := by
  unfold RotatingLog.write
  dsimp only
  split
  · constructor
    · exact List.length_take_le _ _
    · exact .inl rfl
    · intro segment hsegment
      rcases List.mem_cons.mp (List.mem_of_mem_take hsegment) with rfl | hold
      · exact ⟨log.current, a, rfl, hlog.current⟩
      · exact hlog.closed segment hold
  · rename_i hshort
    exact ⟨hlog.few, .inr (Bool.eq_false_iff.mpr hshort), hlog.closed⟩

theorem wellFormed_writeAll (items : List α) :
    WellFormed keep full (writeAll keep full items) := by
  induction items using List.reverseRecOn with
  | nil => exact .empty
  | append_singleton items a ih =>
      rw [writeAll_concat]
      exact ih.write a

/-! ## What is kept -/

/-- What a write loses: nothing, or the oldest of as many closed segments as
are kept. -/
structure Loses (keep : ℕ) (log : RotatingLog α) (a : α)
    (after : RotatingLog α) (gone : List α) : Prop where
  kept : log.kept ++ [a] = gone ++ after.kept
  oldest : gone = [] ∨
    log.closed.length = keep ∧ log.closed.getLast? = some gone

theorem drop_pred {closed : List (List α)} (hkeep : 1 ≤ keep)
    (hfew : closed.length ≤ keep) :
    closed.drop (keep - 1) = [] ∨ closed.length = keep ∧
      ∃ gone, closed.getLast? = some gone ∧
        closed.drop (keep - 1) = [gone] := by
  rcases hfew.lt_or_eq with hless | rfl
  · left
    rw [List.drop_eq_nil_iff]
    omega
  · right
    have hne : closed ≠ [] := by
      rintro rfl
      exact absurd hkeep (Nat.not_succ_le_zero 0)
    refine ⟨rfl, closed.getLast hne, List.getLast?_eq_some_getLast hne, ?_⟩
    exact List.drop_length_sub_one hne

theorem write_loses {log : RotatingLog α} (hkeep : 1 ≤ keep)
    (hlog : WellFormed keep full log) (a : α) :
    ∃ gone, Loses keep log a (write keep full log a) gone := by
  unfold write
  dsimp only
  split
  swap
  · refine ⟨[], ?_, .inl rfl⟩
    simp [kept]
  have hkept : log.kept ++ [a] =
      ((log.current ++ [a]) :: log.closed).reverse.flatten := by
    simp [kept]
  have hsplit : ((log.current ++ [a]) :: log.closed).reverse =
      (log.closed.drop (keep - 1)).reverse ++
        (((log.current ++ [a]) :: log.closed).take keep).reverse := by
    obtain ⟨n, rfl⟩ := Nat.exists_eq_add_of_le' hkeep
    rw [← List.reverse_append, List.take_succ_cons, Nat.add_sub_cancel,
      List.cons_append, List.take_append_drop]
  rcases drop_pred hkeep hlog.few with hnone | ⟨hfull, gone, hlast, hdrop⟩
  · refine ⟨[], ?_, .inl rfl⟩
    rw [hkept, hsplit, hnone]
    simp [kept]
  · refine ⟨gone, ?_, .inr ⟨hfull, hlast⟩⟩
    rw [hkept, hsplit, hdrop]
    simp [kept]

theorem writeAll_kept_suffix (hkeep : 1 ≤ keep) (items : List α) :
    (writeAll keep full items).kept <:+ items := by
  induction items using List.reverseRecOn with
  | nil => exact List.suffix_rfl
  | append_singleton items a ih =>
      rcases write_loses hkeep (wellFormed_writeAll items) a with
        ⟨gone, hgone⟩
      rw [writeAll_concat]
      rcases ih with ⟨lost, hlost⟩
      refine ⟨lost ++ gone, ?_⟩
      rw [List.append_assoc, ← hgone.kept, ← List.append_assoc, hlost]

theorem write_kept_getLast? (hkeep : 1 ≤ keep) (log : RotatingLog α)
    (a : α) : (write keep full log a).kept.getLast? = some a := by
  unfold write
  dsimp only
  split
  · obtain ⟨n, rfl⟩ := Nat.exists_eq_add_of_le' hkeep
    simp [kept]
  · simp [kept]

theorem writeAll_kept_getLast? (hkeep : 1 ≤ keep) (items : List α) :
    (writeAll keep full items).kept.getLast? = items.getLast? := by
  induction items using List.reverseRecOn with
  | nil => rfl
  | append_singleton items a _ =>
      rw [writeAll_concat, write_kept_getLast? hkeep, List.getLast?_concat]

end RotatingLog
