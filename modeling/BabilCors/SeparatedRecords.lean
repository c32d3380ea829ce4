import Mathlib.Tactic

/-!
# Records of separated fields

A record is its fields with a separator between them, and a text is its records
with a pair of marks behind each.  Splitting a text gives back as many records
and fields as went in exactly when no field has a separator or such a pair.
-/

namespace SeparatedRecords

variable {α : Type*} [DecidableEq α]

/-! ## Splitting at a pair -/

/-- The parts of a text between the occurrences of two marks in a row. -/
def splitPair (a b : α) : List α → List (List α)
  | [] => [[]]
  | [x] => [[x]]
  | x :: y :: rest =>
      if x = a ∧ y = b then [] :: splitPair a b rest
      else (splitPair a b (y :: rest)).modifyHead (x :: ·)

def joinLines (a b : α) (lines : List (List α)) : List α :=
  lines.flatMap (· ++ [a, b])

variable {a b : α}

omit [DecidableEq α] in
theorem joinLines_eq {lines : List (List α)} (hlines : lines ≠ []) :
    joinLines a b lines = [a, b].intercalate lines ++ [a, b] := by
  induction lines with
  | nil => exact absurd rfl hlines
  | cons line lines ih =>
      cases lines with
      | nil => simp [joinLines]
      | cons next lines =>
          rw [List.intercalate_cons_cons, List.append_assoc,
            ← ih (List.cons_ne_nil _ _)]
          rfl

theorem splitPair_ne_nil (l : List α) : splitPair a b l ≠ [] := by
  fun_induction splitPair a b l with
  | case1 => exact List.cons_ne_nil _ _
  | case2 x => exact List.cons_ne_nil _ _
  | case3 x y rest hpair ih => exact List.cons_ne_nil _ _
  | case4 x y rest hpair ih =>
      intro hnil
      exact ih (List.modifyHead_eq_nil_iff.mp hnil)

omit [DecidableEq α] in
theorem modifyHead_append {f : List α → List α} {parts : List (List α)}
    (hparts : parts ≠ []) (rest : List (List α)) :
    (parts ++ rest).modifyHead f = parts.modifyHead f ++ rest := by
  cases parts with
  | nil => exact absurd rfl hparts
  | cons part parts => rfl

theorem splitPair_append (hab : a ≠ b) (l rest : List α) :
    splitPair a b (l ++ a :: b :: rest) =
      splitPair a b l ++ splitPair a b rest := by
  fun_induction splitPair a b l with
  | case1 =>
      rw [List.nil_append, splitPair, if_pos ⟨rfl, rfl⟩]
      rfl
  | case2 x =>
      rw [List.singleton_append, splitPair, if_neg fun h => hab h.2,
        splitPair, if_pos ⟨rfl, rfl⟩]
      rfl
  | case3 x y tail hpair ih =>
      rw [List.cons_append, List.cons_append, splitPair, if_pos hpair, ih]
      rfl
  | case4 x y tail hpair ih =>
      rw [List.cons_append, List.cons_append, splitPair, if_neg hpair,
        ← List.cons_append, ih, modifyHead_append (splitPair_ne_nil _)]

theorem splitPair_joinLines (hab : a ≠ b) (lines : List (List α)) :
    splitPair a b (joinLines a b lines) =
      lines.flatMap (splitPair a b) ++ [[]] := by
  induction lines with
  | nil => rfl
  | cons line lines ih =>
      have hjoin : joinLines a b (line :: lines) =
          line ++ a :: b :: joinLines a b lines := by
        simp [joinLines]
      rw [hjoin, splitPair_append hab, ih, List.flatMap_cons,
        List.append_assoc]

theorem splitPair_of_noPair {l : List α} (hpair : ¬ [a, b] <:+: l) :
    splitPair a b l = [l] := by
  fun_induction splitPair a b l with
  | case1 => rfl
  | case2 x => rfl
  | case3 x y rest hxy ih =>
      rw [hxy.1, hxy.2] at hpair
      exact absurd (List.prefix_append [a, b] rest).isInfix hpair
  | case4 x y rest hxy ih =>
      rw [ih fun hin => hpair (hin.trans (List.suffix_cons _ _).isInfix)]
      rfl

theorem length_splitPair_eq_one (hab : a ≠ b) {l : List α} :
    (splitPair a b l).length = 1 ↔ ¬ [a, b] <:+: l := by
  constructor
  · rintro hlength ⟨front, rest, hl⟩
    have hlist : l = front ++ a :: b :: rest := by
      simpa using hl.symm
    rw [hlist, splitPair_append hab, List.length_append] at hlength
    have hfront := List.length_pos_of_ne_nil
      (splitPair_ne_nil (a := a) (b := b) front)
    have hrest := List.length_pos_of_ne_nil
      (splitPair_ne_nil (a := a) (b := b) rest)
    omega
  · intro hpair
    rw [splitPair_of_noPair hpair, List.length_singleton]

theorem pair_infix_append {sep : α} (ha : sep ≠ a) (hb : sep ≠ b)
    {l rest : List α} :
    [a, b] <:+: l ++ sep :: rest ↔ [a, b] <:+: l ∨ [a, b] <:+: rest := by
  constructor
  · intro hin
    fun_induction splitPair a b l with
    | case1 =>
        right
        rcases List.infix_cons_iff.mp hin with hfirst | hrest
        · rcases List.cons_prefix_cons.mp hfirst with ⟨h, _⟩
          exact absurd h.symm ha
        · exact hrest
    | case2 x =>
        rcases List.infix_cons_iff.mp hin with hfirst | hrest
        · rcases List.cons_prefix_cons.mp hfirst with ⟨_, hsecond⟩
          rcases List.cons_prefix_cons.mp hsecond with ⟨h, _⟩
          exact absurd h.symm hb
        · rcases List.infix_cons_iff.mp hrest with hfirst | hrest
          · rcases List.cons_prefix_cons.mp hfirst with ⟨h, _⟩
            exact absurd h.symm ha
          · exact .inr hrest
    | case3 x y tail hxy ih =>
        left
        rw [hxy.1, hxy.2]
        exact (List.prefix_append [a, b] tail).isInfix
    | case4 x y tail hxy ih =>
        rcases List.infix_cons_iff.mp hin with hfirst | hrest
        · rcases List.cons_prefix_cons.mp hfirst with ⟨hx, hsecond⟩
          rcases List.cons_prefix_cons.mp hsecond with ⟨hy, _⟩
          exact absurd ⟨hx.symm, hy.symm⟩ hxy
        · rcases ih hrest with hleft | hright
          · exact .inl (hleft.trans (List.suffix_cons _ _).isInfix)
          · exact .inr hright
  · rintro (hleft | hright)
    · exact hleft.trans (List.prefix_append _ _).isInfix
    · exact hright.trans
        ((List.suffix_cons _ _).trans (List.suffix_append _ _)).isInfix

/-! ## Splitting at a separator -/

variable {sep : α}

theorem splitOn_intercalate_eq {fields : List (List α)}
    (hfields : fields ≠ []) :
    ([sep].intercalate fields).splitOn sep =
      fields.flatMap (·.splitOn sep) := by
  induction fields with
  | nil => exact absurd rfl hfields
  | cons field fields ih =>
      cases fields with
      | nil => simp
      | cons next fields =>
          rw [List.intercalate_cons_cons, List.append_assoc,
            List.singleton_append,
            List.splitOn_append_cons_self, ih (List.cons_ne_nil _ _)]
          rfl

theorem length_splitOn_eq_one {l : List α} :
    (l.splitOn sep).length = 1 ↔ sep ∉ l := by
  constructor
  · intro hlength hmem
    obtain ⟨front, rest, rfl⟩ := List.append_of_mem hmem
    rw [List.splitOn_append_cons_self, List.length_append] at hlength
    have hfront := List.length_pos_of_ne_nil (List.splitOn_ne_nil sep front)
    have hrest := List.length_pos_of_ne_nil (List.splitOn_ne_nil sep rest)
    omega
  · intro hmem
    rw [List.splitOn_eq_singleton hmem, List.length_singleton]

theorem pair_infix_intercalate (ha : sep ≠ a) (hb : sep ≠ b)
    {fields : List (List α)} :
    [a, b] <:+: [sep].intercalate fields ↔
      ∃ field ∈ fields, [a, b] <:+: field := by
  induction fields with
  | nil => simp
  | cons field fields ih =>
      cases fields with
      | nil => simp
      | cons next fields =>
          rw [List.intercalate_cons_cons, List.append_assoc,
            List.singleton_append,
            pair_infix_append ha hb, ih,
            List.exists_mem_cons_iff _ field]

/-! ## As many parts as went in -/

omit [DecidableEq α] in
theorem length_split_of_flatMap {split : List α → List (List α)}
    (hsplit : ∀ part, split part ≠ []) {parts : List (List α)}
    (hlength : (parts.flatMap split).length = parts.length) :
    ∀ part ∈ parts, (split part).length = 1 := by
  have hle (parts : List (List α)) :
      parts.length ≤ (parts.flatMap split).length := by
    induction parts with
    | nil => exact Nat.zero_le _
    | cons part parts ih =>
        have hpart := List.length_pos_of_ne_nil (hsplit part)
        rw [List.flatMap_cons, List.length_append, List.length_cons]
        omega
  induction parts with
  | nil => exact List.forall_mem_nil _
  | cons part parts ih =>
      have hpart := List.length_pos_of_ne_nil (hsplit part)
      have hrest := hle parts
      rw [List.flatMap_cons, List.length_append, List.length_cons] at hlength
      rw [List.forall_mem_cons]
      exact ⟨by omega, ih (by omega)⟩

omit [DecidableEq α] in
theorem flatMap_eq_self {split : List α → List (List α)}
    {parts : List (List α)} (hparts : ∀ part ∈ parts, split part = [part]) :
    parts.flatMap split = parts := by
  induction parts with
  | nil => rfl
  | cons part parts ih =>
      rw [List.forall_mem_cons] at hparts
      rw [List.flatMap_cons, hparts.1, ih hparts.2, List.singleton_append]

/-- A text splits into as many lines as went in only if no line has the pair,
and then into these lines. -/
theorem splitPair_lines_iff (hab : a ≠ b) {lines parts : List (List α)}
    (hlength : parts.length = lines.length) :
    splitPair a b (joinLines a b lines) = parts ++ [[]] ↔
      parts = lines ∧ ∀ line ∈ lines, ¬ [a, b] <:+: line := by
  rw [splitPair_joinLines hab, List.append_cancel_right_eq]
  constructor
  · intro hparts
    have hpair : ∀ line ∈ lines, ¬ [a, b] <:+: line := by
      intro line hline
      rw [← length_splitPair_eq_one hab]
      refine length_split_of_flatMap splitPair_ne_nil ?_ line hline
      rw [hparts, hlength]
    refine ⟨?_, hpair⟩
    rw [← hparts]
    exact flatMap_eq_self fun line hline =>
      splitPair_of_noPair (hpair line hline)
  · rintro ⟨rfl, hpair⟩
    exact flatMap_eq_self fun line hline =>
      splitPair_of_noPair (hpair line hline)

/-- A record splits into as many fields as went in only if no field has the
separator, and then into these fields. -/
theorem length_splitOn_fields {fields : List (List α)}
    (hfields : fields ≠ []) :
    (([sep].intercalate fields).splitOn sep).length = fields.length ↔
      ∀ field ∈ fields, sep ∉ field := by
  constructor
  · intro hlength field hfield
    rw [splitOn_intercalate_eq hfields] at hlength
    exact length_splitOn_eq_one.mp (length_split_of_flatMap
      (List.splitOn_ne_nil sep) hlength field hfield)
  · intro hsep
    rw [List.splitOn_intercalate sep hsep hfields]

end SeparatedRecords
