import Mathlib.Tactic
import Mathlib.Data.List.Chain

/-!
# Numbered parts of series

Parts arrive one after another; some start a series, and one may follow the
part before it.  In a run from a start the numbers count up, and what a part
shares with the next one they all share.  A history where every part starts a
series or follows the part before it ends in such a run at every part.
-/

namespace OrderedRuns

variable {α : Type*}

section Runs

variable (starts : α → Prop) (follows : α → α → Prop)

/-- A start, and then each part following the one before it. -/
structure IsRun (parts : List α) : Prop where
  head : ∀ first ∈ parts.head?, starts first
  chain : parts.IsChain follows

/-- Every part starts a series or follows the part before it. -/
structure InOrder (history : List α) : Prop where
  head : ∀ first ∈ history.head?, starts first
  chain : history.IsChain fun previous part =>
    starts part ∨ follows previous part

variable {starts follows}

/-- The last part of a run is its start or follows a shorter run. -/
theorem IsRun.last {parts : List α} {part : α}
    (hrun : IsRun starts follows (parts ++ [part])) :
    (parts = [] ∧ starts part) ∨
      ∃ previous, parts.getLast? = some previous ∧ follows previous part ∧
        IsRun starts follows parts := by
  obtain ⟨hchain, -, hlink⟩ := List.isChain_append.mp hrun.chain
  cases hprevious : parts.getLast? with
  | none =>
      obtain rfl := List.getLast?_eq_none_iff.mp hprevious
      exact .inl ⟨rfl, hrun.head part rfl⟩
  | some previous =>
      refine .inr ⟨previous, rfl, hlink previous hprevious part rfl, ?_,
        hchain⟩
      intro first hfirst
      apply hrun.head
      rw [List.head?_append, Option.mem_def.mp hfirst]
      rfl

theorem IsRun.concat {parts : List α} {previous part : α}
    (hrun : IsRun starts follows parts)
    (hprevious : parts.getLast? = some previous)
    (hfollows : follows previous part) :
    IsRun starts follows (parts ++ [part]) where
  head := by
    have hne : parts ≠ [] := by
      rintro rfl
      cases hprevious
    rw [List.head?_append_of_ne_nil _ hne]
    exact hrun.head
  chain := by
    apply List.isChain_append.mpr
    refine ⟨hrun.chain, .singleton part, ?_⟩
    rintro last hlast _ ⟨⟩
    obtain rfl := Option.some.inj (hlast.symm.trans hprevious)
    exact hfollows

theorem InOrder.of_append {history later : List α}
    (horder : InOrder starts follows (history ++ later)) :
    InOrder starts follows history := by
  refine ⟨?_, (List.isChain_append.mp horder.chain).1⟩
  intro first hfirst
  apply horder.head
  rw [List.head?_append, Option.mem_def.mp hfirst]
  rfl

/-- Every part of a history in order ends a run. -/
theorem InOrder.exists_run {history : List α} {part : α}
    (horder : InOrder starts follows (history ++ [part])) :
    ∃ parts, IsRun starts follows parts ∧ parts <:+ history ++ [part] ∧
      parts.getLast? = some part := by
  induction history using List.reverseRecOn generalizing part with
  | nil =>
      refine ⟨[part], ⟨?_, .singleton part⟩, List.suffix_rfl, rfl⟩
      exact horder.head
  | append_singleton history previous ih =>
      obtain ⟨-, -, hlink⟩ := List.isChain_append.mp horder.chain
      rcases hlink previous (List.getLast?_concat ..) part rfl with
        hstarts | hfollows
      · refine ⟨[part], ⟨?_, .singleton part⟩, List.suffix_append .., rfl⟩
        rintro _ ⟨⟩
        exact hstarts
      · obtain ⟨parts, hrun, ⟨earlier, hearlier⟩, hlast⟩ :=
          ih horder.of_append
        refine ⟨parts ++ [part], hrun.concat hlast hfollows,
          ⟨earlier, ?_⟩, List.getLast?_concat ..⟩
        rw [← List.append_assoc, hearlier]

end Runs

/-! ## What a chain says of its parts -/

variable {chain : List α}

theorem number_of_chain (number : α → ℤ) {first : ℤ}
    (hhead : ∀ part ∈ chain.head?, number part = first)
    (hchain : chain.IsChain fun previous part =>
      number part = number previous + 1)
    {i : ℕ} (hi : i < chain.length) : number chain[i] = first + i := by
  induction i with
  | zero =>
      have hfirst : chain.head? = some chain[0] := by
        rw [List.head?_eq_getElem?, List.getElem?_eq_getElem hi]
      rw [hhead chain[0] hfirst]
      simp
  | succ i ih =>
      rw [List.isChain_iff_getElem.mp hchain i hi, ih (Nat.lt_of_succ_lt hi)]
      push_cast
      ring

theorem shared_of_chain {β : Type*} (key : α → β)
    (hchain : chain.IsChain fun previous part => key previous = key part)
    {part other : α} (hpart : part ∈ chain) (hother : other ∈ chain) :
    key part = key other := by
  have hkeys : (chain.map key).Pairwise Eq :=
    List.isChain_iff_pairwise.mp ((List.isChain_map key).mpr hchain)
  exact hkeys.forall_of_forall (fun _ _ => rfl)
    (List.mem_map_of_mem hpart) (List.mem_map_of_mem hother)

end OrderedRuns
