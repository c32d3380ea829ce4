import Mathlib.Tactic

/-!
# A gate in front of a stream that is cut into batches

Items with times come in batches; the items of a batch have one time.  A gate
decides on each batch from its time and the time of the last batch that passed,
and a batch that passes closes the gate for its own time.  What passes depends
on the times alone as long as no two batches share a time at which the gate is
open, and only then are the items of one time treated alike.
-/

namespace GatedBatches

variable {α τ : Type*}

/-- The decisions on batches with these times. -/
def decisions (gate : Option τ → τ → Bool) :
    Option τ → List τ → List (τ × Bool)
  | _, [] => []
  | last, t :: times =>
      if gate last t then (t, true) :: decisions gate (some t) times
      else (t, false) :: decisions gate last times

/-- The items that pass. -/
def forwarded (gate : Option τ → τ → Bool) :
    Option τ → List (τ × List α) → List α
  | _, [] => []
  | last, (t, items) :: batches =>
      if gate last t then items ++ forwarded gate (some t) batches
      else forwarded gate last batches

/-- A time at which the gate is open has one batch. -/
def OneEach (gate : Option τ → τ → Bool) : Option τ → List τ → Prop
  | _, [] => True
  | last, t :: times =>
      if gate last t then
        times.head? ≠ some t ∧ OneEach gate (some t) times
      else OneEach gate last times

instance decidableOneEach [DecidableEq τ] (gate : Option τ → τ → Bool) :
    ∀ (last : Option τ) (times : List τ), Decidable (OneEach gate last times)
  | _, [] => isTrue trivial
  | last, t :: times =>
      have := decidableOneEach gate (some t) times
      have := decidableOneEach gate last times
      inferInstanceAs (Decidable (if gate last t then _ else _))

/-- Items of one time pass together or not at all. -/
def AllOrNone (decided : List (τ × Bool)) : Prop :=
  ∀ x ∈ decided, ∀ y ∈ decided, x.1 = y.1 → x.2 = y.2

/-- The items one by one with their times. -/
def timed (batches : List (τ × List α)) : List (α × τ) :=
  batches.flatMap fun b => b.2.map (·, b.1)

variable {gate : Option τ → τ → Bool} {last : Option τ} {t : τ}
  {times : List τ}

theorem decisions_times (gate : Option τ → τ → Bool) (last : Option τ)
    (times : List τ) : (decisions gate last times).map Prod.fst = times := by
  induction times generalizing last with
  | nil => rfl
  | cons t times ih =>
      unfold decisions
      split_ifs
      · rw [List.map_cons, ih]
      · rw [List.map_cons, ih]

theorem mem_times {x : τ × Bool} (hx : x ∈ decisions gate last times) :
    x.1 ∈ times := by
  rw [← decisions_times gate last times]
  exact List.mem_map_of_mem hx

theorem allOrNone_cons {x : τ × Bool} {decided : List (τ × Bool)}
    (hx : ∀ y ∈ decided, y.1 = x.1 → y.2 = x.2)
    (hrest : AllOrNone decided) : AllOrNone (x :: decided) := by
  intro a ha b hb hab
  rcases List.mem_cons.mp ha with hax | hadecided
  · rcases List.mem_cons.mp hb with hbx | hbdecided
    · rw [hax, hbx]
    · rw [hax] at hab ⊢
      exact (hx b hbdecided hab.symm).symm
  · rcases List.mem_cons.mp hb with hbx | hbdecided
    · rw [hbx] at hab ⊢
      exact hx a hadecided hab
    · exact hrest a hadecided b hbdecided hab

section Sorted

variable [LinearOrder τ]

theorem times_lt (hsorted : (t :: times).Pairwise (· ≤ ·))
    (hhead : times.head? ≠ some t) : ∀ u ∈ times, t < u := by
  cases times with
  | nil => simp
  | cons u times =>
      have hne : t ≠ u := by
        rintro rfl
        exact hhead rfl
      have hle : t ≤ u := (List.pairwise_cons.mp hsorted).1 u
        List.mem_cons_self
      have hlt : t < u := lt_of_le_of_ne hle hne
      intro v hv
      rcases List.mem_cons.mp hv with rfl | hv
      · exact hlt
      · have hrest := (List.pairwise_cons.mp hsorted).2
        exact lt_of_lt_of_le hlt ((List.pairwise_cons.mp hrest).1 v hv)

/-- A gate that is closed at a time stays closed at it. -/
theorem closed_at (hclosed : gate last t = false)
    (hsorted : (t :: times).Pairwise (· ≤ ·)) :
    ∀ y ∈ decisions gate last times, y.1 = t → y.2 = false := by
  induction times with
  | nil => simp [decisions]
  | cons u times ih =>
      rcases List.pairwise_cons.mp hsorted with ⟨hle, hrest⟩
      have htail : (t :: times).Pairwise (· ≤ ·) :=
        List.pairwise_cons.mpr ⟨fun v hv =>
          hle v (List.mem_cons_of_mem u hv), (List.pairwise_cons.mp hrest).2⟩
      rintro y hy rfl
      unfold decisions at hy
      by_cases hu : u = y.1
      · subst hu
        rw [if_neg (by simp [hclosed])] at hy
        rcases List.mem_cons.mp hy with hy | hy
        · rw [hy]
        · exact ih htail y hy rfl
      · have hlt : y.1 < u :=
          lt_of_le_of_ne (hle u List.mem_cons_self) (Ne.symm hu)
        have hafter : ∀ v ∈ u :: times, y.1 < v := by
          intro v hv
          rcases List.mem_cons.mp hv with rfl | hv
          · exact hlt
          · exact lt_of_lt_of_le hlt ((List.pairwise_cons.mp hrest).1 v hv)
        have hmem : y.1 ∈ u :: times := by
          split_ifs at hy
          · rcases List.mem_cons.mp hy with rfl | hy
            · exact absurd rfl hu
            · exact List.mem_cons_of_mem u (mem_times hy)
          · rcases List.mem_cons.mp hy with rfl | hy
            · exact absurd rfl hu
            · exact List.mem_cons_of_mem u (mem_times hy)
        exact absurd (hafter y.1 hmem) (lt_irrefl y.1)

theorem allOrNone_of_oneEach (hsorted : times.Pairwise (· ≤ ·))
    (hone : OneEach gate last times) :
    AllOrNone (decisions gate last times) := by
  induction times generalizing last with
  | nil => simp [AllOrNone, decisions]
  | cons t times ih =>
      have hrest := (List.pairwise_cons.mp hsorted).2
      unfold OneEach at hone
      unfold decisions
      by_cases hopen : gate last t = true
      · rw [if_pos hopen] at hone ⊢
        apply allOrNone_cons
        · intro y hy hyt
          have hlt := times_lt hsorted hone.1 y.1 (mem_times hy)
          exact absurd hyt (ne_of_gt hlt)
        · exact ih hrest hone.2
      · rw [if_neg hopen] at hone ⊢
        apply allOrNone_cons
        · exact closed_at (by simpa using hopen) hsorted
        · exact ih hrest hone

end Sorted

theorem AllOrNone.tail {x : τ × Bool} {decided : List (τ × Bool)}
    (h : AllOrNone (x :: decided)) : AllOrNone decided := by
  intro a ha b hb
  exact h a (List.mem_cons_of_mem x ha) b (List.mem_cons_of_mem x hb)

theorem oneEach_of_allOrNone (hself : ∀ t, gate (some t) t = false)
    (hall : AllOrNone (decisions gate last times)) :
    OneEach gate last times := by
  induction times generalizing last with
  | nil => trivial
  | cons t times ih =>
      unfold decisions at hall
      unfold OneEach
      by_cases hopen : gate last t = true
      · rw [if_pos hopen] at hall ⊢
        constructor
        · intro hhead
          cases times with
          | nil => cases hhead
          | cons u times =>
              obtain rfl := Option.some.inj hhead
              have hsecond : (u, false) ∈
                  decisions gate (some u) (u :: times) := by
                simp [decisions, hself]
              have heq := hall (u, true) List.mem_cons_self (u, false)
                (List.mem_cons_of_mem _ hsecond) rfl
              cases heq
        · exact ih hall.tail
      · rw [if_neg hopen] at hall ⊢
        exact ih hall.tail

/-! ## A gate that opens again after a period -/

/-- The time that the gate keeps behind the times. -/
def after (gate : Option τ → τ → Bool) (last : Option τ) (times : List τ) :
    Option τ :=
  times.foldl (fun last t => if gate last t then some t else last) last

theorem after_concat (gate : Option τ → τ → Bool) (last : Option τ)
    (times : List τ) (t : τ) :
    after gate last (times ++ [t]) =
      if gate (after gate last times) t then some t
      else after gate last times := by
  unfold after
  rw [List.foldl_append]
  rfl

theorem decisions_concat (gate : Option τ → τ → Bool) (last : Option τ)
    (times : List τ) (t : τ) :
    decisions gate last (times ++ [t]) =
      decisions gate last times ++ [(t, gate (after gate last times) t)] := by
  induction times generalizing last with
  | nil =>
      cases hopen : gate last t <;> simp [decisions, after, hopen]
  | cons u times ih =>
      rw [List.cons_append, decisions, decisions, after, List.foldl_cons]
      split_ifs
      · rw [ih]
        rfl
      · rw [ih]
        rfl

/-- The times that pass. -/
def passed (decided : List (τ × Bool)) : List τ :=
  (decided.filter Prod.snd).map Prod.fst

theorem passed_cons (gate : Option τ → τ → Bool) (last : Option τ) (t : τ)
    (times : List τ) :
    passed (decisions gate last (t :: times)) =
      if gate last t then t :: passed (decisions gate (some t) times)
      else passed (decisions gate last times) := by
  rw [decisions]
  split_ifs
  · rfl
  · rfl

section Period

variable {K : Type*} [Field K] [LinearOrder K] [IsStrictOrderedRing K]

def periodic (period : K) : Option K → K → Bool
  | none, _ => true
  | some last, t => period ≤ t - last

/-- Each at least the period behind the one before. -/
def Apart (period : K) (times : List K) : Prop :=
  times.IsChain fun earlier later => earlier + period ≤ later

variable {period : K}

/-- What passes is apart, also from what passed last. -/
theorem passed_apart (hperiod : 0 ≤ period) (last : Option K)
    (times : List K) :
    (last.toList ++ passed (decisions (periodic period) last times)).Pairwise
      fun earlier later => earlier + period ≤ later := by
  induction times generalizing last with
  | nil => cases last <;> simp [decisions, passed]
  | cons t times ih =>
      rw [passed_cons]
      by_cases hopen : periodic period last t = true
      · rw [if_pos hopen]
        have hrest := ih (some t)
        cases last with
        | none => exact hrest
        | some last =>
            have hfirst : last + period ≤ t := by
              have hle : period ≤ t - last := by simpa [periodic] using hopen
              linarith
            apply List.pairwise_cons.mpr
            refine ⟨?_, hrest⟩
            intro u hu
            rcases List.mem_cons.mp hu with rfl | hu
            · exact hfirst
            · have hnext := (List.pairwise_cons.mp hrest).1 u hu
              linarith
      · rw [if_neg hopen]
        exact ih last

/-- Times that are apart take at least a period each up to the last. -/
theorem add_length_mul_le {t stop : K} {times : List K}
    (hapart : (t :: times).Pairwise fun earlier later =>
      earlier + period ≤ later)
    (hstop : ∀ u ∈ t :: times, u ≤ stop) :
    t + times.length * period ≤ stop := by
  induction times generalizing t with
  | nil =>
      rw [List.length_nil, Nat.cast_zero, zero_mul, add_zero]
      exact hstop t List.mem_cons_self
  | cons u times ih =>
      have hfirst := (List.pairwise_cons.mp hapart).1 u List.mem_cons_self
      have hrest := ih (List.pairwise_cons.mp hapart).2
        (List.forall_mem_cons.mp hstop).2
      rw [List.length_cons, Nat.cast_add, Nat.cast_one, add_mul, one_mul]
      linarith

/-- At most one in each period of a window passes, and one more. -/
theorem length_passed_le (hperiod : 0 < period) (last : Option K)
    (times : List K) (start : K) {length : K} (hlength : 0 ≤ length) :
    (((passed (decisions (periodic period) last times)).filter fun t =>
      start ≤ t ∧ t ≤ start + length).length : K) ≤
        length / period + 1 := by
  have hall := (List.pairwise_append.mp
    (passed_apart hperiod.le last times)).2.1
  have hapart := hall.filter fun t =>
    decide (start ≤ t ∧ t ≤ start + length)
  have hin : ∀ t ∈ (passed (decisions (periodic period) last times)).filter
      fun t => decide (start ≤ t ∧ t ≤ start + length),
        start ≤ t ∧ t ≤ start + length := by
    intro t ht
    simpa using (List.mem_filter.mp ht).2
  generalize (passed (decisions (periodic period) last times)).filter
    (fun t => decide (start ≤ t ∧ t ≤ start + length)) = window at *
  cases window with
  | nil =>
      have hparts : 0 ≤ length / period := div_nonneg hlength hperiod.le
      rw [List.length_nil, Nat.cast_zero]
      linarith
  | cons t window =>
      have hlast := add_length_mul_le hapart fun u hu => (hin u hu).2
      have hfirst := (hin t List.mem_cons_self).1
      have hcount : (window.length : K) ≤ length / period := by
        rw [le_div_iff₀ hperiod]
        linarith
      rw [List.length_cons, Nat.cast_add, Nat.cast_one]
      linarith

/-- Nothing is withheld of a stream whose times are apart. -/
theorem all_pass (last : Option K) (times : List K)
    (hapart : Apart period (last.toList ++ times)) :
    ∀ x ∈ decisions (periodic period) last times, x.2 = true := by
  induction times generalizing last with
  | nil => exact fun _ h => (List.not_mem_nil h).elim
  | cons t times ih =>
      have hopen : periodic period last t = true := by
        cases last with
        | none => rfl
        | some last =>
            have hfirst := (List.isChain_cons_cons.mp hapart).1
            have hle : period ≤ t - last := by linarith
            simpa [periodic] using hle
      have hrest : Apart period (t :: times) := by
        cases last with
        | none => exact hapart
        | some last => exact (List.isChain_cons_cons.mp hapart).2
      rw [decisions, if_pos hopen, List.forall_mem_cons]
      exact ⟨rfl, ih (some t) hrest⟩

end Period

/-! ## What passes depends on the times -/

variable [DecidableEq τ]

/-- The items that pass when each is decided with all others of its time:
`current` is the time that the gate has just been open for. -/
def ideal (gate : Option τ → τ → Bool) :
    Option τ → Option τ → List (α × τ) → List α
  | _, _, [] => []
  | last, current, (x, t) :: items =>
      if current = some t then x :: ideal gate last current items
      else if gate last t then x :: ideal gate (some t) (some t) items
      else ideal gate last none items

theorem ideal_same_time (items : List α) (rest : List (α × τ)) :
    ideal gate last (some t) (items.map (·, t) ++ rest) =
      items ++ ideal gate last (some t) rest := by
  induction items with
  | nil => rfl
  | cons x items ih =>
      simp only [List.map_cons, List.cons_append, ideal, if_true, ih]

theorem ideal_closed (hclosed : gate last t = false) (items : List α)
    (rest : List (α × τ)) :
    ideal gate last none (items.map (·, t) ++ rest) =
      ideal gate last none rest := by
  induction items with
  | nil => rfl
  | cons x items ih =>
      simp [ideal, hclosed, ih]

theorem forwarded_eq_ideal {batches : List (τ × List α)} {current : Option τ}
    (hitems : ∀ b ∈ batches, b.2 ≠ [])
    (hone : OneEach gate last (batches.map Prod.fst))
    (hcurrent : ∀ b, batches.head? = some b → current ≠ some b.1) :
    forwarded gate last batches = ideal gate last current (timed batches) := by
  induction batches generalizing last current with
  | nil => rfl
  | cons b batches ih =>
      rcases b with ⟨t, items⟩
      have hnew : current ≠ some t := hcurrent (t, items) rfl
      have hrest : ∀ b ∈ batches, b.2 ≠ [] := fun b hb =>
        hitems b (List.mem_cons_of_mem _ hb)
      have htimed : timed ((t, items) :: batches) =
          items.map (·, t) ++ timed batches := by
        simp [timed]
      cases items with
      | nil => exact absurd rfl (hitems (t, []) List.mem_cons_self)
      | cons x items =>
          rw [htimed]
          unfold forwarded
          rw [List.map_cons] at hone
          unfold OneEach at hone
          simp only [List.map_cons, List.cons_append, ideal]
          rw [if_neg hnew]
          by_cases hopen : gate last t = true
          · rw [if_pos hopen] at hone ⊢
            have htail : forwarded gate (some t) batches =
                ideal gate (some t) (some t) (timed batches) := by
              apply ih hrest hone.2
              intro b hb heq
              apply hone.1
              rw [List.head?_map, hb, Option.map_some]
              exact heq.symm
            rw [if_pos hopen, ideal_same_time, htail]
          · rw [if_neg hopen] at hone ⊢
            rw [if_neg hopen, ideal_closed (by simpa using hopen)]
            apply ih hrest hone
            intro b _ hnone
            cases hnone

/-- Two ways of cutting one stream pass the same items, when each has one batch
for every time at which the gate is open. -/
theorem forwarded_eq {batches batches' : List (τ × List α)}
    (hitems : ∀ b ∈ batches, b.2 ≠ []) (hitems' : ∀ b ∈ batches', b.2 ≠ [])
    (hone : OneEach gate last (batches.map Prod.fst))
    (hone' : OneEach gate last (batches'.map Prod.fst))
    (htimed : timed batches = timed batches') :
    forwarded gate last batches = forwarded gate last batches' := by
  have hideal : forwarded gate last batches =
      ideal gate last none (timed batches) :=
    forwarded_eq_ideal hitems hone fun _ _ => nofun
  have hideal' : forwarded gate last batches' =
      ideal gate last none (timed batches') :=
    forwarded_eq_ideal hitems' hone' fun _ _ => nofun
  rw [hideal, hideal', htimed]

end GatedBatches
