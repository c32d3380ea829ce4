import Mathlib.Tactic

/-!
# A level that refills linearly up to a cap

The arithmetic of rate limiters: a level grows by `rate` for every unit of
time and is cut at `cap`.  Stated over any linearly ordered field, for any
rate and cap.
-/

namespace CappedRefill

variable {K : Type*} [Field K] [LinearOrder K]

/-- The level after a time `dt` in which nothing was taken. -/
def refill (cap rate level dt : K) : K :=
  min cap (level + dt * rate)

variable {cap rate level dt demand : K}

theorem refill_le_cap : refill cap rate level dt ≤ cap :=
  min_le_left _ _

theorem refill_lt_of_cap_lt (hdemand : cap < demand) :
    refill cap rate level dt < demand :=
  lt_of_le_of_lt refill_le_cap hdemand

theorem refill_zero (hlevel : level ≤ cap) :
    refill cap rate level 0 = level := by
  rw [refill, zero_mul, add_zero, min_eq_right hlevel]

/-! ## Taking one after another -/

/-- Amounts taken one after another, each with its time, and each within the
level at that time. -/
def Covered (cap rate : K) : K → K → List (K × K) → Prop
  | _, _, [] => True
  | level, last, taken :: later =>
      last ≤ taken.1 ∧ 0 ≤ taken.2 ∧
        taken.2 ≤ refill cap rate level (taken.1 - last) ∧
        Covered cap rate (refill cap rate level (taken.1 - last) - taken.2)
          taken.1 later

/-- The sum of the amounts taken between two times. -/
def takenWithin (start stop : K) (takes : List (K × K)) : K :=
  ((takes.filter fun taken => start ≤ taken.1 ∧ taken.1 ≤ stop).map
    Prod.snd).sum

variable {start stop last : K} {takes : List (K × K)}

theorem takenWithin_cons (taken : K × K) :
    takenWithin start stop (taken :: takes) =
      (if start ≤ taken.1 ∧ taken.1 ≤ stop then taken.2 else 0) +
        takenWithin start stop takes := by
  unfold takenWithin
  by_cases hin : start ≤ taken.1 ∧ taken.1 ≤ stop
  · rw [List.filter_cons_of_pos (by simpa using hin), if_pos hin,
      List.map_cons, List.sum_cons]
  · rw [List.filter_cons_of_neg (by simpa using hin), if_neg hin, zero_add]

theorem takenWithin_eq_zero (hlate : ∀ taken ∈ takes, stop < taken.1) :
    takenWithin start stop takes = 0 := by
  induction takes with
  | nil => rfl
  | cons taken takes ih =>
      rw [List.forall_mem_cons] at hlate
      rw [takenWithin_cons, if_neg fun h => not_lt.mpr h.2 hlate.1,
        ih hlate.2, add_zero]

theorem Covered.last_le (hcovered : Covered cap rate level last takes) :
    ∀ taken ∈ takes, last ≤ taken.1 := by
  induction takes generalizing level last with
  | nil => exact fun _ h => (List.not_mem_nil h).elim
  | cons taken takes ih =>
      obtain ⟨hle, _, _, hlater⟩ := hcovered
      rw [List.forall_mem_cons]
      exact ⟨hle, fun other hother => hle.trans (ih hlater other hother)⟩

/-! ## Bounds -/

variable [IsStrictOrderedRing K]

theorem refill_nonneg (hcap : 0 ≤ cap) (hrate : 0 ≤ rate) (hdt : 0 ≤ dt)
    (hlevel : 0 ≤ level) : 0 ≤ refill cap rate level dt :=
  le_min hcap (add_nonneg hlevel (mul_nonneg hdt hrate))

/-- A demand within the cap is met once the missing part has had time to
flow in. -/
theorem demand_le_refill (hrate : 0 < rate) (hdemand : demand ≤ cap)
    (hdt : (demand - level) / rate ≤ dt) :
    demand ≤ refill cap rate level dt := by
  apply le_min hdemand
  have hflow : demand - level ≤ dt * rate := (div_le_iff₀ hrate).mp hdt
  linarith

/-- Exactly then. -/
theorem demand_le_refill_iff (hrate : 0 < rate) (hdemand : demand ≤ cap) :
    demand ≤ refill cap rate level dt ↔ (demand - level) / rate ≤ dt := by
  constructor
  · intro henough
    have hflow : demand ≤ level + dt * rate := henough.trans (min_le_right _ _)
    apply (div_le_iff₀ hrate).mpr
    linarith
  · exact demand_le_refill hrate hdemand

/-- Looking at the level in between does not change it. -/
theorem refill_refill (hrate : 0 ≤ rate) (first : K) {second : K}
    (hsecond : 0 ≤ second) :
    refill cap rate (refill cap rate level first) second =
      refill cap rate level (first + second) := by
  have hflow : 0 ≤ second * rate := mul_nonneg hsecond hrate
  unfold refill
  calc min cap (min cap (level + first * rate) + second * rate)
      = min cap (min (cap + second * rate)
          (level + first * rate + second * rate)) := by
        rw [min_add_add_right]
    _ = min cap (level + first * rate + second * rate) := by
        rw [← min_assoc, min_eq_left (le_add_of_nonneg_right hflow)]
    _ = min cap (level + (first + second) * rate) := by
        rw [add_assoc, ← add_mul]

/-- What is taken up to a time comes from the level and from what flows in
until then. -/
theorem Covered.takenWithin_le_level (hrate : 0 ≤ rate) (hlevel : 0 ≤ level)
    (hcovered : Covered cap rate level last takes) (hstop : last ≤ stop)
    (start : K) :
    takenWithin start stop takes ≤ level + rate * (stop - last) := by
  induction takes generalizing level last with
  | nil =>
      have hflow := mul_nonneg hrate (sub_nonneg.mpr hstop)
      exact add_nonneg hlevel hflow
  | cons taken takes ih =>
      obtain ⟨hle, hamount, henough, hlater⟩ := hcovered
      by_cases hlate : stop < taken.1
      · have hnone : takenWithin start stop (taken :: takes) = 0 := by
          apply takenWithin_eq_zero
          rw [List.forall_mem_cons]
          exact ⟨hlate, fun other hother =>
            hlate.trans_le (hlater.last_le other hother)⟩
        rw [hnone]
        exact add_nonneg hlevel (mul_nonneg hrate (sub_nonneg.mpr hstop))
      · have hrest := ih (sub_nonneg.mpr henough) hlater (not_lt.mp hlate)
        have hin : refill cap rate level (taken.1 - last) ≤
            level + (taken.1 - last) * rate := min_le_right _ _
        have hcount : takenWithin start stop (taken :: takes) ≤
            taken.2 + takenWithin start stop takes := by
          rw [takenWithin_cons]
          apply add_le_add_left
          split_ifs
          · exact le_refl _
          · exact hamount
        linarith

/-- In a time no more is taken than the cap and what flows in. -/
theorem Covered.takenWithin_le (hrate : 0 ≤ rate) (hcap : 0 ≤ cap)
    (hcovered : Covered cap rate level last takes) (start : K) {length : K}
    (hlength : 0 ≤ length) :
    takenWithin start (start + length) takes ≤ cap + rate * length := by
  induction takes generalizing level last with
  | nil => exact add_nonneg hcap (mul_nonneg hrate hlength)
  | cons taken takes ih =>
      obtain ⟨_, _, henough, hlater⟩ := hcovered
      by_cases hin : start ≤ taken.1 ∧ taken.1 ≤ start + length
      · have hrest := hlater.takenWithin_le_level hrate
          (sub_nonneg.mpr henough) hin.2 start
        have hfull : refill cap rate level (taken.1 - last) ≤ cap :=
          refill_le_cap
        have hflow : rate * (start + length - taken.1) ≤ rate * length := by
          apply mul_le_mul_of_nonneg_left _ hrate
          linarith [hin.1]
        rw [takenWithin_cons, if_pos hin]
        linarith
      · rw [takenWithin_cons, if_neg hin, zero_add]
        exact ih hlater

end CappedRefill
