import BabilCors.Tiers

/-!
# The rate-limit wait of the send loop

`_rover_send_loop` consumes the length of a chunk from the session's bucket
and, as long as it cannot, sleeps for the time `time_to_available` reports.
The refill is capped at twice the rate, so the wait ends exactly for the
chunks that fit under this cap.
-/

namespace BabilCors

/-- The bucket of a session of this tier after some calls at non-decreasing
clock readings. -/
inductive SessionBucket (tier : Tier) : TokenBucket → Prop where
  | new {b : TokenBucket} (now : ℚ) (hnew : tier.sessionBucket now = some b) :
      SessionBucket tier b
  | consume {b : TokenBucket} (n : ℕ) (now : ℚ) (hb : SessionBucket tier b)
      (hnow : b.t ≤ now) : SessionBucket tier (b.consume n now).2
  | ask {b : TokenBucket} (n : ℕ) (now : ℚ) (hb : SessionBucket tier b)
      (hnow : b.t ≤ now) : SessionBucket tier (b.timeToAvailable n now).2

namespace TokenBucket

/-- What every call keeps: the parameters, and a level between zero and the
capacity. -/
structure Bounded (rate capacity : ℚ) (b : TokenBucket) : Prop where
  rate_eq : b.rate = rate
  capacity_eq : b.capacity = capacity
  tokens_nonneg : 0 ≤ b.tokens
  tokens_le : b.tokens ≤ capacity

variable {rate capacity now : ℚ} {b : TokenBucket} {n : ℕ}

theorem Bounded.advance (hb : b.Bounded rate capacity) (hrate : 0 < rate)
    (hcapacity : 0 < capacity) (hnow : b.t ≤ now) :
    (b.advance now).Bounded rate capacity where
  rate_eq := hb.rate_eq
  capacity_eq := hb.capacity_eq
  tokens_nonneg :=
    CappedRefill.refill_nonneg (hb.capacity_eq ▸ hcapacity.le)
      (hb.rate_eq ▸ hrate.le) (sub_nonneg.mpr hnow) hb.tokens_nonneg
  tokens_le := hb.capacity_eq ▸ CappedRefill.refill_le_cap

theorem Bounded.limiting (hb : b.Bounded rate capacity) (hrate : 0 < rate)
    (hcapacity : 0 < capacity) : ¬ (b.rate ≤ 0 ∨ b.capacity ≤ 0) := by
  rw [hb.rate_eq, hb.capacity_eq, not_or, not_le, not_le]
  exact ⟨hrate, hcapacity⟩

theorem Bounded.consume_eq (hb : b.Bounded rate capacity) (hrate : 0 < rate)
    (hcapacity : 0 < capacity) :
    b.consume n now =
      if (n : ℚ) ≤ (b.advance now).tokens then
        (true, { b.advance now with tokens := (b.advance now).tokens - n })
      else
        (false, b.advance now) :=
  if_neg (hb.limiting hrate hcapacity)

theorem Bounded.timeToAvailable_eq (hb : b.Bounded rate capacity)
    (hrate : 0 < rate) (hcapacity : 0 < capacity) :
    b.timeToAvailable n now =
      if (n : ℚ) ≤ (b.advance now).tokens then
        (0, b.advance now)
      else
        (max (((n : ℚ) - (b.advance now).tokens) / b.rate) 0,
          b.advance now) :=
  if_neg (hb.limiting hrate hcapacity)

theorem Bounded.consume (hb : b.Bounded rate capacity) (hrate : 0 < rate)
    (hcapacity : 0 < capacity) (hnow : b.t ≤ now) (n : ℕ) :
    (b.consume n now).2.Bounded rate capacity := by
  have hadvance := hb.advance hrate hcapacity hnow
  rw [hb.consume_eq hrate hcapacity]
  split_ifs with henough
  · exact ⟨hadvance.rate_eq, hadvance.capacity_eq,
      sub_nonneg.mpr henough,
      (sub_le_self _ n.cast_nonneg).trans hadvance.tokens_le⟩
  · exact hadvance

theorem Bounded.timeToAvailable_snd (hb : b.Bounded rate capacity)
    (hrate : 0 < rate) (hcapacity : 0 < capacity) (n : ℕ) (now : ℚ) :
    (b.timeToAvailable n now).2 = b.advance now := by
  rw [hb.timeToAvailable_eq hrate hcapacity]
  split_ifs <;> rfl

theorem Bounded.consume_of_capacity_lt (hb : b.Bounded rate capacity)
    (hrate : 0 < rate) (hcapacity : 0 < capacity)
    (hlong : capacity < n) (now : ℚ) :
    b.consume n now = (false, b.advance now) := by
  rw [hb.consume_eq hrate hcapacity, if_neg (not_le.mpr ?_)]
  exact CappedRefill.refill_lt_of_cap_lt (hb.capacity_eq ▸ hlong)

theorem Bounded.consume_after_wait (hb : b.Bounded rate capacity)
    (hrate : 0 < rate) (hcapacity : 0 < capacity)
    (hfits : (n : ℚ) ≤ capacity) {askAt wakeAt : ℚ} (hask : b.t ≤ askAt)
    (hwake : askAt + (b.timeToAvailable n askAt).1 ≤ wakeAt) :
    ((b.timeToAvailable n askAt).2.consume n wakeAt).1 = true := by
  have hadvance := hb.advance hrate hcapacity hask
  rw [hb.timeToAvailable_snd hrate hcapacity,
    hadvance.consume_eq hrate hcapacity, if_pos]
  have hslept : (b.timeToAvailable n askAt).1 ≤ wakeAt - askAt := by linarith
  refine CappedRefill.demand_le_refill (hadvance.rate_eq ▸ hrate)
    (hadvance.capacity_eq ▸ hfits) (le_trans ?_ hslept)
  rw [hb.timeToAvailable_eq hrate hcapacity, hadvance.rate_eq]
  split_ifs with henough
  · exact div_nonpos_of_nonpos_of_nonneg (sub_nonpos.mpr henough) hrate.le
  · rw [hb.rate_eq]
    exact le_max_left _ _

end TokenBucket

structure ClockReading where
  consumeAt : ℚ
  askAt : ℚ
  deriving DecidableEq, Repr

/-- The waiting loop for a chunk of `n` bytes, over the clock readings of its
passes; `none` when it still waits after them. -/
def waitLoop (n : ℕ) : TokenBucket → List ClockReading → Option TokenBucket
  | _, [] => none
  | b, reading :: later =>
      let consumed := b.consume n reading.consumeAt
      if consumed.1 then
        some consumed.2
      else
        waitLoop n (consumed.2.timeToAvailable n reading.askAt).2 later

/-- The clock never runs backwards, and a sleep lasts at least the requested
`max(wait_s, 0.001)`. -/
def Paced (n : ℕ) : TokenBucket → List ClockReading → Prop
  | _, [] => True
  | b, reading :: later =>
      let asked :=
        (b.consume n reading.consumeAt).2.timeToAvailable n reading.askAt
      b.t ≤ reading.consumeAt ∧ reading.consumeAt ≤ reading.askAt ∧
        (∀ next ∈ later.head?,
          reading.askAt + max asked.1 (1 / 1000) ≤ next.consumeAt) ∧
        Paced n asked.2 later

/-- The wait for `n` bytes ends: the first `consume` after the sleep succeeds,
and the loop is over by its second pass. -/
structure WaitEnds (b : TokenBucket) (n : ℕ) : Prop where
  next_consume :
    ∀ askAt wakeAt, b.t ≤ askAt →
      askAt + max (b.timeToAvailable n askAt).1 (1 / 1000) ≤ wakeAt →
        ((b.timeToAvailable n askAt).2.consume n wakeAt).1 = true
  loop_ends :
    ∀ readings, Paced n b readings → 2 ≤ readings.length →
      (waitLoop n b readings).isSome

section SessionWait

variable {tier : Tier} {b : TokenBucket} {n : ℕ}

theorem SessionBucket.bounded (hrate : 1 ≤ tier.rateLimitBps)
    (hb : SessionBucket tier b) :
    b.Bounded tier.rateLimitBps (2 * tier.rateLimitBps) := by
  have hpos : (0 : ℚ) < tier.rateLimitBps := by exact_mod_cast hrate
  have hcapacity : (0 : ℚ) < 2 * tier.rateLimitBps := by linarith
  induction hb with
  | new now hnew =>
      have hmax :
          max (tier.rateLimitBps * 2) 1 = 2 * tier.rateLimitBps := by omega
      rw [Tier.sessionBucket, if_pos (by omega), hmax] at hnew
      cases hnew
      refine ⟨rfl, ?_, ?_, ?_⟩ <;> push_cast [TokenBucket.new]
      · rfl
      · exact hcapacity.le
      · exact le_refl _
  | consume n now hb hnow ih => exact ih.consume hpos hcapacity hnow n
  | ask n now hb hnow ih =>
      rw [ih.timeToAvailable_snd hpos hcapacity]
      exact ih.advance hpos hcapacity hnow

theorem waitLoop_eq_none {rate capacity : ℚ} (hrate : 0 < rate)
    (hcapacity : 0 < capacity) (hb : b.Bounded rate capacity)
    (hlong : capacity < n) (readings : List ClockReading)
    (hpaced : Paced n b readings) : waitLoop n b readings = none := by
  induction readings generalizing b with
  | nil => rfl
  | cons reading later ih =>
      obtain ⟨hconsume, hask, _, hlater⟩ := hpaced
      have hfail :=
        hb.consume_of_capacity_lt hrate hcapacity hlong reading.consumeAt
      have hadvance := hb.advance hrate hcapacity hconsume
      rw [hfail, hadvance.timeToAvailable_snd hrate hcapacity] at hlater
      simp only [waitLoop, hfail, Bool.false_eq_true, if_false]
      rw [hadvance.timeToAvailable_snd hrate hcapacity]
      exact ih (hadvance.advance hrate hcapacity hask) hlater

theorem not_waitEnds {rate capacity : ℚ} (hrate : 0 < rate)
    (hcapacity : 0 < capacity) (hb : b.Bounded rate capacity)
    (hlong : capacity < n) : ¬ WaitEnds b n := by
  intro hends
  have hadvance := hb.advance hrate hcapacity (le_refl b.t)
  have hsucceeds := hends.next_consume b.t _ le_rfl le_rfl
  rw [hb.timeToAvailable_snd hrate hcapacity,
    hadvance.consume_of_capacity_lt hrate hcapacity hlong] at hsucceeds
  exact Bool.false_ne_true hsucceeds

theorem waitEnds_of_fits {rate capacity : ℚ} (hrate : 0 < rate)
    (hcapacity : 0 < capacity) (hb : b.Bounded rate capacity)
    (hfits : (n : ℚ) ≤ capacity) : WaitEnds b n := by
  refine ⟨?_, ?_⟩
  · intro askAt wakeAt hask hwake
    refine hb.consume_after_wait hrate hcapacity hfits hask
      (le_trans ?_ hwake)
    exact add_le_add_right (le_max_left _ _) _
  · intro readings hpaced htwo
    match readings, htwo with
    | first :: second :: later, _ =>
        obtain ⟨hconsume, hask, hslept, _⟩ := hpaced
        by_cases hfirst : (b.consume n first.consumeAt).1
        · simp [waitLoop, hfirst]
        · -- the first pass failed, so the second comes after the sleep
          have hbounded := hb.consume hrate hcapacity hconsume n
          have hclock : (b.consume n first.consumeAt).2.t ≤ first.askAt := by
            rw [hb.consume_eq hrate hcapacity]
            split_ifs <;> exact hask
          have hsecond :=
            hbounded.consume_after_wait hrate hcapacity hfits hclock
              (le_trans (add_le_add_right (le_max_left _ _) _)
                (hslept second rfl))
          simp [waitLoop, hfirst, hsecond]

/-- For a tier with a rate limit, the wait for a chunk ends exactly when the
chunk is at most two seconds of data long. -/
theorem session_waitEnds_iff (hrate : 1 ≤ tier.rateLimitBps)
    (hb : SessionBucket tier b) (n : ℕ) :
    WaitEnds b n ↔ (n : ℤ) ≤ 2 * tier.rateLimitBps := by
  have hpos : (0 : ℚ) < tier.rateLimitBps := by exact_mod_cast hrate
  have hcapacity : (0 : ℚ) < 2 * tier.rateLimitBps := by linarith
  have hbounded := hb.bounded hrate
  constructor
  · intro hends
    by_contra hlong
    have hlong' : (2 * tier.rateLimitBps : ℚ) < n := by
      exact_mod_cast not_le.mp hlong
    exact not_waitEnds hpos hcapacity hbounded hlong' hends
  · intro hfits
    exact waitEnds_of_fits hpos hcapacity hbounded (by exact_mod_cast hfits)

theorem session_waitEnds_iff_instance :
    1 ≤ (⟨4, 0, 0⟩ : Tier).rateLimitBps ∧
      (WaitEnds (.new 4 8 0) 8 ↔
        ((8 : ℕ) : ℤ) ≤ 2 * (⟨4, 0, 0⟩ : Tier).rateLimitBps) := by
  have hnew : (⟨4, 0, 0⟩ : Tier).sessionBucket 0 = some (.new 4 8 0) := by
    decide +kernel
  exact ⟨by decide, session_waitEnds_iff (by decide) (.new 0 hnew) 8⟩

/-- Three bytes a second, a queue of the default size and a chunk of eight
bytes: the rover is starved. -/
theorem session_wait_can_starve :
    ∃ (tier : Tier) (b : TokenBucket) (n : ℕ),
      1 ≤ tier.rateLimitBps ∧ (n : ℤ) ≤ tier.queueLimit ∧
        SessionBucket tier b ∧ ¬ WaitEnds b n ∧
          ∀ readings, Paced n b readings → waitLoop n b readings = none := by
  have hnew : (⟨3, 0, 0⟩ : Tier).sessionBucket 0 = some (.new 3 6 0) := by
    decide +kernel
  have hb : SessionBucket ⟨3, 0, 0⟩ (.new 3 6 0) := .new 0 hnew
  have hbounded : TokenBucket.Bounded 3 6 (.new 3 6 0) :=
    ⟨rfl, rfl, by norm_num [TokenBucket.new], le_refl _⟩
  exact ⟨⟨3, 0, 0⟩, .new 3 6 0, 8, by decide, by decide, hb,
    not_waitEnds (by norm_num) (by norm_num) hbounded (by norm_num),
    waitLoop_eq_none (by norm_num) (by norm_num) hbounded (by norm_num)⟩

end SessionWait

end BabilCors
