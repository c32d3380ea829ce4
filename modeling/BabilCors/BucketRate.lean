import BabilCors.RateLimitWait

/-!
# The rate of a token bucket

Calls of `consume` and `time_to_available` in any order, at clock readings
that never run backwards: what is granted in a time is bounded, and asking
changes nothing.
-/

namespace BabilCors

/-- A call on a bucket, with the clock reading in it. -/
inductive BucketCall where
  | consume (n : ℕ) (now : ℚ)
  | timeToAvailable (n : ℕ) (now : ℚ)
  deriving DecidableEq, Repr

namespace BucketCall

def now : BucketCall → ℚ
  | consume _ now => now
  | timeToAvailable _ now => now

def isConsume : BucketCall → Bool
  | consume _ _ => true
  | timeToAvailable _ _ => false

/-- Calls behind a clock reading, none earlier than the one before. -/
def Timely (since : ℚ) (calls : List BucketCall) : Prop :=
  (since :: calls.map now).Pairwise (· ≤ ·)

theorem timely_cons {since : ℚ} {c : BucketCall} {calls : List BucketCall} :
    Timely since (c :: calls) ↔ since ≤ c.now ∧ Timely c.now calls := by
  unfold Timely
  rw [List.map_cons, List.pairwise_cons, List.forall_mem_cons,
    List.pairwise_cons]
  constructor
  · rintro ⟨⟨hc, _⟩, hlater⟩
    exact ⟨hc, hlater⟩
  · rintro ⟨hc, hle, hlater⟩
    exact ⟨⟨hc, fun other hother => hc.trans (hle other hother)⟩,
      hle, hlater⟩

theorem timely_append {since : ℚ} {first second : List BucketCall}
    (htimely : Timely since (first ++ second)) : Timely since first := by
  unfold Timely at htimely ⊢
  rw [List.map_append, ← List.cons_append] at htimely
  exact (List.pairwise_append.mp htimely).1

end BucketCall

/-- A `consume` call and what it returned. -/
structure ConsumeResult where
  n : ℕ
  now : ℚ
  ok : Bool
  deriving DecidableEq, Repr

/-- The sum of `n` over the calls between two times that returned `True`. -/
def grantedWithin (start stop : ℚ) (results : List ConsumeResult) : ℕ :=
  ((results.filter fun r => r.ok ∧ start ≤ r.now ∧ r.now ≤ stop).map
    ConsumeResult.n).sum

namespace TokenBucket

open BucketCall

def call (b : TokenBucket) : BucketCall → TokenBucket
  | .consume n now => (b.consume n now).2
  | .timeToAvailable n now => (b.timeToAvailable n now).2

def calls (b : TokenBucket) (cs : List BucketCall) : TokenBucket :=
  cs.foldl call b

/-- The results of the `consume` calls, in order. -/
def consumes : TokenBucket → List BucketCall → List ConsumeResult
  | _, [] => []
  | b, .consume n now :: later =>
      ⟨n, now, (b.consume n now).1⟩ :: consumes (b.consume n now).2 later
  | b, .timeToAvailable n now :: later =>
      consumes (b.timeToAvailable n now).2 later

/-- What a call takes out. -/
def taken (b : TokenBucket) : BucketCall → ℕ
  | .consume n now => if (b.consume n now).1 then n else 0
  | .timeToAvailable _ _ => 0

variable {rate capacity now : ℚ} {b : TokenBucket}

theorem Bounded.new (hcapacity : 0 < capacity) (now : ℚ) :
    (TokenBucket.new rate capacity now).Bounded rate capacity :=
  ⟨rfl, rfl, hcapacity.le, le_refl _⟩

/-- A call refills up to its clock reading and takes out no more than there
is then. -/
theorem Bounded.call_eq (hb : b.Bounded rate capacity) (hrate : 0 < rate)
    (hcapacity : 0 < capacity) (c : BucketCall) :
    b.call c = { b.advance c.now with
      tokens := (b.advance c.now).tokens - b.taken c } := by
  cases c with
  | consume n now =>
      unfold call taken BucketCall.now
      dsimp only
      rw [hb.consume_eq hrate hcapacity]
      by_cases henough : (n : ℚ) ≤ (b.advance now).tokens
      · rw [if_pos henough, if_pos rfl]
      · rw [if_neg henough, if_neg Bool.false_ne_true, Nat.cast_zero,
          sub_zero]
  | timeToAvailable n now =>
      unfold call taken BucketCall.now
      dsimp only
      rw [hb.timeToAvailable_snd hrate hcapacity, Nat.cast_zero, sub_zero]

theorem Bounded.taken_le (hb : b.Bounded rate capacity) (hrate : 0 < rate)
    (hcapacity : 0 < capacity) (c : BucketCall) (hnow : b.t ≤ c.now) :
    (b.taken c : ℚ) ≤ (b.advance c.now).tokens := by
  have hadvance := hb.advance hrate hcapacity hnow
  cases c with
  | consume n now =>
      unfold taken BucketCall.now
      dsimp only
      rw [hb.consume_eq hrate hcapacity]
      by_cases henough : (n : ℚ) ≤ (b.advance now).tokens
      · rw [if_pos henough, if_pos rfl]
        exact henough
      · rw [if_neg henough, if_neg Bool.false_ne_true, Nat.cast_zero]
        exact hadvance.tokens_nonneg
  | timeToAvailable n now =>
      unfold taken
      rw [Nat.cast_zero]
      exact hadvance.tokens_nonneg

theorem Bounded.call (hb : b.Bounded rate capacity) (hrate : 0 < rate)
    (hcapacity : 0 < capacity) (c : BucketCall) (hnow : b.t ≤ c.now) :
    (b.call c).Bounded rate capacity ∧ (b.call c).t = c.now := by
  have hadvance := hb.advance hrate hcapacity hnow
  have htaken := hb.taken_le hrate hcapacity c hnow
  have hle : (b.advance c.now).tokens - b.taken c ≤ capacity :=
    (sub_le_self _ (b.taken c).cast_nonneg).trans hadvance.tokens_le
  rw [hb.call_eq hrate hcapacity]
  exact ⟨⟨hadvance.rate_eq, hadvance.capacity_eq, sub_nonneg.mpr htaken,
    hle⟩, rfl⟩

theorem Bounded.calls (hb : b.Bounded rate capacity) (hrate : 0 < rate)
    (hcapacity : 0 < capacity) {cs : List BucketCall}
    (htimely : Timely b.t cs) : (b.calls cs).Bounded rate capacity := by
  induction cs generalizing b with
  | nil => exact hb
  | cons c cs ih =>
      obtain ⟨hnow, hlater⟩ := timely_cons.mp htimely
      obtain ⟨hcall, ht⟩ := hb.call hrate hcapacity c hnow
      exact ih hcall (ht ▸ hlater)

theorem Bounded.timely_calls (hb : b.Bounded rate capacity)
    (hrate : 0 < rate) (hcapacity : 0 < capacity)
    {first second : List BucketCall}
    (htimely : Timely b.t (first ++ second)) :
    Timely (b.calls first).t second := by
  induction first generalizing b with
  | nil => exact htimely
  | cons c first ih =>
      obtain ⟨hnow, hlater⟩ := timely_cons.mp htimely
      obtain ⟨hcall, ht⟩ := hb.call hrate hcapacity c hnow
      exact ih hcall (ht ▸ hlater)

/-! ## The bound -/

/-- What each call takes out, with its clock reading. -/
def takes : TokenBucket → List BucketCall → List (ℚ × ℚ)
  | _, [] => []
  | b, c :: later => (c.now, b.taken c) :: takes (b.call c) later

theorem Bounded.takes_covered (hb : b.Bounded rate capacity)
    (hrate : 0 < rate) (hcapacity : 0 < capacity) {cs : List BucketCall}
    (htimely : Timely b.t cs) :
    CappedRefill.Covered capacity rate b.tokens b.t (b.takes cs) := by
  induction cs generalizing b with
  | nil => trivial
  | cons c cs ih =>
      obtain ⟨hnow, hlater⟩ := timely_cons.mp htimely
      obtain ⟨hcall, ht⟩ := hb.call hrate hcapacity c hnow
      have htaken := hb.taken_le hrate hcapacity c hnow
      have hrest := ih hcall (ht ▸ hlater)
      rw [hb.call_eq hrate hcapacity] at hrest
      unfold TokenBucket.advance at htaken hrest
      rw [hb.rate_eq, hb.capacity_eq] at htaken hrest
      rw [takes, hb.call_eq hrate hcapacity]
      unfold TokenBucket.advance
      rw [hb.rate_eq, hb.capacity_eq]
      exact ⟨hnow, Nat.cast_nonneg _, htaken, hrest⟩

theorem grantedWithin_cons (start stop : ℚ) (r : ConsumeResult)
    (results : List ConsumeResult) :
    grantedWithin start stop (r :: results) =
      (if start ≤ r.now ∧ r.now ≤ stop then (if r.ok then r.n else 0) else 0)
        + grantedWithin start stop results := by
  unfold grantedWithin
  by_cases hin : start ≤ r.now ∧ r.now ≤ stop
  · cases hok : r.ok <;> simp [hin, hok]
  · simp [hin]

theorem grantedWithin_consumes (b : TokenBucket) (cs : List BucketCall)
    (start stop : ℚ) :
    (grantedWithin start stop (b.consumes cs) : ℚ) =
      CappedRefill.takenWithin start stop (b.takes cs) := by
  induction cs generalizing b with
  | nil => simp [consumes, takes, grantedWithin, CappedRefill.takenWithin]
  | cons c cs ih =>
      rw [takes, CappedRefill.takenWithin_cons, ← ih]
      cases c with
      | consume n now =>
          rw [consumes, grantedWithin_cons]
          push_cast [taken, BucketCall.now]
          rfl
      | timeToAvailable n now =>
          rw [consumes, taken, Nat.cast_zero, ite_self, zero_add]
          rfl

/-- After any calls the level of a bucket is between zero and the capacity,
and what was granted in a time is at most the capacity and what flows in. -/
theorem granted_le {rate capacity : ℚ} (hrate : 0 < rate)
    (hcapacity : 0 < capacity) {since : ℚ} {cs : List BucketCall}
    (htimely : Timely since cs) :
    0 ≤ ((TokenBucket.new rate capacity since).calls cs).tokens ∧
      ((TokenBucket.new rate capacity since).calls cs).tokens ≤ capacity ∧
      ∀ start length, 0 ≤ length →
        (grantedWithin start (start + length)
          ((TokenBucket.new rate capacity since).consumes cs) : ℚ) ≤
            capacity + rate * length := by
  have hnew : (TokenBucket.new rate capacity since).Bounded rate capacity :=
    .new hcapacity since
  have hcalls := hnew.calls hrate hcapacity htimely
  refine ⟨hcalls.tokens_nonneg, hcalls.tokens_le, ?_⟩
  intro start length hlength
  rw [grantedWithin_consumes]
  exact (hnew.takes_covered hrate hcapacity htimely).takenWithin_le
    hrate.le hcapacity.le start hlength

theorem granted_le_three_calls :
    (grantedWithin 0 (0 + 1) ((TokenBucket.new 4 8 0).consumes
      [.consume 8 0, .timeToAvailable 4 (1 / 2), .consume 4 1]) : ℚ) ≤
        8 + 4 * 1 :=
  (granted_le (by norm_num) (by norm_num)
    (by norm_num [Timely, BucketCall.now])).2.2 0 1 (by norm_num)

/-! ## Asking -/

/-- A refill in between changes nothing. -/
theorem Bounded.advance_advance (hb : b.Bounded rate capacity)
    (hrate : 0 < rate) {first second : ℚ} (hle : first ≤ second) :
    (b.advance first).advance second = b.advance second := by
  have hlater : 0 ≤ second - first := sub_nonneg.mpr hle
  have hrate' : 0 ≤ b.rate := hb.rate_eq ▸ hrate.le
  unfold TokenBucket.advance
  dsimp only
  rw [CappedRefill.refill_refill hrate' _ hlater,
    sub_add_sub_cancel']

theorem Bounded.advance_self (hb : b.Bounded rate capacity) :
    b.advance b.t = b := by
  have hle : b.tokens ≤ b.capacity := hb.capacity_eq ▸ hb.tokens_le
  unfold TokenBucket.advance
  rw [sub_self, CappedRefill.refill_zero hle]

theorem Bounded.consume_advance (hb : b.Bounded rate capacity)
    (hrate : 0 < rate) (hcapacity : 0 < capacity) {since now : ℚ}
    (hsince : b.t ≤ since) (hnow : since ≤ now) (n : ℕ) :
    (b.advance since).consume n now = b.consume n now := by
  have hadvance := hb.advance hrate hcapacity hsince
  rw [hadvance.consume_eq hrate hcapacity, hb.consume_eq hrate hcapacity,
    hb.advance_advance hrate hnow]

/-- A bucket that was refilled in between answers the `consume` calls as one
that was not asked at all. -/
theorem Bounded.consumes_advance (hb : b.Bounded rate capacity)
    (hrate : 0 < rate) (hcapacity : 0 < capacity) {cs : List BucketCall}
    {since : ℚ} (hsince : b.t ≤ since) (htimely : Timely since cs) :
    (b.advance since).consumes cs = b.consumes (cs.filter isConsume) := by
  induction cs generalizing b since with
  | nil => rfl
  | cons c cs ih =>
      obtain ⟨hnow, hlater⟩ := timely_cons.mp htimely
      cases c with
      | consume n now =>
          obtain ⟨hcall, ht⟩ :=
            hb.call hrate hcapacity (.consume n now) (hsince.trans hnow)
          have hrest := ih hcall ht.le hlater
          have hsame := hb.consume_advance hrate hcapacity hsince hnow n
          rw [← ht, hcall.advance_self] at hrest
          rw [BucketCall.now] at hsame
          rw [List.filter_cons_of_pos rfl, consumes, consumes, hsame]
          exact congrArg _ hrest
      | timeToAvailable n now =>
          have hadvance := hb.advance hrate hcapacity hsince
          have hsame := hb.advance_advance hrate hnow
          rw [BucketCall.now] at hsame
          rw [List.filter_cons_of_neg Bool.false_ne_true, consumes,
            hadvance.timeToAvailable_snd hrate hcapacity, hsame]
          exact ih hb (hsince.trans hnow) hlater

theorem Bounded.consumes_filter (hb : b.Bounded rate capacity)
    (hrate : 0 < rate) (hcapacity : 0 < capacity) {cs : List BucketCall}
    (htimely : Timely b.t cs) :
    b.consumes cs = b.consumes (cs.filter isConsume) := by
  have hadvance := hb.consumes_advance hrate hcapacity le_rfl htimely
  rwa [hb.advance_self] at hadvance

theorem consumes_append (b : TokenBucket) (first second : List BucketCall) :
    b.consumes (first ++ second) =
      b.consumes first ++ (b.calls first).consumes second := by
  induction first generalizing b with
  | nil => rfl
  | cons c first ih =>
      cases c with
      | consume n now =>
          rw [List.cons_append, consumes, consumes, ih, List.cons_append]
          rfl
      | timeToAvailable n now =>
          rw [List.cons_append, consumes, consumes, ih]
          rfl

/-- The reported time is the least one after which the consumption
succeeds. -/
theorem Bounded.consume_iff_wait (hb : b.Bounded rate capacity)
    (hrate : 0 < rate) (hcapacity : 0 < capacity) {n : ℕ}
    (hfits : (n : ℚ) ≤ capacity) {askAt wait : ℚ} (hask : b.t ≤ askAt)
    (hwait : 0 ≤ wait) :
    ((b.advance askAt).consume n (askAt + wait)).1 = true ↔
      (b.timeToAvailable n askAt).1 ≤ wait := by
  have hadvance := hb.advance hrate hcapacity hask
  have henough : (n : ℚ) ≤ CappedRefill.refill capacity rate
      (b.advance askAt).tokens wait ↔
        (n - (b.advance askAt).tokens) / rate ≤ wait :=
    CappedRefill.demand_le_refill_iff hrate hfits
  have hlevel : ((b.advance askAt).advance (askAt + wait)).tokens =
      CappedRefill.refill capacity rate (b.advance askAt).tokens wait := by
    have hdt : askAt + wait - (b.advance askAt).t = wait :=
      add_sub_cancel_left askAt wait
    rw [TokenBucket.advance, hdt, hadvance.rate_eq, hadvance.capacity_eq]
  rw [hadvance.consume_eq hrate hcapacity, hlevel,
    hb.timeToAvailable_eq hrate hcapacity, hb.rate_eq]
  by_cases hnow : (n : ℚ) ≤ (b.advance askAt).tokens
  · have hmissing : ((n : ℚ) - (b.advance askAt).tokens) / rate ≤ 0 :=
      div_nonpos_of_nonpos_of_nonneg (sub_nonpos.mpr hnow) hrate.le
    rw [if_pos hnow, if_pos (henough.mpr (hmissing.trans hwait))]
    exact iff_of_true rfl hwait
  · have hmissing : 0 ≤ ((n : ℚ) - (b.advance askAt).tokens) / rate :=
      div_nonneg (sub_nonneg.mpr (not_le.mp hnow).le) hrate.le
    rw [if_neg hnow, max_eq_left hmissing, ← henough]
    by_cases hin : (n : ℚ) ≤
        CappedRefill.refill capacity rate (b.advance askAt).tokens wait
    · rw [if_pos hin]
      exact iff_of_true rfl hin
    · rw [if_neg hin]
      exact iff_of_false Bool.false_ne_true hin

/-- Asking again in the meantime does not change the answer. -/
theorem Bounded.consume_after_asks (hb : b.Bounded rate capacity)
    (hrate : 0 < rate) (hcapacity : 0 < capacity) {asks : List BucketCall}
    (hasks : asks.filter isConsume = []) {n : ℕ} {now : ℚ}
    (htimely : Timely b.t (asks ++ [.consume n now])) :
    ((b.calls asks).consume n now).1 = (b.consume n now).1 := by
  have hnone : b.consumes asks = [] := by
    rw [hb.consumes_filter hrate hcapacity (timely_append htimely), hasks,
      consumes]
  have hall := hb.consumes_filter hrate hcapacity htimely
  rw [consumes_append, hnone, List.filter_append, hasks] at hall
  have hlast := congrArg (List.map ConsumeResult.ok) hall
  exact List.head_eq_of_cons_eq hlast

/-- Calls of `time_to_available` change no result of a `consume`, wherever
they stand; and what one reports for an `n` within the capacity is exactly
how long it takes until `consume(n)` succeeds, when nothing is consumed in
between. -/
theorem timeToAvailable_exact {rate capacity : ℚ} (hrate : 0 < rate)
    (hcapacity : 0 < capacity) (since : ℚ) :
    (∀ cs cs', Timely since cs → Timely since cs' →
      cs.filter isConsume = cs'.filter isConsume →
        (TokenBucket.new rate capacity since).consumes cs =
          (TokenBucket.new rate capacity since).consumes cs') ∧
    ∀ cs (n : ℕ) askAt asks wait,
      Timely since (cs ++ .timeToAvailable n askAt ::
        (asks ++ [.consume n (askAt + wait)])) →
      asks.filter isConsume = [] → n ≤ capacity →
        let b := (TokenBucket.new rate capacity since).calls cs
        (((b.timeToAvailable n askAt).2.calls asks).consume n
            (askAt + wait)).1 = true ↔
          (b.timeToAvailable n askAt).1 ≤ wait := by
  have hnew : (TokenBucket.new rate capacity since).Bounded rate capacity :=
    .new hcapacity since
  constructor
  · intro cs cs' htimely htimely' hsame
    rw [hnew.consumes_filter hrate hcapacity htimely, hsame,
      hnew.consumes_filter hrate hcapacity htimely']
  · intro cs n askAt asks wait htimely hasks hfits
    have hb := hnew.calls hrate hcapacity (timely_append htimely)
    have hlater := hnew.timely_calls hrate hcapacity htimely
    obtain ⟨hask, hrest⟩ := timely_cons.mp hlater
    rw [BucketCall.now] at hask hrest
    have hadvance := hb.advance hrate hcapacity hask
    have hwait : 0 ≤ wait := by
      have hlast := (List.pairwise_cons.mp hrest).1 (askAt + wait)
        (List.mem_map.mpr ⟨.consume n (askAt + wait), by simp, rfl⟩)
      linarith
    dsimp only
    rw [hb.timeToAvailable_snd hrate hcapacity,
      hadvance.consume_after_asks hrate hcapacity hasks hrest]
    exact hb.consume_iff_wait hrate hcapacity hfits hask hwait

theorem timeToAvailable_exact_instance :
    (TokenBucket.new 4 8 0).consumes
        [.consume 8 0, .timeToAvailable 8 1, .consume 8 2] =
      (TokenBucket.new 4 8 0).consumes [.consume 8 0, .consume 8 2] :=
  (timeToAvailable_exact (by norm_num) (by norm_num) 0).1 _ _
    (by norm_num [Timely, BucketCall.now])
    (by norm_num [Timely, BucketCall.now]) rfl

end TokenBucket
end BabilCors
