import BabilCors.CappedRefill

/-!
# Tiers, token buckets and the epoch gate

The functions of `tiers.py`, in exact arithmetic.  A function that reads the
clock takes the reading as its argument.
-/

namespace BabilCors

structure Tier where
  rateLimitBps : ℤ
  maxEpochsPerMinute : ℤ
  maxQueueBytes : ℤ
  deriving DecidableEq, Repr

structure TokenBucket where
  rate : ℚ
  capacity : ℚ
  tokens : ℚ
  t : ℚ
  deriving DecidableEq, Repr

namespace TokenBucket

def new (rate capacity now : ℚ) : TokenBucket :=
  ⟨rate, capacity, capacity, now⟩

/-- The part that `consume` and `time_to_available` share: refill for the time
since the last reading of the clock. -/
def advance (b : TokenBucket) (now : ℚ) : TokenBucket :=
  { b with
    tokens := CappedRefill.refill b.capacity b.rate b.tokens (now - b.t)
    t := now }

def consume (b : TokenBucket) (n : ℕ) (now : ℚ) : Bool × TokenBucket :=
  if b.rate ≤ 0 ∨ b.capacity ≤ 0 then
    (true, b)
  else
    let b := b.advance now
    if (n : ℚ) ≤ b.tokens then
      (true, { b with tokens := b.tokens - n })
    else
      (false, b)

def timeToAvailable (b : TokenBucket) (n : ℕ) (now : ℚ) : ℚ × TokenBucket :=
  if b.rate ≤ 0 ∨ b.capacity ≤ 0 then
    (0, b)
  else
    let b := b.advance now
    if (n : ℚ) ≤ b.tokens then
      (0, b)
    else
      let missing := (n : ℚ) - b.tokens
      (max (missing / b.rate) 0, b)

end TokenBucket

/-- In exact arithmetic the conversion of the limit cannot raise; `epochGate`
has the exception of a float. -/
def epochGateOk (lastTs : Option ℚ) (epm : ℤ) (now : ℚ) : Bool :=
  if epm ≤ 0 then true
  else
    let period := 60 / (epm : ℚ)
    match lastTs with
    | none => true
    | some lastTs => period ≤ now - lastTs

/-- `max_queue_bytes or 262144`: the byte limit of a session's queue. -/
def Tier.queueLimit (tier : Tier) : ℤ :=
  if tier.maxQueueBytes = 0 then 262144 else tier.maxQueueBytes

/-- The bucket of a new session: none without a rate limit, else two seconds
of data. -/
def Tier.sessionBucket (tier : Tier) (now : ℚ) : Option TokenBucket :=
  if 0 < tier.rateLimitBps then
    some (.new tier.rateLimitBps (max (tier.rateLimitBps * 2) 1 : ℤ) now)
  else
    none

end BabilCors
