import BabilCors.Rtcm

/-!
# The bounded queue of a rover

`ByteQueue` with its byte count as a field that the structure keeps right.
The condition variable is not part of the state: `get` waits by not being
enabled.
-/

namespace BabilCors

structure ByteQueue where
  max : ℕ
  buf : List Bytes
  bytes : ℕ
  closed : Bool
  bytes_eq : bytes = (buf.map List.length).sum
  bytes_le : bytes ≤ max
  deriving DecidableEq

namespace ByteQueue

def new (maxBytes : ℤ) : ByteQueue :=
  ⟨maxBytes.toNat, [], 0, false, rfl, Nat.zero_le _⟩

def close (q : ByteQueue) : ByteQueue :=
  { q with closed := true }

/-- `put_nowait`; `none` is `ByteQueueFull`.  A queue of size zero takes
everything and keeps nothing. -/
def putNowait (q : ByteQueue) (b : Bytes) : Option ByteQueue :=
  if q.closed then none
  else if q.max = 0 then some q
  else if q.max < b.length then none
  else if hfull : q.max < q.bytes + b.length then none
  else
    some
      { q with
        buf := q.buf ++ [b]
        bytes := q.bytes + b.length
        bytes_eq := by simp [q.bytes_eq]
        bytes_le := Nat.not_lt.mp hfull }

/-- `get`: `none` while it waits, and `some (none, q)` for the end of a closed
queue. -/
def get (q : ByteQueue) : Option (Option Bytes × ByteQueue) :=
  match hbuf : q.buf with
  | [] => if q.closed then some (none, q) else none
  | b :: rest =>
      some (some b,
        { q with
          buf := rest
          bytes := q.bytes - b.length
          bytes_eq := by
            have hsum := q.bytes_eq
            rw [hbuf, List.map_cons, List.sum_cons] at hsum
            omega
          bytes_le := (Nat.sub_le _ _).trans q.bytes_le })

@[simp] theorem buf_new (maxBytes : ℤ) : (new maxBytes).buf = [] := rfl

@[simp] theorem buf_close (q : ByteQueue) : q.close.buf = q.buf := rfl

theorem putNowait_buf {q q' : ByteQueue} {b : Bytes}
    (hput : q.putNowait b = some q') :
    q'.buf = q.buf ∨ q'.buf = q.buf ++ [b] := by
  unfold putNowait at hput
  split_ifs at hput
  · cases hput
    exact .inl rfl
  · cases hput
    exact .inr rfl

theorem get_some {q q' : ByteQueue} {b : Bytes}
    (hget : q.get = some (some b, q')) : q.buf = b :: q'.buf := by
  unfold get at hget
  split at hget
  · split_ifs at hget
    cases hget
  next hbuf =>
    cases hget
    exact hbuf

end ByteQueue

end BabilCors
