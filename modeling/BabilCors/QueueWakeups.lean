import BabilCors.ByteQueue
import BabilCors.ConditionVariable

/-!
# The wake-ups of a rover's queue

`ByteQueue` with its condition variable.  `put_nowait` and `close` run without
the lock and spawn the task that notifies; the send loop calls `get` again and
again.  Every step of a task or of the call may be taken at any time that the
lock allows, so the runs of the event loop are among the runs here.
-/

namespace BabilCors

open ConditionVariable TransitionRuns

namespace ByteQueue

inductive Change where
  | put (b : Bytes)
  | close
  deriving DecidableEq, Repr

/-- The queue after `put_nowait` or `close`, and the task that it spawns: none
when `put_nowait` raises, or returns at once. -/
def change (q : ByteQueue) : Change → ByteQueue × Option Notice
  | .put b =>
      match q.putNowait b with
      | none => (q, none)
      | some q' => (q', if q.max = 0 then none else some .one)
  | .close => (q.close, some .all)

theorem get_eq_none_iff (q : ByteQueue) :
    q.get = none ↔ q.buf = [] ∧ q.closed = false := by
  unfold get
  split
  next hbuf => simp [hbuf]
  next b rest hbuf => simp [hbuf]

theorem putNowait_of_zero {q q' : ByteQueue} {b : Bytes} (hmax : q.max = 0)
    (hput : q.putNowait b = some q') : q' = q := by
  unfold putNowait at hput
  split_ifs at hput
  exact (Option.some.inj hput).symm

theorem change_alerts (q : ByteQueue) (d : Change)
    (hnotice : (q.change d).2 = none) (hwaits : q.get = none) :
    (q.change d).1.get = none := by
  cases d with
  | close => cases hnotice
  | put b =>
      cases hput : q.putNowait b with
      | none =>
          simp only [change, hput]
          exact hwaits
      | some q' =>
          have hmax : q.max = 0 := by
            by_contra hpos
            simp [change, hput, hpos] at hnotice
          simp only [change, hput, putNowait_of_zero hmax hput]
          exact hwaits

def monitor : Monitor ByteQueue Change (Option Bytes) where
  take := get
  change := change
  alerts := change_alerts

/-- What the calls of `get` return in a run. -/
def results (s : State ByteQueue) (events : List (Event Change)) :
    List (Option Bytes) :=
  outputs (step monitor) (returned monitor) s events

/-- The results so far, then what is left in the closed queue, are what was in
it at the close, and after that only `None`. -/
structure Drains (buf : List Bytes) (log : List (Option Bytes))
    (s : State ByteQueue) : Prop where
  closed : s.resource.closed = true
  results : ∃ k, log ++ s.resource.buf.map some =
      buf.map some ++ List.replicate k none ∧
    (s.resource.buf ≠ [] → k = 0)

theorem get_closed {q q' : ByteQueue} {b? : Option Bytes}
    (hget : q.get = some (b?, q')) : q'.closed = q.closed := by
  unfold get at hget
  split at hget
  · split_ifs at hget
    cases hget
    rfl
  · cases hget
    rfl

theorem change_of_closed {q : ByteQueue} (hclosed : q.closed = true)
    (d : Change) : (q.change d).1 = q := by
  cases d with
  | put b => simp [change, putNowait, hclosed]
  | close =>
      rcases q with ⟨max, buf, bytes, closed, bytes_eq, bytes_le⟩
      obtain rfl : closed = true := hclosed
      rfl

theorem get_none {q q' : ByteQueue} (hget : q.get = some (none, q')) :
    q.buf = [] ∧ q' = q := by
  unfold get at hget
  split at hget
  next hbuf =>
    split_ifs at hget
    cases hget
    exact ⟨hbuf, rfl⟩
  · cases hget

namespace Drains

variable {buf : List Bytes} {log : List (Option Bytes)}
  {s s' : State ByteQueue}

theorem initial (hclosed : s.resource.closed = true) :
    Drains s.resource.buf [] s := by
  constructor
  · exact hclosed
  · exact ⟨0, by simp, fun _ => rfl⟩

theorem same (h : Drains buf log s) (hsame : s'.resource = s.resource) :
    Drains buf (log ++ []) s' := by
  rw [List.append_nil]
  constructor
  · rw [hsame]
    exact h.closed
  · rw [hsame]
    exact h.results

theorem take {result : Option Bytes} (h : Drains buf log s)
    (hget : s.resource.get = some (result, s'.resource)) :
    Drains buf (log ++ [result]) s' := by
  rcases h.results with ⟨k, hlog, hleft⟩
  constructor
  · rw [get_closed hget]
    exact h.closed
  · cases result with
    | none =>
        rcases get_none hget with ⟨hbuf, hsame⟩
        refine ⟨k + 1, ?_, ?_⟩
        · rw [hbuf] at hlog
          rw [hsame, hbuf, List.replicate_succ', ← List.append_assoc, ← hlog]
          simp
        · rw [hsame, hbuf]
          intro hne
          exact absurd rfl hne
    | some b =>
        have hbuf := get_some hget
        have hzero : k = 0 := by
          apply hleft
          simp [hbuf]
        refine ⟨k, ?_, fun _ => hzero⟩
        rw [← hlog, hbuf]
        simp

theorem step {event : Event Change} (h : Drains buf log s)
    (hstep : ConditionVariable.step monitor s event = some s') :
    Drains buf (log ++ returned monitor s event) s' := by
  cases step_outcome hstep with
  | change d => exact h.same (change_of_closed h.closed d)
  | call hidle => exact h.same rfl
  | acquire hphase hfree => exact h.same rfl
  | sleep hinside hnone =>
      have hopen := ((get_eq_none_iff s.resource).mp hnone).2
      rw [h.closed] at hopen
      cases hopen
  | take result resource hinside hsome =>
      have hreturned : returned monitor s .test = [result] := by
        simp [returned, hinside, hsome]
      rw [hreturned]
      exact h.take hsome
  | taskAcquire k t ht hwaits hfree => exact h.same rfl
  | taskNotify k t ht hholds => exact h.same rfl

end Drains

theorem run_drains {s s' : State ByteQueue} {events : List (Event Change)}
    (hclosed : s.resource.closed = true)
    (hrun : run (step monitor) s events = some s') :
    Drains s.resource.buf (results s events) s' := by
  have hmeet : StepsMeet (step monitor) (fun _ _ => True) s events :=
    StepsMeet.of_forall fun _ _ _ => trivial
  have hall : Drains s.resource.buf
      ([] ++ outputs (step monitor) (returned monitor) s events) s' :=
    hmeet.run_outputs (fun _ _ _ _ h _ hstep => Drains.step h hstep)
      (.initial hclosed) hrun
  rwa [List.nil_append] at hall

/-- In no reachable state the consumer sleeps with a chunk in the queue or the
queue closed and no notification to come.  From a close on, the calls return
the chunks in the queue in order and then `None`, and a call that has begun
ends within a bounded number of steps, whatever their order. -/
theorem run_wakes {maxBytes : ℤ} {events : List (Event Change)}
    {s : State ByteQueue}
    (hrun : run (step monitor) (.initial (.new maxBytes)) events = some s) :
    ¬ (s.phase = .asleep ∧ s.tasks = [] ∧
        (s.resource.buf ≠ [] ∨ s.resource.closed = true)) ∧
      (s.resource.closed = true →
        ∀ later s', run (step monitor) s later = some s' →
          (∃ k, results s later ++ s'.resource.buf.map some =
              s.resource.buf.map some ++ List.replicate k none ∧
            (s'.resource.buf ≠ [] → k = 0)) ∧
          ((∀ event ∈ later, event.internal = true) →
            later.length ≤ s.rank ∧
              (Quiescent monitor s' → s'.phase = .idle))) := by
  have halerted : Alerted monitor s := run_alerted hrun
  constructor
  · rintro ⟨hasleep, htasks, hready⟩
    apply halerted hasleep _ htasks
    intro hnone
    rcases (get_eq_none_iff s.resource).mp hnone with ⟨hbuf, hopen⟩
    rcases hready with hchunk | hclosed
    · exact hchunk hbuf
    · rw [hopen] at hclosed
      cases hclosed
  · intro hclosed later s' hlater
    have hdrains := run_drains hclosed hlater
    constructor
    · exact hdrains.results
    · intro hinternal
      constructor
      · exact run_internal_length hinternal hlater
      · intro hquiet
        have hall : run (step monitor) (.initial (.new maxBytes))
            (events ++ later) = some s' := by
          rw [run_append, hrun]
          exact hlater
        rcases (run_alerted hall).settled hquiet with hidle |
          ⟨_, hnone⟩
        · exact hidle
        · have hopen := ((get_eq_none_iff s'.resource).mp hnone).2
          rw [hdrains.closed] at hopen
          cases hopen

def sleepyRun : List (Event Change) :=
  [.call, .acquire, .test, .change (.put [7]), .change .close]

theorem sleepyRun_phase :
    (run (step monitor) (.initial (.new 8)) sleepyRun).map (fun s =>
        (s.phase, s.resource.buf, s.resource.closed)) =
      some (.asleep, [[7]], true) := by
  decide +kernel

theorem run_wakes_sleepy :
    ∃ s, run (step monitor) (.initial (.new 8)) sleepyRun = some s ∧
      s.phase = .asleep ∧ s.resource.buf = [[7]] ∧
      s.resource.closed = true ∧
      ¬ (s.phase = .asleep ∧ s.tasks = [] ∧
        (s.resource.buf ≠ [] ∨ s.resource.closed = true)) := by
  rcases Option.map_eq_some_iff.mp sleepyRun_phase with ⟨s, hrun, hs⟩
  rw [Prod.mk.injEq, Prod.mk.injEq] at hs
  exact ⟨s, hrun, hs.1, hs.2.1, hs.2.2, (run_wakes hrun).1⟩

/-- The task of the `put` wakes the consumer, which takes the chunk; the next
call returns `None`, and the task of the close finds nobody asleep. -/
example :
    (run (step monitor) (.initial (.new 8)) (sleepyRun ++
        [.taskAcquire 0, .taskNotify 0, .acquire, .test, .call, .acquire,
          .test, .taskAcquire 0, .taskNotify 0])).map
        (fun s => (s.phase, s.tasks, s.resource.buf)) =
      some (.idle, [], []) := by
  decide +kernel

end ByteQueue

end BabilCors
