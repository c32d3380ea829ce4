import Mathlib.Tactic

/-!
# Cancelled tasks and what awaits them

A coroutine returns, throws an ordinary exception, or throws the cancellation
exception, which handlers of ordinary exceptions let through.  Cancelling a
task throws the cancellation where the task is suspended, inside the handlers
around that point.  A body that goes from one awaited call to the next gets as
far as its calls return; a call may also wait for ever.
-/

namespace TaskCancellation

inductive Thrown where
  | exception
  | cancelled
  deriving DecidableEq, Repr

inductive Ending where
  | returned
  | threw (thrown : Thrown)
  deriving DecidableEq, Repr

/-- What an `except` clause names: ordinary exceptions, the cancellation, or
everything. -/
inductive Handler where
  | exception
  | cancelled
  | base
  deriving DecidableEq, Repr

def Handler.catches : Handler → Thrown → Bool
  | .exception, .exception => true
  | .cancelled, .cancelled => true
  | .base, _ => true
  | _, _ => false

/-- How a `try` ends whose clause swallows what it catches. -/
def Ending.guarded (ending : Ending) (handler : Handler) : Ending :=
  match ending with
  | .returned => .returned
  | .threw thrown =>
      if handler.catches thrown then .returned else .threw thrown

/-- The handlers around a point, the innermost first. -/
def Ending.unwound (ending : Ending) (handlers : List Handler) : Ending :=
  handlers.foldl Ending.guarded ending

theorem guarded_exception_iff (ending : Ending) :
    ending.guarded .exception = .returned ↔ ending ≠ .threw .cancelled := by
  rcases ending with _ | (_ | _)
  · simp [Ending.guarded]
  · simp [Ending.guarded, Handler.catches]
  · simp [Ending.guarded, Handler.catches]

@[simp] theorem guarded_exception_twice (ending : Ending) :
    (ending.guarded .exception).guarded .exception =
      ending.guarded .exception := by
  rcases ending with _ | (_ | _) <;> rfl

@[simp] theorem guarded_base (ending : Ending) :
    ending.guarded .base = .returned := by
  rcases ending with _ | (_ | _) <;> rfl

/-- The coroutine of a task: it has ended, or is suspended at a point. -/
inductive Coroutine (π : Type*) where
  | ended (ending : Ending)
  | suspended (point : π)
  deriving DecidableEq, Repr

variable {π ι : Type*}

/-- How an `await` of the task ends once the task has been cancelled: a task
that has ended cannot be cancelled any more. -/
def Coroutine.awaitCancelled (handlers : π → List Handler) :
    Coroutine π → Ending
  | .ended ending => ending
  | .suspended point => (Ending.threw .cancelled).unwound (handlers point)

/-- The task has ended, and not by a cancellation. -/
def Coroutine.EndedItself (task : Coroutine π) : Prop :=
  ∃ ending, task = .ended ending ∧ ending ≠ .threw .cancelled

/-- A coroutine that catches its cancellation nowhere. -/
theorem await_uncaught_iff {handlers : π → List Handler}
    (hhandlers : ∀ point,
      (Ending.threw .cancelled).unwound (handlers point) =
        .threw .cancelled)
    (task : Coroutine π) :
    (task.awaitCancelled handlers).guarded .exception = .returned ↔
      task.EndedItself := by
  rw [guarded_exception_iff]
  cases task with
  | ended ending =>
      simp [Coroutine.awaitCancelled, Coroutine.EndedItself]
  | suspended point =>
      simp [Coroutine.awaitCancelled, hhandlers, Coroutine.EndedItself]

/-- A coroutine that catches its cancellation once it has started. -/
theorem await_caught_iff [DecidableEq π] {handlers : π → List Handler}
    {notStarted : π}
    (hhandlers : ∀ point,
      (Ending.threw .cancelled).unwound (handlers point) =
        if point = notStarted then .threw .cancelled else .returned)
    (task : Coroutine π) :
    (task.awaitCancelled handlers).guarded .exception = .returned ↔
      task.EndedItself ∨
        ∃ point ≠ notStarted, task = .suspended point := by
  rw [guarded_exception_iff]
  cases task with
  | ended ending =>
      simp [Coroutine.awaitCancelled, Coroutine.EndedItself]
  | suspended point =>
      by_cases hpoint : point = notStarted
      · simp [Coroutine.awaitCancelled, hhandlers, Coroutine.EndedItself,
          hpoint]
      · simp [Coroutine.awaitCancelled, hhandlers, Coroutine.EndedItself,
          hpoint]

/-- Await the calls in order: those that returned, and how the body ends.  A
call that does not end is `none`, and so is the end of the body then. -/
def awaitAll : List (ι × Option Ending) → List ι × Option Ending
  | [] => ([], some .returned)
  | (call, some .returned) :: calls =>
      (call :: (awaitAll calls).1, (awaitAll calls).2)
  | (_, some (.threw thrown)) :: _ => ([], some (.threw thrown))
  | (_, none) :: _ => ([], none)

/-- The body goes through all of its calls exactly when each returns. -/
theorem awaitAll_eq_iff (calls : List (ι × Option Ending)) :
    awaitAll calls = (calls.map Prod.fst, some .returned) ↔
      ∀ call ∈ calls, call.2 = some .returned := by
  induction calls with
  | nil => simp [awaitAll]
  | cons call calls ih =>
      rw [Prod.ext_iff] at ih ⊢
      rw [List.forall_mem_cons]
      rcases call with ⟨call, _ | _ | thrown⟩
      · simp [awaitAll]
      · simpa [awaitAll] using ih
      · simp [awaitAll]

theorem awaitAll_returned_iff (calls : List (ι × Option Ending)) :
    (awaitAll calls).2 = some .returned ↔
      ∀ call ∈ calls, call.2 = some .returned := by
  induction calls with
  | nil => simp [awaitAll]
  | cons call calls ih =>
      rw [List.forall_mem_cons]
      rcases call with ⟨call, _ | _ | thrown⟩
      · simp [awaitAll]
      · simpa [awaitAll] using ih
      · simp [awaitAll]

end TaskCancellation
