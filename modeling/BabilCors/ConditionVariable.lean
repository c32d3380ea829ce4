import BabilCors.ListSums
import BabilCors.TransitionRuns

/-!
# A condition variable with one client

A resource is changed from outside without the lock, and a change can leave a
task behind that takes the lock and notifies at any later time.  The client
takes from the resource under the lock, and waits on the condition while there
is nothing to take.  When every change that makes something available leaves a
task behind, the client is never asleep for good.
-/

namespace ConditionVariable

open ListSums TransitionRuns

/-- Where the client stands in its call: in front of the lock, with the lock at
the head of its loop, in the waiters of the condition, or notified and in front
of the lock again. -/
inductive Phase where
  | idle
  | entering
  | inside
  | asleep
  | woken
  deriving DecidableEq, Repr

/-- The futures that the client has in the waiters of the condition. -/
def Phase.waiters : Phase → ℕ
  | .asleep | .woken => 1
  | _ => 0

/-- `notify(n)`: a waiter that has been notified already is skipped. -/
def Phase.notify (n : ℕ) : Phase → Phase
  | .asleep => if 0 < n then .woken else .asleep
  | phase => phase

/-- `notify(1)` and `notify_all()`. -/
inductive Notice where
  | one
  | all
  deriving DecidableEq, Repr

def Notice.count (phase : Phase) : Notice → ℕ
  | .one => 1
  | .all => phase.waiters

structure Task where
  notice : Notice
  holding : Bool
  deriving DecidableEq, Repr

variable {σ δ ρ : Type*}

/-- The client's operation, `none` while it has to wait, and the changes from
outside with the notice of the task that they leave behind. -/
structure Monitor (σ δ ρ : Type*) where
  take : σ → Option (ρ × σ)
  change : σ → δ → σ × Option Notice
  alerts : ∀ resource d, (change resource d).2 = none →
    take resource = none → take (change resource d).1 = none

structure State (σ : Type*) where
  resource : σ
  phase : Phase
  tasks : List Task
  deriving DecidableEq

def State.initial (resource : σ) : State σ :=
  ⟨resource, .idle, []⟩

def State.locked (s : State σ) : Bool :=
  s.phase = .inside || s.tasks.any Task.holding

inductive Event (δ : Type*) where
  | change (d : δ)
  | call
  | acquire
  | test
  | taskAcquire (k : ℕ)
  | taskNotify (k : ℕ)
  deriving DecidableEq, Repr

/-- Steps of the tasks and of a call that has begun. -/
def Event.internal : Event δ → Bool
  | .change _ | .call => false
  | _ => true

/-- A task ends with its notification, which releases the lock; so does the
test of the client, which takes or goes to sleep. -/
def step (m : Monitor σ δ ρ) (s : State σ) : Event δ → Option (State σ)
  | .change d =>
      some
        { s with
          resource := (m.change s.resource d).1
          tasks := s.tasks ++
            (m.change s.resource d).2.toList.map (⟨·, false⟩) }
  | .call =>
      if s.phase = .idle then some { s with phase := .entering } else none
  | .acquire =>
      if (s.phase = .entering ∨ s.phase = .woken) ∧ s.locked = false then
        some { s with phase := .inside }
      else none
  | .test =>
      if s.phase = .inside then
        match m.take s.resource with
        | none => some { s with phase := .asleep }
        | some (_, resource) =>
            some { s with resource := resource, phase := .idle }
      else none
  | .taskAcquire k =>
      (s.tasks[k]?).bind fun t =>
        if t.holding = false ∧ s.locked = false then
          some { s with tasks := s.tasks.set k { t with holding := true } }
        else none
  | .taskNotify k =>
      (s.tasks[k]?).bind fun t =>
        if t.holding then
          some
            { s with
              phase := s.phase.notify (t.notice.count s.phase)
              tasks := s.tasks.eraseIdx k }
        else none

/-- What the call of the client returns at an event. -/
def returned (m : Monitor σ δ ρ) (s : State σ) : Event δ → List ρ
  | .test =>
      if s.phase = .inside then (m.take s.resource).toList.map Prod.fst
      else []
  | _ => []

variable {m : Monitor σ δ ρ} {s s' : State σ}

inductive StepOutcome (m : Monitor σ δ ρ) (s : State σ) :
    Event δ → State σ → Prop
  | change (d : δ) : StepOutcome m s (.change d)
      { s with
        resource := (m.change s.resource d).1
        tasks := s.tasks ++
          (m.change s.resource d).2.toList.map (⟨·, false⟩) }
  | call (hidle : s.phase = .idle) :
      StepOutcome m s .call { s with phase := .entering }
  | acquire (hphase : s.phase = .entering ∨ s.phase = .woken)
      (hfree : s.locked = false) :
      StepOutcome m s .acquire { s with phase := .inside }
  | sleep (hinside : s.phase = .inside) (htake : m.take s.resource = none) :
      StepOutcome m s .test { s with phase := .asleep }
  | take (result : ρ) (resource : σ) (hinside : s.phase = .inside)
      (htake : m.take s.resource = some (result, resource)) :
      StepOutcome m s .test
        { s with resource := resource, phase := .idle }
  | taskAcquire (k : ℕ) (t : Task) (ht : s.tasks[k]? = some t)
      (hwaits : t.holding = false) (hfree : s.locked = false) :
      StepOutcome m s (.taskAcquire k)
        { s with tasks := s.tasks.set k { t with holding := true } }
  | taskNotify (k : ℕ) (t : Task) (ht : s.tasks[k]? = some t)
      (hholds : t.holding = true) :
      StepOutcome m s (.taskNotify k)
        { s with
          phase := s.phase.notify (t.notice.count s.phase)
          tasks := s.tasks.eraseIdx k }

theorem step_outcome {event : Event δ} (hstep : step m s event = some s') :
    StepOutcome m s event s' := by
  cases event with
  | change d =>
      obtain rfl := Option.some.inj hstep
      exact .change d
  | call =>
      simp only [step] at hstep
      split_ifs at hstep with hidle
      obtain rfl := Option.some.inj hstep
      exact .call hidle
  | acquire =>
      simp only [step] at hstep
      split_ifs at hstep with hboth
      obtain rfl := Option.some.inj hstep
      exact .acquire hboth.1 hboth.2
  | test =>
      simp only [step] at hstep
      by_cases hinside : s.phase = .inside
      · rw [if_pos hinside] at hstep
        cases htake : m.take s.resource with
        | none =>
            rw [htake] at hstep
            obtain rfl := Option.some.inj hstep
            exact .sleep hinside htake
        | some pair =>
            rcases pair with ⟨result, resource⟩
            rw [htake] at hstep
            obtain rfl := Option.some.inj hstep
            exact .take result resource hinside htake
      · rw [if_neg hinside] at hstep
        cases hstep
  | taskAcquire k =>
      rcases Option.bind_eq_some_iff.mp hstep with ⟨t, ht, hnext⟩
      split_ifs at hnext with hboth
      obtain rfl := Option.some.inj hnext
      exact .taskAcquire k t ht hboth.1 hboth.2
  | taskNotify k =>
      rcases Option.bind_eq_some_iff.mp hstep with ⟨t, ht, hnext⟩
      split_ifs at hnext with hholds
      obtain rfl := Option.some.inj hnext
      exact .taskNotify k t ht hholds

/-! ## No wake-up is lost -/

theorem Phase.notify_ne_asleep (phase : Phase) (notice : Notice) :
    phase.notify (notice.count phase) ≠ .asleep := by
  cases phase <;> cases notice <;> simp [notify, Notice.count, waiters]

/-- A client that is asleep with something to take has a task to come. -/
def Alerted (m : Monitor σ δ ρ) (s : State σ) : Prop :=
  s.phase = .asleep → m.take s.resource ≠ none → s.tasks ≠ []

theorem alerted_initial (resource : σ) : Alerted m (.initial resource) := by
  intro hasleep
  cases hasleep

theorem Alerted.step {event : Event δ} (h : Alerted m s)
    (hstep : step m s event = some s') : Alerted m s' := by
  intro hasleep htake
  cases step_outcome hstep with
  | change d =>
      cases hnotice : (m.change s.resource d).2 with
      | some notice => simp
      | none =>
          have hbefore : m.take s.resource ≠ none := by
            intro hnone
            exact htake (m.alerts s.resource d hnotice hnone)
          simpa [hnotice] using h hasleep hbefore
  | call hidle => cases hasleep
  | acquire hphase hfree => cases hasleep
  | sleep hinside hnone => exact absurd hnone htake
  | take result resource hinside hsome => cases hasleep
  | taskAcquire k t ht hwaits hfree =>
      have htasks := h hasleep htake
      simpa using htasks
  | taskNotify k t ht hholds =>
      exact absurd hasleep (s.phase.notify_ne_asleep t.notice)

/-! ## A call ends -/

/-- No task and no call that has begun can take a step. -/
def Quiescent (m : Monitor σ δ ρ) (s : State σ) : Prop :=
  ∀ event, event.internal = true → step m s event = none

theorem taskNotify_of_holding {t : Task} (ht : t ∈ s.tasks)
    (hholds : t.holding = true) : ¬ Quiescent m s := by
  rcases List.mem_iff_getElem?.mp ht with ⟨k, hk⟩
  intro hquiet
  have hnone := hquiet (.taskNotify k) rfl
  simp [step, hk, hholds] at hnone

theorem unlocked_of_quiescent (hquiet : Quiescent m s) :
    s.locked = false := by
  have htest := hquiet .test rfl
  have hinside : s.phase ≠ .inside := by
    intro hinside
    simp only [step, hinside, if_true] at htest
    cases htake : m.take s.resource with
    | none => simp [htake] at htest
    | some pair => simp [htake] at htest
  by_contra hlocked
  have hholder : ∃ t ∈ s.tasks, t.holding = true := by
    simpa [State.locked, hinside] using hlocked
  rcases hholder with ⟨t, ht, hholds⟩
  exact taskNotify_of_holding ht hholds hquiet

/-- When nothing is left to run, the call has returned, or it waits and there
is nothing to take. -/
theorem Alerted.settled (h : Alerted m s) (hquiet : Quiescent m s) :
    s.phase = .idle ∨ s.phase = .asleep ∧ m.take s.resource = none := by
  have hfree := unlocked_of_quiescent hquiet
  have hacquire := hquiet .acquire rfl
  cases hphase : s.phase with
  | idle => exact .inl rfl
  | entering => simp [ConditionVariable.step, hphase, hfree] at hacquire
  | inside => simp [State.locked, hphase] at hfree
  | woken => simp [ConditionVariable.step, hphase, hfree] at hacquire
  | asleep =>
      right
      constructor
      · rfl
      · by_contra htake
        rcases List.exists_mem_of_ne_nil _ (h hphase htake) with ⟨t, ht⟩
        rcases List.mem_iff_getElem?.mp ht with ⟨k, hk⟩
        have hnone := hquiet (.taskAcquire k) rfl
        have hwaits : t.holding = false := by
          by_contra hholds
          exact taskNotify_of_holding ht (by simpa using hholds) hquiet
        simp [ConditionVariable.step, hk, hwaits, hfree] at hnone

def Phase.rank : Phase → ℕ
  | .idle | .asleep => 0
  | .inside => 1
  | .entering | .woken => 2

def Task.rank (t : Task) : ℕ :=
  if t.holding then 3 else 4

/-- How many steps the tasks and the call can take at most. -/
def State.rank (s : State σ) : ℕ :=
  s.phase.rank + (s.tasks.map Task.rank).sum

theorem Phase.rank_notify (phase : Phase) (n : ℕ) :
    (phase.notify n).rank ≤ phase.rank + 2 := by
  cases phase with
  | asleep =>
      unfold notify
      split_ifs <;> simp [rank]
  | idle => simp [notify]
  | entering => simp [notify]
  | inside => simp [notify]
  | woken => simp [notify]

theorem step_rank {event : Event δ} (hinternal : event.internal = true)
    (hstep : step m s event = some s') : s'.rank < s.rank := by
  cases step_outcome hstep with
  | change d => cases hinternal
  | call hidle => cases hinternal
  | acquire hphase hfree =>
      rcases hphase with hphase | hphase
      · simp [State.rank, hphase, Phase.rank]
      · simp [State.rank, hphase, Phase.rank]
  | sleep hinside hnone => simp [State.rank, hinside, Phase.rank]
  | take result resource hinside hsome =>
      simp [State.rank, hinside, Phase.rank]
  | taskAcquire k t ht hwaits hfree =>
      have hsum := sum_map_set ht { t with holding := true } Task.rank
      simp only [State.rank, Task.rank, hwaits, if_true,
        Bool.false_eq_true, if_false] at hsum ⊢
      omega
  | taskNotify k t ht hholds =>
      have hsum := sum_map_eraseIdx ht Task.rank
      have hphase := s.phase.rank_notify (t.notice.count s.phase)
      have htask : t.rank = 3 := by simp [Task.rank, hholds]
      simp only [State.rank]
      omega

/-- A run of internal steps is no longer than the rank of its first state. -/
theorem run_internal_length {events : List (Event δ)}
    (hinternal : ∀ event ∈ events, event.internal = true)
    (hrun : run (step m) s events = some s') : events.length ≤ s.rank := by
  induction events generalizing s with
  | nil => exact Nat.zero_le _
  | cons event events ih =>
      rcases run_cons_eq_some.mp hrun with ⟨next, hnext, hrest⟩
      have hless := step_rank (hinternal event List.mem_cons_self) hnext
      have htail := ih
        (fun e he => hinternal e (List.mem_cons_of_mem event he)) hrest
      simp only [List.length_cons]
      omega

theorem run_alerted {resource : σ} {events : List (Event δ)}
    (hrun : run (step m) (.initial resource) events = some s) :
    Alerted m s :=
  run_preserves (fun _ _ _ h hstep => h.step hstep)
    (alerted_initial resource) hrun

end ConditionVariable
