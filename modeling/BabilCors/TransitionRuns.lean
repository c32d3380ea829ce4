import Mathlib.Tactic

/-!
# Runs of a partial labelled transition function

A system is a function `step : σ → ε → Option σ`: an event carries every
choice of the environment, and `none` says that the event cannot happen in the
state.  This file has finite runs, reachable states, the induction rule for
invariants, and the rule for runs whose steps all meet a condition.
-/

namespace TransitionRuns

variable {σ ε : Type*}

/-- Take the events in order; `none` when one of them cannot happen. -/
def run (step : σ → ε → Option σ) : σ → List ε → Option σ
  | state, [] => some state
  | state, event :: events =>
      (step state event).bind fun next => run step next events

/-- A state some run from `start` ends in. -/
def Reachable (step : σ → ε → Option σ) (start state : σ) : Prop :=
  ∃ events, run step start events = some state

/-- What the steps of the run give off, in order. -/
def outputs {α : Type*} (step : σ → ε → Option σ) (out : σ → ε → List α) :
    σ → List ε → List α
  | _, [] => []
  | state, event :: events =>
      out state event ++
        ((step state event).map fun next =>
          outputs step out next events).getD []

/-- Every step of the run meets the condition in the state it is taken in. -/
def StepsMeet (step : σ → ε → Option σ) (condition : σ → ε → Prop) :
    σ → List ε → Prop
  | _, [] => True
  | state, event :: events =>
      condition state event ∧
        ∀ next, step state event = some next →
          StepsMeet step condition next events

/-- Every state that the run passes has the property, its first and its last
one among them. -/
def StatesMeet (step : σ → ε → Option σ) (P : σ → Prop) : σ → List ε → Prop
  | state, [] => P state
  | state, event :: events =>
      P state ∧ ∀ next, step state event = some next →
        StatesMeet step P next events

variable {step : σ → ε → Option σ}

@[simp] theorem run_nil (state : σ) : run step state [] = some state := rfl

theorem run_cons_eq_some {state final : σ} {event : ε} {events : List ε} :
    run step state (event :: events) = some final ↔
      ∃ next, step state event = some next ∧
        run step next events = some final := by
  simp [run, Option.bind_eq_some_iff]

theorem run_append (state : σ) (first second : List ε) :
    run step state (first ++ second) =
      (run step state first).bind fun middle => run step middle second := by
  induction first generalizing state with
  | nil => simp
  | cons event first ih =>
      simp only [List.cons_append, run]
      cases step state event with
      | none => rfl
      | some next => exact ih next

/-- A property kept by every step is kept by every run. -/
theorem run_preserves {P : σ → Prop}
    (hstep : ∀ state event next,
      P state → step state event = some next → P next)
    {state final : σ} {events : List ε} (hstart : P state)
    (hrun : run step state events = some final) : P final := by
  induction events generalizing state with
  | nil =>
      cases hrun
      exact hstart
  | cons event events ih =>
      obtain ⟨next, hnext, hrest⟩ := run_cons_eq_some.mp hrun
      exact ih (hstep state event next hstart hnext) hrest

theorem Reachable.invariant {P : σ → Prop} {start state : σ}
    (hreach : Reachable step start state) (hstart : P start)
    (hstep : ∀ state event next,
      P state → step state event = some next → P next) : P state := by
  obtain ⟨events, hrun⟩ := hreach
  exact run_preserves hstep hstart hrun

/-- A property kept by every step that meets the condition is kept by every
run whose steps all meet it. -/
theorem StepsMeet.run_preserves {condition : σ → ε → Prop} {P : σ → Prop}
    (hstep : ∀ state event next,
      P state → condition state event → step state event = some next →
        P next)
    {state final : σ} {events : List ε} (hstart : P state)
    (hmeet : StepsMeet step condition state events)
    (hrun : run step state events = some final) : P final := by
  induction events generalizing state with
  | nil =>
      cases hrun
      exact hstart
  | cons event events ih =>
      obtain ⟨next, hnext, hrest⟩ := run_cons_eq_some.mp hrun
      exact ih (hstep state event next hstart hmeet.1 hnext)
        (hmeet.2 next hnext) hrest

theorem StatesMeet.head {P : σ → Prop} {state : σ} {events : List ε}
    (hstates : StatesMeet step P state events) : P state := by
  cases events with
  | nil => exact hstates
  | cons event events => exact hstates.1

/-- What an invariant gives in its states, every state of a run has whose steps
keep the invariant. -/
theorem StepsMeet.statesMeet {condition : σ → ε → Prop} {I P : σ → Prop}
    (hstep : ∀ state event next,
      I state → condition state event → step state event = some next →
        I next)
    (hstate : ∀ state, I state → P state) {state : σ} {events : List ε}
    (hstart : I state) (hmeet : StepsMeet step condition state events) :
    StatesMeet step P state events := by
  induction events generalizing state with
  | nil => exact hstate state hstart
  | cons event events ih =>
      refine ⟨hstate state hstart, fun next hnext => ?_⟩
      exact ih (hstep state event next hstart hmeet.1 hnext)
        (hmeet.2 next hnext)

theorem outputs_cons {α : Type*} {out : σ → ε → List α} {state next : σ}
    {event : ε} (hstep : step state event = some next) (events : List ε) :
    outputs step out state (event :: events) =
      out state event ++ outputs step out next events := by
  simp [outputs, hstep]

theorem outputs_append {α : Type*} {out : σ → ε → List α}
    {state middle : σ} {first : List ε}
    (hrun : run step state first = some middle) (second : List ε) :
    outputs step out state (first ++ second) =
      outputs step out state first ++ outputs step out middle second := by
  induction first generalizing state with
  | nil =>
      obtain rfl := Option.some.inj hrun
      rfl
  | cons event first ih =>
      obtain ⟨next, hnext, hrest⟩ := run_cons_eq_some.mp hrun
      rw [List.cons_append, outputs_cons hnext, outputs_cons hnext, ih hrest,
        List.append_assoc]

theorem filterMap_outputs {α β : Type*} (f : α → Option β)
    (out : σ → ε → List α) (state : σ) (events : List ε) :
    (outputs step out state events).filterMap f =
      outputs step (fun s e => (out s e).filterMap f) state events := by
  induction events generalizing state with
  | nil => rfl
  | cons event events ih =>
      unfold outputs
      rw [List.filterMap_append]
      cases step state event with
      | none => rfl
      | some next => exact congrArg (_ ++ ·) (ih next)

/-- A relation between the state and what has been given off so far, kept by
every step that meets the condition, holds at the end of the run. -/
theorem StepsMeet.run_outputs {α : Type*} {out : σ → ε → List α}
    {condition : σ → ε → Prop} {P : List α → σ → Prop}
    (hstep : ∀ log state event next,
      P log state → condition state event → step state event = some next →
        P (log ++ out state event) next)
    {log : List α} {state final : σ} {events : List ε}
    (hstart : P log state) (hmeet : StepsMeet step condition state events)
    (hrun : run step state events = some final) :
    P (log ++ outputs step out state events) final := by
  induction events generalizing log state with
  | nil =>
      obtain rfl := Option.some.inj hrun
      simpa [outputs] using hstart
  | cons event events ih =>
      rcases run_cons_eq_some.mp hrun with ⟨next, hnext, hrest⟩
      rw [outputs_cons hnext, ← List.append_assoc]
      exact ih (hstep log state event next hstart hmeet.1 hnext)
        (hmeet.2 next hnext) hrest

theorem StepsMeet.of_invariant {condition conclusion : σ → ε → Prop}
    {P : σ → Prop}
    (hstep : ∀ state event next,
      P state → condition state event → step state event = some next →
        P next)
    (hholds : ∀ state event,
      P state → condition state event → conclusion state event)
    {state : σ} {events : List ε} (hstart : P state)
    (hmeet : StepsMeet step condition state events) :
    StepsMeet step conclusion state events := by
  induction events generalizing state with
  | nil => trivial
  | cons event events ih =>
      refine ⟨hholds state event hstart hmeet.1, ?_⟩
      intro next hnext
      exact ih (hstep state event next hstart hmeet.1 hnext)
        (hmeet.2 next hnext)

theorem StepsMeet.of_forall {condition : σ → ε → Prop} {state : σ}
    {events : List ε}
    (hevents : ∀ event ∈ events, ∀ s, condition s event) :
    StepsMeet step condition state events := by
  induction events generalizing state with
  | nil => trivial
  | cons event events ih =>
      exact ⟨hevents event List.mem_cons_self state, fun _ _ =>
        ih fun e he => hevents e (List.mem_cons_of_mem _ he)⟩

/-- The steps of a run: what the events before lead to, and the step itself. -/
theorem run_split {start final : σ} {before after : List ε} {event : ε}
    (hrun : run step start (before ++ event :: after) = some final) :
    ∃ state next, run step start before = some state ∧
      step state event = some next ∧ run step next after = some final := by
  rw [run_append] at hrun
  rcases Option.bind_eq_some_iff.mp hrun with ⟨state, hbefore, hrest⟩
  rcases run_cons_eq_some.mp hrest with ⟨next, hstep, hafter⟩
  exact ⟨state, next, hbefore, hstep, hafter⟩

/-- What is different at the end of a run has been changed by one of its
steps. -/
theorem run_changes {α : Type*} {f : σ → α} {start final : σ}
    {events : List ε} (hrun : run step start events = some final)
    (hne : f final ≠ f start) :
    ∃ before event after state next,
      events = before ++ event :: after ∧
        run step start before = some state ∧
        step state event = some next ∧ f next ≠ f state := by
  induction events generalizing start with
  | nil =>
      obtain rfl := Option.some.inj hrun
      exact (hne rfl).elim
  | cons event events ih =>
      rcases run_cons_eq_some.mp hrun with ⟨next, hnext, hrest⟩
      by_cases hsame : f next = f start
      · rw [← hsame] at hne
        rcases ih hrest hne with
          ⟨before, event', after, state, next', rfl, hbefore, hstep, hchange⟩
        exact ⟨event :: before, event', after, state, next', rfl,
          run_cons_eq_some.mpr ⟨next, hnext, hbefore⟩, hstep, hchange⟩
      · exact ⟨[], event, events, start, next, rfl, rfl, hnext, hsame⟩

theorem run_concat {start state next : σ} {events : List ε} {event : ε}
    (hrun : run step start events = some state)
    (hstep : step state event = some next) :
    run step start (events ++ [event]) = some next := by
  rw [run_append, hrun]
  simp [run, hstep]

/-- A second system follows a run through a projection of its events: an event
without an image leaves the relation and gives off nothing, and every other is
matched by one step. -/
theorem StepsMeet.run_projects {σ' ε' α : Type*}
    {step' : σ' → ε' → Option σ'} {out : σ → ε → List α}
    {out' : σ' → ε' → List α} {condition : σ → ε → Prop}
    {proj : ε → Option ε'} {R : σ → σ' → Prop}
    (hskip : ∀ state state' event next,
      R state state' → condition state event → step state event = some next →
        proj event = none → R next state' ∧ out state event = [])
    (hmatch : ∀ state state' event event' next,
      R state state' → condition state event → step state event = some next →
        proj event = some event' →
        ∃ next', step' state' event' = some next' ∧ R next next' ∧
          out' state' event' = out state event)
    {state final : σ} {state' : σ'} {events : List ε}
    (hrel : R state state') (hmeet : StepsMeet step condition state events)
    (hrun : run step state events = some final) :
    ∃ final', run step' state' (events.filterMap proj) = some final' ∧
      R final final' ∧
      outputs step' out' state' (events.filterMap proj) =
        outputs step out state events := by
  induction events generalizing state state' with
  | nil =>
      obtain rfl := Option.some.inj hrun
      exact ⟨state', rfl, hrel, rfl⟩
  | cons event events ih =>
      rcases run_cons_eq_some.mp hrun with ⟨next, hnext, hrest⟩
      rw [outputs_cons hnext]
      cases hproj : proj event with
      | none =>
          rcases hskip state state' event next hrel hmeet.1 hnext hproj with
            ⟨hrel', hout⟩
          rw [List.filterMap_cons_none hproj, hout, List.nil_append]
          exact ih hrel' (hmeet.2 next hnext) hrest
      | some event' =>
          rcases hmatch state state' event event' next hrel hmeet.1 hnext
            hproj with ⟨next', hnext', hrel', hout⟩
          rcases ih hrel' (hmeet.2 next hnext) hrest with
            ⟨final', hrun', hfinal, houts⟩
          rw [List.filterMap_cons_some hproj]
          refine ⟨final', ?_, hfinal, ?_⟩
          · exact run_cons_eq_some.mpr ⟨next', hnext', hrun'⟩
          · rw [outputs_cons hnext', hout, houts]

end TransitionRuns
