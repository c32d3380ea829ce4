import BabilCors.TransitionRuns
import Mathlib.Tactic

/-!
# Accounts of a queue with one server

Items are offered to a queue; each is dropped or accepted.  A server takes them
out one at a time, holds at most one, and is done with it or loses it and takes
no more.  The log of these moves accounts for every item, and items leave the
queue in the order of their acceptance.
-/

namespace Conveyor

variable {α : Type*}

inductive Move (α : Type*) where
  | drop (item : α)
  | accept (item : α)
  | take (item : α)
  deriving DecidableEq, Repr

def Move.offered? : Move α → Option α
  | .drop item | .accept item => some item
  | .take _ => none

def Move.dropped? : Move α → Option α
  | .drop item => some item
  | _ => none

def Move.accepted? : Move α → Option α
  | .accept item => some item
  | _ => none

def Move.taken? : Move α → Option α
  | .take item => some item
  | _ => none

def offered (log : List (Move α)) : List α :=
  log.filterMap Move.offered?

def dropped (log : List (Move α)) : List α :=
  log.filterMap Move.dropped?

def accepted (log : List (Move α)) : List α :=
  log.filterMap Move.accepted?

def taken (log : List (Move α)) : List α :=
  log.filterMap Move.taken?

theorem filterMap_concat {β : Type*} (f : α → Option β) (log : List α)
    (move : α) :
    (log ++ [move]).filterMap f = log.filterMap f ++ (f move).toList := by
  cases hmove : f move <;> simp [hmove]

theorem accepted_concat (log : List (Move α)) (move : Move α) :
    accepted (log ++ [move]) = accepted log ++ move.accepted?.toList :=
  filterMap_concat Move.accepted? log move

theorem taken_concat (log : List (Move α)) (move : Move α) :
    taken (log ++ [move]) = taken log ++ move.taken?.toList :=
  filterMap_concat Move.taken? log move

theorem dropped_concat (log : List (Move α)) (move : Move α) :
    dropped (log ++ [move]) = dropped log ++ move.dropped?.toList :=
  filterMap_concat Move.dropped? log move

/-- What was accepted is done, in the hand of the server, or in the queue. -/
structure Balanced (log : List (Move α)) (done hand queue : List α) :
    Prop where
  accepted : accepted log = done ++ hand ++ queue
  taken : taken log = done ++ hand
  hand : hand.length ≤ 1

theorem balanced_nil : Balanced ([] : List (Move α)) [] [] [] where
  accepted := rfl
  taken := rfl
  hand := Nat.zero_le 1

namespace Balanced

variable {log : List (Move α)} {done hand queue : List α}

theorem drop (hlog : Balanced log done hand queue) (item : α) :
    Balanced (log ++ [.drop item]) done hand queue := by
  constructor
  · simp [accepted_concat, Move.accepted?, hlog.accepted]
  · simp [taken_concat, Move.taken?, hlog.taken]
  · exact hlog.hand

theorem accept (hlog : Balanced log done hand queue) (item : α) :
    Balanced (log ++ [.accept item]) done hand (queue ++ [item]) := by
  constructor
  · simp [accepted_concat, Move.accepted?, hlog.accepted]
  · simp [taken_concat, Move.taken?, hlog.taken]
  · exact hlog.hand

theorem take {item : α} (hlog : Balanced log done [] (item :: queue)) :
    Balanced (log ++ [.take item]) done [item] queue := by
  constructor
  · simp [accepted_concat, Move.accepted?, hlog.accepted]
  · simp [taken_concat, Move.taken?, hlog.taken]
  · simp

theorem complete (hlog : Balanced log done hand queue) :
    Balanced log (done ++ hand) [] queue := by
  constructor
  · simpa using hlog.accepted
  · simpa using hlog.taken
  · simp

/-- The items leave in the order in which they were accepted. -/
theorem fifo (hlog : Balanced log done hand queue) :
    Conveyor.accepted log = Conveyor.taken log ++ queue := by
  rw [hlog.accepted, hlog.taken]

/-- Nothing that was offered is lost from the accounts. -/
theorem weight (hlog : Balanced log done hand queue) (w : α → ℕ) :
    ((offered log).map w).sum = (done.map w).sum +
      ((dropped log).map w).sum + (queue.map w).sum + (hand.map w).sum := by
  have hsplit : ((offered log).map w).sum =
      ((dropped log).map w).sum + ((Conveyor.accepted log).map w).sum := by
    clear hlog
    unfold offered dropped Conveyor.accepted
    induction log with
    | nil => rfl
    | cons move log ih =>
        cases move with
        | drop item =>
            simp only [List.filterMap_cons, Move.offered?, Move.dropped?,
              Move.accepted?, List.map_cons, List.sum_cons, ih]
            omega
        | accept item =>
            simp only [List.filterMap_cons, Move.offered?, Move.dropped?,
              Move.accepted?, List.map_cons, List.sum_cons, ih]
            omega
        | take item =>
            simpa only [List.filterMap_cons, Move.offered?, Move.dropped?,
              Move.accepted?] using ih
  rw [hsplit, hlog.accepted]
  simp only [List.map_append, List.sum_append]
  omega

end Balanced

/-! ## Stages of a run -/

/-- How a stage keeps the order of its items: as it gets them, or with
losses. -/
structure Keeping (rel : List α → List α → Prop) : Prop where
  refl : ∀ items, rel items items
  trans : ∀ {first second third}, rel first second → rel second third →
    rel first third
  left : ∀ items {first second}, rel first second →
    rel (items ++ first) (items ++ second)
  right : ∀ items {first second}, rel first second →
    rel (first ++ items) (second ++ items)

theorem keeping_eq : Keeping (Eq (α := List α)) where
  refl _ := rfl
  trans := Eq.trans
  left items _ _ := congrArg (items ++ ·)
  right items _ _ := congrArg (· ++ items)

theorem keeping_sublist : Keeping (List.Sublist (α := α)) where
  refl := List.Sublist.refl
  trans := List.Sublist.trans
  left items _ _ h := h.append_left items
  right items _ _ h := h.append_right items

/-- A stage holds some items in every state.  When each step keeps what it
holds and gets as what it gives and then holds, so does the run. -/
theorem Keeping.run {σ ε : Type*} {rel : List α → List α → Prop}
    (hrel : Keeping rel) {step : σ → ε → Option σ}
    {condition : σ → ε → Prop} {P : σ → Prop} {holds : σ → List α}
    {gives gets : σ → ε → List α}
    (hstep : ∀ state event next, P state → condition state event →
      step state event = some next → P next ∧
        rel (gives state event ++ holds next)
          (holds state ++ gets state event))
    {state final : σ} {events : List ε} (hstart : P state)
    (hmeet : TransitionRuns.StepsMeet step condition state events)
    (hrun : TransitionRuns.run step state events = some final) :
    rel (TransitionRuns.outputs step gives state events ++ holds final)
      (holds state ++ TransitionRuns.outputs step gets state events) := by
  induction events generalizing state with
  | nil =>
      obtain rfl := Option.some.inj hrun
      simpa [TransitionRuns.outputs] using hrel.refl (holds state)
  | cons event events ih =>
      rcases TransitionRuns.run_cons_eq_some.mp hrun with
        ⟨next, hnext, hrest⟩
      rcases hstep state event next hstart hmeet.1 hnext with ⟨hP, hkeep⟩
      have hlater := ih hP (hmeet.2 next hnext) hrest
      rw [TransitionRuns.outputs_cons hnext,
        TransitionRuns.outputs_cons hnext, List.append_assoc]
      have hjoin := hrel.right
        (TransitionRuns.outputs step gets next events) hkeep
      rw [List.append_assoc, List.append_assoc] at hjoin
      exact hrel.trans (hrel.left (gives state event) hlater) hjoin

end Conveyor
