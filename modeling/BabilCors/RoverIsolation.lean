import BabilCors.HubFanOut

/-!
# Rovers do not disturb one another

The runs of a hub, in which any number of rovers join, read, are kicked and
leave, and its source reads with any order of the set.  One rover is followed
through the run and through the run in which no other has ever joined.
-/

namespace BabilCors

open Conveyor Py TransitionRuns

variable {F : Type}

/-- What the connection of a rover does by itself. -/
inductive RoverEvent where
  | icy (ok : Bool)
  | readEnds
  | send (event : SendEvent)
  deriving DecidableEq, Repr

def RoverTask.step (t : RoverTask F) : RoverEvent → Option (RoverTask F)
  | .icy ok => t.icyDone ok
  | .readEnds => t.readEnds
  | .send event => t.sendStep event

inductive HubEvent (F : Type) where
  | sourceData (chunk : Bytes) (now : ℚ) (order : List ℕ)
  | detach
  | join (r : ℕ) (t : RoverTask F)
  | rover (r : ℕ) (event : RoverEvent)
  | kick (r : ℕ)
  | leave (r : ℕ)

namespace HubState

def new : HubState F :=
  ⟨.new, fun _ => none⟩

def hangUp (s : HubState F) (members : List ℕ) : HubState F :=
  { s with
    tasks := fun k =>
      if k ∈ members then (s.tasks k).map RoverTask.hangUp else s.tasks k }

def detachSource (s : HubState F) : HubState F :=
  { s.hangUp s.hub.rovers with hub := { s.hub with sourceAddr := none } }

def addRover (s : HubState F) (r : ℕ) (t : RoverTask F) : HubState F :=
  { s.setTask r t with hub := { s.hub with rovers := s.hub.rovers ++ [r] } }

def removeRover (s : HubState F) (r : ℕ) (t : RoverTask F) : HubState F :=
  { s.setTask r t with
    hub := { s.hub with rovers := s.hub.rovers.filter (· ≠ r) } }

/-- The set is iterated in some order.  An exception of `on_source_data` ends
the read loop of the source, whose `finally` detaches it. -/
def step (s : HubState F) : HubEvent F → Option (HubState F)
  | .sourceData chunk now order =>
      if order.Perm s.hub.rovers then
        let out := s.onSourceData chunk now order
        some (if out.raised then out.state.detachSource else out.state)
      else none
  | .detach => some s.detachSource
  | .join r t =>
      if (s.tasks r).isNone then some (s.addRover r t) else none
  | .rover r event =>
      (s.tasks r).bind fun t => (t.step event).map (s.setTask r)
  | .kick r => some (s.hangUp [r])
  | .leave r =>
      (s.tasks r).bind fun t => t.finish.map (s.removeRover r)

/-- What an event does with the chunks of one rover. -/
def movesOf (r : ℕ) (s : HubState F) : HubEvent F → List (Move Bytes)
  | .sourceData chunk now order =>
      ((s.onSourceData chunk now order).moves.filter (·.1 = r)).map
        Prod.snd
  | _ => []

/-- The event in the run in which no other rover has joined. -/
def alone (r : ℕ) : HubEvent F → Option (HubEvent F)
  | .sourceData chunk now order =>
      some (.sourceData chunk now (order.filter (· = r)))
  | .detach => some .detach
  | .join k t => if k = r then some (.join k t) else none
  | .rover k event => if k = r then some (.rover k event) else none
  | .kick k => if k = r then some (.kick k) else none
  | .leave k => if k = r then some (.leave k) else none

/-- No other rover in the hub has a limit too large for a float. -/
def OthersConvert (r : ℕ) (s : HubState F) (event : HubEvent F) : Prop :=
  ∀ chunk now order, event = .sourceData chunk now order → chunk ≠ [] →
    ∀ k ∈ s.hub.rovers, k ≠ r → ∀ t, s.tasks k = some t →
      t.session.tier.Converts

/-- The second hub has what the first has of the one rover. -/
structure SameRover (r : ℕ) (s s' : HubState F) : Prop where
  task : s'.tasks r = s.tasks r
  rovers : s'.hub.rovers = s.hub.rovers.filter (· = r)

/-! ## One pass of the loop -/

variable {chunk : Bytes} {now : ℚ} {r : ℕ} {s s' : HubState F}

theorem put_task (s s' : HubState F) (r : ℕ) (t : RoverTask F)
    (chunk : Bytes) (now : ℚ) :
    (s'.put r t chunk now).1 = (s.put r t chunk now).1 ∧
      (s'.put r t chunk now).2.tasks r = (s.put r t chunk now).2.tasks r := by
  unfold put
  dsimp only
  split
  · simp [setTask]
  · simp [setTask, recordDroppedBytes]

theorem put_other (s : HubState F) {r k : ℕ} (hk : k ≠ r) (t : RoverTask F)
    (chunk : Bytes) (now : ℚ) :
    (s.put r t chunk now).2.tasks k = s.tasks k := by
  unfold put
  dsimp only
  split
  · simp [setTask, hk]
  · simp [setTask, recordDroppedBytes, hk]

theorem put_rovers (s : HubState F) (r : ℕ) (t : RoverTask F)
    (chunk : Bytes) (now : ℚ) :
    (s.put r t chunk now).2.hub.rovers = s.hub.rovers := by
  unfold put
  dsimp only
  split <;> rfl

theorem fanOut_rovers (order : List ℕ) (s : HubState F) :
    (fanOut chunk now s order).state.hub.rovers = s.hub.rovers := by
  induction order generalizing s with
  | nil => rfl
  | cons k rest ih =>
      rw [fanOut]
      split
      · exact ih s
      · split
        · rfl
        · exact ih s
        · exact (ih _).trans (s.put_rovers k _ chunk now)

/-- The loop over all rovers does with one what the loop over it alone does,
when no other raises. -/
theorem fanOut_alone {order : List ℕ} (htask : s'.tasks r = s.tasks r)
    (hothers : ∀ k ∈ order, k ≠ r → ∀ t, s.tasks k = some t →
      t.session.tier.Converts) :
    let out := fanOut chunk now s order
    let out' := fanOut chunk now s' (order.filter (· = r))
    out'.raised = out.raised ∧ out'.state.tasks r = out.state.tasks r ∧
      out'.moves.filter (·.1 = r) = out.moves.filter (·.1 = r) := by
  induction order generalizing s s' with
  | nil => exact ⟨rfl, htask, rfl⟩
  | cons k rest ih =>
      have hrest : ∀ j ∈ rest, j ≠ r → ∀ t, s.tasks j = some t →
          t.session.tier.Converts := fun j hj =>
        hothers j (List.mem_cons_of_mem k hj)
      by_cases hk : k = r
      · subst hk
        rw [List.filter_cons_of_pos (by simp)]
        rw [fanOut, fanOut, htask]
        cases ht : s.tasks k with
        | none => exact ih htask hrest
        | some t =>
            dsimp only
            split
            · exact ⟨rfl, htask, rfl⟩
            · exact ih htask hrest
            · rcases put_task s s' k t chunk now with ⟨hmove, hput⟩
              have hloop := ih hput (by
                intro j hj hne t' ht'
                rw [put_other s hne] at ht'
                exact hrest j hj hne t' ht')
              refine ⟨hloop.1, hloop.2.1, ?_⟩
              dsimp only
              rw [hmove, List.filter_cons, List.filter_cons, hloop.2.2]
      · rw [List.filter_cons_of_neg (by simpa using hk)]
        rcases @fanOut_cons F chunk now s k
          (hothers k List.mem_cons_self hk) rest with
          ⟨hraised, hstate, hmoves⟩
        intro out out'
        have hvisit : s'.tasks r = (s.visit chunk now k).tasks r := by
          rw [htask]
          simp [visit, recordDroppedBytes, Ne.symm hk]
        have hloop := ih hvisit (by
          intro j hj hne t' ht'
          rcases visit_tier ht' with ⟨t, ht, htier⟩
          have hold := hrest j hj hne t ht
          unfold Tier.Converts at hold ⊢
          rwa [htier])
        refine ⟨hloop.1.trans hraised.symm, ?_, ?_⟩
        · exact hloop.2.1.trans (congrFun (congrArg HubState.tasks
            hstate.symm) r)
        · exact hloop.2.2.trans (hmoves r (Ne.symm hk)).symm

/-! ## One step -/

namespace SameRover

theorem mem_iff (h : SameRover r s s') :
    r ∈ s'.hub.rovers ↔ r ∈ s.hub.rovers := by
  rw [h.rovers]
  simp

theorem hangUp (h : SameRover r s s') {members members' : List ℕ}
    (hmem : r ∈ members' ↔ r ∈ members) :
    SameRover r (s.hangUp members) (s'.hangUp members') := by
  constructor
  · simp only [HubState.hangUp, hmem, h.task]
  · exact h.rovers

theorem detachSource (h : SameRover r s s') :
    SameRover r s.detachSource s'.detachSource := by
  constructor
  · exact (h.hangUp h.mem_iff).task
  · exact h.rovers

theorem setTask (h : SameRover r s s') (t : RoverTask F) :
    SameRover r (s.setTask r t) (s'.setTask r t) := by
  constructor
  · simp [HubState.setTask]
  · exact h.rovers

theorem setOther (h : SameRover r s s') {k : ℕ} (hk : k ≠ r)
    (t : RoverTask F) : SameRover r (s.setTask k t) s' := by
  constructor
  · simp [HubState.setTask, Ne.symm hk, h.task]
  · exact h.rovers

theorem sourceData (h : SameRover r s s') {order : List ℕ}
    (hothers : chunk ≠ [] → ∀ k ∈ order, k ≠ r → ∀ t, s.tasks k = some t →
      t.session.tier.Converts) :
    let out := s.onSourceData chunk now order
    let out' := s'.onSourceData chunk now (order.filter (· = r))
    out'.raised = out.raised ∧ SameRover r out.state out'.state ∧
      out'.moves.filter (·.1 = r) = out.moves.filter (·.1 = r) := by
  unfold onSourceData
  by_cases hempty : chunk = []
  · rw [if_pos hempty, if_pos hempty]
    exact ⟨rfl, h, rfl⟩
  · rw [if_neg hempty, if_neg hempty]
    intro out out'
    rcases @fanOut_alone F chunk now r
      { s with
        hub := { s.hub with rxBytes := s.hub.rxBytes + chunk.length } }
      { s' with
        hub := { s'.hub with rxBytes := s'.hub.rxBytes + chunk.length } }
      order h.task (hothers hempty) with ⟨hraised, htask, hmoves⟩
    refine ⟨hraised, ⟨htask, ?_⟩, hmoves⟩
    calc out'.state.hub.rovers
        = s'.hub.rovers := fanOut_rovers _ _
      _ = s.hub.rovers.filter (· = r) := h.rovers
      _ = out.state.hub.rovers.filter (· = r) := by
          rw [fanOut_rovers]

end SameRover

/-- An event of another rover alone. -/
theorem step_skips {event : HubEvent F} {next : HubState F}
    (h : SameRover r s s') (hstep : step s event = some next)
    (hskip : alone r event = none) :
    SameRover r next s' ∧ movesOf r s event = [] := by
  cases event with
  | sourceData chunk now order => cases hskip
  | detach => cases hskip
  | join k t =>
      have hk : k ≠ r := by
        rintro rfl
        simp [alone] at hskip
      simp only [step] at hstep
      split_ifs at hstep
      obtain rfl := Option.some.inj hstep
      refine ⟨⟨(h.setOther hk t).task, ?_⟩, rfl⟩
      simp [addRover, h.rovers, hk]
  | rover k event =>
      have hk : k ≠ r := by
        rintro rfl
        simp [alone] at hskip
      rcases Option.bind_eq_some_iff.mp hstep with ⟨t, _, hnext⟩
      rcases Option.map_eq_some_iff.mp hnext with ⟨t', _, rfl⟩
      exact ⟨h.setOther hk t', rfl⟩
  | kick k =>
      have hk : k ≠ r := by
        rintro rfl
        simp [alone] at hskip
      obtain rfl := Option.some.inj hstep
      refine ⟨⟨?_, h.rovers⟩, rfl⟩
      simp [HubState.hangUp, Ne.symm hk, h.task]
  | leave k =>
      have hk : k ≠ r := by
        rintro rfl
        simp [alone] at hskip
      rcases Option.bind_eq_some_iff.mp hstep with ⟨t, _, hnext⟩
      rcases Option.map_eq_some_iff.mp hnext with ⟨t', _, rfl⟩
      refine ⟨⟨(h.setOther hk t').task, ?_⟩, rfl⟩
      simp only [removeRover]
      rw [h.rovers, List.filter_filter]
      apply List.filter_congr
      intro j _
      by_cases hj : j = r
      · simp [hj, Ne.symm hk]
      · simp [hj]

/-- An event that the rover takes part in. -/
theorem step_matches {event event' : HubEvent F} {next : HubState F}
    (h : SameRover r s s') (hothers : OthersConvert r s event)
    (hstep : step s event = some next)
    (hmatch : alone r event = some event') :
    ∃ next', step s' event' = some next' ∧ SameRover r next next' ∧
      movesOf r s' event' = movesOf r s event := by
  cases event with
  | sourceData chunk now order =>
      obtain rfl := Option.some.inj hmatch
      simp only [step] at hstep ⊢
      by_cases hperm : order.Perm s.hub.rovers
      swap
      · rw [if_neg hperm] at hstep
        cases hstep
      rw [if_pos hperm] at hstep
      obtain rfl := Option.some.inj hstep
      have hfilter : (order.filter (· = r)).Perm s'.hub.rovers := by
        rw [h.rovers]
        exact hperm.filter _
      rcases @SameRover.sourceData F chunk now r s s' h order
        (fun hne k hk => hothers chunk now order rfl hne k
          (hperm.mem_iff.mp hk)) with ⟨hraised, hstate, hmoves⟩
      rw [if_pos hfilter]
      refine ⟨_, rfl, ?_, ?_⟩
      · rw [hraised]
        split_ifs
        · exact hstate.detachSource
        · exact hstate
      · simp only [movesOf, hmoves]
  | detach =>
      obtain rfl := Option.some.inj hmatch
      obtain rfl := Option.some.inj hstep
      exact ⟨_, rfl, h.detachSource, rfl⟩
  | join k t =>
      simp only [alone] at hmatch
      split_ifs at hmatch with hk
      subst hk
      obtain rfl := Option.some.inj hmatch
      simp only [step] at hstep ⊢
      split_ifs at hstep with hnew
      obtain rfl := Option.some.inj hstep
      rw [h.task, if_pos hnew]
      refine ⟨_, rfl, ⟨(h.setTask t).task, ?_⟩, rfl⟩
      simp [addRover, h.rovers]
  | rover k event =>
      simp only [alone] at hmatch
      split_ifs at hmatch with hk
      subst hk
      obtain rfl := Option.some.inj hmatch
      rcases Option.bind_eq_some_iff.mp hstep with ⟨t, ht, hnext⟩
      rcases Option.map_eq_some_iff.mp hnext with ⟨t', ht', rfl⟩
      refine ⟨s'.setTask k t', ?_, h.setTask t', rfl⟩
      simp [step, h.task, ht, ht']
  | kick k =>
      simp only [alone] at hmatch
      split_ifs at hmatch with hk
      subst hk
      obtain rfl := Option.some.inj hmatch
      obtain rfl := Option.some.inj hstep
      exact ⟨_, rfl, h.hangUp Iff.rfl, rfl⟩
  | leave k =>
      simp only [alone] at hmatch
      split_ifs at hmatch with hk
      subst hk
      obtain rfl := Option.some.inj hmatch
      rcases Option.bind_eq_some_iff.mp hstep with ⟨t, ht, hnext⟩
      rcases Option.map_eq_some_iff.mp hnext with ⟨t', ht', rfl⟩
      refine ⟨s'.removeRover k t', ?_, ⟨(h.setTask t').task, ?_⟩, rfl⟩
      · simp [step, h.task, ht, ht']
      · simp only [removeRover]
        rw [h.rovers, List.filter_comm]

/-! ## Every run -/

/-- In every run whose passes meet no other rover with a limit too large for a
float, a rover's queue, counters and epoch are those of the run in which it has
been alone, and so is every move of a chunk into its queue or past it. -/
theorem run_isolated {events : List (HubEvent F)} {s : HubState F}
    (hothers : StepsMeet step (OthersConvert r) new events)
    (hrun : run step new events = some s) :
    ∃ s', run step new (events.filterMap (alone r)) = some s' ∧
      s'.tasks r = s.tasks r ∧
      outputs step (movesOf r) new (events.filterMap (alone r)) =
        outputs step (movesOf r) new events := by
  have hstart : SameRover r (new : HubState F) new := ⟨rfl, rfl⟩
  have hfollows : ∃ s', run step new (events.filterMap (alone r)) = some s' ∧
      SameRover r s s' ∧
      outputs step (movesOf r) new (events.filterMap (alone r)) =
        outputs step (movesOf r) new events := by
    apply StepsMeet.run_projects _ _ hstart hothers hrun
    · intro state state' event next h _ hstep hskip
      exact step_skips h hstep hskip
    · intro state state' event event' next h hmeets hstep hmatch
      exact step_matches h hmeets hstep hmatch
  rcases hfollows with ⟨s', hrun', hsame, hmoves⟩
  exact ⟨s', hrun', hsame.task, hmoves⟩

def twoRovers (tier : Tier) : List (HubEvent ℚ) :=
  [.join 0 (freshTask tier), .join 1 (freshTask ⟨0, 0, 0⟩),
    .sourceData [7] 0 [0, 1]]

/-- A rover whose limit is a large integer keeps the chunk from the next. -/
theorem large_limit_silences :
    ¬ ∀ (r : ℕ) (events : List (HubEvent ℚ)) (s : HubState ℚ),
      run step new events = some s →
        ∃ s', run step new (events.filterMap (alone r)) = some s' ∧
          s'.tasks r = s.tasks r ∧
          outputs step (movesOf r) new (events.filterMap (alone r)) =
            outputs step (movesOf r) new events := by
  intro hall
  have hsome : (run step new (twoRovers ⟨0, 2 ^ 1024, 0⟩)).isSome = true := by
    decide +kernel
  rcases Option.isSome_iff_exists.mp hsome with ⟨s, hrun⟩
  rcases hall 1 _ s hrun with ⟨s', _, _, hmoves⟩
  have hsilent : outputs step (movesOf 1) new
      (twoRovers ⟨0, 2 ^ 1024, 0⟩) = [] := by
    decide +kernel
  have hserved : outputs step (movesOf 1) new
      ((twoRovers ⟨0, 2 ^ 1024, 0⟩).filterMap (alone 1)) =
        [.accept [7]] := by
    decide +kernel
  rw [hsilent, hserved] at hmoves
  cases hmoves

theorem run_isolated_twoRovers :
    ∃ s s', run step new (twoRovers ⟨0, 60, 0⟩) = some s ∧
      run step new ((twoRovers ⟨0, 60, 0⟩).filterMap (alone 1)) =
        some s' ∧ s'.tasks 1 = s.tasks 1 := by
  have hsome : (run step new (twoRovers ⟨0, 60, 0⟩)).isSome = true := by
    decide +kernel
  rcases Option.isSome_iff_exists.mp hsome with ⟨s, hrun⟩
  have hothers : StepsMeet step (OthersConvert 1) new
      (twoRovers ⟨0, 60, 0⟩) := by
    refine ⟨?_, fun s₁ h₁ => ⟨?_, fun s₂ h₂ => ⟨?_, fun _ _ => trivial⟩⟩⟩
    · rintro _ _ _ ⟨⟩
    · rintro _ _ _ ⟨⟩
    · obtain rfl := Option.some.inj h₁
      obtain rfl := Option.some.inj h₂
      rintro _ _ _ ⟨⟩ _ k hk hne t ht
      have hzero : k = 0 := by
        simp [addRover, setTask, new, MountpointHub.new] at hk
        omega
      subst hzero
      have htask : t = freshTask ⟨0, 60, 0⟩ := by
        simpa [addRover, setTask] using ht.symm
      subst htask
      decide +kernel
  rcases run_isolated hothers hrun with ⟨s', hrun', htask, _⟩
  exact ⟨s, s', hrun, hrun', htask⟩

end HubState

end BabilCors
