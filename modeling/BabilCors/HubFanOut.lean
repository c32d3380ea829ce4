import BabilCors.HubTotals

/-!
# The fan-out of a hub

`on_source_data` as the loop that it is: the rovers of the hub in the order in
which the set gives them out, each with its own state, and an exception that
leaves the loop where it is raised.  The one conversion that can raise is that
of a tier's integer to a float; the other modules take the epoch gate in exact
arithmetic, where it does not.
-/

namespace BabilCors

open Conveyor ListSums Py TransitionRuns

/-- The gate with its one exception: the division converts a positive limit to
a float. -/
def epochGate (lastTs : Option ℚ) (epm : ℤ) (now : ℚ) : Except PyErr Bool :=
  if epm ≤ 0 then .ok (epochGateOk lastTs epm now)
  else
    (floatOfInt epm : Except PyErr ℚ).map fun _ => epochGateOk lastTs epm now

/-- The tier's limit is small enough for a float. -/
def Tier.Converts (tier : Tier) : Prop :=
  tier.maxEpochsPerMinute < floatBound

instance (tier : Tier) : Decidable tier.Converts :=
  inferInstanceAs (Decidable (_ < _))

theorem epochGate_of_converts {tier : Tier} (hconverts : tier.Converts)
    (lastTs : Option ℚ) (now : ℚ) :
    epochGate lastTs tier.maxEpochsPerMinute now =
      .ok (epochGateOk lastTs tier.maxEpochsPerMinute now) := by
  unfold epochGate
  by_cases hfree : tier.maxEpochsPerMinute ≤ 0
  · rw [if_pos hfree]
  · have hsmall : ¬ floatBound ≤ tier.maxEpochsPerMinute.natAbs := by
      unfold Tier.Converts at hconverts
      omega
    rw [if_neg hfree, floatOfInt, if_neg hsmall]
    rfl

variable {F : Type}

/-- A hub with the tasks of its rovers, each under a name of its own. -/
@[ext]
structure HubState (F : Type) where
  hub : MountpointHub
  tasks : ℕ → Option (RoverTask F)

namespace HubState

def setTask (s : HubState F) (r : ℕ) (t : RoverTask F) : HubState F :=
  { s with tasks := Function.update s.tasks r (some t) }

def recordDroppedBytes (s : HubState F) (n : ℕ) : HubState F :=
  { s with
    hub := { s.hub with droppedBytesTotal := s.hub.droppedBytesTotal + n } }

/-- What the loop does once the gate is open, and the move of the chunk. -/
def put (s : HubState F) (r : ℕ) (t : RoverTask F) (chunk : Bytes)
    (now : ℚ) : Move Bytes × HubState F :=
  let session :=
    if 0 < t.session.tier.maxEpochsPerMinute then
      { t.session with epLastTs := some now }
    else t.session
  match session.queue.putNowait chunk with
  | some q =>
      (.accept chunk, s.setTask r { t with session := { session with queue := q } })
  | none =>
      (.drop chunk,
        (s.setTask r { t with
          session :=
            { session with
              droppedBytes := session.droppedBytes + chunk.length }
          }).recordDroppedBytes chunk.length)

structure FanOut (F : Type) where
  raised : Bool
  moves : List (ℕ × Move Bytes)
  state : HubState F

/-- The loop over the rovers that are left. -/
def fanOut (chunk : Bytes) (now : ℚ) : HubState F → List ℕ → FanOut F
  | s, [] => ⟨false, [], s⟩
  | s, r :: rest =>
      match s.tasks r with
      | none => fanOut chunk now s rest
      | some t =>
          match epochGate t.session.epLastTs
              t.session.tier.maxEpochsPerMinute now with
          | .error _ => ⟨true, [], s⟩
          | .ok false => fanOut chunk now s rest
          | .ok true =>
              let put := s.put r t chunk now
              let out := fanOut chunk now put.2 rest
              { out with moves := (r, put.1) :: out.moves }

/-- `on_source_data` with the order that the set has. -/
def onSourceData (s : HubState F) (chunk : Bytes) (now : ℚ)
    (order : List ℕ) : FanOut F :=
  if chunk = [] then ⟨false, [], s⟩
  else
    fanOut chunk now
      { s with hub := { s.hub with rxBytes := s.hub.rxBytes + chunk.length } }
      order

/-! ## The loop, rover by rover -/

variable {chunk : Bytes} {now : ℚ}

/-- What a session drops of the chunk. -/
def lost (chunk : Bytes) (now : ℚ) (t : RoverTask F) : ℕ :=
  (t.session.offer chunk now).droppedBytes - t.session.droppedBytes

theorem put_state {s : HubState F} {r : ℕ} {t : RoverTask F}
    (hgate : epochGateOk t.session.epLastTs
      t.session.tier.maxEpochsPerMinute now = true) :
    (s.put r t chunk now).2 =
      (s.setTask r (t.offer chunk now)).recordDroppedBytes
        (lost chunk now t) := by
  unfold put lost RoverTask.offer RoverSession.offer
  rw [if_pos hgate]
  dsimp only
  split_ifs
  · cases t.session.queue.putNowait chunk with
    | some q => simp [recordDroppedBytes]
    | none => simp
  · cases t.session.queue.putNowait chunk with
    | some q => simp [recordDroppedBytes]
    | none => simp

theorem offer_of_gated {t : RoverTask F}
    (hgate : epochGateOk t.session.epLastTs
      t.session.tier.maxEpochsPerMinute now = false) :
    t.offer chunk now = t := by
  unfold RoverTask.offer RoverSession.offer
  rw [if_neg (by simp [hgate])]

/-- The state behind a rover whose limit converts. -/
def visit (chunk : Bytes) (now : ℚ) (s : HubState F) (r : ℕ) : HubState F :=
  recordDroppedBytes
    { s with
      tasks := Function.update s.tasks r
        ((s.tasks r).map fun t => t.offer chunk now) }
    ((s.tasks r).elim 0 (lost chunk now))

theorem visit_of_none {s : HubState F} {r : ℕ} (hnone : s.tasks r = none) :
    s.visit chunk now r = s := by
  have hupdate : Function.update s.tasks r none = s.tasks := by
    rw [← hnone]
    exact Function.update_eq_self r s.tasks
  simp [visit, recordDroppedBytes, hnone, hupdate]

theorem visit_of_gated {s : HubState F} {r : ℕ} {t : RoverTask F}
    (ht : s.tasks r = some t)
    (hgate : epochGateOk t.session.epLastTs
      t.session.tier.maxEpochsPerMinute now = false) :
    s.visit chunk now r = s := by
  have hoffer : t.offer chunk now = t := offer_of_gated hgate
  have hlost : lost chunk now t = 0 := by
    have hsession := congrArg RoverTask.session hoffer
    change t.session.offer chunk now = t.session at hsession
    rw [lost, hsession, Nat.sub_self]
  have hupdate : Function.update s.tasks r (some t) = s.tasks := by
    rw [← ht]
    exact Function.update_eq_self r s.tasks
  simp [visit, recordDroppedBytes, ht, hoffer, hlost, hupdate]

theorem fanOut_cons {s : HubState F} {r : ℕ}
    (hconverts : ∀ t, s.tasks r = some t → t.session.tier.Converts)
    (rest : List ℕ) :
    (fanOut chunk now s (r :: rest)).raised =
        (fanOut chunk now (s.visit chunk now r) rest).raised ∧
      (fanOut chunk now s (r :: rest)).state =
        (fanOut chunk now (s.visit chunk now r) rest).state ∧
      ∀ q, q ≠ r → (fanOut chunk now s (r :: rest)).moves.filter (·.1 = q) =
        (fanOut chunk now (s.visit chunk now r) rest).moves.filter
          (·.1 = q) := by
  rw [fanOut]
  cases ht : s.tasks r with
  | none =>
      rw [visit_of_none ht]
      exact ⟨rfl, rfl, fun _ _ => rfl⟩
  | some t =>
      dsimp only
      rw [epochGate_of_converts (hconverts t ht)]
      cases hgate : epochGateOk t.session.epLastTs
          t.session.tier.maxEpochsPerMinute now with
      | false =>
          rw [visit_of_gated ht hgate]
          exact ⟨rfl, rfl, fun _ _ => rfl⟩
      | true =>
          dsimp only
          rw [put_state hgate]
          simp only [visit, ht, Option.map_some, Option.elim_some]
          refine ⟨rfl, rfl, fun q hq => ?_⟩
          rw [List.filter_cons_of_neg (by simpa using hq.symm)]
          rfl

theorem visit_tier {s : HubState F} {r k : ℕ} {t' : RoverTask F}
    (ht' : (s.visit chunk now r).tasks k = some t') :
    ∃ t, s.tasks k = some t ∧ t'.session.tier = t.session.tier := by
  by_cases hk : k = r
  · subst hk
    have hmap : (s.tasks k).map (·.offer chunk now) = some t' := by
      simpa [visit, recordDroppedBytes] using ht'
    rcases Option.map_eq_some_iff.mp hmap with ⟨t, ht, rfl⟩
    exact ⟨t, ht, t.session.offer_tier chunk now⟩
  · have hsame : s.tasks k = some t' := by
      simpa [visit, recordDroppedBytes, hk] using ht'
    exact ⟨t', hsame, rfl⟩

/-- The loop in closed form, when no conversion raises: the order of the set
does not show. -/
theorem fanOut_eq {order : List ℕ} (hnodup : order.Nodup) (s : HubState F)
    (hconverts : ∀ k ∈ order, ∀ t, s.tasks k = some t →
      t.session.tier.Converts) :
    (fanOut chunk now s order).raised = false ∧
      (fanOut chunk now s order).state.hub =
        { s.hub with
          droppedBytesTotal := s.hub.droppedBytesTotal +
            (order.map fun k => (s.tasks k).elim 0 (lost chunk now)).sum } ∧
      ∀ k, (fanOut chunk now s order).state.tasks k =
        if k ∈ order then (s.tasks k).map (·.offer chunk now)
        else s.tasks k := by
  induction order generalizing s with
  | nil => simp [fanOut]
  | cons r rest ih =>
      rcases List.nodup_cons.mp hnodup with ⟨hr, hrest⟩
      rcases @fanOut_cons F chunk now s r
        (hconverts r List.mem_cons_self) rest with ⟨hraised, hstate, _⟩
      have hothers (k : ℕ) (hk : k ≠ r) :
          (s.visit chunk now r).tasks k = s.tasks k := by
        simp [visit, recordDroppedBytes, hk]
      rcases ih hrest (s.visit chunk now r) (by
        intro k hk t' ht'
        rcases visit_tier ht' with ⟨t, ht, htier⟩
        have hold := hconverts k (List.mem_cons_of_mem r hk) t ht
        unfold Tier.Converts at hold ⊢
        rwa [htier]) with ⟨hquiet, hhub, htasks⟩
      rw [hraised, hstate]
      constructor
      · exact hquiet
      constructor
      · have hsum : (rest.map fun k =>
            ((s.visit chunk now r).tasks k).elim 0 (lost chunk now)) =
              rest.map fun k => (s.tasks k).elim 0 (lost chunk now) := by
          apply List.map_congr_left
          intro k hk
          rw [hothers k fun heq => hr (heq ▸ hk)]
        rw [hhub, hsum, List.map_cons, List.sum_cons]
        simp only [visit, recordDroppedBytes]
        rw [Nat.add_assoc]
      · intro k
        rw [htasks]
        by_cases hk : k = r
        · subst hk
          simp [hr, visit, recordDroppedBytes]
        · simp [hothers k hk, hk]

end HubState

/-! ## The hub of a server -/

namespace Caster

def hubState (c : Caster F) (m : String) : HubState F :=
  ⟨c.hub m, fun i => c.rovers[i]?⟩

/-- When no conversion raises, the server's `on_source_data` is the loop, in
any order of the set. -/
theorem onSourceData_hubState (c : Caster F) (m : String) (chunk : Bytes)
    (now : ℚ) {order : List ℕ} (hnodup : order.Nodup)
    (horder : order.Perm (c.hub m).rovers)
    (hconverts : ∀ k ∈ order, ∀ t, c.rovers[k]? = some t →
      t.session.tier.Converts) :
    ((c.hubState m).onSourceData chunk now order).raised = false ∧
      ((c.hubState m).onSourceData chunk now order).state =
        (c.onSourceData m chunk now).hubState m := by
  unfold Caster.onSourceData HubState.onSourceData
  by_cases hempty : chunk = []
  · rw [if_pos hempty, if_pos hempty]
    exact ⟨rfl, rfl⟩
  rw [if_neg hempty, if_neg hempty]
  dsimp only
  rcases @HubState.fanOut_eq F chunk now order hnodup
    { c.hubState m with
      hub := { c.hub m with rxBytes := (c.hub m).rxBytes + chunk.length } }
    hconverts with ⟨hraised, hhub, htasks⟩
  have hlost : (c.rovers.mapIdx
      (lostBytes (c.hub m).rovers chunk now)).sum =
        (order.map fun k =>
          (c.rovers[k]?).elim 0 (HubState.lost chunk now)).sum := by
    have hmembers : (c.hub m).rovers.Nodup := horder.nodup_iff.mp hnodup
    have hsum := sum_mapIdx_mem hmembers (HubState.lost chunk now) c.rovers
    rw [← (horder.map fun k =>
      (c.rovers[k]?).elim 0 (HubState.lost chunk now)).sum_eq] at hsum
    exact hsum
  have hall := c.sum_dropped_offered (c.hub m).rovers chunk now
    (fun _ => true) fun _ _ _ _ => rfl
  simp only [if_true] at hall
  constructor
  · exact hraised
  · apply HubState.ext
    · refine hhub.trans ?_
      simp only [hubState, hub_setHub, if_true]
      rw [hall, hlost, Nat.add_sub_cancel_left]
    · funext k
      refine (htasks k).trans ?_
      simp only [hubState, rovers_setHub]
      rw [c.getElem?_mapRovers]
      by_cases hk : k ∈ order
      · rw [if_pos hk]
        simp [horder.mem_iff.mp hk]
      · have hnot : k ∉ (c.hub m).rovers := fun hin =>
          hk (horder.mem_iff.mpr hin)
        rw [if_neg hk]
        simp [hnot]

end Caster

/-! ## A small rover -/

def freshTask (tier : Tier) : RoverTask ℚ where
  session :=
    { id := 1
      username := "rover"
      tier := tier
      mountpoint := "MP"
      addr := "10.0.0.1:5000"
      queue := .new tier.queueLimit
      bucket := none
      epLastTs := none
      droppedBytes := 0
      sentBytes := 0
      lastGga := none
      writerClosing := false
      socket := [] }
  ip := "10.0.0.1"
  phase := .streaming
  send := .waiting
  readDone := false

end BabilCors
