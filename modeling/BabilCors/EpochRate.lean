import BabilCors.EpochCuts
import BabilCors.RoverSlots

/-!
# The rate of the epoch gate

The decisions of the gate of one rover in a run of the server, in the order of
the calls of `on_source_data`.  What the gate keeps is advanced in front of the
queue, so the decisions do not depend on what the queue takes.
-/

namespace BabilCors

open GatedBatches Py Rtcm TransitionRuns

variable {F : Type}

/-- What the epoch gate of a session reads and writes. -/
structure EpochState where
  epm : ℤ
  lastTs : Option ℚ
  deriving DecidableEq, Repr

def RoverSession.epochState (s : RoverSession F) : EpochState :=
  ⟨s.tier.maxEpochsPerMinute, s.epLastTs⟩

theorem RoverSession.offer_epochState {s : RoverSession F}
    (hlimit : 0 < s.tier.maxEpochsPerMinute) (chunk : Bytes) (now : ℚ) :
    (s.offer chunk now).epochState =
      ⟨s.tier.maxEpochsPerMinute,
        if epochOpen s.tier.maxEpochsPerMinute s.epLastTs now then some now
        else s.epLastTs⟩ := by
  rw [epochState, s.offer_tier, s.offer_epLastTs, epochAfter, if_pos hlimit]
  rfl

theorem epochOpen_eq_periodic {epm : ℤ} (hlimit : 0 < epm) :
    epochOpen epm = periodic (60 / (epm : ℚ)) := by
  funext last now
  unfold epochOpen epochGateOk
  rw [if_neg (not_le.mpr hlimit)]
  cases last <;> rfl

/-- The log of a session with a limit is that of the gate on its times. -/
def GateLog (log : List (ℚ × Bool)) (g : EpochState) : Prop :=
  0 < g.epm →
    log = decisions (epochOpen g.epm) none (log.map Prod.fst) ∧
      g.lastTs = after (epochOpen g.epm) none (log.map Prod.fst)

theorem GateLog.offer {log : List (ℚ × Bool)} {s : RoverSession F}
    (h : GateLog log s.epochState) (chunk : Bytes) (now : ℚ) :
    GateLog
      (log ++ [(now, epochGateOk s.epLastTs s.tier.maxEpochsPerMinute now)])
      (s.offer chunk now).epochState := by
  have hepm : (s.offer chunk now).epochState.epm =
      s.tier.maxEpochsPerMinute :=
    congrArg Tier.maxEpochsPerMinute (s.offer_tier chunk now)
  intro hlimit
  rw [hepm] at hlimit
  obtain ⟨hlog, hlast⟩ := h hlimit
  rw [RoverSession.offer_epochState hlimit, List.map_append, List.map_cons,
    List.map_nil, decisions_concat, after_concat]
  dsimp only [RoverSession.epochState] at hlog hlast ⊢
  rw [← hlog, ← hlast]
  exact ⟨rfl, rfl⟩

namespace Caster

def epochStates (c : Caster F) : List EpochState :=
  c.rovers.map fun t => t.session.epochState

/-- The decision on a chunk that an event offers to the rover. -/
def gateDecisions (i : ℕ) (c : Caster F) : Event F → List (ℚ × Bool)
  | .sourceRead j chunk now =>
      match c.sources[j]?, c.rovers[i]? with
      | some s, some t =>
          let out := (Rtcm.feed s.parserBuf chunk).frames.flatMap
            Rtcm.RtcmFrame.raw
          if out ≠ [] ∧ i ∈ (c.hub s.mountpoint).rovers then
            [(now, epochGateOk t.session.epLastTs
              t.session.tier.maxEpochsPerMinute now)]
          else []
      | _, _ => []
  | _ => []

/-! ## What a step does to the gates -/

theorem epochStates_setRover {c : Caster F} {i : ℕ} {t t' : RoverTask F}
    (ht : c.rovers[i]? = some t)
    (hsame : t'.session.epochState = t.session.epochState) :
    (c.setRover i t').epochStates = c.epochStates :=
  map_set_of_eq ht hsame

theorem epochStates_mapRovers (c : Caster F) (members : List ℕ)
    {f : RoverTask F → RoverTask F}
    (hf : ∀ t, (f t).session.epochState = t.session.epochState) :
    (c.mapRovers members f).epochStates = c.epochStates := by
  apply List.ext_getElem?
  intro i
  simp only [epochStates, List.getElem?_map, getElem?_mapRovers,
    Option.map_map]
  congr 1
  funext t
  simp only [Function.comp_apply]
  split_ifs
  · exact hf t
  · rfl

/-- Every step but a read of a source leaves the gates alone, or adds one that
has let nothing through. -/
theorem step_epochStates [PyFloat F] [Crypto] {c c' : Caster F}
    {event : Event F} (hstep : c.step event = some c') :
    (c'.epochStates = c.epochStates ∧ ∀ i, gateDecisions i c event = []) ∨
      (∃ epm, c'.epochStates = c.epochStates ++ [⟨epm, none⟩] ∧
        ∀ i, gateDecisions i c event = []) ∨
      ∃ j chunk now s, event = .sourceRead j chunk now ∧
        c.sources[j]? = some s ∧ c' = c.sourceRead j s chunk now := by
  cases step_outcome hstep with
  | roverRequest req now =>
      rcases c.handleRover_joins req now with hsame | ⟨base, user, session,
        ip, hbase, _, _, _, hepoch, hjoin⟩
      · left
        exact ⟨congrArg (List.map _) hsame.rovers, fun _ => rfl⟩
      · right
        left
        refine ⟨session.tier.maxEpochsPerMinute, ?_, fun _ => rfl⟩
        rw [hjoin, ← hepoch, epochStates, epochStates, ← hbase.rovers]
        exact List.map_append
  | roverIcy i ok t t' ht hdone =>
      obtain ⟨_, rfl⟩ := RoverTask.icyDone_eq_some hdone
      exact .inl ⟨epochStates_setRover ht rfl, fun _ => rfl⟩
  | roverReadEnds i t t' ht hdone =>
      obtain ⟨_, rfl⟩ := RoverTask.readEnds_eq_some hdone
      exact .inl ⟨epochStates_setRover ht rfl, fun _ => rfl⟩
  | roverFinish i t t' ht hfinish =>
      left
      refine ⟨epochStates_setRover ht ?_, fun _ => rfl⟩
      unfold RoverTask.finish at hfinish
      split_ifs at hfinish
      obtain rfl := Option.some.inj hfinish
      rfl
  | roverSend i event t t' ht hsend =>
      left
      refine ⟨epochStates_setRover ht ?_, fun _ => rfl⟩
      obtain ⟨_, _, _, _, _, _, hsession⟩ := RoverTask.sendStep_session hsend
      rw [hsession]
      rfl
  | sourceRequest first addr hasCert =>
      have hrovers := (c.handleSource_keeps first addr hasCert).1
      exact .inl ⟨congrArg (List.map _) hrovers, fun _ => rfl⟩
  | sourceIcy j ok s hs hphase => exact .inl ⟨rfl, fun _ => rfl⟩
  | sourceDrain j ok s hs hphase => exact .inl ⟨rfl, fun _ => rfl⟩
  | sourceRead j chunk now s hs hphase =>
      exact .inr (.inr ⟨j, chunk, now, s, rfl, hs, rfl⟩)
  | sourceEnds j s hs hphase =>
      exact .inl ⟨epochStates_mapRovers _ _ fun _ => rfl, fun _ => rfl⟩
  | kick connId mountpoint =>
      rw [kickRover_eq]
      exact .inl ⟨epochStates_mapRovers _ _ fun _ => rfl, fun _ => rfl⟩
  | close =>
      left
      refine ⟨?_, fun _ => rfl⟩
      apply close_preserves (P := fun c' => c'.epochStates = c.epochStates)
      · intro c₁ m hc
        rw [← hc]
        exact epochStates_mapRovers _ _ fun _ => rfl
      · rfl
  | reload cfg mtls disabled => exact .inl ⟨rfl, fun _ => rfl⟩

/-! ## The decisions of a run -/

/-- The log of one rover, if it has come already. -/
structure Gated (i : ℕ) (log : List (ℚ × Bool)) (c : Caster F) : Prop where
  before : c.epochStates[i]? = none → log = []
  state : ∀ g, c.epochStates[i]? = some g → GateLog log g

namespace Gated

variable {i : ℕ} {log : List (ℚ × Bool)} {c c' : Caster F}

theorem same (h : Gated i log c) (hsame : c'.epochStates = c.epochStates) :
    Gated i log c' := by
  constructor
  · rw [hsame]
    exact h.before
  · rw [hsame]
    exact h.state

theorem join (h : Gated i log c) {epm : ℤ}
    (hjoin : c'.epochStates = c.epochStates ++ [⟨epm, none⟩]) :
    Gated i log c' := by
  constructor
  · intro hno
    apply h.before
    rw [hjoin, List.getElem?_eq_none_iff, List.length_append] at hno
    rw [List.getElem?_eq_none_iff]
    omega
  · intro g hg
    rw [hjoin, List.getElem?_append] at hg
    split_ifs at hg with hlt
    · exact h.state g hg
    · have hbefore := h.before (List.getElem?_eq_none_iff.mpr
        (Nat.not_lt.mp hlt))
      have hnew : g = ⟨epm, none⟩ := by
        have hmem := List.mem_of_getElem? hg
        simpa using hmem
      intro _
      rw [hbefore, hnew]
      exact ⟨rfl, rfl⟩

theorem sourceRead {j : ℕ} {s : SourceTask} (h : Gated i log c)
    (hs : c.sources[j]? = some s) (chunk : Bytes) (now : ℚ) :
    Gated i (log ++ gateDecisions i c (.sourceRead j chunk now))
      (c.sourceRead j s chunk now) := by
  have hread := c.getElem?_sourceRead j s chunk now i
  dsimp only at hread
  cases ht : c.rovers[i]? with
  | none =>
      have hnone : c.epochStates[i]? = none := by simp [epochStates, ht]
      have hnone' : (c.sourceRead j s chunk now).epochStates[i]? = none := by
        simp [epochStates, hread, ht]
      constructor
      · intro _
        simp only [gateDecisions, hs, ht, List.append_nil]
        exact h.before hnone
      · intro g hg
        rw [hnone'] at hg
        cases hg
  | some t =>
      have hold : c.epochStates[i]? = some t.session.epochState := by
        simp [epochStates, ht]
      simp only [gateDecisions, hs, ht]
      constructor
      · intro hno
        simp [epochStates, hread, ht] at hno
      · intro g hg
        rw [epochStates, List.getElem?_map, hread, ht, Option.map_some,
          Option.map_some] at hg
        obtain rfl := Option.some.inj hg
        split_ifs
        · exact (h.state _ hold).offer _ now
        · rw [List.append_nil]
          exact h.state _ hold

theorem step [PyFloat F] [Crypto] {event : Event F} (h : Gated i log c)
    (hstep : c.step event = some c') :
    Gated i (log ++ gateDecisions i c event) c' := by
  rcases step_epochStates hstep with ⟨hsame, hnone⟩ | ⟨epm, hjoin, hnone⟩ |
    ⟨j, chunk, now, s, rfl, hs, rfl⟩
  · rw [hnone i, List.append_nil]
    exact h.same hsame
  · rw [hnone i, List.append_nil]
    exact h.join hjoin
  · exact h.sourceRead hs chunk now

end Gated

end Caster

/-- In every run, what the gate lets through for a rover with a limit is at
least the period apart, so that a window has at most one chunk for each period
and one more; and when all chunks arrive the period apart, none is withheld. -/
theorem epoch_rate [PyFloat F] [Crypto] {cfg : CasterCfg F} {mtls : Bool}
    {disabled : List (Json F)} {events : List (Caster.Event F)}
    {c : Caster F}
    (hrun : run Caster.step (Caster.new cfg mtls disabled) events = some c)
    {i : ℕ} {t : RoverTask F} (ht : c.rovers[i]? = some t)
    (hlimit : 0 < t.session.tier.maxEpochsPerMinute) :
    let log := outputs Caster.step (Caster.gateDecisions i)
      (Caster.new cfg mtls disabled) events
    let epm : ℚ := t.session.tier.maxEpochsPerMinute
    ((passed log).Pairwise fun earlier later =>
        earlier + 60 / epm ≤ later) ∧
      (∀ start length, 0 ≤ length →
        (((passed log).filter fun now =>
          start ≤ now ∧ now ≤ start + length).length : ℚ) ≤
            length * epm / 60 + 1) ∧
      (Apart (60 / epm) (log.map Prod.fst) →
        ∀ x ∈ log, x.2 = true) := by
  have hinv : Caster.Gated i
      ([] ++ outputs Caster.step (Caster.gateDecisions i)
        (Caster.new cfg mtls disabled) events) c := by
    have hmeet : StepsMeet Caster.step (fun _ _ => True)
        (Caster.new cfg mtls disabled) events :=
      .of_forall fun _ _ _ => trivial
    apply hmeet.run_outputs (P := Caster.Gated i) _ _ hrun
    · intro log state event next hgated _ hstep
      exact hgated.step hstep
    · constructor
      · exact fun _ => rfl
      · intro g hg
        cases hg
  have hstate : c.epochStates[i]? = some t.session.epochState := by
    simp [Caster.epochStates, ht]
  rw [List.nil_append] at hinv
  intro log epm
  have hlog : log = decisions (epochOpen t.session.tier.maxEpochsPerMinute)
      none (log.map Prod.fst) :=
    (hinv.state _ hstate hlimit).1
  have hpositive : 0 < epm := Int.cast_pos.mpr hlimit
  have hperiod : 0 < 60 / epm := by positivity
  rw [epochOpen_eq_periodic hlimit] at hlog
  rw [hlog]
  refine ⟨?_, ?_, ?_⟩
  · exact passed_apart hperiod.le none (log.map Prod.fst)
  · intro start length hlength
    have hcount := length_passed_le hperiod none (log.map Prod.fst) start
      hlength
    rwa [div_div_eq_mul_div] at hcount
  · rw [decisions_times]
    exact all_pass none (log.map Prod.fst)

/-- A server whose only user has one epoch a second. -/
def limitedUser : CasterCfg ℚ :=
  { CasterCfg.basic "s3cret" [("rover", .basic "rover" "hunter2" none)] with
    tiers := [("free", ⟨0, 60, 0⟩)] }

def threeReads : List (Caster.Event ℚ) :=
  oneFrameRun ++
    [.sourceRead 0 stationFrame (1 / 2), .sourceRead 0 stationFrame 1]

theorem threeReads_tiers :
    (run (@Caster.step ℚ _ noDigest) (Caster.new limitedUser false [])
        threeReads).map (fun c => c.rovers.map fun t => t.session.tier) =
      some [⟨0, 60, 0⟩] := by
  decide +kernel

theorem epoch_rate_threeReads :
    (passed (outputs (@Caster.step ℚ _ noDigest) (Caster.gateDecisions 0)
      (Caster.new limitedUser false []) threeReads)).Pairwise
        fun earlier later => earlier + 60 / ((60 : ℤ) : ℚ) ≤ later := by
  obtain ⟨c, hrun, htiers⟩ := Option.map_eq_some_iff.mp threeReads_tiers
  obtain ⟨t, hrovers, htier⟩ : ∃ t, c.rovers = [t] ∧
      t.session.tier = ⟨0, 60, 0⟩ := by
    simpa [List.map_eq_singleton_iff] using htiers
  have ht : c.rovers[0]? = some t := by rw [hrovers]; rfl
  have hrate := @epoch_rate ℚ _ noDigest _ _ _ _ c hrun 0 t ht
    (by rw [htier]; decide)
  rw [htier] at hrate
  exact hrate.1

end BabilCors
