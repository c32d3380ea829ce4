import BabilCors.FixedLimits
import BabilCors.HubTable

/-!
# The limit of sources

A source request counts the hubs with a source and attaches in the same step,
so the hubs with a source never become more than the limit.  A hub that holds
the address already skips the count, and there the attach adds no hub.
-/

namespace BabilCors

open Py TransitionRuns

variable {F : Type}

namespace Caster

/-- The number of hubs whose `source_addr` is not `None`. -/
def activeSources (c : Caster F) : ℕ :=
  c.mountpoints.values.countP fun h => h.sourceAddr.isSome

def activeHubs (c : Caster F) : Finset String :=
  (c.mountpoints.keys.filter fun m => (c.hub m).sourceAddr.isSome).toFinset

theorem mem_activeHubs {c : Caster F} {m : String} :
    m ∈ c.activeHubs ↔ (c.hub m).sourceAddr.isSome = true := by
  unfold activeHubs
  rw [List.mem_toFinset, List.mem_filter]
  constructor
  · intro hm
    exact hm.2
  · intro hsome
    refine ⟨mem_keys_of_hub_ne ?_, hsome⟩
    intro hnew
    rw [hnew] at hsome
    cases hsome

theorem card_activeHubs {c : Caster F} (hc : c.DistinctHubs) :
    c.activeHubs.card = c.activeSources := by
  have hnodup : (c.mountpoints.keys.filter fun m =>
      (c.hub m).sourceAddr.isSome).Nodup := hc.filter _
  unfold activeHubs activeSources
  rw [List.toFinset_card_of_nodup hnodup, values_eq_hubs hc,
    List.countP_map, List.countP_eq_length_filter]
  rfl

theorem activeHubs_mono {c c' : Caster F}
    (haddr : ∀ m, (c'.hub m).sourceAddr = none ∨
      (c'.hub m).sourceAddr = (c.hub m).sourceAddr) :
    c'.activeHubs ⊆ c.activeHubs := by
  intro m hm
  rw [mem_activeHubs] at hm ⊢
  rcases haddr m with hnone | hsame
  · rw [hnone] at hm
    cases hm
  · rwa [← hsame]

/-! ## One step -/

theorem activeSources_setHub_self {c : Caster F} (hc : c.DistinctHubs)
    (m : String) :
    (c.setHub m (c.hub m)).activeSources = c.activeSources := by
  have hhubs : (c.setHub m (c.hub m)).activeHubs = c.activeHubs := by
    ext m'
    rw [mem_activeHubs, mem_activeHubs, hub_setHub_self]
  rw [← card_activeHubs (hc.setHub m (c.hub m)), ← card_activeHubs hc, hhubs]

theorem activeSources_lt_of_room {c : Caster F} (hc : c.DistinctHubs)
    {m : String} (hfree : (c.hub m).sourceAddr = none)
    (hpositive : 0 < c.limit "max_sources_total")
    (hroom : (c.setHub m (c.hub m)).hasSourceRoom (c.hub m) = true) :
    (c.activeSources : ℤ) < c.limit "max_sources_total" := by
  have hlimit : (c.setHub m (c.hub m)).limit "max_sources_total" =
      c.limit "max_sources_total" := rfl
  have hcount := activeSources_setHub_self hc m
  unfold activeSources at hcount ⊢
  unfold hasSourceRoom at hroom
  rw [hcount, hlimit] at hroom
  simpa [hpositive, hfree] using hroom

theorem AttachMove.activeSources_le {c c' : Caster F} {event : Event F}
    (hmove : AttachMove c c' event) (hc : c.DistinctHubs)
    (hc' : c'.DistinctHubs) (hpositive : 0 < c.limit "max_sources_total")
    (hwithin : (c.activeSources : ℤ) ≤ c.limit "max_sources_total") :
    (c'.activeSources : ℤ) ≤ c.limit "max_sources_total" := by
  have hshrinks (haddr : ∀ m, (c'.hub m).sourceAddr = none ∨
      (c'.hub m).sourceAddr = (c.hub m).sourceAddr) :
      (c'.activeSources : ℤ) ≤ c.limit "max_sources_total" := by
    have hcard := Finset.card_le_card (activeHubs_mono haddr)
    rw [card_activeHubs hc, card_activeHubs hc'] at hcard
    omega
  cases hmove with
  | stays _ haddr => exact hshrinks fun m => .inr (haddr m)
  | attaches first addr hasCert m hfree hroom _ haddr =>
      rcases hfree with hnone | hsame
      · have hlt := activeSources_lt_of_room hc hnone hpositive hroom
        have hinsert : c'.activeHubs ⊆ insert m c.activeHubs := by
          intro m' hm'
          rw [mem_activeHubs, haddr] at hm'
          rw [Finset.mem_insert, mem_activeHubs]
          by_cases hm : m = m'
          · exact .inl hm.symm
          · rw [if_neg hm] at hm'
            exact .inr hm'
        have hcard := (Finset.card_le_card hinsert).trans
          (Finset.card_insert_le m c.activeHubs)
        rw [card_activeHubs hc, card_activeHubs hc'] at hcard
        omega
      · -- the hub holds this address already
        refine hshrinks fun m' => .inr ?_
        rw [haddr]
        split_ifs with hm
        · rw [← hm, hsame]
        · rfl
  | moves _ _ _ _ _ _ _ _ _ _ haddr => exact hshrinks fun m => .inr (haddr m)
  | detaches j s _ _ _ haddr =>
      refine hshrinks fun m => ?_
      rw [haddr]
      split_ifs
      · exact .inl rfl
      · exact .inr rfl
  | closes _ haddr => exact hshrinks haddr

end Caster

/-! ## Runs -/

namespace NtripCaster

variable [PyFloat F] [Crypto] [JwtLib F] [SchemaLib F]

theorem step_distinctHubs {s s' : NtripCaster F} {event : Event F}
    (hdistinct : s.caster.DistinctHubs) (hstep : s.step event = some s') :
    s'.caster.DistinctHubs := by
  rcases step_caster hstep with hkept | ⟨event', _, hmove⟩
  · rwa [hkept]
  · exact hdistinct.step hmove

theorem step_activeSources_le {s s' : NtripCaster F} {event : Event F}
    (hdistinct : s.caster.DistinctHubs)
    (hpositive : 0 < s.caster.limit "max_sources_total")
    (hwithin : (s.caster.activeSources : ℤ) ≤
      s.caster.limit "max_sources_total")
    (hstep : s.step event = some s') :
    (s'.caster.activeSources : ℤ) ≤ s.caster.limit "max_sources_total" := by
  have hdistinct' := step_distinctHubs hdistinct hstep
  rcases step_caster hstep with hkept | ⟨event', _, hmove⟩
  · rwa [hkept]
  · exact (Caster.step_attachMove hmove).activeSources_le hdistinct
      hdistinct' hpositive hwithin

/-- While the limit of sources stays at a positive value, no more hubs than
that have a source. -/
theorem run_activeSources_le {s s' : NtripCaster F} {cfg : CasterCfg F}
    {mtls : Bool} {disabled : List (Json F)} {events : List (Event F)}
    {limit : ℤ} (hstart : s.caster = .new cfg mtls disabled)
    (hpositive : 0 < limit)
    (hlimit : s.caster.limit "max_sources_total" = limit)
    (hfixed : StepsMeet step (KeepsLimit "max_sources_total") s events)
    (hrun : run step s events = some s') :
    (s'.caster.activeSources : ℤ) ≤ limit := by
  have hinvariant : s'.caster.DistinctHubs ∧
      s'.caster.limit "max_sources_total" = limit ∧
      (s'.caster.activeSources : ℤ) ≤ limit := by
    refine StepsMeet.run_preserves
      (P := fun t : NtripCaster F => t.caster.DistinctHubs ∧
        t.caster.limit "max_sources_total" = limit ∧
        (t.caster.activeSources : ℤ) ≤ limit) ?_ ?_ hfixed hrun
    · rintro t event t' ⟨hdistinct, ht, hwithin⟩ hkeeps hstep
      refine ⟨step_distinctHubs hdistinct hstep,
        (hkeeps t' hstep).trans ht, ?_⟩
      rw [← ht] at hpositive hwithin ⊢
      exact step_activeSources_le hdistinct hpositive hwithin hstep
    · rw [hstart] at hlimit ⊢
      exact ⟨List.nodup_nil, hlimit, hpositive.le⟩
  exact hinvariant.2.2

end NtripCaster

/-! ## Two mountpoints -/

namespace NtripCaster

def twoMountpoints : List (Caster.Event ℚ) :=
  [.sourceRequest Caster.sourceHello "10.0.0.2:6000" false,
    .sourceIcy 0 true,
    .sourceRequest (utf8Encode "SOURCE s3cret /OTHER") "10.0.0.3:6000" false]

theorem run_activeSources_le_twoMountpoints :
    ∃ s : NtripCaster ℚ,
      run (@step ℚ _ noDigest (oneToken (accessClaims "root" "admin"))
        anyBody) limitedServer (twoMountpoints.map .connection) = some s ∧
      s.caster.activeSources = 1 ∧ (s.caster.activeSources : ℤ) ≤ 1 := by
  have hview : (run (@step ℚ _ noDigest
      (oneToken (accessClaims "root" "admin")) anyBody) limitedServer
        (twoMountpoints.map .connection)).map
          (fun s => s.caster.activeSources) = some 1 := by
    decide +kernel
  rcases Option.map_eq_some_iff.mp hview with ⟨s, hrun, hcount⟩
  refine ⟨s, hrun, hcount, ?_⟩
  refine @run_activeSources_le ℚ _ noDigest
    (oneToken (accessClaims "root" "admin")) anyBody _ _ _ _ _ _ 1 rfl
    (by decide) (by decide) ?_ hrun
  apply StepsMeet.of_forall
  intro event hevent t
  rcases List.mem_map.mp hevent with ⟨event', hevent', rfl⟩
  refine @keepsLimit_connection ℚ _ noDigest
    (oneToken (accessClaims "root" "admin")) anyBody _ _ _ ?_
  simp only [twoMountpoints, List.mem_cons, List.not_mem_nil, or_false]
    at hevent'
  rcases hevent' with rfl | rfl | rfl <;> trivial

end NtripCaster

end BabilCors
