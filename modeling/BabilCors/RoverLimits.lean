import BabilCors.FixedLimits
import BabilCors.HubTable
import BabilCors.RoverSlots

/-!
# The limits of rovers

A rover request reads the two counters, joins its hub and counts itself in one
step, because the lock of a hub is never held across a suspension.  So the
counters are those of the sessions in the hubs, and neither passes its limit.
-/

namespace BabilCors

open Py SlotLedger TransitionRuns

variable {F : Type}

namespace Caster

/-- The sessions in the sets of all hubs. -/
def sessions (c : Caster F) : List ℕ :=
  c.mountpoints.values.flatMap MountpointHub.rovers

def sessionsFrom (c : Caster F) (ip : String) : ℕ :=
  c.sessions.countP fun i => (c.rovers[i]?).any fun t => t.ip = ip

/-- The counters are exact, and no positive limit is exceeded. -/
structure WithinRoverLimits (c : Caster F) : Prop where
  distinct : c.sessions.Nodup
  total : c.roverTotal = c.sessions.length
  perIp : ∀ ip, (c.roverIpCounts.get? ip).getD 0 = c.sessionsFrom ip
  maxTotal : 0 < c.limit "max_rovers_total" →
    (c.roverTotal : ℤ) ≤ c.limit "max_rovers_total"
  maxPerIp : ∀ ip, 0 < c.limit "max_rovers_per_ip" →
    ((c.roverIpCounts.get? ip).getD 0 : ℕ) ≤ c.limit "max_rovers_per_ip"

/-! ## The ledger and the hubs -/

theorem sessions_eq {c : Caster F} (hc : c.DistinctHubs) :
    c.mountpoints.keys.flatMap c.ledger.members = c.sessions := by
  unfold sessions
  rw [values_eq_hubs hc, List.flatMap_map]
  rfl

theorem mem_keys_of_members {c : Caster F} (m : String)
    (hmembers : c.ledger.members m ≠ []) : m ∈ c.mountpoints.keys := by
  apply mem_keys_of_hub_ne
  intro hnew
  apply hmembers
  change (c.hub m).rovers = []
  rw [hnew]
  rfl

theorem slot_owner {c : Caster F} (hbalanced : c.ledger.Balanced)
    {m : String} {i : ℕ} (hi : i ∈ c.ledger.members m) (ip : String) :
    ((c.ledger.slots[i]?).any fun slot => slot.any fun s => s.2 = ip) =
      (c.rovers[i]?).any fun t => t.ip = ip := by
  rcases (hbalanced.members m i).mp hi with ⟨owner, hslot⟩
  rw [hslot]
  simp only [ledger, seats, List.map_map, List.getElem?_map,
    Option.map_eq_some_iff] at hslot
  rcases hslot with ⟨t, ht, hseat⟩
  rw [ht]
  have hslot : (if t.phase = .ended then none
      else some (t.mountpoint, t.ip)) = some (m, owner) := hseat
  by_cases hended : t.phase = .ended
  · rw [if_pos hended] at hslot
    cases hslot
  · rw [if_neg hended] at hslot
    have hip : t.ip = owner := (Prod.mk.inj (Option.some.inj hslot)).2
    simp [hip]

theorem sessionsFrom_eq {c : Caster F} (hbalanced : c.ledger.Balanced)
    (hproper : c.ledger.Proper) (hc : c.DistinctHubs) (ip : String) :
    (c.roverIpCounts.get? ip).getD 0 = c.sessionsFrom ip := by
  have hcount := hbalanced.perOwner_eq hproper hc mem_keys_of_members ip
  have howner : (c.mountpoints.keys.flatMap c.ledger.members).countP
        (fun i => (c.ledger.slots[i]?).any fun slot =>
          slot.any fun s => s.2 = ip) =
      (c.mountpoints.keys.flatMap c.ledger.members).countP
        (fun i => (c.rovers[i]?).any fun t => t.ip = ip) := by
    apply List.countP_congr
    intro i hi
    rcases List.mem_flatMap.mp hi with ⟨m, _, hmember⟩
    rw [slot_owner hbalanced hmember]
  rw [howner, sessions_eq hc] at hcount
  exact hcount

/-! ## One step -/

structure Bounded (l : Ledger String String) (maxTotal maxPerIp : ℤ) :
    Prop where
  total : 0 < maxTotal → (l.total : ℤ) ≤ maxTotal
  perOwner : ∀ ip, 0 < maxPerIp → (l.perOwner ip : ℤ) ≤ maxPerIp

theorem room_of_hasRoom {c : Caster F} {ip : String}
    (hroom : c.hasRoom ip = true) :
    (0 < c.limit "max_rovers_total" →
        (c.ledger.total : ℤ) < c.limit "max_rovers_total") ∧
      (0 < c.limit "max_rovers_per_ip" →
        (c.ledger.perOwner ip : ℤ) < c.limit "max_rovers_per_ip") := by
  unfold hasRoom at hroom
  rw [Bool.and_eq_true] at hroom
  rcases hroom with ⟨htotal, hperIp⟩
  constructor
  · intro hpositive
    simpa [hpositive, ledger] using htotal
  · intro hpositive
    simpa [hpositive, ledger] using hperIp

theorem RoverMove.bounded {c c' : Caster F} {event : Event F}
    (hmove : RoverMove c c' event)
    (hc : Bounded c.ledger (c.limit "max_rovers_total")
      (c.limit "max_rovers_per_ip")) :
    Bounded c'.ledger (c.limit "max_rovers_total")
      (c.limit "max_rovers_per_ip") := by
  cases hmove with
  | stays _ _ hledger => rwa [hledger]
  | joins m ip _ hroom _ hledger =>
      rcases room_of_hasRoom hroom with ⟨htotal, hperIp⟩
      rw [hledger]
      constructor
      · intro hpositive
        have hlt := htotal hpositive
        simp only [Ledger.take]
        omega
      · intro owner hpositive
        have hold := hc.perOwner owner hpositive
        have hlt := hperIp hpositive
        simp only [Ledger.take]
        split_ifs with howner
        · rw [← howner]
          omega
        · exact hold
  | replies i ok m ip _ _ hledger => rwa [hledger]
  | leaves i m ip _ _ _ hledger =>
      rw [hledger]
      constructor
      · intro hpositive
        have hold := hc.total hpositive
        simp only [Ledger.release]
        omega
      · intro owner hpositive
        have hold := hc.perOwner owner hpositive
        simp only [Ledger.release]
        split_ifs
        · omega
        · exact hold

theorem RoverMove.proper {c c' : Caster F} {event : Event F}
    (hmove : RoverMove c c' event) (hbalanced : c.ledger.Balanced)
    (hproper : c.ledger.Proper) : c'.ledger.Proper := by
  cases hmove with
  | stays _ _ hledger => rwa [hledger]
  | joins m ip _ _ _ hledger =>
      rw [hledger]
      exact hbalanced.take_proper hproper m ip
  | replies i ok m ip _ _ hledger => rwa [hledger]
  | leaves i m ip _ _ _ hledger =>
      rw [hledger]
      exact hproper.release i m ip

/-- What every step keeps while the limits stay. -/
structure CountsSlots (c : Caster F) : Prop where
  balanced : c.ledger.Balanced
  proper : c.ledger.Proper
  distinctHubs : c.DistinctHubs
  bounded : Bounded c.ledger (c.limit "max_rovers_total")
    (c.limit "max_rovers_per_ip")

theorem CountsSlots.withinLimits {c : Caster F} (hc : c.CountsSlots) :
    c.WithinRoverLimits := by
  rcases hc with ⟨hbalanced, hproper, hdistinct, hbounded⟩
  have hcover := mem_keys_of_members (c := c)
  refine ⟨?_, ?_, sessionsFrom_eq hbalanced hproper hdistinct,
    hbounded.total, hbounded.perOwner⟩
  · rw [← sessions_eq hdistinct]
    exact hbalanced.members_nodup hproper hdistinct hcover
  · rw [← sessions_eq hdistinct]
    exact hbalanced.total_eq hproper hdistinct hcover

theorem countsSlots_new (cfg : CasterCfg F) (mtls : Bool)
    (disabled : List (Json F)) : (new cfg mtls disabled).CountsSlots where
  balanced := Ledger.balanced_empty
  proper := fun _ => List.nodup_nil
  distinctHubs := List.nodup_nil
  bounded := ⟨le_of_lt, fun _ => le_of_lt⟩

end Caster

/-! ## Runs -/

namespace NtripCaster

variable [PyFloat F] [Crypto] [JwtLib F] [SchemaLib F]

def KeepsRoverLimits (s : NtripCaster F) (event : Event F) : Prop :=
  s.KeepsLimit "max_rovers_total" event ∧
    s.KeepsLimit "max_rovers_per_ip" event

theorem step_countsSlots {s s' : NtripCaster F} {event : Event F}
    (hs : s.caster.CountsSlots) (hkeeps : s.KeepsRoverLimits event)
    (hstep : s.step event = some s') : s'.caster.CountsSlots := by
  rcases step_caster hstep with hkept | ⟨event', _, hmove⟩
  · rwa [hkept]
  · have hrover := Caster.step_move hmove
    refine ⟨hrover.balanced hs.balanced,
      hrover.proper hs.balanced hs.proper, hs.distinctHubs.step hmove, ?_⟩
    rw [hkeeps.1 s' hstep, hkeeps.2 s' hstep]
    exact hrover.bounded hs.bounded

/-- While the limits stay as they are, the counters are those of the sessions
in the hubs and within the limits. -/
theorem run_withinRoverLimits {s s' : NtripCaster F} {cfg : CasterCfg F}
    {mtls : Bool} {disabled : List (Json F)} {events : List (Event F)}
    (hstart : s.caster = .new cfg mtls disabled)
    (hfixed : StepsMeet step KeepsRoverLimits s events)
    (hrun : run step s events = some s') : s'.caster.WithinRoverLimits := by
  have hcounts : s'.caster.CountsSlots := by
    refine StepsMeet.run_preserves
      (P := fun t : NtripCaster F => t.caster.CountsSlots) ?_ ?_ hfixed hrun
    · intro t event t' ht hkeeps hstep
      exact step_countsSlots ht hkeeps hstep
    · rw [hstart]
      exact Caster.countsSlots_new cfg mtls disabled
  exact hcounts.withinLimits

end NtripCaster

/-! ## Two rovers -/

namespace NtripCaster

def twoRovers : List (Caster.Event ℚ) :=
  [.roverRequest Caster.roverHello 0, .roverIcy 0 true,
    .roverRequest { Caster.roverHello with addr := "10.0.0.9:5000" } 1]

theorem run_withinRoverLimits_twoRovers :
    ∃ s : NtripCaster ℚ,
      run (@step ℚ _ noDigest (oneToken (accessClaims "root" "admin"))
        anyBody) limitedServer (twoRovers.map .connection) = some s ∧
      s.caster.roverTotal = 1 ∧ s.caster.WithinRoverLimits := by
  have hview : (run (@step ℚ _ noDigest
      (oneToken (accessClaims "root" "admin")) anyBody) limitedServer
        (twoRovers.map .connection)).map
          (fun s => s.caster.roverTotal) = some 1 := by
    decide +kernel
  rcases Option.map_eq_some_iff.mp hview with ⟨s, hrun, htotal⟩
  refine ⟨s, hrun, htotal, ?_⟩
  refine @run_withinRoverLimits ℚ _ noDigest
    (oneToken (accessClaims "root" "admin")) anyBody _ _ _ _ _ _ rfl ?_ hrun
  apply StepsMeet.of_forall
  intro event hevent t
  rcases List.mem_map.mp hevent with ⟨event', hevent', rfl⟩
  have hkeeps : event'.KeepsCfg := by
    simp only [twoRovers, List.mem_cons, List.not_mem_nil, or_false]
      at hevent'
    rcases hevent' with rfl | rfl | rfl <;> trivial
  have hfixed (key : String) := @keepsLimit_connection ℚ _ noDigest
    (oneToken (accessClaims "root" "admin")) anyBody key t event' hkeeps
  exact ⟨hfixed "max_rovers_total", hfixed "max_rovers_per_ip"⟩

end NtripCaster

end BabilCors
