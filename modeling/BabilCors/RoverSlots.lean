import BabilCors.Caster
import BabilCors.SlotLedger
import BabilCors.TransitionRuns

/-!
# The slots of rovers

A rover's handler takes a slot in front of the ICY reply and gives it back
after its two loops.  The hubs' sets, the total and the counts by IP form a
balanced ledger of the slots in every run.  An exception of the ICY reply ends
the handler between the two, and only that leaves a slot behind.
-/

namespace BabilCors

open Py SlotLedger TransitionRuns

variable {F : Type}

/-! ## Seats -/

structure Seat where
  mountpoint : String
  ip : String
  phase : RoverPhase
  deriving DecidableEq, Repr

def RoverTask.seat (t : RoverTask F) : Seat :=
  ⟨t.mountpoint, t.ip, t.phase⟩

/-- A handler keeps its slot until it leaves in the regular way. -/
def Seat.slot (s : Seat) : Option (String × String) :=
  if s.phase = .ended then none else some (s.mountpoint, s.ip)

namespace Caster

def seats (c : Caster F) : List Seat :=
  c.rovers.map RoverTask.seat

def ledger (c : Caster F) : Ledger String String where
  slots := c.seats.map Seat.slot
  members := fun m => (c.hub m).rovers
  total := c.roverTotal
  perOwner := fun ip => (c.roverIpCounts.get? ip).getD 0

/-- What a step does to the seats and the ledger. -/
inductive RoverMove (c c' : Caster F) : Event F → Prop
  | stays {event : Event F} (hevent : ∀ i ok, event ≠ .roverIcy i ok)
      (hseats : c'.seats = c.seats) (hledger : c'.ledger = c.ledger) :
      RoverMove c c' event
  | joins {event : Event F} (m ip : String)
      (hevent : ∀ i ok, event ≠ .roverIcy i ok)
      (hroom : c.hasRoom ip = true)
      (hseats : c'.seats = c.seats ++ [⟨m, ip, .icyReply⟩])
      (hledger : c'.ledger = c.ledger.take m ip) : RoverMove c c' event
  | replies (i : ℕ) (ok : Bool) (m ip : String)
      (hseat : c.seats[i]? = some ⟨m, ip, .icyReply⟩)
      (hseats : c'.seats =
        c.seats.set i ⟨m, ip, if ok then .streaming else .raised⟩)
      (hledger : c'.ledger = c.ledger) : RoverMove c c' (.roverIcy i ok)
  | leaves {event : Event F} (i : ℕ) (m ip : String)
      (hevent : ∀ i ok, event ≠ .roverIcy i ok)
      (hseat : c.seats[i]? = some ⟨m, ip, .streaming⟩)
      (hseats : c'.seats = c.seats.set i ⟨m, ip, .ended⟩)
      (hledger : c'.ledger = c.ledger.release i m ip) : RoverMove c c' event

/-- The counters of the slots, and the sets of the hubs. -/
structure SameCounts (c c' : Caster F) : Prop where
  members : ∀ m, (c'.hub m).rovers = (c.hub m).rovers
  total : c'.roverTotal = c.roverTotal
  perIp : c'.roverIpCounts = c.roverIpCounts

theorem SameCounts.ledger_eq {c c' : Caster F} (h : SameCounts c c')
    (hslots : c'.seats.map Seat.slot = c.seats.map Seat.slot) :
    c'.ledger = c.ledger := by
  unfold ledger
  rw [hslots, h.total, h.perIp, funext h.members]

theorem seats_getElem? {c : Caster F} {i : ℕ} {t : RoverTask F}
    (ht : c.rovers[i]? = some t) : c.seats[i]? = some t.seat := by
  simp [seats, ht]

theorem seats_setRover (c : Caster F) (i : ℕ) (t : RoverTask F) :
    (c.setRover i t).seats = c.seats.set i t.seat :=
  List.map_set

theorem seats_setRover_of_eq {c : Caster F} {i : ℕ} {t t' : RoverTask F}
    (ht : c.rovers[i]? = some t) (hseat : t'.seat = t.seat) :
    (c.setRover i t').seats = c.seats := by
  have hold := seats_getElem? ht
  obtain ⟨hlt, hget⟩ := List.getElem?_eq_some_iff.mp hold
  rw [seats_setRover, hseat, ← hget, List.set_getElem_self]

theorem seats_mapRovers (c : Caster F) (members : List ℕ)
    {f : RoverTask F → RoverTask F} (hf : ∀ t, (f t).seat = t.seat) :
    (c.mapRovers members f).seats = c.seats := by
  refine List.ext_getElem? fun i => ?_
  simp only [seats, List.getElem?_map, getElem?_mapRovers, Option.map_map]
  congr 1
  funext t
  simp only [Function.comp_apply]
  split_ifs
  · exact hf t
  · rfl

theorem detachSource_ledger (c : Caster F) (m : String) :
    (c.detachSource m).seats = c.seats ∧
      (c.detachSource m).ledger = c.ledger := by
  have hseats : (c.detachSource m).seats = c.seats :=
    c.seats_mapRovers (c.hub m).rovers (fun _ => rfl)
  have hcounts : SameCounts c (c.detachSource m) := by
    refine ⟨fun m' => ?_, rfl, rfl⟩
    rw [detachSource, hub_setHub]
    split_ifs with hm
    · rw [← hm]
    · rfl
  exact ⟨hseats, hcounts.ledger_eq (congrArg (List.map Seat.slot) hseats)⟩

theorem map_set_of_eq {α β : Type*} {f : α → β} {l : List α} {i : ℕ}
    {a b : α} (ha : l[i]? = some a) (hf : f b = f a) :
    (l.set i b).map f = l.map f := by
  obtain ⟨hlt, rfl⟩ := List.getElem?_eq_some_iff.mp ha
  have hlt' : i < (l.map f).length := by simpa using hlt
  have hget : (l.map f)[i] = f b := by simp [hf]
  rw [List.map_set, ← hget, List.set_getElem_self]

theorem SameStreams.seats {c c' : Caster F} (h : SameStreams c c') :
    c'.seats = c.seats :=
  congrArg (List.map RoverTask.seat) h.rovers

theorem SameStreams.ledger {c c' : Caster F} (h : SameStreams c c') :
    c'.ledger = c.ledger :=
  SameCounts.ledger_eq
    ⟨fun m => by rw [hub, h.mountpoints, hub], h.roverTotal, h.roverIpCounts⟩
    (congrArg (List.map Seat.slot) h.seats)

theorem join_ledger (c : Caster F) (session : RoverSession F) (ip : String) :
    (c.join session ip).ledger = c.ledger.take session.mountpoint ip := by
  ext1
  · simp [ledger, Ledger.take, join, seats, RoverTask.seat, Seat.slot,
      RoverTask.mountpoint]
  · funext m
    change ((c.join session ip).hub m).rovers = _
    rw [hub_join]
    simp only [Ledger.take, ledger, seats, List.length_map]
    split_ifs with hm
    · rw [hm]
    · rfl
  · rfl
  · funext o
    simp only [ledger, Ledger.take, join, PyDict.get?_set]
    split_ifs with ho
    · rw [ho, Option.getD_some]
      rfl
    · rfl

theorem leave_ledger (c : Caster F) (i : ℕ) {t : RoverTask F}
    (hended : t.phase = .ended) :
    (c.leave i t).ledger = c.ledger.release i t.mountpoint t.ip := by
  ext1
  · have hslot : t.seat.slot = none := by
      simp [RoverTask.seat, Seat.slot, hended]
    change ((c.setRover i t).seats).map Seat.slot = _
    rw [seats_setRover, List.map_set, hslot]
    rfl
  · funext m
    change ((c.leave i t).hub m).rovers = _
    rw [hub_leave]
    simp only [Ledger.release, ledger]
    split_ifs with hm
    · rw [hm]
    · rfl
  · rfl
  · funext o
    simp only [ledger, Ledger.release, leave, PyDict.get?_set]
    split_ifs with ho
    · rw [← ho, Option.getD_some]
      change ((c.roverIpCounts.get? t.ip).getD 1 - 1) = _
      cases c.roverIpCounts.get? t.ip <;> rfl
    · rfl

theorem sourceRead_ledger (c : Caster F) (j : ℕ) (s : SourceTask)
    (chunk : Bytes) (now : ℚ) :
    (c.sourceRead j s chunk now).seats = c.seats ∧
      (c.sourceRead j s chunk now).ledger = c.ledger := by
  have hseats : (c.sourceRead j s chunk now).seats = c.seats := by
    refine List.ext_getElem? fun i => ?_
    have hrovers := c.getElem?_sourceRead j s chunk now i
    dsimp only at hrovers
    rw [seats, List.getElem?_map, hrovers, seats, List.getElem?_map,
      Option.map_map]
    congr 1
    funext t
    simp only [Function.comp_apply]
    split_ifs
    · simp [RoverTask.seat, RoverTask.mountpoint, RoverTask.offer]
    · rfl
  obtain ⟨_, htotal, hperIp⟩ := c.sourceRead_keeps j s chunk now
  exact ⟨hseats, SameCounts.ledger_eq
    ⟨fun m => (c.hub_sourceRead j s chunk now m).1, htotal, hperIp⟩
    (congrArg (List.map Seat.slot) hseats)⟩

theorem step_move [PyFloat F] [Crypto] {c c' : Caster F} {event : Event F}
    (hstep : c.step event = some c') : RoverMove c c' event := by
  cases step_outcome hstep with
  | roverRequest req now =>
      rcases c.handleRover_cases req now with hsame | ⟨base, session, ip,
        hsame, _, hroom, hjoin⟩
      · exact .stays (by simp) hsame.seats hsame.ledger
      · rw [hjoin]
        refine .joins session.mountpoint ip (by simp) hroom ?_ ?_
        · rw [← hsame.seats]
          exact List.map_append
        · rw [join_ledger, hsame.ledger]
  | roverIcy i ok t t' ht hdone =>
      obtain ⟨hphase, rfl⟩ := RoverTask.icyDone_eq_some hdone
      have hseat : c.seats[i]? = some ⟨t.mountpoint, t.ip, .icyReply⟩ := by
        rw [seats_getElem? ht, RoverTask.seat, hphase]
      refine .replies i ok t.mountpoint t.ip hseat (c.seats_setRover i _) ?_
      refine SameCounts.ledger_eq ⟨fun _ => rfl, rfl, rfl⟩ ?_
      rw [seats_setRover]
      apply map_set_of_eq hseat
      cases ok <;> rfl
  | roverReadEnds i t t' ht hdone =>
      obtain ⟨_, rfl⟩ := RoverTask.readEnds_eq_some hdone
      have hseats : (c.setRover i { t with readDone := true }).seats =
          c.seats :=
        seats_setRover_of_eq ht rfl
      exact .stays (by simp) hseats (SameCounts.ledger_eq
        ⟨fun _ => rfl, rfl, rfl⟩ (congrArg (List.map Seat.slot) hseats))
  | roverFinish i t t' ht hfinish =>
      obtain ⟨hphase, hended, hmount, hip⟩ := RoverTask.finish_eq_some hfinish
      refine .leaves i t.mountpoint t.ip (by simp) ?_ ?_ ?_
      · rw [seats_getElem? ht, RoverTask.seat, hphase]
      · refine (c.seats_setRover i t').trans ?_
        rw [RoverTask.seat, hended, hmount, hip]
      · rw [leave_ledger c i hended, hmount, hip]
  | roverSend i event t t' ht hsend =>
      obtain ⟨hmount, hip, hphase⟩ := (RoverTask.sendStep_outcome hsend).2
      have hseat : t'.seat = t.seat := by
        rw [RoverTask.seat, RoverTask.seat, hmount, hip, hphase]
      have hseats : (c.setRover i t').seats = c.seats :=
        seats_setRover_of_eq ht hseat
      exact .stays (by simp) hseats (SameCounts.ledger_eq
        ⟨fun m => (hub_recordSentBytes (c.setRover i t') _ _ m).1, rfl, rfl⟩
        (congrArg (List.map Seat.slot) hseats))
  | sourceRequest first addr hasCert =>
      obtain ⟨hrovers, htotal, hperIp⟩ :=
        c.handleSource_keeps first addr hasCert
      have hseats : (c.handleSource first addr hasCert).seats = c.seats :=
        congrArg (List.map RoverTask.seat) hrovers
      refine .stays (by simp) hseats (SameCounts.ledger_eq
        ⟨fun m => ?_, htotal, hperIp⟩ (congrArg (List.map Seat.slot) hseats))
      rcases c.handleSource_outcome first addr hasCert with ⟨_, hhub⟩ |
        ⟨attached, _, hhub⟩
      · rw [hhub]
      · rw [hhub]
        split_ifs with hm
        · rw [← hm]
        · rfl
  | sourceIcy j ok s hs hphase =>
      exact .stays (by simp) rfl rfl
  | sourceDrain j ok s hs hphase =>
      exact .stays (by simp) rfl rfl
  | sourceRead j chunk now s hs hphase =>
      obtain ⟨hseats, hledger⟩ := c.sourceRead_ledger j s chunk now
      exact .stays (by simp) hseats hledger
  | sourceEnds j s hs hphase =>
      obtain ⟨hseats, hledger⟩ :=
        (c.setSource j { s with phase := .ended }).detachSource_ledger
          s.mountpoint
      exact .stays (by simp) hseats hledger
  | kick connId mountpoint =>
      have hhung (i : ℕ) : (c.mapRovers [i] RoverTask.hangUp).seats = c.seats :=
        c.seats_mapRovers [i] (fun _ => rfl)
      unfold kickRover
      split
      · exact .stays (by simp) rfl rfl
      · dsimp only
        split
        · exact .stays (by simp) rfl rfl
        next i _ =>
          exact .stays (by simp) (hhung i) (SameCounts.ledger_eq
            ⟨fun _ => rfl, rfl, rfl⟩ (congrArg (List.map Seat.slot) (hhung i)))
  | close =>
      obtain ⟨hseats, hledger⟩ : c.close.seats = c.seats ∧
          c.close.ledger = c.ledger :=
        close_preserves
          (P := fun d => d.seats = c.seats ∧ d.ledger = c.ledger)
          (fun d m hd => ⟨(d.detachSource_ledger m).1.trans hd.1,
            (d.detachSource_ledger m).2.trans hd.2⟩)
          c ⟨rfl, rfl⟩
      exact .stays (by simp) hseats hledger
  | reload cfg mtls disabled =>
      exact .stays (by simp) rfl rfl

/-! ## Runs -/

/-- The write or the drain of a rover's ICY reply raises. -/
def Event.FailsIcy : Event F → Prop
  | .roverIcy _ ok => ok = false
  | _ => False

def HasRaised (c : Caster F) : Prop :=
  ∃ s ∈ c.seats, s.phase = .raised

theorem not_failsIcy {event : Event F}
    (hevent : ∀ i ok, event ≠ .roverIcy i ok) : ¬ event.FailsIcy := by
  cases event
  case roverIcy i ok => exact (hevent i ok rfl).elim
  all_goals exact id

theorem mem_set_iff {α : Type*} {l : List α} {i : ℕ} {a b : α} {p : α → Prop}
    (ha : l[i]? = some a) (hpa : ¬ p a) :
    (∃ x ∈ l.set i b, p x) ↔ (∃ x ∈ l, p x) ∨ p b := by
  obtain ⟨hlt, hget⟩ := List.getElem?_eq_some_iff.mp ha
  constructor
  · rintro ⟨x, hx, hpx⟩
    rcases List.mem_or_eq_of_mem_set hx with hold | rfl
    · exact .inl ⟨x, hold, hpx⟩
    · exact .inr hpx
  · rintro (⟨x, hx, hpx⟩ | hpb)
    · obtain ⟨k, hk, rfl⟩ := List.getElem_of_mem hx
      have hne : i ≠ k := by
        rintro rfl
        exact hpa (hget ▸ hpx)
      refine ⟨l[k], ?_, hpx⟩
      rw [← List.getElem_set_ne hne (by simpa using hk)]
      exact List.getElem_mem _
    · exact ⟨b, List.mem_set hlt b, hpb⟩

theorem RoverMove.balanced {c c' : Caster F} {event : Event F}
    (hmove : RoverMove c c' event) (hc : c.ledger.Balanced) :
    c'.ledger.Balanced := by
  cases hmove with
  | stays _ _ hledger => rwa [hledger]
  | joins m ip _ _ _ hledger =>
      rw [hledger]
      exact hc.take m ip
  | replies i ok m ip _ _ hledger => rwa [hledger]
  | leaves i m ip _ hseat _ hledger =>
      rw [hledger]
      apply hc.release
      rw [ledger, List.getElem?_map, hseat]
      rfl

theorem RoverMove.hasRaised {c c' : Caster F} {event : Event F}
    (hmove : RoverMove c c' event) :
    c'.HasRaised ↔ c.HasRaised ∨ event.FailsIcy := by
  unfold HasRaised
  cases hmove with
  | stays hevent hseats _ => simp [hseats, not_failsIcy hevent]
  | joins m ip hevent _ hseats _ =>
      simp [hseats, not_failsIcy hevent, or_and_right, exists_or]
  | replies i ok m ip hseat hseats _ =>
      rw [hseats, mem_set_iff hseat (by simp)]
      cases ok <;> simp [Event.FailsIcy]
  | leaves i m ip hevent hseat hseats _ =>
      rw [hseats, mem_set_iff hseat (by simp)]
      simp [not_failsIcy hevent]

theorem run_slots [PyFloat F] [Crypto] {c c' : Caster F}
    {events : List (Event F)} (hc : c.ledger.Balanced)
    (hrun : run Caster.step c events = some c') :
    c'.ledger.Balanced ∧
      (c'.HasRaised ↔ c.HasRaised ∨ ∃ event ∈ events, event.FailsIcy) := by
  induction events generalizing c with
  | nil =>
      cases hrun
      exact ⟨hc, by simp⟩
  | cons event events ih =>
      obtain ⟨next, hstep, hrest⟩ := run_cons_eq_some.mp hrun
      have hmove := step_move hstep
      obtain ⟨hbalanced, hraised⟩ := ih (hmove.balanced hc) hrest
      refine ⟨hbalanced, ?_⟩
      rw [hraised, hmove.hasRaised]
      simp [or_assoc]

/-! ## The result -/

/-- No session of an ended handler is in a hub, and the total and the counts by
IP are those of the handlers that run. -/
structure SlotsReleased (c : Caster F) : Prop where
  hubs : ∀ (i : ℕ) (t : RoverTask F), c.rovers[i]? = some t →
    t.running = false → ∀ m, i ∉ (c.hub m).rovers
  total : c.roverTotal = c.rovers.countP RoverTask.running
  perIp : ∀ ip, (c.roverIpCounts.get? ip).getD 0 =
    c.rovers.countP fun t => t.running && t.ip = ip

theorem SlotsReleased.idle {c : Caster F} (h : c.SlotsReleased)
    (hidle : ∀ t ∈ c.rovers, t.running = false) :
    c.roverTotal = 0 ∧ ∀ ip, (c.roverIpCounts.get? ip).getD 0 = 0 := by
  refine ⟨?_, fun ip => ?_⟩
  · rw [h.total, List.countP_eq_zero]
    simpa using hidle
  · rw [h.perIp, List.countP_eq_zero]
    intro t ht
    simp [hidle t ht]

/-- Apart from a raised reply, having a slot and running are the same. -/
theorem slot_of_not_raised {t : RoverTask F} (ht : t.phase ≠ .raised) :
    t.seat.slot = if t.running then some (t.mountpoint, t.ip) else none := by
  cases hphase : t.phase <;>
    simp_all [RoverTask.seat, Seat.slot, RoverTask.running]

theorem slotsReleased_iff {c : Caster F} (hc : c.ledger.Balanced) :
    c.SlotsReleased ↔ ¬ c.HasRaised := by
  constructor
  · rintro hreleased ⟨s, hs, hraised⟩
    obtain ⟨t, ht, rfl⟩ := List.mem_map.mp hs
    obtain ⟨i, hi, rfl⟩ := List.getElem_of_mem ht
    have hget : c.rovers[i]? = some c.rovers[i] := List.getElem?_eq_getElem hi
    have hphase : c.rovers[i].phase = .raised := hraised
    refine hreleased.hubs i _ hget (by simp [RoverTask.running, hphase])
      c.rovers[i].mountpoint ?_
    refine (hc.members _ i).mpr ⟨c.rovers[i].ip, ?_⟩
    rw [ledger, List.getElem?_map, seats_getElem? hget]
    simp [RoverTask.seat, Seat.slot, hphase]
  · intro hraised
    have hslot (t : RoverTask F) (ht : t ∈ c.rovers) : t.seat.slot =
        if t.running then some (t.mountpoint, t.ip) else none :=
      slot_of_not_raised fun h =>
        hraised ⟨t.seat, List.mem_map_of_mem ht, h⟩
    refine ⟨fun i t ht hidle m => ?_, ?_, fun ip => ?_⟩
    · refine hc.not_member ?_ m
      rw [ledger, List.getElem?_map, seats_getElem? ht, Option.map_some,
        hslot t (List.mem_of_getElem? ht), hidle]
      rfl
    · have htotal := hc.total
      simp only [ledger, seats, List.map_map, List.countP_map] at htotal
      rw [htotal]
      refine List.countP_congr fun t ht => ?_
      simp only [Function.comp_apply, hslot t ht]
      cases t.running <;> simp
    · have hcount := hc.perOwner ip
      simp only [ledger, Ledger.ownedBy, seats, List.map_map,
        List.countP_map] at hcount
      rw [hcount]
      refine List.countP_congr fun t ht => ?_
      simp only [Function.comp_apply, hslot t ht]
      cases t.running <;> simp

/-- A run of the server has released the slots of all ended handlers if and
only if no ICY reply to a rover raised in it. -/
theorem run_slotsReleased_iff [PyFloat F] [Crypto] {cfg : CasterCfg F}
    {mtls : Bool} {disabled : List (Json F)} {events : List (Event F)}
    {c : Caster F}
    (hrun : run Caster.step (.new cfg mtls disabled) events = some c) :
    c.SlotsReleased ↔ ∀ event ∈ events, ¬ event.FailsIcy := by
  have hstart : (Caster.new cfg mtls disabled).ledger.Balanced :=
    Ledger.balanced_empty
  obtain ⟨hbalanced, hraised⟩ := run_slots hstart hrun
  rw [slotsReleased_iff hbalanced, hraised]
  simp [HasRaised, seats, new]

def servedRun : List (Event ℚ) :=
  [.roverRequest roverHello 0, .roverIcy 0 true, .roverReadEnds 0,
    .roverFinish 0]

theorem servedRun_total :
    (run (@step ℚ _ noDigest) oneUser servedRun).map
        (fun c => (c.rovers.map RoverTask.running, c.roverTotal)) =
      some ([false], 0) := by
  decide +kernel

theorem run_slotsReleased_iff_served :
    ∃ c : Caster ℚ,
      run (@step ℚ _ noDigest) oneUser servedRun = some c ∧
        c.roverTotal = 0 ∧
        (c.SlotsReleased ↔ ∀ event ∈ servedRun, ¬ event.FailsIcy) := by
  obtain ⟨c, hrun, htotal⟩ := Option.map_eq_some_iff.mp servedRun_total
  exact ⟨c, hrun, (Prod.mk.inj htotal).2,
    @run_slotsReleased_iff ℚ _ noDigest _ _ _ _ c hrun⟩

/-- A rover whose client is gone when the ICY reply is written: no handler
runs, and its slot stays taken. -/
theorem failedIcy_keeps_slot :
    ∃ c : Caster ℚ,
      run (@step ℚ _ noDigest) oneUser
          [.roverRequest roverHello 0, .roverIcy 0 false] = some c ∧
        (∀ t ∈ c.rovers, t.running = false) ∧ c.roverTotal = 1 ∧
        ¬ c.SlotsReleased := by
  have hcounts : (run (@step ℚ _ noDigest) oneUser
      [.roverRequest roverHello 0, .roverIcy 0 false]).map
        (fun c => (c.rovers.map RoverTask.running, c.roverTotal)) =
      some ([false], 1) := by
    decide +kernel
  obtain ⟨c, hrun, hcounts⟩ := Option.map_eq_some_iff.mp hcounts
  obtain ⟨hrunning, htotal⟩ := Prod.mk.inj hcounts
  have hidle : ∀ t ∈ c.rovers, t.running = false := by
    intro t ht
    have hmem := List.mem_map_of_mem (f := RoverTask.running) ht
    rw [hrunning] at hmem
    exact List.mem_singleton.mp hmem
  refine ⟨c, hrun, hidle, htotal, fun hreleased => ?_⟩
  rw [(hreleased.idle hidle).1] at htotal
  cases htotal

end Caster

end BabilCors
