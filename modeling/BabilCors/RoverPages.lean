import BabilCors.PyNumbers
import BabilCors.RoverLimits
import BabilCors.RoverReadLoop

/-!
# The pages of `/admin/rovers`

A page is a slice of the sessions in the sets of the hubs.  In every state of
the server these are the sessions that have a slot, each of them once, so a
reader of all pages sees every connected rover and sees none twice.
-/

namespace BabilCors

open Py SlotLedger TransitionRuns

variable {F : Type}

/-! ## Pages of a list -/

def pageOf {α : Type*} (page limit : ℕ) (items : List α) : List α :=
  (items.drop ((page - 1) * limit)).take limit

/-- The pages up to the number are a beginning of the list. -/
theorem flatMap_pageOf {α : Type*} (limit pages : ℕ) (items : List α) :
    ((List.range pages).flatMap fun k => pageOf (k + 1) limit items) =
      items.take (pages * limit) := by
  induction pages with
  | zero => rw [Nat.zero_mul, List.take_zero, List.range_zero,
      List.flatMap_nil]
  | succ pages ih =>
      have hlast : pageOf (pages + 1) limit items =
          (items.drop (pages * limit)).take limit := rfl
      calc
        ((List.range (pages + 1)).flatMap fun k =>
            pageOf (k + 1) limit items) =
            items.take (pages * limit) ++ pageOf (pages + 1) limit items := by
          rw [← ih, List.range_succ, List.flatMap_append,
            List.flatMap_singleton]
        _ = items.take ((pages + 1) * limit) := by
          rw [hlast, Nat.add_mul, Nat.one_mul, List.take_add]

/-! ## The request -/

/-- What the page shows of a session. -/
structure RoverItem (F : Type) where
  mountpoint : String
  connId : ℕ
  user : String
  clientIp : String
  sentBytes : ℕ
  droppedBytes : ℕ
  lastNmeaAge : Option F
  gsvSnrMean : Option F
  gsvTotalSv : Option ℤ

structure RoverPage (F : Type) where
  page : ℤ
  limit : ℤ
  total : ℕ
  items : List (RoverItem F)

/-- `int(query.get(key) or default)`, and the default where that raises. -/
def queryInt (query : PyDict String String) (key : String) (default : ℤ) :
    ℤ :=
  let text := (query.get? key).getD ""
  if text = "" then default else (int? text).getD default

namespace Caster

/-- The filter passes a mountpoint over. -/
def passesOver (mpFilter : Option String) (mp : String) : Bool :=
  mpFilter.any fun name => name ≠ "" && mp ≠ name

/-- What the loop over the hubs comes by. -/
def listed (c : Caster F) (mpFilter : Option String) : List (String × ℕ) :=
  c.mountpoints.flatMap fun entry =>
    if passesOver mpFilter entry.1 then []
    else entry.2.rovers.map fun i => (entry.1, i)

/-- The entry of a session under its hub, from its NMEA state. -/
def roverItem [PyFloat F] (nmea : ℕ → NmeaState F) (now : F) (mp : String)
    (t : RoverTask F) : RoverItem F where
  mountpoint := mp
  connId := t.session.id
  user := t.session.username
  clientIp := clientIpOf t.session.addr
  sentBytes := t.session.sentBytes
  droppedBytes := t.session.droppedBytes
  lastNmeaAge :=
    let ts := (nmea t.session.id).lastNmeaTs
    if floatIsZero ts then none else some (PyFloat.sub now ts)
  gsvSnrMean := (nmea t.session.id).lastGsvSnrMean
  gsvTotalSv := (nmea t.session.id).lastGsvTotalSv

def adminRovers [PyFloat F] (c : Caster F) (nmea : ℕ → NmeaState F) (now : F)
    (query : PyDict String String) : RoverPage F :=
  let page := max (queryInt query "page" 1) 1
  let limit := max (min (queryInt query "limit" 50) 500) 1
  let items := (c.listed (query.get? "mountpoint")).filterMap fun entry =>
    (c.rovers[entry.2]?).map (roverItem nmea now entry.1)
  { page := page
    limit := limit
    total := items.length
    items := pageOf page.toNat limit.toNat items }

/-- The sessions that have a slot at a mountpoint that is not passed over. -/
def seated (c : Caster F) (mpFilter : Option String) : List (RoverTask F) :=
  c.rovers.filter fun t => t.phase ≠ .ended &&
    !passesOver mpFilter t.mountpoint

/-! ## The sessions of a page -/

/-- What the ledger of the slots says in every state. -/
structure Seats (c : Caster F) : Prop where
  balanced : c.ledger.Balanced
  proper : c.ledger.Proper
  distinctHubs : c.DistinctHubs

theorem listed_eq_filter (c : Caster F) (mpFilter : Option String) :
    c.listed mpFilter =
      (c.listed none).filter fun entry =>
        !passesOver mpFilter entry.1 := by
  unfold listed
  rw [List.filter_flatMap]
  apply List.flatMap_congr
  intro entry _
  have hnone : passesOver none entry.1 = false := rfl
  rw [hnone]
  cases hover : passesOver mpFilter entry.1 with
  | true => simp [hover]
  | false =>
      have hall : ((entry.2.rovers.map fun i => (entry.1, i)).filter
          fun e => !passesOver mpFilter e.1) =
          entry.2.rovers.map fun i => (entry.1, i) := by
        rw [List.filter_eq_self]
        intro e he
        obtain ⟨i, -, rfl⟩ := List.mem_map.mp he
        simp [hover]
      simp [hall]

/-- The listing follows the sets of the hubs. -/
theorem Seats.listed_eq {c : Caster F} (hc : c.Seats) :
    c.listed none = c.mountpoints.keys.flatMap fun mp =>
      (c.ledger.members mp).map fun i => (mp, i) := by
  unfold listed
  conv_lhs =>
    rw [PyDict.eq_map_keys hc.distinctHubs .new, List.flatMap_map]
  apply List.flatMap_congr
  intro mp _
  have hnone : passesOver none mp = false := rfl
  dsimp only
  rw [hnone]
  rfl

/-- A listed session has a slot at the mountpoint that it is listed under. -/
theorem Seats.of_listed {c : Caster F} (hc : c.Seats) {mp : String} {i : ℕ}
    (hlisted : (mp, i) ∈ c.listed none) :
    ∃ t, c.rovers[i]? = some t ∧ t.mountpoint = mp ∧ t.phase ≠ .ended := by
  rw [hc.listed_eq] at hlisted
  obtain ⟨m, -, hmem⟩ := List.mem_flatMap.mp hlisted
  obtain ⟨j, hmember, hpair⟩ := List.mem_map.mp hmem
  obtain ⟨rfl, rfl⟩ := Prod.mk.inj hpair
  obtain ⟨owner, hslot⟩ := (hc.balanced.members m j).mp hmember
  simp only [ledger, seats, List.map_map, List.getElem?_map,
    Option.map_eq_some_iff] at hslot
  obtain ⟨t, ht, hseat⟩ := hslot
  have hslot : (if t.phase = .ended then none
      else some (t.mountpoint, t.ip)) = some (m, owner) := hseat
  split_ifs at hslot with hended
  exact ⟨t, ht, (Prod.mk.inj (Option.some.inj hslot)).1, hended⟩

/-- The listing without a filter has every session with a slot once. -/
theorem Seats.listed_perm {c : Caster F} (hc : c.Seats) :
    ((c.listed none).map Prod.snd).Perm
      ((List.range c.rovers.length).filter fun i =>
        (c.rovers[i]?).any fun t => t.phase ≠ .ended) := by
  have hmembers := hc.balanced.members_perm hc.proper hc.distinctHubs
    mem_keys_of_members
  have hlisted : (c.listed none).map Prod.snd =
      c.mountpoints.keys.flatMap c.ledger.members := by
    rw [hc.listed_eq, List.map_flatMap]
    simp
  have hslots : ((List.range c.ledger.slots.length).filter fun i =>
      c.ledger.slots[i]?.any Option.isSome) =
      (List.range c.rovers.length).filter fun i =>
        (c.rovers[i]?).any fun t => t.phase ≠ .ended := by
    have hlength : c.ledger.slots.length = c.rovers.length := by
      simp [ledger, seats]
    rw [hlength]
    apply List.filter_congr
    intro i _
    simp only [ledger, seats, List.map_map, List.getElem?_map]
    cases c.rovers[i]? with
    | none => rfl
    | some t =>
        by_cases hended : t.phase = .ended
        · simp [Seat.slot, RoverTask.seat, hended]
        · simp [Seat.slot, RoverTask.seat, hended]
  rw [hlisted, ← hslots]
  exact hmembers

theorem filterMap_range {α β : Type*} (f : α → Option β) (l : List α) :
    ((List.range l.length).filterMap fun i => l[i]?.bind f) =
      l.filterMap f := by
  induction l with
  | nil => rfl
  | cons a l ih =>
      rw [List.length_cons, List.range_succ_eq_map, List.filterMap_cons,
        List.filterMap_map, List.filterMap_cons, ← ih]
      rfl

/-- The entry of a session that has a slot and is not passed over. -/
def shownItem? [PyFloat F] (nmea : ℕ → NmeaState F) (now : F)
    (mpFilter : Option String) (t : RoverTask F) : Option (RoverItem F) :=
  if t.phase ≠ .ended && !passesOver mpFilter t.mountpoint then
    some (roverItem nmea now t.mountpoint t)
  else none

/-- The entries of a listing, as the sessions that have a slot. -/
theorem Seats.entries_perm [PyFloat F] {c : Caster F} (hc : c.Seats)
    (nmea : ℕ → NmeaState F) (now : F) (mpFilter : Option String) :
    ((c.listed mpFilter).filterMap fun entry =>
        (c.rovers[entry.2]?).map (roverItem nmea now entry.1)).Perm
      ((c.seated mpFilter).map fun t =>
        roverItem nmea now t.mountpoint t) := by
  -- both are the entries of the indices, in two orders of these
  have hlisted : ((c.listed mpFilter).filterMap fun entry =>
      (c.rovers[entry.2]?).map (roverItem nmea now entry.1)) =
      ((c.listed none).map Prod.snd).filterMap fun i =>
        (c.rovers[i]?).bind (shownItem? nmea now mpFilter) := by
    rw [listed_eq_filter, List.filterMap_filter, List.filterMap_map]
    apply List.filterMap_congr
    rintro ⟨mp, i⟩ hentry
    obtain ⟨t, ht, hmp, hphase⟩ := hc.of_listed hentry
    simp only [Function.comp_apply, ht, Option.map_some, Option.bind_some]
    unfold shownItem?
    rw [hmp]
    cases passesOver mpFilter mp with
    | true => simp
    | false => simp [hphase]
  have hseated : ((c.seated mpFilter).map fun t =>
      roverItem nmea now t.mountpoint t) =
      ((List.range c.rovers.length).filter fun i =>
        (c.rovers[i]?).any fun t => t.phase ≠ .ended).filterMap fun i =>
          (c.rovers[i]?).bind (shownItem? nmea now mpFilter) := by
    rw [List.filterMap_filter]
    have hsame : (fun i : ℕ => if ((c.rovers[i]?).any fun t : RoverTask F =>
          t.phase ≠ .ended) = true
        then (c.rovers[i]?).bind (shownItem? nmea now mpFilter) else none) =
        fun i => (c.rovers[i]?).bind (shownItem? nmea now mpFilter) := by
      funext i
      cases c.rovers[i]? with
      | none => rfl
      | some t =>
          by_cases hended : t.phase = .ended
          · simp [shownItem?, hended]
          · simp [hended]
    rw [hsame, filterMap_range, seated, ← List.filterMap_eq_map,
      List.filterMap_filter]
    rfl
  rw [hlisted, hseated]
  exact hc.listed_perm.filterMap _

end Caster

/-! ## Runs -/

namespace NtripCaster

variable [PyFloat F] [Crypto] [JwtLib F] [SchemaLib F]

theorem run_seats {s s' : NtripCaster F} {cfg : CasterCfg F} {mtls : Bool}
    {disabled : List (Json F)} {events : List (Event F)}
    (hstart : s.caster = .new cfg mtls disabled)
    (hrun : run step s events = some s') : s'.caster.Seats := by
  refine run_preserves (P := fun s : NtripCaster F => s.caster.Seats)
    ?_ ?_ hrun
  · intro s event next hs hstep
    rcases step_caster hstep with hkept | ⟨event', _, hmove⟩
    · rwa [hkept]
    · have hrover := Caster.step_move hmove
      exact ⟨hrover.balanced hs.balanced,
        hrover.proper hs.balanced hs.proper, hs.distinctHubs.step hmove⟩
  · rw [hstart]
    have hnew := Caster.countsSlots_new cfg mtls disabled
    exact ⟨hnew.balanced, hnew.proper, hnew.distinctHubs⟩

/-- In every state of the server the pages of a listing are the slices of one
list, which has an entry for every session that has a slot at a mountpoint
that the filter lets through, and no other; and enough pages are all of it. -/
theorem run_roverPages {s s' : NtripCaster F} {cfg : CasterCfg F}
    {mtls : Bool} {disabled : List (Json F)} {events : List (Event F)}
    (hstart : s.caster = .new cfg mtls disabled)
    (hrun : run step s events = some s') (nmea : ℕ → NmeaState F) (now : F)
    (mpFilter : Option String) :
    ∃ entries : List (RoverItem F),
      entries.Perm ((s'.caster.seated mpFilter).map fun t =>
        Caster.roverItem nmea now t.mountpoint t) ∧
      (∀ query : PyDict String String,
        query.get? "mountpoint" = mpFilter →
        ∃ page limit : ℕ, 1 ≤ page ∧ 1 ≤ limit ∧ limit ≤ 500 ∧
          s'.caster.adminRovers nmea now query =
            { page := page
              limit := limit
              total := entries.length
              items := pageOf page limit entries }) ∧
      ∀ limit pages : ℕ, entries.length ≤ pages * limit →
        ((List.range pages).flatMap fun k => pageOf (k + 1) limit entries) =
          entries := by
  refine ⟨_, (run_seats hstart hrun).entries_perm nmea now mpFilter, ?_, ?_⟩
  · rintro query rfl
    refine ⟨(max (queryInt query "page" 1) 1).toNat,
      (max (min (queryInt query "limit" 50) 500) 1).toNat, ?_, ?_, ?_, ?_⟩
    · omega
    · omega
    · omega
    · unfold Caster.adminRovers
      dsimp only
      congr 1
      · omega
      · omega
  · intro limit pages hall
    rw [flatMap_pageOf]
    exact List.take_of_length_le hall

end NtripCaster

namespace NtripCaster

theorem run_roverPages_twoRovers :
    ∃ s : NtripCaster ℚ, ∃ entries : List (RoverItem ℚ),
      run (@step ℚ _ noDigest (oneToken (accessClaims "root" "admin"))
        anyBody) limitedServer (twoRovers.map .connection) = some s ∧
      entries.Perm ((s.caster.seated none).map fun t =>
        Caster.roverItem (fun _ => .new) 0 t.mountpoint t) ∧
      entries.length = 1 := by
  have hview : (run (@step ℚ _ noDigest
      (oneToken (accessClaims "root" "admin")) anyBody) limitedServer
        (twoRovers.map .connection)).map
          (fun s => (s.caster.seated none).length) = some 1 := by
    decide +kernel
  rcases Option.map_eq_some_iff.mp hview with ⟨s, hrun, hone⟩
  rcases @run_roverPages ℚ _ noDigest
    (oneToken (accessClaims "root" "admin")) anyBody _ _ _ _ _ _ rfl hrun
    (fun _ => .new) 0 none with ⟨entries, hentries, -⟩
  refine ⟨s, entries, hrun, hentries, ?_⟩
  rw [hentries.length_eq, List.length_map, hone]

end NtripCaster

end BabilCors
