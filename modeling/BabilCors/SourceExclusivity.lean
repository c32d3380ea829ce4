import BabilCors.ServerRuns
import BabilCors.SourceSteps

/-!
# One source on a mountpoint

`detach_source` clears the address of its hub without naming a connection.
With addresses that differ, a hub holds the address of the one connection that
has attached and not detached, so no other connection attaches meanwhile, and
a detach clears no address but that of its own connection.
-/

namespace BabilCors

open Py TransitionRuns

variable {F : Type}

/-- Between the attach and the detach of the handler; one that has raised in
front of its `finally` never detaches. -/
def SourceTask.attached (t : SourceTask) : Prop :=
  t.phase ≠ .ended

theorem SourceTask.attached_of_running {t : SourceTask}
    (hrunning : t.running = true) : t.attached := by
  intro hended
  simp [running, hended] at hrunning

namespace Caster

def HoldsAddresses (c : Caster F) : Prop :=
  ∀ (j : ℕ) (t : SourceTask), c.sources[j]? = some t → t.attached →
    (c.hub t.mountpoint).sourceAddr = some t.addr

def sourceAddrs (c : Caster F) : List String :=
  c.sources.map SourceTask.addr

theorem sourceAddrs_set {c : Caster F} {j : ℕ} {s s' : SourceTask}
    (hs : c.sources[j]? = some s) (hsame : s'.addr = s.addr) :
    (c.sources.set j s').map SourceTask.addr = c.sourceAddrs := by
  rcases List.getElem?_eq_some_iff.mp hs with ⟨hlt, hget⟩
  have hlt' : j < c.sourceAddrs.length := by
    simpa [sourceAddrs] using hlt
  have haddr : c.sourceAddrs[j] = s'.addr := by
    simp [sourceAddrs, hget, hsame]
  rw [List.map_set, ← haddr]
  exact List.set_getElem_self hlt'

theorem eq_of_addr_eq {c : Caster F} (hdistinct : c.sourceAddrs.Nodup)
    {i j : ℕ} {s t : SourceTask} (hs : c.sources[i]? = some s)
    (ht : c.sources[j]? = some t) (haddr : s.addr = t.addr) : i = j := by
  rcases List.getElem?_eq_some_iff.mp hs with ⟨hi, rfl⟩
  rcases List.getElem?_eq_some_iff.mp ht with ⟨hj, rfl⟩
  have hi' : i < c.sourceAddrs.length := by simpa [sourceAddrs] using hi
  have hj' : j < c.sourceAddrs.length := by simpa [sourceAddrs] using hj
  have hget : c.sourceAddrs[i] = c.sourceAddrs[j] := by
    simpa [sourceAddrs] using haddr
  exact hdistinct.getElem_inj_iff.mp hget

/-! ## One step -/

def Event.newAddr? : Event F → Option String
  | .sourceRequest _ addr _ => some addr
  | _ => none

theorem Event.FromAdmin.newAddr? {event : Event F}
    (hadmin : event.FromAdmin) : event.newAddr? = none := by
  cases event with
  | sourceRequest _ _ _ => exact hadmin.elim
  | _ => rfl

theorem AttachMove.sourceAddrs {c c' : Caster F} {event : Event F}
    (hmove : AttachMove c c' event) :
    c'.sourceAddrs = c.sourceAddrs ∨
      ∃ addr, event.newAddr? = some addr ∧
        c'.sourceAddrs = c.sourceAddrs ++ [addr] := by
  cases hmove with
  | stays hsources _ =>
      exact .inl (congrArg (List.map SourceTask.addr) hsources)
  | attaches first addr hasCert m _ _ hsources _ =>
      refine .inr ⟨addr, rfl, ?_⟩
      rw [Caster.sourceAddrs, hsources, List.map_append]
      rfl
  | moves j s s' hs _ hsame _ _ _ hsources _ =>
      refine .inl ?_
      rw [Caster.sourceAddrs, hsources]
      exact sourceAddrs_set hs hsame
  | detaches j s hs _ hsources _ =>
      refine .inl ?_
      rw [Caster.sourceAddrs, hsources]
      exact sourceAddrs_set hs rfl
  | closes hsources _ =>
      exact .inl (congrArg (List.map SourceTask.addr) hsources)

theorem AttachMove.holdsAddresses {c c' : Caster F} {event : Event F}
    (hmove : AttachMove c c' event) (hholds : c.HoldsAddresses)
    (hdistinct : c.sourceAddrs.Nodup)
    (hnew : ∀ addr, event.newAddr? = some addr → addr ∉ c.sourceAddrs)
    (hopen : event ≠ .close) : c'.HoldsAddresses := by
  intro k t ht hattached
  cases hmove with
  | stays hsources haddr =>
      rw [hsources] at ht
      rw [haddr]
      exact hholds k t ht hattached
  | attaches first addr hasCert m hfree _ hsources haddr =>
      rw [hsources] at ht
      rw [haddr]
      rcases lt_or_ge k c.sources.length with hold | hlast
      · rw [List.getElem?_append_left hold] at ht
        have hheld := hholds k t ht hattached
        split_ifs with hm
        · -- the hub was free, so no old handler can be attached to it
          exfalso
          subst hm
          rcases hfree with hnone | hsame
          · rw [hnone] at hheld
            cases hheld
          · rw [hsame] at hheld
            have hmem : t.addr ∈ c.sourceAddrs :=
              List.mem_map_of_mem (List.mem_of_getElem? ht)
            rw [← Option.some.inj hheld] at hmem
            exact hnew addr rfl hmem
        · exact hheld
      · rw [List.getElem?_append_right hlast] at ht
        have hzero : k - c.sources.length = 0 := by
          have hlt := (List.getElem?_eq_some_iff.mp ht).1
          simpa using hlt
        rw [hzero] at ht
        obtain rfl := Option.some.inj ht
        rw [if_pos rfl]
  | moves j s s' hs hmount hsame hrunning _ _ hsources haddr =>
      rw [hsources] at ht
      rw [haddr]
      rcases List.getElem?_eq_some_iff.mp hs with ⟨hlt, _⟩
      rw [List.getElem?_set] at ht
      split_ifs at ht with hk
      · obtain rfl := Option.some.inj ht
        rw [hmount, hsame]
        exact hholds j s hs (SourceTask.attached_of_running hrunning)
      · exact hholds k t ht hattached
  | detaches j s hs hreading hsources haddr =>
      rw [hsources] at ht
      rw [haddr]
      rcases List.getElem?_eq_some_iff.mp hs with ⟨hlt, _⟩
      rw [List.getElem?_set] at ht
      split_ifs at ht with hk
      · obtain rfl := Option.some.inj ht
        exact (hattached rfl).elim
      · have hheld := hholds k t ht hattached
        rw [if_neg]
        · exact hheld
        · intro hm
          have hheld' := hholds j s hs (by
            intro hended
            rw [hreading] at hended
            cases hended)
          rw [hm, hheld] at hheld'
          exact hk (eq_of_addr_eq hdistinct hs ht
            (Option.some.inj hheld').symm)
  | closes hsources haddr => exact (hopen rfl).elim

/-! ## The result -/

/-- Every mountpoint has at most one source. -/
structure ExclusiveSources [PyFloat F] [Crypto] (c : Caster F) : Prop where
  /-- Two handlers between attach and detach are on different hubs. -/
  one : ∀ (i j : ℕ) (s t : SourceTask), c.sources[i]? = some s →
    c.sources[j]? = some t → s.attached → t.attached →
    s.mountpoint = t.mountpoint → i = j
  /-- The hub holds the address of the handler. -/
  held : c.HoldsAddresses
  /-- Another address is refused, and the hub stays as it is. -/
  refused : ∀ (j : ℕ) (t : SourceTask), c.sources[j]? = some t →
    t.attached → ∀ addr ≠ t.addr,
      (c.hub t.mountpoint).attachSource addr = (false, c.hub t.mountpoint)
  /-- The detach of one handler leaves the attachments of the others. -/
  detach : ∀ (j : ℕ) (c' : Caster F), c.step (.sourceEnds j) = some c' →
    ∀ (k : ℕ) (t : SourceTask), k ≠ j → c.sources[k]? = some t →
      t.attached → (c'.hub t.mountpoint).sourceAddr = some t.addr

theorem HoldsAddresses.exclusive [PyFloat F] [Crypto] {c : Caster F}
    (hholds : c.HoldsAddresses) (hdistinct : c.sourceAddrs.Nodup) :
    c.ExclusiveSources := by
  refine ⟨?_, hholds, ?_, ?_⟩
  · intro i j s t hs ht hs' ht' hmount
    have haddr := hholds i s hs hs'
    rw [hmount, hholds j t ht ht'] at haddr
    exact eq_of_addr_eq hdistinct hs ht (Option.some.inj haddr).symm
  · intro j t ht hattached addr hother
    have hheld := hholds j t ht hattached
    unfold MountpointHub.attachSource
    rw [if_pos]
    rw [hheld]
    exact ⟨rfl, fun h => hother (Option.some.inj h).symm⟩
  · intro j c' hstep k t hk ht hattached
    have hheld : c'.HoldsAddresses :=
      (step_attachMove hstep).holdsAddresses hholds hdistinct
        (fun _ hnew => by cases hnew) (by simp)
    refine hheld k t ?_ hattached
    obtain ⟨s, _, _, rfl⟩ := sourceStep_eq_some hstep
    change (c.sources.set j _)[k]? = some t
    rw [List.getElem?_set_ne (Ne.symm hk)]
    exact ht

end Caster

namespace NtripCaster

def Event.newAddr? : Event F → Option String
  | .connection event => event.newAddr?
  | _ => none

variable [PyFloat F] [Crypto] [JwtLib F] [SchemaLib F]

theorem step_holdsAddresses {s s' : NtripCaster F} {event : Event F}
    (hholds : s.caster.HoldsAddresses) (hdistinct : s.caster.sourceAddrs.Nodup)
    (hnew : ∀ addr, event.newAddr? = some addr →
      addr ∉ s.caster.sourceAddrs)
    (hopen : event ≠ .connection .close)
    (hstep : s.step event = some s') :
    s'.caster.HoldsAddresses ∧
      (s'.caster.sourceAddrs = s.caster.sourceAddrs ∨
        ∃ addr, event.newAddr? = some addr ∧
          s'.caster.sourceAddrs = s.caster.sourceAddrs ++ [addr]) := by
  rcases step_caster hstep with hkept | ⟨event', hevent, hmove⟩
  · rw [hkept]
    exact ⟨hholds, .inl rfl⟩
  · have hattach := Caster.step_attachMove hmove
    have hopen' : event' ≠ .close := by
      rintro rfl
      rcases hevent with hconnection | hadmin
      · exact hopen hconnection
      · exact hadmin
    have hbrings : ∀ addr, event'.newAddr? = some addr →
        event.newAddr? = some addr := by
      intro addr haddr
      rcases hevent with rfl | hadmin
      · exact haddr
      · rw [hadmin.newAddr?] at haddr
        cases haddr
    refine ⟨hattach.holdsAddresses hholds hdistinct
      (fun addr haddr => hnew addr (hbrings addr haddr)) hopen', ?_⟩
    rcases hattach.sourceAddrs with hsame | ⟨addr, haddr, happend⟩
    · exact .inl hsame
    · exact .inr ⟨addr, hbrings addr haddr, happend⟩

theorem run_holdsAddresses {s s' : NtripCaster F} {events : List (Event F)}
    (hholds : s.caster.HoldsAddresses)
    (hdistinct :
      (s.caster.sourceAddrs ++ events.filterMap Event.newAddr?).Nodup)
    (hopen : .connection .close ∉ events)
    (hrun : run step s events = some s') :
    s'.caster.HoldsAddresses ∧ s'.caster.sourceAddrs.Nodup := by
  induction events generalizing s with
  | nil =>
      cases hrun
      exact ⟨hholds, by simpa using hdistinct⟩
  | cons event events ih =>
      rcases run_cons_eq_some.mp hrun with ⟨next, hstep, hrest⟩
      have hopen' : event ≠ .connection .close := fun h =>
        hopen (h ▸ List.mem_cons_self)
      have hnew : ∀ addr, event.newAddr? = some addr →
          addr ∉ s.caster.sourceAddrs := by
        intro addr haddr hmem
        rw [List.filterMap_cons_some haddr] at hdistinct
        exact (List.disjoint_of_nodup_append hdistinct) hmem
          List.mem_cons_self
      have hnow := (List.nodup_append.mp hdistinct).1
      rcases step_holdsAddresses hholds hnow hnew hopen' hstep with
        ⟨hnext, haddrs⟩
      refine ih hnext ?_ (fun h => hopen (List.mem_cons_of_mem _ h)) hrest
      cases haddr : event.newAddr? with
      | none =>
          rw [List.filterMap_cons_none haddr] at hdistinct
          rcases haddrs with hsame | ⟨addr, hsome, _⟩
          · rwa [hsame]
          · rw [haddr] at hsome
            cases hsome
      | some addr =>
          rw [List.filterMap_cons_some haddr] at hdistinct
          rcases haddrs with hsame | ⟨addr', hsome, happend⟩
          · rw [hsame]
            refine hdistinct.sublist ?_
            exact (List.Sublist.refl _).append (List.sublist_cons_self _ _)
          · obtain rfl : addr = addr' := by
              rw [haddr] at hsome
              exact Option.some.inj hsome
            rw [happend, List.append_assoc]
            exact hdistinct

/-- In a run of a fresh server that is not closed, with source connections
from addresses that differ, every mountpoint has at most one source. -/
theorem run_exclusiveSources {s s' : NtripCaster F} {cfg : CasterCfg F}
    {mtls : Bool} {disabled : List (Json F)} {events : List (Event F)}
    (hstart : s.caster = .new cfg mtls disabled)
    (hdistinct : (events.filterMap Event.newAddr?).Nodup)
    (hopen : .connection .close ∉ events)
    (hrun : run step s events = some s') :
    s'.caster.ExclusiveSources := by
  have hholds : s.caster.HoldsAddresses := by
    rw [hstart]
    intro j t ht
    cases ht
  have hnone : s.caster.sourceAddrs = [] := by
    rw [hstart]
    rfl
  rcases run_holdsAddresses hholds (by simpa [hnone] using hdistinct) hopen
    hrun with ⟨hheld, hnodup⟩
  exact hheld.exclusive hnodup

end NtripCaster

/-! ## Two sources for one mountpoint -/

namespace NtripCaster

/-- The second source comes while the first is attached, with an admin request
and a snapshot between. -/
def twoSources : List (Event ℚ) :=
  [.connection (.sourceRequest Caster.sourceHello "10.0.0.2:6000" false),
    .connection (.sourceIcy 0 true), .snapshot "MP",
    .admin (bearerRequest "GET" "/admin/users" .null) firstMoment,
    .connection (.sourceRequest Caster.sourceHello "10.0.0.3:6000" false),
    .connection (.sourceDrain 0 true)]

theorem run_exclusiveSources_twoSources :
    ∃ s : NtripCaster ℚ,
      run (@step ℚ _ noDigest (oneToken (accessClaims "root" "admin"))
        anyBody) (smallServer (.obj [])) twoSources = some s ∧
      (s.caster.hub "MP").sourceAddr = some "10.0.0.2:6000" ∧
      @Caster.ExclusiveSources ℚ _ noDigest s.caster := by
  have hview : (run (@step ℚ _ noDigest
      (oneToken (accessClaims "root" "admin")) anyBody)
        (smallServer (.obj [])) twoSources).map
          (fun s => (s.caster.hub "MP").sourceAddr) =
      some (some "10.0.0.2:6000") := by
    decide +kernel
  rcases Option.map_eq_some_iff.mp hview with ⟨s, hrun, haddr⟩
  refine ⟨s, hrun, haddr, ?_⟩
  exact @run_exclusiveSources ℚ _ noDigest
    (oneToken (accessClaims "root" "admin")) anyBody _ _ _ _ _ _ rfl
    (by decide) (by simp [twoSources]) hrun

end NtripCaster

end BabilCors
