import BabilCors.SourceSteps
import BabilCors.TransitionRuns

/-!
# The attachment of a source

A source's handler attaches its address to the hub in front of two awaits and
detaches it in the `finally` behind them.  Where neither await raises, a hub
holds an address only while a handler with that address runs, so a mountpoint
without a running handler takes the next source.
-/

namespace BabilCors

open Py TransitionRuns

variable {F : Type}

namespace Caster

/-- What a step does to the source tasks and to the addresses the hubs hold. -/
inductive SourceMove (c c' : Caster F) (event : Event F) : Prop
  | stays (hsources : c'.sources = c.sources)
      (haddr : ∀ m, (c'.hub m).sourceAddr = (c.hub m).sourceAddr)
  | attaches (m addr : String)
      (hsources : c'.sources = c.sources ++ [⟨addr, m, .icyReply, []⟩])
      (haddr : ∀ m', (c'.hub m').sourceAddr =
        if m = m' then some addr else (c.hub m').sourceAddr)
  | moves (j : ℕ) (s s' : SourceTask) (hs : c.sources[j]? = some s)
      (hmount : s'.mountpoint = s.mountpoint) (hsame : s'.addr = s.addr)
      (hrunning : event.FailsAttached ∨ s'.running = true)
      (hsources : c'.sources = c.sources.set j s')
      (haddr : ∀ m, (c'.hub m).sourceAddr = (c.hub m).sourceAddr)
  | detaches (j : ℕ) (s s' : SourceTask) (hs : c.sources[j]? = some s)
      (hsources : c'.sources = c.sources.set j s')
      (haddr : ∀ m, (c'.hub m).sourceAddr =
        if s.mountpoint = m then none else (c.hub m).sourceAddr)
  | closes (hsources : c'.sources = c.sources)
      (haddr : ∀ m, (c'.hub m).sourceAddr = none ∨
        (c'.hub m).sourceAddr = (c.hub m).sourceAddr)

theorem step_sourceMove [PyFloat F] [Crypto] {c c' : Caster F}
    {event : Event F} (hstep : c.step event = some c') :
    SourceMove c c' event := by
  cases step_attachMove hstep with
  | stays hsources haddr => exact .stays hsources haddr
  | attaches first addr hasCert m hfree hroom hsources haddr =>
      exact .attaches m addr hsources haddr
  | moves j s s' hs hmount hsame hrunning hend hrunning' hsources haddr =>
      exact .moves j s s' hs hmount hsame hrunning' hsources haddr
  | detaches j s hs hreading hsources haddr =>
      exact .detaches j s _ hs hsources haddr
  | closes hsources haddr => exact .closes hsources haddr

/-! ## Runs -/

/-- A hub that holds an address has a running handler with that address. -/
def AddrHeld (c : Caster F) : Prop :=
  ∀ m a, (c.hub m).sourceAddr = some a →
    ∃ s ∈ c.sources, s.running = true ∧ s.mountpoint = m ∧ s.addr = a

theorem SourceMove.addrHeld {c c' : Caster F} {event : Event F}
    (hmove : SourceMove c c' event) (hfine : ¬ event.FailsAttached)
    (hc : c.AddrHeld) : c'.AddrHeld := by
  intro m a hma
  cases hmove with
  | stays hsources haddr =>
      rw [haddr] at hma
      rw [hsources]
      exact hc m a hma
  | attaches m' addr hsources haddr =>
      rw [haddr] at hma
      rw [hsources]
      split_ifs at hma with hm
      · cases hma
        exact ⟨_, List.mem_append_right _ (List.mem_singleton_self _), rfl,
          hm, rfl⟩
      · obtain ⟨s, hs, hrest⟩ := hc m a hma
        exact ⟨s, List.mem_append_left _ hs, hrest⟩
  | moves j s s' hs hmount hsame hrunning hsources haddr =>
      rw [haddr] at hma
      rw [hsources]
      obtain ⟨hlt, hget⟩ := List.getElem?_eq_some_iff.mp hs
      obtain ⟨r, hr, hrun, hrm, hra⟩ := hc m a hma
      obtain ⟨k, hk, rfl⟩ := List.getElem_of_mem hr
      by_cases hjk : j = k
      · subst hjk
        rw [hget] at hrm hra
        exact ⟨s', List.mem_set hlt s', hrunning.resolve_left hfine,
          hmount.trans hrm, hsame.trans hra⟩
      · refine ⟨c.sources[k], ?_, hrun, hrm, hra⟩
        rw [← List.getElem_set_ne hjk (by simpa using hk)]
        exact List.getElem_mem _
  | detaches j s s' hs hsources haddr =>
      rw [haddr] at hma
      rw [hsources]
      split_ifs at hma with hm
      obtain ⟨hlt, hget⟩ := List.getElem?_eq_some_iff.mp hs
      obtain ⟨r, hr, hrun, hrm, hra⟩ := hc m a hma
      obtain ⟨k, hk, rfl⟩ := List.getElem_of_mem hr
      have hjk : j ≠ k := by
        rintro rfl
        exact hm (hget ▸ hrm)
      refine ⟨c.sources[k], ?_, hrun, hrm, hra⟩
      rw [← List.getElem_set_ne hjk (by simpa using hk)]
      exact List.getElem_mem _
  | closes hsources haddr =>
      rw [hsources]
      rcases haddr m with hnone | hsame
      · rw [hnone] at hma
        cases hma
      · rw [hsame] at hma
        exact hc m a hma

/-- Every attachment is released with its handler: a hub holds an address only
while a handler with that address runs, and a hub without a running handler
takes a source from any address. -/
structure SourcesReleased (c : Caster F) : Prop where
  held : c.AddrHeld
  free : ∀ m, (∀ s ∈ c.sources, s.mountpoint = m → s.running = false) →
    ∀ addr, ((c.hub m).attachSource addr).1 = true

theorem AddrHeld.sourcesReleased {c : Caster F} (hc : c.AddrHeld) :
    c.SourcesReleased := by
  refine ⟨hc, fun m hidle addr => ?_⟩
  have hnone : (c.hub m).sourceAddr = none := by
    cases hma : (c.hub m).sourceAddr with
    | none => rfl
    | some a =>
        obtain ⟨s, hs, hrunning, hmount, _⟩ := hc m a hma
        rw [hidle s hs hmount] at hrunning
        cases hrunning
  simp [MountpointHub.attachSource, hnone]

/-- In a run in which no reply to an attached source raises, every state has
released the attachments of the handlers that have ended. -/
theorem run_sourcesReleased [PyFloat F] [Crypto] {cfg : CasterCfg F}
    {mtls : Bool} {disabled : List (Json F)} {events : List (Event F)}
    {c : Caster F} (hfine : ∀ event ∈ events, ¬ event.FailsAttached)
    (hrun : run step (new cfg mtls disabled) events = some c) :
    c.SourcesReleased := by
  have hmeet : StepsMeet step (fun _ event => ¬ event.FailsAttached)
      (new cfg mtls disabled) events :=
    .of_forall fun event hevent _ => hfine event hevent
  refine AddrHeld.sourcesReleased (hmeet.run_preserves (P := AddrHeld)
    (fun _ _ _ hc hok hstep => (step_sourceMove hstep).addrHeld hok hc)
    (fun m a hma => ?_) hrun)
  cases hma

def sourceRun : List (Event ℚ) :=
  [.sourceRequest sourceHello "10.0.0.2:6000" false, .sourceIcy 0 true,
    .sourceDrain 0 true,
    .sourceRead 0 [211, 0, 2, 62, 208, 164, 224, 0] 0, .sourceEnds 0]

theorem run_sourcesReleased_sourceRun :
    ∃ c : Caster ℚ,
      run (@step ℚ _ noDigest) oneUser sourceRun = some c ∧
        c.SourcesReleased := by
  have hsome : (run (@step ℚ _ noDigest) oneUser sourceRun).isSome := by
    decide +kernel
  obtain ⟨c, hrun⟩ := Option.isSome_iff_exists.mp hsome
  refine ⟨c, hrun, @run_sourcesReleased ℚ _ noDigest _ _ _ _ c ?_ hrun⟩
  simp [sourceRun, Event.FailsAttached]

/-- A source that is gone when the ICY reply is written: no handler runs, and
the mountpoint refuses every other address. -/
theorem failedReply_keeps_attachment :
    ∃ c : Caster ℚ,
      run (@step ℚ _ noDigest) oneUser
          [.sourceRequest sourceHello "10.0.0.2:6000" false,
            .sourceIcy 0 false] = some c ∧
        (∀ s ∈ c.sources, s.running = false) ∧
        (c.hub "MP").sourceAddr = some "10.0.0.2:6000" ∧
        ((c.hub "MP").attachSource "10.0.0.3:6000").1 = false ∧
        ¬ c.SourcesReleased := by
  have hview : (run (@step ℚ _ noDigest) oneUser
      [.sourceRequest sourceHello "10.0.0.2:6000" false,
        .sourceIcy 0 false]).map
        (fun c => (c.sources.all fun s => !s.running,
          (c.hub "MP").sourceAddr,
          ((c.hub "MP").attachSource "10.0.0.3:6000").1)) =
      some (true, some "10.0.0.2:6000", false) := by
    decide +kernel
  obtain ⟨c, hrun, hview⟩ := Option.map_eq_some_iff.mp hview
  obtain ⟨hrunning, haddr, hattach⟩ := by simpa using hview
  refine ⟨c, hrun, hrunning, haddr, hattach, fun hreleased => ?_⟩
  have hfree := hreleased.free "MP" (fun s hs _ => hrunning s hs)
    "10.0.0.3:6000"
  rw [hattach] at hfree
  cases hfree

end Caster

end BabilCors
