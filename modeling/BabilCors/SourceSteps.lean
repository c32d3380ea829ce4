import BabilCors.Caster

/-!
# Steps of sources

What a step of the server does to the source tasks and to the addresses that
the hubs hold: a source attaches to a free hub with room, goes on, fails, or
detaches at its end.
-/

namespace BabilCors

open Py

variable {F : Type}

namespace Caster

/-- A write or drain of the reply to a source that has attached raises. -/
def Event.FailsAttached : Event F → Prop
  | .sourceIcy _ ok | .sourceDrain _ ok => ok = false
  | _ => False

theorem detachSource_sources (c : Caster F) (m : String) :
    (c.detachSource m).sources = c.sources ∧
      ∀ m', ((c.detachSource m).hub m').sourceAddr =
        if m = m' then none else (c.hub m').sourceAddr := by
  refine ⟨rfl, fun m' => ?_⟩
  rw [detachSource, hub_setHub]
  split_ifs <;> rfl

theorem sourceRead_sourceAddr (c : Caster F) (j : ℕ) (s : SourceTask)
    (chunk : Bytes) (now : ℚ) (m : String) :
    ((c.sourceRead j s chunk now).hub m).sourceAddr =
      (c.hub m).sourceAddr := by
  unfold sourceRead
  dsimp only
  rw [(hub_onSourceData _ _ _ _ m).2.2, hub_setHub]
  split_ifs with hm
  · rw [← hm]
  · rfl

/-- What a step does to the source tasks and to the addresses the hubs hold. -/
inductive AttachMove (c c' : Caster F) : Event F → Prop
  | stays {event : Event F} (hsources : c'.sources = c.sources)
      (haddr : ∀ m, (c'.hub m).sourceAddr = (c.hub m).sourceAddr) :
      AttachMove c c' event
  | attaches (first : Bytes) (addr : String) (hasCert : Bool) (m : String)
      (hfree : (c.hub m).sourceAddr = none ∨
        (c.hub m).sourceAddr = some addr)
      (hroom : (c.setHub m (c.hub m)).hasSourceRoom (c.hub m) = true)
      (hsources : c'.sources = c.sources ++ [⟨addr, m, .icyReply, []⟩])
      (haddr : ∀ m', (c'.hub m').sourceAddr =
        if m = m' then some addr else (c.hub m').sourceAddr) :
      AttachMove c c' (.sourceRequest first addr hasCert)
  | moves {event : Event F} (j : ℕ) (s s' : SourceTask)
      (hs : c.sources[j]? = some s) (hmount : s'.mountpoint = s.mountpoint)
      (hsame : s'.addr = s.addr) (hrunning : s.running = true)
      (hend : s'.phase ≠ .ended)
      (hrunning' : event.FailsAttached ∨ s'.running = true)
      (hsources : c'.sources = c.sources.set j s')
      (haddr : ∀ m, (c'.hub m).sourceAddr = (c.hub m).sourceAddr) :
      AttachMove c c' event
  | detaches (j : ℕ) (s : SourceTask) (hs : c.sources[j]? = some s)
      (hreading : s.phase = .reading)
      (hsources : c'.sources = c.sources.set j { s with phase := .ended })
      (haddr : ∀ m, (c'.hub m).sourceAddr =
        if s.mountpoint = m then none else (c.hub m).sourceAddr) :
      AttachMove c c' (.sourceEnds j)
  | closes (hsources : c'.sources = c.sources)
      (haddr : ∀ m, (c'.hub m).sourceAddr = none ∨
        (c'.hub m).sourceAddr = (c.hub m).sourceAddr) :
      AttachMove c c' .close

theorem step_attachMove [PyFloat F] [Crypto] {c c' : Caster F}
    {event : Event F} (hstep : c.step event = some c') :
    AttachMove c c' event := by
  cases step_outcome hstep with
  | roverRequest req now =>
      rcases c.handleRover_cases req now with hsame | ⟨base, session, ip,
        hsame, _, _, hjoin⟩
      · exact .stays hsame.sources fun m => by
          rw [hub, hsame.mountpoints, hub]
      · rw [hjoin]
        refine .stays hsame.sources fun m => ?_
        have hbase : base.hub m = c.hub m := by
          rw [hub, hsame.mountpoints, hub]
        rw [← hbase, hub_join]
        split_ifs with hm
        · rw [← hm]
        · rfl
  | roverIcy i ok t t' ht hdone =>
      exact .stays rfl fun _ => rfl
  | roverReadEnds i t t' ht hdone =>
      exact .stays rfl fun _ => rfl
  | roverFinish i t t' ht hfinish =>
      refine .stays rfl fun m => ?_
      rw [hub_leave]
      split_ifs with hm
      · rw [← hm]
      · rfl
  | roverSend i event t t' ht hsend =>
      refine .stays rfl fun m => ?_
      rw [recordSentBytes, hub_setHub]
      split_ifs with hm
      · rw [← hm]
        rfl
      · rfl
  | sourceRequest first addr hasCert =>
      cases c.handleSource_admission first addr hasCert with
      | refused hsources hhub =>
          exact .stays hsources fun m => by rw [hhub]
      | attached m hfree hroom hsources hhub =>
          refine .attaches first addr hasCert m hfree hroom hsources
            fun m' => ?_
          rw [hhub]
          split_ifs <;> rfl
  | sourceIcy j ok s hs hphase =>
      refine .moves j s
        { s with phase := if ok then .secondDrain else .raised } hs rfl rfl
        (by simp [SourceTask.running, hphase]) ?_ ?_ rfl fun _ => rfl
      · cases ok <;> simp
      · cases ok <;> simp [Event.FailsAttached, SourceTask.running]
  | sourceDrain j ok s hs hphase =>
      refine .moves j s
        { s with phase := if ok then .reading else .raised } hs rfl rfl
        (by simp [SourceTask.running, hphase]) ?_ ?_ rfl fun _ => rfl
      · cases ok <;> simp
      · cases ok <;> simp [Event.FailsAttached, SourceTask.running]
  | sourceRead j chunk now s hs hphase =>
      have hrunning : s.running = true := by
        simp [SourceTask.running, hphase]
      exact .moves j s
        { s with parserBuf := (Rtcm.feed s.parserBuf chunk).buf } hs rfl rfl
        hrunning (by simp [hphase]) (.inr hrunning)
        (c.sourceRead_keeps j s chunk now).1
        (c.sourceRead_sourceAddr j s chunk now)
  | sourceEnds j s hs hphase =>
      obtain ⟨hsources, haddr⟩ :=
        (c.setSource j { s with phase := .ended }).detachSource_sources
          s.mountpoint
      exact .detaches j s hs hphase hsources haddr
  | kick connId mountpoint =>
      unfold kickRover
      split
      · exact .stays rfl fun _ => rfl
      · dsimp only
        split <;> exact .stays rfl fun _ => rfl
  | close =>
      obtain ⟨hsources, haddr⟩ : c.close.sources = c.sources ∧
          ∀ m, (c.close.hub m).sourceAddr = none ∨
            (c.close.hub m).sourceAddr = (c.hub m).sourceAddr :=
        close_preserves
          (P := fun d => d.sources = c.sources ∧
            ∀ m, (d.hub m).sourceAddr = none ∨
              (d.hub m).sourceAddr = (c.hub m).sourceAddr)
          (fun d m hd => ⟨(d.detachSource_sources m).1.trans hd.1, fun m' => by
            rw [(d.detachSource_sources m).2 m']
            split_ifs
            · exact .inl rfl
            · exact hd.2 m'⟩)
          c ⟨rfl, fun _ => .inr rfl⟩
      exact .closes hsources haddr
  | reload cfg mtls disabled =>
      exact .stays rfl fun _ => rfl

end Caster

end BabilCors
