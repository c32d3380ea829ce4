import BabilCors.SourceSteps

/-!
# The table of hubs

The names of the hubs stay distinct in every step, so what the code counts over
the hubs is a count over their names.
-/

namespace BabilCors

open Py

variable {F : Type}

namespace Caster

def DistinctHubs (c : Caster F) : Prop :=
  c.mountpoints.keys.Nodup

theorem DistinctHubs.setHub {c : Caster F} (hc : c.DistinctHubs) (m : String)
    (h : MountpointHub) : (c.setHub m h).DistinctHubs :=
  PyDict.nodup_keys_set hc m h

theorem DistinctHubs.detachSource {c : Caster F} (hc : c.DistinctHubs)
    (m : String) : (c.detachSource m).DistinctHubs :=
  PyDict.nodup_keys_set hc m _

theorem DistinctHubs.onSourceData {c : Caster F} (hc : c.DistinctHubs)
    (m : String) (chunk : Bytes) (now : ℚ) :
    (c.onSourceData m chunk now).DistinctHubs := by
  unfold Caster.onSourceData
  split_ifs
  · exact hc
  · exact PyDict.nodup_keys_set hc m _

theorem DistinctHubs.handleSource {c : Caster F} (hc : c.DistinctHubs)
    (first : Bytes) (addr : String) (hasCert : Bool) :
    (c.handleSource first addr hasCert).DistinctHubs := by
  unfold Caster.handleSource
  split
  next path _ _ =>
    have hcreated := hc.setHub (lstripChar '/' path)
      (c.hub (lstripChar '/' path))
    dsimp only
    split_ifs
    · exact hc
    · exact hc
    · exact hcreated
    · split
      next attached _ => exact hcreated.setHub (lstripChar '/' path) attached
      · exact hcreated
    · exact hcreated
  · exact hc

theorem DistinctHubs.step [PyFloat F] [Crypto] {c c' : Caster F}
    (hc : c.DistinctHubs) {event : Event F}
    (hstep : c.step event = some c') : c'.DistinctHubs := by
  cases step_outcome hstep with
  | roverRequest req now =>
      rcases c.handleRover_cases req now with
        hsame | ⟨base, session, ip, hsame, _, _, hjoin⟩
      · unfold DistinctHubs
        rw [hsame.mountpoints]
        exact hc
      · have hbase : base.DistinctHubs := by
          unfold DistinctHubs
          rw [hsame.mountpoints]
          exact hc
        rw [hjoin]
        exact hbase.setHub session.mountpoint _
  | roverIcy i ok t t' ht hdone =>
      exact hc
  | roverReadEnds i t t' ht hdone =>
      exact hc
  | roverFinish i t t' ht hfinish =>
      exact hc.setHub t'.mountpoint _
  | roverSend i event t t' ht hsend =>
      exact hc.setHub t.mountpoint _
  | sourceRequest first addr hasCert =>
      exact hc.handleSource first addr hasCert
  | sourceIcy j ok s hs hphase =>
      exact hc
  | sourceDrain j ok s hs hphase =>
      exact hc
  | sourceRead j chunk now s hs hphase =>
      let parsed := c.setSource j
        { s with parserBuf := (Rtcm.feed s.parserBuf chunk).buf }
      have hparsed : parsed.DistinctHubs := hc
      exact (hparsed.setHub s.mountpoint _).onSourceData s.mountpoint _ now
  | sourceEnds j s hs hphase =>
      exact hc.detachSource s.mountpoint
  | kick connId mountpoint =>
      rw [kickRover_eq]
      exact hc
  | close =>
      exact close_preserves (fun _ m hd => hd.detachSource m) c hc
  | reload cfg mtls disabled =>
      exact hc

/-! ## Counting hubs -/

theorem values_eq_hubs {c : Caster F} (hc : c.DistinctHubs) :
    c.mountpoints.values = c.mountpoints.keys.map c.hub :=
  PyDict.values_eq_map hc .new

theorem mem_keys_of_hub_ne {c : Caster F} {m : String}
    (hne : c.hub m ≠ .new) : m ∈ c.mountpoints.keys := by
  rw [← PyDict.get?_isSome_iff]
  unfold hub at hne
  cases hget : c.mountpoints.get? m with
  | none =>
      rw [hget] at hne
      exact (hne rfl).elim
  | some h => rfl

end Caster

end BabilCors
