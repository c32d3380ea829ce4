import BabilCors.ServerRuns

/-!
# Limits of the configuration

The limits are part of the configuration, which among the steps of the streams
only a reload replaces.
-/

namespace BabilCors

open Py TransitionRuns

variable {F : Type}

namespace Caster

theorem handleRover_cfg [PyFloat F] [Crypto] (c : Caster F)
    (req : RoverRequest) (now : ℚ) : (c.handleRover req now).cfg = c.cfg := by
  rcases c.handleRover_outcome req now with ⟨n, k, d, hsame | ⟨_, _, _, -, -,
    -, -, -, -, hjoin⟩⟩
  · rw [hsame]
  · rw [hjoin]
    rfl

theorem handleSource_cfg (c : Caster F) (first : Bytes) (addr : String)
    (hasCert : Bool) : (c.handleSource first addr hasCert).cfg = c.cfg := by
  unfold handleSource
  split
  · dsimp only
    split_ifs
    · rfl
    · rfl
    · rfl
    · split <;> rfl
    · rfl
  · rfl

theorem onSourceData_cfg (c : Caster F) (m : String) (chunk : Bytes)
    (now : ℚ) : (c.onSourceData m chunk now).cfg = c.cfg := by
  unfold onSourceData
  split_ifs <;> rfl

def Event.KeepsCfg : Event F → Prop
  | .reload _ _ _ => False
  | _ => True

theorem step_cfg [PyFloat F] [Crypto] {c c' : Caster F} {event : Event F}
    (hkeeps : event.KeepsCfg) (hstep : c.step event = some c') :
    c'.cfg = c.cfg := by
  cases step_outcome hstep with
  | roverRequest req now =>
      exact c.handleRover_cfg req now
  | roverIcy i ok t t' ht hdone =>
      rfl
  | roverReadEnds i t t' ht hdone =>
      rfl
  | roverFinish i t t' ht hfinish =>
      rfl
  | roverSend i event t t' ht hsend =>
      rfl
  | sourceRequest first addr hasCert =>
      exact c.handleSource_cfg first addr hasCert
  | sourceIcy j ok s hs hphase =>
      rfl
  | sourceDrain j ok s hs hphase =>
      rfl
  | sourceRead j chunk now s hs hphase =>
      unfold sourceRead
      dsimp only
      rw [onSourceData_cfg]
      rfl
  | sourceEnds j s hs hphase =>
      rfl
  | kick connId mountpoint =>
      rw [kickRover_eq]
      rfl
  | close =>
      have hdetach (d : Caster F) (m : String) (hd : d.cfg = c.cfg) :
          (d.detachSource m).cfg = c.cfg := hd
      exact close_preserves hdetach c rfl
  | reload cfg mtls disabled => exact hkeeps.elim

end Caster

namespace NtripCaster

variable [PyFloat F] [Crypto] [JwtLib F] [SchemaLib F]

/-- The event leaves a limit of the configuration as it is. -/
def KeepsLimit (key : String) (s : NtripCaster F) (event : Event F) : Prop :=
  ∀ s', s.step event = some s' → s'.caster.limit key = s.caster.limit key

theorem keepsLimit_connection {key : String} {s : NtripCaster F}
    {event : Caster.Event F} (hkeeps : event.KeepsCfg) :
    s.KeepsLimit key (.connection event) := by
  intro s' hstep
  rcases Option.map_eq_some_iff.mp hstep with ⟨c, hmove, rfl⟩
  have hcfg : c.cfg = s.caster.cfg := Caster.step_cfg hkeeps hmove
  unfold Caster.limit
  rw [hcfg]

end NtripCaster

def limitedServer : NtripCaster ℚ :=
  { smallServer (.obj []) with
    caster := .new
      { (.basic "s3cret" [("rover", .basic "rover" "hunter2" none)] :
          CasterCfg ℚ) with
        limits := [("max_sources_total", 1), ("max_rovers_total", 1),
          ("max_rovers_per_ip", 1)] }
      false [] }

end BabilCors
