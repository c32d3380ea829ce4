import BabilCors.HotReload
import BabilCors.ReloadAtomicity

/-!
# Watching the configuration file

The file has a content and a modification time; a write replaces the one and
moves the other forward.  `main` loads the file and the constructor records its
time; every two seconds `config_changed` compares the time with the recorded
one and asks for a reload, which loads the file and then records its time.
Loading and recording are two moments, and a write may fall between them.
-/

namespace BabilCors

open Py TransitionRuns OrderedAssignments

/-- The process from its start on.  A running server comes with the content
loaded last, `_cfg_mtime` and whether a reload is asked for. -/
inductive WatchPhase (F : Type) where
  | starting
  | loaded (content : Except PyErr (Json F)) (cfg : CasterCfg F)
  | running (server : NtripCaster F) (content : Except PyErr (Json F))
      (cfgMtime : Option ℚ) (reload : Bool)
  | reloading (server : NtripCaster F) (content : Except PyErr (Json F))
      (cfgMtime : Option ℚ)
  | stopped

structure ConfigWatch (F : Type) where
  file : Except PyErr (Json F)
  mtime : ℚ
  phase : WatchPhase F

def NtripCaster.withFile {F : Type} (server : NtripCaster F)
    (file : Except PyErr (Json F)) : NtripCaster F :=
  { server with file := file }

/-- `config_changed`, and the recorded time behind it. -/
def configChanged (cfgMtime : Option ℚ) (mtime : ℚ) : Bool × Option ℚ :=
  match cfgMtime with
  | none => (false, some mtime)
  | some recorded => (recorded < mtime, some recorded)

namespace ConfigWatch

variable {F : Type}

def start (file : Except PyErr (Json F)) (mtime : ℚ) : ConfigWatch F :=
  ⟨file, mtime, .starting⟩

/-! ## Steps -/

/-- A write, `load_config` of the start, the constructor, a look of the
watcher, a signal, and the two moments of a reload. -/
inductive Event (F : Type) where
  | write (content : Except PyErr (Json F)) (mtime : ℚ)
  | load
  | construct
  | watch
  | hangup
  | reloadReads
  | reloadRecords

def Event.isWrite : Event F → Bool
  | .write _ _ => true
  | _ => false

variable [PyFloat F]

/-- `main` behind `load_config`: what raises ends the process. -/
def constructed (environ : Env) (path : String) (w : ConfigWatch F)
    (content : Except PyErr (Json F)) (cfg : CasterCfg F) : WatchPhase F :=
  match configureLoggingEx cfg.logging >>= fun _ =>
      NtripCaster.init environ cfg (some path) w.file with
  | .ok server => .running server content (some w.mtime) false
  | .error _ => .stopped

/-- `reload_from_disk` up to the time: a file that does not load leaves the
server alone, and an exception of an assignment ends the reload in front of
the time. -/
def reloadBegun (w : ConfigWatch F) (server : NtripCaster F)
    (content : Except PyErr (Json F)) (cfgMtime : Option ℚ) :
    WatchPhase F :=
  match w.file >>= NtripCaster.checkedConfig server.environ with
  | .error _ => .running server content cfgMtime false
  | .ok cfg =>
      let reloaded := (server.withFile w.file).reloadFromDisk
      if (NtripCaster.assignAll cfg (server.withFile w.file)).isOk then
        .reloading reloaded w.file cfgMtime
      else
        .running reloaded w.file cfgMtime false

def step (environ : Env) (path : String) (w : ConfigWatch F) :
    Event F → Option (ConfigWatch F)
  | .write content mtime =>
      if w.mtime < mtime then some ⟨content, mtime, w.phase⟩ else none
  | .load =>
      match w.phase with
      | .starting =>
          match w.file >>= NtripCaster.checkedConfig environ with
          | .ok cfg => some { w with phase := .loaded w.file cfg }
          | .error _ => some { w with phase := .stopped }
      | _ => none
  | .construct =>
      match w.phase with
      | .loaded content cfg =>
          some { w with phase := w.constructed environ path content cfg }
      | _ => none
  | .watch =>
      match w.phase with
      | .running server content cfgMtime reload =>
          let (changed, cfgMtime) := configChanged cfgMtime w.mtime
          some { w with
            phase := .running server content cfgMtime (reload || changed) }
      | _ => none
  | .hangup =>
      match w.phase with
      | .running server content cfgMtime _ =>
          some { w with phase := .running server content cfgMtime true }
      | _ => none
  | .reloadReads =>
      match w.phase with
      | .running server content cfgMtime true =>
          some { w with phase := w.reloadBegun server content cfgMtime }
      | _ => none
  | .reloadRecords =>
      match w.phase with
      | .reloading server content _ =>
          some { w with phase := .running server content (some w.mtime) false }
      | _ => none

/-! ## What a step can do -/

/-- A write from outside; the load and the construction of the start; a look of
the watcher and a signal, of a running server; and the two moments of a
reload. -/
inductive Happens (environ : Env) (path : String) (w : ConfigWatch F) :
    Event F → ConfigWatch F → Prop
  | writes {content : Except PyErr (Json F)} {mtime : ℚ}
      (hlater : w.mtime < mtime) :
      Happens environ path w (.write content mtime) ⟨content, mtime, w.phase⟩
  | loads {cfg : CasterCfg F} (hphase : w.phase = .starting)
      (hcfg : w.file >>= NtripCaster.checkedConfig environ = .ok cfg) :
      Happens environ path w .load { w with phase := .loaded w.file cfg }
  | stops (hphase : w.phase = .starting) :
      Happens environ path w .load { w with phase := .stopped }
  | constructs {content : Except PyErr (Json F)} {cfg : CasterCfg F}
      (hphase : w.phase = .loaded content cfg) :
      Happens environ path w .construct
        { w with phase := w.constructed environ path content cfg }
  | looks {server : NtripCaster F} {content : Except PyErr (Json F)}
      {cfgMtime : Option ℚ} {reload : Bool}
      (hphase : w.phase = .running server content cfgMtime reload) :
      Happens environ path w .watch
        { w with
          phase := .running server content (configChanged cfgMtime w.mtime).2
            (reload || (configChanged cfgMtime w.mtime).1) }
  | hangs {server : NtripCaster F} {content : Except PyErr (Json F)}
      {cfgMtime : Option ℚ} {reload : Bool}
      (hphase : w.phase = .running server content cfgMtime reload) :
      Happens environ path w .hangup
        { w with phase := .running server content cfgMtime true }
  | reads {server : NtripCaster F} {content : Except PyErr (Json F)}
      {cfgMtime : Option ℚ}
      (hphase : w.phase = .running server content cfgMtime true) :
      Happens environ path w .reloadReads
        { w with phase := w.reloadBegun server content cfgMtime }
  | records {server : NtripCaster F} {content : Except PyErr (Json F)}
      {cfgMtime : Option ℚ}
      (hphase : w.phase = .reloading server content cfgMtime) :
      Happens environ path w .reloadRecords
        { w with phase := .running server content (some w.mtime) false }

theorem step_happens {environ : Env} {path : String} {w w' : ConfigWatch F}
    {event : Event F} (hstep : w.step environ path event = some w') :
    w.Happens environ path event w' := by
  unfold step at hstep
  cases event with
  | write content mtime =>
      dsimp only at hstep
      split_ifs at hstep with hlater
      obtain rfl := Option.some.inj hstep
      exact .writes hlater
  | load =>
      dsimp only at hstep
      split at hstep
      · next hphase =>
          split at hstep
          · next cfg hcfg =>
              obtain rfl := Option.some.inj hstep
              exact .loads hphase hcfg
          · obtain rfl := Option.some.inj hstep
            exact .stops hphase
      · cases hstep
  | construct =>
      dsimp only at hstep
      split at hstep
      · next content cfg hphase =>
          obtain rfl := Option.some.inj hstep
          exact .constructs hphase
      · cases hstep
  | watch =>
      dsimp only at hstep
      split at hstep
      · next hphase =>
          obtain rfl := Option.some.inj hstep
          exact .looks hphase
      · cases hstep
  | hangup =>
      dsimp only at hstep
      split at hstep
      · next hphase =>
          obtain rfl := Option.some.inj hstep
          exact .hangs hphase
      · cases hstep
  | reloadReads =>
      dsimp only at hstep
      split at hstep
      · next hphase =>
          obtain rfl := Option.some.inj hstep
          exact .reads hphase
      · cases hstep
  | reloadRecords =>
      dsimp only at hstep
      split at hstep
      · next hphase =>
          obtain rfl := Option.some.inj hstep
          exact .records hphase
      · cases hstep

/-! ## What is in force -/

/-- The server has taken over what the content loads to. -/
structure Serves (environ : Env) (path : String) (server : NtripCaster F)
    (content : Except PyErr (Json F)) : Prop where
  cfg : content >>= NtripCaster.checkedConfig environ =
    .ok server.caster.cfg
  environ : server.environ = environ
  path : server.cfgPath = some path

omit [PyFloat F] in
/-- No write falls between a load and the record of its time. -/
def OutsideWindow (w : ConfigWatch F) (event : Event F) : Prop :=
  event.isWrite = true →
    (∀ content cfg, w.phase ≠ .loaded content cfg) ∧
      ∀ server content cfgMtime, w.phase ≠ .reloading server content cfgMtime

/-- The invariant of a run without writes in the window, for a file with this
content and time. -/
inductive Tracks (environ : Env) (path : String)
    (file : Except PyErr (Json F)) (mtime : ℚ) : WatchPhase F → Prop
  | starting : Tracks environ path file mtime .starting
  | loaded {cfg : CasterCfg F}
      (hcfg : file >>= NtripCaster.checkedConfig environ = .ok cfg) :
      Tracks environ path file mtime (.loaded file cfg)
  | running {server : NtripCaster F} {content : Except PyErr (Json F)}
      {recorded : ℚ} {reload : Bool}
      (hserves : Serves environ path server content)
      (hle : recorded ≤ mtime)
      (hcurrent : recorded = mtime → content = file) :
      Tracks environ path file mtime
        (.running server content (some recorded) reload)
  | reloading {server : NtripCaster F} {recorded : ℚ}
      (hserves : Serves environ path server file)
      (hle : recorded ≤ mtime) :
      Tracks environ path file mtime (.reloading server file (some recorded))
  | stopped : Tracks environ path file mtime .stopped

variable {environ : Env} {path : String}

theorem serves_reloaded {server : NtripCaster F}
    {file : Except PyErr (Json F)} {cfg : CasterCfg F}
    (henviron : server.environ = environ)
    (hpath : server.cfgPath = some path)
    (hcfg : file >>= NtripCaster.checkedConfig environ = .ok cfg) :
    Serves environ path (server.withFile file).reloadFromDisk file := by
  let edited := server.withFile file
  have hloaded : edited.file >>= NtripCaster.checkedConfig edited.environ =
      .ok cfg := by
    rw [← henviron] at hcfg
    exact hcfg
  have hsettings : edited.reloadFromDisk.setting =
      assignInOrder (derived edited.environ cfg) (reloadOrder cfg)
        edited.setting := by
    have hpath' : edited.cfgPath = some path := hpath
    rw [← NtripCaster.setting_reloadSteps]
    unfold NtripCaster.reloadFromDisk
    rw [hpath', hloaded]
  have hmem : Setting.cfg ∈
      assigned (derived edited.environ cfg) (reloadOrder cfg) := by
    have hfirst : ∃ rest, reloadOrder cfg = .cfg :: rest := by
      unfold reloadOrder
      split_ifs
      · exact ⟨securityOrder, rfl⟩
      · exact ⟨[], rfl⟩
    rcases hfirst with ⟨rest, hrest⟩
    have hvalue : derived edited.environ cfg .cfg = .ok cfg := rfl
    rw [hrest, assigned_cons_ok hvalue]
    exact List.mem_cons_self
  have hnew : derived edited.environ cfg .cfg =
      .ok (edited.reloadFromDisk.setting .cfg) := by
    rw [hsettings]
    exact assignInOrder_of_mem (NtripCaster.reloadOrder_nodup cfg) _ hmem
  have hsame := edited.reloadFromDisk_reloaded.1.settings
  constructor
  · rw [hcfg]
    exact hnew
  · exact hsame.environ.trans henviron
  · exact hsame.cfgPath.trans hpath

/-! ## One step -/

theorem constructed_tracks {w : ConfigWatch F} {cfg : CasterCfg F}
    (hcfg : w.file >>= NtripCaster.checkedConfig environ = .ok cfg) :
    Tracks environ path w.file w.mtime
      (w.constructed environ path w.file cfg) := by
  unfold constructed
  cases hinit : configureLoggingEx cfg.logging >>= fun _ =>
      NtripCaster.init environ cfg (some path) w.file with
  | error e => exact .stopped
  | ok server =>
      rcases bind_eq_ok.mp hinit with ⟨_, _, hserver⟩
      rcases NtripCaster.init_started hserver with
        ⟨hstarted, henviron, hpath, _⟩
      apply Tracks.running
      · constructor
        · rw [hstarted.cfg]
          exact hcfg
        · exact henviron
        · exact hpath
      · exact le_rfl
      · intro _
        rfl

theorem reloadBegun_tracks {w : ConfigWatch F} {server : NtripCaster F}
    {content : Except PyErr (Json F)} {recorded : ℚ}
    (hserves : Serves environ path server content)
    (hle : recorded ≤ w.mtime)
    (hcurrent : recorded = w.mtime → content = w.file) :
    Tracks environ path w.file w.mtime
      (w.reloadBegun server content (some recorded)) := by
  unfold reloadBegun
  rw [hserves.environ]
  cases hcfg : w.file >>= NtripCaster.checkedConfig environ with
  | error e => exact .running hserves hle hcurrent
  | ok cfg =>
      have hnew := serves_reloaded hserves.environ hserves.path hcfg
      dsimp only
      split_ifs
      · exact .reloading hnew hle
      · apply Tracks.running hnew hle
        intro _
        rfl

theorem step_tracks {w w' : ConfigWatch F} {event : Event F}
    (htracks : Tracks environ path w.file w.mtime w.phase)
    (houtside : w.OutsideWindow event)
    (hstep : w.step environ path event = some w') :
    Tracks environ path w'.file w'.mtime w'.phase := by
  cases step_happens hstep with
  | writes hlater =>
      rcases houtside rfl with ⟨hloaded, hreloading⟩
      dsimp only
      generalize hphase : w.phase = phase at htracks
      cases htracks with
      | starting => exact .starting
      | loaded hcfg => exact (hloaded _ _ hphase).elim
      | running hserves hle hcurrent =>
          apply Tracks.running hserves
          · exact hle.trans hlater.le
          · intro heq
            exact absurd (heq ▸ hle) (not_le.mpr hlater)
      | reloading hserves hle => exact (hreloading _ _ _ hphase).elim
      | stopped => exact .stopped
  | loads _ hcfg => exact .loaded hcfg
  | stops _ => exact .stopped
  | constructs hphase =>
      rw [hphase] at htracks
      cases htracks with
      | loaded hcfg => exact constructed_tracks hcfg
  | looks hphase =>
      rw [hphase] at htracks
      cases htracks with
      | running hserves hle hcurrent => exact .running hserves hle hcurrent
  | hangs hphase =>
      rw [hphase] at htracks
      cases htracks with
      | running hserves hle hcurrent => exact .running hserves hle hcurrent
  | reads hphase =>
      rw [hphase] at htracks
      cases htracks with
      | running hserves hle hcurrent =>
          exact reloadBegun_tracks hserves hle hcurrent
  | records hphase =>
      rw [hphase] at htracks
      cases htracks with
      | reloading hserves hle =>
          apply Tracks.running hserves le_rfl
          intro _
          rfl

/-- The content of the file is loaded, or a reload is asked for. -/
inductive Pending (file : Except PyErr (Json F)) : WatchPhase F → Prop
  | asked {server : NtripCaster F} {content : Except PyErr (Json F)}
      {cfgMtime : Option ℚ} :
      Pending file (.running server content cfgMtime true)
  | current {server : NtripCaster F} {cfgMtime : Option ℚ} {reload : Bool} :
      Pending file (.running server file cfgMtime reload)
  | reloading {server : NtripCaster F} {cfgMtime : Option ℚ} :
      Pending file (.reloading server file cfgMtime)

theorem step_file {w w' : ConfigWatch F} {event : Event F}
    (hquiet : event.isWrite = false)
    (hstep : w.step environ path event = some w') : w'.file = w.file := by
  cases step_happens hstep with
  | writes _ => cases hquiet
  | loads _ _ | stops _ | constructs _ | looks _ | hangs _ | reads _
  | records _ => rfl

omit [PyFloat F] in
theorem outsideWindow_of_quiet {w : ConfigWatch F} {event : Event F}
    (hquiet : event.isWrite = false) : w.OutsideWindow event := by
  intro hwrite
  rw [hquiet] at hwrite
  cases hwrite

/-- The configuration of the file is in force. -/
def InForce (w : ConfigWatch F) (cfg : CasterCfg F) : Prop :=
  match w.phase with
  | .running server content _ _ | .reloading server content _ =>
      content = w.file ∧ server.caster.cfg = cfg
  | _ => False

theorem reloadBegun_eq {w : ConfigWatch F} {server : NtripCaster F}
    {cfg : CasterCfg F} (henviron : server.environ = environ)
    (hcfg : w.file >>= NtripCaster.checkedConfig environ = .ok cfg)
    (content : Except PyErr (Json F)) (cfgMtime : Option ℚ) :
    w.reloadBegun server content cfgMtime =
      if (NtripCaster.assignAll cfg (server.withFile w.file)).isOk then
        .reloading (server.withFile w.file).reloadFromDisk w.file cfgMtime
      else
        .running (server.withFile w.file).reloadFromDisk w.file cfgMtime
          false := by
  unfold reloadBegun
  rw [henviron, hcfg]

theorem cfg_reloaded {server : NtripCaster F}
    {content file : Except PyErr (Json F)} {cfg : CasterCfg F}
    (hserves : Serves environ path server content)
    (hcfg : file >>= NtripCaster.checkedConfig environ = .ok cfg) :
    (server.withFile file).reloadFromDisk.caster.cfg = cfg := by
  have hnew := (serves_reloaded hserves.environ hserves.path hcfg).cfg
  rw [hcfg] at hnew
  exact (Except.ok.inj hnew).symm

theorem reloadBegun_inForce {w : ConfigWatch F} {server : NtripCaster F}
    {content : Except PyErr (Json F)} {cfg : CasterCfg F}
    (hserves : Serves environ path server content)
    (hcfg : w.file >>= NtripCaster.checkedConfig environ = .ok cfg)
    (cfgMtime : Option ℚ) :
    ({ w with phase := w.reloadBegun server content cfgMtime } :
      ConfigWatch F).InForce cfg := by
  have htaken := cfg_reloaded hserves hcfg
  unfold InForce
  dsimp only
  rw [reloadBegun_eq hserves.environ hcfg]
  split_ifs
  · exact ⟨rfl, htaken⟩
  · exact ⟨rfl, htaken⟩

theorem reloadReads_inForce {w w' : ConfigWatch F} {cfg : CasterCfg F}
    (htracks : Tracks environ path w.file w.mtime w.phase)
    (hcfg : w.file >>= NtripCaster.checkedConfig environ = .ok cfg)
    (hstep : w.step environ path .reloadReads = some w') :
    w'.InForce cfg := by
  cases step_happens hstep with
  | reads hphase =>
      rw [hphase] at htracks
      cases htracks with
      | running hserves _ _ => exact reloadBegun_inForce hserves hcfg _

/-- What is in force stays in force while nobody writes. -/
theorem step_inForce {w w' : ConfigWatch F} {event : Event F}
    {cfg : CasterCfg F}
    (htracks : Tracks environ path w.file w.mtime w.phase)
    (hcfg : w.file >>= NtripCaster.checkedConfig environ = .ok cfg)
    (hforce : w.InForce cfg) (hquiet : event.isWrite = false)
    (hstep : w.step environ path event = some w') : w'.InForce cfg := by
  cases step_happens hstep with
  | writes _ => cases hquiet
  | loads hphase _ | stops hphase | constructs hphase =>
      unfold InForce at hforce
      rw [hphase] at hforce
      exact hforce.elim
  | looks hphase | hangs hphase | records hphase =>
      unfold InForce at hforce
      rw [hphase] at hforce
      exact hforce
  | reads _ => exact reloadReads_inForce htracks hcfg hstep

/-- A run without an end in which nobody writes, the watcher looks again and
again, and a reload that is asked for is begun. -/
structure FairRun (environ : Env) (path : String) (w : ConfigWatch F)
    (states : ℕ → ConfigWatch F) (events : ℕ → Event F) : Prop where
  start : states 0 = w
  step : ∀ n, (states n).step environ path (events n) = some (states (n + 1))
  quiet : ∀ n, (events n).isWrite = false
  watches : ∀ n, ∃ k ≥ n, events k = .watch
  reloads : ∀ n server content cfgMtime,
    (states n).phase = .running server content cfgMtime true →
      ∃ k ≥ n, events k = .reloadReads

namespace FairRun

variable {w : ConfigWatch F} {states : ℕ → ConfigWatch F}
  {events : ℕ → Event F} {cfg : CasterCfg F}

theorem tracks (hfair : FairRun environ path w states events)
    (htracks : Tracks environ path w.file w.mtime w.phase) (n : ℕ) :
    (states n).file = w.file ∧
      Tracks environ path (states n).file (states n).mtime
        (states n).phase := by
  induction n with
  | zero =>
      rw [hfair.start]
      exact ⟨rfl, htracks⟩
  | succ n ih =>
      have hquiet := hfair.quiet n
      exact ⟨(step_file hquiet (hfair.step n)).trans ih.1,
        step_tracks ih.2 (outsideWindow_of_quiet hquiet) (hfair.step n)⟩

theorem stays (hfair : FairRun environ path w states events)
    (htracks : Tracks environ path w.file w.mtime w.phase)
    (hcfg : w.file >>= NtripCaster.checkedConfig environ = .ok cfg) {n : ℕ}
    (hforce : (states n).InForce cfg) {k : ℕ} (hk : n ≤ k) :
    (states k).InForce cfg := by
  induction k, hk using Nat.le_induction with
  | base => exact hforce
  | succ k _ ih =>
      obtain ⟨hfile, htracks'⟩ := hfair.tracks htracks k
      exact step_inForce htracks' (hfile ▸ hcfg) ih (hfair.quiet k)
        (hfair.step k)

end FairRun

end ConfigWatch

/-! ## A write behind the load -/

namespace ConfigWatch

end ConfigWatch

end BabilCors
