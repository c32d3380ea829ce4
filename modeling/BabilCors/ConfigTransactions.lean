import BabilCors.AdminEffects
import BabilCors.TransitionRuns

/-!
# Concurrent updates of the configuration

Several requests run `_admin_update_config` at once, and any step of one may
come between any two of another, as may reloads.  The lock makes the steps
between reading and replacing the file one transaction: what is in the file is
what the committed requests give when each runs at once, one after another.
-/

namespace BabilCors

open Py TransitionRuns

/-- An updater works on the loaded document in place: what it has made of it,
and the exception it stopped with. -/
abbrev InPlace (F : Type) := Json F → Json F × Option PyErr

section Updaters

variable {F : Type}

def InPlace.updater (f : InPlace F) : Updater F := fun raw =>
  match f raw with
  | (raw, none) => .ok raw
  | (_, some e) => .error e

/-- An updater that finds its errors before it changes anything. -/
def InPlace.ofUpdater (f : Updater F) : InPlace F := fun raw =>
  match f raw with
  | .ok raw' => (raw', none)
  | .error e => (raw, some e)

theorem InPlace.updater_ofUpdater (f : Updater F) :
    (InPlace.ofUpdater f).updater = f := by
  funext raw
  unfold updater ofUpdater
  cases f raw with
  | ok raw' => rfl
  | error e => rfl

end Updaters

/-- Where a request stands in `_admin_update_config`: in front of the lock,
behind it, with the loaded document, with one that its updater has stopped
changing or has changed, with the temporary file, with that file checked,
behind the replacement, and at the end. -/
inductive UpdatePhase (F : Type) where
  | waiting
  | locked
  | loaded (raw : Json F)
  | stopped (raw : Json F) (e : PyErr)
  | updated (raw : Json F)
  | written (tmp : Json F)
  | validated (tmp : Json F)
  | replaced
  | returned (result : Except PyErr (Bool × String))

namespace UpdatePhase

variable {F : Type}

def inSection : UpdatePhase F → Bool
  | .waiting | .returned _ => false
  | _ => true

def committed : UpdatePhase F → Bool
  | .replaced | .returned (.ok (true, _)) => true
  | _ => false

def working (phase : UpdatePhase F) : Bool :=
  phase.inSection && !phase.committed

theorem inSection_of_working {phase : UpdatePhase F}
    (hworking : phase.working = true) : phase.inSection = true :=
  (Bool.and_eq_true_iff.mp hworking).1

theorem not_committed_of_working {phase : UpdatePhase F}
    (hworking : phase.working = true) : phase.committed = false := by
  simpa using (Bool.and_eq_true_iff.mp hworking).2

end UpdatePhase

/-- The server with its update requests and their lock. -/
structure ConfigUpdates (F : Type) where
  server : NtripCaster F
  adminLock : Option ℕ
  phase : ℕ → UpdatePhase F

namespace ConfigUpdates

variable {F : Type}

def start (server : NtripCaster F) : ConfigUpdates F :=
  ⟨server, none, fun _ => .waiting⟩

def goTo (s : ConfigUpdates F) (i : ℕ) (phase : UpdatePhase F) :
    ConfigUpdates F :=
  { s with phase := Function.update s.phase i phase }

def finish (s : ConfigUpdates F) (i : ℕ)
    (result : Except PyErr (Bool × String)) : ConfigUpdates F :=
  { s.goTo i (.returned result) with adminLock := none }

def failed : PyErr → Except PyErr (Bool × String)
  | .permissionError text => .error (.permissionError text)
  | e => .ok (false, e.message)

/-- Go on with a result; an exception ends the request. -/
def attempt {α : Type} (s : ConfigUpdates F) (i : ℕ) (result : Except PyErr α)
    (next : α → ConfigUpdates F) : ConfigUpdates F :=
  match result with
  | .ok a => next a
  | .error e => s.finish i (failed e)

def onDisk {α : Type} (diskError : Option PyErr) (result : Except PyErr α) :
    Except PyErr α :=
  match diskError with
  | some e => .error e
  | none => result

variable [PyFloat F]

/-- `reload_from_disk`, when the file can be opened or not. -/
def reload (server : NtripCaster F) (diskError : Option PyErr) :
    NtripCaster F :=
  match diskError with
  | some _ => server
  | none => server.reloadFromDisk

/-- The next step of a request; `none` while it waits for the lock and after
its end. -/
def advance (requests : ℕ → InPlace F) (s : ConfigUpdates F) (i : ℕ)
    (diskError : Option PyErr) : Option (ConfigUpdates F) :=
  match s.phase i with
  | .waiting =>
      if s.server.cfgPath.isNone then
        some (s.goTo i (.returned (.ok (false, "config_path_missing"))))
      else if s.adminLock.isSome then none
      else some { s.goTo i .locked with adminLock := some i }
  | .locked =>
      some (s.attempt i (onDisk diskError s.server.file) fun raw =>
        s.goTo i (.loaded raw))
  | .loaded raw =>
      match requests i raw with
      | (raw, none) => some (s.goTo i (.updated raw))
      | (raw, some e) => some (s.goTo i (.stopped raw e))
  | .stopped _ e => some (s.finish i (failed e))
  | .updated raw =>
      some (s.attempt i (onDisk diskError (.ok ())) fun _ =>
        s.goTo i (.written raw))
  | .written tmp =>
      some (s.attempt i
        (onDisk diskError
          (NtripCaster.checkedConfig s.server.environ tmp)) fun _ =>
          s.goTo i (.validated tmp))
  | .validated tmp =>
      some (s.attempt i (onDisk diskError (.ok ())) fun _ =>
        { s.goTo i .replaced with
          server := { s.server with file := .ok tmp } })
  | .replaced =>
      some { s.finish i (.ok (true, "ok")) with
        server := reload s.server diskError }
  | .returned _ => none

inductive Event where
  | advance (i : ℕ) (diskError : Option PyErr)
  | reload (diskError : Option PyErr)

def step (requests : ℕ → InPlace F) (s : ConfigUpdates F) :
    Event → Option (ConfigUpdates F)
  | .advance i diskError => s.advance requests i diskError
  | .reload diskError => some { s with server := reload s.server diskError }

/-! ## What one step does -/

/-- What a request relies on between its steps. -/
def PhaseHolds (requests : ℕ → InPlace F) (server : NtripCaster F) (i : ℕ) :
    UpdatePhase F → Prop
  | .loaded raw => server.file = .ok raw
  | .updated raw' | .written raw' =>
      ∃ raw, server.file = .ok raw ∧ (requests i).updater raw = .ok raw'
  | .validated raw' =>
      (∃ raw, server.file = .ok raw ∧ (requests i).updater raw = .ok raw') ∧
        ∃ cfg, NtripCaster.checkedConfig server.environ raw' = .ok cfg
  | _ => True

theorem onDisk_eq_ok {α : Type} {diskError : Option PyErr}
    {result : Except PyErr α} {a : α}
    (hok : onDisk diskError result = .ok a) : result = .ok a := by
  cases diskError with
  | none => exact hok
  | some e => cases hok

/-- The steps of the lock, of a request behind it, and of a reload. -/
inductive StepOutcome (requests : ℕ → InPlace F) (s s' : ConfigUpdates F) :
    Event → Prop
  | refuses (i : ℕ) (d : Option PyErr) (hphase : s.phase i = .waiting)
      (hs' : s' =
        s.goTo i (.returned (.ok (false, "config_path_missing")))) :
      StepOutcome requests s s' (.advance i d)
  | enters (i : ℕ) (d : Option PyErr) (hphase : s.phase i = .waiting)
      (hfree : s.adminLock = none)
      (hs' : s' = { s.goTo i .locked with adminLock := some i }) :
      StepOutcome requests s s' (.advance i d)
  | moves (i : ℕ) (d : Option PyErr) (next : UpdatePhase F)
      (hworking : (s.phase i).working = true)
      (hworking' : next.working = true)
      (hholds : PhaseHolds requests s.server i (s.phase i) →
        PhaseHolds requests s.server i next)
      (hs' : s' = s.goTo i next) : StepOutcome requests s s' (.advance i d)
  | fails (i : ℕ) (d : Option PyErr) (e : PyErr)
      (hworking : (s.phase i).working = true)
      (hs' : s' = s.finish i (failed e)) :
      StepOutcome requests s s' (.advance i d)
  | commits (i : ℕ) (d : Option PyErr) (tmp : Json F)
      (hphase : s.phase i = .validated tmp)
      (hs' : s' = { s.goTo i .replaced with
        server := { s.server with file := .ok tmp } }) :
      StepOutcome requests s s' (.advance i d)
  | returns (i : ℕ) (d : Option PyErr) (hphase : s.phase i = .replaced)
      (hs' : s' = { s.finish i (.ok (true, "ok")) with
        server := reload s.server d }) :
      StepOutcome requests s s' (.advance i d)
  | reloads (d : Option PyErr)
      (hs' : s' = { s with server := reload s.server d }) :
      StepOutcome requests s s' (.reload d)

theorem attempt_outcome {α : Type} {requests : ℕ → InPlace F}
    {s : ConfigUpdates F} {i : ℕ} {d : Option PyErr}
    {result : Except PyErr α} {next : α → ConfigUpdates F}
    (hworking : (s.phase i).working = true)
    (hnext : ∀ a, result = .ok a →
      StepOutcome requests s (next a) (.advance i d)) :
    StepOutcome requests s (s.attempt i result next) (.advance i d) := by
  cases result with
  | ok a => exact hnext a rfl
  | error e => exact .fails i d e hworking rfl

theorem step_outcome {requests : ℕ → InPlace F} {s s' : ConfigUpdates F}
    {event : Event} (hstep : s.step requests event = some s') :
    StepOutcome requests s s' event := by
  cases event with
  | reload d => exact .reloads d (Option.some.inj hstep).symm
  | advance i d =>
      simp only [step, advance] at hstep
      cases hphase : s.phase i with
      | waiting =>
          simp only [hphase] at hstep
          split_ifs at hstep with hpath hlock
          · exact .refuses i d hphase (Option.some.inj hstep).symm
          · have hfree : s.adminLock = none := by simpa using hlock
            exact .enters i d hphase hfree (Option.some.inj hstep).symm
      | locked =>
          simp only [hphase] at hstep
          obtain rfl := Option.some.inj hstep
          have hworking : (s.phase i).working = true := by rw [hphase]; rfl
          apply attempt_outcome hworking
          intro raw hraw
          exact .moves i d (.loaded raw) hworking rfl
            (fun _ => onDisk_eq_ok hraw) rfl
      | loaded raw =>
          have hworking : (s.phase i).working = true := by rw [hphase]; rfl
          simp only [hphase] at hstep
          rcases hchanged : requests i raw with ⟨raw', _ | e⟩
          · rw [hchanged] at hstep
            refine .moves i d (.updated raw') hworking rfl ?_
              (Option.some.inj hstep).symm
            intro hloaded
            rw [hphase] at hloaded
            exact ⟨raw, hloaded, by rw [InPlace.updater, hchanged]⟩
          · rw [hchanged] at hstep
            exact .moves i d (.stopped raw' e) hworking rfl
              (fun _ => trivial) (Option.some.inj hstep).symm
      | stopped raw e =>
          have hworking : (s.phase i).working = true := by rw [hphase]; rfl
          simp only [hphase] at hstep
          exact .fails i d e hworking (Option.some.inj hstep).symm
      | updated raw =>
          simp only [hphase] at hstep
          obtain rfl := Option.some.inj hstep
          have hworking : (s.phase i).working = true := by rw [hphase]; rfl
          apply attempt_outcome hworking
          intro _ _
          refine .moves i d (.written raw) hworking rfl ?_ rfl
          intro hupdated
          rw [hphase] at hupdated
          exact hupdated
      | written tmp =>
          simp only [hphase] at hstep
          obtain rfl := Option.some.inj hstep
          have hworking : (s.phase i).working = true := by rw [hphase]; rfl
          apply attempt_outcome hworking
          intro cfg hcfg
          refine .moves i d (.validated tmp) hworking rfl ?_ rfl
          intro hwritten
          rw [hphase] at hwritten
          exact ⟨hwritten, cfg, onDisk_eq_ok hcfg⟩
      | validated tmp =>
          simp only [hphase] at hstep
          obtain rfl := Option.some.inj hstep
          have hworking : (s.phase i).working = true := by rw [hphase]; rfl
          apply attempt_outcome hworking
          intro _ _
          exact .commits i d tmp hphase rfl
      | replaced =>
          simp only [hphase] at hstep
          exact .returns i d hphase (Option.some.inj hstep).symm
      | returned result =>
          simp only [hphase] at hstep
          cases hstep

/-! ## The invariant -/

def applyRequest (requests : ℕ → InPlace F) (raw : Json F) (i : ℕ) :
    Option (Json F) :=
  ((requests i).updater raw).toOption

/-- The file holds what the committed requests give one after another. -/
def Serial (requests : ℕ → InPlace F) (original : Json F)
    (s : ConfigUpdates F) : Prop :=
  ∃ order raw, order.Nodup ∧
    (∀ i, i ∈ order ↔ (s.phase i).committed = true) ∧
    s.server.file = .ok raw ∧
    run (applyRequest requests) original order = some raw

structure Invariant (requests : ℕ → InPlace F) (original : Json F)
    (s : ConfigUpdates F) : Prop where
  exclusive : ∀ i, (s.phase i).inSection = true → s.adminLock = some i
  phases : ∀ i, PhaseHolds requests s.server i (s.phase i)
  valid : ∃ cfg, s.server.file >>=
    NtripCaster.checkedConfig s.server.environ = .ok cfg
  serial : Serial requests original s

theorem reload_keeps (server : NtripCaster F) (d : Option PyErr) :
    (reload server d).file = server.file ∧
      (reload server d).environ = server.environ := by
  cases d with
  | some e => exact ⟨rfl, rfl⟩
  | none =>
      have hsame := server.reloadFromDisk_keeps.1
      exact ⟨hsame.file, hsame.environ⟩

theorem PhaseHolds.of_same {requests : ℕ → InPlace F}
    {server server' : NtripCaster F} {i : ℕ} {phase : UpdatePhase F}
    (hfile : server'.file = server.file)
    (henviron : server'.environ = server.environ)
    (hholds : PhaseHolds requests server i phase) :
    PhaseHolds requests server' i phase := by
  unfold PhaseHolds at hholds ⊢
  rwa [hfile, henviron]

theorem PhaseHolds.of_outside {requests : ℕ → InPlace F}
    {server : NtripCaster F} {i : ℕ} {phase : UpdatePhase F}
    (houtside : phase.inSection = false) :
    PhaseHolds requests server i phase := by
  cases phase with
  | waiting | returned _ => trivial
  | locked | loaded _ | stopped _ _ | updated _ | written _ | validated _
  | replaced => cases houtside

omit [PyFloat F] in
@[simp] theorem phase_goTo (s : ConfigUpdates F) (i k : ℕ)
    (phase : UpdatePhase F) :
    (s.goTo i phase).phase k = if k = i then phase else s.phase k :=
  Function.update_apply s.phase i phase k

omit [PyFloat F] in
theorem Serial.of_same {requests : ℕ → InPlace F} {original : Json F}
    {s s' : ConfigUpdates F} (hserial : Serial requests original s)
    (hfile : s'.server.file = s.server.file)
    (hcommitted : ∀ i, (s'.phase i).committed = (s.phase i).committed) :
    Serial requests original s' := by
  rcases hserial with ⟨order, raw, hnodup, hmem, hraw, hrun⟩
  refine ⟨order, raw, hnodup, ?_, hfile.trans hraw, hrun⟩
  intro i
  rw [hcommitted]
  exact hmem i

namespace Invariant

variable {requests : ℕ → InPlace F} {original : Json F}
  {s s' : ConfigUpdates F}

/-- While one request holds the lock, no other is behind it. -/
theorem others_outside (hinv : Invariant requests original s) {i k : ℕ}
    (hi : (s.phase i).inSection = true) (hk : k ≠ i) :
    (s.phase k).inSection = false := by
  by_contra hinside
  have hlock := hinv.exclusive k (by simpa using hinside)
  rw [hinv.exclusive i hi] at hlock
  exact hk (Option.some.inj hlock).symm

theorem of_move (hinv : Invariant requests original s) {i : ℕ}
    {next : UpdatePhase F}
    (hphase : ∀ k, s'.phase k = if k = i then next else s.phase k)
    (hfile : s'.server.file = s.server.file)
    (henviron : s'.server.environ = s.server.environ)
    (hlock : ∀ k, (s'.phase k).inSection = true → s'.adminLock = some k)
    (hnext : PhaseHolds requests s.server i next)
    (hcommitted : next.committed = (s.phase i).committed) :
    Invariant requests original s' := by
  refine ⟨hlock, ?_, ?_, ?_⟩
  · intro k
    rw [hphase]
    split_ifs with hk
    · subst hk
      exact hnext.of_same hfile henviron
    · exact (hinv.phases k).of_same hfile henviron
  · rw [hfile, henviron]
    exact hinv.valid
  · apply hinv.serial.of_same hfile
    intro k
    rw [hphase]
    split_ifs with hk
    · rw [hcommitted, hk]
    · rfl

theorem lock_of_finish (hinv : Invariant requests original s) {i : ℕ}
    (hi : (s.phase i).inSection = true)
    (result : Except PyErr (Bool × String)) (k : ℕ) :
    ((s.finish i result).phase k).inSection = false := by
  change ((s.goTo i (.returned result)).phase k).inSection = false
  rw [phase_goTo]
  split_ifs with hk
  · rfl
  · exact hinv.others_outside hi hk

/-- The replacement: the file was what the request has read. -/
theorem of_commit (hinv : Invariant requests original s) {i : ℕ}
    {tmp : Json F} (hphase : s.phase i = .validated tmp) :
    Invariant requests original { s.goTo i .replaced with
      server := { s.server with file := .ok tmp } } := by
  have hsection : (s.phase i).inSection = true := by
    rw [hphase]
    rfl
  have hholds := hinv.phases i
  rw [hphase] at hholds
  rcases hholds with ⟨⟨raw, hfile, hupdated⟩, cfg, hcfg⟩
  refine ⟨?_, ?_, ⟨cfg, hcfg⟩, ?_⟩
  · intro k hk
    change ((s.goTo i .replaced).phase k).inSection = true at hk
    rw [phase_goTo] at hk
    split_ifs at hk with hki
    · subst hki
      exact hinv.exclusive k hsection
    · exact hinv.exclusive k hk
  · intro k
    change PhaseHolds requests _ k ((s.goTo i .replaced).phase k)
    rw [phase_goTo]
    split_ifs with hki
    · trivial
    · exact .of_outside (hinv.others_outside hsection hki)
  · rcases hinv.serial with ⟨order, last, hnodup, hmem, hlast, hrun⟩
    have hsame : last = raw := Except.ok.inj (hlast.symm.trans hfile)
    subst hsame
    have hnew : i ∉ order := by
      intro hi
      have hcommitted := (hmem i).mp hi
      rw [hphase] at hcommitted
      cases hcommitted
    have hstep : applyRequest requests last i = some tmp := by
      rw [applyRequest, hupdated]
      rfl
    refine ⟨order ++ [i], tmp, ?_, ?_, rfl, run_concat hrun hstep⟩
    · exact hnodup.append (List.nodup_singleton i) (by simpa using hnew)
    · intro k
      change k ∈ order ++ [i] ↔
        ((s.goTo i .replaced).phase k).committed = true
      rw [phase_goTo, List.mem_append, List.mem_singleton, hmem]
      split_ifs with hki
      · simp [hki, UpdatePhase.committed]
      · simp [hki]

theorem step (hinv : Invariant requests original s) {event : Event}
    (hstep : s.step requests event = some s') :
    Invariant requests original s' := by
  cases step_outcome hstep with
  | refuses i d hphase hs' =>
      subst hs'
      refine hinv.of_move (s.phase_goTo i · _) rfl rfl ?_ trivial ?_
      · intro k hk
        rw [phase_goTo] at hk
        split_ifs at hk
        · cases hk
        · exact hinv.exclusive k hk
      · rw [hphase]
        rfl
  | enters i d hphase hfree hs' =>
      subst hs'
      refine hinv.of_move (s.phase_goTo i · _) rfl rfl ?_ trivial ?_
      · intro k hk
        change ((s.goTo i .locked).phase k).inSection = true at hk
        rw [phase_goTo] at hk
        split_ifs at hk with hki
        · rw [hki]
        · have hlock := hinv.exclusive k hk
          rw [hfree] at hlock
          cases hlock
      · rw [hphase]
        rfl
  | moves i d next hworking hworking' hholds hs' =>
      subst hs'
      have hsection := UpdatePhase.inSection_of_working hworking
      refine hinv.of_move (s.phase_goTo i · _) rfl rfl ?_
        (hholds (hinv.phases i)) ?_
      · intro k hk
        rw [phase_goTo] at hk
        split_ifs at hk with hki
        · subst hki
          exact hinv.exclusive k hsection
        · exact hinv.exclusive k hk
      · rw [UpdatePhase.not_committed_of_working hworking,
          UpdatePhase.not_committed_of_working hworking']
  | fails i d e hworking hs' =>
      subst hs'
      have hsection := UpdatePhase.inSection_of_working hworking
      refine hinv.of_move (s.phase_goTo i · _) rfl rfl ?_ trivial ?_
      · intro k hk
        rw [hinv.lock_of_finish hsection] at hk
        cases hk
      · rw [UpdatePhase.not_committed_of_working hworking]
        cases e <;> rfl
  | commits i d tmp hphase hs' =>
      subst hs'
      exact hinv.of_commit hphase
  | returns i d hphase hs' =>
      subst hs'
      have hsection : (s.phase i).inSection = true := by
        rw [hphase]
        rfl
      rcases reload_keeps s.server d with ⟨hfile, henviron⟩
      refine hinv.of_move (s.phase_goTo i · _) hfile henviron ?_ trivial ?_
      · intro k hk
        have hout := hinv.lock_of_finish hsection (.ok (true, "ok")) k
        rw [hout] at hk
        cases hk
      · rw [hphase]
        rfl
  | reloads d hs' =>
      subst hs'
      rcases reload_keeps s.server d with ⟨hfile, henviron⟩
      refine ⟨hinv.exclusive, ?_, ?_, hinv.serial.of_same hfile fun _ => rfl⟩
      · intro k
        exact (hinv.phases k).of_same hfile henviron
      · change ∃ cfg, (reload s.server d).file >>=
          NtripCaster.checkedConfig (reload s.server d).environ = .ok cfg
        rw [hfile, henviron]
        exact hinv.valid

end Invariant

theorem invariant_start (requests : ℕ → InPlace F) {server : NtripCaster F}
    {original : Json F} {cfg : CasterCfg F} (hfile : server.file = .ok original)
    (hcfg : NtripCaster.checkedConfig server.environ original = .ok cfg) :
    Invariant requests original (start server) := by
  refine ⟨?_, ?_, ⟨cfg, ?_⟩, ⟨[], original, List.nodup_nil, ?_, hfile, rfl⟩⟩
  · intro i hi
    cases hi
  · intro i
    trivial
  · change server.file >>= _ = _
    rw [hfile]
    exact hcfg
  · intro i
    simp [start, UpdatePhase.committed]

/-! ## Requests that fail -/

theorem committed_step {requests : ℕ → InPlace F} {s s' : ConfigUpdates F}
    {event : Event} {i : ℕ} (hcommitted : (s.phase i).committed = true)
    (hstep : s.step requests event = some s') :
    (s'.phase i).committed = true := by
  have hother {k : ℕ} {next : UpdatePhase F}
      (hk : (s.phase k).committed = false ∨ next.committed = true) :
      ((s.goTo k next).phase i).committed = true := by
    rw [phase_goTo]
    split_ifs with hik
    · subst hik
      rw [hcommitted] at hk
      simpa using hk
    · exact hcommitted
  cases step_outcome hstep with
  | refuses k d hphase hs' =>
      subst hs'
      exact hother (.inl (by rw [hphase]; rfl))
  | enters k d hphase hfree hs' =>
      subst hs'
      exact hother (.inl (by rw [hphase]; rfl))
  | moves k d next hworking hworking' hholds hs' =>
      subst hs'
      exact hother (.inl (UpdatePhase.not_committed_of_working hworking))
  | fails k d e hworking hs' =>
      subst hs'
      exact hother (.inl (UpdatePhase.not_committed_of_working hworking))
  | commits k d tmp hphase hs' =>
      subst hs'
      exact hother (.inr rfl)
  | returns k d hphase hs' =>
      subst hs'
      exact hother (.inr rfl)
  | reloads d hs' =>
      subst hs'
      exact hcommitted

theorem server_step {requests : ℕ → InPlace F} {s s' : ConfigUpdates F}
    {i : ℕ} {d : Option PyErr}
    (hstep : s.step requests (.advance i d) = some s') :
    s'.server = s.server ∨ (s'.phase i).committed = true := by
  cases step_outcome hstep with
  | refuses _ _ hphase hs' => exact .inl (by rw [hs']; rfl)
  | enters _ _ hphase hfree hs' => exact .inl (by rw [hs']; rfl)
  | moves _ _ next hworking hworking' hholds hs' =>
      exact .inl (by rw [hs']; rfl)
  | fails _ _ e hworking hs' => exact .inl (by rw [hs']; rfl)
  | commits _ _ tmp hphase hs' =>
      refine .inr ?_
      rw [hs']
      change ((s.goTo i .replaced).phase i).committed = true
      rw [phase_goTo, if_pos rfl]
      rfl
  | returns _ _ hphase hs' =>
      refine .inr ?_
      rw [hs']
      change ((s.goTo i (.returned (.ok (true, "ok")))).phase i).committed =
        true
      rw [phase_goTo, if_pos rfl]
      rfl

/-! ## A request that is not disturbed -/

/-- Steps of the request alone lead to its end, with this result and server. -/
def Completes (requests : ℕ → InPlace F) (s : ConfigUpdates F) (i : ℕ)
    (outcome : Except PyErr (Bool × String) × NtripCaster F) : Prop :=
  ∃ (errors : List (Option PyErr)) (final : ConfigUpdates F),
    run (step requests) s (errors.map (Event.advance i)) = some final ∧
      final.phase i = .returned outcome.1 ∧ final.server = outcome.2

def settled (server : NtripCaster F) (result : Except PyErr (Json F)) :
    Except PyErr (Bool × String) × NtripCaster F :=
  match result with
  | .ok raw => (.ok (true, "ok"),
      ({ server with file := .ok raw }).reloadFromDisk)
  | .error e => (failed e, server)

theorem updateConfig_eq_settled {server : NtripCaster F} {path : String}
    (hpath : server.cfgPath = some path) (updater : Updater F)
    (diskError : Option PyErr) :
    server.updateConfig updater diskError =
      settled server (server.committed updater diskError) := by
  unfold NtripCaster.updateConfig settled
  rw [hpath]
  cases server.committed updater diskError with
  | ok raw => rfl
  | error e => cases e <;> rfl

section Alone

variable {requests : ℕ → InPlace F} {s s' : ConfigUpdates F} {i : ℕ}
  {outcome : Except PyErr (Bool × String) × NtripCaster F}

theorem Completes.after {d : Option PyErr}
    (hstep : s.advance requests i d = some s')
    (hrest : Completes requests s' i outcome) :
    Completes requests s i outcome := by
  rcases hrest with ⟨errors, final, hrun, hend⟩
  refine ⟨d :: errors, final, ?_, hend⟩
  exact run_cons_eq_some.mpr ⟨s', hstep, hrun⟩

theorem Completes.last {d : Option PyErr}
    (hstep : s.advance requests i d = some s')
    (hphase : s'.phase i = .returned outcome.1)
    (hserver : s'.server = outcome.2) : Completes requests s i outcome :=
  .after hstep ⟨[], s', rfl, hphase, hserver⟩

theorem completes_of_fail {d : Option PyErr} {e : PyErr}
    (hstep : s.advance requests i d = some (s.finish i (failed e))) :
    Completes requests s i (settled s.server (.error e)) := by
  apply Completes.last hstep
  · simp [finish, settled]
  · rfl

theorem completes_of_validated {tmp : Json F}
    (hphase : s.phase i = .validated tmp) :
    Completes requests s i (settled s.server (.ok tmp)) := by
  let replaced : ConfigUpdates F := { s.goTo i .replaced with
    server := { s.server with file := .ok tmp } }
  have hcommit : s.advance requests i none = some replaced := by
    simp [advance, hphase, attempt, onDisk, replaced]
  have hreplaced : replaced.phase i = .replaced := by
    simp [replaced]
  have hreload : replaced.advance requests i none =
      some { replaced.finish i (.ok (true, "ok")) with
        server := replaced.server.reloadFromDisk } := by
    simp only [advance, hreplaced]
    rfl
  apply Completes.after hcommit
  apply Completes.last hreload
  · simp [finish, settled]
  · rfl

theorem completes_of_updated {raw : Json F} (diskError : Option PyErr)
    (hphase : s.phase i = .updated raw) :
    Completes requests s i (settled s.server (do
      match diskError with
      | some e => throw e
      | none =>
          let _ ← NtripCaster.checkedConfig s.server.environ raw
          return raw)) := by
  cases diskError with
  | some e =>
      apply completes_of_fail (d := some e)
      simp [advance, hphase, attempt, onDisk]
  | none =>
      have hwrite : s.advance requests i none =
          some (s.goTo i (.written raw)) := by
        simp [advance, hphase, attempt, onDisk]
      have hwritten : (s.goTo i (.written raw)).phase i = .written raw := by
        simp
      apply Completes.after hwrite
      cases hcfg : NtripCaster.checkedConfig s.server.environ raw with
      | error e =>
          apply completes_of_fail (s := s.goTo i (.written raw)) (d := none)
          simp [advance, attempt, onDisk, goTo, hcfg]
      | ok cfg =>
          have hcheck : (s.goTo i (.written raw)).advance requests i none =
              some ((s.goTo i (.written raw)).goTo i (.validated raw)) := by
            simp [advance, attempt, onDisk, goTo, hcfg]
          apply Completes.after hcheck
          apply completes_of_validated
          simp

theorem completes_of_loaded {raw : Json F} (diskError : Option PyErr)
    (hphase : s.phase i = .loaded raw) :
    Completes requests s i (settled s.server (do
      let raw ← (requests i).updater raw
      match diskError with
      | some e => throw e
      | none =>
          let _ ← NtripCaster.checkedConfig s.server.environ raw
          return raw)) := by
  unfold InPlace.updater
  rcases hchanged : requests i raw with ⟨raw', _ | e⟩
  · have hupdate : s.advance requests i none =
        some (s.goTo i (.updated raw')) := by
      simp [advance, hphase, hchanged]
    apply Completes.after hupdate
    exact completes_of_updated diskError (by simp)
  · have hstop : s.advance requests i none =
        some (s.goTo i (.stopped raw' e)) := by
      simp [advance, hphase, hchanged]
    apply Completes.after hstop
    apply completes_of_fail (s := s.goTo i (.stopped raw' e)) (d := none)
    simp [advance]

/-- With nobody else behind the lock a request does what `updateConfig`
says. -/
theorem completes_updateConfig (requests : ℕ → InPlace F)
    (hwaiting : s.phase i = .waiting) (hfree : s.adminLock = none)
    (diskError : Option PyErr) :
    Completes requests s i
      (s.server.updateConfig (requests i).updater diskError) := by
  cases hpath : s.server.cfgPath with
  | none =>
      have hrefuse : s.advance requests i none = some
          (s.goTo i (.returned (.ok (false, "config_path_missing")))) := by
        simp [advance, hwaiting, hpath]
      apply Completes.last hrefuse
      · simp [NtripCaster.updateConfig, hpath]
      · simp [NtripCaster.updateConfig, hpath, goTo]
  | some path =>
      rw [updateConfig_eq_settled hpath]
      let locked : ConfigUpdates F :=
        { s.goTo i .locked with adminLock := some i }
      have henter : s.advance requests i none = some locked := by
        simp [advance, hwaiting, hpath, hfree, locked]
      have hlocked : locked.phase i = .locked := by
        simp [locked]
      apply Completes.after henter
      unfold NtripCaster.committed
      cases hfile : s.server.file with
      | error e =>
          apply completes_of_fail (s := locked) (d := none)
          simp only [advance, hlocked]
          change some (locked.attempt i (onDisk none s.server.file) _) = _
          rw [hfile]
          rfl
      | ok raw =>
          have hload : locked.advance requests i none =
              some (locked.goTo i (.loaded raw)) := by
            simp only [advance, hlocked]
            change some (locked.attempt i (onDisk none s.server.file) _) = _
            rw [hfile]
            rfl
          apply Completes.after hload
          exact completes_of_loaded diskError (by simp)

end Alone

/-! ## The result -/

structure Serializable (requests : ℕ → InPlace F) (server : NtripCaster F)
    (original : Json F) (events : List Event) (final : ConfigUpdates F) :
    Prop where
  /-- The file loads and passes the validation. -/
  valid : ∃ cfg, final.server.file >>=
    NtripCaster.checkedConfig final.server.environ = .ok cfg
  /-- Its content is what the updaters of the requests that have replaced it
  give one after another; those are the requests that return `True`. -/
  serial : ∃ order raw, order.Nodup ∧
    (∀ i, i ∈ order ↔ final.phase i = .replaced ∨
      ∃ msg, final.phase i = .returned (.ok (true, msg))) ∧
    final.server.file = .ok raw ∧
    run (applyRequest requests) original order = some raw
  /-- No step of a request that has failed changed the file or the server. -/
  failedKept : ∀ i result, final.phase i = .returned result →
    (∀ msg, result ≠ .ok (true, msg)) →
    ∀ before d after s s', events = before ++ .advance i d :: after →
      run (step requests) (start server) before = some s →
      s.step requests (.advance i d) = some s' → s'.server = s.server

omit [PyFloat F] in
theorem committed_iff {phase : UpdatePhase F} : phase.committed = true ↔
    phase = .replaced ∨ ∃ msg, phase = .returned (.ok (true, msg)) := by
  cases phase with
  | waiting | locked | loaded _ | stopped _ _ | updated _ | written _
  | validated _ => simp [UpdatePhase.committed]
  | replaced => simp [UpdatePhase.committed]
  | returned result =>
      rcases result with e | ⟨ok, msg⟩
      · simp [UpdatePhase.committed]
      · cases ok <;> simp [UpdatePhase.committed]

theorem run_serializable {requests : ℕ → InPlace F} {server : NtripCaster F}
    {original : Json F} {cfg : CasterCfg F}
    (hfile : server.file = .ok original)
    (hcfg : NtripCaster.checkedConfig server.environ original = .ok cfg)
    {events : List Event} {final : ConfigUpdates F}
    (hrun : run (step requests) (start server) events = some final) :
    Serializable requests server original events final := by
  have hinv : Invariant requests original final :=
    run_preserves (fun _ _ _ hinv hstep => hinv.step hstep)
      (invariant_start requests hfile hcfg) hrun
  refine ⟨hinv.valid, ?_, ?_⟩
  · rcases hinv.serial with ⟨order, raw, hnodup, hmem, hraw, hserial⟩
    refine ⟨order, raw, hnodup, ?_, hraw, hserial⟩
    intro i
    rw [hmem, committed_iff]
  · intro i result hresult hfailed before d after s s' hevents hbefore hstep
    rcases server_step hstep with hsame | hcommitted
    · exact hsame
    · subst hevents
      rcases run_split hrun with ⟨t, t', ht, ht', hafter⟩
      obtain rfl := Option.some.inj (hbefore.symm.trans ht)
      obtain rfl := Option.some.inj (hstep.symm.trans ht')
      have hstill : (final.phase i).committed = true :=
        run_preserves
          (P := fun s => (s.phase i).committed = true)
          (fun _ _ _ hc hstep => committed_step hc hstep) hcommitted hafter
      rcases committed_iff.mp hstill with hreplaced | ⟨msg, hok⟩
      · rw [hreplaced] at hresult
        cases hresult
      · rw [hok] at hresult
        obtain rfl := UpdatePhase.returned.inj hresult
        exact (hfailed msg rfl).elim

def twoCreations : ℕ → InPlace ℚ := fun _ =>
  .ofUpdater (createMountpoint "MP1")

def twoCreationsRun : List Event :=
  [.advance 1 none, .advance 1 none, .reload none, .advance 1 none,
    .advance 1 none, .advance 1 none, .advance 1 none, .advance 1 none,
    .advance 0 none, .advance 0 none, .advance 0 none, .advance 0 none]

theorem run_serializable_twoCreations :
    ∃ original final,
      run (step twoCreations) (start (smallServer (.obj [])))
        twoCreationsRun = some final ∧
      Serializable twoCreations (smallServer (.obj [])) original
        twoCreationsRun final := by
  have hsome : (run (step twoCreations) (start (smallServer (.obj [])))
      twoCreationsRun).isSome := by
    decide +kernel
  have hchecked : ((smallServer (.obj [])).file >>=
      NtripCaster.checkedConfig
        (smallServer (.obj [])).environ).toOption.isSome := by
    decide +kernel
  rcases Option.isSome_iff_exists.mp hsome with ⟨final, hrun⟩
  rcases Option.isSome_iff_exists.mp hchecked with ⟨cfg, hcfg⟩
  rcases bind_eq_ok.mp (toOption_eq_some.mp hcfg) with
    ⟨original, hfile, hcfg'⟩
  exact ⟨original, final, hrun, run_serializable hfile hcfg' hrun⟩

end ConfigUpdates

end BabilCors
