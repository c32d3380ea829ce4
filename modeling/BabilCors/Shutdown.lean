import BabilCors.PyDict
import BabilCors.TaskCancellation

/-!
# The way down

What `run_server` does behind the stop signal, and `NtripCaster.close`.  The
tasks are given by the points at which their coroutines can be suspended, with
the handlers that the source has around each; a component is given in the state
in which the shutdown finds it when its turn comes.  Neither the watcher, the
reloader nor a relay catches its cancellation, and the handlers around the
`await`s of these tasks are for ordinary exceptions.  The first step of `close`
waits until every open connection has ended, and the rovers are closed behind
it.
-/

namespace BabilCors

open TaskCancellation

/-! ## The coroutines -/

inductive WatchPoint where
  | notStarted
  | sleeping
  deriving DecidableEq, Repr

inductive ReloadPoint where
  | notStarted
  | waiting
  deriving DecidableEq, Repr

inductive StatsPoint where
  | notStarted
  | sleeping
  | hubLock
  deriving DecidableEq, Repr

inductive AuditPoint where
  | notStarted
  | nextItem
  | sending
  deriving DecidableEq, Repr

inductive RelayPoint where
  | notStarted
  | nextItem
  | publishing
  deriving DecidableEq, Repr

def WatchPoint.handlers : WatchPoint → List Handler
  | .notStarted | .sleeping => []

def ReloadPoint.handlers : ReloadPoint → List Handler
  | .notStarted | .waiting => []

def StatsPoint.handlers : StatsPoint → List Handler
  | .notStarted => []
  | .sleeping | .hubLock => [.cancelled]

def AuditPoint.handlers : AuditPoint → List Handler
  | .notStarted => []
  | .nextItem => [.cancelled]
  | .sending => [.exception, .cancelled]

/-- `publish` has a handler of its own inside that of `_run`. -/
def RelayPoint.handlers : RelayPoint → List Handler
  | .notStarted | .nextItem => []
  | .publishing => [.exception, .exception]

/-! ## The components -/

/-- What the close call of a component does. -/
inductive CloseCall where
  | returns
  | raises
  /-- It waits for something that does not come. -/
  | waits
  deriving DecidableEq, Repr

def CloseCall.ending : CloseCall → Option Ending
  | .returns => some .returned
  | .raises => some (.threw .exception)
  | .waits => none

/-- What closing the queue and the writer of a rover does; neither call is
awaited. -/
inductive WriterClose where
  | returns
  | raises
  deriving DecidableEq, Repr

def WriterClose.ending : WriterClose → Ending
  | .returns => .returned
  | .raises => .threw .exception

/-- The listening server, with the connections that nobody but this side is
about to close. -/
structure Listener where
  raises : Bool
  openConnections : ℕ
  deriving DecidableEq, Repr

/-- `close` and `wait_closed`: the latter waits until no connection is
open. -/
def Listener.close (listener : Listener) : Option Ending :=
  if listener.raises then some (.threw .exception)
  else if listener.openConnections = 0 then some .returned
  else none

/-- The components at the stop signal.  Of a hub there is what closing the
queue and the writer of each of its rovers does, of a relay its task, if
`start` has run. -/
structure Components where
  watchTask : Coroutine WatchPoint
  reloadTask : Coroutine ReloadPoint
  server : Option Listener
  statsTask : Option (Coroutine StatsPoint)
  auditTask : Option (Coroutine AuditPoint)
  mountpoints : PyDict String (List WriterClose)
  iotRelays : PyDict String (Option (Coroutine RelayPoint))
  mqtt : CloseCall
  shadow : CloseCall
  jwt : CloseCall
  apiTask : Option Ending

def detachRovers (rovers : List WriterClose) : Option Ending :=
  (awaitAll (rovers.map fun call =>
    ((), some (call.ending.guarded .exception)))).2

/-- `IoTRelay.close`. -/
def closeRelay : Option (Coroutine RelayPoint) → Ending
  | none => .returned
  | some task =>
      (task.awaitCancelled RelayPoint.handlers).guarded .exception

inductive CloseStep where
  | server
  | stats
  | audit
  | hub (mountpoint : String)
  | relay (mountpoint : String)
  | mqtt
  | shadow
  | jwt
  | api
  deriving DecidableEq, Repr

namespace Components

def hubCalls (c : Components) : List (CloseStep × Option Ending) :=
  c.mountpoints.map fun entry => (.hub entry.1, detachRovers entry.2)

def relayCalls (c : Components) : List (CloseStep × Option Ending) :=
  c.iotRelays.map fun entry =>
    (.relay entry.1, some ((closeRelay entry.2).guarded .exception))

/-- The awaited calls of `close`; a component that is not there is passed
over. -/
def closeCalls (c : Components) : List (CloseStep × Option Ending) :=
  [(.server, (c.server.map Listener.close).getD (some .returned)),
    (.stats, some ((c.statsTask.map fun task =>
      (task.awaitCancelled StatsPoint.handlers).guarded .exception).getD
        .returned)),
    (.audit, some ((c.auditTask.map fun task =>
      (task.awaitCancelled AuditPoint.handlers).guarded .exception).getD
        .returned))] ++
  c.hubCalls ++ c.relayCalls ++
  [(.mqtt, c.mqtt.ending.map (·.guarded .exception)),
    (.shadow, c.shadow.ending.map (·.guarded .exception)),
    (.jwt, c.jwt.ending.map (·.guarded .exception)),
    (.api, some ((c.apiTask.map fun ending => ending.guarded .base).getD
      .returned))]

/-- `NtripCaster.close`: the steps it gets through, and how it ends, if it
does. -/
def close (c : Components) : List CloseStep × Option Ending :=
  awaitAll c.closeCalls

/-- `run_server` behind the stop signal: what `caster.close()` does, or `none`
when it is not called. -/
def runServer (c : Components) : Option (List CloseStep × Option Ending) :=
  match (awaitAll
    [("watch_task", some
      ((c.watchTask.awaitCancelled WatchPoint.handlers).guarded
        .exception)),
      ("reload_task", some
        ((c.reloadTask.awaitCancelled ReloadPoint.handlers).guarded
          .exception))]).2 with
  | some .returned => some c.close
  | _ => none

/-! ## What a complete shutdown is -/

def allSteps (c : Components) : List CloseStep :=
  [.server, .stats, .audit] ++ c.mountpoints.keys.map .hub ++
    c.iotRelays.keys.map .relay ++ [.mqtt, .shadow, .jwt, .api]

def ShutsDown (c : Components) : Prop :=
  c.runServer = some (c.allSteps, some .returned)

/-- Nothing is left that would pass its cancellation on or that a call would
wait for. -/
structure Quiet (c : Components) : Prop where
  watchTask : c.watchTask.EndedItself
  reloadTask : c.reloadTask.EndedItself
  server : ∀ listener, c.server = some listener →
    listener.raises = false ∧ listener.openConnections = 0
  statsTask : ∀ task, c.statsTask = some task →
    task.EndedItself ∨ ∃ point ≠ .notStarted, task = .suspended point
  auditTask : ∀ task, c.auditTask = some task →
    task.EndedItself ∨ ∃ point ≠ .notStarted, task = .suspended point
  iotRelays : ∀ entry ∈ c.iotRelays, ∀ task, entry.2 = some task →
    task.EndedItself
  mqtt : c.mqtt ≠ .waits
  shadow : c.shadow ≠ .waits
  jwt : c.jwt ≠ .waits

/-! ## Awaiting the cancelled tasks -/

theorem watch_handlers (point : WatchPoint) :
    (Ending.threw .cancelled).unwound point.handlers =
      .threw .cancelled := by
  cases point <;> rfl

theorem reload_handlers (point : ReloadPoint) :
    (Ending.threw .cancelled).unwound point.handlers =
      .threw .cancelled := by
  cases point <;> rfl

theorem stats_handlers (point : StatsPoint) :
    (Ending.threw .cancelled).unwound point.handlers =
      if point = .notStarted then .threw .cancelled else .returned := by
  cases point <;> rfl

theorem audit_handlers (point : AuditPoint) :
    (Ending.threw .cancelled).unwound point.handlers =
      if point = .notStarted then .threw .cancelled else .returned := by
  cases point <;> rfl

theorem relay_handlers (point : RelayPoint) :
    (Ending.threw .cancelled).unwound point.handlers =
      .threw .cancelled := by
  cases point <;> rfl

theorem closeCall_guarded_iff (call : CloseCall) :
    call.ending.map (·.guarded .exception) = some .returned ↔
      call ≠ .waits := by
  cases call <;> decide

theorem detachRovers_returned (rovers : List WriterClose) :
    detachRovers rovers = some .returned := by
  apply (awaitAll_returned_iff _).mpr
  intro call hcall
  rcases List.mem_map.mp hcall with ⟨rover, _, rfl⟩
  cases rover <;> rfl

theorem closeRelay_returned_iff (task? : Option (Coroutine RelayPoint)) :
    (closeRelay task?).guarded .exception = .returned ↔
      ∀ task, task? = some task → task.EndedItself := by
  cases task? with
  | none => simp [closeRelay, Ending.guarded]
  | some task =>
      simp [closeRelay, await_uncaught_iff relay_handlers]

/-! ## The shutdown -/

theorem closeCalls_names (c : Components) :
    c.closeCalls.map Prod.fst = c.allSteps := by
  simp [closeCalls, hubCalls, relayCalls, allSteps, PyDict.keys,
    Function.comp_def]

theorem hubs_close (c : Components) :
    ∀ call ∈ c.hubCalls, call.2 = some .returned := by
  intro call hcall
  rcases List.mem_map.mp hcall with ⟨hub, _, rfl⟩
  exact detachRovers_returned hub.2

theorem relays_close_iff (c : Components) :
    (∀ call ∈ c.relayCalls, call.2 = some .returned) ↔
      ∀ entry ∈ c.iotRelays, ∀ task, entry.2 = some task →
        task.EndedItself := by
  unfold relayCalls
  rw [List.forall_mem_map]
  exact forall₂_congr fun entry _ =>
    Option.some_inj.trans (closeRelay_returned_iff entry.2)

theorem server_closes_iff (c : Components) :
    (c.server.map Listener.close).getD (some .returned) = some .returned ↔
      ∀ listener, c.server = some listener →
        listener.raises = false ∧ listener.openConnections = 0 := by
  rcases c.server with _ | ⟨raises, connections⟩
  · simp
  · cases raises with
    | true => simp [Listener.close]
    | false => simp [Listener.close]

theorem task_closes_iff {π : Type} [DecidableEq π]
    {handlers : π → List Handler} {notStarted : π}
    (hhandlers : ∀ point,
      (Ending.threw .cancelled).unwound (handlers point) =
        if point = notStarted then .threw .cancelled else .returned)
    (task? : Option (Coroutine π)) :
    (task?.map fun task =>
        (task.awaitCancelled handlers).guarded .exception).getD .returned =
          .returned ↔
      ∀ task, task? = some task →
        task.EndedItself ∨
          ∃ point ≠ notStarted, task = .suspended point := by
  cases task? with
  | none => simp
  | some task => simpa using await_caught_iff hhandlers task

/-- `close` goes through all of its steps when the server closes and no
connection is open, neither helper task is cancelled before its first turn, no
relay has a task, and no store or client waits for ever. -/
theorem close_complete_iff (c : Components) :
    c.close = (c.allSteps, some .returned) ↔
      (∀ listener, c.server = some listener →
          listener.raises = false ∧ listener.openConnections = 0) ∧
        (∀ task, c.statsTask = some task →
          task.EndedItself ∨
            ∃ point ≠ .notStarted, task = .suspended point) ∧
        (∀ task, c.auditTask = some task →
          task.EndedItself ∨
            ∃ point ≠ .notStarted, task = .suspended point) ∧
        (∀ entry ∈ c.iotRelays, ∀ task, entry.2 = some task →
          task.EndedItself) ∧
        c.mqtt ≠ .waits ∧ c.shadow ≠ .waits ∧ c.jwt ≠ .waits := by
  have hserver := c.server_closes_iff
  have hstats := task_closes_iff stats_handlers c.statsTask
  have haudit := task_closes_iff audit_handlers c.auditTask
  have hrelays := c.relays_close_iff
  unfold close
  rw [← closeCalls_names, awaitAll_eq_iff, closeCalls]
  simp only [List.forall_mem_append, List.forall_mem_cons, hrelays,
    List.not_mem_nil, IsEmpty.forall_iff, implies_true, and_true, hserver,
    Option.some_inj, hstats, haudit, closeCall_guarded_iff]
  have hapi : (c.apiTask.map fun ending => ending.guarded .base).getD
      .returned = .returned := by
    cases c.apiTask <;> simp
  constructor
  · rintro ⟨⟨⟨⟨h₁, h₂, h₃⟩, _⟩, h₄⟩, h₅, h₆, h₇, _⟩
    exact ⟨h₁, h₂, h₃, h₄, h₅, h₆, h₇⟩
  · rintro ⟨h₁, h₂, h₃, h₄, h₅, h₆, h₇⟩
    exact ⟨⟨⟨⟨h₁, h₂, h₃⟩, c.hubs_close⟩, h₄⟩, h₅, h₆, h₇, hapi⟩

theorem runServer_eq_some_iff (c : Components)
    (result : List CloseStep × Option Ending) :
    c.runServer = some result ↔
      c.watchTask.EndedItself ∧ c.reloadTask.EndedItself ∧
        c.close = result := by
  have hwatch := await_uncaught_iff watch_handlers c.watchTask
  have hreload := await_uncaught_iff reload_handlers c.reloadTask
  have hboth := awaitAll_returned_iff
    [("watch_task", some
      ((c.watchTask.awaitCancelled WatchPoint.handlers).guarded
        .exception)),
      ("reload_task", some
        ((c.reloadTask.awaitCancelled ReloadPoint.handlers).guarded
          .exception))]
  simp only [List.forall_mem_cons, List.not_mem_nil, IsEmpty.forall_iff,
    implies_true, and_true, Option.some_inj, hwatch, hreload] at hboth
  unfold runServer
  split
  next hreturned =>
    rcases hboth.mp hreturned with ⟨hwatched, hreloaded⟩
    simp [hwatched, hreloaded]
  next hother =>
    constructor
    · intro hnone
      cases hnone
    · rintro ⟨hwatched, hreloaded, _⟩
      exact (hother (hboth.mpr ⟨hwatched, hreloaded⟩)).elim

/-- Behind the stop signal every component is reached exactly when nothing is
left that would pass its cancellation on or that a call would wait for: the
watcher and the reloader have ended, so has the task of every relay, and no
connection is open. -/
theorem shutsDown_iff (c : Components) : c.ShutsDown ↔ c.Quiet := by
  unfold ShutsDown
  rw [runServer_eq_some_iff, close_complete_iff]
  constructor
  · rintro ⟨hwatch, hreload, hserver, hstats, haudit, hrelays, hmqtt,
      hshadow, hjwt⟩
    exact ⟨hwatch, hreload, hserver, hstats, haudit, hrelays, hmqtt, hshadow,
      hjwt⟩
  · intro hquiet
    exact ⟨hquiet.watchTask, hquiet.reloadTask, hquiet.server,
      hquiet.statsTask, hquiet.auditTask, hquiet.iotRelays, hquiet.mqtt,
      hquiet.shadow, hquiet.jwt⟩

/-- A server at rest: the watcher sleeps, the reloader waits, nobody is
connected, and the relay of the one mountpoint waits for a frame. -/
def atRest : Components where
  watchTask := .suspended .sleeping
  reloadTask := .suspended .waiting
  server := some ⟨false, 0⟩
  statsTask := some (.suspended .sleeping)
  auditTask := none
  mountpoints := [("MP", [])]
  iotRelays := [("MP", some (.suspended .nextItem))]
  mqtt := .returns
  shadow := .returns
  jwt := .returns
  apiTask := none

/-- The same with a rover. -/
def oneRoverOpen : Components :=
  { atRest with
    server := some ⟨false, 1⟩
    mountpoints := [("MP", [.returns])] }

/-- The watcher's cancellation ends `run_server` in front of `close`; that of
the relay would end `close` in front of the brokers, and with a rover it would
not get past its first step. -/
theorem atRest_never_closes :
    atRest.runServer = none ∧
      atRest.close =
        ([.server, .stats, .audit, .hub "MP"],
          some (.threw .cancelled)) ∧
      oneRoverOpen.close = ([], none) ∧ ¬ atRest.ShutsDown := by
  refine ⟨rfl, rfl, rfl, ?_⟩
  intro hshut
  cases hshut

end Components

end BabilCors
