import BabilCors.TaskCancellation
import BabilCors.TransitionRuns

/-!
# The connection to the broker

`MQTTManager`, which all relays share.  The client is made at the first message
under a lock, after a check without it, and `close` disconnects it under the
same lock.  The calls may interleave at every suspension, fail, and be
cancelled.  The MQTT library is a parameter; what it is documented to do is a
statement about it.
-/

namespace BabilCors

open TaskCancellation TransitionRuns

/-! ## The library -/

/-- What the manager uses of the library: a client, its operations under what
the network makes of them, each with its ending, and whether the client has a
connection to the broker. -/
structure MqttLib where
  Client : Type
  Outcome : Type
  client : Client
  connect : Client → Outcome → Client × Ending
  disconnect : Client → Outcome → Client × Ending
  publish : Client → Outcome → Client × Ending
  stands : Client → Bool

/-- An operation that fails says so: a `connect` that raises leaves no
connection, nor does a `disconnect` that returns, and `publish` needs a
connection and makes none. -/
structure MqttLib.Documented (lib : MqttLib) : Prop where
  connect_raises : ∀ c o, (lib.connect c o).2 = .threw .exception →
    lib.stands (lib.connect c o).1 = false
  disconnect_returns : ∀ c o, (lib.disconnect c o).2 = .returned →
    lib.stands (lib.disconnect c o).1 = false
  publish_returns : ∀ c o, (lib.publish c o).2 = .returned →
    lib.stands c = true
  publish_keeps : ∀ c o, lib.stands (lib.publish c o).1 = true →
    lib.stands c = true

/-! ## The manager -/

inductive MqttCall where
  | start
  | close
  | publish (topic : String) (payload : List UInt8)
  deriving DecidableEq, Repr

/-- Where a call stands: not begun, at the lock, in one of the three operations
of a client, of which the first two hold the lock, and over. -/
inductive MqttPhase where
  | idle
  | waiting (call : MqttCall)
  | connecting (call : MqttCall) (client : ℕ)
  | disconnecting (client : ℕ)
  | publishing (topic : String) (payload : List UInt8) (client : ℕ)
  | ended
  deriving DecidableEq, Repr

/-- The client that a call with the lock connects or disconnects. -/
def MqttPhase.operatesOn : MqttPhase → Option ℕ
  | .connecting _ client => some client
  | .disconnecting client => some client
  | _ => none

def MqttPhase.holds (phase : MqttPhase) : Bool :=
  phase.operatesOn.isSome

/-- The clients are numbered as they are made. -/
structure MqttManager (lib : MqttLib) where
  enabled : Bool
  client : Option ℕ
  made : ℕ
  clients : ℕ → lib.Client
  lock : Option ℕ
  phase : ℕ → MqttPhase

/-- The steps of the call `i`: it begins, it gets the lock, where a client may
have to be built, an operation ends, or it is cancelled while it waits. -/
inductive MqttEvent (lib : MqttLib) where
  | call (i : ℕ) (call : MqttCall)
  | acquire (i : ℕ) (built : Bool)
  | connected (i : ℕ) (outcome : lib.Outcome)
  | disconnected (i : ℕ) (outcome : lib.Outcome)
  | published (i : ℕ) (outcome : lib.Outcome)
  | cancel (i : ℕ)

/-- What a call does behind `start`. -/
def MqttCall.go (call : MqttCall) (client? : Option ℕ) : MqttPhase :=
  match call, client? with
  | .publish topic payload, some client => .publishing topic payload client
  | _, _ => .ended

namespace MqttManager

variable {lib : MqttLib}

def new (lib : MqttLib) (enabled : Bool) : MqttManager lib where
  enabled := enabled
  client := none
  made := 0
  clients := fun _ => lib.client
  lock := none
  phase := fun _ => .idle

def goTo (s : MqttManager lib) (i : ℕ) (phase : MqttPhase) :
    MqttManager lib :=
  { s with phase := Function.update s.phase i phase }

def setClient (s : MqttManager lib) (n : ℕ) (client : lib.Client) :
    MqttManager lib :=
  { s with clients := Function.update s.clients n client }

/-- A call up to its first suspension. -/
def begin (s : MqttManager lib) (i : ℕ) (call : MqttCall) :
    MqttManager lib :=
  if call = .close then s.goTo i (.waiting call)
  else if !s.enabled then s.goTo i .ended
  else
    match call, s.client with
    | .publish topic payload, some client =>
        s.goTo i (.publishing topic payload client)
    | call, _ => s.goTo i (.waiting call)

/-- A client is made, and its `connect` begins. -/
def make (s : MqttManager lib) (i : ℕ) (call : MqttCall) :
    MqttManager lib :=
  ({ s with
    client := some s.made
    made := s.made + 1
    lock := some i }.setClient s.made lib.client).goTo i
      (.connecting call s.made)

/-- A call with the lock; it is given back at once unless a client is to be
connected or disconnected. -/
def enter (s : MqttManager lib) (i : ℕ) (call : MqttCall) (built : Bool) :
    MqttManager lib :=
  match s.client with
  | none =>
      if call = .close ∨ built = false then s.goTo i .ended
      else s.make i call
  | some client =>
      if call = .close then
        { s with lock := some i }.goTo i (.disconnecting client)
      else s.goTo i (call.go s.client)

/-- The holder of the lock has come to the end of its operation. -/
def release (s : MqttManager lib) (i n : ℕ) (client : lib.Client)
    (phase : MqttPhase) : MqttManager lib :=
  ({ s with lock := none }.setClient n client).goTo i phase

/-- `none` when the event cannot happen in the state. -/
def step (s : MqttManager lib) : MqttEvent lib → Option (MqttManager lib)
  | .call i call =>
      if s.phase i = .idle then some (s.begin i call) else none
  | .acquire i built =>
      match s.lock, s.phase i with
      | none, .waiting call => some (s.enter i call built)
      | _, _ => none
  | .connected i outcome =>
      match s.phase i with
      | .connecting call n =>
          let result := lib.connect (s.clients n) outcome
          some (s.release i n result.1
            (if result.2 = .returned then call.go s.client else .ended))
      | _ => none
  | .disconnected i outcome =>
      match s.phase i with
      | .disconnecting n =>
          let result := lib.disconnect (s.clients n) outcome
          let s := s.release i n result.1 .ended
          -- an exception is swallowed, a cancellation is not
          if result.2.guarded .exception = .returned then
            some { s with client := none }
          else some s
      | _ => none
  | .published i outcome =>
      match s.phase i with
      | .publishing _ _ n =>
          let result := lib.publish (s.clients n) outcome
          some ((s.setClient n result.1).goTo i .ended)
      | _ => none
  | .cancel i =>
      match s.phase i with
      | .waiting _ => some (s.goTo i .ended)
      | _ => none

/-- The clients that `close` lets go, each with the ending of its
`disconnect`. -/
def drops (s : MqttManager lib) : MqttEvent lib → List (ℕ × Ending)
  | .disconnected i outcome =>
      match s.phase i with
      | .disconnecting n =>
          let result := lib.disconnect (s.clients n) outcome
          if result.2.guarded .exception = .returned then [(n, result.2)]
          else []
      | _ => []
  | _ => []

/-- The calls whose message goes out. -/
def delivers (s : MqttManager lib) : MqttEvent lib → List ℕ
  | .published i outcome =>
      match s.phase i with
      | .publishing _ _ n =>
          if (lib.publish (s.clients n) outcome).2 = .returned then [i]
          else []
      | _ => []
  | _ => []

/-! ## What a step can do -/

theorem go_holds (call : MqttCall) (client? : Option ℕ) :
    (call.go client?).holds = false ∧ (∀ c, call.go client? ≠ .waiting c) ∧
      ∀ topic payload n, call.go client? = .publishing topic payload n →
        client? = some n := by
  cases call with
  | start | close =>
      exact ⟨rfl, fun _ => MqttPhase.noConfusion,
        fun _ _ _ => MqttPhase.noConfusion⟩
  | publish topic payload =>
      cases client? with
      | none =>
          exact ⟨rfl, fun _ => MqttPhase.noConfusion,
            fun _ _ _ => MqttPhase.noConfusion⟩
      | some client =>
          refine ⟨rfl, fun _ => MqttPhase.noConfusion, ?_⟩
          rintro _ _ _ ⟨⟩
          rfl

/-- A phase away from the lock; a message goes to the current client. -/
structure Free (s : MqttManager lib) (event : MqttEvent lib) (i : ℕ)
    (phase : MqttPhase) : Prop where
  holds : phase.holds = false
  close : phase = .waiting .close → event = .call i .close
  publish : ∀ topic payload n, phase = .publishing topic payload n →
    s.client = some n

theorem Free.ended (s : MqttManager lib) (event : MqttEvent lib) (i : ℕ) :
    s.Free event i .ended :=
  ⟨rfl, MqttPhase.noConfusion, fun _ _ _ => MqttPhase.noConfusion⟩

theorem Free.go (s : MqttManager lib) (event : MqttEvent lib) (i : ℕ)
    (call : MqttCall) : s.Free event i (call.go s.client) := by
  obtain ⟨hholds, hwaits, hpublish⟩ := go_holds call s.client
  exact ⟨hholds, fun h => (hwaits _ h).elim, hpublish⟩

/-- A step away from the lock moves its call on and makes no connection; the
others make a client, begin to disconnect it, or end what the holder of the
lock does, which may let the client go. -/
inductive Move (s : MqttManager lib) (event : MqttEvent lib)
    (s' : MqttManager lib) : Prop
  | moves (i : ℕ) (phase : MqttPhase) (clients : ℕ → lib.Client)
      (hnow : (s.phase i).holds = false) (hfree : s.Free event i phase)
      (hkeeps : ∀ n, lib.stands (clients n) = true →
        lib.stands (s.clients n) = true)
      (hs' : s' = { s with clients := clients }.goTo i phase)
      (hnone : s.drops event = [])
  | makes (i : ℕ) (call : MqttCall) (hlock : s.lock = none)
      (hclient : s.client = none) (hs' : s' = s.make i call)
      (hnone : s.drops event = [])
  | closes (i n : ℕ) (hlock : s.lock = none)
      (hwaiting : s.phase i = .waiting .close) (hclient : s.client = some n)
      (hs' : s' = { s with lock := some i }.goTo i (.disconnecting n))
      (hnone : s.drops event = [])
  | releases (i n : ℕ) (client : lib.Client) (phase : MqttPhase)
      (hphase : (s.phase i).operatesOn = some n)
      (hfree : s.Free event i phase)
      (hs' : s' = s.release i n client phase) (hnone : s.drops event = [])
  | lets (i n : ℕ) (result : lib.Client × Ending)
      (hphase : (s.phase i).operatesOn = some n)
      (hend : result.2 = .returned ∧ lib.stands result.1 = false ∨
        result.2 = .threw .exception)
      (hs' : s' = { s.release i n result.1 .ended with client := none })
      (hone : s.drops event = [(n, result.2)])

theorem begin_move {s : MqttManager lib} {i : ℕ} {call : MqttCall}
    (hidle : s.phase i = .idle) :
    s.Move (.call i call) (s.begin i call) := by
  have hnow : (s.phase i).holds = false := by
    rw [hidle]
    rfl
  have hmoves {phase : MqttPhase} (hfree : s.Free (.call i call) i phase) :
      s.Move (.call i call) (s.goTo i phase) :=
    .moves i phase s.clients hnow hfree (fun _ h => h) rfl rfl
  unfold begin
  split_ifs with hclose
  · subst hclose
    exact hmoves ⟨rfl, fun _ => rfl, fun _ _ _ => MqttPhase.noConfusion⟩
  · exact hmoves (.ended s _ i)
  · split
    · next topic payload client hclient =>
        refine hmoves ⟨rfl, MqttPhase.noConfusion, ?_⟩
        rintro _ _ _ ⟨⟩
        exact hclient
    · refine hmoves ⟨rfl, fun hwaiting => ?_,
        fun _ _ _ => MqttPhase.noConfusion⟩
      exact (hclose (MqttPhase.waiting.inj hwaiting)).elim

theorem enter_move {s : MqttManager lib} {i : ℕ} {call : MqttCall}
    (hlock : s.lock = none) (hwaiting : s.phase i = .waiting call)
    (built : Bool) : s.Move (.acquire i built) (s.enter i call built) := by
  have hnow : (s.phase i).holds = false := by
    rw [hwaiting]
    rfl
  have hmoves {phase : MqttPhase}
      (hfree : s.Free (.acquire i built) i phase) :
      s.Move (.acquire i built) (s.goTo i phase) :=
    .moves i phase s.clients hnow hfree (fun _ h => h) rfl rfl
  unfold enter
  cases hclient : s.client with
  | none =>
      dsimp only
      split_ifs
      · exact hmoves (.ended s _ i)
      · exact .makes i call hlock hclient rfl rfl
  | some n =>
      dsimp only
      split_ifs with hclose
      · subst hclose
        exact .closes i n hlock hwaiting hclient (by rw [hclient]) rfl
      · rw [← hclient]
        exact hmoves (.go s _ i call)

/-- A `disconnect` that is cancelled leaves the client the current one. -/
theorem disconnected_move (hlib : lib.Documented) {s s' : MqttManager lib}
    {i n : ℕ} {outcome : lib.Outcome} (hphase : s.phase i = .disconnecting n)
    (hstep : s.step (.disconnected i outcome) = some s') :
    s.Move (.disconnected i outcome) s' := by
  have hoperates : (s.phase i).operatesOn = some n := by
    rw [hphase]
    rfl
  unfold step at hstep
  simp only [hphase] at hstep
  split_ifs at hstep with hguarded
  · obtain rfl := Option.some.inj hstep
    have hdrops : s.drops (.disconnected i outcome) =
        [(n, (lib.disconnect (s.clients n) outcome).2)] := by
      unfold drops
      simp only [hphase, if_pos hguarded]
    refine .lets i n (lib.disconnect (s.clients n) outcome) hoperates ?_ rfl
      hdrops
    rcases hend : (lib.disconnect (s.clients n) outcome).2 with _ | (_ | _)
    · exact .inl ⟨rfl, hlib.disconnect_returns _ _ hend⟩
    · exact .inr rfl
    · rw [hend] at hguarded
      cases hguarded
  · obtain rfl := Option.some.inj hstep
    refine .releases i n _ _ hoperates (.ended s _ i) rfl ?_
    unfold drops
    simp only [hphase, if_neg hguarded]

/-- No `publish` makes a connection. -/
theorem stands_publish (hlib : lib.Documented) {s : MqttManager lib}
    {n m : ℕ} {outcome : lib.Outcome}
    (hstands : lib.stands ((s.setClient n
      (lib.publish (s.clients n) outcome).1).clients m) = true) :
    lib.stands (s.clients m) = true := by
  unfold setClient at hstands
  dsimp only at hstands
  by_cases hm : m = n
  · subst hm
    rw [Function.update_self] at hstands
    exact hlib.publish_keeps _ _ hstands
  · rwa [Function.update_of_ne hm] at hstands

theorem step_move (hlib : lib.Documented) {s s' : MqttManager lib}
    {event : MqttEvent lib} (hstep : s.step event = some s') :
    s.Move event s' := by
  cases event with
  | call i call =>
      unfold step at hstep
      dsimp only at hstep
      split_ifs at hstep with hidle
      obtain rfl := Option.some.inj hstep
      exact begin_move hidle
  | acquire i built =>
      unfold step at hstep
      dsimp only at hstep
      split at hstep
      · next call hlock hwaiting =>
          obtain rfl := Option.some.inj hstep
          exact enter_move hlock hwaiting built
      · cases hstep
  | connected i outcome =>
      unfold step at hstep
      dsimp only at hstep
      split at hstep
      · next call n hphase =>
          obtain rfl := Option.some.inj hstep
          refine .releases i n _ _ ?_ ?_ rfl rfl
          · rw [hphase]
            rfl
          · split_ifs
            · exact .go s _ i call
            · exact .ended s _ i
      · cases hstep
  | disconnected i outcome =>
      cases hphase : s.phase i with
      | disconnecting n => exact disconnected_move hlib hphase hstep
      | idle | waiting _ | connecting _ _ | publishing _ _ _ | ended =>
          simp [step, hphase] at hstep
  | published i outcome =>
      unfold step at hstep
      dsimp only at hstep
      split at hstep
      · next topic payload n hphase =>
          obtain rfl := Option.some.inj hstep
          refine .moves i .ended _ ?_ (.ended s _ i)
            (fun _ => stands_publish hlib) rfl rfl
          rw [hphase]
          rfl
      · cases hstep
  | cancel i =>
      unfold step at hstep
      dsimp only at hstep
      split at hstep
      · next call hphase =>
          obtain rfl := Option.some.inj hstep
          refine .moves i .ended s.clients ?_ (.ended s _ i) (fun _ h => h)
            rfl rfl
          rw [hphase]
          rfl
      · cases hstep

/-! ## One client -/

/-- A call that connects or disconnects has the lock, and works on the current
client. -/
structure Guarded (s : MqttManager lib) : Prop where
  holder : ∀ i, (s.phase i).holds = true ↔ s.lock = some i
  current : ∀ i n, (s.phase i).operatesOn = some n → s.client = some n

theorem Guarded.new (lib : MqttLib) (enabled : Bool) :
    (new lib enabled).Guarded where
  holder i := by
    constructor
    · intro hholds
      cases hholds
    · intro hlock
      cases hlock
  current i n hphase := by cases hphase

theorem goTo_phase_self (s : MqttManager lib) (i : ℕ) (phase : MqttPhase) :
    (s.goTo i phase).phase i = phase := by
  simp [goTo]

theorem goTo_phase_other (s : MqttManager lib) {i j : ℕ} (hne : j ≠ i)
    (phase : MqttPhase) : (s.goTo i phase).phase j = s.phase j := by
  simp [goTo, hne]

theorem operatesOn_of_not_holds {phase : MqttPhase}
    (hholds : phase.holds = false) : phase.operatesOn = none := by
  unfold MqttPhase.holds at hholds
  simpa using hholds

theorem Guarded.not_holds {s : MqttManager lib} (hguarded : s.Guarded)
    {i j : ℕ} (hfree : s.lock = none ∨ s.lock = some i) (hj : j ≠ i) :
    (s.phase j).holds = false := by
  have hlock : s.lock ≠ some j := by
    rcases hfree with hnone | hsome
    · rw [hnone]
      simp
    · rw [hsome]
      simpa using Ne.symm hj
  simpa using mt (hguarded.holder j).mp hlock

theorem Guarded.lock_of_operates {s : MqttManager lib} (hguarded : s.Guarded)
    {i n : ℕ} (hphase : (s.phase i).operatesOn = some n) :
    s.lock = some i := by
  rw [← hguarded.holder i, MqttPhase.holds, hphase]
  rfl

/-- A call away from the lock goes on. -/
theorem Guarded.moves {s : MqttManager lib} (hguarded : s.Guarded) {i : ℕ}
    {phase : MqttPhase} (hnow : (s.phase i).holds = false)
    (hnext : phase.holds = false) (clients : ℕ → lib.Client) :
    ({ s with clients := clients }.goTo i phase).Guarded := by
  constructor
  · intro j
    change _ ↔ s.lock = some j
    rw [← hguarded.holder j]
    by_cases hj : j = i
    · subst hj
      rw [goTo_phase_self, hnow, hnext]
    · rw [goTo_phase_other _ hj]
  · intro j n hphase
    by_cases hj : j = i
    · subst hj
      rw [goTo_phase_self, operatesOn_of_not_holds hnext] at hphase
      cases hphase
    · rw [goTo_phase_other _ hj] at hphase
      exact hguarded.current j n hphase

/-- A call that has the lock, or gets it, leaves no other one to look at. -/
theorem Guarded.of_holder {s t : MqttManager lib} (hguarded : s.Guarded)
    (phase : MqttPhase) (hphases : t.phase = s.phase) {i : ℕ}
    (hfree : s.lock = none ∨ s.lock = some i)
    (hlock : t.lock = if phase.holds then some i else none)
    (hcurrent : ∀ n, phase.operatesOn = some n → t.client = some n) :
    (t.goTo i phase).Guarded := by
  constructor
  · intro j
    change _ ↔ t.lock = some j
    by_cases hj : j = i
    · subst hj
      rw [goTo_phase_self, hlock]
      cases phase.holds <;> simp
    · rw [goTo_phase_other t hj, hphases, hguarded.not_holds hfree hj, hlock]
      cases phase.holds <;> simp [Ne.symm hj]
  · intro j n hphase
    by_cases hj : j = i
    · subst hj
      rw [goTo_phase_self] at hphase
      exact hcurrent n hphase
    · rw [goTo_phase_other t hj, hphases,
        operatesOn_of_not_holds (hguarded.not_holds hfree hj)] at hphase
      cases hphase

theorem step_guarded (hlib : lib.Documented) {s s' : MqttManager lib}
    {event : MqttEvent lib} (hguarded : s.Guarded)
    (hstep : s.step event = some s') : s'.Guarded := by
  cases step_move hlib hstep with
  | moves i phase clients hnow hfree _ hs' _ =>
      rw [hs']
      exact hguarded.moves hnow hfree.holds clients
  | makes i call hlock _ hs' _ =>
      rw [hs']
      refine hguarded.of_holder (t := { s with
        client := some s.made
        made := s.made + 1
        lock := some i }.setClient s.made lib.client)
        (.connecting call s.made) rfl (.inl hlock) rfl ?_
      rintro n ⟨⟩
      rfl
  | closes i n hlock _ hclient hs' _ =>
      rw [hs']
      refine hguarded.of_holder (t := { s with lock := some i })
        (.disconnecting n) rfl (.inl hlock) rfl ?_
      rintro m ⟨⟩
      exact hclient
  | releases i n client phase hphase hfree hs' _ =>
      rw [hs']
      refine hguarded.of_holder
        (t := { s with lock := none }.setClient n client) phase rfl
        (.inr (hguarded.lock_of_operates hphase)) ?_ ?_
      · rw [hfree.holds]
        rfl
      · intro m hoperates
        rw [operatesOn_of_not_holds hfree.holds] at hoperates
        cases hoperates
  | lets i n result hphase _ hs' _ =>
      have hlock := hguarded.lock_of_operates hphase
      rw [hs']
      refine hguarded.of_holder
        (t := { s.setClient n result.1 with lock := none, client := none })
        _ rfl (.inr hlock) rfl ?_
      rintro m ⟨⟩

/-- Every client is the current one or has been let go; one with a connection
that is not the current one was let go by a `disconnect` that raised. -/
structure Accounted (log : List (ℕ × Ending)) (s : MqttManager lib) :
    Prop where
  made : ∀ n < s.made, s.client = some n ∨ ∃ ending, (n, ending) ∈ log
  stands : ∀ n < s.made, lib.stands (s.clients n) = true →
    s.client = some n ∨ (n, .threw .exception) ∈ log

/-- The current client stays the current one. -/
theorem Accounted.of_client {log : List (ℕ × Ending)}
    {s s' : MqttManager lib} (hlog : s.Accounted log)
    (hclient : s'.client = s.client) (hmade : s'.made = s.made)
    (hkeeps : ∀ n, lib.stands (s'.clients n) = true → s.client = some n ∨
      lib.stands (s.clients n) = true) : s'.Accounted log := by
  constructor
  · intro n hn
    rw [hclient]
    rw [hmade] at hn
    exact hlog.made n hn
  · intro n hn hstands
    rw [hclient]
    rw [hmade] at hn
    rcases hkeeps n hstands with hcurrent | hbefore
    · exact .inl hcurrent
    · exact hlog.stands n hn hbefore

theorem step_accounted (hlib : lib.Documented) {s s' : MqttManager lib}
    {event : MqttEvent lib} {log : List (ℕ × Ending)}
    (hguarded : s.Guarded) (hlog : s.Accounted log)
    (hstep : s.step event = some s') :
    s'.Accounted (log ++ s.drops event) := by
  cases step_move hlib hstep with
  | moves i phase clients _ _ hkeeps hs' hnone =>
      rw [hnone, List.append_nil, hs']
      exact hlog.of_client rfl rfl fun n hn => .inr (hkeeps n hn)
  | closes i n _ _ _ hs' hnone =>
      rw [hnone, List.append_nil, hs']
      exact hlog.of_client rfl rfl fun _ hn => .inr hn
  | releases i n client phase hphase _ hs' hnone =>
      rw [hnone, List.append_nil, hs']
      refine hlog.of_client rfl rfl fun m hstands => ?_
      by_cases hm : m = n
      · subst hm
        exact .inl (hguarded.current i m hphase)
      · change lib.stands (Function.update s.clients n client m) = true
          at hstands
        rw [Function.update_of_ne hm] at hstands
        exact .inr hstands
  | makes i call _ hclient hs' hnone =>
      rw [hnone, List.append_nil, hs']
      constructor
      · intro n hn
        rcases Nat.lt_succ_iff_lt_or_eq.mp hn with hlt | rfl
        · rcases hlog.made n hlt with hcurrent | hmem
          · rw [hclient] at hcurrent
            cases hcurrent
          · exact .inr hmem
        · exact .inl rfl
      · intro n hn hstands
        rcases Nat.lt_succ_iff_lt_or_eq.mp hn with hlt | rfl
        · change lib.stands (Function.update s.clients s.made lib.client n) =
            true at hstands
          rw [Function.update_of_ne hlt.ne] at hstands
          rcases hlog.stands n hlt hstands with hcurrent | hmem
          · rw [hclient] at hcurrent
            cases hcurrent
          · exact .inr hmem
        · exact .inl rfl
  | lets i n result hphase hend hs' hone =>
      have hcurrent := hguarded.current i n hphase
      rw [hone, hs']
      constructor
      · intro m hm
        right
        rcases hlog.made m hm with hclient | ⟨ending, hmem⟩
        · obtain rfl := Option.some.inj (hcurrent.symm.trans hclient)
          exact ⟨result.2, by simp⟩
        · exact ⟨ending, List.mem_append_left _ hmem⟩
      · intro m hm hstands
        right
        change lib.stands (Function.update s.clients n result.1 m) = true
          at hstands
        by_cases hmn : m = n
        · subst hmn
          rw [Function.update_self] at hstands
          rcases hend with ⟨-, hnot⟩ | hraised
          · rw [hnot] at hstands
            cases hstands
          · rw [hraised]
            simp
        · rw [Function.update_of_ne hmn] at hstands
          rcases hlog.stands m hm hstands with hclient | hmem
          · exact (hmn (Option.some.inj (hclient.symm.trans hcurrent))).elim
          · exact List.mem_append_left _ hmem

/-- However the calls of the relays, of the start and of the end interleave,
fail or are cancelled, every client that has been made is the current one or
has been let go, no connection stands but that of the current one and of those
whose `disconnect` has raised, and no two calls connect or disconnect at
once. -/
theorem run_oneClient (hlib : lib.Documented) {enabled : Bool}
    {events : List (MqttEvent lib)} {s : MqttManager lib}
    (hrun : run step (new lib enabled) events = some s) :
    (∀ n < s.made, s.client = some n ∨ ∃ ending,
        (n, ending) ∈ outputs step drops (new lib enabled) events) ∧
      (∀ n < s.made, lib.stands (s.clients n) = true →
        s.client = some n ∨ (n, .threw .exception) ∈
          outputs step drops (new lib enabled) events) ∧
      ∀ i j, (s.phase i).holds = true → (s.phase j).holds = true →
        i = j := by
  have hany : StepsMeet step (fun _ _ => True) (new lib enabled) events :=
    .of_forall fun _ _ _ => trivial
  have hstart : (new lib enabled).Guarded ∧
      (new lib enabled).Accounted ([] : List (ℕ × Ending)) :=
    ⟨.new lib enabled, fun n hn => absurd hn (Nat.not_lt_zero n),
      fun n hn => absurd hn (Nat.not_lt_zero n)⟩
  obtain ⟨hguarded, hlog⟩ := StepsMeet.run_outputs
    (P := fun (log : List (ℕ × Ending)) s => s.Guarded ∧ s.Accounted log)
    (fun log state event next hinv _ hstep =>
      ⟨step_guarded hlib hinv.1 hstep,
        step_accounted hlib hinv.1 hinv.2 hstep⟩)
    hstart hany hrun
  rw [List.nil_append] at hlog
  refine ⟨hlog.made, hlog.stands, ?_⟩
  intro i j hi hj
  rw [hguarded.holder] at hi hj
  exact Option.some.inj (hi.symm.trans hj)

/-- A client is a flag, and the network decides how an operation ends; a
`connect` that is cancelled may have been through. -/
@[reducible] def flagLib : MqttLib where
  Client := Bool
  Outcome := Ending
  client := false
  connect _ o := (o != .threw .exception, o)
  disconnect c o := (c && o != .returned, o)
  publish c o := (c, if c then o else .threw .exception)
  stands c := c

theorem flagLib_documented : flagLib.Documented where
  connect_raises c o hend := by
    obtain rfl : o = .threw .exception := hend
    rfl
  disconnect_returns c o hend := by
    obtain rfl : o = .returned := hend
    exact Bool.and_false c
  publish_returns c o hend := by
    cases c with
    | true => rfl
    | false => cases hend
  publish_keeps c o hstands := hstands

/-- Two relays that both find no client, and a `close` between them whose
`disconnect` raises. -/
def twoRelays : List (MqttEvent flagLib) :=
  [.call 0 (.publish "gnss/v1/MP1/stream" [1]),
    .call 1 (.publish "gnss/v1/MP2/stream" [2]), .acquire 0 true,
    .connected 0 .returned, .published 0 .returned, .call 2 .close,
    .acquire 2 true, .disconnected 2 (.threw .exception), .acquire 1 true,
    .connected 1 .returned, .published 1 .returned]

/-- The first client's connection still stands behind it. -/
theorem run_oneClient_twoRelays :
    ∃ s, run step (new flagLib true) twoRelays = some s ∧
      s.client = some 1 ∧ flagLib.stands (s.clients 0) = true ∧
      (0, .threw .exception) ∈
        outputs step drops (new flagLib true) twoRelays := by
  obtain ⟨s, hrun⟩ : ∃ s,
      run step (new flagLib true) twoRelays = some s := ⟨_, rfl⟩
  have hview : (run step (new flagLib true) twoRelays).map
      (fun s => (s.client, s.made, s.clients 0)) = some (some 1, 2, true) := by
    decide +kernel
  rw [hrun] at hview
  obtain ⟨hclient, hmade, hstands⟩ : s.client = some 1 ∧ s.made = 2 ∧
      s.clients 0 = true := by
    simpa using hview
  refine ⟨s, hrun, hclient, hstands, ?_⟩
  rcases (run_oneClient flagLib_documented hrun).2.1 0 (by omega)
    hstands with hcurrent | hraised
  · rw [hclient] at hcurrent
    cases hcurrent
  · exact hraised

/-! ## A connect that fails -/

/-- There is a client without a connection, nobody is about to close it, and
only calls that were under way in the state `failed` use another one. -/
structure Stuck (s failed : MqttManager lib) (n made : ℕ) : Prop where
  current : s.client = some n
  count : s.made = made
  unconnected : lib.stands (s.clients n) = false
  free : ∀ i, (s.phase i).holds = false
  unclosed : ∀ i, s.phase i ≠ .waiting .close
  underWay : ∀ i topic payload m, s.phase i = .publishing topic payload m →
    m = n ∨ failed.phase i = .publishing topic payload m

theorem Stuck.step (hlib : lib.Documented) {failed s s' : MqttManager lib}
    {n made : ℕ} {event : MqttEvent lib} (hstuck : s.Stuck failed n made)
    (hclose : ∀ i, event ≠ .call i .close)
    (hstep : s.step event = some s') : s'.Stuck failed n made := by
  have hfree (i m : ℕ) (hphase : (s.phase i).operatesOn = some m) :
      False := by
    rw [operatesOn_of_not_holds (hstuck.free i)] at hphase
    cases hphase
  cases step_move hlib hstep with
  | moves i phase clients _ hphase hkeeps hs' _ =>
      rw [hs']
      have hcases (P : ℕ → MqttPhase → Prop) (hnew : P i phase)
          (hold : ∀ j, P j (s.phase j)) (j : ℕ) :
          P j (({ s with clients := clients }.goTo i phase).phase j) := by
        by_cases hj : j = i
        · subst hj
          rwa [goTo_phase_self]
        · rw [goTo_phase_other _ hj]
          exact hold j
      refine ⟨hstuck.current, hstuck.count, ?_, ?_, ?_, ?_⟩
      · by_contra hstands
        rw [Bool.not_eq_false] at hstands
        have hbefore := hkeeps n hstands
        rw [hstuck.unconnected] at hbefore
        cases hbefore
      · exact hcases (fun _ phase => phase.holds = false) hphase.holds
          hstuck.free
      · exact hcases (fun _ phase => phase ≠ .waiting .close)
          (fun h => hclose i (hphase.close h)) hstuck.unclosed
      · refine hcases (fun j phase => ∀ topic payload m,
          phase = .publishing topic payload m →
            m = n ∨ failed.phase j = .publishing topic payload m) ?_
          hstuck.underWay
        intro topic payload m hpublishing
        have hclient := hphase.publish topic payload m hpublishing
        exact .inl (Option.some.inj (hclient.symm.trans hstuck.current))
  | makes _ _ _ hclient _ _ =>
      rw [hstuck.current] at hclient
      cases hclient
  | closes i _ _ hwaiting _ _ _ => exact (hstuck.unclosed i hwaiting).elim
  | releases i m _ _ hphase _ _ _ => exact (hfree i m hphase).elim
  | lets i m _ hphase _ _ _ => exact (hfree i m hphase).elim

/-- The messages that still go out are on their way to another client. -/
theorem Stuck.delivers (hlib : lib.Documented) {failed s : MqttManager lib}
    {n made : ℕ} (hstuck : s.Stuck failed n made) (event : MqttEvent lib) :
    ∀ i ∈ s.delivers event, ∃ topic payload m,
      failed.phase i = .publishing topic payload m ∧ m ≠ n := by
  intro i hi
  cases event with
  | published j outcome =>
      unfold MqttManager.delivers at hi
      dsimp only at hi
      split at hi
      · next topic payload m hphase =>
          split_ifs at hi with hend
          · obtain rfl := List.mem_singleton.mp hi
            have hne : m ≠ n := by
              rintro rfl
              have hstands := hlib.publish_returns _ _ hend
              rw [hstuck.unconnected] at hstands
              cases hstands
            rcases hstuck.underWay i topic payload m hphase with
              hsame | hbefore
            · exact (hne hsame).elim
            · exact ⟨topic, payload, m, hbefore, hne⟩
          · cases hi
      · cases hi
  | call _ _ | acquire _ _ | connected _ _ | disconnected _ _ | cancel _ =>
      cases hi

/-- What a connect that has raised leaves. -/
theorem Stuck.of_raised (hlib : lib.Documented) {s failed : MqttManager lib}
    (hguarded : s.Guarded) {i : ℕ} {call : MqttCall} {n : ℕ}
    (hphase : s.phase i = .connecting call n) {outcome : lib.Outcome}
    (hraises : (lib.connect (s.clients n) outcome).2 = .threw .exception)
    (hstep : s.step (.connected i outcome) = some failed)
    (hunclosed : ∀ j, failed.phase j ≠ .waiting .close) :
    failed.Stuck failed n s.made := by
  have hoperates : (s.phase i).operatesOn = some n := by
    rw [hphase]
    rfl
  have hlock := hguarded.lock_of_operates hoperates
  have hfailed : failed = s.release i n
      (lib.connect (s.clients n) outcome).1 .ended := by
    simp only [MqttManager.step, hphase, hraises, reduceCtorEq,
      if_false] at hstep
    exact (Option.some.inj hstep).symm
  refine ⟨?_, ?_, ?_, ?_, hunclosed, fun _ _ _ _ h => .inr h⟩
  · rw [hfailed]
    exact hguarded.current i n hoperates
  · rw [hfailed]
    rfl
  · rw [hfailed]
    change lib.stands (Function.update s.clients n _ n) = false
    rw [Function.update_self]
    exact hlib.connect_raises _ _ hraises
  · intro j
    rw [hfailed]
    by_cases hj : j = i
    · subst hj
      rw [release, goTo_phase_self]
      rfl
    · rw [release, goTo_phase_other _ hj]
      exact hguarded.not_holds (.inr hlock) hj

/-- A manager that is stuck stays so until somebody closes it. -/
theorem Stuck.run (hlib : lib.Documented) {failed final : MqttManager lib}
    {n made : ℕ} {later : List (MqttEvent lib)}
    (hstuck : failed.Stuck failed n made)
    (hlater : run MqttManager.step failed later = some final)
    (hcalls : ∀ j, .call j .close ∉ later) :
    final.Stuck failed n made ∧
      ∀ j ∈ outputs MqttManager.step MqttManager.delivers failed later,
        ∃ topic payload m,
          failed.phase j = .publishing topic payload m ∧ m ≠ n := by
  have hmeets : StepsMeet MqttManager.step
      (fun _ event => ∀ j, event ≠ .call j .close) failed later := by
    apply StepsMeet.of_forall
    rintro event hmem _ j rfl
    exact hcalls j hmem
  have hnext (log : List ℕ) (state : MqttManager lib) (event : MqttEvent lib)
      (next : MqttManager lib)
      (hinv : state.Stuck failed n made ∧ ∀ j ∈ log, ∃ topic payload m,
        failed.phase j = .publishing topic payload m ∧ m ≠ n)
      (hcondition : ∀ j, event ≠ .call j .close)
      (hstep : state.step event = some next) :
      next.Stuck failed n made ∧ ∀ j ∈ log ++ state.delivers event,
        ∃ topic payload m,
          failed.phase j = .publishing topic payload m ∧ m ≠ n := by
    refine ⟨hinv.1.step hlib hcondition hstep, fun j hj => ?_⟩
    rcases List.mem_append.mp hj with hold | hnew
    · exact hinv.2 j hold
    · exact hinv.1.delivers hlib event j hnew
  exact StepsMeet.run_outputs hnext ⟨hstuck, List.forall_mem_nil _⟩ hmeets
    hlater

/-- After a connect that has raised no message goes out, except by the calls
that are sending one over an earlier client, and no other client is made, until
somebody closes the manager: the next calls take the client for a connected
one. -/
theorem failed_connect_silences (hlib : lib.Documented) {enabled : Bool}
    {before later : List (MqttEvent lib)} {s failed final : MqttManager lib}
    (hbefore : run step (new lib enabled) before = some s)
    {i : ℕ} {call : MqttCall} {n : ℕ}
    (hphase : s.phase i = .connecting call n) {outcome : lib.Outcome}
    (hraises : (lib.connect (s.clients n) outcome).2 = .threw .exception)
    (hstep : s.step (.connected i outcome) = some failed)
    (hunclosed : ∀ j, failed.phase j ≠ .waiting .close)
    (hlater : run step failed later = some final)
    (hcalls : ∀ j, .call j .close ∉ later) :
    final.client = some n ∧ final.made = s.made ∧
      ∀ j ∈ outputs step delivers failed later, ∃ topic payload m,
        failed.phase j = .publishing topic payload m ∧ m ≠ n := by
  have hany : StepsMeet step (fun _ _ => True) (new lib enabled) before :=
    .of_forall fun _ _ _ => trivial
  have hguarded : s.Guarded := StepsMeet.run_preserves
    (fun state event next hinv _ hstep => step_guarded hlib hinv hstep)
    (.new lib enabled) hany hbefore
  have hstuck := Stuck.of_raised hlib hguarded hphase hraises hstep hunclosed
  obtain ⟨hfinal, houts⟩ := hstuck.run hlib hlater hcalls
  exact ⟨hfinal.current, hfinal.count, houts⟩

/-- The connect of the start is on its way. -/
def connectingStart : List (MqttEvent flagLib) :=
  [.call 0 .start, .acquire 0 true]

/-- It raises, and a relay has a message. -/
theorem failed_connect_silences_start :
    ∃ s failed final, run step (new flagLib true) connectingStart = some s ∧
      s.step (.connected 0 (.threw .exception)) = some failed ∧
      run step failed [.call 1 (.publish "gnss/v1/MP1/stream" [1]),
        .published 1 .returned] = some final ∧
      final.client = some 0 ∧ final.made = 1 := by
  have hfree (j : ℕ) : ((((new flagLib true).goTo 0 (.waiting
      .start)).make 0 .start).release 0 0 false .ended).phase j ≠
        .waiting .close := by
    cases j with
    | zero => exact MqttPhase.noConfusion
    | succ j => exact MqttPhase.noConfusion
  have hsilent := @failed_connect_silences flagLib flagLib_documented true
    connectingStart
    [.call 1 (.publish "gnss/v1/MP1/stream" [1]), .published 1 .returned]
    _ _ _ rfl 0 .start 0 rfl (.threw .exception) rfl rfl hfree rfl (by simp)
  exact ⟨_, _, _, rfl, rfl, rfl, hsilent.1, hsilent.2.1⟩

end MqttManager

end BabilCors
