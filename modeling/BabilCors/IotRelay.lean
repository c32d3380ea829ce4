import BabilCors.DropOldest
import BabilCors.RtcmEnvelope
import BabilCors.TransitionRuns

/-!
# The relay of a hub and its streams

`IoTRelay` with the WebSocket and event-stream handlers that subscribe to it.
The loop of the relay waits in two places, for an item of its queue and for
MQTT to take the envelope, and everything else may happen there.  Between the
two it runs alone.
-/

namespace BabilCors

/-! ## Queues -/

/-- An `asyncio.Queue`; one of size 0 is unbounded. -/
@[ext]
structure AsyncQueue (maxsize : ℕ) (α : Type) where
  items : List α
  bounded : 0 < maxsize → items.length ≤ maxsize
  deriving DecidableEq, Repr

namespace AsyncQueue

variable {maxsize : ℕ} {α : Type}

def new (maxsize : ℕ) (α : Type) : AsyncQueue maxsize α where
  items := []
  bounded := fun _ => Nat.zero_le maxsize

def full (q : AsyncQueue maxsize α) : Bool :=
  decide (0 < maxsize ∧ maxsize ≤ q.items.length)

theorem bounded_tail {items rest : List α} {item : α}
    (hbounded : 0 < maxsize → items.length ≤ maxsize)
    (hitems : items = item :: rest) :
    0 < maxsize → rest.length ≤ maxsize := by
  intro hpos
  have hle := hbounded hpos
  rw [hitems, List.length_cons] at hle
  exact Nat.le_of_succ_le hle

theorem bounded_concat {q : AsyncQueue maxsize α} (hroom : ¬ q.full = true)
    (item : α) : 0 < maxsize → (q.items ++ [item]).length ≤ maxsize := by
  intro hpos
  have hlt : ¬ maxsize ≤ q.items.length := fun hle =>
    hroom (decide_eq_true ⟨hpos, hle⟩)
  rw [List.length_append, List.length_singleton]
  omega

/-- `none` when it raises `QueueEmpty`. -/
def getNowait (q : AsyncQueue maxsize α) :
    Option (α × AsyncQueue maxsize α) :=
  match hitems : q.items with
  | [] => none
  | item :: rest => some (item, ⟨rest, bounded_tail q.bounded hitems⟩)

/-- `none` when it raises `QueueFull`. -/
def putNowait (q : AsyncQueue maxsize α) (item : α) :
    Option (AsyncQueue maxsize α) :=
  if hfull : q.full = true then none
  else some ⟨q.items ++ [item], bounded_concat hfull item⟩

/-- What the fan-out does with the queue of one subscriber, and whether it got
to its end without an exception. -/
def offer (q : AsyncQueue maxsize α) (item : α) :
    AsyncQueue maxsize α × Bool :=
  match if q.full then q.getNowait.map Prod.snd else some q with
  | none => (q, false)
  | some q' =>
      match q'.putNowait item with
      | none => (q', false)
      | some q'' => (q'', true)

theorem getNowait_eq_some {q q' : AsyncQueue maxsize α} {item : α} :
    q.getNowait = some (item, q') ↔ q.items = item :: q'.items := by
  rcases q with ⟨items, hbounded⟩
  rcases q' with ⟨rest, hrest⟩
  cases items with
  | nil => simp [getNowait]
  | cons first later => simp [getNowait]

theorem putNowait_items {q q' : AsyncQueue maxsize α} {item : α}
    (hput : q.putNowait item = some q') : q'.items = q.items ++ [item] := by
  unfold putNowait at hput
  split_ifs at hput
  rw [← Option.some.inj hput]

/-- The fan-out raises nothing, and leaves out the oldest item of a full
queue. -/
theorem offer_spec (hpos : 0 < maxsize) (q : AsyncQueue maxsize α)
    (item : α) :
    ∃ q', q.offer item = (q', true) ∧
      q'.items = DropOldest.push maxsize q.items item := by
  have hbounded := q.bounded hpos
  unfold offer DropOldest.push
  by_cases hfull : maxsize ≤ q.items.length
  · obtain ⟨first, rest, hitems⟩ : ∃ first rest, q.items = first :: rest :=
      List.exists_cons_of_length_pos (by omega)
    have hlength : q.items.length = rest.length + 1 := by
      rw [hitems, List.length_cons]
    let taken : AsyncQueue maxsize α :=
      ⟨rest, bounded_tail q.bounded hitems⟩
    have hget : q.getNowait = some (first, taken) :=
      getNowait_eq_some.mpr hitems
    have hroom : ¬ taken.full = true := by
      intro h
      have hle : maxsize ≤ rest.length := (of_decide_eq_true h).2
      omega
    have hq : q.full = true := decide_eq_true ⟨hpos, hfull⟩
    refine ⟨⟨rest ++ [item], bounded_concat hroom item⟩, ?_, ?_⟩
    · rw [if_pos hq, hget]
      simp [putNowait, hroom, taken]
    · rw [if_pos hfull, hitems]
      rfl
  · have hq : ¬ q.full = true := fun h => hfull (of_decide_eq_true h).2
    refine ⟨⟨q.items ++ [item], bounded_concat hq item⟩, ?_, ?_⟩
    · simp [putNowait, hq]
    · rw [if_neg hfull]

end AsyncQueue

/-! ## The relay -/

/-- A handler of the API with its queue and what it has taken out of it. -/
structure StreamHandler where
  q : AsyncQueue 64 Bytes
  received : List Bytes
  ended : Bool
  deriving DecidableEq, Repr

def StreamHandler.new : StreamHandler where
  q := .new 64 Bytes
  received := []
  ended := false

/-- The task that runs `_run`, and where it waits. -/
inductive RelayTask where
  | absent
  | waiting
  | publishing (envelope : Bytes)
  | ended
  deriving DecidableEq, Repr

/-- The relay, and the handlers whose queues its subscribers are. -/
structure IoTRelay where
  mountpoint : String
  queue : AsyncQueue 4096 RelayItem
  subscribers : List ℕ
  task : RelayTask
  closed : Bool
  handlers : List StreamHandler
  deriving DecidableEq, Repr

/-- A step of the relay, where `published` is the end of its wait for MQTT, or
of one of the handlers. -/
inductive RelayEvent where
  | start
  | take (tsMs : ℤ)
  | published
  | subscribe
  | get (q : ℕ)
  | unsubscribe (q : ℕ)
  | close
  deriving DecidableEq, Repr

namespace IoTRelay

def new (mountpoint : String) : IoTRelay where
  mountpoint := mountpoint
  queue := .new 4096 RelayItem
  subscribers := []
  task := .absent
  closed := false
  handlers := []

def addWebsocketQueue (s : IoTRelay) (q : ℕ) : IoTRelay :=
  { s with subscribers := s.subscribers ++ [q] }

def removeWebsocketQueue (s : IoTRelay) (q : ℕ) : IoTRelay :=
  { s with subscribers := s.subscribers.erase q }

/-- `put_nowait`, with the exception of a full queue caught. -/
def put (s : IoTRelay) (item : RelayItem) : IoTRelay :=
  { s with queue := (s.queue.putNowait item).getD s.queue }

/-- The test of the loop. -/
def loop (s : IoTRelay) : IoTRelay :=
  { s with task := if s.closed then .ended else .waiting }

def start (s : IoTRelay) : IoTRelay :=
  if s.task = .absent then s.loop else s

/-- A task that there is gets cancelled, wherever it waits. -/
def close (s : IoTRelay) : IoTRelay :=
  { s with
    closed := true
    task := if s.task = .absent then .absent else .ended }

/-- The loop over the subscribers: their handlers after it, and the dead. -/
def fanOutLoop (envelope : Bytes) :
    List ℕ → List StreamHandler → List StreamHandler × List ℕ
  | [], handlers => (handlers, [])
  | q :: rest, handlers =>
      match handlers[q]? with
      | none => fanOutLoop envelope rest handlers
      | some h =>
          let offered := h.q.offer envelope
          let out := fanOutLoop envelope rest
            (handlers.set q { h with q := offered.1 })
          if offered.2 then out else (out.1, q :: out.2)

def fanOut (s : IoTRelay) (envelope : Bytes) : IoTRelay :=
  let out := fanOutLoop envelope s.subscribers s.handlers
  out.2.foldl removeWebsocketQueue { s with handlers := out.1 }

/-- What the loop does with an item, up to the wait for MQTT. -/
def envelope (lib : ProtobufLib) (s : IoTRelay) (item : RelayItem)
    (tsMs : ℤ) : IoTRelay :=
  match lib.serialize item s.mountpoint tsMs with
  | .error _ => s.loop
  | .ok envelope => { s with task := .publishing envelope }

def take (lib : ProtobufLib) (s : IoTRelay) (tsMs : ℤ) : Option IoTRelay := do
  let (item, queue) ← s.queue.getNowait
  return { s with queue := queue }.envelope lib item tsMs

/-- The start of `ws_stream` and of `sse_stream`. -/
def subscribe (s : IoTRelay) : IoTRelay :=
  let opened := { s with handlers := s.handlers ++ [StreamHandler.new] }
  opened.addWebsocketQueue s.handlers.length

/-- A handler whose loop is still running. -/
def handler? (s : IoTRelay) (q : ℕ) : Option StreamHandler :=
  s.handlers[q]?.filter fun h => !h.ended

def get (s : IoTRelay) (q : ℕ) : Option IoTRelay := do
  let h ← s.handler? q
  let (data, rest) ← h.q.getNowait
  return { s with
    handlers :=
      s.handlers.set q { h with q := rest, received := h.received ++ [data] } }

/-- The `finally` of a handler. -/
def unsubscribe (s : IoTRelay) (q : ℕ) : Option IoTRelay := do
  let h ← s.handler? q
  let ended :=
    { s with handlers := s.handlers.set q { h with ended := true } }
  return ended.removeWebsocketQueue q

def step (lib : ProtobufLib) (s : IoTRelay) : RelayEvent → Option IoTRelay
  | .start => some s.start
  | .take tsMs => if s.task = .waiting then s.take lib tsMs else none
  | .published =>
      match s.task with
      | .publishing envelope => some (s.fanOut envelope).loop
      | _ => none
  | .subscribe => some s.subscribe
  | .get q => s.get q
  | .unsubscribe q => s.unsubscribe q
  | .close => some s.close

/-! ## The queue -/

variable {lib : ProtobufLib} {s s' : IoTRelay}

theorem mem_put {item i : RelayItem}
    (hmem : i ∈ (s.put item).queue.items) :
    i ∈ s.queue.items ∨ i = item := by
  unfold put at hmem
  cases hput : s.queue.putNowait item with
  | none =>
      rw [hput] at hmem
      exact .inl hmem
  | some queue =>
      rw [hput, Option.getD_some, AsyncQueue.putNowait_items hput,
        List.mem_append, List.mem_singleton] at hmem
      exact hmem

theorem mem_foldl_put {items : List RelayItem} {i : RelayItem}
    (hmem : i ∈ (items.foldl put s).queue.items) :
    i ∈ s.queue.items ∨ i ∈ items := by
  induction items generalizing s with
  | nil => exact .inl hmem
  | cons item items ih =>
      rcases ih hmem with hput | hrest
      · rcases mem_put hput with hold | rfl
        · exact .inl hold
        · exact .inr List.mem_cons_self
      · exact .inr (List.mem_cons_of_mem item hrest)

theorem foldl_put_task (s : IoTRelay) (items : List RelayItem) :
    (items.foldl put s).task = s.task := by
  induction items generalizing s with
  | nil => rfl
  | cons item items ih => exact ih (s.put item)

/-- The fan-out changes nothing but the list and the handlers. -/
theorem fanOut_eq (s : IoTRelay) (envelope : Bytes) :
    ∃ subscribers handlers, s.fanOut envelope =
      { s with subscribers := subscribers, handlers := handlers } := by
  have hremove (dead : List ℕ) (s : IoTRelay) :
      ∃ subscribers, dead.foldl removeWebsocketQueue s =
        { s with subscribers := subscribers } := by
    induction dead generalizing s with
    | nil => exact ⟨s.subscribers, rfl⟩
    | cons q dead ih => exact ih (s.removeWebsocketQueue q)
  obtain ⟨subscribers, hs⟩ := hremove _ _
  exact ⟨subscribers, _, hs⟩

theorem loop_task (s : IoTRelay) (e : Bytes) :
    s.loop.task ≠ .publishing e := by
  unfold loop
  dsimp only
  split_ifs <;> nofun

/-- No step of its own puts anything into the queue, and an envelope that it
waits with is that of an item of the queue. -/
theorem step_spec {event : RelayEvent} (hstep : s.step lib event = some s') :
    s'.queue.items <:+ s.queue.items ∧
      ∀ e, s'.task = .publishing e → s.task = .publishing e ∨
        ∃ item ∈ s.queue.items, ∃ tsMs,
          lib.serialize item s.mountpoint tsMs = .ok e := by
  cases event with
  | start =>
      obtain rfl := Option.some.inj hstep
      unfold start
      split_ifs
      · exact ⟨List.suffix_rfl, fun e he => (s.loop_task e he).elim⟩
      · exact ⟨List.suffix_rfl, fun e he => .inl he⟩
  | take tsMs =>
      obtain ⟨-, htake⟩ := Option.ite_none_right_eq_some.mp hstep
      obtain ⟨⟨item, queue⟩, hget, hs'⟩ := Option.bind_eq_some_iff.mp htake
      have hitems := AsyncQueue.getNowait_eq_some.mp hget
      have hsuffix : queue.items <:+ item :: queue.items :=
        List.suffix_cons item queue.items
      rw [← Option.some.inj hs', hitems]
      unfold envelope
      split
      next hserialize =>
        exact ⟨hsuffix, fun e he => (loop_task _ e he).elim⟩
      next envelope hserialize =>
        refine ⟨hsuffix, ?_⟩
        intro e he
        obtain rfl := RelayTask.publishing.inj he
        exact .inr ⟨item, List.mem_cons_self, tsMs, hserialize⟩
  | published =>
      simp only [step] at hstep
      split at hstep
      next envelope htask =>
        obtain rfl := Option.some.inj hstep
        obtain ⟨subscribers, handlers, hfanOut⟩ := fanOut_eq s envelope
        rw [hfanOut]
        exact ⟨List.suffix_rfl, fun e he => (loop_task _ e he).elim⟩
      · cases hstep
  | subscribe =>
      obtain rfl := Option.some.inj hstep
      exact ⟨List.suffix_rfl, fun e he => .inl he⟩
  | get q =>
      obtain ⟨h, -, hget⟩ := Option.bind_eq_some_iff.mp hstep
      obtain ⟨⟨data, rest⟩, -, hs'⟩ := Option.bind_eq_some_iff.mp hget
      obtain rfl := Option.some.inj hs'
      exact ⟨List.suffix_rfl, fun e he => .inl he⟩
  | unsubscribe q =>
      obtain ⟨h, -, hs'⟩ := Option.bind_eq_some_iff.mp hstep
      obtain rfl := Option.some.inj hs'
      exact ⟨List.suffix_rfl, fun e he => .inl he⟩
  | close =>
      obtain rfl := Option.some.inj hstep
      refine ⟨List.suffix_rfl, ?_⟩
      intro e he
      unfold close at he
      dsimp only at he
      split_ifs at he

end IoTRelay

end BabilCors
