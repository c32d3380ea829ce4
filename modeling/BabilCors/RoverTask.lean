import BabilCors.ByteQueue
import BabilCors.Nmea
import BabilCors.Tiers

/-!
# A rover connection

The session of a rover, what a chunk of the source does to it, and the task
that serves it: the ICY reply, the send loop and the end of the read loop.  A
step of the task runs from one suspension to the next.  The field `socket`
records what the send loop has handed to the writer; no step reads it.
-/

namespace BabilCors

structure RoverSession (F : Type) where
  id : ℕ
  username : String
  tier : Tier
  mountpoint : String
  addr : String
  queue : ByteQueue
  bucket : Option TokenBucket
  epLastTs : Option ℚ
  droppedBytes : ℕ
  sentBytes : ℕ
  lastGga : Option (Gga F)
  writerClosing : Bool
  socket : Bytes

/-- Where the handler of a rover stands once the session has its slot:
`raised` is the end by an exception of the ICY reply. -/
inductive RoverPhase where
  | icyReply
  | streaming
  | ended
  | raised
  deriving DecidableEq, Repr

inductive SendPhase where
  | waiting
  /-- A chunk taken from the queue, before the token bucket lets it pass. -/
  | holding (chunk : Bytes)
  | cleared (chunk : Bytes)
  /-- Handed to the writer, in `drain`. -/
  | draining (chunk : Bytes)
  | stopped
  deriving DecidableEq, Repr

/-- The chunk that has left the queue and not reached the writer. -/
def SendPhase.held : SendPhase → List Bytes
  | .holding chunk | .cleared chunk => [chunk]
  | _ => []

structure RoverTask (F : Type) where
  session : RoverSession F
  ip : String
  phase : RoverPhase
  send : SendPhase
  readDone : Bool

/-- One step of the send loop; the clock is read by `consume` and, when that
refuses, by `time_to_available`. -/
inductive SendEvent where
  | get
  | consume (now ask : ℚ)
  | write (ok : Bool)
  | drain (ok : Bool)
  deriving DecidableEq, Repr

variable {F : Type}

namespace RoverSession

/-- The part of `on_source_data` that concerns one session: the epoch gate,
then the queue, then the count of dropped bytes. -/
def offer (s : RoverSession F) (chunk : Bytes) (now : ℚ) : RoverSession F :=
  if epochGateOk s.epLastTs s.tier.maxEpochsPerMinute now then
    let s :=
      if 0 < s.tier.maxEpochsPerMinute then { s with epLastTs := some now }
      else s
    match s.queue.putNowait chunk with
    | some q => { s with queue := q }
    | none => { s with droppedBytes := s.droppedBytes + chunk.length }
  else
    s

/-- What a kick, a detached source and a failed write do to a session. -/
def closeWriter (s : RoverSession F) : RoverSession F :=
  { s with writerClosing := true }

def hangUp (s : RoverSession F) : RoverSession F :=
  { s.closeWriter with queue := s.queue.close }

end RoverSession

namespace RoverTask

def mountpoint (t : RoverTask F) : String :=
  t.session.mountpoint

def running (t : RoverTask F) : Bool :=
  t.phase = .icyReply || t.phase = .streaming

def offer (t : RoverTask F) (chunk : Bytes) (now : ℚ) : RoverTask F :=
  { t with session := t.session.offer chunk now }

def hangUp (t : RoverTask F) : RoverTask F :=
  { t with session := t.session.hangUp }

def isOpen (t : RoverTask F) : Bool :=
  !(t.session.queue.closed && t.session.writerClosing)

theorem isOpen_hangUp (t : RoverTask F) : t.hangUp.isOpen = false := rfl

theorem hangUp_eq_self_iff (t : RoverTask F) :
    t.hangUp = t ↔ t.isOpen = false := by
  constructor
  · intro hsame
    have hclosed := t.isOpen_hangUp
    rwa [hsame] at hclosed
  · intro hclosed
    have hboth : t.session.queue.closed = true ∧
        t.session.writerClosing = true := by
      simpa [isOpen] using hclosed
    rcases t with ⟨session, ip, phase, send, readDone⟩
    rcases session with ⟨id, username, tier, mountpoint, addr, queue, bucket,
      epLastTs, droppedBytes, sentBytes, lastGga, writerClosing, socket⟩
    rcases queue with ⟨max, buf, bytes, closed, bytes_eq, bytes_le⟩
    rcases hboth with ⟨rfl, rfl⟩
    rfl

/-- The end of `_send_icy_ok`: both loops start, or its exception leaves the
handler. -/
def icyDone (t : RoverTask F) (ok : Bool) : Option (RoverTask F) :=
  if t.phase = .icyReply then
    some { t with phase := if ok then .streaming else .raised }
  else
    none

/-- `_rover_read_loop` returns or raises. -/
def readEnds (t : RoverTask F) : Option (RoverTask F) :=
  if t.phase = .streaming then some { t with readDone := true } else none

/-- One of the two loops has ended: the other is cancelled and the queue is
closed. -/
def finish (t : RoverTask F) : Option (RoverTask F) :=
  if t.phase = .streaming ∧ (t.send = .stopped ∨ t.readDone = true) then
    some
      { t with
        session := { t.session with queue := t.session.queue.close }
        phase := .ended
        send := .stopped }
  else
    none

def getChunk (t : RoverTask F) : Option (RoverTask F) :=
  match t.session.queue.get with
  | none => none
  | some (none, _) => some { t with send := .stopped }
  | some (some chunk, q) =>
      some
        { t with
          session := { t.session with queue := q }
          send := if t.session.bucket.isSome then .holding chunk
            else .cleared chunk }

def consume (t : RoverTask F) (chunk : Bytes) (now ask : ℚ) :
    Option (RoverTask F) :=
  t.session.bucket.map fun bucket =>
    match bucket.consume chunk.length now with
    | (true, bucket) =>
        { t with
          session := { t.session with bucket := some bucket }
          send := .cleared chunk }
    | (false, bucket) =>
        { t with
          session :=
            { t.session with
              bucket := some (bucket.timeToAvailable chunk.length ask).2 } }

def write (t : RoverTask F) (chunk : Bytes) (ok : Bool) : RoverTask F :=
  if ok then
    { t with
      session := { t.session with socket := t.session.socket ++ chunk }
      send := .draining chunk }
  else
    { t with session := t.session.closeWriter, send := .stopped }

def drain (t : RoverTask F) (chunk : Bytes) (ok : Bool) : RoverTask F :=
  if ok then
    { t with
      session :=
        { t.session with sentBytes := t.session.sentBytes + chunk.length }
      send := .waiting }
  else
    { t with session := t.session.closeWriter, send := .stopped }

def sendStep (t : RoverTask F) (event : SendEvent) : Option (RoverTask F) :=
  if t.phase = .streaming then
    match t.send, event with
    | .waiting, .get => t.getChunk
    | .holding chunk, .consume now ask => t.consume chunk now ask
    | .cleared chunk, .write ok => some (t.write chunk ok)
    | .draining chunk, .drain ok => some (t.drain chunk ok)
    | _, _ => none
  else
    none

end RoverTask

/-! ## What a step does to the bytes of a session -/

structure RoverSession.Fresh (s : RoverSession F) : Prop where
  queue : s.queue.buf = []
  socket : s.socket = []

theorem RoverSession.offer_buf (s : RoverSession F) (chunk : Bytes) (now : ℚ) :
    (s.offer chunk now).queue.buf = s.queue.buf ∨
      (s.offer chunk now).queue.buf = s.queue.buf ++ [chunk] := by
  unfold offer
  dsimp only
  split_ifs
  · split
    next hput => exact ByteQueue.putNowait_buf hput
    next => exact .inl rfl
  · split
    next hput => exact ByteQueue.putNowait_buf hput
    next => exact .inl rfl
  · exact .inl rfl

@[simp] theorem RoverSession.offer_socket (s : RoverSession F) (chunk : Bytes)
    (now : ℚ) : (s.offer chunk now).socket = s.socket := by
  unfold offer
  dsimp only
  split_ifs
  · split <;> rfl
  · split <;> rfl
  · rfl

@[simp] theorem RoverSession.offer_mountpoint (s : RoverSession F)
    (chunk : Bytes) (now : ℚ) :
    (s.offer chunk now).mountpoint = s.mountpoint := by
  unfold offer
  dsimp only
  split_ifs
  · split <;> rfl
  · split <;> rfl
  · rfl

/-- The ways in which a step of the send loop moves a chunk. -/
inductive SendOutcome (t t' : RoverTask F) : Prop
  | took (chunk : Bytes) (hbuf : t.session.queue.buf =
        chunk :: t'.session.queue.buf)
      (hsend : t.send.held = []) (hsend' : t'.send.held = [chunk])
      (hsocket : t'.session.socket = t.session.socket)
  | wrote (chunk : Bytes) (hbuf : t'.session.queue.buf = t.session.queue.buf)
      (hsend : t.send.held = [chunk]) (hsend' : t'.send.held = [])
      (hsocket : t'.session.socket = t.session.socket ++ chunk)
  | lost (chunk : Bytes) (hbuf : t'.session.queue.buf = t.session.queue.buf)
      (hsend : t.send.held = [chunk]) (hsend' : t'.send.held = [])
      (hsocket : t'.session.socket = t.session.socket)
  | kept (hbuf : t'.session.queue.buf = t.session.queue.buf)
      (hsend : t'.send.held = t.send.held)
      (hsocket : t'.session.socket = t.session.socket)

/-- What a step of the send loop keeps. -/
structure SameSlot (t t' : RoverTask F) : Prop where
  mountpoint : t'.mountpoint = t.mountpoint
  ip : t'.ip = t.ip
  phase : t'.phase = t.phase

theorem RoverTask.icyDone_eq_some {t t' : RoverTask F} {ok : Bool}
    (hdone : t.icyDone ok = some t') :
    t.phase = .icyReply ∧
      t' = { t with phase := if ok then .streaming else .raised } := by
  unfold icyDone at hdone
  by_cases hphase : t.phase = .icyReply
  · rw [if_pos hphase] at hdone
    exact ⟨hphase, (Option.some.inj hdone).symm⟩
  · rw [if_neg hphase] at hdone
    cases hdone

theorem RoverTask.readEnds_eq_some {t t' : RoverTask F}
    (hdone : t.readEnds = some t') :
    t.phase = .streaming ∧ t' = { t with readDone := true } := by
  unfold readEnds at hdone
  split_ifs at hdone with hphase
  exact ⟨hphase, (Option.some.inj hdone).symm⟩

theorem RoverTask.finish_eq_some {t t' : RoverTask F}
    (hfinish : t.finish = some t') :
    t.phase = .streaming ∧ t'.phase = .ended ∧
      t'.mountpoint = t.mountpoint ∧ t'.ip = t.ip := by
  unfold finish at hfinish
  split_ifs at hfinish with hdone
  cases hfinish
  exact ⟨hdone.1, rfl, rfl, rfl⟩

theorem RoverTask.getChunk_outcome {t t' : RoverTask F}
    (hsend : t.send = .waiting) (hget : t.getChunk = some t') :
    SendOutcome t t' ∧ SameSlot t t' := by
  unfold getChunk at hget
  split at hget
  · cases hget
  next q hq =>
    cases hget
    exact ⟨.kept rfl (by rw [hsend]; rfl) rfl, rfl, rfl, rfl⟩
  next chunk q hq =>
    cases hget
    refine ⟨.took chunk (ByteQueue.get_some hq) (by rw [hsend]; rfl) ?_ rfl,
      rfl, rfl, rfl⟩
    dsimp only
    split_ifs <;> rfl

theorem RoverTask.consume_outcome {t t' : RoverTask F} {chunk : Bytes}
    {now ask : ℚ} (hsend : t.send = .holding chunk)
    (hconsume : t.consume chunk now ask = some t') :
    SendOutcome t t' ∧ SameSlot t t' := by
  obtain ⟨bucket, _, hbody⟩ := Option.map_eq_some_iff.mp hconsume
  split at hbody
  · cases hbody
    exact ⟨.kept rfl (by rw [hsend]; rfl) rfl, rfl, rfl, rfl⟩
  · cases hbody
    exact ⟨.kept rfl rfl rfl, rfl, rfl, rfl⟩

theorem RoverTask.write_outcome {t : RoverTask F} {chunk : Bytes} {ok : Bool}
    (hsend : t.send = .cleared chunk) :
    SendOutcome t (t.write chunk ok) ∧ SameSlot t (t.write chunk ok) := by
  have hheld : t.send.held = [chunk] := by rw [hsend]; rfl
  unfold write
  split_ifs
  · exact ⟨.wrote chunk rfl hheld rfl rfl, rfl, rfl, rfl⟩
  · exact ⟨.lost chunk rfl hheld rfl rfl, rfl, rfl, rfl⟩

theorem RoverTask.drain_outcome {t : RoverTask F} {chunk : Bytes} {ok : Bool}
    (hsend : t.send = .draining chunk) :
    SendOutcome t (t.drain chunk ok) ∧ SameSlot t (t.drain chunk ok) := by
  unfold drain
  split_ifs
  · exact ⟨.kept rfl (by rw [hsend]; rfl) rfl, rfl, rfl, rfl⟩
  · exact ⟨.kept rfl (by rw [hsend]; rfl) rfl, rfl, rfl, rfl⟩

theorem RoverTask.sendStep_outcome {t t' : RoverTask F} {event : SendEvent}
    (hstep : t.sendStep event = some t') :
    SendOutcome t t' ∧ SameSlot t t' := by
  unfold sendStep at hstep
  split_ifs at hstep
  split at hstep
  next hsend => exact getChunk_outcome hsend hstep
  next hsend => exact consume_outcome hsend hstep
  next hsend =>
    cases hstep
    exact write_outcome hsend
  next hsend =>
    cases hstep
    exact drain_outcome hsend
  · cases hstep

end BabilCors
