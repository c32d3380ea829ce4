import BabilCors.Conveyor
import BabilCors.FixedLimits
import BabilCors.StreamIntegrity

/-!
# The bytes of every rover

A chunk of the source reaches a rover through its queue and its send loop.  The
session is a conveyor: what passes the epoch gate is accepted or dropped, the
send loop takes one chunk at a time, and the counters of the session add up
what is done and what was dropped.
-/

namespace BabilCors

open Conveyor Py TransitionRuns

def byteCount (chunks : List Bytes) : ℕ :=
  (chunks.map List.length).sum

@[simp] theorem byteCount_append (chunks chunks' : List Bytes) :
    byteCount (chunks ++ chunks') = byteCount chunks + byteCount chunks' := by
  simp [byteCount]

@[simp] theorem byteCount_singleton (chunk : Bytes) :
    byteCount [chunk] = chunk.length := by
  simp [byteCount]

theorem ByteQueue.putNowait_accepts {q q' : ByteQueue} {b : Bytes}
    (hmax : 0 < q.max) (hput : q.putNowait b = some q') :
    q'.buf = q.buf ++ [b] ∧ q'.max = q.max := by
  unfold putNowait at hput
  split_ifs at hput with hclosed hzero hlong hfull
  · omega
  · obtain rfl := Option.some.inj hput
    exact ⟨rfl, rfl⟩

theorem ByteQueue.get_max {q q' : ByteQueue} {b? : Option Bytes}
    (hget : q.get = some (b?, q')) : q'.max = q.max := by
  unfold get at hget
  split at hget
  · split_ifs at hget
    cases hget
    rfl
  · cases hget
    rfl

variable {F : Type}

/-! ## One chunk -/

def RoverSession.epochAfter (s : RoverSession F) (now : ℚ) : Option ℚ :=
  if 0 < s.tier.maxEpochsPerMinute then some now else s.epLastTs

/-- The ways in which a session takes a chunk that it is offered. -/
inductive OfferOutcome (s : RoverSession F) (chunk : Bytes) (now : ℚ) :
    RoverSession F → Prop
  | gated (hgate : epochGateOk s.epLastTs s.tier.maxEpochsPerMinute now =
        false) : OfferOutcome s chunk now s
  | accepted (q : ByteQueue)
      (hgate : epochGateOk s.epLastTs s.tier.maxEpochsPerMinute now = true)
      (hput : s.queue.putNowait chunk = some q) :
      OfferOutcome s chunk now
        { s with epLastTs := s.epochAfter now, queue := q }
  | dropped
      (hgate : epochGateOk s.epLastTs s.tier.maxEpochsPerMinute now = true)
      (hput : s.queue.putNowait chunk = none) :
      OfferOutcome s chunk now
        { s with
          epLastTs := s.epochAfter now
          droppedBytes := s.droppedBytes + chunk.length }

theorem RoverSession.offer_outcome (s : RoverSession F) (chunk : Bytes)
    (now : ℚ) : OfferOutcome s chunk now (s.offer chunk now) := by
  unfold offer
  cases hgate : epochGateOk s.epLastTs s.tier.maxEpochsPerMinute now with
  | false => exact .gated hgate
  | true =>
      have hepoch : (if 0 < s.tier.maxEpochsPerMinute then
          { s with epLastTs := some now } else s) =
            { s with epLastTs := s.epochAfter now } := by
        unfold epochAfter
        split_ifs <;> rfl
      rw [if_pos rfl, hepoch]
      dsimp only
      cases hput : s.queue.putNowait chunk with
      | some q => exact .accepted q hgate hput
      | none => exact .dropped hgate hput

theorem RoverSession.offer_counts (s : RoverSession F) (chunk : Bytes)
    (now : ℚ) :
    (s.offer chunk now).sentBytes = s.sentBytes ∧
      s.droppedBytes ≤ (s.offer chunk now).droppedBytes := by
  have houtcome := s.offer_outcome chunk now
  generalize s.offer chunk now = s' at houtcome ⊢
  cases houtcome with
  | gated hgate => exact ⟨rfl, le_refl _⟩
  | accepted q hgate hput => exact ⟨rfl, le_refl _⟩
  | dropped hgate hput => exact ⟨rfl, Nat.le_add_right _ _⟩

theorem RoverSession.offer_tier (s : RoverSession F) (chunk : Bytes)
    (now : ℚ) : (s.offer chunk now).tier = s.tier := by
  have houtcome := s.offer_outcome chunk now
  generalize s.offer chunk now = s' at houtcome ⊢
  cases houtcome with
  | gated hgate => rfl
  | accepted q hgate hput => rfl
  | dropped hgate hput => rfl

/-- A step of the send loop writes only these fields of the session. -/
theorem RoverTask.sendStep_session {t t' : RoverTask F} {event : SendEvent}
    (hstep : t.sendStep event = some t') :
    ∃ queue bucket socket sentBytes writerClosing,
      t.session.sentBytes ≤ sentBytes ∧
        t'.session = { t.session with
          queue := queue
          bucket := bucket
          socket := socket
          sentBytes := sentBytes
          writerClosing := writerClosing } := by
  unfold sendStep at hstep
  split_ifs at hstep
  split at hstep
  · unfold getChunk at hstep
    split at hstep
    · cases hstep
    · obtain rfl := Option.some.inj hstep
      exact ⟨_, _, _, _, _, le_refl _, rfl⟩
    · obtain rfl := Option.some.inj hstep
      exact ⟨_, _, _, _, _, le_refl _, rfl⟩
  · rcases Option.map_eq_some_iff.mp hstep with ⟨bucket, _, hbody⟩
    split at hbody
    · subst hbody
      exact ⟨_, _, _, _, _, le_refl _, rfl⟩
    · subst hbody
      exact ⟨_, _, _, _, _, le_refl _, rfl⟩
  · obtain rfl := Option.some.inj hstep
    unfold write
    split_ifs
    · exact ⟨_, _, _, _, _, le_refl _, rfl⟩
    · exact ⟨_, _, _, _, _, le_refl _, rfl⟩
  · obtain rfl := Option.some.inj hstep
    unfold drain
    split_ifs
    · exact ⟨_, _, _, _, _, Nat.le_add_right _ _, rfl⟩
    · exact ⟨_, _, _, _, _, le_refl _, rfl⟩
  · cases hstep

theorem RoverTask.sendStep_counts {t t' : RoverTask F} {event : SendEvent}
    (hstep : t.sendStep event = some t') :
    t.session.sentBytes ≤ t'.session.sentBytes ∧
      t'.session.droppedBytes = t.session.droppedBytes := by
  obtain ⟨_, _, _, _, _, hle, hsession⟩ := sendStep_session hstep
  rw [hsession]
  exact ⟨hle, rfl⟩

/-! ## One session -/

/-- The chunk that the send loop has taken out; a stopped loop may have lost
one. -/
inductive InHand : SendPhase → List Bytes → Prop
  | waiting : InHand .waiting []
  | holding (chunk : Bytes) : InHand (.holding chunk) [chunk]
  | cleared (chunk : Bytes) : InHand (.cleared chunk) [chunk]
  | draining (chunk : Bytes) : InHand (.draining chunk) [chunk]
  | stopped (hand : List Bytes) : InHand .stopped hand

/-- What `on_source_data` does with the chunk for one session. -/
def RoverSession.offerMove (s : RoverSession F) (chunk : Bytes) (now : ℚ) :
    List (Move Bytes) :=
  if epochGateOk s.epLastTs s.tier.maxEpochsPerMinute now then
    if (s.queue.putNowait chunk).isSome then [.accept chunk]
    else [.drop chunk]
  else []

/-- The chunk that a step of the send loop takes out of the queue. -/
def RoverTask.sendMove (t : RoverTask F) : SendEvent → List (Move Bytes)
  | .get =>
      match t.session.queue.get with
      | some (some chunk, _) => [.take chunk]
      | _ => []
  | _ => []

/-- The accounts of a session. -/
structure Conserves (log : List (Move Bytes)) (t : RoverTask F) : Prop where
  max : 0 < t.session.queue.max
  account : ∃ done hand, Balanced log done hand t.session.queue.buf ∧
    InHand t.send hand ∧ t.session.sentBytes = byteCount done ∧
    t.session.droppedBytes = byteCount (dropped log)

namespace Conserves

variable {log : List (Move Bytes)} {t t' : RoverTask F}

theorem of_sameQueue (ht : Conserves log t)
    (hqueue : t'.session.queue.buf = t.session.queue.buf)
    (hmax : t'.session.queue.max = t.session.queue.max)
    (hsend : ∀ hand, InHand t.send hand → InHand t'.send hand)
    (hsent : t'.session.sentBytes = t.session.sentBytes)
    (hdropped : t'.session.droppedBytes = t.session.droppedBytes) :
    Conserves log t' := by
  rcases ht.account with ⟨done, hand, hlog, hhand, hdone, hlost⟩
  constructor
  · rw [hmax]
    exact ht.max
  · refine ⟨done, hand, ?_, hsend hand hhand, ?_, ?_⟩
    · rw [hqueue]
      exact hlog
    · rw [hsent, hdone]
    · rw [hdropped, hlost]

theorem congr (ht : Conserves log t)
    (hqueue : t'.session.queue.buf = t.session.queue.buf)
    (hmax : t'.session.queue.max = t.session.queue.max)
    (hsend : t'.send = t.send)
    (hsent : t'.session.sentBytes = t.session.sentBytes)
    (hdropped : t'.session.droppedBytes = t.session.droppedBytes) :
    Conserves log t' := by
  refine ht.of_sameQueue hqueue hmax ?_ hsent hdropped
  intro hand hhand
  rw [hsend]
  exact hhand

theorem stop (ht : Conserves log t)
    (hqueue : t'.session.queue.buf = t.session.queue.buf)
    (hmax : t'.session.queue.max = t.session.queue.max)
    (hsend : t'.send = .stopped)
    (hsent : t'.session.sentBytes = t.session.sentBytes)
    (hdropped : t'.session.droppedBytes = t.session.droppedBytes) :
    Conserves log t' := by
  refine ht.of_sameQueue hqueue hmax ?_ hsent hdropped
  intro hand _
  rw [hsend]
  exact .stopped hand

theorem offer (ht : Conserves log t) (chunk : Bytes) (now : ℚ) :
    Conserves (log ++ t.session.offerMove chunk now) (t.offer chunk now) := by
  rcases ht.account with ⟨done, hand, hlog, hhand, hdone, hlost⟩
  have houtcome := t.session.offer_outcome chunk now
  unfold RoverTask.offer RoverSession.offerMove
  generalize t.session.offer chunk now = s' at houtcome ⊢
  cases houtcome with
  | gated hgate =>
      simpa [hgate] using ht
  | accepted q hgate hput =>
      rcases ByteQueue.putNowait_accepts ht.max hput with ⟨hbuf, hmax⟩
      simp only [hgate, hput, Option.isSome_some, if_true]
      constructor
      · rw [hmax]
        exact ht.max
      · refine ⟨done, hand, ?_, hhand, hdone, ?_⟩
        · rw [hbuf]
          exact hlog.accept chunk
        · simpa [dropped_concat, Move.dropped?] using hlost
  | dropped hgate hput =>
      simp only [hgate, hput, Option.isSome_none, Bool.false_eq_true,
        if_true, if_false]
      constructor
      · exact ht.max
      · refine ⟨done, hand, hlog.drop chunk, hhand, hdone, ?_⟩
        simp [dropped_concat, Move.dropped?, hlost]

theorem getChunk (ht : Conserves log t) (hsend : t.send = .waiting)
    (hget : t.getChunk = some t') :
    Conserves (log ++ t.sendMove .get) t' := by
  rcases ht.account with ⟨done, hand, hlog, hhand, hdone, hlost⟩
  rw [hsend] at hhand
  cases hhand
  unfold RoverTask.getChunk at hget
  unfold RoverTask.sendMove
  cases hq : t.session.queue.get with
  | none =>
      rw [hq] at hget
      cases hget
  | some result =>
      rcases result with ⟨_ | chunk, q⟩
      · rw [hq] at hget
        obtain rfl := Option.some.inj hget
        dsimp only
        rw [List.append_nil]
        exact ht.stop rfl rfl rfl rfl rfl
      · rw [hq] at hget
        obtain rfl := Option.some.inj hget
        have hbuf := ByteQueue.get_some hq
        rw [hbuf] at hlog
        constructor
        · rw [ByteQueue.get_max hq]
          exact ht.max
        · refine ⟨done, [chunk], hlog.take, ?_, hdone, ?_⟩
          · dsimp only
            split_ifs
            · exact .holding chunk
            · exact .cleared chunk
          · simpa [dropped_concat, Move.dropped?] using hlost

theorem consume {chunk : Bytes} {now ask : ℚ} (ht : Conserves log t)
    (hsend : t.send = .holding chunk)
    (hconsume : t.consume chunk now ask = some t') : Conserves log t' := by
  rcases Option.map_eq_some_iff.mp hconsume with ⟨bucket, _, hbody⟩
  rcases ht.account with ⟨done, hand, hlog, hhand, hdone, hlost⟩
  rw [hsend] at hhand
  cases hhand
  split at hbody
  · subst hbody
    exact ⟨ht.max, done, [chunk], hlog, .cleared chunk, hdone, hlost⟩
  · subst hbody
    exact ht.congr rfl rfl rfl rfl rfl

theorem write {chunk : Bytes} (ht : Conserves log t)
    (hsend : t.send = .cleared chunk) (ok : Bool) :
    Conserves log (t.write chunk ok) := by
  rcases ht.account with ⟨done, hand, hlog, hhand, hdone, hlost⟩
  rw [hsend] at hhand
  cases hhand
  unfold RoverTask.write
  split_ifs
  · exact ⟨ht.max, done, [chunk], hlog, .draining chunk, hdone, hlost⟩
  · exact ht.stop rfl rfl rfl rfl rfl

theorem drain {chunk : Bytes} (ht : Conserves log t)
    (hsend : t.send = .draining chunk) (ok : Bool) :
    Conserves log (t.drain chunk ok) := by
  rcases ht.account with ⟨done, hand, hlog, hhand, hdone, hlost⟩
  rw [hsend] at hhand
  cases hhand
  unfold RoverTask.drain
  split_ifs
  · refine ⟨ht.max, done ++ [chunk], [], hlog.complete, .waiting, ?_, hlost⟩
    simp [hdone]
  · exact ht.stop rfl rfl rfl rfl rfl

theorem sendStep {event : SendEvent} (ht : Conserves log t)
    (hstep : t.sendStep event = some t') :
    Conserves (log ++ t.sendMove event) t' := by
  unfold RoverTask.sendStep at hstep
  split_ifs at hstep
  split at hstep
  next hsend => exact ht.getChunk hsend hstep
  next hsend =>
    simpa [RoverTask.sendMove] using ht.consume hsend hstep
  next ok hsend =>
    obtain rfl := Option.some.inj hstep
    simpa [RoverTask.sendMove] using ht.write hsend ok
  next ok hsend =>
    obtain rfl := Option.some.inj hstep
    simpa [RoverTask.sendMove] using ht.drain hsend ok
  · cases hstep

theorem finish (ht : Conserves log t) (hfinish : t.finish = some t') :
    Conserves log t' := by
  unfold RoverTask.finish at hfinish
  split_ifs at hfinish
  obtain rfl := Option.some.inj hfinish
  exact ht.stop rfl rfl rfl rfl rfl

/-- Nothing that was offered is lost from the counters, and chunks leave the
queue in the order of their acceptance. -/
theorem bytes (ht : Conserves log t) :
    (∃ hand, InHand t.send hand ∧ hand.length ≤ 1 ∧
      byteCount (offered log) = t.session.sentBytes +
        t.session.droppedBytes + t.session.queue.bytes + byteCount hand) ∧
      accepted log = taken log ++ t.session.queue.buf := by
  rcases ht.account with ⟨done, hand, hlog, hhand, hdone, hlost⟩
  constructor
  · refine ⟨hand, hhand, hlog.hand, ?_⟩
    rw [hdone, hlost, t.session.queue.bytes_eq]
    exact hlog.weight List.length
  · exact hlog.fifo

end Conserves

/-! ## The moves of a run -/

namespace Caster

/-- What an event does with the chunks of one rover. -/
def roverMoves (i : ℕ) (c : Caster F) : Event F → List (Move Bytes)
  | .sourceRead j chunk now =>
      match c.sources[j]?, c.rovers[i]? with
      | some s, some t =>
          let out := (Rtcm.feed s.parserBuf chunk).frames.flatMap
            Rtcm.RtcmFrame.raw
          if out ≠ [] ∧ i ∈ (c.hub s.mountpoint).rovers then
            t.session.offerMove out now
          else []
      | _, _ => []
  | .roverSend k event =>
      if k = i then (c.rovers[i]?).toList.flatMap fun t => t.sendMove event
      else []
  | _ => []

def ValidTiers (cfg : CasterCfg F) : Prop :=
  ∀ name tier, cfg.tiers.get? name = some tier → 0 ≤ tier.maxQueueBytes

/-- A reload takes a configuration that has been validated. -/
def ReloadsValid [PyFloat F] (_ : Caster F) (event : Event F) : Prop :=
  ∀ cfg mtls disabled, event = .reload cfg mtls disabled →
    validateConfig cfg = .ok ()

theorem validTiers_of_validateConfig [PyFloat F] {cfg : CasterCfg F}
    (hvalid : validateConfig cfg = .ok ()) : ValidTiers cfg := by
  have herrors := validateConfig_eq_ok.mp hvalid
  simp only [configErrors, List.append_eq_nil_iff,
    List.flatMap_eq_nil_iff] at herrors
  have htiers := herrors.1.1.1.1.2
  intro name tier hget
  have htier := htiers (name, tier) (PyDict.mem_of_get? hget)
  by_contra hnegative
  simp [tierErrors, not_le.mp hnegative] at htier

theorem queueLimit_pos {c : Caster F} (hvalid : ValidTiers c.cfg)
    (user : UserRecord) : 0 < (c.tierOf user).queueLimit := by
  unfold tierOf
  cases htier : c.cfg.tiers.get? user.tier with
  | none => decide
  | some tier =>
      have hle := hvalid user.tier tier htier
      simp only [Option.getD_some, Tier.queueLimit]
      split_ifs
      · decide
      · omega

/-- A rover request changes no session, or it adds one with an empty queue,
counters of zero and an epoch gate that has not let anything through. -/
theorem handleRover_joins [PyFloat F] [Crypto] (c : Caster F)
    (req : RoverRequest) (now : ℚ) :
    SameStreams c (c.handleRover req now) ∨
      ∃ base user session ip, SameStreams c base ∧
        session.queue = .new (c.tierOf user).queueLimit ∧
        session.sentBytes = 0 ∧ session.droppedBytes = 0 ∧
        session.epLastTs = none ∧
        c.handleRover req now = base.join session ip := by
  rcases c.handleRover_outcome req now with ⟨n, k, d, hsame | ⟨user, session,
    ip, -, -, hqueue, hsent, hdropped, hlast, hjoin⟩⟩
  · rw [hsame]
    exact .inl ⟨rfl, rfl, rfl, rfl, rfl⟩
  · refine .inr ⟨_, user, session, ip, ?_, hqueue, hsent, hdropped, hlast,
      hjoin⟩
    exact ⟨rfl, rfl, rfl, rfl, rfl⟩

/-! ## Every session in every run -/

/-- The log accounts for the bytes of one rover, if it has come already. -/
structure Accounts (i : ℕ) (log : List (Move Bytes)) (c : Caster F) :
    Prop where
  tiers : ValidTiers c.cfg
  before : c.rovers[i]? = none → log = []
  session : ∀ t, c.rovers[i]? = some t → Conserves log t

namespace Accounts

variable {i : ℕ} {log : List (Move Bytes)} {c c' : Caster F}

/-- A step that changes each session on its own, and adds none. -/
theorem update (h : Accounts i log c) (htiers : ValidTiers c'.cfg)
    (f : ℕ → RoverTask F → RoverTask F)
    (hrovers : ∀ k : ℕ, c'.rovers[k]? = (c.rovers[k]?).map (f k))
    (moves : List (Move Bytes))
    (hnone : c.rovers[i]? = none → moves = [])
    (hsome : ∀ t, c.rovers[i]? = some t → Conserves log t →
      Conserves (log ++ moves) (f i t)) : Accounts i (log ++ moves) c' := by
  constructor
  · exact htiers
  · intro hno
    have hold : c.rovers[i]? = none := by
      rw [hrovers] at hno
      exact Option.map_eq_none_iff.mp hno
    rw [h.before hold, hnone hold]
    rfl
  · intro t' ht'
    rw [hrovers] at ht'
    rcases Option.map_eq_some_iff.mp ht' with ⟨t, ht, rfl⟩
    exact hsome t ht (h.session t ht)

theorem setRover (h : Accounts i log c) {k : ℕ} {t t' : RoverTask F}
    (htiers : ValidTiers c'.cfg) (ht : c.rovers[k]? = some t)
    (hrovers : c'.rovers = (c.setRover k t').rovers)
    (moves : List (Move Bytes)) (hother : k ≠ i → moves = [])
    (hconserves : k = i → ∀ log, Conserves log t →
      Conserves (log ++ moves) t') : Accounts i (log ++ moves) c' := by
  have hk : k < c.rovers.length := (List.getElem?_eq_some_iff.mp ht).1
  apply h.update htiers (fun n s => if k = n then t' else s) ?_ moves
  · intro hno
    apply hother
    rintro rfl
    rw [ht] at hno
    cases hno
  · intro s hs hlog
    by_cases hki : k = i
    · subst hki
      rw [if_pos rfl]
      rw [ht] at hs
      obtain rfl := Option.some.inj hs
      exact hconserves rfl log hlog
    · rw [if_neg hki, hother hki, List.append_nil]
      exact hlog
  · intro n
    rw [hrovers, c.getElem?_setRover k n t' hk]
    by_cases hkn : k = n
    · subst hkn
      simp [ht]
    · simp [hkn]

theorem same (h : Accounts i log c) (htiers : ValidTiers c'.cfg)
    (hrovers : c'.rovers = c.rovers) : Accounts i log c' := by
  constructor
  · exact htiers
  · rw [hrovers]
    exact h.before
  · rw [hrovers]
    exact h.session

theorem hangUp (h : Accounts i log c) (members : List ℕ)
    (hcfg : c'.cfg = c.cfg)
    (hrovers : c'.rovers = (c.mapRovers members RoverTask.hangUp).rovers) :
    Accounts i log c' := by
  have htiers : ValidTiers c'.cfg := by
    rw [hcfg]
    exact h.tiers
  have hupdated := h.update htiers
    (fun k t => if k ∈ members then t.hangUp else t)
    (fun k => by rw [hrovers, c.getElem?_mapRovers]) [] (fun _ => rfl)
    (fun t _ hlog => by
      rw [List.append_nil]
      split_ifs
      · exact hlog.congr rfl rfl rfl rfl rfl
      · exact hlog)
  rwa [List.append_nil] at hupdated

theorem join (h : Accounts i log c) {base : Caster F} {user : UserRecord}
    {session : RoverSession F} {ip : String} (hbase : SameStreams c base)
    (hqueue : session.queue = .new (c.tierOf user).queueLimit)
    (hsent : session.sentBytes = 0) (hdropped : session.droppedBytes = 0)
    (hcfg : (base.join session ip).cfg = c.cfg) :
    Accounts i log (base.join session ip) := by
  have hrovers : (base.join session ip).rovers =
      c.rovers ++ [⟨session, ip, .icyReply, .waiting, false⟩] := by
    rw [← hbase.rovers]
    rfl
  have hmax : 0 < session.queue.max := by
    rw [hqueue]
    exact Int.pos_iff_toNat_pos.mp (queueLimit_pos h.tiers user)
  constructor
  · rw [hcfg]
    exact h.tiers
  · intro hno
    apply h.before
    rw [hrovers, List.getElem?_eq_none_iff] at hno
    rw [List.getElem?_eq_none_iff]
    rw [List.length_append] at hno
    omega
  · intro t ht
    rw [hrovers, List.getElem?_append] at ht
    split_ifs at ht with hlt
    · exact h.session t ht
    · have hbefore := h.before (List.getElem?_eq_none_iff.mpr
        (Nat.not_lt.mp hlt))
      have htnew : t = ⟨session, ip, .icyReply, .waiting, false⟩ := by
        cases hk : i - c.rovers.length with
        | zero => simpa [hk] using ht.symm
        | succ k => simp [hk] at ht
      rw [hbefore, htnew]
      refine ⟨hmax, [], [], ?_, .waiting, ?_, ?_⟩
      · rw [hqueue]
        exact balanced_nil
      · exact hsent
      · exact hdropped

theorem detachSource (h : Accounts i log c) (m : String) :
    Accounts i log (c.detachSource m) :=
  h.hangUp (c.hub m).rovers rfl rfl

theorem sourceRead {j : ℕ} {s : SourceTask} (h : Accounts i log c)
    (hs : c.sources[j]? = some s) (chunk : Bytes) (now : ℚ)
    (hcfg : (c.sourceRead j s chunk now).cfg = c.cfg) :
    Accounts i (log ++ roverMoves i c (.sourceRead j chunk now))
      (c.sourceRead j s chunk now) := by
  have htiers : ValidTiers (c.sourceRead j s chunk now).cfg := by
    rw [hcfg]
    exact h.tiers
  apply h.update htiers _ (c.getElem?_sourceRead j s chunk now)
  · intro hno
    simp [roverMoves, hs, hno]
  · intro t ht hlog
    simp only [roverMoves, hs, ht]
    split_ifs
    · exact hlog.offer _ now
    · simpa using hlog

theorem step [PyFloat F] [Crypto] {event : Event F} (h : Accounts i log c)
    (hmeets : ReloadsValid c event) (hstep : c.step event = some c') :
    Accounts i (log ++ roverMoves i c event) c' := by
  have hcfg (hkeeps : event.KeepsCfg) : c'.cfg = c.cfg :=
    step_cfg hkeeps hstep
  have hkept (hkeeps : event.KeepsCfg) : ValidTiers c'.cfg := by
    rw [hcfg hkeeps]
    exact h.tiers
  cases step_outcome hstep with
  | roverRequest req now =>
      simp only [roverMoves, List.append_nil]
      rcases c.handleRover_joins req now with hsame | ⟨base, user, session,
        ip, hbase, hqueue, hsent, hdropped, _, hjoin⟩
      · exact h.same (hkept trivial) hsame.rovers
      · rw [hjoin] at hcfg ⊢
        exact h.join hbase hqueue hsent hdropped (hcfg trivial)
  | roverIcy k ok t t' ht hdone =>
      rcases RoverTask.icyDone_eq_some hdone with ⟨_, rfl⟩
      exact h.setRover (hkept trivial) ht rfl [] (fun _ => rfl)
        fun _ log hlog => by
          rw [List.append_nil]
          exact hlog.congr rfl rfl rfl rfl rfl
  | roverReadEnds k t t' ht hdone =>
      rcases RoverTask.readEnds_eq_some hdone with ⟨_, rfl⟩
      exact h.setRover (hkept trivial) ht rfl [] (fun _ => rfl)
        fun _ log hlog => by
          rw [List.append_nil]
          exact hlog.congr rfl rfl rfl rfl rfl
  | roverFinish k t t' ht hfinish =>
      exact h.setRover (hkept trivial) ht rfl [] (fun _ => rfl)
        fun _ log hlog => by simpa using hlog.finish hfinish
  | roverSend k event t t' ht hsend =>
      apply h.setRover (hkept trivial) ht rfl
      · intro hother
        simp [roverMoves, hother]
      · rintro rfl log hlog
        simpa [roverMoves, ht] using hlog.sendStep hsend
  | sourceRequest first addr hasCert =>
      have hrovers := (c.handleSource_keeps first addr hasCert).1
      simpa [roverMoves] using h.same (hkept trivial) hrovers
  | sourceIcy j ok s hs hphase =>
      simp only [roverMoves, List.append_nil]
      exact h.same (hkept trivial) rfl
  | sourceDrain j ok s hs hphase =>
      simp only [roverMoves, List.append_nil]
      exact h.same (hkept trivial) rfl
  | sourceRead j chunk now s hs hphase =>
      exact h.sourceRead hs chunk now (hcfg trivial)
  | sourceEnds j s hs hphase =>
      have hset : Accounts i log (c.setSource j { s with phase := .ended }) :=
        h.same h.tiers rfl
      simpa [roverMoves] using hset.detachSource s.mountpoint
  | kick connId mountpoint =>
      rw [kickRover_eq]
      simp only [roverMoves, List.append_nil]
      exact h.hangUp _ rfl rfl
  | close =>
      simp only [roverMoves, List.append_nil]
      exact close_preserves (fun _ m hc => hc.detachSource m) c h
  | reload cfg mtls disabled =>
      have htiers := validTiers_of_validateConfig
        (hmeets cfg mtls disabled rfl)
      simp only [roverMoves, List.append_nil]
      exact h.same htiers rfl

end Accounts

end Caster

end BabilCors
