import BabilCors.Caster
import BabilCors.LossyChannel
import BabilCors.TransitionRuns

/-!
# What a rover receives

The session of a rover is a lossy channel of RTCM frames.  Its queue and the
chunk in the send loop's hands are the pending batches, the bytes at the
socket are the delivered frames, and what the parsers of the hub have emitted
is what was offered.  Every step of the server keeps this correspondence, so
the socket of a rover always carries complete frames in the order of their
emission.
-/

namespace BabilCors

open LossyChannel Py Rtcm TransitionRuns

def rawBytes (frames : List RtcmFrame) : Bytes :=
  frames.flatMap RtcmFrame.raw

variable {F : Type}

/-! ## One session -/

/-- The session's bytes are those of a channel's frames. -/
structure Carries (ch : Channel RtcmFrame) (t : RoverTask F) : Prop where
  socket : t.session.socket = rawBytes ch.delivered
  pending : t.send.held ++ t.session.queue.buf = ch.pending.map rawBytes

/-- The session carries a faithful part of the emitted frames. -/
def Delivers (emitted : List RtcmFrame) (t : RoverTask F) : Prop :=
  ∃ ch : Channel RtcmFrame, ch.offered = emitted ∧ ch.Faithful ∧ Carries ch t

theorem Delivers.of_fresh {emitted : List RtcmFrame} {t : RoverTask F}
    (hfresh : t.session.Fresh) (hsend : t.send = .waiting) :
    Delivers emitted t := by
  refine ⟨.openAt emitted, rfl, Channel.faithful_openAt emitted, ?_, ?_⟩
  · exact hfresh.socket
  · simp [hsend, SendPhase.held, hfresh.queue, Channel.openAt]

theorem Delivers.congr {emitted : List RtcmFrame} {t t' : RoverTask F}
    (h : Delivers emitted t) (hsocket : t'.session.socket = t.session.socket)
    (hbuf : t'.session.queue.buf = t.session.queue.buf)
    (hsend : t'.send.held = t.send.held) : Delivers emitted t' := by
  obtain ⟨ch, hoffered, hfaithful, hcarries⟩ := h
  exact ⟨ch, hoffered, hfaithful, hsocket.trans hcarries.socket,
    by rw [hsend, hbuf, hcarries.pending]⟩

theorem Delivers.extend {emitted : List RtcmFrame} {t : RoverTask F}
    (h : Delivers emitted t) (frames : List RtcmFrame) :
    Delivers (emitted ++ frames) t := by
  obtain ⟨ch, rfl, hfaithful, hcarries⟩ := h
  exact ⟨ch.drop frames, rfl, hfaithful.drop frames, hcarries.socket,
    hcarries.pending⟩

theorem Delivers.offer {emitted : List RtcmFrame} {t : RoverTask F}
    (h : Delivers emitted t) (frames : List RtcmFrame) (now : ℚ) :
    Delivers (emitted ++ frames) (t.offer (rawBytes frames) now) := by
  rcases t.session.offer_buf (rawBytes frames) now with hkept | hput
  · exact (h.extend frames).congr (t.session.offer_socket _ _) hkept rfl
  · obtain ⟨ch, rfl, hfaithful, hcarries⟩ := h
    refine ⟨ch.take frames, rfl, hfaithful.take frames, ?_, ?_⟩
    · exact (t.session.offer_socket _ _).trans hcarries.socket
    · calc t.send.held ++ (t.session.offer (rawBytes frames) now).queue.buf
          = t.send.held ++ t.session.queue.buf ++ [rawBytes frames] := by
            rw [hput, List.append_assoc]
        _ = (ch.pending ++ [frames]).map rawBytes := by
            rw [hcarries.pending, List.map_append, List.map_singleton]

theorem Carries.head_pending {ch : Channel RtcmFrame} {t : RoverTask F}
    {chunk : Bytes} (hcarries : Carries ch t) (hsend : t.send.held = [chunk]) :
    ∃ batch rest, ch.pending = batch :: rest ∧ chunk = rawBytes batch ∧
      t.session.queue.buf = rest.map rawBytes := by
  have hpending := hcarries.pending
  rw [hsend, List.singleton_append] at hpending
  cases hbatches : ch.pending with
  | nil => simp [hbatches] at hpending
  | cons batch rest =>
      rw [hbatches, List.map_cons, List.cons.injEq] at hpending
      exact ⟨batch, rest, rfl, hpending.1, hpending.2⟩

theorem Delivers.wrote {emitted : List RtcmFrame} {t t' : RoverTask F}
    {chunk : Bytes} (h : Delivers emitted t) (hsend : t.send.held = [chunk])
    (hsend' : t'.send.held = [])
    (hbuf : t'.session.queue.buf = t.session.queue.buf)
    (hsocket : t'.session.socket = t.session.socket ++ chunk) :
    Delivers emitted t' := by
  obtain ⟨ch, rfl, hfaithful, hcarries⟩ := h
  obtain ⟨batch, rest, hbatches, rfl, hrest⟩ := hcarries.head_pending hsend
  refine ⟨ch.deliver, rfl, hfaithful.deliver, ?_, ?_⟩
  · simp [hsocket, hcarries.socket, Channel.deliver, hbatches, rawBytes]
  · simp [hsend', hbuf, hrest, Channel.deliver, hbatches]

theorem Delivers.lost {emitted : List RtcmFrame} {t t' : RoverTask F}
    {chunk : Bytes} (h : Delivers emitted t) (hsend : t.send.held = [chunk])
    (hsend' : t'.send.held = [])
    (hbuf : t'.session.queue.buf = t.session.queue.buf)
    (hsocket : t'.session.socket = t.session.socket) :
    Delivers emitted t' := by
  obtain ⟨ch, rfl, hfaithful, hcarries⟩ := h
  obtain ⟨batch, rest, hbatches, _, hrest⟩ := hcarries.head_pending hsend
  refine ⟨ch.lose, rfl, hfaithful.lose, hsocket.trans hcarries.socket, ?_⟩
  simp [hsend', hbuf, hrest, Channel.lose, hbatches]

theorem Delivers.sendStep {emitted : List RtcmFrame} {t t' : RoverTask F}
    {event : SendEvent} (h : Delivers emitted t)
    (hstep : t.sendStep event = some t') : Delivers emitted t' := by
  rcases (RoverTask.sendStep_outcome hstep).1 with
    ⟨chunk, hbuf, hsend, hsend', hsocket⟩ |
    ⟨chunk, hbuf, hsend, hsend', hsocket⟩ |
    ⟨chunk, hbuf, hsend, hsend', hsocket⟩ | ⟨hbuf, hsend, hsocket⟩
  · obtain ⟨ch, hoffered, hfaithful, hcarries⟩ := h
    refine ⟨ch, hoffered, hfaithful, hsocket.trans hcarries.socket, ?_⟩
    simpa [hsend, hsend', hbuf] using hcarries.pending
  · exact h.wrote hsend hsend' hbuf hsocket
  · exact h.lost hsend hsend' hbuf hsocket
  · exact h.congr hsocket hbuf hsend

theorem Delivers.finish {emitted : List RtcmFrame} {t t' : RoverTask F}
    (h : Delivers emitted t) (hfinish : t.finish = some t') :
    Delivers emitted t' := by
  unfold RoverTask.finish at hfinish
  split_ifs at hfinish
  cases hfinish
  -- the cancelled send loop drops the chunk it holds
  rcases hheld : t.send with _ | chunk | chunk | chunk | _
  · exact h.congr rfl rfl (by rw [hheld]; rfl)
  · exact h.lost (by rw [hheld]; rfl) rfl rfl rfl
  · exact h.lost (by rw [hheld]; rfl) rfl rfl rfl
  · exact h.congr rfl rfl (by rw [hheld]; rfl)
  · exact h.congr rfl rfl (by rw [hheld])

theorem Delivers.delivered {emitted : List RtcmFrame} {t : RoverTask F}
    (h : Delivers emitted t) :
    ∃ frames, t.session.socket = rawBytes frames ∧ frames.Sublist emitted := by
  obtain ⟨ch, rfl, hfaithful, hcarries⟩ := h
  exact ⟨ch.delivered, hcarries.socket, hfaithful.delivered_sublist⟩

/-! ## The invariant of the server -/

structure StreamInv (c : Caster F) : Prop where
  member : ∀ m, ∀ i ∈ (c.hub m).rovers,
    ∃ t, c.rovers[i]? = some t ∧ t.mountpoint = m
  delivers : ∀ (i : ℕ) (t : RoverTask F), c.rovers[i]? = some t →
    Delivers (c.hub t.mountpoint).emitted t
  valid : ∀ m, ∀ fr ∈ (c.hub m).emitted, IsFrame fr.raw

namespace StreamInv

theorem initial (cfg : CasterCfg F) (mtls : Bool)
    (disabled : List (Json F)) : StreamInv (Caster.new cfg mtls disabled) where
  member m i hi := by simp [MountpointHub.new] at hi
  delivers i t hi := by simp [Caster.new] at hi
  valid m fr hfr := by simp [MountpointHub.new] at hfr

theorem same {c c' : Caster F} (h : StreamInv c)
    (hsame : Caster.SameStreams c c') : StreamInv c' := by
  have hhub (m : String) : c'.hub m = c.hub m := by
    rw [Caster.hub, hsame.mountpoints, Caster.hub]
  refine ⟨fun m i hi => ?_, fun i t ht => ?_, fun m => ?_⟩
  · rw [hsame.rovers]
    exact h.member m i (hhub m ▸ hi)
  · rw [hhub]
    exact h.delivers i t (hsame.rovers ▸ ht)
  · rw [hhub]
    exact h.valid m

/-- The shape of every step that starts no session: each task is changed on its
own, no hub gains a member, and a hub may emit more frames. -/
theorem update {c c' : Caster F} (h : StreamInv c)
    (f : ℕ → RoverTask F → RoverTask F) (frames : String → List RtcmFrame)
    (hrovers : ∀ i : ℕ, c'.rovers[i]? = (c.rovers[i]?).map (f i))
    (hmount : ∀ (i : ℕ) (t : RoverTask F), c.rovers[i]? = some t →
      (f i t).mountpoint = t.mountpoint)
    (hmember : ∀ m, ∀ i ∈ (c'.hub m).rovers, i ∈ (c.hub m).rovers)
    (hemitted : ∀ m, (c'.hub m).emitted = (c.hub m).emitted ++ frames m)
    (hvalid : ∀ m, ∀ fr ∈ frames m, IsFrame fr.raw)
    (hdelivers : ∀ (i : ℕ) (t : RoverTask F), c.rovers[i]? = some t →
      Delivers (c.hub t.mountpoint).emitted t →
      Delivers ((c.hub t.mountpoint).emitted ++ frames t.mountpoint)
        (f i t)) : StreamInv c' := by
  refine ⟨fun m i hi => ?_, fun i t' ht' => ?_, fun m fr hfr => ?_⟩
  · obtain ⟨t, ht, hm⟩ := h.member m i (hmember m i hi)
    refine ⟨f i t, ?_, (hmount i t ht).trans hm⟩
    rw [hrovers, ht, Option.map_some]
  · rw [hrovers] at ht'
    obtain ⟨t, ht, rfl⟩ := Option.map_eq_some_iff.mp ht'
    rw [hmount i t ht, hemitted]
    exact hdelivers i t ht (h.delivers i t ht)
  · rw [hemitted] at hfr
    rcases List.mem_append.mp hfr with hold | hnew
    · exact h.valid m fr hold
    · exact hvalid m fr hnew

/-- A step of one task, after which no hub has more members and no hub has
emitted more. -/
theorem setRover {c c' : Caster F} (h : StreamInv c) {i : ℕ}
    {t t' : RoverTask F} (ht : c.rovers[i]? = some t)
    (hrovers : c'.rovers = (c.setRover i t').rovers)
    (hmember : ∀ m, ∀ k ∈ (c'.hub m).rovers, k ∈ (c.hub m).rovers)
    (hemitted : ∀ m, (c'.hub m).emitted = (c.hub m).emitted)
    (hmount : t'.mountpoint = t.mountpoint)
    (hdelivers : ∀ emitted, Delivers emitted t → Delivers emitted t') :
    StreamInv c' := by
  have hi : i < c.rovers.length := (List.getElem?_eq_some_iff.mp ht).1
  refine h.update (fun k s => if i = k then t' else s) (fun _ => [])
    (fun k => ?_) (fun k s hs => ?_) hmember (by simpa using hemitted)
    (by simp) (fun k s hs hdel => ?_)
  · rw [hrovers, c.getElem?_setRover i k t' hi]
    split_ifs with hk
    · rw [← hk, ht, Option.map_some]
    · simp
  · split_ifs with hk
    · rw [← hk, ht] at hs
      cases hs
      exact hmount
    · rfl
  · rw [List.append_nil]
    split_ifs with hk
    · rw [← hk, ht] at hs
      cases hs
      exact hdelivers _ hdel
    · exact hdel

theorem join {c : Caster F} (h : StreamInv c) {session : RoverSession F}
    (hfresh : session.Fresh) (ip : String) :
    StreamInv (c.join session ip) := by
  let t : RoverTask F := ⟨session, ip, .icyReply, .waiting, false⟩
  have hrovers : (c.join session ip).rovers = c.rovers ++ [t] := rfl
  have hemitted (m : String) :
      ((c.join session ip).hub m).emitted = (c.hub m).emitted := by
    rw [Caster.hub_join]
    split_ifs with hm
    · rw [← hm]
    · rfl
  have hold {i : ℕ} {s : RoverTask F} (hs : c.rovers[i]? = some s) :
      (c.join session ip).rovers[i]? = some s := by
    rw [hrovers, List.getElem?_append_left
      (List.getElem?_eq_some_iff.mp hs).1, hs]
  refine ⟨fun m i hi => ?_, fun i s hs => ?_, fun m => ?_⟩
  · rw [Caster.hub_join] at hi
    split_ifs at hi with hm
    · rcases List.mem_append.mp hi with hin | hnew
      · obtain ⟨s, hs, hsm⟩ := h.member _ i hin
        exact ⟨s, hold hs, hsm.trans hm⟩
      · rw [List.mem_singleton.mp hnew, hrovers]
        exact ⟨t, by simp, hm⟩
    · obtain ⟨s, hs, hsm⟩ := h.member m i hi
      exact ⟨s, hold hs, hsm⟩
  · rw [hemitted]
    rw [hrovers, List.getElem?_append] at hs
    split_ifs at hs with hi
    · exact h.delivers i s hs
    · have hst : s = t := by
        cases hk : i - c.rovers.length with
        | zero => simpa [hk] using hs.symm
        | succ k => simp [hk] at hs
      rw [hst]
      exact Delivers.of_fresh hfresh rfl
  · rw [hemitted]
    exact h.valid m

theorem hangUp {c : Caster F} (h : StreamInv c) (members : List ℕ) :
    StreamInv (c.mapRovers members RoverTask.hangUp) := by
  refine h.update (fun i t => if i ∈ members then t.hangUp else t)
    (fun _ => []) (c.getElem?_mapRovers members _) (fun i t _ => ?_)
    (fun _ _ hi => hi) (by simp) (by simp) (fun i t _ hdel => ?_)
  · split_ifs <;> rfl
  · rw [List.append_nil]
    split_ifs
    · exact hdel.congr rfl rfl rfl
    · exact hdel

theorem detachSource {c : Caster F} (h : StreamInv c) (m : String) :
    StreamInv (c.detachSource m) := by
  have hhung := h.hangUp (c.hub m).rovers
  refine hhung.update (fun _ t => t) (fun _ => [])
    (by simp [Caster.detachSource])
    (fun _ _ _ => rfl) (fun m' i hi => ?_) (fun m' => ?_) (by simp)
    (fun _ _ _ hdel => by simpa using hdel)
  · rw [Caster.detachSource, Caster.hub_setHub] at hi
    split_ifs at hi with hm
    · exact hm ▸ hi
    · exact hi
  · rw [Caster.detachSource, Caster.hub_setHub, List.append_nil]
    split_ifs with hm
    · rw [← hm]
      rfl
    · rfl

/-- The fan-out: the members of the hub are offered what its parser emitted,
and every other session of the mountpoint only sees the history grow. -/
theorem sourceRead {c : Caster F} (h : StreamInv c) (j : ℕ)
    (s : SourceTask) (chunk : Bytes) (now : ℚ) :
    StreamInv (c.sourceRead j s chunk now) := by
  let frames := (feed s.parserBuf chunk).frames
  let members := (c.hub s.mountpoint).rovers
  let offered (i : ℕ) (t : RoverTask F) : RoverTask F :=
    if rawBytes frames ≠ [] ∧ i ∈ members then
      t.offer (rawBytes frames) now
    else t
  refine h.update offered (fun m => if s.mountpoint = m then frames else [])
    (fun i => ?_) (fun i t _ => ?_) (fun m i hi => ?_) (fun m => ?_)
    (fun m fr hfr => ?_) (fun i t ht hdel => ?_)
  · exact c.getElem?_sourceRead j s chunk now i
  · unfold offered
    split_ifs
    · exact t.session.offer_mountpoint _ _
    · rfl
  · rwa [(c.hub_sourceRead j s chunk now m).1] at hi
  · rw [(c.hub_sourceRead j s chunk now m).2]
  · split_ifs at hfr
    · exact feed_isFrame s.parserBuf chunk fr hfr
    · cases hfr
  · unfold offered
    split_ifs with hm hmember hmember
    · exact hdel.offer frames now
    · exact hdel.extend frames
    · obtain ⟨t', ht', hm'⟩ := h.member s.mountpoint i hmember.2
      rw [ht] at ht'
      cases ht'
      exact absurd hm'.symm hm
    · exact hdel.extend []

theorem leave {c : Caster F} (h : StreamInv c) {i : ℕ} {t t' : RoverTask F}
    (ht : c.rovers[i]? = some t) (hfinish : t.finish = some t') :
    StreamInv (c.leave i t') := by
  have hmount : t'.mountpoint = t.mountpoint :=
    (RoverTask.finish_eq_some hfinish).2.2.1
  refine h.setRover ht rfl (fun m k hk => ?_) (fun m => ?_) hmount
    (fun emitted hdel => hdel.finish hfinish)
  · rw [Caster.hub_leave] at hk
    split_ifs at hk with hm
    · rw [← hm]
      exact (List.mem_filter.mp hk).1
    · exact hk
  · rw [Caster.hub_leave]
    split_ifs with hm
    · rw [← hm]
    · rfl

theorem setSource {c : Caster F} (h : StreamInv c) (j : ℕ)
    (s : SourceTask) : StreamInv (c.setSource j s) :=
  ⟨h.member, h.delivers, h.valid⟩

theorem kickRover {c : Caster F} (h : StreamInv c) (connId : ℤ)
    (mountpoint : String) : StreamInv (c.kickRover connId mountpoint).2 := by
  unfold Caster.kickRover
  split
  · exact h
  · dsimp only
    split
    · exact h
    next i _ => exact h.hangUp [i]

theorem handleSource {c : Caster F} (h : StreamInv c) (first : Bytes)
    (addr : String) (hasCert : Bool) :
    StreamInv (c.handleSource first addr hasCert) := by
  have hrovers := (c.handleSource_keeps first addr hasCert).1
  have hhub (m : String) :
      ((c.handleSource first addr hasCert).hub m).rovers =
          (c.hub m).rovers ∧
        ((c.handleSource first addr hasCert).hub m).emitted =
          (c.hub m).emitted := by
    rcases c.handleSource_outcome first addr hasCert with ⟨_, hhub⟩ |
      ⟨attached, _, hhub⟩
    · simp [hhub]
    · rw [hhub]
      split_ifs with hm
      · rw [← hm]
        exact ⟨rfl, rfl⟩
      · exact ⟨rfl, rfl⟩
  exact h.update (fun _ t => t) (fun _ => []) (by simp [hrovers])
    (fun _ _ _ => rfl) (fun m i hi => (hhub m).1 ▸ hi)
    (fun m => by rw [(hhub m).2, List.append_nil]) (by simp)
    (fun _ _ _ hdel => by simpa using hdel)

theorem step [PyFloat F] [Crypto] {c c' : Caster F} {event : Caster.Event F}
    (h : StreamInv c) (hstep : c.step event = some c') : StreamInv c' := by
  cases Caster.step_outcome hstep with
  | roverRequest req now =>
      rcases c.handleRover_cases req now with hsame | ⟨base, session, ip,
        hsame, hfresh, _, hjoin⟩
      · exact h.same hsame
      · rw [hjoin]
        exact (h.same hsame).join hfresh ip
  | roverIcy i ok t t' ht hdone =>
      obtain ⟨_, rfl⟩ := RoverTask.icyDone_eq_some hdone
      exact h.setRover ht rfl (fun _ _ hk => hk) (fun _ => rfl) rfl
        (fun _ hdel => hdel.congr rfl rfl rfl)
  | roverReadEnds i t t' ht hdone =>
      obtain ⟨_, rfl⟩ := RoverTask.readEnds_eq_some hdone
      exact h.setRover ht rfl (fun _ _ hk => hk) (fun _ => rfl) rfl
        (fun _ hdel => hdel.congr rfl rfl rfl)
  | roverFinish i t t' ht hfinish =>
      exact h.leave ht hfinish
  | roverSend i event t t' ht hsend =>
      exact h.setRover ht rfl
        (fun m k hk => by rwa [(Caster.hub_recordSentBytes _ _ _ m).1] at hk)
        (fun m => (Caster.hub_recordSentBytes _ _ _ m).2)
        (RoverTask.sendStep_outcome hsend).2.mountpoint
        (fun _ hdel => hdel.sendStep hsend)
  | sourceRequest first addr hasCert =>
      exact h.handleSource first addr hasCert
  | sourceIcy j ok s hs hphase =>
      exact h.setSource j _
  | sourceDrain j ok s hs hphase =>
      exact h.setSource j _
  | sourceRead j chunk now s hs hphase =>
      exact h.sourceRead j s chunk now
  | sourceEnds j s hs hphase =>
      exact (h.setSource j _).detachSource s.mountpoint
  | kick connId mountpoint =>
      exact h.kickRover connId mountpoint
  | close =>
      exact Caster.close_preserves (fun _ m hc => hc.detachSource m) c h
  | reload cfg mtls disabled =>
      exact h.same ⟨rfl, rfl, rfl, rfl, rfl⟩

end StreamInv

/-! ## The result -/

/-- At every moment of every run, what the send loop has handed to a rover's
socket is a concatenation of complete, valid frames, and these are a
subsequence of the frames that the parsers have emitted for the rover's hub. -/
theorem socket_carries_frames [PyFloat F] [Crypto] {cfg : CasterCfg F}
    {mtls : Bool} {disabled : List (Json F)} {c : Caster F}
    (hreach : Reachable Caster.step (Caster.new cfg mtls disabled) c)
    {i : ℕ} {t : RoverTask F} (ht : c.rovers[i]? = some t) :
    ∃ frames : List RtcmFrame,
      t.session.socket = frames.flatMap RtcmFrame.raw ∧
        frames.Sublist (c.hub t.mountpoint).emitted ∧
        ∀ fr ∈ frames, IsFrame fr.raw := by
  have hinv : StreamInv c :=
    hreach.invariant (StreamInv.initial cfg mtls disabled)
      (fun _ _ _ hc hstep => hc.step hstep)
  obtain ⟨frames, hsocket, hsublist⟩ := (hinv.delivers i t ht).delivered
  exact ⟨frames, hsocket, hsublist,
    fun fr hfr => hinv.valid _ fr (hsublist.subset hfr)⟩

def oneFrameRun : List (Caster.Event ℚ) :=
  [.roverRequest Caster.roverHello 0, .roverIcy 0 true,
    .sourceRequest Caster.sourceHello "10.0.0.2:6000" false,
    .sourceIcy 0 true, .sourceDrain 0 true,
    .sourceRead 0 [211, 0, 2, 62, 208, 164, 224, 0] 0,
    .roverSend 0 .get, .roverSend 0 (.write true)]

theorem oneFrameRun_socket :
    (run (@Caster.step ℚ _ noDigest) Caster.oneUser oneFrameRun).map
        (fun c => c.rovers.map fun t => t.session.socket) =
      some [[211, 0, 2, 62, 208, 164, 224, 0]] := by
  decide +kernel

theorem socket_carries_frames_oneFrame :
    ∃ (c : Caster ℚ) (t : RoverTask ℚ),
      run (@Caster.step ℚ _ noDigest) Caster.oneUser oneFrameRun = some c ∧
        c.rovers[0]? = some t ∧
        t.session.socket = [211, 0, 2, 62, 208, 164, 224, 0] ∧
        ∃ frames : List RtcmFrame,
          t.session.socket = frames.flatMap RtcmFrame.raw ∧
            frames.Sublist (c.hub t.mountpoint).emitted ∧
            ∀ fr ∈ frames, IsFrame fr.raw := by
  obtain ⟨c, hrun, hsockets⟩ := Option.map_eq_some_iff.mp oneFrameRun_socket
  obtain ⟨t, hrovers, hsocket⟩ : ∃ t, c.rovers = [t] ∧
      t.session.socket = [211, 0, 2, 62, 208, 164, 224, 0] := by
    simpa [List.map_eq_singleton_iff] using hsockets
  have ht : c.rovers[0]? = some t := by rw [hrovers]; rfl
  exact ⟨c, t, hrun, ht, hsocket,
    @socket_carries_frames ℚ _ noDigest _ _ _ c ⟨oneFrameRun, hrun⟩ 0 t ht⟩

end BabilCors
