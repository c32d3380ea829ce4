import BabilCors.ByteConservation
import BabilCors.ListSums

/-!
# The totals of the hubs

A hub adds up what its rovers have been sent and what they have dropped, over
all the sessions that it has had.  With the accounts of each session, this is
the conservation of bytes over every run of the server.
-/

namespace BabilCors

open Conveyor ListSums Py TransitionRuns

variable {F : Type}

namespace Caster

/-! ## The totals of every hub -/

/-- The sessions that the hub has had. -/
def sessionsOf (c : Caster F) (m : String) : List (RoverTask F) :=
  c.rovers.filter fun t => t.mountpoint = m

theorem sum_sessionsOf (c : Caster F) (m : String) (w : RoverTask F → ℕ) :
    ((c.sessionsOf m).map w).sum =
      (c.rovers.map fun t => if t.mountpoint = m then w t else 0).sum := by
  simp [sessionsOf, List.sum_map_ite]

structure HubTotals (c : Caster F) : Prop where
  tx : ∀ m, (c.hub m).txBytesTotal =
    ((c.sessionsOf m).map fun t => t.session.sentBytes).sum
  dropped : ∀ m, (c.hub m).droppedBytesTotal =
    ((c.sessionsOf m).map fun t => t.session.droppedBytes).sum

/-- What the totals of the hubs depend on. -/
def tally (c : Caster F) : List (String × ℕ × ℕ) :=
  c.rovers.map fun t =>
    (t.mountpoint, t.session.sentBytes, t.session.droppedBytes)

theorem hub_setHub_congr {α : Type} {c : Caster F} {m : String}
    {h : MountpointHub} (f : MountpointHub → α) (hf : f h = f (c.hub m))
    (m' : String) : f ((c.setHub m h).hub m') = f (c.hub m') := by
  rw [hub_setHub]
  split_ifs with hm
  · rw [← hm]
    exact hf
  · rfl

/-- What a step without traffic leaves as it is. -/
structure SameTotals (c c' : Caster F) : Prop where
  tally : c'.tally = c.tally
  tx : ∀ m, (c'.hub m).txBytesTotal = (c.hub m).txBytesTotal
  dropped : ∀ m, (c'.hub m).droppedBytesTotal = (c.hub m).droppedBytesTotal

theorem HubTotals.quiet {c c' : Caster F} (h : HubTotals c)
    (hsame : SameTotals c c') : HubTotals c' := by
  have hsum (w : String × ℕ × ℕ → ℕ) :
      (c'.rovers.map fun t => w (t.mountpoint, t.session.sentBytes,
          t.session.droppedBytes)).sum =
        (c.rovers.map fun t => w (t.mountpoint, t.session.sentBytes,
          t.session.droppedBytes)).sum := by
    have htally := congrArg (fun l => (l.map w).sum) hsame.tally
    simpa [Caster.tally, Function.comp_def] using htally
  constructor
  · intro m
    rw [hsame.tx, h.tx, sum_sessionsOf, sum_sessionsOf]
    exact (hsum fun x => if x.1 = m then x.2.1 else 0).symm
  · intro m
    rw [hsame.dropped, h.dropped, sum_sessionsOf, sum_sessionsOf]
    exact (hsum fun x => if x.1 = m then x.2.2 else 0).symm

theorem tally_setRover {c : Caster F} {i : ℕ} {t t' : RoverTask F}
    (ht : c.rovers[i]? = some t) (hmount : t'.mountpoint = t.mountpoint)
    (hsent : t'.session.sentBytes = t.session.sentBytes)
    (hdropped : t'.session.droppedBytes = t.session.droppedBytes) :
    (c.setRover i t').tally = c.tally := by
  apply List.ext_getElem?
  intro k
  have hi : i < c.rovers.length := (List.getElem?_eq_some_iff.mp ht).1
  simp only [tally, List.getElem?_map]
  rw [c.getElem?_setRover i k t' hi]
  split_ifs with hk
  · rw [← hk, ht, Option.map_some, Option.map_some, hmount, hsent, hdropped]
  · rfl

theorem SameTotals.hangUp (c : Caster F) (members : List ℕ) :
    SameTotals c (c.mapRovers members RoverTask.hangUp) := by
  constructor
  · apply List.ext_getElem?
    intro k
    simp only [Caster.tally, List.getElem?_map]
    rw [c.getElem?_mapRovers]
    cases c.rovers[k]? with
    | none => rfl
    | some t =>
        simp only [Option.map_some]
        split_ifs <;> rfl
  · exact fun _ => rfl
  · exact fun _ => rfl

theorem SameTotals.of_hubs {c c' : Caster F} (hrovers : c'.rovers = c.rovers)
    (htx : ∀ m, (c'.hub m).txBytesTotal = (c.hub m).txBytesTotal)
    (hdropped : ∀ m, (c'.hub m).droppedBytesTotal =
      (c.hub m).droppedBytesTotal) : SameTotals c c' := by
  constructor
  · unfold Caster.tally
    rw [hrovers]
  · exact htx
  · exact hdropped

theorem HubTotals.detachSource {c : Caster F} (h : HubTotals c) (m : String) :
    HubTotals (c.detachSource m) := by
  have hrovers : (c.detachSource m).rovers =
      (c.mapRovers (c.hub m).rovers RoverTask.hangUp).rovers := rfl
  apply (h.quiet (.hangUp c (c.hub m).rovers)).quiet
  apply SameTotals.of_hubs hrovers
  · exact hub_setHub_congr MountpointHub.txBytesTotal rfl
  · exact hub_setHub_congr MountpointHub.droppedBytesTotal rfl

theorem HubTotals.same {c c' : Caster F} (h : HubTotals c)
    (hsame : SameStreams c c') : HubTotals c' := by
  apply h.quiet
  apply SameTotals.of_hubs hsame.rovers
  · intro m
    rw [hub, hsame.mountpoints, hub]
  · intro m
    rw [hub, hsame.mountpoints, hub]

theorem HubTotals.join {c : Caster F} (h : HubTotals c)
    {session : RoverSession F} (hsent : session.sentBytes = 0)
    (hdropped : session.droppedBytes = 0) (ip : String) :
    HubTotals (c.join session ip) := by
  have hrovers : (c.join session ip).rovers =
      c.rovers ++ [⟨session, ip, .icyReply, .waiting, false⟩] := rfl
  constructor
  · intro m
    rw [sum_sessionsOf, hrovers, hub_join]
    have htx := h.tx m
    rw [sum_sessionsOf] at htx
    split_ifs with hm
    · rw [hm]
      simp [htx, hsent]
    · simp [htx, hsent]
  · intro m
    rw [sum_sessionsOf, hrovers, hub_join]
    have hlost := h.dropped m
    rw [sum_sessionsOf] at hlost
    split_ifs with hm
    · rw [hm]
      simp [hlost, hdropped]
    · simp [hlost, hdropped]

theorem HubTotals.roverSend {c : Caster F} (h : HubTotals c) {i : ℕ}
    {event : SendEvent} {t t' : RoverTask F} (ht : c.rovers[i]? = some t)
    (hsend : t.sendStep event = some t') :
    HubTotals ((c.setRover i t').recordSentBytes t.mountpoint
      (t'.session.sentBytes - t.session.sentBytes)) := by
  have hmount := (RoverTask.sendStep_outcome hsend).2.mountpoint
  rcases RoverTask.sendStep_counts hsend with ⟨hsent, hdropped⟩
  constructor
  · intro m
    have htx := h.tx m
    have hset := sum_map_set ht t' fun t =>
      if t.mountpoint = m then t.session.sentBytes else 0
    rw [sum_sessionsOf] at htx ⊢
    rw [recordSentBytes, hub_setHub]
    simp only [rovers_setHub, hub_setRover]
    simp only [hmount] at hset
    change _ = ((c.rovers.set i t').map _).sum
    split_ifs at hset ⊢ with hm
    · rw [hm]
      dsimp only
      omega
    · omega
  · intro m
    have hlost := h.dropped m
    have hset := sum_map_set ht t' fun t =>
      if t.mountpoint = m then t.session.droppedBytes else 0
    have hhub : (((c.setRover i t').recordSentBytes t.mountpoint
        (t'.session.sentBytes - t.session.sentBytes)).hub
          m).droppedBytesTotal = (c.hub m).droppedBytesTotal :=
      hub_setHub_congr MountpointHub.droppedBytesTotal (by rfl) m
    rw [sum_sessionsOf] at hlost ⊢
    simp only [hmount, hdropped] at hset
    change _ = ((c.rovers.set i t').map _).sum
    omega

/-- The bytes that a session drops when its hub fans a chunk out. -/
def lostBytes (members : List ℕ) (chunk : Bytes) (now : ℚ) (i : ℕ)
    (t : RoverTask F) : ℕ :=
  if i ∈ members then
    (t.session.offer chunk now).droppedBytes - t.session.droppedBytes
  else 0

theorem mountpoint_offered (members : List ℕ) (chunk : Bytes) (now : ℚ)
    (i : ℕ) (t : RoverTask F) :
    (if i ∈ members then t.offer chunk now else t).mountpoint =
      t.mountpoint := by
  split_ifs
  · exact t.session.offer_mountpoint chunk now
  · rfl

theorem sum_dropped_offered (c : Caster F) (members : List ℕ) (chunk : Bytes)
    (now : ℚ) (p : String → Bool)
    (hmembers : ∀ i ∈ members, ∀ t, c.rovers[i]? = some t →
      p t.mountpoint = true) :
    ((c.mapRovers members (·.offer chunk now)).rovers.map fun t =>
        if p t.mountpoint then t.session.droppedBytes else 0).sum =
      (c.rovers.map fun t =>
        if p t.mountpoint then t.session.droppedBytes else 0).sum +
        (c.rovers.mapIdx (lostBytes members chunk now)).sum := by
  apply sum_map_mapIdx
  intro i t ht
  rw [mountpoint_offered]
  unfold lostBytes
  by_cases hmember : i ∈ members
  · have hle := (t.session.offer_counts chunk now).2
    simp only [hmember, if_true, hmembers i hmember t ht]
    change (t.session.offer chunk now).droppedBytes = _
    omega
  · simp [hmember]

theorem HubTotals.onSourceData {c : Caster F} (h : HubTotals c) {m : String}
    (hmember : ∀ i ∈ (c.hub m).rovers,
      ∃ t, c.rovers[i]? = some t ∧ t.mountpoint = m)
    (chunk : Bytes) (now : ℚ) : HubTotals (c.onSourceData m chunk now) := by
  have hmount : ∀ i ∈ (c.hub m).rovers, ∀ t, c.rovers[i]? = some t →
      t.mountpoint = m := by
    intro i hi t ht
    rcases hmember i hi with ⟨t', ht', hm⟩
    rw [ht] at ht'
    rwa [Option.some.inj ht']
  unfold Caster.onSourceData
  split_ifs with hempty
  · exact h
  dsimp only
  constructor
  · intro m'
    rw [sum_sessionsOf]
    refine (hub_setHub_congr MountpointHub.txBytesTotal (by rfl) m').trans ?_
    refine (h.tx m').trans ?_
    rw [sum_sessionsOf]
    apply congrArg List.sum
    symm
    apply map_mapIdx_eq
    intro i t ht
    rw [mountpoint_offered]
    split_ifs with hm hi
    · exact (t.session.offer_counts chunk now).1
    · rfl
    · rfl
  · intro m'
    have hlost := h.dropped m'
    rw [sum_sessionsOf] at hlost ⊢
    rw [hub_setHub]
    simp only [rovers_setHub]
    by_cases hm : m = m'
    · subst hm
      have hall := c.sum_dropped_offered (c.hub m).rovers chunk now
        (fun _ => true) fun _ _ _ _ => rfl
      have hhub := c.sum_dropped_offered (c.hub m).rovers chunk now
        (· = m) fun i hi t ht => by simpa using hmount i hi t ht
      simp only [if_true, decide_eq_true_eq] at hall hhub ⊢
      omega
    · rw [if_neg hm, hub_mapRovers, hlost]
      apply congrArg List.sum
      symm
      apply map_mapIdx_eq
      intro i t ht
      rw [mountpoint_offered]
      by_cases hi : i ∈ (c.hub m).rovers
      · rw [hmount i hi t ht, if_neg hm, if_neg hm]
      · rw [if_neg hi]

namespace HubTotals

variable {c c' : Caster F}

theorem initial (cfg : CasterCfg F) (mtls : Bool)
    (disabled : List (Json F)) : HubTotals (new cfg mtls disabled) := by
  constructor
  · intro m
    rfl
  · intro m
    rfl

theorem setRover (h : HubTotals c) {i : ℕ} {t t' : RoverTask F}
    (ht : c.rovers[i]? = some t) (hmount : t'.mountpoint = t.mountpoint)
    (hsent : t'.session.sentBytes = t.session.sentBytes)
    (hdropped : t'.session.droppedBytes = t.session.droppedBytes) :
    HubTotals (c.setRover i t') :=
  h.quiet ⟨tally_setRover ht hmount hsent hdropped, fun _ => rfl,
    fun _ => rfl⟩

theorem leave (h : HubTotals c) {i : ℕ} {t t' : RoverTask F}
    (ht : c.rovers[i]? = some t) (hfinish : t.finish = some t') :
    HubTotals (c.leave i t') := by
  have hset : HubTotals (c.setRover i t') := by
    unfold RoverTask.finish at hfinish
    split_ifs at hfinish
    obtain rfl := Option.some.inj hfinish
    exact h.setRover ht rfl rfl rfl
  have hrovers : (c.leave i t').rovers = (c.setRover i t').rovers := rfl
  apply hset.quiet
  apply SameTotals.of_hubs hrovers
  · exact hub_setHub_congr MountpointHub.txBytesTotal rfl
  · exact hub_setHub_congr MountpointHub.droppedBytesTotal rfl

theorem handleSource (h : HubTotals c) (first : Bytes) (addr : String)
    (hasCert : Bool) : HubTotals (c.handleSource first addr hasCert) := by
  have hkeeps (count : MountpointHub → ℕ)
      (hcount : ∀ hub : MountpointHub,
        count { hub with sourceAddr := some addr } = count hub)
      (m : String) :
      count ((c.handleSource first addr hasCert).hub m) =
        count (c.hub m) := by
    cases c.handleSource_outcome first addr hasCert with
    | refused _ hhub => rw [hhub]
    | attached m' _ hhub =>
        rw [hhub]
        split_ifs with hm
        · rw [← hm]
          exact hcount _
        · rfl
  apply h.quiet
  apply SameTotals.of_hubs (c.handleSource_keeps first addr hasCert).1
  · exact hkeeps MountpointHub.txBytesTotal fun _ => rfl
  · exact hkeeps MountpointHub.droppedBytesTotal fun _ => rfl

theorem sourceRead (h : HubTotals c) {j : ℕ} {s : SourceTask}
    (hmember : ∀ i ∈ (c.hub s.mountpoint).rovers,
      ∃ t, c.rovers[i]? = some t ∧ t.mountpoint = s.mountpoint)
    (chunk : Bytes) (now : ℚ) : HubTotals (c.sourceRead j s chunk now) := by
  unfold Caster.sourceRead
  dsimp only
  apply onSourceData
  · apply h.quiet
    apply SameTotals.of_hubs (by rfl)
    · exact hub_setHub_congr MountpointHub.txBytesTotal rfl
    · exact hub_setHub_congr MountpointHub.droppedBytesTotal rfl
  · rw [hub_setHub, if_pos rfl]
    exact hmember

theorem step [PyFloat F] [Crypto] {event : Event F} (h : HubTotals c)
    (hinv : StreamInv c) (hstep : c.step event = some c') :
    HubTotals c' := by
  cases step_outcome hstep with
  | roverRequest req now =>
      rcases c.handleRover_joins req now with hsame | ⟨base, user, session,
        ip, hbase, _, hsent, hdropped, _, hjoin⟩
      · exact h.same hsame
      · rw [hjoin]
        exact (h.same hbase).join hsent hdropped ip
  | roverIcy i ok t t' ht hdone =>
      rcases RoverTask.icyDone_eq_some hdone with ⟨_, rfl⟩
      exact h.setRover ht rfl rfl rfl
  | roverReadEnds i t t' ht hdone =>
      rcases RoverTask.readEnds_eq_some hdone with ⟨_, rfl⟩
      exact h.setRover ht rfl rfl rfl
  | roverFinish i t t' ht hfinish => exact h.leave ht hfinish
  | roverSend i event t t' ht hsend => exact h.roverSend ht hsend
  | sourceRequest first addr hasCert => exact h.handleSource first addr hasCert
  | sourceIcy j ok s hs hphase =>
      exact h.quiet ⟨rfl, fun _ => rfl, fun _ => rfl⟩
  | sourceDrain j ok s hs hphase =>
      exact h.quiet ⟨rfl, fun _ => rfl, fun _ => rfl⟩
  | sourceRead j chunk now s hs hphase =>
      exact h.sourceRead (hinv.member s.mountpoint) chunk now
  | sourceEnds j s hs hphase =>
      have hset : HubTotals (c.setSource j { s with phase := .ended }) :=
        h.quiet ⟨rfl, fun _ => rfl, fun _ => rfl⟩
      exact hset.detachSource s.mountpoint
  | kick connId mountpoint =>
      rw [kickRover_eq]
      exact h.quiet (.hangUp c _)
  | close => exact close_preserves (fun _ m hc => hc.detachSource m) c h
  | reload cfg mtls disabled =>
      exact h.quiet ⟨rfl, fun _ => rfl, fun _ => rfl⟩

end HubTotals

/-! ## Every run -/

theorem run_accounts [PyFloat F] [Crypto] {cfg : CasterCfg F} {mtls : Bool}
    {disabled : List (Json F)} {events : List (Event F)} {c : Caster F}
    (hvalid : validateConfig cfg = .ok ())
    (hreloads : StepsMeet step ReloadsValid (new cfg mtls disabled) events)
    (hrun : run step (new cfg mtls disabled) events = some c) (i : ℕ) :
    Accounts i (outputs step (roverMoves i) (new cfg mtls disabled) events)
      c := by
  have hstart : Accounts i [] (new cfg mtls disabled) := by
    constructor
    · exact validTiers_of_validateConfig hvalid
    · intro _
      rfl
    · intro t ht
      simp [new] at ht
  exact hreloads.run_outputs
    (fun _ _ _ _ hc hmeets hstep => hc.step hmeets hstep) hstart hrun

theorem run_hubTotals [PyFloat F] [Crypto] {cfg : CasterCfg F} {mtls : Bool}
    {disabled : List (Json F)} {events : List (Event F)} {c : Caster F}
    (hrun : run step (new cfg mtls disabled) events = some c) :
    HubTotals c := by
  have hboth : StreamInv c ∧ HubTotals c :=
    run_preserves (P := fun c => StreamInv c ∧ HubTotals c)
      (fun _ _ _ hc hstep => ⟨hc.1.step hstep, hc.2.step hc.1 hstep⟩)
      ⟨.initial cfg mtls disabled, .initial cfg mtls disabled⟩ hrun
  exact hboth.2

/-- In every run, for every rover: the bytes offered to it are the bytes sent,
dropped, queued, and those of at most one chunk in the send loop's hand; the
queue counts its bytes, keeps its bound and gives chunks out in the order it
accepted them.  The totals of every hub are the sums over the sessions it has
had. -/
theorem run_conserves [PyFloat F] [Crypto] {cfg : CasterCfg F} {mtls : Bool}
    {disabled : List (Json F)} {events : List (Event F)} {c : Caster F}
    (hvalid : validateConfig cfg = .ok ())
    (hreloads : StepsMeet step ReloadsValid (new cfg mtls disabled) events)
    (hrun : run step (new cfg mtls disabled) events = some c) :
    (∀ (i : ℕ) (t : RoverTask F), c.rovers[i]? = some t →
      let log := outputs step (roverMoves i) (new cfg mtls disabled) events
      (∃ hand, InHand t.send hand ∧ hand.length ≤ 1 ∧
        byteCount (offered log) = t.session.sentBytes +
          t.session.droppedBytes + t.session.queue.bytes +
          byteCount hand) ∧
      t.session.queue.bytes = byteCount t.session.queue.buf ∧
      t.session.queue.bytes ≤ t.session.queue.max ∧
      accepted log = taken log ++ t.session.queue.buf) ∧
    ∀ m, (c.hub m).txBytesTotal =
        ((c.sessionsOf m).map fun t => t.session.sentBytes).sum ∧
      (c.hub m).droppedBytesTotal =
        ((c.sessionsOf m).map fun t => t.session.droppedBytes).sum := by
  constructor
  · intro i t ht log
    have hconserves := (run_accounts hvalid hreloads hrun i).session t ht
    rcases hconserves.bytes with ⟨hbytes, hfifo⟩
    exact ⟨hbytes, t.session.queue.bytes_eq, t.session.queue.bytes_le, hfifo⟩
  · intro m
    have htotals := run_hubTotals hrun
    exact ⟨htotals.tx m, htotals.dropped m⟩

theorem oneUser_valid : validateConfig oneUser.cfg = .ok () := by
  apply validateConfig_eq_ok.mpr
  decide +kernel

theorem oneFrameRun_reloads :
    StepsMeet (@Caster.step ℚ _ noDigest) ReloadsValid oneUser
      oneFrameRun := by
  apply StepsMeet.of_forall
  intro event hevent c cfg mtls disabled hreload
  subst hreload
  simp [oneFrameRun] at hevent

theorem run_conserves_oneFrame :
    ∃ (c : Caster ℚ) (t : RoverTask ℚ) (hand : List Bytes),
      run (@Caster.step ℚ _ noDigest) oneUser oneFrameRun = some c ∧
        c.rovers[0]? = some t ∧ InHand t.send hand ∧
        byteCount (offered (outputs (@Caster.step ℚ _ noDigest)
            (roverMoves 0) oneUser oneFrameRun)) =
          t.session.sentBytes + t.session.droppedBytes +
            t.session.queue.bytes + byteCount hand := by
  rcases Option.map_eq_some_iff.mp oneFrameRun_socket with
    ⟨c, hrun, hsockets⟩
  rcases List.map_eq_singleton_iff.mp hsockets with ⟨t, hrovers, _⟩
  have ht : c.rovers[0]? = some t := by
    rw [hrovers]
    rfl
  have hconserves := @run_conserves ℚ _ noDigest _ _ _ _ c oneUser_valid
    oneFrameRun_reloads hrun
  rcases (hconserves.1 0 t ht).1 with ⟨hand, hhand, _, hbytes⟩
  exact ⟨c, t, hand, hrun, ht, hhand, hbytes⟩

end Caster

end BabilCors
