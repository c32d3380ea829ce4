import BabilCors.RoverVerdicts
import BabilCors.ServerRuns
import BabilCors.SourceSteps

/-!
# Disabled mountpoints

The rover part of `_handle_http` asks the set of disabled mountpoints under the
name by which it looks up the hub, so no spelling of a path leads past it.
`_handle_source` does not ask it: a SOURCE line that gets past the other checks
is attached to the hub of a disabled mountpoint.
-/

namespace BabilCors

open Py TransitionRuns

variable {F : Type}

namespace Caster

/-- Between the two states no rover has been added to the hub and no source has
been attached to it. -/
structure NothingAdmitted (c c' : Caster F) (m : String) : Prop where
  rovers : (c'.hub m).rovers ⊆ (c.hub m).rovers
  sources : ∀ (j : ℕ) (s' : SourceTask), c'.sources[j]? = some s' →
    s'.mountpoint = m →
    ∃ s : SourceTask, c.sources[j]? = some s ∧ s.mountpoint = m
  sourceAddr : (c'.hub m).sourceAddr = none ∨
    (c'.hub m).sourceAddr = (c.hub m).sourceAddr

/-- The checks of `_handle_source` on a password and a mountpoint. -/
structure GrantsSource (c : Caster F) (password mountpoint addr : String)
    (hasCert : Bool) : Prop where
  password : password = c.cfg.sources.password
  listed : c.cfg.sources.mountpoints = [] ∨
    mountpoint ∈ c.cfg.sources.mountpoints
  certified : ¬ (c.requireMtlsForSource = true ∧
    c.cfg.listen.tlsCertfile.isSome = true ∧ ¬ hasCert = true)
  room : (c.setHub mountpoint (c.hub mountpoint)).hasSourceRoom
    (c.hub mountpoint) = true
  free : ((c.hub mountpoint).attachSource addr).1 = true

/-- The SOURCE line gets past the checks and names the mountpoint. -/
def SourceNames (c : Caster F) (first : Bytes) (addr : String)
    (hasCert : Bool) (m : String) : Prop :=
  ∃ word password path rest,
    splitWs (strip (safeDecode first)) = word :: password :: path :: rest ∧
      lstripChar '/' path = m ∧ c.GrantsSource password m addr hasCert

theorem NothingAdmitted.refl (c : Caster F) (m : String) :
    NothingAdmitted c c m :=
  ⟨List.Subset.refl _, fun _ s hs hm => ⟨s, hs, hm⟩, .inr rfl⟩

theorem NothingAdmitted.of_same {c c' : Caster F} {m : String}
    (hsources : c'.sources = c.sources) (hhub : c'.hub m = c.hub m) :
    NothingAdmitted c c' m := by
  refine ⟨?_, ?_, .inr (by rw [hhub])⟩
  · rw [hhub]
    exact List.Subset.refl _
  · intro j s hs hm
    rw [hsources] at hs
    exact ⟨s, hs, hm⟩

/-! ## Sources -/

/-- A SOURCE line changes no hub and no task, or it is attached to the hub of
the mountpoint that it names. -/
inductive SourceGrant (c c' : Caster F) (first : Bytes) (addr : String)
    (hasCert : Bool) : Prop
  | refused (hnone : ∀ m, ¬ c.SourceNames first addr hasCert m)
      (hsources : c'.sources = c.sources) (hhub : ∀ m, c'.hub m = c.hub m)
  | attached (m : String)
      (honly : ∀ m', c.SourceNames first addr hasCert m' ↔ m' = m)
      (hsources : c'.sources = c.sources ++ [⟨addr, m, .icyReply, []⟩])
      (hhub : ∀ m' ≠ m, c'.hub m' = c.hub m')

theorem sourceNames_of_line {first : Bytes}
    {word password path : String} {rest : List String}
    (hline : splitWs (strip (safeDecode first)) =
      word :: password :: path :: rest) (c : Caster F) (addr : String)
    (hasCert : Bool) (m : String) :
    c.SourceNames first addr hasCert m ↔
      lstripChar '/' path = m ∧ c.GrantsSource password m addr hasCert := by
  constructor
  · rintro ⟨word', password', path', rest', hline', hm, hgrants⟩
    rw [hline] at hline'
    cases hline'
    exact ⟨hm, hgrants⟩
  · rintro ⟨hm, hgrants⟩
    exact ⟨word, password, path, rest, hline, hm, hgrants⟩

theorem handleSource_grant (c : Caster F) (first : Bytes) (addr : String)
    (hasCert : Bool) :
    SourceGrant c (c.handleSource first addr hasCert) first addr hasCert := by
  unfold handleSource
  split
  next word password path rest hline =>
    have hnames (m : String) :=
      sourceNames_of_line hline c addr hasCert m
    have hrefused (hno : ¬ c.GrantsSource password (lstripChar '/' path) addr
        hasCert) (m : String) : ¬ c.SourceNames first addr hasCert m := by
      intro hnamed
      obtain ⟨rfl, hgrants⟩ := (hnames m).mp hnamed
      exact hno hgrants
    dsimp only
    split_ifs with hpassword hlisted hcert hroom
    · exact .refused (hrefused fun h => hpassword h.password) rfl
        fun _ => rfl
    · refine .refused (hrefused fun h => ?_) rfl fun _ => rfl
      rcases h.listed with hall | hmem
      · exact hlisted.1 hall
      · exact hlisted.2 hmem
    · exact .refused (hrefused fun h => h.certified hcert) rfl
        (hub_setHub_self c _)
    · have hchecked : c.cfg.sources.mountpoints = [] ∨
          lstripChar '/' path ∈ c.cfg.sources.mountpoints := by
        by_contra hneither
        simp only [not_or] at hneither
        exact hlisted hneither
      split
      next attached hattach =>
        have hgrants : c.GrantsSource password (lstripChar '/' path) addr
            hasCert :=
          ⟨not_not.mp hpassword, hchecked, hcert, hroom, by rw [hattach]⟩
        refine .attached (lstripChar '/' path) (fun m' => ?_) rfl
          fun m' hm' => ?_
        · rw [hnames m']
          constructor
          · rintro ⟨rfl, _⟩
            rfl
          · rintro rfl
            exact ⟨rfl, hgrants⟩
        · change ((c.setHub _ _).setHub _ _).hub m' = _
          rw [hub_setHub, if_neg hm'.symm, hub_setHub, if_neg hm'.symm]
      next busy hattach =>
        refine .refused (hrefused fun h => ?_) rfl (hub_setHub_self c _)
        have hfree := h.free
        rw [hattach] at hfree
        cases hfree
    · exact .refused (hrefused fun h => hroom h.room) rfl
        (hub_setHub_self c _)
  next hshort =>
    refine .refused ?_ rfl fun _ => rfl
    rintro m ⟨word, password, path, rest, hline, _⟩
    exact hshort word password path rest hline

/-- A SOURCE line admits nothing to a hub exactly when it is not attached to
it. -/
theorem handleSource_admits_iff (c : Caster F) (first : Bytes)
    (addr : String) (hasCert : Bool) (m : String) :
    NothingAdmitted c (c.handleSource first addr hasCert) m ↔
      ¬ c.SourceNames first addr hasCert m := by
  cases c.handleSource_grant first addr hasCert with
  | refused hnone hsources hhub =>
      exact iff_of_true (.of_same hsources (hhub m)) (hnone m)
  | attached target honly hsources hhub =>
      rw [honly m]
      constructor
      · rintro hnothing rfl
        have hnew : (c.handleSource first addr hasCert).sources[
            c.sources.length]? = some ⟨addr, m, .icyReply, []⟩ := by
          simp [hsources]
        rcases hnothing.sources _ _ hnew rfl with ⟨s, hs, _⟩
        simp at hs
      · intro hother
        have hkept := hhub m hother
        refine ⟨?_, ?_, .inr (by rw [hkept])⟩
        · rw [hkept]
          exact List.Subset.refl _
        · intro j s' hs' hm
          rw [hsources, List.getElem?_append] at hs'
          split_ifs at hs' with hold
          · exact ⟨s', hs', hm⟩
          · have hnew := List.mem_of_getElem? hs'
            rw [List.mem_singleton] at hnew
            rw [hnew] at hm
            exact (hother hm.symm).elim

/-! ## Rovers -/

theorem handleRover_admits_nothing [PyFloat F] [Crypto] (c : Caster F)
    (req : RoverRequest) (now : ℚ) {m : String}
    (hdisabled : c.isDisabled m = true) :
    NothingAdmitted c (c.handleRover req now) m := by
  rcases c.handleRover_admission req now with hsame | ⟨user, username, gga,
    hadmissible, _, hjoin⟩
  · exact .of_same hsame.sources (by rw [hub, hsame.mountpoints, hub])
  · have hne : req.mountpoint ≠ m := by
      rintro rfl
      rw [hadmissible.enabled] at hdisabled
      cases hdisabled
    rw [hjoin]
    exact .of_same rfl ((hub_join _ _ _ m).trans (if_neg hne))

/-- No step but a rover request adds to the rovers of a hub. -/
theorem step_members [PyFloat F] [Crypto] {c c' : Caster F}
    {event : Event F} (hother : ∀ req now, event ≠ .roverRequest req now)
    (hstep : c.step event = some c') (m : String) :
    (c'.hub m).rovers ⊆ (c.hub m).rovers := by
  have hsame {d : Caster F} (hrovers : (d.hub m).rovers = (c.hub m).rovers) :
      (d.hub m).rovers ⊆ (c.hub m).rovers := by
    rw [hrovers]
    exact List.Subset.refl _
  have hdetach (d : Caster F) (m' : String)
      (hd : (d.hub m).rovers ⊆ (c.hub m).rovers) :
      ((d.detachSource m').hub m).rovers ⊆ (c.hub m).rovers := by
    rw [detachSource, hub_setHub]
    split_ifs with hm
    · rw [hm]
      exact hd
    · exact hd
  cases step_outcome hstep with
  | roverRequest req now => exact (hother req now rfl).elim
  | roverIcy i ok t t' ht hdone => exact hsame rfl
  | roverReadEnds i t t' ht hdone => exact hsame rfl
  | roverFinish i t t' ht hfinish =>
      rw [hub_leave]
      split_ifs with hm
      · rw [hm]
        exact fun k hk => (List.mem_filter.mp hk).1
      · exact List.Subset.refl _
  | roverSend i event t t' ht hsend =>
      exact hsame (hub_recordSentBytes _ _ _ m).1
  | sourceRequest first addr hasCert =>
      cases c.handleSource_outcome first addr hasCert with
      | refused hsources hhub => exact hsame (by rw [hhub])
      | attached m' hsources hhub =>
          apply hsame
          rw [hhub]
          split_ifs with hm
          · rw [hm]
          · rfl
  | sourceIcy j ok s hs hphase => exact hsame rfl
  | sourceDrain j ok s hs hphase => exact hsame rfl
  | sourceRead j chunk now s hs hphase =>
      exact hsame (c.hub_sourceRead j s chunk now m).1
  | sourceEnds j s hs hphase => exact hdetach _ _ (List.Subset.refl _)
  | kick connId mountpoint =>
      rw [kickRover_eq]
      exact hsame rfl
  | close =>
      exact close_preserves
        (P := fun d => (d.hub m).rovers ⊆ (c.hub m).rovers) hdetach c
        (List.Subset.refl _)
  | reload cfg mtls disabled => exact hsame rfl

/-- No step but a SOURCE line adds a source task or an address. -/
theorem step_attachments [PyFloat F] [Crypto] {c c' : Caster F}
    {event : Event F}
    (hother : ∀ first addr hasCert,
      event ≠ .sourceRequest first addr hasCert)
    (hstep : c.step event = some c') (m : String) :
    (∀ (j : ℕ) (s' : SourceTask), c'.sources[j]? = some s' →
      s'.mountpoint = m →
      ∃ s : SourceTask, c.sources[j]? = some s ∧ s.mountpoint = m) ∧
    ((c'.hub m).sourceAddr = none ∨
      (c'.hub m).sourceAddr = (c.hub m).sourceAddr) := by
  have hset {j : ℕ} {t t' : SourceTask} (ht : c.sources[j]? = some t)
      (hmount : t'.mountpoint = t.mountpoint) (i : ℕ) (s' : SourceTask)
      (hs' : (c.sources.set j t')[i]? = some s')
      (hm : s'.mountpoint = m) :
      ∃ s : SourceTask, c.sources[i]? = some s ∧ s.mountpoint = m := by
    rw [List.getElem?_set] at hs'
    split_ifs at hs' with hji hlt
    · obtain rfl := Option.some.inj hs'
      exact ⟨t, hji ▸ ht, hmount ▸ hm⟩
    · exact ⟨s', hs', hm⟩
  cases step_attachMove hstep with
  | stays hsources haddr =>
      rw [hsources]
      exact ⟨fun j s hs hm => ⟨s, hs, hm⟩, .inr (haddr m)⟩
  | attaches first addr hasCert target hfree hroom hsources haddr =>
      exact (hother first addr hasCert rfl).elim
  | moves j s s' hs hmount hsame hrunning hend hrunning' hsources haddr =>
      rw [hsources]
      exact ⟨hset hs hmount, .inr (haddr m)⟩
  | detaches j s hs hreading hsources haddr =>
      rw [hsources]
      refine ⟨hset hs rfl, ?_⟩
      rw [haddr]
      split_ifs
      · exact .inl rfl
      · exact .inr rfl
  | closes hsources haddr =>
      rw [hsources]
      exact ⟨fun j s hs hm => ⟨s, hs, hm⟩, haddr m⟩

/-! ## Steps -/

/-- A SOURCE line that gets past the checks names an enabled mountpoint. -/
def SourceEnabled (c : Caster F) : Event F → Prop
  | .sourceRequest first addr hasCert =>
      ∀ m, c.SourceNames first addr hasCert m → c.isDisabled m = false
  | _ => True

/-- The hubs of disabled mountpoints are closed to new rovers and sources. -/
def DisabledClosed (c c' : Caster F) : Prop :=
  ∀ m, c.isDisabled m = true → NothingAdmitted c c' m

theorem step_disabledClosed_iff [PyFloat F] [Crypto] {c c' : Caster F}
    {event : Event F} (hstep : c.step event = some c') :
    DisabledClosed c c' ↔ c.SourceEnabled event := by
  have hquiet (hsource : ∀ first addr hasCert,
      event ≠ .sourceRequest first addr hasCert)
      (hrover : ∀ req now, event ≠ .roverRequest req now) :
      DisabledClosed c c' := by
    intro m _
    have hattach := step_attachments hsource hstep m
    exact ⟨step_members hrover hstep m, hattach.1, hattach.2⟩
  cases event with
  | sourceRequest first addr hasCert =>
      obtain rfl := Option.some.inj hstep
      unfold DisabledClosed SourceEnabled
      apply forall_congr'
      intro m
      rw [handleSource_admits_iff]
      cases hdisabled : c.isDisabled m with
      | false => simp
      | true => simp
  | roverRequest req now =>
      obtain rfl := Option.some.inj hstep
      exact iff_of_true
        (fun m hm => c.handleRover_admits_nothing req now hm) trivial
  | _ =>
      refine iff_of_true (hquiet ?_ ?_) trivial
      · simp
      · simp

theorem NothingAdmitted.trans {c c' c'' : Caster F} {m : String}
    (hfirst : NothingAdmitted c c' m) (hsecond : NothingAdmitted c' c'' m) :
    NothingAdmitted c c'' m := by
  refine ⟨fun i hi => hfirst.rovers (hsecond.rovers hi), ?_, ?_⟩
  · intro j s'' hs'' hm
    rcases hsecond.sources j s'' hs'' hm with ⟨s', hs', hm'⟩
    exact hfirst.sources j s' hs' hm'
  · rcases hsecond.sourceAddr with hnone | hkept
    · exact .inl hnone
    · rw [hkept]
      exact hfirst.sourceAddr

end Caster

namespace NtripCaster

section Runs

variable [PyFloat F] [Crypto] [JwtLib F] [SchemaLib F]

omit [PyFloat F] [Crypto] [JwtLib F] [SchemaLib F] in
def SourceEnabled (s : NtripCaster F) : Event F → Prop
  | .connection event => s.caster.SourceEnabled event
  | _ => True

/-- The step leaves the hubs of disabled mountpoints closed. -/
def StaysClosed (s : NtripCaster F) (event : Event F) : Prop :=
  ∀ s', s.step event = some s' → Caster.DisabledClosed s.caster s'.caster

theorem step_connection (s : NtripCaster F) (event : Caster.Event F) :
    s.step (.connection event) =
      (s.caster.step event).map fun caster => { s with caster := caster } :=
  rfl

theorem staysClosed_connection_iff (s : NtripCaster F)
    (event : Caster.Event F) :
    s.StaysClosed (.connection event) ↔
      ∀ c, s.caster.step event = some c →
        Caster.DisabledClosed s.caster c := by
  unfold StaysClosed
  rw [step_connection]
  constructor
  · intro hclosed c hc
    exact hclosed { s with caster := c } (by rw [hc, Option.map_some])
  · intro hclosed s' hs'
    rcases Option.map_eq_some_iff.mp hs' with ⟨c, hc, rfl⟩
    exact hclosed c hc

theorem step_staysClosed_iff (s : NtripCaster F) (event : Event F) :
    s.StaysClosed event ↔ s.SourceEnabled event := by
  have hadmin {c c' : Caster F} {event : Caster.Event F}
      (hevent : event.FromAdmin) (hstep : c.step event = some c') :
      Caster.DisabledClosed c c' := by
    apply (Caster.step_disabledClosed_iff hstep).mpr
    cases event <;> trivial
  have hother (hconnection : ∀ event', event ≠ .connection event') :
      s.StaysClosed event := by
    intro s' hstep
    rcases step_caster hstep with hsame | ⟨event', hevent | hevent, hmove⟩
    · rw [hsame]
      exact fun m _ => .refl s.caster m
    · exact (hconnection event' hevent).elim
    · exact hadmin hevent hmove
  cases event with
  | connection event =>
      rw [staysClosed_connection_iff]
      constructor
      · intro hclosed
        cases event with
        | sourceRequest first addr hasCert =>
            have hstep : s.caster.step
                (.sourceRequest first addr hasCert) =
                  some (s.caster.handleSource first addr hasCert) := rfl
            exact (Caster.step_disabledClosed_iff hstep).mp
              (hclosed _ hstep)
        | _ => trivial
      · intro henabled c hc
        exact (Caster.step_disabledClosed_iff hc).mpr henabled
  | _ => exact iff_of_true (hother (by simp)) trivial

/-- In a run no rover and no source comes to the hub of a disabled mountpoint
exactly when no SOURCE line that gets past the other checks names one.  For the
rovers there is no condition, however their paths are spelled. -/
theorem run_staysClosed_iff (s : NtripCaster F) (events : List (Event F)) :
    StepsMeet step StaysClosed s events ↔
      StepsMeet step SourceEnabled s events := by
  have hsame : (StaysClosed (F := F)) = SourceEnabled := by
    funext s event
    exact propext (s.step_staysClosed_iff event)
  rw [hsame]

/-- Over a run in which a mountpoint stays disabled its hub only loses rovers
and sources. -/
theorem run_nothingAdmitted {s s' : NtripCaster F} {events : List (Event F)}
    {m : String} (henabled : StepsMeet step SourceEnabled s events)
    (hdisabled : StepsMeet step
      (fun s _ => s.caster.isDisabled m = true) s events)
    (hrun : run step s events = some s') :
    Caster.NothingAdmitted s.caster s'.caster m := by
  induction events generalizing s with
  | nil =>
      obtain rfl := Option.some.inj hrun
      exact .refl s.caster m
  | cons event events ih =>
      rcases run_cons_eq_some.mp hrun with ⟨next, hnext, hrest⟩
      have hclosed := (s.step_staysClosed_iff event).mpr henabled.1
      exact (hclosed next hnext m hdisabled.1).trans
        (ih (henabled.2 next hnext) (hdisabled.2 next hnext) hrest)

end Runs

/-- A server whose one mountpoint is disabled. -/
def disabledServer : NtripCaster ℚ :=
  { smallServer (.obj []) with
    caster := { Caster.oneUser with disabledMountpoints := [.str "MP"] } }

theorem disabled_takes_source :
    ¬ StepsMeet (@step ℚ _ noDigest (oneToken []) anyBody)
      (@StaysClosed ℚ _ noDigest (oneToken []) anyBody) disabledServer
      [.connection (.sourceRequest Caster.sourceHello "10.0.0.2:6000"
        false)] := by
  rintro ⟨hclosed, _⟩
  have hnothing := hclosed _ rfl "MP" (by decide)
  have haddr := hnothing.sourceAddr
  have hattached : ((disabledServer.caster.handleSource Caster.sourceHello
      "10.0.0.2:6000" false).hub "MP").sourceAddr =
        some "10.0.0.2:6000" := by
    decide +kernel
  have hbefore : (disabledServer.caster.hub "MP").sourceAddr = none := rfl
  change ((disabledServer.caster.handleSource Caster.sourceHello
      "10.0.0.2:6000" false).hub "MP").sourceAddr = none ∨
    ((disabledServer.caster.handleSource Caster.sourceHello
      "10.0.0.2:6000" false).hub "MP").sourceAddr =
        (disabledServer.caster.hub "MP").sourceAddr at haddr
  rw [hattached, hbefore] at haddr
  simp at haddr

end NtripCaster

end BabilCors
