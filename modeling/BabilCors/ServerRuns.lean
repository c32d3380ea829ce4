import BabilCors.TransitionRuns
import BabilCors.UpdateCalls

/-!
# Runs of the whole server

A step of the server is a step of one of its connections, an admin request, a
snapshot of a hub, or a reload.  What an admin request does to the streams is
a kick, a reload or a rover request, so facts about the steps of connections
hold for those of the server.
-/

namespace BabilCors

open Py TransitionRuns

variable {F : Type}

/-- The steps of the streams that an admin request can cause. -/
def Caster.Event.FromAdmin : Caster.Event F → Prop
  | .roverRequest _ _ | .kick _ _ | .reload _ _ _ => True
  | _ => False

namespace NtripCaster

inductive Event (F : Type) where
  | connection (event : Caster.Event F)
  | admin (req : AdminRequest F) (m : Moment)
  | snapshot (mountpoint : String)
  | reload

section Steps

variable [PyFloat F]

/-- A snapshot reads the hub under its lock and changes nothing. -/
def step [Crypto] [JwtLib F] [SchemaLib F] (s : NtripCaster F) :
    Event F → Option (NtripCaster F)
  | .connection event =>
      (s.caster.step event).map fun caster => { s with caster := caster }
  | .admin req m => some (s.handleAdmin req m).server
  | .snapshot _ => some s
  | .reload => some s.reloadFromDisk

/-! ## What an admin request does to the streams -/

/-- The streams are as before, or one step of them has been taken. -/
inductive CasterMove [Crypto] (c c' : Caster F) : Prop
  | stays (hc : c' = c)
  | moves (event : Caster.Event F) (hadmin : event.FromAdmin)
      (hstep : c.step event = some c')

theorem reloadFromDisk_caster (s : NtripCaster F) :
    ∃ cfg mtls disabled, s.reloadFromDisk.caster = { s.caster with
      cfg := cfg
      requireMtlsForSource := mtls
      disabledMountpoints := disabled } := by
  rcases s.reloadFromDisk_reloaded.1 with
    ⟨cfg, mtls, disabled, _, _, _, _, _, _, hs'⟩
  rw [hs']
  exact ⟨cfg, mtls, disabled, rfl⟩

section Moves

variable [Crypto]

theorem CasterMove.of_reload {c c' : Caster F}
    (hc : ∃ cfg mtls disabled, c' = { c with
      cfg := cfg
      requireMtlsForSource := mtls
      disabledMountpoints := disabled }) : CasterMove c c' := by
  rcases hc with ⟨cfg, mtls, disabled, rfl⟩
  exact .moves (.reload cfg mtls disabled) trivial rfl

theorem updateConfig_caster (s : NtripCaster F) (updater : Updater F)
    (diskError : Option PyErr) :
    CasterMove s.caster (s.updateConfig updater diskError).2.caster := by
  cases s.updateConfig_outcome updater diskError with
  | kept hwrite hs' => exact .stays (by rw [hs'])
  | written raw hwrite hs' =>
      rw [hs']
      exact .of_reload ({ s with file := .ok raw }).reloadFromDisk_caster

theorem answerUpdate_caster (s : NtripCaster F) (m : Moment)
    (updater : Updater F) (answer : Bool → String → Reply F)
    (failed : PyErr → Except PyErr (Reply F)) :
    CasterMove s.caster
      (s.answerUpdate m updater answer failed).server.caster := by
  rw [answerUpdate_server]
  exact s.updateConfig_caster updater m.diskError

theorem resource_caster [SchemaLib F] {s : NtripCaster F} {b : Bearer F}
    {req : AdminRequest F} {body : Json F} {m : Moment} {o : Outcome F}
    (hresource : s.resource b req body m = some o) :
    CasterMove s.caster o.server.caster := by
  have hfollows := s.resource_follows b req body m
  rw [hresource] at hfollows
  generalize resourceCall? b.principal req body = call? at hfollows
  cases hfollows with
  | calls call =>
      exact s.answerUpdate_caster m call.updater call.answer call.failed
  | idle hkept => exact .stays (by rw [hkept o rfl])

theorem switchMountpoint_caster (s : NtripCaster F) (b : Bearer F)
    (req : AdminRequest F) (body : Json F) (m : Moment) (action : String)
    (updater : String → Updater F) :
    CasterMove s.caster
      (s.switchMountpoint b req body m action updater).server.caster := by
  cases s.switchMountpoint_outcome b req body m action updater with
  | kept hno hs' => exact .stays (by rw [hs'])
  | updated value hmethod hvalue hname hs' =>
      rw [hs']
      exact s.updateConfig_caster (updater value.pyStr) m.diskError

theorem kick_caster (s : NtripCaster F) (b : Bearer F)
    (req : AdminRequest F) (body : Json F) (m : Moment) :
    CasterMove s.caster (s.kick b req body m).server.caster := by
  cases s.kick_outcome b req body m with
  | kept hno hs' => exact .stays (by rw [hs'])
  | missed connv mpv hconnv hmpv htarget hs' => exact .stays (by rw [hs'])
  | kicked connv mpv connId mp hmethod hconnv hmpv htarget hs' =>
      rw [hs']
      exact .moves (.kick connId mp) trivial rfl

theorem operation_caster (s : NtripCaster F) (b : Bearer F)
    (req : AdminRequest F) (body : Json F) (m : Moment) :
    CasterMove s.caster (s.operation b req body m).server.caster := by
  cases s.operation_outcome b req body m with
  | replied reply hreply ho =>
      rw [ho]
      exact .stays rfl
  | raised e ho =>
      rw [ho]
      exact .stays rfl
  | operates base hbase hpath hrole ho =>
      rcases ho with ⟨_, ho⟩ | ⟨_, ho⟩ | ⟨_, ho⟩
      · rw [ho]
        exact s.switchMountpoint_caster b req body m "disable"
          disableMountpoint
      · rw [ho]
        exact s.switchMountpoint_caster b req body m "enable" enableMountpoint
      · rw [ho]
        exact s.kick_caster b req body m
  | passed ho =>
      rw [ho]
      exact .moves (.roverRequest ⟨req.addr, req.path, req.headers⟩
        m.monotonic) trivial rfl

end Moves

section Tokens

variable [Crypto] [JwtLib F]

omit [Crypto] in
theorem tokenRefresh_caster (s : NtripCaster F) (body : Json F)
    (m : Moment) : (s.tokenRefresh body m).server.caster = s.caster := by
  rcases s.tokenRefresh_jwt body m with ⟨jwt, hjwt⟩
  rw [hjwt]

omit [Crypto] in
theorem tokenRevoke_caster (s : NtripCaster F) (b : Bearer F)
    (body : Json F) (m : Moment) :
    (s.tokenRevoke b body m).server.caster = s.caster := by
  rcases s.tokenRevoke_jwt b body m with ⟨jwt, hjwt⟩
  rw [hjwt]

variable [SchemaLib F]

theorem dispatch_caster (s : NtripCaster F) (b : Bearer F)
    (req : AdminRequest F) (m : Moment) :
    CasterMove s.caster (s.dispatch b req m).server.caster := by
  unfold dispatch
  dsimp only
  split_ifs
  · exact .stays (by rw [login_server])
  · exact .stays (s.tokenRefresh_caster _ m)
  · exact .stays (s.tokenRevoke_caster b _ m)
  · exact .stays rfl
  · cases hresource : s.resource b req req.bodyJson m with
    | none => exact s.operation_caster b req req.bodyJson m
    | some o => exact resource_caster hresource

theorem handleAdmin_caster (s : NtripCaster F) (req : AdminRequest F)
    (m : Moment) :
    CasterMove s.caster (s.handleAdmin req m).server.caster := by
  unfold handleAdmin
  cases haddress : s.adminIpOk req with
  | false => exact .stays rfl
  | true =>
      have hrate := (s.adminRateOk_same req.clientIp m.monotonic).caster
      rcases hpassed : s.adminRateOk req.clientIp m.monotonic with ⟨ok, s₁⟩
      rw [hpassed] at hrate
      cases ok with
      | false => exact .stays hrate
      | true =>
          have hauth := (s₁.authenticate_same req m).caster
          rcases hbearer : s₁.authenticate req m with ⟨_ | b, s₂⟩
          · rw [hbearer] at hauth
            simp only [Bool.not_true, Bool.false_eq_true, if_false, hbearer]
            exact .stays (hauth.trans hrate)
          · rw [hbearer] at hauth
            simp only [Bool.not_true, Bool.false_eq_true, if_false, hbearer]
            cases hquery : queryOk req with
            | false => exact .stays (hauth.trans hrate)
            | true =>
                rw [← hrate, ← hauth]
                exact s₂.dispatch_caster b req m

/-! ## Steps of the server -/

/-- A step of the server takes at most one step of the streams. -/
theorem step_caster {s s' : NtripCaster F} {event : Event F}
    (hstep : s.step event = some s') :
    s'.caster = s.caster ∨ ∃ event' : Caster.Event F,
      (event = .connection event' ∨ event'.FromAdmin) ∧
        s.caster.step event' = some s'.caster := by
  cases event with
  | connection event =>
      rcases Option.map_eq_some_iff.mp hstep with ⟨c, hc, rfl⟩
      exact .inr ⟨event, .inl rfl, hc⟩
  | admin req m =>
      obtain rfl := Option.some.inj hstep
      cases s.handleAdmin_caster req m with
      | stays hkept => exact .inl hkept
      | moves event hadmin hmove => exact .inr ⟨event, .inr hadmin, hmove⟩
  | snapshot mountpoint =>
      obtain rfl := Option.some.inj hstep
      exact .inl rfl
  | reload =>
      obtain rfl := Option.some.inj hstep
      rcases s.reloadFromDisk_caster with ⟨cfg, mtls, disabled, hcaster⟩
      exact .inr ⟨.reload cfg mtls disabled, .inr trivial, by
        rw [hcaster]
        rfl⟩

end Tokens

end Steps

end NtripCaster

end BabilCors
