import BabilCors.ServerRuns

/-!
# Who may change the configuration

Only admin requests write the configuration file.  Each entry of the document
belongs to some of them: the users, the tiers, the sources, the metadata of
the sourcetable, and in the security section the geofences and the disabled
mountpoints.  Every other entry, the tokens and the address lists among them,
stays as it is.
-/

namespace BabilCors

open Py TransitionRuns

variable {F : Type}

/-- An entry of the document, or one of its security section. -/
inductive ConfigEntry where
  | top (key : String)
  | security (key : String)
  deriving DecidableEq, Repr

namespace ConfigEntry

def get? (raw : Json F) : ConfigEntry → Option (Json F)
  | .top key => field? raw key
  | .security key => securityField? raw key

end ConfigEntry

/-- The update changes no entry but this one. -/
def ChangesOnly (entry : ConfigEntry) (updater : Updater F) : Prop :=
  ∀ raw raw', updater raw = .ok raw' → ∀ other : ConfigEntry,
    other ≠ entry → other ≠ .top "security" → other.get? raw' = other.get? raw

/-! ## One entry of the top -/

theorem changesOnly_top {key : String} (hkey : key ≠ "security")
    {updater : Updater F}
    (hother : ∀ raw raw', updater raw = .ok raw' → ∀ k ≠ key,
      field? raw' k = field? raw k) :
    ChangesOnly (.top key) updater := by
  intro raw raw' hok other hne _
  cases other with
  | top k =>
      refine hother raw raw' hok k ?_
      rintro rfl
      exact hne rfl
  | security k =>
      change securityField? raw' k = securityField? raw k
      unfold securityField?
      rw [hother raw raw' hok "security" hkey.symm]

theorem field?_withDefault {key : String} {f : Updater F} {raw raw' : Json F}
    (hok : raw.withDefault key f = .ok raw') {k : String} (hne : k ≠ key) :
    field? raw' k = field? raw k := by
  rcases Json.withDefault_eq_ok hok with ⟨fields, value, rfl, -, rfl⟩
  exact PyDict.get?_set_of_ne fields value hne.symm

theorem field?_setItem_of_ne {key : String} {value raw raw' : Json F}
    (hok : raw.setItem key value = .ok raw') {k : String} (hne : k ≠ key) :
    field? raw' k = field? raw k := by
  cases raw with
  | obj fields =>
      obtain rfl := Except.ok.inj hok
      exact PyDict.get?_set_of_ne fields value hne.symm
  | null | bool _ | int _ | float _ | str _ | arr _ => cases hok

theorem field?_replaceIn {key name : String} {value raw : Json F}
    {k : String} (hne : k ≠ key) :
    field? (replaceIn raw key name value) k = field? raw k := by
  unfold replaceIn
  split
  · next fields =>
      split
      · exact PyDict.get?_set_of_ne fields _ hne.symm
      · rfl
  · rfl

theorem changesOnly_patchNamed [PyFloat F] {key : String}
    (hkey : key ≠ "security") (name : String) (patch : Updater F) :
    ChangesOnly (.top key) (patchNamed key name patch) := by
  apply changesOnly_top hkey
  intro raw raw' hok k hne
  rcases bind_eq_ok.mp hok with ⟨value, -, hok⟩
  rcases bind_eq_ok.mp hok with ⟨entry, -, hok⟩
  split_ifs at hok
  rcases bind_eq_ok.mp hok with ⟨patched, -, hraw⟩
  obtain rfl := Except.ok.inj hraw
  exact field?_replaceIn hne

theorem changesOnly_deleteNamed [PyFloat F] {key : String}
    (hkey : key ≠ "security") (name : String) :
    ChangesOnly (F := F) (.top key) (deleteNamed key name) := by
  apply changesOnly_top hkey
  intro raw raw' hok k hne
  rcases bind_eq_ok.mp hok with ⟨value, -, hok⟩
  rcases bind_eq_ok.mp hok with ⟨found, -, hok⟩
  split_ifs at hok
  rcases bind_eq_ok.mp hok with ⟨deleted, -, hset⟩
  exact field?_setItem_of_ne hset hne

theorem changesOnly_withDefault {key : String} (hkey : key ≠ "security")
    (f : Updater F) :
    ChangesOnly (.top key) fun raw => raw.withDefault key f := by
  apply changesOnly_top hkey
  intro raw raw' hok k hne
  exact field?_withDefault hok hne

/-! ## One entry of the security section -/

theorem changesOnly_security {α : Type} {key : String}
    (read : Json F → Except PyErr α) (value : α → Json F) :
    ChangesOnly (.security key) fun raw => raw.withDefault "security"
      fun sec => read sec >>= fun x => sec.setItem key (value x) := by
  intro raw raw' hok other hne htop
  rcases Json.withDefault_eq_ok hok with ⟨fields, changed, rfl, hset, rfl⟩
  rcases bind_eq_ok.mp hset with ⟨x, -, hset⟩
  cases hsec : (PyDict.get? fields "security").getD (.obj []) with
  | obj sec =>
      rw [hsec] at hset
      obtain rfl := Except.ok.inj hset
      have hsec' : (PyDict.get? (PyDict.set fields "security"
          (.obj (PyDict.set sec key (value x)))) "security").getD
            (.obj []) = .obj (PyDict.set sec key (value x)) := by
        rw [PyDict.get?_set_self, Option.getD_some]
      cases other with
      | top k =>
          refine PyDict.get?_set_of_ne fields _ ?_
          rintro rfl
          exact htop rfl
      | security k =>
          change securityField? _ k = securityField? _ k
          rw [securityField?_of_obj hsec', securityField?_of_obj hsec]
          refine PyDict.get?_set_of_ne sec _ ?_
          rintro rfl
          exact hne rfl
  | null | bool _ | int _ | float _ | str _ | arr _ =>
      rw [hsec] at hset
      cases hset

theorem changesOnly_geofences (f : Updater F) :
    ChangesOnly (.security "geofence_polygons") (updateGeofences f) := by
  intro raw raw' hok other hne htop
  have hsame := updateGeofences_sameBut hok
  cases other with
  | top k =>
      refine hsame.top k ?_
      rintro rfl
      exact htop rfl
  | security k =>
      refine hsame.security k ?_
      rintro rfl
      exact hne rfl

theorem changesOnly_storeMountpoints (mps : List (Json F)) :
    ChangesOnly (.top "sources") (storeMountpoints mps) :=
  changesOnly_withDefault (by decide) _

theorem changesOnly_createMountpoint (name : String) :
    ChangesOnly (F := F) (.top "sources") (createMountpoint name) := by
  intro raw raw' hok
  rcases bind_eq_ok.mp hok with ⟨mps, -, hok⟩
  split_ifs at hok
  exact changesOnly_storeMountpoints _ raw raw' hok

theorem changesOnly_deleteMountpoint (ident : String) :
    ChangesOnly (F := F) (.top "sources") (deleteMountpoint ident) := by
  intro raw raw' hok
  rcases bind_eq_ok.mp hok with ⟨mps, -, hok⟩
  split_ifs at hok
  exact changesOnly_storeMountpoints _ raw raw' hok

variable [PyFloat F]

theorem changesOnly_disable (mp : String) :
    ChangesOnly (F := F) (.security "disabled_mountpoints")
      (disableMountpoint mp) :=
  changesOnly_security storedDisabled fun cur =>
    .arr (if cur.any (Json.eqStr mp) then cur else cur ++ [.str mp])

theorem changesOnly_enable (mp : String) :
    ChangesOnly (F := F) (.security "disabled_mountpoints")
      (enableMountpoint mp) :=
  changesOnly_security storedDisabled fun cur =>
    .arr (cur.eraseP (Json.eqStr mp))

theorem changesOnly_createUser (uname : String) (body : Json F) :
    ChangesOnly (.top "users") (createUser uname body) := by
  unfold createUser
  exact changesOnly_withDefault (by decide) _

theorem changesOnly_createTier (name : String) (body : Json F) :
    ChangesOnly (.top "tiers") (createTier name body) := by
  unfold createTier
  exact changesOnly_withDefault (by decide) _

theorem changesOnly_mergeMeta (ident : String) (body : Json F) :
    ChangesOnly (.top "sourcetable") (mergeMeta ident body) := by
  unfold mergeMeta
  exact changesOnly_withDefault (by decide) _

/-! ## The rights -/

/-- What a request needs to change an entry.  The path of a switch may go on
behind its name, and only without that the role is asked for. -/
inductive MayChange (p : Principal) (req : AdminRequest F) :
    ConfigEntry → Prop
  | users (hadmin : p.isAdmin = true) (hwrite : req.isWrite = true)
      (hresource : req.resource? = some "users") :
      MayChange p req (.top "users")
  | tiers (hadmin : p.isAdmin = true) (hwrite : req.isWrite = true)
      (hresource : req.resource? = some "tiers") :
      MayChange p req (.top "tiers")
  | sources (hadmin : p.isAdmin = true) (hwrite : req.isWrite = true)
      (hresource : req.resource? = some "mountpoints") :
      MayChange p req (.top "sources")
  | sourcetable (hadmin : p.isAdmin = true) (hwrite : req.isWrite = true)
      (hresource : req.resource? = some "mountpoints") :
      MayChange p req (.top "sourcetable")
  | geofences (hwriter : p.isAdmin = true ∨ p.isEditor = true)
      (hwrite : req.isWrite = true)
      (hresource : req.resource? = some "geofences") :
      MayChange p req (.security "geofence_polygons")
  | disabled (base : String)
      (hbase : base = "/admin/disable" ∨ base = "/admin/enable")
      (hpath : startsWith req.path base = true) (hpost : req.method = "POST")
      (hrole : req.path = base → p.isAdmin = true) :
      MayChange p req (.security "disabled_mountpoints")

namespace NtripCaster

/-- The update is of an entry that the request may change. -/
def Granted (p : Principal) (req : AdminRequest F) (updater : Updater F) :
    Prop :=
  ∃ entry, MayChange p req entry ∧ ChangesOnly entry updater

section Calls

variable [SchemaLib F]

theorem usersCall?_granted {p : Principal} {req : AdminRequest F}
    {body : Json F} {call : UpdateCall F}
    (hresource : req.resource? = some "users")
    (hrole : req.isWrite = true → p.isAdmin = true)
    (hcall : usersCall? req body = some call) :
    Granted p req call.updater := by
  have hgranted {updater : Updater F} (hwrite : req.isWrite = true)
      (hchanges : ChangesOnly (.top "users") updater) :
      Granted p req updater :=
    ⟨_, .users (hrole hwrite) hwrite hresource, hchanges⟩
  unfold usersCall? at hcall
  cases hnamed : req.named? with
  | none =>
      simp only [hnamed] at hcall
      split_ifs at hcall with hpost
      obtain ⟨uname, -, rfl⟩ := Option.map_eq_some_iff.mp hcall
      exact hgranted (by simp [AdminRequest.isWrite, hpost.2.1])
        (changesOnly_createUser _ body)
  | some ident =>
      simp only [hnamed] at hcall
      split_ifs at hcall with hpatch hdelete
      · obtain rfl := Option.some.inj hcall
        exact hgranted (by simp [AdminRequest.isWrite, hpatch.1])
          (changesOnly_patchNamed (by decide) ident _)
      · obtain rfl := Option.some.inj hcall
        exact hgranted (by simp [AdminRequest.isWrite, hdelete])
          (changesOnly_deleteNamed (by decide) ident)

theorem tiersCall?_granted {p : Principal} {req : AdminRequest F}
    {body : Json F} {call : UpdateCall F}
    (hresource : req.resource? = some "tiers")
    (hrole : req.isWrite = true → p.isAdmin = true)
    (hcall : tiersCall? req body = some call) :
    Granted p req call.updater := by
  have hgranted {updater : Updater F} (hwrite : req.isWrite = true)
      (hchanges : ChangesOnly (.top "tiers") updater) :
      Granted p req updater :=
    ⟨_, .tiers (hrole hwrite) hwrite hresource, hchanges⟩
  unfold tiersCall? at hcall
  cases hnamed : req.named? with
  | none =>
      simp only [hnamed] at hcall
      split_ifs at hcall with hpost
      obtain ⟨name, -, rfl⟩ := Option.map_eq_some_iff.mp hcall
      exact hgranted (by simp [AdminRequest.isWrite, hpost.2.1])
        (changesOnly_createTier _ body)
  | some ident =>
      simp only [hnamed] at hcall
      split_ifs at hcall with hpatch hdelete
      · obtain rfl := Option.some.inj hcall
        exact hgranted (by simp [AdminRequest.isWrite, hpatch.1])
          (changesOnly_patchNamed (by decide) ident _)
      · obtain rfl := Option.some.inj hcall
        exact hgranted (by simp [AdminRequest.isWrite, hdelete])
          (changesOnly_deleteNamed (by decide) ident)

theorem mountpointsCall?_granted {p : Principal} {req : AdminRequest F}
    {body : Json F} {call : UpdateCall F}
    (hresource : req.resource? = some "mountpoints")
    (hrole : req.isWrite = true → p.isAdmin = true)
    (hcall : mountpointsCall? req body = some call) :
    Granted p req call.updater := by
  have hsources {updater : Updater F} (hwrite : req.isWrite = true)
      (hchanges : ChangesOnly (.top "sources") updater) :
      Granted p req updater :=
    ⟨_, .sources (hrole hwrite) hwrite hresource, hchanges⟩
  unfold mountpointsCall? at hcall
  cases hnamed : req.named? with
  | none =>
      simp only [hnamed] at hcall
      split_ifs at hcall with hpost
      obtain ⟨name, -, rfl⟩ := Option.map_eq_some_iff.mp hcall
      exact hsources (by simp [AdminRequest.isWrite, hpost.2.1])
        (changesOnly_createMountpoint _)
  | some ident =>
      simp only [hnamed] at hcall
      split_ifs at hcall with hdelete hmeta
      · obtain rfl := Option.some.inj hcall
        exact hsources (by simp [AdminRequest.isWrite, hdelete])
          (changesOnly_deleteMountpoint _)
      · obtain rfl := Option.some.inj hcall
        have hwrite : req.isWrite = true := by
          rcases hmeta.1 with hpatch | hpost
          · simp [AdminRequest.isWrite, hpatch]
          · simp [AdminRequest.isWrite, hpost]
        exact ⟨_, .sourcetable (hrole hwrite) hwrite hresource,
          changesOnly_mergeMeta ident body⟩

end Calls

theorem geofencesCall?_granted {p : Principal} {req : AdminRequest F}
    {body : Json F} {call : UpdateCall F}
    (hresource : req.resource? = some "geofences")
    (hcall : geofencesCall? p req body = some call) :
    Granted p req call.updater := by
  unfold geofencesCall? at hcall
  by_cases hdenied : (req.isWrite && !(p.isAdmin || p.isEditor)) = true
  · rw [if_pos hdenied] at hcall
    cases hcall
  rw [if_neg hdenied] at hcall
  by_cases hsubject :
      (p.isEditor && (p.subUser ∈ ["", "public", "static"])) = true
  · rw [if_pos hsubject] at hcall
    cases hcall
  rw [if_neg hsubject] at hcall
  have hgranted (f : Updater F) (hwrite : req.isWrite = true) :
      Granted p req (updateGeofences f) := by
    refine ⟨_, .geofences ?_ hwrite hresource, changesOnly_geofences f⟩
    simpa [hwrite, or_iff_not_imp_left] using hdenied
  cases hnamed : req.named? with
  | none =>
      simp only [hnamed] at hcall
      by_cases hpost : req.ident? = none ∧ req.method = "POST"
      swap
      · rw [if_neg hpost] at hcall
        cases hcall
      rw [if_pos hpost] at hcall
      split at hcall
      · obtain rfl := Option.some.inj hcall
        exact hgranted _ (by simp [AdminRequest.isWrite, hpost.2])
      · cases hcall
  | some ident =>
      simp only [hnamed] at hcall
      by_cases hpatch : req.method = "PATCH"
      · rw [if_pos hpatch] at hcall
        unfold patchGeofenceCall? at hcall
        split at hcall
        · cases hcall
        · obtain rfl := Option.some.inj hcall
          exact hgranted _ (by simp [AdminRequest.isWrite, hpatch])
        · cases hcall
      rw [if_neg hpatch] at hcall
      split_ifs at hcall with hdelete
      obtain rfl := Option.some.inj hcall
      exact hgranted _ (by simp [AdminRequest.isWrite, hdelete])

theorem resourceCall?_granted [SchemaLib F] {p : Principal}
    {req : AdminRequest F} {body : Json F} {call : UpdateCall F}
    (hcall : resourceCall? p req body = some call) :
    Granted p req call.updater := by
  unfold resourceCall? at hcall
  by_cases hgeofences : req.resource? = some "geofences"
  · rw [if_pos hgeofences] at hcall
    exact geofencesCall?_granted hgeofences hcall
  rw [if_neg hgeofences] at hcall
  split_ifs at hcall with hdenied husers htiers hmountpoints
  · exact usersCall?_granted husers (by simpa using hdenied) hcall
  · exact tiersCall?_granted htiers (by simpa using hdenied) hcall
  · exact mountpointsCall?_granted hmountpoints (by simpa using hdenied) hcall

/-! ## One request -/

omit [PyFloat F] in
def recorded? (s : NtripCaster F) (entry : ConfigEntry) : Option (Json F) :=
  s.file.toOption.bind fun raw => entry.get? raw

theorem updateConfig_entry {s : NtripCaster F} {p : Principal}
    {req : AdminRequest F} {updater : Updater F}
    (hgranted : Granted p req updater) (diskError : Option PyErr)
    {entry : ConfigEntry} (htop : entry ≠ .top "security") :
    (s.updateConfig updater diskError).2.recorded? entry = s.recorded? entry ∨
      MayChange p req entry := by
  obtain ⟨changed, hmay, hchanges⟩ := hgranted
  by_cases hsame : entry = changed
  · exact .inr (hsame ▸ hmay)
  · left
    cases s.updateConfig_outcome updater diskError with
    | kept _ hs' => rw [hs']
    | written raw' hwrite hs' =>
        rcases write?_eq_some hwrite with ⟨raw, hfile, hupdated, -⟩
        have hfile' := (reloadFromDisk_keeps
          { s with file := .ok raw' }).1.file
        rw [← hs'] at hfile'
        unfold recorded?
        rw [hfile', hfile]
        exact hchanges raw raw' hupdated entry hsame htop

theorem switchMountpoint_entry (s : NtripCaster F) {b : Bearer F}
    {req : AdminRequest F} {body : Json F} {m : Moment} {action : String}
    {updater : String → Updater F}
    (hgranted : req.method = "POST" →
      ∀ mp, Granted b.principal req (updater mp))
    {entry : ConfigEntry} (htop : entry ≠ .top "security") :
    (s.switchMountpoint b req body m action updater).server.recorded? entry =
        s.recorded? entry ∨ MayChange b.principal req entry := by
  cases s.switchMountpoint_outcome b req body m action updater with
  | kept _ hs' => exact .inl (by rw [hs'])
  | updated value hmethod _ _ hs' =>
      rw [hs']
      exact s.updateConfig_entry (hgranted hmethod value.pyStr) m.diskError
        htop

theorem operation_entry [Crypto] (s : NtripCaster F) {b : Bearer F}
    {req : AdminRequest F} {body : Json F} {m : Moment}
    {entry : ConfigEntry} (htop : entry ≠ .top "security") :
    (s.operation b req body m).server.recorded? entry = s.recorded? entry ∨
      MayChange b.principal req entry := by
  cases s.operation_outcome b req body m with
  | replied reply _ ho => exact .inl (by rw [ho]; rfl)
  | raised e ho => exact .inl (by rw [ho]; rfl)
  | passed ho => exact .inl (by rw [ho]; rfl)
  | operates base hbase hpath hrole ho =>
      -- the whole path of an operation is one whose role has been checked
      have hadmin : base ∈ operationPaths → req.method = "POST" →
          req.path = base → b.principal.isAdmin = true := by
        rintro hmem hpost rfl
        by_contra hreader
        exact hrole ⟨hmem, hpost, by simpa using hreader⟩
      rcases ho with ⟨rfl, ho⟩ | ⟨rfl, ho⟩ | ⟨-, ho⟩
      · rw [ho]
        refine s.switchMountpoint_entry (fun hpost mp => ?_) htop
        exact ⟨_, .disabled _ (.inl rfl) hpath hpost
          (hadmin (by decide) hpost), changesOnly_disable mp⟩
      · rw [ho]
        refine s.switchMountpoint_entry (fun hpost mp => ?_) htop
        exact ⟨_, .disabled _ (.inr rfl) hpath hpost
          (hadmin (by decide) hpost), changesOnly_enable mp⟩
      · rw [ho]
        left
        cases s.kick_outcome b req body m with
        | kept _ hs' => rw [hs']
        | missed _ _ _ _ _ hs' =>
            rw [hs']
            rfl
        | kicked _ _ _ _ _ _ _ _ hs' =>
            rw [hs']
            rfl

section Requests

variable [Crypto] [JwtLib F] [SchemaLib F]

theorem dispatch_entry (s : NtripCaster F) {b : Bearer F}
    {req : AdminRequest F} {m : Moment} {entry : ConfigEntry}
    (htop : entry ≠ .top "security") :
    (s.dispatch b req m).server.recorded? entry = s.recorded? entry ∨
      MayChange b.principal req entry := by
  unfold dispatch
  dsimp only
  split_ifs
  · rw [login_server]
    exact .inl rfl
  · rcases s.tokenRefresh_jwt req.bodyJson m with ⟨jwt, hjwt⟩
    rw [hjwt]
    exact .inl rfl
  · rcases s.tokenRevoke_jwt b req.bodyJson m with ⟨jwt, hjwt⟩
    rw [hjwt]
    exact .inl rfl
  · exact .inl rfl
  · have hfollows := s.resource_follows b req req.bodyJson m
    generalize hcall : resourceCall? b.principal req req.bodyJson = call?
      at hfollows
    cases hresource : s.resource b req req.bodyJson m with
    | none => exact s.operation_entry htop
    | some o =>
        rw [hresource] at hfollows
        change o.server.recorded? entry = s.recorded? entry ∨ _
        cases hfollows with
        | calls call =>
            rw [answerUpdate_server]
            exact s.updateConfig_entry (resourceCall?_granted hcall)
              m.diskError htop
        | idle hkept => exact .inl (by rw [hkept o rfl])

/-- The request gets past the filters, and the token is that of a bearer. -/
structure Admits (s : NtripCaster F) (req : AdminRequest F) (m : Moment)
    (b : Bearer F) : Prop where
  filters : s.PassesFilters req m
  bearer : ((s.adminRateOk req.clientIp m.monotonic).2.authenticate req m).1 =
    some b

theorem handleAdmin_entry (s : NtripCaster F) (req : AdminRequest F)
    (m : Moment) {entry : ConfigEntry} (htop : entry ≠ .top "security") :
    (s.handleAdmin req m).server.recorded? entry = s.recorded? entry ∨
      ∃ b, s.Admits req m b ∧ MayChange b.principal req entry := by
  unfold handleAdmin
  cases haddress : s.adminIpOk req with
  | false => exact .inl rfl
  | true =>
      cases hrate : s.adminRateOk req.clientIp m.monotonic with
      | mk ok s₁ =>
          have hsame₁ := (s.adminRateOk_same req.clientIp m.monotonic).file
          rw [hrate] at hsame₁
          have hfile₁ : s₁.recorded? entry = s.recorded? entry := by
            unfold recorded?
            rw [hsame₁]
          cases ok with
          | false => exact .inl hfile₁
          | true =>
              cases hauth : s₁.authenticate req m with
              | mk b? s₂ =>
                  have hsame₂ := (s₁.authenticate_same req m).file
                  rw [hauth] at hsame₂
                  have hfile₂ : s₂.recorded? entry = s.recorded? entry := by
                    unfold recorded?
                    rw [hsame₂, hsame₁]
                  cases b? with
                  | none =>
                      simp only [hauth]
                      exact .inl hfile₂
                  | some b =>
                      simp only [hauth]
                      cases hquery : queryOk req with
                      | false => exact .inl hfile₂
                      | true =>
                          have hadmits : s.Admits req m b :=
                            ⟨⟨haddress, by rw [hrate], hquery⟩, by
                              rw [hrate, hauth]⟩
                          rcases s₂.dispatch_entry (b := b) (m := m) htop with
                            hkept | hmay
                          · exact .inl (hkept.trans hfile₂)
                          · exact .inr ⟨b, hadmits, hmay⟩

/-! ## Runs -/

theorem step_entry {s s' : NtripCaster F} {event : Event F}
    (hstep : s.step event = some s') {entry : ConfigEntry}
    (htop : entry ≠ .top "security")
    (hne : s'.recorded? entry ≠ s.recorded? entry) :
    ∃ req m b, event = .admin req m ∧ s.Admits req m b ∧
      MayChange b.principal req entry := by
  cases event with
  | connection event =>
      rcases Option.map_eq_some_iff.mp hstep with ⟨c, -, rfl⟩
      exact (hne rfl).elim
  | admin req m =>
      obtain rfl := Option.some.inj hstep
      rcases s.handleAdmin_entry req m htop with hkept | ⟨b, hadmits, hmay⟩
      · exact (hne hkept).elim
      · exact ⟨req, m, b, rfl, hadmits, hmay⟩
  | snapshot mountpoint =>
      obtain rfl := Option.some.inj hstep
      exact (hne rfl).elim
  | reload =>
      obtain rfl := Option.some.inj hstep
      have hfile := (reloadFromDisk_keeps s).1.file
      refine (hne ?_).elim
      unfold recorded?
      rw [hfile]

/-- Whatever the server does, an entry of the configuration file that is
different at the end was changed by a request that had passed the filters, with
a token whose role may change this entry. -/
theorem run_authorised {s s' : NtripCaster F} {events : List (Event F)}
    (hrun : run step s events = some s') {entry : ConfigEntry}
    (htop : entry ≠ .top "security")
    (hne : s'.recorded? entry ≠ s.recorded? entry) :
    ∃ before req m after state b,
      events = before ++ .admin req m :: after ∧
        run step s before = some state ∧ state.Admits req m b ∧
          MayChange b.principal req entry := by
  obtain ⟨before, event, after, state, next, hevents, hbefore, hstep,
    hchange⟩ := run_changes (f := fun s => s.recorded? entry) hrun hne
  obtain ⟨req, m, b, rfl, hadmits, hmay⟩ := step_entry hstep htop hchange
  exact ⟨before, req, m, after, state, b, hevents, hbefore, hadmits, hmay⟩

end Requests

/-- An admin disables a mountpoint. -/
def disableRun : List (Event ℚ) :=
  [.admin (bearerRequest "POST" "/admin/disable"
    (.obj [("mountpoint", .str "MP1")])) firstMoment]

@[reducible] def rootJwt : JwtLib ℚ :=
  oneToken (accessClaims "root" "admin")

theorem run_authorised_disableRun :
    ∃ before req m after state b,
      disableRun = before ++ .admin req m :: after ∧
        run (@step ℚ _ noDigest rootJwt anyBody) (smallServer (.obj []))
          before = some state ∧
        @Admits ℚ _ noDigest rootJwt state req m b ∧
        MayChange b.principal req (.security "disabled_mountpoints") := by
  have hchanged : ((@handleAdmin ℚ _ noDigest rootJwt anyBody
      (smallServer (.obj [])) (bearerRequest "POST" "/admin/disable"
        (.obj [("mountpoint", .str "MP1")])) firstMoment).server.recorded?
          (.security "disabled_mountpoints")).isSome = true := by
    decide +kernel
  refine @run_authorised ℚ _ noDigest rootJwt anyBody
    (smallServer (.obj [])) _ disableRun rfl
    (.security "disabled_mountpoints") (by decide) ?_
  intro hsame
  rw [hsame] at hchanged
  exact absurd hchanged (by decide +kernel)

end NtripCaster

end BabilCors
