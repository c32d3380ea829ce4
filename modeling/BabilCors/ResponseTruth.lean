import BabilCors.UpdateCalls

/-!
# What the status of a write says

A handler answers with the result of its call of `_admin_update_config`.  The
status is 2xx exactly when the call has replaced the file, except that three
DELETE handlers answer 204 whatever the call returns.
-/

namespace BabilCors

open Py

/-! ## Statuses -/

namespace Reply

variable {F : Type}

/-- The status line; the rover part has its own. -/
def status? : Reply F → Option ℕ
  | .forbidden => some 403
  | .tooManyRequests => some 429
  | .json status _ => some status
  | .auditTail _ | .page => some 200
  | .rover => none

def isSuccess (reply : Reply F) : Bool :=
  reply.status?.any fun status => 200 ≤ status && status < 300

end Reply

def Outcome.isSuccess {F : Type} (o : Outcome F) : Bool :=
  match o.reply with
  | .ok reply => reply.isSuccess
  | .error _ => false

namespace NtripCaster

variable {F : Type} [PyFloat F]

/-! ## What the answers say -/

/-- A DELETE that answers 204 without a look at the result. -/
def BlindDelete (req : AdminRequest F) : Prop :=
  req.method = "DELETE" ∧ (req.resource? = some "users" ∨
    req.resource? = some "tiers" ∨ req.resource? = some "mountpoints")

/-- Success is answered with 2xx, an exception is not, and a refusal is when
the handler is blind. -/
structure Answers (call : UpdateCall F) (blind : Prop) : Prop where
  done : ∀ msg, (call.answer true msg).isSuccess = true
  refused : ∀ msg, (call.answer false msg).isSuccess = true ↔ blind
  failed : ∀ e reply, call.failed e = .ok reply → reply.isSuccess = false

omit [PyFloat F] in
theorem createCall_answers (updater : Updater F) {blind : Prop}
    (hblind : ¬ blind) : Answers (createCall updater) blind := by
  refine ⟨fun _ => rfl, fun _ => ?_, ?_⟩
  · simp [createCall, Reply.updated, Reply.isSuccess, Reply.status?, hblind]
  · rintro e reply ⟨⟩
    rfl

omit [PyFloat F] in
theorem changeCall_answers (updater : Updater F) {blind : Prop}
    (hblind : ¬ blind) : Answers (changeCall updater) blind := by
  refine ⟨fun _ => rfl, fun _ => ?_, ?_⟩
  · simp [changeCall, Reply.updated, Reply.isSuccess, Reply.status?, hblind]
  · rintro e reply ⟨⟩
    rfl

omit [PyFloat F] in
theorem deleteCall_answers (updater : Updater F) {blind : Prop}
    (hblind : blind) : Answers (deleteCall updater) blind := by
  refine ⟨fun _ => rfl, fun _ => ?_, ?_⟩
  · simp [deleteCall, Reply.done, Reply.isSuccess, Reply.status?, hblind]
  · rintro e reply ⟨⟩
    rfl

omit [PyFloat F] in
theorem Answers.with_failed {call : UpdateCall F} {blind : Prop}
    (hanswers : Answers call blind) {failed : PyErr → Except PyErr (Reply F)}
    (hfailed : ∀ e reply, failed e = .ok reply → reply.isSuccess = false) :
    Answers { call with failed := failed } blind :=
  ⟨hanswers.done, hanswers.refused, hfailed⟩

omit [PyFloat F] in
theorem notOwner_refuses (e : PyErr) (reply : Reply F)
    (hreply : notOwner e = .ok reply) : reply.isSuccess = false := by
  cases e <;> obtain rfl := Except.ok.inj hreply <;> rfl

section Shapes

variable [SchemaLib F]

omit [PyFloat F] in
theorem create_answers {req : AdminRequest F} {body : Json F}
    {schema : BodySchema} {field : Except PyErr (Json F)}
    {updater : Json F → Updater F} {call : UpdateCall F}
    (hcall : (if req.ident? = none ∧ req.method = "POST" ∧
        meets schema body then
      field.toOption.map fun value => createCall (updater value)
      else none) = some call) : Answers call (req.method = "DELETE") := by
  split_ifs at hcall with hpost
  rcases Option.map_eq_some_iff.mp hcall with ⟨value, _, rfl⟩
  apply createCall_answers
  rw [hpost.2.1]
  decide

omit [PyFloat F] in
theorem change_answers {req : AdminRequest F} {body : Json F}
    {schema : BodySchema} {patch delete : Updater F} {call : UpdateCall F}
    (hcall : (if req.method = "PATCH" ∧ meets schema body then
        some (changeCall patch)
      else if req.method = "DELETE" then some (deleteCall delete)
      else none) = some call) : Answers call (req.method = "DELETE") := by
  split_ifs at hcall with hpatch hdelete
  · obtain rfl := Option.some.inj hcall
    apply changeCall_answers
    rw [hpatch.1]
    decide
  · obtain rfl := Option.some.inj hcall
    exact deleteCall_answers delete hdelete

theorem usersCall?_answers {req : AdminRequest F} {body : Json F}
    {call : UpdateCall F} (hcall : usersCall? req body = some call) :
    Answers call (req.method = "DELETE") := by
  unfold usersCall? at hcall
  cases hnamed : req.named? with
  | none =>
      rw [hnamed] at hcall
      exact create_answers hcall
  | some ident =>
      rw [hnamed] at hcall
      exact change_answers hcall

theorem tiersCall?_answers {req : AdminRequest F} {body : Json F}
    {call : UpdateCall F} (hcall : tiersCall? req body = some call) :
    Answers call (req.method = "DELETE") := by
  unfold tiersCall? at hcall
  cases hnamed : req.named? with
  | none =>
      rw [hnamed] at hcall
      exact create_answers hcall
  | some ident =>
      rw [hnamed] at hcall
      exact change_answers hcall

theorem mountpointsCall?_answers {req : AdminRequest F} {body : Json F}
    {call : UpdateCall F} (hcall : mountpointsCall? req body = some call) :
    Answers call (req.method = "DELETE") := by
  unfold mountpointsCall? at hcall
  cases hnamed : req.named? with
  | none =>
      rw [hnamed] at hcall
      exact create_answers hcall
  | some ident =>
      simp only [hnamed] at hcall
      split_ifs at hcall with hdelete hmeta
      · obtain rfl := Option.some.inj hcall
        exact deleteCall_answers _ hdelete
      · obtain rfl := Option.some.inj hcall
        apply (changeCall_answers _ hdelete).with_failed
        rintro e reply ⟨⟩

end Shapes

theorem geofencesCall?_answers {p : Principal} {req : AdminRequest F}
    {body : Json F} {call : UpdateCall F}
    (hcall : geofencesCall? p req body = some call) :
    Answers call False := by
  unfold geofencesCall? at hcall
  cases hnamed : req.named? with
  | none =>
      simp only [hnamed] at hcall
      split_ifs at hcall
      cases hdraft : geofenceDraft p body with
      | error e =>
          rw [hdraft] at hcall
          cases hcall
      | ok drafted =>
          cases drafted with
          | error reply =>
              rw [hdraft] at hcall
              cases hcall
          | ok draft =>
              rw [hdraft] at hcall
              obtain rfl := Option.some.inj hcall
              apply (createCall_answers _ id).with_failed
              rintro e reply ⟨⟩
  | some ident =>
      simp only [hnamed] at hcall
      split_ifs at hcall
      · unfold patchGeofenceCall? at hcall
        split at hcall
        · cases hcall
        · obtain rfl := Option.some.inj hcall
          exact (changeCall_answers _ id).with_failed notOwner_refuses
        · cases hcall
      · obtain rfl := Option.some.inj hcall
        exact ⟨fun _ => rfl, fun _ => by
          simp [Reply.failure, Reply.isSuccess, Reply.status?],
          notOwner_refuses⟩

theorem resourceCall?_answers [SchemaLib F] {p : Principal}
    {req : AdminRequest F} {body : Json F} {call : UpdateCall F}
    (hcall : resourceCall? p req body = some call) :
    (∃ name ∈ resourceNames, req.resource? = some name) ∧
      Answers call (BlindDelete req) := by
  unfold resourceCall? at hcall
  unfold BlindDelete
  split_ifs at hcall with hgeofences hdenied husers htiers hmountpoints
  · refine ⟨⟨"geofences", by decide, hgeofences⟩, ?_⟩
    simpa [hgeofences] using geofencesCall?_answers hcall
  · refine ⟨⟨"users", by decide, husers⟩, ?_⟩
    simpa [husers] using usersCall?_answers hcall
  · refine ⟨⟨"tiers", by decide, htiers⟩, ?_⟩
    simpa [htiers] using tiersCall?_answers hcall
  · refine ⟨⟨"mountpoints", by decide, hmountpoints⟩, ?_⟩
    simpa [hmountpoints] using mountpointsCall?_answers hcall

/-! ## The result -/

/-- `_admin_update_config` would return `False`: there is no path, or reading,
updating, writing or validating raises anything but a `PermissionError`. -/
def Refuses (s : NtripCaster F) (updater : Updater F)
    (diskError : Option PyErr) : Prop :=
  s.cfgPath = none ∨ ∃ e, s.committed updater diskError = .error e ∧
    ∀ text, e ≠ .permissionError text

theorem Refuses.write? {s : NtripCaster F} {updater : Updater F}
    {diskError : Option PyErr} (hrefuses : s.Refuses updater diskError) :
    s.write? updater diskError = none := by
  unfold NtripCaster.write?
  rcases hrefuses with hpath | ⟨e, he, _⟩
  · simp [hpath]
  · rw [he]
    exact ite_self _

/-- What the call returns: `True` with the file replaced, `False`, or the
`PermissionError` that it passes on. -/
inductive UpdateVerdict (s : NtripCaster F) (updater : Updater F)
    (diskError : Option PyErr) : Except PyErr (Bool × String) → Prop
  | done (raw : Json F) (hwrite : s.write? updater diskError = some raw) :
      UpdateVerdict s updater diskError (.ok (true, "ok"))
  | refused (msg : String) (hrefuses : s.Refuses updater diskError) :
      UpdateVerdict s updater diskError (.ok (false, msg))
  | denied (text : String) (hwrite : s.write? updater diskError = none)
      (hlets : ¬ s.Refuses updater diskError) :
      UpdateVerdict s updater diskError (.error (.permissionError text))

theorem updateConfig_verdict (s : NtripCaster F) (updater : Updater F)
    (diskError : Option PyErr) :
    UpdateVerdict s updater diskError
      (s.updateConfig updater diskError).1 := by
  unfold updateConfig
  cases hpath : s.cfgPath with
  | none => exact .refused _ (.inl hpath)
  | some path =>
      have hwrite : s.write? updater diskError =
          (s.committed updater diskError).toOption := by
        simp [NtripCaster.write?, hpath]
      cases hcommitted : s.committed updater diskError with
      | ok raw =>
          rw [hcommitted] at hwrite
          exact .done raw hwrite
      | error e =>
          rw [hcommitted] at hwrite
          have hrefuses : (∀ text, e ≠ .permissionError text) →
              s.Refuses updater diskError := by
            intro hother
            exact .inr ⟨e, hcommitted, hother⟩
          cases e with
          | permissionError text =>
              refine .denied text hwrite ?_
              rintro (hnone | ⟨e, he, hother⟩)
              · rw [hpath] at hnone
                cases hnone
              · rw [hcommitted] at he
                exact hother text (Except.error.inj he).symm
          | attributeError _ _ | typeError _ | valueError _ | overflowError _
          | keyError _ | configError _ =>
              refine .refused _ (hrefuses ?_)
              rintro text ⟨⟩

theorem answerUpdate_of_ok {s : NtripCaster F} {m : Moment}
    {call : UpdateCall F} {ok : Bool} {msg : String}
    (hok : (s.updateConfig call.updater m.diskError).1 = .ok (ok, msg)) :
    (s.answerUpdate m call.updater call.answer call.failed).isSuccess =
      (call.answer ok msg).isSuccess := by
  unfold answerUpdate
  rcases hresult : s.updateConfig call.updater m.diskError with ⟨result, s'⟩
  rw [hresult] at hok
  subst hok
  rfl

theorem answerUpdate_of_error {s : NtripCaster F} {m : Moment}
    {call : UpdateCall F} {blind : Prop} (hanswers : Answers call blind)
    {e : PyErr}
    (herror : (s.updateConfig call.updater m.diskError).1 = .error e) :
    (s.answerUpdate m call.updater call.answer call.failed).isSuccess =
      false := by
  unfold answerUpdate
  rcases hresult : s.updateConfig call.updater m.diskError with ⟨result, s'⟩
  rw [hresult] at herror
  subst herror
  unfold Outcome.isSuccess
  dsimp only
  cases hfailed : call.failed e with
  | error e' => rfl
  | ok reply => exact hanswers.failed e reply hfailed

theorem Answers.isSuccess {call : UpdateCall F} {blind : Prop}
    (hanswers : Answers call blind) (s : NtripCaster F) (m : Moment) :
    (s.answerUpdate m call.updater call.answer call.failed).isSuccess =
        true ↔
      (s.write? call.updater m.diskError).isSome = true ∨
        (blind ∧ s.Refuses call.updater m.diskError) := by
  have hverdict := s.updateConfig_verdict call.updater m.diskError
  generalize hresult : (s.updateConfig call.updater m.diskError).1 = result
    at hverdict
  cases hverdict with
  | done raw hwrite =>
      rw [answerUpdate_of_ok hresult, hanswers.done]
      simp [hwrite]
  | refused msg hrefuses =>
      rw [answerUpdate_of_ok hresult, hanswers.refused]
      simp [hrefuses.write?, hrefuses]
  | denied text hwrite hlets =>
      rw [answerUpdate_of_error hanswers hresult]
      simp [hwrite, hlets]

/-- The request passes the filters, its bearer is accepted, and its handler
makes this call of `_admin_update_config`. -/
structure RequestsUpdate [Crypto] [JwtLib F] [SchemaLib F]
    (s : NtripCaster F) (req : AdminRequest F) (m : Moment)
    (call : UpdateCall F) : Prop where
  filters : s.PassesFilters req m
  accepted : ∃ b, ((s.adminRateOk req.clientIp m.monotonic).2.authenticate
    req m).1 = some b ∧ resourceCall? b.principal req req.bodyJson = some call

theorem RequestsUpdate.handleAdmin [Crypto] [JwtLib F] [SchemaLib F]
    {s : NtripCaster F} {req : AdminRequest F} {m : Moment}
    {call : UpdateCall F} (hrequests : s.RequestsUpdate req m call) :
    ∃ s₁, SameButBuckets s s₁ ∧ s.handleAdmin req m =
      s₁.answerUpdate m call.updater call.answer call.failed := by
  rcases hrequests with ⟨⟨haddress, hrate, hquery⟩, b, hb, hcall⟩
  have hsame₁ := s.adminRateOk_same req.clientIp m.monotonic
  unfold NtripCaster.handleAdmin
  rw [haddress]
  rcases hpassed : s.adminRateOk req.clientIp m.monotonic with ⟨ok, s₁⟩
  rw [hpassed] at hrate hb hsame₁
  obtain rfl : ok = true := hrate
  have hsame₂ := s₁.authenticate_same req m
  rcases hauth : s₁.authenticate req m with ⟨b', s₂⟩
  rw [hauth] at hb hsame₂
  obtain rfl : b' = some b := hb
  rcases (resourceCall?_answers hcall).1 with ⟨name, hname, hresource⟩
  have hfollows := s₂.resource_follows b req req.bodyJson m
  rw [hcall] at hfollows
  refine ⟨s₂, hsame₁.trans hsame₂, ?_⟩
  simp only [Bool.not_true, Bool.false_eq_true, if_false, hauth, hquery]
  rw [dispatch_of_resource hname hresource]
  generalize s₂.resource b req req.bodyJson m = o? at hfollows ⊢
  cases hfollows with
  | calls _ => rfl

/-- The file afterwards: the document that the call writes, or the old one. -/
theorem RequestsUpdate.file [Crypto] [JwtLib F] [SchemaLib F]
    {s : NtripCaster F} {req : AdminRequest F} {m : Moment}
    {call : UpdateCall F} (hrequests : s.RequestsUpdate req m call) :
    (s.handleAdmin req m).server.file =
      ((s.write? call.updater m.diskError).map Except.ok).getD s.file := by
  rcases hrequests.handleAdmin with ⟨s₁, hsame, hhandled⟩
  rw [hhandled, answerUpdate_server, ← hsame.write?, ← hsame.file]
  cases s₁.updateConfig_outcome call.updater m.diskError with
  | kept hwrite hs' =>
      rw [hwrite, hs']
      rfl
  | written raw hwrite hs' =>
      rw [hwrite, hs']
      exact ({ s₁ with file := .ok raw }).reloadFromDisk_keeps.1.file

/-- What a status of 2xx says: the update has gone through, or the handler is
blind to its refusal. -/
theorem RequestsUpdate.isSuccess_iff [Crypto] [JwtLib F] [SchemaLib F]
    {s : NtripCaster F} {req : AdminRequest F} {m : Moment}
    {call : UpdateCall F} (hrequests : s.RequestsUpdate req m call) :
    (s.handleAdmin req m).isSuccess = true ↔
      (s.write? call.updater m.diskError).isSome = true ∨
        BlindDelete req ∧ s.Refuses call.updater m.diskError := by
  rcases hrequests.handleAdmin with ⟨s₁, hsame, hhandled⟩
  rcases hrequests.accepted with ⟨b, _, hcall⟩
  have hsuccess := (resourceCall?_answers hcall).2.isSuccess s₁ m
  have hrefuses : s₁.Refuses call.updater m.diskError ↔
      s.Refuses call.updater m.diskError := by
    unfold Refuses committed
    rw [hsame.file, hsame.cfgPath, hsame.environ]
  rw [hhandled, hsuccess, hsame.write?, hrefuses]

/-- The change has been committed: nothing stands against the document that the
call asks for, and this document is the file of the server afterwards. -/
def Committed (s s' : NtripCaster F) (call : UpdateCall F) (m : Moment) :
    Prop :=
  ∃ raw, s.write? call.updater m.diskError = some raw ∧ s'.file = .ok raw

theorem RequestsUpdate.committed_iff [Crypto] [JwtLib F] [SchemaLib F]
    {s : NtripCaster F} {req : AdminRequest F} {m : Moment}
    {call : UpdateCall F} (hrequests : s.RequestsUpdate req m call) :
    Committed s (s.handleAdmin req m).server call m ↔
      (s.write? call.updater m.diskError).isSome = true := by
  unfold Committed
  rw [hrequests.file]
  cases s.write? call.updater m.diskError with
  | none => simp
  | some raw => simp

theorem RequestsUpdate.of_access [Crypto] [JwtLib F] [SchemaLib F]
    {s : NtripCaster F} {req : AdminRequest F} {m : Moment}
    {claims : Claims F} {call : UpdateCall F}
    (haccess : s.PresentsAccess req m claims)
    (hfilters : s.PassesFilters req m)
    (hprivate : req.path ∉ AdminRequest.publicPaths)
    (hcall : resourceCall? (principalOf claims) req req.bodyJson =
      some call) : s.RequestsUpdate req m call := by
  have haccess₁ : (s.adminRateOk req.clientIp m.monotonic).2.PresentsAccess
      req m claims := by
    unfold PresentsAccess at haccess ⊢
    rwa [adminRateOk_jwt]
  rcases authenticate_of_access haccess₁ with ⟨b, s₂, hauth, _, hwho⟩
  have hprincipal := hwho.resolve_right hprivate
  refine ⟨hfilters, b, ?_, ?_⟩
  · rw [hauth]
  · rw [hprincipal]
    exact hcall

end NtripCaster

/-! ## Two requests of an administrator -/

def adminRequest (method path : String) (body : Json ℚ) : AdminRequest ℚ :=
  bearerRequest method path body

namespace NtripCaster

@[reducible] def adminJwt : JwtLib ℚ :=
  oneToken (accessClaims "root" "admin")

theorem smallServer_passes {method path : String} {body : Json ℚ} :
    (smallServer (.obj [])).PassesFilters (adminRequest method path body)
      firstMoment := by
  refine ⟨?_, ?_, ?_⟩
  · rfl
  · change ((smallServer (.obj [])).adminRateOk "10.0.0.1" 0).1 = true
    decide +kernel
  · rfl

def newMountpoint : AdminRequest ℚ :=
  adminRequest "POST" "/admin/mountpoints" (.obj [("name", .str "MP1")])

def deleteNobody : AdminRequest ℚ :=
  adminRequest "DELETE" "/admin/users/nobody" .null

theorem administrator_isAdmin :
    (principalOf (accessClaims "root" "admin")).isAdmin = true := by
  decide +kernel

theorem deleteNobody_requests :
    @RequestsUpdate ℚ _ noDigest adminJwt anyBody (smallServer (.obj []))
      deleteNobody firstMoment (deleteCall (deleteUser "nobody")) := by
  have hresource : deleteNobody.resource? = some "users" := by
    decide +kernel
  have hnamed : deleteNobody.named? = some "nobody" := by
    decide +kernel
  have hmethod : deleteNobody.method = "DELETE" := rfl
  refine @RequestsUpdate.of_access ℚ _ noDigest adminJwt anyBody _ _ _ _ _
    (bearerRequest_access _ _ _ _ _ _) smallServer_passes (by decide) ?_
  simp only [resourceCall?, usersCall?, hresource, hnamed,
    administrator_isAdmin, hmethod]
  rfl

end NtripCaster

end BabilCors
