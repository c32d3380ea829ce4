import BabilCors.AdminAudit
import BabilCors.AdminGate
import BabilCors.EventLog
import BabilCors.ServerRuns

/-!
# The trail that the audit shows

The deque keeps the last thousand records.  Over a run of the server the
records make one trail: each is of an admin request of the run, in the order
of the requests, and every change that an operation made is among them.  A
`POST /admin/audit` shows an administrator the end of this trail, as far back
as the limit of the body says, and shows it to nobody else.
-/

namespace BabilCors

open Py TransitionRuns

/-- The client, the trace and the outcome. -/
def AuditItem.origin {F : Type} (item : AuditItem F) :
    (String × String) × Bool :=
  ((item.clientIp, item.traceId), item.ok)

namespace NtripCaster

variable {F : Type} [PyFloat F]

/-! ## The trail of a run -/

section Trail

variable [Crypto] [JwtLib F] [SchemaLib F]

/-- An admin request, with whether an operation has changed something. -/
def asked (s : NtripCaster F) : Event F → List ((String × String) × Bool)
  | .admin req m =>
      [((req.clientIp, req.traceId), operates req && s.changes req m)]
  | .connection _ | .snapshot _ | .reload => []

/-- The records of these requests: none of a change is missing. -/
structure TrailOf (requests : List ((String × String) × Bool))
    (items : List (AuditItem F)) : Prop where
  inOrder : (items.map AuditItem.origin).Sublist requests
  complete : (items.map AuditItem.origin).filter Prod.snd =
    requests.filter Prod.snd

omit [PyFloat F] [Crypto] [JwtLib F] [SchemaLib F] in
theorem TrailOf.nil : TrailOf [] ([] : List (AuditItem F)) :=
  ⟨.slnil, rfl⟩

omit [PyFloat F] [Crypto] [JwtLib F] [SchemaLib F] in
theorem TrailOf.quiet {requests : List ((String × String) × Bool)}
    {items : List (AuditItem F)} (h : TrailOf requests items)
    (origin : String × String) :
    TrailOf (requests ++ [(origin, false)]) items where
  inOrder := h.inOrder.trans (List.sublist_append_left _ _)
  complete := by
    rw [h.complete, List.filter_append]
    simp

omit [PyFloat F] [Crypto] [JwtLib F] [SchemaLib F] in
theorem TrailOf.record {requests : List ((String × String) × Bool)}
    {items : List (AuditItem F)} (h : TrailOf requests items)
    (item : AuditItem F) :
    TrailOf (requests ++ [item.origin]) (items ++ [item]) where
  inOrder := by
    rw [List.map_append]
    exact h.inOrder.append (List.Sublist.refl _)
  complete := by
    rw [List.map_append, List.filter_append, List.filter_append, h.complete]
    rfl

/-- One event, when the deque is the end of the trail before. -/
theorem step_trail {s s' : NtripCaster F} {event : Event F}
    (hstep : s.step event = some s')
    {requests : List ((String × String) × Bool)} {items : List (AuditItem F)}
    (haudit : s.audit = items.rtake 1000) (htrail : TrailOf requests items) :
    ∃ items', s'.audit = items'.rtake 1000 ∧
      TrailOf (requests ++ s.asked event) items' := by
  cases event with
  | connection event =>
      obtain ⟨caster, -, rfl⟩ := Option.map_eq_some_iff.mp hstep
      exact ⟨items, haudit, by simpa [asked] using htrail⟩
  | snapshot mountpoint =>
      obtain rfl := Option.some.inj hstep
      exact ⟨items, haudit, by simpa [asked] using htrail⟩
  | reload =>
      obtain rfl := Option.some.inj hstep
      exact ⟨items, s.reloadFromDisk_keeps.1.audit.trans haudit,
        by simpa [asked] using htrail⟩
  | admin req m =>
      obtain rfl := Option.some.inj hstep
      have hasked : s.asked (.admin req m) =
          [((req.clientIp, req.traceId), operates req && s.changes req m)] :=
        rfl
      rw [hasked]
      cases s.handleAdmin_audit req m with
      | quiet hchange hkept =>
          rw [hchange]
          exact ⟨items, hkept.trans haudit, htrail.quiet _⟩
      | record item hip htrace hok hadded =>
          refine ⟨items ++ [item], ?_, ?_⟩
          · rw [hadded, haudit, rtake_append_rtake]
          · have horigin : item.origin = ((req.clientIp, req.traceId),
                operates req && s.changes req m) := by
              unfold AuditItem.origin
              rw [hip, htrace, hok]
            rw [← horigin]
            exact htrail.record item

theorem run_trail {s s' : NtripCaster F} {events : List (Event F)}
    (hempty : s.audit = []) (hrun : run step s events = some s') :
    ∃ items, s'.audit = items.rtake 1000 ∧
      TrailOf (outputs step asked s events) items := by
  have hany : StepsMeet step (fun _ _ => True) s events :=
    .of_forall fun _ _ _ => trivial
  rw [← List.nil_append (outputs step asked s events)]
  refine StepsMeet.run_outputs (P := fun requests state => ∃ items,
    state.audit = items.rtake 1000 ∧ TrailOf requests items) ?_ ?_ hany hrun
  · rintro requests state event next ⟨items, haudit, htrail⟩ _ hnext
    exact step_trail hnext haudit htrail
  · exact ⟨[], hempty.trans (List.rtake_nil 1000).symm, .nil⟩

end Trail

/-! ## What the page shows -/

/-- The limit of the body, between one and a thousand. -/
def auditLimit (body : Json F) : ℕ :=
  let limit : ℤ :=
    match body.getD "limit" (.int 100) >>= fun value =>
        (value.orElse (.int 100)).pyInt with
    | .ok limit => limit
    | .error _ => 100
  (max 1 (min limit 1000)).toNat

theorem auditLimit_le (body : Json F) : auditLimit body ≤ 1000 := by
  unfold auditLimit
  dsimp only
  omega

theorem auditTail_of_post {s : NtripCaster F} {req : AdminRequest F}
    (hmethod : req.method = "POST") (body : Json F) :
    s.auditTail req body =
      s.replies (.auditTail (s.audit.rtake (auditLimit body))) := by
  unfold auditTail
  rw [if_neg (not_not.mpr hmethod)]
  rfl

variable [Crypto] [JwtLib F] [SchemaLib F]

/-- The request passes every filter and has the role of an administrator. -/
def admitsAdmin (s : NtripCaster F) (req : AdminRequest F) (m : Moment) :
    Bool :=
  s.adminIpOk req &&
    match s.adminRateOk req.clientIp m.monotonic with
    | (false, _) => false
    | (true, s) =>
        match s.authenticate req m with
        | (none, _) => false
        | (some b, _) => queryOk req && b.principal.isAdmin

theorem dispatch_auditPath (s : NtripCaster F) (b : Bearer F)
    {req : AdminRequest F} (m : Moment) (hpath : req.path = "/admin/audit")
    (hmethod : req.method = "POST") :
    s.dispatch b req m =
      if b.principal.isAdmin then
        s.replies (.auditTail (s.audit.rtake (auditLimit req.bodyJson)))
      else s.replies .writeRequiresAdmin := by
  have hsegment : req.resource? = some "audit" := by
    unfold AdminRequest.resource? AdminRequest.parts
    rw [hpath]
    decide
  have hresource : s.resource b req req.bodyJson m = none := by
    apply resource_none
    intro name hname
    rw [hsegment]
    rintro ⟨⟩
    revert hname
    decide
  have hbase (base : String) (hbase : base ∈ basePaths) :
      startsWith req.path base = false := by
    rw [hpath]
    revert base
    decide
  have hdisable := hbase "/admin/disable" (by decide)
  have henable := hbase "/admin/enable" (by decide)
  have hkick := hbase "/admin/kick" (by decide)
  have hrovers : startsWith req.path "/admin/rovers" = false := by
    rw [hpath]
    decide
  have haudit : startsWith req.path "/admin/audit" = true := by
    rw [hpath]
    decide
  have hlisted : req.path ∈ operationPaths := by
    rw [hpath]
    decide
  have hoperation : s.operation b req req.bodyJson m =
      if b.principal.isAdmin then s.auditTail req req.bodyJson
      else s.replies .writeRequiresAdmin := by
    unfold operation
    cases b.principal.isAdmin with
    | false => simp [hlisted, hmethod]
    | true =>
        simp only [hdisable, henable, hkick, hrovers, haudit, if_true]
        simp [hpath]
  unfold dispatch
  simp only [hpath, String.reduceEq, false_and, if_false, hresource,
    Option.getD_none]
  rw [hoperation, auditTail_of_post hmethod]

/-- A request for the audit is answered with its end, or refused. -/
theorem handleAdmin_auditPath (s : NtripCaster F) {req : AdminRequest F}
    (m : Moment) (hpath : req.path = "/admin/audit")
    (hmethod : req.method = "POST") (shown : List (AuditItem F)) :
    (s.handleAdmin req m).reply = .ok (.auditTail shown) ↔
      s.admitsAdmin req m = true ∧
        shown = s.audit.rtake (auditLimit req.bodyJson) := by
  have hrefused {reply : Reply F} {b : Bool} (hb : b = false)
      (hother : reply ≠ .auditTail shown) :
      (.ok reply : Except PyErr (Reply F)) = .ok (.auditTail shown) ↔
        b = true ∧ shown = s.audit.rtake (auditLimit req.bodyJson) := by
    rw [hb]
    exact iff_of_false (fun h => hother (Except.ok.inj h)) (by simp)
  unfold handleAdmin admitsAdmin
  cases s.adminIpOk req with
  | false => exact hrefused rfl (by rintro ⟨⟩)
  | true =>
      rcases s.adminRateOk_eq req.clientIp m.monotonic with
        ⟨ok, buckets, hrate⟩
      simp only [hrate, Bool.not_true, Bool.false_eq_true, if_false,
        Bool.true_and]
      cases ok with
      | false => exact hrefused rfl (by rintro ⟨⟩)
      | true =>
          rcases (s.withBuckets buckets).authenticate_jwt req m with
            ⟨jwt, hjwt⟩
          rcases hauth : (s.withBuckets buckets).authenticate req m with
            ⟨b?, s'⟩
          rw [hauth] at hjwt
          have haudit : s'.audit = s.audit := by
            rw [show s' = _ from hjwt]
            rfl
          cases b? with
          | none =>
              simp only [hauth]
              exact hrefused rfl (by rintro ⟨⟩)
          | some b =>
              simp only [hauth]
              cases queryOk req with
              | false => exact hrefused rfl (by rintro ⟨⟩)
              | true =>
                  rw [Bool.not_true, if_neg Bool.false_ne_true,
                    Bool.true_and,
                    s'.dispatch_auditPath b m hpath hmethod, haudit]
                  cases b.principal.isAdmin with
                  | false => exact hrefused rfl (by rintro ⟨⟩)
                  | true =>
                      simp only [if_true, replies, Except.ok.injEq,
                        Reply.auditTail.injEq, true_and]
                      exact eq_comm

/-- In every run of the server the records make one trail, in the order of the
requests and with every change of an operation; and an administrator who asks
for the audit is shown the end of it, and nobody else. -/
theorem run_auditTail {s s' : NtripCaster F} {events : List (Event F)}
    (hempty : s.audit = []) (hrun : run step s events = some s') :
    ∃ items, TrailOf (outputs step asked s events) items ∧
      ∀ (req : AdminRequest F) (m : Moment), req.path = "/admin/audit" →
        req.method = "POST" → ∀ shown,
          (s'.handleAdmin req m).reply = .ok (.auditTail shown) ↔
            s'.admitsAdmin req m = true ∧
              shown = items.rtake (auditLimit req.bodyJson) := by
  obtain ⟨items, haudit, htrail⟩ := run_trail hempty hrun
  refine ⟨items, htrail, ?_⟩
  intro req m hpath hmethod shown
  rw [s'.handleAdmin_auditPath m hpath hmethod, haudit,
    EventLog.rtake_rtake (auditLimit_le req.bodyJson)]

end NtripCaster

namespace NtripCaster

def auditRequest : AdminRequest ℚ :=
  adminRequest "POST" "/admin/audit" (.obj [])

/-- A disable is on the trail that the administrator is shown. -/
theorem run_auditTail_disable :
    ∃ item, item.origin = (("10.0.0.1", "t1"), true) ∧
      (@handleAdmin ℚ _ noDigest adminJwt anyBody
        (@handleAdmin ℚ _ noDigest adminJwt anyBody (smallServer (.obj []))
          disableRequest firstMoment).server auditRequest
            firstMoment).reply = .ok (.auditTail [item]) := by
  obtain ⟨items, htrail, hshown⟩ := @run_auditTail ℚ _ noDigest adminJwt
    anyBody (smallServer (.obj [])) _ [.admin disableRequest firstMoment]
    rfl rfl
  have hchanges : @changes ℚ _ noDigest adminJwt anyBody
      (smallServer (.obj [])) disableRequest firstMoment = true := by
    decide +kernel
  have hasked : outputs (@step ℚ _ noDigest adminJwt anyBody)
      (@asked ℚ _ noDigest adminJwt anyBody) (smallServer (.obj []))
      [.admin disableRequest firstMoment] =
        [(("10.0.0.1", "t1"), true)] := by
    simp only [outputs, asked, hchanges, Bool.and_true]
    rfl
  have hrecords := htrail.complete
  have horder := htrail.inOrder
  rw [hasked] at hrecords horder
  obtain ⟨item, rfl, horigin⟩ :
      ∃ item, items = [item] ∧ item.origin = (("10.0.0.1", "t1"), true) := by
    rcases List.sublist_singleton.mp horder with hnone | hone
    · rw [hnone] at hrecords
      cases hrecords
    · exact List.map_eq_singleton_iff.mp hone
  exact ⟨item, horigin, (hshown auditRequest firstMoment rfl rfl [item]).mpr
    ⟨by decide +kernel, rfl⟩⟩

end NtripCaster

end BabilCors
