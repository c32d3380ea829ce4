import BabilCors.AdminEffects

/-!
# The way to an admin handler

A request under `/admin/` is stopped by the address, the rate, the token or its
query, or it is dispatched.  In front of the token only a rate bucket is
changed.  The two public endpoints need no token; behind them the login, the
exchange of a refresh token and the rover part are all there is.
-/

namespace BabilCors

open Py

namespace NtripCaster

variable {F : Type}

def withBuckets (s : NtripCaster F) (buckets : PyDict String TokenBucket) :
    NtripCaster F :=
  { s with adminBuckets := buckets }

theorem adminRateOk_eq (s : NtripCaster F) (ip : String) (now : ℚ) :
    ∃ ok buckets, s.adminRateOk ip now = (ok, s.withBuckets buckets) := by
  unfold adminRateOk
  split_ifs
  · exact ⟨true, s.adminBuckets, rfl⟩
  · exact ⟨_, _, rfl⟩

section Gate

variable [PyFloat F] [Crypto] [JwtLib F] [SchemaLib F]

/-- Where a request ends: at a filter, at the token, or behind it. -/
inductive GateOutcome (s : NtripCaster F) (req : AdminRequest F) (m : Moment)
    (o : Outcome F) : Prop
  | filtered (buckets : PyDict String TokenBucket) (reply : Reply F)
      (hreply : reply = .forbidden ∨ reply = .tooManyRequests)
      (ho : o = (s.withBuckets buckets).replies reply)
  | unauthenticated (buckets : PyDict String TokenBucket)
      (s' : NtripCaster F)
      (hauth : (s.withBuckets buckets).authenticate req m = (none, s'))
      (ho : o = s'.replies .forbidden)
  | authenticated (buckets : PyDict String TokenBucket) (b : Bearer F)
      (s' : NtripCaster F)
      (hauth : (s.withBuckets buckets).authenticate req m = (some b, s'))
      (ho : o = s'.replies (.failure 400 "invalid_request"
          "query parameters are not allowed for admin api" none) ∨
        o = s'.dispatch b req m)

theorem handleAdmin_gate (s : NtripCaster F) (req : AdminRequest F)
    (m : Moment) : GateOutcome s req m (s.handleAdmin req m) := by
  unfold handleAdmin
  cases s.adminIpOk req with
  | false => exact .filtered s.adminBuckets .forbidden (.inl rfl) rfl
  | true =>
      rcases s.adminRateOk_eq req.clientIp m.monotonic with
        ⟨ok, buckets, hrate⟩
      simp only [hrate, Bool.not_true, Bool.false_eq_true, if_false]
      cases ok with
      | false => exact .filtered buckets .tooManyRequests (.inr rfl) rfl
      | true =>
          rcases hauth : (s.withBuckets buckets).authenticate req m with
            ⟨_ | b, s'⟩
          · exact .unauthenticated buckets s' hauth (by simp only [hauth])
          · refine .authenticated buckets b s' hauth ?_
            simp only [hauth]
            cases queryOk req with
            | false => exact .inl rfl
            | true => exact .inr rfl

/-! ## The public endpoints -/

omit [JwtLib F] [SchemaLib F] in
theorem operation_public {s : NtripCaster F} {b : Bearer F}
    {req : AdminRequest F} {body : Json F} {m : Moment}
    (hpublic : req.path ∈ AdminRequest.publicPaths) :
    s.operation b req body m =
      ⟨{ s with
          caster := s.caster.handleRover ⟨req.addr, req.path, req.headers⟩
            m.monotonic }, .ok .rover⟩ := by
  have hpaths : ∀ path ∈ AdminRequest.publicPaths,
      path ∉ operationPaths ∧ path ≠ "/admin/openapi.json" ∧
        path ≠ "/admin/status" ∧ startsWith path "/admin/rovers" = false ∧
        startsWith path "/admin/disable" = false ∧
        startsWith path "/admin/enable" = false ∧
        startsWith path "/admin/kick" = false ∧
        startsWith path "/admin/audit" = false := by
    decide +kernel
  rcases hpaths req.path hpublic with
    ⟨hoperation, hopenapi, hstatus, hrovers, hdisable, henable, hkick,
      haudit⟩
  unfold operation
  simp [hoperation, hopenapi, hstatus, hrovers, hdisable, henable, hkick,
    haudit]

theorem dispatch_public {s : NtripCaster F} {b : Bearer F}
    {req : AdminRequest F} {m : Moment}
    (hpublic : req.path ∈ AdminRequest.publicPaths) :
    s.dispatch b req m =
      if req.method = "POST" then
        if req.path = "/admin/login" then s.login req.bodyJson m
        else s.tokenRefresh req.bodyJson m
      else s.operation b req req.bodyJson m := by
  have hresource : s.resource b req req.bodyJson m = none := by
    apply resource_none
    exact resource?_of_fixed (List.mem_append_left _ hpublic)
  have hpaths : req.path = "/admin/login" ∨
      req.path = "/admin/token/refresh" := by
    simpa [AdminRequest.publicPaths] using hpublic
  unfold dispatch
  dsimp only
  rw [hresource]
  rcases hpaths with hpath | hpath <;>
    by_cases hmethod : req.method = "POST" <;>
      simp [hpath, hmethod]

omit [SchemaLib F] in
theorem authenticate_public {s : NtripCaster F} {req : AdminRequest F}
    {m : Moment} (hpublic : req.path ∈ AdminRequest.publicPaths) :
    (s.authenticate req m).2 = s := by
  unfold authenticate
  rw [if_pos hpublic]

end Gate

end NtripCaster

end BabilCors
