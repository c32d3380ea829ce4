import BabilCors.AdminGate
import BabilCors.MintedTokens

/-!
# Requests without credentials

A connection that begins with an HTTP request or a SOURCE line and carries no
valid credential changes counters and rate buckets, and nothing else of the
server: the admin paths stop at the token, the two public endpoints refuse, and
what falls through to the rover part stops at the password.
-/

namespace BabilCors

open Py

variable {F : Type}

/-! ## Counters and buckets -/

namespace Caster

/-- The servers differ at most in the counts of refused logins. -/
def SameButRefusals (c c' : Caster F) : Prop :=
  ∃ total perMp sources, c' = { c with
    authUnauthTotal := total
    authUnauthPerMp := perMp
    sourceUnauthTotal := sources }

theorem SameButRefusals.refl (c : Caster F) : SameButRefusals c c :=
  ⟨_, _, _, rfl⟩

theorem countUnauthorized_sameButRefusals (c : Caster F) (m : String) :
    SameButRefusals c (c.countUnauthorized m) :=
  ⟨_, _, _, rfl⟩

theorem handleRover_refused [PyFloat F] [Crypto] {c : Caster F}
    {req : RoverRequest} (now : ℚ)
    (hbasic : ∀ username password u,
      parseBasicAuth ((req.headers.get? "authorization").getD "") =
        .ok (some (username, password)) →
      c.cfg.users.get? username = some u →
      verifyPassword u password ≠ some true) :
    SameButRefusals c (c.handleRover req now) := by
  unfold handleRover
  dsimp only
  split_ifs
  · exact .refl c
  cases hauth : parseBasicAuth
      ((req.headers.get? "authorization").getD "") with
  | error e => exact .refl c
  | ok pair =>
      rcases pair with _ | ⟨username, password⟩
      · exact c.countUnauthorized_sameButRefusals _
      · dsimp only
        cases huser : c.cfg.users.get? username with
        | none => exact c.countUnauthorized_sameButRefusals _
        | some u =>
            have hwrong := hbasic username password u hauth huser
            dsimp only
            cases hverify : verifyPassword u password with
            | none => exact .refl c
            | some valid =>
                cases valid with
                | false => exact c.countUnauthorized_sameButRefusals _
                | true => exact (hwrong hverify).elim

theorem handleSource_refused {c : Caster F} {first : Bytes} (addr : String)
    (hasCert : Bool)
    (hpassword : ∀ kind password path rest,
      splitWs (strip (safeDecode first)) = kind :: password :: path :: rest →
        password ≠ c.cfg.sources.password) :
    SameButRefusals c (c.handleSource first addr hasCert) := by
  unfold handleSource
  split
  next kind password path rest hline =>
    dsimp only
    rw [if_pos (hpassword kind password path rest hline)]
    exact ⟨_, _, _, rfl⟩
  · exact .refl c

end Caster

namespace NtripCaster

/-- The servers differ at most in rate buckets and in those counts: the file,
the disabled mountpoints, the hubs with their sources and rovers and the
revocations are the same. -/
def SameButCounters (s s' : NtripCaster F) : Prop :=
  ∃ buckets caster, s.caster.SameButRefusals caster ∧
    s' = { s with adminBuckets := buckets, caster := caster }

theorem SameButCounters.refl (s : NtripCaster F) : SameButCounters s s :=
  ⟨_, _, .refl s.caster, rfl⟩

theorem sameButCounters_withBuckets (s : NtripCaster F)
    (buckets : PyDict String TokenBucket) :
    SameButCounters s (s.withBuckets buckets) :=
  ⟨buckets, _, .refl s.caster, rfl⟩

theorem sameButCounters_caster {s : NtripCaster F} {c : Caster F}
    (hrefused : s.caster.SameButRefusals c) :
    SameButCounters s { s with caster := c } :=
  ⟨s.adminBuckets, c, hrefused, rfl⟩

theorem SameButCounters.of_withBuckets {s s' : NtripCaster F}
    {buckets : PyDict String TokenBucket}
    (hsame : SameButCounters (s.withBuckets buckets) s') :
    SameButCounters s s' := by
  rcases hsame with ⟨buckets', caster, hrefused, rfl⟩
  exact ⟨buckets', caster, hrefused, rfl⟩

section Requests

variable [PyFloat F] [Crypto] [JwtLib F]

/-- The first line of a connection, with what the handler gets of the rest. -/
inductive Request (F : Type) where
  | http (req : AdminRequest F) (m : Moment)
  | source (first : Bytes) (addr : String) (hasCert : Bool)

def handleHttp [SchemaLib F] (s : NtripCaster F) (req : AdminRequest F)
    (m : Moment) : Outcome F :=
  if req.path ∈ ["/healthz", "/metrics", "/metrics.json"] then
    s.replies .page
  else if startsWith req.path "/admin/" then s.handleAdmin req m
  else
    ⟨{ s with
        caster := s.caster.handleRover ⟨req.addr, req.path, req.headers⟩
          m.monotonic }, .ok .rover⟩

def serve [SchemaLib F] (s : NtripCaster F) : Request F → NtripCaster F
  | .http req m => (s.handleHttp req m).server
  | .source first addr hasCert =>
      { s with caster := s.caster.handleSource first addr hasCert }

/-- An HTTP request without a password that verifies, a static or an access
token, a refresh token or a login in its body. -/
structure WithoutCredential (s : NtripCaster F) (req : AdminRequest F)
    (m : Moment) : Prop where
  basic : ∀ username password u,
    parseBasicAuth ((req.headers.get? "authorization").getD "") =
      .ok (some (username, password)) →
    s.caster.cfg.users.get? username = some u →
    verifyPassword u password ≠ some true
  static : s.adminToken ≠ "" → req.bearer ≠ s.adminToken
  access : s.jwt.secret ≠ "" →
    (s.jwt.decode req.bearer "access" (m.time 0) (m.time 1) :
      Option (Claims F) × JwtManager).1 = none
  refresh : ∀ rtok, bodyText req.bodyJson "refresh" = .ok rtok →
    (s.jwt.decode rtok "refresh" (m.time 2) (m.time 3) :
      Option (Claims F) × JwtManager).1 = none
  login : ∀ username password u,
    bodyText req.bodyJson "username" = .ok username →
    bodyText req.bodyJson "password" = .ok password →
    s.caster.cfg.users.get? username = some u →
    verifyPassword u password ≠ some true

/-- A request, or a SOURCE line with another password than the configured
one. -/
def Unauthenticated (s : NtripCaster F) : Request F → Prop
  | .http req m => s.WithoutCredential req m
  | .source first _ _ => ∀ kind password path rest,
      splitWs (strip (safeDecode first)) = kind :: password :: path :: rest →
        password ≠ s.caster.cfg.sources.password

/-! ## The handlers -/

theorem rover_refused {s : NtripCaster F} {req : AdminRequest F}
    {m : Moment} (hno : s.WithoutCredential req m) :
    SameButCounters s { s with
      caster := s.caster.handleRover ⟨req.addr, req.path, req.headers⟩
        m.monotonic } := by
  apply sameButCounters_caster
  apply Caster.handleRover_refused
  exact hno.basic

theorem WithoutCredential.withBuckets {s : NtripCaster F}
    {req : AdminRequest F} {m : Moment} (hno : s.WithoutCredential req m)
    (buckets : PyDict String TokenBucket) :
    (s.withBuckets buckets).WithoutCredential req m :=
  ⟨hno.basic, hno.static, hno.access, hno.refresh, hno.login⟩

/-- A private path does not get past the token, and the refusal leaves the
revocations alone. -/
theorem authenticate_refused {s : NtripCaster F} {req : AdminRequest F}
    {m : Moment} (hno : s.WithoutCredential req m)
    (hprivate : req.path ∉ AdminRequest.publicPaths) :
    s.authenticate req m = (none, s) := by
  have hstatic : s.adminToken = "" ∨ req.bearer ≠ s.adminToken := by
    by_cases htoken : s.adminToken = ""
    · exact .inl htoken
    · exact .inr (hno.static htoken)
  unfold authenticate
  rw [if_neg hprivate]
  dsimp only
  by_cases hbearer : s.jwt.secret ≠ "" ∧ req.bearer ≠ ""
  · have hnone := hno.access hbearer.1
    rw [if_pos hbearer]
    rcases hdecode : (s.jwt.decode req.bearer "access" (m.time 0)
      (m.time 1) : Option (Claims F) × JwtManager) with ⟨claims?, jwt⟩
    rw [hdecode] at hnone
    obtain rfl : claims? = none := hnone
    obtain rfl := JwtManager.decode_none hdecode
    exact if_pos hstatic
  · rw [if_neg hbearer]
    exact if_pos hstatic

omit [Crypto] in
theorem tokenRefresh_refused {s : NtripCaster F} {body : Json F}
    {m : Moment}
    (hrefresh : ∀ rtok, bodyText body "refresh" = .ok rtok →
      (s.jwt.decode rtok "refresh" (m.time 2) (m.time 3) :
        Option (Claims F) × JwtManager).1 = none) :
    (s.tokenRefresh body m).server = s := by
  unfold tokenRefresh
  cases hrtok : bodyText body "refresh" with
  | error e => rfl
  | ok rtok =>
      have hnone := hrefresh rtok hrtok
      unfold presentedRefresh
      dsimp only
      rcases hdecode : (s.jwt.decode rtok "refresh" (m.time 2) (m.time 3) :
        Option (Claims F) × JwtManager) with ⟨claims?, jwt⟩
      rw [hdecode] at hnone
      obtain rfl : claims? = none := hnone
      obtain rfl := JwtManager.decode_none hdecode
      rfl

theorem dispatch_refused [SchemaLib F] {s : NtripCaster F} {b : Bearer F}
    {req : AdminRequest F} {m : Moment} (hno : s.WithoutCredential req m)
    (hpublic : req.path ∈ AdminRequest.publicPaths) :
    SameButCounters s (s.dispatch b req m).server := by
  rw [dispatch_public hpublic]
  by_cases hmethod : req.method = "POST"
  · rw [if_pos hmethod]
    by_cases hlogin : req.path = "/admin/login"
    · rw [if_pos hlogin, login_server]
      exact .refl s
    · rw [if_neg hlogin, tokenRefresh_refused hno.refresh]
      exact .refl s
  · rw [if_neg hmethod, operation_public hpublic]
    exact rover_refused hno

theorem handleAdmin_refused [SchemaLib F] {s : NtripCaster F}
    {req : AdminRequest F} {m : Moment} (hno : s.WithoutCredential req m) :
    SameButCounters s (s.handleAdmin req m).server := by
  have hkept (buckets : PyDict String TokenBucket) :
      ((s.withBuckets buckets).authenticate req m).2 =
        s.withBuckets buckets := by
    by_cases hpublic : req.path ∈ AdminRequest.publicPaths
    · exact authenticate_public hpublic
    · rw [authenticate_refused (hno.withBuckets buckets) hpublic]
  cases s.handleAdmin_gate req m with
  | filtered buckets reply hreply ho =>
      rw [ho]
      exact s.sameButCounters_withBuckets buckets
  | unauthenticated buckets s' hauth ho =>
      have hs' := hkept buckets
      rw [hauth] at hs'
      obtain rfl : s' = s.withBuckets buckets := hs'
      rw [ho]
      exact s.sameButCounters_withBuckets buckets
  | authenticated buckets b s' hauth ho =>
      have hs' := hkept buckets
      rw [hauth] at hs'
      obtain rfl : s' = s.withBuckets buckets := hs'
      rcases ho with ho | ho
      · rw [ho]
        exact s.sameButCounters_withBuckets buckets
      · have hpublic : req.path ∈ AdminRequest.publicPaths := by
          by_contra hprivate
          rw [authenticate_refused (hno.withBuckets buckets) hprivate]
            at hauth
          cases (Prod.mk.inj hauth).1
        rw [ho]
        apply SameButCounters.of_withBuckets
        exact dispatch_refused (hno.withBuckets buckets) hpublic

theorem handleHttp_refused [SchemaLib F] {s : NtripCaster F}
    {req : AdminRequest F} {m : Moment} (hno : s.WithoutCredential req m) :
    SameButCounters s (s.handleHttp req m).server := by
  unfold handleHttp
  by_cases hpage : req.path ∈ ["/healthz", "/metrics", "/metrics.json"]
  · rw [if_pos hpage]
    exact .refl s
  · rw [if_neg hpage]
    by_cases hadmin : startsWith req.path "/admin/" = true
    · rw [if_pos hadmin]
      exact handleAdmin_refused hno
    · rw [if_neg hadmin]
      exact rover_refused hno

/-- Whatever the request, without a credential the file, the disabled
mountpoints, the hubs, the sessions and the revocations are as before. -/
theorem serve_unauthenticated [SchemaLib F] {s : NtripCaster F}
    {request : Request F} (hno : s.Unauthenticated request) :
    SameButCounters s (s.serve request) := by
  cases request with
  | http req m => exact handleHttp_refused hno
  | source first addr hasCert =>
      apply sameButCounters_caster
      exact Caster.handleSource_refused addr hasCert hno

end Requests

theorem serve_unauthenticated_refreshToken :
    SameButCounters (smallServer (.obj []))
      (@serve ℚ _ noDigest (oneToken refreshClaims) anyBody
        (smallServer (.obj []))
        (.http (bearerRequest "DELETE" "/admin/users/rover" .null)
          firstMoment)) := by
  refine @serve_unauthenticated ℚ _ noDigest (oneToken refreshClaims) anyBody
    _ _ ?_
  have hbasic : parseBasicAuth "Bearer access-token" = .ok none := by
    decide +kernel
  have hstranger : (Caster.oneUser).cfg.users.get? "" = none := by
    decide +kernel
  refine @WithoutCredential.mk ℚ _ noDigest (oneToken refreshClaims) _ _ _
    ?_ ?_ ?_ ?_ ?_
  · intro username password u hauth
    have hpair := hbasic.symm.trans hauth
    cases hpair
  · intro htoken
    exact (htoken rfl).elim
  · intro _
    decide +kernel
  · rintro rtok hrtok
    obtain rfl : "" = rtok := Except.ok.inj hrtok
    decide +kernel
  · intro username password u huname _ huser
    obtain rfl : "" = username := Except.ok.inj huname
    have hpair := hstranger.symm.trans huser
    cases hpair

end NtripCaster

end BabilCors
