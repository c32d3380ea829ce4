import BabilCors.AdminGate
import BabilCors.MintedTokens
import BabilCors.ServerRuns

/-!
# Tokens and user records

A login mints its tokens for a user of the table, with the role that the table
gives.  The exchange of a refresh token takes the subject and the role from the
old claims and does not look at the table, so its tokens follow the table only
as far as the old ones do.
-/

namespace BabilCors

open Py TransitionRuns

/-! ## Minting -/

namespace NtripCaster

variable {F : Type} [PyFloat F] [JwtLib F]

omit [PyFloat F] in
theorem mintPair_eq {s s' : NtripCaster F}
    (hsame : JwtManager.SameMint s.jwt s'.jwt) (sub role : String)
    (m : Moment) : s'.mintPair sub role m = s.mintPair sub role m := by
  simp only [mintPair, JwtManager.mintAccess, JwtManager.mintRefresh,
    JwtManager.make, hsame.secret, hsame.access, hsame.refresh]

omit [PyFloat F] in
theorem mintPair_role {s : NtripCaster F} {sub role : String} {m : Moment}
    {pair : PyDict String (Json F)} (hmint : s.mintPair sub role m = .ok pair) :
    pair.get? "role" = some (.str role) := by
  rcases bind_eq_ok.mp hmint with ⟨access, _, hrest⟩
  rcases bind_eq_ok.mp hrest with ⟨refresh, _, hpair⟩
  rw [← Except.ok.inj hpair]
  rfl

/-- The subject and the role that an exchange takes from the old claims. -/
def subjectOf (claims : Claims F) : String :=
  ((claims.get? "sub").getD .null).pyStr

def roleOf (claims : Claims F) : String :=
  ((claims.get? "role").getD (.str "admin")).pyStr

/-! ## The two endpoints -/

variable [Crypto]

/-- The pair is minted for a user of the table with the role of the table. -/
def PairOfRecord (s : NtripCaster F) (m : Moment)
    (pair : PyDict String (Json F)) : Prop :=
  ∃ sub u, s.caster.cfg.users.get? sub = some u ∧
    s.mintPair sub u.role m = .ok pair

theorem login_pair {s : NtripCaster F} {body : Json F} {m : Moment}
    {pair : PyDict String (Json F)}
    (hreply : (s.login body m).reply = .ok (.json 200 (.obj pair))) :
    s.PairOfRecord m pair := by
  unfold login at hreply
  dsimp only at hreply
  split at hreply
  · cases hreply
  · cases hreply
  next uname pwd huname hpwd =>
    cases huser : s.caster.cfg.users.get? uname with
    | none =>
        simp [huser, replies, Reply.failure] at hreply
    | some u =>
        simp only [huser] at hreply
        by_cases hsecret : s.jwt.secret = ""
        · simp [hsecret, replies, Reply.failure] at hreply
        simp only [if_neg hsecret] at hreply
        cases hverify : verifyPassword u pwd with
        | none => simp [hverify, raises] at hreply
        | some valid =>
            cases valid with
            | false => simp [hverify, replies, Reply.failure] at hreply
            | true =>
                simp only [hverify] at hreply
                by_cases hrole : lower u.role ∉ loginRoles
                · rw [if_pos hrole] at hreply
                  simp [replies, Reply.failure] at hreply
                · rw [if_neg hrole] at hreply
                  cases hmint : s.mintPair uname u.role m with
                  | error e =>
                      rw [hmint] at hreply
                      simp [replies, Reply.failure] at hreply
                  | ok minted =>
                      rw [hmint] at hreply
                      have hpair : minted = pair := by
                        simpa [replies] using hreply
                      exact ⟨uname, u, huser, by rw [hmint, hpair]⟩

omit [JwtLib F] [Crypto] in
theorem rotate_sameMint (s : NtripCaster F) (claims : Claims F)
    (m : Moment) : JwtManager.SameMint s.jwt (s.rotate claims m).jwt := by
  unfold rotate
  cases expOf claims with
  | ok exp => exact s.jwt.revokeJti_sameMint _ exp _ _
  | error e => exact ⟨rfl, rfl, rfl⟩

omit [Crypto] in
theorem tokenRefresh_pair {s : NtripCaster F} {body : Json F} {m : Moment}
    {pair : PyDict String (Json F)}
    (hreply : (s.tokenRefresh body m).reply =
      .ok (.json 200 (.obj pair))) :
    ∃ (rtok : String) (claims : Claims F),
      bodyText body "refresh" = .ok rtok ∧
      (s.jwt.decode rtok "refresh" (m.time 2) (m.time 3)).1 = some claims ∧
      s.mintPair (subjectOf claims) (roleOf claims) m = .ok pair := by
  unfold tokenRefresh at hreply
  cases hrtok : bodyText body "refresh" with
  | error e =>
      rw [hrtok] at hreply
      cases hreply
  | ok rtok =>
      rw [hrtok] at hreply
      dsimp only at hreply
      have hsame := s.jwt.decode_sameMint (F := F) rtok "refresh" (m.time 2)
        (m.time 3)
      unfold presentedRefresh at hreply
      rcases hdecode : (s.jwt.decode rtok "refresh" (m.time 2) (m.time 3) :
        Option (Claims F) × JwtManager) with ⟨_ | claims, jwt⟩
      · rw [hdecode] at hreply
        simp [replies, Reply.failure] at hreply
      · rw [hdecode] at hreply hsame
        refine ⟨rtok, claims, rfl, by rw [hdecode], ?_⟩
        dsimp only at hreply
        let rotated : NtripCaster F :=
          ({ s with jwt := jwt } : NtripCaster F).rotate claims m
        have hrotated : JwtManager.SameMint s.jwt rotated.jwt :=
          hsame.trans (rotate_sameMint { s with jwt := jwt } claims m)
        have hmint := mintPair_eq hrotated (subjectOf claims)
          (roleOf claims) m
        split at hreply
        next minted hminted =>
          have hpair : minted = pair := by
            simpa [replies] using hreply
          rw [← hpair, ← hmint]
          exact hminted
        next e hfailed => simp [raises] at hreply

/-! ## Requests -/

variable [SchemaLib F]

/-- A refresh token that is exchanged names a user of the table, with the role
of the table. -/
def ExchangesCurrent (s : NtripCaster F) : Event F → Prop
  | .admin req m =>
      req.path = "/admin/token/refresh" → req.method = "POST" →
        ∀ (rtok : String) (claims : Claims F),
          bodyText req.bodyJson "refresh" = .ok rtok →
          (s.jwt.decode rtok "refresh" (m.time 2) (m.time 3)).1 =
            some claims →
          ∃ u, s.caster.cfg.users.get? (subjectOf claims) = some u ∧
            u.role = roleOf claims
  | _ => True

/-- What the login and the exchange answer with follows the table. -/
def IssuesByRecord (s : NtripCaster F) : Event F → Prop
  | .admin req m =>
      req.path ∈ AdminRequest.publicPaths → req.method = "POST" →
        ∀ pair, (s.handleAdmin req m).reply = .ok (.json 200 (.obj pair)) →
          s.PairOfRecord m pair
  | _ => True

theorem issuesByRecord {s : NtripCaster F} {event : Event F}
    (hcurrent : s.ExchangesCurrent event) : s.IssuesByRecord event := by
  cases event with
  | admin req m =>
      intro hpublic hpost pair hreply
      cases s.handleAdmin_gate req m with
      | filtered buckets reply hkind ho =>
          rw [ho] at hreply
          rcases hkind with rfl | rfl <;> simp [replies] at hreply
      | unauthenticated buckets s' hauth ho =>
          rw [ho] at hreply
          simp [replies] at hreply
      | authenticated buckets b s' hauth ho =>
          have hsame := (s.withBuckets buckets).authenticate_public
            (m := m) hpublic
          rw [hauth] at hsame
          obtain rfl : s' = s.withBuckets buckets := hsame
          rcases ho with ho | ho
          · rw [ho] at hreply
            simp [replies, Reply.failure] at hreply
          · rw [ho, dispatch_public hpublic, if_pos hpost] at hreply
            by_cases hlogin : req.path = "/admin/login"
            · rw [if_pos hlogin] at hreply
              have hpair : (s.withBuckets buckets).PairOfRecord m pair :=
                login_pair hreply
              exact hpair
            · rw [if_neg hlogin] at hreply
              have hrefresh : req.path = "/admin/token/refresh" := by
                simpa [AdminRequest.publicPaths, hlogin] using hpublic
              rcases tokenRefresh_pair hreply with
                ⟨rtok, claims, hrtok, hclaims, hmint⟩
              rcases hcurrent hrefresh hpost rtok claims hrtok hclaims with
                ⟨u, huser, hrole⟩
              exact ⟨subjectOf claims, u, huser, by rw [hrole]; exact hmint⟩
  | _ => trivial

/-- In a run of the server whose exchanges are all of current tokens, every
token that is issued follows the table of its moment. -/
theorem run_issuesByRecord {s : NtripCaster F} {events : List (Event F)}
    (hcurrent : StepsMeet step ExchangesCurrent s events) :
    StepsMeet step IssuesByRecord s events :=
  StepsMeet.of_invariant (P := fun _ => True) (fun _ _ _ _ _ _ => trivial)
    (fun _ _ _ hmeets => issuesByRecord hmeets) trivial hcurrent

end NtripCaster

/-! ## A demoted administrator -/

def rootServer (role : String) : NtripCaster ℚ :=
  { smallServer (.obj []) with
    caster := .new (.basic "s3cret"
      [("root", { UserRecord.basic "root" "toor" none with role := role })])
      false [] }

namespace NtripCaster

def loginRequest : AdminRequest ℚ :=
  bearerRequest "POST" "/admin/login"
    (.obj [("username", .str "root"), ("password", .str "toor")])

def answeredRole? (o : Outcome ℚ) : Option String :=
  match o.reply with
  | .ok (.json status (.obj pair)) =>
      if status = 200 then (PyDict.get? pair "role").map Json.pyStr else none
  | _ => none

theorem pair_of_answeredRole? {o : Outcome ℚ} {role : String}
    (hrole : answeredRole? o = some role) :
    ∃ pair, o.reply = .ok (.json 200 (.obj pair)) ∧
      (PyDict.get? pair "role").map Json.pyStr = some role := by
  unfold answeredRole? at hrole
  split at hrole
  next status pair hreply =>
    by_cases hstatus : status = 200
    · rw [if_pos hstatus] at hrole
      exact ⟨pair, by rw [hreply, hstatus], hrole⟩
    · rw [if_neg hstatus] at hrole
      cases hrole
  · cases hrole

theorem run_issuesByRecord_login :
    answeredRole? (@handleAdmin ℚ _ noDigest (oneToken refreshClaims) anyBody
        (rootServer "admin") loginRequest firstMoment) = some "admin" ∧
      StepsMeet (@step ℚ _ noDigest (oneToken refreshClaims) anyBody)
        (@IssuesByRecord ℚ _ (oneToken refreshClaims) noDigest anyBody)
        (rootServer "admin") [.admin loginRequest firstMoment] := by
  refine ⟨by decide +kernel, ?_⟩
  refine @run_issuesByRecord ℚ _ (oneToken refreshClaims) noDigest anyBody
    _ _ ?_
  refine ⟨fun hpath => ?_, fun _ _ => trivial⟩
  exact absurd hpath (by decide)

def refreshRequest : AdminRequest ℚ :=
  bearerRequest "POST" "/admin/token/refresh"
    (.obj [("refresh", .str "access-token")])

theorem demoted_refreshes_admin :
    ¬ @IssuesByRecord ℚ _ (oneToken refreshClaims) noDigest anyBody
      (rootServer "user") (.admin refreshRequest firstMoment) := by
  intro hissues
  have hanswered : answeredRole? (@handleAdmin ℚ _ noDigest
      (oneToken refreshClaims) anyBody (rootServer "user") refreshRequest
        firstMoment) = some "admin" := by
    decide +kernel
  rcases pair_of_answeredRole? hanswered with ⟨pair, hreply, hadmin⟩
  rcases hissues (by decide) rfl pair hreply with ⟨sub, u, huser, hmint⟩
  have hrole : u.role = "user" := by
    have hmem := PyDict.mem_of_get? huser
    simp only [rootServer, Caster.new, CasterCfg.basic, List.mem_cons,
      List.not_mem_nil, or_false] at hmem
    rw [(Prod.mk.inj hmem).2]
  rw [@mintPair_role ℚ (oneToken refreshClaims) _ _ _ _ _ hmint, hrole]
    at hadmin
  exact absurd hadmin (by decide)

end NtripCaster

end BabilCors
