import BabilCors.AdminRequests

/-!
# Tokens of the manager

A token that `_make` has minted, and what the library is relied on for: it
gives the claims back, and it does so only before the token expires.
-/

namespace BabilCors

open Py

namespace JwtManager

variable {F : Type} [PyFloat F] [JwtLib F]

omit [PyFloat F] in
theorem make_eq_ok {m : JwtManager} {sub role typ jti token : String}
    {expS now : ℤ} {claims : Claims F}
    (hmade : m.make sub role typ expS now jti = .ok (token, claims)) :
    claims = [("sub", .str sub), ("role", .str role), ("type", .str typ),
      ("iat", .int now), ("exp", .int (now + expS)), ("jti", .str jti)] := by
  rcases map_eq_ok.mp hmade with ⟨text, _, hpair⟩
  exact (Prod.mk.inj hpair).2.symm

/-- A minted token with its id and expiry; `uuid4().hex` is never empty. -/
structure Minted (m : JwtManager) (token typ jti : String) (exp : ℤ)
    (claims : Claims F) : Prop where
  made : ∃ sub role expS now, exp = now + expS ∧
    m.make sub role typ expS now jti = .ok (token, claims)
  jti_ne : jti ≠ ""
  /-- The library verifies the signature and the expiry. -/
  verified : ∀ libNow claims',
    JwtLib.decode? token m.secret libNow = some claims' →
      claims' = claims ∧ libNow < exp

variable {m : JwtManager} {token typ jti : String} {exp : ℤ}
  {claims : Claims F}

theorem Minted.jtiOf_eq (hminted : m.Minted token typ jti exp claims) :
    jtiOf claims = jti := by
  rcases hminted.made with ⟨sub, role, expS, now, _, hmade⟩
  have hjti : claims.get? "jti" = some (.str jti) := by
    rw [make_eq_ok hmade]
    rfl
  have htruthy : (Json.str jti : Json F).orElse (.str "") = .str jti := by
    simp [Json.orElse, Json.truthy, hminted.jti_ne]
  unfold jtiOf
  rw [hjti, Option.getD_some, htruthy]
  rfl

theorem Minted.expOf_eq (hminted : m.Minted token typ jti exp claims) :
    NtripCaster.expOf claims = .ok exp := by
  rcases hminted.made with ⟨sub, role, expS, now, hexp, hmade⟩
  have hclaim : claims.get? "exp" = some (.int exp) := by
    rw [make_eq_ok hmade, hexp]
    rfl
  have htruthy : (Json.int exp : Json F).orElse (.int 0) = .int exp := by
    by_cases hzero : exp = 0
    · rw [hzero]
      rfl
    · simp [Json.orElse, Json.truthy, hzero]
  unfold NtripCaster.expOf
  rw [hclaim, Option.getD_some, htruthy]
  rfl

theorem Minted.of_accepted (hminted : m.Minted token typ jti exp claims)
    {m' : JwtManager} (hsecret : m'.secret = m.secret) {typ' : String}
    {libNow : ℤ} {claims' : Claims F}
    (haccepted : m'.accepted? token typ' libNow = some claims') :
    claims' = claims ∧ libNow < exp := by
  unfold accepted? at haccepted
  rw [hsecret] at haccepted
  exact hminted.verified libNow claims'
    (Option.filter_eq_some_iff.mp haccepted).1

/-! ## Settled tokens -/

/-- The token is over or revoked until it is. -/
def Settled (m : JwtManager) (jti : String) (exp clock : ℤ) : Prop :=
  exp ≤ clock ∨ ∃ till, exp ≤ till ∧ m.store.get? jti = some till

theorem Settled.later {clock clock' : ℤ} (hsettled : m.Settled jti exp clock)
    (hclock : clock ≤ clock') : m.Settled jti exp clock' := by
  rcases hsettled with hover | hentry
  · exact .inl (hover.trans hclock)
  · exact .inr hentry

theorem Settled.isRevoked {clock now : ℤ}
    (hsettled : m.Settled jti exp clock) (hclock : clock < exp)
    (hnow : now < exp) : (m.isRevoked jti now).1 = true := by
  rcases hsettled with hover | ⟨till, htill, hentry⟩
  · omega
  · exact isRevoked_iff.mpr ⟨till, hentry, by omega⟩

end JwtManager

/-! ## A small manager -/

@[reducible] def expiringToken (token : String) (claims : Claims ℚ)
    (exp : ℤ) : JwtLib ℚ where
  encode _ _ := .ok token
  decode? text _ libNow :=
    if text = token ∧ libNow < exp then some claims else none

def refreshClaims : Claims ℚ :=
  [("sub", .str "root"), ("role", .str "admin"), ("type", .str "refresh"),
    ("iat", .int 0), ("exp", .int 900), ("jti", .str "r1")]

abbrev refreshLib : JwtLib ℚ :=
  expiringToken "refresh-token" refreshClaims 900

theorem refreshClaims_minted (jwt : JwtManager) :
    @JwtManager.Minted ℚ refreshLib jwt "refresh-token" "refresh" "r1" 900
      refreshClaims := by
  refine @JwtManager.Minted.mk ℚ refreshLib jwt "refresh-token" "refresh"
    "r1" 900 refreshClaims ⟨"root", "admin", 900, 0, rfl, rfl⟩ (by decide) ?_
  intro libNow claims' hdecode
  have hverified : (if "refresh-token" = "refresh-token" ∧ libNow < 900
      then some refreshClaims else none) = some claims' := hdecode
  split_ifs at hverified with hlt
  exact ⟨(Option.some.inj hverified).symm, hlt.2⟩

def smallManager (redis : Option (PyDict String ℤ)) : JwtManager :=
  ⟨"secret", 900, 604800, [], redis⟩

end BabilCors
