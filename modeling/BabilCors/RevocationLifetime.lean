import BabilCors.MintedTokens
import BabilCors.TransitionRuns

/-!
# How long a revocation lasts

Calls of the token manager, with the dictionary of the process as its store.
A revocation lasts until the expiry that it names; a later one of the same id
takes its place, whatever expiry that one names.
-/

namespace BabilCors

open Py TransitionRuns

/-- A call with its readings of the clock; `decode` has the reading of the
library and that of `is_revoked`. -/
inductive TokenCall where
  | revokeJti (jti : String) (exp now : ℤ)
  | isRevoked (jti : String) (now : ℤ)
  | decode (token expectedType : String) (libNow now : ℤ)
  deriving DecidableEq, Repr

def TokenCall.readings : TokenCall → List ℤ
  | .revokeJti _ _ now | .isRevoked _ now => [now]
  | .decode _ _ libNow now => [libNow, now]

structure TimedManager where
  jwt : JwtManager
  clock : ℤ
  deriving DecidableEq

namespace TimedManager

section Calls

variable (F : Type) [PyFloat F] [JwtLib F]

def apply (jwt : JwtManager) : TokenCall → JwtManager
  | .revokeJti jti exp now => jwt.revokeJti jti exp now now
  | .isRevoked jti now => (jwt.isRevoked jti now).2
  | .decode token expectedType libNow now =>
      (jwt.decode token expectedType libNow now :
        Option (Claims F) × JwtManager).2

def step (s : TimedManager) (call : TokenCall) : Option TimedManager :=
  if (s.clock :: call.readings).Pairwise (· ≤ ·) then
    some ⟨apply F s.jwt call, call.readings.getLastD s.clock⟩
  else
    none

def Rejects (token : String) (s : TimedManager) : TokenCall → Prop
  | .decode text expectedType libNow now =>
      text = token → s.clock ≤ libNow → libNow ≤ now →
        (s.jwt.decode text expectedType libNow now :
          Option (Claims F) × JwtManager).1 = none
  | _ => True

end Calls

/-- The id is not revoked anew until an earlier time, and the two readings of
one `decode` are not on the two sides of the expiry. -/
def Lasting (token jti : String) (exp : ℤ) (_ : TimedManager) :
    TokenCall → Prop
  | .revokeJti other exp' now => other = jti → now < exp' → exp ≤ exp'
  | .isRevoked _ _ => True
  | .decode text _ libNow now => text = token → libNow < exp → now < exp

/-! ## One call -/

/-- The token is settled in the dictionary. -/
structure Keeps (secret jti : String) (exp : ℤ) (s : TimedManager) :
    Prop where
  secret : s.jwt.secret = secret
  redis : s.jwt.redis = none
  settled : s.jwt.Settled jti exp s.clock

theorem settled_revokeJti {jwt : JwtManager} {jti other : String}
    {exp exp' clock now : ℤ} (hredis : jwt.redis = none)
    (hsettled : jwt.Settled jti exp clock) (hnow : clock ≤ now)
    (hlasting : other = jti → now < exp' → exp ≤ exp') :
    (jwt.revokeJti other exp' now now).Settled jti exp now := by
  unfold JwtManager.revokeJti
  by_cases hover : exp' ≤ now
  · rw [if_pos hover]
    exact hsettled.later hnow
  · rw [if_neg hover, hredis]
    rcases hsettled with hgone | ⟨till, htill, hentry⟩
    · exact .inl (hgone.trans hnow)
    · refine .inr ?_
      simp only [JwtManager.store, hredis, Option.getD_none] at hentry ⊢
      by_cases hother : other = jti
      · subst hother
        refine ⟨exp', hlasting rfl (by omega), ?_⟩
        simp
      · refine ⟨till, htill, ?_⟩
        rwa [PyDict.get?_set_of_ne _ _ hother]

theorem settled_isRevoked {jwt : JwtManager} {jti : String}
    {exp clock now : ℤ} (hsettled : jwt.Settled jti exp clock)
    (hnow : clock ≤ now) (other : String) :
    (jwt.isRevoked other now).2.Settled jti exp now := by
  rcases hsettled with hgone | ⟨till, htill, hentry⟩
  · exact .inl (hgone.trans hnow)
  · by_cases hover : exp ≤ now
    · exact .inl hover
    · refine .inr ⟨till, htill, ?_⟩
      unfold JwtManager.isRevoked
      cases hredis : jwt.redis with
      | some keys => exact hentry
      | none =>
          cases hexp : jwt.revoked.get? other with
          | none => exact hentry
          | some exp' =>
              dsimp only
              by_cases hdeleted : exp' ≤ now
              · rw [if_pos hdeleted]
                simp only [JwtManager.store, hredis, Option.getD_none]
                  at hentry ⊢
                have hother : other ≠ jti := by
                  rintro rfl
                  rw [hexp] at hentry
                  have hsame := Option.some.inj hentry
                  omega
                rwa [PyDict.get?_erase_of_ne _ hother]
              · rw [if_neg hdeleted]
                exact hentry

section Steps

variable {F : Type} [PyFloat F] [JwtLib F] {m : JwtManager}
  {token typ jti : String} {exp : ℤ} {claims : Claims F}

theorem settled_decode {jwt : JwtManager} {clock now : ℤ}
    (hsettled : jwt.Settled jti exp clock) (hnow : clock ≤ now)
    (text expectedType : String) (libNow : ℤ) :
    (jwt.decode text expectedType libNow now :
      Option (Claims F) × JwtManager).2.Settled jti exp now := by
  rw [JwtManager.decode_eq]
  cases jwt.accepted? (F := F) text expectedType libNow with
  | none => exact hsettled.later hnow
  | some claims' =>
      rw [Option.elim_some]
      split_ifs
      · exact hsettled.later hnow
      · exact hsettled.later hnow
      · exact settled_isRevoked hsettled hnow _

theorem decode_redis {jwt : JwtManager} (hredis : jwt.redis = none)
    (text expectedType : String) (libNow now : ℤ) :
    (jwt.decode text expectedType libNow now :
      Option (Claims F) × JwtManager).2.redis = none := by
  rw [JwtManager.decode_eq]
  cases jwt.accepted? (F := F) text expectedType libNow with
  | none => exact hredis
  | some claims' =>
      rw [Option.elim_some]
      split_ifs
      · exact hredis
      · exact hredis
      · rw [jwt.isRevoked_redis]
        exact hredis

theorem Keeps.step {secret : String} {s s' : TimedManager}
    (hs : s.Keeps secret jti exp) {call : TokenCall}
    (hlasting : s.Lasting token jti exp call)
    (hstep : s.step F call = some s') : s'.Keeps secret jti exp := by
  unfold TimedManager.step at hstep
  split_ifs at hstep with hreadings
  obtain rfl := Option.some.inj hstep
  cases call with
  | revokeJti other exp' now =>
      have hnow : s.clock ≤ now := by
        simpa [TokenCall.readings] using hreadings
      refine ⟨?_, ?_, settled_revokeJti hs.redis hs.settled hnow hlasting⟩
      · have hsame := s.jwt.revokeJti_sameMint other exp' now now
        exact hsame.secret.trans hs.secret
      · change (s.jwt.revokeJti other exp' now now).redis = none
        unfold JwtManager.revokeJti
        rw [hs.redis]
        split_ifs
        · exact hs.redis
        · rfl
  | isRevoked other now =>
      have hnow : s.clock ≤ now := by
        simpa [TokenCall.readings] using hreadings
      refine ⟨?_, ?_, settled_isRevoked hs.settled hnow other⟩
      · exact (s.jwt.isRevoked_sameMint other now).secret.trans hs.secret
      · exact (s.jwt.isRevoked_redis other now).trans hs.redis
  | decode text expectedType libNow now =>
      have hboth : (s.clock ≤ libNow ∧ s.clock ≤ now) ∧ libNow ≤ now := by
        simpa [TokenCall.readings] using hreadings
      refine ⟨?_, decode_redis hs.redis text expectedType libNow now,
        settled_decode hs.settled hboth.1.2 text expectedType libNow⟩
      have hsame := s.jwt.decode_sameMint (F := F) text expectedType libNow
        now
      exact hsame.secret.trans hs.secret

theorem Keeps.rejects (hminted : m.Minted token typ jti exp claims)
    {s : TimedManager} (hs : s.Keeps m.secret jti exp) {call : TokenCall}
    (hlasting : s.Lasting token jti exp call) : s.Rejects F token call := by
  cases call with
  | revokeJti _ _ _ => trivial
  | isRevoked _ _ => trivial
  | decode text expectedType libNow now =>
      rintro rfl hclock _
      rw [JwtManager.decode_eq]
      cases haccepted : s.jwt.accepted? (F := F) text expectedType
          libNow with
      | none => rfl
      | some claims' =>
          rcases hminted.of_accepted hs.secret haccepted with ⟨rfl, hlt⟩
          have hrevoked := hs.settled.isRevoked (by omega)
            (hlasting rfl hlt)
          rw [Option.elim_some, hminted.jtiOf_eq, if_neg hminted.jti_ne,
            if_pos hrevoked]

end Steps

/-! ## Runs -/

section Runs

variable {F : Type} [PyFloat F] [JwtLib F]

/-- Behind a revocation until its expiry, a minted token is not accepted any
more in a run whose calls leave the revocation in place. -/
theorem run_rejects {m : JwtManager} {token typ jti : String} {exp now : ℤ}
    {claims : Claims F} {s revoked : TimedManager} {calls : List TokenCall}
    (hminted : m.Minted token typ jti exp claims)
    (hsecret : s.jwt.secret = m.secret) (hredis : s.jwt.redis = none)
    (hbefore : now < exp)
    (hrevoke : s.step F (.revokeJti jti exp now) = some revoked)
    (hlasting : StepsMeet (step F) (Lasting token jti exp) revoked calls) :
    StepsMeet (step F) (Rejects F token) revoked calls := by
  have hstart : revoked.Keeps m.secret jti exp := by
    unfold step at hrevoke
    split_ifs at hrevoke with hreadings
    obtain rfl := Option.some.inj hrevoke
    have hover : ¬ exp ≤ now := by omega
    refine ⟨?_, ?_, .inr ⟨exp, le_rfl, ?_⟩⟩
    · exact (s.jwt.revokeJti_sameMint jti exp now now).secret.trans hsecret
    · simp [apply, JwtManager.revokeJti, hover, hredis]
    · simp [apply, JwtManager.revokeJti, JwtManager.store, hover, hredis]
  exact StepsMeet.of_invariant
    (fun _ _ _ hs hmeets hstep => hs.step hmeets hstep)
    (fun _ _ hs hmeets => hs.rejects hminted hmeets) hstart hlasting

end Runs

/-! ## A revoked refresh token -/

def revokedManager : TimedManager :=
  ⟨{ smallManager none with revoked := [("r1", 900)] }, 100⟩

theorem revokedManager_step :
    @step ℚ _ refreshLib ⟨smallManager none, 100⟩
      (.revokeJti "r1" 900 100) = some revokedManager := by
  decide

theorem run_rejects_revoked :
    StepsMeet (@step ℚ _ refreshLib)
      (@Rejects ℚ _ refreshLib "refresh-token") revokedManager
      [.isRevoked "r1" 200, .decode "refresh-token" "refresh" 300 300] := by
  refine @run_rejects ℚ _ refreshLib (smallManager none) "refresh-token"
    "refresh" "r1" 900 100 refreshClaims ⟨smallManager none, 100⟩
    revokedManager _ (refreshClaims_minted _) rfl rfl (by decide)
    revokedManager_step ?_
  apply StepsMeet.of_forall
  intro call hcall s
  simp only [List.mem_cons, List.not_mem_nil, or_false] at hcall
  rcases hcall with rfl | rfl
  · trivial
  · exact fun _ => id

/-- A second revocation that names an earlier time brings the token back. -/
theorem shorter_revocation_revives :
    (∃ s, @step ℚ _ refreshLib s (.revokeJti "r1" 900 100) =
        some revokedManager) ∧
      ¬ StepsMeet (@step ℚ _ refreshLib)
        (@Rejects ℚ _ refreshLib "refresh-token") revokedManager
        [.revokeJti "r1" 200 150,
          .decode "refresh-token" "refresh" 300 300] := by
  refine ⟨⟨_, revokedManager_step⟩, fun hmeets => ?_⟩
  let overwritten : TimedManager :=
    ⟨{ smallManager none with revoked := [("r1", 200)] }, 150⟩
  have hstep : @step ℚ _ refreshLib revokedManager
      (.revokeJti "r1" 200 150) = some overwritten := by
    decide
  have hrejects := (hmeets.2 overwritten hstep).1 rfl (by decide) (by decide)
  have haccepted : (@JwtManager.decode ℚ _ refreshLib overwritten.jwt
      "refresh-token" "refresh" 300 300).1.isSome = true := by
    decide +kernel
  rw [hrejects] at haccepted
  cases haccepted

end TimedManager

end BabilCors
