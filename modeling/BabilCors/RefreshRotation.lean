import BabilCors.MintedTokens
import BabilCors.TransitionRuns

/-!
# The exchange of a refresh token

Requests that carry the same refresh token at once.  With the dictionary of the
process an exchange is one step; with Redis the request is suspended at the GET
and at the SETEX, and the other requests go on meanwhile.  Between the two the
token is not revoked yet, and a SETEX that fails leaves it so.
-/

namespace BabilCors

open Py TransitionRuns

/-- Where a request stands: not begun, with the GET on its way, with the answer
of the GET, with the SETEX on its way, in front of the new pair, and the three
ends. -/
inductive RefreshPhase (F : Type) where
  | waiting
  | looking (claims : Claims F)
  | looked (claims : Claims F) (revoked : Bool)
  | revoking (claims : Claims F) (ttl : ℤ)
  | minting
  | exchanged
  | refused
  | raised

namespace RefreshPhase

variable {F : Type}

/-- The request has found the token not revoked and has not ended its SETEX. -/
def unsettled : RefreshPhase F → Bool
  | .looked _ false | .revoking _ _ => true
  | _ => false

def rotated : RefreshPhase F → Bool
  | .minting | .exchanged => true
  | _ => false

def passed (phase : RefreshPhase F) : Bool :=
  phase.unsettled || phase.rotated

def answered : RefreshPhase F → Bool
  | .exchanged => true
  | _ => false

def claims? : RefreshPhase F → Option (Claims F)
  | .looking claims | .looked claims _ | .revoking claims _ => some claims
  | _ => none

theorem unsettled_of_claims? {phase : RefreshPhase F}
    (hnone : phase.claims? = none) : phase.unsettled = false := by
  cases phase with
  | looked claims revoked => cases hnone
  | revoking claims ttl => cases hnone
  | _ => rfl

end RefreshPhase

structure RefreshRace (F : Type) where
  jwt : JwtManager
  clock : ℤ
  phase : ℕ → RefreshPhase F

/-- The steps of the request `i`, with the readings of the clock and with
whether the operation succeeds. -/
inductive RefreshEvent where
  /-- The whole request, with the dictionary. -/
  | exchange (i : ℕ) (libNow now now' now'' : ℤ) (ok : Bool)
  | arrive (i : ℕ) (libNow : ℤ)
  | get (i : ℕ) (now : ℤ) (ok : Bool)
  | resume (i : ℕ) (now now' : ℤ)
  | setex (i : ℕ) (now : ℤ) (ok : Bool)
  | mint (i : ℕ) (ok : Bool)
  deriving DecidableEq, Repr

def RefreshEvent.readings : RefreshEvent → List ℤ
  | .exchange _ libNow now now' now'' _ => [libNow, now, now', now'']
  | .arrive _ libNow => [libNow]
  | .get _ now _ | .setex _ now _ => [now]
  | .resume _ now now' => [now, now']
  | .mint _ _ => []

namespace RefreshRace

variable {F : Type}

def start (jwt : JwtManager) (clock : ℤ) : RefreshRace F :=
  ⟨jwt, clock, fun _ => .waiting⟩

def goTo (s : RefreshRace F) (i : ℕ) (phase : RefreshPhase F) :
    RefreshRace F :=
  { s with phase := Function.update s.phase i phase }

theorem goTo_self (s : RefreshRace F) (i : ℕ) (phase : RefreshPhase F) :
    (s.goTo i phase).phase i = phase := by
  simp [goTo]

theorem goTo_other (s : RefreshRace F) (i : ℕ) (phase : RefreshPhase F) :
    ∀ j, j ≠ i → (s.goTo i phase).phase j = s.phase j := by
  intro j hj
  simp [goTo, hj]

variable [PyFloat F]

def rotateJwt (jwt : JwtManager) (claims : Claims F) (now now' : ℤ) :
    JwtManager :=
  match NtripCaster.expOf claims with
  | .ok exp => jwt.revokeJti (JwtManager.jtiOf claims) exp now now'
  | .error _ => jwt

variable [JwtLib F]

/-- `none` when the event cannot happen in the state. -/
def advance (token : String) (s : RefreshRace F) :
    RefreshEvent → Option (RefreshRace F)
  | .exchange i libNow now now' now'' ok =>
      match s.jwt.redis, s.phase i with
      | none, .waiting =>
          match (s.jwt.decode token "refresh" libNow now :
            Option (Claims F) × JwtManager) with
          | (none, jwt) => some ({ s with jwt := jwt }.goTo i .refused)
          | (some claims, jwt) =>
              some ({ s with jwt := rotateJwt jwt claims now' now'' }.goTo i
                (if ok then .exchanged else .raised))
      | _, _ => none
  | .arrive i libNow =>
      match s.jwt.redis, s.phase i with
      | some _, .waiting =>
          match s.jwt.accepted? token "refresh" libNow with
          | none => some (s.goTo i .refused)
          | some claims =>
              if JwtManager.jtiOf claims = "" then
                some (s.goTo i (.looked claims false))
              else
                some (s.goTo i (.looking claims))
      | _, _ => none
  | .get i now ok =>
      match s.phase i with
      | .looking claims =>
          some (s.goTo i (if ok then
            .looked claims (s.jwt.isRevoked (JwtManager.jtiOf claims) now).1
          else .raised))
      | _ => none
  | .resume i now now' =>
      match s.phase i with
      | .looked _ true => some (s.goTo i .refused)
      | .looked claims false =>
          match NtripCaster.expOf claims with
          | .ok exp =>
              if exp ≤ now then some (s.goTo i .minting)
              else some (s.goTo i (.revoking claims (max (exp - now') 1)))
          | .error _ => some (s.goTo i .minting)
      | _ => none
  | .setex i now ok =>
      match s.phase i, s.jwt.redis with
      | .revoking claims ttl, some keys =>
          let keys :=
            if ok then keys.set (JwtManager.jtiOf claims) (now + ttl)
            else keys
          some ({ s with
            jwt := { s.jwt with redis := some keys } }.goTo i .minting)
      | _, _ => none
  | .mint i ok =>
      match s.phase i with
      | .minting => some (s.goTo i (if ok then .exchanged else .raised))
      | _ => none

def step (token : String) (s : RefreshRace F) (event : RefreshEvent) :
    Option (RefreshRace F) :=
  if (s.clock :: event.readings).Pairwise (· ≤ ·) then
    (s.advance token event).map fun next =>
      { next with clock := event.readings.getLastD s.clock }
  else
    none

/-! ## The condition -/

omit [PyFloat F] [JwtLib F] in
/-- What the exchange does not look at: a revocation is looked up before the
token expires and while no other request stands between its GET and its SETEX,
and the SETEX succeeds. -/
def Orderly (exp : ℤ) (s : RefreshRace F) : RefreshEvent → Prop
  | .exchange _ libNow now _ _ _ => libNow < exp → now < exp
  | .get i now _ => now < exp ∧ ∀ j, j ≠ i → (s.phase j).unsettled = false
  | .setex _ _ ok => ok = true
  | _ => True

/-! ## The invariant -/

/-- At most one request has passed, and the token is settled behind it. -/
structure PassesOnce (secret jti : String) (exp : ℤ) (claims : Claims F)
    (s : RefreshRace F) : Prop where
  secret : s.jwt.secret = secret
  known : ∀ i c, (s.phase i).claims? = some c → c = claims
  one : ∀ i j, (s.phase i).passed = true → (s.phase j).passed = true → i = j
  settled : ∀ i, (s.phase i).rotated = true →
    s.jwt.Settled jti exp s.clock
  lives : ∀ i c ttl, s.phase i = .revoking c ttl → exp ≤ s.clock + ttl
  dictionary : s.jwt.redis = none → ∀ i, (s.phase i).claims? = none

variable {secret jti token : String} {exp : ℤ} {claims : Claims F}

omit [PyFloat F] [JwtLib F] in
theorem PassesOnce.moved {s s' : RefreshRace F}
    (hs : s.PassesOnce secret jti exp claims) {i : ℕ}
    {phase : RefreshPhase F} (hi : s'.phase i = phase)
    (hrest : ∀ j, j ≠ i → s'.phase j = s.phase j)
    (hsecret : s'.jwt.secret = s.jwt.secret)
    (hredis : s'.jwt.redis = none → s.jwt.redis = none)
    (hclock : s.clock ≤ s'.clock)
    (hkeeps : s.jwt.Settled jti exp s.clock →
      s'.jwt.Settled jti exp s'.clock)
    (hknown : ∀ c, phase.claims? = some c → c = claims)
    (hpassed : phase.passed = true → (s.phase i).passed = true ∨
      ∀ j, j ≠ i → (s.phase j).passed = false)
    (hrotated : phase.rotated = true → s'.jwt.Settled jti exp s'.clock)
    (hlives : ∀ c ttl, phase = .revoking c ttl → exp ≤ s'.clock + ttl)
    (hdictionary : s'.jwt.redis = none → phase.claims? = none) :
    s'.PassesOnce secret jti exp claims := by
  subst hi
  have hother (j : ℕ) (hj : j ≠ i) (hi : (s'.phase i).passed = true) :
      (s'.phase j).passed = false := by
    rw [hrest j hj]
    rcases hpassed hi with hold | hnone
    · by_contra hpass
      exact hj (hs.one j i (by simpa using hpass) hold)
    · exact hnone j hj
  refine ⟨hsecret.trans hs.secret, ?_, ?_, ?_, ?_, ?_⟩
  · intro j c hc
    by_cases hj : j = i
    · rw [hj] at hc
      exact hknown c hc
    · rw [hrest j hj] at hc
      exact hs.known j c hc
  · intro j k hj hk
    by_cases hji : j = i
    · by_contra hne
      rw [hji] at hj
      rw [hother k (fun hki => hne (hji.trans hki.symm)) hj] at hk
      cases hk
    · by_cases hki : k = i
      · rw [hki] at hk
        rw [hother j hji hk] at hj
        cases hj
      · rw [hrest j hji] at hj
        rw [hrest k hki] at hk
        exact hs.one j k hj hk
  · intro j hj
    by_cases hji : j = i
    · rw [hji] at hj
      exact hrotated hj
    · rw [hrest j hji] at hj
      exact hkeeps (hs.settled j hj)
  · intro j c ttl hj
    by_cases hji : j = i
    · rw [hji] at hj
      exact hlives c ttl hj
    · rw [hrest j hji] at hj
      have hold := hs.lives j c ttl hj
      omega
  · intro hnone j
    by_cases hji : j = i
    · rw [hji]
      exact hdictionary hnone
    · rw [hrest j hji]
      exact hs.dictionary (hredis hnone) j

omit [PyFloat F] [JwtLib F] in
theorem PassesOnce.stopped {s s' : RefreshRace F}
    (hs : s.PassesOnce secret jti exp claims) {i : ℕ}
    {phase : RefreshPhase F} (hi : s'.phase i = phase)
    (hrest : ∀ j, j ≠ i → s'.phase j = s.phase j) (hjwt : s'.jwt = s.jwt)
    (hclock : s.clock ≤ s'.clock)
    (hknown : ∀ c, phase.claims? = some c → c = claims)
    (hdictionary : s.jwt.redis = none → phase.claims? = none)
    (hstopped : phase.passed = false) :
    s'.PassesOnce secret jti exp claims := by
  have hrotated : phase.rotated = false := by
    have hboth : phase.unsettled = false ∧ phase.rotated = false := by
      simpa [RefreshPhase.passed] using hstopped
    exact hboth.2
  apply hs.moved hi hrest (congrArg _ hjwt) (fun h => hjwt ▸ h) hclock
  · intro hsettled
    rw [hjwt]
    exact hsettled.later hclock
  · exact hknown
  · intro hpassed
    rw [hstopped] at hpassed
    cases hpassed
  · intro hpassed
    rw [hrotated] at hpassed
    cases hpassed
  · intro c ttl hphase
    rw [hphase] at hstopped
    cases hstopped
  · rwa [hjwt]

/-! ## Steps -/

omit [JwtLib F] in
theorem rotateJwt_secret (jwt : JwtManager) (c : Claims F) (now now' : ℤ) :
    (rotateJwt jwt c now now').secret = jwt.secret := by
  unfold rotateJwt
  cases NtripCaster.expOf c with
  | ok exp => exact (jwt.revokeJti_sameMint _ exp now now').secret
  | error e => rfl

theorem rotateJwt_settled {m jwt : JwtManager} {now now' : ℤ}
    (hminted : m.Minted token "refresh" jti exp claims)
    (hredis : jwt.redis = none) (hnow : now ≤ now') :
    (rotateJwt jwt claims now now').Settled jti exp now' := by
  unfold rotateJwt
  rw [hminted.expOf_eq, hminted.jtiOf_eq]
  dsimp only
  unfold JwtManager.revokeJti
  by_cases hover : exp ≤ now
  · exact .inl (hover.trans hnow)
  · rw [if_neg hover, hredis]
    refine .inr ⟨exp, le_rfl, ?_⟩
    simp [JwtManager.store]

theorem PassesOnce.exchange {m : JwtManager} {s s' : RefreshRace F}
    (hminted : m.Minted token "refresh" jti exp claims)
    (hs : s.PassesOnce m.secret jti exp claims) {i : ℕ}
    {libNow now now' now'' : ℤ} {ok : Bool}
    (horderly : libNow < exp → now < exp)
    (hlib : s.clock ≤ libNow) (hnow : libNow ≤ now) (hnow' : now ≤ now')
    (hnow'' : now' ≤ now'')
    (hadvance : s.advance token (.exchange i libNow now now' now'' ok) =
      some s') :
    ({ s' with clock := now'' } : RefreshRace F).PassesOnce m.secret jti exp
      claims := by
  have hclock : s.clock ≤ now'' := by omega
  simp only [advance] at hadvance
  split at hadvance
  next hredis hphase =>
    split at hadvance
    next jwt hdecode =>
      have hkept : jwt = s.jwt := JwtManager.decode_none hdecode
      obtain rfl := Option.some.inj hadvance
      exact hs.stopped (goTo_self _ i _) (goTo_other _ i _) hkept hclock
        (by simp [RefreshPhase.claims?]) (fun _ => rfl) rfl
    next c jwt hdecode =>
      obtain rfl := Option.some.inj hadvance
      rcases JwtManager.decode_some hdecode with ⟨haccepted, hlook, _⟩
      rcases hminted.of_accepted hs.secret haccepted with ⟨rfl, hlt⟩
      rw [hminted.jtiOf_eq] at hlook
      rcases hlook hminted.jti_ne with ⟨hrevoked, rfl⟩
      have hredis' : (s.jwt.isRevoked jti now).2.redis = none := by
        rw [s.jwt.isRevoked_redis]
        exact hredis
      have hsettled := rotateJwt_settled hminted hredis' hnow''
      -- a settled token would have been found revoked
      have hnone (j : ℕ) : (s.phase j).passed = false := by
        by_contra hpassed
        have hsettles := RefreshPhase.unsettled_of_claims?
          (hs.dictionary hredis j)
        have hrotated : (s.phase j).rotated = true := by
          simpa [RefreshPhase.passed, hsettles] using hpassed
        have hfound : (s.jwt.isRevoked jti now).1 = true :=
          (hs.settled j hrotated).isRevoked (by omega) (horderly hlt)
        rw [hrevoked] at hfound
        cases hfound
      refine hs.moved (goTo_self _ i _) (goTo_other _ i _)
        ?_ ?_ hclock ?_ ?_ ?_ ?_ ?_ ?_
      · rw [← (s.jwt.isRevoked_sameMint jti now).secret]
        exact rotateJwt_secret _ c now' now''
      · intro _
        exact hredis
      · intro _
        exact hsettled
      · cases ok <;> simp [RefreshPhase.claims?]
      · intro _
        exact .inr fun j _ => hnone j
      · intro _
        exact hsettled
      · cases ok <;> simp
      · cases ok <;> simp [RefreshPhase.claims?]
  · cases hadvance

theorem PassesOnce.arrive {m : JwtManager} {s s' : RefreshRace F}
    (hminted : m.Minted token "refresh" jti exp claims)
    (hs : s.PassesOnce m.secret jti exp claims) {i : ℕ} {libNow : ℤ}
    (hlib : s.clock ≤ libNow)
    (hadvance : s.advance token (.arrive i libNow) = some s') :
    ({ s' with clock := libNow } : RefreshRace F).PassesOnce m.secret jti exp
      claims := by
  simp only [advance] at hadvance
  split at hadvance
  next keys hredis hphase =>
    split at hadvance
    next hnone =>
      obtain rfl := Option.some.inj hadvance
      exact hs.stopped (goTo_self _ i _) (goTo_other _ i _) rfl hlib
        (by simp [RefreshPhase.claims?]) (fun _ => rfl) rfl
    next c haccepted =>
      rcases hminted.of_accepted hs.secret haccepted with ⟨rfl, _⟩
      rw [if_neg (by rw [hminted.jtiOf_eq]; exact hminted.jti_ne)]
        at hadvance
      obtain rfl := Option.some.inj hadvance
      refine hs.stopped (goTo_self _ i _) (goTo_other _ i _) rfl hlib
        ?_ ?_ rfl
      · intro c' hc'
        exact (Option.some.inj hc').symm
      · intro hnone
        rw [hredis] at hnone
        cases hnone
  · cases hadvance

theorem PassesOnce.get {m : JwtManager} {s s' : RefreshRace F}
    (hminted : m.Minted token "refresh" jti exp claims)
    (hs : s.PassesOnce m.secret jti exp claims) {i : ℕ} {now : ℤ} {ok : Bool}
    (horderly : s.Orderly exp (.get i now ok)) (hnow : s.clock ≤ now)
    (hadvance : s.advance token (.get i now ok) = some s') :
    ({ s' with clock := now } : RefreshRace F).PassesOnce m.secret jti exp
      claims := by
  rcases horderly with ⟨hbefore, hothers⟩
  simp only [advance] at hadvance
  split at hadvance
  next c hphase =>
    obtain rfl : c = claims := hs.known i c (by rw [hphase]; rfl)
    have hredis : s.jwt.redis ≠ none := by
      intro hnone
      have hclaims := hs.dictionary hnone i
      rw [hphase] at hclaims
      cases hclaims
    obtain rfl := Option.some.inj hadvance
    rw [hminted.jtiOf_eq]
    cases ok with
    | false =>
        exact hs.stopped (goTo_self _ i _) (goTo_other _ i _) rfl hnow
          (by simp [RefreshPhase.claims?]) (fun _ => rfl) rfl
    | true =>
        have hknown (found : Bool) : ∀ c', (RefreshPhase.looked c
            found).claims? = some c' → c' = c := by
          intro c' hc'
          exact (Option.some.inj hc').symm
        cases hrevoked : (s.jwt.isRevoked jti now).1 with
        | true =>
            exact hs.stopped (goTo_self _ i _) (goTo_other _ i _) rfl hnow
              (hknown true) (fun hnone => (hredis hnone).elim) rfl
        | false =>
            refine hs.moved (goTo_self _ i _) (goTo_other _ i _) rfl id
              hnow (fun hsettled => hsettled.later hnow) (hknown false) ?_
              ?_ ?_ (fun hnone => (hredis hnone).elim)
            · -- no other request has passed: its key would have been found
              intro _
              refine .inr fun j hj => ?_
              by_contra hpassed
              have hrotated : (s.phase j).rotated = true := by
                simpa [RefreshPhase.passed, hothers j hj] using hpassed
              have hfound := (hs.settled j hrotated).isRevoked
                (by omega) hbefore
              rw [hrevoked] at hfound
              cases hfound
            · intro hrotated
              cases hrotated
            · intro c' ttl hphase'
              cases hphase'
  · cases hadvance

theorem PassesOnce.resume {m : JwtManager} {s s' : RefreshRace F}
    (hminted : m.Minted token "refresh" jti exp claims)
    (hs : s.PassesOnce m.secret jti exp claims) {i : ℕ} {now now' : ℤ}
    (hnow : s.clock ≤ now) (hnow' : now ≤ now')
    (hadvance : s.advance token (.resume i now now') = some s') :
    ({ s' with clock := now' } : RefreshRace F).PassesOnce m.secret jti exp
      claims := by
  have hclock : s.clock ≤ now' := hnow.trans hnow'
  simp only [advance] at hadvance
  split at hadvance
  next c hphase =>
    obtain rfl := Option.some.inj hadvance
    exact hs.stopped (goTo_self _ i _) (goTo_other _ i _) rfl hclock
      (by simp [RefreshPhase.claims?]) (fun _ => rfl) rfl
  next c hphase =>
    obtain rfl : c = claims := hs.known i c (by rw [hphase]; rfl)
    have hpassed : (s.phase i).passed = true := by
      rw [hphase]
      rfl
    rw [hminted.expOf_eq] at hadvance
    dsimp only at hadvance
    by_cases hover : exp ≤ now
    · rw [if_pos hover] at hadvance
      obtain rfl := Option.some.inj hadvance
      exact hs.moved (goTo_self _ i _) (goTo_other _ i _) rfl id hclock
        (fun hsettled => hsettled.later hclock)
        (by simp [RefreshPhase.claims?]) (fun _ => .inl hpassed)
        (fun _ => .inl (hover.trans hnow')) (by simp) (fun _ => rfl)
    · rw [if_neg hover] at hadvance
      obtain rfl := Option.some.inj hadvance
      refine hs.moved (goTo_self _ i _) (goTo_other _ i _) rfl id hclock
        (fun hsettled => hsettled.later hclock) ?_ (fun _ => .inl hpassed)
        ?_ ?_ ?_
      · intro c' hc'
        exact (Option.some.inj hc').symm
      · intro hrotated
        cases hrotated
      · intro c' ttl hphase'
        cases hphase'
        dsimp only
        omega
      · intro hnone
        have hclaims := hs.dictionary hnone i
        rw [hphase] at hclaims
        cases hclaims
  · cases hadvance

theorem PassesOnce.setex {m : JwtManager} {s s' : RefreshRace F}
    (hminted : m.Minted token "refresh" jti exp claims)
    (hs : s.PassesOnce m.secret jti exp claims) {i : ℕ} {now : ℤ}
    (hnow : s.clock ≤ now)
    (hadvance : s.advance token (.setex i now true) = some s') :
    ({ s' with clock := now } : RefreshRace F).PassesOnce m.secret jti exp
      claims := by
  simp only [advance] at hadvance
  split at hadvance
  next c ttl keys hphase hredis =>
    obtain rfl : c = claims := hs.known i c (by rw [hphase]; rfl)
    have hlives := hs.lives i c ttl hphase
    have hpassed : (s.phase i).passed = true := by
      rw [hphase]
      rfl
    obtain rfl := Option.some.inj hadvance
    rw [hminted.jtiOf_eq]
    have hsettled : JwtManager.Settled
        { s.jwt with redis := some (keys.set jti (now + ttl)) } jti exp
          now := by
      refine .inr ⟨now + ttl, by omega, ?_⟩
      simp [JwtManager.store]
    refine hs.moved (goTo_self _ i _) (goTo_other _ i _) rfl ?_ hnow
      (fun _ => hsettled) (by simp [RefreshPhase.claims?])
      (fun _ => .inl hpassed) (fun _ => hsettled) (by simp) (fun _ => rfl)
    intro hnone
    cases hnone
  · cases hadvance

theorem PassesOnce.mint {secret : String} {s s' : RefreshRace F}
    (hs : s.PassesOnce secret jti exp claims) {i : ℕ} {ok : Bool}
    (hadvance : s.advance token (.mint i ok) = some s') :
    ({ s' with clock := s.clock } : RefreshRace F).PassesOnce secret jti exp
      claims := by
  simp only [advance] at hadvance
  split at hadvance
  next hphase =>
    have hpassed : (s.phase i).passed = true := by
      rw [hphase]
      rfl
    have hsettled := hs.settled i (by rw [hphase]; rfl)
    obtain rfl := Option.some.inj hadvance
    refine hs.moved (goTo_self _ i _) (goTo_other _ i _) rfl id le_rfl id
      ?_ (fun _ => .inl hpassed) (fun _ => hsettled) ?_ ?_
    · cases ok <;> simp [RefreshPhase.claims?]
    · cases ok <;> simp
    · cases ok <;> simp [RefreshPhase.claims?]
  · cases hadvance

theorem PassesOnce.step {m : JwtManager} {s s' : RefreshRace F}
    (hminted : m.Minted token "refresh" jti exp claims)
    (hs : s.PassesOnce m.secret jti exp claims) {event : RefreshEvent}
    (horderly : s.Orderly exp event)
    (hstep : s.step token event = some s') :
    s'.PassesOnce m.secret jti exp claims := by
  unfold RefreshRace.step at hstep
  split_ifs at hstep with hreadings
  rcases Option.map_eq_some_iff.mp hstep with ⟨next, hadvance, rfl⟩
  cases event with
  | exchange i libNow now now' now'' ok =>
      simp only [RefreshEvent.readings, List.pairwise_cons,
        List.mem_cons, List.not_mem_nil, or_false] at hreadings
      exact hs.exchange hminted horderly (hreadings.1 _ (.inl rfl))
        (hreadings.2.1 _ (.inl rfl)) (hreadings.2.2.1 _ (.inl rfl))
        (hreadings.2.2.2.1 _ rfl) hadvance
  | arrive i libNow =>
      have hlib : s.clock ≤ libNow := by
        simpa [RefreshEvent.readings] using hreadings
      exact hs.arrive hminted hlib hadvance
  | get i now ok =>
      have hnow : s.clock ≤ now := by
        simpa [RefreshEvent.readings] using hreadings
      exact hs.get hminted horderly hnow hadvance
  | resume i now now' =>
      have hboth : (s.clock ≤ now ∧ s.clock ≤ now') ∧ now ≤ now' := by
        simpa [RefreshEvent.readings] using hreadings
      exact hs.resume hminted hboth.1.1 hboth.2 hadvance
  | setex i now ok =>
      obtain rfl : ok = true := horderly
      have hnow : s.clock ≤ now := by
        simpa [RefreshEvent.readings] using hreadings
      exact hs.setex hminted hnow hadvance
  | mint i ok => exact hs.mint hadvance

/-! ## Runs -/

omit [PyFloat F] [JwtLib F] in
/-- At most one request is answered with a new pair. -/
def ExchangedOnce (s : RefreshRace F) : Prop :=
  ∀ i j, (s.phase i).answered = true → (s.phase j).answered = true → i = j

omit [PyFloat F] [JwtLib F] in
theorem PassesOnce.exchangedOnce {s : RefreshRace F}
    (hs : s.PassesOnce secret jti exp claims) : s.ExchangedOnce := by
  have hpassed (i : ℕ) (hi : (s.phase i).answered = true) :
      (s.phase i).passed = true := by
    cases hphase : s.phase i with
    | exchanged => rfl
    | _ =>
        rw [hphase] at hi
        cases hi
  intro i j hi hj
  exact hs.one i j (hpassed i hi) (hpassed j hj)

omit [PyFloat F] [JwtLib F] in
theorem passesOnce_start {jwt : JwtManager} {clock : ℤ} :
    (start jwt clock : RefreshRace F).PassesOnce jwt.secret jti exp
      claims where
  secret := rfl
  known := by simp [start, RefreshPhase.claims?]
  one := by simp [start, RefreshPhase.passed, RefreshPhase.unsettled,
    RefreshPhase.rotated]
  settled := by simp [start, RefreshPhase.rotated]
  lives := by simp [start]
  dictionary := fun _ _ => rfl

/-- In a run whose steps are orderly, a minted refresh token is exchanged at
most once. -/
theorem run_exchangedOnce {m jwt : JwtManager} {clock : ℤ}
    {events : List RefreshEvent} {s : RefreshRace F}
    (hminted : m.Minted token "refresh" jti exp claims)
    (hsecret : jwt.secret = m.secret)
    (horderly : StepsMeet (step (F := F) token) (Orderly exp)
      (start jwt clock) events)
    (hrun : run (step (F := F) token) (start jwt clock) events = some s) :
    s.ExchangedOnce := by
  have hstart : (start jwt clock : RefreshRace F).PassesOnce m.secret jti
      exp claims := by
    rw [← hsecret]
    exact passesOnce_start
  have hpasses : s.PassesOnce m.secret jti exp claims :=
    StepsMeet.run_preserves
      (P := fun t : RefreshRace F => t.PassesOnce m.secret jti exp claims)
      (fun _ _ _ ht hmeets hstep => ht.step hminted hmeets hstep)
      hstart horderly hrun
  exact hpasses.exchangedOnce

/-! ## One request alone -/

theorem run_cons_of_advance {s next : RefreshRace F} {event : RefreshEvent}
    {events : List RefreshEvent}
    (hreadings : (s.clock :: event.readings).Pairwise (· ≤ ·))
    (hadvance : s.advance token event = some next) :
    run (step token) s (event :: events) =
      run (step token)
        { next with clock := event.readings.getLastD s.clock } events := by
  have hstep : s.step token event =
      some { next with clock := event.readings.getLastD s.clock } := by
    unfold RefreshRace.step
    rw [if_pos hreadings, hadvance]
    rfl
  rw [run, hstep]
  rfl

/-- Behind the GET that found nothing, the request revokes the token. -/
theorem run_rotates (token : String) {s : RefreshRace F} {i : ℕ} {c : Claims F}
    {keys : PyDict String ℤ} {now now' : ℤ}
    (hredis : s.jwt.redis = some keys) (hphase : s.phase i = .looked c false)
    (hnow : s.clock ≤ now) (hnow' : now ≤ now') :
    ∃ events final, run (step token) s events = some final ∧
      final.jwt = rotateJwt s.jwt c now now' ∧ final.phase i = .minting := by
  have hresumes : (s.clock :: (RefreshEvent.resume i now
      now').readings).Pairwise (· ≤ ·) := by
    simp only [RefreshEvent.readings, List.pairwise_cons, List.mem_cons,
      List.not_mem_nil, or_false, forall_eq_or_imp, forall_eq]
    exact ⟨⟨hnow, hnow.trans hnow'⟩, hnow', by simp⟩
  cases hexp : NtripCaster.expOf c with
  | error e =>
      have hresume : s.advance token (.resume i now now') =
          some (s.goTo i .minting) := by
        simp only [advance, hphase, hexp]
      refine ⟨[.resume i now now'], _,
        run_cons_of_advance hresumes hresume, ?_, goTo_self s i _⟩
      simp [rotateJwt, hexp, goTo]
  | ok exp =>
      by_cases hover : exp ≤ now
      · have hresume : s.advance token (.resume i now now') =
            some (s.goTo i .minting) := by
          simp only [advance, hphase, hexp, if_pos hover]
        refine ⟨[.resume i now now'], _,
          run_cons_of_advance hresumes hresume, ?_, goTo_self s i _⟩
        simp [rotateJwt, hexp, goTo, JwtManager.revokeJti, hover]
      · have hresume : s.advance token (.resume i now now') =
            some (s.goTo i (.revoking c (max (exp - now') 1))) := by
          simp only [advance, hphase, hexp, if_neg hover]
        let resumed : RefreshRace F :=
          { s.goTo i (.revoking c (max (exp - now') 1)) with clock := now' }
        have hwrite : resumed.advance token (.setex i now' true) =
            some ({ resumed with
              jwt := rotateJwt s.jwt c now now' }.goTo i .minting) := by
          simp [resumed, advance, goTo, hredis, rotateJwt, hexp,
            JwtManager.revokeJti, hover]
        have hwrites : (resumed.clock :: (RefreshEvent.setex i now'
            true).readings).Pairwise (· ≤ ·) := by
          simp [resumed, RefreshEvent.readings]
        exact ⟨[.resume i now now', .setex i now' true], _,
          (run_cons_of_advance hresumes hresume).trans
            (run_cons_of_advance hwrites hwrite), rfl,
          goTo_self _ i .minting⟩

omit [PyFloat F] [JwtLib F] in
def AnswersPair (o : Outcome F) : Prop :=
  ∃ pair, o.reply = .ok (.json 200 (.obj pair))

theorem tokenRefresh_of_none {s : NtripCaster F} {body : Json F} {m : Moment}
    (hbody : bodyText body "refresh" = .ok token) {jwt : JwtManager}
    (hdecode : s.jwt.decode token "refresh" (m.time 2) (m.time 3) =
      ((none : Option (Claims F)), jwt)) :
    (s.tokenRefresh body m).server.jwt = jwt ∧
      ¬ AnswersPair (s.tokenRefresh body m) := by
  have hreply : s.tokenRefresh body m =
      ({ s with jwt := jwt } : NtripCaster F).replies
        (.failure 401 "unauthorized" "invalid refresh" none) := by
    unfold NtripCaster.tokenRefresh NtripCaster.presentedRefresh
    rw [hbody]
    dsimp only
    rw [hdecode]
  rw [hreply]
  refine ⟨rfl, ?_⟩
  rintro ⟨pair, hpair⟩
  simp [NtripCaster.replies, Reply.failure] at hpair

theorem tokenRefresh_of_some {s : NtripCaster F} {body : Json F} {m : Moment}
    (hbody : bodyText body "refresh" = .ok token) {jwt : JwtManager}
    {c : Claims F}
    (hdecode : s.jwt.decode token "refresh" (m.time 2) (m.time 3) =
      (some c, jwt)) :
    (s.tokenRefresh body m).server.jwt =
      rotateJwt jwt c (m.time 4) (m.time 5) := by
  unfold NtripCaster.tokenRefresh NtripCaster.presentedRefresh
  rw [hbody]
  dsimp only
  rw [hdecode]
  dsimp only
  unfold NtripCaster.rotate rotateJwt
  cases NtripCaster.expOf c with
  | ok exp =>
      dsimp only
      split <;> rfl
  | error e =>
      dsimp only
      split <;> rfl

omit [PyFloat F] [JwtLib F] in
theorem answered_goTo (s : RefreshRace F) (i : ℕ) (ok : Bool) :
    ((s.goTo i (if ok then .exchanged else .raised)).phase i).answered =
      true ↔ ok = true := by
  rw [goTo_self]
  cases ok <;> simp [RefreshPhase.answered]

theorem run_mint (token : String) {s : RefreshRace F} {i : ℕ}
    (hphase : s.phase i = .minting) (ok : Bool) :
    ∃ final, run (step token) s [.mint i ok] = some final ∧
      final.jwt = s.jwt ∧ ((final.phase i).answered = true ↔ ok = true) := by
  have hmint : s.advance token (.mint i ok) =
      some (s.goTo i (if ok then .exchanged else .raised)) := by
    simp only [advance, hphase]
  refine ⟨_, run_cons_of_advance (by simp [RefreshEvent.readings]) hmint,
    rfl, ?_⟩
  exact s.answered_goTo i ok

theorem run_finishes (token : String) {s : RefreshRace F} {i : ℕ} {c : Claims F}
    {keys : PyDict String ℤ} {now now' : ℤ}
    (hredis : s.jwt.redis = some keys) (hphase : s.phase i = .looked c false)
    (hnow : s.clock ≤ now) (hnow' : now ≤ now') (ok : Bool) :
    ∃ events final, run (step token) s events = some final ∧
      final.jwt = rotateJwt s.jwt c now now' ∧
      ((final.phase i).answered = true ↔ ok = true) := by
  rcases run_rotates token hredis hphase hnow hnow' with
    ⟨events, rotated, hrotates, hjwt, hminting⟩
  rcases run_mint token hminting ok with
    ⟨final, hmint, hkept, hanswered⟩
  refine ⟨events ++ [.mint i ok], final, ?_, hkept.trans hjwt, hanswered⟩
  rw [run_append, hrotates]
  exact hmint

/-- A request up to the answer of the GET, without one when there is no id. -/
theorem run_looks {jwt : JwtManager} {keys : PyDict String ℤ}
    (hredis : jwt.redis = some keys) {libNow now : ℤ} (hnow : libNow ≤ now)
    {c : Claims F}
    (haccepted : jwt.accepted? token "refresh" libNow = some c) :
    ∃ events looked, run (step token) (start jwt libNow) events =
        some looked ∧
      looked.jwt = jwt ∧ looked.clock ≤ now ∧
      looked.phase 0 = .looked c (decide (JwtManager.jtiOf c ≠ "") &&
        (jwt.isRevoked (JwtManager.jtiOf c) now).1) := by
  have harrives : ((start jwt libNow : RefreshRace F).clock ::
      (RefreshEvent.arrive 0 libNow).readings).Pairwise (· ≤ ·) := by
    simp [start, RefreshEvent.readings]
  by_cases hjti : JwtManager.jtiOf c = ""
  · have harrive : (start jwt libNow : RefreshRace F).advance token
        (.arrive 0 libNow) =
          some ((start jwt libNow).goTo 0 (.looked c false)) := by
      simp only [advance, start, hredis, haccepted, if_pos hjti]
    refine ⟨[.arrive 0 libNow], _, run_cons_of_advance harrives harrive,
      ?_, ?_, ?_⟩
    · rfl
    · exact hnow
    · simpa [hjti] using goTo_self (start jwt libNow) 0 (.looked c false)
  · have harrive : (start jwt libNow : RefreshRace F).advance token
        (.arrive 0 libNow) =
          some ((start jwt libNow).goTo 0 (.looking c)) := by
      simp only [advance, start, hredis, haccepted, if_neg hjti]
    let arrived : RefreshRace F :=
      { (start jwt libNow).goTo 0 (.looking c) with clock := libNow }
    have hget : arrived.advance token (.get 0 now true) =
        some (arrived.goTo 0 (.looked c
          (jwt.isRevoked (JwtManager.jtiOf c) now).1)) := by
      simp [arrived, advance, goTo, start]
    have hgets : (arrived.clock :: (RefreshEvent.get 0 now
        true).readings).Pairwise (· ≤ ·) := by
      simpa [arrived, RefreshEvent.readings] using hnow
    refine ⟨[.arrive 0 libNow, .get 0 now true], _,
      (run_cons_of_advance harrives harrive).trans
        (run_cons_of_advance hgets hget), ?_, ?_, ?_⟩
    · rfl
    · exact le_rfl
    · simpa [hjti] using goTo_self arrived 0 (.looked c
        (jwt.isRevoked (JwtManager.jtiOf c) now).1)

theorem run_exchange_refused {jwt jwt' : JwtManager}
    {libNow now now' now'' : ℤ} (hredis : jwt.redis = none)
    (hnow : libNow ≤ now) (hnow' : now ≤ now') (hnow'' : now' ≤ now'')
    (hdecode : jwt.decode token "refresh" libNow now =
      ((none : Option (Claims F)), jwt')) :
    ∃ final, run (step token) (start jwt libNow : RefreshRace F)
        [.exchange 0 libNow now now' now'' false] = some final ∧
      final.jwt = jwt ∧ (final.phase 0).answered = false := by
  have hkept : jwt' = jwt := JwtManager.decode_none hdecode
  have hexchange : (start jwt libNow : RefreshRace F).advance token
      (.exchange 0 libNow now now' now'' false) =
        some ((start jwt libNow).goTo 0 .refused) := by
    simp only [advance, start, hredis, hdecode, hkept]
  have hreadings : ((start jwt libNow : RefreshRace F).clock ::
      (RefreshEvent.exchange 0 libNow now now' now''
        false).readings).Pairwise (· ≤ ·) := by
    simp [start, RefreshEvent.readings]
    omega
  refine ⟨_, run_cons_of_advance hreadings hexchange, rfl, ?_⟩
  change (((start jwt libNow : RefreshRace F).goTo 0 .refused).phase
    0).answered = false
  rw [goTo_self]
  rfl

theorem run_exchange_accepted {jwt jwt' : JwtManager} {c : Claims F}
    {libNow now now' now'' : ℤ} (hredis : jwt.redis = none)
    (hnow : libNow ≤ now) (hnow' : now ≤ now') (hnow'' : now' ≤ now'')
    (hdecode : jwt.decode token "refresh" libNow now = (some c, jwt'))
    (ok : Bool) :
    ∃ final, run (step token) (start jwt libNow : RefreshRace F)
        [.exchange 0 libNow now now' now'' ok] = some final ∧
      final.jwt = rotateJwt jwt' c now' now'' ∧
      ((final.phase 0).answered = true ↔ ok = true) := by
  let rotated : RefreshRace F :=
    { (start jwt libNow : RefreshRace F) with
      jwt := rotateJwt jwt' c now' now'' }
  have hexchange : (start jwt libNow : RefreshRace F).advance token
      (.exchange 0 libNow now now' now'' ok) =
        some (rotated.goTo 0 (if ok then .exchanged else .raised)) := by
    simp only [advance, start, hredis, hdecode, rotated]
  have hreadings : ((start jwt libNow : RefreshRace F).clock ::
      (RefreshEvent.exchange 0 libNow now now' now''
        ok).readings).Pairwise (· ≤ ·) := by
    simp [start, RefreshEvent.readings]
    omega
  refine ⟨_, run_cons_of_advance hreadings hexchange, rfl, ?_⟩
  exact rotated.answered_goTo 0 ok

theorem run_refused {jwt jwt' : JwtManager} {keys : PyDict String ℤ}
    {libNow now : ℤ} (hredis : jwt.redis = some keys) (hnow : libNow ≤ now)
    (hdecode : jwt.decode token "refresh" libNow now =
      ((none : Option (Claims F)), jwt')) :
    ∃ events final, run (step token) (start jwt libNow : RefreshRace F)
        events = some final ∧
      final.jwt = jwt ∧ (final.phase 0).answered = false := by
  rw [JwtManager.decode_eq] at hdecode
  cases haccepted : jwt.accepted? (F := F) token "refresh" libNow with
  | none =>
      have harrive : (start jwt libNow : RefreshRace F).advance token
          (.arrive 0 libNow) =
            some ((start jwt libNow).goTo 0 .refused) := by
        simp only [advance, start, hredis, haccepted]
      have hreadings : ((start jwt libNow : RefreshRace F).clock ::
          (RefreshEvent.arrive 0 libNow).readings).Pairwise (· ≤ ·) := by
        simp [start, RefreshEvent.readings]
      refine ⟨[.arrive 0 libNow], _, run_cons_of_advance hreadings harrive,
        rfl, ?_⟩
      change (((start jwt libNow : RefreshRace F).goTo 0 .refused).phase
        0).answered = false
      rw [goTo_self]
      rfl
  | some c =>
      rw [haccepted, Option.elim_some] at hdecode
      have hjti : JwtManager.jtiOf c ≠ "" := by
        intro hjti
        rw [if_pos hjti] at hdecode
        cases (Prod.mk.inj hdecode).1
      have hrevoked : (jwt.isRevoked (JwtManager.jtiOf c) now).1 = true := by
        by_contra hrevoked
        rw [if_neg hjti, if_neg hrevoked] at hdecode
        cases (Prod.mk.inj hdecode).1
      rcases run_looks hredis hnow haccepted with
        ⟨events, looked, hlooks, hsame, hclock, hphase⟩
      have hresume : looked.advance token (.resume 0 now now) =
          some (looked.goTo 0 .refused) := by
        simp only [advance, hphase, hjti, hrevoked, ne_eq,
          not_false_eq_true, decide_true, Bool.and_true]
      have hreadings : (looked.clock :: (RefreshEvent.resume 0 now
          now).readings).Pairwise (· ≤ ·) := by
        simp [RefreshEvent.readings, hclock]
      let refused : RefreshRace F :=
        { looked.goTo 0 .refused with clock := now }
      refine ⟨events ++ [.resume 0 now now], refused, ?_, hsame, ?_⟩
      · rw [run_append, hlooks]
        exact run_cons_of_advance hreadings hresume
      · change ((looked.goTo 0 .refused).phase 0).answered = false
        rw [goTo_self]
        rfl

theorem run_accepted {jwt jwt' : JwtManager} {keys : PyDict String ℤ}
    {c : Claims F} {libNow now now' now'' : ℤ}
    (hredis : jwt.redis = some keys) (hnow : libNow ≤ now)
    (hnow' : now ≤ now') (hnow'' : now' ≤ now'')
    (hdecode : jwt.decode token "refresh" libNow now = (some c, jwt'))
    (ok : Bool) :
    ∃ events final, run (step token) (start jwt libNow : RefreshRace F)
        events = some final ∧
      final.jwt = rotateJwt jwt' c now' now'' ∧
      ((final.phase 0).answered = true ↔ ok = true) := by
  rcases JwtManager.decode_some hdecode with ⟨haccepted, hlooked, hempty⟩
  have hkept : jwt' = jwt := by
    by_cases hjti : JwtManager.jtiOf c = ""
    · exact hempty hjti
    · rw [(hlooked hjti).2]
      exact jwt.isRevoked_of_redis hredis _ _
  have hfound : (decide (JwtManager.jtiOf c ≠ "") &&
      (jwt.isRevoked (JwtManager.jtiOf c) now).1) = false := by
    by_cases hjti : JwtManager.jtiOf c = ""
    · simp [hjti]
    · simp [(hlooked hjti).1]
  rcases run_looks hredis hnow haccepted with
    ⟨events, looked, hlooks, hsame, hclock, hphase⟩
  rw [hfound] at hphase
  have hredis' : looked.jwt.redis = some keys := by
    rw [hsame]
    exact hredis
  rcases run_finishes token hredis' hphase (hclock.trans hnow') hnow'' ok
    with ⟨later, final, hfinishes, hfinal, hanswered⟩
  refine ⟨events ++ later, final, ?_, ?_, hanswered⟩
  · rw [run_append, hlooks]
    exact hfinishes
  · rw [hfinal, hsame, hkept]

/-- Alone, the steps of a request are the handler of the refresh endpoint. -/
theorem run_tokenRefresh (s : NtripCaster F) {body : Json F} {m : Moment}
    (hbody : bodyText body "refresh" = .ok token)
    (hlook : m.time 2 ≤ m.time 3) (hrevoke : m.time 3 ≤ m.time 4)
    (hwrite : m.time 4 ≤ m.time 5) :
    ∃ events final,
      run (step token) (start s.jwt (m.time 2) : RefreshRace F) events =
        some final ∧
      final.jwt = (s.tokenRefresh body m).server.jwt ∧
      ((final.phase 0).answered = true ↔
        AnswersPair (s.tokenRefresh body m)) := by
  rcases hdecode : (s.jwt.decode token "refresh" (m.time 2) (m.time 3) :
      Option (Claims F) × _) with ⟨_ | c, jwt⟩
  · rcases tokenRefresh_of_none hbody hdecode with ⟨hjwt, hno⟩
    have hkept : jwt = s.jwt := JwtManager.decode_none hdecode
    obtain ⟨events, final, hrun, hsame, hanswered⟩ : ∃ events final,
        run (step token) (start s.jwt (m.time 2) : RefreshRace F) events =
          some final ∧
        final.jwt = s.jwt ∧ (final.phase 0).answered = false := by
      cases hredis : s.jwt.redis with
      | none =>
          exact ⟨_, run_exchange_refused hredis hlook hrevoke hwrite hdecode⟩
      | some keys => exact run_refused hredis hlook hdecode
    refine ⟨events, final, hrun, ?_, ?_⟩
    · rw [hsame, hjwt, hkept]
    · simp [hanswered, hno]
  · obtain ⟨ok, hok⟩ : ∃ ok : Bool, ok = true ↔
        AnswersPair (s.tokenRefresh body m) := by
      by_cases hanswers : AnswersPair (s.tokenRefresh body m)
      · exact ⟨true, by simpa using hanswers⟩
      · exact ⟨false, by simpa using hanswers⟩
    rw [tokenRefresh_of_some hbody hdecode, ← hok]
    cases hredis : s.jwt.redis with
    | none =>
        exact ⟨_,
          run_exchange_accepted hredis hlook hrevoke hwrite hdecode ok⟩
    | some keys =>
        exact run_accepted hredis hlook hrevoke hwrite hdecode ok

end RefreshRace

/-! ## Two requests -/

namespace RefreshRace

def twoExchanges : List RefreshEvent :=
  [.exchange 0 100 100 100 100 true, .exchange 1 101 101 101 101 true]

theorem run_exchangedOnce_twoExchanges :
    ∃ s : RefreshRace ℚ,
      run (@step ℚ _ refreshLib "refresh-token")
        (start (smallManager none) 100) twoExchanges = some s ∧
      (s.phase 0).answered = true ∧ s.ExchangedOnce := by
  have hview : (run (@step ℚ _ refreshLib "refresh-token")
      (start (smallManager none) 100) twoExchanges).map
        (fun s => (s.phase 0).answered) = some true := by
    decide +kernel
  rcases Option.map_eq_some_iff.mp hview with ⟨s, hrun, hanswered⟩
  refine ⟨s, hrun, hanswered, ?_⟩
  refine @run_exchangedOnce ℚ _ refreshLib "r1" "refresh-token" 900
    refreshClaims (smallManager none) (smallManager none) 100 twoExchanges s
    (refreshClaims_minted (smallManager none)) rfl ?_ hrun
  apply StepsMeet.of_forall
  intro event hevent t
  simp only [twoExchanges, List.mem_cons, List.not_mem_nil, or_false]
    at hevent
  rcases hevent with rfl | rfl
  · exact id
  · exact id

/-- Both requests have been answered at the end of the run. -/
theorem exchanges_twice {F : Type}
    {step : RefreshRace F → RefreshEvent → Option (RefreshRace F)}
    {first : RefreshRace F} {events : List RefreshEvent}
    (hview : (run step first events).map
      (fun s => ((s.phase 0).answered, (s.phase 1).answered)) =
        some (true, true)) :
    ∃ s, run step first events = some s ∧ ¬ s.ExchangedOnce := by
  rcases Option.map_eq_some_iff.mp hview with ⟨s, hrun, hanswered⟩
  rcases Prod.mk.inj hanswered with ⟨hzero, hone⟩
  refine ⟨s, hrun, fun honce => ?_⟩
  cases honce 0 1 hzero hone

/-- Both requests look before either has revoked the token. -/
def crossedRun : List RefreshEvent :=
  [.arrive 0 100, .arrive 1 100, .get 0 101 true, .get 1 101 true,
    .resume 0 101 101, .resume 1 101 101, .setex 0 102 true,
    .setex 1 102 true, .mint 0 true, .mint 1 true]

theorem redis_exchanges_twice :
    ∃ s : RefreshRace ℚ,
      run (@step ℚ _ refreshLib "refresh-token")
        (start (smallManager (some [])) 100) crossedRun = some s ∧
      ¬ s.ExchangedOnce := by
  apply exchanges_twice
  decide +kernel

/-- The library reads the clock in front of the expiry and `is_revoked` at it,
where the entry of the dictionary is over. -/
def expiryRun : List RefreshEvent :=
  [.exchange 0 100 100 100 100 true, .exchange 1 899 900 900 900 true]

theorem dictionary_exchanges_twice :
    ∃ s : RefreshRace ℚ,
      run (@step ℚ _ refreshLib "refresh-token")
        (start (smallManager none) 100) expiryRun = some s ∧
      ¬ s.ExchangedOnce := by
  apply exchanges_twice
  decide +kernel

end RefreshRace

end BabilCors
