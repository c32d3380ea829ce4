import BabilCors.PyValue

/-!
# Tokens and revocation

`JwtManager` over a library that signs and verifies tokens.  A revocation is
kept in the dictionary of the process or, where a Redis client is present, as a
key of Redis that lives until a time; both are maps from token ids to times on
one clock.
-/

namespace BabilCors

open Py

abbrev Claims (F : Type) := PyDict String (Json F)

/-- The `jwt` library with HS256: `decode?` is `none` for a text that is no
token, a wrong signature or a token that has expired at the given time. -/
class JwtLib (F : Type) where
  encode : Claims F → String → Except PyErr String
  decode? : String → String → ℤ → Option (Claims F)

structure JwtManager where
  secret : String
  accessExpS : ℤ
  refreshExpS : ℤ
  revoked : PyDict String ℤ
  redis : Option (PyDict String ℤ)
  deriving DecidableEq

namespace JwtManager

def store (m : JwtManager) : PyDict String ℤ :=
  m.redis.getD m.revoked

/-- `revoke_jti`, with the two readings of the clock. -/
def revokeJti (m : JwtManager) (jti : String) (exp now now' : ℤ) :
    JwtManager :=
  if exp ≤ now then m
  else
    match m.redis with
    | some keys =>
        { m with redis := some (keys.set jti (now' + max (exp - now') 1)) }
    | none => { m with revoked := m.revoked.set jti exp }

/-- `is_revoked`: an entry of the dictionary that is over is deleted. -/
def isRevoked (m : JwtManager) (jti : String) (now : ℤ) :
    Bool × JwtManager :=
  match m.redis with
  | some keys => ((keys.get? jti).any (now < ·), m)
  | none =>
      match m.revoked.get? jti with
      | none => (false, m)
      | some exp =>
          if exp ≤ now then
            (false, { m with revoked := m.revoked.erase jti })
          else
            (true, m)

section Tokens

variable {F : Type} [PyFloat F] [JwtLib F]

omit [JwtLib F] in
def jtiOf (claims : Claims F) : String :=
  (((claims.get? "jti").getD .null).orElse (.str "")).pyStr

/-- `decode`: the library reads the clock, then `is_revoked` does. -/
def decode (m : JwtManager) (token expectedType : String)
    (libNow now : ℤ) : Option (Claims F) × JwtManager :=
  match JwtLib.decode? token m.secret libNow with
  | none => (none, m)
  | some claims =>
      if ((claims.get? "type").getD .null).pyStr ≠ expectedType then (none, m)
      else if jtiOf claims = "" then (some claims, m)
      else
        match m.isRevoked (jtiOf claims) now with
        | (true, m) => (none, m)
        | (false, m) => (some claims, m)

omit [PyFloat F] in
def make (m : JwtManager) (sub role typ : String) (expS now : ℤ)
    (jti : String) : Except PyErr (String × Claims F) :=
  let claims : Claims F :=
    [("sub", .str sub), ("role", .str role), ("type", .str typ),
      ("iat", .int now), ("exp", .int (now + expS)), ("jti", .str jti)]
  (JwtLib.encode claims m.secret).map fun token => (token, claims)

omit [PyFloat F] in
def mintAccess (m : JwtManager) (sub role : String) (now : ℤ)
    (jti : String) : Except PyErr (String × Claims F) :=
  m.make sub role "access" m.accessExpS now jti

omit [PyFloat F] in
def mintRefresh (m : JwtManager) (sub role : String) (now : ℤ)
    (jti : String) : Except PyErr (String × Claims F) :=
  m.make sub role "refresh" m.refreshExpS now jti

end Tokens

def roleAllows (role : String) (write : Bool) : Bool :=
  let r := lower role
  if r ∈ ["admin", "superadmin"] then true
  else if r ∈ ["admin_ro", "admin_readonly", "readonly_admin"] then !write
  else false

/-! ## What a look and a revocation change -/

/-- A look at the dictionary may delete the entry. -/
theorem isRevoked_manager (m : JwtManager) (jti : String) (now : ℤ) :
    (m.isRevoked jti now).2 = m ∨
      m.redis = none ∧
        (m.isRevoked jti now).2 =
          { m with revoked := m.revoked.erase jti } := by
  unfold isRevoked
  cases m.redis with
  | some keys => exact .inl rfl
  | none =>
      cases m.revoked.get? jti with
      | none => exact .inl rfl
      | some exp =>
          dsimp only
          by_cases hover : exp ≤ now
          · rw [if_pos hover]
            exact .inr ⟨rfl, rfl⟩
          · rw [if_neg hover]
            exact .inl rfl

/-- A look that finds a revocation deletes nothing. -/
theorem isRevoked_of_true {m : JwtManager} {jti : String} {now : ℤ}
    (hrevoked : (m.isRevoked jti now).1 = true) :
    (m.isRevoked jti now).2 = m := by
  unfold isRevoked at hrevoked ⊢
  cases hredis : m.redis with
  | some keys => rfl
  | none =>
      rw [hredis] at hrevoked
      cases hexp : m.revoked.get? jti with
      | none => rfl
      | some exp =>
          rw [hexp] at hrevoked
          dsimp only at hrevoked ⊢
          by_cases hover : exp ≤ now
          · rw [if_pos hover] at hrevoked
            cases hrevoked
          · rw [if_neg hover]

theorem isRevoked_iff {m : JwtManager} {jti : String} {now : ℤ} :
    (m.isRevoked jti now).1 = true ↔
      ∃ exp, m.store.get? jti = some exp ∧ now < exp := by
  unfold isRevoked store
  cases m.redis with
  | some keys =>
      rw [Option.getD_some]
      cases hexp : keys.get? jti with
      | none => simp [hexp]
      | some exp => simp [hexp]
  | none =>
      rw [Option.getD_none]
      cases m.revoked.get? jti with
      | none => simp
      | some exp =>
          dsimp only
          by_cases hover : exp ≤ now
          · rw [if_pos hover]
            simp [hover]
          · rw [if_neg hover]
            simpa using hover

theorem isRevoked_redis (m : JwtManager) (jti : String) (now : ℤ) :
    (m.isRevoked jti now).2.redis = m.redis := by
  rcases m.isRevoked_manager jti now with hm | ⟨_, hm⟩ <;> rw [hm]

theorem isRevoked_of_redis {m : JwtManager} {keys : PyDict String ℤ}
    (hredis : m.redis = some keys) (jti : String) (now : ℤ) :
    (m.isRevoked jti now).2 = m := by
  unfold isRevoked
  rw [hredis]

theorem store_revokeJti {m : JwtManager} {jti other : String}
    {exp now now' exp' : ℤ}
    (hentry : (m.revokeJti jti exp now now').store.get? other = some exp')
    (hother : other ≠ jti) : m.store.get? other = some exp' := by
  have hne : jti ≠ other := fun h => hother h.symm
  unfold revokeJti at hentry
  split_ifs at hentry with hover
  · exact hentry
  · cases hredis : m.redis with
    | some keys =>
        simp only [store, hredis, Option.getD_some] at hentry ⊢
        rwa [PyDict.get?_set_of_ne _ _ hne] at hentry
    | none =>
        simp only [store, hredis, Option.getD_none] at hentry ⊢
        rwa [PyDict.get?_set_of_ne _ _ hne] at hentry

section Accepting

variable {F : Type} [PyFloat F] [JwtLib F]

/-- `decode` up to the look at the revocations. -/
def accepted? (m : JwtManager) (token expectedType : String) (libNow : ℤ) :
    Option (Claims F) :=
  (JwtLib.decode? token m.secret libNow).filter fun claims =>
    ((claims.get? "type").getD .null).pyStr = expectedType

theorem decode_eq (m : JwtManager) (token expectedType : String)
    (libNow now : ℤ) :
    (m.decode token expectedType libNow now : Option (Claims F) × _) =
      (m.accepted? token expectedType libNow).elim (none, m) fun claims =>
        if jtiOf claims = "" then (some claims, m)
        else if (m.isRevoked (jtiOf claims) now).1 then (none, m)
        else (some claims, (m.isRevoked (jtiOf claims) now).2) := by
  unfold decode accepted?
  cases JwtLib.decode? (F := F) token m.secret libNow with
  | none => rfl
  | some claims =>
      dsimp only [Option.filter_some]
      by_cases htype : ((claims.get? "type").getD .null).pyStr = expectedType
      · simp only [htype, ne_eq, not_true_eq_false, if_false, decide_true,
          if_true]
        by_cases hjti : jtiOf claims = ""
        · simp [hjti]
        · simp only [hjti, if_false]
          have hkept (hfound : (m.isRevoked (jtiOf claims) now).1 = true) :
              (m.isRevoked (jtiOf claims) now).2 = m :=
            isRevoked_of_true hfound
          rcases hrevoked : m.isRevoked (jtiOf claims) now with ⟨_ | _, m'⟩
          · simp [hjti, hrevoked]
          · rw [hrevoked] at hkept
            obtain rfl : m' = m := hkept rfl
            simp [hjti, hrevoked]
      · simp [htype]

theorem decode_none {m m' : JwtManager} {token expectedType : String}
    {libNow now : ℤ}
    (hdecode : m.decode token expectedType libNow now =
      ((none : Option (Claims F)), m')) : m' = m := by
  rw [decode_eq] at hdecode
  cases haccepted : m.accepted? (F := F) token expectedType libNow with
  | none =>
      rw [haccepted] at hdecode
      exact (Prod.mk.inj hdecode).2.symm
  | some claims =>
      rw [haccepted, Option.elim_some] at hdecode
      split_ifs at hdecode with hjti hrevoked
      · cases (Prod.mk.inj hdecode).1
      · exact (Prod.mk.inj hdecode).2.symm
      · cases (Prod.mk.inj hdecode).1

theorem decode_some {m m' : JwtManager} {token expectedType : String}
    {libNow now : ℤ} {claims : Claims F}
    (hdecode : m.decode token expectedType libNow now = (some claims, m')) :
    m.accepted? token expectedType libNow = some claims ∧
      (jtiOf claims ≠ "" → (m.isRevoked (jtiOf claims) now).1 = false ∧
        m' = (m.isRevoked (jtiOf claims) now).2) ∧
      (jtiOf claims = "" → m' = m) := by
  rw [decode_eq] at hdecode
  cases haccepted : m.accepted? (F := F) token expectedType libNow with
  | none =>
      rw [haccepted] at hdecode
      cases (Prod.mk.inj hdecode).1
  | some verified =>
      rw [haccepted, Option.elim_some] at hdecode
      by_cases hjti : jtiOf verified = ""
      · rw [if_pos hjti] at hdecode
        rcases Prod.mk.inj hdecode with ⟨hclaims, hm'⟩
        obtain rfl := Option.some.inj hclaims
        exact ⟨rfl, fun hne => (hne hjti).elim, fun _ => hm'.symm⟩
      · rw [if_neg hjti] at hdecode
        by_cases hrevoked : (m.isRevoked (jtiOf verified) now).1 = true
        · rw [if_pos hrevoked] at hdecode
          cases (Prod.mk.inj hdecode).1
        · rw [if_neg hrevoked] at hdecode
          rcases Prod.mk.inj hdecode with ⟨hclaims, hm'⟩
          obtain rfl := Option.some.inj hclaims
          exact ⟨rfl, fun _ => ⟨by simpa using hrevoked, hm'.symm⟩,
            fun hempty => (hjti hempty).elim⟩

/-- Whatever the token, the manager is left as a look leaves it. -/
theorem decode_manager (m : JwtManager) (token expectedType : String)
    (libNow now : ℤ) :
    (m.decode token expectedType libNow now : Option (Claims F) × _).2 = m ∨
      ∃ jti, (m.decode token expectedType libNow now :
        Option (Claims F) × _).2 = (m.isRevoked jti now).2 := by
  rw [decode_eq]
  cases m.accepted? (F := F) token expectedType libNow with
  | none => exact .inl rfl
  | some claims =>
      rw [Option.elim_some]
      split_ifs
      · exact .inl rfl
      · exact .inl rfl
      · exact .inr ⟨jtiOf claims, rfl⟩

/-- What `decode` accepts the library has verified. -/
theorem decode?_of_decode {m : JwtManager} {token expectedType : String}
    {libNow now : ℤ} {claims : Claims F}
    (hdecode : (m.decode token expectedType libNow now).1 = some claims) :
    JwtLib.decode? token m.secret libNow = some claims := by
  have haccepted : m.accepted? token expectedType libNow = some claims :=
    (decode_some (Prod.ext hdecode rfl)).1
  exact (Option.filter_eq_some_iff.mp haccepted).1

end Accepting

/-! ### No new revocation -/

def NoNewRevocation (m m' : JwtManager) : Prop :=
  ∀ jti exp, m'.store.get? jti = some exp → m.store.get? jti = some exp

theorem NoNewRevocation.refl (m : JwtManager) : NoNewRevocation m m :=
  fun _ _ hentry => hentry

theorem NoNewRevocation.trans {m m' m'' : JwtManager}
    (hfirst : NoNewRevocation m m') (hsecond : NoNewRevocation m' m'') :
    NoNewRevocation m m'' := by
  intro jti exp hentry
  have hmiddle := hsecond jti exp hentry
  exact hfirst jti exp hmiddle

theorem isRevoked_noNew (m : JwtManager) (jti : String) (now : ℤ) :
    NoNewRevocation m (m.isRevoked jti now).2 := by
  rcases m.isRevoked_manager jti now with hm | ⟨hredis, hm⟩
  · rw [hm]
    exact .refl m
  · rw [hm]
    intro other exp hentry
    simp only [store, hredis, Option.getD_none] at hentry ⊢
    by_cases hother : jti = other
    · subst hother
      rw [PyDict.get?_erase_self] at hentry
      cases hentry
    · rwa [PyDict.get?_erase_of_ne _ hother] at hentry

theorem decode_noNew {F : Type} [PyFloat F] [JwtLib F] (m : JwtManager)
    (token expectedType : String) (libNow now : ℤ) :
    NoNewRevocation m
      (m.decode token expectedType libNow now :
        Option (Claims F) × JwtManager).2 := by
  rcases m.decode_manager (F := F) token expectedType libNow now with
    hm | ⟨jti, hm⟩
  · rw [hm]
    exact .refl m
  · rw [hm]
    exact m.isRevoked_noNew jti now

/-! ### The same minting -/

/-- The managers mint the same tokens. -/
structure SameMint (m m' : JwtManager) : Prop where
  secret : m'.secret = m.secret
  access : m'.accessExpS = m.accessExpS
  refresh : m'.refreshExpS = m.refreshExpS

theorem SameMint.trans {m m' m'' : JwtManager} (hfirst : SameMint m m')
    (hsecond : SameMint m' m'') : SameMint m m'' :=
  ⟨hsecond.secret.trans hfirst.secret, hsecond.access.trans hfirst.access,
    hsecond.refresh.trans hfirst.refresh⟩

theorem isRevoked_sameMint (m : JwtManager) (jti : String) (now : ℤ) :
    SameMint m (m.isRevoked jti now).2 := by
  rcases m.isRevoked_manager jti now with hm | ⟨_, hm⟩ <;> rw [hm] <;>
    exact ⟨rfl, rfl, rfl⟩

theorem revokeJti_sameMint (m : JwtManager) (jti : String)
    (exp now now' : ℤ) : SameMint m (m.revokeJti jti exp now now') := by
  unfold revokeJti
  split_ifs
  · exact ⟨rfl, rfl, rfl⟩
  · cases m.redis <;> exact ⟨rfl, rfl, rfl⟩

theorem decode_sameMint {F : Type} [PyFloat F] [JwtLib F] (m : JwtManager)
    (token expectedType : String) (libNow now : ℤ) :
    SameMint m (m.decode token expectedType libNow now :
      Option (Claims F) × JwtManager).2 := by
  rcases m.decode_manager (F := F) token expectedType libNow now with
    hm | ⟨jti, hm⟩
  · rw [hm]
    exact ⟨rfl, rfl, rfl⟩
  · rw [hm]
    exact m.isRevoked_sameMint jti now

end JwtManager

end BabilCors
