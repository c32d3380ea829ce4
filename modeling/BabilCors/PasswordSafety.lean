import BabilCors.Config
import BabilCors.ExactFloat

/-!
# What a successful password check says

A check succeeds on one of the three credentials of the user, with one
exception: a user whose only credential is a password hash that is not of the
PBKDF2 form is compared with the empty plaintext password.
-/

namespace BabilCors

open Py

section Safety

variable {F : Type} [PyFloat F] [Crypto]

def AcceptedConfig (env : Env) (cfg : CasterCfg F) : Prop :=
  ∃ raw, loadConfig env raw = .ok cfg ∧ validateConfig cfg = .ok ()

omit [Crypto] in
/-- Neither digest is in force, so the plaintext is. -/
def PlainInForce (u : UserRecord) : Prop :=
  isTruthy u.passwordSha256 = false ∧ u.passwordHash.bind pbkdf2Parts? = none

/-- The provided text is the credential of the user that is in force. -/
inductive Presents (u : UserRecord) (provided : String) : Prop
  | plain (hforce : PlainInForce u) (hset : u.password ≠ "")
      (heq : provided = u.password)
  | sha256 (sha : String) (hsha : u.passwordSha256 = some sha)
      (hset : sha ≠ "")
      (heq : lower (hexlify (Crypto.sha256 (utf8Encode provided))) =
        lower sha)
  | pbkdf2 (hash : String) (parts : String × String × String)
      (iterations : ℤ) (salt digest : List UInt8)
      (hhash : u.passwordHash = some hash)
      (hparts : pbkdf2Parts? hash = some parts)
      (hdecode : decodeParts? parts = some (iterations, salt, digest))
      (heq : Crypto.pbkdf2 (utf8Encode provided) salt iterations =
        some digest)

omit [Crypto] in
/-- The user's only credential is a password hash of another form. -/
def OnlyMalformedHash (u : UserRecord) : Prop :=
  u.password = "" ∧ isTruthy u.passwordSha256 = false ∧
    ∃ hash, u.passwordHash = some hash ∧ hash ≠ "" ∧
      pbkdf2Parts? hash = none

omit [Crypto] in
theorem isTruthy_eq_false {s? : Option String} :
    isTruthy s? = false ↔ s? = none ∨ s? = some "" := by
  cases s? <;> simp [isTruthy]

theorem verifyPlain_of_no_sha {u : UserRecord} {provided : String}
    (hsha : isTruthy u.passwordSha256 = false) :
    verifyPlain u provided = (u.password == provided) := by
  unfold verifyPlain
  rcases isTruthy_eq_false.mp hsha with hnone | hempty
  · simp [hnone]
  · simp [hempty]

theorem verifyPlain_of_sha {u : UserRecord} {provided sha : String}
    (hsha : u.passwordSha256 = some sha) (hset : sha ≠ "") :
    verifyPlain u provided =
      (lower (hexlify (Crypto.sha256 (utf8Encode provided))) ==
        lower sha) := by
  simp [verifyPlain, hsha, hset]

theorem presents_of_verifyPassword {u : UserRecord} {provided : String}
    (hverify : verifyPassword u provided = some true) :
    Presents u provided ∨ PlainInForce u ∧ u.password = provided := by
  unfold verifyPassword at hverify
  split at hverify
  next parts hbind =>
    obtain ⟨hash, hhash, hparts⟩ := Option.bind_eq_some_iff.mp hbind
    split at hverify
    · cases hverify
    next iterations salt expected hdecode =>
      obtain ⟨derived, hderived, heq⟩ := Option.map_eq_some_iff.mp hverify
      have hdigest : derived = expected := by simpa using heq
      exact .inl (.pbkdf2 hash parts iterations salt expected hhash hparts
        hdecode (hdigest ▸ hderived))
  next hbind =>
    have hplain : verifyPlain u provided = true := Option.some.inj hverify
    cases hsha : isTruthy u.passwordSha256 with
    | false =>
        rw [verifyPlain_of_no_sha hsha] at hplain
        exact .inr ⟨⟨hsha, hbind⟩, by simpa using hplain⟩
    | true =>
        obtain ⟨sha, hsome, hset⟩ : ∃ sha, u.passwordSha256 = some sha ∧
            sha ≠ "" := by
          cases hvalue : u.passwordSha256 with
          | none => simp [isTruthy, hvalue] at hsha
          | some sha => exact ⟨sha, rfl, by simpa [isTruthy, hvalue] using hsha⟩
        rw [verifyPlain_of_sha hsome hset] at hplain
        exact .inl (.sha256 sha hsome hset (by simpa using hplain))

theorem verifyPassword_of_onlyMalformedHash {u : UserRecord}
    (honly : OnlyMalformedHash u) : verifyPassword u "" = some true := by
  obtain ⟨hpassword, hsha, hash, hhash, _, hparts⟩ := honly
  unfold verifyPassword
  simp [hhash, hparts, verifyPlain_of_no_sha hsha, hpassword]

theorem not_presents_of_onlyMalformedHash {u : UserRecord}
    (honly : OnlyMalformedHash u) (provided : String) :
    ¬ Presents u provided := by
  obtain ⟨hpassword, hsha, hash, hhash, _, hparts⟩ := honly
  rintro (⟨_, hset, _⟩ | ⟨sha, hsome, hset, _⟩ |
    ⟨other, parts, _, _, _, hother, hsplit, _⟩)
  · exact hset hpassword
  · rw [hsome] at hsha
    simp [isTruthy, hset] at hsha
  · rw [hhash] at hother
    cases hother
    rw [hparts] at hsplit
    cases hsplit

/-- In an accepted configuration a successful check presents the user's
credential, except on the empty text for a user whose only credential is a
malformed password hash. -/
theorem verifyPassword_presents_iff {env : Env} {cfg : CasterCfg F}
    (haccepted : AcceptedConfig env cfg) {u : UserRecord}
    (hu : u ∈ cfg.users.values) (provided : String) :
    (verifyPassword u provided = some true → Presents u provided) ↔
      ¬ (provided = "" ∧ OnlyMalformedHash u) := by
  obtain ⟨_, _, hvalid⟩ := haccepted
  have hcredential := lacksCredential_of_validateConfig hvalid hu
  constructor
  · rintro hpresents ⟨rfl, honly⟩
    exact not_presents_of_onlyMalformedHash honly ""
      (hpresents (verifyPassword_of_onlyMalformedHash honly))
  · intro hfine hverify
    rcases presents_of_verifyPassword hverify with hpresents | ⟨hforce, heq⟩
    · exact hpresents
    · by_cases hset : u.password = ""
      · -- validation leaves a password hash as the only credential
        have hhash : isTruthy u.passwordHash = true := by
          simpa [lacksCredential, hset, hforce.1] using hcredential
        cases hvalue : u.passwordHash with
        | none => simp [isTruthy, hvalue] at hhash
        | some hash =>
            refine (hfine ⟨heq ▸ hset, hset, hforce.1, hash, hvalue, ?_, ?_⟩).elim
            · simpa [isTruthy, hvalue] using hhash
            · simpa [hvalue] using hforce.2
      · exact .plain hforce hset heq.symm

end Safety

/-! ## Two small configurations -/

def oneUserDocument (field value : String) : Json ℚ :=
  .obj [("sources", .obj [("password", .str "s3cret")]),
    ("users", .obj [("rover", .obj [(field, .str value)])])]

def oneUser (password : String) (passwordHash : Option String) :
    UserRecord :=
  .basic "rover" password passwordHash

def oneUserCfg (user : UserRecord) : CasterCfg ℚ :=
  .basic "s3cret" [("rover", user)]

theorem verifyPassword_presents_iff_plain :
    (@verifyPassword noDigest (oneUser "hunter2" none) "hunter2" = some true →
        @Presents noDigest (oneUser "hunter2" none) "hunter2") ↔
      ¬ ("hunter2" = "" ∧ OnlyMalformedHash (oneUser "hunter2" none)) :=
  let _ := noDigest
  have haccepted : AcceptedConfig (fun _ => none)
      (oneUserCfg (oneUser "hunter2" none)) :=
    ⟨oneUserDocument "password" "hunter2", by rfl, by rfl⟩
  verifyPassword_presents_iff haccepted List.mem_cons_self "hunter2"

/-- An accepted configuration whose user has a bcrypt hash and nothing else
lets that user in with the empty password. -/
theorem verifyPassword_accepts_empty :
    loadConfig (fun _ => none) (oneUserDocument "password_hash" "$2b$12$abc") =
        .ok (oneUserCfg (oneUser "" (some "$2b$12$abc"))) ∧
      validateConfig (oneUserCfg (oneUser "" (some "$2b$12$abc"))) = .ok () ∧
      @verifyPassword noDigest (oneUser "" (some "$2b$12$abc")) "" =
        some true ∧
      ¬ @Presents noDigest (oneUser "" (some "$2b$12$abc")) "" := by
  let _ := noDigest
  have honly : OnlyMalformedHash (oneUser "" (some "$2b$12$abc")) :=
    ⟨rfl, rfl, "$2b$12$abc", rfl, by decide, by decide⟩
  exact ⟨by rfl, by rfl, verifyPassword_of_onlyMalformedHash honly,
    not_presents_of_onlyMalformedHash honly ""⟩

end BabilCors
