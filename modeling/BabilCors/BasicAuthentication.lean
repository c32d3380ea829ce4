import BabilCors.RoverVerdicts
import BabilCors.TextEncodings

/-!
# What Basic credentials are read as

`parse_basic_auth` gives a rendered pair back, and it returns on every header
but one with Basic credentials outside ASCII: these the decoder refuses by an
exception that nothing on the way catches, and the request has no answer.
-/

namespace BabilCors

open Py

/-! ## The header -/

/-- `Basic` and a text with a character outside ASCII do not come together. -/
def AsciiCredentials (header : String) : Prop :=
  ∀ scheme b64, splitWsOnce? (strip header) = some (scheme, b64) →
    lower scheme = "basic" → isAscii b64 = true

theorem parseBasicAuth_ok_iff (header : String) :
    (∃ pair?, parseBasicAuth header = .ok pair?) ↔
      AsciiCredentials header := by
  unfold parseBasicAuth AsciiCredentials
  rcases splitWsOnce? (strip header) with _ | ⟨scheme, b64⟩
  · simp
  simp only [Option.some.injEq, Prod.mk.injEq]
  by_cases hscheme : lower scheme = "basic"
  · rw [if_neg (not_not.mpr hscheme), b64decodeStr]
    by_cases hascii : isAscii b64 = true
    · rw [if_pos hascii]
      refine iff_of_true ⟨_, rfl⟩ ?_
      rintro _ _ ⟨rfl, rfl⟩ _
      exact hascii
    · rw [if_neg hascii]
      refine iff_of_false ?_ ?_
      · rintro ⟨_, hok⟩
        cases hok
      · intro hall
        exact hascii (hall scheme b64 ⟨rfl, rfl⟩ hscheme)
  · rw [if_pos hscheme]
    refine iff_of_true ⟨_, rfl⟩ ?_
    rintro _ _ ⟨rfl, rfl⟩ hbasic
    exact absurd hbasic hscheme

def basicHeader (user password : String) : String :=
  "Basic " ++ b64encode (utf8Encode (user ++ ":" ++ password))

theorem splitWsOnce?_basic {text : List Char} (hne : text ≠ [])
    (hspace : ∀ c ∈ text, isSpace c = false) :
    splitWsOnce? (strip (.ofList ("Basic ".toList ++ text))) =
      some ("Basic", .ofList text) := by
  have hlist : "Basic ".toList ++ text =
      'B' :: 'a' :: 's' :: 'i' :: 'c' :: ' ' :: text := rfl
  have hstrip : strip (.ofList ("Basic ".toList ++ text)) =
      .ofList ("Basic ".toList ++ text) := by
    apply strip_of_ends
    · intro c hc
      rw [hlist, List.head?_cons] at hc
      rw [← Option.some.inj hc]
      decide
    · intro c hc
      rw [List.getLast?_append_of_ne_nil _ hne] at hc
      exact hspace c (List.mem_of_getLast? hc)
  have hword : ∀ c ∈ "Basic".toList, (!isSpace c) = true :=
    List.all_eq_true.mp (by decide)
  have hchars : ("Basic ".toList ++ text) =
      "Basic".toList ++ ' ' :: text := rfl
  have hblank : (!isSpace ' ') = false := by
    decide
  have htext : (' ' :: text).dropWhile isSpace = text := by
    obtain ⟨first, rest, rfl⟩ := List.exists_cons_of_ne_nil hne
    have hfirst := hspace first List.mem_cons_self
    rw [List.dropWhile_cons_of_pos (by decide),
      List.dropWhile_cons_of_neg (by simp [hfirst])]
  rw [hstrip, splitWsOnce?, String.toList_ofList, hchars,
    List.dropWhile_append_of_pos hword, List.takeWhile_append_of_pos hword,
    List.dropWhile_cons_of_neg (by simp [hblank]),
    List.takeWhile_cons_of_neg (by simp [hblank]), htext, if_neg hne]
  rfl

theorem parts_at_colon {user : String} (hcolon : ':' ∉ user.toList)
    (password : String) :
    before ':' (user ++ ":" ++ password) = user ∧
      after? ':' (user ++ ":" ++ password) = some password := by
  have hlist : (user ++ ":" ++ password).toList =
      user.toList ++ ':' :: password.toList := by
    simp
  have hpass : ∀ c ∈ user.toList, (c != ':') = true := by
    intro c hc
    simpa using fun h : c = ':' => hcolon (h ▸ hc)
  constructor
  · rw [before, hlist, List.takeWhile_append_of_pos hpass]
    simp
  · rw [after?, hlist, List.dropWhile_append_of_pos hpass]
    simp

/-- A rendered pair is read back. -/
theorem parseBasicAuth_basicHeader {user : String} (huser : user ≠ "")
    (hcolon : ':' ∉ user.toList) (password : String) :
    parseBasicAuth (basicHeader user password) =
      .ok (some (user, password)) := by
  let data := utf8Encode (user ++ ":" ++ password)
  have hdata : data ≠ [] := by
    intro hnil
    have hempty := safeDecode_utf8Encode (user ++ ":" ++ password)
    rw [show utf8Encode (user ++ ":" ++ password) = [] from hnil] at hempty
    have hlist := congrArg String.toList hempty
    simp [safeDecode, decodeChars] at hlist
  have hheader : basicHeader user password =
      .ofList ("Basic ".toList ++ base64Chars data) := by
    apply String.toList_inj.mp
    simp [basicHeader, b64encode, data]
  have hparts : splitWsOnce? (strip (basicHeader user password)) =
      some ("Basic", b64encode data) := by
    rw [hheader]
    exact splitWsOnce?_basic (base64Chars_ne_nil hdata)
      fun c hc => (mem_base64Chars c hc).1
  have hlower : lower "Basic" = "basic" := by
    decide +kernel
  have hdecoded : b64decodeStr (b64encode data) = .ok data := by
    rw [b64decodeStr, if_pos (isAscii_b64encode data),
      b64decode?_b64encode, Option.getD_some]
  rcases parts_at_colon hcolon password with ⟨hbefore, hafter⟩
  rw [parseBasicAuth, hparts]
  dsimp only
  rw [if_neg (not_not.mpr hlower), hdecoded, Except.map]
  dsimp only [data]
  rw [safeDecode_utf8Encode, hafter, hbefore]
  dsimp only
  rw [if_neg huser]

/-! ## The request -/

section Requests

variable [Crypto]

namespace Caster

variable {F : Type}

/-- The path names a mountpoint that is not disabled. -/
structure ForMountpoint (c : Caster F) (req : RoverRequest) : Prop where
  rover : req.path ∉ otherPaths
  enabled : c.isDisabled req.mountpoint = false

/-- No pair is read, or its user is unknown, or the check does not confirm its
password. -/
def WithoutUsable (c : Caster F) (req : RoverRequest) : Prop :=
  ∀ username password, req.credentials = .ok (some (username, password)) →
    ∀ user, c.cfg.users.get? username = some user →
      verifyPassword user password ≠ some true

/-- The request is answered 401 and counted. -/
structure Unauthorized [PyFloat F] (c : Caster F) (req : RoverRequest)
    (now : ℚ) : Prop where
  answered : c.roverVerdict req = .refused .unauthorized
  counted : (c.handleRover req now).authUnauthTotal = c.authUnauthTotal + 1

theorem unauthorized_of_noRaise [PyFloat F] {c : Caster F}
    {req : RoverRequest} (hmountpoint : c.ForMountpoint req)
    (hno : c.WithoutUsable req) (hraise : ¬ c.CheckRaises req) (now : ℚ) :
    c.Unauthorized req now := by
  have hcheck : c.credentialCheck req = .error .unauthorized := by
    unfold credentialCheck
    cases hreturns : req.credentials with
    | error e =>
        exact absurd ⟨hmountpoint.rover, hmountpoint.enabled,
          .inl ⟨e, hreturns⟩⟩ hraise
    | ok pair? =>
        rcases pair? with _ | ⟨username, password⟩
        · rfl
        · dsimp only
          cases huser : c.cfg.users.get? username with
          | none => rfl
          | some user =>
              dsimp only
              cases hverify : verifyPassword user password with
              | none =>
                  exact absurd ⟨hmountpoint.rover, hmountpoint.enabled,
                    .inr ⟨username, password, user, hreturns, huser,
                      hverify⟩⟩ hraise
              | some valid =>
                  cases valid with
                  | false => rfl
                  | true =>
                      exact (hno username password hreturns user huser
                        hverify).elim
  have hverdict : c.roverVerdict req = .refused .unauthorized := by
    rw [roverVerdict, roverCheck, if_neg hmountpoint.rover,
      if_neg (by simp [hmountpoint.enabled]), hcheck]
  refine ⟨hverdict, ?_⟩
  rw [handleRover_eq, hverdict]
  rfl

/-- The authorization of the request is read without an exception, and without
usable credentials a request for a mountpoint is answered 401 and counted. -/
structure ReadTotally [PyFloat F] (c : Caster F) (req : RoverRequest)
    (now : ℚ) : Prop where
  returns : ∃ pair?, req.credentials = .ok pair?
  refused : c.ForMountpoint req → c.WithoutUsable req →
    c.Unauthorized req now

theorem CheckRaises.not_readTotally [PyFloat F] {c : Caster F}
    {req : RoverRequest} (hraises : c.CheckRaises req) (now : ℚ) :
    ¬ c.ReadTotally req now := by
  rintro ⟨⟨pair?, hreturns⟩, hrefused⟩
  have hno : c.WithoutUsable req := by
    intro username password hpair user huser hverify
    rcases hraises.raises with ⟨e, herror⟩ |
      ⟨username', password', user', hpair', huser', hnone⟩
    · rw [herror] at hpair
      cases hpair
    · rw [hpair] at hpair'
      cases hpair'
      rw [huser] at huser'
      cases huser'
      rw [hverify] at hnone
      cases hnone
  have hverdict := (hrefused ⟨hraises.rover, hraises.enabled⟩ hno).answered
  rw [roverVerdict, roverCheck_raises_iff.mpr hraises] at hverdict
  cases hverdict

end Caster

def ReadFaithfully : Prop :=
  ∀ user password : String, user ≠ "" → ':' ∉ user.toList →
    parseBasicAuth (basicHeader user password) = .ok (some (user, password))

/-- Basic authentication is total for exactly the requests whose Basic
credentials are ASCII and whose check raises nothing, and it gives every
rendered pair back. -/
theorem basicAuth_total_iff (F : Type) [PyFloat F] :
    (∀ (c : Caster F) (req : Caster.RoverRequest) (now : ℚ),
      c.ReadTotally req now ↔
        AsciiCredentials ((req.headers.get? "authorization").getD "") ∧
          ¬ c.CheckRaises req) ∧
      ReadFaithfully := by
  constructor
  · intro c req now
    constructor
    · intro htotal
      exact ⟨(parseBasicAuth_ok_iff _).mp htotal.returns,
        fun hraises => hraises.not_readTotally now htotal⟩
    · rintro ⟨hascii, hraise⟩
      exact ⟨(parseBasicAuth_ok_iff _).mpr hascii, fun hmountpoint hno =>
        Caster.unauthorized_of_noRaise hmountpoint hno hraise now⟩
  · intro user password huser hcolon
    exact parseBasicAuth_basicHeader huser hcolon password

end Requests

def accentHello : Caster.RoverRequest :=
  { Caster.roverHello with headers := [("authorization", "Basic é")] }

/-- A header with an accent in the place of the credentials is not read. -/
theorem accent_raises :
    ¬ @Caster.ReadTotally noDigest ℚ _ Caster.oneUser accentHello 0 := by
  intro htotal
  rcases @Caster.ReadTotally.returns noDigest ℚ _ _ _ _ htotal with
    ⟨pair?, hpair⟩
  have herror : accentHello.credentials = .error (.valueError
      "string argument should contain only ASCII characters") := by
    decide +kernel
  rw [herror] at hpair
  cases hpair

end BabilCors
