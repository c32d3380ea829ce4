import BabilCors.BasicAuthentication
import BabilCors.NumberTexts

/-!
# Password hashes

`make_password_hash` writes the iteration count, the salt and the derived key
in one text.  A user whose record holds this text is let in with exactly the
passwords that derive the same key, whatever other credentials the record
has.
-/

namespace BabilCors

open Py

section Hash

variable [Crypto]

/-- `make_password_hash` with its random salt; `none` is an exception. -/
def makePasswordHash (password : String) (salt : List UInt8)
    (iterations : ℤ) : Option String :=
  (Crypto.pbkdf2 (utf8Encode password) salt iterations).bind fun derived =>
    (strInt? iterations).map fun text =>
      "pbkdf2_sha256$" ++ text ++ "$" ++ hexlify salt ++ "$" ++
        hexlify derived

omit [Crypto] in
theorem dollar_notMem_strInt? {z : ℤ} {text : String}
    (htext : strInt? z = some text) : '$' ∉ text.toList := by
  unfold strInt? at htext
  split_ifs at htext
  all_goals
    obtain rfl := Option.some.inj htext
    rw [String.toList_ofList, List.mem_append, not_or]
    refine ⟨by decide, fun hmem => ?_⟩
    have hdigit := Nat.isDigit_of_mem_toDigits (by decide) (by decide) hmem
    revert hdigit
    decide

omit [Crypto] in
/-- The parts of a hash are read back. -/
theorem pbkdf2Parts?_text {text : String} (htext : '$' ∉ text.toList)
    (salt derived : List UInt8) :
    pbkdf2Parts? ("pbkdf2_sha256$" ++ text ++ "$" ++ hexlify salt ++ "$" ++
        hexlify derived) = some (text, hexlify salt, hexlify derived) := by
  have hhex (data : List UInt8) : '$' ∉ (hexlify data).toList :=
    fun hmem => mem_hexlify hmem rfl
  have hlist : ("pbkdf2_sha256$" ++ text ++ "$" ++ hexlify salt ++ "$" ++
      hexlify derived).toList = "pbkdf2_sha256".toList ++ '$' ::
        (text.toList ++ '$' :: ((hexlify salt).toList ++ '$' ::
          (hexlify derived).toList)) := by
    simp [String.toList_append]
  have hsplit : split '$' ("pbkdf2_sha256$" ++ text ++ "$" ++ hexlify salt ++
      "$" ++ hexlify derived) =
        ["pbkdf2_sha256", text, hexlify salt, hexlify derived] := by
    unfold split
    rw [hlist, List.splitOn_append_cons_self, List.splitOn_append_cons_self,
      List.splitOn_append_cons_self,
      List.splitOn_eq_singleton (by decide : '$' ∉ "pbkdf2_sha256".toList),
      List.splitOn_eq_singleton htext, List.splitOn_eq_singleton (hhex salt),
      List.splitOn_eq_singleton (hhex derived)]
    simp
  unfold pbkdf2Parts?
  rw [hsplit]
  rfl

/-- The record of a document with a hash that was made has this hash. -/
theorem loadUser_passwordHash {F : Type} [PyFloat F] {password : String}
    {salt : List UInt8} {iterations : ℤ} {hash : String}
    (hmade : makePasswordHash password salt iterations = some hash)
    (env : Env) (username : String) {ud : PyDict String (Json F)}
    (hud : ud.get? "password_hash" = some (.str hash)) :
    (loadUser env username ud).passwordHash = some hash := by
  obtain ⟨derived, -, hmade⟩ := Option.bind_eq_some_iff.mp hmade
  obtain ⟨text, -, rfl⟩ := Option.map_eq_some_iff.mp hmade
  have hstart : startsWith ("pbkdf2_sha256$" ++ text ++ "$" ++ hexlify salt ++
      "$" ++ hexlify derived) "env:" = false := by
    unfold startsWith
    simp only [String.toList_append, List.append_assoc]
    rfl
  have hne : "pbkdf2_sha256$" ++ text ++ "$" ++ hexlify salt ++ "$" ++
      hexlify derived ≠ "" := by
    intro hempty
    have hlist := congrArg String.toList hempty
    simp [String.toList_append] at hlist
  have hstr : getStr ud "password_hash" = "pbkdf2_sha256$" ++ text ++ "$" ++
      hexlify salt ++ "$" ++ hexlify derived := by
    unfold getStr
    rw [hud]
    rfl
  change getSecret? env ud "password_hash" = _
  unfold getSecret?
  simp only [hstr, if_neg hne, resolveSecret, hstart]
  rfl

/-- Whatever else the document of a user says, a password hash that was made
for a password lets in exactly the passwords with the same derived key. -/
theorem login_of_makePasswordHash {F : Type} [PyFloat F] {password : String}
    {salt : List UInt8} {iterations : ℤ} {hash : String}
    (hmade : makePasswordHash password salt iterations = some hash)
    (env : Env) (username : String) {ud : PyDict String (Json F)}
    (hud : ud.get? "password_hash" = some (.str hash)) :
    verifyPassword (loadUser env username ud) password = some true ∧
      ∀ provided,
        verifyPassword (loadUser env username ud) provided = some true ↔
          Crypto.pbkdf2 (utf8Encode provided) salt iterations =
            Crypto.pbkdf2 (utf8Encode password) salt iterations := by
  have hrecord := loadUser_passwordHash hmade env username hud
  obtain ⟨derived, hderived, hmade⟩ := Option.bind_eq_some_iff.mp hmade
  obtain ⟨text, htext, rfl⟩ := Option.map_eq_some_iff.mp hmade
  have hparts := pbkdf2Parts?_text (dollar_notMem_strInt? htext) salt derived
  have hdecoded : decodeParts? (text, hexlify salt, hexlify derived) =
      some (iterations, salt, derived) := by
    unfold decodeParts?
    simp only [int?_strInt? htext, unhexlify?_hexlify, Option.bind_some,
      Option.map_some]
  have hverify (provided : String) :
      verifyPassword (loadUser env username ud) provided =
        (Crypto.pbkdf2 (utf8Encode provided) salt iterations).map
          (· == derived) := by
    unfold verifyPassword
    rw [hrecord, Option.bind_some, hparts]
    dsimp only
    rw [hdecoded]
  have hiff (provided : String) :
      verifyPassword (loadUser env username ud) provided = some true ↔
        Crypto.pbkdf2 (utf8Encode provided) salt iterations =
          Crypto.pbkdf2 (utf8Encode password) salt iterations := by
    rw [hverify, hderived]
    simp
  exact ⟨(hiff password).mpr rfl, hiff⟩

end Hash

/-- A digest that gives the password back. -/
@[reducible] def plainDigest : Crypto where
  sha256 data := data
  pbkdf2 password _ iterations :=
    if 0 < iterations then some password else none

/-- The document also has another plaintext. -/
def hashedDocument : PyDict String (Json ℚ) :=
  [("password", .str "other"),
    ("password_hash", .str "pbkdf2_sha256$210000$0aff$736563726574")]

theorem login_of_makePasswordHash_secret :
    @verifyPassword plainDigest
        (loadUser (fun _ => none) "u" hashedDocument) "secret" = some true ∧
      ∀ provided,
        @verifyPassword plainDigest
            (loadUser (fun _ => none) "u" hashedDocument) provided =
              some true ↔
          plainDigest.pbkdf2 (utf8Encode provided) [10, 255] 210000 =
            plainDigest.pbkdf2 (utf8Encode "secret") [10, 255] 210000 :=
  @login_of_makePasswordHash plainDigest ℚ _ "secret" [10, 255] 210000 _
    (by decide +kernel) (fun _ => none) "u" hashedDocument rfl

end BabilCors
