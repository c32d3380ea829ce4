import BabilCors.PyValue

/-!
# Users and credentials

The functions of `auth.py`.  SHA-256 and PBKDF2 are given functions, and the
environment is a lookup.
-/

namespace BabilCors

open Py

/-- The digest functions.  `pbkdf2` raises for an iteration count that the
library refuses. -/
class Crypto where
  sha256 : List UInt8 → List UInt8
  pbkdf2 : (password salt : List UInt8) → (iterations : ℤ) →
    Option (List UInt8)

abbrev Env := String → Option String

structure UserRecord where
  username : String
  password : String
  passwordSha256 : Option String
  passwordHash : Option String
  tier : String
  mountpoints : List String
  geofenceId : Option String
  role : String
  deriving DecidableEq, Repr

def UserRecord.basic (username password : String)
    (passwordHash : Option String) : UserRecord where
  username := username
  password := password
  passwordSha256 := none
  passwordHash := passwordHash
  tier := "free"
  mountpoints := ["*"]
  geofenceId := none
  role := "user"

/-! ## Basic authentication -/

/-- `b64decode_str`: a malformed text gives no bytes, a non-ASCII one
raises. -/
def b64decodeStr (s : String) : Except PyErr (List UInt8) :=
  if isAscii s then .ok ((b64decode? s).getD [])
  else .error
    (.valueError "string argument should contain only ASCII characters")

def parseBasicAuth (headerValue : String) :
    Except PyErr (Option (String × String)) :=
  match splitWsOnce? (strip headerValue) with
  | none => .ok none
  | some (scheme, b64) =>
      if lower scheme ≠ "basic" then .ok none
      else
        (b64decodeStr b64).map fun raw =>
          let s := safeDecode raw
          match after? ':' s with
          | none => none
          | some pwd =>
              if before ':' s = "" then none else some (before ':' s, pwd)

/-! ## Loading users -/

/-- `os.getenv(value.split(":", 1)[1], "")` for `env:` values. -/
def resolveSecret (env : Env) (value : String) : String :=
  if startsWith value "env:" then
    (env ((after? ':' value).getD "")).getD ""
  else
    value

section LoadUsers

variable {F : Type} [PyFloat F]

def getStr (d : PyDict String (Json F)) (key : String) : String :=
  match d.get? key with
  | none => ""
  | some value => value.pyStr

def getSecret? (env : Env) (d : PyDict String (Json F)) (key : String) :
    Option String :=
  let raw := getStr d key
  if raw = "" then none else some (resolveSecret env raw)

def loadUser (env : Env) (username : String) (ud : PyDict String (Json F)) :
    UserRecord where
  username := username
  password := resolveSecret env (getStr ud "password")
  passwordSha256 := getSecret? env ud "password_sha256"
  passwordHash := getSecret? env ud "password_hash"
  tier := ((ud.get? "tier").map Json.pyStr).getD "free"
  mountpoints :=
    match ud.get? "mountpoints" with
    | some (.arr mps) => mps.map Json.pyStr
    | _ => ["*"]
  geofenceId :=
    match ud.get? "geofence_id" with
    | some value => if value.truthy then some value.pyStr else none
    | none => none
  role := ((ud.get? "role").map Json.pyStr).getD "user"

def loadUsers (env : Env) (usersObj : Json F) :
    Except PyErr (PyDict String UserRecord) :=
  (usersObj.orElse (.obj [])).items.map fun users =>
    users.foldl
      (fun out (username, ud) =>
        match ud with
        | .obj ud => PyDict.set out username (loadUser env username ud)
        | _ => out)
      []

end LoadUsers

/-! ## Checking a password -/

/-- A password hash of the form `pbkdf2_sha256$iterations$salt$digest`, split
at the dollar signs. -/
def pbkdf2Parts? (passwordHash : String) :
    Option (String × String × String) :=
  match split '$' passwordHash with
  | [scheme, iterations, salt, digest] =>
      if scheme = "pbkdf2_sha256" then some (iterations, salt, digest)
      else none
  | _ => none

def decodeParts? : String × String × String →
    Option (ℤ × List UInt8 × List UInt8)
  | (iterations, salt, digest) =>
      (int? iterations).bind fun iterations =>
        (unhexlify? salt).bind fun salt =>
          (unhexlify? digest).map fun expected => (iterations, salt, expected)

@[reducible] def noDigest : Crypto where
  sha256 _ := []
  pbkdf2 _ _ _ := none

variable [Crypto]

def verifyPlain (user : UserRecord) (provided : String) : Bool :=
  match user.passwordSha256 with
  | some sha =>
      if sha = "" then user.password == provided
      else
        lower (hexlify (Crypto.sha256 (utf8Encode provided))) == lower sha
  | none => user.password == provided

/-- `verify_password`; `none` is the exception of an iteration count that
`pbkdf2_hmac` refuses. -/
def verifyPassword (user : UserRecord) (provided : String) : Option Bool :=
  match user.passwordHash.bind pbkdf2Parts? with
  | some parts =>
      match decodeParts? parts with
      | none => some false
      | some (iterations, salt, expected) =>
          (Crypto.pbkdf2 (utf8Encode provided) salt iterations).map
            (· == expected)
  | none => some (verifyPlain user provided)

omit [Crypto] in
def userCanAccess (user : UserRecord) (mountpoint : String) : Bool :=
  user.mountpoints.contains "*" || user.mountpoints.contains mountpoint

end BabilCors
