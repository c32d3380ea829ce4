import BabilCors.BlockedRovers

/-!
# Verdicts on rover requests

The answer that the rover part of `_handle_http` gives to a request, and what
each answer leaves of the server.  A request that is accepted joins the hub of
the mountpoint in its path, behind the check of the disabled set.  The
`Ntrip-GGA` header is read last; one that does not parse ends the handler by an
exception, and the client gets no answer.
-/

namespace BabilCors

open Py

variable {F : Type}

namespace Caster

/-- How the checks in front of the header can end the handler: another page
answers, a refusal is sent, or an exception ends it without an answer. -/
inductive RoverRefusal where
  | page
  | forbidden
  | unauthorized
  | raises
  deriving DecidableEq, Repr

inductive RoverVerdict (F : Type) where
  | refused (refusal : RoverRefusal)
  | headerRaises
  | icy (user : UserRecord) (username : String) (gga : Option (Gga F))

/-- The mountpoint under which the hub and the disabled set are asked. -/
def RoverRequest.mountpoint (req : RoverRequest) : String :=
  lstripChar '/' req.path

def RoverRequest.credentials (req : RoverRequest) :
    Except PyErr (Option (String × String)) :=
  parseBasicAuth ((req.headers.get? "authorization").getD "")

section Verdicts

variable [Crypto]

def credentialCheck (c : Caster F) (req : RoverRequest) :
    Except RoverRefusal (UserRecord × String) :=
  match req.credentials with
  | .error _ => .error .raises
  | .ok none => .error .unauthorized
  | .ok (some (username, password)) =>
      match c.cfg.users.get? username with
      | none => .error .unauthorized
      | some user =>
          match verifyPassword user password with
          | none => .error .raises
          | some false => .error .unauthorized
          | some true =>
              if userCanAccess user req.mountpoint then
                if c.hasRoom (clientIpOf req.addr) then .ok (user, username)
                else .error .forbidden
              else .error .forbidden

/-- The checks in front of the header: the user and its name, or how they end
the handler. -/
def roverCheck (c : Caster F) (req : RoverRequest) :
    Except RoverRefusal (UserRecord × String) :=
  if req.path ∈ otherPaths then .error .page
  else if c.isDisabled req.mountpoint then .error .forbidden
  else c.credentialCheck req

def roverVerdict [PyFloat F] (c : Caster F) (req : RoverRequest) :
    RoverVerdict F :=
  match c.roverCheck req with
  | .error refusal => .refused refusal
  | .ok (user, username) =>
      (headerGga req).elim .headerRaises (.icy user username)

omit [Crypto] in
/-- The session of an accepted request, behind the id that it draws. -/
def newSession (c : Caster F) (user : UserRecord) (username : String)
    (gga : Option (Gga F)) (req : RoverRequest) (now : ℚ) :
    RoverSession F where
  id := c.idSeq + 1
  username := username
  tier := c.tierOf user
  mountpoint := req.mountpoint
  addr := req.addr
  queue := .new (c.tierOf user).queueLimit
  bucket := (c.tierOf user).sessionBucket now
  epLastTs := none
  droppedBytes := 0
  sentBytes := 0
  lastGga := gga
  writerClosing := false
  socket := []

def drawId (c : Caster F) : Caster F :=
  { c with idSeq := c.idSeq + 1 }

/-- What an answer leaves of the server. -/
def afterVerdict (c : Caster F) (req : RoverRequest) (now : ℚ) :
    RoverVerdict F → Caster F
  | .refused .unauthorized => c.countUnauthorized req.mountpoint
  | .refused _ => c
  | .headerRaises => c.drawId
  | .icy user username gga =>
      c.drawId.join (c.newSession user username gga req now)
        (clientIpOf req.addr)

variable [PyFloat F]

omit [Crypto] in
theorem takeSlot_eq {c : Caster F} {req : RoverRequest}
    (hroom : c.hasRoom (clientIpOf req.addr) = true) (user : UserRecord)
    (username : String) (now : ℚ) :
    c.takeSlot user username req.mountpoint req now =
      c.afterVerdict req now
        ((headerGga req).elim .headerRaises (.icy user username)) := by
  unfold takeSlot headerGga
  dsimp only
  rw [if_pos hroom]
  by_cases hheader : (req.headers.get? "ntrip-gga").getD "" = ""
  · rw [if_pos hheader, if_pos hheader]
    rfl
  · rw [if_neg hheader, if_neg hheader]
    cases parseGga (F := F)
      (strip ((req.headers.get? "ntrip-gga").getD "")) <;> rfl

omit [Crypto] in
theorem takeSlot_of_full {c : Caster F} {req : RoverRequest}
    (hfull : ¬ c.hasRoom (clientIpOf req.addr) = true) (user : UserRecord)
    (username : String) (now : ℚ) :
    c.takeSlot user username req.mountpoint req now = c := by
  unfold takeSlot
  dsimp only
  rw [if_neg hfull]

/-- The handler leaves what its answer says. -/
theorem handleRover_eq (c : Caster F) (req : RoverRequest) (now : ℚ) :
    c.handleRover req now =
      c.afterVerdict req now (c.roverVerdict req) := by
  unfold handleRover roverVerdict roverCheck credentialCheck
    RoverRequest.credentials
  change (if req.path ∈ otherPaths ∨ c.isDisabled req.mountpoint = true then
    c else _) = _
  by_cases hpath : req.path ∈ otherPaths
  · rw [if_pos (.inl hpath), if_pos hpath]
    rfl
  by_cases hdisabled : c.isDisabled req.mountpoint = true
  · rw [if_pos (.inr hdisabled), if_neg hpath, if_pos hdisabled]
    rfl
  have hneither : ¬ (req.path ∈ otherPaths ∨
      c.isDisabled req.mountpoint = true) := by
    rintro (h | h)
    · exact hpath h
    · exact hdisabled h
  rw [if_neg hneither, if_neg hpath, if_neg hdisabled]
  cases parseBasicAuth ((req.headers.get? "authorization").getD "") with
  | error e => rfl
  | ok pair =>
      rcases pair with _ | ⟨username, password⟩
      · rfl
      · dsimp only
        cases c.cfg.users.get? username with
        | none => rfl
        | some user =>
            dsimp only
            cases verifyPassword user password with
            | none => rfl
            | some valid =>
                cases valid with
                | false => rfl
                | true =>
                    dsimp only
                    change (if userCanAccess user req.mountpoint = true then
                      _ else c) = _
                    split_ifs with haccess hroom
                    · exact takeSlot_eq hroom user username now
                    · exact takeSlot_of_full hroom user username now
                    · rfl

/-! ## What the checks say -/

omit [PyFloat F]

/-- The request gets past every check in front of its header. -/
structure Admissible (c : Caster F) (req : RoverRequest) (user : UserRecord)
    (username : String) : Prop where
  rover : req.path ∉ otherPaths
  enabled : c.isDisabled req.mountpoint = false
  verified : ∃ password, req.credentials = .ok (some (username, password)) ∧
    c.cfg.users.get? username = some user ∧
    verifyPassword user password = some true
  access : userCanAccess user req.mountpoint = true
  room : c.hasRoom (clientIpOf req.addr) = true

/-- The credentials of the request raise an exception when they are read. -/
structure CheckRaises (c : Caster F) (req : RoverRequest) : Prop where
  rover : req.path ∉ otherPaths
  enabled : c.isDisabled req.mountpoint = false
  raises : (∃ e, req.credentials = .error e) ∨
    ∃ username password user,
      req.credentials = .ok (some (username, password)) ∧
        c.cfg.users.get? username = some user ∧
        verifyPassword user password = none

theorem roverCheck_ok_iff {c : Caster F} {req : RoverRequest}
    {user : UserRecord} {username : String} :
    c.roverCheck req = .ok (user, username) ↔
      c.Admissible req user username := by
  constructor
  · intro hok
    unfold roverCheck at hok
    split_ifs at hok with hpath hdisabled
    unfold credentialCheck at hok
    split at hok
    · cases hok
    · cases hok
    next name password hcredentials =>
      split at hok
      · cases hok
      next found hfound =>
        split at hok
        · cases hok
        · cases hok
        next hverified =>
          split_ifs at hok with haccess hroom
          cases hok
          exact ⟨hpath, by simpa using hdisabled,
            ⟨password, hcredentials, hfound, hverified⟩, haccess, hroom⟩
  · rintro ⟨hrover, henabled, ⟨password, hcredentials, huser, hverified⟩,
      haccess, hroom⟩
    unfold roverCheck credentialCheck
    rw [if_neg hrover, henabled, hcredentials]
    simp [huser, hverified, haccess, hroom]

theorem roverCheck_raises_iff {c : Caster F} {req : RoverRequest} :
    c.roverCheck req = .error .raises ↔ c.CheckRaises req := by
  constructor
  · intro hraises
    unfold roverCheck at hraises
    split_ifs at hraises with hpath hdisabled
    · cases hraises
    · cases hraises
    have henabled : c.isDisabled req.mountpoint = false := by
      simpa using hdisabled
    unfold credentialCheck at hraises
    split at hraises
    next e hcredentials =>
      exact ⟨hpath, henabled, .inl ⟨e, hcredentials⟩⟩
    · cases hraises
    next name password hcredentials =>
      split at hraises
      · cases hraises
      next found hfound =>
        split at hraises
        next hverify =>
          exact ⟨hpath, henabled,
            .inr ⟨name, password, found, hcredentials, hfound, hverify⟩⟩
        · cases hraises
        · split_ifs at hraises <;> cases hraises
  · rintro ⟨hrover, henabled, ⟨e, hcredentials⟩ | ⟨username, password,
      user, hcredentials, huser, hverify⟩⟩
    · unfold roverCheck credentialCheck
      rw [if_neg hrover, henabled, hcredentials]
      simp
    · unfold roverCheck credentialCheck
      rw [if_neg hrover, henabled, hcredentials]
      simp [huser, hverify]

end Verdicts

/-- A rover request is refused and leaves the hubs as they are, or it is
admissible and joins the hub of its mountpoint. -/
theorem handleRover_admission [Crypto] [PyFloat F] (c : Caster F)
    (req : RoverRequest) (now : ℚ) :
    SameStreams c (c.handleRover req now) ∨
      ∃ user username gga, c.Admissible req user username ∧
        headerGga req = some gga ∧
        c.handleRover req now =
          c.drawId.join (c.newSession user username gga req now)
            (clientIpOf req.addr) := by
  have hkeeps (refusal : RoverRefusal) :
      SameStreams c (c.afterVerdict req now (.refused refusal)) := by
    cases refusal <;> exact ⟨rfl, rfl, rfl, rfl, rfl⟩
  rw [handleRover_eq]
  unfold roverVerdict
  rcases hcheck : c.roverCheck req with refusal | ⟨user, username⟩
  · exact .inl (hkeeps refusal)
  · dsimp only
    cases hgga : headerGga (F := F) req with
    | none => exact .inl ⟨rfl, rfl, rfl, rfl, rfl⟩
    | some gga =>
        exact .inr ⟨user, username, gga, roverCheck_ok_iff.mp hcheck, rfl,
          rfl⟩

end Caster

end BabilCors
