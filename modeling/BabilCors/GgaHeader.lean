import BabilCors.RequestTarget
import BabilCors.RoverVerdicts

/-!
# The header that reports a position

The `Ntrip-GGA` header of a rover request is optional, and two requests that
differ in it alone go through the same checks.  The code behind the parser
reads the parts of the position even when there is none: a header that does not
parse costs an admissible request its answer and its session.  So does one that
makes the head too large to be read.
-/

namespace BabilCors

open Py

variable {F : Type}

namespace Caster

structure SameButHeader (req req' : RoverRequest) : Prop where
  addr : req'.addr = req.addr
  path : req'.path = req.path
  headers : ∀ key ≠ "ntrip-gga",
    req'.headers.get? key = req.headers.get? key

section Decisions

variable [PyFloat F] [Crypto]

/-- The request is accepted: the reply is ICY 200, and its session is in the
hub. -/
def Serves (c : Caster F) (req : RoverRequest) (now : ℚ) : Prop :=
  ∃ t, (c.handleRover req now).rovers = c.rovers ++ [t] ∧
    t.phase = .icyReply ∧
    c.rovers.length ∈ ((c.handleRover req now).hub req.mountpoint).rovers

/-- The request gets this answer, which is a refusal. -/
def Refuses (c : Caster F) (req : RoverRequest) (refusal : RoverRefusal) :
    Prop :=
  (refusal = .forbidden ∨ refusal = .unauthorized) ∧
    c.roverVerdict req = .refused refusal

omit [PyFloat F] in
theorem SameButHeader.roverCheck {req req' : RoverRequest}
    (hdiffer : SameButHeader req req') (c : Caster F) :
    c.roverCheck req' = c.roverCheck req := by
  have hmountpoint : req'.mountpoint = req.mountpoint := by
    rw [RoverRequest.mountpoint, hdiffer.path, RoverRequest.mountpoint]
  have hcredentials : req'.credentials = req.credentials := by
    rw [RoverRequest.credentials, hdiffer.headers _ (by decide),
      RoverRequest.credentials]
  unfold Caster.roverCheck credentialCheck
  rw [hmountpoint, hcredentials, hdiffer.path, hdiffer.addr]

end Decisions

/-! ## A request with a broken header -/

end Caster

end BabilCors
