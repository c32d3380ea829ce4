import Mathlib.Tactic

/-!
# RTCM 3 framing

The byte-level functions of `rtcm.py`: the CRC24Q checksum, the message type
of a payload and the stream parser.  Bytes are `UInt8`; the checksum and the
header fields are natural numbers, as Python's integers are.  The `while True`
loop of `feed` is the iteration of one function, `parseIteration`, which
describes one pass through the body.
-/

namespace BabilCors

abbrev Bytes := List UInt8

namespace Rtcm

def crc24qPoly : ℕ := 0x1864CFB

/-- One of the eight shifts of the inner loop. -/
def crc24qShift (crc : ℕ) : ℕ :=
  let crc := crc <<< 1
  if crc &&& 0x1000000 ≠ 0 then crc ^^^ crc24qPoly else crc

def crc24qByte (crc : ℕ) (b : UInt8) : ℕ :=
  crc24qShift^[8] (crc ^^^ ((b.toNat &&& 0xFF) <<< 16))

def crc24q (data : Bytes) : ℕ :=
  data.foldl crc24qByte 0 &&& 0xFFFFFF

/-- The first twelve bits of a payload of at least two bytes. -/
def rtcmMessageType : Bytes → Option ℕ
  | b₀ :: b₁ :: _ =>
      some (((b₀.toNat <<< 4) ||| (b₁.toNat >>> 4)) &&& 0xFFF)
  | _ => none

structure RtcmFrame where
  msgType : ℕ
  raw : Bytes
  deriving DecidableEq, Repr

/-- The byte at an index, as an integer; the parser reads only indices that
lie inside the buffer. -/
def byteAt (buf : Bytes) (i : ℕ) : ℕ :=
  (buf.getD i 0).toNat

def preamble : UInt8 := 0xD3

def lengthField (buf : Bytes) : ℕ :=
  ((byteAt buf 1 &&& 0x03) <<< 8) ||| byteAt buf 2

def crcField (frame : Bytes) : ℕ :=
  (byteAt frame (frame.length - 3) <<< 16) |||
    (byteAt frame (frame.length - 2) <<< 8) |||
      byteAt frame (frame.length - 1)

/-- How one pass through the loop of `feed` ends: it breaks, counts a CRC
error and goes on behind the preamble, or emits a frame and goes on behind
it.  Each carries the buffer it leaves. -/
inductive Iteration where
  | incomplete (buf : Bytes)
  | crcError (buf : Bytes)
  | frame (fr : RtcmFrame) (buf : Bytes)
  deriving DecidableEq, Repr

/-- The decision on a buffer that starts with the preamble. -/
def parseCandidate (buf : Bytes) : Iteration :=
  if buf.length < 3 then
    .incomplete buf
  else
    let length := lengthField buf
    let total := 3 + length + 3
    if buf.length < total then
      .incomplete buf
    else
      let frame := buf.take total
      let payload := (frame.drop 3).take length
      if crc24q (frame.take (frame.length - 3)) ≠ crcField frame then
        .crcError (buf.drop 1)
      else
        match rtcmMessageType payload with
        | none => .crcError (buf.drop 1)
        | some mt => .frame ⟨mt, frame⟩ (buf.drop total)

/-- One pass: scan to the next preamble, then decide. -/
def parseIteration (buf : Bytes) : Iteration :=
  parseCandidate (buf.dropWhile (· != preamble))

structure FeedResult where
  frames : List RtcmFrame
  crcErrors : ℕ
  buf : Bytes
  deriving DecidableEq, Repr

/-- The loop of `feed`.  Every pass that goes on shortens the buffer, so fuel
beyond the length of the buffer never runs out. -/
def feedLoop : ℕ → Bytes → List RtcmFrame → ℕ → FeedResult
  | 0, buf, frames, crcErrors => ⟨frames, crcErrors, buf⟩
  | fuel + 1, buf, frames, crcErrors =>
      match parseIteration buf with
      | .incomplete rest => ⟨frames, crcErrors, rest⟩
      | .crcError rest => feedLoop fuel rest frames (crcErrors + 1)
      | .frame fr rest => feedLoop fuel rest (frames ++ [fr]) crcErrors

/-- `RtcmStreamParser.feed` on a parser whose `_buf` is `buf`. -/
def feed (buf chunk : Bytes) : FeedResult :=
  feedLoop ((buf ++ chunk).length + 1) (buf ++ chunk) [] 0

/-- A complete frame: the preamble, a length field that matches the length,
and the checksum of everything before it in the last three bytes. -/
structure IsFrame (raw : Bytes) : Prop where
  preamble : raw.head? = some preamble
  length : raw.length = 3 + lengthField raw + 3
  crc : crc24q (raw.take (raw.length - 3)) = crcField raw

end Rtcm

end BabilCors
