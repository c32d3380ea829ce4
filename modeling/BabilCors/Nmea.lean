import BabilCors.PyValue

/-!
# NMEA sentences

The parsers of `nmea.py`.  A sentence that a parser turns down is `none`.
-/

namespace BabilCors

open Py

structure Gga (F : Type) where
  lat : F
  lon : F
  fixQ : ℤ
  nsat : ℤ
  hdop : F
  deriving DecidableEq

structure Gsa (F : Type) where
  mode : String
  fixType : ℤ
  sats : List ℤ
  pdop : F
  hdop : F
  vdop : F

structure GsvSat where
  prn : ℤ
  elev : ℤ
  az : ℤ
  snr : ℤ
  deriving DecidableEq, Repr

structure Gsv where
  totalSent : ℤ
  sentNum : ℤ
  totalSv : ℤ
  sats : List GsvSat
  deriving DecidableEq, Repr

structure Rmc (F : Type) where
  status : String
  lat : F
  lon : F
  spd : F
  crs : F
  date : String

structure Vtg (F : Type) where
  crs : F
  spdKmh : F

structure Zda where
  timeStr : String
  day : ℤ
  month : ℤ
  year : ℤ
  deriving DecidableEq, Repr

/-- `_checksum_ok`: the xor of the characters between the first one and the
last star is the number behind the star. -/
def checksumOk (sentence : String) : Bool :=
  match rpartition? '*' sentence with
  | none => false
  | some (body, cs) =>
      match intBase16? cs with
      | none => false
      | some val =>
          ((body.toList.drop 1).foldl (fun x ch => x ^^^ ch.toNat) 0 : ℕ) = val

/-- The comma-separated parts of a sentence that passes the checks all parsers
share and has enough of them. -/
def sentenceParts? (line : String) (least : ℕ) : Option (List String) :=
  if startsWith line "$" && contains line "*" && checksumOk line then
    let parts := split ',' line
    if parts.length < least then none else some parts
  else
    none

def intOrZero? (s : String) : Option ℤ :=
  if s = "" then some 0 else int? s

section Parsers

variable {F : Type} [PyFloat F]

/-- Degrees of the given number of digits, then minutes. -/
def parseDegrees (digits : ℕ) (negative : String) (val hemi : String) :
    Option F :=
  if val = "" then none
  else
    (int? (.ofList (val.toList.take digits))).bind fun deg =>
      (PyFloat.ofString? (.ofList (val.toList.drop digits))).map fun minutes =>
        let sign : ℤ := if hemi = negative then -1 else 1
        PyFloat.mul (PyFloat.ofInt sign)
          (PyFloat.add (PyFloat.ofInt deg)
            (PyFloat.div minutes (PyFloat.ofInt 60)))

def parseLat (val hemi : String) : Option F :=
  parseDegrees 2 "S" val hemi

def parseLon (val hemi : String) : Option F :=
  parseDegrees 3 "W" val hemi

def parseGga (line : String) : Option (Gga F) :=
  (sentenceParts? line 15).bind fun parts =>
    let part (i : ℕ) : String := parts.getD i ""
    (int? (part 6)).bind fun fixQ =>
      (parseLat (part 2) (part 3)).bind fun lat =>
        (parseLon (part 4) (part 5)).map fun lon =>
          { lat := lat
            lon := lon
            fixQ := fixQ
            nsat := (int? (part 7)).getD 0
            hdop := (PyFloat.ofString? (part 8)).getD floatZero }

def parseGsa (line : String) : Option (Gsa F) :=
  (sentenceParts? line 18).map fun parts =>
    let part (i : ℕ) : String := parts.getD i ""
    let f (x : String) : F := (PyFloat.ofString? x).getD floatZero
    { mode := part 1
      fixType := (intOrZero? (part 2)).getD 0
      sats := ((parts.drop 3).take 12).filterMap fun p =>
        if strip p = "" then none else int? (strip p)
      pdop := f (part 15)
      hdop := f (part 16)
      vdop := f (before '*' (part 17)) }

/-- One group of four fields; `none` when a field is no number or there is no
PRN. -/
def gsvSat? (prn elev az snr : String) : Option GsvSat :=
  (intOrZero? prn).bind fun prn =>
    (intOrZero? elev).bind fun elev =>
      (intOrZero? az).bind fun az =>
        (intOrZero? (before '*' snr)).bind fun snr =>
          if prn = 0 then none else some ⟨prn, elev, az, snr⟩

def gsvSats : List String → List GsvSat
  | prn :: elev :: az :: snr :: rest =>
      (gsvSat? prn elev az snr).toList ++ gsvSats rest
  | _ => []

def parseGsv (line : String) : Option Gsv :=
  (sentenceParts? line 4).bind fun parts =>
    let part (i : ℕ) : String := parts.getD i ""
    (int? (part 1)).bind fun totalSent =>
      (int? (part 2)).bind fun sentNum =>
        (int? (part 3)).map fun totalSv =>
          ⟨totalSent, sentNum, totalSv, gsvSats (parts.drop 4)⟩

def convLatLon (v : String) : Except PyErr F :=
  if v = "" then .ok floatZero
  else match PyFloat.ofString? (F := F) v with
    | none => .ok floatZero
    | some x => do
        let deg ← intOfFloat (PyFloat.floorDiv x (PyFloat.ofInt 100))
        let mins := PyFloat.sub x (← floatOfInt (deg * 100))
        return PyFloat.add (← floatOfInt deg)
          (PyFloat.div mins (PyFloat.ofInt 60))

def parseLatLon (latStr ns lonStr ew : String) : Except PyErr (F × F) := do
  let lat ← convLatLon latStr
  let lon ← convLatLon lonStr
  return (if upper ns = "S" then PyFloat.neg (PyFloat.abs lat) else lat,
    if upper ew = "W" then PyFloat.neg (PyFloat.abs lon) else lon)

def floatOrZero (s : String) : F :=
  if s = "" then floatZero else (PyFloat.ofString? s).getD floatZero

def parseRmc (line : String) : Option (Rmc F) :=
  (sentenceParts? line 12).map fun parts =>
    let part (i : ℕ) : String := parts.getD i ""
    let position : F × F :=
      match parseLatLon (part 3) (part 4) (part 5) (part 6) with
      | .ok position => position
      | .error _ => (floatZero, floatZero)
    { status := part 2
      lat := position.1
      lon := position.2
      spd := floatOrZero (part 7)
      crs := floatOrZero (part 8)
      date := part 9 }

def parseVtg (line : String) : Option (Vtg F) :=
  (sentenceParts? line 9).map fun parts =>
    { crs := floatOrZero (parts.getD 1 "")
      spdKmh := floatOrZero (parts.getD 7 "") }

end Parsers

def parseZda (line : String) : Option Zda :=
  (sentenceParts? line 5).bind fun parts =>
    let part (i : ℕ) : String := parts.getD i ""
    (intOrZero? (part 2)).bind fun day =>
      (intOrZero? (part 3)).bind fun month =>
        (intOrZero? (part 4)).map fun year => ⟨part 1, day, month, year⟩

end BabilCors
