import BabilCors.MergedWrites
import BabilCors.StationMessages
import BabilCors.DescriptorMessages
import BabilCors.ParserAccounting

/-!
# What a hub knows of its station

The messages of a station are merged into one dictionary, without their falsy
values.  An entry holds the last truthy value received under its key; so a
coordinate that is zero leaves the coordinate of an earlier message in place.
-/

namespace BabilCors
namespace Rtcm

open Py

variable {F : Type} [PyFloat F]

/-! ## The merge -/

def recordStationInfo (stationInfo info : PyDict String (Json F)) :
    PyDict String (Json F) :=
  if info.isEmpty then stationInfo
  else stationInfo.update (info.filter fun entry => entry.2.truthy)

/-- The decoder of a frame, by its type. -/
def stationMessage? (fr : RtcmFrame) : Option (PyDict String (Json F)) :=
  if fr.msgType = 1033 then parseRtcm1033 (payload fr.raw)
  else if fr.msgType = 1005 ∨ fr.msgType = 1006 then
    parseRtcm10051006 (payload fr.raw)
  else if fr.msgType = 1007 ∨ fr.msgType = 1008 then
    parseRtcm10071008 (payload fr.raw)
  else none

/-- The station info extraction of one frame. -/
def extractStationInfo (stationInfo : PyDict String (Json F))
    (fr : RtcmFrame) : PyDict String (Json F) :=
  match stationMessage? fr with
  | some info =>
      if info.isEmpty then stationInfo else recordStationInfo stationInfo info
  | none => stationInfo

/-- The dictionary of a hub after the frames of all its sources. -/
def stationInfo (frames : List RtcmFrame) : PyDict String (Json F) :=
  frames.foldl extractStationInfo []

/-! ## An entry is the last truthy value -/

def truthyAt (key : String) (info : PyDict String (Json F)) :
    Option (Json F) :=
  (info.get? key).filter Json.truthy

theorem get?_recordStationInfo (stationInfo : PyDict String (Json F))
    {info : PyDict String (Json F)} (hkeys : info.keys.Nodup) (key : String) :
    (recordStationInfo stationInfo info).get? key =
      (truthyAt key info).or (stationInfo.get? key) := by
  unfold recordStationInfo
  by_cases hempty : info.isEmpty
  · rw [if_pos hempty, List.isEmpty_iff.mp hempty]
    rfl
  · have hkept : (PyDict.keys (info.filter fun entry =>
        entry.2.truthy)).Nodup :=
      hkeys.sublist (List.filter_sublist.map Prod.fst)
    rw [if_neg hempty, PyDict.get?_update hkept,
      PyDict.get?_filter hkeys, truthyAt]

/-- Every decoder returns a dictionary of distinct keys. -/
theorem nodup_keys_stationMessage {fr : RtcmFrame}
    {info : PyDict String (Json F)} (hinfo : stationMessage? fr = some info) :
    info.keys.Nodup := by
  unfold stationMessage? at hinfo
  rw [parseRtcm1033_eq, parseRtcm10051006_eq, parseRtcm10071008_eq] at hinfo
  unfold withSerial Reference.info at hinfo
  split_ifs at hinfo <;> cases hinfo <;> simp [PyDict.keys]

theorem get?_extractStationInfo (stationInfo : PyDict String (Json F))
    (fr : RtcmFrame) (key : String) :
    (extractStationInfo stationInfo fr).get? key =
      ((stationMessage? fr).bind (truthyAt key)).or
        (stationInfo.get? key) := by
  unfold extractStationInfo
  cases hinfo : stationMessage? (F := F) fr with
  | none => rfl
  | some info =>
      have hrecord := get?_recordStationInfo stationInfo
        (nodup_keys_stationMessage hinfo) key
      dsimp only
      split_ifs with hempty
      · rw [List.isEmpty_iff.mp hempty]
        rfl
      · exact hrecord

theorem get?_stationInfo (frames : List RtcmFrame) (key : String) :
    (stationInfo (F := F) frames).get? key =
      (frames.filterMap fun fr =>
        (stationMessage? fr).bind (truthyAt key)).getLast? := by
  induction frames using List.reverseRecOn with
  | nil => rfl
  | append_singleton frames fr ih =>
      have hstep : stationInfo (F := F) (frames ++ [fr]) =
          extractStationInfo (stationInfo frames) fr :=
        List.foldl_concat ..
      rw [hstep, get?_extractStationInfo, ih, List.filterMap_append,
        List.getLast?_append]
      cases hvalue : (stationMessage? fr).bind (truthyAt (F := F) key) with
      | none => simp [hvalue]
      | some value => simp [hvalue]

/-! ## The position -/

def positionKeys : List String :=
  ["station_id", "ecef_x_m", "ecef_y_m", "ecef_z_m"]

/-- What the decoder of position messages finds in a frame. -/
def positionInfo? (fr : RtcmFrame) : Option (PyDict String (Json F)) :=
  if fr.msgType = 1005 ∨ fr.msgType = 1006 then
    parseRtcm10051006 (payload fr.raw)
  else none

/-- No other decoder writes under the keys of the position. -/
theorem stationMessage_position (fr : RtcmFrame) {key : String}
    (hkey : key ∈ positionKeys) :
    (stationMessage? fr).bind (truthyAt (F := F) key) =
      (positionInfo? fr).bind (truthyAt key) := by
  unfold stationMessage? positionInfo?
  by_cases hposition : fr.msgType = 1005 ∨ fr.msgType = 1006
  · have hother : fr.msgType ≠ 1033 := by omega
    rw [if_neg hother, if_pos hposition, if_pos hposition]
  rw [if_neg hposition, if_neg hposition, parseRtcm1033_eq,
    parseRtcm10071008_eq]
  unfold withSerial
  simp only [positionKeys, List.mem_cons, List.not_mem_nil, or_false] at hkey
  rcases hkey with rfl | rfl | rfl | rfl <;> split_ifs <;> rfl

theorem positionInfo_eq {fr : RtcmFrame} {info : PyDict String (Json F)}
    (hinfo : positionInfo? fr = some info) :
    info = (referenceOf (payload fr.raw)).info := by
  unfold positionInfo? at hinfo
  rw [parseRtcm10051006_eq] at hinfo
  split_ifs at hinfo
  exact (Option.some.inj hinfo).symm

/-- No value of a position message is falsy. -/
def Reference.Truthy (F : Type) [PyFloat F] (r : Reference) : Prop :=
  r.stationId ≠ 0 ∧ floatIsZero (metres r.x : F) = false ∧
    floatIsZero (metres r.y : F) = false ∧
    floatIsZero (metres r.z : F) = false

theorem get?_stationInfo_position (frames : List RtcmFrame) {key : String}
    (hkey : key ∈ positionKeys) :
    (stationInfo (F := F) frames).get? key =
      (frames.filterMap fun fr =>
        (positionInfo? fr).bind (truthyAt key)).getLast? := by
  rw [get?_stationInfo]
  congr 2
  exact funext fun fr => stationMessage_position fr hkey

/-- A statement about the four values of a position message. -/
theorem Reference.forall_values (r : Reference)
    (p : Option (Json F) → Prop) :
    (∀ key ∈ positionKeys, p (r.info.get? key)) ↔
      p (some (.int r.stationId)) ∧ p (some (.float (metres r.x))) ∧
        p (some (.float (metres r.y))) ∧ p (some (.float (metres r.z))) := by
  have hstation : (r.info (F := F)).get? "station_id" =
      some (.int r.stationId) := rfl
  have hx : r.info.get? "ecef_x_m" = some (.float (metres (F := F) r.x)) := rfl
  have hy : r.info.get? "ecef_y_m" = some (.float (metres (F := F) r.y)) := rfl
  have hz : r.info.get? "ecef_z_m" = some (.float (metres (F := F) r.z)) := rfl
  simp only [positionKeys, List.forall_mem_cons, List.not_mem_nil,
    IsEmpty.forall_iff, implies_true, and_true, hstation, hx, hy, hz]

theorem Reference.truthy_iff (r : Reference) :
    r.Truthy F ↔ ∀ key ∈ positionKeys, ∃ value,
      r.info.get? key = some value ∧ Json.truthy (F := F) value = true := by
  rw [r.forall_values fun entry =>
    ∃ value, entry = some value ∧ value.truthy = true]
  simp [Truthy, Json.truthy]

theorem truthy_of_get?_stationInfo {frames : List RtcmFrame} {key : String}
    {value : Json F} (hget : (stationInfo frames).get? key = some value) :
    value.truthy = true := by
  rw [get?_stationInfo] at hget
  obtain ⟨fr, -, hfr⟩ := List.mem_filterMap.mp (List.mem_of_getLast? hget)
  obtain ⟨info, -, hinfo⟩ := Option.bind_eq_some_iff.mp hfr
  exact (Option.filter_eq_some_iff.mp hinfo).2

/-- Once there is a position message, the position is the one of the last of
them exactly if none of its four values is falsy. -/
theorem position_current_iff (before after : List RtcmFrame)
    {fr : RtcmFrame} {info : PyDict String (Json F)}
    (hinfo : positionInfo? fr = some info)
    (hlast : ∀ later ∈ after, positionInfo? (F := F) later = none) :
    (∀ key ∈ positionKeys,
      (stationInfo (before ++ fr :: after)).get? key = info.get? key) ↔
      (referenceOf (payload fr.raw)).Truthy F := by
  have hvalue : ∀ key ∈ positionKeys,
      (stationInfo (before ++ fr :: after)).get? key =
        (truthyAt key info).or ((stationInfo before).get? key) := by
    intro key hkey
    have hnothing : after.filterMap (fun fr =>
        (positionInfo? fr).bind (truthyAt (F := F) key)) = [] := by
      apply List.filterMap_eq_nil_iff.mpr
      intro later hlater
      rw [hlast later hlater]
      rfl
    rw [get?_stationInfo_position _ hkey, get?_stationInfo_position _ hkey,
      List.filterMap_append, List.filterMap_cons, hinfo, hnothing]
    cases hnew : truthyAt key info with
    | none => simp [hnew]
    | some value => simp [hnew]
  rw [Reference.truthy_iff, ← positionInfo_eq hinfo]
  constructor
  · intro hheld
    have hpresent : ∀ key ∈ positionKeys, (info.get? key).isSome := by
      rw [positionInfo_eq hinfo]
      exact (Reference.forall_values _ fun entry => entry.isSome).mpr
        ⟨rfl, rfl, rfl, rfl⟩
    intro key hkey
    obtain ⟨value, hget⟩ := Option.isSome_iff_exists.mp (hpresent key hkey)
    exact ⟨value, hget,
      truthy_of_get?_stationInfo ((hheld key hkey).trans hget)⟩
  · intro htruthy key hkey
    obtain ⟨value, hget, hvalue'⟩ := htruthy key hkey
    rw [hvalue key hkey, truthyAt, hget, Option.filter_some, if_pos hvalue']
    rfl

theorem floatIsZero_metres (v : ℤ) :
    floatIsZero (metres v : ℚ) = true ↔ v = 0 := by
  have hzero : floatIsZero (metres v : ℚ) =
      decide ((metres v : ℚ) = (0 : ℤ)) := rfl
  rw [hzero, decide_eq_true_eq, metres_eq]
  simp

/-- Station 7 at (1 m, 2 m, 3 m). -/
def beforeMove : RtcmFrame :=
  ⟨1005, [0xD3, 0x00, 0x13, 0x3E, 0xD0, 0x07, 0x00, 0x00, 0x00, 0x00, 0x27,
    0x10, 0x00, 0x00, 0x00, 0x4E, 0x20, 0x00, 0x00, 0x00, 0x75, 0x30, 0xBB,
    0x18, 0x63]⟩

/-- Station 7 at (0 m, 4 m, 5 m). -/
def afterMove : RtcmFrame :=
  ⟨1005, [0xD3, 0x00, 0x13, 0x3E, 0xD0, 0x07, 0x00, 0x00, 0x00, 0x00, 0x00,
    0x00, 0x00, 0x00, 0x00, 0x9C, 0x40, 0x00, 0x00, 0x00, 0xC3, 0x50, 0x25,
    0x47, 0x10]⟩

theorem positionInfo_beforeMove : positionInfo? (F := F) beforeMove =
    some (Reference.info ⟨7, 10000, 20000, 30000, none⟩) := rfl

theorem positionInfo_afterMove : positionInfo? (F := F) afterMove =
    some (Reference.info ⟨7, 0, 40000, 50000, none⟩) := rfl

theorem position_current_movedBack :
    positionKeys.map
        (stationInfo (F := ℚ) [afterMove, beforeMove, ⟨1077, []⟩]).get? =
      positionKeys.map
        (Reference.info ⟨7, 10000, 20000, 30000, none⟩).get? := by
  apply List.map_congr_left
  refine (position_current_iff [afterMove] [⟨1077, []⟩]
    positionInfo_beforeMove ?_).mpr ⟨?_, ?_, ?_, ?_⟩
  · intro later hlater
    rw [List.mem_singleton.mp hlater]
    rfl
  · decide +kernel
  all_goals
    rw [← Bool.not_eq_true, floatIsZero_metres]
    decide +kernel

theorem truthyAt_metres {info : PyDict String (Json ℚ)} {key : String}
    {v : ℤ} (hget : info.get? key = some (.float (metres v))) :
    truthyAt key info =
      if v = 0 then none else some (.float (metres v)) := by
  have htruthy : Json.truthy (.float (metres v : ℚ)) = true ↔ v ≠ 0 := by
    rw [Json.truthy, Bool.not_eq_true', ← Bool.not_eq_true,
      floatIsZero_metres]
  rw [truthyAt, hget, Option.filter_some]
  simp only [htruthy, ite_not]

/-- The zero of the second message leaves the first one's coordinate. -/
theorem stale_coordinate :
    (feed [] (beforeMove.raw ++ afterMove.raw)).frames =
      [beforeMove, afterMove] ∧
    positionInfo? (F := ℚ) afterMove =
      some (Reference.info ⟨7, 0, 40000, 50000, none⟩) ∧
    (stationInfo (F := ℚ) [beforeMove, afterMove]).get? "ecef_x_m" =
      some (.float 1) ∧
    (stationInfo (F := ℚ) [beforeMove, afterMove]).get? "ecef_y_m" =
      some (.float 4) := by
  have hentry (key : String) (hkey : key ∈ positionKeys) :
      (stationInfo (F := ℚ) [beforeMove, afterMove]).get? key =
        (truthyAt key (Reference.info ⟨7, 0, 40000, 50000, none⟩)).or
          (truthyAt key
            (Reference.info ⟨7, 10000, 20000, 30000, none⟩)) := by
    rw [get?_stationInfo_position _ hkey, List.filterMap_cons,
      List.filterMap_cons, positionInfo_beforeMove, positionInfo_afterMove,
      Option.bind_some, Option.bind_some]
    cases truthyAt (F := ℚ) key
        (Reference.info ⟨7, 10000, 20000, 30000, none⟩) <;>
      cases truthyAt (F := ℚ) key
        (Reference.info ⟨7, 0, 40000, 50000, none⟩) <;> rfl
  refine ⟨by decide +kernel, positionInfo_afterMove, ?_, ?_⟩
  · rw [hentry _ (by decide), truthyAt_metres (v := 0) rfl,
      truthyAt_metres (v := 10000) rfl]
    simp [metres_eq]
  · rw [hentry _ (by decide), truthyAt_metres (v := 40000) rfl,
      truthyAt_metres (v := 20000) rfl]
    norm_num [metres_eq]

end Rtcm
end BabilCors
