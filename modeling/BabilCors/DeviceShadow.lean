import BabilCors.MergedWrites
import BabilCors.PyValue
import BabilCors.TransitionRuns

/-!
# The device shadow

`upsert` merges a payload into the document of a device.  In memory it runs in
one piece; over Redis it reads, merges and writes back, and other calls get in
between.
-/

namespace BabilCors

open Py TransitionRuns

variable {F : Type}

/-! ## The store -/

abbrev Document (F : Type) := PyDict String (Json F)

/-- A position in the history of a device, under its time in milliseconds. -/
structure HistoryRow (F : Type) where
  tsUnixMs : ℤ
  lat : Json F
  lon : Json F
  shadow : Document F

/-- The strings by what `json.loads` makes of them (`none` where it raises),
the keys that are to be deleted after some seconds, and the streams, whose
entries have the ids `{ts}-0`. -/
structure RedisDb (F : Type) where
  texts : PyDict String (Option (Json F))
  ttls : PyDict String ℤ
  streams : PyDict String (List (HistoryRow F))

structure DeviceShadowStore (F : Type) where
  url : String
  ttlS : ℤ
  r : Option (RedisDb F)
  mem : PyDict String (Document F)
  memHist : PyDict String (List (HistoryRow F))

/-- A call of `upsert`, at the time it has taken. -/
structure UpsertCall (F : Type) where
  deviceId : String
  payload : Document F
  tsMs : ℤ

def histMaxlen : ℕ := 10000

namespace UpsertCall

/-- `cur.update(payload)` and the time of the call. -/
def merged (call : UpsertCall F) (cur : Document F) : Document F :=
  (cur.update call.payload).set "updated_unix_ms" (.int call.tsMs)

def hasPosition (call : UpsertCall F) : Bool :=
  call.payload.has "lat" && call.payload.has "lon"

def row (call : UpsertCall F) (cur : Document F) : HistoryRow F where
  tsUnixMs := call.tsMs
  lat := (call.payload.get? "lat").getD .null
  lon := (call.payload.get? "lon").getD .null
  shadow := cur

end UpsertCall

/-- `-` in an id is the separator, and each half has 64 bits. -/
def ValidStreamId (ms : ℤ) : Prop :=
  0 ≤ ms ∧ ms < 2 ^ 64

instance (ms : ℤ) : Decidable (ValidStreamId ms) :=
  inferInstanceAs (Decidable (_ ∧ _))

namespace RedisDb

def textKey (deviceId : String) : String :=
  "shadow:" ++ deviceId

def streamKey (deviceId : String) : String :=
  "shadowhist:" ++ deviceId

def stream (r : RedisDb F) (deviceId : String) : List (HistoryRow F) :=
  (r.streams.get? (streamKey deviceId)).getD []

/-- The document that a call finds: nothing where there is no text or one that
does not load, and an exception where it loads as something else. -/
def current (r : RedisDb F) (deviceId : String) :
    Except PyErr (Document F) :=
  match (r.texts.get? (textKey deviceId)).join with
  | none => .ok []
  | some (.obj d) => .ok d
  | some j => .error (.attributeError j.typeName "update")

/-- SET, which takes a pending expiry away. -/
def setDocument (r : RedisDb F) (deviceId : String) (d : Document F) :
    RedisDb F :=
  { r with
    texts := r.texts.set (textKey deviceId) (some (.obj d))
    ttls := r.ttls.erase (textKey deviceId) }

/-- The deletion of a key and of its pending expiry. -/
def delete (r : RedisDb F) (deviceId : String) : RedisDb F :=
  { r with
    texts := r.texts.erase (textKey deviceId)
    ttls := r.ttls.erase (textKey deviceId) }

/-- EXPIRE deletes at once when the time is not positive. -/
def expire (r : RedisDb F) (deviceId : String) (ttlS : ℤ) : RedisDb F :=
  if 0 < ttlS then { r with ttls := r.ttls.set (textKey deviceId) ttlS }
  else r.delete deviceId

/-- The expiry of a document, some time after its EXPIRE. -/
def timeout (r : RedisDb F) (deviceId : String) : Option (RedisDb F) :=
  (r.ttls.get? (textKey deviceId)).map fun _ => r.delete deviceId

/-- XADD with an explicit id: `none` is the answer to an id that is not valid,
not above `0-0` or not above the last one. -/
def xadd (r : RedisDb F) (deviceId : String) (row : HistoryRow F) :
    Option (RedisDb F) :=
  if ValidStreamId row.tsUnixMs ∧ 0 < row.tsUnixMs ∧
      ∀ last ∈ (r.stream deviceId).getLast?,
        last.tsUnixMs < row.tsUnixMs then
    some { r with
      streams := r.streams.set (streamKey deviceId)
        (r.stream deviceId ++ [row]) }
  else
    none

def xtrim (r : RedisDb F) (deviceId : String) : RedisDb F :=
  { r with
    streams := r.streams.set (streamKey deviceId)
      ((r.stream deviceId).drop
        ((r.stream deviceId).length - histMaxlen)) }

end RedisDb

namespace DeviceShadowStore

/-- `upsert` of the store in memory, which has no suspension point. -/
def memoryUpsert (store : DeviceShadowStore F) (call : UpsertCall F) :
    DeviceShadowStore F :=
  let cur := call.merged ((store.mem.get? call.deviceId).getD [])
  let h := (store.memHist.get? call.deviceId).getD [] ++ [call.row cur]
  { store with
    mem := store.mem.set call.deviceId cur
    memHist :=
      if call.hasPosition then
        store.memHist.set call.deviceId (h.drop (h.length - histMaxlen))
      else store.memHist }

/-- The document of the device, as the next call would find it. -/
def document (store : DeviceShadowStore F) (deviceId : String) :
    Except PyErr (Document F) :=
  if store.url = "memory" then .ok ((store.mem.get? deviceId).getD [])
  else store.r.elim (.ok []) fun r => r.current deviceId

/-- One of the two stores that keep something; there is no connection for the
one in memory. -/
inductive Working (store : DeviceShadowStore F) : Prop
  | memory (hurl : store.url = "memory") (hr : store.r = none)
  | redis (hurl : store.url ≠ "memory") (r : RedisDb F)
      (hr : store.r = some r)

end DeviceShadowStore

/-! ## Calls in flight -/

/-- Where a call is suspended: before its first step, before SET with the
document that GET has found, before EXPIRE, before XADD and before XTRIM. -/
inductive UpsertPhase (F : Type) where
  | started
  | holding (cur : Document F)
  | stored (cur : Document F)
  | expiring (cur : Document F)
  | added
  | returned
  | raised

structure UpsertTask (F : Type) where
  call : UpsertCall F
  phase : UpsertPhase F

/-- What a call does up to its next suspension point; `none` when it is
over. -/
def UpsertTask.advance (store : DeviceShadowStore F) (t : UpsertTask F) :
    Option (DeviceShadowStore F × UpsertPhase F) :=
  match t.phase with
  | .started =>
      if store.url = "memory" then
        some (store.memoryUpsert t.call, .returned)
      else
        match store.r with
        | none => some (store, .returned)
        | some r =>
            match r.current t.call.deviceId with
            | .ok cur => some (store, .holding cur)
            | .error _ => some (store, .raised)
  | .holding cur =>
      store.r.map fun r =>
        ({ store with
            r := some (r.setDocument t.call.deviceId (t.call.merged cur)) },
          .stored (t.call.merged cur))
  | .stored cur =>
      store.r.map fun r =>
        ({ store with r := some (r.expire t.call.deviceId store.ttlS) },
          .expiring cur)
  | .expiring cur =>
      store.r.map fun r =>
        if t.call.hasPosition then
          match r.xadd t.call.deviceId (t.call.row cur) with
          | some r => ({ store with r := some r }, .added)
          | none => (store, .returned)
        else (store, .returned)
  | .added =>
      store.r.map fun r =>
        ({ store with r := some (r.xtrim t.call.deviceId) }, .returned)
  | .returned | .raised => none

structure ShadowState (F : Type) where
  store : DeviceShadowStore F
  tasks : List (UpsertTask F)

inductive ShadowEvent (F : Type) where
  | call (call : UpsertCall F)
  | advance (i : ℕ)
  /-- Redis deletes the document of a device whose time has run out. -/
  | expires (deviceId : String)

namespace ShadowState

def step (s : ShadowState F) : ShadowEvent F → Option (ShadowState F)
  | .call call => some { s with tasks := s.tasks ++ [⟨call, .started⟩] }
  | .advance i =>
      s.tasks[i]?.bind fun t =>
        (t.advance s.store).map fun next =>
          ⟨next.1, s.tasks.set i ⟨t.call, next.2⟩⟩
  | .expires deviceId =>
      s.store.r.bind fun r =>
        (r.timeout deviceId).map fun r =>
          { s with store := { s.store with r := some r } }

end ShadowState

/-! ## What a step does to the documents -/

theorem RedisDb.textKey_injective : Function.Injective textKey := by
  intro d d' h
  exact (String.append_right_inj "shadow:").mp h

theorem RedisDb.current_setDocument (r : RedisDb F) (device other : String)
    (d : Document F) :
    (r.setDocument device d).current other =
      if device = other then .ok d else r.current other := by
  unfold current setDocument
  rw [PyDict.get?_set]
  by_cases hdevice : device = other
  · rw [if_pos (congrArg textKey hdevice), if_pos hdevice]
    rfl
  · rw [if_neg (fun h => hdevice (textKey_injective h)), if_neg hdevice]

theorem RedisDb.current_delete_of_ne (r : RedisDb F)
    {device other : String} (hne : device ≠ other) :
    (r.delete device).current other = r.current other := by
  unfold current delete
  rw [PyDict.get?_erase_of_ne _ fun h => hne (textKey_injective h)]

theorem RedisDb.current_expire_of_pos (r : RedisDb F) (device : String)
    {ttlS : ℤ} (hpos : 0 < ttlS) (other : String) :
    (r.expire device ttlS).current other = r.current other := by
  rw [expire, if_pos hpos]
  rfl

theorem RedisDb.current_xadd {r r' : RedisDb F} {device : String}
    {row : HistoryRow F} (hadd : r.xadd device row = some r')
    (other : String) : r'.current other = r.current other := by
  unfold xadd at hadd
  split_ifs at hadd
  obtain rfl := Option.some.inj hadd
  rfl

namespace DeviceShadowStore

theorem document_of_redis {store : DeviceShadowStore F} {r : RedisDb F}
    (hurl : store.url ≠ "memory") (hr : store.r = some r) (device : String) :
    store.document device = r.current device := by
  rw [document, if_neg hurl, hr]
  rfl

theorem document_withDb {store : DeviceShadowStore F}
    (hurl : store.url ≠ "memory") (r : RedisDb F) (device : String) :
    ({ store with r := some r } : DeviceShadowStore F).document device =
      r.current device :=
  @document_of_redis F { store with r := some r } r hurl rfl device

theorem document_memoryUpsert {store : DeviceShadowStore F}
    (hurl : store.url = "memory") (call : UpsertCall F) (device : String) :
    (store.memoryUpsert call).document device =
      if call.deviceId = device then
        .ok (call.merged ((store.mem.get? call.deviceId).getD []))
      else store.document device := by
  have hurl' : (store.memoryUpsert call).url = "memory" := hurl
  unfold document
  rw [if_pos hurl, if_pos hurl']
  change Except.ok (((store.mem.set call.deviceId _).get? device).getD []) = _
  rw [PyDict.get?_set]
  split_ifs <;> rfl

end DeviceShadowStore

/-- The SET of the call has been executed. -/
def UpsertPhase.hasSet : UpsertPhase F → Bool
  | .stored _ | .expiring _ | .added | .returned => true
  | .started | .holding _ | .raised => false

/-- The document that the next write of the call is computed from. -/
def UpsertTask.Holds (store : DeviceShadowStore F) (t : UpsertTask F)
    (cur : Document F) : Prop :=
  t.phase = .holding cur ∨
    t.phase = .started ∧ store.document t.call.deviceId = .ok cur

/-- A step of a call writes the document of its device, or leaves all
documents as they are. -/
inductive DocumentEffect (store : DeviceShadowStore F) (t : UpsertTask F)
    (store' : DeviceShadowStore F) (phase' : UpsertPhase F) : Prop
  | writes (cur : Document F) (hcur : t.Holds store cur)
      (hbefore : t.phase.hasSet = false) (hafter : phase'.hasSet = true)
      (hdoc : ∀ device, store'.document device =
        if t.call.deviceId = device then .ok (t.call.merged cur)
        else store.document device)
  | keeps (hset : phase'.hasSet = t.phase.hasSet)
      (hdoc : ∀ device, store'.document device = store.document device)

theorem UpsertTask.advance_memory {store store' : DeviceShadowStore F}
    {t : UpsertTask F} {phase' : UpsertPhase F}
    (hurl : store.url = "memory") (hr : store.r = none)
    (hadvance : t.advance store = some (store', phase')) :
    store'.Working ∧ DocumentEffect store t store' phase' := by
  rcases t with ⟨call, phase⟩
  cases phase with
  | started =>
      simp only [advance, if_pos hurl] at hadvance
      obtain ⟨rfl, rfl⟩ := Prod.mk.inj (Option.some.inj hadvance)
      refine ⟨.memory hurl hr, .writes _ (.inr ⟨rfl, ?_⟩) rfl rfl
        (store.document_memoryUpsert hurl call)⟩
      exact if_pos hurl
  | _ => simp [advance, hr] at hadvance

theorem UpsertTask.advance_redis {store store' : DeviceShadowStore F}
    {r : RedisDb F} {t : UpsertTask F} {phase' : UpsertPhase F}
    (hurl : store.url ≠ "memory") (hr : store.r = some r)
    (hexpire : ∀ cur, t.phase = .stored cur → 0 < store.ttlS)
    (hadvance : t.advance store = some (store', phase')) :
    store'.Working ∧ DocumentEffect store t store' phase' := by
  rcases t with ⟨call, phase⟩
  have hsame {phase' : UpsertPhase F}
      (hset : phase'.hasSet = phase.hasSet) :
      store.Working ∧ DocumentEffect store ⟨call, phase⟩ store phase' :=
    ⟨.redis hurl r hr, .keeps hset fun _ => rfl⟩
  have hkept {r' : RedisDb F} {phase' : UpsertPhase F}
      (hset : phase'.hasSet = phase.hasSet)
      (hcurrent : ∀ device, r'.current device = r.current device) :
      ({ store with r := some r' } : DeviceShadowStore F).Working ∧
        DocumentEffect store ⟨call, phase⟩ { store with r := some r' }
          phase' := by
    refine ⟨.redis hurl r' rfl, .keeps hset fun device => ?_⟩
    rw [DeviceShadowStore.document_withDb hurl,
      DeviceShadowStore.document_of_redis hurl hr, hcurrent]
  cases phase with
  | started =>
      simp only [advance, if_neg hurl, hr] at hadvance
      cases hcur : r.current call.deviceId with
      | error e =>
          rw [hcur] at hadvance
          obtain ⟨rfl, rfl⟩ := Prod.mk.inj (Option.some.inj hadvance)
          exact hsame rfl
      | ok cur =>
          rw [hcur] at hadvance
          obtain ⟨rfl, rfl⟩ := Prod.mk.inj (Option.some.inj hadvance)
          exact hsame rfl
  | holding cur =>
      simp only [advance, hr, Option.map_some] at hadvance
      obtain ⟨rfl, rfl⟩ := Prod.mk.inj (Option.some.inj hadvance)
      refine ⟨.redis hurl _ rfl, .writes cur (.inl rfl) rfl rfl ?_⟩
      intro device
      rw [DeviceShadowStore.document_withDb hurl,
        DeviceShadowStore.document_of_redis hurl hr,
        RedisDb.current_setDocument]
  | stored cur =>
      simp only [advance, hr, Option.map_some] at hadvance
      obtain ⟨rfl, rfl⟩ := Prod.mk.inj (Option.some.inj hadvance)
      exact hkept rfl (r.current_expire_of_pos call.deviceId
        (hexpire cur rfl))
  | expiring cur =>
      simp only [advance, hr, Option.map_some] at hadvance
      split_ifs at hadvance
      · cases hadd : r.xadd call.deviceId (call.row cur) with
        | none =>
            rw [hadd] at hadvance
            obtain ⟨rfl, rfl⟩ := Prod.mk.inj (Option.some.inj hadvance)
            exact hsame rfl
        | some r' =>
            rw [hadd] at hadvance
            obtain ⟨rfl, rfl⟩ := Prod.mk.inj (Option.some.inj hadvance)
            exact hkept rfl (RedisDb.current_xadd hadd)
      · obtain ⟨rfl, rfl⟩ := Prod.mk.inj (Option.some.inj hadvance)
        exact hsame rfl
  | added =>
      simp only [advance, hr, Option.map_some] at hadvance
      obtain ⟨rfl, rfl⟩ := Prod.mk.inj (Option.some.inj hadvance)
      exact hkept rfl fun _ => rfl
  | returned => cases hadvance
  | raised => cases hadvance

theorem UpsertTask.advance_effect {store store' : DeviceShadowStore F}
    {t : UpsertTask F} {phase' : UpsertPhase F} (hworking : store.Working)
    (hexpire : ∀ cur, t.phase = .stored cur → 0 < store.ttlS)
    (hadvance : t.advance store = some (store', phase')) :
    store'.Working ∧ DocumentEffect store t store' phase' := by
  cases hworking with
  | memory hurl hr => exact t.advance_memory hurl hr hadvance
  | redis hurl r hr => exact t.advance_redis hurl hr hexpire hadvance

/-! ## Serial documents -/

/-- The fields apart from the time of the last update. -/
def IsUpdateTime (key : String) : Prop :=
  key = "updated_unix_ms"

def SameFields (d d' : Document F) : Prop :=
  PyDict.AgreeOff IsUpdateTime d d'

/-- The documents agree on the fields that the payload leaves alone. -/
def AgreeBeside (payload d d' : Document F) : Prop :=
  PyDict.AgreeOff (fun key => IsUpdateTime key ∨ key ∈ payload.keys) d d'

theorem UpsertCall.merged_sameFields (call : UpsertCall F)
    (cur : Document F) :
    SameFields (call.merged cur) (cur.update call.payload) := by
  have htime : IsUpdateTime "updated_unix_ms" := rfl
  exact .set htime _ _

/-- A document computed from an old copy is the current one with the payload
merged in, exactly if the two agree on the fields that the payload leaves
alone. -/
theorem UpsertCall.merged_sameFields_iff (call : UpsertCall F)
    (cur d : Document F) :
    SameFields (call.merged cur) (d.update call.payload) ↔
      AgreeBeside call.payload cur d := by
  have hmerged := call.merged_sameFields cur
  constructor
  · intro hsame
    exact PyDict.agreeOff_update_iff.mp (hmerged.symm.trans hsame)
  · intro hagree
    exact hmerged.trans (PyDict.agreeOff_update_iff.mpr hagree)

namespace ShadowState

/-- The payloads of the calls for a device that have done their SET. -/
def written (s : ShadowState F) (device : String) : List (Document F) :=
  (s.tasks.filter fun t =>
    t.call.deviceId = device && t.phase.hasSet).map (·.call.payload)

def payloads (s : ShadowState F) (device : String) : List (Document F) :=
  (s.tasks.filter fun t => t.call.deviceId = device).map (·.call.payload)

/-- The document of the device is the original one, merged with the payloads
written so far in some order. -/
def Serial (s : ShadowState F) (device : String) (original : Document F) :
    Prop :=
  ∃ (d : Document F) (order : List (Document F)),
    s.store.document device = .ok d ∧ order.Perm (s.written device) ∧
      SameFields d (order.foldl PyDict.update original)

/-- What a SET overwrites agrees with what its GET has found, on the fields
that the payload leaves alone; EXPIRE is given a positive time; and the
document of the device does not expire. -/
def Undisturbed (device : String) (s : ShadowState F) :
    ShadowEvent F → Prop
  | .call _ => True
  | .expires deviceId => s.store.r.isSome → deviceId ≠ device
  | .advance i => ∀ t ∈ s.tasks[i]?,
      match t.phase with
      | .holding cur => ∀ d, s.store.document t.call.deviceId = .ok d →
          AgreeBeside t.call.payload cur d
      | .stored _ => 0 < s.store.ttlS
      | _ => True

theorem written_of_finished {s : ShadowState F} {device : String}
    (hfinished : ∀ t ∈ s.tasks, t.call.deviceId = device →
      t.phase.hasSet = true) :
    s.written device = s.payloads device := by
  unfold written payloads
  congr 1
  apply List.filter_congr
  intro t ht
  by_cases hdevice : t.call.deviceId = device
  · simp [hdevice, hfinished t ht hdevice]
  · simp [hdevice]

theorem tasks_split {tasks : List (UpsertTask F)} {i : ℕ} {t : UpsertTask F}
    (ht : tasks[i]? = some t) (t' : UpsertTask F) :
    ∃ before after, tasks = before ++ t :: after ∧
      tasks.set i t' = before ++ t' :: after := by
  rcases List.getElem?_eq_some_iff.mp ht with ⟨hi, rfl⟩
  refine ⟨tasks.take i, tasks.drop (i + 1), ?_, ?_⟩
  · rw [List.cons_getElem_drop_succ, List.take_append_drop]
  · exact List.set_eq_take_append_cons_drop.trans (if_pos hi)

section Written

variable {s : ShadowState F} {i : ℕ} {t : UpsertTask F}
  {store' : DeviceShadowStore F} {phase' : UpsertPhase F} {device : String}

theorem written_of_write (ht : s.tasks[i]? = some t)
    (hdevice : t.call.deviceId = device) (hbefore : t.phase.hasSet = false)
    (hafter : phase'.hasSet = true) :
    (written ⟨store', s.tasks.set i ⟨t.call, phase'⟩⟩ device).Perm
      (s.written device ++ [t.call.payload]) := by
  rcases tasks_split ht ⟨t.call, phase'⟩ with ⟨before, after, htasks, hset⟩
  unfold written
  rw [hset, htasks]
  simp only [List.filter_append, List.filter_cons, hdevice, hbefore, hafter,
    decide_true, Bool.and_true, Bool.and_false, Bool.false_eq_true, if_true,
    if_false, List.map_append, List.map_cons]
  exact List.perm_middle.trans (List.perm_append_singleton _ _).symm

theorem written_of_keep (ht : s.tasks[i]? = some t)
    (hkeep : t.call.deviceId = device → phase'.hasSet = t.phase.hasSet) :
    written ⟨store', s.tasks.set i ⟨t.call, phase'⟩⟩ device =
      s.written device := by
  rcases tasks_split ht ⟨t.call, phase'⟩ with ⟨before, after, htasks, hset⟩
  have hsame : (decide (t.call.deviceId = device) && phase'.hasSet) =
      (decide (t.call.deviceId = device) && t.phase.hasSet) := by
    by_cases hdevice : t.call.deviceId = device
    · rw [hkeep hdevice]
    · simp [hdevice]
  unfold written
  rw [hset, htasks]
  simp only [List.filter_append, List.filter_cons, hsame, List.map_append]
  split_ifs <;> rfl

end Written

/-- A document of a working store that is the serial one so far stays it. -/
theorem step_serial {s s' : ShadowState F} {event : ShadowEvent F}
    {device : String} {original : Document F}
    (hserial : s.store.Working ∧ s.Serial device original)
    (hmeets : s.Undisturbed device event) (hstep : s.step event = some s') :
    s'.store.Working ∧ s'.Serial device original := by
  rcases hserial with ⟨hworking, d, order, hd, horder, hsame⟩
  cases event with
  | call call =>
      obtain rfl := Option.some.inj hstep
      refine ⟨hworking, d, order, hd, ?_, hsame⟩
      have hwritten : written { s with
          tasks := s.tasks ++ [⟨call, .started⟩] } device =
            s.written device := by
        simp [written, UpsertPhase.hasSet]
      rwa [hwritten]
  | expires deviceId =>
      rcases Option.bind_eq_some_iff.mp hstep with ⟨r, hr, hnext⟩
      rcases Option.map_eq_some_iff.mp hnext with ⟨r', htimeout, rfl⟩
      rcases Option.map_eq_some_iff.mp htimeout with ⟨_, _, rfl⟩
      have hne : deviceId ≠ device := by
        apply hmeets
        rw [hr]
        rfl
      cases hworking with
      | memory _ hnone =>
          rw [hnone] at hr
          cases hr
      | redis hurl r' hr' =>
          refine ⟨.redis hurl _ rfl, d, order, ?_, horder, hsame⟩
          rw [DeviceShadowStore.document_withDb hurl,
            r.current_delete_of_ne hne,
            ← DeviceShadowStore.document_of_redis hurl hr, hd]
  | advance i =>
      rcases Option.bind_eq_some_iff.mp hstep with ⟨t, ht, hnext⟩
      rcases Option.map_eq_some_iff.mp hnext with
        ⟨⟨store', phase'⟩, hadvance, rfl⟩
      have hmeet := hmeets t ht
      have hexpire (cur) (hphase : t.phase = .stored cur) :
          0 < s.store.ttlS := by
        rwa [hphase] at hmeet
      rcases t.advance_effect hworking hexpire hadvance with
        ⟨hworking', heffect⟩
      refine ⟨hworking', ?_⟩
      cases heffect with
      | keeps hset hdoc =>
          refine ⟨d, order, (hdoc device).trans hd, ?_, hsame⟩
          rwa [written_of_keep ht fun _ => hset]
      | writes cur hcur hbefore hafter hdoc =>
          by_cases hdevice : t.call.deviceId = device
          · have hagree : AgreeBeside t.call.payload cur d := by
              rcases hcur with hphase | ⟨_, hcur⟩
              · rw [hphase] at hmeet
                exact hmeet d (hdevice ▸ hd)
              · rw [hdevice, hd] at hcur
                obtain rfl := Except.ok.inj hcur
                exact .refl d
            refine ⟨t.call.merged cur, order ++ [t.call.payload], ?_, ?_, ?_⟩
            · rw [hdoc, if_pos hdevice]
            · exact (horder.append_right _).trans
                (written_of_write ht hdevice hbefore hafter).symm
            · rw [List.foldl_append]
              exact ((t.call.merged_sameFields_iff cur d).mpr hagree).trans
                (hsame.update t.call.payload)
          · refine ⟨d, order, ?_, ?_, hsame⟩
            · rw [hdoc, if_neg hdevice, hd]
            · rwa [written_of_keep ht fun h => (hdevice h).elim]

/-- A store in memory, with no call between its read and its write. -/
structure AllInMemory (s : ShadowState F) : Prop where
  url : s.store.url = "memory"
  r : s.store.r = none
  phase : ∀ t ∈ s.tasks, t.phase = .started ∨ t.phase = .returned

theorem AllInMemory.step {s s' : ShadowState F} {event : ShadowEvent F}
    (hmemory : s.AllInMemory) (hstep : s.step event = some s') :
    s'.AllInMemory := by
  rcases hmemory with ⟨hurl, hr, hphase⟩
  cases event with
  | call call =>
      obtain rfl := Option.some.inj hstep
      refine ⟨hurl, hr, ?_⟩
      intro t ht
      rcases List.mem_append.mp ht with hold | hnew
      · exact hphase t hold
      · obtain rfl := List.mem_singleton.mp hnew
        exact .inl rfl
  | advance i =>
      rcases Option.bind_eq_some_iff.mp hstep with ⟨⟨call, phase⟩, ht, hnext⟩
      rcases Option.map_eq_some_iff.mp hnext with
        ⟨⟨store', phase'⟩, hadvance, rfl⟩
      rcases hphase _ (List.mem_of_getElem? ht) with rfl | rfl
      · simp only [UpsertTask.advance, if_pos hurl] at hadvance
        obtain ⟨rfl, rfl⟩ := Prod.mk.inj (Option.some.inj hadvance)
        refine ⟨hurl, hr, ?_⟩
        intro t ht'
        rcases List.mem_or_eq_of_mem_set ht' with hold | rfl
        · exact hphase t hold
        · exact .inr rfl
      · cases hadvance
  | expires deviceId =>
      rw [ShadowState.step, hr] at hstep
      cases hstep

theorem AllInMemory.undisturbed {s : ShadowState F}
    (hmemory : s.AllInMemory) (device : String) (event : ShadowEvent F) :
    s.Undisturbed device event := by
  cases event with
  | call call => trivial
  | expires deviceId =>
      intro hsome
      rw [hmemory.r] at hsome
      cases hsome
  | advance i =>
      rintro ⟨call, phase⟩ ht
      rcases hmemory.phase _ (List.mem_of_getElem? ht) with rfl | rfl
      · trivial
      · trivial

/-- The store in memory and the one over Redis, with the calls of a run.  In
memory, and over Redis as long as no SET overwrites a field that its GET has
not seen and the document does not expire, the document is always the original
one merged with the payloads in some serial order. -/
theorem run_serial {s s' : ShadowState F} {events : List (ShadowEvent F)}
    {device : String} {original : Document F}
    (hworking : s.store.Working) (hidle : s.tasks = [])
    (horiginal : s.store.document device = .ok original)
    (hmeet : s.store.url = "memory" ∨
      StepsMeet step (Undisturbed device) s events)
    (hrun : run step s events = some s') :
    s'.Serial device original ∧
      ((∀ t ∈ s'.tasks, t.call.deviceId = device → t.phase.hasSet = true) →
        s'.written device = s'.payloads device) := by
  refine ⟨?_, written_of_finished⟩
  have hundisturbed : StepsMeet step (Undisturbed device) s events := by
    rcases hmeet with hurl | hmeet
    · cases hworking with
      | memory _ hr =>
          have hstart : s.AllInMemory := ⟨hurl, hr, by simp [hidle]⟩
          have hany : StepsMeet step (fun _ _ => True) s events :=
            .of_forall fun _ _ _ => trivial
          exact hany.of_invariant
            (fun _ _ _ hmemory _ hstep => AllInMemory.step hmemory hstep)
            (fun _ event hmemory _ =>
              AllInMemory.undisturbed hmemory device event)
            hstart
      | redis hurl' => exact (hurl' hurl).elim
    · exact hmeet
  have hstart : s.Serial device original := by
    refine ⟨original, [], horiginal, ?_, .refl original⟩
    simp [written, hidle]
  exact (StepsMeet.run_preserves
    (P := fun s => s.store.Working ∧ s.Serial device original)
    (fun _ _ _ hserial hmeets hstep => step_serial hserial hmeets hstep)
    ⟨hworking, hstart⟩ hundisturbed hrun).2

/-- A position and a number of satellites of one device. -/
def positionCall : UpsertCall ℚ :=
  ⟨"u", [("lat", .int 37), ("lon", .int 32)], 1000⟩

def satelliteCall : UpsertCall ℚ :=
  ⟨"u", [("total_sv", .int 18)], 1001⟩

/-- An empty Redis store without calls. -/
def emptyRedis : ShadowState ℚ :=
  ⟨⟨"redis://localhost", 86400, some ⟨[], [], []⟩, [], []⟩, []⟩

def oneAfterTheOther : List (ShadowEvent ℚ) :=
  [.call positionCall, .call satelliteCall, .advance 0, .advance 0,
    .advance 1, .advance 1]

theorem run_serial_sequential :
    (((run step emptyRedis oneAfterTheOther).map fun s =>
        s.payloads "u") = some [positionCall.payload, satelliteCall.payload]) ∧
      ∀ s', run step emptyRedis oneAfterTheOther = some s' →
        s'.Serial "u" [] := by
  refine ⟨rfl, ?_⟩
  intro s' hs'
  refine (run_serial (.redis (by decide) _ rfl) rfl rfl (.inr ?_) hs').1
  have hread {t : UpsertTask ℚ} {s : ShadowState ℚ} {cur : Document ℚ}
      (hcur : s.store.document t.call.deviceId = .ok cur) (d : Document ℚ)
      (hd : s.store.document t.call.deviceId = .ok d) :
      AgreeBeside t.call.payload cur d := by
    rw [hcur] at hd
    obtain rfl := Except.ok.inj hd
    exact .refl cur
  refine ⟨trivial, ?_⟩
  rintro _ ⟨⟩
  refine ⟨trivial, ?_⟩
  rintro _ ⟨⟩
  refine ⟨?_, ?_⟩
  · rintro t ⟨⟩
    trivial
  rintro _ ⟨⟩
  refine ⟨?_, ?_⟩
  · rintro t ⟨⟩
    exact hread rfl
  rintro _ ⟨⟩
  refine ⟨?_, ?_⟩
  · rintro t ⟨⟩
    trivial
  rintro _ ⟨⟩
  refine ⟨?_, fun _ _ => trivial⟩
  rintro t ⟨⟩
  exact hread rfl

/-- Both calls read before either of them writes. -/
def overlapping : List (ShadowEvent ℚ) :=
  [.call positionCall, .call satelliteCall, .advance 0, .advance 1,
    .advance 0, .advance 1]

theorem overlapping_loses_position :
    ¬ ∀ s', run step emptyRedis overlapping = some s' →
      s'.Serial "u" [] := by
  intro hserial
  rcases hserial _ rfl with ⟨d, order, hd, horder, hsame⟩
  obtain rfl := Except.ok.inj hd
  have hlat := hsame "lat" (by simp [IsUpdateTime])
  rcases List.perm_pair.mp horder with rfl | rfl
  · cases hlat
  · cases hlat

end ShadowState

end BabilCors
