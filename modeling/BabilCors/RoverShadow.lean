import BabilCors.MemoryHistory
import BabilCors.PositionReports

/-!
# What the shadow shows of the rovers

All read loops write into one shadow store, and the sessions of a user share a
document.  In memory an upsert runs in one piece.  So each field of a document
has the value of the last sentence with this field that any session of the
device has read.
-/

namespace BabilCors

open Py TransitionRuns

variable {F : Type} [PyFloat F]

/-! ## Reading the store -/

namespace DeviceShadowStore

/-- `get`; nothing is the same as an empty document. -/
def get (store : DeviceShadowStore F) (device : String) : Option (Json F) :=
  if store.url = "memory" then
    match (store.mem.get? device).getD [] with
    | [] => none
    | d => some (.obj d)
  else store.r.bind fun r => (r.texts.get? (RedisDb.textKey device)).join

/-- A field of the document that `get` answers with. -/
def field? (store : DeviceShadowStore F) (device key : String) :
    Option (Json F) :=
  (store.get device).bind fun
    | .obj d => PyDict.get? d key
    | _ => none

omit [PyFloat F] in
theorem Holds.field? {store : DeviceShadowStore F}
    {calls : List (UpsertCall F)} (h : store.Holds calls)
    (device key : String) :
    store.field? device key =
      (documentOf (ofDevice device calls)).get? key := by
  unfold DeviceShadowStore.field? get
  rw [if_pos h.url, h.mem]
  cases documentOf (ofDevice device calls) with
  | nil => rfl
  | cons entry d => rfl

end DeviceShadowStore

omit [PyFloat F] in
theorem DeviceShadowStore.Holds.upserts {store : DeviceShadowStore F}
    {made : List (UpsertCall F)} (h : store.Holds made)
    (calls : List (UpsertCall F)) :
    (calls.foldl DeviceShadowStore.upsert store).Holds (made ++ calls) := by
  induction calls generalizing store made with
  | nil => simpa using h
  | cons call calls ih => simpa using ih (h.upsert call)

omit [PyFloat F] in
/-- A field of the merge is that of the last payload that has it. -/
theorem get?_mergedPayloads {calls : List (UpsertCall F)}
    (hkeys : ∀ call ∈ calls, call.payload.keys.Nodup) (key : String) :
    (mergedPayloads calls).get? key =
      (calls.filterMap fun call => call.payload.get? key).getLast? := by
  induction calls using List.reverseRecOn with
  | nil => rfl
  | append_singleton calls call ih =>
      rcases List.forall_mem_append.mp hkeys with ⟨hbefore, hlast⟩
      rw [mergedPayloads_concat,
        PyDict.get?_update (hlast call (List.mem_singleton_self call)),
        ih hbefore, List.filterMap_append]
      cases hvalue : call.payload.get? key with
      | none => simp [hvalue]
      | some value => simp [hvalue]

/-! ## The fields of a sentence -/

def Sentence.fields : Sentence F → PyDict String (Json F)
  | .gga x =>
      [("lat", .float x.lat), ("lon", .float x.lon), ("fixq", .int x.fixQ),
        ("nsat", .int x.nsat), ("hdop", .float x.hdop)]
  | .gsa x =>
      [("fix_type", .int x.fixType), ("pdop", .float x.pdop),
        ("hdop", .float x.hdop), ("vdop", .float x.vdop),
        ("used", .int x.sats.length)]
  | _ => []

/-- The fields that say what a sentence does. -/
def sentenceKeys : List String :=
  ["lat", "lon", "fixq", "nsat", "hdop", "fix_type", "pdop", "vdop", "used"]

/-- The upsert that an effect makes. -/
def Effect.call? (tsMs : ℤ) : Effect F → Option (UpsertCall F)
  | .shadow device payload => some ⟨device, payload, tsMs⟩
  | .event _ => none

namespace FencedSession

/-- The sentence that a session reads. -/
def sentences (s : FencedSession F) (input : ReadInput F) :
    List (Sentence F) :=
  if s.takes input then [sentenceOf input.lineB] else []

def calls [PyMath F] (env : ReadEnv F) (s : FencedSession F)
    (input : ReadInput F) (tsMs : ℤ) : List (UpsertCall F) :=
  (s.effects env input).filterMap (Effect.call? tsMs)

end FencedSession

/-- An update with these fields, besides those that every update has. -/
structure ShadowsFields (env : ReadEnv F) (fields : PyDict String (Json F))
    (call : UpsertCall F) : Prop where
  device : call.deviceId = env.deviceId
  keys : call.payload.keys.Nodup
  fields : ∀ key ∈ sentenceKeys, call.payload.get? key = fields.get? key

section Line

variable [PyMath F] {env : ReadEnv F} {s : NmeaState F}

omit [PyFloat F] [PyMath F] in
theorem filterMap_call?_events {effects : List (Effect F)} (tsMs : ℤ)
    (hevents : ∀ effect ∈ effects, ∃ call, effect = .event call) :
    effects.filterMap (Effect.call? tsMs) = [] := by
  rw [List.filterMap_eq_nil_iff]
  intro effect heffect
  obtain ⟨call, rfl⟩ := hevents effect heffect
  rfl

variable (env s) in
/-- A position makes one update, with its fields. -/
theorem processGga_calls (gga : Gga F) (now : ℕ → F) (tsMs : ℤ) :
    ∃ call, (processGga env s gga now).effects.filterMap
        (Effect.call? tsMs) = [call] ∧
      ShadowsFields env (Sentence.gga gga).fields call := by
  have hnoFix : (noFixEvent gga).filterMap (Effect.call? tsMs) = [] := by
    apply filterMap_call?_events
    intro effect heffect
    unfold noFixEvent at heffect
    split_ifs at heffect
    · exact ⟨_, List.mem_singleton.mp heffect⟩
    · cases heffect
  have hjump : (spoofingEvent? env s gga (now 1)).join.toList.filterMap
      (Effect.call? tsMs) = [] := by
    apply filterMap_call?_events
    intro effect heffect
    have hsome := Option.join_eq_some_iff.mp (Option.mem_toList.mp heffect)
    obtain ⟨call, heq, -⟩ := spoofingEvent?_known hsome
    exact ⟨call, heq⟩
  have hviolation : ((violatedMode? env gga).map
      (violationEvent gga)).toList.filterMap (Effect.call? tsMs) = [] := by
    apply filterMap_call?_events
    intro effect heffect
    obtain ⟨mode, -, rfl⟩ :=
      Option.map_eq_some_iff.mp (Option.mem_toList.mp heffect)
    exact ⟨_, rfl⟩
  rw [processGga_effects, List.filterMap_append, List.filterMap_append,
    List.filterMap_append, hnoFix, hjump, hviolation]
  refine ⟨_, rfl, rfl, by simp [PyDict.keys], ?_⟩
  intro key hkey
  fin_cases hkey <;> rfl

omit [PyFloat F] [PyMath F] in
variable (env s) in
theorem processGsa_calls (gsa : Gsa F) (now : ℕ → F) (tsMs : ℤ) :
    ∃ call, (processGsa env s gsa now).effects.filterMap
        (Effect.call? tsMs) = [call] ∧
      ShadowsFields env (Sentence.gsa gsa).fields call := by
  refine ⟨_, rfl, rfl, by simp [PyDict.keys], ?_⟩
  intro key hkey
  fin_cases hkey <;> rfl

omit [PyMath F] in
/-- An update at the end of a series has none of the fields. -/
theorem processGsv_calls {gsv : Gsv} {now : ℕ → F} {result : LineResult F}
    (hresult : processGsv env s gsv now = .ok result) {tsMs : ℤ}
    {call : UpsertCall F}
    (hcall : call ∈ result.effects.filterMap (Effect.call? tsMs)) :
    ShadowsFields env [] call := by
  obtain ⟨effect, heffect, hmakes⟩ := List.mem_filterMap.mp hcall
  obtain ⟨⟨s', sats⟩, -, hresult⟩ := bind_eq_ok.mp hresult
  dsimp only at hresult
  split_ifs at hresult
  · rcases completeGsv_effect hresult heffect with
      ⟨_, rfl, -⟩ | ⟨mean, rfl⟩
    · cases hmakes
    · obtain rfl := Option.some.inj hmakes
      refine ⟨rfl, by simp [PyDict.keys], ?_⟩
      intro key hkey
      fin_cases hkey <;> rfl
  · obtain rfl := Except.ok.inj hresult
    cases heffect

theorem process_calls {sentence : Sentence F} {now : ℕ → F}
    {result : LineResult F}
    (hresult : sentence.process env s now = .ok result) (tsMs : ℤ) :
    (∀ call ∈ result.effects.filterMap (Effect.call? tsMs),
        ShadowsFields env sentence.fields call) ∧
      (sentence.fields ≠ [] → ∃ call,
        result.effects.filterMap (Effect.call? tsMs) = [call]) := by
  cases sentence with
  | other | rmc _ | vtg _ | zda _ =>
      obtain rfl := Except.ok.inj hresult
      exact ⟨nofun, fun h => absurd rfl h⟩
  | gga x =>
      obtain rfl := Except.ok.inj hresult
      obtain ⟨call, hcalls, hfields⟩ := processGga_calls env s x now tsMs
      rw [hcalls]
      exact ⟨by simpa using hfields, fun _ => ⟨call, rfl⟩⟩
  | gsa x =>
      obtain rfl := Except.ok.inj hresult
      obtain ⟨call, hcalls, hfields⟩ := processGsa_calls env s x now tsMs
      rw [hcalls]
      exact ⟨by simpa using hfields, fun _ => ⟨call, rfl⟩⟩
  | gsv x =>
      exact ⟨fun call hcall => processGsv_calls hresult hcall,
        fun h => absurd rfl h⟩

omit [PyFloat F] [PyMath F] in
/-- What an update writes of a field is what the sentence says. -/
theorem filterMap_calls {x : Sentence F} {calls : List (UpsertCall F)}
    (hall : ∀ call ∈ calls, ShadowsFields env x.fields call)
    (hone : x.fields ≠ [] → ∃ call, calls = [call]) {key : String}
    (hkey : key ∈ sentenceKeys) :
    (calls.filterMap fun call => call.payload.get? key) =
      (x.fields.get? key).toList := by
  by_cases hfields : x.fields = []
  · rw [hfields]
    change _ = []
    rw [List.filterMap_eq_nil_iff]
    intro call hcall
    rw [(hall call hcall).fields key hkey, hfields]
    rfl
  · obtain ⟨call, rfl⟩ := hone hfields
    have hsame := (hall call (List.mem_singleton_self call)).fields key hkey
    cases hvalue : x.fields.get? key with
    | none => simp [hsame, hvalue]
    | some value => simp [hsame, hvalue]

theorem fields_of_error {x : Sentence F} {now : ℕ → F} {e : PyErr}
    (hresult : x.process env s now = .error e) : x.fields = [] := by
  cases x with
  | gsv _ => rfl
  | other | rmc _ | vtg _ | zda _ | gga _ | gsa _ => cases hresult

variable (env) in
/-- What a session writes when it takes a line. -/
theorem FencedSession.calls_fields (s : FencedSession F)
    (input : ReadInput F) (tsMs : ℤ) :
    (∀ call ∈ s.calls env input tsMs,
        call.deviceId = env.deviceId ∧ call.payload.keys.Nodup) ∧
      ∀ key ∈ sentenceKeys,
        ((s.calls env input tsMs).filterMap fun call =>
            call.payload.get? key) =
          (s.sentences input).filterMap fun x => x.fields.get? key := by
  unfold calls effects sentences
  cases s.takes input with
  | false => exact ⟨List.forall_mem_nil _, fun _ _ => rfl⟩
  | true =>
      simp only [if_true]
      rw [processLine_eq]
      generalize (sentenceOf input.lineB : Sentence F) = x
      have hsingle (key : String) : ([x].filterMap fun x =>
          x.fields.get? key) = (x.fields.get? key).toList := by
        cases hvalue : x.fields.get? key <;> simp [hvalue]
      cases hresult : x.process env s.state input.now with
      | error e =>
          refine ⟨List.forall_mem_nil _, ?_⟩
          intro key _
          rw [hsingle, fields_of_error hresult]
          rfl
      | ok result =>
          obtain ⟨hall, hone⟩ := process_calls hresult tsMs
          refine ⟨fun call hcall =>
            ⟨(hall call hcall).device, (hall call hcall).keys⟩, ?_⟩
          intro key hkey
          rw [hsingle]
          exact filterMap_calls hall hone hkey

end Line

/-! ## All sessions -/

structure RoverReader (F : Type) where
  env : ReadEnv F
  session : FencedSession F

/-- The read loops of the caster and the store that they write into. -/
structure ReaderPool (F : Type) where
  readers : List (RoverReader F)
  shadow : DeviceShadowStore F

/-- A session begins, or reads a line at this time. -/
inductive PoolEvent (F : Type) where
  | accept (env : ReadEnv F) (gga? : Option (Gga F))
  | line (i : ℕ) (input : ReadInput F) (tsMs : ℤ)

namespace ReaderPool

variable [PyMath F]

def opened (ttlS : ℤ) : ReaderPool F where
  readers := []
  shadow := .opened "memory" ttlS

/-- The upserts of the event. -/
def calls (pool : ReaderPool F) : PoolEvent F → List (UpsertCall F)
  | .accept _ _ => []
  | .line i input tsMs =>
      (pool.readers[i]?.map fun r =>
        r.session.calls r.env input tsMs).getD []

def step (pool : ReaderPool F) (event : PoolEvent F) :
    Option (ReaderPool F) :=
  let shadow := (pool.calls event).foldl DeviceShadowStore.upsert pool.shadow
  match event with
  | .accept env gga? =>
      some ⟨pool.readers ++ [⟨env, .accept gga?⟩], shadow⟩
  | .line i input _ =>
      pool.readers[i]?.map fun r =>
        ⟨pool.readers.set i ⟨r.env, r.session.report r.env input⟩, shadow⟩

/-- The sentence that a session of the device reads. -/
def heard (device : String) (pool : ReaderPool F) :
    PoolEvent F → List (Sentence F)
  | .accept _ _ => []
  | .line i input _ =>
      (pool.readers[i]?.map fun r =>
        if r.env.deviceId = device then r.session.sentences input
        else []).getD []

theorem step_holds {pool next : ReaderPool F} {made : List (UpsertCall F)}
    {event : PoolEvent F} (hholds : pool.shadow.Holds made)
    (hstep : pool.step event = some next) :
    next.shadow.Holds (made ++ pool.calls event) := by
  have hshadow : next.shadow =
      (pool.calls event).foldl DeviceShadowStore.upsert pool.shadow := by
    cases event with
    | accept env gga? =>
        obtain rfl := Option.some.inj hstep
        rfl
    | line i input tsMs =>
        obtain ⟨r, -, rfl⟩ := Option.map_eq_some_iff.mp hstep
        rfl
  rw [hshadow]
  exact hholds.upserts (pool.calls event)

/-- The upserts of an event are those of the sentence that is heard. -/
theorem calls_heard (pool : ReaderPool F) (event : PoolEvent F)
    (device : String) :
    (∀ call ∈ pool.calls event, call.payload.keys.Nodup) ∧
      ∀ key ∈ sentenceKeys,
        ((ofDevice device (pool.calls event)).filterMap fun call =>
            call.payload.get? key) =
          (pool.heard device event).filterMap fun x => x.fields.get? key := by
  cases event with
  | accept env gga? => exact ⟨List.forall_mem_nil _, fun _ _ => rfl⟩
  | line i input tsMs =>
      unfold calls heard
      dsimp only
      cases pool.readers[i]? with
      | none =>
          simp only [Option.map_none, Option.getD_none]
          exact ⟨List.forall_mem_nil _, fun _ _ => rfl⟩
      | some r =>
          simp only [Option.map_some, Option.getD_some]
          obtain ⟨hcalls, hfields⟩ :=
            r.session.calls_fields r.env input tsMs
          refine ⟨fun call hcall => (hcalls call hcall).2, ?_⟩
          intro key hkey
          by_cases hdevice : r.env.deviceId = device
          · have hall : ofDevice device
                (r.session.calls r.env input tsMs) =
                r.session.calls r.env input tsMs := by
              apply List.filter_eq_self.mpr
              intro call hcall
              exact decide_eq_true ((hcalls call hcall).1.trans hdevice)
            rw [hall, if_pos hdevice]
            exact hfields key hkey
          · have hnone : ofDevice device
                (r.session.calls r.env input tsMs) = [] := by
              apply List.filter_eq_nil_iff.mpr
              intro call hcall
              rw [(hcalls call hcall).1]
              simpa using hdevice
            rw [hnone, if_neg hdevice]
            rfl

/-- A field of the shadow is that of the last upsert with this field. -/
theorem run_field? {ttlS : ℤ} {events : List (PoolEvent F)}
    {pool : ReaderPool F} (hrun : run step (opened ttlS) events = some pool)
    (device : String) {key : String} (hkey : key ≠ "updated_unix_ms") :
    pool.shadow.field? device key =
      ((ofDevice device (outputs step calls (opened ttlS) events)).filterMap
        fun call => call.payload.get? key).getLast? := by
  have hany : StepsMeet step (fun _ _ => True) (opened (F := F) ttlS)
      events := .of_forall fun _ _ _ => trivial
  have hholds : pool.shadow.Holds
      ([] ++ outputs step calls (opened ttlS) events) :=
    StepsMeet.run_outputs (P := fun made pool => pool.shadow.Holds made)
      (fun made pool event next hmade _ hstep => step_holds hmade hstep)
      (DeviceShadowStore.Holds.opened ttlS) hany hrun
  have hmade : ∀ call ∈ [] ++ outputs step calls (opened ttlS) events,
      call.payload.keys.Nodup :=
    StepsMeet.run_outputs
      (P := fun (made : List (UpsertCall F)) _ =>
        ∀ call ∈ made, call.payload.keys.Nodup)
      (fun made pool event next hmade _ _ =>
        List.forall_mem_append.mpr
          ⟨hmade, (calls_heard pool event device).1⟩)
      (fun _ hcall => absurd hcall List.not_mem_nil) hany hrun
  rw [List.nil_append] at hholds
  rw [hholds.field?, documentOf_agrees _ key hkey, get?_mergedPayloads]
  exact fun call hcall => hmade call (List.mem_filter.mp hcall).1

/-- The upserts of a run have the fields of the sentences that are heard. -/
theorem outputs_heard (pool : ReaderPool F) (events : List (PoolEvent F))
    (device : String) {key : String} (hkey : key ∈ sentenceKeys) :
    ((ofDevice device (outputs step calls pool events)).filterMap
        fun call => call.payload.get? key) =
      (outputs step (heard device) pool events).filterMap
        fun x => x.fields.get? key := by
  unfold ofDevice
  rw [List.filterMap_filter, filterMap_outputs, filterMap_outputs]
  congr 1
  funext pool event
  rw [← (calls_heard pool event device).2 key hkey, ofDevice,
    List.filterMap_filter]

theorem ne_updated {key : String} (hkey : key ∈ sentenceKeys) :
    key ≠ "updated_unix_ms" := by
  rintro rfl
  revert hkey
  decide

/-- Whatever the rovers send and however their lines come, each field of a
shadow document has the value of the last sentence with this field that a
session of the device has read, and is absent before the first. -/
theorem shadow_current {ttlS : ℤ} {events : List (PoolEvent F)}
    {pool : ReaderPool F} (hrun : run step (opened ttlS) events = some pool)
    (device : String) {key : String} (hkey : key ∈ sentenceKeys) :
    pool.shadow.field? device key =
      ((outputs step (heard device) (opened ttlS) events).filterMap
        fun x => x.fields.get? key).getLast? := by
  rw [run_field? hrun device (ne_updated hkey), outputs_heard _ _ _ hkey]

/-- A rover that reports one position. -/
def oneReport : List (PoolEvent ℚ) :=
  [.accept defaultEnv none, .line 0 homeLine 5]

theorem shadow_current_oneReport :
    ∃ pool, run (@step ℚ _ noMath) (opened 60) oneReport = some pool ∧
      pool.shadow.field? "rover" "fixq" = some (.int 1) := by
  obtain ⟨pool, hrun⟩ : ∃ pool,
      run (@step ℚ _ noMath) (opened 60) oneReport = some pool := ⟨_, rfl⟩
  refine ⟨pool, hrun, ?_⟩
  rw [@shadow_current ℚ _ noMath _ _ _ hrun "rover" _ (by decide)]
  rfl

end ReaderPool

end BabilCors
