import BabilCors.DeviceShadow
import BabilCors.IncreasingLog

/-!
# The history of a device

In memory every position is kept and counted.  A Redis stream drops a position
that comes in the same millisecond as the one before, and its total counts the
items that were returned.
-/

namespace BabilCors

open Py TransitionRuns IncreasingLog

variable {F : Type}

/-! ## Upserts one after another -/

/-- `upsert` over Redis, when no other call comes in between. -/
def RedisDb.upsert (ttlS : ℤ) (r : RedisDb F) (call : UpsertCall F) :
    RedisDb F :=
  match r.current call.deviceId with
  | .error _ => r
  | .ok cur =>
      let doc := call.merged cur
      let r := (r.setDocument call.deviceId doc).expire call.deviceId ttlS
      if call.hasPosition then
        match r.xadd call.deviceId (call.row doc) with
        | some r => r.xtrim call.deviceId
        | none => r
      else r

namespace DeviceShadowStore

/-- A store behind `start`: only the one over Redis has a connection. -/
def opened (url : String) (ttlS : ℤ) : DeviceShadowStore F where
  url := url
  ttlS := ttlS
  r := if url = "memory" then none else some ⟨[], [], []⟩
  mem := []
  memHist := []

def upsert (store : DeviceShadowStore F) (call : UpsertCall F) :
    DeviceShadowStore F :=
  if store.url = "memory" then store.memoryUpsert call
  else { store with r := store.r.map fun r => r.upsert store.ttlS call }

end DeviceShadowStore

/-- A call that runs alone does what `upsert` says. -/
theorem ShadowState.run_alone {store : DeviceShadowStore F}
    (hworking : store.Working) (call : UpsertCall F) :
    ∃ n phase, run step ⟨store, [⟨call, .started⟩]⟩
        (List.replicate n (.advance 0)) =
      some ⟨store.upsert call, [⟨call, phase⟩]⟩ ∧
        (phase = .returned ∨ phase = .raised) := by
  cases hworking with
  | memory hurl hr =>
      refine ⟨1, .returned, ?_, .inl rfl⟩
      simp [run, step, UpsertTask.advance, DeviceShadowStore.upsert, hurl]
  | redis hurl r hr =>
      rcases store with ⟨url, ttlS, r', mem, memHist⟩
      obtain rfl : r' = some r := hr
      dsimp only at hurl
      unfold DeviceShadowStore.upsert RedisDb.upsert
      cases hcur : r.current call.deviceId with
      | error e =>
          refine ⟨1, .raised, ?_, .inr rfl⟩
          simp [run, step, UpsertTask.advance, hurl, hcur]
      | ok cur =>
          -- GET, SET, EXPIRE, XADD; and XTRIM when the id has been taken
          by_cases hposition : call.hasPosition = true
          · cases hadd : ((r.setDocument call.deviceId
                (call.merged cur)).expire call.deviceId ttlS).xadd
                  call.deviceId (call.row (call.merged cur)) with
            | none =>
                refine ⟨4, .returned, ?_, .inl rfl⟩
                simp [run, step, UpsertTask.advance, hurl, hcur, hposition,
                  hadd]
            | some r' =>
                refine ⟨5, .returned, ?_, .inl rfl⟩
                simp [run, step, UpsertTask.advance, hurl, hcur, hposition,
                  hadd]
          · refine ⟨4, .returned, ?_, .inl rfl⟩
            simp [run, step, UpsertTask.advance, hurl, hcur, hposition]

/-! ## Queries -/

structure HistoryQuery where
  startMs : Option ℤ
  endMs : Option ℤ
  limit : ℤ
  reverse : Bool

structure HistoryPage (F : Type) where
  items : List (HistoryRow F)
  total : ℕ

namespace HistoryQuery

/-- `max(1, min(int(limit or 100), 5000))`. -/
def clamped (q : HistoryQuery) : ℕ :=
  (max 1 (min (if q.limit = 0 then 100 else q.limit) 5000)).toNat

def ordered {α : Type} (q : HistoryQuery) (rows : List α) : List α :=
  if q.reverse then rows.reverse else rows

def inRange (q : HistoryQuery) (ts : ℤ) : Bool :=
  q.startMs.all (fun ms => ms ≤ ts) && q.endMs.all (fun ms => ts ≤ ms)

/-- Redis takes both bounds as ids. -/
def ValidBounds (q : HistoryQuery) : Prop :=
  (∀ ms ∈ q.startMs, ValidStreamId ms) ∧ ∀ ms ∈ q.endMs, ValidStreamId ms

instance (q : HistoryQuery) : Decidable q.ValidBounds :=
  inferInstanceAs (Decidable (_ ∧ _))

end HistoryQuery

/-- XRANGE or XREVRANGE; `none` is the answer to a bound that is no id. -/
def RedisDb.range (r : RedisDb F) (device : String) (q : HistoryQuery) :
    Option (List (HistoryRow F)) :=
  if q.ValidBounds then
    some ((q.ordered ((r.stream device).filter fun row =>
      q.inRange row.tsUnixMs)).take q.clamped)
  else
    none

namespace DeviceShadowStore

def memoryHistory (store : DeviceShadowStore F) (device : String)
    (q : HistoryQuery) : HistoryPage F :=
  let h := (store.memHist.get? device).getD []
  let h := q.startMs.elim h fun ms => h.filter fun row => ms ≤ row.tsUnixMs
  let h := q.endMs.elim h fun ms => h.filter fun row => row.tsUnixMs ≤ ms
  let h := q.ordered h
  ⟨h.take q.clamped, h.length⟩

def history (store : DeviceShadowStore F) (device : String)
    (q : HistoryQuery) : HistoryPage F :=
  if store.url = "memory" then store.memoryHistory device q
  else
    match store.r with
    | none => ⟨[], 0⟩
    | some r =>
        let items := (r.range device q).getD []
        ⟨items, items.length⟩

end DeviceShadowStore

/-! ## The rows of the two stores -/

/-- The time and the position of a row. -/
def HistoryRow.mark (row : HistoryRow F) : ℤ × Json F × Json F :=
  (row.tsUnixMs, row.lat, row.lon)

def UpsertCall.mark (call : UpsertCall F) : ℤ × Json F × Json F :=
  (call.row []).mark

/-- The marks of the calls that have a position. -/
def marks (calls : List (UpsertCall F)) : List (ℤ × Json F × Json F) :=
  (calls.filter UpsertCall.hasPosition).map UpsertCall.mark

/-- Redis takes the time as a new id. -/
def NewStreamId (ms : ℤ) : Prop :=
  ValidStreamId ms ∧ 0 < ms

instance : DecidablePred NewStreamId :=
  fun _ => inferInstanceAs (Decidable (_ ∧ _))

theorem marks_cons (call : UpsertCall F) (calls : List (UpsertCall F)) :
    marks (call :: calls) =
      if call.hasPosition then call.mark :: marks calls else marks calls := by
  unfold marks
  rw [List.filter_cons]
  split_ifs <;> rfl

theorem length_marks_le (calls : List (UpsertCall F)) :
    (marks calls).length ≤ calls.length := by
  unfold marks
  rw [List.length_map]
  exact List.length_filter_le _ _

section Memory

namespace DeviceShadowStore

def rows (store : DeviceShadowStore F) (device : String) :
    List (HistoryRow F) :=
  (store.memHist.get? device).getD []

theorem memoryUpsert_marks {store : DeviceShadowStore F} {device : String}
    {call : UpsertCall F} (hdevice : call.deviceId = device)
    (hlength : (store.rows device).length < histMaxlen) :
    ((store.memoryUpsert call).rows device).map HistoryRow.mark =
      (store.rows device).map HistoryRow.mark ++ marks [call] := by
  subst hdevice
  unfold memoryUpsert rows at *
  rw [marks_cons]
  dsimp only
  by_cases hposition : call.hasPosition = true
  · have hkept : ((store.memHist.get? call.deviceId).getD [] ++ [call.row
        (call.merged ((store.mem.get? call.deviceId).getD []))]).length -
          histMaxlen = 0 := by
      rw [List.length_append, List.length_singleton]
      omega
    rw [if_pos hposition, if_pos hposition, PyDict.get?_set_self, hkept]
    simp only [List.drop_zero, Option.getD_some, List.map_append]
    rfl
  · rw [if_neg hposition, if_neg hposition]
    exact (List.append_nil _).symm

theorem upserts_rows {store : DeviceShadowStore F}
    (hurl : store.url = "memory") {device : String}
    {calls : List (UpsertCall F)}
    (hdevice : ∀ call ∈ calls, call.deviceId = device)
    (hlength : (store.rows device).length + calls.length ≤ histMaxlen) :
    (calls.foldl upsert store).url = "memory" ∧
      ((calls.foldl upsert store).rows device).map HistoryRow.mark =
        (store.rows device).map HistoryRow.mark ++ marks calls := by
  induction calls generalizing store with
  | nil => exact ⟨hurl, (List.append_nil _).symm⟩
  | cons call calls ih =>
      have hupsert : store.upsert call = store.memoryUpsert call :=
        if_pos hurl
      rw [List.length_cons] at hlength
      have hroom : (store.rows device).length < histMaxlen := by omega
      have hmarks := memoryUpsert_marks
        (hdevice call List.mem_cons_self) hroom
      have hsize : ((store.memoryUpsert call).rows device).length ≤
          (store.rows device).length + 1 := by
        have hlengths := congrArg List.length hmarks
        rw [List.length_append, List.length_map, List.length_map] at hlengths
        have hone := length_marks_le [call]
        rw [List.length_singleton] at hone
        omega
      rw [List.foldl_cons, hupsert]
      rcases @ih (store.memoryUpsert call) hurl
        (fun c hc => hdevice c (List.mem_cons_of_mem _ hc)) (by omega) with
          ⟨hurl', hrows⟩
      refine ⟨hurl', ?_⟩
      rw [hrows, hmarks, List.append_assoc, marks_cons call calls, marks_cons]
      congr 1
      split_ifs <;> rfl

end DeviceShadowStore

end Memory

section Redis

namespace RedisDb

/-- The texts of the device load, and its stream is small. -/
structure Ready (r : RedisDb F) (device : String) (room : ℕ) : Prop where
  document : ∃ d, r.current device = .ok d
  length : (r.stream device).length + room ≤ histMaxlen

theorem current_expire {r : RedisDb F} {device : String}
    (hcurrent : ∃ d, r.current device = .ok d) (ttlS : ℤ) :
    ∃ d, (r.expire device ttlS).current device = .ok d := by
  unfold expire
  split_ifs
  · exact hcurrent
  · refine ⟨[], ?_⟩
    unfold current delete
    rw [PyDict.get?_erase_self]
    rfl

theorem stream_expire (r : RedisDb F) (device : String) (ttlS : ℤ) :
    (r.expire device ttlS).stream device = r.stream device := by
  unfold expire
  split_ifs <;> rfl

theorem stream_set (r : RedisDb F) (device : String)
    (rows : List (HistoryRow F)) :
    ({ r with streams := r.streams.set (streamKey device) rows } :
      RedisDb F).stream device = rows := by
  unfold stream
  rw [PyDict.get?_set_self]
  rfl

theorem xadd_accepts_iff (r : RedisDb F) (device : String)
    (row : HistoryRow F) :
    (ValidStreamId row.tsUnixMs ∧ 0 < row.tsUnixMs ∧
        ∀ last ∈ (r.stream device).getLast?,
          last.tsUnixMs < row.tsUnixMs) ↔
      Accepts Prod.fst NewStreamId ((r.stream device).map HistoryRow.mark)
        row.mark := by
  unfold Accepts NewStreamId
  rw [List.getLast?_map, and_assoc]
  simp [HistoryRow.mark]

/-- XADD and XTRIM are a push on the log of the marks. -/
theorem stream_add {r : RedisDb F} {device : String}
    (hroom : (r.stream device).length < histMaxlen) (row : HistoryRow F) :
    ((((r.xadd device row).map fun r => r.xtrim device).getD r).stream
        device).map HistoryRow.mark =
      push Prod.fst NewStreamId ((r.stream device).map HistoryRow.mark)
        row.mark := by
  unfold xadd push
  by_cases haccepts : ValidStreamId row.tsUnixMs ∧ 0 < row.tsUnixMs ∧
      ∀ last ∈ (r.stream device).getLast?, last.tsUnixMs < row.tsUnixMs
  · rw [if_pos haccepts, if_pos ((r.xadd_accepts_iff device row).mp haccepts)]
    rw [Option.map_some, Option.getD_some, xtrim, stream_set, stream_set]
    have hkept : (r.stream device ++ [row]).length - histMaxlen = 0 := by
      rw [List.length_append, List.length_singleton]
      omega
    rw [hkept, List.drop_zero, List.map_append]
    rfl
  · rw [if_neg haccepts,
      if_neg (fun h => haccepts ((r.xadd_accepts_iff device row).mpr h))]
    rfl

theorem current_add {r : RedisDb F} {device : String} (row : HistoryRow F) :
    ((((r.xadd device row).map fun r => r.xtrim device).getD r).current
        device) = r.current device := by
  unfold xadd
  split_ifs <;> rfl

theorem upsert_ready {r : RedisDb F} {call : UpsertCall F} {room : ℕ}
    (hready : r.Ready call.deviceId (room + 1)) (ttlS : ℤ) :
    (r.upsert ttlS call).Ready call.deviceId room ∧
      ((r.upsert ttlS call).stream call.deviceId).map HistoryRow.mark =
        pushAll Prod.fst NewStreamId
          ((r.stream call.deviceId).map HistoryRow.mark) (marks [call]) := by
  rcases hready with ⟨⟨cur, hcur⟩, hlength⟩
  let r' := (r.setDocument call.deviceId (call.merged cur)).expire
    call.deviceId ttlS
  have hstream : r'.stream call.deviceId = r.stream call.deviceId :=
    stream_expire _ _ _
  have hcurrent : ∃ d, r'.current call.deviceId = .ok d := by
    apply current_expire
    exact ⟨call.merged cur, by rw [current_setDocument, if_pos rfl]⟩
  have hupsert : r.upsert ttlS call =
      if call.hasPosition then
        ((r'.xadd call.deviceId (call.row (call.merged cur))).map
          fun r => r.xtrim call.deviceId).getD r'
      else r' := by
    unfold upsert
    rw [hcur]
    dsimp only
    cases r'.xadd call.deviceId (call.row (call.merged cur)) <;> rfl
  have hmarks : ((r.upsert ttlS call).stream call.deviceId).map
      HistoryRow.mark = pushAll Prod.fst NewStreamId
        ((r.stream call.deviceId).map HistoryRow.mark) (marks [call]) := by
    rw [hupsert, marks_cons]
    split_ifs
    · have hroom : (r'.stream call.deviceId).length < histMaxlen := by
        rw [hstream]
        omega
      rw [stream_add hroom, hstream]
      rfl
    · rw [hstream]
      rfl
  refine ⟨⟨?_, ?_⟩, hmarks⟩
  · rw [hupsert]
    split_ifs
    · rw [current_add]
      exact hcurrent
    · exact hcurrent
  · have hlengths := congrArg List.length hmarks
    have hsub : (pushAll Prod.fst NewStreamId
        ((r.stream call.deviceId).map HistoryRow.mark)
          (marks [call])).length ≤ _ := (pushAll_sublist _ _).length_le
    have hone := length_marks_le [call]
    rw [List.length_map] at hlengths
    rw [← hlengths, List.length_append, List.length_map] at hsub
    rw [List.length_singleton] at hone
    omega

theorem upserts_stream {r : RedisDb F} {device : String}
    {calls : List (UpsertCall F)}
    (hdevice : ∀ call ∈ calls, call.deviceId = device)
    (hready : r.Ready device calls.length) (ttlS : ℤ) :
    ((calls.foldl (RedisDb.upsert ttlS) r).stream device).map
        HistoryRow.mark =
      pushAll Prod.fst NewStreamId ((r.stream device).map HistoryRow.mark)
        (marks calls) := by
  induction calls generalizing r with
  | nil => rfl
  | cons call calls ih =>
      obtain rfl := hdevice call List.mem_cons_self
      rcases upsert_ready hready ttlS with ⟨hready', hmarks⟩
      rw [List.foldl_cons,
        ih (fun c hc => hdevice c (List.mem_cons_of_mem _ hc)) hready',
        hmarks]
      have hsplit : marks (call :: calls) = marks [call] ++ marks calls := by
        rw [marks_cons call calls, marks_cons]
        split_ifs <;> rfl
      rw [hsplit]
      exact List.foldl_append.symm

end RedisDb

end Redis

/-! ## When the histories agree -/

/-- The same positions in the same order, and the same total. -/
def HistoryPage.SamePositions (p p' : HistoryPage F) : Prop :=
  p.items.map (fun row => (row.lat, row.lon)) =
      p'.items.map (fun row => (row.lat, row.lon)) ∧
    p.total = p'.total

namespace HistoryQuery

/-- The times of the positions in the range of the query. -/
def times (q : HistoryQuery) (calls : List (UpsertCall F)) : List ℤ :=
  ((calls.filter UpsertCall.hasPosition).map UpsertCall.tsMs).filter q.inRange

/-- The positions in range are no more than the limit, and each has a time of
its own that is an id. -/
structure FitsStream (q : HistoryQuery) (calls : List (UpsertCall F)) :
    Prop where
  bounds : q.ValidBounds
  limit : (q.times calls).length ≤ q.clamped
  ids : ∀ ts ∈ q.times calls, NewStreamId ts
  increasing : (q.times calls).Pairwise (· < ·)

/-- The marks in the range of the query. -/
def select (q : HistoryQuery) (marks : List (ℤ × Json F × Json F)) :
    List (ℤ × Json F × Json F) :=
  marks.filter fun mark => q.inRange mark.1

theorem map_ordered {α β : Type} (q : HistoryQuery) (f : α → β)
    (rows : List α) : (q.ordered rows).map f = q.ordered (rows.map f) := by
  unfold ordered
  split_ifs
  · exact List.map_reverse
  · rfl

theorem length_ordered {α : Type} (q : HistoryQuery) (rows : List α) :
    (q.ordered rows).length = rows.length := by
  unfold ordered
  split_ifs
  · exact List.length_reverse
  · rfl

theorem select_map_mark (q : HistoryQuery) (rows : List (HistoryRow F)) :
    q.select (rows.map HistoryRow.mark) =
      (rows.filter fun row => q.inRange row.tsUnixMs).map HistoryRow.mark := by
  unfold select
  rw [List.filter_map]
  rfl

/-- The positions of a page that is cut from rows. -/
theorem positions_eq (q : HistoryQuery) (rows : List (HistoryRow F)) :
    ((q.ordered (rows.filter fun row => q.inRange row.tsUnixMs)).take
        q.clamped).map (fun row => (row.lat, row.lon)) =
      ((q.ordered (q.select (rows.map HistoryRow.mark))).take
        q.clamped).map Prod.snd := by
  rw [select_map_mark, ← map_ordered, List.map_take, List.map_take,
    List.map_map]
  rfl

theorem times_eq (q : HistoryQuery) (calls : List (UpsertCall F)) :
    q.times calls = (q.select (marks calls)).map Prod.fst := by
  unfold times select marks
  rw [List.filter_map, List.filter_map, List.map_map]
  rfl

theorem length_times (q : HistoryQuery) (calls : List (UpsertCall F)) :
    (q.times calls).length = (q.select (marks calls)).length := by
  rw [times_eq, List.length_map]

theorem increasing_select_iff (q : HistoryQuery)
    (calls : List (UpsertCall F)) :
    Increasing Prod.fst NewStreamId (q.select (marks calls)) ↔
      (∀ ts ∈ q.times calls, NewStreamId ts) ∧
        (q.times calls).Pairwise (· < ·) := by
  rw [times_eq, List.forall_mem_map, List.pairwise_map]
  rfl

end HistoryQuery

namespace DeviceShadowStore

/-- The two filters of the source are the range of the query. -/
theorem filter_bounds (q : HistoryQuery) (rows : List (HistoryRow F)) :
    q.endMs.elim
        (q.startMs.elim rows fun ms =>
          rows.filter fun row => ms ≤ row.tsUnixMs)
        (fun ms => (q.startMs.elim rows fun ms =>
          rows.filter fun row => ms ≤ row.tsUnixMs).filter
            fun row => row.tsUnixMs ≤ ms) =
      rows.filter fun row => q.inRange row.tsUnixMs := by
  unfold HistoryQuery.inRange
  cases q.startMs <;> cases q.endMs <;>
    simp [List.filter_filter, Bool.and_comm]

theorem memoryHistory_eq (store : DeviceShadowStore F) (device : String)
    (q : HistoryQuery) :
    store.memoryHistory device q =
      ⟨(q.ordered ((store.rows device).filter fun row =>
          q.inRange row.tsUnixMs)).take q.clamped,
        ((store.rows device).filter fun row =>
          q.inRange row.tsUnixMs).length⟩ := by
  rw [← filter_bounds, ← q.length_ordered]
  rfl

/-- The page of the store in memory, by the marks of the calls. -/
theorem memory_page (ttlS : ℤ) {device : String}
    {calls : List (UpsertCall F)}
    (hdevice : ∀ call ∈ calls, call.deviceId = device)
    (hlength : calls.length ≤ histMaxlen) (q : HistoryQuery) :
    let page := (calls.foldl upsert (opened "memory" ttlS)).history device q
    page.items.map (fun row => (row.lat, row.lon)) =
        ((q.ordered (q.select (marks calls))).take q.clamped).map Prod.snd ∧
      page.total = (q.select (marks calls)).length := by
  have hfresh : (opened "memory" ttlS : DeviceShadowStore F).rows device =
      [] := rfl
  have hroom : ((opened "memory" ttlS : DeviceShadowStore F).rows
      device).length + calls.length ≤ histMaxlen := by
    simpa [hfresh] using hlength
  rcases upserts_rows rfl hdevice hroom with ⟨hurl, hrows⟩
  rw [hfresh, List.map_nil, List.nil_append] at hrows
  dsimp only
  rw [history, if_pos hurl, memoryHistory_eq, ← hrows]
  refine ⟨q.positions_eq _, ?_⟩
  rw [q.select_map_mark, List.length_map]

theorem upserts_redis {url : String} (hurl : url ≠ "memory") (ttlS : ℤ)
    (r : RedisDb F) (calls : List (UpsertCall F)) :
    calls.foldl upsert ⟨url, ttlS, some r, [], []⟩ =
      ⟨url, ttlS, some (calls.foldl (RedisDb.upsert ttlS) r), [], []⟩ := by
  induction calls generalizing r with
  | nil => rfl
  | cons call calls ih =>
      rw [List.foldl_cons, List.foldl_cons, upsert, if_neg hurl]
      exact ih (r.upsert ttlS call)

/-- The page of the store over Redis: nothing where a bound is no id, and
otherwise what the stream has kept of the marks. -/
theorem redis_page {url : String} (hurl : url ≠ "memory") (ttlS : ℤ)
    {device : String} {calls : List (UpsertCall F)}
    (hdevice : ∀ call ∈ calls, call.deviceId = device)
    (hlength : calls.length ≤ histMaxlen) (q : HistoryQuery) :
    let page := (calls.foldl upsert (opened url ttlS)).history device q
    let rows := if q.ValidBounds then (q.ordered (q.select
      (pushAll Prod.fst NewStreamId [] (marks calls)))).take q.clamped else []
    page.items.map (fun row => (row.lat, row.lon)) = rows.map Prod.snd ∧
      page.total = rows.length := by
  have hopened : (opened url ttlS : DeviceShadowStore F) =
      ⟨url, ttlS, some ⟨[], [], []⟩, [], []⟩ := by
    rw [opened, if_neg hurl]
  have hready : RedisDb.Ready (⟨[], [], []⟩ : RedisDb F) device calls.length :=
    ⟨⟨[], rfl⟩, by simpa [RedisDb.stream] using hlength⟩
  have hstream := RedisDb.upserts_stream hdevice hready ttlS
  change _ = pushAll Prod.fst NewStreamId [] (marks calls) at hstream
  dsimp only
  rw [hopened, upserts_redis hurl, history, if_neg hurl]
  unfold RedisDb.range
  split_ifs
  · have hpositions := q.positions_eq
      ((calls.foldl (RedisDb.upsert ttlS) ⟨[], [], []⟩).stream device)
    rw [hstream] at hpositions
    refine ⟨hpositions, ?_⟩
    have hlengths := congrArg List.length hpositions
    simpa using hlengths
  · exact ⟨rfl, rfl⟩

/-- After upserts of one device, one after another at times that do not go
back, the two stores answer a query alike exactly if it finds no position, or
if its bounds are ids and it finds no more positions than its limit, all with
times of their own that are ids. -/
theorem histories_agree_iff {device : String} {calls : List (UpsertCall F)}
    (hdevice : ∀ call ∈ calls, call.deviceId = device)
    (hlength : calls.length ≤ histMaxlen)
    (hsorted : calls.Pairwise fun a b => a.tsMs ≤ b.tsMs) {url : String}
    (hurl : url ≠ "memory") (ttlS ttlS' : ℤ) (q : HistoryQuery) :
    ((calls.foldl upsert (opened "memory" ttlS)).history device
        q).SamePositions
      ((calls.foldl upsert (opened url ttlS')).history device q) ↔
      q.times calls = [] ∨ q.FitsStream calls := by
  have hmarks : (marks calls).Pairwise fun a b => a.1 ≤ b.1 :=
    List.pairwise_map.mpr (hsorted.filter _)
  have hkept : q.select (pushAll Prod.fst NewStreamId [] (marks calls)) =
      q.select (marks calls) ↔
        Increasing Prod.fst NewStreamId (q.select (marks calls)) :=
    filter_pushAll_eq_iff q.inRange hmarks
  have hsub : (q.select (pushAll Prod.fst NewStreamId []
      (marks calls))).Sublist (q.select (marks calls)) :=
    (pushAll_sublist [] (marks calls)).filter _
  have hempty : q.times calls = [] ↔ (q.select (marks calls)).length = 0 := by
    rw [← q.length_times, List.length_eq_zero_iff]
  rcases memory_page ttlS hdevice hlength q with ⟨hpositions, htotal⟩
  rcases redis_page hurl ttlS' hdevice hlength q with ⟨hpositions', htotal'⟩
  unfold HistoryPage.SamePositions
  rw [hpositions, htotal, hpositions', htotal', hempty]
  by_cases hbounds : q.ValidBounds
  swap
  · rw [if_neg hbounds]
    constructor
    · exact fun hsame => .inl hsame.2
    · rintro (hnone | hfits)
      · refine ⟨?_, hnone⟩
        rw [List.length_eq_zero_iff.mp hnone, HistoryQuery.ordered]
        simp
      · exact (hbounds hfits.bounds).elim
  rw [if_pos hbounds]
  constructor
  · rintro ⟨_, htotals⟩
    rw [List.length_take, q.length_ordered] at htotals
    have hle := hsub.length_le
    have hall := hkept.mp (hsub.eq_of_length_le (by omega))
    rcases (q.increasing_select_iff calls).mp hall with ⟨hids, hincreasing⟩
    refine .inr ⟨hbounds, ?_, hids, hincreasing⟩
    rw [q.length_times]
    omega
  · intro hcondition
    have hall : q.select (pushAll Prod.fst NewStreamId [] (marks calls)) =
        q.select (marks calls) ∧
          (q.select (marks calls)).length ≤ q.clamped := by
      rcases hcondition with hnone | hfits
      · exact ⟨hsub.eq_of_length_le (by omega), by omega⟩
      · refine ⟨hkept.mpr ((q.increasing_select_iff calls).mpr
          ⟨hfits.ids, hfits.increasing⟩), ?_⟩
        rw [← q.length_times]
        exact hfits.limit
    rw [hall.1, List.length_take, q.length_ordered]
    exact ⟨rfl, (min_eq_right hall.2).symm⟩

/-- A call with a position. -/
def positionAt (ts : ℤ) (lat : ℤ) : UpsertCall ℚ :=
  ⟨"u", [("lat", .int lat), ("lon", .int 32)], ts⟩

/-- The last positions of the device after these calls. -/
def lastPositions (url : String) (calls : List (UpsertCall ℚ)) :
    HistoryPage ℚ :=
  (calls.foldl upsert (opened url 86400)).history "u" ⟨none, none, 0, true⟩

theorem histories_agree_two_positions :
    (lastPositions "memory" [positionAt 1000 37,
        positionAt 1001 38]).SamePositions
      (lastPositions "redis://localhost" [positionAt 1000 37,
        positionAt 1001 38]) := by
  refine (histories_agree_iff (by simp [positionAt]) (by decide)
    (by simp [positionAt]) (by decide) _ _ _).mpr (.inr ?_)
  exact ⟨by decide, by decide, by decide, by decide⟩

/-- Of two positions in one millisecond the stream has the first only. -/
theorem equal_times_disagree :
    ¬ (lastPositions "memory" [positionAt 1000 37,
        positionAt 1000 38]).SamePositions
      (lastPositions "redis://localhost" [positionAt 1000 37,
        positionAt 1000 38]) := by
  rintro ⟨_, htotal⟩
  revert htotal
  decide +kernel

end DeviceShadowStore

end BabilCors
