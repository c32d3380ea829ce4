import BabilCors.ShadowHistory

/-!
# The history in memory is exact

After any upserts the history of a device has a row for each of its last ten
thousand upserts with a position, in their order.  A row keeps the merge of the
payloads up to its own, whatever comes later, and a query is answered by these
rows.
-/

namespace BabilCors

open Py

variable {F : Type}

/-! ## What the history should hold -/

/-- The merge of the payloads, later values over earlier ones. -/
def mergedPayloads (calls : List (UpsertCall F)) : Document F :=
  calls.foldl (fun d call => d.update call.payload) []

/-- The row of the last of these calls: its time, its position, and the merge
of all payloads under its time. -/
def IsRowOf (calls : List (UpsertCall F)) (row : HistoryRow F) : Prop :=
  ∃ call ∈ calls.getLast?,
    row.tsUnixMs = call.tsMs ∧
    call.payload.get? "lat" = some row.lat ∧
    call.payload.get? "lon" = some row.lon ∧
    ∀ key, row.shadow.get? key =
      if key = "updated_unix_ms" then some (.int call.tsMs)
      else (mergedPayloads calls).get? key

def ofDevice (device : String) (calls : List (UpsertCall F)) :
    List (UpsertCall F) :=
  calls.filter fun call => call.deviceId = device

def endsWithPosition (calls : List (UpsertCall F)) : Bool :=
  calls.getLast?.any UpsertCall.hasPosition

/-- The calls up to each that has a position. -/
def upToPositions (calls : List (UpsertCall F)) :
    List (List (UpsertCall F)) :=
  calls.inits.filter endsWithPosition

/-- The first rows in range, in the direction that is asked for, as many as
the limit says, and the number of all of them. -/
structure IsPageOf (rows : List (HistoryRow F)) (q : HistoryQuery)
    (page : HistoryPage F) : Prop where
  items : page.items = (q.ordered (rows.filter fun row =>
    q.inRange row.tsUnixMs)).take
      (if q.limit = 0 then 100 else max 1 (min q.limit 5000)).toNat
  total : page.total =
    (rows.filter fun row => q.inRange row.tsUnixMs).length

/-! ## The document under a row -/

/-- The document behind the calls. -/
def documentOf (calls : List (UpsertCall F)) : Document F :=
  calls.foldl (fun cur call => call.merged cur) []

theorem documentOf_concat (calls : List (UpsertCall F))
    (call : UpsertCall F) :
    documentOf (calls ++ [call]) = call.merged (documentOf calls) := by
  simp [documentOf]

theorem mergedPayloads_concat (calls : List (UpsertCall F))
    (call : UpsertCall F) :
    mergedPayloads (calls ++ [call]) =
      (mergedPayloads calls).update call.payload := by
  simp [mergedPayloads]

/-- Off the time the document is the merge of the payloads. -/
theorem documentOf_agrees (calls : List (UpsertCall F)) :
    PyDict.AgreeOff (· = "updated_unix_ms") (documentOf calls)
      (mergedPayloads calls) := by
  induction calls using List.reverseRecOn with
  | nil => exact .refl _
  | append_singleton calls call ih =>
      rw [documentOf_concat, mergedPayloads_concat]
      have hset : PyDict.AgreeOff (· = "updated_unix_ms")
          (call.merged (documentOf calls))
          ((documentOf calls).update call.payload) := by
        apply PyDict.AgreeOff.set
        rfl
      exact hset.trans (ih.update call.payload)

theorem isRowOf_row {calls : List (UpsertCall F)} {call : UpsertCall F}
    (hposition : call.hasPosition = true) :
    IsRowOf (calls ++ [call])
      (call.row (documentOf (calls ++ [call]))) := by
  rw [UpsertCall.hasPosition, Bool.and_eq_true] at hposition
  rcases hposition with ⟨hlat, hlon⟩
  rcases Option.isSome_iff_exists.mp hlat with ⟨lat, hlat⟩
  rcases Option.isSome_iff_exists.mp hlon with ⟨lon, hlon⟩
  refine ⟨call, List.getLast?_concat, rfl, ?_, ?_, ?_⟩
  · rw [UpsertCall.row, hlat]
    rfl
  · rw [UpsertCall.row, hlon]
    rfl
  · intro key
    split_ifs with hkey
    · rw [hkey, documentOf_concat]
      exact PyDict.get?_set_self _ _ _
    · exact documentOf_agrees (calls ++ [call]) key hkey

/-! ## The rows of a run -/

/-- The rows of the calls of one device, none of them dropped. -/
def rowOf? (calls : List (UpsertCall F)) : Option (HistoryRow F) :=
  (calls.getLast?.filter UpsertCall.hasPosition).map fun call =>
    call.row (documentOf calls)

def rowsOf (calls : List (UpsertCall F)) : List (HistoryRow F) :=
  calls.inits.filterMap rowOf?

theorem inits_concat (calls : List (UpsertCall F)) (call : UpsertCall F) :
    (calls ++ [call]).inits = calls.inits ++ [calls ++ [call]] := by
  rw [List.inits_append]
  rfl

theorem upToPositions_concat (calls : List (UpsertCall F))
    (call : UpsertCall F) :
    upToPositions (calls ++ [call]) =
      if call.hasPosition then upToPositions calls ++ [calls ++ [call]]
      else upToPositions calls := by
  have hlast : endsWithPosition (calls ++ [call]) = call.hasPosition := by
    rw [endsWithPosition, List.getLast?_concat]
    rfl
  rw [upToPositions, inits_concat, List.filter_append]
  split_ifs with hposition
  · rw [List.filter_cons_of_pos (hlast.trans hposition)]
    rfl
  · rw [List.filter_cons_of_neg (by rwa [hlast])]
    exact List.append_nil _

theorem rowOf?_concat (calls : List (UpsertCall F)) (call : UpsertCall F) :
    rowOf? (calls ++ [call]) =
      if call.hasPosition then
        some (call.row (documentOf (calls ++ [call])))
      else none := by
  rw [rowOf?, List.getLast?_concat, Option.filter_some]
  split_ifs <;> rfl

theorem rowsOf_concat (calls : List (UpsertCall F)) (call : UpsertCall F) :
    rowsOf (calls ++ [call]) =
      if call.hasPosition then
        rowsOf calls ++ [call.row (documentOf (calls ++ [call]))]
      else rowsOf calls := by
  have hlast := rowOf?_concat calls call
  rw [rowsOf, inits_concat, List.filterMap_append]
  split_ifs at hlast ⊢
  · rw [List.filterMap_cons_some hlast]
    rfl
  · rw [List.filterMap_cons_none hlast]
    exact List.append_nil _

theorem rtake_concat {α : Type*} (rows : List α) (row : α) (n : ℕ) :
    (rows.rtake n ++ [row]).rtake n = (rows ++ [row]).rtake n := by
  cases n with
  | zero => simp
  | succ n =>
      rw [List.rtake_concat_succ, List.rtake_concat_succ,
        List.rtake_eq_reverse_take_reverse, List.rtake_eq_reverse_take_reverse,
        List.rtake_eq_reverse_take_reverse, List.reverse_reverse,
        List.take_take, Nat.min_eq_left (Nat.le_succ n)]

namespace DeviceShadowStore

/-- The store in memory holds what the calls have left. -/
structure Holds (store : DeviceShadowStore F) (calls : List (UpsertCall F)) :
    Prop where
  url : store.url = "memory"
  mem : ∀ device, (store.mem.get? device).getD [] =
    documentOf (ofDevice device calls)
  rows : ∀ device, store.rows device =
    (rowsOf (ofDevice device calls)).rtake histMaxlen

theorem Holds.opened (ttlS : ℤ) :
    (opened "memory" ttlS : DeviceShadowStore F).Holds [] := by
  constructor
  · rfl
  · intro device
    rfl
  · intro device
    have hrows : rowsOf (ofDevice device ([] : List (UpsertCall F))) = [] :=
      rfl
    rw [hrows, List.rtake_nil]
    rfl

theorem ofDevice_concat (device : String) (calls : List (UpsertCall F))
    (call : UpsertCall F) :
    ofDevice device (calls ++ [call]) =
      if call.deviceId = device then ofDevice device calls ++ [call]
      else ofDevice device calls := by
  unfold ofDevice
  rw [List.filter_append, List.filter_cons, List.filter_nil]
  by_cases hdevice : call.deviceId = device
  · rw [if_pos (by simpa using hdevice), if_pos hdevice]
  · rw [if_neg (by simpa using hdevice), if_neg hdevice, List.append_nil]

theorem Holds.upsert {store : DeviceShadowStore F}
    {calls : List (UpsertCall F)} (h : store.Holds calls)
    (call : UpsertCall F) : (store.upsert call).Holds (calls ++ [call]) := by
  have hcur : (store.mem.get? call.deviceId).getD [] =
      documentOf (ofDevice call.deviceId calls) := h.mem call.deviceId
  rw [DeviceShadowStore.upsert, if_pos h.url]
  constructor
  · exact h.url
  · intro device
    rw [ofDevice_concat, memoryUpsert]
    dsimp only
    rw [PyDict.get?_set]
    split_ifs with hdevice
    · rw [Option.getD_some, hcur, documentOf_concat, hdevice]
    · exact h.mem device
  · intro device
    have hrows : (store.memHist.get? call.deviceId).getD [] =
        (rowsOf (ofDevice call.deviceId calls)).rtake histMaxlen :=
      h.rows call.deviceId
    rw [ofDevice_concat]
    unfold DeviceShadowStore.rows memoryUpsert
    dsimp only
    rw [hcur, hrows, ← List.rtake, rtake_concat, ← documentOf_concat]
    by_cases hdevice : call.deviceId = device
    · rw [if_pos hdevice, hdevice, rowsOf_concat]
      split_ifs with hposition
      · rw [PyDict.get?_set_self, Option.getD_some]
      · exact h.rows device
    · rw [if_neg hdevice]
      split_ifs with hposition
      · rw [PyDict.get?_set_of_ne _ _ hdevice]
        exact h.rows device
      · exact h.rows device

theorem holds_upserts (ttlS : ℤ) (calls : List (UpsertCall F)) :
    (calls.foldl DeviceShadowStore.upsert
      (DeviceShadowStore.opened "memory" ttlS)).Holds calls := by
  induction calls using List.reverseRecOn with
  | nil => exact .opened ttlS
  | append_singleton calls call ih =>
      rw [List.foldl_append]
      exact ih.upsert call

end DeviceShadowStore

/-! ## The rows and their calls -/

theorem forall₂_rowsOf (calls : List (UpsertCall F)) :
    List.Forall₂ IsRowOf (upToPositions calls) (rowsOf calls) := by
  induction calls using List.reverseRecOn with
  | nil => exact .nil
  | append_singleton calls call ih =>
      rw [upToPositions_concat, rowsOf_concat]
      split_ifs with hposition
      · have hlast : List.Forall₂ IsRowOf [calls ++ [call]]
            [call.row (documentOf (calls ++ [call]))] :=
          .cons (isRowOf_row hposition) .nil
        exact List.rel_append ih hlast
      · exact ih

theorem forall₂_rtake {α β : Type*} {R : α → β → Prop} {as : List α}
    {bs : List β} (h : List.Forall₂ R as bs) (n : ℕ) :
    List.Forall₂ R (as.rtake n) (bs.rtake n) := by
  rw [List.rtake, List.rtake, h.length_eq]
  exact List.forall₂_drop _ h

/-! ## Queries -/

theorem HistoryQuery.clamped_eq (q : HistoryQuery) :
    q.clamped =
      (if q.limit = 0 then 100 else max 1 (min q.limit 5000)).toNat := by
  rw [clamped]
  split_ifs
  · rfl
  · rfl

theorem DeviceShadowStore.isPageOf_memoryHistory
    (store : DeviceShadowStore F) (device : String) (q : HistoryQuery) :
    IsPageOf (store.rows device) q (store.memoryHistory device q) := by
  rw [memoryHistory_eq]
  constructor
  · rw [q.clamped_eq]
  · rfl

/-- The history of a device is exact after every run of upserts, and a query
is answered by it. -/
theorem memoryHistory_exact (ttlS : ℤ) (calls : List (UpsertCall F))
    (device : String) :
    let store := calls.foldl DeviceShadowStore.upsert
      (DeviceShadowStore.opened "memory" ttlS)
    List.Forall₂ IsRowOf
        ((upToPositions (ofDevice device calls)).rtake 10000)
        (store.rows device) ∧
      ∀ q, IsPageOf (store.rows device) q (store.history device q) := by
  intro store
  have hholds : store.Holds calls := DeviceShadowStore.holds_upserts ttlS calls
  constructor
  · rw [hholds.rows device]
    exact forall₂_rtake (forall₂_rowsOf (ofDevice device calls)) histMaxlen
  · intro q
    rw [DeviceShadowStore.history, if_pos hholds.url]
    exact store.isPageOf_memoryHistory device q

end BabilCors
