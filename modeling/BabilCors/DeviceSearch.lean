import BabilCors.MemoryHistory
import BabilCors.PyText

/-!
# Searching the devices

`search` of the store in memory goes over the documents once, counts those
whose device begins with the query and keeps the first of them.  The devices
come in the order of their first upserts.
-/

namespace BabilCors

open Py

variable {F : Type}

structure SearchPage (F : Type) where
  items : List (String × Document F)
  total : ℕ

/-- One pass of the loop. -/
def SearchPage.visit (query : String) (cap : ℕ) (page : SearchPage F)
    (entry : String × Document F) : SearchPage F :=
  if query ≠ "" ∧ startsWith entry.1 query = false then page
  else
    { items :=
        if page.items.length < cap then page.items ++ [entry] else page.items
      total := page.total + 1 }

/-- `max(1, min(limit, 1000))`. -/
def searchCap (limit : ℤ) : ℕ :=
  (max 1 (min limit 1000)).toNat

def DeviceShadowStore.memorySearch (store : DeviceShadowStore F)
    (query : String) (limit : ℤ) : SearchPage F :=
  store.mem.foldl (SearchPage.visit query (searchCap limit)) ⟨[], 0⟩

/-! ## The page -/

theorem startsWith_empty (s : String) : startsWith s "" = true := by
  simp [startsWith]

theorem SearchPage.visit_eq (query : String) (cap : ℕ) (page : SearchPage F)
    (entry : String × Document F) :
    page.visit query cap entry =
      if startsWith entry.1 query then
        { items :=
            if page.items.length < cap then page.items ++ [entry]
            else page.items
          total := page.total + 1 }
      else page := by
  unfold visit
  by_cases hquery : query = ""
  · simp [hquery, startsWith_empty]
  · cases startsWith entry.1 query with
    | true => simp
    | false => simp [hquery]

/-- The first matches, and the number of them all. -/
theorem foldl_visit (query : String) (cap : ℕ)
    (entries : List (String × Document F)) :
    entries.foldl (SearchPage.visit query cap) ⟨[], 0⟩ =
      { items := (entries.filter fun e => startsWith e.1 query).take cap
        total := (entries.filter fun e => startsWith e.1 query).length } := by
  induction entries using List.reverseRecOn with
  | nil => simp
  | append_singleton entries entry ih =>
      rw [List.foldl_append, ih, List.foldl_cons, List.foldl_nil,
        SearchPage.visit_eq, List.filter_append]
      cases hmatch : startsWith entry.1 query with
      | false => simp [hmatch]
      | true =>
          simp only [if_true, List.filter_cons, hmatch, List.filter_nil,
            List.length_append, List.length_singleton, List.take_append,
            SearchPage.mk.injEq, and_true]
          rw [List.length_take]
          split_ifs with hroom
          · have hfew : (entries.filter fun e =>
                startsWith e.1 query).length < cap := by
              omega
            obtain ⟨room, hroom⟩ := Nat.exists_eq_add_of_lt hfew
            have hone : cap - (entries.filter fun e =>
                startsWith e.1 query).length = room + 1 := by
              omega
            rw [hone, List.take_succ_cons, List.take_nil]
          · have hfull : cap - (entries.filter fun e =>
                startsWith e.1 query).length = 0 := by
              omega
            rw [hfull, List.take_zero, List.append_nil]

/-! ## The devices of a run -/

/-- The devices in the order of their first upserts. -/
def devicesOf (calls : List (UpsertCall F)) : List String :=
  (calls.map UpsertCall.deviceId).eraseDups

theorem devicesOf_concat (calls : List (UpsertCall F))
    (call : UpsertCall F) :
    devicesOf (calls ++ [call]) =
      if call.deviceId ∈ devicesOf calls then devicesOf calls
      else devicesOf calls ++ [call.deviceId] := by
  unfold devicesOf
  rw [List.map_append, List.eraseDups_append, List.map_singleton]
  by_cases hmem : call.deviceId ∈ calls.map UpsertCall.deviceId
  · rw [if_pos (List.mem_eraseDups.mpr hmem)]
    have hold : [call.deviceId].removeAll
        (calls.map UpsertCall.deviceId) = [] := by
      simpa [List.removeAll] using hmem
    rw [hold, List.eraseDups_nil, List.append_nil]
  · rw [if_neg fun h => hmem (List.mem_eraseDups.mp h)]
    have hnew : [call.deviceId].removeAll
        (calls.map UpsertCall.deviceId) = [call.deviceId] := by
      simpa [List.removeAll] using hmem
    rw [hnew]
    rfl

theorem keys_upserts (ttlS : ℤ) (calls : List (UpsertCall F)) :
    (calls.foldl DeviceShadowStore.upsert
      (DeviceShadowStore.opened "memory" ttlS)).mem.keys =
      devicesOf calls := by
  induction calls using List.reverseRecOn with
  | nil => rfl
  | append_singleton calls call ih =>
      have hurl := (DeviceShadowStore.holds_upserts ttlS calls).url
      rw [List.foldl_append, List.foldl_cons, List.foldl_nil,
        DeviceShadowStore.upsert, if_pos hurl, devicesOf_concat, ← ih]
      exact PyDict.keys_set _ _ _

theorem nodup_upserts (ttlS : ℤ) (calls : List (UpsertCall F)) :
    (calls.foldl DeviceShadowStore.upsert
      (DeviceShadowStore.opened "memory" ttlS)).mem.keys.Nodup := by
  induction calls using List.reverseRecOn with
  | nil => exact List.nodup_nil
  | append_singleton calls call ih =>
      have hurl := (DeviceShadowStore.holds_upserts ttlS calls).url
      rw [List.foldl_append, List.foldl_cons, List.foldl_nil,
        DeviceShadowStore.upsert, if_pos hurl]
      exact PyDict.nodup_keys_set ih _ _

/-- The documents of the store are those of its devices, in their order. -/
theorem mem_upserts (ttlS : ℤ) (calls : List (UpsertCall F)) :
    (calls.foldl DeviceShadowStore.upsert
      (DeviceShadowStore.opened "memory" ttlS)).mem =
      (devicesOf calls).map fun device =>
        (device, documentOf (ofDevice device calls)) := by
  have hentries := PyDict.eq_map_keys (nodup_upserts ttlS calls) []
  rw [hentries, keys_upserts]
  apply List.map_congr_left
  intro device _
  rw [(DeviceShadowStore.holds_upserts ttlS calls).mem device]

/-- After every run of upserts a search counts the devices that begin with the
query and answers with the first of them, each under the document of its own
upserts. -/
theorem memorySearch_exact (ttlS : ℤ) (calls : List (UpsertCall F))
    (query : String) (limit : ℤ) :
    let page := (calls.foldl DeviceShadowStore.upsert
      (DeviceShadowStore.opened "memory" ttlS)).memorySearch query limit
    let found := (devicesOf calls).filter fun device =>
      startsWith device query
    page.total = found.length ∧
      page.items = (found.take (max 1 (min limit 1000)).toNat).map
        fun device => (device, documentOf (ofDevice device calls)) := by
  intro page found
  have hpage : page = ⟨_, _⟩ := foldl_visit query (searchCap limit) _
  have hfound : ((devicesOf calls).map fun device =>
      (device, documentOf (ofDevice device calls))).filter
        (fun e => startsWith e.1 query) =
      found.map fun device => (device, documentOf (ofDevice device calls)) :=
    List.filter_map
  rw [mem_upserts, hfound] at hpage
  rw [hpage]
  refine ⟨List.length_map _, ?_⟩
  exact List.map_take.symm

end BabilCors
