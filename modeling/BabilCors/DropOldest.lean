import Mathlib.Tactic

/-!
# A queue that drops its oldest item

Items come one after another.  A queue of a fixed capacity takes each of them,
and when it is full it first drops its oldest item.  A consumer takes items
out.  Positions in the sequence of all items say which of them the queue holds,
which were taken and which were lost.
-/

namespace DropOldest

variable {α : Type*}

def push (capacity : ℕ) (queue : List α) (item : α) : List α :=
  (if capacity ≤ queue.length then queue.tail else queue) ++ [item]

/-- The queue holds all items from a position on.  Of those before it some
were taken, in their order, and the others were lost when the queue was full of
newer ones. -/
structure Kept (capacity : ℕ) (items queue received : List α)
    (first : ℕ) (taken : List ℕ) : Prop where
  queue : queue = items.drop first
  first_le : first ≤ items.length
  length_le : items.length ≤ first + capacity
  received : received.map some = taken.map fun k => items[k]?
  increasing : taken.Pairwise (· < ·)
  taken_lt : ∀ k ∈ taken, k < first
  lost : ∀ k < first, k ∉ taken → k + capacity < items.length

/-- Items at increasing positions are a subsequence. -/
theorem sublist_take {items received : List α} {taken : List ℕ} {n : ℕ}
    (hreceived : received.map some = taken.map fun k => items[k]?)
    (hincreasing : taken.Pairwise (· < ·)) (hlt : ∀ k ∈ taken, k < n) :
    received.Sublist (items.take n) := by
  induction taken using List.reverseRecOn generalizing received n with
  | nil =>
      obtain rfl : received = [] := List.map_eq_nil_iff.mp hreceived
      exact List.nil_sublist _
  | append_singleton taken k ih =>
      obtain ⟨before, last, rfl, hbefore, hlast⟩ :=
        List.map_eq_append_iff.mp (hreceived.trans List.map_append)
      obtain ⟨x, rfl, hx⟩ := List.map_eq_singleton_iff.mp hlast
      obtain ⟨hinit, -, hbelow⟩ := List.pairwise_append.mp hincreasing
      have hfront : before.Sublist (items.take k) :=
        ih hbefore hinit fun j hj => hbelow j hj k List.mem_cons_self
      have hk : k < n := hlt k (List.mem_append_right _ List.mem_cons_self)
      have hsucc : items.take (k + 1) = items.take k ++ [x] := by
        have hget : items[k]? = some x := hx.symm
        rw [List.take_add_one, hget]
        rfl
      have htake : (items.take (k + 1)).Sublist (items.take n) :=
        List.take_sublist_take_left hk
      rw [hsucc] at htake
      exact (hfront.append (List.Sublist.refl [x])).trans htake

namespace Kept

variable {capacity first : ℕ} {items queue received : List α}
  {taken : List ℕ}

theorem nil (capacity : ℕ) :
    Kept capacity ([] : List α) [] [] 0 [] where
  queue := rfl
  first_le := le_rfl
  length_le := Nat.zero_le _
  received := rfl
  increasing := .nil
  taken_lt := nofun
  lost := nofun

theorem length_queue (h : Kept capacity items queue received first taken) :
    queue.length = items.length - first := by
  rw [h.queue, List.length_drop]

theorem length_queue_le
    (h : Kept capacity items queue received first taken) :
    queue.length ≤ capacity := by
  have hle := h.length_le
  rw [h.length_queue]
  omega

/-- What was taken, and then what is held, is in the order of the items. -/
theorem sublist (h : Kept capacity items queue received first taken) :
    (received ++ queue).Sublist items := by
  have hreceived := sublist_take h.received h.increasing h.taken_lt
  have hitems : items = items.take first ++ items.drop first :=
    (List.take_append_drop first items).symm
  rw [h.queue]
  conv_rhs => rw [hitems]
  exact hreceived.append (List.Sublist.refl _)

/-- More items change nothing at the positions before them. -/
theorem received_append
    (h : Kept capacity items queue received first taken) (item : α) :
    received.map some = taken.map fun k => (items ++ [item])[k]? := by
  rw [h.received]
  apply List.map_congr_left
  intro k hk
  have hlt := h.taken_lt k hk
  have hle := h.first_le
  rw [List.getElem?_append_left (by omega)]

theorem push (h : Kept capacity items queue received first taken)
    (hcapacity : 0 < capacity) (item : α) :
    ∃ first', Kept capacity (items ++ [item])
      (DropOldest.push capacity queue item) received first' taken := by
  have hlength := h.length_queue
  have hfirst := h.first_le
  have hmax := h.length_le
  have hcount : (items ++ [item]).length = items.length + 1 :=
    List.length_append
  unfold DropOldest.push
  split_ifs with hfull
  · -- the oldest item goes, and the queue is full of those behind it
    refine ⟨first + 1, ?_, ?_, ?_, h.received_append item, h.increasing, ?_,
      ?_⟩
    · rw [h.queue, List.tail_drop, List.drop_append_of_le_length (by omega)]
    · omega
    · omega
    · intro k hk
      exact Nat.lt_succ_of_lt (h.taken_lt k hk)
    · intro k hk hlost
      rcases Nat.lt_succ_iff_lt_or_eq.mp hk with hbefore | rfl
      · have hold := h.lost k hbefore hlost
        omega
      · omega
  · refine ⟨first, ?_, ?_, ?_, h.received_append item, h.increasing,
      h.taken_lt, ?_⟩
    · rw [h.queue, List.drop_append_of_le_length hfirst]
    · omega
    · omega
    · intro k hk hlost
      have hold := h.lost k hk hlost
      omega

theorem take {item : α} {rest : List α}
    (h : Kept capacity items (item :: rest) received first taken) :
    Kept capacity items rest (received ++ [item]) (first + 1)
      (taken ++ [first]) := by
  have hlength := h.length_queue
  rw [List.length_cons] at hlength
  have hhead : items[first]? = some item := by
    have hdrop : (items.drop first)[0]? = some item := by
      rw [← h.queue]
      rfl
    rw [List.getElem?_drop] at hdrop
    exact hdrop
  have hmax := h.length_le
  constructor
  · have htail := congrArg List.tail h.queue
    rw [List.tail_drop] at htail
    exact htail
  · omega
  · omega
  · rw [List.map_append, List.map_append, h.received]
    simp [hhead]
  · rw [List.pairwise_append]
    refine ⟨h.increasing, List.pairwise_singleton _ _, ?_⟩
    intro k hk j hj
    rw [List.mem_singleton.mp hj]
    exact h.taken_lt k hk
  · intro k hk
    rcases List.mem_append.mp hk with hold | hnew
    · exact Nat.lt_succ_of_lt (h.taken_lt k hold)
    · rw [List.mem_singleton.mp hnew]
      exact Nat.lt_succ_self first
  · intro k hk hlost
    rw [List.mem_append, List.mem_singleton, not_or] at hlost
    exact h.lost k (by omega) hlost.1

end Kept

end DropOldest
