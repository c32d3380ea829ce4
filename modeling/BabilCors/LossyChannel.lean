import Mathlib.Tactic

/-!
# A channel that drops whole batches

A sender offers batches of items in order.  The channel takes a batch or drops
it, and later delivers or loses the oldest batch it holds.  Whatever it does,
what it has delivered, followed by what it still holds, is a subsequence of
what was offered.
-/

namespace LossyChannel

variable {α : Type*}

structure Channel (α : Type*) where
  offered : List α
  delivered : List α
  /-- The batches taken and not yet delivered, oldest first. -/
  pending : List (List α)

namespace Channel

/-- Order is kept and nothing is repeated or invented. -/
def Faithful (c : Channel α) : Prop :=
  (c.delivered ++ c.pending.flatten).Sublist c.offered

def openAt (offered : List α) : Channel α :=
  ⟨offered, [], []⟩

def take (c : Channel α) (batch : List α) : Channel α :=
  ⟨c.offered ++ batch, c.delivered, c.pending ++ [batch]⟩

def drop (c : Channel α) (batch : List α) : Channel α :=
  { c with offered := c.offered ++ batch }

def deliver (c : Channel α) : Channel α :=
  { c with
    delivered := c.delivered ++ c.pending.head?.getD []
    pending := c.pending.tail }

def lose (c : Channel α) : Channel α :=
  { c with pending := c.pending.tail }

theorem faithful_openAt (offered : List α) : (openAt offered).Faithful :=
  List.nil_sublist offered

theorem Faithful.take {c : Channel α} (hc : c.Faithful) (batch : List α) :
    (c.take batch).Faithful := by
  have happend : (c.delivered ++ (c.pending ++ [batch]).flatten) =
      (c.delivered ++ c.pending.flatten) ++ batch := by
    simp
  unfold Faithful Channel.take
  rw [happend]
  exact hc.append (List.Sublist.refl batch)

theorem Faithful.drop {c : Channel α} (hc : c.Faithful) (batch : List α) :
    (c.drop batch).Faithful :=
  hc.trans (List.sublist_append_left c.offered batch)

theorem Faithful.deliver {c : Channel α} (hc : c.Faithful) :
    c.deliver.Faithful := by
  unfold Faithful Channel.deliver at *
  cases hpending : c.pending with
  | nil => simpa [hpending] using hc
  | cons batch rest => simpa [hpending] using hc

theorem Faithful.lose {c : Channel α} (hc : c.Faithful) :
    c.lose.Faithful := by
  refine List.Sublist.trans ?_ hc
  unfold Channel.lose
  cases c.pending with
  | nil => simp
  | cons batch rest => simp

theorem Faithful.delivered_sublist {c : Channel α} (hc : c.Faithful) :
    c.delivered.Sublist c.offered :=
  (List.sublist_append_left _ _).trans hc

end Channel

end LossyChannel
