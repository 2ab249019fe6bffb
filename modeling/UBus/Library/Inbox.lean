import Mathlib.Data.List.Infix

/-!
# Delivery in order

Items are handed out to a receiver one round at a time, over a channel that
keeps their order.  The account of the receiver says which items it is to get,
which it has received, which are in transit, and which one the round in
progress still owes it.  A receiver that has joined during a round may get the
item of that round too, but it is not counted on.
-/

structure Inbox (Item : Type*) where
  due : List Item
  received : List Item
  transit : List Item
  owed : Option Item
  late : Bool

namespace Inbox

variable {Item : Type*} {inbox : Inbox Item} {item : Item}

/-- The receiver gets the items it is to get, in their order and once each, and
at most one more before them.  As long as it may get that one, it has got
nothing. -/
structure InOrder (inbox : Inbox Item) : Prop where
  account : ∃ early : List Item, early.length ≤ 1 ∧
    early ++ inbox.due = inbox.received ++ inbox.transit ++ inbox.owed.toList
  late : inbox.late = true → inbox.received = [] ∧ inbox.transit = [] ∧ inbox.owed = none

/-- A receiver that joins has no items, whether it joins late or not. -/
theorem InOrder.joined (late : Bool) : (⟨[], [], [], none, late⟩ : Inbox Item).InOrder :=
  ⟨⟨[], by simp, rfl⟩, fun _ => ⟨rfl, rfl, rfl⟩⟩

theorem InOrder.announce (inOrder : inbox.InOrder) (nothing : inbox.owed = none) :
    { inbox with due := inbox.due ++ [item], owed := some item, late := false }.InOrder := by
  obtain ⟨early, short, account⟩ := inOrder.account
  refine ⟨⟨early, short, ?_⟩, by simp⟩
  rw [nothing, Option.toList_none, List.append_nil] at account
  calc
    early ++ (inbox.due ++ [item]) = early ++ inbox.due ++ [item] := (List.append_assoc ..).symm
    _ = inbox.received ++ inbox.transit ++ [item] := by rw [account]

theorem InOrder.hand (inOrder : inbox.InOrder) (isOwed : inbox.owed = some item) :
    { inbox with transit := inbox.transit ++ [item], owed := none, late := false }.InOrder := by
  obtain ⟨early, short, account⟩ := inOrder.account
  refine ⟨⟨early, short, ?_⟩, by simp⟩
  rw [isOwed] at account
  simpa using account

/-- The item of the round during which the receiver has joined comes before all
that it is to get. -/
theorem InOrder.handLate (inOrder : inbox.InOrder) (isLate : inbox.late = true) :
    { inbox with transit := inbox.transit ++ [item], owed := none, late := false }.InOrder := by
  obtain ⟨early, short, account⟩ := inOrder.account
  obtain ⟨received, transit, owed⟩ := inOrder.late isLate
  rw [received, transit, owed] at account
  obtain ⟨rfl, due⟩ := List.append_eq_nil_iff.mp account
  exact ⟨⟨[item], le_rfl, by simp [received, transit, due]⟩, by simp⟩

theorem InOrder.take {rest : List Item} (inOrder : inbox.InOrder)
    (transit : inbox.transit = item :: rest) :
    { inbox with received := inbox.received ++ [item], transit := rest }.InOrder := by
  obtain ⟨early, short, account⟩ := inOrder.account
  refine ⟨⟨early, short, ?_⟩, fun isLate => ?_⟩
  · rw [transit] at account
    simpa using account
  · have nothing := (inOrder.late isLate).2.1
    simp [transit] at nothing

theorem InOrder.finish (inOrder : inbox.InOrder) (nothing : inbox.owed = none) :
    { inbox with owed := none, late := false }.InOrder := by
  obtain ⟨early, short, account⟩ := inOrder.account
  exact ⟨⟨early, short, nothing ▸ account⟩, by simp⟩

end Inbox
