import Mathlib.Logic.Basic

/-!
# Reliable ordered channels

A channel carries items from a sender to a receiver. Every item ever sent is in one of four places: the receiver has it
(`got`), it has arrived and waits to be received (`ready`), it is on its way (`wire`), or the sender gave up on it
(`abandoned`). Items move only from one place to the next, so the order is kept by construction, and `sent`, the four places
put together, is the history of what was sent. A channel whose sender has given up takes nothing more.
-/

/-- A reliable ordered channel, with the history of what went through it. -/
structure Fifo (α : Type) where
  got : List α
  ready : List α
  wire : List α
  abandoned : Option (List α)
deriving DecidableEq, Repr

namespace Fifo

variable {α : Type}

/-- A channel nothing was sent on. -/
def empty : Fifo α := ⟨[], [], [], none⟩

/-- Everything that was ever sent, in order. -/
def sent (f : Fifo α) : List α := f.got ++ f.ready ++ f.wire ++ f.abandoned.getD []

/-- Send more items; on an abandoned channel this does nothing. -/
def push (f : Fifo α) (xs : List α) : Fifo α :=
  match f.abandoned with
  | none => { f with wire := f.wire ++ xs }
  | some _ => f

/-- The next `k` items on their way arrive. -/
def deliver (f : Fifo α) (k : Nat) : Fifo α := { f with ready := f.ready ++ f.wire.take k, wire := f.wire.drop k }

/-- The receiver takes the next `k` items that have arrived. -/
def pull (f : Fifo α) (k : Nat) : Fifo α := { f with got := f.got ++ f.ready.take k, ready := f.ready.drop k }

/-- The sender gives up on the items still on their way. -/
def abandon (f : Fifo α) : Fifo α :=
  match f.abandoned with
  | none => { f with wire := [], abandoned := some f.wire }
  | some _ => f

@[simp] theorem push_got (f : Fifo α) (xs : List α) : (f.push xs).got = f.got := by
  unfold push
  split <;> rfl

@[simp] theorem push_abandoned (f : Fifo α) (xs : List α) : (f.push xs).abandoned = f.abandoned := by
  unfold push
  split <;> rfl

@[simp] theorem push_nil (f : Fifo α) : f.push [] = f := by
  unfold push
  split
  · rw [List.append_nil]
  · rfl

/-- What is sent on an open channel is added to the history. -/
theorem sent_push {f : Fifo α} (h : f.abandoned = none) (xs : List α) : (f.push xs).sent = f.sent ++ xs := by
  simp [push, sent, h]

@[simp] theorem deliver_got (f : Fifo α) (k : Nat) : (f.deliver k).got = f.got := rfl

@[simp] theorem deliver_abandoned (f : Fifo α) (k : Nat) : (f.deliver k).abandoned = f.abandoned := rfl

/-- Delivery changes nothing about what was sent. -/
@[simp] theorem sent_deliver (f : Fifo α) (k : Nat) : (f.deliver k).sent = f.sent := by
  simp only [deliver, sent, List.append_assoc, List.append_cancel_left_eq]
  rw [← List.append_assoc (f.wire.take k), List.take_append_drop]

@[simp] theorem pull_got (f : Fifo α) (k : Nat) : (f.pull k).got = f.got ++ f.ready.take k := rfl

@[simp] theorem pull_abandoned (f : Fifo α) (k : Nat) : (f.pull k).abandoned = f.abandoned := rfl

/-- Receiving changes nothing about what was sent. -/
@[simp] theorem sent_pull (f : Fifo α) (k : Nat) : (f.pull k).sent = f.sent := by
  simp only [pull, sent, List.append_assoc, List.append_cancel_left_eq]
  rw [← List.append_assoc (f.ready.take k), List.take_append_drop]

@[simp] theorem abandon_got (f : Fifo α) : f.abandon.got = f.got := by
  unfold abandon
  split <;> rfl

/-- Giving up changes nothing about what was sent. -/
@[simp] theorem sent_abandon (f : Fifo α) : f.abandon.sent = f.sent := by
  unfold abandon
  split
  · rename_i h
    simp [sent, h]
  · rfl

/-- What the receiver has is a prefix of what was sent. -/
theorem got_prefix_sent (f : Fifo α) : f.got <+: f.sent :=
  ⟨f.ready ++ f.wire ++ f.abandoned.getD [], by simp only [sent, List.append_assoc]⟩

/-- With nothing waiting, on its way or given up, the receiver has everything. -/
theorem got_eq_sent {f : Fifo α} (hr : f.ready = []) (hw : f.wire = []) (ha : f.abandoned = none) : f.got = f.sent := by
  simp [sent, hr, hw, ha]

end Fifo
