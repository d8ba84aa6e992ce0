import Mathlib.Data.List.Basic

/-!
# Ideal pipes

What an ordered channel is for: what has been received is at any time a prefix of what has been sent. A pipe has no inside;
it says nothing about when something sent can be received.
-/

/-- An ideal pipe: what was sent into it, and what was received from it. -/
structure Pipe (α : Type) where
  sent : List α
  received : List α
  inOrder : received <+: sent

namespace Pipe

variable {α : Type}

/-- A pipe that nothing was sent into. -/
def empty : Pipe α := ⟨[], [], List.prefix_refl []⟩

/-- Send more items. -/
def send (p : Pipe α) (xs : List α) : Pipe α := ⟨p.sent ++ xs, p.received, p.inOrder.trans (List.prefix_append _ _)⟩

/-- Receive these items: they have to be the next ones that were sent. -/
def receive [DecidableEq α] (p : Pipe α) (xs : List α) : Option (Pipe α) :=
  if h : p.received ++ xs <+: p.sent then some ⟨p.sent, p.received ++ xs, h⟩ else none

/-- The next items that were sent can be received. -/
theorem receive_next [DecidableEq α] {p : Pipe α} {xs : List α} (h : p.received ++ xs <+: p.sent) :
    p.receive xs = some ⟨p.sent, p.received ++ xs, h⟩ := dif_pos h

end Pipe
