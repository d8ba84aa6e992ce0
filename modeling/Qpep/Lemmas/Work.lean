import Mathlib.Algebra.Ring.Nat
import Qpep.Lemmas.Alive
import Qpep.Lib.Potential

/-!
# The work on a connection

Each byte that an endpoint sends passes through the same stages: on its way to the proxy, arrived, in the buffer of a
goroutine, on its way through the stream, arrived, in a buffer again, on its way to the other endpoint, arrived. A byte
counts for more the further it has to go, a handler and a goroutine for the steps they have left, and so does everything
that can happen only once. The sum goes down with every step on a connection or a stream but a send.
-/

namespace Qpep

open Io Machine HeaderAux Server.ServerAux

/-- What a TCP connection has still to go through: its bytes, and what its endpoint and the network can do once. -/
def Sock.potential (s : Sock) : Nat :=
  8 * s.inn.wire.length + 7 * s.inn.ready.length + 2 * s.out.wire.length + s.out.ready.length +
    ((!s.fin).toNat + (!s.gone).toNat + (!s.broken).toNat)

/-- The bytes that one direction of a stream has still to deliver. -/
def Half.potential (h : Half) : Nat := 5 * h.bytes.wire.length + 4 * h.bytes.ready.length

/-- The steps that a goroutine has left, apart from those that further bytes bring: a Write can hand over its bytes one by
one. -/
def Loop.rank : Loop → Nat
  | .copy .read => 2
  | .copy (.write buf _) => max 1 buf.length + 2
  | .copy (.ended _) => 1
  | .done _ => 0

/-- What a byte in the buffer of a goroutine counts for: as much as one on its way behind it. -/
def LoopName.weight : LoopName → Nat
  | .streamTCPtoQUIC => 5
  | .streamQUICtoTCP => 2

/-- What a goroutine has left to do. -/
def Loop.potential (l : Loop) (n : LoopName) : Nat := l.rank + n.weight * l.held.length

/-- What a side holds for the connection. -/
def Port.potential (p : Port) : Nat := p.sock.potential + p.out.potential + p.inn.potential

theorem Fifo.push_wire_length {α : Type} (f : Fifo α) (xs : List α) : (f.push xs).wire.length ≤ f.wire.length + xs.length := by
  unfold Fifo.push
  split <;> simp

@[simp] theorem Fifo.push_ready {α : Type} (f : Fifo α) (xs : List α) : (f.push xs).ready = f.ready := by
  unfold Fifo.push
  split <;> rfl

/-- What is written to a connection is on its way at most. -/
theorem Sock.potential_push (s : Sock) (xs : List UInt8) :
    ({ s with out := s.out.push xs } : Sock).potential ≤ s.potential + 2 * xs.length := by
  have hlen := Fifo.push_wire_length s.out xs
  simp only [Sock.potential, Fifo.push_ready]
  omega

/-- What is read from a connection has arrived on it. -/
theorem Sock.potential_pull (s : Sock) (k : Nat) (hk : k ≤ s.inn.ready.length) :
    ({ s with inn := s.inn.pull k } : Sock).potential + 7 * k = s.potential := by
  simp only [Sock.potential, Fifo.pull, List.length_drop]
  omega

/-- What is written to a stream is on its way at most. -/
theorem Half.potential_push (h : Half) (xs : List UInt8) (dead : Bool) :
    ({ h with bytes := h.bytes.push xs, dead := dead } : Half).potential ≤ h.potential + 5 * xs.length := by
  have hlen := Fifo.push_wire_length h.bytes xs
  simp only [Half.potential, Fifo.push_ready]
  omega

/-- What is read from a stream has arrived on it. -/
theorem Half.potential_pull (h : Half) (k : Nat) (hk : k ≤ h.bytes.ready.length) :
    ({ h with bytes := h.bytes.pull k } : Half).potential + 4 * k = h.potential := by
  simp only [Half.potential, Fifo.pull, List.length_drop]
  omega

/-- A delivery on a stream moves its bytes on. -/
theorem Half.potential_deliver (h : Half) {k : Nat} (hpos : 0 < k) (hk : k ≤ h.bytes.wire.length) :
    ({ h with bytes := h.bytes.deliver k } : Half).potential < h.potential := by
  simp only [Half.potential, Fifo.deliver, List.length_append, List.length_take, List.length_drop]
  omega

/-- The bytes that an endpoint's step sends. -/
def SockEnv.sent : SockEnv → List UInt8
  | .send bs => bs
  | _ => []

/-- The step is a send. -/
def SockEnv.sends : SockEnv → Bool
  | .send _ => true
  | _ => false

/-- What an endpoint and the network do on a TCP connection lowers its potential, unless it is a send. -/
theorem Sock.potential_env {s s' : Sock} {e : SockEnv} (h : s.env e = some s') :
    s'.potential + 1 ≤ s.potential + (8 * e.sent.length + e.sends.toNat) := by
  cases e with
  | send bs =>
    simp only [Sock.env, Option.ite_none_right_eq_some, Option.some.injEq] at h
    obtain ⟨-, rfl⟩ := h
    have hlen := Fifo.push_wire_length s.inn bs
    simp only [Sock.potential, Fifo.push_ready, SockEnv.sent, SockEnv.sends, Bool.toNat_true]
    omega
  | finish =>
    simp only [Sock.env, Option.ite_none_right_eq_some, Option.some.injEq] at h
    obtain ⟨hf, rfl⟩ := h
    simp only [Sock.potential, hf, SockEnv.sent, SockEnv.sends, Bool.toNat_true, Bool.toNat_false, Bool.not_true, Bool.not_false,
      List.length_nil]
    omega
  | leave =>
    simp only [Sock.env, Option.ite_none_right_eq_some, Option.some.injEq] at h
    obtain ⟨hg, rfl⟩ := h
    simp only [Sock.potential, hg, SockEnv.sent, SockEnv.sends, Bool.toNat_true, Bool.toNat_false, Bool.not_true, Bool.not_false,
      List.length_nil]
    omega
  | receive k =>
    simp only [Sock.env, Option.ite_none_right_eq_some, Option.some.injEq] at h
    obtain ⟨⟨-, hpos, hk⟩, rfl⟩ := h
    simp only [Sock.potential, Fifo.pull, List.length_drop]
    omega
  | deliverIn k =>
    simp only [Sock.env, Option.ite_none_right_eq_some, Option.some.injEq] at h
    obtain ⟨⟨hpos, hk⟩, rfl⟩ := h
    simp only [Sock.potential, Fifo.deliver, List.length_append, List.length_take, List.length_drop]
    omega
  | deliverOut k =>
    simp only [Sock.env, Option.ite_none_right_eq_some, Option.some.injEq] at h
    obtain ⟨⟨-, hpos, hk⟩, rfl⟩ := h
    simp only [Sock.potential, Fifo.deliver, List.length_append, List.length_take, List.length_drop]
    omega
  | fault =>
    simp only [Sock.env, Option.ite_none_right_eq_some, Option.some.injEq] at h
    obtain ⟨hb, rfl⟩ := h
    simp only [Sock.fault, Sock.potential, hb, SockEnv.sent, SockEnv.sends, Bool.toNat_true, Bool.toNat_false, Bool.not_true,
      Bool.not_false,
      List.length_nil]
    omega

/-- A connection that breaks has no more to go through than before. -/
theorem Sock.potential_fault (s : Sock) : s.fault.potential ≤ s.potential := by
  simp only [Sock.potential, Sock.fault, Bool.not_true, Bool.toNat_false]
  omega

/-- A Read of a connection takes what has arrived, and brings data or an error. -/
theorem Sock.read_length {s s' : Sock} {k : Nat} {er : Option IoErr} {bs : List UInt8} (h : s.read k er = some (bs, s')) :
    bs = s.inn.ready.take k ∧ s' = { s with inn := s.inn.pull k } ∧ k ≤ s.inn.ready.length ∧ (er = none → bs ≠ []) := by
  obtain ⟨rfl, rfl, hdata, heof, hother⟩ := Sock.read_some h
  have hk : k ≤ s.inn.ready.length := by
    cases er with
    | none => exact (hdata rfl).2.1
    | some e =>
      cases e with
      | EOF => simp [(heof rfl).1]
      | other => simp [(hother rfl).1]
  refine ⟨rfl, rfl, hk, ?_⟩
  intro he
  have hpos := (hdata he).1
  rw [Ne, ← List.length_eq_zero_iff, List.length_take]
  omega

/-- A Read of a stream takes what has arrived, and brings data or an error. -/
theorem Half.read_length {h h' : Half} {down : Bool} {k : Nat} {er : Option IoErr} {bs : List UInt8}
    (hr : h.read down k er = some (bs, h')) :
    bs = h.bytes.ready.take k ∧ h' = { h with bytes := h.bytes.pull k } ∧ k ≤ h.bytes.ready.length ∧ (er = none → bs ≠ []) := by
  obtain ⟨rfl, rfl, hdata, heof, -⟩ := Half.read_some hr
  have hk : k ≤ h.bytes.ready.length := by
    cases er with
    | none => exact (hdata rfl).2
    | some e =>
      cases e with
      | EOF => exact Nat.le_of_eq (heof rfl).1
      | other =>
        simp only [Half.read, Option.ite_none_right_eq_some, Bool.and_eq_true, decide_eq_true_eq] at hr
        exact hr.1.1
  refine ⟨rfl, rfl, hk, ?_⟩
  intro he
  have hpos := (hdata he).1
  rw [Ne, ← List.length_eq_zero_iff, List.length_take]
  omega

/-- What an endpoint sends is added to what it has sent; nothing else is. -/
theorem Sock.sent_env {s s' : Sock} {e : SockEnv} (h : s.env e = some s') (hk : s.inn.abandoned = none) :
    s'.inn.sent = s.inn.sent ++ e.sent := by
  cases e with
  | send bs =>
    simp only [Sock.env, Option.ite_none_right_eq_some, Option.some.injEq] at h
    obtain ⟨-, rfl⟩ := h
    exact Fifo.sent_push hk bs
  | _ =>
    simp only [Sock.env, Option.ite_none_right_eq_some, Option.some.injEq] at h
    obtain ⟨-, rfl⟩ := h
    simp [SockEnv.sent]

/-- A Read by a goroutine fills its buffer, or brings nothing but an error. -/
theorem Loop.potential_read {bs : List UInt8} {er : Option IoErr} {c : Copy} (n : LoopName)
    (hc : Copy.read.step (.read bs er) = some c) (hne : er = none → bs ≠ []) :
    (Loop.copy c).potential n + 1 ≤ (Loop.copy .read).potential n + (n.weight + 2) * bs.length := by
  obtain ⟨-, ⟨hb, rfl⟩ | ⟨hb, her, -⟩ | ⟨e, rfl, -, rfl⟩⟩ := Copy.step_read hc
  · have hpos : 0 < bs.length := List.length_pos_iff.mpr hb
    simp only [Loop.potential, Loop.rank, Loop.held, Copy.held, List.length_nil, Nat.mul_zero, Nat.add_mul]
    omega
  · exact absurd hb (hne her)
  · simp [Loop.potential, Loop.rank, Loop.held, Copy.held]

/-- A Write by a goroutine empties its buffer. -/
theorem Loop.potential_write {buf : List UInt8} {er ew : Option IoErr} {k : Nat} {c : Copy} (n : LoopName)
    (hc : (Copy.write buf er).step (.write k ew) = some c) :
    (Loop.copy c).potential n + n.weight * buf.length + 1 ≤ (Loop.copy (.write buf er)).potential n := by
  obtain ⟨_, _, hcw, ⟨-, rfl⟩ | ⟨-, -, ⟨-, rfl⟩ | ⟨e, -, rfl⟩⟩⟩ := Copy.step_write hc
  all_goals
    cases hcw
    simp only [Loop.potential, Loop.rank, Loop.held, Copy.held, List.length_nil]
    omega

/-- A step of a goroutine lowers the potential of the goroutine and of what its side holds. -/
theorem LoopMove.potential {down : Bool} {p p' : Port} {n : LoopName} {l l' : Loop} {ev : LoopEv}
    (hm : LoopMove down p n l ev p' l') : p'.potential + l'.potential n + 1 ≤ p.potential + l.potential n := by
  cases hm with
  | readTcp k er bs s c hr hc =>
    obtain ⟨rfl, rfl, hk, hne⟩ := Sock.read_length hr
    have hloop := Loop.potential_read .streamTCPtoQUIC hc hne
    have hport := Sock.potential_pull p.sock k hk
    simp only [Port.potential, LoopName.weight, List.length_take, Nat.min_eq_left hk] at hloop ⊢
    omega
  | writeQuic buf er k ew h c hw hc =>
    obtain ⟨rfl, hk, -⟩ := Half.write_some hw
    have hloop := Loop.potential_write .streamTCPtoQUIC hc
    have hport := Half.potential_push p.out (buf.take k) (p.out.dead || ew.isSome)
    have htake := List.length_take_le k buf
    simp only [Port.potential, LoopName.weight] at hloop ⊢
    rw [List.length_take] at hport
    omega
  | readQuic k er bs h c hr hc =>
    obtain ⟨rfl, rfl, hk, hne⟩ := Half.read_length hr
    have hloop := Loop.potential_read .streamQUICtoTCP hc hne
    have hport := Half.potential_pull p.inn k hk
    simp only [Port.potential, LoopName.weight, List.length_take, Nat.min_eq_left hk] at hloop ⊢
    omega
  | writeTcp buf er k ew s c hw hc =>
    obtain ⟨rfl, hk, -⟩ := Sock.write_some hw
    have hloop := Loop.potential_write .streamQUICtoTCP hc
    have hport := Sock.potential_push p.sock (buf.take k)
    simp only [Port.potential, LoopName.weight] at hloop ⊢
    rw [List.length_take] at hport
    omega
  | partTcp buf er k s hw hpos hlt =>
    obtain ⟨rfl, -⟩ := Sock.part_some hw
    have hport := Sock.potential_push p.sock (buf.take k)
    simp only [Port.potential, Loop.potential, Loop.rank, Loop.held, Copy.held, LoopName.weight, List.length_drop]
    rw [List.length_take] at hport
    omega
  | close n e => simp [Port.potential, Sock.potential, Sock.close, Loop.potential, Loop.rank, Loop.held, Copy.held]

end Qpep
