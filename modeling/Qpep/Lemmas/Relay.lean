import Qpep.Relay
import Qpep.Lemmas.Network

/-!
# What one step of a copy loop can do

`LoopMove` lists the steps of the two goroutines of a side against what the side holds: which call is made, what it answers, and
where the goroutine stands then. `loop_iff_move` says that these are the steps that the two parts of the model, goroutine and
environment, agree on. `LoopMove.flow` is the one fact that everything about the relayed bytes rests on: what a step reads is
added to what the goroutine took in, what it writes is added to what it gave out, and the flow between the two is kept.
-/

namespace Qpep

open Io

/-- The task of a goroutine, the same on both sides. -/
def relayTask : LoopName → CopyTask
  | .streamTCPtoQUIC => { src := .tcp, dst := .quic, closes := .tcp }
  | .streamQUICtoTCP => { src := .quic, dst := .tcp, closes := .tcp }

/-- One step of a goroutine in a session that is `down` or not. -/
inductive LoopMove (down : Bool) (p : Port) : LoopName → Loop → LoopEv → Port → Loop → Prop where
  | readTcp (k : Nat) (er : Option IoErr) (bs : List UInt8) (s : Sock) (c : Copy) (hr : p.sock.read k er = some (bs, s))
      (hc : Copy.read.step (.read bs er) = some c) :
      LoopMove down p .streamTCPtoQUIC (.copy .read) (.read k er) { p with sock := s } (.copy c)
  | writeQuic (buf : List UInt8) (er : Option IoErr) (k : Nat) (ew : Option IoErr) (h : Half) (c : Copy)
      (hw : p.out.write down buf k ew = some h) (hc : (Copy.write buf er).step (.write k ew) = some c) :
      LoopMove down p .streamTCPtoQUIC (.copy (.write buf er)) (.write k ew) { p with out := h } (.copy c)
  | readQuic (k : Nat) (er : Option IoErr) (bs : List UInt8) (h : Half) (c : Copy) (hr : p.inn.read down k er = some (bs, h))
      (hc : Copy.read.step (.read bs er) = some c) :
      LoopMove down p .streamQUICtoTCP (.copy .read) (.read k er) { p with inn := h } (.copy c)
  | writeTcp (buf : List UInt8) (er : Option IoErr) (k : Nat) (ew : Option IoErr) (s : Sock) (c : Copy)
      (hw : p.sock.write buf k ew = some s) (hc : (Copy.write buf er).step (.write k ew) = some c) :
      LoopMove down p .streamQUICtoTCP (.copy (.write buf er)) (.write k ew) { p with sock := s } (.copy c)
  | partTcp (buf : List UInt8) (er : Option IoErr) (k : Nat) (s : Sock) (hw : p.sock.part buf k = some s) (hpos : 0 < k)
      (hlt : k < buf.length) :
      LoopMove down p .streamQUICtoTCP (.copy (.write buf er)) (.part k) { p with sock := s } (.copy (.write (buf.drop k) er))
  | close (n : LoopName) (e : CopyEnd) :
      LoopMove down p n (.copy (.ended e)) .close { p with sock := p.sock.close } (.done e)

/-- Where the bytes of a goroutine are: those of its `io.Copy`. -/
def Loop.Flow (l : Loop) (inn out : List UInt8) : Prop :=
  match l with
  | .copy c => c.Flow inn out
  | .done e => (Copy.ended e).Flow inn out

/-- The channel that a goroutine takes its bytes from. -/
def Port.source (p : Port) : LoopName → Fifo UInt8
  | .streamTCPtoQUIC => p.sock.inn
  | .streamQUICtoTCP => p.inn.bytes

/-- The channel that a goroutine gives its bytes to. -/
def Port.target (p : Port) : LoopName → Fifo UInt8
  | .streamTCPtoQUIC => p.out.bytes
  | .streamQUICtoTCP => p.sock.out

@[simp] theorem Relay.loop_setLoop_self (r : Relay) (n : LoopName) (l : Loop) : (r.setLoop n l).loop n = l := by
  cases n <;> rfl

theorem Relay.loop_setLoop_ne (r : Relay) {n n' : LoopName} (h : n' ≠ n) (l : Loop) : (r.setLoop n l).loop n' = r.loop n' := by
  cases n <;> cases n' <;> first | rfl | exact absurd rfl h

/-- Both goroutines are done exactly when each is. -/
theorem Relay.isDone_iff {r : Relay} : r.isDone = true ↔ ∀ n, (r.loop n).isDone = true := by
  simp only [Relay.isDone, Bool.and_eq_true]
  constructor
  · rintro ⟨h₁, h₂⟩ n
    cases n with
    | streamTCPtoQUIC => exact h₁
    | streamQUICtoTCP => exact h₂
  · intro h
    exact ⟨h .streamTCPtoQUIC, h .streamQUICtoTCP⟩

/-- What was given out is a prefix of what was taken in. -/
theorem Loop.Flow.out_prefix_inn {l : Loop} {inn out : List UInt8} (h : l.Flow inn out) : out <+: inn := by
  cases l with
  | copy c => exact Copy.Flow.out_prefix_inn h
  | done e => exact h.1

/-- The steps of a goroutine that its own code and its environment agree on are the listed ones. -/
theorem loop_iff_move {down : Bool} {p p' : Port} {n : LoopName} {ev : LoopEv} {r r' : Relay} :
    (∃ io, p.loop down (relayTask n) (r.loop n) ev = some (p', io) ∧ r.step n io = some r') ↔
      ∃ l', LoopMove down p n (r.loop n) ev p' l' ∧ r' = r.setLoop n l' := by
  constructor
  · rintro ⟨io, hp, hs⟩
    obtain ⟨l', hl, rfl⟩ := Option.map_eq_some_iff.mp hs
    refine ⟨l', ?_, rfl⟩
    generalize r.loop n = l at hp hl
    cases ev with
    | read k er =>
      obtain ⟨⟨bs, q⟩, hq, he⟩ := Option.map_eq_some_iff.mp hp
      cases he
      cases l with
      | done e => cases hl
      | copy c =>
        obtain ⟨c', hc, rfl⟩ := Option.map_eq_some_iff.mp hl
        obtain ⟨rfl, -⟩ := Copy.step_read hc
        cases n with
        | streamTCPtoQUIC =>
          obtain ⟨⟨bs', s⟩, hr, he⟩ := Option.map_eq_some_iff.mp hq
          cases he
          exact .readTcp k er bs' s c' hr hc
        | streamQUICtoTCP =>
          obtain ⟨⟨bs', h⟩, hr, he⟩ := Option.map_eq_some_iff.mp hq
          cases he
          exact .readQuic k er bs' h c' hr hc
    | write k ew =>
      obtain ⟨q, hq, he⟩ := Option.map_eq_some_iff.mp hp
      cases he
      cases l with
      | done e => cases hl
      | copy c =>
        obtain ⟨c', hc, rfl⟩ := Option.map_eq_some_iff.mp hl
        obtain ⟨buf, er, rfl, -⟩ := Copy.step_write hc
        cases n with
        | streamTCPtoQUIC =>
          obtain ⟨h, hw, he⟩ := Option.map_eq_some_iff.mp hq
          cases he
          exact .writeQuic buf er k ew h c' hw hc
        | streamQUICtoTCP =>
          obtain ⟨s, hw, he⟩ := Option.map_eq_some_iff.mp hq
          cases he
          exact .writeTcp buf er k ew s c' hw hc
    | part k =>
      obtain ⟨q, hq, he⟩ := Option.map_eq_some_iff.mp hp
      cases he
      cases l with
      | done e => cases hl
      | copy c =>
        obtain ⟨c', hc, rfl⟩ := Option.map_eq_some_iff.mp hl
        obtain ⟨buf, er, rfl, hpos, hlt, rfl⟩ := Copy.step_part hc
        cases n with
        | streamTCPtoQUIC => cases hq
        | streamQUICtoTCP =>
          obtain ⟨s, hw, he⟩ := Option.map_eq_some_iff.mp hq
          cases he
          exact .partTcp buf er k s hw hpos hlt
    | close =>
      cases hp
      cases l with
      | done e => cases hl
      | copy c =>
        cases c with
        | ended e =>
          cases hl
          cases n <;> exact .close _ e
        | _ => cases hl
  · rintro ⟨l', hm, rfl⟩
    unfold Relay.step
    generalize r.loop n = l at hm
    cases hm with
    | readTcp k er bs s c hr hc =>
      exact ⟨.io (.read bs er), by simp [Port.loop, Port.read, relayTask, hr], by simp [Loop.step, hc]⟩
    | writeQuic buf er k ew h c hw hc =>
      exact ⟨.io (.write k ew), by simp [Port.loop, Port.write, relayTask, Loop.held, Copy.held, hw], by simp [Loop.step, hc]⟩
    | readQuic k er bs h c hr hc =>
      exact ⟨.io (.read bs er), by simp [Port.loop, Port.read, relayTask, hr], by simp [Loop.step, hc]⟩
    | writeTcp buf er k ew s c hw hc =>
      exact ⟨.io (.write k ew), by simp [Port.loop, Port.write, relayTask, Loop.held, Copy.held, hw], by simp [Loop.step, hc]⟩
    | partTcp buf er k s hw hpos hlt =>
      exact ⟨.io (.part k), by simp [Port.loop, Port.part, relayTask, Loop.held, Copy.held, hw],
        by simp [Loop.step, Copy.step, hpos, hlt]⟩
    | close n e => cases n <;> exact ⟨.close, rfl, rfl⟩

/-- What a step reads is added to what the goroutine took in, what it writes to what it gave out, and the flow is kept. -/
theorem LoopMove.flow {down : Bool} {p p' : Port} {n : LoopName} {l l' : Loop} {ev : LoopEv}
    (hm : LoopMove down p n l ev p' l') (ho : (p.target n).abandoned = none) :
    ∃ bs ws, (p'.source n).got = (p.source n).got ++ bs ∧ (p'.target n).sent = (p.target n).sent ++ ws ∧
      ∀ inn out, l.Flow inn out → l'.Flow (inn ++ bs) (out ++ ws) := by
  cases hm with
  | readTcp k er bs s c hr hc =>
    obtain ⟨hbs, rfl, -⟩ := Sock.read_some hr
    subst hbs
    refine ⟨p.sock.inn.ready.take k, [], rfl, (List.append_nil _).symm, ?_⟩
    intro inn out h
    have h' : Copy.read.Flow inn out := h
    rw [List.append_nil]
    exact h'.read hc
  | writeQuic buf er k ew h c hw hc =>
    obtain ⟨rfl, -⟩ := Half.write_some hw
    refine ⟨[], buf.take k, (List.append_nil _).symm, Fifo.sent_push ho _, ?_⟩
    intro inn out h
    have h' : (Copy.write buf er).Flow inn out := h
    rw [List.append_nil]
    exact h'.write hc
  | readQuic k er bs h c hr hc =>
    obtain ⟨hbs, rfl, -⟩ := Half.read_some hr
    subst hbs
    refine ⟨p.inn.bytes.ready.take k, [], rfl, (List.append_nil _).symm, ?_⟩
    intro inn out h
    have h' : Copy.read.Flow inn out := h
    rw [List.append_nil]
    exact h'.read hc
  | writeTcp buf er k ew s c hw hc =>
    obtain ⟨rfl, -⟩ := Sock.write_some hw
    refine ⟨[], buf.take k, (List.append_nil _).symm, Fifo.sent_push ho _, ?_⟩
    intro inn out h
    have h' : (Copy.write buf er).Flow inn out := h
    rw [List.append_nil]
    exact h'.write hc
  | partTcp buf er k s hw hpos hlt =>
    obtain ⟨rfl, -⟩ := Sock.part_some hw
    refine ⟨[], buf.take k, (List.append_nil _).symm, Fifo.sent_push ho _, ?_⟩
    intro inn out h
    have h' : (Copy.write buf er).Flow inn out := h
    rw [List.append_nil]
    exact h'.part (if_pos ⟨hpos, hlt⟩)
  | close n e =>
    refine ⟨[], [], ?_, ?_, ?_⟩
    · cases n <;> exact (List.append_nil _).symm
    · cases n <;> exact (List.append_nil _).symm
    · intro inn out h
      simpa [Loop.Flow] using h

/-- A step of one goroutine leaves the bytes of the other one alone. -/
theorem LoopMove.frame {down : Bool} {p p' : Port} {n n' : LoopName} {l l' : Loop} {ev : LoopEv}
    (hm : LoopMove down p n l ev p' l') (hne : n' ≠ n) : p'.source n' = p.source n' ∧ p'.target n' = p.target n' := by
  cases hm with
  | readTcp k er bs s c hr hc =>
    obtain ⟨-, rfl, -⟩ := Sock.read_some hr
    cases n' with
    | streamTCPtoQUIC => exact absurd rfl hne
    | streamQUICtoTCP => exact ⟨rfl, rfl⟩
  | writeQuic buf er k ew h c hw hc =>
    cases n' with
    | streamTCPtoQUIC => exact absurd rfl hne
    | streamQUICtoTCP => exact ⟨rfl, rfl⟩
  | readQuic k er bs h c hr hc =>
    cases n' with
    | streamTCPtoQUIC => exact ⟨rfl, rfl⟩
    | streamQUICtoTCP => exact absurd rfl hne
  | writeTcp buf er k ew s c hw hc =>
    obtain ⟨rfl, -⟩ := Sock.write_some hw
    cases n' with
    | streamTCPtoQUIC => exact ⟨rfl, rfl⟩
    | streamQUICtoTCP => exact absurd rfl hne
  | partTcp buf er k s hw hpos hlt =>
    obtain ⟨rfl, -⟩ := Sock.part_some hw
    cases n' with
    | streamTCPtoQUIC => exact ⟨rfl, rfl⟩
    | streamQUICtoTCP => exact absurd rfl hne
  | close n e => cases n' <;> exact ⟨rfl, rfl⟩

/-- A step of a goroutine leaves what the other side wrote to the stream and what it read from it. -/
theorem LoopMove.stream {down : Bool} {p p' : Port} {n : LoopName} {l l' : Loop} {ev : LoopEv}
    (hm : LoopMove down p n l ev p' l') :
    p'.inn.bytes.sent = p.inn.bytes.sent ∧ p'.out.bytes.got = p.out.bytes.got := by
  cases hm with
  | writeQuic buf er k ew h c hw hc =>
    obtain ⟨rfl, -⟩ := Half.write_some hw
    exact ⟨rfl, Fifo.push_got _ _⟩
  | readQuic k er bs h c hr hc =>
    obtain ⟨-, rfl, -⟩ := Half.read_some hr
    exact ⟨Fifo.sent_pull _ _, rfl⟩
  | _ => exact ⟨rfl, rfl⟩

/-- A step of a goroutine abandons no channel. -/
theorem LoopMove.abandoned {down : Bool} {p p' : Port} {n : LoopName} {l l' : Loop} {ev : LoopEv}
    (hm : LoopMove down p n l ev p' l') :
    p'.sock.inn.abandoned = p.sock.inn.abandoned ∧ p'.sock.out.abandoned = p.sock.out.abandoned ∧
      p'.inn.bytes.abandoned = p.inn.bytes.abandoned ∧ p'.out.bytes.abandoned = p.out.bytes.abandoned := by
  cases hm with
  | readTcp k er bs s c hr hc =>
    obtain ⟨-, rfl, -⟩ := Sock.read_some hr
    exact ⟨rfl, rfl, rfl, rfl⟩
  | writeQuic buf er k ew h c hw hc =>
    obtain ⟨rfl, -⟩ := Half.write_some hw
    exact ⟨rfl, rfl, rfl, Fifo.push_abandoned _ _⟩
  | readQuic k er bs h c hr hc =>
    obtain ⟨-, rfl, -⟩ := Half.read_some hr
    exact ⟨rfl, rfl, rfl, rfl⟩
  | writeTcp buf er k ew s c hw hc =>
    obtain ⟨rfl, -⟩ := Sock.write_some hw
    exact ⟨rfl, Fifo.push_abandoned _ _, rfl, rfl⟩
  | partTcp buf er k s hw hpos hlt =>
    obtain ⟨rfl, -⟩ := Sock.part_some hw
    exact ⟨rfl, Fifo.push_abandoned _ _, rfl, rfl⟩
  | close n e => exact ⟨rfl, rfl, rfl, rfl⟩

/-- What a step of a goroutine does not undo: the close of the TCP connection, the end of a direction and its reset. -/
theorem LoopMove.lasting {down : Bool} {p p' : Port} {n : LoopName} {l l' : Loop} {ev : LoopEv}
    (hm : LoopMove down p n l ev p' l') :
    (p.sock.closed = true → p'.sock.closed = true) ∧ (p'.out.fin = p.out.fin ∧ p'.out.reset = p.out.reset) ∧
      (p'.inn.fin = p.inn.fin ∧ p'.inn.reset = p.inn.reset) := by
  cases hm with
  | readTcp k er bs s c hr hc =>
    obtain ⟨-, rfl, -⟩ := Sock.read_some hr
    exact ⟨fun h => h, ⟨rfl, rfl⟩, rfl, rfl⟩
  | writeQuic buf er k ew h c hw hc =>
    obtain ⟨rfl, -⟩ := Half.write_some hw
    exact ⟨fun h => h, ⟨rfl, by simp [Half.reset]⟩, rfl, rfl⟩
  | readQuic k er bs h c hr hc =>
    obtain ⟨-, rfl, -⟩ := Half.read_some hr
    exact ⟨fun h => h, ⟨rfl, rfl⟩, rfl, rfl⟩
  | writeTcp buf er k ew s c hw hc =>
    obtain ⟨rfl, -⟩ := Sock.write_some hw
    exact ⟨fun h => h, ⟨rfl, rfl⟩, rfl, rfl⟩
  | partTcp buf er k s hw hpos hlt =>
    obtain ⟨rfl, -⟩ := Sock.part_some hw
    exact ⟨fun h => h, ⟨rfl, rfl⟩, rfl, rfl⟩
  | close n e => exact ⟨fun _ => rfl, ⟨rfl, rfl⟩, rfl, rfl⟩

/-- A step of a goroutine takes nothing from the way of what the other side wrote. -/
theorem LoopMove.inn_wire {down : Bool} {p p' : Port} {n : LoopName} {l l' : Loop} {ev : LoopEv}
    (hm : LoopMove down p n l ev p' l') : p'.inn.bytes.wire = p.inn.bytes.wire := by
  cases hm with
  | readQuic k er bs h c hr hc =>
    obtain ⟨-, rfl, -⟩ := Half.read_some hr
    rfl
  | _ => rfl

/-- A step of `streamQUICtoTCP` touches neither what the side writes to the stream nor what it reads from the connection. -/
theorem LoopMove.toTcp {down : Bool} {p p' : Port} {l l' : Loop} {ev : LoopEv}
    (hm : LoopMove down p .streamQUICtoTCP l ev p' l') :
    p'.out = p.out ∧ p'.sock.fin = p.sock.fin ∧ p'.sock.inn = p.sock.inn := by
  cases hm with
  | writeTcp buf er k ew s c hw hc =>
    obtain ⟨rfl, -⟩ := Sock.write_some hw
    exact ⟨rfl, rfl, rfl⟩
  | partTcp buf er k s hw hpos hlt =>
    obtain ⟨rfl, -⟩ := Sock.part_some hw
    exact ⟨rfl, rfl, rfl⟩
  | _ => exact ⟨rfl, rfl, rfl⟩

/-- A step of a goroutine stops neither direction of the stream. -/
theorem LoopMove.stopped {down : Bool} {p p' : Port} {n : LoopName} {l l' : Loop} {ev : LoopEv}
    (hm : LoopMove down p n l ev p' l') : p'.out.stopped = p.out.stopped ∧ p'.inn.stopped = p.inn.stopped := by
  cases hm with
  | writeQuic buf er k ew h c hw hc =>
    obtain ⟨rfl, -⟩ := Half.write_some hw
    exact ⟨rfl, rfl⟩
  | readQuic k er bs h c hr hc =>
    obtain ⟨-, rfl, -⟩ := Half.read_some hr
    exact ⟨rfl, rfl⟩
  | _ => exact ⟨rfl, rfl⟩

end Qpep
