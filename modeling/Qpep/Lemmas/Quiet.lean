import Qpep.Lemmas.Alive

/-!
# A connection in which nothing can move

`Act.moves` are the steps that are not a new decision of an endpoint and not a failure: the network delivers, an endpoint
receives, a handler goes on. A state in which none of them is enabled has nothing in flight, and every goroutine is done or
blocked in a Read that has nothing to return.
-/

namespace Qpep

open Io Machine HeaderAux Server.ServerAux

/-- The step delivers or receives bytes. -/
def SockEnv.moves : SockEnv → Bool
  | .receive _ | .deliverIn _ | .deliverOut _ => true
  | _ => false

/-- Nothing is on its way in either direction, and the endpoint has received everything that arrived. -/
def Sock.Idle (s : Sock) : Prop := s.inn.wire = [] ∧ s.out.wire = [] ∧ s.out.ready = []

/-- On an idle connection nothing is left to deliver or to receive. -/
theorem Sock.Idle.env {s : Sock} (h : s.Idle) {e : SockEnv} (he : e.moves = true) : s.env e = none := by
  obtain ⟨hin, hwire, hready⟩ := h
  cases e with
  | receive k => simp [Sock.env, hready, Nat.pos_iff_ne_zero]
  | deliverIn k => simp [Sock.env, hin, Nat.pos_iff_ne_zero]
  | deliverOut k => simp [Sock.env, hwire, Nat.pos_iff_ne_zero]
  | _ => cases he

namespace Link

/-- The step is one of the network's or of a handler's: no endpoint decides anything and nothing fails. -/
def Act.moves : Act → Bool
  | .app e | .dest e => e.moves
  | a => !a.outside

/-- Nothing is left in flight and no goroutine can go on. -/
def AtRest (l : Link) : Prop := Quiet step (fun a => a.moves = true) l

/-- The side has a TCP connection: the client from the start, the server once it has dialled. -/
def connected (l : Link) : Side → Bool
  | .client => true
  | .server => (l.relay .server).isSome

namespace LinkAux

/-- A Read by a goroutine goes on with anything it returns. -/
theorem read_step (bs : List UInt8) (er : Option IoErr) : ∃ c, Copy.read.step (.read bs er) = some c := by
  simp only [Copy.step]
  split
  · exact ⟨_, rfl⟩
  · cases er <;> exact ⟨_, rfl⟩

/-- A goroutine that is done, or in a Read that blocks, makes no step. -/
theorem loop_blocked {l : Link} {s : Side} {r : Relay} {n : LoopName} (hw : l.waits s = some r)
    (h : (r.loop n).isDone = true ∨
      r.loop n = .copy .read ∧ ∀ k er, (l.port s).read l.sessionDown (relayTask n).src k er = none) (ev : LoopEv) :
    l.step (.loop s n ev) = none := by
  cases hs : l.step (.loop s n ev) with
  | none => rfl
  | some l' =>
    cases move_of_step hs with
    | loop _ _ _ r' p x hw' hm =>
      cases hw.symm.trans hw'
      rcases h with hd | ⟨hl, hno⟩
      · generalize r.loop n = y at hd hm
        cases hm <;> cases hd
      · rw [hl] at hm
        cases hm with
        | readTcp k er bs t c hr hc =>
          have hn := hno k er
          simp [Port.read, relayTask, hr] at hn
        | readQuic k er bs t c hr hc =>
          have hn := hno k er
          simp [Port.read, relayTask, hr] at hn

section Rest

variable {l : Link} (hq : AtRest l)

include hq

theorem rest_move {l' : Link} {a : Act} (hm : Move l a l') (ha : a.moves = true) : False := by
  have hs := step_of_move hm
  rw [hq a ha] at hs
  cases hs

/-- Everything written to the stream has arrived. -/
theorem rest_wire (s : Side) : (l.half s).bytes.wire = [] := by
  by_cases hw : (l.half s).bytes.wire = []
  · exact hw
  · obtain ⟨h, hd⟩ := Option.isSome_iff_exists.mp (Half.deliver_enabled hw)
    exact (rest_move hq (.deliver s _ h hd) rfl).elim

/-- No step of an endpoint or the network on a TCP connection is enabled. -/
theorem rest_sock {s : Side} (hc : l.connected s = true) {e : SockEnv} (he : e.moves = true) : (l.sock s).env e = none := by
  cases hs : (l.sock s).env e with
  | none => rfl
  | some x =>
    cases s with
    | client => exact (rest_move hq (.app e x hs) he).elim
    | server => exact (rest_move hq (.dest e x hc hs) he).elim

/-- Everything an endpoint sent has arrived. -/
theorem rest_inn_wire {s : Side} (hc : l.connected s = true) : (l.sock s).inn.wire = [] := by
  have he := rest_sock hq hc (e := .deliverIn (l.sock s).inn.wire.length) rfl
  simp only [Sock.env, Nat.le_refl, and_true] at he
  split at he
  · cases he
  · rename_i hn
    exact List.length_eq_zero_iff.mp (by omega)

/-- An endpoint that still reads has received everything written to it. -/
theorem rest_out {s : Side} (hc : l.connected s = true) (hg : (l.sock s).gone = false) :
    (l.sock s).out.wire = [] ∧ (l.sock s).out.ready = [] := by
  have hd := rest_sock hq hc (e := .deliverOut (l.sock s).out.wire.length) rfl
  have hr := rest_sock hq hc (e := .receive (l.sock s).out.ready.length) rfl
  simp only [Sock.env, hg, Nat.le_refl, and_true, true_and] at hd hr
  constructor
  · split at hd
    · cases hd
    · rename_i hn
      exact List.length_eq_zero_iff.mp (by omega)
  · split at hr
    · cases hr
    · rename_i hn
      exact List.length_eq_zero_iff.mp (by omega)

/-- No goroutine of a side that waits can make a step. -/
theorem rest_loop {s : Side} {r : Relay} (hw : l.waits s = some r) {n : LoopName} {ev : LoopEv} {p : Port} {x : Loop} :
    ¬LoopMove l.sessionDown (l.port s) n (r.loop n) ev p x :=
  fun hm => rest_move hq (.loop s n ev r p x hw hm) (by cases ev <;> rfl)

/-- A goroutine of a side that waits is in a Read, or done. -/
theorem rest_loop_cases {s : Side} {r : Relay} (hw : l.waits s = some r) (n : LoopName) :
    r.loop n = .copy .read ∨ (r.loop n).isDone = true := by
  have hno : ∀ ev p x, ¬LoopMove l.sessionDown (l.port s) n (r.loop n) ev p x := fun _ _ _ => rest_loop hq hw
  cases hl : r.loop n with
  | done e => exact Or.inr rfl
  | copy c =>
    rw [hl] at hno
    cases c with
    | read => exact Or.inl rfl
    | ended e => exact (hno _ _ _ (.close n e)).elim
    | write buf er =>
      have hstep : ∀ k ew, ∃ c, (Copy.write buf er).step (.write k ew) = some c := by
        intro k ew
        simp only [Copy.step]
        split
        · exact ⟨_, rfl⟩
        · cases er <;> exact ⟨_, rfl⟩
      cases n with
      | streamTCPtoQUIC =>
        obtain ⟨k, ew, hwr⟩ := Half.write_enabled (l.port s).out l.sessionDown buf
        obtain ⟨h, hwr⟩ := Option.isSome_iff_exists.mp hwr
        obtain ⟨c, hc⟩ := hstep k ew
        exact (hno _ _ _ (.writeQuic buf er k ew h c hwr hc)).elim
      | streamQUICtoTCP =>
        obtain ⟨k, ew, hwr⟩ := Sock.write_enabled (l.port s).sock buf
        obtain ⟨t, hwr⟩ := Option.isSome_iff_exists.mp hwr
        obtain ⟨c, hc⟩ := hstep k ew
        exact (hno _ _ _ (.writeTcp buf er k ew t c hwr hc)).elim

/-- A side that waits has a goroutine that is not done. -/
theorem rest_not_done {s : Side} {r : Relay} (hw : l.waits s = some r) : r.isDone = false := by
  cases hd : r.isDone with
  | false => rfl
  | true =>
    cases s with
    | client => exact (rest_move hq (.close r (waits_client_iff.mp hw) hd) rfl).elim
    | server =>
      obtain ⟨q, hs⟩ := waits_server_iff.mp hw
      exact (rest_move hq (.cancelRead q r hs hd) rfl).elim

/-- What blocks a `streamTCPtoQUIC` in a Read: its connection is open, and there is no data. -/
theorem rest_tcp_read {s : Side} {r : Relay} (hw : l.waits s = some r) (hl : r.loop .streamTCPtoQUIC = .copy .read) :
    (l.sock s).closed = false ∧ (l.sock s).inn.ready = [] := by
  have hno : ∀ k er, (l.sock s).read k er = none := by
    intro k er
    cases hr : (l.sock s).read k er with
    | none => rfl
    | some y =>
      obtain ⟨c, hc⟩ := read_step y.1 er
      have hm : LoopMove l.sessionDown (l.port s) .streamTCPtoQUIC (.copy .read) (.read k er) _ _ := .readTcp k er y.1 y.2 c hr hc
      exact (rest_loop hq hw (hl ▸ hm)).elim
  have hclosed : (l.sock s).closed = false := by
    cases hc : (l.sock s).closed with
    | false => rfl
    | true =>
      have he := Sock.read_closed_enabled hc
      rw [hno] at he
      cases he
  refine ⟨hclosed, ?_⟩
  by_cases hr : (l.sock s).inn.ready = []
  · exact hr
  · have he := (hno _ none).symm.trans (Sock.read_enabled hr hclosed)
    cases he

/-- What blocks a `streamQUICtoTCP` in a Read: there is no data, and the stream neither was reset nor ended. -/
theorem rest_quic_read {s : Side} {r : Relay} (hw : l.waits s = some r) (hl : r.loop .streamQUICtoTCP = .copy .read) :
    (l.half s.other).bytes.ready = [] ∧ (l.half s.other).reset = false ∧ (l.half s.other).fin = false := by
  have hno : ∀ k er, (l.half s.other).read l.sessionDown k er = none := by
    intro k er
    cases hr : (l.half s.other).read l.sessionDown k er with
    | none => rfl
    | some y =>
      obtain ⟨c, hc⟩ := read_step y.1 er
      have hm : LoopMove l.sessionDown (l.port s) .streamQUICtoTCP (.copy .read) (.read k er) _ _ :=
        .readQuic k er y.1 y.2 c hr hc
      exact (rest_loop hq hw (hl ▸ hm)).elim
  have hready : (l.half s.other).bytes.ready = [] := by
    by_cases hr : (l.half s.other).bytes.ready = []
    · exact hr
    · have he := (hno _ none).symm.trans (Half.read_enabled (List.length_pos_iff.mpr hr) (Nat.le_refl _))
      cases he
  have hreset : (l.half s.other).reset = false := by
    cases hr : (l.half s.other).reset with
    | false => rfl
    | true =>
      have he : ((l.half s.other).read l.sessionDown 0 (some .other)).isSome = true := Half.read_reset_enabled hr
      rw [hno] at he
      cases he
  refine ⟨hready, hreset, ?_⟩
  cases hf : (l.half s.other).fin with
  | false => rfl
  | true =>
    have he : ((l.half s.other).read l.sessionDown 0 (some .EOF)).isSome = true :=
      Half.read_eof_enabled hready (rest_wire hq s.other) hf hreset
    rw [hno] at he
    cases he

/-- The client's handler is past the Write of the header. -/
theorem rest_client (hd : l.sessionDown = false) : l.client ≠ .opening ∧ l.client ≠ .stream .header := by
  refine ⟨fun hc => rest_move hq (.openStream hc hd) rfl, ?_⟩
  intro hc
  obtain ⟨k, ew, hw⟩ := Half.write_enabled l.up l.sessionDown l.header.toBytes
  obtain ⟨h, hw⟩ := Option.isSome_iff_exists.mp hw
  exact rest_move hq (.writeHeader k ew h hc hw) rfl

/-- The server's handler is not in the dial, and not between its two cancels. -/
theorem rest_server : (∀ q, l.server ≠ .dial q) ∧ ∀ q r, l.server ≠ .cancelWrite q r :=
  ⟨fun q hs => rest_move hq (.dialled q hs) rfl, fun q r hs => rest_move hq (.cancelWrite q r hs) rfl⟩

end Rest

/-- When a connection is at rest: nothing is in flight, and each handler has returned or waits for goroutines of which at
least one is blocked in a Read and the other one is blocked or done. -/
theorem atRest_of {l : Link} (hsock : ∀ s, (l.sock s).Idle) (hwire : ∀ s, (l.half s).bytes.wire = [])
    (hclient : ∃ r, l.client = .stream (.wait r) ∧ r.isDone = false ∨ l.client = .stream (.returned r))
    (hserver : (∃ q r, l.server = .wait q r ∧ r.isDone = false) ∨ ∃ r, l.server = .returned r)
    (hloop : ∀ s r, l.waits s = some r → ∀ n, (r.loop n).isDone = true ∨
      r.loop n = .copy .read ∧ ∀ k er, (l.port s).read l.sessionDown (relayTask n).src k er = none) : AtRest l := by
  have hclient' : ∀ {c}, l.client = c → (∀ r, c = .stream (.wait r) → r.isDone = true) → (∀ r, c ≠ .stream (.returned r)) →
      False := by
    intro c hc hwait hret
    obtain ⟨r, ⟨hr, hd⟩ | hr⟩ := hclient
    · exact Bool.noConfusion (hd.symm.trans (hwait r (hc.symm.trans hr)))
    · exact hret r (hc.symm.trans hr)
  have hserver' : ∀ {x}, l.server = x → (∀ q r, x = .wait q r → r.isDone = true) → (∀ r, x ≠ .returned r) → False := by
    intro x hx hwait hret
    rcases hserver with ⟨q, r, hr, hd⟩ | ⟨r, hr⟩
    · exact Bool.noConfusion (hd.symm.trans (hwait q r (hx.symm.trans hr)))
    · exact hret r (hx.symm.trans hr)
  intro a ha
  cases hs : l.step a with
  | none => rfl
  | some l' =>
    cases move_of_step hs with
    | app e t he => cases ((hsock .client).env ha).symm.trans he
    | dest e t hr he => cases ((hsock .server).env ha).symm.trans he
    | deliver s k h hd =>
      obtain ⟨hpos, hle, -⟩ := Half.deliver_some hd
      rw [hwire s] at hle
      exact absurd hpos (Nat.not_lt.mpr hle)
    | sessionFail => cases ha
    | openStream hc => exact (hclient' hc (by simp) (by simp)).elim
    | drop hc => exact (hclient' hc (by simp) (by simp)).elim
    | writeHeader k ew h hc hw => exact (hclient' hc (by simp) (by simp)).elim
    | loop s n ev r p x hw hm => cases (loop_blocked hw (hloop s r hw n) ev).symm.trans hs
    | close r hc hd =>
      refine (hclient' hc ?_ (by simp)).elim
      intro r' hr'
      cases hr'
      exact hd
    | readHeader k er bs h x hr hx =>
      rcases hserver with ⟨q, r, hq, -⟩ | ⟨r, hq⟩ <;> simp [hq, Server.StreamHandler.step] at hx
    | dialled q hq => exact (hserver' hq (by simp) (by simp)).elim
    | notDialled q hq => exact (hserver' hq (by simp) (by simp)).elim
    | cancelRead q r hq hd =>
      refine (hserver' hq ?_ (by simp)).elim
      intro q' r' hr'
      cases hr'
      exact hd
    | cancelWrite q r hq => exact (hserver' hq (by simp) (by simp)).elim

end LinkAux

end Link

end Qpep
