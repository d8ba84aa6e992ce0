import Qpep.Lemmas.Quiet

/-!
# A connection around which nothing fails

`Steady` holds in every run in which the session stays up and the client's stream and the destination's connection come
about, whatever happens on the two TCP connections. With it a connection at rest is understood: a `streamQUICtoTCP` that is
over takes its own handler with it (`rest_side`), and a handler that has returned takes the other one with it
(`rest_across`).
-/

namespace Qpep

open Io Machine HeaderAux Server.ServerAux

namespace Link

/-- The server has not started its goroutines: nothing has happened to the direction it writes, the client's goroutine at
the other end of it is at its start, and nothing has ended the direction it reads. -/
structure Early (l : Link) : Prop where
  down : l.down.Up
  start : l.loop .client .streamQUICtoTCP = .start
  fin : l.up.fin = false
  stopped : l.up.stopped = false

/-- A connection around which nothing has failed. -/
structure Steady (l : Link) : Prop where
  flow : FlowInv l
  session : l.sessionDown = false
  client : l.client ≠ .dropped
  server : l.server ≠ .returned none
  closed : ∀ s n, (l.loop s n).isDone = true → (l.sock s).closed = true
  clientReturned : ∀ r, l.client = .stream (.returned r) → r.isDone = true ∧ l.up.fin = true
  serverDone : ∀ q r, l.server = .cancelWrite q r → r.isDone = true
  serverReturned : ∀ r, l.server = .returned (some r) → r.isDone = true ∧ l.down.reset = true
  early : l.relay .server = none → Early l

namespace LinkAux

theorem steady_init (header : QpepHeader) : Steady (Link.init header) := by
  refine ⟨flowInv_init header, rfl, fun h => ?_, fun h => ?_, fun s n h => ?_, fun r h => ?_, fun q r h => ?_, fun r h => ?_,
    fun _ => ⟨⟨⟨rfl, rfl, rfl⟩, rfl⟩, rfl, rfl, rfl⟩⟩
  case refine_3 => cases s <;> cases n <;> cases h
  all_goals cases h

/-- A goroutine that is done has closed its connection. -/
theorem closed_step {l l' : Link} {a : Act} (hi : Steady l) (hm : Move l a l') (s : Side) (n : LoopName)
    (hd : (l'.loop s n).isDone = true) : (l'.sock s).closed = true := by
  rcases loop_step hi.flow.known hm s n with heq | ⟨ev, rfl, hlm⟩
  · exact (lasting_step hm s).1 (hi.closed s n (heq ▸ hd))
  · generalize hp : l'.port s = p at hlm
    generalize l.loop s n = x at hlm
    generalize l'.loop s n = y at hlm hd
    cases hlm with
    | close n e => exact congrArg (fun p => p.sock.closed) hp
    | _ => cases hd

/-- While the server has not started its goroutines, the client's `streamQUICtoTCP` has read nothing. -/
theorem start_of_early {l : Link} (h : Early l) {r : Relay} (hr : l.relay .client = some r) :
    r.loop .streamQUICtoTCP = .start := by
  have hs := h.start
  simpa [Link.loop, hr] using hs

/-- While the server has not started its goroutines, one of the client's makes a step. -/
theorem early_loop {l : Link} (hi : Steady l) (hserver : l.relay .server = none) {n : LoopName} {ev : LoopEv} {r : Relay}
    {p : Port}
    {x : Loop} (hw : l.waits .client = some r) (hlm : LoopMove l.sessionDown (l.port .client) n (r.loop n) ev p x) :
    Early ((l.setPort .client p).setRelay .client (r.setLoop n x)) := by
  have h := hi.early hserver
  have hstart := start_of_early h (relay_of_waits hw)
  have hempty : l.down.bytes.sent = [] := ((hi.flow.flow .server).before hserver).1
  have hready : l.down.bytes.ready = [] := by
    simp only [Fifo.sent, List.append_eq_nil_iff] at hempty
    exact hempty.1.1.2
  generalize hport : l.port .client = q at hlm
  have hout : q.out = l.up := hport ▸ rfl
  have hin : q.inn = l.down := hport ▸ rfl
  rw [hi.session] at hlm
  cases n with
  | streamTCPtoQUIC =>
    generalize r.loop .streamTCPtoQUIC = y at hlm
    cases hlm with
    | writeQuic buf er k ew x c hw' hc =>
      obtain ⟨rfl, -⟩ := Half.write_some hw'
      exact ⟨hin ▸ h.down, hstart, hout ▸ h.fin, hout ▸ h.stopped⟩
    | _ => exact ⟨hin ▸ h.down, hstart, hout ▸ h.fin, hout ▸ h.stopped⟩
  | streamQUICtoTCP =>
    -- at its start it can only read, and there is nothing to read
    rw [hstart] at hlm
    cases hlm with
    | readQuic k er bs x c hr hc =>
      obtain ⟨hbs, -⟩ := Half.read_some hr
      obtain ⟨-, hne⟩ := (hin ▸ h.down.toReadable : q.inn.Readable).read hr
      rw [hbs, hin, hready] at hne
      exact absurd List.take_nil hne

/-- While the server has not started its goroutines, a Read of the header does not fail. -/
theorem early_readHeader {l : Link} (hi : Steady l) (hserver : l.relay .server = none) {k : Nat} {er : Option IoErr}
    {bs : List UInt8} {h : Half} (hr : l.up.read l.sessionDown k er = some (bs, h)) : er = none := by
  have he := hi.early hserver
  obtain ⟨-, -, -, heof, hother⟩ := Half.read_some hr
  cases er with
  | none => rfl
  | some e =>
    cases e with
    | EOF => exact Bool.noConfusion (he.fin.symm.trans (heof rfl).2.2)
    | other =>
      rcases hother rfl with hreset | hstopped | hdown
      · simp [Half.reset, hi.flow.channels.up] at hreset
      · exact Bool.noConfusion (he.stopped.symm.trans hstopped)
      · exact Bool.noConfusion (hi.session.symm.trans hdown)

/-- While the server has not started its goroutines, those of the client read nothing and the header Reads do not fail. -/
theorem early_step {l l' : Link} {a : Act} (hi : Steady l) (ho : a.outside = false) (hm : Move l a l')
    (hr : l'.relay .server = none) : Early l' ∧ l'.server ≠ .returned none := by
  cases hm with
  | app | dest =>
    have h := hi.early hr
    exact ⟨⟨h.down, h.start, h.fin, h.stopped⟩, hi.server⟩
  | deliver s k x hd =>
    obtain ⟨-, -, rfl⟩ := Half.deliver_some hd
    cases s with
    | client =>
      have h := hi.early hr
      exact ⟨⟨h.down, h.start, h.fin, h.stopped⟩, hi.server⟩
    | server =>
      have h := hi.early hr
      exact ⟨⟨⟨⟨h.down.fin, h.down.stopped, h.down.kept⟩, h.down.dead⟩, h.start, h.fin, h.stopped⟩, hi.server⟩
  | sessionFail => cases ho
  | openStream hc =>
    have h := hi.early hr
    exact ⟨⟨h.down, rfl, h.fin, h.stopped⟩, hi.server⟩
  | drop => cases ho
  | writeHeader k ew x hc hw =>
    have h := hi.early hr
    obtain ⟨rfl, -⟩ := Half.write_some hw
    exact ⟨⟨h.down, rfl, h.fin, h.stopped⟩, hi.server⟩
  | loop s n ev r p x hw hlm =>
    cases s with
    | server =>
      rw [relay_setRelay ((waits_setPort l .server .server p).trans hw), if_pos rfl] at hr
      cases hr
    | client => exact ⟨early_loop hi hr hw hlm, hi.server⟩
  | close r hc hd =>
    have hstart := start_of_early (hi.early hr) (relay_of_waits (waits_client_iff.mpr hc))
    cases (hstart ▸ Relay.isDone_iff.mp hd .streamQUICtoTCP : Loop.start.isDone = true)
  | readHeader k er bs x y hr' hx =>
    obtain ⟨⟨p, hp⟩, hy⟩ := relay_of_readHeader hi.flow.known hx
    have hserver := relay_server_of (Or.inl ⟨p, hp⟩)
    have h := hi.early hserver
    have her := early_readHeader hi hserver hr'
    obtain ⟨-, rfl, -⟩ := Half.read_some hr'
    refine ⟨⟨h.down, h.start, h.fin, h.stopped⟩, ?_⟩
    rintro rfl
    rcases hy with ⟨p', hy⟩ | ⟨q, hy⟩ | ⟨-, hne⟩
    · cases hy
    · cases hy
    · exact hne her
  | dialled q hq => cases hr
  | notDialled => cases ho
  | cancelRead q r hq hd => cases hr
  | cancelWrite q r hq => cases hr

/-- A client returns when both its goroutines are done, and closes its TCP connection and its direction of the stream. -/
theorem returned_of_move {l l' : Link} {a : Act} (hm : Move l a l') {r : Relay} (hr : l'.client = .stream (.returned r)) :
    (r.isDone = true ∧ l'.app.closed = true ∧ l'.up.fin = true) ∨ l.client = .stream (.returned r) := by
  cases hm with
  | close r' hc hd =>
    cases hr
    exact Or.inl ⟨hd, rfl, rfl⟩
  | openStream | writeHeader | drop => cases hr
  | loop s n ev r' p x hw hlm =>
    cases s with
    | client => cases hr
    | server => exact Or.inr (by simpa using hr)
  | deliver s k h hd => cases s <;> exact Or.inr hr
  | _ => exact Or.inr hr

/-- A client that has returned has ended its direction of the stream. -/
theorem clientReturned_step {l l' : Link} {a : Act} (hi : Steady l) (hm : Move l a l') (r : Relay)
    (hr : l'.client = .stream (.returned r)) : r.isDone = true ∧ l'.up.fin = true := by
  rcases returned_of_move hm hr with ⟨hd, -, hf⟩ | he
  · exact ⟨hd, hf⟩
  · obtain ⟨hd, hf⟩ := hi.clientReturned r he
    exact ⟨hd, (lasting_step hm .client).2.1 hf⟩

/-- Both goroutines of a server that cancels the stream are done, and once it has returned its direction is cancelled. -/
theorem serverOver_step {l l' : Link} {a : Act} (hi : Steady l) (hm : Move l a l') :
    (∀ q r, l'.server = .cancelWrite q r → r.isDone = true) ∧
      ∀ r, l'.server = .returned (some r) → r.isDone = true ∧ l'.down.reset = true := by
  have hreset : l.down.reset = true → l'.down.reset = true := (lasting_step hm .server).2.2
  have hkeep : l'.server = l.server → (∀ q r, l'.server = .cancelWrite q r → r.isDone = true) ∧
      ∀ r, l'.server = .returned (some r) → r.isDone = true ∧ l'.down.reset = true := by
    intro he
    refine ⟨fun q r hs => hi.serverDone q r (he ▸ hs), ?_⟩
    intro r hs
    obtain ⟨hd, hr⟩ := hi.serverReturned r (he ▸ hs)
    exact ⟨hd, hreset hr⟩
  have hearlier : (∀ q r, l'.server ≠ .cancelWrite q r) → (∀ r, l'.server ≠ .returned (some r)) →
      (∀ q r, l'.server = .cancelWrite q r → r.isDone = true) ∧
        ∀ r, l'.server = .returned (some r) → r.isDone = true ∧ l'.down.reset = true :=
    fun hc hr => ⟨fun q r hs => absurd hs (hc q r), fun r hs => absurd hs (hr r)⟩
  cases hm with
  | readHeader k er bs h x hr hx =>
    obtain ⟨-, ⟨p, rfl⟩ | ⟨q, rfl⟩ | ⟨rfl, -⟩⟩ := relay_of_readHeader hi.flow.known hx <;> exact hearlier (by simp) (by simp)
  | dialled | notDialled => exact hearlier (by simp) (by simp)
  | cancelRead q r hq hd =>
    refine ⟨?_, ?_⟩
    · intro q' r' hs
      cases hs
      exact hd
    · intro r' hs
      cases hs
  | cancelWrite q r hq =>
    have hdown : l.down.bytes.abandoned = none := by
      rcases hi.flow.channels.down with h | ⟨r', h⟩
      · exact h
      · cases hq.symm.trans h
    refine ⟨?_, ?_⟩
    · intro q' r' hs
      cases hs
    · intro r' hs
      cases hs
      exact ⟨hi.serverDone q r hq, by simp [Half.reset, Half.cancelWrite, Fifo.abandon, hdown]⟩
  | loop s n ev r p x hw hlm =>
    cases s with
    | client => exact hkeep (setPort_server _ _ _)
    | server =>
      obtain ⟨q, hq⟩ := waits_server_iff.mp hw
      have hserver : ((l.setPort .server p).setRelay .server (r.setLoop n x)).server = .wait q (r.setLoop n x) := by
        simp only [setRelay, setPort_server, hq]
      exact hearlier (by simp [hserver]) (by simp [hserver])
  | deliver s k h hd => cases s <;> exact hkeep rfl
  | _ => exact hkeep rfl

/-- A step with which nothing outside fails keeps a connection steady. -/
theorem steady_step {l l' : Link} {a : Act} (hi : Steady l) (ho : a.outside = false) (hs : l.step a = some l') : Steady l' := by
  have hm := move_of_step hs
  have hearly := early_step hi ho hm
  have hover := serverOver_step hi hm
  refine ⟨flowInv_step hi.flow hs, ?_, ?_, ?_, closed_step hi hm, clientReturned_step hi hm, hover.1, hover.2,
    fun hr => (hearly hr).1⟩
  · cases hm with
    | sessionFail => cases ho
    | loop => simpa using hi.session
    | deliver s k h hd => cases s <;> exact hi.session
    | _ => exact hi.session
  · cases hm with
    | openStream | writeHeader | close => simp
    | drop => cases ho
    | loop s n ev r p x hw hlm =>
      cases s with
      | client => simp [setRelay]
      | server => simpa using hi.client
    | deliver s k h hd => cases s <;> exact hi.client
    | _ => exact hi.client
  · intro he
    exact (hearly (by simp only [relay, he])).2 he

/-! ## At rest -/

/-- A side is over: its handler has returned and both its goroutines are done. -/
def Gone (l : Link) : Side → Prop
  | .client => ∃ r, l.client = .stream (.returned r) ∧ r.isDone = true
  | .server => ∃ r, l.server = .returned (some r) ∧ r.isDone = true

/-- The goroutines of a side whose handler has returned are done. -/
theorem loop_of_gone {l : Link} {s : Side} (h : Gone l s) (n : LoopName) : (l.loop s n).isDone = true := by
  cases s with
  | client =>
    obtain ⟨r, hc, hd⟩ := h
    simp only [Link.loop, relay, hc, Option.getD_some]
    exact Relay.isDone_iff.mp hd n
  | server =>
    obtain ⟨r, hs, hd⟩ := h
    simp only [Link.loop, relay, hs, Option.getD_some]
    exact Relay.isDone_iff.mp hd n

/-- At rest, a side that has started its goroutines waits for them or has returned. -/
theorem rest_started {l : Link} (hi : Steady l) (hq : AtRest l) {s : Side} (hr : l.relay s ≠ none) :
    (∃ r, l.waits s = some r) ∨ Gone l s := by
  cases s with
  | client =>
    cases hc : l.client with
    | opening => exact absurd (by simp only [relay, hc]) hr
    | dropped => exact absurd hc hi.client
    | stream c =>
      cases c with
      | header => exact absurd (by simp only [relay, hc]) hr
      | wait r => exact Or.inl ⟨r, waits_client_iff.mpr hc⟩
      | returned r => exact Or.inr ⟨r, hc, (hi.clientReturned r hc).1⟩
  | server =>
    cases hs : l.server with
    | header p => exact absurd (by simp only [relay, hs]) hr
    | dial q => exact absurd (by simp only [relay, hs]) hr
    | wait q r => exact Or.inl ⟨r, waits_server_iff.mpr ⟨q, hs⟩⟩
    | cancelWrite q r => exact absurd hs ((rest_server hq).2 q r)
    | returned r =>
      cases r with
      | none => exact absurd hs hi.server
      | some r => exact Or.inr ⟨r, hs, (hi.serverReturned r hs).1⟩

/-- At rest, a `streamQUICtoTCP` that is done has taken its own handler with it: it has closed the connection, so the other
goroutine of the side cannot be blocked in a Read of it. -/
theorem rest_side {l : Link} (hi : Steady l) (hq : AtRest l) {s : Side} (hd : (l.loop s .streamQUICtoTCP).isDone = true) :
    Gone l s := by
  have hclosed := hi.closed s _ hd
  have hr : l.relay s ≠ none := by
    intro hn
    rw [Link.loop, hn] at hd
    cases hd
  rcases rest_started hi hq hr with ⟨r, hw⟩ | hg
  · rw [Link.loop, relay_of_waits hw] at hd
    have hboth : r.isDone = true := by
      refine Relay.isDone_iff.mpr ?_
      intro n
      cases n with
      | streamQUICtoTCP => exact hd
      | streamTCPtoQUIC =>
        rcases rest_loop_cases hq hw .streamTCPtoQUIC with hread | hdone
        · exact Bool.noConfusion ((rest_tcp_read hq hw hread).1.symm.trans hclosed)
        · exact hdone
    exact Bool.noConfusion ((rest_not_done hq hw).symm.trans hboth)
  · exact hg

/-- At rest, a goroutine that is over is done. -/
theorem rest_over {l : Link} (hi : Steady l) (hq : AtRest l) {s : Side} {n : LoopName} (ho : (l.loop s n).Over) :
    (l.loop s n).isDone = true := by
  have hr : l.relay s ≠ none := by
    intro hn
    rw [Link.loop, hn] at ho
    cases n <;> exact ho.elim
  rcases rest_started hi hq hr with ⟨r, hw⟩ | hg
  · rw [Link.loop, relay_of_waits hw] at ho ⊢
    rcases rest_loop_cases hq hw n with hread | hdone
    · simp only [Option.getD_some, hread] at ho
      exact ho.elim
    · exact hdone
  · exact loop_of_gone hg n

/-- At rest, a handler that has returned has ended the direction that the other side reads, so the other `streamQUICtoTCP`
is done as well. -/
theorem rest_across {l : Link} (hi : Steady l) (hq : AtRest l) {s : Side} (hg : Gone l s) : Gone l s.other := by
  refine rest_side hi hq ?_
  have hended : (l.half s).fin = true ∨ (l.half s).reset = true := by
    cases s with
    | client =>
      obtain ⟨r, hc, -⟩ := hg
      exact Or.inl (hi.clientReturned r hc).2
    | server =>
      obtain ⟨r, hs, -⟩ := hg
      exact Or.inr (hi.serverReturned r hs).2
  have hr : l.relay s.other ≠ none := by
    cases s with
    | client =>
      intro hn
      obtain ⟨r, hc, hd⟩ := hg
      exact Bool.noConfusion ((hi.early hn).fin.symm.trans (hi.clientReturned r hc).2)
    | server =>
      intro hn
      have hne := rest_client hq hi.session
      cases hc : l.client with
      | opening => exact hne.1 hc
      | dropped => exact hi.client hc
      | stream c =>
        cases c with
        | header => exact hne.2 hc
        | wait r => simp [Side.other, relay, hc] at hn
        | returned r => simp [Side.other, relay, hc] at hn
  rcases rest_started hi hq hr with ⟨r, hw⟩ | hg'
  · rw [Link.loop, relay_of_waits hw]
    rcases rest_loop_cases hq hw .streamQUICtoTCP with hread | hdone
    · obtain ⟨-, hreset, hfin⟩ := rest_quic_read hq hw hread
      rw [other_other] at hreset hfin
      rcases hended with h | h
      · exact Bool.noConfusion (hfin.symm.trans h)
      · exact Bool.noConfusion (hreset.symm.trans h)
    · exact hdone
  · exact loop_of_gone hg' _

end LinkAux

end Link

end Qpep
