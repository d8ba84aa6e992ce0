import Qpep.Lemmas.Flow

/-!
# A connection that is up

While nothing outside the two handlers fails and no Write to a TCP connection has failed, both directions of the stream are
up and both `streamQUICtoTCP` are copying (`Alive`): neither handler can get past its wait. `Loop.Over` is the opposite, and
once a goroutine is over it stays so.
-/

namespace Qpep

open Io Machine HeaderAux Server.ServerAux

/-- Neither end has ended or stopped this direction of the stream, so a Read of it returns data only. -/
structure Half.Readable (h : Half) : Prop where
  fin : h.fin = false
  stopped : h.stopped = false
  kept : h.bytes.abandoned = none

/-- No Write of it has failed either, so every Write of it succeeds. -/
structure Half.Up (h : Half) : Prop extends h.Readable where
  dead : h.dead = false

/-- The goroutine is in `io.Copy`, and no Read has returned an error. -/
def Loop.Copying : Loop → Prop
  | .copy .read | .copy (.write _ none) => True
  | _ => False

/-- The `io.Copy` of the goroutine has returned. -/
def Loop.Over : Loop → Prop
  | .copy (.ended _) | .done _ => True
  | _ => False

theorem Loop.Copying.not_done {l : Loop} (h : l.Copying) : l.isDone = false := by
  cases l with
  | copy c => rfl
  | done e => exact h.elim

theorem Loop.Over.not_copying {l : Loop} (h : l.Over) : ¬l.Copying := by
  intro hc
  cases l with
  | copy c =>
    cases c with
    | ended e => exact hc
    | _ => exact h
  | done e => exact hc

theorem Loop.over_of_isDone {l : Loop} (h : l.isDone = true) : l.Over := by
  cases l with
  | copy c => cases h
  | done e => trivial

theorem Half.Readable.reset {h : Half} (hu : h.Readable) : h.reset = false := by
  simp [Half.reset, hu.kept]

/-- A Write to a stream that is up succeeds and leaves it up. -/
theorem Half.Up.write {h h' : Half} {buf : List UInt8} {k : Nat} {ew : Option IoErr} (hu : h.Up)
    (hw : h.write false buf k ew = some h') : ew = none ∧ k = buf.length ∧ h'.Up := by
  obtain ⟨rfl, -, hok, herr⟩ := Half.write_some hw
  cases ew with
  | none => exact ⟨rfl, (hok rfl).1, ⟨hu.fin, hu.stopped, (Fifo.push_abandoned _ _).trans hu.kept⟩, by simp [hu.dead]⟩
  | some e =>
    have hcause := (herr e rfl).1
    simp [hu.fin, hu.reset, hu.dead, hu.stopped] at hcause

/-- A Read of a stream that nobody has ended returns data. -/
theorem Half.Readable.read {h h' : Half} {bs : List UInt8} {k : Nat} {er : Option IoErr} (hu : h.Readable)
    (hr : h.read false k er = some (bs, h')) : er = none ∧ bs ≠ [] := by
  obtain ⟨hbs, -, hok, heof, hother⟩ := Half.read_some hr
  cases er with
  | none =>
    obtain ⟨hpos, hle⟩ := hok rfl
    refine ⟨rfl, ?_⟩
    rw [hbs, ← List.length_pos_iff, List.length_take]
    omega
  | some e =>
    cases e with
    | EOF => exact absurd (heof rfl).2.2 (by simp [hu.fin])
    | other => exact absurd (hother rfl) (by simp [hu.reset, hu.stopped])

/-- A step of a goroutine leaves the two directions up. -/
theorem LoopMove.up {p p' : Port} {n : LoopName} {l l' : Loop} {ev : LoopEv} (hm : LoopMove false p n l ev p' l') :
    (p.out.Up → p'.out.Up) ∧ (p.inn.Up → p'.inn.Up) := by
  cases hm with
  | writeQuic buf er k ew h c hw hcs => exact ⟨fun ho => (ho.write hw).2.2, fun hin => hin⟩
  | readQuic k er bs h c hr hcs =>
    obtain ⟨-, rfl, -⟩ := Half.read_some hr
    exact ⟨fun ho => ho, fun hin => ⟨⟨hin.fin, hin.stopped, hin.kept⟩, hin.dead⟩⟩
  | _ => exact ⟨fun ho => ho, fun hin => hin⟩

/-- A `streamQUICtoTCP` goes on copying while its stream has not been ended, unless a Write to the TCP connection fails. -/
theorem LoopMove.copying {p p' : Port} {l l' : Loop} {ev : LoopEv} (hm : LoopMove false p .streamQUICtoTCP l ev p' l')
    (hin : p.inn.Readable) (hc : l.Copying) (hev : ∀ k e, ev ≠ .write k (some e)) : l'.Copying := by
  cases hm with
  | readQuic k er bs h c hr hcs =>
    obtain ⟨rfl, hne⟩ := hin.read hr
    obtain ⟨-, ⟨-, rfl⟩ | ⟨hnil, -⟩ | ⟨e, hnil, -⟩⟩ := Copy.step_read hcs
    · trivial
    · exact absurd hnil hne
    · exact absurd hnil hne
  | writeTcp buf er k ew s c hw hcs =>
    cases ew with
    | some e => exact absurd rfl (hev k e)
    | none =>
      have hk := ((Sock.write_some hw).2.2.1 rfl).1
      obtain ⟨_, _, hcw, ⟨hbad, -⟩ | ⟨-, -, hend⟩⟩ := Copy.step_write hcs
      · cases hcw
        exact absurd hbad (by simp [hk])
      · cases hcw
        rcases hend with ⟨-, rfl⟩ | ⟨e, rfl, -⟩
        · trivial
        · exact hc.elim
  | partTcp buf er k s hw hpos hlt =>
    cases er with
    | none => trivial
    | some e => exact hc.elim
  | close n e => exact hc.elim

/-- A `streamTCPtoQUIC` that holds nothing and can read nothing more writes nothing more. -/
theorem LoopMove.nothing_more {down : Bool} {p p' : Port} {l l' : Loop} {ev : LoopEv}
    (hm : LoopMove down p .streamTCPtoQUIC l ev p' l') (hwire : p.out.bytes.wire = []) (hheld : l.held = [])
    (hend : l.Over ∨ p.sock.closed = true ∨ p.sock.fin = true ∧ p.sock.inn.ready = [] ∧ p.sock.inn.wire = []) :
    p'.out.bytes.wire = [] ∧ l'.held = [] ∧
      (l'.Over ∨ p'.sock.closed = true ∨ p'.sock.fin = true ∧ p'.sock.inn.ready = [] ∧ p'.sock.inn.wire = []) := by
  cases hm with
  | readTcp k er bs t c hr hc =>
    obtain ⟨hbs, rfl, hdata, heof, hother⟩ := Sock.read_some hr
    have hnil : bs = [] ∧ er ≠ none := by
      rcases hend with hov | hcl | ⟨-, hready, -⟩
      · exact hov.elim
      · refine ⟨?_, fun he => Bool.noConfusion ((hdata he).2.2.symm.trans hcl)⟩
        cases er with
        | none => exact Bool.noConfusion ((hdata rfl).2.2.symm.trans hcl)
        | some e =>
          cases e with
          | EOF => exact Bool.noConfusion ((heof rfl).2.2.2.2.symm.trans hcl)
          | other => rw [hbs, (hother rfl).1, List.take_zero]
      · refine ⟨by rw [hbs, hready, List.take_nil], ?_⟩
        intro he
        have hle := (hdata he).2.1
        rw [hready] at hle
        exact absurd (hdata he).1 (Nat.not_lt.mpr hle)
    obtain ⟨-, ⟨hne, -⟩ | ⟨-, hnone, -⟩ | ⟨e, -, -, rfl⟩⟩ := Copy.step_read hc
    · exact absurd hnil.1 hne
    · exact absurd hnone hnil.2
    · exact ⟨hwire, rfl, Or.inl trivial⟩
  | writeQuic buf er k ew h c hw hc =>
    obtain ⟨rfl, -⟩ := Half.write_some hw
    have hbuf : buf = [] := hheld
    have hrest := hend.resolve_left fun hov => hov
    subst hbuf
    simp only [List.take_nil, Fifo.push_nil]
    obtain ⟨_, _, -, ⟨-, rfl⟩ | ⟨-, -, ⟨-, rfl⟩ | ⟨e, -, rfl⟩⟩⟩ := Copy.step_write hc
    · exact ⟨hwire, rfl, Or.inl trivial⟩
    · exact ⟨hwire, rfl, Or.inr hrest⟩
    · exact ⟨hwire, rfl, Or.inl trivial⟩
  | close n e => exact ⟨hwire, rfl, Or.inl trivial⟩

namespace Link

/-- Something outside the two handlers fails: the session is lost, the client gets no stream, or the destination cannot be
dialled. -/
def Act.outside : Act → Bool
  | .sessionFail | .drop | .dialTimeout false => true
  | _ => false

/-- A Write to a TCP connection fails. -/
def Act.socketWriteFails : Act → Bool
  | .loop _ .streamQUICtoTCP (.write _ (some _)) => true
  | _ => false

/-- The connection is up: both directions of the stream, both `streamQUICtoTCP`, and neither handler past its wait. -/
structure Alive (l : Link) : Prop where
  known : l.server.Known
  session : l.sessionDown = false
  half : ∀ s, (l.half s).Up
  copying : ∀ s, (l.loop s .streamQUICtoTCP).Copying
  client : l.client = .opening ∨ l.client = .stream .header ∨ ∃ r, l.client = .stream (.wait r)
  server : (∃ p, l.server = .header p) ∨ (∃ q, l.server = .dial q) ∨ ∃ q r, l.server = .wait q r

namespace LinkAux

theorem alive_init (header : QpepHeader) : Alive (Link.init header) := by
  refine ⟨known_start, rfl, ?_, ?_, Or.inl rfl, Or.inl ⟨_, rfl⟩⟩
  · intro s
    cases s <;> exact ⟨⟨rfl, rfl, rfl⟩, rfl⟩
  · intro s
    cases s <;> trivial

/-- A step of a goroutine, on what its side holds. -/
theorem loop_of_move {l l' : Link} {s : Side} {n : LoopName} {ev : LoopEv} (hm : Move l (.loop s n ev) l') :
    LoopMove l.sessionDown (l.port s) n (l.loop s n) ev (l'.port s) (l'.loop s n) := by
  cases hm with
  | loop _ _ _ r p x hw hlm =>
    have hrel := relay_setRelay ((waits_setPort l s s p).trans hw) s (r.setLoop n x)
    rw [if_pos rfl] at hrel
    have hold : l.loop s n = r.loop n := by simp [loop, relay_of_waits hw]
    have hnew : ((l.setPort s p).setRelay s (r.setLoop n x)).loop s n = x := by simp [loop, hrel]
    have hport : ((l.setPort s p).setRelay s (r.setLoop n x)).port s = p := by simp [port]
    rwa [hold, hnew, hport]

/-- The goroutines of the two sides: each step leaves each of them alone or is a step of it. -/
theorem loop_step {l l' : Link} {a : Act} (hk : l.server.Known) (hm : Move l a l') (s : Side) (n : LoopName) :
    l'.loop s n = l.loop s n ∨
      ∃ ev, a = .loop s n ev ∧ LoopMove l.sessionDown (l.port s) n (l.loop s n) ev (l'.port s) (l'.loop s n) := by
  have hstart : ∀ {m : Link} {s : Side}, m.relay s = none ∨ m.relay s = some .start → m.loop s n = .start := by
    intro m s h
    rcases h with h | h <;> cases n <;> simp [loop, h, Relay.start, Relay.loop]
  cases hm with
  | deliver s' k h hd => exact Or.inl (by simp [loop])
  | openStream hc hs =>
    cases s with
    | client => exact Or.inl ((hstart (Or.inl rfl)).trans (hstart (Or.inl (by simp only [relay, hc]))).symm)
    | server => exact Or.inl rfl
  | drop hc =>
    cases s with
    | client => exact Or.inl ((hstart (Or.inl rfl)).trans (hstart (Or.inl (by simp only [relay, hc]))).symm)
    | server => exact Or.inl rfl
  | writeHeader k ew h hc hw =>
    cases s with
    | client => exact Or.inl ((hstart (Or.inr rfl)).trans (hstart (Or.inl (by simp only [relay, hc]))).symm)
    | server => exact Or.inl rfl
  | loop s' n' ev r p x hw hlm =>
    by_cases hn : s = s' ∧ n = n'
    · obtain ⟨rfl, rfl⟩ := hn
      exact Or.inr ⟨ev, rfl, loop_of_move (.loop s n ev r p x hw hlm)⟩
    · left
      have hrel := relay_setRelay ((waits_setPort l s' s' p).trans hw) s (r.setLoop n' x)
      by_cases hs : s = s'
      · subst hs
        have hne : n ≠ n' := fun he => hn ⟨rfl, he⟩
        rw [if_pos rfl] at hrel
        simp [loop, hrel, relay_of_waits hw, Relay.loop_setLoop_ne r hne x]
      · rw [if_neg hs, relay_setPort] at hrel
        simp only [loop, hrel]
  | close r hc hd =>
    cases s with
    | client => exact Or.inl (by simp only [loop, relay, hc])
    | server => exact Or.inl rfl
  | readHeader k er bs h x hr hs =>
    obtain ⟨⟨p, hp⟩, hx⟩ := relay_of_readHeader hk hs
    cases s with
    | client => exact Or.inl rfl
    | server =>
      have hstill := relay_server_of (l := { l with server := x }) (hx.imp_right (Or.imp_right And.left))
      have hbefore := relay_server_of (Or.inl ⟨p, hp⟩)
      exact Or.inl ((hstart (Or.inl hstill)).trans (hstart (Or.inl hbefore)).symm)
  | dialled q hs =>
    cases s with
    | client => exact Or.inl rfl
    | server => exact Or.inl ((hstart (Or.inr rfl)).trans (hstart (Or.inl (by simp only [relay, hs]))).symm)
  | notDialled q hs =>
    cases s with
    | client => exact Or.inl rfl
    | server => exact Or.inl ((hstart (Or.inl rfl)).trans (hstart (Or.inl (by simp only [relay, hs]))).symm)
  | cancelRead q r hs hd =>
    cases s with
    | client => exact Or.inl rfl
    | server => exact Or.inl (by simp only [loop, relay, hs])
  | cancelWrite q r hs =>
    cases s with
    | client => exact Or.inl rfl
    | server => exact Or.inl (by simp only [loop, relay, hs])
  | _ => exact Or.inl (by cases s <;> rfl)

/-- A goroutine that is over stays so. -/
theorem over_step {l l' : Link} {a : Act} (hk : l.server.Known) (hm : Move l a l') {s : Side} {n : LoopName}
    (h : (l.loop s n).Over) : (l'.loop s n).Over := by
  rcases loop_step hk hm s n with heq | ⟨ev, -, hlm⟩
  · exact heq ▸ h
  · generalize l.loop s n = x at h hlm
    generalize l'.loop s n = y at hlm
    generalize l'.port s = p at hlm
    cases hlm with
    | close n e => trivial
    | _ => exact h.elim

/-- A step of one of the goroutines of a connection that is up, unless it is a failed Write to the TCP connection. -/
theorem alive_loop {l : Link} {s : Side} {n : LoopName} {ev : LoopEv} {p : Port} {x : Loop} (hi : Alive l)
    (hm : LoopMove l.sessionDown (l.port s) n (l.loop s n) ev p x) : p.out.Up ∧ p.inn.Up := by
  rw [hi.session] at hm
  exact ⟨hm.up.1 (hi.half s), hm.up.2 (hi.half s.other)⟩

/-- Both directions of the stream stay up. -/
theorem half_alive_step {l l' : Link} {a : Act} (hi : Alive l) (hm : Move l a l')
    (hl : ∀ q r, l.server ≠ .cancelWrite q r) (s : Side) : (l'.half s).Up := by
  have hdone : ∀ {s r}, l.waits s = some r → r.isDone = true → False := by
    intro s r hw hd
    have hc := (hi.copying s).not_done
    rw [Link.loop, relay_of_waits hw] at hc
    have hd' := Relay.isDone_iff.mp hd .streamQUICtoTCP
    exact Bool.noConfusion (hc.symm.trans hd')
  cases hm with
  | deliver s' k h hd =>
    obtain ⟨-, -, rfl⟩ := Half.deliver_some hd
    rw [half_setHalf]
    split
    · have hup := hi.half s'
      exact ⟨⟨hup.fin, hup.stopped, hup.kept⟩, hup.dead⟩
    · exact hi.half s
  | writeHeader k ew h hc hw =>
    rw [hi.session] at hw
    cases s with
    | client => exact ((hi.half .client).write hw).2.2
    | server => exact hi.half .server
  | loop s' n ev r p x hw hlm =>
    have hloop : l.loop s' n = r.loop n := by simp [Link.loop, relay_of_waits hw]
    obtain ⟨hout, hin⟩ := alive_loop hi (hloop ▸ hlm)
    rw [half_setRelay, half_setPort]
    split
    · exact hout
    · exact hin
  | close r hc hd => exact (hdone (waits_client_iff.mpr hc) hd).elim
  | readHeader k er bs h x hr hs =>
    obtain ⟨-, rfl, -⟩ := Half.read_some hr
    have hup : l.up.Up := hi.half .client
    cases s with
    | client => exact ⟨⟨hup.fin, hup.stopped, hup.kept⟩, hup.dead⟩
    | server => exact hi.half .server
  | cancelRead q r hs hd => exact (hdone (waits_server_iff.mpr ⟨q, hs⟩) hd).elim
  | cancelWrite q r hs => exact absurd hs (hl q r)
  | _ =>
    cases s with
    | client => exact hi.half .client
    | server => exact hi.half .server

/-- Unless something outside fails or a Write to a TCP connection fails, a connection that is up stays up. -/
theorem alive_step {l l' : Link} {a : Act} (hi : Alive l) (ho : a.outside = false) (hf : a.socketWriteFails = false)
    (hs : l.step a = some l') : Alive l' := by
  have hm := move_of_step hs
  have hl : ∀ q r, l.server ≠ .cancelWrite q r := by
    intro q r he
    rcases hi.server with ⟨p, h⟩ | ⟨q', h⟩ | ⟨q', r', h⟩ <;> cases h.symm.trans he
  have hhalf := half_alive_step hi hm hl
  have hcopying : ∀ s, (l'.loop s .streamQUICtoTCP).Copying := by
    intro s
    rcases loop_step hi.known hm s .streamQUICtoTCP with heq | ⟨ev, rfl, hlm⟩
    · exact heq ▸ hi.copying s
    · rw [hi.session] at hlm
      refine hlm.copying (hi.half s.other).toReadable (hi.copying s) ?_
      rintro k e rfl
      cases hf
  -- a handler that passed its wait would have a `streamQUICtoTCP` that is done
  have hpassed : ∀ {s r}, l'.relay s = some r → r.isDone = false := by
    intro s r hr
    have hc := (hcopying s).not_done
    rw [Link.loop, hr] at hc
    by_cases hd : r.isDone = true
    · have hd' := Relay.isDone_iff.mp hd .streamQUICtoTCP
      exact Bool.noConfusion (hc.symm.trans hd')
    · exact Bool.not_eq_true _ ▸ hd
  have hknown := known_step hi.known hm
  cases hm with
  | deliver s k h hd => cases s <;> exact ⟨hknown, hi.session, hhalf, hcopying, hi.client, hi.server⟩
  | sessionFail => cases ho
  | openStream hc => exact ⟨hknown, hi.session, hhalf, hcopying, Or.inr (Or.inl rfl), hi.server⟩
  | drop => cases ho
  | writeHeader k ew h hc hw => exact ⟨hknown, hi.session, hhalf, hcopying, Or.inr (Or.inr ⟨_, rfl⟩), hi.server⟩
  | loop s n ev r p x hw hlm =>
    refine ⟨hknown, ?_, hhalf, hcopying, ?_, ?_⟩
    · simpa using hi.session
    · cases s with
      | client => exact Or.inr (Or.inr ⟨_, rfl⟩)
      | server =>
        obtain ⟨q, hq⟩ := waits_server_iff.mp hw
        simp only [setRelay, setPort_server, hq]
        exact hi.client
    · cases s with
      | client => exact hi.server
      | server =>
        obtain ⟨q, hq⟩ := waits_server_iff.mp hw
        simp only [setRelay, setPort_server, hq]
        exact Or.inr (Or.inr ⟨_, _, rfl⟩)
  | close r hc hd => exact Bool.noConfusion (hd.symm.trans (hpassed (s := .client) rfl))
  | readHeader k er bs h x hr hx =>
    rw [hi.session] at hr
    obtain ⟨rfl, -⟩ := (hi.half .client).toReadable.read hr
    obtain ⟨-, hp | hq | ⟨-, hne⟩⟩ := relay_of_readHeader hi.known hx
    · exact ⟨hknown, hi.session, hhalf, hcopying, hi.client, Or.inl hp⟩
    · exact ⟨hknown, hi.session, hhalf, hcopying, hi.client, Or.inr (Or.inl hq)⟩
    · exact absurd rfl hne
  | dialled q hq => exact ⟨hknown, hi.session, hhalf, hcopying, hi.client, Or.inr (Or.inr ⟨_, _, rfl⟩)⟩
  | notDialled => cases ho
  | cancelRead q r hq hd => exact Bool.noConfusion (hd.symm.trans (hpassed (s := .server) rfl))
  | cancelWrite q r hq => exact absurd hq (hl q r)
  | _ => exact ⟨hknown, hi.session, hhalf, hcopying, hi.client, hi.server⟩

end LinkAux

end Link

end Qpep
