import Qpep.Theorems.HalfClose

/-!
# A connection in which nothing has failed

While nothing fails and neither endpoint finishes, a connection has no error on any call (`calm_of_undisturbed`), so the
invariant of a connection that is open both ways carries over (`untouched_step`). When such a connection can make no step,
it has delivered everything (`delivered_of_rest`).
-/

namespace Qpep

open Io Machine HeaderAux Server.ServerAux

/-- Neither a failure of the connection nor an endpoint that finishes. -/
def SockEnv.keepsOpen : SockEnv → Bool
  | .finish | .leave | .fault => false
  | _ => true

/-- The connection works, and its endpoint goes on sending. -/
structure Sock.Open (s : Sock) : Prop where
  fin : s.fin = false
  gone : s.gone = false
  broken : s.broken = false

theorem Sock.open_env {s s' : Sock} {e : SockEnv} (ho : s.Open) (he : e.keepsOpen = true) (hs : s.env e = some s') : s'.Open := by
  cases e with
  | finish => cases he
  | leave => cases he
  | fault => cases he
  | _ =>
    simp only [Sock.env, Option.ite_none_right_eq_some, Option.some.injEq] at hs
    obtain ⟨-, rfl⟩ := hs
    exact ⟨ho.fin, ho.gone, ho.broken⟩

theorem LoopMove.keepsOpen {down : Bool} {p p' : Port} {n : LoopName} {l l' : Loop} {ev : LoopEv}
    (hm : LoopMove down p n l ev p' l') (ho : p.sock.Open) : p'.sock.Open := by
  cases hm with
  | readTcp k er bs s c hr hc =>
    obtain ⟨-, rfl, -⟩ := Sock.read_some hr
    exact ⟨ho.fin, ho.gone, ho.broken⟩
  | writeTcp buf er k ew s c hw hc =>
    obtain ⟨rfl, -⟩ := Sock.write_some hw
    exact ⟨ho.fin, ho.gone, ho.broken⟩
  | partTcp buf er k s hw hpos hlt =>
    obtain ⟨rfl, -⟩ := Sock.part_some hw
    exact ⟨ho.fin, ho.gone, ho.broken⟩
  | close n e => exact ⟨ho.fin, ho.gone, ho.broken⟩
  | _ => exact ho

theorem SockEnv.keepsOpen_of_moves {e : SockEnv} (h : e.moves = true) : e.keepsOpen = true := by
  cases e <;> first | rfl | cases h

namespace Link

open LinkAux

/-- Nothing fails and neither endpoint finishes, and a Read of the header fills its buffer. -/
def undisturbed (l : Link) (a : Act) : Bool :=
  l.headerFills a && match a with
    | .app e | .dest e => e.keepsOpen
    | a => !a.outside

/-- A step that nobody outside the proxy and the network decides on, and a Read of the header fills its buffer. -/
def relays (l : Link) (a : Act) : Bool := a.moves && l.headerFills a

/-- The invariant of a connection in which nothing has failed and neither endpoint has finished. -/
structure Untouched (l : Link) : Prop extends Unfinished l where
  opened : ∀ s, (l.sock s).Open

theorem undisturbed_of_relays {l : Link} {a : Act} (h : l.relays a = true) : l.undisturbed a = true := by
  simp only [relays, undisturbed, Bool.and_eq_true] at h ⊢
  refine ⟨h.2, ?_⟩
  have hm := h.1
  cases a with
  | app e => exact SockEnv.keepsOpen_of_moves hm
  | dest e => exact SockEnv.keepsOpen_of_moves hm
  | _ => exact hm

namespace LinkAux

theorem untouched_init {header : QpepHeader} (hv : header.Valid) : Untouched (Link.init header) := by
  refine ⟨unfinished_init hv, ?_⟩
  intro s
  cases s <;> exact ⟨rfl, rfl, rfl⟩

/-- No call on a TCP connection that is open on both sides fails. -/
theorem not_failing {l : Link} (hi : Untouched l) (s : Side) : (l.sock s).failing = false := by
  simp [Sock.failing, hi.half.opened s, (hi.opened s).gone, (hi.opened s).broken]

/-- While neither endpoint has finished, an undisturbed step is a calm one that finds no end. -/
theorem calm_of_undisturbed {l l' : Link} {a : Act} (hi : Untouched l) (ha : l.undisturbed a = true) (hs : l.step a = some l') :
    l.calm a = true ∧ a.findsEnd = false := by
  simp only [undisturbed, Bool.and_eq_true] at ha
  obtain ⟨hfills, ha⟩ := ha
  cases move_of_step hs with
  | app e s he => cases e <;> first | exact ⟨rfl, rfl⟩ | cases ha
  | dest e s hr he => cases e <;> first | exact ⟨rfl, rfl⟩ | cases ha
  | loop s n ev r p x hw hlm =>
    generalize r.loop n = y at hlm
    have hfail : (l.port s).sock.failing = false := not_failing hi s
    have hfin : (l.port s).sock.fin = false := (hi.opened s).fin
    cases hlm with
    | readTcp k er bs t c hr hc =>
      obtain ⟨-, -, -, heof, hother⟩ := Sock.read_some hr
      cases er with
      | none => exact ⟨rfl, rfl⟩
      | some e =>
        cases e with
        | EOF => exact Bool.noConfusion (hfin.symm.trans (heof rfl).2.2.2.1)
        | other => exact Bool.noConfusion (hfail.symm.trans (hother rfl).2)
    | writeTcp buf er k ew t c hwr hc =>
      obtain ⟨-, -, -, herr⟩ := Sock.write_some hwr
      cases ew with
      | none => exact ⟨rfl, rfl⟩
      | some e => exact Bool.noConfusion (hfail.symm.trans (herr e rfl).1)
    | writeQuic => exact ⟨rfl, rfl⟩
    | readQuic => exact ⟨rfl, rfl⟩
    | partTcp => exact ⟨rfl, rfl⟩
    | close n e => cases n <;> exact ⟨rfl, rfl⟩
  | sessionFail => cases ha
  | drop => cases ha
  | notDialled => cases ha
  | _ => exact ⟨rfl, rfl⟩

theorem untouched_step {l l' : Link} {a : Act} (hi : Untouched l) (ha : l.undisturbed a = true) (hs : l.step a = some l') :
    Untouched l' := by
  obtain ⟨hcalm, hend⟩ := calm_of_undisturbed hi ha hs
  simp only [undisturbed, Bool.and_eq_true] at ha
  refine ⟨unfinished_step hi.toUnfinished hcalm ha.1 hend hs, ?_⟩
  intro s
  cases move_of_step hs with
  | app e t he =>
    cases s with
    | client => exact Sock.open_env (hi.opened .client) ha.2 he
    | server => exact hi.opened .server
  | dest e t hr he =>
    cases s with
    | client => exact hi.opened .client
    | server => exact Sock.open_env (hi.opened .server) ha.2 he
  | loop s' n ev r p x hw hlm =>
    simp only [sock_setRelay, sock_setPort]
    split
    · rename_i he
      subst he
      exact hlm.keepsOpen (hi.opened s)
    · exact hi.opened s
  | deliver s' k h hd =>
    simp only [sock_setHalf]
    exact hi.opened s
  | _ =>
    cases s with
    | client => exact ⟨(hi.opened .client).fin, (hi.opened .client).gone, (hi.opened .client).broken⟩
    | server => exact ⟨(hi.opened .server).fin, (hi.opened .server).gone, (hi.opened .server).broken⟩

/-- When no other step is left, a Read of the header finds all that it asks for. -/
theorem header_arrived {l : Link} (hi : Untouched l) (hq : ∀ a, l.relays a = true → l.step a = none)
    {p : ReadProg (Except IoErr QpepHeader)} (hs : l.server = .header p) :
    l.headerIn ++ l.up.bytes.ready = l.up.bytes.sent ∧ l.header.toBytes <+: l.up.bytes.sent := by
  have hheader := hi.half.header
  have hgot : l.up.bytes.got = l.headerIn :=
    ((hheader.flow.flow .server).before (relay_server_of (Or.inl ⟨p, hs⟩))).2.1
  have hwire : l.up.bytes.wire = [] := by
    by_cases hw : l.up.bytes.wire = []
    · exact hw
    · obtain ⟨h, hd⟩ := Option.isSome_iff_exists.mp (Half.deliver_enabled hw)
      cases (hq (.deliver .client _) rfl).symm.trans (step_of_move (.deliver .client _ h hd))
  refine ⟨by simp [Fifo.sent, hgot, hwire, hheader.flow.channels.up], ?_⟩
  rcases hi.half.alive.client with hc | hc | ⟨r, hc⟩
  · cases (hq .openStream rfl).symm.trans (step_of_move (.openStream hc hi.half.alive.session))
  · obtain ⟨k, ew, hw⟩ := Half.write_enabled l.up l.sessionDown l.header.toBytes
    obtain ⟨h, hw⟩ := Option.isSome_iff_exists.mp hw
    cases (hq (.writeHeader k ew) rfl).symm.trans (step_of_move (.writeHeader k ew h hc hw))
  · have hdead : l.up.dead = false := (hi.half.alive.half .client).dead
    rcases hheader.written (by simp [relay, hc]) with hout | ⟨-, hd, -⟩
    · obtain ⟨pay, hpay, -⟩ := (hheader.flow.flow .client).out
      have hpay' : l.up.bytes.sent = l.headerOut ++ pay := hpay
      exact hpay' ▸ hout ▸ List.prefix_append _ _
    · exact Bool.noConfusion (hdead.symm.trans hd)

/-- A connection in which no step is left but Reads of the header that do not fill their buffer has none of these either. -/
theorem atRest_of_quiet {l : Link} (hi : Untouched l) (hq : ∀ a, l.relays a = true → l.step a = none) : AtRest l := by
  intro a ha
  by_cases hf : l.headerFills a = true
  · exact hq a (by simp [relays, hf, show a.moves = true from ha])
  · cases hs : l.step a with
    | none => rfl
    | some l' =>
      exfalso
      cases move_of_step hs with
      | readHeader k er bs h x hr hx =>
        cases er with
        | some e => exact hf rfl
        | none =>
          obtain ⟨⟨p, hp⟩, -⟩ := relay_of_readHeader hi.half.header.flow.known hx
          obtain ⟨hsplit, hpre⟩ := header_arrived hi hq hp
          have hlen := toBytes_length hi.half.valid
          have hle := hpre.length_le
          rw [← hsplit, List.length_append] at hle
          have hread := hi.half.header.read
          rw [hp] at hread
          -- the next Read of the decoder finds its buffer full
          obtain ⟨n, f, rfl, hpos, hn⟩ : ∃ n f, p = .read n f ∧ 0 < n ∧ n ≤ l.up.bytes.ready.length := by
            rcases hread with ⟨rfl, hnil⟩ | ⟨rfl, htwo⟩
            · refine ⟨QPEP_PREAMBLE_LENGTH, _, rfl, by decide, ?_⟩
              rw [hnil] at hle
              simp only [QPEP_PREAMBLE_LENGTH, List.length_nil] at hle ⊢
              omega
            · refine ⟨_, _, readRest_eq _ _, by simp [restLength], ?_⟩
              rw [htwo, List.length_take] at hle
              omega
          have hfull : l.server.step (.read (l.up.bytes.ready.take n) none) =
              some (Server.handleQuicStream (f (l.up.bytes.ready.take n) none)) := by
            simp only [hp, Server.StreamHandler.step, if_pos (List.length_take_le n l.up.bytes.ready)]
          have hrelays : l.relays (.readHeader n none) = true := by
            simp [relays, Act.moves, Act.outside, headerFills, hp]
          cases (hq _ hrelays).symm.trans
            (step_of_move (.readHeader n none _ _ _ (Half.read_enabled hpos hn) hfull))
      | _ => exact hf rfl

/-- At rest, both sides wait for their goroutines. -/
theorem rest_waits {l : Link} (hi : HalfInv l) (hq : AtRest l) (s : Side) : ∃ r, l.waits s = some r := by
  have hclient : ∃ r, l.waits .client = some r := by
    obtain ⟨hopening, hheader⟩ := rest_client hq hi.alive.session
    rcases hi.alive.client with hc | hc | ⟨r, hc⟩
    · exact absurd hc hopening
    · exact absurd hc hheader
    · exact ⟨r, waits_client_iff.mpr hc⟩
  cases s with
  | client => exact hclient
  | server =>
    rcases hi.alive.server with ⟨p, hs⟩ | ⟨q, hs⟩ | ⟨q, r, hs⟩
    · -- some of the header is there to be read
      obtain ⟨r, hw⟩ := hclient
      have hready : l.up.bytes.ready ≠ [] := fun hnil =>
        header_left hi (by simp [relay_of_waits hw]) hs
          (Fifo.got_eq_sent hnil (rest_wire hq .client) (hi.alive.half .client).kept)
      have hpos : 1 ≤ l.up.bytes.ready.length := List.length_pos_iff.mpr hready
      obtain ⟨b, hb⟩ : ∃ b, l.up.bytes.ready.take 1 = [b] :=
        List.length_eq_one_iff.mp (by rw [List.length_take, Nat.min_eq_left hpos])
      have hk := hi.alive.known
      rw [hs] at hk
      obtain ⟨x, hx⟩ := Option.isSome_iff_exists.mp (step_one_byte hk b)
      have hr : l.up.read l.sessionDown 1 none = some ([b], { l.up with bytes := l.up.bytes.pull 1 }) :=
        hb ▸ Half.read_enabled Nat.one_pos hpos
      exact (rest_move hq (.readHeader 1 none [b] _ x hr (hs ▸ hx)) rfl).elim
    · exact absurd hs ((rest_server hq).1 q)
    · exact ⟨r, waits_server_iff.mpr ⟨q, hs⟩⟩

/-- At rest, nothing is in flight. -/
theorem nothingInFlight_of_rest {l : Link} (hi : Untouched l) (hq : AtRest l) : NothingInFlight l := by
  have hread : ∀ s r n, l.waits s = some r → r.loop n = .copy .read := by
    intro s r n hw
    refine (rest_loop_cases hq hw n).resolve_right ?_
    intro hd
    have hloop : l.loop s n = r.loop n := by simp [Link.loop, relay_of_waits hw]
    cases n with
    | streamTCPtoQUIC => exact Bool.noConfusion ((hi.copying s).not_done.symm.trans (hloop ▸ hd))
    | streamQUICtoTCP => exact Bool.noConfusion ((hi.half.alive.copying s).not_done.symm.trans (hloop ▸ hd))
  intro s
  obtain ⟨r, hw⟩ := rest_waits hi.half hq s
  obtain ⟨r', hw'⟩ := rest_waits hi.half hq s.other
  have hconn : l.connected s = true := by
    cases s with
    | client => rfl
    | server => simp [connected, relay_of_waits hw]
  obtain ⟨howire, hready⟩ := rest_out hq hconn (hi.opened s).gone
  have harrived := (rest_quic_read hq hw' (hread _ _ _ hw')).1
  rw [other_other] at harrived
  refine ⟨rest_inn_wire hq hconn, (rest_tcp_read hq hw (hread _ _ _ hw)).2, howire, hready, rest_wire hq s, harrived, ?_⟩
  intro n
  have hloop : l.loop s n = .copy .read := by simp [Link.loop, relay_of_waits hw, hread _ _ n hw]
  rw [hloop]
  rfl

/-- A connection at rest has delivered everything. -/
theorem delivered_of_rest {l : Link} (hi : Untouched l) (hq : AtRest l) (s : Side) :
    (l.sock s).out.got = (l.sock s.other).inn.sent :=
  delivered_of_nothingInFlight hi.half (nothingInFlight_of_rest hi hq) s

end LinkAux

end Link

end Qpep
