import Qpep.Lemmas.Link

/-!
# Where the bytes of a connection are

`FlowInv` holds in every state of every run of a connection, whatever fails: on each side, what a goroutine took in and what
it gave out are tied by the flow of its `io.Copy`, and in front of the payload of a direction stands only what the header's
Write wrote and its Reads took.
-/

namespace Qpep

open Io Machine HeaderAux Server.ServerAux

namespace Link

/-- The bytes that a side handles: `headOut` and what its `streamTCPtoQUIC` gave out make up what was written to the stream,
`headIn` and what its `streamQUICtoTCP` took in make up what was read from it. A side that has not started its goroutines has
touched no payload. -/
structure SideFlow (l : Link) (s : Side) : Prop where
  out : ∃ pay, (l.half s).bytes.sent = l.headOut s ++ pay ∧ (l.loop s .streamTCPtoQUIC).Flow (l.sock s).inn.got pay
  inn : ∃ x, (l.half s.other).bytes.got = l.headIn s ++ x ∧ (l.loop s .streamQUICtoTCP).Flow x (l.sock s).out.sent
  unstarted : l.relay s = none → (l.sock s).inn.got = [] ∧ (l.sock s).out.sent = [] ∧ l.headOut s = []

/-- No channel has been abandoned that is still written: only `CancelWrite` abandons one, and it is the server's last step. -/
structure Open (l : Link) : Prop where
  sock : ∀ s, (l.sock s).inn.abandoned = none ∧ (l.sock s).out.abandoned = none
  up : l.up.bytes.abandoned = none
  down : l.down.bytes.abandoned = none ∨ ∃ r, l.server = .returned (some r)

/-- The decoder is at one of its Reads, no channel in use is abandoned, and the bytes of both sides are accounted for. -/
structure FlowInv (l : Link) : Prop where
  known : l.server.Known
  channels : Open l
  flow : ∀ s, SideFlow l s

open LinkAux

/-- A side's flow depends only on what the side has read and written and on where its goroutines stand. -/
theorem SideFlow.congr {l l' : Link} {s : Side} (h : SideFlow l s) (hsent : (l'.half s).bytes.sent = (l.half s).bytes.sent)
    (hgot : (l'.half s.other).bytes.got = (l.half s.other).bytes.got) (hin : (l'.sock s).inn.got = (l.sock s).inn.got)
    (hout : (l'.sock s).out.sent = (l.sock s).out.sent) (hrelay : l'.relay s = l.relay s)
    (hho : l'.headOut s = l.headOut s) (hhi : l'.headIn s = l.headIn s) : SideFlow l' s := by
  have hloop : ∀ n, l'.loop s n = l.loop s n := fun n => by simp only [loop, hrelay]
  refine ⟨?_, ?_, ?_⟩
  · rw [hsent, hho, hloop, hin]
    exact h.out
  · rw [hgot, hhi, hloop, hout]
    exact h.inn
  · rw [hrelay, hin, hout, hho]
    exact h.unstarted

/-- A side that starts its goroutines has touched no payload. -/
theorem SideFlow.start {l : Link} {s : Side} (hr : l.relay s = some .start ∨ l.relay s = none)
    (hsent : (l.half s).bytes.sent = l.headOut s) (hgot : (l.half s.other).bytes.got = l.headIn s)
    (hin : (l.sock s).inn.got = []) (hout : (l.sock s).out.sent = []) (hho : l.relay s = none → l.headOut s = []) :
    SideFlow l s := by
  have hloop : ∀ n, l.loop s n = .start := by
    intro n
    rcases hr with h | h <;> cases n <;> simp [loop, h, Relay.start, Relay.loop]
  refine ⟨⟨[], ?_, ?_⟩, ⟨[], ?_, ?_⟩, fun h => ⟨hin, hout, hho h⟩⟩
  · rw [hsent, List.append_nil]
  · rw [hloop, hin]
    rfl
  · rw [hgot, List.append_nil]
  · rw [hloop, hout]
    rfl

/-- A side that has not started its goroutines: nothing of the stream is payload. -/
theorem SideFlow.before {l : Link} {s : Side} (h : SideFlow l s) (hr : l.relay s = none) :
    (l.half s).bytes.sent = [] ∧ (l.half s.other).bytes.got = l.headIn s ∧ (l.sock s).inn.got = [] ∧
      (l.sock s).out.sent = [] := by
  obtain ⟨hin, hout, hho⟩ := h.unstarted hr
  have hloop : ∀ n, l.loop s n = .start := fun n => by cases n <;> simp [loop, hr, Relay.start, Relay.loop]
  obtain ⟨pay, hpay, hf⟩ := h.out
  obtain ⟨x, hx, hg⟩ := h.inn
  rw [hloop, hin] at hf
  rw [hloop, hout] at hg
  have hf' : pay = [] := hf
  have hg' : [] = x := hg
  rw [hho, hf'] at hpay
  rw [← hg', List.append_nil] at hx
  exact ⟨hpay, hx, hin, hout⟩

/-- The side whose goroutine makes a step keeps its flow. -/
theorem SideFlow.loop {l : Link} {s : Side} {n : LoopName} {ev : LoopEv} {r : Relay} {p : Port} {x : Loop} (h : SideFlow l s)
    (hw : l.waits s = some r) (hm : LoopMove l.sessionDown (l.port s) n (r.loop n) ev p x)
    (ho : ((l.port s).target n).abandoned = none) : SideFlow ((l.setPort s p).setRelay s (r.setLoop n x)) s := by
  have hrel := relay_of_waits hw
  have hold : ∀ n', l.loop s n' = r.loop n' := fun n' => by simp [Link.loop, hrel]
  have hnew : ∀ n', ((l.setPort s p).setRelay s (r.setLoop n x)).loop s n' = (r.setLoop n x).loop n' := by
    intro n'
    simp [Link.loop, relay_setRelay ((waits_setPort l s s p).trans hw)]
  obtain ⟨bs, ws, hgot, hsent, hflow⟩ := hm.flow ho
  obtain ⟨pay, hpay, hf⟩ := h.out
  obtain ⟨y, hy, hg⟩ := h.inn
  rw [hold] at hf hg
  cases n with
  | streamTCPtoQUIC =>
    have hne : LoopName.streamQUICtoTCP ≠ .streamTCPtoQUIC := by simp
    obtain ⟨hsrc, htgt⟩ := hm.frame hne
    refine ⟨⟨pay ++ ws, ?_, ?_⟩, ⟨y, ?_, ?_⟩, ?_⟩
    · simp only [half_setRelay, half_setPort, if_true, headOut_setRelay, headOut_setPort]
      rw [← List.append_assoc, ← hpay]
      exact hsent
    · rw [hnew, Relay.loop_setLoop_self]
      simp only [sock_setRelay, sock_setPort, if_true]
      exact hgot ▸ hflow _ _ hf
    · simp only [half_setRelay, half_setPort, other_ne, if_false, headIn_setRelay, headIn_setPort]
      rw [← hy]
      exact congrArg Fifo.got hsrc
    · rw [hnew, Relay.loop_setLoop_ne r hne]
      simp only [sock_setRelay, sock_setPort, if_true]
      exact congrArg Fifo.sent htgt ▸ hg
    · intro hn
      simp [relay_setRelay ((waits_setPort l s s p).trans hw)] at hn
  | streamQUICtoTCP =>
    have hne : LoopName.streamTCPtoQUIC ≠ .streamQUICtoTCP := by simp
    obtain ⟨hsrc, htgt⟩ := hm.frame hne
    refine ⟨⟨pay, ?_, ?_⟩, ⟨y ++ bs, ?_, ?_⟩, ?_⟩
    · simp only [half_setRelay, half_setPort, if_true, headOut_setRelay, headOut_setPort]
      rw [← hpay]
      exact congrArg Fifo.sent htgt
    · rw [hnew, Relay.loop_setLoop_ne r hne]
      simp only [sock_setRelay, sock_setPort, if_true]
      exact congrArg Fifo.got hsrc ▸ hf
    · simp only [half_setRelay, half_setPort, other_ne, if_false, headIn_setRelay, headIn_setPort]
      rw [← List.append_assoc, ← hy]
      exact hgot
    · rw [hnew, Relay.loop_setLoop_self]
      simp only [sock_setRelay, sock_setPort, if_true]
      exact hsent ▸ hflow _ _ hg
    · intro hn
      simp [relay_setRelay ((waits_setPort l s s p).trans hw)] at hn

/-- The other side keeps its flow when a goroutine of this one makes a step. -/
theorem SideFlow.loop_other {l : Link} {s : Side} {n : LoopName} {ev : LoopEv} {r : Relay} {p : Port} {x : Loop}
    (h : SideFlow l s.other) (hw : l.waits s = some r)
    (hm : LoopMove l.sessionDown (l.port s) n (r.loop n) ev p x) :
    SideFlow ((l.setPort s p).setRelay s (r.setLoop n x)) s.other := by
  obtain ⟨hsent, hgot⟩ := hm.stream
  refine h.congr ?_ ?_ ?_ ?_ ?_ ?_ ?_
  · simp only [half_setRelay, half_setPort, other_ne, if_false]
    exact hsent
  · simp only [half_setRelay, half_setPort, other_other, if_true]
    exact hgot
  · simp
  · simp
  · simp [relay_setRelay ((waits_setPort l s s p).trans hw)]
  · simp
  · simp

namespace LinkAux

/-- A header Read leaves the server without goroutines. -/
theorem relay_of_readHeader {h x : Server.StreamHandler} {bs : List UInt8} {er : Option IoErr} (hk : h.Known)
    (hs : h.step (.read bs er) = some x) :
    (∃ p, h = .header p) ∧ ((∃ p, x = .header p) ∨ (∃ q, x = .dial q) ∨ x = .returned none ∧ er ≠ none) := by
  obtain ⟨hserves, -⟩ := serves_of_step hk hs
  cases hserves with
  | preamble => exact ⟨⟨_, rfl⟩, Or.inl ⟨_, rfl⟩⟩
  | noPreamble => exact ⟨⟨_, rfl⟩, Or.inr (Or.inr ⟨rfl, by simp⟩)⟩
  | rest => exact ⟨⟨_, rfl⟩, Or.inr (Or.inl ⟨_, rfl⟩)⟩
  | noRest => exact ⟨⟨_, rfl⟩, Or.inr (Or.inr ⟨rfl, by simp⟩)⟩

/-- A server without goroutines, by where it stands. -/
theorem relay_server_of {l : Link}
    (h : (∃ p, l.server = .header p) ∨ (∃ q, l.server = .dial q) ∨ l.server = .returned none) : l.relay .server = none := by
  rcases h with ⟨p, h⟩ | ⟨q, h⟩ | h <;> simp only [relay, h]

/-- Every step of a connection keeps the flow of both sides. -/
theorem sideFlow_step {l l' : Link} {a : Act} (hi : FlowInv l) (hm : Move l a l') (s : Side) : SideFlow l' s := by
  cases hm with
  | app e t he =>
    obtain ⟨hgot, hsent, -⟩ := Sock.env_some he
    cases s with
    | client => exact (hi.flow .client).congr rfl rfl hgot hsent rfl rfl rfl
    | server => exact (hi.flow .server).congr rfl rfl rfl rfl rfl rfl rfl
  | dest e t hr he =>
    obtain ⟨hgot, hsent, -⟩ := Sock.env_some he
    cases s with
    | client => exact (hi.flow .client).congr rfl rfl rfl rfl rfl rfl rfl
    | server => exact (hi.flow .server).congr rfl rfl hgot hsent rfl rfl rfl
  | deliver s' k h hd =>
    obtain ⟨-, -, rfl⟩ := Half.deliver_some hd
    refine (hi.flow s).congr ?_ ?_ ?_ ?_ ?_ ?_ ?_
    · rw [half_setHalf]
      split
      · rename_i he
        rw [he]
        exact Fifo.sent_deliver _ _
      · rfl
    · rw [half_setHalf]
      split
      · rename_i he
        rw [he]
        rfl
      · rfl
    all_goals simp
  | sessionFail hs => cases s <;> exact (hi.flow _).congr rfl rfl rfl rfl rfl rfl rfl
  | openStream hc hs =>
    cases s with
    | client => exact (hi.flow .client).congr rfl rfl rfl rfl (by simp only [relay, hc]) rfl rfl
    | server => exact (hi.flow .server).congr rfl rfl rfl rfl rfl rfl rfl
  | drop hc =>
    cases s with
    | client => exact (hi.flow .client).congr rfl rfl rfl rfl (by simp only [relay, hc]) rfl rfl
    | server => exact (hi.flow .server).congr rfl rfl rfl rfl rfl rfl rfl
  | writeHeader k ew h hc hw =>
    obtain ⟨rfl, -⟩ := Half.write_some hw
    have hr : l.relay .client = none := by simp only [relay, hc]
    obtain ⟨hsent, hgot, hin, hout⟩ := (hi.flow .client).before hr
    have hsent' : (l.up.bytes.push (l.header.toBytes.take k)).sent = l.header.toBytes.take k := by
      rw [Fifo.sent_push hi.channels.up]
      exact congrArg (· ++ _) hsent
    cases s with
    | client => exact .start (Or.inl rfl) hsent' hgot hin hout fun h => by cases h
    | server => exact (hi.flow .server).congr rfl (Fifo.push_got _ _) rfl rfl rfl rfl rfl
  | loop s' n ev r p x hw hlm =>
    by_cases hss : s = s'
    · subst hss
      refine (hi.flow s).loop hw hlm ?_
      cases n with
      | streamQUICtoTCP => exact (hi.channels.sock s).2
      | streamTCPtoQUIC =>
        cases s with
        | client => exact hi.channels.up
        | server =>
          obtain ⟨q, hq⟩ := waits_server_iff.mp hw
          rcases hi.channels.down with hd | ⟨r', hd⟩
          · exact hd
          · rw [hq] at hd
            cases hd
    · rw [eq_other_of_ne hss]
      exact SideFlow.loop_other (eq_other_of_ne hss ▸ hi.flow s) hw hlm
  | close r hc hd =>
    cases s with
    | client => exact (hi.flow .client).congr rfl rfl rfl rfl (by simp only [relay, hc]) rfl rfl
    | server => exact (hi.flow .server).congr rfl rfl rfl rfl rfl rfl rfl
  | readHeader k er bs h x hr hs =>
    obtain ⟨hbs, rfl, -⟩ := Half.read_some hr
    obtain ⟨⟨p, hp⟩, hx⟩ := relay_of_readHeader hi.known hs
    have hrel := relay_server_of (Or.inl ⟨p, hp⟩)
    obtain ⟨hsent, hgot, hin, hout⟩ := (hi.flow .server).before hrel
    cases s with
    | client => exact (hi.flow .client).congr (Fifo.sent_pull _ _) rfl rfl rfl rfl rfl rfl
    | server =>
      have hstill := relay_server_of (l := { l with server := x }) (hx.imp_right (Or.imp_right And.left))
      refine .start (Or.inr hstill) hsent ?_ hin hout fun _ => rfl
      subst hbs
      exact congrArg (· ++ _) hgot
  | dialled q hs =>
    have hrel := relay_server_of (Or.inr (Or.inl ⟨q, hs⟩))
    obtain ⟨hsent, hgot, hin, hout⟩ := (hi.flow .server).before hrel
    cases s with
    | client => exact (hi.flow .client).congr rfl rfl rfl rfl rfl rfl rfl
    | server => exact .start (Or.inl rfl) hsent hgot hin hout fun _ => rfl
  | notDialled q hs =>
    have hrel := relay_server_of (Or.inr (Or.inl ⟨q, hs⟩))
    obtain ⟨hsent, hgot, hin, hout⟩ := (hi.flow .server).before hrel
    cases s with
    | client => exact (hi.flow .client).congr rfl rfl rfl rfl rfl rfl rfl
    | server => exact .start (Or.inr rfl) hsent hgot hin hout fun _ => rfl
  | cancelRead q r hs hd =>
    cases s with
    | client => exact (hi.flow .client).congr rfl rfl rfl rfl rfl rfl rfl
    | server => exact (hi.flow .server).congr rfl rfl rfl rfl (by simp only [relay, hs]) rfl rfl
  | cancelWrite q r hs =>
    cases s with
    | client => exact (hi.flow .client).congr rfl (Fifo.abandon_got _) rfl rfl rfl rfl rfl
    | server => exact (hi.flow .server).congr (Fifo.sent_abandon _) rfl rfl rfl (by simp only [relay, hs]) rfl rfl

/-- Every step of a connection but the server's last one abandons no channel. -/
theorem open_step {l l' : Link} {a : Act} (hi : FlowInv l) (hm : Move l a l') : Open l' := by
  have ho := hi.channels
  -- a server that has not called `CancelWrite` has not abandoned what it writes
  have hdown : ∀ {x}, l.server = x → (∀ r, x ≠ Server.StreamHandler.returned (some r)) → l.down.bytes.abandoned = none :=
    fun hs hx => ho.down.resolve_right fun h => h.elim fun r hr => hx r (hs.symm.trans hr)
  have hsock : ∀ {l'' : Link}, l''.app = l.app.close → l''.dest = l.dest → ∀ s, (l''.sock s).inn.abandoned = none ∧
      (l''.sock s).out.abandoned = none := by
    intro l'' ha hd s
    cases s with
    | client =>
      simp only [sock, ha]
      exact ho.sock .client
    | server =>
      simp only [sock, hd]
      exact ho.sock .server
  cases hm with
  | app e t he =>
    obtain ⟨-, -, hin, hout, -⟩ := Sock.env_some he
    refine ⟨?_, ho.up, ho.down⟩
    intro s
    cases s with
    | client => exact ⟨hin.trans (ho.sock .client).1, hout.trans (ho.sock .client).2⟩
    | server => exact ho.sock .server
  | dest e t hr he =>
    obtain ⟨-, -, hin, hout, -⟩ := Sock.env_some he
    refine ⟨?_, ho.up, ho.down⟩
    intro s
    cases s with
    | client => exact ho.sock .client
    | server => exact ⟨hin.trans (ho.sock .server).1, hout.trans (ho.sock .server).2⟩
  | deliver s' k h hd =>
    obtain ⟨-, -, rfl⟩ := Half.deliver_some hd
    refine ⟨fun s => by simpa using ho.sock s, ?_, ?_⟩
    · cases s' <;> exact ho.up
    · cases s' <;> exact ho.down
  | sessionFail hs => exact ⟨ho.sock, ho.up, ho.down⟩
  | openStream hc hs => exact ⟨ho.sock, ho.up, ho.down⟩
  | drop hc => exact ⟨hsock rfl rfl, ho.up, ho.down⟩
  | writeHeader k ew h hc hw =>
    obtain ⟨rfl, -⟩ := Half.write_some hw
    exact ⟨ho.sock, (Fifo.push_abandoned _ _).trans ho.up, ho.down⟩
  | loop s' n ev r p x hw hlm =>
    obtain ⟨h1, h2, h3, h4⟩ := hlm.abandoned
    refine ⟨?_, ?_, ?_⟩
    · intro s
      simp only [sock_setRelay, sock_setPort]
      split
      · rename_i he
        subst he
        exact ⟨h1.trans (ho.sock s).1, h2.trans (ho.sock s).2⟩
      · exact ho.sock s
    · cases s' with
      | client => exact h4.trans ho.up
      | server =>
        rw [setRelay_eq]
        exact h3.trans ho.up
    · cases s' with
      | client => exact ho.down.imp h3.trans fun hr => hr
      | server =>
        obtain ⟨q, hq⟩ := waits_server_iff.mp hw
        left
        rw [setRelay_eq]
        exact h4.trans (hdown hq (by simp))
  | close r hc hd => exact ⟨hsock rfl rfl, ho.up, ho.down⟩
  | readHeader k er bs h x hr hs =>
    obtain ⟨-, rfl, -⟩ := Half.read_some hr
    obtain ⟨⟨p, hp⟩, -⟩ := relay_of_readHeader hi.known hs
    exact ⟨ho.sock, ho.up, Or.inl (hdown hp (by simp))⟩
  | dialled q hs => exact ⟨ho.sock, ho.up, Or.inl (hdown hs (by simp))⟩
  | notDialled q hs => exact ⟨ho.sock, ho.up, Or.inl (hdown hs (by simp))⟩
  | cancelRead q r hs hd => exact ⟨ho.sock, ho.up, Or.inl (hdown hs (by simp))⟩
  | cancelWrite q r hs => exact ⟨ho.sock, ho.up, Or.inr ⟨r, rfl⟩⟩

/-- Every step keeps the decoder at one of its Reads. -/
theorem known_step {l l' : Link} {a : Act} (hk : l.server.Known) (hm : Move l a l') : l'.server.Known := by
  cases hm with
  | deliver s k h hd => cases s <;> exact hk
  | loop s n ev r p x hw hlm =>
    cases s with
    | client => exact hk
    | server =>
      obtain ⟨q, hq⟩ := waits_server_iff.mp hw
      simp only [setRelay, setPort_server, hq]
      exact known_of_ne (by simp)
  | readHeader k er bs h x hr hs => exact (serves_of_step hk hs).2
  | dialled => exact known_of_ne (by simp)
  | notDialled => exact known_of_ne (by simp)
  | cancelRead => exact known_of_ne (by simp)
  | cancelWrite => exact known_of_ne (by simp)
  | _ => exact hk

/-- A connection just accepted. -/
theorem flowInv_init (header : QpepHeader) : FlowInv (Link.init header) := by
  refine ⟨known_start, ⟨?_, rfl, Or.inl rfl⟩, ?_⟩
  · intro s
    cases s <;> exact ⟨rfl, rfl⟩
  · intro s
    cases s <;> exact .start (Or.inr rfl) rfl rfl rfl rfl fun _ => rfl

/-- Every step of a connection keeps the invariant. -/
theorem flowInv_step {l l' : Link} {a : Act} (hi : FlowInv l) (hs : l.step a = some l') : FlowInv l' := by
  have hm := move_of_step hs
  exact ⟨known_step hi.known hm, open_step hi hm, sideFlow_step hi hm⟩

/-- What was written to the application is a prefix of what the destination sent. -/
theorem response_prefix {l : Link} (hi : FlowInv l) : l.app.out.sent <+: l.dest.inn.sent := by
  obtain ⟨x, hx, happ⟩ := (hi.flow .client).inn
  obtain ⟨pay, hpay, hdest⟩ := (hi.flow .server).out
  have hx' : l.down.bytes.got = x := hx
  have hpay' : l.down.bytes.sent = pay := hpay
  have hstream : x <+: pay := hx' ▸ hpay' ▸ Fifo.got_prefix_sent _
  have hread : l.dest.inn.got <+: l.dest.inn.sent := Fifo.got_prefix_sent _
  exact happ.out_prefix_inn.trans (hstream.trans (hdest.out_prefix_inn.trans hread))

end LinkAux

/-! ## The header -/

/-- A Read of the decoder fills its buffer, if it returns a nil error. -/
def headerFills (l : Link) : Act → Bool
  | .readHeader k none =>
    match l.server with
    | .header (.read n _) => k == n
    | _ => true
  | _ => true

/-- How far the server is with the header: what it has read of it, and what it decoded. -/
def HeaderRead (h : QpepHeader) (read : List UInt8) : Server.StreamHandler → Prop
  | .header p =>
    p = getQpepHeader ∧ read = [] ∨
      p = readRest [getNetworkTypeFromAddr h.sourceAddr, getNetworkTypeFromAddr h.destAddr] ∧ read = h.toBytes.take 2
  | .dial q => q = h.canonical ∧ read = h.toBytes
  | .wait _ _ | .cancelWrite _ _ | .returned (some _) => read = h.toBytes
  | .returned none => True

/-- The invariant of a connection whose header Reads fill their buffers. -/
structure HeaderInv (l : Link) : Prop where
  flow : FlowInv l
  written : l.relay .client ≠ none →
    l.headerOut = l.header.toBytes ∨ l.headerOut <+: l.header.toBytes ∧ l.up.dead = true ∧ l.up.bytes.sent = l.headerOut
  read : HeaderRead l.header l.headerIn l.server
  dialled : ∀ a ∈ l.dialled, a = l.header.canonical.destAddr

namespace LinkAux

/-- A connection just accepted. -/
theorem headerInv_init (header : QpepHeader) : HeaderInv (Link.init header) := by
  have hread : HeaderRead header [] Server.StreamHandler.start := by
    rw [start_eq]
    exact Or.inl ⟨rfl, rfl⟩
  exact ⟨flowInv_init header, fun h => absurd rfl h, hread, fun _ h => by cases h⟩

/-- What was written to the stream starts with the header, or is a piece of it. -/
theorem sent_header {l : Link} (hi : HeaderInv l) :
    l.header.toBytes <+: l.up.bytes.sent ∨ l.up.bytes.sent <+: l.header.toBytes := by
  cases hr : l.relay .client with
  | none =>
    have hsent : l.up.bytes.sent = [] := ((hi.flow.flow .client).before hr).1
    exact Or.inr (hsent ▸ List.nil_prefix)
  | some r =>
    rcases hi.written (by simp [hr]) with hout | ⟨hpre, -, hsent⟩
    · obtain ⟨pay, hpay, -⟩ := (hi.flow.flow .client).out
      have hpay' : l.up.bytes.sent = l.headerOut ++ pay := hpay
      exact Or.inl (hpay' ▸ hout ▸ List.prefix_append _ _)
    · exact Or.inr (hsent ▸ hpre)

/-- What the decoder has read is the part of the header of that length. -/
theorem read_header {l : Link} (hi : HeaderInv l) {bs : List UInt8} (hpre : l.headerIn ++ bs <+: l.up.bytes.sent)
    (hlen : (l.headerIn ++ bs).length ≤ l.header.toBytes.length) :
    l.headerIn ++ bs = l.header.toBytes.take (l.headerIn ++ bs).length := by
  rw [← List.prefix_iff_eq_take]
  rcases sent_header hi with h | h
  · exact List.prefix_of_prefix_length_le hpre h hlen
  · exact hpre.trans h

/-- What was written to the destination is a prefix of what the application sent. -/
theorem request_prefix {l : Link} (hi : HeaderInv l) : l.dest.out.sent <+: l.app.inn.sent := by
  cases hr : l.relay .server with
  | none =>
    have hout : l.dest.out.sent = [] := ((hi.flow.flow .server).before hr).2.2.2
    exact hout ▸ List.nil_prefix
  | some r =>
    have hin : l.headerIn = l.header.toBytes := by
      have hread := hi.read
      simp only [relay] at hr
      split at hr <;> simp_all [HeaderRead]
    obtain ⟨x, hx, hdest⟩ := (hi.flow.flow .server).inn
    have hx' : l.up.bytes.got = l.header.toBytes ++ x := hin ▸ hx
    have hgot := hx' ▸ Fifo.got_prefix_sent l.up.bytes
    have hshort : l.up.bytes.sent <+: l.header.toBytes → l.dest.out.sent <+: l.app.inn.sent := by
      intro hs
      have hnil : x = [] := by
        have hle := (hgot.trans hs).length_le
        rw [List.length_append] at hle
        exact List.length_eq_zero_iff.mp (by omega)
      have hd := hdest.out_prefix_inn
      rw [hnil, List.prefix_nil] at hd
      have hd' : l.dest.out.sent = [] := hd
      exact hd' ▸ List.nil_prefix
    cases hc : l.relay .client with
    | none =>
      have hsent : l.up.bytes.sent = [] := ((hi.flow.flow .client).before hc).1
      exact hshort (hsent ▸ List.nil_prefix)
    | some rc =>
      rcases hi.written (by simp [hc]) with hout | ⟨hpre, -, hsent⟩
      · obtain ⟨pay, hpay, happ⟩ := (hi.flow.flow .client).out
        have hpay' : l.up.bytes.sent = l.header.toBytes ++ pay := hout ▸ hpay
        rw [hpay'] at hgot
        have hstream : x <+: pay := (List.prefix_append_right_inj _).mp hgot
        have hread : l.app.inn.got <+: l.app.inn.sent := Fifo.got_prefix_sent _
        exact hdest.out_prefix_inn.trans (hstream.trans (happ.out_prefix_inn.trans hread))
      · exact hshort (hsent ▸ hpre)

/-- A failed Write is the last one that wrote anything to the stream. -/
theorem dead_step {l l' : Link} {a : Act} (hm : Move l a l') (hd : l.up.dead = true) (ha : ∀ k ew, a ≠ .writeHeader k ew) :
    l'.up.dead = true ∧ l'.up.bytes.sent = l.up.bytes.sent := by
  cases hm with
  | deliver s k h hdel =>
    obtain ⟨-, -, rfl⟩ := Half.deliver_some hdel
    cases s with
    | client => exact ⟨hd, Fifo.sent_deliver _ _⟩
    | server => exact ⟨hd, rfl⟩
  | writeHeader k ew h hc hw => exact absurd rfl (ha k ew)
  | loop s n ev r p x hw hlm =>
    rw [setRelay_eq]
    cases s with
    | client =>
      generalize hport : l.port .client = q at hlm
      have hq : q.out = l.up := hport ▸ rfl
      generalize hloop : r.loop n = y at hlm
      cases hlm with
      | writeQuic buf er k ew h c hwr hc =>
        obtain ⟨rfl, -, hok, herr⟩ := Half.write_some hwr
        cases ew with
        | none => exact absurd (hq ▸ hd) (by simp [(hok rfl).2.2.2])
        | some e =>
          have hk := (herr e rfl).2 (Or.inr (Or.inr (hq ▸ hd)))
          refine ⟨by simp [setPort], ?_⟩
          subst hk
          simp [setPort, hq]
      | _ => exact ⟨hq ▸ hd, hq ▸ rfl⟩
    | server =>
      generalize hport : l.port .server = q at hlm
      have hq : q.inn = l.up := hport ▸ rfl
      generalize hloop : r.loop n = y at hlm
      cases hlm with
      | readQuic k er bs h c hr hc =>
        obtain ⟨-, rfl, -⟩ := Half.read_some hr
        exact ⟨hq ▸ hd, hq ▸ Fifo.sent_pull _ _⟩
      | _ => exact ⟨hq ▸ hd, hq ▸ rfl⟩
  | readHeader k er bs h x hr hs =>
    obtain ⟨-, rfl, -⟩ := Half.read_some hr
    exact ⟨hd, Fifo.sent_pull _ _⟩
  | _ => exact ⟨hd, rfl⟩

/-- Only the Write of the header starts the goroutines of the client and writes in front of their bytes. -/
theorem started_step {l l' : Link} {a : Act} (hm : Move l a l') (ha : ∀ k ew, a ≠ .writeHeader k ew)
    (hr : l'.relay .client ≠ none) : l.relay .client ≠ none ∧ l'.headerOut = l.headerOut := by
  cases hm with
  | deliver s k h hdel => cases s <;> exact ⟨hr, rfl⟩
  | openStream => exact absurd rfl hr
  | drop => exact absurd rfl hr
  | writeHeader k ew h hc hw => exact absurd rfl (ha k ew)
  | loop s n ev r p x hw hlm =>
    refine ⟨?_, ?_⟩
    · rw [relay_setRelay ((waits_setPort l s s p).trans hw)] at hr
      split at hr
      · rename_i hs
        rw [hs, relay_of_waits hw]
        simp
      · simpa using hr
    · rw [setRelay_eq]
      cases s <;> rfl
  | close r hc hd => exact ⟨by simp [relay, hc], rfl⟩
  | _ => exact ⟨hr, rfl⟩

/-- What a step of a connection does not undo: the close of a TCP connection, the end of a direction and its reset. -/
theorem lasting_step {l l' : Link} {a : Act} (hm : Move l a l') (s : Side) :
    ((l.sock s).closed = true → (l'.sock s).closed = true) ∧ ((l.half s).fin = true → (l'.half s).fin = true) ∧
      ((l.half s).reset = true → (l'.half s).reset = true) := by
  cases hm with
  | app e t he =>
    obtain ⟨-, -, -, -, hc⟩ := Sock.env_some he
    cases s with
    | client => exact ⟨fun h => hc.trans h, fun h => h, fun h => h⟩
    | server => exact ⟨fun h => h, fun h => h, fun h => h⟩
  | dest e t hr he =>
    obtain ⟨-, -, -, -, hc⟩ := Sock.env_some he
    cases s with
    | client => exact ⟨fun h => h, fun h => h, fun h => h⟩
    | server => exact ⟨fun h => hc.trans h, fun h => h, fun h => h⟩
  | deliver s' k h hd =>
    obtain ⟨-, -, rfl⟩ := Half.deliver_some hd
    simp only [sock_setHalf, half_setHalf]
    split
    · rename_i he
      subst he
      exact ⟨fun h => h, fun h => h, fun h => h⟩
    · exact ⟨fun h => h, fun h => h, fun h => h⟩
  | drop hc =>
    cases s with
    | client => exact ⟨fun _ => rfl, fun h => h, fun h => h⟩
    | server => exact ⟨fun h => h, fun h => h, fun h => h⟩
  | writeHeader k ew h hc hw =>
    obtain ⟨rfl, -⟩ := Half.write_some hw
    cases s with
    | client => exact ⟨fun h => h, fun h => h, fun h => by simpa [Half.reset, half] using h⟩
    | server => exact ⟨fun h => h, fun h => h, fun h => h⟩
  | loop s' n ev r p x hw hlm =>
    obtain ⟨hsock, ⟨hof, hor⟩, hif, hir⟩ := hlm.lasting
    simp only [sock_setRelay, sock_setPort, half_setRelay, half_setPort]
    by_cases hs : s = s'
    · subst hs
      simp only [if_true]
      exact ⟨hsock, fun h => hof.trans h, fun h => hor.trans h⟩
    · rw [eq_other_of_ne hs]
      simp only [other_ne, if_false]
      exact ⟨fun h => h, fun h => hif.trans h, fun h => hir.trans h⟩
  | close r hc hd =>
    cases s with
    | client => exact ⟨fun _ => rfl, fun _ => rfl, fun h => h⟩
    | server => exact ⟨fun h => h, fun h => h, fun h => h⟩
  | readHeader k er bs h x hr hs =>
    obtain ⟨-, rfl, -⟩ := Half.read_some hr
    cases s with
    | client => exact ⟨fun h => h, fun h => h, fun h => h⟩
    | server => exact ⟨fun h => h, fun h => h, fun h => h⟩
  | cancelWrite q r hs =>
    cases s with
    | client => exact ⟨fun h => h, fun h => h, fun h => h⟩
    | server =>
      refine ⟨fun h => h, fun h => h, ?_⟩
      intro h
      simp only [half, Half.reset, Half.cancelWrite, Fifo.abandon] at h ⊢
      split
      · rfl
      · exact h
  | _ =>
    cases s with
    | client => exact ⟨fun h => h, fun h => h, fun h => h⟩
    | server => exact ⟨fun h => h, fun h => h, fun h => h⟩

/-- Which step ends the direction that the client writes, which one stops it, which one abandons the other direction, and
which one loses the session. -/
theorem stream_step {l l' : Link} {a : Act} (hm : Move l a l') :
    (a ≠ .close → l'.up.fin = l.up.fin) ∧ (a ≠ .cancelRead → l'.up.stopped = l.up.stopped) ∧
      (a ≠ .cancelWrite → l'.down.bytes.abandoned = l.down.bytes.abandoned) ∧
      (a ≠ .sessionFail → l'.sessionDown = l.sessionDown) := by
  cases hm with
  | deliver s k h hd =>
    obtain ⟨-, -, rfl⟩ := Half.deliver_some hd
    cases s <;> exact ⟨fun _ => rfl, fun _ => rfl, fun _ => rfl, fun _ => rfl⟩
  | sessionFail hs => exact ⟨fun _ => rfl, fun _ => rfl, fun _ => rfl, fun h => absurd rfl h⟩
  | writeHeader k ew h hc hw =>
    obtain ⟨rfl, -⟩ := Half.write_some hw
    exact ⟨fun _ => rfl, fun _ => rfl, fun _ => rfl, fun _ => rfl⟩
  | loop s n ev r p x hw hlm =>
    obtain ⟨-, ⟨hof, -⟩, hif, -⟩ := hlm.lasting
    obtain ⟨hos, his⟩ := hlm.stopped
    obtain ⟨-, -, hin, hout⟩ := hlm.abandoned
    rw [setRelay_eq]
    cases s with
    | client => exact ⟨fun _ => hof, fun _ => hos, fun _ => hin, fun _ => rfl⟩
    | server => exact ⟨fun _ => hif, fun _ => his, fun _ => hout, fun _ => rfl⟩
  | close r hc hd => exact ⟨fun h => absurd rfl h, fun _ => rfl, fun _ => rfl, fun _ => rfl⟩
  | readHeader k er bs h x hr hs =>
    obtain ⟨-, rfl, -⟩ := Half.read_some hr
    exact ⟨fun _ => rfl, fun _ => rfl, fun _ => rfl, fun _ => rfl⟩
  | cancelRead q r hs hd => exact ⟨fun _ => rfl, fun h => absurd rfl h, fun _ => rfl, fun _ => rfl⟩
  | cancelWrite q r hs => exact ⟨fun _ => rfl, fun _ => rfl, fun h => absurd rfl h, fun _ => rfl⟩
  | _ => exact ⟨fun _ => rfl, fun _ => rfl, fun _ => rfl, fun _ => rfl⟩

/-- No step ends the direction that the server writes, and none stops it: the server never closes it and the client never
cancels it. -/
theorem down_step {l l' : Link} {a : Act} (hm : Move l a l') :
    l'.down.fin = l.down.fin ∧ l'.down.stopped = l.down.stopped := by
  cases hm with
  | deliver s k h hd =>
    obtain ⟨-, -, rfl⟩ := Half.deliver_some hd
    cases s <;> exact ⟨rfl, rfl⟩
  | loop s n ev r p x hw hlm =>
    obtain ⟨-, ⟨hof, -⟩, hif, -⟩ := hlm.lasting
    obtain ⟨hos, his⟩ := hlm.stopped
    rw [setRelay_eq]
    cases s with
    | client => exact ⟨hif, his⟩
    | server => exact ⟨hof, hos⟩
  | _ => exact ⟨rfl, rfl⟩

/-- Behind its two cancels the server stays. -/
theorem cancelled_step {l l' : Link} {a : Act} (hm : Move l a l')
    (h : (∃ q r, l.server = .cancelWrite q r) ∨ ∃ r, l.server = .returned (some r)) :
    (∃ q r, l'.server = .cancelWrite q r) ∨ ∃ r, l'.server = .returned (some r) := by
  have hno : ∀ {x}, l.server = x → (∀ q r, x ≠ .cancelWrite q r) → (∀ r, x ≠ .returned (some r)) → False := by
    intro x hs h1 h2
    rcases h with ⟨q, r, h⟩ | ⟨r, h⟩
    · exact h1 q r (hs.symm.trans h)
    · exact h2 r (hs.symm.trans h)
  cases hm with
  | deliver s k x hd => cases s <;> exact h
  | loop s n ev r p x hw hlm =>
    cases s with
    | client => exact h
    | server =>
      obtain ⟨q, hq⟩ := waits_server_iff.mp hw
      exact (hno hq (by simp) (by simp)).elim
  | readHeader k er bs x y hr hs =>
    cases hq : l.server with
    | header p => exact (hno hq (by simp) (by simp)).elim
    | _ => simp [hq, Server.StreamHandler.step] at hs
  | dialled q hq => exact (hno hq (by simp) (by simp)).elim
  | notDialled q hq => exact (hno hq (by simp) (by simp)).elim
  | cancelRead q r hq hd => exact (hno hq (by simp) (by simp)).elim
  | cancelWrite q r hq => exact Or.inr ⟨r, rfl⟩
  | _ => exact h

/-- The header of a connection never changes. -/
theorem header_step {l l' : Link} {a : Act} (hm : Move l a l') : l'.header = l.header := by
  cases hm with
  | deliver s k h hdel => cases s <;> rfl
  | loop s n ev r p x hw hlm =>
    rw [setRelay_eq]
    cases s <;> rfl
  | _ => rfl

/-- A header Read that fills its buffer takes the next part of the header. -/
theorem headerRead_read {l : Link} {k : Nat} {bs : List UInt8} {h : Half} {x : Server.StreamHandler} (hi : HeaderInv l)
    (hv : l.header.Valid) (hok : l.headerFills (.readHeader k none) = true)
    (hr : l.up.read l.sessionDown k none = some (bs, h)) (hs : l.server.step (.read bs none) = some x) :
    HeaderRead l.header (l.headerIn ++ bs) x := by
  obtain ⟨hbs, -, hsome, -⟩ := Half.read_some hr
  obtain ⟨hpos, hle⟩ := hsome rfl
  obtain ⟨⟨p, hp⟩, -⟩ := relay_of_readHeader hi.flow.known hs
  have hgot : l.up.bytes.got = l.headerIn := ((hi.flow.flow .server).before (relay_server_of (Or.inl ⟨p, hp⟩))).2.1
  have hblen : bs.length = k := by rw [hbs, List.length_take, Nat.min_eq_left hle]
  have hpre : l.headerIn ++ bs <+: l.up.bytes.sent := by
    have hpull := Fifo.got_prefix_sent (l.up.bytes.pull k)
    rwa [Fifo.sent_pull, Fifo.pull_got, ← hbs, hgot] at hpull
  have hread := hi.read
  rw [hp] at hread hs
  have hfull := toBytes_length hv
  rcases hread with ⟨rfl, hnil⟩ | ⟨rfl, htwo⟩
  · have hk : k = QPEP_PREAMBLE_LENGTH := by simpa [headerFills, hp, getQpepHeader] using hok
    have htake := read_header hi hpre (by simp only [hnil, List.nil_append, hblen, hk, QPEP_PREAMBLE_LENGTH]; omega)
    simp only [hnil, List.nil_append, hblen, hk, QPEP_PREAMBLE_LENGTH] at htake ⊢
    rw [toBytes_take_two] at htake
    rw [htake] at hs ⊢
    rw [step_preamble hs]
    exact Or.inr ⟨rfl, rfl⟩
  · have hk : k = restLength (getNetworkTypeFromAddr l.header.sourceAddr) (getNetworkTypeFromAddr l.header.destAddr)  := by
      simpa [headerFills, hp, readRest_eq] using hok
    have hlen : (l.headerIn ++ bs).length = l.header.toBytes.length := by
      rw [htwo, List.length_append, List.length_take, hblen, hk]
      omega
    have htake := read_header hi hpre (Nat.le_of_eq hlen)
    rw [hlen, List.take_length] at htake
    have hdrop : bs = l.header.toBytes.drop 2 := by
      have hsplit := List.take_append_drop 2 l.header.toBytes
      have hcut := htake
      rw [htwo] at hcut
      exact List.append_cancel_left (hcut.trans hsplit.symm)
    rw [htake, step_rest hs, hdrop]
    exact ⟨decodeRest_toBytes hv, rfl⟩

/-- A step whose header Read, if it is one, fills its buffer keeps the invariant. -/
theorem headerInv_step {l l' : Link} {a : Act} (hi : HeaderInv l) (hv : l.header.Valid) (hok : l.headerFills a = true)
    (hs : l.step a = some l') : HeaderInv l' := by
  have hm := move_of_step hs
  have hflow := flowInv_step hi.flow hs
  have hwritten : l'.relay .client ≠ none →
      l'.headerOut = l'.header.toBytes ∨
        l'.headerOut <+: l'.header.toBytes ∧ l'.up.dead = true ∧ l'.up.bytes.sent = l'.headerOut := by
    intro hr
    rw [header_step hm]
    by_cases ha : ∀ k ew, a ≠ .writeHeader k ew
    · obtain ⟨hr', hho⟩ := started_step hm ha hr
      rw [hho]
      refine (hi.written hr').imp (fun h => h) ?_
      rintro ⟨hpre, hd, hsent⟩
      obtain ⟨hd', hsent'⟩ := dead_step hm hd ha
      exact ⟨hpre, hd', hsent'.trans hsent⟩
    · simp only [Classical.not_forall, ne_eq, not_not] at ha
      obtain ⟨k, ew, rfl⟩ := ha
      cases hm with
      | writeHeader _ _ h hc hw =>
        obtain ⟨rfl, -, hall, -⟩ := Half.write_some hw
        have hrel : l.relay .client = none := by simp only [relay, hc]
        have hsent : l.up.bytes.sent = [] := ((hi.flow.flow .client).before hrel).1
        cases ew with
        | none =>
          left
          rw [(hall rfl).1]
          exact List.take_length
        | some e =>
          refine Or.inr ⟨List.take_prefix _ _, by simp, ?_⟩
          rw [Fifo.sent_push hi.flow.channels.up, hsent, List.nil_append]
  refine ⟨hflow, hwritten, ?_, ?_⟩
  · rw [header_step hm]
    have hread := hi.read
    cases hm with
    | deliver s k h hd => cases s <;> exact hread
    | loop s n ev r p x hw hlm =>
      cases s with
      | client => exact hread
      | server =>
        obtain ⟨q, hq⟩ := waits_server_iff.mp hw
        rw [hq] at hread
        simp only [setRelay, setPort_server, hq]
        exact hread
    | readHeader k er bs h x hr hx =>
      cases er with
      | none => exact headerRead_read hi hv hok hr hx
      | some e =>
        obtain ⟨⟨p, hp⟩, -⟩ := relay_of_readHeader hi.flow.known hx
        rw [hp] at hx
        have hret := step_failed (hp ▸ hi.flow.known) hx
        simp only [hret]
        trivial
    | dialled q hq =>
      rw [hq] at hread
      exact hread.2
    | notDialled q hq => trivial
    | cancelRead q r hq hd =>
      rw [hq] at hread
      exact hread
    | cancelWrite q r hq =>
      rw [hq] at hread
      exact hread
    | _ => exact hread
  · rw [header_step hm]
    have hread := hi.read
    have hdial : ∀ q, l.server = .dial q → ∀ a ∈ l.dialled ++ [q.destAddr], a = l.header.canonical.destAddr := by
      intro q hq a ha
      rw [hq] at hread
      rcases List.mem_append.mp ha with h | h
      · exact hi.dialled a h
      · rw [List.mem_singleton.mp h, hread.1]
    cases hm with
    | deliver s k h hd => cases s <;> exact hi.dialled
    | loop s n ev r p x hw hlm =>
      rw [setRelay_eq]
      cases s <;> exact hi.dialled
    | dialled q hq => exact hdial q hq
    | notDialled q hq => exact hdial q hq
    | _ => exact hi.dialled

/-- A connection whose header Reads fill their buffers keeps the invariant of its header. -/
theorem headerInv_run {header : QpepHeader} {as : List Act} {l : Link} (hrun : run step (Link.init header) as = some l)
    (hv : l.header.Valid) (hok : Along step (fun l a => l.headerFills a = true) (Link.init header) as) : HeaderInv l := by
  have hsame : l.header = header := inv_run (fun _ _ _ hi hs => (header_step (move_of_step hs)).trans hi) rfl hrun
  have hstep : ∀ m a m', m.header = header ∧ HeaderInv m → m.headerFills a = true → m.step a = some m' →
      m'.header = header ∧ HeaderInv m' := by
    rintro m a m' ⟨hm, hi⟩ hfill hs
    have hvalid : m.header.Valid := by rwa [hm, ← hsame]
    exact ⟨(header_step (move_of_step hs)).trans hm, headerInv_step hi hvalid hfill hs⟩
  exact (inv_run_along hstep ⟨rfl, headerInv_init header⟩ hrun hok).2

end LinkAux

end Link

end Qpep
