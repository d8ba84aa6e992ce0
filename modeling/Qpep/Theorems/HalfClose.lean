import Qpep.Theorems.Teardown

/-!
# Half-closed connections

When an endpoint has finished sending, the `streamTCPtoQUIC` of its side reads `io.EOF` and closes the TCP connection in
both directions, so what the other endpoint still sends cannot be written any more. The half-close is kept as long as no
`streamTCPtoQUIC` has found the end of what its endpoint sends; a connection that comes to rest after one has found it did
not keep it (`half_close_kept`).
-/

namespace Qpep

open Io Machine HeaderAux Server.ServerAux

/-- A `streamTCPtoQUIC` that is copying, or that has found the end of what its endpoint sends and has not called `Close` yet. -/
def Loop.Sending (l : Loop) : Prop := l.Copying ∨ l = .copy (.ended ⟨some .EOF, false⟩)

/-- A `streamTCPtoQUIC` into a stream that is up goes on copying, unless its TCP connection fails or it finds the end. -/
theorem LoopMove.reading {p p' : Port} {l l' : Loop} {ev : LoopEv} (hm : LoopMove false p .streamTCPtoQUIC l ev p' l')
    (ho : p.out.Up) (hc : l.Copying) (hev : ∀ k, ev ≠ .read k (some .other)) :
    l'.Copying ∨ (∃ k, ev = .read k (some .EOF)) ∧ l' = .copy (.ended ⟨some .EOF, false⟩) := by
  cases hm with
  | readTcp k er bs s c hr hcs =>
    obtain ⟨hbs, -, -, heof, -⟩ := Sock.read_some hr
    obtain ⟨-, ⟨hne, rfl⟩ | ⟨-, -, rfl⟩ | ⟨e, -, rfl, rfl⟩⟩ := Copy.step_read hcs
    · cases er with
      | none => exact Or.inl trivial
      | some e =>
        cases e with
        | EOF => exact absurd (by rw [hbs, (heof rfl).2.1, List.take_nil]) hne
        | other => exact absurd rfl (hev k)
    · exact Or.inl trivial
    · cases e with
      | EOF => exact Or.inr ⟨⟨k, rfl⟩, rfl⟩
      | other => exact absurd rfl (hev k)
  | writeQuic buf er k ew x c hw hcs =>
    obtain ⟨rfl, rfl, -⟩ := ho.write hw
    cases er with
    | some e => exact hc.elim
    | none =>
      obtain ⟨_, _, hcw, ⟨hbad, -⟩ | ⟨-, -, ⟨-, rfl⟩ | ⟨e, hsome, -⟩⟩⟩ := Copy.step_write hcs
      · cases hcw
        exact absurd hbad (by simp)
      · exact Or.inl trivial
      · cases hcw
        cases hsome
  | close n e => exact hc.elim

/-- A goroutine whose `io.Copy` has returned can only close. -/
theorem LoopMove.ended {down : Bool} {p p' : Port} {n : LoopName} {l' : Loop} {e : CopyEnd} {ev : LoopEv}
    (hm : LoopMove down p n (.copy (.ended e)) ev p' l') : ev = .close ∧ l' = .done e := by
  cases hm with
  | close n e => exact ⟨rfl, rfl⟩

/-- A goroutine that is copying and holds nothing has given out all it took in. -/
theorem Loop.Flow.all_out {l : Loop} {inn out : List UInt8} (h : l.Flow inn out) (hs : l.Sending) (hheld : l.held = []) :
    out = inn := by
  rcases hs with hc | rfl
  · cases l with
    | done e => exact hc.elim
    | copy c =>
      cases c with
      | read => exact h
      | ended e => exact hc.elim
      | write buf er =>
        have hnil : buf = [] := hheld
        have hsplit : out ++ buf = inn := h
        rw [← hsplit, hnil, List.append_nil]
  · exact h.2 rfl

namespace Link

/-- Nothing fails outside the proxy: neither the session nor one of the connections fails or is refused, and a call on a TCP
connection fails only where the proxy itself has closed it. -/
def calm (l : Link) : Act → Bool
  | .app .fault | .dest .fault => false
  | .loop s .streamTCPtoQUIC (.read _ (some .other)) | .loop s .streamQUICtoTCP (.write _ (some _)) => (l.sock s).closed
  | a => !a.outside

/-- A `streamTCPtoQUIC` finds the end of what its endpoint sends. -/
def Act.findsEnd : Act → Bool
  | .loop _ .streamTCPtoQUIC (.read _ (some .EOF)) => true
  | _ => false

/-- Every byte that was sent, the header's included, has reached an endpoint or the decoder: nothing is on its way and no
goroutine holds anything. -/
def NothingInFlight (l : Link) : Prop :=
  ∀ s, (l.sock s).inn.wire = [] ∧ (l.sock s).inn.ready = [] ∧ (l.sock s).out.wire = [] ∧ (l.sock s).out.ready = [] ∧
    (l.half s).bytes.wire = [] ∧ (l.half s).bytes.ready = [] ∧ ∀ n, (l.loop s n).held = []

/-- The half-close is kept. A `streamTCPtoQUIC` that has found the end of what its endpoint sends has called `Close`, which
closes both directions, only if the `streamQUICtoTCP` beside it is over; and when nothing is left in flight, an endpoint
that has finished sending and goes on reading has received everything the other endpoint sent. -/
structure HalfCloseKept (l : Link) : Prop where
  opened : ∀ s e, l.loop s .streamTCPtoQUIC = .done e → e.readErr = some .EOF → (l.loop s .streamQUICtoTCP).Over
  relayed : NothingInFlight l → ∀ s, (l.sock s).fin = true → (l.sock s).gone = false →
    (l.sock s).out.got = (l.sock s.other).inn.sent

/-- The invariant of a calm connection none of whose goroutines has closed its TCP connection. -/
structure HalfInv (l : Link) : Prop where
  valid : l.header.Valid
  header : HeaderInv l
  alive : Alive l
  sending : ∀ s, (l.loop s .streamTCPtoQUIC).Sending
  opened : ∀ s, (l.sock s).closed = false

/-- The invariant of a calm connection none of whose goroutines has found the end of what its endpoint sends. -/
structure Unfinished (l : Link) : Prop where
  half : HalfInv l
  copying : ∀ s, (l.loop s .streamTCPtoQUIC).Copying

namespace LinkAux

/-- In a calm step of such a connection nothing outside the proxy fails, and no call on a TCP connection does. -/
theorem calm_opened {l : Link} {a : Act} (hi : ∀ s, (l.sock s).closed = false) (hcalm : l.calm a = true) :
    a.outside = false ∧ a.socketWriteFails = false ∧ ∀ s k, a ≠ .loop s .streamTCPtoQUIC (.read k (some .other)) := by
  cases a with
  | loop s n ev =>
    have hnot : (l.sock s).closed ≠ true := by simp [hi s]
    refine ⟨rfl, ?_, ?_⟩
    · cases n with
      | streamTCPtoQUIC => rfl
      | streamQUICtoTCP =>
        cases ev with
        | write k ew =>
          cases ew with
          | none => rfl
          | some e => exact absurd hcalm hnot
        | _ => rfl
    · rintro s' k ⟨⟩
      exact hnot hcalm
  | sessionFail => cases hcalm
  | drop => cases hcalm
  | dialTimeout ok =>
    cases ok with
    | false => cases hcalm
    | true => exact ⟨rfl, rfl, fun _ _ h => by cases h⟩
  | _ => exact ⟨rfl, rfl, fun _ _ h => by cases h⟩

/-- While no `streamTCPtoQUIC` closes, a calm step leaves each of them sending. -/
theorem sending_step {l l' : Link} {a : Act} (hi : HalfInv l) (hcalm : l.calm a = true)
    (hopen : ∀ s, a ≠ .loop s .streamTCPtoQUIC .close) (hm : Move l a l') (s : Side) :
    (l'.loop s .streamTCPtoQUIC).Sending := by
  rcases loop_step hi.alive.known hm s .streamTCPtoQUIC with heq | ⟨ev, rfl, hlm⟩
  · exact heq ▸ hi.sending s
  · rw [hi.alive.session] at hlm
    rcases hi.sending s with hc | hended
    · have hother := (calm_opened hi.opened hcalm).2.2
      refine (hlm.reading (hi.alive.half s) hc ?_).imp_right And.right
      rintro k rfl
      exact hother s k rfl
    · rw [hended] at hlm
      exact absurd (congrArg _ hlm.ended.1) (hopen s)

/-- A calm step that finds no end leaves a `streamTCPtoQUIC` copying. -/
theorem copying_of_findsEnd {l l' : Link} {a : Act} (hi : HalfInv l) (hcalm : l.calm a = true) (hend : a.findsEnd = false)
    (hm : Move l a l') {s : Side} (hc : (l.loop s .streamTCPtoQUIC).Copying) : (l'.loop s .streamTCPtoQUIC).Copying := by
  rcases loop_step hi.alive.known hm s .streamTCPtoQUIC with heq | ⟨ev, rfl, hlm⟩
  · exact heq ▸ hc
  · rw [hi.alive.session] at hlm
    have hother := (calm_opened hi.opened hcalm).2.2
    have hev : ∀ k, ev ≠ .read k (some .other) := by
      rintro k rfl
      exact hother s k rfl
    refine (hlm.reading (hi.alive.half s) hc hev).resolve_right ?_
    rintro ⟨⟨k, rfl⟩, -⟩
    cases hend

/-- A goroutine that closes has returned from `io.Copy`. -/
theorem over_of_close {l l' : Link} {s : Side} {n : LoopName} (hm : Move l (.loop s n .close) l') :
    (l.loop s n).Over ∧
      ∃ e, l.loop s n = .copy (.ended e) ∧ l'.loop s n = .done e ∧ ∀ n', n' ≠ n → l'.loop s n' = l.loop s n' := by
  cases hm with
  | loop _ _ _ r p x hw hlm =>
    have hnew : ∀ n', ((l.setPort s p).setRelay s (r.setLoop n x)).loop s n' = (r.setLoop n x).loop n' := fun n' => by
      simp [Link.loop, relay_setRelay ((waits_setPort l s s p).trans hw)]
    have hold : ∀ n', l.loop s n' = r.loop n' := fun n' => by simp [Link.loop, relay_of_waits hw]
    have hself := hnew n
    rw [Relay.loop_setLoop_self] at hself
    generalize hy : r.loop n = y at hlm
    cases hlm with
    | close n e =>
      refine ⟨(hold n).trans hy ▸ trivial, e, (hold n).trans hy, hself, ?_⟩
      intro n' hn
      rw [hnew, Relay.loop_setLoop_ne r hn, hold]

/-- Only the close of a goroutine closes a TCP connection of a connection that is up. -/
theorem closes_step {l l' : Link} {a : Act} (hi : Alive l) (ho : a.outside = false) (hm : Move l a l') {s : Side}
    (hc : (l'.sock s).closed = true) :
    (l.sock s).closed = true ∨ ∃ n, a = .loop s n .close := by
  cases hm with
  | app e t he =>
    obtain ⟨-, -, -, -, hsame⟩ := Sock.env_some he
    cases s with
    | client => exact Or.inl (hsame.symm.trans hc)
    | server => exact Or.inl hc
  | dest e t hr he =>
    obtain ⟨-, -, -, -, hsame⟩ := Sock.env_some he
    cases s with
    | client => exact Or.inl hc
    | server => exact Or.inl (hsame.symm.trans hc)
  | deliver s' k x hd => exact Or.inl (by simpa using hc)
  | drop => cases ho
  | loop s' n ev r p x hw hlm =>
    simp only [sock_setRelay, sock_setPort] at hc
    split at hc
    · rename_i hs
      subst hs
      generalize r.loop n = y at hlm
      cases hlm with
      | readTcp k er bs t c hr hcs =>
        obtain ⟨-, rfl, -⟩ := Sock.read_some hr
        exact Or.inl hc
      | writeTcp buf er k ew t c hwr hcs =>
        obtain ⟨rfl, -⟩ := Sock.write_some hwr
        exact Or.inl hc
      | partTcp buf er k t hwr hpos hlt =>
        obtain ⟨rfl, -⟩ := Sock.part_some hwr
        exact Or.inl hc
      | close n e => exact Or.inr ⟨n, rfl⟩
      | _ => exact Or.inl hc
    · exact Or.inl hc
  | close r hcl hd =>
    have hnot := (hi.copying .client).not_done
    rw [Link.loop, relay_of_waits (waits_client_iff.mpr hcl)] at hnot
    exact Bool.noConfusion (hnot.symm.trans (Relay.isDone_iff.mp hd .streamQUICtoTCP))
  | _ =>
    cases s with
    | client => exact Or.inl hc
    | server => exact Or.inl hc

/-- While no `streamTCPtoQUIC` closes, the TCP connections stay open. -/
theorem opened_step {l l' : Link} {a : Act} (hi : HalfInv l) (ho : a.outside = false)
    (hopen : ∀ s, a ≠ .loop s .streamTCPtoQUIC .close) (hm : Move l a l') (s : Side) : (l'.sock s).closed = false := by
  cases hc : (l'.sock s).closed with
  | false => rfl
  | true =>
    rcases closes_step hi.alive ho hm hc with hbefore | ⟨n, rfl⟩
    · exact hbefore.symm.trans (hi.opened s)
    · cases n with
      | streamTCPtoQUIC => exact absurd rfl (hopen s)
      | streamQUICtoTCP => exact absurd (hi.alive.copying s) (over_of_close hm).1.not_copying

theorem halfInv_init {header : QpepHeader} (hv : header.Valid) : HalfInv (Link.init header) := by
  refine ⟨hv, headerInv_init header, alive_init header, ?_, ?_⟩
  · intro s
    cases s <;> exact Or.inl trivial
  · intro s
    cases s <;> rfl

/-- A calm step in which no `streamTCPtoQUIC` closes keeps the invariant. -/
theorem halfInv_step {l l' : Link} {a : Act} (hi : HalfInv l) (hcalm : l.calm a = true) (hfills : l.headerFills a = true)
    (hopen : ∀ s, a ≠ .loop s .streamTCPtoQUIC .close) (hs : l.step a = some l') : HalfInv l' := by
  have hm := move_of_step hs
  obtain ⟨houtside, hwrites, -⟩ := calm_opened hi.opened hcalm
  refine ⟨?_, headerInv_step hi.header hi.valid hfills hs, alive_step hi.alive houtside hwrites hs,
    sending_step hi hcalm hopen hm, opened_step hi houtside hopen hm⟩
  rw [header_step hm]
  exact hi.valid

/-! ## What has arrived -/

/-- Past the Write of the header, that Write wrote all of it. -/
theorem headerOut_whole {l : Link} (hi : HalfInv l) (hr : l.relay .client ≠ none) : l.headerOut = l.header.toBytes := by
  have hdead : l.up.dead = false := (hi.alive.half .client).dead
  rcases hi.header.written hr with hout | ⟨-, hd, -⟩
  · exact hout
  · exact Bool.noConfusion (hdead.symm.trans hd)

/-- Past the Write of the header, a server that is still reading it has not taken everything. -/
theorem header_left {l : Link} (hi : HalfInv l) (hr : l.relay .client ≠ none) {p : Io.ReadProg (Except IoErr QpepHeader)}
    (hs : l.server = .header p) : l.up.bytes.got ≠ l.up.bytes.sent := by
  intro hall
  obtain ⟨pay, hpay, -⟩ := (hi.header.flow.flow .client).out
  have hsent : l.up.bytes.sent = l.header.toBytes ++ pay := headerOut_whole hi hr ▸ hpay
  have htook : l.up.bytes.got = l.headerIn :=
    ((hi.header.flow.flow .server).before (relay_server_of (Or.inl ⟨p, hs⟩))).2.1
  -- the decoder has read the preamble at most
  have hshort : l.headerIn.length ≤ 2 := by
    have hread := hi.header.read
    rw [hs] at hread
    rcases hread with ⟨-, hnil⟩ | ⟨-, htwo⟩
    · simp [hnil]
    · simp only [htwo, List.length_take]
      omega
  have hlen := congrArg List.length (htook.symm.trans (hall.trans hsent))
  rw [List.length_append, toBytes_length hi.valid, restLength] at hlen
  omega

/-- When the server has taken everything that was written to the stream, it has taken the payload. -/
theorem payload_arrived {l : Link} (hi : HalfInv l) (hall : l.up.bytes.got = l.up.bytes.sent) {pay x : List UInt8}
    (hpay : l.up.bytes.sent = l.headerOut ++ pay) (hx : l.up.bytes.got = l.headerIn ++ x) : pay = x := by
  by_cases hr : l.relay .client = none
  · have hnil : l.up.bytes.sent = [] := ((hi.header.flow.flow .client).before hr).1
    rw [hnil] at hpay hall
    rw [hall] at hx
    rw [(List.append_eq_nil_iff.mp hpay.symm).2, (List.append_eq_nil_iff.mp hx.symm).2]
  · have hin : l.headerIn = l.header.toBytes := by
      have hread := hi.header.read
      rcases hi.alive.server with ⟨p, hs⟩ | ⟨q, hs⟩ | ⟨q, r, hs⟩
      · exact absurd hall (header_left hi hr hs)
      · rw [hs] at hread
        exact hread.2
      · rw [hs] at hread
        exact hread
    have hsame := hpay.symm.trans (hall.symm.trans hx)
    rw [headerOut_whole hi hr, hin] at hsame
    exact List.append_cancel_left hsame

/-- When nothing is in flight on a connection that nobody has closed, everything has been delivered. -/
theorem delivered_of_nothingInFlight {l : Link} (hi : HalfInv l) (he : NothingInFlight l) (s : Side) :
    (l.sock s).out.got = (l.sock s.other).inn.sent := by
  obtain ⟨-, -, howire, hoready, -, -, hheld⟩ := he s
  obtain ⟨hiwire, hiready, -, -, hwire, hready, hheld'⟩ := he s.other
  obtain ⟨pay, hpay, hfrom⟩ := (hi.header.flow.flow s.other).out
  obtain ⟨x, hx, hto⟩ := (hi.header.flow.flow s).inn
  have hread := Fifo.got_eq_sent hiready hiwire (hi.header.flow.channels.sock s.other).1
  have hcopied := hfrom.all_out (hi.sending s.other) (hheld' _)
  have hstream := Fifo.got_eq_sent hready hwire (hi.alive.half s.other).kept
  have hwritten := hto.all_out (Or.inl (hi.alive.copying s)) (hheld _)
  have hgot := Fifo.got_eq_sent hoready howire (hi.header.flow.channels.sock s).2
  have hsame : pay = x := by
    cases s with
    | client =>
      have hpay' : l.down.bytes.sent = pay := hpay
      have hx' : l.down.bytes.got = x := hx
      exact hpay'.symm.trans (hstream.symm.trans hx')
    | server => exact payload_arrived hi hstream hpay hx
  rw [hgot, hwritten, ← hsame, hcopied, hread]

theorem kept_of_halfInv {l : Link} (hi : HalfInv l) : HalfCloseKept l := by
  refine ⟨?_, fun he s _ _ => delivered_of_nothingInFlight hi he s⟩
  intro s e hdone
  rcases hi.sending s with hc | hended
  · exact (hdone ▸ hc).elim
  · cases hdone.symm.trans hended

/-- A `streamTCPtoQUIC` that closes such a connection gives up its half-close. -/
theorem not_kept_of_close {l l' : Link} {s : Side} (hi : HalfInv l) (hm : Move l (.loop s .streamTCPtoQUIC .close) l') :
    ¬HalfCloseKept l' := by
  intro hk
  obtain ⟨hover, e, hended, hdone, hsame⟩ := over_of_close hm
  have hend : e.readErr = some .EOF := by
    rcases hi.sending s with hc | hs
    · exact absurd hc hover.not_copying
    · cases hended.symm.trans hs
      rfl
  have hbeside := hk.opened s e hdone hend
  rw [hsame .streamQUICtoTCP (by simp)] at hbeside
  exact hbeside.not_copying (hi.alive.copying s)

/-- A calm run whose header Reads fill their buffers keeps the half-close in all its states exactly if no `streamTCPtoQUIC`
closes. -/
theorem kept_iff_opened {header : QpepHeader} (hv : header.Valid) {as : List Act} {l : Link}
    (hrun : run step (Link.init header) as = some l)
    (hside : Along step (fun l a => l.calm a = true ∧ l.headerFills a = true) (Link.init header) as) :
    Throughout step HalfCloseKept (Link.init header) as ↔
      Along step (fun _ a => ∀ s, a ≠ .loop s .streamTCPtoQUIC .close) (Link.init header) as := by
  refine throughout_iff_along (fun _ => kept_of_halfInv) (fun _ _ _ hi hsd hok hs => halfInv_step hi hsd.1 hsd.2 hok hs)
    ?_ (halfInv_init hv) hrun hside
  intro l a l' hi _ hbad hs
  simp only [ne_eq, not_forall, not_not] at hbad
  obtain ⟨s, rfl⟩ := hbad
  exact not_kept_of_close hi (move_of_step hs)

theorem unfinished_init {header : QpepHeader} (hv : header.Valid) : Unfinished (Link.init header) := by
  refine ⟨halfInv_init hv, ?_⟩
  intro s
  cases s <;> trivial

/-- A calm step that finds no end keeps the invariant. -/
theorem unfinished_step {l l' : Link} {a : Act} (hi : Unfinished l) (hcalm : l.calm a = true) (hfills : l.headerFills a = true)
    (hend : a.findsEnd = false) (hs : l.step a = some l') : Unfinished l' := by
  have hm := move_of_step hs
  refine ⟨halfInv_step hi.half hcalm hfills ?_ hs, fun s => copying_of_findsEnd hi.half hcalm hend hm (hi.copying s)⟩
  rintro s rfl
  exact (over_of_close hm).1.not_copying (hi.copying s)

/-- While no end is found, the half-close is kept. -/
theorem kept_of_findsEnd {header : QpepHeader} (hv : header.Valid) {as : List Act}
    (hside : Along step (fun l a => l.calm a = true ∧ l.headerFills a = true) (Link.init header) as)
    (hend : ∀ a ∈ as, a.findsEnd = false) : Throughout step HalfCloseKept (Link.init header) as := by
  have hall : Along step (fun _ a => a.findsEnd = false) (Link.init header) as := along_of_forall hend
  rintro bs l ⟨cs, rfl⟩ hrun
  have hpre := (along_append.mp (hside.and hall)).1
  have hi : Unfinished l :=
    inv_run_along (fun _ _ _ hi ho hs => unfinished_step hi ho.1.1 ho.1.2 ho.2 hs) (unfinished_init hv) hrun hpre
  exact kept_of_halfInv hi.half

/-- A `streamTCPtoQUIC` that finds the end is over. -/
theorem over_of_findsEnd {l l' : Link} {a : Act} (hm : Move l a l') (hf : a.findsEnd = true) :
    ∃ s, (l'.loop s .streamTCPtoQUIC).Over := by
  cases hm with
  | loop s n ev r p x hw hlm =>
    cases n with
    | streamQUICtoTCP => cases hf
    | streamTCPtoQUIC =>
      refine ⟨s, ?_⟩
      have hx : ((l.setPort s p).setRelay s (r.setLoop .streamTCPtoQUIC x)).loop s .streamTCPtoQUIC = x := by
        simp [Link.loop, relay_setRelay ((waits_setPort l s s p).trans hw)]
      rw [hx]
      generalize r.loop .streamTCPtoQUIC = y at hlm
      cases hlm with
      | readTcp k er bs t c hr hc =>
        obtain ⟨hbs, -, -, heof, -⟩ := Sock.read_some hr
        obtain ⟨-, ⟨hne, -⟩ | ⟨-, hnone, -⟩ | ⟨e, -, -, rfl⟩⟩ := Copy.step_read hc
        · cases er with
          | none => cases hf
          | some e =>
            cases e with
            | EOF => exact absurd (by rw [hbs, (heof rfl).2.1, List.take_nil]) hne
            | other => cases hf
        · rw [hnone] at hf
          cases hf
        · trivial
      | writeQuic => cases hf
      | close => cases hf
  | dialled => cases hf
  | notDialled => cases hf
  | _ => cases hf

/-- After a run in which an end was found, a `streamTCPtoQUIC` is over. -/
theorem over_of_run {header : QpepHeader} {as : List Act} {l : Link} (hrun : run step (Link.init header) as = some l)
    (hf : ∃ a ∈ as, a.findsEnd = true) : ∃ s, (l.loop s .streamTCPtoQUIC).Over := by
  have hinit : FlowInv (Link.init header) ∧
      ((∃ a ∈ ([] : List Act), a.findsEnd = true) → ∃ s, ((Link.init header).loop s .streamTCPtoQUIC).Over) :=
    ⟨flowInv_init header, fun h => by simp at h⟩
  have hinv := inv_run_past (fun past m => FlowInv m ∧ ((∃ a ∈ past, a.findsEnd = true) → ∃ s, (m.loop s .streamTCPtoQUIC).Over))
    ?_ hinit hrun
  · exact hinv.2 hf
  · rintro past m a m' ⟨hi, hover⟩ hs
    have hm := move_of_step hs
    refine ⟨flowInv_step hi hs, ?_⟩
    rintro ⟨b, hb, hfb⟩
    rcases List.mem_append.mp hb with hpast | hlast
    · obtain ⟨s, ho⟩ := hover ⟨b, hpast, hfb⟩
      exact ⟨s, over_step hi.known hm ho⟩
    · rw [List.mem_singleton.mp hlast] at hfb
      exact over_of_findsEnd hm hfb

/-- At rest, a `streamTCPtoQUIC` that has not closed is copying. -/
theorem rest_copying {l : Link} (hi : HalfInv l) (hq : AtRest l) (s : Side) : (l.loop s .streamTCPtoQUIC).Copying := by
  refine (hi.sending s).resolve_right ?_
  intro hended
  obtain ⟨r, hw⟩ : ∃ r, l.waits s = some r := by
    cases s with
    | client =>
      rcases hi.alive.client with hc | hc | ⟨r, hc⟩
      · simp [Link.loop, relay, hc, Relay.start, Relay.loop, Loop.start] at hended
      · simp [Link.loop, relay, hc, Relay.start, Relay.loop, Loop.start] at hended
      · exact ⟨r, waits_client_iff.mpr hc⟩
    | server =>
      rcases hi.alive.server with ⟨p, hs⟩ | ⟨q, hs⟩ | ⟨q, r, hs⟩
      · simp [Link.loop, relay, hs, Relay.start, Relay.loop, Loop.start] at hended
      · simp [Link.loop, relay, hs, Relay.start, Relay.loop, Loop.start] at hended
      · exact ⟨r, waits_server_iff.mpr ⟨q, hs⟩⟩
  have hloop : l.loop s .streamTCPtoQUIC = r.loop .streamTCPtoQUIC := by simp [Link.loop, relay_of_waits hw]
  rw [hloop] at hended
  rcases rest_loop_cases hq hw .streamTCPtoQUIC with hread | hdone
  · cases hread.symm.trans hended
  · rw [hended] at hdone
    cases hdone

end LinkAux

open LinkAux

/-- For every run of a connection in which nothing fails outside the proxy and no Read of the header leaves its buffer
partly empty: while no `streamTCPtoQUIC` finds the end of what its endpoint sends, the half-close is kept in every state the
run passes; and if it was kept in every state of a run that has come to rest, no `streamTCPtoQUIC` has found an end. -/
theorem half_close_kept (header : QpepHeader) (hv : header.Valid) (as : List Act) (l : Link)
    (hrun : run step (Link.init header) as = some l) (hcalm : Along step (fun l a => l.calm a = true) (Link.init header) as)
    (hfills : Along step (fun l a => l.headerFills a = true) (Link.init header) as) :
    ((∀ a ∈ as, a.findsEnd = false) → Throughout step HalfCloseKept (Link.init header) as) ∧
      (AtRest l → Throughout step HalfCloseKept (Link.init header) as → ∀ a ∈ as, a.findsEnd = false) := by
  have hside := hcalm.and hfills
  refine ⟨kept_of_findsEnd hv hside, ?_⟩
  intro hq hkept
  have hopen := (kept_iff_opened hv hrun hside).mp hkept
  have hi : HalfInv l := inv_run_along (fun _ _ _ hi ho hs => halfInv_step hi ho.1.1 ho.1.2 ho.2 hs) (halfInv_init hv) hrun
    (hside.and hopen)
  intro a ha
  cases hf : a.findsEnd with
  | false => rfl
  | true =>
    obtain ⟨s, hover⟩ := over_of_run hrun ⟨a, ha, hf⟩
    exact absurd (rest_copying hi hq s) hover.not_copying

/-- The application sends a request and finishes sending, the request reaches the destination, and the client has the answer. -/
def exchange : List Act :=
  connect ++
  [.app (.send [71]), .app .finish, .app (.deliverIn 1), .loop .client .streamTCPtoQUIC (.read 1 none),
    .loop .client .streamTCPtoQUIC (.write 1 none), .deliver .client 1, .loop .server .streamQUICtoTCP (.read 1 none),
    .loop .server .streamQUICtoTCP (.write 1 none), .dest (.deliverOut 1), .dest (.receive 1), .dest (.send [82]),
    .dest (.deliverIn 1), .loop .server .streamTCPtoQUIC (.read 1 none), .loop .server .streamTCPtoQUIC (.write 1 none),
    .deliver .server 1, .loop .client .streamQUICtoTCP (.read 1 none)]

/-- The application, which has finished sending, gets the answer before the client finds the end of the request. -/
def answered : List Act := exchange ++ [.loop .client .streamQUICtoTCP (.write 1 none), .app (.deliverOut 1), .app (.receive 1)]

/-- The client finds the end of the request first; it cannot write the answer, and everything comes down. -/
def answerLost : List Act :=
  exchange ++
  [.loop .client .streamTCPtoQUIC (.read 0 (some .EOF)), .loop .client .streamTCPtoQUIC .close,
    .loop .client .streamQUICtoTCP (.write 0 (some .other)), .loop .client .streamQUICtoTCP .close, .close,
    .loop .server .streamQUICtoTCP (.read 0 (some .EOF)), .loop .server .streamQUICtoTCP .close,
    .loop .server .streamTCPtoQUIC (.read 0 (some .other)), .loop .server .streamTCPtoQUIC .close, .cancelRead, .cancelWrite]

/-- An answer that is written in time arrives, and nothing is closed. -/
theorem half_close_kept_answered :
    ∃ l, run step (Link.init webHeader) answered = some l ∧ NothingInFlight l ∧ l.app.fin = true ∧ l.app.closed = false ∧
      l.app.out.got = l.dest.inn.sent ∧ Throughout step HalfCloseKept (Link.init webHeader) answered := by
  obtain ⟨l, hl⟩ : ∃ l, run step (Link.init webHeader) answered = some l := ⟨_, rfl⟩
  have hkept := (half_close_kept webHeader (by decide) answered l hl (by decide) (by decide)).1 (by decide)
  have hempty : NothingInFlight l := by
    cases hl
    intro s
    cases s <;> exact ⟨rfl, rfl, rfl, rfl, rfl, rfl, fun n => by cases n <;> rfl⟩
  have hends : l.app.fin = true ∧ l.app.gone = false ∧ l.app.closed = false := by
    cases hl
    exact ⟨rfl, rfl, rfl⟩
  obtain ⟨hfin, hgone, hopen⟩ := hends
  exact ⟨l, hl, hempty, hfin, hopen, (hkept answered l (List.prefix_refl _) hl).relayed hempty .client hfin hgone, hkept⟩

/-- An answer that comes after the client has found the end of the request is lost, although nothing has failed outside the
proxy and the application goes on reading. -/
theorem half_close_lost :
    Along step (fun l a => l.calm a = true) (Link.init webHeader) answerLost ∧
      ∃ l, run step (Link.init webHeader) answerLost = some l ∧ AtRest l ∧ NothingInFlight l ∧ l.app.fin = true ∧
        l.app.gone = false ∧ l.app.out.got = [] ∧ l.dest.inn.sent = [82] ∧ ¬HalfCloseKept l := by
  obtain ⟨l, hl⟩ : ∃ l, run step (Link.init webHeader) answerLost = some l := ⟨_, rfl⟩
  have hq : AtRest l := by
    cases hl
    refine atRest_of ?_ ?_ ⟨_, Or.inr rfl⟩ (Or.inr ⟨_, rfl⟩) ?_
    · intro s
      cases s <;> exact ⟨rfl, rfl, rfl⟩
    · intro s
      cases s <;> rfl
    · intro s r hw
      cases s <;> cases hw
  have hempty : NothingInFlight l := by
    cases hl
    intro s
    cases s <;> exact ⟨rfl, rfl, rfl, rfl, rfl, rfl, fun n => by cases n <;> rfl⟩
  have hends : l.app.fin = true ∧ l.app.gone = false ∧ l.app.out.got = [] ∧ l.dest.inn.sent = [82] := by
    cases hl
    exact ⟨rfl, rfl, rfl, rfl⟩
  obtain ⟨hfin, hgone, hgot, hsent⟩ := hends
  refine ⟨by decide, l, hl, hq, hempty, hfin, hgone, hgot, hsent, ?_⟩
  intro hk
  cases hgot.symm.trans ((hk.relayed hempty .client hfin hgone).trans hsent)

end Link

end Qpep
