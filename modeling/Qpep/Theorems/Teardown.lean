import Qpep.Lemmas.Steady

/-!
# How a connection comes down

Each handler ends its stream only when both its goroutines are done, and each remaining `streamQUICtoTCP` waits for the
other side to end the stream. So the close of an endpoint reaches the other one only through a failed Write
(`close_propagates_iff`), and when the server is the side where it fails, its `CancelWrite` may come before the response has
arrived (`response_delivered`).
-/

namespace Qpep

open Io Machine

namespace Link

/-! ## Propagation of a close -/

/-- One of the endpoints has closed its connection. -/
def EndpointClosed (l : Link) : Prop := l.app.gone = true ∨ l.dest.gone = true

/-- The close has gone through: both TCP connections are closed and all four goroutines are done. -/
def Propagated (l : Link) : Prop := ∀ s, (l.sock s).closed = true ∧ ∀ n, (l.loop s n).isDone = true

namespace LinkAux

/-- The invariant of a connection around which nothing fails, with the failed Writes of the run so far: each has ended a
`streamQUICtoTCP`. -/
structure WriteInv (past : List Act) (l : Link) : Prop where
  steady : Steady l
  alive : (∀ a ∈ past, a.socketWriteFails = false) → Alive l
  ended : (∃ a ∈ past, a.socketWriteFails = true) → ∃ s, (l.loop s .streamQUICtoTCP).Over

/-- A failed Write ends its goroutine. -/
theorem over_of_fails {l l' : Link} {a : Act} (hm : Move l a l') (hf : a.socketWriteFails = true) :
    ∃ s, (l'.loop s .streamQUICtoTCP).Over := by
  cases hm with
  | loop s n ev r p x hw hlm =>
    cases n with
    | streamTCPtoQUIC => cases hf
    | streamQUICtoTCP =>
      refine ⟨s, ?_⟩
      have hx : ((l.setPort s p).setRelay s (r.setLoop .streamQUICtoTCP x)).loop s .streamQUICtoTCP = x := by
        simp [Link.loop, relay_setRelay ((waits_setPort l s s p).trans hw)]
      rw [hx]
      generalize r.loop .streamQUICtoTCP = y at hlm
      cases hlm with
      | writeTcp buf er k ew t c hwr hc =>
        cases ew with
        | none => cases hf
        | some e =>
          obtain ⟨_, _, -, ⟨-, rfl⟩ | ⟨hnone, -⟩⟩ := Copy.step_write hc
          · trivial
          · cases hnone
      | readQuic => cases hf
      | partTcp => cases hf
      | close => cases hf
  | dialled => cases hf
  | notDialled => cases hf
  | _ => cases hf

/-- A step with which nothing outside fails keeps the invariant. -/
theorem writeInv_step {past : List Act} {l l' : Link} {a : Act} (hi : WriteInv past l) (ho : a.outside = false)
    (hs : l.step a = some l') : WriteInv (past ++ [a]) l' := by
  have hm := move_of_step hs
  refine ⟨steady_step hi.steady ho hs, ?_, ?_⟩
  · intro hall
    have halive := hi.alive fun b hb => hall b (List.mem_append_left _ hb)
    exact alive_step halive ho (hall a (List.mem_append_right _ (List.mem_singleton.mpr rfl))) hs
  · rintro ⟨b, hb, hf⟩
    rcases List.mem_append.mp hb with hpast | hlast
    · obtain ⟨s, hover⟩ := hi.ended ⟨b, hpast, hf⟩
      exact ⟨s, over_step hi.steady.flow.known hm hover⟩
    · rw [List.mem_singleton.mp hlast] at hf
      exact over_of_fails hm hf

/-- At rest a connection around which nothing has failed is either up or altogether down. -/
theorem propagated_of_over {l : Link} (hi : Steady l) (hq : AtRest l) {s : Side}
    (ho : (l.loop s .streamQUICtoTCP).Over) : Propagated l := by
  have hg : Gone l s := rest_side hi hq (rest_over hi hq ho)
  have hall : ∀ s', Gone l s' := by
    intro s'
    by_cases hs : s' = s
    · exact hs ▸ hg
    · exact eq_other_of_ne hs ▸ rest_across hi hq hg
  exact fun s' => ⟨hi.closed s' .streamTCPtoQUIC (loop_of_gone (hall s') _), loop_of_gone (hall s')⟩

/-- After a run in which nothing outside fails. -/
theorem writeInv_run {header : QpepHeader} {as : List Act} {l : Link} (hrun : run step (Link.init header) as = some l)
    (ho : ∀ a ∈ as, a.outside = false) : WriteInv as l := by
  have hinit : WriteInv [] (Link.init header) :=
    ⟨steady_init header, fun _ => alive_init header, fun h => by simp at h⟩
  have hrun' : (∀ a ∈ [] ++ as, a.outside = false) → WriteInv ([] ++ as) l := by
    refine inv_run_past (fun past m => (∀ a ∈ past, a.outside = false) → WriteInv past m) ?_
      (fun _ => hinit) hrun
    intro past m a m' hi hs hall
    have hlast := hall a (List.mem_append_right _ (List.mem_singleton.mpr rfl))
    exact writeInv_step (hi fun b hb => hall b (List.mem_append_left _ hb)) hlast hs
  exact hrun' ho

end LinkAux

open LinkAux

/-- For every run of a connection in which the session stays up and both connections come about, and every state it comes to
rest in: the close of an endpoint has gone through exactly if a Write to one of the TCP connections failed in the run. -/
theorem close_propagates_iff (header : QpepHeader) (as : List Act) (l : Link)
    (hrun : run step (Link.init header) as = some l) (ho : ∀ a ∈ as, a.outside = false) (hq : AtRest l) :
    (EndpointClosed l → Propagated l) ↔ (EndpointClosed l → ∃ a ∈ as, a.socketWriteFails = true) := by
  have hi := writeInv_run hrun ho
  have hiff : Propagated l ↔ ∃ a ∈ as, a.socketWriteFails = true := by
    constructor
    · intro hp
      by_cases hf : ∃ a ∈ as, a.socketWriteFails = true
      · exact hf
      · have hall : ∀ a ∈ as, a.socketWriteFails = false := fun a ha => by
          simpa using fun ht => hf ⟨a, ha, ht⟩
        have hcopying := ((hi.alive hall).copying .client).not_done
        exact Bool.noConfusion (hcopying.symm.trans ((hp .client).2 .streamQUICtoTCP))
    · intro hf
      obtain ⟨s, hover⟩ := hi.ended hf
      exact propagated_of_over hi.steady hq hover
  rw [hiff]

/-- The client gets its stream and writes the header, the server reads it and dials. -/
def connect : List Act :=
  [.openStream, .writeHeader 14 none, .deliver .client 14, .readHeader 2 none, .readHeader 12 none, .dialTimeout true]

/-- A connection whose application has closed without sending anything, at rest: the client's `streamTCPtoQUIC` is done, and the
other three goroutines are blocked in a Read. -/
def halfDown : Link where
  header := webHeader
  client := .stream (.wait ⟨.done ⟨some .EOF, false⟩, .start⟩)
  server := .wait webHeader .start
  app := { Sock.fresh with fin := true, gone := true, closed := true }
  dest := Sock.fresh
  up := { Half.fresh with bytes := ⟨webHeader.toBytes, [], [], none⟩ }
  down := Half.fresh
  sessionDown := false
  headerOut := webHeader.toBytes
  headerIn := webHeader.toBytes
  dialled := [webHeader.destAddr]

/-- The application closes right after the connection was made, and the close gets no further than the client. -/
def closeOnly : List Act :=
  connect ++ [.app .leave, .loop .client .streamTCPtoQUIC (.read 0 (some .EOF)), .loop .client .streamTCPtoQUIC .close]

/-- A client whose application has finished, and a server none of whose goroutines has anything to read, wait for each other. -/
theorem atRest_halfDown {l : Link} {e : CopyEnd} {q : QpepHeader} (hsock : ∀ s, (l.sock s).Idle)
    (hc : l.client = .stream (.wait ⟨.done e, .start⟩)) (hs : l.server = .wait q .start) (hd : l.sessionDown = false)
    (hdest : l.dest.inn.ready = [] ∧ l.dest.fin = false ∧ l.dest.failing = false)
    (hhalf : ∀ s, (l.half s).bytes.wire = [] ∧ (l.half s).bytes.ready = [] ∧ (l.half s).Readable) : AtRest l := by
  have hstream : ∀ s k er, (l.half s).read l.sessionDown k er = none := by
    intro s
    obtain ⟨-, hready, hup⟩ := hhalf s
    exact Half.read_blocked hready hup.fin ⟨hup.reset, hup.stopped, hd⟩
  have htcp : ∀ k er, l.dest.read k er = none := Sock.read_blocked hdest.1 hdest.2.1 hdest.2.2
  refine atRest_of hsock (fun s => (hhalf s).1) ⟨_, Or.inl ⟨hc, rfl⟩⟩ (Or.inl ⟨_, _, hs, rfl⟩) ?_
  intro s r hw n
  cases s with
  | client =>
    cases hc.symm.trans (waits_client_iff.mp hw)
    cases n with
    | streamTCPtoQUIC => exact Or.inl rfl
    | streamQUICtoTCP => exact Or.inr ⟨rfl, fun k er => congrArg (Option.map _) (hstream .server k er)⟩
  | server =>
    obtain ⟨q', hq'⟩ := waits_server_iff.mp hw
    cases hs.symm.trans hq'
    cases n with
    | streamTCPtoQUIC => exact Or.inr ⟨rfl, fun k er => congrArg (Option.map _) (htcp k er)⟩
    | streamQUICtoTCP => exact Or.inr ⟨rfl, fun k er => congrArg (Option.map _) (hstream .client k er)⟩

theorem halfDown_atRest : AtRest halfDown := by
  refine atRest_halfDown ?_ rfl rfl rfl ⟨rfl, rfl, rfl⟩ ?_
  · intro s
    cases s <;> exact ⟨rfl, rfl, rfl⟩
  · intro s
    cases s <;> exact ⟨rfl, rfl, rfl, rfl, rfl⟩

/-- The application has closed, the connection is at rest, and the destination has been told nothing. -/
theorem close_stuck :
    run step (Link.init webHeader) closeOnly = some halfDown ∧ (∀ a ∈ closeOnly, a.outside = false) ∧ AtRest halfDown ∧
      EndpointClosed halfDown ∧ halfDown.dest.closed = false ∧ ¬Propagated halfDown := by
  refine ⟨rfl, by decide, halfDown_atRest, Or.inl rfl, rfl, ?_⟩
  intro hp
  cases (hp .server).1

/-- The equivalence for the connection that got stuck. -/
theorem close_propagates_iff_stuck :
    (EndpointClosed halfDown → Propagated halfDown) ↔
      (EndpointClosed halfDown → ∃ a ∈ closeOnly, a.socketWriteFails = true) :=
  close_propagates_iff webHeader closeOnly halfDown rfl (by decide) halfDown_atRest

/-! ## The end of the response -/

/-- What the server's `streamTCPtoQUIC` wrote has arrived, and it writes nothing more: it holds nothing, and it is over, or its
connection is closed, or the destination has finished and everything it sent has been read. -/
def ResponseOver (l : Link) : Prop :=
  l.down.bytes.wire = [] ∧ (l.loop .server .streamTCPtoQUIC).held = [] ∧
    ((l.loop .server .streamTCPtoQUIC).Over ∨ l.dest.closed = true ∨
      l.dest.fin = true ∧ l.dest.inn.ready = [] ∧ l.dest.inn.wire = [])

/-- The step is not a failed Write to the destination before the response is over. -/
def AfterResponse (l : Link) (a : Act) : Prop :=
  ∀ k e, a = .loop .server .streamQUICtoTCP (.write k (some e)) → ResponseOver l

/-- The session is lost, or the client gives up reading the stream because a Write to the application has failed. -/
def Act.clientStops : Act → Bool
  | .sessionFail | .loop .client .streamQUICtoTCP (.write _ (some _)) => true
  | _ => false

/-- `CancelWrite` has abandoned nothing that the server's `streamTCPtoQUIC` wrote. -/
def NothingLost (l : Link) : Prop := ∀ bs, l.down.bytes.abandoned = some bs → bs = []

/-- The invariant of a connection whose client goes on reading and whose response is over before a Write to the destination
fails. -/
structure ResponseInv (l : Link) : Prop where
  flow : FlowInv l
  session : l.sessionDown = false
  stopped : l.up.stopped = true → (∃ q r, l.server = .cancelWrite q r) ∨ ∃ r, l.server = .returned (some r)
  fin : l.up.fin = true → l.down.reset = true
  down : l.down.reset = true ∨ l.down.Readable
  client : l.down.reset = true ∨ (l.loop .client .streamQUICtoTCP).Copying
  server : l.down.reset = true ∨ (l.loop .server .streamQUICtoTCP).Copying ∨ ResponseOver l
  done : ∀ q r, l.server = .cancelWrite q r → r.isDone = true
  lost : NothingLost l

namespace LinkAux

/-- Once the response is over it stays so. -/
theorem responseOver_step {l l' : Link} {a : Act} (hk : l.server.Known) (hm : Move l a l') (h : ResponseOver l) :
    ResponseOver l' := by
  obtain ⟨hwire, hheld, hend⟩ := h
  have hover : (l.loop .server .streamTCPtoQUIC).Over → (l'.loop .server .streamTCPtoQUIC).Over := over_step hk hm
  have hclosed := (lasting_step hm .server).1
  have hkeep : l'.down.bytes.wire = [] → l'.loop .server .streamTCPtoQUIC = l.loop .server .streamTCPtoQUIC →
      (l.dest.fin = true ∧ l.dest.inn.ready = [] ∧ l.dest.inn.wire = [] →
        l'.dest.fin = true ∧ l'.dest.inn.ready = [] ∧ l'.dest.inn.wire = []) → ResponseOver l' :=
    fun hw hl hd => ⟨hw, hl ▸ hheld, hend.imp hover (Or.imp hclosed hd)⟩
  have hloop : (∀ ev, a ≠ .loop .server .streamTCPtoQUIC ev) →
      l'.loop .server .streamTCPtoQUIC = l.loop .server .streamTCPtoQUIC := fun hne =>
    (loop_step hk hm .server .streamTCPtoQUIC).resolve_right fun h => h.elim fun ev hev => hne ev hev.1
  cases hm with
  | dest e t hr he => exact hkeep hwire rfl (Sock.env_drained he)
  | deliver s k x hd =>
    obtain ⟨-, -, rfl⟩ := Half.deliver_some hd
    cases s with
    | client => exact hkeep hwire rfl fun h => h
    | server => exact hkeep (by simp [setHalf, half, Fifo.deliver, hwire]) rfl fun h => h
  | loop s n ev r p x hw hlm =>
    cases s with
    | client =>
      refine hkeep ?_ rfl fun h => h
      have hin := hlm.inn_wire
      exact hin.trans hwire
    | server =>
      have hrel := relay_of_waits hw
      have hold : ∀ n', l.loop .server n' = r.loop n' := fun n' => by simp [Link.loop, hrel]
      cases n with
      | streamQUICtoTCP =>
        obtain ⟨hout, hdest⟩ := hlm.toTcp
        refine hkeep ?_ (hloop (by simp)) ?_
        · rw [setRelay_eq]
          exact (congrArg (fun h => h.bytes.wire) hout).trans hwire
        · rw [setRelay_eq]
          exact fun h => ⟨hdest.1.trans h.1, (congrArg Fifo.ready hdest.2).trans h.2.1, (congrArg Fifo.wire hdest.2).trans h.2.2⟩
      | streamTCPtoQUIC =>
        have hnew :
            ((l.setPort .server p).setRelay .server (r.setLoop .streamTCPtoQUIC x)).loop .server .streamTCPtoQUIC = x := by
          simp [Link.loop, relay_setRelay ((waits_setPort l .server .server p).trans hw)]
        rw [hold] at hheld hend
        rw [ResponseOver, hnew, setRelay_eq]
        exact hlm.nothing_more hwire hheld hend
  | readHeader k er bs y x hr hs => exact hkeep hwire (hloop (by simp)) fun h => h
  | cancelWrite q r hs =>
    exact hkeep (by simp [Half.cancelWrite, Fifo.abandon]; split <;> simp [hwire]) (hloop (by simp)) fun h => h
  | _ => exact hkeep hwire (hloop (by simp)) fun h => h

/-- The client goes on copying until the server has called `CancelWrite`. -/
theorem client_step {l l' : Link} {a : Act} (hi : ResponseInv l) (hd : a.clientStops = false) (hm : Move l a l') :
    l'.down.reset = true ∨ (l'.loop .client .streamQUICtoTCP).Copying := by
  by_cases hreset : l.down.reset = true
  · exact Or.inl ((lasting_step hm .server).2.2 hreset)
  · right
    have hcopying := hi.client.resolve_left hreset
    rcases loop_step hi.flow.known hm .client .streamQUICtoTCP with heq | ⟨ev, rfl, hlm⟩
    · exact heq ▸ hcopying
    · rw [hi.session] at hlm
      refine hlm.copying (hi.down.resolve_left hreset) hcopying ?_
      rintro k e rfl
      cases hd

/-- The server goes on copying to the destination until the response is over. -/
theorem server_step {l l' : Link} {a : Act} (hi : ResponseInv l) (hok : AfterResponse l a) (hm : Move l a l') :
    l'.down.reset = true ∨ (l'.loop .server .streamQUICtoTCP).Copying ∨ ResponseOver l' := by
  rcases hi.server with hreset | hcopying | hover
  · exact Or.inl ((lasting_step hm .server).2.2 hreset)
  · rcases loop_step hi.flow.known hm .server .streamQUICtoTCP with heq | ⟨ev, rfl, hlm⟩
    · exact Or.inr (Or.inl (heq ▸ hcopying))
    · by_cases hfail : ∃ k e, ev = .write k (some e)
      · obtain ⟨k, e, rfl⟩ := hfail
        exact Or.inr (Or.inr (responseOver_step hi.flow.known hm (hok k e rfl)))
      · -- the stream that the server reads has not been ended while it waits
        cases hm with
        | loop _ _ _ r _ x hw =>
          obtain ⟨q, hq⟩ := waits_server_iff.mp hw
          have hstopped : l.up.stopped = false := by
            cases hs : l.up.stopped with
            | false => rfl
            | true =>
              rcases hi.stopped hs with ⟨q', r', h⟩ | ⟨r', h⟩ <;> cases hq.symm.trans h
          have hfin : l.up.fin = false := by
            cases hf : l.up.fin with
            | false => rfl
            | true =>
              rcases hi.flow.channels.down with h | ⟨r', h⟩
              · have hreset := hi.fin hf
                simp [Half.reset, h] at hreset
              · cases hq.symm.trans h
          rw [hi.session] at hlm
          refine Or.inr (Or.inl (hlm.copying ⟨hfin, hstopped, hi.flow.channels.up⟩ hcopying ?_))
          rintro k e rfl
          exact hfail ⟨k, e, rfl⟩
  · exact Or.inr (Or.inr (responseOver_step hi.flow.known hm hover))

/-- A step that meets the condition keeps the invariant. -/
theorem responseInv_step {l l' : Link} {a : Act} (hi : ResponseInv l) (hd : a.clientStops = false) (hok : AfterResponse l a)
    (hs : l.step a = some l') : ResponseInv l' := by
  have hm := move_of_step hs
  obtain ⟨hfin, hstopped, habandoned, hsession⟩ := stream_step hm
  have hlasting := (lasting_step hm .server).2.2
  refine ⟨flowInv_step hi.flow hs, ?_, ?_, ?_, ?_, client_step hi hd hm, server_step hi hok hm,
    ?_, ?_⟩
  · refine (hsession ?_).trans hi.session
    rintro rfl
    cases hd
  · intro h
    by_cases ha : a = .cancelRead
    · subst ha
      cases hm with
      | cancelRead q r hq => exact Or.inl ⟨q, r, rfl⟩
    · exact cancelled_step hm (hi.stopped ((hstopped ha).symm.trans h))
  · intro h
    by_cases ha : a = .close
    · subst ha
      cases hm with
      | close r hc hdone =>
        refine hi.client.resolve_right ?_
        intro hcopying
        have hnot := hcopying.not_done
        rw [Link.loop, relay_of_waits (waits_client_iff.mpr hc)] at hnot
        exact Bool.noConfusion (hnot.symm.trans (Relay.isDone_iff.mp hdone .streamQUICtoTCP))
    · exact hlasting (hi.fin ((hfin ha).symm.trans h))
  · rcases hi.down with hreset | hread
    · exact Or.inl (hlasting hreset)
    · by_cases ha : a = .cancelWrite
      · subst ha
        cases hm with
        | cancelWrite q r hq =>
          exact Or.inl (by simp [Half.reset, Half.cancelWrite, Fifo.abandon, hread.kept])
      · obtain ⟨hf, hst⟩ := down_step hm
        exact Or.inr ⟨hf.trans hread.fin, hst.trans hread.stopped, (habandoned ha).trans hread.kept⟩
  · intro q r hq
    cases hm with
    | cancelRead q' r' hq' hdone =>
      cases hq
      exact hdone
    | deliver s k x hdel => cases s <;> exact hi.done q r hq
    | loop s n ev r' p x hw hlm =>
      cases s with
      | client => exact hi.done q r hq
      | server =>
        obtain ⟨q', hq'⟩ := waits_server_iff.mp hw
        simp [setRelay, hq'] at hq
    | readHeader k er bs x y hr hx =>
      obtain ⟨-, ⟨p, rfl⟩ | ⟨q', rfl⟩ | ⟨rfl, -⟩⟩ := relay_of_readHeader hi.flow.known hx <;> cases hq
    | dialled => cases hq
    | notDialled => cases hq
    | cancelWrite => cases hq
    | _ => exact hi.done q r hq
  · by_cases ha : a = .cancelWrite
    · subst ha
      cases hm with
      | cancelWrite q r hq =>
        intro bs hbs
        have hdone := hi.done q r hq
        have hnot : ¬(l.loop .server .streamQUICtoTCP).Copying := by
          simp only [Link.loop, relay, hq, Option.getD_some]
          exact (Loop.over_of_isDone (Relay.isDone_iff.mp hdone .streamQUICtoTCP)).not_copying
        rcases hi.flow.channels.down with hkept | ⟨r', h⟩
        · have hreset : l.down.reset = false := by simp [Half.reset, hkept]
          have hover := (hi.server.resolve_left (by simp [hreset])).resolve_left hnot
          simp only [Half.cancelWrite, Fifo.abandon, hkept, Option.some.injEq] at hbs
          exact hbs ▸ hover.1
        · cases hq.symm.trans h
    · intro bs hbs
      exact hi.lost bs ((habandoned ha).symm.trans hbs)

end LinkAux

/-- For every run of a connection in which the session stays up and the client goes on reading, and in which no Write to the
destination fails before the response is over: `CancelWrite` abandons nothing that the server wrote. -/
theorem response_delivered (header : QpepHeader) (as : List Act) (l : Link)
    (hrun : run step (Link.init header) as = some l) (hd : ∀ a ∈ as, a.clientStops = false)
    (hok : Along step AfterResponse (Link.init header) as) : NothingLost l := by
  have hinit : ResponseInv (Link.init header) :=
    ⟨flowInv_init header, rfl, (fun h => by cases h), (fun h => by cases h), Or.inr ⟨rfl, rfl, rfl⟩, Or.inr trivial,
      Or.inr (Or.inl trivial), (fun _ _ h => by cases h), (fun _ h => by cases h)⟩
  have hreads : Along step (fun _ a => a.clientStops = false) (Link.init header) as := along_of_forall hd
  exact (inv_run_along (fun _ _ _ hi ho hs => responseInv_step hi ho.1 ho.2 hs) hinit hrun (hreads.and hok)).lost

/-- A run without failed Writes meets the condition. -/
theorem afterResponse_of_writes {l : Link} {as : List Act} (h : ∀ a ∈ as, a.socketWriteFails = false) :
    Along step AfterResponse l as := by
  have hal : Along step (fun _ a => a.socketWriteFails = false) l as := along_of_forall h
  refine hal.mono ?_
  intro l a hf k e ha
  rw [ha] at hf
  cases hf

/-- The destination answers with one byte and finishes, and the server copies the byte and closes the connection. -/
def respond : List Act :=
  [.dest (.send [82]), .dest .finish, .dest (.deliverIn 1), .loop .server .streamTCPtoQUIC (.read 1 none),
    .loop .server .streamTCPtoQUIC (.write 1 none), .loop .server .streamTCPtoQUIC (.read 0 (some .EOF)),
    .loop .server .streamTCPtoQUIC .close]

/-- The application sends one more byte, which gets as far as the server. -/
def sendMore : List Act :=
  [.app (.send [71]), .app (.deliverIn 1), .loop .client .streamTCPtoQUIC (.read 1 none),
    .loop .client .streamTCPtoQUIC (.write 1 none), .deliver .client 1, .loop .server .streamQUICtoTCP (.read 1 none)]

/-- The server cannot write that byte to the closed connection. -/
def failWrite : Act := .loop .server .streamQUICtoTCP (.write 0 (some .other))

/-- The server's handler goes on to its end. -/
def cancel : List Act := [.loop .server .streamQUICtoTCP .close, .cancelRead, .cancelWrite]

/-- The Write fails after the byte of the response has arrived. -/
def failLate : List Act := (connect ++ respond ++ sendMore ++ [.deliver .server 1]) ++ failWrite :: cancel

/-- The Write fails while the byte of the response is on its way. -/
def failEarly : List Act := connect ++ respond ++ sendMore ++ failWrite :: cancel

/-- Nothing is lost when the response has arrived before the Write fails. -/
theorem response_delivered_late : ∃ l, run step (Link.init webHeader) failLate = some l ∧ NothingLost l := by
  obtain ⟨l, hl⟩ : ∃ l, run step (Link.init webHeader) failLate = some l := ⟨_, rfl⟩
  refine ⟨l, hl, response_delivered webHeader failLate l hl (by decide) ?_⟩
  refine along_append.mpr ⟨afterResponse_of_writes (by decide), fun l₁ h₁ => ⟨?_, ?_⟩⟩
  · intro _ _ _
    cases h₁
    exact ⟨rfl, rfl, Or.inl trivial⟩
  · intro l₂ _
    exact afterResponse_of_writes (by decide)

/-- `CancelWrite` abandons the byte of the response that is still on its way. -/
theorem response_lost :
    (∀ a ∈ failEarly, a.clientStops = false) ∧
      ∃ l, run step (Link.init webHeader) failEarly = some l ∧ l.down.bytes.abandoned = some [82] ∧ ¬NothingLost l :=
  ⟨by decide, _, rfl, rfl, fun h => by cases h [82] rfl⟩

end Link

end Qpep
