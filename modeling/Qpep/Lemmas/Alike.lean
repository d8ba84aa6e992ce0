import Qpep.Theorems.Refinement

/-!
# Worlds that differ in their sessions

Two worlds are alike if each connection stands in one as it stands in the other, but for the sessions: which session a
stream is on, which ones were dialled, accepted or lost in the meantime, and how far a connection has got that has no stream
yet (`Alike`). A step in which no session occurs is the same step in both (`alike_step`), and the endpoints of a connection
see the same in both (`view_alike`, `visible_alike`).
-/

namespace Qpep

open Net Io Machine

namespace World

open WorldAux Client.ClientAux

/-- No session occurs in the step: it accepts a connection, or it is one of an endpoint, of the network, or of a handler
that has a stream. -/
def Act.sessionless : Act → Bool
  | .client (.accept _ _) => true
  | .client _ | .server _ => false
  | _ => true

/-- Where the same handler stands in two worlds: while it is getting a stream in the first one, it is at its start in the
second one; and then it stands at the same point in both. -/
def Counterpart (pc pc' : Client.Pc) : Prop := if pc.opening then pc' = .entry else pc' = pc

/-- The second world is like the first one but for the sessions. The second server may have accepted streams that the first
one has not, but it has not begun with these either. -/
structure Alike (w w' : World) : Prop where
  running : w'.client.crashed = false
  streams : w'.client.streams = w.client.streams
  handlers : ∀ c, Option.Rel (fun h h' => h'.header = h.header ∧ Counterpart h.pc h'.pc) (w.client.handlers c)
    (w'.client.handlers c)
  apps : w'.apps = w.apps
  channels : ∀ n, w'.channels n = { w.channels n with session := (w'.channels n).session }
  lost : ∀ n, n < w.client.streams → w'.lost n = w.lost n
  serving : ∀ n, w'.serving n = w.serving n
  accepted : ∀ n, w.server.streams n ≠ none → w'.server.streams n ≠ none

/-- What a step without a session leaves as it is: the configuration, the sessions of the client and those of the server,
which stream is on which, and which are accepted. -/
structure Sessions where
  cfg : ClientConfig
  quicSession : Option SessionId
  sessions : Nat
  streams : Nat
  failed : SessionId → Bool
  listener : Server.Listener
  accepted : SessionId → Bool
  loops : List Server.AcceptLoop
  session : StreamId → SessionId
  streamAccepted : StreamId → Bool

/-- The sessions of a world. -/
def sessionsOf (w : World) : Sessions :=
  ⟨w.client.cfg, w.client.quicSession, w.client.sessions, w.client.streams, w.client.failed, w.server.listener, w.server.accepted,
    w.server.loops, fun n => (w.channels n).session, fun n => (w.server.streams n).isSome⟩

namespace AlikeAux

variable {w w' : World}

/-- A handler that has a stream, or has returned, has one counterpart. -/
theorem counterpart_same {pc : Client.Pc} (h : pc.opening = false) : Counterpart pc pc := by
  simp [Counterpart, h]

theorem counterpart_entry {pc : Client.Pc} (h : pc.opening = true) : Counterpart pc .entry := by
  simp [Counterpart, h]

theorem entry_of_counterpart {pc pc' : Client.Pc} (h : Counterpart pc pc') (ho : pc.opening = true) : pc' = .entry := by
  unfold Counterpart at h
  rwa [if_pos ho] at h

theorem same_of_counterpart {pc pc' : Client.Pc} (h : Counterpart pc pc') (hf : pc.opening = false) : pc' = pc := by
  unfold Counterpart at h
  rwa [if_neg (by simp [hf])] at h

/-- The counterpart of a handler. -/
theorem handler_of_alike (h : Alike w w') {c : ConnId} {x : Client.Handler} (hx : w.client.handlers c = some x) :
    ∃ x', w'.client.handlers c = some x' ∧ x'.header = x.header ∧ Counterpart x.pc x'.pc := by
  have hc := h.handlers c
  rw [hx] at hc
  generalize hx' : w'.client.handlers c = o at hc
  cases hc with
  | some hxx => exact ⟨_, rfl, hxx⟩

theorem no_handler_of_alike (h : Alike w w') {c : ConnId} : w'.client.handlers c = none ↔ w.client.handlers c = none := by
  have hc := h.handlers c
  generalize w.client.handlers c = o at hc
  generalize w'.client.handlers c = o' at hc
  cases hc <;> simp

/-- The same connections have the same streams. -/
theorem relaying_alike (h : Alike w w') (c : ConnId) : w'.relaying c = w.relaying c := by
  cases hx : w.client.handlers c with
  | none => simp [relaying, hx, (no_handler_of_alike h).mpr hx]
  | some x =>
    obtain ⟨⟨header', pc', d', s'⟩, hx', hheader, hpc⟩ := handler_of_alike h hx
    obtain ⟨header, pc, d, s⟩ := x
    cases hheader
    simp only [relaying, hx, hx']
    cases hf : pc.opening with
    | false =>
      cases same_of_counterpart hpc hf
      cases pc' <;> rfl
    | true =>
      cases entry_of_counterpart hpc hf
      cases pc <;> first | rfl | cases hf

/-- A stream differs from its counterpart in the session. -/
theorem channel_alike (h : Alike w w') (n : StreamId) : ∃ p, w'.channels n = { w.channels n with session := p } :=
  ⟨_, h.channels n⟩

/-- A connection has the same view in both worlds. -/
theorem view_alike (h : Alike w w') (hi : Owned w) (c : ConnId) : w'.view c = w.view c := by
  cases hx : w.client.handlers c with
  | none => simp [view, hx, (no_handler_of_alike h).mpr hx]
  | some x =>
    obtain ⟨⟨header', pc', d', s'⟩, hx', hheader, hpc⟩ := handler_of_alike h hx
    have hbelow := hi.streams.below c x
    obtain ⟨header, pc, d, s⟩ := x
    cases hheader
    simp only [view, hx, hx', Option.map_some, Option.some.injEq]
    cases hf : pc.opening with
    | false =>
      cases same_of_counterpart hpc hf
      cases pc' with
      | relay n r =>
        have hlost := h.lost n (hbelow n r hx rfl)
        obtain ⟨p, hp⟩ := channel_alike h n
        simp only [link, streamLink, h.serving, h.apps, hlost, hp]
      | returned => simp only [link, h.apps]
      | _ => cases hf
    | true =>
      cases entry_of_counterpart hpc hf
      rw [link_opening rfl, link_opening hf, h.apps]

/-- The endpoints see a step alike in worlds that are alike. -/
theorem visible_alike (h : Alike w w') (c : ConnId) (a : Act) : visible c w' a = visible c w a := by
  cases a with
  | app c' e => simp only [visible, h.apps]
  | dest n e =>
    obtain ⟨p, hp⟩ := channel_alike h n
    have hhas : w'.has c n = w.has c n := by simp only [has, relaying_alike h]
    simp only [visible, hhas, hp]
  | _ => rfl

/-- The endpoints do not see what is done with sessions. -/
theorem unseen {a : Act} (ha : a.sessionless = false) (c : ConnId) (w : World) : visible c w a = none := by
  cases a with
  | client b => rfl
  | server b => rfl
  | _ => cases ha

/-- quic-go makes every step in which no session occurs. -/
theorem permits_of_sessionless {a : Act} (ha : a.sessionless = true) (w : World) : w.permits a = true := by
  cases a with
  | client b =>
    cases b with
    | accept c header => rfl
    | _ => cases ha
  | server b => cases ha
  | _ => rfl

/-! ## What keeps worlds alike -/

/-- A handler and its counterpart are replaced. -/
theorem handlers_update {R : Client.Handler → Client.Handler → Prop} {f f' : ConnId → Option Client.Handler} {c : ConnId}
    {x x' : Client.Handler} (h : ∀ d, Option.Rel R (f d) (f' d)) (hx : R x x') (d : ConnId) :
    Option.Rel R (Function.update f c (some x) d) (Function.update f' c (some x') d) := by
  by_cases hdc : d = c
  · subst hdc
    simpa only [Function.update_self] using Option.Rel.some hx
  · rw [Function.update_of_ne hdc, Function.update_of_ne hdc]
    exact h d

/-- The session of a stream is lost in one world if it is in the other. -/
theorem lost_update {n : StreamId} {ch : Channel} (hsession : ch.session = (w.channels n).session) (m : StreamId) :
    w.client.failed (Function.update w.channels n ch m).session = w.lost m := by
  by_cases hm : m = n
  · subst hm
    rw [Function.update_self, hsession, lost]
  · rw [Function.update_of_ne hm, lost]

/-- A stream is changed in both worlds in the same way. -/
theorem alike_put (h : Alike w w') {n : StreamId} {ch ch' : Channel} (hch : ch' = { ch with session := (w'.channels n).session })
    (hsession : ch.session = (w.channels n).session) :
    Alike { w with channels := Function.update w.channels n ch } { w' with channels := Function.update w'.channels n ch' } where
  running := h.running
  streams := h.streams
  handlers := h.handlers
  apps := h.apps
  channels m := by
    by_cases hm : m = n
    · subst hm
      simp only [Function.update_self]
      rw [hch]
    · simpa only [Function.update_of_ne hm] using h.channels m
  lost m hm := by
    have hsession' : ch'.session = (w'.channels n).session := by rw [hch]
    exact (lost_update hsession' m).trans ((h.lost m hm).trans (lost_update hsession m).symm)
  serving := h.serving
  accepted := h.accepted

/-! ## A step in which no session occurs -/

/-- The streams keep their sessions. -/
theorem session_update {n : StreamId} {ch : Channel} (hsession : ch.session = (w.channels n).session) :
    (fun m => (Function.update w.channels n ch m).session) = fun m => (w.channels m).session := by
  funext m
  by_cases hm : m = n
  · subst hm
    rw [Function.update_self, hsession]
  · rw [Function.update_of_ne hm]

/-- A step of the first world is one of the second world, which stays like it, and the sessions are as before. -/
def Repeated (w w' w₁ : World) (o' : Option World) : Prop :=
  ∃ w₁', o' = some w₁' ∧ Alike w₁ w₁' ∧ w₁.sessionsOf = w.sessionsOf ∧ w₁'.sessionsOf = w'.sessionsOf

/-- The environment changes a stream. -/
theorem repeated_put (h : Alike w w') {n : StreamId} {ch ch' : Channel}
    (hch : ch' = { ch with session := (w'.channels n).session }) (hsession : ch.session = (w.channels n).session) :
    Repeated w w' { w with channels := Function.update w.channels n ch }
      (some { w' with channels := Function.update w'.channels n ch' }) := by
  have hsession' : ch'.session = (w'.channels n).session := by rw [hch]
  refine ⟨_, rfl, alike_put h hch hsession, ?_, ?_⟩
  · simp only [sessionsOf, session_update hsession]
  · simp only [sessionsOf, session_update hsession']

/-- A handler of the client makes a call. -/
theorem repeated_clientCall (h : Alike w w') {w₁ : World} {c : ConnId} {header : QpepHeader} {n : StreamId}
    {r : Client.Relaying} {io : Client.RelayIo} {app : Sock} {ch ch' : Channel} (hr : w.relaying c = some (header, n, r))
    (hcall : w.clientCall c n io app ch = some w₁) (hch : ch' = { ch with session := (w'.channels n).session })
    (hsession : ch.session = (w.channels n).session) : Repeated w w' w₁ (w'.clientCall c n io app ch') := by
  obtain ⟨x, r', hx, -, hpc, hstep, rfl⟩ := clientCall_some hr hcall
  obtain ⟨x', hx', hheader, hcounter⟩ := handler_of_alike h hx
  have hpc' : x'.pc = .relay n r := (same_of_counterpart hcounter (by rw [hpc]; rfl)).trans hpc
  have hcall' : w'.clientCall c n io app ch' = some ⟨w'.client.set c { x' with pc := .relay n r' }, w'.server,
      Function.update w'.apps c app, Function.update w'.channels n ch'⟩ := by
    simp [clientCall, Client.step, h.running, hx', Client.handleTCPConn, hpc', hstep]
  have hsession' : ch'.session = (w'.channels n).session := by rw [hch]
  refine ⟨_, hcall', ?_, ?_, ?_⟩
  · exact { alike_put h hch hsession with
      handlers := handlers_update h.handlers ⟨hheader, counterpart_same rfl⟩
      apps := by simp only [h.apps] }
  · simp only [sessionsOf, session_update hsession]
    rfl
  · simp only [sessionsOf, session_update hsession']
    rfl

/-- The stream of a call of the server has been accepted, and stays so. -/
theorem accepted_update {n : StreamId} {x y : Server.Stream} (hx : w.server.streams n = some x) :
    (fun m => (Function.update w.server.streams n (some y) m).isSome) = fun m => (w.server.streams m).isSome := by
  funext m
  by_cases hm : m = n
  · subst hm
    simp [hx]
  · rw [Function.update_of_ne hm]

/-- A handler of the server makes a call. -/
theorem repeated_serverCall (h : Alike w w') {w₁ : World} {n : StreamId} {io : Server.ServerIo} {ch ch' : Channel}
    (hcall : w.serverCall n io ch = some w₁) (hch : ch' = { ch with session := (w'.channels n).session })
    (hsession : ch.session = (w.channels n).session) : Repeated w w' w₁ (w'.serverCall n io ch') := by
  obtain ⟨s, hs, rfl⟩ := Option.map_eq_some_iff.mp hcall
  simp only [Server.step] at hs
  split at hs
  · rename_i x hx
    obtain ⟨y, hy, rfl⟩ := Option.map_eq_some_iff.mp hs
    obtain ⟨k, hk, rfl⟩ := Option.map_eq_some_iff.mp hy
    obtain ⟨x', hx'⟩ := Option.ne_none_iff_exists'.mp (h.accepted n (by simp [hx]))
    have hsame : x'.handler = x.handler := by simpa [serving, hx, hx'] using h.serving n
    have hsession' : ch'.session = (w'.channels n).session := by rw [hch]
    refine ⟨_, by simp [serverCall, Server.step, hx', Server.Stream.step, hsame, hk]; rfl, ?_, ?_, ?_⟩
    · exact { alike_put h hch hsession with
        serving := fun m => by
          by_cases hm : m = n
          · subst hm
            simp [serving]
          · simpa only [serving, Function.update_of_ne hm] using h.serving m
        accepted := fun m hm => by
          by_cases hmn : m = n
          · subst hmn
            simp
          · simp only [Function.update_of_ne hmn] at hm ⊢
            exact h.accepted m hm }
    · simp only [sessionsOf, session_update hsession, accepted_update hx]
    · simp only [sessionsOf, session_update hsession', accepted_update hx']
  · cases hs

/-- The stream of a handler was opened. -/
theorem opened_of_relaying (hi : Owned w) {c : ConnId} {header : QpepHeader} {n : StreamId} {r : Client.Relaying}
    (hr : w.relaying c = some (header, n, r)) : n < w.client.streams := by
  simp only [relaying] at hr
  split at hr
  · rename_i hx
    cases hr
    exact hi.streams.below c _ _ _ hx rfl
  · cases hr

/-- A stream that the server makes a call for was opened. -/
theorem opened_of_called (hi : Owned w) {w₁ : World} {n : StreamId} {io : Server.ServerIo} {ch : Channel}
    (hcall : w.serverCall n io ch = some w₁) : n < w.client.streams := by
  by_cases hn : n < w.client.streams
  · exact hn
  · exact absurd (hi.unopened n (Nat.not_lt.mp hn)) (serverCall_some hcall).2.2.1

/-- A connection is accepted. -/
theorem repeated_accept (h : Alike w w') {w₁ : World} {c : ConnId} {header : QpepHeader}
    (hs : w.clientStep (.accept c header) = some w₁) : Repeated w w' w₁ (w'.clientStep (.accept c header)) := by
  obtain ⟨m, hm, rfl⟩ := Option.map_eq_some_iff.mp hs
  obtain ⟨-, hnone, rfl⟩ := accept_some hm
  have hnone' := (no_handler_of_alike h).mpr hnone
  have haccept : w'.clientStep (.accept c header) =
      some { w' with client := w'.client.set c (.start header), apps := Function.update w'.apps c Sock.fresh } := by
    simp [clientStep, Client.step, h.running, hnone']
  refine ⟨_, haccept, ?_, rfl, rfl⟩
  exact { h with
    handlers := handlers_update h.handlers ⟨rfl, counterpart_entry rfl⟩
    apps := by simp only [h.apps] }

/-- A step in which no session occurs is the same step in a world that is alike. -/
theorem alike_step (h : Alike w w') (hi : Owned w) {a : Act} {w₁ : World}
    (ha : a.sessionless = true) (hs : w.step a = some w₁) : Repeated w w' w₁ (w'.step a) := by
  cases a with
  | client b =>
    cases b with
    | accept c header => exact repeated_accept h hs
    | _ => cases ha
  | server b => cases ha
  | app c e =>
    simp only [step, Option.ite_none_right_eq_some] at hs
    obtain ⟨hsome, hs⟩ := hs
    obtain ⟨s, he, rfl⟩ := Option.map_eq_some_iff.mp hs
    obtain ⟨x, hx⟩ := Option.isSome_iff_exists.mp hsome
    obtain ⟨x', hx', -⟩ := handler_of_alike h hx
    have hstep : w'.step (.app c e) = some { w' with apps := Function.update w'.apps c s } := by
      simp [step, hx', h.apps, he]
    exact ⟨_, hstep, { h with apps := by simp only [h.apps] }, rfl, rfl⟩
  | dest n e =>
    obtain ⟨p, hp⟩ := channel_alike h n
    simp only [step, h.serving, hp] at hs ⊢
    split at hs
    case h_4 => cases hs
    all_goals
      obtain ⟨s, he, rfl⟩ := Option.map_eq_some_iff.mp hs
      simp only [*, Option.map_some]
      exact repeated_put h (by simp only [hp]) rfl
  | deliver n s k =>
    obtain ⟨p, hp⟩ := channel_alike h n
    cases s with
    | client =>
      obtain ⟨x, hx, rfl⟩ := Option.map_eq_some_iff.mp hs
      simp only [step, hp, hx, Option.map_some]
      exact repeated_put h (by simp only [hp]) rfl
    | server =>
      obtain ⟨x, hx, rfl⟩ := Option.map_eq_some_iff.mp hs
      simp only [step, hp, hx, Option.map_some]
      exact repeated_put h (by simp only [hp]) rfl
  | writeHeader c k ew =>
    simp only [step] at hs
    split at hs
    · rename_i header n r hr
      obtain ⟨x, hx, hcall⟩ := Option.bind_eq_some_iff.mp hs
      obtain ⟨p, hp⟩ := channel_alike h n
      have hlost := h.lost n (opened_of_relaying hi hr)
      have hstep : w'.step (.writeHeader c k ew) = w'.clientCall c n (.writeHeader k ew) (w.apps c)
          { w.channels n with session := p, up := x, headerOut := header.toBytes.take k } := by
        simp [step, relaying_alike h, hr, hp, hlost, hx, h.apps]
      rw [hstep]
      exact repeated_clientCall h hr hcall (by simp only [hp]) rfl
    · cases hs
  | clientLoop c name ev =>
    simp only [step] at hs
    split at hs
    · rename_i header n r hr
      obtain ⟨⟨q, io⟩, hq, hcall⟩ := Option.bind_eq_some_iff.mp hs
      obtain ⟨p, hp⟩ := channel_alike h n
      have hlost := h.lost n (opened_of_relaying hi hr)
      have hstep : w'.step (.clientLoop c name ev) = w'.clientCall c n (.loop name io) q.sock
          { w.channels n with session := p, up := q.out, down := q.inn } := by
        simp [step, relaying_alike h, hr, hp, hlost, hq, h.apps]
      rw [hstep]
      exact repeated_clientCall h hr hcall (by simp only [hp]) rfl
    · cases hs
  | close c =>
    simp only [step] at hs
    split at hs
    · rename_i header n r hr
      obtain ⟨p, hp⟩ := channel_alike h n
      have hstep : w'.step (.close c) = w'.clientCall c n .close (w.apps c).close
          { w.channels n with session := p, up := (w.channels n).up.close } := by
        simp [step, relaying_alike h, hr, hp, h.apps]
      rw [hstep]
      exact repeated_clientCall h hr hs (by simp only [hp]) rfl
    · cases hs
  | readHeader n k er =>
    obtain ⟨⟨bs, x⟩, hx, hcall⟩ := Option.bind_eq_some_iff.mp hs
    obtain ⟨p, hp⟩ := channel_alike h n
    have hlost := h.lost n (opened_of_called hi hcall)
    have hstep : w'.step (.readHeader n k er) = w'.serverCall n (.read bs er)
        { w.channels n with session := p, up := x, headerIn := (w.channels n).headerIn ++ bs } := by
      simp [step, hp, hlost, hx]
    rw [hstep]
    exact repeated_serverCall h hcall (by simp only [hp]) rfl
  | dialTimeout n ok =>
    simp only [step] at hs
    split at hs
    · rename_i header hserving
      obtain ⟨p, hp⟩ := channel_alike h n
      have hstep : w'.step (.dialTimeout n ok) = w'.serverCall n (.dialTimeout ok)
          { w.channels n with session := p, dialled := (w.channels n).dialled ++ [header.destAddr] } := by
        simp [step, h.serving, hserving, hp]
      rw [hstep]
      exact repeated_serverCall h hs (by simp only [hp]) rfl
    · cases hs
  | serverLoop n name ev =>
    simp only [step] at hs
    split at hs
    · rename_i header r hserving
      obtain ⟨⟨q, io⟩, hq, hcall⟩ := Option.bind_eq_some_iff.mp hs
      obtain ⟨p, hp⟩ := channel_alike h n
      have hlost := h.lost n (opened_of_called hi hcall)
      have hstep : w'.step (.serverLoop n name ev) = w'.serverCall n (.loop name io)
          { w.channels n with session := p, dest := q.sock, down := q.out, up := q.inn } := by
        simp [step, h.serving, hserving, hp, hlost, hq]
      rw [hstep]
      exact repeated_serverCall h hcall (by simp only [hp]) rfl
    · cases hs
  | cancelRead n =>
    obtain ⟨p, hp⟩ := channel_alike h n
    have hstep : w'.step (.cancelRead n) = w'.serverCall n .cancelRead
        { w.channels n with session := p, up := (w.channels n).up.cancelRead } := by
      simp [step, hp]
    rw [hstep]
    exact repeated_serverCall h hs (by simp only [hp]) rfl
  | cancelWrite n =>
    obtain ⟨p, hp⟩ := channel_alike h n
    have hstep : w'.step (.cancelWrite n) = w'.serverCall n .cancelWrite
        { w.channels n with session := p, down := (w.channels n).down.cancelWrite } := by
      simp [step, hp]
    rw [hstep]
    exact repeated_serverCall h hs (by simp only [hp]) rfl

end AlikeAux

end World

end Qpep
