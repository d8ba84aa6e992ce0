import Qpep.Lemmas.Alike
import Qpep.Lemmas.Sessions
import Qpep.Lib.Answers

/-!
# Getting a stream in one go

What a handler of one world comes to while it is getting its stream (`outcome_of_move`), and how a handler of a second world
that has waited at its start comes to the same: it opens a stream on a session that it dials (`leads_dial`) or that it finds
in `quicSession` (`leads_find`), or it gives up (`leads_giveUp`). The server of the second world accepts each session when
it is dialled (`Ready`), and a stream at any time after that (`leads_acceptStream`). quic-go makes every step of that.
-/

namespace Qpep

open Net Io Machine

/-- An attempt to dial has failed. -/
def Client.Pc.tried : Client.Pc → Bool
  | .openQuicSession _ failed | .assign _ failed => failed
  | _ => false

namespace World

open WorldAux Client.ClientAux

/-- The server has accepted the sessions that were dialled, and accepts streams on each of them. -/
structure Sessions.Ready (s : Sessions) : Prop where
  listener : s.listener = .accept
  loops : ∀ p, p < s.sessions → ∃ i : Nat, s.loops[i]? = some (⟨p, true⟩ : Server.AcceptLoop)
  undialled : ∀ p, s.sessions ≤ p → s.accepted p = false

theorem Sessions.Ready.same {s s' : Sessions} (h : s.Ready) (hlistener : s'.listener = s.listener) (hloops : s'.loops = s.loops)
    (hsessions : s'.sessions = s.sessions) (haccepted : s'.accepted = s.accepted) : s'.Ready := by
  refine ⟨hlistener.trans h.listener, ?_, ?_⟩
  · rw [hloops, hsessions]
    exact h.loops
  · rw [haccepted, hsessions]
    exact h.undialled

/-- The steps lead from one world to another one, no connection takes part in them, and quic-go makes each of them. -/
def Leads (w : World) (bs : List Act) (w' : World) : Prop :=
  (∀ b ∈ bs, b.sessionless = false) ∧ Machine.Leads step (fun w a => w.permits a = true) w bs w'

variable {w w' w₁ : World}

theorem Leads.nil : Leads w [] w := ⟨by simp, .nil⟩

theorem Leads.one {b : Act} (hb : b.sessionless = false) (hp : w.permits b = true) (hs : w.step b = some w') : Leads w [b] w' :=
  ⟨by simpa using hb, .one hp hs⟩

theorem Leads.trans {bs bs' : List Act} (h : Leads w bs w₁) (h' : Leads w₁ bs' w') : Leads w (bs ++ bs') w' := by
  refine ⟨?_, h.2.append h'.2⟩
  intro b hb
  rcases List.mem_append.mp hb with hb | hb
  · exact h.1 b hb
  · exact h'.1 b hb

/-- The invariant: streams and sessions are the ones that were opened and dialled, and nobody has dialled if there is no
attempt. -/
structure Settled (w : World) : Prop where
  owned : Owned w
  known : w.client.Known
  dialled : 0 < w.client.sessions → 0 < w.client.cfg.connectionRetries
  tried : ∀ c x, w.client.handlers c = some x → x.pc.tried = true → 0 < w.client.cfg.connectionRetries

namespace AlikeAux

/-! ## The first world -/

theorem settled_init (cfg : ClientConfig) : Settled (World.init cfg) :=
  ⟨owned_init cfg, known_init cfg, fun h => absurd h (Nat.lt_irrefl 0), fun _ _ hx => (by cases hx)⟩

/-- What a move that dials, or has dialled, needs. -/
theorem retries_of_move {m : Client} {x x' : Client.Handler} {a : Client.HandlerAct} {q : Option SessionId} {k n : Nat}
    (hm : Client.Move m x a x' q k n) :
    (m.sessions < k → 0 < m.cfg.connectionRetries) ∧ (x'.pc.tried = true → x.pc.tried = true ∨ 0 < m.cfg.connectionRetries) := by
  have hno : ∀ {k : Nat}, ¬k < k := fun h => absurd h (Nat.lt_irrefl _)
  cases hm with
  | dialled i failed hpc hi => exact ⟨fun _ => by omega, fun ht => by cases ht⟩
  | retry i failed hpc hi => exact ⟨fun h => absurd h hno, fun _ => Or.inr (by omega)⟩
  | exhausted i failed hpc hi => exact ⟨fun h => absurd h hno, fun ht => Or.inl (by rw [hpc]; exact ht)⟩
  | stored session failed hpc =>
    refine ⟨fun h => absurd h hno, ?_⟩
    cases failed <;> exact fun ht => by cases ht
  | tryOpen hpc | noOpen hpc | load s hpc | opened s hpc | refused s hpc | loadSync s hpc | openedSync s hpc | refusedSync s hpc
  | relayed n r r' io hpc => exact ⟨fun h => absurd h hno, fun ht => by cases ht⟩

theorem settled_step {a : Act} (hi : Settled w) (hs : w.step a = some w₁) : Settled w₁ := by
  have howned := owned_step hi.owned hs
  rcases client_of_step hs with he | ⟨b, hb⟩
  · exact ⟨howned, he ▸ hi.known, he ▸ hi.dialled, he ▸ hi.tried⟩
  · have hknown := known_step hi.known hb
    obtain ⟨-, ⟨c, header, -, -, he⟩ | ⟨t, -, -, he⟩ | ⟨c, ha, x, x', q, k, n, -, hx, hm, he⟩ | ⟨c, ha, x, -, -, -, -, he⟩⟩ :=
      step_cases hb
    · refine ⟨howned, hknown, by rw [he]; exact hi.dialled, ?_⟩
      rw [he]
      exact forall_set (Q := fun _ y => y.pc.tried = true → 0 < w.client.cfg.connectionRetries) (fun ht => by cases ht)
        fun d y _ hy => hi.tried d y hy
    · exact ⟨howned, hknown, by rw [he]; exact hi.dialled, by rw [he]; exact hi.tried⟩
    · obtain ⟨hdials, htries⟩ := retries_of_move hm
      refine ⟨howned, hknown, ?_, ?_⟩
      · rw [he]
        intro hpos
        by_cases hlt : w.client.sessions < k
        · exact hdials hlt
        · exact hi.dialled (Nat.lt_of_lt_of_le hpos (Nat.not_lt.mp hlt))
      · rw [he]
        refine forall_moved (Q := fun _ y => y.pc.tried = true → 0 < w.client.cfg.connectionRetries) ?_ fun d y _ hy =>
          hi.tried d y hy
        exact fun ht => (htries ht).elim (hi.tried c x hx) id
    · exact ⟨howned, hknown, by rw [he]; exact hi.dialled, by rw [he]; exact hi.tried⟩

/-- What a move of a handler that is getting a stream comes to: it is still getting one; it has returned, which takes an
attempt to dial; or it has opened the next stream, on a session that is up. -/
theorem outcome_of_move (hi : Settled w) {c : ConnId} {x x' : Client.Handler} {a : Client.HandlerAct} {q : Option SessionId}
    {k n : Nat}
    (hx : w.client.handlers c = some x) (hm : Client.Move w.client x a x' q k n) (hno : ∀ io, a ≠ .relay io) :
    x.pc.opening = true ∧ x'.header = x.header ∧ (x'.pc.opening = true ∧ n = w.client.streams ∨
      (0 < w.client.cfg.connectionRetries ∧ (x'.pc = .returned ∧ n = w.client.streams ∨
        ∃ s, x' = { x with pc := .relay w.client.streams .header, session := some s } ∧ n = w.client.streams + 1 ∧
          w.client.failed s = false))) := by
  have hdialled : ∀ {s : SessionId}, x.Holds s → 0 < w.client.cfg.connectionRetries := fun {s} hs =>
    hi.dialled (Nat.lt_of_le_of_lt (Nat.zero_le s) (hi.known.holds c x s hx hs))
  cases hm with
  | relayed _ _ _ io => exact absurd rfl (hno io)
  | opened s hpc hlive =>
    have hholds : x.Holds s := by simp only [Client.Handler.Holds, hpc]
    exact ⟨by rw [hpc]; rfl, rfl, Or.inr ⟨hdialled hholds, Or.inr ⟨s, rfl, rfl, hlive⟩⟩⟩
  | openedSync s hpc hlive =>
    have hholds : x.Holds s := by simp only [Client.Handler.Holds, hpc]
    exact ⟨by rw [hpc]; rfl, rfl, Or.inr ⟨hdialled hholds, Or.inr ⟨s, rfl, rfl, hlive⟩⟩⟩
  | stored session failed hpc =>
    refine ⟨by rw [hpc]; rfl, rfl, ?_⟩
    cases failed with
    | true => exact Or.inr ⟨hi.tried c x hx (by rw [hpc]; rfl), Or.inl ⟨rfl, rfl⟩⟩
    | false => exact Or.inl ⟨rfl, rfl⟩
  | refusedSync s hpc =>
    have hholds : x.Holds s := by simp only [Client.Handler.Holds, hpc]
    exact ⟨by rw [hpc]; rfl, rfl, Or.inr ⟨hdialled hholds, Or.inl ⟨rfl, rfl⟩⟩⟩
  | tryOpen hpc | noOpen hpc => exact ⟨by rw [hpc]; rfl, rfl, Or.inl ⟨rfl, rfl⟩⟩
  | load s hpc | refused s hpc | loadSync s hpc => exact ⟨by rw [hpc]; rfl, rfl, Or.inl ⟨rfl, rfl⟩⟩
  | dialled i failed hpc | retry i failed hpc | exhausted i failed hpc => exact ⟨by rw [hpc]; rfl, rfl, Or.inl ⟨rfl, rfl⟩⟩

/-- A client that has not crashed has not crashed before. -/
theorem running_step {a : Act} (hs : w.step a = some w₁) (h : w₁.client.crashed = false) : w.client.crashed = false := by
  rcases client_of_step hs with he | ⟨b, hb⟩
  · exact he ▸ h
  · obtain ⟨-, ⟨_, _, -, -, he⟩ | ⟨_, -, -, he⟩ | ⟨_, _, _, _, _, _, _, -, -, -, he⟩ | ⟨_, _, _, -, -, -, -, he⟩⟩ := step_cases hb
    all_goals
      rw [he] at h
      first | exact h | cases h

/-! ## The second world -/

theorem after_opened {c : ConnId} {m : Client} {x : Client.Handler} {n : StreamId} {s : SessionId} (hx : m.handlers c = some x)
    (hc : m.crashed = false) (hpc : x.pc = .relay n .header) (hs : x.session = some s) :
    w.after c m = { w with client := m, channels := Function.update w.channels n (.fresh s) } := by
  rcases after_cases (w := w) hx hc with ⟨n', s', hpc', hs', he⟩ | ⟨hpc', -⟩ | ⟨hno, -⟩
  · cases hpc.symm.trans hpc'
    cases hs.symm.trans hs'
    exact he
  · cases hpc.symm.trans hpc'
  · exact absurd hs (hno n s hpc)

theorem after_returned {c : ConnId} {m : Client} {x : Client.Handler} (hx : m.handlers c = some x) (hc : m.crashed = false)
    (hpc : x.pc = .returned) : w.after c m = { w with client := m, apps := Function.update w.apps c (w.apps c).close } := by
  rcases after_cases (w := w) hx hc with ⟨_, _, hpc', -⟩ | ⟨-, he⟩ | ⟨-, hno, -⟩
  · cases hpc.symm.trans hpc'
  · exact he
  · exact absurd hpc hno

/-- A move is a step, unless it is the test or a call on the connection or the stream. -/
theorem step_move {c : ConnId} {a : Client.HandlerAct} {x x' : Client.Handler} {q : Option SessionId} {k n : Nat}
    (hc : w.client.crashed = false) (hx : w.client.handlers c = some x) (hm : Client.Move w.client x a x' q k n) (ha : a ≠ .test)
    (hno : ∀ io, a ≠ .relay io) : w.step (.client (.handler c a)) = some (w.after c (w.client.moved c x' q k n)) := by
  have hstep := step_of_move hc hx hm ha
  cases a with
  | relay io => exact absurd rfl (hno io)
  | _ => simp only [step, clientStep, hstep, Option.map_some]

/-- The handler stays without a stream. -/
theorem leads_opening {c : ConnId} {a : Client.HandlerAct} {x x' : Client.Handler} {q : Option SessionId} {k n : Nat}
    (hc : w.client.crashed = false) (hx : w.client.handlers c = some x) (hm : Client.Move w.client x a x' q k n) (ha : a ≠ .test)
    (ho : x'.pc.opening = true) (hp : w.permits (.client (.handler c a)) = true) :
    Leads w [.client (.handler c a)] { w with client := w.client.moved c x' q k n } := by
  have hno : ∀ io, a ≠ .relay io := by
    rintro io rfl
    cases hm
    cases ho
  have hstep := step_move hc hx hm ha hno
  rw [after_opening (moved_handlers_self _ _ _ _ _ _) hc ho] at hstep
  exact .one rfl hp hstep

/-- The handler opens its stream. -/
theorem leads_opened {c : ConnId} {a : Client.HandlerAct} {x x' : Client.Handler} {q : Option SessionId} {k n : Nat}
    {i : StreamId}
    {s : SessionId} (hc : w.client.crashed = false) (hx : w.client.handlers c = some x) (hm : Client.Move w.client x a x' q k n)
    (ha : a ≠ .test) (hno : ∀ io, a ≠ .relay io) (hpc : x'.pc = .relay i .header) (hs : x'.session = some s)
    (hp : w.permits (.client (.handler c a)) = true) :
    Leads w [.client (.handler c a)]
      { w with client := w.client.moved c x' q k n, channels := Function.update w.channels i (.fresh s) } := by
  have hstep := step_move hc hx hm ha hno
  rw [after_opened (moved_handlers_self _ _ _ _ _ _) hc hpc hs] at hstep
  exact .one rfl hp hstep

/-- The handler returns without a stream. -/
theorem leads_returned {c : ConnId} {a : Client.HandlerAct} {x x' : Client.Handler} {q : Option SessionId} {k n : Nat}
    (hc : w.client.crashed = false) (hx : w.client.handlers c = some x) (hm : Client.Move w.client x a x' q k n) (ha : a ≠ .test)
    (hno : ∀ io, a ≠ .relay io) (hpc : x'.pc = .returned) (hp : w.permits (.client (.handler c a)) = true) :
    Leads w [.client (.handler c a)]
      { w with client := w.client.moved c x' q k n, apps := Function.update w.apps c (w.apps c).close } := by
  have hstep := step_move hc hx hm ha hno
  rw [after_returned (moved_handlers_self _ _ _ _ _ _) hc hpc] at hstep
  exact .one rfl hp hstep

/-- The test, when there is no session to try or `MultiStream` is off. -/
theorem leads_test_dial {c : ConnId} {x : Client.Handler} (hc : w.client.crashed = false) (hx : w.client.handlers c = some x)
    (hpc : x.pc = .entry) (hno : ¬(w.client.cfg.multiStream = true ∧ w.client.quicSession ≠ none)) :
    Leads w [.client (.handler c .test)] { w with
      client := w.client.moved c { x with pc := .openQuicSession 0 false } w.client.quicSession w.client.sessions
        w.client.streams } := by
  have hstep : w.client.step (.handler c .test) = some (w.client.moved c { x with pc := .openQuicSession 0 false }
      w.client.quicSession w.client.sessions w.client.streams) := by
    simp only [Client.step, hc, hx, Client.handleTCPConn, hpc, if_neg hno]
    rfl
  refine .one rfl rfl ?_
  simp only [step, clientStep, hstep, Option.map_some]
  exact congrArg some (after_opening (moved_handlers_self _ _ _ _ _ _) hc rfl)

/-- The test, when there is a session to try and `MultiStream` is on. -/
theorem leads_test_try {c : ConnId} {x : Client.Handler} (hc : w.client.crashed = false) (hx : w.client.handlers c = some x)
    (hpc : x.pc = .entry) (hmulti : w.client.cfg.multiStream = true) (hq : w.client.quicSession ≠ none) :
    Leads w [.client (.handler c .test)] { w with
      client := w.client.moved c { x with pc := .openStream } w.client.quicSession w.client.sessions w.client.streams } := by
  have hstep : w.client.step (.handler c .test) = some (w.client.moved c { x with pc := .openStream }
      w.client.quicSession w.client.sessions w.client.streams) := by
    simp only [Client.step, hc, hx, Client.handleTCPConn, hpc, if_pos (And.intro hmulti hq)]
    rfl
  refine .one rfl rfl ?_
  simp only [step, clientStep, hstep, Option.map_some]
  exact congrArg some (after_opening (moved_handlers_self _ _ _ _ _ _) hc rfl)

/-- The second of two moves of a handler is what remains. -/
theorem moved_moved (m : Client) (c : ConnId) (x x' : Client.Handler) (q q' : Option SessionId) (k k' n n' : Nat) :
    (m.moved c x q k n).moved c x' q' k' n' = m.moved c x' q' k' n' := by
  simp only [Client.moved, Client.set, Function.update_idem]

/-- A handler that stays as it is makes an empty move. -/
theorem moved_self {m : Client} {c : ConnId} {x : Client.Handler} (hx : m.handlers c = some x) :
    m.moved c x m.quicSession m.sessions m.streams = m := by
  have hself : Function.update m.handlers c (some x) = m.handlers := by rw [← hx, Function.update_eq_self]
  simp only [Client.moved, Client.set, hself]

/-- A session has room for one more stream if it has had less than it may have. -/
theorem permits_openStream {c : ConnId} {x : Client.Handler} {s : SessionId} (hx : w.client.handlers c = some x)
    (hpc : x.pc = .openingStream s) (hroom : w.openedOn s < maxIncomingStreams) :
    w.permits (.client (.handler c (.openStream true))) = true := by
  simp [permits, hx, hpc, hroom]

theorem permits_openStreamSync {c : ConnId} {x : Client.Handler} {s : SessionId} (hx : w.client.handlers c = some x)
    (hpc : x.pc = .openingStreamSync s) (hroom : w.openedOn s < maxIncomingStreams) :
    w.permits (.client (.handler c (.openStreamSync true))) = true := by
  simp [permits, hx, hpc, hroom]

theorem openedOn_of_new {s : SessionId} (h : ∀ n, n < w.client.streams → (w.channels n).session ≠ s) : w.openedOn s = 0 := by
  simp only [openedOn, List.countP_eq_zero, List.mem_range, beq_iff_eq]
  exact h

/-- The server once it has accepted a session that was dialled, and started its loop. -/
def accepting (s : Server) (p : SessionId) : Server :=
  { s with quicSession := some p, accepted := Function.update s.accepted p true, loops := s.loops ++ [⟨p, true⟩] }

/-- The server accepts the session that was dialled last. -/
theorem leads_acceptSession {p : SessionId} (hp : p < w.client.sessions) (hlistener : w.server.listener = .accept)
    (hno : w.server.accepted p = false) :
    Leads w [.server (.acceptSession (some p)), .server .goListenQuicConn] { w with server := accepting w.server p } := by
  have hsession : w.step (.server (.acceptSession (some p))) = some { w with
      server := { w.server with
        quicSession := some p, accepted := Function.update w.server.accepted p true, listener := .start } } := by
    simp [step, serverStep, hp, Server.step, hlistener, Server.listenQuicSession, hno]
  refine (Leads.one rfl rfl hsession).trans (.one rfl rfl ?_)
  simp [step, serverStep, Server.step, accepting, hlistener]

/-- A handler dials a session, and opens its stream on it. -/
theorem leads_dial (hready : w.sessionsOf.Ready) (hnew : ∀ n, n < w.client.streams → (w.channels n).session ≠ w.client.sessions)
    (hlive : w.client.failed w.client.sessions = false) (hretries : 0 < w.client.cfg.connectionRetries) {c : ConnId}
    {x : Client.Handler} (hc : w.client.crashed = false) (hx : w.client.handlers c = some x) (hpc : x.pc = .entry)
    (hno : ¬(w.client.cfg.multiStream = true ∧ w.client.quicSession ≠ none)) :
    ∃ bs x', x'.header = x.header ∧ x'.pc = .relay w.client.streams .header ∧ Leads w bs { w with
      client := w.client.moved c x' (some w.client.sessions) (w.client.sessions + 1) (w.client.streams + 1)
      server := accepting w.server w.client.sessions
      channels := Function.update w.channels w.client.streams (.fresh w.client.sessions) } := by
  have htest := leads_test_dial hc hx hpc hno
  have hdial := htest.trans
    (leads_opening hc (moved_handlers_self _ _ _ _ _ _) (.dialled 0 false rfl hretries) (by simp) rfl rfl)
  have haccept := hdial.trans
    (leads_acceptSession (Nat.lt_succ_self w.client.sessions) hready.listener (hready.undialled _ (Nat.le_refl _)))
  have hstore := haccept.trans (leads_opening hc (moved_handlers_self _ _ _ _ _ _) (.stored _ false rfl) (by simp) rfl rfl)
  have hload := hstore.trans (leads_opening hc (moved_handlers_self _ _ _ _ _ _) (.loadSync _ rfl rfl) (by simp) rfl rfl)
  simp only [moved_moved, moved_quicSession, moved_sessions, moved_streams] at hload
  have hroom : ∀ v : World, v.client.streams = w.client.streams → v.channels = w.channels →
      v.openedOn w.client.sessions < maxIncomingStreams := by
    intro v hstreams hchannels
    rw [openedOn_of_new (by rw [hstreams, hchannels]; exact hnew)]
    decide
  have hopen := hload.trans
    (leads_opened hc (moved_handlers_self _ _ _ _ _ _) (.openedSync _ rfl hlive) (by simp) (by simp) rfl rfl
    (permits_openStreamSync (moved_handlers_self _ _ _ _ _ _) rfl (hroom _ rfl rfl)))
  simp only [moved_moved, moved_quicSession, moved_sessions, moved_streams] at hopen
  exact ⟨_, { x with
      pc := .relay w.client.streams .header, dialled := some w.client.sessions, session := some w.client.sessions },
    rfl, rfl, hopen⟩

/-- A handler opens its stream on the session that it finds in `quicSession`. -/
theorem leads_find {c : ConnId} {x : Client.Handler} {s : SessionId} (hc : w.client.crashed = false)
    (hx : w.client.handlers c = some x) (hpc : x.pc = .entry) (hmulti : w.client.cfg.multiStream = true)
    (hq : w.client.quicSession = some s) (hlive : w.client.failed s = false) (hroom : w.client.streams < maxIncomingStreams) :
    ∃ bs x', x'.header = x.header ∧ x'.pc = .relay w.client.streams .header ∧ Leads w bs { w with
      client := w.client.moved c x' w.client.quicSession w.client.sessions (w.client.streams + 1)
      channels := Function.update w.channels w.client.streams (.fresh s) } := by
  have htest := leads_test_try hc hx hpc hmulti (by rw [hq]; simp)
  have hload := htest.trans (leads_opening hc (moved_handlers_self _ _ _ _ _ _) (.load s rfl hq) (by simp) rfl rfl)
  simp only [moved_moved, moved_quicSession, moved_sessions, moved_streams] at hload
  have hopen := hload.trans (leads_opened hc (moved_handlers_self _ _ _ _ _ _) (.opened s rfl hlive) (by simp) (by simp) rfl rfl
    (permits_openStream (moved_handlers_self _ _ _ _ _ _) rfl (Nat.lt_of_le_of_lt (openedOn_le _ s) hroom)))
  simp only [moved_moved, moved_quicSession, moved_sessions, moved_streams] at hopen
  exact ⟨_, { x with pc := .relay w.client.streams .header, session := some s }, rfl, rfl, hopen⟩

/-- A handler dials in vain, as often as it may. -/
theorem leads_retries {k i : Nat} {failed : Bool} {c : ConnId} {x : Client.Handler} (hc : w.client.crashed = false)
    (hx : w.client.handlers c = some x) (hpc : x.pc = .openQuicSession i failed)
    (hk : ((i + k : Nat) : Int) ≤ w.client.cfg.connectionRetries) :
    Leads w (List.replicate k (.client (.handler c (.dialAddr false)))) { w with
      client := w.client.moved c { x with pc := .openQuicSession (i + k) (failed || decide (0 < k)) } w.client.quicSession
        w.client.sessions w.client.streams } := by
  induction k generalizing w x i failed with
  | zero =>
    have hself : w.client.moved c x w.client.quicSession w.client.sessions w.client.streams = w.client := moved_self hx
    have hsame : ({ x with pc := .openQuicSession (i + 0) (failed || decide (0 < 0)) } : Client.Handler) = x := by
      rw [Nat.add_zero, decide_eq_false (Nat.lt_irrefl 0), Bool.or_false, ← hpc]
    rw [hsame, hself]
    exact .nil
  | succ k ih =>
    have hretry := leads_opening hc hx (.retry i failed hpc (by omega)) (by simp) rfl rfl
    have hsum : i + 1 + k = i + (k + 1) := by omega
    have hrest := hretry.trans (ih hc (moved_handlers_self _ _ _ _ _ _) rfl (by rwa [hsum]))
    simpa only [moved_moved, moved_quicSession, moved_sessions, moved_streams, hsum, Bool.true_or, Nat.zero_lt_succ, decide_true,
      Bool.or_true, List.replicate_succ, List.singleton_append] using hrest

/-- A handler gives up, after as many attempts as it may make. -/
theorem leads_giveUp (hretries : 0 < w.client.cfg.connectionRetries) {c : ConnId} {x : Client.Handler}
    (hc : w.client.crashed = false) (hx : w.client.handlers c = some x) (hpc : x.pc = .entry)
    (hmulti : w.client.cfg.multiStream = false) :
    ∃ bs x', x'.header = x.header ∧ x'.pc = .returned ∧ Leads w bs { w with
      client := w.client.moved c x' none w.client.sessions w.client.streams
      apps := Function.update w.apps c (w.apps c).close } := by
  obtain ⟨k, hk⟩ := Int.eq_ofNat_of_zero_le hretries.le
  have hpos : decide (0 < k) = true := decide_eq_true (by omega)
  have htest := leads_test_dial hc hx hpc (by simp [hmulti])
  have htries := htest.trans (leads_retries (k := k) hc (moved_handlers_self _ _ _ _ _ _) rfl (by
    rw [Nat.zero_add]
    exact hk.ge))
  have hend : ¬(((0 + k : Nat) : Int) < w.client.cfg.connectionRetries) := by rw [Nat.zero_add, hk]; exact lt_irrefl _
  have hexhausted := htries.trans (leads_opening hc (moved_handlers_self _ _ _ _ _ _) (.exhausted _ _ rfl hend) (by simp) rfl rfl)
  have hreturn := hexhausted.trans
    (leads_returned hc (moved_handlers_self _ _ _ _ _ _) (.stored none true (by rw [hpos]; rfl)) (by simp) (by simp) rfl rfl)
  simp only [moved_moved, moved_sessions, moved_streams] at hreturn
  exact ⟨_, { x with pc := .returned }, rfl, rfl, hreturn⟩

/-- The server once it has accepted a stream on a session. -/
def acceptingStream (s : Server) (n : StreamId) (p : SessionId) : Server :=
  { s with streams := Function.update s.streams n (some (.start p)), started := s.started ++ [n] }

/-- The server accepts a stream when it is its turn on its session. -/
theorem leads_acceptStream (hready : w.sessionsOf.Ready) {n : StreamId} (hn : n < w.client.streams)
    (hsession : (w.channels n).session < w.client.sessions) (hnone : w.server.streams n = none)
    (hturn : ∀ m < n, (w.channels m).session = (w.channels n).session → w.server.streams m ≠ none) :
    ∃ bs, Leads w bs { w with server := acceptingStream w.server n (w.channels n).session } := by
  obtain ⟨i, hloop⟩ := hready.loops _ hsession
  replace hloop : w.server.loops[i]? = some ⟨(w.channels n).session, true⟩ := hloop
  refine ⟨[.server (.acceptStream i (some n))], .one rfl ?_ ?_⟩
  · simp only [permits, List.all_eq_true, List.mem_range, Bool.or_eq_true, bne_iff_ne, ne_eq]
    intro m hm
    by_cases hs : (w.channels m).session = (w.channels n).session
    · exact Or.inr (Option.isSome_iff_ne_none.mpr (hturn m hm hs))
    · exact Or.inl hs
  · simp [step, serverStep, hn, hloop, Server.step, Server.listenQuicConn, hnone, acceptingStream]

/-- A stream that has just been accepted is handled from its start. -/
theorem serving_accepted {n : StreamId} {s : Server} {p : SessionId} (hnone : w.server.streams n = none)
    (hs : s.streams = Function.update w.server.streams n (some (.start p))) (m : StreamId) :
    World.serving { w with server := s } m = w.serving m := by
  by_cases hm : m = n
  · subst hm
    simp [serving, hs, hnone, Server.Stream.start]
  · simp only [serving, hs, Function.update_of_ne hm]

/-- A session is dialled and accepted. -/
theorem ready_accepting (h : w.sessionsOf.Ready) {c : ConnId} {x : Client.Handler} {q : Option SessionId} {n : Nat}
    (channels : StreamId → Channel) :
    (World.sessionsOf ⟨w.client.moved c x q (w.client.sessions + 1) n, accepting w.server w.client.sessions, w.apps,
      channels⟩).Ready where
  listener := h.listener
  loops p hp := by
    rcases Nat.lt_succ_iff_lt_or_eq.mp hp with hlt | rfl
    · obtain ⟨i, hi⟩ := h.loops p hlt
      have hlen : i < w.server.loops.length := (List.getElem?_eq_some_iff.mp hi).1
      exact ⟨i, by simpa only [sessionsOf, accepting, List.getElem?_append_left hlen] using hi⟩
    · exact ⟨w.server.loops.length, by simp [sessionsOf, accepting]⟩
  undialled p hp := by
    have hne : p ≠ w.client.sessions := Nat.ne_of_gt hp
    simpa [sessionsOf, accepting, Function.update_of_ne hne] using h.undialled p (Nat.le_of_succ_le hp)

/-- The second server has accepted every stream that the first one has, and the next one of it, too. -/
theorem accepted_more {s s' s₁ s₁' : Server} {n : StreamId} {x : Server.Stream}
    (h : ∀ m, s.streams m ≠ none → s'.streams m ≠ none)
    (hs : s₁.streams = Function.update s.streams n (some x))
    (hs' : ∀ m, m = n ∨ s'.streams m ≠ none → s₁'.streams m ≠ none) (m : StreamId) (hm : s₁.streams m ≠ none) :
    s₁'.streams m ≠ none := by
  by_cases he : m = n
  · exact hs' m (Or.inl he)
  · rw [hs, Function.update_of_ne he] at hm
    exact hs' m (Or.inr (h m hm))

/-! ## What keeps them alike -/

/-- A handler moves and is still getting its stream, its counterpart waits. -/
theorem alike_waited (h : Alike w w') {c : ConnId} {x x' : Client.Handler} {q : Option SessionId} {k : Nat}
    (hx' : w'.client.handlers c = some x') (hheader : x'.header = x.header) (hpc' : x'.pc = .entry) (ho : x.pc.opening = true) :
    Alike { w with client := w.client.moved c x q k w.client.streams } w' := by
  have hself : Function.update w'.client.handlers c (some x') = w'.client.handlers := by rw [← hx', Function.update_eq_self]
  have hupdate := handlers_update (R := fun y y' => y'.header = y.header ∧ Counterpart y.pc y'.pc) (c := c) h.handlers
    ⟨hheader, hpc' ▸ counterpart_entry ho⟩
  rw [hself] at hupdate
  exact { h with handlers := hupdate }

/-- A handler and its counterpart return without a stream. -/
theorem alike_returned (h : Alike w w') {c : ConnId} {x x' : Client.Handler} {q q' : Option SessionId} {k k' : Nat}
    (hheader : x'.header = x.header) (hpc : x.pc = .returned) (hpc' : x'.pc = .returned) :
    Alike { w with client := w.client.moved c x q k w.client.streams, apps := Function.update w.apps c (w.apps c).close }
      { w' with
        client := w'.client.moved c x' q' k' w'.client.streams
        apps := Function.update w'.apps c (w'.apps c).close } := by
  have hcounter : Counterpart x.pc x'.pc := by
    rw [hpc, hpc']
    exact counterpart_same rfl
  exact { h with
    handlers := handlers_update h.handlers ⟨hheader, hcounter⟩
    apps := by simp only [h.apps] }

/-- A handler and its counterpart open the next stream, each on a session that is up. -/
theorem alike_opened (h : Alike w w') {c : ConnId} {x x' : Client.Handler} {q q' : Option SessionId} {k k' : Nat}
    {p p' : SessionId}
    {s' : Server} (hheader : x'.header = x.header) (hpc : x.pc = .relay w.client.streams .header)
    (hpc' : x'.pc = .relay w'.client.streams .header) (hfailed : w'.client.failed p' = w.client.failed p)
    (hs' : s'.streams = w'.server.streams) :
    Alike
      { w with
        client := w.client.moved c x q k (w.client.streams + 1)
        channels := Function.update w.channels w.client.streams (.fresh p) }
      { w' with
        client := w'.client.moved c x' q' k' (w'.client.streams + 1)
        server := s'
        channels := Function.update w'.channels w'.client.streams (.fresh p') } where
  running := h.running
  streams := congrArg (· + 1) h.streams
  handlers := by
    have hcounter : Counterpart x.pc x'.pc := by
      rw [hpc, hpc', h.streams]
      exact counterpart_same rfl
    exact handlers_update h.handlers ⟨hheader, hcounter⟩
  apps := h.apps
  channels n := by
    by_cases hn : n = w.client.streams
    · subst hn
      simp only [h.streams, Function.update_self, Channel.fresh]
    · simpa only [h.streams, Function.update_of_ne hn] using h.channels n
  lost n hn := by
    by_cases he : n = w.client.streams
    · subst he
      simp only [lost, h.streams, Function.update_self, Channel.fresh]
      exact hfailed
    · simp only [lost, h.streams, Function.update_of_ne he]
      exact h.lost n (Nat.lt_of_le_of_ne (Nat.le_of_lt_succ hn) he)
  serving n := by simpa only [serving, hs'] using h.serving n
  accepted n hn := by
    rw [hs']
    exact h.accepted n hn

/-- Sessions fail in both worlds, and the streams are lost alike. -/
theorem alike_failed (h : Alike w w') {f f' : SessionId → Bool}
    (hlost : ∀ n, n < w.client.streams → f' (w'.channels n).session = f (w.channels n).session) :
    Alike { w with client := { w.client with failed := f } } { w' with client := { w'.client with failed := f' } } :=
  { h with lost := hlost }

/-- The servers accept sessions and streams. -/
theorem alike_serve (h : Alike w w') {s s' : Server} (hs : ∀ n, World.serving { w with server := s } n = w.serving n)
    (hs' : ∀ n, World.serving { w' with server := s' } n = w'.serving n)
    (haccepted : ∀ n, s.streams n ≠ none → s'.streams n ≠ none) :
    Alike { w with server := s } { w' with server := s' } :=
  { h with
    serving := fun n => (hs' n).trans ((h.serving n).trans (hs n).symm)
    accepted := haccepted }

end AlikeAux

end World

end Qpep
