import Qpep.Lemmas.Sessions
import Qpep.Lemmas.Untouched
import Qpep.Lemmas.WorldWork
import Qpep.Theorems.Refinement

/-!
# The whole proxy while nothing fails

The invariants of a run in which no session, stream or dial fails and no endpoint finishes: every handler of the client gets
on (`Client.Healthy`), every session dialled is accepted sooner or later (`Server.Healthy`), and every connection is a
`Link` in which nothing has failed (`Healthy.links`). When such a proxy can make no step, neither can any of its connections
(`quiet_link`).
-/

namespace Qpep

open Io Machine

/-! ## The client -/

namespace Client

open ClientAux

/-- The call succeeds. -/
def HandlerAct.succeeds : HandlerAct → Bool
  | .openStream ok | .dialAddr ok | .openStreamSync ok => ok
  | _ => true

/-- The handler has not met an error. -/
def Pc.Unhurt : Pc → Prop
  | .openQuicSession i failed => i = 0 ∧ failed = false
  | .assign session failed => session ≠ none ∧ failed = false
  | .returned => False
  | _ => True

/-- A client in which nothing has failed: every handler is unhurt, and finds a session where it looks for one; every stream
that was opened is the stream of a handler. -/
structure Healthy (m : Client) : Prop where
  retries : 0 < m.cfg.connectionRetries
  running : m.crashed = false
  live : ∀ s, m.failed s = false
  unhurt : ∀ c h, m.handlers c = some h → h.pc.Unhurt
  stored : ∀ c h, m.handlers c = some h → h.pc.Calls → m.quicSession ≠ none
  known : Known m
  carried : ∀ n, n < m.streams → ∃ c h r, m.handlers c = some h ∧ h.pc = .relay n r

theorem healthy_init {cfg : ClientConfig} (hr : 0 < cfg.connectionRetries) : Healthy (init cfg) :=
  ⟨hr, rfl, fun _ => rfl, fun _ _ h => (by cases h), fun _ _ h => (by cases h), known_init cfg,
    fun _ h => absurd h (Nat.not_lt_zero _)⟩

/-- A move that succeeds leaves the handler unhurt, a session in `quicSession`, and one there for a handler that looks for
it. -/
theorem unhurt_of_move {m : Client} {h h' : Handler} {a : HandlerAct} {q : Option SessionId} {n k : Nat}
    (hr : 0 < m.cfg.connectionRetries) (hm : Move m h a h' q n k) (ha : a.succeeds = true) (hu : h.pc.Unhurt) :
    h'.pc.Unhurt ∧ (m.quicSession ≠ none → q ≠ none) ∧ (h'.pc.Calls → q ≠ none) := by
  have hno : ∀ {pc : Pc}, pc ≠ .openStream → pc ≠ .openStreamSync → ¬pc.Calls := fun h₁ h₂ hc => hc.elim h₁ h₂
  cases hm with
  | tryOpen hpc hmulti hq => exact ⟨trivial, id, fun _ => hq⟩
  | noOpen hpc => exact ⟨⟨rfl, rfl⟩, id, fun hc => absurd hc (hno (by simp) (by simp))⟩
  | refused s hpc => cases ha
  | dialled i failed hpc hi => exact ⟨⟨by simp, rfl⟩, id, fun hc => absurd hc (hno (by simp) (by simp))⟩
  | retry i failed hpc hi => cases ha
  | exhausted i failed hpc hi =>
    rw [hpc] at hu
    obtain ⟨rfl, -⟩ := hu
    exact absurd hr hi
  | stored session failed hpc =>
    rw [hpc] at hu
    obtain ⟨hsession, rfl⟩ := hu
    exact ⟨trivial, fun _ => hsession, fun _ => hsession⟩
  | refusedSync s hpc => cases ha
  | load s hpc hq | opened s hpc hlive | loadSync s hpc hq | openedSync s hpc hlive | relayed st r r' io hpc hstep =>
    exact ⟨trivial, id, fun hc => absurd hc (hno (by simp) (by simp))⟩

/-- A handler that has a stream keeps it. -/
theorem relay_of_move {m : Client} {h h' : Handler} {a : HandlerAct} {q : Option SessionId} {i k : Nat} {n : StreamId}
    {r : Relaying} (hm : Move m h a h' q i k) (hpc : h.pc = .relay n r) : ∃ r', h' = { h with pc := .relay n r' } := by
  cases hm with
  | relayed n' r₀ r' io hpc' hstep =>
    cases hpc.symm.trans hpc'
    exact ⟨r', rfl⟩
  | tryOpen hpc' | noOpen hpc' | load s hpc' | opened s hpc' | refused s hpc' | dialled j failed hpc' | retry j failed hpc'
  | exhausted j failed hpc' | stored session failed hpc' | loadSync s hpc' | openedSync s hpc' | refusedSync s hpc' =>
    cases hpc.symm.trans hpc'

/-- A stream that a move opens is the stream of the handler. -/
theorem carried_of_move {m : Client} {h h' : Handler} {a : HandlerAct} {q : Option SessionId} {i k : Nat} {n : StreamId}
    (hm : Move m h a h' q i k) (hn : n < k) : n < m.streams ∨ ∃ r, h'.pc = .relay n r := by
  cases hm with
  | opened s | openedSync s =>
    rcases Nat.lt_succ_iff_lt_or_eq.mp hn with hlt | rfl
    · exact Or.inl hlt
    · exact Or.inr ⟨.header, rfl⟩
  | _ => exact Or.inl hn

/-- A step of the client that neither is a failure nor meets one. -/
def Act.goesOn : Act → Bool
  | .accept _ _ => true
  | .sessionFail _ => false
  | .handler _ a => a.succeeds

/-- Every step that goes on keeps the client healthy. -/
theorem healthy_step {m m' : Client} {a : Act} (hi : Healthy m) (ha : a.goesOn = true) (hs : m.step a = some m') :
    Healthy m' := by
  have hknown := known_step hi.known hs
  obtain ⟨-, ⟨c, header, rfl, hnone, rfl⟩ | ⟨s, rfl, -, rfl⟩ | ⟨c, ha', h, h', q, n, k, rfl, hh, hm, rfl⟩ |
    ⟨c, ha', h, rfl, hh, hq, hpc, rfl⟩⟩ := step_cases hs
  · refine ⟨hi.retries, hi.running, hi.live, ?_, ?_, hknown, ?_⟩
    · exact forall_set (Q := fun _ x => x.pc.Unhurt) trivial fun c' x _ hx => hi.unhurt c' x hx
    · refine forall_set (Q := fun _ x => x.pc.Calls → m.quicSession ≠ none) ?_ fun c' x _ hx => hi.stored c' x hx
      intro hc
      rcases hc with hc | hc <;> cases hc
    · intro n hn
      obtain ⟨c', x, r, hx, hpc⟩ := hi.carried n hn
      have hne : c' ≠ c := by
        rintro rfl
        cases hnone.symm.trans hx
      exact ⟨c', x, r, by simp [hne, hx], hpc⟩
  · cases ha
  · obtain ⟨hunhurt, hkeep, hcalls⟩ := unhurt_of_move hi.retries hm ha (hi.unhurt c h hh)
    refine ⟨hi.retries, hi.running, hi.live, ?_, ?_, hknown, ?_⟩
    · exact forall_moved (Q := fun _ x => x.pc.Unhurt) hunhurt fun c' x _ hx => hi.unhurt c' x hx
    · exact forall_moved (Q := fun _ x => x.pc.Calls → q ≠ none) hcalls fun c' x _ hx hc => hkeep (hi.stored c' x hx hc)
    · intro st hst
      rcases carried_of_move hm hst with hlt | ⟨r, hpc⟩
      · obtain ⟨c', x, r, hx, hpc⟩ := hi.carried st hlt
        by_cases hc : c' = c
        · subst hc
          cases hh.symm.trans hx
          obtain ⟨r', rfl⟩ := relay_of_move hm hpc
          exact ⟨c', _, r', moved_handlers_self m c' _ q n k, rfl⟩
        · exact ⟨c', x, r, by simp [hc, hx], hpc⟩
      · exact ⟨c, h', r, by simp, hpc⟩
  · exact absurd hq (hi.stored c h hh hpc)

/-- A healthy handler that is getting a stream can go on. -/
theorem enabled_of_opening {m : Client} (hi : Healthy m) {c : ConnId} {h : Handler} (hh : m.handlers c = some h)
    (ho : h.pc.opening = true) : ∃ a, a.succeeds = true ∧ (∀ io, a ≠ .relay io) ∧ (m.step (.handler c a)).isSome = true := by
  have hunhurt := hi.unhurt c h hh
  have hstored := hi.stored c h hh
  have hmove : ∀ {a h' q n k}, Move m h a h' q n k → a ≠ .test → (m.step (.handler c a)).isSome = true := fun hm ha =>
    Option.isSome_iff_exists.mpr ⟨_, step_of_move hi.running hh hm ha⟩
  cases hpc : h.pc with
  | entry =>
    refine ⟨.test, rfl, by simp, ?_⟩
    by_cases hg : m.cfg.multiStream ∧ m.quicSession ≠ none <;> simp [step, hi.running, hh, handleTCPConn, hpc, hg]
  | openStream =>
    obtain ⟨s, hq⟩ := Option.ne_none_iff_exists'.mp (hstored (Or.inl hpc))
    exact ⟨.loadOpenStream, rfl, by simp, hmove (.load s hpc hq) (by simp)⟩
  | openingStream s => exact ⟨.openStream true, rfl, by simp, hmove (.opened s hpc (hi.live s)) (by simp)⟩
  | openQuicSession i failed =>
    rw [hpc] at hunhurt
    obtain ⟨rfl, rfl⟩ := hunhurt
    exact ⟨.dialAddr true, rfl, by simp, hmove (.dialled 0 false hpc hi.retries) (by simp)⟩
  | assign session failed => exact ⟨.store, rfl, by simp, hmove (.stored session failed hpc) (by simp)⟩
  | openStreamSync =>
    obtain ⟨s, hq⟩ := Option.ne_none_iff_exists'.mp (hstored (Or.inr hpc))
    exact ⟨.loadOpenStreamSync, rfl, by simp, hmove (.loadSync s hpc hq) (by simp)⟩
  | openingStreamSync s => exact ⟨.openStreamSync true, rfl, by simp, hmove (.openedSync s hpc (hi.live s)) (by simp)⟩
  | relay n r =>
    rw [hpc] at ho
    cases ho
  | returned =>
    rw [hpc] at ho
    cases ho

end Client

/-! ## The server -/

namespace Server

open ServerAux

/-- A server whose listener and accept loops all go on: every session that was accepted has a loop, or is about to get one. -/
structure Healthy (s : Server) : Prop where
  listening : s.listener = .accept ∨ s.listener = .start ∧ s.quicSession ≠ none
  accepted : ∀ n, s.accepted n = true → (∃ l ∈ s.loops, l.session = n) ∨ s.listener = .start ∧ s.quicSession = some n
  accepting : ∀ l ∈ s.loops, l.accepting = true

theorem healthy_init : Healthy init :=
  ⟨Or.inl rfl, fun _ h => (by cases h), fun _ h => (by cases h)⟩

/-- A step of the server that is no error of an accept. -/
def Act.goesOn : Act → Bool
  | .acceptSession session => session.isSome
  | .acceptStream _ stream => stream.isSome
  | _ => true

/-- Every step that goes on keeps the server healthy. -/
theorem healthy_step {s s' : Server} {a : Act} (hi : Healthy s) (ha : a.goesOn = true) (hs : s.step a = some s') :
    Healthy s' := by
  cases move_of_step hs with
  | noSession => cases ha
  | session n hl hn =>
    refine ⟨Or.inr ⟨rfl, by simp⟩, ?_, hi.accepting⟩
    intro m hm
    by_cases hmn : m = n
    · exact Or.inr ⟨rfl, by rw [hmn]⟩
    · have hm' : s.accepted m = true := by simpa [hmn] using hm
      rcases hi.accepted m hm' with h | ⟨h, -⟩
      · exact Or.inl h
      · cases hl.symm.trans h
  | goListenQuicConn n hl hq =>
    refine ⟨Or.inl rfl, ?_, ?_⟩
    · intro m hm
      left
      rcases hi.accepted m hm with ⟨l, hmem, hsession⟩ | ⟨-, hq'⟩
      · exact ⟨l, List.mem_append_left _ hmem, hsession⟩
      · exact ⟨⟨n, true⟩, List.mem_append_right _ (List.mem_singleton_self _), Option.some.inj (hq.symm.trans hq')⟩
    · intro l hl'
      rcases List.mem_append.mp hl' with h | h
      · exact hi.accepting l h
      · rw [List.mem_singleton.mp h]
  | noStream => cases ha
  | stream => exact ⟨hi.listening, hi.accepted, hi.accepting⟩
  | handler => exact ⟨hi.listening, hi.accepted, hi.accepting⟩

/-- A healthy server that can neither accept the session nor start its loop has a loop that accepts its streams. -/
theorem loop_of_quiet {s : Server} (hi : Healthy s) {n : SessionId} (haccept : s.step (.acceptSession (some n)) = none)
    (hstart : s.step .goListenQuicConn = none) :
    ∃ (i : Nat) (l : AcceptLoop), s.loops[i]? = some l ∧ l.session = n ∧ l.accepting = true := by
  have hlistener : s.listener = .accept := by
    rcases hi.listening with h | ⟨h, hq⟩
    · exact h
    · obtain ⟨m, hm⟩ := Option.ne_none_iff_exists'.mp hq
      simp [step, h, hm] at hstart
  have haccepted : s.accepted n = true := by
    simp only [step, hlistener, listenQuicSession] at haccept
    split at haccept
    · assumption
    · cases haccept
  rcases hi.accepted n haccepted with ⟨l, hmem, hsession⟩ | ⟨h, -⟩
  · obtain ⟨i, hi'⟩ := List.mem_iff_getElem?.mp hmem
    exact ⟨i, l, hi', hsession, hi.accepting l hmem⟩
  · cases hlistener.symm.trans h

end Server

/-! ## The calls on a connection -/

/-- A call of a goroutine leaves its connection open. -/
theorem Port.loop_open {p p' : Port} {down : Bool} {t : CopyTask} {l : Loop} {ev : LoopEv} {io : LoopIo}
    (h : p.loop down t l ev = some (p', io)) (ho : p.sock.Open) : p'.sock.Open := by
  obtain ⟨-, hfin, hgone, hbroken⟩ := Port.loop_endpoint h
  exact ⟨hfin.trans ho.fin, hgone.trans ho.gone, hbroken.trans ho.broken⟩

/-- An endpoint whose connection is still open has neither finished nor failed. -/
theorem SockEnv.keepsOpen_of_open {s s' : Sock} {e : SockEnv} (h : s.env e = some s') (ho : s'.Open) : e.keepsOpen = true := by
  cases e with
  | finish =>
    simp only [Sock.env, Option.ite_none_right_eq_some, Option.some.injEq] at h
    obtain ⟨-, rfl⟩ := h
    cases ho.fin
  | leave =>
    simp only [Sock.env, Option.ite_none_right_eq_some, Option.some.injEq] at h
    obtain ⟨-, rfl⟩ := h
    cases ho.gone
  | fault =>
    simp only [Sock.env, Option.ite_none_right_eq_some, Option.some.injEq] at h
    obtain ⟨-, rfl⟩ := h
    cases ho.broken
  | _ => rfl

namespace Link

open LinkAux

/-- A step after which nothing has failed was undisturbed. -/
theorem undisturbed_of_step {l l' : Link} {b : Act} (hs : l.step b = some l') (hfills : l.headerFills b = true)
    (hsession : l'.sessionDown = false) (hclient : l'.client ≠ .dropped) (hopen : ∀ s, (l'.sock s).Open)
    (hdial : ∀ q, l.server = .dial q → l'.server ≠ .returned none) : l.undisturbed b = true := by
  simp only [undisturbed, hfills, Bool.true_and]
  cases move_of_step hs with
  | app e s he => exact SockEnv.keepsOpen_of_open he (hopen .client)
  | dest e s hr he => exact SockEnv.keepsOpen_of_open he (hopen .server)
  | sessionFail => cases hsession
  | drop => exact absurd rfl hclient
  | notDialled q hq => exact absurd rfl (hdial q hq)
  | _ => rfl

end Link

namespace World

open WorldAux Client.ClientAux Server.ServerAux

/-! ## Steps in which nothing fails -/

/-- Nothing fails and neither endpoint finishes. -/
def Act.undisturbed : Act → Bool
  | .client (.accept _ header) => decide header.Valid
  | .client b => b.goesOn
  | .server b => b.goesOn
  | .app _ e | .dest _ e => e.keepsOpen
  | .dialTimeout _ ok => ok
  | _ => true

/-- The step is one of the network's or of a handler's: nobody outside decides anything, and nothing fails. -/
def Act.moves : Act → Bool
  | .client (.handler _ a) => a.succeeds
  | .client _ => false
  | .server b => b.goesOn
  | .app _ e | .dest _ e => e.moves
  | .dialTimeout _ ok => ok
  | _ => true

/-- A Read of a header fills its buffer, if it returns a nil error. -/
def fillsHeader (w : World) : Act → Bool
  | .readHeader n k none =>
    match w.serving n with
    | .header (.read b _) => k == b
    | _ => true
  | _ => true

/-- Nothing fails, neither endpoint finishes, and a Read of a header fills its buffer. -/
def undisturbed (w : World) (a : Act) : Bool := a.undisturbed && w.fillsHeader a

/-- A step that nobody outside the proxy and the network decides on, and a Read of a header fills its buffer. -/
def relays (w : World) (a : Act) : Bool := a.moves && w.fillsHeader a

/-- No step is left that nobody outside decides on. -/
def AtRest (w : World) : Prop := Quiet step (fun a => a.moves = true) w

/-- No step is left that nobody outside decides on and that quic-go makes. -/
def Stuck (w : World) : Prop := ∀ a, w.relays a = true → w.permits a = true → w.step a = none

/-- The proxy while nothing has failed and no endpoint has finished. -/
structure Healthy (w : World) : Prop where
  owned : Owned w
  client : w.client.Healthy
  server : w.server.Healthy
  sessions : ∀ n, n < w.client.streams → (w.channels n).session < w.client.sessions
  apps : ∀ c, (w.apps c).Open
  dests : ∀ n, (w.channels n).dest.Open
  links : ∀ c l, w.view c = some l → Link.Untouched l

theorem undisturbed_of_moves {a : Act} (h : a.moves = true) : a.undisturbed = true := by
  cases a with
  | client b => cases b <;> first | exact h | cases h
  | app c e => exact SockEnv.keepsOpen_of_moves h
  | dest n e => exact SockEnv.keepsOpen_of_moves h
  | _ => exact h

theorem undisturbed_of_relays {w : World} {a : Act} (h : w.relays a = true) : w.undisturbed a = true := by
  simp only [relays, undisturbed, Bool.and_eq_true] at h ⊢
  exact ⟨undisturbed_of_moves h.1, h.2⟩

theorem headerFills_of_fillsHeader {w : World} {a : Act} (h : w.fillsHeader a = true) (c : ConnId) :
    w.headerFills c a = true := by
  unfold headerFills
  split
  · rename_i n k
    split
    · rename_i m _ b f _ hserving
      simp only [fillsHeader, hserving] at h
      simp [h]
    · rfl
  · rfl

namespace WorldAux

theorem healthy_init {cfg : ClientConfig} (hr : 0 < cfg.connectionRetries) : Healthy (World.init cfg) where
  owned := owned_init cfg
  client := Client.healthy_init hr
  server := Server.healthy_init
  sessions _ h := absurd h (Nat.not_lt_zero _)
  apps _ := ⟨rfl, rfl, rfl⟩
  dests _ := ⟨rfl, rfl, rfl⟩
  links _ _ h := by cases h

/-- A handler of a healthy client that has no stream makes a move, and what belongs to that is done around it. -/
theorem moved_of_clientStep {w w' : World} {c : ConnId} {a : Client.HandlerAct} (hi : w.client.Healthy)
    (hs : w.clientStep (.handler c a) = some w') :
    w.client.crashed = false ∧ ∃ h h' q i k, Client.Move w.client h a h' q i k ∧ (∀ io, a ≠ .relay io) ∧
      w' = w.after c (w.client.moved c h' q i k) := by
  obtain ⟨hc, h, hh, ⟨h', q, i, k, hm, hno, he⟩ | ⟨hq, hpc, -⟩⟩ := handlerStep_cases hs
  · exact ⟨hc, h, h', q, i, k, hm, hno, he⟩
  · exact absurd hq (hi.stored c h hh hpc)

/-- What an undisturbed step leaves: every TCP connection is open, and every stream has the session that it had, or one that
a handler has opened it on. -/
structure Kept (w w' : World) : Prop where
  apps : ∀ c, (w'.apps c).Open
  dests : ∀ n, (w'.channels n).dest.Open
  sessions : ∀ n, n < w'.client.streams → n < w.client.streams ∧ (w'.channels n).session = (w.channels n).session ∨
    ∃ c h, w'.client.handlers c = some h ∧ h.session = some (w'.channels n).session

/-- A step that opens no stream. -/
theorem kept_of_same {w w' : World} (hi : Healthy w) (hstreams : w'.client.streams = w.client.streams)
    (happs : ∀ c, (w'.apps c).Open) (hchannels : w'.channels = w.channels) : Kept w w' := by
  refine ⟨happs, hchannels ▸ hi.dests, ?_⟩
  intro n hn
  exact Or.inl ⟨hstreams ▸ hn, by rw [hchannels]⟩

/-- A step on one stream. -/
theorem kept_of_update {w w' : World} (hi : Healthy w) {n : StreamId} {ch : Channel}
    (hstreams : w'.client.streams = w.client.streams) (happs : ∀ c, (w'.apps c).Open)
    (hchannels : w'.channels = Function.update w.channels n ch) (hdest : ch.dest.Open)
    (hsession : ch.session = (w.channels n).session) : Kept w w' := by
  have hkeeps : ∀ m, (w'.channels m).dest.Open ∧ (w'.channels m).session = (w.channels m).session := by
    intro m
    by_cases hm : m = n
    · subst hm
      rw [hchannels, Function.update_self]
      exact ⟨hdest, hsession⟩
    · rw [hchannels, Function.update_of_ne hm]
      exact ⟨hi.dests m, rfl⟩
  exact ⟨happs, fun m => (hkeeps m).1, fun m hm => Or.inl ⟨hstreams ▸ hm, (hkeeps m).2⟩⟩

/-- The TCP connections after a step on one of them. -/
theorem open_update {w : World} (hi : Healthy w) {c : ConnId} {s : Sock} (hs : s.Open) (c' : ConnId) :
    (Function.update w.apps c s c').Open := by
  by_cases hc : c' = c
  · subst hc
    simpa using hs
  · simpa [hc] using hi.apps c'

/-- A call of a handler of the client. -/
theorem kept_clientCall {w w' : World} {c : ConnId} {n : StreamId} {io : Client.RelayIo} {app : Sock} {ch : Channel}
    {header : QpepHeader} {r : Client.Relaying} (hi : Healthy w) (hr : w.relaying c = some (header, n, r))
    (hs : w.clientCall c n io app ch = some w') (happ : app.Open) (hdest : ch.dest.Open)
    (hsession : ch.session = (w.channels n).session) : Kept w w' := by
  obtain ⟨_, _, -, -, -, -, rfl⟩ := clientCall_some hr hs
  exact kept_of_update hi rfl (open_update hi happ) rfl hdest hsession

/-- A call of a handler of the server. -/
theorem kept_serverCall {w w' : World} {n : StreamId} {io : Server.ServerIo} {ch : Channel} (hi : Healthy w)
    (hs : w.serverCall n io ch = some w') (hdest : ch.dest.Open) (hsession : ch.session = (w.channels n).session) :
    Kept w w' := by
  obtain ⟨-, -, -, hclient, happs, hch⟩ := serverCall_some hs
  exact kept_of_update hi (congrArg Client.streams hclient) (happs ▸ hi.apps) hch hdest hsession

/-- A step of a handler of the client that has no stream. -/
theorem kept_handler {w w' : World} {c : ConnId} {a : Client.HandlerAct} (hi : Healthy w)
    (hs : w.clientStep (.handler c a) = some w') : Kept w w' := by
  obtain ⟨hc, h, h', q, i, k, hm, hno, rfl⟩ := moved_of_clientStep hi.client hs
  have hh' := moved_handlers_self w.client c h' q i k
  rcases opened_of_move hm hno with ⟨rfl, hpc⟩ | ⟨rfl, s, hpc, hsession⟩
  · rcases after_cases (w := w) hh' hc with ⟨n, s, hpc', -⟩ | ⟨-, he⟩ | ⟨-, -, he⟩
    · exact absurd hpc' (hpc n _)
    · rw [he]
      exact kept_of_same hi rfl (open_update hi ⟨(hi.apps c).fin, (hi.apps c).gone, (hi.apps c).broken⟩) rfl
    · rw [he]
      exact kept_of_same hi rfl hi.apps rfl
  · rcases after_cases (w := w) hh' hc with ⟨n, s', hpc', hsession', he⟩ | ⟨hpc', -⟩ | ⟨hne, -⟩
    · cases hpc.symm.trans hpc'
      rw [he]
      refine ⟨hi.apps, ?_, ?_⟩
      · intro m
        by_cases hm : m = w.client.streams
        · subst hm
          simp only [Function.update_self]
          exact ⟨rfl, rfl, rfl⟩
        · simpa only [Function.update_of_ne hm] using hi.dests m
      · intro m hm
        rcases Nat.lt_succ_iff_lt_or_eq.mp hm with hlt | rfl
        · exact Or.inl ⟨hlt, by simp only [Function.update_of_ne (Nat.ne_of_lt hlt)]⟩
        · exact Or.inr ⟨c, h', hh', by simpa [Channel.fresh] using hsession'⟩
    · cases hpc.symm.trans hpc'
    · exact absurd hsession (hne _ s hpc)

theorem kept_step {w w' : World} {a : Act} (hi : Healthy w) (ha : a.undisturbed = true) (hs : w.step a = some w') :
    Kept w w' := by
  have hclosed : ∀ {s : Sock}, s.Open → s.close.Open := fun ho => ⟨ho.fin, ho.gone, ho.broken⟩
  cases a with
  | client b =>
    cases b with
    | accept c header =>
      obtain ⟨m, hm, rfl⟩ := Option.map_eq_some_iff.mp hs
      obtain ⟨-, -, rfl⟩ := accept_some hm
      exact kept_of_same hi rfl (open_update hi ⟨rfl, rfl, rfl⟩) rfl
    | sessionFail s => cases ha
    | handler c b => exact kept_handler hi hs
  | server b =>
    obtain ⟨-, -, s, -, rfl⟩ := server_of_serverStep hs
    exact kept_of_same hi rfl hi.apps rfl
  | app c e =>
    simp only [step, Option.ite_none_right_eq_some] at hs
    obtain ⟨s, he, rfl⟩ := Option.map_eq_some_iff.mp hs.2
    exact kept_of_same hi rfl (open_update hi (Sock.open_env (hi.apps c) ha he)) rfl
  | dest n e =>
    simp only [step] at hs
    split at hs
    case h_4 => cases hs
    all_goals
      obtain ⟨s, he, rfl⟩ := Option.map_eq_some_iff.mp hs
      exact kept_of_update hi rfl hi.apps rfl (Sock.open_env (hi.dests n) ha he) rfl
  | deliver n s k =>
    cases s <;> obtain ⟨h, -, rfl⟩ := Option.map_eq_some_iff.mp hs <;> exact kept_of_update hi rfl hi.apps rfl (hi.dests n) rfl
  | writeHeader c k ew =>
    simp only [step] at hs
    split at hs
    · rename_i header n r hr
      obtain ⟨h, -, hcall⟩ := Option.bind_eq_some_iff.mp hs
      exact kept_clientCall hi hr hcall (hi.apps c) (hi.dests n) rfl
    · cases hs
  | clientLoop c name ev =>
    simp only [step] at hs
    split at hs
    · rename_i header n r hr
      obtain ⟨⟨p, io⟩, hp, hcall⟩ := Option.bind_eq_some_iff.mp hs
      exact kept_clientCall hi hr hcall (Port.loop_open hp (hi.apps c)) (hi.dests n) rfl
    · cases hs
  | close c =>
    simp only [step] at hs
    split at hs
    · rename_i header n r hr
      exact kept_clientCall hi hr hs (hclosed (hi.apps c)) (hi.dests n) rfl
    · cases hs
  | readHeader n k er =>
    obtain ⟨⟨bs, h⟩, -, hcall⟩ := Option.bind_eq_some_iff.mp hs
    exact kept_serverCall hi hcall (hi.dests n) rfl
  | dialTimeout n ok =>
    simp only [step] at hs
    split at hs
    · exact kept_serverCall hi hs (hi.dests n) rfl
    · cases hs
  | serverLoop n name ev =>
    simp only [step] at hs
    split at hs
    · obtain ⟨⟨p, io⟩, hp, hcall⟩ := Option.bind_eq_some_iff.mp hs
      exact kept_serverCall hi hcall (Port.loop_open hp (hi.dests n)) rfl
    · cases hs
  | cancelRead n => exact kept_serverCall hi hs (hi.dests n) rfl
  | cancelWrite n => exact kept_serverCall hi hs (hi.dests n) rfl

/-- Where the server stands with a stream changes only with the server. -/
theorem serving_congr {w w' : World} (h : w'.server = w.server) (n : StreamId) : w'.serving n = w.serving n := by
  simp only [serving, h]

/-- A call on one stream, seen from another or from itself. -/
theorem serving_of_call {w w' : World} {m : StreamId} {io : Server.ServerIo} {ch : Channel} (hs : w.serverCall m io ch = some w')
    (n : StreamId) : w'.serving n = w.serving n ∨ n = m ∧ (w.serving n).step io = some (w'.serving n) := by
  obtain ⟨hstep, hother, -⟩ := serverCall_some hs
  by_cases hn : n = m
  · exact Or.inr ⟨hn, hn ▸ hstep⟩
  · left
    simp only [serving, hother n hn]

/-- A dial does not fail in an undisturbed step. -/
theorem dialling_step {w w' : World} {a : Act} (ha : a.undisturbed = true) (hs : w.step a = some w') {n : StreamId}
    {q : QpepHeader} (hq : w.serving n = .dial q) : w'.serving n ≠ .returned none := by
  have hsame : w'.serving n = w.serving n → w'.serving n ≠ .returned none := fun h => by simp [h, hq]
  rcases step_forms hs with ⟨b, -, hb⟩ | ⟨b, -, hb⟩ | ⟨-, h⟩ | ⟨c, header, m, r, io, app, ch, -, hcall⟩ | ⟨m, io, ch, hio, hcall⟩
  · exact hsame (serving_congr (client_of_clientStep hb).2 n)
  · obtain ⟨hno, -, s, hx, rfl⟩ := server_of_serverStep hb
    rcases streams_of_step hx with ⟨-, hst⟩ | ⟨i, m, session, -, hnone, hst⟩ | ⟨m, io, _, _, rfl, -⟩
    · exact hsame (by simp only [serving, hst])
    · have hne : n ≠ m := by
        rintro rfl
        simp [serving, hnone, start_eq] at hq
      exact hsame (by simp only [serving, hst, Function.update_of_ne hne])
    · exact absurd rfl (hno m io)
  · exact hsame (serving_congr h n)
  · obtain ⟨m, -, rfl⟩ := Option.map_eq_some_iff.mp hcall
    exact hsame rfl
  · rcases serving_of_call hcall n with h | ⟨rfl, h⟩
    · exact hsame h
    · rw [hq] at h
      generalize w'.serving n = x at h
      cases (serves_of_step (known_of_ne (by simp)) h).1 with
      | dialled => simp
      | notDialled =>
        cases hio false rfl
        cases ha

/-- The client goes on in an undisturbed step. -/
theorem client_goesOn {w w' : World} {a : Act} (ha : a.undisturbed = true) (hs : w.step a = some w') :
    w'.client = w.client ∨ ∃ b, b.goesOn = true ∧ w.client.step b = some w'.client := by
  rcases step_forms hs with ⟨b, rfl, hb⟩ | ⟨b, -, hb⟩ | ⟨h, -⟩ | ⟨c, header, n, r, io, app, ch, -, hcall⟩ | ⟨n, io, ch, -, hcall⟩
  · refine Or.inr ⟨b, ?_, (client_of_clientStep hb).1⟩
    cases b with
    | accept c header => rfl
    | _ => exact ha
  · obtain ⟨-, -, s, -, rfl⟩ := server_of_serverStep hb
    exact Or.inl rfl
  · exact Or.inl h
  · obtain ⟨m, hm, rfl⟩ := Option.map_eq_some_iff.mp hcall
    exact Or.inr ⟨_, rfl, hm⟩
  · exact Or.inl (serverCall_some hcall).2.2.2.1

/-- The server goes on in an undisturbed step. -/
theorem server_goesOn {w w' : World} {a : Act} (ha : a.undisturbed = true) (hs : w.step a = some w') :
    w'.server = w.server ∨ ∃ b, b.goesOn = true ∧ w.server.step b = some w'.server := by
  rcases step_forms hs with ⟨b, -, hb⟩ | ⟨b, rfl, hb⟩ | ⟨-, h⟩ | ⟨c, header, n, r, io, app, ch, -, hcall⟩ | ⟨n, io, ch, -, hcall⟩
  · exact Or.inl (client_of_clientStep hb).2
  · obtain ⟨-, -, s, hx, rfl⟩ := server_of_serverStep hb
    exact Or.inr ⟨b, ha, hx⟩
  · exact Or.inl h
  · obtain ⟨m, -, rfl⟩ := Option.map_eq_some_iff.mp hcall
    exact Or.inl rfl
  · obtain ⟨x, hx, rfl⟩ := Option.map_eq_some_iff.mp hcall
    exact Or.inr ⟨_, rfl, hx⟩

/-- A connection has a stream exactly if its handler has. -/
theorem relaying_iff {w : World} {c : ConnId} {header : QpepHeader} {n : StreamId} {r : Client.Relaying} :
    w.relaying c = some (header, n, r) ↔ ∃ h, w.client.handlers c = some h ∧ h.pc = .relay n r ∧ h.header = header := by
  constructor
  · intro hr
    simp only [relaying] at hr
    split at hr
    · rename_i hh
      cases hr
      exact ⟨_, hh, rfl, rfl⟩
    · cases hr
  · rintro ⟨⟨header', pc, d, s⟩, hh, hpc, he⟩
    cases hpc
    cases he
    simp [relaying, hh]

/-- A connection that has a stream keeps it. -/
theorem relaying_step {w w' : World} {a : Act} (hs : w.step a = some w') {c : ConnId} {header : QpepHeader} {n : StreamId}
    {r : Client.Relaying} (hr : w.relaying c = some (header, n, r)) : ∃ r', w'.relaying c = some (header, n, r') := by
  obtain ⟨h, hh, hpc, hheader⟩ := relaying_iff.mp hr
  suffices hkept : ∃ r', w'.client.handlers c = some { h with pc := .relay n r' } by
    obtain ⟨r', hr'⟩ := hkept
    exact ⟨r', relaying_iff.mpr ⟨_, hr', rfl, hheader⟩⟩
  have hsame : some h = some { h with pc := .relay n r } := by rw [← hpc]
  rcases client_of_step hs with he | ⟨b, hb⟩
  · exact ⟨r, by rw [he, hh, hsame]⟩
  · obtain ⟨-, ⟨c', _, -, hnone, he⟩ | ⟨s, -, -, he⟩ | ⟨c', ha, x, h', q, i, k, -, hx, hm, he⟩ | ⟨c', ha, x, -, -, -, -, he⟩⟩ :=
      step_cases hb
    · have hne : c ≠ c' := by
        rintro rfl
        cases hnone.symm.trans hh
      exact ⟨r, by rw [he, set_handlers, if_neg hne, hh, hsame]⟩
    · exact ⟨r, by rw [he, ← hsame, ← hh]⟩
    · by_cases hc : c = c'
      · subst hc
        cases hh.symm.trans hx
        obtain ⟨r', rfl⟩ := Client.relay_of_move hm hpc
        exact ⟨r', by rw [he, moved_handlers_self]⟩
      · exact ⟨r, by rw [he, moved_handlers, if_neg hc, hh, hsame]⟩
    · exact ⟨r, by rw [he, ← hsame, ← hh]⟩

/-- What the view of a connection says of its stream. -/
theorem view_server {w : World} {c : ConnId} {l : Link} (hv : w.view c = some l) :
    (l.server = .start ∧ ∀ header n r, w.relaying c ≠ some (header, n, r)) ∨
      ∃ header n r, w.relaying c = some (header, n, r) ∧ l.server = w.serving n := by
  obtain ⟨h, hh, rfl⟩ := Option.map_eq_some_iff.mp hv
  obtain ⟨header, pc, d, s⟩ := h
  cases pc with
  | relay n r => exact Or.inr ⟨header, n, r, by simp [relaying, hh], rfl⟩
  | _ => exact Or.inl ⟨rfl, by simp [relaying, hh]⟩

/-- No connection of a healthy client has failed. -/
theorem view_unfailed {w : World} {c : ConnId} {l : Link} (hclient : w.client.Healthy) (happs : ∀ c, (w.apps c).Open)
    (hdests : ∀ n, (w.channels n).dest.Open) (hv : w.view c = some l) :
    l.sessionDown = false ∧ l.client ≠ .dropped ∧ ∀ s, (l.sock s).Open := by
  have happ := app_of_view hv
  obtain ⟨h, hh, rfl⟩ := Option.map_eq_some_iff.mp hv
  have hunhurt := hclient.unhurt c h hh
  obtain ⟨header, pc, d, s⟩ := h
  cases pc with
  | relay n r =>
    refine ⟨hclient.live _, by simp [link, streamLink], ?_⟩
    intro s
    cases s with
    | client => exact happs c
    | server => exact hdests n
  | returned => exact hunhurt.elim
  | _ =>
    refine ⟨rfl, by simp [link, Link.init], ?_⟩
    intro s
    cases s with
    | client => exact happs c
    | server => exact ⟨rfl, rfl, rfl⟩

/-- A connection that is accepted in an undisturbed step is between valid addresses. -/
theorem untouched_enters {w w' : World} {a : Act} (ha : a.undisturbed = true) (hs : w.step a = some w') {c : ConnId} {l : Link}
    (hnone : w.view c = none) (hv : w'.view c = some l) : Link.Untouched l := by
  have hbefore : w.client.handlers c = none := Option.map_eq_none_iff.mp hnone
  have hafter : w'.client.handlers c ≠ none := by
    intro h
    simp [view, h] at hv
  rcases step_forms hs with ⟨b, rfl, hb⟩ | ⟨b, -, hb⟩ | ⟨h, -⟩ | ⟨c', header, n, r, io, app, ch, -, hcall⟩ | ⟨n, io, ch, -, hcall⟩
  · obtain ⟨header, rfl, hm⟩ := handlers_enter (client_of_clientStep hb).1 hbefore hafter
    obtain ⟨m, -, rfl⟩ := Option.map_eq_some_iff.mp hb
    have hvalid : header.Valid := of_decide_eq_true ha
    simp only at hm
    have hl : l = Link.init header := by simpa [view, hm, link, Client.Handler.start, Link.init] using hv.symm
    exact hl ▸ Link.LinkAux.untouched_init hvalid
  · obtain ⟨-, -, s, -, rfl⟩ := server_of_serverStep hb
    exact absurd hbefore hafter
  · exact absurd (h ▸ hbefore) hafter
  · obtain ⟨m, hm, rfl⟩ := Option.map_eq_some_iff.mp hcall
    obtain ⟨_, he, -⟩ := handlers_enter hm hbefore hafter
    cases he
  · exact absurd ((serverCall_some hcall).2.2.2.1 ▸ hbefore) hafter

/-- Every undisturbed step keeps the proxy healthy. -/
theorem healthy_step {w w' : World} {a : Act} (hi : Healthy w) (ha : w.undisturbed a = true) (hs : w.step a = some w') :
    Healthy w' := by
  simp only [undisturbed, Bool.and_eq_true] at ha
  obtain ⟨ha, hfills⟩ := ha
  have hkept := kept_step hi ha hs
  have hclient : w'.client.Healthy := by
    rcases client_goesOn ha hs with h | ⟨b, hgoes, hb⟩
    · exact h ▸ hi.client
    · exact Client.healthy_step hi.client hgoes hb
  have hserver : w'.server.Healthy := by
    rcases server_goesOn ha hs with h | ⟨b, hgoes, hb⟩
    · exact h ▸ hi.server
    · exact Server.healthy_step hi.server hgoes hb
  refine ⟨owned_step hi.owned hs, hclient, hserver, ?_, hkept.apps, hkept.dests, ?_⟩
  · intro n hn
    rcases hkept.sessions n hn with ⟨hlt, hsame⟩ | ⟨c, h, hh, hsession⟩
    · have hmono : w.client.sessions ≤ w'.client.sessions := by
        rcases client_of_step hs with h | ⟨b, hb⟩
        · exact Nat.le_of_eq (congrArg Client.sessions h).symm
        · exact sessions_mono hb
      exact hsame ▸ Nat.lt_of_lt_of_le (hi.sessions n hlt) hmono
    · exact hclient.known.session c h _ hh hsession
  · intro c l' hl'
    cases hv : w.view c with
    | none => exact untouched_enters ha hs hv hl'
    | some l =>
      obtain ⟨l₁, hl₁, hseen⟩ := seen_step hi.owned hs hv
      cases hl'.symm.trans hl₁
      rcases hseen with rfl | ⟨b, hb, hstep⟩
      · exact hi.links c l' hv
      · obtain ⟨hsession, hdropped, hopen⟩ := view_unfailed hclient hkept.apps hkept.dests hl'
        have hdial : ∀ q, l.server = .dial q → l'.server ≠ .returned none := by
          intro q hq
          rcases view_server hv with ⟨hstart, -⟩ | ⟨header, n, r, hr, hserver⟩
          · cases hq.symm.trans (hstart.trans start_eq)
          · obtain ⟨r', hr'⟩ := relaying_step hs hr
            have hl := link_of_relaying hl' hr'
            rw [hl]
            exact dialling_step ha hs (hserver ▸ hq)
        exact Link.LinkAux.untouched_step (hi.links c l hv)
          (Link.undisturbed_of_step hstep (hb (headerFills_of_fillsHeader hfills c)) hsession hdropped hopen hdial) hstep

/-! ## What is enabled -/

/-- Some step is enabled that nobody outside decides on, and quic-go makes it. -/
def Enabled (w : World) : Prop := ∃ a, w.relays a = true ∧ w.permits a = true ∧ (w.step a).isSome = true

/-- While a connection is getting its stream, every session has room for it. -/
def HasRoom (w : World) : Prop :=
  ∀ c h, w.client.handlers c = some h → h.pc.opening = true → w.client.streams < maxIncomingStreams

/-- The stream of a connection, 0 while it has none. -/
def streamOf (w : World) (c : ConnId) : StreamId := ((w.relaying c).map fun x => x.2.1).getD 0

/-- There is room as long as the connections are no more than a session can have streams: each has one stream at most, and
one that is getting its stream has none yet. -/
theorem room_of_card {w : World} (hi : w.client.Healthy) {S : Finset ConnId} (hS : ∀ c h, w.client.handlers c = some h → c ∈ S)
    (hcard : S.card ≤ maxIncomingStreams) : HasRoom w := by
  intro c h hh ho
  have hsurj : Set.SurjOn (streamOf w) (S.erase c) (Finset.range w.client.streams) := by
    intro n hn
    obtain ⟨d, x, r, hx, hpc⟩ := hi.carried n (Finset.mem_range.mp hn)
    have hne : d ≠ c := by
      rintro rfl
      cases hh.symm.trans hx
      rw [hpc] at ho
      cases ho
    refine ⟨d, Finset.mem_erase.mpr ⟨hne, hS d x hx⟩, ?_⟩
    have hr : w.relaying d = some (x.header, n, r) := relaying_iff.mpr ⟨x, hx, hpc, rfl⟩
    rw [streamOf, hr]
    rfl
  have hle := Finset.card_le_card_of_surjOn (streamOf w) hsurj
  rw [Finset.card_range, Finset.card_erase_of_mem (hS c h hh)] at hle
  have hpos : 0 < S.card := Finset.card_pos.mpr ⟨c, hS c h hh⟩
  omega

/-- With room on every session, no step of a handler that succeeds is held up. -/
theorem permits_handler {w : World} (hroom : HasRoom w) {c : ConnId} {a : Client.HandlerAct} (ha : a.succeeds = true) :
    w.permits (.client (.handler c a)) = true := by
  cases a with
  | openStream ok | openStreamSync ok =>
    cases ok with
    | false => cases ha
    | true =>
      simp only [permits]
      split
      · rename_i s hpc
        obtain ⟨h, hh, hpc⟩ := Option.map_eq_some_iff.mp hpc
        simpa using Nat.lt_of_le_of_lt (openedOn_le w s) (hroom c h hh (by rw [hpc]; rfl))
      · rename_i s hpc
        obtain ⟨h, hh, hpc⟩ := Option.map_eq_some_iff.mp hpc
        simpa using Nat.lt_of_le_of_lt (openedOn_le w s) (hroom c h hh (by rw [hpc]; rfl))
      · rfl
  | _ => rfl

/-- A handler of the client that can make a call makes it. -/
theorem clientCall_enabled {w : World} (hi : Healthy w) {c : ConnId} {header : QpepHeader} {n : StreamId} {r r' : Client.Relaying}
    (hr : w.relaying c = some (header, n, r)) {io : Client.RelayIo} (hs : r.step io = some r') (app : Sock) (ch : Channel) :
    (w.clientCall c n io app ch).isSome = true := by
  obtain ⟨h, hh, hpc, -⟩ := relaying_iff.mp hr
  simp [clientCall, Client.step, hi.client.running, hh, Client.handleTCPConn, hpc, hs]

/-- A handler of the server that can make a call makes it, once its stream is accepted. -/
theorem serverCall_enabled {w : World} {n : StreamId} (hn : w.server.streams n ≠ none) {io : Server.ServerIo}
    {x : Server.StreamHandler} (hs : (w.serving n).step io = some x) (ch : Channel) : (w.serverCall n io ch).isSome = true := by
  obtain ⟨y, hy⟩ := Option.ne_none_iff_exists'.mp hn
  simp only [serving, hy] at hs
  simp [serverCall, Server.step, hy, Server.Stream.step, hs]

/-- A stream that the server has not accepted yet: it can accept the next one of the session, or it can accept the session
first (the next one is found by induction on the stream). -/
theorem enabled_of_unaccepted {w : World} (hi : Healthy w) {n : StreamId} (hn : n < w.client.streams)
    (hnone : w.server.streams n = none) : Enabled w := by
  induction n using Nat.strong_induction_on with
  | h n ih =>
    have hsession := hi.sessions n hn
    cases haccept : w.server.step (.acceptSession (some (w.channels n).session)) with
    | some s =>
      exact ⟨.server (.acceptSession (some (w.channels n).session)), rfl, rfl, by simp [step, serverStep, hsession, haccept]⟩
    | none =>
      cases hstart : w.server.step .goListenQuicConn with
      | some s => exact ⟨.server .goListenQuicConn, rfl, rfl, by simp [step, serverStep, hstart]⟩
      | none =>
        by_cases hnext : ∀ m < n, (w.channels m).session = (w.channels n).session → w.server.streams m ≠ none
        · obtain ⟨i, l, hl, hsame, haccepting⟩ := Server.loop_of_quiet hi.server haccept hstart
          refine ⟨.server (.acceptStream i (some n)), rfl, ?_, ?_⟩
          · simp only [permits, List.all_eq_true, List.mem_range, Bool.or_eq_true, bne_iff_ne, ne_eq]
            intro m hm
            by_cases hs : (w.channels m).session = (w.channels n).session
            · exact Or.inr (Option.isSome_iff_ne_none.mpr (hnext m hm hs))
            · exact Or.inl hs
          · simp [step, serverStep, hn, hl, hsame, Server.step, haccepting, Server.listenQuicConn, hnone]
        · simp only [not_forall, ne_eq, not_not] at hnext
          obtain ⟨m, hm, -, hnone'⟩ := hnext
          exact ih m hm (hm.trans hn) hnone'

/-- A connection that is getting its stream can go on. -/
theorem enabled_of_opening {w : World} (hi : Healthy w) (hroom : HasRoom w) {c : ConnId} {h : Client.Handler}
    (hh : w.client.handlers c = some h) (ho : h.pc.opening = true) : Enabled w := by
  obtain ⟨a, ha, hno, hs⟩ := Client.enabled_of_opening hi.client hh ho
  refine ⟨.client (.handler c a), by simp [relays, Act.moves, ha, fillsHeader], permits_handler hroom ha, ?_⟩
  cases a with
  | relay io => exact absurd rfl (hno io)
  | _ => simpa [step, clientStep] using hs

/-- What a connection can do on its own, the proxy can do. -/
theorem enabled_of_link {w : World} (hi : Healthy w) (hroom : HasRoom w) {c : ConnId} {l l' : Link} (hv : w.view c = some l)
    {b : Link.Act}
    (hb : l.relays b = true) (hs : l.step b = some l') : Enabled w := by
  obtain ⟨h, hh, hl⟩ := Option.map_eq_some_iff.mp hv
  by_cases ho : h.pc.opening = true
  · exact enabled_of_opening hi hroom hh ho
  obtain ⟨n, r, hpc⟩ : ∃ n r, h.pc = .relay n r := by
    have hunhurt := hi.client.unhurt c h hh
    cases hpc : h.pc with
    | relay n r => exact ⟨n, r, rfl⟩
    | returned =>
      rw [hpc] at hunhurt
      exact hunhurt.elim
    | _ => exact absurd (by rw [hpc]; rfl) ho
  have hr : w.relaying c = some (h.header, n, r) := relaying_iff.mpr ⟨h, hh, hpc, rfl⟩
  have hlink := link_of_relaying hv hr
  subst hlink
  by_cases hnone : w.server.streams n = none
  · exact enabled_of_unaccepted hi (hi.owned.streams.below c h n r hh hpc) hnone
  simp only [Link.relays, Bool.and_eq_true] at hb
  obtain ⟨hmoves, hfills⟩ := hb
  have hserverCall : ∀ {io : Server.ServerIo} {x : Server.StreamHandler} (ch : Channel), (w.serving n).step io = some x →
      (w.serverCall n io ch).isSome = true := fun ch hstep => serverCall_enabled hnone hstep ch
  cases b with
  | app e =>
    have he : e.moves = true := hmoves
    obtain ⟨s, hstep, -⟩ := Option.map_eq_some_iff.mp hs
    have hstep' : (w.apps c).env e = some s := hstep
    exact ⟨.app c e, by simp [relays, fillsHeader, Act.moves, he], rfl, by simp [step, hh, hstep']⟩
  | dest e =>
    have he : e.moves = true := hmoves
    refine ⟨.dest n e, by simp [relays, fillsHeader, Act.moves, he], rfl, ?_⟩
    simp only [Link.step, Option.ite_none_right_eq_some] at hs
    obtain ⟨hconnected, hs⟩ := hs
    obtain ⟨s, hstep, -⟩ := Option.map_eq_some_iff.mp hs
    have hstep' : (w.channels n).dest.env e = some s := hstep
    simp only [step]
    split
    case h_4 hno₁ hno₂ hno₃ =>
      -- a stream without a connection to its destination
      simp only [Link.relay, streamLink] at hconnected
      cases hconnected
    all_goals simp [hstep']
  | deliver s k =>
    refine ⟨.deliver n s k, rfl, rfl, ?_⟩
    cases s with
    | client =>
      obtain ⟨x, hd, -⟩ := Option.map_eq_some_iff.mp hs
      have hd' : (w.channels n).up.deliver k = some x := hd
      simp [step, hd']
    | server =>
      obtain ⟨x, hd, -⟩ := Option.map_eq_some_iff.mp hs
      have hd' : (w.channels n).down.deliver k = some x := hd
      simp [step, hd']
  | sessionFail => cases hmoves
  | openStream => cases hs
  | drop => cases hmoves
  | writeHeader k ew =>
    refine ⟨.writeHeader c k ew, rfl, rfl, ?_⟩
    obtain ⟨x, hw, hs⟩ := Option.bind_eq_some_iff.mp hs
    obtain ⟨r', hstep, -⟩ := Option.bind_eq_some_iff.mp hs
    have hw' : (w.channels n).up.write (w.lost n) h.header.toBytes k ew = some x := hw
    simp only [step, hr, hw']
    exact clientCall_enabled hi hr hstep _ _
  | loop s name ev =>
    cases s with
    | client =>
      cases r with
      | wait r₀ =>
        refine ⟨.clientLoop c name ev, rfl, rfl, ?_⟩
        obtain ⟨⟨p, io⟩, hp, hs⟩ := Option.bind_eq_some_iff.mp hs
        obtain ⟨r', hstep, -⟩ := Option.bind_eq_some_iff.mp hs
        have hp' : Port.loop ⟨w.apps c, (w.channels n).up, (w.channels n).down⟩ (w.lost n) (Client.task name) (r₀.loop name) ev =
          some (p, io) := hp
        simp only [step, hr]
        rw [hp']
        exact clientCall_enabled hi hr hstep _ _
      | _ => cases hs
    | server =>
      cases hserving : w.serving n with
      | wait q r₀ =>
        refine ⟨.serverLoop n name ev, rfl, rfl, ?_⟩
        simp only [Link.step, streamLink, hserving] at hs
        obtain ⟨⟨p, io⟩, hp, hs⟩ := Option.bind_eq_some_iff.mp hs
        obtain ⟨x, hstep, -⟩ := Option.bind_eq_some_iff.mp hs
        have hp' : Port.loop ⟨(w.channels n).dest, (w.channels n).down, (w.channels n).up⟩ (w.lost n) (Server.task name)
          (r₀.loop name) ev = some (p, io) := hp
        simp only [step, hserving]
        rw [hp']
        exact hserverCall _ (hserving ▸ hstep)
      | _ => simp [Link.step, streamLink, hserving] at hs
  | close =>
    refine ⟨.close c, rfl, rfl, ?_⟩
    obtain ⟨r', hstep, -⟩ := Option.map_eq_some_iff.mp hs
    simp only [step, hr]
    exact clientCall_enabled hi hr hstep _ _
  | readHeader k er =>
    refine ⟨.readHeader n k er, ?_, rfl, ?_⟩
    · cases er with
      | some e => rfl
      | none =>
        have hfills' : w.fillsHeader (.readHeader n k none) = true := hfills
        simp [relays, Act.moves, hfills']
    · obtain ⟨⟨bs, x⟩, hread, hs⟩ := Option.bind_eq_some_iff.mp hs
      obtain ⟨y, hstep, -⟩ := Option.bind_eq_some_iff.mp hs
      have hread' : (w.channels n).up.read (w.lost n) k er = some (bs, x) := hread
      simp only [step, hread']
      exact hserverCall _ hstep
  | dialTimeout ok =>
    refine ⟨.dialTimeout n ok, ?_, rfl, ?_⟩
    · cases ok with
      | true => rfl
      | false => cases hmoves
    · cases hserving : w.serving n with
      | dial q =>
        simp only [Link.step, streamLink, hserving] at hs
        obtain ⟨x, hstep, -⟩ := Option.map_eq_some_iff.mp hs
        simp only [step, hserving]
        exact hserverCall _ (hserving ▸ hstep)
      | _ => simp [Link.step, streamLink, hserving] at hs
  | cancelRead =>
    refine ⟨.cancelRead n, rfl, rfl, ?_⟩
    obtain ⟨x, hstep, -⟩ := Option.map_eq_some_iff.mp hs
    exact hserverCall _ hstep
  | cancelWrite =>
    refine ⟨.cancelWrite n, rfl, rfl, ?_⟩
    obtain ⟨x, hstep, -⟩ := Option.map_eq_some_iff.mp hs
    exact hserverCall _ hstep

end WorldAux

end World

end Qpep
