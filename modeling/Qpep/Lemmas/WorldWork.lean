import Mathlib.Algebra.Order.BigOperators.Group.Finset
import Mathlib.Algebra.Ring.Nat
import Qpep.Lemmas.Work
import Qpep.Lemmas.World

/-!
# The work of the whole proxy

What the client, the server and everything between them have left to do: the handlers of the accepted connections, the
streams that were opened and the sessions that were dialled, each with what it can still bring about (`World.work`). Every
step goes at its cost, but for the accept of a connection and the sends of an endpoint; those bring what they add
(`work_step`).
-/

namespace Qpep

open Io Machine

/-- What the two goroutines of a side have left to do. -/
def Relay.work (r : Relay) : Nat := r.streamTCPtoQUIC.potential .streamTCPtoQUIC + r.streamQUICtoTCP.potential .streamQUICtoTCP

theorem Relay.work_setLoop (r : Relay) (n : LoopName) (x : Loop) :
    (r.setLoop n x).work + (r.loop n).potential n = r.work + x.potential n := by
  cases n <;> simp only [Relay.work, Relay.setLoop, Relay.loop] <;> omega

@[simp] theorem Relay.work_start : Relay.start.work = 4 := rfl

/-- What a handler of the client that has a stream has left to do, with a header of this length. -/
def Client.Relaying.work (header : Nat) : Client.Relaying → Nat
  | .header => 5 * header + 6
  | .wait r => 1 + r.work
  | .returned _ => 0

/-- What a handler of the client has left to do, and what a stream and a session that it opens will have. -/
def Client.Handler.work (retries : Nat) (h : Client.Handler) : Nat :=
  let stream := 5 * h.header.toBytes.length + 18
  match h.pc with
  | .entry => stream + 10 + retries
  | .openStream => stream + 9 + retries
  | .openingStream _ => stream + 8 + retries
  | .openQuicSession i _ => stream + 7 + (retries - i)
  | .assign _ _ => stream + 3
  | .openStreamSync => stream + 2
  | .openingStreamSync _ => stream + 1
  | .relay _ r => r.work h.header.toBytes.length
  | .returned => 0

/-- What the handling of a stream has left to do. -/
def Server.StreamHandler.work : Server.StreamHandler → Nat
  | .header _ => 8
  | .dial _ => 7
  | .wait _ r => 2 + r.work
  | .cancelWrite _ _ => 1
  | .returned _ => 0

/-- What `ListenQuicSession` has left to do on its own; a session in its hands is still to be started. -/
def Server.Listener.work : Server.Listener → Nat
  | .accept => 1
  | .start => 3
  | .returned => 0

namespace World

/-- What a connection has left to do on the side of the client. -/
def connWork (w : World) (c : ConnId) : Nat :=
  match w.client.handlers c with
  | some h => h.work w.client.cfg.connectionRetries.toNat + (w.apps c).potential
  | none => 0

/-- What a stream has left to do: its bytes, the connection to its destination, and its handling. -/
def streamWork (w : World) (n : StreamId) : Nat :=
  (w.channels n).up.potential + (w.channels n).down.potential + (w.channels n).dest.potential + (w.serving n).work +
    (w.server.streams n).isNone.toNat

/-- What a session has left to do: to be accepted, started, and ended. -/
def sessionWork (w : World) (s : SessionId) : Nat := if w.server.accepted s then 0 else 3

/-- What these connections have left to do on the side of the client. -/
def connsWork (S : Finset ConnId) (w : World) : Nat := ∑ c ∈ S, w.connWork c

/-- What the streams that were opened have left to do. -/
def streamsWork (w : World) : Nat := ∑ n ∈ Finset.range w.client.streams, w.streamWork n

/-- What the accept loops have left to do, for the sessions that were dialled; and the client can crash once. -/
def loopsWork (w : World) : Nat :=
  ∑ s ∈ Finset.range w.client.sessions, w.sessionWork s + w.server.listener.work +
    w.server.loops.countP (fun l => l.accepting) + (!w.client.crashed).toNat

/-- What the proxy has left to do, for these connections. -/
def work (S : Finset ConnId) (w : World) : Nat := w.connsWork S + w.streamsWork + w.loopsWork

/-- What is summed up is all there is: the handlers are those of `S`, and nothing has happened to a stream that was not
opened. -/
structure Accounted (S : Finset ConnId) (w : World) : Prop where
  owned : Owned w
  handlers : ∀ c h, w.client.handlers c = some h → c ∈ S
  unopened : ∀ n, w.client.streams ≤ n → (w.channels n).up = Half.fresh ∧ (w.channels n).down = Half.fresh
  known : ∀ n, (w.serving n).Known

/-- The bytes that an endpoint sends in a step. -/
def Act.sent : Act → List UInt8
  | .app _ e | .dest _ e => e.sent
  | _ => []

/-- The step is a send of an endpoint. -/
def Act.sends : Act → Bool
  | .app _ e | .dest _ e => e.sends
  | _ => false

/-- The step is the failure of a session. -/
def Act.sessionFails : Act → Bool
  | .client (.sessionFail _) => true
  | _ => false

/-- What an accepted connection with this header may bring about. -/
def Act.admits (retries : Nat) : Act → Nat
  | .client (.accept _ header) => 32 + 5 * header.toBytes.length + retries
  | _ => 0

namespace WorldAux

open Client.ClientAux Server.ServerAux

/-! ## The client -/

/-- A handler that is getting a stream has less left to do with each step, by what it opens. -/
theorem work_move {m : Client} {h h' : Client.Handler} {a : Client.HandlerAct} {q : Option SessionId} {i k : Nat}
    (hm : Client.Move m h a h' q i k) (hno : ∀ io, a ≠ .relay io) :
    h'.work m.cfg.connectionRetries.toNat + 1 + 12 * (k - m.streams) + 3 * (i - m.sessions) ≤
      h.work m.cfg.connectionRetries.toNat := by
  cases hm with
  | relayed n r r' io hpc hstep => exact absurd rfl (hno io)
  | stored session failed hpc =>
    cases failed <;> simp [Client.Handler.work, hpc]
  | retry i failed hpc hi =>
    simp only [Client.Handler.work, hpc]
    omega
  | tryOpen hpc | noOpen hpc | load s hpc | opened s hpc | refused s hpc | dialled j failed hpc | exhausted j failed hpc
  | loadSync s hpc | openedSync s hpc | refusedSync s hpc =>
    simp only [Client.Handler.work, Client.Relaying.work, hpc]
    omega

/-- The work of a connection depends on its handler and its TCP connection. -/
theorem connWork_congr {w w' : World} {c : ConnId} (hh : w'.client.handlers c = w.client.handlers c)
    (hcfg : w'.client.cfg = w.client.cfg) (happ : w'.apps c = w.apps c) : w'.connWork c = w.connWork c := by
  simp only [connWork, hh, hcfg, happ]

/-- The work of a stream depends on the stream and its handler. -/
theorem streamWork_congr {w w' : World} {n : StreamId} (hch : w'.channels n = w.channels n)
    (hstream : w'.server.streams n = w.server.streams n) : w'.streamWork n = w.streamWork n := by
  simp only [streamWork, serving, hch, hstream]

/-- The work of the accept loops depends on the sessions and on the server's loops. -/
theorem loopsWork_congr {w v : World} (hsessions : v.client.sessions = w.client.sessions)
    (hcrashed : v.client.crashed = w.client.crashed) (haccepted : v.server.accepted = w.server.accepted)
    (hlistener : v.server.listener = w.server.listener) (hloops : v.server.loops = w.server.loops) :
    v.loopsWork = w.loopsWork := by
  simp only [loopsWork, sessionWork, hsessions, hcrashed, haccepted, hlistener, hloops]

theorem connsWork_congr {S : Finset ConnId} {w w' : World} (h : ∀ c, w'.connWork c = w.connWork c) :
    w'.connsWork S = w.connsWork S := Finset.sum_congr rfl fun c _ => h c

theorem streamsWork_congr {w w' : World} (hstreams : w'.client.streams = w.client.streams)
    (h : ∀ n, w'.streamWork n = w.streamWork n) : w'.streamsWork = w.streamsWork := by
  simp only [streamsWork, hstreams, h]

/-- A stream that is opened brings its own work. -/
theorem streamsWork_opened {w w' : World} (hi : Owned w) (hstreams : w'.client.streams = w.client.streams + 1)
    (hserver : w'.server = w.server) (hother : ∀ n, n ≠ w.client.streams → w'.channels n = w.channels n) {s : SessionId}
    (hfresh : w'.channels w.client.streams = .fresh s) : w'.streamsWork = w.streamsWork + 12 := by
  have hnew : w'.streamWork w.client.streams = 12 := by
    simp [streamWork, serving, hserver, hfresh, hi.unopened _ (Nat.le_refl _), Channel.fresh, Half.potential, Half.fresh,
      Fifo.empty, Sock.potential, Sock.fresh, start_eq, Server.StreamHandler.work]
  have hold : ∑ n ∈ Finset.range w.client.streams, w'.streamWork n = w.streamsWork :=
    Finset.sum_congr rfl fun n hn =>
      streamWork_congr (hother n (Nat.ne_of_lt (Finset.mem_range.mp hn))) (by rw [hserver])
  rw [streamsWork, hstreams, Finset.sum_range_succ, hnew, hold]

/-- Sessions that are dialled bring their own work. -/
theorem loopsWork_dialled {w w' : World} (hsessions : w'.client.sessions = w.client.sessions + 1)
    (hcrashed : w'.client.crashed = w.client.crashed) (hserver : w'.server = w.server) :
    w'.loopsWork ≤ w.loopsWork + 3 := by
  have hnew : w'.sessionWork w.client.sessions ≤ 3 := by
    unfold sessionWork
    split <;> omega
  have hold : ∀ s, w'.sessionWork s = w.sessionWork s := fun s => by simp only [sessionWork, hserver]
  simp only [loopsWork, hsessions, hcrashed, hserver, Finset.sum_range_succ]
  simp only [hold] at hnew ⊢
  omega

/-- The accept of a connection. -/
theorem work_accept {S : Finset ConnId} {w w' : World} {c : ConnId} {header : QpepHeader} (hc : c ∈ S)
    (hs : w.clientStep (.accept c header) = some w') :
    w'.work S + 1 ≤ w.work S + (32 + 5 * header.toBytes.length + w.client.cfg.connectionRetries.toNat) := by
  obtain ⟨m, hm, rfl⟩ := Option.map_eq_some_iff.mp hs
  obtain ⟨-, hnone, rfl⟩ := accept_some hm
  have hother : ∀ c', c' ≠ c → World.connWork ⟨w.client.set c (.start header), w.server, Function.update w.apps c Sock.fresh,
      w.channels⟩ c' = w.connWork c' := by
    intro c' hc'
    exact connWork_congr (by simp [hc']) rfl (Function.update_of_ne hc' _ _)
  have hsum := sum_replace hc hother
  have hbefore : w.connWork c = 0 := by simp [connWork, hnone]
  have hafter : World.connWork ⟨w.client.set c (.start header), w.server, Function.update w.apps c Sock.fresh,
      w.channels⟩ c = 31 + 5 * header.toBytes.length + w.client.cfg.connectionRetries.toNat := by
    simp [connWork, Client.Handler.start, Client.Handler.work, Sock.potential, Sock.fresh, Fifo.empty, Client.set]
    omega
  have hstreams : World.streamsWork ⟨w.client.set c (.start header), w.server, Function.update w.apps c Sock.fresh,
      w.channels⟩ = w.streamsWork := rfl
  have hloops : World.loopsWork ⟨w.client.set c (.start header), w.server, Function.update w.apps c Sock.fresh,
      w.channels⟩ = w.loopsWork := rfl
  simp only [work, connsWork, hstreams, hloops]
  rw [hbefore, hafter] at hsum
  omega

/-- What a move of a handler that is getting a stream opens: nothing, or the next stream. -/
theorem opened_of_move {m : Client} {h h' : Client.Handler} {a : Client.HandlerAct} {q : Option SessionId} {i k : Nat}
    (hm : Client.Move m h a h' q i k) (hno : ∀ io, a ≠ .relay io) :
    (k = m.streams ∧ ∀ n r, h'.pc ≠ .relay n r) ∨
      k = m.streams + 1 ∧ ∃ s, h'.pc = .relay m.streams .header ∧ h'.session = some s := by
  cases hm with
  | relayed n r r' io hpc hstep => exact absurd rfl (hno io)
  | opened s => exact Or.inr ⟨rfl, s, rfl, rfl⟩
  | openedSync s => exact Or.inr ⟨rfl, s, rfl, rfl⟩
  | stored session failed =>
    refine Or.inl ⟨rfl, ?_⟩
    cases failed <;> simp
  | _ => exact Or.inl ⟨rfl, by simp⟩

/-- A handler that is getting a stream makes a step. -/
theorem work_handler {S : Finset ConnId} {w : World} {c : ConnId} {a : Client.HandlerAct} {h h' : Client.Handler}
    {q : Option SessionId} {i k : Nat} (hi : Accounted S w) (hrunning : w.client.crashed = false)
    (hh : w.client.handlers c = some h) (hm : Client.Move w.client h a h' q i k) (hno : ∀ io, a ≠ .relay io) :
    (w.after c (w.client.moved c h' q i k)).work S + 1 ≤ w.work S := by
  have hmove := work_move hm hno
  have hh' : (w.client.moved c h' q i k).handlers c = some h' := by simp
  obtain ⟨w', hw'⟩ : ∃ w', w' = w.after c (w.client.moved c h' q i k) := ⟨_, rfl⟩
  have hclient : w'.client = w.client.moved c h' q i k := hw' ▸ after_client w c _
  have hserver : w'.server = w.server := hw' ▸ after_server w c _
  -- the sessions
  have hloops : w'.loopsWork ≤ w.loopsWork + 3 * (i - w.client.sessions) := by
    have hcrashed : w'.client.crashed = w.client.crashed := by rw [hclient]; rfl
    rcases dialled_of_move hm with ⟨-, hn⟩ | ⟨-, hn⟩
    · have hsessions : w'.client.sessions = w.client.sessions := by rw [hclient]; exact hn
      have hsame := loopsWork_congr hsessions hcrashed (by rw [hserver]) (by rw [hserver]) (by rw [hserver])
      omega
    · have hsessions : w'.client.sessions = w.client.sessions + 1 := by rw [hclient]; exact hn
      have hmore := loopsWork_dialled hsessions hcrashed hserver
      omega
  -- the streams, and the connection itself
  have hrest : w'.streamsWork = w.streamsWork + 12 * (k - w.client.streams) ∧
      (∀ c', c' ≠ c → w'.apps c' = w.apps c') ∧ (w'.apps c).potential = (w.apps c).potential := by
    rcases opened_of_move hm hno with ⟨hk, hpc⟩ | ⟨hk, s, hpc, hs⟩
    · have hstreams : w'.client.streams = w.client.streams := by rw [hclient]; exact hk
      have hnone : 12 * (k - w.client.streams) = 0 := by omega
      rw [hnone]
      rcases after_cases (w := w) hh' hrunning with ⟨n, s, hpc', -⟩ | ⟨-, he⟩ | ⟨-, -, he⟩
      · exact absurd hpc' (hpc n .header)
      · rw [hw'.trans he] at hstreams ⊢
        refine ⟨streamsWork_congr hstreams fun n => streamWork_congr rfl rfl, ?_, ?_⟩
        · exact fun c' hc' => Function.update_of_ne hc' _ _
        · simp [Sock.close, Sock.potential]
      · rw [hw'.trans he] at hstreams ⊢
        exact ⟨streamsWork_congr hstreams fun n => streamWork_congr rfl rfl, fun _ _ => rfl, rfl⟩
    · have hstreams : w'.client.streams = w.client.streams + 1 := by rw [hclient]; exact hk
      have hone : 12 * (k - w.client.streams) = 12 := by omega
      rw [hone]
      rcases after_cases (w := w) hh' hrunning with ⟨n, s', hpc', hs', he⟩ | ⟨hpc', -⟩ | ⟨hno', -⟩
      · cases hpc.symm.trans hpc'
        have hchannels : w'.channels = Function.update w.channels w.client.streams (.fresh s') := by rw [hw', he]
        refine ⟨?_, ?_, ?_⟩
        · refine streamsWork_opened hi.owned hstreams hserver ?_ (by rw [hchannels, Function.update_self])
          exact fun n hn => by rw [hchannels, Function.update_of_ne hn]
        · exact fun _ _ => by rw [hw', he]
        · rw [hw', he]
      · cases hpc.symm.trans hpc'
      · exact absurd hs (hno' _ _ hpc)
  obtain ⟨hstreams, happs, happ⟩ := hrest
  have hother : ∀ c', c' ≠ c → w'.connWork c' = w.connWork c' := by
    intro c' hc'
    exact connWork_congr (by rw [hclient]; simp [hc']) (by rw [hclient]; rfl) (happs c' hc')
  have hsum := sum_replace (hi.handlers c h hh) hother
  have hbefore : w.connWork c = h.work w.client.cfg.connectionRetries.toNat + (w.apps c).potential := by
    simp only [connWork, hh]
  have hafter : w'.connWork c = h'.work w.client.cfg.connectionRetries.toNat + (w.apps c).potential := by
    have hcfg : w'.client.cfg = w.client.cfg := by rw [hclient]; rfl
    have hhandler : w'.client.handlers c = some h' := by rw [hclient]; exact hh'
    simp only [connWork, hhandler, hcfg, happ]
  rw [← hw']
  rw [hbefore, hafter] at hsum
  simp only [work, connsWork, hstreams] at hsum ⊢
  omega

/-- A step of the client that is no call on a connection or a stream. -/
theorem work_clientStep {S : Finset ConnId} {w w' : World} {b : Client.Act} (hi : Accounted S w)
    (hs : w.clientStep b = some w') (hb : ∀ c header, b = .accept c header → c ∈ S) :
    w'.work S + 1 ≤ w.work S + ((Act.client b).admits w.client.cfg.connectionRetries.toNat +
      (Act.client b).sessionFails.toNat) := by
  cases b with
  | accept c header => exact work_accept (hb c header rfl) hs
  | sessionFail s =>
    obtain ⟨m, hm, rfl⟩ := Option.map_eq_some_iff.mp hs
    obtain ⟨-, rfl⟩ := sessionFail_some hm
    have hsame : World.work S { w with client := { w.client with failed := Function.update w.client.failed s true } } =
      w.work S := rfl
    simp [hsame, Act.admits, Act.sessionFails]
  | handler c a =>
    simp only [Act.admits, Act.sessionFails, Bool.toNat_false]
    obtain ⟨hrunning, h, hh, ⟨h', q, i, k, hm, hno, rfl⟩ | ⟨-, -, he⟩⟩ := handlerStep_cases hs
    · have hwork := work_handler hi hrunning hh hm hno
      omega
    · -- the client crashes, which it does once
      have hloops : w'.loopsWork + 1 = w.loopsWork := by
        rw [he]
        simp [loopsWork, hrunning, sessionWork]
      have hconns : w'.connsWork S ≤ w.connsWork S := by
        rw [he]
        refine Finset.sum_le_sum fun c _ => ?_
        simp only [connWork]
        split
        · exact Nat.add_le_add_left (Sock.potential_fault _) _
        · exact Nat.le_refl _
      have hstreams : w'.streamsWork = w.streamsWork := by
        rw [he]
        rfl
      simp only [work, hstreams]
      omega

/-! ## The server's accept loops -/

/-- A loop that has ended no longer counts. -/
theorem countP_ended {loops : List Server.AcceptLoop} {i : Nat} {l : Server.AcceptLoop} (hl : loops[i]? = some l)
    (ha : l.accepting = true) :
    (loops.set i { l with accepting := false }).countP (fun l => l.accepting) + 1 = loops.countP (fun l => l.accepting) := by
  induction loops generalizing i with
  | nil => cases hl
  | cons x xs ih =>
    cases i with
    | zero =>
      cases hl
      simp [ha]
    | succ i =>
      have hrest := ih (i := i) hl
      simp only [List.set_cons_succ, List.countP_cons]
      omega

/-- A stream that the server accepts has been accepted for good. -/
theorem streamsWork_accepted {w w' : World} {n : StreamId} {session : SessionId} (hchannels : w'.channels = w.channels)
    (hclient : w'.client = w.client) (hserver : w'.server.streams = Function.update w.server.streams n (some (.start session)))
    (hn : w.server.streams n = none) (hlt : n < w.client.streams) : w'.streamsWork + 1 = w.streamsWork := by
  have hsum := sum_replace (S := Finset.range w.client.streams) (i := n) (f := w.streamWork) (g := w'.streamWork)
    (Finset.mem_range.mpr hlt) fun m hm =>
      streamWork_congr (by rw [hchannels]) (by rw [hserver, Function.update_of_ne hm])
  have hnew : w'.streamWork n + 1 = w.streamWork n := by
    simp [streamWork, serving, hchannels, hserver, hn, Server.Stream.start]
  simp only [streamsWork, hclient]
  omega

/-- A step of the server that is no call on a connection or a stream. -/
theorem work_serverStep {S : Finset ConnId} {w w' : World} {b : Server.Act} (hs : w.serverStep b = some w') :
    w'.work S + 1 ≤ w.work S := by
  obtain ⟨hno, hopened, s, hx, hw'⟩ := server_of_serverStep hs
  have hclient : w'.client = w.client := hw' ▸ rfl
  have hserver : w'.server = s := hw' ▸ rfl
  have hchannels : w'.channels = w.channels := hw' ▸ rfl
  have hconns : w'.connsWork S = w.connsWork S :=
    connsWork_congr fun c => connWork_congr (by rw [hclient]) (by rw [hclient]) (hw' ▸ rfl)
  have hstreamless : s.streams = w.server.streams → w'.streamsWork = w.streamsWork := fun h =>
    streamsWork_congr (by rw [hclient]) fun n => streamWork_congr (by rw [hchannels]) (by rw [hserver, h])
  simp only [work, hconns]
  cases Server.ServerAux.move_of_step hx with
  | noSession hl =>
    rw [hstreamless rfl]
    simp only [loopsWork, sessionWork, hserver, hclient, hl, Server.Listener.work]
    omega
  | session n hl hn =>
    have hlt : n < w.client.sessions := by
      simp only [serverStep, Option.ite_none_right_eq_some] at hs
      exact hs.1 n rfl
    have hsum := sum_replace (S := Finset.range w.client.sessions) (f := w.sessionWork) (g := w'.sessionWork)
      (Finset.mem_range.mpr hlt) fun s hs => by simp only [sessionWork, hserver, Function.update_of_ne hs]
    have hnew : w'.sessionWork n = 0 ∧ w.sessionWork n = 3 := by simp [sessionWork, hserver, hn]
    rw [hnew.1, hnew.2] at hsum
    rw [hstreamless rfl]
    simp only [loopsWork, hserver, hclient, hl, Server.Listener.work]
    omega
  | goListenQuicConn n hl hq =>
    rw [hstreamless rfl]
    simp [loopsWork, sessionWork, hserver, hclient, hl, Server.Listener.work, List.countP_append]
    omega
  | noStream i l hl ha =>
    rw [hstreamless rfl]
    have hcount := countP_ended hl ha
    simp only [loopsWork, sessionWork, hserver, hclient]
    omega
  | stream i l n hl ha hn =>
    have hstreams := streamsWork_accepted hchannels hclient (by rw [hserver]) hn (hopened i n rfl)
    have hloops := loopsWork_congr (w := w) (v := w') (by rw [hclient]) (by rw [hclient]) (by rw [hserver]) (by rw [hserver])
      (by rw [hserver])
    omega
  | handler n io x h hx' hh => exact absurd rfl (hno n io)

/-! ## The endpoints and the network -/

/-- A change to an open stream changes the work by what it changes there. -/
theorem streamsWork_replace {w v : World} {n : StreamId} {ch : Channel} (hclient : v.client.streams = w.client.streams)
    (hchannels : v.channels = Function.update w.channels n ch) (hserver : ∀ m, m ≠ n → v.server.streams m = w.server.streams m)
    (hlt : n < w.client.streams) : v.streamsWork + w.streamWork n = w.streamsWork + v.streamWork n := by
  have hsum := sum_replace (S := Finset.range w.client.streams) (f := w.streamWork) (g := v.streamWork)
    (Finset.mem_range.mpr hlt) fun m hm => streamWork_congr (by rw [hchannels, Function.update_of_ne hm]) (hserver m hm)
  simpa only [streamsWork, hclient] using hsum

/-- Only a stream that was opened has been accepted. -/
theorem opened_of_accepted {w : World} (hi : Owned w) {n : StreamId} (h : w.server.streams n ≠ none) : n < w.client.streams := by
  by_cases hn : n < w.client.streams
  · exact hn
  · exact absurd (hi.unopened n (Nat.not_lt.mp hn)) h

/-- An endpoint of the client, or the network behind it, makes a step. -/
theorem work_app {S : Finset ConnId} {w w' : World} {c : ConnId} {e : SockEnv} (hi : Accounted S w)
    (hs : w.step (.app c e) = some w') : w'.work S + 1 ≤ w.work S + (8 * e.sent.length + e.sends.toNat) := by
  simp only [step, Option.ite_none_right_eq_some] at hs
  obtain ⟨hsome, hs⟩ := hs
  obtain ⟨h, hh⟩ := Option.isSome_iff_exists.mp hsome
  obtain ⟨x, he, rfl⟩ := Option.map_eq_some_iff.mp hs
  have henv := Sock.potential_env he
  have hsum := sum_replace (hi.handlers c h hh) (f := w.connWork)
    (g := World.connWork { w with apps := Function.update w.apps c x }) fun c' hc' =>
      connWork_congr rfl rfl (Function.update_of_ne hc' _ _)
  have hstreams : World.streamsWork { w with apps := Function.update w.apps c x } = w.streamsWork := rfl
  have hloops : World.loopsWork { w with apps := Function.update w.apps c x } = w.loopsWork := rfl
  have hbefore : w.connWork c = h.work w.client.cfg.connectionRetries.toNat + (w.apps c).potential := by
    simp only [connWork, hh]
  have hafter : World.connWork { w with apps := Function.update w.apps c x } c =
      h.work w.client.cfg.connectionRetries.toNat + x.potential := by
    simp only [connWork, hh, Function.update_self]
  rw [hbefore, hafter] at hsum
  simp only [work, connsWork, hstreams, hloops]
  omega

/-- A change to an open stream alone. -/
theorem work_channel {S : Finset ConnId} {w w' : World} {n : StreamId} {ch : Channel}
    (hw' : w' = { w with channels := Function.update w.channels n ch }) (hlt : n < w.client.streams) :
    w'.work S + ((w.channels n).up.potential + (w.channels n).down.potential + (w.channels n).dest.potential) =
      w.work S + (ch.up.potential + ch.down.potential + ch.dest.potential) := by
  subst hw'
  have hsum := streamsWork_replace (w := w) (v := { w with channels := Function.update w.channels n ch }) rfl rfl
    (fun _ _ => rfl) hlt
  have hconns : World.connsWork S { w with channels := Function.update w.channels n ch } = w.connsWork S := rfl
  have hloops : World.loopsWork { w with channels := Function.update w.channels n ch } = w.loopsWork := rfl
  simp only [streamWork, serving, Function.update_self] at hsum
  simp only [work, hconns, hloops]
  omega

/-- A destination, or the network in front of it, makes a step. -/
theorem work_dest {S : Finset ConnId} {w w' : World} {n : StreamId} {e : SockEnv} (hi : Accounted S w)
    (hs : w.step (.dest n e) = some w') : w'.work S + 1 ≤ w.work S + (8 * e.sent.length + e.sends.toNat) := by
  obtain ⟨x, he, hw', haccepted⟩ : ∃ x, (w.channels n).dest.env e = some x ∧
      w' = { w with channels := Function.update w.channels n { w.channels n with dest := x } } ∧
      w.server.streams n ≠ none := by
    simp only [step] at hs
    split at hs
    case h_4 => cases hs
    all_goals
      rename_i hserving
      obtain ⟨x, he, rfl⟩ := Option.map_eq_some_iff.mp hs
      refine ⟨x, he, rfl, ?_⟩
      intro hnone
      simp only [serving, hnone, start_eq] at hserving
      cases hserving
  have henv := Sock.potential_env he
  have hwork := work_channel (S := S) hw' (opened_of_accepted hi.owned haccepted)
  simp only at hwork
  omega

/-- The network delivers on a stream. -/
theorem work_deliver {S : Finset ConnId} {w w' : World} {n : StreamId} {s : Side} {k : Nat} (hi : Accounted S w)
    (hs : w.step (.deliver n s k) = some w') : w'.work S + 1 ≤ w.work S := by
  have hlt : ∀ {h : Half}, 0 < k → k ≤ h.bytes.wire.length → (h = (w.channels n).up ∨ h = (w.channels n).down) →
      n < w.client.streams := by
    intro h hpos hle heq
    by_cases hn : n < w.client.streams
    · exact hn
    · obtain ⟨hup, hdown⟩ := hi.unopened n (Nat.not_lt.mp hn)
      have hempty : h.bytes.wire = [] := by
        rcases heq with rfl | rfl
        · rw [hup]; rfl
        · rw [hdown]; rfl
      rw [hempty] at hle
      exact absurd hpos (Nat.not_lt.mpr hle)
  cases s with
  | client =>
    obtain ⟨h, hd, hw'⟩ := Option.map_eq_some_iff.mp hs
    obtain ⟨hpos, hle, rfl⟩ := Half.deliver_some hd
    have hhalf := Half.potential_deliver _ hpos hle
    have hwork := work_channel (S := S) hw'.symm (hlt hpos hle (Or.inl rfl))
    simp only at hwork
    omega
  | server =>
    obtain ⟨h, hd, hw'⟩ := Option.map_eq_some_iff.mp hs
    obtain ⟨hpos, hle, rfl⟩ := Half.deliver_some hd
    have hhalf := Half.potential_deliver _ hpos hle
    have hwork := work_channel (S := S) hw'.symm (hlt hpos hle (Or.inr rfl))
    simp only at hwork
    omega

/-! ## The calls of the handlers -/

/-- A handler of the client makes a call. -/
theorem work_clientCall {S : Finset ConnId} {w w' : World} {c : ConnId} {n : StreamId} {io : Client.RelayIo} {app : Sock}
    {ch : Channel} {header : QpepHeader} {r : Client.Relaying} (hi : Accounted S w) (hr : w.relaying c = some (header, n, r))
    (hs : w.clientCall c n io app ch = some w') : ∃ r', r.step io = some r' ∧
      w'.work S + (r.work header.toBytes.length + (w.apps c).potential +
          ((w.channels n).up.potential + (w.channels n).down.potential + (w.channels n).dest.potential)) =
        w.work S + (r'.work header.toBytes.length + app.potential +
          (ch.up.potential + ch.down.potential + ch.dest.potential)) := by
  obtain ⟨h, r', hh, rfl, hpc, hstep, hw'⟩ := clientCall_some hr hs
  refine ⟨r', hstep, ?_⟩
  have hclient : w'.client = w.client.set c { h with pc := .relay n r' } := by rw [hw']
  have hlt := hi.owned.streams.below c h n r hh hpc
  have hconns := sum_replace (hi.handlers c h hh) (f := w.connWork) (g := w'.connWork) fun c' hc' =>
    connWork_congr (by rw [hclient]; simp [hc']) (by rw [hclient]; rfl) (by rw [hw']; exact Function.update_of_ne hc' _ _)
  have hstreams := streamsWork_replace (w := w) (v := w') (by rw [hclient]; rfl) (by rw [hw']) (fun _ _ => by rw [hw']) hlt
  have hloops : w'.loopsWork = w.loopsWork :=
    loopsWork_congr (by rw [hclient]; rfl) (by rw [hclient]; rfl) (by rw [hw']) (by rw [hw']) (by rw [hw'])
  have hbefore : w.connWork c = r.work h.header.toBytes.length + (w.apps c).potential := by
    simp only [connWork, hh, Client.Handler.work, hpc]
  have hafter : w'.connWork c = r'.work h.header.toBytes.length + app.potential := by
    simp [connWork, hw', Client.set, Client.Handler.work]
  have hnew : w'.streamWork n = ch.up.potential + ch.down.potential + ch.dest.potential + (w.serving n).work +
      (w.server.streams n).isNone.toNat := by
    simp [streamWork, serving, hw']
  rw [hbefore, hafter] at hconns
  rw [hnew] at hstreams
  simp only [streamWork] at hstreams
  simp only [work, connsWork, hloops] at hconns ⊢
  omega

/-- A handler of the server makes a call. -/
theorem work_serverCall {S : Finset ConnId} {w w' : World} {n : StreamId} {io : Server.ServerIo} {ch : Channel}
    (hi : Accounted S w) (hs : w.serverCall n io ch = some w') : ∃ x, (w.serving n).step io = some x ∧
      w'.work S + ((w.serving n).work + ((w.channels n).up.potential + (w.channels n).down.potential +
          (w.channels n).dest.potential)) =
        w.work S + (x.work + (ch.up.potential + ch.down.potential + ch.dest.potential)) := by
  obtain ⟨hstep, hother, haccepted, hclient, happs, hchannels⟩ := serverCall_some hs
  refine ⟨_, hstep, ?_⟩
  have hlt := opened_of_accepted hi.owned haccepted
  have hconns : w'.connsWork S = w.connsWork S :=
    connsWork_congr fun c => connWork_congr (by rw [hclient]) (by rw [hclient]) (by rw [happs])
  have hstreams := streamsWork_replace (w := w) (v := w') (by rw [hclient]) hchannels hother hlt
  obtain ⟨s, hx, hw'⟩ := Option.map_eq_some_iff.mp hs
  have hserver : w'.server = s := by rw [← hw']
  have hloops : w'.loopsWork = w.loopsWork := by
    cases Server.ServerAux.move_of_step hx with
    | handler _ _ x h hx' hh =>
      exact loopsWork_congr (by rw [hclient]) (by rw [hclient]) (by rw [hserver]) (by rw [hserver]) (by rw [hserver])
  have hsome : (w'.server.streams n).isNone.toNat = (w.server.streams n).isNone.toNat := by
    cases Server.ServerAux.move_of_step hx with
    | handler _ _ x h hx' hh => simp [hserver, hx']
  have hnew : w'.streamWork n = ch.up.potential + ch.down.potential + ch.dest.potential + (w'.serving n).work +
      (w.server.streams n).isNone.toNat := by
    simp [streamWork, hchannels, hsome]
  rw [hnew] at hstreams
  simp only [streamWork] at hstreams
  simp only [work, hconns, hloops]
  omega

/-- A goroutine makes a step on what its side holds. -/
theorem work_loop {down : Bool} {p p' : Port} {n : LoopName} {ev : LoopEv} {io : LoopIo} {r r' : Relay}
    (hp : p.loop down (relayTask n) (r.loop n) ev = some (p', io)) (hr : r.step n io = some r') :
    p'.potential + r'.work + 1 ≤ p.potential + r.work := by
  obtain ⟨x, hm, rfl⟩ := loop_iff_move.mp ⟨io, hp, hr⟩
  have hmove := hm.potential
  have hset := Relay.work_setLoop r n x
  omega

/-- A step in the handling of a stream that reads its header. -/
theorem work_serves {h x : Server.StreamHandler} {bs : List UInt8} {er : Option IoErr} (hk : h.Known)
    (hs : h.step (.read bs er) = some x) : x.work + er.isSome.toNat ≤ h.work := by
  cases (serves_of_step hk hs).1 <;> simp [Server.StreamHandler.work]

/-- The two cancels of a stream. -/
theorem work_cancels {h x : Server.StreamHandler} {io : Server.ServerIo} (hk : h.Known)
    (hio : io = .cancelRead ∨ io = .cancelWrite)
    (hs : h.step io = some x) : x.work + 1 ≤ h.work := by
  have hserves := (serves_of_step hk hs).1
  rcases hio with rfl | rfl <;> cases hserves <;> simp [Server.StreamHandler.work]

/-- Every step of the proxy is paid for: by what is left to do, by what an accepted connection brings, or by what an
endpoint sends; only the failure of a session costs nothing. -/
theorem work_step {S : Finset ConnId} {w w' : World} {a : Act} (hi : Accounted S w)
    (ha : ∀ c header, a = .client (.accept c header) → c ∈ S) (hs : w.step a = some w') :
    w'.work S + 1 ≤ w.work S + (a.admits w.client.cfg.connectionRetries.toNat + a.sessionFails.toNat +
      (8 * a.sent.length + a.sends.toNat)) := by
  cases a with
  | client b =>
    have hwork := work_clientStep hi hs fun c header hb => ha c header (hb ▸ rfl)
    omega
  | server b =>
    have hwork := work_serverStep (S := S) hs
    omega
  | app c e =>
    have hwork := work_app hi hs
    simp only [Act.sent, Act.sends]
    omega
  | dest n e =>
    have hwork := work_dest hi hs
    simp only [Act.sent, Act.sends]
    omega
  | deliver n s k =>
    have hwork := work_deliver hi hs
    omega
  | writeHeader c k ew =>
    simp only [step] at hs
    split at hs
    · rename_i header n r hr
      obtain ⟨h, hw, hcall⟩ := Option.bind_eq_some_iff.mp hs
      obtain ⟨rfl, hk, -⟩ := Half.write_some hw
      obtain ⟨r', hstep, hwork⟩ := work_clientCall hi hr hcall
      have hpush := Half.potential_push (w.channels n).up (header.toBytes.take k) ((w.channels n).up.dead || ew.isSome)
      rw [List.length_take] at hpush
      cases r with
      | header =>
        cases hstep
        simp only [Client.Relaying.work, Relay.work_start] at hwork
        omega
      | wait r => cases hstep
      | returned r => cases hstep
    · cases hs
  | clientLoop c name ev =>
    simp only [step] at hs
    split at hs
    · rename_i header n r hr
      obtain ⟨⟨p, io⟩, hp, hcall⟩ := Option.bind_eq_some_iff.mp hs
      obtain ⟨r', hstep, hwork⟩ := work_clientCall hi hr hcall
      obtain ⟨r₁, hr₁, rfl⟩ := Option.map_eq_some_iff.mp hstep
      rw [Link.LinkAux.client_task_eq] at hp
      have hloop := work_loop hp hr₁
      simp only [Client.Relaying.work, Port.potential] at hloop hwork
      omega
    · cases hs
  | close c =>
    simp only [step] at hs
    split at hs
    · rename_i header n r hr
      obtain ⟨r', hstep, hwork⟩ := work_clientCall hi hr hs
      have happ : (w.apps c).close.potential = (w.apps c).potential := rfl
      have hup : (w.channels n).up.close.potential = (w.channels n).up.potential := rfl
      cases r with
      | header => cases hstep
      | returned r => cases hstep
      | wait r =>
        simp only [Client.Relaying.step, Option.ite_none_right_eq_some, Option.some.injEq] at hstep
        obtain ⟨-, rfl⟩ := hstep
        simp only [Client.Relaying.work, happ, hup] at hwork
        omega
    · cases hs
  | readHeader n k er =>
    obtain ⟨⟨bs, h⟩, hread, hcall⟩ := Option.bind_eq_some_iff.mp hs
    obtain ⟨rfl, rfl, hle, hne⟩ := Half.read_length hread
    obtain ⟨x, hstep, hwork⟩ := work_serverCall hi hcall
    have hserves := work_serves (hi.known n) hstep
    have hpull := Half.potential_pull _ k hle
    have hpaid : 1 ≤ 4 * k + er.isSome.toNat := by
      cases er with
      | none =>
        have hne' := hne rfl
        rw [Ne, List.take_eq_nil_iff, not_or] at hne'
        omega
      | some e => simp
    simp only at hwork
    omega
  | dialTimeout n ok =>
    simp only [step] at hs
    split at hs
    · rename_i h hserving
      obtain ⟨x, hstep, hwork⟩ := work_serverCall hi hs
      have hless : x.work + 1 ≤ (w.serving n).work := by
        rw [hserving] at hstep ⊢
        cases ok <;> cases hstep <;> simp [Server.StreamHandler.work]
      simp only at hwork
      omega
    · cases hs
  | serverLoop n name ev =>
    simp only [step] at hs
    split at hs
    · rename_i h r hserving
      obtain ⟨⟨p, io⟩, hp, hcall⟩ := Option.bind_eq_some_iff.mp hs
      obtain ⟨x, hstep, hwork⟩ := work_serverCall hi hcall
      rw [hserving] at hstep hwork
      obtain ⟨r₁, hr₁, rfl⟩ := Option.map_eq_some_iff.mp hstep
      rw [Link.LinkAux.server_task_eq] at hp
      have hloop := work_loop hp hr₁
      simp only [Server.StreamHandler.work, Port.potential] at hloop hwork
      omega
    · cases hs
  | cancelRead n =>
    obtain ⟨x, hstep, hwork⟩ := work_serverCall hi hs
    have hless := work_cancels (hi.known n) (Or.inl rfl) hstep
    have hup : (w.channels n).up.cancelRead.potential = (w.channels n).up.potential := rfl
    simp only [hup] at hwork
    omega
  | cancelWrite n =>
    obtain ⟨x, hstep, hwork⟩ := work_serverCall hi hs
    have hless := work_cancels (hi.known n) (Or.inr rfl) hstep
    have hdown : (w.channels n).down.cancelWrite.potential ≤ (w.channels n).down.potential := by
      simp only [Half.potential, Half.cancelWrite, Fifo.abandon]
      split <;> simp
    simp only at hwork
    omega

/-! ## What is summed up is all there is -/

/-- What a step leaves: no handler comes into being but by an accept, a stream that is not opened yet stays as it is, and
the handler of every stream is at a known place. -/
structure Leaves (w w' : World) (a : Act) : Prop where
  handlers : ∀ c, w'.client.handlers c ≠ none → w.client.handlers c ≠ none ∨ ∃ header, a = .client (.accept c header)
  unopened : ∀ n, w'.client.streams ≤ n → w'.channels n = w.channels n
  known : ∀ n, (w'.serving n).Known

/-- A change to an open stream leaves the rest. -/
theorem leaves_channel {S : Finset ConnId} {w w' : World} {a : Act} {n : StreamId} {ch : Channel} (hi : Accounted S w)
    (hw' : w' = { w with channels := Function.update w.channels n ch }) (hlt : n < w.client.streams) : Leaves w w' a := by
  subst hw'
  refine ⟨fun c hc => Or.inl hc, ?_, hi.known⟩
  intro m hm
  have hne : m ≠ n := fun he => absurd (he ▸ hlt) (Nat.not_lt.mpr hm)
  exact Function.update_of_ne hne _ _

theorem leaves_clientCall {S : Finset ConnId} {w w' : World} {a : Act} {c : ConnId} {n : StreamId} {io : Client.RelayIo}
    {app : Sock} {ch : Channel} {header : QpepHeader} {r : Client.Relaying} (hi : Accounted S w)
    (hr : w.relaying c = some (header, n, r)) (hs : w.clientCall c n io app ch = some w') : Leaves w w' a := by
  obtain ⟨h, r', hh, -, hpc, -, rfl⟩ := clientCall_some hr hs
  have hlt := hi.owned.streams.below c h n r hh hpc
  refine ⟨?_, ?_, hi.known⟩
  · intro c' hc'
    by_cases he : c' = c
    · exact Or.inl (by simp [he, hh])
    · simp only [set_handlers, if_neg he] at hc'
      exact Or.inl hc'
  · intro m hm
    have hm' : w.client.streams ≤ m := hm
    have hne : m ≠ n := fun he => absurd (he ▸ hlt) (Nat.not_lt.mpr hm')
    exact Function.update_of_ne hne _ _

theorem leaves_serverCall {S : Finset ConnId} {w w' : World} {a : Act} {n : StreamId} {io : Server.ServerIo} {ch : Channel}
    (hi : Accounted S w) (hs : w.serverCall n io ch = some w') : Leaves w w' a := by
  obtain ⟨hstep, hother, haccepted, hclient, -, hchannels⟩ := serverCall_some hs
  have hlt := opened_of_accepted hi.owned haccepted
  refine ⟨fun c hc => Or.inl (hclient ▸ hc), ?_, ?_⟩
  · intro m hm
    rw [hclient] at hm
    have hne : m ≠ n := fun he => absurd (he ▸ hlt) (Nat.not_lt.mpr hm)
    rw [hchannels, Function.update_of_ne hne]
  · intro m
    by_cases hm : m = n
    · subst hm
      exact (serves_of_step (hi.known m) hstep).2
    · simp only [serving, hother m hm]
      exact hi.known m

/-- Around a handler only its own stream changes. -/
theorem after_channels (w : World) (c : ConnId) (m : Client) (n : StreamId) :
    (w.after c m).channels n = w.channels n ∨ ∃ h r, m.handlers c = some h ∧ h.pc = .relay n r := by
  unfold after
  split
  · exact Or.inl rfl
  split
  · rename_i header k d s hh
    by_cases hn : n = k
    · subst hn
      exact Or.inr ⟨_, .header, hh, rfl⟩
    · exact Or.inl (Function.update_of_ne hn _ _)
  · exact Or.inl rfl
  · exact Or.inl rfl

/-- What a step of the client that is no call leaves. -/
theorem leaves_clientStep {S : Finset ConnId} {w w' : World} {b : Client.Act} (hi : Accounted S w)
    (hs : w.clientStep b = some w') : Leaves w w' (.client b) := by
  obtain ⟨hclient, hserver⟩ := client_of_clientStep hs
  refine ⟨?_, ?_, ?_⟩
  · intro c hc
    by_cases hnone : w.client.handlers c = none
    · obtain ⟨header, rfl, -⟩ := handlers_enter hclient hnone hc
      exact Or.inr ⟨header, rfl⟩
    · exact Or.inl hnone
  · intro n hn
    have howned := owned_step hi.owned (a := .client b) hs
    have hafter : ∀ c ha, b = .handler c ha → w'.channels n = w.channels n := by
      rintro c ha rfl
      have he : w' = w.after c w'.client := by
        cases ha with
        | relay io => cases hs
        | _ =>
          obtain ⟨m, -, rfl⟩ := Option.map_eq_some_iff.mp hs
          exact congrArg (w.after c) (after_client w c m).symm
      rw [he]
      rcases after_channels w c w'.client n with hsame | ⟨h, r, hh, hpc⟩
      · exact hsame
      · exact absurd (howned.streams.below c h n r hh hpc) (Nat.not_lt.mpr hn)
    cases b with
    | handler c ha => exact hafter c ha rfl
    | _ =>
      obtain ⟨m, -, rfl⟩ := Option.map_eq_some_iff.mp hs
      rfl
  · intro n
    simp only [serving, hserver]
    exact hi.known n

theorem leaves_step {S : Finset ConnId} {w w' : World} {a : Act} (hi : Accounted S w) (hs : w.step a = some w') :
    Leaves w w' a := by
  cases a with
  | client b => exact leaves_clientStep hi hs
  | server b =>
    obtain ⟨hno, -, s, hx, rfl⟩ := server_of_serverStep hs
    refine ⟨fun c hc => Or.inl hc, fun _ _ => rfl, ?_⟩
    intro n
    have hview : World.serving { w with server := s } n = w.serving n := by
      rcases streams_of_step hx with ⟨-, hst⟩ | ⟨i, m, session, -, hnone, hst⟩ | ⟨m, io, _, _, rfl, -⟩
      · simp only [serving, hst]
      · by_cases hm : n = m
        · subst hm
          simp [serving, hst, hnone, Server.Stream.start]
        · simp only [serving, hst, Function.update_of_ne hm]
      · exact absurd rfl (hno m io)
    exact hview ▸ hi.known n
  | app c e =>
    simp only [step, Option.ite_none_right_eq_some] at hs
    obtain ⟨x, -, rfl⟩ := Option.map_eq_some_iff.mp hs.2
    exact ⟨fun c hc => Or.inl hc, fun _ _ => rfl, hi.known⟩
  | dest n e =>
    simp only [step] at hs
    split at hs
    case h_4 => cases hs
    all_goals
      rename_i hserving
      obtain ⟨x, he, hw'⟩ := Option.map_eq_some_iff.mp hs
      refine leaves_channel hi hw'.symm (opened_of_accepted hi.owned ?_)
      intro hnone
      simp only [serving, hnone, start_eq] at hserving
      cases hserving
  | deliver n s k =>
    have hlt : n < w.client.streams := by
      by_cases hn : n < w.client.streams
      · exact hn
      · exfalso
        obtain ⟨hup, hdown⟩ := hi.unopened n (Nat.not_lt.mp hn)
        cases s with
        | client =>
          obtain ⟨h, hd, -⟩ := Option.map_eq_some_iff.mp hs
          obtain ⟨hpos, hle, -⟩ := Half.deliver_some hd
          rw [hup] at hle
          exact absurd hpos (Nat.not_lt.mpr hle)
        | server =>
          obtain ⟨h, hd, -⟩ := Option.map_eq_some_iff.mp hs
          obtain ⟨hpos, hle, -⟩ := Half.deliver_some hd
          rw [hdown] at hle
          exact absurd hpos (Nat.not_lt.mpr hle)
    cases s <;> obtain ⟨h, -, hw'⟩ := Option.map_eq_some_iff.mp hs <;> exact leaves_channel hi hw'.symm hlt
  | writeHeader c k ew =>
    simp only [step] at hs
    split at hs
    · rename_i header n r hr
      obtain ⟨h, -, hcall⟩ := Option.bind_eq_some_iff.mp hs
      exact leaves_clientCall hi hr hcall
    · cases hs
  | clientLoop c name ev =>
    simp only [step] at hs
    split at hs
    · rename_i header n r hr
      obtain ⟨⟨p, io⟩, -, hcall⟩ := Option.bind_eq_some_iff.mp hs
      exact leaves_clientCall hi hr hcall
    · cases hs
  | close c =>
    simp only [step] at hs
    split at hs
    · rename_i header n r hr
      exact leaves_clientCall hi hr hs
    · cases hs
  | readHeader n k er =>
    obtain ⟨⟨bs, h⟩, -, hcall⟩ := Option.bind_eq_some_iff.mp hs
    exact leaves_serverCall hi hcall
  | dialTimeout n ok =>
    simp only [step] at hs
    split at hs
    · exact leaves_serverCall hi hs
    · cases hs
  | serverLoop n name ev =>
    simp only [step] at hs
    split at hs
    · obtain ⟨⟨p, io⟩, -, hcall⟩ := Option.bind_eq_some_iff.mp hs
      exact leaves_serverCall hi hcall
    · cases hs
  | cancelRead n => exact leaves_serverCall hi hs
  | cancelWrite n => exact leaves_serverCall hi hs

theorem accounted_init (S : Finset ConnId) (cfg : ClientConfig) : Accounted S (init cfg) :=
  ⟨owned_init cfg, fun _ _ h => (by cases h), fun _ _ => ⟨rfl, rfl⟩, fun _ => known_start⟩

/-- Every step keeps the accounts, if the connections it accepts are in them. -/
theorem accounted_step {S : Finset ConnId} {w w' : World} {a : Act} (hi : Accounted S w)
    (ha : ∀ c header, a = .client (.accept c header) → c ∈ S) (hs : w.step a = some w') : Accounted S w' := by
  have hleaves := leaves_step hi hs
  have hmono : w.client.streams ≤ w'.client.streams := by
    rcases client_of_step hs with h | ⟨b, hb⟩
    · exact Nat.le_of_eq (congrArg Client.streams h).symm
    · exact streams_mono hb
  refine ⟨owned_step hi.owned hs, ?_, ?_, hleaves.known⟩
  · intro c h hh
    rcases hleaves.handlers c (by simp [hh]) with hsome | ⟨header, he⟩
    · obtain ⟨h₀, hh₀⟩ := Option.ne_none_iff_exists'.mp hsome
      exact hi.handlers c h₀ hh₀
    · exact ha c header he
  · intro n hn
    rw [hleaves.unopened n hn]
    exact hi.unopened n (Nat.le_trans hmono hn)

end WorldAux

end World

end Qpep
