import Qpep.Link

/-!
# The two processes and the network between them

The client and the server as they are, with the TCP connection of every handler of the client and what is behind every
stream that the client opened. Any number of connections make their steps in any order. A stream reaches the server on the
session it was opened on; the server may accept it at any time after that, and its sessions are those that the client
dialled.

As in `Link`, a call is a step of the handler that makes it (`clientCall`, `serverCall`) together with an outcome that the
connection or the stream can answer.
-/

namespace Qpep

open Net Io

/-- What is behind a stream: its session, its two directions, the TCP connection to the destination, and for the record the
bytes of the stream that the Write of the header wrote and those that the Reads of the header took, and the addresses
dialled for it. -/
structure Channel where
  session : SessionId
  up : Half
  down : Half
  dest : Sock
  headerOut : List UInt8
  headerIn : List UInt8
  dialled : List TCPAddr
deriving DecidableEq, Repr

/-- A stream just opened on a session. -/
def Channel.fresh (session : SessionId) : Channel := ⟨session, Half.fresh, Half.fresh, Sock.fresh, [], [], []⟩

/-- The client, the server, the TCP connections that the client accepted and the streams that it opened. -/
structure World where
  client : Client
  server : Server
  apps : ConnId → Sock
  channels : StreamId → Channel

namespace World

/-- Before the first connection. -/
def init (cfg : ClientConfig) : World := ⟨Client.init cfg, Server.init, fun _ => Sock.fresh, fun _ => .fresh 0⟩

/-- The session of a stream is lost. -/
def lost (w : World) (n : StreamId) : Bool := w.client.failed (w.channels n).session

/-- Where the server stands with a stream; one that it has not accepted yet is at its start. -/
def serving (w : World) (n : StreamId) : Server.StreamHandler :=
  match w.server.streams n with
  | some x => x.handler
  | none => .start

/-- The steps: of the two processes, of the endpoints, of the network. -/
inductive Act where
  /-- a connection is accepted, a session fails, or a handler gets on with getting a stream -/
  | client (a : Client.Act)
  /-- a session or a stream is accepted -/
  | server (a : Server.Act)
  | app (c : ConnId) (e : SockEnv)
  | dest (n : StreamId) (e : SockEnv)
  | deliver (n : StreamId) (s : Side) (k : Nat)
  | writeHeader (c : ConnId) (k : Nat) (ew : Option IoErr)
  | clientLoop (c : ConnId) (n : LoopName) (ev : LoopEv)
  | close (c : ConnId)
  | readHeader (n : StreamId) (k : Nat) (er : Option IoErr)
  | dialTimeout (n : StreamId) (ok : Bool)
  | serverLoop (n : StreamId) (name : LoopName) (ev : LoopEv)
  | cancelRead (n : StreamId)
  | cancelWrite (n : StreamId)
deriving DecidableEq, Repr

/-- What a step of a handler that had no stream does around it: a stream is opened, or the handler returns and its TCP
connection is closed, or the process ends, and with it all its TCP connections. -/
def after (w : World) (c : ConnId) (m : Client) : World :=
  if m.crashed then { w with client := m, apps := fun c => (w.apps c).fault }
  else match m.handlers c with
    | some ⟨_, .relay n .header, _, some s⟩ => { w with client := m, channels := Function.update w.channels n (.fresh s) }
    | some ⟨_, .returned, _, _⟩ => { w with client := m, apps := Function.update w.apps c (w.apps c).close }
    | _ => { w with client := m }

/-- A step of the client that is no call on a connection or a stream. -/
def clientStep (w : World) : Client.Act → Option World
  | .accept c header =>
    (w.client.step (.accept c header)).map fun m => { w with client := m, apps := Function.update w.apps c Sock.fresh }
  | .sessionFail s => (w.client.step (.sessionFail s)).map fun m => { w with client := m }
  | .handler _ (.relay _) => none
  | .handler c a => (w.client.step (.handler c a)).map (w.after c)

/-- A step of the server that is no call on a connection or a stream: it accepts sessions that were dialled, and on each the
streams that were opened on it. -/
def serverStep (w : World) : Server.Act → Option World
  | .acceptSession session =>
    if ∀ s ∈ session, s < w.client.sessions then
      (w.server.step (.acceptSession session)).map fun x => { w with server := x }
    else none
  | .goListenQuicConn => (w.server.step .goListenQuicConn).map fun x => { w with server := x }
  | .acceptStream i stream =>
    if ∀ n ∈ stream, n < w.client.streams ∧ ∀ l ∈ w.server.loops[i]?, l.session = (w.channels n).session then
      (w.server.step (.acceptStream i stream)).map fun x => { w with server := x }
    else none
  | .handler _ _ => none

/-- The handler of connection `c` makes a call that leaves the TCP connection and its stream so. -/
def clientCall (w : World) (c : ConnId) (n : StreamId) (io : Client.RelayIo) (app : Sock) (ch : Channel) : Option World :=
  (w.client.step (.handler c (.relay io))).map fun m =>
    { w with client := m, apps := Function.update w.apps c app, channels := Function.update w.channels n ch }

/-- The handler of stream `n` makes a call that leaves the stream so. -/
def serverCall (w : World) (n : StreamId) (io : Server.ServerIo) (ch : Channel) : Option World :=
  (w.server.step (.handler n io)).map fun s => { w with server := s, channels := Function.update w.channels n ch }

/-- The stream of the connection, and where its handler stands behind that. -/
def relaying (w : World) (c : ConnId) : Option (QpepHeader × StreamId × Client.Relaying) :=
  match w.client.handlers c with
  | some ⟨header, .relay n r, _, _⟩ => some (header, n, r)
  | _ => none

/-- One step. -/
def step (w : World) : Act → Option World
  | .client a => w.clientStep a
  | .server a => w.serverStep a
  | .app c e =>
    if (w.client.handlers c).isSome then ((w.apps c).env e).map fun s => { w with apps := Function.update w.apps c s } else none
  | .dest n e =>
    match w.serving n with
    | .wait _ _ | .cancelWrite _ _ | .returned (some _) =>
      ((w.channels n).dest.env e).map fun s =>
        { w with channels := Function.update w.channels n { w.channels n with dest := s } }
    | _ => none
  | .deliver n .client k =>
    ((w.channels n).up.deliver k).map fun h => { w with channels := Function.update w.channels n { w.channels n with up := h } }
  | .deliver n .server k =>
    ((w.channels n).down.deliver k).map fun h =>
      { w with channels := Function.update w.channels n { w.channels n with down := h } }
  | .writeHeader c k ew =>
    match w.relaying c with
    | some (header, n, _) => do
      let h ← (w.channels n).up.write (w.lost n) header.toBytes k ew
      w.clientCall c n (.writeHeader k ew) (w.apps c) { w.channels n with up := h, headerOut := header.toBytes.take k }
    | none => none
  | .clientLoop c name ev =>
    match w.relaying c with
    | some (_, n, .wait r) => do
      let ch := w.channels n
      let (p, io) ← Port.loop ⟨w.apps c, ch.up, ch.down⟩ (w.lost n) (Client.task name) (r.loop name) ev
      w.clientCall c n (.loop name io) p.sock { ch with up := p.out, down := p.inn }
    | _ => none
  | .close c =>
    match w.relaying c with
    | some (_, n, _) => w.clientCall c n .close (w.apps c).close { w.channels n with up := (w.channels n).up.close }
    | none => none
  | .readHeader n k er => do
    let (bs, h) ← (w.channels n).up.read (w.lost n) k er
    w.serverCall n (.read bs er) { w.channels n with up := h, headerIn := (w.channels n).headerIn ++ bs }
  | .dialTimeout n ok =>
    match w.serving n with
    | .dial h => w.serverCall n (.dialTimeout ok) { w.channels n with dialled := (w.channels n).dialled ++ [h.destAddr] }
    | _ => none
  | .serverLoop n name ev =>
    match w.serving n with
    | .wait _ r => do
      let ch := w.channels n
      let (p, io) ← Port.loop ⟨ch.dest, ch.down, ch.up⟩ (w.lost n) (Server.task name) (r.loop name) ev
      w.serverCall n (.loop name io) { ch with dest := p.sock, down := p.out, up := p.inn }
    | _ => none
  | .cancelRead n => w.serverCall n .cancelRead { w.channels n with up := (w.channels n).up.cancelRead }
  | .cancelWrite n => w.serverCall n .cancelWrite { w.channels n with down := (w.channels n).down.cancelWrite }

/-! ## What quic-go adds -/

/-- How many streams were opened on a session. -/
def openedOn (w : World) (s : SessionId) : Nat := (List.range w.client.streams).countP fun n => (w.channels n).session == s

/-- What a step leaves open and quic-go does not: a stream is opened on every session that has had less than
`MaxIncomingStreams` of them, and is not opened on one that has failed; and the streams of a session are accepted in the
order in which they were opened. -/
def permits (w : World) : Act → Bool
  | .client (.handler c (.openStream ok)) | .client (.handler c (.openStreamSync ok)) =>
    match (w.client.handlers c).map Client.Handler.pc with
    | some (.openingStream s) | some (.openingStreamSync s) =>
      if ok then decide (w.openedOn s < maxIncomingStreams) else w.client.failed s
    | _ => true
  | .server (.acceptStream _ (some n)) =>
    (List.range n).all fun m => (w.channels m).session != (w.channels n).session || (w.server.streams m).isSome
  | _ => true

/-! ## One connection -/

/-- What belongs to a connection that has the stream `n`. -/
def streamLink (w : World) (c : ConnId) (header : QpepHeader) (n : StreamId) (r : Client.Relaying) : Link :=
  let ch := w.channels n
  ⟨header, .stream r, w.serving n, w.apps c, ch.dest, ch.up, ch.down, w.lost n, ch.headerOut, ch.headerIn, ch.dialled⟩

/-- What belongs to a connection, from its handler. -/
def link (w : World) (c : ConnId) (h : Client.Handler) : Link :=
  match h.pc with
  | .relay n r => w.streamLink c h.header n r
  | .returned => { Link.init h.header with client := .dropped, app := w.apps c }
  | _ => { Link.init h.header with app := w.apps c }

/-- One connection, once it has been accepted. -/
def view (w : World) (c : ConnId) : Option Link := (w.client.handlers c).map (w.link c)

end World

end Qpep
