import Qpep.Client
import Qpep.Server

/-!
# One proxied connection

An application and a destination, the client's handler of the connection, the server's handler of its stream, and the network in
between, as one machine. The parts of the client and the server are the ones of the two processes (`Relaying.step`,
`StreamHandler.step`); every call they make is matched with what the TCP connection or the stream can answer.
-/

namespace Qpep

open Net Io

/-- The two processes of the proxy. -/
inductive Side where
  | client
  | server
deriving DecidableEq, Repr

def Side.other : Side → Side
  | .client => .server
  | .server => .client

/-- Where the client's handler of the connection stands: it has no stream yet, it has one, or it has returned without one. -/
inductive ClientEnd where
  | opening
  | stream (r : Client.Relaying)
  | dropped
deriving DecidableEq, Repr

/-- One proxied connection: its header, where the two handlers stand, the TCP connections to the application and to the
destination, the two directions of the stream, and whether its session is lost. For the record: the bytes of the stream that
the Write of the header wrote and those that the Reads of the header took, and the addresses dialled. -/
structure Link where
  header : QpepHeader
  client : ClientEnd
  server : Server.StreamHandler
  app : Sock
  dest : Sock
  up : Half
  down : Half
  sessionDown : Bool
  headerOut : List UInt8
  headerIn : List UInt8
  dialled : List TCPAddr

namespace Link

/-- A connection just accepted by the client. -/
def init (header : QpepHeader) : Link :=
  ⟨header, .opening, .start, Sock.fresh, Sock.fresh, Half.fresh, Half.fresh, false, [], [], []⟩

/-! ## The connection from one side -/

/-- The TCP connection of a side. -/
def sock (l : Link) : Side → Sock
  | .client => l.app
  | .server => l.dest

/-- The direction of the stream that a side writes. -/
def half (l : Link) : Side → Half
  | .client => l.up
  | .server => l.down

/-- The bytes in front of the payload, in the direction that a side writes. -/
def headOut (l : Link) : Side → List UInt8
  | .client => l.headerOut
  | .server => []

/-- The bytes in front of the payload, in the direction that a side reads. -/
def headIn (l : Link) : Side → List UInt8
  | .client => []
  | .server => l.headerIn

/-- The two goroutines of a side, once it has started them. -/
def relay (l : Link) : Side → Option Relay
  | .client => match l.client with
    | .stream (.wait r) | .stream (.returned r) => some r
    | _ => none
  | .server => match l.server with
    | .wait _ r | .cancelWrite _ r | .returned (some r) => some r
    | _ => none

/-- One of the goroutines of a side; before it is started it stands at its start. -/
def loop (l : Link) (s : Side) (n : LoopName) : Loop := ((l.relay s).getD .start).loop n

/-- What a side holds for the connection. -/
def port (l : Link) (s : Side) : Port := ⟨l.sock s, l.half s, l.half s.other⟩

/-- Put back what a side holds. -/
def setPort (l : Link) (s : Side) (p : Port) : Link :=
  match s with
  | .client => { l with app := p.sock, up := p.out, down := p.inn }
  | .server => { l with dest := p.sock, down := p.out, up := p.inn }

/-! ## Steps -/

/-- The steps of one proxied connection. -/
inductive Act where
  | app (e : SockEnv)
  | dest (e : SockEnv)
  /-- the network delivers what a side has written to the stream -/
  | deliver (s : Side) (k : Nat)
  | sessionFail
  /-- the client's handler gets its stream -/
  | openStream
  /-- the client's handler returns without a stream -/
  | drop
  | writeHeader (k : Nat) (ew : Option IoErr)
  | loop (s : Side) (n : LoopName) (ev : LoopEv)
  /-- the client's handler returns -/
  | close
  | readHeader (k : Nat) (er : Option IoErr)
  | dialTimeout (ok : Bool)
  | cancelRead
  | cancelWrite
deriving DecidableEq, Repr

/-- A goroutine of the client makes a step. -/
def clientLoop (l : Link) (r : Relay) (n : LoopName) (ev : LoopEv) : Option Link := do
  let (p, io) ← (l.port .client).loop l.sessionDown (Client.task n) (r.loop n) ev
  let c ← Client.Relaying.step (.wait r) (.loop n io)
  return { l.setPort .client p with client := .stream c }

/-- A goroutine of the server makes a step. -/
def serverLoop (l : Link) (h : QpepHeader) (r : Relay) (n : LoopName) (ev : LoopEv) : Option Link := do
  let (p, io) ← (l.port .server).loop l.sessionDown (Server.task n) (r.loop n) ev
  let x ← Server.StreamHandler.step (.wait h r) (.loop n io)
  return { l.setPort .server p with server := x }

/-- One step of a proxied connection. -/
def step (l : Link) : Act → Option Link
  | .app e => (l.app.env e).map fun s => { l with app := s }
  | .dest e => if (l.relay .server).isSome then (l.dest.env e).map fun s => { l with dest := s } else none
  | .deliver .client k => (l.up.deliver k).map fun h => { l with up := h }
  | .deliver .server k => (l.down.deliver k).map fun h => { l with down := h }
  | .sessionFail => if l.sessionDown then none else some { l with sessionDown := true }
  | .openStream =>
    match l.client with
    | .opening => if l.sessionDown then none else some { l with client := .stream .header }
    | _ => none
  | .drop =>
    match l.client with
    | .opening => some { l with client := .dropped, app := l.app.close }
    | _ => none
  | .writeHeader k ew =>
    match l.client with
    | .stream c => do
      let h ← l.up.write l.sessionDown l.header.toBytes k ew
      let c' ← c.step (.writeHeader k ew)
      return { l with up := h, client := .stream c', headerOut := l.header.toBytes.take k }
    | _ => none
  | .loop .client n ev =>
    match l.client with
    | .stream (.wait r) => l.clientLoop r n ev
    | _ => none
  | .loop .server n ev =>
    match l.server with
    | .wait h r => l.serverLoop h r n ev
    | _ => none
  | .close =>
    match l.client with
    | .stream c => (c.step .close).map fun c' => { l with client := .stream c', up := l.up.close, app := l.app.close }
    | _ => none
  | .readHeader k er => do
    let (bs, h) ← l.up.read l.sessionDown k er
    let x ← l.server.step (.read bs er)
    return { l with up := h, server := x, headerIn := l.headerIn ++ bs }
  | .dialTimeout ok =>
    match l.server with
    | .dial h => (l.server.step (.dialTimeout ok)).map fun x => { l with server := x, dialled := l.dialled ++ [h.destAddr] }
    | _ => none
  | .cancelRead => (l.server.step .cancelRead).map fun x => { l with server := x, up := l.up.cancelRead }
  | .cancelWrite => (l.server.step .cancelWrite).map fun x => { l with server := x, down := l.down.cancelWrite }

end Link

end Qpep
