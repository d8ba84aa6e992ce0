import Mathlib.Logic.Function.Basic
import Qpep.Relay
import Qpep.Shared.QpepHeader

/-!
# The server

`ListenQuicSession` accepts sessions and starts a `ListenQuicConn` for each, which accepts the streams of its session and
starts a `HandleQuicStream` for each. That one reads the header and starts `handleTCPConn`, which dials the destination,
copies in both directions until both goroutines are done, and then cancels both directions of the stream. The two functions
handle one stream one after the other, so where they stand is one `StreamHandler`.
-/

namespace Qpep

open Io

namespace Server

/-! ## Handling a stream -/

/-- The goroutine that copies from the stream to the destination. -/
def streamQUICtoTCP : CopyTask := { src := .quic, dst := .tcp, closes := .tcp }

/-- The goroutine that copies from the destination to the stream. -/
def streamTCPtoQUIC : CopyTask := { src := .tcp, dst := .quic, closes := .tcp }

/-- The goroutines of the server. -/
def task : LoopName → CopyTask
  | .streamTCPtoQUIC => streamTCPtoQUIC
  | .streamQUICtoTCP => streamQUICtoTCP

/-- Where the handling of one stream stands. -/
inductive StreamHandler where
  /-- `HandleQuicStream`, in `GetQpepHeader`, with what is left of it to run -/
  | header (p : ReadProg (Except IoErr QpepHeader))
  /-- `handleTCPConn`, in `net.DialTimeout` -/
  | dial (header : QpepHeader)
  /-- in `streamWait.Wait()` -/
  | wait (header : QpepHeader) (r : Relay)
  /-- between `stream.CancelRead` and `stream.CancelWrite` -/
  | cancelWrite (header : QpepHeader) (r : Relay)
  /-- returned; with the two goroutines, when there was a connection to the destination -/
  | returned (r : Option Relay)

/-- The calls made in the handling of a stream. -/
inductive ServerIo where
  /-- a Read of `GetQpepHeader` -/
  | read (bs : List UInt8) (er : Option IoErr)
  /-- `net.DialTimeout` -/
  | dialTimeout (ok : Bool)
  | loop (n : LoopName) (io : LoopIo)
  | cancelRead
  | cancelWrite
deriving DecidableEq, Repr

/-- `HandleQuicStream`, once `GetQpepHeader` has come this far: it returns on an error, and otherwise starts `handleTCPConn`. -/
def handleQuicStream : ReadProg (Except IoErr QpepHeader) → StreamHandler
  | .ret (.error _) => .returned none
  | .ret (.ok qpepHeader) => .dial qpepHeader
  | p => .header p

/-- A stream just accepted. -/
def StreamHandler.start : StreamHandler := handleQuicStream getQpepHeader

/-- One step in the handling of a stream: `HandleQuicStream` with its Reads, then `handleTCPConn`. -/
def StreamHandler.step : StreamHandler → ServerIo → Option StreamHandler
  | .header (.read n k), .read bs er => if bs.length ≤ n then some (handleQuicStream (k bs er)) else none
  | .dial h, .dialTimeout ok => if ok then some (.wait h .start) else some (.returned none)
  | .wait h r, .loop n io => (r.step n io).map (.wait h)
  | .wait h r, .cancelRead => if r.isDone then some (.cancelWrite h r) else none
  | .cancelWrite _ r, .cancelWrite => some (.returned (some r))
  | _, _ => none

/-! ## Streams and sessions -/

/-- The server's end of a stream: its session, its handler, and what has been done to it so far: a Read returned `io.EOF`,
`CancelRead` was called, `CancelWrite` was called. -/
structure Stream where
  session : SessionId
  handler : StreamHandler
  readEnded : Bool
  readCancelled : Bool
  writeCancelled : Bool

/-- A stream just accepted on a session. -/
def Stream.start (session : SessionId) : Stream := ⟨session, .start, false, false, false⟩

/-- The call is a Read that finds the end of the stream. -/
def ServerIo.readsEnd : ServerIo → Bool
  | .read _ er => er = some .EOF
  | .loop .streamQUICtoTCP (.io (.read _ er)) => er = some .EOF
  | _ => false

/-- One step in the handling of a stream, and what it does to the stream. -/
def Stream.step (x : Stream) (io : ServerIo) : Option Stream :=
  (x.handler.step io).map fun h =>
    { x with
      handler := h
      readEnded := x.readEnded || io.readsEnd
      readCancelled := x.readCancelled || io = .cancelRead
      writeCancelled := x.writeCancelled || io = .cancelWrite }

/-- Both directions of the stream are over on this side: the receiving one was read to its end or cancelled, the sending one was
cancelled. -/
def Stream.Terminated (x : Stream) : Prop := (x.readEnded = true ∨ x.readCancelled = true) ∧ x.writeCancelled = true

/-- Where `ListenQuicSession` stands. -/
inductive Listener where
  | accept
  /-- with a session in `quicSession`, before `go ListenQuicConn(quicSession)` -/
  | start
  | returned
deriving DecidableEq, Repr

/-- A `ListenQuicConn`: its parameter, and whether it still accepts streams. -/
structure AcceptLoop where
  session : SessionId
  accepting : Bool
deriving DecidableEq, Repr

end Server

/-- The server: `ListenQuicSession`, the package variable `quicSession`, the sessions accepted so far, the `ListenQuicConn`s
in the order in which they were started, the streams, and for the record the stream of each `HandleQuicStream` that was
started. -/
structure Server where
  listener : Server.Listener
  quicSession : Option SessionId
  accepted : SessionId → Bool
  loops : List Server.AcceptLoop
  streams : StreamId → Option Server.Stream
  started : List StreamId

namespace Server

/-- The server before the first session. -/
def init : Server := ⟨.accept, none, fun _ => false, [], fun _ => none, []⟩

/-- The steps of the server. -/
inductive Act where
  /-- line 58: `quicListener.Accept` returns a session, or an error -/
  | acceptSession (session : Option SessionId)
  /-- line 63 -/
  | goListenQuicConn
  /-- line 69: `AcceptStream` of the `i`th loop returns a stream, or an error -/
  | acceptStream (i : Nat) (stream : Option StreamId)
  | handler (stream : StreamId) (io : ServerIo)
deriving DecidableEq, Repr

/-- `ListenQuicSession`, in the call `quicListener.Accept`. -/
def listenQuicSession (s : Server) : Option SessionId → Option Server
  | none => some { s with quicSession := none, listener := .returned }
  | some n =>
    if s.accepted n then none
    else some { s with quicSession := some n, accepted := Function.update s.accepted n true, listener := .start }

/-- `ListenQuicConn`, the `i`th one, in the call `AcceptStream`. -/
def listenQuicConn (s : Server) (i : Nat) (l : AcceptLoop) : Option StreamId → Option Server
  | none => some { s with loops := s.loops.set i { l with accepting := false } }
  | some n =>
    match s.streams n with
    | none => some { s with streams := Function.update s.streams n (some (.start l.session)), started := s.started ++ [n] }
    | some _ => none

/-- One step of the server. -/
def step (s : Server) : Act → Option Server
  | .acceptSession session =>
    match s.listener with
    | .accept => s.listenQuicSession session
    | _ => none
  | .goListenQuicConn =>
    match s.listener, s.quicSession with
    | .start, some n => some { s with loops := s.loops ++ [⟨n, true⟩], listener := .accept }
    | _, _ => none
  | .acceptStream i stream =>
    match s.loops[i]? with
    | some l => if l.accepting then s.listenQuicConn i l stream else none
    | none => none
  | .handler n io =>
    match s.streams n with
    | some x => (x.step io).map fun x' => { s with streams := Function.update s.streams n (some x') }
    | none => none

end Server

end Qpep
