import Mathlib.Logic.Function.Basic
import Qpep.Go.HostPort
import Qpep.Relay
import Qpep.Shared.QpepHeader

/-!
# The client

`ListenTCPConn` starts one `handleTCPConn` for every accepted TCP connection, and all of them share the package variable
`quicSession`. A handler first gets a stream: with `MultiStream` on it tries the session in `quicSession`, and otherwise, or
when that fails, it calls `openQuicSession`, stores the result in `quicSession` and opens the stream on what it then finds
there. It then writes the header and copies in both directions until both goroutines are done.

The client is a machine whose steps are the atomic steps of the handlers: one read or one write of `quicSession`, one call
with its outcome. Sessions and streams are numbered in the order in which they are opened, so that different ones are
different.
-/

namespace Qpep

open Net Io

/-- `ClientConfig`: the fields the handlers read. -/
structure ClientConfig where
  multiStream : Bool
  connectionRetries : Int
deriving DecidableEq, Repr

/-- `ClientConfig`: the fields that `openQuicSession` makes the address of the gateway of. -/
structure GatewayConfig where
  gatewayHost : List Char
  gatewayPort : Int
deriving DecidableEq, Repr

/-- `QuicClientConfiguration.MaxIncomingStreams`, which the server listens with, too. -/
def maxIncomingStreams : Nat := 40000

/-- `gatewayPath`, the address that `openQuicSession` hands to `quic.DialAddr`. -/
def GatewayConfig.gatewayPath (cfg : GatewayConfig) : List Char := cfg.gatewayHost ++ [':'] ++ itoa cfg.gatewayPort

namespace Client

/-! ## A handler that has a stream -/

/-- The goroutine that copies from the application to the stream. -/
def streamTCPtoQUIC : CopyTask := { src := .tcp, dst := .quic, closes := .tcp }

/-- The goroutine that copies from the stream to the application. -/
def streamQUICtoTCP : CopyTask := { src := .quic, dst := .tcp, closes := .tcp }

/-- The goroutines of the client. -/
def task : LoopName → CopyTask
  | .streamTCPtoQUIC => streamTCPtoQUIC
  | .streamQUICtoTCP => streamQUICtoTCP

/-- Where `handleTCPConn` stands once it has a stream: before the Write of the header, in `streamWait.Wait()`, or returned. -/
inductive Relaying where
  | header
  | wait (r : Relay)
  | returned (r : Relay)
deriving DecidableEq, Repr

/-- The calls of this part of the handler. -/
inductive RelayIo where
  | writeHeader (n : Nat) (ew : Option IoErr)
  | loop (n : LoopName) (io : LoopIo)
  | close
deriving DecidableEq, Repr

/-- `handleTCPConn` from line 118 on. The result of the header's Write is not looked at. `close` is everything behind the wait:
`quicStream.Close()`, and the deferred closes of the stream and of the TCP connection. -/
def Relaying.step : Relaying → RelayIo → Option Relaying
  | .header, .writeHeader _ _ => some (.wait .start)
  | .wait r, .loop n io => (r.step n io).map .wait
  | .wait r, .close => if r.isDone then some (.returned r) else none
  | _, _ => none

/-! ## Handlers -/

/-- Where a `handleTCPConn` stands. -/
inductive Pc where
  /-- at the start, before `MultiStream` and `quicSession != nil` are tested -/
  | entry
  /-- before the evaluation of `quicSession.OpenStream()` -/
  | openStream
  /-- in the call `OpenStream` on this session -/
  | openingStream (s : SessionId)
  /-- in `openQuicSession`, before the loop test with this `i`; has an attempt failed -/
  | openQuicSession (i : Nat) (failed : Bool)
  /-- before `quicSession, err = ...`, with the results of `openQuicSession` -/
  | assign (session : Option SessionId) (failed : Bool)
  /-- before the evaluation of `quicSession.OpenStreamSync(...)` -/
  | openStreamSync
  /-- in the call `OpenStreamSync` on this session -/
  | openingStreamSync (s : SessionId)
  /-- with a stream -/
  | relay (stream : StreamId) (r : Relaying)
  /-- returned without a stream -/
  | returned
deriving DecidableEq, Repr

/-- One `handleTCPConn`: the addresses of its connection, where it stands, and for the record the session its `openQuicSession`
returned and the session its stream was opened on. -/
structure Handler where
  header : QpepHeader
  pc : Pc
  dialled : Option SessionId
  session : Option SessionId
deriving DecidableEq, Repr

/-- A handler just started for a connection accepted from `header.sourceAddr` with the original destination
`header.destAddr`. -/
def Handler.start (header : QpepHeader) : Handler := ⟨header, .entry, none, none⟩

end Client

/-- The client: its configuration, the package variable `quicSession`, how many sessions and streams were opened so far, which
sessions have failed, the handlers, and whether a nil dereference has ended the process. -/
structure Client where
  cfg : ClientConfig
  quicSession : Option SessionId
  sessions : Nat
  streams : Nat
  failed : SessionId → Bool
  handlers : ConnId → Option Client.Handler
  crashed : Bool

namespace Client

/-- The client before the first connection. -/
def init (cfg : ClientConfig) : Client := ⟨cfg, none, 0, 0, fun _ => false, fun _ => none, false⟩

/-- The atomic steps of a handler. -/
inductive HandlerAct where
  /-- lines 85 to 87: test `MultiStream` and `quicSession != nil` -/
  | test
  /-- line 90: read `quicSession` for `OpenStream` -/
  | loadOpenStream
  /-- line 90: `OpenStream` returns, with a stream or an error -/
  | openStream (ok : Bool)
  /-- line 171: one attempt of `quic.DialAddr` -/
  | dialAddr (ok : Bool)
  /-- line 180: the loop of `openQuicSession` is over -/
  | giveUp
  /-- lines 104 to 108: write `quicSession`, return on an error -/
  | store
  /-- line 111: read `quicSession` for `OpenStreamSync` -/
  | loadOpenStreamSync
  /-- line 111: `OpenStreamSync` returns -/
  | openStreamSync (ok : Bool)
  /-- lines 118 to 161 -/
  | relay (io : RelayIo)
deriving DecidableEq, Repr

/-- The steps of the client: a connection is accepted, a session fails, a handler moves. -/
inductive Act where
  | accept (c : ConnId) (header : QpepHeader)
  | sessionFail (s : SessionId)
  | handler (c : ConnId) (a : HandlerAct)
deriving DecidableEq, Repr

/-- Put a handler back. -/
def set (m : Client) (c : ConnId) (h : Handler) : Client := { m with handlers := Function.update m.handlers c (some h) }

/-- A handler gets the next stream, on session `s`. -/
def openOn (m : Client) (c : ConnId) (h : Handler) (s : SessionId) : Client :=
  { m.set c { h with pc := .relay m.streams .header, session := some s } with streams := m.streams + 1 }

/-- `handleTCPConn`: one atomic step of a handler. A method call on a nil session ends the process. On a session that is up
`OpenStream` and `OpenStreamSync` may return either result here; `World.permits` says which one quic-go does return. -/
def handleTCPConn (m : Client) (c : ConnId) (h : Handler) : HandlerAct → Option Client
  | .test =>
    match h.pc with
    | .entry =>
      if m.cfg.multiStream ∧ m.quicSession ≠ none then some (m.set c { h with pc := .openStream })
      else some (m.set c { h with pc := .openQuicSession 0 false })
    | _ => none
  | .loadOpenStream =>
    match h.pc with
    | .openStream =>
      match m.quicSession with
      | none => some { m with crashed := true }
      | some s => some (m.set c { h with pc := .openingStream s })
    | _ => none
  | .openStream ok =>
    match h.pc with
    | .openingStream s =>
      if ok then
        if m.failed s then none else some (m.openOn c h s)
      else some (m.set c { h with pc := .openQuicSession 0 false })
    | _ => none
  | .dialAddr ok =>
    match h.pc with
    | .openQuicSession i _ =>
      if (i : Int) < m.cfg.connectionRetries then
        if ok then
          some { m.set c { h with pc := .assign (some m.sessions) false, dialled := some m.sessions } with
            sessions := m.sessions + 1 }
        else some (m.set c { h with pc := .openQuicSession (i + 1) true })
      else none
    | _ => none
  | .giveUp =>
    match h.pc with
    | .openQuicSession i failed =>
      if (i : Int) < m.cfg.connectionRetries then none else some (m.set c { h with pc := .assign none failed })
    | _ => none
  | .store =>
    match h.pc with
    | .assign session failed =>
      some { m.set c { h with pc := if failed then .returned else .openStreamSync } with quicSession := session }
    | _ => none
  | .loadOpenStreamSync =>
    match h.pc with
    | .openStreamSync =>
      match m.quicSession with
      | none => some { m with crashed := true }
      | some s => some (m.set c { h with pc := .openingStreamSync s })
    | _ => none
  | .openStreamSync ok =>
    match h.pc with
    | .openingStreamSync s =>
      if ok then
        if m.failed s then none else some (m.openOn c h s)
      else some (m.set c { h with pc := .returned })
    | _ => none
  | .relay io =>
    match h.pc with
    | .relay n r => (r.step io).map fun r' => m.set c { h with pc := .relay n r' }
    | _ => none

/-- One step of the client. A session can fail whether the process still runs or not: its other end sees a timeout. -/
def step (m : Client) : Act → Option Client
  | .accept c header =>
    if m.crashed then none
    else match m.handlers c with
      | none => some (m.set c (.start header))
      | some _ => none
  | .sessionFail s => if s < m.sessions then some { m with failed := Function.update m.failed s true } else none
  | .handler c a =>
    if m.crashed then none
    else match m.handlers c with
      | none => none
      | some h => m.handleTCPConn c h a

end Client

end Qpep
