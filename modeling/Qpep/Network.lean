import Qpep.Lib.Fifo
import Qpep.Go.Copy

/-!
# What the proxy is connected to

The two kinds of connection a relay holds, as their calls behave: the TCP connection to an endpoint (`Sock`) and one
direction of a QUIC stream (`Half`). The outcome of every call is chosen by the environment among the ones the call can
have, so `read` and `write` take the outcome and say whether it is possible.

Assumed of TCP and of quic-go: each direction is a reliable ordered byte channel. `Close` on a stream ends it behind the
bytes written; `CancelWrite` gives up on those not yet delivered; once a Write on a stream has failed, every later one fails
and writes nothing. When its session is lost a call on a stream can fail, and what is on its way need not arrive; since the
two ends notice the loss in their own time, a call can still succeed. A Write to a TCP connection hands over its bytes piece
by piece, and can be cut short between two pieces; a Write to a stream is one step, as nothing on its side can come between.
No Write waits for ever: buffers and flow control have no bound here.
-/

namespace Qpep

open Io

abbrev ConnId := Nat

abbrev SessionId := Nat

abbrev StreamId := Nat

/-! ## TCP connections -/

/-- A TCP connection, seen from the proxy: the bytes from the endpoint (`inn`) and to it (`out`), whether the endpoint has
finished sending (`fin`) and has closed its side altogether (`gone`), whether the network has broken the connection
(`broken`), and whether the proxy has called `Close` (`closed`). -/
structure Sock where
  inn : Fifo UInt8
  out : Fifo UInt8
  fin : Bool
  gone : Bool
  broken : Bool
  closed : Bool
deriving DecidableEq, Repr

/-- A connection just made. -/
def Sock.fresh : Sock := ⟨Fifo.empty, Fifo.empty, false, false, false, false⟩

/-- What an endpoint and the network do to a TCP connection: send bytes, finish sending, close both directions, receive
bytes the proxy wrote; deliver bytes in either direction, break the connection. -/
inductive SockEnv where
  | send (bs : List UInt8)
  | finish
  | leave
  | receive (k : Nat)
  | deliverIn (k : Nat)
  | deliverOut (k : Nat)
  | fault
deriving DecidableEq, Repr

/-- The connection breaks. -/
def Sock.fault (s : Sock) : Sock := { s with broken := true }

@[simp] theorem Sock.fault_inn (s : Sock) : s.fault.inn = s.inn := rfl

@[simp] theorem Sock.fault_out (s : Sock) : s.fault.out = s.out := rfl

/-- The environment's step on a TCP connection. -/
def Sock.env (s : Sock) : SockEnv → Option Sock
  | .send bs => if s.fin = false then some { s with inn := s.inn.push bs } else none
  | .finish => if s.fin = false then some { s with fin := true } else none
  | .leave => if s.gone = false then some { s with fin := true, gone := true } else none
  | .receive k =>
    if s.gone = false ∧ 0 < k ∧ k ≤ s.out.ready.length then some { s with out := s.out.pull k } else none
  | .deliverIn k => if 0 < k ∧ k ≤ s.inn.wire.length then some { s with inn := s.inn.deliver k } else none
  | .deliverOut k =>
    if s.gone = false ∧ 0 < k ∧ k ≤ s.out.wire.length then some { s with out := s.out.deliver k } else none
  | .fault => if s.broken = false then some s.fault else none

/-- A call on the connection can fail: it is closed on this side or on the other, or broken. -/
def Sock.failing (s : Sock) : Bool := s.closed || s.gone || s.broken

/-- `TCPConn.Read` returning `k` bytes and the error `er`: data that has arrived, or `io.EOF` behind all of it, unless the
connection is closed here. -/
def Sock.read (s : Sock) (k : Nat) (er : Option IoErr) : Option (List UInt8 × Sock) :=
  let possible : Bool := match er with
    | none => decide (0 < k ∧ k ≤ s.inn.ready.length) && !s.closed
    | some .EOF => decide (k = 0 ∧ s.inn.ready = [] ∧ s.inn.wire = []) && s.fin && !s.closed
    | some .other => decide (k = 0) && s.failing
  if possible then some (s.inn.ready.take k, { s with inn := s.inn.pull k }) else none

/-- `TCPConn.Write(buf)` returning the count `k` and the error `ew`: everything is taken, or part of it and the call fails;
nothing more once the connection is closed here. -/
def Sock.write (s : Sock) (buf : List UInt8) (k : Nat) (ew : Option IoErr) : Option Sock :=
  let possible : Bool := match ew with
    | none => decide (k = buf.length) && !s.closed
    | some .EOF => false
    | some .other => decide (k ≤ buf.length) && s.failing && (!s.closed || decide (k = 0))
  if possible then some { s with out := s.out.push (buf.take k) } else none

/-- A `TCPConn.Write(buf)` that has not returned hands over `k` bytes, unless the connection has been closed here. -/
def Sock.part (s : Sock) (buf : List UInt8) (k : Nat) : Option Sock :=
  if s.closed then none else some { s with out := s.out.push (buf.take k) }

/-- `TCPConn.Close`, after `SetLinger(3)`: what was written is still delivered. -/
def Sock.close (s : Sock) : Sock := { s with closed := true }

/-! ## QUIC streams -/

/-- One direction of a QUIC stream: the bytes, whether the sender has called `Close` (`fin`), whether a Write has failed
(`dead`) and whether the receiver has called `CancelRead` (`stopped`). `CancelWrite` abandons the channel. -/
structure Half where
  bytes : Fifo UInt8
  fin : Bool
  dead : Bool
  stopped : Bool
deriving DecidableEq, Repr

/-- A direction of a stream just opened. -/
def Half.fresh : Half := ⟨Fifo.empty, false, false, false⟩

/-- The sender has called `CancelWrite`. -/
def Half.reset (h : Half) : Bool := h.bytes.abandoned.isSome

/-- The network delivers the next `k` bytes. -/
def Half.deliver (h : Half) (k : Nat) : Option Half :=
  if 0 < k ∧ k ≤ h.bytes.wire.length then some { h with bytes := h.bytes.deliver k } else none

/-- `Stream.Read` returning `k` bytes and the error `er`, in a session that is `down` or not: data that has arrived;
`io.EOF` with or behind the last bytes of a closed stream; an error when the stream was reset, was cancelled here, or lost
its session. -/
def Half.read (h : Half) (down : Bool) (k : Nat) (er : Option IoErr) : Option (List UInt8 × Half) :=
  let possible : Bool := match er with
    | none => decide (0 < k ∧ k ≤ h.bytes.ready.length)
    | some .EOF => decide (k = h.bytes.ready.length ∧ h.bytes.wire = []) && h.fin && !h.reset
    | some .other => decide (k ≤ h.bytes.ready.length) && (h.reset || h.stopped || down)
  if possible then some (h.bytes.ready.take k, { h with bytes := h.bytes.pull k }) else none

/-- `Stream.Write(buf)` returning the count `k` and the error `ew`: everything is taken, or part of it and the call fails;
nothing once the stream is closed or reset or a Write has failed. -/
def Half.write (h : Half) (down : Bool) (buf : List UInt8) (k : Nat) (ew : Option IoErr) : Option Half :=
  let ended := h.fin || h.reset || h.dead
  let possible : Bool := match ew with
    | none => decide (k = buf.length) && !ended
    | some .EOF => false
    | some .other => decide (k ≤ buf.length) && (ended || h.stopped || down) && (!ended || decide (k = 0))
  if possible then some { h with bytes := h.bytes.push (buf.take k), dead := h.dead || ew.isSome } else none

/-- `Stream.Close`. -/
def Half.close (h : Half) : Half := { h with fin := true }

/-- `Stream.CancelWrite`. -/
def Half.cancelWrite (h : Half) : Half := { h with bytes := h.bytes.abandon }

/-- `Stream.CancelRead`. -/
def Half.cancelRead (h : Half) : Half := { h with stopped := true }

/-! ## The environment of one relay -/

/-- The two ends a copy loop of the proxy joins. -/
inductive End where
  | tcp
  | quic
deriving DecidableEq, Repr

/-- What one side of the proxy holds for a connection: its TCP connection, the direction of the stream it writes and the one it
reads. -/
structure Port where
  sock : Sock
  out : Half
  inn : Half
deriving DecidableEq, Repr

/-- A Read on one end. -/
def Port.read (p : Port) (down : Bool) (e : End) (k : Nat) (er : Option IoErr) : Option (List UInt8 × Port) :=
  match e with
  | .tcp => (p.sock.read k er).map fun r => (r.1, { p with sock := r.2 })
  | .quic => (p.inn.read down k er).map fun r => (r.1, { p with inn := r.2 })

/-- A Write on one end. -/
def Port.write (p : Port) (down : Bool) (e : End) (buf : List UInt8) (k : Nat) (ew : Option IoErr) : Option Port :=
  match e with
  | .tcp => (p.sock.write buf k ew).map fun s => { p with sock := s }
  | .quic => (p.out.write down buf k ew).map fun h => { p with out := h }

/-- A Write on one end that has not returned hands over `k` bytes. -/
def Port.part (p : Port) (e : End) (buf : List UInt8) (k : Nat) : Option Port :=
  match e with
  | .tcp => (p.sock.part buf k).map fun s => { p with sock := s }
  | .quic => none

/-- A Close of one end. -/
def Port.close (p : Port) (e : End) : Port :=
  match e with
  | .tcp => { p with sock := p.sock.close }
  | .quic => { p with out := p.out.close }

end Qpep
