import Qpep.Network

/-!
# The two copy loops

Client and server each start two goroutines for a connection, `streamTCPtoQUIC` and `streamQUICtoTCP`. Each calls `io.Copy`
and, when that returns, for whatever reason, calls `SetLinger(3)` and `Close` on the TCP connection and `Done` on the wait
group. A loop is given by what it reads, what it writes and what it closes (`CopyTask`); where it stands is a `Loop`.
-/

namespace Qpep

open Io

/-- What a copy loop joins: the end it reads, the end it writes, and the end it closes when `io.Copy` has returned. -/
structure CopyTask where
  src : End
  dst : End
  closes : End
deriving DecidableEq, Repr

/-- The two goroutines of a connection, under their names in the source. -/
inductive LoopName where
  | streamTCPtoQUIC
  | streamQUICtoTCP
deriving DecidableEq, Repr

/-- Where a goroutine stands: in `io.Copy`, or done (its TCP connection closed, the wait group told). -/
inductive Loop where
  | copy (c : Copy)
  | done (e : CopyEnd)
deriving DecidableEq, Repr

/-- A goroutine about to start copying. -/
def Loop.start : Loop := .copy .read

/-- What a goroutine does next: a call of `io.Copy` with its outcome, or the `SetLinger`, `Close` and `Done` behind it. -/
inductive LoopIo where
  | io (c : CopyIo)
  | close
deriving DecidableEq, Repr

/-- One step of a goroutine. -/
def Loop.step : Loop → LoopIo → Option Loop
  | .copy c, .io i => (c.step i).map .copy
  | .copy (.ended e), .close => some (.done e)
  | _, _ => none

/-- The bytes a goroutine holds, read and not yet written. -/
def Loop.held : Loop → List UInt8
  | .copy c => c.held
  | .done _ => []

/-- The goroutine is done. -/
def Loop.isDone : Loop → Bool
  | .done _ => true
  | _ => false

/-- The two goroutines of one side. -/
structure Relay where
  streamTCPtoQUIC : Loop
  streamQUICtoTCP : Loop
deriving DecidableEq, Repr

/-- Both goroutines about to start. -/
def Relay.start : Relay := ⟨.start, .start⟩

/-- One of the two goroutines. -/
def Relay.loop (r : Relay) : LoopName → Loop
  | .streamTCPtoQUIC => r.streamTCPtoQUIC
  | .streamQUICtoTCP => r.streamQUICtoTCP

/-- Replace one of the two goroutines. -/
def Relay.setLoop (r : Relay) (n : LoopName) (l : Loop) : Relay :=
  match n with
  | .streamTCPtoQUIC => { r with streamTCPtoQUIC := l }
  | .streamQUICtoTCP => { r with streamQUICtoTCP := l }

/-- One step of one of the two goroutines. -/
def Relay.step (r : Relay) (n : LoopName) (io : LoopIo) : Option Relay := ((r.loop n).step io).map (r.setLoop n)

/-- `streamWait.Wait()` returns: both goroutines are done. -/
def Relay.isDone (r : Relay) : Bool := r.streamTCPtoQUIC.isDone && r.streamQUICtoTCP.isDone

/-- A step of a goroutine as the environment sees it: how many bytes a call takes and the error it returns, or how many a
Write hands over before it returns. -/
inductive LoopEv where
  | read (k : Nat) (er : Option IoErr)
  | write (k : Nat) (ew : Option IoErr)
  | part (k : Nat)
  | close
deriving DecidableEq, Repr

/-- The part of the environment in a step of a goroutine: the call it makes, with an outcome the call can have. -/
def Port.loop (p : Port) (down : Bool) (t : CopyTask) (l : Loop) : LoopEv → Option (Port × LoopIo)
  | .read k er => (p.read down t.src k er).map fun r => (r.2, .io (.read r.1 er))
  | .write k ew => (p.write down t.dst l.held k ew).map fun p' => (p', .io (.write k ew))
  | .part k => (p.part t.dst l.held k).map fun p' => (p', .io (.part k))
  | .close => some (p.close t.closes, .close)

end Qpep
