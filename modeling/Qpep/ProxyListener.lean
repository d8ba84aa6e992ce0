import Qpep.Client

/-!
# Accepting TCP connections

`ListenTCPConn` calls `Accept` on the proxy listener again and again, and starts a `handleTCPConn` for every connection.
What it does is given as a list of events, over the list of what `Accept` has returned so far. A connection is given by its
two addresses, as in `Client.Handler`.
-/

namespace Qpep

namespace Client

/-- An error of `Accept`: a `net.Error`, which knows whether it is temporary, or another one. -/
inductive AcceptErr where
  | netError (temporary : Bool)
  | other
deriving DecidableEq, Repr

/-- `netErr, ok := err.(net.Error); ok && netErr.Temporary()` -/
def AcceptErr.isTemporary : AcceptErr → Bool
  | .netError temporary => temporary
  | .other => false

/-- What a call of `Accept` returns. -/
abbrev Accepted := Except AcceptErr QpepHeader

namespace ClientProxyListener

/-- `AcceptTProxy`, over what `AcceptTCP` of the listener below returns. -/
def acceptTProxy : Accepted → Accepted
  | .error err => .error err
  | .ok tcpConn => .ok tcpConn

/-- `ClientProxyListener.Accept` -/
def accept (tcp : Accepted) : Accepted := acceptTProxy tcp

end ClientProxyListener

/-- What `ListenTCPConn` does: it starts a handler, it logs an error, or it logs an error and ends the process. -/
inductive ListenEvent where
  | goHandleTCPConn (conn : QpepHeader)
  | printf (format : String) (err : AcceptErr)
  | fatalf (format : String) (err : AcceptErr)
deriving DecidableEq, Repr

/-- `ListenTCPConn`, as far as it gets with these outcomes of `AcceptTCP`. -/
def listenTCPConn : List Accepted → List ListenEvent
  | [] => []
  | tcp :: tcps =>
    match ClientProxyListener.accept tcp with
    | .error err =>
      (if err.isTemporary then [.printf "Temporary error when accepting connection: %s" err] else []) ++
        [.fatalf "Unrecoverable error while accepting connection: %s" err]
    | .ok conn => .goHandleTCPConn conn :: listenTCPConn tcps

/-- The connection that an event starts a handler for. -/
def ListenEvent.handled : ListenEvent → Option QpepHeader
  | .goHandleTCPConn conn => some conn
  | _ => none

/-- The steps of the client in which it accepts these connections, numbered from `k` on. -/
def acceptAll (k : ConnId) : List QpepHeader → List Act
  | [] => []
  | conn :: conns => .accept k conn :: acceptAll (k + 1) conns

end Client

end Qpep
