import Qpep.Client

/-!
# Dialling the gateway

`openQuicSession` as its caller sees it: a function of the configuration and of what `quic.DialAddr` answers to each call. The
handlers of the client make the same calls one step at a time (`Client.run_dialActs`).
-/

namespace Qpep

variable {σ ε : Type}

/-- What `openQuicSession` returns, with the number of its calls of `quic.DialAddr`. -/
structure Dialled (σ ε : Type) where
  session : Option σ
  err : Option ε
  dials : Nat
deriving DecidableEq, Repr

/-- The loop of `openQuicSession` with `n` rounds to go, before call number `i` of `quic.DialAddr`; `err` is the variable, which
keeps the error of the last failed call. -/
def openQuicSessionLoop (dialAddr : Nat → Except ε σ) : (n i : Nat) → (err : Option ε) → Dialled σ ε
  | 0, i, err => ⟨none, err, i⟩
  | n + 1, i, _ =>
    match dialAddr i with
    | .ok session => ⟨some session, none, i + 1⟩
    | .error e => openQuicSessionLoop dialAddr n (i + 1) (some e)

/-- `openQuicSession`, where `dialAddr path i` is the outcome of the call number `i`. The loop runs while
`i < ConnectionRetries`, so not at all when the number is negative. -/
def openQuicSession (cfg : ClientConfig) (gateway : GatewayConfig) (dialAddr : List Char → Nat → Except ε σ) : Dialled σ ε :=
  openQuicSessionLoop (dialAddr gateway.gatewayPath) cfg.connectionRetries.toNat 0 none

end Qpep
