import Qpep.Client
import Qpep.Go.Flag
import Qpep.Go.Strconv

/-!
# How the program starts

The flags of `quic_optimizations.go`, the configuration that `init` makes of the command line, and what `main` starts with
it: a client that opens its sessions to the gateway, or a server.

An `int` has 64 bits. Numbers with a fraction are values of a type `F`, with what `strconv.ParseFloat` makes of a text and
the default 0.25 (`Floats`).
-/

namespace Qpep

open Flags Strconv

/-- `float64`: `strconv.ParseFloat`, and the literal `0.25`. -/
structure Floats (F : Type) where
  parseFloat : List Char → Option F
  quarter : F

/-- `QuicConfig` -/
@[ext] structure QuicConfig (F : Type) where
  ackElicitingPacketsBeforeAck : Int
  ackDecimationDenominator : Int
  initialCongestionWindowPackets : Int
  multiStream : Bool
  varAckDelay : F
  maxAckDelay : Int
  minReceivedBeforeAckDecimation : Int
  clientFlag : Bool
  gatewayIP : List Char
deriving DecidableEq, Repr

namespace Shared

variable {F : Type}

/-- `flag.Int` -/
def intFlag (name : String) (put : QuicConfig F → Int → QuicConfig F) : Flag (QuicConfig F) :=
  ⟨name.toList, false, fun s cfg => (parseInt s).map (put cfg)⟩

/-- `flag.Bool` -/
def boolFlag (name : String) (put : QuicConfig F → Bool → QuicConfig F) : Flag (QuicConfig F) :=
  ⟨name.toList, true, fun s cfg => (parseBool s).map (put cfg)⟩

/-- `flag.Float64` -/
def floatFlag (fl : Floats F) (name : String) (put : QuicConfig F → F → QuicConfig F) : Flag (QuicConfig F) :=
  ⟨name.toList, false, fun s cfg => (fl.parseFloat s).map (put cfg)⟩

/-- `flag.String` -/
def stringFlag (name : String) (put : QuicConfig F → List Char → QuicConfig F) : Flag (QuicConfig F) :=
  ⟨name.toList, false, fun s cfg => some (put cfg s)⟩

def ackElicitingFlag : Flag (QuicConfig F) := intFlag "acks" fun cfg n => { cfg with ackElicitingPacketsBeforeAck := n }
def ackDecimationFlag : Flag (QuicConfig F) := intFlag "decimate" fun cfg n => { cfg with ackDecimationDenominator := n }
def congestionWindowFlag : Flag (QuicConfig F) :=
  intFlag "congestion" fun cfg n => { cfg with initialCongestionWindowPackets := n }
def multiStreamFlag : Flag (QuicConfig F) := boolFlag "multistream" fun cfg b => { cfg with multiStream := b }
def maxAckDelayFlag : Flag (QuicConfig F) := intFlag "ackDelay" fun cfg n => { cfg with maxAckDelay := n }
def varAckDelayFlag (fl : Floats F) : Flag (QuicConfig F) := floatFlag fl "varAckDelay" fun cfg x => { cfg with varAckDelay := x }
def minReceivedBeforeAckDecimationFlag : Flag (QuicConfig F) :=
  intFlag "minBeforeDecimation" fun cfg n => { cfg with minReceivedBeforeAckDecimation := n }
def clientFlag : Flag (QuicConfig F) := boolFlag "client" fun cfg b => { cfg with clientFlag := b }
def gatewayFlag : Flag (QuicConfig F) := stringFlag "gateway" fun cfg s => { cfg with gatewayIP := s }

/-- The flags that `init` defines. -/
def flags (fl : Floats F) : List (Flag (QuicConfig F)) :=
  [ackElicitingFlag, ackDecimationFlag, congestionWindowFlag, multiStreamFlag, maxAckDelayFlag, varAckDelayFlag fl,
    minReceivedBeforeAckDecimationFlag, clientFlag, gatewayFlag]

/-- The defaults of the flags. -/
def default (fl : Floats F) : QuicConfig F := ⟨10, 4, 4, true, fl.quarter, 25, 100, false, "198.18.0.254".toList⟩

/-- `init` of `quic_optimizations.go`, on the arguments behind the program's name. -/
def init (fl : Floats F) (args : List (List Char)) : Except FlagErr (QuicConfig F) :=
  (parse (flags fl) (default fl) args).map Prod.fst

end Shared

/-- What the process runs as. -/
inductive Process where
  | client (cfg : ClientConfig) (gateway : GatewayConfig)
  | server
deriving DecidableEq, Repr

/-- `main`, with the initial `ClientConfiguration`: `GatewayHost` comes from the flags, and `MultiStream` does. -/
def main {F : Type} (cfg : QuicConfig F) : Process :=
  if cfg.clientFlag then .client ⟨cfg.multiStream, 3⟩ ⟨cfg.gatewayIP, 4242⟩ else .server

end Qpep
