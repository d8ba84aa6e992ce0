import Qpep.Python.Json
import Qpep.Testbed.Lab

/-!
# Reading the output of iperf3

The part of `run_iperf_test` behind the last `exec_run`: what it makes of the bytes that the client printed. The decoder
asks for the code points of named characters, and `print` for the code points that the standard output can encode; both are
arguments.
-/

namespace Qpep.Testbed

open Python

/-- "error - control socket has closed unexpectedly". -/
def socketClosed : Text := text "error - control socket has closed unexpectedly"

/-- `output.decode('unicode_escape').rstrip('\n').replace('Linux\n', 'Linux')`. -/
def jsonString (names : List UInt8 → Option Nat) (output : List UInt8) : Except PyErr Text := do
  let decoded ← decodeUnicodeEscape names output
  return replace (text "Linux\n") (text "Linux") (rstripNewlines decoded)

/-- `print(t)`. -/
def print (encodable : Nat → Bool) (t : Text) : Except PyErr PUnit :=
  if t.all encodable then .ok ⟨⟩ else .error .unicodeEncodeError

/-- `test_result["end"][sum][key]`, where `test_result` has no value if it could not be parsed. -/
def endItem (testResult : Option Json) (sum key : String) : Except PyErr Json := do
  match testResult with
  | none => .error .unboundLocalError
  | some j => (← (← j.item "end").item sum).item key

/-- The log line with the two rates in megabits. -/
def logRates (testResult : Option Json) : Except PyErr PUnit := do
  (← endItem testResult "sum_sent" "bits_per_second").perMillion
  (← endItem testResult "sum_received" "bits_per_second").perMillion

/-- The four values that are returned. -/
def endRecord (testResult : Option Json) : Except PyErr (PerMetric Json) := do
  let sentBytes ← endItem testResult "sum_sent" "bytes"
  let sentBps ← endItem testResult "sum_sent" "bits_per_second"
  let receivedBytes ← endItem testResult "sum_received" "bytes"
  let receivedBps ← endItem testResult "sum_received" "bits_per_second"
  return ⟨sentBytes, sentBps, receivedBytes, receivedBps⟩

/-- `run_iperf_test` behind the last `exec_run`. The first `except` replaces the text, the second one prints it. -/
def iperfOutcome (names : List UInt8 → Option Nat) (encodable : Nat → Bool) (output : List UInt8) :
    Except PyErr (PerMetric Json) := do
  let t ← jsonString names output
  let testResult := Json.loads t
  let t := if testResult.isSome then t else socketClosed
  if occursIn socketClosed t then return failureRecord
  match logRates testResult with
  | .error _ =>
    print encodable t
    return failureRecord
  | .ok _ => endRecord testResult

/-- The outside, when the client's outputs are given. -/
def World.ofOutputs (names : List UInt8 → Option Nat) (encodable : Nat → Bool) (output : Nat → List UInt8)
    (browsertime : Nat → List Char) (stNetworkHead : String) : World Json where
  iperf n := iperfOutcome names encodable (output n)
  browsertime := browsertime
  stNetworkHead := stNetworkHead

end Qpep.Testbed
