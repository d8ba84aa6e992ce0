import Qpep.Python.Slice
import Qpep.Testbed.Benchmarks

/-!
# The experiments with packet loss

`ack_bundling_iperf_scenario`, `plr_plt_scenario` and `plr_test_scenario`. The packet loss rates and their texts come from
numpy, so the list of the rates and the function that formats them are arguments. Each program returns what it prints at its
end.
-/

namespace Qpep.Testbed

open Python

variable {S V F L : Type}

/-- What the experiments read from the `.env` file. -/
structure Env where
  scenarioName : String
  iperfIterations : Int
  ackBundlingMin : Int
  ackBundlingMax : Int
  plrMinIndex : Int
  plrMaxIndex : Int
  plrMetaIterations : Int
  plrPltIterations : Int

/-- Append the results of some runs to the report. -/
def fileAll {R : Type} (report : Dict String (List R)) (plr : String) (runs : List (Run S V R)) :
    Prog S V R (Dict String (List R)) :=
  runs.foldlM (fun report r => fileResults report plr r) report

/-- `ack_bundling_iperf_scenario`. The row is `decimation_results[str(ack_bundling_number)]`. -/
def ackBundlingIperfScenario (w : World V) (resultName : Nat → String) (plrLevels : List L) (plrString : L → String) (env : Env) :
    Prog Nat V (IperfResults V) (Dict String (Dict String (List (IperfResults V)))) :=
  let benchmark : IperfBenchmark Nat :=
    { fileSizes := [1000000, 2000000, 5000000], resetOnRun := true, iterations := env.iperfIterations }
  let ackBundlingNumbers := List.range' 1 30
  (Python.slice ackBundlingNumbers env.ackBundlingMin env.ackBundlingMax).foldlM (fun decimationResults ackBundlingNumber => do
    deployScenario false
    let row := (decimationResults.get? (toString ackBundlingNumber)).getD Dict.empty
    let row ← plrLevels.foldlM (fun row plrLevel => do
      let plr := plrString plrLevel
      let row := if (row.get? plr).isNone then row.set plr [] else row
      setPlrPercentage plr false true
      let runs ← runBenchmarks true [benchmark.run w resultName]
      fileAll row plr runs) row
    return decimationResults.set (toString ackBundlingNumber) row) Dict.empty

/-- One batch of `plr_plt_scenario`. -/
def plrPltBatch (w : World V) (ops : FloatOps F) (env : Env) (plr : String) (report : Dict String (List (Dict String (List F))))
    (j : Nat) : Prog S V (Dict String (List F)) (Dict String (List (Dict String (List F)))) := do
  let benchmark : SitespeedBenchmark :=
    { hosts := ["https://www.nasa.gov"], scenario := true, iterations := 1, subIterations := env.plrPltIterations }
  deployScenario false
  setPlrPercentage plr false true
  note (.batch plr j)
  let runs ← runBenchmarks true [do return (← benchmark.run w ops).results]
  fileAll report plr runs

/-- `plr_plt_scenario`. The log line behind the batches of a level reads the loop variable `j`, which has no value when
there was no batch. -/
def plrPltScenario (w : World V) (ops : FloatOps F) (plrLevels : List L) (plrString : L → String) (env : Env) :
    Prog S V (Dict String (List F)) (List (Dict String (List (Dict String (List F))))) :=
  ["Plain", "PEPSal", "Distributed PEPsal", "QPEP", "OpenVPN"].foldlM (fun printed name =>
    if name = env.scenarioName then do
      let report ← (Python.slice plrLevels env.plrMinIndex env.plrMaxIndex).foldlM (fun report plrLevel => do
        let plr := plrString plrLevel
        let report ← (List.range env.plrMetaIterations.toNat).foldlM (plrPltBatch w ops env plr) (report.set plr [])
        if env.plrMetaIterations ≤ 0 then throw .unboundLocalError
        return report) Dict.empty
      return printed ++ [report]
    else return printed) []

/-- `xs == x` for a list and a number: a list is equal to no number. -/
def listEqNumber (_xs : List V) (_x : V) : Bool := false

/-- The end of the innermost loop of `plr_test_scenario`: "if the link breaks, we need to restart the ip routes". The search
for a broken key ends at the first. -/
def restartIfBroken [Zero V] (plr : String) (results : IperfResults V) : Prog S V (IperfResults V) PUnit :=
  if results.items.any fun item => listEqNumber item.2.sentBps 0 then do
    deployScenario false
    setPlrPercentage plr false true
  else return ⟨⟩

/-- One round of the innermost loop of `plr_test_scenario`. -/
def plrTestIteration [Zero V] (w : World V) (resultName : Nat → String) (plr : String)
    (report : Dict String (List (IperfResults V))) : Prog Nat V (IperfResults V) (Dict String (List (IperfResults V))) := do
  let benchmark : IperfBenchmark Nat :=
    { fileSizes := [1000000, 2000000, 5000000, 1000000], resetOnRun := true, iterations := 1 }
  let runs ← runBenchmarks true [benchmark.run w resultName]
  runs.foldlM (fun report r => do
    let report ← fileResults report plr r
    restartIfBroken plr r.results
    return report) report

/-- One batch of `plr_test_scenario`. -/
def plrTestBatch [Zero V] (w : World V) (resultName : Nat → String) (env : Env) (plr : String)
    (report : Dict String (List (IperfResults V))) (j : Nat) :
    Prog Nat V (IperfResults V) (Dict String (List (IperfResults V))) := do
  note (.batch plr j)
  deployScenario false
  setPlrPercentage plr false true
  (List.range env.iperfIterations.toNat).foldlM (fun report _ => plrTestIteration w resultName plr report) report

/-- `plr_test_scenario`. -/
def plrTestScenario [Zero V] (w : World V) (resultName : Nat → String) (plrLevels : List L) (plrString : L → String) (env : Env) :
    Prog Nat V (IperfResults V) (List (Dict String (List (IperfResults V)))) :=
  ["QPEP", "Plain", "OpenVPN", "PEPSal", "Distributed PEPsal"].foldlM (fun printed name =>
    if name = env.scenarioName then do
      let report ← (Python.slice plrLevels env.plrMinIndex env.plrMaxIndex).foldlM (fun report plrLevel =>
        (List.range env.plrMetaIterations.toNat).foldlM (plrTestBatch w resultName env (plrString plrLevel))
          (report.set (plrString plrLevel) [])) Dict.empty
      return printed ++ [report]
    else return printed) []

end Qpep.Testbed
