import Mathlib.Algebra.Ring.Nat
import Mathlib.Data.List.Basic
import Qpep.Testbed.Lab

/-!
# The benchmarks

`IperfBenchmark.run` and `SitespeedBenchmark.run`. Numbers that the code handles as floats are kept abstract: the name under
which a file size is rounded, and for page load times Python's `float` and the multiplication by 1000.
-/

namespace Qpep.Testbed

open Python

variable {S V R F : Type}

/-! ## IPerf -/

/-- `IperfBenchmark`. -/
structure IperfBenchmark (S : Type) where
  fileSizes : List S
  resetOnRun : Bool := true
  iterations : Int := 1

/-- `IperfBenchmark.results`: for each result name the four series. -/
abbrev IperfResults (V : Type) := Dict String (PerMetric (List V))

/-- Add a record to the results: the series of a name are made when the name is first met, and appended to afterwards. -/
def addRecord (results : IperfResults V) (resultName : String) (testResults : PerMetric V) : IperfResults V :=
  match results.get? resultName with
  | none =>
    results.set resultName
      ⟨[testResults.sentBytes], [testResults.sentBps], [testResults.receivedBytes], [testResults.receivedBps]⟩
  | some series =>
    results.set resultName
      ⟨series.sentBytes ++ [testResults.sentBytes], series.sentBps ++ [testResults.sentBps],
        series.receivedBytes ++ [testResults.receivedBytes], series.receivedBps ++ [testResults.receivedBps]⟩

/-- `run_iperf_test`, where the world says what the output of the client comes to. -/
def runIperfTest (w : World V) (transferBytes : S) (resetOnRun : Bool) : Prog S V R (PerMetric V) := do
  if resetOnRun then execRun "pkill -9 iperf3"
  execRun "iperf3 -s"
  if resetOnRun then execRun "pkill -9 iperf3"
  let s ← get
  set { s with transfers := s.transfers + 1 }
  match w.iperf s.transfers with
  | .error e => throw e
  | .ok testResults =>
    note (.transfer transferBytes testResults)
    return testResults

/-- `IperfBenchmark.run` with these `self.results`; `resultName` is `"iperf_" + str(round(file_size/1000000, 3)) + "mb"`. -/
def IperfBenchmark.runFrom (w : World V) (resultName : S → String) (b : IperfBenchmark S) (results : IperfResults V) :
    Prog S V R (IperfResults V) := do
  execRun "wget http://1.1.1.1"
  (List.range b.iterations.toNat).foldlM (fun results _ =>
    b.fileSizes.foldlM (fun results fileSize => do
      let testResults ← runIperfTest w fileSize b.resetOnRun
      return addRecord results (resultName fileSize) testResults) results) results

/-- `IperfBenchmark.run` of a benchmark just made. -/
def IperfBenchmark.run (w : World V) (resultName : S → String) (b : IperfBenchmark S) : Prog S V R (IperfResults V) :=
  b.runFrom w resultName Dict.empty

/-! ## SiteSpeed -/

/-- Is the character in `[0-9.]`? -/
def isNumeral (c : Char) : Bool := c.isDigit || c == '.'

/-- A match of `Load: ([0-9.]+)([ms])` at the start of the text: the two groups, and the number of characters matched. -/
def loadMatch (text : List Char) : Option (List Char × Char × Nat) :=
  if "Load: ".toList.isPrefixOf text then
    let number := (text.drop 6).takeWhile isNumeral
    match number, (text.drop 6).drop number.length with
    | _ :: _, unit :: _ => if unit == 'm' || unit == 's' then some (number, unit, 6 + number.length + 1) else none
    | _, _ => none
  else none

/-- `re.findall('Load: ([0-9.]+)([ms])', text)`: scan from the left and go on behind each match; `skip` characters still
belong to the last match. -/
def findLoadsFrom : (skip : Nat) → (text : List Char) → List (List Char × Char)
  | _, [] => []
  | skip + 1, _ :: rest => findLoadsFrom skip rest
  | 0, c :: rest =>
    match loadMatch (c :: rest) with
    | some (number, unit, n) => (number, unit) :: findLoadsFrom (n - 1) rest
    | none => findLoadsFrom 0 rest

/-- `re.findall('Load: ([0-9.]+)([ms])', text)`. -/
def findLoads (text : List Char) : List (List Char × Char) := findLoadsFrom 0 text

/-- `len(re.findall('UrlLoadError', text))`: the word does not overlap with itself, so every occurrence counts. -/
def countLoadErrors : (text : List Char) → Nat
  | [] => 0
  | c :: rest => (if "UrlLoadError".toList.isPrefixOf (c :: rest) then 1 else 0) + countLoadErrors rest

/-- Python's floats, as far as the page load times need them: `float(text)`, and the product with 1000. -/
structure FloatOps (F : Type) where
  float : List Char → Option F
  times1000 : F → F

/-- `SitespeedBenchmark`; is there a scenario to deploy between the iterations? -/
structure SitespeedBenchmark where
  hosts : List String
  iterations : Int := 1
  scenario : Bool := false
  subIterations : Int := 1

/-- `SitespeedBenchmark.results` and `SitespeedBenchmark.errors`. -/
structure SitespeedResults (F : Type) where
  results : Dict String (List F)
  errors : Nat

/-- `host_val`: milliseconds are taken as they are. -/
def hostVal (ops : FloatOps F) (m : List Char × Char) : Except PyErr F :=
  match ops.float m.1 with
  | none => .error .valueError
  | some x => if m.2 == 'm' then .ok x else .ok (ops.times1000 x)

/-- Add a measurement to the results of a host. -/
def addLoad (results : Dict String (List F)) (host : String) (x : F) : Dict String (List F) :=
  match results.get? host with
  | none => results.set host [x]
  | some xs => results.set host (xs ++ [x])

/-- The matches that count: with sub-iterations, the last one is the average. -/
def countedLoads (subIterations : Int) (text : List Char) : List (List Char × Char) :=
  if subIterations > 1 then (findLoads text).dropLast else findLoads text

/-- The body of the loop over the matches. -/
def addMatch (ops : FloatOps F) (host : String) (results : Dict String (List F)) (m : List Char × Char) :
    Prog S V R (Dict String (List F)) :=
  match hostVal ops m with
  | .error e => throw e
  | .ok x => pure (addLoad results host x)

/-- The body of the loop over the hosts. -/
def loadHost (w : World V) (ops : FloatOps F) (subIterations : Int) (acc : SitespeedResults F) (host : String) :
    Prog S V R (SitespeedResults F) := do
  let s ← get
  set { s with pages := s.pages + 1 }
  note (.browsertime host)
  let hostResult := w.browsertime s.pages
  let results ← (countedLoads subIterations hostResult).foldlM (addMatch ops host) acc.results
  return ⟨results, acc.errors + countLoadErrors hostResult⟩

/-- The end of an iteration: unless it is the last, `self.scenario.deploy_scenario()`, which is an attribute of `None` without a
scenario. -/
def SitespeedBenchmark.deployBetween (b : SitespeedBenchmark) (i : Nat) : Prog S V R PUnit :=
  if (i : Int) ≠ b.iterations - 1 then
    if b.scenario then deployScenario false else throw .attributeError
  else return ⟨⟩

/-- One iteration of `SitespeedBenchmark.run`. -/
def SitespeedBenchmark.iteration (w : World V) (ops : FloatOps F) (b : SitespeedBenchmark) (acc : SitespeedResults F) (i : Nat) :
    Prog S V R (SitespeedResults F) := do
  execRun "ip route del default"
  execRun ("ip route add default via " ++ w.stNetworkHead ++ ".0.4")
  execRun "wget http://1.1.1.1"
  let acc ← b.hosts.foldlM (loadHost w ops b.subIterations) acc
  b.deployBetween i
  return acc

/-- `SitespeedBenchmark.run` with these `self.results` and `self.errors`. -/
def SitespeedBenchmark.runFrom (w : World V) (ops : FloatOps F) (b : SitespeedBenchmark) (acc : SitespeedResults F) :
    Prog S V R (SitespeedResults F) :=
  (List.range b.iterations.toNat).foldlM (b.iteration w ops) acc

/-- `SitespeedBenchmark.run` of a benchmark just made. -/
def SitespeedBenchmark.run (w : World V) (ops : FloatOps F) (b : SitespeedBenchmark) : Prog S V R (SitespeedResults F) :=
  b.runFrom w ops ⟨Dict.empty, 0⟩

end Qpep.Testbed
