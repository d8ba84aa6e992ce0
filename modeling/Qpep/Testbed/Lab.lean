import Mathlib.Logic.Function.Basic
import Qpep.Python.Dict

/-!
# The testbed as the experiments see it

An experiment is a program over the state of the testbed: the netem rule of each satellite container, and how many
measurements were made so far. What the outside answers to a measurement is given by a `World`. For the record the state
also holds what was done since the last benchmark run, with the gateway's packet loss after each step, the benchmark runs,
and which of them were filed under which packet loss rate.
-/

namespace Qpep.Testbed

open Python

variable {S V R : Type}

/-- One thing for each of the four quantities that `run_iperf_test` reports. -/
structure PerMetric (α : Type) where
  sentBytes : α
  sentBps : α
  receivedBytes : α
  receivedBps : α
deriving DecidableEq, Repr

/-- The record that `run_iperf_test` returns when a transfer failed. -/
def failureRecord [Zero V] : PerMetric V := ⟨0, 0, 0, 0⟩

/-- The containers that `set_plr_percentage` can change: `ST_CONTAINER_NAME` and `GW_CONTAINER_NAME`. -/
inductive Container where
  | terminal
  | gateway
deriving DecidableEq, Repr

/-- What an experiment does: calls of the functions that matter, and commands in containers that touch no netem rule. -/
inductive Act (S V : Type) where
  /-- the log line that announces a batch -/
  | batch (plr : String) (j : Nat)
  | deployScenario (testbedUp : Bool)
  | setPlrPercentage (plr : String) (stOut gwOut : Bool)
  | execRun (command : String)
  /-- an iperf3 transfer of this many bytes, with what was reported -/
  | transfer (size : S) (record : PerMetric V)
  | browsertime (host : String)
deriving DecidableEq, Repr

/-- A step and the packet loss of the gateway after it. -/
structure Entry (S V : Type) where
  act : Act S V
  loss : Option String
deriving DecidableEq, Repr

/-- One run of a benchmark: what was done between the run before and this one, the packet loss of the gateway when it began,
what it did, and `benchmark.results`. -/
structure Run (S V R : Type) where
  before : List (Entry S V)
  loss : Option String
  during : List (Entry S V)
  results : R
deriving DecidableEq, Repr

/-- The testbed: the loss of the netem rule of each container, if it has one, and the record. -/
structure Lab (S V R : Type) where
  netem : Container → Option String
  transfers : Nat
  pages : Nat
  log : List (Entry S V)
  runs : List (Run S V R)
  filed : List (String × Run S V R)

/-- The testbed when an experiment begins; there may be rules of an experiment before. -/
def Lab.init (netem : Container → Option String) : Lab S V R := ⟨netem, 0, 0, [], [], []⟩

/-- The outside: what each call of `run_iperf_test` comes to, the printed result of each call of browsertime, and
`ST_NETWORK_HEAD`. -/
structure World (V : Type) where
  iperf : Nat → Except PyErr (PerMetric V)
  browsertime : Nat → List Char
  stNetworkHead : String

/-- A program of an experiment. -/
abbrev Prog (S V R α : Type) := EStateM PyErr (Lab S V R) α

namespace Lab

/-- Put a step on record. -/
def note (s : Lab S V R) (a : Act S V) : Lab S V R := { s with log := s.log ++ [⟨a, s.netem .gateway⟩] }

@[simp] theorem note_netem (s : Lab S V R) (a : Act S V) : (s.note a).netem = s.netem := rfl
@[simp] theorem note_transfers (s : Lab S V R) (a : Act S V) : (s.note a).transfers = s.transfers := rfl
@[simp] theorem note_pages (s : Lab S V R) (a : Act S V) : (s.note a).pages = s.pages := rfl
@[simp] theorem note_log (s : Lab S V R) (a : Act S V) : (s.note a).log = s.log ++ [⟨a, s.netem .gateway⟩] := rfl
@[simp] theorem note_runs (s : Lab S V R) (a : Act S V) : (s.note a).runs = s.runs := rfl
@[simp] theorem note_filed (s : Lab S V R) (a : Act S V) : (s.note a).filed = s.filed := rfl

end Lab

/-- Put a step on record. -/
def note (a : Act S V) : Prog S V R PUnit := modify fun s => s.note a

/-- `container.exec_run(command)` for a command that touches no netem rule. -/
def execRun (command : String) : Prog S V R PUnit := note (.execRun command)

/-! ## The packet loss rule -/

/-- `tc qdisc change dev opensand_tun root netem loss ...`: replaces the rule, if there is one. Is there `RTNETLINK` in the
output? -/
def tcChange (c : Container) (plr : String) : Prog S V R Bool := do
  let s ← get
  match s.netem c with
  | none => return true
  | some _ =>
    set { s with netem := Function.update s.netem c (some plr) }
    return false

/-- `tc qdisc add dev opensand_tun root netem loss ...`: makes a rule, if there is none. -/
def tcAdd (c : Container) (plr : String) : Prog S V R PUnit :=
  modify fun s =>
    match s.netem c with
    | none => { s with netem := Function.update s.netem c (some plr) }
    | some _ => s

/-- `set_plr_percentage`. -/
def setPlrPercentage (plr : String) (stOut gwOut : Bool) : Prog S V R PUnit := do
  let containersToMod := (if stOut then [Container.terminal] else []) ++ (if gwOut then [Container.gateway] else [])
  containersToMod.foldlM (fun _ container => do
    let rtnetlink ← tcChange container plr
    if rtnetlink then tcAdd container plr) ⟨⟩
  note (.setPlrPercentage plr stOut gwOut)

/-- `deploy_scenario` of any of the scenarios: unless the testbed is kept up, `start_testbed` takes the containers down and
brings up new ones, without rules. What the scenarios then launch touches no rule. -/
def deployScenario (testbedUp : Bool) : Prog S V R PUnit := do
  if !testbedUp then modify fun s => { s with netem := fun _ => none }
  note (.deployScenario testbedUp)

/-! ## Runs of benchmarks -/

/-- `benchmark.run()`, put on record as a run. -/
def runBenchmark (run : Prog S V R R) : Prog S V R (Run S V R) := do
  let s ← get
  set { s with log := [] }
  let results ← run
  let s' ← get
  let r : Run S V R := ⟨s.log, s.netem .gateway, s'.log, results⟩
  set { s' with log := [], runs := s'.runs ++ [r] }
  return r

/-- `scenario.run_benchmarks(deployed)`. -/
def runBenchmarks (deployed : Bool) (benchmarks : List (Prog S V R R)) : Prog S V R (List (Run S V R)) :=
  benchmarks.foldlM (fun runs run => do
    if !deployed then deployScenario false
    let r ← runBenchmark run
    return runs ++ [r]) []

/-- `report[plr].append(benchmark.results)`, put on record. -/
def fileResults (report : Dict String (List R)) (plr : String) (r : Run S V R) : Prog S V R (Dict String (List R)) :=
  match report.append plr r.results with
  | .error e => throw e
  | .ok report' => do
    modify fun s => { s with filed := s.filed ++ [(plr, r)] }
    return report'

end Qpep.Testbed
