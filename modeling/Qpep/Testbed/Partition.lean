import Qpep.Python.Slice

/-!
# Dividing an experiment over testbeds

The README's script that prepares parallel testbeds. `partitionIndexes` divides the positions of a parameter list into
chunks, one for each testbed, and `generate_settings_dicts` writes the ends of the chunks into the settings of the testbeds.
In each testbed `simulation_examples.py` reads them back as the two indices of a slice.
-/

namespace Qpep.Testbed

/-- The loop of `partitionIndexes` with `n` rounds to go, in round `i`, with the running bound `a`. -/
def partitionIndexesLoop (chunksize remainder : Nat) : (n i a : Nat) → List (Int × Int)
  | 0, _, _ => []
  | n + 1, i, a =>
    let b := a + chunksize + (if i < remainder then 1 else 0)
    ((a : Int), (b : Int) - 1) :: partitionIndexesLoop chunksize remainder n (i + 1) b

/-- `partitionIndexes`. The quotient is taken in floating point there, which is exact enough for the length of a list. -/
def partitionIndexes (totalsize numberofpartitions : Nat) : List (Int × Int) :=
  let chunksize := totalsize / numberofpartitions
  let remainder := totalsize - chunksize * numberofpartitions
  partitionIndexesLoop chunksize remainder numberofpartitions 0 0

/-- `define_scenario_requirements`. -/
def defineScenarioRequirements (numChunks dataLen : Nat) (scenarioList : List String) : List (String × Int × Int) :=
  scenarioList.flatMap fun scenario => (partitionIndexes dataLen numChunks).map fun experimentIndex => (scenario, experimentIndex)

/-- The arguments of `generate_settings_dicts`, with their defaults. -/
structure Requirements where
  numChunks : Nat := 8
  baseSatPortNumber : Int := 6000
  baseIpSuffix : Int := 10
  baseIp6Suffix : Int := 600
  baseOvpnPortNumber : Int := 7000
  pltIterations : Int := 100
  pltSubIterations : Int := 1
  alexaLen : Nat := 20
  iperfLen : Nat := 50
  iperfIterations : Int := 50
  iperfAttenuationLen : Nat := 20
  plrLength : Nat := 28
  plrMetaIterations : Int := 10
  plrPltIterations : Int := 10
  ackBundlingLength : Nat := 31
  scenarioList : List String := ["Plain", "OpenVPN", "PEPSal", "Distributed PEPsal", "QPEP"]

/-- `current_dict`: the settings of one testbed. A pair holds the values of a `_min` and a `_max` key. -/
structure Settings where
  nameSuffix : Nat
  satPortNumber : Int
  ipSuffix : Int
  ip6Suffix : Int
  ovpnPortNumber : Int
  scenarioName : String
  pltIterations : Int
  pltSubIterations : Int
  alexa : Int × Int
  iperfSizeIndex : Int × Int
  iperfIterations : Int
  iperfAttenuationIndex : Int × Int
  plrIndex : Int × Int
  plrMetaIterations : Int
  plrPltIterations : Int
  ackBundling : Int × Int
deriving DecidableEq, Repr

/-- The body of the loop of `generate_settings_dicts`, for testbed `i`. An index out of range raises. -/
def currentDict (r : Requirements) (i : Nat) : Option Settings := do
  let alexaScenario ← (defineScenarioRequirements r.numChunks r.alexaLen r.scenarioList)[i - 1]?
  let iperfScenario ← (defineScenarioRequirements r.numChunks r.iperfLen r.scenarioList)[i - 1]?
  let attenuationScenario ← (defineScenarioRequirements r.numChunks r.iperfAttenuationLen r.scenarioList)[i - 1]?
  let plrScenario ← (defineScenarioRequirements r.numChunks r.plrLength r.scenarioList)[i - 1]?
  let ackBundlingScenario ← (defineScenarioRequirements r.numChunks r.ackBundlingLength r.scenarioList)[i - 1]?
  return {
    nameSuffix := i
    satPortNumber := r.baseSatPortNumber + i
    ipSuffix := r.baseIpSuffix + i * 5
    ip6Suffix := r.baseIp6Suffix + i * 5
    ovpnPortNumber := r.baseOvpnPortNumber + i
    scenarioName := alexaScenario.1
    pltIterations := r.pltIterations
    pltSubIterations := r.pltSubIterations
    alexa := alexaScenario.2
    iperfSizeIndex := iperfScenario.2
    iperfIterations := r.iperfIterations
    iperfAttenuationIndex := attenuationScenario.2
    plrIndex := plrScenario.2
    plrMetaIterations := r.plrMetaIterations
    plrPltIterations := r.plrPltIterations
    ackBundling := ackBundlingScenario.2 }

/-- `generate_settings_dicts`: the settings of the testbeds 1 to `num_chunks * len(scenario_list)`. -/
def generateSettingsDicts (r : Requirements) : Option (List Settings) :=
  (List.range' 1 (r.numChunks * r.scenarioList.length)).mapM (currentDict r)

/-- The parameter lists that `simulation_examples.py` takes a slice of. -/
inductive Sliced where
  /-- `alexa_top_20[ALEXA_MIN:ALEXA_MAX]` -/
  | alexa
  /-- `iperf_file_sizes[IPERF_MIN_SIZE_INDEX:IPERF_MAX_SIZE_INDEX]` -/
  | iperf
  /-- `plr_levels[PLR_MIN_INDEX:PLR_MAX_INDEX]` -/
  | plr
  /-- `ack_bundling_numbers[ACK_BUNDLING_MIN:ACK_BUNDLING_MAX]` -/
  | ackBundling
deriving DecidableEq, Repr

/-- The length that the script is told of a list. -/
def Sliced.len (r : Requirements) : Sliced → Nat
  | .alexa => r.alexaLen
  | .iperf => r.iperfLen
  | .plr => r.plrLength
  | .ackBundling => r.ackBundlingLength

/-- The two indices of a testbed's slice. -/
def Sliced.indexes (s : Settings) : Sliced → Int × Int
  | .alexa => s.alexa
  | .iperf => s.iperfSizeIndex
  | .plr => s.plrIndex
  | .ackBundling => s.ackBundling

end Qpep.Testbed
