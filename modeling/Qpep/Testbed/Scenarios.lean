import Qpep.Go.HostPort
import Qpep.Python.Dict

/-!
# Deploying a scenario

`scenarios.py`, with `start_testbed` and `connect_terminal_workstation` as far as they run commands in the containers. A
deployment leaves the row of commands that the containers were given since they were started. What a command does there is
not modelled; it is the words that docker gets and whether it waits for the command to end.
-/

namespace Qpep.Scenarios

open Python

/-- The containers: `ST_CONTAINER_NAME`, `WS_GW_CONTAINER_NAME`, `GW_CONTAINER_NAME` and `WS_ST_CONTAINER_NAME`. -/
inductive ContainerName where
  | st
  | wsGw
  | gw
  | wsSt
deriving DecidableEq, Repr

/-- A command that a container was given, `detach` if nothing waits for its end. -/
structure Exec where
  container : ContainerName
  words : List (List Char)
  detach : Bool
deriving DecidableEq, Repr

/-! ## The testbed -/

/-- What the code is given: `GW_NETWORK_HEAD`, `ST_NETWORK_HEAD` and `GUI_NETWORK_HEAD`, `host_ip`, and how docker takes the
text of a command apart. -/
structure Setup where
  gwNetworkHead : List Char
  stNetworkHead : List Char
  guiNetworkHead : List Char
  hostIp : List Char
  splitCommand : List Char → Except PyErr (List (List Char))

/-- A part of a deployment. -/
abbrev Deploy (α : Type) := EStateM PyErr (List Exec) α

/-- `container.exec_run(command, detach=detach)` -/
def exec (setup : Setup) (name : ContainerName) (cmd : List Char) (detach : Bool) : Deploy PUnit :=
  match setup.splitCommand cmd with
  | .error e => throw e
  | .ok words => modify fun log => log ++ [⟨name, words, detach⟩]

/-- `container.exec_run(command)` -/
def execRun (setup : Setup) (name : ContainerName) (cmd : List Char) : Deploy PUnit := exec setup name cmd false

/-- `container.exec_run(command, detach=True)` -/
def execRunDetached (setup : Setup) (name : ContainerName) (cmd : List Char) : Deploy PUnit := exec setup name cmd true

/-- `start_testbed`: the containers are new ones, and once OpenSAND runs the terminal gets its route. -/
def startTestbed (setup : Setup) : Deploy PUnit := do
  set ([] : List Exec)
  execRun setup .st "/sbin/ip route delete default".toList
  execRun setup .st ("/sbin/ip route add default via ".toList ++ setup.gwNetworkHead ++ ".0.3".toList)

/-- `connect_terminal_workstation` -/
def connectTerminalWorkstation (setup : Setup) : Deploy PUnit := do
  execRun setup .wsSt ("ip route add ".toList ++ setup.hostIp ++ " via ".toList ++ setup.guiNetworkHead ++ ".0.1 dev eth1".toList)
  execRun setup .wsSt "ip route del default".toList
  execRun setup .wsSt ("ip route add default via ".toList ++ setup.stNetworkHead ++ ".0.4".toList)

/-- `Scenario.deploy_scenario` -/
def superDeployScenario (setup : Setup) : Deploy PUnit := do
  startTestbed setup
  connectTerminalWorkstation setup

/-- `if not testbed_up: super().deploy_scenario()`, which every scenario begins with. -/
def startUnlessUp (setup : Setup) (testbedUp : Bool) : Deploy PUnit :=
  if testbedUp then pure ⟨⟩ else superDeployScenario setup

/-! ## The scenarios -/

/-- `PlainScenario.deploy_scenario` -/
def plainDeployScenario (setup : Setup) (testbedUp : Bool) : Deploy PUnit := startUnlessUp setup testbedUp

/-- `OpenVPNScenario.deploy_scenario` -/
def openVPNDeployScenario (setup : Setup) (testbedUp : Bool) : Deploy PUnit := do
  startUnlessUp setup testbedUp
  execRun setup .wsSt "openvpn --config /root/client.ovpn --daemon".toList

/-- `QPEPScenario.deploy_scenario`; `multi_stream` of the scenario is not used. -/
def qpepDeployScenario (setup : Setup) (testbedUp : Bool) : Deploy PUnit := do
  startUnlessUp setup testbedUp
  execRun setup .st "bash /opensand_config/configure_qpep.sh".toList
  execRun setup .wsGw "bash /opensand_config/configure_qpep.sh".toList
  if testbedUp then
    execRun setup .wsGw "pkill -9 main".toList
    execRun setup .st "pkill -9 main".toList
  execRunDetached setup .st ("go run /root/go/src/qpep/main.go -client -gateway ".toList ++ setup.gwNetworkHead ++ ".0.9 ".toList)
  execRunDetached setup .wsGw "go run /root/go/src/qpep/main.go".toList

/-- What `QPEPAckScenario` and `QPEPCongestionScenario` do before they launch QPEP. -/
def clearOrConfigure (setup : Setup) (testbedUp : Bool) : Deploy PUnit := do
  startUnlessUp setup testbedUp
  if testbedUp then
    execRun setup .st "pkill -9 main".toList
    execRun setup .wsGw "pkill -9 main".toList
  else
    execRun setup .st "bash /opensand_config/configure_qpep.sh".toList
    execRun setup .wsGw "bash /opensand_config/configure_qpep.sh".toList

/-- `QPEPAckScenario.deploy_scenario` -/
def qpepAckDeployScenario (setup : Setup) (testbedUp : Bool) (ackLevel : Int) : Deploy PUnit := do
  clearOrConfigure setup testbedUp
  execRunDetached setup .st
    ("go run /root/go/src/qpep/main.go -client -minBeforeDecimation 2 -ackDelay 8000 -varAckDelay 16.0 -gateway ".toList ++
      setup.gwNetworkHead ++ ".0.9 -acks ".toList ++ Net.itoa ackLevel)
  execRunDetached setup .wsGw "go run /root/go/src/qpep/main.go -minBeforeDecimation 2 -ackDelay 8000 -varAckDelay 16.0".toList

/-- `QPEPCongestionScenario.deploy_scenario` -/
def qpepCongestionDeployScenario (setup : Setup) (testbedUp : Bool) (congestionWindow : Int) : Deploy PUnit := do
  clearOrConfigure setup testbedUp
  execRunDetached setup .st ("go run /root/go/src/qpep/main.go -client -gateway ".toList ++ setup.gwNetworkHead ++
    ".0.9 -congestion ".toList ++ Net.itoa congestionWindow)
  execRunDetached setup .wsGw ("go run /root/go/src/qpep/main.go -congestion ".toList ++ Net.itoa congestionWindow)

/-- `PEPsalScenario.deploy_scenario` -/
def pepsalDeployScenario (setup : Setup) (testbedUp : Bool) (terminal gateway : Bool) : Deploy PUnit := do
  startUnlessUp setup testbedUp
  if terminal then execRun setup .st "bash /opensand_config/launch_pepsal.sh".toList
  if gateway then execRun setup .gw "bash /opensand_config/launch_pepsal.sh".toList

/-- A scenario, with what it was constructed with or is deployed with. -/
inductive Scenario where
  | plain
  | openVPN
  | qpep (multiStream : Bool)
  | qpepAck (ackLevel : Int)
  | qpepCongestion (congestionWindow : Int)
  | pepsal (terminal gateway : Bool)
deriving DecidableEq, Repr

/-- A call of `deploy_scenario`. -/
structure Deployment where
  scenario : Scenario
  testbedUp : Bool
deriving DecidableEq, Repr

/-- `deploy_scenario` -/
def deployScenario (setup : Setup) (d : Deployment) : Deploy PUnit :=
  match d.scenario with
  | .plain => plainDeployScenario setup d.testbedUp
  | .openVPN => openVPNDeployScenario setup d.testbedUp
  | .qpep _ => qpepDeployScenario setup d.testbedUp
  | .qpepAck ackLevel => qpepAckDeployScenario setup d.testbedUp ackLevel
  | .qpepCongestion congestionWindow => qpepCongestionDeployScenario setup d.testbedUp congestionWindow
  | .pepsal terminal gateway => pepsalDeployScenario setup d.testbedUp terminal gateway

/-- One call after the other. -/
def deployAll (setup : Setup) (ds : List Deployment) : Deploy PUnit := ds.foldlM (fun _ d => deployScenario setup d) ⟨⟩

end Qpep.Scenarios
