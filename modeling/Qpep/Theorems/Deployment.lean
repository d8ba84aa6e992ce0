import Qpep.Lib.History
import Qpep.Lib.Hoare
import Qpep.Python.Shlex
import Qpep.Testbed.Scenarios
import Qpep.Theorems.Flags

/-!
# What a deployed testbed was told to run

Whatever scenarios are deployed one after the other, on new containers or on those that are up, the commands that the
containers were given launch the QPEP of each scenario with its parameters, in the order of the deployments; a container
gets `pkill` between two launches, and the configuration before its first one if the scenarios bring it (`deployAll_spec`).
-/

namespace Qpep.Scenarios

open Python Flags Hoare History Shared

variable {F : Type}

/-! ## What the deployments amount to -/

/-- A client of the testbed's gateway. -/
def clientOf (setup : Setup) (cfg : QuicConfig F) : QuicConfig F :=
  { cfg with clientFlag := true, gatewayIP := setup.gwNetworkHead ++ ".0.9".toList }

/-- The configurations of the client and the server that a scenario launches; `sixteen` is what `16.0` stands for. The ack
level is not passed on to the server. -/
def configsOf (setup : Setup) (fl : Floats F) (sixteen : F) : Scenario → Option (QuicConfig F × QuicConfig F)
  | .qpep _ => some (clientOf setup (default fl), default fl)
  | .qpepAck ackLevel =>
    let delayed := { default fl with minReceivedBeforeAckDecimation := 2, maxAckDelay := 8000, varAckDelay := sixteen }
    some (clientOf setup { delayed with ackElicitingPacketsBeforeAck := ackLevel }, delayed)
  | .qpepCongestion congestionWindow =>
    let widened := { default fl with initialCongestionWindowPackets := congestionWindow }
    some (clientOf setup widened, widened)
  | .plain | .openVPN | .pepsal _ _ => none

/-- The launches of a scenario: where, with which configuration, and that nothing waits for their end. -/
def launchesOf (setup : Setup) (fl : Floats F) (sixteen : F) (scenario : Scenario) :
    List (ContainerName × Except FlagErr (QuicConfig F) × Bool) :=
  (configsOf setup fl sixteen scenario).elim [] fun cfgs => [(.st, .ok cfgs.1, true), (.wsGw, .ok cfgs.2, true)]

/-- The scenarios that launch QPEP. -/
def Scenario.isQpep : Scenario → Bool
  | .qpep _ | .qpepAck _ | .qpepCongestion _ => true
  | .plain | .openVPN | .pepsal _ _ => false

/-- The deployments that configure the containers for QPEP: on containers that are up, the scenarios for acks and congestion
do not. -/
def Deployment.configures (d : Deployment) : Bool :=
  match d.scenario with
  | .qpep _ => true
  | .qpepAck _ | .qpepCongestion _ => !d.testbedUp
  | .plain | .openVPN | .pepsal _ _ => false

/-- The deployments since the containers were new. -/
def sinceNew (ds : List Deployment) : List Deployment :=
  ds.foldl (fun current d => if d.testbedUp then current ++ [d] else [d]) []

/-- Words that need no quotes are taken apart at the blanks, as by `shlex.split`; one may stand at the end. -/
def TakesApart (split : List Char → Except PyErr (List (List Char))) : Prop :=
  ∀ {ws : List (List Char)} {w : List Char}, (∀ v ∈ ws, PlainWord v) → PlainWord w →
    split (blankBehind ws ++ w) = .ok (ws ++ [w]) ∧ split (blankBehind (ws ++ [w])) = .ok (ws ++ [w])

/-- Docker takes plain words apart, and what is given in the environment needs no quotes. -/
structure Setup.Plain (setup : Setup) : Prop where
  split : TakesApart setup.splitCommand
  gw : ∀ c ∈ setup.gwNetworkHead, isPlain c = true
  st : ∀ c ∈ setup.stNetworkHead, isPlain c = true
  gui : ∀ c ∈ setup.guiNetworkHead, isPlain c = true
  host : PlainWord setup.hostIp

/-- The number that a scenario passes on to QPEP is an `int` there. -/
def Scenario.InRange : Scenario → Prop
  | .qpepAck n | .qpepCongestion n => Strconv.InRange n
  | _ => True

/-! ## Reading the commands of a container -/

/-- The words that a launch of QPEP begins with. -/
def goRun : List (List Char) := ["go", "run", "/root/go/src/qpep/main.go"].map String.toList

/-- The words behind those, when a command is a launch of QPEP. -/
def Exec.arguments (e : Exec) : Option (List (List Char)) :=
  if goRun.isPrefixOf e.words then some (e.words.drop goRun.length) else none

/-- A launch of QPEP, with what QPEP makes of its arguments. -/
def Exec.launch (fl : Floats F) (e : Exec) : Option (ContainerName × Except FlagErr (QuicConfig F) × Bool) :=
  e.arguments.map fun args => (e.container, init fl args, e.detach)

/-- A command that is waited for. -/
def waited (name : ContainerName) (words : List String) : Exec := ⟨name, words.map String.toList, false⟩

def pkill (name : ContainerName) : Exec := waited name ["pkill", "-9", "main"]
def configure (name : ContainerName) : Exec := waited name ["bash", "/opensand_config/configure_qpep.sh"]
def launchPepsal (name : ContainerName) : Exec := waited name ["bash", "/opensand_config/launch_pepsal.sh"]

/-- The container was given `pkill` since QPEP was launched in it. -/
def Cleared (name : ContainerName) (log : List Exec) : Prop :=
  ∀ before e rest, log = before ++ e :: rest → e.arguments.isSome → e.container = name → pkill name ∈ rest

/-- Each launch of QPEP finds its container cleared. -/
def Separated (log : List Exec) : Prop := Fits (fun before e => e.arguments.isSome → Cleared e.container before) log

/-- Each launch of QPEP finds its container configured. -/
def Configured (log : List Exec) : Prop := Fits (fun before e => e.arguments.isSome → configure e.container ∈ before) log

@[simp] theorem arguments_goRun (name : ContainerName) (args : List (List Char)) (detach : Bool) :
    (Exec.mk name (goRun ++ args) detach).arguments = some args := by
  simp [Exec.arguments]

theorem cleared_of {name : ContainerName} {log new : List Exec} (hlog : log = [] ∨ pkill name ∈ new)
    (hnew : ∀ e ∈ new, e.arguments.isSome → e.container ≠ name) : Cleared name (log ++ new) := by
  intro before e rest hrow hlaunch hname
  rcases List.append_eq_append_iff.mp hrow with ⟨mid, -, hmid⟩ | ⟨mid, hbefore, hmid⟩
  · exact absurd hname (hnew e (by simp [hmid]) hlaunch)
  · cases mid with
    | nil =>
      have hfirst : new = e :: rest := hmid.symm
      exact absurd hname (hnew e (by simp [hfirst]) hlaunch)
    | cons b mid =>
      obtain ⟨rfl, rfl⟩ := List.cons.inj hmid
      rcases hlog with hnil | hkill
      · simp [hnil] at hbefore
      · exact List.mem_append_right mid hkill

/-! ## The words of the commands -/

theorem plainWord_append {w v : List Char} (hw : ∀ c ∈ w, isPlain c = true) (hv : PlainWord v) : PlainWord (w ++ v) := by
  refine ⟨?_, ?_⟩
  · exact List.append_ne_nil_of_right_ne_nil w hv.1
  · intro c hc
    rcases List.mem_append.mp hc with hc | hc
    · exact hw c hc
    · exact hv.2 c hc

/-- A number needs no quotes. -/
theorem plainWord_itoa (n : Int) : PlainWord (Net.itoa n) := by
  have hdigit : ∀ c : Char, c.isDigit = true → isPlain c = true := by
    intro c hc
    simp only [isPlain, isBlank, isQuote, Bool.and_eq_true, Bool.not_eq_true', Bool.or_eq_false_iff, beq_eq_false_iff_ne,
      bne_iff_ne]
    refine ⟨⟨⟨⟨⟨?_, ?_⟩, ?_⟩, ?_⟩, ?_, ?_⟩, ?_⟩
    all_goals
      intro h
      rw [h] at hc
      exact absurd hc (by decide)
  cases n with
  | ofNat n =>
    refine ⟨Nat.toDigits_ne_nil, fun c hc => hdigit c ?_⟩
    exact Nat.isDigit_of_mem_toDigits (by decide) (by decide) hc
  | negSucc n =>
    refine ⟨List.cons_ne_nil _ _, ?_⟩
    intro c hc
    rcases List.mem_cons.mp hc with rfl | hc
    · decide
    · exact hdigit c (Nat.isDigit_of_mem_toDigits (by decide) (by decide) hc)

/-- A literal in front of a word from outside. -/
theorem literal_words {chars : List Char} (words : List String) (h : chars = blankBehind (words.map String.toList)) :
    (String.ofList chars).toList = blankBehind (words.map String.toList) := by
  rw [String.toList_ofList, h]

section Words

variable {setup : Setup} (hsetup : setup.Plain)
include hsetup

/-- The words of a command with a number, or another word from outside, at its end. -/
theorem split_end {cmd : List Char} {ws : List (List Char)} {w : List Char} (hcmd : cmd = blankBehind ws ++ w)
    (hws : ∀ v ∈ ws, PlainWord v) (hw : PlainWord w) : setup.splitCommand cmd = .ok (ws ++ [w]) := by
  rw [hcmd]
  exact (hsetup.split hws hw).1

/-- The words of a command that is a literal. -/
theorem split_literal {chars : List Char} (words : List String) (last : String)
    (h : chars = blankBehind (words.map String.toList) ++ last.toList) (hwords : ∀ w ∈ words.map String.toList, PlainWord w)
    (hlast : PlainWord last.toList) :
    setup.splitCommand (String.ofList chars).toList = .ok ((words ++ [last]).map String.toList) := by
  rw [split_end hsetup ((String.toList_ofList (l := chars)).trans h) hwords hlast, List.map_append]
  rfl

end Words

/-! ## What each deployment gives the containers -/

/-- A program that gives the containers these commands. -/
def Gives (x : Deploy PUnit) (cs : List Exec) : Prop := Does x fun log => log ++ cs

theorem Gives.seq {x y : Deploy PUnit} {cs ds : List Exec} (hx : Gives x cs) (hy : Gives y ds) :
    Gives (x >>= fun _ => y) (cs ++ ds) := by
  intro log
  rw [Does.seq hx hy log]
  exact congrArg (EStateM.Result.ok PUnit.unit) (List.append_assoc log cs ds)

theorem exec_gives {setup : Setup} {cmd : List Char} {words : List (List Char)} (hsplit : setup.splitCommand cmd = .ok words)
    (name : ContainerName) (detach : Bool) : Gives (exec setup name cmd detach) [⟨name, words, detach⟩] := by
  intro log
  rw [exec, hsplit]
  rfl

/-- A command that is a literal. -/
theorem literal_gives {setup : Setup} (hsetup : setup.Plain) {chars : List Char} (words : List String) (last : String)
    (h : chars = blankBehind (words.map String.toList) ++ last.toList) (hwords : ∀ w ∈ words.map String.toList, PlainWord w)
    (hlast : PlainWord last.toList) (name : ContainerName) :
    Gives (execRun setup name (String.ofList chars).toList) [waited name (words ++ [last])] :=
  exec_gives (split_literal hsetup words last h hwords hlast) name false

section Literals

variable {setup : Setup} (hsetup : setup.Plain) (name : ContainerName)
include hsetup

theorem configure_gives : Gives (execRun setup name "bash /opensand_config/configure_qpep.sh".toList) [configure name] :=
  literal_gives hsetup ["bash"] "/opensand_config/configure_qpep.sh" (by decide) (by decide) (by decide) name

theorem launchPepsal_gives : Gives (execRun setup name "bash /opensand_config/launch_pepsal.sh".toList) [launchPepsal name] :=
  literal_gives hsetup ["bash"] "/opensand_config/launch_pepsal.sh" (by decide) (by decide) (by decide) name

theorem pkill_gives : Gives (execRun setup name "pkill -9 main".toList) [pkill name] :=
  literal_gives hsetup ["pkill", "-9"] "main" (by decide) (by decide) (by decide) name

end Literals

/-- The routes of `start_testbed` and `connect_terminal_workstation`. -/
def routes (setup : Setup) : List Exec :=
  [waited .st ["/sbin/ip", "route", "delete", "default"],
    ⟨.st, ["/sbin/ip", "route", "add", "default", "via"].map String.toList ++ [setup.gwNetworkHead ++ ".0.3".toList], false⟩,
    ⟨.wsSt, ["ip", "route", "add"].map String.toList ++
      [setup.hostIp, "via".toList, setup.guiNetworkHead ++ ".0.1".toList, "dev".toList] ++ ["eth1".toList], false⟩,
    waited .wsSt ["ip", "route", "del", "default"],
    ⟨.wsSt, ["ip", "route", "add", "default", "via"].map String.toList ++ [setup.stNetworkHead ++ ".0.4".toList], false⟩]

/-- What comes before the launches. -/
def preparation (d : Deployment) : List Exec :=
  match d.scenario, d.testbedUp with
  | .plain, _ => []
  | .openVPN, _ => [waited .wsSt ["openvpn", "--config", "/root/client.ovpn", "--daemon"]]
  | .qpep _, true => [configure .st, configure .wsGw] ++ [pkill .wsGw, pkill .st]
  | .qpepAck _, true | .qpepCongestion _, true => [pkill .st, pkill .wsGw]
  | .qpep _, false | .qpepAck _, false | .qpepCongestion _, false => [configure .st, configure .wsGw]
  | .pepsal terminal gateway, _ => (if terminal then [launchPepsal .st] else []) ++ if gateway then [launchPepsal .gw] else []

/-- The arguments of the client and the server that a scenario launches. -/
def argumentsOf (setup : Setup) : Scenario → Option (List (List Char) × List (List Char))
  | .qpep _ => some (["-client".toList, "-gateway".toList, setup.gwNetworkHead ++ ".0.9".toList], [])
  | .qpepAck ackLevel =>
    some (["-client".toList, "-minBeforeDecimation".toList, "2".toList, "-ackDelay".toList, "8000".toList, "-varAckDelay".toList,
        "16.0".toList, "-gateway".toList, setup.gwNetworkHead ++ ".0.9".toList, "-acks".toList, Net.itoa ackLevel],
      ["-minBeforeDecimation".toList, "2".toList, "-ackDelay".toList, "8000".toList, "-varAckDelay".toList, "16.0".toList])
  | .qpepCongestion congestionWindow =>
    some (["-client".toList, "-gateway".toList, setup.gwNetworkHead ++ ".0.9".toList, "-congestion".toList,
      Net.itoa congestionWindow],
      ["-congestion".toList, Net.itoa congestionWindow])
  | .plain | .openVPN | .pepsal _ _ => none

/-- The launches, which nothing waits for. -/
def launching (setup : Setup) (scenario : Scenario) : List Exec :=
  (argumentsOf setup scenario).elim [] fun args => [⟨.st, goRun ++ args.1, true⟩, ⟨.wsGw, goRun ++ args.2, true⟩]

/-- What a deployment gives the containers before its launches. -/
def prepared (setup : Setup) (d : Deployment) : List Exec := (if d.testbedUp then [] else routes setup) ++ preparation d

/-- All commands of a deployment. -/
def commandsOf (setup : Setup) (d : Deployment) : List Exec := prepared setup d ++ launching setup d.scenario

/-- `start_testbed` and `connect_terminal_workstation` leave what new containers were given. -/
theorem superDeployScenario_does {setup : Setup} (hsetup : setup.Plain) :
    Does (superDeployScenario setup) fun _ => routes setup := by
  have hrouter : setup.splitCommand ("/sbin/ip route add default via ".toList ++ setup.gwNetworkHead ++ ".0.3".toList) =
      .ok (["/sbin/ip", "route", "add", "default", "via"].map String.toList ++ [setup.gwNetworkHead ++ ".0.3".toList]) := by
    have hliteral : "/sbin/ip route add default via ".toList = _ :=
      literal_words ["/sbin/ip", "route", "add", "default", "via"] (by decide)
    exact split_end hsetup (by rw [hliteral, List.append_assoc]) (by decide) (plainWord_append hsetup.gw (by decide))
  have hterminal : setup.splitCommand ("ip route add default via ".toList ++ setup.stNetworkHead ++ ".0.4".toList) =
      .ok (["ip", "route", "add", "default", "via"].map String.toList ++ [setup.stNetworkHead ++ ".0.4".toList]) := by
    have hliteral : "ip route add default via ".toList = _ := literal_words ["ip", "route", "add", "default", "via"] (by decide)
    exact split_end hsetup (by rw [hliteral, List.append_assoc]) (by decide) (plainWord_append hsetup.st (by decide))
  have hhost : setup.splitCommand
        ("ip route add ".toList ++ setup.hostIp ++ " via ".toList ++ setup.guiNetworkHead ++ ".0.1 dev eth1".toList) =
      .ok (["ip", "route", "add"].map String.toList ++
        [setup.hostIp, "via".toList, setup.guiNetworkHead ++ ".0.1".toList, "dev".toList] ++ ["eth1".toList]) := by
    refine split_end hsetup (by simp [blankBehind]) ?_ (by decide)
    rw [List.forall_mem_append]
    simp only [List.forall_mem_cons]
    exact ⟨by decide, hsetup.host, by decide, plainWord_append hsetup.gui (by decide), by decide, by simp⟩
  have hdelete : Gives (execRun setup .st "/sbin/ip route delete default".toList)
      [waited .st ["/sbin/ip", "route", "delete", "default"]] :=
    literal_gives hsetup ["/sbin/ip", "route", "delete"] "default" (by decide) (by decide) (by decide) .st
  have hdel : Gives (execRun setup .wsSt "ip route del default".toList) [waited .wsSt ["ip", "route", "del", "default"]] :=
    literal_gives hsetup ["ip", "route", "del"] "default" (by decide) (by decide) (by decide) .wsSt
  have hstart : Does (startTestbed setup) _ := (does_set []).seq (hdelete.seq (exec_gives hrouter .st false))
  have hconnect : Gives (connectTerminalWorkstation setup) _ :=
    (exec_gives hhost .wsSt false).seq (hdel.seq (exec_gives hterminal .wsSt false))
  exact hstart.seq hconnect

theorem startUnlessUp_does {setup : Setup} (hsetup : setup.Plain) (up : Bool) :
    Does (startUnlessUp setup up) fun log => if up then log else routes setup := by
  unfold startUnlessUp
  cases up with
  | true => exact does_pure
  | false => exact superDeployScenario_does hsetup

/-- What a deployment leaves, when what it does is known. -/
theorem deployment_does {setup : Setup} {d : Deployment} {x : Deploy PUnit} {f : List Exec → List Exec} (hx : Does x f)
    (hf : ∀ log, f log = (if d.testbedUp then log else routes setup) ++ (preparation d ++ launching setup d.scenario)) :
    Does x fun log => (if d.testbedUp then log else []) ++ commandsOf setup d := by
  intro log
  rw [hx log, hf log, commandsOf, prepared]
  cases d.testbedUp <;> simp

theorem clearOrConfigure_does {setup : Setup} (hsetup : setup.Plain) (up : Bool) :
    Does (clearOrConfigure setup up) fun log =>
      (if up then log else routes setup) ++ if up then [pkill .st, pkill .wsGw] else [configure .st, configure .wsGw] := by
  have hstart := startUnlessUp_does hsetup up
  cases up with
  | true => exact hstart.seq ((pkill_gives hsetup .st).seq (pkill_gives hsetup .wsGw))
  | false => exact hstart.seq ((configure_gives hsetup .st).seq (configure_gives hsetup .wsGw))

/-- The launches of QPEP, from the words of the two commands. -/
theorem launching_gives (setup : Setup) (scenario : Scenario) {client server : List Char}
    {args : List (List Char) × List (List Char)}
    (hargs : argumentsOf setup scenario = some args) (hclient : setup.splitCommand client = .ok (goRun ++ args.1))
    (hserver : setup.splitCommand server = .ok (goRun ++ args.2)) :
    Gives (execRunDetached setup .st client >>= fun _ => execRunDetached setup .wsGw server) (launching setup scenario) := by
  rw [launching, hargs]
  exact (exec_gives hclient .st true).seq (exec_gives hserver .wsGw true)

theorem qpep_does {setup : Setup} (hsetup : setup.Plain) (multiStream up : Bool) :
    Does (qpepDeployScenario setup up) fun log => (if up then log else []) ++ commandsOf setup ⟨.qpep multiStream, up⟩ := by
  have hplain : PlainWord (setup.gwNetworkHead ++ ".0.9".toList) := plainWord_append hsetup.gw (by decide)
  have hwords : ∀ w ∈ goRun ++ ["-client".toList, "-gateway".toList], PlainWord w := by decide
  have hclient : setup.splitCommand
        ("go run /root/go/src/qpep/main.go -client -gateway ".toList ++ setup.gwNetworkHead ++ ".0.9 ".toList) =
      .ok (goRun ++ ["-client".toList, "-gateway".toList, setup.gwNetworkHead ++ ".0.9".toList]) := by
    have hliteral : "go run /root/go/src/qpep/main.go -client -gateway ".toList = _ :=
      literal_words ["go", "run", "/root/go/src/qpep/main.go", "-client", "-gateway"] (by decide)
    rw [hliteral]
    simpa [blankBehind, goRun] using (hsetup.split hwords hplain).2
  have hserver : setup.splitCommand "go run /root/go/src/qpep/main.go".toList = .ok (goRun ++ []) :=
    split_literal hsetup ["go", "run"] "/root/go/src/qpep/main.go" (by decide) (by decide) (by decide)
  have hstart := startUnlessUp_does hsetup up
  have hlaunch := launching_gives setup (.qpep multiStream) rfl hclient hserver
  cases up with
  | true =>
    have hconfigured := (configure_gives hsetup .st).seq ((configure_gives hsetup .wsGw).seq
      ((pkill_gives hsetup .wsGw).seq ((pkill_gives hsetup .st).seq hlaunch)))
    refine deployment_does (d := ⟨.qpep multiStream, true⟩) (hstart.seq hconfigured) ?_
    intro log
    simp [preparation]
  | false =>
    have hconfigured := (configure_gives hsetup .st).seq ((configure_gives hsetup .wsGw).seq hlaunch)
    refine deployment_does (d := ⟨.qpep multiStream, false⟩) (hstart.seq hconfigured) ?_
    intro log
    simp [preparation]

theorem qpepAck_does {setup : Setup} (hsetup : setup.Plain) (ackLevel : Int) (up : Bool) :
    Does (qpepAckDeployScenario setup up ackLevel) fun log =>
      (if up then log else []) ++ commandsOf setup ⟨.qpepAck ackLevel, up⟩ := by
  have hplain : PlainWord (setup.gwNetworkHead ++ ".0.9".toList) := plainWord_append hsetup.gw (by decide)
  have hwords : ∀ w ∈ goRun ++ ["-client", "-minBeforeDecimation", "2", "-ackDelay", "8000", "-varAckDelay", "16.0",
      "-gateway"].map String.toList ++ [setup.gwNetworkHead ++ ".0.9".toList, "-acks".toList], PlainWord w := by
    rw [List.forall_mem_append]
    exact ⟨by decide, List.forall_mem_cons.mpr ⟨hplain, by decide⟩⟩
  have hclient : setup.splitCommand
        ("go run /root/go/src/qpep/main.go -client -minBeforeDecimation 2 -ackDelay 8000 -varAckDelay 16.0 -gateway ".toList ++
          setup.gwNetworkHead ++ ".0.9 -acks ".toList ++ Net.itoa ackLevel) =
      .ok (goRun ++ ["-client".toList, "-minBeforeDecimation".toList, "2".toList, "-ackDelay".toList, "8000".toList,
        "-varAckDelay".toList, "16.0".toList, "-gateway".toList, setup.gwNetworkHead ++ ".0.9".toList, "-acks".toList,
        Net.itoa ackLevel]) := by
    have hliteral :
        "go run /root/go/src/qpep/main.go -client -minBeforeDecimation 2 -ackDelay 8000 -varAckDelay 16.0 -gateway ".toList = _ :=
      literal_words ["go", "run", "/root/go/src/qpep/main.go", "-client", "-minBeforeDecimation", "2", "-ackDelay", "8000",
        "-varAckDelay", "16.0", "-gateway"] (by decide)
    rw [hliteral]
    simpa [blankBehind, goRun] using (hsetup.split hwords (plainWord_itoa ackLevel)).1
  have hserver : setup.splitCommand
        "go run /root/go/src/qpep/main.go -minBeforeDecimation 2 -ackDelay 8000 -varAckDelay 16.0".toList =
      .ok (goRun ++ ["-minBeforeDecimation".toList, "2".toList, "-ackDelay".toList, "8000".toList, "-varAckDelay".toList,
        "16.0".toList]) :=
    split_literal hsetup ["go", "run", "/root/go/src/qpep/main.go", "-minBeforeDecimation", "2", "-ackDelay", "8000",
      "-varAckDelay"] "16.0" (by decide) (by decide) (by decide)
  have hlaunch := launching_gives setup (.qpepAck ackLevel) rfl hclient hserver
  refine deployment_does (d := ⟨.qpepAck ackLevel, up⟩) ((clearOrConfigure_does hsetup up).seq hlaunch) ?_
  intro log
  cases up <;> simp [preparation]

theorem qpepCongestion_does {setup : Setup} (hsetup : setup.Plain) (congestionWindow : Int) (up : Bool) :
    Does (qpepCongestionDeployScenario setup up congestionWindow) fun log =>
      (if up then log else []) ++ commandsOf setup ⟨.qpepCongestion congestionWindow, up⟩ := by
  have hplain : PlainWord (setup.gwNetworkHead ++ ".0.9".toList) := plainWord_append hsetup.gw (by decide)
  have hclient : setup.splitCommand ("go run /root/go/src/qpep/main.go -client -gateway ".toList ++ setup.gwNetworkHead ++
        ".0.9 -congestion ".toList ++ Net.itoa congestionWindow) =
      .ok (goRun ++ ["-client".toList, "-gateway".toList, setup.gwNetworkHead ++ ".0.9".toList, "-congestion".toList,
        Net.itoa congestionWindow]) := by
    have hwords : ∀ w ∈ goRun ++ ["-client".toList, "-gateway".toList] ++
        [setup.gwNetworkHead ++ ".0.9".toList, "-congestion".toList], PlainWord w := by
      rw [List.forall_mem_append]
      exact ⟨by decide, List.forall_mem_cons.mpr ⟨hplain, by decide⟩⟩
    have hliteral : "go run /root/go/src/qpep/main.go -client -gateway ".toList = _ :=
      literal_words ["go", "run", "/root/go/src/qpep/main.go", "-client", "-gateway"] (by decide)
    rw [hliteral]
    simpa [blankBehind, goRun] using (hsetup.split hwords (plainWord_itoa congestionWindow)).1
  have hserver : setup.splitCommand ("go run /root/go/src/qpep/main.go -congestion ".toList ++ Net.itoa congestionWindow) =
      .ok (goRun ++ ["-congestion".toList, Net.itoa congestionWindow]) := by
    have hwords : ∀ w ∈ goRun ++ ["-congestion".toList], PlainWord w := by decide
    simpa [blankBehind, goRun] using (hsetup.split hwords (plainWord_itoa congestionWindow)).1
  have hlaunch := launching_gives setup (.qpepCongestion congestionWindow) rfl hclient hserver
  refine deployment_does (d := ⟨.qpepCongestion congestionWindow, up⟩) ((clearOrConfigure_does hsetup up).seq hlaunch) ?_
  intro log
  cases up <;> simp [preparation]

theorem pepsal_does {setup : Setup} (hsetup : setup.Plain) (terminal gateway up : Bool) :
    Does (pepsalDeployScenario setup up terminal gateway) fun log =>
      (if up then log else []) ++ commandsOf setup ⟨.pepsal terminal gateway, up⟩ := by
  have hstart := startUnlessUp_does hsetup up
  have hnone : argumentsOf setup (.pepsal terminal gateway) = none := rfl
  cases terminal with
  | true =>
    cases gateway with
    | true =>
      refine deployment_does (d := ⟨.pepsal true true, up⟩)
        (hstart.seq ((launchPepsal_gives hsetup .st).seq (launchPepsal_gives hsetup .gw))) ?_
      simp [preparation, launching, hnone]
    | false =>
      refine deployment_does (d := ⟨.pepsal true false, up⟩)
        (hstart.seq (Does.seq (launchPepsal_gives hsetup .st) does_pure)) ?_
      simp [preparation, launching, hnone]
  | false =>
    cases gateway with
    | true =>
      refine deployment_does (d := ⟨.pepsal false true, up⟩) (hstart.seq (launchPepsal_gives hsetup .gw)) ?_
      simp [preparation, launching, hnone]
    | false =>
      refine deployment_does (d := ⟨.pepsal false false, up⟩) (hstart.seq does_pure) ?_
      simp [preparation, launching, hnone]

/-- Any deployment, on whatever it finds. -/
theorem deployScenario_does {setup : Setup} (hsetup : setup.Plain) (d : Deployment) :
    Does (deployScenario setup d) fun log => (if d.testbedUp then log else []) ++ commandsOf setup d := by
  obtain ⟨scenario, up⟩ := d
  have hstart := startUnlessUp_does hsetup up
  cases scenario with
  | plain =>
    refine deployment_does (d := ⟨.plain, up⟩) hstart ?_
    simp [preparation, launching, argumentsOf]
  | openVPN =>
    have hopenvpn : Gives (execRun setup .wsSt "openvpn --config /root/client.ovpn --daemon".toList)
        [waited .wsSt ["openvpn", "--config", "/root/client.ovpn", "--daemon"]] :=
      literal_gives hsetup ["openvpn", "--config", "/root/client.ovpn"] "--daemon" (by decide) (by decide) (by decide) .wsSt
    refine deployment_does (d := ⟨.openVPN, up⟩) (hstart.seq hopenvpn) ?_
    simp [preparation, launching, argumentsOf]
  | qpep multiStream => exact qpep_does hsetup multiStream up
  | qpepAck ackLevel => exact qpepAck_does hsetup ackLevel up
  | qpepCongestion congestionWindow => exact qpepCongestion_does hsetup congestionWindow up
  | pepsal terminal gateway => exact pepsal_does hsetup terminal gateway up

/-! ## What QPEP makes of its command line -/

/-- An option whose value stands in the next word. -/
def apart (s : Setting F) (text : List Char) : Spelled F := ⟨s, text, false, false⟩

theorem apart_valid {fl : Floats F} {s : Setting F} {text : List Char} (hs : s.Reads fl text)
    (hbool : (s.flag fl).isBool = true → text = "true".toList) : (apart s text).Valid fl := ⟨hs, fun hb _ => hbool hb⟩

theorem apart_client_valid (fl : Floats F) : (apart (.client true) "true".toList).Valid fl :=
  apart_valid (show Strconv.parseBool "true".toList = some true by decide) fun _ => rfl

theorem apart_gateway_valid (fl : Floats F) (ip : List Char) : (apart (.gateway ip) ip).Valid fl := by
  refine apart_valid rfl ?_
  intro h
  cases h

/-- A command line comes to what its options come to. -/
theorem init_options {fl : Floats F} (ss : List (Spelled F)) (hss : ∀ s ∈ ss, s.Valid fl) {args : List (List Char)}
    (hargs : render fl ss = args) {cfg : QuicConfig F} (hcfg : configuration fl ss = cfg) : init fl args = .ok cfg := by
  have hinit := init_render hss Ends.none
  rwa [List.append_nil, hargs, hcfg] at hinit

theorem init_qpep_client (fl : Floats F) (ip : List Char) :
    init fl ["-client".toList, "-gateway".toList, ip] = .ok { default fl with clientFlag := true, gatewayIP := ip } := by
  refine init_options [apart (.client true) "true".toList, apart (.gateway ip) ip] ?_ rfl rfl
  simp only [List.forall_mem_cons]
  exact ⟨apart_client_valid fl, apart_gateway_valid fl ip, by simp⟩

/-- The options of `QPEPAckScenario` that the client and the server have in common. -/
def ackOptions (sixteen : F) : List (Spelled F) :=
  [apart (.minBeforeDecimation 2) "2".toList, apart (.ackDelay 8000) "8000".toList, apart (.varAckDelay sixteen) "16.0".toList]

theorem ackOptions_valid {fl : Floats F} {sixteen : F} (h16 : fl.parseFloat "16.0".toList = some sixteen) :
    ∀ s ∈ ackOptions sixteen, s.Valid fl := by
  simp only [ackOptions, List.forall_mem_cons]
  refine ⟨apart_valid ?_ fun h => ?_, apart_valid ?_ fun h => ?_, apart_valid h16 fun h => ?_, by simp⟩
  · exact (by decide : Strconv.parseInt "2".toList = some 2)
  · cases h
  · exact (by decide : Strconv.parseInt "8000".toList = some 8000)
  · cases h
  · cases h

theorem init_ack_server {fl : Floats F} {sixteen : F} (h16 : fl.parseFloat "16.0".toList = some sixteen) :
    init fl ["-minBeforeDecimation".toList, "2".toList, "-ackDelay".toList, "8000".toList, "-varAckDelay".toList, "16.0".toList] =
      .ok { default fl with minReceivedBeforeAckDecimation := 2, maxAckDelay := 8000, varAckDelay := sixteen } :=
  init_options (ackOptions sixteen) (ackOptions_valid h16) rfl rfl

theorem init_ack_client {fl : Floats F} {sixteen : F} (h16 : fl.parseFloat "16.0".toList = some sixteen) (ip : List Char)
    {n : Int}
    (hn : Strconv.InRange n) :
    init fl ["-client".toList, "-minBeforeDecimation".toList, "2".toList, "-ackDelay".toList, "8000".toList,
      "-varAckDelay".toList,
        "16.0".toList, "-gateway".toList, ip, "-acks".toList, Net.itoa n] =
      .ok { default fl with
        clientFlag := true, gatewayIP := ip, ackElicitingPacketsBeforeAck := n
        minReceivedBeforeAckDecimation := 2, maxAckDelay := 8000, varAckDelay := sixteen } := by
  have hacks : (apart (.acks n) (Net.itoa n)).Valid fl := apart_valid (Strconv.parseInt_itoa hn) fun h => by cases h
  refine init_options
    (apart (.client true) "true".toList :: (ackOptions sixteen ++ [apart (.gateway ip) ip, apart (.acks n) (Net.itoa n)]))
    ?_ ?_ ?_
  · simp only [List.forall_mem_append, List.forall_mem_cons]
    exact ⟨apart_client_valid fl, ackOptions_valid h16, apart_gateway_valid fl ip, hacks, by simp⟩
  · simp [render, ackOptions, apart, Spelled.words, Spelled.written, Written.words, Setting.flag, intFlag, boolFlag,
    floatFlag, stringFlag,
      Shared.clientFlag, minReceivedBeforeAckDecimationFlag, maxAckDelayFlag, varAckDelayFlag, gatewayFlag, ackElicitingFlag]
  · rfl

theorem apart_congestion_valid (fl : Floats F) {n : Int} (hn : Strconv.InRange n) :
    (apart (.congestion n) (Net.itoa n)).Valid fl :=
  apart_valid (Strconv.parseInt_itoa hn) fun h => by cases h

theorem init_congestion_client (fl : Floats F) (ip : List Char) {n : Int} (hn : Strconv.InRange n) :
    init fl ["-client".toList, "-gateway".toList, ip, "-congestion".toList, Net.itoa n] =
      .ok { default fl with clientFlag := true, gatewayIP := ip, initialCongestionWindowPackets := n } := by
  refine init_options [apart (.client true) "true".toList, apart (.gateway ip) ip, apart (.congestion n) (Net.itoa n)] ?_ rfl rfl
  simp only [List.forall_mem_cons]
  exact ⟨apart_client_valid fl, apart_gateway_valid fl ip, apart_congestion_valid fl hn, by simp⟩

theorem init_congestion_server (fl : Floats F) {n : Int} (hn : Strconv.InRange n) :
    init fl ["-congestion".toList, Net.itoa n] = .ok { default fl with initialCongestionWindowPackets := n } := by
  refine init_options [apart (.congestion n) (Net.itoa n)] ?_ rfl rfl
  simp only [List.forall_mem_cons]
  exact ⟨apart_congestion_valid fl hn, by simp⟩

/-- The arguments of a scenario come to its configurations. -/
theorem init_argumentsOf (setup : Setup) {fl : Floats F} {sixteen : F} (h16 : fl.parseFloat "16.0".toList = some sixteen)
    {scenario : Scenario} (hscenario : scenario.InRange) :
    (argumentsOf setup scenario).map (fun args => (init fl args.1, init fl args.2)) =
      (configsOf setup fl sixteen scenario).map fun cfgs => (.ok cfgs.1, .ok cfgs.2) := by
  cases scenario with
  | qpep multiStream =>
    simp only [argumentsOf, configsOf, Option.map_some, init_qpep_client]
    rfl
  | qpepAck ackLevel =>
    simp only [argumentsOf, configsOf, Option.map_some, init_ack_client h16 _ hscenario, init_ack_server h16]
    rfl
  | qpepCongestion congestionWindow =>
    simp only [argumentsOf, configsOf, Option.map_some, init_congestion_client fl _ hscenario,
      init_congestion_server fl hscenario]
    rfl
  | plain | openVPN | pepsal terminal gateway => rfl

theorem isQpep_eq (setup : Setup) (scenario : Scenario) : scenario.isQpep = (argumentsOf setup scenario).isSome := by
  cases scenario <;> rfl

/-! ## What stands in the commands of a deployment -/

/-- Before the launches nothing is one. -/
theorem arguments_prepared (setup : Setup) (d : Deployment) : ∀ e ∈ prepared setup d, e.arguments = none := by
  have hroutes : ∀ e ∈ routes setup, e.arguments = none := by
    simp [routes, waited, Exec.arguments, goRun]
  have hprep : ∀ e ∈ preparation d, e.arguments = none := by
    unfold preparation
    split <;> simp [waited, pkill, configure, launchPepsal, Exec.arguments, goRun]
    all_goals grind
  intro e he
  rcases List.mem_append.mp he with he | he
  · cases hup : d.testbedUp with
    | true => simp [hup] at he
    | false => exact hroutes e (by simpa [hup] using he)
  · exact hprep e he

/-- The launches are those of the scenario. -/
theorem launch_commandsOf {setup : Setup} {fl : Floats F} {sixteen : F} (h16 : fl.parseFloat "16.0".toList = some sixteen)
    {d : Deployment} (hd : d.scenario.InRange) :
    (commandsOf setup d).filterMap (Exec.launch fl) = launchesOf setup fl sixteen d.scenario := by
  have hprep : (prepared setup d).filterMap (Exec.launch fl) = [] := by
    refine List.filterMap_eq_nil_iff.mpr ?_
    intro e he
    simp [Exec.launch, arguments_prepared setup d e he]
  have hinit := init_argumentsOf setup h16 hd
  rw [commandsOf, List.filterMap_append, hprep, List.nil_append, launching, launchesOf]
  cases hargs : argumentsOf setup d.scenario with
  | none =>
    rw [hargs, Option.map_none] at hinit
    rw [Option.map_eq_none_iff.mp hinit.symm]
    rfl
  | some args =>
    rw [hargs, Option.map_some] at hinit
    obtain ⟨cfgs, hcfgs, heq⟩ := Option.map_eq_some_iff.mp hinit.symm
    obtain ⟨hclient, hserver⟩ := Prod.mk.inj heq
    rw [hcfgs]
    simp [Exec.launch, hclient, hserver]

/-- A deployment that launches QPEP where it may run kills it first. -/
theorem pkill_mem_prepared {setup : Setup} {d : Deployment} (hup : d.testbedUp = true)
    (hqpep : (argumentsOf setup d.scenario).isSome) {name : ContainerName} (hname : name = .st ∨ name = .wsGw) :
    pkill name ∈ prepared setup d := by
  refine List.mem_append_right _ ?_
  obtain ⟨scenario, up⟩ := d
  obtain rfl : up = true := hup
  cases scenario with
  | qpep multiStream => rcases hname with rfl | rfl <;> simp [preparation]
  | qpepAck n | qpepCongestion n => rcases hname with rfl | rfl <;> simp [preparation]
  | plain | openVPN | pepsal terminal gateway => cases hqpep

/-- The containers of QPEP are configured by the deployments that say so. -/
theorem configure_mem_prepared {setup : Setup} {d : Deployment} {name : ContainerName} (hname : name = .st ∨ name = .wsGw) :
    configure name ∈ prepared setup d ↔ d.configures = true := by
  have hroutes : configure name ∉ routes setup := by
    simp [routes, configure, waited]
  have hprep : configure name ∈ preparation d ↔ d.configures = true := by
    obtain ⟨scenario, up⟩ := d
    cases scenario with
    | plain | openVPN => simp [preparation, Deployment.configures, configure, waited]
    | qpep multiStream => cases up <;> rcases hname with rfl | rfl <;> simp [preparation, Deployment.configures]
    | qpepAck n | qpepCongestion n =>
      cases up <;> rcases hname with rfl | rfl <;> simp [preparation, Deployment.configures, configure, pkill, waited]
    | pepsal terminal gateway =>
      cases terminal <;> cases gateway <;> simp [preparation, Deployment.configures, configure, launchPepsal, waited]
  rw [prepared, List.mem_append, hprep]
  cases d.testbedUp <;> simp [hroutes]

/-- What the launches of a deployment are to find: the client what was prepared, the server the client's launch as well. -/
theorem fits_commandsOf {setup : Setup} {d : Deployment} {P : List Exec → Exec → Prop} :
    Fits (fun before e => e.arguments.isSome → P before e) (commandsOf setup d) ↔
      ∀ args, argumentsOf setup d.scenario = some args → P (prepared setup d) ⟨.st, goRun ++ args.1, true⟩ ∧
        P (prepared setup d ++ [⟨.st, goRun ++ args.1, true⟩]) ⟨.wsGw, goRun ++ args.2, true⟩ := by
  have hprep : Fits (fun before e => e.arguments.isSome → P before e) (prepared setup d) := by
    refine fits_of_forall ?_
    intro e he before hlaunch
    simp [arguments_prepared setup d e he] at hlaunch
  rw [commandsOf, fits_append, launching]
  cases hargs : argumentsOf setup d.scenario with
  | none => simp [hprep, fits_nil]
  | some args => simp [hprep, fits_cons, fits_nil]

/-- A deployment on new containers, or on those that are up, launches QPEP in containers that are cleared. -/
theorem separated_commandsOf {setup : Setup} {d : Deployment} {log : List Exec} (hlog : log = [] ∨ d.testbedUp = true) :
    Fits (fun before e => e.arguments.isSome → Cleared e.container (log ++ before)) (commandsOf setup d) := by
  rw [fits_commandsOf]
  intro args hargs
  have hkill : ∀ {name}, name = .st ∨ name = .wsGw → log = [] ∨ pkill name ∈ prepared setup d := by
    intro name hname
    refine hlog.imp_right ?_
    intro hup
    exact pkill_mem_prepared hup (by rw [hargs, Option.isSome_some]) hname
  have hnone : ∀ e ∈ prepared setup d, ∀ name, e.arguments.isSome → e.container ≠ name := by
    intro e he name hlaunch
    simp [arguments_prepared setup d e he] at hlaunch
  refine ⟨cleared_of (hkill (Or.inl rfl)) fun e he => hnone e he .st, cleared_of ?_ ?_⟩
  · exact (hkill (Or.inr rfl)).imp_right (List.mem_append_left _)
  · intro e he
    rcases List.mem_append.mp he with he | he
    · exact hnone e he .wsGw
    · rw [List.mem_singleton.mp he]
      exact fun _ => by simp

/-- Its launches find their containers configured if it configures them or they were before. -/
theorem configured_commandsOf {setup : Setup} {d : Deployment} {log : List Exec} {before : Prop}
    (hlog : ∀ name, name = .st ∨ name = .wsGw → (configure name ∈ log ↔ before)) :
    Fits (fun earlier e => e.arguments.isSome → configure e.container ∈ log ++ earlier) (commandsOf setup d) ↔
      (d.scenario.isQpep → before ∨ d.configures) := by
  have hst : configure .st ∈ log ++ prepared setup d ↔ before ∨ d.configures = true := by
    rw [List.mem_append, hlog .st (Or.inl rfl), configure_mem_prepared (Or.inl rfl)]
  have hwsGw : configure .wsGw ∈ log ++ prepared setup d ↔ before ∨ d.configures = true := by
    rw [List.mem_append, hlog .wsGw (Or.inr rfl), configure_mem_prepared (Or.inr rfl)]
  rw [fits_commandsOf]
  cases hargs : argumentsOf setup d.scenario with
  | none =>
    have hqpep : d.scenario.isQpep = false := by rw [isQpep_eq setup, hargs, Option.isSome_none]
    simp [hqpep]
  | some args =>
    have hqpep : d.scenario.isQpep = true := by rw [isQpep_eq setup, hargs, Option.isSome_some]
    have hne : configure .wsGw ≠ ⟨.st, goRun ++ args.1, true⟩ := by simp [configure, waited]
    have hlater : configure .wsGw ∈ log ++ (prepared setup d ++ [⟨.st, goRun ++ args.1, true⟩]) ↔
        before ∨ d.configures = true := by
      rw [← List.append_assoc, List.mem_append, List.mem_singleton, hwsGw]
      simp [hne]
    simp only [Option.some.injEq, forall_eq', hqpep, forall_const]
    rw [hst, hlater, and_self]

/-- The launches are no configuration. -/
theorem configure_mem_commandsOf {setup : Setup} {d : Deployment} {name : ContainerName} (hname : name = .st ∨ name = .wsGw) :
    configure name ∈ commandsOf setup d ↔ d.configures = true := by
  have hlaunching : configure name ∉ launching setup d.scenario := by
    rw [launching]
    cases argumentsOf setup d.scenario <;> simp [configure, waited]
  rw [commandsOf, List.mem_append, configure_mem_prepared hname]
  simp [hlaunching]

/-! ## One after the other -/

theorem sinceNew_append (ds : List Deployment) (d : Deployment) :
    sinceNew (ds ++ [d]) = if d.testbedUp then sinceNew ds ++ [d] else [d] := by
  simp [sinceNew, List.foldl_append]

theorem sinceNew_subset (ds : List Deployment) : ∀ d ∈ sinceNew ds, d ∈ ds := by
  induction ds using List.reverseRecOn with
  | nil => simp [sinceNew]
  | append_singleton ds d ih =>
    intro d' hd'
    rw [sinceNew_append] at hd'
    split at hd'
    · rcases List.mem_append.mp hd' with hd' | hd'
      · exact List.mem_append_left _ (ih d' hd')
      · exact List.mem_append_right _ hd'
    · exact List.mem_append_right _ hd'

/-- Only the first deployment since then can be on new containers. -/
theorem sinceNew_up (ds : List Deployment) : Fits (fun done d => done = [] ∨ d.testbedUp = true) (sinceNew ds) := by
  induction ds using List.reverseRecOn with
  | nil => exact fits_nil
  | append_singleton ds d ih =>
    rw [sinceNew_append]
    split
    · rename_i hup
      exact fits_snoc.mpr ⟨ih, Or.inr hup⟩
    · exact fits_singleton.mpr (Or.inl rfl)

/-- It is, if there was one on new containers. -/
theorem sinceNew_new {ds : List Deployment} (hnew : ∃ d ∈ ds, d.testbedUp = false) :
    ∃ d rest, sinceNew ds = d :: rest ∧ d.testbedUp = false := by
  induction ds using List.reverseRecOn with
  | nil =>
    obtain ⟨d, hd, -⟩ := hnew
    simp at hd
  | append_singleton ds d ih =>
    rw [sinceNew_append]
    cases hup : d.testbedUp with
    | false => exact ⟨d, [], rfl, hup⟩
    | true =>
      have hold : ∃ d ∈ ds, d.testbedUp = false := by
        obtain ⟨d', hd', hnew'⟩ := hnew
        rcases List.mem_append.mp hd' with hd' | hd'
        · exact ⟨d', hd', hnew'⟩
        · rw [List.mem_singleton.mp hd', hup] at hnew'
          exact absurd hnew' (by decide)
      obtain ⟨first, rest, hsince, hfirst⟩ := ih hold
      exact ⟨first, rest ++ [d], by simp [hsince], hfirst⟩

/-- The containers were given the commands of the deployments since they were new. -/
theorem deployAll_commands {setup : Setup} (hsetup : setup.Plain) (ds : List Deployment) :
    Triple (fun _ => True) (deployAll setup ds)
      (fun _ log => (∃ d ∈ ds, d.testbedUp = false) → log = (sinceNew ds).flatMap (commandsOf setup)) (fun _ _ => False) := by
  refine (triple_foldlM
    (fun done _ log => (∃ d ∈ done, d.testbedUp = false) → log = (sinceNew done).flatMap (commandsOf setup)) ?_).pre ?_
  · intro done d rest _ _
    refine triple_of_returns ?_
    intro log hdone
    refine ⟨⟨⟩, _, deployScenario_does hsetup d log, ?_⟩
    rintro ⟨d', hd', hnew⟩
    rw [sinceNew_append]
    cases hup : d.testbedUp with
    | true =>
      have hold : d' ∈ done := by
        rcases List.mem_append.mp hd' with hd' | hd'
        · exact hd'
        · rw [List.mem_singleton.mp hd', hup] at hnew
          exact absurd hnew (by decide)
      simp [hdone ⟨d', hold, hnew⟩, List.flatMap_append]
    | false => simp
  · intro log _ hnone
    obtain ⟨d, hd, -⟩ := hnone
    simp at hd

/-- Whatever is deployed one after the other, at least once on new containers, the commands that the containers were given
since they were new launch the QPEP of each scenario with its parameters, in the order of the deployments and in the
background; between two launches in a container there is a `pkill`; every launch comes behind the configuration of its
container exactly if each deployment of QPEP configures the containers or comes behind one that does; and the routes come
first. -/
theorem deployAll_spec {setup : Setup} (hsetup : setup.Plain) {fl : Floats F} {sixteen : F}
    (h16 : fl.parseFloat "16.0".toList = some sixteen) {ds : List Deployment} (hds : ∀ d ∈ ds, d.scenario.InRange)
    (hnew : ∃ d ∈ ds, d.testbedUp = false) (log : List Exec) :
    ∃ log', (deployAll setup ds).run log = .ok ⟨⟩ log' ∧
      log'.filterMap (Exec.launch fl) = (sinceNew ds).flatMap (fun d => launchesOf setup fl sixteen d.scenario) ∧
      Separated log' ∧
      (Configured log' ↔ Fits (fun done d => d.scenario.isQpep → (∃ d' ∈ done, d'.configures) ∨ d.configures) (sinceNew ds)) ∧
      routes setup <+: log' := by
  obtain ⟨_, log', hrun, hlog⟩ := (deployAll_commands hsetup ds).returns (s := log) trivial
  have hcommands := hlog hnew
  refine ⟨log', hrun, ?_, ?_, ?_, ?_⟩
  · have hin : ∀ d ∈ sinceNew ds, d.scenario.InRange := fun d hd => hds d (sinceNew_subset ds d hd)
    rw [hcommands, List.filterMap_flatMap]
    exact List.flatMap_congr fun d hd => launch_commandsOf h16 (hin d hd)
  · rw [hcommands]
    refine (fits_flatMap (Q := fun _ _ => True) ((sinceNew_up ds).mono ?_)).mpr (fits_of_forall fun _ _ _ => trivial)
    intro done d hdone
    refine iff_true_intro (separated_commandsOf (hdone.imp_left ?_))
    rintro rfl
    rfl
  · rw [hcommands]
    refine fits_flatMap (fits_of_forall ?_)
    intro d _ done
    refine configured_commandsOf ?_
    intro name hname
    simp [List.mem_flatMap, configure_mem_commandsOf hname]
  · obtain ⟨d, rest, hsince, hup⟩ := sinceNew_new hnew
    rw [hcommands, hsince]
    exact ⟨preparation d ++ launching setup d.scenario ++ rest.flatMap (commandsOf setup), by simp [commandsOf, prepared, hup]⟩

/-- The networks of the testbed's `.env`. -/
def envSetup : Setup where
  gwNetworkHead := "172.12".toList
  stNetworkHead := "172.11".toList
  guiNetworkHead := "172.15".toList
  hostIp := "192.168.0.15".toList
  splitCommand := shlexSplit

/-- `float64` as far as the scenarios need it. -/
def envFloats : Floats Rat := ⟨fun s => if s = "16.0".toList then some 16 else none, 1 / 4⟩

/-- QPEP on new containers, and then with another ack level on those. -/
theorem deployAll_spec_ack :
    ∃ log', (deployAll envSetup [⟨.qpep true, false⟩, ⟨.qpepAck 5, true⟩]).run [] = .ok ⟨⟩ log' ∧
      log'.filterMap (Exec.launch envFloats) =
        [(.st, .ok { default envFloats with clientFlag := true, gatewayIP := "172.12.0.9".toList }, true),
          (.wsGw, .ok (default envFloats), true),
          (.st, .ok { default envFloats with
            clientFlag := true, gatewayIP := "172.12.0.9".toList, ackElicitingPacketsBeforeAck := 5
            minReceivedBeforeAckDecimation := 2, maxAckDelay := 8000, varAckDelay := 16 }, true),
          (.wsGw, .ok { default envFloats with
            minReceivedBeforeAckDecimation := 2, maxAckDelay := 8000, varAckDelay := 16 }, true)] ∧
      Separated log' ∧ Configured log' := by
  have hplain : envSetup.Plain :=
    ⟨fun hws hw => shlexSplit_plain hws hw, List.all_eq_true.mp (by decide), List.all_eq_true.mp (by decide),
      List.all_eq_true.mp (by decide), by decide⟩
  obtain ⟨log', hrun, hlaunches, hseparated, hconfigured, -⟩ :=
    @deployAll_spec Rat envSetup hplain envFloats 16 rfl [⟨.qpep true, false⟩, ⟨.qpepAck 5, true⟩]
      (by simp [Scenario.InRange, Strconv.InRange]) ⟨_, List.mem_cons_self, rfl⟩ []
  refine ⟨log', hrun, hlaunches, hseparated, hconfigured.mpr ?_⟩
  simp [sinceNew, fits_cons, fits_nil, Scenario.isQpep, Deployment.configures]

end Qpep.Scenarios
