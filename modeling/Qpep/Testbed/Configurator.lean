import Mathlib.Logic.Function.Basic
import Qpep.Python.Lines

/-!
# Configuring a testbed

`configurator.py`, which writes the networks of the `.env` file into the configuration of the containers: each of its
functions is a row of calls of `change_line`, and a run of the script is all of them, up to the first exception.

Files are texts that can be decoded, written with `\n` at the end of a line, and the environment holds what can be encoded:
a value that cannot be would raise an exception only when the file is already open for writing, and so empty.
-/

namespace Qpep.Configurator

open Python

/-- The texts of the files in the directory of a testbed. -/
abbrev Files := String → Option (List Char)

/-- The environment, `.env` included. -/
abbrev Env := String → Option (List Char)

/-- `str(os.getenv(name))` -/
def Env.str (env : Env) (name : String) : List Char := (env name).getD "None".toList

/-- The exceptions of `change_line`. -/
inductive FileErr where
  | fileNotFoundError
  | indexError
deriving DecidableEq, Repr

/-- `change_line`. The file is opened for writing only when the line is there; the lines are numbered from 1. -/
def changeLine (filename : String) (lineNumber : Nat) (lineText : List Char) : EStateM FileErr Files PUnit := do
  match (← get) filename with
  | none => throw .fileNotFoundError
  | some text =>
    let lines := readlines text
    if lineNumber - 1 < lines.length then
      modify fun files => Function.update files filename (some (lines.set (lineNumber - 1) (lineText ++ ['\n'])).flatten)
    else throw .indexError

/-- A call of `change_line`. -/
structure Change where
  filename : String
  lineNumber : Nat
  lineText : List Char

/-- `configure_gateway_container` -/
def configureGatewayContainer (env : Env) : List Change :=
  let basePath := "gateway/config/"
  let confFile := basePath ++ "gw.conf"
  let pespalFile := basePath ++ "launch_pepsal.sh"
  [⟨confFile, 22, "emu_ipv4 = ".toList ++ env.str "EMU_NETWORK_HEAD" ++ ".0.3/24".toList⟩,
    ⟨confFile, 25, "lan_ipv4 = ".toList ++ env.str "GW_NETWORK_HEAD" ++ ".0.3/24".toList⟩,
    ⟨confFile, 29, "lan_ipv6 = ".toList ++ env.str "GW_IP6_HEAD" ++ ":6602:102::1/64".toList⟩,
    ⟨pespalFile, 5, "/sbin/iptables -A POSTROUTING -t nat -s ".toList ++ env.str "ST_NETWORK_HEAD" ++
      ".0.0/24 -o eth0 -j MASQUERADE --random".toList⟩]

/-- What `configure_proxy_st_container` and `configure_ws_st_container` do in their directories. -/
def configureWorkstation (basePath : String) (env : Env) : List Change :=
  let ovpnFile := basePath ++ "client.ovpn"
  let firefoxFile := basePath ++ "launch_firefox.sh"
  [⟨ovpnFile, 6, "remote ".toList ++ env.str "GW_NETWORK_HEAD" ++ ".0.10 1194 udp".toList⟩,
    ⟨firefoxFile, 4, "ip route add default via ".toList ++ env.str "ST_NETWORK_HEAD" ++ ".0.4".toList⟩,
    ⟨firefoxFile, 5, "ip route add 192.168.0.5 via ".toList ++ env.str "GUI_NETWORK_HEAD" ++ ".0.1 dev eth1".toList⟩]

/-- `configure_proxy_st_container` -/
def configureProxyStContainer (env : Env) : List Change := configureWorkstation "proxy-st/" env

/-- `configure_satellite_container` -/
def configureSatelliteContainer (env : Env) : List Change :=
  let basePath := "satellite/config/"
  let confFile := basePath ++ "sat.conf"
  [⟨confFile, 17, "emu_ipv4 = ".toList ++ env.str "EMU_NETWORK_HEAD" ++ ".0.2/24".toList⟩]

/-- `configure_terminal_container` -/
def configureTerminalContainer (env : Env) : List Change :=
  let basePath := "terminal/config/"
  let confFile := basePath ++ "term.conf"
  [⟨confFile, 18, "emu_ipv4 = ".toList ++ env.str "EMU_NETWORK_HEAD" ++ ".0.4/24".toList⟩,
    ⟨confFile, 20, "lan_ipv4 = ".toList ++ env.str "ST_NETWORK_HEAD" ++ ".0.4/24".toList⟩,
    ⟨confFile, 21, "lan_ipv6 = ".toList ++ env.str "ST_IP6_HEAD" ++ ":6602:102::1/64".toList⟩]

/-- `configure_ws_ovpn_container` -/
def configureWsOvpnContainer (env : Env) : List Change :=
  let basePath := "ws-ovpn/"
  let envFile := basePath ++ "ovpn_env.sh"
  [⟨envFile, 24, "declare -x OVPN_SERVER_URL=udp://".toList ++ env.str "GW_NETWORK_HEAD" ++ ".0.10".toList⟩]

/-- `configure_ws_st_container` -/
def configureWsStContainer (env : Env) : List Change := configureWorkstation "ws-st/" env

/-- `configure_ws_gw_container` -/
def configureWsGwContainer (env : Env) : List Change :=
  let basePath := "ws-gw/"
  let dockerFile := basePath ++ "Dockerfile"
  [⟨dockerFile, 15, "ENTRYPOINT ip route del default && ip route add default via ".toList ++ env.str "GW_NETWORK_HEAD" ++
    ".0.3 && bash && exec tail -f /dev/null".toList⟩]

/-- The calls of `change_line` of a run of the script. -/
def changes (env : Env) : List Change :=
  configureGatewayContainer env ++ configureProxyStContainer env ++ configureSatelliteContainer env ++
    configureTerminalContainer env ++
    configureWsOvpnContainer env ++ configureWsStContainer env ++ configureWsGwContainer env

/-- A run of the script. -/
def main (env : Env) : EStateM FileErr Files PUnit :=
  (changes env).foldlM (fun _ c => changeLine c.filename c.lineNumber c.lineText) ⟨⟩

end Qpep.Configurator
