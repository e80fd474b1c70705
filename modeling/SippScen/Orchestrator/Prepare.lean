import SippScen.Orchestrator.Config
import SippScen.Support.Effect

/-!
# Preparation of the scenarios

The stage "Prepare Scenarios" of `sippscen.py`.  The loop body updates
dictionaries and lists that the rest of the run works on, and writes files; a
failure is caught at the end of the body, so that the updates made before it
stay.  The file system, the template engine and the network are parameters.
-/

namespace SippScen.Orchestrator

open SippScen.Support Effect

/-- The variables of a call template. -/
structure CallConf where
  mediaServer : Option PyStr
  mediaIp : Option PyStr
  duration : ℕ
  portsFile : PyStr
  dnFile : PyStr
  referPause : ℕ
  byePause : ℤ
deriving DecidableEq, Repr

/-- `conf`: the variables that a template is rendered with. -/
inductive Conf
  | call (conf : CallConf)
  | register (regExpireSec : ℕ)
deriving DecidableEq, Repr

/-- What the orchestrator runs on: its working directory, the templates (each
either renders or raises), which files can be written and copied, and the
address of the primary interface. -/
structure World where
  cwd : PyStr
  template : PyStr → Option (Conf → Option PyStr)
  writable : PyStr → Bool
  copies : PyStr → PyStr → Bool
  primaryIp : Option PyStr

namespace World

def outputDir (w : World) : PyStr := pathJoin w.cwd "run_conf".toList

def scenariosDir (w : World) : PyStr := pathJoin w.cwd "scenarios".toList

def logsDir (w : World) : PyStr := pathJoin w.cwd "logs".toList

end World

/-- A file made from `PORTS_TEMPLATE`. -/
structure PortsFile where
  nPorts : ℤ
  offset : ℤ
deriving DecidableEq, Repr

/-- The text of the file. -/
def PortsFile.text (f : PortsFile) : PyStr :=
  "SEQUENTIAL,PRINTF=".toList ++ toDecimal f.nPorts ++
    ",PRINTFMULTIPLE=2,PRINTFOFFSET=".toList ++ toDecimal f.offset ++
    "\n%d\n".toList

/-- A file made from `DN_TEMPLATE`. -/
structure DnFile where
  nPorts : ℤ
  offset : ℤ
  strPrefix : PyStr
  length : ℕ
deriving DecidableEq, Repr

/-- The text of the file. -/
def DnFile.text (f : DnFile) : PyStr :=
  "SEQUENTIAL,PRINTF=".toList ++ toDecimal f.nPorts ++
    ",PRINTFOFFSET=".toList ++ toDecimal f.offset ++ "\n".toList ++
    f.strPrefix ++ "%0".toList ++ toDecimal f.length ++ "d\n".toList

/-- What is written to a file. -/
inductive FileContent
  | xml (content : PyStr)
  | ports (file : PortsFile)
  | dn (file : DnFile)
  | copyOf (path : PyStr)
deriving DecidableEq, Repr

/-- A pattern that was accepted; `passed` is set by the run loop. -/
structure Pattern where
  timepoints : List ℕ
  cps : List Number
  «repeat» : Bool
  passed : Bool
deriving DecidableEq, Repr

/-- An entry of `dScenarios`. -/
structure Scenario where
  cPort : ℕ
  pid : Option ℕ
  ip : PyStr
  type : PyStr
  duration : ℕ
  cli : Cli
  pattern : Option Pattern
deriving DecidableEq, Repr

/-- An entry of `dRegistrations`. -/
structure Registration where
  cli : Cli
  dnRange : ℤ × ℤ
deriving DecidableEq, Repr

/-- A range of ports: its first and last port and the scenario's name. -/
structure PortRange where
  first : ℤ
  last : ℤ
  name : PyStr
deriving DecidableEq, Repr

/-- The dictionaries and the list filled by the preparation. -/
structure Accumulators where
  portRanges : Dict PyStr (List PortRange)
  sipSockets : List PyStr
  dRegistrations : Dict PyStr Registration
  dUnregistrations : Dict PyStr Cli
  dScenarios : Dict PyStr Scenario

/-- The state of the preparation: the accumulators, and the next port that
`get_control_port` returns. -/
structure Prepared where
  acc : Accumulators
  nextPort : ℕ

/-- A computation of the preparation; it logs the files that it writes. -/
abbrev Prep (α : Type) := Effect Failure Prepared (PyStr × FileContent) α

/-- `scn_data[name]` with an operation applied to the value. -/
def Field.required {α : Type} (name : PyStr) : Field α → Except Failure α
  | .absent => .error (missingKey name)
  | .malformed => .error (.malformed name)
  | .value a => .ok a

/-- `scn_data.get(name)` with an operation applied to the value, if there is
one. -/
def Field.optional {α : Type} (name : PyStr) :
    Field α → Except Failure (Option α)
  | .absent => .ok none
  | .malformed => .error (.malformed name)
  | .value a => .ok (some a)

/-- `scn_data.get(name, default)`. -/
def Field.getD {α : Type} (f default : Field α) : Field α :=
  match f with
  | .absent => default
  | f => f

/-- `with open(path, 'w') as file: file.write(content)`. -/
def writeFile (w : World) (path : PyStr) (content : FileContent) : Prep Unit :=
  if w.writable path then emit (path, content) else fail (.malformed path)

/-- `shutil.copy(source, path)`. -/
def copyFile (w : World) (source path : PyStr) : Prep Unit :=
  if w.copies source path then emit (path, .copyOf source)
  else fail (.malformed source)

/-- `environment.get_template(name)` and `template.render(conf)`. -/
def render (w : World) (name : PyStr) (conf : Conf) : Except Failure PyStr :=
  match w.template name with
  | none => .error (.templateNotFound name)
  | some template =>
      match template conf with
      | none => .error (.malformed name)
      | some content => .ok content

/-- Seconds to leave before the same caller DN is used again:
`INTERCALL_GAP_SEC`. -/
def intercallGapSec : ℕ := 2

/-- `REGISTR_MIN_SEC`: the least expiry of a registration. -/
def registrMinSec : ℕ := 300

/-- `REFER_PAUSE_SEC`. -/
def referPauseSec : ℕ := 4

/-- The number of ports by the rate: `math.ceil(scn_data["cps"] *
(call_duration + INTERCALL_GAP_SEC))`. -/
def portsByRate (cps : ℚ) (callDuration : ℕ) : ℤ :=
  ⌈cps * ((callDuration : ℚ) + intercallGapSec)⌉

/-- `scn_data["cps"]` in a product with a number. -/
def ScenarioConfig.rate (scn : ScenarioConfig) : Except Failure ℚ :=
  match scn.cps with
  | none => .error (missingKey "cps".toList)
  | some cps =>
      match cps.number with
      | none => .error (.malformed "cps".toList)
      | some q => .ok q

/-- `n_ports` of a scenario whose calls last `callDuration` seconds. -/
def ScenarioConfig.nPorts (scn : ScenarioConfig) (callDuration : ℕ) :
    Except Failure ℤ := do
  let endpoints ← scn.numberEndpoints.optional "number-endpoints".toList
  let n ← match endpoints.filter (· ≠ 0) with
    | some n => .ok n
    | none => do
        let cps ← scn.rate
        .ok (portsByRate cps callDuration)
  let calls ← scn.totalCalls.optional "total-calls".toList
  match calls.filter (· ≠ 0) with
  | some nCalls => .ok (if nCalls < n then nCalls else n)
  | none => .ok n

/-- What the first part of the loop body computes. -/
structure CallDescription where
  ms : Option PyStr
  callDuration : ℕ
  nPorts : ℤ
  portsOffset : ℤ
deriving DecidableEq, Repr

/-- The check of the media server, with the value of `ms` and the endpoint
put into `conf`. -/
def chooseServer (servers : Dict PyStr PyStr) (scn : ScenarioConfig) :
    Except Failure (Option PyStr × Option PyStr) := do
  let ms ← scn.rtpServer.optional "rtp-server".toList
  match ms.filter (· ≠ []) with
  | none => .ok (ms, none)
  | some name =>
      match servers.get? name with
      | none => .error (.unresponsive name)
      | some endpoint => .ok (ms, some endpoint)

namespace World

def xmlFile (w : World) (name : PyStr) : PyStr :=
  pathJoin w.outputDir name ++ ".xml".toList

def csvFilePorts (w : World) (name : PyStr) : PyStr :=
  pathJoin w.outputDir name ++ "_ports.csv".toList

def csvFileDn (w : World) (name : PyStr) : PyStr :=
  pathJoin w.outputDir name ++ "_dn.csv".toList

/-- `conf` for the call template of a scenario whose calls last `duration`
milliseconds. -/
def callConf (w : World) (name : PyStr) (endpoint : Option PyStr)
    (duration : ℕ) : CallConf where
  mediaServer := endpoint
  mediaIp := endpoint.map hostPart
  duration := duration
  portsFile := basename (w.csvFilePorts name)
  dnFile := basename (w.csvFileDn name)
  referPause := referPauseSec * 1000
  byePause := duration - (referPauseSec * 1000 : ℕ) - 1000

end World

/-- `translate_time_signature` for the value of a field. -/
def readTime (name : PyStr) (timeSign : PyStr) : Except Failure ℕ :=
  (translateTimeSignature timeSign).elim (.error (.malformed name)) .ok

/-- The call scenario instructions and the number and offset of the ports. -/
def describeCall (w : World) (servers : Dict PyStr PyStr) (name : PyStr)
    (scn : ScenarioConfig) : Prep CallDescription := do
  let (ms, endpoint) ← lift (chooseServer servers scn)
  let templateName ← lift (scn.scenarioFile.required "scenario-file".toList)
  -- a missing template is noticed before the call duration is read
  let _ ← require (.templateNotFound templateName) (w.template templateName)
  let timeSign ← require (missingKey "call-duration".toList) scn.callDuration
  let duration ← lift (readTime "call-duration".toList timeSign)
  let conf := w.callConf name endpoint duration
  let content ← lift (render w templateName (.call conf))
  writeFile w (w.xmlFile name) (.xml content)
  let nPorts ← lift (scn.nPorts (duration / 1000))
  let portsOffset ←
    lift (scn.rtpPortOffset.required "rtp-port-offset".toList)
  pure
    { ms := ms
      callDuration := duration / 1000
      nPorts := nPorts
      portsOffset := portsOffset }

/-- `port_ranges[ms].append(...)`. -/
def recordRange (name : PyStr) (c : CallDescription) : Prep Unit := do
  let ms ← require (.keyError "None".toList) c.ms
  let ranges ← Effect.read fun s => s.acc.portRanges.get? ms
  let ranges ← require (missingKey ms) ranges
  let range : PortRange :=
    ⟨c.portsOffset, c.portsOffset + 2 * c.nPorts - 1, name⟩
  change fun s =>
    { s with acc.portRanges := s.acc.portRanges.set ms (ranges ++ [range]) }

/-- The file of the RTP ports. -/
def CallDescription.portsFile (c : CallDescription) : PortsFile :=
  ⟨c.nPorts, c.portsOffset⟩

/-- The ports and DN files; the value is `dn_start`. -/
def writePortsAndDns (w : World) (name : PyStr) (scn : ScenarioConfig)
    (c : CallDescription) : Prep ℤ := do
  writeFile w (w.csvFilePorts name) (.ports c.portsFile)
  let dnStart ← lift (scn.dnStart.required "dn-start".toList)
  let (strPrefix, dSuffix) := dnPrefix dnStart c.nPorts
  let strStart := toDecimal dnStart
  let offset ← require (.malformed "dn-start".toList)
    (readInt (strStart.drop (strStart.length - dSuffix)))
  writeFile w (w.csvFileDn name) (.dn ⟨c.nPorts, offset, strPrefix, dSuffix⟩)
  pure dnStart

/-- `translate_time_signature(d) if d else None`. -/
def timeout (name : PyStr) (d : Field PyStr) : Except Failure (Option ℕ) := do
  let d ← d.optional name
  match d.filter (· ≠ []) with
  | none => pure none
  | some d => return some (← readTime name d)

/-- What the composition of the command computes besides it. -/
structure RunDescription where
  controlPort : ℕ
  localIp : PyStr
  sipPort : PyStr
  receiveTm : Option ℕ
  sendTm : Option ℕ
  type : PyStr
  cli : Cli
deriving DecidableEq, Repr

/-- `get_control_port()`. -/
def getControlPort : Prep ℕ := do
  let port ← Effect.read fun s => s.nextPort
  change fun s => { s with nextPort := s.nextPort + 1 }
  pure port

/-- The arguments of the command that runs the scenario, and the command. -/
def composeRun (w : World) (run : RunConfig) (name : PyStr)
    (scn : ScenarioConfig) : Prep RunDescription := do
  let controlPort ← getControlPort
  -- the default of `local-ip` is evaluated also when it is not used
  let primaryIp ← require (.malformed "local-ip".toList) w.primaryIp
  let localIp ← lift
    ((scn.localIp.getD (.value primaryIp)).required "local-ip".toList)
  let sipPort ← require (missingKey "sip-port".toList) scn.sipPort
  change fun s =>
    { s with acc.sipSockets := s.acc.sipSockets ++ [localIp ++ [':'] ++ sipPort] }
  let receiveTm ← lift (timeout "receive-timeout".toList
    (scn.receiveTimeout.getD run.receiveTimeout))
  let sendTm ← lift (timeout "send-timeout".toList
    (scn.sendTimeout.getD run.sendTimeout))
  let type ← require (missingKey "type".toList) scn.type
  let cps ← require (missingKey "cps".toList) scn.cps
  let totalCalls ← lift (scn.totalCalls.optional "total-calls".toList)
  let cli ← lift (composeCli
    { type := type
      logpath := pathJoin w.logsDir name
      xmlFile := w.xmlFile name
      csvFile := [w.csvFilePorts name, w.csvFileDn name]
      localIp := localIp
      sipPort := sipPort
      callService := scn.callService
      receiveTm := receiveTm
      sendTm := sendTm
      cps := cps
      destination := scn.destination
      totalCalls := totalCalls
      controlPort := some controlPort
      background := true })
  pure
    { controlPort := controlPort
      localIp := localIp
      sipPort := sipPort
      receiveTm := receiveTm
      sendTm := sendTm
      type := type
      cli := cli }

/-- `reg_expire_sec`: the expiry asked for by the registrations of a run that
lasts `runDuration` milliseconds. -/
def regExpireSec (runDuration : ℕ) : ℕ := runDuration / 1000 + registrMinSec

/-- The default of `reg.get("cps", 10)`: the rate of registering DNs. -/
def defaultRegisterCps : Scalar := ⟨"10".toList, some 10⟩

/-- The arguments of the command that registers the DNs of a scenario. -/
def registerArgs (w : World) (name : PyStr) (reg : RegisterConfig)
    (c : CallDescription) (r : RunDescription) (xmlFile : PyStr) : CliArgs where
  type := "client".toList
  logpath := pathJoin w.logsDir (name ++ "_register".toList)
  xmlFile := xmlFile
  csvFile := [w.csvFileDn name]
  localIp := r.localIp
  sipPort := r.sipPort
  callService := none
  receiveTm := r.receiveTm
  sendTm := r.sendTm
  cps := reg.cps.getD defaultRegisterCps
  destination := reg.registrar
  totalCalls := some c.nPorts
  controlPort := none
  background := false

/-- `" ".join(cli)`, whose text is only printed. -/
def joinCli (cli : Cli) : Prep Unit :=
  if cli.joins then pure () else fail (.malformed "destination".toList)

/-- `reg["registrar"]`, whose value only `compose_cli` looks at. -/
def checkRegistrar (reg : RegisterConfig) : Prep Unit :=
  if reg.registrar = .absent then fail (missingKey "registrar".toList)
  else pure ()

/-- The instructions that undo the registration, if they are asked for. -/
def prepareUnregistration (w : World) (name : PyStr) (reg : RegisterConfig)
    (args : CliArgs) : Prep Unit := do
  let templateName ←
    lift (reg.unregisterFile.optional "unregister-file".toList)
  match templateName.filter (· ≠ []) with
  | none => pure ()
  | some templateName => do
      let xmlFile :=
        pathJoin w.outputDir (name ++ "_unregister.xml".toList)
      let source := pathJoin w.scenariosDir templateName
      copyFile w source xmlFile
      let cli ← lift (composeCli
        { args with
          logpath := pathJoin w.logsDir (name ++ "_unregister".toList)
          xmlFile := xmlFile })
      change fun s =>
        { s with acc.dUnregistrations := s.acc.dUnregistrations.set name cli }

/-- The instructions that register the DNs from `dnStart` on. -/
def prepareRegistration (w : World) (run : RunConfig) (name : PyStr)
    (reg : RegisterConfig) (c : CallDescription) (dnStart : ℤ)
    (r : RunDescription) : Prep Unit := do
  let templateName ← lift (reg.registerFile.required "register-file".toList)
  let content ←
    lift (render w templateName (.register (regExpireSec run.runDuration)))
  let xmlFile := pathJoin w.outputDir (name ++ "_register.xml".toList)
  writeFile w xmlFile (.xml content)
  checkRegistrar reg
  let args := registerArgs w name reg c r xmlFile
  let cli ← lift (composeCli args)
  joinCli cli
  change fun s =>
    { s with acc.dRegistrations :=
        s.acc.dRegistrations.set name ⟨cli, dnStart, dnStart + c.nPorts⟩ }
  prepareUnregistration w name reg args

/-- The section `register`, if the scenario has one. -/
def prepareRegister (w : World) (run : RunConfig) (name : PyStr)
    (scn : ScenarioConfig) (c : CallDescription) (dnStart : ℤ)
    (r : RunDescription) : Prep Unit := do
  let reg ← lift (scn.register.optional "register".toList)
  match reg with
  | none => pure ()
  | some reg => prepareRegistration w run name reg c dnStart r

/-- `dScenarios[scn_name] = {...}`, and the printed command to unregister. -/
def recordScenario (name : PyStr) (c : CallDescription) (r : RunDescription) :
    Prep Unit := do
  joinCli r.cli
  let scenario : Scenario :=
    { cPort := r.controlPort
      pid := none
      ip := r.localIp
      type := r.type
      duration := c.callDuration
      cli := r.cli
      pattern := none }
  change fun s =>
    { s with acc.dScenarios := s.acc.dScenarios.set name scenario }
  let cli ← Effect.read fun s => s.acc.dUnregistrations.get? name
  match cli with
  | none => pure ()
  | some cli => joinCli cli

/-- `[u.translate_time_signature(i) for i in pattern["timepoints"]]`. -/
def translateTimepoints : List (Field PyStr) → Except Failure (List ℕ)
  | [] => .ok []
  | t :: ts => do
      let t ← t.required "timepoints".toList
      let t ← readTime "timepoints".toList t
      let ts ← translateTimepoints ts
      .ok (t :: ts)

/-- The pattern that is accepted for a scenario, if there is one: its lists
have the same length. -/
def PatternConfig.accepted (pattern : PatternConfig) :
    Except Failure (Option Pattern) := do
  let timepoints ← pattern.timepoints.required "timepoints".toList
  let timepoints ← translateTimepoints timepoints
  let cps ← pattern.cps.required "cps".toList
  if timepoints.length ≠ cps.length then .ok none
  else .ok (some ⟨timepoints, cps, pattern.repeat, false⟩)

/-- The pattern of cps changes of a scenario. -/
def recordPattern (name : PyStr) (scn : ScenarioConfig) : Prep Unit := do
  let pattern ← lift (scn.pattern.optional "pattern".toList)
  match pattern with
  | none => pure ()
  | some pattern => do
      let accepted ← lift pattern.accepted
      match accepted with
      | none => pure ()
      | some accepted => do
          let scenario ← Effect.read fun s => s.acc.dScenarios.get? name
          let scenario ← require (missingKey name) scenario
          let scenario := { scenario with pattern := some accepted }
          change fun s =>
            { s with acc.dScenarios := s.acc.dScenarios.set name scenario }

/-- What follows the recording of the ports of a scenario. -/
def prepareRun (w : World) (run : RunConfig) (name : PyStr)
    (scn : ScenarioConfig) (c : CallDescription) : Prep Unit := do
  let dnStart ← writePortsAndDns w name scn c
  let r ← composeRun w run name scn
  prepareRegister w run name scn c dnStart r
  recordScenario name c r
  recordPattern name scn

/-- A scenario as it is listed: its name and fields, which are absent where
the value is not a mapping. -/
abbrev Entry := PyStr × Option ScenarioConfig

/-- The body of the loop over the scenarios. -/
def prepareScenario (w : World) (run : RunConfig) (servers : Dict PyStr PyStr)
    (e : Entry) : Prep Unit := do
  let scn ← require (.malformed e.1) e.2
  let c ← describeCall w servers e.1 scn
  recordRange e.1 c
  prepareRun w run e.1 scn c

/-- `CONTROL_PORT`. -/
def controlPort : ℕ := 8888

/-- The state before the first scenario: every media server that answered has
an empty list of ranges. -/
def initialPrepared (servers : Dict PyStr PyStr) : Prepared where
  acc :=
    { portRanges := servers.filterMap fun _ _ => some []
      sipSockets := []
      dRegistrations := Dict.empty
      dUnregistrations := Dict.empty
      dScenarios := Dict.empty }
  nextPort := controlPort

/-- The stage "Prepare Scenarios" for the scenarios in the order of the
configuration. -/
def prepareScenarios (w : World) (run : RunConfig)
    (servers : Dict PyStr PyStr) (config : List Entry) : Prepared :=
  forEach (prepareScenario w run servers) config (initialPrepared servers)

end SippScen.Orchestrator
