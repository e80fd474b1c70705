import SippScen.Orchestrator.Stopping
import SippScen.Support.Wp

/-!
# Control commands

The SIPp process of a scenario listens to a UDP port of its own, given by `-cp`.
The ports are counted up, also for scenarios that fail later, so that no two
recorded scenarios have the same one.  In the stop stages every command to quit
then reaches the process that is to be stopped and no other one.
-/

namespace SippScen.Orchestrator

open SippScen.Support Effect

/-- The scenario that is told to quit by an event. -/
def RunEvent.quits : RunEvent → Option PyStr
  | .stopping scn .quit => some scn
  | _ => none

/-- The control commands that the stop stages of a run send. -/
def controlTraffic (acc : Accumulators) (tr : List RunEvent) :
    List Datagram :=
  tr.filterMap fun e => do
    let scn ← e.quits
    let v ← acc.dScenarios.get? scn
    some (sendControlCmd .quit v.cPort v.ip)

/-- The command line gives the port to the process. -/
def Cli.Names (cli : Cli) (port : ℕ) : Prop :=
  [some "-cp".toList, some (toDecimal port)] <:+: cli.words

/-- The process of the scenario was started. -/
def started (env : Processes) (scn : PyStr) : Bool :=
  (env.pid scn).any fun pid => pid ≠ 0

/-- The command of the scenario is composed with its own port and address. -/
structure Addressed (v : Scenario) : Prop where
  composed : composeCli v.cli.args = .ok v.cli
  controlPort : v.cli.args.controlPort = some v.cPort
  localIp : v.cli.args.localIp = v.ip
  type : v.cli.args.type = v.type

/-- The recorded scenarios have different ports, from `CONTROL_PORT` up to
`next`. -/
structure Numbered (next : ℕ) (d : Dict PyStr Scenario) : Prop where
  addressed : ∀ scn v, (scn, v) ∈ d.entries → Addressed v
  first : ∀ scn v, (scn, v) ∈ d.entries → controlPort ≤ v.cPort
  below : ∀ scn v, (scn, v) ∈ d.entries → v.cPort < next
  distinct : ∀ scn v other u, (scn, v) ∈ d.entries →
    (other, u) ∈ d.entries → v.cPort = u.cPort → scn = other

/-- The datagram reaches the process of `scn`, which was started, and that of no
other recorded scenario. -/
structure ReceivedBy (env : Processes) (acc : Accumulators) (d : Datagram)
    (scn : PyStr) : Prop where
  started : started env scn = true
  quits : ∃ v, (scn, v) ∈ acc.dScenarios.entries ∧
    d = sendControlCmd .quit v.cPort v.ip ∧
    v.cli.Names d.port ∧ v.cli.args.localIp = d.ip
  alone : ∀ other u, (other, u) ∈ acc.dScenarios.entries →
    u.cli.args.controlPort = some d.port → other = scn

/-- The recorded scenarios have different control ports, which the commands of
the clients and servers give.  In every run the stop stages tell no process
twice to quit, and each command reaches one process; if both stages are run and
complete, every client and server that was started is told. -/
structure Delivered (env : Processes) (acc : Accumulators) : Prop where
  distinct : ∀ scn v other u, (scn, v) ∈ acc.dScenarios.entries →
    (other, u) ∈ acc.dScenarios.entries → v.cPort = u.cPort → scn = other
  named : ∀ scn v, (scn, v) ∈ acc.dScenarios.entries →
    v.type = "client".toList ∨ v.type = "server".toList →
      v.cli.Names v.cPort
  once : ∀ tr, RunTrace env acc tr → (controlTraffic acc tr).Nodup
  received : ∀ tr, RunTrace env acc tr → ∀ d ∈ controlTraffic acc tr,
    ∃ scn, ReceivedBy env acc d scn
  complete : ∀ clients servers, Completes (clientTasks env acc) clients →
    Completes (serverTasks env acc) servers →
    ∀ scn v, (scn, v) ∈ acc.dScenarios.entries → started env scn = true →
      v.type = "client".toList ∨ v.type = "server".toList →
      sendControlCmd .quit v.cPort v.ip ∈
        controlTraffic acc (startUp env acc ++ (clients ++ servers))

variable {w : World} {run : RunConfig} {servers : Dict PyStr PyStr}
variable {name : PyStr} {scn : ScenarioConfig} {c : CallDescription}
variable {next next' : ℕ} {d : Dict PyStr Scenario} {v : Scenario}

/-! ## The ports of the recorded scenarios -/

theorem numbered_empty (next : ℕ) : Numbered next Dict.empty where
  addressed _ _ h := absurd h List.not_mem_nil
  first _ _ h := absurd h List.not_mem_nil
  below _ _ h := absurd h List.not_mem_nil
  distinct _ _ _ _ h := absurd h List.not_mem_nil

theorem Numbered.mono (h : Numbered next d) (hle : next ≤ next') :
    Numbered next' d :=
  { h with below := fun scn v hv => (h.below scn v hv).trans_le hle }

/-- A scenario with the next port may be recorded, under a new name or under
one that is taken. -/
theorem Numbered.set (h : Numbered v.cPort d) (hv : Addressed v)
    (hfirst : controlPort ≤ v.cPort) (name : PyStr) :
    Numbered (v.cPort + 1) (d.set name v) where
  addressed scn u hu := by
    rcases Dict.mem_entries_set.mp hu with heq | ⟨-, hold⟩
    · obtain ⟨rfl, rfl⟩ := Prod.mk.inj heq
      exact hv
    · exact h.addressed scn u hold
  first scn u hu := by
    rcases Dict.mem_entries_set.mp hu with heq | ⟨-, hold⟩
    · obtain ⟨rfl, rfl⟩ := Prod.mk.inj heq
      exact hfirst
    · exact h.first scn u hold
  below scn u hu := by
    rcases Dict.mem_entries_set.mp hu with heq | ⟨-, hold⟩
    · obtain ⟨rfl, rfl⟩ := Prod.mk.inj heq
      exact Nat.lt_succ_self _
    · exact (h.below scn u hold).trans (Nat.lt_succ_self _)
  distinct scn u other u' hu hu' hport := by
    rcases Dict.mem_entries_set.mp hu with heq | ⟨-, hold⟩
    · obtain ⟨rfl, rfl⟩ := Prod.mk.inj heq
      rcases Dict.mem_entries_set.mp hu' with heq' | ⟨-, hold'⟩
      · exact (Prod.mk.inj heq').1.symm
      · exact absurd hport (h.below other u' hold').ne'
    · rcases Dict.mem_entries_set.mp hu' with heq' | ⟨-, hold'⟩
      · obtain ⟨rfl, rfl⟩ := Prod.mk.inj heq'
        exact absurd hport (h.below scn u hold).ne
      · exact h.distinct scn u other u' hold hold' hport

/-- The pattern of a recorded scenario may be set. -/
theorem Numbered.setPattern (h : Numbered next d)
    (hv : d.get? name = some v) (p : Pattern) :
    Numbered next (d.set name { v with pattern := some p }) := by
  have hentry := Dict.get?_eq_some_iff.mp hv
  -- every entry has its port, its address and its command from before
  have hold : ∀ {scn u}, (scn, u) ∈
      (d.set name { v with pattern := some p }).entries →
      ∃ u', (scn, u') ∈ d.entries ∧ u'.cPort = u.cPort ∧
        (Addressed u' → Addressed u) := by
    intro scn u hu
    rcases Dict.mem_entries_set.mp hu with heq | ⟨-, hu⟩
    · obtain ⟨rfl, rfl⟩ := Prod.mk.inj heq
      exact ⟨v, hentry, rfl, fun h => ⟨h.composed, h.controlPort, h.localIp,
        h.type⟩⟩
    · exact ⟨u, hu, rfl, id⟩
  refine ⟨fun scn u hu => ?_, fun scn u hu => ?_, fun scn u hu => ?_,
    fun scn u other u' hu hu' hport => ?_⟩
  · obtain ⟨u', hu', -, haddressed⟩ := hold hu
    exact haddressed (h.addressed scn u' hu')
  · obtain ⟨u', hu', hport, -⟩ := hold hu
    exact hport ▸ h.first scn u' hu'
  · obtain ⟨u', hu', hport, -⟩ := hold hu
    exact hport ▸ h.below scn u' hu'
  · obtain ⟨t, ht, hteq, -⟩ := hold hu
    obtain ⟨t', ht', hteq', -⟩ := hold hu'
    exact h.distinct scn t other t' ht ht' (by omega)

/-- The invariant of the preparation: the port that is given out next is new. -/
def PortsLeft (s : Prepared) : Prop :=
  Numbered s.nextPort s.acc.dScenarios ∧ controlPort ≤ s.nextPort

/-- The port of `r` was given out last, and its command is composed with it. -/
structure TakesPort (r : RunDescription) (s : Prepared) : Prop where
  numbered : Numbered r.controlPort s.acc.dScenarios
  first : controlPort ≤ r.controlPort
  next : s.nextPort = r.controlPort + 1
  composed : composeCli r.cli.args = .ok r.cli
  controlPort : r.cli.args.controlPort = some r.controlPort
  localIp : r.cli.args.localIp = r.localIp
  type : r.cli.args.type = r.type

theorem TakesPort.portsLeft {r : RunDescription} {s : Prepared}
    (h : TakesPort r s) : PortsLeft s := by
  have hle : r.controlPort ≤ s.nextPort := h.next ▸ Nat.le_succ _
  exact ⟨h.numbered.mono hle, h.first.trans hle⟩

theorem composeCli_args {args : CliArgs} {cli : Cli}
    (h : composeCli args = .ok cli) : composeCli cli.args = .ok cli := by
  rwa [args_of_composeCli h]

/-- The composition of the command takes the next port, also where it
fails. -/
theorem wp_composeRun {s : Prepared} {l : List (PyStr × FileContent)}
    (h : PortsLeft s) :
    (composeRun w run name scn).wp (fun r _ => TakesPort r)
      (fun _ _ => PortsLeft) l s := by
  have hleft : ∀ sockets, PortsLeft
      { s with nextPort := s.nextPort + 1, acc.sipSockets := sockets } :=
    fun sockets => ⟨h.1.mono (Nat.le_succ _), h.2.trans (Nat.le_succ _)⟩
  simp only [composeRun, getControlPort, wp_bind, wp_read, wp_change, wp_pure,
    wp_require, wp_lift]
  refine ⟨fun ip _ => ⟨fun localIp _ => ⟨fun sipPort _ => ?_, fun _ => hleft _⟩,
    fun _ _ => hleft _⟩, fun _ => hleft _⟩
  refine ⟨fun receiveTm _ => ⟨fun sendTm _ => ⟨fun type _ => ⟨fun cps _ =>
    ⟨fun calls _ => ⟨fun cli hcli => ?_, fun _ _ => hleft _⟩,
    fun _ _ => hleft _⟩, fun _ => hleft _⟩, fun _ => hleft _⟩,
    fun _ _ => hleft _⟩, fun _ _ => hleft _⟩
  have hargs := args_of_composeCli hcli
  exact ⟨h.1, h.2, rfl, composeCli_args hcli, by rw [hargs], by rw [hargs],
    by rw [hargs]⟩

/-- A scenario is recorded with the port that it took. -/
theorem wp_recordScenario {r : RunDescription} {s : Prepared}
    {l : List (PyStr × FileContent)} (h : TakesPort r s) :
    (recordScenario name c r).wp (fun _ _ => PortsLeft)
      (fun _ _ => PortsLeft) l s := by
  have hset : ∀ v : Scenario, v.cPort = r.controlPort → Addressed v →
      PortsLeft { s with acc.dScenarios := s.acc.dScenarios.set name v } := by
    intro v hport hv
    refine ⟨?_, h.portsLeft.2⟩
    change Numbered s.nextPort _
    rw [h.next, ← hport]
    exact (hport ▸ h.numbered).set hv (hport ▸ h.first) name
  rw [recordScenario, wp_bind, joinCli, wp_ite, wp_pure, wp_fail]
  refine ⟨fun _ => ?_, fun _ => h.portsLeft⟩
  rw [wp_bind, wp_change, wp_bind, wp_read]
  have hrecorded := hset ⟨r.controlPort, none, r.localIp, r.type,
    c.callDuration, r.cli, none⟩ rfl
    ⟨h.composed, h.controlPort, h.localIp, h.type⟩
  cases s.acc.dUnregistrations.get? name with
  | none => exact wp_pure _ |>.mpr hrecorded
  | some cli => exact (preserves_joinCli cli).wp hrecorded

theorem wp_prepareRun {s : Prepared} {l : List (PyStr × FileContent)}
    (h : PortsLeft s) :
    (prepareRun w run name scn c).wp (fun _ _ => PortsLeft)
      (fun _ _ => PortsLeft) l s := by
  rw [prepareRun, wp_bind]
  refine wp_mono (preserves_writePortsAndDns.wp h) (fun dnStart l s hs => ?_)
    fun _ _ _ => id
  rw [wp_bind]
  refine wp_mono (wp_composeRun hs) (fun r l s hs => ?_) fun _ _ _ => id
  rw [wp_bind]
  have hregister : (prepareRegister w run name scn c dnStart r).Preserves
      (TakesPort r) :=
    preserves_prepareRegister
      (fun _ _ h _ => ⟨h.1, h.2, h.3, h.4, h.5, h.6, h.7⟩)
      fun _ _ h => ⟨h.1, h.2, h.3, h.4, h.5, h.6, h.7⟩
  refine wp_mono (hregister.wp hs) (fun _ l s hs => ?_)
    fun _ _ _ => TakesPort.portsLeft
  rw [wp_bind]
  refine wp_mono (wp_recordScenario hs) (fun _ l s hs => ?_) fun _ _ _ => id
  refine Preserves.wp (preserves_recordPattern fun s v p hs hv _ => ?_) hs
  exact ⟨hs.1.setPattern hv p, hs.2⟩

theorem preserves_portsLeft (e : Entry) :
    (prepareScenario w run servers e).Preserves PortsLeft := by
  refine preserves_bind (preserves_require _ _) fun scn => ?_
  refine preserves_bind preserves_describeCall fun c => ?_
  refine preserves_bind (preserves_recordRange fun _ _ h => h) fun _ => ?_
  exact fun s hs =>
    wp_end (P := fun _ => PortsLeft) (l := []) (wp_prepareRun hs)

/-- Whichever scenarios fail, those that are recorded have different ports. -/
theorem numbered_prepareScenarios (w : World) (run : RunConfig)
    (servers : Dict PyStr PyStr) (config : List Entry) :
    Numbered (prepareScenarios w run servers config).nextPort
      (prepareScenarios w run servers config).acc.dScenarios := by
  have hinit : PortsLeft (initialPrepared servers) :=
    ⟨numbered_empty _, le_rfl⟩
  exact (forEach_invariant hinit
    fun e _ s hs => preserves_portsLeft e s hs).1

/-! ## The command line -/

theorem names_commonWords {args : CliArgs} {port : ℕ}
    (h : args.controlPort = some port) (hport : port ≠ 0) :
    ["-cp".toList, toDecimal port] <:+: args.commonWords := by
  have hoption : addOptionalArg "-cp".toList
      (args.controlPort.bind fun n => truthyInt n) =
      ["-cp".toList, toDecimal port] := by
    rw [h, Option.bind_some, truthyInt, if_neg (by exact_mod_cast hport)]
    rfl
  rw [CliArgs.commonWords, hoption]
  exact ⟨_, ["-i".toList, args.localIp], rfl⟩

/-- Only the command of a client or a server has words. -/
theorem type_of_composeCli {args : CliArgs} {cli : Cli}
    (h : composeCli args = .ok cli) (hwords : cli.words ≠ []) :
    args.type = "client".toList ∨ args.type = "server".toList := by
  by_contra htype
  rw [not_or] at htype
  rw [composeCli, if_neg htype.1, if_neg htype.2, Except.ok.injEq] at h
  exact hwords (by rw [← h])

/-- The command of a client or a server begins with the common words. -/
theorem words_of_composeCli {args : CliArgs} {cli : Cli}
    (h : composeCli args = .ok cli)
    (htype : args.type = "client".toList ∨ args.type = "server".toList) :
    ∃ rest, cli.words = args.commonWords.map some ++ rest := by
  rcases htype with hclient | hserver
  · simp only [composeCli, if_pos hclient] at h
    cases hdest : args.destination with
    | absent => simp [hdest] at h
    | malformed =>
        simp only [hdest, Except.ok.injEq] at h
        exact ⟨_, by rw [← h, List.map_append, List.append_assoc,
          List.append_assoc]⟩
    | value destination =>
        cases destination with
        | nil => simp [hdest] at h
        | cons first rest =>
            simp only [hdest, Except.ok.injEq] at h
            exact ⟨_, by rw [← h, List.map_append, List.append_assoc,
              List.append_assoc]⟩
  · have hclient : args.type ≠ "client".toList := fun hclient =>
      client_ne_server (hclient.symm.trans hserver)
    rw [composeCli, if_neg hclient, if_pos hserver, Except.ok.injEq] at h
    exact ⟨[], by rw [← h, List.append_nil]⟩

/-- The command of a client or a server gives the control port. -/
theorem names_of_addressed (h : Addressed v) (hfirst : controlPort ≤ v.cPort)
    (htype : v.type = "client".toList ∨ v.type = "server".toList) :
    v.cli.Names v.cPort := by
  have hport : v.cPort ≠ 0 := by
    have hpos : 0 < controlPort := by decide
    omega
  have hwords := (names_commonWords h.controlPort hport).map some
  obtain ⟨rest, hrest⟩ := words_of_composeCli h.composed (h.type ▸ htype)
  rw [Cli.Names, hrest]
  exact hwords.trans (List.prefix_append _ _).isInfix

/-! ## The commands of a run -/

section Traffic

variable {env : Processes} {acc : Accumulators} {tr : List RunEvent}
variable {type scn : PyStr} {alive : ℕ → Bool}

theorem quit_notMem_pollLoop (alive : ℕ → Bool) (polls i : ℕ) :
    .quit ∉ (pollLoop alive polls i).1 := by
  induction polls generalizing i with
  | zero => exact List.not_mem_nil
  | succ polls ih =>
      by_cases halive : alive i = true
      · simp [pollLoop_of_alive halive, ih]
      · simp [pollLoop_of_not_alive halive]

theorem quit_notMem_escalate (alive : ℕ → Bool) (i : ℕ) :
    .quit ∉ (escalate alive i).1 := by
  rw [escalate]
  split
  · simp
  · split
    · simp
    · split <;> simp

theorem started_iff :
    started env scn = true ↔ ∃ pid, env.pid scn = some pid ∧ pid ≠ 0 := by
  simp [started, Option.any_eq_true]

/-- A process that was started is told to quit at the beginning, and never
again. -/
theorem stopScenario_of_started (h : started env scn = true) (v : Scenario)
    (alive : ℕ → Bool) :
    ∃ rest, (stopScenario { v with pid := env.pid scn } alive).1 =
      .quit :: rest ∧ .quit ∉ rest := by
  have hpid := started_iff.mp h
  by_cases hwaited : (pollLoop alive (pollCount v.duration) 0).2 = false
  · rw [stopScenario_of_waited (v := { v with pid := env.pid scn }) hpid
      hwaited]
    refine ⟨(pollLoop alive (pollCount v.duration) 0).1 ++
      (escalate alive (pollCount v.duration)).1, rfl, ?_⟩
    rw [List.mem_append, not_or]
    exact ⟨quit_notMem_pollLoop _ _ _, quit_notMem_escalate _ _⟩
  · rw [stopScenario_of_gone_early (v := { v with pid := env.pid scn }) hpid
      (by simpa using hwaited)]
    exact ⟨_, rfl, quit_notMem_pollLoop _ _ _⟩

theorem stopScenario_of_not_started (h : ¬ started env scn = true)
    (v : Scenario) (alive : ℕ → Bool) :
    stopScenario { v with pid := env.pid scn } alive = ([], .returned true) :=
  stopScenario_of_not_spawned fun hpid => h (started_iff.mpr hpid)

/-- The scenarios that are told to quit, in order. -/
def quitsOf (tr : List RunEvent) : List PyStr := tr.filterMap RunEvent.quits

theorem quitsOf_eq_nil (h : ∀ scn, .stopping scn .quit ∉ tr) :
    quitsOf tr = [] := by
  rw [quitsOf, List.filterMap_eq_nil_iff]
  intro e he
  cases e with
  | stopping scn action =>
      cases action with
      | quit => exact absurd he (h scn)
      | _ => rfl
  | _ => rfl

theorem quitsOf_append (tr tr' : List RunEvent) :
    quitsOf (tr ++ tr') = quitsOf tr ++ quitsOf tr' :=
  List.filterMap_append

/-- The task of a scenario tells it to quit if it was started. -/
theorem quitsOf_stopTask (env : Processes) (scn : PyStr) (v : Scenario) :
    quitsOf (stopTask env scn v) = if started env scn then [scn] else [] := by
  obtain ⟨last, htask, hlast⟩ : ∃ last, stopTask env scn v =
      (stopScenario { v with pid := env.pid scn } (env.alive scn)).1.map
        (.stopping scn) ++ [last] ∧ quitsOf [last] = [] := by
    rw [stopTask]
    rcases (stopScenario { v with pid := env.pid scn } (env.alive scn)).2 with
      ok | _
    · exact ⟨_, rfl, rfl⟩
    · exact ⟨_, rfl, rfl⟩
  rw [htask, quitsOf_append, hlast, List.append_nil]
  by_cases h : started env scn = true
  · obtain ⟨rest, hrest, hnone⟩ := stopScenario_of_started h v (env.alive scn)
    have hlater : quitsOf (rest.map (.stopping scn)) = [] := ?_
    · rw [if_pos h, hrest, List.map_cons]
      exact congrArg (scn :: ·) hlater
    refine quitsOf_eq_nil fun other hmem => ?_
    obtain ⟨action, haction, heq⟩ := List.mem_map.mp hmem
    obtain ⟨-, rfl⟩ := RunEvent.stopping.inj heq
    exact hnone haction
  · rw [if_neg h, stopScenario_of_not_started h]
    rfl

/-- The tasks of a type tell its started scenarios to quit, each once. -/
theorem quitsOf_tasks (env : Processes) (acc : Accumulators) (type : PyStr) :
    quitsOf (terminateTasks env acc.dScenarios type).flatten =
      ((acc.dScenarios.entries.filter fun e => e.2.type = type).map
        Prod.fst).filter (started env) := by
  rw [terminateTasks]
  induction acc.dScenarios.entries.filter fun e => e.2.type = type with
  | nil => rfl
  | cons e rest ih =>
      rw [List.map_cons, List.flatten_cons, quitsOf_append, ih,
        quitsOf_stopTask, List.map_cons, List.filter_cons]
      split
      · rfl
      · rfl

theorem mem_quitsOf_tasks :
    scn ∈ quitsOf (terminateTasks env acc.dScenarios type).flatten ↔
      started env scn = true ∧ HasType acc type scn := by
  rw [quitsOf_tasks, List.mem_filter, List.mem_map, and_comm]
  simp [HasType]

theorem nodup_quitsOf_tasks (env : Processes) (acc : Accumulators)
    (type : PyStr) :
    (quitsOf (terminateTasks env acc.dScenarios type).flatten).Nodup := by
  rw [quitsOf_tasks]
  exact ((List.filter_sublist.map Prod.fst).nodup
    acc.dScenarios.nodup_keys).filter _

/-- Some of the events of a stage, in any order of its tasks. -/
def PartOfStage (env : Processes) (acc : Accumulators) (type : PyStr)
    (tr : List RunEvent) : Prop :=
  ∃ rest, InterleaveAll (terminateTasks env acc.dScenarios type) (tr ++ rest)

theorem partOfStage_nil : PartOfStage env acc type [] :=
  ⟨_, interleaveAll_flatten _⟩

theorem partOfStage_of_completes
    (h : Completes (terminateTasks env acc.dScenarios type) tr) :
    PartOfStage env acc type tr :=
  ⟨[], by rw [List.append_nil]; exact h.2⟩

theorem partOfStage_of_raises
    (h : Raises (terminateTasks env acc.dScenarios type) tr) :
    PartOfStage env acc type tr := by
  obtain ⟨_, _, rest, -, -, hmerge⟩ := h
  exact ⟨rest, hmerge⟩

theorem PartOfStage.nodup (h : PartOfStage env acc type tr) :
    (quitsOf tr).Nodup := by
  obtain ⟨rest, hmerge⟩ := h
  have hall : (quitsOf (tr ++ rest)).Nodup :=
    (hmerge.perm.filterMap _).nodup_iff.mpr (nodup_quitsOf_tasks env acc type)
  rw [quitsOf_append] at hall
  exact (List.nodup_append.mp hall).1

theorem PartOfStage.of_mem (h : PartOfStage env acc type tr)
    (hscn : scn ∈ quitsOf tr) :
    started env scn = true ∧ HasType acc type scn := by
  obtain ⟨rest, hmerge⟩ := h
  refine mem_quitsOf_tasks.mp ((hmerge.perm.filterMap _).mem_iff.mp ?_)
  rw [List.filterMap_append]
  exact List.mem_append_left _ hscn

theorem quitsOf_startUp (env : Processes) (acc : Accumulators) :
    quitsOf (startUp env acc) = [] :=
  quitsOf_eq_nil fun _ => stopping_notMem_startUp _

/-- The commands of a run are those of its two stop stages. -/
theorem quitsOf_run (h : RunTrace env acc tr) :
    ∃ clients servers, quitsOf tr = quitsOf clients ++ quitsOf servers ∧
      PartOfStage env acc "client".toList clients ∧
      PartOfStage env acc "server".toList servers := by
  rcases h with h | h | ⟨h, hclients⟩ | ⟨h, hclients, hservers⟩ |
    ⟨h, hclients, hservers⟩
  · exact ⟨[], [], quitsOf_eq_nil fun _ => notMem_registerAll (by simp),
      partOfStage_nil, partOfStage_nil⟩
  · exact ⟨[], [], quitsOf_startUp env acc, partOfStage_nil, partOfStage_nil⟩
  · refine ⟨_, [], ?_, partOfStage_of_raises hclients, partOfStage_nil⟩
    rw [quitsOf_append, quitsOf_startUp, List.nil_append]
    exact (List.append_nil _).symm
  · refine ⟨_, _, ?_, partOfStage_of_completes hclients,
      partOfStage_of_raises hservers⟩
    rw [quitsOf_append, quitsOf_startUp, List.nil_append, quitsOf_append]
  · refine ⟨_, _, ?_, partOfStage_of_completes hclients,
      partOfStage_of_completes hservers⟩
    have hunregister : quitsOf (acc.dUnregistrations.keys.map
        .unregistering) = [] := quitsOf_eq_nil (by simp)
    rw [quitsOf_append, quitsOf_startUp, List.nil_append, quitsOf_append,
      quitsOf_append, hunregister, List.append_nil]

theorem nodup_quitsOf_run (h : RunTrace env acc tr) : (quitsOf tr).Nodup := by
  obtain ⟨clients, servers, heq, hclients, hservers⟩ := quitsOf_run h
  rw [heq]
  refine List.nodup_append.mpr ⟨hclients.nodup, hservers.nodup, ?_⟩
  rintro scn hscn other hother rfl
  exact client_ne_server
    (type_unique (hclients.of_mem hscn).2 (hservers.of_mem hother).2)

theorem of_mem_quitsOf_run (h : RunTrace env acc tr)
    (hscn : scn ∈ quitsOf tr) :
    started env scn = true ∧ ∃ v, (scn, v) ∈ acc.dScenarios.entries ∧
      (v.type = "client".toList ∨ v.type = "server".toList) := by
  obtain ⟨clients, servers, heq, hclients, hservers⟩ := quitsOf_run h
  rw [heq, List.mem_append] at hscn
  rcases hscn with hscn | hscn
  · obtain ⟨hstarted, v, hv, htype⟩ := hclients.of_mem hscn
    exact ⟨hstarted, v, hv, Or.inl htype⟩
  · obtain ⟨hstarted, v, hv, htype⟩ := hservers.of_mem hscn
    exact ⟨hstarted, v, hv, Or.inr htype⟩

/-- The command that tells a scenario to quit. -/
def quitOf (acc : Accumulators) (scn : PyStr) : Option Datagram :=
  (acc.dScenarios.get? scn).map fun v => sendControlCmd .quit v.cPort v.ip

theorem controlTraffic_eq (acc : Accumulators) (tr : List RunEvent) :
    controlTraffic acc tr = (quitsOf tr).filterMap (quitOf acc) := by
  rw [controlTraffic, quitsOf, List.filterMap_filterMap]
  refine List.filterMap_congr fun e _ => ?_
  cases e.quits with
  | none => rfl
  | some scn =>
      rw [Option.bind_eq_bind, Option.bind_some, Option.bind_some, quitOf,
        Option.map_eq_bind]
      rfl

theorem mem_controlTraffic {d : Datagram} :
    d ∈ controlTraffic acc tr ↔ ∃ scn v, scn ∈ quitsOf tr ∧
      (scn, v) ∈ acc.dScenarios.entries ∧
      d = sendControlCmd .quit v.cPort v.ip := by
  simp only [controlTraffic_eq, List.mem_filterMap, quitOf,
    Option.map_eq_some_iff, Dict.get?_eq_some_iff]
  constructor
  · rintro ⟨scn, hscn, v, hv, rfl⟩
    exact ⟨scn, v, hscn, hv, rfl⟩
  · rintro ⟨scn, v, hscn, hv, rfl⟩
    exact ⟨scn, hscn, v, hv, rfl⟩

/-- Scenarios with different ports are told to quit apart from each other. -/
theorem delivered_of_numbered {next : ℕ} (h : Numbered next acc.dScenarios) :
    Delivered env acc where
  distinct := h.distinct
  named scn v hv htype :=
    names_of_addressed (h.addressed scn v hv) (h.first scn v hv) htype
  once tr htr := by
    rw [controlTraffic_eq]
    refine (nodup_quitsOf_run htr).filterMap fun scn other d hd hother => ?_
    obtain ⟨v, hv, rfl⟩ := Option.map_eq_some_iff.mp hd
    obtain ⟨u, hu, heq⟩ := Option.map_eq_some_iff.mp hother
    exact h.distinct scn v other u (Dict.get?_eq_some_iff.mp hv)
      (Dict.get?_eq_some_iff.mp hu) (congrArg Datagram.port heq).symm
  received tr htr d hd := by
    obtain ⟨scn, v, hscn, hv, rfl⟩ := mem_controlTraffic.mp hd
    obtain ⟨hstarted, u, hu, htype⟩ := of_mem_quitsOf_run htr hscn
    obtain rfl : v = u := Dict.entry_unique hv hu
    have haddressed := h.addressed scn v hv
    refine ⟨scn, hstarted, ⟨v, hv, rfl, ?_, haddressed.localIp⟩, ?_⟩
    · exact names_of_addressed haddressed (h.first scn v hv) htype
    · intro other u hu hport
      rw [(h.addressed other u hu).controlPort] at hport
      exact h.distinct other u scn v hu hv (Option.some.inj hport)
  complete clients servers hclients hservers scn v hv hstarted htype := by
    refine mem_controlTraffic.mpr ⟨scn, v, ?_, hv, rfl⟩
    rw [quitsOf_append, quitsOf_startUp, List.nil_append, quitsOf_append,
      List.mem_append]
    rcases htype with htype | htype
    · exact Or.inl ((hclients.2.perm.filterMap _).mem_iff.mpr
        (mem_quitsOf_tasks.mpr ⟨hstarted, v, hv, htype⟩))
    · exact Or.inr ((hservers.2.perm.filterMap _).mem_iff.mpr
        (mem_quitsOf_tasks.mpr ⟨hstarted, v, hv, htype⟩))

end Traffic

/-- Whatever the configuration and whichever of its scenarios fail, in every run
of the recorded ones each command to quit reaches exactly the process that is to
be stopped, and reaches it once. -/
theorem control_commands_delivered (w : World) (run : RunConfig)
    (servers : Dict PyStr PyStr) (config : List Entry) (env : Processes) :
    Delivered env (prepareScenarios w run servers config).acc :=
  delivered_of_numbered (numbered_prepareScenarios w run servers config)

end SippScen.Orchestrator
