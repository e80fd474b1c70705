import SippScen.Orchestrator.Prepare
import SippScen.Support.Interleave

/-!
# A run of the prepared scenarios

What `sippscen.py` does from "Start Scenarios" on: it registers, spawns the
scenarios, lets the run loop run, stops the clients and then the servers, each
group concurrently, and unregisters.  The outcomes of the processes are
parameters; the concurrent tasks of a group may interleave in any way.
-/

namespace SippScen.Orchestrator

open SippScen.Support

/-! ## Stopping one scenario -/

/-- What `stop_scenario` does. -/
inductive StopAction
  | quit
  | sleep (seconds : ℕ)
  | check (running : Bool)
  | kill (signal : ℕ)
deriving DecidableEq, Repr

/-- How `stop_scenario` ends: `os.kill` raises on a process that is gone. -/
inductive StopEnd
  | returned (stopped : Bool)
  | lookupError
deriving DecidableEq, Repr

/-- `TIMEOUT` of `stop_scenario`, in seconds. -/
def stopTimeout : ℕ := 5

/-- The loop that waits for the process: at most `polls` sleeps, each followed
by a check, which is the `i`th look at the process and the following ones.
The second component tells whether the process was found gone. -/
def pollLoop (alive : ℕ → Bool) : ℕ → ℕ → List StopAction × Bool
  | 0, _ => ([], false)
  | polls + 1, i =>
      if alive i then
        let rest := pollLoop alive polls (i + 1)
        (.sleep stopTimeout :: .check true :: rest.1, rest.2)
      else ([.sleep stopTimeout, .check false], true)

/-- `os.kill(pid, signal)`, a pause and a check; the second component is the
end of the procedure, if it ends here. -/
def killStep (alive : ℕ → Bool) (signal i : ℕ) :
    List StopAction × Option StopEnd :=
  if alive i then
    ([.kill signal, .sleep 1, .check (alive (i + 1))],
      if alive (i + 1) then none else some (.returned true))
  else ([.kill signal], some .lookupError)

/-- The number of elements of `range(0, duration + TIMEOUT, TIMEOUT)`. -/
def pollCount (duration : ℕ) : ℕ :=
  (duration + stopTimeout + (stopTimeout - 1)) / stopTimeout

/-- `stop_scenario`; `alive i` tells whether the process exists when it is
looked at for the `i`th time, by a check or by a signal. -/
def stopScenario (v : Scenario) (alive : ℕ → Bool) :
    List StopAction × StopEnd :=
  match v.pid.filter (· ≠ 0) with
  | none => ([], .returned true)
  | some _ =>
      let polls := pollCount v.duration
      let (polled, gone) := pollLoop alive polls 0
      if gone then (.quit :: polled, .returned true)
      else
        let (terminated, ended) := killStep alive 15 polls
        match ended with
        | some result => (.quit :: polled ++ terminated, result)
        | none =>
            let (killed, ended) := killStep alive 9 (polls + 2)
            (.quit :: polled ++ terminated ++ killed,
              ended.getD (.returned false))

/-! ## Events of a run -/

/-- The events of a run. -/
inductive RunEvent
  | registering (scn : PyStr)
  | spawned (scn : PyStr)
  | stopping (scn : PyStr) (action : StopAction)
  | stopped (scn : PyStr) (ok : Bool)
  | stopRaised (scn : PyStr)
  | unregistering (scn : PyStr)
deriving DecidableEq, Repr

/-- What the processes do: the return code of each registration, the process
id of each spawned scenario, if it starts, and when it is alive. -/
structure Processes where
  registerCode : PyStr → ℤ
  pid : PyStr → Option ℕ
  alive : PyStr → ℕ → Bool

/-- The registrations in order, up to the first that fails; the second
component tells whether all succeeded. -/
def registerAll (code : PyStr → ℤ) : List PyStr → List RunEvent × Bool
  | [] => ([], true)
  | scn :: rest =>
      if code scn = 0 ∨ code scn = 99 then
        let others := registerAll code rest
        (.registering scn :: others.1, others.2)
      else ([.registering scn], false)

/-- The spawn loop goes through `dScenarios` in order. -/
def spawnAll (dScenarios : Dict PyStr Scenario) : List RunEvent :=
  dScenarios.keys.map .spawned

/-- `b_running`: some scenario was spawned. -/
def bRunning (env : Processes) (acc : Accumulators) : Bool :=
  acc.dScenarios.keys.any fun scn => (env.pid scn).any fun pid => pid ≠ 0

/-- The events of the task that stops a scenario. -/
def stopTask (env : Processes) (scn : PyStr) (v : Scenario) : List RunEvent :=
  let ended := stopScenario { v with pid := env.pid scn } (env.alive scn)
  ended.1.map (.stopping scn) ++
    [match ended.2 with
      | .returned ok => .stopped scn ok
      | .lookupError => .stopRaised scn]

/-- The tasks that `terminate` gathers for a type. -/
def terminateTasks (env : Processes) (dScenarios : Dict PyStr Scenario)
    (type : PyStr) : List (List RunEvent) :=
  (dScenarios.entries.filter fun e => e.2.type = type).map fun e =>
    stopTask env e.1 e.2

/-- No task of the group raises. -/
def NoneRaises (tasks : List (List RunEvent)) : Prop :=
  ∀ task ∈ tasks, ∀ scn, .stopRaised scn ∉ task

/-- `asyncio.run(terminate(...))` completes: all tasks run to their ends. -/
def Completes (tasks : List (List RunEvent)) (tr : List RunEvent) : Prop :=
  NoneRaises tasks ∧ InterleaveAll tasks tr

/-- `asyncio.run(terminate(...))` raises with the first task that does. -/
def Raises (tasks : List (List RunEvent)) (tr : List RunEvent) : Prop :=
  ∃ front scn rest, tr = front ++ [.stopRaised scn] ∧
    (∀ other, .stopRaised other ∉ front) ∧
    InterleaveAll tasks (tr ++ rest)

/-- The registrations that are run, and whether all succeed. -/
def registrations (env : Processes) (acc : Accumulators) :
    List RunEvent × Bool :=
  registerAll env.registerCode acc.dRegistrations.keys

/-- The events until all scenarios are spawned. -/
def startUp (env : Processes) (acc : Accumulators) : List RunEvent :=
  (registrations env acc).1 ++ spawnAll acc.dScenarios

/-- The tasks that stop the clients. -/
def clientTasks (env : Processes) (acc : Accumulators) :
    List (List RunEvent) :=
  terminateTasks env acc.dScenarios "client".toList

/-- The tasks that stop the servers. -/
def serverTasks (env : Processes) (acc : Accumulators) :
    List (List RunEvent) :=
  terminateTasks env acc.dScenarios "server".toList

/-- The sequences of events of a run: it may end at a registration, in the run
loop, or when a group of scenarios is stopped. -/
inductive RunTrace (env : Processes) (acc : Accumulators) :
    List RunEvent → Prop
  | registrationFails (h : (registrations env acc).2 = false) :
      RunTrace env acc (registrations env acc).1
  | loopRaises (h : (registrations env acc).2 = true) :
      RunTrace env acc (startUp env acc)
  | clientsRaise {clients : List RunEvent}
      (h : (registrations env acc).2 = true)
      (hclients : Raises (clientTasks env acc) clients) :
      RunTrace env acc (startUp env acc ++ clients)
  | serversRaise {clients servers : List RunEvent}
      (h : (registrations env acc).2 = true)
      (hclients : Completes (clientTasks env acc) clients)
      (hservers : Raises (serverTasks env acc) servers) :
      RunTrace env acc (startUp env acc ++ (clients ++ servers))
  | completes {clients servers : List RunEvent}
      (h : (registrations env acc).2 = true)
      (hclients : Completes (clientTasks env acc) clients)
      (hservers : Completes (serverTasks env acc) servers) :
      RunTrace env acc (startUp env acc ++ (clients ++ (servers ++
        acc.dUnregistrations.keys.map .unregistering)))

end SippScen.Orchestrator
