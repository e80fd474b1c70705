import SippScen.MediaEndpoint.Threads
import SippScen.MediaHost.Model

/-!
# A media server with the threads of its endpoints

In `System` an endpoint is its `main`, cut into phases.  Here every endpoint that
has started its stream thread runs with both threads, statement by statement, and
locks the registry for its accesses.
-/

namespace SippScen.MediaHost

open SippScen.Support SippScen.SharedList SippScen.MediaServer
open SippScen.MediaEndpoint (Process Options Report GetoptLong)

variable {N : ℕ}

/-! ## Endpoints with threads -/

/-- An endpoint that has started its stream thread: the record it was launched
for, its settings, its threads, and the pointer `new_conf`. -/
structure Running (N : ℕ) where
  launch : Data
  options : Options
  process : Process
  newConf : Option (Fin N)

namespace Running

/-- The endpoint after its start-up; signals may be queued already. -/
def start (e : Endpoint N) : Running N where
  launch := e.launch
  options := e.options
  process := { Process.start e.options with pending := e.pending }
  newConf := none

/-- The pointer, if `fetch_element` did not return `NULL`. -/
def pointer (r : Running N) : Option (Fin N) :=
  if r.process.found then r.newConf else none

/-- A step of one of the threads that does not depend on the registry. -/
def step (r : Running N) (a : MediaEndpoint.Action) :
    Option (Running N × Report) :=
  (r.process.next a).map fun q => ({ r with process := q.1 }, q.2)

/-- The copy of the record behind the pointer; with `NULL` it ends the process. -/
def copyEntry (l : SharedLst N) (r : Running N) :
    Option (Running N × Report) :=
  match r.pointer with
  | some node => r.step (.copy (l.data node))
  | none => r.step .main

/-- The next statement of `main`, on the registry as it is. -/
def main (l : SharedLst N) (r : Running N) :
    Option (SharedLst N × Running N × Report) :=
  match r.process.main with
  | .fetch => do
      let node ← l.fetchElement r.process.conf.port
      let (r, report) ← r.step (.fetch node.isSome)
      some (l, { r with newConf := node }, report)
  | .copy => do
      let (r, report) ← r.copyEntry l
      some (l, r, report)
  | .remove => do
      let (_, l) ← l.removeElement r.process.conf.port
      let (r, report) ← r.step .main
      some (l, r, report)
  | _ => do
      let (r, report) ← r.step .main
      some (l, r, report)

/-- The phase that `main` is in. -/
def phase (r : Running N) : Phase N :=
  match r.process.termination with
  | some .returned => .exited
  | some _ => .crashed
  | none =>
      match r.process.main with
      | .unlockConf | .notify | .waiting => .waiting
      | .lockList | .fetch => .signalled
      | .unlockList | .lockConf | .copy => .fetched r.pointer
      | .endLock | .endSet | .endNotify | .endUnlock | .join => .timedOut
      | .lockRemove | .remove => .joined
      | .unlockRemove | .finish => .removed

/-- The endpoint as `System` sees it. -/
def endpoint (r : Running N) : Endpoint N where
  launch := r.launch
  options := { r.options.defaultDuration with conf := r.process.conf }
  phase := r.phase
  pending := r.process.pending

end Running

/-- A process of the host: in its start-up, or with its threads. -/
inductive Program (N : ℕ)
  | starting (e : Endpoint N)
  | running (r : Running N)

namespace Program

/-- The endpoint as `System` sees it. -/
def endpoint : Program N → Endpoint N
  | starting e => e
  | running r => r.endpoint

/-- The arrival of `SIGRTMIN`. -/
def deliver : Program N → Program N
  | starting e => starting e.deliver
  | running r => running (((r.step .signal).map Prod.fst).getD r)

end Program

/-! ## The host -/

/-- The registry, the endpoint that holds its mutex, and the processes. -/
structure Host (N : ℕ) where
  list : SharedLst N
  owner : Option ℤ
  programs : ℤ → Option (Program N)

/-- Who acts: the worker on one request; an endpoint in its start-up, which may
fail at any point; `main` or another event of the threads of an endpoint; the
media server reaping a process. -/
inductive HostAction
  | serve (data : Data) (fork : Option ℤ)
  | startUp (pid : ℤ)
  | startUpFailure (pid : ℤ)
  | main (pid : ℤ)
  | timeout (pid : ℤ)
  | waitError (pid : ℤ)
  | stream (pid : ℤ)
  | fail (pid : ℤ)
  | wake (pid : ℤ)
  | reap (pid : ℤ)
deriving DecidableEq

namespace Host

/-- The host as `System` sees it. -/
def system (h : Host N) : System N where
  list := h.list
  procs pid := (h.programs pid).map Program.endpoint

/-- The host with one process replaced. -/
def setProgram (h : Host N) (pid : ℤ) (p : Option (Program N)) : Host N :=
  { h with programs := Function.update h.programs pid p }

/-- The processes after the signal of the worker. -/
def signal (h : Host N) : Option ℤ → ℤ → Option (Program N)
  | none => h.programs
  | some pid => Function.update h.programs pid
      ((h.programs pid).map Program.deliver)

/-- The host after a critical section of the worker. -/
def afterServe (h : Host N) (v : Served N) : Host N where
  list := v.list
  owner := h.owner
  programs :=
    match v.launched with
    | none => h.signal v.signalled
    | some (pid, data) =>
        Function.update (h.signal v.signalled) pid
          (some (.starting (Endpoint.child data)))

/-- The mutex of the registry after a step of an endpoint; an endpoint that
locks it has to wait until it is free. -/
def handOver (h : Host N) (pid : ℤ) : Report → Option (Option ℤ)
  | .lockList => if h.owner = none then some (some pid) else none
  | .unlockList => some none
  | _ => some h.owner

/-- What a step of the threads stores, as an observation. -/
def observe : Report → Observation
  | .stored data => .copied data
  | _ => .silent

/-- The effect of a step of the threads of one endpoint. -/
def finish (h : Host N) (pid : ℤ) (l : SharedLst N) (r : Running N)
    (report : Report) : Option (Host N × Observation) := do
  let owner ← h.handOver pid report
  some ({ list := l, owner := owner,
          programs := Function.update h.programs pid (some (.running r)) },
    observe report)

/-- A step of the threads of one endpoint that leaves the registry alone. -/
def threadStep (h : Host N) (pid : ℤ) (a : MediaEndpoint.Action) :
    Option (Host N × Observation) :=
  match h.programs pid with
  | some (.running r) => do
      let (r, report) ← r.step a
      h.finish pid h.list r report
  | _ => none

/-- One step. -/
def next (getopt : GetoptLong) (config : ServerConfig) (h : Host N) :
    HostAction → Option (Host N × Observation)
  | .serve data fork =>
      if h.owner = none ∧ h.system.forkable fork then do
        let v ← serve (h.system.kernel fork) h.list data
        some (h.afterServe v, .served v.signalled v.launched)
      else none
  | .startUp pid =>
      match h.programs pid with
      | some (.starting e) =>
          if e.phase = .blocked then
            some (h.setProgram pid (some (.running (.start e))), .silent)
          else do
            let (l, e, o) ← e.advance getopt config h.list
            some (({ h with list := l } : Host N).setProgram pid
              (some (.starting e)), o)
      | _ => none
  | .startUpFailure pid =>
      match h.programs pid with
      | some (.starting e) =>
          if e.phase.ended then none
          else some (h.setProgram pid (some (.starting (e.enter .crashed))),
            .silent)
      | _ => none
  | .main pid =>
      match h.programs pid with
      | some (.running r) => do
          let (l, r, report) ← r.main h.list
          h.finish pid l r report
      | _ => none
  | .timeout pid => h.threadStep pid .timeout
  | .waitError pid => h.threadStep pid .waitError
  | .stream pid => h.threadStep pid .stream
  | .fail pid => h.threadStep pid .fail
  | .wake pid => h.threadStep pid .wake
  | .reap pid => do
      let p ← h.programs pid
      if p.endpoint.phase.ended then some (h.setProgram pid none, .silent)
      else none

/-- The host after `SharedList::initialize`, without any endpoint. -/
def initial (mem : SharedLst N) : Host N :=
  ⟨mem.initializeList, none, fun _ => none⟩

end Host

/-- The step relation of the host. -/
def HostStep (getopt : GetoptLong) (config : ServerConfig) :
    Host N → HostAction × Observation → Host N → Prop :=
  StepOf (Host.next getopt config)

end SippScen.MediaHost
