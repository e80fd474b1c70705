import SippScen.MediaEndpoint.Agreement
import SippScen.MediaServer.Worker
import SippScen.Support.Run

/-!
# A media server with its endpoints

The worker of one media server runs interleaved with the main threads of any
number of endpoints.  One request is one critical section of the worker.  An
endpoint goes through its start-up, waits for signals, copies its entry into
`conf` after each of them, and removes its entry once a wait has timed out.  It
may end without doing so at any time; it then stays a zombie until it is reaped.
-/

namespace SippScen.MediaHost

open SippScen.Support SippScen.SharedList SippScen.MediaServer
open SippScen.MediaEndpoint

/-- How far `main` of an endpoint has come. -/
inductive Phase (N : ℕ)
  | forked
  | execd
  | parsed
  | opened
  | blocked
  | started
  | waiting
  | signalled
  | fetched (node : Option (Fin N))
  | timedOut
  | joined
  | removed
  | exited
  | crashed
  | killed
deriving DecidableEq

variable {N : ℕ}

namespace Phase

/-- `SIGRTMIN` still has its default action, which terminates the process. -/
def vulnerable : Phase N → Bool
  | forked | execd | parsed | opened => true
  | _ => false

/-- The process has terminated and waits to be reaped. -/
def ended : Phase N → Bool
  | exited | crashed | killed => true
  | _ => false

/-- The process is alive and has not removed its entry. -/
def active : Phase N → Bool
  | removed | exited | crashed | killed => false
  | _ => true

/-- The options have been parsed, so `conf` is set. -/
def configured : Phase N → Bool
  | forked | execd | crashed | killed => false
  | _ => true

/-- The process has called `remove_element`. -/
def departed : Phase N → Bool
  | removed | exited => true
  | _ => false

/-- The process has decided to exit and its entry is still there. -/
def expiring : Phase N → Bool
  | timedOut | joined => true
  | _ => false

/-- The process took a signal and has not copied its entry yet. -/
def reading : Phase N → Bool
  | signalled | fetched _ => true
  | _ => false

/-- The statements of `main` that touch neither `conf` nor the registry:
`execvpe`, opening the shared memory, blocking the signal, entering the loop,
joining the stream thread and returning. -/
def succ : Phase N → Option (Phase N)
  | forked => some execd
  | parsed => some opened
  | opened => some blocked
  | started => some waiting
  | timedOut => some joined
  | removed => some exited
  | _ => none

end Phase

/-- An endpoint process: the record it was launched for, the globals set by its
options, its phase and the number of signals queued for it. -/
structure Endpoint (N : ℕ) where
  launch : Data
  options : Options
  phase : Phase N
  pending : ℕ

/-- The registry and the processes that exist. -/
structure System (N : ℕ) where
  list : SharedLst N
  procs : ℤ → Option (Endpoint N)

/-- What a step does, as far as others can tell. -/
inductive Observation
  | served (signalled : Option ℤ) (launched : Option (ℤ × Data))
  | copied (data : Data)
  | silent
deriving DecidableEq

namespace Endpoint

/-- `conf` of the endpoint. -/
def conf (e : Endpoint N) : Data := e.options.conf

/-- `memcpy(&conf, new_conf, sizeof(Data))`. -/
def setConf (e : Endpoint N) (data : Data) : Endpoint N :=
  { e with options := { e.options with conf := data } }

/-- The endpoint goes over to a phase. -/
def enter (e : Endpoint N) (phase : Phase N) : Endpoint N :=
  { e with phase := phase }

/-- The child right after `fork`. -/
def child (launch : Data) : Endpoint N where
  launch := launch
  options := initialOptions
  phase := .forked
  pending := 0

/-- The arrival of `SIGRTMIN`. -/
def deliver (e : Endpoint N) : Endpoint N :=
  if e.phase.ended then e
  else if e.phase.vulnerable then e.enter .killed
  else { e with pending := e.pending + 1 }

/-- The lifetime that `main` supplies for a server without a duration. -/
def defaultDuration (e : Endpoint N) : Endpoint N :=
  { e with options := e.options.defaultDuration }

/-- The next statement of `main` of an endpoint: the registry and the endpoint
after it.  It is `none` when `main` waits for a signal or has returned. -/
def advance (getopt : GetoptLong) (config : ServerConfig) (l : SharedLst N)
    (e : Endpoint N) : Option (SharedLst N × Endpoint N × Observation) :=
  match e.phase with
  | .execd =>
      let (options, exit) := launchedOptions getopt config e.launch
      some (l, { e with options := options }.enter
        (if exit.isSome then .crashed else .parsed), .silent)
  | .blocked => some (l, e.defaultDuration.enter .started, .silent)
  | .waiting =>
      match e.pending with
      | 0 => none
      | n + 1 =>
          some (l, { e with pending := n, phase := .signalled }, .silent)
  | .signalled => do
      let node ← l.fetchElement e.conf.port
      some (l, e.enter (.fetched node), .silent)
  | .fetched none => some (l, e.enter .crashed, .silent)
  | .fetched (some node) =>
      some (l, (e.setConf (l.data node)).enter .waiting, .copied (l.data node))
  | .joined => do
      let (_, l) ← l.removeElement e.conf.port
      some (l, e.enter .removed, .silent)
  | phase => phase.succ.map fun next => (l, e.enter next, .silent)

end Endpoint

/-! ## The steps of the system -/

/-- Who acts: the worker on one request, with the pid that `fork` returns; an
endpoint, with its next statement or with the end of its wait; an endpoint that
ends abnormally; the media server reaping a process. -/
inductive Action
  | serve (data : Data) (fork : Option ℤ)
  | advance (pid : ℤ)
  | timeout (pid : ℤ)
  | crash (pid : ℤ)
  | reap (pid : ℤ)
deriving DecidableEq

/-- What a step was: who acted, and what it did. -/
abbrev Event := Action × Observation

namespace System

/-- The results of system calls: `sigqueue` fails exactly for processes that do
not exist. -/
def kernel (s : System N) (fork : Option ℤ) : Kernel :=
  ⟨fun pid => (s.procs pid).isSome, fork⟩

/-- `fork` returns a pid that no process has. -/
def forkable (s : System N) : Option ℤ → Bool
  | none => true
  | some pid => 0 < pid && (s.procs pid).isNone

/-- The processes after the signal of the worker. -/
def signal (s : System N) : Option ℤ → ℤ → Option (Endpoint N)
  | none => s.procs
  | some pid => Function.update s.procs pid
      ((s.procs pid).map Endpoint.deliver)

/-- The processes after the launch of the worker. -/
def spawn (procs : ℤ → Option (Endpoint N)) :
    Option (ℤ × Data) → ℤ → Option (Endpoint N)
  | none => procs
  | some (pid, data) =>
      Function.update procs pid (some (Endpoint.child data))

/-- The system after a critical section of the worker. -/
def afterServe (s : System N) (v : Served N) : System N where
  list := v.list
  procs := spawn (s.signal v.signalled) v.launched

/-- The system with one endpoint replaced. -/
def setProc (s : System N) (pid : ℤ) (e : Option (Endpoint N)) : System N :=
  { s with procs := Function.update s.procs pid e }

/-- One step. -/
def next (getopt : GetoptLong) (config : ServerConfig) (s : System N) :
    Action → Option (System N × Observation)
  | .serve data fork =>
      if s.forkable fork then do
        let v ← serve (s.kernel fork) s.list data
        some (s.afterServe v, .served v.signalled v.launched)
      else none
  | .advance pid => do
      let e ← s.procs pid
      let (l, e, o) ← e.advance getopt config s.list
      some (({ s with list := l } : System N).setProc pid (some e), o)
  | .timeout pid => do
      let e ← s.procs pid
      if e.phase = .waiting ∧ e.pending = 0 then
        some (s.setProc pid (some (e.enter .timedOut)), .silent)
      else none
  | .crash pid => do
      let e ← s.procs pid
      if e.phase.ended then none
      else some (s.setProc pid (some (e.enter .crashed)), .silent)
  | .reap pid => do
      let e ← s.procs pid
      if e.phase.ended then some (s.setProc pid none, .silent) else none

/-- The system after `SharedList::initialize`, without any endpoint. -/
def initial (mem : SharedLst N) : System N := ⟨mem.initializeList, fun _ => none⟩

end System

/-- The step relation of the system. -/
def Step (getopt : GetoptLong) (config : ServerConfig) :
    System N → Event → System N → Prop :=
  StepOf (System.next getopt config)

end SippScen.MediaHost
