import SippScen.MediaEndpoint.Locking
import SippScen.MediaHost.Refinement

/-!
# What a reused endpoint was asked for

The host is watched by a ledger for every process: the requests that were
announced to it by a signal, those whose record `main` has copied, and those that
had been copied when the stream thread last called `setRemoteAddr`, with the
arguments of that call.  The ledgers do not influence the host.
-/

namespace SippScen.MediaHost

open SippScen.Support SippScen.SharedList SippScen.MediaServer
open SippScen.MediaEndpoint (Process MainPc StreamPc Report GetoptLong)

variable {N : ℕ}

/-! ## Ledgers -/

/-- A remote address with its port. -/
abbrev Remote := CString × ℤ

/-- The destination that a request names. -/
def requested (data : Data) : Remote :=
  (ofArray data.destAddress, data.destPort)

/-- The arguments of `setRemoteAddr`, whose port has 16 bits. -/
def remoteArgs (conf : Data) : Remote :=
  (ofArray conf.destAddress, toUInt16 conf.destPort)

/-- The requests that a process was signalled for, by how far they have come. -/
structure Ledger where
  announced : List Data
  processed : List Data
  streamed : List Data
  remote : Option Remote
deriving DecidableEq

namespace Ledger

/-- The ledger of a new process. -/
def empty : Ledger := ⟨[], [], [], none⟩

/-- The worker signals the process for a request. -/
def announce (g : Ledger) (data : Data) : Ledger :=
  { g with announced := g.announced ++ [data] }

/-- `main` copies its entry in answer to the oldest signal. -/
def process (g : Ledger) : Ledger :=
  { g with
    announced := g.announced.tail
    processed := g.processed ++ g.announced.head?.toList }

/-- The stream thread calls `setRemoteAddr`. -/
def setRemote (g : Ledger) (remote : Remote) : Ledger :=
  { g with processed := [], streamed := g.processed, remote := some remote }

end Ledger

/-- The host with its ledgers. -/
structure Watch (N : ℕ) where
  host : Host N
  ledger : ℤ → Ledger

namespace Watch

/-- The ledgers after a critical section of the worker. -/
def served (w : Watch N) (data : Data) (signalled : Option ℤ)
    (launched : Option (ℤ × Data)) : ℤ → Ledger :=
  let ledger := match signalled with
    | some pid => Function.update w.ledger pid ((w.ledger pid).announce data)
    | none => w.ledger
  match launched with
  | some (pid, _) => Function.update ledger pid .empty
  | none => ledger

/-- The ledgers after a step of the host. -/
def record (w : Watch N) : HostAction × Observation → ℤ → Ledger
  | (.serve data _, .served signalled launched) =>
      w.served data signalled launched
  | (.main pid, .copied _) =>
      Function.update w.ledger pid (w.ledger pid).process
  | (.stream pid, _) =>
      match w.host.programs pid with
      | some (.running r) =>
          if r.process.stream = .setRemoteAddr then
            Function.update w.ledger pid
              ((w.ledger pid).setRemote (remoteArgs r.process.conf))
          else w.ledger
      | _ => w.ledger
  | _ => w.ledger

/-- One step of the host, with the ledgers kept up to date. -/
def next (getopt : GetoptLong) (config : ServerConfig) (w : Watch N)
    (a : HostAction) : Option (Watch N × Observation) :=
  (w.host.next getopt config a).map fun (h, o) => (⟨h, w.record (a, o)⟩, o)

/-- The host after `SharedList::initialize`. -/
def initial (mem : SharedLst N) : Watch N := ⟨.initial mem, fun _ => .empty⟩

end Watch

/-- The step relation of the watched host. -/
def WatchStep (getopt : GetoptLong) (config : ServerConfig) :
    Watch N → HostAction × Observation → Watch N → Prop :=
  StepOf (Watch.next getopt config)

/-! ## Honoured requests -/

/-- The statements of the stream thread between `startStream` and the end of the
stream. -/
def streams : StreamPc → Bool
  | .unlockServer | .serverSleep | .serverTest | .startStreaming | .sleep
  | .stopStreaming => true
  | _ => false

/-- The statements of `main` from which it may still answer a signal. -/
def listens : MainPc → Bool
  | .waiting | .lockList | .fetch | .unlockList | .lockConf | .copy
  | .unlockConf | .notify => true
  | _ => false

namespace Program

/-- The record that the process was launched for. -/
def launch : Program N → Data
  | starting e => e.launch
  | running r => r.launch

/-- The process runs, or will run, in server mode. -/
def server : Program N → Bool
  | starting e => decide (e.launch.client = 0)
  | running r => r.process.server

/-- A stream is up. -/
def streaming : Program N → Bool
  | starting _ => false
  | running r => streams r.process.stream

/-- The process has not ended. -/
def alive (p : Program N) : Bool := !p.endpoint.phase.ended

/-- The process has not decided to exit. -/
def listening : Program N → Bool
  | starting _ => true
  | running r => listens r.process.main

end Program

/-- The client flag of the entry is the mode of the process, and the stream has
the direction and the destination of the requests it was signalled for. -/
def HonouredBy (records : List Data) (pid : ℤ) (g : Ledger) (p : Program N) :
    Prop :=
  (∀ r ∈ records, r.pid = pid → (r.client = 0 ↔ p.server = true)) ∧
    (p.streaming = true → ∀ data ∈ g.streamed ++ g.processed,
      (data.client = 0 ↔ p.server = true) ∧
        g.remote = some (requested data))

instance (records : List Data) (pid : ℤ) (g : Ledger) (p : Program N) :
    Decidable (HonouredBy records pid g p) :=
  inferInstanceAs (Decidable (_ ∧ (_ → _)))

/-- Every process that is alive honours the requests it was signalled for. -/
def Honoured (w : Watch N) : Prop :=
  ∀ pid, ∀ p ∈ w.host.programs pid, p.alive = true →
    HonouredBy w.host.list.records pid (w.ledger pid) p

/-! ## Requests that a running endpoint can honour -/

/-- The fields are those of an accepted request: 32-bit integers, and an address
that fits the array. -/
def Admissible (data : Data) : Prop :=
  IsInt32 data.port ∧ IsInt32 data.destPort ∧ IsInt32 data.duration ∧
    strncpy addrSz (ofArray data.destAddress) = data.destAddress

instance (data : Data) : Decidable (Admissible data) :=
  inferInstanceAs (Decidable (_ ∧ _ ∧ _ ∧ _))

/-- The destination port is a UDP port. -/
def ValidDestPort (data : Data) : Prop :=
  1 ≤ data.destPort ∧ data.destPort ≤ 65535

instance (data : Data) : Decidable (ValidDestPort data) :=
  inferInstanceAs (Decidable (_ ∧ _))

/-- The entry names the requested destination already, or the process is a
client that has set up a stream for all requests it was signalled for. -/
def Retargets (records : List Data) (pid : ℤ) (g : Ledger) (p : Program N)
    (data : Data) : Prop :=
  (∀ r ∈ records, r.pid = pid → requested data = requested r) ∨
    p.launch.client ≠ 0 ∧ g.announced = [] ∧ g.processed = []

instance (records : List Data) (pid : ℤ) (g : Ledger) (p : Program N)
    (data : Data) : Decidable (Retargets records pid g p data) :=
  inferInstanceAs (Decidable ((∀ r ∈ records, _ → _) ∨ _ ∧ _ ∧ _))

/-- A signalled process that survives the signal runs in the requested mode, and
unless it has decided to exit, it can take over the destination. -/
def FitForReuse (w : Watch N) (data : Data) (pid : ℤ) : Prop :=
  ∀ p ∈ w.host.programs pid, p.alive = true →
    p.endpoint.phase.vulnerable = false →
    (data.client = 0 ↔ p.launch.client = 0) ∧
      (p.listening = true → ValidDestPort data ∧
        Retargets w.host.list.records pid (w.ledger pid) p data)

instance (w : Watch N) (data : Data) (pid : ℤ) :
    Decidable (FitForReuse w data pid) :=
  inferInstanceAs (Decidable (∀ p ∈ w.host.programs pid, _ → _ → _))

/-- What the worker serves is an accepted request, and if it reuses an endpoint,
one that can honour it. -/
def ServesFit (w : Watch N) : HostAction × Observation → Prop
  | (.serve data _, .served signalled _) =>
      Admissible data ∧ ∀ pid ∈ signalled, FitForReuse w data pid
  | _ => True

instance (w : Watch N) : DecidablePred (ServesFit w)
  | (.serve _ _, .served signalled _) =>
      inferInstanceAs (Decidable (_ ∧ ∀ pid ∈ signalled, _))
  | (.serve _ _, .copied _) | (.serve _ _, .silent) | (.startUp _, _)
  | (.startUpFailure _, _) | (.main _, _) | (.timeout _, _)
  | (.waitError _, _) | (.stream _, _) | (.fail _, _) | (.wake _, _)
  | (.reap _, _) => inferInstanceAs (Decidable True)

/-- The environment in which requests are only handed to endpoints that can
honour them. -/
def FitEnvironment (w : Watch N) (e : HostAction × Observation) : Prop :=
  OnHost Environment w.host e ∧ ServesFit w e

instance (w : Watch N) (e : HostAction × Observation) :
    Decidable (FitEnvironment w e) :=
  inferInstanceAs (Decidable (_ ∧ _))

end SippScen.MediaHost
