import SippScen.MediaHost.Progress
import SippScen.MediaServer.Queue

/-!
# The service of a media server

The threads of the media server run together with the host.  A `/stream` request
goes through the checks of `addTask` into `taskQueue`; the worker takes it from
there, and its core work is one critical section of the registry.  A `/status`
request is answered from the registry while nobody has its mutex.  The parts of a
run that concern the threads and the host are runs of the two models, and no
accepted request is lost, repeated or overtaken between them.
-/

namespace SippScen.MediaServer.ServerProcess

/-- The threads of the REST interface exist. -/
def answers (s : ServerProcess) : Bool :=
  s.main.serving && decide (s.main ≠ .finished)

/-- A step of the threads that is neither the core work of the worker nor the
part of `addTask` before its notification. -/
def byItself (s : ServerProcess) : ServerAction → Bool
  | .worker => decide (s.worker ≠ .serve)
  | .push _ => false
  | _ => true

end SippScen.MediaServer.ServerProcess

namespace SippScen.MediaHost

open SippScen.Support SippScen.SharedList SippScen.MediaServer
open SippScen.MediaEndpoint (GetoptLong)

variable {N : ℕ} {getopt : GetoptLong} {config : ServerConfig}

/-! ## The service -/

/-- The threads of the media server, the local `data` of the worker between
`pop` and the end of its core work, and the host. -/
structure Service (N : ℕ) where
  server : ServerProcess
  current : Option Data
  host : Host N

/-- Who acts: a thread of the media server by itself; the worker with its core
work, with the result of `fork`; `addTask` on a query, `getStatus`; a process of
the host. -/
inductive ServiceAction
  | server (a : ServerAction)
  | serve (fork : Option ℤ)
  | stream (pid : ℤ) (query : Query)
  | status
  | host (a : HostAction)

/-- What a step does, as far as others can tell.  An answer comes with the record
that was pushed before it. -/
inductive ServiceObservation
  | server (taken : Option Data)
  | served (data : Data) (o : Observation)
  | answered (response : Response) (accepted : Option Data)
  | listed (response : Response)
  | host (o : Observation)

/-- A step of a process of the host; the worker is part of the service. -/
def HostAction.ofProcess : HostAction → Bool
  | .serve _ _ => false
  | _ => true

namespace Service

/-- One step. -/
def next (getopt : GetoptLong) (config : ServerConfig) (s : Service N) :
    ServiceAction → Option (Service N × ServiceObservation)
  | .server a =>
      if s.server.byItself a then do
        let (server, taken) ← s.server.next a
        some ({ s with server := server, current := taken.or s.current },
          .server taken)
      else none
  | .serve fork =>
      if s.server.worker = .serve then do
        let data ← s.current
        let (server, _) ← s.server.next .worker
        let (host, o) ← s.host.next getopt config (.serve data fork)
        some (⟨server, none, host⟩, .served data o)
      else none
  | .stream pid query =>
      match addTask pid query with
      | (response, some data) => do
          let (server, _) ← s.server.next (.push data)
          some ({ s with server := server }, .answered response (some data))
      | (response, none) =>
          if s.server.answers then some (s, .answered response none) else none
  | .status =>
      if s.server.answers ∧ s.host.owner = none then do
        let text ← s.host.list.printList
        some (s, .listed ⟨.ok, text⟩)
      else none
  | .host a =>
      if a.ofProcess then do
        let (host, o) ← s.host.next getopt config a
        some ({ s with host := host }, .host o)
      else none

/-- The service after `SharedList::initialize`. -/
def initial (mem : SharedLst N) : Service N :=
  ⟨.start, none, .initial mem⟩

end Service

/-- The step relation of the service. -/
def ServiceStep (getopt : GetoptLong) (config : ServerConfig) :
    Service N → ServiceAction × ServiceObservation → Service N → Prop :=
  StepOf (Service.next getopt config)

/-! ## Parts of a run -/

/-- The part of the threads of the media server. -/
def threadsPart :
    ServiceAction × ServiceObservation → Option (ServerAction × Option Data)
  | (.server a, .server taken) => some (a, taken)
  | (.serve _, _) => some (.worker, none)
  | (_, .answered _ (some data)) => some (.push data, none)
  | _ => none

/-- The part of the host. -/
def hostPart :
    ServiceAction × ServiceObservation → Option (HostAction × Observation)
  | (.serve fork, .served data o) => some (.serve data fork, o)
  | (.host a, .host o) => some (a, o)
  | _ => none

/-- The record that `addTask` accepted. -/
def acceptedRequest :
    ServiceAction × ServiceObservation → Option Data
  | (_, .answered _ accepted) => accepted
  | _ => none

/-- The record that the worker served in a step of the host. -/
def hostServed : HostAction × Observation → Option Data
  | (.serve data _, _) => some data
  | _ => none

/-- The record that the worker has served. -/
def servedRequest (e : ServiceAction × ServiceObservation) : Option Data :=
  (hostPart e).bind hostServed

theorem hostServed_of_ofProcess {a : HostAction} (ha : a.ofProcess = true)
    (o : Observation) : hostServed (a, o) = none := by
  cases a with
  | serve data fork => cases ha
  | _ => rfl

section Steps

variable {s t : Service N} {a : ServiceAction} {o : ServiceObservation}

/-- The five kinds of steps, with what each of them does to the two parts. -/
inductive ServiceMove (getopt : GetoptLong) (config : ServerConfig)
    (s : Service N) :
    ServiceAction → Service N → ServiceObservation → Prop
  | server (a : ServerAction) (server : ServerProcess) (taken : Option Data)
      (halone : s.server.byItself a = true)
      (hstep : s.server.next a = some (server, taken)) :
      ServiceMove getopt config s (.server a)
        ⟨server, taken.or s.current, s.host⟩ (.server taken)
  | serve (fork : Option ℤ) (data : Data) (server : ServerProcess)
      (host : Host N) (o : Observation) (hpc : s.server.worker = .serve)
      (hcurrent : s.current = some data)
      (hstep : s.server.next .worker = some (server, none))
      (hserve : s.host.next getopt config (.serve data fork) = some (host, o)) :
      ServiceMove getopt config s (.serve fork) ⟨server, none, host⟩
        (.served data o)
  | accept (pid : ℤ) (query : Query) (response : Response) (data : Data)
      (server : ServerProcess) (htask : addTask pid query = (response, some data))
      (hpush : s.server.next (.push data) = some (server, none)) :
      ServiceMove getopt config s (.stream pid query)
        ⟨server, s.current, s.host⟩ (.answered response (some data))
  | refuse (pid : ℤ) (query : Query) (response : Response)
      (htask : addTask pid query = (response, none))
      (hanswers : s.server.answers = true) :
      ServiceMove getopt config s (.stream pid query) s
        (.answered response none)
  | list (text : CString) (hanswers : s.server.answers = true)
      (hfree : s.host.owner = none)
      (hprint : s.host.list.printList = some text) :
      ServiceMove getopt config s .status s (.listed ⟨.ok, text⟩)
  | host (a : HostAction) (host : Host N) (o : Observation)
      (hprocess : a.ofProcess = true)
      (hstep : s.host.next getopt config a = some (host, o)) :
      ServiceMove getopt config s (.host a) ⟨s.server, s.current, host⟩
        (.host o)

theorem service_cases (h : s.next getopt config a = some (t, o)) :
    ServiceMove getopt config s a t o := by
  cases a with
  | server a =>
      obtain ⟨halone, hrest⟩ := Option.ite_none_right_eq_some.mp h
      obtain ⟨⟨server, taken⟩, hstep, heq⟩ := Option.bind_eq_some_iff.mp hrest
      cases heq
      exact .server a server taken halone hstep
  | serve fork =>
      obtain ⟨hpc, hrest⟩ := Option.ite_none_right_eq_some.mp h
      obtain ⟨data, hcurrent, hrest⟩ := Option.bind_eq_some_iff.mp hrest
      obtain ⟨⟨server, taken⟩, hstep, hrest⟩ := Option.bind_eq_some_iff.mp hrest
      obtain ⟨⟨host, o⟩, hserve, heq⟩ := Option.bind_eq_some_iff.mp hrest
      cases heq
      obtain rfl : taken = none := by
        have hact := (act_of_next hstep).2
        obtain ⟨-, hwork⟩ := Option.ite_none_left_eq_some.mp hact
        simp only [ServerProcess.workerStep, hpc] at hwork
        cases hwork
        rfl
      exact .serve fork data server host o hpc hcurrent hstep hserve
  | stream pid query =>
      cases htask : addTask pid query with
      | mk response accepted =>
      cases accepted with
      | none =>
          simp only [Service.next, htask] at h
          obtain ⟨hanswers, heq⟩ := Option.ite_none_right_eq_some.mp h
          cases heq
          exact .refuse pid query response htask hanswers
      | some data =>
          simp only [Service.next, htask] at h
          obtain ⟨⟨server, taken⟩, hpush, heq⟩ := Option.bind_eq_some_iff.mp h
          cases heq
          obtain rfl : taken = none := by
            have hact := (act_of_next hpush).2
            obtain ⟨-, heq⟩ := Option.ite_none_right_eq_some.mp hact
            cases heq
            rfl
          exact .accept pid query response data server htask hpush
  | status =>
      obtain ⟨⟨hanswers, hfree⟩, hrest⟩ := Option.ite_none_right_eq_some.mp h
      obtain ⟨text, hprint, heq⟩ := Option.bind_eq_some_iff.mp hrest
      cases heq
      exact .list text hanswers hfree hprint
  | host a =>
      obtain ⟨hprocess, hrest⟩ := Option.ite_none_right_eq_some.mp h
      obtain ⟨⟨host, o⟩, hstep, heq⟩ := Option.bind_eq_some_iff.mp hrest
      cases heq
      exact .host a host o hprocess hstep

end Steps

section Runs

variable {s t : Service N} {es : List (ServiceAction × ServiceObservation)}

theorem Service.threads_run (h : Run (ServiceStep getopt config) s es t) :
    Run ServerStep s.server (es.filterMap threadsPart) t.server := by
  apply h.project (f := Service.server)
  · rintro s ⟨a, o⟩ t hstep hpart
    cases service_cases hstep
    all_goals first | rfl | cases hpart
  · rintro s ⟨a, o⟩ t b hstep hpart
    cases service_cases hstep
    all_goals cases hpart
    all_goals assumption

/-- The processes of the host go through a run of the host. -/
theorem Service.host_run (h : Run (ServiceStep getopt config) s es t) :
    Run (HostStep getopt config) s.host (es.filterMap hostPart) t.host := by
  apply h.project (f := Service.host)
  · rintro s ⟨a, o⟩ t hstep hpart
    cases service_cases hstep
    all_goals first | rfl | cases hpart
  · rintro s ⟨a, o⟩ t b hstep hpart
    cases service_cases hstep
    all_goals cases hpart
    all_goals assumption

/-- The worker holds a record exactly while it is at its core work. -/
structure Carried (s : Service N) : Prop where
  attentive : Attentive s.server
  current : s.server.worker = .serve ↔ s.current.isSome = true

theorem initial_carried (mem : SharedLst N) : Carried (Service.initial mem) where
  attentive := start_attentive
  current := by simp [Service.initial, ServerProcess.start]

/-- What a step does to the records that are on their way, from the answer of
`addTask` to the end of the core work. -/
theorem Carried.next {a : ServiceAction} {o : ServiceObservation}
    (hs : Carried s) (hstep : s.next getopt config a = some (t, o)) :
    Carried t ∧
      s.current.toList ++ s.server.queue ++ (acceptedRequest (a, o)).toList =
        (servedRequest (a, o)).toList ++ (t.current.toList ++ t.server.queue) := by
  obtain ⟨hattentive, hcurrent⟩ := hs
  cases service_cases hstep with
  | server a server taken halone hnext =>
      have ha : a = .worker → s.server.worker ≠ .serve := by
        rintro rfl
        simpa [ServerProcess.byItself] using halone
      have hpushed : a.pushed = none := by
        cases a with
        | push data => cases halone
        | _ => rfl
      have hqueue := next_queue hnext
      rw [hpushed, Option.toList_none, List.append_nil] at hqueue
      rcases next_serving hattentive hnext ha with
        ⟨rfl, hsame⟩ | ⟨data, rfl, htake, hserve⟩
      · refine ⟨⟨next_attentive hattentive hnext, ?_⟩, ?_⟩
        · simpa [hsame] using hcurrent
        · simp [acceptedRequest, servedRequest, hostPart, hqueue]
      · have hnone : s.current = none := by
          cases hdata : s.current with
          | none => rfl
          | some data =>
              rw [hdata, htake] at hcurrent
              simp at hcurrent
        refine ⟨⟨next_attentive hattentive hnext, by simp [hserve]⟩, ?_⟩
        simp [acceptedRequest, servedRequest, hostPart, hqueue, hnone]
  | serve fork data server host o hpc hdata hnext hserve =>
      have hqueue := next_queue hnext
      simp only [ServerAction.pushed, Option.toList_none, List.append_nil,
        List.nil_append] at hqueue
      refine ⟨⟨next_attentive hattentive hnext, ?_⟩, ?_⟩
      · have hact := (act_of_next hnext).2
        obtain ⟨-, hwork⟩ := Option.ite_none_left_eq_some.mp hact
        simp only [ServerProcess.workerStep, hpc] at hwork
        cases hwork
        simp
      · simp [acceptedRequest, servedRequest, hostPart, hostServed, hqueue, hdata]
  | accept pid query response data server htask hpush =>
      have hqueue := next_queue hpush
      simp only [ServerAction.pushed, Option.toList_none, Option.toList_some,
        List.nil_append] at hqueue
      refine ⟨⟨next_attentive hattentive hpush, ?_⟩, ?_⟩
      · rcases next_serving hattentive hpush (by simp) with
          ⟨-, hsame⟩ | ⟨data, hnone, -⟩
        · simpa [hsame] using hcurrent
        · cases hnone
      · simp [acceptedRequest, servedRequest, hostPart, ← hqueue]
  | refuse =>
      exact ⟨⟨hattentive, hcurrent⟩,
        by simp [acceptedRequest, servedRequest, hostPart]⟩
  | list =>
      exact ⟨⟨hattentive, hcurrent⟩,
        by simp [acceptedRequest, servedRequest, hostPart]⟩
  | host a host o hprocess hnext =>
      refine ⟨⟨hattentive, hcurrent⟩, ?_⟩
      simp [acceptedRequest, servedRequest, hostPart,
        hostServed_of_ofProcess hprocess]

theorem carried_of_run {mem : SharedLst N}
    (h : Run (ServiceStep getopt config) (.initial mem) es t) : Carried t :=
  h.invariant (initial_carried mem) fun _ _ _ hs hstep => (hs.next hstep).1

theorem Carried.run (hs : Carried s)
    (h : Run (ServiceStep getopt config) s es t) :
    Carried t ∧
      s.current.toList ++ s.server.queue ++ es.filterMap acceptedRequest =
        es.filterMap servedRequest ++ (t.current.toList ++ t.server.queue) := by
  apply h.history_invariant (P := fun es t => Carried t ∧
    s.current.toList ++ s.server.queue ++ es.filterMap acceptedRequest =
      es.filterMap servedRequest ++ (t.current.toList ++ t.server.queue))
  · exact ⟨hs, by simp⟩
  · rintro es t ⟨a, o⟩ u ⟨ht, hbefore⟩ hstep
    obtain ⟨hu, hlast⟩ := ht.next hstep
    refine ⟨hu, ?_⟩
    calc
      s.current.toList ++ s.server.queue ++
          (es ++ [(a, o)]).filterMap acceptedRequest
      _ = es.filterMap servedRequest ++ (t.current.toList ++ t.server.queue ++
          (acceptedRequest (a, o)).toList) := by
        rw [filterMap_snoc, ← List.append_assoc, hbefore, List.append_assoc]
      _ = (es ++ [(a, o)]).filterMap servedRequest ++
          (u.current.toList ++ u.server.queue) := by
        rw [hlast, filterMap_snoc, List.append_assoc]

theorem answered_of_run {mem : SharedLst N}
    (h : Run (ServiceStep getopt config) (.initial mem) es t) {pid : ℤ}
    {query : Query} {response : Response} {accepted : Option Data}
    (he : (.stream pid query, .answered response accepted) ∈ es) :
    addTask pid query = (response, accepted) := by
  revert he
  apply h.history_invariant (P := fun es _ =>
    (.stream pid query, .answered response accepted) ∈ es →
      addTask pid query = (response, accepted))
  · simp
  · rintro es s e u hbefore hstep he
    rcases List.mem_append.mp he with he | he
    · exact hbefore he
    · rw [← List.mem_singleton.mp he] at hstep
      cases service_cases hstep with
      | accept pid query response data server htask => exact htask
      | refuse pid query response htask => exact htask

/-- In every run the accepted requests are the ones served, in this order, then
the one in the hands of the worker, then the queue.  An answer is `200` exactly
when its request was accepted, which then has passed all checks, and the
processes of the host have gone through a run that serves these requests. -/
theorem requests_served_in_order {mem : SharedLst N}
    (hrun : Run (ServiceStep getopt config) (.initial mem) es t) :
    es.filterMap acceptedRequest =
        es.filterMap servedRequest ++ (t.current.toList ++ t.server.queue) ∧
      (∀ pid query response accepted,
        (.stream pid query, .answered response accepted) ∈ es →
          (response.code = .ok ↔ accepted.isSome = true) ∧
          ∀ data, accepted = some data → Accepted query data) ∧
      ∃ hostEvents,
        Run (HostStep getopt config) (.initial mem) hostEvents t.host ∧
          hostEvents.filterMap hostServed = es.filterMap servedRequest := by
  refine ⟨?_, ?_, es.filterMap hostPart, Service.host_run hrun, ?_⟩
  · simpa [Service.initial, ServerProcess.start] using
      ((initial_carried mem).run hrun).2
  · intro pid query response accepted he
    have htask := answered_of_run hrun he
    cases accepted with
    | some data =>
        obtain ⟨hcode, haccepted⟩ := addTask_accepted htask
        refine ⟨by simp [hcode], ?_⟩
        rintro _ ⟨⟩
        exact haccepted
    | none =>
        refine ⟨?_, by rintro _ ⟨⟩⟩
        have hcode := addTask_refused htask
        simp [hcode]
  · rw [List.filterMap_filterMap]
    rfl

/-- Two accepted queries and one without a port; the first is served. -/
def serviceSteps : List ServiceAction :=
  [.server .main, .server .main, .stream 0 MediaEndpoint.validQuery,
    .stream 0 retargetQuery, .stream 0 fun _ => none, .server .notify] ++
    List.replicate 5 (.server .worker) ++ [.serve (some 7)]

theorem requests_served_in_order_two : ∃ t es,
    Run (ServiceStep MediaEndpoint.exactGetoptLong MediaEndpoint.defaultConfig)
        (.initial (zeroSegment 2)) es t ∧
      es.filterMap servedRequest = [MediaEndpoint.serverRequest 21000 10000] ∧
      t.server.queue = [retargetRequest] ∧
      es.filterMap acceptedRequest =
        es.filterMap servedRequest ++ (t.current.toList ++ t.server.queue) := by
  obtain ⟨t, es, hrun, -, htest⟩ := exists_run_of_exec
    (Service.next MediaEndpoint.exactGetoptLong MediaEndpoint.defaultConfig)
    (.initial (zeroSegment 2)) serviceSteps
    (fun r => decide (r.2.filterMap servedRequest =
        [MediaEndpoint.serverRequest 21000 10000] ∧
      r.1.server.queue = [retargetRequest])) (by decide +kernel)
  obtain ⟨hserved, hqueue⟩ := of_decide_eq_true htest
  exact ⟨t, es, hrun, hserved, hqueue, (requests_served_in_order hrun).1⟩

end Runs

end SippScen.MediaHost
