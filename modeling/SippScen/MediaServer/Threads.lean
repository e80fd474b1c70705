import SippScen.MediaServer.Request
import SippScen.Support.Run

/-!
# The threads of the media server

`main` starts the worker and the REST interface and then waits for signals.  The
worker takes requests from `taskQueue` under `queueMutex` and waits on `queueCV`.
`cleanup` is the handler of SIGINT: it runs at any point, on whatever thread the
signal was delivered to, while that thread stands still, and does not lock
`queueMutex`.  The section in which `addTask` pushes a request is one step, since
it holds the mutex throughout.
-/

namespace SippScen.MediaServer

open SippScen.Support SippScen.SharedList

/-- The next statement of `workerThread`.  At `check` and `recheck` it evaluates
the predicate of the wait and the test after it, `waiting` is inside of
`queueCV.wait`, at `notified` it was woken and has to lock the mutex again, and
`serve` is the core work. -/
inductive WorkerPc
  | unstarted
  | test
  | lock
  | check
  | wait
  | waiting
  | notified
  | recheck
  | take
  | serve
  | ended
deriving DecidableEq, Repr

/-- The next statement of `main`, once `cleanup` is installed.  At `pause` it is
about to call `pause()`, at `paused` it is in it. -/
inductive ServerPc
  | startWorker
  | serveThreaded
  | test
  | pause
  | paused
  | join
  | finished
deriving DecidableEq, Repr

/-- The next statement of `cleanup`. -/
inductive HandlerPc
  | idle
  | set
  | notify
  | leave
  | finished
deriving DecidableEq, Repr

/-- The threads that SIGINT can be delivered to; `rest` is one of Pistache's. -/
inductive ServerThread
  | main
  | worker
  | rest
deriving DecidableEq, Repr

/-- The process of a media server.  `interrupted` is the thread that `cleanup`
runs on, and `notifies` counts the requests that have been pushed but not
notified. -/
structure ServerProcess where
  worker : WorkerPc
  main : ServerPc
  handler : HandlerPc
  interrupted : ServerThread
  running : Bool
  queue : List Data
  notifies : ℕ
deriving DecidableEq, Repr

/-- A step of the worker, of `main`, of `cleanup`, or of a thread of the REST
interface, which pushes a request and notifies; the delivery of SIGINT; a SIGCHLD
that interrupts `pause()`; a spurious wake-up of the worker. -/
inductive ServerAction
  | worker
  | main
  | cleanup
  | push (data : Data)
  | notify
  | interrupt (thread : ServerThread)
  | child
  | wake
deriving DecidableEq, Repr

/-- The worker holds `queueMutex`. -/
def WorkerPc.holdsMutex : WorkerPc → Bool
  | .check | .wait | .recheck | .take => true
  | _ => false

/-- The REST interface has been started. -/
def ServerPc.serving : ServerPc → Bool
  | .startWorker | .serveThreaded => false
  | _ => true

/-- `cleanup` has been entered and has not returned. -/
def HandlerPc.active : HandlerPc → Bool
  | .set | .notify | .leave => true
  | _ => false

namespace ServerProcess

/-- The process when SIGINT has got its handler. -/
def start : ServerProcess where
  worker := .unstarted
  main := .startWorker
  handler := .idle
  interrupted := .main
  running := true
  queue := []
  notifies := 0

/-- A thread stands still while `cleanup` runs on it. -/
def suspended (s : ServerProcess) (t : ServerThread) : Bool :=
  s.handler.active && decide (s.interrupted = t)

/-- The thread exists. -/
def present (s : ServerProcess) : ServerThread → Bool
  | .main => true
  | .worker => decide (s.worker ≠ .unstarted ∧ s.worker ≠ .ended)
  | .rest => s.main.serving

/-- `queueCV.notify_one()`. -/
def notifyOne (s : ServerProcess) : ServerProcess :=
  if s.worker = .waiting then { s with worker := .notified } else s

/-- The next statement of the worker, and the request that it takes. -/
def workerStep (s : ServerProcess) : Option (ServerProcess × Option Data) :=
  match s.worker with
  | .unstarted => none
  | .test =>
      some ({ s with worker := if s.running then .lock else .ended }, none)
  | .lock => some ({ s with worker := .check }, none)
  | .check =>
      some ({ s with
        worker := if s.queue ≠ [] ∨ s.running = false then .recheck
          else .wait }, none)
  | .wait => some ({ s with worker := .waiting }, none)
  | .waiting => none
  | .notified => some ({ s with worker := .check }, none)
  | .recheck =>
      some ({ s with worker := if s.running then .take else .ended }, none)
  | .take =>
      match s.queue with
      | [] => none
      | data :: rest =>
          some ({ s with queue := rest, worker := .serve }, some data)
  | .serve => some ({ s with worker := .test }, none)
  | .ended => none

/-- The next statement of `main`. -/
def mainStep (s : ServerProcess) : Option (ServerProcess × Option Data) :=
  match s.main with
  | .startWorker =>
      some ({ s with worker := .test, main := .serveThreaded }, none)
  | .serveThreaded => some ({ s with main := .test }, none)
  | .test =>
      some ({ s with main := if s.running then .pause else .join }, none)
  | .pause => some ({ s with main := .paused }, none)
  | .paused => none
  | .join =>
      if s.worker = .ended then some ({ s with main := .finished }, none)
      else none
  | .finished => none

/-- The next statement of `cleanup`.  When it returns on the thread of `main`,
`pause()` returns too. -/
def cleanup (s : ServerProcess) : Option (ServerProcess × Option Data) :=
  match s.handler with
  | .idle => none
  | .set => some ({ s with running := false, handler := .notify }, none)
  | .notify => some ({ s.notifyOne with handler := .leave }, none)
  | .leave =>
      some ({ s with
        handler := .finished
        main := if s.main = .paused ∧ s.interrupted = .main then .test
          else s.main }, none)
  | .finished => none

/-- One step of a process whose `main` has not returned. -/
def act (s : ServerProcess) :
    ServerAction → Option (ServerProcess × Option Data)
  | .worker => if s.suspended .worker then none else s.workerStep
  | .main => if s.suspended .main then none else s.mainStep
  | .cleanup => s.cleanup
  | .push data =>
      if s.main.serving = true ∧ s.worker.holdsMutex = false then
        some ({ s with
          queue := s.queue ++ [data], notifies := s.notifies + 1 }, none)
      else none
  | .notify =>
      match s.notifies with
      | 0 => none
      | n + 1 => some ({ s.notifyOne with notifies := n }, none)
  | .interrupt thread =>
      if s.handler = .idle ∧ s.present thread = true then
        some ({ s with handler := .set, interrupted := thread }, none)
      else none
  | .child =>
      if s.main = .paused then some ({ s with main := .test }, none) else none
  | .wake =>
      if s.worker = .waiting then some ({ s with worker := .notified }, none)
      else none

/-- One step of the process. -/
def next (s : ServerProcess) (a : ServerAction) :
    Option (ServerProcess × Option Data) :=
  if s.main = .finished then none else s.act a

end ServerProcess

/-- The step relation of the media server. -/
def ServerStep :
    ServerProcess → ServerAction × Option Data → ServerProcess → Prop :=
  StepOf ServerProcess.next

/-! ## The queue -/

/-- The request that a step pushes. -/
def ServerAction.pushed : ServerAction → Option Data
  | .push data => some data
  | _ => none

/-- A request that passed the predicate of the wait is still there when the
worker takes it. -/
structure TakesRequest (s : ServerProcess) : Prop where
  recheck : s.worker = .recheck → s.running = true → s.queue ≠ []
  take : s.worker = .take → s.queue ≠ []

section Steps

variable {s t : ServerProcess} {a : ServerAction} {o : Option Data}

/-- Only a process that has not returned makes a step. -/
theorem act_of_next (h : s.next a = some (t, o)) :
    s.main ≠ .finished ∧ s.act a = some (t, o) := by
  simpa [ServerProcess.next] using h

/-- What a notification keeps true of the statement the worker is at. -/
theorem ServerProcess.notifyOne_worker_of {P : WorkerPc → Prop}
    (h : P .notified) (hs : s.worker ≠ .waiting → P s.worker) :
    P s.notifyOne.worker := by
  unfold ServerProcess.notifyOne
  split
  · exact h
  · next hwaiting => exact hs hwaiting

@[simp] theorem ServerProcess.notifyOne_queue :
    s.notifyOne.queue = s.queue := by
  unfold ServerProcess.notifyOne
  split <;> rfl

@[simp] theorem ServerProcess.notifyOne_running :
    s.notifyOne.running = s.running := by
  unfold ServerProcess.notifyOne
  split <;> rfl

@[simp] theorem ServerProcess.notifyOne_main :
    s.notifyOne.main = s.main := by
  unfold ServerProcess.notifyOne
  split <;> rfl

@[simp] theorem ServerProcess.notifyOne_interrupted :
    s.notifyOne.interrupted = s.interrupted := by
  unfold ServerProcess.notifyOne
  split <;> rfl

@[simp] theorem ServerProcess.notifyOne_handler :
    s.notifyOne.handler = s.handler := by
  unfold ServerProcess.notifyOne
  split <;> rfl

@[simp] theorem ServerProcess.notifyOne_notifies : s.notifyOne.notifies = s.notifies := by
  unfold ServerProcess.notifyOne
  split <;> rfl

/-- A step of the worker leaves the rest of the process alone and takes a
request from the front of the queue or none. -/
theorem workerStep_frame (h : s.workerStep = some (t, o)) :
    t.main = s.main ∧ t.handler = s.handler ∧
      t.interrupted = s.interrupted ∧ t.running = s.running ∧
      t.notifies = s.notifies ∧ s.queue = o.toList ++ t.queue := by
  unfold ServerProcess.workerStep at h
  split at h
  all_goals try split at h
  all_goals cases h
  all_goals simp_all

theorem mainStep_frame (h : s.mainStep = some (t, o)) :
    o = none ∧ t.handler = s.handler ∧ t.interrupted = s.interrupted ∧
      t.running = s.running ∧ t.notifies = s.notifies ∧ t.queue = s.queue ∧
      (t.worker = s.worker ∨ s.main = .startWorker ∧ t.worker = .test) := by
  unfold ServerProcess.mainStep at h
  split at h
  all_goals try split at h
  all_goals cases h
  all_goals simp_all

/-- The handler does not touch the queue, and only clears the flag. -/
theorem cleanup_frame (h : s.cleanup = some (t, o)) :
    o = none ∧ t.queue = s.queue ∧ t.notifies = s.notifies ∧
      (t.running = true → s.running = true) ∧
      (t.worker = s.worker ∨ t.worker = s.notifyOne.worker) := by
  unfold ServerProcess.cleanup at h
  split at h
  all_goals cases h
  all_goals simp

/-- A step takes the first request or pushes one to the end. -/
theorem next_queue (h : s.next a = some (t, o)) :
    s.queue ++ a.pushed.toList = o.toList ++ t.queue := by
  obtain ⟨-, hact⟩ := act_of_next h
  cases a with
  | worker =>
      obtain ⟨-, hstep⟩ := Option.ite_none_left_eq_some.mp hact
      obtain ⟨-, -, -, -, -, hqueue⟩ := workerStep_frame hstep
      simpa [ServerAction.pushed] using hqueue
  | main =>
      obtain ⟨-, hstep⟩ := Option.ite_none_left_eq_some.mp hact
      obtain ⟨rfl, -, -, -, -, hqueue, -⟩ := mainStep_frame hstep
      simp [ServerAction.pushed, hqueue]
  | cleanup =>
      obtain ⟨rfl, hqueue, -⟩ := cleanup_frame hact
      simp [ServerAction.pushed, hqueue]
  | notify =>
      simp only [ServerProcess.act] at hact
      split at hact
      · cases hact
      · cases hact
        simp [ServerAction.pushed]
  | _ =>
      obtain ⟨-, heq⟩ := Option.ite_none_right_eq_some.mp hact
      cases heq
      simp [ServerAction.pushed]

theorem workerStep_takesRequest (hs : TakesRequest s)
    (h : s.workerStep = some (t, o)) : TakesRequest t := by
  obtain ⟨hrecheck, htake⟩ := hs
  cases hpc : s.worker
  all_goals simp only [ServerProcess.workerStep, hpc] at h
  all_goals try split at h
  all_goals cases h
  all_goals constructor
  all_goals simp_all
  next hready =>
    intro hrunning
    exact hready.resolve_right (by simp [hrunning])

theorem TakesRequest.of_frame (hs : TakesRequest s)
    (hqueue : s.queue ≠ [] → t.queue ≠ [])
    (hrunning : t.running = true → s.running = true)
    (hworker : t.worker = s.worker ∨ t.worker = .notified ∨
      t.worker = .test) : TakesRequest t := by
  rcases hworker with hsame | hmoved | hmoved
  · constructor
    · intro hpc hafter
      exact hqueue (hs.recheck (hsame ▸ hpc) (hrunning hafter))
    · intro hpc
      exact hqueue (hs.take (hsame ▸ hpc))
  · constructor <;> simp [hmoved]
  · constructor <;> simp [hmoved]

theorem next_takesRequest (hs : TakesRequest s) (h : s.next a = some (t, o)) :
    TakesRequest t := by
  obtain ⟨-, hact⟩ := act_of_next h
  have hnotified : s.notifyOne.worker = s.worker ∨
      s.notifyOne.worker = .notified ∨ s.notifyOne.worker = .test :=
    ServerProcess.notifyOne_worker_of
      (P := fun w => w = s.worker ∨ w = .notified ∨ w = .test)
      (Or.inr (Or.inl rfl)) fun _ => Or.inl rfl
  cases a with
  | worker =>
      obtain ⟨-, hstep⟩ := Option.ite_none_left_eq_some.mp hact
      exact workerStep_takesRequest hs hstep
  | main =>
      obtain ⟨-, hstep⟩ := Option.ite_none_left_eq_some.mp hact
      obtain ⟨-, -, -, hrunning, -, hqueue, hworker⟩ := mainStep_frame hstep
      apply hs.of_frame
      · rw [hqueue]
        exact id
      · rw [hrunning]
        exact id
      · exact hworker.imp_right fun htest => Or.inr htest.2
  | cleanup =>
      obtain ⟨-, hqueue, -, hrunning, hworker⟩ := cleanup_frame hact
      apply hs.of_frame _ hrunning
      · rcases hworker with hsame | hsame
        · exact Or.inl hsame
        · rw [hsame]
          exact hnotified
      · rw [hqueue]
        exact id
  | notify =>
      simp only [ServerProcess.act] at hact
      split at hact
      · cases hact
      · cases hact
        exact hs.of_frame (by simp) (by simp) hnotified
  | wake =>
      obtain ⟨-, heq⟩ := Option.ite_none_right_eq_some.mp hact
      cases heq
      exact hs.of_frame id id (Or.inr (Or.inl rfl))
  | push data =>
      obtain ⟨-, heq⟩ := Option.ite_none_right_eq_some.mp hact
      cases heq
      exact hs.of_frame (by simp) id (Or.inl rfl)
  | _ =>
      obtain ⟨-, heq⟩ := Option.ite_none_right_eq_some.mp hact
      cases heq
      exact hs.of_frame id id (Or.inl rfl)

end Steps

section Runs

variable {s : ServerProcess} {es : List (ServerAction × Option Data)}

/-- Every request is taken once, in the order of the pushes, or waits in the
queue. -/
theorem run_queue (h : Run ServerStep .start es s) :
    es.filterMap (fun e => e.1.pushed) = es.filterMap Prod.snd ++ s.queue := by
  apply h.history_invariant (P := fun es s =>
    es.filterMap (fun e => e.1.pushed) = es.filterMap Prod.snd ++ s.queue)
  · rfl
  · rintro es s ⟨a, o⟩ t hqueue hstep
    have hnext := next_queue hstep
    calc
      (es ++ [(a, o)]).filterMap (fun e => e.1.pushed)
      _ = es.filterMap Prod.snd ++ (s.queue ++ a.pushed.toList) := by
        rw [List.filterMap_append, hqueue, List.append_assoc]
        cases hpushed : a.pushed <;> simp [hpushed]
      _ = (es ++ [(a, o)]).filterMap Prod.snd ++ t.queue := by
        rw [hnext, List.filterMap_append, List.append_assoc]
        cases o <;> simp

theorem run_takesRequest (h : Run ServerStep .start es s) : TakesRequest s :=
  h.invariant ⟨by simp [ServerProcess.start], by simp [ServerProcess.start]⟩
    fun _ _ _ hs hstep => next_takesRequest hs hstep

end Runs

end SippScen.MediaServer
