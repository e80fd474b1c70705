import SippScen.MediaEndpoint.Options
import SippScen.Support.Run

/-!
# The threads of an endpoint

`main` waits for signals and copies the entry into `conf`, while the stream
thread reads `conf` and streams.  They share the mutex `cv_m`, the condition
variable `cv` and the flag `b_running`.  Each step is one statement of one of
the two threads.  The registry and its mutex are shared with other processes:
what `main` finds there is part of its steps, and a step reports when it locks
or unlocks the registry.
-/

namespace SippScen.MediaEndpoint

open SippScen.Support SippScen.SharedList

/-- The next statement of `main`, from its first wait for a signal on. -/
inductive MainPc
  | waiting
  | lockList
  | fetch
  | unlockList
  | lockConf
  | copy
  | unlockConf
  | notify
  | endLock
  | endSet
  | endNotify
  | endUnlock
  | join
  | lockRemove
  | remove
  | unlockRemove
  | finish
deriving DecidableEq, Repr

/-- The next statement of `endpoint_thread`.  At `blocked` the thread waits on
the condition variable, at `notified` it was woken and has to lock the mutex
again, and at `caught` it is in the handler of an exception. -/
inductive StreamPc
  | construct
  | test
  | lockConf
  | setRemoteAddr
  | createStream
  | startStream
  | unlockServer
  | serverSleep
  | serverTest
  | startStreaming
  | sleep
  | stopStreaming
  | wait
  | blocked
  | notified
  | endIteration
  | finished
  | caught
deriving DecidableEq, Repr

/-- The statements of the stream thread that contain a `check_status`. -/
def StreamPc.fallible : StreamPc → Bool
  | .construct | .setRemoteAddr | .createStream | .startStream
  | .startStreaming | .stopStreaming => true
  | _ => false

/-- The two threads, as owners of `cv_m`. -/
inductive Thread
  | main
  | stream
deriving DecidableEq, Repr

/-- How a process ended: `main` returned, `sigtimedwait` failed, `main` copied
from `NULL`, or the stream thread called `_exit(1)`. -/
inductive Termination
  | returned
  | waitFailure
  | nullCopy
  | streamFailure
deriving DecidableEq, Repr

/-- An endpoint process that has started its stream thread.  `found` says
whether the pointer `new_conf` is valid. -/
structure Process where
  server : Bool
  conf : Data
  tvSec : ℤ
  main : MainPc
  stream : StreamPc
  owner : Option Thread
  running : Bool
  pending : ℕ
  found : Bool
  termination : Option Termination
deriving DecidableEq, Repr

/-- A step of one of the threads, or of its environment: a signal is queued, the
wait ends by its timeout or with another error, a statement of the stream thread
throws, or the condition variable wakes its waiter without a notification.  The
results of `fetch_element` and of the copy come from the registry. -/
inductive Action
  | signal
  | main
  | fetch (found : Bool)
  | copy (data : Data)
  | timeout
  | waitError
  | stream
  | fail
  | wake
deriving DecidableEq, Repr

/-- What a step does to the registry mutex, and the values of `conf` that it
stores or reads. -/
inductive Report
  | silent
  | lockList
  | unlockList
  | stored (data : Data)
  | read (data : Data)
deriving DecidableEq, Repr

/-- `timeout.tv_sec = conf.duration * 2 / 1000` in 32-bit arithmetic. -/
def timeoutSec (duration : ℤ) : ℤ := (toInt32 (duration * 2)).tdiv 1000

namespace Process

/-- The process when `main` waits for its first signal. -/
def start (options : Options) : Process where
  server := options.defaultDuration.server
  conf := options.defaultDuration.conf
  tvSec := timeoutSec options.defaultDuration.conf.duration
  main := .waiting
  stream := .construct
  owner := none
  running := true
  pending := 0
  found := false
  termination := none

/-- `cv.notify_one()`. -/
def notifyOne (p : Process) : Process :=
  if p.stream = .blocked then { p with stream := .notified } else p

/-- The end of the process. -/
def terminate (p : Process) (how : Termination) : Process :=
  { p with termination := some how }

/-- The next statement of `main`, unless it depends on the registry. -/
def mainStep (p : Process) : Option (Process × Report) :=
  match p.main with
  | .waiting =>
      match p.pending with
      | 0 => none
      | n + 1 => some ({ p with pending := n, main := .lockList }, .silent)
  | .lockList => some ({ p with main := .fetch }, .lockList)
  | .fetch => none
  | .unlockList => some ({ p with main := .lockConf }, .unlockList)
  | .lockConf =>
      if p.owner = none then
        some ({ p with owner := some .main, main := .copy }, .silent)
      else none
  | .copy => if p.found then none else some (p.terminate .nullCopy, .silent)
  | .unlockConf =>
      some ({ p with owner := none, main := .notify }, .silent)
  | .notify => some ({ p.notifyOne with main := .waiting }, .silent)
  | .endLock =>
      if p.owner = none then
        some ({ p with owner := some .main, main := .endSet }, .silent)
      else none
  | .endSet => some ({ p with running := false, main := .endNotify }, .silent)
  | .endNotify => some ({ p.notifyOne with main := .endUnlock }, .silent)
  | .endUnlock => some ({ p with owner := none, main := .join }, .silent)
  | .join =>
      if p.stream = .finished then
        some ({ p with main := .lockRemove }, .silent)
      else none
  | .lockRemove => some ({ p with main := .remove }, .lockList)
  | .remove => some ({ p with main := .unlockRemove }, .silent)
  | .unlockRemove => some ({ p with main := .finish }, .unlockList)
  | .finish => some (p.terminate .returned, .silent)

/-- The next statement of the stream thread, when it succeeds. -/
def streamStep (p : Process) : Option (Process × Report) :=
  match p.stream with
  | .construct => some ({ p with stream := .test }, .silent)
  | .test =>
      some ({ p with stream := if p.running then .lockConf else .finished },
        .silent)
  | .lockConf =>
      if p.owner = none then
        some ({ p with owner := some .stream, stream := .setRemoteAddr },
          .silent)
      else none
  | .setRemoteAddr => some ({ p with stream := .createStream }, .read p.conf)
  | .createStream => some ({ p with stream := .startStream }, .silent)
  | .startStream =>
      some ({ p with
        stream := if p.server then .unlockServer else .startStreaming },
        .silent)
  | .unlockServer =>
      some ({ p with owner := none, stream := .serverSleep }, .silent)
  | .serverSleep => some ({ p with stream := .serverTest }, .silent)
  | .serverTest =>
      some ({ p with stream := if p.running then .serverSleep else .finished },
        .silent)
  | .startStreaming => some ({ p with stream := .sleep }, .silent)
  | .sleep => some ({ p with stream := .stopStreaming }, .silent)
  | .stopStreaming => some ({ p with stream := .wait }, .silent)
  | .wait => some ({ p with owner := none, stream := .blocked }, .silent)
  | .blocked => none
  | .notified =>
      if p.owner = none then
        some ({ p with owner := some .stream, stream := .endIteration },
          .silent)
      else none
  | .endIteration => some ({ p with owner := none, stream := .test }, .silent)
  | .finished => none
  | .caught => some (p.terminate .streamFailure, .silent)

/-- A `check_status` of the stream thread fails: the exception unlocks the mutex
on its way to the handler. -/
def streamFail (p : Process) : Option (Process × Report) :=
  if p.stream.fallible then
    some ({ p with
      stream := .caught
      owner := if p.owner = some .stream then none else p.owner }, .silent)
  else none

/-- One step of a process that has not ended. -/
def act (p : Process) : Action → Option (Process × Report)
  | .signal => some ({ p with pending := p.pending + 1 }, .silent)
  | .main => p.mainStep
  | .fetch found =>
      if p.main = .fetch then
        some ({ p with found := found, main := .unlockList }, .silent)
      else none
  | .copy data =>
      if p.main = .copy ∧ p.found then
        some ({ p with conf := data, main := .unlockConf }, .stored data)
      else none
  | .timeout =>
      if p.main = .waiting ∧ p.pending = 0 then
        some ({ p with main := .endLock }, .silent)
      else none
  | .waitError =>
      if p.main = .waiting then some (p.terminate .waitFailure, .silent)
      else none
  | .stream => p.streamStep
  | .fail => p.streamFail
  | .wake =>
      if p.stream = .blocked then
        some ({ p with stream := .notified }, .silent)
      else none

/-- One step of a process. -/
def next (p : Process) (a : Action) : Option (Process × Report) :=
  if p.termination = none then p.act a else none

end Process

/-- The step relation of one process. -/
def ProcessStep : Process → Action × Report → Process → Prop :=
  StepOf Process.next

/-! ## What the steps leave alone -/

section Steps

variable {p q : Process} {a : Action} {r : Report}

@[simp] theorem notifyOne_conf : p.notifyOne.conf = p.conf := by
  unfold Process.notifyOne
  split <;> rfl

@[simp] theorem notifyOne_tvSec : p.notifyOne.tvSec = p.tvSec := by
  unfold Process.notifyOne
  split <;> rfl

@[simp] theorem notifyOne_pending : p.notifyOne.pending = p.pending := by
  unfold Process.notifyOne
  split <;> rfl

@[simp] theorem notifyOne_found : p.notifyOne.found = p.found := by
  unfold Process.notifyOne
  split <;> rfl

@[simp] theorem notifyOne_termination :
    p.notifyOne.termination = p.termination := by
  unfold Process.notifyOne
  split <;> rfl

/-- Only a process that has not ended makes a step. -/
theorem alive_of_next (h : p.next a = some (q, r)) : p.termination = none := by
  unfold Process.next at h
  split at h
  · assumption
  · cases h

theorem Process.act_of_next (h : p.next a = some (q, r)) :
    p.act a = some (q, r) := by
  rwa [Process.next, if_pos (alive_of_next h)] at h

/-- A step of the stream thread, or an event that concerns it. -/
def Action.OfStream (a : Action) : Prop :=
  a = .stream ∨ a = .fail ∨ a = .wake

/-- The part of the process that belongs to `main` is left alone; the process may
end in the handler of the stream thread. -/
structure KeepsMain (p q : Process) (a : Action) (r : Report) : Prop where
  conf : q.conf = p.conf
  tvSec : q.tvSec = p.tvSec
  main : q.main = p.main
  pending : q.pending = p.pending
  found : q.found = p.found
  unfinished : p.stream ≠ .finished
  termination : q.termination = p.termination ∨
    a = .stream ∧ p.stream = .caught ∧ r = .silent ∧
      q.termination = some .streamFailure
  report : r = .silent ∨ ∃ data, r = .read data

theorem streamStep_keepsMain (h : p.streamStep = some (q, r)) :
    KeepsMain p q .stream r := by
  cases hstream : p.stream
  all_goals simp only [Process.streamStep, hstream] at h
  all_goals try split at h
  all_goals cases h
  all_goals
    refine ⟨rfl, rfl, rfl, rfl, rfl, by simp [hstream], ?_, ?_⟩
    · first
      | exact Or.inl rfl
      | exact Or.inr ⟨rfl, hstream, rfl, rfl⟩
    · first
      | exact Or.inl rfl
      | exact Or.inr ⟨_, rfl⟩

/-- The stream thread leaves `main` alone. -/
theorem next_keepsMain (ha : a.OfStream) (h : p.next a = some (q, r)) :
    KeepsMain p q a r := by
  replace h := Process.act_of_next h
  rcases ha with rfl | rfl | rfl
  · exact streamStep_keepsMain h
  · obtain ⟨hfallible, heq⟩ := Option.ite_none_right_eq_some.mp h
    cases heq
    refine ⟨rfl, rfl, rfl, rfl, rfl, ?_, Or.inl rfl, Or.inl rfl⟩
    intro hfinished
    rw [hfinished] at hfallible
    cases hfallible
  · obtain ⟨hblocked, heq⟩ := Option.ite_none_right_eq_some.mp h
    cases heq
    exact ⟨rfl, rfl, rfl, rfl, rfl, by simp [hblocked], Or.inl rfl,
      Or.inl rfl⟩

end Steps

end SippScen.MediaEndpoint
