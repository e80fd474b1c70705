import SippScen.MediaServer.Threads

/-!
# Requests that wait in the queue

`addTask` pushes under `queueMutex` and notifies afterwards.  A worker that waits
while requests are queued has a notification on its way, so that it takes the
first of them after a few statements, as long as SIGINT has not arrived.
-/

namespace SippScen.MediaServer

open SippScen.Support SippScen.SharedList

/-- How the threads of the media server depend on each other. -/
structure Attentive (s : ServerProcess) : Prop where
  unstarted : s.main = .startWorker ↔ s.worker = .unstarted
  unserved : s.main.serving = false → s.queue = []
  cleared : s.running = false → s.handler ≠ .idle
  ended : s.worker = .ended → s.running = false
  leaving : s.main = .join ∨ s.main = .finished → s.running = false
  asleep : s.worker = .wait → s.queue = []
  noticed : s.worker = .waiting → s.queue ≠ [] → 0 < s.notifies

section Steps

variable {s t : ServerProcess} {a : ServerAction} {o : Option Data}

theorem start_attentive : Attentive .start := by
  constructor <;> simp [ServerProcess.start]

theorem workerStep_attentive (hs : Attentive s) (h : s.workerStep = some (t, o)) :
    Attentive t := by
  obtain ⟨hunstarted, hunserved, hcleared, hended, hleaving, hasleep,
    hnoticed⟩ := hs
  cases hpc : s.worker
  all_goals simp only [ServerProcess.workerStep, hpc] at h
  all_goals try split at h
  all_goals cases h
  all_goals constructor
  all_goals simp_all

theorem mainStep_attentive (hs : Attentive s) (h : s.mainStep = some (t, o)) :
    Attentive t := by
  obtain ⟨hunstarted, hunserved, hcleared, hended, hleaving, hasleep,
    hnoticed⟩ := hs
  cases hpc : s.main
  all_goals simp only [ServerProcess.mainStep, hpc] at h
  all_goals try split at h
  all_goals cases h
  all_goals constructor
  all_goals simp_all [ServerPc.serving]

theorem cleanup_attentive (hs : Attentive s) (h : s.cleanup = some (t, o)) :
    Attentive t := by
  obtain ⟨hunstarted, hunserved, hcleared, hended, hleaving, hasleep,
    hnoticed⟩ := hs
  cases hpc : s.handler
  all_goals simp only [ServerProcess.cleanup, hpc] at h
  all_goals cases h
  case set => constructor <;> simp_all
  case notify =>
    unfold ServerProcess.notifyOne
    split
    · constructor <;> simp_all
    · constructor <;> simp_all
  case leave =>
    by_cases hpaused : s.main = .paused ∧ s.interrupted = .main
    · simp only [if_pos hpaused]
      constructor <;> simp_all [ServerPc.serving]
    · simp only [if_neg hpaused]
      constructor <;> simp_all

theorem notify_attentive (hs : Attentive s) (n : ℕ) :
    Attentive { s.notifyOne with notifies := n } := by
  obtain ⟨hunstarted, hunserved, hcleared, hended, hleaving, hasleep,
    hnoticed⟩ := hs
  unfold ServerProcess.notifyOne
  split
  · constructor <;> simp_all
  · constructor <;> simp_all

theorem next_attentive (hs : Attentive s) (h : s.next a = some (t, o)) :
    Attentive t := by
  obtain ⟨-, hact⟩ := act_of_next h
  cases a with
  | worker =>
      obtain ⟨-, hstep⟩ := Option.ite_none_left_eq_some.mp hact
      exact workerStep_attentive hs hstep
  | main =>
      obtain ⟨-, hstep⟩ := Option.ite_none_left_eq_some.mp hact
      exact mainStep_attentive hs hstep
  | cleanup => exact cleanup_attentive hs hact
  | notify =>
      simp only [ServerProcess.act] at hact
      split at hact
      · cases hact
      · cases hact
        exact notify_attentive hs _
  | push data =>
      obtain ⟨⟨hserving, hfree⟩, heq⟩ := Option.ite_none_right_eq_some.mp hact
      cases heq
      obtain ⟨hunstarted, hunserved, hcleared, hended, hleaving, hasleep,
        hnoticed⟩ := hs
      refine ⟨hunstarted, by simp [hserving], hcleared, hended, hleaving, ?_, ?_⟩
      · intro hpc
        rw [show s.worker = .wait from hpc] at hfree
        cases hfree
      · simp
  | interrupt thread =>
      obtain ⟨-, heq⟩ := Option.ite_none_right_eq_some.mp hact
      cases heq
      obtain ⟨hunstarted, hunserved, hcleared, hended, hleaving, hasleep,
        hnoticed⟩ := hs
      exact ⟨hunstarted, hunserved, by simp, hended, hleaving, hasleep, hnoticed⟩
  | child =>
      obtain ⟨hpaused, heq⟩ := Option.ite_none_right_eq_some.mp hact
      cases heq
      obtain ⟨hunstarted, hunserved, hcleared, hended, hleaving, hasleep,
        hnoticed⟩ := hs
      constructor <;> simp_all [ServerPc.serving]
  | wake =>
      obtain ⟨hwaiting, heq⟩ := Option.ite_none_right_eq_some.mp hact
      cases heq
      obtain ⟨hunstarted, hunserved, hcleared, hended, hleaving, hasleep,
        hnoticed⟩ := hs
      constructor <;> simp_all

/-- The worker has a request in its hands from the `pop` on. -/
theorem next_serving (hs : Attentive s) (h : s.next a = some (t, o))
    (ha : a = .worker → s.worker ≠ .serve) :
    (o = none ∧ (t.worker = .serve ↔ s.worker = .serve)) ∨
      ∃ data, o = some data ∧ s.worker = .take ∧ t.worker = .serve := by
  obtain ⟨-, hact⟩ := act_of_next h
  have hnotified : s.notifyOne.worker = .serve ↔ s.worker = .serve := by
    unfold ServerProcess.notifyOne
    split
    · next hwaiting => simp [hwaiting]
    · rfl
  cases a with
  | worker =>
      obtain ⟨-, hstep⟩ := Option.ite_none_left_eq_some.mp hact
      have hserve := ha rfl
      cases hpc : s.worker
      all_goals simp only [ServerProcess.workerStep, hpc] at hstep
      all_goals try split at hstep
      all_goals cases hstep
      all_goals simp_all
  | main =>
      obtain ⟨-, hstep⟩ := Option.ite_none_left_eq_some.mp hact
      obtain ⟨hsilent, -, -, -, -, -, hsame | ⟨hmain, htest⟩⟩ :=
        mainStep_frame hstep
      · exact Or.inl ⟨hsilent, by rw [hsame]⟩
      · exact Or.inl ⟨hsilent, by simp [htest, hs.unstarted.mp hmain]⟩
  | cleanup =>
      obtain ⟨hsilent, -, -, -, hsame | hsame⟩ := cleanup_frame hact
      · exact Or.inl ⟨hsilent, by rw [hsame]⟩
      · exact Or.inl ⟨hsilent, by rw [hsame, hnotified]⟩
  | notify =>
      simp only [ServerProcess.act] at hact
      split at hact
      · cases hact
      · cases hact
        exact Or.inl ⟨rfl, hnotified⟩
  | wake =>
      obtain ⟨hwaiting, heq⟩ := Option.ite_none_right_eq_some.mp hact
      cases heq
      exact Or.inl ⟨rfl, by simp [hwaiting]⟩
  | _ =>
      obtain ⟨-, heq⟩ := Option.ite_none_right_eq_some.mp hact
      cases heq
      exact Or.inl ⟨rfl, Iff.rfl⟩

end Steps

/-! ## The way to the first request -/

/-- How far the worker is from taking a request, while there is one. -/
def WorkerPc.distance : WorkerPc → ℕ
  | .take => 0
  | .recheck => 1
  | .check => 2
  | .lock | .notified => 3
  | .test | .waiting => 4
  | _ => 5

section Progress

variable {s : ServerProcess}

/-- Before SIGINT has arrived, no thread stands still or has returned. -/
theorem Attentive.active (hs : Attentive s) (hidle : s.handler = .idle) :
    s.running = true ∧ s.main ≠ .finished ∧ s.suspended .worker = false := by
  have hrunning : s.running = true := by
    by_contra hcleared
    exact hs.cleared (by simpa using hcleared) hidle
  refine ⟨hrunning, ?_, ?_⟩
  · intro hfinished
    rw [hs.leaving (Or.inr hfinished)] at hrunning
    cases hrunning
  · simp [ServerProcess.suspended, hidle, HandlerPc.active]

theorem Attentive.take (hs : Attentive s) (hidle : s.handler = .idle)
    (hpc : s.worker = .take) {data : Data} {rest : List Data}
    (hqueue : s.queue = data :: rest) :
    ∃ t, s.next .worker = some (t, some data) ∧ t.handler = .idle ∧
      t.queue = rest := by
  obtain ⟨-, hmain, hfree⟩ := hs.active hidle
  refine ⟨{ s with queue := rest, worker := .serve }, ?_, hidle, rfl⟩
  simp [ServerProcess.next, hmain, ServerProcess.act, hfree,
    ServerProcess.workerStep, hpc, hqueue]

theorem Attentive.serve (hs : Attentive s) (hidle : s.handler = .idle)
    (hpc : s.worker = .serve) :
    ∃ t, s.next .worker = some (t, none) ∧ t.handler = .idle ∧
      t.queue = s.queue := by
  obtain ⟨-, hmain, hfree⟩ := hs.active hidle
  refine ⟨{ s with worker := .test }, ?_, hidle, rfl⟩
  simp [ServerProcess.next, hmain, ServerProcess.act, hfree,
    ServerProcess.workerStep, hpc]

/-- Before SIGINT has arrived, a worker with requests in its queue comes closer
to the first of them by a statement of its own, or by a notification. -/
theorem Attentive.approach (hs : Attentive s) (hidle : s.handler = .idle)
    (hqueue : s.queue ≠ []) (htake : s.worker ≠ .take)
    (hserve : s.worker ≠ .serve) :
    ∃ a t, s.next a = some (t, none) ∧ (a = .worker ∨ a = .notify) ∧
      t.queue = s.queue ∧ t.handler = .idle ∧ t.worker ≠ .serve ∧
      t.worker.distance < s.worker.distance := by
  obtain ⟨hrunning, hmain, hfree⟩ := hs.active hidle
  have hstep : ∀ {t}, s.workerStep = some (t, none) →
      s.next .worker = some (t, none) := by
    intro t ht
    simp [ServerProcess.next, hmain, ServerProcess.act, hfree, ht]
  cases hpc : s.worker with
  | take => exact absurd hpc htake
  | serve => exact absurd hpc hserve
  | unstarted =>
      have hstart := hs.unstarted.mpr hpc
      exact absurd (hs.unserved (by rw [hstart]; rfl)) hqueue
  | ended =>
      rw [hs.ended hpc] at hrunning
      cases hrunning
  | wait => exact absurd (hs.asleep hpc) hqueue
  | waiting =>
      obtain ⟨n, hn⟩ := Nat.exists_eq_add_of_lt (hs.noticed hpc hqueue)
      refine ⟨.notify, { s.notifyOne with notifies := n }, ?_, Or.inr rfl, ?_⟩
      · have hn : s.notifies = n + 1 := by omega
        simp [ServerProcess.next, hmain, ServerProcess.act, hn]
      · simp [hidle, ServerProcess.notifyOne, hpc, WorkerPc.distance]
  | _ =>
      refine ⟨.worker, _, hstep (by simp [ServerProcess.workerStep, hpc]; rfl),
        Or.inl rfl, ?_⟩
      simp [hidle, WorkerPc.distance, hrunning, hqueue]

end Progress

end SippScen.MediaServer
