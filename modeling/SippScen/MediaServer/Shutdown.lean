import SippScen.MediaServer.Threads

/-!
# The end of the media server

`cleanup` clears `b_running` and notifies the worker once, without `queueMutex`,
and `main` tests the flag before each `pause()`.  The shutdown takes effect
unless SIGINT falls between a test and the wait that follows it, or is handled
on another thread while `main` is in `pause()`.
-/

namespace SippScen.MediaServer

open SippScen.Support SippScen.SharedList

/-- `cleanup` has run, and the worker waits without a notification on its way, or
`main` is in `pause()`. -/
def ShutdownMissed (s : ServerProcess) : Prop :=
  s.handler = .finished ∧ s.running = false ∧
    (s.worker = .waiting ∧ s.notifies = 0 ∨ s.main = .paused)

instance (s : ServerProcess) : Decidable (ShutdownMissed s) :=
  inferInstanceAs (Decidable (_ ∧ _ ∧ (_ ∧ _ ∨ _)))

/-- The flag is cleared when `main` is not about to call `pause()`, and not in it
either unless the handler runs on its thread; the notification comes when the
worker is not between its predicate and its wait. -/
def SignalsInTime (s : ServerProcess) (e : ServerAction × Option Data) : Prop :=
  e.1 = .cleanup →
    (s.handler = .set →
      s.main ≠ .pause ∧ (s.main = .paused → s.interrupted = .main)) ∧
    (s.handler = .notify → s.worker ≠ .wait)

instance (s : ServerProcess) (e : ServerAction × Option Data) :
    Decidable (SignalsInTime s e) :=
  inferInstanceAs (Decidable (_ → (_ → _ ∧ (_ → _)) ∧ (_ → _)))

/-- Once the flag is cleared, `main` is past its last `pause()` or will be when
the handler returns; once the notification was sent, the worker does not wait. -/
structure SeesShutdown (s : ServerProcess) : Prop where
  started : s.running = false ↔
    s.handler = .notify ∨ s.handler = .leave ∨ s.handler = .finished
  pause : s.running = false → s.main ≠ .pause
  paused : s.running = false → s.main = .paused →
    s.interrupted = .main ∧ s.handler ≠ .finished
  worker : s.handler = .leave ∨ s.handler = .finished →
    s.worker ≠ .wait ∧ s.worker ≠ .waiting

section Steps

variable {s t : ServerProcess} {a : ServerAction} {o : Option Data}

theorem workerStep_seesShutdown (hs : SeesShutdown s)
    (h : s.workerStep = some (t, o)) : SeesShutdown t := by
  obtain ⟨hmain, hhandler, hinterrupted, hrunning, -, -⟩ := workerStep_frame h
  refine ⟨?_, ?_, ?_, ?_⟩
  · rw [hrunning, hhandler]
    exact hs.started
  · rw [hrunning, hmain]
    exact hs.pause
  · rw [hrunning, hmain, hhandler, hinterrupted]
    exact hs.paused
  · rw [hhandler]
    intro hsent
    have hbefore := hs.worker hsent
    have hcleared := hs.started.mpr (Or.inr hsent)
    cases hpc : s.worker
    all_goals simp only [ServerProcess.workerStep, hpc] at h
    all_goals try split at h
    all_goals cases h
    all_goals simp_all

theorem mainStep_seesShutdown (hs : SeesShutdown s)
    (h : s.mainStep = some (t, o)) : SeesShutdown t := by
  obtain ⟨-, hhandler, hinterrupted, hrunning, -, -, hworker⟩ :=
    mainStep_frame h
  have hpause : t.running = false →
      t.main ≠ .pause ∧ t.main ≠ .paused := by
    intro hcleared
    have hbefore := hs.pause (hrunning ▸ hcleared)
    cases hpc : s.main
    all_goals simp only [ServerProcess.mainStep, hpc] at h
    all_goals try split at h
    all_goals cases h
    all_goals simp_all
  refine ⟨?_, fun hcleared => (hpause hcleared).1, ?_, ?_⟩
  · rw [hrunning, hhandler]
    exact hs.started
  · intro hcleared hpaused
    exact absurd hpaused (hpause hcleared).2
  · rw [hhandler]
    rcases hworker with hsame | ⟨-, htest⟩
    · rw [hsame]
      exact hs.worker
    · simp [htest]

theorem cleanup_seesShutdown (hs : SeesShutdown s)
    (hok : SignalsInTime s (.cleanup, o)) (h : s.cleanup = some (t, o)) :
    SeesShutdown t := by
  obtain ⟨hset, hnotify⟩ := hok rfl
  obtain ⟨hstarted, hpause, hpaused, hworker⟩ := hs
  cases hpc : s.handler
  all_goals simp only [ServerProcess.cleanup, hpc] at h
  all_goals cases h
  case set =>
    obtain ⟨hnotPause, honMain⟩ := hset hpc
    exact ⟨by simp, fun _ => hnotPause, fun _ hin => ⟨honMain hin, by simp⟩,
      by simp⟩
  case notify =>
    have hwait := hnotify hpc
    rw [hpc] at hstarted hpaused
    refine ⟨by simpa using hstarted, by simpa using hpause, ?_, ?_⟩
    · simpa using hpaused
    · intro _
      exact ServerProcess.notifyOne_worker_of
        (P := fun w => w ≠ .wait ∧ w ≠ .waiting) (by simp)
        fun hwaiting => ⟨hwait, hwaiting⟩
  case leave =>
    rw [hpc] at hstarted
    have hcleared : s.running = false := hstarted.mpr (by simp)
    refine ⟨by simpa using hstarted, ?_, ?_, ?_⟩
    · intro _
      simp only
      split
      · simp
      · exact hpause hcleared
    · intro _
      simp only
      split
      · simp
      · next hmain =>
          intro hin
          exact absurd ⟨hin, (hpaused hcleared hin).1⟩ hmain
    · intro _
      exact hworker (Or.inl hpc)

theorem SeesShutdown.of_frame (hs : SeesShutdown s) (hmain : t.main = s.main)
    (hhandler : t.handler = s.handler)
    (hinterrupted : t.interrupted = s.interrupted)
    (hrunning : t.running = s.running)
    (hworker : t.worker = s.worker ∨ t.worker = .notified) :
    SeesShutdown t := by
  refine ⟨?_, ?_, ?_, ?_⟩
  · rw [hrunning, hhandler]
    exact hs.started
  · rw [hrunning, hmain]
    exact hs.pause
  · rw [hrunning, hmain, hhandler, hinterrupted]
    exact hs.paused
  · rw [hhandler]
    rcases hworker with hsame | hnotified
    · rw [hsame]
      exact hs.worker
    · simp [hnotified]

theorem next_seesShutdown (hs : SeesShutdown s) (hok : SignalsInTime s (a, o))
    (h : s.next a = some (t, o)) : SeesShutdown t := by
  obtain ⟨-, hact⟩ := act_of_next h
  cases a with
  | worker =>
      obtain ⟨-, hstep⟩ := Option.ite_none_left_eq_some.mp hact
      exact workerStep_seesShutdown hs hstep
  | main =>
      obtain ⟨-, hstep⟩ := Option.ite_none_left_eq_some.mp hact
      exact mainStep_seesShutdown hs hstep
  | cleanup => exact cleanup_seesShutdown hs hok hact
  | push data =>
      obtain ⟨-, heq⟩ := Option.ite_none_right_eq_some.mp hact
      cases heq
      exact hs.of_frame rfl rfl rfl rfl (Or.inl rfl)
  | notify =>
      simp only [ServerProcess.act] at hact
      split at hact
      · cases hact
      · cases hact
        apply hs.of_frame
        · simp
        · simp
        · simp
        · simp
        · exact ServerProcess.notifyOne_worker_of
            (P := fun w => w = s.worker ∨ w = .notified) (Or.inr rfl)
            fun _ => Or.inl rfl
  | interrupt thread =>
      obtain ⟨⟨hidle, -⟩, heq⟩ := Option.ite_none_right_eq_some.mp hact
      cases heq
      have hrunning : s.running ≠ false := by
        intro hcleared
        have hstarted := hs.started.mp hcleared
        simp [hidle] at hstarted
      exact ⟨by simp [hrunning], hs.pause,
        fun hcleared => absurd hcleared hrunning, by simp⟩
  | child =>
      obtain ⟨-, heq⟩ := Option.ite_none_right_eq_some.mp hact
      cases heq
      exact ⟨hs.started, by simp, by simp, hs.worker⟩
  | wake =>
      obtain ⟨-, heq⟩ := Option.ite_none_right_eq_some.mp hact
      cases heq
      exact hs.of_frame rfl rfl rfl rfl (Or.inr rfl)

/-- The arrival of anything from outside: a request, a signal, or a spurious
wake-up. -/
def ServerAction.External : ServerAction → Prop
  | .push _ | .interrupt _ | .child | .wake => True
  | _ => False

instance : DecidablePred ServerAction.External := fun a => by
  cases a <;> first | exact isTrue trivial | exact isFalse id

theorem mainStep_started (h : s.mainStep = some (t, o)) :
    t.main ≠ .startWorker := by
  unfold ServerProcess.mainStep at h
  split at h
  all_goals try split at h
  all_goals cases h
  all_goals simp

theorem next_shutdownMissed (hs : ShutdownMissed s)
    (hstarted : s.main ≠ .startWorker) (ha : ¬ a.External)
    (h : s.next a = some (t, o)) :
    ShutdownMissed t ∧ t.main ≠ .startWorker := by
  obtain ⟨hhandler, hrunning, hstuck⟩ := hs
  obtain ⟨-, hact⟩ := act_of_next h
  cases a with
  | worker =>
      obtain ⟨-, hstep⟩ := Option.ite_none_left_eq_some.mp hact
      obtain ⟨hmain, hhandler', -, hrunning', -, -⟩ := workerStep_frame hstep
      rcases hstuck with ⟨hwaiting, -⟩ | hpaused
      · simp [ServerProcess.workerStep, hwaiting] at hstep
      · exact ⟨⟨hhandler'.trans hhandler, hrunning'.trans hrunning,
          Or.inr (hmain.trans hpaused)⟩, by simp [hmain, hpaused]⟩
  | main =>
      obtain ⟨-, hstep⟩ := Option.ite_none_left_eq_some.mp hact
      obtain ⟨-, hhandler', -, hrunning', hnotifies, -, hworker⟩ :=
        mainStep_frame hstep
      refine ⟨⟨hhandler'.trans hhandler, hrunning'.trans hrunning, ?_⟩,
        mainStep_started hstep⟩
      rcases hstuck with ⟨hwaiting, hnone⟩ | hpaused
      · rcases hworker with hsame | ⟨hstart, -⟩
        · exact Or.inl ⟨hsame.trans hwaiting, hnotifies.trans hnone⟩
        · exact absurd hstart hstarted
      · simp [ServerProcess.mainStep, hpaused] at hstep
  | cleanup =>
      simp [ServerProcess.act, ServerProcess.cleanup, hhandler] at hact
  | notify =>
      simp only [ServerProcess.act] at hact
      split at hact
      · cases hact
      · next n hn =>
        cases hact
        rcases hstuck with ⟨-, hnone⟩ | hpaused
        · rw [hn] at hnone
          cases hnone
        · exact ⟨⟨by simpa using hhandler, by simpa using hrunning,
            Or.inr (by simpa using hpaused)⟩, by simpa using hstarted⟩
  | _ => exact absurd trivial ha

end Steps

/-! ## Every run -/

section Runs

variable {s t : ServerProcess} {es : List (ServerAction × Option Data)}

theorem seesShutdown_of_run
    (h : Run (Restrict ServerStep SignalsInTime) .start es s) :
    SeesShutdown s := by
  apply h.invariant
  · constructor <;> simp [ServerProcess.start]
  · rintro s ⟨a, o⟩ t hs ⟨hstep, hok⟩
    exact next_seesShutdown hs hok hstep

theorem missed_forever (hs : ShutdownMissed s) (hstarted : s.main ≠ .startWorker)
    (h : Run (Restrict ServerStep fun _ e => ¬ e.1.External) s es t) :
    ShutdownMissed t := by
  refine (h.invariant
    (P := fun s => ShutdownMissed s ∧ s.main ≠ .startWorker)
    ⟨hs, hstarted⟩ ?_).1
  rintro s ⟨a, o⟩ t ⟨hs, hstarted⟩ ⟨hstep, ha⟩
  exact next_shutdownMissed hs hstarted ha hstep

theorem run_notifies (hmain : s.main ≠ .finished) (hwait : s.worker = .wait) :
    ∃ es, Run (Restrict ServerStep fun _ e => ¬ e.1.External) s es
      { s with notifies := 0 } := by
  obtain ⟨worker, main, handler, interrupted, running, queue, notifies⟩ := s
  simp only at hmain hwait
  subst hwait
  induction notifies with
  | zero => exact ⟨[], Run.nil⟩
  | succ n ih =>
      obtain ⟨es, hrun⟩ := ih
      refine ⟨(.notify, none) :: es, Run.cons ⟨?_, id⟩ hrun⟩
      simp [ServerStep, StepOf, ServerProcess.next, hmain, ServerProcess.act,
        ServerProcess.notifyOne]

theorem run_cleanup (hmain : s.main ≠ .finished) (hhandler : s.handler = .notify)
    (hin : ¬ (s.main = .paused ∧ s.interrupted = .main)) :
    Run (Restrict ServerStep fun _ e => ¬ e.1.External) s
      [(.cleanup, none), (.cleanup, none)]
      { s.notifyOne with handler := .finished } := by
  have hnotify : ServerStep s (.cleanup, none)
      { s.notifyOne with handler := .leave } := by
    simp [ServerStep, StepOf, ServerProcess.next, hmain, ServerProcess.act,
      ServerProcess.cleanup, hhandler]
  have hleave : ServerStep { s.notifyOne with handler := .leave }
      (.cleanup, none) { s.notifyOne with handler := .finished } := by
    simp [ServerStep, StepOf, ServerProcess.next, hmain, ServerProcess.act,
      ServerProcess.cleanup, hin]
  exact Run.cons ⟨hnotify, id⟩ (Run.single ⟨hleave, id⟩)

/-- A flag that is cleared while `main` is on its way into `pause()`, or in it
with the handler on another thread, is not seen. -/
theorem run_to_paused (hhandler : s.handler = .notify)
    (hrunning : s.running = false)
    (hmain : s.main = .pause ∨ s.main = .paused ∧ s.interrupted ≠ .main) :
    ∃ es t, Run (Restrict ServerStep fun _ e => ¬ e.1.External) s es t ∧
      ShutdownMissed t := by
  rcases hmain with hpause | ⟨hpaused, hrest⟩
  · have hrun := run_cleanup (by simp [hpause]) hhandler (by simp [hpause])
    refine ⟨_, { s.notifyOne with handler := .finished, main := .paused },
      hrun.snoc (a := (.main, none)) ⟨?_, id⟩, rfl, by simpa, Or.inr rfl⟩
    simp [ServerStep, StepOf, ServerProcess.next, hpause, ServerProcess.act,
      ServerProcess.suspended, HandlerPc.active, ServerProcess.mainStep]
  · exact ⟨_, _, run_cleanup (by simp [hpaused]) hhandler (by simp [hrest]),
      rfl, by simpa, Or.inr (by simpa)⟩

theorem run_to_waiting (hhandler : s.handler = .leave)
    (hrunning : s.running = false) (hmain : s.main ≠ .finished)
    (hwait : s.worker = .wait) :
    ∃ es t, Run (Restrict ServerStep fun _ e => ¬ e.1.External) s es t ∧
      ShutdownMissed t := by
  obtain ⟨es, hnotifies⟩ := run_notifies hmain hwait
  have hleave : ServerStep { s with notifies := 0 } (.cleanup, none)
      { s with
        notifies := 0
        handler := .finished
        main := if s.main = .paused ∧ s.interrupted = .main then .test
          else s.main } := by
    simp [ServerStep, StepOf, ServerProcess.next, hmain, ServerProcess.act,
      ServerProcess.cleanup, hhandler]
  refine ⟨_, { s with
      notifies := 0
      handler := .finished
      worker := .waiting
      main := if s.main = .paused ∧ s.interrupted = .main then .test
        else s.main },
    (hnotifies.snoc ⟨hleave, id⟩).snoc (a := (.worker, none)) ⟨?_, id⟩, rfl,
    hrunning, Or.inl ⟨rfl, rfl⟩⟩
  have hmain' : (if s.main = .paused ∧ s.interrupted = .main then .test
      else s.main) ≠ ServerPc.finished := by
    split
    · simp
    · exact hmain
  simp [ServerStep, StepOf, ServerProcess.next, hmain', ServerProcess.act,
    ServerProcess.suspended, HandlerPc.active, ServerProcess.workerStep, hwait]

/-- In every run in which the signal comes in time the shutdown is seen; after a
first step of the handler that does not, it may be missed without anything else
arriving. -/
theorem shutdown_missed_iff
    (h : Run (Restrict ServerStep SignalsInTime) .start es s) :
    ¬ ShutdownMissed s ∧
      ∀ e t, ServerStep s e t → ¬ SignalsInTime s e →
        ∃ es' t',
          Run (Restrict ServerStep fun _ e => ¬ e.1.External) t es' t' ∧
            ShutdownMissed t' := by
  have hsees := seesShutdown_of_run h
  constructor
  · rintro ⟨hhandler, hrunning, ⟨hwaiting, -⟩ | hpaused⟩
    · exact (hsees.worker (Or.inr hhandler)).2 hwaiting
    · exact (hsees.paused hrunning hpaused).2 hhandler
  · rintro ⟨a, o⟩ t hstep hlate
    obtain ⟨hmain, hact⟩ := act_of_next hstep
    simp only [SignalsInTime, Classical.not_imp, not_and_or] at hlate
    obtain ⟨rfl, ⟨hset, hlate⟩ | ⟨hnotify, hwait⟩⟩ := hlate
    · simp only [ServerProcess.act, ServerProcess.cleanup, hset,
        Option.some.injEq, Prod.mk.injEq] at hact
      obtain ⟨rfl, -⟩ := hact
      apply run_to_paused rfl rfl
      rcases hlate with hpause | ⟨hpaused, hrest⟩
      · exact Or.inl (not_not.mp hpause)
      · exact Or.inr ⟨hpaused, hrest⟩
    · have hcleared : s.running = false :=
        hsees.started.mpr (Or.inl hnotify)
      have hworker := not_not.mp hwait
      simp only [ServerProcess.act, ServerProcess.cleanup, hnotify,
        Option.some.injEq, Prod.mk.injEq] at hact
      obtain ⟨rfl, -⟩ := hact
      apply run_to_waiting rfl
      · simpa using hcleared
      · simpa using hmain
      · simp [ServerProcess.notifyOne, hworker]

/-- The statements of the server up to its first `pause()`, and of the worker up
to its first wait. -/
def startUp : List ServerAction :=
  [.main, .main, .main, .worker, .worker, .worker]

/-- The handler, on the thread of `main`. -/
def interruptMain : List ServerAction :=
  [.interrupt .main, .cleanup, .cleanup, .cleanup]

/-- SIGINT arrives when `main` is in `pause()` and the worker waits. -/
theorem shutdown_seen :
    ∃ es s, Run (Restrict ServerStep SignalsInTime) .start es s ∧
      es.map Prod.fst = startUp ++ [.main, .worker] ++ interruptMain ∧
      s.handler = .finished ∧ ¬ ShutdownMissed s := by
  obtain ⟨s, es, hrun, hactions, htest⟩ := exists_restricted_run_of_exec
    ServerProcess.next SignalsInTime .start
    (startUp ++ [.main, .worker] ++ interruptMain)
    (fun out => decide (out.1.handler = .finished)) (by decide)
  exact ⟨es, s, hrun, hactions, of_decide_eq_true htest,
    (shutdown_missed_iff hrun).1⟩

/-- SIGINT arrives when `main` has tested the flag and the worker its predicate:
both wait from then on. -/
theorem shutdown_missed :
    ∃ es s, Run ServerStep .start es s ∧
      es.map Prod.fst = startUp ++ interruptMain ++ [.main, .worker] ∧
      s.worker = .waiting ∧ s.main = .paused ∧
      ∀ es' t, Run (Restrict ServerStep fun _ e => ¬ e.1.External) s es' t →
        ShutdownMissed t := by
  obtain ⟨s, es, hrun, hactions, htest⟩ := exists_run_of_exec
    ServerProcess.next .start (startUp ++ interruptMain ++ [.main, .worker])
    (fun out => decide (ShutdownMissed out.1 ∧ out.1.worker = .waiting ∧
      out.1.main = .paused)) (by decide)
  obtain ⟨hmissed, hwaiting, hpaused⟩ : ShutdownMissed s ∧
      s.worker = .waiting ∧ s.main = .paused := of_decide_eq_true htest
  exact ⟨es, s, hrun, hactions, hwaiting, hpaused,
    fun _ _ h => missed_forever hmissed (by simp [hpaused]) h⟩

end Runs

end SippScen.MediaServer
