import SippScen.MediaEndpoint.Agreement
import SippScen.MediaEndpoint.Locking

/-!
# The end of an endpoint

When a wait of `main` times out, `endThread` clears `b_running` and notifies the
condition variable once, and `main` joins the stream thread.  The stream thread
tests `b_running` without the mutex and then waits without a predicate.  A
client endpoint ends unless its stream thread has just made that test.
-/

namespace SippScen.MediaEndpoint

open SippScen.Support SippScen.SharedList

/-- `main` waits in `t1.join()` for a stream thread that waits in `cv.wait`, and
nobody is left to notify it. -/
def Hangs (p : Process) : Prop :=
  p.termination = none ∧ p.main = .join ∧ p.stream = .blocked

instance (p : Process) : Decidable (Hangs p) :=
  inferInstanceAs (Decidable (_ ∧ _ ∧ _))

/-- When `endThread` clears the flag, the stream thread of a client is not
between its test of the flag and `cv_m`. -/
def ClearsInTime (p : Process) (e : Action × Report) : Prop :=
  e.1 = .main → p.main = .endSet → p.server = false → p.stream ≠ .lockConf

instance (p : Process) (e : Action × Report) : Decidable (ClearsInTime p e) :=
  inferInstanceAs (Decidable (_ → _ → _ → _))

/-- From these statements a stream thread that finds the flag cleared comes to
its end without another wait. -/
def StreamPc.leaves : StreamPc → Bool
  | .construct | .test | .notified | .endIteration | .finished | .caught => true
  | _ => false

/-- After the flag was cleared, the stream thread of a client is on its way out;
until `main` has notified it, it may still wait. -/
def LeavesLoop (p : Process) : Prop :=
  p.server = false → p.main.cleared = true →
    p.stream.leaves = true ∨ p.stream = .blocked ∧ p.main = .endNotify

section Steps

variable {p q : Process} {a : Action} {r : Report}

/-- When the flag is cleared, `main` owns the mutex, and the condition rules out
the only statement from which the thread could still go to sleep. -/
theorem leavesLoop_of_endSet (hlock : Locking p) (hpc : p.main = .endSet)
    (hok : p.server = false → p.stream ≠ .lockConf) (hserver : p.server = false) :
    p.stream.leaves = true ∨ p.stream = .blocked := by
  have hfree : p.stream.holdsMutex ≠ true := by
    intro hholds
    have howner := hlock.main.mpr (by rw [hpc]; rfl)
    rw [hlock.stream.mpr hholds] at howner
    cases howner
  have hbranch := hlock.branch
  have hlockConf := hok hserver
  rw [hserver] at hbranch
  cases hstream : p.stream
  all_goals simp_all [StreamPc.holdsMutex, StreamPc.inBranch, StreamPc.leaves]

theorem mainStep_leavesLoop (hlock : Locking p)
    (hok : p.main = .endSet → p.server = false → p.stream ≠ .lockConf)
    (hp : LeavesLoop p) (h : p.mainStep = some (q, r)) : LeavesLoop q := by
  obtain ⟨hserver, -⟩ := mainStep_stream h
  intro hclient hcleared
  rw [hserver] at hclient
  have hkept := hp hclient
  cases hpc : p.main
  all_goals simp only [Process.mainStep, hpc] at h
  all_goals try split at h
  all_goals cases h
  case endSet =>
    have hleaves := leavesLoop_of_endSet hlock hpc (hok hpc) hclient
    exact hleaves.imp_right fun hblocked => ⟨hblocked, rfl⟩
  case endNotify =>
    left
    rw [hpc] at hkept
    rcases hkept rfl with hleaves | ⟨hblocked, -⟩
    · exact notifyOne_stream_of (P := fun s => s.leaves = true) (fun _ => rfl)
        hleaves
    · simp [notifyOne_stream, hblocked, StreamPc.leaves]
  all_goals simp_all [MainPc.cleared, Process.terminate]

theorem streamStep_leavesLoop (hlock : Locking p) (hp : LeavesLoop p)
    (h : p.streamStep = some (q, r)) : LeavesLoop q := by
  intro hclient hcleared
  have hrunning := hlock.running
  cases hpc : p.stream
  all_goals simp only [Process.streamStep, hpc] at h
  all_goals try split at h
  all_goals cases h
  all_goals simp_all [LeavesLoop, StreamPc.leaves, Process.terminate]

theorem next_leavesLoop (hlock : Locking p) (hok : ClearsInTime p (a, r))
    (hp : LeavesLoop p) (h : p.next a = some (q, r)) : LeavesLoop q := by
  replace h := Process.act_of_next h
  cases a with
  | main => exact mainStep_leavesLoop hlock (hok rfl) hp h
  | stream => exact streamStep_leavesLoop hlock hp h
  | signal =>
      cases h
      exact hp
  | waitError =>
      obtain ⟨-, heq⟩ := Option.ite_none_right_eq_some.mp h
      cases heq
      exact hp
  | fail =>
      obtain ⟨-, heq⟩ := Option.ite_none_right_eq_some.mp h
      cases heq
      exact fun _ _ => Or.inl rfl
  | wake =>
      obtain ⟨-, heq⟩ := Option.ite_none_right_eq_some.mp h
      cases heq
      exact fun _ _ => Or.inl rfl
  | _ =>
      obtain ⟨-, heq⟩ := Option.ite_none_right_eq_some.mp h
      cases heq
      intro _ hcleared
      cases hcleared

/-- A process that hangs makes no step of its own. -/
theorem next_hangs (hp : Hangs p) (ha : a ≠ .wake)
    (h : p.next a = some (q, r)) : Hangs q := by
  obtain ⟨halive, hmain, hstream⟩ := hp
  replace h := Process.act_of_next h
  cases a with
  | signal =>
      cases h
      exact ⟨halive, hmain, hstream⟩
  | wake => exact absurd rfl ha
  | _ =>
      simp [Process.act, Process.mainStep, Process.streamStep,
        Process.streamFail, StreamPc.fallible, hmain, hstream] at h

end Steps

/-! ## Every run -/

section Runs

variable {o : Options} {es : List (Action × Report)} {p : Process}

theorem leavesLoop_of_run (h : Run (Restrict ProcessStep ClearsInTime)
    (.start o) es p) : Locking p ∧ LeavesLoop p := by
  apply h.invariant (P := fun p => Locking p ∧ LeavesLoop p)
  · refine ⟨start_locking o, ?_⟩
    intro _ hcleared
    cases hcleared
  · rintro p ⟨a, r⟩ q ⟨hlock, hp⟩ ⟨hstep, hok⟩
    exact ⟨next_locking hlock hstep, next_leavesLoop hlock hok hp hstep⟩

theorem hangs_forever {q : Process}
    (h : Run (Restrict ProcessStep fun _ e => e.1 ≠ .wake) p es q)
    (hp : Hangs p) : Hangs q :=
  h.invariant hp fun _ _ _ hp hstep => next_hangs hp hstep.2 hstep.1

/-- The steps after a flag that was cleared too late: `main` goes on to the join,
and the stream thread streams once more and waits. -/
def stepsToHang : List Action :=
  [.main, .main] ++ List.replicate 8 .stream

/-- A client that misses the flag misses its only notification. -/
theorem run_to_hang (halive : p.termination = none)
    (hmain : p.main = .endNotify) (hserver : p.server = false)
    (hstream : p.stream = .lockConf) :
    ∃ es q, Run ProcessStep p es q ∧ es.map Prod.fst = stepsToHang ∧
      Hangs q := by
  obtain ⟨server, conf, tvSec, main, stream, owner, running, pending, found,
    termination⟩ := p
  subst hmain hserver hstream halive
  obtain ⟨q, es, hrun, hactions, htest⟩ := exists_run_of_exec Process.next
    ⟨false, conf, tvSec, .endNotify, .lockConf, owner, running, pending, found,
      none⟩
    stepsToHang (fun out => decide (Hangs out.1)) rfl
  exact ⟨es, q, hrun, hactions, of_decide_eq_true htest⟩

/-- In every run in which the flag is cleared in time the endpoint does not hang;
after a step that clears it too late, it may. -/
theorem shutdown_hangs_iff (o : Options) :
    (∀ es p, Run (Restrict ProcessStep ClearsInTime) (.start o) es p →
      ¬ Hangs p) ∧
      ∀ es p e q, Run ProcessStep (.start o) es p → ProcessStep p e q →
        ¬ ClearsInTime p e →
        ∃ es' q', Run ProcessStep q es' q' ∧
          (∀ e' ∈ es', e'.1 ≠ .wake) ∧ Hangs q' := by
  constructor
  · rintro es p hrun ⟨-, hjoin, hblocked⟩
    obtain ⟨hlock, hleaves⟩ := leavesLoop_of_run hrun
    have hclient : p.server = false := by
      have hbranch := hlock.branch
      rw [hblocked] at hbranch
      simpa [StreamPc.inBranch] using hbranch
    rcases hleaves hclient (by rw [hjoin]; rfl) with hstream | ⟨-, hmain⟩
    · rw [hblocked] at hstream
      cases hstream
    · rw [hjoin] at hmain
      cases hmain
  · rintro es p ⟨a, r⟩ q - hstep hlate
    simp only [ClearsInTime, Classical.not_imp, ne_eq, not_not] at hlate
    obtain ⟨rfl, hmain, hserver, hstream⟩ := hlate
    have halive := alive_of_next hstep
    rw [ProcessStep, StepOf, Process.next, if_pos halive] at hstep
    simp only [Process.act, Process.mainStep, hmain, Option.some.injEq,
      Prod.mk.injEq] at hstep
    obtain ⟨rfl, -⟩ := hstep
    obtain ⟨es', q', hrun, hactions, hhangs⟩ :=
      run_to_hang (p := { p with running := false, main := .endNotify })
        halive rfl hserver hstream
    refine ⟨es', q', hrun, ?_, hhangs⟩
    intro e' he'
    have hmem : e'.1 ∈ stepsToHang :=
      hactions ▸ List.mem_map_of_mem he'
    simp only [stepsToHang, List.mem_append, List.mem_cons,
      List.mem_replicate] at hmem
    intro hwake
    simp [hwake] at hmem

/-- The record of a client request for 21000 with the given duration. -/
def clientRequest (duration : ℤ) : Data :=
  { serverRequest 21000 duration with client := 1 }

/-- The settings of a client launched for it. -/
def clientOptions (duration : ℤ) : Options :=
  launchResult defaultConfig (clientRequest duration)

/-- The stream thread of a client for 400 milliseconds has tested the flag when
the wait of zero seconds times out. -/
theorem shutdown_hangs_400 :
    ∃ es p, Run ProcessStep (.start (clientOptions 400)) es p ∧
      es.map Prod.fst =
        [.stream, .stream, .timeout, .main, .main] ++ stepsToHang ∧
      Hangs p ∧
      ∀ es' q, Run (Restrict ProcessStep fun _ e => e.1 ≠ .wake) p es' q →
        Hangs q := by
  obtain ⟨p, es, hrun, hactions, htest⟩ := exists_run_of_exec Process.next
    (.start (clientOptions 400))
    ([.stream, .stream, .timeout, .main, .main] ++ stepsToHang)
    (fun out => decide (Hangs out.1)) (by decide)
  have hhangs := of_decide_eq_true htest
  exact ⟨es, p, hrun, hactions, hhangs, fun _ _ h => hangs_forever h hhangs⟩

end Runs

end SippScen.MediaEndpoint
