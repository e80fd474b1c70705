import SippScen.MediaEndpoint.Threads

/-!
# The mutex of an endpoint

A thread owns `cv_m` exactly while it is inside of one of its locked sections,
and `b_running` is false exactly once `main` has passed the assignment in
`endThread`.  Both hold in every state of every run, also after spurious
wake-ups.
-/

namespace SippScen.MediaEndpoint

open SippScen.Support SippScen.SharedList

/-- The statements of `main` in a section that has locked `cv_m`. -/
def MainPc.holdsMutex : MainPc → Bool
  | .copy | .unlockConf | .endSet | .endNotify | .endUnlock => true
  | _ => false

/-- The statements of `main` after the assignment in `endThread`. -/
def MainPc.cleared : MainPc → Bool
  | .endNotify | .endUnlock | .join | .lockRemove | .remove | .unlockRemove
  | .finish => true
  | _ => false

/-- The statements of the stream thread in a section that has locked `cv_m`. -/
def StreamPc.holdsMutex : StreamPc → Bool
  | .setRemoteAddr | .createStream | .startStream | .unlockServer
  | .startStreaming | .sleep | .stopStreaming | .wait | .endIteration => true
  | _ => false

/-- The statements that a stream thread reaches: those of the other branch of
`if (g_server)` are not among them, and the server branch never comes to
`cv.wait`. -/
def StreamPc.inBranch (server : Bool) : StreamPc → Bool
  | .unlockServer | .serverSleep | .serverTest => server
  | .startStreaming | .sleep | .stopStreaming | .wait | .blocked | .notified
  | .endIteration => !server
  | _ => true

/-- The owner of `cv_m` and the flag `b_running` agree with the statements that
the threads are at. -/
structure Locking (p : Process) : Prop where
  main : p.owner = some .main ↔ p.main.holdsMutex = true
  stream : p.owner = some .stream ↔ p.stream.holdsMutex = true
  running : p.running = !p.main.cleared
  branch : p.stream.inBranch p.server = true
  finished : p.stream = .finished → p.running = false

section Steps

variable {p q : Process} {a : Action} {r : Report}

@[simp] theorem notifyOne_server : p.notifyOne.server = p.server := by
  unfold Process.notifyOne
  split <;> rfl

@[simp] theorem notifyOne_main : p.notifyOne.main = p.main := by
  unfold Process.notifyOne
  split <;> rfl

@[simp] theorem notifyOne_owner : p.notifyOne.owner = p.owner := by
  unfold Process.notifyOne
  split <;> rfl

@[simp] theorem notifyOne_running : p.notifyOne.running = p.running := by
  unfold Process.notifyOne
  split <;> rfl

/-- A notification moves the stream thread from `blocked` to `notified`. -/
theorem notifyOne_stream :
    p.notifyOne.stream =
      if p.stream = .blocked then .notified else p.stream := by
  unfold Process.notifyOne
  split <;> rfl

/-- What a notification keeps true of the statement the stream thread is at. -/
theorem notifyOne_stream_of {P : StreamPc → Prop}
    (h : P .blocked → P .notified) (hp : P p.stream) :
    P p.notifyOne.stream := by
  rw [notifyOne_stream]
  split
  · next hblocked => exact h (hblocked ▸ hp)
  · exact hp

@[simp] theorem notifyOne_holdsMutex :
    p.notifyOne.stream.holdsMutex = p.stream.holdsMutex := by
  exact notifyOne_stream_of (P := fun s => s.holdsMutex = p.stream.holdsMutex)
    id rfl

theorem start_locking (o : Options) : Locking (.start o) where
  main := by simp [Process.start, MainPc.holdsMutex]
  stream := by simp [Process.start, StreamPc.holdsMutex]
  running := rfl
  branch := rfl
  finished := by
    intro h
    cases h

/-- A step of `main` leaves the stream thread alone, or notifies it. -/
theorem mainStep_stream (h : p.mainStep = some (q, r)) :
    q.server = p.server ∧
      (q.stream = p.stream ∨
        (p.main = .notify ∨ p.main = .endNotify) ∧
          q.stream = p.notifyOne.stream) := by
  unfold Process.mainStep at h
  split at h
  all_goals try split at h
  all_goals cases h
  all_goals simp_all [Process.terminate]

theorem mainStep_branch (hp : p.stream.inBranch p.server = true)
    (h : p.mainStep = some (q, r)) : q.stream.inBranch q.server = true := by
  obtain ⟨hserver, hsame | ⟨-, hnotified⟩⟩ := mainStep_stream h
  · rw [hserver, hsame]
    exact hp
  · rw [hserver, hnotified]
    exact notifyOne_stream_of (P := fun s => s.inBranch p.server = true) id hp

/-- The flag is cleared, never set. -/
theorem mainStep_running (h : p.mainStep = some (q, r)) :
    q.running = p.running ∨ p.main = .endSet ∧ q.running = false := by
  unfold Process.mainStep at h
  split at h
  all_goals try split at h
  all_goals cases h
  all_goals simp_all [Process.terminate]

theorem mainStep_finished (hp : p.stream = .finished → p.running = false)
    (h : p.mainStep = some (q, r)) :
    q.stream = .finished → q.running = false := by
  intro hfinished
  have hstream : p.stream = .finished := by
    obtain ⟨-, hsame | ⟨-, hnotified⟩⟩ := mainStep_stream h
    · rw [← hsame, hfinished]
    · rw [hnotified, notifyOne_stream] at hfinished
      split at hfinished
      · cases hfinished
      · exact hfinished
  rcases mainStep_running h with hsame | ⟨-, hcleared⟩
  · rw [hsame, hp hstream]
  · exact hcleared

theorem mainStep_locking (hp : Locking p) (h : p.mainStep = some (q, r)) :
    Locking q := by
  have hbranch := mainStep_branch hp.branch h
  have hfinished := mainStep_finished hp.finished h
  obtain ⟨hmain, hstream, hrunning, -, -⟩ := hp
  cases hpc : p.main
  all_goals simp only [Process.mainStep, hpc] at h
  all_goals try split at h
  all_goals cases h
  all_goals
    simp only [hpc, MainPc.holdsMutex, MainPc.cleared] at hmain hrunning
    refine ⟨?_, ?_, ?_, hbranch, hfinished⟩
  all_goals simp_all [Process.terminate, MainPc.holdsMutex, MainPc.cleared]

theorem streamStep_locking (hp : Locking p) (h : p.streamStep = some (q, r)) :
    Locking q := by
  obtain ⟨hmain, hstream, hrunning, hbranch, hfinished⟩ := hp
  cases hpc : p.stream
  all_goals simp only [Process.streamStep, hpc] at h
  all_goals try split at h
  all_goals cases h
  all_goals
    simp only [hpc, StreamPc.holdsMutex, StreamPc.inBranch] at hstream hbranch
    constructor
  all_goals simp_all [Process.terminate, StreamPc.holdsMutex, StreamPc.inBranch]

theorem streamFail_locking (hp : Locking p) (h : p.streamFail = some (q, r)) :
    Locking q := by
  obtain ⟨-, heq⟩ := Option.ite_none_right_eq_some.mp h
  cases heq
  refine ⟨?_, ?_, hp.running, rfl, by simp⟩
  · rw [← hp.main]
    by_cases howner : p.owner = some .stream
    · simp [howner]
    · simp [howner]
  · by_cases howner : p.owner = some .stream
    · simp [howner, StreamPc.holdsMutex]
    · simp [howner, StreamPc.holdsMutex]

/-- Every step of a process keeps its locking. -/
theorem next_locking (hp : Locking p) (h : p.next a = some (q, r)) :
    Locking q := by
  replace h := Process.act_of_next h
  cases a with
  | main => exact mainStep_locking hp h
  | stream => exact streamStep_locking hp h
  | fail => exact streamFail_locking hp h
  | signal =>
      cases h
      exact ⟨hp.main, hp.stream, hp.running, hp.branch, hp.finished⟩
  | waitError =>
      obtain ⟨-, heq⟩ := Option.ite_none_right_eq_some.mp h
      cases heq
      exact ⟨hp.main, hp.stream, hp.running, hp.branch, hp.finished⟩
  | wake =>
      obtain ⟨hblocked, heq⟩ := Option.ite_none_right_eq_some.mp h
      cases heq
      have hstream := hp.stream
      have hbranch := hp.branch
      rw [hblocked] at hstream hbranch
      exact ⟨hp.main, hstream, hp.running, hbranch, by simp⟩
  | fetch found =>
      obtain ⟨hfetch, heq⟩ := Option.ite_none_right_eq_some.mp h
      cases heq
      have hmain := hp.main
      have hrunning := hp.running
      rw [hfetch] at hmain hrunning
      exact ⟨hmain, hp.stream, hrunning, hp.branch, hp.finished⟩
  | copy data =>
      obtain ⟨⟨hcopy, -⟩, heq⟩ := Option.ite_none_right_eq_some.mp h
      cases heq
      have hmain := hp.main
      have hrunning := hp.running
      rw [hcopy] at hmain hrunning
      exact ⟨hmain, hp.stream, hrunning, hp.branch, hp.finished⟩
  | timeout =>
      obtain ⟨⟨hwaiting, -⟩, heq⟩ := Option.ite_none_right_eq_some.mp h
      cases heq
      have hmain := hp.main
      have hrunning := hp.running
      rw [hwaiting] at hmain hrunning
      exact ⟨hmain, hp.stream, hrunning, hp.branch, hp.finished⟩

theorem run_locking {o : Options} {es : List (Action × Report)}
    (h : Run ProcessStep (.start o) es p) : Locking p :=
  h.invariant (start_locking o) fun _ _ _ hp hstep => next_locking hp hstep

end Steps

end SippScen.MediaEndpoint
