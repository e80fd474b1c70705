import SippScen.MediaEndpoint.Agreement
import SippScen.MediaEndpoint.Threads

/-!
# The registry mutex

The worker, the status requests and the main threads of all endpoints lock the
process-shared mutex of the registry.  `_exit` in a stream thread ends its
process without unlocking it.  The mutex is left locked for good exactly when
this happens while the main thread of the same process is in the section in
which it fetches its entry.
-/

namespace SippScen.MediaHost

open SippScen.Support SippScen.SharedList SippScen.MediaServer
open SippScen.MediaEndpoint (Process Options MainPc StreamPc Report
  alive_of_next next_keepsMain)

/-- Who may hold the mutex: the worker, one of the status requests, or an
endpoint. -/
inductive Holder
  | worker
  | status (request : ℕ)
  | endpoint (index : ℕ)
deriving DecidableEq, Repr

/-- The holder of the mutex, and the endpoints started so far. -/
structure LockState where
  owner : Option Holder
  procs : ℕ → Option Process

/-- A step of an endpoint or of its environment, its start, or the begin or the
end of a section of the media server. -/
inductive LockAction
  | start (index : ℕ) (options : Options)
  | endpoint (index : ℕ) (action : MediaEndpoint.Action)
  | lock (holder : Holder)
  | unlock (holder : Holder)
deriving DecidableEq

namespace LockState

/-- The state in which endpoint `i` is the process `p`. -/
def setProc (s : LockState) (i : ℕ) (p : Process) : LockState :=
  { s with procs := Function.update s.procs i (some p) }

/-- One step; a thread that locks the mutex has to wait until it is free. -/
def next (s : LockState) : LockAction → Option (LockState × Report)
  | .start i options =>
      if (s.procs i).isNone then some (s.setProc i (.start options), .silent)
      else none
  | .endpoint i action => do
      let p ← s.procs i
      let (p, report) ← p.next action
      match report with
      | .lockList =>
          if s.owner = none then
            some ({ s.setProc i p with owner := some (.endpoint i) }, report)
          else none
      | .unlockList => some ({ s.setProc i p with owner := none }, report)
      | report => some (s.setProc i p, report)
  | .lock (.endpoint _) | .unlock (.endpoint _) => none
  | .lock holder =>
      if s.owner = none then
        some ({ s with owner := some holder }, .lockList)
      else none
  | .unlock holder =>
      if s.owner = some holder then
        some ({ s with owner := none }, .unlockList)
      else none

/-- The mutex after `SharedList::initialize`. -/
def initial : LockState := ⟨none, fun _ => none⟩

end LockState

/-- The step relation of the lock holders. -/
def LockStep : LockState → LockAction × Report → LockState → Prop :=
  StepOf LockState.next

/-- The mutex is held by a process that has exited. -/
def Orphaned (s : LockState) : Prop :=
  ∃ i p, s.owner = some (.endpoint i) ∧ s.procs i = some p ∧
    p.termination ≠ none

/-! ## The critical sections of an endpoint -/

/-- The statements of `main` between `lock` and `unlock` when it fetches its
entry. -/
def fetching : MainPc → Bool
  | .fetch | .unlockList => true
  | _ => false

/-- The statements of `main` after the join. -/
def joined : MainPc → Bool
  | .lockRemove | .remove | .unlockRemove | .finish => true
  | _ => false

/-- The statements of `main` with the mutex locked. -/
def holding : MainPc → Bool
  | .fetch | .unlockList | .remove | .unlockRemove => true
  | _ => false

/-- What a step of an endpoint does to the mutex. -/
inductive LockEffect (p q : Process) (a : MediaEndpoint.Action) :
    Report → Prop
  | locks (hbefore : holding p.main = false) (hafter : holding q.main = true)
      (halive : q.termination = none) : LockEffect p q a .lockList
  | unlocks (hbefore : holding p.main = true)
      (hafter : holding q.main = false) (halive : q.termination = none) :
      LockEffect p q a .unlockList
  | keeps (r : Report) (hlock : r ≠ .lockList) (hunlock : r ≠ .unlockList)
      (hmain : holding q.main = holding p.main)
      (halive : q.termination = none) : LockEffect p q a r
  | ends (hmain : q.main = p.main) (hdead : q.termination ≠ none)
      (hcause : holding p.main = false ∨ a = .stream ∧ p.stream = .caught) :
      LockEffect p q a .silent

variable {p q : Process} {a : MediaEndpoint.Action} {r : Report}

theorem mainStep_lock (halive : p.termination = none)
    (h : p.mainStep = some (q, r)) : LockEffect p q .main r := by
  cases hmain : p.main
  all_goals simp only [Process.mainStep, hmain] at h
  all_goals try split at h
  all_goals cases h
  all_goals
    first
    | exact .locks (by rw [hmain]; rfl) rfl halive
    | exact .unlocks (by rw [hmain]; rfl) rfl halive
    | exact .keeps _ (by simp) (by simp) (by rw [hmain]; rfl) (by simpa using halive)
    | exact .ends rfl (Option.some_ne_none _) (Or.inl (by rw [hmain]; rfl))

theorem stream_lock (ha : a.OfStream) (h : p.next a = some (q, r)) :
    LockEffect p q a r := by
  have hkeeps := next_keepsMain ha h
  rcases hkeeps.termination with hsame | ⟨rfl, hcaught, rfl, hdead⟩
  · have halive : q.termination = none := hsame.trans (alive_of_next h)
    have hmain : holding q.main = holding p.main := by rw [hkeeps.main]
    rcases hkeeps.report with rfl | ⟨data, rfl⟩
    · exact .keeps _ (by simp) (by simp) hmain halive
    · exact .keeps _ (by simp) (by simp) hmain halive
  · refine .ends hkeeps.main ?_ (Or.inr ⟨rfl, hcaught⟩)
    rw [hdead]
    exact Option.some_ne_none _

/-- Every step of an endpoint has one of the effects. -/
theorem next_lock (h : p.next a = some (q, r)) : LockEffect p q a r := by
  have halive := alive_of_next h
  have hact := Process.act_of_next h
  cases a with
  | main => exact mainStep_lock halive hact
  | stream => exact stream_lock (Or.inl rfl) h
  | fail => exact stream_lock (Or.inr (Or.inl rfl)) h
  | wake => exact stream_lock (Or.inr (Or.inr rfl)) h
  | signal =>
      cases hact
      exact .keeps _ (by simp) (by simp) rfl halive
  | waitError =>
      obtain ⟨hmain, heq⟩ := Option.ite_none_right_eq_some.mp hact
      cases heq
      exact .ends rfl (Option.some_ne_none _) (Or.inl (by rw [hmain]; rfl))
  | fetch found =>
      obtain ⟨hmain, heq⟩ := Option.ite_none_right_eq_some.mp hact
      cases heq
      exact .keeps _ (by simp) (by simp) (by rw [hmain]; rfl) halive
  | copy data =>
      obtain ⟨⟨hmain, -⟩, heq⟩ := Option.ite_none_right_eq_some.mp hact
      cases heq
      exact .keeps _ (by simp) (by simp) (by rw [hmain]; rfl) halive
  | timeout =>
      obtain ⟨⟨hmain, -⟩, heq⟩ := Option.ite_none_right_eq_some.mp hact
      cases heq
      exact .keeps _ (by simp) (by simp) (by rw [hmain]; rfl) halive

/-- `main` passes the join only when the stream thread has finished. -/
def JoinedStream (p : Process) : Prop :=
  joined p.main = true → p.stream = .finished

theorem mainStep_joined (hp : JoinedStream p)
    (h : p.mainStep = some (q, r)) : JoinedStream q := by
  cases hmain : p.main
  all_goals simp only [Process.mainStep, hmain] at h
  all_goals try split at h
  all_goals cases h
  all_goals
    intro hjoined
    first
    | exact hp hjoined
    | exact Bool.noConfusion hjoined
    | assumption
    | exact hp (by rw [hmain]; rfl)

theorem joinedStream_next (hp : JoinedStream p) (h : p.next a = some (q, r)) :
    JoinedStream q := by
  have hstream : a.OfStream → JoinedStream q := by
    intro ha hjoined
    have hkeeps := next_keepsMain ha h
    rw [hkeeps.main] at hjoined
    exact absurd (hp hjoined) hkeeps.unfinished
  have hact := Process.act_of_next h
  cases a with
  | main => exact mainStep_joined hp hact
  | stream => exact hstream (Or.inl rfl)
  | fail => exact hstream (Or.inr (Or.inl rfl))
  | wake => exact hstream (Or.inr (Or.inr rfl))
  | signal =>
      cases hact
      exact hp
  | waitError =>
      obtain ⟨-, heq⟩ := Option.ite_none_right_eq_some.mp hact
      cases heq
      exact hp
  | _ =>
      obtain ⟨-, heq⟩ := Option.ite_none_right_eq_some.mp hact
      cases heq
      intro hjoined
      cases hjoined

theorem fetching_of_caught (hp : JoinedStream p) (hcaught : p.stream = .caught)
    (hholding : holding p.main = true) : fetching p.main = true := by
  by_cases hjoined : joined p.main = true
  · rw [hp hjoined] at hcaught
    cases hcaught
  · revert hholding hjoined
    cases p.main <;> simp [holding, joined, fetching]

/-! ## The invariant -/

/-- The mutex belongs to an endpoint just when its `main` is in a section with
the mutex locked, and then the endpoint is alive. -/
structure Guarded (s : LockState) : Prop where
  holds : ∀ i p, s.procs i = some p → p.termination = none →
    (s.owner = some (.endpoint i) ↔ holding p.main = true)
  alive : ∀ i, s.owner = some (.endpoint i) →
    ∃ p, s.procs i = some p ∧ p.termination = none
  joined : ∀ i p, s.procs i = some p → JoinedStream p

/-- `_exit` is not called by a stream thread while the main thread of its
process is between `lock` and `unlock` of the section in which it fetches its
entry. -/
def Uninterrupted (s : LockState) : LockAction × Report → Prop
  | (.endpoint i .stream, _) =>
      ∀ p ∈ s.procs i, p.stream = .caught → fetching p.main = false
  | _ => True

instance (s : LockState) : DecidablePred (Uninterrupted s)
  | (.endpoint i .stream, _) =>
      inferInstanceAs (Decidable (∀ p ∈ s.procs i, _ → _))
  | (.endpoint _ .signal, _) | (.endpoint _ .main, _)
  | (.endpoint _ (.fetch _), _) | (.endpoint _ (.copy _), _)
  | (.endpoint _ .timeout, _) | (.endpoint _ .waitError, _)
  | (.endpoint _ .fail, _) | (.endpoint _ .wake, _) | (.start _ _, _)
  | (.lock _, _) | (.unlock _, _) => inferInstanceAs (Decidable True)

theorem initial_guarded : Guarded LockState.initial := by
  constructor
  · intro i p hp
    cases hp
  · intro i howner
    cases howner
  · intro i p hp
    cases hp

theorem Guarded.not_orphaned {s : LockState} (hs : Guarded s) :
    ¬ Orphaned s := by
  rintro ⟨i, p, howner, hp, hdead⟩
  obtain ⟨p', hp', halive⟩ := hs.alive i howner
  rw [hp] at hp'
  obtain rfl := Option.some.inj hp'
  exact hdead halive

section Steps

variable {s t : LockState} {i : ℕ}

theorem next_endpoint (h : s.next (.endpoint i a) = some (t, r)) :
    ∃ p q, s.procs i = some p ∧ p.next a = some (q, r) ∧
      t.procs = Function.update s.procs i (some q) ∧
      (r = .lockList → s.owner = none ∧ t.owner = some (.endpoint i)) ∧
      (r = .unlockList → t.owner = none) ∧
      (r ≠ .lockList → r ≠ .unlockList → t.owner = s.owner) := by
  obtain ⟨p, hp, hrest⟩ := Option.bind_eq_some_iff.mp h
  obtain ⟨⟨q, report⟩, hnext, hlast⟩ := Option.bind_eq_some_iff.mp hrest
  cases report with
  | lockList =>
      obtain ⟨hfree, heq⟩ := Option.ite_none_right_eq_some.mp hlast
      cases heq
      exact ⟨p, q, hp, hnext, rfl, fun _ => ⟨hfree, rfl⟩, by simp, by simp⟩
  | unlockList =>
      cases hlast
      exact ⟨p, q, hp, hnext, rfl, by simp, fun _ => rfl, by simp⟩
  | silent =>
      cases hlast
      exact ⟨p, q, hp, hnext, rfl, by simp, by simp, fun _ _ => rfl⟩
  | stored data =>
      cases hlast
      exact ⟨p, q, hp, hnext, rfl, by simp, by simp, fun _ _ => rfl⟩
  | read data =>
      cases hlast
      exact ⟨p, q, hp, hnext, rfl, by simp, by simp, fun _ _ => rfl⟩

/-- The invariant is checked at the endpoint that makes a step, and for the
others with respect to the new owner. -/
theorem Guarded.of_setProc (hs : Guarded s) (hq : JoinedStream q)
    (hprocs : t.procs = Function.update s.procs i (some q))
    (hown : q.termination = none →
      (t.owner = some (.endpoint i) ↔ holding q.main = true))
    (halive : t.owner = some (.endpoint i) → q.termination = none)
    (hothers : ∀ j ≠ i, t.owner = some (.endpoint j) ↔
      s.owner = some (.endpoint j)) : Guarded t := by
  constructor
  · intro j p hp hlive
    rcases eq_some_of_update hprocs hp with ⟨rfl, ⟨⟩⟩ | ⟨hj, hp⟩
    · exact hown hlive
    · rw [hothers j hj]
      exact hs.holds j p hp hlive
  · intro j howner
    rw [hprocs]
    by_cases hj : j = i
    · subst hj
      rw [Function.update_self]
      exact ⟨q, rfl, halive howner⟩
    · rw [Function.update_of_ne hj]
      exact hs.alive j ((hothers j hj).mp howner)
  · intro j p hp
    rcases eq_some_of_update hprocs hp with ⟨rfl, ⟨⟩⟩ | ⟨-, hp⟩
    · exact hq
    · exact hs.joined j p hp

theorem Guarded.endpoint (hs : Guarded s)
    (hok : Uninterrupted s (.endpoint i a, r))
    (h : s.next (.endpoint i a) = some (t, r)) : Guarded t := by
  obtain ⟨p, q, hp, hnext, hprocs, hlock, hunlock, hkeep⟩ := next_endpoint h
  have hjoined := hs.joined i p hp
  have hlive := alive_of_next hnext
  have hown := hs.holds i p hp hlive
  apply hs.of_setProc (joinedStream_next hjoined hnext) hprocs
  all_goals have heffect := next_lock hnext
  · intro halive
    cases heffect with
    | locks hbefore hafter => simp [(hlock rfl).2, hafter]
    | unlocks hbefore hafter => simp [hunlock rfl, hafter]
    | keeps _ hnolock hnounlock hmain =>
        rw [hkeep hnolock hnounlock, hmain]
        exact hown
    | ends hmain hdead => exact absurd halive hdead
  · intro howner
    cases heffect with
    | locks hbefore hafter halive => exact halive
    | unlocks hbefore hafter halive => exact halive
    | keeps _ hnolock hnounlock hmain halive => exact halive
    | ends hmain hdead hcause =>
        rw [hkeep (by simp) (by simp), hown] at howner
        rcases hcause with hfree | ⟨rfl, hcaught⟩
        · rw [howner] at hfree
          cases hfree
        · have hfetching := fetching_of_caught hjoined hcaught howner
          rw [hok p hp hcaught] at hfetching
          cases hfetching
  · intro j hj
    cases heffect with
    | locks hbefore hafter =>
        obtain ⟨hfree, hnew⟩ := hlock rfl
        simp [hfree, hnew, Ne.symm hj]
    | unlocks hbefore hafter =>
        rw [hunlock rfl, hown.mpr hbefore]
        simp [Ne.symm hj]
    | keeps _ hnolock hnounlock => rw [hkeep hnolock hnounlock]
    | ends hmain hdead => rw [hkeep (by simp) (by simp)]

theorem Guarded.of_owner (hs : Guarded s) (hprocs : t.procs = s.procs)
    (howner : ∀ i, t.owner = some (.endpoint i) ↔
      s.owner = some (.endpoint i)) : Guarded t := by
  constructor
  · intro i p hp hlive
    rw [hprocs] at hp
    rw [howner i]
    exact hs.holds i p hp hlive
  · intro i hi
    rw [hprocs]
    exact hs.alive i ((howner i).mp hi)
  · intro i p hp
    rw [hprocs] at hp
    exact hs.joined i p hp

theorem Guarded.start (hs : Guarded s) {options : Options}
    (h : s.next (.start i options) = some (t, r)) : Guarded t := by
  obtain ⟨hnone, heq⟩ := Option.ite_none_right_eq_some.mp h
  cases heq
  have hfree : s.owner ≠ some (.endpoint i) := by
    intro howner
    obtain ⟨p, hp, -⟩ := hs.alive i howner
    rw [hp] at hnone
    cases hnone
  refine hs.of_setProc (q := .start options) nofun rfl ?_ (fun _ => rfl)
    (fun _ _ => Iff.rfl)
  intro _
  exact iff_of_false hfree nofun

theorem Guarded.lock (hs : Guarded s) {holder : Holder}
    (h : s.next (.lock holder) = some (t, r)) : Guarded t := by
  unfold LockState.next at h
  cases holder with
  | endpoint j => cases h
  | _ =>
      obtain ⟨hfree, heq⟩ := Option.ite_none_right_eq_some.mp h
      cases heq
      refine hs.of_owner rfl ?_
      intro i
      rw [hfree]
      exact iff_of_false nofun nofun

theorem Guarded.unlock (hs : Guarded s) {holder : Holder}
    (h : s.next (.unlock holder) = some (t, r)) : Guarded t := by
  unfold LockState.next at h
  cases holder with
  | endpoint j => cases h
  | _ =>
      obtain ⟨howner, heq⟩ := Option.ite_none_right_eq_some.mp h
      cases heq
      refine hs.of_owner rfl ?_
      intro i
      rw [howner]
      exact iff_of_false nofun nofun

theorem Guarded.step (hs : Guarded s) {event : LockAction × Report}
    (hok : Uninterrupted s event) (h : LockStep s event t) : Guarded t := by
  obtain ⟨action, r⟩ := event
  change s.next action = some (t, r) at h
  cases action with
  | start i options => exact hs.start h
  | endpoint i action => exact hs.endpoint hok h
  | lock holder => exact hs.lock h
  | unlock holder => exact hs.unlock h

/-- An `_exit` within the section leaves the mutex to a process that has
exited. -/
theorem Guarded.orphaned_of_exit (hs : Guarded s)
    {event : LockAction × Report} (hok : ¬ Uninterrupted s event)
    (h : LockStep s event t) : Orphaned t := by
  obtain ⟨action, r⟩ := event
  change s.next action = some (t, r) at h
  unfold Uninterrupted at hok
  split at hok
  · next i r' heq =>
    obtain ⟨rfl, rfl⟩ := Prod.mk.inj heq
    simp only [not_forall, Bool.not_eq_false] at hok
    obtain ⟨p, hp, hcaught, hfetching⟩ := hok
    obtain ⟨p', q, hp', hnext, hprocs, hlock, hunlock, hkeep⟩ :=
      next_endpoint h
    rw [Option.mem_def, hp'] at hp
    obtain rfl := Option.some.inj hp
    have hlive := alive_of_next hnext
    have hholding : holding p'.main = true := by
      revert hfetching
      cases p'.main <;> simp [fetching, holding]
    have hexit : p'.next .stream =
        some (p'.terminate .streamFailure, .silent) := by
      simp only [Process.next, hlive, if_true, Process.act,
        Process.streamStep, hcaught]
    rw [hexit] at hnext
    obtain ⟨rfl, rfl⟩ := Prod.mk.inj (Option.some.inj hnext)
    refine ⟨i, p'.terminate .streamFailure, ?_, ?_, Option.some_ne_none _⟩
    · rw [hkeep (by simp) (by simp)]
      exact (hs.holds i p' hp' hlive).mpr hholding
    · rw [hprocs, Function.update_self]
  · exact absurd trivial hok

end Steps

/-! ## Every interleaving -/

section Runs

variable {es : List (LockAction × Report)} {t : LockState}

theorem guarded_of_run
    (hrun : Run (Restrict LockStep Uninterrupted) LockState.initial es t) :
    Guarded t := by
  apply hrun.invariant initial_guarded
  rintro s event u hs ⟨hstep, hok⟩
  exact hs.step hok hstep

/-- When no stream thread calls `_exit` while the main thread of its process has
the mutex locked for fetching its entry, the mutex is never held by a process
that has exited; and any step that does so leaves it to such a process. -/
theorem mutex_not_orphaned
    (hrun : Run (Restrict LockStep Uninterrupted) LockState.initial es t) :
    ¬ Orphaned t ∧
      ∀ event u, LockStep t event u →
        (Orphaned u ↔ ¬ Uninterrupted t event) := by
  have ht := guarded_of_run hrun
  refine ⟨ht.not_orphaned, ?_⟩
  intro event u hstep
  constructor
  · intro horphaned hok
    exact (ht.step hok hstep).not_orphaned horphaned
  · intro hok
    exact ht.orphaned_of_exit hok hstep

/-- The settings of an endpoint launched for port 21000. -/
def serverOptions : Options :=
  MediaEndpoint.launchResult MediaEndpoint.defaultConfig
    (MediaEndpoint.serverRequest 21000 10000)

/-- A stream thread that fails while its main thread fetches the entry, and
calls `_exit` after the mutex was unlocked, leaves the mutex to the worker. -/
theorem mutex_not_orphaned_one : ∃ t es,
    Run (Restrict LockStep Uninterrupted) LockState.initial es t ∧
      (t.procs 0).map Process.termination = some (some .streamFailure) ∧
      t.owner = some .worker ∧ ¬ Orphaned t := by
  obtain ⟨t, es, hrun, -, htest⟩ := exists_restricted_run_of_exec
    LockState.next Uninterrupted LockState.initial
    [.start 0 serverOptions, .endpoint 0 .signal,
      .endpoint 0 .main, .endpoint 0 .main, .endpoint 0 .fail,
      .endpoint 0 (.fetch true), .endpoint 0 .main, .endpoint 0 .stream,
      .lock .worker]
    (fun r => decide ((r.1.procs 0).map Process.termination =
        some (some .streamFailure) ∧ r.1.owner = some .worker))
    (by decide +kernel)
  obtain ⟨hdead, howner⟩ := of_decide_eq_true htest
  exact ⟨t, es, hrun, hdead, howner, (mutex_not_orphaned hrun).1⟩

/-- A stream thread fails in its constructor, and calls `_exit`, while its main
thread has the mutex locked. -/
def failureInSection : List LockAction :=
  [.start 0 serverOptions, .endpoint 0 .signal,
    .endpoint 0 .main, .endpoint 0 .main, .endpoint 0 .fail,
    .endpoint 0 .stream]

/-- When `_exit` comes before the mutex is unlocked, the mutex is held by a
process that has exited, and the worker cannot lock it. -/
theorem mutex_orphaned : ∃ t es,
    Run LockStep LockState.initial es t ∧
      es.map Prod.fst = failureInSection ∧ Orphaned t ∧
      t.next (.lock .worker) = none := by
  obtain ⟨t, es, hrun, hactions, htest⟩ := exists_run_of_exec
    LockState.next LockState.initial failureInSection
    (fun r => decide ((r.1.procs 0).map Process.termination =
        some (some .streamFailure) ∧ r.1.owner = some (.endpoint 0)))
    (by decide +kernel)
  obtain ⟨hdead, howner⟩ := of_decide_eq_true htest
  obtain ⟨p, hp, hterminated⟩ := Option.map_eq_some_iff.mp hdead
  refine ⟨t, es, hrun, hactions, ⟨0, p, howner, hp, ?_⟩, ?_⟩
  · rw [hterminated]
    exact Option.some_ne_none _
  · unfold LockState.next
    rw [howner]
    rfl

end Runs

end SippScen.MediaHost
