import SippScen.MediaEndpoint.Agreement
import SippScen.MediaEndpoint.Threads

/-!
# The lifetime of an endpoint

`main` computes the timeout of its waits once, from the duration of the launch,
in whole seconds and 32-bit arithmetic.  Later signals replace `conf` but not
the timeout.  The endpoint outlives every call it is configured for exactly when
the first duration is neither too short nor too long, and no later one exceeds
the timeout.
-/

namespace SippScen.MediaEndpoint

open SippScen.Support SippScen.SharedList SippScen.MediaServer

/-- While `main` waits, the wait is not negative and not shorter than the call
the endpoint is configured for. -/
def OutlivesCall (p : Process) : Prop :=
  p.main = .waiting → 0 ≤ p.tvSec ∧ p.conf.duration ≤ p.tvSec * 1000

instance (p : Process) : Decidable (OutlivesCall p) :=
  inferInstanceAs (Decidable (_ → _))

/-- The duration of the record that a step stores in `conf`. -/
def storedDuration : Action × Report → Option ℤ
  | (_, .stored data) => some data.duration
  | _ => none

/-! ## What the steps do to the timeout and to `conf` -/

section Steps

variable {p q : Process} {a : Action} {r : Report}

theorem mainStep_conf (h : p.mainStep = some (q, r)) :
    q.tvSec = p.tvSec ∧ q.conf = p.conf := by
  unfold Process.mainStep at h
  split at h
  all_goals try split at h
  all_goals cases h
  all_goals simp [Process.terminate]

/-- No step changes the timeout, and `conf` changes only when a record is
stored. -/
theorem next_conf (h : p.next a = some (q, r)) :
    q.tvSec = p.tvSec ∧
      (q.conf = p.conf ∨ storedDuration (a, r) = some q.conf.duration) := by
  have hstream : a.OfStream →
      q.tvSec = p.tvSec ∧
        (q.conf = p.conf ∨ storedDuration (a, r) = some q.conf.duration) := by
    intro ha
    have hkeeps := next_keepsMain ha h
    exact ⟨hkeeps.tvSec, Or.inl hkeeps.conf⟩
  have hact := Process.act_of_next h
  cases a with
  | main => exact (mainStep_conf hact).imp_right Or.inl
  | stream => exact hstream (Or.inl rfl)
  | fail => exact hstream (Or.inr (Or.inl rfl))
  | wake => exact hstream (Or.inr (Or.inr rfl))
  | signal =>
      cases hact
      exact ⟨rfl, Or.inl rfl⟩
  | copy data =>
      obtain ⟨-, heq⟩ := Option.ite_none_right_eq_some.mp hact
      cases heq
      exact ⟨rfl, Or.inr rfl⟩
  | _ =>
      obtain ⟨-, heq⟩ := Option.ite_none_right_eq_some.mp hact
      cases heq
      exact ⟨rfl, Or.inl rfl⟩

end Steps

/-! ## Every run -/

section Runs

variable {o : Options} {es : List (Action × Report)} {p : Process}

theorem start_of_duration (h : o.conf.duration ≠ 0) :
    (Process.start o).conf = o.conf ∧
      (Process.start o).tvSec = timeoutSec o.conf.duration := by
  have hkeep : o.defaultDuration = o := by
    unfold Options.defaultDuration
    rw [if_neg]
    exact fun hzero => h hzero.2
  unfold Process.start
  rw [hkeep]
  exact ⟨rfl, rfl⟩

theorem conf_of_run (hrun : Run ProcessStep (.start o) es p) :
    p.tvSec = (Process.start o).tvSec ∧
      (p.conf.duration = (Process.start o).conf.duration ∨
        p.conf.duration ∈ es.filterMap storedDuration) := by
  apply hrun.history_invariant (P := fun es p =>
    p.tvSec = (Process.start o).tvSec ∧
      (p.conf.duration = (Process.start o).conf.duration ∨
        p.conf.duration ∈ es.filterMap storedDuration))
  · exact ⟨rfl, Or.inl rfl⟩
  · rintro es p ⟨a, r⟩ q ⟨htv, hconf⟩ hstep
    obtain ⟨htv', hconf'⟩ := next_conf hstep
    refine ⟨htv'.trans htv, ?_⟩
    rw [List.filterMap_append, List.mem_append]
    rcases hconf' with hsame | hstored
    · rw [hsame]
      exact hconf.imp_right Or.inl
    · right
      right
      rw [List.mem_filterMap]
      exact ⟨(a, r), List.mem_singleton_self _, hstored⟩

theorem run_reconfigure (o : Options) (data : Data) :
    ∃ es p, Run ProcessStep (.start o) es p ∧ p.main = .waiting ∧
      p.conf = data ∧ es.filterMap storedDuration = [data.duration] := by
  have hexec : exec Process.next (.start o)
      [.signal, .main, .main, .fetch true, .main, .main, .copy data, .main,
        .main] =
      some ({ Process.start o with conf := data, found := true },
        [(.signal, .silent), (.main, .silent), (.main, .lockList),
          (.fetch true, .silent), (.main, .unlockList), (.main, .silent),
          (.copy data, .stored data), (.main, .silent), (.main, .silent)]) :=
    rfl
  exact ⟨_, _, run_of_exec hexec, rfl, rfl, rfl⟩

theorem timeoutSec_of_isInt32 {d : ℤ} (hd : 0 ≤ d) (h : IsInt32 (d * 2)) :
    timeoutSec d = d * 2 / 1000 := by
  rw [timeoutSec, toInt32_of_mem h, Int.tdiv_eq_ediv_of_nonneg (by omega)]

/-- For every accepted duration of the launch: the doubling does not overflow
and the endpoint outlives its call in every run with the given stored durations,
exactly when the duration lies between half a second and 2^30 milliseconds and
no stored one exceeds the timeout. -/
theorem outlivesCall_iff (o : Options) (hpos : 0 < o.conf.duration)
    (hint : o.conf.duration ≤ 2147483647) (durations : Set ℤ) :
    (IsInt32 (o.conf.duration * 2) ∧
      ∀ es p, Run ProcessStep (.start o) es p →
        (∀ d ∈ es.filterMap storedDuration, d ∈ durations) →
        OutlivesCall p) ↔
      500 ≤ o.conf.duration ∧ o.conf.duration ≤ 1073741823 ∧
        ∀ d ∈ durations, d ≤ o.conf.duration / 500 * 1000 := by
  obtain ⟨hconf, htv⟩ := start_of_duration (o := o) (by omega)
  constructor
  · rintro ⟨hdouble, hall⟩
    have hsec := timeoutSec_of_isInt32 (le_of_lt hpos) hdouble
    obtain ⟨-, hfirst⟩ := hall [] _ Run.nil (by simp) rfl
    rw [hconf, htv, hsec] at hfirst
    unfold IsInt32 at hdouble
    refine ⟨by omega, by omega, ?_⟩
    intro d hd
    obtain ⟨es, p, hrun, hwaiting, hdata, hstored⟩ :=
      run_reconfigure o { o.conf with duration := d }
    have honly : ∀ d' ∈ es.filterMap storedDuration, d' ∈ durations := by
      intro d' hd'
      rw [hstored, List.mem_singleton] at hd'
      rw [hd']
      exact hd
    obtain ⟨-, hlater⟩ := hall es p hrun honly hwaiting
    rw [(conf_of_run hrun).1, htv, hsec, hdata] at hlater
    simp only at hlater
    omega
  · rintro ⟨hlow, hhigh, hstored⟩
    have hdouble : IsInt32 (o.conf.duration * 2) := by
      unfold IsInt32
      omega
    refine ⟨hdouble, ?_⟩
    intro es p hrun honly hwaiting
    obtain ⟨hsame, hcurrent⟩ := conf_of_run hrun
    rw [hsame, htv, timeoutSec_of_isInt32 (le_of_lt hpos) hdouble]
    refine ⟨by omega, ?_⟩
    rcases hcurrent with hinitial | hlater
    · rw [hinitial, hconf]
      omega
    · have := hstored _ (honly _ hlater)
      omega

/-- The settings of an endpoint launched for 21000 with the given duration. -/
def optionsFor (duration : ℤ) : Options :=
  launchResult defaultConfig (serverRequest 21000 duration)

theorem outlivesCall_10000 :
    IsInt32 ((optionsFor 10000).conf.duration * 2) ∧
      ∀ es p, Run ProcessStep (.start (optionsFor 10000)) es p →
        (∀ d ∈ es.filterMap storedDuration, 0 ≤ d ∧ d ≤ 20000) →
        OutlivesCall p := by
  apply (outlivesCall_iff (optionsFor 10000) (by decide) (by decide)
    {d | 0 ≤ d ∧ d ≤ 20000}).mpr
  refine ⟨by decide, by decide, ?_⟩
  intro d hd
  exact hd.2

/-- A call of less than half a second has no lifetime at all, and after a reuse
for 30 seconds an endpoint launched for 10 seconds waits for 20 only. -/
theorem outlivesCall_fails :
    ¬ OutlivesCall (.start (optionsFor 499)) ∧
      ∃ es p, Run ProcessStep (.start (optionsFor 10000)) es p ∧
        es.filterMap storedDuration = [30000] ∧ ¬ OutlivesCall p := by
  refine ⟨by decide, ?_⟩
  obtain ⟨es, p, hrun, hwaiting, hdata, hstored⟩ :=
    run_reconfigure (optionsFor 10000) (serverRequest 21000 30000)
  refine ⟨es, p, hrun, hstored, ?_⟩
  intro houtlives
  obtain ⟨-, hlater⟩ := houtlives hwaiting
  rw [(conf_of_run hrun).1, hdata] at hlater
  exact absurd hlater (by decide)

end Runs

end SippScen.MediaEndpoint
