import SippScen.Orchestrator.FirstTurn
import SippScen.Orchestrator.Lines
import SippScen.Orchestrator.Order

/-!
# The duration of the run

The loop looks at the end of the run only at the start of a turn, and then
sleeps until the next change, however late that is.  With an ideal clock it is
late if the first change is due after the end, and it leaves only if none is due
at all: at the first change the call of `title` raises.

If `title` took the third argument, the loop would leave in time if a command is
due at the very end of the run, or none at or after it; a pattern without
timepoints makes it raise, and one that repeats without taking time keeps it
from ending.
-/

namespace SippScen.Orchestrator

open SippScen.Support

/-- What the run loop works on, with patterns as they are accepted. -/
structure RunScenarios where
  acc : Accumulators
  fresh : ∀ k p, (scnWPattern acc.dScenarios).get? k = some p → p.Fresh

/-- The clock has not passed `endTimeMs`, and no command was sent after it. -/
def InTime (endTimeMs : ℤ) (st : LoopState) : Prop :=
  getEpochMs st.now ≤ endTimeMs ∧ ∀ c ∈ st.sent, c.time ≤ endTimeMs

namespace RunScenarios

variable (scenarios : RunScenarios)

/-- The scenarios of a configuration. -/
def ofConfig (w : World) (run : RunConfig) (servers : Dict PyStr PyStr)
    (config : List Entry) : RunScenarios :=
  ⟨_, fresh_prepareScenarios w run servers config⟩

def patterns : Dict PyStr Pattern := scnWPattern scenarios.acc.dScenarios

/-- Nothing happens after the end of a run of `runDuration` milliseconds that is
started at `now`. -/
def NeverLate (parameters : ℕ) (env : Processes) (now : ℚ)
    (runDuration : ℕ) : Prop :=
  ∀ fuel, InTime (runDuration + getEpochMs now)
    (idealLoop parameters env scenarios.acc now
      (runDuration + getEpochMs now) fuel).state

/-- The loop leaves, and not after the end of the run. -/
def LeavesInTime (parameters : ℕ) (env : Processes) (now : ℚ)
    (runDuration : ℕ) : Prop :=
  ∃ enough, ∀ fuel ≥ enough, ∃ st,
    idealLoop parameters env scenarios.acc now (runDuration + getEpochMs now)
      fuel = .finished st ∧
    InTime (runDuration + getEpochMs now) st

/-- The first change of a scenario with a name is not due after the end. -/
def FirstDueBy (runDuration : ℕ) : Prop :=
  ∀ e, firstDue scenarios.acc.dScenarios = some e → e.1 ≠ [] →
    e.2.timepoints.headD 0 ≤ runDuration

/-- Some pattern has no timepoints, or repeats without taking time. -/
def Stalls : Prop :=
  ∃ k p, scenarios.patterns.get? k = some p ∧
    (p.timepoints = [] ∨ (p.repeat = true ∧ p.timepoints.sum = 0))

/-- A command is due exactly at the end of the run, or none is due at or after
it. -/
def EndsOnTime (runDuration : ℕ) : Prop :=
  (∃ k p n, scenarios.patterns.get? k = some p ∧ p.Due n ∧
    due p.timepoints n = runDuration) ∨
  ∀ k p n, scenarios.patterns.get? k = some p → p.Due n →
    due p.timepoints n < runDuration

end RunScenarios

variable {parameters : ℕ} {scenarios : RunScenarios} {env : Processes}
variable {dScenarios : Dict PyStr Scenario} {now : ℚ} {start endTimeMs : ℤ}
variable {runDuration : ℕ} {st : LoopState}

/-! ## The clock of the loop -/

/-- The clock shows the start, or the time of the last command, or the end of
the run. -/
theorem clock_of_reached (hpace : Paceable parameters dScenarios)
    (hpaired : ∀ k p, (scnWPattern dScenarios).get? k = some p → p.Paired)
    (hinit : LoopInvariant dScenarios (getEpochMs now) endTimeMs
      (initialLoop dScenarios now))
    (h : Reached parameters dScenarios endTimeMs (initialLoop dScenarios now)
      st) :
    getEpochMs st.now = endTimeMs ∨
      (st.sent = [] ∧ getEpochMs st.now = getEpochMs now) ∨
      ∃ c, st.sent.getLast? = some c ∧ c.time = getEpochMs st.now := by
  induction h with
  | refl => exact Or.inr (Or.inl ⟨rfl, rfl⟩)
  | tail hreached hstep =>
      obtain ⟨hcur, hturn⟩ := hstep
      obtain ⟨next, hturn', -, hnext⟩ := idealTurn_of_invariant hpace hpaired
        hcur (invariant_of_reached hpace hpaired hinit hreached)
      obtain rfl := congrArg Prod.snd (hturn.symm.trans hturn')
      rcases hnext with ⟨-, hnow⟩ | ⟨p, c, hsends⟩
      · exact Or.inl hnow
      · refine Or.inr (Or.inr ⟨c, ?_, hsends.now.symm⟩)
        rw [hsends.sent, List.getLast?_concat]

theorem time_of_scheduled {k : PyStr} {p : Pattern} {n : ℕ} {c : RateChange}
    (h : scheduled dScenarios k p start n = some c) :
    c.time = p.dueTime start n := by
  obtain ⟨cps, -, hsend⟩ := Option.bind_eq_some_iff.mp h
  obtain ⟨v, -, hc⟩ := Option.bind_eq_some_iff.mp hsend
  obtain rfl := Option.some.inj hc
  rfl

theorem LoopInvariant.due_of_sent {c : RateChange}
    (h : LoopInvariant dScenarios start endTimeMs st) (hc : c ∈ st.sent) :
    ∃ p n, (scnWPattern dScenarios).get? c.scn = some p ∧ p.Due n ∧
      c.time = p.dueTime start n := by
  obtain ⟨p, hp⟩ := Dict.mem_keys_iff.mp (h.keys ▸ h.addressed c hc)
  have hmem : c ∈ commandsTo c.scn st.sent :=
    List.mem_filter.mpr ⟨hc, by simp⟩
  obtain ⟨n, hn, hget⟩ := List.mem_iff_getElem.mp hmem
  obtain ⟨hdue, hsched⟩ := h.sent_of_lt hp hn
  rw [List.getElem?_eq_getElem hn, hget] at hsched
  exact ⟨p, n, hp, hdue, time_of_scheduled hsched.symm⟩

/-- A command that is due was sent at its time, or the clock has not passed
it. -/
theorem LoopInvariant.sent_or_pending {k : PyStr} {p : Pattern} {n : ℕ}
    (hpaired : ∀ k p, (scnWPattern dScenarios).get? k = some p → p.Paired)
    (h : LoopInvariant dScenarios start endTimeMs st)
    (hp : (scnWPattern dScenarios).get? k = some p) (hdue : p.Due n) :
    (∃ c ∈ st.sent, c.time = p.dueTime start n) ∨
      getEpochMs st.now ≤ p.dueTime start n := by
  by_cases hn : n < (commandsTo k st.sent).length
  · left
    obtain ⟨-, hsched⟩ := h.sent_of_lt hp hn
    rw [List.getElem?_eq_getElem hn] at hsched
    have hmem : (commandsTo k st.sent)[n] ∈ commandsTo k st.sent :=
      List.getElem_mem hn
    exact ⟨_, List.mem_of_mem_filter hmem, time_of_scheduled hsched.symm⟩
  · exact Or.inr (h.le_dueTime hpaired hp hdue (not_lt.mp hn)).2

/-! ## In time -/

theorem le_end_of_due_at_end {k : PyStr} {p : Pattern} {n : ℕ}
    (hpaired : ∀ k p, (scnWPattern dScenarios).get? k = some p → p.Paired)
    (h : LoopInvariant dScenarios start endTimeMs st)
    (hclock : getEpochMs st.now = endTimeMs ∨
      (st.sent = [] ∧ getEpochMs st.now = start) ∨
      ∃ c, st.sent.getLast? = some c ∧ c.time = getEpochMs st.now)
    (hp : (scnWPattern dScenarios).get? k = some p) (hdue : p.Due n)
    (hend : p.dueTime start n = endTimeMs) : getEpochMs st.now ≤ endTimeMs := by
  rcases h.sent_or_pending hpaired hp hdue with ⟨c, hc, htime⟩ | hpending
  · -- the command is the last one, as the others came before the end
    rcases List.eq_nil_or_concat st.sent with hnil | ⟨before, last, hsent⟩
    · rw [hnil] at hc
      exact absurd hc List.not_mem_nil
    · rw [List.concat_eq_append] at hsent
      have hwithin := h.within c
      rw [hsent, List.dropLast_concat] at hwithin
      rw [hsent] at hc hclock
      have hlast : c = last := by
        rcases List.mem_append.mp hc with hc | hc
        · have hlt := hwithin hc
          omega
        · exact List.mem_singleton.mp hc
      rcases hclock with hnow | ⟨hnil, -⟩ | ⟨d, hd, hnow⟩
      · exact hnow.le
      · exact absurd hnil (by simp)
      · rw [List.getLast?_concat] at hd
        obtain rfl := Option.some.inj hd
        rw [← hnow, ← hlast, htime, hend]
  · exact hpending.trans hend.le

theorem now_le_of_no_time {k : PyStr} {p : Pattern}
    (hpaired : ∀ k p, (scnWPattern dScenarios).get? k = some p → p.Paired)
    (h : LoopInvariant dScenarios start endTimeMs st)
    (hp : (scnWPattern dScenarios).get? k = some p)
    (hrepeat : p.repeat = true) (hsum : p.timepoints.sum = 0) :
    getEpochMs st.now ≤ start := by
  have hzero : ∀ n, due p.timepoints n = 0 := by
    intro n
    have htake : (p.timepoints.take (n % p.timepoints.length + 1)).sum = 0 :=
      Nat.le_zero.mp (hsum ▸ (List.take_sublist _ _).sum_le_sum fun _ _ =>
        Nat.zero_le _)
    rw [due, hsum, htake]
    rfl
  have hle := (h.le_dueTime hpaired hp (Or.inl hrepeat) le_rfl).2
  rwa [Pattern.dueTime, hzero, Nat.cast_zero, add_zero] at hle

/-- A state in which the loop ends was reached, or the turn after the one that
was reached raises in it. -/
theorem reached_state (parameters : ℕ) (dScenarios : Dict PyStr Scenario)
    (endTimeMs : ℤ) (fuel : ℕ) (st : LoopState) :
    Reached parameters dScenarios endTimeMs st
      (mainLoop parameters dScenarios endTimeMs fuel st).state ∨
    ∃ last error, Reached parameters dScenarios endTimeMs st last ∧
      getEpochMs last.now < endTimeMs ∧
      idealTurn parameters dScenarios endTimeMs last = (.error error,
        (mainLoop parameters dScenarios endTimeMs fuel st).state) := by
  induction fuel generalizing st with
  | zero => exact Or.inl .refl
  | succ fuel ih =>
      by_cases hcur : getEpochMs st.now < endTimeMs
      · rcases hturn : idealTurn parameters dScenarios endTimeMs st with
          ⟨error | _, next⟩
        · rw [mainLoop_of_raised hcur hturn]
          exact Or.inr ⟨st, error, .refl, hcur, hturn⟩
        · rw [mainLoop_of_turn hcur hturn]
          rcases ih next with hreached | ⟨last, error, hreached, hlast⟩
          · exact Or.inl (.head ⟨hcur, hturn⟩ hreached)
          · exact Or.inr ⟨last, error, .head ⟨hcur, hturn⟩ hreached, hlast⟩
      · rw [mainLoop_of_late hcur]
        exact Or.inl .refl

theorem le_of_finished {fuel : ℕ} {st' : LoopState}
    (h : mainLoop parameters dScenarios endTimeMs fuel st = .finished st') :
    endTimeMs ≤ getEpochMs st'.now := by
  induction fuel generalizing st with
  | zero => cases h
  | succ fuel ih =>
      by_cases hcur : getEpochMs st.now < endTimeMs
      · rcases hturn : idealTurn parameters dScenarios endTimeMs st with
          ⟨error | _, next⟩
        · rw [mainLoop_of_raised hcur hturn] at h
          cases h
        · rw [mainLoop_of_turn hcur hturn] at h
          exact ih h
      · rw [mainLoop_of_late hcur, LoopEnd.finished.injEq] at h
        exact h ▸ not_lt.mp hcur

theorem idealLoop_of_idle (h : ¬ bRunning env scenarios.acc) (fuel : ℕ) :
    idealLoop parameters env scenarios.acc now endTimeMs fuel =
      .finished (initialLoop scenarios.acc.dScenarios now) := by
  rw [idealLoop, if_neg h]

theorem idealLoop_of_running (h : bRunning env scenarios.acc) (fuel : ℕ) :
    idealLoop parameters env scenarios.acc now endTimeMs fuel =
      mainLoop parameters scenarios.acc.dScenarios endTimeMs fuel
        (initialLoop scenarios.acc.dScenarios now) := by
  rw [idealLoop, if_pos h]

namespace RunScenarios

theorem startable (scenarios : RunScenarios)
    (h : ¬ SomeEmpty scenarios.acc.dScenarios) :
    Startable scenarios.acc.dScenarios :=
  startable_of_fresh scenarios.fresh fun k p hp hempty => h ⟨k, p, hp, hempty⟩

theorem inTime_init :
    InTime (runDuration + getEpochMs now)
      (initialLoop scenarios.acc.dScenarios now) := by
  refine ⟨?_, by simp [initialLoop]⟩
  change getEpochMs now ≤ _
  omega

theorem init_late (h : runDuration = 0) :
    ¬ getEpochMs (initialLoop scenarios.acc.dScenarios now).now <
      runDuration + getEpochMs now := by
  change ¬ getEpochMs now < _
  omega

theorem neverLate_of_idle (h : ¬ bRunning env scenarios.acc) :
    scenarios.NeverLate parameters env now runDuration := by
  intro fuel
  rw [idealLoop_of_idle h]
  exact inTime_init

theorem leavesInTime_of_idle (h : ¬ bRunning env scenarios.acc) :
    scenarios.LeavesInTime parameters env now runDuration :=
  ⟨0, fun fuel _ => ⟨_, idealLoop_of_idle h fuel, inTime_init⟩⟩

theorem neverLate_of_zero (h : runDuration = 0) :
    scenarios.NeverLate parameters env now runDuration := by
  intro fuel
  by_cases hrunning : bRunning env scenarios.acc
  · rw [idealLoop_of_running hrunning, state_of_late (init_late h)]
    exact inTime_init
  · exact neverLate_of_idle hrunning fuel

theorem leavesInTime_of_finished (hrunning : bRunning env scenarios.acc)
    {enough : ℕ}
    (h : mainLoop parameters scenarios.acc.dScenarios
      (runDuration + getEpochMs now) enough
      (initialLoop scenarios.acc.dScenarios now) = .finished st)
    (htime : InTime (runDuration + getEpochMs now) st) :
    scenarios.LeavesInTime parameters env now runDuration := by
  refine ⟨enough, fun fuel hfuel => ⟨st, ?_, htime⟩⟩
  rw [idealLoop_of_running hrunning]
  exact mainLoop_mono h hfuel

theorem leavesInTime_of_zero (h : runDuration = 0) :
    scenarios.LeavesInTime parameters env now runDuration := by
  by_cases hrunning : bRunning env scenarios.acc
  · exact leavesInTime_of_finished hrunning
      (mainLoop_of_late (init_late h) 0) inTime_init
  · exact leavesInTime_of_idle hrunning

theorem state_of_empty (h : SomeEmpty scenarios.acc.dScenarios)
    (endTimeMs : ℤ) (fuel : ℕ) :
    (mainLoop parameters scenarios.acc.dScenarios endTimeMs fuel
      (initialLoop scenarios.acc.dScenarios now)).state =
        initialLoop scenarios.acc.dScenarios now ∧
      (getEpochMs now < endTimeMs → ∀ st,
        mainLoop parameters scenarios.acc.dScenarios endTimeMs fuel
          (initialLoop scenarios.acc.dScenarios now) ≠ .finished st) := by
  obtain ⟨k, p, hp, hempty⟩ := h
  have hbody : loopBody parameters scenarios.acc.dScenarios endTimeMs
      (getEpochMs now) (initialPlan scenarios.acc.dScenarios) = _ :=
    first_turn_of_empty (fun k p hp => (scenarios.fresh k p hp).active) hp hempty
  have hturn : idealTurn parameters scenarios.acc.dScenarios endTimeMs
      (initialLoop scenarios.acc.dScenarios now) =
        (.error .indexError, initialLoop scenarios.acc.dScenarios now) := by
    simp only [idealTurn, initialLoop, hbody, List.foldl_nil]
  cases fuel with
  | zero => exact ⟨rfl, fun _ st => by simp [mainLoop]⟩
  | succ fuel =>
      by_cases hcur : getEpochMs now < endTimeMs
      · rw [mainLoop_of_raised hcur hturn]
        exact ⟨rfl, fun _ st => by simp⟩
      · exact ⟨state_of_late hcur _, fun h => absurd h hcur⟩

/-! ## The loop of the program -/

theorem getEpochMs_add (now : ℚ) (t : ℕ) :
    getEpochMs (now + (t : ℚ) / 1000) = getEpochMs now + t := by
  have hsleep := getEpochMs_sleep now (getEpochMs now + t)
  rwa [add_sub_cancel_left, Int.cast_natCast] at hsleep

/-- With too few parameters of `title`, the loop is not late if and only if it
comes to no change after the end. -/
theorem neverLate_iff_of_few (hparameters : parameters < 3)
    (scenarios : RunScenarios) (env : Processes) (now : ℚ) (runDuration : ℕ) :
    scenarios.NeverLate parameters env now runDuration ↔
      bRunning env scenarios.acc = false ∨ runDuration = 0 ∨
        SomeEmpty scenarios.acc.dScenarios ∨
        scenarios.FirstDueBy runDuration := by
  by_cases hrunning : bRunning env scenarios.acc
  swap
  · exact iff_of_true (neverLate_of_idle hrunning)
      (Or.inl (by simpa using hrunning))
  by_cases hzero : runDuration = 0
  · exact iff_of_true (neverLate_of_zero hzero) (Or.inr (Or.inl hzero))
  simp only [NeverLate, idealLoop_of_running hrunning, hrunning,
    Bool.true_eq_false, hzero, false_or]
  by_cases hempty : SomeEmpty scenarios.acc.dScenarios
  · refine iff_of_true (fun fuel => ?_) (Or.inl hempty)
    rw [(state_of_empty hempty _ fuel).1]
    exact inTime_init
  have hstart := scenarios.startable hempty
  have hcur : getEpochMs now < runDuration + getEpochMs now := by omega
  by_cases hnone : NoneDue scenarios.acc.dScenarios
  · refine iff_of_true (fun fuel => ?_)
      (Or.inr fun e he hname => absurd (hnone e he) hname)
    obtain ⟨st, hsent, hend, hturn⟩ :=
      mainLoop_of_noneDue parameters hstart hnone hcur
    cases fuel with
    | zero => exact inTime_init
    | succ fuel =>
        rw [hturn, state_of_late (not_lt.mpr hend.ge)]
        exact ⟨hend.le, by simp [hsent]⟩
  · obtain ⟨e, hdue, hname⟩ := exists_firstDue hnone
    obtain ⟨plan, hraised⟩ :=
      mainLoop_raises hparameters hstart hdue hname hcur
    constructor
    · intro h
      have hlate := (h 1).1
      rw [hraised 0, LoopEnd.state, getEpochMs_add] at hlate
      refine Or.inr fun e' he' _ => ?_
      obtain rfl := Option.some.inj (hdue.symm.trans he')
      omega
    · rintro (h | hby) fuel
      · exact absurd h hempty
      · cases fuel with
        | zero => exact inTime_init
        | succ fuel =>
            rw [hraised fuel, LoopEnd.state]
            have hle := hby e hdue hname
            refine ⟨?_, by simp⟩
            rw [getEpochMs_add]
            omega

theorem leavesInTime_iff_of_few (hparameters : parameters < 3)
    (scenarios : RunScenarios) (env : Processes) (now : ℚ) (runDuration : ℕ) :
    scenarios.LeavesInTime parameters env now runDuration ↔
      bRunning env scenarios.acc = false ∨ runDuration = 0 ∨
        (¬ SomeEmpty scenarios.acc.dScenarios ∧
          NoneDue scenarios.acc.dScenarios) := by
  by_cases hrunning : bRunning env scenarios.acc
  swap
  · exact iff_of_true (leavesInTime_of_idle hrunning)
      (Or.inl (by simpa using hrunning))
  by_cases hzero : runDuration = 0
  · exact iff_of_true (leavesInTime_of_zero hzero) (Or.inr (Or.inl hzero))
  have hcur : getEpochMs now < runDuration + getEpochMs now := by omega
  simp only [hrunning, Bool.true_eq_false, hzero, false_or]
  constructor
  · rintro ⟨enough, h⟩
    simp only [idealLoop_of_running hrunning] at h
    have hempty : ¬ SomeEmpty scenarios.acc.dScenarios := by
      intro hempty
      obtain ⟨st, hfinish, -⟩ := h enough le_rfl
      exact (state_of_empty hempty _ enough).2 hcur st hfinish
    refine ⟨hempty, ?_⟩
    by_contra hnone
    obtain ⟨e, hdue, hname⟩ := exists_firstDue hnone
    obtain ⟨plan, hraised⟩ := mainLoop_raises hparameters
      (scenarios.startable hempty) hdue hname hcur
    obtain ⟨st, hfinish, -⟩ := h (enough + 1) (Nat.le_add_right _ _)
    cases (hraised enough).symm.trans hfinish
  · rintro ⟨hempty, hnone⟩
    obtain ⟨st, hsent, hend, hturn⟩ := mainLoop_of_noneDue parameters
      (scenarios.startable hempty) hnone hcur
    exact leavesInTime_of_finished hrunning
      ((hturn 1).trans (mainLoop_of_late (not_lt.mpr hend.ge) 0))
      ⟨hend.le, by simp [hsent]⟩

/-! ## With a third parameter of `title` -/

theorem stalls_of_someEmpty (h : SomeEmpty scenarios.acc.dScenarios) :
    scenarios.Stalls := by
  obtain ⟨k, p, hp, hempty⟩ := h
  exact ⟨k, p, hp, Or.inl hempty⟩

theorem invariant_init
    (hpaired : ∀ k p, scenarios.patterns.get? k = some p → p.Paired) :
    LoopInvariant scenarios.acc.dScenarios (getEpochMs now) endTimeMs
      (initialLoop scenarios.acc.dScenarios now) :=
  invariant_initial fun k p hp =>
    ⟨hpaired k p hp, (scenarios.fresh k p hp).active⟩

/-- What the loop reaches is in time if the loop does not advance, or if it ends
on time. -/
theorem inTime_of_reached
    (hpace : Paceable parameters scenarios.acc.dScenarios)
    (h : runDuration = 0 ∨ scenarios.Stalls ∨ scenarios.EndsOnTime runDuration)
    (hreached : Reached parameters scenarios.acc.dScenarios
      (runDuration + getEpochMs now)
      (initialLoop scenarios.acc.dScenarios now) st) :
    InTime (runDuration + getEpochMs now) st := by
  rcases reached_cases hpace scenarios.fresh hreached with
    rfl | ⟨hpaired, hinv⟩
  · exact inTime_init
  · have hclock :=
      clock_of_reached hpace hpaired (invariant_init hpaired) hreached
    have hnow : getEpochMs st.now ≤ runDuration + getEpochMs now := by
      rcases h with hzero | ⟨k, p, hp, hempty | ⟨hrepeat, hsum⟩⟩ |
        ⟨k, p, n, hp, hdue, hend⟩ | hbefore
      · -- the loop makes no turn
        rcases hreached.cases_head with hrefl | ⟨_, ⟨hcur, -⟩, -⟩
        · exact hrefl ▸ inTime_init.1
        · exact absurd hcur (init_late hzero)
      · exact absurd hempty (hpaired k p hp).nonempty
      · have hle := now_le_of_no_time hpaired hinv hp hrepeat hsum
        omega
      · refine le_end_of_due_at_end hpaired hinv hclock hp hdue ?_
        rw [Pattern.dueTime, hend, add_comm]
      · rcases hclock with hnow | ⟨-, hnow⟩ | ⟨c, hlast, hnow⟩
        · exact hnow.le
        · omega
        · obtain ⟨p, n, hp, hdue, htime⟩ :=
            hinv.due_of_sent (List.mem_of_getLast? hlast)
          have hlt := hbefore c.scn p n hp hdue
          rw [← hnow, htime, Pattern.dueTime]
          omega
    exact ⟨hnow, fun c hc => (hinv.past c hc).trans hnow⟩

theorem reached_of_nonempty
    (hpace : Paceable parameters scenarios.acc.dScenarios)
    (hempty : ¬ SomeEmpty scenarios.acc.dScenarios) (fuel : ℕ) :
    Reached parameters scenarios.acc.dScenarios endTimeMs
      (initialLoop scenarios.acc.dScenarios now)
      (mainLoop parameters scenarios.acc.dScenarios endTimeMs fuel
        (initialLoop scenarios.acc.dScenarios now)).state := by
  have hpaired := (scenarios.startable hempty).paired
  rcases reached_state parameters scenarios.acc.dScenarios endTimeMs fuel
    (initialLoop scenarios.acc.dScenarios now) with
      hreached | ⟨last, error, hreached, hcur, hraises⟩
  · exact hreached
  · obtain ⟨next, hturn, -⟩ := idealTurn_of_invariant hpace hpaired hcur
      (invariant_of_reached hpace hpaired (invariant_init hpaired) hreached)
    cases congrArg Prod.fst (hraises.symm.trans hturn)

/-- If the loop has come to the end of the run in time, then it ends on
time. -/
theorem endsOnTime_of_inTime
    (hpaired : ∀ k p, scenarios.patterns.get? k = some p → p.Paired)
    (hinv : LoopInvariant scenarios.acc.dScenarios (getEpochMs now)
      (runDuration + getEpochMs now) st)
    (hpos : runDuration ≠ 0)
    (hend : runDuration + getEpochMs now ≤ getEpochMs st.now)
    (h : InTime (runDuration + getEpochMs now) st) :
    scenarios.EndsOnTime runDuration := by
  rw [EndsOnTime, or_iff_not_imp_left]
  intro hexact k p n hp hdue
  push Not at hexact
  by_contra hlate
  have hne := hexact k p n hp hdue
  by_cases hn : n < (commandsTo k st.sent).length
  · obtain ⟨-, hsched⟩ := hinv.sent_of_lt hp hn
    rw [List.getElem?_eq_getElem hn] at hsched
    have htime := time_of_scheduled hsched.symm
    have hmem : (commandsTo k st.sent)[n] ∈ commandsTo k st.sent :=
      List.getElem_mem hn
    have hle := h.2 _ (List.mem_of_mem_filter hmem)
    rw [htime, Pattern.dueTime] at hle
    omega
  · obtain ⟨-, -, hlast⟩ := (followed_of_invariant hpaired hinv hend).complete
      k p n hp hdue (not_lt.mp hn)
    obtain ⟨c, hc, htime⟩ := hlast (by omega)
    have hmem := List.mem_of_getLast? hc
    obtain ⟨q, m, hq, hdue', htime'⟩ := hinv.due_of_sent hmem
    have hle := h.2 c hmem
    rw [Pattern.dueTime] at htime'
    exact hexact c.scn q m hq hdue' (by omega)

theorem exists_finished (hpace : Paceable parameters scenarios.acc.dScenarios)
    (hstalls : ¬ scenarios.Stalls) (now : ℚ) (endTimeMs : ℤ) :
    (∀ k p, scenarios.patterns.get? k = some p → p.Paired) ∧
    ∃ fuel st, mainLoop parameters scenarios.acc.dScenarios endTimeMs fuel
        (initialLoop scenarios.acc.dScenarios now) = .finished st ∧
      LoopInvariant scenarios.acc.dScenarios (getEpochMs now) endTimeMs st ∧
      endTimeMs ≤ getEpochMs st.now := by
  have hpaired := (scenarios.startable fun hempty =>
    hstalls (stalls_of_someEmpty hempty)).paired
  have hadvances : ∀ k p, scenarios.patterns.get? k = some p → p.Advances := by
    refine fun k p hp => ⟨hpaired k p hp, fun hrepeat => ?_⟩
    by_contra hsum
    exact hstalls ⟨k, p, hp, Or.inr ⟨hrepeat, by omega⟩⟩
  exact ⟨hpaired,
    mainLoop_of_invariant hpace hadvances (invariant_init hpaired) le_rfl⟩

theorem neverLate_iff_of_paceable
    (hpace : Paceable parameters scenarios.acc.dScenarios) (env : Processes)
    (now : ℚ) (runDuration : ℕ) :
    scenarios.NeverLate parameters env now runDuration ↔
      bRunning env scenarios.acc = false ∨ runDuration = 0 ∨
        scenarios.Stalls ∨ scenarios.EndsOnTime runDuration := by
  by_cases hrunning : bRunning env scenarios.acc
  swap
  · exact iff_of_true (neverLate_of_idle hrunning)
      (Or.inl (by simpa using hrunning))
  simp only [NeverLate, idealLoop_of_running hrunning, hrunning,
    Bool.true_eq_false, false_or]
  constructor
  · intro h
    by_cases hpos : runDuration = 0
    · exact Or.inl hpos
    · by_cases hstalls : scenarios.Stalls
      · exact Or.inr (Or.inl hstalls)
      · obtain ⟨hpaired, fuel, st, hfinish, hinv, hend⟩ :=
          exists_finished hpace hstalls now (runDuration + getEpochMs now)
        have htime := h fuel
        rw [hfinish] at htime
        exact Or.inr (Or.inr (endsOnTime_of_inTime hpaired hinv hpos hend htime))
  · intro h fuel
    by_cases hempty : SomeEmpty scenarios.acc.dScenarios
    · rw [(state_of_empty hempty _ fuel).1]
      exact inTime_init
    · exact inTime_of_reached hpace h (reached_of_nonempty hpace hempty fuel)

theorem leavesInTime_iff_of_paceable
    (hpace : Paceable parameters scenarios.acc.dScenarios) (env : Processes)
    (now : ℚ) (runDuration : ℕ) :
    scenarios.LeavesInTime parameters env now runDuration ↔
      bRunning env scenarios.acc = false ∨ runDuration = 0 ∨
        (¬ scenarios.Stalls ∧ scenarios.EndsOnTime runDuration) := by
  by_cases hrunning : bRunning env scenarios.acc
  swap
  · exact iff_of_true (leavesInTime_of_idle hrunning)
      (Or.inl (by simpa using hrunning))
  rw [hrunning]
  simp only [Bool.true_eq_false, false_or]
  constructor
  · rintro ⟨enough, h⟩
    simp only [idealLoop_of_running hrunning] at h
    by_cases hpos : runDuration = 0
    · exact Or.inl hpos
    · obtain ⟨st, hfinish, htime⟩ := h enough le_rfl
      have hend := le_of_finished hfinish
      rcases reached_cases hpace scenarios.fresh
        (reached_of_finished hfinish) with rfl | ⟨hpaired, hinv⟩
      · change _ ≤ getEpochMs now at hend
        omega
      · refine Or.inr ⟨?_, endsOnTime_of_inTime hpaired hinv hpos hend htime⟩
        rintro ⟨k, p, hp, hempty | ⟨hrepeat, hsum⟩⟩
        · exact (hpaired k p hp).nonempty hempty
        · have hle := now_le_of_no_time hpaired hinv hp hrepeat hsum
          omega
  · rintro (hzero | ⟨hstalls, hends⟩)
    · exact leavesInTime_of_zero hzero
    · obtain ⟨-, enough, st, hfinish, -, -⟩ :=
        exists_finished hpace hstalls now (runDuration + getEpochMs now)
      exact leavesInTime_of_finished hrunning hfinish (inTime_of_reached hpace
        (Or.inr (Or.inr hends)) (reached_of_finished hfinish))

end RunScenarios

/-- With an ideal clock, nothing happens after the end of the run if and only if
the loop comes to no change after the end; and the loop leaves in time if and
only if it comes to no change. -/
theorem run_duration_kept_iff (scenarios : RunScenarios) (env : Processes)
    (now : ℚ) (runDuration : ℕ) :
    (scenarios.NeverLate titleParameters env now runDuration ↔
      bRunning env scenarios.acc = false ∨ runDuration = 0 ∨
        SomeEmpty scenarios.acc.dScenarios ∨
        scenarios.FirstDueBy runDuration) ∧
    (scenarios.LeavesInTime titleParameters env now runDuration ↔
      bRunning env scenarios.acc = false ∨ runDuration = 0 ∨
        (¬ SomeEmpty scenarios.acc.dScenarios ∧
          NoneDue scenarios.acc.dScenarios)) :=
  ⟨RunScenarios.neverLate_iff_of_few (by decide) scenarios env now runDuration,
    RunScenarios.leavesInTime_iff_of_few (by decide) scenarios env now
      runDuration⟩

/-- A run of ten seconds. -/
def shortRun : RunConfig where
  duration := "10s".toList
  receiveTimeout := .absent
  sendTimeout := .absent
  runDuration := 10000
  translates := rfl

/-- A client whose rate is to change after almost a minute. -/
def lateClient : ScenarioConfig :=
  { plainClient with
    pattern := .value
      { timepoints := .value [.value "57s".toList]
        cps := .value [⟨"3".toList, 3⟩]
        «repeat» := false } }

def lateScenarios : RunScenarios :=
  .ofConfig plainWorld shortRun oneServer [("A".toList, some lateClient)]

/-- The run of ten seconds with the client sleeps for almost a minute. -/
theorem run_too_long :
    ¬ lateScenarios.NeverLate titleParameters quietProcesses 0
        shortRun.runDuration ∧
      ¬ lateScenarios.LeavesInTime titleParameters quietProcesses 0
        shortRun.runDuration := by
  have hrunning : bRunning quietProcesses lateScenarios.acc = true := by
    decide +kernel
  have hpatterns : lateScenarios.patterns.entries =
      [("A".toList, ⟨[57000], [⟨"3".toList, 3⟩], false, false⟩)] := by
    decide +kernel
  have hdue : firstDue lateScenarios.acc.dScenarios =
      some ("A".toList, ⟨[57000], [⟨"3".toList, 3⟩], false, false⟩) := by
    rw [firstDue, ← RunScenarios.patterns, hpatterns, List.minOn?_singleton]
  have hempty : ¬ SomeEmpty lateScenarios.acc.dScenarios := by
    rintro ⟨k, p, hp, hempty⟩
    rw [Dict.get?_eq_some_iff, ← RunScenarios.patterns, hpatterns,
      List.mem_singleton] at hp
    obtain ⟨-, rfl⟩ := Prod.mk.inj hp
    exact absurd hempty (List.cons_ne_nil _ _)
  have hname : "A".toList ≠ [] := by decide
  rw [RunScenarios.neverLate_iff_of_few (by decide),
    RunScenarios.leavesInTime_iff_of_few (by decide), hrunning]
  constructor
  · rintro (h | h | h | h)
    · exact absurd h (by decide)
    · exact absurd h (by decide)
    · exact hempty h
    · exact absurd (h _ hdue hname) (by decide)
  · rintro (h | h | ⟨-, h⟩)
    · exact absurd h (by decide)
    · exact absurd h (by decide)
    · exact hname (h _ hdue)

end SippScen.Orchestrator
