import SippScen.Orchestrator.RunDuration

/-!
# The way to the stop stage

The run loop under any clock.  It raises on a pattern without timepoints, which
the preparation accepts, and at the first change, when it calls `title`.  The
exception ends the program while the SIPp processes run on in the background.

If `title` took the third argument, only a pattern without timepoints would make
it raise: its lists are popped together and are filled again before they are
looked at.
-/

namespace SippScen.Orchestrator

open SippScen.Support Effect

/-! ## The loop under any clock -/

variable {parameters : ℕ} {dScenarios : Dict PyStr Scenario}
variable {endTimeMs cur : ℤ} {clock : ℕ → ℤ} {plan : Plan}
variable {streams : Dict PyStr Stream} {k : PyStr} {p : Pattern}

/-- The lists of a stream have the same length. -/
def LengthsAgree (streams : Dict PyStr Stream) : Prop :=
  ∀ k s, streams.get? k = some s → s.streams.length = s.cps.length

/-- A property of the plan at the tests of the loop, with which no turn raises
and the lists of every stream have the same length. -/
structure KeepsGoing (parameters : ℕ) (dScenarios : Dict PyStr Scenario)
    (endTimeMs : ℤ) (I : Plan → Prop) : Prop where
  init : I (initialPlan dScenarios)
  turn : ∀ cur plan, cur < endTimeMs → I plan →
    ∃ plan', (loopBody parameters dScenarios endTimeMs cur).Returns plan ()
      plan' ∧ I plan'
  lengths : ∀ plan, I plan → LengthsAgree plan.streams

/-! ## With a third parameter of `title` -/

/-- The plan at a test of the loop: the patterns are those of the scenarios,
the lists of every stream have the same length, and a pattern that has passed
has no stream. -/
structure PlanInvariant (dScenarios : Dict PyStr Scenario) (plan : Plan) :
    Prop where
  same : ∀ k p, plan.patterns.get? k = some p →
    (scnWPattern dScenarios).get? k = some { p with passed := false }
  known : ∀ k ∈ plan.streams.keys, k ∈ plan.patterns.keys
  lengths : LengthsAgree plan.streams
  passed : ∀ k p, plan.patterns.get? k = some p → p.passed = true →
    plan.streams.get? k = none

theorem PlanInvariant.pass (h : PlanInvariant dScenarios plan)
    (hp : plan.patterns.get? k = some p) :
    PlanInvariant dScenarios ⟨plan.patterns.set k { p with passed := true },
      plan.streams.pop k⟩ where
  same k' q hq := by
    by_cases hk : k' = k
    · subst hk
      rw [Dict.get?_set_self] at hq
      obtain rfl := Option.some.inj hq
      exact h.same k' p hp
    · rw [Dict.get?_set_of_ne hk] at hq
      exact h.same k' q hq
  known k' hk' := by
    rw [Dict.keys_set_of_mem (Dict.mem_keys_iff.mpr ⟨p, hp⟩)]
    obtain ⟨s, hs⟩ := Dict.mem_keys_iff.mp hk'
    have hold := (Dict.mem_entries_pop.mp (Dict.get?_eq_some_iff.mp hs)).1
    exact h.known k' (Dict.mem_keys_of_mem hold)
  lengths k' s hs := by
    by_cases hk : k' = k
    · rw [hk, Dict.get?_pop_self] at hs
      exact absurd hs (Option.some_ne_none s).symm
    · rw [Dict.get?_pop_of_ne hk] at hs
      exact h.lengths k' s hs
  passed k' q hq hpassed := by
    by_cases hk : k' = k
    · rw [hk, Dict.get?_pop_self]
    · rw [Dict.get?_set_of_ne hk] at hq
      rw [Dict.get?_pop_of_ne hk]
      exact h.passed k' q hq hpassed

theorem Unchanged.lengths (hstart : Startable dScenarios)
    (h : Unchanged dScenarios plan) : LengthsAgree plan.streams := by
  intro k s hs
  rcases h.streams with hempty | ⟨start, hfirst⟩
  · rw [hempty, Dict.get?_empty] at hs
    cases hs
  · rw [Dict.get?_eq_some_iff, hfirst] at hs
    obtain ⟨e, he, heq⟩ := List.mem_map.mp hs
    obtain ⟨-, rfl⟩ := Prod.mk.inj heq
    have hp : e.2.Paired := hstart.paired_of_mem he
    simp [Pattern.remaining, hp.lengths]

variable {I : Plan → Prop} {i fuel : ℕ}

theorem rateLoop_of_late (h : ¬ clock i < endTimeMs) (fuel : ℕ) :
    rateLoop parameters dScenarios endTimeMs clock (fuel + 1) i plan =
      ⟨.ok true, plan, []⟩ := by
  rw [rateLoop, if_neg h]
  rfl

theorem result_of_turn {plan' : Plan} (hcur : clock i < endTimeMs)
    (hturn : (loopBody parameters dScenarios endTimeMs (clock i)).Returns plan
      () plan') (fuel : ℕ) :
    (rateLoop parameters dScenarios endTimeMs clock (fuel + 1) i plan).result =
      (rateLoop parameters dScenarios endTimeMs clock fuel (i + 1)
        plan').result := by
  rw [rateLoop, if_pos hcur, andThen_of_returns hturn]

/-- The loop leaves once the clock has come to the end of the run. -/
theorem KeepsGoing.leaves
    (hkeeps : KeepsGoing parameters dScenarios endTimeMs I) (h : I plan)
    {n : ℕ} (hend : endTimeMs ≤ clock (i + n)) :
    ∃ fuel, (rateLoop parameters dScenarios endTimeMs clock fuel i
      plan).result = .ok true := by
  induction n generalizing i plan with
  | zero =>
      rw [Nat.add_zero] at hend
      exact ⟨1, by rw [rateLoop_of_late (not_lt.mpr hend)]⟩
  | succ n ih =>
      by_cases hcur : clock i < endTimeMs
      · obtain ⟨plan', hturn, hplan'⟩ := hkeeps.turn _ _ hcur h
        have hlater : endTimeMs ≤ clock (i + 1 + n) := by
          rwa [Nat.add_assoc, Nat.add_comm 1]
        obtain ⟨fuel, hfinish⟩ := ih hplan' hlater
        exact ⟨fuel + 1, (result_of_turn hcur hturn fuel).trans hfinish⟩
      · exact ⟨1, by rw [rateLoop_of_late hcur]⟩

/-- What follows the loop: "stop clients", "stop servers" and the
unregistering of the devices, each unless an exception came before it. -/
inductive StopStages (env : Processes) (acc : Accumulators) :
    List RunEvent → Prop
  | clientsRaise {clients : List RunEvent}
      (hclients : Raises (clientTasks env acc) clients) :
      StopStages env acc clients
  | serversRaise {clients servers : List RunEvent}
      (hclients : Completes (clientTasks env acc) clients)
      (hservers : Raises (serverTasks env acc) servers) :
      StopStages env acc (clients ++ servers)
  | completes {clients servers : List RunEvent}
      (hclients : Completes (clientTasks env acc) clients)
      (hservers : Completes (serverTasks env acc) servers) :
      StopStages env acc (clients ++ (servers ++
        acc.dUnregistrations.keys.map .unregistering))

/-- The sequences of events of a run that comes to the loop, which reads
`clock`. -/
inductive ProgramRun (parameters : ℕ) (env : Processes) (acc : Accumulators)
    (endTimeMs : ℤ) (clock : ℕ → ℤ) : List RunEvent → Prop
  | raises {fuel : ℕ} {error : LoopError}
      (hloop : (programLoop parameters env acc endTimeMs clock fuel).result =
        .error error) :
      ProgramRun parameters env acc endTimeMs clock (startUp env acc)
  | stops {fuel : ℕ} {tr : List RunEvent}
      (hloop : (programLoop parameters env acc endTimeMs clock fuel).result =
        .ok true)
      (hstages : StopStages env acc tr) :
      ProgramRun parameters env acc endTimeMs clock (startUp env acc ++ tr)

variable {env : Processes} {acc : Accumulators} {tr : List RunEvent}

theorem runTrace_of_programRun (h : (registrations env acc).2 = true)
    (hrun : ProgramRun parameters env acc endTimeMs clock tr) :
    RunTrace env acc tr := by
  rcases hrun with _ | ⟨-, hclients | ⟨hclients, hservers⟩ |
    ⟨hclients, hservers⟩⟩
  · exact .loopRaises h
  · exact .clientsRaise h hclients
  · exact .serversRaise h hclients hservers
  · exact .completes h hclients hservers

theorem not_raises_of_noneRaises {tasks : List (List RunEvent)}
    (h : NoneRaises tasks) : ¬ Raises tasks tr := by
  rintro ⟨front, scn, rest, rfl, -, hmerge⟩
  have hmem : .stopRaised scn ∈ front ++ [.stopRaised scn] ++ rest := by simp
  obtain ⟨task, htask, hraised⟩ := hmerge.mem_iff.mp hmem
  exact h task htask scn hraised

end SippScen.Orchestrator
