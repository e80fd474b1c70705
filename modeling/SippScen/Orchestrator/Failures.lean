import SippScen.Orchestrator.Ranges

/-!
# Scenarios whose preparation fails

A scenario that fails or is skipped should not take part in the run.  It
leaves the accumulators alone if and only if it does not come as far as the
recording of its ports: whatever fails later, its range of ports has already
been recorded, and maybe its SIP socket, its registration and the scenario
itself.
-/

namespace SippScen.Orchestrator

open SippScen.Support Effect

variable {w : World} {run : RunConfig} {servers : Dict PyStr PyStr}
variable {e : Entry}

/-- The preparation of `e` raises or skips the scenario, at its turn after the
entries `before`. -/
def Fails (w : World) (run : RunConfig) (servers : Dict PyStr PyStr)
    (before : List Entry) (e : Entry) : Prop :=
  ∃ failure, (prepareScenario w run servers e
    (prepareScenarios w run servers before)).result = .error failure

/-- The fields of the scenario and the files it needs pass every check up to
the recording of its ports. -/
def RecordsPorts (w : World) (servers : Dict PyStr PyStr) (e : Entry) : Prop :=
  ∃ scn ms duration n offset, e.2 = some scn ∧
    Describes w servers e.1 scn ms duration n offset

theorem recordsPorts_iff :
    RecordsPorts w servers e ↔
      ∃ ms range, recordedRange w servers e = some (ms, range) := by
  obtain ⟨name, o⟩ := e
  constructor
  · rintro ⟨scn, ms, duration, n, offset, rfl, hdescribes⟩
    exact ⟨ms, _, recordedRange_eq_some_iff_describes.mpr
      ⟨duration, n, offset, hdescribes, rfl⟩⟩
  · rintro ⟨ms, range, hrecorded⟩
    obtain ⟨scn, _, rfl, -⟩ := recordedRange_eq_some_iff.mp hrecorded
    obtain ⟨duration, n, offset, hdescribes, -⟩ :=
      recordedRange_eq_some_iff_describes.mp hrecorded
    exact ⟨scn, ms, duration, n, offset, rfl, hdescribes⟩

theorem keys_prepareScenarios (w : World) (run : RunConfig)
    (servers : Dict PyStr PyStr) (config : List Entry) :
    (prepareScenarios w run servers config).acc.portRanges.keys =
      servers.keys := by
  refine forEach_invariant
    (P := fun s : Prepared => s.acc.portRanges.keys = servers.keys) ?_
    fun e _ s hs => keys_prepareScenario w run e hs
  simp [initialPrepared, Dict.keys, Dict.filterMap, Dict.filterMapEntries]

theorem ranges_ne_of_recorded {ms : PyStr} {range : PortRange}
    (before after : List Entry)
    (hrecorded : recordedRange w servers e = some (ms, range)) :
    (prepareScenarios w run servers (before ++ e :: after)).acc.portRanges ≠
      (prepareScenarios w run servers (before ++ after)).acc.portRanges := by
  intro heq
  obtain ⟨_, _, -, -, -, hms, -⟩ := recordedRange_eq_some_iff.mp hrecorded
  have hunder : rangeUnder w servers ms e = some range := by
    simp [rangeUnder, hrecorded]
  have hlists := congrArg (Dict.get? · ms) heq
  simp only [portRanges_prepareScenarios _ hms, List.filterMap_append,
    List.filterMap_cons_some hunder, Option.some.injEq] at hlists
  have hlength := congrArg List.length hlists
  simp at hlength

/-- A scenario that fails or is skipped leaves the accumulators of the whole
preparation as they are without it, if and only if it fails before its ports
are recorded. -/
theorem no_trace_iff (w : World) (run : RunConfig)
    (servers : Dict PyStr PyStr) (before after : List Entry) (e : Entry)
    (_hfails : Fails w run servers before e) :
    (prepareScenarios w run servers (before ++ e :: after)).acc =
        (prepareScenarios w run servers (before ++ after)).acc ↔
      ¬ RecordsPorts w servers e := by
  constructor
  · rintro heq hrecords
    obtain ⟨ms, range, hrecorded⟩ := recordsPorts_iff.mp hrecords
    exact ranges_ne_of_recorded before after hrecorded
      (congrArg Accumulators.portRanges heq)
  · intro hrecords
    have hrecorded : recordedRange w servers e = none := by
      refine Option.eq_none_iff_forall_ne_some.mpr fun found hfound => ?_
      exact hrecords (recordsPorts_iff.mpr ⟨found.1, found.2, hfound⟩)
    have hkeys := keys_prepareScenarios w run servers before
    have hstep : (prepareScenario w run servers e
        (prepareScenarios w run servers before)).state =
        prepareScenarios w run servers before :=
      state_prepareScenario_of_not_recorded hkeys hrecorded
    rw [prepareScenarios] at hstep
    rw [prepareScenarios, prepareScenarios, forEach_append, forEach_cons,
      hstep, forEach_append]

/-- A world in which everything but copying a file succeeds. -/
def plainWorld : World where
  cwd := "/w".toList
  template := fun _ => some fun _ => some []
  writable := fun _ => true
  copies := fun _ _ => false
  primaryIp := some "10.0.0.1".toList

/-- A run of a minute. -/
def minuteRun : RunConfig where
  duration := "60s".toList
  receiveTimeout := .absent
  sendTimeout := .absent
  runDuration := 60000
  translates := by decide

/-- One media server. -/
def oneServer : Dict PyStr PyStr :=
  Dict.empty.set "ms1".toList "10.0.0.1:9090".toList

/-- A client with ten endpoints on the media server `ms1`. -/
def plainClient : ScenarioConfig where
  type := some "client".toList
  scenarioFile := .value "uac_template".toList
  numberEndpoints := .value 10
  cps := some ⟨"1".toList, some 1⟩
  callDuration := some "10s".toList
  totalCalls := .absent
  rtpServer := .value "ms1".toList
  rtpPortOffset := .value 20000
  sipPort := some "5060".toList
  dnStart := .value 30220117000
  localIp := .value "127.0.0.1".toList
  destination := .value "127.0.0.1:5061".toList
  callService := none
  receiveTimeout := .absent
  sendTimeout := .absent
  register := .absent
  pattern := .absent

/-- The client registers, but its file for unregistering is missing. -/
def unregisterMissing : Entry :=
  ("A".toList, some
    { plainClient with
      register := .value
        { registrar := .value "127.0.0.1:5666".toList
          registerFile := .value "register_template".toList
          unregisterFile := .value "missing".toList
          cps := none } })

/-- The preparation of the client fails, but its ports, its SIP socket and its
registration remain, and the scenario itself is not run. -/
theorem failure_leaves_trace :
    Fails plainWorld minuteRun oneServer [] unregisterMissing ∧
    (prepareScenarios plainWorld minuteRun oneServer []).acc ≠
      (prepareScenarios plainWorld minuteRun oneServer
        [unregisterMissing]).acc ∧
    (prepareScenarios plainWorld minuteRun oneServer
      [unregisterMissing]).acc.dRegistrations.keys = ["A".toList] ∧
    (prepareScenarios plainWorld minuteRun oneServer
      [unregisterMissing]).acc.sipSockets = ["127.0.0.1:5060".toList] ∧
    (prepareScenarios plainWorld minuteRun oneServer
      [unregisterMissing]).acc.dScenarios.keys = [] := by
  have hsockets : (prepareScenarios plainWorld minuteRun oneServer
      [unregisterMissing]).acc.sipSockets = ["127.0.0.1:5060".toList] := by
    decide +kernel
  refine ⟨⟨.malformed "/w/scenarios/missing".toList, by decide +kernel⟩, ?_,
    by decide +kernel, hsockets, by decide +kernel⟩
  intro heq
  rw [← heq] at hsockets
  exact absurd hsockets (by decide +kernel)

/-- A scenario whose media server does not answer is skipped without trace. -/
theorem skipped_without_trace :
    (prepareScenarios plainWorld minuteRun Dict.empty
        ([] ++ ("A".toList, some plainClient) :: [])).acc =
      (prepareScenarios plainWorld minuteRun Dict.empty ([] ++ [])).acc := by
  refine (no_trace_iff plainWorld minuteRun Dict.empty [] []
    ("A".toList, some plainClient)
    ⟨.unresponsive "ms1".toList, by decide +kernel⟩).mpr ?_
  rintro ⟨_, _, _, _, _, -, hdescribes⟩
  exact absurd hdescribes.answers (by simp [Dict.keys, Dict.empty])

end SippScen.Orchestrator
