import SippScen.Orchestrator.Stages

/-!
# The recorded port ranges

Whether a scenario records a range of ports, and which, depends on its own
fields only, not on the scenarios before it.  After the preparation every
media server has the ranges of its scenarios in the order of the
configuration.
-/

namespace SippScen.Orchestrator

open SippScen.Support Effect

variable {w : World} {run : RunConfig} {servers : Dict PyStr PyStr}
variable {s t : Prepared}

/-- The description of the calls of a scenario, if it passes its checks.  The
state that the checks run in does not matter. -/
def describedCall (w : World) (servers : Dict PyStr PyStr) (name : PyStr)
    (scn : ScenarioConfig) : Option CallDescription :=
  (describeCall w servers name scn (initialPrepared servers)).result.toOption

/-- The range of ports that is recorded for described calls. -/
def CallDescription.range (c : CallDescription) (name : PyStr) : PortRange :=
  ⟨c.portsOffset, c.portsOffset + 2 * c.nPorts - 1, name⟩

/-- The media server of an entry and the range that it records there. -/
def recordedRange (w : World) (servers : Dict PyStr PyStr) (e : Entry) :
    Option (PyStr × PortRange) := do
  let scn ← e.2
  let c ← describedCall w servers e.1 scn
  let ms ← c.ms
  if ms ∈ servers.keys then some (ms, c.range e.1) else none

variable {name ms : PyStr} {scn : ScenarioConfig} {c : CallDescription}
variable {range : PortRange} {e : Entry}

theorem describedCall_eq_some_iff (s : Prepared) :
    describedCall w servers name scn = some c ↔
      (describeCall w servers name scn).Returns s c s := by
  have hreturns : ∀ s : Prepared,
      (describeCall w servers name scn s).result.toOption = some c ↔
        (describeCall w servers name scn).Returns s c s := by
    intro s
    rw [Returns, state_describeCall]
    cases (describeCall w servers name scn s).result <;>
      simp [Except.toOption]
  rw [describedCall, hreturns, returns_describeCall, returns_describeCall]
  simp

/-- The rate decides the number of ports of a scenario that gives no
number. -/
theorem nPorts_of_rate {cps : Scalar} {rate : ℚ} {callDuration : PyStr}
    {duration : ℕ}
    (hdescribed : describedCall w servers name scn = some c)
    (hendpoints : scn.numberEndpoints = .absent)
    (hcalls : scn.totalCalls = .absent) (hcps : scn.cps = some cps)
    (hrate : cps.number = some rate)
    (hcall : scn.callDuration = some callDuration)
    (hduration : translateTimeSignature callDuration = some duration) :
    c.nPorts = portsByRate rate (duration / 1000) := by
  obtain ⟨-, _, _, timeSign, found, _, n, _, -, -, hsign, htime, -, -, hn, -,
    hc⟩ := returns_describeCall.mp ((describedCall_eq_some_iff
      (initialPrepared servers)).mp hdescribed)
  obtain rfl : callDuration = timeSign :=
    Option.some.inj (hcall.symm.trans hsign)
  obtain rfl : duration = found := Option.some.inj (hduration.symm.trans htime)
  have hscn : scn.rate = .ok rate := by
    simp [ScenarioConfig.rate, hcps, hrate]
  simp only [ScenarioConfig.nPorts, hendpoints, hcalls, hscn, Field.optional,
    bind, Except.bind, Option.filter_none, Except.ok.injEq] at hn
  rw [hc, ← hn]

theorem recordedRange_eq_some_iff :
    recordedRange w servers e = some (ms, range) ↔
      ∃ scn c, e.2 = some scn ∧ describedCall w servers e.1 scn = some c ∧
        c.ms = some ms ∧ ms ∈ servers.keys ∧ range = c.range e.1 := by
  simp only [recordedRange, Option.bind_eq_bind, Option.bind_eq_some_iff,
    Option.ite_none_right_eq_some, Option.some.injEq, Prod.mk.injEq]
  constructor
  · rintro ⟨scn, hscn, c, hc, _, hms, hmem, rfl, rfl⟩
    exact ⟨scn, c, hscn, hc, hms, hmem, rfl⟩
  · rintro ⟨scn, c, hscn, hc, hms, hmem, rfl⟩
    exact ⟨scn, hscn, c, hc, ms, hms, hmem, rfl, rfl⟩

/-- The fields decide whether a range is recorded, and which. -/
theorem recordedRange_eq_some_iff_describes :
    recordedRange w servers (name, some scn) = some (ms, range) ↔
      ∃ duration n offset,
        Describes w servers name scn ms duration n offset ∧
        range = ⟨offset, offset + 2 * n - 1, name⟩ := by
  simp only [recordedRange_eq_some_iff, Option.some.injEq,
    describedCall_eq_some_iff (initialPrepared servers), returns_describeCall]
  constructor
  · rintro ⟨_, c, rfl, ⟨-, endpoint, file, timeSign, duration, content, n,
      offset, hserver, hfile, hsign, htime, hrender, hwritable, hn, hoffset,
      hc⟩, hms, hmem, rfl⟩
    rw [hms] at hserver
    obtain ⟨hvalue, rfl⟩ := (chooseServer_eq_ok hmem).mp hserver
    refine ⟨duration, n, offset, ⟨hvalue, hmem, ⟨timeSign, hsign, htime⟩,
      ⟨file, content, hfile, hrender⟩, hwritable, hn, hoffset⟩, ?_⟩
    rw [hc]
    rfl
  · rintro ⟨duration, n, offset, ⟨hserver, hmem, ⟨timeSign, hsign, htime⟩,
      ⟨file, content, hfile, hrender⟩, hwritable, hn, hoffset⟩, rfl⟩
    refine ⟨scn, ⟨some ms, duration / 1000, n, offset⟩, rfl, ⟨trivial, _, file,
      timeSign, duration, content, n, offset, ?_, hfile, hsign, htime, hrender,
      hwritable, hn, hoffset, rfl⟩, rfl, hmem, rfl⟩
    exact (chooseServer_eq_ok hmem).mpr ⟨hserver, rfl⟩

theorem portRanges_prepareRun (s : Prepared) :
    (prepareRun w run name scn c s).state.acc.portRanges =
      s.acc.portRanges := by
  refine (?_ : (prepareRun w run name scn c).Preserves
    fun t => t.acc.portRanges = s.acc.portRanges) s rfl
  refine preserves_bind preserves_writePortsAndDns fun dnStart => ?_
  refine preserves_bind
    (preserves_composeRun (fun _ _ h => h) (fun _ _ h => h)) fun r => ?_
  refine preserves_bind
    (preserves_prepareRegister (fun _ _ h _ => h) (fun _ _ h => h)) ?_
  intro _
  refine preserves_bind (preserves_recordScenario fun _ _ h _ _ => h) ?_
  exact fun _ => preserves_recordPattern fun _ _ _ h _ _ => h

theorem portRanges_prepareScenario_of_recorded (run : RunConfig)
    {ranges : List PortRange}
    (hrecorded : recordedRange w servers e = some (ms, range))
    (hranges : s.acc.portRanges.get? ms = some ranges) :
    (prepareScenario w run servers e s).state.acc.portRanges =
      s.acc.portRanges.set ms (ranges ++ [range]) := by
  obtain ⟨name, o⟩ := e
  obtain ⟨scn, c, rfl, hc, hms, -, rfl⟩ :=
    recordedRange_eq_some_iff.mp hrecorded
  have hdescribe := (describedCall_eq_some_iff s).mp hc
  have hrecord : (recordRange name c).Returns s () _ :=
    returns_recordRange.mpr ⟨ms, ranges, hms, hranges, rfl⟩
  simp only [prepareScenario, require_some_bind]
  rw [state_bind_of_returns hdescribe, state_bind_of_returns hrecord,
    portRanges_prepareRun]
  rfl

theorem state_prepareScenario_of_not_recorded
    (hkeys : s.acc.portRanges.keys = servers.keys)
    (hrecorded : recordedRange w servers e = none) :
    (prepareScenario w run servers e s).state = s := by
  obtain ⟨name, o⟩ := e
  cases o with
  | none => simp [prepareScenario]
  | some scn =>
      simp only [prepareScenario, require_some_bind]
      cases hdescribe : (describeCall w servers name scn s).result with
      | error f => rw [state_bind_of_error hdescribe, state_describeCall]
      | ok c =>
          have hreturns : (describeCall w servers name scn).Returns s c s :=
            ⟨hdescribe, state_describeCall⟩
          rw [state_bind_of_returns hreturns]
          cases hrecord : (recordRange name c s).result with
          | error f =>
              rw [state_bind_of_error hrecord,
                state_recordRange_of_error hrecord]
          | ok u =>
              have hrange : (recordRange name c).Returns s u
                  (recordRange name c s).state := ⟨hrecord, rfl⟩
              obtain ⟨ms, ranges, hms, hranges, -⟩ :=
                returns_recordRange.mp hrange
              have hmem : ms ∈ servers.keys := by
                rw [← hkeys]
                exact Dict.mem_keys_iff.mpr ⟨ranges, hranges⟩
              have hcall : describedCall w servers name scn = some c :=
                (describedCall_eq_some_iff s).mpr hreturns
              have hsome : recordedRange w servers (name, some scn) =
                  some (ms, c.range name) :=
                recordedRange_eq_some_iff.mpr
                  ⟨scn, c, rfl, hcall, hms, hmem, rfl⟩
              rw [hrecorded] at hsome
              exact absurd hsome (by simp)

theorem keys_prepareScenario (w : World) (run : RunConfig) (e : Entry)
    (hkeys : s.acc.portRanges.keys = servers.keys) :
    (prepareScenario w run servers e s).state.acc.portRanges.keys =
      servers.keys := by
  cases hrecorded : recordedRange w servers e with
  | none => rw [state_prepareScenario_of_not_recorded hkeys hrecorded, hkeys]
  | some found =>
      obtain ⟨ms, range⟩ := found
      obtain ⟨_, _, -, -, -, hmem, -⟩ :=
        recordedRange_eq_some_iff.mp hrecorded
      rw [← hkeys] at hmem
      obtain ⟨ranges, hranges⟩ := Dict.mem_keys_iff.mp hmem
      rw [portRanges_prepareScenario_of_recorded run hrecorded hranges,
        Dict.keys_set_of_mem hmem, hkeys]

/-- The range that an entry records under the media server `ms`. -/
def rangeUnder (w : World) (servers : Dict PyStr PyStr) (ms : PyStr)
    (e : Entry) : Option PortRange :=
  match recordedRange w servers e with
  | some (server, range) => if server = ms then some range else none
  | none => none

theorem portRanges_forEach {config : List Entry} {ranges : List PortRange}
    (hkeys : s.acc.portRanges.keys = servers.keys)
    (hranges : s.acc.portRanges.get? ms = some ranges) :
    (forEach (prepareScenario w run servers) config s).acc.portRanges.get? ms =
      some (ranges ++ config.filterMap (rangeUnder w servers ms)) := by
  induction config generalizing s ranges with
  | nil => simpa using hranges
  | cons e config ih =>
      have hkeys' := keys_prepareScenario w run e hkeys
      rw [forEach_cons]
      cases hrecorded : recordedRange w servers e with
      | none =>
          have hunder : rangeUnder w servers ms e = none := by
            simp [rangeUnder, hrecorded]
          rw [state_prepareScenario_of_not_recorded hkeys hrecorded,
            ih hkeys hranges, List.filterMap_cons_none hunder]
      | some found =>
          obtain ⟨server, range⟩ := found
          by_cases hserver : server = ms
          · subst hserver
            have hunder : rangeUnder w servers server e = some range := by
              simp [rangeUnder, hrecorded]
            have hstep := portRanges_prepareScenario_of_recorded run
              hrecorded hranges
            rw [ih hkeys' (by rw [hstep, Dict.get?_set_self]),
              List.filterMap_cons_some hunder]
            simp
          · have hunder : rangeUnder w servers ms e = none := by
              simp [rangeUnder, hrecorded, hserver]
            obtain ⟨_, _, -, -, -, hmem, -⟩ :=
              recordedRange_eq_some_iff.mp hrecorded
            rw [← hkeys] at hmem
            obtain ⟨others, hothers⟩ := Dict.mem_keys_iff.mp hmem
            have hstep := portRanges_prepareScenario_of_recorded run
              hrecorded hothers
            have hne : ms ≠ server := fun h => hserver h.symm
            rw [ih hkeys' (by rw [hstep, Dict.get?_set_of_ne hne, hranges]),
              List.filterMap_cons_none hunder]

/-- After the preparation every media server has the ranges of its scenarios
in the order of the configuration. -/
theorem portRanges_prepareScenarios (config : List Entry)
    (hms : ms ∈ servers.keys) :
    (prepareScenarios w run servers config).acc.portRanges.get? ms =
      some (config.filterMap (rangeUnder w servers ms)) := by
  have hinit : (initialPrepared servers).acc.portRanges.get? ms = some [] := by
    obtain ⟨endpoint, hendpoint⟩ := Dict.mem_keys_iff.mp hms
    refine Dict.get?_eq_some_iff.mpr (Dict.mem_entries_filterMap.mpr ?_)
    exact ⟨endpoint, Dict.get?_eq_some_iff.mp hendpoint, rfl⟩
  have hkeys : (initialPrepared servers).acc.portRanges.keys =
      servers.keys := by
    simp [initialPrepared, Dict.keys, Dict.filterMap, Dict.filterMapEntries]
  exact portRanges_forEach hkeys hinit

end SippScen.Orchestrator
