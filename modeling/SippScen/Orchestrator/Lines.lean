import SippScen.Orchestrator.Rate
import SippScen.Orchestrator.Ports

/-!
# Lines for the calls of a pattern

The number of lines of a client without `number-endpoints` is computed once,
from its rate `cps` and the duration of its calls, with two seconds to spare.
The rates of its pattern do not enter into it: whether its calls keep lines of
their own depends on how many calls the pattern offers in the windows as long
as a call.
-/

namespace SippScen.Orchestrator

open SippScen.Support Effect

/-! ## Prepared clients with a pattern -/

variable {w : World} {run : RunConfig} {servers : Dict PyStr PyStr}
variable {config : List Entry} {p : Pattern}

theorem fresh_of_accepted {pattern : PatternConfig}
    (h : pattern.accepted = .ok (some p)) : p.Fresh := by
  simp only [PatternConfig.accepted, bind, Except.bind] at h
  split at h
  · simp at h
  · split at h
    · simp at h
    · split at h
      · simp at h
      · split at h
        · simp at h
        · next timepoints _ cps _ hlengths =>
            obtain rfl := Option.some.inj (Except.ok.inj h)
            exact ⟨(not_not.mp hlengths).symm, rfl⟩

theorem fresh_prepareScenarios (w : World) (run : RunConfig)
    (servers : Dict PyStr PyStr) (config : List Entry) :
    ∀ k p, (scnWPattern
        (prepareScenarios w run servers config).acc.dScenarios).get? k =
          some p → p.Fresh := by
  have hvalues : ∀ v ∈ (prepareScenarios w run servers
      config).acc.dScenarios.values, ∀ p, v.pattern = some p → p.Fresh := by
    refine forEach_invariant (P := fun s : Prepared =>
      ∀ v ∈ s.acc.dScenarios.values, ∀ p, v.pattern = some p → p.Fresh) ?_ ?_
    · simp [initialPrepared, Dict.empty, Dict.values]
    · intro e _ s hs
      refine preserves_prepareScenario (Q := fun d => ∀ v ∈ d.values,
        ∀ p, v.pattern = some p → p.Fresh)
        (fun d v hd _ hnone => ?_) (fun d v scn p hd _ _ haccepts => ?_) s hs
      · intro u hu q hq
        rcases Dict.mem_values_set hu with rfl | hold
        · simp [hnone] at hq
        · exact hd u hold q hq
      · intro u hu q hq
        rcases Dict.mem_values_set hu with rfl | hold
        · obtain rfl := Option.some.inj hq
          obtain ⟨pattern, -, haccepted⟩ := haccepts
          exact fresh_of_accepted haccepted
        · exact hd u hold q hq
  intro k p hp
  obtain ⟨v, hv, hpattern⟩ :=
    Dict.mem_entries_filterMap.mp (Dict.get?_eq_some_iff.mp hp)
  exact hvalues v (List.mem_map_of_mem (f := Prod.snd) hv) p hpattern

/-- A client of the configuration that runs with a pattern: it is prepared
without failure, its pattern is accepted, and its number of ports is left to
its rate `cps` and to the duration of its calls.  No later entry has its name,
under which the files are written. -/
structure PatternClient (w : World) (run : RunConfig)
    (servers : Dict PyStr PyStr) (config : List Entry) where
  name : PyStr
  scn : ScenarioConfig
  before : List Entry
  after : List Entry
  call : CallDescription
  cps : Scalar
  rate : ℚ
  callDuration : PyStr
  duration : ℕ
  pattern : Pattern
  listed : config = before ++ (name, some scn) :: after
  last : name ∉ after.map Prod.fst
  client : scn.type = some "client".toList
  numberEndpoints : scn.numberEndpoints = .absent
  totalCalls : scn.totalCalls = .absent
  hasCps : scn.cps = some cps
  hasRate : cps.number = some rate
  hasDuration : scn.callDuration = some callDuration
  reads : translateTimeSignature callDuration = some duration
  accepts : scn.Accepts pattern
  described : describedCall w servers name scn = some call
  prepared : (prepareScenario w run servers (name, some scn)
    (prepareScenarios w run servers before)).result = .ok ()

namespace PatternClient

variable (client : PatternClient w run servers config)

theorem writes_ports :
    (w.csvFilePorts client.name, .ports client.call.portsFile) ∈
      (prepareScenario w run servers (client.name, some client.scn)
        (prepareScenarios w run servers client.before)).log :=
  prepared_writes_ports client.described client.prepared

theorem writes_dns :
    ∃ file : DnFile, file.nPorts = client.call.nPorts ∧
      (w.csvFileDn client.name, .dn file) ∈
        (prepareScenario w run servers (client.name, some client.scn)
          (prepareScenarios w run servers client.before)).log :=
  prepared_writes_dns client.described client.prepared

theorem nPorts_eq :
    client.call.nPorts = portsByRate client.rate (client.duration / 1000) :=
  nPorts_of_rate client.described client.numberEndpoints client.totalCalls
    client.hasCps client.hasRate client.hasDuration client.reads

theorem get?_pattern :
    (scnWPattern (prepareScenarios w run servers
      config).acc.dScenarios).get? client.name = some client.pattern := by
  obtain ⟨v, hv, hpattern⟩ :=
    get?_of_prepareScenario client.prepared client.accepts
  have hlast : prepareScenarios w run servers config =
      forEach (prepareScenario w run servers) client.after
        (prepareScenario w run servers (client.name, some client.scn)
          (prepareScenarios w run servers client.before)).state :=
    calc prepareScenarios w run servers config
        = prepareScenarios w run servers (client.before ++
            (client.name, some client.scn) :: client.after) :=
          congrArg _ client.listed
      _ = _ := by simp only [prepareScenarios, forEach_append, forEach_cons]
  -- later entries have other names
  have hkept : (prepareScenarios w run servers
      config).acc.dScenarios.get? client.name = some v := by
    rw [hlast]
    refine forEach_invariant (P := fun s : Prepared =>
      s.acc.dScenarios.get? client.name = some v) hv fun e he s hs => ?_
    have hne : client.name ≠ e.1 := fun heq =>
      client.last (heq ▸ List.mem_map_of_mem he)
    refine preserves_prepareScenario
      (Q := fun d => d.get? client.name = some v)
      (fun d u hd _ _ => ?_) (fun d u scn p hd _ _ _ => ?_) s hs
    · rwa [Dict.get?_set_of_ne hne]
    · rwa [Dict.get?_set_of_ne hne]
  rw [Dict.get?_eq_some_iff] at hkept ⊢
  exact Dict.mem_entries_filterMap.mpr ⟨v, hkept, hpattern⟩

/-- The rate that SIPp is told in a run until `stop`: the client's own from
`spawn` on, and then that of each command of the loop. -/
def told (spawn : ℚ) (stop : ℤ) (sent : List RateChange) : List (Span ℚ) :=
  offered stop spawn client.rate (rates (commandsTo client.name sent))

/-- The rate that the configuration asks for in a run loop started at
`start`. -/
def asked (spawn : ℚ) (start stop : ℤ) : List (Span ℚ) :=
  offered stop spawn client.rate (client.pattern.changes start stop)

/-- The lines that the rate of the client asks for are enough for the windows
that start or end at a change of the rate. -/
def EnoughLines (spawn : ℚ) (start stop : ℤ) : Prop :=
  Fits (client.asked spawn start stop) client.duration
    (max 0 (portsByRate client.rate (client.duration / 1000)) : ℤ)

instance (spawn : ℚ) (start stop : ℤ) :
    Decidable (client.EnoughLines spawn start stop) :=
  inferInstanceAs (Decidable (Fits _ _ _))

theorem level_told {parameters : ℕ} {now : ℚ} {endTimeMs stop : ℤ}
    {st : LoopState}
    (hpace : Paceable parameters
      (prepareScenarios w run servers config).acc.dScenarios)
    (hreached : Reached parameters
      (prepareScenarios w run servers config).acc.dScenarios endTimeMs
      (initialLoop (prepareScenarios w run servers config).acc.dScenarios now)
      st)
    (hstop : stop ≤ getEpochMs st.now) (spawn : ℚ) :
    level (client.told spawn stop st.sent) =
      level (client.asked spawn (getEpochMs now) stop) := by
  have hfresh := fun k p =>
    fresh_prepareScenarios (p := p) w run servers config k
  funext t
  rw [told, level_offered_filter
      (rates_ordered hpace hfresh hreached client.name),
    rates_before hpace hfresh hreached client.get?_pattern hstop, asked]

end PatternClient

/-- The calls that `cps` offers in the duration of a call are no more than the
lines computed from it, even though the duration is cut to seconds. -/
theorem mul_le_portsByRate {cps : ℚ} (hcps : 0 ≤ cps) (duration : ℕ) :
    cps / 1000 * duration ≤ (portsByRate cps (duration / 1000) : ℤ) := by
  have hcut : (duration : ℚ) ≤ 1000 * ((duration / 1000 : ℕ) + 2) := by
    have hdecomp := Nat.div_add_mod duration 1000
    have hlt := Nat.mod_lt duration (show 0 < 1000 by norm_num)
    exact_mod_cast (show duration ≤ 1000 * (duration / 1000 + 2) by omega)
  calc cps / 1000 * duration
      ≤ cps / 1000 * (1000 * ((duration / 1000 : ℕ) + 2)) :=
        mul_le_mul_of_nonneg_left hcut (div_nonneg hcps (by norm_num))
    _ = cps * ((duration / 1000 : ℕ) + (intercallGapSec : ℚ)) := by
        simp only [intercallGapSec]
        push_cast
        ring
    _ ≤ _ := Int.le_ceil _

/-- The lines are enough for a pattern that never exceeds the rate of its
client. -/
theorem PatternClient.enoughLines_of_le
    (client : PatternClient w run servers config) {spawn : ℚ} {start : ℤ}
    (hspawn : spawn ≤ start) (hrate : 0 ≤ client.rate)
    (hcps : ∀ cps ∈ client.pattern.cps, cps.number ≤ client.rate)
    (stop : ℤ) : client.EnoughLines spawn start stop := by
  rw [EnoughLines, ← linesExclusive_iff_fits, linesExclusive_iff]
  intro t
  have hpos : (0 : ℝ) ≤ (client.rate / 1000 : ℚ) :=
    Rat.cast_nonneg.mpr (div_nonneg hrate (by norm_num))
  have hlength : (0 : ℝ) ≤ client.duration := Nat.cast_nonneg _
  have hpart : max (spawn : ℝ) (t + client.duration) ≤
      max (spawn : ℝ) t + client.duration :=
    max_le ((le_max_left _ _).trans (le_add_of_nonneg_right hlength))
      (add_le_add_left (le_max_right _ _) _)
  have hwindow : level (client.asked spawn start stop) (t + client.duration) -
      level (client.asked spawn start stop) t ≤ (client.rate / 1000 : ℚ) *
        (max (spawn : ℝ) (t + client.duration) - max (spawn : ℝ) t) :=
    level_offered_sub_le hrate le_rfl
      (fun c hc => (change_spec hcps hrate hc).2)
      (fun c hc => hspawn.trans
        (Int.cast_le.mpr (change_spec hcps hrate hc).1))
      (changes_ordered client.pattern start stop) (le_add_of_nonneg_right hlength)
  calc level (client.asked spawn start stop) (t + client.duration) -
        level (client.asked spawn start stop) t
      ≤ (client.rate / 1000 : ℚ) *
          (max (spawn : ℝ) (t + client.duration) - max (spawn : ℝ) t) :=
        hwindow
    _ ≤ (client.rate / 1000 : ℚ) * client.duration :=
        mul_le_mul_of_nonneg_left (sub_le_iff_le_add'.mpr hpart) hpos
    _ ≤ (portsByRate client.rate (client.duration / 1000) : ℤ) := by
        exact_mod_cast mul_le_portsByRate hrate client.duration
    _ ≤ _ := Int.cast_le.mpr (le_max_right _ _)

/-- Up to any moment `stop`, the calls of a client with a pattern that are alive
at once have lines of their own at the rates that the configuration asks for, if
and only if these rates leave enough lines in the windows at their changes. -/
theorem pattern_lines_exclusive_iff
    (client : PatternClient w run servers config) (spawn : ℚ)
    (start stop : ℤ) :
    LinesExclusive (client.asked spawn start stop) client.duration
        client.call.nPorts ↔
      client.EnoughLines spawn start stop := by
  rw [PatternClient.EnoughLines, ← client.nPorts_eq, linesExclusive_iff_fits]

/-- The same holds of the rates that SIPp would be told if `title` took the third
argument, up to any moment that the run has come to. -/
theorem told_lines_exclusive_iff
    (client : PatternClient w run servers config) {parameters : ℕ} {now : ℚ}
    {endTimeMs stop : ℤ} {st : LoopState}
    (hpace : Paceable parameters
      (prepareScenarios w run servers config).acc.dScenarios)
    (hreached : Reached parameters
      (prepareScenarios w run servers config).acc.dScenarios endTimeMs
      (initialLoop (prepareScenarios w run servers config).acc.dScenarios now)
      st)
    (hstop : stop ≤ getEpochMs st.now) (spawn : ℚ) :
    LinesExclusive (client.told spawn stop st.sent) client.duration
        client.call.nPorts ↔
      client.EnoughLines spawn (getEpochMs now) stop := by
  rw [PatternClient.EnoughLines, ← client.nPorts_eq,
    ← linesExclusive_iff_fits, linesExclusive_iff, linesExclusive_iff,
    client.level_told hpace hreached hstop]

/-- A client with calls of ten seconds, whose rate of one call per second is
changed after ten seconds. -/
def changingClient (cps : Number) : ScenarioConfig :=
  { plainClient with
    numberEndpoints := .absent
    pattern := .value
      { timepoints := .value [.value "10s".toList]
        cps := .value [cps]
        «repeat» := false } }

/-- The client, once it is prepared. -/
def changingPatternClient (cps : Number)
    (prepared : (prepareScenario plainWorld minuteRun oneServer
      ("A".toList, some (changingClient cps)) (prepareScenarios plainWorld
        minuteRun oneServer [])).result = .ok ())
    (described : describedCall plainWorld oneServer "A".toList
      (changingClient cps) = some ⟨some "ms1".toList, 10, 12, 20000⟩) :
    PatternClient plainWorld minuteRun oneServer
      [("A".toList, some (changingClient cps))] where
  name := "A".toList
  scn := changingClient cps
  before := []
  after := []
  call := ⟨some "ms1".toList, 10, 12, 20000⟩
  cps := ⟨"1".toList, some 1⟩
  rate := 1
  callDuration := "10s".toList
  duration := 10000
  pattern := ⟨[10000], [cps], false, false⟩
  listed := rfl
  last := List.not_mem_nil
  client := rfl
  numberEndpoints := rfl
  totalCalls := rfl
  hasCps := rfl
  hasRate := rfl
  hasDuration := rfl
  reads := by decide
  accepts := ⟨_, rfl, rfl⟩
  described := described
  prepared := prepared

/-- The client slows down to a call every two seconds. -/
def slowingClient : PatternClient plainWorld minuteRun oneServer
    [("A".toList, some (changingClient ⟨"0.5".toList, 1 / 2⟩))] :=
  changingPatternClient _ (by decide +kernel) (by decide +kernel)

/-- The client speeds up to five calls per second. -/
def hurryingClient : PatternClient plainWorld minuteRun oneServer
    [("A".toList, some (changingClient ⟨"5".toList, 5⟩))] :=
  changingPatternClient _ (by decide +kernel) (by decide +kernel)

/-- Twelve lines are enough for the client that slows down. -/
theorem slowing_lines_exclusive :
    LinesExclusive (slowingClient.asked 0 0 60000) 10000 12 :=
  (pattern_lines_exclusive_iff slowingClient 0 0 60000).mpr (by decide +kernel)

/-- Twelve lines are not enough for the client that speeds up. -/
theorem hurrying_lines_shared :
    ¬ LinesExclusive (hurryingClient.asked 0 0 60000) 10000 12 := by
  rw [linesExclusive_iff_fits]
  decide +kernel

end SippScen.Orchestrator
