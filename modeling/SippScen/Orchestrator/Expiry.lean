import Mathlib.Algebra.Order.BigOperators.Group.List
import SippScen.Orchestrator.RunLoop
import SippScen.Orchestrator.Ports

/-!
# The expiry of the registrations

The scenarios that register do so one after the other, before the scenarios
are spawned and the run begins.  All registrations ask for the expiry
`reg_expire_sec`, which adds 300 seconds to the duration of the run, whatever
the time that the registrations take.
-/

namespace SippScen.Orchestrator

open SippScen.Support Effect

/-- A scenario that registers: its number of DNs and how many it registers in
a second. -/
structure RegisterGroup where
  dns : ℕ
  cps : ℚ
deriving DecidableEq, Repr

/-- The DNs and the rate of a registration. -/
def Registration.group (r : Registration) : RegisterGroup where
  dns := (r.dnRange.2 - r.dnRange.1).toNat
  cps := r.cli.args.cps.number.getD 0

/-- The scenarios that register, in the order in which they do. -/
def registerGroups (acc : Accumulators) : List RegisterGroup :=
  acc.dRegistrations.values.map Registration.group

/-- The seconds that a scenario takes to register its DNs. -/
def RegisterGroup.seconds (g : RegisterGroup) : ℚ := g.dns / g.cps

/-- The seconds that the scenarios take to register. -/
def registerSeconds (groups : List RegisterGroup) : ℚ :=
  (groups.map RegisterGroup.seconds).sum

/-- When DN `k` of scenario `i` is registered, in seconds from the start of
the first registration. -/
def registeredAt (groups : List RegisterGroup) (i k : ℕ) (g : RegisterGroup) :
    ℚ :=
  registerSeconds (groups.take i) + k / g.cps

/-- `end_time_ms` of a run of `runDuration` milliseconds, if the registrations
start at `start` milliseconds and the spawn loop takes `spawning` seconds. -/
def endTimeMs (groups : List RegisterGroup) (start spawning : ℚ)
    (runDuration : ℕ) : ℤ :=
  runDuration + getEpochMs (start / 1000 + registerSeconds groups + spawning)

/-- DN `k` of scenario `i` expires after the end of the run. -/
def Outlives (groups : List RegisterGroup) (start spawning : ℚ)
    (runDuration i k : ℕ) (g : RegisterGroup) : Prop :=
  (endTimeMs groups start spawning runDuration : ℚ) <
    start + 1000 * (registeredAt groups i k g + regExpireSec runDuration)

/-- Every DN of every scenario expires after the end of the run, whenever the
registrations start. -/
def AllOutlive (groups : List RegisterGroup) (spawning : ℚ)
    (runDuration : ℕ) : Prop :=
  ∀ start i k g, groups[i]? = some g → k < g.dns →
    Outlives groups start spawning runDuration i k g

/-! ## What is prepared -/

/-- Every recorded registration registers the DNs of its range and asks for
the expiry of the run. -/
theorem registers_prepareScenarios (w : World) (run : RunConfig)
    (servers : Dict PyStr PyStr) (config : List Entry) :
    ∀ reg ∈ (prepareScenarios w run servers config).acc.dRegistrations.values,
      Registers w run reg := by
  refine forEach_invariant (P := fun s : Prepared =>
    ∀ reg ∈ s.acc.dRegistrations.values, Registers w run reg) ?_ ?_
  · simp [initialPrepared, Dict.empty, Dict.values]
  · intro e _ s hs
    refine (?_ : (prepareScenario w run servers e).Preserves
      fun s => ∀ reg ∈ s.acc.dRegistrations.values, Registers w run reg) s hs
    refine preserves_bind (preserves_require _ _) fun scn => ?_
    refine preserves_bind preserves_describeCall fun c => ?_
    refine preserves_bind (preserves_recordRange fun _ _ h => h) fun _ => ?_
    refine preserves_bind preserves_writePortsAndDns fun dnStart => ?_
    refine preserves_bind
      (preserves_composeRun (fun _ _ h => h) (fun _ _ h => h)) fun r => ?_
    refine preserves_bind (preserves_prepareRegister ?_ fun _ _ h => h) ?_
    · intro s reg hs hreg other hother
      rcases Dict.mem_values_set hother with rfl | hold
      · exact hreg
      · exact hs other hold
    · intro _
      refine preserves_bind (preserves_recordScenario fun _ _ h _ _ => h) ?_
      exact fun _ => preserves_recordPattern fun _ _ _ h _ _ => h

/-! ## The first and the last DN -/

variable {groups : List RegisterGroup} {start spawning : ℚ}
variable {runDuration i k : ℕ} {g : RegisterGroup}

theorem registerSeconds_nonneg (hrates : ∀ g ∈ groups, 0 < g.cps) :
    0 ≤ registerSeconds groups := by
  refine List.sum_nonneg fun x hx => ?_
  obtain ⟨g, hg, rfl⟩ := List.mem_map.mp hx
  exact div_nonneg (Nat.cast_nonneg _) (hrates g hg).le

theorem registeredAt_nonneg (hrates : ∀ g ∈ groups, 0 < g.cps)
    (hg : g ∈ groups) : 0 ≤ registeredAt groups i k g := by
  refine add_nonneg (registerSeconds_nonneg fun g hg => ?_)
    (div_nonneg (Nat.cast_nonneg _) (hrates g hg).le)
  exact hrates g (List.mem_of_mem_take hg)

theorem exists_registered_first (h : ∃ g ∈ groups, g.dns ≠ 0) :
    ∃ i g, groups[i]? = some g ∧ g.dns ≠ 0 ∧ registeredAt groups i 0 g = 0 := by
  induction groups with
  | nil => simp at h
  | cons g rest ih =>
      by_cases hdns : g.dns = 0
      · have hrest : ∃ g ∈ rest, g.dns ≠ 0 := by
          obtain ⟨g', hg', hne⟩ := h
          rcases List.mem_cons.mp hg' with rfl | hg'
          · exact absurd hdns hne
          · exact ⟨g', hg', hne⟩
        obtain ⟨i, g', hi, hne, hfirst⟩ := ih hrest
        refine ⟨i + 1, g', hi, hne, ?_⟩
        -- the empty group takes no time
        have hempty : g.seconds = 0 := by simp [RegisterGroup.seconds, hdns]
        simpa [registeredAt, registerSeconds, hempty] using hfirst
      · exact ⟨0, g, rfl, hdns, by simp [registeredAt, registerSeconds]⟩

theorem regExpireSec_eq (runDuration : ℕ) :
    1000 * regExpireSec runDuration + runDuration % 1000 =
      runDuration + 300000 := by
  simp only [regExpireSec, registrMinSec]
  omega

/-- The DN registered at the very start, at time 0, decides: the registrations
and the spawn loop must not take the time that the expiry leaves. -/
theorem outlives_at_start_iff :
    (endTimeMs groups 0 spawning runDuration : ℚ) <
        0 + 1000 * (0 + regExpireSec runDuration : ℚ) ↔
      1000 * (registerSeconds groups + spawning) + (runDuration % 1000 : ℕ) <
        300000 := by
  obtain ⟨f, hf⟩ : ∃ f, f = runDuration % 1000 := ⟨_, rfl⟩
  have hexpire := regExpireSec_eq runDuration
  have hscale : (0 / 1000 + registerSeconds groups + spawning) * 1000 =
      1000 * (registerSeconds groups + spawning) := by
    ring
  rw [endTimeMs, getEpochMs, hscale, ← hf]
  rw [← hf] at hexpire
  -- the clock is cut to milliseconds, which are integers
  calc ((runDuration + ⌊1000 * (registerSeconds groups + spawning)⌋ : ℤ) : ℚ)
        < 0 + 1000 * (0 + regExpireSec runDuration : ℚ)
      ↔ (runDuration : ℤ) + ⌊1000 * (registerSeconds groups + spawning)⌋ <
          1000 * (regExpireSec runDuration : ℤ) := by
        rw [← Int.cast_lt (R := ℚ)]
        simp
    _ ↔ ⌊1000 * (registerSeconds groups + spawning)⌋ < 300000 - (f : ℤ) := by
        omega
    _ ↔ 1000 * (registerSeconds groups + spawning) < 300000 - (f : ℚ) := by
        rw [Int.floor_lt]
        simp
    _ ↔ 1000 * (registerSeconds groups + spawning) + f < 300000 :=
        lt_sub_iff_add_lt

/-- If the registrations and the spawn loop leave time, every DN expires after
the end of the run. -/
theorem allOutlive_of_short (hrates : ∀ g ∈ groups, 0 < g.cps)
    (hshort : 1000 * (registerSeconds groups + spawning) +
      (runDuration % 1000 : ℕ) < 300000) :
    AllOutlive groups spawning runDuration := by
  intro start i k g hi _
  obtain ⟨f, hf⟩ : ∃ f, f = runDuration % 1000 := ⟨_, rfl⟩
  rw [← hf] at hshort
  have hfirst : 0 ≤ registeredAt groups i k g :=
    registeredAt_nonneg hrates (List.mem_of_getElem? hi)
  have hexpire : (1000 * regExpireSec runDuration + f : ℚ) =
      runDuration + 300000 := by
    rw [hf]
    exact_mod_cast regExpireSec_eq runDuration
  have hclock : (getEpochMs
      (start / 1000 + registerSeconds groups + spawning) : ℚ) ≤
      start + 1000 * (registerSeconds groups + spawning) := by
    refine (Int.floor_le _).trans_eq ?_
    ring
  rw [Outlives, endTimeMs]
  push_cast
  linarith

/-- The registrations outlive the run, if and only if there are none or they
take, with the spawn loop and the fraction of a second of the run, less than
300 seconds. -/
theorem registrations_outlive_iff (w : World) (run : RunConfig)
    (servers : Dict PyStr PyStr) (config : List Entry) (spawning : ℚ)
    (hrates : ∀ g ∈ registerGroups (prepareScenarios w run servers config).acc,
      0 < g.cps) :
    AllOutlive (registerGroups (prepareScenarios w run servers config).acc)
        spawning run.runDuration ↔
      (∀ g ∈ registerGroups (prepareScenarios w run servers config).acc,
        g.dns = 0) ∨
      1000 * (registerSeconds (registerGroups
          (prepareScenarios w run servers config).acc) + spawning) +
        (run.runDuration % 1000 : ℕ) < 300000 := by
  generalize registerGroups (prepareScenarios w run servers config).acc =
    groups at hrates ⊢
  constructor
  · intro h
    by_cases hnone : ∀ g ∈ groups, g.dns = 0
    · exact Or.inl hnone
    · push Not at hnone
      obtain ⟨i, g, hi, hdns, hfirst⟩ := exists_registered_first hnone
      have hoff := h 0 i 0 g hi (Nat.pos_of_ne_zero hdns)
      rw [Outlives, hfirst] at hoff
      exact Or.inr (outlives_at_start_iff.mp hoff)
  · rintro (hnone | hshort)
    · intro start i k g hi hk
      rw [hnone g (List.mem_of_getElem? hi)] at hk
      exact absurd hk (Nat.not_lt_zero k)
    · exact allOutlive_of_short hrates hshort

/-- A client whose DNs are registered at the default rate. -/
def registeringClient (endpoints : ℤ) : ScenarioConfig :=
  { plainClient with
    numberEndpoints := .value endpoints
    register := .value
      { registrar := .value "127.0.0.1:5666".toList
        registerFile := .value "register_template".toList
        unregisterFile := .absent
        cps := none } }

/-- Ten DNs are registered in a second and outlive the run. -/
theorem ten_registrations_outlive :
    AllOutlive (registerGroups (prepareScenarios plainWorld minuteRun oneServer
      [("A".toList, some (registeringClient 10))]).acc) 0
      minuteRun.runDuration := by
  have hgroups : registerGroups (prepareScenarios plainWorld minuteRun
      oneServer [("A".toList, some (registeringClient 10))]).acc =
        [⟨10, 10⟩] := by
    decide +kernel
  have hrun : minuteRun.runDuration = 60000 := rfl
  refine (registrations_outlive_iff plainWorld minuteRun oneServer _ 0
    fun g hg => ?_).mpr (Or.inr ?_)
  · rw [hgroups, List.mem_singleton] at hg
    rw [hg]
    norm_num
  · rw [hgroups, hrun]
    norm_num [registerSeconds, RegisterGroup.seconds]

/-- Four thousand DNs take 400 seconds to register, so that the first of them
has expired before a run of a minute ends. -/
theorem large_registration_expires :
    registerGroups (prepareScenarios plainWorld minuteRun oneServer
      [("A".toList, some (registeringClient 4000))]).acc = [⟨4000, 10⟩] ∧
    ¬ AllOutlive (registerGroups (prepareScenarios plainWorld minuteRun
      oneServer [("A".toList, some (registeringClient 4000))]).acc) 0
      minuteRun.runDuration := by
  have hgroups : registerGroups (prepareScenarios plainWorld minuteRun
      oneServer [("A".toList, some (registeringClient 4000))]).acc =
        [⟨4000, 10⟩] := by
    decide +kernel
  have hrun : minuteRun.runDuration = 60000 := rfl
  refine ⟨hgroups, fun hall => ?_⟩
  rw [hgroups, hrun] at hall
  have hfirst := hall 0 0 0 ⟨4000, 10⟩ rfl (by decide)
  norm_num [Outlives, endTimeMs, registeredAt, registerSeconds,
    RegisterGroup.seconds, getEpochMs, regExpireSec, registrMinSec] at hfirst

end SippScen.Orchestrator
