import SippScen.Orchestrator.Failures
import SippScen.Support.Cyclic

/-!
# Reuse of a caller

SIPp takes the lines of the files one after the other and starts again behind
the last one.  The number of lines of a client without `number-endpoints` and
`total-calls` should leave `INTERCALL_GAP_SEC` between the end of a call and
the next one with the same DN.  It is computed from the duration of a call cut
to seconds: rounding the lines up makes good for the cut only if no whole
number lies between what is computed and what is needed.
-/

namespace SippScen.Orchestrator

open SippScen.Support Effect

/-- A client whose number of lines is left to its rate and to the duration of
its calls, and which has no pattern. -/
structure SteadyClient (w : World) (servers : Dict PyStr PyStr) where
  name : PyStr
  scn : ScenarioConfig
  call : CallDescription
  cps : Scalar
  rate : ℚ
  callDuration : PyStr
  duration : ℕ
  client : scn.type = some "client".toList
  numberEndpoints : scn.numberEndpoints = .absent
  totalCalls : scn.totalCalls = .absent
  pattern : scn.pattern = .absent
  hasCps : scn.cps = some cps
  hasRate : cps.number = some rate
  positive : 0 < rate
  hasDuration : scn.callDuration = some callDuration
  reads : translateTimeSignature callDuration = some duration
  described : describedCall w servers name scn = some call

namespace SteadyClient

variable {w : World} {servers : Dict PyStr PyStr}
variable (client : SteadyClient w servers)

/-- The seconds from the start of a call to the next one on its line, as they
should be at least. -/
def gap : ℚ := client.duration / 1000 + intercallGapSec

/-- The same with the duration cut to seconds. -/
def cutGap : ℚ := (client.duration / 1000 : ℕ) + intercallGapSec

/-- The calls of the client, one every `1 / cps` seconds on the next line of
its file, leave their lines unused for long enough. -/
def ReuseGap : Prop :=
  Spaced client.call.portsFile.nPorts client.rate client.gap

theorem nPorts_eq : client.call.portsFile.nPorts = ⌈client.rate * client.cutGap⌉ :=
  nPorts_of_rate client.described client.numberEndpoints client.totalCalls
    client.hasCps client.hasRate client.hasDuration client.reads

theorem cutGap_pos : 0 < client.cutGap := by
  have hcut : (0 : ℚ) ≤ (client.duration / 1000 : ℕ) := Nat.cast_nonneg _
  rw [cutGap, intercallGapSec]
  push_cast at hcut ⊢
  linarith

/-- Calls on the same line are apart as they should be if and only if there are
as many lines as that takes. -/
theorem reuseGap_iff_le :
    client.ReuseGap ↔
      client.rate * client.gap ≤ (client.call.portsFile.nPorts : ℚ) := by
  have hlines : 0 < client.call.portsFile.nPorts := by
    rw [client.nPorts_eq, Int.ceil_pos]
    exact mul_pos client.positive client.cutGap_pos
  exact spaced_iff client.positive hlines

theorem cutGap_of_dvd (h : 1000 ∣ client.duration) :
    client.cutGap = client.gap := by
  obtain ⟨seconds, hseconds⟩ := h
  rw [cutGap, gap, hseconds, Nat.mul_div_cancel_left _ (by norm_num)]
  push_cast
  ring

end SteadyClient

/-- Calls on the same line are apart as they should be, if and only if there
are as many lines as that takes, and if and only if the rate has no whole
number between what it gives for the cut and for the true duration. -/
theorem reuse_gap_iff {w : World} {servers : Dict PyStr PyStr}
    (client : SteadyClient w servers) :
    (client.ReuseGap ↔
      client.rate * client.gap ≤ (client.call.portsFile.nPorts : ℚ)) ∧
    (client.ReuseGap ↔
      ∀ m : ℤ, ¬ (client.rate * client.cutGap ≤ m ∧
        (m : ℚ) < client.rate * client.gap)) := by
  refine ⟨client.reuseGap_iff_le, ?_⟩
  rw [client.reuseGap_iff_le, client.nPorts_eq]
  exact le_ceil_iff _ _

/-- A client with ten calls per second. -/
def tenPerSecond (callDuration : PyStr) : ScenarioConfig :=
  { plainClient with
    numberEndpoints := .absent
    cps := some ⟨"10".toList, some 10⟩
    callDuration := some callDuration }

/-- Its calls last two seconds. -/
def wholeSecondsClient : SteadyClient plainWorld oneServer where
  name := "A".toList
  scn := tenPerSecond "2s".toList
  call := ⟨some "ms1".toList, 2, 40, 20000⟩
  cps := ⟨"10".toList, some 10⟩
  rate := 10
  callDuration := "2s".toList
  duration := 2000
  client := rfl
  numberEndpoints := rfl
  totalCalls := rfl
  pattern := rfl
  hasCps := rfl
  hasRate := rfl
  positive := by norm_num
  hasDuration := rfl
  reads := by decide
  described := by decide +kernel

/-- The client has 40 lines and needs them. -/
theorem whole_seconds_reuse : wholeSecondsClient.ReuseGap := by
  refine (reuse_gap_iff wholeSecondsClient).1.mpr ?_
  have hgap : wholeSecondsClient.gap = 4 := by
    rw [← wholeSecondsClient.cutGap_of_dvd (by decide)]
    norm_num [SteadyClient.cutGap, wholeSecondsClient, intercallGapSec]
  rw [hgap]
  norm_num [wholeSecondsClient, CallDescription.portsFile]

/-- Its calls last a second and a half. -/
def shortCallsClient : SteadyClient plainWorld oneServer where
  name := "A".toList
  scn := tenPerSecond "1500ms".toList
  call := ⟨some "ms1".toList, 1, 30, 20000⟩
  cps := ⟨"10".toList, some 10⟩
  rate := 10
  callDuration := "1500ms".toList
  duration := 1500
  client := rfl
  numberEndpoints := rfl
  totalCalls := rfl
  pattern := rfl
  hasCps := rfl
  hasRate := rfl
  positive := by norm_num
  hasDuration := rfl
  reads := by decide
  described := by decide +kernel

/-- The client has 30 lines and needs 35: the first call and call 30 are on
the same line, and three seconds apart instead of three and a half. -/
theorem short_calls_reuse :
    shortCallsClient.call.portsFile.nPorts = 30 ∧
      shortCallsClient.gap = 7 / 2 ∧ ¬ shortCallsClient.ReuseGap := by
  have hgap : shortCallsClient.gap = 7 / 2 := by
    norm_num [SteadyClient.gap, shortCallsClient, intercallGapSec]
  refine ⟨rfl, hgap, fun h => ?_⟩
  have hearly := h 0 30 (by norm_num) rfl
  rw [hgap] at hearly
  exact absurd hearly (by norm_num [shortCallsClient])

end SippScen.Orchestrator
