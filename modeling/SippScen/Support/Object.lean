import Mathlib.Data.List.Basic

/-!
# Objects and their implementations

An object answers calls and changes its state.  The specification of an object
is total; an implementation may fail.  If every single call of the
implementation gives the reply of the specification and keeps a simulation
relation, so does every sequence of calls.
-/

namespace SippScen.Support

variable {σ τ γ ρ : Type*}

/-- A sequence of calls on a specified object, with the replies in order. -/
def specCalls (call : τ → γ → ρ × τ) : τ → List γ → List ρ × τ
  | t, [] => ([], t)
  | t, c :: cs =>
      let (reply, t') := call t c
      let (replies, t'') := specCalls call t' cs
      (reply :: replies, t'')

/-- A sequence of calls on an implementation, with the replies in order. -/
def runCalls (call : σ → γ → Option (ρ × σ)) :
    σ → List γ → Option (List ρ × σ)
  | s, [] => some ([], s)
  | s, c :: cs => do
      let (reply, s') ← call s c
      let (replies, s'') ← runCalls call s' cs
      some (reply :: replies, s'')

/-- Every call of the implementation succeeds, gives the specified reply and
keeps the relation `R`. -/
def Implements (call : σ → γ → Option (ρ × σ)) (spec : τ → γ → ρ × τ)
    (R : σ → τ → Prop) : Prop :=
  ∀ s t c, R s t →
    ∃ s', call s c = some ((spec t c).1, s') ∧ R s' (spec t c).2

variable {call : σ → γ → Option (ρ × σ)} {spec : τ → γ → ρ × τ}
  {R : σ → τ → Prop}

theorem Implements.runCalls (h : Implements call spec R) {s : σ} {t : τ}
    (hR : R s t) (cs : List γ) :
    ∃ s', runCalls call s cs = some ((specCalls spec t cs).1, s') ∧
      R s' (specCalls spec t cs).2 := by
  induction cs generalizing s t with
  | nil => exact ⟨s, rfl, hR⟩
  | cons c cs ih =>
      obtain ⟨s', hcall, hR'⟩ := h s t c hR
      obtain ⟨s'', hcalls, hR''⟩ := ih hR'
      refine ⟨s'', ?_, hR''⟩
      simp [Support.runCalls, specCalls, hcall, hcalls]

end SippScen.Support
