import SippScen.Support.Effect

/-!
# Weakest preconditions of computations that may fail

`wp m Q E l s` says that `m`, started in the state `s` after the log `l`, meets
`Q` when it returns and `E` when it fails.  Both conditions see the whole log.
The rules compute the precondition of a computation from its parts.
-/

namespace SippScen.Support.Effect

variable {ε σ ω α β : Type}

/-- The condition on log and state under which `m` ends as demanded. -/
def wp (m : Effect ε σ ω α) (Q : α → List ω → σ → Prop)
    (E : ε → List ω → σ → Prop) (l : List ω) (s : σ) : Prop :=
  (∀ a, (m s).result = .ok a → Q a (l ++ (m s).log) (m s).state) ∧
    ∀ e, (m s).result = .error e → E e (l ++ (m s).log) (m s).state

variable {m : Effect ε σ ω α} {k : α → Effect ε σ ω β} {l : List ω} {s : σ}
  {Q Q' : α → List ω → σ → Prop} {R : β → List ω → σ → Prop}
  {E E' : ε → List ω → σ → Prop}

@[simp] theorem wp_pure (a : α) :
    wp (pure a : Effect ε σ ω α) Q E l s ↔ Q a l s := by
  change (∀ b, Except.ok a = Except.ok b → Q b (l ++ []) s) ∧
    (∀ e, Except.ok a = Except.error e → E e (l ++ []) s) ↔ _
  simp

@[simp] theorem wp_fail (e : ε) :
    wp (fail e : Effect ε σ ω α) Q E l s ↔ E e l s := by
  simp [wp, fail]

@[simp] theorem wp_read (f : σ → α) :
    wp (read f : Effect ε σ ω α) Q E l s ↔ Q (f s) l s := by
  simp [wp, read]

@[simp] theorem wp_change (f : σ → σ) {Q : Unit → List ω → σ → Prop} :
    wp (change f : Effect ε σ ω Unit) Q E l s ↔ Q () l (f s) := by
  simp [wp, change, Unique.forall_iff]

@[simp] theorem wp_emit (w : ω) {Q : Unit → List ω → σ → Prop} :
    wp (emit w : Effect ε σ ω Unit) Q E l s ↔ Q () (l ++ [w]) s := by
  simp [wp, emit, Unique.forall_iff]

@[simp] theorem wp_lift (r : Except ε α) :
    wp (lift r : Effect ε σ ω α) Q E l s ↔
      (∀ a, r = .ok a → Q a l s) ∧ ∀ e, r = .error e → E e l s := by
  simp [wp, lift]

@[simp] theorem wp_require (e : ε) (o : Option α) :
    wp (require e o : Effect ε σ ω α) Q E l s ↔
      (∀ a, o = some a → Q a l s) ∧ (o = none → E e l s) := by
  cases o <;> simp [wp, require, lift]

/-- The second computation takes over the log and the state of the first. -/
@[simp] theorem wp_bind :
    wp (m >>= k) R E l s ↔ wp m (fun a => wp (k a) R E) E l s := by
  cases hm : (m s).result with
  | error e => simp [wp, andThen_of_error hm, hm]
  | ok a =>
      have hreturns : m.Returns s a (m s).state := ⟨hm, rfl⟩
      simp [wp, andThen_of_returns hreturns, hm]

theorem wp_ite {c : Prop} [Decidable c] {m' : Effect ε σ ω α} :
    wp (if c then m else m') Q E l s ↔
      (c → wp m Q E l s) ∧ (¬ c → wp m' Q E l s) := by
  by_cases hc : c <;> simp [hc]

theorem wp_mono (h : wp m Q E l s) (hQ : ∀ a l s, Q a l s → Q' a l s)
    (hE : ∀ e l s, E e l s → E' e l s) : wp m Q' E' l s :=
  ⟨fun a ha => hQ _ _ _ (h.1 a ha), fun e he => hE _ _ _ (h.2 e he)⟩

/-- Conditions proved separately hold together. -/
theorem wp_and (h : wp m Q E l s) (h' : wp m Q' E' l s) :
    wp m (fun a l s => Q a l s ∧ Q' a l s)
      (fun e l s => E e l s ∧ E' e l s) l s :=
  ⟨fun a ha => ⟨h.1 a ha, h'.1 a ha⟩, fun e he => ⟨h.2 e he, h'.2 e he⟩⟩

/-- A condition that holds however the computation ends. -/
theorem wp_end {P : List ω → σ → Prop}
    (h : wp m (fun _ => P) (fun _ => P) l s) :
    P (l ++ (m s).log) (m s).state := by
  cases hm : (m s).result with
  | ok a => exact h.1 a hm
  | error e => exact h.2 e hm

/-- What a computation preserves holds however it ends. -/
theorem Preserves.wp {P : σ → Prop} (hm : m.Preserves P) (hs : P s) :
    m.wp (fun _ _ => P) (fun _ _ => P) l s :=
  ⟨fun _ _ => hm s hs, fun _ _ => hm s hs⟩

end SippScen.Support.Effect
