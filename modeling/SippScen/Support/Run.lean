import Mathlib.Data.List.Basic
import Mathlib.Data.List.Infix
import Mathlib.Logic.Function.Basic

/-!
# Finite runs of labelled transition systems

A system is a relation `step s a t`: performing the event `a` in state `s` may
lead to state `t`.  A run records the events it performed, so that a property
may speak about the history as well as about the state reached.  A condition
on the single steps of a run is expressed by restricting the relation.
-/

namespace SippScen.Support

variable {σ α : Type*}

/-- `Run step s as t`: performing the events `as` in this order leads from
`s` to `t`. -/
inductive Run (step : σ → α → σ → Prop) (s : σ) : List α → σ → Prop
  | nil : Run step s [] s
  | snoc {as : List α} {t u : σ} {a : α} :
      Run step s as t → step t a u → Run step s (as ++ [a]) u

/-- The steps of `step` that start in a state and with an event meeting
`ok`. -/
def Restrict (step : σ → α → σ → Prop) (ok : σ → α → Prop) :
    σ → α → σ → Prop :=
  fun s a t => step s a t ∧ ok s a

/-- The relation computed by an executable step function.  The event of a step
is the action chosen, together with what the step function reports. -/
def StepOf {ω : Type*} (next : σ → α → Option (σ × ω)) :
    σ → α × ω → σ → Prop :=
  fun s e t => next s e.1 = some (t, e.2)

variable {step : σ → α → σ → Prop} {s t u : σ} {as bs : List α} {a : α}

theorem Run.single (h : step s a t) : Run step s [a] t :=
  Run.snoc Run.nil h

theorem Run.append (hfirst : Run step s as t) (hsecond : Run step t bs u) :
    Run step s (as ++ bs) u := by
  induction hsecond with
  | nil => simpa using hfirst
  | snoc _ hstep ih =>
      rw [← List.append_assoc]
      exact Run.snoc ih hstep

theorem Run.cons (h : step s a t) (hrun : Run step t bs u) :
    Run step s (a :: bs) u :=
  (Run.single h).append hrun

theorem Run.of_snoc (h : Run step s (as ++ [a]) u) :
    ∃ t, Run step s as t ∧ step t a u := by
  generalize hbs : as ++ [a] = bs at h
  cases h with
  | nil => simp at hbs
  | snoc hrun hstep =>
      obtain ⟨rfl, hlast⟩ := List.append_inj' hbs rfl
      obtain rfl := List.singleton_inj.mp hlast
      exact ⟨_, hrun, hstep⟩

theorem Run.of_append (h : Run step s (as ++ bs) u) :
    ∃ t, Run step s as t ∧ Run step t bs u := by
  induction bs using List.reverseRecOn generalizing u with
  | nil => exact ⟨u, by simpa using h, Run.nil⟩
  | append_singleton bs b ih =>
      rw [← List.append_assoc] at h
      obtain ⟨v, hrun, hlast⟩ := h.of_snoc
      obtain ⟨t, hfirst, hsecond⟩ := ih hrun
      exact ⟨t, hfirst, hsecond.snoc hlast⟩

/-- Every event of a run comes from a step. -/
theorem Run.of_mid (h : Run step s (as ++ a :: bs) u) :
    ∃ t v, Run step s as t ∧ step t a v ∧ Run step v bs u := by
  rw [List.append_cons] at h
  obtain ⟨v, hfirst, hsecond⟩ := h.of_append
  obtain ⟨t, hrun, hstep⟩ := hfirst.of_snoc
  exact ⟨t, v, hrun, hstep, hsecond⟩

/-- A run whose steps all belong to a smaller relation is a run of the larger
one. -/
theorem Run.mono {step' : σ → α → σ → Prop}
    (hsub : ∀ s a t, step s a t → step' s a t)
    (h : Run step s as t) : Run step' s as t := by
  induction h with
  | nil => exact Run.nil
  | snoc _ hstep ih => exact Run.snoc ih (hsub _ _ _ hstep)

/-- A property of history and state that holds at the start and is kept by
every step holds after every run. -/
theorem Run.history_invariant {P : List α → σ → Prop}
    (h : Run step s as t) (hinit : P [] s)
    (hstep : ∀ as t a u, P as t → step t a u → P (as ++ [a]) u) :
    P as t := by
  induction h with
  | nil => exact hinit
  | snoc _ hlast ih => exact hstep _ _ _ _ ih hlast

/-- A state property that holds at the start and is kept by every step holds
in every state reached. -/
theorem Run.invariant {P : σ → Prop}
    (h : Run step s as t) (hinit : P s)
    (hstep : ∀ t a u, P t → step t a u → P u) : P t :=
  h.history_invariant (P := fun _ t => P t) hinit
    fun _ t a u ht hlast => hstep t a u ht hlast

theorem filterMap_snoc {β : Type*} (f : α → Option β) (as : List α) (a : α) :
    (as ++ [a]).filterMap f = as.filterMap f ++ (f a).toList := by
  rw [List.filterMap_append]
  cases h : f a <;> simp [h]

/-- A component whose steps are those of another system, or none, goes through a
run of that system. -/
theorem Run.project {τ β : Type*} {step' : τ → β → τ → Prop} {f : σ → τ}
    {g : α → Option β} (h : Run step s as t)
    (hidle : ∀ s a t, step s a t → g a = none → f t = f s)
    (hmove : ∀ s a t b, step s a t → g a = some b →
      step' (f s) b (f t)) :
    Run step' (f s) (as.filterMap g) (f t) := by
  induction h with
  | nil => exact Run.nil
  | snoc _ hstep ih =>
      rename_i a _
      rw [filterMap_snoc]
      cases hg : g a with
      | none => simpa [hidle _ _ _ hstep hg] using ih
      | some b => exact Run.snoc ih (hmove _ _ _ b hstep hg)

/-- Executing a list of actions with a step function. -/
def exec {ω : Type*} (next : σ → α → Option (σ × ω)) :
    σ → List α → Option (σ × List (α × ω))
  | s, [] => some (s, [])
  | s, a :: as => (next s a).bind fun first =>
      (exec next first.1 as).map fun rest =>
        (rest.1, (a, first.2) :: rest.2)

theorem run_of_exec {ω : Type*} {next : σ → α → Option (σ × ω)}
    {es : List (α × ω)} (h : exec next s as = some (t, es)) :
    Run (StepOf next) s es t := by
  induction as generalizing s es with
  | nil =>
      obtain ⟨rfl, rfl⟩ : s = t ∧ [] = es := by simpa [exec] using h
      exact Run.nil
  | cons a as ih =>
      obtain ⟨⟨m, o⟩, hm, hrest⟩ := Option.bind_eq_some_iff.mp h
      obtain ⟨⟨u, es'⟩, hes, hlast⟩ := Option.map_eq_some_iff.mp hrest
      obtain ⟨rfl, rfl⟩ := Prod.mk.inj hlast
      exact Run.cons hm (ih hes)

theorem map_fst_of_exec {ω : Type*} {next : σ → α → Option (σ × ω)}
    {es : List (α × ω)} (h : exec next s as = some (t, es)) :
    es.map Prod.fst = as := by
  induction as generalizing s es with
  | nil =>
      obtain ⟨rfl, rfl⟩ : s = t ∧ [] = es := by simpa [exec] using h
      rfl
  | cons a as ih =>
      obtain ⟨⟨m, o⟩, hm, hrest⟩ := Option.bind_eq_some_iff.mp h
      obtain ⟨⟨u, es'⟩, hes, hlast⟩ := Option.map_eq_some_iff.mp hrest
      obtain ⟨rfl, rfl⟩ := Prod.mk.inj hlast
      rw [List.map_cons, ih hes]

theorem exists_run_of_exec {ω : Type*} (next : σ → α → Option (σ × ω)) (s : σ)
    (as : List α) (test : σ × List (α × ω) → Bool)
    (h : (exec next s as).any test = true) :
    ∃ t es, Run (StepOf next) s es t ∧ es.map Prod.fst = as ∧
      test (t, es) = true := by
  obtain ⟨⟨t, es⟩, hexec, htest⟩ := (Option.any_eq_true _ _).mp h
  exact ⟨t, es, run_of_exec hexec, map_fst_of_exec hexec, htest⟩

/-- The step function that refuses the steps which do not meet `ok`. -/
def guarded {ω : Type*} (next : σ → α → Option (σ × ω))
    (ok : σ → α × ω → Prop) [∀ s e, Decidable (ok s e)] :
    σ → α → Option (σ × ω) :=
  fun s a => (next s a).filter fun r => ok s (a, r.2)

theorem restrict_of_guarded {ω : Type*} {next : σ → α → Option (σ × ω)}
    {ok : σ → α × ω → Prop} [∀ s e, Decidable (ok s e)] {e : α × ω}
    (h : StepOf (guarded next ok) s e t) : Restrict (StepOf next) ok s e t := by
  obtain ⟨hnext, hok⟩ := Option.filter_eq_some_iff.mp h
  exact ⟨hnext, of_decide_eq_true hok⟩

/-- A guarded execution whose outcome passes a test is a run of the restricted
relation. -/
theorem exists_restricted_run_of_exec {ω : Type*}
    (next : σ → α → Option (σ × ω)) (ok : σ → α × ω → Prop)
    [∀ s e, Decidable (ok s e)] (s : σ) (as : List α)
    (test : σ × List (α × ω) → Bool)
    (h : (exec (guarded next ok) s as).any test = true) :
    ∃ t es, Run (Restrict (StepOf next) ok) s es t ∧ es.map Prod.fst = as ∧
      test (t, es) = true := by
  obtain ⟨t, es, hrun, hactions, htest⟩ := exists_run_of_exec _ s as test h
  exact ⟨t, es, hrun.mono fun _ _ _ => restrict_of_guarded, hactions, htest⟩

/-! ## Simulation -/

/-- Every step is matched, from related states, by a run with the same visible
events to related states. -/
def Simulates {τ β ω : Type*} (step : σ → α → σ → Prop)
    (step' : τ → β → τ → Prop) (visible : α → Option ω)
    (visible' : β → Option ω) (R : σ → τ → Prop) : Prop :=
  ∀ s a u t, R s t → step s a u →
    ∃ bs v, Run step' t bs v ∧
      bs.filterMap visible' = [a].filterMap visible ∧ R u v

theorem Simulates.run {τ β ω : Type*} {step' : τ → β → τ → Prop}
    {visible : α → Option ω} {visible' : β → Option ω} {R : σ → τ → Prop}
    (h : Simulates step step' visible visible' R) (hrun : Run step s as u)
    {t : τ} (hR : R s t) :
    ∃ bs v, Run step' t bs v ∧
      bs.filterMap visible' = as.filterMap visible ∧ R u v := by
  induction hrun with
  | nil => exact ⟨[], t, Run.nil, rfl, hR⟩
  | snoc _ hstep ih =>
      obtain ⟨bs, v, hbs, hsame, hv⟩ := ih
      obtain ⟨cs, w, hcs, hlast, hw⟩ := h _ _ _ _ hv hstep
      refine ⟨bs ++ cs, w, hbs.append hcs, ?_, hw⟩
      rw [List.filterMap_append, List.filterMap_append, hsame, hlast]

/-! ## Tables of processes -/

section Table

variable {ι β γ : Type*} [DecidableEq ι] {f g : ι → Option β} {i j : ι}
  {x : Option β} {y : β}

theorem eq_some_of_update (h : g = Function.update f i x) (hj : g j = some y) :
    (j = i ∧ x = some y) ∨ (j ≠ i ∧ f j = some y) := by
  rw [h] at hj
  by_cases heq : j = i
  · rw [heq, Function.update_self] at hj
    exact Or.inl ⟨heq, hj⟩
  · rw [Function.update_of_ne heq] at hj
    exact Or.inr ⟨heq, hj⟩

theorem map_update (view : β → γ) (f : ι → Option β) (i : ι) (x : Option β) :
    (fun j => (Function.update f i x j).map view) =
      Function.update (fun j => (f j).map view) i (x.map view) :=
  Function.comp_update (Option.map view) f i x

end Table

/-! ## Past events -/

/-- Some earlier event meets `P`, and every event after it meets `Q`. -/
def Since (P Q : α → Prop) (as : List α) : Prop :=
  ∃ us a vs, as = us ++ a :: vs ∧ P a ∧ ∀ v ∈ vs, Q v

variable {P Q : α → Prop}

@[simp] theorem not_since_nil : ¬ Since P Q ([] : List α) := by
  rintro ⟨us, a, vs, h, -, -⟩
  simp at h

/-- The last event either starts the interval or keeps it going. -/
theorem since_snoc_iff :
    Since P Q (as ++ [a]) ↔ P a ∨ (Since P Q as ∧ Q a) := by
  constructor
  · rintro ⟨us, b, vs, heq, hb, hvs⟩
    rcases List.eq_nil_or_concat vs with rfl | ⟨ws, c, rfl⟩
    · obtain ⟨-, hab⟩ := List.append_inj' heq rfl
      obtain rfl : a = b := by simpa using hab
      exact Or.inl hb
    · rw [List.concat_eq_append, ← List.cons_append, ← List.append_assoc]
        at heq
      obtain ⟨hpast, hlast⟩ := List.append_inj' heq rfl
      obtain rfl : a = c := by simpa using hlast
      refine Or.inr ⟨⟨us, b, ws, hpast, hb, ?_⟩, ?_⟩
      · intro v hv
        exact hvs v (by simp [hv])
      · exact hvs a (by simp)
  · rintro (ha | ⟨⟨us, b, vs, rfl, hb, hvs⟩, ha⟩)
    · exact ⟨as, a, [], rfl, ha, by simp⟩
    · refine ⟨us, b, vs ++ [a], by simp, hb, ?_⟩
      intro v hv
      rcases List.mem_append.mp hv with hv | hv
      · exact hvs v hv
      · rw [List.mem_singleton.mp hv]
        exact ha

/-- Events that neither start nor end the interval can be left out. -/
theorem since_filter {keep : α → Bool}
    (h : ∀ a, keep a = false → ¬ P a ∧ Q a) :
    Since P Q (as.filter keep) ↔ Since P Q as := by
  induction as using List.reverseRecOn with
  | nil => rfl
  | append_singleton as a ih =>
      rw [List.filter_append, since_snoc_iff]
      cases hkeep : keep a with
      | true =>
          rw [List.filter_cons_of_pos hkeep, List.filter_nil, since_snoc_iff,
            ih]
      | false =>
          obtain ⟨hP, hQ⟩ := h a hkeep
          rw [List.filter_cons_of_neg (by simp [hkeep]), List.filter_nil,
            List.append_nil, ih]
          tauto

theorem since_iff_foldl [DecidablePred P] [DecidablePred Q] :
    Since P Q as ↔
      as.foldl (fun b a => decide (P a) || (b && decide (Q a))) false = true := by
  induction as using List.reverseRecOn with
  | nil =>
      constructor
      · intro h
        exact absurd h not_since_nil
      · intro h
        cases h
  | append_singleton as a ih =>
      rw [since_snoc_iff, ih, List.foldl_append, List.foldl_cons,
        List.foldl_nil, Bool.or_eq_true, Bool.and_eq_true, decide_eq_true_iff,
        decide_eq_true_iff]

instance [DecidablePred P] [DecidablePred Q] : Decidable (Since P Q as) :=
  decidable_of_iff _ since_iff_foldl.symm

end SippScen.Support
