import SippScen.Support.Effect

/-!
# Traces of computations

`Traces f m ys` says that the labels `f` of what `m` logs are `ys`, of which a
failure may leave out the end.  The rules build the trace of a computation from
those of its parts, and that of a loop, whose body is run to the end or not, from
those of the rounds.
-/

namespace SippScen.Support.Effect

variable {ε σ ω α β γ ι : Type}

/-- The labels are `ys` when `m` returns, and a prefix of `ys` in any case. -/
def Traces (f : ω → γ) (m : Effect ε σ ω α) (ys : List γ) : Prop :=
  ∀ s, (m s).log.map f <+: ys ∧
    ∀ a, (m s).result = .ok a → (m s).log.map f = ys

variable {f : ω → γ} {m : Effect ε σ ω α} {k : α → Effect ε σ ω β}
variable {p q : List γ}

theorem traces_pure (a : α) : (pure a : Effect ε σ ω α).Traces f [] :=
  fun _ => ⟨List.prefix_refl _, fun _ _ => rfl⟩

theorem traces_fail (e : ε) : (fail e : Effect ε σ ω α).Traces f q :=
  fun _ => ⟨List.nil_prefix, by rintro _ ⟨⟩⟩

theorem traces_read (g : σ → α) : (read g : Effect ε σ ω α).Traces f [] :=
  fun _ => ⟨List.prefix_refl _, fun _ _ => rfl⟩

theorem traces_change (g : σ → σ) :
    (change g : Effect ε σ ω Unit).Traces f [] :=
  fun _ => ⟨List.prefix_refl _, fun _ _ => rfl⟩

theorem traces_emit (w : ω) : (emit w : Effect ε σ ω Unit).Traces f [f w] :=
  fun _ => ⟨List.prefix_refl _, fun _ _ => rfl⟩

theorem traces_lift (r : Except ε α) :
    (lift r : Effect ε σ ω α).Traces f [] :=
  fun _ => ⟨List.prefix_refl _, fun _ _ => rfl⟩

theorem traces_require (e : ε) (o : Option α) :
    (require e o : Effect ε σ ω α).Traces f [] :=
  fun _ => ⟨List.prefix_refl _, fun _ _ => rfl⟩

theorem traces_bind (hm : m.Traces f p) (hk : ∀ a, (k a).Traces f q) :
    (m >>= k).Traces f (p ++ q) := by
  intro s
  obtain ⟨hfirst, hall⟩ := hm s
  cases hresult : (m s).result with
  | error e =>
      rw [andThen_of_error hresult]
      exact ⟨hfirst.trans (List.prefix_append p q), by rintro _ ⟨⟩⟩
  | ok a =>
      have hreturns : m.Returns s a (m s).state := ⟨hresult, rfl⟩
      obtain ⟨hfirst', hall'⟩ := hk a (m s).state
      rw [andThen_of_returns hreturns]
      simp only [List.map_append, hall a hresult]
      exact ⟨(List.prefix_append_right_inj p).mpr hfirst',
        fun b hb => by rw [hall' b hb]⟩

/-- The first part logs nothing. -/
theorem traces_bind_quiet (hm : m.Traces f []) (hk : ∀ a, (k a).Traces f q) :
    (m >>= k).Traces f q :=
  traces_bind hm hk

theorem traces_lift_bind {r : Except ε α}
    (hk : ∀ a, r = .ok a → (k a).Traces f q) :
    (lift r >>= k).Traces f q := by
  cases r with
  | error e => exact traces_fail e
  | ok a => exact hk a rfl

theorem traces_ite {c : Prop} [Decidable c] {m' : Effect ε σ ω α}
    (hm : m.Traces f q) (hm' : m'.Traces f q) :
    (if c then m else m').Traces f q := by
  split
  · exact hm
  · exact hm'

/-! ## Loops -/

variable (body : ι → Effect ε σ ω Unit)

/-- What the rounds of a loop log. -/
def logEach : List ι → σ → List ω
  | [], _ => []
  | x :: rest, s => (body x s).log ++ logEach rest (body x s).state

/-- No round fails. -/
def AllReturn : List ι → σ → Prop
  | [], _ => True
  | x :: rest, s => (body x s).result = .ok () ∧ AllReturn rest (body x s).state

variable {body} {trace : ι → List γ}

/-- The rounds that fail leave parts of the traces out. -/
theorem sublist_logEach (h : ∀ x, (body x).Traces f (trace x)) (is : List ι)
    (s : σ) : ((logEach body is s).map f).Sublist (is.flatMap trace) := by
  induction is generalizing s with
  | nil => exact List.Sublist.refl _
  | cons x rest ih =>
      rw [logEach, List.map_append, List.flatMap_cons]
      exact (h x s).1.sublist.append (ih _)

theorem logEach_of_allReturn (h : ∀ x, (body x).Traces f (trace x))
    {is : List ι} {s : σ} (hall : AllReturn body is s) :
    (logEach body is s).map f = is.flatMap trace := by
  induction is generalizing s with
  | nil => rfl
  | cons x rest ih =>
      obtain ⟨hx, hrest⟩ := hall
      rw [logEach, List.map_append, List.flatMap_cons, (h x s).2 () hx,
        ih hrest]

end SippScen.Support.Effect
