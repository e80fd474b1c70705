import Mathlib.Data.List.Basic

/-!
# Computations that may fail and keep their effects

A computation acts on a state, appends to a log and either returns a value or
fails.  A failure does not undo the changes made before it, as with an
exception that is caught by an enclosing loop.  A property that a computation
preserves holds after it, whether it failed or not.
-/

namespace SippScen.Support

/-- How a computation ends: its result, the state and what it logged. -/
structure Outcome (ε σ ω α : Type) where
  result : Except ε α
  state : σ
  log : List ω

/-- A computation with failures `ε`, state `σ` and log entries `ω`. -/
def Effect (ε σ ω α : Type) : Type := σ → Outcome ε σ ω α

namespace Effect

variable {ε σ ω α β ι τ : Type}

/-- Return a value. -/
def ret (a : α) : Effect ε σ ω α := fun s => ⟨.ok a, s, []⟩

/-- Continue with the value of `m`, unless it failed. -/
def andThen (m : Effect ε σ ω α) (k : α → Effect ε σ ω β) :
    Effect ε σ ω β := fun s =>
  match (m s).result with
  | .error e => ⟨.error e, (m s).state, (m s).log⟩
  | .ok a =>
      let r := k a (m s).state
      ⟨r.result, r.state, (m s).log ++ r.log⟩

instance : Monad (Effect ε σ ω) where
  pure := ret
  bind := andThen

/-- Fail. -/
def fail (e : ε) : Effect ε σ ω α := fun s => ⟨.error e, s, []⟩

/-- Read the state. -/
def read (f : σ → α) : Effect ε σ ω α := fun s => ⟨.ok (f s), s, []⟩

/-- Change the state. -/
def change (f : σ → σ) : Effect ε σ ω Unit := fun s => ⟨.ok (), f s, []⟩

/-- Append to the log. -/
def emit (w : ω) : Effect ε σ ω Unit := fun s => ⟨.ok (), s, [w]⟩

/-- A computation without effects on state and log. -/
def lift (r : Except ε α) : Effect ε σ ω α := fun s => ⟨r, s, []⟩

/-- The value of an option; its absence is the failure `e`. -/
def require (e : ε) (o : Option α) : Effect ε σ ω α :=
  lift (o.elim (.error e) .ok)

variable {m : Effect ε σ ω α} {k : α → Effect ε σ ω β} {s : σ} {b : β}

/-- The computation returns in `s` the value `a` and ends in the state
`t`. -/
def Returns (m : Effect ε σ ω α) (s : σ) (a : α) (t : σ) : Prop :=
  (m s).result = .ok a ∧ (m s).state = t

theorem andThen_of_returns {a : α} {t : σ} (h : m.Returns s a t) :
    (m >>= k) s =
      ⟨(k a t).result, (k a t).state, (m s).log ++ (k a t).log⟩ := by
  obtain ⟨hresult, hstate⟩ := h
  change andThen m k s = _
  simp only [andThen, hresult, hstate]

theorem andThen_of_error {e : ε} (h : (m s).result = .error e) :
    (m >>= k) s = ⟨.error e, (m s).state, (m s).log⟩ := by
  change andThen m k s = _
  simp only [andThen, h]

@[simp] theorem read_bind {f : σ → α} : (read f >>= k) s = k (f s) s := rfl

theorem return_bind {a : α} :
    ((pure a : Effect ε σ ω α) >>= k) s = k a s := rfl

theorem fail_bind {e : ε} :
    ((fail e : Effect ε σ ω α) >>= k) s = ⟨.error e, s, []⟩ := rfl

theorem change_bind {f : σ → σ} {k : Unit → Effect ε σ ω β} :
    (change f >>= k) s = k () (f s) := rfl

@[simp] theorem lift_ok_bind {a : α} : (lift (.ok a) >>= k) s = k a s := rfl

@[simp] theorem lift_error_bind {e : ε} :
    (lift (.error e) >>= k) s = ⟨.error e, s, []⟩ := rfl

@[simp] theorem require_some_bind {e : ε} {a : α} :
    (require e (some a) >>= k) s = k a s := rfl

@[simp] theorem require_none_bind {e : ε} :
    (require e none >>= k) s = ⟨.error e, s, []⟩ := rfl

theorem returns_bind {t : σ} :
    (m >>= k).Returns s b t ↔
      ∃ a u, m.Returns s a u ∧ (k a).Returns u b t := by
  constructor
  · intro h
    cases hm : (m s).result with
    | error e =>
        rw [Returns, andThen_of_error hm] at h
        exact absurd h.1 (by simp)
    | ok a =>
        rw [Returns, andThen_of_returns ⟨hm, rfl⟩] at h
        exact ⟨a, (m s).state, ⟨hm, rfl⟩, h⟩
  · rintro ⟨a, u, hm, hk⟩
    rw [Returns, andThen_of_returns hm]
    exact hk

@[simp] theorem returns_pure {a c : α} {t : σ} :
    (pure a : Effect ε σ ω α).Returns s c t ↔ a = c ∧ s = t := by
  change (Except.ok a = Except.ok c ∧ s = t) ↔ _
  simp

@[simp] theorem returns_fail {e : ε} {a : α} {t : σ} :
    (fail e : Effect ε σ ω α).Returns s a t ↔ False := by
  simp [Returns, fail]

@[simp] theorem returns_read {f : σ → α} {a : α} {t : σ} :
    (read f : Effect ε σ ω α).Returns s a t ↔ f s = a ∧ s = t := by
  simp [Returns, read]

@[simp] theorem returns_change {f : σ → σ} {a : Unit} {t : σ} :
    (change f : Effect ε σ ω Unit).Returns s a t ↔ f s = t := by
  simp [Returns, change]

@[simp] theorem returns_emit {w : ω} {a : Unit} {t : σ} :
    (emit w : Effect ε σ ω Unit).Returns s a t ↔ s = t := by
  simp [Returns, emit]

@[simp] theorem returns_lift {r : Except ε α} {a : α} {t : σ} :
    (lift r : Effect ε σ ω α).Returns s a t ↔ r = .ok a ∧ s = t := by
  simp [Returns, lift]

@[simp] theorem returns_require {e : ε} {o : Option α} {a : α} {t : σ} :
    (require e o : Effect ε σ ω α).Returns s a t ↔ o = some a ∧ s = t := by
  cases o <;> simp [require]

/-! ## What a computation logs -/

/-- The computation returns in `s` the value `a`, ends in the state `t` and logs
`l`. -/
def Yields (m : Effect ε σ ω α) (s : σ) (a : α) (t : σ) (l : List ω) : Prop :=
  m s = ⟨.ok a, t, l⟩

variable {l : List ω}

theorem Yields.returns {a : α} {t : σ} (h : m.Yields s a t l) :
    m.Returns s a t := by
  rw [Returns, h]
  exact ⟨rfl, rfl⟩

theorem bind_of_yields {a : α} {t : σ} (h : m.Yields s a t l) :
    (m >>= k) s = ⟨(k a t).result, (k a t).state, l ++ (k a t).log⟩ := by
  rw [andThen_of_returns h.returns, h]

theorem yields_bind {t : σ} :
    (m >>= k).Yields s b t l ↔
      ∃ a u l₁ l₂, m.Yields s a u l₁ ∧ (k a).Yields u b t l₂ ∧
        l₁ ++ l₂ = l := by
  constructor
  · intro h
    obtain ⟨a, u, hm, hk⟩ := returns_bind.mp h.returns
    refine ⟨a, u, (m s).log, (k a u).log, ?_, ?_, ?_⟩
    · rw [Yields, ← hm.1, ← hm.2]
    · rw [Yields, ← hk.1, ← hk.2]
    · rw [Yields, andThen_of_returns hm] at h
      exact congrArg Outcome.log h
  · rintro ⟨a, u, l₁, l₂, hm, hk, rfl⟩
    rw [Yields, bind_of_yields hm, hk]

/-- Returning a value after `m` changes nothing more. -/
theorem bind_pure_spec (m : Effect ε σ ω α) (b : β) (s : σ) :
    ((m >>= fun _ => pure b) s).state = (m s).state ∧
      ((m >>= fun _ => pure b) s).log = (m s).log := by
  cases hr : (m s).result with
  | error e =>
      rw [andThen_of_error hr]
      exact ⟨rfl, rfl⟩
  | ok a =>
      rw [andThen_of_returns ⟨hr, rfl⟩]
      exact ⟨rfl, List.append_nil _⟩

@[simp] theorem yields_pure {a c : α} {t : σ} :
    (pure a : Effect ε σ ω α).Yields s c t l ↔ a = c ∧ s = t ∧ [] = l := by
  change (⟨.ok a, s, []⟩ : Outcome ε σ ω α) = ⟨.ok c, t, l⟩ ↔ _
  simp

@[simp] theorem not_yields_fail {e : ε} {a : α} {t : σ} :
    ¬ (fail e : Effect ε σ ω α).Yields s a t l := by
  simp [Yields, fail]

@[simp] theorem yields_read {f : σ → α} {a : α} {t : σ} :
    (read f : Effect ε σ ω α).Yields s a t l ↔ f s = a ∧ s = t ∧ [] = l := by
  simp [Yields, read]

@[simp] theorem yields_change {f : σ → σ} {a : Unit} {t : σ} :
    (change f : Effect ε σ ω Unit).Yields s a t l ↔ f s = t ∧ [] = l := by
  simp [Yields, change]

@[simp] theorem yields_emit {w : ω} {a : Unit} {t : σ} :
    (emit w : Effect ε σ ω Unit).Yields s a t l ↔ s = t ∧ [w] = l := by
  simp [Yields, emit]

/-! ## What a computation preserves -/

/-- The property `P` of the state holds after the computation if it holds
before, also when the computation fails. -/
def Preserves (P : σ → Prop) (m : Effect ε σ ω α) : Prop :=
  ∀ s, P s → P (m s).state

variable {P : σ → Prop}

theorem preserves_pure (a : α) : (pure a : Effect ε σ ω α).Preserves P :=
  fun _ h => h

theorem preserves_fail (e : ε) : (fail e : Effect ε σ ω α).Preserves P :=
  fun _ h => h

theorem preserves_read (f : σ → α) :
    (read f : Effect ε σ ω α).Preserves P :=
  fun _ h => h

theorem preserves_emit (w : ω) : (emit w : Effect ε σ ω Unit).Preserves P :=
  fun _ h => h

theorem preserves_lift (r : Except ε α) :
    (lift r : Effect ε σ ω α).Preserves P :=
  fun _ h => h

theorem preserves_require (e : ε) (o : Option α) :
    (require e o : Effect ε σ ω α).Preserves P :=
  fun _ h => h

theorem preserves_change {f : σ → σ} (h : ∀ s, P s → P (f s)) :
    (change f : Effect ε σ ω Unit).Preserves P :=
  h

theorem preserves_bind (hm : m.Preserves P) (hk : ∀ a, (k a).Preserves P) :
    (m >>= k).Preserves P := by
  intro s hs
  cases hr : (m s).result with
  | error e =>
      rw [andThen_of_error hr]
      exact hm s hs
  | ok a =>
      rw [andThen_of_returns ⟨hr, rfl⟩]
      exact hk a _ (hm s hs)

/-- What follows may use that its argument was returned. -/
theorem preserves_bind_of_returns (hm : m.Preserves P)
    (hk : ∀ a, (∃ s t, m.Returns s a t) → (k a).Preserves P) :
    (m >>= k).Preserves P := by
  intro s hs
  cases hr : (m s).result with
  | error e =>
      rw [andThen_of_error hr]
      exact hm s hs
  | ok a =>
      rw [andThen_of_returns ⟨hr, rfl⟩]
      exact hk a ⟨s, _, hr, rfl⟩ _ (hm s hs)

/-- What follows a computed value may use how it was computed. -/
theorem preserves_lift_bind {r : Except ε α}
    (hk : ∀ a, r = .ok a → (k a).Preserves P) :
    (lift r >>= k).Preserves P := by
  intro s hs
  cases hr : r with
  | error e =>
      rw [andThen_of_error (e := e) rfl]
      exact hs
  | ok a =>
      rw [andThen_of_returns (a := a) (t := s) ⟨rfl, rfl⟩]
      exact hk a hr s hs

theorem preserves_ite {c : Prop} [Decidable c] {m' : Effect ε σ ω α}
    (hm : m.Preserves P) (hm' : m'.Preserves P) :
    (if c then m else m').Preserves P := by
  split
  · exact hm
  · exact hm'

/-- If `m` fails, so does what continues it. -/
theorem state_bind_of_error {e : ε} (h : (m s).result = .error e) :
    ((m >>= k) s).state = (m s).state := by
  rw [andThen_of_error h]

theorem state_bind_of_returns {a : α} {t : σ} (h : m.Returns s a t) :
    ((m >>= k) s).state = (k a t).state := by
  rw [andThen_of_returns h]

theorem mem_log_bind_left {x : ω} (h : x ∈ (m s).log) :
    x ∈ ((m >>= k) s).log := by
  cases hr : (m s).result with
  | error e => rwa [andThen_of_error hr]
  | ok a =>
      rw [andThen_of_returns ⟨hr, rfl⟩]
      exact List.mem_append_left _ h

theorem mem_log_bind_right {x : ω} {a : α} {t : σ} (hm : m.Returns s a t)
    (h : x ∈ (k a t).log) : x ∈ ((m >>= k) s).log := by
  rw [andThen_of_returns hm]
  exact List.mem_append_right _ h

/-! ## Computations that only log -/

/-- The computation leaves the state alone, and everything it logs meets `Q`,
whether it fails or not. -/
def OnlyLogs (Q : ω → Prop) (m : Effect ε σ ω α) : Prop :=
  ∀ s, (m s).state = s ∧ ∀ w ∈ (m s).log, Q w

variable {Q : ω → Prop}

theorem onlyLogs_pure (a : α) : (pure a : Effect ε σ ω α).OnlyLogs Q :=
  fun _ => ⟨rfl, fun _ hw => absurd hw List.not_mem_nil⟩

theorem onlyLogs_fail (e : ε) : (fail e : Effect ε σ ω α).OnlyLogs Q :=
  fun _ => ⟨rfl, fun _ hw => absurd hw List.not_mem_nil⟩

theorem onlyLogs_read (f : σ → α) : (read f : Effect ε σ ω α).OnlyLogs Q :=
  fun _ => ⟨rfl, fun _ hw => absurd hw List.not_mem_nil⟩

theorem onlyLogs_emit {w : ω} (h : Q w) :
    (emit w : Effect ε σ ω Unit).OnlyLogs Q :=
  fun _ => ⟨rfl, fun _ hw => List.mem_singleton.mp hw ▸ h⟩

theorem onlyLogs_bind (hm : m.OnlyLogs Q) (hk : ∀ a, (k a).OnlyLogs Q) :
    (m >>= k).OnlyLogs Q := by
  intro s
  obtain ⟨hstate, hlog⟩ := hm s
  cases hr : (m s).result with
  | error e =>
      rw [andThen_of_error hr]
      exact ⟨hstate, hlog⟩
  | ok a =>
      obtain ⟨hstate', hlog'⟩ := hk a s
      rw [andThen_of_returns ⟨hr, hstate⟩]
      refine ⟨hstate', fun w hw => ?_⟩
      exact (List.mem_append.mp hw).elim (hlog w) (hlog' w)

/-! ## A loop that catches the failures of its body -/

/-- The state after running `body` on every element, going on after a
failure. -/
def forEach (body : ι → Effect ε σ ω Unit) (xs : List ι) (s : σ) : σ :=
  xs.foldl (fun t x => (body x t).state) s

variable {body : ι → Effect ε σ ω Unit} {xs ys : List ι} {x : ι}

@[simp] theorem forEach_nil : forEach body [] s = s := rfl

@[simp] theorem forEach_cons :
    forEach body (x :: xs) s = forEach body xs (body x s).state := rfl

@[simp] theorem forEach_append :
    forEach body (xs ++ ys) s = forEach body ys (forEach body xs s) :=
  List.foldl_append

/-- A state property kept by every run of the body holds after the loop. -/
theorem forEach_invariant {P : σ → Prop} (hinit : P s)
    (hstep : ∀ x ∈ xs, ∀ t, P t → P (body x t).state) :
    P (forEach body xs s) := by
  induction xs generalizing s with
  | nil => exact hinit
  | cons x xs ih =>
      exact ih (hstep x List.mem_cons_self s hinit) fun y hy =>
        hstep y (List.mem_cons_of_mem x hy)

end Effect

end SippScen.Support
