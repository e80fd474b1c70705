import Mathlib.Algebra.BigOperators.Group.List.Lemmas
import Mathlib.Algebra.Order.Field.Basic
import Mathlib.Data.Rat.Cast.Order
import Mathlib.Tactic.Linarith
import Mathlib.Tactic.Ring
import Mathlib.Topology.Instances.Real.Lemmas
import Mathlib.Topology.Order.IntermediateValue
import Mathlib.Topology.Order.Monotone

/-!
# Spans of constant rate

Something arrives at a rate that is constant on each of finitely many spans of
time.  `amount spans t` is what has arrived until `t`.  How much arrives in a
window of a given length is greatest when the window starts or ends at a
boundary of a span, so that a bound for all windows can be checked.
-/

namespace SippScen.Support

/-- A span of time with a constant rate. -/
structure Span (𝕜 : Type) [Zero 𝕜] [LE 𝕜] where
  start : 𝕜
  stop : 𝕜
  rate : 𝕜
  start_le_stop : start ≤ stop
  rate_nonneg : 0 ≤ rate

section

variable {𝕜 : Type} [LinearOrder 𝕜] {t : 𝕜}

theorem exists_last_le {times : List 𝕜} (h : ∃ a ∈ times, a ≤ t) :
    ∃ a ∈ times, a ≤ t ∧ ∀ c ∈ times, c ≤ t → c ≤ a := by
  obtain ⟨a₀, hmem₀, hle₀⟩ := h
  obtain ⟨a, ha, hmax⟩ := Finset.exists_max_image
    (times.toFinset.filter (· ≤ t)) id ⟨a₀, by simp [hmem₀, hle₀]⟩
  simp only [Finset.mem_filter, List.mem_toFinset, id_eq] at ha hmax
  exact ⟨a, ha.1, ha.2, fun c hc hct => hmax c ⟨hc, hct⟩⟩

theorem exists_first_ge {times : List 𝕜} (h : ∃ b ∈ times, t ≤ b) :
    ∃ b ∈ times, t ≤ b ∧ ∀ c ∈ times, t ≤ c → b ≤ c := by
  obtain ⟨b₀, hmem₀, hle₀⟩ := h
  obtain ⟨b, hb, hmin⟩ := Finset.exists_min_image
    (times.toFinset.filter (t ≤ ·)) id ⟨b₀, by simp [hmem₀, hle₀]⟩
  simp only [Finset.mem_filter, List.mem_toFinset, id_eq] at hb hmin
  exact ⟨b, hb.1, hb.2, fun c hc htc => hmin c ⟨hc, htc⟩⟩

end

section

variable {𝕜 : Type} [Field 𝕜] [LinearOrder 𝕜]

/-- The span from `start` to `stop`, which is empty if `stop` comes before; a
negative rate counts as none. -/
def Span.between (start stop rate : 𝕜) : Span 𝕜 where
  start := start
  stop := max start stop
  rate := max 0 rate
  start_le_stop := le_max_left _ _
  rate_nonneg := le_max_left _ _

/-- What arrives in the span until `t`. -/
def Span.amount (s : Span 𝕜) (t : 𝕜) : 𝕜 :=
  s.rate * (max s.start (min s.stop t) - s.start)

/-- What arrives until `t`. -/
def amount (spans : List (Span 𝕜)) (t : 𝕜) : 𝕜 :=
  (spans.map fun s => s.amount t).sum

/-- The times at which the rate may change. -/
def boundaries (spans : List (Span 𝕜)) : List 𝕜 :=
  spans.flatMap fun s => [s.start, s.stop]

/-- No more than `n` arrives in the windows of length `d` that start or end at
a boundary. -/
def Fits (spans : List (Span 𝕜)) (d n : 𝕜) : Prop :=
  ∀ c ∈ boundaries spans,
    amount spans (c + d) - amount spans c ≤ n ∧
      amount spans c - amount spans (c - d) ≤ n

instance (spans : List (Span 𝕜)) (d n : 𝕜) : Decidable (Fits spans d n) :=
  inferInstanceAs (Decidable (∀ c ∈ boundaries spans, _))

/-- Between `a` and `b` the function is affine. -/
def AffineBetween (f : 𝕜 → 𝕜) (a b : 𝕜) : Prop :=
  ∀ t, a ≤ t → t ≤ b → (b - a) * f t = (b - t) * f a + (t - a) * f b

variable {spans : List (Span 𝕜)} {s : Span 𝕜} {a b d n t u : 𝕜}

@[simp] theorem amount_nil : amount ([] : List (Span 𝕜)) t = 0 := rfl

@[simp] theorem amount_cons :
    amount (s :: spans) t = s.amount t + amount spans t := rfl

theorem mem_boundaries {c : 𝕜} :
    c ∈ boundaries spans ↔ ∃ s ∈ spans, c = s.start ∨ c = s.stop := by
  simp [boundaries]

theorem start_mem_boundaries (h : s ∈ spans) :
    s.start ∈ boundaries spans :=
  mem_boundaries.mpr ⟨s, h, Or.inl rfl⟩

theorem stop_mem_boundaries (h : s ∈ spans) : s.stop ∈ boundaries spans :=
  mem_boundaries.mpr ⟨s, h, Or.inr rfl⟩

theorem Span.amount_of_le_start (h : t ≤ s.start) : s.amount t = 0 := by
  have hmin : min s.stop t ≤ s.start := (min_le_right _ _).trans h
  rw [Span.amount, max_eq_left hmin, sub_self, mul_zero]

theorem Span.amount_of_stop_le (h : s.stop ≤ t) :
    s.amount t = s.rate * (s.stop - s.start) := by
  rw [Span.amount, min_eq_left h, max_eq_right s.start_le_stop]

theorem Span.amount_of_mem (hstart : s.start ≤ t) (hstop : t ≤ s.stop) :
    s.amount t = s.rate * (t - s.start) := by
  rw [Span.amount, min_eq_right hstop, max_eq_right hstart]

/-- Without a boundary between `a` and `b`, what arrives in a span grows
evenly. -/
theorem Span.affine_amount (hstart : s.start ≤ a ∨ b ≤ s.start)
    (hstop : s.stop ≤ a ∨ b ≤ s.stop) : AffineBetween s.amount a b := by
  intro t hat htb
  rcases hstart with hstart | hstart
  · rcases hstop with hstop | hstop
    · rw [Span.amount_of_stop_le (hstop.trans hat),
        Span.amount_of_stop_le hstop,
        Span.amount_of_stop_le (hstop.trans (hat.trans htb))]
      ring
    · rw [Span.amount_of_mem (hstart.trans hat) (htb.trans hstop),
        Span.amount_of_mem hstart (hat.trans (htb.trans hstop)),
        Span.amount_of_mem (hstart.trans (hat.trans htb)) hstop]
      ring
  · rw [Span.amount_of_le_start (htb.trans hstart),
      Span.amount_of_le_start (hat.trans (htb.trans hstart)),
      Span.amount_of_le_start hstart]
    ring

theorem amount_of_le (h : ∀ c ∈ boundaries spans, t ≤ c) :
    amount spans t = 0 := by
  refine List.sum_eq_zero fun x hx => ?_
  obtain ⟨s, hs, rfl⟩ := List.mem_map.mp hx
  exact Span.amount_of_le_start (h _ (start_mem_boundaries hs))

/-- After all spans nothing arrives any more. -/
theorem amount_of_ge (h : ∀ c ∈ boundaries spans, c ≤ t) (htu : t ≤ u) :
    amount spans u = amount spans t := by
  refine congrArg List.sum (List.map_congr_left fun s hs => ?_)
  have hstop := h _ (stop_mem_boundaries hs)
  rw [Span.amount_of_stop_le hstop, Span.amount_of_stop_le (hstop.trans htu)]

theorem affine_amount (h : ∀ c ∈ boundaries spans, c ≤ a ∨ b ≤ c) :
    AffineBetween (amount spans) a b := by
  intro t hat htb
  induction spans with
  | nil => simp
  | cons s spans ih =>
      have hs : s ∈ s :: spans := List.mem_cons_self
      have hhead := Span.affine_amount (h _ (start_mem_boundaries hs))
        (h _ (stop_mem_boundaries hs)) t hat htb
      have htail := ih fun c hc => by
        obtain ⟨r, hr, hcr⟩ := mem_boundaries.mp hc
        exact h c (mem_boundaries.mpr ⟨r, List.mem_cons_of_mem _ hr, hcr⟩)
      simp only [amount_cons, mul_add, hhead, htail]
      ring

variable [IsStrictOrderedRing 𝕜]

theorem Span.amount_mono (s : Span 𝕜) : Monotone s.amount := by
  intro t u htu
  have hclamp : max s.start (min s.stop t) ≤ max s.start (min s.stop u) :=
    max_le_max_left _ (min_le_min_left _ htu)
  exact mul_le_mul_of_nonneg_left (sub_le_sub_right hclamp _) s.rate_nonneg

/-- A span offers no more than its rate allows in the part of it between two
times. -/
theorem Span.amount_sub_le {rate : 𝕜} (hrate : s.rate ≤ rate) (htu : t ≤ u) :
    s.amount u - s.amount t ≤
      rate * (max s.start (min s.stop u) - max s.start (min s.stop t)) := by
  have hclamp : max s.start (min s.stop t) ≤ max s.start (min s.stop u) :=
    max_le_max_left _ (min_le_min_left _ htu)
  calc s.amount u - s.amount t
      = s.rate * (max s.start (min s.stop u) - max s.start (min s.stop t)) := by
        rw [Span.amount, Span.amount]
        ring
    _ ≤ _ := mul_le_mul_of_nonneg_right hrate (sub_nonneg.mpr hclamp)

theorem amount_mono (spans : List (Span 𝕜)) : Monotone (amount spans) := by
  induction spans with
  | nil => exact monotone_const
  | cons s spans ih => exact s.amount_mono.add ih

theorem amount_nonneg (spans : List (Span 𝕜)) (t : 𝕜) :
    0 ≤ amount spans t := by
  refine List.sum_nonneg fun x hx => ?_
  obtain ⟨s, hs, rfl⟩ := List.mem_map.mp hx
  refine mul_nonneg s.rate_nonneg (sub_nonneg.mpr (le_max_left _ _))

/-! ## Windows -/

/-- Without a boundary in the windows between them, no window gets more than
the first and the last one. -/
theorem window_le_of_between (hab : a < b) (hat : a ≤ t) (htb : t ≤ b)
    (h : ∀ c ∈ boundaries spans, c ≤ a ∨ b ≤ c)
    (h' : ∀ c ∈ boundaries spans, c ≤ a + d ∨ b + d ≤ c)
    (ha : amount spans (a + d) - amount spans a ≤ n)
    (hb : amount spans (b + d) - amount spans b ≤ n) :
    amount spans (t + d) - amount spans t ≤ n := by
  have hleft := affine_amount h t hat htb
  have hright := affine_amount h' (t + d) (add_le_add_left hat d)
    (add_le_add_left htb d)
  simp only [add_sub_add_right_eq_sub] at hright
  have hpos : 0 < b - a := sub_pos.mpr hab
  refine le_of_mul_le_mul_left ?_ hpos
  -- the window at `t` is the mean of those at `a` and `b`
  calc (b - a) * (amount spans (t + d) - amount spans t)
      = (b - t) * (amount spans (a + d) - amount spans a) +
          (t - a) * (amount spans (b + d) - amount spans b) := by
        rw [mul_sub, hleft, hright]
        ring
    _ ≤ (b - t) * n + (t - a) * n :=
        add_le_add (mul_le_mul_of_nonneg_left ha (sub_nonneg.mpr htb))
          (mul_le_mul_of_nonneg_left hb (sub_nonneg.mpr hat))
    _ = (b - a) * n := by ring

/-- The starts of the windows that start or end at a boundary. -/
def windowStarts (spans : List (Span 𝕜)) (d : 𝕜) : List 𝕜 :=
  boundaries spans ++ (boundaries spans).map fun c => c - d

/-- Among all windows of a length, one that starts or ends at a boundary gets
most. -/
theorem windows_le_iff_fits (hd : 0 ≤ d) (hn : 0 ≤ n) :
    (∀ t, amount spans (t + d) - amount spans t ≤ n) ↔ Fits spans d n := by
  constructor
  · intro h c _
    have hbefore := h (c - d)
    rw [sub_add_cancel] at hbefore
    exact ⟨h c, hbefore⟩
  · intro h t
    have hstarts : ∀ a ∈ windowStarts spans d,
        amount spans (a + d) - amount spans a ≤ n := by
      intro a ha
      rcases List.mem_append.mp ha with ha | ha
      · exact (h a ha).1
      · obtain ⟨c, hc, rfl⟩ := List.mem_map.mp ha
        rw [sub_add_cancel]
        exact (h c hc).2
    by_cases hearlier : ∃ a ∈ windowStarts spans d, a ≤ t
    · by_cases hlater : ∃ b ∈ windowStarts spans d, t ≤ b
      · obtain ⟨a, ha, hat, hlast⟩ := exists_last_le hearlier
        obtain ⟨b, hb, htb, hfirst⟩ := exists_first_ge hlater
        have hapart : ∀ c ∈ windowStarts spans d, c ≤ a ∨ b ≤ c :=
          fun c hc => (le_total c t).imp (hlast c hc) (hfirst c hc)
        rcases (hat.trans htb).eq_or_lt with rfl | hab
        · obtain rfl := le_antisymm hat htb
          exact hstarts a ha
        · refine window_le_of_between hab hat htb (fun c hc => ?_)
            (fun c hc => ?_) (hstarts a ha) (hstarts b hb)
          · exact hapart c (List.mem_append_left _ hc)
          · rw [← sub_le_iff_le_add, ← le_sub_iff_add_le]
            exact hapart (c - d) (List.mem_append_right _
              (List.mem_map_of_mem hc))
      · -- all spans are over
        push Not at hlater
        rw [amount_of_ge (u := t + d) (t := t) (fun c hc =>
          (hlater c (List.mem_append_left _ hc)).le)
          (le_add_of_nonneg_right hd), sub_self]
        exact hn
    · -- no span has begun
      push Not at hearlier
      have hnone : amount spans (t + d) = 0 := amount_of_le fun c hc => by
        have hc' := hearlier (c - d)
          (List.mem_append_right _ (List.mem_map_of_mem hc))
        exact (lt_sub_iff_add_lt.mp hc').le
      rw [hnone, zero_sub]
      exact (neg_nonpos.mpr (amount_nonneg spans t)).trans hn

end

/-! ## Rational spans on the real line -/

/-- A rational span as a span of real time. -/
def Span.toReal (s : Span ℚ) : Span ℝ where
  start := s.start
  stop := s.stop
  rate := s.rate
  start_le_stop := Rat.cast_le.mpr s.start_le_stop
  rate_nonneg := Rat.cast_nonneg.mpr s.rate_nonneg

/-- What arrives until a real time. -/
noncomputable def level (spans : List (Span ℚ)) : ℝ → ℝ :=
  amount (spans.map Span.toReal)

variable {spans : List (Span ℚ)}

theorem level_cast (spans : List (Span ℚ)) (t : ℚ) :
    level spans t = (amount spans t : ℚ) := by
  induction spans with
  | nil => simp [level]
  | cons s spans ih =>
      simp only [level] at ih
      simp [level, ih, Span.amount, Span.toReal]

theorem fits_toReal {d n : ℚ} :
    Fits (spans.map Span.toReal) (d : ℝ) n ↔ Fits spans d n := by
  have hboundaries : boundaries (spans.map Span.toReal) =
      (boundaries spans).map ((↑) : ℚ → ℝ) := by
    simp [boundaries, List.flatMap_map, List.map_flatMap, Span.toReal]
  simp only [Fits, hboundaries, List.forall_mem_map]
  refine forall₂_congr fun c _ => and_congr ?_ ?_
  · have hcast := level_cast spans (c + d)
    have hcast' := level_cast spans c
    rw [Rat.cast_add] at hcast
    rw [level] at hcast hcast'
    rw [hcast, hcast', ← Rat.cast_sub, Rat.cast_le]
  · have hcast := level_cast spans (c - d)
    have hcast' := level_cast spans c
    rw [Rat.cast_sub] at hcast
    rw [level] at hcast hcast'
    rw [hcast, hcast', ← Rat.cast_sub, Rat.cast_le]

/-- A bound for all windows in real time is checked at the boundaries. -/
theorem windows_le_iff {d n : ℚ} (hd : 0 ≤ d) (hn : 0 ≤ n) :
    (∀ t : ℝ, level spans (t + d) - level spans t ≤ n) ↔ Fits spans d n := by
  rw [← fits_toReal]
  exact windows_le_iff_fits (Rat.cast_nonneg.mpr hd) (Rat.cast_nonneg.mpr hn)

theorem continuous_level (spans : List (Span ℚ)) :
    Continuous (level spans) := by
  induction spans with
  | nil => exact continuous_const
  | cons s spans ih =>
      have hclamp : Continuous fun t : ℝ =>
          max (s.start : ℝ) (min (s.stop : ℝ) t) :=
        continuous_const.max (continuous_const.min continuous_id)
      exact (continuous_const.mul (hclamp.sub continuous_const)).add ih

/-! ## Reaching a level -/

/-- `t` is the first time at which `f` reaches `x`. -/
def Reaches (f : ℝ → ℝ) (x t : ℝ) : Prop := IsLeast {t | x ≤ f t} t

variable {f : ℝ → ℝ} {a b d n s s' x y : ℝ}

/-- Before it reaches a level, a function is below it. -/
theorem Reaches.lt (h : Reaches f x s) (ht : a < s) : f a < x :=
  not_le.mp fun hle => (not_le.mpr ht) (h.2 hle)

/-- A level between two values is reached in between. -/
theorem exists_reaches (hmono : Monotone f) (hcont : Continuous f)
    (ha : f a < x) (hb : x < f b) : ∃ s, a < s ∧ s < b ∧ Reaches f x s := by
  have hafter : ∀ t, x ≤ f t → a < t := fun t ht =>
    hmono.reflect_lt (ha.trans_le ht)
  have hclosed : IsClosed {t | x ≤ f t} := isClosed_le continuous_const hcont
  have hbdd : BddBelow {t | x ≤ f t} := ⟨a, fun t ht => (hafter t ht).le⟩
  have hleast := hclosed.isLeast_csInf ⟨b, hb.le⟩ hbdd
  -- the level is attained before `b`, where it is exceeded
  obtain ⟨u, hu, hfu⟩ := intermediate_value_Icc
    (hafter b hb.le).le hcont.continuousOn ⟨ha.le, hb.le⟩
  have hub : u ≠ b := by
    rintro rfl
    exact hb.ne' hfu
  refine ⟨_, hafter _ hleast.1, ?_, hleast⟩
  exact (hleast.2 hfu.ge).trans_lt (hu.2.lt_of_ne hub)

/-- If two levels are reached within less than `d`, then some window of length
`d` gets more than what lies between them. -/
theorem exists_window_gt (hs : Reaches f x s) (hs' : y ≤ f s')
    (hxy : x + n ≤ y) (hd : s' < s + d) : ∃ t, n < f (t + d) - f t := by
  refine ⟨s' - d, ?_⟩
  have hbefore : f (s' - d) < x := hs.lt (sub_lt_iff_lt_add.mpr hd)
  rw [sub_add_cancel]
  linarith

/-- If a window of length `d` gets more than `n`, then two levels `n` apart
are reached within less than `d`. -/
theorem exists_reaches_of_window_gt (hmono : Monotone f)
    (hcont : Continuous f) (hn : 0 ≤ n) {t : ℝ}
    (h : n < f (t + d) - f t) :
    ∃ x s s', f t < x ∧ Reaches f x s ∧ Reaches f (x + n) s' ∧ s ≤ s' ∧
      s' < s + d := by
  obtain ⟨x, hx, hx'⟩ := exists_between (lt_sub_comm.mp h)
  have hlast : x + n < f (t + d) := lt_sub_iff_add_lt.mp hx'
  have hfirst : x < f (t + d) := by linarith
  obtain ⟨s, hts, -, hs⟩ := exists_reaches hmono hcont hx hfirst
  obtain ⟨s', -, hs't, hs'⟩ :=
    exists_reaches hmono hcont (hx.trans_le (le_add_of_nonneg_right hn)) hlast
  refine ⟨x, s, s', hx, hs, hs', hs.2 ?_, ?_⟩
  · exact (le_add_of_nonneg_right hn).trans hs'.1
  · linarith

end SippScen.Support
