import Mathlib.Data.Int.ModEq
import SippScen.Orchestrator.Patterns
import SippScen.Support.Span

/-!
# The rate of the calls

SIPp starts calls at the rate of a scenario until a command of the run loop
changes it.  It takes the lines of the ports and DN files in order and begins
again after the last one, so that two calls that are alive at once share a
line as soon as more calls than lines start within the duration of a call.
-/

namespace SippScen.Orchestrator

open SippScen.Support

/-! ## The calls that SIPp starts -/

/-- The rates of a scenario that starts with `cps` calls a second at `start`
and then follows the changes, until `stop`; times are in milliseconds. -/
def offered (stop : ℚ) : ℚ → ℚ → List (ℤ × ℚ) → List (Span ℚ)
  | start, cps, [] => [.between start stop (cps / 1000)]
  | start, cps, (time, next) :: rest =>
      .between start (min time stop) (cps / 1000) ::
        offered stop time next rest

/-- Call `j` starts at time `s`: the calls offered reach its number then, and
the phase, which is how SIPp rounds. -/
def Starts (spans : List (Span ℚ)) (phase : ℝ) (j : ℕ) (s : ℝ) : Prop :=
  Reaches (level spans) (j + phase) s

/-- The line of the ports and DN files that SIPp takes for call `j`. -/
def line (nPorts : ℤ) (j : ℕ) : Option ℤ :=
  if 0 < nPorts then some (j % nPorts) else none

/-- Calls that are alive at once have lines, and different calls have
different lines, whatever the phase. -/
def LinesExclusive (spans : List (Span ℚ)) (duration : ℕ) (nPorts : ℤ) :
    Prop :=
  ∀ phase : ℝ, 0 < phase → phase ≤ 1 → ∀ i j s s',
    Starts spans phase i s → Starts spans phase j s' →
    |s' - s| < duration →
    ∃ a b, line nPorts i = some a ∧ line nPorts j = some b ∧
      (a = b → i = j)

variable {spans : List (Span ℚ)} {duration : ℕ} {nPorts : ℤ}

theorem add_le_of_line_eq {i j : ℕ} (hij : i < j)
    (h : (i : ℤ) % nPorts = j % nPorts) : i + nPorts ≤ j := by
  have hdvd : nPorts ∣ (j : ℤ) - i := Int.ModEq.dvd h
  have hle := Int.le_of_dvd (by omega) hdvd
  omega

/-- If too many calls start within their duration, two of them have the same
line, or there is none. -/
theorem exists_window_of_shared {phase s s' : ℝ} {i j : ℕ}
    (hs : Starts spans phase i s) (hs' : Starts spans phase j s')
    (hij : i ≤ j) (halive : s' - s < duration)
    (hshared : ∀ a b, line nPorts i = some a → line nPorts j = some b →
      a = b ∧ i ≠ j) :
    ∃ t : ℝ, (max 0 nPorts : ℤ) <
      level spans (t + duration) - level spans t := by
  refine exists_window_gt hs hs'.1 ?_ (by linarith)
  by_cases hn : 0 < nPorts
  · obtain ⟨hline, hne⟩ := hshared _ _ (if_pos hn) (if_pos hn)
    have hcalls : i + max 0 nPorts ≤ j := by
      rw [max_eq_right hn.le]
      exact add_le_of_line_eq (lt_of_le_of_ne hij hne) hline
    have hcast : (i : ℝ) + (max 0 nPorts : ℤ) ≤ j := by exact_mod_cast hcalls
    linarith
  · rw [max_eq_left (not_lt.mp hn)]
    have hcast : (i : ℝ) ≤ j := by exact_mod_cast hij
    simpa using hcast

theorem exists_phase {x : ℝ} (hx : 0 < x) :
    ∃ (j : ℕ) (phase : ℝ), 0 < phase ∧ phase ≤ 1 ∧ x = j + phase := by
  obtain ⟨j, hj⟩ := Nat.exists_eq_succ_of_ne_zero (Nat.ceil_pos.mpr hx).ne'
  have hlt : (j : ℝ) < x := Nat.lt_ceil.mp (by omega)
  have hle : x ≤ j + 1 := by exact_mod_cast hj ▸ Nat.le_ceil x
  exact ⟨j, x - j, by linarith, by linarith, by ring⟩

/-- If more calls than lines are offered in a window as long as a call, then
two calls that are alive at once share a line, or there is none. -/
theorem exists_shared_of_window {t : ℝ}
    (h : (max 0 nPorts : ℤ) < level spans (t + duration) - level spans t) :
    ¬ LinesExclusive spans duration nPorts := by
  intro hexclusive
  obtain ⟨m, hm⟩ := Int.eq_ofNat_of_zero_le (le_max_left 0 nPorts)
  rw [hm, Int.cast_natCast] at h
  obtain ⟨x, s, s', hx, hs, hs', hss', hnear⟩ := exists_reaches_of_window_gt
    (amount_mono _) (continuous_level spans) (Nat.cast_nonneg m) h
  obtain ⟨j, phase, hphase, hphase', rfl⟩ :=
    exists_phase ((amount_nonneg _ t).trans_lt hx)
  have hstarts : Starts spans phase (j + m) s' := by
    rw [Starts, Nat.cast_add, add_right_comm]
    exact hs'
  have halive : |s' - s| < duration := by
    rw [abs_of_nonneg (sub_nonneg.mpr hss')]
    exact sub_lt_iff_lt_add'.mpr hnear
  obtain ⟨a, b, ha, hb, hab⟩ :=
    hexclusive phase hphase hphase' j (j + m) s s' hs hstarts halive
  by_cases hn : 0 < nPorts
  · rw [line, if_pos hn, Option.some.injEq] at ha hb
    rw [max_eq_right hn.le] at hm
    have hsame : a = b := by
      rw [← ha, ← hb, Nat.cast_add, hm, Int.add_emod_right]
    have hcalls := hab hsame
    omega
  · simp [line, hn] at ha

/-- Two calls that are alive at once never share a line, if and only if no
more calls than lines are offered in any window as long as a call. -/
theorem linesExclusive_iff :
    LinesExclusive spans duration nPorts ↔
      ∀ t : ℝ, level spans (t + duration) - level spans t ≤
        (max 0 nPorts : ℤ) := by
  constructor
  · intro h t
    by_contra hwindow
    exact exists_shared_of_window (not_le.mp hwindow) h
  · intro h phase _ _ i j s s' hs hs' halive
    obtain ⟨hleft, hright⟩ := abs_lt.mp halive
    by_contra hnone
    push Not at hnone
    rcases le_total i j with hij | hij
    · obtain ⟨t, ht⟩ := exists_window_of_shared hs hs' hij hright hnone
      exact absurd (h t) (not_le.mpr ht)
    · obtain ⟨t, ht⟩ := exists_window_of_shared hs' hs hij (by linarith)
        fun a b ha hb => (hnone b a hb ha).imp Eq.symm Ne.symm
      exact absurd (h t) (not_le.mpr ht)

/-- The bound is checked at the changes of the rate. -/
theorem linesExclusive_iff_fits :
    LinesExclusive spans duration nPorts ↔
      Fits spans duration (max 0 nPorts : ℤ) := by
  have hn : (0 : ℚ) ≤ (max 0 nPorts : ℤ) := by
    exact_mod_cast le_max_left 0 nPorts
  rw [linesExclusive_iff, ← windows_le_iff (Nat.cast_nonneg duration) hn]
  simp only [Rat.cast_natCast, Rat.cast_intCast]

/-! ## The changes before a time -/

instance (p : Pattern) (n : ℕ) : Decidable (p.Due n) :=
  inferInstanceAs (Decidable (_ ∨ _))

/-- Command `n` of the pattern, as a change of the rate. -/
def Pattern.change (p : Pattern) (start : ℤ) (n : ℕ) : ℤ × ℚ :=
  (p.dueTime start n,
    (p.cps[n % p.timepoints.length]?.map Number.number).getD 0)

/-- How many cycles of the pattern may begin within `time` milliseconds. -/
def Pattern.cycles (p : Pattern) (time : ℕ) : ℕ :=
  if p.repeat then time / p.timepoints.sum + 1 else 1

/-- The changes of the pattern that are due before `stop`, in a run loop
started at `start`. -/
def Pattern.changes (p : Pattern) (start stop : ℤ) : List (ℤ × ℚ) :=
  ((List.range (p.cycles (stop - start).toNat * p.timepoints.length)).filter
    fun n => p.Due n ∧ p.dueTime start n < stop).map (p.change start)

/-- The changes of the rate that the commands make. -/
def rates (sent : List RateChange) : List (ℤ × ℚ) :=
  sent.map fun c => (c.time, c.cps.number)

theorem filter_range_eq {P : ℕ → Prop} [DecidablePred P] {a b : ℕ}
    (ha : ∀ n, P n → n < a) (hb : ∀ n, P n → n < b) :
    (List.range a).filter P = (List.range b).filter P := by
  have hle : ∀ {a b : ℕ}, a ≤ b → (∀ n, P n → n < a) →
      (List.range a).filter P = (List.range b).filter P := by
    intro a b hab ha
    obtain ⟨l, rfl⟩ := Nat.exists_eq_add_of_le hab
    have hnone : ((List.range l).map (a + ·)).filter P = [] := by
      refine List.filter_eq_nil_iff.mpr fun n hn => ?_
      obtain ⟨i, -, rfl⟩ := List.mem_map.mp hn
      simpa using fun hP => absurd (ha _ hP) (by omega)
    rw [List.range_add, List.filter_append, hnone, List.append_nil]
  rcases le_total a b with hab | hab
  · exact hle hab ha
  · exact (hle hab hb).symm

variable {parameters : ℕ} {dScenarios : Dict PyStr Scenario}
variable {start endTimeMs stop : ℤ} {st : LoopState} {k : PyStr} {p : Pattern}

theorem start_le_dueTime (p : Pattern) (start : ℤ) (n : ℕ) :
    start ≤ p.dueTime start n :=
  Int.le_add_of_nonneg_right (Int.natCast_nonneg _)

theorem lt_length_of_due {n : ℕ}
    (hpaired : ∀ k p, (scnWPattern dScenarios).get? k = some p → p.Paired)
    (h : LoopInvariant dScenarios start endTimeMs st)
    (hk : st.plan.patterns.get? k = some p)
    (hstop : stop ≤ getEpochMs st.now) (hdue : p.Due n)
    (htime : p.dueTime start n < stop) :
    n < (commandsTo k st.sent).length := by
  by_contra hlate
  have hcur := (le_dueTime_of_progress (h.paired hpaired hk)
    (h.progress k p hk) hdue (not_lt.mp hlate)).2
  omega

theorem lt_bound_of_due {n : ℕ}
    (hpaired : ∀ k p, (scnWPattern dScenarios).get? k = some p → p.Paired)
    (h : LoopInvariant dScenarios start endTimeMs st)
    (hk : st.plan.patterns.get? k = some p)
    (hstop : stop ≤ getEpochMs st.now) (hdue : p.Due n)
    (htime : p.dueTime start n < stop) :
    n < p.cycles (stop - start).toNat * p.timepoints.length := by
  have hpos := (h.paired hpaired hk).length_pos
  rcases hdue with hrepeat | hlt
  · have hsum : 0 < p.timepoints.sum := by
      by_contra hzero
      -- all commands of the cycles would be due at once
      have hnow : ∀ m, p.dueTime start m = start := by
        intro m
        have hcycle : p.timepoints.sum = 0 := by omega
        have hpart : (p.timepoints.take
            (m % p.timepoints.length + 1)).sum = 0 := by
          have hsplit := List.sum_take_add_sum_drop p.timepoints
            (m % p.timepoints.length + 1)
          omega
        simp only [Pattern.dueTime, due, hcycle, hpart, mul_zero, add_zero,
          Nat.cast_zero]
      have hnext :
          p.dueTime start (commandsTo k st.sent).length < stop := by
        rw [hnow] at htime ⊢
        exact htime
      exact absurd (lt_length_of_due hpaired h hk hstop (Or.inl hrepeat) hnext)
        (lt_irrefl _)
    have hdue : due p.timepoints n < (stop - start).toNat := by
      rw [Pattern.dueTime] at htime
      omega
    rw [Pattern.cycles, if_pos hrepeat]
    exact lt_cycles_of_due_lt hpos hsum hdue
  · have hone : 1 ≤ p.cycles (stop - start).toNat := by
      rw [Pattern.cycles]
      split
      · exact Nat.le_add_left 1 _
      · exact le_rfl
    exact hlt.trans_le (Nat.le_mul_of_pos_left _ hone)

theorem rates_commandsTo (h : LoopInvariant dScenarios start endTimeMs st)
    (hk : st.plan.patterns.get? k = some p) :
    rates (commandsTo k st.sent) =
      (List.range (commandsTo k st.sent).length).map (p.change start) := by
  refine List.ext_getElem (by simp [rates]) fun n hn _ => ?_
  have hlt : n < (commandsTo k st.sent).length := by simpa [rates] using hn
  have hsent := h.follows k p hk n hlt
  rw [List.getElem?_eq_getElem hlt, scheduled, eq_comm,
    Option.bind_eq_some_iff] at hsent
  obtain ⟨cps, hcps, hsend⟩ := hsent
  obtain ⟨v, -, hcommand⟩ := Option.bind_eq_some_iff.mp hsend
  obtain hcommand := Option.some.inj hcommand
  simp only [rates, List.getElem_map, List.getElem_range, Pattern.change,
    ← hcommand, hcps, Option.map_some, Option.getD_some]

/-- The commands sent to a scenario before a time of the run are the changes of
its pattern that are due before it. -/
theorem rates_before {now : ℚ} (hpace : Paceable parameters dScenarios)
    (hfresh : ∀ k p, (scnWPattern dScenarios).get? k = some p → p.Fresh)
    (hreached : Reached parameters dScenarios endTimeMs
      (initialLoop dScenarios now) st)
    (hk : (scnWPattern dScenarios).get? k = some p)
    (hstop : stop ≤ getEpochMs st.now) :
    ((rates (commandsTo k st.sent)).filter fun c => c.1 < stop) =
      p.changes (getEpochMs now) stop := by
  rcases reached_cases hpace hfresh hreached with rfl | ⟨hpaired, h⟩
  · -- no turn was made, and nothing is due before the start
    have hnone : p.changes (getEpochMs now) stop = [] := by
      rw [Pattern.changes, List.map_eq_nil_iff, List.filter_eq_nil_iff]
      intro n _
      have hle := start_le_dueTime p (getEpochMs now) n
      have hstop' : stop ≤ getEpochMs now := hstop
      simp only [decide_eq_true_eq, not_and]
      omega
    rw [hnone]
    rfl
  · obtain ⟨q, hq⟩ : ∃ q, st.plan.patterns.get? k = some q := by
      rw [← Dict.mem_keys_iff, h.keys]
      exact Dict.mem_keys_iff.mpr ⟨p, hk⟩
    obtain rfl : p = { q with passed := false } :=
      Option.some.inj (hk.symm.trans (h.same k q hq))
    have hsent : ∀ n < (commandsTo k st.sent).length, q.Due n :=
      fun n hn => due_of_progress (h.progress k q hq) hn
    have hrange := filter_range_eq
      (P := fun n => q.Due n ∧ q.dueTime (getEpochMs now) n < stop)
      (fun n hn => lt_length_of_due hpaired h hq hstop hn.1 hn.2)
      (fun n hn => lt_bound_of_due hpaired h hq hstop hn.1 hn.2)
    have hdue : (List.range (commandsTo k st.sent).length).filter
        (fun n => q.dueTime (getEpochMs now) n < stop) =
        (List.range (commandsTo k st.sent).length).filter
          fun n => q.Due n ∧ q.dueTime (getEpochMs now) n < stop := by
      refine List.filter_congr fun n hn => ?_
      simp [hsent n (List.mem_range.mp hn)]
    rw [rates_commandsTo h hq, List.filter_map]
    have hcomp : ((fun c : ℤ × ℚ => decide (c.1 < stop)) ∘
        q.change (getEpochMs now)) =
        fun n => decide (q.dueTime (getEpochMs now) n < stop) := rfl
    rw [hcomp, hdue, hrange]
    rfl

/-! ## Changes after the end do not matter -/

theorem rates_ordered {now : ℚ} (hpace : Paceable parameters dScenarios)
    (hfresh : ∀ k p, (scnWPattern dScenarios).get? k = some p → p.Fresh)
    (hreached : Reached parameters dScenarios endTimeMs
      (initialLoop dScenarios now) st)
    (k : PyStr) :
    (rates (commandsTo k st.sent)).Pairwise fun a b => a.1 ≤ b.1 := by
  rcases reached_cases hpace hfresh hreached with rfl | ⟨-, h⟩
  · exact List.Pairwise.nil
  · exact List.pairwise_map.mpr (h.ordered.sublist List.filter_sublist)

theorem level_nil : level [] = fun _ => 0 := by
  funext t
  simp [level]

theorem level_cons (s : Span ℚ) (spans : List (Span ℚ)) (t : ℝ) :
    level (s :: spans) t = s.toReal.amount t + level spans t := rfl

theorem amount_between_of_le {a b rate : ℚ} (h : b ≤ a) (t : ℝ) :
    (Span.between a b rate).toReal.amount t = 0 := by
  rcases le_total t (a : ℝ) with hta | hat
  · exact Span.amount_of_le_start hta
  · have hstop : (Span.between a b rate).toReal.stop ≤ t := by
      simpa [Span.between, Span.toReal, h] using hat
    rw [Span.amount_of_stop_le hstop]
    simp [Span.between, Span.toReal, h]

theorem level_offered_of_le {stop a cps : ℚ} (ha : stop ≤ a)
    {changes : List (ℤ × ℚ)} (hlate : ∀ c ∈ changes, stop ≤ c.1) (t : ℝ) :
    level (offered stop a cps changes) t = 0 := by
  induction changes generalizing a cps with
  | nil =>
      rw [offered, level_cons, level_nil, amount_between_of_le ha, add_zero]
  | cons c rest ih =>
      obtain ⟨time, next⟩ := c
      have hempty : min (time : ℚ) stop ≤ a := (min_le_right _ _).trans ha
      rw [offered, level_cons, amount_between_of_le hempty, zero_add]
      exact ih (hlate _ List.mem_cons_self) fun c hc =>
        hlate c (List.mem_cons_of_mem _ hc)

/-- What is offered until `stop` depends only on the changes before it. -/
theorem level_offered_filter {stop : ℤ} {changes : List (ℤ × ℚ)}
    (hordered : changes.Pairwise fun a b => a.1 ≤ b.1) (a cps : ℚ) (t : ℝ) :
    level (offered stop a cps changes) t =
      level (offered stop a cps (changes.filter fun c => c.1 < stop)) t := by
  induction changes generalizing a cps with
  | nil => rfl
  | cons c rest ih =>
      obtain ⟨time, next⟩ := c
      rw [List.pairwise_cons] at hordered
      by_cases htime : time < stop
      · rw [List.filter_cons_of_pos (by simpa using htime), offered, offered,
          level_cons, level_cons, ih hordered.2]
      · have hlate : ∀ c ∈ rest, stop ≤ c.1 := fun c hc =>
          (not_lt.mp htime).trans (hordered.1 c hc)
        have hnone : rest.filter (fun c => c.1 < stop) = [] :=
          List.filter_eq_nil_iff.mpr fun c hc => by
            simpa using hlate c hc
        have hstop : (stop : ℚ) ≤ time := by exact_mod_cast not_lt.mp htime
        rw [List.filter_cons_of_neg (by simpa using htime), hnone, offered,
          offered, level_cons, level_cons, level_nil, min_eq_right hstop,
          level_offered_of_le hstop fun c hc => by exact_mod_cast hlate c hc]

/-! ## Bounded rates -/

theorem max_min_eq {a b : ℝ} (hab : a ≤ b) (x : ℝ) :
    max a (min b x) = max a x + b - max b x := by
  rcases le_total x b with hx | hx
  · rw [min_eq_right hx, max_eq_left hx, add_sub_cancel_right]
  · rw [min_eq_left hx, max_eq_right hab, max_eq_right hx,
      max_eq_right (hab.trans hx), add_sub_cancel_left]

theorem max_sub_max_le {b c t u : ℝ} (hbc : b ≤ c) (htu : t ≤ u) :
    max c u - max c t ≤ max b u - max b t := by
  have hclamp : max b (min c t) ≤ max b (min c u) :=
    max_le_max_left b (min_le_min_left c htu)
  rw [max_min_eq hbc, max_min_eq hbc] at hclamp
  linarith

theorem amount_between_sub_le {bound : ℚ} (hbound : 0 ≤ bound) {cps : ℚ}
    (hcps : cps ≤ bound) (a b : ℚ) {t u : ℝ} (htu : t ≤ u) :
    (Span.between a b (cps / 1000)).toReal.amount u -
        (Span.between a b (cps / 1000)).toReal.amount t ≤
      (bound / 1000 : ℚ) * ((max (a : ℝ) u - max (a : ℝ) t) -
        (max ((max a b : ℚ) : ℝ) u - max ((max a b : ℚ) : ℝ) t)) := by
  have hrate : max 0 (cps / 1000) ≤ bound / 1000 :=
    max_le (by positivity) (by gcongr)
  have hab : (a : ℝ) ≤ (max a b : ℚ) := Rat.cast_le.mpr (le_max_left a b)
  refine (Span.amount_sub_le (Rat.cast_le.mpr hrate) htu).trans_eq ?_
  simp only [Span.between, Span.toReal, max_min_eq hab]
  ring

/-- As long as no rate exceeds `bound`, no more is offered in a window than at
that rate. -/
theorem level_offered_sub_le {stop a cps bound : ℚ} (hbound : 0 ≤ bound)
    {changes : List (ℤ × ℚ)} (hcps : cps ≤ bound)
    (hrates : ∀ c ∈ changes, c.2 ≤ bound) (ha : ∀ c ∈ changes, a ≤ c.1)
    (hordered : changes.Pairwise fun b c => b.1 ≤ c.1) {t u : ℝ}
    (htu : t ≤ u) :
    level (offered stop a cps changes) u -
        level (offered stop a cps changes) t ≤
      (bound / 1000 : ℚ) * (max (a : ℝ) u - max (a : ℝ) t) := by
  have hpos : (0 : ℝ) ≤ (bound / 1000 : ℚ) :=
    Rat.cast_nonneg.mpr (div_nonneg hbound (by norm_num))
  induction changes generalizing a cps with
  | nil =>
      have hspan := amount_between_sub_le hbound hcps a stop htu
      have hafter : (0 : ℝ) ≤ max ((max a stop : ℚ) : ℝ) u -
          max ((max a stop : ℚ) : ℝ) t :=
        sub_nonneg.mpr (max_le_max_left _ htu)
      simp only [offered, level_cons, level_nil, add_zero]
      refine hspan.trans (mul_le_mul_of_nonneg_left ?_ hpos)
      linarith
  | cons c rest ih =>
      obtain ⟨time, next⟩ := c
      rw [List.pairwise_cons] at hordered
      have hspan := amount_between_sub_le hbound hcps a (min time stop) htu
      have hrest := ih (a := (time : ℚ)) (hrates _ List.mem_cons_self)
        (fun c hc => hrates c (List.mem_cons_of_mem _ hc))
        (fun c hc => by exact_mod_cast hordered.1 c hc) hordered.2
      -- the next span begins no earlier than this one ends
      have hnext : ((max a (min time stop) : ℚ) : ℝ) ≤ ((time : ℚ) : ℝ) :=
        Rat.cast_le.mpr
          (max_le (ha _ List.mem_cons_self) (min_le_left _ _))
      have hless := mul_le_mul_of_nonneg_left (max_sub_max_le hnext htu) hpos
      simp only [offered, level_cons]
      rw [mul_sub] at hspan
      linarith

theorem changes_ordered (p : Pattern) (start stop : ℤ) :
    (p.changes start stop).Pairwise fun b c => b.1 ≤ c.1 := by
  refine List.pairwise_map.mpr (List.Pairwise.filter _ ?_)
  rcases Nat.eq_zero_or_pos p.timepoints.length with hzero | hpos
  · rw [hzero, Nat.mul_zero, List.range_zero]
    exact List.Pairwise.nil
  · refine List.pairwise_le_range.imp fun hle => ?_
    have hdue := due_mono hpos hle
    simp only [Pattern.change, Pattern.dueTime]
    omega

theorem change_spec {r : ℚ} (hrate : ∀ cps ∈ p.cps, cps.number ≤ r) (hr : 0 ≤ r)
    {c : ℤ × ℚ} (h : c ∈ p.changes start stop) : start ≤ c.1 ∧ c.2 ≤ r := by
  obtain ⟨n, -, rfl⟩ := List.mem_map.mp h
  refine ⟨start_le_dueTime p start n, ?_⟩
  rw [Pattern.change]
  cases hcps : p.cps[n % p.timepoints.length]? with
  | none => simpa using hr
  | some cps => simpa using hrate cps (List.mem_of_getElem? hcps)

end SippScen.Orchestrator
