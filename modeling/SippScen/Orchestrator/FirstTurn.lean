import SippScen.Orchestrator.Patterns

/-!
# The first change of a rate

Until a rate is changed the loop has only the first cycles of the patterns, and
the change that is due first is that of the first scenario with the least first
timepoint.  With the two parameters that `title` has, the loop raises in its
first turn then, once it has slept until that timepoint.
-/

namespace SippScen.Orchestrator

open SippScen.Support

variable {parameters : ℕ} {dScenarios : Dict PyStr Scenario}
variable {endTimeMs cur : ℤ} {plan : Plan} {streams : Dict PyStr Stream}
variable {k : PyStr} {p : Pattern}

/-- The scenario whose rate is to change first, with its pattern. -/
def firstDue (dScenarios : Dict PyStr Scenario) : Option (PyStr × Pattern) :=
  (scnWPattern dScenarios).entries.minOn? fun e => e.2.timepoints.headD 0

/-- No scenario with a name is to change first. -/
def NoneDue (dScenarios : Dict PyStr Scenario) : Prop :=
  ∀ e, firstDue dScenarios = some e → e.1 = []

/-- Some pattern has no timepoints. -/
def SomeEmpty (dScenarios : Dict PyStr Scenario) : Prop :=
  ∃ k p, (scnWPattern dScenarios).get? k = some p ∧ p.timepoints = []

theorem exists_firstDue (h : ¬ NoneDue dScenarios) :
    ∃ e, firstDue dScenarios = some e ∧ e.1 ≠ [] := by
  simpa [NoneDue] using h

/-! ## The streams before the first change -/

/-- The streams are those of the first cycles, started at `start`. -/
def FirstCycles (dScenarios : Dict PyStr Scenario) (start : ℤ)
    (streams : Dict PyStr Stream) : Prop :=
  streams.entries =
    (scnWPattern dScenarios).entries.map fun e => (e.1, e.2.remaining start 0)

/-- No rate was changed: the patterns are those of the scenarios, and no cycle
was started or the first ones were. -/
structure Unchanged (dScenarios : Dict PyStr Scenario) (plan : Plan) :
    Prop where
  patterns : plan.patterns = scnWPattern dScenarios
  streams : plan.streams = Dict.empty ∨
    ∃ start, FirstCycles dScenarios start plan.streams

theorem unchanged_initial (dScenarios : Dict PyStr Scenario) :
    Unchanged dScenarios (initialPlan dScenarios) :=
  ⟨rfl, Or.inl rfl⟩

theorem refill_fresh (cur : ℤ) {entries : List (PyStr × Pattern)}
    (streams : Dict PyStr Stream) (hnodup : (entries.map Prod.fst).Nodup)
    (hactive : ∀ e ∈ entries, e.2.passed = false)
    (hpaired : ∀ e ∈ entries, e.2.Paired)
    (hnew : ∀ e ∈ entries, e.1 ∉ streams.keys) :
    ∃ streams', refill cur entries streams = some streams' ∧
      streams'.entries = streams.entries ++
        entries.map fun e => (e.1, e.2.remaining cur 0) := by
  induction entries generalizing streams with
  | nil => exact ⟨streams, rfl, (List.append_nil _).symm⟩
  | cons e rest ih =>
      obtain ⟨k, p⟩ := e
      rw [List.map_cons, List.nodup_cons] at hnodup
      have hk : k ∉ streams.keys := hnew _ List.mem_cons_self
      have hkeeps : keepsStream p (streams.get? k) = false := by
        have hpassed : p.passed = false := hactive _ List.mem_cons_self
        simp [keepsStream, Dict.get?_eq_none_iff.mpr hk, hpassed]
      have hstream : newStream cur p = some (p.remaining cur 0) :=
        newStream_eq (hpaired _ List.mem_cons_self) (Nat.zero_mod _) (by simp)
      have hothers : ∀ e ∈ rest,
          e.1 ∉ (streams.set k (p.remaining cur 0)).keys := by
        intro e he hmem
        rw [Dict.keys_set, if_neg hk, List.mem_append,
          List.mem_singleton] at hmem
        rcases hmem with hold | rfl
        · exact hnew e (List.mem_cons_of_mem _ he) hold
        · have hkey := List.mem_map_of_mem (f := Prod.fst) he
          exact hnodup.1 hkey
      obtain ⟨streams', hrefill, hentries⟩ :=
        ih (streams.set k (p.remaining cur 0)) hnodup.2
          (fun e he => hactive e (List.mem_cons_of_mem _ he))
          (fun e he => hpaired e (List.mem_cons_of_mem _ he)) hothers
      refine ⟨streams', ?_, ?_⟩
      · rw [refill, hkeeps, if_neg Bool.false_ne_true, hstream]
        exact hrefill
      · rw [hentries, Dict.entries_set_of_notMem hk, List.append_assoc,
          List.map_cons, List.singleton_append]

theorem refill_of_kept (cur : ℤ) {entries : List (PyStr × Pattern)}
    (h : ∀ e ∈ entries, keepsStream e.2 (streams.get? e.1) = true) :
    refill cur entries streams = some streams := by
  induction entries with
  | nil => rfl
  | cons e rest ih =>
      rw [refill, if_pos (h e List.mem_cons_self)]
      exact ih fun e he => h e (List.mem_cons_of_mem _ he)

/-- The first element with the least key does not depend on how the keys are
counted. -/
theorem minOn?_map {α β γ δ : Type} [LE γ] [DecidableLE γ]
    [Std.IsLinearPreorder γ] [LE δ] [DecidableLE δ] [Std.IsLinearPreorder δ]
    {f : α → β} {key : β → γ} {key' : α → δ} {l : List α}
    (h : ∀ a ∈ l, ∀ b ∈ l, key (f a) ≤ key (f b) ↔ key' a ≤ key' b) :
    (l.map f).minOn? key = (l.minOn? key').map f := by
  induction l with
  | nil => rfl
  | cons a rest ih =>
      rw [List.map_cons, List.minOn?_cons, List.minOn?_cons, ih fun x hx y hy =>
        h x (List.mem_cons_of_mem _ hx) y (List.mem_cons_of_mem _ hy),
        Option.map_some]
      cases hmin : rest.minOn? key' with
      | none => rfl
      | some b =>
          have hb : b ∈ a :: rest :=
            List.mem_cons_of_mem _ (List.minOn?_mem hmin)
          simp only [Option.map_some, Option.elim_some, minOn,
            h a List.mem_cons_self b hb, apply_ite f]

/-- What the preparation and the check of the first turn see to. -/
structure Startable (dScenarios : Dict PyStr Scenario) : Prop where
  active : ∀ k p, (scnWPattern dScenarios).get? k = some p → p.passed = false
  paired : ∀ k p, (scnWPattern dScenarios).get? k = some p → p.Paired

theorem startable_of_fresh
    (hfresh : ∀ k p, (scnWPattern dScenarios).get? k = some p → p.Fresh)
    (hnonempty : ∀ k p, (scnWPattern dScenarios).get? k = some p →
      p.timepoints ≠ []) : Startable dScenarios where
  active k p hp := (hfresh k p hp).active
  paired k p hp := ⟨hnonempty k p hp, (hfresh k p hp).lengths⟩

theorem Startable.paired_of_mem (h : Startable dScenarios)
    {e : PyStr × Pattern} (he : e ∈ (scnWPattern dScenarios).entries) :
    e.2.Paired :=
  h.paired e.1 e.2 (Dict.get?_eq_some_iff.mpr he)

theorem dueTime_zero (hp : p.Paired) (start : ℤ) :
    p.dueTime start 0 = start + (p.timepoints.headD 0 : ℕ) := by
  obtain ⟨t, rest, hrest⟩ := List.exists_cons_of_ne_nil hp.nonempty
  simp [Pattern.dueTime, due, hrest]

theorem nextChange_of_first (hstart : Startable dScenarios) {start : ℤ}
    (h : FirstCycles dScenarios start streams) :
    nextChange streams = some ((firstDue dScenarios).map fun e =>
      (e.1, e.2.remaining start 0)) := by
  have hpaired : ∀ e ∈ (scnWPattern dScenarios).entries, e.2.Paired :=
    fun _ => hstart.paired_of_mem
  have hhead : ∀ e ∈ (scnWPattern dScenarios).entries,
      (e.2.remaining start 0).streams =
        (start + (e.2.timepoints.headD 0 : ℕ)) ::
          (Pattern.rest (e.2.remaining start 0)).streams := by
    intro e he
    rw [remaining_streams _ _ (hpaired e he), dueTime_zero (hpaired e he)]
  have hnonempty : ∀ e ∈ streams.entries, e.2.streams ≠ [] := by
    intro s hs
    rw [h] at hs
    obtain ⟨e, he, rfl⟩ := List.mem_map.mp hs
    rw [hhead e he]
    exact List.cons_ne_nil _ _
  have hmin : (streams.entries.minOn? fun e => e.2.streams.headD 0) =
      (firstDue dScenarios).map fun e => (e.1, e.2.remaining start 0) := by
    rw [h]
    refine minOn?_map fun a ha b hb => ?_
    rw [hhead a ha, hhead b hb, List.headD_cons, List.headD_cons]
    omega
  rw [nextChange, if_neg (by simpa using hnonempty), hmin]

/-- A turn before the first change starts the first cycles, if that was not yet
done, and chooses the scenario that is due first. -/
theorem Unchanged.next (hstart : Startable dScenarios)
    (h : Unchanged dScenarios plan) (cur : ℤ) :
    ∃ streams start, (plan.streams = Dict.empty → start = cur) ∧
      refill cur plan.patterns.entries plan.streams = some streams ∧
      FirstCycles dScenarios start streams ∧
      nextChange streams = some ((firstDue dScenarios).map fun e =>
        (e.1, e.2.remaining start 0)) := by
  have hpaired : ∀ e ∈ (scnWPattern dScenarios).entries, e.2.Paired :=
    fun _ => hstart.paired_of_mem
  rw [h.patterns]
  by_cases hempty : plan.streams = Dict.empty
  · obtain ⟨streams, hrefill, hentries⟩ := refill_fresh cur plan.streams
      (Dict.nodup_keys _)
      (fun e he => hstart.active e.1 e.2 (Dict.get?_eq_some_iff.mpr he))
      hpaired fun e _ => hempty ▸ List.not_mem_nil
    rw [hempty] at hentries
    exact ⟨streams, cur, fun _ => rfl, hrefill, hentries,
      nextChange_of_first hstart hentries⟩
  · obtain ⟨start, hfirst⟩ := h.streams.resolve_left hempty
    refine ⟨plan.streams, start, fun h => absurd h hempty, ?_, hfirst,
      nextChange_of_first hstart hfirst⟩
    refine refill_of_kept cur fun e he => ?_
    have hstream : plan.streams.get? e.1 = some (e.2.remaining start 0) :=
      Dict.get?_eq_some_iff.mpr (hfirst ▸ List.mem_map_of_mem he)
    simp [keepsStream, hstream, remaining_streams _ _ (hpaired e he)]

theorem Unchanged.after {start : ℤ} (h : Unchanged dScenarios plan)
    (hfirst : FirstCycles dScenarios start streams) :
    Unchanged dScenarios { plan with streams := streams } :=
  ⟨h.patterns, Or.inr ⟨start, hfirst⟩⟩

/-- If no scenario with a name is to change first, a turn sleeps until the end
and changes no rate. -/
theorem Unchanged.turn_of_noneDue (parameters : ℕ)
    (hstart : Startable dScenarios) (hnone : NoneDue dScenarios)
    (h : Unchanged dScenarios plan) (hcur : cur < endTimeMs) :
    ∃ plan', Unchanged dScenarios plan' ∧
      (loopBody parameters dScenarios endTimeMs cur).Yields plan () plan'
        [.slept (((endTimeMs - cur : ℤ) : ℚ) / 1000)] := by
  obtain ⟨streams, start, -, hrefill, hfirst, hnext⟩ := h.next hstart cur
  refine ⟨_, h.after hfirst, loopBody_of_idle hrefill hnext ?_ hcur⟩
  intro e he
  obtain ⟨e, hdue, rfl⟩ := Option.map_eq_some_iff.mp he
  exact hnone e hdue

/-- Else the first turn sleeps until the first change, and raises if `title` has
too few parameters. -/
theorem first_turn_raises (hparameters : parameters < 3)
    (hstart : Startable dScenarios) {e : PyStr × Pattern}
    (hdue : firstDue dScenarios = some e) (hname : e.1 ≠ [])
    (endTimeMs cur : ℤ) :
    ∃ plan, loopBody parameters dScenarios endTimeMs cur
      (initialPlan dScenarios) = ⟨.error .typeError, plan,
        [.slept ((e.2.timepoints.headD 0 : ℕ) / 1000)]⟩ := by
  obtain ⟨streams, start, hnow, hrefill, -, hnext⟩ :=
    (unchanged_initial dScenarios).next hstart cur
  obtain rfl := hnow rfl
  rw [hdue, Option.map_some] at hnext
  have hp : e.2.Paired := hstart.paired_of_mem (List.minOn?_mem hdue)
  have htime : (e.2.remaining start 0).streams.head? =
      some (start + (e.2.timepoints.headD 0 : ℕ)) := by
    rw [remaining_streams _ _ hp, dueTime_zero hp, List.head?_cons]
  obtain ⟨hhead, cps, hcps⟩ := remaining_cps start 0 hp
  have hwait : waitTimeS (start + (e.2.timepoints.headD 0 : ℕ)) start =
      (e.2.timepoints.headD 0 : ℕ) / 1000 := by
    rw [waitTimeS_of_le (by omega), add_sub_cancel_left, Int.cast_natCast]
  have hbody : loopBody parameters dScenarios endTimeMs start
      (initialPlan dScenarios) = _ := loopBody_of_next hrefill hnext hname
  rw [changeRate_of_few hparameters htime (hhead.trans hcps), hwait] at hbody
  exact ⟨_, hbody⟩

/-! ## The loop with an ideal clock -/

variable {now : ℚ}

theorem mainLoop_of_noneDue (parameters : ℕ) (hstart : Startable dScenarios)
    (hnone : NoneDue dScenarios) (hcur : getEpochMs now < endTimeMs) :
    ∃ st, st.sent = [] ∧ getEpochMs st.now = endTimeMs ∧ ∀ fuel,
      mainLoop parameters dScenarios endTimeMs (fuel + 1)
        (initialLoop dScenarios now) =
      mainLoop parameters dScenarios endTimeMs fuel st := by
  obtain ⟨plan, -, hyields⟩ :=
    (unchanged_initial dScenarios).turn_of_noneDue parameters hstart hnone hcur
  refine ⟨⟨_, plan, []⟩, rfl, getEpochMs_sleep now endTimeMs, fun fuel => ?_⟩
  rw [mainLoop_of_turn hcur (idealTurn_of_yields hyields)]
  rfl

theorem mainLoop_raises (hparameters : parameters < 3)
    (hstart : Startable dScenarios) {e : PyStr × Pattern}
    (hdue : firstDue dScenarios = some e) (hname : e.1 ≠ [])
    (hcur : getEpochMs now < endTimeMs) :
    ∃ plan, ∀ fuel, mainLoop parameters dScenarios endTimeMs (fuel + 1)
      (initialLoop dScenarios now) = .raised .typeError
        ⟨now + (e.2.timepoints.headD 0 : ℕ) / 1000, plan, []⟩ := by
  obtain ⟨plan, hbody⟩ :=
    first_turn_raises hparameters hstart hdue hname endTimeMs (getEpochMs now)
  refine ⟨plan, mainLoop_of_raised hcur ?_⟩
  simp only [idealTurn, initialLoop, hbody, List.foldl_cons, List.foldl_nil,
    LoopState.after]

/-! ## The patterns are not followed -/

theorem followed_nil {start : ℤ}
    (h : (scnWPattern dScenarios).keys = [] ∨ endTimeMs ≤ start) :
    Followed dScenarios start endTimeMs [] where
  addressed c hc := absurd hc List.not_mem_nil
  follows k p _ n hn := absurd hn (Nat.not_lt_zero n)
  ordered := List.Pairwise.nil
  complete k p n hp _ _ := by
    rcases h with hkeys | hlate
    · have hk : k ∈ (scnWPattern dScenarios).keys :=
        Dict.mem_keys_iff.mpr ⟨p, hp⟩
      exact absurd (hkeys ▸ hk) List.not_mem_nil
    · refine ⟨hlate.trans ?_, fun c hc => absurd hc List.not_mem_nil,
        fun hcur => absurd hcur (not_lt.mpr hlate)⟩
      exact le_add_of_nonneg_right (Int.natCast_nonneg _)
  within c hc := absurd hc List.not_mem_nil

theorem startable_of_wellTimed
    (hpatterns : ∀ k p, (scnWPattern dScenarios).get? k = some p →
      p.WellTimed ∧ p.passed = false) : Startable dScenarios :=
  ⟨fun k p hp => (hpatterns k p hp).2,
    fun k p hp => (hpatterns k p hp).1.paired⟩

/-- Patterns that are due before the end are not followed: the loop raises, or
it ends with nothing sent. -/
theorem not_followsPatterns (hparameters : parameters < 3)
    (hstart : Startable dScenarios)
    (hkeys : (scnWPattern dScenarios).keys ≠ [])
    (hcur : getEpochMs now < endTimeMs) :
    ¬ FollowsPatterns parameters dScenarios now endTimeMs := by
  rintro ⟨sent, hfollowed, enough, hloop⟩
  by_cases hnone : NoneDue dScenarios
  · obtain ⟨st, hsent, hend, hturn⟩ :=
      mainLoop_of_noneDue parameters hstart hnone hcur
    obtain ⟨st', rfl, hfinish⟩ := hloop (enough + 2) (Nat.le_add_right _ _)
    rw [hturn, mainLoop_of_late (not_lt.mpr hend.ge)] at hfinish
    obtain rfl := LoopEnd.finished.inj hfinish
    obtain ⟨k, hk⟩ := List.exists_mem_of_ne_nil _ hkeys
    obtain ⟨p, hp⟩ := Dict.mem_keys_iff.mp hk
    have hdue : p.Due 0 := Or.inr (hstart.paired k p hp).length_pos
    obtain ⟨c, hlast, -⟩ := (hfollowed.complete k p 0 hp hdue
      (by rw [hsent]; exact le_rfl)).2.2 hcur
    rw [hsent] at hlast
    cases hlast
  · obtain ⟨e, hdue, hname⟩ := exists_firstDue hnone
    obtain ⟨plan, hraised⟩ :=
      mainLoop_raises hparameters hstart hdue hname hcur
    obtain ⟨st, -, hfinish⟩ := hloop (enough + 1) (Nat.le_add_right _ _)
    cases (hraised enough).symm.trans hfinish

/-- The patterns are followed if and only if there are none or the run is over
at its start: before the first command the call of `title` raises. -/
theorem patterns_followed_iff (dScenarios : Dict PyStr Scenario) (now : ℚ)
    (endTimeMs : ℤ)
    (hpatterns : ∀ k p, (scnWPattern dScenarios).get? k = some p →
      p.WellTimed ∧ p.passed = false) :
    FollowsPatterns titleParameters dScenarios now endTimeMs ↔
      (scnWPattern dScenarios).keys = [] ∨ endTimeMs ≤ getEpochMs now := by
  have hstart := startable_of_wellTimed hpatterns
  constructor
  · intro h
    by_contra hdue
    push Not at hdue
    exact not_followsPatterns (by decide) hstart hdue.1 hdue.2 h
  · intro h
    refine ⟨[], followed_nil h, ?_⟩
    by_cases hcur : getEpochMs now < endTimeMs
    · have hkeys := h.resolve_right (not_le.mpr hcur)
      have hnone : NoneDue dScenarios := by
        intro e he
        have hmem := Dict.mem_keys_of_mem (List.minOn?_mem he)
        exact absurd (hkeys ▸ hmem) List.not_mem_nil
      obtain ⟨st, hsent, hend, hturn⟩ :=
        mainLoop_of_noneDue titleParameters hstart hnone hcur
      have hfinish := (hturn 1).trans (mainLoop_of_late (not_lt.mpr hend.ge) 0)
      exact ⟨2, fun fuel hfuel => ⟨st, hsent, mainLoop_mono hfinish hfuel⟩⟩
    · exact ⟨1, fun fuel hfuel => ⟨_, rfl,
        mainLoop_mono (mainLoop_of_late hcur 0) hfuel⟩⟩

/-- A run that is over at its start follows its patterns. -/
theorem two_patterns_followed :
    FollowsPatterns titleParameters twoPatterns 7 7000 :=
  (patterns_followed_iff twoPatterns 7 7000 wellTimed_twoPatterns).mpr
    (Or.inr (by decide +kernel))

/-- The two patterns are not followed in a run of a minute. -/
theorem two_patterns_not_followed :
    (∀ k p, (scnWPattern twoPatterns).get? k = some p →
      p.WellTimed ∧ p.passed = false) ∧
    ¬ FollowsPatterns titleParameters twoPatterns 7 67000 :=
  ⟨wellTimed_twoPatterns, not_followsPatterns (by decide)
    (startable_of_wellTimed wellTimed_twoPatterns) (by decide +kernel)
    (by decide +kernel)⟩

end SippScen.Orchestrator
