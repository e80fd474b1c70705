import Mathlib.Algebra.Order.BigOperators.Group.List
import Mathlib.Logic.Relation
import SippScen.Orchestrator.Schedule

/-!
# The patterns are followed

If `title` took the third argument, then with an ideal clock every turn of the
run loop would keep its invariant, and the loop would end: each turn sends one
of the finitely many commands that are due before the end of the run, or moves
the clock to its end.  What it has sent then is the merge of the timetables of
all scenarios, up to the first command at or after the end of the run.
-/

namespace SippScen.Orchestrator

open SippScen.Support

/-- The loop can change rates: `title` takes three arguments, and the scenarios
with a pattern have names. -/
structure Paceable (parameters : ℕ) (dScenarios : Dict PyStr Scenario) :
    Prop where
  arity : 3 ≤ parameters
  named : [] ∉ (scnWPattern dScenarios).keys

variable {parameters : ℕ} {dScenarios : Dict PyStr Scenario}
variable {start endTimeMs : ℤ} {st : LoopState}

theorem Ready.stream_eq {p : Pattern} {cur : ℤ} {n : ℕ}
    {stream : Option Stream} (h : Ready p start cur n stream)
    (hactive : p.passed = false) : stream = some (p.remaining start n) := by
  cases h with
  | passed hpassed => simp [hpassed] at hactive
  | pending => rfl

theorem idealTurn_of_pending (hpace : Paceable parameters dScenarios)
    {p : Pattern} {n : ℕ} {k : PyStr} {cps : Number} {v : Scenario}
    {plan : Plan} {streams : Dict PyStr Stream} (hp : p.Paired)
    (hk : k ∈ (scnWPattern dScenarios).keys)
    (hrefill : refill (getEpochMs st.now) st.plan.patterns.entries
      st.plan.streams = some streams)
    (hnext : nextChange streams = some (some (k, p.remaining start n)))
    (hlate : getEpochMs st.now ≤ p.dueTime start n)
    (hcps : (p.remaining start n).cps.head? = some cps)
    (hv : dScenarios.get? k = some v)
    (htaken : Plan.taken ⟨st.plan.patterns, streams⟩ k
      (Pattern.rest (p.remaining start n)) = some plan) :
    idealTurn parameters dScenarios endTimeMs st =
      (.ok (), ⟨st.now + ((p.dueTime start n - getEpochMs st.now : ℤ) : ℚ) /
          1000, plan,
        st.sent ++ [⟨p.dueTime start n, k, cps,
          sendControlCmd (.setRate cps) v.cPort v.ip⟩]⟩) := by
  have hname : k ≠ [] := fun hempty => hpace.named (hempty ▸ hk)
  have htime : (p.remaining start n).streams.head? =
      some (p.dueTime start n) := by
    rw [remaining_streams _ _ hp, List.head?_cons]
  have hbody := changeRate_of_arity hpace.arity (getEpochMs st.now) htime
    hcps hv htaken
  rw [waitTimeS_of_le hlate] at hbody
  rw [idealTurn_of_yields ((loopBody_of_next hrefill hnext hname).trans hbody)]
  simp only [List.foldl_cons, List.foldl_nil, LoopState.after,
    getEpochMs_sleep]

/-- The turn from `st` to `st'` sends the next command of a pattern when it is
due. -/
structure SendsDue (dScenarios : Dict PyStr Scenario) (start : ℤ)
    (st st' : LoopState) (p : Pattern) (c : RateChange) : Prop where
  pattern : (scnWPattern dScenarios).get? c.scn = some p
  due : p.Due (commandsTo c.scn st.sent).length
  time : c.time = p.dueTime start (commandsTo c.scn st.sent).length
  sent : st'.sent = st.sent ++ [c]
  now : getEpochMs st'.now = c.time

/-- A turn either sleeps until the end of the run, or sends a command that is
due. -/
theorem idealTurn_of_invariant (hpace : Paceable parameters dScenarios)
    (hpaired : ∀ k p, (scnWPattern dScenarios).get? k = some p → p.Paired)
    (hcur : getEpochMs st.now < endTimeMs)
    (h : LoopInvariant dScenarios start endTimeMs st) :
    ∃ st', idealTurn parameters dScenarios endTimeMs st = (.ok (), st') ∧
      LoopInvariant dScenarios start endTimeMs st' ∧
      ((st'.sent = st.sent ∧ getEpochMs st'.now = endTimeMs) ∨
        ∃ p c, SendsDue dScenarios start st st' p c) := by
  obtain ⟨streams, hrefill, hready⟩ := allReady_of_invariant hpaired h
  rcases nextChange_of_ready (fun _ _ hp => h.paired hpaired hp) hready with
    ⟨hnext, hpassed⟩ | ⟨k, p, hk, hactive, hdue, hlate, hnext, hleast⟩
  · refine ⟨_, ?_, invariant_of_idle hcur h hready hpassed, Or.inl ⟨rfl, ?_⟩⟩
    · exact idealTurn_of_yields (loopBody_of_idle hrefill hnext (by simp) hcur)
    · exact getEpochMs_sleep _ _
  · have hp := h.paired hpaired hk
    have hstream := (hready.ready k p hk).stream_eq hactive
    obtain ⟨cps, v, hcps, hv, hscheduled⟩ :=
      scheduled_of_pending start (commandsTo k st.sent).length hp
        (h.same k p hk)
    obtain ⟨plan, hplan, htaken⟩ :=
      taken_of_pending hp hactive hdue hk hstream
    have hkey : k ∈ (scnWPattern dScenarios).keys :=
      Dict.mem_keys_iff.mpr ⟨_, h.same k p hk⟩
    have hnow := getEpochMs_sleep st.now
      (p.dueTime start (commandsTo k st.sent).length)
    refine ⟨_, idealTurn_of_pending hpace hp hkey hrefill hnext hlate hcps hv
      hplan, ?_, Or.inr ⟨{ p with passed := false },
        ⟨p.dueTime start (commandsTo k st.sent).length, k, cps,
          sendControlCmd (.setRate cps) v.cPort v.ip⟩, ?_⟩⟩
    · exact invariant_of_sent hcur h hready hk hlate hleast hscheduled rfl rfl
        htaken hnow
    · exact ⟨h.same k p hk, hdue, rfl, rfl, hnow⟩

/-! ## The loop ends -/

/-- How many commands may still be due before the end of the run. -/
def outstanding (dScenarios : Dict PyStr Scenario) (start endTimeMs : ℤ)
    (sent : List RateChange) : ℕ :=
  ((scnWPattern dScenarios).entries.map fun e =>
    (endTimeMs - start).toNat * e.2.timepoints.length -
      (commandsTo e.1 sent).length).sum

theorem commandsTo_length_le (k : PyStr) (sent : List RateChange)
    (c : RateChange) :
    (commandsTo k sent).length ≤ (commandsTo k (sent ++ [c])).length := by
  simp [commandsTo]

theorem outstanding_lt {p : Pattern} {c : RateChange} {st' : LoopState}
    (hp : p.Advances) (h : SendsDue dScenarios start st st' p c)
    (hcur : start < endTimeMs) (hend : c.time < endTimeMs) :
    outstanding dScenarios start endTimeMs st'.sent <
      outstanding dScenarios start endTimeMs st.sent := by
  have hlt : (commandsTo c.scn st.sent).length <
      (endTimeMs - start).toNat * p.timepoints.length := by
    have htime := h.time
    rw [Pattern.dueTime] at htime
    rcases h.due with hrepeat | hcycle
    · exact lt_of_due_lt hp.paired.length_pos (hp.positive hrepeat) (by omega)
    · refine hcycle.trans_le (Nat.le_mul_of_pos_left _ ?_)
      omega
  rw [h.sent]
  refine List.sum_lt_sum _ _ (fun e _ => ?_) ⟨(c.scn, p), ?_, ?_⟩
  · exact Nat.sub_le_sub_left (commandsTo_length_le e.1 st.sent c) _
  · exact Dict.get?_eq_some_iff.mp h.pattern
  · simp only [commandsTo_append_self, List.length_append,
      List.length_singleton]
    omega

theorem mainLoop_of_invariant (hpace : Paceable parameters dScenarios)
    (hadvances : ∀ k p, (scnWPattern dScenarios).get? k = some p →
      p.Advances)
    (h : LoopInvariant dScenarios start endTimeMs st)
    (hstart : start ≤ getEpochMs st.now) :
    ∃ fuel st',
      mainLoop parameters dScenarios endTimeMs fuel st = .finished st' ∧
      LoopInvariant dScenarios start endTimeMs st' ∧
      endTimeMs ≤ getEpochMs st'.now := by
  induction hm : outstanding dScenarios start endTimeMs st.sent
    using Nat.strong_induction_on generalizing st with
  | _ m ih =>
    by_cases hcur : getEpochMs st.now < endTimeMs
    · obtain ⟨st', hturn, h', hnext⟩ := idealTurn_of_invariant hpace
        (fun k p hp => (hadvances k p hp).paired) hcur h
      have hloop := mainLoop_of_turn hcur hturn
      by_cases hend : endTimeMs ≤ getEpochMs st'.now
      · refine ⟨2, st', ?_, h', hend⟩
        rw [hloop, mainLoop_of_late (not_lt.mpr hend)]
      · rcases hnext with ⟨-, hnow⟩ | ⟨p, c, hsends⟩
        · exact absurd hnow.ge hend
        · have hnow := hsends.now
          have hless := outstanding_lt (hadvances _ _ hsends.pattern) hsends
            (hstart.trans_lt hcur) (by omega)
          have hlater : start ≤ getEpochMs st'.now := by
            rw [hnow, hsends.time, Pattern.dueTime]
            omega
          rw [hm] at hless
          obtain ⟨fuel, st'', hfinish, h'', hend⟩ := ih _ hless h' hlater rfl
          exact ⟨fuel + 1, st'', (hloop fuel).trans hfinish, h'', hend⟩
    · exact ⟨1, st, mainLoop_of_late hcur 0, h, not_lt.mp hcur⟩

/-- More fuel does not change how a finished loop ends. -/
theorem mainLoop_mono {fuel fuel' : ℕ} {st' : LoopState}
    (h : mainLoop parameters dScenarios endTimeMs fuel st = .finished st')
    (hle : fuel ≤ fuel') :
    mainLoop parameters dScenarios endTimeMs fuel' st = .finished st' := by
  induction fuel generalizing st fuel' with
  | zero => cases h
  | succ fuel ih =>
      obtain ⟨extra, rfl⟩ : ∃ extra, fuel' = extra + 1 :=
        ⟨fuel' - 1, by omega⟩
      by_cases hcur : getEpochMs st.now < endTimeMs
      · rcases hturn : idealTurn parameters dScenarios endTimeMs st with
          ⟨error | _, next⟩
        · rw [mainLoop_of_raised hcur hturn] at h
          cases h
        · rw [mainLoop_of_turn hcur hturn] at h ⊢
          exact ih h (by omega)
      · rw [mainLoop_of_late hcur] at h ⊢
        exact h

/-! ## The commands that were sent -/

/-- The commands of a run loop started at `start`: every scenario with a
pattern was sent the first commands of its timetable, each when it was due;
all commands came in order; none was left out up to the first one at or after
the end of the run, with which the loop ended. -/
structure Followed (dScenarios : Dict PyStr Scenario)
    (start endTimeMs : ℤ) (sent : List RateChange) : Prop where
  addressed : ∀ c ∈ sent, c.scn ∈ (scnWPattern dScenarios).keys
  follows : ∀ k p, (scnWPattern dScenarios).get? k = some p →
    ∀ n < (commandsTo k sent).length, p.Due n ∧
      (commandsTo k sent)[n]? = scheduled dScenarios k p start n
  ordered : sent.Pairwise fun a b => a.time ≤ b.time
  complete : ∀ k p n, (scnWPattern dScenarios).get? k = some p → p.Due n →
    (commandsTo k sent).length ≤ n →
    endTimeMs ≤ p.dueTime start n ∧
      (∀ c ∈ sent, c.time ≤ p.dueTime start n) ∧
      (start < endTimeMs → ∃ c, sent.getLast? = some c ∧ endTimeMs ≤ c.time)
  within : ∀ c ∈ sent.dropLast, c.time < endTimeMs

theorem due_of_progress {p : Pattern} {cur : ℤ} {n m : ℕ}
    {stream : Option Stream} (h : Progress p start cur n stream)
    (hm : m < n) : p.Due m := by
  have hless : p.Due n → p.Due m := by
    rintro (hrepeat | hlt)
    · exact Or.inl hrepeat
    · exact Or.inr (hm.trans hlt)
  cases h with
  | passed _ _ hn => exact Or.inr (hn ▸ hm)
  | exhausted _ _ _ _ hdue => exact hless hdue
  | pending _ _ hdue => exact hless hdue

theorem le_dueTime_of_progress {p : Pattern} {cur : ℤ} {n m : ℕ}
    {stream : Option Stream} (hp : p.Paired)
    (h : Progress p start cur n stream) (hdue : p.Due m) (hm : n ≤ m) :
    p.passed = false ∧ cur ≤ p.dueTime start m := by
  have hmono : p.dueTime start n ≤ p.dueTime start m := by
    have hle := due_mono hp.length_pos hm
    simp only [Pattern.dueTime]
    omega
  cases h with
  | passed _ hrepeat hn =>
      rcases hdue with hdue | hdue
      · simp [hrepeat] at hdue
      · omega
  | exhausted hactive _ _ hcur _ =>
      refine ⟨hactive, le_trans ?_ hmono⟩
      have hle := cycle_start_le_due p.timepoints n
      rw [Pattern.dueTime, hcur]
      omega
  | pending hactive hcur _ => exact ⟨hactive, hcur.trans hmono⟩

/-- The pattern of a scenario in the plan differs from the prepared one at most
in its mark `passed`. -/
theorem LoopInvariant.exists_pattern {k : PyStr} {p : Pattern}
    (h : LoopInvariant dScenarios start endTimeMs st)
    (hp : (scnWPattern dScenarios).get? k = some p) :
    ∃ q, st.plan.patterns.get? k = some q ∧ p = { q with passed := false } := by
  have hk : k ∈ st.plan.patterns.keys := by
    rw [h.keys]
    exact Dict.mem_keys_iff.mpr ⟨p, hp⟩
  obtain ⟨q, hq⟩ := Dict.mem_keys_iff.mp hk
  exact ⟨q, hq, Option.some.inj (hp.symm.trans (h.same k q hq))⟩

theorem LoopInvariant.sent_of_lt {k : PyStr} {p : Pattern} {n : ℕ}
    (h : LoopInvariant dScenarios start endTimeMs st)
    (hp : (scnWPattern dScenarios).get? k = some p)
    (hn : n < (commandsTo k st.sent).length) :
    p.Due n ∧ (commandsTo k st.sent)[n]? = scheduled dScenarios k p start n := by
  obtain ⟨q, hq, rfl⟩ := h.exists_pattern hp
  have hdue : q.Due n := due_of_progress (h.progress k q hq) hn
  exact ⟨hdue, h.follows k q hq n hn⟩

/-- The clock does not pass a command that was not sent. -/
theorem LoopInvariant.le_dueTime {k : PyStr} {p : Pattern} {n : ℕ}
    (hpaired : ∀ k p, (scnWPattern dScenarios).get? k = some p → p.Paired)
    (h : LoopInvariant dScenarios start endTimeMs st)
    (hp : (scnWPattern dScenarios).get? k = some p) (hdue : p.Due n)
    (hn : (commandsTo k st.sent).length ≤ n) :
    (∃ q, st.plan.patterns.get? k = some q ∧ q.passed = false) ∧
      getEpochMs st.now ≤ p.dueTime start n := by
  obtain ⟨q, hq, rfl⟩ := h.exists_pattern hp
  obtain ⟨hactive, hlate⟩ := le_dueTime_of_progress (h.paired hpaired hq)
    (h.progress k q hq) hdue hn
  exact ⟨⟨q, hq, hactive⟩, hlate⟩

theorem followed_of_invariant
    (hpaired : ∀ k p, (scnWPattern dScenarios).get? k = some p → p.Paired)
    (h : LoopInvariant dScenarios start endTimeMs st)
    (hend : endTimeMs ≤ getEpochMs st.now) :
    Followed dScenarios start endTimeMs st.sent := by
  refine ⟨fun c hc => h.keys ▸ h.addressed c hc,
    fun k p hp n hn => h.sent_of_lt hp hn, h.ordered, ?_, h.within⟩
  intro k p n hp hdue hn
  obtain ⟨⟨q, hq, hactive⟩, hlate⟩ := h.le_dueTime hpaired hp hdue hn
  refine ⟨hend.trans hlate, fun c hc => (h.past c hc).trans hlate, ?_⟩
  intro hstart
  rcases h.latest with ⟨-, hcur⟩ | ⟨c, hlast, htime⟩ | hpassed
  · omega
  · exact ⟨c, hlast, htime ▸ hend⟩
  · simp [hpassed k q hq] at hactive

theorem invariant_initial {now : ℚ}
    (hpatterns : ∀ k p, (scnWPattern dScenarios).get? k = some p →
      p.Paired ∧ p.passed = false) :
    LoopInvariant dScenarios (getEpochMs now) endTimeMs
      (initialLoop dScenarios now) where
  keys := rfl
  same k p hp := by
    obtain ⟨-, hfresh⟩ := hpatterns k p hp
    rw [← hfresh]
    exact hp
  known k hk := absurd hk List.not_mem_nil
  progress k p hp := by
    obtain ⟨hp', hfresh⟩ := hpatterns k p hp
    refine .exhausted hfresh ?_ ?_ ?_ (Or.inr hp'.length_pos)
    · intro s hs
      simp [initialLoop, initialPlan] at hs
    · simp [initialLoop, commandsTo]
    · simp [initialLoop, commandsTo]
  follows k p hp n hn := by simp [initialLoop, commandsTo] at hn
  addressed c hc := by simp [initialLoop] at hc
  ordered := List.Pairwise.nil
  past c hc := by simp [initialLoop] at hc
  latest := Or.inl ⟨rfl, rfl⟩
  within c hc := by simp [initialLoop] at hc

/-! ## The states of a run

A pattern without timepoints makes the first turn raise, and one that repeats
without taking time keeps the loop from ending.  What the loop reaches is the
start of the first turn, or keeps the invariant.
-/

/-- A turn that the loop makes. -/
def LoopStep (parameters : ℕ) (dScenarios : Dict PyStr Scenario)
    (endTimeMs : ℤ) (st st' : LoopState) : Prop :=
  getEpochMs st.now < endTimeMs ∧
    idealTurn parameters dScenarios endTimeMs st = (.ok (), st')

/-- The loop comes from `st` to `st'`. -/
def Reached (parameters : ℕ) (dScenarios : Dict PyStr Scenario)
    (endTimeMs : ℤ) (st st' : LoopState) : Prop :=
  Relation.ReflTransGen (LoopStep parameters dScenarios endTimeMs) st st'

theorem reached_of_finished {fuel : ℕ} {st' : LoopState}
    (h : mainLoop parameters dScenarios endTimeMs fuel st = .finished st') :
    Reached parameters dScenarios endTimeMs st st' := by
  induction fuel generalizing st with
  | zero => cases h
  | succ fuel ih =>
      by_cases hcur : getEpochMs st.now < endTimeMs
      · rcases hturn : idealTurn parameters dScenarios endTimeMs st with
          ⟨error | _, next⟩
        · rw [mainLoop_of_raised hcur hturn] at h
          cases h
        · rw [mainLoop_of_turn hcur hturn] at h
          exact .head ⟨hcur, hturn⟩ (ih h)
      · rw [mainLoop_of_late hcur, LoopEnd.finished.injEq] at h
        exact h ▸ .refl

theorem invariant_of_reached {st' : LoopState}
    (hpace : Paceable parameters dScenarios)
    (hpaired : ∀ k p, (scnWPattern dScenarios).get? k = some p → p.Paired)
    (h : LoopInvariant dScenarios start endTimeMs st)
    (hreached : Reached parameters dScenarios endTimeMs st st') :
    LoopInvariant dScenarios start endTimeMs st' := by
  induction hreached with
  | refl => exact h
  | tail _ hstep ih =>
      obtain ⟨hcur, hturn⟩ := hstep
      obtain ⟨next, hturn', hnext, -⟩ :=
        idealTurn_of_invariant hpace hpaired hcur ih
      obtain rfl := congrArg Prod.snd (hturn.symm.trans hturn')
      exact hnext

theorem nonempty_of_refill {cur : ℤ} {entries : List (PyStr × Pattern)}
    {streams streams' : Dict PyStr Stream}
    (hrefill : refill cur entries streams = some streams')
    (hnodup : (entries.map Prod.fst).Nodup)
    (hfresh : ∀ e ∈ entries, e.2.passed = false ∧
      streams.get? e.1 = none) :
    ∀ e ∈ entries, e.2.timepoints ≠ [] := by
  induction entries generalizing streams with
  | nil => simp
  | cons e rest ih =>
      obtain ⟨k, p⟩ := e
      rw [List.map_cons, List.nodup_cons] at hnodup
      obtain ⟨hactive, hnone⟩ := hfresh (k, p) List.mem_cons_self
      simp only at hactive hnone
      have hkeeps : keepsStream p (streams.get? k) = false := by
        simp [keepsStream, hactive, hnone]
      rw [refill, hkeeps, if_neg (by simp)] at hrefill
      obtain ⟨stream, hstream, hrest⟩ := Option.bind_eq_some_iff.mp hrefill
      have hothers : ∀ e ∈ rest, e.2.passed = false ∧
          (streams.set k stream).get? e.1 = none := by
        intro e he
        have hkey := List.mem_map_of_mem (f := Prod.fst) he
        have hne : e.1 ≠ k := fun heq => hnodup.1 (heq ▸ hkey)
        rw [Dict.get?_set_of_ne hne]
        exact hfresh e (List.mem_cons_of_mem _ he)
      intro e he
      rcases List.mem_cons.mp he with rfl | he
      · intro hempty
        have hraises : newStream cur p = none := if_pos hempty
        exact absurd (hraises.symm.trans hstream) (Option.some_ne_none _).symm
      · exact ih hrest hnodup.2 hothers e he

theorem refill_of_empty {k : PyStr} {p : Pattern}
    (hactive : ∀ k p, (scnWPattern dScenarios).get? k = some p →
      p.passed = false)
    (hp : (scnWPattern dScenarios).get? k = some p)
    (hempty : p.timepoints = []) (cur : ℤ) :
    refill cur (scnWPattern dScenarios).entries Dict.empty = none := by
  by_contra hsome
  obtain ⟨streams, hstreams⟩ := Option.ne_none_iff_exists'.mp hsome
  refine nonempty_of_refill hstreams (Dict.nodup_keys _)
    (fun e he => ⟨?_, Dict.get?_empty _⟩) (k, p)
    (Dict.get?_eq_some_iff.mp hp) hempty
  exact hactive e.1 e.2 (Dict.get?_eq_some_iff.mpr he)

theorem first_turn_of_empty {k : PyStr} {p : Pattern} {cur : ℤ}
    (hactive : ∀ k p, (scnWPattern dScenarios).get? k = some p →
      p.passed = false)
    (hp : (scnWPattern dScenarios).get? k = some p)
    (hempty : p.timepoints = []) :
    loopBody parameters dScenarios endTimeMs cur (initialPlan dScenarios) =
      ⟨.error .indexError, initialPlan dScenarios, []⟩ :=
  loopBody_of_empty (refill_of_empty hactive hp hempty cur)

/-- The loop does not get past its start, or its patterns have timepoints and it
keeps the invariant. -/
theorem reached_cases {now : ℚ} (hpace : Paceable parameters dScenarios)
    (hfresh : ∀ k p, (scnWPattern dScenarios).get? k = some p → p.Fresh)
    (hreached : Reached parameters dScenarios endTimeMs
      (initialLoop dScenarios now) st) :
    st = initialLoop dScenarios now ∨
      ((∀ k p, (scnWPattern dScenarios).get? k = some p → p.Paired) ∧
        LoopInvariant dScenarios (getEpochMs now) endTimeMs st) := by
  rcases hreached.cases_head with hrefl | ⟨first, ⟨-, hturn⟩, -⟩
  · exact Or.inl hrefl.symm
  · have hpaired : ∀ k p, (scnWPattern dScenarios).get? k = some p →
        p.Paired := by
      refine fun k p hp => ⟨fun hempty => ?_, (hfresh k p hp).lengths⟩
      have hraises : idealTurn parameters dScenarios endTimeMs
          (initialLoop dScenarios now) = (.error .indexError, _) :=
        Prod.ext (congrArg Outcome.result (first_turn_of_empty
          (fun k p hp => (hfresh k p hp).active) hp hempty)) rfl
      cases congrArg Prod.fst (hraises.symm.trans hturn)
    refine Or.inr ⟨hpaired, invariant_of_reached hpace hpaired ?_ hreached⟩
    exact invariant_initial fun k p hp =>
      ⟨hpaired k p hp, (hfresh k p hp).active⟩

/-! ## All commands -/

/-- The run loop ends, and it sends every scenario with a pattern exactly the
commands of its timetable, in order and each when it is due, up to the first
command at or after the end of the run. -/
def FollowsPatterns (parameters : ℕ) (dScenarios : Dict PyStr Scenario)
    (now : ℚ) (endTimeMs : ℤ) : Prop :=
  ∃ sent, Followed dScenarios (getEpochMs now) endTimeMs sent ∧
    ∃ enough, ∀ fuel ≥ enough, ∃ st, st.sent = sent ∧
      mainLoop parameters dScenarios endTimeMs fuel
        (initialLoop dScenarios now) = .finished st

/-- With a third parameter of `title` and an ideal clock the patterns would be
followed. -/
theorem followsPatterns_of_paceable (hpace : Paceable parameters dScenarios)
    (now : ℚ) (endTimeMs : ℤ)
    (hpatterns : ∀ k p, (scnWPattern dScenarios).get? k = some p →
      p.WellTimed ∧ p.passed = false) :
    FollowsPatterns parameters dScenarios now endTimeMs := by
  have hwell := fun k p hp => (hpatterns k p hp).1
  have hpaired := fun k p hp => (hwell k p hp).paired
  have hinit : LoopInvariant dScenarios (getEpochMs now) endTimeMs
      (initialLoop dScenarios now) :=
    invariant_initial fun k p hp => ⟨hpaired k p hp, (hpatterns k p hp).2⟩
  obtain ⟨enough, st, hfinish, hinv, hend⟩ := mainLoop_of_invariant hpace
    (fun k p hp => (hwell k p hp).advances) hinit le_rfl
  refine ⟨st.sent, followed_of_invariant hpaired hinv hend, enough, ?_⟩
  exact fun fuel hfuel => ⟨st, rfl, mainLoop_mono hfinish hfuel⟩

/-- A scenario that only its pattern matters of. -/
def patternScenario (cPort : ℕ) (pattern : Pattern) : Scenario where
  cPort := cPort
  pid := some 1
  ip := "127.0.0.1".toList
  type := "client".toList
  duration := 10
  cli := ⟨⟨"client".toList, [], [], [], [], [], none, none, none,
    ⟨"1".toList, some 1⟩, .absent, none, some cPort, true⟩, []⟩
  pattern := some pattern

/-- A pattern that repeats beside one that does not. -/
def twoPatterns : Dict PyStr Scenario :=
  (Dict.empty.set "A".toList (patternScenario 8888
    ⟨[10, 20], [⟨"3".toList, 3⟩, ⟨"1".toList, 1⟩], true, false⟩)).set
    "B".toList (patternScenario 8889
      ⟨[15, 0], [⟨"5".toList, 5⟩, ⟨"2".toList, 2⟩], false, false⟩)

theorem wellTimed_twoPatterns : ∀ k p,
    (scnWPattern twoPatterns).get? k = some p →
      p.WellTimed ∧ p.passed = false := by
  intro k p hp
  obtain ⟨v, hv, hpattern⟩ :=
    Dict.mem_entries_filterMap.mp (Dict.get?_eq_some_iff.mp hp)
  rcases Dict.mem_entries_set.mp hv with heq | ⟨-, hv⟩
  · obtain ⟨-, rfl⟩ := Prod.mk.inj heq
    obtain rfl := Option.some.inj hpattern
    exact ⟨⟨by simp, by decide, rfl⟩, rfl⟩
  · rcases Dict.mem_entries_set.mp hv with heq | ⟨-, hv⟩
    · obtain ⟨-, rfl⟩ := Prod.mk.inj heq
      obtain rfl := Option.some.inj hpattern
      exact ⟨⟨by simp, by decide, rfl⟩, rfl⟩
    · exact absurd hv (by simp [Dict.empty])

end SippScen.Orchestrator
