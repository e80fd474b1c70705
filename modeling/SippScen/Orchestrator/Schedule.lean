import SippScen.Orchestrator.RunLoop
import SippScen.Support.Timetable

/-!
# The schedule of the rate changes

With an ideal clock the run loop sends every scenario the commands of its
cyclic timetable.  The invariant relates the remaining stream of each scenario
to the number of commands that it was sent: the stream is what remains of the
current cycle, or the cycle has just ended at the time that the clock shows.
-/

namespace SippScen.Orchestrator

open SippScen.Support

/-! ## The timetable of a pattern -/

namespace Pattern

/-- The time of command `n` of the pattern in a run loop started at `start`. -/
def dueTime (p : Pattern) (start : ℤ) (n : ℕ) : ℤ :=
  start + due p.timepoints n

/-- A pattern that does not repeat has only the commands of one cycle. -/
def Due (p : Pattern) (n : ℕ) : Prop :=
  p.repeat = true ∨ n < p.timepoints.length

/-- There are timepoints, a cycle takes time, and every timepoint has its
rate. -/
structure WellTimed (p : Pattern) : Prop where
  nonempty : p.timepoints ≠ []
  positive : 0 < p.timepoints.sum
  lengths : p.cps.length = p.timepoints.length

/-- There are timepoints, and every timepoint has its rate: what a turn of the
loop needs. -/
structure Paired (p : Pattern) : Prop where
  nonempty : p.timepoints ≠ []
  lengths : p.cps.length = p.timepoints.length

/-- A pattern that does not hold up the loop: a cycle that is repeated takes
time. -/
structure Advances (p : Pattern) : Prop where
  paired : p.Paired
  positive : p.repeat = true → 0 < p.timepoints.sum

/-- What the preparation sees to: every timepoint has its rate, and the pattern
has not passed. -/
structure Fresh (p : Pattern) : Prop where
  lengths : p.cps.length = p.timepoints.length
  active : p.passed = false

/-- What remains of the current cycle after `n` commands. -/
def remaining (p : Pattern) (start : ℤ) (n : ℕ) : Stream where
  streams := (List.range' n
    (p.timepoints.length - n % p.timepoints.length)).map (p.dueTime start)
  cps := p.cps.drop (n % p.timepoints.length)

/-- The rest of a stream, after its first command is taken. -/
def rest (s : Stream) : Stream := ⟨s.streams.tail, s.cps.tail⟩

end Pattern

variable {p : Pattern} {start cur : ℤ} {n : ℕ}

theorem Pattern.WellTimed.paired (h : p.WellTimed) : p.Paired :=
  ⟨h.nonempty, h.lengths⟩

theorem Pattern.WellTimed.advances (h : p.WellTimed) : p.Advances :=
  ⟨h.paired, fun _ => h.positive⟩

theorem Pattern.Paired.length_pos (h : p.Paired) :
    0 < p.timepoints.length :=
  List.length_pos_iff.mpr h.nonempty

theorem partialSums_eq (acc : ℕ) (ts : List ℕ) :
    partialSums acc ts =
      (List.range' 0 ts.length).map fun i => acc + (ts.take (i + 1)).sum := by
  induction ts generalizing acc with
  | nil => rfl
  | cons t ts ih =>
      rw [partialSums, ih, List.length_cons, List.range'_succ, List.map_cons,
        List.range'_eq_map_range (s := 0 + 1), List.range'_eq_map_range]
      simp [Nat.add_assoc, Nat.add_comm 1]

/-- The cycle that starts at the time shown by the clock is the next cycle of
the timetable. -/
theorem newStream_eq (hp : p.Paired) (hn : n % p.timepoints.length = 0)
    (hcur : cur = start +
      (n / p.timepoints.length * p.timepoints.sum : ℕ)) :
    newStream cur p = some (p.remaining start n) := by
  have hcycle : n = n / p.timepoints.length * p.timepoints.length := by
    have hdecomp := Nat.div_add_mod' n p.timepoints.length
    omega
  rw [newStream, if_neg hp.nonempty, Option.some.injEq, Pattern.remaining,
    Stream.mk.injEq]
  constructor
  · rw [partialSums_eq, hn, Nat.sub_zero, List.map_map,
      List.range'_eq_map_range (s := n), List.range'_eq_map_range (s := 0),
      List.map_map, List.map_map]
    refine List.map_congr_left fun i hi => ?_
    have hdue := due_cycle p.timepoints (n / p.timepoints.length)
      (List.mem_range.mp hi)
    simp only [Function.comp_apply, Pattern.dueTime, Nat.zero_add]
    rw [hcycle, hdue, hcur]
    push_cast
    ring
  · rw [hn, List.drop_zero]

theorem remaining_streams (start : ℤ) (n : ℕ) (hp : p.Paired) :
    (p.remaining start n).streams = p.dueTime start n ::
      (Pattern.rest (p.remaining start n)).streams := by
  have hlt := Nat.mod_lt n hp.length_pos
  obtain ⟨l, hl⟩ : ∃ l, p.timepoints.length - n % p.timepoints.length =
      l + 1 := ⟨_, (Nat.succ_pred_eq_of_pos (by omega)).symm⟩
  simp [Pattern.remaining, Pattern.rest, hl, List.range'_succ]

theorem rest_remaining (start : ℤ) (hp : p.Paired)
    (hlast : n % p.timepoints.length + 1 ≠ p.timepoints.length) :
    Pattern.rest (p.remaining start n) = p.remaining start (n + 1) := by
  have hlt := Nat.mod_lt n hp.length_pos
  have hsucc : (n + 1) % p.timepoints.length =
      n % p.timepoints.length + 1 := by
    rw [Nat.add_mod, Nat.mod_eq_of_lt (b := p.timepoints.length)
      (a := _ + _)]
    · rw [Nat.mod_eq_of_lt (a := 1) (by omega)]
    · rw [Nat.mod_eq_of_lt (a := 1) (by omega)]
      omega
  rw [Pattern.rest, Pattern.remaining, Pattern.remaining, Stream.mk.injEq,
    hsucc]
  constructor
  · rw [← List.map_tail, List.tail_range', Nat.sub_sub]
  · rw [List.tail_drop]

theorem rest_remaining_last (start : ℤ)
    (hlast : n % p.timepoints.length + 1 = p.timepoints.length) :
    (Pattern.rest (p.remaining start n)).streams = [] := by
  have hnone : p.timepoints.length - n % p.timepoints.length - 1 = 0 := by
    omega
  simp only [Pattern.rest, Pattern.remaining, ← List.map_tail,
    List.tail_range', hnone, List.range'_zero, List.map_nil]

theorem remaining_cps (start : ℤ) (n : ℕ) (hp : p.Paired) :
    (p.remaining start n).cps.head? = p.cps[n % p.timepoints.length]? ∧
      ∃ cps, p.cps[n % p.timepoints.length]? = some cps := by
  have hlt := Nat.mod_lt n hp.length_pos
  rw [← hp.lengths] at hlt ⊢
  refine ⟨?_, _, List.getElem?_eq_getElem hlt⟩
  rw [Pattern.remaining, List.head?_drop, hp.lengths]

/-! ## The progress of a scenario -/

/-- The progress of a scenario that was sent `n` commands, when the clock
shows `cur` at the start of a turn: its pattern has passed, or a cycle ends
just now, or the rest of the cycle is pending. -/
inductive Progress (p : Pattern) (start cur : ℤ) (n : ℕ) :
    Option Stream → Prop
  | passed (hpassed : p.passed = true) (hrepeat : p.repeat = false)
      (hn : n = p.timepoints.length) : Progress p start cur n none
  | exhausted {stream : Option Stream} (hactive : p.passed = false)
      (hempty : ∀ s, stream = some s → s.streams = [])
      (hn : n % p.timepoints.length = 0)
      (hcur : cur = start +
        (n / p.timepoints.length * p.timepoints.sum : ℕ))
      (hdue : p.Due n) : Progress p start cur n stream
  | pending (hactive : p.passed = false) (hcur : cur ≤ p.dueTime start n)
      (hdue : p.Due n) : Progress p start cur n (some (p.remaining start n))

/-- The progress after the next cycles are started: the pattern has passed,
or commands are pending. -/
inductive Ready (p : Pattern) (start cur : ℤ) (n : ℕ) : Option Stream → Prop
  | passed (hpassed : p.passed = true) (hrepeat : p.repeat = false)
      (hn : n = p.timepoints.length) : Ready p start cur n none
  | pending (hactive : p.passed = false) (hcur : cur ≤ p.dueTime start n)
      (hdue : p.Due n) : Ready p start cur n (some (p.remaining start n))

theorem ready_of_progress {stream : Option Stream} (hp : p.Paired)
    (h : Progress p start cur n stream) :
    ∃ stream', Ready p start cur n stream' ∧
      if keepsStream p stream then stream' = stream
      else newStream cur p = stream' := by
  cases h with
  | passed hpassed hrepeat hn =>
      exact ⟨none, .passed hpassed hrepeat hn, by simp [keepsStream, hpassed]⟩
  | exhausted hactive hempty hn hcur hdue =>
      have hkeeps : keepsStream p stream = false := by
        cases stream with
        | none => simp [keepsStream, hactive]
        | some s => simp [keepsStream, hactive, hempty s rfl]
      have hnew := newStream_eq hp hn hcur
      refine ⟨_, .pending hactive ?_ hdue, by simpa [hkeeps] using hnew⟩
      have hle := cycle_start_le_due p.timepoints n
      rw [Pattern.dueTime, hcur]
      omega
  | pending hactive hcur hdue =>
      refine ⟨_, .pending hactive hcur hdue, ?_⟩
      have hstreams := remaining_streams start n hp
      simp [keepsStream, hstreams]

theorem progress_of_taken (start : ℤ) (hp : p.Paired)
    (hactive : p.passed = false) (hdue : p.Due n) :
    if (Pattern.rest (p.remaining start n)).streams = [] ∧ p.repeat = false
    then Progress { p with passed := true } start (p.dueTime start n) (n + 1)
      none
    else Progress p start (p.dueTime start n) (n + 1)
      (some (Pattern.rest (p.remaining start n))) := by
  have hlt := Nat.mod_lt n hp.length_pos
  by_cases hlast : n % p.timepoints.length + 1 = p.timepoints.length
  · have hrest := rest_remaining_last start hlast
    have hmod : (n + 1) % p.timepoints.length = 0 := by
      rw [Nat.add_mod]
      by_cases hone : p.timepoints.length = 1
      · rw [hone, Nat.mod_one]
      · rw [Nat.mod_eq_of_lt (a := 1) (by omega), hlast, Nat.mod_self]
    by_cases hrepeat : p.repeat = false
    · rw [if_pos ⟨hrest, hrepeat⟩]
      refine .passed rfl hrepeat ?_
      rcases hdue with hdue | hdue
      · exact absurd hdue (by simp [hrepeat])
      · have hsmall := Nat.mod_eq_of_lt hdue
        simp only
        omega
    · rw [if_neg fun h => hrepeat h.2]
      refine .exhausted hactive ?_ hmod ?_ (Or.inl (by simpa using hrepeat))
      · intro s hs
        rw [← Option.some.inj hs, hrest]
      · rw [Pattern.dueTime, due_of_last hlast]
  · have hrest := rest_remaining start hp hlast
    have hmod : (n + 1) % p.timepoints.length =
        n % p.timepoints.length + 1 := by
      rw [Nat.add_mod, Nat.mod_eq_of_lt (a := 1) (by omega),
        Nat.mod_eq_of_lt (by omega)]
    have hmore : (Pattern.rest (p.remaining start n)).streams ≠ [] := by
      rw [hrest, remaining_streams _ _ hp]
      simp
    rw [if_neg fun h => hmore h.1, hrest]
    refine .pending hactive ?_ ?_
    · have hle := due_le_due_succ hp.length_pos n
      simp only [Pattern.dueTime]
      omega
    · rcases hdue with hdue | hdue
      · exact Or.inl hdue
      · refine Or.inr ?_
        rw [Nat.mod_eq_of_lt hdue] at hlast
        omega

/-! ## The turns of the loop -/

theorem refill_get? (cur : ℤ) {entries : List (PyStr × Pattern)}
    (streams : Dict PyStr Stream) (hnodup : (entries.map Prod.fst).Nodup)
    (hnonempty : ∀ e ∈ entries, e.2.timepoints ≠ []) :
    ∃ streams', refill cur entries streams = some streams' ∧
      (∀ k p, (k, p) ∈ entries → streams'.get? k =
        if keepsStream p (streams.get? k) then streams.get? k
        else newStream cur p) ∧
      ∀ k, k ∉ entries.map Prod.fst →
        streams'.get? k = streams.get? k := by
  induction entries generalizing streams with
  | nil => exact ⟨streams, rfl, by simp, fun _ _ => rfl⟩
  | cons e rest ih =>
      obtain ⟨k, p⟩ := e
      rw [List.map_cons, List.nodup_cons] at hnodup
      have hrest := fun e he => hnonempty e (List.mem_cons_of_mem _ he)
      have hne : ∀ k' p', (k', p') ∈ rest → k' ≠ k := by
        intro k' p' hmem heq
        have hkey := List.mem_map_of_mem (f := Prod.fst) hmem
        exact hnodup.1 (heq ▸ hkey)
      by_cases hkeeps : keepsStream p (streams.get? k)
      · obtain ⟨streams', hrefill, hin, hout⟩ :=
          ih streams hnodup.2 hrest
        refine ⟨streams', by rw [refill, if_pos hkeeps, hrefill], ?_, ?_⟩
        · intro k' p' hmem
          rcases List.mem_cons.mp hmem with heq | hmem
          · obtain ⟨rfl, rfl⟩ := Prod.mk.inj heq
            rw [if_pos hkeeps, hout _ hnodup.1]
          · exact hin k' p' hmem
        · intro k' hk'
          exact hout k' fun hmem => hk' (List.mem_cons_of_mem _ hmem)
      · obtain ⟨stream, hstream⟩ : ∃ stream, newStream cur p = some stream :=
          ⟨_, if_neg (hnonempty _ List.mem_cons_self)⟩
        obtain ⟨streams', hrefill, hin, hout⟩ :=
          ih (streams.set k stream) hnodup.2 hrest
        refine ⟨streams', ?_, ?_, ?_⟩
        · rw [refill, if_neg hkeeps, hstream]
          exact hrefill
        · intro k' p' hmem
          rcases List.mem_cons.mp hmem with heq | hmem
          · obtain ⟨rfl, rfl⟩ := Prod.mk.inj heq
            rw [if_neg hkeeps, hout _ hnodup.1, Dict.get?_set_self, hstream]
          · rw [hin k' p' hmem, Dict.get?_set_of_ne (hne k' p' hmem)]
        · intro k' hk'
          rw [List.map_cons, List.mem_cons, not_or] at hk'
          rw [hout k' hk'.2, Dict.get?_set_of_ne hk'.1]

/-- The commands sent to a scenario. -/
def commandsTo (k : PyStr) (sent : List RateChange) : List RateChange :=
  sent.filter fun c => c.scn = k

/-- Every scenario with a pattern is ready, and there are no other streams. -/
structure AllReady (patterns : Dict PyStr Pattern)
    (streams : Dict PyStr Stream) (start cur : ℤ) (sent : List RateChange) :
    Prop where
  ready : ∀ k p, patterns.get? k = some p →
    Ready p start cur (commandsTo k sent).length (streams.get? k)
  known : ∀ k ∈ streams.keys, k ∈ patterns.keys

variable {patterns : Dict PyStr Pattern} {streams : Dict PyStr Stream}
variable {sent : List RateChange}

/-- When all scenarios are ready, either all patterns have passed, or the next
change is the first command pending. -/
theorem nextChange_of_ready
    (hpaired : ∀ k p, patterns.get? k = some p → p.Paired)
    (h : AllReady patterns streams start cur sent) :
    (nextChange streams = some none ∧
      ∀ k p, patterns.get? k = some p → p.passed = true) ∨
    ∃ k p, patterns.get? k = some p ∧ p.passed = false ∧
      p.Due (commandsTo k sent).length ∧
      cur ≤ p.dueTime start (commandsTo k sent).length ∧
      nextChange streams =
        some (some (k, p.remaining start (commandsTo k sent).length)) ∧
      ∀ k' p', patterns.get? k' = some p' → p'.passed = false →
        p.dueTime start (commandsTo k sent).length ≤
          p'.dueTime start (commandsTo k' sent).length := by
  have hstream : ∀ k s, (k, s) ∈ streams.entries →
      ∃ p, patterns.get? k = some p ∧ p.passed = false ∧
        p.Due (commandsTo k sent).length ∧
        cur ≤ p.dueTime start (commandsTo k sent).length ∧
        s = p.remaining start (commandsTo k sent).length := by
    intro k s hs
    obtain ⟨p, hp⟩ := Dict.mem_keys_iff.mp
      (h.known k (Dict.mem_keys_of_mem hs))
    have hready := h.ready k p hp
    rw [Dict.get?_eq_some_iff.mpr hs] at hready
    cases hready with
    | pending hactive hcur hdue => exact ⟨p, hp, hactive, hdue, hcur, rfl⟩
  have hheads : ∀ e ∈ streams.entries, e.2.streams ≠ [] := by
    rintro ⟨k, s⟩ he
    obtain ⟨p, hp, -, -, -, rfl⟩ := hstream k s he
    rw [remaining_streams _ _ (hpaired k p hp)]
    exact List.cons_ne_nil _ _
  have hnext : nextChange streams =
      some (streams.entries.minOn? fun e => e.2.streams.headD 0) := by
    rw [nextChange, if_neg]
    simpa using hheads
  cases hmin : streams.entries.minOn? fun e => e.2.streams.headD 0 with
  | none =>
      refine Or.inl ⟨by rw [hnext, hmin], fun k p hp => ?_⟩
      have hnil : streams.entries = [] := by
        by_contra hcons
        have hsome := List.isSome_minOn?_iff
          (f := fun e : PyStr × Stream => e.2.streams.headD 0) |>.mpr hcons
        rw [hmin] at hsome
        exact absurd hsome (by simp)
      have hready := h.ready k p hp
      have hnone : streams.get? k = none :=
        Dict.get?_eq_none_iff.mpr (by simp [Dict.keys, hnil])
      rw [hnone] at hready
      cases hready with
      | passed hpassed => exact hpassed
  | some e =>
      obtain ⟨k, s⟩ := e
      obtain ⟨p, hp, hactive, hdue, hcur, rfl⟩ :=
        hstream k s (List.minOn?_mem hmin)
      refine Or.inr ⟨k, p, hp, hactive, hdue, hcur, by rw [hnext, hmin], ?_⟩
      intro k' p' hp' hactive'
      have hready := h.ready k' p' hp'
      cases hs' : streams.get? k' with
      | none =>
          rw [hs'] at hready
          cases hready with
          | passed hpassed => simp [hpassed] at hactive'
      | some s' =>
          have hmem := Dict.get?_eq_some_iff.mp hs'
          obtain ⟨q, hq, -, -, -, rfl⟩ := hstream k' s' hmem
          obtain rfl : p' = q := Option.some.inj (hp'.symm.trans hq)
          have hle := List.apply_get_minOn?_le_of_mem
            (f := fun e : PyStr × Stream => e.2.streams.headD 0) hmem
          simp only [hmin, Option.get_some] at hle
          simpa [remaining_streams _ _ (hpaired k p hp),
            remaining_streams _ _ (hpaired k' p' hp')] using hle

/-! ## The invariant of the loop -/

/-- The command that gives a scenario a rate, sent at a time. -/
def rateCommand (dScenarios : Dict PyStr Scenario) (time : ℤ) (scn : PyStr)
    (cps : Number) : Option RateChange := do
  let v ← dScenarios.get? scn
  some ⟨time, scn, cps, sendControlCmd (.setRate cps) v.cPort v.ip⟩

/-- Command `n` of the timetable of scenario `k`. -/
def scheduled (dScenarios : Dict PyStr Scenario) (k : PyStr) (p : Pattern)
    (start : ℤ) (n : ℕ) : Option RateChange :=
  (p.cps[n % p.timepoints.length]?).bind
    (rateCommand dScenarios (p.dueTime start n) k)

/-- The state of the loop at the start of a turn: the patterns are those of
the scenarios, each scenario was sent the first commands of its timetable and
has made that progress, and the commands came in order, all but the last one
before the end of the run. -/
structure LoopInvariant (dScenarios : Dict PyStr Scenario)
    (start endTimeMs : ℤ) (st : LoopState) : Prop where
  keys : st.plan.patterns.keys = (scnWPattern dScenarios).keys
  same : ∀ k p, st.plan.patterns.get? k = some p →
    (scnWPattern dScenarios).get? k = some { p with passed := false }
  known : ∀ k ∈ st.plan.streams.keys, k ∈ st.plan.patterns.keys
  progress : ∀ k p, st.plan.patterns.get? k = some p →
    Progress p start (getEpochMs st.now) (commandsTo k st.sent).length
      (st.plan.streams.get? k)
  follows : ∀ k p, st.plan.patterns.get? k = some p →
    ∀ n < (commandsTo k st.sent).length,
      (commandsTo k st.sent)[n]? = scheduled dScenarios k p start n
  addressed : ∀ c ∈ st.sent, c.scn ∈ st.plan.patterns.keys
  ordered : st.sent.Pairwise fun a b => a.time ≤ b.time
  past : ∀ c ∈ st.sent, c.time ≤ getEpochMs st.now
  latest : (st.sent = [] ∧ getEpochMs st.now = start) ∨
    (∃ c, st.sent.getLast? = some c ∧ c.time = getEpochMs st.now) ∨
    ∀ k p, st.plan.patterns.get? k = some p → p.passed = true
  within : ∀ c ∈ st.sent.dropLast, c.time < endTimeMs

variable {dScenarios : Dict PyStr Scenario} {endTimeMs : ℤ} {st : LoopState}

/-- Sleeping until a time makes the clock show it. -/
theorem getEpochMs_sleep (now : ℚ) (t : ℤ) :
    getEpochMs (now + ((t - getEpochMs now : ℤ) : ℚ) / 1000) = t := by
  have hscale : (now + ((t - getEpochMs now : ℤ) : ℚ) / 1000) * 1000 =
      now * 1000 + ((t - getEpochMs now : ℤ) : ℚ) := by
    ring
  rw [getEpochMs, hscale, Int.floor_add_intCast]
  rw [getEpochMs]
  omega

@[simp] theorem commandsTo_append_self {c : RateChange} :
    commandsTo c.scn (sent ++ [c]) = commandsTo c.scn sent ++ [c] := by
  simp [commandsTo]

theorem commandsTo_append_of_ne {k : PyStr} {c : RateChange}
    (h : c.scn ≠ k) : commandsTo k (sent ++ [c]) = commandsTo k sent := by
  simp [commandsTo, h]

theorem LoopInvariant.paired
    (hpaired : ∀ k p, (scnWPattern dScenarios).get? k = some p → p.Paired)
    (h : LoopInvariant dScenarios start endTimeMs st) {k : PyStr}
    (hp : st.plan.patterns.get? k = some p) : p.Paired := by
  obtain ⟨hnonempty, hlengths⟩ := hpaired k _ (h.same k p hp)
  exact ⟨hnonempty, hlengths⟩

theorem allReady_of_invariant
    (hpaired : ∀ k p, (scnWPattern dScenarios).get? k = some p → p.Paired)
    (h : LoopInvariant dScenarios start endTimeMs st) :
    ∃ streams, refill (getEpochMs st.now) st.plan.patterns.entries
        st.plan.streams = some streams ∧
      AllReady st.plan.patterns streams start (getEpochMs st.now) st.sent := by
  obtain ⟨streams, hrefill, hin, hout⟩ :=
    refill_get? (getEpochMs st.now) st.plan.streams
      st.plan.patterns.nodup_keys fun e he =>
        (h.paired hpaired (Dict.get?_eq_some_iff.mpr he)).nonempty
  refine ⟨streams, hrefill, fun k p hp => ?_, fun k hk => ?_⟩
  · obtain ⟨stream', hready, hkeeps⟩ :=
      ready_of_progress (h.paired hpaired hp) (h.progress k p hp)
    rw [hin k p (Dict.get?_eq_some_iff.mp hp)]
    split at hkeeps
    · next hif => rwa [if_pos hif, ← hkeeps]
    · next hif => rwa [if_neg hif, hkeeps]
  · by_contra hnot
    obtain ⟨s, hs⟩ := Dict.mem_keys_iff.mp hk
    rw [hout k hnot] at hs
    exact hnot (h.known k (Dict.mem_keys_iff.mpr ⟨s, hs⟩))

theorem invariant_of_idle (hcur : getEpochMs st.now < endTimeMs)
    (h : LoopInvariant dScenarios start endTimeMs st)
    (hready : AllReady st.plan.patterns streams start (getEpochMs st.now)
      st.sent)
    (hpassed : ∀ k p, st.plan.patterns.get? k = some p → p.passed = true) :
    LoopInvariant dScenarios start endTimeMs
      { st with
        now := st.now + ((endTimeMs - getEpochMs st.now : ℤ) : ℚ) / 1000
        plan := { st.plan with streams := streams } } where
  keys := h.keys
  same := h.same
  known := hready.known
  progress k p hp := by
    have hk := hready.ready k p hp
    simp only
    cases hstream : streams.get? k with
    | none =>
        rw [hstream] at hk
        cases hk with
        | passed hp hrepeat hn => exact .passed hp hrepeat hn
    | some s =>
        rw [hstream] at hk
        cases hk with
        | pending hactive => simp [hpassed k p hp] at hactive
  follows := h.follows
  addressed := h.addressed
  ordered := h.ordered
  past c hc := by
    rw [getEpochMs_sleep]
    exact (h.past c hc).trans hcur.le
  latest := Or.inr (Or.inr hpassed)
  within := h.within

/-- The plan `after` differs from `before` in that command `n` of scenario `k`
was taken when it was due. -/
structure Taken (p : Pattern) (start : ℤ) (n : ℕ) (k : PyStr)
    (before after : Plan) : Prop where
  keys : after.patterns.keys = before.patterns.keys
  self : ∀ q, after.patterns.get? k = some q →
    { q with passed := false } = { p with passed := false } ∧
    Progress q start (p.dueTime start n) (n + 1) (after.streams.get? k)
  others : ∀ k', k' ≠ k →
    after.patterns.get? k' = before.patterns.get? k' ∧
    after.streams.get? k' = before.streams.get? k'
  known : ∀ k' ∈ after.streams.keys, k' ∈ before.streams.keys

/-- Taking the first command of scenario `k` moves its progress on and leaves
the other scenarios alone. -/
theorem taken_of_pending {k : PyStr} (hp : p.Paired)
    (hactive : p.passed = false) (hdue : p.Due n)
    (hk : patterns.get? k = some p)
    (hstream : streams.get? k = some (p.remaining start n)) :
    ∃ plan, Plan.taken ⟨patterns, streams⟩ k
        (Pattern.rest (p.remaining start n)) = some plan ∧
      Taken p start n k ⟨patterns, streams⟩ plan := by
  have hprogress := progress_of_taken start hp hactive hdue
  have hkey : k ∈ patterns.keys := Dict.mem_keys_iff.mpr ⟨p, hk⟩
  have hkey' : k ∈ streams.keys := Dict.mem_keys_iff.mpr ⟨_, hstream⟩
  by_cases hlast : (Pattern.rest (p.remaining start n)).streams = [] ∧
      p.repeat = false
  · rw [if_pos hlast] at hprogress
    refine ⟨⟨patterns.set k { p with passed := true }, streams.pop k⟩, ?_,
      ⟨Dict.keys_set_of_mem hkey _, fun q hq => ?_, fun k' hk' => ?_,
        fun k' hk' => ?_⟩⟩
    · simp [Plan.taken, hk, hlast]
    · rw [Dict.get?_set_self] at hq
      obtain rfl := Option.some.inj hq
      refine ⟨rfl, ?_⟩
      rwa [Dict.get?_pop_self]
    · exact ⟨Dict.get?_set_of_ne hk' _, Dict.get?_pop_of_ne hk'⟩
    · obtain ⟨s, hs⟩ := Dict.mem_keys_iff.mp hk'
      have hs' := (Dict.mem_entries_pop.mp (Dict.get?_eq_some_iff.mp hs)).1
      exact Dict.mem_keys_of_mem hs'
  · rw [if_neg hlast] at hprogress
    refine ⟨⟨patterns, streams.set k (Pattern.rest (p.remaining start n))⟩,
      ?_, ⟨rfl, fun q hq => ?_, fun k' hk' => ?_, fun k' hk' => ?_⟩⟩
    · simp [Plan.taken, hk, hlast]
    · obtain rfl : p = q := Option.some.inj (hk.symm.trans hq)
      refine ⟨rfl, ?_⟩
      rwa [Dict.get?_set_self]
    · exact ⟨rfl, Dict.get?_set_of_ne hk' _⟩
    · rwa [Dict.keys_set_of_mem hkey'] at hk'

theorem scheduled_of_pending {k : PyStr} (start : ℤ) (n : ℕ)
    (hp : p.Paired)
    (hk : (scnWPattern dScenarios).get? k = some { p with passed := false }) :
    ∃ cps v, (p.remaining start n).cps.head? = some cps ∧
      dScenarios.get? k = some v ∧
      scheduled dScenarios k p start n = some ⟨p.dueTime start n, k, cps,
        sendControlCmd (.setRate cps) v.cPort v.ip⟩ := by
  obtain ⟨hhead, cps, hcps⟩ := remaining_cps start n hp
  obtain ⟨v, hv, -⟩ :=
    Dict.mem_entries_filterMap.mp (Dict.get?_eq_some_iff.mp hk)
  have hv' := Dict.get?_eq_some_iff.mpr hv
  refine ⟨cps, v, hhead.trans hcps, hv', ?_⟩
  simp [scheduled, hcps, rateCommand, hv']

/-- Sending the first command pending keeps the invariant. -/
theorem invariant_of_sent {k : PyStr} {c : RateChange} {plan : Plan}
    (hcur : getEpochMs st.now < endTimeMs)
    (h : LoopInvariant dScenarios start endTimeMs st)
    (hready : AllReady st.plan.patterns streams start (getEpochMs st.now)
      st.sent)
    (hk : st.plan.patterns.get? k = some p)
    (hlate : getEpochMs st.now ≤
      p.dueTime start (commandsTo k st.sent).length)
    (hleast : ∀ k' p', st.plan.patterns.get? k' = some p' →
      p'.passed = false →
      p.dueTime start (commandsTo k st.sent).length ≤
        p'.dueTime start (commandsTo k' st.sent).length)
    (hc : scheduled dScenarios k p start (commandsTo k st.sent).length =
      some c)
    (hscn : c.scn = k)
    (htime : c.time = p.dueTime start (commandsTo k st.sent).length)
    (htaken : Taken p start (commandsTo k st.sent).length k
      ⟨st.plan.patterns, streams⟩ plan)
    {now : ℚ} (hnow : getEpochMs now = c.time) :
    LoopInvariant dScenarios start endTimeMs
      ⟨now, plan, st.sent ++ [c]⟩ where
  keys := htaken.keys.trans h.keys
  same k' q hq := by
    by_cases hne : k' = k
    · subst hne
      rw [(htaken.self q hq).1]
      exact h.same _ _ hk
    · rw [(htaken.others k' hne).1] at hq
      exact h.same k' q hq
  known k' hk' := by
    rw [htaken.keys]
    exact hready.known k' (htaken.known k' hk')
  progress k' q hq := by
    by_cases hne : k' = k
    · subst hne
      have hnext := (htaken.self q hq).2
      rw [← htime, ← hnow] at hnext
      have hlength : (commandsTo k' (st.sent ++ [c])).length =
          (commandsTo k' st.sent).length + 1 := by
        rw [← hscn, commandsTo_append_self, List.length_append,
          List.length_singleton]
      rw [hlength]
      exact hnext
    · have hne' : c.scn ≠ k' := fun heq => hne (heq.symm.trans hscn)
      obtain ⟨hpatterns, hstream⟩ := htaken.others k' hne
      rw [hpatterns] at hq
      have hk' := hready.ready k' q hq
      simp only [commandsTo_append_of_ne hne', hstream]
      cases hvalue : streams.get? k' with
      | none =>
          rw [hvalue] at hk'
          cases hk' with
          | passed hpassed hrepeat hn => exact .passed hpassed hrepeat hn
      | some s =>
          rw [hvalue] at hk'
          cases hk' with
          | pending hactive _ hdue =>
              refine .pending hactive ?_ hdue
              rw [hnow, htime]
              exact hleast k' q hq hactive
  follows k' q hq m hm := by
    by_cases hne : k' = k
    · subst hne
      have hsame : scheduled dScenarios k' q start m =
          scheduled dScenarios k' p start m := by
        have hfields := (htaken.self q hq).1
        simp only [Pattern.mk.injEq] at hfields
        obtain ⟨htimes, hcps, -⟩ := hfields
        simp only [scheduled, Pattern.dueTime, htimes, hcps]
      rw [← hscn, commandsTo_append_self, hscn] at hm ⊢
      rw [List.length_append, List.length_singleton] at hm
      rw [hsame]
      rcases Nat.lt_succ_iff_lt_or_eq.mp hm with hlt | rfl
      · rw [List.getElem?_append_left hlt]
        exact h.follows k' p hk m hlt
      · rw [List.getElem?_concat_length, hc]
    · have hne' : c.scn ≠ k' := fun heq => hne (heq.symm.trans hscn)
      rw [commandsTo_append_of_ne hne'] at hm ⊢
      rw [(htaken.others k' hne).1] at hq
      exact h.follows k' q hq m hm
  addressed c' hc' := by
    rw [htaken.keys]
    rcases List.mem_append.mp hc' with hc' | hc'
    · exact h.addressed c' hc'
    · obtain rfl := List.mem_singleton.mp hc'
      exact Dict.mem_keys_iff.mpr ⟨p, hscn ▸ hk⟩
  ordered := by
    refine List.pairwise_append.mpr
      ⟨h.ordered, List.pairwise_singleton _ _, fun a ha b hb => ?_⟩
    obtain rfl := List.mem_singleton.mp hb
    exact (h.past a ha).trans (htime ▸ hlate)
  past c' hc' := by
    rw [hnow]
    rcases List.mem_append.mp hc' with hc' | hc'
    · exact (h.past c' hc').trans (htime ▸ hlate)
    · obtain rfl := List.mem_singleton.mp hc'
      exact le_rfl
  latest := Or.inr (Or.inl ⟨c, List.getLast?_concat, hnow.symm⟩)
  within c' hc' := by
    rw [List.dropLast_concat] at hc'
    exact (h.past c' hc').trans_lt hcur

end SippScen.Orchestrator
