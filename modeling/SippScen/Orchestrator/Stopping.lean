import SippScen.Orchestrator.LoopSafety

/-!
# Stopping a scenario

`stop_scenario` looks whether the process is alive before it sends a signal,
but the process may end in between.  `os.kill` then raises, and the exception
ends the stop stage: the servers are not stopped and no device is
unregistered.  There are two such moments, one before each signal.
-/

namespace SippScen.Orchestrator

open SippScen.Support

/-- The seconds slept. -/
def slept (actions : List StopAction) : ℕ :=
  (actions.map fun
    | .sleep seconds => seconds
    | _ => 0).sum

/-- What the last check found. -/
def lastCheck (actions : List StopAction) : Option Bool :=
  actions.reverse.findSome? fun
    | .check running => some running
    | _ => none

/-- The procedure does not raise, it returns whether the last check found the
process gone, and it waits for a call to end before it sends SIGTERM. -/
structure SafeStop (v : Scenario) (alive : ℕ → Bool) : Prop where
  neverRaises : (stopScenario v alive).2 ≠ .lookupError
  truthful : ∀ ok, (stopScenario v alive).2 = .returned ok →
    (ok = true ↔ lastCheck (stopScenario v alive).1 ≠ some true)
  patient : ∀ before after,
    (stopScenario v alive).1 = before ++ .kill 15 :: after →
    v.duration ≤ slept before

/-- The process outlives all polls and ends between the last one and SIGTERM,
or it outlives SIGTERM and ends between the check after it and SIGKILL. -/
structure Unlucky (v : Scenario) (alive : ℕ → Bool) : Prop where
  spawned : ∃ pid, v.pid = some pid ∧ pid ≠ 0
  waited : ∀ i < pollCount v.duration, alive i = true
  ends : alive (pollCount v.duration) = false ∨
    (alive (pollCount v.duration) = true ∧
      alive (pollCount v.duration + 1) = true ∧
      alive (pollCount v.duration + 2) = false)

variable {v : Scenario} {alive : ℕ → Bool} {polls i : ℕ}

/-! ## The polls -/

theorem slept_append (as bs : List StopAction) :
    slept (as ++ bs) = slept as + slept bs := by
  rw [slept, List.map_append, List.sum_append]
  rfl

theorem lastCheck_concat (actions : List StopAction) (running : Bool) :
    lastCheck (actions ++ [.check running]) = some running := by
  rw [lastCheck, List.reverse_append, List.reverse_singleton,
    List.singleton_append, List.findSome?_cons]

theorem pollLoop_of_alive (h : alive i = true) (polls : ℕ) :
    pollLoop alive (polls + 1) i =
      (.sleep stopTimeout :: .check true :: (pollLoop alive polls (i + 1)).1,
        (pollLoop alive polls (i + 1)).2) := by
  rw [pollLoop, if_pos h]

theorem pollLoop_of_not_alive (h : ¬ alive i = true) (polls : ℕ) :
    pollLoop alive (polls + 1) i =
      ([.sleep stopTimeout, .check false], true) := by
  rw [pollLoop, if_neg h]

theorem pollLoop_waits_iff (alive : ℕ → Bool) (polls i : ℕ) :
    (pollLoop alive polls i).2 = false ↔ ∀ j < polls, alive (i + j) = true := by
  induction polls generalizing i with
  | zero => simp [pollLoop]
  | succ polls ih =>
      rw [Nat.forall_lt_succ_left]
      by_cases halive : alive i = true
      · rw [pollLoop_of_alive halive, ih]
        simp only [Nat.add_zero, halive, true_and, Nat.add_assoc,
          Nat.add_comm 1]
      · simp [pollLoop_of_not_alive halive, halive]

theorem kill_notMem_pollLoop (alive : ℕ → Bool) (polls i signal : ℕ) :
    .kill signal ∉ (pollLoop alive polls i).1 := by
  induction polls generalizing i with
  | zero => exact List.not_mem_nil
  | succ polls ih =>
      by_cases halive : alive i = true
      · simp [pollLoop_of_alive halive, ih]
      · simp [pollLoop_of_not_alive halive]

theorem slept_pollLoop (h : (pollLoop alive polls i).2 = false) :
    slept (pollLoop alive polls i).1 = polls * stopTimeout := by
  induction polls generalizing i with
  | zero => simp [pollLoop, slept]
  | succ polls ih =>
      by_cases halive : alive i = true
      · rw [pollLoop_of_alive halive] at h ⊢
        have hrest := ih h
        simp only [slept, List.map_cons, List.sum_cons] at hrest ⊢
        rw [hrest, Nat.succ_mul]
        omega
      · rw [pollLoop_of_not_alive halive] at h
        exact absurd h.symm Bool.false_ne_true

theorem pollLoop_of_gone (h : (pollLoop alive polls i).2 = true) :
    ∃ front, (pollLoop alive polls i).1 = front ++ [.check false] := by
  induction polls generalizing i with
  | zero => exact absurd h Bool.false_ne_true
  | succ polls ih =>
      by_cases halive : alive i = true
      · rw [pollLoop_of_alive halive] at h ⊢
        obtain ⟨front, hfront⟩ := ih h
        exact ⟨.sleep stopTimeout :: .check true :: front, by rw [hfront]; rfl⟩
      · rw [pollLoop_of_not_alive halive]
        exact ⟨[.sleep stopTimeout], rfl⟩

theorem duration_le_polls (duration : ℕ) :
    duration ≤ pollCount duration * stopTimeout := by
  rw [pollCount, stopTimeout]
  omega

/-! ## The signals -/

/-- What follows the polls, from look `i` on. -/
def escalate (alive : ℕ → Bool) (i : ℕ) : List StopAction × StopEnd :=
  if alive i = false then ([.kill 15], .lookupError)
  else if alive (i + 1) = false then
    ([.kill 15, .sleep 1, .check false], .returned true)
  else if alive (i + 2) = false then
    ([.kill 15, .sleep 1, .check true, .kill 9], .lookupError)
  else
    ([.kill 15, .sleep 1, .check true, .kill 9, .sleep 1,
      .check (alive (i + 3))], .returned (!alive (i + 3)))

theorem stopScenario_of_waited (hpid : ∃ pid, v.pid = some pid ∧ pid ≠ 0)
    (h : (pollLoop alive (pollCount v.duration) 0).2 = false) :
    stopScenario v alive =
      (.quit :: (pollLoop alive (pollCount v.duration) 0).1 ++
        (escalate alive (pollCount v.duration)).1,
        (escalate alive (pollCount v.duration)).2) := by
  obtain ⟨pid, hpid, hne⟩ := hpid
  have hfilter : v.pid.filter (fun pid => decide (pid ≠ 0)) = some pid := by
    simp [hpid, hne]
  simp only [stopScenario, hfilter, h]
  by_cases hterm : alive (pollCount v.duration) = false
  · simp [killStep, escalate, hterm]
  · by_cases hgone : alive (pollCount v.duration + 1) = false
    · simp [killStep, escalate, hterm, hgone]
    · by_cases hkill : alive (pollCount v.duration + 2) = false
      · simp [killStep, escalate, hterm, hgone, hkill]
      · by_cases hlast : alive (pollCount v.duration + 3) = false
        · simp [killStep, escalate, hterm, hgone, hkill, hlast]
        · simp [killStep, escalate, hterm, hgone, hkill, hlast]

theorem stopScenario_of_gone_early (hpid : ∃ pid, v.pid = some pid ∧ pid ≠ 0)
    (h : (pollLoop alive (pollCount v.duration) 0).2 = true) :
    stopScenario v alive =
      (.quit :: (pollLoop alive (pollCount v.duration) 0).1,
        .returned true) := by
  obtain ⟨pid, hpid, hne⟩ := hpid
  have hfilter : v.pid.filter (fun pid => decide (pid ≠ 0)) = some pid := by
    simp [hpid, hne]
  simp only [stopScenario, hfilter, h, if_true]

theorem stopScenario_of_not_spawned
    (hpid : ¬ ∃ pid, v.pid = some pid ∧ pid ≠ 0) :
    stopScenario v alive = ([], .returned true) := by
  have hfilter : v.pid.filter (fun pid => decide (pid ≠ 0)) = none := by
    rw [Option.filter_eq_none_iff]
    intro pid hsome hne
    exact hpid ⟨pid, hsome, of_decide_eq_true hne⟩
  simp only [stopScenario, hfilter]

/-! ## The procedure -/

theorem escalate_raises_iff (alive : ℕ → Bool) (i : ℕ) :
    (escalate alive i).2 = .lookupError ↔
      alive i = false ∨
        (alive i = true ∧ alive (i + 1) = true ∧ alive (i + 2) = false) := by
  rw [escalate]
  by_cases hterm : alive i = false
  · simp [hterm]
  · by_cases hgone : alive (i + 1) = false
    · simp [hterm, hgone]
    · by_cases hkill : alive (i + 2) = false
      · simp [hterm, hgone, hkill]
      · simp [hterm, hgone, hkill]

theorem raises_iff_unlucky (v : Scenario) (alive : ℕ → Bool) :
    (stopScenario v alive).2 = .lookupError ↔ Unlucky v alive := by
  have hwaits := pollLoop_waits_iff alive (pollCount v.duration) 0
  simp only [Nat.zero_add] at hwaits
  by_cases hpid : ∃ pid, v.pid = some pid ∧ pid ≠ 0
  · by_cases hwaited : (pollLoop alive (pollCount v.duration) 0).2 = false
    · rw [stopScenario_of_waited hpid hwaited, escalate_raises_iff]
      exact ⟨fun h => ⟨hpid, hwaits.mp hwaited, h⟩, Unlucky.ends⟩
    · rw [stopScenario_of_gone_early hpid (by simpa using hwaited)]
      constructor
      · intro h
        exact absurd h (by simp)
      · intro h
        exact absurd (hwaits.mpr h.waited) hwaited
  · rw [stopScenario_of_not_spawned hpid]
    constructor
    · intro h
      exact absurd h (by simp)
    · intro h
      exact absurd h.spawned hpid

theorem escalate_truthful {ok : Bool} (alive : ℕ → Bool) (i : ℕ)
    (h : (escalate alive i).2 = .returned ok) :
    ∃ front, (escalate alive i).1 = front ++ [.check (!ok)] := by
  rw [escalate] at h ⊢
  by_cases hterm : alive i = false
  · simp [hterm] at h
  · rw [if_neg hterm] at h ⊢
    by_cases hgone : alive (i + 1) = false
    · rw [if_pos hgone] at h ⊢
      obtain rfl := StopEnd.returned.inj h
      exact ⟨[.kill 15, .sleep 1], rfl⟩
    · rw [if_neg hgone] at h ⊢
      by_cases hkill : alive (i + 2) = false
      · simp [hkill] at h
      · rw [if_neg hkill] at h ⊢
        obtain rfl := StopEnd.returned.inj h
        rw [Bool.not_not]
        exact ⟨[.kill 15, .sleep 1, .check true, .kill 9, .sleep 1], rfl⟩

theorem stopScenario_truthful {ok : Bool}
    (h : (stopScenario v alive).2 = .returned ok) :
    ok = true ↔ lastCheck (stopScenario v alive).1 ≠ some true := by
  by_cases hpid : ∃ pid, v.pid = some pid ∧ pid ≠ 0
  · by_cases hwaited : (pollLoop alive (pollCount v.duration) 0).2 = false
    · rw [stopScenario_of_waited hpid hwaited] at h ⊢
      obtain ⟨front, hfront⟩ := escalate_truthful alive _ h
      rw [hfront, ← List.append_assoc, lastCheck_concat]
      simp
    · have hgone : (pollLoop alive (pollCount v.duration) 0).2 = true := by
        simpa using hwaited
      rw [stopScenario_of_gone_early hpid hgone] at h ⊢
      obtain ⟨front, hfront⟩ := pollLoop_of_gone hgone
      rw [hfront, ← List.cons_append, lastCheck_concat]
      simpa using h.symm
  · rw [stopScenario_of_not_spawned hpid] at h ⊢
    simpa [lastCheck] using h.symm

theorem stopScenario_patient {before after : List StopAction}
    (h : (stopScenario v alive).1 = before ++ .kill 15 :: after) :
    v.duration ≤ slept before := by
  have hfree : .kill 15 ∉
      .quit :: (pollLoop alive (pollCount v.duration) 0).1 := by
    simp [kill_notMem_pollLoop]
  by_cases hpid : ∃ pid, v.pid = some pid ∧ pid ≠ 0
  · by_cases hwaited : (pollLoop alive (pollCount v.duration) 0).2 = false
    · rw [stopScenario_of_waited hpid hwaited] at h
      obtain ⟨middle, rfl, -⟩ := front_prefix h hfree
      have hpolls := slept_pollLoop hwaited
      have hquit : slept (.quit :: (pollLoop alive (pollCount v.duration) 0).1) =
          slept (pollLoop alive (pollCount v.duration) 0).1 := by
        simp [slept]
      rw [slept_append, hquit, hpolls]
      exact (duration_le_polls v.duration).trans (Nat.le_add_right _ _)
    · rw [stopScenario_of_gone_early hpid (by simpa using hwaited)] at h
      have hkill : .kill 15 ∈ before ++ .kill 15 :: after :=
        List.mem_append_right before List.mem_cons_self
      rw [← h] at hkill
      exact absurd hkill hfree
  · rw [stopScenario_of_not_spawned hpid] at h
    exact absurd h.symm (by simp)

theorem safeStop_iff (v : Scenario) (alive : ℕ → Bool) :
    SafeStop v alive ↔ ¬ Unlucky v alive := by
  rw [← raises_iff_unlucky]
  constructor
  · exact SafeStop.neverRaises
  · intro h
    exact ⟨h, fun _ => stopScenario_truthful, fun _ _ => stopScenario_patient⟩

/-- A process that ends once and for all is unlucky at two moments: when it
ends after exactly the last poll, or after exactly the check that follows
SIGTERM. -/
theorem unlucky_of_end_iff (hpid : ∃ pid, v.pid = some pid ∧ pid ≠ 0)
    (last : ℕ) :
    Unlucky v (fun i => i < last) ↔
      last = pollCount v.duration ∨ last = pollCount v.duration + 2 := by
  constructor
  · rintro ⟨-, hwaited, hends⟩
    have hle : pollCount v.duration ≤ last := by
      by_contra hlt
      have hgone := hwaited last (not_le.mp hlt)
      simp at hgone
    simp only [decide_eq_false_iff_not, decide_eq_true_eq, not_lt] at hends
    omega
  · rintro (rfl | rfl)
    · exact ⟨hpid, fun i hi => by simpa using hi, Or.inl (by simp)⟩
    · exact ⟨hpid, fun i hi => by simp; omega, Or.inr (by simp)⟩

/-! ## The stop stages -/

variable {env : Processes} {acc : Accumulators} {tr : List RunEvent}
variable {type scn : PyStr}

/-- In every run of the stop stages all servers are stopped and all devices
unregistered. -/
def NothingPrevented (env : Processes) (acc : Accumulators) : Prop :=
  ∀ tr, StopStages env acc tr →
    (∀ scn, HasType acc "server".toList scn → ∃ ok, .stopped scn ok ∈ tr) ∧
    ∀ scn ∈ acc.dUnregistrations.keys, .unregistering scn ∈ tr

/-- A process of a scenario of the type ends at an unlucky moment. -/
def SomeUnlucky (env : Processes) (acc : Accumulators) (type : PyStr) : Prop :=
  ∃ scn v, (scn, v) ∈ acc.dScenarios.entries ∧ v.type = type ∧
    Unlucky { v with pid := env.pid scn } (env.alive scn)

theorem noneRaises_iff_lucky :
    NoneRaises (terminateTasks env acc.dScenarios type) ↔
      ¬ SomeUnlucky env acc type := by
  rw [noneRaises_iff]
  constructor
  · rintro h ⟨scn, v, hv, htype, hunlucky⟩
    exact h scn v hv htype ((raises_iff_unlucky _ _).mpr hunlucky)
  · intro h scn v hv htype hraises
    exact h ⟨scn, v, hv, htype, (raises_iff_unlucky _ _).mp hraises⟩

theorem exists_completes (h : ¬ SomeUnlucky env acc type) :
    Completes (terminateTasks env acc.dScenarios type)
      (terminateTasks env acc.dScenarios type).flatten :=
  ⟨noneRaises_iff_lucky.mpr h, interleaveAll_flatten _⟩

/-- A group with an unlucky process may raise; the events up to then are some of
the group. -/
theorem exists_raises (h : SomeUnlucky env acc type) :
    ∃ tr, Raises (terminateTasks env acc.dScenarios type) tr := by
  obtain ⟨scn, v, hv, htype, hunlucky⟩ := h
  have hmem : .stopRaised scn ∈
      (terminateTasks env acc.dScenarios type).flatten :=
    List.mem_flatten.mpr ⟨_, mem_terminateTasks.mpr ⟨scn, v, hv, htype, rfl⟩,
      stopRaised_mem_iff.mpr ⟨rfl, (raises_iff_unlucky _ _).mpr hunlucky⟩⟩
  obtain ⟨front, _, rest, hsplit, ⟨first, rfl⟩, hfront⟩ := exists_first
    (P := fun e => ∃ scn, e = RunEvent.stopRaised scn) hmem ⟨scn, rfl⟩
  refine ⟨front ++ [.stopRaised first], front, first, rest, rfl,
    fun other hother => hfront _ hother ⟨other, rfl⟩, ?_⟩
  have hmerge := interleaveAll_flatten
    (terminateTasks env acc.dScenarios type)
  rw [hsplit] at hmerge
  rwa [List.append_assoc, List.singleton_append]

/-- Whatever of a stage has come to pass, an unlucky scenario is not
stopped. -/
theorem lucky_of_stopped {rest : List RunEvent} {ok : Bool}
    (h : InterleaveAll (terminateTasks env acc.dScenarios type) (tr ++ rest))
    (hmem : .stopped scn ok ∈ tr) (hv : (scn, v) ∈ acc.dScenarios.entries) :
    v.type = type ∧ ¬ Unlucky { v with pid := env.pid scn } (env.alive scn) := by
  obtain ⟨task, htask, hevent⟩ := h.mem_iff.mp (List.mem_append_left rest hmem)
  obtain ⟨other, u, hu, htype, rfl⟩ := mem_terminateTasks.mp htask
  obtain ⟨rfl, hreturned⟩ := stopped_mem_iff.mp hevent
  obtain rfl : v = u := Dict.entry_unique hv hu
  refine ⟨htype, fun hunlucky => ?_⟩
  rw [← raises_iff_unlucky, hreturned] at hunlucky
  exact absurd hunlucky (by simp)

theorem unregistering_notMem_stage
    (h : InterleaveAll (terminateTasks env acc.dScenarios type) tr) :
    .unregistering scn ∉ tr := by
  intro hmem
  obtain ⟨_, -, ⟨_, hevent⟩ | ⟨_, hevent⟩ | hevent⟩ := hasType_of_stage h hmem
  all_goals exact absurd hevent (by simp)

/-- Without unlucky processes all servers are stopped and all devices
unregistered; an unlucky client can only be without consequence if there is
neither. -/
theorem nothingPrevented_of_lucky
    (hservers : ¬ SomeUnlucky env acc "server".toList)
    (hclients : SomeUnlucky env acc "client".toList →
      (∀ scn, ¬ HasType acc "server".toList scn) ∧
        acc.dUnregistrations.keys = []) : NothingPrevented env acc := by
  rintro tr (hraises | ⟨-, hraises⟩ | ⟨-, hcompletes⟩)
  · have hunlucky : SomeUnlucky env acc "client".toList := by
      by_contra hlucky
      exact not_raises_of_noneRaises (noneRaises_iff_lucky.mpr hlucky) hraises
    obtain ⟨hnone, hkeys⟩ := hclients hunlucky
    exact ⟨fun scn hscn => absurd hscn (hnone scn), by simp [hkeys]⟩
  · exact absurd hraises
      (not_raises_of_noneRaises (noneRaises_iff_lucky.mpr hservers))
  · refine ⟨fun scn hscn => ?_, fun scn hscn => ?_⟩
    · obtain ⟨ok, hok⟩ := stopped_of_completes hcompletes hscn
      exact ⟨ok, List.mem_append_right _ (List.mem_append_left _ hok)⟩
    · exact List.mem_append_right _
        (List.mem_append_right _ (List.mem_map_of_mem hscn))

/-- When a client is unlucky, the stop stages may end without a server being
stopped or a device unregistered. -/
theorem exists_prevented (h : SomeUnlucky env acc "client".toList) :
    ∃ tr, StopStages env acc tr ∧
      (∀ scn ok, HasType acc "server".toList scn → .stopped scn ok ∉ tr) ∧
      ∀ scn, .unregistering scn ∉ tr := by
  obtain ⟨tr, hraises⟩ := exists_raises h
  have hstages : StopStages env acc tr := .clientsRaise hraises
  obtain ⟨front, first, rest, -, -, hmerge⟩ := hraises
  refine ⟨tr, hstages, ?_, fun scn hmem => ?_⟩
  · rintro scn ok ⟨v, hv, hserver⟩ hmem
    have hclient := (lucky_of_stopped hmerge hmem hv).1
    exact client_ne_server (hclient.symm.trans hserver)
  · exact unregistering_notMem_stage hmerge (List.mem_append_left rest hmem)

theorem nothingPrevented_iff (env : Processes) (acc : Accumulators) :
    NothingPrevented env acc ↔
      ¬ SomeUnlucky env acc "server".toList ∧
      (SomeUnlucky env acc "client".toList →
        (∀ scn, ¬ HasType acc "server".toList scn) ∧
          acc.dUnregistrations.keys = []) := by
  constructor
  · intro h
    have hclients : SomeUnlucky env acc "client".toList →
        (∀ scn, ¬ HasType acc "server".toList scn) ∧
          acc.dUnregistrations.keys = [] := by
      intro hunlucky
      obtain ⟨tr, hstages, hstopped, hkeys⟩ := exists_prevented hunlucky
      obtain ⟨hall, hunregistered⟩ := h tr hstages
      refine ⟨fun scn hscn => ?_, List.eq_nil_iff_forall_not_mem.mpr
        fun scn hscn => hkeys scn (hunregistered scn hscn)⟩
      obtain ⟨ok, hok⟩ := hall scn hscn
      exact hstopped scn ok hscn hok
    refine ⟨?_, hclients⟩
    rintro ⟨scn, v, hv, hserver, hunlucky⟩
    have hscn : HasType acc "server".toList scn := ⟨v, hv, hserver⟩
    by_cases hclient : SomeUnlucky env acc "client".toList
    · exact (hclients hclient).1 scn hscn
    · obtain ⟨tr, hraises⟩ := exists_raises ⟨scn, v, hv, hserver, hunlucky⟩
      obtain ⟨hall, -⟩ := h _ (.serversRaise (exists_completes hclient) hraises)
      obtain ⟨ok, hok⟩ := hall scn hscn
      obtain ⟨front, first, rest, -, -, hmerge⟩ := hraises
      rcases List.mem_append.mp hok with hok | hok
      · have hmerge' : InterleaveAll (clientTasks env acc)
            ((clientTasks env acc).flatten ++ []) := by
          rw [List.append_nil]
          exact interleaveAll_flatten _
        have htype := (lucky_of_stopped hmerge' hok hv).1
        exact client_ne_server (htype.symm.trans hserver)
      · exact (lucky_of_stopped hmerge hok hv).2 hunlucky
  · rintro ⟨hservers, hclients⟩
    exact nothingPrevented_of_lucky hservers hclients

/-- A scenario is stopped safely if and only if its process does not end at an
unlucky moment; and the servers are stopped and the devices unregistered in
every run if and only if no server, and no client before them, is unlucky. -/
theorem stop_safe_iff (v : Scenario) (alive : ℕ → Bool) (env : Processes)
    (acc : Accumulators) :
    (SafeStop v alive ↔ ¬ Unlucky v alive) ∧
    (NothingPrevented env acc ↔
      ¬ SomeUnlucky env acc "server".toList ∧
      (SomeUnlucky env acc "client".toList →
        (∀ scn, ¬ HasType acc "server".toList scn) ∧
          acc.dUnregistrations.keys = [])) :=
  ⟨safeStop_iff v alive, nothingPrevented_iff env acc⟩

/-- All processes obey at once, but that of `A`, which is alive at the first
three looks. -/
def tardyProcesses : Processes :=
  { quietProcesses with alive := fun scn i => scn = "A".toList ∧ i < 3 }

/-- A server `B` and a client `A` with calls of ten seconds. -/
def serverAndClient : Accumulators :=
  (prepareScenarios plainWorld minuteRun oneServer
    [("B".toList, some plainServer), ("A".toList, some plainClient)]).acc

/-- The process of the client ends after the third and last poll: stopping it
raises, and the server is left running. -/
theorem tardy_client_raises :
    (∃ v, ("A".toList, v) ∈ serverAndClient.dScenarios.entries ∧
      ¬ SafeStop { v with pid := some 1 } fun i => i < 3) ∧
    ¬ NothingPrevented tardyProcesses serverAndClient := by
  have hentries : (serverAndClient.dScenarios.entries.map
      fun e => (e.1, e.2.type, e.2.duration)) =
      [("B".toList, "server".toList, 10), ("A".toList, "client".toList, 10)] := by
    decide +kernel
  have hentry : ∀ scn type duration,
      (scn, type, duration) ∈ [("B".toList, "server".toList, 10),
        ("A".toList, "client".toList, 10)] →
      ∃ v, (scn, v) ∈ serverAndClient.dScenarios.entries ∧ v.type = type ∧
        v.duration = duration := by
    intro scn type duration hmem
    rw [← hentries] at hmem
    obtain ⟨⟨_, v⟩, hv, heq⟩ := List.mem_map.mp hmem
    obtain ⟨rfl, rfl, rfl⟩ : _ ∧ _ ∧ _ := by simpa using heq
    exact ⟨v, hv, rfl, rfl⟩
  obtain ⟨v, hv, hclient, hduration⟩ :=
    hentry "A".toList "client".toList 10 (by simp)
  obtain ⟨u, hu, hserver, -⟩ :=
    hentry "B".toList "server".toList 10 (by simp)
  have hunlucky : Unlucky { v with pid := some 1 } fun i => i < 3 := by
    refine (unlucky_of_end_iff ⟨1, rfl, by norm_num⟩ 3).mpr (Or.inl ?_)
    rw [hduration]
    rfl
  have hsome : SomeUnlucky tardyProcesses serverAndClient "client".toList := by
    refine ⟨"A".toList, v, hv, hclient, ?_⟩
    simpa [tardyProcesses, quietProcesses] using hunlucky
  refine ⟨⟨v, hv, fun h => (safeStop_iff _ _).mp h hunlucky⟩, fun h => ?_⟩
  obtain ⟨tr, hstages, hstopped, -⟩ := exists_prevented hsome
  obtain ⟨ok, hok⟩ := (h tr hstages).1 "B".toList ⟨u, hu, hserver⟩
  exact hstopped "B".toList ok ⟨u, hu, hserver⟩ hok

end SippScen.Orchestrator
