import Mathlib.Data.List.Induction
import SippScen.Orchestrator.Run
import SippScen.Orchestrator.Ports

/-!
# The order of starting and stopping

The servers should start first, then the clients, and stop in the reverse
order.  The stop order holds in every run, since the clients and the servers
are stopped in two stages.  The spawn loop, however, follows the order of
`dScenarios`, so that the start order holds exactly when no client is listed
before a server there.
-/

namespace SippScen.Orchestrator

open SippScen.Support Effect

variable {env : Processes} {acc : Accumulators}
variable {w : World} {run : RunConfig} {servers : Dict PyStr PyStr}
variable {tr : List RunEvent} {scn : PyStr}

/-- A prepared scenario of the given type. -/
def HasType (acc : Accumulators) (type scn : PyStr) : Prop :=
  ∃ v, (scn, v) ∈ acc.dScenarios.entries ∧ v.type = type

/-- Every server is spawned before any client. -/
def StartOrder (acc : Accumulators) (tr : List RunEvent) : Prop :=
  ∀ before c after, tr = before ++ .spawned c :: after →
    HasType acc "client".toList c →
    ∀ s, HasType acc "server".toList s → .spawned s ∈ before

/-- The stop procedure of every client has finished before any server is told
to quit. -/
def StopOrder (acc : Accumulators) (tr : List RunEvent) : Prop :=
  ∀ before s after, tr = before ++ .stopping s .quit :: after →
    HasType acc "server".toList s →
    ∀ c, HasType acc "client".toList c → ∃ ok, .stopped c ok ∈ before

/-- No client is listed before a server. -/
def ServersFirst (acc : Accumulators) : Prop :=
  acc.dScenarios.entries.Pairwise fun a b =>
    ¬ (a.2.type = "client".toList ∧ b.2.type = "server".toList)

theorem notMem_registerAll {code : PyStr → ℤ} {scns : List PyStr}
    {e : RunEvent} (he : ∀ scn, e ≠ .registering scn) :
    e ∉ (registerAll code scns).1 := by
  induction scns with
  | nil => exact List.not_mem_nil
  | cons scn rest ih =>
      rw [registerAll]
      split
      · exact List.not_mem_cons_of_ne_of_not_mem (he scn) ih
      · exact List.not_mem_cons_of_ne_of_not_mem (he scn) List.not_mem_nil

theorem mem_stopTask {v : Scenario} {e : RunEvent}
    (h : e ∈ stopTask env scn v) :
    (∃ action, e = .stopping scn action) ∨ (∃ ok, e = .stopped scn ok) ∨
      e = .stopRaised scn := by
  rw [stopTask, List.mem_append, List.mem_map, List.mem_singleton] at h
  rcases h with ⟨action, -, rfl⟩ | rfl
  · exact Or.inl ⟨action, rfl⟩
  · split
    · exact Or.inr (Or.inl ⟨_, rfl⟩)
    · exact Or.inr (Or.inr rfl)

/-- The end of a task that stops a scenario is that of the procedure. -/
theorem stopRaised_mem_iff {other : PyStr} {v : Scenario} :
    .stopRaised other ∈ stopTask env scn v ↔ other = scn ∧
      (stopScenario { v with pid := env.pid scn } (env.alive scn)).2 =
        .lookupError := by
  rw [stopTask, List.mem_append, List.mem_map, List.mem_singleton]
  rcases (stopScenario { v with pid := env.pid scn } (env.alive scn)).2 with
    ok | _
  · simp
  · simp

theorem stopped_mem_iff {other : PyStr} {v : Scenario} {ok : Bool} :
    .stopped other ok ∈ stopTask env scn v ↔ other = scn ∧
      (stopScenario { v with pid := env.pid scn } (env.alive scn)).2 =
        .returned ok := by
  rw [stopTask, List.mem_append, List.mem_map, List.mem_singleton]
  rcases (stopScenario { v with pid := env.pid scn } (env.alive scn)).2 with
    result | _
  · simp [eq_comm]
  · simp

theorem mem_terminateTasks {type : PyStr} {task : List RunEvent} :
    task ∈ terminateTasks env acc.dScenarios type ↔
      ∃ scn v, (scn, v) ∈ acc.dScenarios.entries ∧ v.type = type ∧
        task = stopTask env scn v := by
  simp only [terminateTasks, List.mem_map, List.mem_filter, Prod.exists,
    decide_eq_true_eq, and_assoc, eq_comm (a := task)]

/-- No task of a group raises if none of its procedures does. -/
theorem noneRaises_iff {type : PyStr} :
    NoneRaises (terminateTasks env acc.dScenarios type) ↔
      ∀ scn v, (scn, v) ∈ acc.dScenarios.entries → v.type = type →
        (stopScenario { v with pid := env.pid scn } (env.alive scn)).2 ≠
          .lookupError := by
  constructor
  · intro h scn v hv htype hraises
    exact h _ (mem_terminateTasks.mpr ⟨scn, v, hv, htype, rfl⟩) scn
      (stopRaised_mem_iff.mpr ⟨rfl, hraises⟩)
  · intro h task htask scn hmem
    obtain ⟨other, v, hv, htype, rfl⟩ := mem_terminateTasks.mp htask
    exact h other v hv htype (stopRaised_mem_iff.mp hmem).2

theorem hasType_of_stage {type : PyStr} {tr : List RunEvent} {e : RunEvent}
    (htr : InterleaveAll (terminateTasks env acc.dScenarios type) tr)
    (he : e ∈ tr) :
    ∃ scn, HasType acc type scn ∧
      ((∃ action, e = .stopping scn action) ∨ (∃ ok, e = .stopped scn ok) ∨
        e = .stopRaised scn) := by
  obtain ⟨task, htask, he⟩ := htr.mem_iff.mp he
  obtain ⟨scn, v, hmem, htype, rfl⟩ := mem_terminateTasks.mp htask
  exact ⟨scn, ⟨v, hmem, htype⟩, mem_stopTask he⟩

theorem hasType_of_stopping {type : PyStr} {action : StopAction}
    (htr : InterleaveAll (terminateTasks env acc.dScenarios type) tr)
    (h : .stopping scn action ∈ tr) : HasType acc type scn := by
  obtain ⟨other, hother, ⟨_, hevent⟩ | ⟨_, hevent⟩ | hevent⟩ :=
    hasType_of_stage htr h
  · exact (RunEvent.stopping.inj hevent).1 ▸ hother
  · exact absurd hevent (by simp)
  · exact absurd hevent (by simp)

theorem spawned_notMem_stage {type : PyStr}
    (htr : InterleaveAll (terminateTasks env acc.dScenarios type) tr) :
    .spawned scn ∉ tr := by
  intro h
  obtain ⟨_, -, ⟨_, hevent⟩ | ⟨_, hevent⟩ | hevent⟩ := hasType_of_stage htr h
  all_goals exact absurd hevent (by simp)

theorem type_unique {type type' : PyStr} (h : HasType acc type scn)
    (h' : HasType acc type' scn) : type = type' := by
  obtain ⟨v, hv, rfl⟩ := h
  obtain ⟨v', hv', rfl⟩ := h'
  rw [Dict.entry_unique hv hv']

/-- After the stage of a type has completed, each of its scenarios is
stopped. -/
theorem stopped_of_completes {type : PyStr}
    (h : Completes (terminateTasks env acc.dScenarios type) tr)
    (hscn : HasType acc type scn) : ∃ ok, .stopped scn ok ∈ tr := by
  obtain ⟨v, hv, htype⟩ := hscn
  obtain ⟨hnone, hmerge⟩ := h
  have htask : stopTask env scn v ∈
      terminateTasks env acc.dScenarios type :=
    mem_terminateTasks.mpr ⟨scn, v, hv, htype, rfl⟩
  have hend := noneRaises_iff.mp hnone scn v hv htype
  rcases hresult : (stopScenario { v with pid := env.pid scn }
      (env.alive scn)).2 with ok | _
  · exact ⟨ok, hmerge.mem_iff.mpr
      ⟨_, htask, stopped_mem_iff.mpr ⟨rfl, hresult⟩⟩⟩
  · exact absurd hresult hend

/-! ## The stop order -/

theorem stopping_notMem_startUp (action : StopAction) :
    .stopping scn action ∉ startUp env acc := by
  intro h
  rcases List.mem_append.mp h with h | h
  · exact notMem_registerAll (by simp) h
  · simp [spawnAll] at h

theorem client_ne_server : "client".toList ≠ "server".toList := by decide

/-- While the clients are stopped, no server is told to quit. -/
theorem quit_notMem_clients {rest : List RunEvent}
    (h : InterleaveAll (clientTasks env acc) (tr ++ rest))
    (hscn : HasType acc "server".toList scn) :
    .stopping scn .quit ∉ tr := by
  intro hmem
  have hclient : HasType acc "client".toList scn :=
    hasType_of_stopping h (List.mem_append_left rest hmem)
  exact client_ne_server (type_unique hclient hscn)

theorem stopOrder_of_completes {clients rest : List RunEvent}
    (hclients : Completes (clientTasks env acc) clients) :
    StopOrder acc (startUp env acc ++ (clients ++ rest)) := by
  intro before s after heq hs c hc
  obtain ⟨middle, rfl, hlater⟩ :=
    front_prefix heq (stopping_notMem_startUp _)
  have hmerge : InterleaveAll (clientTasks env acc) (clients ++ []) := by
    rw [List.append_nil]
    exact hclients.2
  obtain ⟨middle, rfl, -⟩ :=
    front_prefix hlater (quit_notMem_clients hmerge hs)
  obtain ⟨ok, hok⟩ := stopped_of_completes hclients hc
  exact ⟨ok, List.mem_append_right _ (List.mem_append_left _ hok)⟩

/-- In every run the clients have stopped before a server is told to quit. -/
theorem stopOrder_of_run (h : RunTrace env acc tr) : StopOrder acc tr := by
  -- a run that ends before the stage of the servers has no such event
  have hvacuous : ∀ tr : List RunEvent,
      (∀ s, HasType acc "server".toList s → .stopping s .quit ∉ tr) →
      StopOrder acc tr := by
    intro tr hnone before s after heq hs
    exact absurd (heq ▸ List.mem_append_right _ List.mem_cons_self)
      (hnone s hs)
  rcases h with h | h | ⟨h, front, c, rest, rfl, -, hmerge⟩ |
    ⟨h, hclients, hservers⟩ | ⟨h, hclients, hservers⟩
  · exact hvacuous _ fun s _ => notMem_registerAll (by simp)
  · exact hvacuous _ fun s _ => stopping_notMem_startUp _
  · refine hvacuous _ fun s hs hmem => ?_
    rcases List.mem_append.mp hmem with hmem | hmem
    · exact stopping_notMem_startUp _ hmem
    · exact quit_notMem_clients hmerge hs hmem
  · exact stopOrder_of_completes hclients
  · exact stopOrder_of_completes hclients

/-! ## The start order -/

/-- The scenarios are spawned in the order of `dScenarios`, and nothing is
spawned later. -/
theorem spawned_of_run (h : RunTrace env acc tr) :
    (∀ scn, .spawned scn ∉ tr) ∨
      ∃ rest, tr = (registrations env acc).1 ++
        (spawnAll acc.dScenarios ++ rest) ∧ ∀ scn, .spawned scn ∉ rest := by
  have hraises : ∀ type tr, Raises
      (terminateTasks env acc.dScenarios type) tr →
      ∀ scn, .spawned scn ∉ tr := by
    rintro type tr ⟨_, _, rest, -, -, hmerge⟩ scn hmem
    exact spawned_notMem_stage hmerge (List.mem_append_left rest hmem)
  rcases h with h | h | ⟨h, hclients⟩ | ⟨h, hclients, hservers⟩ |
    ⟨h, hclients, hservers⟩
  · exact Or.inl fun scn => notMem_registerAll (by simp)
  · exact Or.inr ⟨[], by simp [startUp], by simp⟩
  · exact Or.inr ⟨_, List.append_assoc _ _ _, hraises _ _ hclients⟩
  · refine Or.inr ⟨_, List.append_assoc _ _ _, fun scn hmem => ?_⟩
    rcases List.mem_append.mp hmem with hmem | hmem
    · exact spawned_notMem_stage hclients.2 hmem
    · exact hraises _ _ hservers scn hmem
  · refine Or.inr ⟨_, List.append_assoc _ _ _, fun scn hmem => ?_⟩
    rcases List.mem_append.mp hmem with hmem | hmem
    · exact spawned_notMem_stage hclients.2 hmem
    · rcases List.mem_append.mp hmem with hmem | hmem
      · exact spawned_notMem_stage hservers.2 hmem
      · simp at hmem

theorem startOrder_of_serversFirst (hfirst : ServersFirst acc)
    (h : RunTrace env acc tr) : StartOrder acc tr := by
  rintro before c after heq hc s ⟨v, hv, hserver⟩
  rcases spawned_of_run h with hnone | ⟨rest, rfl, hrest⟩
  · exact absurd (heq ▸ List.mem_append_right _ List.mem_cons_self) (hnone c)
  · obtain ⟨middle, rfl, hlater⟩ :=
      front_prefix heq (notMem_registerAll (by simp))
    obtain ⟨later, hspawns, -⟩ := back_suffix hlater (hrest c)
    -- the entries before and after that of `c`
    simp only [spawnAll, Dict.keys, List.map_map] at hspawns
    obtain ⟨earlier, others, hentries, rfl, hcons⟩ :=
      List.map_eq_append_iff.mp hspawns
    obtain ⟨e, others, rfl, he, -⟩ := List.map_eq_cons_iff.mp hcons
    have hec : e.1 = c := RunEvent.spawned.inj he
    rw [hentries, List.mem_append, List.mem_cons] at hv
    obtain ⟨u, hu, hclient⟩ := hc
    have hu' : e.2 = u := by
      have hmem : (c, e.2) ∈ acc.dScenarios.entries := by
        rw [hentries, ← hec]
        exact List.mem_append_right _ List.mem_cons_self
      exact Dict.entry_unique hmem hu
    refine List.mem_append_right _ ?_
    rcases hv with hv | rfl | hv
    · exact List.mem_map.mpr ⟨(s, v), hv, rfl⟩
    · rw [← hu', hserver] at hclient
      exact absurd hclient.symm client_ne_server
    · rw [ServersFirst, hentries] at hfirst
      have htail := (List.pairwise_append.mp hfirst).2.1
      exact absurd ⟨hu' ▸ hclient, hserver⟩
        ((List.pairwise_cons.mp htail).1 (s, v) hv)

/-! ## A run in which everything succeeds -/

/-- All registrations succeed, all scenarios start, and each is gone when it
is first looked at. -/
def quietProcesses : Processes where
  registerCode := fun _ => 0
  pid := fun _ => some 1
  alive := fun _ _ => false

theorem registerAll_of_success (scns : List PyStr) :
    (registerAll (fun _ => 0) scns).2 = true := by
  induction scns with
  | nil => rfl
  | cons scn rest ih => simpa [registerAll] using ih

/-- A process that is gone at the first check is stopped. -/
theorem stopScenario_of_gone (v : Scenario) :
    (stopScenario v fun _ => false).2 = .returned true := by
  obtain ⟨polls, hpolls⟩ : ∃ polls, pollCount v.duration = polls + 1 := by
    refine ⟨pollCount v.duration - 1, ?_⟩
    have hpos : 1 ≤ pollCount v.duration := by
      simp only [pollCount, stopTimeout]
      omega
    omega
  unfold stopScenario
  split
  · rfl
  · simp [hpolls, pollLoop]

theorem completes_quiet (type : PyStr) :
    Completes (terminateTasks quietProcesses acc.dScenarios type)
      (terminateTasks quietProcesses acc.dScenarios type).flatten := by
  refine ⟨noneRaises_iff.mpr fun scn v _ _ hraises => ?_,
    interleaveAll_flatten _⟩
  have hend := stopScenario_of_gone { v with pid := some 1 }
  exact absurd (hend.symm.trans hraises) (by simp)

theorem exists_run (acc : Accumulators) :
    ∃ rest, RunTrace quietProcesses acc (startUp quietProcesses acc ++ rest) :=
  ⟨_, .completes (registerAll_of_success _) (completes_quiet _)
    (completes_quiet _)⟩

theorem spawnAll_split {d : Dict PyStr Scenario} {i : ℕ}
    (hi : i < d.entries.length) :
    spawnAll d = ((d.entries.take i).map fun e => .spawned e.1) ++
      .spawned d.entries[i].1 ::
        (d.entries.drop (i + 1)).map fun e => .spawned e.1 := by
  have hsplit : d.entries =
      d.entries.take i ++ d.entries[i] :: d.entries.drop (i + 1) := by
    rw [← List.drop_eq_getElem_cons hi, List.take_append_drop]
  have hmap := congrArg (List.map fun e => RunEvent.spawned e.1) hsplit
  rw [List.map_append, List.map_cons] at hmap
  rw [← hmap, spawnAll, Dict.keys, List.map_map]
  rfl

theorem serversFirst_of_startOrder
    (h : ∀ tr, RunTrace quietProcesses acc tr → StartOrder acc tr) :
    ServersFirst acc := by
  rw [ServersFirst, List.pairwise_iff_getElem]
  rintro i j hi hj hij ⟨hclient, hserver⟩
  obtain ⟨rest, hrun⟩ := exists_run acc
  have hspawned := h _ hrun
    ((registrations quietProcesses acc).1 ++
      (acc.dScenarios.entries.take i).map fun e => .spawned e.1)
    acc.dScenarios.entries[i].1
    (((acc.dScenarios.entries.drop (i + 1)).map fun e => .spawned e.1) ++ rest)
    (by simp only [startUp, spawnAll_split hi, List.append_assoc,
      List.cons_append])
    ⟨_, List.getElem_mem hi, hclient⟩
    acc.dScenarios.entries[j].1 ⟨_, List.getElem_mem hj, hserver⟩
  rcases List.mem_append.mp hspawned with hmem | hmem
  · exact notMem_registerAll (by simp) hmem
  · obtain ⟨e, he, hkey⟩ := List.mem_map.mp hmem
    have hnodup := acc.dScenarios.nodup_keys
    rw [← List.take_append_drop i acc.dScenarios.entries, List.map_append]
      at hnodup
    have hlater : acc.dScenarios.entries[j] ∈
        acc.dScenarios.entries.drop i := by
      refine List.mem_iff_getElem.mpr ⟨j - i, by simp; omega, ?_⟩
      simp [Nat.add_sub_cancel' hij.le]
    refine (List.disjoint_of_nodup_append hnodup) (List.mem_map_of_mem he) ?_
    rw [RunEvent.spawned.inj hkey]
    exact List.mem_map_of_mem hlater

/-- In every run of a configuration that passes the validation, the servers
start before the clients and the clients stop before the servers, if and only
if the prepared scenarios list no client before a server. -/
theorem start_stop_order_iff (w : World) (run : RunConfig)
    (servers : Dict PyStr PyStr) (config : List Entry)
    (_hvalid : validates (prepareScenarios w run servers config) = true) :
    (∀ env tr, RunTrace env (prepareScenarios w run servers config).acc tr →
        StartOrder (prepareScenarios w run servers config).acc tr ∧
        StopOrder (prepareScenarios w run servers config).acc tr) ↔
      ServersFirst (prepareScenarios w run servers config).acc := by
  constructor
  · intro h
    exact serversFirst_of_startOrder fun tr hrun => (h _ tr hrun).1
  · intro hfirst env tr hrun
    exact ⟨startOrder_of_serversFirst hfirst hrun, stopOrder_of_run hrun⟩

instance (acc : Accumulators) : Decidable (ServersFirst acc) :=
  inferInstanceAs (Decidable (acc.dScenarios.entries.Pairwise fun a b =>
    ¬ (a.2.type = "client".toList ∧ b.2.type = "server".toList)))

/-- A server on the media server `ms1`. -/
def plainServer : ScenarioConfig :=
  { otherClient "ms1".toList 20020 with
    type := some "server".toList
    destination := .absent }

/-- With the server listed first, every run keeps the order. -/
theorem order_server_listed_first :
    ServersFirst (prepareScenarios plainWorld minuteRun oneServer
      [("B".toList, some plainServer), ("A".toList, some plainClient)]).acc ∧
    ∀ env tr, RunTrace env (prepareScenarios plainWorld minuteRun oneServer
        [("B".toList, some plainServer), ("A".toList, some plainClient)]).acc
        tr →
      StartOrder (prepareScenarios plainWorld minuteRun oneServer
        [("B".toList, some plainServer), ("A".toList, some plainClient)]).acc
        tr ∧
      StopOrder (prepareScenarios plainWorld minuteRun oneServer
        [("B".toList, some plainServer), ("A".toList, some plainClient)]).acc
        tr := by
  have hfirst : ServersFirst (prepareScenarios plainWorld minuteRun oneServer
      [("B".toList, some plainServer),
        ("A".toList, some plainClient)]).acc := by
    decide +kernel
  exact ⟨hfirst, (start_stop_order_iff plainWorld minuteRun oneServer _
    (by decide +kernel)).mpr hfirst⟩

/-- A client that is listed before a server is spawned before it. -/
theorem client_spawned_first :
    validates (prepareScenarios plainWorld minuteRun oneServer
      [("A".toList, some plainClient), ("B".toList, some plainServer)]) =
        true ∧
    ∃ tr, RunTrace quietProcesses
        (prepareScenarios plainWorld minuteRun oneServer
          [("A".toList, some plainClient), ("B".toList, some plainServer)]).acc
        tr ∧
      ¬ StartOrder (prepareScenarios plainWorld minuteRun oneServer
        [("A".toList, some plainClient), ("B".toList, some plainServer)]).acc
        tr := by
  refine ⟨by decide +kernel, ?_⟩
  have hlate : ¬ ServersFirst (prepareScenarios plainWorld minuteRun oneServer
      [("A".toList, some plainClient),
        ("B".toList, some plainServer)]).acc := by
    decide +kernel
  by_contra hnone
  refine hlate (serversFirst_of_startOrder fun tr hrun => ?_)
  by_contra horder
  exact hnone ⟨tr, hrun, horder⟩

/-! ## The order of the configuration -/

/-- What `dScenarios` holds after the entries `config`: their names in the
order of the list, with types that they are listed as. -/
structure Listed (config : List Entry) (d : Dict PyStr Scenario) : Prop where
  keys : d.keys.Sublist (config.map Prod.fst)
  types : ∀ k v, (k, v) ∈ d.entries →
    ∃ o, (k, o) ∈ config ∧ ListedAs v.type (k, o)

theorem listed_prepareScenario (w : World) (run : RunConfig)
    (servers : Dict PyStr PyStr) (e : Entry) {config : List Entry}
    {s : Prepared} (h : Listed config s.acc.dScenarios) :
    Listed (config ++ [e])
      (prepareScenario w run servers e s).state.acc.dScenarios := by
  have hnames : (config ++ [e]).map Prod.fst = config.map Prod.fst ++ [e.1] :=
    List.map_append
  refine (preserves_prepareScenario (w := w)
    (Q := fun d => Listed (config ++ [e]) d ∧
      (d.keys.Sublist (config.map Prod.fst) ∨ e.1 ∈ d.keys))
    (fun d v hd hv _ => ?_) (fun d v scn p hd hv _ _ => ?_) s ?_).1
  · refine ⟨⟨?_, fun k u hu => ?_⟩, Or.inr ?_⟩
    · rw [Dict.keys_set]
      split
      · exact hd.1.keys
      · next hnew =>
          rw [hnames]
          exact (hd.2.resolve_right hnew).append (List.Sublist.refl [e.1])
    · rcases Dict.mem_entries_set.mp hu with heq | ⟨-, hmem⟩
      · obtain ⟨rfl, rfl⟩ := Prod.mk.inj heq
        exact ⟨e.2, List.mem_append_right _ List.mem_cons_self, hv⟩
      · exact hd.1.types k u hmem
    · exact Dict.mem_keys_iff.mpr ⟨v, Dict.get?_set_self _ _ _⟩
  · have hmem : e.1 ∈ d.keys := Dict.mem_keys_iff.mpr ⟨v, hv⟩
    rw [Dict.keys_set_of_mem hmem]
    refine ⟨⟨?_, fun k u hu => ?_⟩, Or.inr hmem⟩
    · rw [Dict.keys_set_of_mem hmem]
      exact hd.1.keys
    · rcases Dict.mem_entries_set.mp hu with heq | ⟨-, hu⟩
      · obtain ⟨rfl, rfl⟩ := Prod.mk.inj heq
        exact hd.1.types e.1 v (Dict.get?_eq_some_iff.mp hv)
      · exact hd.1.types k u hu
  · refine ⟨⟨?_, fun k v hv => ?_⟩, Or.inl h.keys⟩
    · rw [hnames]
      exact h.keys.trans (List.sublist_append_left _ _)
    · obtain ⟨o, ho, htype⟩ := h.types k v hv
      exact ⟨o, List.mem_append_left _ ho, htype⟩

theorem listed_prepareScenarios (w : World) (run : RunConfig)
    (servers : Dict PyStr PyStr) (config : List Entry) :
    Listed config (prepareScenarios w run servers config).acc.dScenarios := by
  induction config using List.reverseRecOn with
  | nil => exact ⟨List.Sublist.refl _, fun k v hv => absurd hv (by
      simp [prepareScenarios, initialPrepared, Dict.empty])⟩
  | append_singleton config e ih =>
      have hstep := listed_prepareScenario w run servers e ih
      rwa [prepareScenarios, forEach_append, forEach_cons, forEach_nil]

/-- If the names of the configuration are distinct and it lists no client
before a server, then so do the prepared scenarios. -/
theorem serversFirst_of_listed {config : List Entry}
    (hnames : (config.map Prod.fst).Nodup)
    (hlisted : config.Pairwise fun a b =>
      ¬ (ListedAs "client".toList a ∧ ListedAs "server".toList b)) :
    ServersFirst (prepareScenarios w run servers config).acc := by
  have hprepared := listed_prepareScenarios w run servers config
  -- the same order on the names
  have hordered : (config.map Prod.fst).Pairwise fun k l =>
      ∀ a b, (k, a) ∈ config → (l, b) ∈ config →
        ¬ (ListedAs "client".toList (k, a) ∧
          ListedAs "server".toList (l, b)) := by
    refine List.pairwise_map.mpr (hlisted.imp_of_mem ?_)
    intro a b ha hb hab a' b' ha' hb'
    have heq := List.inj_on_of_nodup_map hnames ha' ha rfl
    have heq' := List.inj_on_of_nodup_map hnames hb' hb rfl
    rwa [heq, heq']
  have hkeys := hordered.sublist hprepared.keys
  refine (List.pairwise_map.mp hkeys).imp_of_mem ?_
  rintro ⟨k, v⟩ ⟨l, u⟩ hv hu hkl ⟨hclient, hserver⟩
  obtain ⟨a, ha, htype⟩ := hprepared.types k v hv
  obtain ⟨b, hb, htype'⟩ := hprepared.types l u hu
  exact hkl a b ha hb ⟨hclient ▸ htype, hserver ▸ htype'⟩

end SippScen.Orchestrator
