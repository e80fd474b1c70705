import Mathlib.Order.Interval.Set.Infinite
import SippScen.MediaHost.Service
import SippScen.MediaServer.Shutdown

/-!
# Which requests are still served

As long as SIGINT has not arrived, every request that was answered with `200` can
still be served without anything from outside: the holder of the registry mutex
gives it back, and the worker comes to the end of its queue.  Once a process has
ended with the mutex, the requests that are on their way stay where they are.
-/

namespace SippScen.MediaHost

open SippScen.Support SippScen.SharedList SippScen.MediaServer
open SippScen.MediaEndpoint (GetoptLong)

variable {N : ℕ} {getopt : GetoptLong} {config : ServerConfig}
  {s t : Service N} {es : List (ServiceAction × ServiceObservation)}

/-- A step that needs nothing from outside: a statement of a thread or process,
where every `fork` succeeds, or a notification that was sent for a request.  No
request, signal or spurious wake-up arrives, no wait times out, and nothing
fails. -/
def ServiceAction.OwnStep : ServiceAction → Prop
  | .server a => ¬ a.External
  | .serve fork => fork.isSome = true
  | .host (.startUp _) | .host (.main _) | .host (.stream _) => True
  | _ => False

/-- A run of such steps. -/
def OwnRun (getopt : GetoptLong) (config : ServerConfig) (s : Service N)
    (es : List (ServiceAction × ServiceObservation)) (t : Service N) : Prop :=
  Run (Restrict (ServiceStep getopt config) fun _ e => e.1.OwnStep) s es t

theorem OwnRun.run (h : OwnRun getopt config s es t) :
    Run (ServiceStep getopt config) s es t :=
  Run.mono (fun _ _ _ hstep => hstep.1) h

theorem OwnRun.accepted (h : OwnRun getopt config s es t) :
    es.filterMap acceptedRequest = [] := by
  apply h.history_invariant (P := fun es _ => es.filterMap acceptedRequest = [])
  · rfl
  · rintro es s ⟨a, o⟩ u hbefore ⟨hstep, hown⟩
    rw [filterMap_snoc, hbefore]
    cases service_cases hstep with
    | accept => exact absurd hown id
    | refuse => exact absurd hown id
    | _ => rfl

/-! ## Free pids -/

/-- Only finitely many pids are in use. -/
def Sparse (h : Host N) : Prop := {pid | h.programs pid ≠ none}.Finite

theorem finite_update {α : Type} {f : ℤ → Option α}
    (h : {pid | f pid ≠ none}.Finite) (pid : ℤ) (p : Option α) :
    {j | Function.update f pid p j ≠ none}.Finite := by
  refine (h.insert pid).subset fun j hj => ?_
  by_cases hpid : j = pid
  · exact Or.inl hpid
  · rw [Set.mem_ofPred_eq, Function.update_of_ne hpid] at hj
    exact Or.inr hj

theorem Sparse.afterServe {h : Host N} (hh : Sparse h) (v : Served N) :
    Sparse (h.afterServe v) := by
  have hsignal : {pid | h.signal v.signalled pid ≠ none}.Finite := by
    cases v.signalled with
    | none => exact hh
    | some pid => exact finite_update hh pid _
  cases hlaunched : v.launched with
  | none => simpa only [Sparse, Host.afterServe, hlaunched] using hsignal
  | some child =>
      simpa only [Sparse, Host.afterServe, hlaunched] using
        finite_update hsignal child.1 _

theorem Sparse.next {h u : Host N} (hh : Sparse h) {a : HostAction}
    {o : Observation} (hnext : h.next getopt config a = some (u, o)) :
    Sparse u := by
  have hfinish : ∀ {pid l} {r : Running N} {report},
      h.finish pid l r report = some (u, o) → Sparse u := by
    intro pid l r report hfinish
    obtain ⟨owner, -, heq⟩ := Option.bind_eq_some_iff.mp hfinish
    cases heq
    exact finite_update hh pid _
  have hthread : ∀ {pid a}, h.threadStep pid a = some (u, o) → Sparse u := by
    intro pid a hthread
    obtain ⟨r, r', report, -, -, hlast⟩ := threadStep_cases hthread
    exact hfinish hlast
  cases a with
  | serve data fork =>
      obtain ⟨-, hrest⟩ := Option.ite_none_right_eq_some.mp hnext
      obtain ⟨v, -, heq⟩ := Option.bind_eq_some_iff.mp hrest
      cases heq
      exact hh.afterServe v
  | startUp pid =>
      simp only [Host.next] at hnext
      split at hnext
      case h_2 => cases hnext
      split at hnext
      · cases hnext
        exact finite_update hh pid _
      · obtain ⟨⟨l, e', o'⟩, -, heq⟩ := Option.bind_eq_some_iff.mp hnext
        cases heq
        exact finite_update hh pid _
  | startUpFailure pid =>
      simp only [Host.next] at hnext
      split at hnext
      case h_2 => cases hnext
      split at hnext
      · cases hnext
      · cases hnext
        exact finite_update hh pid _
  | main pid =>
      simp only [Host.next] at hnext
      split at hnext
      case h_2 => cases hnext
      obtain ⟨⟨l', r', report⟩, -, hlast⟩ := Option.bind_eq_some_iff.mp hnext
      exact hfinish hlast
  | reap pid =>
      obtain ⟨p, -, hrest⟩ := Option.bind_eq_some_iff.mp hnext
      obtain ⟨-, heq⟩ := Option.ite_none_right_eq_some.mp hrest
      cases heq
      exact finite_update hh pid _
  | _ => exact hthread hnext

theorem Sparse.exists_free {h : Host N} (hh : Sparse h) :
    ∃ pid : ℤ, h.system.forkable (some pid) = true := by
  obtain ⟨pid, hpos, hfree⟩ := (Set.Ioi_infinite (0 : ℤ)).exists_notMem_finite hh
  have hnone : h.programs pid = none := by simpa using hfree
  exact ⟨pid, by simpa [System.forkable, Host.system, hnone] using hpos⟩

/-- What the host keeps in every run, as far as the worker depends on it. -/
structure Serviceable (h : Host N) : Prop where
  intact : Intact h
  sparse : Sparse h

theorem initial_serviceable (h2 : 2 ≤ N) (hN : N ≤ 32767) (mem : SharedLst N) :
    Serviceable (Host.initial mem) := by
  refine ⟨initial_intact h2 hN mem, ?_⟩
  simp [Sparse, Host.initial]

theorem Serviceable.service (hs : Serviceable s.host) (h2 : 2 ≤ N)
    (hN : N ≤ 32767) (hrun : Run (ServiceStep getopt config) s es t) :
    Serviceable t.host :=
  (Service.host_run hrun).invariant hs fun _ _ _ hh hstep =>
    ⟨hh.intact.next h2 hN hstep, hh.sparse.next hstep⟩

/-! ## One request -/

theorem Service.run_of_main {hs : List (HostAction × Observation)} {u : Host N}
    {pid : ℤ} (h : Run (HostStep getopt config) s.host hs u)
    (hmain : ∀ e ∈ hs, e.1 = .main pid) :
    OwnRun getopt config s
      (hs.map fun e => (.host e.1, .host e.2)) { s with host := u } := by
  induction h with
  | nil => exact Run.nil
  | @snoc hs v w e _ hstep ih =>
      rw [List.map_append]
      refine Run.snoc
        (ih fun e' he' => hmain e' (List.mem_append_left _ he')) ⟨?_, ?_⟩
      · have hlast : e.1 = .main pid := hmain e (by simp)
        have hnext : v.next getopt config e.1 = some (w, e.2) := hstep
        rw [hlast] at hnext
        simp [ServiceStep, StepOf, Service.next, HostAction.ofProcess, hlast,
          hnext]
      · change ServiceAction.OwnStep (.host e.1)
        rw [hmain e (by simp)]
        trivial

theorem exists_released (hs : Serviceable s.host) (h2 : 2 ≤ N) (hN : N ≤ 32767)
    (hheld : ¬ Abandoned s.host) :
    ∃ es t, OwnRun getopt config s es t ∧ t.server = s.server ∧
      t.current = s.current ∧ t.host.owner = none := by
  cases howner : s.host.owner with
  | none => exact ⟨[], s, Run.nil, rfl, rfl, howner⟩
  | some pid =>
      obtain ⟨hs', u, hrun, -, hmain, hfree⟩ : ∃ hs' u,
          Run (HostStep getopt config) s.host hs' u ∧ hs'.length ≤ 2 ∧
            (∀ e ∈ hs', e.1 = .main pid) ∧ u.owner = none :=
        hs.intact.released h2 hN howner hheld
      exact ⟨_, _, Service.run_of_main hrun hmain, rfl, rfl, hfree⟩

theorem Carried.exists_taken (hs : Carried s) (hidle : s.server.handler = .idle)
    (hcurrent : s.current = none) {data : Data} {rest : List Data}
    (hqueue : s.server.queue = data :: rest) :
    ∃ es t, OwnRun getopt config s es t ∧ t.host = s.host ∧
      t.server.handler = .idle ∧ t.current = some data ∧
      t.server.queue = rest := by
  induction hn : s.server.worker.distance using Nat.strong_induction_on
    generalizing s with
  | _ n ih =>
      have hserve : s.server.worker ≠ .serve := by
        intro hpc
        have hsome := hs.current.mp hpc
        rw [hcurrent] at hsome
        cases hsome
      by_cases htake : s.server.worker = .take
      · obtain ⟨u, hnext, hhandler, hrest⟩ :=
          hs.attentive.take hidle htake hqueue
        have hown : ServiceAction.OwnStep (.server .worker) := id
        refine ⟨_, ⟨u, some data, s.host⟩, Run.single
          (a := (.server .worker, .server (some data))) ⟨?_, hown⟩, rfl,
          hhandler, rfl, hrest⟩
        simp [ServiceStep, StepOf, Service.next, ServerProcess.byItself, htake,
          hnext]
      · obtain ⟨a, u, hnext, ha, hsame, hhandler, -, hcloser⟩ :=
          hs.attentive.approach hidle (by simp [hqueue]) htake hserve
        have hstep : ServiceStep getopt config s (.server a, .server none)
            ⟨u, none, s.host⟩ := by
          have halone : s.server.byItself a = true := by
            rcases ha with rfl | rfl
            · simpa [ServerProcess.byItself] using hserve
            · rfl
          simp [ServiceStep, StepOf, Service.next, halone, hnext, hcurrent]
        have hown : ¬ a.External := by
          rcases ha with rfl | rfl
          · exact id
          · exact id
        obtain ⟨es, t, hrun, hrest⟩ := ih _ (hn ▸ hcloser)
          (hs.next hstep).1 hhandler rfl (hsame.trans hqueue) rfl
        exact ⟨_, t, Run.cons ⟨hstep, hown⟩ hrun, hrest⟩

theorem Carried.exists_served (hs : Carried s) (hhost : Serviceable s.host)
    (h2 : 2 ≤ N) (hN : N ≤ 32767) (hidle : s.server.handler = .idle)
    (hfree : s.host.owner = none) {data : Data}
    (hcurrent : s.current = some data) :
    ∃ e t, ServiceStep getopt config s e t ∧ e.1.OwnStep ∧
      t.server.handler = .idle ∧ t.current = none ∧
      t.server.queue = s.server.queue ∧ t.host.owner = none := by
  have hpc : s.server.worker = .serve := hs.current.mpr (by simp [hcurrent])
  obtain ⟨u, hnext, hhandler, hqueue⟩ := hs.attentive.serve hidle hpc
  obtain ⟨pid, hforkable⟩ := hhost.sparse.exists_free
  obtain ⟨v, hserve, -⟩ := serve_spec hhost.intact.wellFormed h2 hN
    (s.host.system.kernel (some pid)) data
  refine ⟨(.serve (some pid), .served data (.served v.signalled v.launched)),
    ⟨u, none, s.host.afterServe v⟩, ?_, rfl, hhandler, rfl, hqueue, hfree⟩
  simp [ServiceStep, StepOf, Service.next, Host.next, hpc, hcurrent, hnext,
    hfree, hserve, hforkable]

/-! ## All requests -/

theorem Carried.exists_drained (hs : Carried s) (hhost : Serviceable s.host)
    (h2 : 2 ≤ N) (hN : N ≤ 32767) (hidle : s.server.handler = .idle)
    (hfree : s.host.owner = none) :
    ∃ es t, OwnRun getopt config s es t ∧ t.current = none ∧
      t.server.queue = [] := by
  induction hlength : s.current.toList.length + 2 * s.server.queue.length
    using Nat.strong_induction_on generalizing s with
  | _ n ih =>
      cases hcurrent : s.current with
      | some data =>
          obtain ⟨e, t, hstep, hown, hidle', hnone, hqueue, hfree'⟩ :=
            hs.exists_served hhost h2 hN hidle hfree hcurrent
          obtain ⟨es, u, hrun, hdrained⟩ := ih _ (by
              rw [← hlength, hcurrent, hnone, hqueue]
              simp)
            (hs.next hstep).1 (hhost.service h2 hN (Run.single hstep)) hidle'
            hfree' rfl
          exact ⟨_, u, Run.cons ⟨hstep, hown⟩ hrun, hdrained⟩
      | none =>
          cases hqueue : s.server.queue with
          | nil => exact ⟨[], s, Run.nil, hcurrent, hqueue⟩
          | cons data rest =>
              obtain ⟨es, t, hrun, hsame, hidle', hdata, hrest⟩ :=
                hs.exists_taken hidle hcurrent hqueue
              obtain ⟨es', u, hrun', hdrained⟩ := ih _ (by
                  rw [← hlength, hcurrent, hqueue, hdata, hrest]
                  simp
                  omega)
                (hs.run hrun.run).1 (hhost.service h2 hN hrun.run) hidle'
                (by rw [hsame]; exact hfree) rfl
              exact ⟨es ++ es', u, Run.append hrun hrun', hdrained⟩

theorem Abandoned.service (hhost : Serviceable s.host) (h2 : 2 ≤ N) (hN : N ≤ 32767)
    (habandoned : Abandoned s.host)
    (hrun : Run (ServiceStep getopt config) s es t) :
    es.filterMap servedRequest = [] := by
  have hnone : Serviceable t.host ∧ Abandoned t.host ∧
      es.filterMap servedRequest = [] := by
    apply hrun.history_invariant (P := fun es t => Serviceable t.host ∧
      Abandoned t.host ∧ es.filterMap servedRequest = [])
    · exact ⟨hhost, habandoned, rfl⟩
    · rintro es t ⟨a, o⟩ u ⟨ht, hab, hbefore⟩ hstep
      have hlast := Service.host_run (Run.single hstep)
      refine ⟨ht.service h2 hN (Run.single hstep),
        (hab.run ht.intact h2 hN hlast).2, ?_⟩
      rw [filterMap_snoc, hbefore]
      cases service_cases hstep with
      | serve fork data server host o _ _ _ hserve =>
          obtain ⟨⟨hfree, -⟩, -⟩ := Option.ite_none_right_eq_some.mp hserve
          obtain ⟨holder, howner, -⟩ := hab
          rw [hfree] at howner
          cases howner
      | host a host o hprocess =>
          simp [servedRequest, hostPart, hostServed_of_ofProcess hprocess]
      | _ => rfl
  exact hnone.2.2

/-- After any run in which SIGINT has not arrived, all accepted requests can
still be served, without anything from outside, exactly when none is on its way
or the mutex of the registry is not abandoned. -/
theorem all_served_iff (h2 : 2 ≤ N) (hN : N ≤ 32767) (mem : SharedLst N)
    (hrun : Run (ServiceStep getopt config) (.initial mem) es s)
    (hidle : s.server.handler = .idle) :
    (∃ es' t, OwnRun getopt config s es' t ∧
        (es ++ es').filterMap servedRequest = es.filterMap acceptedRequest) ↔
      (s.current = none ∧ s.server.queue = []) ∨ ¬ Abandoned s.host := by
  have hs := carried_of_run hrun
  have hhost : Serviceable s.host :=
    Serviceable.service (s := .initial mem) (initial_serviceable h2 hN mem) h2
      hN hrun
  have hbefore : es.filterMap acceptedRequest =
      es.filterMap servedRequest ++ (s.current.toList ++ s.server.queue) := by
    simpa [Service.initial, ServerProcess.start] using
      ((initial_carried mem).run hrun).2
  constructor
  · rintro ⟨es', t, hrun', hserved⟩
    by_cases habandoned : Abandoned s.host
    · left
      rw [List.filterMap_append, habandoned.service hhost h2 hN hrun'.run,
        List.append_nil, hbefore] at hserved
      have hnil := List.self_eq_append_right.mp hserved
      obtain ⟨hcurrent, hqueue⟩ := List.append_eq_nil_iff.mp hnil
      exact ⟨by simpa using hcurrent, hqueue⟩
    · exact Or.inr habandoned
  · intro hready
    obtain ⟨es', t, hrun', hcurrent, hqueue⟩ : ∃ es' t,
        OwnRun getopt config s es' t ∧ t.current = none ∧
          t.server.queue = [] := by
      rcases hready with ⟨hcurrent, hqueue⟩ | hheld
      · exact ⟨[], s, Run.nil, hcurrent, hqueue⟩
      · obtain ⟨es₁, u, hrun₁, hserver, -, hfree⟩ :=
          exists_released hhost h2 hN hheld
        obtain ⟨es₂, t, hrun₂, hdrained⟩ :=
          (hs.run hrun₁.run).1.exists_drained
            (hhost.service h2 hN hrun₁.run) h2 hN
            (by rw [hserver]; exact hidle) hfree
        exact ⟨es₁ ++ es₂, t, Run.append hrun₁ hrun₂, hdrained⟩
    refine ⟨es', t, hrun', ?_⟩
    have hafter := (hs.run hrun'.run).2
    rw [hrun'.accepted, hcurrent, hqueue] at hafter
    rw [List.filterMap_append, hbefore]
    simpa using hafter.symm

/-- One request from its query to the end of the core work. -/
def requestSteps (fork : Option ℤ) : List ServiceAction :=
  [.stream 0 retargetQuery, .server .notify] ++
    List.replicate 5 (.server .worker) ++ [.serve fork]

/-- The stream thread of the endpoint fails while `main` has the mutex locked; a
third request comes in afterwards. -/
def serviceStepsToAbandon : List ServiceAction :=
  [.server .main, .server .main] ++ requestSteps (some 7) ++
    List.replicate 5 (.host (.startUp 7)) ++ requestSteps none ++
    [.host (.main 7), .host (.main 7), .host (.fail 7), .host (.stream 7),
      .host (.reap 7), .stream 0 retargetQuery]

/-- The third request is answered with `200` and never served. -/
theorem all_served_iff_abandoned : ∃ t es,
    Run (ServiceStep MediaEndpoint.exactGetoptLong MediaEndpoint.defaultConfig)
        (.initial (zeroSegment 2)) es t ∧
      es.filterMap acceptedRequest = List.replicate 3 retargetRequest ∧
      es.filterMap servedRequest = List.replicate 2 retargetRequest ∧
      ¬ ∃ es' u, OwnRun MediaEndpoint.exactGetoptLong
            MediaEndpoint.defaultConfig t es' u ∧
          (es ++ es').filterMap servedRequest =
            es.filterMap acceptedRequest := by
  obtain ⟨t, es, hrun, -, htest⟩ := exists_run_of_exec
    (Service.next MediaEndpoint.exactGetoptLong MediaEndpoint.defaultConfig)
    (.initial (zeroSegment 2)) serviceStepsToAbandon
    (fun r => decide (r.2.filterMap acceptedRequest =
        List.replicate 3 retargetRequest ∧
      r.2.filterMap servedRequest = List.replicate 2 retargetRequest ∧
      r.1.server.handler = .idle ∧ r.1.server.queue = [retargetRequest] ∧
      r.1.host.owner = some 7) && (r.1.host.programs 7).isNone)
    (by decide +kernel)
  obtain ⟨htest, hgone⟩ := Bool.and_eq_true_iff.mp htest
  obtain ⟨haccepted, hserved, hidle, hqueue, howner⟩ := of_decide_eq_true htest
  have hgone := Option.isNone_iff_eq_none.mp hgone
  refine ⟨t, es, hrun, haccepted, hserved, ?_⟩
  rw [all_served_iff (by decide) (by decide) (zeroSegment 2) hrun hidle]
  rintro (⟨-, hempty⟩ | hheld)
  · rw [hqueue] at hempty
    cases hempty
  · apply hheld
    refine ⟨7, howner, ?_⟩
    intro r hr
    rw [hgone] at hr
    cases hr

end SippScen.MediaHost
