import SippScen.MediaHost.Service

/-!
# Where the settings of an endpoint come from

An endpoint is configured by its options, and then by the records that it copies
from the registry.  Whatever it was told was asked for by a request that was
served before, and this request named the port of the endpoint.
-/

namespace SippScen.MediaHost

open SippScen.Support SippScen.SharedList SippScen.MediaServer
open SippScen.MediaEndpoint

variable {N : ℕ} {getopt : GetoptLong} {config : ServerConfig}

/-- The request that the worker serves in a step. -/
def Event.served : Event → Option Data
  | (.serve data _, .served _ _) => some data
  | _ => none

/-- One of the requests names the port and the remote. -/
def Asked (requests : List Data) (port : ℤ) (remote : Remote) : Prop :=
  ∃ data ∈ requests, data.port = port ∧ remoteArgs data = remote

/-- The process was launched for one of the requests, and its settings are from
one of them, too. -/
structure Briefed (requests : List Data) (e : Endpoint N) : Prop where
  admissible : Admissible e.launch
  launch : Asked requests e.launch.port (remoteArgs e.launch)
  conf : e.phase.configured = true →
    Asked requests e.launch.port (remoteArgs e.conf)

/-- So are the entries of the registry. -/
structure Sourced (requests : List Data) (s : System N) : Prop where
  entries : ∀ r ∈ s.list.records, Asked requests r.port (remoteArgs r)
  procs : ∀ pid e, s.procs pid = some e → Briefed requests e

/-! ## One process -/

section Processes

variable {requests requests' : List Data} {e e' : Endpoint N}
variable {l l' : SharedLst N} {o : Observation}

theorem Asked.mono {port : ℤ} {remote : Remote}
    (h : Asked requests port remote) (hsub : requests ⊆ requests') :
    Asked requests' port remote := by
  obtain ⟨data, hdata, hport, hremote⟩ := h
  exact ⟨data, hsub hdata, hport, hremote⟩

theorem Briefed.mono (h : Briefed requests e) (hsub : requests ⊆ requests') :
    Briefed requests' e :=
  ⟨h.admissible, h.launch.mono hsub, fun hconf => (h.conf hconf).mono hsub⟩

theorem Briefed.congr (h : Briefed requests e) (hlaunch : e'.launch = e.launch)
    (hremote : remoteArgs e'.conf = remoteArgs e.conf)
    (hphase : e'.phase.configured = true → e.phase.configured = true) :
    Briefed requests e' := by
  refine ⟨?_, ?_, ?_⟩
  · rw [hlaunch]
    exact h.admissible
  · rw [hlaunch]
    exact h.launch
  · intro hconf
    rw [hlaunch, hremote]
    exact h.conf (hphase hconf)

theorem Briefed.deliver (h : Briefed requests e) :
    Briefed requests e.deliver := by
  rcases e.deliver_cases with ⟨-, heq⟩ | ⟨-, heq⟩ | ⟨-, -, heq⟩
  · rw [heq]
    exact h
  · rw [heq]
    exact h.congr rfl rfl (by rintro ⟨⟩)
  · rw [heq]
    exact h.congr rfl rfl id

theorem Briefed.parse (hg : FollowsGnu getopt) (h : Briefed requests e)
    (hphase : e.phase = .execd)
    (hadvance : e.advance getopt config l = some (l', e', o)) :
    l' = l ∧ Briefed requests e' := by
  simp only [Endpoint.advance, hphase] at hadvance
  cases hadvance
  refine ⟨rfl, h.admissible, h.launch, ?_⟩
  intro hconf
  have hnone : (launchedOptions getopt config e.launch).2 = none := by
    cases hexit : (launchedOptions getopt config e.launch).2 with
    | none => rfl
    | some exit =>
        rw [hexit] at hconf
        cases hconf
  change Asked requests e.launch.port
    (remoteArgs (launchedOptions getopt config e.launch).1.conf)
  rw [(options_of_launch hg h.admissible hnone).2]
  exact h.launch

theorem Briefed.advance (h : Briefed requests e)
    (hentries : ∀ r ∈ l.records, Asked requests r.port (remoteArgs r))
    {pid : ℤ} (hattached : Attached l pid e) (hphase : e.phase ≠ .execd)
    (hadvance : Advance getopt config l e l' e' o) : Briefed requests e' := by
  cases hadvance with
  | pass p hp => exact h.congr rfl rfl (Phase.succ_spec hp).1
  | parse options p hexecd => exact absurd hexecd hphase
  | start hblocked =>
      refine h.congr e.defaultDuration_launch ?_ ?_
      · rw [Endpoint.enter_conf]
        unfold remoteArgs Endpoint.conf Endpoint.defaultDuration
          Options.defaultDuration
        split <;> rfl
      · intro _
        rw [hblocked]
        rfl
  | take n hwaiting =>
      exact h.congr rfl rfl fun _ => by rw [hwaiting]; rfl
  | fetch node hsignalled =>
      exact h.congr rfl rfl fun _ => by rw [hsignalled]; rfl
  | copyNull hfetched => exact h.congr rfl rfl (by rintro ⟨⟩)
  | copy i hfetched =>
      obtain ⟨j, r, hnode, hj, hport⟩ := hattached.pointer _ hfetched
      obtain rfl := Option.some.inj hnode
      refine ⟨h.admissible, h.launch, fun _ => ?_⟩
      change Asked requests e.launch.port (remoteArgs (l.data i))
      rw [hj.2, ← hport]
      exact hentries r hj.mem_records
  | remove rc _ hjoined =>
      exact h.congr rfl rfl fun _ => by rw [hjoined]; rfl

end Processes

/-! ## The steps -/

section Steps

variable {requests : List Data} {s t : System N}

theorem Sourced.mono {requests' : List Data} (h : Sourced requests s)
    (hsub : requests ⊆ requests') : Sourced requests' s :=
  ⟨fun r hr => (h.entries r hr).mono hsub,
    fun pid e he => (h.procs pid e he).mono hsub⟩

/-- The worker launches a process for the request that it serves, whatever its
pid. -/
theorem launch_of_serve {data : Data} {fork signalled : Option ℤ}
    (hl : WellFormed s.list) (h2 : 2 ≤ N) (hN : N ≤ 32767) {pid : ℤ}
    {launch : Data}
    (h : s.next getopt config (.serve data fork) =
      some (t, .served signalled (some (pid, launch)))) :
    ∃ p, launch = { data with pid := p } := by
  obtain ⟨-, hrest⟩ := Option.ite_none_right_eq_some.mp h
  obtain ⟨v, hserve, heq⟩ := Option.bind_eq_some_iff.mp hrest
  obtain ⟨v', hserve', -, houtcome⟩ :=
    serve_spec hl h2 hN (s.kernel fork) data
  obtain rfl : v = v' := Option.some.inj (hserve.symm.trans hserve')
  obtain ⟨-, hobserved⟩ := Prod.mk.inj (Option.some.inj heq)
  obtain ⟨-, hlaunched⟩ := Observation.served.inj hobserved
  rw [hlaunched] at houtcome
  generalize hsame : some (pid, launch) = launched, v.list.records = after,
    v.signalled = signalled', v.output = output at houtcome
  cases houtcome with
  | reused => cases hsame
  | relaunched r => cases hsame; exact ⟨r.pid, rfl⟩
  | cleaned => cases hsame
  | launched => cases hsame; exact ⟨data.pid, rfl⟩
  | unregistered => cases hsame; exact ⟨data.pid, rfl⟩
  | unserved => cases hsame

theorem Sourced.setProc (h : Sourced requests s) {l : SharedLst N}
    (hrecords : ∀ r ∈ l.records, r ∈ s.list.records) (pid : ℤ)
    {e' : Option (Endpoint N)}
    (hnew : ∀ e, e' = some e → Briefed requests e) :
    Sourced requests (({ s with list := l } : System N).setProc pid e') := by
  refine ⟨fun r hr => h.entries r (hrecords r hr), ?_⟩
  apply (Function.forall_update_iff s.procs
    fun _ o => ∀ e, o = some e → Briefed requests e).mpr
  exact ⟨hnew, fun pid' _ => h.procs pid'⟩

theorem Sourced.serve (h : Sourced requests s) (hs : Consistent s)
    (h2 : 2 ≤ N) (hN : N ≤ 32767) {data : Data} {fork : Option ℤ}
    {o : Observation} (hdata : Admissible data)
    (hstep : s.next getopt config (.serve data fork) = some (t, o)) :
    Sourced (requests ++ [data]) t := by
  obtain ⟨signalled, launched, rfl, -, heffect, -⟩ :=
    next_serve hs.wellFormed h2 hN hstep
  have hold := h.mono (List.subset_append_left requests [data])
  have hasked : ∀ p : ℤ, Asked (requests ++ [data]) data.port
      (remoteArgs { data with pid := p }) :=
    fun p => ⟨data, by simp, rfl, rfl⟩
  have hchild : ∀ p : ℤ, Briefed (requests ++ [data])
      (Endpoint.child { data with pid := p } : Endpoint N) :=
    fun p => ⟨hdata, hasked p, by rintro ⟨⟩⟩
  have hprocs_update : ∀ {procs : ℤ → Option (Endpoint N)} {pid : ℤ}
      {e' : Endpoint N}, procs = Function.update s.procs pid (some e') →
      Briefed (requests ++ [data]) e' →
      ∀ pid e, procs pid = some e → Briefed (requests ++ [data]) e := by
    rintro _ pid e' rfl hnew
    rw [Function.forall_update_iff s.procs
      fun _ o => ∀ e, o = some e → Briefed (requests ++ [data]) e]
    refine ⟨?_, fun pid' _ => hold.procs pid'⟩
    rintro _ ⟨⟩
    exact hnew
  cases heffect with
  | reused _ _ r e hfind he hrecords hprocs =>
      refine ⟨?_, hprocs_update hprocs (hold.procs _ e he).deliver⟩
      intro r' hr'
      rw [hrecords] at hr'
      rcases mem_of_mem_replaceKey hr' with rfl | hr'
      · exact hasked r.pid
      · exact hold.entries r' hr'
  | launched _ pid launch hdead hpid hport hrecords hprocs =>
      obtain ⟨p, rfl⟩ := launch_of_serve hs.wellFormed h2 hN hstep
      refine ⟨?_, hprocs_update hprocs (hchild p)⟩
      intro r' hr'
      rw [hrecords] at hr'
      rcases List.mem_append.mp hr' with hr' | hr'
      · exact hold.entries r' (mem_of_mem_removeKey hr')
      · rw [List.mem_singleton.mp hr']
        exact hasked pid
  | unregistered _ pid hfind hfull hpid hrecords hprocs =>
      refine ⟨?_, hprocs_update hprocs (hchild data.pid)⟩
      rw [hrecords]
      exact hold.entries
  | unserved _ hdead hrecords hprocs =>
      refine ⟨?_, ?_⟩
      · intro r' hr'
        rw [hrecords] at hr'
        exact hold.entries r' (mem_of_mem_removeKey hr')
      · rw [hprocs]
        exact hold.procs

theorem Sourced.proc (hg : FollowsGnu getopt) (h : Sourced requests s)
    (hs : Consistent s) (h2 : 2 ≤ N) (hN : N ≤ 32767) {a : Action}
    {o : Observation} {pid : ℤ} (hactor : a.actor = some pid)
    (hstep : s.next getopt config a = some (t, o)) : Sourced requests t := by
  cases a with
  | serve data fork => cases hactor
  | advance p =>
      obtain ⟨e, he, hrest⟩ := Option.bind_eq_some_iff.mp hstep
      obtain ⟨⟨l, e', o'⟩, hadvance, heq⟩ := Option.bind_eq_some_iff.mp hrest
      cases heq
      by_cases hphase : e.phase = .execd
      · obtain ⟨rfl, hnew⟩ := (h.procs p e he).parse hg hphase hadvance
        refine h.setProc (fun r hr => hr) p ?_
        rintro _ ⟨⟩
        exact hnew
      · have hcases := advance_cases hadvance
        refine h.setProc ?_ p ?_
        · rcases hcases.spec.2.2 with rfl | ⟨port, rc, hremove⟩
          · exact fun r hr => hr
          · intro r hr
            rw [(hs.wellFormed.of_removeElement h2 hN hremove).2] at hr
            exact mem_of_mem_removeKey hr
        · rintro _ ⟨⟩
          exact (h.procs p e he).advance h.entries (hs.procs p e he) hphase
            hcases
  | timeout p =>
      obtain ⟨e, he, hrest⟩ := Option.bind_eq_some_iff.mp hstep
      obtain ⟨⟨hphase, -⟩, heq⟩ := Option.ite_none_right_eq_some.mp hrest
      cases heq
      refine h.setProc (l := s.list) (fun r hr => hr) p ?_
      rintro _ ⟨⟩
      exact (h.procs p e he).congr rfl rfl fun _ => by rw [hphase]; rfl
  | crash p =>
      obtain ⟨e, he, hrest⟩ := Option.bind_eq_some_iff.mp hstep
      obtain ⟨-, heq⟩ := Option.ite_none_left_eq_some.mp hrest
      cases heq
      refine h.setProc (l := s.list) (fun r hr => hr) p ?_
      rintro _ ⟨⟩
      exact (h.procs p e he).congr rfl rfl (by rintro ⟨⟩)
  | reap p =>
      obtain ⟨e, -, hrest⟩ := Option.bind_eq_some_iff.mp hstep
      obtain ⟨-, heq⟩ := Option.ite_none_right_eq_some.mp hrest
      cases heq
      refine h.setProc (l := s.list) (fun r hr => hr) p ?_
      rintro _ ⟨⟩

end Steps

/-! ## Every interleaving -/

section Runs

variable {es : List Event} {t : System N}

theorem initial_sourced (h2 : 2 ≤ N) (hN : N ≤ 32767) (mem : SharedLst N) :
    Sourced [] (System.initial mem) := by
  have hnil : (System.initial mem).list.records = [] :=
    (initializeList_wellFormed mem h2 hN).2
  refine ⟨?_, ?_⟩
  · rw [hnil]
    simp
  · rintro pid e ⟨⟩

theorem sourced_of_run (hg : FollowsGnu getopt) (h2 : 2 ≤ N) (hN : N ≤ 32767)
    (mem : SharedLst N)
    (hrun : Run (Restrict (Step getopt config) Environment)
      (System.initial mem) es t)
    (hdata : ∀ data ∈ es.filterMap Event.served, Admissible data) :
    Sourced (es.filterMap Event.served) t := by
  have hboth : Consistent t ∧
      ((∀ data ∈ es.filterMap Event.served, Admissible data) →
        Sourced (es.filterMap Event.served) t) := by
    apply hrun.history_invariant (P := fun es t => Consistent t ∧
      ((∀ data ∈ es.filterMap Event.served, Admissible data) →
        Sourced (es.filterMap Event.served) t))
    · exact ⟨initial_consistent h2 hN mem, fun _ => initial_sourced h2 hN mem⟩
    · rintro es s ⟨a, o⟩ u ⟨hs, hsourced⟩ ⟨hstep, henv⟩
      rw [filterMap_snoc]
      cases hactor : a.actor with
      | none =>
          cases a with
          | serve data fork =>
              refine ⟨hs.serve h2 hN henv hstep, ?_⟩
              obtain ⟨signalled, launched, rfl, -⟩ :=
                next_serve hs.wellFormed h2 hN hstep
              intro hall
              refine (hsourced fun d hd => hall d ?_).serve hs h2 hN
                (hall data ?_) hstep
              · exact List.mem_append_left _ hd
              · simp [Event.served]
          | _ => cases hactor
      | some pid =>
          have hnone : Event.served (a, o) = none := by
            cases a <;> first | rfl | cases hactor
          rw [hnone, Option.toList_none, List.append_nil]
          exact ⟨(hs.proc hg h2 hN hactor hstep).1,
            fun hall => (hsourced hall).proc hg hs h2 hN hactor hstep⟩
  exact hboth.2 hdata

end Runs

/-! ## The service -/

section Service

variable {es : List (ServiceAction × ServiceObservation)} {s t : Service N}

/-- The condition `ok` of the system, for the steps of the service. -/
def OnService (ok : System N → Event → Prop) (s : Service N)
    (e : ServiceAction × ServiceObservation) : Prop :=
  ∀ step ∈ hostPart e, OnHost ok s.host step

instance {ok : System N → Event → Prop} [∀ s, DecidablePred (ok s)]
    (s : Service N) : DecidablePred (OnService ok s) :=
  fun e => inferInstanceAs (Decidable (∀ step ∈ hostPart e, _))

theorem Service.restricted_host_run {ok : System N → Event → Prop}
    (h : Run (Restrict (ServiceStep getopt config) (OnService ok)) s es t) :
    Run (Restrict (HostStep getopt config) (OnHost ok)) s.host
      (es.filterMap hostPart) t.host := by
  apply h.project (f := Service.host)
  · rintro s ⟨a, o⟩ t ⟨hstep, -⟩ hpart
    cases service_cases hstep
    all_goals first | rfl | cases hpart
  · rintro s ⟨a, o⟩ t b ⟨hstep, hok⟩ hpart
    refine ⟨?_, hok b hpart⟩
    cases service_cases hstep
    all_goals cases hpart
    all_goals assumption

theorem Service.run_of_restricted {ok : System N → Event → Prop}
    (h : Run (Restrict (ServiceStep getopt config) (OnService ok)) s es t) :
    Run (ServiceStep getopt config) s es t :=
  h.mono fun _ _ _ => And.left

/-- An accepted record comes from a query. -/
theorem stream_of_accepted {mem : SharedLst N}
    (h : Run (ServiceStep getopt config) (.initial mem) es t) {data : Data}
    (hdata : data ∈ es.filterMap acceptedRequest) :
    ∃ pid query response,
      (.stream pid query, .answered response (some data)) ∈ es ∧
        addTask pid query = (response, some data) := by
  revert hdata
  apply h.history_invariant (P := fun es _ =>
    data ∈ es.filterMap acceptedRequest → ∃ pid query response,
      (.stream pid query, .answered response (some data)) ∈ es ∧
        addTask pid query = (response, some data))
  · simp
  · rintro es s ⟨a, o⟩ u hbefore hstep hdata
    rw [filterMap_snoc] at hdata
    rcases List.mem_append.mp hdata with hdata | hdata
    · obtain ⟨pid, query, response, hmem, htask⟩ := hbefore hdata
      exact ⟨pid, query, response, List.mem_append_left _ hmem, htask⟩
    · cases service_cases hstep with
      | accept pid query response data' server htask hpush =>
          obtain rfl : data = data' := by
            simpa [acceptedRequest] using hdata
          exact ⟨pid, query, response, by simp, htask⟩
      | server => simp [acceptedRequest] at hdata
      | serve => simp [acceptedRequest] at hdata
      | refuse => simp [acceptedRequest] at hdata
      | list => simp [acceptedRequest] at hdata
      | host => simp [acceptedRequest] at hdata

theorem served_of_hostEvent {e : HostAction × Observation} {event : Event}
    {data : Data} (hevent : hostEvent e = some event)
    (hserved : event.served = some data) : hostServed e = some data := by
  obtain ⟨a, o⟩ := e
  cases a with
  | serve data' fork =>
      cases hevent
      cases o with
      | served signalled launched => exact hserved
      | copied record => cases hserved
      | silent => cases hserved
  | _ =>
      cases o with
      | copied record =>
          cases hevent
          cases hserved
      | served signalled launched => cases hevent
      | silent => cases hevent

theorem served_subset_accepted {mem : SharedLst N} {es' : List Event}
    (h : Run (ServiceStep getopt config) (.initial mem) es t)
    (hvisible : es'.filter (fun event => event.2 ≠ .silent) =
      (es.filterMap hostPart).filterMap hostEvent) :
    es'.filterMap Event.served ⊆ es.filterMap acceptedRequest := by
  intro data hdata
  obtain ⟨event, hevent, hserved⟩ := List.mem_filterMap.mp hdata
  have hloud : event.2 ≠ .silent := by
    obtain ⟨a, o⟩ := event
    rintro rfl
    cases a <;> cases hserved
  have hmem : event ∈ (es.filterMap hostPart).filterMap hostEvent := by
    rw [← hvisible]
    simpa [hevent] using hloud
  obtain ⟨e, he, hhost⟩ := List.mem_filterMap.mp hmem
  obtain ⟨step, hstep, hpart⟩ := List.mem_filterMap.mp he
  have hdone : data ∈ es.filterMap servedRequest := by
    refine List.mem_filterMap.mpr ⟨step, hstep, ?_⟩
    rw [servedRequest, hpart]
    exact served_of_hostEvent hhost hserved
  have haccount := ((initial_carried mem).run h).2
  simp only [Service.initial, ServerProcess.start, Option.toList_none,
    List.nil_append] at haccount
  rw [haccount]
  exact List.mem_append_left _ hdone

/-- After every run of the service the registry is consistent, and whatever an
endpoint was told comes from an accepted request. -/
theorem sourced_of_serviceRun (hg : FollowsGnu getopt) (h2 : 2 ≤ N)
    (hN : N ≤ 32767) (mem : SharedLst N)
    (hrun : Run (Restrict (ServiceStep getopt config) (OnService Environment))
      (.initial mem) es t) :
    Consistent t.host.system ∧
      Sourced (es.filterMap acceptedRequest) t.host.system := by
  have hhost := Service.restricted_host_run hrun
  have hplain := Service.run_of_restricted hrun
  obtain ⟨es', hrun', hvisible⟩ :=
    run_of_hostRun (fun _ _ _ => onRequest_of_actor) mem hhost
  have haccepted := served_subset_accepted hplain hvisible
  have hadmissible : ∀ data ∈ es.filterMap acceptedRequest,
      Admissible data := by
    intro data hdata
    obtain ⟨pid, query, response, -, htask⟩ := stream_of_accepted hplain hdata
    exact admissible_of_addTask htask
  refine ⟨consistent_of_run hg h2 hN (initial_consistent h2 hN mem) hrun', ?_⟩
  exact (sourced_of_run hg h2 hN mem hrun' fun data hdata =>
    hadmissible data (haccepted hdata)).mono haccepted

end Service

end SippScen.MediaHost
