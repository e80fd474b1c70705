import SippScen.MediaHost.Service

/-!
# The status of a media server

`getStatus` prints the registry while it has the mutex.  Every line of the answer
shows a port of its own, the last request that was served for this port, and the
process that was launched for it last.
-/

namespace SippScen.MediaHost

open SippScen.Support SippScen.SharedList SippScen.MediaServer
open SippScen.MediaEndpoint (GetoptLong)

variable {N : ℕ} {getopt : GetoptLong} {config : ServerConfig}

/-- The child that the worker launched in a step of the host, and the record it
was launched for. -/
def hostLaunched : HostAction × Observation → Option (ℤ × Data)
  | (.serve _ _, .served _ launched) => launched
  | _ => none

/-- The port that a child was launched for. -/
def launchPort (child : ℤ × Data) : ℤ := child.2.port

/-- The entries are what the last requests and launches for their ports left. -/
structure Latest (hs : List (HostAction × Observation)) (entries : List Data) :
    Prop where
  ports : (entries.map Data.port).Nodup
  requested : ∀ r ∈ entries, ∃ data,
    lastKey Data.port r.port (hs.filterMap hostServed) = some data ∧
      r = { data with pid := r.pid }
  launched : ∀ r ∈ entries, ∃ launch,
    lastKey launchPort r.port (hs.filterMap hostLaunched) = some (r.pid, launch)

section Steps

variable {hs : List (HostAction × Observation)} {entries entries' : List Data}

theorem Latest.of_sublist (h : Latest hs entries)
    {e : HostAction × Observation} (hserved : hostServed e = none)
    (hlaunched : hostLaunched e = none) (hsub : entries'.Sublist entries) :
    Latest (hs ++ [e]) entries' := by
  refine ⟨h.ports.sublist (hsub.map Data.port), ?_, ?_⟩
  · intro r hr
    rw [filterMap_snoc, hserved, Option.toList_none, List.append_nil]
    exact h.requested r (hsub.subset hr)
  · intro r hr
    rw [filterMap_snoc, hlaunched, Option.toList_none, List.append_nil]
    exact h.launched r (hsub.subset hr)

/-- After a request, an entry of another port is an old one, and an entry of its
port shows its record, and the process that was there or the new child. -/
theorem Latest.of_served (h : Latest hs entries) {data : Data}
    {fork signalled : Option ℤ} {launched : Option (ℤ × Data)}
    (hports : (entries'.map Data.port).Nodup)
    (hlaunched : ∀ child, launched = some child → child.2.port = data.port)
    (hold : ∀ r ∈ entries', r.port ≠ data.port → r ∈ entries)
    (hnew : ∀ r ∈ entries', r.port = data.port → r = { data with pid := r.pid } ∧
      ((launched = none ∧ ∃ r₀ ∈ entries, r₀.port = data.port ∧ r₀.pid = r.pid) ∨
        ∃ launch, launched = some (r.pid, launch))) :
    Latest (hs ++ [(.serve data fork, .served signalled launched)]) entries' := by
  refine ⟨hports, ?_, ?_⟩
  · intro r hr
    rw [filterMap_snoc]
    change ∃ d, lastKey Data.port r.port (_ ++ [data]) = some d ∧ _
    by_cases hport : r.port = data.port
    · rw [hport, lastKey_snoc_self]
      exact ⟨data, rfl, (hnew r hr hport).1⟩
    · rw [lastKey_snoc_of_ne (Ne.symm hport)]
      exact h.requested r (hold r hr hport)
  · intro r hr
    rw [filterMap_snoc]
    change ∃ launch, lastKey launchPort r.port (_ ++ launched.toList) = _
    by_cases hport : r.port = data.port
    · rcases (hnew r hr hport).2 with
        ⟨rfl, r₀, hr₀, hport₀, hpid⟩ | ⟨launch, rfl⟩
      · rw [Option.toList_none, List.append_nil, hport, ← hport₀, ← hpid]
        exact h.launched r₀ hr₀
      · refine ⟨launch, ?_⟩
        have hkey : launchPort (r.pid, launch) = r.port :=
          (hlaunched _ rfl).trans hport.symm
        rw [← hkey]
        exact lastKey_snoc_self
    · obtain ⟨launch, hlast⟩ := h.launched r (hold r hr hport)
      refine ⟨launch, ?_⟩
      cases launched with
      | none => simpa using hlast
      | some child =>
          have hkey : launchPort child ≠ r.port := by
            rw [launchPort, hlaunched child rfl]
            exact Ne.symm hport
          rw [Option.toList_some, lastKey_snoc_of_ne hkey]
          exact hlast

/-- The six outcomes of a critical section of the worker. -/
theorem Latest.serve (h : Latest hs entries) {k : Kernel} {data : Data}
    {fork signalled : Option ℤ} {launched : Option (ℤ × Data)}
    {output : List CString}
    (houtcome : Outcome N k entries data entries' signalled launched output) :
    Latest (hs ++ [(.serve data fork, .served signalled launched)]) entries' := by
  have hfresh : ∀ {pid : ℤ}, findKey Data.port data.port entries = none →
      ((entries ++ [{ data with pid := pid }]).map Data.port).Nodup := by
    intro pid hfind
    apply nodup_map_concat h.ports
    exact findKey_eq_none_iff.mp hfind
  have hremoved : ∀ {r}, r ∈ removeKey Data.port data.port entries →
      r ∈ entries ∧ r.port ≠ data.port := (mem_removeKey h.ports).mp
  cases houtcome with
  | reused r₀ hfind hsig =>
      obtain ⟨hmem, hkey⟩ := mem_of_findKey hfind
      have hreplaced : ∀ {r}, r ∈ replaceKey Data.port
          { data with pid := r₀.pid } entries →
          r = { data with pid := r₀.pid } ∨ r ∈ entries ∧ r.port ≠ data.port :=
        (mem_replaceKey (y := { data with pid := r₀.pid }) h.ports
          ⟨r₀, hmem, hkey⟩).mp
      apply h.of_served
      · rw [map_key_replaceKey]
        exact h.ports
      · rintro _ ⟨⟩
      · intro r hr hport
        rcases hreplaced hr with rfl | ⟨hr, -⟩
        · exact absurd rfl hport
        · exact hr
      · intro r hr hport
        rcases hreplaced hr with rfl | ⟨-, hne⟩
        · exact ⟨rfl, Or.inl ⟨rfl, r₀, hmem, hkey, rfl⟩⟩
        · exact absurd hport hne
  | relaunched r₀ pid hfind hsig hfork =>
      apply h.of_served
      · apply nodup_map_concat (nodup_map_removeKey h.ports)
        exact fun r hr => (hremoved hr).2
      · rintro _ ⟨⟩
        rfl
      · intro r hr hport
        rcases List.mem_append.mp hr with hr | hr
        · exact (hremoved hr).1
        · rw [List.mem_singleton.mp hr] at hport
          exact absurd rfl hport
      · intro r hr hport
        rcases List.mem_append.mp hr with hr | hr
        · exact absurd hport (hremoved hr).2
        · rw [List.mem_singleton.mp hr]
          exact ⟨rfl, Or.inr ⟨_, rfl⟩⟩
  | cleaned r₀ hfind hsig hfork =>
      apply h.of_served (nodup_map_removeKey h.ports)
      · rintro _ ⟨⟩
      · exact fun r hr _ => (hremoved hr).1
      · exact fun r hr hport => absurd hport (hremoved hr).2
  | launched pid hfind hfork hroom =>
      have habsent := findKey_eq_none_iff.mp hfind
      apply h.of_served (hfresh hfind)
      · rintro _ ⟨⟩
        rfl
      · intro r hr hport
        rcases List.mem_append.mp hr with hr | hr
        · exact hr
        · rw [List.mem_singleton.mp hr] at hport
          exact absurd rfl hport
      · intro r hr hport
        rcases List.mem_append.mp hr with hr | hr
        · exact absurd hport (habsent r hr)
        · rw [List.mem_singleton.mp hr]
          exact ⟨rfl, Or.inr ⟨_, rfl⟩⟩
  | unregistered pid hfind hfork hfull =>
      have habsent := findKey_eq_none_iff.mp hfind
      apply h.of_served h.ports
      · rintro _ ⟨⟩
        rfl
      · exact fun r hr _ => hr
      · exact fun r hr hport => absurd hport (habsent r hr)
  | unserved hfind hfork =>
      have habsent := findKey_eq_none_iff.mp hfind
      apply h.of_served h.ports
      · rintro _ ⟨⟩
      · exact fun r hr _ => hr
      · exact fun r hr hport => absurd hport (habsent r hr)

end Steps

section Runs

variable {h t : Host N} {hs : List (HostAction × Observation)} {pid : ℤ}

theorem Intact.records_sublist (hh : Intact h) (h2 : 2 ≤ N) (hN : N ≤ 32767)
    {a : HostAction} {o : Observation} (ha : a.ofProcess = true)
    (hnext : h.next getopt config a = some (t, o)) :
    t.list.records.Sublist h.list.records := by
  have hthread : ∀ {pid b}, h.threadStep pid b = some (t, o) →
      t.list.records.Sublist h.list.records := by
    intro pid b hstep
    obtain ⟨r, r', report, -, -, hfinish⟩ := threadStep_cases hstep
    obtain ⟨-, hlist, -⟩ := finish_cases hfinish
    rw [hlist]
  cases a with
  | serve data fork => cases ha
  | startUp pid =>
      simp only [Host.next] at hnext
      split at hnext
      case h_2 => cases hnext
      next e he =>
      split at hnext
      · cases hnext
        exact List.Sublist.refl _
      · next hphase =>
        obtain ⟨⟨l, e', o'⟩, hadvance, heq⟩ := Option.bind_eq_some_iff.mp hnext
        cases heq
        obtain ⟨rfl, -⟩ :=
          startsUp_advance (hh.starting pid e he) hphase hadvance
        exact List.Sublist.refl _
  | startUpFailure pid =>
      simp only [Host.next] at hnext
      split at hnext
      case h_2 => cases hnext
      obtain ⟨-, heq⟩ := Option.ite_none_left_eq_some.mp hnext
      cases heq
      exact List.Sublist.refl _
  | main pid =>
      simp only [Host.next] at hnext
      split at hnext
      case h_2 => cases hnext
      obtain ⟨⟨l', r', report⟩, hmain, hfinish⟩ :=
        Option.bind_eq_some_iff.mp hnext
      obtain ⟨-, hlist, -⟩ := finish_cases hfinish
      rw [hlist]
      obtain ⟨-, ⟨node, -, -, rfl, -⟩ | ⟨-, -, rfl | ⟨port, rc, hremove⟩⟩⟩ :=
        main_cases hmain
      · exact List.Sublist.refl _
      · exact List.Sublist.refl _
      · rw [(hh.wellFormed.of_removeElement h2 hN hremove).2]
        exact removeKey_sublist
  | reap pid =>
      obtain ⟨p, -, hrest⟩ := Option.bind_eq_some_iff.mp hnext
      obtain ⟨-, heq⟩ := Option.ite_none_right_eq_some.mp hrest
      cases heq
      exact List.Sublist.refl _
  | timeout pid => exact hthread hnext
  | waitError pid => exact hthread hnext
  | stream pid => exact hthread hnext
  | fail pid => exact hthread hnext
  | wake pid => exact hthread hnext

theorem Latest.next (hh : Intact h) (hlatest : Latest hs h.list.records)
    (h2 : 2 ≤ N) (hN : N ≤ 32767) {a : HostAction} {o : Observation}
    (hnext : h.next getopt config a = some (t, o)) :
    Latest (hs ++ [(a, o)]) t.list.records := by
  cases a with
  | serve data fork =>
      obtain ⟨-, hrest⟩ := Option.ite_none_right_eq_some.mp hnext
      obtain ⟨v, hserve, heq⟩ := Option.bind_eq_some_iff.mp hrest
      cases heq
      obtain ⟨v', hserve', -, houtcome⟩ :=
        serve_spec hh.wellFormed h2 hN (h.system.kernel fork) data
      obtain rfl : v = v' := Option.some.inj (hserve.symm.trans hserve')
      exact hlatest.serve houtcome
  | _ =>
      exact hlatest.of_sublist rfl rfl (hh.records_sublist h2 hN rfl hnext)

theorem initial_latest (h2 : 2 ≤ N) (hN : N ≤ 32767) (mem : SharedLst N) :
    Latest [] (Host.initial mem).list.records := by
  have hnil : (Host.initial mem).list.records = [] :=
    (initializeList_wellFormed mem h2 hN).2
  rw [hnil]
  exact ⟨List.nodup_nil, by simp, by simp⟩

theorem latest_of_run (h2 : 2 ≤ N) (hN : N ≤ 32767) (mem : SharedLst N)
    (hrun : Run (HostStep getopt config) (.initial mem) hs t) :
    Latest hs t.list.records := by
  have hboth : Intact t ∧ Latest hs t.list.records := by
    apply hrun.history_invariant
      (P := fun hs t => Intact t ∧ Latest hs t.list.records)
    · exact ⟨initial_intact h2 hN mem, initial_latest h2 hN mem⟩
    · rintro hs h ⟨a, o⟩ t ⟨hh, hlatest⟩ hstep
      exact ⟨hh.next h2 hN hstep, hlatest.next hh h2 hN hstep⟩
  exact hboth.2

/-- In every run the answer to a `/status` request has one line for each entry
of the registry.  The entries have distinct ports, and each of them is the last
request served for its port, with the pid of the last process launched for it. -/
theorem status_lists_latest (h2 : 2 ≤ N) (hN : N ≤ 32767) (mem : SharedLst N)
    {es es' : List (ServiceAction × ServiceObservation)} {response : Response}
    {s : Service N}
    (hrun : Run (ServiceStep getopt config) (.initial mem)
      (es ++ (.status, .listed response) :: es') s) :
    ∃ entries, response = ⟨.ok, entries.flatMap printLine⟩ ∧
      entries.length ≤ N ∧ Latest (es.filterMap hostPart) entries := by
  obtain ⟨u, v, hbefore, hstep, -⟩ := hrun.of_mid
  have hhost : Run (HostStep getopt config) (.initial mem)
      (es.filterMap hostPart) u.host := Service.host_run hbefore
  have hu := intact_of_run h2 hN mem hhost
  cases service_cases hstep with
  | list text hanswers hfree hprint =>
      rw [hu.wellFormed.printList_spec] at hprint
      cases hprint
      exact ⟨u.host.list.records, rfl, hu.wellFormed.length_records_le,
        latest_of_run h2 hN mem hhost⟩

/-- A request that launches an endpoint, and one that reuses it. -/
def statusSteps : List ServiceAction :=
  serviceSteps ++ [.server .notify] ++ List.replicate 5 (.server .worker) ++
    [.serve none]

/-- The second request in the registry. -/
def reusedEntry : Data := { retargetRequest with pid := 7 }

/-- The status shows the second request, with the pid of the launched process. -/
theorem status_lists_latest_reused : ∃ es s,
    Run (ServiceStep MediaEndpoint.exactGetoptLong MediaEndpoint.defaultConfig)
        (.initial (zeroSegment 2))
        (es ++ [(.status, .listed ⟨.ok, printLine reusedEntry⟩)]) s ∧
      es.filterMap servedRequest =
        [MediaEndpoint.serverRequest 21000 10000, retargetRequest] ∧
      ∃ entries : List Data, (⟨.ok, printLine reusedEntry⟩ : Response) =
          ⟨.ok, entries.flatMap printLine⟩ ∧
        entries.length ≤ 2 ∧ Latest (es.filterMap hostPart) entries := by
  obtain ⟨s, es, hrun, -, htest⟩ := exists_run_of_exec
    (Service.next MediaEndpoint.exactGetoptLong MediaEndpoint.defaultConfig)
    (.initial (zeroSegment 2)) statusSteps
    (fun r => decide (r.2.filterMap servedRequest =
        [MediaEndpoint.serverRequest 21000 10000, retargetRequest] ∧
      r.1.server.answers = true ∧ r.1.host.owner = none ∧
      r.1.host.list.printList = some (printLine reusedEntry)))
    (by decide +kernel)
  obtain ⟨hserved, hanswers, hfree, hprint⟩ := of_decide_eq_true htest
  replace hfree : s.host.owner = none := hfree
  have hstatus := hrun.snoc
    (a := (.status, .listed ⟨.ok, printLine reusedEntry⟩)) (u := s)
    (by simp [StepOf, Service.next, hanswers, hfree, hprint])
  exact ⟨es, s, hstatus, hserved,
    status_lists_latest (by decide) (by decide) (zeroSegment 2) hstatus⟩

end Runs

end SippScen.MediaHost
