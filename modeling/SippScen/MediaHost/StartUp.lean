import SippScen.MediaHost.Ownership

/-!
# Signals during the start-up of an endpoint

The entry of a new endpoint can be signalled as soon as the worker has left its
critical section, but `main` blocks `SIGRTMIN` only after `execvpe`, its options
and the opening of the shared memory.  A second request for the port within this
time kills the endpoint; if there is none, no endpoint is ever killed.
-/

namespace SippScen.MediaHost

open SippScen.Support SippScen.SharedList SippScen.MediaServer
open SippScen.MediaEndpoint

variable {N : ℕ} {getopt : GetoptLong} {config : ServerConfig}

/-- The process that receives `SIGRTMIN`. -/
def Event.signalled : Event → Option ℤ
  | (.serve _ _, .served signalled _) => signalled
  | _ => none

/-- Every registered endpoint that was launched for the port of the request has
blocked `SIGRTMIN`, if it is still alive. -/
def NoneStarting (s : System N) (data : Data) : Prop :=
  ∀ r ∈ s.list.records, ∀ e ∈ s.procs r.pid, e.launch.port = data.port →
    e.phase.vulnerable = false

instance (s : System N) (data : Data) : Decidable (NoneStarting s data) :=
  inferInstanceAs (Decidable (∀ r ∈ s.list.records, ∀ e ∈ s.procs r.pid, _))

/-- Requests come only after the start-up of the endpoints for their port, and
no pid is recycled while an entry holds it. -/
def AfterStartUp (s : System N) : Event → Prop :=
  OnRequest fun data launched => FreshPid s data launched ∧ NoneStarting s data

instance (s : System N) : DecidablePred (AfterStartUp s) := fun event =>
  inferInstanceAs (Decidable (OnRequest _ event))

/-! ## The invariant -/

/-- An entry names a process that was launched for its port, and no process has
been killed. -/
structure Unharmed (s : System N) : Prop where
  wellFormed : WellFormed s.list
  owner : ∀ r ∈ s.list.records, ∀ e, s.procs r.pid = some e →
    e.launch.port = r.port
  alive : ∀ pid e, s.procs pid = some e → e.phase ≠ .killed

theorem initial_unharmed (h2 : 2 ≤ N) (hN : N ≤ 32767) (mem : SharedLst N) :
    Unharmed (System.initial mem) := by
  obtain ⟨hwellFormed, hrecords⟩ := initializeList_wellFormed mem h2 hN
  refine ⟨hwellFormed, ?_, ?_⟩
  · intro r hr e he
    cases he
  · intro pid e he
    cases he

section Steps

variable {s t : System N} {o : Observation}

theorem Endpoint.deliver_ne_killed {e : Endpoint N} (halive : e.phase ≠ .killed)
    (hblocked : e.phase.vulnerable = false) : e.deliver.phase ≠ .killed := by
  rcases e.deliver_cases with ⟨-, heq⟩ | ⟨hvulnerable, -⟩ | ⟨-, -, heq⟩
  · rw [heq]
    exact halive
  · rw [hblocked] at hvulnerable
    cases hvulnerable
  · rw [heq]
    exact halive

/-- The worker signals only a process launched for the port of the request. -/
theorem Unharmed.signalled (hs : Unharmed s) (h2 : 2 ≤ N) (hN : N ≤ 32767)
    {data : Data} {fork : Option ℤ} {pid : ℤ} {launched : Option (ℤ × Data)}
    (h : s.next getopt config (.serve data fork) =
      some (t, .served (some pid) launched)) :
    ∃ r ∈ s.list.records, r.pid = pid ∧
      ∀ e, s.procs pid = some e → e.launch.port = data.port := by
  obtain ⟨signalled, launched', heq, -, heffect, -⟩ :=
    next_serve hs.wellFormed h2 hN h
  cases heq
  cases heffect with
  | reused _ _ r e hfind he hrecords hprocs =>
      obtain ⟨hr, hport⟩ := mem_of_findKey hfind
      exact ⟨r, hr, rfl, fun e he => (hs.owner r hr e he).trans hport⟩

theorem Unharmed.serve (hs : Unharmed s) (h2 : 2 ≤ N) (hN : N ≤ 32767)
    {data : Data} {fork : Option ℤ}
    (hok : AfterStartUp s (.serve data fork, o))
    (h : s.next getopt config (.serve data fork) = some (t, o)) :
    Unharmed t := by
  obtain ⟨signalled, launched, rfl, hl, heffect, -, -⟩ :=
    next_serve hs.wellFormed h2 hN h
  obtain ⟨hfresh, hstarted⟩ := hok
  have hchild : ∀ child launch, launch.port = data.port →
      FreshPid s data (some (child, launch)) →
      (∀ r ∈ t.list.records, r ∈ s.list.records ∨
        r = { data with pid := child }) →
      t.procs =
        Function.update s.procs child (some (Endpoint.child launch)) →
      Unharmed t := by
    intro child launch hport hfresh hrecords hprocs
    refine ⟨hl, ?_, ?_⟩
    · intro r hr e he
      rcases eq_some_of_update hprocs he with ⟨hpid, ⟨⟩⟩ | ⟨hpid, he⟩
      · rcases hrecords r hr with hold | rfl
        · exact hport.trans (hfresh (child, launch) rfl r hold hpid).symm
        · exact hport
      · rcases hrecords r hr with hold | rfl
        · exact hs.owner r hold e he
        · exact absurd rfl hpid
    · intro pid e he
      rcases eq_some_of_update hprocs he with ⟨-, ⟨⟩⟩ | ⟨-, he⟩
      · exact nofun
      · exact hs.alive pid e he
  cases heffect with
  | reused _ _ r e hfind he hrecords hprocs =>
      obtain ⟨hr, hport⟩ := mem_of_findKey hfind
      have hlaunch := (hs.owner r hr e he).trans hport
      refine ⟨hl, ?_, ?_⟩
      · intro r' hr' e' he'
        rw [hrecords] at hr'
        rcases eq_some_of_update hprocs he' with ⟨hpid, ⟨⟩⟩ | ⟨hpid, he'⟩
        · rw [Endpoint.deliver_launch]
          rcases mem_of_mem_replaceKey hr' with rfl | hold
          · exact hlaunch
          · rw [← hpid] at he
            exact hs.owner r' hold e he
        · rcases mem_of_mem_replaceKey hr' with rfl | hold
          · exact absurd rfl hpid
          · exact hs.owner r' hold e' he'
      · intro pid e' he'
        rcases eq_some_of_update hprocs he' with ⟨-, ⟨⟩⟩ | ⟨-, he'⟩
        · exact Endpoint.deliver_ne_killed (hs.alive r.pid e he)
            (hstarted r hr e he hlaunch)
        · exact hs.alive pid e' he'
  | launched _ child launch hdead hfree hport hrecords hprocs =>
      apply hchild child launch hport hfresh _ hprocs
      intro r hr
      rw [hrecords, List.mem_append, List.mem_singleton] at hr
      exact hr.imp_left mem_of_mem_removeKey
  | unregistered _ child hfind hfull hfree hrecords hprocs =>
      apply hchild child data rfl hfresh _ hprocs
      intro r hr
      rw [hrecords] at hr
      exact Or.inl hr
  | unserved _ hdead hrecords hprocs =>
      refine ⟨hl, ?_, ?_⟩
      · intro r hr e he
        rw [hprocs] at he
        rw [hrecords] at hr
        exact hs.owner r (mem_of_mem_removeKey hr) e he
      · intro pid e he
        rw [hprocs] at he
        exact hs.alive pid e he

theorem Unharmed.proc (hs : Unharmed s) (h2 : 2 ≤ N) (hN : N ≤ 32767)
    {a : Action} {actor : ℤ} (hactor : a.actor = some actor)
    (h : s.next getopt config a = some (t, o)) : Unharmed t := by
  obtain ⟨e, l, e', he, hstep, hlist, hprocs⟩ := next_proc hactor h
  have hspec : (∀ new, e' = some new →
        new.launch = e.launch ∧ new.phase ≠ .killed) ∧
      (l = s.list ∨ ∃ port rc, s.list.removeElement port = some (rc, l)) := by
    cases hstep with
    | advance _ new _ hadvance =>
        obtain ⟨hlaunch, halive, hl⟩ := hadvance.spec
        refine ⟨?_, hl⟩
        rintro _ ⟨⟩
        exact ⟨hlaunch, halive⟩
    | timeout hphase hpending =>
        refine ⟨?_, Or.inl rfl⟩
        rintro _ ⟨⟩
        exact ⟨rfl, nofun⟩
    | crash hphase =>
        refine ⟨?_, Or.inl rfl⟩
        rintro _ ⟨⟩
        exact ⟨rfl, nofun⟩
    | reap hphase =>
        refine ⟨?_, Or.inl rfl⟩
        rintro _ ⟨⟩
  obtain ⟨hnew, hl⟩ := hspec
  have hrecords : WellFormed t.list ∧
      ∀ r ∈ t.list.records, r ∈ s.list.records := by
    rw [hlist]
    rcases hl with rfl | ⟨port, rc, hremove⟩
    · exact ⟨hs.wellFormed, fun _ hr => hr⟩
    · obtain ⟨hl', hrecords⟩ := hs.wellFormed.of_removeElement h2 hN hremove
      refine ⟨hl', ?_⟩
      intro r hr
      rw [hrecords] at hr
      exact mem_of_mem_removeKey hr
  refine ⟨hrecords.1, ?_, ?_⟩
  · intro r hr new he'
    have hold := hrecords.2 r hr
    rcases eq_some_of_update hprocs he' with ⟨rfl, hentry⟩ | ⟨-, he'⟩
    · rw [(hnew new hentry).1]
      exact hs.owner r hold e he
    · exact hs.owner r hold new he'
  · intro pid new he'
    rcases eq_some_of_update hprocs he' with ⟨-, hentry⟩ | ⟨-, he'⟩
    · exact (hnew new hentry).2
    · exact hs.alive pid new he'

end Steps

/-! ## Every interleaving -/

section Runs

variable {es : List Event} {t : System N}

theorem unharmed_of_run (h2 : 2 ≤ N) (hN : N ≤ 32767) (mem : SharedLst N)
    (hrun : Run (Restrict (Step getopt config) AfterStartUp)
      (System.initial mem) es t) : Unharmed t := by
  apply hrun.invariant (initial_unharmed h2 hN mem)
  rintro s ⟨a, o⟩ u hs ⟨hstep, hok⟩
  cases hactor : a.actor with
  | none =>
      cases a with
      | serve data fork => exact hs.serve h2 hN hok hstep
      | _ => cases hactor
  | some pid => exact hs.proc h2 hN hactor hstep

/-- When requests come only after the start-up of the endpoints for their port,
no endpoint is ever killed, and no step sends `SIGRTMIN` to an endpoint that has
not blocked it. -/
theorem no_endpoint_killed (h2 : 2 ≤ N) (hN : N ≤ 32767) (mem : SharedLst N)
    (hrun : Run (Restrict (Step getopt config) AfterStartUp)
      (System.initial mem) es t) :
    (∀ pid e, t.procs pid = some e → e.phase ≠ .killed) ∧
      ∀ event u, Restrict (Step getopt config) AfterStartUp t event u →
        ∀ pid e, Event.signalled event = some pid → t.procs pid = some e →
          e.phase.vulnerable = false := by
  have ht := unharmed_of_run h2 hN mem hrun
  refine ⟨ht.alive, ?_⟩
  rintro ⟨a, o⟩ u ⟨hstep, hok⟩ pid e hsignalled he
  unfold Event.signalled at hsignalled
  split at hsignalled
  · next data fork signalled launched heq =>
    obtain ⟨rfl, rfl⟩ := Prod.mk.inj heq
    subst hsignalled
    obtain ⟨r, hr, rfl, hlaunch⟩ := ht.signalled h2 hN hstep
    exact hok.2 r hr e he (hlaunch e he)
  · cases hsignalled

/-- An endpoint that is signalled after its start-up survives. -/
theorem no_endpoint_killed_one : ∃ t es,
    Run (Restrict (Step exactGetoptLong defaultConfig) AfterStartUp)
        (System.initial (zeroSegment 2)) es t ∧
      es.filterMap Event.signalled = [7] ∧
      ∀ pid e, t.procs pid = some e → e.phase ≠ .killed := by
  obtain ⟨t, es, hrun, -, htest⟩ := exists_restricted_run_of_exec
    (System.next exactGetoptLong defaultConfig) AfterStartUp
    (System.initial (zeroSegment 2))
    [.serve (serverRequest 21000 10000) (some 7), .advance 7, .advance 7,
      .advance 7, .advance 7, .serve (serverRequest 21000 20000) none]
    (fun r => decide (r.2.filterMap Event.signalled = [7])) (by decide +kernel)
  exact ⟨t, es, hrun, of_decide_eq_true htest,
    (no_endpoint_killed (by decide) (by decide) (zeroSegment 2) hrun).1⟩

/-- Under the assumptions of `Environment` the condition is exact: the worker
kills an endpoint in a step just when one launched for the port has not blocked
`SIGRTMIN`. -/
theorem signals_vulnerable_iff (hg : FollowsGnu getopt) (h2 : 2 ≤ N)
    (hN : N ≤ 32767) (mem : SharedLst N)
    (hrun : Run (Restrict (Step getopt config) Environment)
      (System.initial mem) es t) {data : Data} {fork : Option ℤ}
    {o : Observation} {u : System N}
    (hstep : Step getopt config t (.serve data fork, o) u) :
    (∃ pid e, Event.signalled (.serve data fork, o) = some pid ∧
        t.procs pid = some e ∧ e.phase.vulnerable = true) ↔
      ¬ NoneStarting t data := by
  have ht := consistent_of_run hg h2 hN (initial_consistent h2 hN mem) hrun
  obtain ⟨signalled, launched, rfl, -, heffect, -⟩ :=
    next_serve ht.wellFormed h2 hN hstep
  constructor
  · rintro ⟨pid, e, hsignalled, he, hvulnerable⟩ hnone
    obtain rfl : signalled = some pid := hsignalled
    cases heffect with
    | reused _ _ r e' hfind he' hrecords hprocs =>
        rw [he] at he'
        obtain rfl := Option.some.inj he'
        obtain ⟨hr, hport⟩ := mem_of_findKey hfind
        have hlaunch := (ht.owner r hr e he).1.trans hport
        rw [hnone r hr e he hlaunch] at hvulnerable
        cases hvulnerable
  · intro hsome
    simp only [NoneStarting, not_forall, Bool.not_eq_false] at hsome
    obtain ⟨r, hr, e, he, hlaunch, hvulnerable⟩ := hsome
    have hport : r.port = data.port := (ht.owner r hr e he).1.symm.trans hlaunch
    have hfind : findKey Data.port data.port t.list.records = some r := by
      rw [← hport]
      exact findKey_of_mem ht.ports hr
    have hlive : t.procs r.pid ≠ none := by
      intro hdead
      rw [Option.mem_def, hdead] at he
      cases he
    cases heffect with
    | reused _ _ r' e' hfind' he' hrecords hprocs =>
        rw [hfind] at hfind'
        obtain rfl := Option.some.inj hfind'
        exact ⟨r.pid, e, rfl, he, hvulnerable⟩
    | launched _ child launch hdead => exact absurd (hdead r hfind) hlive
    | unregistered _ child hnone =>
        rw [hfind] at hnone
        cases hnone
    | unserved _ hdead => exact absurd (hdead r hfind) hlive

/-- The second request for a port is handled right after the child of the first
one has executed its program. -/
def earlyRequest : List Action :=
  [.serve (serverRequest 21000 10000) (some 7), .advance 7,
    .serve (serverRequest 21000 10000) none]

/-- A second request that comes before the start-up is over kills the endpoint,
and its entry stays in the registry. -/
theorem endpoint_killed : ∃ t es,
    Run (Restrict (Step exactGetoptLong defaultConfig) Environment)
        (System.initial (zeroSegment 2)) es t ∧
      es.map Prod.fst = earlyRequest ∧
      (t.procs 7).map Endpoint.phase = some .killed ∧
      t.list.records.map Data.pid = [7] := by
  obtain ⟨t, es, hrun, hactions, htest⟩ := exists_restricted_run_of_exec
    (System.next exactGetoptLong defaultConfig) Environment
    (System.initial (zeroSegment 2)) earlyRequest
    (fun r => decide ((r.1.procs 7).map Endpoint.phase = some .killed ∧
      r.1.list.records.map Data.pid = [7])) (by decide +kernel)
  obtain ⟨hphase, hpids⟩ := of_decide_eq_true htest
  exact ⟨t, es, hrun, hactions, hphase, hpids⟩

end Runs

end SippScen.MediaHost
