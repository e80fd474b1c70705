import SippScen.MediaHost.Ownership

/-!
# Requests handed to a running endpoint

A request for a registered port is put into the entry and announced by a signal.
The endpoint answers it by copying the entry.  It may have decided to exit
before, and a later request may overwrite the entry before it is copied; in both
cases the request is lost.  In all other interleavings no request is.
-/

namespace SippScen.MediaHost

open SippScen.Support SippScen.SharedList SippScen.MediaServer
open SippScen.MediaEndpoint

variable {N : ℕ} {getopt : GetoptLong} {config : ServerConfig}

/-! ## The fate of a request -/

/-- The process that the worker signals, and the record that it puts into the
entry of this process. -/
def Event.accepted : Event → Option (ℤ × Data)
  | (.serve data _, .served (some pid) _) => some (pid, { data with pid := pid })
  | _ => none

/-- The process that copies its entry, and the record that it finds there. -/
def Event.copied : Event → Option (ℤ × Data)
  | (action, .copied data) => action.actor.map fun pid => (pid, data)
  | _ => none

/-- The pid of the process that the worker launches. -/
def Event.launched : Event → Option ℤ
  | (_, .served _ (some (pid, _))) => some pid
  | _ => none

/-- The process that has the pid now was handed the record and has not copied
it since. -/
def Awaits (es : List Event) (pid : ℤ) (record : Data) : Prop :=
  Since (fun e => Event.accepted e = some (pid, record))
    (fun e => Event.copied e ≠ some (pid, record) ∧
      Event.launched e ≠ some pid) es

instance (es : List Event) (pid : ℤ) (record : Data) :
    Decidable (Awaits es pid record) :=
  inferInstanceAs (Decidable (Since _ _ es))

/-- A process has removed its entry and exited without copying a request that
was handed to it. -/
def Dropped (es : List Event) (s : System N) : Prop :=
  ∃ pid record e, Awaits es pid record ∧ s.procs pid = some e ∧
    e.phase = .exited

/-- The endpoint has been signalled and has not copied its entry since. -/
def Endpoint.Unread (e : Endpoint N) : Prop :=
  0 < e.pending ∨ e.phase.reading = true

instance (e : Endpoint N) : Decidable e.Unread :=
  inferInstanceAs (Decidable (_ ∨ _))

theorem Endpoint.Unread.pending_pos {e : Endpoint N} (h : e.Unread)
    (hreading : e.phase.reading = false) : 0 < e.pending := by
  rcases h with hpending | hphase
  · exact hpending
  · rw [hreading] at hphase
    cases hphase

/-- The endpoint registered for the port, if it is alive, is not about to exit
and has copied what it was handed before. -/
def Undisturbed (s : System N) (data : Data) : Prop :=
  ∀ r ∈ s.list.records, r.port = data.port →
    ∀ e ∈ s.procs r.pid, e.phase.active = true →
      e.phase.expiring = false ∧ ¬ e.Unread

instance (s : System N) (data : Data) : Decidable (Undisturbed s data) :=
  inferInstanceAs (Decidable (∀ r ∈ s.list.records, _ → ∀ e ∈ s.procs r.pid, _))

/-- The environment in which every request reaches an endpoint that is ready
for it. -/
def Orderly (s : System N) (event : Event) : Prop :=
  Environment s event ∧ OnRequest (fun data _ => Undisturbed s data) event

instance (s : System N) : DecidablePred (Orderly s) := fun event =>
  inferInstanceAs (Decidable (Environment s event ∧ OnRequest _ event))

/-! ## The invariant -/

/-- A request that was not copied yet is still in the entry of its process, and
the process knows that it has a signal to answer. -/
def Remembered (es : List Event) (s : System N) : Prop :=
  ∀ pid record e, Awaits es pid record → s.procs pid = some e →
    e.phase.departed = false ∧
      (e.phase.active = true → e.Unread ∧ e.phase.expiring = false ∧
        record ∈ s.list.records ∧ record.pid = pid)

section Steps

variable {es : List Event} {s t : System N}

theorem Endpoint.active_of_deliver {e : Endpoint N}
    (h : e.deliver.phase.active = true) :
    e.phase.active = true ∧ e.deliver.Unread ∧
      e.deliver.phase.expiring = e.phase.expiring := by
  rcases e.deliver_cases with ⟨hended, heq⟩ | ⟨-, heq⟩ | ⟨-, -, heq⟩
  · rw [heq] at h
    revert hended h
    cases e.phase <;> simp [Phase.ended, Phase.active]
  · rw [heq] at h
    cases h
  · rw [heq] at h ⊢
    exact ⟨h, Or.inl (Nat.succ_pos _), rfl⟩

theorem Remembered.keep (hrem : Remembered es s) {pid : ℤ} {record : Data}
    {e : Endpoint N} (hawaits : Awaits es pid record)
    (he : s.procs pid = some e)
    (hkeep : record ∈ s.list.records → record.pid = pid →
      record ∈ t.list.records) :
    e.phase.departed = false ∧
      (e.phase.active = true → e.Unread ∧ e.phase.expiring = false ∧
        record ∈ t.list.records ∧ record.pid = pid) := by
  obtain ⟨hdeparted, hactive⟩ := hrem pid record e hawaits he
  refine ⟨hdeparted, ?_⟩
  intro hafter
  obtain ⟨hunread, hstays, hrecord, hpid⟩ := hactive hafter
  exact ⟨hunread, hstays, hkeep hrecord hpid, hpid⟩

/-- An undisturbed process has the new request in its entry and a signal to
answer. -/
theorem Consistent.accepts (hs : Consistent s) {data r : Data} {e : Endpoint N}
    (hr : r ∈ s.list.records) (hport : r.port = data.port)
    (he : s.procs r.pid = some e) (hundisturbed : Undisturbed s data)
    (hrecords : t.list.records =
      replaceKey Data.port { data with pid := r.pid } s.list.records) :
    e.deliver.phase.departed = false ∧
      (e.deliver.phase.active = true →
        e.deliver.Unread ∧ e.deliver.phase.expiring = false ∧
          { data with pid := r.pid } ∈ t.list.records) := by
  constructor
  · rw [Endpoint.deliver_departed]
    exact (hs.owner r hr e he).2
  · intro hactive
    obtain ⟨hbefore, hunread, hexpiring⟩ := Endpoint.active_of_deliver hactive
    obtain ⟨hstays, -⟩ := hundisturbed r hr hport e he hbefore
    refine ⟨hunread, hexpiring.trans hstays, ?_⟩
    rw [hrecords]
    exact mem_replaceKey_self ⟨r, hr, hport⟩

theorem Consistent.port_ne (hs : Consistent s) {record : Data} {port : ℤ}
    (hrecord : record ∈ s.list.records)
    (hother : ∀ r, findKey Data.port port s.list.records = some r →
      r.pid ≠ record.pid) : record.port ≠ port := by
  intro hport
  have hfind := findKey_of_mem hs.ports hrecord
  rw [hport] at hfind
  exact hother record hfind rfl

/-- A critical section of the worker forgets no request. -/
theorem Remembered.serve (hs : Consistent s) (hrem : Remembered es s)
    (h2 : 2 ≤ N) (hN : N ≤ 32767) {data : Data} {fork : Option ℤ}
    {o : Observation} (hok : Orderly s (.serve data fork, o))
    (h : s.next getopt config (.serve data fork) = some (t, o)) :
    Remembered (es ++ [(.serve data fork, o)]) t := by
  obtain ⟨signalled, launched, rfl, hl, heffect, -, -⟩ :=
    next_serve hs.wellFormed h2 hN h
  obtain ⟨⟨hvalid, hroom, hfresh⟩, hundisturbed⟩ := hok
  intro pid record e' hnow he'
  rcases since_snoc_iff.mp hnow with haccepted | ⟨hawaits, -, hlaunched⟩
  · cases heffect with
    | reused _ _ r e hfind he hrecords hprocs =>
        obtain ⟨rfl, rfl⟩ := Prod.mk.inj (Option.some.inj haccepted)
        obtain ⟨hr, hport⟩ := mem_of_findKey hfind
        rw [hprocs, Function.update_self] at he'
        obtain rfl := Option.some.inj he'
        obtain ⟨hdeparted, hactive⟩ :=
          hs.accepts hr hport he hundisturbed hrecords
        refine ⟨hdeparted, ?_⟩
        intro hafter
        obtain ⟨hunread, hstays, hrecord⟩ := hactive hafter
        exact ⟨hunread, hstays, hrecord, rfl⟩
    | launched => cases haccepted
    | unregistered => cases haccepted
    | unserved => cases haccepted
  · cases heffect with
    | reused _ _ r e hfind he hrecords hprocs =>
        obtain ⟨hr, hport⟩ := mem_of_findKey hfind
        rcases eq_some_of_update hprocs he' with ⟨rfl, ⟨⟩⟩ | ⟨hpid, he'⟩
        · obtain ⟨hdeparted, hactive⟩ := hrem r.pid record e hawaits he
          refine ⟨e.deliver_departed.trans hdeparted, ?_⟩
          intro hafter
          obtain ⟨hbefore, -⟩ := Endpoint.active_of_deliver hafter
          exact absurd (hactive hbefore).1
            (hundisturbed r hr hport e he hbefore).2
        · apply hrem.keep hawaits he'
          rintro hrecord rfl
          rw [hrecords]
          refine (mem_replaceKey (y := { data with pid := r.pid }) hs.ports
            ⟨r, hr, hport⟩).mpr (Or.inr ⟨hrecord, ?_⟩)
          apply hs.port_ne hrecord
          intro r' hfind'
          rw [hfind] at hfind'
          obtain rfl := Option.some.inj hfind'
          exact Ne.symm hpid
    | launched _ child launch hdead hfree hport hrecords hprocs =>
        have hne : pid ≠ child := by
          rintro rfl
          exact hlaunched rfl
        rw [hprocs, Function.update_of_ne hne] at he'
        apply hrem.keep hawaits he'
        rintro hrecord rfl
        rw [hrecords, List.mem_append, mem_removeKey hs.ports]
        refine Or.inl ⟨hrecord, ?_⟩
        apply hs.port_ne hrecord
        intro r hfind hpid
        rw [← hpid, hdead r hfind] at he'
        cases he'
    | unregistered _ child hfind hfull hfree hrecords hprocs =>
        exact absurd hfull (hs.not_full hroom hfind)
    | unserved _ hdead hrecords hprocs =>
        rw [hprocs] at he'
        apply hrem.keep hawaits he'
        rintro hrecord rfl
        rw [hrecords, mem_removeKey hs.ports]
        refine ⟨hrecord, ?_⟩
        apply hs.port_ne hrecord
        intro r hfind hpid
        rw [← hpid, hdead r hfind] at he'
        cases he'

/-- The next statement of `main` keeps a signal unread until it copies the
entry. -/
theorem Advance.unread {l l' : SharedLst N} {e e' : Endpoint N} {o : Observation}
    (hadvance : Advance getopt config l e l' e' o)
    (hdeparted : e.phase.departed = false)
    (hactive : e.phase.active = true → e.Unread ∧ e.phase.expiring = false)
    (hcopy : ∀ i, e.phase ≠ .fetched (some i)) :
    e'.phase.departed = false ∧
      (e'.phase.active = true → e'.Unread ∧ e'.phase.expiring = false) := by
  cases hadvance with
  | pass p hphase =>
      obtain ⟨-, hbefore, hgone, -⟩ := Phase.succ_spec hphase
      constructor
      · rw [← Bool.not_eq_true] at hdeparted ⊢
        exact fun h => hdeparted (hgone h)
      · intro hafter
        obtain ⟨hunread, hstays⟩ := hactive (hbefore hafter)
        obtain ⟨hreading, hexpiring⟩ := Phase.succ_reading hphase
        refine ⟨Or.inl (hunread.pending_pos hreading), ?_⟩
        rw [← Bool.not_eq_true] at hstays ⊢
        exact fun h => hstays (hexpiring h)
  | parse options p hphase hoptions hp =>
      obtain ⟨hunread, -⟩ := hactive (by rw [hphase]; rfl)
      have hpending := hunread.pending_pos (by rw [hphase]; rfl)
      rcases hp with rfl | rfl
      · exact ⟨rfl, nofun⟩
      · exact ⟨rfl, fun _ => ⟨Or.inl hpending, rfl⟩⟩
  | start hphase =>
      obtain ⟨hunread, -⟩ := hactive (by rw [hphase]; rfl)
      have hpending := hunread.pending_pos (by rw [hphase]; rfl)
      refine ⟨rfl, fun _ => ⟨Or.inl ?_, rfl⟩⟩
      rw [Endpoint.enter_pending, Endpoint.defaultDuration_pending]
      exact hpending
  | take n hphase hpending => exact ⟨rfl, fun _ => ⟨Or.inr rfl, rfl⟩⟩
  | fetch node hphase hfetch => exact ⟨rfl, fun _ => ⟨Or.inr rfl, rfl⟩⟩
  | copyNull hphase => exact ⟨rfl, nofun⟩
  | copy i hphase => exact absurd hphase (hcopy i)
  | remove rc _ hphase hremove =>
      obtain ⟨-, hstays⟩ := hactive (by rw [hphase]; rfl)
      rw [hphase] at hstays
      cases hstays

theorem Consistent.data_of_pointer (hs : Consistent s) {pid : ℤ}
    {e : Endpoint N} (he : s.procs pid = some e) {i : Fin N}
    (hphase : e.phase = .fetched (some i)) {record : Data}
    (hrecord : record ∈ s.list.records ∧ record.pid = pid) :
    s.list.data i = record := by
  have hattached := hs.procs pid e he
  obtain ⟨j, r, hnode, hj, hport⟩ := hattached.pointer _ hphase
  obtain rfl := Option.some.inj hnode
  obtain ⟨own, hown, hownport, hownpid⟩ :=
    hattached.registered (by rw [hphase]; rfl)
  obtain rfl : r = own := List.inj_on_of_nodup_map hs.ports hj.mem_records
    hown (hport.trans hownport.symm)
  obtain rfl : record = r := List.inj_on_of_nodup_map hs.pids hrecord.1
    hj.mem_records (hrecord.2.trans hownpid.symm)
  exact hj.2

theorem Remembered.proc (hg : FollowsGnu getopt) (hs : Consistent s)
    (hrem : Remembered es s) (h2 : 2 ≤ N) (hN : N ≤ 32767) {a : Action}
    {o : Observation} {actor : ℤ} (hactor : a.actor = some actor)
    (h : s.next getopt config a = some (t, o)) :
    Remembered (es ++ [(a, o)]) t := by
  obtain ⟨-, hothers⟩ := hs.proc hg h2 hN hactor h
  obtain ⟨e, l, e₁, he, hstep, hlist, hprocs⟩ := next_proc hactor h
  intro pid record e' hnow he'
  rcases since_snoc_iff.mp hnow with haccepted | ⟨hawaits, hcopied, -⟩
  · cases a <;> cases hactor <;> cases haccepted
  · by_cases hpid : pid = actor
    · subst hpid
      obtain ⟨hdeparted, hactive⟩ := hrem pid record e hawaits he
      rw [hprocs, Function.update_self] at he'
      cases hstep with
      | advance _ _ _ hadvance =>
          obtain rfl := Option.some.inj he'
          have hattached := hs.procs pid e he
          have hjoined : e.phase ≠ .joined := by
            intro hphase
            obtain ⟨-, hstays, -⟩ := hactive (by rw [hphase]; rfl)
            rw [hphase] at hstays
            cases hstays
          have hcopy : ∀ i, e.phase ≠ .fetched (some i) := by
            intro i hphase
            apply hcopied
            obtain rfl := advance_fetched hadvance hphase
            have hread := hs.data_of_pointer he hphase
              (hactive (by rw [hphase]; rfl)).2.2
            rw [hread, Event.copied, hactor, Option.map_some]
          obtain ⟨hgone, hafter⟩ := hadvance.unread hdeparted
            (fun h => ⟨(hactive h).1, (hactive h).2.1⟩) hcopy
          obtain ⟨hsame, -⟩ :=
            hattached.advance hg hs.wellFormed hjoined hadvance
          refine ⟨hgone, ?_⟩
          intro h
          obtain ⟨hunread, hstays⟩ := hafter h
          refine ⟨hunread, hstays, ?_⟩
          rw [hlist, hsame]
          exact (hactive (hadvance.active h)).2.2
      | timeout hphase hpending =>
          obtain ⟨hunread, -⟩ := hactive (by rw [hphase]; rfl)
          have hpos := hunread.pending_pos (by rw [hphase]; rfl)
          omega
      | crash hphase =>
          obtain rfl := Option.some.inj he'
          exact ⟨rfl, nofun⟩
      | reap hphase => cases he'
    · rw [hprocs, Function.update_of_ne hpid] at he'
      apply hrem.keep hawaits he'
      intro hrecord hrpid
      have hfilter : record ∈ t.list.records.filter (fun r => r.pid ≠ actor) := by
        rw [hothers, List.mem_filter]
        refine ⟨hrecord, ?_⟩
        rw [hrpid]
        exact decide_eq_true hpid
      exact (List.mem_filter.mp hfilter).1

end Steps

/-! ## Every interleaving -/

section Runs

variable {es : List Event} {t : System N}

/-- No request is forgotten in the orderly environment. -/
theorem remembered_of_run (hg : FollowsGnu getopt) (h2 : 2 ≤ N)
    (hN : N ≤ 32767) (mem : SharedLst N)
    (hrun : Run (Restrict (Step getopt config) Orderly)
      (System.initial mem) es t) : Remembered es t := by
  have hinvariant : Consistent t ∧ Remembered es t := by
    apply hrun.history_invariant (P := fun es s => Consistent s ∧ Remembered es s)
    · refine ⟨initial_consistent h2 hN mem, ?_⟩
      intro pid record e hawaits
      exact absurd hawaits not_since_nil
    · rintro es s ⟨a, o⟩ u ⟨hs, hrem⟩ ⟨hstep, hok⟩
      cases hactor : a.actor with
      | none =>
          cases a with
          | serve data fork =>
              exact ⟨hs.serve h2 hN hok.1 hstep,
                hrem.serve hs h2 hN hok hstep⟩
          | _ => cases hactor
      | some pid =>
          exact ⟨(hs.proc hg h2 hN hactor hstep).1,
            hrem.proc hg hs h2 hN hactor hstep⟩
  exact hinvariant.2

theorem Remembered.not_dropped (h : Remembered es t) : ¬ Dropped es t := by
  rintro ⟨pid, record, e, hawaits, he, hphase⟩
  obtain ⟨hdeparted, -⟩ := h pid record e hawaits he
  rw [hphase] at hdeparted
  cases hdeparted

/-- In the orderly environment no endpoint exits without copying every request
that was handed to it. -/
theorem no_request_dropped (hg : FollowsGnu getopt) (h2 : 2 ≤ N)
    (hN : N ≤ 32767) (mem : SharedLst N)
    (hrun : Run (Restrict (Step getopt config) Orderly)
      (System.initial mem) es t) : ¬ Dropped es t :=
  (remembered_of_run hg h2 hN mem hrun).not_dropped

/-- One endpoint is launched, started, reused once, and exits after it has
copied the second request. -/
theorem no_request_dropped_one : ∃ t es,
    Run (Restrict (Step exactGetoptLong defaultConfig) Orderly)
        (System.initial (zeroSegment 2)) es t ∧
      (t.procs 7).map Endpoint.phase = some .exited ∧ ¬ Dropped es t := by
  obtain ⟨t, es, hrun, -, htest⟩ := exists_restricted_run_of_exec
    (System.next exactGetoptLong defaultConfig) Orderly
    (System.initial (zeroSegment 2))
    [.serve (serverRequest 21000 10000) (some 7), .advance 7, .advance 7,
      .advance 7, .advance 7, .advance 7, .advance 7,
      .serve (serverRequest 21000 20000) none, .advance 7, .advance 7,
      .advance 7, .timeout 7, .advance 7, .advance 7, .advance 7]
    (fun r => decide ((r.1.procs 7).map Endpoint.phase = some .exited))
    (by decide +kernel)
  exact ⟨t, es, hrun, of_decide_eq_true htest,
    no_request_dropped exactGetoptLong_followsGnu (by decide) (by decide)
      (zeroSegment 2) hrun⟩

theorem dropped_of_awaits {pid : ℤ} {record : Data} (hawaits : Awaits es pid record)
    (hphase : (t.procs pid).map Endpoint.phase = some .exited) :
    Dropped es t := by
  obtain ⟨e, he, hexited⟩ := Option.map_eq_some_iff.mp hphase
  exact ⟨pid, record, e, hawaits, he, hexited⟩

/-- An endpoint is launched and times out, and the second request for its port is
handled before it has removed its entry. -/
def lateRequest : List Action :=
  [.serve (serverRequest 21000 10000) (some 7), .advance 7, .advance 7,
    .advance 7, .advance 7, .advance 7, .advance 7, .timeout 7,
    .serve (serverRequest 21000 20000) none, .advance 7, .advance 7,
    .advance 7]

/-- The one request that is handed to the endpoint, after its wait has timed
out, is dropped. -/
theorem request_dropped_after_timeout : ∃ t es,
    Run (Restrict (Step exactGetoptLong defaultConfig) Environment)
        (System.initial (zeroSegment 2)) es t ∧
      es.map Prod.fst = lateRequest ∧
      es.filterMap Event.accepted =
        [(7, { serverRequest 21000 20000 with pid := 7 })] ∧
      Dropped es t := by
  obtain ⟨t, es, hrun, hactions, htest⟩ := exists_restricted_run_of_exec
    (System.next exactGetoptLong defaultConfig) Environment
    (System.initial (zeroSegment 2)) lateRequest
    (fun r => decide (r.2.filterMap Event.accepted =
        [(7, { serverRequest 21000 20000 with pid := 7 })] ∧
      Awaits r.2 7 { serverRequest 21000 20000 with pid := 7 } ∧
      (r.1.procs 7).map Endpoint.phase = some .exited)) (by decide +kernel)
  obtain ⟨haccepted, hawaits, hphase⟩ := of_decide_eq_true htest
  exact ⟨t, es, hrun, hactions, haccepted, dropped_of_awaits hawaits hphase⟩

/-- Two requests arrive while the endpoint waits, before it copies its entry. -/
def overwrittenRequest : List Action :=
  [.serve (serverRequest 21000 10000) (some 7), .advance 7, .advance 7,
    .advance 7, .advance 7, .advance 7, .advance 7,
    .serve (serverRequest 21000 20000) none,
    .serve (serverRequest 21000 30000) none, .advance 7, .advance 7,
    .advance 7, .advance 7, .advance 7, .advance 7, .timeout 7, .advance 7,
    .advance 7, .advance 7]

/-- Of two requests that arrive before the endpoint copies its entry the first
one is dropped, although no request arrives after the timeout. -/
theorem request_dropped_when_overwritten : ∃ t es,
    Run (Restrict (Step exactGetoptLong defaultConfig) Environment)
        (System.initial (zeroSegment 2)) es t ∧
      es.map Prod.fst = overwrittenRequest ∧
      Since (fun e => e = (.timeout 7, .silent))
        (fun e => Event.accepted e = none) es ∧
      Dropped es t := by
  obtain ⟨t, es, hrun, hactions, htest⟩ := exists_restricted_run_of_exec
    (System.next exactGetoptLong defaultConfig) Environment
    (System.initial (zeroSegment 2)) overwrittenRequest
    (fun r => decide (Since (fun e => e = (.timeout 7, .silent))
        (fun e => Event.accepted e = none) r.2 ∧
      Awaits r.2 7 { serverRequest 21000 20000 with pid := 7 } ∧
      (r.1.procs 7).map Endpoint.phase = some .exited)) (by decide +kernel)
  obtain ⟨hsince, hawaits, hphase⟩ := of_decide_eq_true htest
  exact ⟨t, es, hrun, hactions, hsince, dropped_of_awaits hawaits hphase⟩

end Runs

end SippScen.MediaHost
