import SippScen.MediaHost.Ledger

/-!
# When reuse honours the request

A request that is handed to a running endpoint is honoured if the mode is the
same and the destination is the one of the entry, or the endpoint is a client
that has caught up with all earlier requests.  A server that is handed a client
request stays what it is.
-/

namespace SippScen.MediaHost

open SippScen.Support SippScen.SharedList SippScen.MediaServer
open SippScen.MediaEndpoint (Process MainPc Report GetoptLong Locking
  FollowsGnu alive_of_next next_handover next_locking not_silent_of_read)

variable {N : ℕ} {getopt : GetoptLong} {config : ServerConfig}

/-! ## The steps of the host -/

/-- The registry is consistent, and every process that is alive agrees with its
ledger. -/
structure Kept (w : Watch N) : Prop where
  consistent : Consistent w.host.system
  ledgers : ∀ pid p, w.host.programs pid = some p → p.alive = true →
    Ledgered w.host.list.records pid (w.ledger pid) p

section Steps

variable {w : Watch N} {t : Host N} {pid : ℤ} {o : Observation}

theorem Kept.update (hw : Kept w) {ledger : ℤ → Ledger}
    {p' : Option (Program N)}
    (hrecords : ∀ x ∈ t.list.records, x ∈ w.host.list.records)
    (hprograms : t.programs = Function.update w.host.programs pid p')
    (hledger : ∀ i, i ≠ pid → ledger i = w.ledger i)
    (hself : ∀ p, p' = some p → p.alive = true →
      Ledgered w.host.list.records pid (ledger pid) p) :
    ∀ i p, t.programs i = some p → p.alive = true →
      Ledgered t.list.records i (ledger i) p := by
  intro i p hp halive
  rcases eq_some_of_update hprograms hp with ⟨rfl, hnew⟩ | ⟨hne, hold⟩
  · exact (hself p hnew halive).of_subset fun x hx _ => hrecords x hx
  · rw [hledger i hne]
    exact (hw.ledgers i p hold halive).of_subset fun x hx _ => hrecords x hx

theorem Kept.reused (hw : Kept w) {data r : Data}
    (hfind : findKey Data.port data.port w.host.list.records = some r)
    (hrecords : t.list.records =
      replaceKey Data.port { data with pid := r.pid } w.host.list.records)
    (hprograms : t.programs = Function.update w.host.programs r.pid
      ((w.host.programs r.pid).map Program.deliver))
    (hfit : FitForReuse w data r.pid) :
    ∀ i p, t.programs i = some p → p.alive = true →
      Ledgered t.list.records i
        (Function.update w.ledger r.pid ((w.ledger r.pid).announce data) i)
        p := by
  obtain ⟨hr, hport⟩ := mem_of_findKey hfind
  have hmem : ∀ x ∈ t.list.records, x = { data with pid := r.pid } ∨
      (x ∈ w.host.list.records ∧ x.port ≠ data.port) := by
    intro x hx
    rw [hrecords] at hx
    exact (mem_replaceKey (y := { data with pid := r.pid })
      hw.consistent.ports ⟨r, hr, hport⟩).mp hx
  intro i p hp halive
  rcases eq_some_of_update hprograms hp with ⟨rfl, hnew⟩ | ⟨hne, hold⟩
  · rw [Function.update_self]
    obtain ⟨p₀, hp₀, rfl⟩ := Option.map_eq_some_iff.mp hnew
    obtain ⟨halive₀, hvulnerable, -⟩ :=
      deliver_spec (w.ledger r.pid) data halive
    obtain ⟨hmode, hretarget⟩ := hfit p₀ hp₀ halive₀ hvulnerable
    apply (hw.ledgers r.pid p₀ hp₀ halive₀).deliver halive hmode hretarget
    · intro x hx hpid
      rcases hmem x hx with rfl | ⟨hold, hne⟩
      · exact ⟨rfl, rfl⟩
      · obtain rfl : x = r :=
          List.inj_on_of_nodup_map hw.consistent.pids hold hr hpid
        exact absurd hport hne
    · exact ⟨r, hr, rfl⟩
  · rw [Function.update_of_ne hne]
    apply (hw.ledgers i p hold halive).of_subset
    intro x hx hpid
    rcases hmem x hx with rfl | ⟨hx', -⟩
    · exact absurd hpid.symm hne
    · exact hx'

theorem Kept.launched (hw : Kept w) {data launch : Data}
    (hdata : Admissible data)
    (hlaunch : ∃ parent, launch = { data with pid := parent })
    (hfresh : FreshPid w.host.system data (some (pid, launch)))
    (hrecords : ∀ x ∈ t.list.records, x = { data with pid := pid } ∨
      (x ∈ w.host.list.records ∧ x.port ≠ data.port))
    (hprograms : t.programs = Function.update w.host.programs pid
      (some (.starting (Endpoint.child launch)))) :
    ∀ i p, t.programs i = some p → p.alive = true →
      Ledgered t.list.records i
        (Function.update w.ledger pid .empty i) p := by
  intro i p hp halive
  rcases eq_some_of_update hprograms hp with ⟨rfl, ⟨⟩⟩ | ⟨hne, hold⟩
  · rw [Function.update_self]
    apply ledgered_child hdata hlaunch
    intro x hx hpid
    rcases hrecords x hx with rfl | ⟨hx', hport⟩
    · exact ⟨rfl, rfl⟩
    · exact absurd (hfresh _ rfl x hx' hpid) hport
  · rw [Function.update_of_ne hne]
    apply (hw.ledgers i p hold halive).of_subset
    intro x hx hpid
    rcases hrecords x hx with rfl | ⟨hx', -⟩
    · exact absurd hpid.symm hne
    · exact hx'

/-- Every critical section of the worker keeps the ledgers. -/
theorem Kept.serve (hw : Kept w) (h2 : 2 ≤ N) (hN : N ≤ 32767) {data : Data}
    {fork : Option ℤ}
    (henv : FitEnvironment w (.serve data fork, o))
    (h : w.host.next getopt config (.serve data fork) = some (t, o)) :
    ∀ i p, t.programs i = some p → p.alive = true →
      Ledgered t.list.records i (w.record (.serve data fork, o) i) p := by
  obtain ⟨-, hrest⟩ := Option.ite_none_right_eq_some.mp h
  obtain ⟨v, hserve, heq⟩ := Option.bind_eq_some_iff.mp hrest
  cases heq
  obtain ⟨v', hserve', -, houtcome⟩ :=
    serve_spec hw.consistent.wellFormed h2 hN (w.host.system.kernel fork) data
  obtain rfl : v = v' := Option.some.inj (hserve.symm.trans hserve')
  obtain ⟨henvironment, hdata, hfit⟩ := henv
  obtain ⟨-, hroom, hfresh⟩ := henvironment _ rfl
  have hlist : (w.host.afterServe v).list.records = v.list.records := rfl
  have hrecord : w.record (.serve data fork, .served v.signalled v.launched) =
      w.served data v.signalled v.launched := rfl
  rw [hrecord]
  have hsame : v.launched = none →
      (w.host.afterServe v).programs = w.host.signal v.signalled := by
    intro hlaunched
    simp [Host.afterServe, hlaunched]
  have hspawn : ∀ pid data, v.launched = some (pid, data) →
      (w.host.afterServe v).programs =
        Function.update (w.host.signal v.signalled) pid
          (some (.starting (Endpoint.child data))) := by
    intro pid data hlaunched
    simp [Host.afterServe, hlaunched]
  generalize w.host.afterServe v = t at hlist hsame hspawn ⊢
  generalize v.list.records = after, v.signalled = signalled,
    v.launched = launched, v.output = output at *
  cases houtcome with
  | reused r hfind hsig =>
      exact hw.reused hfind hlist (hsame rfl) (hfit r.pid rfl)
  | relaunched r pid hfind hsig hfork =>
      apply hw.launched hdata ⟨r.pid, rfl⟩ hfresh _ (hspawn _ _ rfl)
      intro x hx
      rw [hlist, List.mem_append, mem_removeKey hw.consistent.ports,
        List.mem_singleton] at hx
      exact hx.symm
  | cleaned r hfind hsig hfork =>
      intro i p hp halive
      rw [hsame rfl] at hp
      apply (hw.ledgers i p hp halive).of_subset
      intro x hx _
      rw [hlist] at hx
      exact mem_of_mem_removeKey hx
  | launched pid hfind hfork hroom =>
      apply hw.launched hdata ⟨data.pid, rfl⟩ hfresh _ (hspawn _ _ rfl)
      intro x hx
      rw [hlist, List.mem_append, List.mem_singleton] at hx
      rcases hx with hx | hx
      · exact Or.inr ⟨hx, findKey_eq_none_iff.mp hfind x hx⟩
      · exact Or.inl hx
  | unregistered pid hfind hfork hfull =>
      exact absurd hfull (hw.consistent.not_full hroom hfind)
  | unserved hfind hfork =>
      intro i p hp halive
      rw [hsame rfl] at hp
      apply (hw.ledgers i p hp halive).of_subset
      intro x hx _
      rwa [hlist] at hx

/-- `main` copies the entry behind its pointer, or makes a step that does not
concern `conf`; it may remove an entry. -/
theorem main_cases {l l' : SharedLst N} {r r' : Running N} {report : Report}
    (h : r.main l = some (l', r', report)) :
    r'.launch = r.launch ∧
      ((∃ node, r.process.main = .copy ∧ r.pointer = some node ∧ l' = l ∧
          report = .stored (l.data node) ∧
          r.process.next (.copy (l.data node)) =
            some (r'.process, report) ∧
          r' = { r with process := r'.process }) ∨
        ((∃ a, a ≠ .signal ∧ r.process.next a = some (r'.process, report)) ∧
          report.isHandover = false ∧
          (l' = l ∨ ∃ port rc, l.removeElement port = some (rc, l')))) := by
  have hplain : ∀ {r' : Running N}, r.step .main = some (r', report) →
      r'.launch = r.launch ∧
        (∃ a, a ≠ .signal ∧ r.process.next a = some (r'.process, report)) ∧
        report.isHandover = false := by
    intro r' hstep
    obtain ⟨q, hnext, rfl⟩ := step_eq_some hstep
    refine ⟨rfl, ⟨.main, by simp, hnext⟩, ?_⟩
    replace hnext := Process.act_of_next hnext
    exact MediaEndpoint.mainStep_report hnext
  unfold Running.main at h
  split at h
  · next hmain =>
    obtain ⟨node, -, hrest⟩ := Option.bind_eq_some_iff.mp h
    obtain ⟨⟨r₁, report₁⟩, hstep, heq⟩ := Option.bind_eq_some_iff.mp hrest
    cases heq
    obtain ⟨q, hnext, rfl⟩ := step_eq_some hstep
    refine ⟨rfl, Or.inr ⟨⟨_, by simp, hnext⟩, ?_, Or.inl rfl⟩⟩
    replace hnext := Process.act_of_next hnext
    obtain ⟨-, heq⟩ := Option.ite_none_right_eq_some.mp hnext
    cases heq
    rfl
  · next hmain =>
    obtain ⟨⟨r₁, report₁⟩, hstep, heq⟩ := Option.bind_eq_some_iff.mp h
    cases heq
    unfold Running.copyEntry at hstep
    cases hpointer : r.pointer with
    | none =>
        rw [hpointer] at hstep
        obtain ⟨hlaunch, hnext, hreport⟩ := hplain hstep
        exact ⟨hlaunch, Or.inr ⟨hnext, hreport, Or.inl rfl⟩⟩
    | some node =>
        rw [hpointer] at hstep
        obtain ⟨q, hnext, rfl⟩ := step_eq_some hstep
        have hact := Process.act_of_next hnext
        obtain ⟨-, heq⟩ := Option.ite_none_right_eq_some.mp hact
        cases heq
        exact ⟨rfl, Or.inl ⟨node, hmain, rfl, rfl, rfl, hnext, rfl⟩⟩
  · next hmain =>
    obtain ⟨⟨rc, l₁⟩, hremove, hrest⟩ := Option.bind_eq_some_iff.mp h
    obtain ⟨⟨r₁, report₁⟩, hstep, heq⟩ := Option.bind_eq_some_iff.mp hrest
    cases heq
    obtain ⟨hlaunch, hnext, hreport⟩ := hplain hstep
    exact ⟨hlaunch, Or.inr ⟨hnext, hreport, Or.inr ⟨_, rc, hremove⟩⟩⟩
  · obtain ⟨⟨r₁, report₁⟩, hstep, heq⟩ := Option.bind_eq_some_iff.mp h
    cases heq
    obtain ⟨hlaunch, hnext, hreport⟩ := hplain hstep
    exact ⟨hlaunch, Or.inr ⟨hnext, hreport, Or.inl rfl⟩⟩

theorem Kept.entry_of_pointer (hw : Kept w) {r : Running N} {node : Fin N}
    (hr : w.host.programs pid = some (.running r))
    (halive : r.process.termination = none) (hmain : r.process.main = .copy)
    (hpointer : r.pointer = some node) :
    w.host.list.data node ∈ w.host.list.records ∧
      (w.host.list.data node).pid = pid := by
  have hattached := hw.consistent.procs pid r.endpoint (procs_of_program hr)
  have hphase : r.endpoint.phase = .fetched (some node) := by
    simp [Running.endpoint, Running.phase, halive, hmain, hpointer]
  obtain ⟨i, x, hi, hholds, hport⟩ := hattached.pointer _ hphase
  obtain ⟨y, hy, hport', hpid⟩ := hattached.registered (by rw [hphase]; rfl)
  obtain rfl := Option.some.inj hi
  obtain rfl : x = y := List.inj_on_of_nodup_map hw.consistent.ports
    hholds.mem_records hy (hport.trans hport'.symm)
  have hdata : w.host.list.data node = x := hholds.2
  rw [hdata]
  exact ⟨hy, hpid⟩

theorem observe_of_not_handover {report : Report}
    (h : report.isHandover = false) : Host.observe report = .silent := by
  cases report <;> first | rfl | cases h

theorem finish_cases {h : Host N} {l : SharedLst N} {r : Running N}
    {report : Report} (hfinish : h.finish pid l r report = some (t, o)) :
    o = Host.observe report ∧ t.list = l ∧
      t.programs = Function.update h.programs pid (some (.running r)) := by
  obtain ⟨owner, -, heq⟩ := Option.bind_eq_some_iff.mp hfinish
  cases heq
  exact ⟨rfl, rfl, rfl⟩

theorem record_silent (w : Watch N) (pid : ℤ) :
    w.record (.main pid, .silent) = w.ledger := rfl

theorem Kept.main (hw : Kept w) (h2 : 2 ≤ N) (hN : N ≤ 32767)
    (h : w.host.next getopt config (.main pid) = some (t, o)) :
    ∀ i p, t.programs i = some p → p.alive = true →
      Ledgered t.list.records i (w.record (.main pid, o) i) p := by
  simp only [Host.next] at h
  split at h
  case h_2 => cases h
  next r hr =>
  obtain ⟨⟨l', r', report⟩, hmain, hfinish⟩ := Option.bind_eq_some_iff.mp h
  obtain ⟨rfl, hlist, hprograms⟩ := finish_cases hfinish
  dsimp only at hlist hprograms ⊢
  obtain ⟨hlaunch, ⟨node, hpc, hpointer, rfl, rfl, hnext, hr'⟩ |
    ⟨⟨a, ha, hnext⟩, hreport, hremoved⟩⟩ := main_cases hmain
  · have halive := alive_of_next hnext
    have hledgered := hw.ledgers pid _ hr (alive_running_iff.mpr halive)
    obtain ⟨hmem, hpid⟩ := hw.entry_of_pointer hr halive hpc hpointer
    have hlocking : Locking r'.process :=
      next_locking (Tracking.locking hledgered.tracked) hnext
    apply hw.update (fun x hx => hlist ▸ hx) hprograms
    · intro i hne
      exact Function.update_of_ne hne _ _
    · rintro _ ⟨⟩ -
      have hrecord : w.record (.main pid,
          Host.observe (.stored (w.host.list.data node))) pid =
            (w.ledger pid).process := Function.update_self _ _ _
      rw [hrecord, hr']
      apply hledgered.copy hpc hmem hpid _ hlocking
      replace hnext := Process.act_of_next hnext
      obtain ⟨-, heq⟩ := Option.ite_none_right_eq_some.mp hnext
      exact (Prod.mk.inj (Option.some.inj heq)).1.symm
  · rw [observe_of_not_handover hreport, record_silent]
    have hledgered := hw.ledgers pid _ hr
      (alive_running_iff.mpr (alive_of_next hnext))
    have hrecords : ∀ x ∈ t.list.records, x ∈ w.host.list.records := by
      rw [hlist]
      rcases hremoved with rfl | ⟨port, rc, hremove⟩
      · exact fun x hx => hx
      · intro x hx
        rw [(hw.consistent.wellFormed.of_removeElement h2 hN hremove).2] at hx
        exact mem_of_mem_removeKey hx
    apply hw.update hrecords hprograms fun _ _ => rfl
    rintro _ ⟨⟩ halive
    exact hledgered.quiet hlaunch
      (next_locking (Tracking.locking hledgered.tracked) hnext)
      (next_quiet hnext ha hreport) (alive_running_iff.mp halive)

theorem Kept.thread (hw : Kept w) {a : MediaEndpoint.Action} {r r' : Running N}
    {report : Report} {ledger : ℤ → Ledger}
    (hr : w.host.programs pid = some (.running r)) (ha : a ≠ .signal)
    (hcopy : ∀ data, a ≠ .copy data)
    (hstep : r.step a = some (r', report))
    (hlist : t.list = w.host.list)
    (hprograms : t.programs =
      Function.update w.host.programs pid (some (.running r')))
    (hledger : ledger = if a = .stream ∧ r.process.stream = .setRemoteAddr then
      Function.update w.ledger pid
        ((w.ledger pid).setRemote (remoteArgs r.process.conf))
      else w.ledger) :
    ∀ i p, t.programs i = some p → p.alive = true →
      Ledgered t.list.records i (ledger i) p := by
  obtain ⟨q, hnext, rfl⟩ := step_eq_some hstep
  have hledgered := hw.ledgers pid _ hr
    (alive_running_iff.mpr (alive_of_next hnext))
  have hlocking : Locking q :=
    next_locking (Tracking.locking hledgered.tracked) hnext
  apply hw.update (fun x hx => hlist ▸ hx) hprograms
  · intro i hne
    rw [hledger]
    split
    · exact Function.update_of_ne hne _ _
    · rfl
  · rintro _ ⟨⟩ halive
    rcases next_handover hnext with ⟨data, hdata, -⟩ |
      ⟨hstream, hpc, -, hq⟩ | ⟨hreport, -⟩
    · exact absurd hdata (hcopy data)
    · rw [hledger, if_pos ⟨hstream, hpc⟩, Function.update_self]
      exact hledgered.read hq hlocking
    · have hquiet : ¬ (a = .stream ∧ r.process.stream = .setRemoteAddr) := by
        rintro ⟨rfl, hpc⟩
        replace hnext := Process.act_of_next hnext
        exact not_silent_of_read hpc hnext hreport
      rw [hledger, if_neg hquiet]
      exact hledgered.quiet rfl hlocking (next_quiet hnext ha hreport)
        (alive_running_iff.mp halive)

theorem Kept.threadStep (hw : Kept w) {a : MediaEndpoint.Action}
    (ha : a ≠ .signal) (hcopy : ∀ data, a ≠ .copy data)
    (h : w.host.threadStep pid a = some (t, o)) {ledger : ℤ → Ledger}
    (hledger : ∀ r, w.host.programs pid = some (.running r) →
      ledger = if a = .stream ∧ r.process.stream = .setRemoteAddr then
        Function.update w.ledger pid
          ((w.ledger pid).setRemote (remoteArgs r.process.conf))
        else w.ledger) :
    ∀ i p, t.programs i = some p → p.alive = true →
      Ledgered t.list.records i (ledger i) p := by
  obtain ⟨r, r', report, hr, hstep, hfinish⟩ := threadStep_cases h
  obtain ⟨-, hlist, hprograms⟩ := finish_cases hfinish
  exact hw.thread hr ha hcopy hstep hlist hprograms (hledger r hr)

theorem Kept.setProgram (hw : Kept w) {p' : Option (Program N)}
    (hself : ∀ p, p' = some p → p.alive = true →
      Ledgered w.host.list.records pid (w.ledger pid) p) :
    ∀ i p, (w.host.setProgram pid p').programs i = some p → p.alive = true →
      Ledgered (w.host.setProgram pid p').list.records i (w.ledger i) p :=
  hw.update (t := w.host.setProgram pid p') (fun _ hx => hx) rfl
    (fun _ _ => rfl) hself

theorem advance_alive {l l' : SharedLst N} {e e' : Endpoint N}
    (h : e.advance getopt config l = some (l', e', o)) :
    (Program.starting e).alive = true := by
  unfold Program.alive Program.endpoint
  unfold Endpoint.advance at h
  cases hphase : e.phase
  all_goals first
    | rfl
    | (rw [hphase] at h; cases h)

theorem Kept.startUp (hg : FollowsGnu getopt) (hw : Kept w)
    (h : w.host.next getopt config (.startUp pid) = some (t, o)) :
    ∀ i p, t.programs i = some p → p.alive = true →
      Ledgered t.list.records i (w.ledger i) p := by
  simp only [Host.next] at h
  split at h
  case h_2 => cases h
  next e he =>
  split at h
  · next hphase =>
    cases h
    apply hw.setProgram
    rintro _ ⟨⟩ -
    refine (hw.ledgers pid _ he ?_).start hphase
    simp [Program.alive, Program.endpoint, hphase, Phase.ended]
  · next hphase =>
    obtain ⟨⟨l, e', o'⟩, hadvance, heq⟩ := Option.bind_eq_some_iff.mp h
    cases heq
    obtain ⟨rfl, hledgered⟩ :=
      (hw.ledgers pid _ he (advance_alive hadvance)).startUp hg hphase hadvance
    apply hw.setProgram
    rintro _ ⟨⟩ halive
    exact hledgered halive

/-- Every step of the host keeps the ledgers. -/
theorem Kept.next (hg : FollowsGnu getopt) (hw : Kept w) (h2 : 2 ≤ N)
    (hN : N ≤ 32767) {a : HostAction} (henv : FitEnvironment w (a, o))
    (h : w.host.next getopt config a = some (t, o)) :
    Kept ⟨t, w.record (a, o)⟩ := by
  refine ⟨?_, ?_⟩
  · have hmatched : Matched getopt config Environment w.host.system t.system
        (hostEvent (a, o)) :=
      host_matched (fun _ _ _ => onRequest_of_actor) h henv.1
    obtain ⟨es, hrun, -⟩ := hmatched
    exact consistent_of_run hg h2 hN hw.consistent hrun
  · cases a with
    | serve data fork => exact hw.serve h2 hN henv h
    | startUp pid =>
        have hstartUp := hw.startUp hg h
        exact hstartUp
    | startUpFailure pid =>
        simp only [Host.next] at h
        split at h
        case h_2 => cases h
        next e he =>
        obtain ⟨-, heq⟩ := Option.ite_none_left_eq_some.mp h
        cases heq
        apply hw.setProgram
        rintro _ ⟨⟩ halive
        cases halive
    | main pid => exact hw.main h2 hN h
    | stream pid =>
        apply hw.threadStep (by simp) (by simp) h
        intro r hr
        simp [Watch.record, hr]
    | reap pid =>
        obtain ⟨p, hp, hrest⟩ := Option.bind_eq_some_iff.mp h
        obtain ⟨-, heq⟩ := Option.ite_none_right_eq_some.mp hrest
        cases heq
        apply hw.setProgram
        rintro _ ⟨⟩
    | _ => exact hw.threadStep (by simp) (by simp) h (by simp [Watch.record])

end Steps

/-! ## Every run -/

section Runs

variable {w : Watch N} {es : List (HostAction × Observation)}

theorem initial_kept (h2 : 2 ≤ N) (hN : N ≤ 32767) (mem : SharedLst N) :
    Kept (Watch.initial mem) where
  consistent := initial_consistent h2 hN mem
  ledgers := by
    intro pid p hp
    cases hp

theorem kept_of_run (hg : FollowsGnu getopt) (h2 : 2 ≤ N) (hN : N ≤ 32767)
    (mem : SharedLst N)
    (hrun : Run (Restrict (WatchStep getopt config) FitEnvironment)
      (Watch.initial mem) es w) : Kept w := by
  apply hrun.invariant (initial_kept h2 hN mem)
  rintro w ⟨a, o⟩ w' hw ⟨hstep, henv⟩
  obtain ⟨⟨t, o'⟩, hnext, heq⟩ := Option.map_eq_some_iff.mp hstep
  cases heq
  exact hw.next hg h2 hN henv hnext

/-- In every run in which requests are only handed to endpoints that can honour
them, every endpoint honours them, and its entry shows its mode. -/
theorem reuse_honoured (hg : FollowsGnu getopt) (h2 : 2 ≤ N) (hN : N ≤ 32767)
    (mem : SharedLst N)
    (hrun : Run (Restrict (WatchStep getopt config) FitEnvironment)
      (Watch.initial mem) es w) : Honoured w := by
  have hkept := kept_of_run hg h2 hN mem hrun
  intro pid p hp halive
  exact (hkept.ledgers pid p hp halive).honoured

/-- A client request for 21000 that names the destination port 6000. -/
def retargetRequest : Data :=
  { MediaEndpoint.clientRequest 10000 with destPort := 6000 }

/-- The steps that launch an endpoint for the record and start its threads. -/
def launchSteps (data : Data) : List HostAction :=
  [.serve data (some 7)] ++ List.replicate 5 (.startUp 7)

/-- A client is sent to another port between two streams. -/
theorem reuse_honoured_client : ∃ w es,
    Run (Restrict (WatchStep MediaEndpoint.exactGetoptLong
        MediaEndpoint.defaultConfig) FitEnvironment)
      (Watch.initial (zeroSegment 2)) es w ∧
      (w.host.programs 7).any Program.streaming = true ∧
      (w.ledger 7).streamed = [retargetRequest] ∧
      (w.ledger 7).remote = some ("127.0.0.1".toList, 6000) ∧
      Honoured w := by
  obtain ⟨w, es, hrun, -, htest⟩ := exists_restricted_run_of_exec
    (Watch.next MediaEndpoint.exactGetoptLong MediaEndpoint.defaultConfig)
    FitEnvironment (Watch.initial (zeroSegment 2))
    (launchSteps (MediaEndpoint.clientRequest 10000) ++
      List.replicate 10 (.stream 7) ++ [.serve retargetRequest none] ++
      List.replicate 8 (.main 7) ++ List.replicate 7 (.stream 7))
    (fun r => decide ((r.1.host.programs 7).any Program.streaming = true ∧
      (r.1.ledger 7).streamed = [retargetRequest] ∧
      (r.1.ledger 7).remote = some ("127.0.0.1".toList, 6000)))
    (by decide +kernel)
  obtain ⟨hstreaming, hstreamed, hremote⟩ := of_decide_eq_true htest
  exact ⟨w, es, hrun, hstreaming, hstreamed, hremote,
    reuse_honoured MediaEndpoint.exactGetoptLong_followsGnu (by decide)
      (by decide) (zeroSegment 2) hrun⟩

/-- The query `port=21000&duration=10000&client&dport=6000`. -/
def retargetQuery : Query :=
  MediaEndpoint.queryOf [("port".toList, "21000".toList),
    ("duration".toList, "10000".toList), ("client".toList, []),
    ("dport".toList, "6000".toList)]

/-- A server that is reused for a client request goes on receiving from its first
destination, while its entry calls it a client. -/
theorem reuse_not_honoured : ∃ w es,
    addTask 0 retargetQuery = (⟨.ok, []⟩, some retargetRequest) ∧
      Run (Restrict (WatchStep MediaEndpoint.exactGetoptLong
          MediaEndpoint.defaultConfig) fun w => OnHost Environment w.host)
        (Watch.initial (zeroSegment 2)) es w ∧
      (w.host.programs 7).any (fun p => p.server && p.streaming) = true ∧
      w.host.list.records.map Data.client = [1] ∧
      (w.ledger 7).processed = [retargetRequest] ∧
      (w.ledger 7).remote = some ("127.0.0.1".toList, 5000) ∧
      ¬ Honoured w := by
  obtain ⟨w, es, hrun, -, htest⟩ := exists_restricted_run_of_exec
    (Watch.next MediaEndpoint.exactGetoptLong MediaEndpoint.defaultConfig)
    (fun w => OnHost Environment w.host) (Watch.initial (zeroSegment 2))
    (launchSteps (MediaEndpoint.serverRequest 21000 10000) ++
      List.replicate 7 (.stream 7) ++ [.serve retargetRequest none] ++
      List.replicate 8 (.main 7))
    (fun r => decide (((r.1.host.programs 7).any
        (fun p => p.server && p.streaming) = true ∧
      r.1.host.list.records.map Data.client = [1] ∧
      (r.1.ledger 7).processed = [retargetRequest] ∧
      (r.1.ledger 7).remote = some ("127.0.0.1".toList, 5000)) ∧
      ∃ p ∈ r.1.host.programs 7, p.alive = true ∧
        ¬ HonouredBy r.1.host.list.records 7 (r.1.ledger 7) p))
    (by decide +kernel)
  obtain ⟨⟨hserver, hclient, hprocessed, hremote⟩, p, hp, halive, hnot⟩ :=
    of_decide_eq_true htest
  refine ⟨w, es, by decide, hrun, hserver, hclient, hprocessed, hremote, ?_⟩
  intro hhonoured
  exact hnot (hhonoured 7 p hp halive)

theorem exists_watchRun (mem : SharedLst N) {t : Host N}
    (hrun : Run (HostStep getopt config) (Host.initial mem) es t) :
    ∃ w, Run (WatchStep getopt config) (Watch.initial mem) es w ∧
      w.host = t := by
  induction hrun with
  | nil => exact ⟨_, Run.nil, rfl⟩
  | @snoc es h t e _ hstep ih =>
      obtain ⟨w, hwatch, rfl⟩ := ih
      refine ⟨⟨t, w.record e⟩, hwatch.snoc ?_, rfl⟩
      have hnext : w.host.next getopt config e.1 = some (t, e.2) := hstep
      simp [WatchStep, StepOf, Watch.next, hnext]

end Runs

end SippScen.MediaHost
