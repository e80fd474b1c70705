import SippScen.MediaHost.Model

/-!
# What a step can do

Every step of the system is described once, in terms of the records of the
registry and of the process concerned.  The invariants of the system are proved
from these descriptions.
-/

namespace SippScen.MediaHost

open SippScen.Support SippScen.SharedList SippScen.MediaServer
open SippScen.MediaEndpoint

variable {N : ℕ} {getopt : GetoptLong} {config : ServerConfig}

/-! ## One process -/

@[simp] theorem Endpoint.enter_phase (e : Endpoint N) (p : Phase N) :
    (e.enter p).phase = p := rfl

@[simp] theorem Endpoint.enter_conf (e : Endpoint N) (p : Phase N) :
    (e.enter p).conf = e.conf := rfl

@[simp] theorem Endpoint.enter_pending (e : Endpoint N) (p : Phase N) :
    (e.enter p).pending = e.pending := rfl

@[simp] theorem Endpoint.setConf_conf (e : Endpoint N) (d : Data) :
    (e.setConf d).conf = d := rfl

@[simp] theorem Endpoint.defaultDuration_launch (e : Endpoint N) :
    e.defaultDuration.launch = e.launch := rfl

@[simp] theorem Endpoint.defaultDuration_pending (e : Endpoint N) :
    e.defaultDuration.pending = e.pending := rfl

@[simp] theorem Endpoint.defaultDuration_port (e : Endpoint N) :
    e.defaultDuration.conf.port = e.conf.port := by
  unfold Endpoint.conf Endpoint.defaultDuration Options.defaultDuration
  split <;> rfl

@[simp] theorem Endpoint.deliver_launch (e : Endpoint N) :
    e.deliver.launch = e.launch := by
  unfold Endpoint.deliver
  split
  · rfl
  · split <;> rfl

/-- The plain statements of `main` start no new phase of a process. -/
theorem Phase.succ_spec {p q : Phase N} (h : p.succ = some q) :
    (q.configured = true → p.configured = true) ∧
      (q.active = true → p.active = true) ∧
      (q.departed = true → p.departed = true) ∧
      ∀ node, q ≠ .fetched node := by
  cases p <;> cases h <;> simp [configured, active, departed]

theorem Phase.succ_reading {p q : Phase N} (h : p.succ = some q) :
    p.reading = false ∧ (q.expiring = true → p.expiring = true) := by
  cases p <;> cases h <;> simp [reading, expiring]

/-- A signal kills the process, or it leaves its program where it is. -/
theorem Endpoint.deliver_cases (e : Endpoint N) :
    (e.phase.ended = true ∧ e.deliver = e) ∨
      (e.phase.vulnerable = true ∧ e.deliver = e.enter .killed) ∨
      (e.phase.ended = false ∧ e.phase.vulnerable = false ∧
        e.deliver = { e with pending := e.pending + 1 }) := by
  unfold Endpoint.deliver
  by_cases hended : e.phase.ended
  · exact Or.inl ⟨hended, if_pos hended⟩
  · right
    rw [if_neg hended]
    by_cases hvulnerable : e.phase.vulnerable
    · exact Or.inl ⟨hvulnerable, if_pos hvulnerable⟩
    · exact Or.inr ⟨by simpa using hended, by simpa using hvulnerable,
        if_neg hvulnerable⟩

@[simp] theorem Endpoint.deliver_departed (e : Endpoint N) :
    e.deliver.phase.departed = e.phase.departed := by
  rcases e.deliver_cases with ⟨-, heq⟩ | ⟨hvulnerable, heq⟩ | ⟨-, -, heq⟩
  · rw [heq]
  · rw [heq]
    revert hvulnerable
    cases e.phase <;> simp [Phase.vulnerable, Phase.departed]
  · rw [heq]

/-- The next statement of `main`, by cases. -/
inductive Advance (getopt : GetoptLong) (config : ServerConfig)
    (l : SharedLst N) (e : Endpoint N) :
    SharedLst N → Endpoint N → Observation → Prop
  | pass (p : Phase N) (hphase : e.phase.succ = some p) :
      Advance getopt config l e l (e.enter p) .silent
  | parse (options : Options) (p : Phase N) (hphase : e.phase = .execd)
      (hoptions : options = (launchedOptions getopt config e.launch).1)
      (hp : p = .crashed ∨ p = .parsed) :
      Advance getopt config l e l ({ e with options := options }.enter p)
        .silent
  | start (hphase : e.phase = .blocked) :
      Advance getopt config l e l (e.defaultDuration.enter .started) .silent
  | take (n : ℕ) (hphase : e.phase = .waiting) (hpending : e.pending = n + 1) :
      Advance getopt config l e l
        { e with pending := n, phase := .signalled } .silent
  | fetch (node : Option (Fin N)) (hphase : e.phase = .signalled)
      (hfetch : l.fetchElement e.conf.port = some node) :
      Advance getopt config l e l (e.enter (.fetched node)) .silent
  | copyNull (hphase : e.phase = .fetched none) :
      Advance getopt config l e l (e.enter .crashed) .silent
  | copy (i : Fin N) (hphase : e.phase = .fetched (some i)) :
      Advance getopt config l e l ((e.setConf (l.data i)).enter .waiting)
        (.copied (l.data i))
  | remove (rc : Rc) (l' : SharedLst N) (hphase : e.phase = .joined)
      (hremove : l.removeElement e.conf.port = some (rc, l')) :
      Advance getopt config l e l' (e.enter .removed) .silent

theorem advance_cases {l l' : SharedLst N} {e e' : Endpoint N} {o : Observation}
    (h : e.advance getopt config l = some (l', e', o)) :
    Advance getopt config l e l' e' o := by
  have hpass : ∀ p, e.phase.succ = some p →
      some (l, e.enter p, Observation.silent) = some (l', e', o) →
      Advance getopt config l e l' e' o := by
    rintro p hp heq
    cases heq
    exact .pass p hp
  unfold Endpoint.advance at h
  cases hphase : e.phase with
  | forked => exact hpass .execd (by rw [hphase]; rfl) (by rwa [hphase] at h)
  | execd =>
      rw [hphase] at h
      cases h
      apply Advance.parse _ _ hphase rfl
      split
      · exact Or.inl rfl
      · exact Or.inr rfl
  | parsed => exact hpass .opened (by rw [hphase]; rfl) (by rwa [hphase] at h)
  | opened => exact hpass .blocked (by rw [hphase]; rfl) (by rwa [hphase] at h)
  | blocked =>
      rw [hphase] at h
      cases h
      exact .start hphase
  | started => exact hpass .waiting (by rw [hphase]; rfl) (by rwa [hphase] at h)
  | waiting =>
      rw [hphase] at h
      cases hpending : e.pending with
      | zero => rw [hpending] at h; cases h
      | succ n => rw [hpending] at h; cases h; exact .take n hphase hpending
  | signalled =>
      rw [hphase] at h
      obtain ⟨node, hfetch, hrest⟩ := Option.bind_eq_some_iff.mp h
      cases hrest
      exact .fetch node hphase hfetch
  | fetched node =>
      rw [hphase] at h
      cases node with
      | none => cases h; exact .copyNull hphase
      | some i => cases h; exact .copy i hphase
  | timedOut => exact hpass .joined (by rw [hphase]; rfl) (by rwa [hphase] at h)
  | joined =>
      rw [hphase] at h
      obtain ⟨⟨rc, l₁⟩, hremove, hrest⟩ := Option.bind_eq_some_iff.mp h
      cases hrest
      exact .remove rc l' hphase hremove
  | removed => exact hpass .exited (by rw [hphase]; rfl) (by rwa [hphase] at h)
  | exited => rw [hphase] at h; cases h
  | crashed => rw [hphase] at h; cases h
  | killed => rw [hphase] at h; cases h

/-- No statement of `main` makes a process active again. -/
theorem Advance.active {l l' : SharedLst N} {e e' : Endpoint N} {o : Observation}
    (h : Advance getopt config l e l' e' o) (hactive : e'.phase.active = true) :
    e.phase.active = true := by
  cases h with
  | pass p hphase => exact (Phase.succ_spec hphase).2.1 hactive
  | parse options p hphase => rw [hphase]; rfl
  | start hphase => rw [hphase]; rfl
  | take n hphase => rw [hphase]; rfl
  | fetch node hphase => rw [hphase]; rfl
  | copyNull hphase => rw [hphase]; rfl
  | copy i hphase => rw [hphase]; rfl
  | remove rc _ hphase => rw [hphase]; rfl

/-- No statement of `main` kills the process or changes what it was launched
for; the registry loses an entry at most. -/
theorem Advance.spec {l l' : SharedLst N} {e e' : Endpoint N} {o : Observation}
    (h : Advance getopt config l e l' e' o) :
    e'.launch = e.launch ∧ e'.phase ≠ .killed ∧
      (l' = l ∨ ∃ port rc, l.removeElement port = some (rc, l')) := by
  cases h with
  | pass p hphase =>
      refine ⟨rfl, ?_, Or.inl rfl⟩
      rintro rfl
      revert hphase
      cases e.phase <;> rintro ⟨⟩
  | parse options p hphase hoptions hp =>
      refine ⟨rfl, ?_, Or.inl rfl⟩
      rcases hp with rfl | rfl <;> exact nofun
  | start hphase =>
      exact ⟨e.defaultDuration_launch, nofun, Or.inl rfl⟩
  | take n hphase => exact ⟨rfl, nofun, Or.inl rfl⟩
  | fetch node hphase => exact ⟨rfl, nofun, Or.inl rfl⟩
  | copyNull hphase => exact ⟨rfl, nofun, Or.inl rfl⟩
  | copy i hphase => exact ⟨rfl, nofun, Or.inl rfl⟩
  | remove rc _ hphase hremove =>
      exact ⟨rfl, nofun, Or.inr ⟨_, rc, hremove⟩⟩

theorem advance_joined {l l' : SharedLst N} {e e' : Endpoint N} {o : Observation}
    (h : Advance getopt config l e l' e' o) (hjoined : e.phase = .joined) :
    ∃ rc, l.removeElement e.conf.port = some (rc, l') ∧
      e' = e.enter .removed := by
  cases h with
  | remove rc _ _ hremove => exact ⟨rc, hremove, rfl⟩
  | pass p hphase => rw [hjoined] at hphase; cases hphase
  | parse options p hphase => rw [hjoined] at hphase; cases hphase
  | start hphase => rw [hjoined] at hphase; cases hphase
  | take n hphase => rw [hjoined] at hphase; cases hphase
  | fetch node hphase => rw [hjoined] at hphase; cases hphase
  | copyNull hphase => rw [hjoined] at hphase; cases hphase
  | copy i hphase => rw [hjoined] at hphase; cases hphase

theorem advance_fetched {l l' : SharedLst N} {e e' : Endpoint N}
    {o : Observation} {i : Fin N} (h : Advance getopt config l e l' e' o)
    (hfetched : e.phase = .fetched (some i)) : o = .copied (l.data i) := by
  cases h with
  | copy j hphase => rw [hfetched] at hphase; cases hphase; rfl
  | pass p hphase => rw [hfetched] at hphase; cases hphase
  | parse options p hphase => rw [hfetched] at hphase; cases hphase
  | start hphase => rw [hfetched] at hphase; cases hphase
  | take n hphase => rw [hfetched] at hphase; cases hphase
  | fetch node hphase => rw [hfetched] at hphase; cases hphase
  | copyNull hphase => rw [hfetched] at hphase; cases hphase
  | remove rc _ hphase => rw [hfetched] at hphase; cases hphase

/-! ## One critical section of the worker -/

/-- What a critical section does to the records and to the processes. -/
inductive Effect (s : System N) (data : Data) :
    Option ℤ → System N → Option ℤ → Option (ℤ × Data) → Prop
  | reused (fork : Option ℤ) (t : System N) (r : Data) (e : Endpoint N)
      (hfind : findKey Data.port data.port s.list.records = some r)
      (he : s.procs r.pid = some e)
      (hrecords : t.list.records =
        replaceKey Data.port { data with pid := r.pid } s.list.records)
      (hprocs : t.procs = Function.update s.procs r.pid (some e.deliver)) :
      Effect s data fork t (some r.pid) none
  | launched (t : System N) (pid : ℤ) (launch : Data)
      (hdead : ∀ r, findKey Data.port data.port s.list.records = some r →
        s.procs r.pid = none)
      (hpid : s.procs pid = none)
      (hport : launch.port = data.port)
      (hrecords : t.list.records =
        removeKey Data.port data.port s.list.records ++
          [{ data with pid := pid }])
      (hprocs : t.procs =
        Function.update s.procs pid (some (Endpoint.child launch))) :
      Effect s data (some pid) t none (some (pid, launch))
  | unregistered (t : System N) (pid : ℤ)
      (hfind : findKey Data.port data.port s.list.records = none)
      (hfull : s.list.records.length = N)
      (hpid : s.procs pid = none)
      (hrecords : t.list.records = s.list.records)
      (hprocs : t.procs =
        Function.update s.procs pid (some (Endpoint.child data))) :
      Effect s data (some pid) t none (some (pid, data))
  | unserved (t : System N)
      (hdead : ∀ r, findKey Data.port data.port s.list.records = some r →
        s.procs r.pid = none)
      (hrecords : t.list.records =
        removeKey Data.port data.port s.list.records)
      (hprocs : t.procs = s.procs) :
      Effect s data none t none none

theorem removeKey_of_findKey_none {port : ℤ} {records : List Data}
    (hfind : findKey Data.port port records = none) :
    removeKey Data.port port records = records :=
  removeKey_absent (findKey_eq_none_iff.mp hfind)

theorem effect_of_outcome {s : System N} {data : Data} {fork : Option ℤ}
    {v : Served N} (hforkable : s.forkable fork = true)
    (houtcome : Outcome N (s.kernel fork) s.list.records data v.list.records
      v.signalled v.launched v.output) :
    Effect s data fork (s.afterServe v) v.signalled v.launched := by
  have hnone : ∀ pid, (s.procs pid).isSome = false → s.procs pid = none := by
    intro pid hpid
    simpa using hpid
  have hfree : ∀ pid, fork = some pid → s.procs pid = none := by
    rintro pid rfl
    simp only [System.forkable, Bool.and_eq_true] at hforkable
    exact Option.isNone_iff_eq_none.mp hforkable.2
  have hlist : (s.afterServe v).list.records = v.list.records := rfl
  have hprocs : (s.afterServe v).procs =
      System.spawn (s.signal v.signalled) v.launched := rfl
  generalize s.afterServe v = t at hlist hprocs ⊢
  generalize v.list.records = after, v.signalled = signalled,
    v.launched = launched, v.output = output at houtcome hlist hprocs ⊢
  cases houtcome with
  | reused r hfind hsig =>
      obtain ⟨e, he⟩ := Option.isSome_iff_exists.mp hsig
      refine .reused fork t r e hfind he hlist ?_
      rw [hprocs]
      simp only [System.spawn, System.signal, he, Option.map_some]
  | relaunched r pid hfind hsig hfork =>
      obtain rfl : fork = some pid := hfork
      refine .launched t pid _ ?_ (hfree pid rfl) rfl hlist hprocs
      intro r' hr'
      rw [hfind] at hr'
      obtain rfl := Option.some.inj hr'
      exact hnone _ hsig
  | cleaned r hfind hsig hfork =>
      obtain rfl : fork = none := hfork
      refine .unserved t ?_ hlist hprocs
      intro r' hr'
      rw [hfind] at hr'
      obtain rfl := Option.some.inj hr'
      exact hnone _ hsig
  | launched pid hfind hfork hroom =>
      obtain rfl : fork = some pid := hfork
      refine .launched t pid data ?_ (hfree pid rfl) rfl ?_ hprocs
      · intro r hr
        rw [hfind] at hr
        cases hr
      · rw [removeKey_of_findKey_none hfind]
        exact hlist
  | unregistered pid hfind hfork hfull =>
      obtain rfl : fork = some pid := hfork
      exact .unregistered t pid hfind hfull (hfree pid rfl) hlist hprocs
  | unserved hfind hfork =>
      obtain rfl : fork = none := hfork
      refine .unserved t ?_ ?_ hprocs
      · intro r hr
        rw [hfind] at hr
        cases hr
      · rw [removeKey_of_findKey_none hfind]
        exact hlist

/-- A critical section keeps the registry well formed, has one of the effects,
and moves no entry. -/
theorem next_serve {s t : System N} {data : Data} {fork : Option ℤ}
    {o : Observation} (hl : WellFormed s.list) (h2 : 2 ≤ N) (hN : N ≤ 32767)
    (h : s.next getopt config (.serve data fork) = some (t, o)) :
    ∃ signalled launched, o = .served signalled launched ∧
      WellFormed t.list ∧ Effect s data fork t signalled launched ∧
      (∀ i r, Holds s.list i r → r.port ≠ data.port → Holds t.list i r) ∧
      (∀ pid i r, signalled = some pid →
        (s.list.records.map Data.port).Nodup → Holds s.list i r →
        r.port = data.port → Holds t.list i { data with pid := r.pid }) := by
  obtain ⟨hforkable, hrest⟩ := Option.ite_none_right_eq_some.mp h
  obtain ⟨v, hserve, heq⟩ := Option.bind_eq_some_iff.mp hrest
  cases heq
  obtain ⟨v', hserve', hv, houtcome⟩ :=
    serve_spec hl h2 hN (s.kernel fork) data
  obtain rfl : v = v' := Option.some.inj (hserve.symm.trans hserve')
  refine ⟨v.signalled, v.launched, rfl, hv,
    effect_of_outcome hforkable houtcome, ?_, ?_⟩
  · intro i r hi hne
    exact holds_serve hl h2 hN hserve hi hne
  · intro pid i r hsignalled hnodup hi hport
    exact holds_serve_signalled hl h2 hN hnodup hserve hsignalled hi hport

/-! ## The other steps -/

/-- A step of one process: its next statement, the end of its wait, its
abnormal end, or its disappearance. -/
inductive ProcStep (getopt : GetoptLong) (config : ServerConfig)
    (s : System N) (pid : ℤ) (e : Endpoint N) :
    Observation → SharedLst N → Option (Endpoint N) → Prop
  | advance (l : SharedLst N) (e' : Endpoint N) (o : Observation)
      (h : Advance getopt config s.list e l e' o) :
      ProcStep getopt config s pid e o l (some e')
  | timeout (hphase : e.phase = .waiting) (hpending : e.pending = 0) :
      ProcStep getopt config s pid e .silent s.list (some (e.enter .timedOut))
  | crash (hphase : e.phase.ended = false) :
      ProcStep getopt config s pid e .silent s.list (some (e.enter .crashed))
  | reap (hphase : e.phase.ended = true) :
      ProcStep getopt config s pid e .silent s.list none

/-- The process that acts; the worker is not one of them. -/
def Action.actor : Action → Option ℤ
  | .serve _ _ => none
  | .advance pid | .timeout pid | .crash pid | .reap pid => some pid

/-- Every step but those of the worker is a step of one process. -/
theorem next_proc {s t : System N} {a : Action} {o : Observation} {pid : ℤ}
    (hactor : a.actor = some pid)
    (h : s.next getopt config a = some (t, o)) :
    ∃ e l e', s.procs pid = some e ∧
      ProcStep getopt config s pid e o l e' ∧
      t.list = l ∧ t.procs = Function.update s.procs pid e' := by
  cases a with
  | serve data fork => cases hactor
  | advance p =>
      cases hactor
      obtain ⟨e, he, hrest⟩ := Option.bind_eq_some_iff.mp h
      obtain ⟨⟨l, e', o'⟩, hadvance, hlast⟩ :=
        Option.bind_eq_some_iff.mp hrest
      cases hlast
      exact ⟨e, l, some e', he, .advance l e' o (advance_cases hadvance),
        rfl, rfl⟩
  | timeout p =>
      cases hactor
      obtain ⟨e, he, hrest⟩ := Option.bind_eq_some_iff.mp h
      obtain ⟨⟨hphase, hpending⟩, heq⟩ :=
        Option.ite_none_right_eq_some.mp hrest
      cases heq
      exact ⟨e, s.list, _, he, .timeout hphase hpending, rfl, rfl⟩
  | crash p =>
      cases hactor
      obtain ⟨e, he, hrest⟩ := Option.bind_eq_some_iff.mp h
      obtain ⟨hended, heq⟩ := Option.ite_none_left_eq_some.mp hrest
      cases heq
      exact ⟨e, s.list, _, he, .crash (Bool.eq_false_iff.mpr hended), rfl, rfl⟩
  | reap p =>
      cases hactor
      obtain ⟨e, he, hrest⟩ := Option.bind_eq_some_iff.mp h
      obtain ⟨hended, heq⟩ := Option.ite_none_right_eq_some.mp hrest
      cases heq
      exact ⟨e, s.list, none, he, .reap hended, rfl, rfl⟩

end SippScen.MediaHost
