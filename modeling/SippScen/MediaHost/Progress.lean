import SippScen.MediaHost.Honoured
import SippScen.MediaHost.Mutex

/-!
# What brings the host to rest

Without further requests, failures or spurious wake-ups the programs of the host
go on by themselves.  They come to rest only in two ways: an endpoint waits in
its join for a stream thread that nobody notifies any more, or it waits for the
mutex of the registry, which a process has taken with it when it ended.  In every
other case the holder of the mutex gives it back within two of its own
statements.
-/

namespace SippScen.MediaHost

open SippScen.Support SippScen.SharedList SippScen.MediaServer
open SippScen.MediaEndpoint

variable {N : ℕ} {getopt : GetoptLong} {config : ServerConfig}

/-! ## Rest -/

/-- The actions that programs take by themselves: no request, no failure, no
spurious wake-up. -/
def HostAction.ordinary : HostAction → Bool
  | .startUp _ | .main _ | .timeout _ | .stream _ | .reap _ => true
  | _ => false

/-- No program goes on by itself. -/
def AtRest (getopt : GetoptLong) (config : ServerConfig) (h : Host N) : Prop :=
  ∀ a : HostAction, a.ordinary = true → h.next getopt config a = none

/-- The process is alive and `main` has the mutex of the registry locked. -/
def Holding (r : Running N) : Prop :=
  r.process.termination = none ∧ holding r.process.main = true

instance (r : Running N) : Decidable (Holding r) :=
  inferInstanceAs (Decidable (_ ∧ _))

/-- The mutex of the registry is locked by nobody who could unlock it. -/
def Abandoned (h : Host N) : Prop :=
  ∃ pid, h.owner = some pid ∧
    ∀ r, h.programs pid = some (.running r) → ¬ Holding r

/-- `main` waits for the mutex of the registry, and the stream thread does not
move, either. -/
def AwaitsRegistry (p : Process) : Prop :=
  p.termination = none ∧
    (p.main = .lockList ∧ p.stream = .blocked ∨
      p.main = .lockRemove ∧ p.stream = .finished)

instance (p : Process) : Decidable (AwaitsRegistry p) :=
  inferInstanceAs (Decidable (_ ∧ _))

/-! ## The invariant -/

namespace Phase

/-- The phases before the stream thread is started, and the ends of a process in
one of them. -/
def startsUp : Phase N → Bool
  | forked | execd | parsed | opened | blocked | crashed | killed => true
  | _ => false

end Phase

/-- The threads of an endpoint use their mutex and their pointer as they
should. -/
structure Sound (r : Running N) : Prop where
  locking : Locking r.process
  joined : JoinedStream r.process
  pointer : r.process.found = r.newConf.isSome

/-- What holds of the host whatever fails. -/
structure Intact (h : Host N) : Prop where
  wellFormed : WellFormed h.list
  starting : ∀ pid e, h.programs pid = some (.starting e) →
    e.phase.startsUp = true
  sound : ∀ pid r, h.programs pid = some (.running r) → Sound r
  holder : ∀ pid r, h.programs pid = some (.running r) → Holding r →
    h.owner = some pid

section Process

variable {p q : Process} {a : MediaEndpoint.Action} {report : Report}

theorem next_found (h : p.next a = some (q, report)) :
    q.found = p.found ∨ a = .fetch q.found := by
  have hact := Process.act_of_next h
  cases a with
  | main =>
      left
      change p.mainStep = some (q, report) at hact
      unfold Process.mainStep at hact
      split at hact
      all_goals try split at hact
      all_goals cases hact
      all_goals simp [Process.terminate]
  | stream => exact Or.inl (next_keepsMain (Or.inl rfl) h).found
  | fail => exact Or.inl (next_keepsMain (Or.inr (Or.inl rfl)) h).found
  | wake => exact Or.inl (next_keepsMain (Or.inr (Or.inr rfl)) h).found
  | signal =>
      cases hact
      exact Or.inl rfl
  | fetch found =>
      obtain ⟨-, heq⟩ := Option.ite_none_right_eq_some.mp hact
      cases heq
      exact Or.inr rfl
  | _ =>
      obtain ⟨-, heq⟩ := Option.ite_none_right_eq_some.mp hact
      cases heq
      exact Or.inl rfl

/-- The stream thread goes on unless it waits on the condition variable, has
finished, or waits for its mutex. -/
theorem streamStep_eq_none (h : p.streamStep = none) :
    p.stream = .blocked ∨ p.stream = .finished ∨
      (p.stream = .lockConf ∨ p.stream = .notified) ∧ p.owner ≠ none := by
  revert h
  unfold Process.streamStep
  cases p.stream <;> simp

theorem main_holdsMutex (hp : Locking p)
    (hstream : p.stream = .lockConf ∨ p.stream = .notified)
    (howner : p.owner ≠ none) : p.main.holdsMutex = true := by
  obtain ⟨thread, hthread⟩ := Option.ne_none_iff_exists'.mp howner
  cases thread with
  | main => exact hp.main.mp hthread
  | stream =>
      have hholds := hp.stream.mp hthread
      rcases hstream with hpc | hpc
      · rw [hpc] at hholds
        cases hholds
      · rw [hpc] at hholds
        cases hholds

end Process

/-! ## Every step keeps the invariant -/

section Threads

variable {l l' : SharedLst N} {r r' : Running N} {q : Process}
  {a : MediaEndpoint.Action} {report : Report}

theorem sound_start (e : Endpoint N) : Sound (.start e) where
  locking :=
    have h := start_locking e.options
    ⟨h.main, h.stream, h.running, h.branch, h.finished⟩
  joined := nofun
  pointer := rfl

theorem Sound.next (hr : Sound r)
    (h : r.process.next a = some (q, report))
    (ha : ∀ found, a ≠ .fetch found) :
    Sound { r with process := q } where
  locking := next_locking hr.locking h
  joined := joinedStream_next hr.joined h
  pointer := by
    rcases next_found h with hsame | hfetch
    · exact hsame.trans hr.pointer
    · exact absurd hfetch (ha _)

theorem Sound.step (hr : Sound r) (h : r.step a = some (r', report))
    (ha : ∀ found, a ≠ .fetch found) : Sound r' := by
  obtain ⟨q, hnext, rfl⟩ := step_eq_some h
  exact hr.next hnext ha

theorem Sound.main (hr : Sound r) (h : r.main l = some (l', r', report)) :
    Sound r' := by
  unfold Running.main at h
  split at h
  · obtain ⟨node, -, hrest⟩ := Option.bind_eq_some_iff.mp h
    obtain ⟨⟨r₁, report₁⟩, hstep, heq⟩ := Option.bind_eq_some_iff.mp hrest
    cases heq
    obtain ⟨q, hnext, rfl⟩ := step_eq_some hstep
    refine ⟨next_locking hr.locking hnext, joinedStream_next hr.joined hnext, ?_⟩
    have hact := Process.act_of_next hnext
    obtain ⟨-, heq⟩ := Option.ite_none_right_eq_some.mp hact
    cases heq
    rfl
  · obtain ⟨⟨r₁, report₁⟩, hstep, heq⟩ := Option.bind_eq_some_iff.mp h
    cases heq
    unfold Running.copyEntry at hstep
    split at hstep
    · exact hr.step hstep nofun
    · exact hr.step hstep nofun
  · obtain ⟨⟨rc, l₁⟩, -, hrest⟩ := Option.bind_eq_some_iff.mp h
    obtain ⟨⟨r₁, report₁⟩, hstep, heq⟩ := Option.bind_eq_some_iff.mp hrest
    cases heq
    exact hr.step hstep nofun
  · obtain ⟨⟨r₁, report₁⟩, hstep, heq⟩ := Option.bind_eq_some_iff.mp h
    cases heq
    exact hr.step hstep nofun

theorem deliver_running (r : Running N) :
    ∃ pending, (Program.running r).deliver =
      .running { r with process := { r.process with pending := pending } } := by
  cases hdead : r.process.termination with
  | none =>
      refine ⟨r.process.pending + 1, ?_⟩
      simp [Program.deliver, Running.step, Process.next, hdead, Process.act]
  | some how =>
      have hstep : r.step .signal = none := by
        simp [Running.step, Process.next, hdead]
      refine ⟨r.process.pending, ?_⟩
      rw [Program.deliver, hstep]
      rfl

end Threads

section Steps

variable {h t : Host N} {pid : ℤ} {o : Observation}

theorem handOver_lock {owner : Option ℤ}
    (hlock : h.handOver pid .lockList = some owner) :
    h.owner = none ∧ owner = some pid := by
  obtain ⟨hfree, heq⟩ := Option.ite_none_right_eq_some.mp hlock
  cases heq
  exact ⟨hfree, rfl⟩

theorem handOver_keep {owner : Option ℤ} {report : Report}
    (hlock : report ≠ .lockList) (hunlock : report ≠ .unlockList)
    (hkeep : h.handOver pid report = some owner) : owner = h.owner := by
  cases report with
  | lockList => exact absurd rfl hlock
  | unlockList => exact absurd rfl hunlock
  | _ =>
      cases hkeep
      rfl

/-- What a step of the threads of one endpoint does to the mutex: it locks it
while it is free, unlocks it as its holder, or leaves it alone. -/
theorem Intact.finish_owner (hh : Intact h) {l : SharedLst N} {r r' : Running N}
    {a : MediaEndpoint.Action} {report : Report}
    (hr : h.programs pid = some (.running r))
    (hnext : r.process.next a = some (r'.process, report))
    (hfinish : h.finish pid l r' report = some (t, o)) :
    (h.owner = none ∧ t.owner = some pid ∧ Holding r') ∨
      (h.owner = some pid ∧ t.owner = none ∧ Holding r ∧ ¬ Holding r') ∨
      (t.owner = h.owner ∧ (Holding r' → Holding r)) := by
  have hlive := alive_of_next hnext
  have heffect := next_lock hnext
  obtain ⟨owner, howner, heq⟩ := Option.bind_eq_some_iff.mp hfinish
  cases heq
  generalize hq : r'.process = q at heffect
  cases heffect with
  | locks hbefore hafter halive =>
      obtain ⟨hfree, hnew⟩ := handOver_lock howner
      exact Or.inl ⟨hfree, hnew, hq ▸ halive, hq ▸ hafter⟩
  | unlocks hbefore hafter halive =>
      refine Or.inr (Or.inl ⟨hh.holder pid r hr ⟨hlive, hbefore⟩, ?_,
        ⟨hlive, hbefore⟩, ?_⟩)
      · exact (Option.some.inj howner).symm
      · rintro ⟨-, hholding⟩
        rw [hq, hafter] at hholding
        cases hholding
  | keeps _ hnolock hnounlock hmain halive =>
      refine Or.inr (Or.inr ⟨handOver_keep hnolock hnounlock howner, ?_⟩)
      rintro ⟨-, hholding⟩
      exact ⟨hlive, hmain ▸ hq ▸ hholding⟩
  | ends hmain hdead =>
      refine Or.inr (Or.inr ⟨handOver_keep (by simp) (by simp) howner, ?_⟩)
      rintro ⟨halive, -⟩
      exact absurd (hq ▸ halive) hdead

theorem Intact.finish (hh : Intact h) {l : SharedLst N} {r r' : Running N}
    {a : MediaEndpoint.Action} {report : Report}
    (hr : h.programs pid = some (.running r)) (hl : WellFormed l)
    (hsound : Sound r') (hnext : r.process.next a = some (r'.process, report))
    (hfinish : h.finish pid l r' report = some (t, o)) : Intact t := by
  have howner := hh.finish_owner hr hnext hfinish
  obtain ⟨-, hlist, hprograms⟩ := finish_cases hfinish
  refine ⟨hlist ▸ hl, ?_, ?_, ?_⟩
  · intro j e he
    rcases eq_some_of_update hprograms he with ⟨-, ⟨⟩⟩ | ⟨-, he⟩
    exact hh.starting j e he
  · intro j x hx
    rcases eq_some_of_update hprograms hx with ⟨-, ⟨⟩⟩ | ⟨-, hx⟩
    · exact hsound
    · exact hh.sound j x hx
  · intro j x hx hholds
    rcases eq_some_of_update hprograms hx with ⟨rfl, hsame⟩ | ⟨hj, hx⟩
    · cases hsame
      rcases howner with ⟨-, hnew, -⟩ | ⟨-, -, -, hnot⟩ | ⟨hkept, hbefore⟩
      · exact hnew
      · exact absurd hholds hnot
      · rw [hkept]
        exact hh.holder j r hr (hbefore hholds)
    · have hother := hh.holder j x hx hholds
      rcases howner with ⟨hfree, -⟩ | ⟨hself, -⟩ | ⟨hkept, -⟩
      · rw [hfree] at hother
        cases hother
      · rw [hself] at hother
        exact absurd (Option.some.inj hother).symm hj
      · rw [hkept]
        exact hother

/-- A process of the host after the worker has served a request: a new child,
or one that was there and may have got a signal. -/
theorem afterServe_programs {v : Served N} {j : ℤ} {p : Program N}
    (hp : (h.afterServe v).programs j = some p) :
    (∃ data, p = .starting (Endpoint.child data)) ∨
      ∃ p₀, h.programs j = some p₀ ∧ (p = p₀ ∨ p = p₀.deliver) := by
  have hsignal : ∀ signalled, h.signal signalled j = some p →
      ∃ p₀, h.programs j = some p₀ ∧ (p = p₀ ∨ p = p₀.deliver) := by
    intro signalled hp
    cases signalled with
    | none => exact ⟨p, hp, Or.inl rfl⟩
    | some pid =>
        rcases eq_some_of_update rfl hp with ⟨rfl, hdelivered⟩ | ⟨-, hp⟩
        · obtain ⟨p₀, hp₀, rfl⟩ := Option.map_eq_some_iff.mp hdelivered
          exact ⟨p₀, hp₀, Or.inr rfl⟩
        · exact ⟨p, hp, Or.inl rfl⟩
  cases hlaunched : v.launched with
  | none =>
      simp only [Host.afterServe, hlaunched] at hp
      exact Or.inr (hsignal _ hp)
  | some child =>
      simp only [Host.afterServe, hlaunched] at hp
      rcases eq_some_of_update rfl hp with ⟨-, hchild⟩ | ⟨-, hp⟩
      · exact Or.inl ⟨child.2, (Option.some.inj hchild).symm⟩
      · exact Or.inr (hsignal _ hp)

/-- The worker leaves the invariant alone; it has the mutex while it serves. -/
theorem Intact.serve (hh : Intact h) (h2 : 2 ≤ N) (hN : N ≤ 32767)
    {data : Data} {fork : Option ℤ}
    (hnext : h.next getopt config (.serve data fork) = some (t, o)) :
    Intact t := by
  obtain ⟨⟨hfree, -⟩, hrest⟩ := Option.ite_none_right_eq_some.mp hnext
  obtain ⟨v, hserve, heq⟩ := Option.bind_eq_some_iff.mp hrest
  cases heq
  obtain ⟨v', hserve', hv, -⟩ :=
    serve_spec hh.wellFormed h2 hN (h.system.kernel fork) data
  obtain rfl : v = v' := Option.some.inj (hserve.symm.trans hserve')
  refine ⟨hv, ?_, ?_, ?_⟩
  · intro j e he
    rcases afterServe_programs he with ⟨data, heq⟩ | ⟨p₀, hp₀, hsame⟩
    · cases heq
      rfl
    · cases p₀ with
      | running r =>
          obtain ⟨pending, hdelivered⟩ := deliver_running r
          rw [hdelivered] at hsame
          rcases hsame with heq | heq <;> cases heq
      | starting e₀ =>
          have hstarts := hh.starting j e₀ hp₀
          rcases hsame with heq | heq
          · cases heq
            exact hstarts
          · cases heq
            rcases e₀.deliver_cases with ⟨-, hd⟩ | ⟨-, hd⟩ | ⟨-, -, hd⟩
            · rw [hd]
              exact hstarts
            · rw [hd]
              rfl
            · rw [hd]
              exact hstarts
  · intro j r hr
    rcases afterServe_programs hr with ⟨data, heq⟩ | ⟨p₀, hp₀, hsame⟩
    · cases heq
    · cases p₀ with
      | starting e₀ => rcases hsame with heq | heq <;> cases heq
      | running r₀ =>
          have hsound := hh.sound j r₀ hp₀
          obtain ⟨pending, hdelivered⟩ := deliver_running r₀
          rw [hdelivered] at hsame
          rcases hsame with heq | heq
          · cases heq
            exact hsound
          · cases heq
            obtain ⟨⟨hm, hs, hrun, hb, hf⟩, hjoined, hpointer⟩ := hsound
            exact ⟨⟨hm, hs, hrun, hb, hf⟩, hjoined, hpointer⟩
  · intro j r hr hholds
    change h.owner = some j
    rcases afterServe_programs hr with ⟨data, heq⟩ | ⟨p₀, hp₀, hsame⟩
    · cases heq
    · cases p₀ with
      | starting e₀ => rcases hsame with heq | heq <;> cases heq
      | running r₀ =>
          obtain ⟨pending, hdelivered⟩ := deliver_running r₀
          rw [hdelivered] at hsame
          rcases hsame with heq | heq
          · cases heq
            exact hh.holder j r hp₀ hholds
          · cases heq
            exact hh.holder j r₀ hp₀ hholds

theorem Intact.setProgram (hh : Intact h) {p : Option (Program N)}
    (hstarting : ∀ e, p = some (.starting e) → e.phase.startsUp = true)
    (hrunning : ∀ r, p = some (.running r) → Sound r ∧ ¬ Holding r) :
    Intact (h.setProgram pid p) := by
  refine ⟨hh.wellFormed, ?_, ?_, ?_⟩
  · intro j e he
    rcases eq_some_of_update rfl he with ⟨-, heq⟩ | ⟨-, he⟩
    · exact hstarting e heq
    · exact hh.starting j e he
  · intro j r hr
    rcases eq_some_of_update rfl hr with ⟨-, heq⟩ | ⟨-, hr⟩
    · exact (hrunning r heq).1
    · exact hh.sound j r hr
  · intro j r hr hholds
    rcases eq_some_of_update rfl hr with ⟨-, heq⟩ | ⟨-, hr⟩
    · exact absurd hholds (hrunning r heq).2
    · exact hh.holder j r hr hholds

theorem startsUp_advance {l l' : SharedLst N} {e e' : Endpoint N}
    (hphase : e.phase.startsUp = true) (hblocked : e.phase ≠ .blocked)
    (hadvance : e.advance getopt config l = some (l', e', o)) :
    l' = l ∧ e'.phase.startsUp = true := by
  cases advance_cases hadvance with
  | pass p hsucc =>
      refine ⟨rfl, ?_⟩
      revert hsucc hphase hblocked
      cases e.phase <;> simp [Phase.succ, Phase.startsUp] <;> rintro rfl <;> rfl
  | parse options p _ _ hp =>
      refine ⟨rfl, ?_⟩
      rcases hp with rfl | rfl <;> rfl
  | start hpc => exact absurd hpc hblocked
  | take n hpc => rw [hpc] at hphase; cases hphase
  | fetch node hpc => rw [hpc] at hphase; cases hphase
  | copyNull hpc => rw [hpc] at hphase; cases hphase
  | copy i hpc => rw [hpc] at hphase; cases hphase
  | remove rc _ hpc => rw [hpc] at hphase; cases hphase

theorem Intact.startUp (hh : Intact h)
    (hnext : h.next getopt config (.startUp pid) = some (t, o)) :
    Intact t := by
  simp only [Host.next] at hnext
  split at hnext
  case h_2 => cases hnext
  next e he =>
  split at hnext
  · next hphase =>
    cases hnext
    apply hh.setProgram
    · rintro _ ⟨⟩
    · rintro _ ⟨⟩
      exact ⟨sound_start e, fun hholds => by cases hholds.2⟩
  · next hphase =>
    obtain ⟨⟨l, e', o'⟩, hadvance, heq⟩ := Option.bind_eq_some_iff.mp hnext
    cases heq
    obtain ⟨rfl, hstarts⟩ :=
      startsUp_advance (hh.starting pid e he) hphase hadvance
    apply hh.setProgram
    · rintro _ ⟨⟩
      exact hstarts
    · rintro _ ⟨⟩

theorem Intact.threadStep (hh : Intact h) {a : MediaEndpoint.Action}
    (hstep : h.threadStep pid a = some (t, o))
    (ha : ∀ found, a ≠ .fetch found) : Intact t := by
  obtain ⟨r, r', report, hr, hstep, hfinish⟩ := threadStep_cases hstep
  obtain ⟨q, hnext, rfl⟩ := step_eq_some hstep
  exact hh.finish hr hh.wellFormed ((hh.sound pid r hr).next hnext ha) hnext
    hfinish

theorem Intact.main (hh : Intact h) (h2 : 2 ≤ N) (hN : N ≤ 32767)
    (hnext : h.next getopt config (.main pid) = some (t, o)) : Intact t := by
  simp only [Host.next] at hnext
  split at hnext
  case h_2 => cases hnext
  next r hr =>
  obtain ⟨⟨l', r', report⟩, hmain, hfinish⟩ := Option.bind_eq_some_iff.mp hnext
  have hsound := (hh.sound pid r hr).main hmain
  obtain ⟨-, ⟨node, -, -, rfl, -, hstep, -⟩ |
    ⟨⟨a, -, hstep⟩, -, hlist⟩⟩ := main_cases hmain
  · exact hh.finish hr hh.wellFormed hsound hstep hfinish
  · refine hh.finish hr ?_ hsound hstep hfinish
    rcases hlist with rfl | ⟨port, rc, hremove⟩
    · exact hh.wellFormed
    · exact (hh.wellFormed.of_removeElement h2 hN hremove).1

/-- Every step of the host, failures and spurious wake-ups included. -/
theorem Intact.next (hh : Intact h) (h2 : 2 ≤ N) (hN : N ≤ 32767)
    {a : HostAction} (hnext : h.next getopt config a = some (t, o)) :
    Intact t := by
  cases a with
  | serve data fork => exact hh.serve h2 hN hnext
  | startUp pid => exact hh.startUp hnext
  | main pid => exact hh.main h2 hN hnext
  | timeout pid => exact hh.threadStep hnext nofun
  | waitError pid => exact hh.threadStep hnext nofun
  | stream pid => exact hh.threadStep hnext nofun
  | fail pid => exact hh.threadStep hnext nofun
  | wake pid => exact hh.threadStep hnext nofun
  | startUpFailure pid =>
      simp only [Host.next] at hnext
      split at hnext
      case h_2 => cases hnext
      obtain ⟨-, heq⟩ := Option.ite_none_left_eq_some.mp hnext
      cases heq
      apply hh.setProgram
      · rintro _ ⟨⟩
        rfl
      · rintro _ ⟨⟩
  | reap pid =>
      obtain ⟨p, -, hrest⟩ := Option.bind_eq_some_iff.mp hnext
      obtain ⟨-, heq⟩ := Option.ite_none_right_eq_some.mp hrest
      cases heq
      apply hh.setProgram
      · rintro _ ⟨⟩
      · rintro _ ⟨⟩

theorem initial_intact (h2 : 2 ≤ N) (hN : N ≤ 32767) (mem : SharedLst N) :
    Intact (Host.initial mem) := by
  refine ⟨(initializeList_wellFormed mem h2 hN).1, ?_, ?_, ?_⟩
  · intro pid e he
    cases he
  · intro pid r hr
    cases hr
  · intro pid r hr
    cases hr

theorem intact_of_run (h2 : 2 ≤ N) (hN : N ≤ 32767) (mem : SharedLst N)
    {es : List (HostAction × Observation)}
    (hrun : Run (HostStep getopt config) (Host.initial mem) es t) :
    Intact t :=
  hrun.invariant (initial_intact h2 hN mem)
    fun _ _ _ hh hstep => hh.next h2 hN hstep

end Steps

/-! ## Who can move -/

section Process

variable {p q : Process} {a : MediaEndpoint.Action}

/-- `main` waits for a signal, for its mutex, or for the stream thread. -/
def MainWaits (p : Process) : Prop :=
  p.main = .waiting ∧ p.pending = 0 ∨
    (p.main = .lockConf ∨ p.main = .endLock) ∧ p.owner ≠ none ∨
    p.main = .join ∧ p.stream ≠ .finished

theorem mainStep_eq_none (h : p.mainStep = none) (hwaits : ¬ MainWaits p) :
    p.main = .fetch ∨ p.main = .copy ∧ p.found = true := by
  revert h hwaits
  unfold Process.mainStep MainWaits
  cases p.main <;> simp
  cases p.pending <;> simp

theorem next_lockList (h : p.next a = some (q, .lockList)) :
    p.main = .lockList ∨ p.main = .lockRemove := by
  have hact := Process.act_of_next h
  have hkeeps : a.OfStream → False := by
    intro ha
    rcases (next_keepsMain ha h).report with hreport | ⟨data, hreport⟩
    · cases hreport
    · cases hreport
  cases a with
  | main =>
      cases hmain : p.main
      all_goals simp only [Process.act, Process.mainStep, hmain] at hact
      all_goals try split at hact
      all_goals cases hact
      · exact Or.inl rfl
      · exact Or.inr rfl
  | stream => exact (hkeeps (Or.inl rfl)).elim
  | fail => exact (hkeeps (Or.inr (Or.inl rfl))).elim
  | wake => exact (hkeeps (Or.inr (Or.inr rfl))).elim
  | signal => cases hact
  | _ =>
      obtain ⟨-, heq⟩ := Option.ite_none_right_eq_some.mp hact
      cases heq

/-- When neither thread moves, `main` is in its join or about to lock the mutex
of the registry, and the stream thread is out of its loop or on the condition
variable. -/
theorem hangs_or_awaits (hp : Locking p) (hjoined : JoinedStream p)
    (halive : p.termination = none) (hstream : p.streamStep = none)
    (hmain : MainWaits p ∨ p.main = .lockList ∨ p.main = .lockRemove)
    (hwaiting : ¬ (p.main = .waiting ∧ p.pending = 0)) :
    Hangs p ∨ AwaitsRegistry p := by
  have hidle : p.main.holdsMutex = false →
      p.stream = .blocked ∨ p.stream = .finished := by
    intro hmain
    rcases streamStep_eq_none hstream with hpc | hpc | ⟨hpc, howner⟩
    · exact Or.inl hpc
    · exact Or.inr hpc
    · rw [main_holdsMutex hp hpc howner] at hmain
      cases hmain
  rcases hmain with (hpc | ⟨hpc, howner⟩ | ⟨hpc, hunfinished⟩) | hpc | hpc
  · exact absurd hpc hwaiting
  · exfalso
    have hfree : p.main.holdsMutex = false := by
      rcases hpc with hpc | hpc
      · rw [hpc]
        rfl
      · rw [hpc]
        rfl
    obtain ⟨thread, hthread⟩ := Option.ne_none_iff_exists'.mp howner
    cases thread with
    | main =>
        rw [hp.main.mp hthread] at hfree
        cases hfree
    | stream =>
        have hholds := hp.stream.mp hthread
        rcases hidle hfree with hstream | hstream
        · rw [hstream] at hholds
          cases hholds
        · rw [hstream] at hholds
          cases hholds
  · left
    refine ⟨halive, hpc, ?_⟩
    exact (hidle (by rw [hpc]; rfl)).resolve_right hunfinished
  · right
    refine ⟨halive, Or.inl ⟨hpc, ?_⟩⟩
    refine (hidle (by rw [hpc]; rfl)).resolve_right ?_
    intro hfinished
    have hrunning := hp.running
    rw [hp.finished hfinished, hpc] at hrunning
    cases hrunning
  · right
    exact ⟨halive, Or.inr ⟨hpc, hjoined (by rw [hpc]; rfl)⟩⟩

end Process

section Enabled

variable {h t : Host N} {pid : ℤ} {r : Running N}

theorem Sound.exists_main (hr : Sound r) {l : SharedLst N} (hl : WellFormed l)
    (h2 : 2 ≤ N) (hN : N ≤ 32767) (halive : r.process.termination = none)
    (hwaits : ¬ MainWaits r.process) :
    ∃ l' r' report, r.main l = some (l', r', report) := by
  have hstep : ∀ {a q report}, r.process.act a = some (q, report) →
      r.step a = some ({ r with process := q }, report) := by
    intro a q report hact
    simp [Running.step, Process.next, halive, hact]
  have hplain : r.process.mainStep ≠ none → ∃ r' report,
      r.step .main = some (r', report) := by
    intro hsome
    obtain ⟨⟨q, report⟩, hq⟩ := Option.ne_none_iff_exists'.mp hsome
    exact ⟨_, _, hstep hq⟩
  unfold Running.main
  split
  · next hmain =>
    obtain ⟨node, hfetch, -⟩ := hl.fetchElement_spec r.process.conf.port
    have hact : r.process.act (.fetch node.isSome) =
        some ({ r.process with found := node.isSome, main := .unlockList },
          .silent) := if_pos hmain
    simp [hfetch, hstep hact]
  · next hmain =>
    cases hfound : r.process.found with
    | false =>
        have hpointer : r.pointer = none := by simp [Running.pointer, hfound]
        obtain ⟨r', report, hmainStep⟩ := hplain (by
          simp [Process.mainStep, hmain, hfound])
        simp [Running.copyEntry, hpointer, hmainStep]
    | true =>
        obtain ⟨node, hnode⟩ : ∃ node, r.newConf = some node :=
          Option.isSome_iff_exists.mp (hr.pointer ▸ hfound)
        have hpointer : r.pointer = some node := by
          simp [Running.pointer, hfound, hnode]
        have hact : r.process.act (.copy (l.data node)) =
            some ({ r.process with conf := l.data node, main := .unlockConf },
              .stored (l.data node)) := if_pos ⟨hmain, hfound⟩
        simp [Running.copyEntry, hpointer, hstep hact]
  · next hmain =>
    obtain ⟨rc, l', hremove, -⟩ :=
      hl.removeElement_spec h2 hN r.process.conf.port
    obtain ⟨r', report, hmainStep⟩ := hplain (by
      simp [Process.mainStep, hmain])
    simp [hremove, hmainStep]
  · next hfetch hcopy hremove =>
    obtain ⟨r', report, hmainStep⟩ := hplain (by
      intro hnone
      rcases mainStep_eq_none hnone hwaits with hpc | ⟨hpc, -⟩
      · exact hfetch hpc
      · exact hcopy hpc)
    simp [hmainStep]

/-- A step of the threads takes effect unless it has to wait for the mutex of
the registry. -/
theorem exists_finish (h : Host N) (pid : ℤ) (l : SharedLst N) (r : Running N)
    (report : Report) (hreport : report = .lockList → h.owner = none) :
    ∃ t o, h.finish pid l r report = some (t, o) := by
  cases report with
  | lockList => simp [Host.finish, Host.handOver, hreport rfl]
  | _ => simp [Host.finish, Host.handOver]

theorem exists_stream (hr : h.programs pid = some (.running r))
    (halive : r.process.termination = none)
    (hstream : r.process.streamStep ≠ none) :
    h.next getopt config (.stream pid) ≠ none := by
  obtain ⟨⟨q, report⟩, hq⟩ := Option.ne_none_iff_exists'.mp hstream
  have hnext : r.process.next .stream = some (q, report) := by
    simp [Process.next, halive, Process.act, hq]
  have hreport : report ≠ .lockList := by
    rcases (next_keepsMain (Or.inl rfl) hnext).report with rfl | ⟨data, rfl⟩
    · simp
    · simp
  obtain ⟨t, o, hfinish⟩ :=
    exists_finish h pid h.list { r with process := q } report
      (fun hlock => absurd hlock hreport)
  simp [Host.next, Host.threadStep, hr, Running.step, hnext, hfinish]

theorem exists_startUp {e : Endpoint N}
    (he : h.programs pid = some (.starting e))
    (hphase : e.phase.startsUp = true) :
    h.next getopt config (.startUp pid) ≠ none ∨
      h.next getopt config (.reap pid) ≠ none := by
  cases hpc : e.phase
  all_goals rw [hpc] at hphase
  all_goals try cases hphase
  case crashed =>
      exact Or.inr (by simp [Host.next, he, Program.endpoint, hpc, Phase.ended])
  case killed =>
      exact Or.inr (by simp [Host.next, he, Program.endpoint, hpc, Phase.ended])
  all_goals
    exact Or.inl (by simp [Host.next, he, hpc, Endpoint.advance, Phase.succ])

/-- A process that has ended is reaped. -/
theorem exists_reap (hr : h.programs pid = some (.running r))
    (hdead : r.process.termination ≠ none) :
    h.next getopt config (.reap pid) ≠ none := by
  have hended : r.endpoint.phase.ended = true := by
    change r.phase.ended = true
    rcases phase_of_terminated hdead with hphase | hphase
    · rw [hphase]
      rfl
    · rw [hphase]
      rfl
  simp [Host.next, hr, Program.endpoint, hended]

/-- At rest `main` waits inside of its process, or for the mutex of the
registry. -/
theorem Intact.main_of_atRest (hh : Intact h) (h2 : 2 ≤ N) (hN : N ≤ 32767)
    (hrest : AtRest getopt config h) (hr : h.programs pid = some (.running r))
    (halive : r.process.termination = none) :
    MainWaits r.process ∨
      (r.process.main = .lockList ∨ r.process.main = .lockRemove) ∧
        h.owner ≠ none := by
  by_cases hwaits : MainWaits r.process
  · exact Or.inl hwaits
  · right
    obtain ⟨l', r', report, hmain⟩ :=
      (hh.sound pid r hr).exists_main hh.wellFormed h2 hN halive hwaits
    have hnone : h.finish pid l' r' report = none := by
      have := hrest (.main pid) rfl
      simpa [Host.next, hr, hmain] using this
    have hblocks : report = .lockList ∧ h.owner ≠ none := by
      by_contra hfree
      obtain ⟨t, o, hfinish⟩ := exists_finish h pid l' r' report (by tauto)
      rw [hnone] at hfinish
      cases hfinish
    obtain ⟨rfl, howner⟩ := hblocks
    refine ⟨?_, howner⟩
    obtain ⟨-, ⟨node, -, -, -, hreport, -⟩ | ⟨⟨a, -, hnext⟩, -⟩⟩ :=
      main_cases hmain
    · cases hreport
    · exact next_lockList hnext

theorem Intact.of_atRest (hh : Intact h) (h2 : 2 ≤ N) (hN : N ≤ 32767)
    (hrest : AtRest getopt config h) {p : Program N}
    (hp : h.programs pid = some p) :
    ∃ r, p = .running r ∧
      (Hangs r.process ∨ AwaitsRegistry r.process ∧ h.owner ≠ none) := by
  cases p with
  | starting e =>
      rcases exists_startUp hp (hh.starting pid e hp) with hmove | hmove
      · exact absurd (hrest (.startUp pid) rfl) hmove
      · exact absurd (hrest (.reap pid) rfl) hmove
  | running r =>
      obtain ⟨hlocking, hjoined, -⟩ := hh.sound pid r hp
      have halive : r.process.termination = none := by
        by_contra hdead
        exact exists_reap hp hdead (hrest (.reap pid) rfl)
      have hstream : r.process.streamStep = none := by
        by_contra hmoves
        exact exists_stream hp halive hmoves (hrest (.stream pid) rfl)
      have hwaiting : ¬ (r.process.main = .waiting ∧ r.process.pending = 0) := by
        intro hidle
        have := hrest (.timeout pid) rfl
        simp [Host.next, Host.threadStep, hp, Running.step, Process.next,
          halive, Process.act, hidle, Host.finish, Host.handOver] at this
      refine ⟨r, rfl, ?_⟩
      rcases hh.main_of_atRest h2 hN hrest hp halive with hwaits | ⟨hpc, howner⟩
      · rcases hangs_or_awaits hlocking hjoined halive hstream
          (Or.inl hwaits) hwaiting with hhangs | ⟨-, hawaits⟩
        · exact Or.inl hhangs
        · exfalso
          revert hwaits
          unfold MainWaits
          rcases hawaits with ⟨hpc, -⟩ | ⟨hpc, -⟩
          · simp [hpc]
          · simp [hpc]
      · refine (hangs_or_awaits hlocking hjoined halive hstream (Or.inr hpc)
          hwaiting).imp_right fun hawaits => ⟨hawaits, howner⟩

end Enabled

/-! ## Every run -/

section Runs

variable {h t : Host N} {pid : ℤ} {r : Running N}
  {es : List (HostAction × Observation)}

theorem not_holding (hrest : Hangs r.process ∨ AwaitsRegistry r.process) :
    ¬ Holding r := by
  rintro ⟨-, hholding⟩
  rcases hrest with ⟨-, hmain, -⟩ | ⟨-, ⟨hmain, -⟩ | ⟨hmain, -⟩⟩
  all_goals
    rw [hmain] at hholding
    cases hholding

theorem atRest_of_programs (hprograms : ∀ pid p, h.programs pid = some p →
    ∃ r, p = .running r ∧
      (Hangs r.process ∨ AwaitsRegistry r.process ∧ h.owner ≠ none)) :
    AtRest getopt config h := by
  intro a ha
  have hnone : ∀ pid, h.programs pid = none →
      h.next getopt config (.startUp pid) = none ∧
      h.next getopt config (.main pid) = none ∧
      (∀ a, h.threadStep pid a = none) ∧
      h.next getopt config (.reap pid) = none := by
    intro pid hp
    simp [Host.next, Host.threadStep, hp]
  have hsome : ∀ pid r, h.programs pid = some (.running r) →
      h.next getopt config (.startUp pid) = none ∧
      h.next getopt config (.main pid) = none ∧
      h.threadStep pid .timeout = none ∧ h.threadStep pid .stream = none ∧
      h.next getopt config (.reap pid) = none := by
    intro pid r hp
    obtain ⟨r', hsame, hrest⟩ := hprograms pid _ hp
    cases hsame
    rcases hrest with ⟨halive, hmain, hstream⟩ |
      ⟨⟨halive, ⟨hmain, hstream⟩ | ⟨hmain, hstream⟩⟩, howner⟩
    all_goals
      have hended := (phase_of_alive halive).1
      simp [Host.next, Host.threadStep, hp, Running.main, Running.step,
        Process.next, halive, Process.act, Process.mainStep,
        Process.streamStep, hmain, hstream, Program.endpoint,
        Running.endpoint, hended, Host.finish, Host.handOver]
    all_goals exact howner
  have hcases : ∀ pid, h.next getopt config (.startUp pid) = none ∧
      h.next getopt config (.main pid) = none ∧
      h.threadStep pid .timeout = none ∧ h.threadStep pid .stream = none ∧
      h.next getopt config (.reap pid) = none := by
    intro pid
    cases hp : h.programs pid with
    | none =>
        obtain ⟨hstart, hmain, hthread, hreap⟩ := hnone pid hp
        exact ⟨hstart, hmain, hthread _, hthread _, hreap⟩
    | some p =>
        obtain ⟨r, rfl, -⟩ := hprograms pid p hp
        exact hsome pid r hp
  cases a with
  | startUp pid => exact (hcases pid).1
  | main pid => exact (hcases pid).2.1
  | timeout pid => exact (hcases pid).2.2.1
  | stream pid => exact (hcases pid).2.2.2.1
  | reap pid => exact (hcases pid).2.2.2.2
  | _ => cases ha

/-- After any run, whatever failed in it, the host is at rest exactly when every
process that is left hangs in its join, or waits for the mutex of the registry
and the mutex is abandoned. -/
theorem atRest_iff (h2 : 2 ≤ N) (hN : N ≤ 32767) (mem : SharedLst N)
    (hrun : Run (HostStep getopt config) (Host.initial mem) es t) :
    AtRest getopt config t ↔
      ∀ pid p, t.programs pid = some p →
        ∃ r, p = .running r ∧
          (Hangs r.process ∨ AwaitsRegistry r.process ∧ Abandoned t) := by
  have ht := intact_of_run h2 hN mem hrun
  constructor
  · intro hrest pid p hp
    obtain ⟨r, rfl, hhangs | ⟨hawaits, howner⟩⟩ := ht.of_atRest h2 hN hrest hp
    · exact ⟨r, rfl, Or.inl hhangs⟩
    · obtain ⟨holder, hholder⟩ := Option.ne_none_iff_exists'.mp howner
      refine ⟨r, rfl, Or.inr ⟨hawaits, holder, hholder, ?_⟩⟩
      intro x hx
      obtain ⟨x', hsame, hx'⟩ := ht.of_atRest h2 hN hrest hx
      cases hsame
      exact not_holding (hx'.imp_right And.left)
  · intro hprograms
    apply atRest_of_programs
    intro pid p hp
    obtain ⟨r, rfl, hrest⟩ := hprograms pid p hp
    refine ⟨r, rfl, hrest.imp_right fun hawaits => ⟨hawaits.1, ?_⟩⟩
    obtain ⟨holder, hholder, -⟩ := hawaits.2
    rw [hholder]
    exact Option.some_ne_none _

/-- The process hangs in its join. -/
def Program.hangs : Program N → Bool
  | starting _ => false
  | running r => decide (Hangs r.process)

/-- The stream thread of a client for 400 milliseconds misses the end. -/
def hostStepsToHang : List HostAction :=
  [.serve (clientRequest 400) (some 7)] ++ List.replicate 5 (.startUp 7) ++
    [.stream 7, .stream 7, .timeout 7] ++ List.replicate 4 (.main 7) ++
    List.replicate 8 (.stream 7)

/-- The endpoint hangs, with its entry in the registry and the mutex free. -/
theorem atRest_hang : ∃ t es,
    Run (HostStep exactGetoptLong defaultConfig)
        (Host.initial (zeroSegment 2)) es t ∧
      es.map Prod.fst = hostStepsToHang ∧ t.owner = none ∧
      t.list.records.map Data.port = [21000] ∧
      (∃ r, t.programs 7 = some (.running r) ∧ Hangs r.process) ∧
      (AtRest exactGetoptLong defaultConfig t ↔
        ∀ pid p, t.programs pid = some p →
          ∃ r, p = .running r ∧
            (Hangs r.process ∨ AwaitsRegistry r.process ∧ Abandoned t)) := by
  obtain ⟨t, es, hrun, hactions, htest⟩ := exists_run_of_exec
    (Host.next exactGetoptLong defaultConfig) (Host.initial (zeroSegment 2))
    hostStepsToHang
    (fun r => decide (r.1.owner = none ∧
        r.1.list.records.map Data.port = [21000]) &&
      (r.1.programs 7).any Program.hangs) (by decide +kernel)
  obtain ⟨hregistry, hprogram⟩ := Bool.and_eq_true_iff.mp htest
  obtain ⟨howner, hports⟩ := of_decide_eq_true hregistry
  refine ⟨t, es, hrun, hactions, howner, hports, ?_,
    atRest_iff (by decide) (by decide) (zeroSegment 2) hrun⟩
  obtain ⟨p, hp, hhangs⟩ := (Option.any_eq_true _ _).mp hprogram
  cases p with
  | starting e => cases hhangs
  | running r => exact ⟨r, hp, of_decide_eq_true hhangs⟩

/-! ## The mutex of the registry -/

theorem Abandoned.finish (hh : Intact h) (habandoned : Abandoned h)
    {l : SharedLst N} {r' : Running N} {b : MediaEndpoint.Action}
    {report : Report} {o : Observation}
    (hr : h.programs pid = some (.running r))
    (hstep : r.process.next b = some (r'.process, report))
    (hfinish : h.finish pid l r' report = some (t, o)) :
    t.owner = h.owner ∧ Abandoned t := by
  obtain ⟨holder, howner, hdead⟩ := habandoned
  obtain ⟨-, -, hprograms⟩ := finish_cases hfinish
  rcases hh.finish_owner hr hstep hfinish with
    ⟨hfree, -⟩ | ⟨hself, -, hholds, -⟩ | ⟨hkept, hbefore⟩
  · rw [hfree] at howner
    cases howner
  · obtain rfl : pid = holder := Option.some.inj (hself.symm.trans howner)
    exact absurd hholds (hdead r hr)
  · refine ⟨hkept, holder, hkept.trans howner, ?_⟩
    intro x hx hholds
    rcases eq_some_of_update hprograms hx with ⟨rfl, hsame⟩ | ⟨-, hx⟩
    · cases hsame
      exact hdead r hr (hbefore hholds)
    · exact hdead x hx hholds

theorem Abandoned.threadStep (hh : Intact h) (habandoned : Abandoned h)
    {b : MediaEndpoint.Action} {o : Observation}
    (hstep : h.threadStep pid b = some (t, o)) :
    t.owner = h.owner ∧ Abandoned t := by
  obtain ⟨r, r', report, hr, hstep, hfinish⟩ := threadStep_cases hstep
  obtain ⟨q, hq, rfl⟩ := step_eq_some hstep
  exact habandoned.finish hh hr hq hfinish

theorem Abandoned.main (hh : Intact h) (habandoned : Abandoned h)
    {o : Observation}
    (hnext : h.next getopt config (.main pid) = some (t, o)) :
    t.owner = h.owner ∧ Abandoned t := by
  simp only [Host.next] at hnext
  split at hnext
  case h_2 => cases hnext
  next r hr =>
  obtain ⟨⟨l', r', report⟩, hmain, hfinish⟩ := Option.bind_eq_some_iff.mp hnext
  obtain ⟨-, ⟨node, -, -, -, -, hstep, -⟩ | ⟨⟨b, -, hstep⟩, -⟩⟩ :=
    main_cases hmain
  · exact habandoned.finish hh hr hstep hfinish
  · exact habandoned.finish hh hr hstep hfinish

theorem Abandoned.setProgram (habandoned : Abandoned h) {p : Option (Program N)}
    (hp : ∀ x, p = some (.running x) → ¬ Holding x) :
    (h.setProgram pid p).owner = h.owner ∧ Abandoned (h.setProgram pid p) := by
  obtain ⟨holder, howner, hdead⟩ := habandoned
  refine ⟨rfl, holder, howner, ?_⟩
  intro x hx
  rcases eq_some_of_update rfl hx with ⟨-, heq⟩ | ⟨-, hx⟩
  · exact hp x heq
  · exact hdead x hx

theorem Abandoned.startUp (hh : Intact h) (habandoned : Abandoned h)
    {o : Observation}
    (hnext : h.next getopt config (.startUp pid) = some (t, o)) :
    t.owner = h.owner ∧ Abandoned t := by
  simp only [Host.next] at hnext
  split at hnext
  case h_2 => cases hnext
  next e he =>
  split at hnext
  · cases hnext
    apply habandoned.setProgram
    rintro _ ⟨⟩ hholds
    cases hholds.2
  · next hphase =>
    obtain ⟨⟨l, e', o'⟩, hadvance, heq⟩ := Option.bind_eq_some_iff.mp hnext
    cases heq
    obtain ⟨rfl, -⟩ :=
      startsUp_advance (hh.starting pid e he) hphase hadvance
    apply habandoned.setProgram
    rintro _ ⟨⟩

/-- An abandoned mutex stays with its holder. -/
theorem Abandoned.next (hh : Intact h) (habandoned : Abandoned h)
    {a : HostAction} {o : Observation}
    (hnext : h.next getopt config a = some (t, o)) :
    t.owner = h.owner ∧ Abandoned t := by
  cases a with
  | serve data fork =>
      obtain ⟨⟨hfree, -⟩, -⟩ := Option.ite_none_right_eq_some.mp hnext
      obtain ⟨holder, howner, -⟩ := habandoned
      rw [hfree] at howner
      cases howner
  | startUp pid => exact habandoned.startUp hh hnext
  | startUpFailure pid =>
      simp only [Host.next] at hnext
      split at hnext
      case h_2 => cases hnext
      obtain ⟨-, heq⟩ := Option.ite_none_left_eq_some.mp hnext
      cases heq
      apply habandoned.setProgram
      rintro _ ⟨⟩
  | main pid => exact habandoned.main hh hnext
  | reap pid =>
      obtain ⟨p, -, hrest⟩ := Option.bind_eq_some_iff.mp hnext
      obtain ⟨-, heq⟩ := Option.ite_none_right_eq_some.mp hrest
      cases heq
      apply habandoned.setProgram
      rintro _ ⟨⟩
  | timeout pid => exact habandoned.threadStep hh hnext
  | waitError pid => exact habandoned.threadStep hh hnext
  | stream pid => exact habandoned.threadStep hh hnext
  | fail pid => exact habandoned.threadStep hh hnext
  | wake pid => exact habandoned.threadStep hh hnext

theorem exists_unlock (hr : h.programs pid = some (.running r))
    (halive : r.process.termination = none)
    (hmain : r.process.main = .unlockList ∨ r.process.main = .unlockRemove) :
    ∃ u o, h.next getopt config (.main pid) = some (u, o) ∧
      u.owner = none := by
  rcases hmain with hpc | hpc
  all_goals
    simp [Host.next, hr, Running.main, Running.step, Process.next, halive,
      Process.act, Process.mainStep, hpc, Host.finish, Host.handOver]

theorem exists_access (hh : Intact h) (h2 : 2 ≤ N) (hN : N ≤ 32767)
    (hr : h.programs pid = some (.running r))
    (halive : r.process.termination = none)
    (hmain : r.process.main = .fetch ∨ r.process.main = .remove) :
    ∃ u o r', h.next getopt config (.main pid) = some (u, o) ∧
      u.programs pid = some (.running r') ∧
      r'.process.termination = none ∧
      (r'.process.main = .unlockList ∨ r'.process.main = .unlockRemove) := by
  rcases hmain with hpc | hpc
  · obtain ⟨node, hfetch, -⟩ :=
      hh.wellFormed.fetchElement_spec r.process.conf.port
    simp [Host.next, hr, Running.main, Running.step, Process.next, halive,
      Process.act, hpc, hfetch, Host.finish, Host.handOver]
  · obtain ⟨rc, l', hremove, -⟩ :=
      hh.wellFormed.removeElement_spec h2 hN r.process.conf.port
    simp [Host.next, hr, Running.main, Running.step, Process.next, halive,
      Process.act, Process.mainStep, hpc, hremove, Host.finish, Host.handOver]

/-- The holder of a mutex that is not abandoned frees it within two of its own
statements. -/
theorem Intact.released (ht : Intact t) (h2 : 2 ≤ N) (hN : N ≤ 32767)
    (howner : t.owner = some pid) (hheld : ¬ Abandoned t) :
    ∃ es' u, Run (HostStep getopt config) t es' u ∧ es'.length ≤ 2 ∧
      (∀ e ∈ es', e.1 = .main pid) ∧ u.owner = none := by
  obtain ⟨r, hr, halive, hholding⟩ :
      ∃ r, t.programs pid = some (.running r) ∧ Holding r := by
    by_contra hnone
    exact hheld ⟨pid, howner, fun r hr hholds => hnone ⟨r, hr, hholds⟩⟩
  have hsection : (r.process.main = .fetch ∨ r.process.main = .remove) ∨
      r.process.main = .unlockList ∨ r.process.main = .unlockRemove := by
    revert hholding
    cases r.process.main <;> simp [holding]
  rcases hsection with hmain | hmain
  · obtain ⟨s, o, x, hnext, hx, hlive, hmain'⟩ :=
      exists_access ht h2 hN hr halive hmain
    obtain ⟨u, o', hlast, hfree⟩ := exists_unlock hx hlive hmain'
    refine ⟨[(.main pid, o), (.main pid, o')], u,
      Run.cons hnext (Run.single hlast), by simp, ?_, hfree⟩
    intro e he
    rcases List.mem_pair.mp he with rfl | rfl
    · rfl
    · rfl
  · obtain ⟨u, o, hlast, hfree⟩ := exists_unlock hr halive hmain
    refine ⟨[(.main pid, o)], u, Run.single hlast, by simp, ?_, hfree⟩
    intro e he
    obtain rfl := List.mem_singleton.mp he
    rfl

/-- An abandoned mutex stays locked in every run from there on. -/
theorem Abandoned.run (ht : Intact t) (habandoned : Abandoned t) (h2 : 2 ≤ N)
    (hN : N ≤ 32767) {u : Host N} (hrun : Run (HostStep getopt config) t es u) :
    u.owner = t.owner ∧ Abandoned u := by
  have hkept : Intact u ∧ u.owner = t.owner ∧ Abandoned u := by
    apply hrun.invariant
      (P := fun u => Intact u ∧ u.owner = t.owner ∧ Abandoned u)
      ⟨ht, rfl, habandoned⟩
    rintro s ⟨a, o⟩ v ⟨hs, howner, hab⟩ hstep
    obtain ⟨hsame, hab'⟩ := hab.next hs hstep
    exact ⟨hs.next h2 hN hstep, hsame.trans howner, hab'⟩
  exact hkept.2

/-- After any run, unless the mutex of the registry is abandoned, its holder
frees it within two of its own statements; and once it is abandoned, it is never
free again, so that the worker serves no further request. -/
theorem registry_released (h2 : 2 ≤ N) (hN : N ≤ 32767) (mem : SharedLst N)
    (hrun : Run (HostStep getopt config) (Host.initial mem) es t) :
    (∀ pid, t.owner = some pid → ¬ Abandoned t →
      ∃ es' u, Run (HostStep getopt config) t es' u ∧ es'.length ≤ 2 ∧
        (∀ e ∈ es', e.1 = .main pid) ∧ u.owner = none) ∧
    (Abandoned t → ∀ es' u, Run (HostStep getopt config) t es' u →
      u.owner = t.owner ∧
        ∀ data fork, u.next getopt config (.serve data fork) = none) := by
  have ht := intact_of_run h2 hN mem hrun
  constructor
  · intro pid howner hheld
    exact ht.released h2 hN howner hheld
  · intro habandoned es' u hrun'
    obtain ⟨howner, holder, hholder, -⟩ := habandoned.run ht h2 hN hrun'
    refine ⟨howner, ?_⟩
    intro data fork
    simp [Host.next, hholder]

/-- The stream thread fails while `main` has the mutex locked. -/
def hostStepsToAbandon : List HostAction :=
  [.serve (clientRequest 400) (some 7)] ++ List.replicate 5 (.startUp 7) ++
    [.serve (clientRequest 600) none, .main 7, .main 7, .fail 7, .stream 7,
      .reap 7]

/-- The process that took the mutex with it is reaped, and the worker serves no
request any more. -/
theorem registry_released_abandoned : ∃ t es,
    Run (HostStep exactGetoptLong defaultConfig)
        (Host.initial (zeroSegment 2)) es t ∧
      es.map Prod.fst = hostStepsToAbandon ∧ t.owner = some 7 ∧
      t.programs 7 = none ∧
      ∀ es' u, Run (HostStep exactGetoptLong defaultConfig) t es' u →
        u.owner = t.owner ∧ ∀ data fork,
          u.next exactGetoptLong defaultConfig (.serve data fork) = none := by
  obtain ⟨t, es, hrun, hactions, htest⟩ := exists_run_of_exec
    (Host.next exactGetoptLong defaultConfig) (Host.initial (zeroSegment 2))
    hostStepsToAbandon
    (fun r => decide (r.1.owner = some 7) && (r.1.programs 7).isNone)
    (by decide +kernel)
  obtain ⟨howner, hgone⟩ := Bool.and_eq_true_iff.mp htest
  have howner := of_decide_eq_true howner
  have hgone := Option.isNone_iff_eq_none.mp hgone
  refine ⟨t, es, hrun, hactions, howner, hgone, ?_⟩
  apply (registry_released (by decide) (by decide) (zeroSegment 2) hrun).2
  refine ⟨7, howner, ?_⟩
  intro r hr
  rw [hgone] at hr
  cases hr

end Runs

end SippScen.MediaHost
