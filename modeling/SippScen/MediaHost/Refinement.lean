import SippScen.MediaHost.Host
import SippScen.MediaHost.Reuse
import SippScen.MediaHost.StartUp

/-!
# From phases to threads

The host with the threads of its endpoints refines the system in which an
endpoint is a phase of its `main`: every step of the host is matched by steps of
the system with the same visible events.  What holds in every run of the system
holds in every run of the host.
-/

namespace SippScen.MediaHost

open SippScen.Support SippScen.SharedList SippScen.MediaServer
open SippScen.MediaEndpoint (Process Report GetoptLong alive_of_next
  next_keepsMain)

variable {N : ℕ} {getopt : GetoptLong} {config : ServerConfig}

/-! ## One endpoint -/

/-- What `System` lets an endpoint do in one step, or not at all. -/
inductive Move (getopt : GetoptLong) (config : ServerConfig)
    (l : SharedLst N) (e : Endpoint N) :
    SharedLst N → Endpoint N → Observation → Prop
  | stay (e' : Endpoint N) (h : e' = e) : Move getopt config l e l e' .silent
  | advance (l' : SharedLst N) (e' : Endpoint N) (o : Observation)
      (h : e.advance getopt config l = some (l', e', o)) :
      Move getopt config l e l' e' o
  | timeout (e' : Endpoint N) (hphase : e.phase = .waiting)
      (hpending : e.pending = 0) (h : e' = e.enter .timedOut) :
      Move getopt config l e l e' .silent
  | crash (e' : Endpoint N) (hphase : e.phase.ended = false)
      (h : e' = e.enter .crashed) : Move getopt config l e l e' .silent

theorem Move.of_succ {l : SharedLst N} {e e' : Endpoint N} {p : Phase N}
    (hsucc : e.phase.succ = some p) (h : e' = e.enter p) :
    Move getopt config l e l e' .silent := by
  rw [h]
  refine .advance _ _ _ ?_
  unfold Endpoint.advance
  revert hsucc
  cases e.phase <;> rintro ⟨⟩ <;> rfl

section Move

variable {l l' : SharedLst N} {r r' : Running N} {q : Process}
  {a : MediaEndpoint.Action} {report : Report}

theorem step_eq_some (h : r.step a = some (r', report)) :
    ∃ q, r.process.next a = some (q, report) ∧
      r' = { r with process := q } := by
  obtain ⟨⟨q, report'⟩, hnext, heq⟩ := Option.map_eq_some_iff.mp h
  cases heq
  exact ⟨q, hnext, rfl⟩

theorem phase_of_terminated (h : r.process.termination ≠ none) :
    r.phase = .exited ∨ r.phase = .crashed := by
  unfold Running.phase
  split
  · exact Or.inl rfl
  · exact Or.inr rfl
  · next hnone => exact absurd hnone h

theorem phase_of_alive (h : r.process.termination = none) :
    r.phase.ended = false ∧ r.phase.vulnerable = false := by
  unfold Running.phase
  rw [h]
  cases r.process.main <;> exact ⟨rfl, rfl⟩

theorem endpoint_congr (hconf : q.conf = r.process.conf)
    (hpending : q.pending = r.process.pending)
    (hphase : ({ r with process := q } : Running N).phase = r.phase) :
    ({ r with process := q } : Running N).endpoint = r.endpoint := by
  unfold Running.endpoint
  rw [hphase]
  simp only [hconf, hpending]

theorem endpoint_enter {p : Phase N} (hconf : q.conf = r.process.conf)
    (hpending : q.pending = r.process.pending)
    (hphase : ({ r with process := q } : Running N).phase = p) :
    ({ r with process := q } : Running N).endpoint = r.endpoint.enter p := by
  unfold Running.endpoint Endpoint.enter
  rw [hphase]
  simp only [hconf, hpending]

theorem Move.of_stream (ha : a.OfStream) (h : r.step a = some (r', report)) :
    Move getopt config l r.endpoint l r'.endpoint (Host.observe report) := by
  obtain ⟨q, hnext, rfl⟩ := step_eq_some h
  have hkeeps := next_keepsMain ha hnext
  have halive := alive_of_next hnext
  have hsilent : Host.observe report = .silent := by
    rcases hkeeps.report with rfl | ⟨data, rfl⟩
    · rfl
    · rfl
  rw [hsilent]
  rcases hkeeps.termination with hsame | ⟨-, -, -, hdead⟩
  · apply Move.stay
    apply endpoint_congr hkeeps.conf hkeeps.pending
    simp only [Running.phase, Running.pointer, hsame, hkeeps.main,
      hkeeps.found]
  · apply Move.crash _ (phase_of_alive halive).1
    apply endpoint_enter hkeeps.conf hkeeps.pending
    simp only [Running.phase, hdead]

theorem Move.of_mainStep (halive : r.process.termination = none)
    (hfetch : r.process.main ≠ .fetch) (hcopy : r.process.main ≠ .copy)
    (hremove : r.process.main ≠ .remove)
    (h : r.process.mainStep = some (q, report)) :
    Move getopt config l r.endpoint l
      ({ r with process := q } : Running N).endpoint (Host.observe report) := by
  have hphase : r.endpoint.phase = r.phase := rfl
  cases hmain : r.process.main
  all_goals simp only [Process.mainStep, hmain] at h
  case waiting =>
    cases hpending : r.process.pending with
    | zero =>
        rw [hpending] at h
        cases h
    | succ n =>
        rw [hpending] at h
        cases h
        refine .advance _ _ _ ?_
        have hwaiting : r.endpoint.phase = .waiting := by
          simp [hphase, Running.phase, halive, hmain]
        have hn : r.endpoint.pending = n + 1 := hpending
        simp only [Endpoint.advance, hwaiting, hn]
        simp [Running.endpoint, Running.phase, halive, Host.observe]
  case join =>
    have hsucc : r.endpoint.phase.succ = some .joined := by
      simp [hphase, Running.phase, halive, hmain, Phase.succ]
    split at h
    · cases h
      exact Move.of_succ hsucc
        (endpoint_enter rfl rfl (by simp [Running.phase, halive]))
    · cases h
  case finish =>
    have hsucc : r.endpoint.phase.succ = some .exited := by
      simp [hphase, Running.phase, halive, hmain, Phase.succ]
    cases h
    exact Move.of_succ hsucc (endpoint_enter rfl rfl rfl)
  case fetch => exact absurd hmain hfetch
  case copy => exact absurd hmain hcopy
  case remove => exact absurd hmain hremove
  all_goals
    try split at h
    all_goals cases h
    all_goals
      exact .stay _ (endpoint_congr (by simp) (by simp)
        (by simp [Running.phase, Running.pointer, halive, hmain]))

theorem mainStep_of_step (h : r.step .main = some (r', report)) :
    r.process.termination = none ∧ ∃ q,
      r.process.mainStep = some (q, report) ∧ r' = { r with process := q } := by
  obtain ⟨q, hnext, rfl⟩ := step_eq_some h
  have halive := alive_of_next hnext
  replace hnext := Process.act_of_next hnext
  exact ⟨halive, q, hnext, rfl⟩

theorem Move.of_fetch {node : Option (Fin N)}
    (hmain : r.process.main = .fetch)
    (hfetch : l.fetchElement r.process.conf.port = some node)
    (h : r.step (.fetch node.isSome) = some (r', report)) :
    Move getopt config l r.endpoint l
      ({ r' with newConf := node } : Running N).endpoint
      (Host.observe report) := by
  obtain ⟨q, hnext, rfl⟩ := step_eq_some h
  have halive := alive_of_next hnext
  replace hnext := Process.act_of_next hnext
  obtain ⟨-, heq⟩ := Option.ite_none_right_eq_some.mp hnext
  cases heq
  have hphase : r.endpoint.phase = .signalled := by
    simp [Running.endpoint, Running.phase, halive, hmain]
  have hport : r.endpoint.conf.port = r.process.conf.port := rfl
  refine .advance _ _ _ ?_
  simp only [Endpoint.advance, hphase, hport, hfetch, Option.bind_eq_bind,
    Option.bind_some]
  cases node <;>
    simp [Running.endpoint, Running.phase, Running.pointer, halive,
      Endpoint.enter, Host.observe]

theorem Move.of_copy (hmain : r.process.main = .copy)
    (h : r.copyEntry l = some (r', report)) :
    Move getopt config l r.endpoint l r'.endpoint (Host.observe report) := by
  unfold Running.copyEntry at h
  cases hpointer : r.pointer with
  | none =>
      rw [hpointer] at h
      obtain ⟨halive, q, hstep, rfl⟩ := mainStep_of_step h
      have hphase : r.endpoint.phase = .fetched none := by
        simp [Running.endpoint, Running.phase, halive, hmain, hpointer]
      simp only [Process.mainStep, hmain] at hstep
      split at hstep
      · cases hstep
      · cases hstep
        refine .advance _ _ _ ?_
        simp only [Endpoint.advance, hphase]
        rfl
  | some node =>
      rw [hpointer] at h
      obtain ⟨q, hnext, rfl⟩ := step_eq_some h
      have halive := alive_of_next hnext
      have hphase : r.endpoint.phase = .fetched (some node) := by
        simp [Running.endpoint, Running.phase, halive, hmain, hpointer]
      replace hnext := Process.act_of_next hnext
      obtain ⟨-, heq⟩ := Option.ite_none_right_eq_some.mp hnext
      cases heq
      refine .advance _ _ _ ?_
      simp only [Endpoint.advance, hphase]
      simp [Running.endpoint, Running.phase, halive, Endpoint.enter,
        Endpoint.setConf, Host.observe]

theorem Move.of_remove {rc : Rc} (hmain : r.process.main = .remove)
    (hremove : l.removeElement r.process.conf.port = some (rc, l'))
    (h : r.step .main = some (r', report)) :
    Move getopt config l r.endpoint l' r'.endpoint (Host.observe report) := by
  obtain ⟨halive, q, hstep, rfl⟩ := mainStep_of_step h
  have hphase : r.endpoint.phase = .joined := by
    simp [Running.endpoint, Running.phase, halive, hmain]
  have hport : r.endpoint.conf.port = r.process.conf.port := rfl
  simp only [Process.mainStep, hmain] at hstep
  cases hstep
  refine .advance _ _ _ ?_
  simp only [Endpoint.advance, hphase, hport, hremove, Option.bind_eq_bind,
    Option.bind_some]
  simp [Running.endpoint, Running.phase, halive, Endpoint.enter, Host.observe]

theorem Move.of_main (h : r.main l = some (l', r', report)) :
    Move getopt config l r.endpoint l' r'.endpoint (Host.observe report) := by
  unfold Running.main at h
  split at h
  · next hmain =>
    obtain ⟨node, hfetch, hrest⟩ := Option.bind_eq_some_iff.mp h
    obtain ⟨⟨r₁, report₁⟩, hstep, heq⟩ := Option.bind_eq_some_iff.mp hrest
    cases heq
    exact Move.of_fetch hmain hfetch hstep
  · next hmain =>
    obtain ⟨⟨r₁, report₁⟩, hstep, heq⟩ := Option.bind_eq_some_iff.mp h
    cases heq
    exact Move.of_copy hmain hstep
  · next hmain =>
    obtain ⟨⟨rc, l₁⟩, hremove, hrest⟩ := Option.bind_eq_some_iff.mp h
    obtain ⟨⟨r₁, report₁⟩, hstep, heq⟩ := Option.bind_eq_some_iff.mp hrest
    cases heq
    exact Move.of_remove hmain hremove hstep
  · next hfetch hcopy hremove =>
    obtain ⟨⟨r₁, report₁⟩, hstep, heq⟩ := Option.bind_eq_some_iff.mp h
    cases heq
    obtain ⟨halive, q, hmain, rfl⟩ := mainStep_of_step hstep
    exact Move.of_mainStep halive hfetch hcopy hremove hmain

theorem Move.of_wait (ha : a = .timeout ∨ a = .waitError)
    (h : r.step a = some (r', report)) :
    Move getopt config l r.endpoint l r'.endpoint (Host.observe report) := by
  obtain ⟨q, hnext, rfl⟩ := step_eq_some h
  have halive := alive_of_next hnext
  replace hnext := Process.act_of_next hnext
  rcases ha with rfl | rfl
  · obtain ⟨⟨hmain, hpending⟩, heq⟩ := Option.ite_none_right_eq_some.mp hnext
    cases heq
    have hphase : r.endpoint.phase = .waiting := by
      simp [Running.endpoint, Running.phase, halive, hmain]
    apply Move.timeout _ hphase hpending
    exact endpoint_enter rfl rfl (by simp [Running.phase, halive])
  · obtain ⟨-, heq⟩ := Option.ite_none_right_eq_some.mp hnext
    cases heq
    apply Move.crash _ (phase_of_alive halive).1
    exact endpoint_enter rfl rfl rfl

end Move

theorem Program.endpoint_deliver (p : Program N) :
    p.deliver.endpoint = p.endpoint.deliver := by
  cases p with
  | starting e => rfl
  | running r =>
      change (((r.step .signal).map Prod.fst).getD r).endpoint =
        r.endpoint.deliver
      by_cases halive : r.process.termination = none
      · obtain ⟨hended, hvulnerable⟩ := phase_of_alive halive
        have hdeliver : r.endpoint.deliver =
            { r.endpoint with pending := r.endpoint.pending + 1 } := by
          unfold Endpoint.deliver
          rw [if_neg (by rw [Bool.not_eq_true]; exact hended),
            if_neg (by rw [Bool.not_eq_true]; exact hvulnerable)]
        rw [Running.step, Process.next, if_pos halive]
        exact hdeliver.symm
      · have hended : r.phase.ended = true := by
          rcases phase_of_terminated halive with hphase | hphase
          · rw [hphase]
            rfl
          · rw [hphase]
            rfl
        have hdeliver : r.endpoint.deliver = r.endpoint := if_pos hended
        rw [Running.step, Process.next, if_neg halive]
        exact hdeliver.symm

/-! ## The host refines the system -/

/-- A step that others can tell from one of `System`. -/
def Event.visible : Event → Option Event :=
  Option.guard fun event => event.2 ≠ .silent

/-- The endpoint that acts; the worker is not one of them. -/
def HostAction.actor : HostAction → Option ℤ
  | .serve _ _ => none
  | .startUp pid | .startUpFailure pid | .main pid | .timeout pid
  | .waitError pid | .stream pid | .fail pid | .wake pid | .reap pid => some pid

/-- The event of `System` that a step of the host is seen as. -/
def hostEvent : HostAction × Observation → Option Event
  | (.serve data fork, o) => some (.serve data fork, o)
  | (a, .copied data) => a.actor.map fun pid => (.advance pid, .copied data)
  | _ => none

section Simulation

variable {h t : Host N} {pid : ℤ} {o : Observation}

theorem system_update (h : Host N) (pid : ℤ) (p : Option (Program N)) :
    (fun i => (Function.update h.programs pid p i).map Program.endpoint) =
      Function.update h.system.procs pid (p.map Program.endpoint) :=
  map_update Program.endpoint h.programs pid p

theorem system_afterServe (h : Host N) (v : Served N) :
    (h.afterServe v).system = h.system.afterServe v := by
  have hsignal : ∀ signalled, { h with programs := h.signal signalled }.system =
      { h.system with procs := h.system.signal signalled } := by
    intro signalled
    cases signalled with
    | none => rfl
    | some pid =>
        have hdeliver : ((h.programs pid).map Program.deliver).map
              Program.endpoint =
            ((h.programs pid).map Program.endpoint).map Endpoint.deliver := by
          cases h.programs pid with
          | none => rfl
          | some p => exact congrArg some p.endpoint_deliver
        have hupdate := system_update h pid
          ((h.programs pid).map Program.deliver)
        rw [hdeliver] at hupdate
        exact congrArg (System.mk h.list) hupdate
  cases hlaunched : v.launched with
  | none =>
      have hprocs := congrArg System.procs (hsignal v.signalled)
      simp only [Host.afterServe, System.afterServe, hlaunched, System.spawn]
      exact congrArg (System.mk v.list) hprocs
  | some child =>
      have hprocs := congrArg System.procs (hsignal v.signalled)
      have hupdate := system_update
        { h with programs := h.signal v.signalled } child.1
        (some (.starting (Endpoint.child child.2)))
      rw [hprocs] at hupdate
      simp only [Host.afterServe, System.afterServe, hlaunched, System.spawn]
      exact congrArg (System.mk v.list) hupdate

variable {ok : System N → Event → Prop}

/-- The steps of the system that match one step of the host. -/
def Matched (getopt : GetoptLong) (config : ServerConfig)
    (ok : System N → Event → Prop) (s u : System N) (event : Option Event) :
    Prop :=
  ∃ es, Run (Restrict (Step getopt config) ok) s es u ∧
    es.filterMap Event.visible = event.toList

theorem Matched.silent {s u : System N} {a : Action} (hok : ok s (a, .silent))
    (hnext : s.next getopt config a = some (u, .silent)) :
    Matched getopt config ok s u none :=
  ⟨[(a, .silent)], Run.single ⟨hnext, hok⟩, by simp [Event.visible]⟩

theorem Matched.loud {s u : System N} {event : Event} (hok : ok s event)
    (hnext : Step getopt config s event u) (hloud : event.2 ≠ .silent) :
    Matched getopt config ok s u (some event) :=
  ⟨[event], Run.single ⟨hnext, hok⟩, by simp [Event.visible, hloud]⟩

/-- What a move is seen as. -/
def moveEvent (pid : ℤ) : Observation → Option Event
  | .copied data => some (.advance pid, .copied data)
  | _ => none

/-- A move of one endpoint is a step of the system, or none. -/
theorem Move.matched {l : SharedLst N} {e e' : Endpoint N} {s : System N}
    (hquiet : ∀ s a o, Action.actor a ≠ none → ok s (a, o))
    (he : s.procs pid = some e) (hmove : Move getopt config s.list e l e' o) :
    Matched getopt config ok s
      (({ s with list := l } : System N).setProc pid (some e'))
      (moveEvent pid o) := by
  cases hmove with
  | stay _ heq =>
      refine ⟨[], ?_, rfl⟩
      have hsame : Function.update s.procs pid (some e') = s.procs := by
        rw [heq, ← he, Function.update_eq_self]
      rw [System.setProc, hsame]
      exact Run.nil
  | advance _ _ _ hadvance =>
      have hnext : s.next getopt config (.advance pid) =
          some (({ s with list := l } : System N).setProc pid (some e'), o) := by
        simp [System.next, he, hadvance]
      have hok := hquiet s (.advance pid) o (Option.some_ne_none _)
      have hcases := advance_cases hadvance
      cases hcases with
      | copy i hphase => exact Matched.loud hok hnext (by simp)
      | _ => exact Matched.silent hok hnext
  | timeout _ hphase hpending heq =>
      refine Matched.silent (a := .timeout pid)
        (hquiet _ _ _ (Option.some_ne_none _)) ?_
      simp [System.next, he, hphase, hpending, heq]
  | crash _ hphase heq =>
      refine Matched.silent (a := .crash pid)
        (hquiet _ _ _ (Option.some_ne_none _)) ?_
      simp [System.next, he, hphase, heq]

theorem system_finish {l : SharedLst N} {r : Running N} {report : Report}
    (hfinish : h.finish pid l r report = some (t, o)) :
    o = Host.observe report ∧
      t.system = ({ h.system with list := l } : System N).setProc pid
        (some r.endpoint) := by
  obtain ⟨owner, -, heq⟩ := Option.bind_eq_some_iff.mp hfinish
  cases heq
  exact ⟨rfl, congrArg (System.mk l) (system_update h pid _)⟩

theorem hostEvent_of_actor {a : HostAction} (ha : a.actor = some pid) :
    hostEvent (a, o) = moveEvent pid o := by
  cases a with
  | serve data fork => cases ha
  | _ => cases ha; cases o <;> rfl

theorem procs_of_program {p : Program N} (hp : h.programs pid = some p) :
    h.system.procs pid = some p.endpoint := by
  simp [Host.system, hp]

theorem matched_of_finish {l : SharedLst N} {r r' : Running N}
    {report : Report} (hquiet : ∀ s a o, Action.actor a ≠ none → ok s (a, o))
    (hp : h.programs pid = some (.running r))
    (hmove : Move getopt config h.list r.endpoint l r'.endpoint
      (Host.observe report))
    (hfinish : h.finish pid l r' report = some (t, o)) :
    Matched getopt config ok h.system t.system (moveEvent pid o) := by
  obtain ⟨rfl, heq⟩ := system_finish hfinish
  rw [heq]
  exact Move.matched hquiet (procs_of_program hp) hmove

theorem threadStep_cases {a : MediaEndpoint.Action}
    (hstep : h.threadStep pid a = some (t, o)) :
    ∃ r r' report, h.programs pid = some (.running r) ∧
      r.step a = some (r', report) ∧
      h.finish pid h.list r' report = some (t, o) := by
  unfold Host.threadStep at hstep
  split at hstep
  · next r hp =>
    obtain ⟨⟨r', report⟩, hr, hfinish⟩ := Option.bind_eq_some_iff.mp hstep
    exact ⟨r, r', report, hp, hr, hfinish⟩
  · cases hstep

theorem serve_matched {data : Data} {fork : Option ℤ}
    (hstep : h.next getopt config (.serve data fork) = some (t, o))
    (hok : ok h.system (.serve data fork, o)) :
    Matched getopt config ok h.system t.system (some (.serve data fork, o)) := by
  obtain ⟨⟨-, hforkable⟩, hrest⟩ := Option.ite_none_right_eq_some.mp hstep
  obtain ⟨v, hserve, heq⟩ := Option.bind_eq_some_iff.mp hrest
  cases heq
  refine Matched.loud hok ?_ (by simp)
  have hlist : h.system.list = h.list := rfl
  simp [Step, StepOf, System.next, hforkable, hlist, hserve,
    system_afterServe]

theorem start_matched (hquiet : ∀ s a o, Action.actor a ≠ none → ok s (a, o))
    {e : Endpoint N} (hp : h.programs pid = some (.starting e))
    (hphase : e.phase = .blocked) :
    Matched getopt config ok h.system
      (h.setProgram pid (some (.running (.start e)))).system none := by
  have hproc : h.system.procs pid = some e := procs_of_program hp
  let started := h.system.setProc pid (some (e.defaultDuration.enter .started))
  have hfirst : h.system.next getopt config (.advance pid) =
      some (started, .silent) := by
    simp only [System.next, hproc, Option.bind_eq_bind, Option.bind_some,
      Endpoint.advance, hphase]
    rfl
  have hsecond : started.next getopt config (.advance pid) =
      some ((h.setProgram pid (some (.running (.start e)))).system,
        .silent) := by
    have hstarted : started.procs pid =
        some (e.defaultDuration.enter .started) := Function.update_self _ _ _
    have hwaiting : (h.setProgram pid (some (.running (.start e)))).system =
        started.setProc pid
          (some ((e.defaultDuration.enter .started).enter .waiting)) := by
      refine (congrArg (System.mk h.list) (system_update h pid _)).trans ?_
      simp only [started, System.setProc, Function.update_idem]
      rfl
    rw [hwaiting]
    simp only [System.next, hstarted, Option.bind_eq_bind, Option.bind_some,
      Endpoint.advance, Endpoint.enter_phase]
    rfl
  refine ⟨[(.advance pid, .silent), (.advance pid, .silent)], ?_, rfl⟩
  refine Run.cons ⟨hfirst, ?_⟩ (Run.single ⟨hsecond, ?_⟩)
  · exact hquiet _ _ _ (Option.some_ne_none _)
  · exact hquiet _ _ _ (Option.some_ne_none _)

theorem matched_of_starting {l : SharedLst N} {e e' : Endpoint N}
    (hquiet : ∀ s a o, Action.actor a ≠ none → ok s (a, o))
    (hp : h.programs pid = some (.starting e))
    (hmove : Move getopt config h.list e l e' o) :
    Matched getopt config ok h.system
      (({ h with list := l } : Host N).setProgram pid
        (some (.starting e'))).system (moveEvent pid o) := by
  have hsystem : (({ h with list := l } : Host N).setProgram pid
      (some (.starting e'))).system =
      ({ h.system with list := l } : System N).setProc pid (some e') :=
    congrArg (System.mk l) (system_update h pid _)
  rw [hsystem]
  exact Move.matched hquiet (procs_of_program hp) hmove

theorem startUp_matched (hquiet : ∀ s a o, Action.actor a ≠ none → ok s (a, o))
    (hstep : h.next getopt config (.startUp pid) = some (t, o)) :
    Matched getopt config ok h.system t.system (moveEvent pid o) := by
  simp only [Host.next] at hstep
  split at hstep
  · next e hp =>
    split at hstep
    · next hphase =>
      cases hstep
      exact start_matched hquiet hp hphase
    · obtain ⟨⟨l, e', o'⟩, hadvance, heq⟩ := Option.bind_eq_some_iff.mp hstep
      cases heq
      exact matched_of_starting hquiet hp (.advance _ _ _ hadvance)
  · cases hstep

theorem startUpFailure_matched
    (hquiet : ∀ s a o, Action.actor a ≠ none → ok s (a, o))
    (hstep : h.next getopt config (.startUpFailure pid) = some (t, o)) :
    Matched getopt config ok h.system t.system (moveEvent pid o) := by
  simp only [Host.next] at hstep
  split at hstep
  · next e hp =>
    obtain ⟨hended, heq⟩ := Option.ite_none_left_eq_some.mp hstep
    cases heq
    exact matched_of_starting hquiet hp
      (.crash _ (Bool.eq_false_iff.mpr hended) rfl)
  · cases hstep

theorem main_matched (hquiet : ∀ s a o, Action.actor a ≠ none → ok s (a, o))
    (hstep : h.next getopt config (.main pid) = some (t, o)) :
    Matched getopt config ok h.system t.system (moveEvent pid o) := by
  simp only [Host.next] at hstep
  split at hstep
  · next r hp =>
    obtain ⟨⟨l, r', report⟩, hmain, hfinish⟩ :=
      Option.bind_eq_some_iff.mp hstep
    exact matched_of_finish hquiet hp (Move.of_main hmain) hfinish
  · cases hstep

theorem threadStep_matched
    (hquiet : ∀ s a o, Action.actor a ≠ none → ok s (a, o))
    {a : MediaEndpoint.Action}
    (ha : a.OfStream ∨ a = .timeout ∨ a = .waitError)
    (hstep : h.threadStep pid a = some (t, o)) :
    Matched getopt config ok h.system t.system (moveEvent pid o) := by
  obtain ⟨r, r', report, hp, hr, hfinish⟩ := threadStep_cases hstep
  refine matched_of_finish hquiet hp ?_ hfinish
  rcases ha with hstream | hwait
  · exact Move.of_stream hstream hr
  · exact Move.of_wait hwait hr

theorem reap_matched (hquiet : ∀ s a o, Action.actor a ≠ none → ok s (a, o))
    (hstep : h.next getopt config (.reap pid) = some (t, o)) :
    Matched getopt config ok h.system t.system (moveEvent pid o) := by
  obtain ⟨p, hp, hrest⟩ := Option.bind_eq_some_iff.mp hstep
  obtain ⟨hended, heq⟩ := Option.ite_none_right_eq_some.mp hrest
  cases heq
  refine Matched.silent (a := .reap pid)
    (hquiet _ _ _ (Option.some_ne_none _)) ?_
  have hsystem : (h.setProgram pid none).system = h.system.setProc pid none :=
    congrArg (System.mk h.list) (system_update h pid none)
  simp [System.next, procs_of_program hp, hended, hsystem]

/-- Every step of the host is matched by the system. -/
theorem host_matched (hquiet : ∀ s a o, Action.actor a ≠ none → ok s (a, o))
    {a : HostAction} (hstep : h.next getopt config a = some (t, o))
    (hok : ∀ event ∈ hostEvent (a, o), ok h.system event) :
    Matched getopt config ok h.system t.system (hostEvent (a, o)) := by
  cases a with
  | serve data fork => exact serve_matched hstep (hok _ rfl)
  | startUp pid =>
      rw [hostEvent_of_actor rfl]
      exact startUp_matched hquiet hstep
  | startUpFailure pid =>
      rw [hostEvent_of_actor rfl]
      exact startUpFailure_matched hquiet hstep
  | main pid =>
      rw [hostEvent_of_actor rfl]
      exact main_matched hquiet hstep
  | timeout pid =>
      rw [hostEvent_of_actor rfl]
      exact threadStep_matched hquiet (Or.inr (Or.inl rfl)) hstep
  | waitError pid =>
      rw [hostEvent_of_actor rfl]
      exact threadStep_matched hquiet (Or.inr (Or.inr rfl)) hstep
  | stream pid =>
      rw [hostEvent_of_actor rfl]
      exact threadStep_matched hquiet (Or.inl (Or.inl rfl)) hstep
  | fail pid =>
      rw [hostEvent_of_actor rfl]
      exact threadStep_matched hquiet (Or.inl (Or.inr (Or.inl rfl))) hstep
  | wake pid =>
      rw [hostEvent_of_actor rfl]
      exact threadStep_matched hquiet (Or.inl (Or.inr (Or.inr rfl))) hstep
  | reap pid =>
      rw [hostEvent_of_actor rfl]
      exact reap_matched hquiet hstep

/-- The condition `ok` of the system, for the steps of the host. -/
def OnHost (ok : System N → Event → Prop) (h : Host N)
    (e : HostAction × Observation) : Prop :=
  ∀ event ∈ hostEvent e, ok h.system event

instance [∀ s, DecidablePred (ok s)] (h : Host N) : DecidablePred (OnHost ok h) :=
  fun e => inferInstanceAs (Decidable (∀ event ∈ hostEvent e, _))

/-- The host refines the system, also when a condition on the requests restricts
both. -/
theorem host_refines_system
    (hquiet : ∀ s a o, Action.actor a ≠ none → ok s (a, o)) :
    Simulates (Restrict (HostStep getopt config) (OnHost ok))
      (Restrict (Step getopt config) ok) hostEvent Event.visible
      fun (h : Host N) s => h.system = s := by
  rintro h ⟨a, o⟩ t _ rfl ⟨hstep, hok⟩
  obtain ⟨es, hrun, hvisible⟩ := host_matched hquiet hstep hok
  refine ⟨es, t.system, hrun, ?_, rfl⟩
  rw [hvisible]
  cases hevent : hostEvent (a, o) <;> simp [hevent]

end Simulation

/-! ## Every run of the host -/

section Runs

variable {es : List (HostAction × Observation)} {t : Host N}

/-- What the host does is seen as a run of the system. -/
theorem run_of_hostRun {ok : System N → Event → Prop}
    (hquiet : ∀ s a o, Action.actor a ≠ none → ok s (a, o))
    (mem : SharedLst N)
    (hrun : Run (Restrict (HostStep getopt config) (OnHost ok))
      (Host.initial mem) es t) :
    ∃ es', Run (Restrict (Step getopt config) ok) (System.initial mem) es'
        t.system ∧
      es'.filter (fun event => event.2 ≠ .silent) =
        es.filterMap hostEvent := by
  obtain ⟨es', s, hrun', hvisible, rfl⟩ :=
    (host_refines_system hquiet).run hrun (t := System.initial mem) rfl
  refine ⟨es', hrun', ?_⟩
  rw [← hvisible, Event.visible, List.filterMap_eq_filter]

theorem onRequest_of_actor {ok : Data → Option (ℤ × Data) → Prop} {a : Action}
    {o : Observation} (ha : a.actor ≠ none) : OnRequest ok (a, o) := by
  cases a with
  | serve data fork => exact absurd rfl ha
  | _ => trivial

/-- The registry is exclusive also when the threads of the endpoints
interleave. -/
theorem host_exclusive (hg : MediaEndpoint.FollowsGnu getopt) (h2 : 2 ≤ N)
    (hN : N ≤ 32767) (mem : SharedLst N)
    (hrun : Run (Restrict (HostStep getopt config) (OnHost Environment))
      (Host.initial mem) es t) : Exclusive t.system := by
  obtain ⟨es', hrun', -⟩ :=
    run_of_hostRun (fun _ _ _ => onRequest_of_actor) mem hrun
  exact (consistent_of_run hg h2 hN (initial_consistent h2 hN mem)
    hrun').exclusive

theorem host_not_dropped (hg : MediaEndpoint.FollowsGnu getopt) (h2 : 2 ≤ N)
    (hN : N ≤ 32767) (mem : SharedLst N)
    (hrun : Run (Restrict (HostStep getopt config) (OnHost Orderly))
      (Host.initial mem) es t) :
    ¬ Dropped (es.filterMap hostEvent) t.system := by
  have hquiet : ∀ (s : System N) a o, Action.actor a ≠ none →
      Orderly s (a, o) := by
    intro s a o ha
    exact ⟨onRequest_of_actor ha, onRequest_of_actor ha⟩
  obtain ⟨es', hrun', hvisible⟩ := run_of_hostRun hquiet mem hrun
  have hawaits : ∀ pid record, Awaits (es.filterMap hostEvent) pid record →
      Awaits es' pid record := by
    intro pid record
    rw [← hvisible]
    apply (since_filter _).mp
    rintro ⟨a, o⟩ hsilent
    obtain rfl : o = .silent := by simpa using hsilent
    cases a <;> exact ⟨nofun, nofun, nofun⟩
  rintro ⟨pid, record, e, hold, he, hphase⟩
  exact (remembered_of_run hg h2 hN mem hrun').not_dropped
    ⟨pid, record, e, hawaits pid record hold, he, hphase⟩

theorem host_not_dropped_one : ∃ t es,
    Run (Restrict (HostStep MediaEndpoint.exactGetoptLong
        MediaEndpoint.defaultConfig) (OnHost Orderly))
      (Host.initial (zeroSegment 2)) es t ∧
      (t.system.procs 7).map Endpoint.phase = some .exited ∧
      t.list.records = [] ∧ ¬ Dropped (es.filterMap hostEvent) t.system := by
  obtain ⟨t, es, hrun, -, htest⟩ := exists_restricted_run_of_exec
    (Host.next MediaEndpoint.exactGetoptLong MediaEndpoint.defaultConfig)
    (OnHost Orderly) (Host.initial (zeroSegment 2))
    ([.serve (MediaEndpoint.serverRequest 21000 10000) (some 7)] ++
      List.replicate 5 (.startUp 7) ++ List.replicate 7 (.stream 7) ++
      [.serve (MediaEndpoint.serverRequest 21000 20000) none] ++
      List.replicate 8 (.main 7) ++ [.timeout 7] ++
      List.replicate 4 (.main 7) ++ List.replicate 2 (.stream 7) ++
      List.replicate 5 (.main 7))
    (fun r => decide ((r.1.system.procs 7).map Endpoint.phase = some .exited ∧
      r.1.list.records = [])) (by decide +kernel)
  obtain ⟨hphase, hempty⟩ := of_decide_eq_true htest
  exact ⟨t, es, hrun, hphase, hempty,
    host_not_dropped MediaEndpoint.exactGetoptLong_followsGnu (by decide)
      (by decide) (zeroSegment 2) hrun⟩

theorem host_unharmed (h2 : 2 ≤ N) (hN : N ≤ 32767) (mem : SharedLst N)
    (hrun : Run (Restrict (HostStep getopt config) (OnHost AfterStartUp))
      (Host.initial mem) es t) (pid : ℤ) (e : Endpoint N)
    (he : t.system.procs pid = some e) : e.phase ≠ .killed := by
  obtain ⟨es', hrun', -⟩ :=
    run_of_hostRun (fun _ _ _ => onRequest_of_actor) mem hrun
  exact (unharmed_of_run h2 hN mem hrun').alive pid e he

end Runs

end SippScen.MediaHost
