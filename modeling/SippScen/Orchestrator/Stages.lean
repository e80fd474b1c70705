import SippScen.Orchestrator.Prepare

/-!
# The stages of the preparation of a scenario

One specification for each stage of the loop body: what it computes, and which
of the accumulators it leaves alone.
-/

namespace SippScen.Orchestrator

open SippScen.Support Effect

variable {w : World} {run : RunConfig} {servers : Dict PyStr PyStr}
variable {name : PyStr} {scn : ScenarioConfig} {c : CallDescription}
variable {s t : Prepared}

@[simp] theorem required_eq_ok {α : Type} {f : Field α} {a : α} :
    f.required name = .ok a ↔ f = .value a := by
  cases f <;> simp [Field.required]

theorem optional_eq_some {α : Type} {f : Field α} {a : α} :
    f.optional name = .ok (some a) ↔ f = .value a := by
  cases f <;> simp [Field.optional]

@[simp] theorem returns_writeFile {path : PyStr} {content : FileContent}
    {u : Unit} :
    (writeFile w path content).Returns s u t ↔
      w.writable path = true ∧ s = t := by
  unfold writeFile
  split
  · next h => simp [h]
  · next h => simp [h]

/-- The checks that a scenario passes before its ports are recorded, with the
values found on the way: the media server answers, the template of the calls
can be rendered and its file written, and the number and the offset of the
ports are known. -/
structure Describes (w : World) (servers : Dict PyStr PyStr) (name : PyStr)
    (scn : ScenarioConfig) (ms : PyStr) (duration : ℕ) (n offset : ℤ) :
    Prop where
  rtpServer : scn.rtpServer = .value ms
  answers : ms ∈ servers.keys
  callDuration : ∃ timeSign, scn.callDuration = some timeSign ∧
    translateTimeSignature timeSign = some duration
  renders : ∃ file content, scn.scenarioFile = .value file ∧
    render w file (.call (w.callConf name
      (if ms = [] then none else servers.get? ms) duration)) = .ok content
  writable : w.writable (w.xmlFile name) = true
  nPorts : scn.nPorts (duration / 1000) = .ok n
  rtpPortOffset : scn.rtpPortOffset = .value offset

theorem chooseServer_eq_ok {ms : PyStr} {endpoint : Option PyStr}
    (hms : ms ∈ servers.keys) :
    chooseServer servers scn = .ok (some ms, endpoint) ↔
      scn.rtpServer = .value ms ∧
        endpoint = if ms = [] then none else servers.get? ms := by
  obtain ⟨found, hfound⟩ := Dict.mem_keys_iff.mp hms
  cases hserver : scn.rtpServer with
  | absent => simp [chooseServer, hserver, Field.optional, bind, Except.bind]
  | malformed =>
      simp [chooseServer, hserver, Field.optional, bind, Except.bind]
  | value chosen =>
      by_cases hempty : chosen = []
      · simp only [chooseServer, hserver, Field.optional, bind, Except.bind,
          hempty, ne_eq, not_true_eq_false, decide_false, Option.filter_some]
        grind
      · cases hchosen : servers.get? chosen with
        | none =>
            simp only [chooseServer, hserver, Field.optional, bind,
              Except.bind, Option.filter_some, ne_eq, hempty,
              not_false_eq_true, decide_true, ↓reduceIte, hchosen]
            grind
        | some endpoint =>
            simp only [chooseServer, hserver, Field.optional, bind,
              Except.bind, Option.filter_some, ne_eq, hempty,
              not_false_eq_true, decide_true, ↓reduceIte, hchosen]
            grind

theorem template_of_render {file content : PyStr} {conf : Conf}
    (h : render w file conf = .ok content) :
    ∃ template, w.template file = some template := by
  cases htemplate : w.template file with
  | none => simp [render, htemplate] at h
  | some template => exact ⟨template, rfl⟩

theorem readTime_eq_ok {field timeSign : PyStr} {time : ℕ} :
    readTime field timeSign = .ok time ↔
      translateTimeSignature timeSign = some time := by
  rw [readTime]
  cases translateTimeSignature timeSign <;> simp

/-- The description of the calls changes no accumulator; what it computes is
determined by the scenario's fields. -/
theorem returns_describeCall :
    (describeCall w servers name scn).Returns s c t ↔
      s = t ∧ ∃ endpoint file timeSign duration content n offset,
        chooseServer servers scn = .ok (c.ms, endpoint) ∧
        scn.scenarioFile = .value file ∧
        scn.callDuration = some timeSign ∧
        translateTimeSignature timeSign = some duration ∧
        render w file (.call (w.callConf name endpoint duration)) =
          .ok content ∧
        w.writable (w.xmlFile name) = true ∧
        scn.nPorts (duration / 1000) = .ok n ∧
        scn.rtpPortOffset = .value offset ∧
        c = ⟨c.ms, duration / 1000, n, offset⟩ := by
  constructor
  · intro h
    simp only [describeCall, returns_bind, returns_lift, returns_require,
      returns_writeFile, returns_pure, required_eq_ok, readTime_eq_ok,
      Prod.exists] at h
    obtain ⟨ms, endpoint, _, ⟨hserver, rfl⟩, file, _, ⟨hfile, rfl⟩, _, _,
      ⟨-, rfl⟩, timeSign, _, ⟨htime, rfl⟩, duration, _, ⟨hduration, rfl⟩,
      content, _, ⟨hrender, rfl⟩, -, _, ⟨hwritable, rfl⟩, n, _, ⟨hn, rfl⟩,
      offset, _, ⟨hoffset, rfl⟩, rfl, rfl⟩ := h
    exact ⟨rfl, endpoint, file, timeSign, duration, content, n, offset, hserver,
      hfile, htime, hduration, hrender, hwritable, hn, hoffset, rfl⟩
  · rintro ⟨rfl, endpoint, file, timeSign, duration, content, n, offset,
      hserver, hfile, htime, hduration, hrender, hwritable, hn, hoffset, hc⟩
    obtain ⟨template, htemplate⟩ := template_of_render hrender
    simp only [describeCall, returns_bind, returns_lift, returns_require,
      returns_writeFile, returns_pure, required_eq_ok, readTime_eq_ok,
      Prod.exists]
    exact ⟨c.ms, endpoint, s, ⟨hserver, rfl⟩, file, s, ⟨hfile, rfl⟩, template,
      s, ⟨htemplate, rfl⟩, timeSign, s, ⟨htime, rfl⟩, duration, s,
      ⟨hduration, rfl⟩, content, s, ⟨hrender, rfl⟩, (), s, ⟨hwritable, rfl⟩, n,
      s, ⟨hn, rfl⟩, offset, s, ⟨hoffset, rfl⟩, hc.symm, rfl⟩

/-- Before its ports are recorded, a scenario has changed nothing, whether it
failed or not. -/
theorem state_describeCall :
    (describeCall w servers name scn s).state = s := by
  have hfile : ∀ path content,
      (writeFile w path content).Preserves (· = s) := fun path content =>
    preserves_ite (preserves_emit _) (preserves_fail _)
  refine (?_ : (describeCall w servers name scn).Preserves (· = s)) s rfl
  refine preserves_bind (preserves_lift _) fun p => ?_
  refine preserves_bind (preserves_lift _) fun file => ?_
  refine preserves_bind (preserves_require _ _) fun template => ?_
  refine preserves_bind (preserves_require _ _) fun timeSign => ?_
  refine preserves_bind (preserves_lift _) fun duration => ?_
  refine preserves_bind (preserves_lift _) fun content => ?_
  refine preserves_bind (hfile _ _) fun _ => ?_
  refine preserves_bind (preserves_lift _) fun n => ?_
  exact preserves_bind (preserves_lift _) fun offset => preserves_pure _

theorem returns_recordRange {u : Unit} :
    (recordRange name c).Returns s u t ↔
      ∃ ms ranges, c.ms = some ms ∧
        s.acc.portRanges.get? ms = some ranges ∧
        t = { s with acc.portRanges := s.acc.portRanges.set ms (ranges ++
          [⟨c.portsOffset, c.portsOffset + 2 * c.nPorts - 1, name⟩]) } := by
  constructor
  · intro h
    simp only [recordRange, returns_bind, returns_require, returns_read,
      returns_change] at h
    obtain ⟨ms, _, ⟨hms, rfl⟩, _, _, ⟨rfl, rfl⟩, ranges, _, ⟨hranges, rfl⟩,
      rfl⟩ := h
    exact ⟨ms, ranges, hms, hranges, rfl⟩
  · rintro ⟨ms, ranges, hms, hranges, rfl⟩
    simp only [recordRange, returns_bind, returns_require, returns_read,
      returns_change]
    exact ⟨ms, s, ⟨hms, rfl⟩, _, s, ⟨rfl, rfl⟩, ranges, s, ⟨hranges, rfl⟩, rfl⟩

/-- Where the range cannot be recorded, nothing changes. -/
theorem state_recordRange_of_error {f : Failure}
    (h : (recordRange name c s).result = .error f) :
    (recordRange name c s).state = s := by
  cases hms : c.ms with
  | none => simp [recordRange, hms]
  | some ms =>
      cases hranges : s.acc.portRanges.get? ms with
      | none => simp [recordRange, hms, hranges]
      | some ranges =>
          have hreturns : (recordRange name c).Returns s () _ :=
            returns_recordRange.mpr ⟨ms, ranges, hms, hranges, rfl⟩
          rw [hreturns.1] at h
          exact absurd h (by simp)

/-! ## What the stages preserve -/

section

variable {P : Prepared → Prop}

theorem preserves_describeCall :
    (describeCall w servers name scn).Preserves P := by
  intro s hs
  rwa [state_describeCall]

theorem preserves_recordRange
    (hset : ∀ s ranges, P s → P { s with acc.portRanges := ranges }) :
    (recordRange name c).Preserves P := by
  refine preserves_bind (preserves_require _ _) fun ms => ?_
  refine preserves_bind (preserves_read _) fun found => ?_
  refine preserves_bind (preserves_require _ _) fun ranges => ?_
  exact preserves_change fun s hs => hset s _ hs

theorem preserves_writeFile (path : PyStr) (content : FileContent) :
    (writeFile w path content).Preserves P :=
  preserves_ite (preserves_emit _) (preserves_fail _)

theorem preserves_copyFile (source path : PyStr) :
    (copyFile w source path).Preserves P :=
  preserves_ite (preserves_emit _) (preserves_fail _)

theorem preserves_checkRegistrar (reg : RegisterConfig) :
    (checkRegistrar reg).Preserves P :=
  preserves_ite (preserves_fail _) (preserves_pure _)

theorem preserves_joinCli (cli : Cli) : (joinCli cli).Preserves P :=
  preserves_ite (preserves_pure _) (preserves_fail _)

theorem preserves_writePortsAndDns :
    (writePortsAndDns w name scn c).Preserves P := by
  refine preserves_bind (preserves_writeFile _ _) fun _ => ?_
  refine preserves_bind (preserves_lift _) fun dnStart => ?_
  refine preserves_bind (preserves_require _ _) fun offset => ?_
  exact preserves_bind (preserves_writeFile _ _) fun _ => preserves_pure _

/-- The composition of the command takes a control port and records the SIP
socket. -/
theorem preserves_composeRun
    (hport : ∀ s port, P s → P { s with nextPort := port })
    (hsockets : ∀ s sockets, P s →
      P { s with acc.sipSockets := sockets }) :
    (composeRun w run name scn).Preserves P := by
  have hcontrol : getControlPort.Preserves P := by
    refine preserves_bind (preserves_read _) fun port => ?_
    refine preserves_bind (preserves_change fun s hs => hport s _ hs) ?_
    exact fun _ => preserves_pure _
  refine preserves_bind hcontrol fun port => ?_
  refine preserves_bind (preserves_require _ _) fun primaryIp => ?_
  refine preserves_bind (preserves_lift _) fun localIp => ?_
  refine preserves_bind (preserves_require _ _) fun sipPort => ?_
  refine preserves_bind (preserves_change fun s hs => hsockets s _ hs) ?_
  intro _
  refine preserves_bind (preserves_lift _) fun receiveTm => ?_
  refine preserves_bind (preserves_lift _) fun sendTm => ?_
  refine preserves_bind (preserves_require _ _) fun type => ?_
  refine preserves_bind (preserves_require _ _) fun cps => ?_
  refine preserves_bind (preserves_lift _) fun totalCalls => ?_
  exact preserves_bind (preserves_lift _) fun cli => preserves_pure _

theorem args_of_composeCli {args : CliArgs} {cli : Cli}
    (h : composeCli args = .ok cli) : cli.args = args := by
  simp only [composeCli] at h
  split at h
  · split at h
    · simp at h
    · simp at h
    · rw [← Except.ok.inj h]
    · rw [← Except.ok.inj h]
  · split at h
    · rw [← Except.ok.inj h]
    · rw [← Except.ok.inj h]

/-- A registration as it is prepared: its command registers as many DNs as its
range holds, and its instructions ask for the expiry of the run. -/
structure Registers (w : World) (run : RunConfig) (reg : Registration) :
    Prop where
  calls : reg.cli.args.totalCalls = some (reg.dnRange.2 - reg.dnRange.1)
  expiry : ∃ file content, render w file (.register
    (regExpireSec run.runDuration)) = .ok content

theorem preserves_prepareRegister {dnStart : ℤ} {r : RunDescription}
    (hreg : ∀ s reg, P s → Registers w run reg →
      P { s with acc.dRegistrations := s.acc.dRegistrations.set name reg })
    (hunreg : ∀ s cli, P s →
      P { s with acc.dUnregistrations :=
        s.acc.dUnregistrations.set name cli }) :
    (prepareRegister w run name scn c dnStart r).Preserves P := by
  refine preserves_bind (preserves_lift _) fun reg => ?_
  cases reg with
  | none => exact preserves_pure _
  | some reg =>
      refine preserves_bind (preserves_lift _) fun file => ?_
      refine preserves_lift_bind fun content hcontent => ?_
      refine preserves_bind (preserves_writeFile _ _) fun _ => ?_
      refine preserves_bind (preserves_checkRegistrar _) fun _ => ?_
      refine preserves_lift_bind fun cli hcli => ?_
      refine preserves_bind (preserves_joinCli _) fun _ => ?_
      refine preserves_bind (preserves_change fun s hs => hreg s _ hs ?_) ?_
      · refine ⟨?_, file, content, hcontent⟩
        rw [args_of_composeCli hcli]
        simp [registerArgs]
      intro _
      refine preserves_bind (preserves_lift _) fun unregister => ?_
      split
      · exact preserves_pure _
      · refine preserves_bind (preserves_copyFile _ _) fun _ => ?_
        refine preserves_bind (preserves_lift _) fun cli => ?_
        exact preserves_change fun s hs => hunreg s cli hs

theorem preserves_recordScenario {r : RunDescription}
    (hset : ∀ s scenario, P s → scenario.type = r.type →
      scenario.pattern = none →
      P { s with acc.dScenarios := s.acc.dScenarios.set name scenario }) :
    (recordScenario name c r).Preserves P := by
  refine preserves_bind (preserves_joinCli _) fun _ => ?_
  refine preserves_bind (preserves_change fun s hs => hset s _ hs rfl rfl) ?_
  intro _
  refine preserves_bind (preserves_read _) fun cli => ?_
  cases cli with
  | none => exact preserves_pure _
  | some cli => exact preserves_joinCli cli

/-- The pattern of the scenario is accepted as `p`. -/
def ScenarioConfig.Accepts (scn : ScenarioConfig) (p : Pattern) : Prop :=
  ∃ pattern, scn.pattern = .value pattern ∧ pattern.accepted = .ok (some p)

/-- An accepted pattern is put into the scenario's own entry. -/
theorem preserves_recordPattern
    (hset : ∀ s scenario p, P s →
      s.acc.dScenarios.get? name = some scenario → scn.Accepts p →
      P { s with acc.dScenarios :=
        s.acc.dScenarios.set name { scenario with pattern := some p } }) :
    (recordPattern name scn).Preserves P := by
  refine preserves_lift_bind fun pattern hpattern => ?_
  cases pattern with
  | none => exact preserves_pure _
  | some pattern =>
      refine preserves_lift_bind fun accepted haccepted => ?_
      cases accepted with
      | none => exact preserves_pure _
      | some accepted =>
          intro s hs
          cases hscenario : s.acc.dScenarios.get? name with
          | none => simpa [hscenario] using hs
          | some scenario =>
              have haccepts : scn.Accepts accepted :=
                ⟨pattern, optional_eq_some.mp hpattern, haccepted⟩
              simpa [hscenario, change] using
                hset s scenario accepted hs hscenario haccepts

end

/-! ## The preparation of a scenario -/

/-- An entry of the configuration with the given type. -/
def ListedAs (type : PyStr) (e : Entry) : Prop :=
  ∃ scn, e.2 = some scn ∧ scn.type = some type

theorem type_of_composeRun {r : RunDescription}
    (h : (composeRun w run name scn).Returns s r t) :
    scn.type = some r.type := by
  simp only [composeRun, returns_bind, returns_lift, returns_require,
    returns_change, returns_pure] at h
  obtain ⟨port, _, -, ip, _, -, localIp, _, -, sipPort, _, -, _, _, -, tm, _,
    -, tm', _, -, type, _, ⟨htype, -⟩, cps, _, -, calls, _, -, cli, _, -,
    rfl, -⟩ := h
  exact htype

/-- A property of `dScenarios` is kept by the preparation of a scenario if it
is kept by storing the scenario with its type, and by adding the accepted
pattern. -/
theorem preserves_prepareScenario {Q : Dict PyStr Scenario → Prop} {e : Entry}
    (hset : ∀ d v, Q d → ListedAs v.type e → v.pattern = none →
      Q (d.set e.1 v))
    (hpattern : ∀ d v scn p, Q d → d.get? e.1 = some v → e.2 = some scn →
      scn.Accepts p → Q (d.set e.1 { v with pattern := some p })) :
    (prepareScenario w run servers e).Preserves
      fun s => Q s.acc.dScenarios := by
  refine preserves_bind_of_returns (preserves_require _ _) ?_
  rintro scn ⟨s, t, hscn⟩
  have hlisted : e.2 = some scn := (returns_require.mp hscn).1
  refine preserves_bind preserves_describeCall fun c => ?_
  refine preserves_bind (preserves_recordRange fun _ _ h => h) fun _ => ?_
  refine preserves_bind preserves_writePortsAndDns fun dnStart => ?_
  refine preserves_bind_of_returns
    (preserves_composeRun (fun _ _ h => h) (fun _ _ h => h)) ?_
  rintro r ⟨s, t, hrun⟩
  refine preserves_bind
    (preserves_prepareRegister (fun _ _ h _ => h) (fun _ _ h => h)) ?_
  intro _
  refine preserves_bind
    (preserves_recordScenario fun s v hs htype hnone => ?_) fun _ => ?_
  · exact hset _ v hs ⟨scn, hlisted, htype ▸ type_of_composeRun hrun⟩ hnone
  · exact preserves_recordPattern fun s v p hs hv haccepts =>
      hpattern _ v scn p hs hv hlisted haccepts

theorem get?_of_recordPattern {p : Pattern} {u : Unit}
    (haccepts : scn.Accepts p)
    (h : (recordPattern name scn).Returns s u t) :
    ∃ v, t.acc.dScenarios.get? name = some v ∧ v.pattern = some p := by
  obtain ⟨pattern, hpattern, haccepted⟩ := haccepts
  simp only [recordPattern, returns_bind, returns_lift] at h
  obtain ⟨found, _, ⟨hfound, rfl⟩, h⟩ := h
  rw [hpattern, Field.optional, Except.ok.injEq] at hfound
  subst hfound
  simp only [returns_bind, returns_lift, haccepted, Except.ok.injEq] at h
  obtain ⟨_, _, ⟨rfl, rfl⟩, h⟩ := h
  simp only [returns_bind, returns_read, returns_require, returns_change] at h
  obtain ⟨_, _, -, v, _, -, rfl⟩ := h
  exact ⟨_, Dict.get?_set_self _ _ _, rfl⟩

/-- A scenario that is prepared without failure is recorded with its accepted
pattern. -/
theorem get?_of_prepareScenario {p : Pattern}
    (h : (prepareScenario w run servers (name, some scn) s).result = .ok ())
    (haccepts : scn.Accepts p) :
    ∃ v, (prepareScenario w run servers (name, some scn)
      s).state.acc.dScenarios.get? name = some v ∧ v.pattern = some p := by
  have hreturns : (prepareScenario w run servers (name, some scn)).Returns s ()
      (prepareScenario w run servers (name, some scn) s).state := ⟨h, rfl⟩
  simp only [prepareScenario, prepareRun, returns_bind, returns_require,
    Option.some.injEq] at hreturns
  obtain ⟨_, _, ⟨rfl, -⟩, c, _, -, _, _, -, dnStart, _, -, r, _, -, _, _, -, _,
    _, -, hrecord⟩ := hreturns
  exact get?_of_recordPattern haccepts hrecord

end SippScen.Orchestrator
