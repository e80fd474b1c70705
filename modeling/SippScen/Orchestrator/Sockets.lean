import SippScen.Orchestrator.Control

/-!
# SIP sockets

Every process that is started listens to the SIP socket given by `-i` and `-p`.
A scenario shares its socket with its own registration and unregistration only,
once `check_no_duplicate` has passed.  The registrations have ended before the
scenarios are spawned; the unregistrations, however, are started whether the
scenarios could be stopped or not.
-/

namespace SippScen.Orchestrator

open SippScen.Support Effect

/-- The address and the port that a command gives to its process. -/
def Cli.socket (cli : Cli) : PyStr × PyStr :=
  (cli.args.localIp, cli.args.sipPort)

/-- The socket as it is entered in `sip_sockets`. -/
def Cli.socketText (cli : Cli) : PyStr :=
  cli.args.localIp ++ [':'] ++ cli.args.sipPort

/-- The words of the command that give the socket. -/
structure Cli.ListensOn (cli : Cli) (socket : PyStr × PyStr) : Prop where
  ip : [some "-i".toList, some socket.1] <:+: cli.words
  port : [some "-p".toList, some socket.2] <:+: cli.words

/-- The command of the process that an event starts. -/
def RunEvent.command (acc : Accumulators) : RunEvent → Option Cli
  | .registering scn => (acc.dRegistrations.get? scn).map Registration.cli
  | .spawned scn => (acc.dScenarios.get? scn).map Scenario.cli
  | .unregistering scn => acc.dUnregistrations.get? scn
  | _ => none

/-- The process of the scenario `scn` was started before, with this command, and
no check has found it gone.  An empty command starts no process. -/
structure MayRun (env : Processes) (acc : Accumulators)
    (before : List RunEvent) (scn : PyStr) (cli : Cli) : Prop where
  command : ∃ v, (scn, v) ∈ acc.dScenarios.entries ∧ v.cli = cli
  composed : cli.words ≠ []
  spawned : .spawned scn ∈ before
  started : started env scn = true
  notGone : .stopping scn (.check false) ∉ before

/-- A command that is kept for the scenario. -/
def HasCommand (acc : Accumulators) (scn : PyStr) (cli : Cli) : Prop :=
  (∃ v, (scn, v) ∈ acc.dScenarios.entries ∧ v.cli = cli) ∨
    (∃ reg, (scn, reg) ∈ acc.dRegistrations.entries ∧ reg.cli = cli) ∨
      (scn, cli) ∈ acc.dUnregistrations.entries

/-- The entry number `i` of `sip_sockets` was made for the scenario. -/
def OwnsSocket (owners : List PyStr) (acc : Accumulators) (scn socket : PyStr) :
    Prop :=
  ∃ i : ℕ, owners[i]? = some scn ∧ acc.sipSockets[i]? = some socket

/-- The command has been composed from its arguments, which hold the socket. -/
structure Cli.ComposedFor (cli : Cli) (socket : PyStr) : Prop where
  composed : composeCli cli.args = .ok cli
  socketText : cli.socketText = socket

/-- Every entry of `sip_sockets` has an owner, and every command is composed for
an entry that its scenario owns. -/
structure Owned (owners : List PyStr) (acc : Accumulators) : Prop where
  length : owners.length = acc.sipSockets.length
  commands : ∀ scn cli, HasCommand acc scn cli →
    ∃ socket, cli.ComposedFor socket ∧ OwnsSocket owners acc scn socket

variable {w : World} {run : RunConfig} {servers : Dict PyStr PyStr}
variable {name : PyStr} {scn : ScenarioConfig} {c : CallDescription}
variable {owners : List PyStr} {acc : Accumulators}

/-! ## The owners of the sockets -/

theorem Owned.concat (h : Owned owners acc) (name socket : PyStr) :
    Owned (owners ++ [name])
        { acc with sipSockets := acc.sipSockets ++ [socket] } ∧
      OwnsSocket (owners ++ [name])
        { acc with sipSockets := acc.sipSockets ++ [socket] } name socket := by
  refine ⟨⟨by simp [h.length], ?_⟩, acc.sipSockets.length, ?_, ?_⟩
  · intro scn cli hcli
    obtain ⟨entry, hcomposed, i, howner, hsocket⟩ := h.commands scn cli hcli
    have hi := (List.getElem?_eq_some_iff.mp hsocket).1
    have hi' := (List.getElem?_eq_some_iff.mp howner).1
    refine ⟨entry, hcomposed, i, ?_, ?_⟩
    · rw [List.getElem?_append_left hi', howner]
    · rw [List.getElem?_append_left hi, hsocket]
  · rw [← h.length, List.getElem?_concat_length]
  · exact List.getElem?_concat_length

/-- The commands may change as long as each new one is composed for a socket
that its scenario owns. -/
theorem Owned.update {acc' : Accumulators} (h : Owned owners acc)
    (hsockets : acc'.sipSockets = acc.sipSockets)
    (hcommands : ∀ scn cli, HasCommand acc' scn cli →
      HasCommand acc scn cli ∨
        ∃ socket, cli.ComposedFor socket ∧ OwnsSocket owners acc scn socket) :
    Owned owners acc' := by
  refine ⟨h.length.trans (by rw [hsockets]), fun scn cli hcli => ?_⟩
  obtain ⟨socket, hcomposed, howns⟩ :=
    (hcommands scn cli hcli).elim (h.commands scn cli) id
  exact ⟨socket, hcomposed, by rwa [OwnsSocket, hsockets]⟩

/-- Two scenarios with commands for one socket are the same. -/
theorem Owned.unique (h : Owned owners acc) (hnodup : acc.sipSockets.Nodup)
    {a b : PyStr} {cli cli' : Cli} (ha : HasCommand acc a cli)
    (hb : HasCommand acc b cli') (hsame : cli.socketText = cli'.socketText) :
    a = b := by
  obtain ⟨_, ⟨-, rfl⟩, i, howner, hsocket⟩ := h.commands a cli ha
  obtain ⟨_, ⟨-, rfl⟩, j, howner', hsocket'⟩ := h.commands b cli' hb
  have hij : i = j := by
    refine (List.getElem?_inj ?_ hnodup).mp ?_
    · exact (List.getElem?_eq_some_iff.mp hsocket).1
    · rw [hsocket, hsocket', hsame]
  rw [hij, howner'] at howner
  exact (Option.some.inj howner).symm

/-- The invariant of the preparation. -/
def SocketsOwned (s : Prepared) : Prop := ∃ owners, Owned owners s.acc

/-- Between the composition of the command and the end of the preparation, the
scenario owns its socket. -/
def TakesSocket (name socket : PyStr) (s : Prepared) : Prop :=
  ∃ owners, Owned owners s.acc ∧ OwnsSocket owners s.acc name socket

theorem TakesSocket.socketsOwned {socket : PyStr} {s : Prepared}
    (h : TakesSocket name socket s) : SocketsOwned s :=
  ⟨h.choose, h.choose_spec.1⟩

/-- The accumulators may change if the new commands are those of the scenario
and are composed for its socket. -/
theorem TakesSocket.update {socket : PyStr} {s s' : Prepared}
    (h : TakesSocket name socket s)
    (hsockets : s'.acc.sipSockets = s.acc.sipSockets)
    (hcommands : ∀ scn cli, HasCommand s'.acc scn cli →
      HasCommand s.acc scn cli ∨ scn = name ∧ cli.ComposedFor socket) :
    TakesSocket name socket s' := by
  obtain ⟨owners, howned, howns⟩ := h
  refine ⟨owners, howned.update hsockets fun scn cli hcli => ?_, ?_⟩
  · refine (hcommands scn cli hcli).imp_right ?_
    rintro ⟨rfl, hcomposed⟩
    exact ⟨socket, hcomposed, howns⟩
  · rwa [OwnsSocket, hsockets]

theorem TakesSocket.setScenario {socket : PyStr} {s : Prepared} {v : Scenario}
    (h : TakesSocket name socket s) (hv : v.cli.ComposedFor socket) :
    TakesSocket name socket
      { s with acc.dScenarios := s.acc.dScenarios.set name v } := by
  refine h.update rfl fun scn cli hcli => ?_
  rcases hcli with ⟨u, hu, rfl⟩ | hcli
  · rcases Dict.mem_entries_set.mp hu with heq | ⟨-, hu⟩
    · obtain ⟨rfl, rfl⟩ := Prod.mk.inj heq
      exact Or.inr ⟨rfl, hv⟩
    · exact Or.inl (Or.inl ⟨u, hu, rfl⟩)
  · exact Or.inl (Or.inr hcli)

theorem TakesSocket.setRegistration {socket : PyStr} {s : Prepared}
    {reg : Registration} (h : TakesSocket name socket s)
    (hreg : reg.cli.ComposedFor socket) :
    TakesSocket name socket
      { s with acc.dRegistrations := s.acc.dRegistrations.set name reg } := by
  refine h.update rfl fun scn cli hcli => ?_
  rcases hcli with hcli | ⟨other, hother, rfl⟩ | hcli
  · exact Or.inl (Or.inl hcli)
  · rcases Dict.mem_entries_set.mp hother with heq | ⟨-, hother⟩
    · obtain ⟨rfl, rfl⟩ := Prod.mk.inj heq
      exact Or.inr ⟨rfl, hreg⟩
    · exact Or.inl (Or.inr (Or.inl ⟨other, hother, rfl⟩))
  · exact Or.inl (Or.inr (Or.inr hcli))

theorem TakesSocket.setUnregistration {socket : PyStr} {s : Prepared}
    {cli : Cli} (h : TakesSocket name socket s)
    (hcli : cli.ComposedFor socket) :
    TakesSocket name socket
      { s with acc.dUnregistrations := s.acc.dUnregistrations.set name cli } := by
  refine h.update rfl fun scn other hother => ?_
  rcases hother with hother | hother | hother
  · exact Or.inl (Or.inl hother)
  · exact Or.inl (Or.inr (Or.inl hother))
  · rcases Dict.mem_entries_set.mp hother with heq | ⟨-, hother⟩
    · obtain ⟨rfl, rfl⟩ := Prod.mk.inj heq
      exact Or.inr ⟨rfl, hcli⟩
    · exact Or.inl (Or.inr (Or.inr hother))

/-! ## The preparation -/

/-- The socket that the command is composed with. -/
def RunDescription.socketText (r : RunDescription) : PyStr :=
  r.localIp ++ [':'] ++ r.sipPort

theorem composedFor_of_composeCli {args : CliArgs} {cli : Cli}
    (h : composeCli args = .ok cli) :
    cli.ComposedFor (args.localIp ++ [':'] ++ args.sipPort) :=
  ⟨composeCli_args h, by rw [Cli.socketText, args_of_composeCli h]⟩

/-- The scenario enters its socket and composes its command with it. -/
theorem wp_composeRun_socket {s : Prepared} {l : List (PyStr × FileContent)}
    (h : SocketsOwned s) :
    (composeRun w run name scn).wp
      (fun r _ s' => TakesSocket name r.socketText s' ∧
        r.cli.ComposedFor r.socketText)
      (fun _ _ => SocketsOwned) l s := by
  obtain ⟨owners, howned⟩ := h
  have hentered : ∀ socket n, TakesSocket name socket
      { s with nextPort := n, acc.sipSockets := s.acc.sipSockets ++ [socket] } :=
    fun socket n => ⟨owners ++ [name], howned.concat name socket⟩
  have hport : ∀ n, SocketsOwned { s with nextPort := n } :=
    fun n => ⟨owners, howned⟩
  have hleft : ∀ socket n, SocketsOwned
      { s with nextPort := n, acc.sipSockets := s.acc.sipSockets ++ [socket] } :=
    fun socket n => (hentered socket n).socketsOwned
  simp only [composeRun, getControlPort, wp_bind, wp_read, wp_change, wp_pure,
    wp_require, wp_lift]
  refine ⟨fun ip _ => ⟨fun localIp _ => ⟨fun sipPort _ => ?_, fun _ => hport _⟩,
    fun _ _ => hport _⟩, fun _ => hport _⟩
  refine ⟨fun receiveTm _ => ⟨fun sendTm _ => ⟨fun type _ => ⟨fun cps _ =>
    ⟨fun calls _ => ⟨fun cli hcli => ?_, fun _ _ => hleft _ _⟩,
    fun _ _ => hleft _ _⟩, fun _ => hleft _ _⟩, fun _ => hleft _ _⟩,
    fun _ _ => hleft _ _⟩, fun _ _ => hleft _ _⟩
  exact ⟨hentered _ _, composedFor_of_composeCli hcli⟩

/-- The commands for the registrar have the socket of the scenario. -/
theorem preserves_register_socket {dnStart : ℤ} (r : RunDescription) :
    (prepareRegister w run name scn c dnStart r).Preserves
      (TakesSocket name r.socketText) := by
  refine preserves_bind (preserves_lift _) fun reg => ?_
  cases reg with
  | none => exact preserves_pure _
  | some reg =>
      refine preserves_bind (preserves_lift _) fun file => ?_
      refine preserves_bind (preserves_lift _) fun content => ?_
      refine preserves_bind (preserves_writeFile _ _) fun _ => ?_
      refine preserves_bind (preserves_checkRegistrar _) fun _ => ?_
      refine preserves_lift_bind fun cli hcli => ?_
      refine preserves_bind (preserves_joinCli _) fun _ => ?_
      refine preserves_bind (preserves_change fun s hs =>
        hs.setRegistration (composedFor_of_composeCli hcli)) fun _ => ?_
      refine preserves_bind (preserves_lift _) fun unregister => ?_
      split
      · exact preserves_pure _
      · refine preserves_bind (preserves_copyFile _ _) fun _ => ?_
        refine preserves_lift_bind fun cli hcli => ?_
        exact preserves_change fun s hs =>
          hs.setUnregistration (composedFor_of_composeCli hcli)

theorem preserves_recordScenario_socket {r : RunDescription}
    (hcli : r.cli.ComposedFor r.socketText) :
    (recordScenario name c r).Preserves (TakesSocket name r.socketText) := by
  refine preserves_bind (preserves_joinCli _) fun _ => ?_
  refine preserves_bind (preserves_change fun s hs =>
    hs.setScenario hcli) fun _ => ?_
  refine preserves_bind (preserves_read _) fun cli => ?_
  cases cli with
  | none => exact preserves_pure _
  | some cli => exact preserves_joinCli cli

/-- A pattern changes no command. -/
theorem socketsOwned_setPattern {s : Prepared} {v : Scenario}
    (h : SocketsOwned s) (hv : s.acc.dScenarios.get? name = some v)
    (p : Pattern) :
    SocketsOwned { s with acc.dScenarios :=
      s.acc.dScenarios.set name { v with pattern := some p } } := by
  obtain ⟨owners, howned⟩ := h
  refine ⟨owners, howned.update rfl fun scn cli hcli => Or.inl ?_⟩
  rcases hcli with ⟨u, hu, rfl⟩ | hcli
  · rcases Dict.mem_entries_set.mp hu with heq | ⟨-, hu⟩
    · obtain ⟨rfl, rfl⟩ := Prod.mk.inj heq
      exact Or.inl ⟨v, Dict.get?_eq_some_iff.mp hv, rfl⟩
    · exact Or.inl ⟨u, hu, rfl⟩
  · exact Or.inr hcli

theorem wp_prepareRun_socket {s : Prepared} {l : List (PyStr × FileContent)}
    (h : SocketsOwned s) :
    (prepareRun w run name scn c).wp (fun _ _ => SocketsOwned)
      (fun _ _ => SocketsOwned) l s := by
  rw [prepareRun, wp_bind]
  refine wp_mono (preserves_writePortsAndDns.wp h) (fun dnStart l s hs => ?_)
    fun _ _ _ => id
  rw [wp_bind]
  refine wp_mono (wp_composeRun_socket hs) ?_ fun _ _ _ => id
  rintro r l s ⟨hs, hcli⟩
  rw [wp_bind]
  refine wp_mono ((preserves_register_socket r).wp hs) (fun _ l s hs => ?_)
    fun _ _ _ => TakesSocket.socketsOwned
  rw [wp_bind]
  refine wp_mono ((preserves_recordScenario_socket hcli).wp hs)
    (fun _ l s hs => ?_) fun _ _ _ => TakesSocket.socketsOwned
  exact Preserves.wp (preserves_recordPattern fun s v p hs hv _ =>
    socketsOwned_setPattern hs hv p) hs.socketsOwned

theorem preserves_socketsOwned (e : Entry) :
    (prepareScenario w run servers e).Preserves SocketsOwned := by
  refine preserves_bind (preserves_require _ _) fun scn => ?_
  refine preserves_bind preserves_describeCall fun c => ?_
  refine preserves_bind (preserves_recordRange fun _ _ ⟨owners, h⟩ =>
    ⟨owners, h.update rfl fun _ _ hcli => Or.inl hcli⟩) fun _ => ?_
  exact fun s hs =>
    wp_end (P := fun _ => SocketsOwned) (l := []) (wp_prepareRun_socket hs)

/-- Whichever scenarios fail, every command that is kept is composed for a socket
that its scenario has entered. -/
theorem owned_prepareScenarios (w : World) (run : RunConfig)
    (servers : Dict PyStr PyStr) (config : List Entry) :
    ∃ owners, Owned owners (prepareScenarios w run servers config).acc := by
  have hinit : SocketsOwned (initialPrepared servers) := by
    refine ⟨[], rfl, fun scn cli hcli => ?_⟩
    rcases hcli with ⟨_, h, -⟩ | ⟨_, h, -⟩ | h
    all_goals exact absurd h List.not_mem_nil
  exact forEach_invariant hinit fun e _ s hs => preserves_socketsOwned e s hs

/-! ## The command line -/

theorem listensOn_commonWords (args : CliArgs) :
    ["-i".toList, args.localIp] <:+: args.commonWords ∧
      ["-p".toList, args.sipPort] <:+: args.commonWords := by
  constructor
  · exact (List.suffix_append _ _).isInfix
  · refine List.IsInfix.trans ?_ (List.prefix_append _ _).isInfix
    refine List.IsInfix.trans ?_ (List.prefix_append _ _).isInfix
    refine List.IsInfix.trans ?_ (List.prefix_append _ _).isInfix
    exact (List.suffix_append _ _).isInfix

/-- A command that is not empty gives its socket to the process. -/
theorem Cli.ComposedFor.listensOn {cli : Cli} {socket : PyStr}
    (h : cli.ComposedFor socket) (hwords : cli.words ≠ []) :
    cli.ListensOn cli.socket := by
  obtain ⟨rest, hrest⟩ :=
    words_of_composeCli h.composed (type_of_composeCli h.composed hwords)
  obtain ⟨hip, hport⟩ := listensOn_commonWords cli.args
  have hcommon : cli.args.commonWords.map some <:+: cli.words :=
    hrest ▸ (List.prefix_append _ _).isInfix
  exact ⟨(hip.map some).trans hcommon, (hport.map some).trans hcommon⟩

theorem nodup_of_validates {p : Prepared} (h : validates p = true) :
    p.acc.sipSockets.Nodup := by
  have hcounts : checkNoDuplicate p.acc.sipSockets = true := by
    simp only [validates, Bool.not_or, Bool.not_not, Bool.and_eq_true] at h
    exact h.2
  rw [checkNoDuplicate, List.all_eq_true] at hcounts
  refine List.nodup_iff_count_le_one.mpr fun socket => ?_
  by_cases hmem : socket ∈ p.acc.sipSockets
  · exact of_decide_eq_true (hcounts socket hmem)
  · rw [List.count_eq_zero_of_not_mem hmem]
    exact Nat.zero_le 1

section Runs

variable {env : Processes} {tr clients stops before after : List RunEvent}
variable {type scn other : PyStr} {cli : Cli} {ev : RunEvent} {ok : Bool}
variable {v : Scenario} {alive : ℕ → Bool} {polls i : ℕ}

theorem hasCommand_of_event (h : ev.command acc = some cli) :
    ∃ scn, HasCommand acc scn cli := by
  cases ev with
  | registering scn =>
      obtain ⟨reg, hreg, rfl⟩ := Option.map_eq_some_iff.mp h
      exact ⟨scn, Or.inr (Or.inl ⟨reg, Dict.get?_eq_some_iff.mp hreg, rfl⟩)⟩
  | spawned scn =>
      obtain ⟨v, hv, rfl⟩ := Option.map_eq_some_iff.mp h
      exact ⟨scn, Or.inl ⟨v, Dict.get?_eq_some_iff.mp hv, rfl⟩⟩
  | unregistering scn =>
      exact ⟨scn, Or.inr (Or.inr (Dict.get?_eq_some_iff.mp h))⟩
  | stopping | stopped | stopRaised =>
      exact absurd h (by simp [RunEvent.command])

/-! ## The checks of a stop procedure -/

theorem check_mem_pollLoop (alive : ℕ → Bool) (polls i : ℕ) :
    .check false ∈ (pollLoop alive polls i).1 ↔
      (pollLoop alive polls i).2 = true := by
  induction polls generalizing i with
  | zero => simp [pollLoop]
  | succ polls ih =>
      by_cases halive : alive i = true
      · simp [pollLoop_of_alive halive, ih]
      · simp [pollLoop_of_not_alive halive]

theorem check_mem_escalate (h : (escalate alive i).2 = .returned ok) :
    .check false ∈ (escalate alive i).1 ↔ ok = true := by
  rw [escalate] at h ⊢
  by_cases hterm : alive i = false
  · simp [hterm] at h
  · rw [if_neg hterm] at h ⊢
    by_cases hgone : alive (i + 1) = false
    · rw [if_pos hgone] at h ⊢
      simp [← StopEnd.returned.inj h]
    · rw [if_neg hgone] at h ⊢
      by_cases hkill : alive (i + 2) = false
      · simp [hkill] at h
      · rw [if_neg hkill] at h ⊢
        simp [← StopEnd.returned.inj h]

/-- The procedure returns that a process is stopped if and only if a check has
found it gone. -/
theorem check_mem_stopScenario (hpid : ∃ pid, v.pid = some pid ∧ pid ≠ 0)
    (h : (stopScenario v alive).2 = .returned ok) :
    .check false ∈ (stopScenario v alive).1 ↔ ok = true := by
  by_cases hwaited : (pollLoop alive (pollCount v.duration) 0).2 = false
  · rw [stopScenario_of_waited hpid hwaited] at h ⊢
    have hpolls : .check false ∉
        .quit :: (pollLoop alive (pollCount v.duration) 0).1 := by
      simp [check_mem_pollLoop, hwaited]
    rw [List.mem_append, or_iff_right hpolls, check_mem_escalate h]
  · have hgone : (pollLoop alive (pollCount v.duration) 0).2 = true := by
      simpa using hwaited
    rw [stopScenario_of_gone_early hpid hgone] at h ⊢
    simp [check_mem_pollLoop, hgone, ← StopEnd.returned.inj h]

/-- A process that could not be stopped was started. -/
theorem started_of_not_stopped
    (h : (stopScenario { v with pid := env.pid scn } alive).2 =
      .returned false) : started env scn = true := by
  by_contra hstarted
  rw [stopScenario_of_not_started hstarted] at h
  exact absurd h (by simp)

/-! ## The events of a run that start a process -/

/-- The event belongs to a stop procedure. -/
def RunEvent.ofStop : RunEvent → Bool
  | .stopping .. | .stopped .. | .stopRaised .. => true
  | .registering _ | .spawned _ | .unregistering _ => false

theorem ofStop_of_stage (h : PartOfStage env acc type tr) (he : ev ∈ tr) :
    ev.ofStop = true := by
  obtain ⟨rest, hmerge⟩ := h
  obtain ⟨_, -, ⟨_, rfl⟩ | ⟨_, rfl⟩ | rfl⟩ :=
    hasType_of_stage hmerge (List.mem_append_left rest he)
  all_goals rfl

/-- All scenarios have been stopped, as far as that was possible. -/
def StopsCompleted (env : Processes) (acc : Accumulators)
    (stops : List RunEvent) : Prop :=
  ∃ clients servers, stops = clients ++ servers ∧
    Completes (clientTasks env acc) clients ∧
    Completes (serverTasks env acc) servers

/-- The stages of a run whose registrations have succeeded: devices are
unregistered only after all stop procedures. -/
structure Stages (env : Processes) (acc : Accumulators)
    (tr stops last : List RunEvent) : Prop where
  events : tr = startUp env acc ++ (stops ++ last)
  ofStop : ∀ e ∈ stops, e.ofStop = true
  unregistering : ∀ e ∈ last, ∃ scn, e = .unregistering scn
  completed : last ≠ [] → StopsCompleted env acc stops

theorem stages_of_run (h : RunTrace env acc tr) :
    tr = (registrations env acc).1 ∨ ∃ stops last,
      Stages env acc tr stops last := by
  rcases h with h | h | @⟨clients, h, hclients⟩ |
    @⟨clients, servers, h, hclients, hservers⟩ |
    @⟨clients, servers, h, hclients, hservers⟩
  · exact Or.inl rfl
  · exact Or.inr ⟨[], [], by simp, by simp, by simp, by simp⟩
  · refine Or.inr ⟨clients, [], by simp, fun e he => ?_, by simp, by simp⟩
    exact ofStop_of_stage (partOfStage_of_raises hclients) he
  · refine Or.inr ⟨clients ++ servers, [], by simp, fun e he => ?_, by simp,
      by simp⟩
    rcases List.mem_append.mp he with he | he
    · exact ofStop_of_stage (partOfStage_of_completes hclients) he
    · exact ofStop_of_stage (partOfStage_of_raises hservers) he
  · refine Or.inr ⟨clients ++ servers,
      acc.dUnregistrations.keys.map .unregistering, ?_, fun e he => ?_,
      by simp, fun _ => ⟨clients, servers, rfl, hclients, hservers⟩⟩
    · rw [List.append_assoc clients]
    · rcases List.mem_append.mp he with he | he
      · exact ofStop_of_stage (partOfStage_of_completes hclients) he
      · exact ofStop_of_stage (partOfStage_of_completes hservers) he

/-- An event that starts a process is no part of the stop procedures. -/
theorem Stages.notMem_stops {last : List RunEvent}
    (h : Stages env acc tr stops last) (hev : ev.ofStop = false) :
    ev ∉ stops := by
  intro hmem
  rw [h.ofStop ev hmem] at hev
  exact Bool.false_ne_true hev.symm

theorem Stages.notMem_last {last : List RunEvent}
    (h : Stages env acc tr stops last) (hev : ∀ scn, ev ≠ .unregistering scn) :
    ev ∉ last := fun hmem =>
  (h.unregistering ev hmem).elim hev

/-- The devices are registered before any scenario is spawned. -/
theorem spawned_notMem_of_registering
    (h : RunTrace env acc (before ++ .registering scn :: after)) :
    .spawned other ∉ before := by
  have hfront : ∃ rest, (registrations env acc).1 = before ++ rest := by
    rcases stages_of_run h with heq | ⟨stops, last, hstages⟩
    · exact ⟨_, heq.symm⟩
    · have heq := hstages.events
      rw [startUp, List.append_assoc] at heq
      have hrest : .registering scn ∉
          spawnAll acc.dScenarios ++ (stops ++ last) := by
        simp only [List.mem_append, not_or]
        exact ⟨by simp [spawnAll], hstages.notMem_stops rfl,
          hstages.notMem_last (by simp)⟩
      obtain ⟨middle, hfront, -⟩ := back_suffix heq.symm hrest
      exact ⟨_, hfront⟩
  obtain ⟨rest, hrest⟩ := hfront
  intro hmem
  have hspawned : .spawned other ∈ (registrations env acc).1 :=
    hrest ▸ List.mem_append_left _ hmem
  exact notMem_registerAll (by simp) hspawned

/-- No scenario is spawned twice. -/
theorem spawned_notMem_of_spawned
    (h : RunTrace env acc (before ++ .spawned scn :: after)) :
    .spawned scn ∉ before := by
  rcases stages_of_run h with heq | ⟨stops, last, hstages⟩
  · have hspawned : .spawned scn ∈ (registrations env acc).1 := by
      simp [← heq]
    exact absurd hspawned (notMem_registerAll (by simp))
  have hrest : .spawned scn ∉ stops ++ last := by
    rw [List.mem_append, not_or]
    exact ⟨hstages.notMem_stops rfl, hstages.notMem_last (by simp)⟩
  obtain ⟨middle, hstartUp, -⟩ := back_suffix hstages.events.symm hrest
  obtain ⟨earlier, rfl, hspawns⟩ :=
    front_prefix hstartUp (notMem_registerAll (by simp))
  have hnodup : (spawnAll acc.dScenarios).Nodup :=
    acc.dScenarios.nodup_keys.map fun _ _ => RunEvent.spawned.inj
  rw [hspawns] at hnodup
  rw [List.mem_append, not_or]
  refine ⟨notMem_registerAll (by simp), fun hmem => ?_⟩
  exact (List.nodup_append.mp hnodup).2.2 _ hmem _ List.mem_cons_self rfl

/-- When a device is unregistered, all scenarios have been stopped, as far as
that was possible, and nothing but other devices has come after that. -/
structure AtUnregister (env : Processes) (acc : Accumulators)
    (before stops : List RunEvent) : Prop where
  completed : StopsCompleted env acc stops
  before : ∃ last, before = startUp env acc ++ (stops ++ last) ∧
    ∀ e ∈ last, ∃ scn, e = .unregistering scn

theorem unregistering_notMem_startUp :
    .unregistering scn ∉ startUp env acc := by
  rw [startUp, List.mem_append, not_or]
  exact ⟨notMem_registerAll (by simp), by simp [spawnAll]⟩

theorem atUnregister_of_run
    (h : RunTrace env acc (before ++ .unregistering scn :: after)) :
    ∃ stops, AtUnregister env acc before stops := by
  rcases stages_of_run h with heq | ⟨stops, last, hstages⟩
  · have hmem : .unregistering scn ∈ (registrations env acc).1 := by
      simp [← heq]
    exact absurd hmem (notMem_registerAll (by simp))
  obtain ⟨_, rfl, hrest⟩ :=
    front_prefix hstages.events.symm unregistering_notMem_startUp
  obtain ⟨earlier, rfl, rfl⟩ :=
    front_prefix hrest (hstages.notMem_stops rfl)
  refine ⟨stops, hstages.completed (by simp), earlier, rfl, fun e he => ?_⟩
  exact hstages.unregistering e (List.mem_append_left _ he)

/-! ## The processes that may run while devices are unregistered -/

theorem stopping_mem_iff {action : StopAction} :
    .stopping other action ∈ stopTask env scn v ↔ other = scn ∧
      action ∈
        (stopScenario { v with pid := env.pid scn } (env.alive scn)).1 := by
  rw [stopTask, List.mem_append, List.mem_map, List.mem_singleton]
  rcases (stopScenario { v with pid := env.pid scn } (env.alive scn)).2 with
    ok | _
  · simp [eq_comm, and_comm]
  · simp [eq_comm, and_comm]

theorem mem_stops_iff (h : StopsCompleted env acc stops) :
    ev ∈ stops ↔ ∃ scn v, (scn, v) ∈ acc.dScenarios.entries ∧
      (v.type = "client".toList ∨ v.type = "server".toList) ∧
        ev ∈ stopTask env scn v := by
  obtain ⟨clients, servers, rfl, hclients, hservers⟩ := h
  rw [List.mem_append, hclients.2.mem_iff, hservers.2.mem_iff]
  constructor
  · rintro (⟨_, htask, hev⟩ | ⟨_, htask, hev⟩)
    · obtain ⟨scn, v, hv, htype, rfl⟩ := mem_terminateTasks.mp htask
      exact ⟨scn, v, hv, Or.inl htype, hev⟩
    · obtain ⟨scn, v, hv, htype, rfl⟩ := mem_terminateTasks.mp htask
      exact ⟨scn, v, hv, Or.inr htype, hev⟩
  · rintro ⟨scn, v, hv, htype | htype, hev⟩
    · exact Or.inl ⟨_, mem_terminateTasks.mpr ⟨scn, v, hv, htype, rfl⟩, hev⟩
    · exact Or.inr ⟨_, mem_terminateTasks.mpr ⟨scn, v, hv, htype, rfl⟩, hev⟩

theorem AtUnregister.mem_iff (h : AtUnregister env acc before stops)
    (hfront : ev ∉ startUp env acc) (hlast : ∀ scn, ev ≠ .unregistering scn) :
    ev ∈ before ↔ ev ∈ stops := by
  obtain ⟨last, rfl, hunregistering⟩ := h.before
  have hnotLast : ev ∉ last := fun hmem =>
    (hunregistering ev hmem).elim hlast
  rw [List.mem_append, List.mem_append, or_iff_right hfront,
    or_iff_left hnotLast]

theorem stopped_notMem_startUp : .stopped scn ok ∉ startUp env acc := by
  intro h
  rcases List.mem_append.mp h with h | h
  · exact notMem_registerAll (by simp) h
  · simp [spawnAll] at h

theorem StopsCompleted.exists_stopped (h : StopsCompleted env acc stops)
    (hv : (scn, v) ∈ acc.dScenarios.entries)
    (htype : v.type = "client".toList ∨ v.type = "server".toList) :
    ∃ ok, .stopped scn ok ∈ stops := by
  obtain ⟨clients, servers, rfl, hclients, hservers⟩ := h
  rcases htype with htype | htype
  · obtain ⟨ok, hok⟩ := stopped_of_completes hclients ⟨v, hv, htype⟩
    exact ⟨ok, List.mem_append_left _ hok⟩
  · obtain ⟨ok, hok⟩ := stopped_of_completes hservers ⟨v, hv, htype⟩
    exact ⟨ok, List.mem_append_right _ hok⟩

/-- A scenario that could not be stopped was started. -/
theorem StopsCompleted.started (h : StopsCompleted env acc stops)
    (hstopped : .stopped scn false ∈ stops) : started env scn = true := by
  obtain ⟨_, v, -, -, hmem⟩ := (mem_stops_iff h).mp hstopped
  obtain ⟨rfl, hreturned⟩ := stopped_mem_iff.mp hmem
  exact started_of_not_stopped hreturned

/-- A check has found the process gone if and only if the procedure has
returned so. -/
theorem StopsCompleted.check_mem_iff (h : StopsCompleted env acc stops)
    (hstarted : Orchestrator.started env scn = true)
    (hstopped : .stopped scn ok ∈ stops) :
    .stopping scn (.check false) ∈ stops ↔ ok = true := by
  obtain ⟨_, v, hv, htype, hmem⟩ := (mem_stops_iff h).mp hstopped
  obtain ⟨rfl, hreturned⟩ := stopped_mem_iff.mp hmem
  rw [← check_mem_stopScenario (started_iff.mp hstarted) hreturned,
    mem_stops_iff h]
  constructor
  · rintro ⟨_, u, hu, -, hmem⟩
    obtain ⟨rfl, hmem⟩ := stopping_mem_iff.mp hmem
    rwa [Dict.entry_unique hv hu]
  · intro hmem
    exact ⟨scn, v, hv, htype, stopping_mem_iff.mpr ⟨rfl, hmem⟩⟩

/-- After the stop procedures a process may run if and only if its own procedure
has returned that it could not be stopped. -/
theorem AtUnregister.mayRun_iff (h : AtUnregister env acc before stops)
    (hv : (scn, v) ∈ acc.dScenarios.entries) (haddressed : Addressed v) :
    MayRun env acc before scn v.cli ↔
      v.cli.words ≠ [] ∧ .stopped scn false ∈ before := by
  have hcheck : .stopping scn (.check false) ∈ before ↔
      .stopping scn (.check false) ∈ stops :=
    h.mem_iff (stopping_notMem_startUp _) (by simp)
  rw [h.mem_iff stopped_notMem_startUp (by simp)]
  constructor
  · intro hrun
    have htype : v.type = "client".toList ∨ v.type = "server".toList :=
      haddressed.type ▸ type_of_composeCli haddressed.composed hrun.composed
    obtain ⟨ok, hok⟩ := h.completed.exists_stopped hv htype
    have hgone := h.completed.check_mem_iff hrun.started hok
    refine ⟨hrun.composed, ?_⟩
    cases ok with
    | false => exact hok
    | true => exact absurd (hcheck.mpr (hgone.mpr rfl)) hrun.notGone
  · rintro ⟨hwords, hfailed⟩
    have hstarted := h.completed.started hfailed
    refine ⟨⟨v, hv, rfl⟩, hwords, ?_, hstarted, fun hgone => ?_⟩
    · obtain ⟨last, rfl, -⟩ := h.before
      refine List.mem_append_left _ (List.mem_append_right _ ?_)
      exact List.mem_map_of_mem (List.mem_map_of_mem (f := Prod.fst) hv)
    · exact absurd ((h.completed.check_mem_iff hstarted hfailed).mp
        (hcheck.mp hgone)) Bool.false_ne_true

/-! ## The runs -/

/-- Whenever a process is started, it listens to the socket of its command, and
of the scenarios that may run none has this socket, with one exception: a device
is unregistered although its own scenario could not be stopped. -/
structure Exclusive (env : Processes) (acc : Accumulators) : Prop where
  listens : ∀ (ev : RunEvent) (cli : Cli), ev.command acc = some cli →
    cli.words ≠ [] → cli.ListensOn cli.socket
  shared : ∀ (before : List RunEvent) (ev : RunEvent) (after : List RunEvent)
    (cli : Cli), RunTrace env acc (before ++ ev :: after) →
    ev.command acc = some cli →
    ∀ scn v, (scn, v) ∈ acc.dScenarios.entries → v.cli.socket = cli.socket →
      (MayRun env acc before scn v.cli ↔
        ev = .unregistering scn ∧ v.cli.words ≠ [] ∧
          .stopped scn false ∈ before)

theorem socketText_of_socket {cli' : Cli} (h : cli.socket = cli'.socket) :
    cli.socketText = cli'.socketText := by
  obtain ⟨hip, hport⟩ := Prod.mk.inj h
  rw [Cli.socketText, Cli.socketText, hip, hport]

theorem exclusive_of_owned {next : ℕ} (howned : Owned owners acc)
    (hnodup : acc.sipSockets.Nodup) (hnumbered : Numbered next acc.dScenarios) :
    Exclusive env acc where
  listens ev cli hcli hwords := by
    obtain ⟨scn, hcommand⟩ := hasCommand_of_event hcli
    obtain ⟨_, hcomposed, -⟩ := howned.commands scn cli hcommand
    exact hcomposed.listensOn hwords
  shared before ev after cli htr hcli scn v hv hsocket := by
    -- a scenario with the socket of the event is that of the event
    have hsame : ∀ other, HasCommand acc other cli → scn = other :=
      fun other hother => howned.unique hnodup (Or.inl ⟨v, hv, rfl⟩) hother
        (socketText_of_socket hsocket)
    cases ev with
    | registering other =>
        have hnone : .spawned scn ∉ before :=
          spawned_notMem_of_registering htr
        refine ⟨fun hrun => absurd hrun.spawned hnone, ?_⟩
        rintro ⟨heq, -⟩
        exact absurd heq (by simp)
    | spawned other =>
        obtain ⟨u, hu, rfl⟩ := Option.map_eq_some_iff.mp hcli
        obtain rfl := hsame other
          (Or.inl ⟨u, Dict.get?_eq_some_iff.mp hu, rfl⟩)
        have hnone := spawned_notMem_of_spawned htr
        refine ⟨fun hrun => absurd hrun.spawned hnone, ?_⟩
        rintro ⟨heq, -⟩
        exact absurd heq (by simp)
    | unregistering other =>
        obtain rfl := hsame other
          (Or.inr (Or.inr (Dict.get?_eq_some_iff.mp hcli)))
        obtain ⟨stops, hat⟩ := atUnregister_of_run htr
        rw [hat.mayRun_iff hv (hnumbered.addressed scn v hv)]
        simp
    | stopping | stopped | stopRaised =>
        exact absurd hcli (by simp [RunEvent.command])

end Runs

/-- Whatever the configuration and whichever of its scenarios fail, once the
sockets have been validated every run keeps them apart, except where a device is
unregistered although its scenario could not be stopped. -/
theorem sockets_exclusive (w : World) (run : RunConfig)
    (servers : Dict PyStr PyStr) (config : List Entry) (env : Processes)
    (hvalid : validates (prepareScenarios w run servers config) = true) :
    Exclusive env (prepareScenarios w run servers config).acc := by
  obtain ⟨owners, howned⟩ := owned_prepareScenarios w run servers config
  exact exclusive_of_owned howned (nodup_of_validates hvalid)
    (numbered_prepareScenarios w run servers config)

/-- A client that registers and unregisters. -/
def registeredClient : Entry :=
  ("A".toList, some
    { plainClient with
      register := .value
        { registrar := .value "127.0.0.1:5666".toList
          registerFile := .value "register_template".toList
          unregisterFile := .value "unregister".toList
          cps := none } })

/-- The processes start, and nothing ends them. -/
def survivors : Processes where
  registerCode := fun _ => 0
  pid := fun _ => some 4711
  alive := fun _ _ => true

/-- The client, which survives SIGKILL, still listens to its socket when its
device is unregistered from there. -/
theorem sockets_exclusive_survivor :
    let acc := (prepareScenarios { plainWorld with copies := fun _ _ => true }
      minuteRun oneServer [registeredClient]).acc
    ∃ (before : List RunEvent) (scn : PyStr) (v : Scenario) (cli : Cli),
      RunTrace survivors acc (before ++ .unregistering scn :: []) ∧
      acc.dUnregistrations.get? scn = some cli ∧
      v.cli.socket = cli.socket ∧ MayRun survivors acc before scn v.cli := by
  intro acc
  have hlucky : ∀ type, ¬ SomeUnlucky survivors acc type := by
    rintro type ⟨scn, v, -, -, -, -, hends | ⟨-, -, hends⟩⟩
    · exact Bool.false_ne_true hends.symm
    · exact Bool.false_ne_true hends.symm
  have hrun : RunTrace survivors acc _ := RunTrace.completes
    (by decide +kernel) (exists_completes (hlucky _))
    (exists_completes (hlucky _))
  have hkeys : acc.dUnregistrations.keys = ["A".toList] := by decide +kernel
  rw [hkeys, List.map_singleton, ← List.append_assoc, ← List.append_assoc]
    at hrun
  obtain ⟨v, hv⟩ : ∃ v, acc.dScenarios.get? "A".toList = some v :=
    Option.isSome_iff_exists.mp (by decide +kernel)
  obtain ⟨cli, hcli⟩ : ∃ cli, acc.dUnregistrations.get? "A".toList = some cli :=
    Option.isSome_iff_exists.mp (by decide +kernel)
  have hwords : (acc.dScenarios.get? "A".toList).all (·.cli.words ≠ []) :=
    by decide +kernel
  have hsocket : (acc.dScenarios.get? "A".toList).map (·.cli.socket) =
      (acc.dUnregistrations.get? "A".toList).map Cli.socket := by
    decide +kernel
  rw [hv, Option.all_some, decide_eq_true_eq] at hwords
  rw [hv, hcli] at hsocket
  have hsame : v.cli.socket = cli.socket := Option.some.inj hsocket
  refine ⟨_, "A".toList, v, cli, hrun, hcli, hsame, ?_⟩
  refine ((sockets_exclusive _ _ _ _ survivors (by decide +kernel)).shared
    _ _ _ cli hrun hcli _ v (Dict.get?_eq_some_iff.mp hv) hsame).mpr
    ⟨rfl, hwords, ?_⟩
  decide +kernel

end SippScen.Orchestrator
