import SippScen.MediaEndpoint.Handover
import SippScen.MediaHost.Watch

/-!
# An endpoint and its ledger

An endpoint keeps the mode it was launched in, a server keeps its first remote,
and a client has streamed every request that it has copied when it streams the
next one.  What ties an endpoint, its entry and its ledger together is kept by
every step of its start-up and of its threads, and by every signal that names the
same mode and a destination it can take over.
-/

namespace SippScen.MediaHost

open SippScen.Support SippScen.SharedList SippScen.MediaServer
open SippScen.MediaEndpoint (Process MainPc StreamPc Report GetoptLong Locking
  FollowsGnu alive_of_next next_handover next_keepsMain next_locking
  not_silent_of_read mainStep_conf mainStep_stream streamStep_hasRead streamStep_keepsMain
  launchResult launchedOptions launchedOptions_eq start_locking)

variable {N : ℕ} {getopt : GetoptLong} {config : ServerConfig}

/-! ## The threads of one endpoint -/

/-- The statements of `main` from the answer to a signal to the copy. -/
def answers : MainPc → Bool
  | .lockList | .fetch | .unlockList | .lockConf | .copy => true
  | _ => false

/-- The signals that the process has not copied its entry for. -/
def unread (p : Process) : ℕ := p.pending + if answers p.main then 1 else 0

section Steps

variable {p q : Process} {a : MediaEndpoint.Action} {r : Report}

theorem mainStep_unread (h : p.mainStep = some (q, r)) :
    (q.termination = none → p.termination = none → unread q = unread p) ∧
      (listens q.main = true → listens p.main = true) := by
  cases hpc : p.main
  all_goals simp only [Process.mainStep, hpc] at h
  all_goals try split at h
  all_goals cases h
  all_goals simp_all [unread, answers, listens, Process.terminate]

theorem streamStep_server (h : p.streamStep = some (q, r)) :
    q.server = p.server := by
  unfold Process.streamStep at h
  split at h
  all_goals try split at h
  all_goals cases h
  all_goals rfl

theorem next_server (h : p.next a = some (q, r)) : q.server = p.server := by
  replace h := Process.act_of_next h
  cases a with
  | main => exact (mainStep_stream h).1
  | stream => exact streamStep_server h
  | signal =>
      cases h
      rfl
  | _ =>
      obtain ⟨-, heq⟩ := Option.ite_none_right_eq_some.mp h
      cases heq
      rfl

/-- What a step that neither delivers a signal nor concerns `conf` leaves as it
is. -/
structure Quiet (p q : Process) : Prop where
  conf : q.conf = p.conf
  server : q.server = p.server
  unread : q.termination = none → unread q = unread p
  listens : listens q.main = true → listens p.main = true
  hasRead : q.stream.hasRead = true → p.stream.hasRead = true

theorem Quiet.of_stream (ha : a.OfStream) (h : p.next a = some (q, r))
    (hread : q.stream.hasRead = true → p.stream.hasRead = true) :
    Quiet p q := by
  have hkeeps := next_keepsMain ha h
  refine ⟨hkeeps.conf, next_server h, ?_, ?_, hread⟩
  · intro _
    unfold MediaHost.unread
    rw [hkeeps.pending, hkeeps.main]
  · rw [hkeeps.main]
    exact id

theorem next_quiet (h : p.next a = some (q, r)) (ha : a ≠ .signal)
    (hr : r.isHandover = false) : Quiet p q := by
  have halive := alive_of_next h
  have hact := Process.act_of_next h
  cases a with
  | signal => exact absurd rfl ha
  | main =>
      obtain ⟨hunread, hlistens⟩ := mainStep_unread hact
      obtain ⟨hserver, hstream⟩ := mainStep_stream hact
      refine ⟨(mainStep_conf hact).2, hserver, fun hq => hunread hq halive,
        hlistens, ?_⟩
      rcases hstream with hsame | ⟨-, hnotified⟩
      · rw [hsame]
        exact id
      · rw [hnotified]
        intro hread
        rw [MediaEndpoint.notifyOne_stream] at hread
        split at hread
        · cases hread
        · exact hread
  | stream =>
      rcases streamStep_hasRead hact with hpc | hread
      · exact absurd hr (not_silent_of_read hpc hact)
      · exact .of_stream (Or.inl rfl) h fun hafter => hread (Or.inl hafter)
  | fail =>
      apply Quiet.of_stream (Or.inr (Or.inl rfl)) h
      obtain ⟨-, heq⟩ := Option.ite_none_right_eq_some.mp hact
      cases heq
      intro hread
      cases hread
  | wake =>
      apply Quiet.of_stream (Or.inr (Or.inr rfl)) h
      obtain ⟨-, heq⟩ := Option.ite_none_right_eq_some.mp hact
      cases heq
      intro hread
      cases hread
  | copy data =>
      obtain ⟨-, heq⟩ := Option.ite_none_right_eq_some.mp hact
      cases heq
      cases hr
  | waitError =>
      obtain ⟨-, heq⟩ := Option.ite_none_right_eq_some.mp hact
      cases heq
      exact ⟨rfl, rfl, fun hq => absurd hq (Option.some_ne_none _), id, id⟩
  | fetch found =>
      obtain ⟨hmain, heq⟩ := Option.ite_none_right_eq_some.mp hact
      cases heq
      refine ⟨rfl, rfl, ?_, ?_, id⟩
      · simp [MediaHost.unread, hmain, answers]
      · simp [hmain, MediaHost.listens]
  | timeout =>
      obtain ⟨⟨hmain, -⟩, heq⟩ := Option.ite_none_right_eq_some.mp hact
      cases heq
      refine ⟨rfl, rfl, ?_, ?_, id⟩
      · simp [MediaHost.unread, hmain, answers]
      · simp [hmain, MediaHost.listens]

end Steps

/-! ## The ledger of one process -/

section Requests

variable {data data' : Data}

theorem remoteArgs_congr (h : requested data = requested data') :
    remoteArgs data = remoteArgs data' := by
  obtain ⟨haddress, hport⟩ := Prod.mk.inj h
  unfold remoteArgs
  rw [haddress, hport]

theorem remoteArgs_eq_requested (h : ValidDestPort data) :
    remoteArgs data = requested data := by
  obtain ⟨hlow, hhigh⟩ := h
  have hfits : toUInt16 data.destPort = data.destPort :=
    toUInt16_eq_self_iff.mpr (by omega)
  unfold remoteArgs requested
  rw [hfits]

theorem toUInt16_toUInt16 (z : ℤ) : toUInt16 (toUInt16 z) = toUInt16 z := by
  unfold toUInt16
  omega

/-- An endpoint whose options were accepted is configured as it was launched. -/
theorem options_of_launch (hg : FollowsGnu getopt) (hdata : Admissible data)
    (h : (launchedOptions getopt config data).2 = none) :
    (launchedOptions getopt config data).1.server = decide (data.client = 0) ∧
      remoteArgs (launchedOptions getopt config data).1.conf =
        remoteArgs data := by
  obtain ⟨hport, hdestPort, hduration, haddress⟩ := hdata
  obtain ⟨hp, hr, hd⟩ :=
    MediaEndpoint.launchedOptions_nonzero hg hport hdestPort hduration h
  rw [launchedOptions_eq hg hport hdestPort hduration hp hr hd]
  refine ⟨rfl, ?_⟩
  simp only [launchResult, remoteArgs, haddress, toUInt16_toUInt16]

/-- What the handler accepts is admissible. -/
theorem admissible_of_addTask {pid : ℤ} {query : Query} {response : Response}
    (h : addTask pid query = (response, some data)) : Admissible data := by
  obtain ⟨-, haccepted⟩ := addTask_accepted h
  refine ⟨haccepted.port_int32, haccepted.destPort_int32,
    haccepted.duration_int32, ?_⟩
  obtain ⟨address, hlen, -, haddress⟩ := haccepted.address
  have hcstr : (cstr address).length ≤ addrSz :=
    le_trans (List.takeWhile_sublist _).length_le (le_trans hlen (by decide))
  rw [haddress]
  exact strncpy_ofArray_strncpy hcstr

end Requests

/-- A process before its stream thread: its options, once they are parsed, are
those of its launch. -/
structure Preparing (g : Ledger) (e : Endpoint N) : Prop where
  processed : g.processed = []
  streamed : g.streamed = []
  early : e.phase.vulnerable = true ∨ e.phase = .blocked
  options : e.phase.configured = true →
    e.options.server = decide (e.launch.client = 0) ∧
      remoteArgs e.options.conf = remoteArgs e.launch

/-- A process with its threads: a client has no request left that was copied and
not streamed while a stream is up, and a server keeps its first remote. -/
structure Tracking (g : Ledger) (r : Running N) : Prop where
  server : r.process.server = decide (r.launch.client = 0)
  locking : Locking r.process
  processed : ∀ data ∈ g.processed,
    requested data = remoteArgs r.process.conf
  streamed : ∀ data ∈ g.streamed, g.remote = some (requested data)
  conf : r.launch.client = 0 →
    remoteArgs r.process.conf = remoteArgs r.launch
  readClient : r.launch.client ≠ 0 → r.process.stream.hasRead = true →
    g.processed = []
  readServer : r.launch.client = 0 → r.process.stream.hasRead = true →
    g.remote = some (remoteArgs r.launch)

/-- The part of the invariant that depends on how far the process has come. -/
def Program.Tracked (g : Ledger) : Program N → Prop
  | starting e => Preparing g e
  | running r => Tracking g r

/-- The signals that the process has not copied its entry for. -/
def Program.unread : Program N → ℕ
  | starting e => e.pending
  | running r => MediaHost.unread r.process

/-- The ledger, the entry and the process agree. -/
structure Ledgered (records : List Data) (pid : ℤ) (g : Ledger)
    (p : Program N) : Prop where
  admissible : Admissible p.launch
  flag : ∀ r ∈ records, r.pid = pid → (r.client = 0 ↔ p.launch.client = 0)
  unread : g.announced.length = p.unread
  mode : ∀ data ∈ g.announced ++ (g.processed ++ g.streamed),
    (data.client = 0 ↔ p.launch.client = 0)
  same : p.listening = true → ∀ data ∈ g.announced ++ g.processed,
    ValidDestPort data ∧ ∀ r ∈ records, r.pid = pid →
      requested data = requested r
  entry : p.listening = true → p.launch.client = 0 →
    ∀ r ∈ records, r.pid = pid → remoteArgs r = remoteArgs p.launch
  tracked : p.Tracked g

section Ledgered

variable {records records' : List Data} {pid : ℤ} {g : Ledger}
  {p : Program N} {r r' : Running N} {e e' : Endpoint N} {data : Data}

theorem alive_running_iff :
    (Program.running r).alive = true ↔ r.process.termination = none := by
  unfold Program.alive
  rw [Bool.not_eq_true']
  constructor
  · intro hended
    by_contra hterminated
    have hphase : (Program.running r).endpoint.phase = r.phase := rfl
    rcases phase_of_terminated hterminated with heq | heq
    · rw [hphase, heq] at hended
      cases hended
    · rw [hphase, heq] at hended
      cases hended
  · exact fun halive => (phase_of_alive halive).1

theorem Ledgered.server_iff (h : Ledgered records pid g p) :
    p.server = true ↔ p.launch.client = 0 := by
  cases p with
  | starting e => exact decide_eq_true_iff
  | running r =>
      have hserver : r.process.server = decide (r.launch.client = 0) :=
        Tracking.server h.tracked
      change r.process.server = true ↔ r.launch.client = 0
      rw [hserver]
      exact decide_eq_true_iff

theorem hasRead_of_streams {s : StreamPc} (h : streams s = true) :
    s.hasRead = true := by
  cases s <;> first | rfl | cases h

/-- The invariant is what it takes to honour the requests. -/
theorem Ledgered.honoured (h : Ledgered records pid g p) :
    HonouredBy records pid g p := by
  have hserver := h.server_iff
  refine ⟨?_, ?_⟩
  · intro x hx hpid
    rw [hserver]
    exact h.flag x hx hpid
  · intro hstreaming data hdata
    cases p with
    | starting e => cases hstreaming
    | running r =>
        have htracking : Tracking g r := h.tracked
        have hread := hasRead_of_streams hstreaming
        rw [hserver]
        rcases List.mem_append.mp hdata with hstreamed | hprocessed
        · exact ⟨h.mode data (by simp [hstreamed]),
            htracking.streamed data hstreamed⟩
        · refine ⟨h.mode data (by simp [hprocessed]), ?_⟩
          by_cases hclient : r.launch.client = 0
          · rw [htracking.processed data hprocessed, htracking.conf hclient]
            exact htracking.readServer hclient hread
          · rw [htracking.readClient hclient hread] at hprocessed
            cases hprocessed

theorem Ledgered.of_subset (h : Ledgered records pid g p)
    (hsub : ∀ x ∈ records', x.pid = pid → x ∈ records) :
    Ledgered records' pid g p where
  admissible := h.admissible
  flag := fun x hx hpid => h.flag x (hsub x hx hpid) hpid
  unread := h.unread
  mode := h.mode
  same := fun hlistening data hdata =>
    ⟨(h.same hlistening data hdata).1, fun x hx hpid =>
      (h.same hlistening data hdata).2 x (hsub x hx hpid) hpid⟩
  entry := fun hlistening hclient x hx hpid =>
    h.entry hlistening hclient x (hsub x hx hpid) hpid
  tracked := h.tracked

theorem Ledgered.quiet (h : Ledgered records pid g (.running r))
    (hlaunch : r'.launch = r.launch) (hlocking : Locking r'.process)
    (hquiet : Quiet r.process r'.process)
    (halive : r'.process.termination = none) :
    Ledgered records pid g (.running r') := by
  have ht : Tracking g r := h.tracked
  have hl : (Program.running r').launch = (Program.running r).launch := hlaunch
  refine ⟨?_, ?_, ?_, ?_, ?_, ?_, ?_⟩
  · rw [hl]
    exact h.admissible
  · rw [hl]
    exact h.flag
  · exact h.unread.trans (hquiet.unread halive).symm
  · rw [hl]
    exact h.mode
  · exact fun hlistening => h.same (hquiet.listens hlistening)
  · rw [hl]
    exact fun hlistening => h.entry (hquiet.listens hlistening)
  · refine ⟨?_, hlocking, ?_, ht.streamed, ?_, ?_, ?_⟩
    · rw [hquiet.server, hlaunch]
      exact ht.server
    · rw [hquiet.conf]
      exact ht.processed
    · rw [hquiet.conf, hlaunch]
      exact ht.conf
    · rw [hlaunch]
      exact fun hclient hread => ht.readClient hclient (hquiet.hasRead hread)
    · rw [hlaunch]
      exact fun hclient hread => ht.readServer hclient (hquiet.hasRead hread)

theorem Ledgered.copy (h : Ledgered records pid g (.running r))
    (hmain : r.process.main = .copy) {data : Data} (hdata : data ∈ records)
    (hpid : data.pid = pid) {q : Process}
    (hq : q = { r.process with conf := data, main := .unlockConf })
    (hlocking : Locking q) :
    Ledgered records pid g.process (.running { r with process := q }) := by
  subst hq
  have ht : Tracking g r := h.tracked
  have hlistening : (Program.running r).listening = true := by
    change listens r.process.main = true
    rw [hmain]
    rfl
  have hlength : g.announced.length = r.process.pending + 1 := by
    rw [h.unread]
    change MediaHost.unread r.process = _
    rw [MediaHost.unread, hmain]
    rfl
  obtain ⟨first, rest, hannounced⟩ :=
    List.exists_cons_of_length_eq_add_one hlength
  have hsame := h.same hlistening
  rw [hannounced] at hsame
  have hprocess : g.process = { g with
      announced := rest, processed := g.processed ++ [first] } := by
    simp [Ledger.process, hannounced]
  rw [hprocess]
  refine ⟨h.admissible, h.flag, ?_, ?_, ?_, ?_, ?_⟩
  · rw [hannounced, List.length_cons] at hlength
    exact Nat.succ_injective hlength
  · intro d hd
    apply h.mode d
    rw [hannounced]
    simp only [List.mem_append, List.mem_cons, List.not_mem_nil] at hd ⊢
    tauto
  · intro _ d hd
    apply hsame d
    simp only [List.mem_append, List.mem_cons, List.not_mem_nil] at hd ⊢
    tauto
  · exact fun _ => h.entry hlistening
  · refine ⟨ht.server, hlocking, ?_, ht.streamed, ?_, ?_, ht.readServer⟩
    · intro d hd
      obtain ⟨hvalid, hrequested⟩ := hsame d (by
        simp only [List.mem_append, List.mem_cons, List.not_mem_nil] at hd ⊢
        tauto)
      have heq := hrequested data hdata hpid
      rw [← remoteArgs_eq_requested hvalid]
      exact remoteArgs_congr heq
    · exact fun hclient => h.entry hlistening hclient data hdata hpid
    · -- a client that has read `conf` holds the mutex that `main` holds here
      intro hclient hread
      exfalso
      have hbranch := ht.locking.branch
      have hholds : r.process.stream.holdsMutex = true := by
        rw [ht.server, decide_eq_false hclient] at hbranch
        revert hbranch hread
        cases r.process.stream <;> simp [StreamPc.inBranch, StreamPc.hasRead,
          StreamPc.holdsMutex]
      have howner := ht.locking.main.mpr (by rw [hmain]; rfl)
      rw [ht.locking.stream.mpr hholds] at howner
      cases howner

theorem Ledgered.read (h : Ledgered records pid g (.running r))
    {q : Process} (hq : q = { r.process with stream := .createStream })
    (hlocking : Locking q) :
    Ledgered records pid (g.setRemote (remoteArgs r.process.conf))
      (.running { r with process := q }) := by
  subst hq
  have ht : Tracking g r := h.tracked
  refine ⟨h.admissible, h.flag, h.unread, ?_, ?_, h.entry, ?_⟩
  · intro d hd
    apply h.mode d
    simp only [Ledger.setRemote, List.mem_append, List.not_mem_nil] at hd ⊢
    tauto
  · intro hlistening d hd
    apply h.same hlistening d
    simp only [Ledger.setRemote, List.mem_append, List.not_mem_nil] at hd ⊢
    tauto
  · refine ⟨ht.server, hlocking, nofun, ?_, ht.conf, fun _ _ => rfl, ?_⟩
    · intro d hd
      exact congrArg some (ht.processed d hd).symm
    · intro hclient _
      exact congrArg some (ht.conf hclient)

/-- What a signal leaves of a process that survives it. -/
theorem deliver_spec (g : Ledger) (data : Data)
    (halive : p.deliver.alive = true) :
    p.alive = true ∧ p.endpoint.phase.vulnerable = false ∧
      p.deliver.launch = p.launch ∧ p.deliver.listening = p.listening ∧
      p.deliver.unread = p.unread + 1 ∧
      (p.Tracked g → p.deliver.Tracked (g.announce data)) := by
  cases p with
  | starting e =>
      have hdeliver : (Program.starting e).deliver = .starting e.deliver := rfl
      rw [hdeliver] at halive ⊢
      rcases e.deliver_cases with ⟨hended, heq⟩ | ⟨-, heq⟩ |
        ⟨hended, hvulnerable, heq⟩
      · rw [heq] at halive
        simp [Program.alive, Program.endpoint, hended] at halive
      · rw [heq] at halive
        simp [Program.alive, Program.endpoint, Phase.ended] at halive
      · rw [heq]
        refine ⟨by simp [Program.alive, Program.endpoint, hended],
          hvulnerable, rfl, rfl, rfl, ?_⟩
        intro ht
        have hprepares : Preparing g e := ht
        exact ⟨hprepares.processed, hprepares.streamed, hprepares.early,
          hprepares.options⟩
  | running r =>
      by_cases hterm : r.process.termination = none
      · have hdeliver : (Program.running r).deliver = .running
            { r with process :=
                { r.process with pending := r.process.pending + 1 } } := by
          simp [Program.deliver, Running.step, Process.next, hterm,
            Process.act]
        rw [hdeliver]
        refine ⟨alive_running_iff.mpr hterm, (phase_of_alive hterm).2, rfl, rfl,
          ?_, ?_⟩
        · simp only [Program.unread, MediaHost.unread]
          omega
        · intro ht
          have htracking : Tracking g r := ht
          exact ⟨htracking.server, ⟨htracking.locking.main,
            htracking.locking.stream, htracking.locking.running,
            htracking.locking.branch, htracking.locking.finished⟩,
            htracking.processed, htracking.streamed, htracking.conf,
            htracking.readClient, htracking.readServer⟩
      · have hdeliver : (Program.running r).deliver = .running r := by
          simp [Program.deliver, Running.step, Process.next, hterm]
        rw [hdeliver] at halive
        exact absurd (alive_running_iff.mp halive) hterm

theorem Ledgered.deliver (h : Ledgered records pid g p)
    (halive : p.deliver.alive = true)
    (hmode : data.client = 0 ↔ p.launch.client = 0)
    (hfit : p.listening = true →
      ValidDestPort data ∧ Retargets records pid g p data)
    (hentry : ∀ x ∈ records', x.pid = pid →
      x.client = data.client ∧ requested x = requested data)
    (hold : ∃ x ∈ records, x.pid = pid) :
    Ledgered records' pid (g.announce data) p.deliver := by
  obtain ⟨-, -, hlaunch, hlistens, hunread, htracked⟩ :=
    deliver_spec g data halive
  obtain ⟨old, hmem, hpid⟩ := hold
  refine ⟨?_, ?_, ?_, ?_, ?_, ?_, htracked h.tracked⟩
  · rw [hlaunch]
    exact h.admissible
  · intro x hx hxpid
    rw [hlaunch, (hentry x hx hxpid).1]
    exact hmode
  · rw [hunread, ← h.unread]
    simp [Ledger.announce]
  · intro d hd
    rw [hlaunch]
    simp only [Ledger.announce, List.append_assoc, List.mem_append,
      List.mem_singleton] at hd
    rcases hd with hannounced | rfl | hrest
    · exact h.mode d (by simp [hannounced])
    · exact hmode
    · exact h.mode d (by simp [hrest])
  · intro hlistening d hd
    rw [hlistens] at hlistening
    obtain ⟨hvalid, hretargets⟩ := hfit hlistening
    have hnew : ValidDestPort d ∧ requested d = requested data := by
      simp only [Ledger.announce, List.append_assoc, List.mem_append,
        List.mem_singleton] at hd
      by_cases heq : d = data
      · rw [heq]
        exact ⟨hvalid, rfl⟩
      · have hbefore : d ∈ g.announced ++ g.processed := by
          rw [List.mem_append]
          tauto
        obtain ⟨hvalid', hsame⟩ := h.same hlistening d hbefore
        refine ⟨hvalid', ?_⟩
        rcases hretargets with hentry' | ⟨-, hannounced, hprocessed⟩
        · rw [hsame old hmem hpid, hentry' old hmem hpid]
        · rw [hannounced, hprocessed] at hbefore
          cases hbefore
    exact ⟨hnew.1, fun x hx hxpid =>
      hnew.2.trans (hentry x hx hxpid).2.symm⟩
  · intro hlistening hclient x hx hxpid
    rw [hlistens] at hlistening
    rw [hlaunch] at hclient ⊢
    rcases (hfit hlistening).2 with hretargets | ⟨hne, -⟩
    · rw [remoteArgs_congr (hentry x hx hxpid).2,
        remoteArgs_congr (hretargets old hmem hpid)]
      exact h.entry hlistening hclient old hmem hpid
    · exact absurd hclient hne

theorem ledgered_child {launch : Data} (hdata : Admissible data)
    (hlaunch : ∃ parent, launch = { data with pid := parent })
    (hentry : ∀ x ∈ records, x.pid = pid →
      x.client = data.client ∧ requested x = requested data) :
    Ledgered records pid .empty
      (.starting (Endpoint.child launch : Endpoint N)) := by
  obtain ⟨parent, rfl⟩ := hlaunch
  refine ⟨hdata, ?_, rfl, nofun, fun _ => nofun, ?_, ⟨rfl, rfl, Or.inl rfl,
    nofun⟩⟩
  · intro x hx hpid
    rw [(hentry x hx hpid).1]
    exact Iff.rfl
  · intro _ _ x hx hpid
    exact remoteArgs_congr (hentry x hx hpid).2

theorem Ledgered.startUp (hg : FollowsGnu getopt)
    (h : Ledgered records pid g (.starting e)) (hphase : e.phase ≠ .blocked)
    {l l' : SharedLst N} {o : Observation}
    (hadvance : e.advance getopt config l = some (l', e', o)) :
    l' = l ∧ ((Program.starting e').alive = true →
      Ledgered records pid g (.starting e')) := by
  have ht : Preparing g e := h.tracked
  have hkept : ∀ e₁ : Endpoint N, e₁.launch = e.launch →
      e₁.pending = e.pending → Preparing g e₁ →
      Ledgered records pid g (.starting e₁) := by
    intro e₁ hlaunch hpending hprepares
    have hl : (Program.starting e₁).launch = (Program.starting e).launch :=
      hlaunch
    refine ⟨?_, ?_, h.unread.trans hpending.symm, ?_, h.same, ?_, hprepares⟩
    · rw [hl]
      exact h.admissible
    · rw [hl]
      exact h.flag
    · rw [hl]
      exact h.mode
    · rw [hl]
      exact h.entry
  have hearly : e.phase = .forked ∨ e.phase = .execd ∨ e.phase = .parsed ∨
      e.phase = .opened := by
    rcases ht.early with hvulnerable | hblocked
    · revert hvulnerable
      cases e.phase <;> simp [Phase.vulnerable]
    · exact absurd hblocked hphase
  rcases hearly with hpc | hpc | hpc | hpc
  all_goals
    simp only [Endpoint.advance, hpc] at hadvance
    cases hadvance
    refine ⟨rfl, fun halive => hkept _ rfl rfl ?_⟩
  · exact ⟨ht.processed, ht.streamed, Or.inl rfl, by
      simp [Endpoint.enter, Phase.configured]⟩
  · cases hexit : (launchedOptions getopt config e.launch).2 with
    | some exit =>
        rw [hexit] at halive
        cases halive
    | none =>
        exact ⟨ht.processed, ht.streamed, Or.inl rfl,
          fun _ => options_of_launch hg h.admissible hexit⟩
  · exact ⟨ht.processed, ht.streamed, Or.inl rfl,
      fun _ => ht.options (by rw [hpc]; rfl)⟩
  · exact ⟨ht.processed, ht.streamed, Or.inr rfl,
      fun _ => ht.options (by rw [hpc]; rfl)⟩

theorem Ledgered.start (h : Ledgered records pid g (.starting e))
    (hphase : e.phase = .blocked) :
    Ledgered records pid g (.running (.start e)) := by
  have ht : Preparing g e := h.tracked
  obtain ⟨hserver, hremote⟩ := ht.options (by rw [hphase]; rfl)
  have hkeep : e.options.defaultDuration.server = e.options.server ∧
      remoteArgs e.options.defaultDuration.conf =
        remoteArgs e.options.conf := by
    unfold MediaEndpoint.Options.defaultDuration
    split <;> exact ⟨rfl, rfl⟩
  have hlocking := start_locking e.options
  refine ⟨h.admissible, h.flag, h.unread, h.mode, fun _ => h.same rfl,
    fun _ => h.entry rfl, ?_⟩
  refine ⟨hkeep.1.trans hserver, ?_, ?_, ?_, fun _ => hkeep.2.trans hremote,
    ?_, ?_⟩
  · exact ⟨hlocking.main, hlocking.stream, hlocking.running, hlocking.branch,
      hlocking.finished⟩
  · rw [ht.processed]
    exact nofun
  · rw [ht.streamed]
    exact nofun
  · exact fun _ _ => ht.processed
  · intro _ hread
    cases hread

end Ledgered

end SippScen.MediaHost
