import SippScen.MediaEndpoint.RtpEndpoint

/-!
# The wiring of a reused endpoint

Every iteration of a client creates a stream, but the player and the master port
are created once and the destructor knows the last stream only.  From the second
iteration on the player stays connected to the first stream, while the score is
that of the last one, and all streams but the last are never destroyed.
-/

namespace SippScen.MediaEndpoint

open SippScen.Support SippScen.SharedList RtpEndpoint
open Effect (bind_of_yields yields_bind)

/-! ## What a log shows -/

/-- The streams that were created. -/
def createdStreams (log : List Call) : List Handle :=
  log.filterMap fun
    | .streamCreate _ stream => some stream
    | _ => none

/-- The streams that were destroyed. -/
def destroyedStreams (log : List Call) : List Handle :=
  log.filterMap fun
    | .streamDestroy stream => some stream
    | _ => none

/-- A master port with the ports that it connects. -/
structure Connection where
  source : Option MediaPort
  sink : Option MediaPort
  masterPort : Handle
deriving DecidableEq, Repr

/-- The connections that were made. -/
def connections (log : List Call) : List Connection :=
  log.filterMap fun
    | .masterPortCreate source sink masterPort =>
        some ⟨source, sink, masterPort⟩
    | _ => none

/-- The stream was created and not destroyed. -/
def Undestroyed (log : List Call) (stream : Handle) : Prop :=
  stream ∈ createdStreams log ∧ stream ∉ destroyedStreams log

instance (log : List Call) (stream : Handle) :
    Decidable (Undestroyed log stream) :=
  inferInstanceAs (Decidable (_ ∧ _))

section Logs

variable (l l' : List Call)

@[simp] theorem createdStreams_append :
    createdStreams (l ++ l') = createdStreams l ++ createdStreams l' :=
  List.filterMap_append

@[simp] theorem destroyedStreams_append :
    destroyedStreams (l ++ l') = destroyedStreams l ++ destroyedStreams l' :=
  List.filterMap_append

@[simp] theorem connections_append :
    connections (l ++ l') = connections l ++ connections l' :=
  List.filterMap_append

end Logs

/-! ## Iterations -/

/-- The objects that pjmedia creates in one iteration, if it is asked to. -/
structure Created where
  stream : Handle
  player : Handle
  masterPort : Handle
deriving DecidableEq, Repr

/-- The player of an iteration connected to its stream. -/
def Created.connection (c : Created) : Connection :=
  ⟨some (.wavPlayer c.player), some (.ofStream c.stream), c.masterPort⟩

/-- All create calls succeed. -/
structure Replies.Creates (r : Replies) (c : Created) : Prop where
  stream : r.streamCreate = .ok c.stream
  player : r.wavPlayerCreate = .ok c.player
  masterPort : r.masterPortCreate = .ok c.masterPort

/-- An endpoint after `startStream` of its last iteration, when the iterations
before it were completed. -/
def afterStart (wavfile : CString) (before : List (Data × Replies))
    (last : Data × Replies) : Outcome Thrown RtpEndpoint Call Unit :=
  (clientLoop wavfile before >>= fun _ =>
    clientStart wavfile last.1 last.2) (construct .encoding)

/-- Iterations in which pjmedia creates the given objects, all streams being
fresh, up to `startStream` of the last one. -/
structure Iterated (wavfile : CString) (before : List (Data × Replies))
    (last : Data × Replies) (objects : List Created) (c : Created) : Prop where
  creates : List.Forall₂ (fun it c => it.2.Creates c) before objects
  creates_last : last.2.Creates c
  fresh : ((objects ++ [c]).map Created.stream).Nodup
  started : (afterStart wavfile before last).result = .ok ()

/-- The master port connects the player to the stream, which is the one that
`get_MOS` reads. -/
def ConnectedTo (stream : Handle) (e : RtpEndpoint) (log : List Call) : Prop :=
  e.stream = some stream ∧
    ∃ player masterPort, e.playFilePort = some (.wavPlayer player) ∧
      e.masterPort = some masterPort ∧
      ⟨some (.wavPlayer player), some (.ofStream stream), masterPort⟩ ∈
        connections log

/-- In the last iteration the player is connected to the stream that was created
in it, there is no other undestroyed stream, and in the end all streams are
destroyed. -/
structure Wired (wavfile : CString) (before : List (Data × Replies))
    (last : Data × Replies) : Prop where
  connected : ∃ stream, last.2.streamCreate = .ok stream ∧
    ConnectedTo stream (afterStart wavfile before last).state
      (afterStart wavfile before last).log
  one_undestroyed : ∀ s t,
    Undestroyed (afterStart wavfile before last).log s →
    Undestroyed (afterStart wavfile before last).log t → s = t
  all_destroyed : ∀ s ∈ createdStreams (lifetime wavfile (before ++ [last])),
    s ∈ destroyedStreams (lifetime wavfile (before ++ [last]))

/-! ## What the methods do -/

section Methods

variable {e e' : RtpEndpoint} {l : List Call} {r : Replies} {c : Created}
  {wavfile : CString} {conf : Data} {u : Unit}

@[simp] theorem yields_checkStatus {check : Thrown} {status : Status} :
    (checkStatus check status).Yields e u e' l ↔
      status = 0 ∧ e = e' ∧ [] = l := by
  unfold checkStatus
  split
  · simp_all
  · simp_all

theorem setRemoteAddr_spec {ipAddr : CString} {port : ℤ}
    (h : (setRemoteAddr ipAddr port r).Yields e u e' l) :
    ∃ info, e' = { e with info := info } ∧ l = [] := by
  simp [setRemoteAddr, yields_bind] at h
  obtain ⟨⟨-, rfl⟩, -, rfl⟩ := h
  exact ⟨_, rfl, rfl⟩

theorem createStream_spec (hr : r.Creates c)
    (h : (createStream r).Yields e u e' l) :
    e' = { e with
      stream := some c.stream, streamPort := some (.ofStream c.stream) } ∧
      l = [.streamCreate e.info c.stream, .transportMediaStart] := by
  simp [createStream, yields_bind, hr.stream] at h
  obtain ⟨⟨-, rfl⟩, rfl⟩ := h
  exact ⟨rfl, rfl⟩

theorem createPlayer_spec (hr : r.Creates c)
    (h : (createPlayer wavfile r).Yields e u e' l) :
    e' = { e with
      playFilePort := some (.wavPlayer c.player)
      masterPort := some c.masterPort } ∧
      l = [.wavPlayerCreate wavfile c.player,
        .masterPortCreate (some (.wavPlayer c.player)) e.streamPort
          c.masterPort] := by
  simp [createPlayer, yields_bind, hr.player, hr.masterPort] at h
  obtain ⟨rfl, rfl⟩ := h
  exact ⟨rfl, rfl⟩

theorem startStream_spec (h : (startStream r).Yields e u e' l) :
    e' = e ∧ l = [.streamStart e.stream] := by
  simp [startStream, yields_bind] at h
  obtain ⟨⟨rfl, -⟩, rfl⟩ := h
  exact ⟨rfl, rfl⟩

theorem startStreamFrom_first (hr : r.Creates c)
    (hfirst : e.playFilePort = none)
    (h : (startStreamFrom (some wavfile) r).Yields e u e' l) :
    e' = { e with
      playFilePort := some (.wavPlayer c.player)
      masterPort := some c.masterPort } ∧
      l = [.wavPlayerCreate wavfile c.player,
        .masterPortCreate (some (.wavPlayer c.player)) e.streamPort
          c.masterPort, .streamStart e.stream] := by
  simp only [startStreamFrom, yields_bind, Effect.yields_read] at h
  obtain ⟨_, _, _, _, ⟨rfl, rfl, rfl⟩, h, rfl⟩ := h
  rw [hfirst] at h
  obtain ⟨_, _, _, _, hplayer, hstart, rfl⟩ := yields_bind.mp h
  obtain ⟨rfl, rfl⟩ := createPlayer_spec hr hplayer
  obtain ⟨rfl, rfl⟩ := startStream_spec hstart
  exact ⟨rfl, rfl⟩

theorem startStreamFrom_later {port : MediaPort}
    (hlater : e.playFilePort = some port)
    (h : (startStreamFrom (some wavfile) r).Yields e u e' l) :
    e' = e ∧ l = [.streamStart e.stream] := by
  simp only [startStreamFrom, yields_bind, Effect.yields_read] at h
  obtain ⟨_, _, _, _, ⟨rfl, rfl, rfl⟩, h, rfl⟩ := h
  rw [hlater] at h
  exact startStream_spec h

/-- An iteration up to `startStream`: a stream is created, and a player and a
master port if there are none. -/
theorem clientStart_spec (hr : r.Creates c)
    (h : (clientStart wavfile conf r).Yields e u e' l) :
    e'.stream = some c.stream ∧ createdStreams l = [c.stream] ∧
      destroyedStreams l = [] ∧
      (e.playFilePort = none →
        e'.playFilePort = some (.wavPlayer c.player) ∧
          e'.masterPort = some c.masterPort ∧
          connections l = [c.connection]) ∧
      (∀ port, e.playFilePort = some port →
        e'.playFilePort = some port ∧ e'.masterPort = e.masterPort ∧
          connections l = []) := by
  obtain ⟨_, _, _, _, haddr, hrest, rfl⟩ := yields_bind.mp h
  obtain ⟨_, _, _, _, hcreate, hstart, rfl⟩ := yields_bind.mp hrest
  obtain ⟨info, rfl, rfl⟩ := setRemoteAddr_spec haddr
  obtain ⟨rfl, rfl⟩ := createStream_spec hr hcreate
  cases hplayer : e.playFilePort with
  | none =>
      obtain ⟨rfl, rfl⟩ :=
        startStreamFrom_first hr (by exact hplayer) hstart
      refine ⟨rfl, rfl, rfl, fun _ => ⟨rfl, rfl, rfl⟩, fun port hsome => ?_⟩
      cases hsome
  | some port =>
      obtain ⟨rfl, rfl⟩ := startStreamFrom_later (by exact hplayer) hstart
      refine ⟨rfl, rfl, rfl, fun hnone => ?_,
        fun port' hsome => ⟨hplayer.trans hsome, rfl, rfl⟩⟩
      cases hnone

end Methods

/-! ## Calls that leave the objects alone -/

/-- The call neither creates nor destroys a stream, nor connects ports. -/
def Quiet (call : Call) : Prop :=
  createdStreams [call] = [] ∧ destroyedStreams [call] = [] ∧
    connections [call] = []

theorem quiet_log {l : List Call} (h : ∀ call ∈ l, Quiet call) :
    createdStreams l = [] ∧ destroyedStreams l = [] ∧ connections l = [] := by
  induction l with
  | nil => exact ⟨rfl, rfl, rfl⟩
  | cons call l ih =>
      obtain ⟨hcreated, hdestroyed, hconnections⟩ := h call List.mem_cons_self
      obtain ⟨hcreated', hdestroyed', hconnections'⟩ :=
        ih fun c hc => h c (List.mem_cons_of_mem _ hc)
      rw [← List.singleton_append, createdStreams_append,
        destroyedStreams_append, connections_append, hcreated, hcreated',
        hdestroyed, hdestroyed', hconnections, hconnections']
      exact ⟨rfl, rfl, rfl⟩

theorem checkStatus_quiet (check : Thrown) (status : Status) :
    (checkStatus check status).OnlyLogs Quiet := by
  unfold checkStatus
  split
  · exact Effect.onlyLogs_fail check
  · exact Effect.onlyLogs_pure ()

theorem clientStream_quiet (r : Replies) : (clientStream r).OnlyLogs Quiet := by
  have hquiet : ∀ call, Quiet call →
      (Effect.emit call : Method Unit).OnlyLogs Quiet :=
    fun _ => Effect.onlyLogs_emit
  refine Effect.onlyLogs_bind ?_ fun _ => Effect.onlyLogs_bind ?_ fun mos =>
    Effect.onlyLogs_bind (hquiet _ ⟨rfl, rfl, rfl⟩) fun _ => ?_
  · refine Effect.onlyLogs_bind (Effect.onlyLogs_read _) fun _ => ?_
    exact Effect.onlyLogs_bind (hquiet _ ⟨rfl, rfl, rfl⟩)
      fun _ => checkStatus_quiet _ _
  · refine Effect.onlyLogs_bind (Effect.onlyLogs_read _) fun e => ?_
    refine Effect.onlyLogs_bind (hquiet _ ⟨rfl, rfl, rfl⟩) fun _ => ?_
    exact Effect.onlyLogs_bind (hquiet _ ⟨rfl, rfl, rfl⟩)
      fun _ => Effect.onlyLogs_pure _
  · refine Effect.onlyLogs_bind (Effect.onlyLogs_read _) fun _ => ?_
    exact Effect.onlyLogs_bind (hquiet _ ⟨rfl, rfl, rfl⟩)
      fun _ => checkStatus_quiet _ _

theorem destroy_spec (e : RtpEndpoint) :
    createdStreams (destroy e).log = [] ∧
      destroyedStreams (destroy e).log = e.stream.toList := by
  obtain ⟨info, stream, streamPort, playFilePort, masterPort⟩ := e
  cases masterPort <;> cases stream <;> cases playFilePort <;> exact ⟨rfl, rfl⟩

/-! ## Every run -/

/-- What holds after the iterations that created the given objects. -/
structure Served (objects : List Created) (e : RtpEndpoint) (l : List Call) :
    Prop where
  created : createdStreams l = objects.map Created.stream
  destroyed : destroyedStreams l = []
  stream : e.stream = (objects.map Created.stream).getLast?
  player : e.playFilePort = objects.head?.map fun c => .wavPlayer c.player
  masterPort : e.masterPort = objects.head?.map Created.masterPort
  connections : connections l = (objects.head?.map Created.connection).toList

section Runs

variable {objects objects' : List Created} {c : Created} {e e' : RtpEndpoint}
  {l l' : List Call} {r : Replies} {wavfile : CString} {conf : Data} {u : Unit}
  {before iterations : List (Data × Replies)} {last : Data × Replies}

theorem served_construct (dir : MediaDir) : Served [] (construct dir) [] :=
  ⟨rfl, rfl, rfl, rfl, rfl, rfl⟩

theorem Served.start (h : Served objects e l) (hr : r.Creates c)
    (hstart : (clientStart wavfile conf r).Yields e u e' l') :
    Served (objects ++ [c]) e' (l ++ l') := by
  obtain ⟨hstream, hcreated, hdestroyed, hfirst, hlater⟩ :=
    clientStart_spec hr hstart
  have hcreated' :
      createdStreams (l ++ l') = (objects ++ [c]).map Created.stream := by
    rw [createdStreams_append, h.created, hcreated, List.map_append]
    rfl
  have hdestroyed' : destroyedStreams (l ++ l') = [] := by
    rw [destroyedStreams_append, h.destroyed, hdestroyed]
    rfl
  have hstream' :
      e'.stream = ((objects ++ [c]).map Created.stream).getLast? := by
    rw [hstream, List.map_append, List.map_singleton, List.getLast?_concat]
  -- only the first iteration finds no player
  cases objects with
  | nil =>
      obtain ⟨hport, hmaster, hconnected⟩ := hfirst h.player
      refine ⟨hcreated', hdestroyed', hstream', hport, hmaster, ?_⟩
      rw [connections_append, h.connections, hconnected]
      rfl
  | cons c₀ objects =>
      obtain ⟨hport, hmaster, hconnected⟩ := hlater _ h.player
      refine ⟨hcreated', hdestroyed', hstream', hport,
        hmaster.trans h.masterPort, ?_⟩
      rw [connections_append, h.connections, hconnected]
      rfl

theorem Served.quiet (h : Served objects e l)
    (hquiet : ∀ call ∈ l', Quiet call) : Served objects e (l ++ l') := by
  obtain ⟨hcreated, hdestroyed, hconnections⟩ := quiet_log hquiet
  refine ⟨?_, ?_, h.stream, h.player, h.masterPort, ?_⟩
  · rw [createdStreams_append, hcreated, List.append_nil, h.created]
  · rw [destroyedStreams_append, hdestroyed, List.append_nil, h.destroyed]
  · rw [connections_append, hconnections, List.append_nil, h.connections]

theorem Served.iteration (h : Served objects e l) (hr : r.Creates c)
    (hiteration : (clientIteration wavfile conf r).Yields e u e' l') :
    Served (objects ++ [c]) e' (l ++ l') := by
  obtain ⟨_, e₁, l₁, l₂, hstart, hstream, rfl⟩ := yields_bind.mp hiteration
  obtain ⟨hstate, hlog⟩ := clientStream_quiet r e₁
  rw [hstream] at hstate hlog
  obtain rfl : e' = e₁ := hstate
  rw [← List.append_assoc]
  exact (h.start hr hstart).quiet hlog

theorem Served.loop (h : Served objects e l)
    (hcreates : List.Forall₂ (fun it c => it.2.Creates c) iterations objects')
    (hloop : (clientLoop wavfile iterations).Yields e u e' l') :
    Served (objects ++ objects') e' (l ++ l') := by
  induction hcreates generalizing objects e l l' with
  | nil =>
      obtain ⟨-, rfl, rfl⟩ := Effect.yields_pure.mp hloop
      rwa [List.append_nil, List.append_nil]
  | @cons iteration c iterations objects' hr _ ih =>
      obtain ⟨_, e₁, l₁, l₂, hiteration, hrest, rfl⟩ := yields_bind.mp hloop
      have hserved := ih (h.iteration hr hiteration) hrest
      rwa [List.append_assoc, List.append_assoc] at hserved

theorem clientLoop_concat (e₀ : RtpEndpoint)
    (hreached : (clientLoop wavfile before >>= fun _ =>
      clientStart wavfile last.1 last.2).Yields e₀ u e l) :
    ∃ rest, (∀ call ∈ rest, Quiet call) ∧
      (clientLoop wavfile (before ++ [last]) e₀).state = e ∧
      (clientLoop wavfile (before ++ [last]) e₀).log = l ++ rest := by
  induction before generalizing e₀ l with
  | nil =>
      obtain ⟨_, _, _, _, hnil, hstart, rfl⟩ := yields_bind.mp hreached
      obtain ⟨-, rfl, rfl⟩ := Effect.yields_pure.mp hnil
      obtain ⟨hstate, hlog⟩ := clientStream_quiet last.2 e
      obtain ⟨hstate', hlog'⟩ := Effect.bind_pure_spec
        (clientIteration wavfile last.1 last.2) () e₀
      rw [clientIteration, bind_of_yields hstart] at hstate' hlog'
      exact ⟨_, hlog, hstate'.trans hstate, hlog'⟩
  | cons iteration before ih =>
      obtain ⟨_, e₂, l₁, l₂, hloop, hstart, rfl⟩ := yields_bind.mp hreached
      obtain ⟨_, e₁, l₃, l₄, hiteration, hrest, rfl⟩ := yields_bind.mp hloop
      obtain ⟨rest, hquiet, hstate, hlog⟩ :=
        ih e₁ (yields_bind.mpr ⟨_, _, _, _, hrest, hstart, rfl⟩)
      refine ⟨rest, hquiet, ?_, ?_⟩
      all_goals
        rw [List.cons_append, clientLoop, bind_of_yields hiteration]
      · exact hstate
      · simp only [hlog, List.append_assoc]

end Runs

/-! ## Reuse -/

section Reuse

variable {wavfile : CString} {before : List (Data × Replies)}
  {last : Data × Replies} {objects : List Created} {c : Created}

theorem Iterated.yields (h : Iterated wavfile before last objects c) :
    afterStart wavfile before last =
      ⟨.ok (), (afterStart wavfile before last).state,
        (afterStart wavfile before last).log⟩ := by
  rw [← h.started]

theorem Iterated.served (h : Iterated wavfile before last objects c) :
    Served (objects ++ [c]) (afterStart wavfile before last).state
      (afterStart wavfile before last).log := by
  obtain ⟨_, e₁, l₁, l₂, hloop, hstart, hlog⟩ := yields_bind.mp h.yields
  have hserved := (served_construct .encoding).loop h.creates hloop
  rw [List.nil_append, List.nil_append] at hserved
  rw [← hlog]
  exact hserved.start h.creates_last hstart

theorem Iterated.lifetime_spec (h : Iterated wavfile before last objects c) :
    createdStreams (lifetime wavfile (before ++ [last])) =
        (objects ++ [c]).map Created.stream ∧
      destroyedStreams (lifetime wavfile (before ++ [last])) = [c.stream] := by
  obtain ⟨rest, hquiet, hstate, hlog⟩ := clientLoop_concat _ h.yields
  have hserved := h.served.quiet hquiet
  obtain ⟨hcreated, hdestroyed⟩ :=
    destroy_spec (afterStart wavfile before last).state
  rw [lifetime, hstate, hlog]
  constructor
  · rw [createdStreams_append, hcreated, List.append_nil, hserved.created]
  · rw [destroyedStreams_append, hdestroyed, hserved.destroyed, hserved.stream]
    simp

theorem Iterated.objects_eq_nil_iff
    (h : Iterated wavfile before last objects c) :
    objects = [] ↔ before = [] := by
  rw [← List.length_eq_zero_iff, ← List.length_eq_zero_iff,
    h.creates.length_eq]

theorem Iterated.stream_ne (h : Iterated wavfile before last objects c)
    {c₀ : Created} (hc₀ : c₀ ∈ objects) : c₀.stream ≠ c.stream := by
  have hfresh := h.fresh
  rw [List.map_append, List.nodup_append] at hfresh
  exact hfresh.2.2 _ (List.mem_map_of_mem hc₀) _ (by simp)

/-- The player is connected to the stream of the last iteration only if that is
the first one, too. -/
theorem Iterated.connected_iff (h : Iterated wavfile before last objects c) :
    (∃ stream, last.2.streamCreate = .ok stream ∧
      ConnectedTo stream (afterStart wavfile before last).state
        (afterStart wavfile before last).log) ↔ before = [] := by
  have hserved := h.served
  rw [← h.objects_eq_nil_iff]
  constructor
  · rintro ⟨stream, hcreate, -, player, masterPort, -, -, hconnected⟩
    obtain rfl : stream = c.stream := by
      rw [h.creates_last.stream] at hcreate
      exact (Except.ok.inj hcreate).symm
    cases objects with
    | nil => rfl
    | cons c₀ objects =>
        rw [hserved.connections] at hconnected
        have hsame : c.stream = c₀.stream := by
          simp only [List.cons_append, List.head?_cons, Option.map_some,
            Option.toList_some, List.mem_singleton, Created.connection,
            Connection.mk.injEq, Option.some.injEq, MediaPort.ofStream.injEq]
            at hconnected
          exact hconnected.2.1
        exact absurd hsame.symm (h.stream_ne List.mem_cons_self)
  · rintro rfl
    refine ⟨c.stream, h.creates_last.stream, hserved.stream, c.player,
      c.masterPort, hserved.player, hserved.masterPort, ?_⟩
    rw [hserved.connections]
    exact List.mem_singleton_self _

theorem Iterated.one_undestroyed_iff
    (h : Iterated wavfile before last objects c) :
    (∀ s t, Undestroyed (afterStart wavfile before last).log s →
      Undestroyed (afterStart wavfile before last).log t → s = t) ↔
      before = [] := by
  have hserved := h.served
  have hundestroyed : ∀ s, Undestroyed (afterStart wavfile before last).log s ↔
      s ∈ (objects ++ [c]).map Created.stream := by
    intro s
    rw [Undestroyed, hserved.created, hserved.destroyed]
    simp
  simp only [hundestroyed]
  rw [← h.objects_eq_nil_iff]
  constructor
  · intro hone
    by_contra hne
    obtain ⟨c₀, hc₀⟩ := List.exists_mem_of_ne_nil _ hne
    exact h.stream_ne hc₀ (hone _ _
      (List.mem_map_of_mem (List.mem_append_left _ hc₀))
      (List.mem_map_of_mem (List.mem_append_right _ List.mem_cons_self)))
  · rintro rfl s t hs ht
    exact (List.mem_singleton.mp hs).trans (List.mem_singleton.mp ht).symm

theorem Iterated.all_destroyed_iff
    (h : Iterated wavfile before last objects c) :
    (∀ s ∈ createdStreams (lifetime wavfile (before ++ [last])),
      s ∈ destroyedStreams
        (lifetime wavfile (before ++ [last]))) ↔
      before = [] := by
  obtain ⟨hcreated, hdestroyed⟩ := h.lifetime_spec
  rw [hcreated, hdestroyed, ← h.objects_eq_nil_iff]
  constructor
  · intro hall
    by_contra hne
    obtain ⟨c₀, hc₀⟩ := List.exists_mem_of_ne_nil _ hne
    exact h.stream_ne hc₀ (List.mem_singleton.mp
      (hall _ (List.mem_map_of_mem (List.mem_append_left _ hc₀))))
  · rintro rfl s hs
    exact hs

/-- The endpoint is wired in its first iteration and in no other one. -/
theorem wired_iff (h : Iterated wavfile before last objects c) :
    Wired wavfile before last ↔ before = [] := by
  constructor
  · intro hwired
    exact h.connected_iff.mp hwired.connected
  · intro hfirst
    exact ⟨h.connected_iff.mpr hfirst, h.one_undestroyed_iff.mpr hfirst,
      h.all_destroyed_iff.mpr hfirst⟩

end Reuse

/-! ## One call, and a second one -/

/-- Replies of an iteration that creates the given objects. -/
def repliesFor (c : Created) : Replies where
  createSocket := 0
  setPort := 0
  streamCreate := .ok c.stream
  getPort := 0
  wavPlayerCreate := .ok c.player
  masterPortCreate := .ok c.masterPort
  streamStart := 0
  masterPortStart := 0
  stat := cleanStat
  masterPortStop := 0

def firstCall : Data × Replies :=
  (⟨4000, 5000, strncpy addrSz "10.0.0.2".toList, 1000, 1, 1⟩, repliesFor ⟨1, 2, 3⟩)

def secondCall : Data × Replies :=
  (⟨4000, 6000, strncpy addrSz "10.0.0.3".toList, 1000, 1, 1⟩, repliesFor ⟨4, 5, 6⟩)

theorem wired_first : Wired "sample.wav".toList [] firstCall := by
  have hiterated : Iterated "sample.wav".toList [] firstCall [] ⟨1, 2, 3⟩ :=
    ⟨.nil, ⟨rfl, rfl, rfl⟩, by decide, rfl⟩
  exact (wired_iff hiterated).mpr rfl

/-- In the second call the score is that of stream 4 while the player feeds
stream 1, and stream 1 is never destroyed. -/
theorem second_call_miswired :
    (afterStart "sample.wav".toList [firstCall] secondCall).state.stream =
        some 4 ∧
      connections
          (afterStart "sample.wav".toList [firstCall] secondCall).log =
        [⟨some (.wavPlayer 2), some (.ofStream 1), 3⟩] ∧
      Undestroyed (lifetime "sample.wav".toList [firstCall, secondCall]) 1 ∧
      ¬ Wired "sample.wav".toList [firstCall] secondCall := by
  have hundestroyed :
      Undestroyed (lifetime "sample.wav".toList [firstCall, secondCall]) 1 := by
    decide
  refine ⟨rfl, rfl, hundestroyed, ?_⟩
  intro hwired
  exact hundestroyed.2 (hwired.all_destroyed 1 hundestroyed.1)

end SippScen.MediaEndpoint
