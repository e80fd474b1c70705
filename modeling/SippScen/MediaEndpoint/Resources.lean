import SippScen.MediaEndpoint.RtpEndpoint
import SippScen.Support.Wp

/-!
# What the calls of pjmedia work on

Every call that an `RTP_endpoint` makes should get objects that exist: created
before, not yet destroyed, and no null pointer.  This holds of every client and
server, whatever their calls return, with one exception.  `createStream` closes
the transport when it fails; if an earlier call was served, the destructor finds
its stream and stops and closes the same transport again.
-/

namespace SippScen.MediaEndpoint

open SippScen.Support SippScen.SharedList
open Effect (wp wp_bind wp_read wp_change wp_emit wp_pure wp_fail wp_mono)

/-! ## Safe calls -/

section Calls

variable (l : List Call)

/-- The stream has been created and not destroyed. -/
def LiveStream (stream : Handle) : Prop :=
  (∃ info, .streamCreate info stream ∈ l) ∧ .streamDestroy stream ∉ l

/-- So has the player, or the stream behind the port. -/
def LivePort : MediaPort → Prop
  | .wavPlayer player =>
      (∃ wavfile, .wavPlayerCreate wavfile player ∈ l) ∧
        .portDestroy (.wavPlayer player) ∉ l
  | .ofStream stream => LiveStream l stream

def LiveMaster (master : Handle) : Prop :=
  (∃ source sink, .masterPortCreate source sink master ∈ l) ∧
    .masterPortDestroy master ∉ l

/-- After the calls `l` the objects that a call works on exist. -/
def Call.Allowed : Call → Prop
  | .streamCreate _ _ | .transportMediaStart | .transportMediaStop
  | .transportClose => .transportClose ∉ l
  | .wavPlayerCreate _ _ | .send _ => True
  | .masterPortCreate source sink _ =>
      (∃ port, source = some port ∧ LivePort l port) ∧
        ∃ port, sink = some port ∧ LivePort l port
  | .streamStart stream | .streamGetStat stream | .streamResetStat stream =>
      ∃ s, stream = some s ∧ LiveStream l s
  | .masterPortStart master | .masterPortStop master =>
      ∃ m, master = some m ∧ LiveMaster l m
  | .masterPortDestroy master => LiveMaster l master
  | .streamDestroy stream => LiveStream l stream
  | .portDestroy port => LivePort l port

/-- Every call finds its objects. -/
def Safe : Prop := ∀ before call after, l = before ++ call :: after →
  call.Allowed before

end Calls

/-- The call gives an object back. -/
def Call.releases : Call → Bool
  | .masterPortDestroy _ | .streamDestroy _ | .transportMediaStop
  | .transportClose | .portDestroy _ => true
  | _ => false

/-! ## The loops -/

/-- The reports of a server, with the statistics that they read. -/
def serverReports (r : Replies) : List RtcpStat → Method Unit
  | [] => pure ()
  | stat :: stats => do
      let mos ← RtpEndpoint.getMOS { r with stat := stat }
      Effect.emit (.send mos)
      serverReports r stats

/-- The loop of a server: it leaves it after a report, when the flag is
cleared. -/
def serverLoop (conf : Data) (r : Replies) (stats : List RtcpStat) :
    Method Unit := do
  RtpEndpoint.setRemoteAddr (ofArray conf.destAddress) (toUInt16 conf.destPort) r
  RtpEndpoint.createStream r
  RtpEndpoint.startStream r
  serverReports r stats

/-- All calls for a server. -/
def serverLifetime (conf : Data) (r : Replies) (stats : List RtcpStat) :
    List Call :=
  let o := serverLoop conf r stats (.construct .decoding)
  o.log ++ (RtpEndpoint.destroy o.state).log

/-- The iteration reaches `pjmedia_stream_create`. -/
def Replies.opens (r : Replies) : Bool :=
  decide (r.createSocket = 0 ∧ r.setPort = 0)

/-- The stream is created. -/
def Replies.creates (r : Replies) : Bool := r.streamCreate.isOk

/-- Nothing throws in the iteration; only the first one makes the player and the
master port. -/
def Replies.serves (r : Replies) (first : Bool) : Bool :=
  r.opens && r.creates && decide (r.getPort = 0) &&
    (!first || r.wavPlayerCreate.isOk && r.masterPortCreate.isOk) &&
    decide (r.streamStart = 0) &&
    decide (r.masterPortStart = 0 ∧ r.masterPortStop = 0)

/-- In one of the iterations, all before it served, no stream is created. -/
def losesStream : List (Data × Replies) → Bool
  | [] => false
  | (_, r) :: rest =>
      r.opens && !r.creates || r.serves false && losesStream rest

/-- So it is in an iteration after the first. -/
def losesLaterStream : List (Data × Replies) → Bool
  | [] => false
  | (_, r) :: rest => r.serves true && losesStream rest

/-- The first iteration reaches `pjmedia_stream_create`. -/
def opensFirst : List (Data × Replies) → Bool
  | [] => false
  | (_, r) :: _ => r.opens

/-! ## Objects held -/

section Logs

variable {l : List Call} {e : RtpEndpoint} {call : Call}

theorem safe_nil : Safe [] := by
  intro before call after h
  simp at h

theorem safe_snoc_iff : Safe (l ++ [call]) ↔ Safe l ∧ call.Allowed l := by
  constructor
  · intro h
    refine ⟨?_, h l call [] rfl⟩
    rintro before c after rfl
    exact h before c (after ++ [call]) (by simp)
  · rintro ⟨h, hcall⟩ before c after heq
    rcases List.eq_nil_or_concat after with rfl | ⟨rest, last, rfl⟩
    · obtain ⟨rfl, hlast⟩ := List.append_inj' heq rfl
      obtain rfl := List.singleton_inj.mp hlast
      exact hcall
    · rw [List.concat_eq_append, ← List.cons_append, ← List.append_assoc] at heq
      exact h before c rest (List.append_inj' heq rfl).1

/-- The calls so far were safe and gave nothing back, and the objects of the
endpoint were created by them. -/
structure Held (l : List Call) (e : RtpEndpoint) : Prop where
  safe : Safe l
  kept : ∀ call ∈ l, call.releases = false
  stream : ∀ s, e.stream = some s → ∃ info, .streamCreate info s ∈ l
  streamPort : ∀ port, e.streamPort = some port →
    ∃ s, port = .ofStream s ∧ ∃ info, .streamCreate info s ∈ l
  player : ∀ port, e.playFilePort = some port →
    ∃ p, port = .wavPlayer p ∧ ∃ wavfile, .wavPlayerCreate wavfile p ∈ l
  master : ∀ m, e.masterPort = some m →
    ∃ source sink, .masterPortCreate source sink m ∈ l

theorem held_construct (dir : MediaDir) : Held [] (.construct dir) := by
  refine ⟨safe_nil, ?_, ?_, ?_, ?_, ?_⟩ <;> simp [RtpEndpoint.construct]

theorem Held.notMem (h : Held l e) (hcall : call.releases = true) :
    call ∉ l := by
  intro hmem
  rw [h.kept call hmem] at hcall
  cases hcall

/-- A call that is allowed and gives nothing back. -/
theorem Held.emit (h : Held l e) (call : Call) (hallowed : call.Allowed l)
    (hkeeps : call.releases = false) : Held (l ++ [call]) e := by
  obtain ⟨hsafe, hkept, hstream, hport, hplayer, hmaster⟩ := h
  refine ⟨safe_snoc_iff.mpr ⟨hsafe, hallowed⟩, ?_, ?_, ?_, ?_, ?_⟩
  · intro c hc
    rcases List.mem_append.mp hc with hc | hc
    · exact hkept c hc
    · rw [List.mem_singleton.mp hc]
      exact hkeeps
  · intro s hs
    obtain ⟨info, hinfo⟩ := hstream s hs
    exact ⟨info, List.mem_append_left _ hinfo⟩
  · intro port hp
    obtain ⟨s, heq, info, hinfo⟩ := hport port hp
    exact ⟨s, heq, info, List.mem_append_left _ hinfo⟩
  · intro port hp
    obtain ⟨p, heq, wavfile, hmem⟩ := hplayer port hp
    exact ⟨p, heq, wavfile, List.mem_append_left _ hmem⟩
  · intro m hm
    obtain ⟨source, sink, hmem⟩ := hmaster m hm
    exact ⟨source, sink, List.mem_append_left _ hmem⟩

theorem Held.liveStream (h : Held l e) {s : Handle} (hs : e.stream = some s) :
    LiveStream l s :=
  ⟨h.stream s hs, h.notMem rfl⟩

theorem Held.livePort (h : Held l e) {port : MediaPort}
    (hport : e.playFilePort = some port ∨ e.streamPort = some port) :
    LivePort l port := by
  rcases hport with hport | hport
  · obtain ⟨p, rfl, hp⟩ := h.player port hport
    exact ⟨hp, h.notMem rfl⟩
  · obtain ⟨s, rfl, hs⟩ := h.streamPort port hport
    exact ⟨hs, h.notMem rfl⟩

theorem Held.liveMaster (h : Held l e) {m : Handle}
    (hm : e.masterPort = some m) : LiveMaster l m :=
  ⟨h.master m hm, h.notMem rfl⟩

end Logs

/-! ## The methods -/

section Methods

variable {l : List Call} {e e' : RtpEndpoint} {r : Replies}

@[simp] theorem wp_checkStatus {check : Thrown} {status : Status}
    {Q : Unit → List Call → RtpEndpoint → Prop}
    {E : Thrown → List Call → RtpEndpoint → Prop} :
    wp (checkStatus check status) Q E l e ↔
      (status = 0 → Q () l e) ∧ (status ≠ 0 → E check l e) := by
  unfold checkStatus
  by_cases h : status = 0 <;> simp [h]

/-- The fields other than `info` agree. -/
structure SameObjects (e e' : RtpEndpoint) : Prop where
  stream : e'.stream = e.stream
  streamPort : e'.streamPort = e.streamPort
  playFilePort : e'.playFilePort = e.playFilePort
  masterPort : e'.masterPort = e.masterPort

theorem Held.congr (h : Held l e) (hsame : SameObjects e e') : Held l e' := by
  obtain ⟨hstream, hport, hplayer, hmaster⟩ := hsame
  refine ⟨h.safe, h.kept, ?_, ?_, ?_, ?_⟩
  · rw [hstream]
    exact h.stream
  · rw [hport]
    exact h.streamPort
  · rw [hplayer]
    exact h.player
  · rw [hmaster]
    exact h.master

/-- `setRemoteAddr` changes `info` only. -/
theorem setRemoteAddr_wp (h : Held l e) (address : CString) (port : ℤ)
    (r : Replies) :
    wp (RtpEndpoint.setRemoteAddr address port r)
      (fun _ l' e' => r.opens = true ∧ Held l' e' ∧ SameObjects e e')
      (fun _ l' e' => r.opens = false ∧ Held l' e' ∧ SameObjects e e') l e := by
  have hinfo : ∀ info, Held l { e with info := info } ∧
      SameObjects e { e with info := info } := by
    intro info
    have hsame : SameObjects e { e with info := info } := ⟨rfl, rfl, rfl, rfl⟩
    exact ⟨h.congr hsame, hsame⟩
  simp only [RtpEndpoint.setRemoteAddr, wp_bind, wp_checkStatus, wp_change]
  refine ⟨?_, ?_⟩
  · intro hsocket
    refine ⟨?_, ?_⟩
    · intro hport
      exact ⟨by simp [Replies.opens, hsocket, hport], hinfo _⟩
    · intro hport
      exact ⟨by simp [Replies.opens, hport], hinfo _⟩
  · intro hsocket
    exact ⟨by simp [Replies.opens, hsocket], hinfo e.info⟩

/-- The state after a failed `pjmedia_stream_create`: the transport has been
closed. -/
def Closed (l : List Call) (e : RtpEndpoint) : Prop :=
  ∃ l₀, l = l₀ ++ [.transportClose] ∧ Held l₀ e

/-- `createStream` creates the stream and its port, or closes the transport. -/
theorem createStream_wp (h : Held l e) (r : Replies) :
    wp (RtpEndpoint.createStream r)
      (fun _ l' e' => (r.creates = true ∧ r.getPort = 0) ∧ Held l' e' ∧
        e'.stream.isSome = true ∧ e'.streamPort.isSome = true ∧
        e'.playFilePort = e.playFilePort ∧ e'.masterPort = e.masterPort)
      (fun _ l' e' =>
        (r.creates = false ∧ Closed l' e' ∧ e' = e) ∨
          (r.creates = true ∧ r.getPort ≠ 0) ∧ Held l' e' ∧
            e'.stream.isSome = true) l e := by
  unfold RtpEndpoint.createStream
  cases hcreate : r.streamCreate with
  | error status =>
      have hcreates : r.creates = false := by
        rw [Replies.creates, hcreate]
        rfl
      simp only [wp_bind, wp_read, wp_emit, wp_fail]
      exact Or.inl ⟨hcreates, ⟨l, rfl, h⟩, trivial⟩
  | ok stream =>
      have hcreates : r.creates = true := by
        rw [Replies.creates, hcreate]
        rfl
      have hcreated : Held (l ++ [.streamCreate e.info stream])
          { e with stream := some stream } := by
        have hnew := h.emit (.streamCreate e.info stream)
          (h.notMem rfl) rfl
        refine { hnew with stream := ?_ }
        rintro _ ⟨⟩
        exact ⟨e.info, by simp⟩
      have hstarted := hcreated.emit (.transportMediaStart)
        (hcreated.notMem rfl) rfl
      simp only [wp_bind, wp_read, wp_emit, wp_change, wp_checkStatus]
      refine ⟨?_, ?_⟩
      · intro hport
        refine ⟨⟨hcreates, hport⟩, ?_, by simp⟩
        refine { hstarted with streamPort := ?_ }
        rintro _ ⟨⟩
        exact ⟨stream, rfl, hstarted.stream stream rfl⟩
      · intro hport
        exact Or.inr ⟨⟨hcreates, hport⟩, hstarted, rfl⟩

/-- `startStream()`, on a stream. -/
theorem startStream_wp (h : Held l e) (hstream : e.stream.isSome = true)
    (r : Replies) :
    wp (RtpEndpoint.startStream r)
      (fun _ l' e' => r.streamStart = 0 ∧ Held l' e' ∧ e' = e)
      (fun _ l' e' => r.streamStart ≠ 0 ∧ Held l' e' ∧ e' = e) l e := by
  obtain ⟨s, hs⟩ := Option.isSome_iff_exists.mp hstream
  have hstarted := h.emit (.streamStart e.stream)
    ⟨s, hs, h.liveStream hs⟩ rfl
  simp only [RtpEndpoint.startStream, wp_bind, wp_read, wp_emit, wp_checkStatus]
  exact ⟨fun hstart => ⟨hstart, hstarted, trivial⟩,
    fun hstart => ⟨hstart, hstarted, trivial⟩⟩

/-- The first call makes the player and then the master port. -/
theorem createPlayer_wp (h : Held l e) (hport : e.streamPort.isSome = true)
    (wavfile : CString) (r : Replies) :
    wp (RtpEndpoint.createPlayer wavfile r)
      (fun _ l' e' => (r.wavPlayerCreate.isOk = true ∧
          r.masterPortCreate.isOk = true) ∧ Held l' e' ∧
        e'.stream = e.stream ∧ e'.playFilePort.isSome = true ∧
        e'.masterPort.isSome = true)
      (fun _ l' e' => (r.wavPlayerCreate.isOk = true →
          r.masterPortCreate.isOk = false) ∧ Held l' e' ∧
        e'.stream = e.stream) l e := by
  unfold RtpEndpoint.createPlayer
  cases hwav : r.wavPlayerCreate with
  | error status =>
      simp only [wp_bind, wp_fail]
      exact ⟨by rintro ⟨⟩, h, trivial⟩
  | ok player =>
      have hplayer : Held (l ++ [.wavPlayerCreate wavfile player])
          { e with playFilePort := some (.wavPlayer player) } := by
        have hnew := h.emit (.wavPlayerCreate wavfile player)
          trivial rfl
        refine { hnew with player := ?_ }
        rintro _ ⟨⟩
        exact ⟨player, rfl, wavfile, by simp⟩
      cases hmaster : r.masterPortCreate with
      | error status =>
          simp only [wp_bind, wp_emit, wp_change, wp_read, wp_fail]
          exact ⟨fun _ => rfl, hplayer, trivial⟩
      | ok master =>
          obtain ⟨sink, hsink⟩ := Option.isSome_iff_exists.mp hport
          have hnew := hplayer.emit
            (.masterPortCreate (some (.wavPlayer player)) e.streamPort
              master)
            ⟨⟨_, rfl, hplayer.livePort (Or.inl rfl)⟩, sink, hsink,
              hplayer.livePort (Or.inr hsink)⟩ rfl
          simp only [wp_bind, wp_emit, wp_change, wp_read]
          refine ⟨⟨rfl, rfl⟩, ?_, by simp⟩
          refine { hnew with master := ?_ }
          rintro _ ⟨⟩
          exact ⟨some (.wavPlayer player), e.streamPort, by simp⟩

/-- Nothing throws in `startStream(wavfile)`. -/
def Replies.Starts (r : Replies) (first : Bool) : Prop :=
  (first = true → r.wavPlayerCreate.isOk = true ∧
    r.masterPortCreate.isOk = true) ∧ r.streamStart = 0

/-- Nothing throws in the iteration up to `startStream`. -/
def Replies.StartsCall (r : Replies) (first : Bool) : Prop :=
  r.opens = true ∧ (r.creates = true ∧ r.getPort = 0) ∧ r.Starts first

theorem serves_iff {first : Bool} :
    r.serves first = true ↔ r.StartsCall first ∧
      r.masterPortStart = 0 ∧ r.masterPortStop = 0 := by
  cases first
  · simp only [Replies.serves, Replies.StartsCall, Replies.Starts,
      Bool.and_eq_true, decide_eq_true_iff]
    simp
    tauto
  · simp only [Replies.serves, Replies.StartsCall, Replies.Starts,
      Bool.and_eq_true, decide_eq_true_iff]
    simp
    tauto

theorem serves_eq_false {first : Bool} (h : ¬ (r.StartsCall first ∧
      r.masterPortStart = 0 ∧ r.masterPortStop = 0)) :
    r.serves first = false := by
  rw [← serves_iff] at h
  simpa using h

/-- `startStream(wavfile)`, on a stream and its port. -/
theorem startStreamFrom_wp (h : Held l e) (hstream : e.stream.isSome = true)
    (hport : e.streamPort.isSome = true)
    (hpaired : e.playFilePort.isSome = true → e.masterPort.isSome = true)
    (wavfile : CString) (r : Replies) :
    wp (RtpEndpoint.startStreamFrom (some wavfile) r)
      (fun _ l' e' => r.Starts e.playFilePort.isNone ∧ Held l' e' ∧
        e'.stream.isSome = true ∧ e'.playFilePort.isSome = true ∧
        e'.masterPort.isSome = true)
      (fun _ l' e' => ¬ r.Starts e.playFilePort.isNone ∧ Held l' e' ∧
        e'.stream.isSome = true) l e := by
  rw [RtpEndpoint.startStreamFrom, wp_bind, wp_read]
  cases hfile : e.playFilePort with
  | none =>
      simp only [wp_bind]
      refine wp_mono (createPlayer_wp h hport wavfile r) ?_ ?_
      · rintro _ l₁ e₁ ⟨hmade, h₁, hsame, hfile₁, hmaster₁⟩
        have hstream₁ : e₁.stream.isSome = true := hsame ▸ hstream
        refine wp_mono (startStream_wp h₁ hstream₁ r) ?_ ?_
        · rintro _ l₂ e₂ ⟨hstart, h₂, rfl⟩
          exact ⟨⟨fun _ => hmade, hstart⟩, h₂, hstream₁, hfile₁, hmaster₁⟩
        · rintro _ l₂ e₂ ⟨hstart, h₂, rfl⟩
          exact ⟨fun hall => hstart hall.2, h₂, hstream₁⟩
      · rintro _ l₁ e₁ ⟨hfails, h₁, hsame⟩
        refine ⟨?_, h₁, hsame ▸ hstream⟩
        rintro ⟨hmade, -⟩
        obtain ⟨hwav, hmaster⟩ := hmade rfl
        rw [hfails hwav] at hmaster
        cases hmaster
  | some port =>
      have hmaster := hpaired (by rw [hfile]; rfl)
      refine wp_mono (startStream_wp h hstream r) ?_ ?_
      · rintro _ l₂ e₂ ⟨hstart, h₂, rfl⟩
        exact ⟨⟨by rintro ⟨⟩, hstart⟩, h₂, hstream, by rw [hfile]; rfl, hmaster⟩
      · rintro _ l₂ e₂ ⟨hstart, h₂, rfl⟩
        exact ⟨fun hall => hstart hall.2, h₂, hstream⟩

/-- The part of an iteration that streams. -/
theorem clientStream_wp (h : Held l e) (hstream : e.stream.isSome = true)
    (hmaster : e.masterPort.isSome = true) (r : Replies) :
    wp (clientStream r)
      (fun _ l' e' => (r.masterPortStart = 0 ∧ r.masterPortStop = 0) ∧
        Held l' e' ∧ e' = e)
      (fun _ l' e' => ¬ (r.masterPortStart = 0 ∧ r.masterPortStop = 0) ∧
        Held l' e' ∧ e' = e) l e := by
  obtain ⟨s, hs⟩ := Option.isSome_iff_exists.mp hstream
  obtain ⟨m, hm⟩ := Option.isSome_iff_exists.mp hmaster
  have hstart := h.emit (.masterPortStart e.masterPort)
    ⟨m, hm, h.liveMaster hm⟩ rfl
  have hstat := hstart.emit (.streamGetStat e.stream)
    ⟨s, hs, hstart.liveStream hs⟩ rfl
  have hreset := hstat.emit (.streamResetStat e.stream)
    ⟨s, hs, hstat.liveStream hs⟩ rfl
  have hsend := hreset.emit (.send (getMOS e.info.dir r.stat))
    trivial rfl
  have hstop := hsend.emit (.masterPortStop e.masterPort)
    ⟨m, hm, hsend.liveMaster hm⟩ rfl
  simp only [clientStream, RtpEndpoint.startStreaming, RtpEndpoint.getMOS,
    RtpEndpoint.stopStreaming, wp_bind, wp_read, wp_emit, wp_pure,
    wp_checkStatus, id_eq]
  refine ⟨?_, ?_⟩
  · intro hstarted
    exact ⟨fun hstopped => ⟨⟨hstarted, hstopped⟩, hstop, trivial⟩,
      fun hstopped => ⟨fun hall => hstopped hall.2, hstop, trivial⟩⟩
  · intro hstarted
    exact ⟨fun hall => hstarted hall.1, hstart, trivial⟩

/-- How an exception leaves an iteration: in `createStream`, with the transport
closed, or elsewhere. -/
def Thrown.leaves (r : Replies) (e : RtpEndpoint) (l' : List Call)
    (e' : RtpEndpoint) : Prop :=
  (r.opens = true ∧ r.creates = false ∧ Closed l' e' ∧
      e'.stream.isSome = e.stream.isSome) ∨
    (r.opens = true → r.creates = true) ∧ Held l' e' ∧
      e'.stream.isSome = (e.stream.isSome || r.opens)

/-- An iteration of a client up to `startStream`. -/
theorem clientStart_wp (h : Held l e)
    (hpaired : e.playFilePort.isSome = true → e.masterPort.isSome = true)
    (wavfile : CString) (conf : Data) (r : Replies) :
    wp (clientStart wavfile conf r)
      (fun _ l' e' => r.StartsCall e.playFilePort.isNone ∧ Held l' e' ∧
        e'.stream.isSome = true ∧ e'.playFilePort.isSome = true ∧
        e'.masterPort.isSome = true)
      (fun _ l' e' => ¬ r.StartsCall e.playFilePort.isNone ∧
        Thrown.leaves r e l' e') l e := by
  rw [clientStart, wp_bind]
  refine wp_mono (setRemoteAddr_wp h _ _ r) ?_ ?_
  · rintro _ l₁ e₁ ⟨hopens, h₁, hsame⟩
    rw [wp_bind]
    refine wp_mono (createStream_wp h₁ r) ?_ ?_
    · rintro _ l₂ e₂ ⟨hcreates, h₂, hstream, hstreamPort, hfile, hmaster⟩
      have hfile₂ : e₂.playFilePort = e.playFilePort :=
        hfile.trans hsame.playFilePort
      have hpaired₂ : e₂.playFilePort.isSome = true →
          e₂.masterPort.isSome = true := by
        rw [hfile₂, hmaster, hsame.masterPort]
        exact hpaired
      rw [← hfile₂]
      refine wp_mono
        (startStreamFrom_wp h₂ hstream hstreamPort hpaired₂ wavfile r) ?_ ?_
      · rintro _ l₃ e₃ ⟨hstarts, hrest⟩
        exact ⟨⟨hopens, hcreates, hstarts⟩, hrest⟩
      · rintro _ l₃ e₃ ⟨hfails, h₃, hstream₃⟩
        refine ⟨fun hall => hfails hall.2.2, ?_⟩
        exact Or.inr ⟨fun _ => hcreates.1, h₃, by simp [hstream₃, hopens]⟩
    · rintro _ l₂ e₂ (⟨hcreates, hclosed, rfl⟩ | ⟨⟨hcreates, hport⟩, h₂, hstream⟩)
      · refine ⟨fun hall => ?_,
          Or.inl ⟨hopens, hcreates, hclosed, by rw [hsame.stream]⟩⟩
        obtain ⟨-, ⟨hmade, -⟩, -⟩ := hall
        rw [hcreates] at hmade
        cases hmade
      · exact ⟨fun hall => hport hall.2.1.2,
          Or.inr ⟨fun _ => hcreates, h₂, by simp [hstream, hopens]⟩⟩
  · rintro _ l₁ e₁ ⟨hopens, h₁, hsame⟩
    refine ⟨fun hall => ?_, Or.inr ⟨?_, h₁, ?_⟩⟩
    · obtain ⟨hreached, -⟩ := hall
      rw [hopens] at hreached
      cases hreached
    · simp [hopens]
    · rw [hsame.stream, hopens, Bool.or_false]

/-- One iteration of a client. -/
theorem clientIteration_wp (h : Held l e)
    (hpaired : e.playFilePort.isSome = true → e.masterPort.isSome = true)
    (wavfile : CString) (conf : Data) (r : Replies) :
    wp (clientIteration wavfile conf r)
      (fun _ l' e' => r.serves e.playFilePort.isNone = true ∧ Held l' e' ∧
        e'.stream.isSome = true ∧ e'.playFilePort.isSome = true ∧
        e'.masterPort.isSome = true)
      (fun _ l' e' => r.serves e.playFilePort.isNone = false ∧
        Thrown.leaves r e l' e') l e := by
  rw [clientIteration, wp_bind]
  refine wp_mono (clientStart_wp h hpaired wavfile conf r) ?_ ?_
  · rintro _ l₁ e₁ ⟨hstarts, h₁, hstream, hfile, hmaster⟩
    refine wp_mono (clientStream_wp h₁ hstream hmaster r) ?_ ?_
    · rintro _ l₂ e₂ ⟨hstreamed, h₂, rfl⟩
      exact ⟨serves_iff.mpr ⟨hstarts, hstreamed⟩, h₂, hstream, hfile, hmaster⟩
    · rintro _ l₂ e₂ ⟨hstreamed, h₂, rfl⟩
      refine ⟨serves_eq_false fun hall => hstreamed hall.2, ?_⟩
      exact Or.inr ⟨fun _ => hstarts.2.1.1, h₂, by simp [hstream, hstarts.1]⟩
  · rintro _ l₁ e₁ ⟨hfails, hleaves⟩
    exact ⟨serves_eq_false fun hall => hfails hall.1, hleaves⟩

/-- The loop of a client that has served a call. -/
theorem clientLoop_wp (wavfile : CString) (iterations : List (Data × Replies))
    (h : Held l e) (hstream : e.stream.isSome = true)
    (hfile : e.playFilePort.isSome = true)
    (hmaster : e.masterPort.isSome = true) :
    wp (clientLoop wavfile iterations)
      (fun _ l' e' => losesStream iterations = false ∧ Held l' e' ∧
        e'.stream.isSome = true)
      (fun _ l' e' => e'.stream.isSome = true ∧
        (losesStream iterations = true ∧ Closed l' e' ∨
          losesStream iterations = false ∧ Held l' e')) l e := by
  induction iterations generalizing l e with
  | nil =>
      rw [clientLoop, wp_pure]
      exact ⟨rfl, h, hstream⟩
  | cons iteration rest ih =>
      obtain ⟨conf, r⟩ := iteration
      have hfirst : e.playFilePort.isNone = false := by
        cases hport : e.playFilePort <;> simp_all
      rw [clientLoop, wp_bind]
      refine wp_mono (clientIteration_wp h (fun _ => hmaster) wavfile conf r)
        ?_ ?_
      · rintro _ l₁ e₁ ⟨hserves, h₁, hstream₁, hfile₁, hmaster₁⟩
        rw [hfirst] at hserves
        have hcreates : (r.opens && !r.creates) = false := by
          simp [(serves_iff.mp hserves).1.2.1.1]
        simpa [losesStream, hserves, hcreates] using
          ih h₁ hstream₁ hfile₁ hmaster₁
      · rintro _ l₁ e₁ ⟨hserves, hleaves⟩
        rw [hfirst] at hserves
        rcases hleaves with ⟨hopens, hcreates, hclosed, hsame⟩ |
          ⟨hcreates, h₁, hsame⟩
        · refine ⟨hsame.trans hstream, Or.inl ⟨?_, hclosed⟩⟩
          simp [losesStream, hopens, hcreates]
        · refine ⟨by simp [hsame, hstream], Or.inr ⟨?_, h₁⟩⟩
          cases hopens : r.opens with
          | false => simp [losesStream, hopens, hserves]
          | true => simp [losesStream, hcreates hopens, hserves]

end Methods

/-! ## The destructor -/

section Destructor

variable {l : List Call} {e : RtpEndpoint}

/-- Each call of a list is allowed after those before it. -/
def AllowedAll : List Call → List Call → Prop
  | _, [] => True
  | l, call :: calls => call.Allowed l ∧ AllowedAll (l ++ [call]) calls

theorem safe_append_iff {calls : List Call} :
    Safe (l ++ calls) ↔ Safe l ∧ AllowedAll l calls := by
  induction calls generalizing l with
  | nil => simp [AllowedAll]
  | cons call calls ih =>
      rw [List.append_cons, ih, safe_snoc_iff, AllowedAll, and_assoc]

/-- The objects of the endpoint still exist. -/
structure Leaving (l : List Call) (e : RtpEndpoint) : Prop where
  safe : Safe l
  stream : ∀ s, e.stream = some s → LiveStream l s
  player : ∀ port, e.playFilePort = some port →
    ∃ p, port = .wavPlayer p ∧ LivePort l port
  master : ∀ m, e.masterPort = some m → LiveMaster l m

theorem Held.leaving (h : Held l e) : Leaving l e := by
  refine ⟨h.safe, fun s hs => h.liveStream hs, ?_, fun m hm => h.liveMaster hm⟩
  intro port hport
  obtain ⟨p, heq, -⟩ := h.player port hport
  exact ⟨p, heq, h.livePort (Or.inl hport)⟩

theorem Closed.leaving (h : Closed l e) : Leaving l e := by
  obtain ⟨l₀, rfl, h⟩ := h
  refine ⟨safe_snoc_iff.mpr ⟨h.safe, h.notMem rfl⟩, ?_, ?_, ?_⟩
  · intro s hs
    obtain ⟨info, hinfo⟩ := h.stream s hs
    exact ⟨⟨info, by simp [hinfo]⟩, by simpa using h.notMem rfl⟩
  · intro port hport
    obtain ⟨p, rfl, wavfile, hp⟩ := h.player port hport
    exact ⟨p, rfl, ⟨wavfile, by simp [hp]⟩, by simpa using h.notMem rfl⟩
  · intro m hm
    obtain ⟨source, sink, hmem⟩ := h.master m hm
    exact ⟨⟨source, sink, by simp [hmem]⟩, by simpa using h.notMem rfl⟩

theorem allowedAll_append {calls calls' : List Call} :
    AllowedAll l (calls ++ calls') ↔
      AllowedAll l calls ∧ AllowedAll (l ++ calls) calls' := by
  induction calls generalizing l with
  | nil => simp [AllowedAll]
  | cons call calls ih =>
      simp only [List.cons_append, AllowedAll, ih, and_assoc]
      rw [← List.append_cons]

/-- What the destructor does about a stream. -/
def streamEnd (stream : Handle) : List Call :=
  [.streamDestroy stream, .transportMediaStop, .transportClose]

theorem destroy_log (e : RtpEndpoint) :
    (RtpEndpoint.destroy e).log =
      e.masterPort.toList.map .masterPortDestroy ++
        (e.stream.toList.flatMap streamEnd ++
          e.playFilePort.toList.map .portDestroy) := by
  obtain ⟨info, stream, streamPort, playFilePort, masterPort⟩ := e
  cases masterPort <;> cases stream <;> cases playFilePort <;> rfl

/-- The destructor is safe unless it finds a stream on a closed transport. -/
theorem safe_destroy_iff (h : Leaving l e) :
    Safe (l ++ (RtpEndpoint.destroy e).log) ↔
      (e.stream.isSome = true → .transportClose ∉ l) := by
  rw [safe_append_iff, and_iff_right h.safe, destroy_log, allowedAll_append,
    allowedAll_append]
  have hmaster : AllowedAll l
      (e.masterPort.toList.map Call.masterPortDestroy) := by
    cases hm : e.masterPort with
    | none => trivial
    | some m => exact ⟨h.master m hm, trivial⟩
  have hstream : AllowedAll
      (l ++ e.masterPort.toList.map Call.masterPortDestroy)
      (e.stream.toList.flatMap streamEnd) ↔
        (e.stream.isSome = true → .transportClose ∉ l) := by
    cases hs : e.stream with
    | none => simp [AllowedAll]
    | some s =>
        obtain ⟨⟨info, hinfo⟩, hlive⟩ := h.stream s hs
        have hcreated : ∃ info, .streamCreate info s ∈ l := ⟨info, hinfo⟩
        simp [AllowedAll, Call.Allowed, streamEnd, LiveStream, hcreated, hlive]
  have hplayer : AllowedAll
      (l ++ e.masterPort.toList.map Call.masterPortDestroy ++
        e.stream.toList.flatMap streamEnd)
      (e.playFilePort.toList.map Call.portDestroy) := by
    cases hp : e.playFilePort with
    | none => trivial
    | some port =>
        obtain ⟨p, rfl, ⟨wavfile, hcreated⟩, hlive⟩ := h.player port hp
        refine ⟨⟨⟨wavfile, by simp [hcreated]⟩, ?_⟩, trivial⟩
        simp [streamEnd, hlive]
  tauto

/-- It closes the transport when there is a stream. -/
theorem count_close_destroy (e : RtpEndpoint) :
    (RtpEndpoint.destroy e).log.count .transportClose =
      if e.stream.isSome = true then 1 else 0 := by
  rw [destroy_log]
  cases e.masterPort <;> cases e.stream <;> cases e.playFilePort <;> rfl

end Destructor

/-! ## Whole lifetimes -/

section Lifetimes

variable {l : List Call} {e : RtpEndpoint}

/-- What the loop of a client leaves to the destructor. -/
def LoopEnd (iterations : List (Data × Replies)) (l : List Call)
    (e : RtpEndpoint) : Prop :=
  if losesLaterStream iterations then Closed l e ∧ e.stream.isSome = true
  else
    Held l e ∧ e.stream.isSome = opensFirst iterations ∨
      Closed l e ∧ e.stream = none ∧ opensFirst iterations = true

theorem clientLoop_end (wavfile : CString)
    (iterations : List (Data × Replies)) :
    wp (clientLoop wavfile iterations) (fun _ => LoopEnd iterations)
      (fun _ => LoopEnd iterations) [] (.construct .encoding) := by
  have hstart := held_construct .encoding
  cases iterations with
  | nil =>
      rw [clientLoop, wp_pure]
      exact Or.inl ⟨hstart, rfl⟩
  | cons iteration rest =>
      obtain ⟨conf, r⟩ := iteration
      rw [clientLoop, wp_bind]
      refine wp_mono (clientIteration_wp hstart (by rintro ⟨⟩) wavfile conf r)
        ?_ ?_
      · rintro _ l₁ e₁ ⟨hserves, h₁, hstream, hfile, hmaster⟩
        replace hserves : r.serves true = true := hserves
        have hopens : r.opens = true := (serves_iff.mp hserves).1.1
        refine wp_mono (clientLoop_wp wavfile rest h₁ hstream hfile hmaster)
          ?_ ?_
        · rintro _ l₂ e₂ ⟨hkept, h₂, hstream₂⟩
          simp [LoopEnd, losesLaterStream, opensFirst, hkept, h₂, hstream₂,
            hopens]
        · rintro _ l₂ e₂ ⟨hstream₂, ⟨hlost, hclosed⟩ | ⟨hkept, h₂⟩⟩
          · simp [LoopEnd, losesLaterStream, hserves, hlost, hclosed, hstream₂]
          · simp [LoopEnd, losesLaterStream, opensFirst, hkept, h₂, hstream₂,
              hopens]
      · rintro _ l₁ e₁ ⟨hserves, hleaves⟩
        replace hserves : r.serves true = false := hserves
        rcases hleaves with ⟨hopens, -, hclosed, hsame⟩ | ⟨-, h₁, hsame⟩
        · have hnone : e₁.stream = none := by
            cases hstream : e₁.stream with
            | none => rfl
            | some s =>
                rw [hstream] at hsame
                cases hsame
          simp [LoopEnd, losesLaterStream, opensFirst, hserves, hopens, hclosed,
            hnone]
        · have hstream : e₁.stream.isSome = r.opens := hsame
          simp [LoopEnd, losesLaterStream, opensFirst, hserves, h₁, hstream]

/-- The reports of a server need its stream. -/
theorem serverReports_wp (h : Held l e) (hstream : e.stream.isSome = true)
    (r : Replies) (stats : List RtcpStat) :
    wp (serverReports r stats) (fun _ => Held) (fun _ => Held) l e := by
  induction stats generalizing l with
  | nil =>
      rw [serverReports, wp_pure]
      exact h
  | cons stat stats ih =>
      obtain ⟨s, hs⟩ := Option.isSome_iff_exists.mp hstream
      have hstat := h.emit (.streamGetStat e.stream)
        ⟨s, hs, h.liveStream hs⟩ rfl
      have hreset := hstat.emit (.streamResetStat e.stream)
        ⟨s, hs, hstat.liveStream hs⟩ rfl
      simp only [serverReports, RtpEndpoint.getMOS, wp_bind, wp_read, wp_emit,
        wp_pure, id_eq]
      exact ih (hreset.emit _ trivial rfl)

theorem serverLoop_end (conf : Data) (r : Replies) (stats : List RtcpStat) :
    wp (serverLoop conf r stats)
      (fun _ l e => Held l e ∨ Closed l e ∧ e.stream = none)
      (fun _ l e => Held l e ∨ Closed l e ∧ e.stream = none) []
      (.construct .decoding) := by
  rw [serverLoop, wp_bind]
  refine wp_mono (setRemoteAddr_wp (held_construct .decoding) _ _ r) ?_ ?_
  · rintro _ l₁ e₁ ⟨-, h₁, hsame⟩
    rw [wp_bind]
    refine wp_mono (createStream_wp h₁ r) ?_ ?_
    · rintro _ l₂ e₂ ⟨-, h₂, hstream, -⟩
      rw [wp_bind]
      refine wp_mono (startStream_wp h₂ hstream r) ?_ ?_
      · rintro _ l₃ e₃ ⟨-, h₃, rfl⟩
        exact wp_mono (serverReports_wp h₃ hstream r stats)
          (fun _ _ _ => Or.inl) fun _ _ _ => Or.inl
      · rintro _ l₃ e₃ ⟨-, h₃, rfl⟩
        exact Or.inl h₃
    · rintro _ l₂ e₂ (⟨-, hclosed, rfl⟩ | ⟨-, h₂, -⟩)
      · exact Or.inr ⟨hclosed, hsame.stream⟩
      · exact Or.inl h₂
  · rintro _ l₁ e₁ ⟨-, h₁, -⟩
    exact Or.inl h₁

theorem Held.count_close (h : Held l e) : l.count .transportClose = 0 :=
  List.count_eq_zero.mpr (h.notMem rfl)

theorem Closed.count_close (h : Closed l e) : l.count .transportClose = 1 := by
  obtain ⟨l₀, rfl, h⟩ := h
  simp [h.count_close]

theorem Closed.mem_close (h : Closed l e) : .transportClose ∈ l := by
  rw [← List.count_pos_iff, h.count_close]
  exact Nat.one_pos

theorem opensFirst_of_loses {iterations : List (Data × Replies)}
    (h : losesLaterStream iterations = true) :
    opensFirst iterations = true := by
  cases iterations with
  | nil => cases h
  | cons iteration rest =>
      obtain ⟨hserves, -⟩ := Bool.and_eq_true_iff.mp h
      exact (serves_iff.mp hserves).1.1

/-- Whatever the calls of pjmedia return, a client makes a call on an object that
does not exist exactly when the stream of a later call cannot be created; then
it closes its transport twice, and otherwise at most once.  A server never makes
such a call. -/
theorem lifetime_resources (wavfile : CString)
    (iterations : List (Data × Replies)) :
    (Safe (lifetime wavfile iterations) ↔
        losesLaterStream iterations = false) ∧
      (lifetime wavfile iterations).count .transportClose =
        (if opensFirst iterations then 1 else 0) +
          (if losesLaterStream iterations then 1 else 0) ∧
      ∀ conf r stats, Safe (serverLifetime conf r stats) := by
  have hend := Effect.wp_end (clientLoop_end wavfile iterations)
  rw [List.nil_append] at hend
  refine ⟨?_, ?_, ?_⟩
  · change Safe (_ ++ (RtpEndpoint.destroy _).log) ↔ _
    unfold LoopEnd at hend
    split at hend
    · next hlost =>
      obtain ⟨hclosed, hstream⟩ := hend
      rw [safe_destroy_iff hclosed.leaving, hlost]
      simp [hstream, hclosed.mem_close]
    · next hkept =>
      rw [Bool.not_eq_true] at hkept
      rcases hend with ⟨h, -⟩ | ⟨hclosed, hnone, -⟩
      · rw [safe_destroy_iff h.leaving]
        exact ⟨fun _ => hkept, fun _ _ => h.notMem rfl⟩
      · rw [safe_destroy_iff hclosed.leaving]
        simp [hkept, hnone]
  · rw [lifetime, List.count_append, count_close_destroy]
    unfold LoopEnd at hend
    split at hend
    · next hlost =>
      obtain ⟨hclosed, hstream⟩ := hend
      simp [hclosed.count_close, hstream, hlost, opensFirst_of_loses hlost]
    · next hkept =>
      rcases hend with ⟨h, hstream⟩ | ⟨hclosed, hnone, hopens⟩
      · simp [h.count_close, hstream, hkept]
      · simp [hclosed.count_close, hnone, hopens, hkept]
  · intro conf r stats
    have hserver := Effect.wp_end (serverLoop_end conf r stats)
    rw [List.nil_append] at hserver
    rcases hserver with h | ⟨hclosed, hnone⟩
    · exact (safe_destroy_iff h.leaving).mpr fun _ => h.notMem rfl
    · refine (safe_destroy_iff hclosed.leaving).mpr ?_
      rw [hnone]
      rintro ⟨⟩

end Lifetimes

end SippScen.MediaEndpoint
