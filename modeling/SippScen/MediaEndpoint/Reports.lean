import SippScen.MediaEndpoint.InfluxClient
import SippScen.MediaEndpoint.Resources

/-!
# The scores that reach the database

The thread of an endpoint sends a score for every call of a client, and one
every ten seconds for a server.  With the address of the database in the
environment of the media server, each of them is posted exactly once, in order,
to that address; with an incomplete address the endpoint ends before its first
call; without an address nothing is posted.
-/

namespace SippScen.MediaEndpoint

open SippScen.Support SippScen.SharedList SippScen.MediaServer
open Effect (wp wp_bind wp_read wp_change wp_emit wp_pure wp_fail wp_mono)

/-- What the thread of an endpoint is given to do. -/
inductive Session
  | client (wavfile : CString) (iterations : List (Data × Replies))
  | server (conf : Data) (r : Replies) (stats : List RtcpStat)

namespace Session

/-- All calls of the thread. -/
def calls : Session → List Call
  | .client wavfile iterations => lifetime wavfile iterations
  | .server conf r stats => serverLifetime conf r stats

/-- The direction of the endpoint. -/
def dir : Session → MediaDir
  | .client _ _ => .encoding
  | .server _ _ _ => .decoding

/-- The tags of its points. -/
def tags : Session → CString
  | .client _ _ => "type=RX".toList
  | .server _ _ _ => "type=TX".toList

end Session

/-- The score that is sent. -/
def Call.report : Call → Option (Option ℚ)
  | .send mos => some mos
  | _ => none

/-- The scores that are sent, in order. -/
def reportsOf (l : List Call) : List (Option ℚ) := l.filterMap Call.report

/-- A missing score is a division by zero in `get_MOS`, which ends the
process. -/
def untilTrap : List (Option ℚ) → List ℚ
  | some mos :: rest => mos :: untilTrap rest
  | _ => []

/-- The reports of an endpoint; `curl n` is the answer to the `n`th of them. -/
def sendAll (tags : CString) (curl : ℕ → CurlReply) :
    ℕ → List ℚ → ClientMethod Unit
  | _, [] => pure ()
  | n, mos :: rest => do
      let _ ← InfluxDBClient.send "audio".toList tags
        ("mos=".toList ++ fixedPoint 6 mos) 0 (curl n)
      sendAll tags curl (n + 1) rest

/-- What the client of the database prints and posts while an endpoint runs in
the given environment. -/
def endpointOutputs (environ : Environ) (curlInit stale : Bool)
    (curl : ℕ → CurlReply) (s : Session) : Except NullString (List Output) :=
  (influxClient curlInit stale environ).map fun made =>
    made.2 ++ (sendAll s.tags curl 0 (untilTrap (reportsOf s.calls)) made.1).log

/-! ## Which calls are reported -/

/-- Nothing throws in the iteration before its report. -/
def Replies.reports (r : Replies) (first : Bool) : Bool :=
  Replies.serves { r with masterPortStop := 0 } first

/-- The statistics of the calls of a client, up to the first that fails. -/
def reportedCalls (first : Bool) : List (Data × Replies) → List RtcpStat
  | [] => []
  | (_, r) :: rest =>
      if r.reports first then
        r.stat ::
          if r.masterPortStop = 0 then reportedCalls false rest else []
      else []

/-- Nothing throws in a server before its first report. -/
def Replies.listens (r : Replies) : Bool :=
  r.opens && r.creates && decide (r.getPort = 0) && decide (r.streamStart = 0)

/-- The statistics that are scored. -/
def Session.reported : Session → List RtcpStat
  | .client _ iterations => reportedCalls true iterations
  | .server _ r stats =>
      if r.listens then
        stats.takeWhile fun stat => (getMOS .decoding stat).isSome
      else []

section Calls

variable {l : List Call} {e : RtpEndpoint} {r : Replies}

theorem reportsOf_concat (l : List Call) (call : Call) :
    reportsOf (l ++ [call]) = reportsOf l ++ call.report.toList := by
  rw [reportsOf, List.filterMap_append]
  cases h : call.report <;> simp [reportsOf, h]

theorem reports_iff {first : Bool} :
    r.reports first = true ↔ r.StartsCall first ∧ r.masterPortStart = 0 := by
  rw [Replies.reports, serves_iff]
  exact and_congr_right fun _ => and_iff_left rfl

/-- The log has the reports, and the direction is unchanged. -/
def ReportsKept (l : List Call) (e : RtpEndpoint) (l' : List Call)
    (e' : RtpEndpoint) : Prop :=
  reportsOf l' = reportsOf l ∧ e'.info.dir = e.info.dir

theorem ReportsKept.refl (l : List Call) (e : RtpEndpoint) :
    ReportsKept l e l e :=
  ⟨rfl, rfl⟩

theorem ReportsKept.emit {l' : List Call} {e' : RtpEndpoint}
    (h : ReportsKept l e l' e') (call : Call) (hcall : call.report = none) :
    ReportsKept l e (l' ++ [call]) e' := by
  refine ⟨?_, h.2⟩
  rw [reportsOf_concat, hcall, Option.toList_none, List.append_nil]
  exact h.1

theorem ReportsKept.trans {l₁ l₂ : List Call} {e₁ e₂ : RtpEndpoint}
    (h : ReportsKept l e l₁ e₁) (h' : ReportsKept l₁ e₁ l₂ e₂) :
    ReportsKept l e l₂ e₂ :=
  ⟨h'.1.trans h.1, h'.2.trans h.2⟩

/-- The method reports nothing, however it ends. -/
def Silent (m : Method Unit) : Prop :=
  ∀ l e, wp m (fun _ => ReportsKept l e) (fun _ => ReportsKept l e) l e

theorem Silent.bind {m m' : Method Unit} (h : Silent m) (h' : Silent m') :
    Silent (m >>= fun _ => m') := by
  intro l e
  rw [wp_bind]
  refine wp_mono (h l e) ?_ fun _ _ _ => id
  rintro _ l₁ e₁ hkept
  exact wp_mono (h' l₁ e₁) (fun _ _ _ => hkept.trans) fun _ _ _ => hkept.trans

theorem silent_setRemoteAddr (address : CString) (port : ℤ) (r : Replies) :
    Silent (RtpEndpoint.setRemoteAddr address port r) := by
  intro l e
  have hkept := ReportsKept.refl l e
  simp only [RtpEndpoint.setRemoteAddr, wp_bind, wp_checkStatus, wp_change]
  exact ⟨fun _ => ⟨fun _ => hkept, fun _ => hkept⟩, fun _ => hkept⟩

theorem silent_createStream (r : Replies) :
    Silent (RtpEndpoint.createStream r) := by
  intro l e
  have hkept := ReportsKept.refl l e
  unfold RtpEndpoint.createStream
  cases r.streamCreate with
  | error status =>
      simp only [wp_bind, wp_read, wp_emit, wp_fail]
      exact hkept.emit .transportClose rfl
  | ok stream =>
      have hmade := (hkept.emit (.streamCreate e.info stream) rfl).emit
        .transportMediaStart rfl
      simp only [wp_bind, wp_read, wp_emit, wp_change, wp_checkStatus]
      exact ⟨fun _ => hmade, fun _ => hmade⟩

theorem silent_startStream (r : Replies) :
    Silent (RtpEndpoint.startStream r) := by
  intro l e
  have hstarted := (ReportsKept.refl l e).emit (.streamStart e.stream) rfl
  simp only [RtpEndpoint.startStream, wp_bind, wp_read, wp_emit, wp_checkStatus]
  exact ⟨fun _ => hstarted, fun _ => hstarted⟩

theorem silent_startStreamFrom (wavfile : CString) (r : Replies) :
    Silent (RtpEndpoint.startStreamFrom (some wavfile) r) := by
  intro l e
  rw [RtpEndpoint.startStreamFrom, wp_bind, wp_read]
  cases e.playFilePort with
  | some port => exact silent_startStream r l e
  | none =>
      refine Silent.bind ?_ (silent_startStream r) l e
      intro l e
      have hkept := ReportsKept.refl l e
      unfold RtpEndpoint.createPlayer
      cases r.wavPlayerCreate with
      | error status =>
          simp only [wp_bind, wp_fail]
          exact hkept
      | ok player =>
          have hplayer := hkept.emit (.wavPlayerCreate wavfile player) rfl
          cases r.masterPortCreate with
          | error status =>
              simp only [wp_bind, wp_emit, wp_change, wp_read, wp_fail]
              exact hplayer
          | ok master =>
              simp only [wp_bind, wp_emit, wp_change, wp_read]
              exact hplayer.emit _ rfl

theorem silent_clientStart (wavfile : CString) (conf : Data) (r : Replies) :
    Silent (clientStart wavfile conf r) :=
  (silent_setRemoteAddr _ _ r).bind
    ((silent_createStream r).bind (silent_startStreamFrom wavfile r))

/-- The rest of an iteration reports once it has started. -/
theorem clientStream_reports (r : Replies) (l : List Call) (e : RtpEndpoint) :
    wp (clientStream r)
      (fun _ l' e' => (r.masterPortStart = 0 ∧ r.masterPortStop = 0) ∧
        reportsOf l' = reportsOf l ++ [getMOS e.info.dir r.stat] ∧ e' = e)
      (fun _ l' _ =>
        (r.masterPortStart ≠ 0 ∧ reportsOf l' = reportsOf l) ∨
          (r.masterPortStart = 0 ∧ r.masterPortStop ≠ 0) ∧
            reportsOf l' = reportsOf l ++ [getMOS e.info.dir r.stat]) l e := by
  simp only [clientStream, RtpEndpoint.startStreaming, RtpEndpoint.getMOS,
    RtpEndpoint.stopStreaming, wp_bind, wp_read, wp_emit, wp_pure,
    wp_checkStatus, id_eq, reportsOf_concat, Call.report, Option.toList_none,
    Option.toList_some, List.append_nil]
  refine ⟨fun hstart => ⟨fun hstop => ?_, fun hstop => ?_⟩, fun hstart => ?_⟩
  · exact ⟨⟨hstart, hstop⟩, trivial, trivial⟩
  · exact Or.inr ⟨⟨hstart, hstop⟩, trivial⟩
  · exact Or.inl ⟨hstart, trivial⟩

/-- The loop of a client reports the calls up to the first that fails. -/
theorem clientLoop_reports (wavfile : CString)
    (iterations : List (Data × Replies)) (h : Held l e)
    (hpaired : e.playFilePort.isSome = true → e.masterPort.isSome = true)
    (hdir : e.info.dir = .encoding) :
    wp (clientLoop wavfile iterations)
      (fun _ l' _ => reportsOf l' = reportsOf l ++
        (reportedCalls e.playFilePort.isNone iterations).map (getMOS .encoding))
      (fun _ l' _ => reportsOf l' = reportsOf l ++
        (reportedCalls e.playFilePort.isNone iterations).map (getMOS .encoding))
      l e := by
  induction iterations generalizing l e with
  | nil =>
      rw [clientLoop, wp_pure]
      exact (List.append_nil _).symm
  | cons iteration rest ih =>
      obtain ⟨conf, r⟩ := iteration
      rw [clientLoop, wp_bind, clientIteration, wp_bind]
      refine wp_mono (Effect.wp_and (clientStart_wp h hpaired wavfile conf r)
        (silent_clientStart wavfile conf r l e)) ?_ ?_
      · rintro _ l₁ e₁ ⟨⟨hstarts, h₁, hstream, hfile, hmaster⟩, hkept, hsame⟩
        have hdir₁ : e₁.info.dir = .encoding := hsame.trans hdir
        refine wp_mono (Effect.wp_and (clientStream_wp h₁ hstream hmaster r)
          (clientStream_reports r l₁ e₁)) ?_ ?_
        · rintro _ l₂ e₂ ⟨⟨⟨hstart, hstop⟩, h₂, rfl⟩, -, hreported, -⟩
          have hreports := reports_iff.mpr ⟨hstarts, hstart⟩
          have hlater : e₂.playFilePort.isNone = false := by
            rw [← Option.not_isSome, hfile]
            rfl
          have hall : reportsOf l₂ ++
              (reportedCalls e₂.playFilePort.isNone rest).map
                (getMOS .encoding) =
              reportsOf l ++
                (reportedCalls e.playFilePort.isNone ((conf, r) :: rest)).map
                  (getMOS .encoding) := by
            rw [hreported, hkept, hdir₁, hlater, reportedCalls, if_pos hreports,
              if_pos hstop, List.append_assoc, List.map_cons]
            rfl
          rw [← hall]
          exact ih h₂ (fun _ => hmaster) hdir₁
        · rintro _ l₂ e₂ ⟨-, ⟨hstart, hreported⟩ | ⟨⟨hstart, hstop⟩, hreported⟩⟩
          · have hsilent : ¬ r.reports e.playFilePort.isNone = true :=
              fun hall => hstart (reports_iff.mp hall).2
            rw [hreported, hkept, reportedCalls, if_neg hsilent, List.map_nil,
              List.append_nil]
          · have hreports := reports_iff.mpr ⟨hstarts, hstart⟩
            rw [hreported, hkept, hdir₁, reportedCalls, if_pos hreports,
              if_neg hstop]
            rfl
      · rintro _ l₁ e₁ ⟨⟨hfails, -⟩, hkept, -⟩
        have hsilent : ¬ r.reports e.playFilePort.isNone = true :=
          fun hall => hfails (reports_iff.mp hall).1
        rw [hkept, reportedCalls, if_neg hsilent, List.map_nil, List.append_nil]

theorem serverReports_reports (r : Replies) (stats : List RtcpStat)
    (l : List Call) (e : RtpEndpoint) :
    wp (serverReports r stats)
      (fun _ l' _ => reportsOf l' = reportsOf l ++
        stats.map (getMOS e.info.dir)) (fun _ _ _ => False) l e := by
  induction stats generalizing l with
  | nil =>
      rw [serverReports, wp_pure]
      exact (List.append_nil _).symm
  | cons stat stats ih =>
      simp only [serverReports, RtpEndpoint.getMOS, wp_bind, wp_read, wp_emit,
        wp_pure, id_eq]
      refine wp_mono (ih _) ?_ fun _ _ _ => id
      rintro _ l' e' hreported
      rw [hreported, reportsOf_concat, reportsOf_concat, reportsOf_concat]
      simp [Call.report]

/-- A server reports once nothing has thrown before its loop. -/
theorem serverLoop_reports (conf : Data) (r : Replies)
    (stats : List RtcpStat) :
    wp (serverLoop conf r stats)
      (fun _ l' _ => reportsOf l' =
        if r.listens then stats.map (getMOS .decoding) else [])
      (fun _ l' _ => reportsOf l' =
        if r.listens then stats.map (getMOS .decoding) else []) []
      (.construct .decoding) := by
  rw [serverLoop, wp_bind]
  refine wp_mono (Effect.wp_and (setRemoteAddr_wp (held_construct .decoding) _ _ r)
    (silent_setRemoteAddr _ _ r _ _)) ?_ ?_
  · rintro _ l₁ e₁ ⟨⟨hopens, h₁, -⟩, hkept₁, hdir₁⟩
    rw [wp_bind]
    refine wp_mono (Effect.wp_and (createStream_wp h₁ r)
      (silent_createStream r l₁ e₁)) ?_ ?_
    · rintro _ l₂ e₂ ⟨⟨⟨hcreates, hport⟩, h₂, hstream, -⟩, hkept₂, hdir₂⟩
      rw [wp_bind]
      refine wp_mono (Effect.wp_and (startStream_wp h₂ hstream r)
        (silent_startStream r l₂ e₂)) ?_ ?_
      · rintro _ l₃ e₃ ⟨⟨hstart, -, -⟩, hkept₃, hdir₃⟩
        have hlistens : r.listens = true := by
          simp [Replies.listens, hopens, hcreates, hport, hstart]
        have hdir : e₃.info.dir = .decoding := by rw [hdir₃, hdir₂, hdir₁]; rfl
        have hnone : reportsOf l₃ = [] := by rw [hkept₃, hkept₂, hkept₁]; rfl
        refine wp_mono (serverReports_reports r stats l₃ e₃) ?_
          fun _ _ _ => False.elim
        rintro _ l₄ e₄ hreported
        rw [hreported, hnone, hdir, if_pos hlistens, List.nil_append]
      · rintro _ l₃ e₃ ⟨⟨hstart, -, -⟩, hkept₃, -⟩
        rw [hkept₃, hkept₂, hkept₁, if_neg (by simp [Replies.listens, hstart])]
        rfl
    · rintro _ l₂ e₂ ⟨hfails, hkept₂, -⟩
      rw [hkept₂, hkept₁, if_neg]
      · rfl
      · rcases hfails with ⟨hcreates, -⟩ | ⟨⟨-, hport⟩, -⟩
        · simp [Replies.listens, hcreates]
        · simp [Replies.listens, hport]
  · rintro _ l₁ e₁ ⟨⟨hopens, -⟩, hkept₁, -⟩
    rw [hkept₁, if_neg (by simp [Replies.listens, hopens])]
    rfl

theorem reportsOf_append (l l' : List Call) :
    reportsOf (l ++ l') = reportsOf l ++ reportsOf l' :=
  List.filterMap_append

theorem reportsOf_destroy (e : RtpEndpoint) :
    reportsOf (RtpEndpoint.destroy e).log = [] := by
  rw [destroy_log]
  cases e.masterPort <;> cases e.stream <;> cases e.playFilePort <;> rfl

end Calls

/-! ## The scores of a session -/

/-- A client never divides by zero. -/
theorem isSome_getMOS_encoding (stat : RtcpStat) :
    (getMOS .encoding stat).isSome = true := by
  rw [getMOS]
  split
  · rfl
  · rw [Option.isSome_map]
    by_cases hpkt : stat.tx.pkt = 0
    · simp [StreamStat.lossRate, pkgLossRate, hpkt]
    · rw [lossRate_encoding hpkt]
      rfl

theorem untilTrap_map (dir : MediaDir) (stats : List RtcpStat) :
    List.Forall₂ (fun mos stat => getMOS dir stat = some mos)
      (untilTrap (stats.map (getMOS dir)))
      (stats.takeWhile fun stat => (getMOS dir stat).isSome) := by
  induction stats with
  | nil => exact .nil
  | cons stat stats ih =>
      rw [List.map_cons]
      cases hmos : getMOS dir stat with
      | none =>
          rw [List.takeWhile_cons_of_neg (by simp [hmos])]
          exact .nil
      | some mos =>
          rw [List.takeWhile_cons_of_pos (by simp [hmos])]
          exact .cons hmos ih

/-- The scores that are sent are those of the reported statistics. -/
theorem session_scores (s : Session) :
    List.Forall₂ (fun mos stat => getMOS s.dir stat = some mos)
      (untilTrap (reportsOf s.calls)) s.reported := by
  cases s with
  | client wavfile iterations =>
      have hloop := Effect.wp_end (clientLoop_reports wavfile iterations
        (held_construct .encoding) (by rintro ⟨⟩) rfl)
      have hcalls : reportsOf (lifetime wavfile iterations) =
          (reportedCalls true iterations).map (getMOS .encoding) := by
        rw [lifetime, reportsOf_append, reportsOf_destroy, List.append_nil]
        exact hloop
      have hall : (reportedCalls true iterations).takeWhile
          (fun stat => (getMOS .encoding stat).isSome) =
          reportedCalls true iterations :=
        List.takeWhile_eq_self_iff.mpr fun stat _ => isSome_getMOS_encoding stat
      have hscores := untilTrap_map .encoding (reportedCalls true iterations)
      rw [hall, ← hcalls] at hscores
      exact hscores
  | server conf r stats =>
      have hloop := Effect.wp_end (serverLoop_reports conf r stats)
      have hcalls : reportsOf (serverLifetime conf r stats) =
          if r.listens then stats.map (getMOS .decoding) else [] := by
        rw [serverLifetime, reportsOf_append, reportsOf_destroy,
          List.append_nil]
        exact hloop
      change List.Forall₂ _ (untilTrap (reportsOf (serverLifetime _ _ _)))
        (if r.listens then _ else [])
      rw [hcalls]
      split
      · exact untilTrap_map .decoding stats
      · exact .nil

/-! ## What is posted -/

/-- The posts among the outputs. -/
def posts (outputs : List Output) : List Post :=
  outputs.filterMap Output.post?

/-- The error messages among the outputs. -/
def errors (outputs : List Output) : List CString :=
  outputs.filterMap Output.error?

/-- What is printed about an answer that is not 204. -/
def CurlReply.complaint : CurlReply → Option CString
  | .failed error =>
      some ("curl_easy_perform() failed: ".toList ++ error ++ ['\n'])
  | .answered httpCode response =>
      if httpCode = 204 then none
      else some ("HTTP error: ".toList ++ toDecimal httpCode ++
        " Response: ".toList ++ response ++ ['\n'])

/-- The complaints about the answers from the `n`th on, for `count` reports. -/
def complaints (curl : ℕ → CurlReply) (n count : ℕ) : List CString :=
  (List.range' n count).filterMap fun i => (curl i).complaint

/-- What a client without a connection prints: it complains at its first report,
unless the flag says that it has. -/
def notConnected (notified : Bool) (count : ℕ) : List CString :=
  if notified = true ∨ count = 0 then []
  else ["Not connected to InfluxDB\n".toList]

/-- The body of a report. -/
def reportLine (tags : CString) (mos : ℚ) : CString :=
  InfluxDBClient.line "audio".toList tags ("mos=".toList ++ fixedPoint 6 mos) 0

section Client

variable {c : InfluxDBClient} {handle : CurlHandle} {tags : CString}
variable {curl : ℕ → CurlReply}

theorem checkReply_spec (reply : CurlReply) (c : InfluxDBClient) :
    (InfluxDBClient.checkReply reply).Yields c reply.accepted c
      (reply.complaint.toList.map .err) := by
  cases reply with
  | failed error => rfl
  | answered httpCode response =>
      by_cases hcode : httpCode = 204
      · simp [InfluxDBClient.checkReply, CurlReply.accepted,
          CurlReply.complaint, hcode]
      · simp [InfluxDBClient.checkReply, CurlReply.accepted,
          CurlReply.complaint, hcode, Effect.yields_bind]

theorem posts_append (outputs outputs' : List Output) :
    posts (outputs ++ outputs') = posts outputs ++ posts outputs' :=
  List.filterMap_append

theorem errors_append (outputs outputs' : List Output) :
    errors (outputs ++ outputs') = errors outputs ++ errors outputs' :=
  List.filterMap_append

/-- A request with complaints about its answer. -/
theorem posted_spec (post : Post) (texts : List CString) :
    posts (.posted post :: texts.map .err) = [post] ∧
      errors (.posted post :: texts.map .err) = texts := by
  have hposts : posts (texts.map .err) = [] := by simp [posts, Output.post?]
  have herrors : errors (texts.map .err) = texts := by
    rw [errors, List.filterMap_map]
    exact List.filterMap_some
  exact ⟨congrArg (post :: ·) hposts, herrors⟩

/-- A connected client posts and keeps its connection. -/
theorem send_connected (hc : c.curl = some handle)
    (measurement tags fields : CString) (timestamp : ℤ) (reply : CurlReply) :
    (InfluxDBClient.send measurement tags fields timestamp reply).Yields
        c reply.accepted c
        (.posted ⟨handle.url, handle.headers,
            InfluxDBClient.line measurement tags fields timestamp⟩ ::
          reply.complaint.toList.map .err) := by
  simp only [InfluxDBClient.send, Effect.Yields, Effect.read_bind, id_eq, hc]
  exact Effect.yields_bind.mpr ⟨(), c, _, _, rfl, checkReply_spec reply c, rfl⟩

/-- It posts every report once, in order, and complains about every answer that
is not 204. -/
theorem sendAll_connected (hc : c.curl = some handle) (tags : CString)
    (curl : ℕ → CurlReply) (n : ℕ) (scores : List ℚ) :
    ∃ log, (sendAll tags curl n scores).Yields c () c log ∧
      posts log = scores.map (fun mos =>
        ⟨handle.url, handle.headers, reportLine tags mos⟩) ∧
      errors log = complaints curl n scores.length := by
  induction scores generalizing n with
  | nil => exact ⟨[], rfl, rfl, rfl⟩
  | cons mos scores ih =>
      have hsend := send_connected hc "audio".toList tags
        ("mos=".toList ++ fixedPoint 6 mos) 0 (curl n)
      obtain ⟨log, hrest, hposts, herrors⟩ := ih (n + 1)
      refine ⟨_, Effect.yields_bind.mpr ⟨_, c, _, _, hsend, hrest, rfl⟩, ?_, ?_⟩
      · rw [posts_append, (posted_spec _ _).1, hposts]
        rfl
      · rw [errors_append, (posted_spec _ _).2, herrors, complaints, complaints,
          List.length_cons, List.range'_succ, List.filterMap_cons]
        cases (curl n).complaint <;> rfl

/-- A client without a connection posts nothing and says so once. -/
theorem sendAll_unconnected (hc : c.curl = none) (tags : CString)
    (curl : ℕ → CurlReply) (n : ℕ) (scores : List ℚ) :
    posts (sendAll tags curl n scores c).log = [] ∧
      errors (sendAll tags curl n scores c).log =
        notConnected c.notConnectNotify scores.length := by
  induction scores generalizing c n with
  | nil => exact ⟨rfl, (if_pos (Or.inr rfl)).symm⟩
  | cons mos scores ih =>
      obtain ⟨url, org, bucket, token, handle, flag⟩ := c
      obtain rfl : handle = none := hc
      let told : InfluxDBClient := ⟨url, org, bucket, token, none, true⟩
      obtain ⟨hposts, herrors⟩ := ih (c := told) rfl (n + 1)
      have hquiet : notConnected true scores.length = [] := by
        simp [notConnected]
      cases flag with
      | true =>
          have hsend : (InfluxDBClient.send "audio".toList tags
              ("mos=".toList ++ fixedPoint 6 mos) 0 (curl n)).Yields told false
                told [] := rfl
          rw [sendAll, Effect.bind_of_yields hsend]
          refine ⟨hposts, ?_⟩
          rw [List.nil_append, herrors]
          simp [told, notConnected]
      | false =>
          have hsend : (InfluxDBClient.send "audio".toList tags
              ("mos=".toList ++ fixedPoint 6 mos) 0 (curl n)).Yields
                ⟨url, org, bucket, token, none, false⟩ false told
                [.err "Not connected to InfluxDB\n".toList] := rfl
          rw [sendAll, Effect.bind_of_yields hsend]
          refine ⟨hposts, ?_⟩
          rw [errors_append, herrors, hquiet]
          simp [notConnected, errors, Output.error?]

end Client

/-! ## From the environment of the server to the database -/

/-- A database: its address and the right to write to it. -/
structure Database where
  url : CString
  org : CString
  bucket : CString
  token : CString

/-- The environment of the media server names the database. -/
structure Database.SetIn (db : Database) (environ : Environ) : Prop where
  url : getenv environ "URL".toList = some db.url
  org : getenv environ "org".toList = some db.org
  bucket : getenv environ "bucket".toList = some db.bucket
  token : getenv environ "token".toList = some db.token

/-- The request writes the score to the database: the line shows the score with
six digits behind the point. -/
structure PostedTo (db : Database) (tags : CString) (post : Post) (mos : ℚ) :
    Prop where
  address : post.url = db.url ++ "/api/v2/write?org=".toList ++ db.org ++
    "&bucket=".toList ++ db.bucket
  authorized : "Authorization: Token ".toList ++ db.token ∈ post.headers
  shown : ∃ number v, readPoint post.body =
      some ⟨"audio".toList, tags, "mos=".toList ++ number, 0⟩ ∧
    readFixed number = some v ∧ |v - mos| ≤ 1 / 2000000

theorem readPoint_reportLine {tags : CString} (htags : ' ' ∉ tags) (mos : ℚ) :
    ∃ number v, readPoint (reportLine tags mos) =
        some ⟨"audio".toList, tags, "mos=".toList ++ number, 0⟩ ∧
      readFixed number = some v ∧ |v - mos| ≤ 1 / 2000000 := by
  obtain ⟨v, hread, hclose⟩ := readFixed_fixedPoint (by decide : 0 < 6) mos
  refine ⟨fixedPoint 6 mos, v, ?_, hread, by norm_num at hclose ⊢; exact hclose⟩
  refine InfluxDBClient.readPoint_line 0 (by decide) (by decide) htags ?_
  intro hblank
  rcases List.mem_append.mp hblank with hblank | hblank
  · exact absurd hblank (by decide)
  · rcases mem_fixedPoint hblank with hdigit | hpoint | hminus
    · exact absurd hdigit (by decide)
    · exact absurd hpoint (by decide)
    · exact absurd hminus (by decide)

theorem blank_notMem_tags (s : Session) : ' ' ∉ s.tags := by
  cases s with
  | client wavfile iterations => exact (by decide : ' ' ∉ "type=RX".toList)
  | server conf r stats => exact (by decide : ' ' ∉ "type=TX".toList)

section Environments

variable {environ : Environ}

theorem getenv_child (environ : Environ) :
    getenv (launchEnvp environ) "influx_URL".toList =
        getenv environ "URL".toList ∧
      getenv (launchEnvp environ) "influx_org".toList =
        getenv environ "org".toList ∧
      getenv (launchEnvp environ) "influx_bucket".toList =
        getenv environ "bucket".toList ∧
      getenv (launchEnvp environ) "influx_token".toList =
        getenv environ "token".toList := by
  have hfound := getenv_launchEnvp environ
  exact ⟨hfound ("influx_URL".toList, "URL".toList) (by decide),
    hfound ("influx_org".toList, "org".toList) (by decide),
    hfound ("influx_bucket".toList, "bucket".toList) (by decide),
    hfound ("influx_token".toList, "token".toList) (by decide)⟩

theorem influxClient_set {db : Database} (h : db.SetIn environ)
    (curlInit stale : Bool) :
    influxClient curlInit stale (launchEnvp environ) =
      let o := InfluxDBClient.initializeCurl curlInit
        (.construct db.url db.org db.bucket db.token)
      .ok (o.state, o.log) := by
  obtain ⟨hurl, horg, hbucket, htoken⟩ := getenv_child environ
  rw [influxClient, hurl, h.url, horg, h.org, hbucket, h.bucket, htoken,
    h.token]
  rfl

theorem influxClient_unset (h : getenv environ "URL".toList = none)
    (curlInit stale : Bool) :
    influxClient curlInit stale (launchEnvp environ) =
      .ok (.unconnected stale, []) := by
  obtain ⟨hurl, -⟩ := getenv_child environ
  rw [influxClient, hurl, h]

/-- The endpoint ends at once when the address is incomplete. -/
theorem influxClient_error_iff (environ : Environ) (curlInit stale : Bool) :
    influxClient curlInit stale (launchEnvp environ) = .error .nullString ↔
      getenv environ "URL".toList ≠ none ∧
        (getenv environ "org".toList = none ∨
          getenv environ "bucket".toList = none ∨
          getenv environ "token".toList = none) := by
  obtain ⟨hurl, horg, hbucket, htoken⟩ := getenv_child environ
  rw [influxClient, hurl, horg, hbucket, htoken]
  cases getenv environ "URL".toList with
  | none => simp
  | some url =>
      cases getenv environ "org".toList <;>
        cases getenv environ "bucket".toList <;>
          cases getenv environ "token".toList <;>
            simp [stdString, bind, Except.bind]

/-- A database that is named gets every score of the session. -/
theorem endpointOutputs_connected {db : Database} (h : db.SetIn environ)
    (stale : Bool) (curl : ℕ → CurlReply) (s : Session) :
    ∃ outputs, endpointOutputs (launchEnvp environ) true stale curl s =
        .ok outputs ∧
      List.Forall₂ (fun post stat => ∃ mos, getMOS s.dir stat = some mos ∧
        PostedTo db s.tags post mos) (posts outputs) s.reported ∧
      errors outputs = complaints curl 0 s.reported.length := by
  have hscores := session_scores s
  let client : InfluxDBClient :=
    (InfluxDBClient.initializeCurl true
      (.construct db.url db.org db.bucket db.token)).state
  let handle : CurlHandle := ⟨client.writeUrl, client.headers⟩
  have hclient : client.curl = some handle := rfl
  obtain ⟨log, hlog, hposts, herrors⟩ :=
    sendAll_connected hclient s.tags curl 0 (untilTrap (reportsOf s.calls))
  refine ⟨.out (client.writeUrl ++ ['\n']) :: log, ?_, ?_, ?_⟩
  · rw [endpointOutputs, influxClient_set h]
    change Except.ok (_ :: (sendAll s.tags curl 0 _ client).log) = _
    rw [hlog]
    rfl
  · change List.Forall₂ _ (posts log) _
    rw [hposts, List.forall₂_map_left_iff]
    refine hscores.imp fun mos stat hmos => ⟨mos, hmos, ?_⟩
    exact ⟨rfl, List.mem_cons_self,
      readPoint_reportLine (blank_notMem_tags s) mos⟩
  · change errors log = _
    rw [herrors, hscores.length_eq]

/-- Without a handle of libcurl it gets none. -/
theorem endpointOutputs_no_handle {db : Database} (h : db.SetIn environ)
    (stale : Bool) (curl : ℕ → CurlReply) (s : Session) :
    ∃ outputs, endpointOutputs (launchEnvp environ) false stale curl s =
        .ok outputs ∧ posts outputs = [] ∧
      errors outputs = "Failed to initialize CURL\n".toList ::
        notConnected false s.reported.length := by
  let client : InfluxDBClient := .construct db.url db.org db.bucket db.token
  obtain ⟨hposts, herrors⟩ := sendAll_unconnected (c := client) rfl s.tags
    curl 0 (untilTrap (reportsOf s.calls))
  rw [(session_scores s).length_eq] at herrors
  rw [endpointOutputs, influxClient_set h]
  exact ⟨_, rfl, hposts, congrArg (List.cons _) herrors⟩

theorem endpointOutputs_unset (h : getenv environ "URL".toList = none)
    (curlInit stale : Bool) (curl : ℕ → CurlReply) (s : Session) :
    ∃ outputs, endpointOutputs (launchEnvp environ) curlInit stale curl s =
        .ok outputs ∧ posts outputs = [] ∧
      errors outputs = notConnected stale s.reported.length := by
  obtain ⟨hposts, herrors⟩ := sendAll_unconnected (c := .unconnected stale) rfl
    s.tags curl 0 (untilTrap (reportsOf s.calls))
  rw [endpointOutputs, influxClient_unset h]
  refine ⟨_, rfl, hposts, herrors.trans ?_⟩
  rw [(session_scores s).length_eq]
  rfl

end Environments

/-- The scores of an endpoint, whatever its calls of pjmedia and its requests
return.  If the server's environment names a database, each score of the session
is posted to it exactly once, in order, and each answer but 204 is reported.
Nothing is posted if libcurl cannot be set up or no address is set; the client
says so at its first report, unless its flag was left set.  The endpoint ends
before its first call exactly when the address is set and another variable is
not. -/
theorem scores_posted (environ : Environ) (curlInit stale : Bool)
    (curl : ℕ → CurlReply) (s : Session) :
    (∀ db : Database, db.SetIn environ → ∃ outputs,
        endpointOutputs (launchEnvp environ) curlInit stale curl s =
          .ok outputs ∧
        if curlInit then
          List.Forall₂ (fun post stat => ∃ mos, getMOS s.dir stat = some mos ∧
            PostedTo db s.tags post mos) (posts outputs) s.reported ∧
          errors outputs = complaints curl 0 s.reported.length
        else posts outputs = [] ∧
          errors outputs = "Failed to initialize CURL\n".toList ::
            notConnected false s.reported.length) ∧
      (getenv environ "URL".toList = none → ∃ outputs,
        endpointOutputs (launchEnvp environ) curlInit stale curl s =
          .ok outputs ∧ posts outputs = [] ∧
        errors outputs = notConnected stale s.reported.length) ∧
      (endpointOutputs (launchEnvp environ) curlInit stale curl s =
          .error .nullString ↔
        getenv environ "URL".toList ≠ none ∧
          (getenv environ "org".toList = none ∨
            getenv environ "bucket".toList = none ∨
            getenv environ "token".toList = none)) := by
  refine ⟨fun db hset => ?_, fun hunset => ?_, ?_⟩
  · cases curlInit with
    | true => exact endpointOutputs_connected hset stale curl s
    | false => exact endpointOutputs_no_handle hset stale curl s
  · exact endpointOutputs_unset hunset curlInit stale curl s
  · rw [← influxClient_error_iff environ curlInit stale, endpointOutputs]
    cases influxClient curlInit stale (launchEnvp environ) with
    | error e =>
        cases e
        exact ⟨fun _ => rfl, fun _ => rfl⟩
    | ok made => exact ⟨by rintro ⟨⟩, by rintro ⟨⟩⟩

/-- An environment as `server.conf` sets it. -/
def confEnviron : Environ :=
  [ "URL=http://192.168.1.13:8086".toList, "token=rJwm==".toList,
    "org=default".toList, "bucket=sipp_bucket".toList ]

def confDatabase : Database :=
  ⟨"http://192.168.1.13:8086".toList, "default".toList, "sipp_bucket".toList,
    "rJwm==".toList⟩

/-- A call that is served, and one whose stream cannot be created. -/
def servedThenFailed : Session :=
  let served : Replies :=
    ⟨0, 0, .ok 1, 0, .ok 2, .ok 3, 0, 0, cleanStat, 0⟩
  let conf : Data := ⟨4000, 5000, strncpy addrSz "10.0.0.2".toList, 1000, 1, 1⟩
  .client "sample.wav".toList
    [(conf, served), (conf, { served with streamCreate := .error 1 })]

theorem scores_posted_conf : ∃ outputs,
    endpointOutputs (launchEnvp confEnviron) true false
        (fun _ => .answered 500 []) servedThenFailed = .ok outputs ∧
      List.Forall₂ (fun post stat => ∃ mos, getMOS .encoding stat = some mos ∧
        PostedTo confDatabase "type=RX".toList post mos) (posts outputs)
          [cleanStat] ∧
      errors outputs = ["HTTP error: 500 Response: \n".toList] :=
  (scores_posted confEnviron true false (fun _ => .answered 500 [])
    servedThenFailed).1 confDatabase
      ⟨by decide, by decide, by decide, by decide⟩

end SippScen.MediaEndpoint
