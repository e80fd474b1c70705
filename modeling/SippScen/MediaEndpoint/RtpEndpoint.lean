import SippScen.MediaEndpoint.LossRate
import SippScen.SharedList.Model
import SippScen.Support.Effect

/-!
# The media objects of an endpoint

`RTP_endpoint` owns a stream, a player and a master port that moves audio from
the player to a port.  Its methods are sequences of calls of pjmedia.  What the
calls return is arbitrary; each one is logged with its arguments, and a failed
check throws.  `endpoint_thread` runs the methods of a client once for every
call it serves, and the destructor at the end.
-/

namespace SippScen.MediaEndpoint

open SippScen.Support SippScen.SharedList

/-- `pj_status_t`; `PJ_SUCCESS` is 0. -/
abbrev Status := ℤ

/-- A pointer to an object of pjmedia. -/
abbrev Handle := ℕ

/-- A `pjmedia_port`: a player of a WAV file, or the interface of a stream. -/
inductive MediaPort
  | wavPlayer (player : Handle)
  | ofStream (stream : Handle)
deriving DecidableEq, Repr

/-- A socket address. -/
structure Sockaddr where
  address : CString
  port : ℤ
deriving DecidableEq, Repr

/-- The part of `pjmedia_stream_info` that a reuse changes, and the
direction. -/
structure StreamInfo where
  dir : MediaDir
  remAddr : Sockaddr
  remRtcp : Sockaddr
deriving DecidableEq, Repr

/-- The fields of an `RTP_endpoint`. -/
structure RtpEndpoint where
  info : StreamInfo
  stream : Option Handle
  streamPort : Option MediaPort
  playFilePort : Option MediaPort
  masterPort : Option Handle
deriving DecidableEq, Repr

/-- The calls of pjmedia, with the objects they concern, and the report to
InfluxDB. -/
inductive Call
  | streamCreate (info : StreamInfo) (stream : Handle)
  | transportMediaStart
  | wavPlayerCreate (wavfile : CString) (player : Handle)
  | masterPortCreate (source sink : Option MediaPort) (masterPort : Handle)
  | streamStart (stream : Option Handle)
  | masterPortStart (masterPort : Option Handle)
  | masterPortStop (masterPort : Option Handle)
  | streamGetStat (stream : Option Handle)
  | streamResetStat (stream : Option Handle)
  | send (mos : Option ℚ)
  | masterPortDestroy (masterPort : Handle)
  | streamDestroy (stream : Handle)
  | transportMediaStop
  | transportClose
  | portDestroy (port : MediaPort)
deriving DecidableEq, Repr

/-- The check that threw. -/
inductive Thrown
  | createSocket
  | setPort
  | streamCreate
  | getPort
  | wavPlayerCreate
  | masterPortCreate
  | streamStart
  | masterPortStart
  | masterPortStop
deriving DecidableEq, Repr

/-- What the calls of one iteration return, if they are made. -/
structure Replies where
  createSocket : Status
  setPort : Status
  streamCreate : Except Status Handle
  getPort : Status
  wavPlayerCreate : Except Status Handle
  masterPortCreate : Except Status Handle
  streamStart : Status
  masterPortStart : Status
  stat : RtcpStat
  masterPortStop : Status

/-- A computation on the fields of an endpoint. -/
abbrev Method (α : Type) := Effect Thrown RtpEndpoint Call α

/-- `check_status`. -/
def checkStatus (check : Thrown) (status : Status) : Method Unit :=
  if status ≠ 0 then Effect.fail check else pure ()

namespace RtpEndpoint

open Effect (change emit fail)

/-- The endpoint after its constructor. -/
def construct (dir : MediaDir) : RtpEndpoint where
  info := ⟨dir, ⟨[], 0⟩, ⟨[], 0⟩⟩
  stream := none
  streamPort := none
  playFilePort := none
  masterPort := none

/-- `setRemoteAddr`. -/
def setRemoteAddr (ipAddr : CString) (port : ℤ) (r : Replies) :
    Method Unit := do
  checkStatus .createSocket r.createSocket
  change fun e =>
    { e with info.remAddr := ⟨ipAddr, port⟩, info.remRtcp := ⟨ipAddr, port⟩ }
  checkStatus .setPort r.setPort
  change fun e =>
    { e with info.remRtcp.port := toUInt16 (e.info.remRtcp.port + 1) }

/-- `createStream`. -/
def createStream (r : Replies) : Method Unit := do
  let info ← Effect.read RtpEndpoint.info
  match r.streamCreate with
  | .error _ =>
      emit .transportClose
      fail .streamCreate
  | .ok stream =>
      emit (.streamCreate info stream)
      change fun e => { e with stream := some stream }
  emit .transportMediaStart
  checkStatus .getPort r.getPort
  change fun e => { e with streamPort := e.stream.map .ofStream }

/-- `startStream()`. -/
def startStream (r : Replies) : Method Unit := do
  let stream ← Effect.read RtpEndpoint.stream
  emit (.streamStart stream)
  checkStatus .streamStart r.streamStart

/-- The part of `startStream(wavfile)` that is done once. -/
def createPlayer (wavfile : CString) (r : Replies) : Method Unit := do
  match r.wavPlayerCreate with
  | .error _ => fail .wavPlayerCreate
  | .ok player =>
      emit (.wavPlayerCreate wavfile player)
      change fun e => { e with playFilePort := some (.wavPlayer player) }
  let source ← Effect.read RtpEndpoint.playFilePort
  let sink ← Effect.read RtpEndpoint.streamPort
  match r.masterPortCreate with
  | .error _ => fail .masterPortCreate
  | .ok master =>
      emit (.masterPortCreate source sink master)
      change fun e => { e with masterPort := some master }

/-- `startStream(wavfile)`. -/
def startStreamFrom (wavfile : Option CString) (r : Replies) :
    Method Unit := do
  let playFilePort ← Effect.read RtpEndpoint.playFilePort
  match wavfile, playFilePort with
  | some wavfile, none => createPlayer wavfile r
  | _, _ => pure ()
  startStream r

/-- `startStreaming`. -/
def startStreaming (r : Replies) : Method Unit := do
  let masterPort ← Effect.read RtpEndpoint.masterPort
  emit (.masterPortStart masterPort)
  checkStatus .masterPortStart r.masterPortStart

/-- `stopStreaming`. -/
def stopStreaming (r : Replies) : Method Unit := do
  let masterPort ← Effect.read RtpEndpoint.masterPort
  emit (.masterPortStop masterPort)
  checkStatus .masterPortStop r.masterPortStop

/-- `get_MOS`, which returns the score of the statistic that it reads. -/
def getMOS (r : Replies) : Method (Option ℚ) := do
  let e ← Effect.read id
  emit (.streamGetStat e.stream)
  emit (.streamResetStat e.stream)
  pure (MediaEndpoint.getMOS e.info.dir r.stat)

/-- `~RTP_endpoint`. -/
def destroy : Method Unit := do
  let e ← Effect.read id
  match e.masterPort with
  | some masterPort => emit (.masterPortDestroy masterPort)
  | none => pure ()
  match e.stream with
  | some stream =>
      emit (.streamDestroy stream)
      emit .transportMediaStop
      emit .transportClose
  | none => pure ()
  match e.playFilePort with
  | some port => emit (.portDestroy port)
  | none => pure ()

end RtpEndpoint

/-! ## The client loop -/

open RtpEndpoint

/-- An iteration of a client up to `startStream`, with its copy of `conf`. -/
def clientStart (wavfile : CString) (conf : Data) (r : Replies) :
    Method Unit := do
  setRemoteAddr (ofArray conf.destAddress) (toUInt16 conf.destPort) r
  createStream r
  startStreamFrom (some wavfile) r

/-- The rest of the iteration. -/
def clientStream (r : Replies) : Method Unit := do
  startStreaming r
  let mos ← RtpEndpoint.getMOS r
  Effect.emit (.send mos)
  stopStreaming r

/-- One iteration of the loop of a client. -/
def clientIteration (wavfile : CString) (conf : Data) (r : Replies) :
    Method Unit := do
  clientStart wavfile conf r
  clientStream r

/-- Iterations one after the other, until one of them throws. -/
def clientLoop (wavfile : CString) : List (Data × Replies) → Method Unit
  | [] => pure ()
  | (conf, r) :: rest => do
      clientIteration wavfile conf r
      clientLoop wavfile rest

/-- All calls for an endpoint that serves the given iterations.  The destructor
runs at the end of the loop and when an exception leaves it. -/
def lifetime (wavfile : CString) (iterations : List (Data × Replies)) :
    List Call :=
  let o := clientLoop wavfile iterations (construct .encoding)
  o.log ++ (destroy o.state).log

end SippScen.MediaEndpoint
