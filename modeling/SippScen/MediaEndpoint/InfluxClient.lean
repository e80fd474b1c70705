import SippScen.MediaServer.Environment
import SippScen.Support.Effect
import SippScen.Support.FixedPoint

/-!
# The client of the database

`InfluxDBClient` posts points in the line protocol.  It keeps the address and
the authorization of the database with its CURL handle; without a handle it
posts nothing and says so once.  What libcurl and the database answer is
arbitrary.
-/

namespace SippScen.MediaEndpoint

open SippScen.Support SippScen.MediaServer
open Effect (change emit read)

/-- A CURL handle with the options that stay set. -/
structure CurlHandle where
  url : CString
  headers : List CString
deriving DecidableEq, Repr

/-- An `InfluxDBClient`; `connected_` tells whether there is a handle. -/
structure InfluxDBClient where
  url : CString
  org : CString
  bucket : CString
  token : CString
  curl : Option CurlHandle
  notConnectNotify : Bool
deriving DecidableEq, Repr

/-- A POST request. -/
structure Post where
  url : CString
  headers : List CString
  body : CString
deriving DecidableEq, Repr

/-- What the client does: it prints, reports errors and posts. -/
inductive Output
  | out (text : CString)
  | err (text : CString)
  | posted (post : Post)
deriving DecidableEq, Repr

/-- The request, if the output is one. -/
def Output.post? : Output → Option Post
  | .posted post => some post
  | _ => none

/-- The text of an error message. -/
def Output.error? : Output → Option CString
  | .err text => some text
  | _ => none

/-- The result of `curl_easy_perform`, with what the database answered. -/
inductive CurlReply
  | failed (error : CString)
  | answered (httpCode : ℤ) (response : CString)
deriving DecidableEq, Repr

/-- The database has taken the point. -/
def CurlReply.accepted : CurlReply → Bool
  | .failed _ => false
  | .answered httpCode _ => httpCode = 204

/-- A computation of the client; it throws nothing. -/
abbrev ClientMethod (α : Type) := Effect Empty InfluxDBClient Output α

namespace InfluxDBClient

/-- The client of the default constructor, which does not set
`not_connect_notify`. -/
def unconnected (notConnectNotify : Bool) : InfluxDBClient :=
  ⟨[], [], [], [], none, notConnectNotify⟩

/-- The fields before `initializeCurl`. -/
def construct (url org bucket token : CString) : InfluxDBClient :=
  ⟨url, org, bucket, token, none, false⟩

/-- The address that points are written to. -/
def writeUrl (c : InfluxDBClient) : CString :=
  c.url ++ "/api/v2/write?org=".toList ++ c.org ++ "&bucket=".toList ++ c.bucket

/-- The headers of every request. -/
def headers (c : InfluxDBClient) : List CString :=
  [ "Authorization: Token ".toList ++ c.token,
    "Content-Type: text/plain; charset=utf-8".toList,
    "Accept: application/json".toList ]

/-- `initializeCurl`; `curlInit` tells whether `curl_easy_init` succeeds. -/
def initializeCurl (curlInit : Bool) : ClientMethod Bool := do
  if curlInit then
    let c ← read id
    emit (.out (c.writeUrl ++ ['\n']))
    change fun c => { c with curl := some ⟨c.writeUrl, c.headers⟩ }
    pure true
  else
    emit (.err "Failed to initialize CURL\n".toList)
    pure false

/-- The tags behind their comma, if there are any. -/
def tagPart (tags : CString) : CString :=
  if tags = [] then [] else ',' :: tags

/-- The timestamp behind its blank, if it is positive. -/
def stampPart (timestamp : ℤ) : CString :=
  if 0 < timestamp then ' ' :: toDecimal timestamp else []

/-- The line protocol. -/
def line (measurement tags fields : CString) (timestamp : ℤ) : CString :=
  measurement ++ tagPart tags ++ ' ' :: fields ++ stampPart timestamp

/-- What `send` does with the answer. -/
def checkReply : CurlReply → ClientMethod Bool
  | .failed error => do
      emit (.err ("curl_easy_perform() failed: ".toList ++ error ++ ['\n']))
      pure false
  | .answered httpCode response =>
      if httpCode ≠ 204 then do
        emit (.err ("HTTP error: ".toList ++ toDecimal httpCode ++
          " Response: ".toList ++ response ++ ['\n']))
        pure false
      else pure true

/-- `send`, with the answer that the request gets if it is made. -/
def send (measurement tags fields : CString) (timestamp : ℤ)
    (reply : CurlReply) : ClientMethod Bool := do
  let c ← read id
  match c.curl with
  | none =>
      if c.notConnectNotify then pure false
      else
        emit (.err "Not connected to InfluxDB\n".toList)
        change fun c => { c with notConnectNotify := true }
        pure false
  | some curl =>
      emit (.posted ⟨curl.url, curl.headers,
        line measurement tags fields timestamp⟩)
      checkReply reply

end InfluxDBClient

/-! ## The client of an endpoint -/

/-- The exception of a `std::string` that is made from a null pointer. -/
inductive NullString
  | nullString
deriving DecidableEq, Repr

/-- A `std::string` of a `char *`. -/
def stdString : Option CString → Except NullString CString
  | none => .error .nullString
  | some s => .ok s

/-- The part of `main` that makes the client, with what this prints.  `stale` is
the flag that the default constructor leaves as it is. -/
def influxClient (curlInit stale : Bool) (environ : Environ) :
    Except NullString (InfluxDBClient × List Output) :=
  match getenv environ "influx_URL".toList with
  | none => .ok (.unconnected stale, [])
  | some url => do
      let org ← stdString (getenv environ "influx_org".toList)
      let bucket ← stdString (getenv environ "influx_bucket".toList)
      let token ← stdString (getenv environ "influx_token".toList)
      let o := InfluxDBClient.initializeCurl curlInit
        (.construct url org bucket token)
      .ok (o.state, o.log)

/-! ## Reading the line protocol -/

/-- A point of a measurement. -/
structure Point where
  measurement : CString
  tags : CString
  fields : CString
  timestamp : ℤ
deriving DecidableEq, Repr

/-- The point that a line shows: the first blank ends the measurement with its
tags, the next one the fields. -/
def readPoint (s : CString) : Option Point :=
  let series := s.takeWhile (· ≠ ' ')
  match s.dropWhile (· ≠ ' ') with
  | [] => none
  | _ :: rest =>
      some
        { measurement := series.takeWhile (· ≠ ',')
          tags := (series.dropWhile (· ≠ ',')).drop 1
          fields := rest.takeWhile (· ≠ ' ')
          timestamp := (scanLong (rest.dropWhile (· ≠ ' '))).getD 0 }

theorem takeWhile_word {stop : Char} {word rest : CString} (hword : stop ∉ word)
    (hrest : rest = [] ∨ rest.head? = some stop) :
    (word ++ rest).takeWhile (· ≠ stop) = word ∧
      (word ++ rest).dropWhile (· ≠ stop) = rest := by
  have hall : ∀ c ∈ word, decide (c ≠ stop) = true := by
    intro c hc
    simpa using ne_of_mem_of_not_mem hc hword
  rw [List.takeWhile_append_of_pos hall, List.dropWhile_append_of_pos hall]
  cases rest with
  | nil => simp
  | cons c rest =>
      obtain rfl : c = stop := by simpa using hrest
      simp

namespace InfluxDBClient

theorem tagPart_spec {tags : CString} (htags : ' ' ∉ tags) :
    ' ' ∉ tagPart tags ∧ (tagPart tags).drop 1 = tags ∧
      (tagPart tags = [] ∨ (tagPart tags).head? = some ',') := by
  unfold tagPart
  split
  · next hnil => simp [hnil]
  · simp [htags]

theorem stampPart_spec (timestamp : ℤ) :
    (stampPart timestamp = [] ∨ (stampPart timestamp).head? = some ' ') ∧
      (scanLong (stampPart timestamp)).getD 0 = max timestamp 0 := by
  unfold stampPart
  split
  · next hpos =>
    have hblank : scanLong (' ' :: toDecimal timestamp) =
        scanLong (toDecimal timestamp) := rfl
    rw [hblank, scanLong_toDecimal]
    exact ⟨Or.inr rfl, (max_eq_left hpos.le).symm⟩
  · next hneg =>
    exact ⟨Or.inl rfl, (max_eq_right (not_lt.mp hneg)).symm⟩

/-- A point without separators in its parts is read back; a timestamp that is
not positive is left out. -/
theorem readPoint_line {measurement tags fields : CString} (timestamp : ℤ)
    (hmeasurement : ' ' ∉ measurement) (hcomma : ',' ∉ measurement)
    (htags : ' ' ∉ tags) (hfields : ' ' ∉ fields) :
    readPoint (line measurement tags fields timestamp) =
      some ⟨measurement, tags, fields, max timestamp 0⟩ := by
  obtain ⟨hblank, hdrop, htagPart⟩ := tagPart_spec htags
  obtain ⟨hstampPart, hscan⟩ := stampPart_spec timestamp
  have hseries : ' ' ∉ measurement ++ tagPart tags := by
    simp [hmeasurement, hblank]
  let rest := ' ' :: (fields ++ stampPart timestamp)
  have hline : line measurement tags fields timestamp =
      (measurement ++ tagPart tags) ++ rest := by
    simp [line, rest]
  have hhead : rest = [] ∨ rest.head? = some ' ' := Or.inr rfl
  obtain ⟨htake, hrest⟩ := takeWhile_word hseries hhead
  obtain ⟨hname, hafter⟩ := takeWhile_word hcomma htagPart
  obtain ⟨hvalue, hstamp⟩ := takeWhile_word hfields hstampPart
  rw [readPoint, hline, htake, hrest, hname, hafter, hdrop]
  simp only [rest, hvalue, hstamp, hscan]

end InfluxDBClient

end SippScen.MediaEndpoint
