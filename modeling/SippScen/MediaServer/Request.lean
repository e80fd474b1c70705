import SippScen.SharedList.Model

/-!
# Requests of the media server

`RestAPIHandler::addTask` turns the parameters of a `/stream` query into a
record for the worker, or answers with an error.  The query is a function from
parameter names to values; `pid` stands for the field that the handler leaves
uninitialised.
-/

namespace SippScen.MediaServer

open SippScen.Support SippScen.SharedList

/-- The status codes that the handler sends. -/
inductive HttpCode
  | ok
  | badRequest
  | internalServerError
deriving DecidableEq, Repr

/-- A response of the REST interface. -/
structure Response where
  code : HttpCode
  body : CString
deriving DecidableEq, Repr

/-- `request.query()`: the value of a parameter, if the query has it. -/
abbrev Query := CString → Option CString

/-- `query.get(name).value_or(default)`. -/
def Query.valueOr (query : Query) (name default : CString) : CString :=
  (query name).getD default

/-- `stoi` inside of the handler's `try` block: both exceptions carry the text
`stoi`, which is sent with code 500. -/
def stoiOrFail (s : CString) : Except Response ℤ :=
  match stoi s with
  | .ok z => .ok z
  | .error _ => .error ⟨.internalServerError, "stoi".toList⟩

/-- The record built from the query, or the error response. -/
def parseTask (pid : ℤ) (query : Query) : Except Response Data := do
  let client := if (query "client".toList).isSome then 1 else 0
  let port ← stoiOrFail (query.valueOr "port".toList "0".toList)
  if port = 0 then
    .error ⟨.badRequest, "Missing port parameter".toList⟩
  else
    let address := query.valueOr "daddress".toList "127.0.0.1".toList
    if address.length > 15 then
      .error ⟨.badRequest, "Incorrect remote IP address".toList⟩
    else
      let destPort ← stoiOrFail (query.valueOr "dport".toList "5000".toList)
      if destPort = 0 then
        .error ⟨.badRequest, "Missing dport parameter".toList⟩
      else
        let duration ← stoiOrFail (query.valueOr "duration".toList "0".toList)
        if duration < 0 then
          .error ⟨.badRequest, "Wrong duration parameter".toList⟩
        else
          .ok
            { port := port
              destPort := destPort
              destAddress := strncpy addrSz address
              duration := duration
              pid := pid
              client := client }

/-- `RestAPIHandler::addTask`: the response, and the record pushed to the
worker's queue. -/
def addTask (pid : ℤ) (query : Query) : Response × Option Data :=
  match parseTask pid query with
  | .ok data => (⟨.ok, []⟩, some data)
  | .error response => (response, none)

/-- What the handler has checked about a record that it accepts. -/
structure Accepted (query : Query) (data : Data) : Prop where
  port_int32 : IsInt32 data.port
  port_ne_zero : data.port ≠ 0
  destPort_int32 : IsInt32 data.destPort
  destPort_ne_zero : data.destPort ≠ 0
  duration_int32 : IsInt32 data.duration
  duration_nonneg : 0 ≤ data.duration
  address : ∃ a : CString, a.length ≤ 15 ∧
    a = query.valueOr "daddress".toList "127.0.0.1".toList ∧
    data.destAddress = strncpy addrSz a
  client : data.client =
    if (query "client".toList).isSome then 1 else 0

theorem isInt32_of_stoiOrFail {s : CString} {z : ℤ}
    (h : stoiOrFail s = .ok z) : IsInt32 z := by
  unfold stoiOrFail at h
  split at h
  · next hz =>
      cases h
      exact isInt32_of_stoi hz
  · cases h

theorem except_bind_eq_ok {ε α β : Type} {x : Except ε α}
    {f : α → Except ε β} {b : β} (h : (x >>= f) = .ok b) :
    ∃ a, x = .ok a ∧ f a = .ok b := by
  cases x with
  | error e => cases h
  | ok a => exact ⟨a, rfl, h⟩

theorem parseTask_accepted {pid : ℤ} {query : Query} {data : Data}
    (h : parseTask pid query = .ok data) : Accepted query data := by
  obtain ⟨port, hport, h⟩ := except_bind_eq_ok h
  split at h
  · cases h
  next hport0 =>
  dsimp only at h
  split at h
  · cases h
  next haddress =>
  obtain ⟨destPort, hdestPort, h⟩ := except_bind_eq_ok h
  split at h
  · cases h
  next hdestPort0 =>
  obtain ⟨duration, hduration, h⟩ := except_bind_eq_ok h
  split at h
  · cases h
  next hnonneg =>
  cases h
  exact
    { port_int32 := isInt32_of_stoiOrFail hport
      port_ne_zero := hport0
      destPort_int32 := isInt32_of_stoiOrFail hdestPort
      destPort_ne_zero := hdestPort0
      duration_int32 := isInt32_of_stoiOrFail hduration
      duration_nonneg := not_lt.mp hnonneg
      address := ⟨_, not_lt.mp haddress, rfl, rfl⟩
      client := rfl }

/-- The port of the record is the number in the query. -/
theorem port_of_parseTask {pid : ℤ} {query : Query} {data : Data}
    (h : parseTask pid query = .ok data) :
    stoiOrFail (query.valueOr "port".toList "0".toList) = .ok data.port := by
  obtain ⟨port, hport, h⟩ := except_bind_eq_ok h
  rw [hport]
  split at h
  · cases h
  dsimp only at h
  split at h
  · cases h
  obtain ⟨destPort, -, h⟩ := except_bind_eq_ok h
  split at h
  · cases h
  obtain ⟨duration, -, h⟩ := except_bind_eq_ok h
  split at h
  · cases h
  · cases h
    rfl

/-- A record is queued exactly when the answer is 200, and then it has passed
every check. -/
theorem addTask_accepted {pid : ℤ} {query : Query} {response : Response}
    {data : Data} (h : addTask pid query = (response, some data)) :
    response.code = .ok ∧ Accepted query data := by
  unfold addTask at h
  split at h
  · next d hd =>
      obtain ⟨hresponse, hdata⟩ := Prod.mk.inj h
      cases hdata
      rw [← hresponse]
      exact ⟨rfl, parseTask_accepted hd⟩
  · next hresponse =>
      exact absurd (Prod.mk.inj h).2 (by simp)

theorem code_of_stoiOrFail {s : CString} {response : Response}
    (h : stoiOrFail s = .error response) : response.code ≠ .ok := by
  unfold stoiOrFail at h
  split at h
  · cases h
  · cases h
    simp

theorem except_bind_eq_error {ε α β : Type} {x : Except ε α}
    {f : α → Except ε β} {e : ε} (h : (x >>= f) = .error e) :
    x = .error e ∨ ∃ a, x = .ok a ∧ f a = .error e := by
  cases x with
  | error e' =>
      cases h
      exact Or.inl rfl
  | ok a => exact Or.inr ⟨a, rfl, h⟩

theorem parseTask_refused {pid : ℤ} {query : Query} {response : Response}
    (h : parseTask pid query = .error response) : response.code ≠ .ok := by
  rcases except_bind_eq_error h with hport | ⟨port, -, h⟩
  · exact code_of_stoiOrFail hport
  split at h
  · cases h
    simp
  dsimp only at h
  split at h
  · cases h
    simp
  rcases except_bind_eq_error h with hdestPort | ⟨destPort, -, h⟩
  · exact code_of_stoiOrFail hdestPort
  split at h
  · cases h
    simp
  rcases except_bind_eq_error h with hduration | ⟨duration, -, h⟩
  · exact code_of_stoiOrFail hduration
  split at h
  · cases h
    simp
  · cases h

/-- Nothing is queued exactly when the answer is an error. -/
theorem addTask_refused {pid : ℤ} {query : Query} {response : Response}
    (h : addTask pid query = (response, none)) : response.code ≠ .ok := by
  unfold addTask at h
  split at h
  · cases h
  · next hparse =>
    cases h
    exact parseTask_refused hparse

end SippScen.MediaServer
