import SippScen.Orchestrator.Run
import SippScen.Support.Wp

/-!
# The run loop

The loop of `sippscen.py` that changes the rates of the scenarios with a
pattern while the run lasts.  Its body is taken statement by statement; an
access to an empty list raises.

`title` has two parameters, but the loop passes it three arguments before it
sends a command, so that the call raises.  The number of the parameters is a
parameter of the body, `titleParameters` is the one of the program.
-/

namespace SippScen.Orchestrator

open SippScen.Support Effect

/-! ## Control commands -/

/-- A UDP datagram: its payload and where it is sent to. -/
structure Datagram where
  payload : PyStr
  ip : PyStr
  port : ℕ
deriving DecidableEq, Repr

/-- The commands of `send_control_cmd`, one of which has an option. -/
inductive ControlCmd
  | quit
  | fQuit
  | pause
  | incr1
  | decr1
  | incr10
  | decr10
  | setRate (opt : Number)
deriving DecidableEq, Repr

/-- `bCmd`. -/
def ControlCmd.bCmd : ControlCmd → PyStr
  | quit => "q".toList
  | fQuit => "Q".toList
  | pause => "p".toList
  | incr1 => "+".toList
  | decr1 => "-".toList
  | incr10 => "*".toList
  | decr10 => "/".toList
  | setRate opt => "cset rate ".toList ++ opt.text

/-- `send_control_cmd`. -/
def sendControlCmd (cmd : ControlCmd) (port : ℕ) (ipAddr : PyStr) : Datagram :=
  ⟨cmd.bCmd, ipAddr, port⟩

/-! ## The streams of the patterns -/

/-- An entry of `pattern_streams`: the coming times and rates of a
scenario. -/
structure Stream where
  streams : List ℤ
  cps : List Number
deriving DecidableEq, Repr

/-- `get_epoch_ms`, when the clock shows `now` seconds. -/
def getEpochMs (now : ℚ) : ℤ := ⌊now * 1000⌋

/-- `scn_w_pattern`: the patterns of the prepared scenarios. -/
def scnWPattern (dScenarios : Dict PyStr Scenario) : Dict PyStr Pattern :=
  dScenarios.filterMap fun _ v => v.pattern

/-- The sums of the timepoints up to each of them, from `acc` on. -/
def partialSums (acc : ℕ) : List ℕ → List ℕ
  | [] => []
  | t :: ts => (acc + t) :: partialSums (acc + t) ts

/-- The times and rates of a cycle that starts at `cur`; `t[0]` raises when
there is no timepoint. -/
def newStream (cur : ℤ) (p : Pattern) : Option Stream :=
  if p.timepoints = [] then none
  else some ⟨(partialSums 0 p.timepoints).map fun t => cur + (t : ℕ), p.cps⟩

/-- Whether the recalculation of the timepoints is skipped: the pattern has
passed, or times remain. -/
def keepsStream (p : Pattern) (stream : Option Stream) : Bool :=
  p.passed || stream.any fun s => s.streams ≠ []

/-- The loop over the patterns that starts their next cycles. -/
def refill (cur : ℤ) : List (PyStr × Pattern) → Dict PyStr Stream →
    Option (Dict PyStr Stream)
  | [], streams => some streams
  | (k, p) :: rest, streams =>
      if keepsStream p (streams.get? k) then refill cur rest streams
      else do
        let stream ← newStream cur p
        refill cur rest (streams.set k stream)

/-- The scenario that is to change next: the first one with the least coming
time.  The key of the minimum raises on a stream without times. -/
def nextChange (streams : Dict PyStr Stream) :
    Option (Option (PyStr × Stream)) :=
  if streams.entries.any fun e => e.2.streams = [] then none
  else some (streams.entries.minOn? fun e => e.2.streams.headD 0)

/-- What the loop works on: `scn_w_pattern` and `pattern_streams`. -/
structure Plan where
  patterns : Dict PyStr Pattern
  streams : Dict PyStr Stream

/-- The plan after the first time of `config` is taken; a pattern without
further times passes unless it repeats. -/
def Plan.taken (plan : Plan) (scn : PyStr) (config : Stream) : Option Plan := do
  let pattern ← plan.patterns.get? scn
  if config.streams = [] ∧ pattern.repeat = false then
    some
      { patterns := plan.patterns.set scn { pattern with passed := true }
        streams := plan.streams.pop scn }
  else
    some { plan with streams := plan.streams.set scn config }

/-- The plan before the loop. -/
def initialPlan (dScenarios : Dict PyStr Scenario) : Plan :=
  ⟨scnWPattern dScenarios, Dict.empty⟩

/-! ## The body of the loop -/

/-- An exception that the body raises. -/
inductive LoopError
  | indexError
  | keyError
  | typeError
  | valueError
deriving DecidableEq, Repr

/-- What the body does: it sleeps, and it sends a scenario the command that
changes its rate. -/
inductive LoopAct
  | slept (seconds : ℚ)
  | sent (scn : PyStr) (cps : Number) (datagram : Datagram)
deriving DecidableEq, Repr

/-- The number of the parameters of `title`: `msg` and `timestamped`. -/
def titleParameters : ℕ := 2

/-- `title`, called with `n` arguments when it has `parameters`; what it prints
is left out. -/
def title (parameters n : ℕ) : Effect LoopError Plan LoopAct Unit :=
  if n ≤ parameters then pure () else fail .typeError

/-- `time.sleep`. -/
def sleepFor (seconds : ℚ) : Effect LoopError Plan LoopAct Unit :=
  if seconds < 0 then fail .valueError else emit (.slept seconds)

/-- `wait_time_s`, up to the next timepoint. -/
def waitTimeS (nextTimepoint cur : ℤ) : ℚ :=
  let waitTimeS := ((nextTimepoint - cur : ℤ) : ℚ) / 1000
  if waitTimeS < 0 then 0 else waitTimeS

/-- What follows the choice of the scenario that is to change next. -/
def changeRate (parameters : ℕ) (dScenarios : Dict PyStr Scenario) (cur : ℤ)
    (scn : PyStr) (config : Stream) : Effect LoopError Plan LoopAct Unit := do
  let nextTimepoint ← require .indexError config.streams.head?
  let cps ← require .indexError config.cps.head?
  let config : Stream := ⟨config.streams.tail, config.cps.tail⟩
  change fun plan => { plan with streams := plan.streams.set scn config }
  sleepFor (waitTimeS nextTimepoint cur)
  -- `u.title(f"{scn} cps changed to {cps}", True, True)`
  title parameters 3
  let v ← require .keyError (dScenarios.get? scn)
  emit (.sent scn cps (sendControlCmd (.setRate cps) v.cPort v.ip))
  let plan ← read id
  let plan ← require .keyError (plan.taken scn config)
  change fun _ => plan

/-- The body of the loop, when the clock shows `cur` at its start and `title`
has `parameters`. -/
def loopBody (parameters : ℕ) (dScenarios : Dict PyStr Scenario)
    (endTimeMs cur : ℤ) : Effect LoopError Plan LoopAct Unit := do
  let plan ← read id
  let streams ← require .indexError
    (refill cur plan.patterns.entries plan.streams)
  change fun plan => { plan with streams := streams }
  let next ← require .indexError (nextChange streams)
  -- the empty name counts as false
  match next.filter fun e => e.1 ≠ [] with
  | none => sleepFor (((endTimeMs - cur : ℤ) : ℚ) / 1000)
  | some (scn, config) => changeRate parameters dScenarios cur scn config

/-! ## The loop -/

/-- The loop from its `i`th test on, for at most `fuel` tests; the clock shows
`clock i` at the `i`th test.  The value tells whether the loop was left. -/
def rateLoop (parameters : ℕ) (dScenarios : Dict PyStr Scenario)
    (endTimeMs : ℤ) (clock : ℕ → ℤ) :
    ℕ → ℕ → Effect LoopError Plan LoopAct Bool
  | 0, _ => pure false
  | fuel + 1, i =>
      if clock i < endTimeMs then do
        loopBody parameters dScenarios endTimeMs (clock i)
        rateLoop parameters dScenarios endTimeMs clock fuel (i + 1)
      else pure true

/-- A command `cset rate` that was sent. -/
structure RateChange where
  time : ℤ
  scn : PyStr
  cps : Number
  datagram : Datagram
deriving DecidableEq, Repr

/-- The loop with an ideal clock: the seconds it shows, the plan, and the
commands sent so far. -/
structure LoopState where
  now : ℚ
  plan : Plan
  sent : List RateChange

/-- A sleep moves the clock on, and a command takes no time. -/
def LoopState.after (st : LoopState) : LoopAct → LoopState
  | .slept seconds => { st with now := st.now + seconds }
  | .sent scn cps datagram =>
      { st with
        sent := st.sent ++ [⟨getEpochMs st.now, scn, cps, datagram⟩] }

/-- One turn with an ideal clock: how the body ends, and the state that its
acts lead to. -/
def idealTurn (parameters : ℕ) (dScenarios : Dict PyStr Scenario)
    (endTimeMs : ℤ) (st : LoopState) : Except LoopError Unit × LoopState :=
  let turn := loopBody parameters dScenarios endTimeMs (getEpochMs st.now)
    st.plan
  (turn.result, turn.log.foldl LoopState.after { st with plan := turn.state })

/-- How the loop ends: it is left, or a turn raises, or it has made all its
tests. -/
inductive LoopEnd
  | finished (st : LoopState)
  | raised (error : LoopError) (st : LoopState)
  | outOfFuel (st : LoopState)

/-- The state in which the loop ends. -/
def LoopEnd.state : LoopEnd → LoopState
  | .finished st => st
  | .raised _ st => st
  | .outOfFuel st => st

/-- The loop with an ideal clock, for at most `fuel` tests of its condition. -/
def mainLoop (parameters : ℕ) (dScenarios : Dict PyStr Scenario)
    (endTimeMs : ℤ) : ℕ → LoopState → LoopEnd
  | 0, st => .outOfFuel st
  | fuel + 1, st =>
      if getEpochMs st.now < endTimeMs then
        match idealTurn parameters dScenarios endTimeMs st with
        | (.error error, st') => .raised error st'
        | (.ok (), st') =>
            mainLoop parameters dScenarios endTimeMs fuel st'
      else .finished st

/-- The loop starts with no streams and nothing sent. -/
def initialLoop (dScenarios : Dict PyStr Scenario) (now : ℚ) : LoopState where
  now := now
  plan := initialPlan dScenarios
  sent := []

/-! ## The loop of the program -/

/-- The run loop of the program; nothing is done unless a scenario runs. -/
def programLoop (parameters : ℕ) (env : Processes) (acc : Accumulators)
    (endTimeMs : ℤ) (clock : ℕ → ℤ) (fuel : ℕ) :
    Outcome LoopError Plan LoopAct Bool :=
  if bRunning env acc then
    rateLoop parameters acc.dScenarios endTimeMs clock fuel 0
      (initialPlan acc.dScenarios)
  else ⟨.ok true, initialPlan acc.dScenarios, []⟩

/-- The same with an ideal clock, which shows `now` when the loop starts. -/
def idealLoop (parameters : ℕ) (env : Processes) (acc : Accumulators)
    (now : ℚ) (endTimeMs : ℤ) (fuel : ℕ) : LoopEnd :=
  if bRunning env acc then
    mainLoop parameters acc.dScenarios endTimeMs fuel
      (initialLoop acc.dScenarios now)
  else .finished (initialLoop acc.dScenarios now)

variable {parameters : ℕ} {dScenarios : Dict PyStr Scenario}
variable {endTimeMs cur : ℤ} {plan plan' : Plan} {scn : PyStr}
variable {config : Stream} {streams : Dict PyStr Stream}

/-! ## What the body does -/

theorem waitTimeS_nonneg (nextTimepoint cur : ℤ) :
    0 ≤ waitTimeS nextTimepoint cur := by
  rw [waitTimeS]
  split
  · exact le_rfl
  · next h => exact not_lt.mp h

theorem waitTimeS_of_le {nextTimepoint : ℤ} (h : cur ≤ nextTimepoint) :
    waitTimeS nextTimepoint cur = ((nextTimepoint - cur : ℤ) : ℚ) / 1000 := by
  have hnonneg : (0 : ℚ) ≤ ((nextTimepoint - cur : ℤ) : ℚ) :=
    Int.cast_nonneg (sub_nonneg.mpr h)
  exact if_neg (not_lt.mpr (div_nonneg hnonneg (by norm_num)))

theorem sleepFor_yields {seconds : ℚ} (h : 0 ≤ seconds) (plan : Plan) :
    (sleepFor seconds).Yields plan () plan [.slept seconds] := by
  rw [sleepFor, if_neg (not_lt.mpr h)]
  exact yields_emit.mpr ⟨rfl, rfl⟩

theorem taken_set (plan : Plan) (scn : PyStr) (config : Stream) :
    Plan.taken { plan with streams := plan.streams.set scn config } scn
      config = plan.taken scn config := by
  cases hp : plan.patterns.get? scn with
  | none => simp [Plan.taken, hp]
  | some p =>
      simp only [Plan.taken, hp, Option.bind_eq_bind, Option.bind_some,
        Dict.pop_set_self, Dict.set_set_self]

/-- With a third parameter of `title` the command is sent. -/
theorem changeRate_of_arity (hparameters : 3 ≤ parameters) (cur : ℤ)
    {t : ℤ} {cps : Number} {v : Scenario}
    (ht : config.streams.head? = some t)
    (hcps : config.cps.head? = some cps) (hv : dScenarios.get? scn = some v)
    (htaken : plan.taken scn ⟨config.streams.tail, config.cps.tail⟩ =
      some plan') :
    (changeRate parameters dScenarios cur scn config).Yields plan () plan'
      [.slept (waitTimeS t cur),
        .sent scn cps (sendControlCmd (.setRate cps) v.cPort v.ip)] := by
  have htaken' := (taken_set plan scn
    ⟨config.streams.tail, config.cps.tail⟩).trans htaken
  rw [Yields, changeRate, ht, require_some_bind, hcps, require_some_bind,
    change_bind, bind_of_yields (sleepFor_yields (waitTimeS_nonneg t cur) _),
    title, if_pos hparameters, return_bind, hv, require_some_bind,
    bind_of_yields (a := ()) (yields_emit.mpr ⟨rfl, rfl⟩), read_bind, id,
    htaken']
  rfl

/-- Without it the body raises when it has slept. -/
theorem changeRate_of_few (hparameters : parameters < 3) {t : ℤ}
    {cps : Number} (ht : config.streams.head? = some t)
    (hcps : config.cps.head? = some cps) (plan : Plan) :
    changeRate parameters dScenarios cur scn config plan =
      ⟨.error .typeError,
        { plan with
          streams := plan.streams.set scn
            ⟨config.streams.tail, config.cps.tail⟩ },
        [.slept (waitTimeS t cur)]⟩ := by
  rw [changeRate, ht, require_some_bind, hcps, require_some_bind, change_bind,
    bind_of_yields (sleepFor_yields (waitTimeS_nonneg t cur) _), title,
    if_neg (not_le.mpr hparameters), fail_bind]
  rfl

/-- On a pattern without timepoints the body raises. -/
theorem loopBody_of_empty
    (hrefill : refill cur plan.patterns.entries plan.streams = none) :
    loopBody parameters dScenarios endTimeMs cur plan =
      ⟨.error .indexError, plan, []⟩ := by
  rw [loopBody, read_bind, id, hrefill, require_none_bind]

/-- The body changes the rate of the scenario that is to change next. -/
theorem loopBody_of_next
    (hrefill : refill cur plan.patterns.entries plan.streams = some streams)
    (hnext : nextChange streams = some (some (scn, config)))
    (hname : scn ≠ []) :
    loopBody parameters dScenarios endTimeMs cur plan =
      changeRate parameters dScenarios cur scn config
        { plan with streams := streams } := by
  have hfilter : (some (scn, config)).filter (fun e => e.1 ≠ []) =
      some (scn, config) := by
    simpa using hname
  rw [loopBody, read_bind, id, hrefill, require_some_bind, change_bind, hnext,
    require_some_bind, hfilter]

/-- If there is none, or it has no name, the body sleeps until the end. -/
theorem loopBody_of_idle {next : Option (PyStr × Stream)}
    (hrefill : refill cur plan.patterns.entries plan.streams = some streams)
    (hnext : nextChange streams = some next)
    (hnone : ∀ e, next = some e → e.1 = []) (hcur : cur < endTimeMs) :
    (loopBody parameters dScenarios endTimeMs cur).Yields plan ()
      { plan with streams := streams }
      [.slept (((endTimeMs - cur : ℤ) : ℚ) / 1000)] := by
  have hfilter : next.filter (fun e => e.1 ≠ []) = none := by
    simpa using hnone
  have hwait : 0 ≤ ((endTimeMs - cur : ℤ) : ℚ) / 1000 :=
    div_nonneg (Int.cast_nonneg (sub_pos.mpr hcur).le) (by norm_num)
  rw [Yields, loopBody, read_bind, id, hrefill, require_some_bind, change_bind,
    hnext, require_some_bind, hfilter]
  exact sleepFor_yields hwait _

/-! ## The turns of the loop -/

variable {st st' : LoopState} {clock : ℕ → ℤ} {fuel : ℕ}

theorem idealTurn_of_yields {plan : Plan} {acts : List LoopAct}
    (h : (loopBody parameters dScenarios endTimeMs (getEpochMs st.now)).Yields
      st.plan () plan acts) :
    idealTurn parameters dScenarios endTimeMs st =
      (.ok (), acts.foldl LoopState.after { st with plan := plan }) := by
  rw [idealTurn, h]

theorem mainLoop_of_late (h : ¬ getEpochMs st.now < endTimeMs) (fuel : ℕ) :
    mainLoop parameters dScenarios endTimeMs (fuel + 1) st = .finished st := by
  rw [mainLoop, if_neg h]

theorem state_of_late (h : ¬ getEpochMs st.now < endTimeMs) (fuel : ℕ) :
    (mainLoop parameters dScenarios endTimeMs fuel st).state = st := by
  cases fuel with
  | zero => rfl
  | succ fuel => rw [mainLoop_of_late h, LoopEnd.state]

theorem mainLoop_of_turn (hcur : getEpochMs st.now < endTimeMs)
    (hturn : idealTurn parameters dScenarios endTimeMs st = (.ok (), st'))
    (fuel : ℕ) :
    mainLoop parameters dScenarios endTimeMs (fuel + 1) st =
      mainLoop parameters dScenarios endTimeMs fuel st' := by
  rw [mainLoop, if_pos hcur, hturn]

theorem mainLoop_of_raised {error : LoopError}
    (hcur : getEpochMs st.now < endTimeMs)
    (hturn : idealTurn parameters dScenarios endTimeMs st = (.error error, st'))
    (fuel : ℕ) :
    mainLoop parameters dScenarios endTimeMs (fuel + 1) st =
      .raised error st' := by
  rw [mainLoop, if_pos hcur, hturn]

/-! ## The clock that the loop keeps -/

/-- What the clock shows at the tests of the loop with an ideal clock. -/
def idealClock (parameters : ℕ) (dScenarios : Dict PyStr Scenario)
    (endTimeMs : ℤ) (st : LoopState) (i : ℕ) : ℤ :=
  getEpochMs (mainLoop parameters dScenarios endTimeMs i st).state.now

/-- What `rateLoop` returns when the loop ends so. -/
def LoopEnd.result : LoopEnd → Except LoopError Bool
  | .finished _ => .ok true
  | .raised error _ => .error error
  | .outOfFuel _ => .ok false

/-- The acts do not depend on the plan, nor change it. -/
theorem foldl_after_plan (acts : List LoopAct) (st : LoopState) (plan : Plan) :
    acts.foldl LoopState.after { st with plan := plan } =
      { acts.foldl LoopState.after st with plan := plan } := by
  induction acts generalizing st with
  | nil => rfl
  | cons act acts ih =>
      have hact : LoopState.after { st with plan := plan } act =
          { st.after act with plan := plan } := by
        cases act <;> rfl
      rw [List.foldl_cons, List.foldl_cons, hact, ih]

/-- The end `e` of the loop from `st` on is that of the run `outcome`. -/
structure LoopEnd.Agrees (e : LoopEnd) (st : LoopState)
    (outcome : Outcome LoopError Plan LoopAct Bool) : Prop where
  result : e.result = outcome.result
  state : e.state =
    outcome.log.foldl LoopState.after { st with plan := outcome.state }

theorem agrees_of_clock {i : ℕ}
    (hclock : ∀ j, clock (i + j) =
      idealClock parameters dScenarios endTimeMs st j) (fuel : ℕ) :
    (mainLoop parameters dScenarios endTimeMs fuel st).Agrees st
      (rateLoop parameters dScenarios endTimeMs clock fuel i st.plan) := by
  induction fuel generalizing st i with
  | zero => exact ⟨rfl, rfl⟩
  | succ fuel ih =>
      have hnow : clock i = getEpochMs st.now := hclock 0
      by_cases hcur : getEpochMs st.now < endTimeMs
      · rw [rateLoop, hnow, if_pos hcur]
        cases hresult : (loopBody parameters dScenarios endTimeMs
            (getEpochMs st.now) st.plan).result with
        | error error =>
            rw [mainLoop_of_raised hcur (Prod.ext hresult rfl),
              andThen_of_error hresult]
            exact ⟨rfl, rfl⟩
        | ok u =>
            have hturn : idealTurn parameters dScenarios endTimeMs st =
                (.ok (), (idealTurn parameters dScenarios endTimeMs st).2) :=
              Prod.ext hresult rfl
            have hnext : ∀ j, clock (i + 1 + j) = idealClock parameters
                dScenarios endTimeMs
                (idealTurn parameters dScenarios endTimeMs st).2 j := by
              intro j
              rw [Nat.add_assoc, Nat.add_comm 1, hclock, idealClock,
                mainLoop_of_turn hcur hturn, idealClock]
            obtain ⟨hend, hstate⟩ := ih hnext
            rw [mainLoop_of_turn hcur hturn,
              andThen_of_returns ⟨hresult, rfl⟩]
            simp only [idealTurn, foldl_after_plan] at hend hstate ⊢
            refine ⟨hend, hstate.trans ?_⟩
            simp only [List.foldl_append, foldl_after_plan]
      · rw [mainLoop_of_late hcur, rateLoop, hnow, if_neg hcur]
        exact ⟨rfl, rfl⟩

/-- With an ideal clock the loop is `rateLoop` under the clock that it keeps. -/
theorem mainLoop_agrees (parameters : ℕ) (dScenarios : Dict PyStr Scenario)
    (endTimeMs : ℤ) (st : LoopState) (fuel : ℕ) :
    (mainLoop parameters dScenarios endTimeMs fuel st).Agrees st
      (rateLoop parameters dScenarios endTimeMs
        (idealClock parameters dScenarios endTimeMs st) fuel 0 st.plan) :=
  agrees_of_clock (fun j => by rw [Nat.zero_add]) fuel

theorem idealLoop_agrees (parameters : ℕ) (env : Processes)
    (acc : Accumulators) (now : ℚ) (endTimeMs : ℤ) (fuel : ℕ) :
    (idealLoop parameters env acc now endTimeMs fuel).Agrees
      (initialLoop acc.dScenarios now)
      (programLoop parameters env acc endTimeMs
        (idealClock parameters acc.dScenarios endTimeMs
          (initialLoop acc.dScenarios now)) fuel) := by
  rw [idealLoop, programLoop]
  split
  · exact mainLoop_agrees _ _ _ _ fuel
  · exact ⟨rfl, rfl⟩

end SippScen.Orchestrator
