import SippScen.MediaHost.Provenance
import SippScen.Orchestrator.Ports

/-!
# The calls of the scenarios on a media server

The templates let every call ask its media server for an endpoint on the port of
its line: `/stream?port=[field0]`.  When the ports have been validated, no two
lines share an endpoint.  Each endpoint works for one line of one scenario, and
is told nothing but what calls with this line ask for.
-/

namespace SippScen.Deployment

open SippScen.Support SippScen.SharedList SippScen.MediaServer
open SippScen.MediaHost SippScen.Orchestrator
open SippScen.MediaEndpoint (FollowsGnu GetoptLong)

/-! ## Lines -/

section Lines

variable (w : World) (servers : Dict PyStr PyStr) (config : List Entry)
variable (ms : PyStr)

/-- The scenario at position `i` describes its calls as `c`, on the media server
`ms`. -/
def CallsAt (i : ℕ) (c : CallDescription) : Prop :=
  ∃ name scn, config[i]? = some (name, some scn) ∧
    describedCall w servers name scn = some c ∧ c.ms = some ms ∧
    ms ∈ servers.keys

/-- Line `k` of its file of ports starts with `port`. -/
def CallLine (i k : ℕ) (port : ℤ) : Prop :=
  ∃ c, CallsAt w servers config ms i c ∧ (k : ℤ) < c.nPorts ∧
    port = c.portsOffset + 2 * k

end Lines

/-- The ports of an endpoint, for RTP and for RTCP. -/
def rtpPorts (port : ℤ) : List ℤ := [port, port + 1]

/-- A query for an endpoint on the port. -/
def AsksFor (query : Query) (port : ℤ) : Prop :=
  query "port".toList = some (toDecimal port)

variable {w : World} {run : RunConfig} {servers : Dict PyStr PyStr}
variable {config : List Entry} {ms : PyStr} {i j k l : ℕ} {port port' : ℤ}

theorem CallsAt.eq {c c' : CallDescription} (h : CallsAt w servers config ms i c)
    (h' : CallsAt w servers config ms i c') : c = c' := by
  obtain ⟨name, scn, he, hc, -⟩ := h
  obtain ⟨name', scn', he', hc', -⟩ := h'
  rw [he] at he'
  cases he'
  rw [hc] at hc'
  exact Option.some.inj hc'

theorem CallsAt.apart {c c' : CallDescription}
    (hvalid : validates (prepareScenarios w run servers config) = true)
    (h : CallsAt w servers config ms i c)
    (h' : CallsAt w servers config ms j c') (hij : i < j) :
    c.portsFile.Apart c'.portsFile := by
  obtain ⟨name, scn, he, hc, hms, hkey⟩ := h
  obtain ⟨name', scn', he', hc', hms', -⟩ := h'
  have hrange : ∀ {name scn c}, describedCall w servers name scn = some c →
      c.ms = some ms →
      rangeUnder w servers ms (name, some scn) = some (c.range name) := by
    intro name scn c hc hms
    have hrecorded : recordedRange w servers (name, some scn) =
        some (ms, c.range name) :=
      recordedRange_eq_some_iff.mpr ⟨scn, c, rfl, hc, hms, hkey, rfl⟩
    simp [rangeUnder, hrecorded]
  have hoverlap : checkOverlap
      (prepareScenarios w run servers config).acc.portRanges = false := by
    simp only [validates, Bool.not_eq_true', Bool.or_eq_false_iff] at hvalid
    exact hvalid.1
  have hranges : (prepareScenarios w run servers config).acc.portRanges.get?
      ms = some (config.filterMap (rangeUnder w servers ms)) :=
    portRanges_prepareScenarios config hkey
  have hpairwise := pairwise_apart hoverlap hranges
  rw [List.pairwise_filterMap, List.pairwise_iff_getElem] at hpairwise
  obtain ⟨hi, hentry⟩ := List.getElem?_eq_some_iff.mp he
  obtain ⟨hj, hentry'⟩ := List.getElem?_eq_some_iff.mp he'
  have hapart := hpairwise i j hi hj hij _ (hentry ▸ hrange hc hms) _
    (hentry' ▸ hrange hc' hms')
  simp only [PortRange.Apart, CallDescription.range] at hapart
  simp only [PortsFile.Apart, CallDescription.portsFile]
  omega

/-- After the validation, two lines that have a port in common are the same. -/
theorem CallLine.unique
    (hvalid : validates (prepareScenarios w run servers config) = true)
    (h : CallLine w servers config ms i k port)
    (h' : CallLine w servers config ms j l port')
    (hmeet : ¬ (rtpPorts port).Disjoint (rtpPorts port')) :
    i = j ∧ k = l := by
  obtain ⟨c, hc, hk, rfl⟩ := h
  obtain ⟨c', hc', hl, rfl⟩ := h'
  by_cases hij : i = j
  · subst hij
    refine ⟨rfl, ?_⟩
    rw [hc'.eq hc] at hmeet
    by_contra hkl
    apply hmeet
    intro p hp hp'
    simp only [rtpPorts, List.mem_cons, List.not_mem_nil, or_false] at hp hp'
    omega
  · exfalso
    apply hmeet
    have hapart : c.portsFile.Apart c'.portsFile := by
      rcases Nat.lt_or_gt_of_ne hij with hlt | hlt
      · exact hc.apart hvalid hc' hlt
      · exact (hc'.apart hvalid hc hlt).symm
    exact PortsFile.exclusive_iff.mpr hapart k l hk hl

theorem not_disjoint_rtpPorts (port : ℤ) :
    ¬ (rtpPorts port).Disjoint (rtpPorts port) := by
  intro h
  exact h (a := port) (by simp [rtpPorts]) (by simp [rtpPorts])

theorem AsksFor.port_eq {pid : ℤ} {query : Query} {response : Response}
    {data : Data} (hasks : AsksFor query port)
    (h : addTask pid query = (response, some data)) : data.port = port := by
  unfold addTask at h
  split at h
  case h_2 => cases (Prod.mk.inj h).2
  next d hd =>
  obtain ⟨-, hdata⟩ := Prod.mk.inj h
  cases hdata
  have hport := port_of_parseTask hd
  have hvalue : query.valueOr "port".toList "0".toList = toDecimal port := by
    rw [Query.valueOr, hasks, Option.getD_some]
  rw [hvalue, stoiOrFail, stoi_toDecimal] at hport
  by_cases hint : IsInt32 port
  · rw [if_pos hint] at hport
    exact (Except.ok.inj hport).symm
  · rw [if_neg hint] at hport
    cases hport

/-! ## Endpoints -/

section Endpoints

variable {N : ℕ} {getopt : GetoptLong} {settings : ServerConfig}
variable {es : List (ServiceAction × ServiceObservation)} {s : Service N}

/-- All queries are those of calls. -/
def FromCalls (line : ℕ → ℕ → ℤ → Prop)
    (es : List (ServiceAction × ServiceObservation)) : Prop :=
  ∀ pid query o, (.stream pid query, o) ∈ es →
    ∃ i k port, line i k port ∧ AsksFor query port

/-- Every endpoint belongs to one line.  Once its options are parsed, its
settings are those that a call with this line asked for, and no other active
endpoint uses its ports. -/
structure KeptApart (line : ℕ → ℕ → ℤ → Prop)
    (es : List (ServiceAction × ServiceObservation)) (s : Service N) : Prop where
  line : ∀ pid p, s.host.programs pid = some p →
    ∃! ik : ℕ × ℕ, line ik.1 ik.2 p.launch.port
  told : ∀ pid p, s.host.programs pid = some p →
    p.endpoint.phase.configured = true →
    p.endpoint.conf.port = p.launch.port ∧
      ∃ caller query response data,
        (.stream caller query, .answered response (some data)) ∈ es ∧
          AsksFor query p.launch.port ∧
          remoteArgs p.endpoint.conf = remoteArgs data
  apart : ∀ pid pid' p p', s.host.programs pid = some p →
    s.host.programs pid' = some p' → pid ≠ pid' →
    p.endpoint.phase.active = true → p'.endpoint.phase.active = true →
    (rtpPorts p.launch.port).Disjoint (rtpPorts p'.launch.port)

theorem launch_endpoint (p : Program N) : p.endpoint.launch = p.launch := by
  cases p <;> rfl

/-- In every run of a media server whose requests come from the calls of a
validated configuration, the calls are kept apart. -/
theorem calls_kept_apart (hg : FollowsGnu getopt) (h2 : 2 ≤ N)
    (hN : N ≤ 32767) (mem : SharedLst N)
    (hvalid : validates (prepareScenarios w run servers config) = true)
    (hrun : Run (Restrict (ServiceStep getopt settings)
      (OnService Environment)) (.initial mem) es s)
    (hcalls : FromCalls (CallLine w servers config ms) es) :
    KeptApart (CallLine w servers config ms) es s := by
  obtain ⟨hconsistent, hsourced⟩ := sourced_of_serviceRun hg h2 hN mem hrun
  have hplain := Service.run_of_restricted hrun
  have hprocs : ∀ pid p, s.host.programs pid = some p →
      s.host.system.procs pid = some p.endpoint := by
    intro pid p hp
    simp [Host.system, hp]
  -- what was asked for on a port was asked for by a call of this port
  have hasked : ∀ {port remote},
      Asked (es.filterMap acceptedRequest) port remote →
      (∃ i k, CallLine w servers config ms i k port) ∧
        ∃ caller query response data,
          (.stream caller query, .answered response (some data)) ∈ es ∧
            AsksFor query port ∧ remote = remoteArgs data := by
    rintro port remote ⟨data, hdata, hport, hremote⟩
    obtain ⟨caller, query, response, hmem, htask⟩ :=
      stream_of_accepted hplain hdata
    obtain ⟨i, k, port', hline, hasks⟩ := hcalls caller query _ hmem
    obtain rfl : port' = port := (hasks.port_eq htask).symm.trans hport
    exact ⟨⟨i, k, hline⟩, caller, query, response, data, hmem, hasks,
      hremote.symm⟩
  have hline : ∀ pid p, s.host.programs pid = some p →
      ∃ i k, CallLine w servers config ms i k p.launch.port := by
    intro pid p hp
    have hlaunch := (hsourced.procs pid _ (hprocs pid p hp)).launch
    rw [launch_endpoint] at hlaunch
    exact (hasked hlaunch).1
  refine ⟨?_, ?_, ?_⟩
  · intro pid p hp
    obtain ⟨i, k, h⟩ := hline pid p hp
    refine ⟨(i, k), h, ?_⟩
    rintro ⟨j, l⟩ h'
    obtain ⟨rfl, rfl⟩ := h'.unique hvalid h (not_disjoint_rtpPorts _)
    rfl
  · intro pid p hp hconf
    have he := hprocs pid p hp
    have hport := hconsistent.exclusive.localPort pid _ he hconf
    have htold := (hsourced.procs pid _ he).conf hconf
    rw [launch_endpoint] at hport htold
    exact ⟨hport, (hasked htold).2⟩
  · intro pid pid' p p' hp hp' hne hactive hactive'
    by_contra hmeet
    obtain ⟨i, k, h⟩ := hline pid p hp
    obtain ⟨j, l, h'⟩ := hline pid' p' hp'
    obtain ⟨rfl, rfl⟩ := h.unique hvalid h' hmeet
    have hsame : p.launch.port = p'.launch.port := by
      obtain ⟨c, hc, -, hport⟩ := h
      obtain ⟨c', hc', -, hport'⟩ := h'
      rw [hport, hport', hc.eq hc']
    apply hne
    apply hconsistent.exclusive.distinct pid pid' _ _ (hprocs pid p hp)
      (hprocs pid' p' hp') hactive hactive'
    rw [launch_endpoint, launch_endpoint, hsame]

/-- The request of a caller, as the templates write it. -/
def callerQuery (port daddress dport duration : CString) : Query :=
  MediaEndpoint.queryOf [("port".toList, port), ("daddress".toList, daddress),
    ("dport".toList, dport), ("duration".toList, duration),
    ("client".toList, [])]

/-- The request of a call on the given port. -/
def requestOn (port : CString) : ServiceAction :=
  .stream 0 (callerQuery port "10.0.0.2".toList "30000".toList "10000".toList)

/-- A call of each of two scenarios; the first endpoint gets through its
options. -/
def twoCalls : List ServiceAction :=
  [.server .main, .server .main, requestOn "20000".toList,
    requestOn "20020".toList, .server .notify] ++
    List.replicate 5 (.server .worker) ++ [.serve (some 7)] ++
    List.replicate 5 (.server .worker) ++ [.serve (some 8)] ++
    List.replicate 2 (.host (.startUp 7))

theorem calls_kept_apart_two : ∃ es s,
    Run (Restrict (ServiceStep MediaEndpoint.exactGetoptLong
        MediaEndpoint.defaultConfig) (OnService Environment))
        (.initial (zeroSegment 2)) es s ∧
      (s.host.programs 7).map (fun p => p.launch.port) = some 20000 ∧
      (s.host.programs 8).map (fun p => p.launch.port) = some 20020 ∧
      (s.host.programs 7).map (fun p => p.endpoint.phase.configured) =
        some true ∧
      KeptApart (CallLine plainWorld oneServer splitPorts "ms1".toList) es s := by
  obtain ⟨s, es, hrun, hactions, htest⟩ := exists_restricted_run_of_exec
    (Service.next MediaEndpoint.exactGetoptLong MediaEndpoint.defaultConfig)
    (OnService Environment) (.initial (zeroSegment 2)) twoCalls
    (fun r => decide
      ((r.1.host.programs 7).map (fun p => p.launch.port) = some 20000 ∧
        (r.1.host.programs 8).map (fun p => p.launch.port) = some 20020 ∧
        (r.1.host.programs 7).map (fun p => p.endpoint.phase.configured) =
          some true))
    (by decide +kernel)
  obtain ⟨hfirst, hsecond, hconfigured⟩ := of_decide_eq_true htest
  refine ⟨es, s, hrun, hfirst, hsecond, hconfigured, ?_⟩
  have hlineA : CallLine plainWorld oneServer splitPorts "ms1".toList 0 0
      20000 :=
    ⟨⟨some "ms1".toList, 10, 10, 20000⟩, ⟨"A".toList, plainClient, rfl,
      by decide +kernel, rfl, by decide +kernel⟩, by decide, by decide⟩
  have hlineB : CallLine plainWorld oneServer splitPorts "ms1".toList 1 0
      20020 :=
    ⟨⟨some "ms1".toList, 10, 10, 20020⟩, ⟨"B".toList,
      otherClient "ms1".toList 20020, rfl, by decide +kernel, rfl,
      by decide +kernel⟩, by decide, by decide⟩
  have hvalid : validates (prepareScenarios plainWorld minuteRun oneServer
      splitPorts) = true := by
    decide +kernel
  apply calls_kept_apart MediaEndpoint.exactGetoptLong_followsGnu (by decide)
    (by decide) (zeroSegment 2) hvalid hrun
  intro pid query o hmem
  have haction : ServiceAction.stream pid query ∈ twoCalls := by
    rw [← hactions]
    exact List.mem_map_of_mem hmem
  simp only [twoCalls, requestOn, List.mem_append, List.mem_cons,
    List.mem_replicate, List.not_mem_nil, or_false, reduceCtorEq, and_false,
    false_or, ServiceAction.stream.injEq] at haction
  rcases haction with ⟨-, rfl⟩ | ⟨-, rfl⟩
  · exact ⟨0, 0, 20000, hlineA, by unfold AsksFor; decide⟩
  · exact ⟨1, 0, 20020, hlineB, by unfold AsksFor; decide⟩

end Endpoints

end SippScen.Deployment
