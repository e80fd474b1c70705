import SippScen.MediaEndpoint.Options
import SippScen.MediaServer.Launch
import SippScen.MediaServer.Request
import SippScen.SharedList.Refinement

/-!
# What the endpoint makes of a request

The media server passes a record to a new endpoint as an argument vector.  This
module follows the port, the address, the duration and the mode from the
accepted query to the endpoint's configuration.
-/

namespace SippScen.MediaEndpoint

open SippScen.Support SippScen.SharedList SippScen.MediaServer

/-- The results of `pj_getopt_long` on the argument vector of a launch. -/
def launchEvents (config : ServerConfig) (data : Data) : List OptionEvent :=
  [ ⟨'p', toDecimal data.port⟩,
    ⟨'i', ofArray data.destAddress⟩,
    ⟨'r', toDecimal data.destPort⟩,
    ⟨'d', toDecimal data.duration⟩,
    ⟨'w', config.wavefile⟩,
    ⟨'c', config.codec⟩,
    ⟨'m', config.sharedMemName⟩ ] ++
  if data.client ≠ 0 then [] else [⟨'s', []⟩]

theorem getopt_launchArgv {getopt : GetoptLong} (hg : FollowsGnu getopt)
    (config : ServerConfig) (data : Data) :
    getopt (launchArgv config data).tail = launchEvents config data := by
  have hp := hg.withArg ⟨"local-port".toList, true, 'p'⟩ (by decide) rfl
  have hi := hg.withArg ⟨"remote-addr".toList, true, 'i'⟩ (by decide) rfl
  have hr := hg.withArg ⟨"remote-port".toList, true, 'r'⟩ (by decide) rfl
  have hd := hg.withArg ⟨"duration".toList, true, 'd'⟩ (by decide) rfl
  have hw := hg.withArg ⟨"wavefile".toList, true, 'w'⟩ (by decide) rfl
  have hc := hg.withArg ⟨"codec".toList, true, 'c'⟩ (by decide) rfl
  have hm := hg.withArg ⟨"shared-mem".toList, true, 'm'⟩ (by decide) rfl
  have hs := hg.withoutArg ⟨"server".toList, false, 's'⟩ (by decide) rfl []
  have hlast : getopt [if data.client ≠ 0 then [] else "--server".toList] =
      if data.client ≠ 0 then [] else [⟨'s', []⟩] := by
    split
    · rw [hg.nonOption [] (by decide), hg.done]
    · rw [← hg.done]
      exact hs
  calc
    getopt (launchArgv config data).tail
    _ = ⟨'p', toDecimal data.port⟩ :: ⟨'i', ofArray data.destAddress⟩ ::
        ⟨'r', toDecimal data.destPort⟩ :: ⟨'d', toDecimal data.duration⟩ ::
        ⟨'w', config.wavefile⟩ :: ⟨'c', config.codec⟩ ::
        ⟨'m', config.sharedMemName⟩ ::
        getopt [if data.client ≠ 0 then [] else "--server".toList] := by
      rw [← hm, ← hc, ← hw, ← hd, ← hr, ← hi, ← hp]
      rfl
    _ = launchEvents config data := by
      rw [hlast]
      rfl

/-- Where an endpoint launched for the record stands after its options. -/
def launchedOptions (getopt : GetoptLong) (config : ServerConfig)
    (data : Data) : Options × Option OptionExit :=
  parseOptions getopt (launchArgv config data)

/-- `conf.port` of an endpoint launched for the record. -/
def endpointPort (getopt : GetoptLong) (config : ServerConfig)
    (data : Data) : ℤ :=
  (launchedOptions getopt config data).1.conf.port

variable {getopt : GetoptLong} {config : ServerConfig} {data : Data}

/-! ## The port -/

theorem applyOption_port {o : Options} {e : OptionEvent} (h : e.val ≠ 'p') :
    (applyOption o e).1.conf.port = o.conf.port := by
  unfold applyOption
  split
  · next hp => exact absurd hp h
  all_goals rfl

theorem optionLoop_port {es : List OptionEvent} (h : ∀ e ∈ es, e.val ≠ 'p')
    (o : Options) : (optionLoop o es).1.conf.port = o.conf.port := by
  induction es generalizing o with
  | nil => rfl
  | cons e es ih =>
      have he : e.val ≠ 'p' := h e (by simp)
      have hes : ∀ e ∈ es, e.val ≠ 'p' := fun e' he' => h e' (by simp [he'])
      cases hexit : (applyOption o e).2 with
      | none =>
          rw [optionLoop_cons_of_accepted hexit, ih hes]
          exact applyOption_port he
      | some exit =>
          rw [optionLoop_cons_of_rejected hexit]
          exact applyOption_port he

theorem endpointPort_eq (hg : FollowsGnu getopt) (hport : IsInt32 data.port) :
    endpointPort getopt config data = toUInt16 data.port := by
  rw [endpointPort, launchedOptions, parseOptions, getopt_launchArgv hg]
  let first : OptionEvent := ⟨'p', toDecimal data.port⟩
  have hfirst : (applyOption initialOptions first).1.conf.port =
      toUInt16 data.port := by
    simp only [first, applyOption, atoi_toDecimal hport]
  have hrest : ∀ e ∈ (launchEvents config data).tail, e.val ≠ 'p' := by
    intro e he
    simp only [launchEvents, List.cons_append, List.tail_cons] at he
    split at he
    all_goals
      simp only [List.nil_append, List.append_nil, List.mem_cons,
        List.not_mem_nil, or_false] at he
      rcases he with rfl | rfl | rfl | rfl | rfl | rfl | he <;> simp_all
  change (optionLoop initialOptions
    (first :: (launchEvents config data).tail)).1.conf.port = _
  cases hexit : (applyOption initialOptions first).2 with
  | none =>
      rw [optionLoop_cons_of_accepted hexit, optionLoop_port hrest, hfirst]
  | some exit => rw [optionLoop_cons_of_rejected hexit, hfirst]

/-! ## Agreement of the registry key -/

/-- The port under which the worker stores the record is the one that the
endpoint works with: its `fetch_element` finds an entry, its `remove_element`
takes that entry out, and it shares its local port with no endpoint of another
valid key. -/
structure KeyAgreement (getopt : GetoptLong) (config : ServerConfig)
    (data : Data) : Prop where
  port : endpointPort getopt config data = data.port
  fetch : ∀ (N : ℕ) (l : SharedLst N), WellFormed l →
    (∃ r ∈ l.records, r.port = data.port) →
    ∃ node, l.fetchElement (endpointPort getopt config data) =
        some (some node) ∧ (l.data node).port = data.port
  remove : ∀ (N : ℕ) (l : SharedLst N), 2 ≤ N → N ≤ 32767 → WellFormed l →
    (∃ r ∈ l.records, r.port = data.port) →
    ∃ l', l.removeElement (endpointPort getopt config data) =
        some (.success, l') ∧
      l'.records = removeKey Data.port data.port l.records
  distinct : ∀ other : Data, 1 ≤ other.port ∧ other.port ≤ 65535 →
    other.port ≠ data.port →
    endpointPort getopt config other ≠ endpointPort getopt config data

theorem keyAgreement_of_port (hg : FollowsGnu getopt)
    (hport : endpointPort getopt config data = data.port) :
    KeyAgreement getopt config data where
  port := hport
  fetch := by
    intro N l hl hmem
    obtain ⟨found, hfetch, hfound⟩ := hl.fetchElement_spec data.port
    cases found with
    | none =>
        obtain ⟨r, hr, hkey⟩ := hmem
        exact absurd hkey (findKey_eq_none_iff.mp hfound.symm r hr)
    | some node =>
        rw [hport]
        exact ⟨node, hfetch, (mem_of_findKey hfound.symm).2⟩
  remove := by
    intro N l h2 hN hl hmem
    obtain ⟨rc, l', hremove, -, hrecords, hrc, -⟩ :=
      hl.removeElement_spec h2 hN data.port
    rw [hport]
    exact ⟨l', by rw [hremove, hrc.mpr hmem], hrecords⟩
  distinct := by
    intro other hother hne
    have hint : IsInt32 other.port := by
      unfold IsInt32
      omega
    have hfits : toUInt16 other.port = other.port :=
      toUInt16_eq_self_iff.mpr (by omega)
    rw [hport, endpointPort_eq hg hint, hfits]
    exact hne

/-- For every request that is answered with 200, the keys agree exactly when
the port fits a UDP port. -/
theorem keyAgreement_iff (hg : FollowsGnu getopt) {pid : ℤ} {query : Query}
    {response : Response} (h : addTask pid query = (response, some data)) :
    KeyAgreement getopt config data ↔
      1 ≤ data.port ∧ data.port ≤ 65535 := by
  obtain ⟨-, haccepted⟩ := addTask_accepted h
  have hport : endpointPort getopt config data = toUInt16 data.port :=
    endpointPort_eq hg haccepted.port_int32
  have hne := haccepted.port_ne_zero
  constructor
  · intro hagree
    have hself := toUInt16_eq_self_iff.mp (hport.symm.trans hagree.port)
    omega
  · intro hrange
    apply keyAgreement_of_port hg
    rw [hport]
    exact toUInt16_eq_self_iff.mpr (by omega)

/-- A query with the given parameters. -/
def queryOf (parameters : List (CString × CString)) : Query :=
  fun name => (parameters.find? fun p => p.1 = name).map Prod.snd

/-- The settings of a media server on its default port. -/
def defaultConfig : ServerConfig :=
  ⟨"sample.wav".toList, [], "/media_server_shm_9090".toList⟩

/-- The record queued for a server request with the given port and
duration, and the default address and destination port. -/
def serverRequest (port duration : ℤ) : Data :=
  { port := port
    destPort := 5000
    destAddress := strncpy addrSz "127.0.0.1".toList
    duration := duration
    pid := 0
    client := 0 }

/-- The query `port=21000&duration=10000`. -/
def validQuery : Query :=
  queryOf [("port".toList, "21000".toList), ("duration".toList, "10000".toList)]

theorem addTask_validQuery :
    addTask 0 validQuery = (⟨.ok, []⟩, some (serverRequest 21000 10000)) := by
  decide

theorem keyAgreement_21000 :
    KeyAgreement exactGetoptLong defaultConfig (serverRequest 21000 10000) ↔
      1 ≤ (21000 : ℤ) ∧ (21000 : ℤ) ≤ 65535 :=
  keyAgreement_iff exactGetoptLong_followsGnu addTask_validQuery

/-- The query `port=65537&duration=10000`. -/
def wideQuery : Query :=
  queryOf [("port".toList, "65537".toList), ("duration".toList, "10000".toList)]

/-- Port 65537 is accepted and registered, but its endpoint works with port 1,
the port of another valid request. -/
theorem keyAgreement_fails_65537 :
    FollowsGnu exactGetoptLong ∧
      addTask 0 wideQuery = (⟨.ok, []⟩, some (serverRequest 65537 10000)) ∧
      endpointPort exactGetoptLong defaultConfig (serverRequest 65537 10000) =
        1 ∧
      endpointPort exactGetoptLong defaultConfig (serverRequest 1 10000) = 1 ∧
      ¬ KeyAgreement exactGetoptLong defaultConfig
        (serverRequest 65537 10000) := by
  have hwide : endpointPort exactGetoptLong defaultConfig
      (serverRequest 65537 10000) = 1 := by decide
  refine ⟨exactGetoptLong_followsGnu, by decide, hwide, by decide, ?_⟩
  intro hagree
  have hport := hagree.port
  rw [hwide] at hport
  exact absurd hport (by decide)

/-! ## The whole configuration -/

/-- The option loop of the endpoint succeeds and reproduces the request. -/
structure LaunchedAs (data : Data) (result : Options × Option OptionExit) :
    Prop where
  running : result.2 = none
  port : result.1.conf.port = data.port
  destAddress : result.1.conf.destAddress = data.destAddress
  terminated : nul ∈ result.1.conf.destAddress.toList
  destPort : result.1.conf.destPort = data.destPort
  duration : result.1.conf.duration = data.duration
  server : result.1.server = true ↔ data.client = 0

/-- The settings that a launch without rejected values leads to. -/
def launchResult (config : ServerConfig) (data : Data) : Options :=
  { conf :=
      { port := toUInt16 data.port
        destPort := toUInt16 data.destPort
        destAddress := strncpy addrSz (ofArray data.destAddress)
        duration := data.duration
        pid := 0
        client := 0 }
    server := decide (data.client = 0)
    wavefile := config.wavefile
    codec := config.codec
    sharedMem := config.sharedMemName }

/-- A launch whose port, destination port and duration are not read as zero
passes the option loop. -/
theorem launchedOptions_eq (hg : FollowsGnu getopt)
    (hport : IsInt32 data.port) (hdestPort : IsInt32 data.destPort)
    (hduration : IsInt32 data.duration) (hp : toUInt16 data.port ≠ 0)
    (hr : toUInt16 data.destPort ≠ 0) (hd : data.duration ≠ 0) :
    launchedOptions getopt config data = (launchResult config data, none) := by
  rw [launchedOptions, parseOptions, getopt_launchArgv hg, launchEvents]
  simp only [List.cons_append, List.nil_append, optionLoop, applyOption,
    atoi_toDecimal hport, atoi_toDecimal hdestPort, atoi_toDecimal hduration,
    if_neg hp, if_neg hr, if_neg hd]
  by_cases hs : data.client = 0
  · simp only [hs, ne_eq, not_true_eq_false, if_false, optionLoop,
      applyOption, launchResult, decide_true]
    rfl
  · simp only [hs, ne_eq, not_false_eq_true, if_true, optionLoop,
      launchResult, decide_false]
    rfl

/-- A launch with a value that is read as zero does not pass it. -/
theorem launchedOptions_nonzero (hg : FollowsGnu getopt)
    (hport : IsInt32 data.port) (hdestPort : IsInt32 data.destPort)
    (hduration : IsInt32 data.duration)
    (h : (launchedOptions getopt config data).2 = none) :
    toUInt16 data.port ≠ 0 ∧ toUInt16 data.destPort ≠ 0 ∧
      data.duration ≠ 0 := by
  rw [launchedOptions, parseOptions, getopt_launchArgv hg, launchEvents] at h
  simp only [List.cons_append, List.nil_append, optionLoop, applyOption,
    atoi_toDecimal hport, atoi_toDecimal hdestPort,
    atoi_toDecimal hduration] at h
  by_cases hp : toUInt16 data.port = 0
  · simp [hp] at h
  by_cases hr : toUInt16 data.destPort = 0
  · simp [hp, hr] at h
  by_cases hd : data.duration = 0
  · simp [hp, hr, hd] at h
  · exact ⟨hp, hr, hd⟩

theorem launchedOptions_zero_duration (hg : FollowsGnu getopt)
    (hport : IsInt32 data.port) (hdestPort : IsInt32 data.destPort)
    (hd : data.duration = 0) :
    (launchedOptions getopt config data).2 ≠ none := by
  intro hnone
  have hduration : IsInt32 data.duration := by
    rw [hd]
    exact ⟨by decide, by decide⟩
  exact (launchedOptions_nonzero hg hport hdestPort hduration hnone).2.2 hd

/-- For every request that is answered with 200 and names valid ports, the
endpoint starts with the configuration requested exactly when the duration is
not zero. -/
theorem launchedAs_iff (hg : FollowsGnu getopt) {pid : ℤ} {query : Query}
    {response : Response} (h : addTask pid query = (response, some data))
    (hport : 1 ≤ data.port ∧ data.port ≤ 65535)
    (hdestPort : 1 ≤ data.destPort ∧ data.destPort ≤ 65535) :
    LaunchedAs data (launchedOptions getopt config data) ↔
      data.duration ≠ 0 := by
  obtain ⟨-, haccepted⟩ := addTask_accepted h
  have hp : toUInt16 data.port = data.port :=
    toUInt16_eq_self_iff.mpr (by omega)
  have hr : toUInt16 data.destPort = data.destPort :=
    toUInt16_eq_self_iff.mpr (by omega)
  constructor
  · intro hlaunched hzero
    exact launchedOptions_zero_duration hg haccepted.port_int32
      haccepted.destPort_int32 hzero hlaunched.running
  · intro hd
    have heq : launchedOptions getopt config data =
        (launchResult config data, none) :=
      launchedOptions_eq hg haccepted.port_int32 haccepted.destPort_int32
        haccepted.duration_int32 (by omega) (by omega) hd
    obtain ⟨address, hlen, -, haddress⟩ := haccepted.address
    have hcstr : (cstr address).length < addrSz :=
      Nat.lt_succ_of_le
        (le_trans (List.takeWhile_sublist _).length_le hlen)
    have hcopy : strncpy addrSz (ofArray data.destAddress) =
        data.destAddress := by
      rw [haddress]
      exact strncpy_ofArray_strncpy (le_of_lt hcstr)
    rw [heq]
    exact
      { running := rfl
        port := hp
        destAddress := hcopy
        terminated := by
          change nul ∈ (strncpy addrSz (ofArray data.destAddress)).toList
          rw [hcopy, haddress, toList_strncpy (le_of_lt hcstr),
            List.mem_append]
          right
          rw [List.mem_replicate]
          exact ⟨Nat.sub_ne_zero_of_lt hcstr, rfl⟩
        destPort := hr
        duration := rfl
        server := decide_eq_true_iff }

theorem launchedAs_21000 :
    LaunchedAs (serverRequest 21000 10000)
        (launchedOptions exactGetoptLong defaultConfig
          (serverRequest 21000 10000)) ↔
      (serverRequest 21000 10000).duration ≠ 0 :=
  launchedAs_iff exactGetoptLong_followsGnu addTask_validQuery
    (by decide) (by decide)

/-- The query `port=21000`, without a duration. -/
def defaultDurationQuery : Query :=
  queryOf [("port".toList, "21000".toList)]

/-- The duration that the media server supplies by default is rejected by the
endpoint that it launches. -/
theorem launchedAs_fails_default_duration :
    FollowsGnu exactGetoptLong ∧
      addTask 0 defaultDurationQuery =
        (⟨.ok, []⟩, some (serverRequest 21000 0)) ∧
      (launchedOptions exactGetoptLong defaultConfig
        (serverRequest 21000 0)).2 =
        some (invalidValue "duration".toList "0".toList) ∧
      ¬ LaunchedAs (serverRequest 21000 0)
        (launchedOptions exactGetoptLong defaultConfig
          (serverRequest 21000 0)) := by
  have hexit : (launchedOptions exactGetoptLong defaultConfig
      (serverRequest 21000 0)).2 =
      some (invalidValue "duration".toList "0".toList) := by decide
  refine ⟨exactGetoptLong_followsGnu, by decide, hexit, ?_⟩
  intro hlaunched
  have hrunning := hlaunched.running
  rw [hexit] at hrunning
  cases hrunning

end SippScen.MediaEndpoint
