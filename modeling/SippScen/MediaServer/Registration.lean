import SippScen.MediaEndpoint.Agreement
import SippScen.MediaServer.Worker

/-!
# Launch and registration

The worker starts the endpoint before it adds the entry, and a failure of
`add_element` is only printed.  A child whose options are refused ends at once;
any other one is left running without an entry when the registry is full.
-/

namespace SippScen.MediaServer

open SippScen.Support SippScen.SharedList SippScen.MediaEndpoint SharedLst

variable {N : ℕ} {getopt : GetoptLong} {config : ServerConfig} {data : Data}

/-- A child that is launched for the record gets through its options. -/
def Starts (getopt : GetoptLong) (config : ServerConfig) (data : Data) :
    Prop :=
  (launchedOptions getopt config data).2 = none

/-- Every child launched in the critical section that gets through its options
has an entry with its port and its pid. -/
def AllOrNothing (getopt : GetoptLong) (config : ServerConfig)
    (s : Served N) : Prop :=
  ∀ pid data, s.launched = some (pid, data) → Starts getopt config data →
    ∃ r ∈ s.list.records, r.port = data.port ∧ r.pid = pid

/-- The endpoint refuses a port, a destination port and a duration that it
reads as zero, and nothing else. -/
theorem starts_iff (hg : FollowsGnu getopt) (config : ServerConfig)
    (hport : IsInt32 data.port) (hdestPort : IsInt32 data.destPort)
    (hduration : IsInt32 data.duration) :
    Starts getopt config data ↔
      toUInt16 data.port ≠ 0 ∧ toUInt16 data.destPort ≠ 0 ∧
        data.duration ≠ 0 := by
  constructor
  · exact launchedOptions_nonzero hg hport hdestPort hduration
  · rintro ⟨hp, hr, hd⟩
    rw [Starts, launchedOptions_eq hg hport hdestPort hduration hp hr hd]

/-- From every registry that a history of calls leads to, a critical section
leaves no unregistered endpoint exactly when there is room for the entry, or
the port is registered already, or nothing is launched, or the endpoint refuses
its options. -/
theorem allOrNothing_iff (h2 : 2 ≤ N) (hN : N ≤ 32767)
    (hg : FollowsGnu getopt) (config : ServerConfig) (mem : SharedLst N)
    (cs : List SharedList.Call) (k : Kernel) (hport : IsInt32 data.port)
    (hdestPort : IsInt32 data.destPort) (hduration : IsInt32 data.duration) :
    ∃ replies l s, mem.initializeList.calls cs = some (replies, l) ∧
      serve k l data = some s ∧
      (AllOrNothing getopt config s ↔
        l.count < N ∨ (∃ r ∈ l.records, r.port = data.port) ∨
          k.fork = none ∨
          (toUInt16 data.port = 0 ∨ toUInt16 data.destPort = 0 ∨
            data.duration = 0)) := by
  obtain ⟨l, hcalls, hl, -⟩ := calls_represents h2 hN mem cs
  obtain ⟨s, hserve, -, houtcome⟩ := serve_spec hl h2 hN k data
  refine ⟨_, l, s, hcalls, hserve, ?_⟩
  have hcount := hl.count_eq
  have hstarts := starts_iff hg config hport hdestPort hduration
  rw [AllOrNothing]
  generalize s.list.records = after, s.signalled = signalled,
    s.launched = launched, s.output = output at houtcome ⊢
  cases houtcome with
  | reused r hfind hsig =>
      obtain ⟨hmem, hport⟩ := mem_of_findKey hfind
      exact ⟨fun _ => Or.inr (Or.inl ⟨r, hmem, hport⟩), by simp⟩
  | relaunched r pid hfind hsig hfork =>
      obtain ⟨hmem, hport⟩ := mem_of_findKey hfind
      refine ⟨fun _ => Or.inr (Or.inl ⟨r, hmem, hport⟩), ?_⟩
      rintro - pid' data' heq -
      cases heq
      exact ⟨{ data with pid := pid }, by simp, rfl, rfl⟩
  | cleaned r hfind hsig hfork =>
      exact ⟨fun _ => Or.inr (Or.inr (Or.inl hfork)), by simp⟩
  | launched pid hfind hfork hroom =>
      refine ⟨fun _ => Or.inl (by omega), ?_⟩
      rintro - pid' data' heq -
      cases heq
      exact ⟨{ data with pid := pid }, by simp, rfl, rfl⟩
  | unregistered pid hfind hfork hfull =>
      have habsent := findKey_eq_none_iff.mp hfind
      constructor
      · intro hall
        by_contra hcondition
        push Not at hcondition
        obtain ⟨-, -, -, hp, hr, hd⟩ := hcondition
        obtain ⟨r, hmem, hkey, -⟩ :=
          hall pid data rfl (hstarts.mpr ⟨hp, hr, hd⟩)
        exact habsent r hmem hkey
      · rintro (hroom | ⟨r, hmem, hkey⟩ | hnone | hrefused)
        · omega
        · exact absurd hkey (habsent r hmem)
        · rw [hfork] at hnone
          cases hnone
        · rintro pid' data' heq hstart
          obtain ⟨-, rfl⟩ := Prod.mk.inj (Option.some.inj heq)
          obtain ⟨hp, hr, hd⟩ := hstarts.mp hstart
          rcases hrefused with hzero | hzero | hzero
          · exact absurd hzero hp
          · exact absurd hzero hr
          · exact absurd hzero hd
  | unserved hfind hfork =>
      exact ⟨fun _ => Or.inr (Or.inr (Or.inl hfork)), by simp⟩

/-- The system calls of a step in which every process exists and the child
gets the given pid. -/
def forking (pid : ℤ) : Kernel := ⟨fun _ => true, some pid⟩

/-- The entry of an endpoint that serves for ten seconds. -/
def serverEntry (port pid : ℤ) : Data :=
  { serverRequest port 10000 with pid := pid }

/-- The second entry finds room in a registry of two places. -/
theorem allOrNothing_two :
    ∃ replies l s, (zeroSegment 2).initializeList.calls
        [.add (serverEntry 10 1)] = some (replies, l) ∧
      serve (forking 7) l (serverRequest 20 10000) = some s ∧
      (AllOrNothing exactGetoptLong defaultConfig s ↔
        l.count < 2 ∨ (∃ r ∈ l.records, r.port = 20) ∨
          (forking 7).fork = none ∨
          (toUInt16 20 = 0 ∨ toUInt16 5000 = 0 ∨ (10000 : ℤ) = 0)) :=
  allOrNothing_iff (by decide) (by decide)
    exactGetoptLong_followsGnu defaultConfig (zeroSegment 2)
    [.add (serverEntry 10 1)] (forking 7) ⟨by decide, by decide⟩
    ⟨by decide, by decide⟩ ⟨by decide, by decide⟩

/-- The query for a server endpoint on a port, for ten seconds. -/
def tenSeconds (port : String) : Query :=
  queryOf [("port".toList, port.toList), ("duration".toList, "10000".toList)]

/-- With both places of a registry taken, a request for a third port starts an
endpoint that has no entry, and a second request for that port starts another
one on the same port. -/
theorem allOrNothing_fails_full :
    FollowsGnu exactGetoptLong ∧
    addTask 0 (tenSeconds "30") = (⟨.ok, []⟩, some (serverRequest 30 10000)) ∧
    Starts exactGetoptLong defaultConfig (serverRequest 30 10000) ∧
    ∃ replies l s s', (zeroSegment 2).initializeList.calls
        [.add (serverEntry 10 1), .add (serverEntry 20 2)] =
        some (replies, l) ∧
      serve (forking 7) l (serverRequest 30 10000) = some s ∧
      s.launched = some (7, serverRequest 30 10000) ∧
      ¬ AllOrNothing exactGetoptLong defaultConfig s ∧
      serve (forking 8) s.list (serverRequest 30 10000) = some s' ∧
      s'.launched = some (8, serverRequest 30 10000) := by
  have hstarts : Starts exactGetoptLong defaultConfig
      (serverRequest 30 10000) :=
    (starts_iff exactGetoptLong_followsGnu defaultConfig
      ⟨by decide, by decide⟩ ⟨by decide, by decide⟩
      ⟨by decide, by decide⟩).mpr ⟨by decide, by decide, by decide⟩
  obtain ⟨l, hcalls, hl, hitems⟩ :=
    calls_represents (by decide) (by decide) (zeroSegment 2)
      [.add (serverEntry 10 1), .add (serverEntry 20 2)]
  have hrecords : l.records = [serverEntry 10 1, serverEntry 20 2] := hitems
  have hfull : l.records.length = 2 := by rw [hrecords]; rfl
  obtain ⟨found, hfetch, hfound⟩ := hl.fetchElement_spec 30
  rw [hrecords] at hfound
  obtain rfl : found = none := Option.map_eq_none_iff.mp hfound
  have hserve : ∀ pid, serve (forking pid) l (serverRequest 30 10000) =
      launchAndAdd (forking pid) l (serverRequest 30 10000) [] := fun pid =>
    serve_absent hfetch
  refine ⟨exactGetoptLong_followsGnu, by decide, hstarts, _, l, _, _, hcalls,
    (hserve 7).trans (launchAndAdd_full hl hfull rfl _ []), rfl, ?_,
    (hserve 8).trans (launchAndAdd_full hl hfull rfl _ []), rfl⟩
  intro hall
  obtain ⟨r, hr, hport, -⟩ := hall 7 (serverRequest 30 10000) rfl hstarts
  change r ∈ l.records at hr
  rw [hrecords] at hr
  simp only [List.mem_cons, List.not_mem_nil, or_false] at hr
  rcases hr with rfl | rfl
  · exact absurd hport (by decide)
  · exact absurd hport (by decide)

end SippScen.MediaServer
