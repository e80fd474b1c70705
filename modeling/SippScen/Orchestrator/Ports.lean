import Mathlib.Data.List.Sort
import SippScen.Orchestrator.Failures

/-!
# Ports of the media hosts

The stage "Validate no ports overlap" compares the recorded ranges of every
media server.  UDP ports belong to a host, and several media servers may run
on one host, so that the validation says nothing about two scenarios whose
media servers share a host under different names.
-/

namespace SippScen.Orchestrator

open SippScen.Support Effect

/-! ## The validation -/

/-- The sort key of the ranges: `key=lambda x: x[0]`. -/
def PortRange.StartsBefore (a b : PortRange) : Prop := a.first ≤ b.first

instance : DecidableRel PortRange.StartsBefore :=
  fun a b => inferInstanceAs (Decidable (a.first ≤ b.first))

instance : Std.Total PortRange.StartsBefore :=
  ⟨fun a b => le_total a.first b.first⟩

instance : IsTrans PortRange PortRange.StartsBefore :=
  ⟨fun _ _ _ => le_trans⟩

/-- Some range starts before its predecessor in the list ends. -/
def neighboursOverlap : List PortRange → Bool
  | a :: b :: rest =>
      if b.first ≤ a.last then true else neighboursOverlap (b :: rest)
  | _ => false

/-- `check_overlap`. -/
def checkOverlap (ranges : Dict PyStr (List PortRange)) : Bool :=
  ranges.values.any fun v =>
    neighboursOverlap (v.insertionSort PortRange.StartsBefore)

/-- `check_no_duplicate`: no item occurs more than once. -/
def checkNoDuplicate (input : List PyStr) : Bool :=
  input.all fun item => input.count item ≤ 1

/-- The validation after the preparation. -/
def validates (p : Prepared) : Bool :=
  !(checkOverlap p.acc.portRanges || !checkNoDuplicate p.acc.sipSockets)

/-- Ranges that are sorted by their start and whose neighbours do not overlap
follow one another. -/
theorem pairwise_of_neighbours {ranges : List PortRange}
    (hsorted : ranges.Pairwise PortRange.StartsBefore)
    (h : neighboursOverlap ranges = false) :
    ranges.Pairwise fun a b => a.last < b.first := by
  induction ranges with
  | nil => exact List.Pairwise.nil
  | cons a rest ih =>
      rw [List.pairwise_cons] at hsorted
      cases rest with
      | nil => exact List.pairwise_singleton _ _
      | cons b rest =>
          simp only [neighboursOverlap] at h
          split at h
          · exact absurd h (by simp)
          · next hgap =>
              refine List.pairwise_cons.mpr ⟨fun c hc => ?_, ih hsorted.2 h⟩
              -- every later range starts no earlier than the neighbour
              have hbc : b.first ≤ c.first := by
                rcases List.mem_cons.mp hc with rfl | hc
                · exact le_rfl
                · exact (List.pairwise_cons.mp hsorted.2).1 c hc
              omega

/-- One of two ranges ends before the other starts. -/
def PortRange.Apart (a b : PortRange) : Prop :=
  a.last < b.first ∨ b.last < a.first

/-- If the validation finds no overlap, all ranges of a media server are
apart. -/
theorem pairwise_apart {ranges : Dict PyStr (List PortRange)} {ms : PyStr}
    {v : List PortRange} (h : checkOverlap ranges = false)
    (hv : ranges.get? ms = some v) : v.Pairwise PortRange.Apart := by
  have hmem : v ∈ ranges.values :=
    List.mem_map.mpr ⟨_, Dict.get?_eq_some_iff.mp hv, rfl⟩
  have hneighbours : neighboursOverlap
      (v.insertionSort PortRange.StartsBefore) = false := by
    simpa using List.any_eq_false.mp h v hmem
  have hfollow := pairwise_of_neighbours
    (List.pairwise_insertionSort PortRange.StartsBefore v) hneighbours
  have hperm := List.perm_insertionSort PortRange.StartsBefore v
  exact hperm.pairwise (hfollow.imp fun hlt => Or.inl hlt) fun hapart =>
    hapart.symm

/-! ## The ports of a prepared scenario -/

variable {w : World} {run : RunConfig} {servers : Dict PyStr PyStr}
variable {config : List Entry} {i j : ℕ}

/-- The ports that SIPp makes of line `k` of the file: those of RTP and of
RTCP. -/
def PortsFile.pair (f : PortsFile) (k : ℕ) : List ℤ :=
  [f.offset + 2 * k, f.offset + 2 * k + 1]

/-- No line of one file shares a port with a line of the other. -/
def PortsFile.Exclusive (f g : PortsFile) : Prop :=
  ∀ k₁ k₂ : ℕ, (k₁ : ℤ) < f.nPorts → (k₂ : ℤ) < g.nPorts →
    (f.pair k₁).Disjoint (g.pair k₂)

/-- One of the files has no line, or one of the intervals of ports ends before
the other starts. -/
def PortsFile.Apart (f g : PortsFile) : Prop :=
  f.nPorts ≤ 0 ∨ g.nPorts ≤ 0 ∨ f.offset + 2 * f.nPorts ≤ g.offset ∨
    g.offset + 2 * g.nPorts ≤ f.offset

theorem PortsFile.exclusive_iff {f g : PortsFile} :
    f.Exclusive g ↔ f.Apart g := by
  constructor
  · intro h
    by_contra hapart
    simp only [PortsFile.Apart, not_or, not_le] at hapart
    obtain ⟨hf, hg, hfg, hgf⟩ := hapart
    -- the larger of the offsets belongs to a line of either file
    obtain ⟨k₁, hk₁⟩ := Int.eq_ofNat_of_zero_le
      (a := (max f.offset g.offset - f.offset) / 2) (by omega)
    obtain ⟨k₂, hk₂⟩ := Int.eq_ofNat_of_zero_le
      (a := (max f.offset g.offset - g.offset) / 2) (by omega)
    have hdisjoint := h k₁ k₂ (by omega) (by omega)
    have hmem₁ : max f.offset g.offset ∈ f.pair k₁ := by
      simp only [PortsFile.pair, List.mem_cons, List.not_mem_nil, or_false]
      omega
    have hmem₂ : max f.offset g.offset ∈ g.pair k₂ := by
      simp only [PortsFile.pair, List.mem_cons, List.not_mem_nil, or_false]
      omega
    exact hdisjoint hmem₁ hmem₂
  · intro hapart k₁ k₂ hk₁ hk₂ port hmem₁ hmem₂
    simp only [PortsFile.pair, List.mem_cons, List.not_mem_nil, or_false]
      at hmem₁ hmem₂
    unfold PortsFile.Apart at hapart
    omega

/-- What a scenario uses for its media: the media server, its host and the
file of ports. -/
structure MediaUse where
  ms : PyStr
  host : PyStr
  file : PortsFile
deriving DecidableEq, Repr

/-- The scenario at position `i` of the configuration is prepared without
failure, and uses `m`. -/
def PreparedAt (w : World) (run : RunConfig) (servers : Dict PyStr PyStr)
    (config : List Entry) (i : ℕ) (m : MediaUse) : Prop :=
  ∃ name scn c endpoint, config[i]? = some (name, some scn) ∧
    describedCall w servers name scn = some c ∧ c.ms = some m.ms ∧
    servers.get? m.ms = some endpoint ∧ m.host = hostPart endpoint ∧
    m.file = c.portsFile ∧
    (prepareScenario w run servers (name, some scn)
      (prepareScenarios w run servers (config.take i))).result = .ok ()

theorem exists_writes {name : PyStr} {scn : ScenarioConfig}
    {c : CallDescription} {s : Prepared}
    (hc : describedCall w servers name scn = some c)
    (hok : (prepareScenario w run servers (name, some scn) s).result =
      .ok ()) :
    ∃ dnStart t u, (writePortsAndDns w name scn c).Returns t dnStart u ∧
      ∀ file ∈ (writePortsAndDns w name scn c t).log,
        file ∈ (prepareScenario w run servers (name, some scn) s).log := by
  have hdescribe := (describedCall_eq_some_iff s).mp hc
  simp only [prepareScenario, require_some_bind] at hok ⊢
  rw [andThen_of_returns hdescribe] at hok
  obtain ⟨_, t, hrecord, hrun⟩ := returns_bind.mp ⟨hok, rfl⟩
  obtain ⟨dnStart, u, hwrites, -⟩ := returns_bind.mp hrun
  refine ⟨dnStart, t, u, hwrites, fun file hfile => ?_⟩
  exact mem_log_bind_right hdescribe
    (mem_log_bind_right hrecord (mem_log_bind_left hfile))

theorem mem_log_writeFile {path : PyStr} {content : FileContent}
    (h : w.writable path = true) (s : Prepared) :
    (path, content) ∈ (writeFile w path content s).log := by
  simp [writeFile, h, emit]

/-- The file of ports that a prepared scenario uses is the one written for
it. -/
theorem prepared_writes_ports {name : PyStr} {scn : ScenarioConfig}
    {c : CallDescription} {s : Prepared}
    (hc : describedCall w servers name scn = some c)
    (hok : (prepareScenario w run servers (name, some scn) s).result =
      .ok ()) :
    (w.csvFilePorts name, .ports c.portsFile) ∈
      (prepareScenario w run servers (name, some scn) s).log := by
  obtain ⟨dnStart, t, u, hreturns, hwrites⟩ := exists_writes hc hok
  obtain ⟨_, _, hports, -⟩ := returns_bind.mp hreturns
  exact hwrites _ (mem_log_bind_left
    (mem_log_writeFile (returns_writeFile.mp hports).1 t))

theorem prepared_writes_dn {name : PyStr} {scn : ScenarioConfig}
    {c : CallDescription} {s : Prepared}
    (hc : describedCall w servers name scn = some c)
    (hok : (prepareScenario w run servers (name, some scn) s).result =
      .ok ()) :
    ∃ dnStart offset, scn.dnStart = .value dnStart ∧
      readInt ((toDecimal dnStart).drop ((toDecimal dnStart).length -
        (dnPrefix dnStart c.nPorts).2)) = some offset ∧
      (w.csvFileDn name, .dn ⟨c.nPorts, offset, (dnPrefix dnStart c.nPorts).1,
        (dnPrefix dnStart c.nPorts).2⟩) ∈
          (prepareScenario w run servers (name, some scn) s).log := by
  obtain ⟨_, t, u, hreturns, hwrites⟩ := exists_writes hc hok
  obtain ⟨_, _, hports, hrest⟩ := returns_bind.mp hreturns
  obtain ⟨dnStart, _, hstart, hrest⟩ := returns_bind.mp hrest
  obtain ⟨offset, v, hoffset, hrest⟩ := returns_bind.mp hrest
  obtain ⟨_, _, hdns, -⟩ := returns_bind.mp hrest
  refine ⟨dnStart, offset, required_eq_ok.mp (returns_lift.mp hstart).1,
    (returns_require.mp hoffset).1, hwrites _ ?_⟩
  refine mem_log_bind_right hports (mem_log_bind_right hstart
    (mem_log_bind_right hoffset (mem_log_bind_left ?_)))
  exact mem_log_writeFile (returns_writeFile.mp hdns).1 v

theorem prepared_writes_dns {name : PyStr} {scn : ScenarioConfig}
    {c : CallDescription} {s : Prepared}
    (hc : describedCall w servers name scn = some c)
    (hok : (prepareScenario w run servers (name, some scn) s).result =
      .ok ()) :
    ∃ file : DnFile, file.nPorts = c.nPorts ∧ (w.csvFileDn name, .dn file) ∈
      (prepareScenario w run servers (name, some scn) s).log := by
  obtain ⟨dnStart, offset, -, -, hwritten⟩ := prepared_writes_dn hc hok
  exact ⟨_, rfl, hwritten⟩

theorem rangeUnder_of_preparedAt {m : MediaUse}
    (h : PreparedAt w run servers config i m) :
    ∃ e range, config[i]? = some e ∧
      rangeUnder w servers m.ms e = some range ∧
      range.first = m.file.offset ∧
      range.last = m.file.offset + 2 * m.file.nPorts - 1 := by
  obtain ⟨name, scn, c, endpoint, he, hc, hms, hendpoint, -, hfile, -⟩ := h
  have hrecorded : recordedRange w servers (name, some scn) =
      some (m.ms, c.range name) :=
    recordedRange_eq_some_iff.mpr ⟨scn, c, rfl, hc, hms,
      Dict.mem_keys_iff.mpr ⟨endpoint, hendpoint⟩, rfl⟩
  refine ⟨(name, some scn), c.range name, he, ?_, ?_, ?_⟩
  · simp [rangeUnder, hrecorded]
  · rw [hfile]; rfl
  · rw [hfile]; rfl

/-- Two scenarios on the same media server have intervals of ports that the
validation has compared. -/
theorem apart_of_same_server {m m' : MediaUse}
    (hvalid : validates (prepareScenarios w run servers config) = true)
    (hij : i < j) (hm : PreparedAt w run servers config i m)
    (hm' : PreparedAt w run servers config j m') (hms : m.ms = m'.ms) :
    m.file.Apart m'.file := by
  obtain ⟨e, range, he, hrange, hfirst, hlast⟩ := rangeUnder_of_preparedAt hm
  obtain ⟨e', range', he', hrange', hfirst', hlast'⟩ :=
    rangeUnder_of_preparedAt hm'
  obtain ⟨_, _, _, endpoint, -, -, -, hendpoint, -⟩ := hm
  have hoverlap : checkOverlap
      (prepareScenarios w run servers config).acc.portRanges = false := by
    simp only [validates, Bool.not_eq_true', Bool.or_eq_false_iff] at hvalid
    exact hvalid.1
  have hpairwise := pairwise_apart hoverlap
    (portRanges_prepareScenarios config
      (Dict.mem_keys_iff.mpr ⟨endpoint, hendpoint⟩))
  rw [List.pairwise_filterMap, List.pairwise_iff_getElem] at hpairwise
  obtain ⟨hi, rfl⟩ := List.getElem?_eq_some_iff.mp he
  obtain ⟨hj, rfl⟩ := List.getElem?_eq_some_iff.mp he'
  have hapart := hpairwise i j hi hj hij range hrange range' (hms ▸ hrange')
  unfold PortRange.Apart at hapart
  unfold PortsFile.Apart
  omega

theorem PortsFile.Apart.symm {f g : PortsFile} (h : f.Apart g) :
    g.Apart f := by
  unfold PortsFile.Apart at h ⊢
  omega

/-- In a configuration that passes the validation, the ports of any two
scenarios whose media servers run on one host are exclusive, if and only if
the intervals of ports are apart for those whose media servers have different
names. -/
theorem ports_exclusive_iff (w : World) (run : RunConfig)
    (servers : Dict PyStr PyStr) (config : List Entry)
    (hvalid : validates (prepareScenarios w run servers config) = true) :
    (∀ i j m m', i ≠ j → PreparedAt w run servers config i m →
        PreparedAt w run servers config j m' → m.host = m'.host →
        m.file.Exclusive m'.file) ↔
      ∀ i j m m', i ≠ j → PreparedAt w run servers config i m →
        PreparedAt w run servers config j m' → m.host = m'.host →
        m.ms ≠ m'.ms → m.file.Apart m'.file := by
  constructor
  · intro h i j m m' hij hm hm' hhost _
    exact PortsFile.exclusive_iff.mp (h i j m m' hij hm hm' hhost)
  · intro h i j m m' hij hm hm' hhost
    refine PortsFile.exclusive_iff.mpr ?_
    by_cases hms : m.ms = m'.ms
    · rcases Nat.lt_or_gt_of_ne hij with hlt | hlt
      · exact apart_of_same_server hvalid hlt hm hm' hms
      · exact (apart_of_same_server hvalid hlt hm' hm hms.symm).symm
    · exact h i j m m' hij hm hm' hhost hms

/-- Another client, on the media server `ms` and from the port `offset` on. -/
def otherClient (ms : PyStr) (offset : ℤ) : ScenarioConfig :=
  { plainClient with
    rtpServer := .value ms
    rtpPortOffset := .value offset
    sipPort := some "5061".toList }

/-- Two clients on one media server, one interval of ports after the other. -/
def splitPorts : List Entry :=
  [("A".toList, some plainClient),
    ("B".toList, some (otherClient "ms1".toList 20020))]

/-- Scenarios on one media server have exclusive ports. -/
theorem ports_exclusive_one_server :
    PreparedAt plainWorld minuteRun oneServer splitPorts 0
      ⟨"ms1".toList, "10.0.0.1".toList, 10, 20000⟩ ∧
    PreparedAt plainWorld minuteRun oneServer splitPorts 1
      ⟨"ms1".toList, "10.0.0.1".toList, 10, 20020⟩ ∧
    (PortsFile.mk 10 20000).Exclusive (PortsFile.mk 10 20020) := by
  have hA : PreparedAt plainWorld minuteRun oneServer splitPorts 0
      ⟨"ms1".toList, "10.0.0.1".toList, 10, 20000⟩ :=
    ⟨"A".toList, plainClient, ⟨some "ms1".toList, 10, 10, 20000⟩,
      "10.0.0.1:9090".toList, rfl, by decide +kernel, rfl, by decide +kernel,
      by decide +kernel, rfl, by decide +kernel⟩
  have hB : PreparedAt plainWorld minuteRun oneServer splitPorts 1
      ⟨"ms1".toList, "10.0.0.1".toList, 10, 20020⟩ :=
    ⟨"B".toList, otherClient "ms1".toList 20020,
      ⟨some "ms1".toList, 10, 10, 20020⟩, "10.0.0.1:9090".toList, rfl,
      by decide +kernel, rfl, by decide +kernel, by decide +kernel, rfl,
      by decide +kernel⟩
  have hone : ∀ i m, PreparedAt plainWorld minuteRun oneServer splitPorts i m →
      m.ms = "ms1".toList := by
    rintro i m ⟨_, _, _, endpoint, -, -, -, hendpoint, -⟩
    rcases Dict.mem_entries_set.mp (Dict.get?_eq_some_iff.mp hendpoint) with
      heq | ⟨-, hmem⟩
    · exact (Prod.mk.inj heq).1
    · exact absurd hmem (List.not_mem_nil)
  refine ⟨hA, hB, (ports_exclusive_iff plainWorld minuteRun oneServer
    splitPorts (by decide +kernel)).mpr ?_ 0 1 _ _ (by decide) hA hB rfl⟩
  intro i j m m' _ hm hm' _ hne
  exact absurd ((hone i m hm).trans (hone j m' hm').symm) hne

/-- Two media servers on one host. -/
def twoServers : Dict PyStr PyStr :=
  oneServer.set "ms2".toList "10.0.0.1:9099".toList

/-- Two clients with the same ports, on two media servers of one host. -/
def sharedPorts : List Entry :=
  [("A".toList, some plainClient),
    ("B".toList, some (otherClient "ms2".toList 20000))]

/-- The validation accepts two scenarios that use the same ports of a host. -/
theorem ports_shared_on_host :
    validates (prepareScenarios plainWorld minuteRun twoServers
      sharedPorts) = true ∧
    PreparedAt plainWorld minuteRun twoServers sharedPorts 0
      ⟨"ms1".toList, "10.0.0.1".toList, 10, 20000⟩ ∧
    PreparedAt plainWorld minuteRun twoServers sharedPorts 1
      ⟨"ms2".toList, "10.0.0.1".toList, 10, 20000⟩ ∧
    ¬ (PortsFile.mk 10 20000).Exclusive (PortsFile.mk 10 20000) := by
  refine ⟨by decide +kernel, ?_, ?_, ?_⟩
  · exact ⟨"A".toList, plainClient, ⟨some "ms1".toList, 10, 10, 20000⟩,
      "10.0.0.1:9090".toList, rfl, by decide +kernel, rfl, by decide +kernel,
      by decide +kernel, rfl, by decide +kernel⟩
  · exact ⟨"B".toList, otherClient "ms2".toList 20000,
      ⟨some "ms2".toList, 10, 10, 20000⟩, "10.0.0.1:9099".toList, rfl,
      by decide +kernel, rfl, by decide +kernel, by decide +kernel, rfl,
      by decide +kernel⟩
  · intro h
    exact h 0 0 (by decide) (by decide) (a := 20000) (by decide) (by decide)

end SippScen.Orchestrator
