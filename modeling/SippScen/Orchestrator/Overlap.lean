import SippScen.Orchestrator.Ports

/-!
# The overlap validation is exact

`check_overlap` compares neighbours in the order of their starts.  For ranges
that are not empty this finds an overlap exactly when two ranges of a media
server have one, and two recorded ranges overlap exactly when the scenarios
have a port in common.
-/

namespace SippScen.Orchestrator

open SippScen.Support

/-! ## Neighbours and pairs -/

theorem PortRange.Apart.symm {a b : PortRange} (h : a.Apart b) : b.Apart a :=
  Or.symm h

/-- In a sorted list of ranges that are not empty, no neighbours overlap
exactly when no two ranges do. -/
theorem neighboursOverlap_eq_false_iff {ranges : List PortRange}
    (hsorted : ranges.Pairwise PortRange.StartsBefore)
    (hnonempty : ∀ r ∈ ranges, r.first ≤ r.last) :
    neighboursOverlap ranges = false ↔ ranges.Pairwise PortRange.Apart := by
  constructor
  · intro h
    exact (pairwise_of_neighbours hsorted h).imp Or.inl
  · intro h
    induction ranges with
    | nil => rfl
    | cons a rest ih =>
        rw [List.pairwise_cons] at hsorted h
        have hrest := ih hsorted.2
          (fun r hr => hnonempty r (List.mem_cons_of_mem a hr)) h.2
        rcases rest with _ | ⟨b, rest⟩
        · rfl
        · have hb : b.first ≤ b.last := hnonempty b (by simp)
          have hab : a.first ≤ b.first := hsorted.1 b List.mem_cons_self
          have hgap : ¬ b.first ≤ a.last := by
            rcases h.1 b List.mem_cons_self with hlt | hlt
            · omega
            · omega
          rw [neighboursOverlap, if_neg hgap, hrest]

/-- `check_overlap` accepts ranges that are not empty exactly when those of
each media server are apart. -/
theorem checkOverlap_eq_false_iff {ranges : Dict PyStr (List PortRange)}
    (hnonempty : ∀ v ∈ ranges.values, ∀ r ∈ v, r.first ≤ r.last) :
    checkOverlap ranges = false ↔
      ∀ v ∈ ranges.values, v.Pairwise PortRange.Apart := by
  rw [checkOverlap, List.any_eq_false]
  refine forall₂_congr fun v hv => ?_
  have hperm := List.perm_insertionSort PortRange.StartsBefore v
  rw [Bool.not_eq_true, neighboursOverlap_eq_false_iff
    (List.pairwise_insertionSort PortRange.StartsBefore v)
    fun r hr => hnonempty v hv r (hperm.mem_iff.mp hr)]
  exact hperm.pairwise_iff fun h => h.symm

/-! ## Scenarios and their ranges -/

/-- The ports of a scenario: it has some. -/
structure PortsUse where
  name : PyStr
  file : PortsFile
  positive : 1 ≤ file.nPorts

/-- `(ports_offset, (ports_offset+2*n_ports)-1, scn_name)`. -/
def PortsUse.range (u : PortsUse) : PortRange :=
  ⟨u.file.offset, u.file.offset + 2 * u.file.nPorts - 1, u.name⟩

/-- Some port belongs to a line of either scenario. -/
def PortsUse.SharesPort (u v : PortsUse) : Prop :=
  ∃ (k₁ k₂ : ℕ) (port : ℤ), (k₁ : ℤ) < u.file.nPorts ∧
    (k₂ : ℤ) < v.file.nPorts ∧ port ∈ u.file.pair k₁ ∧ port ∈ v.file.pair k₂

theorem range_eq (name : PyStr) (c : CallDescription) (h : 1 ≤ c.nPorts) :
    c.range name = PortsUse.range ⟨name, c.portsFile, h⟩ := rfl

theorem PortsUse.range_nonempty (u : PortsUse) :
    u.range.first ≤ u.range.last := by
  have hpositive := u.positive
  simp only [PortsUse.range]
  omega

theorem PortsUse.apart_iff (u v : PortsUse) :
    u.range.Apart v.range ↔ u.file.Apart v.file := by
  have hpositive := u.positive
  have hpositive' := v.positive
  simp only [PortRange.Apart, PortsFile.Apart, PortsUse.range]
  omega

theorem PortsUse.sharesPort_iff (u v : PortsUse) :
    u.SharesPort v ↔ ¬ u.range.Apart v.range := by
  rw [PortsUse.apart_iff, ← PortsFile.exclusive_iff, PortsFile.Exclusive]
  constructor
  · rintro ⟨k₁, k₂, port, hk₁, hk₂, hport₁, hport₂⟩ hexclusive
    exact hexclusive k₁ k₂ hk₁ hk₂ hport₁ hport₂
  · intro hnot
    by_contra hnone
    exact hnot fun k₁ k₂ hk₁ hk₂ port hport₁ hport₂ =>
      hnone ⟨k₁, k₂, port, hk₁, hk₂, hport₁, hport₂⟩

/-- `port_ranges`, when the scenarios of each media server were recorded in
order. -/
def rangesOf (scenarios : Dict PyStr (List PortsUse)) :
    Dict PyStr (List PortRange) :=
  scenarios.filterMap fun _ uses => some (uses.map PortsUse.range)

theorem mem_values_rangesOf {scenarios : Dict PyStr (List PortsUse)}
    {v : List PortRange} :
    v ∈ (rangesOf scenarios).values ↔
      ∃ ms uses, scenarios.get? ms = some uses ∧
        uses.map PortsUse.range = v := by
  simp only [Dict.values, List.mem_map, Prod.exists, exists_eq_right,
    rangesOf, Dict.mem_entries_filterMap, Option.some.injEq,
    Dict.get?_eq_some_iff]

theorem not_pairwise_iff {α : Type*} {R : α → α → Prop}
    (hsymm : ∀ a b, R a b → R b a) {xs : List α} :
    ¬ xs.Pairwise R ↔ ∃ (i j : ℕ) (a b : α), i ≠ j ∧ xs[i]? = some a ∧
      xs[j]? = some b ∧ ¬ R a b := by
  rw [List.pairwise_iff_getElem]
  constructor
  · intro h
    push Not at h
    obtain ⟨i, j, hi, hj, hij, hnot⟩ := h
    exact ⟨i, j, _, _, hij.ne, List.getElem?_eq_getElem hi,
      List.getElem?_eq_getElem hj, hnot⟩
  · rintro ⟨i, j, a, b, hne, ha, hb, hnot⟩ h
    obtain ⟨hi, rfl⟩ := List.getElem?_eq_some_iff.mp ha
    obtain ⟨hj, rfl⟩ := List.getElem?_eq_some_iff.mp hb
    rcases Nat.lt_or_gt_of_ne hne with hlt | hlt
    · exact hnot (h i j hi hj hlt)
    · exact hnot (hsymm _ _ (h j i hj hi hlt))

/-- `check_overlap` finds an overlap exactly when under some media server two
scenarios at different positions have a port in common. -/
theorem overlap_found_iff (scenarios : Dict PyStr (List PortsUse)) :
    checkOverlap (rangesOf scenarios) = true ↔
      ∃ (ms : PyStr) (uses : List PortsUse) (i j : ℕ) (u v : PortsUse),
        scenarios.get? ms = some uses ∧ i ≠ j ∧ uses[i]? = some u ∧
        uses[j]? = some v ∧ u.SharesPort v := by
  have hnonempty : ∀ v ∈ (rangesOf scenarios).values, ∀ r ∈ v,
      r.first ≤ r.last := by
    intro v hv r hr
    obtain ⟨ms, uses, -, rfl⟩ := mem_values_rangesOf.mp hv
    obtain ⟨u, -, rfl⟩ := List.mem_map.mp hr
    exact u.range_nonempty
  have hshared : ∀ uses : List PortsUse,
      ¬ (uses.map PortsUse.range).Pairwise PortRange.Apart ↔
        ∃ (i j : ℕ) (u v : PortsUse), i ≠ j ∧ uses[i]? = some u ∧
          uses[j]? = some v ∧ u.SharesPort v := by
    intro uses
    rw [List.pairwise_map, not_pairwise_iff fun u v h => h.symm]
    simp only [PortsUse.sharesPort_iff]
  rw [← Bool.not_eq_false, checkOverlap_eq_false_iff hnonempty]
  push Not
  constructor
  · rintro ⟨v, hv, hnot⟩
    obtain ⟨ms, uses, huses, rfl⟩ := mem_values_rangesOf.mp hv
    obtain ⟨i, j, u, v, hne, hu, hv, hshares⟩ := (hshared uses).mp hnot
    exact ⟨ms, uses, i, j, u, v, huses, hne, hu, hv, hshares⟩
  · rintro ⟨ms, uses, i, j, u, v, huses, hne, hu, hv, hshares⟩
    exact ⟨_, mem_values_rangesOf.mpr ⟨ms, uses, huses, rfl⟩,
      (hshared uses).mpr ⟨i, j, u, v, hne, hu, hv, hshares⟩⟩

end SippScen.Orchestrator
