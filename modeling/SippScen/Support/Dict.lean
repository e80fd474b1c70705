import Mathlib.Data.List.Basic
import Mathlib.Data.List.Nodup
import Mathlib.Data.List.NodupEquivFin

/-!
# Dictionaries in order of insertion

A dictionary lists its entries in the order in which their keys were first
stored.  Storing under a key that is present replaces the value and keeps the
position.  The keys are pairwise distinct by construction.
-/

namespace SippScen.Support

/-- A dictionary that remembers the order of insertion. -/
structure Dict (κ ν : Type) where
  entries : List (κ × ν)
  nodup_keys : (entries.map Prod.fst).Nodup

namespace Dict

variable {κ ν μ : Type}

/-- The keys in order of insertion. -/
def keys (d : Dict κ ν) : List κ := d.entries.map Prod.fst

/-- The values in order of insertion. -/
def values (d : Dict κ ν) : List ν := d.entries.map Prod.snd

/-- The empty dictionary. -/
def empty : Dict κ ν := ⟨[], List.nodup_nil⟩

theorem mem_keys_of_mem {d : Dict κ ν} {e : κ × ν} (h : e ∈ d.entries) :
    e.1 ∈ d.keys :=
  List.mem_map_of_mem h

/-- Two entries under one key are the same entry. -/
theorem entry_unique {d : Dict κ ν} {k : κ} {v w : ν}
    (hv : (k, v) ∈ d.entries) (hw : (k, w) ∈ d.entries) : v = w := by
  have heq : ((k, v) : κ × ν) = (k, w) :=
    List.inj_on_of_nodup_map d.nodup_keys hv hw rfl
  exact (Prod.mk.inj heq).2

theorem eq_of_entries {d d' : Dict κ ν} (h : d.entries = d'.entries) :
    d = d' := by
  cases d
  cases d'
  cases h
  rfl

/-- The entries whose value has an image, with that image. -/
def filterMapEntries (f : κ → ν → Option μ) (es : List (κ × ν)) :
    List (κ × μ) :=
  es.filterMap fun e => (f e.1 e.2).map fun m => (e.1, m)

theorem filterMapEntries_keys (f : κ → ν → Option μ) (es : List (κ × ν)) :
    ((filterMapEntries f es).map Prod.fst).Sublist (es.map Prod.fst) := by
  induction es with
  | nil => simp [filterMapEntries]
  | cons e es ih =>
      cases hf : f e.1 e.2 with
      | none =>
          simp only [filterMapEntries, List.filterMap_cons, hf] at ih ⊢
          exact ih.cons e.1
      | some m =>
          simp only [filterMapEntries, List.filterMap_cons, hf] at ih ⊢
          exact ih.cons_cons e.1

/-- A dictionary comprehension over the entries of `d`: the entries for which
`f` gives a value, with that value. -/
def filterMap (f : κ → ν → Option μ) (d : Dict κ ν) : Dict κ μ where
  entries := filterMapEntries f d.entries
  nodup_keys := (filterMapEntries_keys f d.entries).nodup d.nodup_keys

@[simp] theorem mem_entries_filterMap {f : κ → ν → Option μ} {d : Dict κ ν}
    {k : κ} {m : μ} :
    (k, m) ∈ (d.filterMap f).entries ↔
      ∃ v, (k, v) ∈ d.entries ∧ f k v = some m := by
  simp [filterMap, filterMapEntries]

variable [DecidableEq κ]

/-- `d.get(k)`. -/
def get? (d : Dict κ ν) (k : κ) : Option ν := d.entries.lookup k

/-- The entries after storing `v` under `k`. -/
def setEntries (k : κ) (v : ν) : List (κ × ν) → List (κ × ν)
  | [] => [(k, v)]
  | e :: es => if e.1 = k then (k, v) :: es else e :: setEntries k v es

theorem map_fst_setEntries (k : κ) (v : ν) (es : List (κ × ν)) :
    (setEntries k v es).map Prod.fst =
      if k ∈ es.map Prod.fst then es.map Prod.fst
      else es.map Prod.fst ++ [k] := by
  induction es with
  | nil => simp [setEntries]
  | cons e es ih =>
      by_cases hk : e.1 = k
      · simp [setEntries, hk]
      · have hk' : k ≠ e.1 := fun h => hk h.symm
        simp only [setEntries, if_neg hk, List.map_cons, ih, List.mem_cons,
          hk', false_or]
        split
        · rfl
        · rfl

/-- `d[k] = v`. -/
def set (d : Dict κ ν) (k : κ) (v : ν) : Dict κ ν where
  entries := setEntries k v d.entries
  nodup_keys := by
    rw [map_fst_setEntries]
    split
    · exact d.nodup_keys
    · next hk => exact List.nodup_append_comm.mp (List.nodup_cons.mpr
        ⟨hk, d.nodup_keys⟩)

/-- `d.pop(k)`. -/
def pop (d : Dict κ ν) (k : κ) : Dict κ ν where
  entries := d.entries.filter fun e => e.1 ≠ k
  nodup_keys := (List.filter_sublist.map Prod.fst).nodup d.nodup_keys

theorem keys_set (d : Dict κ ν) (k : κ) (v : ν) :
    (d.set k v).keys = if k ∈ d.keys then d.keys else d.keys ++ [k] :=
  map_fst_setEntries k v d.entries

/-- A new key comes last. -/
theorem entries_set_of_notMem {d : Dict κ ν} {k : κ} (h : k ∉ d.keys) (v : ν) :
    (d.set k v).entries = d.entries ++ [(k, v)] := by
  obtain ⟨es, hnd⟩ := d
  change setEntries k v es = es ++ [(k, v)]
  change k ∉ es.map Prod.fst at h
  clear hnd
  induction es with
  | nil => rfl
  | cons e es ih =>
      rw [List.map_cons, List.mem_cons, not_or] at h
      rw [setEntries, if_neg (Ne.symm h.1), ih h.2, List.cons_append]

/-- Storing under a present key keeps the keys and their order. -/
theorem keys_set_of_mem {d : Dict κ ν} {k : κ} (h : k ∈ d.keys) (v : ν) :
    (d.set k v).keys = d.keys := by
  rw [keys_set, if_pos h]

theorem mem_setEntries {k : κ} {v : ν} {es : List (κ × ν)} {e : κ × ν}
    (hnd : (es.map Prod.fst).Nodup) :
    e ∈ setEntries k v es ↔ e = (k, v) ∨ e.1 ≠ k ∧ e ∈ es := by
  induction es with
  | nil => simp [setEntries]
  | cons a es ih =>
      simp only [List.map_cons, List.nodup_cons] at hnd
      by_cases hk : a.1 = k
      · have hout : ∀ e ∈ es, e.1 ≠ k := by
          rintro e he rfl
          exact hnd.1 (hk ▸ List.mem_map_of_mem he)
        simp only [setEntries, if_pos hk, List.mem_cons]
        grind
      · simp only [setEntries, if_neg hk, List.mem_cons, ih hnd.2]
        grind

/-- The entries after `d[k] = v`: the new one and those under other keys. -/
theorem mem_entries_set {d : Dict κ ν} {k : κ} {v : ν} {e : κ × ν} :
    e ∈ (d.set k v).entries ↔ e = (k, v) ∨ e.1 ≠ k ∧ e ∈ d.entries :=
  mem_setEntries d.nodup_keys

theorem mem_values_set {d : Dict κ ν} {k : κ} {v u : ν}
    (h : u ∈ (d.set k v).values) : u = v ∨ u ∈ d.values := by
  obtain ⟨e, he, rfl⟩ := List.mem_map.mp h
  rcases mem_entries_set.mp he with rfl | ⟨-, hold⟩
  · exact Or.inl rfl
  · exact Or.inr (List.mem_map_of_mem hold)

@[simp] theorem mem_entries_pop {d : Dict κ ν} {k : κ} {e : κ × ν} :
    e ∈ (d.pop k).entries ↔ e ∈ d.entries ∧ e.1 ≠ k := by
  simp [pop]

theorem get?_eq_some_iff {d : Dict κ ν} {k : κ} {v : ν} :
    d.get? k = some v ↔ (k, v) ∈ d.entries := by
  obtain ⟨es, hnd⟩ := d
  simp only [get?]
  induction es with
  | nil => simp
  | cons e es ih =>
      obtain ⟨a, w⟩ := e
      simp only [List.map_cons, List.nodup_cons] at hnd
      by_cases hk : k = a
      · subst hk
        have hout : (k, v) ∉ es := fun he => hnd.1 (List.mem_map_of_mem he)
        simp [hout, eq_comm]
      · have hbeq : (k == a) = false := by simpa using hk
        simp [List.lookup_cons, hbeq, hk, ih hnd.2]

theorem get?_eq_none_iff {d : Dict κ ν} {k : κ} :
    d.get? k = none ↔ k ∉ d.keys := by
  constructor
  · intro h hk
    obtain ⟨⟨_, v⟩, he, rfl⟩ := List.mem_map.mp hk
    rw [get?_eq_some_iff.mpr he] at h
    exact Option.some_ne_none v h
  · intro h
    by_contra hsome
    obtain ⟨v, hv⟩ := Option.ne_none_iff_exists'.mp hsome
    exact h (mem_keys_of_mem (get?_eq_some_iff.mp hv))

theorem mem_keys_iff {d : Dict κ ν} {k : κ} :
    k ∈ d.keys ↔ ∃ v, d.get? k = some v := by
  simp [keys, get?_eq_some_iff]

@[simp] theorem get?_set_self (d : Dict κ ν) (k : κ) (v : ν) :
    (d.set k v).get? k = some v :=
  get?_eq_some_iff.mpr (mem_entries_set.mpr (Or.inl rfl))

@[simp] theorem get?_set_of_ne {d : Dict κ ν} {k k' : κ} (h : k' ≠ k)
    (v : ν) : (d.set k v).get? k' = d.get? k' := by
  refine Option.ext fun w => ?_
  rw [get?_eq_some_iff, get?_eq_some_iff, mem_entries_set]
  simp [h]

@[simp] theorem get?_pop_self (d : Dict κ ν) (k : κ) :
    (d.pop k).get? k = none := by
  refine Option.eq_none_iff_forall_ne_some.mpr fun v hv => ?_
  simp [get?_eq_some_iff] at hv

@[simp] theorem get?_pop_of_ne {d : Dict κ ν} {k k' : κ} (h : k' ≠ k) :
    (d.pop k).get? k' = d.get? k' := by
  refine Option.ext fun w => ?_
  simp [get?_eq_some_iff, h]

/-- Only the last value stored under a key counts. -/
@[simp] theorem set_set_self (d : Dict κ ν) (k : κ) (v w : ν) :
    (d.set k w).set k v = d.set k v := by
  refine eq_of_entries ?_
  change setEntries k v (setEntries k w d.entries) = setEntries k v d.entries
  induction d.entries with
  | nil => simp [setEntries]
  | cons e rest ih =>
      by_cases hk : e.1 = k
      · simp [setEntries, hk]
      · simp [setEntries, hk, ih]

@[simp] theorem pop_set_self (d : Dict κ ν) (k : κ) (v : ν) :
    (d.set k v).pop k = d.pop k := by
  refine eq_of_entries ?_
  change (setEntries k v d.entries).filter (fun e => e.1 ≠ k) =
    d.entries.filter fun e => e.1 ≠ k
  induction d.entries with
  | nil => simp [setEntries]
  | cons e rest ih =>
      by_cases hk : e.1 = k
      · simp [setEntries, hk]
      · simpa [setEntries, hk] using ih

@[simp] theorem get?_empty (k : κ) : (empty : Dict κ ν).get? k = none := rfl

end Dict

end SippScen.Support
