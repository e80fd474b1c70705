import Mathlib.Data.List.Basic
import Mathlib.Data.List.Nodup

/-!
# Bounded sequences of keyed records

A sequence of at most `capacity` records in order of insertion.  Records are
looked up, replaced and removed by key, and where several records share a key
the first one counts.  When the keys are pairwise distinct, these operations
act on the set of records as one expects.
-/

namespace SippScen.Support

variable {α κ : Type*} [DecidableEq κ] (key : α → κ)

/-- The first record with the key `k`. -/
def findKey (k : κ) (xs : List α) : Option α :=
  xs.find? fun x => key x = k

/-- `xs` without its first record with the key `k`. -/
def removeKey (k : κ) (xs : List α) : List α :=
  xs.eraseP fun x => key x = k

/-- `xs` with its first record of `y`'s key replaced by `y`. -/
def replaceKey (y : α) : List α → List α
  | [] => []
  | x :: xs => if key x = key y then y :: xs else x :: replaceKey y xs

variable {key} {k : κ} {x y : α} {xs front back : List α}

/-- Either no record has the key, or there is a first one. -/
theorem absent_or_first (key : α → κ) (k : κ) (xs : List α) :
    (∀ x ∈ xs, key x ≠ k) ∨
      ∃ front x back, xs = front ++ x :: back ∧ key x = k ∧
        ∀ y ∈ front, key y ≠ k := by
  induction xs with
  | nil => exact Or.inl (by simp)
  | cons z xs ih =>
      by_cases hz : key z = k
      · exact Or.inr ⟨[], z, xs, by simp, hz, by simp⟩
      · rcases ih with habsent | ⟨front, x, back, rfl, hx, hfront⟩
        · exact Or.inl (by simpa [hz] using habsent)
        · exact Or.inr ⟨z :: front, x, back, by simp, hx,
            by simpa [hz] using hfront⟩

theorem findKey_absent (h : ∀ x ∈ xs, key x ≠ k) :
    findKey key k xs = none := by
  simpa [findKey] using h

theorem findKey_first (hx : key x = k) (hfront : ∀ y ∈ front, key y ≠ k) :
    findKey key k (front ++ x :: back) = some x := by
  rw [findKey, List.find?_eq_some_iff_append]
  exact ⟨by simpa using hx, front, back, rfl, by simpa using hfront⟩

theorem removeKey_absent (h : ∀ x ∈ xs, key x ≠ k) :
    removeKey key k xs = xs :=
  List.eraseP_of_forall_not (by simpa using h)

theorem removeKey_first (hx : key x = k) (hfront : ∀ y ∈ front, key y ≠ k) :
    removeKey key k (front ++ x :: back) = front ++ back := by
  rw [removeKey, List.eraseP_append_right _ (by simpa using hfront)]
  simp [hx]

theorem replaceKey_absent (h : ∀ x ∈ xs, key x ≠ key y) :
    replaceKey key y xs = xs := by
  induction xs with
  | nil => rfl
  | cons z xs ih =>
      have hz : key z ≠ key y := h z (by simp)
      have hxs : ∀ x ∈ xs, key x ≠ key y := fun x hx => h x (by simp [hx])
      simp [replaceKey, hz, ih hxs]

theorem replaceKey_first (hx : key x = key y)
    (hfront : ∀ z ∈ front, key z ≠ key y) :
    replaceKey key y (front ++ x :: back) = front ++ y :: back := by
  induction front with
  | nil => simp [replaceKey, hx]
  | cons z front ih =>
      have hz : key z ≠ key y := hfront z (by simp)
      have htail : ∀ w ∈ front, key w ≠ key y := fun w hw =>
        hfront w (by simp [hw])
      simp [replaceKey, hz, ih htail]

theorem findKey_eq_none_iff :
    findKey key k xs = none ↔ ∀ x ∈ xs, key x ≠ k := by
  simp [findKey]

theorem mem_of_findKey (h : findKey key k xs = some x) :
    x ∈ xs ∧ key x = k := by
  refine ⟨List.mem_of_find?_eq_some h, ?_⟩
  simpa using List.find?_some h

@[simp] theorem length_replaceKey :
    (replaceKey key y xs).length = xs.length := by
  induction xs with
  | nil => rfl
  | cons z xs ih =>
      simp only [replaceKey]
      split <;> simp [ih]

theorem map_key_replaceKey :
    (replaceKey key y xs).map key = xs.map key := by
  induction xs with
  | nil => rfl
  | cons z xs ih =>
      simp only [replaceKey]
      split
      · next hz => simp [hz]
      · simp [ih]

theorem mem_of_mem_replaceKey (h : x ∈ replaceKey key y xs) :
    x = y ∨ x ∈ xs := by
  rcases absent_or_first key (key y) xs with
    habsent | ⟨front, z, back, rfl, hz, hfront⟩
  · rw [replaceKey_absent habsent] at h
    exact Or.inr h
  · rw [replaceKey_first hz hfront, List.mem_append, List.mem_cons] at h
    rcases h with hx | rfl | hx
    · exact Or.inr (List.mem_append_left _ hx)
    · exact Or.inl rfl
    · exact Or.inr (List.mem_append_right _ (List.mem_cons_of_mem _ hx))

/-- A field in which the record found and its replacement agree keeps its
values. -/
theorem map_replaceKey_of_find {β : Type*} {f : α → β}
    (hfind : findKey key (key y) xs = some x) (hf : f y = f x) :
    (replaceKey key y xs).map f = xs.map f := by
  rcases absent_or_first key (key y) xs with
    habsent | ⟨front, z, back, rfl, hz, hfront⟩
  · rw [replaceKey_absent habsent]
  · rw [findKey_first hz hfront] at hfind
    obtain rfl := Option.some.inj hfind
    rw [replaceKey_first hz hfront, List.map_append, List.map_append,
      List.map_cons, List.map_cons, hf]

/-- Records that a test rejects can be removed before it. -/
theorem filter_removeKey {test : α → Bool}
    (h : ∀ x ∈ xs, key x = k → test x = false) :
    (removeKey key k xs).filter test = xs.filter test := by
  rcases absent_or_first key k xs with
    habsent | ⟨front, z, back, rfl, hz, hfront⟩
  · rw [removeKey_absent habsent]
  · have hrejected : test z = false := h z (by simp) hz
    rw [removeKey_first hz hfront, List.filter_append, List.filter_append,
      List.filter_cons_of_neg (by simp [hrejected])]

/-- Records that a test rejects can be replaced before it. -/
theorem filter_replaceKey {test : α → Bool}
    (h : ∀ x ∈ xs, key x = key y → test x = false) (hy : test y = false) :
    (replaceKey key y xs).filter test = xs.filter test := by
  rcases absent_or_first key (key y) xs with
    habsent | ⟨front, z, back, rfl, hz, hfront⟩
  · rw [replaceKey_absent habsent]
  · have hrejected : test z = false := h z (by simp) hz
    rw [replaceKey_first hz hfront, List.filter_append, List.filter_append,
      List.filter_cons_of_neg (by simp [hy]),
      List.filter_cons_of_neg (by simp [hrejected])]

theorem removeKey_sublist : (removeKey key k xs).Sublist xs :=
  List.eraseP_sublist

theorem mem_of_mem_removeKey (h : x ∈ removeKey key k xs) : x ∈ xs :=
  removeKey_sublist.subset h

/-- Removing a key that occurs frees exactly one place. -/
theorem length_removeKey (h : ∃ x ∈ xs, key x = k) :
    (removeKey key k xs).length + 1 = xs.length := by
  obtain ⟨x, hx, hkey⟩ := h
  have hlength := List.length_eraseP_of_mem (p := fun x => key x = k) hx
    (by simpa using hkey)
  have hpos := List.length_pos_of_mem hx
  rw [removeKey, hlength]
  omega

theorem mem_replaceKey_self (h : ∃ x ∈ xs, key x = key y) :
    y ∈ replaceKey key y xs := by
  rcases absent_or_first key (key y) xs with
    habsent | ⟨front, z, back, rfl, hz, hfront⟩
  · obtain ⟨x, hx, hkey⟩ := h
    exact absurd hkey (habsent x hx)
  · rw [replaceKey_first hz hfront]
    simp

/-- A record put in place of another one is removed in its stead. -/
theorem removeKey_replaceKey :
    removeKey key (key y) (replaceKey key y xs) =
      removeKey key (key y) xs := by
  rcases absent_or_first key (key y) xs with
    habsent | ⟨front, z, back, rfl, hz, hfront⟩
  · rw [replaceKey_absent habsent]
  · rw [replaceKey_first hz hfront, removeKey_first rfl hfront,
      removeKey_first hz hfront]

/-! ## The last record of a key -/

variable (key) in
/-- The last record with the key `k`. -/
def lastKey (k : κ) (xs : List α) : Option α := findKey key k xs.reverse

theorem lastKey_snoc_self : lastKey key (key x) (xs ++ [x]) = some x := by
  simp [lastKey, findKey]

theorem lastKey_snoc_of_ne (h : key x ≠ k) :
    lastKey key k (xs ++ [x]) = lastKey key k xs := by
  simp [lastKey, findKey, h]

/-! ## Distinct keys -/

theorem mem_removeKey (hnodup : (xs.map key).Nodup) :
    x ∈ removeKey key k xs ↔ x ∈ xs ∧ key x ≠ k := by
  rcases absent_or_first key k xs with
    habsent | ⟨front, z, back, rfl, hz, hfront⟩
  · rw [removeKey_absent habsent]
    exact ⟨fun hx => ⟨hx, habsent x hx⟩, And.left⟩
  · rw [removeKey_first hz hfront]
    have hback : ∀ w ∈ back, key w ≠ k := by
      intro w hw heq
      simp only [List.map_append, List.map_cons, List.nodup_append,
        List.nodup_cons, List.mem_map, not_exists, not_and] at hnodup
      exact hnodup.2.1.1 w hw (heq.trans hz.symm)
    grind

theorem mem_replaceKey (hnodup : (xs.map key).Nodup)
    (hy : ∃ z ∈ xs, key z = key y) :
    x ∈ replaceKey key y xs ↔ x = y ∨ (x ∈ xs ∧ key x ≠ key y) := by
  rcases absent_or_first key (key y) xs with
    habsent | ⟨front, z, back, rfl, hz, hfront⟩
  · obtain ⟨z, hz, hkey⟩ := hy
    exact absurd hkey (habsent z hz)
  · have hothers := mem_removeKey (x := x) (k := key y) hnodup
    rw [removeKey_first hz hfront] at hothers
    rw [replaceKey_first hz hfront, ← hothers]
    simp only [List.mem_append, List.mem_cons]
    tauto

theorem nodup_map_removeKey {β : Type*} {f : α → β}
    (hnodup : (xs.map f).Nodup) : ((removeKey key k xs).map f).Nodup :=
  hnodup.sublist (removeKey_sublist.map f)

/-- A record with a new value of a field keeps the field distinct. -/
theorem nodup_map_concat {β : Type*} {f : α → β} (hnodup : (xs.map f).Nodup)
    (hx : ∀ y ∈ xs, f y ≠ f x) : ((xs ++ [x]).map f).Nodup := by
  rw [List.map_append, List.nodup_append]
  refine ⟨hnodup, List.nodup_singleton _, ?_⟩
  rintro _ hold _ hnew rfl
  obtain ⟨y, hy, heq⟩ := List.mem_map.mp hold
  rw [List.map_singleton, List.mem_singleton] at hnew
  exact hx y hy (heq.trans hnew)

/-- With distinct keys a record is found by its key. -/
theorem findKey_of_mem (hnodup : (xs.map key).Nodup) (hx : x ∈ xs) :
    findKey key (key x) xs = some x := by
  cases hfind : findKey key (key x) xs with
  | none => exact absurd rfl (findKey_eq_none_iff.mp hfind x hx)
  | some z =>
      obtain ⟨hz, hkey⟩ := mem_of_findKey hfind
      rw [List.inj_on_of_nodup_map hnodup hz hx hkey]

/-- With distinct keys every record is the last one with its key. -/
theorem lastKey_of_mem (hnodup : (xs.map key).Nodup) (hx : x ∈ xs) :
    lastKey key (key x) xs = some x := by
  apply findKey_of_mem
  · rw [List.map_reverse, List.nodup_reverse]
    exact hnodup
  · exact List.mem_reverse.mpr hx

/-- With distinct keys the records of one key are a single one. -/
theorem filter_key_of_mem (hnodup : (xs.map key).Nodup) (hx : x ∈ xs) :
    xs.filter (fun z => key z = key x) = [x] := by
  induction xs with
  | nil => cases hx
  | cons z xs ih =>
      rw [List.map_cons, List.nodup_cons] at hnodup
      rcases List.mem_cons.mp hx with rfl | hx
      · rw [List.filter_cons_of_pos (by simp)]
        congr 1
        rw [List.filter_eq_nil_iff]
        intro w hw hkey
        apply hnodup.1
        rw [← of_decide_eq_true hkey]
        exact List.mem_map_of_mem hw
      · have hne : key z ≠ key x := by
          intro heq
          rw [heq] at hnodup
          exact hnodup.1 (List.mem_map_of_mem hx)
        rw [List.filter_cons_of_neg (by simpa using hne)]
        exact ih hnodup.2 hx

/-! ## Bounded sequences -/

/-- A sequence of at most `capacity` records. -/
structure BoundedSeq (α : Type*) (capacity : ℕ) where
  items : List α
  bounded : items.length ≤ capacity

namespace BoundedSeq

variable {capacity : ℕ}

/-- The empty sequence. -/
def empty (α : Type*) (capacity : ℕ) : BoundedSeq α capacity :=
  ⟨[], Nat.zero_le _⟩

/-- Append a record, unless the sequence is full. -/
def append (s : BoundedSeq α capacity) (x : α) :
    Option (BoundedSeq α capacity) :=
  if h : s.items.length < capacity then
    some ⟨s.items ++ [x], by simpa using Nat.succ_le_of_lt h⟩
  else none

variable (key)

/-- Remove the first record with the key, if there is one. -/
def remove (s : BoundedSeq α capacity) (k : κ) :
    Option (BoundedSeq α capacity) :=
  if ∃ x ∈ s.items, key x = k then
    some ⟨removeKey key k s.items,
      Nat.le_trans removeKey_sublist.length_le s.bounded⟩
  else none

/-- Replace the first record with the key of `y` by `y`, if there is one. -/
def replace (s : BoundedSeq α capacity) (y : α) :
    Option (BoundedSeq α capacity) :=
  if ∃ x ∈ s.items, key x = key y then
    some ⟨replaceKey key y s.items, by simpa using s.bounded⟩
  else none

end BoundedSeq

end SippScen.Support
