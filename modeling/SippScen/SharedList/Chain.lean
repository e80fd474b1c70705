import Mathlib.Data.List.FinRange
import SippScen.SharedList.Model

/-!
# The node chain

All nodes of the segment form one chain from `head` to `-1`, the slots in use
in front of the free ones.  `Layout l used free` says so.  Each operation is
described by what it does to the two parts, for every position of the node
concerned: at the head, last in use, in an emptied list and in a full one.
-/

namespace SippScen.SharedList

open SippScen.Support

variable {N : ℕ}

theorem deref_eq_some_iff {h : ℤ} {i : Fin N} :
    deref N h = some i ↔ h = i := by
  unfold deref
  split
  · rw [Option.some.injEq, Fin.ext_iff]
    simp only
    omega
  · have := i.isLt
    simp only [reduceCtorEq, false_iff]
    omega

@[simp] theorem deref_coe (i : Fin N) : deref N i = some i :=
  deref_eq_some_iff.mpr rfl

@[simp] theorem deref_neg_one : deref N (-1) = none := by
  simp [deref]

namespace SharedLst

variable {l : SharedLst N} {i x : Fin N} {h : ℤ} {d : Data}

@[simp] theorem setData_next : (l.setData i d).next = l.next := by
  funext j
  by_cases hj : j = i <;> simp [setData, next, hj]

@[simp] theorem setData_data :
    (l.setData i d).data = Function.update l.data i d := by
  funext j
  by_cases hj : j = i <;> simp [setData, data, hj]

@[simp] theorem setNext_next :
    (l.setNext i h).next = Function.update l.next i (toInt16 h) := by
  funext j
  by_cases hj : j = i <;> simp [setNext, next, hj]

@[simp] theorem setNext_data : (l.setNext i h).data = l.data := by
  funext j
  by_cases hj : j = i <;> simp [setNext, data, hj]

@[simp] theorem setData_head : (l.setData i d).head = l.head := rfl

@[simp] theorem setData_count : (l.setData i d).count = l.count := rfl

@[simp] theorem setCount_next {c : ℤ} : (l.setCount c).next = l.next := rfl

@[simp] theorem setCount_data {c : ℤ} : (l.setCount c).data = l.data := rfl

@[simp] theorem setCount_count {c : ℤ} :
    (l.setCount c).count = toInt16 c := rfl

@[simp] theorem setCount_head {c : ℤ} : (l.setCount c).head = l.head := rfl

@[simp] theorem setNext_head : (l.setNext i h).head = l.head := rfl

@[simp] theorem setNext_count : (l.setNext i h).count = l.count := rfl

end SharedLst

open SharedLst

/-- Following `next` from `head` visits the slots of `used`, then those of
`free`, every slot of the array once, and ends in `-1`; `count` is the number
of slots in use. -/
structure Layout (l : SharedLst N) (used free : List (Fin N)) : Prop where
  linked : Linked (deref N) l.next l.head (used ++ free) (-1)
  nodup : (used ++ free).Nodup
  full : (used ++ free).length = N
  count_eq : l.count = used.length

namespace Layout

variable {l : SharedLst N} {used free : List (Fin N)} {x : Fin N}

theorem toNat_count (h : Layout l used free) :
    l.count.toNat = used.length := by
  simp [h.count_eq]

theorem used_length_le (h : Layout l used free) : used.length ≤ N := by
  have := h.full
  simp only [List.length_append] at this
  omega

theorem usedSlots_eq (h : Layout l used free) : l.usedSlots = used := by
  rw [usedSlots, h.toNat_count]
  exact h.linked.visit_eq

theorem chain_eq (h : Layout l used free) : l.chain = used ++ free := by
  have hlinked : Linked (deref N) l.next l.head ((used ++ free) ++ []) (-1) := by
    simpa using h.linked
  have hvisit := hlinked.visit_eq
  rwa [h.full] at hvisit

theorem records_eq (h : Layout l used free) :
    l.records = used.map l.data := by
  rw [records, h.usedSlots_eq]

theorem count_eq_records (h : Layout l used free) :
    l.count = l.records.length := by
  rw [h.records_eq, List.length_map, h.count_eq]

theorem perm_finRange (h : Layout l used free) :
    (used ++ free).Perm (List.finRange N) := by
  apply List.perm_of_nodup_nodup_toFinset_eq h.nodup (List.nodup_finRange N)
  have hcard : (used ++ free).toFinset.card = Fintype.card (Fin N) := by
    rw [List.toFinset_card_of_nodup h.nodup, h.full, Fintype.card_fin]
  rw [Finset.card_eq_iff_eq_univ] at hcard
  rw [hcard]
  simp

end Layout

/-- The links stored in a chain are `-1` or indices of the array. -/
theorem link_bounds {next : Fin N → ℤ} {a : ℤ} {path : List (Fin N)}
    (hlinked : Linked (deref N) next a path (-1)) :
    (-1 ≤ a ∧ a < N) ∧ ∀ i ∈ path, -1 ≤ next i ∧ next i < N := by
  induction path generalizing a with
  | nil =>
      obtain rfl : a = -1 := hlinked
      simp
      omega
  | cons i path ih =>
      obtain ⟨hi, hrest⟩ := hlinked
      obtain ⟨hnext, htail⟩ := ih hrest
      have := deref_eq_some_iff.mp hi
      refine ⟨by omega, ?_⟩
      intro j hj
      rcases List.mem_cons.mp hj with rfl | hj
      · exact hnext
      · exact htail j hj

/-- On arrays of at most 32767 nodes a link survives the conversion to
`short`. -/
theorem toInt16_link {h : ℤ} (hN : N ≤ 32767) (hlink : -1 ≤ h ∧ h < N) :
    toInt16 h = h :=
  toInt16_of_mem (by omega) (by omega)

/-! ## The initial chain -/

theorem initializeList_linked (mem : SharedLst N) (hN : N ≤ 32767)
    {k : ℕ} (hk : k ≤ N) :
    Linked (deref N) mem.initializeList.next (if k < N then (k : ℤ) else -1)
      ((List.finRange N).drop k) (-1) := by
  induction hn : N - k generalizing k with
  | zero =>
      obtain rfl : k = N := by omega
      simp [List.drop_eq_nil_of_le]
  | succ n ih =>
      have hlt : k < N := by omega
      have hrest := ih (k := k + 1) (by omega) (by omega)
      rw [List.drop_eq_getElem_cons (by simpa using hlt), linked_cons]
      constructor
      · simp [hlt, deref_eq_some_iff]
      · have hnext : mem.initializeList.next ⟨k, hlt⟩ =
            if k + 1 < N then ((k + 1 : ℕ) : ℤ) else -1 := by
          simp only [initializeList, SharedLst.next]
          split
          · simp only [Nat.cast_add, Nat.cast_one]
            exact toInt16_of_mem (by omega) (by omega)
          · rfl
        simpa [hnext] using hrest

theorem initializeList_layout (mem : SharedLst N) (hpos : 0 < N)
    (hN : N ≤ 32767) :
    Layout mem.initializeList [] (List.finRange N) where
  linked := by
    have h := initializeList_linked mem hN (Nat.zero_le N)
    simpa [hpos, initializeList] using h
  nodup := by simpa using List.nodup_finRange N
  full := by simp
  count_eq := by simp [initializeList]

/-! ## Reading the chain -/

/-- The loop of `fetch_element` finds the first slot with the port. -/
theorem fetchLoop_eq {l : SharedLst N} {a b : ℤ} {front back : List (Fin N)}
    (port : ℤ) (h : Linked (deref N) l.next a (front ++ back) b) :
    l.fetchLoop port front.length a =
      some (front.find? fun i => (l.data i).port = port) := by
  induction front generalizing a with
  | nil => rfl
  | cons i front ih =>
      obtain ⟨hi, hrest⟩ := h
      by_cases hport : (l.data i).port = port
      · simp [fetchLoop, hi, hport]
      · simp [fetchLoop, hi, hport, ih hrest]

theorem Layout.fetchElement_eq {l : SharedLst N} {used free : List (Fin N)}
    (h : Layout l used free) (port : ℤ) :
    l.fetchElement port =
      some (used.find? fun i => (l.data i).port = port) := by
  rw [fetchElement, h.toNat_count]
  exact fetchLoop_eq port h.linked

/-- The early exit of `print_list` at a final node skips nothing. -/
theorem printLoop_eq {l : SharedLst N} {a : ℤ} {front back : List (Fin N)}
    (h : Linked (deref N) l.next a (front ++ back) (-1)) :
    l.printLoop front.length a =
      some (front.flatMap fun i => printLine (l.data i)) := by
  induction front generalizing a with
  | nil => rfl
  | cons i front ih =>
      obtain ⟨hi, hrest⟩ := h
      by_cases hlast : l.next i = -1
      · have hempty : front = [] := by
          cases front with
          | nil => rfl
          | cons j front => simp [hlast] at hrest
        simp [printLoop, hi, hempty]
      · simp [printLoop, hi, hlast, ih hrest]

theorem Layout.printList_eq {l : SharedLst N} {used free : List (Fin N)}
    (h : Layout l used free) :
    l.printList = some (l.records.flatMap printLine) := by
  rw [printList, h.toNat_count, printLoop_eq h.linked, h.records_eq,
    List.flatMap_map]

/-! ## Writing one slot -/

/-- Overwriting the record of a slot leaves the chain as it is. -/
theorem Layout.setData {l : SharedLst N} {used free : List (Fin N)}
    (h : Layout l used free) (i : Fin N) (d : Data) :
    Layout (l.setData i d) used free where
  linked := by simpa using h.linked
  nodup := h.nodup
  full := h.full
  count_eq := by simpa using h.count_eq

theorem Layout.addElement_full {l : SharedLst N} {used : List (Fin N)}
    (h : Layout l used []) (d : Data) :
    l.addElement d = some (.error, l) := by
  have hfull := h.full
  simp only [List.append_nil] at hfull
  have hcount : l.count ≥ N := by simp [h.count_eq, hfull]
  simp [addElement, hcount]

/-- `add_element` fills the first free slot. -/
theorem Layout.addElement_free {l : SharedLst N} {used free : List (Fin N)}
    {i : Fin N} (h : Layout l used (i :: free)) (hN : N ≤ 32767) (d : Data) :
    ∃ l', l.addElement d = some (.success, l') ∧
      Layout l' (used ++ [i]) free ∧
      l'.data = Function.update l.data i d := by
  have hfull := h.full
  simp only [List.length_append, List.length_cons] at hfull
  have hcount : ¬ l.count ≥ N := by
    rw [h.count_eq]
    omega
  obtain ⟨m, hfront, hm, -⟩ := linked_append_cons.mp h.linked
  have hadvance : l.advance l.count.toNat l.head = some m := by
    rw [advance, h.toNat_count]
    exact hfront.follow_eq
  have hshort : toInt16 (l.count + 1) = l.count + 1 := by
    have := h.count_eq
    exact toInt16_of_mem (by omega) (by omega)
  refine ⟨(l.setData i d).setCount (l.count + 1), ?_, ?_, ?_⟩
  · simp [addElement, hcount, hadvance, hm]
  · exact
      { linked := by simpa using h.linked
        nodup := by simpa using h.nodup
        full := by simpa using h.full
        count_eq := by
          rw [setCount_count, hshort, h.count_eq]
          simp }
  · simp

/-! ## Taking a node out and putting it back -/

theorem searchLoop_eq_none {l : SharedLst N} {a b : ℤ}
    {front back : List (Fin N)} {port : ℤ} (previous : Option ℤ)
    (h : Linked (deref N) l.next a (front ++ back) b)
    (hport : ∀ i ∈ front, (l.data i).port ≠ port) :
    l.searchLoop port front.length previous a = some none := by
  induction front generalizing a previous with
  | nil => rfl
  | cons i front ih =>
      obtain ⟨hi, hrest⟩ := h
      have hfirst : (l.data i).port ≠ port := hport i (by simp)
      have htail : ∀ j ∈ front, (l.data j).port ≠ port := fun j hj =>
        hport j (by simp [hj])
      simp [searchLoop, hi, hfirst, ih (some a) hrest htail]

/-- The index that `previous` holds once the slots of `front` were passed. -/
def previousIndex (front : List (Fin N)) : Option ℤ :=
  front.getLast?.map fun i : Fin N => ((i : ℕ) : ℤ)

/-- The search stops at the first slot with the port; `previous` then points
to the slot in front of it, if there is one. -/
theorem searchLoop_eq_some {l : SharedLst N} {a b : ℤ}
    {front back : List (Fin N)} {x : Fin N} (previous : Option ℤ) (k : ℕ)
    (h : Linked (deref N) l.next a (front ++ x :: back) b)
    (hport : ∀ i ∈ front, (l.data i).port ≠ (l.data x).port) :
    l.searchLoop (l.data x).port (front.length + 1 + k) previous a =
      some (some ((previousIndex front).or previous, (x : ℤ))) := by
  induction front generalizing a previous with
  | nil =>
      obtain ⟨hx, -⟩ := h
      obtain rfl := deref_eq_some_iff.mp hx
      simp [Nat.add_comm _ k, searchLoop, previousIndex]
  | cons i front ih =>
      obtain ⟨hi, hrest⟩ := h
      obtain rfl := deref_eq_some_iff.mp hi
      have hfirst : (l.data i).port ≠ (l.data x).port := hport i (by simp)
      have htail : ∀ j ∈ front, (l.data j).port ≠ (l.data x).port :=
        fun j hj => hport j (by simp [hj])
      have hlength : (i :: front).length + 1 + k =
          (front.length + 1 + k) + 1 := by
        simp only [List.length_cons]
        omega
      rw [hlength]
      simp only [searchLoop, deref_coe, Option.bind_eq_bind, Option.bind_some,
        if_neg hfirst, ih (some (i : ℤ)) hrest htail]
      cases hlast : front.getLast? <;>
        simp [previousIndex, List.getLast?_cons, hlast]

/-- Taking the slot `x` out of the chain, whether it is the head or not. -/
theorem unlinkNode_spec {l : SharedLst N} {front back : List (Fin N)}
    {x : Fin N} (hN : N ≤ 32767)
    (h : Linked (deref N) l.next l.head (front ++ x :: back) (-1))
    (hnodup : (front ++ x :: back).Nodup) :
    ∃ l', l.unlinkNode (previousIndex front) x x = some l' ∧
      Linked (deref N) l'.next l'.head (front ++ back) (-1) ∧
      l'.data = l.data ∧ l'.count = l.count := by
  rcases List.eq_nil_or_concat front with rfl | ⟨front, i, rfl⟩
  · obtain ⟨hx, hback⟩ := h
    have hhead : (x : ℤ) = l.head := (deref_eq_some_iff.mp hx).symm
    refine ⟨{ l with head := l.next x }, ?_, hback, rfl, rfl⟩
    simp [unlinkNode, hhead]
  · rw [List.concat_eq_append] at h hnodup ⊢
    have hhead : (x : ℤ) ≠ l.head := by
      intro heq
      have hfirst : deref N l.head = some x := by rw [← heq, deref_coe]
      cases front with
      | nil =>
          simp only [List.nil_append, List.cons_append, linked_cons] at h
          simp_all
      | cons j front =>
          simp only [List.cons_append, linked_cons] at h
          simp_all
    have hbounds := (link_bounds h).2 x (by simp)
    have hlist : (front ++ [i]) ++ x :: back = front ++ i :: x :: back := by
      simp
    rw [hlist] at h hnodup
    refine ⟨l.setNext i (l.next x), ?_, ?_, setNext_data, rfl⟩
    · simp [unlinkNode, hhead, previousIndex]
    · have hunlink := h.unlink hnodup
      simpa [toInt16_link hN hbounds] using hunlink

/-- Putting the slot `x` back behind the slot `p` at position `count - 1`. -/
theorem relinkNode_spec {l : SharedLst N} {front back : List (Fin N)}
    {p x : Fin N} (hN : N ≤ 32767)
    (h : Linked (deref N) l.next l.head (front ++ p :: back) (-1))
    (hnodup : (front ++ p :: back).Nodup) (hx : x ∉ front ++ p :: back)
    (hcount : (l.count - 1).toNat = front.length) :
    ∃ l', l.relinkNode x x = some l' ∧
      Linked (deref N) l'.next l'.head (front ++ p :: x :: back) (-1) ∧
      l'.data = l.data ∧ l'.count = l.count := by
  obtain ⟨m, hfront, hm, -⟩ := linked_append_cons.mp h
  have hadvance : l.advance (l.count - 1).toNat l.head = some m := by
    rw [advance, hcount]
    exact hfront.follow_eq
  have hbounds := (link_bounds h).2 p (by simp)
  have hnext : (if l.next p ≥ 0 then l.next p else -1) = l.next p := by
    split <;> omega
  have hindex : toInt16 (x : ℤ) = x := by
    have := x.isLt
    exact toInt16_link hN (by omega)
  refine ⟨(l.setNext x (l.next p)).setNext p x, ?_, ?_, ?_, rfl⟩
  · simp only [relinkNode, hadvance, hm, hnext, Option.bind_eq_bind,
      Option.bind_some]
  · have hinsert := h.insertAfter hnodup hx (deref_coe x)
    simpa [hindex, toInt16_link hN hbounds] using hinsert
  · simp

theorem Layout.removeElement_absent {l : SharedLst N}
    {used free : List (Fin N)} (h : Layout l used free) {port : ℤ}
    (hport : ∀ i ∈ used, (l.data i).port ≠ port) :
    l.removeElement port = some (.error, l) := by
  have hsearch := searchLoop_eq_none none h.linked hport
  simp [removeElement, h.toNat_count, hsearch]

/-- The free part after a slot was removed: the slot is inserted behind the
last slot in use, or behind the first free one when none is in use. -/
def freeAfterRemove (used : List (Fin N)) (x : Fin N) :
    List (Fin N) → List (Fin N)
  | [] => [x]
  | f :: free => if used = [] then f :: x :: free else x :: f :: free

/-- The walk to the last slot in use stops at the first free one when no slot is
in use; the removed slot is inserted where it stops. -/
theorem freeAfterRemove_split {used free : List (Fin N)} (x : Fin N)
    (h : used ++ free ≠ []) :
    ∃ u p v, used ++ free = u ++ p :: v ∧ u.length = used.length - 1 ∧
      u ++ p :: x :: v = used ++ freeAfterRemove used x free := by
  rcases List.eq_nil_or_concat used with rfl | ⟨u, p, rfl⟩
  · cases free with
    | nil => exact absurd rfl h
    | cons f free => exact ⟨[], f, free, by simp [freeAfterRemove]⟩
  · rw [List.concat_eq_append]
    refine ⟨u, p, free, by simp, by simp, ?_⟩
    cases free <;> simp [freeAfterRemove]

/-- `remove_element` takes the first slot with the port out of the slots in
use; no record is written. -/
theorem Layout.removeElement_present {l : SharedLst N}
    {front back free : List (Fin N)} {x : Fin N}
    (h : Layout l (front ++ x :: back) free) (h2 : 2 ≤ N) (hN : N ≤ 32767)
    (hport : ∀ i ∈ front, (l.data i).port ≠ (l.data x).port) :
    ∃ l', l.removeElement (l.data x).port = some (.success, l') ∧
      Layout l' (front ++ back) (freeAfterRemove (front ++ back) x free) ∧
      l'.data = l.data := by
  have hlist : (front ++ x :: back) ++ free = front ++ x :: (back ++ free) := by
    simp
  have hlinked := h.linked
  have hnodup := h.nodup
  have hfull := h.full
  rw [hlist] at hlinked hnodup hfull
  have hcount : l.count.toNat = front.length + 1 + back.length := by
    rw [h.toNat_count]
    simp
    omega
  have hsearch := searchLoop_eq_some none back.length hlinked hport
  rw [Option.or_none] at hsearch
  obtain ⟨l₁, hunlink, hlinked₁, hdata₁, hcount₁⟩ :=
    unlinkNode_spec hN hlinked hnodup
  have hx : x ∉ front ++ (back ++ free) ∧ (front ++ (back ++ free)).Nodup := by
    have hperm : (front ++ x :: (back ++ free)).Perm
        (x :: (front ++ (back ++ free))) := List.perm_middle
    exact List.nodup_cons.mp (hperm.nodup_iff.mp hnodup)
  have hshort : toInt16 (l₁.count - 1) = (front ++ back).length := by
    have hle := h.used_length_le
    have := h.count_eq
    simp only [List.length_append, List.length_cons] at this hle ⊢
    rw [toInt16_of_mem] <;> omega
  let l₂ : SharedLst N := l₁.setCount (l₁.count - 1)
  have hcount₂ : (l₂.count - 1).toNat = (front ++ back).length - 1 := by
    simp only [l₂, setCount_count, hshort]
    omega
  have hrest : (front ++ back) ++ free ≠ [] := by
    -- a segment of two nodes keeps one when `x` is taken out
    intro hnil
    simp only [List.append_eq_nil_iff] at hnil
    simp [hnil] at hfull
    omega
  obtain ⟨u, p, v, hsplit, hlen, hfree⟩ := freeAfterRemove_split x hrest
  rw [List.append_assoc] at hsplit
  rw [hsplit] at hx hlinked₁
  obtain ⟨l₃, hrelink, hlinked₃, hdata₃, hcount₃⟩ :=
    relinkNode_spec (l := l₂) hN hlinked₁ hx.2 hx.1 (hcount₂.trans hlen.symm)
  refine ⟨l₃, ?_, ?_, hdata₃.trans hdata₁⟩
  · simp only [l₂] at hrelink
    simp [removeElement, hcount, hsearch, hunlink, hrelink]
  · rw [hfree] at hlinked₃
    have hperm : (u ++ p :: x :: v).Perm (x :: (u ++ p :: v)) := by
      have hmiddle : ((u ++ [p]) ++ x :: v).Perm (x :: ((u ++ [p]) ++ v)) :=
        List.perm_middle
      simpa using hmiddle
    exact
      { linked := hlinked₃
        nodup := by
          rw [← hfree]
          exact hperm.nodup_iff.mpr (List.nodup_cons.mpr hx)
        full := by
          rw [← hfree, hperm.length_eq, List.length_cons, ← hsplit]
          simp only [List.length_append, List.length_cons] at hfull ⊢
          omega
        count_eq := hcount₃.trans hshort }

end SippScen.SharedList
