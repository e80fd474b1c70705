import Mathlib.Data.List.Basic
import Mathlib.Data.List.Nodup
import Mathlib.Logic.Function.Basic

/-!
# Linked segments in an indexed memory

Cells are named by indices, and links are values that may or may not address a
cell.  `Linked deref next a path b` says that following `next` from the link
`a` visits the cells of `path` in order and arrives at the link `b`.  The rules
below are the ones pointer code needs: splitting a segment, writing a cell
outside of it, taking a cell out, and putting one in.
-/

namespace SippScen.Support

variable {ι κ : Type*}

/-- Following `next` from the link `a` visits `path` and arrives at `b`. -/
def Linked (deref : κ → Option ι) (next : ι → κ) : κ → List ι → κ → Prop
  | a, [], b => a = b
  | a, i :: path, b => deref a = some i ∧ Linked deref next (next i) path b

/-- The link reached by following `next` exactly `n` times from `a`. -/
def follow (deref : κ → Option ι) (next : ι → κ) : ℕ → κ → Option κ
  | 0, a => some a
  | n + 1, a => (deref a).bind fun i => follow deref next n (next i)

/-- The cells visited by following `next` from `a`, at most `n` of them. -/
def visit (deref : κ → Option ι) (next : ι → κ) : ℕ → κ → List ι
  | 0, _ => []
  | n + 1, a =>
      match deref a with
      | some i => i :: visit deref next n (next i)
      | none => []

variable {deref : κ → Option ι} {next : ι → κ} {a b c : κ} {i j x : ι}
  {path front back : List ι}

@[simp] theorem linked_nil : Linked deref next a [] b ↔ a = b := Iff.rfl

@[simp] theorem linked_cons :
    Linked deref next a (i :: path) b ↔
      deref a = some i ∧ Linked deref next (next i) path b := Iff.rfl

theorem linked_append :
    Linked deref next a (front ++ back) b ↔
      ∃ m, Linked deref next a front m ∧ Linked deref next m back b := by
  induction front generalizing a with
  | nil => simp
  | cons i front ih =>
      simp only [List.cons_append, linked_cons, ih]
      constructor
      · rintro ⟨hi, m, hfront, hback⟩
        exact ⟨m, ⟨hi, hfront⟩, hback⟩
      · rintro ⟨m, ⟨hi, hfront⟩, hback⟩
        exact ⟨hi, m, hfront, hback⟩

/-- The cell at a known position is the one addressed by the link that the
front part of the segment arrives at. -/
theorem linked_append_cons :
    Linked deref next a (front ++ i :: back) b ↔
      ∃ m, Linked deref next a front m ∧ deref m = some i ∧
        Linked deref next (next i) back b := by
  simp [linked_append]

theorem linked_congr {next' : ι → κ} (h : ∀ i ∈ path, next' i = next i) :
    Linked deref next' a path b ↔ Linked deref next a path b := by
  induction path generalizing a with
  | nil => simp
  | cons i path ih =>
      have hi : next' i = next i := h i (by simp)
      have hrest : ∀ j ∈ path, next' j = next j := fun j hj =>
        h j (by simp [hj])
      simp only [linked_cons, hi, ih hrest]

theorem linked_update_of_not_mem [DecidableEq ι] (hi : i ∉ path) :
    Linked deref (Function.update next i c) a path b ↔
      Linked deref next a path b := by
  apply linked_congr
  intro j hj
  have hji : j ≠ i := ne_of_mem_of_not_mem hj hi
  exact Function.update_of_ne hji _ _

theorem Linked.follow_eq (h : Linked deref next a path b) :
    follow deref next path.length a = some b := by
  induction path generalizing a with
  | nil => simpa [follow] using h
  | cons i path ih =>
      obtain ⟨hi, hrest⟩ := h
      simp [follow, hi, ih hrest]

theorem Linked.visit_eq (h : Linked deref next a (front ++ back) b) :
    visit deref next front.length a = front := by
  induction front generalizing a with
  | nil => rfl
  | cons i front ih =>
      obtain ⟨hi, hrest⟩ := h
      simp [visit, hi, ih hrest]

/-- Taking the cell `x` out of a segment by letting its predecessor `i` point
past it. -/
theorem Linked.unlink [DecidableEq ι]
    (h : Linked deref next a (front ++ i :: x :: back) b)
    (hnodup : (front ++ i :: x :: back).Nodup) :
    Linked deref (Function.update next i (next x)) a
      (front ++ i :: back) b := by
  obtain ⟨m, hfront, hm, hx, hback⟩ := linked_append_cons.mp h
  have hi : i ∉ front ∧ i ∉ back := by
    simp only [List.nodup_append, List.nodup_cons, List.mem_cons] at hnodup
    grind
  refine linked_append_cons.mpr ⟨m, ?_, hm, ?_⟩
  · exact (linked_update_of_not_mem hi.1).mpr hfront
  · rw [Function.update_self]
    exact (linked_update_of_not_mem hi.2).mpr hback

/-- Putting the cell `x` back behind `i`: first `x` takes over the successor
of `i`, then `i` points to `x`. -/
theorem Linked.insertAfter [DecidableEq ι]
    (h : Linked deref next a (front ++ i :: back) b)
    (hnodup : (front ++ i :: back).Nodup)
    (hx : x ∉ front ++ i :: back) (hc : deref c = some x) :
    Linked deref (Function.update (Function.update next x (next i)) i c) a
      (front ++ i :: x :: back) b := by
  obtain ⟨m, hfront, hm, hback⟩ := linked_append_cons.mp h
  simp only [List.mem_append, List.mem_cons, not_or] at hx
  obtain ⟨hxfront, hxi, hxback⟩ := hx
  have hi : i ∉ front ∧ i ∉ back := by
    simp only [List.nodup_append, List.nodup_cons] at hnodup
    grind
  refine linked_append_cons.mpr ⟨m, ?_, hm, ?_⟩
  · rw [linked_update_of_not_mem hi.1, linked_update_of_not_mem hxfront]
    exact hfront
  · rw [Function.update_self, linked_cons, Function.update_of_ne hxi,
      Function.update_self, linked_update_of_not_mem hi.2,
      linked_update_of_not_mem hxback]
    exact ⟨hc, hback⟩

end SippScen.Support
