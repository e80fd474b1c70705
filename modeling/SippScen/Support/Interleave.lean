import Mathlib.Data.List.Basic

/-!
# Interleavings

A list interleaves others if it consists of their elements, each list in its
own order.
-/

namespace SippScen.Support

variable {α : Type*}

/-- `Interleave xs ys zs`: `zs` merges `xs` and `ys`. -/
inductive Interleave : List α → List α → List α → Prop
  | nil : Interleave [] [] []
  | left {x : α} {xs ys zs : List α} :
      Interleave xs ys zs → Interleave (x :: xs) ys (x :: zs)
  | right {y : α} {xs ys zs : List α} :
      Interleave xs ys zs → Interleave xs (y :: ys) (y :: zs)

/-- `zs` merges all lists of a list. -/
def InterleaveAll : List (List α) → List α → Prop
  | [], zs => zs = []
  | xs :: rest, zs => ∃ ys, InterleaveAll rest ys ∧ Interleave xs ys zs

variable {a : α} {xs ys zs : List α} {lists : List (List α)}

theorem Interleave.mem_iff (h : Interleave xs ys zs) :
    a ∈ zs ↔ a ∈ xs ∨ a ∈ ys := by
  induction h with
  | nil => simp
  | left _ ih => simp only [List.mem_cons, ih, or_assoc]
  | right _ ih => simp only [List.mem_cons, ih, or_left_comm]

theorem InterleaveAll.mem_iff (h : InterleaveAll lists zs) :
    a ∈ zs ↔ ∃ xs ∈ lists, a ∈ xs := by
  induction lists generalizing zs with
  | nil =>
      obtain rfl := h
      simp
  | cons xs rest ih =>
      obtain ⟨ys, hrest, hmerge⟩ := h
      simp only [hmerge.mem_iff, ih hrest, List.mem_cons, exists_eq_or_imp]

theorem Interleave.perm (h : Interleave xs ys zs) : zs.Perm (xs ++ ys) := by
  induction h with
  | nil => exact .nil
  | left _ ih => exact ih.cons _
  | right _ ih => exact (ih.cons _).trans List.perm_middle.symm

theorem InterleaveAll.perm (h : InterleaveAll lists zs) :
    zs.Perm lists.flatten := by
  induction lists generalizing zs with
  | nil => exact h ▸ List.Perm.refl _
  | cons xs rest ih =>
      obtain ⟨ys, hrest, hmerge⟩ := h
      exact hmerge.perm.trans ((ih hrest).append_left xs)

theorem interleave_append (xs ys : List α) : Interleave xs ys (xs ++ ys) := by
  induction xs with
  | nil =>
      induction ys with
      | nil => exact .nil
      | cons y ys ih => exact .right ih
  | cons x xs ih => exact .left ih

theorem interleaveAll_flatten (lists : List (List α)) :
    InterleaveAll lists lists.flatten := by
  induction lists with
  | nil => rfl
  | cons xs rest ih => exact ⟨rest.flatten, ih, interleave_append _ _⟩

/-! ## Sequences one after the other -/

/-- An element that does not occur in the front of a list occurs after it. -/
theorem front_prefix {front rest before after : List α} {x : α}
    (h : front ++ rest = before ++ x :: after) (hx : x ∉ front) :
    ∃ middle, before = front ++ middle ∧ rest = middle ++ x :: after := by
  rcases List.append_eq_append_iff.mp h with
    ⟨middle, hbefore, hrest⟩ | ⟨middle, hfront, hafter⟩
  · exact ⟨middle, hbefore, hrest⟩
  · rcases middle with _ | ⟨y, middle⟩
    · exact ⟨[], by simpa using hfront.symm, by simpa using hafter.symm⟩
    · obtain ⟨rfl, -⟩ := List.cons.inj hafter
      exact absurd (hfront ▸ List.mem_append_right _ List.mem_cons_self) hx

theorem exists_first {P : α → Prop} {xs : List α} {x : α} (hx : x ∈ xs)
    (hP : P x) :
    ∃ front y rest, xs = front ++ y :: rest ∧ P y ∧ ∀ z ∈ front, ¬ P z := by
  induction xs with
  | nil => exact absurd hx List.not_mem_nil
  | cons y rest ih =>
      by_cases hy : P y
      · exact ⟨[], y, rest, rfl, hy, by simp⟩
      · have hrest : x ∈ rest := by
          rcases List.mem_cons.mp hx with rfl | hrest
          · exact absurd hP hy
          · exact hrest
        obtain ⟨front, z, later, rfl, hz, hfront⟩ := ih hrest
        refine ⟨y :: front, z, later, rfl, hz, fun u hu => ?_⟩
        rcases List.mem_cons.mp hu with rfl | hu
        · exact hy
        · exact hfront u hu

/-- An element that does not occur in the back of a list occurs before it. -/
theorem back_suffix {front back before after : List α} {x : α}
    (h : front ++ back = before ++ x :: after) (hx : x ∉ back) :
    ∃ middle, front = before ++ x :: middle ∧ after = middle ++ back := by
  rcases List.append_eq_append_iff.mp h with
    ⟨middle, -, hback⟩ | ⟨middle, hfront, hafter⟩
  · exact absurd (hback ▸ List.mem_append_right _ List.mem_cons_self) hx
  · rcases middle with _ | ⟨y, middle⟩
    · simp only [List.nil_append] at hafter
      exact absurd (hafter ▸ List.mem_cons_self) hx
    · obtain ⟨rfl, hlater⟩ := List.cons.inj hafter
      exact ⟨middle, hfront, hlater⟩

end SippScen.Support
