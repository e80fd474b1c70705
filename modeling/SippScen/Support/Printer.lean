import Mathlib.Data.List.DropRight
import Mathlib.Data.List.Forall2
import Mathlib.Data.List.TakeWhile

/-!
# Texts that show where they end

A printer separates values, up to a relation, if its text tells which value was
printed and where the text ends, whatever follows it.  Printers that separate
can be put one after the other and can be used for lists.
-/

namespace SippScen.Support

variable {α β : Type*}

/-- The text tells the value up to `same` and where it ends. -/
def Separates (print : α → List Char) (same : α → α → Prop) : Prop :=
  ∀ a b s t, print a ++ s = print b ++ t ↔ same a b ∧ s = t

variable {print print' : α → List Char} {same same' : α → α → Prop}

theorem separates_text (text : List Char) :
    Separates (fun _ : α => text) fun _ _ => True := by
  intro a b s t
  rw [List.append_cancel_left_eq, true_and]

theorem Separates.append (h : Separates print same)
    (h' : Separates print' same') :
    Separates (fun a => print a ++ print' a)
      fun a b => same a b ∧ same' a b := by
  intro a b s t
  rw [List.append_assoc, List.append_assoc, h, h', and_assoc]

theorem separates_of_length (h : ∀ a b, (print a).length = (print b).length) :
    Separates print fun a b => print a = print b := by
  intro a b s t
  constructor
  · intro heq
    exact List.append_inj heq (h a b)
  · rintro ⟨heq, rfl⟩
    rw [heq]

/-- A word, and what follows it: the first stop shows where the word ends. -/
theorem separates_word (stop : Char → Bool) (word : α → List Char)
    (rest : List Char → List Char)
    (hword : ∀ a, ∀ c ∈ word a, stop c = false)
    (hrest : ∀ w, ∃ c cs, rest w = c :: cs ∧ stop c = true) :
    Separates (fun a => word a ++ rest (word a))
      fun a b => word a = word b := by
  have htake : ∀ a s, (word a ++ rest (word a) ++ s).takeWhile
      (fun c => !stop c) = word a := by
    intro a s
    obtain ⟨c, cs, hcs, hstop⟩ := hrest (word a)
    rw [List.append_assoc, hcs, List.takeWhile_append_of_pos
      (by simpa using hword a), List.cons_append,
      List.takeWhile_cons_of_neg (by simp [hstop]), List.append_nil]
  intro a b s t
  change word a ++ rest (word a) ++ s = word b ++ rest (word b) ++ t ↔
    word a = word b ∧ s = t
  constructor
  · intro heq
    have hsame : word a = word b := by
      rw [← htake a s, heq, htake b t]
    rw [hsame] at heq
    exact ⟨hsame, List.append_cancel_left heq⟩
  · rintro ⟨hsame, rfl⟩
    rw [hsame]

theorem Separates.congr (h : Separates print same)
    (hsame : ∀ a b, same a b ↔ same' a b) : Separates print same' := by
  intro a b s t
  rw [h, hsame]

/-- The texts of two lists are equal exactly when their values are the same one
by one. -/
theorem Separates.flatMap_eq_iff (h : Separates print same)
    (hne : ∀ a, print a ≠ []) {as bs : List α} :
    as.flatMap print = bs.flatMap print ↔ List.Forall₂ same as bs := by
  induction as generalizing bs with
  | nil =>
      cases bs with
      | nil => simp
      | cons b bs => simp [hne b]
  | cons a as ih =>
      cases bs with
      | nil => simp [hne a]
      | cons b bs =>
          rw [List.flatMap_cons, List.flatMap_cons, h, ih,
            List.forall₂_cons]

/-- Padding to a width shows a text up to the padding at its end. -/
theorem padded_eq_iff {c : Char} {width : ℕ} {s t : List Char}
    (hs : s.length ≤ width) (ht : t.length ≤ width) :
    s ++ List.replicate (width - s.length) c =
        t ++ List.replicate (width - t.length) c ↔
      s.rdropWhile (· = c) = t.rdropWhile (· = c) := by
  have hdrop : ∀ (u : List Char) (n : ℕ),
      (u ++ List.replicate n c).rdropWhile (· = c) = u.rdropWhile (· = c) := by
    intro u n
    induction n with
    | zero => rw [List.replicate_zero, List.append_nil]
    | succ n ih =>
        rw [List.replicate_succ', ← List.append_assoc,
          List.rdropWhile_concat_pos _ _ _ (by simp), ih]
  have hpad : ∀ u : List Char, u.length ≤ width →
      u ++ List.replicate (width - u.length) c =
        u.rdropWhile (· = c) ++
          List.replicate (width - (u.rdropWhile (· = c)).length) c := by
    intro u hu
    have htail : u.rtakeWhile (· = c) =
        List.replicate (u.rtakeWhile (· = c)).length c :=
      List.eq_replicate_of_mem fun x hx => by
        simpa using List.mem_rtakeWhile_imp hx
    have hsplit : u.rdropWhile (· = c) ++ u.rtakeWhile (· = c) = u :=
      List.rdropWhile_append_rtakeWhile
    have hlength := congrArg List.length hsplit
    rw [List.length_append] at hlength
    calc u ++ List.replicate (width - u.length) c
        = u.rdropWhile (· = c) ++
            (List.replicate (u.rtakeWhile (· = c)).length c ++
              List.replicate (width - u.length) c) := by
          rw [← List.append_assoc, ← htail, hsplit]
      _ = u.rdropWhile (· = c) ++
            List.replicate (width - (u.rdropWhile (· = c)).length) c := by
          rw [List.replicate_append_replicate]
          congr 2
          omega
  constructor
  · intro heq
    rw [← hdrop s (width - s.length), heq, hdrop]
  · intro heq
    rw [hpad s hs, hpad t ht, heq]

end SippScen.Support
