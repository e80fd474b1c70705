import SippScen.Orchestrator.Config
import SippScen.Support.Decimal

/-!
# Digits in Python

`int` and `\d` know the decimal digits of all scripts; numerals are printed
with those of ASCII.  Changing letters to lower case leaves all digits alone.
-/

namespace SippScen.Orchestrator

open SippScen.Support
open Nat (ofDigitChars toDigits)

variable {c : Char} {digits : PyStr}

/-! ## ASCII digits -/

theorem decimalDigit_of_isDigit (h : c.isDigit = true) :
    decimalDigit c = some (c.toNat - '0'.toNat) := by
  have hrange : 0x30 ≤ c.toNat ∧ c.toNat < 0x30 + 10 := digit_spec h
  rw [decimalDigit, decimalZeros, List.findSome?_cons, if_pos hrange]
  rfl

theorem isDecimal_of_isDigit (h : c.isDigit = true) : isDecimal c = true := by
  rw [isDecimal, decimalDigit_of_isDigit h, Option.isSome_some]

theorem decimalValue_of_isDigit (h : ∀ c ∈ digits, c.isDigit = true) :
    decimalValue digits = ofDigitChars 10 digits 0 := by
  rw [decimalValue, Nat.ofDigitChars_eq_foldl]
  refine List.foldl_ext _ _ _ fun n c hc => ?_
  rw [decimalDigit_of_isDigit (h c hc), Option.getD_some]

theorem toDecimal_of_nonneg {z : ℤ} (h : 0 ≤ z) :
    toDecimal z = toDigits 10 z.toNat := by
  rw [toDecimal, if_neg (not_lt.mpr h)]
  congr 1
  omega

/-! ## Other characters of ASCII -/

/-- No other character of ASCII is a digit. -/
theorem isDecimal_eq_false (h : c.toNat < 128)
    (hdigit : c.toNat < 0x30 ∨ 0x3a ≤ c.toNat) : isDecimal c = false := by
  have hzeros : ∀ first ∈ decimalZeros, first = 0x30 ∨ 0x660 ≤ first := by
    decide
  rw [isDecimal, Option.isSome_eq_false_iff, Option.isNone_iff_eq_none,
    decimalDigit, List.findSome?_eq_none_iff]
  intro first hfirst
  have hzero := hzeros first hfirst
  exact if_neg (by omega)

theorem isSpace_eq_false_of_isDecimal (h : isDecimal c = true) :
    isSpace c = false := by
  by_contra hspace
  simp only [isSpace, Bool.not_eq_false, Bool.or_eq_true,
    decide_eq_true_eq] at hspace
  rcases hspace with ((((rfl | rfl) | rfl) | rfl) | rfl) | rfl
  all_goals exact absurd h (by decide)

theorem readInt_of_isDecimal (hne : digits ≠ [])
    (h : ∀ c ∈ digits, isDecimal c = true) :
    readInt digits = some ((decimalValue digits : ℕ) : ℤ) := by
  have hall : digits.all isDecimal = true := List.all_eq_true.mpr h
  rw [readInt]
  · rw [if_pos ⟨hne, hall⟩]
  · rintro rest rfl
    exact absurd (h '-' List.mem_cons_self) (by decide)

/-- `int` reads decimal digits, unless there are too many. -/
theorem pyInt_of_isDecimal (hne : digits ≠ [])
    (h : ∀ c ∈ digits, isDecimal c = true) :
    pyInt digits = (groupValue (some digits)).map Nat.cast := by
  have hall : digits.filter isDecimal = digits := List.filter_eq_self.mpr h
  rw [pyInt, groupValue, hall]
  split
  · exact readInt_of_isDecimal hne h
  · rfl

theorem readInt_of_isDigit (hne : digits ≠ [])
    (h : ∀ c ∈ digits, c.isDigit = true) :
    readInt digits = some ((ofDigitChars 10 digits 0 : ℕ) : ℤ) := by
  rw [readInt_of_isDecimal hne fun c hc => isDecimal_of_isDigit (h c hc),
    decimalValue_of_isDigit h]

/-! ## Lower case -/

theorem toLower_cases (c : Char) :
    c.toLower = c ∨
      (65 ≤ c.toNat ∧ c.toNat ≤ 90 ∧ c.toLower.toNat = c.toNat + 32) := by
  by_cases h : c.val ≥ 'A'.val ∧ c.val ≤ 'Z'.val
  · right
    have hlow : 65 ≤ c.toNat := UInt32.le_iff_toNat_le.mp h.1
    have hhigh : c.toNat ≤ 90 := UInt32.le_iff_toNat_le.mp h.2
    refine ⟨hlow, hhigh, ?_⟩
    rw [show c.toLower = _ from dif_pos h]
    change (c.val + 32).toNat = c.toNat + 32
    rw [UInt32.toNat_add]
    exact Nat.mod_eq_of_lt (by change c.toNat + 32 < _; omega)
  · exact Or.inl (dif_neg h)

/-- A character becomes a digit only if it is that digit. -/
theorem toLower_eq_self (h : isDecimal c.toLower = true ∨ isDecimal c = true) :
    c.toLower = c := by
  rcases toLower_cases c with hsame | ⟨hlow, hhigh, hlower⟩
  · exact hsame
  · rcases h with h | h
    · rw [isDecimal_eq_false (by omega) (by omega)] at h
      exact absurd h Bool.false_ne_true
    · rw [isDecimal_eq_false (by omega) (by omega)] at h
      exact absurd h Bool.false_ne_true

theorem map_toLower_digits (h : ∀ c ∈ digits, isDecimal c = true) :
    digits.map Char.toLower = digits := by
  refine (List.map_congr_left fun c hc => ?_).trans (List.map_id digits)
  exact toLower_eq_self (Or.inr (h c hc))

/-- A text whose lower case consists of digits consists of them. -/
theorem eq_of_map_toLower {text : PyStr}
    (h : ∀ c ∈ digits, isDecimal c = true)
    (htext : text.map Char.toLower = digits) : text = digits := by
  subst htext
  symm
  refine (List.map_congr_left fun c hc => ?_).trans (List.map_id text)
  exact toLower_eq_self (Or.inl (h _ (List.mem_map_of_mem hc)))

end SippScen.Orchestrator
