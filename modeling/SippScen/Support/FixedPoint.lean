import Mathlib.Algebra.Order.Floor.Semiring
import Mathlib.Data.Rat.Floor
import Mathlib.Tactic.FieldSimp
import Mathlib.Tactic.Linarith
import SippScen.Support.Decimal

/-!
# Fixed-point decimals

A rational number is printed with a fixed number of digits behind the point,
rounded to the nearest decimal and to the even one of two.  Reading the text
gives a number that differs by at most half a unit of the last digit.
-/

namespace SippScen.Support

open Nat (ofDigitChars toDigits)

/-! ## Rounding -/

/-- The nearest integer; of two, the even one. -/
def roundHalfEven (q : ℚ) : ℤ :=
  if Int.fract q < 1 / 2 then ⌊q⌋
  else if 1 / 2 < Int.fract q then ⌊q⌋ + 1
  else if ⌊q⌋ % 2 = 0 then ⌊q⌋ else ⌊q⌋ + 1

theorem abs_roundHalfEven_sub_le (q : ℚ) :
    |(roundHalfEven q : ℚ) - q| ≤ 1 / 2 := by
  have hlow := Int.fract_nonneg q
  have hhigh := Int.fract_lt_one q
  have hparts := Int.floor_add_fract q
  unfold roundHalfEven
  rw [abs_le]
  split_ifs
  all_goals
    push_cast
    constructor
    all_goals linarith

theorem roundHalfEven_nonneg {q : ℚ} (h : 0 ≤ q) : 0 ≤ roundHalfEven q := by
  have hfloor : 0 ≤ ⌊q⌋ := Int.floor_nonneg.mpr h
  unfold roundHalfEven
  split_ifs
  all_goals omega

/-! ## Printing -/

variable {d : ℕ} {q : ℚ}

/-- The number of units of the last digit that are shown. -/
def shownUnits (d : ℕ) (q : ℚ) : ℕ := (roundHalfEven (|q| * 10 ^ d)).toNat

/-- A natural number of units, with a point before the last `d` digits. -/
def pointed (d n : ℕ) : CString :=
  toDigits 10 (n / 10 ^ d) ++ '.' :: zeroPad d (n % 10 ^ d)

/-- The conversion `%.<d>f`, for a positive `d`. -/
def fixedPoint (d : ℕ) (q : ℚ) : CString :=
  if q < 0 then '-' :: pointed d (shownUnits d q)
  else pointed d (shownUnits d q)

theorem abs_shownUnits_sub_le (d : ℕ) (q : ℚ) :
    |(shownUnits d q : ℚ) / 10 ^ d - abs q| ≤ 1 / (2 * 10 ^ d) := by
  have hscale : (0 : ℚ) < 10 ^ d := by positivity
  have hunits : ((shownUnits d q : ℕ) : ℚ) =
      (roundHalfEven (|q| * 10 ^ d) : ℤ) := by
    have hnonneg : 0 ≤ roundHalfEven (|q| * 10 ^ d) :=
      roundHalfEven_nonneg (by positivity)
    rw [shownUnits]
    exact_mod_cast Int.toNat_of_nonneg hnonneg
  have hround := abs_roundHalfEven_sub_le (|q| * 10 ^ d)
  rw [← hunits] at hround
  calc |(shownUnits d q : ℚ) / 10 ^ d - abs q|
      = |(shownUnits d q : ℚ) - abs q * 10 ^ d| / 10 ^ d := by
        rw [← abs_of_pos hscale, ← abs_div, abs_of_pos hscale]
        congr 1
        field_simp
    _ ≤ 1 / 2 / 10 ^ d := by gcongr
    _ = 1 / (2 * 10 ^ d) := by rw [div_div]

/-! ## Reading -/

/-- The value of digits, a point and digits. -/
def readPointed (s : CString) : Option ℚ :=
  let whole := s.takeWhile Char.isDigit
  match s.dropWhile Char.isDigit with
  | '.' :: fraction =>
      if whole ≠ [] ∧ fraction ≠ [] ∧ fraction.all Char.isDigit = true then
        some (ofDigitChars 10 (whole ++ fraction) 0 / 10 ^ fraction.length)
      else none
  | _ => none

/-- The value of such a text, which may be preceded by a minus sign. -/
def readFixed : CString → Option ℚ
  | '-' :: s => (readPointed s).map fun v => -v
  | s => readPointed s

theorem length_zeroPad_mod (hd : 0 < d) (n : ℕ) :
    (zeroPad d (n % 10 ^ d)).length = d := by
  have hlt : n % 10 ^ d < 10 ^ d := Nat.mod_lt _ (by positivity)
  rw [length_zeroPad, max_eq_left]
  exact (Nat.length_toDigits_le_iff (by decide) hd).mpr hlt

theorem readPointed_pointed (hd : 0 < d) (n : ℕ) :
    readPointed (pointed d n) = some ((n : ℚ) / 10 ^ d) := by
  have hwhole : ∀ c ∈ toDigits 10 (n / 10 ^ d), c.isDigit = true :=
    fun c => isDigit_of_mem_toDigits
  have hfraction : ∀ c ∈ zeroPad d (n % 10 ^ d), c.isDigit = true :=
    fun c => isDigit_of_mem_zeroPad
  have hlength := length_zeroPad_mod hd n
  have hne : zeroPad d (n % 10 ^ d) ≠ [] := by
    intro hnil
    rw [hnil] at hlength
    exact absurd hlength hd.ne
  have htake : (pointed d n).takeWhile Char.isDigit =
      toDigits 10 (n / 10 ^ d) := by
    rw [pointed, List.takeWhile_append_of_pos hwhole,
      List.takeWhile_cons_of_neg (by decide), List.append_nil]
  have hdrop : (pointed d n).dropWhile Char.isDigit =
      '.' :: zeroPad d (n % 10 ^ d) := by
    rw [pointed, List.dropWhile_append_of_pos hwhole,
      List.dropWhile_cons_of_neg (by decide)]
  have hvalue : ofDigitChars 10
      (toDigits 10 (n / 10 ^ d) ++ zeroPad d (n % 10 ^ d)) 0 = n := by
    rw [ofDigitChars_append_zero, hlength, Nat.ofDigitChars_ten_toDigits,
      ofDigitChars_zeroPad]
    exact Nat.div_add_mod n (10 ^ d)
  simp only [readPointed, htake, hdrop]
  rw [if_pos ⟨Nat.toDigits_ne_nil, hne, List.all_eq_true.mpr hfraction⟩,
    hvalue, hlength]

example : pointed 6 12050000 = "12.050000".toList := by decide

/-- What is read differs from what was printed by at most half a unit of the
last digit. -/
theorem readFixed_fixedPoint (hd : 0 < d) (q : ℚ) :
    ∃ v, readFixed (fixedPoint d q) = some v ∧
      |v - q| ≤ 1 / (2 * 10 ^ d) := by
  have hread := readPointed_pointed hd (shownUnits d q)
  have hclose := abs_shownUnits_sub_le d q
  by_cases hneg : q < 0
  · refine ⟨-((shownUnits d q : ℚ) / 10 ^ d), ?_, ?_⟩
    · rw [fixedPoint, if_pos hneg, readFixed, hread, Option.map_some]
    · rw [abs_of_neg hneg] at hclose
      calc |-((shownUnits d q : ℚ) / 10 ^ d) - q|
          = |(shownUnits d q : ℚ) / 10 ^ d - -q| := by
            rw [← abs_neg]
            congr 1
            ring
        _ ≤ 1 / (2 * 10 ^ d) := hclose
  · refine ⟨(shownUnits d q : ℚ) / 10 ^ d, ?_, ?_⟩
    · obtain ⟨c, rest, hdigits, hc⟩ :=
        toDigits_eq_digit_cons (shownUnits d q / 10 ^ d)
      have hminus : c ≠ '-' := by
        rintro rfl
        exact absurd hc (by decide)
      rw [fixedPoint, if_neg hneg, ← hread, pointed, hdigits,
        List.cons_append, readFixed]
      rintro s heq
      exact hminus (List.cons.inj heq).1
    · rwa [abs_of_nonneg (not_lt.mp hneg)] at hclose

/-- A printed number has no other characters than digits, the point and the
minus sign. -/
theorem mem_fixedPoint {c : Char} (h : c ∈ fixedPoint d q) :
    c.isDigit = true ∨ c = '.' ∨ c = '-' := by
  have hpointed : ∀ n, c ∈ pointed d n → c.isDigit = true ∨ c = '.' := by
    intro n hmem
    rcases List.mem_append.mp hmem with hmem | hmem
    · exact Or.inl (isDigit_of_mem_toDigits hmem)
    · rcases List.mem_cons.mp hmem with rfl | hmem
      · exact Or.inr rfl
      · exact Or.inl (isDigit_of_mem_zeroPad hmem)
  unfold fixedPoint at h
  split at h
  · rcases List.mem_cons.mp h with rfl | h
    · exact Or.inr (Or.inr rfl)
    · exact (hpointed _ h).imp_right Or.inl
  · exact (hpointed _ h).imp_right Or.inl

end SippScen.Support
