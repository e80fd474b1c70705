import Mathlib.Data.List.GetD
import Mathlib.Data.List.TakeWhile
import Mathlib.Data.Vector.Defs
import Mathlib.Tactic.NormNum

/-!
# C strings and integer conversions

The parts of the C and C++ standard libraries that carry values through
strings: fixed `char` arrays, `strtol` with the functions built on it, and the
decimal printing of an `int`.  A string is the list of its characters; a `char`
array is a vector, and the C string in it ends before the first NUL.  Signed
integers are integers, wrapped explicitly where a value is narrowed.
-/

namespace SippScen.Support

/-- A character string without its terminator. -/
abbrev CString := List Char

/-- The terminating NUL character. -/
def nul : Char := '\x00'

/-! ## Integer conversions -/

/-- Conversion to a signed 16-bit integer. -/
def toInt16 (z : ℤ) : ℤ := z.bmod (2 ^ 16)

/-- Conversion to a signed 32-bit integer. -/
def toInt32 (z : ℤ) : ℤ := z.bmod (2 ^ 32)

/-- Conversion to an unsigned 16-bit integer. -/
def toUInt16 (z : ℤ) : ℤ := z % 2 ^ 16

/-- The values of a 32-bit `int`. -/
def IsInt32 (z : ℤ) : Prop := -2 ^ 31 ≤ z ∧ z < 2 ^ 31

instance (z : ℤ) : Decidable (IsInt32 z) :=
  inferInstanceAs (Decidable (_ ∧ _))

theorem toInt16_of_mem {z : ℤ} (hlo : -2 ^ 15 ≤ z) (hhi : z < 2 ^ 15) :
    toInt16 z = z :=
  Int.bmod_eq_of_le (by omega) (by omega)

theorem toInt32_of_mem {z : ℤ} (h : IsInt32 z) : toInt32 z = z := by
  obtain ⟨hlo, hhi⟩ := h
  exact Int.bmod_eq_of_le (by omega) (by omega)

theorem toUInt16_eq_self_iff {z : ℤ} :
    toUInt16 z = z ↔ 0 ≤ z ∧ z < 2 ^ 16 := by
  unfold toUInt16
  omega

/-! ## Character arrays -/

/-- The part of a character sequence before its first NUL. -/
def cstr (s : List Char) : CString := s.takeWhile (· ≠ nul)

/-- `strncpy(dst, src, n)` on an array of `n` characters: the characters of
`src` up to its NUL, then NUL characters to the end of the array. -/
def strncpy (n : ℕ) (src : CString) : Vector Char n :=
  Vector.ofFn fun i => (cstr src).getD i nul

/-- The C string stored in a character array. -/
def ofArray {n : ℕ} (v : Vector Char n) : CString := cstr v.toList

/-- The bytes of an integer in memory, least significant first. -/
def littleEndian (n : ℕ) (z : ℤ) : List Char :=
  (List.range n).map fun i => Char.ofNat (z / 256 ^ i % 256).toNat

theorem cstr_eq_self {s : CString} (h : nul ∉ s) : cstr s = s := by
  apply List.takeWhile_eq_self_iff.mpr
  intro c hc
  simpa using ne_of_mem_of_not_mem hc h

theorem nul_not_mem_cstr (s : List Char) : nul ∉ cstr s := by
  intro h
  simpa using List.mem_takeWhile_imp h

@[simp] theorem cstr_cstr (s : List Char) : cstr (cstr s) = cstr s :=
  cstr_eq_self (nul_not_mem_cstr s)

/-- What follows the first NUL does not belong to the string. -/
theorem cstr_append_of_mem {s : List Char} (h : nul ∈ s) (t : List Char) :
    cstr (s ++ t) = cstr s := by
  have hshort : (cstr s).length ≠ s.length := by
    intro hlength
    have hself : cstr s = s := (List.takeWhile_sublist _).eq_of_length hlength
    exact nul_not_mem_cstr s (by rwa [hself])
  rw [cstr, List.takeWhile_append]
  exact if_neg hshort

theorem toList_strncpy {n : ℕ} {src : CString} (h : (cstr src).length ≤ n) :
    (strncpy n src).toList =
      cstr src ++ List.replicate (n - (cstr src).length) nul := by
  apply List.ext_getElem
  · simp
    omega
  · intro i hi _
    simp only [strncpy, Vector.toList_ofFn, List.getElem_ofFn]
    by_cases hlt : i < (cstr src).length
    · rw [List.getElem_append_left hlt, List.getD_eq_getElem _ _ hlt]
    · rw [List.getElem_append_right (by omega), List.getElem_replicate,
        List.getD_eq_default _ _ (by omega)]

theorem ofArray_strncpy {n : ℕ} {src : CString}
    (h : (cstr src).length ≤ n) : ofArray (strncpy n src) = cstr src := by
  have hall : ∀ c ∈ cstr src, decide (c ≠ nul) = true := by
    intro c hc
    simpa using ne_of_mem_of_not_mem hc (nul_not_mem_cstr src)
  rw [ofArray, toList_strncpy h, cstr,
    List.takeWhile_append_of_pos hall]
  simp

/-- Copying the string of an array that was written by `strncpy` reproduces
the array. -/
theorem strncpy_ofArray_strncpy {n : ℕ} {src : CString}
    (h : (cstr src).length ≤ n) :
    strncpy n (ofArray (strncpy n src)) = strncpy n src := by
  rw [ofArray_strncpy h]
  simp [strncpy]

/-! ## Numbers in strings -/

/-- `isspace` in the C locale. -/
def isSpace (c : Char) : Bool :=
  c = ' ' || c = '\t' || c = '\n' || c = '\x0b' || c = '\x0c' || c = '\r'

/-- The value that `strtol` parses in base 10, before it is limited to the
range of `long`; `none` when no conversion can be performed. -/
def scanLong (s : CString) : Option ℤ :=
  let body := s.dropWhile isSpace
  let (negative, rest) := match body with
    | '-' :: rest => (true, rest)
    | '+' :: rest => (false, rest)
    | _ => (false, body)
  let digits := rest.takeWhile Char.isDigit
  if digits = [] then none
  else
    let magnitude : ℤ := Nat.ofDigitChars 10 digits 0
    some (if negative then -magnitude else magnitude)

/-- `strtol(s, NULL, 10)` on a 64-bit `long`. -/
def strtol (s : CString) : ℤ :=
  match scanLong s with
  | none => 0
  | some z => max (-2 ^ 63) (min z (2 ^ 63 - 1))

/-- `atoi` is `strtol` converted to `int`. -/
def atoi (s : CString) : ℤ := toInt32 (strtol s)

/-- The exceptions thrown by `stoi`. -/
inductive StoiError
  | invalidArgument
  | outOfRange
deriving DecidableEq, Repr

/-- `std::stoi`. -/
def stoi (s : CString) : Except StoiError ℤ :=
  match scanLong s with
  | none => .error .invalidArgument
  | some z => if IsInt32 z then .ok z else .error .outOfRange

/-- `std::to_string` of an `int`. -/
def toDecimal (z : ℤ) : CString :=
  if z < 0 then '-' :: Nat.toDigits 10 z.natAbs
  else Nat.toDigits 10 z.natAbs

theorem isInt32_of_stoi {s : CString} {z : ℤ} (h : stoi s = .ok z) :
    IsInt32 z := by
  unfold stoi at h
  split at h
  · cases h
  · split at h
    next hz =>
      cases h
      exact hz
    next => cases h

theorem takeWhile_isDigit_toDigits (n : ℕ) :
    (Nat.toDigits 10 n).takeWhile Char.isDigit = Nat.toDigits 10 n := by
  apply List.takeWhile_eq_self_iff.mpr
  intro c hc
  exact Nat.isDigit_of_mem_toDigits (by decide) (by decide) hc

/-- A printed natural number starts with a digit, so neither the blank nor the
sign part of `strtol` consumes any of it. -/
theorem toDigits_eq_digit_cons (n : ℕ) :
    ∃ c rest, Nat.toDigits 10 n = c :: rest ∧ c.isDigit = true := by
  cases h : Nat.toDigits 10 n with
  | nil => exact absurd h Nat.toDigits_ne_nil
  | cons c rest =>
      refine ⟨c, rest, rfl, ?_⟩
      apply Nat.isDigit_of_mem_toDigits (b := 10) (n := n)
        (by decide) (by decide)
      simp [h]

theorem isSpace_eq_false_of_isDigit {c : Char} (h : c.isDigit = true) :
    isSpace c = false := by
  by_contra hspace
  simp only [isSpace, Bool.not_eq_false, Bool.or_eq_true,
    decide_eq_true_eq] at hspace
  rcases hspace with ((((rfl | rfl) | rfl) | rfl) | rfl) | rfl
  all_goals exact absurd h (by decide)

theorem scanLong_toDecimal (z : ℤ) : scanLong (toDecimal z) = some z := by
  by_cases hneg : z < 0
  · have hvalue : -|z| = z := by rw [abs_of_neg hneg, neg_neg]
    have hspace : isSpace '-' = false := by decide
    simp [scanLong, toDecimal, hneg, hspace, takeWhile_isDigit_toDigits,
      Nat.toDigits_ne_nil, hvalue]
  · have hvalue : (z.natAbs : ℤ) = z := by omega
    obtain ⟨c, rest, hdigits, hc⟩ := toDigits_eq_digit_cons z.natAbs
    have hscan : (Nat.toDigits 10 z.natAbs).dropWhile isSpace =
        Nat.toDigits 10 z.natAbs := by
      rw [hdigits]
      simp [isSpace_eq_false_of_isDigit hc]
    have hminus : c ≠ '-' := by rintro rfl; exact absurd hc (by decide)
    have hplus : c ≠ '+' := by rintro rfl; exact absurd hc (by decide)
    have hsign : (match Nat.toDigits 10 z.natAbs with
        | '-' :: rest => (true, rest)
        | '+' :: rest => (false, rest)
        | _ => (false, Nat.toDigits 10 z.natAbs)) =
        (false, Nat.toDigits 10 z.natAbs) := by
      rw [hdigits]
      split
      · next heq => exact absurd (List.cons.inj heq).1 hminus
      · next heq => exact absurd (List.cons.inj heq).1 hplus
      · rfl
    simp only [scanLong, toDecimal, if_neg hneg, hscan, hsign,
      takeWhile_isDigit_toDigits, if_neg Nat.toDigits_ne_nil,
      Nat.ofDigitChars_ten_toDigits]
    simp [hvalue]

/-- Printing an `int` and reading it with `atoi` gives it back. -/
theorem atoi_toDecimal {z : ℤ} (h : IsInt32 z) : atoi (toDecimal z) = z := by
  have hlong : max (-2 ^ 63) (min z (2 ^ 63 - 1)) = z := by
    obtain ⟨hlo, hhi⟩ := h
    omega
  simp only [atoi, strtol, scanLong_toDecimal, hlong]
  exact toInt32_of_mem h

example : atoi (toDecimal (-70000)) = -70000 := by decide

theorem stoi_toDecimal (z : ℤ) :
    stoi (toDecimal z) = if IsInt32 z then .ok z else .error .outOfRange := by
  simp only [stoi, scanLong_toDecimal]

end SippScen.Support
