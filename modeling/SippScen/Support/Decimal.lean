import Mathlib.Tactic.Ring
import SippScen.Support.CLib

/-!
# Decimal numerals

Numerals are compared through their values: two lists of digits of the same
length are equal when their values are.  A numeral may be split into a leading
part and a zero-padded rest, which can count on as long as it does not
overflow.
-/

namespace SippScen.Support

open Nat (ofDigitChars toDigits)

variable {c : Char} {l m p q : List Char} {k n w : ℕ}

/-! ## Lists of digits -/

theorem digit_spec (h : c.isDigit = true) :
    '0'.toNat ≤ c.toNat ∧ c.toNat < '0'.toNat + 10 := by
  rw [Char.isDigit_iff_toNat] at h
  have hzero : '0'.toNat = 48 := rfl
  have hnine : '9'.toNat = 57 := rfl
  omega

theorem ofDigitChars_cons_zero (c : Char) (l : List Char) :
    ofDigitChars 10 (c :: l) 0 =
      10 ^ l.length * (c.toNat - '0'.toNat) + ofDigitChars 10 l 0 := by
  rw [Nat.ofDigitChars_cons, Nat.ofDigitChars_eq_ofDigitChars_zero,
    Nat.mul_zero, Nat.zero_add]

theorem ofDigitChars_append_zero (p q : List Char) :
    ofDigitChars 10 (p ++ q) 0 =
      10 ^ q.length * ofDigitChars 10 p 0 + ofDigitChars 10 q 0 := by
  rw [Nat.ofDigitChars_append, Nat.ofDigitChars_eq_ofDigitChars_zero]

theorem ofDigitChars_lt (h : ∀ c ∈ l, c.isDigit = true) :
    ofDigitChars 10 l 0 < 10 ^ l.length := by
  induction l with
  | nil => simp
  | cons c l ih =>
      obtain ⟨-, hdigit⟩ := digit_spec (h c List.mem_cons_self)
      have hlt := ih fun d hd => h d (List.mem_cons_of_mem _ hd)
      rw [ofDigitChars_cons_zero, List.length_cons]
      calc 10 ^ l.length * (c.toNat - '0'.toNat) + ofDigitChars 10 l 0
          < 10 ^ l.length * (c.toNat - '0'.toNat) + 10 ^ l.length := by omega
        _ = 10 ^ l.length * (c.toNat - '0'.toNat + 1) := by ring
        _ ≤ 10 ^ l.length * 10 := Nat.mul_le_mul_left _ (by omega)
        _ = 10 ^ (l.length + 1) := by ring

/-- Digits of the same number and value are the same. -/
theorem eq_of_ofDigitChars_eq (hl : ∀ c ∈ l, c.isDigit = true)
    (hm : ∀ c ∈ m, c.isDigit = true) (hlength : l.length = m.length)
    (h : ofDigitChars 10 l 0 = ofDigitChars 10 m 0) : l = m := by
  induction l generalizing m with
  | nil => exact (List.length_eq_zero_iff.mp hlength.symm).symm
  | cons c l ih =>
      obtain ⟨d, m, rfl⟩ : ∃ d rest, m = d :: rest := by
        refine List.exists_cons_of_length_pos ?_
        rw [← hlength]
        exact Nat.succ_pos _
      have hlength' : l.length = m.length := Nat.succ.inj hlength
      have hl' := fun e he => hl e (List.mem_cons_of_mem c he)
      have hm' := fun e he => hm e (List.mem_cons_of_mem d he)
      have hlow := ofDigitChars_lt hl'
      have hlow' := ofDigitChars_lt hm'
      rw [ofDigitChars_cons_zero, ofDigitChars_cons_zero, ← hlength'] at h
      rw [← hlength'] at hlow'
      -- the leading digits are the quotients, the rests the remainders
      have hpos : 0 < 10 ^ l.length := Nat.pow_pos (by norm_num)
      have hquot := congrArg (· / 10 ^ l.length) h
      have hrest := congrArg (· % 10 ^ l.length) h
      simp only [Nat.mul_add_div hpos, Nat.div_eq_of_lt hlow,
        Nat.div_eq_of_lt hlow', Nat.add_zero] at hquot
      simp only [Nat.mul_add_mod, Nat.mod_eq_of_lt hlow,
        Nat.mod_eq_of_lt hlow'] at hrest
      obtain ⟨hc, -⟩ := digit_spec (hl c List.mem_cons_self)
      obtain ⟨hd, -⟩ := digit_spec (hm d List.mem_cons_self)
      have hcd : c = d := Char.toNat_inj.mp (by omega)
      rw [hcd, ih hl' hm' hlength' hrest]

theorem isDigit_of_mem_toDigits (h : c ∈ toDigits 10 n) : c.isDigit = true :=
  Nat.isDigit_of_mem_toDigits (by decide) (by decide) h

/-- A larger number has no fewer digits. -/
theorem length_toDigits_mono (h : n ≤ k) :
    (toDigits 10 n).length ≤ (toDigits 10 k).length := by
  rw [Nat.length_toDigits_le_iff (by decide) Nat.length_toDigits_pos]
  exact h.trans_lt ((Nat.length_toDigits_le_iff (by decide)
    Nat.length_toDigits_pos).mp le_rfl)

/-- Two numerals have the same length exactly when no power of ten, from ten
on, separates the numbers. -/
theorem length_toDigits_eq_iff (h : n ≤ k) :
    (toDigits 10 n).length = (toDigits 10 k).length ↔
      ∀ d ≥ 1, ¬ (n < 10 ^ d ∧ 10 ^ d ≤ k) := by
  constructor
  · rintro hlength d hd ⟨hn, hk⟩
    have hle := (Nat.length_toDigits_le_iff (by decide) hd).mpr hn
    rw [hlength, Nat.length_toDigits_le_iff (by decide) hd] at hle
    omega
  · intro hnone
    refine le_antisymm (length_toDigits_mono h) ?_
    rw [Nat.length_toDigits_le_iff (by decide) Nat.length_toDigits_pos]
    by_contra hle
    exact hnone _ Nat.length_toDigits_pos
      ⟨(Nat.length_toDigits_le_iff (by decide) Nat.length_toDigits_pos).mp
        le_rfl, not_lt.mp hle⟩

/-! ## Zero padding -/

/-- The numeral, with leading zeros up to the width. -/
def zeroPad (width n : ℕ) : List Char :=
  List.replicate (width - (toDigits 10 n).length) '0' ++ toDigits 10 n

/-- The conversion `%0<width>d`: the sign counts for the width. -/
def zeroPadded (width : ℕ) (z : ℤ) : CString :=
  if z < 0 then '-' :: zeroPad (width - 1) z.natAbs
  else zeroPad width z.natAbs

@[simp] theorem zeroPadded_natCast (w n : ℕ) :
    zeroPadded w (n : ℤ) = zeroPad w n := by
  rw [zeroPadded, if_neg (by omega), Int.natAbs_natCast]

theorem length_zeroPad :
    (zeroPad w n).length = max w (toDigits 10 n).length := by
  rw [zeroPad, List.length_append, List.length_replicate]
  omega

theorem isDigit_of_mem_zeroPad (h : c ∈ zeroPad w n) : c.isDigit = true := by
  rcases List.mem_append.mp h with h | h
  · rw [List.eq_of_mem_replicate h]
    rfl
  · exact isDigit_of_mem_toDigits h

@[simp] theorem ofDigitChars_zeroPad : ofDigitChars 10 (zeroPad w n) 0 = n := by
  rw [zeroPad, Nat.ofDigitChars_append, Nat.ofDigitChars_replicate_zero,
    Nat.mul_zero, Nat.ofDigitChars_ten_toDigits]

/-- The rest of a numeral, padded to its length, counts on behind the leading
part. -/
theorem append_zeroPad_eq (hn : toDigits 10 n = p ++ q) (hq : q ≠ [])
    (hk : ofDigitChars 10 q 0 + k < 10 ^ q.length) :
    p ++ zeroPad q.length (ofDigitChars 10 q 0 + k) = toDigits 10 (n + k) := by
  have hdigits : ∀ c ∈ p ++ q, c.isDigit = true := fun c hc =>
    isDigit_of_mem_toDigits (n := n) (hn ▸ hc)
  have hfront := fun c hc => hdigits c (List.mem_append_left q hc)
  have hvalue : n = 10 ^ q.length * ofDigitChars 10 p 0 +
      ofDigitChars 10 q 0 := by
    rw [← ofDigitChars_append_zero, ← hn, Nat.ofDigitChars_ten_toDigits]
  have hpos : 0 < q.length := List.length_pos_iff.mpr hq
  have hpad : (zeroPad q.length (ofDigitChars 10 q 0 + k)).length =
      q.length := by
    rw [length_zeroPad, max_eq_left]
    exact (Nat.length_toDigits_le_iff (by decide) hpos).mpr hk
  have hlength : (toDigits 10 (n + k)).length = p.length + q.length := by
    refine le_antisymm ?_ ?_
    · rw [Nat.length_toDigits_le_iff (by decide) (by omega)]
      calc n + k
          < 10 ^ q.length * (ofDigitChars 10 p 0 + 1) := by
            rw [Nat.mul_add, Nat.mul_one]
            omega
        _ ≤ 10 ^ q.length * 10 ^ p.length :=
            Nat.mul_le_mul_left _ (ofDigitChars_lt hfront)
        _ = 10 ^ (p.length + q.length) := by ring
    · rw [← List.length_append, ← hn]
      exact length_toDigits_mono (Nat.le_add_right n k)
  refine eq_of_ofDigitChars_eq (fun c hc => ?_)
    (fun c hc => isDigit_of_mem_toDigits hc) ?_ ?_
  · rcases List.mem_append.mp hc with hc | hc
    · exact hfront c hc
    · exact isDigit_of_mem_zeroPad hc
  · rw [List.length_append, hpad, hlength]
  · rw [ofDigitChars_append_zero, hpad, ofDigitChars_zeroPad,
      Nat.ofDigitChars_ten_toDigits]
    omega

end SippScen.Support
