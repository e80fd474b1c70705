import Mathlib.Algebra.Order.Field.Basic
import Mathlib.Algebra.Order.Floor.Ring
import Mathlib.Data.Int.ModEq
import Mathlib.Tactic.Ring

/-!
# Places taken in turn

Events follow each other at a constant rate, and `n` places are given to them
in turn.  A place is given out again after `n` events, so that the time between
two events at one place depends on `n` and the rate only.
-/

namespace SippScen.Support

variable {K : Type} [Field K] [LinearOrder K] [IsStrictOrderedRing K]

/-- Of the events with `rate` in a unit of time, two at the same of `n` places
are at least `gap` apart. -/
def Spaced (n : ℤ) (rate gap : K) : Prop :=
  ∀ i j : ℕ, i < j → (i : ℤ) % n = j % n → gap ≤ j / rate - i / rate

variable {n : ℤ} {rate gap : K}

theorem spaced_iff (hrate : 0 < rate) (hn : 0 < n) :
    Spaced n rate gap ↔ rate * gap ≤ n := by
  have htime : ∀ i j : ℕ, gap ≤ j / rate - i / rate ↔
      rate * gap ≤ ((j - i : ℤ) : K) := by
    intro i j
    rw [← sub_div, le_div_iff₀ hrate, mul_comm gap rate]
    push_cast
    rfl
  constructor
  · intro h
    -- the first event and the next one at its place
    obtain ⟨m, rfl⟩ := Int.eq_ofNat_of_zero_le hn.le
    have hnext := (htime 0 m).mp (h 0 m (Int.natCast_pos.mp hn) (by simp))
    simpa using hnext
  · intro h i j hlt hplace
    rw [htime]
    have hdvd : n ∣ (j : ℤ) - i := Int.ModEq.dvd hplace
    have hround : n ≤ (j : ℤ) - i := Int.le_of_dvd (by omega) hdvd
    exact h.trans (Int.cast_le.mpr hround)

/-- Rounding `y` up reaches `x` if no whole number lies between them. -/
theorem le_ceil_iff [FloorRing K] (x y : K) :
    x ≤ (⌈y⌉ : ℤ) ↔ ∀ m : ℤ, ¬ (y ≤ m ∧ (m : K) < x) := by
  constructor
  · rintro h m ⟨hy, hx⟩
    exact absurd (h.trans (Int.cast_le.mpr (Int.ceil_le.mpr hy))) (not_le.mpr hx)
  · intro h
    by_contra hx
    exact h ⌈y⌉ ⟨Int.le_ceil y, not_le.mp hx⟩

end SippScen.Support
