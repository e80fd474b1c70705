import Mathlib.Algebra.BigOperators.Group.List.Basic
import Mathlib.Algebra.Order.BigOperators.Group.List
import Mathlib.Tactic.Ring

/-!
# Cyclic timetables

A timetable lists the gaps between consecutive events and is repeated without
end.  `due gaps n` is the time of event `n`, counted from the start of the
first cycle.
-/

namespace SippScen.Support

/-- The time of event `n` of the timetable. -/
def due (gaps : List ℕ) (n : ℕ) : ℕ :=
  n / gaps.length * gaps.sum + (gaps.take (n % gaps.length + 1)).sum

variable {gaps : List ℕ} {i n T : ℕ}

theorem due_cycle (gaps : List ℕ) (c : ℕ) (hi : i < gaps.length) :
    due gaps (c * gaps.length + i) =
      c * gaps.sum + (gaps.take (i + 1)).sum := by
  have hpos : 0 < gaps.length := by omega
  have hdiv : (c * gaps.length + i) / gaps.length = c := by
    rw [Nat.add_comm, Nat.add_mul_div_right _ _ hpos, Nat.div_eq_of_lt hi,
      Nat.zero_add]
  have hmod : (c * gaps.length + i) % gaps.length = i := by
    rw [Nat.add_comm, Nat.add_mul_mod_self_right, Nat.mod_eq_of_lt hi]
  rw [due, hdiv, hmod]

theorem due_of_last (hlast : n % gaps.length + 1 = gaps.length) :
    due gaps n = (n + 1) / gaps.length * gaps.sum := by
  have hpos : 0 < gaps.length := by omega
  have hsucc : n + 1 = (n / gaps.length + 1) * gaps.length := by
    rw [Nat.add_mul, Nat.one_mul]
    have hdecomp := Nat.div_add_mod' n gaps.length
    omega
  rw [due, hlast, List.take_length, hsucc, Nat.mul_div_cancel _ hpos]
  ring

/-- An event is no earlier than the start of its cycle. -/
theorem cycle_start_le_due (gaps : List ℕ) (n : ℕ) :
    n / gaps.length * gaps.sum ≤ due gaps n :=
  Nat.le_add_right _ _

theorem due_le_due_succ (hpos : 0 < gaps.length) (n : ℕ) :
    due gaps n ≤ due gaps (n + 1) := by
  by_cases hlast : n % gaps.length + 1 = gaps.length
  · rw [due_of_last hlast]
    exact cycle_start_le_due gaps (n + 1)
  · have hlt := Nat.mod_lt n hpos
    have hi : n % gaps.length + 1 < gaps.length := by omega
    have hdecomp := Nat.div_add_mod' n gaps.length
    have hn : due gaps n = n / gaps.length * gaps.sum +
        (gaps.take (n % gaps.length + 1)).sum := rfl
    have hsucc : due gaps (n + 1) = n / gaps.length * gaps.sum +
        (gaps.take (n % gaps.length + 1 + 1)).sum := by
      rw [← due_cycle gaps (n / gaps.length) hi]
      congr 1
      omega
    rw [hn, hsucc, List.take_add_one (i := n % gaps.length + 1),
      List.sum_append]
    omega

theorem due_mono (hpos : 0 < gaps.length) : Monotone (due gaps) :=
  monotone_nat_of_le_succ (due_le_due_succ hpos)

/-- In a timetable whose cycles take time, only finitely many events come
before a time. -/
theorem lt_of_due_lt (hpos : 0 < gaps.length) (hsum : 0 < gaps.sum)
    (h : due gaps n < T) : n < T * gaps.length := by
  have hcycle : n / gaps.length < T :=
    calc n / gaps.length ≤ n / gaps.length * gaps.sum :=
          Nat.le_mul_of_pos_right _ hsum
      _ ≤ due gaps n := cycle_start_le_due gaps n
      _ < T := h
  exact (Nat.div_lt_iff_lt_mul hpos).mp hcycle

theorem lt_cycles_of_due_lt (hpos : 0 < gaps.length) (hsum : 0 < gaps.sum)
    (h : due gaps n < T) : n < (T / gaps.sum + 1) * gaps.length := by
  have hcycle : n / gaps.length * gaps.sum ≤ T :=
    (cycle_start_le_due gaps n).trans h.le
  have hle := (Nat.le_div_iff_mul_le hsum).mpr hcycle
  exact (Nat.div_lt_iff_lt_mul hpos).mp (Nat.lt_succ_of_le hle)

end SippScen.Support
