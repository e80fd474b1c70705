import Mathlib.Analysis.Real.Sqrt
import Mathlib.Data.Rat.Cast.Order
import Mathlib.Order.Interval.Set.Basic
import Mathlib.Tactic.FieldSimp
import Mathlib.Tactic.GCongr
import Mathlib.Tactic.Linarith
import Mathlib.Tactic.NormNum
import Mathlib.Tactic.Positivity
import Mathlib.Tactic.Ring

/-!
# The score of a call

`compute_MOS` subtracts the impairments of delay and loss from the rating of an
ideal call and maps the rating to a score by a cubic.  The rating has no lower
limit, while the cubic falls below one before the rating reaches zero and grows
without bound below it.  The scores are valid exactly up to a round trip of some
800 milliseconds.  All numbers are rational here.
-/

namespace SippScen.MediaEndpoint

/-- `ld`: the impairment by a round trip of `rtt` milliseconds. -/
def delayImpairment (rtt : ℚ) : ℚ :=
  let ld := 0.024 * rtt
  if rtt > 177.3 then ld + 0.11 * (rtt - 177.3) else ld

/-- `le`: the impairment by lost packets. -/
def lossImpairment (pktLossRate : ℚ) : ℚ :=
  95 * pktLossRate / (pktLossRate + 10)

/-- The rating `R` of a call. -/
def rating (pktLossRate rtt : ℚ) : ℚ :=
  94.2 - delayImpairment rtt - lossImpairment pktLossRate

/-- The score of a rating. -/
def score (R : ℚ) : ℚ :=
  1 + 0.035 * R + R * (R - 60) * (100 - R) * 7e-6

/-- `compute_MOS`. -/
def computeMOS (pktLossRate rtt : ℚ) : ℚ := score (rating pktLossRate rtt)

/-- The score of a call lies between 1 and 4.5, and no call with a shorter round
trip or with less loss has a lower one. -/
structure ValidScore (pktLossRate rtt : ℚ) : Prop where
  one_le : 1 ≤ computeMOS pktLossRate rtt
  le_max : computeMOS pktLossRate rtt ≤ 4.5
  rtt_antitone : ∀ rtt', 0 ≤ rtt' → rtt' ≤ rtt →
    computeMOS pktLossRate rtt ≤ computeMOS pktLossRate rtt'
  loss_antitone : ∀ rate', 0 ≤ rate' → rate' ≤ pktLossRate →
    computeMOS pktLossRate rtt ≤ computeMOS rate' rtt

/-- The longest round trip, in milliseconds, with a valid score. -/
noncomputable def delayLimit (pktLossRate : ℚ) : ℝ :=
  (33.703 + √5400 - 95 * pktLossRate / (pktLossRate + 10)) / 0.134

/-! ## The rating -/

section Rating

variable {p p' r r' : ℚ}

theorem lossImpairment_nonneg (hp : 0 ≤ p) : 0 ≤ lossImpairment p := by
  unfold lossImpairment
  positivity

theorem lossImpairment_mono (hp' : 0 ≤ p') (h : p' ≤ p) :
    lossImpairment p' ≤ lossImpairment p := by
  unfold lossImpairment
  rw [div_le_div_iff₀ (by linarith) (by linarith)]
  nlinarith

theorem lossImpairment_lt_nine (hp : 0 ≤ p) (hp1 : p ≤ 1) :
    lossImpairment p < 9 := by
  unfold lossImpairment
  rw [div_lt_iff₀ (by linarith)]
  linarith

/-- The two branches of the delay impairment are two lines, of which the higher
one counts. -/
theorem delayImpairment_eq_max (r : ℚ) :
    delayImpairment r = max (0.024 * r) (0.134 * r - 19.503) := by
  unfold delayImpairment
  dsimp only
  split
  · rw [max_eq_right (by linarith)]
    ring
  · rw [max_eq_left (by linarith)]

theorem delayImpairment_mono (h : r' ≤ r) :
    delayImpairment r' ≤ delayImpairment r := by
  rw [delayImpairment_eq_max, delayImpairment_eq_max]
  gcongr

theorem rating_le (hp : 0 ≤ p) (hr : 0 ≤ r) : rating p r ≤ 94.2 := by
  have hdelay : 0 ≤ delayImpairment r := by
    rw [delayImpairment_eq_max]
    exact le_max_of_le_left (by positivity)
  have hloss := lossImpairment_nonneg hp
  unfold rating
  linarith

theorem rating_antitone_rtt (h : r' ≤ r) : rating p r ≤ rating p r' := by
  have hdelay := delayImpairment_mono h
  unfold rating
  linarith

theorem rating_antitone_loss (hp' : 0 ≤ p') (h : p' ≤ p) :
    rating p r ≤ rating p' r := by
  have hloss := lossImpairment_mono hp' h
  unfold rating
  linarith

theorem rating_of_long (h : 177.3 ≤ r) :
    rating p r = 113.703 - 0.134 * r - lossImpairment p := by
  rw [rating, delayImpairment_eq_max, max_eq_right (by linarith)]
  ring

/-- A rating below one is worse than a rating of one, which a shorter round trip
has. -/
theorem exists_rating_one (hp : 0 ≤ p) (hp1 : p ≤ 1) (h : rating p r < 1) :
    ∃ r', 0 ≤ r' ∧ r' ≤ r ∧ rating p r' = 1 := by
  have hloss := lossImpairment_lt_nine hp hp1
  have hlong : 177.3 ≤ (112.703 - lossImpairment p) / 0.134 := by
    rw [le_div_iff₀ (by norm_num)]
    linarith
  have hone : rating p ((112.703 - lossImpairment p) / 0.134) = 1 := by
    rw [rating_of_long hlong]
    ring
  refine ⟨_, le_trans (by norm_num) hlong, ?_, hone⟩
  by_contra hlt
  have hworse := rating_antitone_rtt (p := p) (le_of_not_ge hlt)
  linarith

end Rating

/-! ## The cubic -/

section Cubic

variable {x y : ℚ}

theorem score_sub_one (x : ℚ) :
    score x - 1 = 7e-6 * x * (5400 - (x - 80) ^ 2) := by
  unfold score
  ring

theorem max_sub_score (x : ℚ) :
    4.5 - score x = 7e-6 * (100 - x) * (5000 + x * (60 - x)) := by
  unfold score
  ring

theorem score_sub (x y : ℚ) :
    score x - score y =
      7e-6 * (x - y) * (160 * (x + y) - 1000 - (x ^ 2 + x * y + y ^ 2)) := by
  unfold score
  ring

/-- A rating in the rising part of the cubic has a score of at least 1. -/
def InRange (R : ℚ) : Prop := 0 < R ∧ (R - 80) ^ 2 ≤ 5400

theorem one_le_score (h : InRange x) : 1 ≤ score x := by
  obtain ⟨hpos, hsquare⟩ := h
  have hnonneg : 0 ≤ 7e-6 * x * (5400 - (x - 80) ^ 2) :=
    mul_nonneg (by positivity) (by linarith)
  rw [← score_sub_one] at hnonneg
  linarith

theorem inRange_of_one_le (hpos : 0 < x) (h : 1 ≤ score x) : InRange x := by
  refine ⟨hpos, ?_⟩
  by_contra hsquare
  have hneg : 7e-6 * x * (5400 - (x - 80) ^ 2) < 0 :=
    mul_neg_of_pos_of_neg (by positivity) (by linarith)
  rw [← score_sub_one] at hneg
  linarith

theorem one_le_score_of_nonpos (h : x ≤ 0) : 1 ≤ score x := by
  have hfar : 5400 ≤ (x - 80) ^ 2 := by nlinarith
  have hnonneg : 0 ≤ 7e-6 * -x * ((x - 80) ^ 2 - 5400) :=
    mul_nonneg (by linarith) (by linarith)
  have heq := score_sub_one x
  linarith

theorem score_le_max (hpos : 0 ≤ x) (h : x ≤ 94.2) : score x ≤ 4.5 := by
  have hfactor : 0 ≤ 5000 + x * (60 - x) := by nlinarith
  have hnonneg : 0 ≤ 7e-6 * (100 - x) * (5000 + x * (60 - x)) :=
    mul_nonneg (by linarith) hfactor
  rw [← max_sub_score] at hnonneg
  linarith

theorem InRange.lower (h : InRange x) : 6.5 ≤ x := by
  obtain ⟨hpos, hsquare⟩ := h
  nlinarith

theorem score_mono (hy : 6.5 ≤ y) (h : y ≤ x) (hx : x ≤ 94.2) :
    score y ≤ score x := by
  have hxx : 0 ≤ (x - 6.5) * (94.2 - x) :=
    mul_nonneg (by linarith) (by linarith)
  have hyy : 0 ≤ (y - 6.5) * (94.2 - y) :=
    mul_nonneg (by linarith) (by linarith)
  have hxy : 0 ≤ (y - 6.5) * (94.2 - x) :=
    mul_nonneg (by linarith) (by linarith)
  have hfactor : 0 ≤ 160 * (x + y) - 1000 - (x ^ 2 + x * y + y ^ 2) := by
    linarith
  have hnonneg :
      0 ≤ 7e-6 * (x - y) *
        (160 * (x + y) - 1000 - (x ^ 2 + x * y + y ^ 2)) :=
    mul_nonneg (by linarith) hfactor
  rw [← score_sub] at hnonneg
  linarith

end Cubic

/-! ## Valid scores -/

/-- All scores are valid if they lie in the range and never rise with the round
trip or with the loss. -/
theorem forall_validScore_iff :
    (∀ p r, 0 ≤ p → p ≤ 1 → 0 ≤ r → ValidScore p r) ↔
      (∀ p r, 0 ≤ p → p ≤ 1 → 0 ≤ r →
        1 ≤ computeMOS p r ∧ computeMOS p r ≤ 4.5) ∧
      (∀ p, 0 ≤ p → p ≤ 1 → AntitoneOn (computeMOS p) (Set.Ici 0)) ∧
      ∀ r, 0 ≤ r → AntitoneOn (computeMOS · r) (Set.Icc 0 1) := by
  constructor
  · intro h
    refine ⟨fun p r hp hp1 hr => ?_, fun p hp hp1 r' hr' r hr hle => ?_,
      fun r hr p' hp' p hp hle => ?_⟩
    · exact ⟨(h p r hp hp1 hr).one_le, (h p r hp hp1 hr).le_max⟩
    · exact (h p r hp hp1 hr).rtt_antitone r' hr' hle
    · exact (h p r hp.1 hp.2 hr).loss_antitone p' hp'.1 hle
  · rintro ⟨hrange, hrtt, hloss⟩ p r hp hp1 hr
    obtain ⟨hlow, hhigh⟩ := hrange p r hp hp1 hr
    refine ⟨hlow, hhigh, fun r' hr' hle => ?_, fun p' hp' hle => ?_⟩
    · exact hrtt p hp hp1 hr' hr hle
    · exact hloss r hr ⟨hp', hle.trans hp1⟩ ⟨hp, hp1⟩ hle

section Valid

variable {p r : ℚ}

/-- A score is valid exactly when the rating is in the rising part of the cubic:
below it the score is less than 1, or higher than that of a rating of one. -/
theorem validScore_iff_inRange (hp : 0 ≤ p) (hp1 : p ≤ 1) (hr : 0 ≤ r) :
    ValidScore p r ↔ InRange (rating p r) := by
  constructor
  · intro h
    refine inRange_of_one_le ?_ h.one_le
    by_contra hnonpos
    have hlow : rating p r ≤ 0 := le_of_not_gt hnonpos
    obtain ⟨r', hr', hle, hone⟩ :=
      exists_rating_one hp hp1 (lt_of_le_of_lt hlow one_pos)
    have hworse : score (rating p r) ≤ score 1 :=
      hone ▸ h.rtt_antitone r' hr' hle
    have hbelow : score 1 < 1 := by norm_num [score]
    have habove := one_le_score_of_nonpos hlow
    linarith
  · intro h
    have hmax := score_le_max (le_of_lt h.1) (rating_le hp hr)
    refine ⟨one_le_score h, hmax, ?_, ?_⟩
    · intro r' hr' hle
      exact score_mono h.lower (rating_antitone_rtt hle) (rating_le hp hr')
    · intro p' hp' hle
      exact score_mono h.lower (rating_antitone_loss hp' hle)
        (rating_le hp' hr)

theorem inRange_iff {R : ℚ} (h : R ≤ 94.2) :
    InRange R ↔ 80 - √5400 ≤ (R : ℝ) := by
  have hroot : (√5400 : ℝ) < 80 :=
    (Real.sqrt_lt' (by norm_num)).mpr (by norm_num)
  have hroot' : (15 : ℝ) ≤ √5400 := Real.le_sqrt_of_sq_le (by norm_num)
  have hR : (R : ℝ) ≤ 95 := by exact_mod_cast h.trans (by norm_num)
  constructor
  · rintro ⟨-, hsquare⟩
    have hreal : ((R : ℝ) - 80) ^ 2 ≤ 5400 := by exact_mod_cast hsquare
    have habs := (abs_le.mp (Real.abs_le_sqrt hreal)).1
    linarith
  · intro hlow
    have hsquare : ((R : ℝ) - 80) ^ 2 ≤ √5400 ^ 2 :=
      sq_le_sq' (by linarith) (by linarith)
    rw [Real.sq_sqrt (by norm_num)] at hsquare
    refine ⟨?_, by exact_mod_cast hsquare⟩
    have hpos : (0 : ℝ) < R := by linarith
    exact_mod_cast hpos

theorem le_rating_iff (hp : 0 ≤ p) (hp1 : p ≤ 1) :
    80 - √5400 ≤ (rating p r : ℝ) ↔ (r : ℝ) ≤ delayLimit p := by
  have hloss : ((lossImpairment p : ℚ) : ℝ) < 9 := by
    exact_mod_cast lossImpairment_lt_nine hp hp1
  have hlimit :
      delayLimit p = (33.703 + √5400 - (lossImpairment p : ℚ)) / 0.134 := by
    simp [delayLimit, lossImpairment]
  have hroot : (0 : ℝ) ≤ √5400 := Real.sqrt_nonneg _
  rw [hlimit, le_div_iff₀ (by norm_num)]
  rcases le_total r 177.3 with hshort | hlong
  · have hr : (r : ℝ) ≤ 178 := by exact_mod_cast hshort.trans (by norm_num)
    have hrating : 80 ≤ rating p r := by
      have hbend : rating p 177.3 ≤ rating p r := rating_antitone_rtt hshort
      have hloss' := lossImpairment_lt_nine hp hp1
      rw [rating_of_long (le_refl _)] at hbend
      linarith
    have hreal : (80 : ℝ) ≤ rating p r := by exact_mod_cast hrating
    constructor
    · intro
      linarith
    · intro
      linarith
  · rw [rating_of_long hlong]
    push_cast
    constructor
    · intro h
      linarith
    · intro h
      linarith

/-- A score is valid exactly up to the longest round trip that its loss rate
allows. -/
theorem validScore_iff (hp : 0 ≤ p) (hp1 : p ≤ 1) (hr : 0 ≤ r) :
    ValidScore p r ↔ (r : ℝ) ≤ delayLimit p := by
  rw [validScore_iff_inRange hp hp1 hr, inRange_iff (rating_le hp hr),
    le_rating_iff hp hp1]

theorem validScore_at_100 : ValidScore 0 100 := by
  apply (validScore_iff le_rfl (by norm_num) (by norm_num)).mpr
  have hroot : (0 : ℝ) ≤ √5400 := Real.sqrt_nonneg _
  rw [delayLimit, le_div_iff₀ (by norm_num)]
  norm_num
  linarith

/-- Without any loss: at 810 milliseconds the score is below 1, from 820 to 900
milliseconds it rises, and after two seconds it is above 54. -/
theorem score_of_long_delay :
    computeMOS 0 810 < 1 ∧ computeMOS 0 820 < computeMOS 0 900 ∧
      54 < computeMOS 0 2000 ∧ ¬ ValidScore 0 2000 := by
  have hscore : 54 < computeMOS 0 2000 := by
    norm_num [computeMOS, rating, delayImpairment, lossImpairment, score]
  refine ⟨?_, ?_, hscore, ?_⟩
  · norm_num [computeMOS, rating, delayImpairment, lossImpairment, score]
  · norm_num [computeMOS, rating, delayImpairment, lossImpairment, score]
  · intro hvalid
    have hmax := hvalid.le_max
    linarith

end Valid

end SippScen.MediaEndpoint
