import SippScen.MediaEndpoint.Score

/-!
# The loss rate behind a score

`get_MOS` divides the number of lost packets by that of all packets before it
converts the quotient to a `float`: the quotient is a whole number.  In the
receiving direction the sum of both numbers may also wrap to zero.  The rate is
the right one exactly when no packet was lost, or, in the sending direction,
when the quotient happens to be whole.
-/

namespace SippScen.MediaEndpoint

/-- `pjmedia_dir`, as far as `endpoint_thread` uses it. -/
inductive MediaDir
  | encoding
  | decoding
deriving DecidableEq, Repr

/-- One direction of an RTCP statistic. -/
structure StreamStat where
  updateCnt : UInt32
  pkt : UInt32
  loss : UInt32
deriving DecidableEq, Repr

/-- An RTCP statistic, with the mean round trip in microseconds. -/
structure RtcpStat where
  rx : StreamStat
  tx : StreamStat
  rttMean : ℤ
deriving DecidableEq, Repr

/-- `a / b` on `unsigned`; a division by zero has no result. -/
def unsignedDiv (a b : UInt32) : Option UInt32 :=
  if b = 0 then none else some (a / b)

/-- `(pkt) ? loss / total : 0.0`. -/
def pkgLossRate (pkt loss total : UInt32) : Option ℚ :=
  if pkt ≠ 0 then (unsignedDiv loss total).map fun q => (q.toNat : ℚ)
  else some 0

/-- `pkg_loss_rate`. -/
def StreamStat.lossRate (s : StreamStat) : MediaDir → Option ℚ
  | .decoding => pkgLossRate s.pkt s.loss (s.pkt + s.loss)
  | .encoding => pkgLossRate s.pkt s.loss s.pkt

/-- `get_MOS`, after the statistic of the stream was read. -/
def getMOS (dir : MediaDir) (stat : RtcpStat) : Option ℚ :=
  match dir with
  | .decoding =>
      if stat.rx.updateCnt = 0 then some 0
      else (stat.rx.lossRate .decoding).map (computeMOS · (stat.rttMean / 1000))
  | .encoding =>
      if stat.tx.updateCnt = 0 then some 0
      else (stat.tx.lossRate .encoding).map (computeMOS · (stat.rttMean / 1000))

/-! ## What the rate should be -/

/-- The direction that is scored. -/
def RtcpStat.side (stat : RtcpStat) : MediaDir → StreamStat
  | .decoding => stat.rx
  | .encoding => stat.tx

/-- The rate that `get_MOS` passes to `compute_MOS`. -/
def passedLossRate (dir : MediaDir) (stat : RtcpStat) : Option ℚ :=
  if (stat.side dir).updateCnt = 0 then none else (stat.side dir).lossRate dir

/-- The number of packets that should have arrived. -/
def StreamStat.total (s : StreamStat) : MediaDir → ℕ
  | .decoding => s.pkt.toNat + s.loss.toNat
  | .encoding => s.pkt.toNat

/-- The exact share of the lost packets. -/
def StreamStat.exactLossRate (s : StreamStat) (dir : MediaDir) : ℚ :=
  s.loss.toNat / s.total dir

/-- The rate passed to `compute_MOS` is exact, more loss among as many packets
gives a higher one, and total loss is not taken for no loss. -/
structure LossReachesScore (dir : MediaDir) (stat : RtcpStat) : Prop where
  exact : 0 < (stat.side dir).total dir →
    passedLossRate dir stat = some ((stat.side dir).exactLossRate dir)
  strict : ∀ stat' : RtcpStat, (stat'.side dir).updateCnt ≠ 0 →
    (stat'.side dir).pkt = (stat.side dir).pkt → stat'.rttMean = stat.rttMean →
    (stat'.side dir).loss < (stat.side dir).loss →
    0 < (stat'.side dir).total dir →
    ∃ rate' rate, passedLossRate dir stat' = some rate' ∧
      passedLossRate dir stat = some rate ∧ rate' < rate
  total_loss : dir = .decoding → (stat.side dir).pkt = 0 →
    0 < (stat.side dir).loss → passedLossRate dir stat ≠ some 0

/-- The rate is a whole number: nothing was lost, or in the sending direction
nothing was sent or the number of lost packets is a multiple of those sent. -/
def StreamStat.WholeRate (s : StreamStat) : MediaDir → Prop
  | .decoding => s.loss = 0
  | .encoding => s.pkt = 0 ∨ s.pkt.toNat ∣ s.loss.toNat

theorem passedLossRate_of_updated {dir : MediaDir} {stat : RtcpStat}
    (h : (stat.side dir).updateCnt ≠ 0) :
    passedLossRate dir stat = (stat.side dir).lossRate dir :=
  if_neg h

theorem getMOS_of_updated {dir : MediaDir} {stat : RtcpStat}
    (h : (stat.side dir).updateCnt ≠ 0) :
    getMOS dir stat =
      (passedLossRate dir stat).map (computeMOS · (stat.rttMean / 1000)) := by
  rw [passedLossRate_of_updated h]
  cases dir with
  | decoding => exact if_neg h
  | encoding => exact if_neg h

/-! ## The quotient -/

section Quotient

variable {pkt loss total : UInt32} {s : StreamStat} {rate : ℚ}

theorem pkgLossRate_of_pos (hpkt : pkt ≠ 0) (htotal : total ≠ 0) :
    pkgLossRate pkt loss total = some ((loss.toNat / total.toNat : ℕ) : ℚ) := by
  rw [pkgLossRate, if_pos hpkt, unsignedDiv, if_neg htotal, Option.map_some,
    UInt32.toNat_div]

theorem exists_eq_natCast (h : pkgLossRate pkt loss total = some rate) :
    ∃ n : ℕ, rate = n := by
  by_cases hpkt : pkt = 0
  · rw [pkgLossRate, if_neg (not_not.mpr hpkt), Option.some_inj] at h
    exact ⟨0, by rw [← h, Nat.cast_zero]⟩
  · rw [pkgLossRate, if_pos hpkt, Option.map_eq_some_iff] at h
    obtain ⟨q, -, rfl⟩ := h
    exact ⟨q.toNat, rfl⟩

theorem toNat_pos_iff {n : UInt32} : 0 < n.toNat ↔ n ≠ 0 := by
  rw [Nat.pos_iff_ne_zero, ne_eq, ne_eq, ← UInt32.toNat_inj, UInt32.toNat_zero]

/-- When packets were lost, the exact rate of a receiver is the whole number 1
only if none arrived, and then 0 is passed on. -/
theorem lossRate_ne_exact (h : s.loss ≠ 0) :
    s.lossRate .decoding ≠ some (s.exactLossRate .decoding) := by
  intro hexact
  have hloss : (0 : ℚ) < s.loss.toNat := by
    exact_mod_cast toNat_pos_iff.mpr h
  have hrate : s.exactLossRate .decoding =
      s.loss.toNat / (s.pkt.toNat + s.loss.toNat) := by
    simp [StreamStat.exactLossRate, StreamStat.total]
  have hpositive : 0 < s.exactLossRate .decoding := by
    rw [hrate]
    positivity
  by_cases hpkt : s.pkt = 0
  · have hzero : s.lossRate .decoding = some 0 := by
      rw [StreamStat.lossRate, pkgLossRate, if_neg (not_not.mpr hpkt)]
    rw [hzero, Option.some_inj] at hexact
    linarith
  · have harrived : (0 : ℚ) < s.pkt.toNat := by
      exact_mod_cast toNat_pos_iff.mpr hpkt
    have hbelow : s.exactLossRate .decoding < 1 := by
      rw [hrate, div_lt_one (by positivity)]
      linarith
    obtain ⟨n, hn⟩ := exists_eq_natCast hexact
    rw [hn] at hpositive hbelow
    have hlow : 0 < n := by exact_mod_cast hpositive
    have hhigh : n < 1 := by exact_mod_cast hbelow
    omega

theorem lossRate_of_no_loss (h : s.loss = 0) (htotal : 0 < s.total .decoding) :
    s.lossRate .decoding = some (s.exactLossRate .decoding) := by
  have hpkt : s.pkt ≠ 0 := by
    rw [StreamStat.total, h] at htotal
    exact toNat_pos_iff.mp htotal
  rw [StreamStat.lossRate, h, UInt32.add_zero, pkgLossRate_of_pos hpkt hpkt,
    StreamStat.exactLossRate, h]
  simp

theorem lossRate_encoding (hpkt : s.pkt ≠ 0) :
    s.lossRate .encoding = some ((s.loss.toNat / s.pkt.toNat : ℕ) : ℚ) := by
  rw [StreamStat.lossRate, pkgLossRate_of_pos hpkt hpkt]

theorem lossRate_exact_iff (hpkt : s.pkt ≠ 0) :
    s.lossRate .encoding = some (s.exactLossRate .encoding) ↔
      s.pkt.toNat ∣ s.loss.toNat := by
  have hpos : (s.pkt.toNat : ℚ) ≠ 0 := by
    exact_mod_cast (toNat_pos_iff.mpr hpkt).ne'
  rw [lossRate_encoding hpkt, Option.some_inj, StreamStat.exactLossRate,
    StreamStat.total, eq_div_iff hpos]
  constructor
  · intro h
    exact Dvd.intro_left _ (by exact_mod_cast h)
  · intro h
    exact_mod_cast Nat.div_mul_cancel h

theorem div_lt_div_of_dvd {m n k : ℕ} (hk : 0 < k) (hdvd : k ∣ n) (h : m < n) :
    m / k < n / k := by
  rw [Nat.div_lt_iff_lt_mul hk, Nat.div_mul_cancel hdvd]
  exact h

end Quotient

/-! ## Exact rates -/

section Exact

variable {stat stat' : RtcpStat}

theorem lossReachesScore_decoding_iff (hupdated : stat.rx.updateCnt ≠ 0) :
    LossReachesScore .decoding stat ↔ stat.rx.loss = 0 := by
  have hpassed : passedLossRate .decoding stat = stat.rx.lossRate .decoding :=
    passedLossRate_of_updated hupdated
  constructor
  · intro h
    by_contra hloss
    have hexact := h.exact (Nat.add_pos_right _ (toNat_pos_iff.mpr hloss))
    rw [hpassed] at hexact
    exact lossRate_ne_exact hloss hexact
  · intro hloss
    refine ⟨fun htotal => ?_, fun stat' _ _ _ hless _ => ?_,
      fun _ _ hpos => ?_⟩
    · rw [hpassed]
      exact lossRate_of_no_loss hloss htotal
    · exact absurd (hloss ▸ hless) UInt32.not_lt_zero
    · exact absurd (hloss ▸ hpos) UInt32.not_lt_zero

/-- With as many packets sent, a multiple of them is a higher rate than any
smaller loss. -/
theorem passedLossRate_lt (hupdated : stat.tx.updateCnt ≠ 0)
    (hupdated' : stat'.tx.updateCnt ≠ 0) (hsame : stat'.tx.pkt = stat.tx.pkt)
    (hpkt : stat.tx.pkt ≠ 0) (hdvd : stat.tx.pkt.toNat ∣ stat.tx.loss.toNat)
    (hless : stat'.tx.loss < stat.tx.loss) :
    ∃ rate' rate, passedLossRate .encoding stat' = some rate' ∧
      passedLossRate .encoding stat = some rate ∧ rate' < rate := by
  have hpassed : passedLossRate .encoding stat = stat.tx.lossRate .encoding :=
    passedLossRate_of_updated hupdated
  have hpassed' :
      passedLossRate .encoding stat' = stat'.tx.lossRate .encoding :=
    passedLossRate_of_updated hupdated'
  have hpkt' : stat'.tx.pkt ≠ 0 := hsame ▸ hpkt
  refine ⟨_, _, hpassed'.trans (lossRate_encoding hpkt'),
    hpassed.trans (lossRate_encoding hpkt), ?_⟩
  rw [hsame]
  exact_mod_cast div_lt_div_of_dvd (toNat_pos_iff.mpr hpkt) hdvd
    (UInt32.lt_iff_toNat_lt.mp hless)

theorem lossReachesScore_encoding_iff (hupdated : stat.tx.updateCnt ≠ 0) :
    LossReachesScore .encoding stat ↔
      stat.tx.pkt = 0 ∨ stat.tx.pkt.toNat ∣ stat.tx.loss.toNat := by
  have hpassed : passedLossRate .encoding stat = stat.tx.lossRate .encoding :=
    passedLossRate_of_updated hupdated
  constructor
  · intro h
    by_cases hpkt : stat.tx.pkt = 0
    · exact Or.inl hpkt
    · have hexact := h.exact (toNat_pos_iff.mpr hpkt)
      rw [hpassed] at hexact
      exact Or.inr ((lossRate_exact_iff hpkt).mp hexact)
  · intro hwhole
    refine ⟨fun htotal => ?_, fun stat' hupdated' hsame _ hless htotal => ?_,
      fun hdir => by cases hdir⟩
    · have hpkt : stat.tx.pkt ≠ 0 := toNat_pos_iff.mp htotal
      rw [hpassed]
      exact (lossRate_exact_iff hpkt).mpr (hwhole.resolve_left hpkt)
    · have hpkt : stat.tx.pkt ≠ 0 := hsame ▸ toNat_pos_iff.mp htotal
      exact passedLossRate_lt hupdated hupdated' hsame hpkt
        (hwhole.resolve_left hpkt) hless

end Exact

/-- The loss of packets reaches the score exactly when the rate is whole. -/
theorem lossReachesScore_iff (dir : MediaDir) (stat : RtcpStat)
    (hupdated : (stat.side dir).updateCnt ≠ 0) :
    LossReachesScore dir stat ↔ (stat.side dir).WholeRate dir := by
  cases dir with
  | decoding => exact lossReachesScore_decoding_iff hupdated
  | encoding => exact lossReachesScore_encoding_iff hupdated

/-- A receiver that lost nothing. -/
def cleanStat : RtcpStat := ⟨⟨1, 500, 0⟩, ⟨0, 0, 0⟩, 20000⟩

theorem loss_reaches_score_clean : LossReachesScore .decoding cleanStat :=
  (lossReachesScore_iff .decoding cleanStat (by decide)).mpr rfl

/-- A receiver that lost as many packets as it got, and one that got none. -/
def halfStat : RtcpStat := ⟨⟨1, 50, 50⟩, ⟨0, 0, 0⟩, 20000⟩

def deafStat : RtcpStat := ⟨⟨1, 0, 50⟩, ⟨0, 0, 0⟩, 20000⟩

/-- Losing half of the packets, or all of them, is scored like losing none; and
when the sum of the counters wraps to zero, the division has no result. -/
theorem loss_not_scored :
    passedLossRate .decoding halfStat = some 0 ∧
      ¬ LossReachesScore .decoding halfStat ∧
      getMOS .decoding deafStat = getMOS .decoding cleanStat ∧
      getMOS .decoding ⟨⟨1, 4294967295, 1⟩, ⟨0, 0, 0⟩, 20000⟩ = none := by
  refine ⟨by decide, ?_, ?_, by decide⟩
  · rw [lossReachesScore_decoding_iff (by decide)]
    decide
  · have hdeaf : passedLossRate .decoding deafStat = some 0 := by decide
    have hclean : passedLossRate .decoding cleanStat = some 0 := by decide
    rw [getMOS_of_updated (by decide), getMOS_of_updated (by decide), hdeaf,
      hclean]
    rfl

end SippScen.MediaEndpoint
