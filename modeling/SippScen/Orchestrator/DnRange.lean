import SippScen.Orchestrator.Digits
import SippScen.Orchestrator.Ports

/-!
# The directory numbers of a scenario

The file of DNs splits the numbers of a scenario into a common prefix and a
zero-padded counter.  The split is made for numerals of one length, so that
the lines of the file are the numbers from `dn-start` on exactly when the
numeral of `dn-start + n_ports` is no longer than that of `dn-start`.
-/

namespace SippScen.Orchestrator

open SippScen.Support Effect
open Nat (ofDigitChars toDigits)

/-! ## The common prefix -/

theorem firstDifference_spec (i : ℕ) (pairs : List (Char × Char)) :
    ∃ j, firstDifference i pairs = i + j ∧ j ≤ pairs.length - 1 ∧
      (pairs.take j).map Prod.fst = (pairs.take j).map Prod.snd := by
  induction pairs generalizing i with
  | nil => exact ⟨0, rfl, le_rfl, rfl⟩
  | cons pair rest ih =>
      obtain ⟨c1, c2⟩ := pair
      rcases rest with _ | ⟨pair, rest⟩
      · exact ⟨0, rfl, Nat.zero_le _, rfl⟩
      · by_cases hne : c1 ≠ c2
        · exact ⟨0, by simp [firstDifference, hne], Nat.zero_le _, rfl⟩
        · obtain ⟨j, hindex, hle, hsame⟩ := ih (i + 1)
          refine ⟨j + 1, ?_, ?_, ?_⟩
          · simp only [firstDifference, if_neg hne, hindex]
            omega
          · simp only [List.length_cons] at hle ⊢
            omega
          · rw [List.take_succ_cons, List.map_cons, List.map_cons, hsame,
              not_ne_iff.mp hne]

/-- What the prefix has in common: it starts both strings, and some character
follows it in each of them. -/
theorem take_firstDifference {xs ys : PyStr} (hxs : xs ≠ []) (hys : ys ≠ []) :
    xs.take (firstDifference 0 (xs.zip ys)) =
        ys.take (firstDifference 0 (xs.zip ys)) ∧
      firstDifference 0 (xs.zip ys) < xs.length ∧
      firstDifference 0 (xs.zip ys) < ys.length := by
  obtain ⟨j, hindex, hle, hsame⟩ := firstDifference_spec 0 (xs.zip ys)
  have hx := List.length_pos_iff.mpr hxs
  have hy := List.length_pos_iff.mpr hys
  rw [Nat.zero_add] at hindex
  rw [List.length_zip] at hle
  rw [hindex]
  refine ⟨?_, by omega, by omega⟩
  have hlength : (xs.take j).length = (ys.take j).length := by
    simp only [List.length_take]
    omega
  rwa [List.zip_eq_zipWith, List.take_zipWith, ← List.zip_eq_zipWith,
    List.map_fst_zip hlength.le, List.map_snd_zip hlength.ge] at hsame

/-! ## The file -/

/-- What SIPp makes of line `k` of the file: the format `%0<length>d` applied
to the offset plus `k`. -/
def DnFile.dn (f : DnFile) (k : ℕ) : PyStr :=
  f.strPrefix ++ zeroPadded f.length (f.offset + k)

/-- The file of DNs for `n_ports` numbers from `dn_start` on. -/
def dnFile (dnStart nPorts : ℤ) : Option DnFile := do
  let (strPrefix, dSuffix) := dnPrefix dnStart nPorts
  let strStart := toDecimal dnStart
  let offset ← readInt (strStart.drop (strStart.length - dSuffix))
  some ⟨nPorts, offset, strPrefix, dSuffix⟩

variable {w : World} {run : RunConfig} {servers : Dict PyStr PyStr}

theorem prepared_writes_dnFile {name : PyStr} {scn : ScenarioConfig}
    {c : CallDescription} {s : Prepared}
    (hc : describedCall w servers name scn = some c)
    (hok : (prepareScenario w run servers (name, some scn) s).result =
      .ok ()) :
    ∃ dnStart file, scn.dnStart = .value dnStart ∧
      dnFile dnStart c.nPorts = some file ∧ (w.csvFileDn name, .dn file) ∈
        (prepareScenario w run servers (name, some scn) s).log := by
  obtain ⟨dnStart, offset, hstart, hoffset, hwritten⟩ :=
    prepared_writes_dn hc hok
  refine ⟨dnStart, _, hstart, ?_, hwritten⟩
  simp only [dnFile, hoffset, Option.bind_eq_bind, Option.bind_some]

/-- The fields of the file: the numeral of `dn_start` is split behind the
common prefix, as far as the length of the suffix reaches. -/
theorem dnFile_eq (n ports : ℕ) :
    ∃ i, i < (toDigits 10 n).length ∧ i < (toDigits 10 (n + ports)).length ∧
      (toDigits 10 n).take i = (toDigits 10 (n + ports)).take i ∧
      dnFile n ports = some
        { nPorts := ports
          offset := ((ofDigitChars 10 ((toDigits 10 n).drop
            ((toDigits 10 n).length -
              ((toDigits 10 (n + ports)).length - i))) 0 : ℕ) : ℤ)
          strPrefix := (toDigits 10 n).take i
          length := (toDigits 10 (n + ports)).length - i } := by
  obtain ⟨hsame, hlt, hlt'⟩ := take_firstDifference
    (Nat.toDigits_ne_nil (b := 10) (n := n))
    (Nat.toDigits_ne_nil (b := 10) (n := n + ports))
  refine ⟨_, hlt, hlt', hsame, ?_⟩
  have hstart : toDecimal (n : ℤ) = toDigits 10 n :=
    toDecimal_of_nonneg (Int.natCast_nonneg n)
  have hend : toDecimal ((n : ℤ) + ports) = toDigits 10 (n + ports) :=
    toDecimal_of_nonneg (by omega)
  have hne : (toDigits 10 n).drop
      ((toDigits 10 n).length - ((toDigits 10 (n + ports)).length -
        firstDifference 0 ((toDigits 10 n).zip (toDigits 10 (n + ports))))) ≠
      [] := by
    rw [ne_eq, List.drop_eq_nil_iff]
    omega
  have hint := readInt_of_isDigit hne
    fun c hc => isDigit_of_mem_toDigits (List.mem_of_mem_drop hc)
  simp only [dnFile, dnPrefix, hstart, hend, hint, Option.bind_eq_bind,
    Option.bind_some]

/-! ## The lines of the file -/

variable {n ports : ℕ} {file : DnFile}

theorem dn_natCast (lines : ℤ) (offset length k : ℕ) (strPrefix : PyStr) :
    DnFile.dn ⟨lines, offset, strPrefix, length⟩ k =
      strPrefix ++ zeroPad length (offset + k) := by
  rw [DnFile.dn, ← Nat.cast_add, zeroPadded_natCast]

/-- If the numeral of the end of the range has the length of that of its
start, every line is the numeral of its number. -/
theorem dn_of_same_length (hfile : dnFile n ports = some file)
    (hlength : (toDigits 10 n).length = (toDigits 10 (n + ports)).length)
    {k : ℕ} (hk : k < ports) : file.dn k = toDigits 10 (n + k) := by
  obtain ⟨i, hi, hi', hsame, heq⟩ := dnFile_eq n ports
  obtain rfl := Option.some.inj (hfile.symm.trans heq)
  -- the common prefix `p`, with the rests `q` and `q'` of both numerals
  obtain ⟨p, q, hp, hq⟩ : ∃ p q, (toDigits 10 n).take i = p ∧
      (toDigits 10 n).drop i = q := ⟨_, _, rfl, rfl⟩
  obtain ⟨q', hq'⟩ : ∃ q', (toDigits 10 (n + ports)).drop i = q' := ⟨_, rfl⟩
  have hn : toDigits 10 n = p ++ q := by
    rw [← hp, ← hq, List.take_append_drop]
  have hend : toDigits 10 (n + ports) = p ++ q' := by
    rw [← hp, hsame, ← hq', List.take_append_drop]
  have hrest : q.length = (toDigits 10 n).length - i := by
    rw [← hq, List.length_drop]
  have hrest' : q'.length = q.length := by
    rw [← hq', List.length_drop, ← hlength, hrest]
  have hdrop : (toDigits 10 n).length - q.length = i := by omega
  have hvalue := congrArg (ofDigitChars 10 · 0) hn
  have hvalue' := congrArg (ofDigitChars 10 · 0) hend
  simp only [Nat.ofDigitChars_ten_toDigits, ofDigitChars_append_zero]
    at hvalue hvalue'
  have hlt : ofDigitChars 10 q' 0 < 10 ^ q'.length :=
    ofDigitChars_lt fun c hc =>
      isDigit_of_mem_toDigits (hend ▸ List.mem_append_right p hc)
  rw [hrest'] at hvalue' hlt
  have hne : q ≠ [] := List.length_pos_iff.mp (by omega)
  have happend := append_zeroPad_eq (k := k) hn hne (by omega)
  rw [dn_natCast, ← hlength, ← hrest, hdrop, hq, hp]
  exact happend

/-- If the numeral of the end is longer, then the first line is longer than
the numeral of the start. -/
theorem dn_zero_ne_of_longer (hfile : dnFile n ports = some file)
    (hlength : (toDigits 10 n).length < (toDigits 10 (n + ports)).length) :
    file.dn 0 ≠ toDigits 10 n := by
  obtain ⟨i, hi, hi', -, heq⟩ := dnFile_eq n ports
  obtain rfl := Option.some.inj (hfile.symm.trans heq)
  intro hline
  have hlong := congrArg List.length hline
  rw [dn_natCast, List.length_append, List.length_take, length_zeroPad]
    at hlong
  omega

/-- The lines of the file of DNs are the numerals of the numbers from
`dn_start` on, if and only if no power of ten, from ten on, lies above
`dn_start` and not above `dn_start + n_ports`. -/
theorem dns_generated_iff {dnStart nPorts : ℤ} (hstart : 0 ≤ dnStart)
    (hports : 1 ≤ nPorts) :
    ∃ file, dnFile dnStart nPorts = some file ∧ file.nPorts = nPorts ∧
      ((∀ k : ℕ, (k : ℤ) < nPorts → file.dn k = toDecimal (dnStart + k)) ↔
        ∀ d ≥ 1, ¬ (dnStart < 10 ^ d ∧ 10 ^ d ≤ dnStart + nPorts)) := by
  obtain ⟨n, rfl⟩ := Int.eq_ofNat_of_zero_le hstart
  obtain ⟨ports, rfl⟩ := Int.eq_ofNat_of_zero_le
    (le_trans (by norm_num) hports)
  obtain ⟨i, -, -, -, hfile⟩ := dnFile_eq n ports
  refine ⟨_, hfile, rfl, ?_⟩
  have hpowers : (∀ d ≥ 1, ¬ ((n : ℤ) < 10 ^ d ∧ (10 : ℤ) ^ d ≤ n + ports)) ↔
      (toDigits 10 n).length = (toDigits 10 (n + ports)).length := by
    rw [length_toDigits_eq_iff (Nat.le_add_right n ports)]
    norm_cast
  have hnumeral : ∀ k : ℕ, toDecimal ((n : ℤ) + k) = toDigits 10 (n + k) :=
    fun k => toDecimal_of_nonneg (by omega)
  rw [hpowers]
  constructor
  · intro hlines
    have hfirst := hlines 0 (by omega)
    rw [hnumeral, Nat.add_zero] at hfirst
    by_contra hne
    exact dn_zero_ne_of_longer hfile (lt_of_le_of_ne
      (length_toDigits_mono (Nat.le_add_right n ports)) hne) hfirst
  · intro hlength k hk
    rw [hnumeral]
    exact dn_of_same_length hfile hlength (by omega)

/-- Ten numbers from 1000 on. -/
theorem ten_dns_generated :
    ∃ file, dnFile 1000 10 = some file ∧ file.nPorts = 10 ∧
      ((∀ k : ℕ, (k : ℤ) < 10 → file.dn k = toDecimal (1000 + k)) ↔
        ∀ d ≥ 1, ¬ ((1000 : ℤ) < 10 ^ d ∧ 10 ^ d ≤ (1000 : ℤ) + 10)) :=
  dns_generated_iff (by norm_num) (by norm_num)

/-- The single number 9, and the two numbers from 8 on, get a leading zero;
90 numbers from 10 on start with 110. -/
theorem dns_padded :
    (∃ file, dnFile 9 1 = some file ∧ file.dn 0 = "09".toList ∧
      file.dn 0 ≠ toDecimal 9) ∧
    (∃ file, dnFile 8 2 = some file ∧ file.dn 1 = "09".toList) ∧
    ∃ file, dnFile 10 90 = some file ∧ file.dn 0 = "110".toList :=
  ⟨⟨_, rfl, by decide, by decide⟩, ⟨_, rfl, by decide⟩, ⟨_, rfl, by decide⟩⟩

end SippScen.Orchestrator
