import SippScen.Orchestrator.Digits
import SippScen.Support.Regex

/-!
# Time signatures

`translate_time_signature` with its two regular expressions.  All parts of the
second one are optional, and it is not anchored at the end, so that it matches
every text: a well-formed signature is read as it is meant, and of any other
text the front is read and the rest is ignored.  Only a number with more digits
than `int` converts makes it raise.
-/

namespace SippScen.Orchestrator

open SippScen.Support Regex

/-! ## The function with its regular expressions -/

/-- The groups `h,m,s,ms`. -/
inductive TimeUnit
  | h
  | m
  | s
  | ms
deriving DecidableEq

/-- `\d+$`: `$` also matches before a newline at the end. -/
def digitsPattern : Regex Char TimeUnit :=
  .seq (.plus isDecimal) (.endBefore fun c => c = '\n')

/-- `(\d+)`. -/
def number (i : TimeUnit) : Regex Char TimeUnit := .group i (.plus isDecimal)

/-- `(?:(\d+)h)?(?:(\d+)m(?!s))?(?:(\d+)s)?(?:(\d+)ms)?`. -/
def timePattern : Regex Char TimeUnit :=
  .seq (.opt (.seq (number .h) (.word ['h'])))
    (.seq (.opt (.seq (number .m)
        (.seq (.word ['m']) (.notAhead (.word ['s'])))))
      (.seq (.opt (.seq (number .s) (.word ['s'])))
        (.opt (.seq (number .ms) (.word ['m', 's'])))))

/-- A text without the white space around it. -/
def strip (s : PyStr) : PyStr :=
  ((s.dropWhile isSpace).reverse.dropWhile isSpace).reverse

/-- `int(x or 0)` for a group. -/
def intOrZero : Option PyStr → Option ℤ
  | none => some 0
  | some digits => if digits = [] then some 0 else pyInt digits

namespace Re

/-- `translate_time_signature`; `none` when it raises.  No letter but those of
ASCII has `h`, `m` or `s` as its lower case. -/
def translateTimeSignature (timeSign : PyStr) : Option ℤ :=
  if (digitsPattern.matchStart timeSign).isSome then
    (pyInt (strip timeSign)).map (· * 1000)
  else do
    let found ← timePattern.matchStart (timeSign.map Char.toLower)
    let h ← intOrZero (found.groups .h)
    let m ← intOrZero (found.groups .m)
    let s ← intOrZero (found.groups .s)
    let ms ← intOrZero (found.groups .ms)
    some (h * 3600000 + m * 60000 + s * 1000 + ms)

end Re

/-! ## Scanning a component -/

/-- What the components at the front of a text give, and the text behind
them. -/
structure Scanned where
  groups : TimeUnit → Option PyStr
  rest : PyStr

/-- The four components one after the other. -/
def scanTime (s : PyStr) : Scanned :=
  let h := scanComponent ['h'] [] s
  let m := scanComponent ['m'] ['s'] h.2
  let s := scanComponent ['s'] [] m.2
  let ms := scanComponent ['m', 's'] [] s.2
  { groups := fun
      | .h => h.1
      | .m => m.1
      | .s => s.1
      | .ms => ms.1
    rest := ms.2 }

variable {unit notBefore s : PyStr} {i : TimeUnit}
variable {tail : Regex Char TimeUnit} {st : MatchState Char TimeUnit}

theorem scanComponent_spec (unit notBefore s : PyStr) :
    (∃ digits, (scanComponent unit notBefore s).1 = some digits ∧
      digits ≠ [] ∧ (∀ c ∈ digits, isDecimal c = true) ∧
      s = digits ++ unit ++ (scanComponent unit notBefore s).2) ∨
    ((scanComponent unit notBefore s).1 = none ∧
      s = (scanComponent unit notBefore s).2) := by
  rw [scanComponent]
  split
  · next h =>
      obtain ⟨hne, ⟨behind, hbehind⟩, -⟩ := h
      refine Or.inl ⟨_, rfl, hne, fun c hc => List.mem_takeWhile_imp hc, ?_⟩
      simp only [← hbehind, List.drop_left, List.append_assoc]
      rw [hbehind, List.takeWhile_append_dropWhile]
  · exact Or.inr ⟨rfl, rfl⟩

/-- A part that matches what follows the digits of a component. -/
def FollowsDigits (tail : Regex Char TimeUnit) (unit notBefore : PyStr) :
    Prop :=
  ∀ st, tail.ways st =
    if unit <+: st.rest ∧
        (notBefore = [] ∨ ¬ notBefore <+: st.rest.drop unit.length) then
      [{ st with rest := st.rest.drop unit.length }]
    else []

theorem followsDigits_word (unit : PyStr) :
    FollowsDigits (.word unit) unit [] := by
  intro st
  simp [ways]

theorem followsDigits_notAhead (unit : PyStr) (hne : notBefore ≠ []) :
    FollowsDigits (.seq (.word unit) (.notAhead (.word notBefore))) unit
      notBefore := by
  intro st
  rw [ways_word_notAhead_word]
  simp [hne]

/-- The match of an optional component is what scanning finds: after digits,
backtracking cannot help. -/
theorem first_component {u : Char} {us : PyStr}
    (htail : FollowsDigits tail (u :: us) notBefore)
    (hu : isDecimal u = false) (hfree : st.groups i = none) :
    ((Regex.seq (number i) tail).first st).getD st =
      ⟨(scanComponent (u :: us) notBefore st.rest).2, Function.update st.groups i
        (scanComponent (u :: us) notBefore st.rest).1⟩ := by
  have hstop : ∀ st c rest, st.rest = c :: rest → isDecimal c = true →
      tail.ways st = [] := by
    intro st c rest hrest hc
    rw [htail, if_neg]
    rintro ⟨hfront, -⟩
    rw [hrest, List.cons_prefix_cons] at hfront
    rw [← hfront.1, hu] at hc
    exact absurd hc Bool.false_ne_true
  have hsame : Function.update st.groups i none = st.groups := by
    rw [← hfree, Function.update_eq_self]
  rw [first, number, ways_group_plus_seq hstop, htail, scanComponent]
  by_cases hdigits : st.rest.takeWhile isDecimal = []
  · simp [hdigits, hsame]
  · by_cases hunit : u :: us <+: st.rest.dropWhile isDecimal ∧
        (notBefore = [] ∨ ¬ notBefore <+:
          (st.rest.dropWhile isDecimal).drop (u :: us).length)
    · rw [if_neg hdigits, if_pos hunit, if_pos ⟨hdigits, hunit⟩]
      rfl
    · rw [if_neg hdigits, if_neg hunit, if_neg fun h => hunit h.2, hsame]
      rfl

/-- The second pattern matches every text, with the groups and the rest that
scanning finds. -/
theorem matchStart_timePattern (text : PyStr) :
    timePattern.matchStart text =
      some ⟨(scanTime text).rest, (scanTime text).groups⟩ := by
  rw [matchStart, timePattern,
    first_opt_seq (isSome_first_seq isSome_first_opt
      (isSome_first_seq isSome_first_opt isSome_first_opt)),
    first_component (followsDigits_word _) (by decide) rfl,
    first_opt_seq (isSome_first_seq isSome_first_opt isSome_first_opt),
    first_component (followsDigits_notAhead _ (by simp)) (by decide) (by simp),
    first_opt_seq isSome_first_opt,
    first_component (followsDigits_word _) (by decide) (by simp), first_opt,
    first_component (followsDigits_word _) (by decide) (by simp)]
  congr 2
  funext i
  cases i <;> rfl

/-- The first pattern matches digits up to the end, or up to a newline before
it. -/
theorem matchStart_digitsPattern (text : PyStr) :
    digitsPattern.matchStart text =
      if text.takeWhile isDecimal ≠ [] ∧
          (text.dropWhile isDecimal = [] ∨ text.dropWhile isDecimal = ['\n'])
      then some ⟨text.dropWhile isDecimal, fun _ => none⟩
      else none := by
  have hstop : ∀ (st : MatchState Char TimeUnit) c rest, st.rest = c :: rest →
      isDecimal c = true →
      (Regex.endBefore fun c => decide (c = '\n')).ways st = [] := by
    intro st c rest hrest hc
    have hne : c ≠ '\n' := by
      rintro rfl
      exact absurd hc (by decide)
    rw [ways, hrest]
    rcases rest with _ | ⟨d, rest⟩
    · simp [hne]
    · rfl
  rw [matchStart, first, digitsPattern, ways_plus_seq hstop]
  by_cases hdigits : text.takeWhile isDecimal = []
  · simp [hdigits]
  · rw [if_neg hdigits, ways]
    rcases text.dropWhile isDecimal with _ | ⟨c, _ | ⟨d, rest⟩⟩
    · simp [hdigits]
    · by_cases hc : c = '\n'
      · simp [hdigits, hc]
      · simp [hdigits, hc]
    · simp

/-! ## The value of a text -/

theorem dropWhile_isSpace {digits : PyStr} (hne : digits ≠ [])
    (h : ∀ c ∈ digits, isDecimal c = true) (rest : PyStr) :
    (digits ++ rest).dropWhile isSpace = digits ++ rest := by
  obtain ⟨c, digits, rfl⟩ := List.exists_cons_of_ne_nil hne
  have hc := isSpace_eq_false_of_isDecimal (h c List.mem_cons_self)
  rw [List.cons_append, List.dropWhile_cons_of_neg (by simp [hc])]

theorem strip_digits {digits rest : PyStr} (hne : digits ≠ [])
    (h : ∀ c ∈ digits, isDecimal c = true)
    (hrest : ∀ c ∈ rest, isSpace c = true) : strip (digits ++ rest) = digits := by
  have hlast := dropWhile_isSpace (List.reverse_ne_nil_iff.mpr hne)
    (fun c hc => h c (List.mem_reverse.mp hc)) []
  rw [List.append_nil] at hlast
  rw [strip, dropWhile_isSpace hne h, List.reverse_append,
    List.dropWhile_append_of_pos
      fun c hc => hrest c (List.mem_reverse.mp hc),
    hlast, List.reverse_reverse]

theorem intOrZero_eq {group : Option PyStr}
    (h : ∀ digits, group = some digits →
      digits ≠ [] ∧ ∀ c ∈ digits, isDecimal c = true) :
    intOrZero group = (groupValue group).map Nat.cast := by
  rcases group with _ | digits
  · rfl
  · obtain ⟨hne, hdecimal⟩ := h digits rfl
    rw [intOrZero, if_neg hne, pyInt_of_isDecimal hne hdecimal]

theorem groupValue_eq_none {group : Option PyStr} :
    groupValue group = none ↔
      ∃ digits, group = some digits ∧ maxStrDigits < digits.length := by
  rcases group with _ | digits
  · simp [groupValue]
  · simp [groupValue]

theorem scanned_digits {digits : PyStr}
    (h : (scanComponent unit notBefore s).1 = some digits) :
    digits ≠ [] ∧ ∀ c ∈ digits, isDecimal c = true := by
  rcases scanComponent_spec unit notBefore s with
    ⟨found, hfound, hne, hdecimal, -⟩ | ⟨hnone, -⟩
  · obtain rfl := Option.some.inj (h.symm.trans hfound)
    exact ⟨hne, hdecimal⟩
  · rw [hnone] at h
    exact absurd h (Option.some_ne_none digits).symm

/-- The digits that the first pattern matches are what remains when the text is
stripped. -/
theorem strip_of_digits {timeSign : PyStr}
    (hdigits : timeSign.takeWhile isDecimal ≠ [])
    (hrest : timeSign.dropWhile isDecimal = [] ∨
      timeSign.dropWhile isDecimal = ['\n']) :
    strip timeSign = timeSign.takeWhile isDecimal := by
  have hspace : ∀ c ∈ timeSign.dropWhile isDecimal, isSpace c = true := by
    rcases hrest with hrest | hrest
    · simp [hrest]
    · simp [hrest, isSpace]
  have hstrip := strip_digits hdigits
    (fun c hc => List.mem_takeWhile_imp hc) hspace
  rwa [List.takeWhile_append_dropWhile] at hstrip

/-- With its regular expressions the function computes what it computes by
scanning. -/
theorem translateTimeSignature_eq (timeSign : PyStr) :
    Re.translateTimeSignature timeSign =
      (translateTimeSignature timeSign).map Nat.cast := by
  rw [Re.translateTimeSignature, matchStart_digitsPattern,
    translateTimeSignature]
  by_cases hdigits : timeSign.takeWhile isDecimal ≠ [] ∧
      (timeSign.dropWhile isDecimal = [] ∨ timeSign.dropWhile isDecimal = ['\n'])
  · rw [if_pos hdigits, Option.isSome_some, if_pos rfl, if_pos hdigits,
      strip_of_digits hdigits.1 hdigits.2, pyInt_of_isDecimal hdigits.1
        fun c hc => List.mem_takeWhile_imp hc, Option.map_map, Option.map_map]
    rfl
  · rw [if_neg hdigits, if_neg hdigits, if_neg (by simp),
      matchStart_timePattern, Option.bind_eq_bind, Option.bind_some]
    simp only [scanTime]
    rw [intOrZero_eq fun _ => scanned_digits, intOrZero_eq fun _ =>
      scanned_digits, intOrZero_eq fun _ => scanned_digits, intOrZero_eq
      fun _ => scanned_digits]
    generalize groupValue _ = h, groupValue _ = m, groupValue _ = s,
      groupValue _ = ms
    cases h <;> cases m <;> cases s <;> cases ms <;> simp

/-! ## Well-formed signatures -/

namespace TimeUnit

/-- The unit as it is written. -/
def word : TimeUnit → PyStr
  | .h => ['h']
  | .m => ['m']
  | .s => ['s']
  | .ms => ['m', 's']

theorem word_eq_cons (u : TimeUnit) :
    ∃ c w, u.word = c :: w ∧ isDecimal c = false := by
  rcases u with _ | _ | _ | _
  all_goals exact ⟨_, _, rfl, by decide⟩

end TimeUnit

/-- A decimal number. -/
structure Digits where
  text : PyStr
  nonempty : text ≠ []
  decimal : ∀ c ∈ text, isDecimal c = true

/-- A number with its unit in any letter case. -/
structure Component (u : TimeUnit) where
  number : Digits
  spelling : PyStr
  spells : spelling.map Char.toLower = u.word

/-- A choice of components that is not empty. -/
structure TimeSignature where
  component : (u : TimeUnit) → Option (Component u)
  present : ∃ u, (component u).isSome

variable {u : TimeUnit}

def Component.text (c : Component u) : PyStr := c.number.text ++ c.spelling

namespace TimeSignature

/-- The text of a component, empty when it is absent. -/
def part (t : TimeSignature) (u : TimeUnit) : PyStr :=
  (t.component u).elim [] Component.text

/-- The number of a component, zero when it is absent. -/
def amount (t : TimeSignature) (u : TimeUnit) : ℕ :=
  (t.component u).elim 0 fun c => decimalValue c.number.text

def text (t : TimeSignature) : PyStr :=
  t.part .h ++ (t.part .m ++ (t.part .s ++ t.part .ms))

def milliseconds (t : TimeSignature) : ℕ :=
  3600000 * t.amount .h + 60000 * t.amount .m + 1000 * t.amount .s +
    t.amount .ms

end TimeSignature

/-! ## Scanning a signature -/

/-- A text that is empty, or starts with a component of one of the units. -/
def StartsWith (units : List TimeUnit) (s : PyStr) : Prop :=
  s = [] ∨ ∃ number : Digits, ∃ u ∈ units, ∃ rest,
    s = number.text ++ (u.word ++ rest)

/-- Behind digits, another unit is not taken for the given one. -/
def Rejects (unit notBefore : PyStr) (u : TimeUnit) : Prop :=
  ∀ rest, ¬ (unit <+: u.word ++ rest ∧
    (notBefore = [] ∨ ¬ notBefore <+: (u.word ++ rest).drop unit.length))

variable {units : List TimeUnit} {rest : PyStr}

theorem Digits.takeWhile_append (number : Digits) (u : TimeUnit) (rest : PyStr) :
    (number.text ++ (u.word ++ rest)).takeWhile isDecimal = number.text := by
  obtain ⟨c, w, hword, hc⟩ := u.word_eq_cons
  rw [List.takeWhile_append_of_pos number.decimal, hword, List.cons_append,
    List.takeWhile_cons_of_neg (by simp [hc]), List.append_nil]

theorem Digits.dropWhile_append (number : Digits) (u : TimeUnit) (rest : PyStr) :
    (number.text ++ (u.word ++ rest)).dropWhile isDecimal = u.word ++ rest := by
  obtain ⟨c, w, hword, hc⟩ := u.word_eq_cons
  rw [List.dropWhile_append_of_pos number.decimal, hword, List.cons_append,
    List.dropWhile_cons_of_neg (by simp [hc])]

theorem scanComponent_present (number : Digits)
    (hrest : notBefore = [] ∨ ¬ notBefore <+: rest) :
    scanComponent u.word notBefore (number.text ++ (u.word ++ rest)) =
      (some number.text, rest) := by
  rw [scanComponent, number.takeWhile_append, number.dropWhile_append,
    List.drop_left, if_pos ⟨number.nonempty, List.prefix_append _ _, hrest⟩]

theorem scanComponent_absent (hs : StartsWith units s)
    (hunits : ∀ u ∈ units, Rejects unit notBefore u) :
    scanComponent unit notBefore s = (none, s) := by
  rcases hs with rfl | ⟨number, u, hu, rest, rfl⟩
  · rfl
  · rw [scanComponent, number.takeWhile_append, number.dropWhile_append,
      if_neg fun h => hunits u hu rest h.2]

theorem StartsWith.not_prefix {c : Char} (hs : StartsWith units s)
    (hc : isDecimal c = false) : ¬ [c] <+: s := by
  rintro ⟨behind, hbehind⟩
  rcases hs with rfl | ⟨number, u, -, rest, rfl⟩
  · exact List.cons_ne_nil _ _ hbehind
  · obtain ⟨d, digits, hdigits⟩ :=
      List.exists_cons_of_ne_nil number.nonempty
    simp only [hdigits, List.cons_append, List.cons.injEq] at hbehind
    have hd := number.decimal d (by rw [hdigits]; exact List.mem_cons_self)
    rw [← hbehind.1, hc] at hd
    exact Bool.false_ne_true hd

namespace TimeSignature

variable (t : TimeSignature)

/-- A component in lower case. -/
def lowerPart (u : TimeUnit) : PyStr :=
  (t.component u).elim [] fun c => c.number.text ++ u.word

theorem map_toLower_part (u : TimeUnit) :
    (t.part u).map Char.toLower = t.lowerPart u := by
  rw [part, lowerPart]
  rcases t.component u with _ | c
  · rfl
  · rw [Option.elim_some, Option.elim_some, Component.text, List.map_append,
      map_toLower_digits c.number.decimal, c.spells]

theorem startsWith_lowerPart (h : StartsWith units rest) :
    StartsWith (u :: units) (t.lowerPart u ++ rest) := by
  rw [lowerPart]
  rcases t.component u with _ | c
  · rcases h with h | ⟨number, v, hv, behind, h⟩
    · exact Or.inl h
    · exact Or.inr ⟨number, v, List.mem_cons_of_mem u hv, behind, h⟩
  · exact Or.inr ⟨c.number, u, List.mem_cons_self, rest,
      List.append_assoc _ _ _⟩

/-- Scanning for a component of a signature finds it if it is there, and
leaves the text behind it. -/
theorem scanComponent_lowerPart (u : TimeUnit) (notBefore : PyStr)
    (h : StartsWith units rest)
    (hunits : ∀ v ∈ units, Rejects u.word notBefore v)
    (hbefore : notBefore = [] ∨ ¬ notBefore <+: rest) :
    scanComponent u.word notBefore (t.lowerPart u ++ rest) =
      ((t.component u).map fun c => c.number.text, rest) := by
  rw [lowerPart]
  rcases t.component u with _ | c
  · exact scanComponent_absent h hunits
  · rw [Option.elim_some, List.append_assoc,
      scanComponent_present c.number hbefore]
    rfl

theorem scanTime_text :
    scanTime (t.text.map Char.toLower) =
      ⟨fun u => (t.component u).map fun c => c.number.text, []⟩ := by
  have hend : StartsWith [] [] := Or.inl rfl
  have hms := t.startsWith_lowerPart (u := .ms) hend
  have hs := t.startsWith_lowerPart (u := .s) hms
  have hm := t.startsWith_lowerPart (u := .m) hs
  have hscanH := t.scanComponent_lowerPart .h [] hm
    (by simp [Rejects, TimeUnit.word]) (Or.inl rfl)
  have hscanM := t.scanComponent_lowerPart .m ['s'] hs
    (by simp [Rejects, TimeUnit.word])
    (Or.inr (hs.not_prefix (by decide)))
  have hscanS := t.scanComponent_lowerPart .s [] hms
    (by simp [Rejects, TimeUnit.word]) (Or.inl rfl)
  have hscanMs := t.scanComponent_lowerPart .ms [] hend
    (by simp) (Or.inl rfl)
  rw [List.append_nil] at hms hs hm hscanH hscanM hscanS hscanMs
  simp only [TimeUnit.word] at hscanH hscanM hscanS hscanMs
  rw [text, List.map_append, List.map_append, List.map_append,
    map_toLower_part, map_toLower_part, map_toLower_part, map_toLower_part,
    scanTime]
  simp only [hscanH, hscanM, hscanS, hscanMs]
  congr 1
  funext u
  cases u <;> rfl

end TimeSignature

/-! ## Round trip -/

theorem scanTime_of_matchStart (h : (digitsPattern.matchStart s).isSome) :
    (scanTime (s.map Char.toLower)).rest ≠ [] := by
  rw [matchStart_digitsPattern] at h
  by_cases hdigits : s.takeWhile isDecimal ≠ [] ∧
      (s.dropWhile isDecimal = [] ∨ s.dropWhile isDecimal = ['\n'])
  · have hlower : s.map Char.toLower = s := by
      rw [← List.takeWhile_append_dropWhile (p := isDecimal) (l := s),
        List.map_append, map_toLower_digits fun c hc => List.mem_takeWhile_imp hc]
      rcases hdigits.2 with hrest | hrest
      · rw [hrest, List.map_nil]
      · rw [hrest]
        rfl
    have hnone : ∀ (u : TimeUnit) notBefore,
        scanComponent u.word notBefore s = (none, s) := by
      intro u notBefore
      rw [scanComponent, if_neg]
      rintro ⟨-, hunit, -⟩
      rcases hdigits.2 with hrest | hrest
      · rw [hrest] at hunit
        rcases u with _ | _ | _ | _
        all_goals exact absurd hunit (by decide)
      · rw [hrest] at hunit
        rcases u with _ | _ | _ | _
        all_goals exact absurd hunit (by decide)
    have hh := hnone .h []
    have hm := hnone .m ['s']
    have hs := hnone .s []
    have hms := hnone .ms []
    simp only [TimeUnit.word] at hh hm hs hms
    have hrest : (scanTime s).rest = s := by
      simp only [scanTime, hh, hm, hs, hms]
    rw [hlower, hrest]
    rintro rfl
    exact hdigits.1 rfl
  · rw [if_neg hdigits] at h
    exact absurd h (by simp)

/-- The first pattern matches a number to its end. -/
theorem Digits.matchStart (number : Digits) :
    digitsPattern.matchStart number.text = some ⟨[], fun _ => none⟩ := by
  have htake : number.text.takeWhile isDecimal = number.text :=
    List.takeWhile_eq_self_iff.mpr number.decimal
  have hdrop : number.text.dropWhile isDecimal = [] :=
    List.dropWhile_eq_nil_iff.mpr number.decimal
  rw [matchStart_digitsPattern, htake, hdrop,
    if_pos ⟨number.nonempty, Or.inl rfl⟩]

/-- `int` converts the number. -/
def Digits.Short (number : Digits) : Prop := number.text.length ≤ maxStrDigits

instance (number : Digits) : Decidable number.Short :=
  inferInstanceAs (Decidable (_ ≤ _))

theorem Digits.groupValue_eq {number : Digits} (h : number.Short) :
    groupValue (some number.text) = some (decimalValue number.text) :=
  if_pos h

/-- `int` converts the numbers of all components. -/
def TimeSignature.Short (t : TimeSignature) : Prop :=
  ∀ u c, t.component u = some c → c.number.Short

theorem Digits.translate {number : Digits} (h : number.Short) :
    Re.translateTimeSignature number.text =
      some ((1000 * decimalValue number.text : ℕ) : ℤ) := by
  have hstrip : strip (number.text ++ []) = number.text :=
    strip_digits number.nonempty number.decimal (by simp)
  rw [List.append_nil] at hstrip
  rw [Re.translateTimeSignature, number.matchStart, Option.isSome_some,
    if_pos rfl, hstrip, pyInt_of_isDecimal number.nonempty number.decimal,
    number.groupValue_eq h, Option.map_some, Option.map_some, Nat.cast_mul,
    mul_comm]
  rfl

theorem TimeSignature.intOrZero_component {t : TimeSignature} (h : t.Short)
    (u : TimeUnit) :
    intOrZero ((t.component u).map fun c => c.number.text) =
      some ((t.amount u : ℕ) : ℤ) := by
  rw [amount]
  rcases hc : t.component u with _ | c
  · rfl
  · rw [intOrZero_eq, Option.map_some, c.number.groupValue_eq (h u c hc)]
    · rfl
    · intro digits hdigits
      obtain rfl := Option.some.inj hdigits
      exact ⟨c.number.nonempty, c.number.decimal⟩

theorem TimeSignature.translate {t : TimeSignature} (h : t.Short) :
    Re.translateTimeSignature t.text = some ((t.milliseconds : ℕ) : ℤ) := by
  have hscan := t.scanTime_text
  have hnot : ¬ (digitsPattern.matchStart t.text).isSome := by
    intro hmatch
    have hrest := scanTime_of_matchStart hmatch
    rw [hscan] at hrest
    exact hrest rfl
  rw [Re.translateTimeSignature, if_neg hnot, matchStart_timePattern, hscan,
    Option.bind_eq_bind, Option.bind_some]
  simp only [intOrZero_component h, Option.bind_eq_bind, Option.bind_some,
    milliseconds]
  push_cast
  congr 1
  ring

/-- Every signature is translated to its milliseconds, whichever components
it has and in whatever letter case, and a number is one of seconds, as long as
no number has more digits than `int` converts. -/
theorem signature_translated :
    (∀ t : TimeSignature, t.Short →
      Re.translateTimeSignature t.text = some ((t.milliseconds : ℕ) : ℤ)) ∧
    ∀ number : Digits, number.Short → Re.translateTimeSignature number.text =
      some ((1000 * decimalValue number.text : ℕ) : ℤ) :=
  ⟨fun _ => TimeSignature.translate, fun _ => Digits.translate⟩

/-- `5Ms`. -/
def fiveMs : TimeSignature where
  component
    | .ms => some
        ⟨⟨['5'], List.cons_ne_nil _ _,
            List.forall_mem_singleton.mpr (by decide)⟩, ['M', 's'], rfl⟩
    | _ => none
  present := ⟨.ms, rfl⟩

/-- The milliseconds of `5Ms` are not read as minutes. -/
theorem five_ms_translated :
    Re.translateTimeSignature "5Ms".toList = some 5 := by
  refine signature_translated.1 fiveMs fun u c hc => ?_
  cases u with
  | ms =>
      obtain rfl := Option.some.inj hc
      decide
  | _ => cases hc

/-- A number with one digit too many. -/
def longNumber : Digits where
  text := List.replicate (maxStrDigits + 1) '1'
  nonempty := by
    rw [ne_eq, List.replicate_eq_nil_iff]
    exact Nat.succ_ne_zero _
  decimal c hc := by
    rw [List.eq_of_mem_replicate hc]
    decide

theorem Digits.translate_of_long {number : Digits} (h : ¬ number.Short) :
    Re.translateTimeSignature number.text = none := by
  have hstrip : strip (number.text ++ []) = number.text :=
    strip_digits number.nonempty number.decimal (by simp)
  rw [List.append_nil] at hstrip
  rw [Re.translateTimeSignature, number.matchStart, Option.isSome_some,
    if_pos rfl, hstrip, pyInt_of_isDecimal number.nonempty number.decimal,
    groupValue_eq_none.mpr ⟨_, rfl, not_le.mp h⟩]
  rfl

/-- A number of 4301 digits raises. -/
theorem long_number_raises :
    Re.translateTimeSignature longNumber.text ≠
      some ((1000 * decimalValue longNumber.text : ℕ) : ℤ) := by
  have hlong : ¬ longNumber.Short := by
    rw [Digits.Short, longNumber, List.length_replicate]
    exact Nat.not_succ_le_self _
  rw [longNumber.translate_of_long hlong]
  exact (Option.some_ne_none _).symm

/-! ## Other texts -/

/-- A number, or a signature. -/
def WellFormed (s : PyStr) : Prop :=
  (∃ number : Digits, s = number.text) ∨ ∃ t : TimeSignature, s = t.text

/-- What scanning takes from the lower case of a text is a component at its
front. -/
theorem component_of_scan (text : PyStr) (u : TimeUnit) (notBefore : PyStr) :
    ∃ (c : Option (Component u)) (rest : PyStr),
      text = c.elim [] Component.text ++ rest ∧
      rest.map Char.toLower =
        (scanComponent u.word notBefore (text.map Char.toLower)).2 := by
  rcases scanComponent_spec u.word notBefore (text.map Char.toLower) with
    ⟨digits, -, hne, hdecimal, htext⟩ | ⟨-, htext⟩
  · obtain ⟨front, rest, rfl, hfront, hrest⟩ := List.map_eq_append_iff.mp htext
    obtain ⟨number, spelling, rfl, hnumber, hspelling⟩ :=
      List.map_eq_append_iff.mp hfront
    obtain rfl := eq_of_map_toLower hdecimal hnumber
    exact ⟨some ⟨⟨number, hne, hdecimal⟩, spelling, hspelling⟩, rest, rfl, hrest⟩
  · exact ⟨none, text, rfl, htext⟩

theorem exists_signature {text : PyStr} (hne : text ≠ [])
    (h : (scanTime (text.map Char.toLower)).rest = []) :
    ∃ t : TimeSignature, text = t.text := by
  obtain ⟨h', afterH, htext, hafterH⟩ :=
    component_of_scan text .h []
  obtain ⟨m', afterM, hm, hafterM⟩ :=
    component_of_scan afterH .m ['s']
  obtain ⟨s', afterS, hs, hafterS⟩ :=
    component_of_scan afterM .s []
  obtain ⟨ms', rest, hms, hrest⟩ :=
    component_of_scan afterS .ms []
  rw [hafterS, hafterM, hafterH] at hrest
  rw [scanTime] at h
  obtain rfl := List.map_eq_nil_iff.mp (hrest.trans h)
  rw [List.append_nil] at hms
  subst hms hs hm
  refine ⟨⟨fun | .h => h' | .m => m' | .s => s' | .ms => ms', ?_⟩, htext⟩
  by_contra hnone
  push Not at hnone
  refine hne (htext.trans ?_)
  have hh := hnone .h
  have hm := hnone .m
  have hs := hnone .s
  have hms := hnone .ms
  simp only [Option.isSome_iff_ne_none, ne_eq, not_not] at hh hm hs hms
  rw [hh, hm, hs, hms]
  rfl

theorem TimeSignature.text_ne_nil (t : TimeSignature) : t.text ≠ [] := by
  intro htext
  have hpart : ∀ u, t.part u = [] := by
    simp only [text, List.append_eq_nil_iff] at htext
    intro u
    rcases u with _ | _ | _ | _
    · exact htext.1
    · exact htext.2.1
    · exact htext.2.2.1
    · exact htext.2.2.2
  obtain ⟨u, hu⟩ := t.present
  obtain ⟨c, hc⟩ := Option.isSome_iff_exists.mp hu
  have hempty := hpart u
  rw [part, hc, Option.elim_some, Component.text,
    List.append_eq_nil_iff] at hempty
  exact c.number.nonempty hempty.1

theorem WellFormed.covered {s : PyStr} (h : WellFormed s) :
    s ≠ [] ∧
      (digitsPattern.Covers s ∨ timePattern.Covers (s.map Char.toLower)) := by
  rcases h with ⟨number, rfl⟩ | ⟨t, rfl⟩
  · refine ⟨number.nonempty, Or.inl ?_⟩
    rw [Covers, number.matchStart, Option.map_some]
  · refine ⟨t.text_ne_nil, Or.inr ?_⟩
    rw [Covers, matchStart_timePattern, t.scanTime_text, Option.map_some]

theorem wellFormed_of_covered {s : PyStr} (hne : s ≠ [])
    (h : digitsPattern.Covers s ∨ timePattern.Covers (s.map Char.toLower)) :
    WellFormed s := by
  rcases h with hcovers | hcovers
  · left
    rw [Covers, matchStart_digitsPattern] at hcovers
    have hrest : s.dropWhile isDecimal = [] := by
      by_cases hdigits : s.takeWhile isDecimal ≠ [] ∧
          (s.dropWhile isDecimal = [] ∨ s.dropWhile isDecimal = ['\n'])
      · rw [if_pos hdigits] at hcovers
        exact Option.some.inj hcovers
      · rw [if_neg hdigits] at hcovers
        exact absurd hcovers (Option.some_ne_none _).symm
    exact ⟨⟨s, hne, List.dropWhile_eq_nil_iff.mp hrest⟩, rfl⟩
  · right
    rw [Covers, matchStart_timePattern, Option.map_some,
      Option.some.injEq] at hcovers
    exact exists_signature hne hcovers

/-- A number that one of the patterns takes from the text has more digits than
`int` converts. -/
def HasLongGroup (s : PyStr) : Prop :=
  if (digitsPattern.matchStart s).isSome then maxStrDigits < (strip s).length
  else ∃ found u digits, timePattern.matchStart (s.map Char.toLower) =
    some found ∧ found.groups u = some digits ∧ maxStrDigits < digits.length

theorem groupValue_scanned (text : PyStr) (u : TimeUnit) :
    intOrZero ((scanTime text).groups u) =
      (groupValue ((scanTime text).groups u)).map Nat.cast := by
  refine intOrZero_eq fun digits hdigits => ?_
  cases u with
  | _ => exact scanned_digits hdigits

theorem translateTimeSignature_eq_none (s : PyStr) :
    Re.translateTimeSignature s = none ↔ HasLongGroup s := by
  rw [HasLongGroup, Re.translateTimeSignature]
  by_cases hmatch : (digitsPattern.matchStart s).isSome
  · rw [if_pos hmatch, if_pos hmatch, Option.map_eq_none_iff]
    rw [matchStart_digitsPattern, Option.isSome_ite] at hmatch
    rw [strip_of_digits hmatch.1 hmatch.2, pyInt_of_isDecimal hmatch.1
      fun c hc => List.mem_takeWhile_imp hc, Option.map_eq_none_iff,
      groupValue_eq_none]
    simp
  · rw [if_neg hmatch, if_neg hmatch, matchStart_timePattern]
    have hlong : (∃ found u digits,
        some (⟨(scanTime (s.map Char.toLower)).rest,
          (scanTime (s.map Char.toLower)).groups⟩ :
            MatchState Char TimeUnit) = some found ∧
        found.groups u = some digits ∧ maxStrDigits < digits.length) ↔
        ∃ u, groupValue ((scanTime (s.map Char.toLower)).groups u) = none := by
      simp [groupValue_eq_none]
    rw [hlong]
    simp only [Option.bind_eq_bind, Option.bind_some, groupValue_scanned]
    generalize (scanTime (s.map Char.toLower)).groups = groups
    constructor
    · intro h
      by_contra hall
      push Not at hall
      have hvalue : ∀ u, ∃ n, groupValue (groups u) = some n := fun u =>
        Option.ne_none_iff_exists'.mp (hall u)
      obtain ⟨h', hh⟩ := hvalue .h
      obtain ⟨m, hm⟩ := hvalue .m
      obtain ⟨s', hs⟩ := hvalue .s
      obtain ⟨ms, hms⟩ := hvalue .ms
      simp [hh, hm, hs, hms] at h
    · rintro ⟨u, hu⟩
      cases u with
      | _ => simp [hu]

/-- The function misreads every text but those that one of its patterns matches
to the end, and those with a number that it cannot convert. -/
theorem never_misread_iff (s : PyStr) :
    (WellFormed s ∨ Re.translateTimeSignature s = none) ↔
      (s ≠ [] ∧
        (digitsPattern.Covers s ∨ timePattern.Covers (s.map Char.toLower))) ∨
      HasLongGroup s := by
  rw [translateTimeSignature_eq_none]
  refine or_congr_left ⟨WellFormed.covered, ?_⟩
  rintro ⟨hne, hcovers⟩
  exact wellFormed_of_covered hne hcovers

/-- A decimal fraction is read as zero. -/
theorem fraction_misread :
    Re.translateTimeSignature "1.5s".toList = some 0 ∧
      ¬ (WellFormed "1.5s".toList ∨
        Re.translateTimeSignature "1.5s".toList = none) := by
  have hvalue : Re.translateTimeSignature "1.5s".toList = some 0 := by
    decide
  refine ⟨hvalue, ?_⟩
  rintro (h | hnone)
  · exact absurd h.covered (by decide)
  · rw [hvalue] at hnone
    exact absurd hnone (Option.some_ne_none _)

end SippScen.Orchestrator
