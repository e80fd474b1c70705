import Mathlib.Data.List.TakeWhile
import Mathlib.Logic.Function.Basic

/-!
# Backtracking regular expressions

A backtracking matcher tries the ways in which a pattern may match one after
the other and takes the first that lets the rest of the pattern match.  A
pattern here denotes the list of its ways in the order of trial, so that what
the matcher finds is the head of the list.  The lemmas say when the first way
of a part decides the whole, that is, when backtracking changes nothing.
-/

namespace SippScen.Support

/-- Patterns over an alphabet, with groups named by `ι`. -/
inductive Regex (α ι : Type)
  /-- The given word. -/
  | word (w : List α)
  /-- One or more letters of a class, as many as possible. -/
  | plus (p : α → Bool)
  | seq (r s : Regex α ι)
  /-- `r?`, if possible with `r`. -/
  | opt (r : Regex α ι)
  | group (i : ι) (r : Regex α ι)
  /-- `(?!r)`. -/
  | notAhead (r : Regex α ι)
  /-- The end of the text, or the place before a last letter of a class. -/
  | endBefore (p : α → Bool)

/-- A state of the matcher: the text that remains, and the groups captured. -/
structure MatchState (α ι : Type) where
  rest : List α
  groups : ι → Option (List α)

/-- A part captured in a group: what it took from the text before it. -/
def MatchState.capture {α ι : Type} [DecidableEq ι] (i : ι)
    (before after : MatchState α ι) : MatchState α ι where
  rest := after.rest
  groups := Function.update after.groups i
    (some (before.rest.take (before.rest.length - after.rest.length)))

namespace Regex

variable {α ι : Type}

/-- What remains behind one or more letters of a class, the longest match
first. -/
def plusRests (p : α → Bool) : List α → List (List α)
  | [] => []
  | c :: rest => if p c then plusRests p rest ++ [rest] else []

variable {text : List α} {p : α → Bool}

theorem plusRests_eq_nil (h : text.takeWhile p = []) :
    plusRests p text = [] := by
  rcases text with _ | ⟨c, rest⟩
  · rfl
  · rw [plusRests, if_neg]
    intro hc
    simp [hc] at h

/-- The longest match takes all letters of the class, the shorter ones leave
such a letter. -/
theorem plusRests_spec (h : text.takeWhile p ≠ []) :
    ∃ shorter, plusRests p text = text.dropWhile p :: shorter ∧
      ∀ rest ∈ shorter, ∃ c tail, rest = c :: tail ∧ p c = true := by
  induction text with
  | nil => exact absurd rfl h
  | cons c text ih =>
      by_cases hc : p c = true
      · rw [plusRests, if_pos hc, List.dropWhile_cons_of_pos hc]
        by_cases hmore : text.takeWhile p = []
        · have hstop : text.dropWhile p = text := by
            have happend := List.takeWhile_append_dropWhile (p := p) (l := text)
            rwa [hmore, List.nil_append] at happend
          exact ⟨[], by rw [plusRests_eq_nil hmore, hstop]; rfl, by simp⟩
        · obtain ⟨shorter, hrests, hshorter⟩ := ih hmore
          refine ⟨shorter ++ [text], by rw [hrests]; rfl, fun rest hrest => ?_⟩
          rcases List.mem_append.mp hrest with hrest | hrest
          · exact hshorter rest hrest
          · obtain rfl := List.mem_singleton.mp hrest
            rcases rest with _ | ⟨d, tail⟩
            · exact absurd rfl hmore
            · refine ⟨d, tail, rfl, ?_⟩
              by_contra hd
              exact hmore (List.takeWhile_cons_of_neg hd)
      · exact absurd (List.takeWhile_cons_of_neg hc) h

/-- Before a part that cannot start with a letter of the class only the
longest match counts: a shorter one is tried in vain. -/
theorem flatMap_plusRests {β : Type} {f : List α → List β}
    (hf : ∀ c tail, p c = true → f (c :: tail) = []) (text : List α) :
    (plusRests p text).flatMap f =
      if text.takeWhile p = [] then [] else f (text.dropWhile p) := by
  by_cases h : text.takeWhile p = []
  · rw [if_pos h, plusRests_eq_nil h]
    rfl
  · obtain ⟨shorter, hrests, hshorter⟩ := plusRests_spec h
    rw [if_neg h, hrests, List.flatMap_cons, List.flatMap_eq_nil_iff.mpr,
      List.append_nil]
    intro rest hrest
    obtain ⟨c, tail, rfl, hc⟩ := hshorter rest hrest
    exact hf c tail hc

variable [DecidableEq α] [DecidableEq ι]

/-- The ways in which a pattern matches, in the order of trial. -/
def ways : Regex α ι → MatchState α ι → List (MatchState α ι)
  | word w, st =>
      if w <+: st.rest then [{ st with rest := st.rest.drop w.length }] else []
  | plus p, st => (plusRests p st.rest).map fun rest => { st with rest := rest }
  | seq r s, st => (r.ways st).flatMap s.ways
  | opt r, st => r.ways st ++ [st]
  | group i r, st => (r.ways st).map (st.capture i)
  | notAhead r, st => if (r.ways st).isEmpty then [st] else []
  | endBefore p, st =>
      match st.rest with
      | [] => [st]
      | [c] => if p c then [st] else []
      | _ => []

/-- What the matcher finds. -/
def first (r : Regex α ι) (st : MatchState α ι) : Option (MatchState α ι) :=
  (r.ways st).head?

/-- A match at the beginning of a text. -/
def matchStart (r : Regex α ι) (text : List α) : Option (MatchState α ι) :=
  r.first ⟨text, fun _ => none⟩

/-- The match at the beginning of a text reaches its end. -/
def Covers (r : Regex α ι) (text : List α) : Prop :=
  (r.matchStart text).map MatchState.rest = some []

instance (r : Regex α ι) (text : List α) : Decidable (r.Covers text) :=
  inferInstanceAs (Decidable (_ = _))

variable {r s : Regex α ι} {st : MatchState α ι} {w w' : List α} {i : ι}

/-! ## Parts that always match -/

/-- An optional part always matches. -/
theorem first_opt (r : Regex α ι) (st : MatchState α ι) :
    (opt r).first st = some ((r.first st).getD st) := by
  rw [first, ways, first, List.head?_append]
  rcases (r.ways st).head? with _ | found
  · rfl
  · rfl

theorem first_seq (hs : ∀ st, (s.first st).isSome) :
    (seq r s).first st = (r.first st).bind s.first := by
  rw [first, ways, first]
  rcases r.ways st with _ | ⟨st', others⟩
  · rfl
  · rw [List.flatMap_cons, List.head?_append, List.head?_cons,
      Option.bind_some]
    obtain ⟨found, hfound⟩ := Option.isSome_iff_exists.mp (hs st')
    rw [first] at hfound ⊢
    rw [hfound, Option.some_or]

theorem first_opt_seq (hs : ∀ st, (s.first st).isSome) :
    (seq (opt r) s).first st = s.first ((r.first st).getD st) := by
  rw [first_seq hs, first_opt, Option.bind_some]

theorem isSome_first_opt (st : MatchState α ι) :
    ((opt r).first st).isSome := by
  rw [first_opt, Option.isSome_some]

theorem isSome_first_seq (hr : ∀ st, (r.first st).isSome)
    (hs : ∀ st, (s.first st).isSome) (st : MatchState α ι) :
    ((seq r s).first st).isSome := by
  obtain ⟨st', hst'⟩ := Option.isSome_iff_exists.mp (hr st)
  rw [first_seq hs, hst', Option.bind_some]
  exact hs st'

/-! ## Letters of a class -/

theorem ways_plus_seq
    (hs : ∀ st c tail, st.rest = c :: tail → p c = true → s.ways st = []) :
    (seq (plus p) s).ways st =
      if st.rest.takeWhile p = [] then []
      else s.ways { st with rest := st.rest.dropWhile p } := by
  rw [ways, ways, List.flatMap_map]
  exact flatMap_plusRests (fun c tail hc => hs _ c tail rfl hc) st.rest

/-- Letters of a class are captured as a whole. -/
theorem ways_group_plus_seq
    (hs : ∀ st c tail, st.rest = c :: tail → p c = true → s.ways st = []) :
    (seq (group i (plus p)) s).ways st =
      if st.rest.takeWhile p = [] then []
      else s.ways ⟨st.rest.dropWhile p,
        Function.update st.groups i (some (st.rest.takeWhile p))⟩ := by
  have htake : st.rest.take
      (st.rest.length - (st.rest.dropWhile p).length) =
      st.rest.takeWhile p := by
    have happend := List.takeWhile_append_dropWhile (p := p) (l := st.rest)
    have hlength := congrArg List.length happend
    rw [List.length_append] at hlength
    have hleft : (st.rest.takeWhile p ++ st.rest.dropWhile p).take
        (st.rest.takeWhile p).length = st.rest.takeWhile p := List.take_left
    rw [happend] at hleft
    rw [← hlength, Nat.add_sub_cancel, hleft]
  rw [ways, ways, ways, List.map_map, List.flatMap_map]
  have hlongest := flatMap_plusRests
    (f := fun rest => s.ways (st.capture i { st with rest := rest }))
    (fun c tail hc => hs _ c tail rfl hc) st.rest
  rw [MatchState.capture, htake] at hlongest
  exact hlongest

/-! ## Words -/

theorem ways_word_notAhead_word (st : MatchState α ι) :
    (seq (word w) (notAhead (word w'))).ways st =
      if w <+: st.rest ∧ ¬ w' <+: st.rest.drop w.length then
        [{ st with rest := st.rest.drop w.length }]
      else [] := by
  by_cases hw : w <+: st.rest
  · by_cases hw' : w' <+: st.rest.drop w.length
    · simp [ways, hw, hw']
    · simp [ways, hw, hw']
  · simp [ways, hw]

end Regex

end SippScen.Support
