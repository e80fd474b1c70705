import SippScen.SharedList.Model

/-!
# The options of `media_endpoint`

`main` walks through the results of `pj_getopt_long` and fills `conf` and the
global settings.  A rejected value ends the process at once; the fields set up
to then are kept in the result, since the port is the first option that the
media server passes.  `pj_getopt_long` belongs to pjlib and is a parameter of
the model, with the behaviour that GNU `getopt_long` documents as hypotheses.
-/

namespace SippScen.MediaEndpoint

open SippScen.Support SippScen.SharedList

/-- An entry of `long_options`. -/
structure LongOption where
  name : CString
  hasArg : Bool
  val : Char
deriving DecidableEq, Repr

/-- The table `long_options`. -/
def longOptions : List LongOption :=
  [ ⟨"local-port".toList, true, 'p'⟩,
    ⟨"remote-addr".toList, true, 'i'⟩,
    ⟨"remote-port".toList, true, 'r'⟩,
    ⟨"duration".toList, true, 'd'⟩,
    ⟨"wavefile".toList, true, 'w'⟩,
    ⟨"codec".toList, true, 'c'⟩,
    ⟨"server".toList, false, 's'⟩,
    ⟨"shared-mem".toList, true, 'm'⟩,
    ⟨"help".toList, false, 'h'⟩ ]

/-- One result of `pj_getopt_long`: the returned character and `pj_optarg`. -/
structure OptionEvent where
  val : Char
  optarg : CString
deriving DecidableEq, Repr

/-- The results of `pj_getopt_long` on the arguments after the program name,
up to the final `-1`. -/
abbrev GetoptLong := List CString → List OptionEvent

/-- The word that selects a long option. -/
def LongOption.word (o : LongOption) : CString := "--".toList ++ o.name

/-- The documented behaviour of GNU `getopt_long` on this table: an option
with an argument takes the next word whatever it looks like, an option without
one takes only its own word, and a word that does not start with a dash is
skipped. -/
structure FollowsGnu (getopt : GetoptLong) : Prop where
  done : getopt [] = []
  withArg : ∀ o ∈ longOptions, o.hasArg = true → ∀ arg rest,
    getopt (o.word :: arg :: rest) = ⟨o.val, arg⟩ :: getopt rest
  withoutArg : ∀ o ∈ longOptions, o.hasArg = false → ∀ rest,
    getopt (o.word :: rest) = ⟨o.val, []⟩ :: getopt rest
  nonOption : ∀ word : CString, word.head? ≠ some '-' → ∀ rest,
    getopt (word :: rest) = getopt rest

/-- GNU `getopt_long` for words that spell an option of the table in full;
every other word with a dash gives `?`. -/
def exactGetoptLong : GetoptLong
  | [] => []
  | [word] =>
      match longOptions.find? fun o => o.word = word with
      | some o => [⟨if o.hasArg then '?' else o.val, []⟩]
      | none => if word.head? = some '-' then [⟨'?', []⟩] else []
  | word :: arg :: rest =>
      match longOptions.find? fun o => o.word = word with
      | some o =>
          if o.hasArg then ⟨o.val, arg⟩ :: exactGetoptLong rest
          else ⟨o.val, []⟩ :: exactGetoptLong (arg :: rest)
      | none =>
          if word.head? = some '-' then
            ⟨'?', []⟩ :: exactGetoptLong (arg :: rest)
          else exactGetoptLong (arg :: rest)

theorem find_longOption : ∀ o ∈ longOptions,
    (longOptions.find? fun o' => o'.word = o.word) = some o := by
  decide

theorem find_longOption_eq_none {word : CString}
    (h : word.head? ≠ some '-') :
    (longOptions.find? fun o => o.word = word) = none := by
  rw [List.find?_eq_none]
  intro o _ hword
  apply h
  rw [← of_decide_eq_true hword]
  rfl

theorem exactGetoptLong_followsGnu : FollowsGnu exactGetoptLong where
  done := rfl
  withArg := by
    intro o ho harg arg rest
    simp only [exactGetoptLong, find_longOption o ho, harg, if_true]
  withoutArg := by
    intro o ho harg rest
    cases rest with
    | nil => simp [exactGetoptLong, find_longOption o ho, harg]
    | cons arg rest => simp [exactGetoptLong, find_longOption o ho, harg]
  nonOption := by
    intro word hword rest
    cases rest with
    | nil =>
        simp only [exactGetoptLong, find_longOption_eq_none hword,
          if_neg hword]
    | cons arg rest =>
        simp only [exactGetoptLong, find_longOption_eq_none hword,
          if_neg hword]

/-! ## The option loop -/

/-- `conf` and the global settings that the options fill. -/
structure Options where
  conf : Data
  server : Bool
  wavefile : CString
  codec : CString
  sharedMem : CString
deriving DecidableEq, Repr

/-- An early return from the option loop: the value returned by `main` and
what was printed before.  The usage text is left out, and so is the word after
`Invalid options`. -/
structure OptionExit where
  status : ℤ
  printed : CString
deriving DecidableEq, Repr

/-- `printf("Error: invalid <what> %s\n", pj_optarg); return 1`. -/
def invalidValue (what arg : CString) : OptionExit :=
  ⟨1, "Error: invalid ".toList ++ what ++ [' '] ++ arg ++ ['\n']⟩

/-- The static `conf`, with the default port. -/
def initialConf : Data :=
  { port := 4000
    destPort := 0
    destAddress := Vector.replicate addrSz nul
    duration := 0
    pid := 0
    client := 0 }

/-- The settings before the option loop. -/
def initialOptions : Options :=
  { conf := initialConf
    server := false
    wavefile := "sample.wav".toList
    codec := []
    sharedMem := [] }

/-- One iteration of the `switch`. -/
def applyOption (o : Options) (e : OptionEvent) :
    Options × Option OptionExit :=
  match e.val with
  | 'p' =>
      let port := toUInt16 (atoi e.optarg)
      ({ o with conf := { o.conf with port := port } },
        if port = 0 then some (invalidValue "local port".toList e.optarg)
        else none)
  | 'r' =>
      let destPort := toUInt16 (atoi e.optarg)
      ({ o with conf := { o.conf with destPort := destPort } },
        if destPort = 0 then some (invalidValue "remote port".toList e.optarg)
        else none)
  | 'i' =>
      ({ o with
          conf := { o.conf with destAddress := strncpy addrSz e.optarg } },
        none)
  | 'd' =>
      let duration := atoi e.optarg
      ({ o with conf := { o.conf with duration := duration } },
        if duration = 0 then some (invalidValue "duration".toList e.optarg)
        else none)
  | 's' => ({ o with server := true }, none)
  | 'w' => ({ o with wavefile := e.optarg }, none)
  | 'c' => ({ o with codec := e.optarg }, none)
  | 'm' => ({ o with sharedMem := e.optarg }, none)
  | 'h' => (o, some ⟨0, []⟩)
  | _ => (o, some ⟨1, "Invalid options ".toList⟩)

/-- The `while` loop over the results of `pj_getopt_long`. -/
def optionLoop : Options → List OptionEvent → Options × Option OptionExit
  | o, [] => (o, none)
  | o, e :: es =>
      match applyOption o e with
      | (o', none) => optionLoop o' es
      | (o', some exit) => (o', some exit)

/-- The option part of `main`. -/
def parseOptions (getopt : GetoptLong) (argv : List CString) :
    Options × Option OptionExit :=
  optionLoop initialOptions (getopt argv.tail)

/-- The lifetime that `main` supplies after the option loop to a server without
a duration. -/
def Options.defaultDuration (o : Options) : Options :=
  if o.server ∧ o.conf.duration = 0 then
    { o with conf := { o.conf with duration := 60000 } }
  else o

/-! ## Sequences of accepted options -/

theorem optionLoop_cons_of_accepted {o : Options} {e : OptionEvent}
    {es : List OptionEvent} (h : (applyOption o e).2 = none) :
    optionLoop o (e :: es) = optionLoop (applyOption o e).1 es := by
  rw [optionLoop]
  split
  · next o' heq => rw [heq]
  · next o' exit heq =>
      rw [heq] at h
      cases h

theorem optionLoop_cons_of_rejected {o : Options} {e : OptionEvent}
    {es : List OptionEvent} {exit : OptionExit}
    (h : (applyOption o e).2 = some exit) :
    optionLoop o (e :: es) = ((applyOption o e).1, some exit) := by
  rw [optionLoop]
  split
  · next o' heq =>
      rw [heq] at h
      cases h
  · next o' exit' heq =>
      rw [heq] at h ⊢
      cases h
      rfl

end SippScen.MediaEndpoint
