import SippScen.Orchestrator.Expiry
import SippScen.Orchestrator.Ports
import SippScen.Support.KeyedSeq
import SippScen.Support.Trace

/-!
# The files of the scenarios

The preparation of a scenario writes up to five files, whose names are made from
the name of the scenario.  The files of different scenarios differ, unless two
scenarios have one name or a name is that of a registering scenario with
`_register` or `_unregister` at its end.
-/

namespace SippScen.Orchestrator

open SippScen.Support Effect

variable {w : World} {run : RunConfig} {servers : Dict PyStr PyStr}

/-! ## Names of files -/

namespace World

/-- The instructions to register. -/
def registerFile (w : World) (name : PyStr) : PyStr :=
  pathJoin w.outputDir (name ++ "_register.xml".toList)

/-- The instructions to unregister. -/
def unregisterFile (w : World) (name : PyStr) : PyStr :=
  pathJoin w.outputDir (name ++ "_unregister.xml".toList)

end World

/-- The scenario has a section `register`. -/
def ScenarioConfig.registers (scn : ScenarioConfig) : Bool :=
  match scn.register with
  | .value _ => true
  | _ => false

/-- It gives a file to unregister, too. -/
def ScenarioConfig.unregisters (scn : ScenarioConfig) : Bool :=
  match scn.register with
  | .value reg =>
      match reg.unregisterFile with
      | .value template => decide (template ≠ [])
      | _ => false
  | _ => false

/-- The files of the registration. -/
def ScenarioConfig.registerFiles (w : World) (name : PyStr)
    (scn : ScenarioConfig) : List PyStr :=
  (if scn.registers then [w.registerFile name] else []) ++
    if scn.unregisters then [w.unregisterFile name] else []

/-- The files of an entry, in the order in which they are written. -/
def filesOf (w : World) : Entry → List PyStr
  | (_, none) => []
  | (name, some scn) =>
      [w.xmlFile name, w.csvFilePorts name, w.csvFileDn name] ++
        scn.registerFiles w name

/-- The files that the preparation of a configuration writes, in order. -/
def writtenFiles (w : World) (run : RunConfig) (servers : Dict PyStr PyStr)
    (config : List Entry) : List (PyStr × FileContent) :=
  logEach (prepareScenario w run servers) config (initialPrepared servers)

/-- No path is written twice. -/
def WrittenOnce (files : List (PyStr × FileContent)) : Prop :=
  (files.map Prod.fst).Nodup

/-- Every path keeps the content that was written to it. -/
def Kept (files : List (PyStr × FileContent)) : Prop :=
  ∀ file ∈ files, lastKey Prod.fst file.1 files = some file

/-- No scenario of the configuration fails. -/
def AllPrepared (w : World) (run : RunConfig) (servers : Dict PyStr PyStr)
    (config : List Entry) : Prop :=
  AllReturn (prepareScenario w run servers) config (initialPrepared servers)

/-- The files of the registration of `a` have the name of `b`. -/
def Shadows (a b : Entry) : Prop :=
  ∃ scn, a.2 = some scn ∧
    (scn.registers = true ∧ b.1 = a.1 ++ "_register".toList ∨
      scn.unregisters = true ∧ b.1 = a.1 ++ "_unregister".toList)

/-- Neither name is the other one or belongs to its registration. -/
def NamesApart (a b : Entry) : Prop :=
  a.1 ≠ b.1 ∧ ¬ Shadows a b ∧ ¬ Shadows b a

/-- The directory with the separator. -/
def directory (dir : PyStr) : PyStr :=
  if dir = [] ∨ dir.getLast? = some '/' then dir else dir ++ ['/']

/-- The name is not an absolute path. -/
def Relative (name : PyStr) : Prop := name.head? ≠ some '/'

instance (name : PyStr) : Decidable (Relative name) :=
  inferInstanceAs (Decidable (_ ≠ _))

/-! ## What a scenario writes -/

section Writes

variable {name : PyStr} {scn : ScenarioConfig} {c : CallDescription}

theorem traces_writeFile (path : PyStr) (content : FileContent) :
    (writeFile w path content).Traces Prod.fst [path] :=
  traces_ite (traces_emit _) (traces_fail _)

theorem traces_copyFile (source path : PyStr) :
    (copyFile w source path).Traces Prod.fst [path] :=
  traces_ite (traces_emit _) (traces_fail _)

theorem traces_joinCli (cli : Cli) : (joinCli cli).Traces Prod.fst [] :=
  traces_ite (traces_pure _) (traces_fail _)

theorem traces_describeCall :
    (describeCall w servers name scn).Traces Prod.fst [w.xmlFile name] := by
  refine traces_bind_quiet (traces_lift _) fun p => ?_
  refine traces_bind_quiet (traces_lift _) fun file => ?_
  refine traces_bind_quiet (traces_require _ _) fun template => ?_
  refine traces_bind_quiet (traces_require _ _) fun timeSign => ?_
  refine traces_bind_quiet (traces_lift _) fun duration => ?_
  refine traces_bind_quiet (traces_lift _) fun content => ?_
  refine traces_bind (q := []) (traces_writeFile _ _) fun _ => ?_
  refine traces_bind_quiet (traces_lift _) fun n => ?_
  exact traces_bind_quiet (traces_lift _) fun offset => traces_pure _

theorem traces_recordRange : (recordRange name c).Traces Prod.fst [] := by
  refine traces_bind_quiet (traces_require _ _) fun ms => ?_
  refine traces_bind_quiet (traces_read _) fun found => ?_
  exact traces_bind_quiet (traces_require _ _) fun ranges => traces_change _

theorem traces_writePortsAndDns :
    (writePortsAndDns w name scn c).Traces Prod.fst
      [w.csvFilePorts name, w.csvFileDn name] := by
  refine traces_bind (p := [w.csvFilePorts name]) (traces_writeFile _ _)
    fun _ => ?_
  refine traces_bind_quiet (traces_lift _) fun dnStart => ?_
  refine traces_bind_quiet (traces_require _ _) fun offset => ?_
  exact traces_bind (q := []) (traces_writeFile _ _) fun _ => traces_pure _

theorem traces_composeRun : (composeRun w run name scn).Traces Prod.fst [] := by
  have hcontrol : getControlPort.Traces (Prod.fst : PyStr × FileContent → PyStr)
      [] := by
    refine traces_bind_quiet (traces_read _) fun port => ?_
    exact traces_bind_quiet (traces_change _) fun _ => traces_pure _
  refine traces_bind_quiet hcontrol fun port => ?_
  refine traces_bind_quiet (traces_require _ _) fun primaryIp => ?_
  refine traces_bind_quiet (traces_lift _) fun localIp => ?_
  refine traces_bind_quiet (traces_require _ _) fun sipPort => ?_
  refine traces_bind_quiet (traces_change _) fun _ => ?_
  refine traces_bind_quiet (traces_lift _) fun receiveTm => ?_
  refine traces_bind_quiet (traces_lift _) fun sendTm => ?_
  refine traces_bind_quiet (traces_require _ _) fun type => ?_
  refine traces_bind_quiet (traces_require _ _) fun cps => ?_
  refine traces_bind_quiet (traces_lift _) fun totalCalls => ?_
  exact traces_bind_quiet (traces_lift _) fun cli => traces_pure _

theorem traces_prepareRegister {dnStart : ℤ} {r : RunDescription} :
    (prepareRegister w run name scn c dnStart r).Traces Prod.fst
      (scn.registerFiles w name) := by
  refine traces_lift_bind fun found hfound => ?_
  cases hreg : scn.register with
  | absent =>
      rw [hreg] at hfound
      cases hfound
      have hfiles : scn.registerFiles w name = [] := by
        simp [ScenarioConfig.registerFiles, ScenarioConfig.registers,
          ScenarioConfig.unregisters, hreg]
      rw [hfiles]
      exact traces_pure _
  | malformed =>
      rw [hreg] at hfound
      cases hfound
  | value reg =>
      rw [hreg] at hfound
      cases hfound
      have hregisters : scn.registers = true := by
        simp [ScenarioConfig.registers, hreg]
      rw [ScenarioConfig.registerFiles, if_pos hregisters]
      refine traces_bind_quiet (traces_lift _) fun file => ?_
      refine traces_bind_quiet (traces_lift _) fun content => ?_
      refine traces_bind (traces_writeFile _ _) fun _ => ?_
      refine traces_bind_quiet
        (traces_ite (traces_fail _) (traces_pure _)) fun _ => ?_
      refine traces_bind_quiet (traces_lift _) fun cli => ?_
      refine traces_bind_quiet (traces_joinCli _) fun _ => ?_
      refine traces_bind_quiet (traces_change _) fun _ => ?_
      refine traces_lift_bind fun unregister hunregister => ?_
      cases hfile : reg.unregisterFile with
      | absent =>
          rw [hfile] at hunregister
          cases hunregister
          have hnone : scn.unregisters = false := by
            simp [ScenarioConfig.unregisters, hreg, hfile]
          rw [hnone]
          exact traces_pure _
      | malformed =>
          rw [hfile] at hunregister
          cases hunregister
      | value template =>
          rw [hfile] at hunregister
          cases hunregister
          by_cases hempty : template = []
          · have hnone : scn.unregisters = false := by
              simp [ScenarioConfig.unregisters, hreg, hfile, hempty]
            rw [hnone, hempty]
            exact traces_pure _
          · have hsome : scn.unregisters = true := by
              simp [ScenarioConfig.unregisters, hreg, hfile, hempty]
            rw [hsome, Option.filter_some, if_pos (by simpa using hempty)]
            refine traces_bind (q := []) (traces_copyFile _ _) fun _ => ?_
            exact traces_bind_quiet (traces_lift _) fun cli => traces_change _

theorem traces_recordScenario {r : RunDescription} :
    (recordScenario name c r).Traces Prod.fst [] := by
  refine traces_bind_quiet (traces_joinCli _) fun _ => ?_
  refine traces_bind_quiet (traces_change _) fun _ => ?_
  refine traces_bind_quiet (traces_read _) fun cli => ?_
  cases cli with
  | none => exact traces_pure _
  | some cli => exact traces_joinCli _

theorem traces_recordPattern : (recordPattern name scn).Traces Prod.fst [] := by
  refine traces_bind_quiet (traces_lift _) fun pattern => ?_
  cases pattern with
  | none => exact traces_pure _
  | some pattern =>
      refine traces_bind_quiet (traces_lift _) fun accepted => ?_
      cases accepted with
      | none => exact traces_pure _
      | some accepted =>
          refine traces_bind_quiet (traces_read _) fun found => ?_
          exact traces_bind_quiet (traces_require _ _) fun _ => traces_change _

/-- The preparation writes the files of the entry in order; a failure leaves the
last ones out. -/
theorem traces_prepareScenario (e : Entry) :
    (prepareScenario w run servers e).Traces Prod.fst (filesOf w e) := by
  obtain ⟨name, o⟩ := e
  cases o with
  | none => exact traces_fail _
  | some scn =>
      change Traces Prod.fst (describeCall w servers name scn >>= fun c => do
        recordRange name c
        prepareRun w run name scn c) _
      refine traces_bind (p := [w.xmlFile name]) traces_describeCall
        fun c => ?_
      refine traces_bind_quiet traces_recordRange fun _ => ?_
      refine traces_bind (p := [w.csvFilePorts name, w.csvFileDn name])
        traces_writePortsAndDns fun dnStart => ?_
      refine traces_bind_quiet traces_composeRun fun r => ?_
      rw [← List.append_nil (scn.registerFiles w name)]
      refine traces_bind traces_prepareRegister fun _ => ?_
      exact traces_bind_quiet traces_recordScenario fun _ => traces_recordPattern

end Writes

/-! ## Different files -/

section Names

variable {a b : Entry} {name name' : PyStr}

theorem pathJoin_of_relative (dir : PyStr) (h : Relative name) :
    pathJoin dir name = directory dir ++ name := by
  unfold pathJoin directory
  rw [if_neg h]
  split
  · rfl
  · rfl

theorem Relative.append (h : Relative name) {suffix : PyStr}
    (hsuffix : Relative suffix) : Relative (name ++ suffix) := by
  cases name with
  | nil => exact hsuffix
  | cons c rest => exact h

/-- The kinds of files. -/
inductive FileKind
  | xml
  | ports
  | dn
  | register
  | unregister
deriving DecidableEq

/-- What is put between the name of the scenario and the extension. -/
def FileKind.stem : FileKind → PyStr
  | xml => []
  | ports => "_ports".toList
  | dn => "_dn".toList
  | register => "_register".toList
  | unregister => "_unregister".toList

def FileKind.extension : FileKind → PyStr
  | xml | register | unregister => ".xml".toList
  | ports | dn => ".csv".toList

/-- The kinds of files of an entry. -/
def kindsOf : Entry → List FileKind
  | (_, none) => []
  | (_, some scn) =>
      [.xml, .ports, .dn] ++ ((if scn.registers then [.register] else []) ++
        if scn.unregisters then [.unregister] else [])

theorem filesOf_eq (w : World) (h : Relative a.1) :
    filesOf w a = (kindsOf a).map fun kind =>
      directory w.outputDir ++ (a.1 ++ (kind.stem ++ kind.extension)) := by
  obtain ⟨name, o⟩ := a
  cases o with
  | none => rfl
  | some scn =>
      have hregister : w.registerFile name =
          directory w.outputDir ++ (name ++ "_register.xml".toList) :=
        pathJoin_of_relative _ (h.append (by decide))
      have hunregister : w.unregisterFile name =
          directory w.outputDir ++ (name ++ "_unregister.xml".toList) :=
        pathJoin_of_relative _ (h.append (by decide))
      have hname : pathJoin w.outputDir name = directory w.outputDir ++ name :=
        pathJoin_of_relative _ h
      simp only [filesOf, kindsOf, ScenarioConfig.registerFiles, hregister,
        hunregister, World.xmlFile, World.csvFilePorts, World.csvFileDn, hname,
        List.append_assoc]
      split <;> split <;> rfl

theorem slash_notMem_kind (kind : FileKind) :
    '/' ∉ kind.stem ++ kind.extension := by
  cases kind <;> decide

/-- The files of a name without a separator are in the output directory. -/
theorem exists_base (w : World) (h : '/' ∉ a.1) {path : PyStr}
    (hpath : path ∈ filesOf w a) :
    ∃ base, '/' ∉ base ∧ path = directory w.outputDir ++ base := by
  have hrelative : Relative a.1 := fun hhead => h (List.mem_of_head? hhead)
  rw [filesOf_eq w hrelative] at hpath
  obtain ⟨kind, -, rfl⟩ := List.mem_map.mp hpath
  refine ⟨_, ?_, rfl⟩
  rw [List.mem_append, not_or]
  exact ⟨h, slash_notMem_kind kind⟩

theorem append_ne_append {s t : PyStr} {c d : Char} (hs : s.getLast? = some c)
    (ht : t.getLast? = some d) (hne : c ≠ d) : name ++ s ≠ name' ++ t := by
  intro h
  have hlast := congrArg List.getLast? h
  rw [List.getLast?_append, hs, List.getLast?_append, ht] at hlast
  exact hne (Option.some.inj hlast)

/-- Files of two scenarios that have the same name. -/
inductive Collide (name name' : PyStr) : FileKind → FileKind → Prop
  | same (kind : FileKind) (h : name = name') : Collide name name' kind kind
  | register (h : name' = name ++ "_register".toList) :
      Collide name name' .register .xml
  | unregister (h : name' = name ++ "_unregister".toList) :
      Collide name name' .unregister .xml
  | registered (h : name = name' ++ "_register".toList) :
      Collide name name' .xml .register
  | unregistered (h : name = name' ++ "_unregister".toList) :
      Collide name name' .xml .unregister

theorem collide_iff {kind kind' : FileKind} :
    Collide name name' kind kind' ↔
      name ++ (kind.stem ++ kind.extension) =
        name' ++ (kind'.stem ++ kind'.extension) := by
  have hregister : ∀ {n n' : PyStr},
      n ++ "_register".toList ≠ n' ++ "_unregister".toList := by
    intro n n' h
    -- without `register` one name ends with `_` and the other one with `n`
    have hcut : n ++ ("_".toList ++ "register".toList) =
        n' ++ ("_un".toList ++ "register".toList) := h
    rw [← List.append_assoc, ← List.append_assoc] at hcut
    exact append_ne_append (c := '_') (d := 'n') rfl rfl (by decide)
      (List.append_cancel_right hcut)
  constructor
  · intro h
    cases h with
    | same kind h => rw [h]
    | register h => rw [h, List.append_assoc]; rfl
    | unregister h => rw [h, List.append_assoc]; rfl
    | registered h => rw [h, List.append_assoc]; rfl
    | unregistered h => rw [h, List.append_assoc]; rfl
  · intro h
    rw [← List.append_assoc, ← List.append_assoc] at h
    have hextension : kind.extension = kind'.extension := by
      cases kind <;> cases kind' <;> first
        | rfl
        | exact absurd h
            (append_ne_append (c := 'l') (d := 'v') rfl rfl (by decide))
        | exact absurd h
            (append_ne_append (c := 'v') (d := 'l') rfl rfl (by decide))
    rw [hextension] at h
    replace h := List.append_cancel_right h
    by_cases hsame : kind = kind'
    · subst hsame
      exact .same kind (List.append_cancel_right h)
    cases kind <;> cases kind' <;>
      first
        | exact absurd rfl hsame
        | exact absurd hextension (by decide)
        | skip
    case xml.register =>
      change name ++ [] = _ at h
      rw [List.append_nil] at h
      exact .registered h
    case xml.unregister =>
      change name ++ [] = _ at h
      rw [List.append_nil] at h
      exact .unregistered h
    case register.xml =>
      change _ = name' ++ [] at h
      rw [List.append_nil] at h
      exact .register h.symm
    case unregister.xml =>
      change _ = name' ++ [] at h
      rw [List.append_nil] at h
      exact .unregister h.symm
    case register.unregister => exact absurd h hregister
    case unregister.register => exact absurd h.symm hregister
    case ports.dn =>
      exact absurd h (append_ne_append (c := 's') (d := 'n') rfl rfl (by decide))
    case dn.ports =>
      exact absurd h (append_ne_append (c := 'n') (d := 's') rfl rfl (by decide))

theorem mem_kindsOf {scn : ScenarioConfig} {kind : FileKind} :
    kind ∈ kindsOf (name, some scn) ↔
      kind = .xml ∨ kind = .ports ∨ kind = .dn ∨
        kind = .register ∧ scn.registers = true ∨
        kind = .unregister ∧ scn.unregisters = true := by
  cases hregisters : scn.registers <;> cases hunregisters : scn.unregisters <;>
    simp [kindsOf, hregisters, hunregisters]

theorem nodup_kindsOf (a : Entry) : (kindsOf a).Nodup := by
  obtain ⟨name, o⟩ := a
  cases o with
  | none => exact List.nodup_nil
  | some scn =>
      cases hregisters : scn.registers <;>
        cases hunregisters : scn.unregisters <;>
        simp [kindsOf, hregisters, hunregisters]

theorem nodup_filesOf (w : World) (h : Relative a.1) : (filesOf w a).Nodup := by
  rw [filesOf_eq w h]
  refine (nodup_kindsOf a).map_on fun kind _ kind' _ heq => ?_
  have hcollide : Collide a.1 a.1 kind kind' :=
    collide_iff.mpr (List.append_cancel_left heq)
  cases hcollide with
  | same kind h => rfl
  | register h => simp at h
  | unregister h => simp at h
  | registered h => simp at h
  | unregistered h => simp at h

/-- The files of two entries are different exactly when none of them collide. -/
theorem disjoint_filesOf_iff (w : World) (ha : Relative a.1)
    (hb : Relative b.1) :
    (filesOf w a).Disjoint (filesOf w b) ↔
      ∀ kind ∈ kindsOf a, ∀ kind' ∈ kindsOf b,
        ¬ Collide a.1 b.1 kind kind' := by
  rw [filesOf_eq w ha, filesOf_eq w hb]
  constructor
  · intro h kind hkind kind' hkind' hcollide
    have hpath := congrArg (directory w.outputDir ++ ·) (collide_iff.mp hcollide)
    refine h (List.mem_map.mpr ⟨kind, hkind, rfl⟩) ?_
    exact List.mem_map.mpr ⟨kind', hkind', hpath.symm⟩
  · intro h path hpath hpath'
    obtain ⟨kind, hkind, rfl⟩ := List.mem_map.mp hpath
    obtain ⟨kind', hkind', heq⟩ := List.mem_map.mp hpath'
    exact h kind hkind kind' hkind'
      (collide_iff.mpr (List.append_cancel_left heq).symm)

/-- Apart names give different files. -/
theorem disjoint_of_apart (w : World) (ha : Relative a.1) (hb : Relative b.1)
    (h : NamesApart a b) : (filesOf w a).Disjoint (filesOf w b) := by
  obtain ⟨name, o⟩ := a
  obtain ⟨name', o'⟩ := b
  cases o with
  | none => exact List.disjoint_nil_left _
  | some scn =>
  cases o' with
  | none => exact List.disjoint_nil_right _
  | some scn' =>
  obtain ⟨hne, hshadows, hshadows'⟩ := h
  rw [disjoint_filesOf_iff w ha hb]
  intro kind hkind kind' hkind' hcollide
  rw [mem_kindsOf] at hkind hkind'
  cases hcollide with
  | same kind heq => exact hne heq
  | register heq =>
      have hregisters : scn.registers = true := by simpa using hkind
      exact hshadows ⟨scn, rfl, Or.inl ⟨hregisters, heq⟩⟩
  | unregister heq =>
      have hunregisters : scn.unregisters = true := by simpa using hkind
      exact hshadows ⟨scn, rfl, Or.inr ⟨hunregisters, heq⟩⟩
  | registered heq =>
      have hregisters : scn'.registers = true := by simpa using hkind'
      exact hshadows' ⟨scn', rfl, Or.inl ⟨hregisters, heq⟩⟩
  | unregistered heq =>
      have hunregisters : scn'.unregisters = true := by simpa using hkind'
      exact hshadows' ⟨scn', rfl, Or.inr ⟨hunregisters, heq⟩⟩

/-- A name that belongs to a registration collides. -/
theorem Shadows.not_disjoint (w : World) (ha : Relative a.1)
    (hb : Relative b.1) (hsome : b.2.isSome = true) (h : Shadows a b) :
    ¬ (filesOf w a).Disjoint (filesOf w b) := by
  obtain ⟨name, o⟩ := a
  obtain ⟨name', o'⟩ := b
  obtain ⟨scn', rfl⟩ := Option.isSome_iff_exists.mp hsome
  obtain ⟨scn, rfl, hregisters⟩ := h
  rw [disjoint_filesOf_iff w ha hb]
  intro hnone
  rcases hregisters with ⟨hregisters, heq⟩ | ⟨hunregisters, heq⟩
  · exact hnone .register (by simp [mem_kindsOf, hregisters]) .xml
      (by simp [mem_kindsOf]) (.register heq)
  · exact hnone .unregister (by simp [mem_kindsOf, hunregisters]) .xml
      (by simp [mem_kindsOf]) (.unregister heq)

/-- Different files need apart names. -/
theorem apart_of_disjoint (w : World) (ha : Relative a.1) (hb : Relative b.1)
    (hsome : a.2.isSome = true) (hsome' : b.2.isSome = true)
    (h : (filesOf w a).Disjoint (filesOf w b)) : NamesApart a b := by
  refine ⟨?_, fun hshadows => hshadows.not_disjoint w ha hb hsome' h,
    fun hshadows => hshadows.not_disjoint w hb ha hsome
      fun _ hfile hfile' => h hfile' hfile⟩
  obtain ⟨name, o⟩ := a
  obtain ⟨name', o'⟩ := b
  obtain ⟨scn, rfl⟩ := Option.isSome_iff_exists.mp hsome
  obtain ⟨scn', rfl⟩ := Option.isSome_iff_exists.mp hsome'
  intro heq
  rw [disjoint_filesOf_iff w ha hb] at h
  exact h .xml (by simp [mem_kindsOf]) .xml (by simp [mem_kindsOf])
    (.same .xml heq)

end Names

/-! ## The whole configuration -/

section Configuration

variable {config : List Entry}

/-- An entry whose preparation returned is a mapping. -/
theorem isSome_of_allReturn {s : Prepared}
    (h : AllReturn (prepareScenario w run servers) config s) :
    ∀ e ∈ config, e.2.isSome = true := by
  induction config generalizing s with
  | nil => simp
  | cons e rest ih =>
      obtain ⟨he, hrest⟩ := h
      rw [List.forall_mem_cons]
      refine ⟨?_, ih hrest⟩
      obtain ⟨name, o⟩ := e
      cases o with
      | none => cases he
      | some scn => rfl

/-- If the names of a configuration are pairwise apart, every file keeps what was
written to it, whichever scenarios fail.  If no scenario fails, this is also
necessary: otherwise a path is written twice.  Files are told apart by their
paths; they all are in the output directory if no name has a separator. -/
theorem files_kept (w : World) (run : RunConfig) (servers : Dict PyStr PyStr)
    (hnames : ∀ e ∈ config, Relative e.1) :
    (config.Pairwise NamesApart →
        Kept (writtenFiles w run servers config)) ∧
      (AllPrepared w run servers config →
        (WrittenOnce (writtenFiles w run servers config) ↔
          config.Pairwise NamesApart)) ∧
      ((∀ e ∈ config, '/' ∉ e.1) →
        ∀ file ∈ writtenFiles w run servers config,
          ∃ base, '/' ∉ base ∧ file.1 = directory w.outputDir ++ base) := by
  have honce : config.Pairwise NamesApart →
      WrittenOnce (writtenFiles w run servers config) := by
    intro hapart
    refine List.Nodup.sublist
      (sublist_logEach traces_prepareScenario config _) ?_
    rw [List.nodup_flatMap]
    refine ⟨fun e he => nodup_filesOf w (hnames e he), ?_⟩
    exact hapart.imp_of_mem fun ha hb =>
      disjoint_of_apart w (hnames _ ha) (hnames _ hb)
  refine ⟨?_, fun hall => ⟨?_, honce⟩, ?_⟩
  · intro hapart file hfile
    exact lastKey_of_mem (honce hapart) hfile
  · intro hnodup
    rw [WrittenOnce, writtenFiles,
      logEach_of_allReturn traces_prepareScenario hall,
      List.nodup_flatMap] at hnodup
    have hsome := isSome_of_allReturn hall
    exact hnodup.2.imp_of_mem fun ha hb =>
      apart_of_disjoint w (hnames _ ha) (hnames _ hb) (hsome _ ha)
        (hsome _ hb)
  · intro hplain file hfile
    have hpath := (sublist_logEach traces_prepareScenario config _).subset
      (List.mem_map_of_mem hfile)
    obtain ⟨e, he, hpath⟩ := List.mem_flatMap.mp hpath
    exact exists_base w (hplain e he) hpath

/-- A scenario with the name of the other one's registration. -/
def shadowedNames : List Entry :=
  [("A".toList, some (registeringClient 10)),
    ("A_register".toList, some (otherClient "ms1".toList 20020))]

/-- The second scenario overwrites the instructions to register. -/
theorem files_kept_shadowed :
    AllPrepared plainWorld minuteRun oneServer shadowedNames ∧
      ¬ WrittenOnce (writtenFiles plainWorld minuteRun oneServer
        shadowedNames) := by
  have hall : AllPrepared plainWorld minuteRun oneServer shadowedNames :=
    ⟨by decide +kernel, by decide +kernel, trivial⟩
  have hnames : ∀ e ∈ shadowedNames, Relative e.1 := by decide
  refine ⟨hall, fun honce => ?_⟩
  have hapart :=
    ((files_kept plainWorld minuteRun oneServer hnames).2.1 hall).mp honce
  have hfirst := (List.pairwise_cons.mp hapart).1 _ (List.mem_singleton_self _)
  exact hfirst.2.1 ⟨registeringClient 10, rfl, Or.inl ⟨rfl, rfl⟩⟩

end Configuration

end SippScen.Orchestrator
