import SippScen.MediaEndpoint.Shutdown
import SippScen.MediaEndpoint.Timeout

/-!
# Handing a configuration to the stream thread

`main` stores a record into `conf` and notifies; the stream thread reads `conf`
at the start of every iteration.  A run is judged by the stores and the reads it
contains, in their order.  They alternate when `main` copies an entry only while
the stream thread waits on the condition variable.
-/

namespace SippScen.MediaEndpoint

open SippScen.Support SippScen.SharedList

/-- The value that a step stores into `conf`. -/
def Report.storedData : Report → Option Data
  | .stored data => some data
  | _ => none

/-- The value that a step reads from `conf`. -/
def Report.readData : Report → Option Data
  | .read data => some data
  | _ => none

/-- The reports that concern `conf`. -/
def Report.isHandover (r : Report) : Bool :=
  r.storedData.isSome || r.readData.isSome

/-- What a run stores into `conf` and reads from it.  The first value comes from
the options. -/
def handovers (o : Options) (es : List (Action × Report)) : List Report :=
  .stored (Process.start o).conf :: (es.map Prod.snd).filter Report.isHandover

/-- After a store the next thing that happens to `conf` is that the value is
read. -/
def ReadNext (a b : Report) : Prop :=
  a.storedData.isSome = true → b.readData = a.storedData

/-- After a read the next thing that happens to `conf` is a store. -/
def StoredNext (a b : Report) : Prop :=
  a.readData.isSome = true → b.storedData.isSome = true

instance : DecidableRel ReadNext :=
  fun _ _ => inferInstanceAs (Decidable (_ → _))

instance : DecidableRel StoredNext :=
  fun _ _ => inferInstanceAs (Decidable (_ → _))

/-- Every value that is stored is read before the next one is stored. -/
def EveryValueRead (o : Options) (es : List (Action × Report)) : Prop :=
  (handovers o es).IsChain ReadNext

/-- No value that is stored is streamed twice. -/
def NoValueRepeated (o : Options) (es : List (Action × Report)) : Prop :=
  (handovers o es).IsChain StoredNext

instance (o : Options) (es : List (Action × Report)) :
    Decidable (EveryValueRead o es) :=
  inferInstanceAs (Decidable (List.IsChain _ _))

instance (o : Options) (es : List (Action × Report)) :
    Decidable (NoValueRepeated o es) :=
  inferInstanceAs (Decidable (List.IsChain _ _))

/-- `main` copies an entry only while the stream thread waits on the condition
variable. -/
def CopiesToWaiter (p : Process) (e : Action × Report) : Prop :=
  e.2.storedData.isSome = true → p.stream = .blocked

instance (p : Process) (e : Action × Report) : Decidable (CopiesToWaiter p e) :=
  inferInstanceAs (Decidable (_ → _))

/-- The statements of an iteration after `conf` was read. -/
def StreamPc.hasRead : StreamPc → Bool
  | .createStream | .startStream | .unlockServer | .serverSleep | .serverTest
  | .startStreaming | .sleep | .stopStreaming | .wait => true
  | _ => false

section Steps

variable {p q : Process} {a : Action} {r : Report}

theorem mainStep_report (h : p.mainStep = some (q, r)) :
    r.isHandover = false := by
  unfold Process.mainStep at h
  split at h
  all_goals try split at h
  all_goals cases h
  all_goals rfl

theorem streamStep_read (hpc : p.stream = .setRemoteAddr)
    (h : p.streamStep = some (q, r)) :
    q = { p with stream := .createStream } ∧ r = .read p.conf := by
  simp only [Process.streamStep, hpc, Option.some.injEq, Prod.mk.injEq] at h
  exact ⟨h.1.symm, h.2.symm⟩

theorem not_silent_of_read (hpc : p.stream = .setRemoteAddr)
    (h : p.streamStep = some (q, r)) : r.isHandover ≠ false := by
  rw [(streamStep_read hpc h).2]
  exact Bool.noConfusion

/-- A step stores a value, or reads it, or leaves `conf` alone. -/
theorem next_handover (h : p.next a = some (q, r)) :
    (∃ data, a = .copy data ∧ r = .stored data ∧ p.main = .copy ∧
      q = { p with conf := data, main := .unlockConf }) ∨
    (a = .stream ∧ p.stream = .setRemoteAddr ∧ r = .read p.conf ∧
      q = { p with stream := .createStream }) ∨
    (r.isHandover = false ∧ q.conf = p.conf) := by
  have hact := Process.act_of_next h
  cases a with
  | signal =>
      cases hact
      exact Or.inr (Or.inr ⟨rfl, rfl⟩)
  | main =>
      exact Or.inr (Or.inr ⟨mainStep_report hact, (mainStep_conf hact).2⟩)
  | copy data =>
      obtain ⟨⟨hcopy, -⟩, heq⟩ := Option.ite_none_right_eq_some.mp hact
      cases heq
      exact Or.inl ⟨data, rfl, rfl, hcopy, rfl⟩
  | stream =>
      right
      have hkeeps := streamStep_keepsMain hact
      by_cases hread : p.stream = .setRemoteAddr
      · left
        obtain ⟨hq, hr⟩ := streamStep_read hread hact
        exact ⟨rfl, hread, hr, hq⟩
      · right
        refine ⟨?_, hkeeps.conf⟩
        cases hpc : p.stream
        all_goals simp only [Process.act, Process.streamStep, hpc] at hact
        all_goals try split at hact
        all_goals cases hact
        all_goals first
          | rfl
          | exact absurd hpc hread
  | _ =>
      obtain ⟨-, heq⟩ := Option.ite_none_right_eq_some.mp hact
      cases heq
      exact Or.inr (Or.inr ⟨rfl, rfl⟩)

theorem streamStep_hasRead (h : p.streamStep = some (q, r)) :
    p.stream = .setRemoteAddr ∨
      ((q.stream.hasRead = true ∨ q.stream = .blocked) →
        p.stream.hasRead = true) := by
  cases hpc : p.stream
  all_goals simp only [Process.streamStep, hpc] at h
  all_goals try split at h
  all_goals cases h
  all_goals simp_all [StreamPc.hasRead, Process.terminate]

end Steps

/-! ## Every value is read -/

/-- The last thing that happened to `conf`, and where the stream thread is when
that was a store. -/
structure HandsOver (rs : List Report) (p : Process) : Prop where
  chain : rs.IsChain ReadNext
  last : rs.getLast? = some (.stored p.conf) ∨
    rs.getLast? = some (.read p.conf)
  hasRead : p.stream.hasRead = true → rs.getLast? = some (.read p.conf)
  blocked : p.stream = .blocked → p.main ≠ .unlockConf → p.main ≠ .notify →
    rs.getLast? = some (.read p.conf)

section HandsOver

variable {rs : List Report} {p q : Process} {a : Action} {r : Report}

theorem HandsOver.silent (hp : HandsOver rs p) (hconf : q.conf = p.conf)
    (hstream : (q.stream.hasRead = true ∨ q.stream = .blocked) →
      p.stream.hasRead = true ∨ p.stream = .blocked ∧ q.stream = .blocked)
    (hmain : q.stream = .blocked → q.main ≠ .unlockConf → q.main ≠ .notify →
      p.stream = .blocked → p.main ≠ .unlockConf ∧ p.main ≠ .notify) :
    HandsOver rs q where
  chain := hp.chain
  last := by
    rw [hconf]
    exact hp.last
  hasRead := by
    intro hread
    rw [hconf]
    rcases hstream (Or.inl hread) with hbefore | ⟨-, hblocked⟩
    · exact hp.hasRead hbefore
    · rw [hblocked] at hread
      cases hread
  blocked := by
    intro hblocked hunlock hnotify
    rw [hconf]
    rcases hstream (Or.inr hblocked) with hbefore | ⟨hbefore, -⟩
    · exact hp.hasRead hbefore
    · obtain ⟨hunlock', hnotify'⟩ := hmain hblocked hunlock hnotify hbefore
      exact hp.blocked hbefore hunlock' hnotify'

theorem mainStep_handsOver (hp : HandsOver rs p)
    (h : p.mainStep = some (q, r)) : HandsOver rs q := by
  apply hp.silent (mainStep_conf h).2
  · obtain ⟨-, hsame | ⟨-, hnotified⟩⟩ := mainStep_stream h
    · rw [hsame]
      rintro (hread | hblocked)
      · exact Or.inl hread
      · exact Or.inr ⟨hblocked, hblocked⟩
    · rw [hnotified, notifyOne_stream]
      split
      · simp [StreamPc.hasRead]
      · next hblocked => simp [hblocked]
  · intro hblocked _ hnotify' hbefore
    constructor
    · intro hunlock
      simp only [Process.mainStep, hunlock, Option.some.injEq,
        Prod.mk.injEq] at h
      exact hnotify' (by rw [← h.1])
    · intro hnotify
      simp only [Process.mainStep, hnotify, Option.some.injEq,
        Prod.mk.injEq] at h
      rw [← h.1] at hblocked
      simp [notifyOne_stream, hbefore] at hblocked

theorem next_handsOver (hp : HandsOver rs p) (hok : CopiesToWaiter p (a, r))
    (h : p.next a = some (q, r)) :
    HandsOver (rs ++ [r].filter Report.isHandover) q := by
  rcases next_handover h with ⟨data, rfl, rfl, hmain, rfl⟩ |
    ⟨rfl, hstream, rfl, rfl⟩ | ⟨hsilent, hconf⟩
  · have hblocked := hok rfl
    have hlast := hp.blocked hblocked (by simp [hmain]) (by simp [hmain])
    refine ⟨?_, ?_, ?_, ?_⟩
    · apply hp.chain.append (List.isChain_singleton _)
      rw [hlast]
      simp [ReadNext, Report.storedData]
    · simp [List.filter, Report.isHandover, Report.storedData]
    · simp [hblocked, StreamPc.hasRead]
    · simp
  · refine ⟨?_, ?_, ?_, ?_⟩
    · apply hp.chain.append (List.isChain_singleton _)
      rcases hp.last with hlast | hlast
      · rw [hlast]
        simp [ReadNext, Report.storedData, Report.readData]
      · rw [hlast]
        simp [ReadNext, Report.storedData]
    all_goals simp [List.filter, Report.isHandover, Report.readData]
  · rw [List.filter_cons_of_neg (by simp [hsilent]), List.filter_nil,
      List.append_nil]
    have hact := Process.act_of_next h
    cases a with
    | main => exact mainStep_handsOver hp hact
    | signal =>
        cases hact
        apply hp.silent hconf
        · exact fun hafter => hafter.imp_right fun h => ⟨h, h⟩
        · exact fun _ hunlock hnotify _ => ⟨hunlock, hnotify⟩
    | stream =>
        have hmain := (streamStep_keepsMain hact).main
        rcases streamStep_hasRead hact with hread | hread
        · exact absurd hsilent (not_silent_of_read hread hact)
        · apply hp.silent hconf
          · exact fun hafter => Or.inl (hread hafter)
          · intro _ hunlock hnotify _
            rw [← hmain]
            exact ⟨hunlock, hnotify⟩
    | copy data =>
        obtain ⟨-, heq⟩ := Option.ite_none_right_eq_some.mp hact
        cases heq
        cases hsilent
    | fail =>
        obtain ⟨-, heq⟩ := Option.ite_none_right_eq_some.mp hact
        cases heq
        exact hp.silent hconf (by simp [StreamPc.hasRead]) (by simp)
    | wake =>
        obtain ⟨-, heq⟩ := Option.ite_none_right_eq_some.mp hact
        cases heq
        exact hp.silent hconf (by simp [StreamPc.hasRead]) (by simp)
    | waitError =>
        obtain ⟨-, heq⟩ := Option.ite_none_right_eq_some.mp hact
        cases heq
        apply hp.silent hconf
        · exact fun hafter => hafter.imp_right fun h => ⟨h, h⟩
        · exact fun _ hunlock hnotify _ => ⟨hunlock, hnotify⟩
    | _ =>
        obtain ⟨hmain, heq⟩ := Option.ite_none_right_eq_some.mp hact
        cases heq
        apply hp.silent hconf
        · exact fun hafter => hafter.imp_right fun h => ⟨h, h⟩
        · simp [hmain]

end HandsOver

/-! ## No value is read twice -/

/-- The stream thread will read `conf` without another wait. -/
def Process.willRead (p : Process) : Bool :=
  match p.stream with
  | .lockConf | .setRemoteAddr => true
  | .construct | .test | .notified | .endIteration => p.running
  | _ => false

/-- While the stream thread is on its way to `conf`, and while `main` has not
notified it, the value stored last has not been read. -/
structure HandsOverOnce (rs : List Report) (p : Process) : Prop where
  chain : rs.IsChain StoredNext
  willRead : p.willRead = true → rs.getLast? = some (.stored p.conf)
  copied : p.main = .unlockConf ∨ p.main = .notify →
    p.stream = .blocked ∧ rs.getLast? = some (.stored p.conf)

section HandsOverOnce

variable {rs : List Report} {p q : Process} {a : Action} {r : Report}

theorem HandsOverOnce.silent (hp : HandsOverOnce rs p)
    (hconf : q.conf = p.conf)
    (hwill : q.willRead = true → p.willRead = true ∨ p.main = .notify)
    (hmain : q.main = .unlockConf ∨ q.main = .notify →
      (p.main = .unlockConf ∨ p.main = .notify) ∧
        (p.stream = .blocked → q.stream = .blocked)) :
    HandsOverOnce rs q where
  chain := hp.chain
  willRead := by
    intro hafter
    rw [hconf]
    rcases hwill hafter with hbefore | hnotify
    · exact hp.willRead hbefore
    · exact (hp.copied (Or.inr hnotify)).2
  copied := by
    intro hafter
    obtain ⟨hbefore, hblocked⟩ := hmain hafter
    obtain ⟨hstream, hlast⟩ := hp.copied hbefore
    rw [hconf]
    exact ⟨hblocked hstream, hlast⟩

theorem mainStep_willRead (hlock : Locking p) (h : p.mainStep = some (q, r))
    (hafter : q.willRead = true) : p.willRead = true ∨ p.main = .notify := by
  have hrunning := hlock.running
  cases hpc : p.main
  all_goals simp only [Process.mainStep, hpc] at h
  all_goals try split at h
  all_goals cases h
  case endSet =>
    left
    unfold Process.willRead at hafter ⊢
    split at hafter <;> simp_all
  case notify => exact Or.inr rfl
  case endNotify =>
    left
    rw [hpc] at hrunning
    unfold Process.willRead at hafter ⊢
    by_cases hblocked : p.stream = .blocked
    · simp [notifyOne_stream, hblocked, hrunning, MainPc.cleared] at hafter
    · simpa [notifyOne_stream, hblocked] using hafter
  all_goals exact Or.inl hafter

theorem mainStep_copied (h : p.mainStep = some (q, r))
    (hafter : q.main = .unlockConf ∨ q.main = .notify) :
    p.main = .unlockConf ∧ q.stream = p.stream := by
  cases hpc : p.main
  all_goals simp only [Process.mainStep, hpc] at h
  all_goals try split at h
  all_goals cases h
  all_goals simp_all [Process.terminate]

theorem streamStep_willRead (hread : p.stream ≠ .setRemoteAddr)
    (h : p.streamStep = some (q, r)) (hafter : q.willRead = true) :
    p.willRead = true := by
  unfold Process.willRead at hafter ⊢
  cases hpc : p.stream
  all_goals simp only [Process.streamStep, hpc] at h
  all_goals try split at h
  all_goals cases h
  all_goals simp_all [Process.terminate]

theorem next_handsOverOnce (hlock : Locking p) (hp : HandsOverOnce rs p)
    (hok : CopiesToWaiter p (a, r)) (ha : a ≠ .wake)
    (h : p.next a = some (q, r)) :
    HandsOverOnce (rs ++ [r].filter Report.isHandover) q := by
  rcases next_handover h with ⟨data, rfl, rfl, hmain, rfl⟩ |
    ⟨rfl, hstream, rfl, rfl⟩ | ⟨hsilent, hconf⟩
  · refine ⟨?_, ?_, ?_⟩
    · apply hp.chain.append (List.isChain_singleton _)
      simp [StoredNext, Report.storedData]
    · simp [List.filter, Report.isHandover, Report.storedData]
    · simp [List.filter, Report.isHandover, Report.storedData, hok rfl]
  · have hlast := hp.willRead (by simp [Process.willRead, hstream])
    refine ⟨?_, ?_, ?_⟩
    · apply hp.chain.append (List.isChain_singleton _)
      rw [hlast]
      simp [StoredNext, Report.readData]
    · simp [Process.willRead]
    · intro hmain
      have hblocked := (hp.copied hmain).1
      rw [hstream] at hblocked
      cases hblocked
  · rw [List.filter_cons_of_neg (by simp [hsilent]), List.filter_nil,
      List.append_nil]
    have hact := Process.act_of_next h
    cases a with
    | main =>
        apply hp.silent hconf (mainStep_willRead hlock hact)
        intro hafter
        obtain ⟨hunlock, hstream⟩ := mainStep_copied hact hafter
        exact ⟨Or.inl hunlock, fun hblocked => hstream.trans hblocked⟩
    | stream =>
        have hkeeps := streamStep_keepsMain hact
        by_cases hread : p.stream = .setRemoteAddr
        · exact absurd hsilent (not_silent_of_read hread hact)
        · apply hp.silent hconf
          · exact fun hafter => Or.inl (streamStep_willRead hread hact hafter)
          · intro hafter
            rw [hkeeps.main] at hafter
            refine ⟨hafter, fun hblocked => ?_⟩
            simp [Process.act, Process.streamStep, hblocked] at hact
    | fail =>
        have hmain := (next_keepsMain (Or.inr (Or.inl rfl)) h).main
        obtain ⟨hfallible, heq⟩ := Option.ite_none_right_eq_some.mp hact
        cases heq
        apply hp.silent hconf (by simp [Process.willRead])
        intro hafter
        refine ⟨hafter, fun hblocked => ?_⟩
        rw [hblocked] at hfallible
        cases hfallible
    | wake => exact absurd rfl ha
    | copy data =>
        obtain ⟨-, heq⟩ := Option.ite_none_right_eq_some.mp hact
        cases heq
        cases hsilent
    | signal =>
        cases hact
        exact hp.silent hconf Or.inl fun hafter => ⟨hafter, id⟩
    | waitError =>
        obtain ⟨-, heq⟩ := Option.ite_none_right_eq_some.mp hact
        cases heq
        exact hp.silent hconf Or.inl fun hafter => ⟨hafter, id⟩
    | _ =>
        obtain ⟨-, heq⟩ := Option.ite_none_right_eq_some.mp hact
        cases heq
        exact hp.silent hconf Or.inl (by simp)

end HandsOverOnce

/-! ## Every run -/

section Runs

variable {o : Options} {es : List (Action × Report)} {p q : Process}

theorem handovers_snoc (a : Action) (r : Report) :
    handovers o (es ++ [(a, r)]) =
      handovers o es ++ [r].filter Report.isHandover := by
  simp [handovers]

theorem handsOver_of_run (h : Run (Restrict ProcessStep CopiesToWaiter)
    (.start o) es p) : HandsOver (handovers o es) p := by
  apply h.history_invariant
    (P := fun es p => HandsOver (handovers o es) p)
  · exact ⟨List.isChain_singleton _, Or.inl rfl, by simp [Process.start,
      StreamPc.hasRead], by simp [Process.start]⟩
  · rintro es p ⟨a, r⟩ q hp ⟨hstep, hok⟩
    rw [handovers_snoc]
    exact next_handsOver hp hok hstep

theorem handsOverOnce_of_run (h : Run (Restrict ProcessStep CopiesToWaiter)
    (.start o) es p) (hwake : ∀ e ∈ es, e.1 ≠ .wake) :
    HandsOverOnce (handovers o es) p := by
  induction h with
  | nil =>
      exact ⟨List.isChain_singleton _, fun _ => rfl, by simp [Process.start]⟩
  | @snoc es t u e hrun hstep ih =>
      obtain ⟨a, r⟩ := e
      rw [handovers_snoc]
      have hlock : Locking t := run_locking (hrun.mono fun _ _ _ h => h.1)
      exact next_handsOverOnce hlock (ih fun e he => hwake e (by simp [he]))
        hstep.2 (hwake (a, r) (by simp)) hstep.1

/-- A copy that does not meet the condition finds a value that nobody has
read. -/
theorem not_everyValueRead_of_copy
    (h : Run (Restrict ProcessStep CopiesToWaiter) (.start o) es p)
    (hwake : ∀ e ∈ es, e.1 ≠ .wake) (hclient : p.server = false)
    {data : Data} {r : Report} (hstep : ProcessStep p (.copy data, r) q)
    (hblocked : p.stream ≠ .blocked) (hcaught : p.stream ≠ .caught) :
    ¬ EveryValueRead o (es ++ [(.copy data, r)]) := by
  have hlock : Locking p := run_locking (h.mono fun _ _ _ h => h.1)
  have honce := handsOverOnce_of_run h hwake
  obtain ⟨data', heq, rfl, hcopy, -⟩ | ⟨hcopy, -⟩ | ⟨hsilent, -⟩ :=
    next_handover hstep
  · have hfree : p.stream.holdsMutex ≠ true := by
      intro hholds
      have howner := hlock.main.mpr (by rw [hcopy]; rfl)
      rw [hlock.stream.mpr hholds] at howner
      cases howner
    have hrunning : p.running = true := by
      rw [hlock.running, hcopy]
      rfl
    have hbranch := hlock.branch
    have hfinished := hlock.finished
    have hwill : p.willRead = true := by
      unfold Process.willRead
      cases hpc : p.stream
      all_goals simp_all [StreamPc.holdsMutex, StreamPc.inBranch]
    rw [EveryValueRead, handovers_snoc]
    intro hchain
    have hlast := (List.isChain_append.mp hchain).2.2 _
      (honce.willRead hwill) (.stored data') rfl
    simp [ReadNext, Report.storedData, Report.readData] at hlast
  · cases hcopy
  · have hact := hstep
    rw [ProcessStep, StepOf, Process.next, if_pos (alive_of_next hstep)] at hact
    obtain ⟨-, heq⟩ := Option.ite_none_right_eq_some.mp hact
    cases heq
    cases hsilent

/-- If entries are copied only to a waiting stream thread, every value is read
before the next is stored, and without spurious wake-ups none is streamed twice;
the first other copy overwrites a value that nobody has read. -/
theorem handover_one_for_one (o : Options) :
    (∀ es p, Run (Restrict ProcessStep CopiesToWaiter) (.start o) es p →
      EveryValueRead o es ∧
        ((∀ e ∈ es, e.1 ≠ .wake) → NoValueRepeated o es)) ∧
      ∀ es p data r q,
        Run (Restrict ProcessStep CopiesToWaiter) (.start o) es p →
        (∀ e ∈ es, e.1 ≠ .wake) → ProcessStep p (.copy data, r) q →
        p.server = false → p.stream ≠ .blocked → p.stream ≠ .caught →
        ¬ EveryValueRead o (es ++ [(.copy data, r)]) :=
  ⟨fun _ _ hrun => ⟨(handsOver_of_run hrun).chain,
      fun hwake => (handsOverOnce_of_run hrun hwake).chain⟩,
    fun _ _ _ _ _ hrun hwake hstep hclient hblocked hcaught =>
      not_everyValueRead_of_copy hrun hwake hclient hstep hblocked hcaught⟩

/-- The statements of `main` for one signal up to the end of the copy. -/
def reconfigure (data : Data) : List Action :=
  [.main, .main, .fetch true, .main, .main, .copy data, .main]

/-- The statements of one iteration of a client, from its test on. -/
def streamOnce : List Action := List.replicate 9 .stream

/-- Two signals are queued while a client streams: the record of the first is
overwritten.  And a notification that comes after the stream thread has
read the record makes it stream the record again. -/
theorem handover_fails :
    (∃ es p, Run ProcessStep (.start (clientOptions 400)) es p ∧
      es.map Prod.fst =
        [.stream] ++ streamOnce ++ [.signal, .signal] ++
          reconfigure (clientRequest 500) ++ [.main] ++
          reconfigure (clientRequest 600) ∧
      ¬ EveryValueRead (clientOptions 400) es) ∧
    ∃ es p, Run ProcessStep (.start (clientOptions 400)) es p ∧
      es.map Prod.fst =
        [.stream, .signal] ++ reconfigure (clientRequest 500) ++
          streamOnce ++ [.main] ++ List.replicate 5 .stream ∧
      ¬ NoValueRepeated (clientOptions 400) es := by
  constructor
  · obtain ⟨p, es, hrun, hactions, htest⟩ := exists_run_of_exec Process.next
      (.start (clientOptions 400))
      ([.stream] ++ streamOnce ++ [.signal, .signal] ++
        reconfigure (clientRequest 500) ++ [.main] ++
        reconfigure (clientRequest 600))
      (fun out => decide (¬ EveryValueRead (clientOptions 400) out.2))
      (by decide)
    exact ⟨es, p, hrun, hactions, of_decide_eq_true htest⟩
  · obtain ⟨p, es, hrun, hactions, htest⟩ := exists_run_of_exec Process.next
      (.start (clientOptions 400))
      ([.stream, .signal] ++ reconfigure (clientRequest 500) ++
        streamOnce ++ [.main] ++ List.replicate 5 .stream)
      (fun out => decide (¬ NoValueRepeated (clientOptions 400) out.2))
      (by decide)
    exact ⟨es, p, hrun, hactions, of_decide_eq_true htest⟩

end Runs

end SippScen.MediaEndpoint
