import SippScen.MediaServer.Worker

/-!
# The entries after a request

What one critical section of the worker does to the entries of the registry,
told by the port of the request: the entries of other ports keep their records
and their order, and the port itself ends with one entry or with none.
-/

namespace SippScen.MediaServer

open SippScen.Support SippScen.SharedList SharedLst

variable {N : ℕ} {k : Kernel} {l : SharedLst N} {data : Data} {s : Served N}

/-- The entries of a port. -/
def entriesOf (port : ℤ) (entries : List Data) : List Data :=
  entries.filter fun r => r.port = port

/-- The entries of all other ports. -/
def entriesBeside (port : ℤ) (entries : List Data) : List Data :=
  entries.filter fun r => r.port ≠ port

/-- Some line of the output starts with the text. -/
def Wrote (output : List CString) (text : String) : Prop :=
  ∃ line ∈ output, text.toList <+: line

/-- The pid is that of the process that was signalled successfully, or of the
child that was just launched. -/
def ServedBy (k : Kernel) (signalled : Option ℤ)
    (launched : Option (ℤ × Data)) (pid : ℤ) : Prop :=
  (signalled = some pid ∧ k.sigqueue pid = true) ∨
    (k.fork = some pid ∧ ∃ d, launched = some (pid, d))

/-! ## The lines of the output -/

theorem not_wrote_report {text text' : String} (d : Data)
    (h : ¬ text.toList <+: text'.toList) (h' : ¬ text'.toList <+: text.toList) :
    ¬ Wrote [report text' d] text := by
  rintro ⟨line, hline, hstart⟩
  obtain rfl := List.mem_singleton.mp hline
  have hreport : text'.toList <+: report text' d := by
    simp only [report, List.append_assoc]
    exact List.prefix_append _ _
  exact (List.prefix_or_prefix_of_prefix hstart hreport).elim h h'

theorem not_wrote_nil (text : String) : ¬ Wrote [] text := by
  rintro ⟨line, hline, -⟩
  exact List.not_mem_nil hline

theorem wrote_report (text : String) (d : Data) :
    Wrote [report text d] text := by
  refine ⟨_, List.mem_singleton_self _, ?_⟩
  simp only [report, List.append_assoc]
  exact List.prefix_append _ _

/-! ## The entries in each outcome -/

variable {entries after : List Data} {signalled : Option ℤ}
variable {launched : Option (ℤ × Data)} {output : List CString}

theorem entriesBeside_append_self {port : ℤ} {r : Data} (h : r.port = port) :
    entriesBeside port (entries ++ [r]) = entriesBeside port entries := by
  simp [entriesBeside, h]

/-- The entries of other ports keep their records and their order. -/
theorem Outcome.beside
    (h : Outcome N k entries data after signalled launched output) :
    entriesBeside data.port after = entriesBeside data.port entries := by
  have hreject : ∀ r ∈ entries, r.port = data.port →
      (decide (r.port ≠ data.port)) = false := by
    intro r _ hport
    simpa using hport
  have hremoved : entriesBeside data.port
      (removeKey Data.port data.port entries) =
      entriesBeside data.port entries :=
    filter_removeKey hreject
  rcases h with ⟨r, hfind, -⟩ | ⟨r, pid, hfind, -, -⟩ | ⟨r, hfind, -, -⟩ |
    ⟨pid, hfind, -, -⟩ | ⟨pid, hfind, -, -⟩ | ⟨hfind, -⟩
  · exact filter_replaceKey hreject (by simp)
  · exact (entriesBeside_append_self (r := { data with pid := pid })
      rfl).trans hremoved
  · exact hremoved
  · exact entriesBeside_append_self (r := { data with pid := pid }) rfl
  · rfl
  · rfl

/-- The port of the request ends with the entry of the process that serves
it, or with none, where no child could be launched or registered. -/
theorem Outcome.own (hdistinct : (entries.map Data.port).Nodup)
    (h : Outcome N k entries data after signalled launched output) :
    (∃ pid, entriesOf data.port after = [{ data with pid := pid }] ∧
        ServedBy k signalled launched pid) ∨
      (entriesOf data.port after = [] ∧ signalled = none ∧
        (k.fork = none ∨ Wrote output "Failed to add: ")) := by
  have hnew : ∀ pid (others : List Data), (∀ r ∈ others, r.port ≠ data.port) →
      entriesOf data.port (others ++ [{ data with pid := pid }]) =
        [{ data with pid := pid }] := by
    intro pid others hothers
    simpa [entriesOf] using hothers
  have hremoved : ∀ r ∈ removeKey Data.port data.port entries,
      r.port ≠ data.port := fun r hr => ((mem_removeKey hdistinct).mp hr).2
  have hnone : ∀ others : List Data, (∀ r ∈ others, r.port ≠ data.port) →
      entriesOf data.port others = [] := by
    intro others hothers
    simpa [entriesOf] using hothers
  rcases h with ⟨r, hfind, hsig⟩ | ⟨r, pid, hfind, -, hfork⟩ |
    ⟨r, hfind, -, hfork⟩ | ⟨pid, hfind, hfork, -⟩ | ⟨pid, hfind, hfork, -⟩ |
    ⟨hfind, hfork⟩
  · refine Or.inl ⟨r.pid, ?_, Or.inl ⟨rfl, hsig⟩⟩
    obtain ⟨hmem, hport⟩ := mem_of_findKey hfind
    have hdistinct' : ((replaceKey Data.port { data with pid := r.pid }
        entries).map Data.port).Nodup := by
      rwa [map_key_replaceKey]
    exact filter_key_of_mem hdistinct' (mem_replaceKey_self ⟨r, hmem, hport⟩)
  · exact Or.inl ⟨pid, hnew pid _ hremoved, Or.inr ⟨hfork, _, rfl⟩⟩
  · exact Or.inr ⟨hnone _ hremoved, rfl, Or.inl hfork⟩
  · exact Or.inl ⟨pid, hnew pid _ (findKey_eq_none_iff.mp hfind),
      Or.inr ⟨hfork, _, rfl⟩⟩
  · exact Or.inr ⟨hnone _ (findKey_eq_none_iff.mp hfind), rfl,
      Or.inr (wrote_report _ _)⟩
  · exact Or.inr ⟨hnone _ (findKey_eq_none_iff.mp hfind), rfl, Or.inl hfork⟩

theorem Outcome.distinct (hdistinct : (entries.map Data.port).Nodup)
    (h : Outcome N k entries data after signalled launched output) :
    (after.map Data.port).Nodup := by
  rcases h with ⟨r, hfind, -⟩ | ⟨r, pid, hfind, -, -⟩ | ⟨r, hfind, -, -⟩ |
    ⟨pid, hfind, -, -⟩ | ⟨pid, hfind, -, -⟩ | ⟨hfind, -⟩
  · rwa [map_key_replaceKey]
  · exact nodup_map_concat (nodup_map_removeKey hdistinct) fun r hr =>
      ((mem_removeKey hdistinct).mp hr).2
  · exact nodup_map_removeKey hdistinct
  · exact nodup_map_concat hdistinct (findKey_eq_none_iff.mp hfind)
  · exact hdistinct
  · exact hdistinct

/-- The only lines written tell of a process that is gone, or of a full
registry without the port. -/
theorem Outcome.lines
    (h : Outcome N k entries data after signalled launched output) :
    ¬ Wrote output "Failed to update: " ∧ ¬ Wrote output "Failed to remove : " ∧
      (Wrote output "Failed to add: " →
        (∀ r ∈ entries, r.port ≠ data.port) ∧ entries.length = N) := by
  have hsilent : ¬ Wrote ([] : List CString) "Failed to update: " ∧
      ¬ Wrote [] "Failed to remove : " ∧
      (Wrote [] "Failed to add: " →
        (∀ r ∈ entries, r.port ≠ data.port) ∧ entries.length = N) :=
    ⟨not_wrote_nil _, not_wrote_nil _, fun hadd =>
      absurd hadd (not_wrote_nil _)⟩
  have hmissing : ∀ d, ¬ Wrote [report "Non-existing process: " d]
        "Failed to update: " ∧
      ¬ Wrote [report "Non-existing process: " d] "Failed to remove : " ∧
      (Wrote [report "Non-existing process: " d] "Failed to add: " →
        (∀ r ∈ entries, r.port ≠ data.port) ∧ entries.length = N) := fun d =>
    ⟨not_wrote_report d (by decide) (by decide),
      not_wrote_report d (by decide) (by decide), fun hadd =>
        absurd hadd (not_wrote_report d (by decide) (by decide))⟩
  rcases h with ⟨r, hfind, -⟩ | ⟨r, pid, hfind, -, -⟩ | ⟨r, hfind, -, -⟩ |
    ⟨pid, hfind, -, -⟩ | ⟨pid, hfind, -, hfull⟩ | ⟨hfind, -⟩
  · exact hsilent
  · exact hmissing _
  · exact hmissing _
  · exact hsilent
  · exact ⟨not_wrote_report _ (by decide) (by decide),
      not_wrote_report _ (by decide) (by decide), fun _ =>
        ⟨findKey_eq_none_iff.mp hfind, hfull⟩⟩
  · exact hsilent

/-! ## One request -/

/-- What a critical section for the request makes of a registry whose ports
are distinct: the registry stays so, the entries of other ports are untouched,
the port has the entry of the process that serves it or none, no update and no
removal fails, and an addition fails only for a new port in a full
registry. -/
structure ServedRequest (k : Kernel) (l : SharedLst N) (data : Data)
    (s : Served N) : Prop where
  wellFormed : WellFormed s.list
  distinct : (s.list.records.map Data.port).Nodup
  beside : entriesBeside data.port s.list.records =
    entriesBeside data.port l.records
  own : (∃ pid, entriesOf data.port s.list.records =
        [{ data with pid := pid }] ∧
      ServedBy k s.signalled s.launched pid) ∨
    (entriesOf data.port s.list.records = [] ∧ s.signalled = none ∧
      (k.fork = none ∨ Wrote s.output "Failed to add: "))
  updates : ¬ Wrote s.output "Failed to update: "
  removes : ¬ Wrote s.output "Failed to remove : "
  adds : Wrote s.output "Failed to add: " →
    (∀ r ∈ l.records, r.port ≠ data.port) ∧ l.count = N

theorem servedRequest_of_outcome (hl : WellFormed l)
    (hdistinct : (l.records.map Data.port).Nodup) (hs : WellFormed s.list)
    (h : Outcome N k l.records data s.list.records s.signalled s.launched
      s.output) : ServedRequest k l data s := by
  obtain ⟨hupdates, hremoves, hadds⟩ := h.lines
  refine ⟨hs, h.distinct hdistinct, h.beside, h.own hdistinct, hupdates,
    hremoves, fun hadd => ?_⟩
  obtain ⟨habsent, hfull⟩ := hadds hadd
  refine ⟨habsent, ?_⟩
  rw [hl.count_eq, hfull]

/-- Every critical section on a well-formed registry with distinct ports
serves its request. -/
theorem serve_request (h2 : 2 ≤ N) (hN : N ≤ 32767) (hl : WellFormed l)
    (hdistinct : (l.records.map Data.port).Nodup) (k : Kernel) (data : Data) :
    ∃ s, serve k l data = some s ∧ ServedRequest k l data s := by
  obtain ⟨s, hserve, hs, houtcome⟩ := serve_spec hl h2 hN k data
  exact ⟨s, hserve, servedRequest_of_outcome hl hdistinct hs houtcome⟩

/-- The process of an entry is gone, and the full registry takes the
child that replaces it. -/
theorem serve_request_two :
    ∃ replies l s, (zeroSegment 2).initializeList.calls
        [.add (serverRecord 10 1), .add (serverRecord 20 2)] =
        some (replies, l) ∧
      serve ⟨fun _ => false, some 7⟩ l (serverRecord 10 0) = some s ∧
      ServedRequest ⟨fun _ => false, some 7⟩ l (serverRecord 10 0) s := by
  obtain ⟨l, hcalls, hl, hitems⟩ :=
    calls_represents (by decide) (by decide) (zeroSegment 2)
      [.add (serverRecord 10 1), .add (serverRecord 20 2)]
  have hrecords : l.records = [serverRecord 10 1, serverRecord 20 2] := hitems
  obtain ⟨s, hserve, hserved⟩ :=
    serve_request (by decide) (by decide) hl (by rw [hrecords]; decide)
      ⟨fun _ => false, some 7⟩ (serverRecord 10 0)
  exact ⟨_, l, s, hcalls, hserve, hserved⟩

/-! ## The requests of a run -/

/-- The critical sections for requests that are served one after the other,
each with its own results of the system calls. -/
def serveAll (l : SharedLst N) : List (Kernel × Data) → Option (SharedLst N)
  | [] => some l
  | (k, data) :: rest => do
      let s ← serve k l data
      serveAll s.list rest

/-- Over every run of requests the registry stays well formed with distinct
ports, and a port that nothing is requested for keeps its entry. -/
theorem serveAll_spec (h2 : 2 ≤ N) (hN : N ≤ 32767)
    (requests : List (Kernel × Data)) (hl : WellFormed l)
    (hdistinct : (l.records.map Data.port).Nodup) :
    ∃ l', serveAll l requests = some l' ∧ WellFormed l' ∧
      (l'.records.map Data.port).Nodup ∧
      ∀ port, (∀ r ∈ requests, r.2.port ≠ port) →
        entriesOf port l'.records = entriesOf port l.records := by
  induction requests generalizing l with
  | nil => exact ⟨l, rfl, hl, hdistinct, fun _ _ => rfl⟩
  | cons r rest ih =>
      obtain ⟨k, data⟩ := r
      obtain ⟨s, hserve, hs, houtcome⟩ := serve_spec hl h2 hN k data
      obtain ⟨l', hrest, hl', hdistinct', hkept⟩ :=
        ih hs (houtcome.distinct hdistinct)
      refine ⟨l', by simp [serveAll, hserve, hrest], hl', hdistinct', ?_⟩
      intro port hport
      have hne : data.port ≠ port := hport _ List.mem_cons_self
      have hbeside := houtcome.beside
      rw [hkept port fun r hr => hport r (List.mem_cons_of_mem _ hr)]
      -- the entries of the port are among those beside the request's
      have hamong : ∀ entries : List Data, entriesOf port entries =
          entriesOf port (entriesBeside data.port entries) := by
        intro entries
        rw [entriesOf, entriesOf, entriesBeside, List.filter_filter]
        refine List.filter_congr fun r _ => ?_
        by_cases hr : r.port = port
        · simp [hr, hne.symm]
        · simp [hr]
      rw [hamong, hbeside, ← hamong]

end SippScen.MediaServer
