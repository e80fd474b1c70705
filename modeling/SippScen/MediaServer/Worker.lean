import SippScen.SharedList.Slots

/-!
# The worker thread

For every request taken from the queue the worker enters one critical section
of the registry.  It either reuses the endpoint registered for the port, by
updating its entry and signalling its process, or it launches a new endpoint
and registers it.  The results of `sigqueue` and `fork` come from outside.
-/

namespace SippScen.MediaServer

open SippScen.Support SippScen.SharedList SharedLst

/-- The results of the system calls made while one request is served:
whether `sigqueue` succeeds for a process, and the pid of the child, if `fork`
succeeds. -/
structure Kernel where
  sigqueue : ℤ → Bool
  fork : Option ℤ

/-- What one critical section of the worker leaves behind: the registry, the
process that was signalled successfully, the child with the record it was
launched for, and the lines written to `cout`. -/
structure Served (N : ℕ) where
  list : SharedLst N
  signalled : Option ℤ
  launched : Option (ℤ × Data)
  output : List CString

/-- A line with the text and the record in braces. -/
def report (text : String) (data : Data) : CString :=
  text.toList ++ "\x7b".toList ++ printElmnt data ++ " \x7d\n".toList

variable {N : ℕ}

/-- The second half of the critical section: `launch_background`, and
`add_element` when the fork succeeded. -/
def launchAndAdd (k : Kernel) (l : SharedLst N) (data : Data)
    (output : List CString) : Option (Served N) :=
  match k.fork with
  | none => some ⟨l, none, none, output⟩
  | some pid => do
      let entry := { data with pid := pid }
      let (rc, l) ← l.addElement entry
      if rc = .error then
        some ⟨l, none, some (pid, data), output ++ [report "Failed to add: " entry]⟩
      else some ⟨l, none, some (pid, data), output⟩

/-- The critical section of `workerThread` for one request.  The pointer
returned by `fetch_element` is read again after the update and before the
removal. -/
def serve (k : Kernel) (l : SharedLst N) (data : Data) :
    Option (Served N) := do
  match ← l.fetchElement data.port with
  | none => launchAndAdd k l data []
  | some fetched =>
      let data := { data with pid := (l.data fetched).pid }
      let (rc, l) ← l.updateElement data
      if rc = .error then
        some ⟨l, none, none, [report "Failed to update: " data]⟩
      else if k.sigqueue (l.data fetched).pid then
        some ⟨l, some (l.data fetched).pid, none, []⟩
      else
        let missing := report "Non-existing process: " data
        let (rc, l) ← l.removeElement (l.data fetched).port
        if rc = .error then
          launchAndAdd k l data
            [missing, report "Failed to remove : " data]
        else launchAndAdd k l data [missing]

/-! ## What a critical section can do -/

/-- The effect of one critical section on the records: the entries after it,
the process signalled, the child launched and the lines written. -/
inductive Outcome (N : ℕ) (k : Kernel) (entries : List Data) (data : Data) :
    List Data → Option ℤ → Option (ℤ × Data) → List CString → Prop
  | reused (r : Data) (hfind : findKey Data.port data.port entries = some r)
      (hsig : k.sigqueue r.pid = true) :
      Outcome N k entries data
        (replaceKey Data.port { data with pid := r.pid } entries)
        (some r.pid) none []
  | relaunched (r : Data) (pid : ℤ)
      (hfind : findKey Data.port data.port entries = some r)
      (hsig : k.sigqueue r.pid = false) (hfork : k.fork = some pid) :
      Outcome N k entries data
        (removeKey Data.port data.port entries ++ [{ data with pid := pid }])
        none (some (pid, { data with pid := r.pid }))
        [report "Non-existing process: " { data with pid := r.pid }]
  | cleaned (r : Data)
      (hfind : findKey Data.port data.port entries = some r)
      (hsig : k.sigqueue r.pid = false) (hfork : k.fork = none) :
      Outcome N k entries data (removeKey Data.port data.port entries) none none
        [report "Non-existing process: " { data with pid := r.pid }]
  | launched (pid : ℤ) (hfind : findKey Data.port data.port entries = none)
      (hfork : k.fork = some pid) (hroom : entries.length < N) :
      Outcome N k entries data (entries ++ [{ data with pid := pid }]) none
        (some (pid, data)) []
  | unregistered (pid : ℤ)
      (hfind : findKey Data.port data.port entries = none)
      (hfork : k.fork = some pid) (hfull : entries.length = N) :
      Outcome N k entries data entries none (some (pid, data))
        [report "Failed to add: " { data with pid := pid }]
  | unserved (hfind : findKey Data.port data.port entries = none)
      (hfork : k.fork = none) :
      Outcome N k entries data entries none none []

variable {k : Kernel} {l l' : SharedLst N} {data : Data} {i : Fin N}

theorem serve_absent (hfetch : l.fetchElement data.port = some none) :
    serve k l data = launchAndAdd k l data [] := by
  simp [serve, hfetch]

/-- The record of a request that takes over the pid of the entry in slot
`i`. -/
def takeover (l : SharedLst N) (data : Data) (i : Fin N) : Data :=
  { data with pid := (l.data i).pid }

theorem updateElement_of_fetch
    (hfetch : l.fetchElement data.port = some (some i)) :
    l.updateElement (takeover l data i) =
      some (.success, l.setData i (takeover l data i)) := by
  have hfetch' : l.fetchElement (takeover l data i).port = some (some i) :=
    hfetch
  simp [updateElement, hfetch']

theorem serve_signalled (hfetch : l.fetchElement data.port = some (some i))
    (hsig : k.sigqueue (l.data i).pid = true) :
    serve k l data = some ⟨l.setData i (takeover l data i),
      some (l.data i).pid, none, []⟩ := by
  have hupdate := updateElement_of_fetch hfetch
  unfold takeover at hupdate ⊢
  simp [serve, hfetch, hupdate, hsig]

theorem serve_missing (hfetch : l.fetchElement data.port = some (some i))
    (hsig : k.sigqueue (l.data i).pid = false)
    (hremove : (l.setData i (takeover l data i)).removeElement data.port =
      some (.success, l')) :
    serve k l data = launchAndAdd k l' (takeover l data i)
      [report "Non-existing process: " (takeover l data i)] := by
  have hupdate := updateElement_of_fetch hfetch
  unfold takeover at hupdate hremove ⊢
  simp [serve, hfetch, hupdate, hsig, hremove]

theorem takeover_updated (hl : WellFormed l)
    (hfetch : l.fetchElement data.port = some (some i)) :
    WellFormed (l.setData i (takeover l data i)) ∧
      (l.setData i (takeover l data i)).records =
        replaceKey Data.port (takeover l data i) l.records := by
  obtain ⟨rc, l₁, hupdate, hl₁, hrecords, -, -⟩ :=
    hl.updateElement_spec (takeover l data i)
  rw [updateElement_of_fetch hfetch] at hupdate
  obtain ⟨-, rfl⟩ := Prod.mk.inj (Option.some.inj hupdate)
  exact ⟨hl₁, hrecords⟩

theorem takeover_removed (hl : WellFormed l) (h2 : 2 ≤ N) (hN : N ≤ 32767)
    (hfetch : l.fetchElement data.port = some (some i)) :
    ∃ l', (l.setData i (takeover l data i)).removeElement data.port =
        some (.success, l') ∧ WellFormed l' ∧
      l'.records = removeKey Data.port data.port l.records := by
  obtain ⟨hl₁, hrecords₁⟩ := takeover_updated hl hfetch
  obtain ⟨hi, hport⟩ := hl.holds_of_fetch hfetch
  obtain ⟨rc, l₂, hremove, hl₂, hrecords₂, hrc, -⟩ :=
    hl₁.removeElement_spec h2 hN data.port
  have hstill : ∃ r ∈ (l.setData i (takeover l data i)).records,
      r.port = data.port := by
    rw [hrecords₁]
    exact ⟨takeover l data i,
      mem_replaceKey_self ⟨l.data i, hi.mem_records, hport⟩, rfl⟩
  obtain rfl : rc = .success := hrc.mpr hstill
  refine ⟨l₂, hremove, hl₂, ?_⟩
  rw [hrecords₂, hrecords₁]
  exact removeKey_replaceKey (y := takeover l data i)

theorem launchAndAdd_noFork (hfork : k.fork = none) (data : Data)
    (output : List CString) :
    launchAndAdd k l data output = some ⟨l, none, none, output⟩ := by
  simp [launchAndAdd, hfork]

theorem launchAndAdd_room (hl : WellFormed l) (hN : N ≤ 32767)
    (hroom : l.records.length < N) {pid : ℤ} (hfork : k.fork = some pid)
    (data : Data) (output : List CString) :
    ∃ l', launchAndAdd k l data output =
        some ⟨l', none, some (pid, data), output⟩ ∧ WellFormed l' ∧
      l'.records = l.records ++ [{ data with pid := pid }] := by
  obtain ⟨l', hadd, hl', hrecords⟩ :=
    hl.addElement_room hN hroom { data with pid := pid }
  refine ⟨l', ?_, hl', hrecords⟩
  simp [launchAndAdd, hfork, hadd]

/-- Launching with a full registry leaves the child unregistered. -/
theorem launchAndAdd_full (hl : WellFormed l) (hfull : l.records.length = N)
    {pid : ℤ} (hfork : k.fork = some pid) (data : Data)
    (output : List CString) :
    launchAndAdd k l data output =
      some ⟨l, none, some (pid, data),
        output ++ [report "Failed to add: " { data with pid := pid }]⟩ := by
  have hadd := hl.addElement_full hfull { data with pid := pid }
  simp [launchAndAdd, hfork, hadd]

/-- Every critical section on a well-formed registry ends in one of the six
outcomes. -/
theorem serve_spec (hl : WellFormed l) (h2 : 2 ≤ N) (hN : N ≤ 32767)
    (k : Kernel) (data : Data) :
    ∃ s, serve k l data = some s ∧ WellFormed s.list ∧
      Outcome N k l.records data s.list.records s.signalled s.launched
        s.output := by
  obtain ⟨found, hfetch, hfound⟩ := hl.fetchElement_spec data.port
  cases found with
  | none =>
      have hfind : findKey Data.port data.port l.records = none := hfound.symm
      rw [serve_absent hfetch]
      cases hfork : k.fork with
      | none =>
          exact ⟨_, launchAndAdd_noFork hfork data [], hl,
            .unserved hfind hfork⟩
      | some pid =>
          rcases lt_or_eq_of_le hl.length_records_le with hroom | hfull
          · obtain ⟨l', hlaunch, hl', hrecords⟩ :=
              launchAndAdd_room hl hN hroom hfork data []
            refine ⟨_, hlaunch, hl', ?_⟩
            rw [hrecords]
            exact .launched pid hfind hfork hroom
          · exact ⟨_, launchAndAdd_full hl hfull hfork data [], hl,
              .unregistered pid hfind hfork hfull⟩
  | some i =>
      have hfind : findKey Data.port data.port l.records = some (l.data i) :=
        hfound.symm
      obtain ⟨hmem, hport⟩ := mem_of_findKey hfind
      cases hsig : k.sigqueue (l.data i).pid with
      | true =>
          obtain ⟨hl₁, hrecords₁⟩ := takeover_updated hl hfetch
          refine ⟨_, serve_signalled hfetch hsig, hl₁, ?_⟩
          rw [hrecords₁]
          exact .reused (l.data i) hfind hsig
      | false =>
          obtain ⟨l₂, hremove, hl₂, hrecords⟩ :=
            takeover_removed hl h2 hN hfetch
          have hroom : l₂.records.length < N := by
            have hlength := length_removeKey ⟨l.data i, hmem, hport⟩
            have := hl.length_records_le
            rw [hrecords]
            omega
          rw [serve_missing hfetch hsig hremove]
          cases hfork : k.fork with
          | none =>
              refine ⟨_, launchAndAdd_noFork hfork _ _, hl₂, ?_⟩
              rw [hrecords]
              exact .cleaned (l.data i) hfind hsig hfork
          | some pid =>
              obtain ⟨l₃, hlaunch, hl₃, hrecords₃⟩ :=
                launchAndAdd_room hl₂ hN hroom hfork (takeover l data i)
                  [report "Non-existing process: " (takeover l data i)]
              refine ⟨_, hlaunch, hl₃, ?_⟩
              rw [hrecords₃, hrecords]
              exact .relaunched (l.data i) pid hfind hsig hfork

/-! ## The slots of the entries -/

variable {s : Served N} {r : Data} {j : Fin N}

/-- Launching signals no process and changes the registry by `add_element` at
most. -/
theorem launchAndAdd_list {output : List CString}
    (h : launchAndAdd k l data output = some s) :
    s.signalled = none ∧
      (s.list = l ∨ ∃ entry rc, l.addElement entry = some (rc, s.list)) := by
  unfold launchAndAdd at h
  cases hfork : k.fork with
  | none =>
      rw [hfork] at h
      obtain rfl := Option.some.inj h
      exact ⟨rfl, Or.inl rfl⟩
  | some pid =>
      rw [hfork] at h
      obtain ⟨⟨rc, l'⟩, hadd, hrest⟩ := Option.bind_eq_some_iff.mp h
      simp only at hrest
      split at hrest
      · obtain rfl := Option.some.inj hrest
        exact ⟨rfl, Or.inr ⟨_, rc, hadd⟩⟩
      · obtain rfl := Option.some.inj hrest
        exact ⟨rfl, Or.inr ⟨_, rc, hadd⟩⟩

theorem holds_launchAndAdd {output : List CString} (hl : WellFormed l)
    (hN : N ≤ 32767) (h : launchAndAdd k l data output = some s)
    (hj : Holds l j r) : Holds s.list j r := by
  obtain ⟨-, hlist | ⟨entry, rc, hadd⟩⟩ := launchAndAdd_list h
  · rw [hlist]
    exact hj
  · exact hj.addElement hl hN hadd

/-- A critical section moves no entry of another port. -/
theorem holds_serve (hl : WellFormed l) (h2 : 2 ≤ N) (hN : N ≤ 32767)
    (h : serve k l data = some s) (hj : Holds l j r)
    (hne : r.port ≠ data.port) : Holds s.list j r := by
  obtain ⟨found, hfetch, -⟩ := hl.fetchElement_spec data.port
  cases found with
  | none =>
      rw [serve_absent hfetch] at h
      exact holds_launchAndAdd hl hN h hj
  | some i =>
      have hne' : r.port ≠ (takeover l data i).port := hne
      have hj₁ := hj.updateElement hl hne' (updateElement_of_fetch hfetch)
      obtain ⟨hl₁, -⟩ := takeover_updated hl hfetch
      cases hsig : k.sigqueue (l.data i).pid with
      | true =>
          rw [serve_signalled hfetch hsig] at h
          obtain rfl := Option.some.inj h
          exact hj₁
      | false =>
          obtain ⟨l₂, hremove, hl₂, -⟩ := takeover_removed hl h2 hN hfetch
          rw [serve_missing hfetch hsig hremove] at h
          exact holds_launchAndAdd hl₂ hN h
            (hj₁.removeElement hl₁ h2 hN hne hremove)

/-- A critical section that signals the process of an entry puts the request
into the slot of that entry. -/
theorem holds_serve_signalled (hl : WellFormed l) (h2 : 2 ≤ N)
    (hN : N ≤ 32767) (hnodup : (l.records.map Data.port).Nodup)
    (h : serve k l data = some s) {pid : ℤ} (hsignalled : s.signalled = some pid)
    (hj : Holds l j r) (hport : r.port = data.port) :
    Holds s.list j { data with pid := r.pid } := by
  obtain ⟨found, hfetch, -⟩ := hl.fetchElement_spec data.port
  cases found with
  | none =>
      rw [serve_absent hfetch] at h
      rw [(launchAndAdd_list h).1] at hsignalled
      cases hsignalled
  | some i =>
      obtain ⟨hi, hiport⟩ := hl.holds_of_fetch hfetch
      obtain rfl : i = j := hi.slot_unique hnodup hj (hiport.trans hport.symm)
      cases hsig : k.sigqueue (l.data i).pid with
      | true =>
          rw [serve_signalled hfetch hsig] at h
          obtain rfl := Option.some.inj h
          rw [← hj.2]
          exact hj.setData_self hl _
      | false =>
          obtain ⟨l₂, hremove, -⟩ := takeover_removed hl h2 hN hfetch
          rw [serve_missing hfetch hsig hremove] at h
          rw [(launchAndAdd_list h).1] at hsignalled
          cases hsignalled

end SippScen.MediaServer
