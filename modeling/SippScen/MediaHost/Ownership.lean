import SippScen.MediaHost.Steps

/-!
# Every live endpoint owns one entry

The registry is keyed by port only, and an endpoint removes the entry of its
port without looking at the pid.  Under the assumptions collected in
`Environment` this is safe in every interleaving: the entries have distinct
ports and pids, and an endpoint that has not removed its entry is the only one
on its port.
-/

namespace SippScen.MediaHost

open SippScen.Support SippScen.SharedList SippScen.MediaServer
open SippScen.MediaEndpoint

variable {N : ℕ} {getopt : GetoptLong} {config : ServerConfig}

/-! ## Assumptions on the requests and on the kernel -/

/-- A condition on the requests that the worker handles, with the child that is
launched for them. -/
def OnRequest (ok : Data → Option (ℤ × Data) → Prop) : Event → Prop
  | (.serve data _, .served _ launched) => ok data launched
  | _ => True

instance (ok : Data → Option (ℤ × Data) → Prop)
    [∀ data launched, Decidable (ok data launched)] :
    DecidablePred (OnRequest ok)
  | (.serve data _, .served _ launched) =>
      inferInstanceAs (Decidable (ok data launched))
  | (.serve _ _, .copied _) | (.serve _ _, .silent) | (.advance _, _)
  | (.timeout _, _) | (.crash _, _) | (.reap _, _) =>
      inferInstanceAs (Decidable True)

/-- The request names a UDP port. -/
def ValidPort (data : Data) : Prop := 1 ≤ data.port ∧ data.port ≤ 65535

instance (data : Data) : Decidable (ValidPort data) :=
  inferInstanceAs (Decidable (_ ∧ _))

/-- A new entry finds room in the registry. -/
def HasRoom (s : System N) (data : Data) : Prop :=
  (∃ r ∈ s.list.records, r.port = data.port) ∨ s.list.count < N

instance (s : System N) (data : Data) : Decidable (HasRoom s data) :=
  inferInstanceAs (Decidable (_ ∨ _))

/-- The child does not get the pid of an entry, except of the one that it
replaces. -/
def FreshPid (s : System N) (data : Data)
    (launched : Option (ℤ × Data)) : Prop :=
  ∀ child ∈ launched, ∀ r ∈ s.list.records, r.pid = child.1 →
    r.port = data.port

instance (s : System N) (data : Data) (launched : Option (ℤ × Data)) :
    Decidable (FreshPid s data launched) :=
  inferInstanceAs (Decidable (∀ child ∈ launched, _))

/-- The assumptions under which the registry is consistent. -/
def Environment (s : System N) : Event → Prop :=
  OnRequest fun data launched =>
    ValidPort data ∧ HasRoom s data ∧ FreshPid s data launched

instance (s : System N) : DecidablePred (Environment s) := fun event =>
  inferInstanceAs (Decidable (OnRequest _ event))

/-! ## The invariant -/

/-- What the registry provides for one process. -/
structure Attached (l : SharedLst N) (pid : ℤ) (e : Endpoint N) : Prop where
  valid : 1 ≤ e.launch.port ∧ e.launch.port ≤ 65535
  configured : e.phase.configured = true → e.conf.port = e.launch.port
  registered : e.phase.active = true →
    ∃ r ∈ l.records, r.port = e.launch.port ∧ r.pid = pid
  pointer : ∀ node, e.phase = .fetched node →
    ∃ i r, node = some i ∧ Holds l i r ∧ r.port = e.launch.port

/-- Distinct ports and pids, an entry for every active process, and no entry
for a process of another port or one that has removed its entry. -/
structure Consistent (s : System N) : Prop where
  wellFormed : WellFormed s.list
  ports : (s.list.records.map Data.port).Nodup
  pids : (s.list.records.map Data.pid).Nodup
  procs : ∀ pid e, s.procs pid = some e → Attached s.list pid e
  owner : ∀ r ∈ s.list.records, ∀ e, s.procs r.pid = some e →
    e.launch.port = r.port ∧ e.phase.departed = false

theorem initial_consistent (h2 : 2 ≤ N) (hN : N ≤ 32767) (mem : SharedLst N) :
    Consistent (System.initial mem) := by
  obtain ⟨hwellFormed, hrecords⟩ := initializeList_wellFormed mem h2 hN
  have hempty : (System.initial mem).list.records = [] := hrecords
  constructor
  · exact hwellFormed
  · rw [hempty]
    exact List.nodup_nil
  · rw [hempty]
    exact List.nodup_nil
  · intro pid e he
    cases he
  · rw [hempty]
    intro r hr
    cases hr

/-! ## One process -/

section Attached

variable {l l' : SharedLst N} {pid : ℤ} {e e' : Endpoint N} {o : Observation}

/-- A change of the registry that spares the entry of a process and its slot
leaves the process attached. -/
theorem Attached.of_keeps (h : Attached l pid e)
    (hrecords : ∀ r ∈ l.records, r.port = e.launch.port → r.pid = pid →
      ∃ r' ∈ l'.records, r'.port = r.port ∧ r'.pid = r.pid)
    (hslots : ∀ i r, Holds l i r → r.port = e.launch.port →
      ∃ r', Holds l' i r' ∧ r'.port = r.port) : Attached l' pid e where
  valid := h.valid
  configured := h.configured
  registered := by
    intro hactive
    obtain ⟨r, hr, hport, hpid⟩ := h.registered hactive
    obtain ⟨r', hr', hport', hpid'⟩ := hrecords r hr hport hpid
    exact ⟨r', hr', hport'.trans hport, hpid'.trans hpid⟩
  pointer := by
    intro node hnode
    obtain ⟨i, r, rfl, hi, hport⟩ := h.pointer node hnode
    obtain ⟨r', hi', hport'⟩ := hslots i r hi hport
    exact ⟨i, r', rfl, hi', hport'.trans hport⟩

theorem Attached.of_inactive (h : Attached l pid e)
    (hactive : ¬ e.phase.active = true) : Attached l' pid e where
  valid := h.valid
  configured := h.configured
  registered := fun h => absurd h hactive
  pointer := by
    intro node hnode
    rw [hnode] at hactive
    exact absurd rfl hactive

theorem Attached.enter (h : Attached l pid e) {p : Phase N}
    (hconfigured : p.configured = true → e.phase.configured = true)
    (hactive : p.active = true → e.phase.active = true)
    (hpointer : ∀ node, p ≠ .fetched node) : Attached l pid (e.enter p) where
  valid := h.valid
  configured := fun hp => h.configured (hconfigured hp)
  registered := fun hp => h.registered (hactive hp)
  pointer := fun node hnode => absurd hnode (hpointer node)

theorem Attached.of_active (h : Attached l pid e)
    (hactive : e.phase.active = true) (hlaunch : e'.launch = e.launch)
    (hconf : e'.phase.configured = true → e'.conf.port = e.launch.port)
    (hpointer : ∀ node, e'.phase = .fetched node →
      ∃ i r, node = some i ∧ Holds l i r ∧ r.port = e.launch.port) :
    Attached l pid e' where
  valid := by
    rw [hlaunch]
    exact h.valid
  configured := by
    rw [hlaunch]
    exact hconf
  registered := by
    intro _
    rw [hlaunch]
    exact h.registered hactive
  pointer := by
    rw [hlaunch]
    exact hpointer

theorem Attached.crash (h : Attached l pid e) :
    Attached l pid (e.enter .crashed) := by
  apply h.enter
  · intro hp
    cases hp
  · intro hp
    cases hp
  · intro node hp
    cases hp

theorem Attached.deliver (h : Attached l pid e) :
    Attached l pid e.deliver := by
  rcases e.deliver_cases with ⟨-, heq⟩ | ⟨-, heq⟩ | ⟨-, -, heq⟩
  · rw [heq]
    exact h
  · rw [heq]
    apply h.enter
    · intro hp
      cases hp
    · intro hp
      cases hp
    · intro node hp
      cases hp
  · rw [heq]
    exact ⟨h.valid, h.configured, h.registered, h.pointer⟩

theorem attached_child {launch : Data}
    (hvalid : 1 ≤ launch.port ∧ launch.port ≤ 65535)
    (hentry : ∃ r ∈ l.records, r.port = launch.port ∧ r.pid = pid) :
    Attached l pid (Endpoint.child launch) where
  valid := hvalid
  configured := nofun
  registered := fun _ => hentry
  pointer := nofun

theorem Attached.fetch (h : Attached l pid e) (hl : WellFormed l)
    (hphase : e.phase = .signalled) {node : Option (Fin N)}
    (hfetch : l.fetchElement e.conf.port = some node) :
    ∃ i r, node = some i ∧ Holds l i r ∧ r.port = e.launch.port := by
  have hconf : e.conf.port = e.launch.port :=
    h.configured (by rw [hphase]; rfl)
  cases node with
  | none =>
      obtain ⟨r, hr, hport, -⟩ := h.registered (by rw [hphase]; rfl)
      obtain ⟨found, hfetch', hfound⟩ := hl.fetchElement_spec e.conf.port
      rw [hfetch] at hfetch'
      obtain rfl := Option.some.inj hfetch'
      rw [hconf] at hfound
      exact absurd hport (findKey_eq_none_iff.mp hfound.symm r hr)
  | some i =>
      obtain ⟨hi, hport⟩ := hl.holds_of_fetch hfetch
      exact ⟨i, l.data i, rfl, hi, hport.trans hconf⟩

theorem Attached.advance (hg : FollowsGnu getopt) (hl : WellFormed l)
    (h : Attached l pid e) (hphase : e.phase ≠ .joined)
    (hadvance : Advance getopt config l e l' e' o) :
    l' = l ∧ Attached l pid e' ∧ e'.launch = e.launch ∧
      (e'.phase.departed = true → e.phase.departed = true) := by
  cases hadvance with
  | pass p hp =>
      obtain ⟨hconfigured, hactive, hdeparted, hpointer⟩ := Phase.succ_spec hp
      exact ⟨rfl, h.enter hconfigured hactive hpointer, rfl, hdeparted⟩
  | parse options p hexecd hoptions hp =>
      have hvalid := h.valid
      have hint : IsInt32 e.launch.port := by
        unfold IsInt32
        omega
      have hport : options.conf.port = e.launch.port := by
        rw [hoptions]
        have hfits : toUInt16 e.launch.port = e.launch.port :=
          toUInt16_eq_self_iff.mpr (by omega)
        exact (endpointPort_eq hg hint).trans hfits
      refine ⟨rfl, ?_, rfl, ?_⟩
      · refine h.of_active (by rw [hexecd]; rfl) rfl (fun _ => hport) ?_
        intro node hnode
        rcases hp with rfl | rfl <;> cases hnode
      · intro hdeparted
        rcases hp with rfl | rfl <;> cases hdeparted
  | start hblocked =>
      have hconf : e.conf.port = e.launch.port :=
        h.configured (by rw [hblocked]; rfl)
      refine ⟨rfl, ?_, e.defaultDuration_launch, nofun⟩
      refine h.of_active (by rw [hblocked]; rfl) e.defaultDuration_launch
        ?_ ?_
      · intro _
        exact e.defaultDuration_port.trans hconf
      · intro node hnode
        cases hnode
  | take n hwaiting hpending =>
      have hconf : e.conf.port = e.launch.port :=
        h.configured (by rw [hwaiting]; rfl)
      refine ⟨rfl, ?_, rfl, nofun⟩
      refine h.of_active (by rw [hwaiting]; rfl) rfl (fun _ => hconf) ?_
      intro node hnode
      cases hnode
  | fetch node hsignalled hfetch =>
      have hconf : e.conf.port = e.launch.port :=
        h.configured (by rw [hsignalled]; rfl)
      refine ⟨rfl, ?_, rfl, nofun⟩
      refine h.of_active (by rw [hsignalled]; rfl) rfl (fun _ => hconf) ?_
      intro node' hnode
      cases hnode
      exact h.fetch hl hsignalled hfetch
  | copyNull hnull => exact ⟨rfl, h.crash, rfl, nofun⟩
  | copy i hfetched =>
      obtain ⟨j, r, hnode, hj, hport⟩ := h.pointer _ hfetched
      obtain rfl := Option.some.inj hnode
      refine ⟨rfl, ?_, rfl, nofun⟩
      refine h.of_active (by rw [hfetched]; rfl) rfl ?_ ?_
      · intro _
        rw [Endpoint.enter_conf, Endpoint.setConf_conf, hj.2]
        exact hport
      · intro node hnode
        cases hnode
  | remove rc _ hjoined hremove => exact absurd hjoined hphase

end Attached

/-! ## The worker -/

section Serve

variable {s t : System N} {data : Data} {fork : Option ℤ}

/-- The process of an active endpoint for the port is the one that the entry of
the port names. -/
theorem Consistent.pid_of_find (hs : Consistent s) {pid : ℤ} {e : Endpoint N}
    (he : s.procs pid = some e) (hactive : e.phase.active = true) :
    ∃ r, findKey Data.port e.launch.port s.list.records = some r ∧
      r.pid = pid := by
  obtain ⟨r, hr, hport, hpid⟩ := (hs.procs pid e he).registered hactive
  refine ⟨r, ?_, hpid⟩
  rw [← hport]
  exact findKey_of_mem hs.ports hr

theorem Consistent.not_full (hs : Consistent s) (hroom : HasRoom s data)
    (hfind : findKey Data.port data.port s.list.records = none) :
    s.list.records.length ≠ N := by
  rcases hroom with ⟨r, hr, hport⟩ | hlt
  · exact absurd hport (findKey_eq_none_iff.mp hfind r hr)
  · have hcount := hs.wellFormed.count_eq
    omega

/-- After a critical section that replaced no entry of a live process, the
processes are attached as before. -/
theorem Consistent.attached_of_dead (hs : Consistent s)
    (hdead : ∀ r, findKey Data.port data.port s.list.records = some r →
      s.procs r.pid = none)
    (hrecords : ∀ r ∈ s.list.records, r.port ≠ data.port →
      r ∈ t.list.records)
    (hslots : ∀ i r, Holds s.list i r → r.port ≠ data.port → Holds t.list i r)
    {pid : ℤ} {e : Endpoint N} (he : s.procs pid = some e) :
    Attached t.list pid e := by
  have hattached := hs.procs pid e he
  by_cases hactive : e.phase.active = true
  · have hne : e.launch.port ≠ data.port := by
      intro heq
      obtain ⟨r, hfind, hpid⟩ := hs.pid_of_find he hactive
      rw [heq] at hfind
      have hnone := hdead r hfind
      rw [hpid, he] at hnone
      cases hnone
    apply hattached.of_keeps
    · intro r hr hport hpid
      exact ⟨r, hrecords r hr (by rwa [hport]), rfl, rfl⟩
    · intro i r hi hport
      exact ⟨r, hslots i r hi (by rwa [hport]), rfl⟩
  · exact hattached.of_inactive hactive

theorem Consistent.attached_of_reused (hs : Consistent s) {r : Data}
    (hfind : findKey Data.port data.port s.list.records = some r)
    (hrecords : t.list.records =
      replaceKey Data.port { data with pid := r.pid } s.list.records)
    (hslots : ∀ i r, Holds s.list i r → r.port ≠ data.port → Holds t.list i r)
    (hslot : ∀ i r, Holds s.list i r → r.port = data.port →
      Holds t.list i { data with pid := r.pid })
    {pid : ℤ} {e : Endpoint N} (he : s.procs pid = some e) :
    Attached t.list pid e := by
  obtain ⟨hr, hport⟩ := mem_of_findKey hfind
  have hmem : ∀ r', r' ∈ t.list.records ↔ r' = { data with pid := r.pid } ∨
      (r' ∈ s.list.records ∧ r'.port ≠ data.port) := by
    intro r'
    rw [hrecords]
    exact mem_replaceKey (y := { data with pid := r.pid }) hs.ports
      ⟨r, hr, hport⟩
  apply (hs.procs pid e he).of_keeps
  · intro r' hr' hport' hpid'
    by_cases heq : r'.port = data.port
    · obtain rfl : r' = r :=
        List.inj_on_of_nodup_map hs.ports hr' hr (heq.trans hport.symm)
      exact ⟨_, (hmem _).mpr (Or.inl rfl), heq.symm, rfl⟩
    · exact ⟨r', (hmem r').mpr (Or.inr ⟨hr', heq⟩), rfl, rfl⟩
  · intro i r' hi hport'
    by_cases heq : r'.port = data.port
    · exact ⟨_, hslot i r' hi heq, heq.symm⟩
    · exact ⟨r', hslots i r' hi heq, rfl⟩

theorem Consistent.of_reused (hs : Consistent s) (hl : WellFormed t.list)
    {r : Data} {e : Endpoint N}
    (hfind : findKey Data.port data.port s.list.records = some r)
    (he : s.procs r.pid = some e)
    (hrecords : t.list.records =
      replaceKey Data.port { data with pid := r.pid } s.list.records)
    (hprocs : t.procs = Function.update s.procs r.pid (some e.deliver))
    (hslots : ∀ i r, Holds s.list i r → r.port ≠ data.port → Holds t.list i r)
    (hslot : ∀ i r, Holds s.list i r → r.port = data.port →
      Holds t.list i { data with pid := r.pid }) :
    Consistent t := by
  obtain ⟨hr, hport⟩ := mem_of_findKey hfind
  have hattached : ∀ pid e, s.procs pid = some e →
      Attached t.list pid e := fun pid e he =>
    hs.attached_of_reused hfind hrecords hslots hslot he
  refine ⟨hl, ?_, ?_, ?_, ?_⟩
  · rw [hrecords, map_key_replaceKey]
    exact hs.ports
  · have hpids : t.list.records.map Data.pid =
        s.list.records.map Data.pid := by
      rw [hrecords]
      exact map_replaceKey_of_find (x := r)
        (y := { data with pid := r.pid }) hfind rfl
    rw [hpids]
    exact hs.pids
  · intro pid e' he'
    rcases eq_some_of_update hprocs he' with ⟨rfl, ⟨⟩⟩ | ⟨-, hold⟩
    · exact (hattached r.pid e he).deliver
    · exact hattached pid e' hold
  · intro r' hr' e' he'
    rw [hrecords] at hr'
    rcases (mem_replaceKey (y := { data with pid := r.pid }) hs.ports
      ⟨r, hr, hport⟩).mp hr' with rfl | ⟨hold, hne⟩
    · rw [hprocs, Function.update_self] at he'
      obtain rfl := Option.some.inj he'
      obtain ⟨hlaunch, hdeparted⟩ := hs.owner r hr e he
      rw [Endpoint.deliver_launch, Endpoint.deliver_departed]
      exact ⟨hlaunch.trans hport, hdeparted⟩
    · have hpid : r'.pid ≠ r.pid := by
        intro heq
        obtain rfl := List.inj_on_of_nodup_map hs.pids hold hr heq
        exact hne hport
      rw [hprocs, Function.update_of_ne hpid] at he'
      exact hs.owner r' hold e' he'

theorem Consistent.of_launched (hs : Consistent s) (hl : WellFormed t.list)
    {pid : ℤ} {launch : Data} (hvalid : ValidPort data)
    (hfresh : FreshPid s data (some (pid, launch)))
    (hdead : ∀ r, findKey Data.port data.port s.list.records = some r →
      s.procs r.pid = none)
    (hport : launch.port = data.port)
    (hrecords : t.list.records =
      removeKey Data.port data.port s.list.records ++ [{ data with pid := pid }])
    (hprocs : t.procs =
      Function.update s.procs pid (some (Endpoint.child launch)))
    (hslots : ∀ i r, Holds s.list i r → r.port ≠ data.port →
      Holds t.list i r) : Consistent t := by
  have hmem : ∀ r, r ∈ t.list.records ↔
      (r ∈ s.list.records ∧ r.port ≠ data.port) ∨
        r = { data with pid := pid } := by
    intro r
    rw [hrecords, List.mem_append, mem_removeKey hs.ports, List.mem_singleton]
  have hother : ∀ r ∈ s.list.records, r.port ≠ data.port →
      r.pid ≠ pid := fun r hr hne heq =>
    hne (hfresh (pid, launch) rfl r hr heq)
  refine ⟨hl, ?_, ?_, ?_, ?_⟩
  · rw [hrecords]
    apply nodup_map_concat (nodup_map_removeKey hs.ports)
    intro r hr
    exact ((mem_removeKey hs.ports).mp hr).2
  · rw [hrecords]
    apply nodup_map_concat (nodup_map_removeKey hs.pids)
    intro r hr
    obtain ⟨hold, hne⟩ := (mem_removeKey hs.ports).mp hr
    exact hother r hold hne
  · intro pid' e' he'
    rcases eq_some_of_update hprocs he' with ⟨rfl, ⟨⟩⟩ | ⟨-, hold⟩
    · apply attached_child
      · rw [hport]
        exact hvalid
      · exact ⟨_, (hmem _).mpr (Or.inr rfl), hport.symm, rfl⟩
    · exact hs.attached_of_dead hdead
        (fun r hr hne => (hmem r).mpr (Or.inl ⟨hr, hne⟩)) hslots hold
  · intro r hr e' he'
    rcases (hmem r).mp hr with ⟨hold, hne⟩ | rfl
    · rw [hprocs, Function.update_of_ne (hother r hold hne)] at he'
      exact hs.owner r hold e' he'
    · rw [hprocs, Function.update_self] at he'
      obtain rfl := Option.some.inj he'
      exact ⟨hport, rfl⟩

theorem Consistent.of_unserved (hs : Consistent s) (hl : WellFormed t.list)
    (hdead : ∀ r, findKey Data.port data.port s.list.records = some r →
      s.procs r.pid = none)
    (hrecords : t.list.records =
      removeKey Data.port data.port s.list.records)
    (hprocs : t.procs = s.procs)
    (hslots : ∀ i r, Holds s.list i r → r.port ≠ data.port →
      Holds t.list i r) : Consistent t := by
  refine ⟨hl, ?_, ?_, ?_, ?_⟩
  · rw [hrecords]
    exact nodup_map_removeKey hs.ports
  · rw [hrecords]
    exact nodup_map_removeKey hs.pids
  · intro pid e he
    rw [hprocs] at he
    apply hs.attached_of_dead hdead _ hslots he
    intro r hr hne
    rw [hrecords]
    exact (mem_removeKey hs.ports).mpr ⟨hr, hne⟩
  · intro r hr e he
    rw [hrecords] at hr
    rw [hprocs] at he
    exact hs.owner r (mem_of_mem_removeKey hr) e he

/-- Every critical section of the worker keeps the system consistent. -/
theorem Consistent.serve (hs : Consistent s) (h2 : 2 ≤ N) (hN : N ≤ 32767)
    {o : Observation} (henv : Environment s (.serve data fork, o))
    (h : s.next getopt config (.serve data fork) = some (t, o)) :
    Consistent t := by
  obtain ⟨signalled, launched, rfl, hl, heffect, hslots, hslot⟩ :=
    next_serve hs.wellFormed h2 hN h
  obtain ⟨hvalid, hroom, hfresh⟩ := henv
  cases heffect with
  | reused _ _ r e hfind he hrecords hprocs =>
      exact hs.of_reused hl hfind he hrecords hprocs hslots
        fun i r hi => hslot _ i r rfl hs.ports hi
  | launched _ pid launch hdead hpid hport hrecords hprocs =>
      exact hs.of_launched hl hvalid hfresh hdead hport hrecords hprocs hslots
  | unregistered _ pid hfind hfull hpid hrecords hprocs =>
      exact absurd hfull (hs.not_full hroom hfind)
  | unserved _ hdead hrecords hprocs =>
      exact hs.of_unserved hl hdead hrecords hprocs hslots

end Serve

/-! ## The endpoints -/

section Proc

variable {s t : System N} {a : Action} {o : Observation} {pid : ℤ}

theorem Consistent.mem_removeKey_iff (hs : Consistent s) {e : Endpoint N}
    (he : s.procs pid = some e) (hphase : e.phase = .joined) (r : Data) :
    r ∈ removeKey Data.port e.conf.port s.list.records ↔
      r ∈ s.list.records ∧ r.pid ≠ pid := by
  have hattached := hs.procs pid e he
  have hconf : e.conf.port = e.launch.port :=
    hattached.configured (by rw [hphase]; rfl)
  obtain ⟨own, hown, hport, hpid⟩ :=
    hattached.registered (by rw [hphase]; rfl)
  rw [hconf, mem_removeKey hs.ports]
  constructor
  · rintro ⟨hr, hne⟩
    refine ⟨hr, ?_⟩
    intro heq
    obtain rfl := List.inj_on_of_nodup_map hs.pids hr hown
      (heq.trans hpid.symm)
    exact hne hport
  · rintro ⟨hr, hne⟩
    refine ⟨hr, ?_⟩
    intro heq
    obtain rfl := List.inj_on_of_nodup_map hs.ports hr hown
      (heq.trans hport.symm)
    exact hne hpid

theorem Consistent.setProc (hs : Consistent s) {e' : Option (Endpoint N)}
    (hlist : t.list = s.list)
    (hprocs : t.procs = Function.update s.procs pid e')
    (hattached : ∀ e, e' = some e → Attached s.list pid e)
    (howner : ∀ e, e' = some e → ∃ old, s.procs pid = some old ∧
      e.launch = old.launch ∧
      (e.phase.departed = true → old.phase.departed = true)) :
    Consistent t := by
  constructor
  · rw [hlist]
    exact hs.wellFormed
  · rw [hlist]
    exact hs.ports
  · rw [hlist]
    exact hs.pids
  · intro pid' e he
    rw [hlist]
    rcases eq_some_of_update hprocs he with ⟨rfl, hnew⟩ | ⟨-, hold⟩
    · exact hattached e hnew
    · exact hs.procs pid' e hold
  · intro r hr e he
    rw [hlist] at hr
    rcases eq_some_of_update hprocs he with ⟨rfl, hnew⟩ | ⟨-, hold⟩
    · obtain ⟨old, hold, hlaunch, hdeparted⟩ := howner e hnew
      obtain ⟨hport, hstays⟩ := hs.owner r hr old hold
      rw [hlaunch]
      refine ⟨hport, ?_⟩
      rw [← Bool.not_eq_true]
      intro hgone
      rw [hdeparted hgone] at hstays
      cases hstays
    · exact hs.owner r hr e hold

theorem Consistent.remove (hs : Consistent s) (h2 : 2 ≤ N) (hN : N ≤ 32767)
    {e : Endpoint N} (he : s.procs pid = some e) (hphase : e.phase = .joined)
    {rc : Rc} (hremove : s.list.removeElement e.conf.port = some (rc, t.list))
    (hprocs : t.procs =
      Function.update s.procs pid (some (e.enter .removed))) :
    Consistent t := by
  have hattached := hs.procs pid e he
  obtain ⟨hl', hrecords⟩ := hs.wellFormed.of_removeElement h2 hN hremove
  have hmem : ∀ r, r ∈ t.list.records ↔ r ∈ s.list.records ∧ r.pid ≠ pid := by
    intro r
    rw [hrecords]
    exact hs.mem_removeKey_iff he hphase r
  refine ⟨hl', ?_, ?_, ?_, ?_⟩
  · rw [hrecords]
    exact nodup_map_removeKey hs.ports
  · rw [hrecords]
    exact nodup_map_removeKey hs.pids
  · intro pid' e' he'
    rcases eq_some_of_update hprocs he' with ⟨rfl, ⟨⟩⟩ | ⟨heq, hold⟩
    · refine ⟨hattached.valid, ?_, ?_, ?_⟩
      · intro _
        exact hattached.configured (by rw [hphase]; rfl)
      · intro hactive
        cases hactive
      · intro node hnode
        cases hnode
    · have hconf : e.conf.port = e.launch.port :=
        hattached.configured (by rw [hphase]; rfl)
      obtain ⟨own, hown, hport, hpid⟩ :=
        hattached.registered (by rw [hphase]; rfl)
      have hother := hs.procs pid' e' hold
      by_cases hactive : e'.phase.active = true
      · have hne : e'.launch.port ≠ e.conf.port := by
          intro hsame
          obtain ⟨r, hr, hport', hpid'⟩ := hother.registered hactive
          obtain rfl := List.inj_on_of_nodup_map hs.ports hr hown
            (by rw [hport', hsame, hconf, hport])
          exact heq (hpid'.symm.trans hpid)
        apply hother.of_keeps
        · intro r hr hport' hpid'
          refine ⟨r, (hmem r).mpr ⟨hr, ?_⟩, rfl, rfl⟩
          rw [hpid']
          exact heq
        · intro i r hi hport'
          exact ⟨r, hi.removeElement hs.wellFormed h2 hN (by rwa [hport'])
            hremove, rfl⟩
      · exact hother.of_inactive hactive
  · intro r hr e' he'
    obtain ⟨hr, hne⟩ := (hmem r).mp hr
    rw [hprocs, Function.update_of_ne hne] at he'
    exact hs.owner r hr e' he'

/-- Every step of an endpoint keeps the system consistent and leaves the
entries of other processes alone. -/
theorem Consistent.proc (hg : FollowsGnu getopt) (hs : Consistent s)
    (h2 : 2 ≤ N) (hN : N ≤ 32767) (hactor : a.actor = some pid)
    (h : s.next getopt config a = some (t, o)) :
    Consistent t ∧
      t.list.records.filter (fun r => r.pid ≠ pid) =
        s.list.records.filter (fun r => r.pid ≠ pid) := by
  obtain ⟨e, l, e', he, hstep, rfl, hprocs⟩ := next_proc hactor h
  have hattached := hs.procs pid e he
  generalize hl : t.list = l at hstep
  cases hstep with
  | advance _ e' _ hadvance =>
      by_cases hphase : e.phase = .joined
      · subst hl
        obtain ⟨rc, hremove, rfl⟩ := advance_joined hadvance hphase
        refine ⟨hs.remove h2 hN he hphase hremove hprocs, ?_⟩
        rw [(hs.wellFormed.of_removeElement h2 hN hremove).2]
        apply filter_removeKey
        intro r hr hport
        by_contra hpid
        have hne : r.pid ≠ pid := by simpa using hpid
        have hmem := (hs.mem_removeKey_iff he hphase r).mpr ⟨hr, hne⟩
        exact ((mem_removeKey hs.ports).mp hmem).2 hport
      · obtain ⟨rfl, hattached', hlaunch, hdeparted⟩ :=
          hattached.advance hg hs.wellFormed hphase hadvance
        refine ⟨hs.setProc hl hprocs ?_ ?_, rfl⟩
        · rintro _ ⟨⟩
          exact hattached'
        · rintro _ ⟨⟩
          exact ⟨e, he, hlaunch, hdeparted⟩
  | timeout hphase hpending =>
      have hactive : e.phase.active = true := by rw [hphase]; rfl
      have hconfigured : e.phase.configured = true := by rw [hphase]; rfl
      refine ⟨hs.setProc hl hprocs ?_ ?_, rfl⟩
      · rintro _ ⟨⟩
        apply hattached.enter (fun _ => hconfigured) (fun _ => hactive)
        intro node hnode
        cases hnode
      · rintro _ ⟨⟩
        refine ⟨e, he, rfl, ?_⟩
        intro hdeparted
        cases hdeparted
  | crash hphase =>
      refine ⟨hs.setProc hl hprocs ?_ ?_, rfl⟩
      · rintro _ ⟨⟩
        exact hattached.crash
      · rintro _ ⟨⟩
        refine ⟨e, he, rfl, ?_⟩
        intro hdeparted
        cases hdeparted
  | reap hphase =>
      refine ⟨hs.setProc hl hprocs ?_ ?_, rfl⟩
      · rintro _ ⟨⟩
      · rintro _ ⟨⟩

end Proc

/-! ## Every interleaving -/

section Runs

variable {s t : System N} {es : List Event}

/-- The system is consistent after every run in the assumed environment. -/
theorem consistent_of_run (hg : FollowsGnu getopt) (h2 : 2 ≤ N)
    (hN : N ≤ 32767) (hs : Consistent s)
    (hrun : Run (Restrict (Step getopt config) Environment) s es t) :
    Consistent t := by
  apply hrun.invariant hs
  rintro s' ⟨a, o⟩ t' hs' ⟨hstep, henv⟩
  cases hactor : a.actor with
  | none =>
      cases a with
      | serve data fork => exact hs'.serve h2 hN henv hstep
      | _ => cases hactor
  | some pid => exact (hs'.proc hg h2 hN hactor hstep).1

/-- The entries have distinct ports; an endpoint that has not removed its entry
has exactly one, which carries its port and its pid, and works on this port; no
two such endpoints share a port. -/
structure Exclusive (s : System N) : Prop where
  ports : (s.list.records.map Data.port).Nodup
  entry : ∀ pid e, s.procs pid = some e → e.phase.active = true →
    ∃ r, s.list.records.filter (fun r => r.port = e.launch.port) = [r] ∧
      s.list.records.filter (fun r => r.pid = pid) = [r]
  localPort : ∀ pid e, s.procs pid = some e → e.phase.configured = true →
    e.conf.port = e.launch.port
  distinct : ∀ pid pid' e e', s.procs pid = some e → s.procs pid' = some e' →
    e.phase.active = true → e'.phase.active = true →
    e.launch.port = e'.launch.port → pid = pid'

theorem Consistent.exclusive (hs : Consistent s) : Exclusive s where
  ports := hs.ports
  entry := by
    intro pid e he hactive
    obtain ⟨r, hr, hport, hpid⟩ := (hs.procs pid e he).registered hactive
    refine ⟨r, ?_, ?_⟩
    · rw [← hport]
      exact filter_key_of_mem hs.ports hr
    · rw [← hpid]
      exact filter_key_of_mem hs.pids hr
  localPort := fun pid e he => (hs.procs pid e he).configured
  distinct := by
    intro pid pid' e e' he he' hactive hactive' hport
    obtain ⟨r, hr, hrport, hrpid⟩ := (hs.procs pid e he).registered hactive
    obtain ⟨r', hr', hrport', hrpid'⟩ :=
      (hs.procs pid' e' he').registered hactive'
    obtain rfl : r = r' := List.inj_on_of_nodup_map hs.ports hr hr'
      (by rw [hrport, hrport', hport])
    exact hrpid.symm.trans hrpid'

/-- In every interleaving of the worker with the endpoints the registry stays
exclusive, and a step of an endpoint, its exit in particular, leaves the entries
of all other processes as they are. -/
theorem registry_exclusive (hg : FollowsGnu getopt) (h2 : 2 ≤ N)
    (hN : N ≤ 32767) (mem : SharedLst N)
    (hrun : Run (Restrict (Step getopt config) Environment)
      (System.initial mem) es t) :
    Exclusive t ∧ ∀ a o u pid, Step getopt config t (a, o) u →
      a.actor = some pid →
      u.list.records.filter (fun r => r.pid ≠ pid) =
        t.list.records.filter (fun r => r.pid ≠ pid) := by
  have ht := consistent_of_run hg h2 hN (initial_consistent h2 hN mem) hrun
  refine ⟨ht.exclusive, ?_⟩
  intro a o u pid hstep hactor
  exact (ht.proc hg h2 hN hactor hstep).2

/-- The first endpoint is about to remove its entry while a second one for
another port has crashed and left its entry behind. -/
theorem registry_exclusive_two : ∃ t es,
    Run (Restrict (Step exactGetoptLong defaultConfig) Environment)
        (System.initial (zeroSegment 2)) es t ∧
      t.list.records.map Data.port = [21000, 22000] ∧
      (t.procs 7).map Endpoint.phase = some .joined ∧ Exclusive t := by
  obtain ⟨t, es, hrun, -, htest⟩ := exists_restricted_run_of_exec
    (System.next exactGetoptLong defaultConfig) Environment
    (System.initial (zeroSegment 2))
    [.serve (serverRequest 21000 10000) (some 7), .advance 7, .advance 7,
      .advance 7, .advance 7, .advance 7, .advance 7, .timeout 7, .advance 7,
      .serve (serverRequest 22000 10000) (some 8), .crash 8, .reap 8]
    (fun r => decide (r.1.list.records.map Data.port = [21000, 22000] ∧
      (r.1.procs 7).map Endpoint.phase = some .joined)) (by decide +kernel)
  obtain ⟨hports, hphase⟩ := of_decide_eq_true htest
  exact ⟨t, es, hrun, hports, hphase,
    (registry_exclusive exactGetoptLong_followsGnu (by decide) (by decide)
      (zeroSegment 2) hrun).1⟩

end Runs

end SippScen.MediaHost
