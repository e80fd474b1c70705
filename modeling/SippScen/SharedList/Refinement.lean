import SippScen.SharedList.Chain
import SippScen.Support.KeyedSeq

/-!
# The registry is a bounded sequence of records

Seen from outside, the segment holds a sequence of at most `N` records, keyed
by their port, in the order in which they were added.  Every operation of
`shared_list.cpp` acts on this sequence, so every history of calls from
`SharedList::initialize` gives the replies of the sequence and never leaves the
array.
-/

namespace SippScen.SharedList

open SippScen.Support SharedLst

variable {N : ℕ}

/-- What the registry is for: a bounded sequence of records. -/
abbrev Registry (N : ℕ) := BoundedSeq Data N

/-- The reply and the next state of an operation that either succeeds or
returns `ERROR` and changes nothing. -/
def Registry.attempt (s : Registry N) : Option (Registry N) → Reply × Registry N
  | some s' => (.code .success, s')
  | none => (.code .error, s)

/-- The operations of the sequence. -/
def Registry.call (s : Registry N) : Call → Reply × Registry N
  | .add d => s.attempt (s.append d)
  | .update d => s.attempt (s.replace Data.port d)
  | .remove port => s.attempt (s.remove Data.port port)
  | .fetch port => (.record (findKey Data.port port s.items), s)
  | .print => (.listing (s.items.flatMap printLine), s)

/-- All nodes form one chain, the ones in use in front. -/
def WellFormed (l : SharedLst N) : Prop :=
  ∃ used free, Layout l used free

/-- The segment holds the records of the sequence. -/
def Represents (l : SharedLst N) (s : Registry N) : Prop :=
  WellFormed l ∧ l.records = s.items

theorem WellFormed.count_eq {l : SharedLst N} (h : WellFormed l) :
    l.count = l.records.length := by
  obtain ⟨used, free, hlayout⟩ := h
  exact hlayout.count_eq_records

theorem WellFormed.length_records_le {l : SharedLst N} (h : WellFormed l) :
    l.records.length ≤ N := by
  obtain ⟨used, free, hlayout⟩ := h
  rw [hlayout.records_eq, List.length_map]
  exact hlayout.used_length_le

theorem initializeList_wellFormed (mem : SharedLst N) (h2 : 2 ≤ N)
    (hN : N ≤ 32767) :
    WellFormed mem.initializeList ∧ mem.initializeList.records = [] := by
  have h := initializeList_layout mem (by omega) hN
  exact ⟨⟨_, _, h⟩, h.records_eq⟩

/-! ## The operations on the records -/

theorem WellFormed.fetchElement_spec {l : SharedLst N} (h : WellFormed l)
    (port : ℤ) :
    ∃ found, l.fetchElement port = some found ∧
      found.map l.data = findKey Data.port port l.records := by
  obtain ⟨used, free, hlayout⟩ := h
  refine ⟨_, hlayout.fetchElement_eq port, ?_⟩
  rw [hlayout.records_eq, findKey, List.find?_map]
  rfl

theorem WellFormed.addElement_full {l : SharedLst N} (h : WellFormed l)
    (hfull : l.records.length = N) (d : Data) :
    l.addElement d = some (.error, l) := by
  obtain ⟨used, free, hlayout⟩ := h
  have hnil : free = [] := by
    have hlen := hlayout.full
    rw [hlayout.records_eq, List.length_map] at hfull
    rw [List.length_append] at hlen
    exact List.length_eq_zero_iff.mp (by omega)
  subst hnil
  exact hlayout.addElement_full d

theorem map_update_of_not_mem {data : Fin N → Data} {i : Fin N} {d : Data}
    {slots : List (Fin N)} (hi : i ∉ slots) :
    slots.map (Function.update data i d) = slots.map data := by
  apply List.map_congr_left
  intro j hj
  exact Function.update_of_ne (ne_of_mem_of_not_mem hj hi) _ _

/-- `add_element` with room appends the record. -/
theorem WellFormed.addElement_room {l : SharedLst N} (h : WellFormed l)
    (hN : N ≤ 32767) (hroom : l.records.length < N) (d : Data) :
    ∃ l', l.addElement d = some (.success, l') ∧ WellFormed l' ∧
      l'.records = l.records ++ [d] := by
  obtain ⟨used, free, hlayout⟩ := h
  have hlen := hlayout.full
  have hrecords := hlayout.records_eq
  rw [hrecords, List.length_map] at hroom
  rw [List.length_append] at hlen
  obtain ⟨i, free, rfl⟩ : ∃ i rest, free = i :: rest :=
    List.exists_cons_of_length_pos (by omega)
  obtain ⟨l', hadd, hlayout', hdata⟩ := hlayout.addElement_free hN d
  refine ⟨l', hadd, ⟨_, _, hlayout'⟩, ?_⟩
  have hi : i ∉ used := by
    have hnodup := hlayout.nodup
    simp only [List.nodup_append, List.nodup_cons] at hnodup
    intro hmem
    exact hnodup.2.2 i hmem i (by simp) rfl
  rw [hlayout'.records_eq, hdata, List.map_append,
    map_update_of_not_mem hi, hrecords]
  simp

/-- The slots of a layout are split at the first record with a port. -/
theorem Layout.absent_or_first {l : SharedLst N} {used free : List (Fin N)}
    (h : Layout l used free) (port : ℤ) :
    (∀ r ∈ l.records, r.port ≠ port) ∧
        (∀ i ∈ used, (l.data i).port ≠ port) ∨
      ∃ front x back, used = front ++ x :: back ∧ (l.data x).port = port ∧
        ∀ i ∈ front, (l.data i).port ≠ port := by
  have hrecords := h.records_eq
  rcases Support.absent_or_first (fun i => (l.data i).port) port used with
    habsent | hfirst
  · refine Or.inl ⟨?_, habsent⟩
    intro r hr
    rw [hrecords] at hr
    obtain ⟨i, hi, rfl⟩ := List.mem_map.mp hr
    exact habsent i hi
  · exact Or.inr hfirst

/-- `update_element` replaces the first record of the port in place. -/
theorem WellFormed.updateElement_spec {l : SharedLst N} (h : WellFormed l)
    (d : Data) :
    ∃ rc l', l.updateElement d = some (rc, l') ∧ WellFormed l' ∧
      l'.records = replaceKey Data.port d l.records ∧
      (rc = .success ↔ ∃ r ∈ l.records, r.port = d.port) ∧
      (rc = .error → l' = l) := by
  obtain ⟨used, free, hlayout⟩ := h
  have hfetch := hlayout.fetchElement_eq d.port
  have hrecords := hlayout.records_eq
  rcases hlayout.absent_or_first d.port with
    ⟨habsent, hslots⟩ | ⟨front, x, back, rfl, hx, hfront⟩
  · have hnone : (used.find? fun i => (l.data i).port = d.port) = none :=
      findKey_absent hslots
    refine ⟨.error, l, ?_, ⟨used, free, hlayout⟩, ?_, ?_, fun _ => rfl⟩
    · simp [updateElement, hfetch, hnone]
    · rw [replaceKey_absent habsent]
    · simpa using habsent
  · have hsome : ((front ++ x :: back).find?
        fun i => (l.data i).port = d.port) = some x :=
      findKey_first hx hfront
    have hset := hlayout.setData x d
    have hnodup := hlayout.nodup
    have hnot : x ∉ front ∧ x ∉ back := by
      simp only [List.nodup_append, List.nodup_cons, List.mem_append,
        List.mem_cons] at hnodup
      grind
    refine ⟨.success, l.setData x d, ?_, ⟨_, _, hset⟩, ?_, ?_, ?_⟩
    · simp [updateElement, hfetch, hsome]
    · rw [hset.records_eq, hrecords]
      simp only [setData_data, List.map_append, List.map_cons,
        map_update_of_not_mem hnot.1, map_update_of_not_mem hnot.2,
        Function.update_self]
      exact (replaceKey_first hx (by simpa using hfront)).symm
    · simp only [true_iff]
      exact ⟨l.data x, by simp [hrecords], hx⟩
    · simp

/-- `remove_element` deletes the first record of the port. -/
theorem WellFormed.removeElement_spec {l : SharedLst N} (h : WellFormed l)
    (h2 : 2 ≤ N) (hN : N ≤ 32767) (port : ℤ) :
    ∃ rc l', l.removeElement port = some (rc, l') ∧ WellFormed l' ∧
      l'.records = removeKey Data.port port l.records ∧
      (rc = .success ↔ ∃ r ∈ l.records, r.port = port) ∧
      (rc = .error → l' = l) := by
  obtain ⟨used, free, hlayout⟩ := h
  have hrecords := hlayout.records_eq
  rcases hlayout.absent_or_first port with
    ⟨habsent, hslots⟩ | ⟨front, x, back, rfl, rfl, hfront⟩
  · refine ⟨.error, l, hlayout.removeElement_absent hslots,
      ⟨used, free, hlayout⟩, ?_, ?_, fun _ => rfl⟩
    · rw [removeKey_absent habsent]
    · simpa using habsent
  · obtain ⟨l', hremove, hlayout', hdata⟩ :=
      hlayout.removeElement_present h2 hN hfront
    refine ⟨.success, l', hremove, ⟨_, _, hlayout'⟩, ?_, ?_, by simp⟩
    · rw [hlayout'.records_eq, hdata, hrecords, List.map_append,
        List.map_append, List.map_cons]
      exact (removeKey_first rfl (by simpa using hfront)).symm
    · simp only [true_iff]
      exact ⟨l.data x, by simp [hrecords], rfl⟩

theorem WellFormed.of_removeElement {l l' : SharedLst N} (h : WellFormed l)
    (h2 : 2 ≤ N) (hN : N ≤ 32767) {port : ℤ} {rc : Rc}
    (hremove : l.removeElement port = some (rc, l')) :
    WellFormed l' ∧ l'.records = removeKey Data.port port l.records := by
  obtain ⟨rc', l₁, hremove₁, hl₁, hrecords, -, -⟩ :=
    h.removeElement_spec h2 hN port
  rw [hremove] at hremove₁
  obtain ⟨-, rfl⟩ := Prod.mk.inj (Option.some.inj hremove₁)
  exact ⟨hl₁, hrecords⟩

theorem WellFormed.printList_spec {l : SharedLst N} (h : WellFormed l) :
    l.printList = some (l.records.flatMap printLine) := by
  obtain ⟨used, free, hlayout⟩ := h
  exact hlayout.printList_eq

/-! ## Whole histories -/

theorem Registry.attempt_ite {s s' : Registry N} {p : Prop} [Decidable p]
    {rc : Rc} (hrc : rc = .success ↔ p) :
    s.attempt (if p then some s' else none) =
      (.code rc, if p then s' else s) := by
  by_cases hp : p
  · simp [attempt, hp, hrc.mpr hp]
  · cases rc with
    | error => simp [attempt, hp]
    | success => exact absurd (hrc.mp rfl) hp

/-- Every single call gives the reply of the sequence. -/
theorem call_implements (h2 : 2 ≤ N) (hN : N ≤ 32767) :
    Implements (SharedLst.call (N := N)) Registry.call Represents := by
  rintro l s c ⟨hl, hs⟩
  cases c with
  | add d =>
      by_cases hroom : s.items.length < N
      · obtain ⟨l', hadd, hl', hrecords⟩ :=
          hl.addElement_room hN (by rwa [hs]) d
        refine ⟨l', ?_, hl', ?_⟩
        · simp [SharedLst.call, Registry.call, Registry.attempt,
            BoundedSeq.append, hroom, hadd]
        · simp [Registry.call, Registry.attempt, BoundedSeq.append, hroom,
            hrecords, hs]
      · have hfull : l.records.length = N := by
          have := s.bounded
          rw [hs]
          omega
        have hadd := hl.addElement_full hfull d
        refine ⟨l, ?_, hl, ?_⟩
        · simp [SharedLst.call, Registry.call, Registry.attempt,
            BoundedSeq.append, hroom, hadd]
        · simp [Registry.call, Registry.attempt, BoundedSeq.append, hroom, hs]
  | update d =>
      obtain ⟨rc, l', hupdate, hl', hrecords, hrc, -⟩ :=
        hl.updateElement_spec d
      rw [hs] at hrc hrecords
      simp only [Registry.call, BoundedSeq.replace, Registry.attempt_ite hrc]
      refine ⟨l', by simp [SharedLst.call, hupdate], hl', ?_⟩
      rw [hrecords]
      split
      · rfl
      · next habsent => exact replaceKey_absent (by simpa using habsent)
  | remove port =>
      obtain ⟨rc, l', hremove, hl', hrecords, hrc, -⟩ :=
        hl.removeElement_spec h2 hN port
      rw [hs] at hrc hrecords
      simp only [Registry.call, BoundedSeq.remove, Registry.attempt_ite hrc]
      refine ⟨l', by simp [SharedLst.call, hremove], hl', ?_⟩
      rw [hrecords]
      split
      · rfl
      · next habsent => exact removeKey_absent (by simpa using habsent)
  | fetch port =>
      obtain ⟨found, hfetch, hfound⟩ := hl.fetchElement_spec port
      refine ⟨l, ?_, hl, hs⟩
      simp [SharedLst.call, Registry.call, hfetch, hfound, hs]
  | print =>
      refine ⟨l, ?_, hl, hs⟩
      simp [SharedLst.call, Registry.call, hl.printList_spec, hs]

/-- The sequence that a history of calls from the empty registry leads to, and
the replies on the way. -/
def Registry.history (N : ℕ) (cs : List Call) : List Reply × Registry N :=
  specCalls Registry.call (BoundedSeq.empty Data N) cs

theorem initializeList_represents (mem : SharedLst N) (h2 : 2 ≤ N)
    (hN : N ≤ 32767) :
    Represents mem.initializeList (BoundedSeq.empty Data N) :=
  initializeList_wellFormed mem h2 hN

theorem calls_represents (h2 : 2 ≤ N) (hN : N ≤ 32767) (mem : SharedLst N)
    (cs : List Call) :
    ∃ l, mem.initializeList.calls cs =
        some ((Registry.history N cs).1, l) ∧
      Represents l (Registry.history N cs).2 :=
  (call_implements h2 hN).runCalls (initializeList_represents mem h2 hN) cs

theorem WellFormed.calls_add {l : SharedLst N} (h : WellFormed l)
    (hN : N ≤ 32767) (ds : List Data)
    (hroom : l.records.length + ds.length ≤ N) :
    ∃ l', l.calls (ds.map .add) =
        some (ds.map fun _ => .code .success, l') ∧
      l'.records = l.records ++ ds := by
  induction ds generalizing l with
  | nil => exact ⟨l, rfl, by simp⟩
  | cons d ds ih =>
      simp only [List.length_cons] at hroom
      obtain ⟨l₁, hadd, hl₁, hrecords₁⟩ :=
        h.addElement_room hN (by omega) d
      obtain ⟨l₂, hcalls, hrecords₂⟩ := ih hl₁ (by
        rw [hrecords₁]
        simp only [List.length_append, List.length_singleton]
        omega)
      refine ⟨l₂, ?_, by rw [hrecords₂, hrecords₁]; simp⟩
      simp only [SharedLst.calls] at hcalls
      simp [SharedLst.calls, runCalls, SharedLst.call, hadd, hcalls]

/-- The array of nodes behaves as a bounded sequence of records: over every
history of calls it gives the replies of the sequence, it holds the records of
the sequence in order, and every place that the sequence has left can be
filled. -/
theorem sharedList_refines_registry (h2 : 2 ≤ N) (hN : N ≤ 32767)
    (mem : SharedLst N) (cs : List Call) :
    ∃ l, mem.initializeList.calls cs =
        some ((Registry.history N cs).1, l) ∧
      l.records = (Registry.history N cs).2.items ∧
      ∀ ds : List Data, l.records.length + ds.length ≤ N →
        ∃ l', l.calls (ds.map .add) =
            some (ds.map fun _ => .code .success, l') ∧
          l'.records = l.records ++ ds := by
  obtain ⟨l, hcalls, hl, hrecords⟩ := calls_represents h2 hN mem cs
  exact ⟨l, hcalls, hrecords, fun ds hroom => hl.calls_add hN ds hroom⟩

/-- Shared memory as `ftruncate` provides it. -/
def zeroSegment (N : ℕ) : SharedLst N where
  nodes _ :=
    { data := ⟨0, 0, Vector.replicate addrSz nul, 0, 0, 0⟩, next := 0 }
  head := 0
  count := 0

/-- A record of a server endpoint with no peer. -/
def serverRecord (port pid : ℤ) : Data :=
  ⟨port, 5000, strncpy addrSz "127.0.0.1".toList, 0, pid, 0⟩

/-- A registry of two places is filled, refuses a third record, loses its head
and takes a new record in the freed slot. -/
theorem sharedList_refines_registry_two :
    ∃ l, (zeroSegment 2).initializeList.calls
        [.add (serverRecord 10 1), .add (serverRecord 20 2),
          .add (serverRecord 30 3), .remove 10, .add (serverRecord 30 3)] =
        some ([.code .success, .code .success, .code .error, .code .success,
          .code .success], l) ∧
      l.records = [serverRecord 20 2, serverRecord 30 3] := by
  obtain ⟨l, hcalls, hrecords, -⟩ :=
    sharedList_refines_registry (by decide) (by decide) (zeroSegment 2)
      [.add (serverRecord 10 1), .add (serverRecord 20 2),
        .add (serverRecord 30 3), .remove 10, .add (serverRecord 30 3)]
  exact ⟨l, hcalls, hrecords⟩

/-- After every history of calls `count` is between `0` and `N`, following
`next` from `head` visits every slot of the array exactly once and ends in
`-1`, and every further call stays inside of the array. -/
theorem chain_visits_every_slot (h2 : 2 ≤ N) (hN : N ≤ 32767)
    (mem : SharedLst N) (cs : List Call) :
    ∃ replies l, mem.initializeList.calls cs = some (replies, l) ∧
      (0 ≤ l.count ∧ l.count ≤ N) ∧
      Linked (deref N) l.next l.head l.chain (-1) ∧
      l.chain.Perm (List.finRange N) ∧
      l.usedSlots = l.chain.take l.count.toNat ∧
      ∀ c, (l.call c).isSome := by
  obtain ⟨l, hcalls, hl, hrecords⟩ := calls_represents h2 hN mem cs
  obtain ⟨used, free, hlayout⟩ := hl
  have hle := hlayout.used_length_le
  have hcount := hlayout.count_eq
  refine ⟨_, l, hcalls, ⟨by omega, by omega⟩, ?_, ?_, ?_, ?_⟩
  · rw [hlayout.chain_eq]
    exact hlayout.linked
  · rw [hlayout.chain_eq]
    exact hlayout.perm_finRange
  · rw [hlayout.chain_eq, hlayout.usedSlots_eq, hlayout.toNat_count]
    simp
  · intro c
    obtain ⟨l', hcall, -⟩ := call_implements h2 hN l
      (Registry.history N cs).2 c ⟨⟨used, free, hlayout⟩, hrecords⟩
    simp [hcall]

/-- A full registry searched in vain and then emptied keeps its chain. -/
theorem chain_visits_every_slot_two :
    ∃ replies l, (zeroSegment 2).initializeList.calls
        [.add (serverRecord 10 1), .add (serverRecord 20 2), .remove 30,
          .remove 20, .remove 10] = some (replies, l) ∧
      l.chain.Perm (List.finRange 2) := by
  obtain ⟨replies, l, hcalls, -, -, hperm, -⟩ :=
    chain_visits_every_slot (by decide) (by decide) (zeroSegment 2)
      [.add (serverRecord 10 1), .add (serverRecord 20 2), .remove 30,
        .remove 20, .remove 10]
  exact ⟨replies, l, hcalls, hperm⟩

end SippScen.SharedList
