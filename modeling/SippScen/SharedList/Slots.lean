import SippScen.SharedList.Refinement

/-!
# Entries keep their slots

`fetch_element` returns a pointer into the shared array, and its callers read
the record behind the pointer after other operations took place.  An entry stays
in its slot while entries of other ports are added, updated and removed.
-/

namespace SippScen.SharedList

open SippScen.Support SharedLst

variable {N : ℕ} {l l' : SharedLst N} {i j : Fin N} {r d : Data} {rc : Rc}

/-- The slot `i` is in use and stores the record `r`. -/
def Holds (l : SharedLst N) (i : Fin N) (r : Data) : Prop :=
  i ∈ l.usedSlots ∧ l.data i = r

theorem Holds.mem_records (h : Holds l i r) : r ∈ l.records := by
  rw [records, List.mem_map]
  exact ⟨i, h⟩

/-- With distinct ports an entry is stored in one slot only. -/
theorem Holds.slot_unique {s : Data}
    (hnodup : (l.records.map Data.port).Nodup) (hi : Holds l i r)
    (hj : Holds l j s) (hport : r.port = s.port) : i = j := by
  rw [records, List.map_map] at hnodup
  apply List.inj_on_of_nodup_map hnodup hi.1 hj.1
  rw [Function.comp_apply, Function.comp_apply, hi.2, hj.2]
  exact hport

/-- The pointer that `fetch_element` returns refers to an entry of the port. -/
theorem WellFormed.holds_of_fetch (hl : WellFormed l) {port : ℤ}
    (hfetch : l.fetchElement port = some (some i)) :
    Holds l i (l.data i) ∧ (l.data i).port = port := by
  obtain ⟨used, free, hlayout⟩ := hl
  rw [hlayout.fetchElement_eq port, Option.some.injEq] at hfetch
  have hport := List.find?_some hfetch
  refine ⟨⟨?_, rfl⟩, of_decide_eq_true hport⟩
  rw [hlayout.usedSlots_eq]
  exact List.mem_of_find?_eq_some hfetch

theorem Holds.addElement (hl : WellFormed l) (hN : N ≤ 32767)
    (h : Holds l i r) (hadd : l.addElement d = some (rc, l')) :
    Holds l' i r := by
  obtain ⟨used, free, hlayout⟩ := hl
  obtain ⟨hmem, hdata⟩ := h
  rw [hlayout.usedSlots_eq] at hmem
  cases free with
  | nil =>
      rw [hlayout.addElement_full] at hadd
      obtain ⟨-, rfl⟩ := Prod.mk.inj (Option.some.inj hadd)
      exact ⟨by rwa [hlayout.usedSlots_eq], hdata⟩
  | cons x free =>
      obtain ⟨l₁, hadd₁, hlayout₁, hdata₁⟩ := hlayout.addElement_free hN d
      rw [hadd₁] at hadd
      obtain ⟨-, rfl⟩ := Prod.mk.inj (Option.some.inj hadd)
      have hne : i ≠ x := by
        rintro rfl
        exact List.disjoint_of_nodup_append hlayout.nodup hmem
          List.mem_cons_self
      constructor
      · rw [hlayout₁.usedSlots_eq]
        exact List.mem_append_left _ hmem
      · rw [hdata₁, Function.update_of_ne hne, hdata]

theorem Holds.setData_of_ne (hl : WellFormed l) (h : Holds l i r)
    (hne : i ≠ j) (d : Data) : Holds (l.setData j d) i r := by
  obtain ⟨used, free, hlayout⟩ := hl
  obtain ⟨hmem, hdata⟩ := h
  constructor
  · rwa [(hlayout.setData j d).usedSlots_eq, ← hlayout.usedSlots_eq]
  · rw [setData_data, Function.update_of_ne hne, hdata]

theorem Holds.setData_self (hl : WellFormed l) (h : Holds l i r)
    (d : Data) : Holds (l.setData i d) i d := by
  obtain ⟨used, free, hlayout⟩ := hl
  constructor
  · rw [(hlayout.setData i d).usedSlots_eq, ← hlayout.usedSlots_eq]
    exact h.1
  · rw [setData_data, Function.update_self]

theorem Holds.updateElement (hl : WellFormed l) (h : Holds l i r)
    (hne : r.port ≠ d.port)
    (hupdate : l.updateElement d = some (rc, l')) : Holds l' i r := by
  obtain ⟨found, hfetch, -⟩ := hl.fetchElement_spec d.port
  rw [SharedLst.updateElement, hfetch] at hupdate
  cases found with
  | none =>
      obtain ⟨-, rfl⟩ := Prod.mk.inj (Option.some.inj hupdate)
      exact h
  | some j =>
      obtain ⟨-, rfl⟩ := Prod.mk.inj (Option.some.inj hupdate)
      obtain ⟨-, hport⟩ := hl.holds_of_fetch hfetch
      apply h.setData_of_ne hl
      rintro rfl
      rw [h.2] at hport
      exact hne hport

theorem Holds.removeElement (hl : WellFormed l) (h2 : 2 ≤ N)
    (hN : N ≤ 32767) (h : Holds l i r) {port : ℤ} (hne : r.port ≠ port)
    (hremove : l.removeElement port = some (rc, l')) : Holds l' i r := by
  obtain ⟨used, free, hlayout⟩ := hl
  obtain ⟨hmem, hdata⟩ := h
  rcases hlayout.absent_or_first port with
    ⟨-, habsent⟩ | ⟨front, x, back, rfl, rfl, hfront⟩
  · rw [hlayout.removeElement_absent habsent] at hremove
    obtain ⟨-, rfl⟩ := Prod.mk.inj (Option.some.inj hremove)
    exact ⟨hmem, hdata⟩
  · obtain ⟨l₁, hremove₁, hlayout₁, hdata₁⟩ :=
      hlayout.removeElement_present h2 hN hfront
    rw [hremove₁] at hremove
    obtain ⟨-, rfl⟩ := Prod.mk.inj (Option.some.inj hremove)
    have hix : i ≠ x := by
      rintro rfl
      exact hne (congrArg Data.port hdata.symm)
    rw [hlayout.usedSlots_eq, List.mem_append, List.mem_cons] at hmem
    constructor
    · rw [hlayout₁.usedSlots_eq, List.mem_append]
      rcases hmem with hfirst | hx | hlast
      · exact Or.inl hfirst
      · exact absurd hx hix
      · exact Or.inr hlast
    · rw [hdata₁, hdata]

/-! ## No entry appears for another port -/

theorem Holds.of_addElement (hl : WellFormed l) (hN : N ≤ 32767)
    (hne : r.port ≠ d.port) (hadd : l.addElement d = some (rc, l'))
    (h : Holds l' i r) : Holds l i r := by
  obtain ⟨used, free, hlayout⟩ := hl
  rcases free with _ | ⟨x, free⟩
  · rw [hlayout.addElement_full] at hadd
    obtain ⟨-, rfl⟩ := Prod.mk.inj (Option.some.inj hadd)
    exact h
  · obtain ⟨l₁, hadd₁, hlayout₁, hdata₁⟩ := hlayout.addElement_free hN d
    rw [hadd₁] at hadd
    obtain ⟨-, rfl⟩ := Prod.mk.inj (Option.some.inj hadd)
    obtain ⟨hmem, hdata⟩ := h
    rw [hdata₁] at hdata
    have hix : i ≠ x := by
      rintro rfl
      rw [Function.update_self] at hdata
      exact hne (congrArg Data.port hdata.symm)
    rw [Function.update_of_ne hix] at hdata
    rw [hlayout₁.usedSlots_eq, List.mem_append, List.mem_singleton] at hmem
    refine ⟨?_, hdata⟩
    rw [hlayout.usedSlots_eq]
    exact hmem.resolve_right hix

theorem Holds.of_updateElement (hl : WellFormed l) (hne : r.port ≠ d.port)
    (hupdate : l.updateElement d = some (rc, l')) (h : Holds l' i r) :
    Holds l i r := by
  obtain ⟨found, hfetch, -⟩ := hl.fetchElement_spec d.port
  rw [SharedLst.updateElement, hfetch] at hupdate
  rcases found with _ | j
  · obtain ⟨-, rfl⟩ := Prod.mk.inj (Option.some.inj hupdate)
    exact h
  · obtain ⟨-, rfl⟩ := Prod.mk.inj (Option.some.inj hupdate)
    obtain ⟨used, free, hlayout⟩ := hl
    obtain ⟨hmem, hdata⟩ := h
    rw [(hlayout.setData j d).usedSlots_eq, ← hlayout.usedSlots_eq] at hmem
    rw [setData_data] at hdata
    refine ⟨hmem, ?_⟩
    by_cases hij : i = j
    · subst hij
      rw [Function.update_self] at hdata
      exact absurd (congrArg Data.port hdata.symm) hne
    · rwa [Function.update_of_ne hij] at hdata

theorem Holds.of_removeElement (hl : WellFormed l) (h2 : 2 ≤ N)
    (hN : N ≤ 32767) {port : ℤ} (hremove : l.removeElement port = some (rc, l'))
    (h : Holds l' i r) : Holds l i r := by
  obtain ⟨used, free, hlayout⟩ := hl
  rcases hlayout.absent_or_first port with
    ⟨-, habsent⟩ | ⟨front, x, back, rfl, rfl, hfront⟩
  · rw [hlayout.removeElement_absent habsent] at hremove
    obtain ⟨-, rfl⟩ := Prod.mk.inj (Option.some.inj hremove)
    exact h
  · obtain ⟨l₁, hremove₁, hlayout₁, hdata₁⟩ :=
      hlayout.removeElement_present h2 hN hfront
    rw [hremove₁] at hremove
    obtain ⟨-, rfl⟩ := Prod.mk.inj (Option.some.inj hremove)
    obtain ⟨hmem, hdata⟩ := h
    rw [hlayout₁.usedSlots_eq, List.mem_append] at hmem
    refine ⟨?_, by rw [← hdata, hdata₁]⟩
    rw [hlayout.usedSlots_eq, List.mem_append, List.mem_cons]
    exact hmem.imp_right Or.inr

/-! ## Calls on other ports -/

/-- The port that a call is about. -/
def Call.port : Call → Option ℤ
  | .add data => some data.port
  | .update data => some data.port
  | .remove port => some port
  | .fetch port => some port
  | .print => none

/-- A call on another port neither moves nor changes the entries of a port,
nor does it add one. -/
theorem holds_call_iff (h2 : 2 ≤ N) (hN : N ≤ 32767) (hl : WellFormed l)
    {c : Call} {reply : Reply} (hcall : l.call c = some (reply, l'))
    (hport : c.port ≠ some r.port) : Holds l' i r ↔ Holds l i r := by
  rcases c with d | d | port | port | _
  · obtain ⟨⟨rc, l₁⟩, hadd, hrest⟩ := Option.bind_eq_some_iff.mp hcall
    obtain ⟨-, rfl⟩ := Prod.mk.inj (Option.some.inj hrest)
    have hne : r.port ≠ d.port := fun h => hport (congrArg some h.symm)
    exact ⟨Holds.of_addElement hl hN hne hadd,
      fun h => h.addElement hl hN hadd⟩
  · obtain ⟨⟨rc, l₁⟩, hupdate, hrest⟩ := Option.bind_eq_some_iff.mp hcall
    obtain ⟨-, rfl⟩ := Prod.mk.inj (Option.some.inj hrest)
    have hne : r.port ≠ d.port := fun h => hport (congrArg some h.symm)
    exact ⟨Holds.of_updateElement hl hne hupdate,
      fun h => h.updateElement hl hne hupdate⟩
  · obtain ⟨⟨rc, l₁⟩, hremove, hrest⟩ := Option.bind_eq_some_iff.mp hcall
    obtain ⟨-, rfl⟩ := Prod.mk.inj (Option.some.inj hrest)
    have hne : r.port ≠ port := fun h => hport (congrArg some h.symm)
    exact ⟨Holds.of_removeElement hl h2 hN hremove,
      fun h => h.removeElement hl h2 hN hne hremove⟩
  · obtain ⟨found, -, hrest⟩ := Option.bind_eq_some_iff.mp hcall
    obtain ⟨-, rfl⟩ := Prod.mk.inj (Option.some.inj hrest)
    rfl
  · obtain ⟨text, -, hrest⟩ := Option.bind_eq_some_iff.mp hcall
    obtain ⟨-, rfl⟩ := Prod.mk.inj (Option.some.inj hrest)
    rfl

theorem WellFormed.exists_call (h2 : 2 ≤ N) (hN : N ≤ 32767)
    (hl : WellFormed l) (c : Call) :
    ∃ reply l', l.call c = some (reply, l') ∧ WellFormed l' := by
  obtain ⟨l', hcall, hl', -⟩ := call_implements h2 hN l
    ⟨l.records, hl.length_records_le⟩ c ⟨hl, rfl⟩
  exact ⟨_, l', hcall, hl'⟩

theorem holds_calls_iff (h2 : 2 ≤ N) (hN : N ≤ 32767) (hl : WellFormed l)
    (port : ℤ) (cs : List Call) (hcs : ∀ c ∈ cs, c.port ≠ some port) :
    ∃ replies l', l.calls cs = some (replies, l') ∧ WellFormed l' ∧
      ∀ i r, r.port = port → (Holds l' i r ↔ Holds l i r) := by
  induction cs generalizing l with
  | nil => exact ⟨[], l, rfl, hl, fun _ _ _ => Iff.rfl⟩
  | cons c cs ih =>
      obtain ⟨reply, l₁, hcall, hl₁⟩ := hl.exists_call h2 hN c
      obtain ⟨replies, l', hcalls, hl', hsame⟩ :=
        ih hl₁ fun c' hc' => hcs c' (List.mem_cons_of_mem _ hc')
      refine ⟨reply :: replies, l', ?_, hl', fun i r hr => ?_⟩
      · simp only [SharedLst.calls] at hcalls
        simp [SharedLst.calls, runCalls, hcall, hcalls]
      · have hport : c.port ≠ some r.port := by
          rw [hr]
          exact hcs c List.mem_cons_self
        exact (hsame i r hr).trans (holds_call_iff h2 hN hl hcall hport)

/-! ## Pointers to an entry -/

/-- The port occurs in exactly one entry, which is stored in slot `j`. -/
def StoredOnce (l : SharedLst N) (port : ℤ) (j : Fin N) : Prop :=
  j ∈ l.usedSlots ∧ ∀ i ∈ l.usedSlots, (l.data i).port = port ↔ i = j

instance (l : SharedLst N) (port : ℤ) (j : Fin N) :
    Decidable (StoredOnce l port j) :=
  inferInstanceAs (Decidable (_ ∧ _))

theorem StoredOnce.holds_iff {port : ℤ} (h : StoredOnce l port j)
    (hr : r.port = port) : Holds l i r ↔ i = j ∧ l.data j = r := by
  constructor
  · rintro ⟨hmem, rfl⟩
    obtain rfl := (h.2 i hmem).mp hr
    exact ⟨rfl, rfl⟩
  · rintro ⟨rfl, hdata⟩
    exact ⟨h.1, hdata⟩

theorem WellFormed.fetchElement_of_holds (hl : WellFormed l) {port : ℤ}
    (hr : r.port = port)
    (honly : ∀ i s, s.port = port → (Holds l i s ↔ i = j ∧ r = s)) :
    l.fetchElement port = some (some j) := by
  obtain ⟨found, hfetch, hfound⟩ := hl.fetchElement_spec port
  have hj : Holds l j r := (honly j r hr).mpr ⟨rfl, rfl⟩
  rcases found with _ | i
  · exact absurd hr (findKey_eq_none_iff.mp hfound.symm r hj.mem_records)
  · obtain ⟨hi, hport⟩ := hl.holds_of_fetch hfetch
    obtain ⟨rfl, -⟩ := (honly i _ hport).mp hi
    exact hfetch

/-- After every history of calls, an entry that is the only one of its port is
found in its slot, with its record, also after further calls on other ports:
the pointer that `fetch_element` returned remains good. -/
theorem entry_stays (h2 : 2 ≤ N) (hN : N ≤ 32767) (mem : SharedLst N)
    (history cs : List Call) {replies : List Reply}
    (hreached : mem.initializeList.calls history = some (replies, l))
    {port : ℤ} (hstored : StoredOnce l port j)
    (hcs : ∀ c ∈ cs, c.port ≠ some port) :
    l.fetchElement port = some (some j) ∧
      ∃ replies' l', l.calls cs = some (replies', l') ∧
        l'.fetchElement port = some (some j) ∧ l'.data j = l.data j := by
  obtain ⟨l₀, hcalls, hl, -⟩ := calls_represents h2 hN mem history
  rw [hreached] at hcalls
  obtain ⟨-, rfl⟩ := Prod.mk.inj (Option.some.inj hcalls)
  have hport : (l.data j).port = port := (hstored.2 j hstored.1).mpr rfl
  obtain ⟨replies', l', hcalls', hl', hsame⟩ :=
    holds_calls_iff h2 hN hl port cs hcs
  have honly : ∀ i s, s.port = port →
      (Holds l' i s ↔ i = j ∧ l.data j = s) := fun i s hs =>
    (hsame i s hs).trans (hstored.holds_iff hs)
  refine ⟨hl.fetchElement_of_holds hport fun i s hs => hstored.holds_iff hs,
    replies', l', hcalls', hl'.fetchElement_of_holds hport honly, ?_⟩
  exact ((honly j _ hport).mpr ⟨rfl, rfl⟩).2

/-- The registry after two records were added to an empty one of three
places. -/
def twoOfThree : Option (List Reply × SharedLst 3) :=
  (zeroSegment 3).initializeList.calls
    [.add (serverRecord 10 1), .add (serverRecord 20 2)]

/-- The second of two records stays in its slot while the first one is removed
and the slots around it are filled. -/
theorem entry_stays_three :
    ∃ replies l replies' l', twoOfThree = some (replies, l) ∧
      l.calls [.remove 10, .add (serverRecord 30 3),
        .add (serverRecord 40 4), .update (serverRecord 30 5)] =
        some (replies', l') ∧
      l'.fetchElement 20 = some (some 1) ∧ l'.data 1 = l.data 1 := by
  obtain ⟨⟨replies, l⟩, hreached, hstored⟩ :
      ∃ r, twoOfThree = some r ∧ StoredOnce r.2 20 1 :=
    ⟨_, rfl, by decide⟩
  obtain ⟨-, replies', l', hcalls, hfetch, hdata⟩ :=
    entry_stays (by decide) (by decide) (zeroSegment 3) _
      [.remove 10, .add (serverRecord 30 3), .add (serverRecord 40 4),
        .update (serverRecord 30 5)] hreached hstored (by decide)
  exact ⟨replies, l, replies', l', hreached, hcalls, hfetch, hdata⟩

/-- An update of the port itself changes the record behind the pointer and
leaves the pointer good. -/
theorem StoredOnce.updateElement (hl : WellFormed l) {port : ℤ}
    (h : StoredOnce l port j) (hd : d.port = port) :
    ∃ l', l.updateElement d = some (.success, l') ∧ StoredOnce l' port j ∧
      l'.data j = d := by
  have hport : (l.data j).port = port := (h.2 j h.1).mpr rfl
  have hfetch := hl.fetchElement_of_holds hport fun i s hs => h.holds_iff hs
  have hself : (l.setData j d).data j = d := by
    rw [setData_data, Function.update_self]
  obtain ⟨used, free, hlayout⟩ := hl
  have hslots : (l.setData j d).usedSlots = l.usedSlots := by
    rw [(hlayout.setData j d).usedSlots_eq, hlayout.usedSlots_eq]
  refine ⟨l.setData j d, by simp [SharedLst.updateElement, hd, hfetch], ⟨?_, ?_⟩,
    hself⟩
  · rw [hslots]
    exact h.1
  · intro i hi
    rw [hslots] at hi
    by_cases hij : i = j
    · subst hij
      simp [hself, hd]
    · rw [setData_data, Function.update_of_ne hij]
      exact h.2 i hi

end SippScen.SharedList
