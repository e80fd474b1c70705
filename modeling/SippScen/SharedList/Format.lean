import SippScen.SharedList.Refinement
import SippScen.Support.Printer

/-!
# The listing of the registry

`print_elmnt` prints the fields of a record into a buffer of 200 characters.
The values of the C types with an address that ends in its array always fit, so
that nothing is cut off; and although the decimals may be longer than their
columns and an address may hold any characters, the listing of a registry shows
all of its entries, but for blanks at the ends of their addresses.
-/

namespace SippScen.SharedList

open SippScen.Support

variable {N : ℕ} {data data' : Data}

/-- The fields are values of their C types, and the address ends in its
array. -/
structure Typed (data : Data) : Prop where
  port : IsInt32 data.port
  destPort : IsInt32 data.destPort
  terminated : nul ∈ data.destAddress.toList
  duration : IsInt32 data.duration
  pid : IsInt32 data.pid
  client : data.client < 2 ^ 16

/-- The line of the listing shows the same for both records. -/
structure SameShown (data data' : Data) : Prop where
  port : data.port = data'.port
  destPort : data.destPort = data'.destPort
  destAddress : (ofArray data.destAddress).rdropWhile (· = ' ') =
    (ofArray data'.destAddress).rdropWhile (· = ' ')
  duration : data.duration = data'.duration
  pid : data.pid = data'.pid
  client : data.client = data'.client

/-! ## Nothing is cut off -/

/-- What is printed for a record, before the buffer ends. -/
def fullElmnt (data : Data) : CString :=
  "source port: ".toList ++ padDecimal 8 data.port ++
    " dest port: ".toList ++ padDecimal 8 data.destPort ++
    " dest addr: ".toList ++ padRight 16 (ofArray data.destAddress) ++
    " duration: ".toList ++ padDecimal 8 data.duration ++
    " pid: ".toList ++ padDecimal 8 data.pid ++
    " client: ".toList ++ padDecimal 8 data.client

theorem length_padRight (width : ℕ) (s : CString) :
    (padRight width s).length = max s.length width := by
  rw [padRight, List.length_append, List.length_replicate]
  omega

theorem length_padDecimal_le {z : ℤ} (h : IsInt32 z) :
    (padDecimal 8 z).length ≤ 11 := by
  have hdigits : (Nat.toDigits 10 z.natAbs).length ≤ 10 := by
    rw [Nat.length_toDigits_le_iff (by decide) (by decide)]
    obtain ⟨hlo, hhi⟩ := h
    omega
  have hdecimal : (toDecimal z).length ≤ 11 := by
    rw [toDecimal]
    split
    · rw [List.length_cons]
      omega
    · omega
  rw [padDecimal, length_padRight]
  omega

theorem length_ofArray_le (data : Data) :
    (ofArray data.destAddress).length ≤ 16 := by
  have hle := (List.takeWhile_sublist (fun c => decide (c ≠ nul))
    (l := data.destAddress.toList)).length_le
  rwa [Vector.length_toList] at hle

theorem addressText_eq (h : nul ∈ data.destAddress.toList) :
    addressText data = ofArray data.destAddress :=
  cstr_append_of_mem h _

theorem isInt32_client (h : Typed data) : IsInt32 (data.client : ℤ) := by
  have hclient := h.client
  constructor
  · omega
  · omega

theorem printElmnt_eq (h : Typed data) : printElmnt data = fullElmnt data := by
  rw [printElmnt, addressText_eq h.terminated]
  refine List.take_of_length_le ?_
  have hport := length_padDecimal_le h.port
  have hdestPort := length_padDecimal_le h.destPort
  have hduration := length_padDecimal_le h.duration
  have hpid := length_padDecimal_le h.pid
  have hclient := length_padDecimal_le (isInt32_client h)
  have haddress := length_ofArray_le data
  have hlabels : "source port: ".toList.length = 13 ∧
      " dest port: ".toList.length = 12 ∧ " dest addr: ".toList.length = 12 ∧
      " duration: ".toList.length = 11 ∧ " pid: ".toList.length = 6 ∧
      " client: ".toList.length = 9 := by
    decide
  simp only [List.length_append, length_padRight 16]
  omega

/-! ## What a line shows -/

/-- The characters that end a decimal. -/
def endsDecimal (c : Char) : Bool := c = ' ' || c = '\n'

theorem endsDecimal_of_mem_toDecimal {z : ℤ} {c : Char}
    (h : c ∈ toDecimal z) : endsDecimal c = false := by
  have hdigit : ∀ c ∈ Nat.toDigits 10 z.natAbs, endsDecimal c = false := by
    intro c hc
    have hc := Nat.isDigit_of_mem_toDigits (by decide) (by decide) hc
    rw [endsDecimal, Bool.or_eq_false_iff]
    constructor
    · refine decide_eq_false ?_
      rintro rfl
      exact absurd hc (by decide)
    · refine decide_eq_false ?_
      rintro rfl
      exact absurd hc (by decide)
  rw [toDecimal] at h
  split at h
  · rcases List.mem_cons.mp h with rfl | h
    · rfl
    · exact hdigit c h
  · exact hdigit c h

theorem toDecimal_inj {z z' : ℤ} : toDecimal z = toDecimal z' ↔ z = z' := by
  constructor
  · intro h
    have hscan := congrArg scanLong h
    rw [scanLong_toDecimal, scanLong_toDecimal] at hscan
    exact Option.some.inj hscan
  · rintro rfl
    rfl

theorem separates_padDecimal (field : Data → ℤ) {text : CString}
    (htext : ∃ c cs, text = c :: cs ∧ endsDecimal c = true) :
    Separates (fun data => padDecimal 8 (field data) ++ text)
      fun data data' => field data = field data' := by
  have hrest : ∀ w : List Char, ∃ c cs,
      List.replicate (8 - w.length) ' ' ++ text = c :: cs ∧
        endsDecimal c = true := by
    intro w
    cases 8 - w.length with
    | zero => exact htext
    | succ n => exact ⟨' ', List.replicate n ' ' ++ text, rfl, rfl⟩
  have hword := separates_word endsDecimal (fun data => toDecimal (field data))
    (fun w => List.replicate (8 - w.length) ' ' ++ text)
    (fun data c hc => endsDecimal_of_mem_toDecimal hc) hrest
  have hprint : (fun data => padDecimal 8 (field data) ++ text) = fun data =>
      toDecimal (field data) ++
        (List.replicate (8 - (toDecimal (field data)).length) ' ' ++ text) :=
    funext fun data => List.append_assoc _ _ _
  rw [hprint]
  exact hword.congr fun _ _ => toDecimal_inj

theorem separates_address :
    Separates (fun data : Data => padRight 16 (ofArray data.destAddress))
      fun data data' =>
        (ofArray data.destAddress).rdropWhile (· = ' ') =
          (ofArray data'.destAddress).rdropWhile (· = ' ') := by
  have hlength : ∀ data : Data,
      (padRight 16 (ofArray data.destAddress)).length = 16 := by
    intro data
    have hle := length_ofArray_le data
    rw [length_padRight]
    omega
  refine (separates_of_length fun data data' => ?_).congr fun data data' => ?_
  · rw [hlength, hlength]
  · exact padded_eq_iff (length_ofArray_le data) (length_ofArray_le data')

/-- The line that is printed for a record. -/
def fullLine (data : Data) : CString := fullElmnt data ++ ['\n']

theorem separates_fullLine : Separates fullLine SameShown := by
  have hlabel : ∀ field : Data → ℤ, ∀ text : CString,
      text.head? = some ' ' ∨ text.head? = some '\n' →
      Separates (fun data => padDecimal 8 (field data) ++ text)
        fun data data' => field data = field data' := by
    intro field text htext
    rcases htext with htext | htext
    · obtain ⟨cs, rfl⟩ := List.head?_eq_some_iff.mp htext
      exact separates_padDecimal field ⟨' ', cs, rfl, rfl⟩
    · obtain ⟨cs, rfl⟩ := List.head?_eq_some_iff.mp htext
      exact separates_padDecimal field ⟨'\n', cs, rfl, rfl⟩
  have hparts := (separates_text "source port: ".toList).append
    ((hlabel Data.port " dest port: ".toList (Or.inl rfl)).append
    ((hlabel Data.destPort " dest addr: ".toList (Or.inl rfl)).append
    (separates_address.append ((separates_text " duration: ".toList).append
    ((hlabel Data.duration " pid: ".toList (Or.inl rfl)).append
    ((hlabel Data.pid " client: ".toList (Or.inl rfl)).append
    (hlabel (fun data : Data => data.client) ['\n'] (Or.inr rfl))))))))
  intro data data' s t
  -- the same line, with every column next to what ends it
  have hassoc : ∀ t₁ d₁ t₂ d₂ t₃ d₃ t₄ d₄ t₅ d₅ t₆ d₆ t₇ : CString,
      t₁ ++ d₁ ++ t₂ ++ d₂ ++ t₃ ++ d₃ ++ t₄ ++ d₄ ++ t₅ ++ d₅ ++ t₆ ++ d₆ ++
        t₇ = t₁ ++ ((d₁ ++ t₂) ++ ((d₂ ++ t₃) ++ (d₃ ++ (t₄ ++ ((d₄ ++ t₅) ++
          ((d₅ ++ t₆) ++ (d₆ ++ t₇))))))) := by
    intros
    simp only [List.append_assoc]
  have hline : ∀ data, fullLine data =
      "source port: ".toList ++
        ((padDecimal 8 data.port ++ " dest port: ".toList) ++
        ((padDecimal 8 data.destPort ++ " dest addr: ".toList) ++
        (padRight 16 (ofArray data.destAddress) ++ (" duration: ".toList ++
        ((padDecimal 8 data.duration ++ " pid: ".toList) ++
        ((padDecimal 8 data.pid ++ " client: ".toList) ++
        (padDecimal 8 data.client ++ ['\n']))))))) :=
    fun data => hassoc _ _ _ _ _ _ _ _ _ _ _ _ _
  rw [hline, hline]
  refine (hparts data data' s t).trans (and_congr_left' ?_)
  constructor
  · rintro ⟨-, hport, hdestPort, haddress, -, hduration, hpid, hclient⟩
    exact ⟨hport, hdestPort, haddress, hduration, hpid,
      Int.ofNat_inj.mp hclient⟩
  · rintro ⟨hport, hdestPort, haddress, hduration, hpid, hclient⟩
    exact ⟨trivial, hport, hdestPort, haddress, trivial, hduration, hpid,
      congrArg Nat.cast hclient⟩

theorem flatMap_printLine_eq_iff {ds ds' : List Data}
    (h : ∀ data ∈ ds, Typed data) (h' : ∀ data ∈ ds', Typed data) :
    ds.flatMap printLine = ds'.flatMap printLine ↔
      List.Forall₂ SameShown ds ds' := by
  have hfull : ∀ {ds : List Data}, (∀ data ∈ ds, Typed data) →
      ds.flatMap printLine = ds.flatMap fullLine := by
    intro ds h
    refine List.flatMap_congr fun data hdata => ?_
    rw [printLine, fullLine, printElmnt_eq (h data hdata)]
  rw [hfull h, hfull h']
  exact separates_fullLine.flatMap_eq_iff fun data => by simp [fullLine]

/-! ## The listing of a registry -/

/-- The records of the calls are values of their C type. -/
def TypedCalls (cs : List Call) : Prop :=
  ∀ data, .add data ∈ cs ∨ .update data ∈ cs → Typed data

/-- A registry after a history of calls. -/
def Reached (l : SharedLst N) : Prop :=
  ∃ (mem : SharedLst N) (cs : List Call) (replies : List Reply),
    TypedCalls cs ∧ mem.initializeList.calls cs = some (replies, l)

theorem mem_items_of_call {s : Registry N} {c : Call}
    (h : data ∈ (s.call c).2.items) :
    data ∈ s.items ∨ c = .add data ∨ c = .update data := by
  cases c with
  | add d =>
      rw [Registry.call, BoundedSeq.append] at h
      split at h
      · rcases List.mem_append.mp h with h | h
        · exact Or.inl h
        · exact Or.inr (Or.inl (List.mem_singleton.mp h ▸ rfl))
      · exact Or.inl h
  | update d =>
      rw [Registry.call, BoundedSeq.replace] at h
      split at h
      · rcases mem_of_mem_replaceKey h with rfl | h
        · exact Or.inr (Or.inr rfl)
        · exact Or.inl h
      · exact Or.inl h
  | remove port =>
      rw [Registry.call, BoundedSeq.remove] at h
      split at h
      · exact Or.inl (removeKey_sublist.subset h)
      · exact Or.inl h
  | fetch port => exact Or.inl h
  | print => exact Or.inl h

theorem typed_specCalls {s : Registry N} {cs : List Call}
    (hs : ∀ data ∈ s.items, Typed data) (hcs : TypedCalls cs) :
    ∀ data ∈ (specCalls Registry.call s cs).2.items, Typed data := by
  induction cs generalizing s with
  | nil => exact hs
  | cons c cs ih =>
      refine ih (fun data hdata => ?_) fun data hdata => hcs data ?_
      · rcases mem_items_of_call hdata with hdata | rfl | rfl
        · exact hs data hdata
        · exact hcs data (Or.inl List.mem_cons_self)
        · exact hcs data (Or.inr List.mem_cons_self)
      · exact hdata.imp (List.mem_cons_of_mem c) (List.mem_cons_of_mem c)

theorem Reached.printList_spec (h2 : 2 ≤ N) (hN : N ≤ 32767)
    {l : SharedLst N} (h : Reached l) :
    l.printList = some (l.records.flatMap printLine) ∧
      ∀ data ∈ l.records, Typed data := by
  obtain ⟨mem, cs, replies, hcs, hcalls⟩ := h
  obtain ⟨l₁, hcalls₁, hl, hrecords⟩ := calls_represents h2 hN mem cs
  obtain ⟨-, rfl⟩ := Prod.mk.inj (Option.some.inj (hcalls.symm.trans hcalls₁))
  refine ⟨hl.printList_spec, ?_⟩
  rw [hrecords]
  exact typed_specCalls (fun data hdata => absurd hdata List.not_mem_nil) hcs

/-- The listings of two registries are the same exactly when their entries are,
one by one, but for blanks at the ends of the addresses. -/
theorem listing_shows_entries (h2 : 2 ≤ N) (hN : N ≤ 32767)
    {l l' : SharedLst N} (h : Reached l) (h' : Reached l') :
    ∃ text text', l.printList = some text ∧ l'.printList = some text' ∧
      (text = text' ↔ List.Forall₂ SameShown l.records l'.records) := by
  obtain ⟨hprint, htyped⟩ := h.printList_spec h2 hN
  obtain ⟨hprint', htyped'⟩ := h'.printList_spec h2 hN
  exact ⟨_, _, hprint, hprint', flatMap_printLine_eq_iff htyped htyped'⟩

/-- A record of a client whose address is given. -/
def clientRecord (address : CString) : Data :=
  ⟨20000, 5000, strncpy addrSz address, 10000, 7, 1⟩

theorem reached_client (address : CString)
    (h : nul ∈ (clientRecord address).destAddress.toList) :
    ∃ l : SharedLst 2, Reached l ∧ l.records = [clientRecord address] := by
  obtain ⟨l, hcalls, -, hrecords⟩ := calls_represents (by decide) (by decide)
    (zeroSegment 2) [.add (clientRecord address)]
  refine ⟨l, ⟨_, _, _, fun data hdata => ?_, hcalls⟩, hrecords⟩
  obtain rfl : data = clientRecord address := by simpa using hdata
  have hport : IsInt32 20000 := by decide
  have hdestPort : IsInt32 5000 := by decide
  have hduration : IsInt32 10000 := by decide
  have hpid : IsInt32 7 := by decide
  have hclient : 1 < 2 ^ 16 := by decide
  exact ⟨hport, hdestPort, h, hduration, hpid, hclient⟩

/-- A blank at the end of an address does not show in the listing. -/
theorem listing_shows_entries_blank :
    ∃ (l l' : SharedLst 2) (text : CString), l.printList = some text ∧
      l'.printList = some text ∧ l.records ≠ l'.records := by
  obtain ⟨l, hl, hrecords⟩ := reached_client "10.0.0.1".toList (by decide)
  obtain ⟨l', hl', hrecords'⟩ := reached_client "10.0.0.1 ".toList (by decide)
  obtain ⟨text, text', htext, htext', hiff⟩ :=
    listing_shows_entries (by decide) (by decide) hl hl'
  rw [hrecords, hrecords'] at hiff
  have hsame : SameShown (clientRecord "10.0.0.1".toList)
      (clientRecord "10.0.0.1 ".toList) :=
    ⟨rfl, rfl, by decide, rfl, rfl, rfl⟩
  have heq : text = text' := hiff.mpr (.cons hsame .nil)
  refine ⟨l, l', text, htext, heq ▸ htext', ?_⟩
  rw [hrecords, hrecords']
  decide

end SippScen.SharedList
