import Mathlib.Data.Fintype.Pi
import SippScen.Support.CLib
import SippScen.Support.Linked
import SippScen.Support.Object

/-!
# The registry in shared memory

`SharedList` keeps the active media endpoints in an array of nodes that the
media server and every endpoint process map.  All nodes form one chain through
`next`; the first `count` nodes of the chain are in use and the rest are free.
The operations below follow the statements of `shared_list.cpp`.  An access to
`list->nodes` outside of the array makes an operation return `none`.

The mutex of the same structure is not part of this module: every operation
here runs inside of one critical section.
-/

namespace SippScen.SharedList

open SippScen.Support

/-- `ADDR_SZ`. -/
abbrev addrSz : ℕ := 16

/-- The record of one media endpoint. -/
structure Data where
  port : ℤ
  destPort : ℤ
  destAddress : Vector Char addrSz
  duration : ℤ
  pid : ℤ
  client : ℕ
deriving DecidableEq, Repr

/-- One array slot: a record and the index of the next slot. -/
structure ListNode where
  data : Data
  next : ℤ
deriving DecidableEq, Repr

/-- The shared segment for `MAX_NODES = N`, without its mutex. -/
structure SharedLst (N : ℕ) where
  nodes : Fin N → ListNode
  head : ℤ
  count : ℤ
deriving DecidableEq

/-- The return codes `ERROR` and `SUCCESS`. -/
inductive Rc
  | error
  | success
deriving DecidableEq, Repr

/-! ## Printing -/

/-- The conversion `%-<width>s`. -/
def padRight (width : ℕ) (s : CString) : CString :=
  s ++ List.replicate (width - s.length) ' '

/-- The conversion `%-<width>d`. -/
def padDecimal (width : ℕ) (z : ℤ) : CString := padRight width (toDecimal z)

/-- The string that `%s` reads at `dest_address`: without a NUL in the array it
goes on into the fields that follow in memory.  The flag `client` is 0 or 1, so
that its high byte ends it at the latest. -/
def addressText (data : Data) : CString :=
  cstr (data.destAddress.toList ++ (littleEndian 4 data.duration ++
    (littleEndian 4 data.pid ++ littleEndian 2 data.client)))

/-- `print_elmnt`, whose buffer holds 199 characters and the NUL. -/
def printElmnt (data : Data) : CString :=
  ("source port: ".toList ++ padDecimal 8 data.port ++
    " dest port: ".toList ++ padDecimal 8 data.destPort ++
    " dest addr: ".toList ++ padRight 16 (addressText data) ++
    " duration: ".toList ++ padDecimal 8 data.duration ++
    " pid: ".toList ++ padDecimal 8 data.pid ++
    " client: ".toList ++ padDecimal 8 data.client).take 199

/-- One line of the listing. -/
def printLine (data : Data) : CString := printElmnt data ++ ['\n']

/-! ## Memory accesses -/

/-- The slot that `list->nodes + h` points to; `none` when the pointer leaves
the array. -/
def deref (N : ℕ) (h : ℤ) : Option (Fin N) :=
  if hmem : 0 ≤ h ∧ h < N then some ⟨h.toNat, by omega⟩ else none

namespace SharedLst

variable {N : ℕ}

/-- The `next` fields. -/
def next (l : SharedLst N) (i : Fin N) : ℤ := (l.nodes i).next

/-- The record stored in a slot. -/
def data (l : SharedLst N) (i : Fin N) : Data := (l.nodes i).data

/-- `memcpy(&node->data, data, sizeof(Data))`. -/
def setData (l : SharedLst N) (i : Fin N) (data : Data) : SharedLst N :=
  { l with nodes :=
      Function.update l.nodes i { l.nodes i with data := data } }

/-- `node->next = h`, stored in a `short`. -/
def setNext (l : SharedLst N) (i : Fin N) (h : ℤ) : SharedLst N :=
  { l with nodes :=
      Function.update l.nodes i { l.nodes i with next := toInt16 h } }

/-- An assignment to `list->count`, a `short`. -/
def setCount (l : SharedLst N) (count : ℤ) : SharedLst N :=
  { l with count := toInt16 count }

/-- The slots in use, in chain order. -/
def usedSlots (l : SharedLst N) : List (Fin N) :=
  visit (deref N) l.next l.count.toNat l.head

/-- The records of the registry, in chain order. -/
def records (l : SharedLst N) : List Data := l.usedSlots.map l.data

/-- Every slot that following `next` from `head` visits, used or free. -/
def chain (l : SharedLst N) : List (Fin N) :=
  visit (deref N) l.next N l.head

/-! ## The operations -/

/-- `SharedList::initialize` on a segment with arbitrary contents: the loop
links all nodes but the last to their right neighbour and marks their port. -/
def initializeList (l : SharedLst N) : SharedLst N where
  nodes i :=
    if (i : ℕ) + 1 < N then
      { data := { l.data i with port := -1 }, next := toInt16 (i + 1) }
    else { data := l.data i, next := -1 }
  head := 0
  count := 0

/-- The loop `for (i = 0; i < n; i++) temp = list->nodes + temp->next`,
started at the index `h`. -/
def advance (l : SharedLst N) (n : ℕ) (h : ℤ) : Option ℤ :=
  follow (deref N) l.next n h

/-- The loop of `print_list`. -/
def printLoop (l : SharedLst N) : ℕ → ℤ → Option CString
  | 0, _ => some []
  | n + 1, h => do
      let node ← deref N h
      if l.next node = -1 then some (printLine (l.data node))
      else
        let rest ← printLoop l n (l.next node)
        some (printLine (l.data node) ++ rest)

/-- `SharedList::print_list`. -/
def printList (l : SharedLst N) : Option CString :=
  printLoop l l.count.toNat l.head

/-- The loop of `fetch_element`. -/
def fetchLoop (l : SharedLst N) (port : ℤ) :
    ℕ → ℤ → Option (Option (Fin N))
  | 0, _ => some none
  | n + 1, h => do
      let node ← deref N h
      if (l.data node).port = port then some (some node)
      else fetchLoop l port n (l.next node)

/-- `SharedList::fetch_element`: the slot whose record the returned pointer
refers to, or `none` for `NULL`. -/
def fetchElement (l : SharedLst N) (port : ℤ) :
    Option (Option (Fin N)) :=
  fetchLoop l port l.count.toNat l.head

/-- `SharedList::update_element`. -/
def updateElement (l : SharedLst N) (data : Data) :
    Option (Rc × SharedLst N) := do
  match ← l.fetchElement data.port with
  | some node => some (.success, l.setData node data)
  | none => some (.error, l)

/-- `SharedList::add_element`. -/
def addElement (l : SharedLst N) (data : Data) :
    Option (Rc × SharedLst N) :=
  if l.count ≥ N then some (.error, l)
  else do
    let h ← l.advance l.count.toNat l.head
    let temp ← deref N h
    let l := l.setData temp data
    some (.success, l.setCount (l.count + 1))

/-- The search loop of `remove_element`: the index found, after the index of
the node that `previous` points to (`none` while it is uninitialised). -/
def searchLoop (l : SharedLst N) (port : ℤ) :
    ℕ → Option ℤ → ℤ → Option (Option (Option ℤ × ℤ))
  | 0, _, _ => some none
  | n + 1, previous, h => do
      let temp ← deref N h
      if (l.data temp).port = port then some (some (previous, h))
      else searchLoop l port n (some h) (l.next temp)

/-- The first half of `remove_element` after the search: the node `temp` at
index `h` is taken out of the chain. -/
def unlinkNode (l : SharedLst N) (previous : Option ℤ) (h : ℤ)
    (temp : Fin N) : Option (SharedLst N) :=
  if h = l.head then some { l with head := l.next temp }
  else do
    let pointer ← previous
    let previous ← deref N pointer
    some (l.setNext previous (l.next temp))

/-- The second half: the node is put back behind the last node in use. -/
def relinkNode (l : SharedLst N) (h : ℤ) (temp : Fin N) :
    Option (SharedLst N) := do
  let pointer ← l.advance (l.count - 1).toNat l.head
  let p ← deref N pointer
  let l := l.setNext temp (if l.next p ≥ 0 then l.next p else -1)
  some (l.setNext p h)

/-- `SharedList::remove_element`. -/
def removeElement (l : SharedLst N) (port : ℤ) :
    Option (Rc × SharedLst N) := do
  match ← l.searchLoop port l.count.toNat none l.head with
  | none => some (.error, l)
  | some (previous, h) =>
      let temp ← deref N h
      let l ← l.unlinkNode previous h temp
      let l := l.setCount (l.count - 1)
      let l ← l.relinkNode h temp
      some (.success, l)

/-! ## Sequences of calls -/

end SharedLst

/-- A call of one of the operations. -/
inductive Call
  | add (data : Data)
  | update (data : Data)
  | remove (port : ℤ)
  | fetch (port : ℤ)
  | print
deriving DecidableEq, Repr

/-- What a call returns.  For `fetch_element` it is the record behind the
returned pointer. -/
inductive Reply
  | code (rc : Rc)
  | record (found : Option Data)
  | listing (text : CString)
deriving DecidableEq, Repr

namespace SharedLst

variable {N : ℕ}

/-- One call on the segment. -/
def call (l : SharedLst N) : Call → Option (Reply × SharedLst N)
  | .add data => do
      let (rc, l') ← l.addElement data
      some (.code rc, l')
  | .update data => do
      let (rc, l') ← l.updateElement data
      some (.code rc, l')
  | .remove port => do
      let (rc, l') ← l.removeElement port
      some (.code rc, l')
  | .fetch port => do
      let found ← l.fetchElement port
      some (.record (found.map l.data), l)
  | .print => do
      let text ← l.printList
      some (.listing text, l)

/-- A sequence of calls, with the replies in order. -/
def calls (l : SharedLst N) (cs : List Call) :
    Option (List Reply × SharedLst N) :=
  runCalls call l cs

end SharedLst

end SippScen.SharedList
