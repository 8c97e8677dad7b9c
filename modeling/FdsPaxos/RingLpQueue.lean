import FdsPaxos.CircularDeque
import FdsPaxos.RingMcasterStorage

set_option autoImplicit false

/-!
The queue of `queue.c`: a circular array of elements that is used at both ends, and the
bounded deque that it stands for.
-/

namespace FdsPaxos.RingLpQueue
open TransitionRuns CircularWindow CircularDeque
open RingMcasterStorage (maxQueueSizeBytes)

/-- What the `data` pointer leads to, or the pointer itself; the default is `NULL`. -/
structure QueueElement (α : Type) where
  data : α
  size : UInt64
deriving DecidableEq

/-- `freed` is the history of what was given to `free`, in its order. -/
structure LpQueue (α : Type) where
  queueCount : UInt32
  maxCount : UInt32
  queueSize : UInt32
  readIndex : UInt32
  writeIndex : UInt32
  queue : ℕ → QueueElement α
  freed : List α

inductive QueueFault where
  | discardFailed
deriving DecidableEq

section Functions

variable {α : Type}

def queueInit [Inhabited α] (queueLength : UInt32) : Option (LpQueue α) :=
  if queueLength = 0 then none
  else some
    { queueCount := 0
      maxCount := queueLength
      queueSize := 0
      readIndex := 0
      writeIndex := 0
      queue := fun _ => ⟨default, 0⟩
      freed := [] }

def queueGetCurrentSize (q : LpQueue α) : UInt32 := q.queueCount

/-- The step to the next index at the end of `queue_pop` and `queue_append`. -/
def incrementIndex (q : LpQueue α) (index : UInt32) : UInt32 :=
  if index + 1 = q.maxCount then 0 else index + 1

/-- The step back of `queue_prepend` and `queue_discard_last`. -/
def decrementIndex (q : LpQueue α) (index : UInt32) : UInt32 :=
  if index = 0 then q.maxCount - 1 else index - 1

/-- The element is what is stored behind the two pointers; no element means
`VALUES_QUEUE_EMPTY`. -/
def queuePop (q : LpQueue α) : Option (QueueElement α) × LpQueue α :=
  if q.queueCount = 0 then (none, q)
  else
    let e := q.queue q.readIndex.toNat
    (some e,
      { q with
        queueCount := q.queueCount - 1
        queueSize := (q.queueSize.toUInt64 - e.size).toUInt32
        readIndex := incrementIndex q q.readIndex })

def queueDiscardLast [Inhabited α] (q : LpQueue α) : Bool × LpQueue α :=
  if q.queueCount = 0 then (false, q)
  else
    let writeIndex := decrementIndex q q.writeIndex
    let e := q.queue writeIndex.toNat
    (true,
      { q with
        writeIndex := writeIndex
        queueSize := (q.queueSize.toUInt64 - e.size).toUInt32
        queueCount := q.queueCount - 1
        queue := setSlot q.queue writeIndex.toNat ⟨default, 0⟩
        freed := q.freed ++ [e.data] })

variable (copyOf : α → UInt64 → α)

/-- The element for a value; `copyOf` is `malloc` with `memcpy`. -/
def elementFor (cmdValue : α) (cmdSize : UInt64) (makeCopy : Bool) : QueueElement α :=
  ⟨if makeCopy then copyOf cmdValue cmdSize else cmdValue, cmdSize⟩

/-- `queue_prepend` first drops the last element of a full queue. -/
def makeRoom [Inhabited α] (q : LpQueue α) : Outcome QueueFault (LpQueue α) :=
  if q.queueCount = q.maxCount then
    let discarded := queueDiscardLast q
    .check (discarded.1 = true) .discardFailed discarded.2 (.running discarded.2)
  else .running q

/-- `queue_prepend`, which returns `true`. -/
def queuePrepend [Inhabited α] (q : LpQueue α) (cmdValue : α) (cmdSize : UInt64)
    (makeCopy : Bool) : Outcome QueueFault (LpQueue α) :=
  (makeRoom q).bind fun q =>
    let readIndex := decrementIndex q q.readIndex
    .running
      { q with
        readIndex := readIndex
        queueSize := (q.queueSize.toUInt64 + cmdSize).toUInt32
        queueCount := q.queueCount + 1
        queue := setSlot q.queue readIndex.toNat (elementFor copyOf cmdValue cmdSize makeCopy) }

/-- The size of the queue is compared as a `size_t`. -/
def queueAppend (q : LpQueue α) (cmdValue : α) (cmdSize : UInt64) (makeCopy : Bool) :
    Bool × LpQueue α :=
  if q.queueCount = q.maxCount then (false, q)
  else if UInt64.ofNat maxQueueSizeBytes < q.queueSize.toUInt64 + cmdSize then (false, q)
  else
    (true,
      { q with
        queue := setSlot q.queue q.writeIndex.toNat (elementFor copyOf cmdValue cmdSize makeCopy)
        queueCount := q.queueCount + 1
        queueSize := (q.queueSize.toUInt64 + cmdSize).toUInt32
        writeIndex := incrementIndex q q.writeIndex })

end Functions

section Deque

variable {α : Type}

def totalSize (elements : List (QueueElement α)) : ℕ := (elements.map fun e => e.size.toNat).sum

@[simp] theorem totalSize_nil : totalSize ([] : List (QueueElement α)) = 0 := rfl

@[simp] theorem totalSize_cons (e : QueueElement α) (l : List (QueueElement α)) :
    totalSize (e :: l) = e.size.toNat + totalSize l := rfl

@[simp] theorem totalSize_append (l l' : List (QueueElement α)) :
    totalSize (l ++ l') = totalSize l + totalSize l' := by
  simp [totalSize]

/-- A list of at most `capacity` elements, with the data of those that were dropped. -/
structure Deque (α : Type) where
  capacity : ℕ
  contents : List (QueueElement α)
  dropped : List α

namespace Deque

def pop (d : Deque α) : Option (QueueElement α) × Deque α :=
  (d.contents.head?, { d with contents := d.contents.tail })

def discardLast (d : Deque α) : Bool × Deque α :=
  (!d.contents.isEmpty,
    { d with
      contents := d.contents.dropLast
      dropped := d.dropped ++ (d.contents.getLast?.map QueueElement.data).toList })

def withRoom (d : Deque α) : Deque α :=
  if d.contents.length = d.capacity then d.discardLast.2 else d

def prepend (d : Deque α) (e : QueueElement α) : Deque α :=
  { d.withRoom with contents := e :: d.withRoom.contents }

def append (d : Deque α) (e : QueueElement α) : Bool × Deque α :=
  if d.contents.length < d.capacity ∧ totalSize d.contents + e.size.toNat ≤ maxQueueSizeBytes then
    (true, { d with contents := d.contents ++ [e] })
  else (false, d)

end Deque

def elements (q : LpQueue α) : List (QueueElement α) :=
  contents q.maxCount.toNat q.queue q.readIndex.toNat q.queueCount.toNat

structure Represents (q : LpQueue α) (d : Deque α) : Prop where
  capacity : q.maxCount.toNat = d.capacity
  positive : 0 < q.maxCount.toNat
  contents : elements q = d.contents
  bound : q.queueCount.toNat ≤ q.maxCount.toNat
  size : q.queueSize.toNat = totalSize d.contents
  read : q.readIndex.toNat < q.maxCount.toNat
  write : q.writeIndex.toNat = (q.readIndex.toNat + q.queueCount.toNat) % q.maxCount.toNat
  freed : q.freed = d.dropped

end Deque

section Representation

variable {α : Type} {q : LpQueue α} {d : Deque α}

theorem Represents.count (h : Represents q d) : d.contents.length = q.queueCount.toNat := by
  rw [← h.contents]
  exact length_contents

theorem Represents.empty (h : Represents q d) (none : q.queueCount = 0) : d.contents = [] := by
  apply List.eq_nil_of_length_eq_zero
  rw [h.count, none]
  rfl

theorem Represents.room_iff (h : Represents q d) :
    d.contents.length < d.capacity ↔ q.queueCount.toNat < q.maxCount.toNat := by
  rw [h.count, h.capacity]

theorem Represents.not_full_iff (h : Represents q d) :
    q.queueCount ≠ q.maxCount ↔ q.queueCount.toNat < q.maxCount.toNat := by
  constructor
  · exact fun other => lt_of_le_of_ne h.bound fun same => other (UInt32.toNat_inj.mp same)
  · intro room full
    rw [full] at room
    exact lt_irrefl _ room

theorem incrementIndex_toNat {index : UInt32} (lt : index.toNat < q.maxCount.toNat) :
    (incrementIndex q index).toNat = following q.maxCount.toNat index.toNat := by
  have := q.maxCount.toNat_lt
  have next : (index + 1).toNat = index.toNat + 1 := by
    simp
    omega
  unfold incrementIndex following
  rw [← next]
  split_ifs with last last' last'
  · rfl
  · exact absurd (congrArg UInt32.toNat last) last'
  · exact absurd (UInt32.toNat_inj.mp last') last
  · rfl

theorem decrementIndex_toNat {index : UInt32} (positive : 0 < q.maxCount.toNat) :
    (decrementIndex q index).toNat = preceding q.maxCount.toNat index.toNat := by
  have back {n : UInt32} (h : 0 < n.toNat) : (n - 1).toNat = n.toNat - 1 :=
    UInt32.toNat_sub_of_le n 1 (UInt32.le_iff_toNat_le.mpr h)
  unfold decrementIndex preceding
  split_ifs with zero zero' zero'
  · exact back positive
  · exact absurd (congrArg UInt32.toNat zero) zero'
  · exact absurd (UInt32.toNat_inj.mp zero') zero
  · exact back (Nat.pos_of_ne_zero zero')

theorem count_succ (room : q.queueCount.toNat < q.maxCount.toNat) :
    (q.queueCount + 1).toNat = q.queueCount.toNat + 1 := by
  have := q.maxCount.toNat_lt
  simp
  omega

theorem count_pred (some : q.queueCount ≠ 0) :
    q.queueCount.toNat = (q.queueCount - 1).toNat + 1 := by
  have positive : 0 < q.queueCount.toNat := Nat.pos_of_ne_zero fun h => some (UInt32.toNat_inj.mp h)
  rw [UInt32.toNat_sub_of_le _ 1 (UInt32.le_iff_toNat_le.mpr positive)]
  exact (Nat.sub_add_cancel positive).symm

theorem size_sub {size : UInt32} {s : UInt64} {rest : ℕ} (total : size.toNat = s.toNat + rest) :
    (size.toUInt64 - s).toUInt32.toNat = rest := by
  have := size.toNat_lt
  have le : s ≤ size.toUInt64 := by
    rw [UInt64.le_iff_toNat_le]
    simp
    omega
  rw [UInt64.toNat_toUInt32, UInt64.toNat_sub_of_le _ _ le, UInt32.toNat_toUInt64, total]
  omega

theorem size_add {size : UInt32} {s : UInt64} (small : size.toNat + s.toNat < 2 ^ 32) :
    (size.toUInt64 + s).toUInt32.toNat = size.toNat + s.toNat := by
  simp
  omega

theorem represents_init [Inhabited α] {queueLength : UInt32}
    (h : queueInit queueLength = some q) :
    Represents q { capacity := queueLength.toNat, contents := [], dropped := [] } := by
  unfold queueInit at h
  split_ifs at h with zero
  cases h
  have positive : 0 < queueLength.toNat :=
    Nat.pos_of_ne_zero fun none => zero (UInt32.toNat_inj.mp none)
  exact ⟨rfl, positive, rfl, Nat.zero_le _, rfl, positive, by simp, rfl⟩

theorem queuePop_represents (h : Represents q d) :
    (queuePop q).1 = d.pop.1 ∧ Represents (queuePop q).2 d.pop.2 := by
  by_cases empty : q.queueCount = 0
  · have none := h.empty empty
    simp only [queuePop, if_pos empty, Deque.pop, none]
    exact ⟨rfl, { h with
      contents := by rw [h.contents, none]; rfl
      size := by rw [h.size, none]; rfl }⟩
  · have count := count_pred empty
    have split : d.contents = q.queue q.readIndex.toNat ::
        contents q.maxCount.toNat q.queue (following q.maxCount.toNat q.readIndex.toNat)
          (q.queueCount - 1).toNat := by
      rw [← h.contents, elements, count, contents_cons h.read]
    have next := incrementIndex_toNat h.read
    simp only [queuePop, if_neg empty, Deque.pop, split]
    refine ⟨rfl, ?_⟩
    constructor
    · exact h.capacity
    · exact h.positive
    · simp only [elements, next, List.tail_cons]
    · have := h.bound
      simp only
      omega
    · exact size_sub (by rw [h.size, split]; rfl)
    · simp only [next]
      exact following_lt h.read
    · simp only [next]
      rw [h.write, count, following_add h.read]
    · exact h.freed

theorem queueDiscardLast_represents [Inhabited α] (h : Represents q d) :
    (queueDiscardLast q).1 = d.discardLast.1 ∧
      Represents (queueDiscardLast q).2 d.discardLast.2 := by
  by_cases empty : q.queueCount = 0
  · have none := h.empty empty
    simp only [queueDiscardLast, if_pos empty, Deque.discardLast, none]
    exact ⟨rfl, { h with
      contents := by rw [h.contents, none]; rfl
      size := by rw [h.size, none]; rfl
      freed := by rw [h.freed]; simp }⟩
  · have count := count_pred empty
    have back : (decrementIndex q q.writeIndex).toNat =
        (q.readIndex.toNat + (q.queueCount - 1).toNat) % q.maxCount.toNat := by
      rw [decrementIndex_toNat h.positive, h.write, count, preceding_end h.positive]
    have split : d.contents =
        contents q.maxCount.toNat q.queue q.readIndex.toNat (q.queueCount - 1).toNat ++
          [q.queue (decrementIndex q q.writeIndex).toNat] := by
      rw [← h.contents, elements, count, contents_snoc, back]
    have bound := h.bound
    simp only [queueDiscardLast, if_neg empty, Deque.discardLast, split]
    refine ⟨by simp, ?_⟩
    constructor
    · exact h.capacity
    · exact h.positive
    · simp only [elements, back, List.dropLast_concat]
      exact contents_setSlot (by omega) _
    · simp only
      omega
    · simp only [List.dropLast_concat]
      apply size_sub
      rw [h.size, split]
      simp [Nat.add_comm]
    · exact h.read
    · exact back
    · simp [h.freed]

theorem toNat_maxQueueSizeBytes :
    (UInt64.ofNat maxQueueSizeBytes).toNat = maxQueueSizeBytes := by decide

theorem toNat_add_le (size : UInt32) (n : UInt64) :
    (size.toUInt64 + n).toNat ≤ size.toNat + n.toNat := by
  simp
  omega

theorem elements_push_back (h : Represents q d) (room : q.queueCount.toNat < q.maxCount.toNat)
    (e : QueueElement α) {size writeIndex : UInt32} :
    elements
      { q with
        queue := setSlot q.queue q.writeIndex.toNat e
        queueCount := q.queueCount + 1
        queueSize := size
        writeIndex := writeIndex } = d.contents ++ [e] := by
  simp only [elements, count_succ room, h.write, contents_push_back room]
  rw [← h.contents, elements]

theorem push_back_represents (h : Represents q d) (room : q.queueCount.toNat < q.maxCount.toNat)
    (e : QueueElement α) (small : totalSize (d.contents ++ [e]) < 2 ^ 32) :
    Represents
      { q with
        queue := setSlot q.queue q.writeIndex.toNat e
        queueCount := q.queueCount + 1
        queueSize := (q.queueSize.toUInt64 + e.size).toUInt32
        writeIndex := incrementIndex q q.writeIndex }
      { d with contents := d.contents ++ [e] } := by
  have count := count_succ room
  have inside : q.writeIndex.toNat < q.maxCount.toNat := by
    rw [h.write]
    exact Nat.mod_lt _ h.positive
  simp only [totalSize_append, totalSize_cons, totalSize_nil, Nat.add_zero] at small
  constructor
  · exact h.capacity
  · exact h.positive
  · exact elements_push_back h room e
  · simp only [count]
    exact room
  · simp only [totalSize_append, totalSize_cons, totalSize_nil, Nat.add_zero]
    rw [size_add (by rw [h.size]; exact small), h.size]
  · exact h.read
  · simp only [count, incrementIndex_toNat inside]
    rw [following_eq_mod inside, h.write, Nat.mod_add_mod, Nat.add_assoc]
  · exact h.freed

theorem queueAppend_represents {copyOf : α → UInt64 → α} {v : α} {n : UInt64} {mc : Bool}
    (h : Represents q d) (small : totalSize (elements (queueAppend copyOf q v n mc).2) < 2 ^ 32) :
    (queueAppend copyOf q v n mc).1 = (d.append (elementFor copyOf v n mc)).1 ∧
      Represents (queueAppend copyOf q v n mc).2 (d.append (elementFor copyOf v n mc)).2 := by
  have length := h.count
  have capacity := h.capacity
  have size := h.size
  have same : (elementFor copyOf v n mc).size = n := rfl
  by_cases full : q.queueCount = q.maxCount
  · have refused : d.append (elementFor copyOf v n mc) = (false, d) := by
      apply if_neg
      rw [full] at length
      omega
    rw [queueAppend, if_pos full, refused]
    exact ⟨rfl, h⟩
  have room := h.not_full_iff.mp full
  have limit := toNat_maxQueueSizeBytes
  by_cases large : UInt64.ofNat maxQueueSizeBytes < q.queueSize.toUInt64 + n
  · have refused : d.append (elementFor copyOf v n mc) = (false, d) := by
      apply if_neg
      have above := UInt64.lt_iff_toNat_lt.mp large
      have := toNat_add_le q.queueSize n
      rw [same]
      omega
    rw [queueAppend, if_neg full, if_pos large, refused]
    exact ⟨rfl, h⟩
  · rw [queueAppend, if_neg full, if_neg large] at small ⊢
    have total := small
    simp only [elements_push_back h room] at total
    have stored : d.append (elementFor copyOf v n mc) =
        (true, { d with contents := d.contents ++ [elementFor copyOf v n mc] }) := by
      apply if_pos
      have below := UInt64.le_iff_toNat_le.mp (UInt64.not_lt.mp large)
      simp only [totalSize_append, totalSize_cons, totalSize_nil, same] at total
      rw [limit, UInt64.toNat_add, UInt32.toNat_toUInt64] at below
      rw [same]
      omega
    rw [stored]
    exact ⟨rfl, push_back_represents h room _ total⟩

theorem elements_push_front (h : Represents q d) (room : q.queueCount.toNat < q.maxCount.toNat)
    (e : QueueElement α) {size : UInt32} :
    elements
      { q with
        readIndex := decrementIndex q q.readIndex
        queueSize := size
        queueCount := q.queueCount + 1
        queue := setSlot q.queue (decrementIndex q q.readIndex).toNat e } = e :: d.contents := by
  simp only [elements, count_succ room, decrementIndex_toNat h.positive,
    contents_push_front h.read room]
  rw [← h.contents, elements]

theorem push_front_represents (h : Represents q d) (room : q.queueCount.toNat < q.maxCount.toNat)
    (e : QueueElement α) (small : totalSize (e :: d.contents) < 2 ^ 32) :
    Represents
      { q with
        readIndex := decrementIndex q q.readIndex
        queueSize := (q.queueSize.toUInt64 + e.size).toUInt32
        queueCount := q.queueCount + 1
        queue := setSlot q.queue (decrementIndex q q.readIndex).toNat e }
      { d with contents := e :: d.contents } := by
  have count := count_succ room
  have back : (decrementIndex q q.readIndex).toNat = preceding q.maxCount.toNat q.readIndex.toNat :=
    decrementIndex_toNat h.positive
  rw [totalSize_cons] at small
  constructor
  · exact h.capacity
  · exact h.positive
  · exact elements_push_front h room e
  · simp only [count]
    exact room
  · rw [totalSize_cons, ← h.size, size_add (by rw [h.size]; omega), Nat.add_comm]
  · simp only [back]
    exact preceding_lt h.read
  · simp only [back, count]
    rw [h.write, ← following_add (preceding_lt h.read), following_preceding h.read]
  · exact h.freed

theorem makeRoom_represents [Inhabited α] (h : Represents q d) :
    ∃ q', makeRoom q = .running q' ∧ Represents q' d.withRoom ∧
      q'.queueCount.toNat < q'.maxCount.toNat := by
  have length := h.count
  have capacity := h.capacity
  by_cases full : q.queueCount = q.maxCount
  · obtain ⟨discards, rest⟩ := queueDiscardLast_represents h
    have some : 0 < d.contents.length := by
      rw [length, full]
      exact h.positive
    have done : (queueDiscardLast q).1 = true := by
      rw [discards]
      simpa [Deque.discardLast, List.length_pos_iff] using some
    have dropped : d.withRoom = d.discardLast.2 := if_pos (by rw [length, full, capacity])
    refine ⟨(queueDiscardLast q).2, ?_, by rwa [dropped], ?_⟩
    · rw [makeRoom, if_pos full, Outcome.check, if_pos done]
    · rw [← rest.count, rest.capacity]
      simp only [Deque.discardLast, List.length_dropLast]
      rw [length, full, ← capacity]
      exact Nat.pred_lt h.positive.ne'
  · have same : d.withRoom = d := by
      apply if_neg
      rw [length, ← capacity]
      exact fun same => full (UInt32.toNat_inj.mp same)
    refine ⟨q, if_neg full, by rwa [same], ?_⟩
    exact h.not_full_iff.mp full

theorem queuePrepend_represents [Inhabited α] {copyOf : α → UInt64 → α} {v : α} {n : UInt64}
    {mc : Bool} (h : Represents q d)
    (small : ∀ q', queuePrepend copyOf q v n mc = .running q' → totalSize (elements q') < 2 ^ 32) :
    ∃ q', queuePrepend copyOf q v n mc = .running q' ∧
      Represents q' (d.prepend (elementFor copyOf v n mc)) := by
  obtain ⟨q', made, represents, room⟩ := makeRoom_represents h
  unfold queuePrepend at small ⊢
  rw [made] at small ⊢
  have total := small _ rfl
  simp only [elements_push_front represents room] at total
  exact ⟨_, rfl, push_front_represents represents room _ total⟩

theorem queueAppend_stores (copyOf : α → UInt64 → α) (v : α) (n : UInt64) (mc : Bool)
    (h : Represents q d) (room : d.contents.length < d.capacity)
    (fits : totalSize d.contents + n.toNat ≤ maxQueueSizeBytes) :
    ∃ q', queueAppend copyOf q v n mc = (true, q') ∧
      Represents q' { d with contents := d.contents ++ [elementFor copyOf v n mc] } := by
  have bounded : maxQueueSizeBytes < 2 ^ 32 := by decide
  have inside := h.room_iff.mp room
  have free := h.not_full_iff.mpr inside
  have small : ¬ UInt64.ofNat maxQueueSizeBytes < q.queueSize.toUInt64 + n := by
    have := toNat_add_le q.queueSize n
    rw [UInt64.lt_iff_toNat_lt, toNat_maxQueueSizeBytes]
    rw [← h.size] at fits
    omega
  refine ⟨_, by rw [queueAppend, if_neg free, if_neg small], ?_⟩
  apply push_back_represents h inside (elementFor copyOf v n mc)
  rw [totalSize_append, totalSize_cons, totalSize_nil]
  exact lt_of_le_of_lt fits bounded

theorem queuePrepend_stores [Inhabited α] (copyOf : α → UInt64 → α) (v : α) (n : UInt64)
    (mc : Bool) (h : Represents q d) (room : d.contents.length < d.capacity)
    (fits : n.toNat + totalSize d.contents < 2 ^ 32) :
    ∃ q', queuePrepend copyOf q v n mc = .running q' ∧
      Represents q' { d with contents := elementFor copyOf v n mc :: d.contents } := by
  have inside := h.room_iff.mp room
  have free := h.not_full_iff.mpr inside
  refine ⟨_, by rw [queuePrepend, makeRoom, if_neg free, Outcome.bind_running], ?_⟩
  exact push_front_represents h inside (elementFor copyOf v n mc) fits

end Representation

section Calls

variable {α : Type}

inductive QueueCall (α : Type) where
  | append (cmdValue : α) (cmdSize : UInt64) (makeCopy : Bool)
  | prepend (cmdValue : α) (cmdSize : UInt64) (makeCopy : Bool)
  | pop
  | discardLast
  | getCurrentSize

inductive QueueReply (α : Type) where
  | returned (result : Bool)
  | popped (e : Option (QueueElement α))
  | currentSize (n : ℕ)
deriving DecidableEq

/-- A state with the replies to all calls so far. -/
structure Replying (α σ : Type) where
  state : σ
  replies : List (QueueReply α)

def Replying.answer {σ : Type} (r : Replying α σ) (state : σ) (reply : QueueReply α) :
    Replying α σ :=
  ⟨state, r.replies ++ [reply]⟩

def queueStep [Inhabited α] (copyOf : α → UInt64 → α) (r : Replying α (LpQueue α)) :
    QueueCall α → Outcome QueueFault (Replying α (LpQueue α))
  | .append v n mc =>
    let appended := queueAppend copyOf r.state v n mc
    .running (r.answer appended.2 (.returned appended.1))
  | .prepend v n mc => (queuePrepend copyOf r.state v n mc).andThen (r.answer · (.returned false))
      fun q => .running (r.answer q (.returned true))
  | .pop =>
    let popped := queuePop r.state
    .running (r.answer popped.2 (.popped popped.1))
  | .discardLast =>
    let discarded := queueDiscardLast r.state
    .running (r.answer discarded.2 (.returned discarded.1))
  | .getCurrentSize =>
    .running (r.answer r.state (.currentSize (queueGetCurrentSize r.state).toNat))

def dequeStep (copyOf : α → UInt64 → α) (r : Replying α (Deque α)) :
    QueueCall α → Replying α (Deque α)
  | .append v n mc =>
    let appended := r.state.append (elementFor copyOf v n mc)
    r.answer appended.2 (.returned appended.1)
  | .prepend v n mc => r.answer (r.state.prepend (elementFor copyOf v n mc)) (.returned true)
  | .pop => r.answer r.state.pop.2 (.popped r.state.pop.1)
  | .discardLast => r.answer r.state.discardLast.2 (.returned r.state.discardLast.1)
  | .getCurrentSize => r.answer r.state (.currentSize r.state.contents.length)

def Small (r : Replying α (LpQueue α)) : Prop := totalSize (elements r.state) < 2 ^ 32

instance (r : Replying α (LpQueue α)) : Decidable (Small r) := inferInstanceAs (Decidable (_ < _))

/-- After every call that returns, the elements add up to less than 2^32 bytes. -/
def StaysSmall [Inhabited α] (copyOf : α → UInt64 → α) (r : Replying α (LpQueue α))
    (calls : List (QueueCall α)) : Prop :=
  Outcome.AlongFold (queueStep copyOf)
    (fun r call => (queueStep copyOf r call).Ensures Small fun _ => True) r calls

instance [Inhabited α] (copyOf : α → UInt64 → α) (r : Replying α (LpQueue α))
    (calls : List (QueueCall α)) : Decidable (StaysSmall copyOf r calls) :=
  Outcome.AlongFold.decidable _ _ _ _

structure Refines (r : Replying α (LpQueue α)) (d : Replying α (Deque α)) : Prop where
  represents : Represents r.state d.state
  count : r.state.queueCount.toNat = d.state.contents.length
  limit : d.state.contents.length ≤ d.state.capacity
  replies : r.replies = d.replies

theorem Represents.refines {r : Replying α (LpQueue α)} {d : Replying α (Deque α)}
    (h : Represents r.state d.state) (replies : r.replies = d.replies) : Refines r d := by
  have bound := h.bound
  refine ⟨h, h.count.symm, ?_, replies⟩
  rw [h.count, ← h.capacity]
  exact bound

theorem queueStep_refines [Inhabited α] {copyOf : α → UInt64 → α} {r : Replying α (LpQueue α)}
    {d : Replying α (Deque α)} (h : Refines r d) (call : QueueCall α)
    (small : (queueStep copyOf r call).Ensures Small fun _ => True) :
    ∃ r', queueStep copyOf r call = .running r' ∧ Refines r' (dequeStep copyOf d call) := by
  have represents := h.represents
  have replies := h.replies
  cases call with
  | append v n mc =>
    obtain ⟨result, next⟩ := queueAppend_represents represents small
    exact ⟨_, rfl, next.refines (by simp [Replying.answer, dequeStep, replies, result])⟩
  | prepend v n mc =>
    have total : ∀ q', queuePrepend copyOf r.state v n mc = .running q' →
        totalSize (elements q') < 2 ^ 32 := by
      intro q' done
      rw [queueStep, done] at small
      exact small
    obtain ⟨q', done, next⟩ := queuePrepend_represents represents total
    refine ⟨r.answer q' (.returned true), by rw [queueStep, done]; rfl, ?_⟩
    exact next.refines (by simp [Replying.answer, dequeStep, replies])
  | pop =>
    obtain ⟨result, next⟩ := queuePop_represents represents
    exact ⟨_, rfl, next.refines (by simp [Replying.answer, dequeStep, replies, result])⟩
  | discardLast =>
    obtain ⟨result, next⟩ := queueDiscardLast_represents represents
    exact ⟨_, rfl, next.refines (by simp [Replying.answer, dequeStep, replies, result])⟩
  | getCurrentSize =>
    refine ⟨_, rfl, ⟨represents, h.count, h.limit, ?_⟩⟩
    simp [Replying.answer, dequeStep, replies, queueGetCurrentSize, h.count]

theorem queue_run_refines [Inhabited α] {copyOf : α → UInt64 → α} (calls : List (QueueCall α))
    {r : Replying α (LpQueue α)} {d : Replying α (Deque α)} (h : Refines r d)
    (small : StaysSmall copyOf r calls) :
    ∃ r', Outcome.fold (queueStep copyOf) r calls = .running r' ∧
      Refines r' (run (dequeStep copyOf) d calls) := by
  induction calls generalizing r d with
  | nil => exact ⟨r, rfl, h⟩
  | cons call calls ih =>
    obtain ⟨first, rest⟩ := small
    obtain ⟨r', done, next⟩ := queueStep_refines h call first
    obtain ⟨r'', finished, last⟩ := ih next (rest.of_running done)
    refine ⟨r'', ?_, last⟩
    rw [Outcome.fold_cons, done]
    exact finished

theorem queue_refines_deque [Inhabited α] (copyOf : α → UInt64 → α) (queueLength : UInt32)
    (q : LpQueue α) (init : queueInit queueLength = some q) (calls : List (QueueCall α))
    (small : StaysSmall copyOf ⟨q, []⟩ calls) :
    ∃ r, Outcome.fold (queueStep copyOf) ⟨q, []⟩ calls = .running r ∧
      Refines r (run (dequeStep copyOf) ⟨⟨queueLength.toNat, [], []⟩, []⟩ calls) := by
  have start := represents_init init
  have first : Refines (⟨q, []⟩ : Replying α (LpQueue α)) ⟨⟨queueLength.toNat, [], []⟩, []⟩ :=
    start.refines rfl
  exact queue_run_refines calls first small

/-- A full queue of one element, used at both ends. -/
theorem queue_refines_deque_of_one : ∃ q, queueInit 1 = some q ∧
    ∃ r, Outcome.fold (queueStep fun v _ => v) ⟨q, []⟩
        [.append 7 3 true, .append 8 3 true, .prepend 9 4 false, .getCurrentSize, .pop, .pop] =
          .running r ∧
      Refines r (run (dequeStep fun v _ => v) ⟨⟨1, [], []⟩, []⟩
        [.append 7 3 true, .append 8 3 true, .prepend 9 4 false, .getCurrentSize, .pop, .pop]) :=
  ⟨_, rfl, queue_refines_deque (fun (v : ℕ) _ => v) 1 _ rfl _ (by decide +kernel)⟩

example : (run (dequeStep fun v _ => v) (⟨⟨1, [], []⟩, []⟩ : Replying ℕ (Deque ℕ))
    [.append 7 3 true, .append 8 3 true, .prepend 9 4 false, .getCurrentSize, .pop, .pop]).replies =
      [.returned true, .returned false, .returned true, .currentSize 1, .popped (some ⟨9, 4⟩),
        .popped none] := by
  decide

end Calls

open RingMessages RingMcasterStorage

def valueElement (value : Value) : QueueElement Value := ⟨value, value.length.toUInt64⟩

def valuesDeque (queue : List Value) (dropped : List Value) : Deque Value where
  capacity := valuesQueueLength
  contents := queue.map valueElement
  dropped := dropped

/-- `memcpy` of so many bytes. -/
def copyValue (value : Value) (size : UInt64) : Value := value.take size.toNat

variable {queue dropped : List Value} {value : Value}

theorem toNat_length (fits : value.length < 2 ^ 64) :
    (valueElement value).size.toNat = value.length := by
  simp [valueElement]
  omega

theorem elementFor_value (fits : value.length < 2 ^ 64) (makeCopy : Bool) :
    elementFor copyValue value value.length.toUInt64 makeCopy = valueElement value := by
  have whole : value.take value.length.toUInt64.toNat = value := by
    rw [show value.length.toUInt64.toNat = value.length from toNat_length fits, List.take_length]
  cases makeCopy with
  | false => rfl
  | true => rw [elementFor, if_pos rfl, copyValue, whole, valueElement]

theorem totalSize_values (fits : ∀ v ∈ queue, v.length < 2 ^ 64) :
    totalSize (queue.map valueElement) = queueSize queue := by
  induction queue with
  | nil => rfl
  | cons v queue ih =>
    obtain ⟨head, tail⟩ := List.forall_mem_cons.mp fits
    rw [List.map_cons, totalSize_cons, toNat_length head, ih tail]
    simp [queueSize]

/-- `cvm_save_value` appends a copy. -/
theorem append_cvmSaveValue (short : queue.length ≤ valuesQueueLength)
    (fits : ∀ v ∈ value :: queue, v.length < 2 ^ 64) :
    ((valuesDeque queue dropped).append
      (elementFor copyValue value value.length.toUInt64 true)).2 =
        valuesDeque (cvmSaveValue queue value) dropped := by
  obtain ⟨own, others⟩ := List.forall_mem_cons.mp fits
  rw [elementFor_value own]
  simp only [Deque.append, valuesDeque, List.length_map, toNat_length own, totalSize_values others,
    cvmSaveValue]
  split_ifs with stored full large full large
  · omega
  · omega
  · simp
  · rfl
  · rfl
  · omega

/-- `cvm_push_back_value` prepends the value itself. -/
theorem prepend_cvmPushBackValue (fits : value.length < 2 ^ 64) :
    ∃ lost, (valuesDeque queue dropped).prepend
      (elementFor copyValue value value.length.toUInt64 false) =
        valuesDeque (cvmPushBackValue queue value) lost := by
  rw [elementFor_value fits]
  by_cases full : queue.length = valuesQueueLength
  · refine ⟨dropped ++ queue.getLast?.toList, ?_⟩
    have same : (valuesDeque queue dropped).contents.length =
        (valuesDeque queue dropped).capacity := by
      simpa [valuesDeque] using full
    rw [Deque.prepend, Deque.withRoom, if_pos same]
    simp [Deque.discardLast, valuesDeque, cvmPushBackValue, full, valueElement,
      List.map_dropLast, Function.comp_def]
  · refine ⟨dropped, ?_⟩
    have other : (valuesDeque queue dropped).contents.length ≠
        (valuesDeque queue dropped).capacity := by
      simpa [valuesDeque] using full
    rw [Deque.prepend, Deque.withRoom, if_neg other]
    simp [valuesDeque, cvmPushBackValue, full]

end FdsPaxos.RingLpQueue
