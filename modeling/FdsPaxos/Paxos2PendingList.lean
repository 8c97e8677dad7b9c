import FdsPaxos.LinkedQueue
import FdsPaxos.Paxos2ValuesHandler
import FdsPaxos.TransitionRuns

set_option autoImplicit false

/-!
The pending list of `proposer_values_handler.c` as it lies in memory, against the list of
values that the leader works with.
-/

namespace FdsPaxos.Paxos2PendingList
open TransitionRuns LinkedQueue Paxos2Config Paxos2Messages
open Paxos2ValuesHandler (ValuesHandler)

/-- A wrapper in memory; its value carries its size. -/
structure VhValueWrapper where
  next : Option ℕ
  value : Value

/-- The statics of the file and the memory that their pointers lead into.  `NULL` is `none`,
and what lies at an address that is not in use is arbitrary. -/
structure PendingList where
  memory : ℕ → VhValueWrapper
  vhListSize : ℤ
  vhListHead : Option ℕ
  vhListTail : Option ℕ
  droppedCount : ℕ

def store (memory : ℕ → VhValueWrapper) (addr : ℕ) (vw : VhValueWrapper) : ℕ → VhValueWrapper :=
  fun b => if b = addr then vw else memory b

def setNext (memory : ℕ → VhValueWrapper) (vw : ℕ) (next : Option ℕ) : ℕ → VhValueWrapper :=
  store memory vw { memory vw with next := next }

/-- The address is the one that `malloc` returns. -/
def vhWrapValue (memory : ℕ → VhValueWrapper) (addr : ℕ) (value : Value) : ℕ → VhValueWrapper :=
  store memory addr { next := none, value := value }

def vhInit (s : PendingList) : PendingList :=
  { s with vhListSize := 0, vhListHead := none, vhListTail := none, droppedCount := 0 }

def PendingList.IsEmpty (s : PendingList) : Prop := s.vhListHead = none ∧ s.vhListTail = none

instance (s : PendingList) : Decidable s.IsEmpty := inferInstanceAs (Decidable (_ ∧ _))

/-- No result means that a `NULL` pointer is followed. -/
def vhEnqueueValue (cfg : Config) (s : PendingList) (addr : ℕ) (value : Value) :
    Option PendingList :=
  if (cfg.leaderMaxQueueLength : ℤ) < s.vhListSize then
    some { s with droppedCount := s.droppedCount + 1 }
  else
    let memory := vhWrapValue s.memory addr value
    if s.IsEmpty then
      some { s with
        memory := memory
        vhListHead := some addr
        vhListTail := some addr
        vhListSize := 1 }
    else
      s.vhListTail.map fun last =>
        { s with
          memory := setNext memory last (some addr)
          vhListTail := some addr
          vhListSize := s.vhListSize + 1 }

/-- The pointer returned is `NULL` for an empty list. -/
def vhGetNextPending (s : PendingList) : Option (Option ℕ × PendingList) :=
  if s.IsEmpty then some (none, s)
  else
    s.vhListHead.map fun first =>
      (some first,
        { s with
          vhListHead := (s.memory first).next
          vhListTail := if s.vhListTail = some first then none else s.vhListTail
          vhListSize := s.vhListSize - 1 })

def vhPushBackValue (s : PendingList) (vw : ℕ) : PendingList :=
  let memory := setNext s.memory vw s.vhListHead
  if s.IsEmpty then
    { s with
      memory := memory
      vhListHead := some vw
      vhListTail := some vw
      vhListSize := 1 }
  else
    { s with
      memory := memory
      vhListHead := some vw
      vhListSize := s.vhListSize + 1 }

/-- A call, with the address that `malloc` returns or the value in the wrapper, and the
writes that the rest of the process makes to other wrappers. -/
inductive Call where
  | enqueue (addr : ℕ) (value : Value)
  | pushBack (vw : ℕ) (value : Value)
  | getNext
  | outside (addr : ℕ) (vw : VhValueWrapper)

/-- A state with what the calls of `vh_get_next_pending` have returned so far. -/
structure Returning (σ : Type) where
  state : σ
  returned : List (Option Value)

/-- `none` once a `NULL` pointer was followed. -/
def listStep (cfg : Config) (o : Option (Returning PendingList)) (call : Call) :
    Option (Returning PendingList) :=
  o.bind fun r =>
    match call with
    | .enqueue addr value => (vhEnqueueValue cfg r.state addr value).map ({ r with state := · })
    | .pushBack vw _ => some { r with state := vhPushBackValue r.state vw }
    | .getNext =>
      (vhGetNextPending r.state).map fun popped =>
        { state := popped.2
          returned := r.returned ++ [popped.1.map fun vw => (r.state.memory vw).value] }
    | .outside addr vw =>
      some { r with state := { r.state with memory := store r.state.memory addr vw } }

def dequeStep (cfg : Config) (r : Returning ValuesHandler) (call : Call) :
    Returning ValuesHandler :=
  match call with
  | .enqueue _ value => { r with state := Paxos2ValuesHandler.vhEnqueueValue cfg r.state value }
  | .pushBack _ value => { r with state := Paxos2ValuesHandler.vhPushBackValue r.state value }
  | .getNext =>
    match Paxos2ValuesHandler.vhGetNextPending r.state with
    | none => { r with returned := r.returned ++ [none] }
    | some (value, vh) => { state := vh, returned := r.returned ++ [some value] }
  | .outside _ _ => r

def PendingList.next (s : PendingList) (addr : ℕ) : Option ℕ := (s.memory addr).next

def InList (s : PendingList) (addr : ℕ) : Prop :=
  ∃ nodes, Chain s.next s.vhListHead nodes ∧ addr ∈ nodes

/-- Allocated, pushed back and otherwise written wrappers are not in the list. -/
def Allowed (s : PendingList) : Call → Prop
  | .enqueue addr _ => ¬ InList s addr
  | .pushBack vw value => ¬ InList s vw ∧ (s.memory vw).value = value
  | .getNext => True
  | .outside addr _ => ¬ InList s addr

def StepAllowed (o : Option (Returning PendingList)) (call : Call) : Prop :=
  ∀ r ∈ o, Allowed r.state call

/-- The list in memory leads through `nodes`, which hold the pending values in order. -/
structure Represents (s : PendingList) (nodes : List ℕ) (vh : ValuesHandler) : Prop where
  queue : Queue s.next s.vhListHead s.vhListTail nodes
  values : nodes.map (fun a => (s.memory a).value) = vh.pendingList
  size : s.vhListSize = nodes.length

section Memory

variable {s : PendingList} {memory : ℕ → VhValueWrapper} {a b : ℕ}

@[simp] theorem store_self (vw : VhValueWrapper) : store memory a vw a = vw := by
  simp [store]

theorem store_of_ne (vw : VhValueWrapper) (other : b ≠ a) : store memory a vw b = memory b := by
  simp [store, other]

@[simp] theorem setNext_value (next : Option ℕ) :
    (setNext memory a next b).value = (memory b).value := by
  unfold setNext store
  split_ifs with here
  · rw [here]
  · rfl

@[simp] theorem setNext_next_self (next : Option ℕ) : (setNext memory a next a).next = next := by
  simp [setNext]

theorem setNext_of_ne (next : Option ℕ) (other : b ≠ a) :
    setNext memory a next b = memory b := store_of_ne _ other

end Memory

section Operations

variable {cfg : Config} {s : PendingList} {nodes : List ℕ} {vh : ValuesHandler} {a : ℕ}

theorem Represents.not_mem (h : Represents s nodes vh) (outside : ¬ InList s a) : a ∉ nodes :=
  fun inside => outside ⟨nodes, h.queue.chain, inside⟩

theorem Represents.isEmpty_iff (h : Represents s nodes vh) : s.IsEmpty ↔ nodes = [] := by
  unfold PendingList.IsEmpty
  rw [h.queue.first_none_iff, h.queue.last_none_iff, and_self]

theorem Represents.length (h : Represents s nodes vh) :
    nodes.length = Paxos2ValuesHandler.vhPendingListSize vh := by
  rw [Paxos2ValuesHandler.vhPendingListSize, ← h.values, List.length_map]

theorem Represents.store (h : Represents s nodes vh) (fresh : a ∉ nodes) (vw : VhValueWrapper) :
    Represents { s with memory := store s.memory a vw } nodes vh where
  queue := h.queue.congr fun b hb =>
    congrArg VhValueWrapper.next (store_of_ne vw (ne_of_mem_of_not_mem hb fresh))
  values := by
    rw [← h.values]
    refine List.map_congr_left fun b hb => ?_
    exact congrArg VhValueWrapper.value (store_of_ne vw (ne_of_mem_of_not_mem hb fresh))
  size := h.size

theorem represents_init (s : PendingList) (vh : ValuesHandler) :
    Represents (vhInit s) [] (Paxos2ValuesHandler.vhInit vh) :=
  ⟨queue_empty _, rfl, rfl⟩

theorem Represents.enqueue (cfg : Config) (h : Represents s nodes vh) (fresh : a ∉ nodes) (value : Value) :
    ∃ s' nodes', vhEnqueueValue cfg s a value = some s' ∧
      Represents s' nodes' (Paxos2ValuesHandler.vhEnqueueValue cfg vh value) := by
  unfold vhEnqueueValue Paxos2ValuesHandler.vhEnqueueValue
  have full : (cfg.leaderMaxQueueLength : ℤ) < s.vhListSize ↔
      cfg.leaderMaxQueueLength < Paxos2ValuesHandler.vhPendingListSize vh := by
    rw [h.size, h.length, Int.ofNat_lt]
  by_cases dropped : cfg.leaderMaxQueueLength < Paxos2ValuesHandler.vhPendingListSize vh
  · rw [if_pos (full.mpr dropped), if_pos dropped]
    exact ⟨_, nodes, rfl, h.queue, h.values, h.size⟩
  · rw [if_neg (fun lt => dropped (full.mp lt)), if_neg dropped]
    dsimp only
    by_cases empty : s.IsEmpty
    · obtain rfl := h.isEmpty_iff.mp empty
      rw [if_pos empty]
      refine ⟨_, [a], rfl, .singleton ?_, ?_, rfl⟩
      · simp [PendingList.next, vhWrapValue]
      · simp [← h.values, vhWrapValue]
    · rw [if_neg empty]
      have busy : nodes ≠ [] := fun none => empty (h.isEmpty_iff.mpr none)
      obtain ⟨last, hlast⟩ := Option.ne_none_iff_exists'.mp
        fun none => busy (h.queue.last_none_iff.mp none)
      have inside : last ∈ nodes := List.mem_of_getLast? (h.queue.last_eq.symm.trans hlast)
      have other : a ≠ last := fun same => fresh (same ▸ inside)
      rw [hlast]
      refine ⟨_, nodes ++ [a], rfl, ?_, ?_, ?_⟩
      · refine (hlast ▸ h.queue).enqueue fresh ?_ ?_ ?_
        · simp [PendingList.next]
        · simp [PendingList.next, setNext_of_ne _ other, vhWrapValue]
        · intro c hc notLast
          have notNew : c ≠ a := ne_of_mem_of_not_mem hc fresh
          simp [PendingList.next, setNext_of_ne _ notLast, vhWrapValue, store_of_ne _ notNew]
      · have kept : nodes.map (fun b => (vhWrapValue s.memory a value b).value) =
            nodes.map fun b => (s.memory b).value := by
          refine List.map_congr_left fun b hb => ?_
          exact congrArg VhValueWrapper.value (store_of_ne _ (ne_of_mem_of_not_mem hb fresh))
        simp only [setNext_value, List.map_append, kept, h.values, List.map_singleton]
        simp [vhWrapValue]
      · simp [h.size]

theorem Represents.pushBack (h : Represents s nodes vh) (fresh : a ∉ nodes) :
    Represents (vhPushBackValue s a) (a :: nodes)
      (Paxos2ValuesHandler.vhPushBackValue vh (s.memory a).value) := by
  have values : (a :: nodes).map (fun b => (setNext s.memory a s.vhListHead b).value) =
      (s.memory a).value :: vh.pendingList := by
    simp only [setNext_value, List.map_cons, h.values]
  unfold vhPushBackValue
  dsimp only
  by_cases empty : s.IsEmpty
  · obtain rfl := h.isEmpty_iff.mp empty
    rw [if_pos empty]
    refine ⟨.singleton ?_, values, rfl⟩
    simp [PendingList.next, empty.1]
  · rw [if_neg empty]
    have busy : nodes ≠ [] := fun none => empty (h.isEmpty_iff.mpr none)
    refine ⟨h.queue.push fresh ?_ ?_ busy, values, ?_⟩
    · simp [PendingList.next]
    · intro c hc
      simp [PendingList.next, setNext_of_ne _ (ne_of_mem_of_not_mem hc fresh)]
    · simp [h.size]

/-- A call on an empty list returns `NULL`, any other one the first value. -/
theorem Represents.getNext (h : Represents s nodes vh) :
    (vhGetNextPending s = some (none, s) ∧ Paxos2ValuesHandler.vhGetNextPending vh = none) ∨
    ∃ vw s' nodes' vh', vhGetNextPending s = some (some vw, s') ∧
      Paxos2ValuesHandler.vhGetNextPending vh = some ((s.memory vw).value, vh') ∧
      Represents s' nodes' vh' := by
  unfold vhGetNextPending Paxos2ValuesHandler.vhGetNextPending
  cases nodes with
  | nil =>
    rw [if_pos (h.isEmpty_iff.mpr rfl), ← h.values]
    exact .inl ⟨rfl, rfl⟩
  | cons first nodes =>
    have head : s.vhListHead = some first := h.queue.first_eq
    have busy : ¬ s.IsEmpty := fun empty => by cases h.isEmpty_iff.mp empty
    rw [if_neg busy, head, ← h.values]
    refine .inr ⟨first, _, nodes, _, rfl, rfl, ?_, rfl, ?_⟩
    · have only := h.queue.last_eq_first_iff
      by_cases single : nodes = []
      · subst single
        dsimp only
        have ends : (s.memory first).next = none := h.queue.chain.2
        rw [if_pos (only.mpr rfl), ends]
        exact queue_empty _
      · dsimp only
        rw [if_neg (mt only.mp single)]
        exact h.queue.pop single
    · simp [h.size]

end Operations

/-- The two runs agree: on the list, and on what has been returned. -/
structure Agree (r : Returning PendingList) (d : Returning ValuesHandler) : Prop where
  represents : ∃ nodes, Represents r.state nodes d.state
  returned : r.returned = d.returned

/-- An allowed call follows no `NULL` pointer and keeps the agreement. -/
theorem agree_step {cfg : Config} {r : Returning PendingList} {d : Returning ValuesHandler}
    (h : Agree r d) (call : Call) (allowed : Allowed r.state call) :
    ∃ r', listStep cfg (some r) call = some r' ∧ Agree r' (dequeStep cfg d call) := by
  obtain ⟨⟨nodes, rep⟩, returned⟩ := h
  cases call with
  | enqueue addr value =>
    obtain ⟨s', nodes', done, rep'⟩ := rep.enqueue cfg (rep.not_mem allowed) value
    exact ⟨{ r with state := s' }, by simp [listStep, done], ⟨nodes', rep'⟩, returned⟩
  | pushBack vw value =>
    obtain ⟨outside, rfl⟩ := allowed
    exact ⟨_, rfl, ⟨_, rep.pushBack (rep.not_mem outside)⟩, returned⟩
  | getNext =>
    rcases rep.getNext with ⟨done, empty⟩ | ⟨vw, s', nodes', vh', done, popped, rep'⟩
    · refine ⟨{ r with returned := r.returned ++ [none] }, by simp [listStep, done], ?_⟩
      simp only [dequeStep, empty]
      exact ⟨⟨nodes, rep⟩, by simp [returned]⟩
    · refine ⟨{ state := s', returned := r.returned ++ [some (r.state.memory vw).value] },
        by simp [listStep, done], ?_⟩
      simp only [dequeStep, popped]
      exact ⟨⟨nodes', rep'⟩, by simp [returned]⟩
  | outside addr vw => exact ⟨_, rfl, ⟨nodes, rep.store (rep.not_mem allowed) vw⟩, returned⟩

theorem agree_run {cfg : Config} {r : Returning PendingList} {d : Returning ValuesHandler}
    (h : Agree r d) (calls : List Call)
    (allowed : Along (listStep cfg) StepAllowed (some r) calls) :
    ∃ r', run (listStep cfg) (some r) calls = some r' ∧ Agree r' (run (dequeStep cfg) d calls) := by
  induction calls generalizing r d with
  | nil => exact ⟨r, rfl, h⟩
  | cons call calls ih =>
    obtain ⟨first, rest⟩ := allowed
    obtain ⟨r₁, done, agree⟩ := agree_step h call (first r rfl)
    rw [run_cons, run_cons, done]
    rw [done] at rest
    exact ih agree rest

/-- What the list in memory is known to be: it leads through `nodes`, which hold the values
of the deque, in order, and its size and both its ends are right. -/
structure RefinesDeque (s : PendingList) (vh : ValuesHandler) : Prop where
  holds : ∃ nodes, Chain s.next s.vhListHead nodes ∧ nodes.Nodup ∧
    nodes.map (fun a => (s.memory a).value) = vh.pendingList ∧ s.vhListTail = nodes.getLast?
  size : s.vhListSize = vh.pendingList.length
  head : s.vhListHead = none ↔ vh.pendingList = []
  tail : s.vhListTail = none ↔ vh.pendingList = []
  ends : ∀ a, s.vhListTail = some a → (s.memory a).next = none

theorem Represents.refinesDeque {s : PendingList} {nodes : List ℕ} {vh : ValuesHandler}
    (h : Represents s nodes vh) : RefinesDeque s vh where
  holds := ⟨nodes, h.queue.chain, h.queue.nodup, h.values, h.queue.last_eq⟩
  size := by rw [h.size, h.length, Paxos2ValuesHandler.vhPendingListSize]
  head := by rw [h.queue.first_none_iff, ← h.values, List.map_eq_nil_iff]
  tail := by rw [h.queue.last_none_iff, ← h.values, List.map_eq_nil_iff]
  ends := fun _ here => h.queue.ends here

/-- Every sequence of calls after `vh_init` follows no `NULL` pointer; it leaves the list
that a deque of values would be, and has returned the values that the deque has. -/
theorem pending_list_refines_deque (cfg : Config) (s : PendingList) (vh : ValuesHandler)
    (calls : List Call)
    (allowed : Along (listStep cfg) StepAllowed (some ⟨vhInit s, []⟩) calls) :
    ∃ r, run (listStep cfg) (some ⟨vhInit s, []⟩) calls = some r ∧
      RefinesDeque r.state
        (run (dequeStep cfg) ⟨Paxos2ValuesHandler.vhInit vh, []⟩ calls).state ∧
      r.returned = (run (dequeStep cfg) ⟨Paxos2ValuesHandler.vhInit vh, []⟩ calls).returned := by
  have start : Agree ⟨vhInit s, []⟩ ⟨Paxos2ValuesHandler.vhInit vh, []⟩ :=
    ⟨⟨[], represents_init s vh⟩, rfl⟩
  obtain ⟨r, done, ⟨nodes, rep⟩, returned⟩ := agree_run start calls allowed
  exact ⟨r, done, rep.refinesDeque, returned⟩

theorem not_inList {s : PendingList} {addr : ℕ} (nodes : List ℕ)
    (h : Chain s.next s.vhListHead nodes ∧ addr ∉ nodes) : ¬ InList s addr := by
  rintro ⟨nodes', chain, inside⟩
  exact h.2 (h.1.unique chain ▸ inside)

theorem stepAllowed_of_not_inList {r : Returning PendingList} {call : Call}
    (allowed : Allowed r.state call) : StepAllowed (some r) call := by
  intro r' here
  exact Option.some.inj here ▸ allowed

def emptyMemory : PendingList :=
  { memory := fun _ => ⟨some 0, []⟩
    vhListSize := 0
    vhListHead := none
    vhListTail := none
    droppedCount := 0 }

def noValues : ValuesHandler :=
  { pendingList := [], droppedCount := 0, notified := [], accepted := [], found := [] }

/-- The first of two values is taken, and pushed back with its stale pointer. -/
theorem pushed_back_first :
    ∃ r, run (listStep .default) (some ⟨vhInit emptyMemory, []⟩)
        [.enqueue 1 [7], .enqueue 2 [8], .getNext, .pushBack 1 [7], .getNext] = some r ∧
      RefinesDeque r.state
        (run (dequeStep .default) ⟨Paxos2ValuesHandler.vhInit noValues, []⟩
          [.enqueue 1 [7], .enqueue 2 [8], .getNext, .pushBack 1 [7], .getNext]).state ∧
      r.returned = (run (dequeStep .default) ⟨Paxos2ValuesHandler.vhInit noValues, []⟩
        [.enqueue 1 [7], .enqueue 2 [8], .getNext, .pushBack 1 [7], .getNext]).returned := by
  refine pending_list_refines_deque .default emptyMemory noValues _ ⟨?_, ?_, ?_, ?_, ?_, trivial⟩
  · exact stepAllowed_of_not_inList (not_inList [] (by decide))
  · exact stepAllowed_of_not_inList (not_inList [1] (by decide))
  · exact stepAllowed_of_not_inList trivial
  · exact stepAllowed_of_not_inList ⟨not_inList [2] (by decide), rfl⟩
  · exact stepAllowed_of_not_inList trivial

end FdsPaxos.Paxos2PendingList
