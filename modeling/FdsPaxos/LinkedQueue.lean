import Mathlib.Data.List.Nodup

set_option autoImplicit false

/-!
Singly linked queues in memory: a pointer to the first node, one to the last, and nodes
that point to their successors.  `next` reads the successor of a node, so the nodes may
hold anything besides.
-/

namespace FdsPaxos.LinkedQueue

variable {A : Type*} {next next' : A → Option A} {start : Option A} {nodes : List A} {a b : A}

/-- From `start` the pointers lead through `nodes` and then to `NULL`. -/
def Chain (next : A → Option A) : Option A → List A → Prop
  | start, [] => start = none
  | start, a :: nodes => start = some a ∧ Chain next (next a) nodes

instance Chain.decidable [DecidableEq A] (next : A → Option A) :
    ∀ start nodes, Decidable (Chain next start nodes)
  | start, [] => inferInstanceAs (Decidable (start = none))
  | start, a :: nodes =>
    haveI := Chain.decidable next (next a) nodes
    inferInstanceAs (Decidable (start = some a ∧ Chain next (next a) nodes))

@[simp] theorem chain_nil : Chain next start [] ↔ start = none := Iff.rfl

@[simp] theorem chain_cons :
    Chain next start (a :: nodes) ↔ start = some a ∧ Chain next (next a) nodes := Iff.rfl

theorem Chain.head (h : Chain next start nodes) : start = nodes.head? := by
  cases nodes with
  | nil => exact h
  | cons a nodes => exact h.1

theorem Chain.congr (h : Chain next start nodes) (same : ∀ a ∈ nodes, next' a = next a) :
    Chain next' start nodes := by
  induction nodes generalizing start with
  | nil => exact h
  | cons a nodes ih =>
    obtain ⟨head, tail⟩ := List.forall_mem_cons.mp same
    exact ⟨h.1, head ▸ ih h.2 tail⟩

/-- The nodes on the way to `NULL` are determined by where it starts. -/
theorem Chain.unique {nodes' : List A} (h : Chain next start nodes)
    (h' : Chain next start nodes') : nodes = nodes' := by
  induction nodes generalizing start nodes' with
  | nil =>
    rw [chain_nil] at h
    subst h
    cases nodes' with
    | nil => rfl
    | cons b nodes' => cases h'.1
  | cons a nodes ih =>
    obtain ⟨rfl, tail⟩ := h
    cases nodes' with
    | nil => cases h'
    | cons b nodes' =>
      obtain ⟨same, tail'⟩ := h'
      obtain rfl := Option.some.inj same
      rw [ih tail tail']

theorem Chain.last (h : Chain next start nodes) (last : nodes.getLast? = some a) :
    next a = none := by
  induction nodes generalizing start with
  | nil => cases last
  | cons b nodes ih =>
    cases nodes with
    | nil =>
      obtain rfl : b = a := by simpa using last
      exact h.2
    | cons c nodes => exact ih h.2 (by simpa using last)

theorem Chain.snoc (h : Chain next start nodes) (nodup : nodes.Nodup)
    (last : nodes.getLast? = some a) (linked : next' a = some b) (ends : next' b = none)
    (same : ∀ c ∈ nodes, c ≠ a → next' c = next c) : Chain next' start (nodes ++ [b]) := by
  induction nodes generalizing start with
  | nil => cases last
  | cons c nodes ih =>
    obtain ⟨fresh, nodup⟩ := List.nodup_cons.mp nodup
    cases nodes with
    | nil =>
      obtain rfl : c = a := by simpa using last
      exact ⟨h.1, linked, ends⟩
    | cons d nodes =>
      have last : (d :: nodes).getLast? = some a := by simpa using last
      have other : c ≠ a := by
        rintro rfl
        exact fresh (List.mem_of_getLast? last)
      refine ⟨h.1, ?_⟩
      rw [same c List.mem_cons_self other]
      exact ih h.2 nodup last fun e he => same e (List.mem_cons_of_mem c he)

/-- A queue with its first and last pointer; no node occurs in it twice. -/
structure Queue (next : A → Option A) (first last : Option A) (nodes : List A) : Prop where
  chain : Chain next first nodes
  last_eq : last = nodes.getLast?
  nodup : nodes.Nodup

variable {first last : Option A}

theorem queue_empty (next : A → Option A) : Queue next none none [] := ⟨rfl, rfl, .nil⟩

theorem Queue.first_eq (h : Queue next first last nodes) : first = nodes.head? := h.chain.head

theorem Queue.first_none_iff (h : Queue next first last nodes) : first = none ↔ nodes = [] := by
  rw [h.first_eq, List.head?_eq_none_iff]

theorem Queue.last_none_iff (h : Queue next first last nodes) : last = none ↔ nodes = [] := by
  rw [h.last_eq, List.getLast?_eq_none_iff]

theorem Queue.ends (h : Queue next first last nodes) (here : last = some a) : next a = none :=
  h.chain.last (h.last_eq ▸ here)

theorem Queue.congr (h : Queue next first last nodes) (same : ∀ a ∈ nodes, next' a = next a) :
    Queue next' first last nodes :=
  ⟨h.chain.congr same, h.last_eq, h.nodup⟩

theorem Queue.singleton (ends : next b = none) : Queue next (some b) (some b) [b] :=
  ⟨⟨rfl, ends⟩, rfl, List.nodup_singleton b⟩

theorem Queue.enqueue (h : Queue next first (some a) nodes) (fresh : b ∉ nodes)
    (linked : next' a = some b) (ends : next' b = none)
    (same : ∀ c ∈ nodes, c ≠ a → next' c = next c) :
    Queue next' first (some b) (nodes ++ [b]) where
  chain := h.chain.snoc h.nodup h.last_eq.symm linked ends same
  last_eq := by simp
  nodup := h.nodup.append (List.nodup_singleton b) (by simpa using fresh)

theorem Queue.push (h : Queue next first last nodes) (fresh : b ∉ nodes)
    (linked : next' b = first) (same : ∀ c ∈ nodes, next' c = next c) (busy : nodes ≠ []) :
    Queue next' (some b) last (b :: nodes) where
  chain := ⟨rfl, linked ▸ h.chain.congr same⟩
  last_eq := by rw [h.last_eq, List.getLast?_cons_of_ne_nil busy]
  nodup := List.nodup_cons.mpr ⟨fresh, h.nodup⟩

/-- The first node is also the last one only if there is no other. -/
theorem Queue.last_eq_first_iff (h : Queue next first last (a :: nodes)) :
    last = some a ↔ nodes = [] := by
  refine ⟨fun same => ?_, fun none => ?_⟩
  · by_contra busy
    rw [h.last_eq, List.getLast?_cons_of_ne_nil busy] at same
    exact (List.nodup_cons.mp h.nodup).1 (List.mem_of_getLast? same)
  · rw [h.last_eq, none]
    rfl

theorem Queue.pop (h : Queue next first last (a :: nodes)) (busy : nodes ≠ []) :
    Queue next (next a) last nodes where
  chain := h.chain.2
  last_eq := by rw [h.last_eq, List.getLast?_cons_of_ne_nil busy]
  nodup := (List.nodup_cons.mp h.nodup).2

end FdsPaxos.LinkedQueue
