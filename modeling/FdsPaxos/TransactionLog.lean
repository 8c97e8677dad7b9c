import Mathlib.Data.Set.Insert

set_option autoImplicit false

/-!
A process that writes records in transactions and sends messages: what it sends must rest on
records of committed transactions only.
-/

namespace FdsPaxos.TransactionLog

variable {ρ μ : Type*}

inductive Action (ρ μ : Type*) where
  | txBegin
  | put (record : ρ)
  | txEnd
  | send (messages : List μ)

/-- The records whose write is committed, and those of the transaction that is open. -/
structure Log (ρ : Type*) where
  committed : Set ρ
  pending : Option (List ρ)

/-- What is allowed: transactions do not nest, records are written in a transaction, and a
message is sent outside of it, with a committed record behind it. -/
inductive Step (backs : ρ → μ → Prop) : Log ρ → Action ρ μ → Log ρ → Prop where
  | txBegin (c : Set ρ) : Step backs ⟨c, none⟩ .txBegin ⟨c, some []⟩
  | put (c : Set ρ) (ps : List ρ) (r : ρ) : Step backs ⟨c, some ps⟩ (.put r) ⟨c, some (r :: ps)⟩
  | txEnd (c : Set ρ) (ps : List ρ) :
      Step backs ⟨c, some ps⟩ .txEnd ⟨c ∪ {r | r ∈ ps}, none⟩
  | send (c : Set ρ) (messages : List μ) (committed : ∀ m ∈ messages, ∃ r ∈ c, backs r m) :
      Step backs ⟨c, none⟩ (.send messages) ⟨c, none⟩

/-- The actions, latest first, are all allowed. -/
inductive Reaches (backs : ρ → μ → Prop) (start : Log ρ) : List (Action ρ μ) → Log ρ → Prop where
  | nil : Reaches backs start [] start
  | cons {actions : List (Action ρ μ)} {log log' : Log ρ} {a : Action ρ μ}
      (before : Reaches backs start actions log) (step : Step backs log a log') :
      Reaches backs start (a :: actions) log'

/-- No transaction is open, and the records of `known` are committed. -/
def Outside (backs : ρ → μ → Prop) (start : Log ρ) (actions : List (Action ρ μ))
    (known : Set ρ) : Prop :=
  ∃ c, Reaches backs start actions ⟨c, none⟩ ∧ known ⊆ c

/-- A transaction is open that makes the records of `known` committed. -/
def Inside (backs : ρ → μ → Prop) (start : Log ρ) (actions : List (Action ρ μ))
    (known : Set ρ) : Prop :=
  ∃ c ps, Reaches backs start actions ⟨c, some ps⟩ ∧ known ⊆ c ∪ {r | r ∈ ps}

variable {backs : ρ → μ → Prop} {start : Log ρ} {actions : List (Action ρ μ)} {known : Set ρ}

theorem Outside.txBegin (h : Outside backs start actions known) :
    Inside backs start (.txBegin :: actions) known := by
  obtain ⟨c, reached, sub⟩ := h
  exact ⟨c, [], .cons reached (.txBegin c), fun r hr => .inl (sub hr)⟩

theorem Inside.put (h : Inside backs start actions known) (r : ρ) :
    Inside backs start (.put r :: actions) (insert r known) := by
  obtain ⟨c, ps, reached, sub⟩ := h
  refine ⟨c, r :: ps, .cons reached (.put c ps r), fun r' hr' => ?_⟩
  rcases hr' with rfl | hr'
  · exact .inr List.mem_cons_self
  · exact (sub hr').imp_right fun h => List.mem_cons_of_mem r h

theorem Inside.txEnd (h : Inside backs start actions known) :
    Outside backs start (.txEnd :: actions) known := by
  obtain ⟨c, ps, reached, sub⟩ := h
  exact ⟨_, .cons reached (.txEnd c ps), sub⟩

theorem Outside.send (h : Outside backs start actions known) {messages : List μ}
    (held : ∀ m ∈ messages, ∃ r ∈ known, backs r m) :
    Outside backs start (.send messages :: actions) known := by
  obtain ⟨c, reached, sub⟩ := h
  refine ⟨c, .cons reached (.send c messages fun m hm => ?_), sub⟩
  obtain ⟨r, hr, backed⟩ := held m hm
  exact ⟨r, sub hr, backed⟩

end FdsPaxos.TransactionLog
