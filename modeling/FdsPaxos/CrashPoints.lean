import FdsPaxos.TransactionLog
import Mathlib.Data.Nat.Notation

set_option autoImplicit false

/-!
A process that is stopped between any two of its actions: which writes its transactions have
made durable by then, and what it has sent.
-/

namespace FdsPaxos.CrashPoints
open TransactionLog

variable {σ ρ μ : Type*}

/-- The stored data, the writes of the open transaction, and what was sent. -/
structure Disk (σ ρ μ : Type*) where
  stored : σ
  pending : List ρ
  sent : List (List μ)

/-- A transaction writes all of its records, and it does so when it ends. -/
def Disk.act (write : σ → ρ → σ) (d : Disk σ ρ μ) : Action ρ μ → Disk σ ρ μ
  | .txBegin => { d with pending := [] }
  | .put r => { d with pending := d.pending ++ [r] }
  | .txEnd => { d with stored := d.pending.foldl write d.stored, pending := [] }
  | .send messages => { d with sent := d.sent ++ [messages] }

/-- After the actions, latest first. -/
def Disk.after (write : σ → ρ → σ) (d : Disk σ ρ μ) (actions : List (Action ρ μ)) : Disk σ ρ μ :=
  actions.foldr (fun a d => d.act write a) d

/-- Wherever the process stops, what is stored and what was sent satisfy `P`. -/
def EveryPoint (write : σ → ρ → σ) (P : σ → List (List μ) → Prop) (d : Disk σ ρ μ)
    (actions : List (Action ρ μ)) : Prop :=
  ∀ n, P (d.after write (actions.drop n)).stored (d.after write (actions.drop n)).sent

variable {write : σ → ρ → σ} {P : σ → List (List μ) → Prop} {d : Disk σ ρ μ}
  {actions : List (Action ρ μ)}

@[simp] theorem after_nil (d : Disk σ ρ μ) : d.after write [] = d := rfl

@[simp] theorem after_cons (d : Disk σ ρ μ) (a : Action ρ μ) (actions : List (Action ρ μ)) :
    d.after write (a :: actions) = (d.after write actions).act write a := rfl

theorem EveryPoint.last (h : EveryPoint write P d actions) :
    P (d.after write actions).stored (d.after write actions).sent := by
  simpa using h 0

theorem everyPoint_nil : EveryPoint write P d [] ↔ P d.stored d.sent := by
  simp [EveryPoint]

theorem everyPoint_cons {a : Action ρ μ} : EveryPoint write P d (a :: actions) ↔
    P (d.after write (a :: actions)).stored (d.after write (a :: actions)).sent ∧
      EveryPoint write P d actions := by
  constructor
  · intro h
    exact ⟨h.last, fun n => by simpa using h (n + 1)⟩
  · rintro ⟨last, earlier⟩ n
    cases n with
    | zero => simpa using last
    | succ n => simpa using earlier n

/-- Beginning a transaction and writing in it are not seen from outside. -/
theorem EveryPoint.txBegin (h : EveryPoint write P d actions) :
    EveryPoint write P d (.txBegin :: actions) :=
  everyPoint_cons.mpr ⟨h.last, h⟩

theorem EveryPoint.put (h : EveryPoint write P d actions) (r : ρ) :
    EveryPoint write P d (.put r :: actions) :=
  everyPoint_cons.mpr ⟨h.last, h⟩

end FdsPaxos.CrashPoints
