import Mathlib.Data.List.Infix
import Mathlib.Data.Nat.Notation
import Mathlib.Logic.Function.Basic
import Mathlib.Logic.Relation

set_option autoImplicit false

/-!
A broadcast service as its clients see it.  It accepts values, gives the accepted ones places
in one order, first come first served, and hands the placed ones to each reader in that order.
-/

namespace FdsPaxos.OrderedBroadcast

variable {α ρ : Type*}

/-- The values accepted so far, how many of them have a place, and how many each reader got. -/
structure Broadcast (α ρ : Type*) where
  accepted : List α
  placed : ℕ
  read : ρ → ℕ

namespace Broadcast

def empty : Broadcast α ρ := ⟨[], 0, fun _ => 0⟩

/-- What a reader got. -/
def output (b : Broadcast α ρ) (r : ρ) : List α := b.accepted.take (b.read r)

end Broadcast

open Broadcast

inductive Step [DecidableEq ρ] : Broadcast α ρ → Broadcast α ρ → Prop where
  | accept (b : Broadcast α ρ) (v : α) : Step b { b with accepted := b.accepted ++ [v] }
  | place (b : Broadcast α ρ) (waits : b.placed < b.accepted.length) :
      Step b { b with placed := b.placed + 1 }
  | read (b : Broadcast α ρ) (r : ρ) (below : b.read r < b.placed) :
      Step b { b with read := Function.update b.read r (b.read r + 1) }

def Steps [DecidableEq ρ] : Broadcast α ρ → Broadcast α ρ → Prop :=
  Relation.ReflTransGen Step

variable [DecidableEq ρ] {b b' b'' : Broadcast α ρ}

theorem Steps.refl (b : Broadcast α ρ) : Steps b b := Relation.ReflTransGen.refl

theorem Steps.trans (h : Steps b b') (h' : Steps b' b'') : Steps b b'' :=
  Relation.ReflTransGen.trans h h'

theorem Step.steps (h : Step b b') : Steps b b' := .single h

/-- A list of values is accepted one by one. -/
theorem steps_accept (b : Broadcast α ρ) (vs : List α) :
    Steps b { b with accepted := b.accepted ++ vs } := by
  induction vs generalizing b with
  | nil => simpa using Steps.refl b
  | cons v vs ih =>
    have rest := ih { b with accepted := b.accepted ++ [v] }
    simp only [List.append_assoc, List.singleton_append] at rest
    exact (Step.accept b v).steps.trans rest

theorem steps_place (b : Broadcast α ρ) (n : ℕ) (room : b.placed + n ≤ b.accepted.length) :
    Steps b { b with placed := b.placed + n } := by
  induction n with
  | zero => exact .refl b
  | succ n ih =>
    have before : Steps b { b with placed := b.placed + n } := ih (by omega)
    exact before.trans (Step.place { b with placed := b.placed + n } (by exact room)).steps

theorem steps_read (b : Broadcast α ρ) (r : ρ) (n : ℕ) (placed : b.read r + n ≤ b.placed) :
    Steps b { b with read := Function.update b.read r (b.read r + n) } := by
  induction n with
  | zero =>
    rw [Nat.add_zero, Function.update_eq_self]
    exact .refl b
  | succ n ih =>
    have before := ih (by omega)
    have below : Function.update b.read r (b.read r + n) r < b.placed := by
      rw [Function.update_self]
      exact placed
    have next := Step.read { b with read := Function.update b.read r (b.read r + n) } r below
    simp only [Function.update_self, Function.update_idem] at next
    exact before.trans next.steps

end FdsPaxos.OrderedBroadcast
