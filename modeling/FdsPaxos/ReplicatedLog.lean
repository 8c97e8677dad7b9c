import Mathlib.Data.Nat.Notation
import Mathlib.Logic.Function.Basic
import Mathlib.Logic.Relation

set_option autoImplicit false

/-!
A replicated log as its clients see it.  Each entry is decided once, as one of the values
submitted before, and each reader gets the decided entries in their order, with no gap.
-/

namespace FdsPaxos.ReplicatedLog

variable {α ρ : Type*}

/-- The values submitted, the entries decided so far, and how many each reader got. -/
structure Log (α ρ : Type*) where
  submitted : List α
  decided : ℕ → Option α
  read : ρ → ℕ

namespace Log

def empty : Log α ρ := ⟨[], fun _ => none, fun _ => 0⟩

/-- What a reader got. -/
def output (b : Log α ρ) (r : ρ) : List (Option α) := (List.range (b.read r)).map b.decided

end Log

inductive Step [DecidableEq ρ] : Log α ρ → Log α ρ → Prop where
  | submit (b : Log α ρ) (v : α) : Step b { b with submitted := b.submitted ++ [v] }
  | decide (b : Log α ρ) (n : ℕ) (v : α) (free : b.decided n = none) (known : v ∈ b.submitted) :
      Step b { b with decided := Function.update b.decided n (some v) }
  | read (b : Log α ρ) (r : ρ) (there : (b.decided (b.read r)).isSome) :
      Step b { b with read := Function.update b.read r (b.read r + 1) }

def Steps [DecidableEq ρ] : Log α ρ → Log α ρ → Prop :=
  Relation.ReflTransGen Step

variable [DecidableEq ρ] {b b' b'' : Log α ρ}

theorem Steps.refl (b : Log α ρ) : Steps b b := Relation.ReflTransGen.refl

theorem Steps.trans (h : Steps b b') (h' : Steps b' b'') : Steps b b'' :=
  Relation.ReflTransGen.trans h h'

theorem Step.steps (h : Step b b') : Steps b b' := .single h

/-- What is decided stays decided, so what a reader got is not taken back. -/
theorem Steps.decided_mono (h : Steps b b') {n : ℕ} {v : α} (decided : b.decided n = some v) :
    b'.decided n = some v := by
  induction h with
  | refl => exact decided
  | tail _ step ih =>
    cases step with
    | submit v' => exact ih
    | decide n' v' free known =>
      have other : n ≠ n' := fun same => by simp [← same, ih] at free
      exact (Function.update_of_ne other _ _).trans ih
    | read r there => exact ih

/-- The reader gets these values next. -/
structure Reads (b b' : Log α ρ) (r : ρ) (vs : List α) : Prop where
  steps : Steps b b'
  submitted : b'.submitted = b.submitted
  read : b'.read = Function.update b.read r (b.read r + vs.length)
  got : ∀ k v, vs[k]? = some v → b'.decided (b.read r + k) = some v
  fresh : ∀ n v, b'.decided n = some v →
    b.decided n = some v ∨ ∃ k, n = b.read r + k ∧ vs[k]? = some v

/-- An entry is decided if it is still free, and read. -/
theorem exists_reads_one (b : Log α ρ) (r : ρ) (v : α) (known : v ∈ b.submitted)
    (open_ : b.decided (b.read r) = none ∨ b.decided (b.read r) = some v) :
    ∃ b', Reads b b' r [v] := by
  rcases open_ with free | decided
  · refine ⟨{ b with
        decided := Function.update b.decided (b.read r) (some v)
        read := Function.update b.read r (b.read r + 1) }, ?_, rfl, rfl, ?_, ?_⟩
    · have first := Step.decide b (b.read r) v free known
      have second := Step.read { b with
        decided := Function.update b.decided (b.read r) (some v) } r (by simp)
      exact first.steps.trans second.steps
    · intro k w found
      cases k with
      | zero => simpa using found
      | succ k => simp at found
    · intro n w decided
      by_cases here : n = b.read r
      · subst here
        exact .inr ⟨0, rfl, by simpa using decided⟩
      · exact .inl (by simpa [Function.update_of_ne here] using decided)
  · refine ⟨{ b with read := Function.update b.read r (b.read r + 1) },
      (Step.read b r (by simp [decided])).steps, rfl, rfl, ?_, fun n w h => .inl h⟩
    intro k w found
    cases k with
    | zero => simpa [decided] using found
    | succ k => simp at found

/-- A reader gets a list of values, none of them against what is decided. -/
theorem exists_reads (b : Log α ρ) (r : ρ) (vs : List α) (known : ∀ v ∈ vs, v ∈ b.submitted)
    (agrees : ∀ k v, vs[k]? = some v →
      b.decided (b.read r + k) = none ∨ b.decided (b.read r + k) = some v) :
    ∃ b', Reads b b' r vs := by
  induction vs generalizing b with
  | nil => exact ⟨b, .refl b, rfl, by simp, by simp, fun n v h => .inl h⟩
  | cons v vs ih =>
    obtain ⟨first, others⟩ := List.forall_mem_cons.mp known
    obtain ⟨mid, one⟩ := exists_reads_one b r v first (agrees 0 v rfl)
    have next : mid.read r = b.read r + 1 := by simp [one.read]
    obtain ⟨b', rest⟩ := ih mid (by rwa [one.submitted]) (by
      intro k w found
      rw [next]
      cases decided : mid.decided (b.read r + 1 + k) with
      | none => exact .inl rfl
      | some u =>
        rcases one.fresh _ _ decided with old | ⟨j, same, here⟩
        · have := agrees (k + 1) w found
          rw [Nat.add_right_comm] at old
          rw [← Nat.add_assoc, old] at this
          simpa using this
        · cases j with
          | zero => omega
          | succ j => simp at here)
    refine ⟨b', one.steps.trans rest.steps, rest.submitted.trans one.submitted, ?_, ?_, ?_⟩
    · rw [rest.read, next, one.read, Function.update_idem, List.length_cons, Nat.add_assoc,
        Nat.add_comm 1]
    · intro k w found
      cases k with
      | zero => exact rest.steps.decided_mono (one.got 0 w found)
      | succ k =>
        have later := rest.got k w found
        rw [next, Nat.add_assoc, Nat.add_comm 1] at later
        exact later
    · intro n w decided
      rcases rest.fresh n w decided with old | ⟨k, rfl, found⟩
      · rcases one.fresh n w old with old | ⟨k, rfl, found⟩
        · exact .inl old
        · cases k with
          | zero => exact .inr ⟨0, rfl, found⟩
          | succ k => simp at found
      · exact .inr ⟨k + 1, by omega, found⟩

end FdsPaxos.ReplicatedLog
