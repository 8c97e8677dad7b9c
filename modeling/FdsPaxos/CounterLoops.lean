import FdsPaxos.TransitionRuns
import Mathlib.Algebra.Group.Nat.Defs
import Mathlib.Tactic.Common

set_option autoImplicit false

/-! Loops whose counter is narrower than the bound it is compared with. -/

namespace FdsPaxos.CounterLoops
open TransitionRuns

variable {σ α : Type*} {body : σ → ℕ → Outcome α σ} {bound : UInt64}

/-- `for (; i <= bound; i++)` with a 32-bit counter and a 64-bit bound: the numbers that are
visited from `i` on, and how the loop ends.  A loop that goes on for ever has no derivation. -/
inductive ForRange (body : σ → ℕ → Outcome α σ) (bound : UInt64) :
    UInt32 → σ → List ℕ → Outcome α σ → Prop where
  | finished {i : UInt32} {s : σ} (beyond : bound < i.toUInt64) :
    ForRange body bound i s [] (.running s)
  | stopped {i : UInt32} {s t : σ} {a : α} (within : i.toUInt64 ≤ bound)
    (failed : body s i.toNat = .aborted a t) : ForRange body bound i s [i.toNat] (.aborted a t)
  | turn {i : UInt32} {s t : σ} {visited : List ℕ} {o : Outcome α σ} (within : i.toUInt64 ≤ bound)
    (ran : body s i.toNat = .running t) (rest : ForRange body bound (i + 1) t visited o) :
    ForRange body bound i s (i.toNat :: visited) o

/-- The counter of a loop that ends can exceed the bound. -/
theorem bound_lt_of_running {i : UInt32} {s t : σ} {visited : List ℕ}
    (h : ForRange body bound i s visited (.running t)) : bound.toNat < 2 ^ 32 - 1 := by
  generalize ends : Outcome.running t = o at h
  induction h with
  | @finished i s beyond =>
    have := i.toNat_lt
    have := UInt64.lt_iff_toNat_lt.mp beyond
    rw [UInt32.toNat_toUInt64] at this
    omega
  | stopped within failed => exact absurd ends (by simp)
  | turn within ran rest ih => exact ih ends

theorem within_iff {i : UInt32} : i.toUInt64 ≤ bound ↔ i.toNat ≤ bound.toNat := by
  rw [UInt64.le_iff_toNat_le, UInt32.toNat_toUInt64]

/-- The turns that are left, and the loop with a counter of any width. -/
theorem forRange_fold (body : σ → ℕ → Outcome α σ) (small : bound.toNat < 2 ^ 32 - 1) (n : ℕ)
    (i : UInt32) (s : σ) (left : i.toNat + n = bound.toNat + 1) :
    ∃ visited, visited <+: List.range' i.toNat n ∧
      ForRange body bound i s visited (Outcome.fold body s (List.range' i.toNat n)) ∧
      ((Outcome.fold body s (List.range' i.toNat n)).IsRunning →
        visited = List.range' i.toNat n) := by
  induction n generalizing i s with
  | zero =>
    refine ⟨[], List.nil_prefix, .finished ?_, fun _ => rfl⟩
    rw [UInt64.lt_iff_toNat_lt, UInt32.toNat_toUInt64]
    omega
  | succ n ih =>
    have within : i.toUInt64 ≤ bound := within_iff.mpr (by omega)
    have next : (i + 1).toNat = i.toNat + 1 := by
      simp
      omega
    rw [List.range'_succ, Outcome.fold_cons]
    cases turn : body s i.toNat with
    | aborted a t =>
      exact ⟨[i.toNat], by simp, .stopped within turn, fun running => running.elim⟩
    | running t =>
      obtain ⟨visited, initial, rest, all⟩ := ih (i + 1) t (by omega)
      rw [next] at initial rest all
      refine ⟨i.toNat :: visited, List.cons_prefix_cons.mpr ⟨rfl, initial⟩,
        .turn within turn rest, fun running => ?_⟩
      rw [all running]

def range (low high : UInt64) : List ℕ := List.range' low.toNat (high.toNat + 1 - low.toNat)

/-- From every state the loop ends, its numbers are those of the range in their order up to
the first turn that fails, and all of them when none does. -/
def Visits (body : σ → ℕ → Outcome α σ) (low high : UInt64) : Prop :=
  ∀ s, ∃ visited, visited <+: range low high ∧
    ForRange body high low.toUInt32 s visited (Outcome.fold body s (range low high)) ∧
    ((Outcome.fold body s (range low high)).IsRunning → visited = range low high)

variable {low high : UInt64}

theorem visits_of_lt (ordered : low ≤ high) (small : high.toNat < 2 ^ 32 - 1) :
    Visits body low high := by
  have le := UInt64.le_iff_toNat_le.mp ordered
  have same : low.toUInt32.toNat = low.toNat := by
    rw [UInt64.toNat_toUInt32]
    omega
  intro s
  have loop := forRange_fold body small (high.toNat + 1 - low.toNat) low.toUInt32 s
    (by omega)
  rwa [same] at loop

theorem lt_of_visits (visits : Visits body low high) {s : σ}
    (runs : (Outcome.fold body s (range low high)).IsRunning) : high.toNat < 2 ^ 32 - 1 := by
  obtain ⟨visited, -, loop, -⟩ := visits s
  rw [Outcome.running_of_isRunning runs] at loop
  exact bound_lt_of_running loop

end FdsPaxos.CounterLoops
