import FdsPaxos.Paxos2Leader
import FdsPaxos.RadixPairs

set_option autoImplicit false

namespace FdsPaxos.Paxos2Deadlines
open Paxos2Leader RadixPairs

def Normalised (t : Timeval) : Prop := t.tvUsec < 1000000

instance (t : Timeval) : Decidable (Normalised t) := inferInstanceAs (Decidable (_ < _))

def micros (t : Timeval) : ℕ := t.tvSec * 1000000 + t.tvUsec

/-- `deadline` is the moment `interval` microseconds after `now`. -/
structure DeadlineMet (now : Timeval) (interval : ℕ) (deadline : Timeval) : Prop where
  normalised : Normalised deadline
  sum : micros deadline = micros now + interval
  expires : ∀ t, Normalised t →
    (leaderIsExpired deadline t ↔ micros now + interval < micros t)

theorem isDigit_of_normalised {t : Timeval} (h : Normalised t) :
    IsDigit 1000000 (t.tvUsec : ℤ) := by
  unfold Normalised at h
  exact ⟨by omega, by omega⟩

theorem value_eq_micros (t : Timeval) : value 1000000 t.tvSec t.tvUsec = micros t := by
  simp [value, micros]

theorem leaderIsExpired_iff {deadline t : Timeval} (h : Normalised deadline)
    (h' : Normalised t) : leaderIsExpired deadline t ↔ micros deadline < micros t := by
  have order : (deadline.tvSec : ℤ) < t.tvSec ∨
      ((deadline.tvSec : ℤ) = t.tvSec ∧ (deadline.tvUsec : ℤ) < t.tvUsec) ↔
        value 1000000 deadline.tvSec deadline.tvUsec < value 1000000 t.tvSec t.tvUsec :=
    lexicographic_iff (isDigit_of_normalised h) (isDigit_of_normalised h')
  rw [value_eq_micros, value_eq_micros] at order
  unfold leaderIsExpired
  omega

variable (now : Timeval) (interval : ℕ)

theorem leaderSetExpiration_normalised : Normalised (leaderSetExpiration now interval) :=
  Nat.mod_lt _ (by decide)

theorem micros_leaderSetExpiration (h : Normalised now)
    (carried : now.tvUsec + interval % 1000000 ≠ 1000000) :
    micros (leaderSetExpiration now interval) = micros now + interval := by
  unfold Normalised at h
  simp only [leaderSetExpiration, micros]
  split <;> omega

theorem micros_leaderSetExpiration_boundary
    (boundary : now.tvUsec + interval % 1000000 = 1000000) :
    micros (leaderSetExpiration now interval) + 1000000 = micros now + interval := by
  simp only [leaderSetExpiration, micros, boundary]
  simp
  omega

theorem deadline_met_iff (h : Normalised now) :
    DeadlineMet now interval (leaderSetExpiration now interval) ↔
      now.tvUsec + interval % 1000000 ≠ 1000000 := by
  have normalised := leaderSetExpiration_normalised now interval
  constructor
  · intro met boundary
    have early := micros_leaderSetExpiration_boundary now interval boundary
    have := met.sum
    omega
  · intro carried
    have sum := micros_leaderSetExpiration now interval h carried
    refine ⟨normalised, sum, fun t ht => ?_⟩
    rw [leaderIsExpired_iff normalised ht, sum]

theorem deadline_met_iff_full_second :
    DeadlineMet ⟨1, 0⟩ 30000 (leaderSetExpiration ⟨1, 0⟩ 30000) ↔
      0 + 30000 % 1000000 ≠ 1000000 :=
  deadline_met_iff ⟨1, 0⟩ 30000 (by decide)

/-- The interval of phase 1, set 30 milliseconds before a full second. -/
theorem deadline_a_second_early :
    Normalised ⟨1, 970000⟩ ∧
      ¬ DeadlineMet ⟨1, 970000⟩ 30000 (leaderSetExpiration ⟨1, 970000⟩ 30000) :=
  ⟨by decide, fun met => absurd met.sum (by decide)⟩

end FdsPaxos.Paxos2Deadlines
