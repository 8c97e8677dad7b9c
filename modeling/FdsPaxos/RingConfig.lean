import Mathlib.Algebra.Group.Nat.Defs
import Mathlib.Data.Nat.Notation

set_option autoImplicit false

namespace FdsPaxos.RingConfig

structure Timeval where
  tvSec : ℕ
  tvUsec : ℕ
deriving DecidableEq

def timerSetTimeout (currentTime interval : Timeval) : Timeval :=
  let totUsec := currentTime.tvUsec + interval.tvUsec
  if 1000000 ≤ totUsec then ⟨currentTime.tvSec + interval.tvSec + 1, totUsec % 1000000⟩
  else ⟨currentTime.tvSec + interval.tvSec, totUsec⟩

def timerIsExpired (deadlineTime currTime : Timeval) : Prop :=
  deadlineTime.tvSec < currTime.tvSec ∨
    (deadlineTime.tvSec = currTime.tvSec ∧ deadlineTime.tvUsec < currTime.tvUsec)

instance (deadlineTime currTime : Timeval) : Decidable (timerIsExpired deadlineTime currTime) :=
  inferInstanceAs (Decidable (_ ∨ _))

/-- What the protocol reads of a configuration file, with the checks of `validate_config`
that hold of an accepted one.  Acceptor 1 is the multicaster, the others make up the ring. -/
structure Config where
  acceptorsCount : ℕ
  quorumSize : ℕ
  workingSetSize : ℕ
  maxActiveInstances : ℕ
  preexecutionWindowSize : ℕ
  maxP2OpenPerIteration : ℕ
  p1Interval : Timeval
  p2Interval : Timeval
  retransmitRequestInterval : Timeval
  quorum_pos : 0 < quorumSize
  active_pos : 0 < maxActiveInstances
  preexecution_pos : 0 < preexecutionWindowSize
  p2Open_pos : 0 < maxP2OpenPerIteration
  workingSet_gt : preexecutionWindowSize + maxActiveInstances < workingSetSize
  workingSet_int : workingSetSize < 2 ^ 31

namespace Config

/-- Three acceptors, with the smallest windows that are accepted and open any instance. -/
def small : Config where
  acceptorsCount := 3
  quorumSize := 2
  workingSetSize := 4
  maxActiveInstances := 1
  preexecutionWindowSize := 2
  maxP2OpenPerIteration := 12
  p1Interval := ⟨1, 0⟩
  p2Interval := ⟨1, 0⟩
  retransmitRequestInterval := ⟨0, 100000⟩
  quorum_pos := by decide
  active_pos := by decide
  preexecution_pos := by decide
  p2Open_pos := by decide
  workingSet_gt := by decide
  workingSet_int := by decide

variable (cfg : Config)

/-- The sizes of the circular buffers of acceptors and learners, and of the multicaster. -/
def ssmSize : ℕ := cfg.workingSetSize

def msmSize : ℕ := cfg.workingSetSize * 2

theorem workingSet_pos : 0 < cfg.workingSetSize :=
  Nat.lt_of_le_of_lt (Nat.zero_le _) cfg.workingSet_gt

/-- The acceptor whose messages acceptor `a` receives from the ring. -/
def predecessor (a : ℕ) : ℕ :=
  if a = 1 then cfg.acceptorsCount else a - 1

/-- The acceptors that vote: all but the multicaster. -/
def InRing (a : ℕ) : Prop :=
  2 ≤ a ∧ a ≤ cfg.acceptorsCount

instance (a : ℕ) : Decidable (cfg.InRing a) :=
  inferInstanceAs (Decidable (_ ∧ _))

/-- A quorum is a majority of the acceptors that vote. -/
def MajorityQuorum : Prop :=
  cfg.acceptorsCount - 1 < 2 * cfg.quorumSize

instance : Decidable cfg.MajorityQuorum :=
  inferInstanceAs (Decidable (_ < _))

end Config

end FdsPaxos.RingConfig
