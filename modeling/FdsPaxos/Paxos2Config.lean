import FdsPaxos.CircularWindow

set_option autoImplicit false

namespace FdsPaxos.Paxos2Config
open CircularWindow

/-- The macros of `paxos_config.h` that the protocol reads.  The proof fields are
the checks made by `acceptor_init`, `proposer_init`, `init_pro_structs` and
`init_lea_structs`: a process does not start without them. -/
structure Config where
  nOfAcceptors : ℕ
  maxNOfProposers : ℕ
  proposerPreexecWinSize : ℕ
  proposerP2Concurrency : ℕ
  proposerArraySize : ℕ
  learnerArraySize : ℕ
  leaderMaxQueueLength : ℕ
  p1TimeoutInterval : ℕ
  p2TimeoutInterval : ℕ
  maxUdpMsgSize : ℕ
  acceptors_pos : 0 < nOfAcceptors
  acceptors_lt : nOfAcceptors < 32
  proposers_pos : 0 < maxNOfProposers
  proposerArray_pos : 0 < proposerArraySize
  proposerArray_mask : proposerArraySize &&& (proposerArraySize - 1) = 0
  preexec_lt : proposerPreexecWinSize < proposerArraySize
  learnerArray_pos : 0 < learnerArraySize
  learnerArray_mask : learnerArraySize &&& (learnerArraySize - 1) = 0

namespace Config

def default : Config where
  nOfAcceptors := 3
  maxNOfProposers := 10
  proposerPreexecWinSize := 300
  proposerP2Concurrency := 3
  proposerArraySize := 2048
  learnerArraySize := 2048
  leaderMaxQueueLength := 50
  p1TimeoutInterval := 30000
  p2TimeoutInterval := 35000
  maxUdpMsgSize := 7500
  acceptors_pos := by decide
  acceptors_lt := by decide
  proposers_pos := by decide
  proposerArray_pos := by decide
  proposerArray_mask := by decide
  preexec_lt := by decide
  learnerArray_pos := by decide
  learnerArray_mask := by decide

/-- A build with the smallest windows in the proportions that `paxos_config.h` asks for. -/
def small : Config where
  nOfAcceptors := 3
  maxNOfProposers := 10
  proposerPreexecWinSize := 4
  proposerP2Concurrency := 3
  proposerArraySize := 8
  learnerArraySize := 8
  leaderMaxQueueLength := 50
  p1TimeoutInterval := 30000
  p2TimeoutInterval := 35000
  maxUdpMsgSize := 7500
  acceptors_pos := by decide
  acceptors_lt := by decide
  proposers_pos := by decide
  proposerArray_pos := by decide
  proposerArray_mask := by decide
  preexec_lt := by decide
  learnerArray_pos := by decide
  learnerArray_mask := by decide

variable (cfg : Config)

def quorum : ℕ := cfg.nOfAcceptors / 2 + 1

def proIndex (iid : ℕ) : ℕ := iid &&& (cfg.proposerArraySize - 1)

def leaIndex (iid : ℕ) : ℕ := iid &&& (cfg.learnerArraySize - 1)

def firstBallot (proposerId : ℕ) : ℕ := cfg.maxNOfProposers + proposerId

def nextBallot (ballot : ℕ) : ℕ := ballot + cfg.maxNOfProposers

theorem quorum_pos : 0 < cfg.quorum := Nat.succ_pos _

theorem quorum_le : cfg.quorum ≤ cfg.nOfAcceptors := by
  have := cfg.acceptors_pos
  unfold quorum
  omega

theorem quorum_majority : cfg.nOfAcceptors < cfg.quorum + cfg.quorum := by
  unfold quorum
  omega

theorem proIndex_eq (iid : ℕ) : cfg.proIndex iid = iid % cfg.proposerArraySize :=
  mask_eq_mod cfg.proposerArray_pos cfg.proposerArray_mask iid

theorem leaIndex_eq (iid : ℕ) : cfg.leaIndex iid = iid % cfg.learnerArraySize :=
  mask_eq_mod cfg.learnerArray_pos cfg.learnerArray_mask iid

theorem proIndex_lt (iid : ℕ) : cfg.proIndex iid < cfg.proposerArraySize := by
  rw [proIndex_eq]
  exact Nat.mod_lt _ cfg.proposerArray_pos

theorem proIndex_injective {low i j : ℕ} (hi : low ≤ i) (hi' : i < low + cfg.proposerArraySize)
    (hj : low ≤ j) (hj' : j < low + cfg.proposerArraySize)
    (same : cfg.proIndex i = cfg.proIndex j) : i = j := by
  rw [proIndex_eq, proIndex_eq] at same
  exact window_index_injective hi hi' hj hj' same

theorem leaIndex_injective {low i j : ℕ} (hi : low ≤ i) (hi' : i < low + cfg.learnerArraySize)
    (hj : low ≤ j) (hj' : j < low + cfg.learnerArraySize)
    (same : cfg.leaIndex i = cfg.leaIndex j) : i = j := by
  rw [leaIndex_eq, leaIndex_eq] at same
  exact window_index_injective hi hi' hj hj' same

@[simp] theorem firstBallot_mod (proposerId : ℕ) :
    cfg.firstBallot proposerId % cfg.maxNOfProposers = proposerId % cfg.maxNOfProposers := by
  simp [firstBallot]

@[simp] theorem nextBallot_mod (ballot : ℕ) :
    cfg.nextBallot ballot % cfg.maxNOfProposers = ballot % cfg.maxNOfProposers := by
  simp [nextBallot]

theorem firstBallot_pos (proposerId : ℕ) : 0 < cfg.firstBallot proposerId := by
  have := cfg.proposers_pos
  unfold firstBallot
  omega

theorem lt_nextBallot (ballot : ℕ) : ballot < cfg.nextBallot ballot := by
  have := cfg.proposers_pos
  unfold nextBallot
  omega

end Config

end FdsPaxos.Paxos2Config
