import FdsPaxos.Paxos2LeaderIndices

set_option autoImplicit false

namespace FdsPaxos.Paxos2StalePromises
open TransitionRuns CircularWindow Paxos2Config Paxos2Messages Paxos2Leader Paxos2Proposer
open Paxos2LeaderMoves Paxos2LeaderIndices

/-- The promise is for another instance than the one in its slot. -/
def Stale (cfg : Config) (s : LeaderState) (pa : PrepareAck) : Prop :=
  pa.iid ≠ (s.proposerState (cfg.proIndex pa.iid)).iid

/-- Instances, values, counters and buffers are as before; only the history has grown. -/
def Untouched (s t : LeaderState) : Prop := t = { s with trace := t.trace }

/-- The promise fails a check, or counts as a duplicate in a slot without a quorum. -/
def Ignored (cfg : Config) (acceptorId : ℕ) (s : LeaderState) (pa : PrepareAck) : Prop :=
  let ii := s.proposerState (cfg.proIndex pa.iid)
  ii.status ≠ .p1Pending ∨ pa.ballot ≠ ii.myBallot ∨
    (ii.promisesBitvector &&& acceptorBit acceptorId ≠ 0 ∧ ii.promisesCount < cfg.quorum)

instance (cfg : Config) (s : LeaderState) (pa : PrepareAck) : Decidable (Stale cfg s pa) :=
  inferInstanceAs (Decidable (_ ≠ _))

instance (cfg : Config) (acceptorId : ℕ) (s : LeaderState) (pa : PrepareAck) :
    Decidable (Ignored cfg acceptorId s pa) :=
  inferInstanceAs (Decidable (_ ∨ _ ∨ _ ∧ _))

variable {cfg : Config} {acceptorId : ℕ} {s t : LeaderState} {pa : PrepareAck}

theorem Untouched.slots (h : Untouched s t) : t.proposerState = s.proposerState := by
  rw [h]

theorem withSlot_same (s : LeaderState) (slot : ℕ) : s.withSlot slot (s.proposerState slot) = s := by
  have same : setSlot s.proposerState slot (s.proposerState slot) = s.proposerState := by
    funext k
    simp only [setSlot_apply]
    split_ifs with here
    · rw [here]
    · rfl
  simp [LeaderState.withSlot, same]

theorem proSavePrepareAck_promisesCount (ii : PInstInfo) (pa : PrepareAck) (acceptorId : ℕ) :
    (ii.promisesBitvector &&& acceptorBit acceptorId ≠ 0 ∧
      proSavePrepareAck ii pa acceptorId = ii) ∨
    (ii.promisesBitvector &&& acceptorBit acceptorId = 0 ∧
      (proSavePrepareAck ii pa acceptorId).promisesCount = ii.promisesCount + 1) := by
  unfold proSavePrepareAck
  by_cases seen : ii.promisesBitvector &&& acceptorBit acceptorId = 0
  · exact .inr ⟨seen, by simp [seen]⟩
  · exact .inl ⟨seen, by simp [seen]⟩

theorem untouched_iff_ignored (cfg : Config) (acceptorId : ℕ) (s : LeaderState) (pa : PrepareAck) :
    Untouched s (handlePrepareAck cfg acceptorId s pa).1 ↔ Ignored cfg acceptorId s pa := by
  unfold handlePrepareAck Ignored
  dsimp only [LeaderState.log]
  generalize hii : s.proposerState (cfg.proIndex pa.iid) = ii
  have saved := proSavePrepareAck_promisesCount ii pa acceptorId
  split_ifs with notPending other below
  · exact iff_of_true rfl (.inl notPending)
  · exact iff_of_true rfl (.inr (.inl other))
  · rcases saved with ⟨seen, same⟩ | ⟨new, counted⟩
    · rw [same] at below ⊢
      refine iff_of_true ?_ (.inr (.inr ⟨seen, below⟩))
      rw [← hii]
      exact withSlot_same (s.log (.received acceptorId pa)) _
    · refine iff_of_false (fun untouched => ?_) (by tauto)
      have slots := congrFun untouched.slots (cfg.proIndex pa.iid)
      simp only [LeaderState.withSlot, setSlot_self, hii] at slots
      rw [slots] at counted
      omega
  · refine iff_of_false (fun untouched => ?_) ?_
    · have slots := congrFun untouched.slots (cfg.proIndex pa.iid)
      simp only [leaderBecameReady, LeaderState.log, LeaderState.withSlot, setSlot_self,
        hii] at slots
      have ready : ii.status = .p1Ready := by rw [← slots]
      exact notPending (by rw [ready]; decide)
    · rcases saved with ⟨seen, same⟩ | ⟨new, counted⟩
      · rw [same] at below
        tauto
      · tauto

/-- A promise for an instance that is not in its slot leaves everything as it is exactly
when it is ignored for another reason. -/
theorem stale_promise_harmless_iff (cfg : Config) (acceptorId : ℕ) (s : LeaderState)
    (pa : PrepareAck) :
    (Stale cfg s pa → Untouched s (handlePrepareAck cfg acceptorId s pa).1) ↔
      (Stale cfg s pa → Ignored cfg acceptorId s pa) :=
  imp_congr_right fun _ => untouched_iff_ignored cfg acceptorId s pa

/-- Instances 1 to 6 are decided elsewhere, and slot 1 of the leader passes on to instance 9. -/
def slotReused : List ProposerEvent :=
  [decidedElsewhere 0 3, decidedElsewhere 1 3, .p1Check stillClock ⟨0, 0⟩,
    decidedElsewhere 0 6, decidedElsewhere 1 6, .p1Check stillClock ⟨0, 0⟩]

/-- A late promise of acceptor 2 for instance 1 counts for instance 9. -/
theorem late_promise_counts :
    ∃ p, run (proposerStep .small) (proposerInit .small stillClock ⟨0, 0⟩ 0) slotReused =
        .running p ∧
      ¬ (Stale .small p.leader ⟨1, 10, 0, []⟩ →
        Untouched p.leader (handlePrepareAck .small 2 p.leader ⟨1, 10, 0, []⟩).1) := by
  have running : (run (proposerStep .small) (proposerInit .small stillClock ⟨0, 0⟩ 0)
      slotReused).IsRunning := by decide +kernel
  refine ⟨_, Outcome.running_of_isRunning running, fun harmless => ?_⟩
  have ignored := (untouched_iff_ignored _ _ _ _).mp (harmless (by decide +kernel))
  exact absurd ignored (by decide +kernel)

end FdsPaxos.Paxos2StalePromises
