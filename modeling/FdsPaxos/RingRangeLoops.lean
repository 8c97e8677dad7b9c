import FdsPaxos.CounterLoops
import FdsPaxos.RingMulticasterMoves

set_option autoImplicit false

namespace FdsPaxos.RingRangeLoops
open TransitionRuns CircularWindow CounterLoops RingConfig RingMessages RingMcasterStorage
open RingMulticaster RingMulticasterMoves

variable {cfg : Config}

theorem exists_records (cfg : Config) (record : ℕ → McasterInstanceRecord) (low n : ℕ)
    (fits : n ≤ cfg.msmSize) :
    ∃ s : Mcaster, ∀ i, low ≤ i → i < low + n → s.record cfg i = record i := by
  induction n with
  | zero => exact ⟨multicasterInit, fun i above below => by omega⟩
  | succ n ih =>
    obtain ⟨s, chosen⟩ := ih (by omega)
    refine ⟨s.withRecord (msmSlot cfg (low + n)) (record (low + n)), fun i above below => ?_⟩
    by_cases last : i = low + n
    · rw [last, record_withRecord]
    · have apart : msmSlot cfg i ≠ msmSlot cfg (low + n) := by
        intro same
        exact last (window_index_injective above (by omega) (by omega) (by omega) same)
      rw [← chosen i above (by omega)]
      exact setSlot_of_ne _ _ _ _ apart

/-- A loop whose turns run on records that satisfy `P`, and write to these alone. -/
theorem loop_runs {body : Mcaster → ℕ → McasterOutcome} {P : ℕ → McasterInstanceRecord → Prop}
    (turn : ∀ s i, P i (s.record cfg i) →
      ∃ mir, body s i = .running (s.withRecord (msmSlot cfg i) mir))
    (n low : ℕ) (s : Mcaster) (fits : n ≤ cfg.msmSize)
    (met : ∀ i, low ≤ i → i < low + n → P i (s.record cfg i)) :
    (Outcome.fold body s (List.range' low n)).IsRunning := by
  induction n generalizing low s with
  | zero => trivial
  | succ n ih =>
    obtain ⟨mir, ran⟩ := turn s low (met low le_rfl (by omega))
    rw [List.range'_succ, Outcome.fold_cons, ran, Outcome.bind_running]
    refine ih (low + 1) _ (by omega) fun i above below => ?_
    have apart : msmSlot cfg i ≠ msmSlot cfg low := by
      intro same
      have : i = low := window_index_injective (by omega) (by omega) le_rfl (by omega) same
      omega
    have kept : (s.withRecord (msmSlot cfg low) mir).record cfg i = s.record cfg i :=
      setSlot_of_ne _ _ _ _ apart
    rw [kept]
    exact met i (by omega) (by omega)

theorem open_runs (ballot : Ballot) (s : Mcaster) (i : ℕ)
    (unused : (s.record cfg i).instNumber = 0) :
    ∃ mir, mcasterOpenInstanceP1 cfg ballot s i = .running (s.withRecord (msmSlot cfg i) mir) := by
  have got : mcasterStorageGet cfg s i = .running (s.withRecord (msmSlot cfg i)
      { s.record cfg i with instNumber := i, status := .ready }) := if_pos unused
  rw [mcasterOpenInstanceP1, got, Outcome.bind_running]
  simp only [record_withRecord, if_true]
  exact ⟨_, by simp only [Mcaster.withRecord, setSlot_setSlot]; rfl⟩

theorem complete_runs (s : Mcaster) (i : ℕ) (positive : i ≠ 0)
    (own : (s.record cfg i).instNumber = i) (pending : (s.record cfg i).status = .p1Pending) :
    ∃ mir, mcasterCompleteP1 cfg s i = .running (s.withRecord (msmSlot cfg i) mir) := by
  rw [mcasterCompleteP1, mcasterStorageGet_of_own (Nat.pos_of_ne_zero positive) own,
    Outcome.bind_running]
  exact ⟨_, if_pos pending⟩

section Ranges

variable {low high : UInt64}

theorem range_fits (near : high.toNat - low.toNat < cfg.workingSetSize) :
    high.toNat + 1 - low.toNat ≤ cfg.msmSize := by
  unfold Config.msmSize
  omega

theorem open_range_runs (low high : UInt64) (ballot : Ballot)
    (near : high.toNat - low.toNat < cfg.workingSetSize) :
    ∃ s, (Outcome.fold (mcasterOpenInstanceP1 cfg ballot) s (range low high)).IsRunning := by
  obtain ⟨s, unused⟩ := exists_records cfg (fun _ => multicasterInit.instancesArray 0)
    low.toNat _ (range_fits near)
  refine ⟨s, loop_runs (P := fun _ mir => mir.instNumber = 0) (open_runs ballot) _ _ s
    (range_fits near) fun i above below => ?_⟩
  rw [unused i above below]
  rfl

theorem complete_range_runs (low high : UInt64)
    (near : high.toNat - low.toNat < cfg.workingSetSize)
    (positive : 0 < low.toNat) :
    ∃ s, (Outcome.fold (mcasterCompleteP1 cfg) s (range low high)).IsRunning := by
  obtain ⟨s, chosen⟩ := exists_records cfg
    (fun i => { multicasterInit.instancesArray 0 with instNumber := i, status := .p1Pending })
    low.toNat _ (range_fits near)
  refine ⟨s, loop_runs (P := fun i mir => i ≠ 0 ∧ mir.instNumber = i ∧ mir.status = .p1Pending)
    (fun s i met => complete_runs s i met.1 met.2.1 met.2.2) _ _ s (range_fits near)
    fun i above below => ?_⟩
  rw [chosen i above below]
  exact ⟨by omega, rfl, rfl⟩

theorem lt_of_open_visits {ballot : Ballot} (near : high.toNat - low.toNat < cfg.workingSetSize)
    (visits : Visits (mcasterOpenInstanceP1 cfg ballot) low high) : high.toNat < 2 ^ 32 - 1 := by
  obtain ⟨s, runs⟩ := open_range_runs low high ballot near
  exact lt_of_visits visits runs

theorem lt_of_complete_visits (near : high.toNat - low.toNat < cfg.workingSetSize)
    (visits : Visits (mcasterCompleteP1 cfg) low high) : high.toNat < 2 ^ 32 - 1 := by
  by_contra large
  have int := cfg.workingSet_int
  obtain ⟨s, runs⟩ := complete_range_runs low high near (by omega)
  exact large (lt_of_visits visits runs)

end Ranges

theorem range_loops_visit_iff (cfg : Config) (ballot : Ballot) (fromIid toIid : UInt64)
    (ordered : fromIid ≤ toIid) (near : toIid.toNat - fromIid.toNat < cfg.workingSetSize) :
    (Visits (mcasterOpenInstanceP1 cfg ballot) fromIid toIid ↔ toIid.toNat < 2 ^ 32 - 1) ∧
      (Visits (mcasterCompleteP1 cfg) fromIid toIid ↔ toIid.toNat < 2 ^ 32 - 1) :=
  ⟨⟨lt_of_open_visits near, visits_of_lt ordered⟩,
    ⟨lt_of_complete_visits near, visits_of_lt ordered⟩⟩

theorem range_loops_visit_iff_first :
    (Visits (mcasterOpenInstanceP1 Config.small 0x10100) 1 2 ↔ 2 < 2 ^ 32 - 1) ∧
      (Visits (mcasterCompleteP1 Config.small) 1 2 ↔ 2 < 2 ^ 32 - 1) :=
  range_loops_visit_iff Config.small 0x10100 1 2 (by decide) (by decide)

/-- Instance 2^32 alone: both counters start at 0 and never pass it. -/
theorem range_loops_beyond_counter :
    ¬ Visits (mcasterOpenInstanceP1 Config.small 0x10100) 4294967296 4294967296 ∧
      ¬ Visits (mcasterCompleteP1 Config.small) 4294967296 4294967296 :=
  ⟨fun visits => absurd (lt_of_open_visits (by decide) visits) (by decide),
    fun visits => absurd (lt_of_complete_visits (by decide) visits) (by decide)⟩

end FdsPaxos.RingRangeLoops
