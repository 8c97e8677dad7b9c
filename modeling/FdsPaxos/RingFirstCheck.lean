import FdsPaxos.RingOneLife
import FdsPaxos.RingPhase1Counters
import FdsPaxos.RingRangeReplies

set_option autoImplicit false

namespace FdsPaxos.RingFirstCheck
open TransitionRuns CircularWindow RingConfig RingMessages RingMcasterStorage RingMulticaster
open RingMulticasterMoves RingDeliveryQueue RingWorld RingPhase1Counters
open RingOneLife (LearnerWithin learnerWithin_init dqDeliverLoop_asks)
open RingRangeReplies (WaitsFor)

variable {cfg : Config} {s t u : Mcaster} {i n k slot : ℕ}

def idle (clock : Timeval) (queue : List Value) : Mcaster :=
  { multicasterInit with mcasterClock := clock, queue := queue }

def Waiting (cfg : Config) (b : Ballot) (n : ℕ) (s : Mcaster) : Prop :=
  ∀ i, 0 < i → i ≤ n → WaitsFor cfg s b i

def UnusedAbove (n : ℕ) (s : Mcaster) : Prop :=
  ∀ slot, n < slot → (s.instancesArray slot).instNumber = 0

theorem msmSlot_of_lt (lt : i < cfg.msmSize) : msmSlot cfg i = i := Nat.mod_eq_of_lt lt

theorem mcasterOpenInstanceP1_runs (b : Ballot) (unused : UnusedAbove n s)
    (waiting : Waiting cfg b n s) (fits : n + 1 < cfg.msmSize) :
    ∃ t, mcasterOpenInstanceP1 cfg b s (n + 1) = .running t ∧ UnusedAbove (n + 1) t ∧
      Waiting cfg b (n + 1) t := by
  have home : msmSlot cfg (n + 1) = n + 1 := msmSlot_of_lt fits
  have free : (s.record cfg (n + 1)).instNumber = 0 := by
    rw [Mcaster.record, home]
    exact unused _ (Nat.lt_succ_self n)
  have got : mcasterStorageGet cfg s (n + 1) = .running (s.withRecord (msmSlot cfg (n + 1))
      { s.record cfg (n + 1) with instNumber := n + 1, status := .ready }) := if_pos free
  rw [mcasterOpenInstanceP1, got, Outcome.bind_running]
  simp only [record_withRecord, if_true]
  refine ⟨_, rfl, fun slot above => ?_, fun i positive le => ?_⟩
  · simp only [Mcaster.withRecord, setSlot_setSlot]
    rw [home, setSlot_of_ne _ _ _ _ (by omega)]
    exact unused slot (by omega)
  · rcases Nat.lt_or_ge n i with last | within
    · obtain rfl : i = n + 1 := by omega
      exact ⟨by rw [record_withRecord], by rw [record_withRecord], by rw [record_withRecord]⟩
    · have other : msmSlot cfg i ≠ msmSlot cfg (n + 1) := by
        rw [home, msmSlot_of_lt (by omega)]
        omega
      obtain ⟨own, pending, ballot⟩ := waiting i positive within
      have kept (mir : McasterInstanceRecord) : ((s.withRecord (msmSlot cfg (n + 1))
          { s.record cfg (n + 1) with instNumber := n + 1, status := .ready }).withRecord
            (msmSlot cfg (n + 1)) mir).record cfg i = s.record cfg i := by
        simp only [Mcaster.record, Mcaster.withRecord, setSlot_setSlot]
        exact setSlot_of_ne _ _ _ _ other
      exact ⟨by rw [kept]; exact own, by rw [kept]; exact pending, by rw [kept]; exact ballot⟩

theorem openLoop_runs (b : Ballot) (unused : UnusedAbove n s) (waiting : Waiting cfg b n s)
    (fits : n + k < cfg.msmSize) :
    ∃ t, Outcome.fold (mcasterOpenInstanceP1 cfg b) s (List.range' (n + 1) k) = .running t ∧
      Waiting cfg b (n + k) t := by
  induction k generalizing s n with
  | zero => exact ⟨s, rfl, waiting⟩
  | succ k ih =>
    obtain ⟨u, first, unused', waiting'⟩ :=
      mcasterOpenInstanceP1_runs b unused waiting (by omega)
    obtain ⟨t, rest, waits⟩ := ih unused' waiting' (by omega)
    refine ⟨t, ?_, by rwa [Nat.add_right_comm] at waits⟩
    rw [List.range'_succ, Outcome.fold_cons, first, Outcome.bind_running]
    exact rest

theorem Waiting.rewritten {b : Ballot} {mir : McasterInstanceRecord} (waiting : Waiting cfg b n s)
    (slots : t.instancesArray = setSlot s.instancesArray slot mir)
    (own : mir.instNumber = (s.instancesArray slot).instNumber)
    (status : mir.status = (s.instancesArray slot).status)
    (ballot : mir.ballot = (s.instancesArray slot).ballot) : Waiting cfg b n t := by
  intro i positive le
  have waits := waiting i positive le
  rcases eq_or_ne (msmSlot cfg i) slot with here | other
  · subst here
    have record : t.record cfg i = mir := by rw [Mcaster.record, slots, setSlot_self]
    constructor <;> rw [record]
    · exact own.trans waits.own
    · exact status.trans waits.pending
    · exact ballot.trans waits.ballot
  · have record : t.record cfg i = s.record cfg i := by
      rw [Mcaster.record, slots, setSlot_of_ne _ _ _ _ other]
      rfl
    constructor <;> rw [record]
    · exact waits.own
    · exact waits.pending
    · exact waits.ballot

theorem mcasterCheckExpired_runs {b : Ballot} (waiting : Waiting cfg b n s) (nonzero : b ≠ 0)
    (positive : 0 < i) (le : i ≤ n) : ∃ t, mcasterCheckExpired cfg s i = .running t ∧
      Waiting cfg b n t ∧ SameIndices s t := by
  obtain ⟨own, pending, ballot⟩ := waiting i positive le
  rw [mcasterCheckExpired, mcasterStorageGet_of_own positive own, Outcome.bind_running]
  simp only [pending, true_and, reduceCtorEq, false_and, if_false]
  split_ifs with expired
  · have pending : (s.instancesArray (msmSlot cfg i)).status = .p1Pending := pending
    unfold mcasterDoPhase1
    dsimp only
    rw [if_neg (show (s.instancesArray (msmSlot cfg i)).ballot ≠ 0 from fun zero =>
      nonzero (ballot.symm.trans zero))]
    exact ⟨_, rfl, waiting.rewritten rfl rfl pending.symm rfl, ⟨rfl, rfl, rfl, rfl⟩⟩
  · exact ⟨s, rfl, waiting, ⟨rfl, rfl, rfl, rfl⟩⟩

theorem checkLoop_runs {b : Ballot} (nonzero : b ≠ 0) {iids : List ℕ}
    (waiting : Waiting cfg b n s) (within : ∀ i ∈ iids, 0 < i ∧ i ≤ n) :
    ∃ t, Outcome.fold (mcasterCheckExpired cfg) s iids = .running t ∧
      Waiting cfg b n t ∧ SameIndices s t := by
  induction iids generalizing s with
  | nil => exact ⟨s, rfl, waiting, ⟨rfl, rfl, rfl, rfl⟩⟩
  | cons i iids ih =>
    obtain ⟨⟨positive, le⟩, rest⟩ := List.forall_mem_cons.mp within
    obtain ⟨u, first, waits, same⟩ := mcasterCheckExpired_runs waiting nonzero positive le
    obtain ⟨t, loop, waits', same'⟩ := ih waits rest
    refine ⟨t, ?_, waits', same.trans same'⟩
    rw [Outcome.fold_cons, first, Outcome.bind_running]
    exact loop

theorem openP2_waits {b : Ballot} (waits : WaitsFor cfg s b 1) (none : s.highestOpenIid = 0)
    (turns : ℕ) : mcasterOpenNewInstancesP2 cfg turns s = .running s := by
  cases turns with
  | zero => rfl
  | succ turns =>
    have next : mcasterNextValue cfg s = .running (s, Option.none) := by
      unfold mcasterNextValue
      dsimp only
      rw [none, Nat.zero_add, mcasterStorageGet_of_own Nat.one_pos waits.own]
      split_ifs
      · rfl
      · rfl
      · rfl
      · exact if_pos waits.pending
    rw [mcasterOpenNewInstancesP2, next]
    rfl

def firstBallot : Ballot := makeFirstBallot selfAcceptorId incarnationNumber.toUInt32

theorem firstOpen_runs (cfg : Config) (clock : Timeval) (queue : List Value)
    (wide : 2 ≤ cfg.preexecutionWindowSize) :
    ∃ t, mcasterOpenNewInstancesP1 cfg (idle clock queue) = .running t ∧
      Waiting cfg firstBallot cfg.preexecutionWindowSize t ∧
      t.highestOpenIid = 0 ∧ t.highestClosedIid = 0 ∧
      t.p1HighestOpen = cfg.preexecutionWindowSize := by
  have gt := cfg.workingSet_gt
  have fits : 0 + cfg.preexecutionWindowSize < cfg.msmSize := by
    unfold Config.msmSize
    omega
  have empty : Waiting cfg firstBallot 0 (idle clock queue) := fun i positive le => by omega
  obtain ⟨u, loop, waiting⟩ := openLoop_runs firstBallot (fun _ _ => rfl) empty fits
  have same := (openLoop_takes loop).2.2
  rw [Nat.zero_add] at waiting
  have none : ((idle clock queue).p1ReadyCount + (idle clock queue).p1ReadyCount).toNat = 0 := rfl
  have first : (idle clock queue).p1HighestOpen = 0 := rfl
  refine ⟨mcasterAddOpen (mcasterDoPhase1Range u 1 cfg.preexecutionWindowSize firstBallot)
    cfg.preexecutionWindowSize, ?_, ?_, same.highestOpen, same.closed, ?_⟩
  · change Outcome.fold (mcasterOpenInstanceP1 cfg
      (makeFirstBallot selfAcceptorId incarnationNumber.toUInt32)) _ _ = _ at loop
    unfold mcasterOpenNewInstancesP1
    dsimp only
    rw [none, if_neg (by omega), Nat.sub_zero, first, loop, Outcome.bind_running, same.p1Highest,
      first, Nat.zero_add, Nat.zero_add]
    rfl
  · intro i positive le
    obtain ⟨own, pending, ballot⟩ := waiting i positive le
    exact ⟨own, pending, ballot⟩
  · exact (congrArg (· + _) same.p1Highest).trans (Nat.zero_add _)

theorem firstCheck_runs (cfg : Config) (now : ℕ → Timeval) (clock : Timeval)
    (queue : List Value) (wide : 2 ≤ cfg.preexecutionWindowSize) :
    ∃ t, onMcasterPeriodicCheck cfg now (idle clock queue) = .running t ∧
      (t.record cfg 1).status = .p1Pending := by
  obtain ⟨u, opened, waiting, highestOpen, closed, p1Highest⟩ :=
    firstOpen_runs cfg (now 0) queue wide
  have waiting : Waiting cfg firstBallot cfg.preexecutionWindowSize
      (mcasterUpdateWallclock u (now 1)) := by
    intro i positive le
    obtain ⟨own, pending, ballot⟩ := waiting i positive le
    exact ⟨own, pending, ballot⟩
  have within : ∀ i ∈ List.range' (u.highestClosedIid + 1)
      (max u.highestOpenIid u.p1HighestOpen - u.highestClosedIid),
      0 < i ∧ i ≤ cfg.preexecutionWindowSize := by
    intro i hi
    have bounds := List.mem_range'_1.mp hi
    rw [closed, highestOpen, p1Highest] at bounds
    omega
  obtain ⟨t, checked, waits, same⟩ := checkLoop_runs (by decide) waiting within
  obtain ⟨own, pending, ballot⟩ := waits 1 Nat.one_pos (by omega)
  have waits : WaitsFor cfg (mcasterUpdateWallclock t (now 2)) firstBallot 1 :=
    ⟨own, pending, ballot⟩
  refine ⟨mcasterUpdateWallclock t (now 2), ?_, pending⟩
  have started : mcasterCheckP1 cfg now (idle clock queue) = .running t := by
    unfold mcasterCheckP1
    change (mcasterOpenNewInstancesP1 cfg (idle (now 0) queue)).bind _ = _
    rw [opened, Outcome.bind_running]
    exact checked
  rw [onMcasterPeriodicCheck, started, Outcome.bind_running]
  exact openP2_waits waits (same.highestOpen.trans highestOpen) _

section Idle

variable {w : RingState} {e : RingEvent}

/-- No instance was opened yet, so no message is on its way. -/
structure Idle (w : RingState) : Prop where
  mcaster : ∃ clock queue, w.mcaster = .running (idle clock queue)
  acceptors : ∀ a, (w.acceptors a).state.toSuccessor = []
  learners : ∀ l, LearnerWithin 0 (w.learners l).state

theorem idle_init (late : ℕ → Bool) : Idle (ringInit late) where
  mcaster := ⟨⟨0, 0⟩, [], rfl⟩
  acceptors := fun _ => rfl
  learners := fun l => learnerWithin_init (late l)

theorem Idle.ringSent (h : Idle w) (a : ℕ) : ringSent cfg w a = [] := by
  obtain ⟨clock, queue, running⟩ := h.mcaster
  unfold RingWorld.ringSent
  split_ifs
  · rw [running]
    rfl
  · exact h.acceptors _

theorem Idle.mcast (h : Idle w) : w.mcaster.state.mcast = [] := by
  obtain ⟨clock, queue, running⟩ := h.mcaster
  rw [running]
  rfl

theorem Idle.requested (h : Idle w) {l : ℕ} {msg : Request}
    (asked : msg ∈ (w.learners l).state.requests) : requested msg = [] := by
  refine List.eq_nil_iff_forall_not_mem.mpr fun i hi => ?_
  obtain ⟨positive, le⟩ := (h.learners l).requests msg asked i hi
  omega

theorem Idle.request (h : Idle w) {l : ℕ} {msg : Request}
    (asked : msg ∈ (w.learners l).state.requests) (s : Mcaster) :
    mcasterHandleRequest cfg s msg = .running s := by
  have none := h.requested asked
  cases msg with
  | mapRequest iids =>
    obtain rfl : iids = [] := none
    rfl
  | chosenvalRequest iids =>
    obtain rfl : iids = [] := none
    rfl

theorem idle_step (h : Idle w) (unchecked : ∀ now, e ≠ .periodicCheck now) :
    Idle (ringStep cfg w e) := by
  unfold ringStep
  split_ifs with possible
  · obtain ⟨clock, queue, running⟩ := h.mcaster
    have silent (a : ℕ) (msg : RingMsg) : msg ∉ RingWorld.ringSent cfg w a := by
      rw [h.ringSent]
      exact List.not_mem_nil
    have unsent (msg : McastMsg) : msg ∉ w.mcaster.state.mcast := by
      rw [h.mcast]
      exact List.not_mem_nil
    cases e with
    | submit value =>
      exact ⟨⟨clock, cvmSaveValue queue value, by rw [running]; rfl⟩, h.acceptors, h.learners⟩
    | periodicCheck now => exact absurd rfl (unchecked now)
    | toMcaster msg now => exact absurd possible (silent 1 msg)
    | request l msg now =>
      refine ⟨⟨now, queue, ?_⟩, h.acceptors, h.learners⟩
      rw [running]
      exact h.request possible _
    | restart => exact ⟨⟨⟨0, 0⟩, [], by rw [running]; rfl⟩, h.acceptors, h.learners⟩
    | toAcceptor a msg stack => exact absurd possible.2 (silent a msg)
    | mcastAcceptor a msg => exact absurd possible.2 (unsent msg)
    | mcastLearner l msg => exact absurd possible (unsent msg)
    | deliverLoop l =>
      refine ⟨⟨clock, queue, running⟩, h.acceptors, fun l' => ?_⟩
      change LearnerWithin 0 (ite (l' = l) _ (w.learners l')).state
      split_ifs
      · exact Outcome.bind_kept (h.learners l') fun q _ kept =>
          kept.of_asks (dqDeliverLoop_asks q)
      · exact h.learners l'
    | gapCheck l now =>
      refine ⟨⟨clock, queue, running⟩, h.acceptors, fun l' => ?_⟩
      change LearnerWithin 0 (ite (l' = l) _ (w.learners l')).state
      split_ifs
      · exact Outcome.bind_kept (h.learners l') fun q _ kept => kept.periodicCheck now
      · exact h.learners l'
  · exact h

theorem counted_idle (clock : Timeval) (queue : List Value) : Counted cfg (idle clock queue) :=
  (counted_init cfg).keeps ⟨rfl, rfl, rfl, rfl, fun _ => .refl _⟩

theorem countersRight_idle (clock : Timeval) (queue : List Value) :
    CountersRight cfg (idle clock queue) := by
  refine (counted_idle clock queue).countersRight_iff.mpr (slotCount_eq_zero.mpr fun slot _ => ?_)
  simp [idle, multicasterInit]

theorem Idle.wrong_after_check (h : Idle w) (now : ℕ → Timeval) :
    ¬ Phase1Right cfg w (.periodicCheck now) := by
  obtain ⟨clock, queue, running⟩ := h.mcaster
  rintro ⟨counters, window⟩
  by_cases wide : 2 ≤ cfg.preexecutionWindowSize
  · obtain ⟨t, checked, pending⟩ := firstCheck_runs cfg now clock queue wide
    have after : (ringStep cfg w (.periodicCheck now)).mcaster = .running t := by
      unfold ringStep
      rw [if_pos (show Possible cfg w (.periodicCheck now) from trivial)]
      change w.mcaster.bind _ = _
      rw [running]
      exact checked
    have counted : Counted cfg t :=
      Outcome.Ensures.of_running ((counted_idle clock queue).periodicCheck now) checked
    have none := counted.countersRight_iff.mp (counters t after)
    have gt := cfg.workingSet_gt
    have inside : msmSlot cfg 1 < cfg.msmSize := Nat.mod_lt _ (by unfold Config.msmSize; omega)
    exact slotCount_eq_zero.mp none _ inside pending
  · have opens : mcasterOpenNewInstancesP1 cfg (mcasterUpdateWallclock (idle clock queue) (now 0)) =
        .running (idle (now 0) queue) := by
      have narrow : cfg.preexecutionWindowSize / 2 = 0 := by omega
      unfold mcasterOpenNewInstancesP1
      dsimp only
      rw [narrow, if_pos (Nat.zero_le _)]
      rfl
    have half := (window _ _ running opens).half
    rw [(counted_idle (now 0) queue).prepared] at half
    have positive := cfg.preexecution_pos
    change cfg.preexecutionWindowSize ≤ 2 * 0 at half
    omega

theorem Idle.right_iff (h : Idle w) (e : RingEvent) :
    Phase1Right cfg w e ↔ CheckFinds (Enough cfg) w e := by
  by_cases checks : ∃ now, e = .periodicCheck now
  · obtain ⟨now, rfl⟩ := checks
    refine iff_of_false (h.wrong_after_check now) fun finds => ?_
    obtain ⟨clock, queue, running⟩ := h.mcaster
    have enough : cfg.preexecutionWindowSize ≤ 2 * 0 := finds _ running
    have positive := cfg.preexecution_pos
    omega
  · have unchecked (now : ℕ → Timeval) : e ≠ .periodicCheck now := fun same => checks ⟨now, same⟩
    have still : Idle (ringStep cfg w e) := idle_step h unchecked
    obtain ⟨clock, queue, running⟩ := still.mcaster
    refine iff_of_true ⟨fun s after => ?_, ?_⟩ ?_
    · cases running.symm.trans after
      exact countersRight_idle clock queue
    · cases e <;> first | trivial | exact absurd rfl (unchecked _)
    · cases e <;> first | trivial | exact absurd rfl (unchecked _)

theorem Idle.unchecked (h : Idle w) (right : Phase1Right cfg w e) (now : ℕ → Timeval) :
    e ≠ .periodicCheck now := by
  rintro rfl
  exact h.wrong_after_check now right

end Idle

/-- The instances in phase 1 are counted as ready, so the counters are right in the states in
which none is, and along the runs in which no check opens any.  Half of the window is prepared
except where a check finds the counter between a quarter of the window and a half. -/
theorem phase1_right_iff (cfg : Config) (late : ℕ → Bool) (events : List RingEvent) :
    (Along (ringStep cfg) (Phase1Right cfg) (ringInit late) events ↔
      Along (ringStep cfg) (CheckFinds (Enough cfg)) (ringInit late) events) ∧
    (Along (ringStep cfg) (WindowRight cfg) (ringInit late) events ↔
      Along (ringStep cfg) (CheckFinds fun count => Enough cfg count ∨ Few cfg count)
        (ringInit late) events) ∧
    ∀ s, (run (ringStep cfg) (ringInit late) events).mcaster = .running s →
      (CountersRight cfg s ↔ statusCount cfg .p1Pending s = 0) := by
  refine ⟨?_, ?_, fun s reached => ?_⟩
  · exact along_congr_of_met Idle (idle_init late)
      (fun _ _ h right => idle_step h (h.unchecked right)) fun _ e h => h.right_iff e
  · exact along_congr (fun w => w.mcaster.Ensures (Counted cfg) fun _ => True) (counted_init cfg)
      (fun _ e h => counted_step h e) fun _ e h => windowRight_iff h e
  · exact (Outcome.Ensures.of_running (counted_run cfg late events) reached).countersRight_iff

theorem first_check_leaves_pending : ¬ Along (ringStep .small) (Phase1Right .small)
    (ringInit fun _ => false) [.periodicCheck fun _ => ⟨1, 0⟩] := by
  rintro ⟨right, -⟩
  exact absurd (right.counters _ rfl).pending (by decide)

end FdsPaxos.RingFirstCheck
