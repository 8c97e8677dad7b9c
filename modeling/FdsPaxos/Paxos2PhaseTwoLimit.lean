import FdsPaxos.Paxos2CountersExact

set_option autoImplicit false

namespace FdsPaxos.Paxos2PhaseTwoLimit
open TransitionRuns CircularWindow Paxos2Config Paxos2Messages Paxos2ValuesHandler
open Paxos2Learner Paxos2Leader Paxos2Proposer Paxos2LeaderMoves Paxos2LeaderCounters
open Paxos2LeaderInvariant Paxos2CountersExact

/-- How many of the next `n` instances have no value from phase 1. -/
def valuesNeeded (cfg : Config) (s : LeaderState) (n : ℕ) : ℕ :=
  (List.range n).countP fun k =>
    (s.proposerState (cfg.proIndex (s.p2Info.nextUnusedIid + k))).p1Value.isNone

/-- The next `n` instances are ready, and there are client values for those without one. -/
def CanOpen (cfg : Config) (n : ℕ) (s : LeaderState) : Prop :=
  (∀ k < n, AwaitsPhase2 cfg s (s.p2Info.nextUnusedIid + k)) ∧
    valuesNeeded cfg s n ≤ vhPendingListSize s.valuesHandler

instance (cfg : Config) (n : ℕ) (s : LeaderState) : Decidable (CanOpen cfg n s) :=
  inferInstanceAs (Decidable (_ ∧ _))

/-- The threshold lets the leader open instances, and all that the guard `<=` allows can
be opened. -/
def OpensOneMore (cfg : Config) (s : LeaderState) : Prop :=
  s.p2Info.openCount.toNat ≤ cfg.proposerP2Concurrency / 3 * 2 ∧
    CanOpen cfg (cfg.proposerP2Concurrency + 1 - s.p2Info.openCount.toNat) s

instance (cfg : Config) (s : LeaderState) : Decidable (OpensOneMore cfg s) :=
  inferInstanceAs (Decidable (_ ∧ _))

variable {cfg : Config} {clock : ℕ → Timeval} {s t : LeaderState}

theorem leaderExecuteP2_takes {slot : ℕ} (unassigned : (s.proposerState slot).p2Value = none)
    (done : leaderExecuteP2 cfg clock s slot = .running t) :
    vhPendingListSize t.valuesHandler +
        (if (s.proposerState slot).p1Value.isNone then 1 else 0) =
      vhPendingListSize s.valuesHandler ∧ t.p2Info = s.p2Info ∧
    ∃ ii, ii.status = .p2Pending ∧ t.proposerState = setSlot s.proposerState slot ii := by
  unfold leaderExecuteP2 at done
  dsimp only at done
  rw [unassigned] at done
  cases found : (s.proposerState slot).p1Value with
  | some value =>
    rw [found] at done
    cases done
    exact ⟨rfl, rfl, _, rfl, rfl⟩
  | none =>
    rw [found] at done
    cases values : s.valuesHandler.pendingList with
    | nil =>
      simp [vhGetNextPending, values] at done
    | cons value rest =>
      simp only [vhGetNextPending, values] at done
      cases done
      refine ⟨?_, rfl, _, rfl, rfl⟩
      simp [vhPendingListSize, values, leaderSendAccept, LeaderState.withValues,
        LeaderState.withSlot, LeaderState.log]

theorem valuesNeeded_succ (s : LeaderState) (n : ℕ) :
    valuesNeeded cfg s (n + 1) =
      (if (s.proposerState (cfg.proIndex s.p2Info.nextUnusedIid)).p1Value.isNone then 1 else 0) +
        (List.range n).countP fun k =>
          (s.proposerState (cfg.proIndex (s.p2Info.nextUnusedIid + 1 + k))).p1Value.isNone := by
  unfold valuesNeeded
  rw [List.range_succ_eq_map, List.countP_cons, List.countP_map, Nat.add_zero, Nat.add_comm]
  congr 2
  funext k
  simp only [Function.comp_apply, Nat.succ_eq_add_one, Nat.add_assoc, Nat.add_comm 1 k]

theorem canOpen_succ {u : LeaderState} {n : ℕ} {ii : PInstInfo}
    (first : AwaitsPhase2 cfg s s.p2Info.nextUnusedIid)
    (slots : u.proposerState =
      setSlot s.proposerState (cfg.proIndex s.p2Info.nextUnusedIid) ii)
    (busy : ii.status = .p2Pending) (next : u.p2Info.nextUnusedIid = s.p2Info.nextUnusedIid + 1)
    (values : vhPendingListSize u.valuesHandler +
        (if (s.proposerState (cfg.proIndex s.p2Info.nextUnusedIid)).p1Value.isNone then 1 else 0) =
      vhPendingListSize s.valuesHandler)
    (rest : CanOpen cfg n u) : CanOpen cfg (n + 1) s := by
  obtain ⟨ready, enough⟩ := rest
  -- the slots still to be opened are not the one just filled
  have other (k : ℕ) (lt : k < n) :
      u.proposerState (cfg.proIndex (s.p2Info.nextUnusedIid + 1 + k)) =
        s.proposerState (cfg.proIndex (s.p2Info.nextUnusedIid + 1 + k)) := by
    rw [slots]
    apply setSlot_of_ne
    intro same
    have ready := (ready k lt).2.1
    rw [next, slots, same, setSlot_self, busy] at ready
    cases ready
  refine ⟨fun k lt => ?_, ?_⟩
  · cases k with
    | zero => exact first
    | succ k =>
      obtain ⟨iid, ready, unassigned⟩ := ready k (by omega)
      rw [next, other k (by omega)] at iid ready unassigned
      have shifted : s.p2Info.nextUnusedIid + (k + 1) = s.p2Info.nextUnusedIid + 1 + k := by omega
      rw [shifted]
      exact ⟨iid, ready, unassigned⟩
  · have counted : valuesNeeded cfg u n = (List.range n).countP fun k =>
        (s.proposerState (cfg.proIndex (s.p2Info.nextUnusedIid + 1 + k))).p1Value.isNone := by
      unfold valuesNeeded
      apply List.countP_congr
      intro k inside
      rw [next, other k (List.mem_range.mp inside)]
    rw [valuesNeeded_succ]
    omega

theorem canOpen_of_openNew {turns : ℕ} {count count' : UInt32}
    (done : leaderOpenNew cfg clock turns count s = .running (t, count'))
    (all : t.p2Info.nextUnusedIid = s.p2Info.nextUnusedIid + turns) : CanOpen cfg turns s := by
  induction turns generalizing s count with
  | zero => exact ⟨fun k lt => absurd lt (Nat.not_lt_zero k), Nat.zero_le _⟩
  | succ turns ih =>
    unfold leaderOpenNew at done
    dsimp only at done
    split_ifs at done with assigned idle notReady
    · cases done
      omega
    · cases done
      omega
    · obtain ⟨ready, here⟩ := not_or.mp notReady
      have unassigned := Option.not_isSome_iff_eq_none.mp assigned
      obtain ⟨u, first, later⟩ := Outcome.andThen_eq_running.mp done
      obtain ⟨values, p2, ii, busy, slots⟩ := leaderExecuteP2_takes unassigned first
      have next : (leaderUseNext u).p2Info.nextUnusedIid = s.p2Info.nextUnusedIid + 1 := by
        rw [leaderUseNext, p2]
      exact canOpen_succ (u := leaderUseNext u)
        ⟨not_not.mp here, not_not.mp ready, unassigned⟩ slots busy next values
        (ih later (by omega))

/-- All turns that the guard allows are used only if so many instances could be opened. -/
theorem leaderOpenNew_stops_short (limited : ¬ OpensOneMore cfg s)
    (few : s.p2Info.openCount.toNat ≤ cfg.proposerP2Concurrency / 3 * 2) {count count' : UInt32}
    (loop : leaderOpenNew cfg clock (cfg.proposerP2Concurrency + 1 - s.p2Info.openCount.toNat) count
      (clearAcceptBuf s) = .running (t, count')) :
    t.p2Info.nextUnusedIid ≠
      s.p2Info.nextUnusedIid + (cfg.proposerP2Concurrency + 1 - s.p2Info.openCount.toNat) := by
  intro all
  have could := canOpen_of_openNew loop all
  exact limited ⟨few, could⟩

structure Limited (cfg : Config) (s : LeaderState) : Prop where
  counted : ∃ e : Errors, e.opened = 0 ∧ Off cfg 0 e s
  bounded : s.p2Info.openCount.toNat ≤ cfg.proposerP2Concurrency

section Routines

variable {e : Errors}

theorem Limited.clean (h : Limited cfg s) : SlotsClean s := by
  obtain ⟨⟨e, -, off⟩, -⟩ := h
  exact off.clean

theorem Limited.phase2Count (h : Limited cfg s) (small : cfg.proposerArraySize < 2 ^ 32) :
    phase2Count cfg s = s.p2Info.openCount.toNat := by
  obtain ⟨⟨e, none, off⟩, -⟩ := h
  rw [off.opened, none, UInt32.add_zero]
  exact (toNat_ofNat_slotCount small s.proposerState).symm

theorem Limited.openCount_pos (h : Limited cfg s) (small : cfg.proposerArraySize < 2 ^ 32)
    {slot : ℕ} (lt : slot < cfg.proposerArraySize) (started : Phase2Open (s.proposerState slot)) :
    0 < s.p2Info.openCount.toNat := by
  rw [← h.phase2Count small]
  exact slotCount_pos lt started

theorem Limited.of_le (h : Limited cfg s)
    (kept : ∀ e, Off cfg 0 e s → ∃ e', e'.opened = e.opened ∧ Off cfg 0 e' t)
    (le : t.p2Info.openCount.toNat ≤ s.p2Info.openCount.toNat) : Limited cfg t := by
  obtain ⟨⟨e, none, off⟩, bounded⟩ := h
  obtain ⟨e', same, off'⟩ := kept e off
  exact ⟨⟨e', same.trans none, off'⟩, le.trans bounded⟩

theorem Limited.same (h : Limited cfg s) (slots : t.proposerState = s.proposerState)
    (p1 : t.p1Info = s.p1Info) (p2 : t.p2Info.openCount = s.p2Info.openCount) : Limited cfg t :=
  h.of_le (fun e off => ⟨e, rfl, off.same slots p1 p2⟩) (by rw [p2])

theorem Limited.openInstancesP2New (h : Limited cfg s) (limited : ¬ OpensOneMore cfg s)
    (done : leaderOpenInstancesP2New cfg clock s = .running t) : Limited cfg t := by
  obtain ⟨⟨e, none, off⟩, bounded⟩ := h
  refine ⟨⟨e, none, off.openInstancesP2New (not_opensBelow_zero s) done⟩, ?_⟩
  unfold leaderOpenInstancesP2New at done
  dsimp only at done
  split_ifs at done with many
  · cases done
    exact bounded
  · obtain ⟨⟨u, count⟩, loop, last⟩ := Outcome.andThen_eq_running.mp done
    cases last
    obtain ⟨n, le, total, executed, next, -⟩ :=
      (off.same (t := clearAcceptBuf s) rfl rfl rfl).openNew (fun _ => Nat.zero_le _) loop
    have few : n ≠ cfg.proposerP2Concurrency + 1 - s.p2Info.openCount.toNat := fun all =>
      leaderOpenNew_stops_short limited (Nat.not_lt.mp many) loop (all ▸ next)
    change (u.p2Info.openCount + count).toNat ≤ cfg.proposerP2Concurrency
    have unread : u.p2Info.openCount = s.p2Info.openCount := executed.openCount
    rw [unread, total, UInt32.zero_add, UInt32.toNat_add, UInt32.toNat_ofNat']
    have sum := Nat.mod_le (s.p2Info.openCount.toNat + n % 2 ^ 32) (2 ^ 32)
    have part := Nat.mod_le n (2 ^ 32)
    omega

theorem toNat_sub_one_le {x : UInt32} (pos : 0 < x.toNat) : (x - 1).toNat ≤ x.toNat := by
  have le : (1 : UInt32) ≤ x := UInt32.le_iff_toNat_le.mpr pos
  rw [UInt32.toNat_sub_of_le x 1 le]
  exact Nat.sub_le _ _

theorem Limited.checkP2Instance (h : Limited cfg s) (small : cfg.proposerArraySize < 2 ^ 32)
    (isClosed : ℕ → Bool) (timeNow : Timeval) (iid : ℕ) :
    Limited cfg (leaderCheckP2Instance cfg clock isClosed timeNow s iid) := by
  apply h.of_le fun e off => ⟨e, rfl, off.checkP2Instance isClosed timeNow iid⟩
  unfold leaderCheckP2Instance
  dsimp only
  split_ifs with other
  · exact le_rfl
  · have pending := not_not.mp other
    apply toNat_sub_one_le
    apply h.openCount_pos small (cfg.proIndex_lt iid)
    exact ⟨(h.clean _).pending pending, by simp [pending]⟩
  · exact le_rfl
  · exact le_rfl

theorem Limited.checkedP2 (h : Limited cfg s) (small : cfg.proposerArraySize < 2 ^ 32)
    (isClosed : ℕ → Bool) (timeNow : Timeval) :
    Limited cfg (leaderCheckedP2 cfg clock isClosed timeNow s) := by
  have start : Limited cfg (clearPrepareBuf s) := h.same rfl rfl rfl
  exact (run_invariant (Limited cfg) start fun _ iid h =>
    h.checkP2Instance small isClosed timeNow iid).same rfl rfl rfl

theorem Limited.forget (h : Limited cfg s) (small : cfg.proposerArraySize < 2 ^ 32)
    (value : Value) (iid : ℕ) : Limited cfg (leaderForget cfg s value iid) := by
  apply h.of_le fun e off => ⟨_, by rfl, off.forget value iid⟩
  change (if _ then _ else _ : UInt32).toNat ≤ _
  split_ifs with mine
  · apply toNat_sub_one_le
    apply h.openCount_pos small (cfg.proIndex_lt iid)
    exact (h.clean _).openedByMe_iff.mp mine
  · exact le_rfl

theorem handlePrepareAck_p2Info (a : ℕ) (s : LeaderState) (pa : PrepareAck) :
    (handlePrepareAck cfg a s pa).1.p2Info = s.p2Info := by
  unfold handlePrepareAck
  dsimp only
  split_ifs <;> rfl

theorem Limited.prepareAcks (h : Limited cfg s) (a : ℕ) (acks : List PrepareAck) :
    Limited cfg (handlePrepareAcks cfg a s acks).1 := by
  apply run_invariant (fun r : LeaderState × ℕ => Limited cfg r.1) h
  intro r pa h
  apply h.of_le fun e off => ⟨e, rfl, off.prepareAck a pa⟩
  rw [handlePrepareAck_p2Info]

theorem Limited.openInstancesP2Expired (h : Limited cfg s)
    (done : leaderOpenInstancesP2Expired cfg clock s = .running t) : Limited cfg t := by
  apply h.of_le fun e off => ⟨e, rfl, off.openInstancesP2Expired done⟩
  obtain ⟨⟨e, -, off⟩, -⟩ := h
  obtain ⟨⟨u, count⟩, loop, last⟩ := Outcome.andThen_eq_running.mp done
  cases last
  obtain ⟨n, -, executed, -⟩ := (off.same (t := clearAcceptBuf s) rfl rfl rfl).openExpired loop
  exact le_of_eq (congrArg UInt32.toNat executed.openCount)

theorem Limited.periodicP1Check {timeNow : Timeval} (h : Limited cfg s)
    (done : leaderPeriodicP1Check cfg clock timeNow s = .running t) : Limited cfg t := by
  apply h.of_le fun e off => ⟨e, rfl, off.periodicP1Check done⟩
  rw [leaderPeriodicP1Check_p2Info done]

theorem limited_init {timeNow : Timeval} (clean : SlotsClean s) (left : phase2Count cfg s = 0)
    (done : leaderInit cfg clock timeNow s = .running t) : Limited cfg t := by
  refine ⟨⟨startErrors cfg s, rfl, Off.init clean left done⟩, ?_⟩
  obtain ⟨u, checked, last⟩ := Outcome.bind_eq_running.mp done
  cases last
  exact Nat.zero_le _

end Routines

/-- `leader_open_instances_p2_new`, called in this state, opens no more than allowed. -/
def OpensWithin (cfg : Config) (s : LeaderState) : Prop :=
  ¬ OpensOneMore cfg s

instance (s : LeaderState) : Decidable (OpensWithin cfg s) :=
  inferInstanceAs (Decidable (¬ OpensOneMore cfg s))

/-- No call opens one instance too many, and a new leader finds nothing open. -/
structure EventLimits (cfg : Config) (p : ProposerState) (e : ProposerEvent) : Prop where
  promotion : WhenPromoted (fun s => phase2Count cfg s = 0) p e
  deliveries : AlongDeliveries cfg (fun _ p d => DeliveryOpens cfg (OpensWithin cfg) p d) p e
  calls : CallOpens cfg (OpensWithin cfg) p e

instance (p : ProposerState) (e : ProposerEvent) : Decidable (EventLimits cfg p e) :=
  decidable_of_iff
    (WhenPromoted (fun s => phase2Count cfg s = 0) p e ∧
      AlongDeliveries cfg (fun _ p d => DeliveryOpens cfg (OpensWithin cfg) p d) p e ∧
      CallOpens cfg (OpensWithin cfg) p e)
    ⟨fun ⟨promotion, deliveries, calls⟩ => ⟨promotion, deliveries, calls⟩,
      fun ⟨promotion, deliveries, calls⟩ => ⟨promotion, deliveries, calls⟩⟩

/-- At most as many instances are in phase 2 as `PROPOSER_P2_CONCURRENCY` says, so that
there is one at a time if it says one. -/
structure WithinConcurrency (cfg : Config) (s : LeaderState) : Prop where
  count : phase2Count cfg s ≤ cfg.proposerP2Concurrency
  single : cfg.proposerP2Concurrency = 1 → ∀ i j,
    (s.proposerState (cfg.proIndex i)).iid = i → Phase2Open (s.proposerState (cfg.proIndex i)) →
    (s.proposerState (cfg.proIndex j)).iid = j → Phase2Open (s.proposerState (cfg.proIndex j)) →
    i = j

/-- The bound is met in the state in which each instance of a batch is delivered. -/
def EventWithin (cfg : Config) (p : ProposerState) (e : ProposerEvent) : Prop :=
  AlongDeliveries cfg (fun _ p _ => p.LeaderIsMe → WithinConcurrency cfg p.leader) p e

theorem Limited.within (h : Limited cfg s) (small : cfg.proposerArraySize < 2 ^ 32) :
    WithinConcurrency cfg s where
  count := by
    rw [h.phase2Count small]
    exact h.bounded
  single := by
    intro one i j hi startedi hj startedj
    have counted := h.phase2Count small
    have bounded := h.bounded
    have same := slotCount_le_one (P := Phase2Open) s.proposerState
      (counted.le.trans (one ▸ bounded)) (cfg.proIndex_lt i) (cfg.proIndex_lt j) startedi startedj
    rw [← hi, ← hj, same]

def limited (cfg : Config) : LeaderInvariant where
  leads := Limited cfg
  rests := SlotsClean

section Keeps

variable {p : ProposerState}

theorem limited_delivery (small : cfg.proposerArraySize < 2 ^ 32) {d : Delivery}
    (limits : DeliveryOpens cfg (OpensWithin cfg) p d) :
    (limited cfg).DeliveryKeeps cfg clock p d where
  leads := by
    intro leads h
    have logged : Limited cfg (p.leader.log (.delivered d.iid d.value)) :=
      Limited.same h rfl rfl rfl
    apply Outcome.ensures_of_running
    intro l done
    rw [leaderDeliver_eq] at done
    split_ifs at done with other
    · cases done
      exact logged.same rfl rfl rfl
    · have kept := (logged.forget small d.value d.iid).openInstancesP2New
        (limits leads (not_not.mp other)) done
      exact kept.same rfl rfl rfl
  rests := fun clean => clean

theorem limited_event (small : cfg.proposerArraySize < 2 ^ 32) (e : ProposerEvent)
    (limits : EventLimits cfg p e) : (limited cfg).EventKeeps cfg p e := by
  obtain ⟨promotion, deliveries, calls⟩ := limits
  cases e with
  | submit value => exact ⟨fun h => Limited.same h rfl rfl rfl, fun clean => clean⟩
  | leaderAnnounce currentLeader clock timeNow =>
    refine ⟨fun h => slotsClean_shutdown (Limited.clean h), fun promoted clean => ?_⟩
    exact Outcome.ensures_of_running fun l done => limited_init clean (promotion promoted) done
  | p1Check clock timeNow =>
    intro leads h
    exact Outcome.ensures_of_running fun l done => Limited.periodicP1Check h done
  | p2Check clock timeNow =>
    intro leads h
    apply Outcome.ensures_of_running
    intro l done
    rw [leaderPeriodicP2Check_eq] at done
    exact (Limited.checkedP2 h small _ timeNow).openInstancesP2New (calls leads) done
  | prepareAcks acceptorId acks clock =>
    intro leads h
    have saved := Limited.prepareAcks h acceptorId acks
    refine ⟨saved, fun ready => Outcome.ensures_of_running fun l done => ?_⟩
    obtain ⟨u, expired, new⟩ := Outcome.bind_eq_running.mp done
    have limits := (calls leads ready).of_running expired
    exact (saved.openInstancesP2Expired expired).openInstancesP2New limits new
  | acceptAcks acceptorId acks clock =>
    exact deliveries.imp fun _ _ _ limits => limited_delivery small limits
  | holeCheck => trivial

theorem limited_within (h : (limited cfg).Holds p) (small : cfg.proposerArraySize < 2 ^ 32)
    (e : ProposerEvent) (limits : EventLimits cfg p e) : EventWithin cfg p e := by
  cases e with
  | acceptAcks acceptorId acks clock =>
    have heard : (limited cfg).Holds (releasedBy cfg p acceptorId acks).1 := ⟨h.leads, h.rests⟩
    refine Outcome.AlongFold.of_invariant (limited cfg).Holds heard ?_ ?_ limits.deliveries
    · exact fun _ _ _ h limits turn => h.delivery (limited_delivery small limits) turn
    · exact fun p d h _ leads => Limited.within (h.leads leads) small
  | _ => trivial

theorem limited_start {timeNow : Timeval} {proposerId : ℕ}
    (done : proposerInit cfg clock timeNow proposerId = .running p) : (limited cfg).Holds p := by
  refine LeaderInvariant.Holds.init slotsClean_start ?_ done
  exact Outcome.ensures_of_running fun l started =>
    limited_init slotsClean_start (nothingLeft_start cfg proposerId).2.2 started

end Keeps

/-- In every run in which no call finds as many instances to open as the guard allows,
and a new leader finds none open, phase 2 stays within its concurrency. -/
theorem phase_two_bounded (cfg : Config) (small : cfg.proposerArraySize < 2 ^ 32)
    (clock : ℕ → Timeval) (timeNow : Timeval) (proposerId : ℕ) (events : List ProposerEvent)
    (limits : Along (proposerStep cfg) (WhenRunning (EventLimits cfg))
      (proposerInit cfg clock timeNow proposerId) events) :
    Along (proposerStep cfg) (WhenRunning (EventWithin cfg))
        (proposerInit cfg clock timeNow proposerId) events ∧
      ∀ p, run (proposerStep cfg) (proposerInit cfg clock timeNow proposerId) events =
          .running p → p.LeaderIsMe → WithinConcurrency cfg p.leader := by
  have keeps (p : ProposerState) (e : ProposerEvent) (limits : EventLimits cfg p e) :
      (limited cfg).EventKeeps cfg p e := limited_event small e limits
  refine ⟨?_, fun p done leads => ?_⟩
  · exact LeaderInvariant.along_holds (fun p done => limited_start done) keeps
      (fun p e h limits => limited_within h small e limits) limits
  · have held := LeaderInvariant.run_holds (fun p done => limited_start done) keeps limits p done
    exact Limited.within (held.leads leads) small

/-- Four values are waiting when a quorum has promised the four instances opened. -/
def fourValues : List ProposerEvent :=
  [.submit [1], .submit [2], .submit [3], .submit [4],
    .prepareAcks 0 ((List.range' 1 4).map fun i => ⟨i, 10, 0, []⟩) stillClock,
    .prepareAcks 1 ((List.range' 1 4).map fun i => ⟨i, 10, 0, []⟩) stillClock]

theorem four_values_sent :
    ∃ p, run (proposerStep .small) (proposerInit .small stillClock ⟨0, 0⟩ 0) fourValues =
        .running p ∧ p.LeaderIsMe ∧ ¬ WithinConcurrency .small p.leader := by
  have running : (run (proposerStep .small) (proposerInit .small stillClock ⟨0, 0⟩ 0)
      fourValues).IsRunning := by decide +kernel
  refine ⟨_, Outcome.running_of_isRunning running, by decide +kernel, fun within => ?_⟩
  exact absurd within.count (by decide +kernel)

end FdsPaxos.Paxos2PhaseTwoLimit
