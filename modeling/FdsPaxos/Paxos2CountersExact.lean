import FdsPaxos.Paxos2LeaderCounters
import FdsPaxos.Paxos2DeliveryOrder

set_option autoImplicit false

namespace FdsPaxos.Paxos2CountersExact
open TransitionRuns CircularWindow Paxos2Config Paxos2Messages Paxos2ValuesHandler
open Paxos2Learner Paxos2Leader Paxos2Proposer Paxos2LeaderMoves Paxos2LeaderCounters
open Paxos2LeaderInvariant Paxos2DeliveryOrder

variable {cfg : Config} {clock : ℕ → Timeval} {s : LeaderState}

/-- No counter goes below zero during the event.  The events left out only add to the
counters, or set them to zero. -/
def EventFits (cfg : Config) (p : ProposerState) : ProposerEvent → Prop
  | .prepareAcks acceptorId acks clock =>
    let r := handlePrepareAcks cfg acceptorId p.leader acks
    p.LeaderIsMe →
      Along (fun s pa => (handlePrepareAck cfg acceptorId s pa).1) (AckFits cfg acceptorId)
        p.leader acks ∧
      (0 < r.2 → ExpiredFits cfg clock r.1 ∧
        Leaves (leaderOpenInstancesP2Expired cfg clock r.1) (NewFits cfg clock))
  | .p2Check clock timeNow =>
    let isClosed := fun iid => decide (learnerIsClosed cfg p.learner iid)
    let check := leaderCheckP2Instance cfg clock isClosed timeNow
    let iids := List.range' p.leader.currentIid
      (p.leader.p2Info.nextUnusedIid - p.leader.currentIid)
    p.LeaderIsMe →
      Along check (CloseFits cfg isClosed) (clearPrepareBuf p.leader) iids ∧
        NewFits cfg clock (leaderCheckedP2 cfg clock isClosed timeNow p.leader)
  | .acceptAcks acceptorId acks clock =>
    AlongDeliveries cfg (fun clock p d =>
      p.LeaderIsMe → (p.leader.proposerState (cfg.proIndex d.iid)).iid = d.iid →
        DeliverFits cfg clock (p.leader.log (.delivered d.iid d.value)) d.value d.iid)
      p (.acceptAcks acceptorId acks clock)
  | .submit _ | .leaderAnnounce _ _ _ | .p1Check _ _ | .holeCheck => True

def DeliversReady (cfg : Config) (p : ProposerState) (d : Delivery) : Prop :=
  p.LeaderIsMe ∧ (p.leader.proposerState (cfg.proIndex d.iid)).iid = d.iid ∧
    (p.leader.proposerState (cfg.proIndex d.iid)).status = .p1Ready

instance (p : ProposerState) (d : Delivery) : Decidable (DeliversReady cfg p d) :=
  inferInstanceAs (Decidable (_ ∧ _ ∧ _))

def NothingLeft (cfg : Config) (s : LeaderState) : Prop :=
  statusCount cfg .p1Pending s = 0 ∧ statusCount cfg .p1Ready s = 0 ∧ phase2Count cfg s = 0

instance (s : LeaderState) : Decidable (NothingLeft cfg s) :=
  inferInstanceAs (Decidable (_ ∧ _ ∧ _))

/-- `leader_open_instances_p2_new`, called in this state, starts no phase 2 for an
instance delivered before. -/
def OpensUndelivered (cfg : Config) (s : LeaderState) : Prop :=
  ¬ OpensBelow cfg s.currentIid s

instance (s : LeaderState) : Decidable (OpensUndelivered cfg s) :=
  inferInstanceAs (Decidable (¬ OpensBelow cfg s.currentIid s))

theorem OpensUndelivered.not_below (h : OpensUndelivered cfg s) {iid : ℕ}
    (current : s.currentIid = iid) : ¬ OpensBelow cfg iid s := by
  subst current
  exact h

/-- A condition on the call of `leader_open_instances_p2_new` by a delivery. -/
def DeliveryOpens (cfg : Config) (Q : LeaderState → Prop) (p : ProposerState) (d : Delivery) :
    Prop :=
  p.LeaderIsMe → (p.leader.proposerState (cfg.proIndex d.iid)).iid = d.iid →
    Q (leaderForget cfg (p.leader.log (.delivered d.iid d.value)) d.value d.iid)

instance (Q : LeaderState → Prop) [DecidablePred Q] (p : ProposerState) (d : Delivery) :
    Decidable (DeliveryOpens cfg Q p d) :=
  inferInstanceAs (Decidable (_ → _ → Q _))

/-- A condition on the calls of `leader_open_instances_p2_new` outside deliveries. -/
def CallOpens (cfg : Config) (Q : LeaderState → Prop) (p : ProposerState) : ProposerEvent → Prop
  | .p2Check clock timeNow =>
    let isClosed := fun iid => decide (learnerIsClosed cfg p.learner iid)
    p.LeaderIsMe → Q (leaderCheckedP2 cfg clock isClosed timeNow p.leader)
  | .prepareAcks acceptorId acks clock =>
    let r := handlePrepareAcks cfg acceptorId p.leader acks
    p.LeaderIsMe → 0 < r.2 → Leaves (leaderOpenInstancesP2Expired cfg clock r.1) Q
  | .submit _ | .leaderAnnounce _ _ _ | .p1Check _ _ | .acceptAcks _ _ _ | .holeCheck => True

instance (Q : LeaderState → Prop) [DecidablePred Q] (p : ProposerState) (e : ProposerEvent) :
    Decidable (CallOpens cfg Q p e) :=
  match e with
  | .p2Check _ _ => inferInstanceAs (Decidable (_ → Q _))
  | .prepareAcks _ _ _ => inferInstanceAs (Decidable (_ → _ → Leaves _ Q))
  | .submit _ | .leaderAnnounce _ _ _ | .p1Check _ _ | .acceptAcks _ _ _ | .holeCheck =>
    isTrue trivial

def DeliveryCounts (cfg : Config) (p : ProposerState) (d : Delivery) : Prop :=
  ¬ DeliversReady cfg p d ∧ DeliveryOpens cfg (OpensUndelivered cfg) p d

instance (p : ProposerState) (d : Delivery) : Decidable (DeliveryCounts cfg p d) :=
  inferInstanceAs (Decidable (_ ∧ _))

structure EventCounts (cfg : Config) (p : ProposerState) (e : ProposerEvent) : Prop where
  promotion : WhenPromoted (NothingLeft cfg) p e
  deliveries : AlongDeliveries cfg (fun _ p d => DeliveryCounts cfg p d) p e
  calls : CallOpens cfg (OpensUndelivered cfg) p e

instance (p : ProposerState) (e : ProposerEvent) : Decidable (EventCounts cfg p e) :=
  decidable_of_iff
    (WhenPromoted (NothingLeft cfg) p e ∧
      AlongDeliveries cfg (fun _ p d => DeliveryCounts cfg p d) p e ∧
      CallOpens cfg (OpensUndelivered cfg) p e)
    ⟨fun ⟨promotion, deliveries, calls⟩ => ⟨promotion, deliveries, calls⟩,
      fun ⟨promotion, deliveries, calls⟩ => ⟨promotion, deliveries, calls⟩⟩

/-- The counters of a leader have no errors, and it has nothing open that was delivered. -/
def accurate (cfg : Config) : LeaderInvariant where
  leads := fun s => Off cfg s.currentIid noErrors s
  rests := SlotsClean

section Keeps

variable {p : ProposerState}

theorem startErrors_eq_noErrors (left : NothingLeft cfg s) : startErrors cfg s = noErrors := by
  obtain ⟨pending, ready, -⟩ := left
  simp [startErrors, noErrors, pending, ready]

theorem accurate_leads {iid : ℕ} (h : Off cfg iid noErrors s) (current : s.currentIid = iid) :
    (accurate cfg).leads s := by
  subst current
  exact h

theorem accurate_delivery {d : Delivery} (counts : DeliveryCounts cfg p d)
    (inOrder : d.iid = p.leader.currentIid) : (accurate cfg).DeliveryKeeps cfg clock p d where
  leads := by
    intro leads h
    obtain ⟨unready, ahead⟩ := counts
    have logged : Off cfg d.iid noErrors (p.leader.log (.delivered d.iid d.value)) :=
      (inOrder ▸ h : Off cfg d.iid noErrors p.leader).same rfl rfl rfl
    apply Outcome.ensures_of_running
    intro l done
    have kept := logged.deliver (fun here => (ahead leads here).not_below inOrder.symm) done
    have unready : ¬ ((p.leader.proposerState (cfg.proIndex d.iid)).iid = d.iid ∧
        (p.leader.proposerState (cfg.proIndex d.iid)).status = .p1Ready) :=
      fun ready => unready ⟨leads, ready⟩
    change Off cfg (d.iid + 1) { noErrors with
      ready := 0 + bit ((p.leader.proposerState _).iid = _ ∧
        (p.leader.proposerState _).status = _) } l at kept
    rw [bit, if_neg unready] at kept
    exact accurate_leads (kept.same rfl rfl rfl) rfl
  rests := fun clean => clean

theorem accurate_event (e : ProposerEvent) (counts : EventCounts cfg p e)
    (inOrder : DeliversInOrder cfg p e) : (accurate cfg).EventKeeps cfg p e := by
  obtain ⟨promotion, deliveries, calls⟩ := counts
  cases e with
  | submit value => exact ⟨fun h => accurate_leads (Off.same h rfl rfl rfl) rfl, fun clean => clean⟩
  | leaderAnnounce currentLeader clock timeNow =>
    refine ⟨fun h => slotsClean_shutdown (Off.clean h), fun promoted clean => ?_⟩
    apply Outcome.ensures_of_running
    intro l done
    have left := promotion promoted
    have started : Off cfg l.currentIid _ l := Off.init clean left.2.2 done
    rw [startErrors_eq_noErrors left] at started
    exact accurate_leads started rfl
  | p1Check clock timeNow =>
    intro leads h
    apply Outcome.ensures_of_running
    intro l done
    exact accurate_leads (Off.periodicP1Check h done) (leaderPeriodicP1Check_currentIid done)
  | p2Check clock timeNow =>
    intro leads h
    have ahead := OpensUndelivered.not_below (calls leads) (leaderCheckedP2_currentIid _)
    apply Outcome.ensures_of_running
    intro l done
    exact accurate_leads (Off.periodicP2Check h _ timeNow ahead done)
      (leaderPeriodicP2Check_currentIid done)
  | prepareAcks acceptorId acks clock =>
    intro leads h
    have saved := Off.prepareAcks h acceptorId acks
    have current := handlePrepareAcks_currentIid cfg acceptorId acks (s := p.leader)
    refine ⟨accurate_leads saved current, fun ready => Outcome.ensures_of_running fun l done => ?_⟩
    obtain ⟨u, expired, new⟩ := Outcome.bind_eq_running.mp done
    have current := (leaderOpenInstancesP2Expired_currentIid expired).trans current
    have ahead := OpensUndelivered.not_below ((calls leads ready).of_running expired) current
    exact accurate_leads ((saved.openInstancesP2Expired expired).openInstancesP2New ahead new)
      ((leaderOpenInstancesP2New_currentIid new).trans current)
  | acceptAcks acceptorId acks clock =>
    exact (deliveries.and inOrder).imp fun _ _ _ ⟨counts, here⟩ => accurate_delivery counts here
  | holeCheck => trivial

theorem accurate_fits (h : (accurate cfg).Holds p) (small : cfg.proposerArraySize < 2 ^ 32)
    (e : ProposerEvent) (counts : EventCounts cfg p e) (inOrder : DeliversInOrder cfg p e) :
    EventFits cfg p e := by
  cases e with
  | prepareAcks acceptorId acks clock =>
    intro leads
    have off : Off cfg p.leader.currentIid noErrors p.leader := h.leads leads
    have saved := off.prepareAcks acceptorId acks
    refine ⟨?_, fun ready => ⟨saved.expiredFits small, ?_⟩⟩
    · exact along_of_kept (Off cfg p.leader.currentIid noErrors) off
        (fun _ pa h => h.prepareAck acceptorId pa) fun _ pa h => h.ackFits small acceptorId pa
    · apply Outcome.ensures_of_running
      exact fun l done => (saved.openInstancesP2Expired done).newFits small
  | p2Check clock timeNow =>
    intro leads
    have off : Off cfg p.leader.currentIid noErrors p.leader := h.leads leads
    have start : Off cfg p.leader.currentIid noErrors (clearPrepareBuf p.leader) :=
      off.same rfl rfl rfl
    refine ⟨?_, ?_⟩
    · exact along_of_kept (Off cfg p.leader.currentIid noErrors) start
        (fun _ iid h => h.checkP2Instance _ timeNow iid) fun _ iid h => h.closeFits small _ iid
    · exact (off.checkedP2 _ timeNow).newFits small
  | acceptAcks acceptorId acks clock =>
    have heard : (accurate cfg).Holds (releasedBy cfg p acceptorId acks).1 := ⟨h.leads, h.rests⟩
    have counts := counts.deliveries.and inOrder
    refine Outcome.AlongFold.of_invariant (accurate cfg).Holds heard ?_ ?_ counts
    · exact fun _ _ _ h ⟨counts, here⟩ turn => h.delivery (accurate_delivery counts here) turn
    · intro p d h ⟨⟨unready, _⟩, _⟩ leads here
      have off : Off cfg p.leader.currentIid noErrors p.leader := h.leads leads
      have logged : Off cfg p.leader.currentIid noErrors
          (p.leader.log (.delivered d.iid d.value)) := off.same rfl rfl rfl
      exact logged.deliverFits small d.value d.iid fun ready => unready ⟨leads, here, ready⟩
  | _ => trivial

theorem slotsClean_start {proposerId : ℕ} : SlotsClean (initProStructs proposerId) :=
  fun _ => ⟨fun _ => rfl, by simp [initProStructs]⟩

theorem nothingLeft_start (cfg : Config) (proposerId : ℕ) :
    NothingLeft cfg (initProStructs proposerId) := by
  refine ⟨?_, ?_, ?_⟩
  · simp [statusCount, slotCount_eq_zero, initProStructs]
  · simp [statusCount, slotCount_eq_zero, initProStructs]
  · simp [phase2Count, slotCount_eq_zero, initProStructs, Phase2Open]

theorem accurate_start {timeNow : Timeval} {proposerId : ℕ}
    (done : proposerInit cfg clock timeNow proposerId = .running p) : (accurate cfg).Holds p := by
  refine LeaderInvariant.Holds.init slotsClean_start ?_ done
  apply Outcome.ensures_of_running
  intro l started
  have left := nothingLeft_start cfg proposerId
  have off : Off cfg l.currentIid _ l := Off.init slotsClean_start left.2.2 started
  rwa [startErrors_eq_noErrors left] at off

end Keeps

/-- In every run in which no instance is delivered to the leader while it is ready for
phase 2, no phase 2 is started for an instance delivered before, and no proposer becomes
leader with slots left in use, the counters of a leader are exact between events and none
of them goes below zero. -/
theorem counters_exact (cfg : Config) (small : cfg.proposerArraySize < 2 ^ 32)
    (clock : ℕ → Timeval) (timeNow : Timeval) (proposerId : ℕ) (events : List ProposerEvent)
    (counts : Along (proposerStep cfg) (WhenRunning (EventCounts cfg))
      (proposerInit cfg clock timeNow proposerId) events) :
    Along (proposerStep cfg) (WhenRunning (EventFits cfg))
        (proposerInit cfg clock timeNow proposerId) events ∧
      ∀ p, run (proposerStep cfg) (proposerInit cfg clock timeNow proposerId) events =
          .running p → p.LeaderIsMe → CountersExact cfg p.leader := by
  have ordered := deliveries_in_order cfg clock timeNow proposerId events
  have along := (counts.and ordered).imp fun _ _ _ met => WhenRunning.and met
  have keeps (p : ProposerState) (e : ProposerEvent)
      (met : EventCounts cfg p e ∧ DeliversInOrder cfg p e) : (accurate cfg).EventKeeps cfg p e :=
    accurate_event e met.1 met.2
  refine ⟨?_, fun p done leads => ?_⟩
  · exact LeaderInvariant.along_holds (fun p done => accurate_start done) keeps
      (fun p e h met => accurate_fits h small e met.1 met.2) along
  · have held := LeaderInvariant.run_holds (fun p done => accurate_start done) keeps along p done
    exact Off.exact (held.leads leads) small

/-- The leader's own value for instance 1, promised, accepted and delivered. -/
def ownValueDecided : List ProposerEvent :=
  [.submit [7], .prepareAcks 0 [⟨1, 10, 0, []⟩] stillClock,
    .prepareAcks 1 [⟨1, 10, 0, []⟩] stillClock, .acceptAcks 0 [⟨1, 10, 10, false, [7]⟩] stillClock,
    .acceptAcks 1 [⟨1, 10, 10, false, [7]⟩] stillClock]

theorem counters_exact_own_value :
    (Along (proposerStep .small) (WhenRunning (EventFits .small))
        (proposerInit .small stillClock ⟨0, 0⟩ 0) ownValueDecided) ∧
      ∀ p, run (proposerStep .small) (proposerInit .small stillClock ⟨0, 0⟩ 0) ownValueDecided =
          .running p → p.LeaderIsMe → CountersExact .small p.leader :=
  counters_exact .small (by decide) stillClock ⟨0, 0⟩ 0 ownValueDecided (by decide +kernel)

/-- Instance 1 is ready, with no value to send, when another leader's value for it is
delivered. -/
def readyDelivered : List ProposerEvent :=
  [.prepareAcks 0 [⟨1, 10, 0, []⟩] stillClock, .prepareAcks 1 [⟨1, 10, 0, []⟩] stillClock,
    .acceptAcks 0 [⟨1, 11, 11, false, [7]⟩] stillClock,
    .acceptAcks 1 [⟨1, 11, 11, false, [7]⟩] stillClock]

/-- The ready counter is left at one, with no slot ready. -/
theorem ready_delivered_stays_counted :
    ∃ p, run (proposerStep .small) (proposerInit .small stillClock ⟨0, 0⟩ 0) readyDelivered =
        .running p ∧ p.LeaderIsMe ∧ ¬ CountersExact .small p.leader := by
  have running : (run (proposerStep .small) (proposerInit .small stillClock ⟨0, 0⟩ 0)
      readyDelivered).IsRunning := by decide +kernel
  refine ⟨_, Outcome.running_of_isRunning running, by decide +kernel, fun exact => ?_⟩
  exact absurd exact.ready (by decide +kernel)

end FdsPaxos.Paxos2CountersExact
