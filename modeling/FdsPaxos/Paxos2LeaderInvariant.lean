import FdsPaxos.Paxos2LeaderMoves

set_option autoImplicit false

namespace FdsPaxos.Paxos2LeaderInvariant
open TransitionRuns Paxos2Config Paxos2Messages Paxos2ValuesHandler Paxos2Learner Paxos2Leader
open Paxos2Proposer Paxos2LeaderMoves

/-- What is kept of the leader's globals while the proposer leads, and while it does not. -/
structure LeaderInvariant where
  leads : LeaderState → Prop
  rests : LeaderState → Prop

/-- The handler, if it is not stopped by an assertion, leaves a state that meets `J`. -/
abbrev Leaves (o : LeaderOutcome) (J : LeaderState → Prop) : Prop :=
  o.Ensures J fun _ => True

def Promotes (p : ProposerState) (currentLeader : ℕ) : Prop :=
  ¬ p.LeaderIsMe ∧ currentLeader = p.leader.thisProposerId

instance (p : ProposerState) (currentLeader : ℕ) : Decidable (Promotes p currentLeader) :=
  inferInstanceAs (Decidable (_ ∧ _))

/-- The instances that a batch of accept acknowledgements releases, in the state in which
the first of them is delivered. -/
def releasedBy (cfg : Config) (p : ProposerState) (acceptorId : ℕ) (acks : List AcceptAck) :
    ProposerState × List Delivery :=
  let r := (Paxos2Learner.handleAcceptAckBatch cfg p.learner acceptorId acks).state
  ({ p with learner := r.1 }, r.2)

/-- A condition on the deliveries of an event, each in the state that it finds. -/
def AlongDeliveries (cfg : Config) (Q : (ℕ → Timeval) → ProposerState → Delivery → Prop)
    (p : ProposerState) : ProposerEvent → Prop
  | .acceptAcks acceptorId acks clock =>
    let r := releasedBy cfg p acceptorId acks
    Outcome.AlongFold (proDeliverCallback cfg clock) (Q clock) r.1 r.2
  | _ => True

instance AlongDeliveries.decidable (cfg : Config)
    (Q : (ℕ → Timeval) → ProposerState → Delivery → Prop) [∀ c p d, Decidable (Q c p d)]
    (p : ProposerState) (e : ProposerEvent) : Decidable (AlongDeliveries cfg Q p e) :=
  match e with
  | .acceptAcks acceptorId acks clock =>
    inferInstanceAs (Decidable (Outcome.AlongFold (proDeliverCallback cfg clock) (Q clock)
      (releasedBy cfg p acceptorId acks).1 (releasedBy cfg p acceptorId acks).2))
  | .submit _ | .leaderAnnounce _ _ _ | .p1Check _ _ | .p2Check _ _ | .prepareAcks _ _ _
  | .holeCheck => isTrue trivial

theorem AlongDeliveries.imp {cfg : Config} {p : ProposerState} {e : ProposerEvent}
    {P Q : (ℕ → Timeval) → ProposerState → Delivery → Prop} (h : AlongDeliveries cfg P p e)
    (imp : ∀ c p d, P c p d → Q c p d) : AlongDeliveries cfg Q p e := by
  cases e with
  | acceptAcks acceptorId acks clock =>
    exact Outcome.AlongFold.of_invariant (fun _ => True) trivial (fun _ _ _ _ _ _ => trivial)
      (fun p d _ met => imp clock p d met) h
  | _ => trivial

theorem AlongDeliveries.and {cfg : Config} {p : ProposerState} {e : ProposerEvent}
    {P Q : (ℕ → Timeval) → ProposerState → Delivery → Prop} (h : AlongDeliveries cfg P p e)
    (other : AlongDeliveries cfg Q p e) :
    AlongDeliveries cfg (fun c p d => P c p d ∧ Q c p d) p e := by
  cases e with
  | acceptAcks acceptorId acks clock => exact Outcome.AlongFold.and h other
  | _ => trivial

def WhenPromoted (P : LeaderState → Prop) (p : ProposerState) : ProposerEvent → Prop
  | .leaderAnnounce currentLeader _ _ => Promotes p currentLeader → P p.leader
  | _ => True

instance WhenPromoted.decidable (P : LeaderState → Prop) [DecidablePred P] (p : ProposerState)
    (e : ProposerEvent) : Decidable (WhenPromoted P p e) :=
  match e with
  | .leaderAnnounce currentLeader _ _ =>
    inferInstanceAs (Decidable (Promotes p currentLeader → P p.leader))
  | .submit _ | .p1Check _ _ | .p2Check _ _ | .prepareAcks _ _ _ | .acceptAcks _ _ _
  | .holeCheck => isTrue trivial

namespace LeaderInvariant

variable (I : LeaderInvariant)

structure Holds (p : ProposerState) : Prop where
  leads : p.LeaderIsMe → I.leads p.leader
  rests : ¬ p.LeaderIsMe → I.rests p.leader

structure DeliveryKeeps (cfg : Config) (clock : ℕ → Timeval) (p : ProposerState) (d : Delivery) :
    Prop where
  leads : p.LeaderIsMe → I.leads p.leader →
    Leaves (leaderDeliver cfg clock (p.leader.log (.delivered d.iid d.value)) d.value d.iid)
      fun l => I.leads (leaderDelivered d.iid l)
  rests : I.rests p.leader →
    I.rests (leaderDelivered d.iid (p.leader.log (.delivered d.iid d.value)))

/-- What the routines run by an event must leave. -/
def EventKeeps (cfg : Config) (p : ProposerState) : ProposerEvent → Prop
  | .submit value =>
    let enqueued := p.leader.withValues (vhEnqueueValue cfg p.leader.valuesHandler value)
    (I.leads p.leader → I.leads enqueued) ∧ (I.rests p.leader → I.rests enqueued)
  | .leaderAnnounce currentLeader clock timeNow =>
    (I.leads p.leader → I.rests (leaderShutdown cfg p.leader)) ∧
      (Promotes p currentLeader → I.rests p.leader →
        Leaves (leaderInit cfg clock timeNow p.leader) I.leads)
  | .p1Check clock timeNow =>
    p.LeaderIsMe → I.leads p.leader →
      Leaves (leaderPeriodicP1Check cfg clock timeNow p.leader) I.leads
  | .p2Check clock timeNow =>
    p.LeaderIsMe → I.leads p.leader →
      Leaves (leaderPeriodicP2Check cfg clock
        (fun iid => decide (learnerIsClosed cfg p.learner iid)) timeNow p.leader) I.leads
  | .prepareAcks acceptorId acks clock =>
    let r := handlePrepareAcks cfg acceptorId p.leader acks
    p.LeaderIsMe → I.leads p.leader → I.leads r.1 ∧
      (0 < r.2 → Leaves ((leaderOpenInstancesP2Expired cfg clock r.1).bind
        (leaderOpenInstancesP2New cfg clock)) I.leads)
  | .acceptAcks acceptorId acks clock =>
    AlongDeliveries cfg (I.DeliveryKeeps cfg) p (.acceptAcks acceptorId acks clock)
  | .holeCheck => True

variable {I} {cfg : Config} {p q : ProposerState}

theorem Holds.led (leads : p.LeaderIsMe) (h : I.leads p.leader) : I.Holds p :=
  ⟨fun _ => h, fun rests => absurd leads rests⟩

theorem Holds.rested (rests : ¬ p.LeaderIsMe) (h : I.rests p.leader) : I.Holds p :=
  ⟨fun leads => absurd leads rests, fun _ => h⟩

theorem Holds.routine {o : LeaderOutcome} (leads : p.LeaderIsMe)
    (moves : Moves cfg (AckCondition.only fun _ _ _ => True) p.leader o.state)
    (leaves : Leaves o I.leads) (done : p.withLeader o = .running q) : I.Holds q := by
  obtain ⟨l, rfl, rfl⟩ := withLeader_eq_running.mp done
  exact .led (moves.thisProposerId.trans leads) leaves

theorem Holds.delivery (h : I.Holds p) {clock : ℕ → Timeval} {d : Delivery}
    (keeps : I.DeliveryKeeps cfg clock p d)
    (done : proDeliverCallback cfg clock p d = .running q) : I.Holds q := by
  have moves : Moves cfg (AckCondition.only fun _ _ _ => True) p.leader
      (proDeliverCallback cfg clock p d).state.leader :=
    proDeliverCallback_moves clock p d (fun _ => trivial) trivial
  rw [done] at moves
  have named := moves.thisProposerId
  unfold proDeliverCallback at done
  dsimp only at done
  obtain ⟨l, handled, rfl⟩ := withLeader_eq_running.mp done
  obtain ⟨u, first, last⟩ := Outcome.bind_eq_running.mp handled
  cases last
  by_cases leads : p.LeaderIsMe
  · rw [if_pos leads] at first
    exact .led (named.trans leads) ((keeps.leads leads (h.leads leads)).of_running first)
  · rw [if_neg leads] at first
    cases first
    exact .rested (fun led => leads (named.symm.trans led)) (keeps.rests (h.rests leads))

theorem Holds.announce (h : I.Holds p) {currentLeader : ℕ} {clock : ℕ → Timeval}
    {timeNow : Timeval} (keeps : I.EventKeeps cfg p (.leaderAnnounce currentLeader clock timeNow))
    (done : proHandleLeaderAnnounce cfg clock timeNow currentLeader p = .running q) :
    I.Holds q := by
  obtain ⟨stops, starts⟩ := keeps
  unfold proHandleLeaderAnnounce at done
  dsimp only at done
  split_ifs at done with stepDown stepUp
  · obtain ⟨leads, other⟩ := stepDown
    cases done
    have moves : Moves cfg (AckCondition.only fun _ _ _ => True) p.leader
        (leaderShutdown cfg p.leader) := leaderShutdown_moves p.leader fun _ => trivial
    apply Holds.rested ?_ (stops (h.leads leads))
    exact fun leads => other (moves.thisProposerId.symm.trans leads).symm
  · obtain ⟨rests, me⟩ := stepUp
    obtain ⟨r, first, last⟩ := Outcome.bind_eq_running.mp done
    obtain ⟨l, promoted, rfl⟩ := withLeader_eq_running.mp first
    cases last
    have moves : Moves cfg (AckCondition.only fun _ _ _ => True) p.leader l :=
      (leaderInit_moves clock timeNow p.leader fun _ => trivial).of_running promoted
    exact .led (moves.thisProposerId.trans me.symm)
      ((starts ⟨rests, me⟩ (h.rests rests)).of_running promoted)
  · cases done
    refine ⟨fun leads => ?_, fun rests => ?_⟩
    · exact h.leads (by_contra fun rests => stepUp ⟨rests, leads.symm⟩)
    · exact h.rests fun leads => stepDown ⟨leads, fun me => rests me.symm⟩

theorem Holds.prepareAcks (h : I.Holds p) {acceptorId : ℕ} {acks : List PrepareAck}
    {clock : ℕ → Timeval} (keeps : I.EventKeeps cfg p (.prepareAcks acceptorId acks clock))
    (done : handlePrepareAckBatch cfg clock acceptorId acks p = .running q) : I.Holds q := by
  have moves : Moves cfg (AckCondition.only fun _ _ _ => True) p.leader
      (handlePrepareAckBatch cfg clock acceptorId acks p).state.leader :=
    handlePrepareAckBatch_moves clock acceptorId acks p fun _ => along_of_mem fun _ _ _ => trivial
  rw [done] at moves
  unfold handlePrepareAckBatch at done
  dsimp only at done
  split_ifs at done with leads ready
  · obtain ⟨l, opened, rfl⟩ := withLeader_eq_running.mp done
    obtain ⟨-, leaves⟩ := keeps leads (h.leads leads)
    exact .led (moves.thisProposerId.trans leads) ((leaves ready).of_running opened)
  · cases done
    exact .led (moves.thisProposerId.trans leads) (keeps leads (h.leads leads)).1
  · cases done
    exact h

theorem Holds.acceptAcks (h : I.Holds p) {acceptorId : ℕ} {acks : List AcceptAck}
    {clock : ℕ → Timeval} (keeps : I.EventKeeps cfg p (.acceptAcks acceptorId acks clock))
    (done : proHandleAcceptAckBatch cfg clock acceptorId acks p = .running q) : I.Holds q := by
  have heard : I.Holds (releasedBy cfg p acceptorId acks).1 := ⟨h.leads, h.rests⟩
  have delivered (done : Outcome.fold (proDeliverCallback cfg clock)
      (releasedBy cfg p acceptorId acks).1 (releasedBy cfg p acceptorId acks).2 = .running q) :
      I.Holds q :=
    Outcome.AlongFold.invariant I.Holds heard
      (fun _ _ _ h keeps turn => h.delivery keeps turn) keeps done
  revert delivered
  unfold releasedBy
  unfold proHandleAcceptAckBatch at done
  revert done
  cases Paxos2Learner.handleAcceptAckBatch cfg p.learner acceptorId acks with
  | running r => exact fun done delivered => delivered done
  | aborted fault r =>
    intro done
    obtain ⟨u, -, stopped⟩ := Outcome.bind_eq_running.mp done
    cases stopped

theorem Holds.handle (h : I.Holds p) {e : ProposerEvent} (keeps : I.EventKeeps cfg p e)
    (done : proposerHandle cfg p e = .running q) : I.Holds q := by
  cases e with
  | submit value =>
    cases done
    exact ⟨fun leads => keeps.1 (h.leads leads), fun rests => keeps.2 (h.rests rests)⟩
  | leaderAnnounce currentLeader clock timeNow => exact h.announce keeps done
  | p1Check clock timeNow =>
    unfold proposerHandle at done
    split_ifs at done with leads
    · exact .routine leads (leaderPeriodicP1Check_moves clock timeNow p.leader fun _ => trivial)
        (keeps leads (h.leads leads)) done
    · cases done
      exact h
  | p2Check clock timeNow =>
    unfold proposerHandle at done
    split_ifs at done with leads
    · exact .routine leads (leaderPeriodicP2Check_moves clock _ timeNow p.leader)
        (keeps leads (h.leads leads)) done
    · cases done
      exact h
  | prepareAcks acceptorId acks clock => exact h.prepareAcks keeps done
  | acceptAcks acceptorId acks clock => exact h.acceptAcks keeps done
  | holeCheck =>
    cases done
    exact ⟨h.leads, h.rests⟩

theorem Holds.init {clock : ℕ → Timeval} {timeNow : Timeval} {proposerId : ℕ}
    (blank : I.rests (initProStructs proposerId))
    (starts : Leaves (leaderInit cfg clock timeNow (initProStructs proposerId)) I.leads)
    (done : proposerInit cfg clock timeNow proposerId = .running p) : I.Holds p := by
  unfold proposerInit at done
  dsimp only at done
  split_ifs at done with leads
  · obtain ⟨l, promoted, rfl⟩ := withLeader_eq_running.mp done
    have moves : Moves cfg (AckCondition.only fun _ _ _ => True) (initProStructs proposerId) l :=
      (leaderInit_moves clock timeNow _ fun _ => trivial).of_running promoted
    exact .led (moves.thisProposerId.trans leads) (starts.of_running promoted)
  · cases done
    exact .rested leads blank

end LeaderInvariant

/-- A condition on the events of a proposer, for a process that may have stopped. -/
def WhenRunning (P : ProposerState → ProposerEvent → Prop) (o : ProposerOutcome)
    (e : ProposerEvent) : Prop :=
  match o with
  | .running p => P p e
  | .aborted _ _ => True

instance WhenRunning.decidable (P : ProposerState → ProposerEvent → Prop)
    [∀ p e, Decidable (P p e)] (o : ProposerOutcome) (e : ProposerEvent) :
    Decidable (WhenRunning P o e) :=
  match o with
  | .running p => inferInstanceAs (Decidable (P p e))
  | .aborted _ _ => isTrue trivial

theorem WhenRunning.and {P Q : ProposerState → ProposerEvent → Prop} {o : ProposerOutcome}
    {e : ProposerEvent} (h : WhenRunning P o e ∧ WhenRunning Q o e) :
    WhenRunning (fun p e => P p e ∧ Q p e) o e := by
  cases o with
  | running p => exact h
  | aborted fault p => trivial

namespace LeaderInvariant

variable {I : LeaderInvariant} {cfg : Config} {P Q : ProposerState → ProposerEvent → Prop}
  {o : ProposerOutcome} {events : List ProposerEvent}

theorem step_holds (h : ∀ p, o = .running p → I.Holds p) {e : ProposerEvent}
    (keeps : ∀ p, P p e → I.EventKeeps cfg p e) (met : WhenRunning P o e) :
    ∀ q, proposerStep cfg o e = .running q → I.Holds q := by
  intro q done
  obtain ⟨p, rfl, done⟩ := Outcome.bind_eq_running.mp done
  exact (h p rfl).handle (keeps p met) done

/-- The run rule: events that meet `P` keep what is kept by their routines. -/
theorem run_holds (start : ∀ p, o = .running p → I.Holds p)
    (keeps : ∀ p e, P p e → I.EventKeeps cfg p e)
    (along : Along (proposerStep cfg) (WhenRunning P) o events) :
    ∀ p, run (proposerStep cfg) o events = .running p → I.Holds p :=
  Along.invariant (fun o : ProposerOutcome => ∀ p, o = .running p → I.Holds p) start
    (fun _ e h met => step_holds h (fun p => keeps p e) met) along

theorem along_holds (start : ∀ p, o = .running p → I.Holds p)
    (keeps : ∀ p e, P p e → I.EventKeeps cfg p e) (gives : ∀ p e, I.Holds p → P p e → Q p e)
    (along : Along (proposerStep cfg) (WhenRunning P) o events) :
    Along (proposerStep cfg) (WhenRunning Q) o events := by
  refine Along.of_invariant (fun o : ProposerOutcome => ∀ p, o = .running p → I.Holds p) start
    (fun _ e h met => step_holds h (fun p => keeps p e) met) ?_ along
  intro o e h met
  cases o with
  | running p => exact gives p e (h p rfl) met
  | aborted fault p => trivial

end LeaderInvariant

end FdsPaxos.Paxos2LeaderInvariant
