import FdsPaxos.Paxos2LeaderIndices
import FdsPaxos.Paxos2LeaderCounters
import FdsPaxos.Paxos2LeaderInvariant

set_option autoImplicit false

namespace FdsPaxos.Paxos2DeliveryOrder
open TransitionRuns Paxos2Config Paxos2Messages Paxos2Learner Paxos2LearnerDelivery
open Paxos2Leader Paxos2Proposer Paxos2LeaderMoves Paxos2LeaderIndices Paxos2LeaderInvariant
open Paxos2LeaderCounters

variable {cfg : Config} {clock : ℕ → Timeval} {timeNow : Timeval} {s t : LeaderState}

theorem leaderPeriodicP1Check_currentIid
    (done : leaderPeriodicP1Check cfg clock timeNow s = .running t) :
    t.currentIid = s.currentIid := by
  obtain ⟨u, checked, opened⟩ := Outcome.bind_eq_running.mp done
  have retried : u.currentIid = s.currentIid :=
    congrArg Prod.fst (leaderCheckP1Pending_indices clock checked)
  rcases leaderOpenInstancesP1_indices clock opened with rfl | opened
  · exact retried
  · exact (congrArg Prod.fst opened : t.currentIid = u.currentIid).trans retried

theorem leaderInit_currentIid (done : leaderInit cfg clock timeNow s = .running t) :
    t.currentIid = s.currentIid := by
  obtain ⟨u, checked, last⟩ := Outcome.bind_eq_running.mp done
  cases last
  exact (leaderPeriodicP1Check_currentIid checked : u.currentIid = _)

theorem leaderOpenNew_currentIid {turns : ℕ} {count count' : UInt32}
    (done : leaderOpenNew cfg clock turns count s = .running (t, count')) :
    t.currentIid = s.currentIid := by
  induction turns generalizing s count with
  | zero =>
    cases done
    rfl
  | succ turns ih =>
    unfold leaderOpenNew at done
    dsimp only at done
    split_ifs at done
    · cases done
      rfl
    · cases done
      rfl
    · obtain ⟨u, first, later⟩ := Outcome.andThen_eq_running.mp done
      exact (ih later).trans (congrArg Prod.fst (leaderExecuteP2_indices clock first))

theorem leaderOpenInstancesP2New_currentIid
    (done : leaderOpenInstancesP2New cfg clock s = .running t) :
    t.currentIid = s.currentIid := by
  unfold leaderOpenInstancesP2New at done
  dsimp only at done
  split_ifs at done
  · cases done
    rfl
  · obtain ⟨⟨u, count⟩, loop, last⟩ := Outcome.andThen_eq_running.mp done
    cases last
    exact (leaderOpenNew_currentIid loop : u.currentIid = _)

theorem leaderCheckedP2_currentIid (isClosed : ℕ → Bool) :
    (leaderCheckedP2 cfg clock isClosed timeNow s).currentIid = s.currentIid :=
  congrArg Prod.fst (leaderCheckP2_indices clock isClosed timeNow _)

theorem leaderPeriodicP2Check_currentIid {isClosed : ℕ → Bool}
    (done : leaderPeriodicP2Check cfg clock isClosed timeNow s = .running t) :
    t.currentIid = s.currentIid := by
  rw [leaderPeriodicP2Check_eq] at done
  exact (leaderOpenInstancesP2New_currentIid done).trans (leaderCheckedP2_currentIid isClosed)

theorem leaderOpenInstancesP2Expired_currentIid
    (done : leaderOpenInstancesP2Expired cfg clock s = .running t) :
    t.currentIid = s.currentIid :=
  congrArg Prod.fst (leaderOpenInstancesP2Expired_indices clock done)

theorem handlePrepareAcks_currentIid (cfg : Config) (acceptorId : ℕ) (acks : List PrepareAck) :
    (handlePrepareAcks cfg acceptorId s acks).1.currentIid = s.currentIid :=
  congrArg Prod.fst (handlePrepareAcks_indices acceptorId acks)

variable {p q : ProposerState}

/-- The leader waits for instance `iid`, whether it leads or not. -/
def waitsFor (iid : ℕ) : LeaderInvariant where
  leads := fun l => l.currentIid = iid
  rests := fun l => l.currentIid = iid

theorem waitsFor_event (e : ProposerEvent)
    (noDelivery : ∀ acceptorId acks clock, e ≠ .acceptAcks acceptorId acks clock) {iid : ℕ} :
    (waitsFor iid).EventKeeps cfg p e := by
  cases e with
  | submit value => exact ⟨id, id⟩
  | leaderAnnounce currentLeader clock timeNow =>
    refine ⟨fun h => leaderShutdown_currentIid.trans h, fun _ h => ?_⟩
    exact Outcome.ensures_of_running fun l done => (leaderInit_currentIid done).trans h
  | p1Check clock timeNow =>
    intro leads h
    exact Outcome.ensures_of_running fun l done => (leaderPeriodicP1Check_currentIid done).trans h
  | p2Check clock timeNow =>
    intro leads h
    exact Outcome.ensures_of_running fun l done => (leaderPeriodicP2Check_currentIid done).trans h
  | prepareAcks acceptorId acks clock =>
    intro leads h
    have saved := (handlePrepareAcks_currentIid cfg acceptorId acks).trans h
    refine ⟨saved, fun _ => Outcome.ensures_of_running fun l done => ?_⟩
    obtain ⟨u, expired, new⟩ := Outcome.bind_eq_running.mp done
    calc
      l.currentIid = u.currentIid := leaderOpenInstancesP2New_currentIid new
      _ = _ := leaderOpenInstancesP2Expired_currentIid expired
      _ = iid := saved
  | acceptAcks acceptorId acks clock => exact absurd rfl (noDelivery acceptorId acks clock)
  | holeCheck => trivial

structure Synced (cfg : Config) (p : ProposerState) : Prop where
  sound : LearnerSound cfg p.learner
  opened : CurrentOpen cfg p.learner
  current : p.leader.currentIid = p.learner.currentIid

/-- The deliveries of the event come in the order of their instances. -/
def DeliversInOrder (cfg : Config) (p : ProposerState) (e : ProposerEvent) : Prop :=
  AlongDeliveries cfg (fun _ p d => d.iid = p.leader.currentIid) p e

theorem proDeliverCallback_advances {d : Delivery}
    (done : proDeliverCallback cfg clock p d = .running q) :
    q.leader.currentIid = d.iid + 1 ∧ q.learner = p.learner := by
  unfold proDeliverCallback at done
  dsimp only at done
  obtain ⟨l, handled, rfl⟩ := withLeader_eq_running.mp done
  obtain ⟨u, -, last⟩ := Outcome.bind_eq_running.mp handled
  cases last
  exact ⟨rfl, rfl⟩

theorem deliveries_advance {iid : ℕ} {ds : List Delivery} (waits : p.leader.currentIid = iid)
    (consecutive : ds.map Delivery.iid = List.range' iid ds.length) :
    Outcome.AlongFold (proDeliverCallback cfg clock) (fun p d => d.iid = p.leader.currentIid) p ds ∧
      ∀ q, Outcome.fold (proDeliverCallback cfg clock) p ds = .running q →
        q.leader.currentIid = iid + ds.length ∧ q.learner = p.learner := by
  induction ds generalizing p iid with
  | nil =>
    refine ⟨trivial, fun q done => ?_⟩
    cases done
    exact ⟨waits, rfl⟩
  | cons d ds ih =>
    rw [List.map_cons, List.length_cons, List.range'_succ] at consecutive
    obtain ⟨here, tail⟩ := List.cons.inj consecutive
    have next (q : ProposerState) (first : proDeliverCallback cfg clock p d = .running q) :
        q.leader.currentIid = iid + 1 := by
      rw [(proDeliverCallback_advances first).1, here]
    refine ⟨⟨here.trans waits.symm, ?_⟩, fun q done => ?_⟩
    · exact Outcome.ensures_of_running fun q first => (ih (next q first) tail).1
    · obtain ⟨u, first, rest⟩ := Outcome.bind_eq_running.mp done
      obtain ⟨current, learner⟩ := (ih (next u first) tail).2 q rest
      refine ⟨?_, learner.trans (proDeliverCallback_advances first).2⟩
      rw [current, List.length_cons]
      omega

theorem Synced.released (h : Synced cfg p) (acceptorId : ℕ) (acks : List AcceptAck) :
    ∃ ls ds, Paxos2Learner.handleAcceptAckBatch cfg p.learner acceptorId acks = .running (ls, ds) ∧
      ds.map Delivery.iid = List.range' p.leader.currentIid ds.length ∧
      LearnerSound cfg ls ∧ CurrentOpen cfg ls ∧
      ls.currentIid = p.leader.currentIid + ds.length := by
  have before : LearnerGood cfg (fun _ => True) p.learner.currentIid p.learner [] :=
    learnerGood_of_sound h.sound h.opened fun _ _ => trivial
  obtain ⟨ls, ds, handled, good⟩ :=
    before.batch acceptorId acks (along_takes _ _ fun _ _ _ _ => trivial)
  rw [h.current]
  exact ⟨ls, ds, handled, good.consecutive, good.sound, good.opened, good.current⟩

theorem Synced.inOrder (h : Synced cfg p) (e : ProposerEvent) : DeliversInOrder cfg p e := by
  cases e with
  | acceptAcks acceptorId acks clock =>
    obtain ⟨ls, ds, handled, consecutive, -⟩ := h.released acceptorId acks
    have released : releasedBy cfg p acceptorId acks = ({ p with learner := ls }, ds) := by
      rw [releasedBy, handled]
      rfl
    unfold DeliversInOrder AlongDeliveries
    dsimp only
    rw [released]
    exact (deliveries_advance (by rfl) consecutive).1
  | _ => trivial

theorem Synced.acceptAcks (h : Synced cfg p) {acceptorId : ℕ} {acks : List AcceptAck}
    (done : proHandleAcceptAckBatch cfg clock acceptorId acks p = .running q) : Synced cfg q := by
  obtain ⟨ls, ds, handled, consecutive, sound, opened, current⟩ := h.released acceptorId acks
  unfold proHandleAcceptAckBatch at done
  rw [handled] at done
  obtain ⟨current', learner⟩ := (deliveries_advance (by rfl) consecutive).2 q done
  have learner : q.learner = ls := learner
  refine ⟨learner ▸ sound, learner ▸ opened, ?_⟩
  rw [current', learner, current]

theorem learner_of_withLeader {o : LeaderOutcome} (done : p.withLeader o = .running q) :
    q.learner = p.learner := by
  obtain ⟨l, -, rfl⟩ := withLeader_eq_running.mp done
  rfl

theorem proHandleLeaderAnnounce_learner {currentLeader : ℕ}
    (done : proHandleLeaderAnnounce cfg clock timeNow currentLeader p = .running q) :
    q.learner = p.learner := by
  unfold proHandleLeaderAnnounce at done
  dsimp only at done
  split_ifs at done
  all_goals
    obtain ⟨r, first, last⟩ := Outcome.bind_eq_running.mp done
    cases last
    exact (learner_of_withLeader first : r.learner = _)

theorem handlePrepareAckBatch_learner {acceptorId : ℕ} {acks : List PrepareAck}
    (done : handlePrepareAckBatch cfg clock acceptorId acks p = .running q) :
    q.learner = p.learner := by
  unfold handlePrepareAckBatch at done
  dsimp only at done
  split_ifs at done
  · exact learner_of_withLeader done
  · cases done
    rfl
  · cases done
    rfl

theorem proposerHandle_learner (e : ProposerEvent)
    (noDelivery : ∀ acceptorId acks clock, e ≠ .acceptAcks acceptorId acks clock)
    (done : proposerHandle cfg p e = .running q) :
    q.learner.currentIid = p.learner.currentIid ∧
      q.learner.learnerState = p.learner.learnerState := by
  have same (h : q.learner = p.learner) : q.learner.currentIid = p.learner.currentIid ∧
      q.learner.learnerState = p.learner.learnerState := by
    rw [h]
    exact ⟨rfl, rfl⟩
  cases e with
  | submit value =>
    cases done
    exact ⟨rfl, rfl⟩
  | leaderAnnounce currentLeader clock timeNow => exact same (proHandleLeaderAnnounce_learner done)
  | p1Check clock timeNow =>
    unfold proposerHandle at done
    split_ifs at done
    · exact same (learner_of_withLeader done)
    · cases done
      exact ⟨rfl, rfl⟩
  | p2Check clock timeNow =>
    unfold proposerHandle at done
    split_ifs at done
    · exact same (learner_of_withLeader done)
    · cases done
      exact ⟨rfl, rfl⟩
  | prepareAcks acceptorId acks clock => exact same (handlePrepareAckBatch_learner done)
  | acceptAcks acceptorId acks clock => exact absurd rfl (noDelivery acceptorId acks clock)
  | holeCheck =>
    cases done
    exact leaHoleCheck_frame cfg p.learner

theorem Synced.handle (h : Synced cfg p) {e : ProposerEvent}
    (done : proposerHandle cfg p e = .running q) : Synced cfg q := by
  by_cases delivers : ∃ acceptorId acks clock, e = .acceptAcks acceptorId acks clock
  · obtain ⟨acceptorId, acks, clock, rfl⟩ := delivers
    exact h.acceptAcks done
  · have noDelivery (acceptorId : ℕ) (acks : List AcceptAck) (clock : ℕ → Timeval) :
        e ≠ .acceptAcks acceptorId acks clock :=
      fun same => delivers ⟨acceptorId, acks, clock, same⟩
    have waits : (waitsFor p.leader.currentIid).Holds p := ⟨fun _ => rfl, fun _ => rfl⟩
    have waited := waits.handle (waitsFor_event e noDelivery) done
    have advanced : q.leader.currentIid = p.leader.currentIid :=
      (em q.LeaderIsMe).elim waited.leads waited.rests
    obtain ⟨current, slots⟩ := proposerHandle_learner e noDelivery done
    refine ⟨⟨?_, fun slot => ?_⟩, ?_, ?_⟩
    · rw [current]
      exact h.sound.current_pos
    · rw [current, slots]
      exact h.sound.slots slot
    · unfold CurrentOpen
      rw [current, slots]
      exact h.opened
    · rw [advanced, current]
      exact h.current

theorem Synced.init {proposerId : ℕ}
    (done : proposerInit cfg clock timeNow proposerId = .running p) : Synced cfg p := by
  unfold proposerInit at done
  dsimp only at done
  split_ifs at done
  · obtain ⟨l, promoted, rfl⟩ := withLeader_eq_running.mp done
    exact ⟨learnerSound_init, rfl, leaderInit_currentIid promoted⟩
  · cases done
    exact ⟨learnerSound_init, rfl, rfl⟩

theorem synced_along (cfg : Config) (clock : ℕ → Timeval) (timeNow : Timeval)
    (proposerId : ℕ) (events : List ProposerEvent) :
    Along (proposerStep cfg) (WhenRunning fun p _ => Synced cfg p)
      (proposerInit cfg clock timeNow proposerId) events := by
  apply along_of_kept (fun o : ProposerOutcome => ∀ p, o = .running p → Synced cfg p)
  · exact fun p done => .init done
  · intro o e h q done
    obtain ⟨p, rfl, handled⟩ := Outcome.bind_eq_running.mp done
    exact (h p rfl).handle handled
  · intro o e h
    cases o with
    | running p => exact h p rfl
    | aborted fault p => trivial

/-- In every run the leader is given the instances in their order. -/
theorem deliveries_in_order (cfg : Config) (clock : ℕ → Timeval) (timeNow : Timeval)
    (proposerId : ℕ) (events : List ProposerEvent) :
    Along (proposerStep cfg) (WhenRunning (DeliversInOrder cfg))
      (proposerInit cfg clock timeNow proposerId) events := by
  apply (synced_along cfg clock timeNow proposerId events).imp
  intro e _ o synced
  cases o with
  | running p => exact synced.inOrder e
  | aborted fault p => trivial

end FdsPaxos.Paxos2DeliveryOrder
