import FdsPaxos.Paxos2LeaderWindow
import FdsPaxos.Paxos2LearnerSoundness
import FdsPaxos.Paxos2World

set_option autoImplicit false

namespace FdsPaxos.Paxos2SingleLeader
open TransitionRuns CircularWindow Paxos2Config Paxos2Messages Paxos2SendBuffer
open Paxos2Learner Paxos2LearnerDelivery Paxos2Leader Paxos2Proposer Paxos2LeaderMoves
open Paxos2LeaderIndices Paxos2LeaderWindow

def ProcessFault : ProposerFault → Prop
  | .leader fault => SlotFault fault
  | .learner _ => False

instance (fault : ProposerFault) : Decidable (ProcessFault fault) :=
  match fault with
  | .leader fault => inferInstanceAs (Decidable (SlotFault fault))
  | .learner _ => isFalse id

/-- The acknowledgements of a slot are for instances up to `high`. -/
def AckedWithin (high : ℕ) (acks : ℕ → Option AcceptAck) : Prop :=
  ∀ a aa, acks a = some aa → aa.iid ≤ high

/-- A leading process whose window fits its array and whose learner knows of no instance
that it has not opened. -/
structure ProcessWindow (cfg : Config) (p : ProposerState) : Prop where
  leads : p.LeaderIsMe
  window : Windowed cfg p.leader.currentIid p.leader
  current : p.leader.currentIid = p.learner.currentIid
  learner : LearnerGood cfg (AckedWithin p.leader.p1Info.highestOpen) p.learner.currentIid
    p.learner []

variable {cfg : Config} {p q : ProposerState} (clock : ℕ → Timeval)

theorem withLeader_ensures (p : ProposerState) {o : LeaderOutcome} {I : LeaderState → Prop}
    {J : ProposerState → Prop} (h : o.Ensures I fun fault => ¬ SlotFault fault)
    (imp : ∀ l, o = .running l → I l → J { p with leader := l }) :
    (p.withLeader o).Ensures J fun fault => ¬ ProcessFault fault := by
  cases o with
  | running l => exact imp l rfl h
  | aborted fault l => exact h

theorem ProcessWindow.led (h : ProcessWindow cfg p) {l : LeaderState}
    (window : Windowed cfg p.leader.currentIid l) (current : l.currentIid = p.leader.currentIid)
    (grown : p.leader.p1Info.highestOpen ≤ l.p1Info.highestOpen)
    (moves : Moves cfg (AckCondition.only fun _ _ _ => True) p.leader l) :
    ProcessWindow cfg { p with leader := l } ∧
      p.leader.p1Info.highestOpen ≤ l.p1Info.highestOpen := by
  refine ⟨⟨moves.thisProposerId.trans h.leads, current ▸ window, current.trans h.current, ?_⟩,
    grown⟩
  exact h.learner.mono fun acks within a aa stored => (within a aa stored).trans grown

theorem ProcessWindow.routine (h : ProcessWindow cfg p) {o : LeaderOutcome}
    (ensured : o.Ensures (fun l => Windowed cfg p.leader.currentIid l ∧
      l.currentIid = p.leader.currentIid ∧ p.leader.p1Info.highestOpen ≤ l.p1Info.highestOpen)
      fun fault => ¬ SlotFault fault)
    (moves : Moves cfg (AckCondition.only fun _ _ _ => True) p.leader o.state) :
    (p.withLeader o).Ensures
      (fun q => ProcessWindow cfg q ∧
        p.leader.p1Info.highestOpen ≤ q.leader.p1Info.highestOpen)
      fun fault => ¬ ProcessFault fault := by
  refine withLeader_ensures p ensured ?_
  rintro l done ⟨window, current, grown⟩
  exact h.led window current grown (moves.of_running done)

theorem proDeliverCallback_window {d : Delivery} (leads : p.LeaderIsMe)
    (window : Windowed cfg d.iid p.leader) (below : d.iid ≤ p.leader.p1Info.highestOpen) :
    (proDeliverCallback cfg clock p d).Ensures
      (fun q => q.LeaderIsMe ∧ Windowed cfg (d.iid + 1) q.leader ∧
        q.leader.currentIid = d.iid + 1 ∧ q.learner = p.learner ∧
        q.leader.p1Info.highestOpen = p.leader.p1Info.highestOpen)
      fun fault => ¬ ProcessFault fault := by
  unfold proDeliverCallback
  dsimp only
  rw [if_pos leads]
  have handled := window.deliver clock below d.value
  refine withLeader_ensures p (I := fun l => Windowed cfg (d.iid + 1) l ∧
      l.currentIid = d.iid + 1 ∧ l.thisProposerId = p.leader.thisProposerId ∧
      l.p1Info.highestOpen = p.leader.p1Info.highestOpen) ?_ ?_
  · refine Outcome.Ensures.bind (I := fun t => (Windowed cfg (d.iid + 1) t ∧
        t.p1Info.highestOpen = p.leader.p1Info.highestOpen) ∧
        t.thisProposerId = p.leader.thisProposerId) ?_ ?_
    · refine handled.mono fun t done kept => ⟨kept, ?_⟩
      have moves : Moves cfg (AckCondition.only fun _ _ _ => True) _ t :=
        (leaderDeliver_moves clock _ d.value d.iid fun _ => trivial).of_running done
      exact moves.thisProposerId
    · rintro t ⟨⟨kept, highest⟩, same⟩
      have advanced : Quiet t (leaderDelivered d.iid t) := .of_eq rfl rfl rfl rfl rfl
      exact ⟨kept.kept advanced.moves rfl kept.unused_ge kept.unused_le, rfl, same, highest⟩
  · rintro l - ⟨kept, current, same, highest⟩
    exact ⟨same.trans leads, kept, current, rfl, highest⟩

theorem deliveries_window (ds : List Delivery) (leads : p.LeaderIsMe)
    (window : Windowed cfg p.leader.currentIid p.leader)
    (consecutive : ds.map Delivery.iid = List.range' p.leader.currentIid ds.length)
    (below : ∀ d ∈ ds, d.iid ≤ p.leader.p1Info.highestOpen) :
    (Outcome.fold (proDeliverCallback cfg clock) p ds).Ensures
      (fun q => q.LeaderIsMe ∧ Windowed cfg q.leader.currentIid q.leader ∧
        q.leader.currentIid = p.leader.currentIid + ds.length ∧ q.learner = p.learner ∧
        q.leader.p1Info.highestOpen = p.leader.p1Info.highestOpen)
      fun fault => ¬ ProcessFault fault := by
  induction ds generalizing p with
  | nil => exact ⟨leads, window, rfl, rfl, rfl⟩
  | cons d ds ih =>
    rw [List.map_cons, List.length_cons, List.range'_succ] at consecutive
    obtain ⟨here, tail⟩ := List.cons.inj consecutive
    obtain ⟨first, rest⟩ := List.forall_mem_cons.mp below
    refine (proDeliverCallback_window clock leads (here ▸ window) first).bind ?_
    rintro r ⟨leads', window', current, learner, highest⟩
    have tail' : ds.map Delivery.iid = List.range' r.leader.currentIid ds.length := by
      rw [tail, current, here]
    refine (ih leads' (current ▸ window') tail' fun d hd => highest ▸ rest d hd).mono ?_
    rintro q - ⟨leads'', window'', current', learner', highest'⟩
    refine ⟨leads'', window'', ?_, learner'.trans learner, highest'.trans highest⟩
    rw [current', current, here, List.length_cons]
    omega

/-- There is room in the array for the instances that phase 1 opens during the event. -/
def EventFits (cfg : Config) (p : ProposerState) : ProposerEvent → Prop
  | .p1Check _ _ => RoomToOpen cfg p.leader
  | _ => True

instance (p : ProposerState) (e : ProposerEvent) : Decidable (EventFits cfg p e) :=
  match e with
  | .p1Check _ _ => inferInstanceAs (Decidable (RoomToOpen cfg p.leader))
  | .submit _ | .leaderAnnounce _ _ _ | .p2Check _ _ | .prepareAcks _ _ _ | .acceptAcks _ _ _
  | .holeCheck => isTrue trivial

/-- No other leader is announced, and acknowledgements are for opened instances. -/
def EventWithin (p : ProposerState) : ProposerEvent → Prop
  | .leaderAnnounce currentLeader _ _ => currentLeader = p.leader.thisProposerId
  | .acceptAcks _ acks _ => ∀ aa ∈ acks, aa.iid ≤ p.leader.p1Info.highestOpen
  | _ => True

theorem takes_within {high : ℕ} (lr : LearnerRun) (a : ℕ) (acks : List AcceptAck)
    (within : ∀ aa ∈ acks, aa.iid ≤ high) :
    Along (learnerStep cfg) (Takes cfg (AckedWithin high)) lr
      (acks.map fun aa => (a, aa)) := by
  refine along_takes _ _ ?_
  intro m hm stored old a' aa' found
  obtain ⟨aa, haa, rfl⟩ := List.mem_map.mp hm
  rw [setSlot_apply] at found
  split_ifs at found
  · cases found
    exact within aa haa
  · exact old a' aa' found

theorem ProcessWindow.acceptAcks (h : ProcessWindow cfg p) (a : ℕ) (acks : List AcceptAck)
    (within : ∀ aa ∈ acks, aa.iid ≤ p.leader.p1Info.highestOpen) :
    (proHandleAcceptAckBatch cfg clock a acks p).Ensures
      (fun q => ProcessWindow cfg q ∧
        p.leader.p1Info.highestOpen ≤ q.leader.p1Info.highestOpen)
      fun fault => ¬ ProcessFault fault := by
  obtain ⟨ls, ds, handled, good⟩ := h.learner.batch a acks (takes_within _ a acks within)
  unfold proHandleAcceptAckBatch
  rw [handled]
  have below : ∀ d ∈ ds, d.iid ≤ p.leader.p1Info.highestOpen := by
    intro d hd
    obtain ⟨-, own, fa, ⟨a', -, stored, -⟩, -⟩ := good.agreed d hd
    rw [← own a' fa stored]
    exact good.sources d hd a' fa stored
  have consecutive : ds.map Delivery.iid = List.range' p.leader.currentIid ds.length := by
    rw [h.current]
    exact good.consecutive
  refine (deliveries_window clock (p := { p with learner := ls }) ds h.leads h.window consecutive
    below).mono ?_
  rintro q - ⟨leads, window, current, learner, highest⟩
  have current : q.leader.currentIid = p.leader.currentIid + ds.length := current
  have learner : q.learner = ls := learner
  have highest : q.leader.p1Info.highestOpen = p.leader.p1Info.highestOpen := highest
  refine ⟨⟨leads, window, ?_, ?_⟩, highest.ge⟩
  · rw [current, learner, good.current, h.current]
  · rw [learner, highest]
    exact good.rebase

theorem ProcessWindow.prepareAcks (h : ProcessWindow cfg p) (a : ℕ) (acks : List PrepareAck) :
    (handlePrepareAckBatch cfg clock a acks p).Ensures
      (fun q => ProcessWindow cfg q ∧
        p.leader.p1Info.highestOpen ≤ q.leader.p1Info.highestOpen)
      fun fault => ¬ ProcessFault fault := by
  have counted : Windowed cfg p.leader.currentIid (handlePrepareAcks cfg a p.leader acks).1 :=
    h.window.prepareAcks a acks
  have same : indices (handlePrepareAcks cfg a p.leader acks).1 = indices p.leader :=
    handlePrepareAcks_indices a acks
  have moves : Moves cfg (AckCondition.only fun _ _ _ => True) p.leader
      (handlePrepareAcks cfg a p.leader acks).1 :=
    handlePrepareAcks_moves a p.leader acks
      (along_of_mem fun _ _ _ => trivial)
  simp only [indices, Prod.mk.injEq] at same
  obtain ⟨current, -, highest⟩ := same
  unfold handlePrepareAckBatch
  dsimp only
  rw [if_pos h.leads]
  split_ifs with ready
  · refine h.routine ?_ (moves.trans (.bind (leaderOpenInstancesP2Expired_moves clock _)
      (leaderOpenInstancesP2New_moves clock)))
    refine (counted.openInstancesP2Expired clock current).bind ?_
    rintro u ⟨expired, same⟩
    simp only [indices, Prod.mk.injEq] at same
    refine (expired.openInstancesP2New clock).mono fun l _ kept => ⟨kept.1, ?_, ?_⟩
    · exact kept.2.1.trans (same.1.trans current)
    · rw [kept.2.2, same.2.2, highest]
  · exact h.led counted current highest.ge moves

theorem ProcessWindow.event (h : ProcessWindow cfg p) (e : ProposerEvent)
    (fits : EventFits cfg p e) (within : EventWithin p e) :
    (proposerHandle cfg p e).Ensures
      (fun q => ProcessWindow cfg q ∧
        p.leader.p1Info.highestOpen ≤ q.leader.p1Info.highestOpen)
      fun fault => ¬ ProcessFault fault := by
  cases e with
  | submit value =>
    have enqueued (vh : Paxos2ValuesHandler.ValuesHandler) :
        Quiet p.leader { p.leader with valuesHandler := vh } := .of_eq rfl rfl rfl rfl rfl
    exact h.led (h.window.same (enqueued _).moves rfl) rfl (le_refl _) (enqueued _).moves
  | leaderAnnounce currentLeader clock timeNow =>
    have within : currentLeader = p.leader.thisProposerId := within
    have step : proposerHandle cfg p (.leaderAnnounce currentLeader clock timeNow) =
        .running { p with currentLeaderId := currentLeader } := by
      change proHandleLeaderAnnounce cfg clock timeNow currentLeader p = _
      unfold proHandleLeaderAnnounce
      dsimp only
      rw [if_neg fun stepDown => stepDown.2 within, if_neg fun stepUp => stepUp.1 h.leads]
      rfl
    rw [step]
    exact ⟨⟨within.symm, h.window, h.current, h.learner⟩, le_refl _⟩
  | p1Check clock timeNow =>
    have step : proposerHandle cfg p (.p1Check clock timeNow) =
        p.withLeader (leaderPeriodicP1Check cfg clock timeNow p.leader) := if_pos h.leads
    rw [step]
    exact h.routine (h.window.periodicP1Check clock rfl (h.window.opensFit rfl fits) timeNow)
      (leaderPeriodicP1Check_moves clock timeNow p.leader fun _ => trivial)
  | p2Check clock timeNow =>
    have step : proposerHandle cfg p (.p2Check clock timeNow) =
        p.withLeader (leaderPeriodicP2Check cfg clock
          (fun iid => decide (learnerIsClosed cfg p.learner iid)) timeNow p.leader) :=
      if_pos h.leads
    rw [step]
    refine h.routine ?_ (leaderPeriodicP2Check_moves clock _ timeNow p.leader)
    exact (h.window.periodicP2Check clock _ timeNow).mono fun l _ kept =>
      ⟨kept.1, kept.2.1, kept.2.2.ge⟩
  | prepareAcks a acks clock => exact h.prepareAcks clock a acks
  | acceptAcks a acks clock => exact h.acceptAcks clock a acks within
  | holeCheck =>
    obtain ⟨current, -⟩ := leaHoleCheck_frame cfg p.learner
    exact ⟨⟨h.leads, h.window, h.current.trans current.symm, h.learner.holeCheck.rebase⟩,
      le_refl _⟩

/-- Proposer 0 starts with `PROPOSER_PREEXEC_WIN_SIZE` instances open. -/
theorem processWindow_init (cfg : Config) (timeNow : Timeval) :
    (proposerInit cfg clock timeNow 0).Ensures (ProcessWindow cfg)
      fun fault => ¬ ProcessFault fault := by
  set start := flushPrepareBuf (clearPrepareBuf (leaderResetP1 (initProStructs 0))) with hstart
  have blank : Filled cfg 1 0 start := by
    have empty : Filled cfg 1 0 (initProStructs 0) :=
      { ahead := ahead_initProStructs cfg 0
        owned := fun i above below => by omega
        sends := ⟨.new, .new⟩ }
    have reset : Quiet (initProStructs 0) (leaderResetP1 (initProStructs 0)) :=
      .of_eq rfl rfl rfl rfl rfl
    exact empty.kept ((reset.moves.trans (quiet_clearPrepareBuf _).moves).trans
      (quiet_flushPrepareBuf _).moves)
  have fits : OpensFit cfg start := by
    intro _ _
    have idle : activeCount start = 0 := rfl
    have preexec := cfg.preexec_lt
    unfold leaderToOpen
    rw [idle]
    change 0 + (cfg.proposerPreexecWinSize - 0) < 1 + cfg.proposerArraySize
    omega
  have opened := blank.openInstancesP1 clock (s := start) (le_refl _) (by
    change 0 < 1 + cfg.proposerArraySize
    omega) rfl fits
  have begun : (leaderInit cfg clock timeNow (initProStructs 0)).Ensures
      (fun l => Windowed cfg 1 l ∧ l.currentIid = 1) fun fault => ¬ SlotFault fault := by
    refine Outcome.Ensures.bind (o := leaderPeriodicP1Check cfg clock timeNow _) opened ?_
    rintro t ⟨filled, -, current, -, room⟩
    have reset : Quiet t (leaderResetP2 t) := .of_eq rfl rfl rfl rfl rfl
    refine ⟨⟨Nat.one_pos, filled.kept reset.moves, current.ge, ?_, room⟩, current⟩
    change t.currentIid ≤ t.p1Info.highestOpen + 1
    omega
  have leads : ({ currentLeaderId := 0, leader := initProStructs 0, learner := learnerInit } :
      ProposerState).LeaderIsMe := rfl
  unfold proposerInit
  dsimp only
  rw [if_pos leads]
  refine withLeader_ensures _ begun ?_
  rintro l done ⟨window, current⟩
  have moves : Moves cfg (AckCondition.only fun _ _ _ => True) (initProStructs 0) l :=
    (leaderInit_moves clock timeNow _ fun _ => trivial).of_running done
  refine ⟨moves.thisProposerId, current ▸ window, current, ?_⟩
  exact learnerGood_init cfg fun _ _ h => nomatch h

end FdsPaxos.Paxos2SingleLeader
