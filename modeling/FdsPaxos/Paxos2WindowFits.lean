import FdsPaxos.Paxos2SingleLeader

set_option autoImplicit false

namespace FdsPaxos.Paxos2WindowFits
open TransitionRuns Paxos2Config Paxos2Messages Paxos2SendBuffer Paxos2StableStorage
open Paxos2Acceptor Paxos2AcceptorSafety Paxos2AcceptorMoves Paxos2Learner Paxos2Leader
open Paxos2Proposer Paxos2AckWorld Paxos2World Paxos2LeaderWindow Paxos2SingleLeader

section Acceptors

/-- All that an acceptor acknowledges, now or when asked again, is for instances up to `high`. -/
structure AcksWithin (high : ℕ) (s : AcceptorState) : Prop where
  stored : ∀ i rec, s.storage.db i = some rec → 0 < rec.value.length → rec.iid ≤ high
  highest : s.highestAcceptedIid ≤ high
  acked : s.toLearners.All fun aa => aa.iid ≤ high

/-- Accept requests are for instances up to `high`. -/
def requestWithin (high : ℕ) : AcceptCondition := fun _ ar => ar.iid ≤ high

variable {cfg : Config} {high high' : ℕ} {s t : AcceptorState}

theorem acksWithin_init (high a : ℕ) : AcksWithin high (acceptorInit a) where
  stored := fun _ _ h => nomatch h
  highest := Nat.zero_le _
  acked := .new

theorem AcksWithin.mono (h : AcksWithin high s) (grown : high ≤ high') : AcksWithin high' s where
  stored := fun i rec found stored => (h.stored i rec found stored).trans grown
  highest := h.highest.trans grown
  acked := h.acked.mono fun _ within => within.trans grown

theorem acksWithin_move (h : AcksWithin high s) (move : Move cfg (requestWithin high) s t) :
    AcksWithin high t := by
  cases move with
  | quiet quiet =>
    exact ⟨quiet.storage ▸ h.stored, quiet.highest ▸ h.highest, quiet.acks _ h.acked⟩
  | prepare pr =>
    rcases handlePrepareReq_cases cfg s pr with same | ⟨rec, rfl, _, saved⟩
    · rwa [same]
    · rw [saved]
      refine ⟨fun i r found stored => ?_, h.highest, h.acked⟩
      simp only [put_db] at found
      split_ifs at found
      · -- a prepare request stores the value that was there
        obtain rfl := Option.some.inj found
        cases old : stablestorageGetRecord s.storage pr.iid with
        | none =>
          rw [old] at stored
          exact absurd stored (Nat.lt_irrefl 0)
        | some rec =>
          rw [old] at stored
          exact h.stored _ rec (getRecord_some old) stored
      · exact h.stored i r found stored
  | accept ar within =>
    have within : ar.iid ≤ high := within
    rcases handleAcceptReq_cases cfg s ar with ⟨_, _, _, same⟩ | ⟨_, saved⟩
    · rwa [same]
    · rw [saved]
      refine ⟨fun i r found stored => ?_, ?_, h.acked.add cfg _ within⟩
      · simp only [put_db] at found
        split_ifs at found
        · rw [← Option.some.inj found]
          exact within
        · exact h.stored i r found stored
      · have highest := h.highest
        dsimp only
        split_ifs <;> assumption
  | resend rec found =>
    refine ⟨h.stored, h.highest, h.acked.add cfg _ ?_⟩
    rcases found with ⟨stored, value | ⟨_, latest⟩⟩
    · exact h.stored _ rec stored value
    · exact latest ▸ h.highest

end Acceptors

section Followers

structure Follows (p : ProposerState) : Prop where
  leader : p.currentLeaderId = 0
  rests : ¬ p.LeaderIsMe
  silent : p.leader.acceptBuf.All fun _ => False

variable {cfg : Config}

theorem follows_init (clock : ℕ → Timeval) (timeNow : Timeval) {id : ℕ} (other : id ≠ 0) :
    Follows (proposerInit cfg clock timeNow id).state := by
  have rests : ¬ ({ currentLeaderId := 0, leader := initProStructs id, learner := learnerInit } :
      ProposerState).LeaderIsMe := other
  unfold proposerInit
  dsimp only
  rw [if_neg rests]
  exact ⟨rfl, rests, .new⟩

theorem Follows.deliveries (clock : ℕ → Timeval) (p : ProposerState) (ds : List Delivery)
    (h : Follows p) : Follows (Outcome.fold (proDeliverCallback cfg clock) p ds).state := by
  refine Outcome.fold_state (R := fun p q => Follows p → Follows q) (fun _ h => h)
    (fun _ _ _ f g h => g (f h)) p ds ?_ h
  intro d _ q follows
  unfold proDeliverCallback
  dsimp only
  rw [if_neg follows.rests]
  exact ⟨follows.leader, follows.rests, follows.silent⟩

def OnlyLeader : ProposerEvent → Prop
  | .leaderAnnounce currentLeader _ _ => currentLeader = 0
  | _ => True

instance (e : ProposerEvent) : Decidable (OnlyLeader e) :=
  match e with
  | .leaderAnnounce currentLeader _ _ => inferInstanceAs (Decidable (currentLeader = 0))
  | .submit _ | .p1Check _ _ | .p2Check _ _ | .prepareAcks _ _ _ | .acceptAcks _ _ _
  | .holeCheck => isTrue trivial

theorem Follows.event {p : ProposerState} (h : Follows p) (e : ProposerEvent)
    (only : OnlyLeader e) : Follows (proposerHandle cfg p e).state := by
  cases e with
  | submit value => exact ⟨h.leader, h.rests, h.silent⟩
  | leaderAnnounce currentLeader clock timeNow =>
    have only : currentLeader = 0 := only
    have other : p.leader.thisProposerId ≠ currentLeader := by
      rw [only, ← h.leader]
      exact h.rests
    unfold proposerHandle proHandleLeaderAnnounce
    dsimp only
    rw [if_neg fun stepDown => h.rests stepDown.1, if_neg fun stepUp => other stepUp.2.symm]
    exact ⟨only, other, h.silent⟩
  | p1Check clock timeNow =>
    have step : proposerHandle cfg p (.p1Check clock timeNow) = .running p := if_neg h.rests
    rw [step]
    exact h
  | p2Check clock timeNow =>
    have step : proposerHandle cfg p (.p2Check clock timeNow) = .running p := if_neg h.rests
    rw [step]
    exact h
  | prepareAcks a acks clock =>
    have step : proposerHandle cfg p (.prepareAcks a acks clock) = .running p := if_neg h.rests
    rw [step]
    exact h
  | acceptAcks a acks clock =>
    change Follows (proHandleAcceptAckBatch cfg clock a acks p).state
    unfold proHandleAcceptAckBatch
    cases Paxos2Learner.handleAcceptAckBatch cfg p.learner a acks with
    | running r => exact Follows.deliveries clock _ r.2 ⟨h.leader, h.rests, h.silent⟩
    | aborted fault r =>
      have kept : Follows (Outcome.fold (proDeliverCallback cfg clock)
          { p with learner := r.1 } r.2).state :=
        Follows.deliveries clock _ _ ⟨h.leader, h.rests, h.silent⟩
      dsimp only
      revert kept
      cases Outcome.fold (proDeliverCallback cfg clock) { p with learner := r.1 } r.2 <;> exact id
  | holeCheck => exact ⟨h.leader, h.rests, h.silent⟩

end Followers

section Runs

variable {cfg : Config} {w : World}

def anyAck : Paxos2LeaderMoves.AckCondition := fun _ _ _ => True

/-- Proposer 0 is the only leader of the run. -/
def SingleLeader : WorldEvent → Prop
  | .proposer _ e => OnlyLeader e
  | .acks _ => True

/-- There is room in the array whenever the leader opens instances. -/
def StepFits (cfg : Config) (w : World) : WorldEvent → Prop
  | .proposer p e => p = 0 → (w.proposers 0).Ensures (fun s => EventFits cfg s e) fun _ => True
  | .acks _ => True

instance (e : WorldEvent) : Decidable (SingleLeader e) :=
  match e with
  | .proposer _ e => inferInstanceAs (Decidable (OnlyLeader e))
  | .acks _ => isTrue trivial

instance (w : World) (e : WorldEvent) : Decidable (StepFits cfg w e) :=
  match e with
  | .proposer _ _ => inferInstanceAs (Decidable (_ = _ → _))
  | .acks _ => isTrue trivial

structure LeaderWithin (cfg : Config) (acceptors : ℕ → Outcome AcceptorFault AcceptorState)
    (p : ProposerState) : Prop where
  named : p.leader.thisProposerId = 0
  window : ProcessWindow cfg p
  acceptors : ∀ a, AcksWithin p.leader.p1Info.highestOpen (acceptors a).state

/-- A run under a single leader. -/
structure WorldWithin (cfg : Config) (w : World) : Prop where
  leads : (w.proposers 0).Ensures (LeaderWithin cfg w.acks.acceptors) fun fault =>
    ¬ ProcessFault fault
  follows : ∀ p ≠ 0, Follows (w.proposers p).state

theorem worldWithin_init (cfg : Config) (clock : ℕ → Timeval) (timeNow : Timeval) :
    WorldWithin cfg (worldInit cfg clock timeNow) where
  leads := by
    refine (processWindow_init clock cfg timeNow).mono fun p done window => ?_
    have moves : Paxos2LeaderMoves.Moves cfg anyAck.only (initProStructs 0)
        (proposerInit cfg clock timeNow 0).state.leader :=
      Paxos2LeaderMoves.proposerInit_moves clock timeNow 0 fun _ => trivial
    rw [done] at moves
    exact ⟨moves.thisProposerId, window, fun a => acksWithin_init _ a⟩
  follows := fun p other => follows_init clock timeNow other

theorem LeaderWithin.event {s : ProposerState} (h : LeaderWithin cfg w.acks.acceptors s)
    {e : ProposerEvent} (received : ReceivedByProposer cfg w e) (only : OnlyLeader e)
    (fits : EventFits cfg s e) :
    (proposerHandle cfg s e).Ensures (LeaderWithin cfg w.acks.acceptors) fun fault =>
      ¬ ProcessFault fault := by
  have within : EventWithin s e := by
    cases e with
    | leaderAnnounce currentLeader clock timeNow =>
      have only : currentLeader = 0 := only
      exact only.trans h.named.symm
    | acceptAcks a acks clock => exact (h.acceptors a).acked.1 acks received.2
    | _ => trivial
  have met : Paxos2LeaderMoves.EventMeets cfg anyAck s e := by
    cases e with
    | prepareAcks a acks clock => exact fun _ => along_of_mem fun _ _ _ => trivial
    | _ => trivial
  refine (h.window.event e fits within).mono ?_
  rintro t done ⟨window, grown⟩
  have moves := Paxos2LeaderMoves.proposerHandle_moves s e met
  rw [done] at moves
  exact ⟨moves.thisProposerId.trans h.named, window, fun a => (h.acceptors a).mono grown⟩

theorem WorldWithin.requests (h : WorldWithin cfg w) {s : ProposerState}
    (running : w.proposers 0 = .running s) {e : AckEvent} (possible : Possible cfg w (.acks e)) :
    EventMeets cfg (requestWithin s.leader.p1Info.highestOpen) w.acks e := by
  cases e with
  | request a msg =>
    intro _
    cases msg with
    | acceptReqs p accepts =>
      obtain ⟨-, sent⟩ := possible
      refine along_of_mem fun ar har _ => ?_
      by_cases leader : p = 0
      · have within : LeaderWithin cfg w.acks.acceptors s := h.leads.of_running running
        rw [leader, running] at sent
        exact within.window.window.filled.sends.accepts.1 accepts sent ar har
      · exact ((h.follows p leader).silent.1 accepts sent ar har).elim
    | _ => trivial
  | _ => trivial

theorem WorldWithin.acks (h : WorldWithin cfg w) {e : AckEvent}
    (possible : Possible cfg w (.acks e)) :
    WorldWithin cfg { w with acks := ackStep cfg w.acks e } := by
  refine ⟨h.leads.mono fun s running within => ?_, h.follows⟩
  refine ⟨within.named, within.window, fun a => ?_⟩
  exact (ackStep_moves e (h.requests running possible) a).invariant _
    (fun _ _ kept move => acksWithin_move kept move) (within.acceptors a)

theorem WorldWithin.proposer (h : WorldWithin cfg w) {p : ℕ} {e : ProposerEvent}
    (possible : Possible cfg w (.proposer p e)) (only : OnlyLeader e)
    (fits : StepFits cfg w (.proposer p e)) :
    WorldWithin cfg
      { w with proposers := Function.update w.proposers p (proposerStep cfg (w.proposers p) e) } := by
  by_cases leader : p = 0
  · subst leader
    refine ⟨?_, fun q other => ?_⟩
    · dsimp only
      rw [Function.update_self]
      refine Outcome.Ensures.bind (I := fun s => LeaderWithin cfg w.acks.acceptors s ∧
        EventFits cfg s e) ?_ ?_
      · have fits := fits rfl
        have leads := h.leads
        revert fits leads
        cases w.proposers 0 with
        | running s => exact fun fits within => ⟨within, fits⟩
        | aborted fault s => exact fun _ stopped => stopped
      · rintro s ⟨within, fits⟩
        exact within.event possible.2 only fits
    · dsimp only
      rw [Function.update_of_ne other]
      exact h.follows q other
  · refine ⟨?_, fun q other => ?_⟩
    · dsimp only
      rw [Function.update_of_ne (Ne.symm leader)]
      exact h.leads
    · simp only [Function.update_apply]
      split_ifs with here
      · subst here
        have follows := h.follows q other
        revert follows
        cases w.proposers q with
        | running s => exact fun follows => Follows.event follows e only
        | aborted fault s => exact id
      · exact h.follows q other

theorem worldWithin_step (h : WorldWithin cfg w) {e : WorldEvent} (single : SingleLeader e)
    (fits : StepFits cfg w e) : WorldWithin cfg (worldStep cfg w e) := by
  by_cases possible : Possible cfg w e
  · cases e with
    | proposer p e =>
      rw [worldStep_proposer possible]
      exact h.proposer possible single fits
    | acks e =>
      rw [worldStep_acks possible]
      exact h.acks possible
  · rwa [worldStep_of_impossible possible]

end Runs

/-- The window of a leader fits its array, and no assertion on a slot has failed. -/
structure WindowFits (cfg : Config) (o : ProposerOutcome) : Prop where
  bounded : ∀ p, o = .running p →
    p.leader.p1Info.highestOpen < p.leader.currentIid + cfg.proposerArraySize
  owned : ∀ p, o = .running p →
    ∀ i, p.leader.currentIid ≤ i → i ≤ p.leader.p1Info.highestOpen →
      (p.leader.proposerState (cfg.proIndex i)).iid = i
  unfailed : ∀ fault p, o = .aborted fault p → ¬ ProcessFault fault

/-- In every run of a single leader in which there is room whenever phase 1 opens
instances, the window of the leader fits its array. -/
theorem leader_window_fits (cfg : Config) (clock : ℕ → Timeval) (timeNow : Timeval)
    (events : List WorldEvent) (single : ∀ e ∈ events, SingleLeader e)
    (fits : Along (worldStep cfg) (StepFits cfg) (worldInit cfg clock timeNow) events) :
    WindowFits cfg
      ((run (worldStep cfg) (worldInit cfg clock timeNow) events).proposers 0) := by
  have both : Along (worldStep cfg) (fun w e => SingleLeader e ∧ StepFits cfg w e)
      (worldInit cfg clock timeNow) events :=
    fits.imp fun e he w fits => ⟨single e he, fits⟩
  have within : WorldWithin cfg (run (worldStep cfg) (worldInit cfg clock timeNow) events) :=
    both.invariant (WorldWithin cfg) (worldWithin_init cfg clock timeNow)
      fun w e h met => worldWithin_step h met.1 met.2
  have leads := within.leads
  refine ⟨fun p done => ?_, fun p done => ?_, fun fault p done => ?_⟩
  · exact (leads.of_running done).window.window.fits
  · exact (leads.of_running done).window.window.filled.owned
  · rw [done] at leads
    exact leads

/-- The leader asks for `n` instances from `first` on, and acceptors 0 and 1 promise. -/
def prepared (first n : ℕ) : List WorldEvent :=
  let requests := (List.range' first n).map fun i => (⟨i, 10⟩ : PrepareReq)
  let promises := (List.range' first n).map fun i => (⟨i, 10, 0, []⟩ : PrepareAck)
  [.acks (.request 0 (.prepareReqs 0 requests)), .acks (.request 1 (.prepareReqs 0 requests)),
    .proposer 0 (.prepareAcks 0 promises stillClock),
    .proposer 0 (.prepareAcks 1 promises stillClock)]

/-- `n` values are proposed from `first` on, accepted by acceptors 0 and 1 and closed. -/
def closedFrom (first n : ℕ) : List WorldEvent :=
  let requests := (List.range' first n).map fun i => (⟨i, 10, [7]⟩ : AcceptReq)
  let acks := (List.range' first n).map fun i => (⟨i, 10, 10, false, [7]⟩ : AcceptAck)
  List.replicate n (.proposer 0 (.submit [7])) ++
  [.proposer 0 (.p2Check stillClock ⟨0, 0⟩),
    .acks (.request 0 (.acceptReqs 0 requests)), .acks (.request 1 (.acceptReqs 0 requests)),
    .proposer 0 (.acceptAcks 0 acks stillClock), .proposer 0 (.acceptAcks 1 acks stillClock),
    .proposer 0 (.p2Check stillClock ⟨0, 0⟩)]

/-- The accept request for instance 1 is lost, and instances 2, 3 and 4 are closed. -/
def firstStuck : List WorldEvent :=
  prepared 1 4 ++ [.proposer 0 (.submit [7]), .proposer 0 (.p2Check stillClock ⟨0, 0⟩)] ++
    closedFrom 2 3

/-- Phase 1 is opened for four more instances, three of which are closed. -/
def arrayFilled : List WorldEvent :=
  firstStuck ++ [.proposer 0 (.p1Check stillClock ⟨0, 0⟩)] ++ prepared 5 4 ++ closedFrom 5 3

theorem leader_window_fits_filled :
    WindowFits .small
      ((run (worldStep .small) (worldInit .small stillClock ⟨0, 0⟩) arrayFilled).proposers 0) :=
  leader_window_fits .small stillClock ⟨0, 0⟩ arrayFilled (by decide +kernel) (by decide +kernel)

theorem not_windowFits {cfg : Config} {o : ProposerOutcome}
    (stopped : o.Ensures (fun _ => False) ProcessFault) : ¬ WindowFits cfg o := by
  intro fits
  cases o with
  | running p => exact stopped
  | aborted fault p => exact fits.unfailed fault p rfl stopped

/-- The next instances to open need the slot of the one that is stuck. -/
theorem leader_window_overflows :
    (∀ e ∈ arrayFilled ++ [.proposer 0 (.p1Check stillClock ⟨0, 0⟩)], SingleLeader e) ∧
    ¬ WindowFits .small
      ((run (worldStep .small) (worldInit .small stillClock ⟨0, 0⟩)
        (arrayFilled ++ [.proposer 0 (.p1Check stillClock ⟨0, 0⟩)])).proposers 0) :=
  ⟨by decide +kernel, not_windowFits (by decide +kernel)⟩

end FdsPaxos.Paxos2WindowFits
