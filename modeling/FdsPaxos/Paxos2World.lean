import FdsPaxos.Paxos2AckWorld
import FdsPaxos.Paxos2LeaderMoves

set_option autoImplicit false

/-!
Proposers, acceptors and learners over a network that may lose, duplicate, delay and
reorder messages: whatever was sent may be received at any later time, any number of times.
-/

namespace FdsPaxos.Paxos2World
open TransitionRuns Paxos2Config Paxos2Messages Paxos2Leader Paxos2Proposer Paxos2AckWorld
open Paxos2LeaderMoves

structure World where
  proposers : ℕ → ProposerOutcome
  acks : AckWorld

variable (cfg : Config)

def worldInit (clock : ℕ → Timeval) (timeNow : Timeval) : World where
  proposers := proposerInit cfg clock timeNow
  acks := ackWorldInit

inductive WorldEvent where
  | proposer (p : ℕ) (e : ProposerEvent)
  | acks (e : AckEvent)

/-- What a proposer may receive: batches that an acceptor has sent.  Values, announcements
and the timers come from outside. -/
def ReceivedByProposer (w : World) : ProposerEvent → Prop
  | .prepareAcks a acks _ =>
    a < cfg.nOfAcceptors ∧ acks ∈ (w.acks.acceptors a).state.toProposers.sent
  | .acceptAcks a acks _ => SentBy cfg w.acks.acceptors a acks
  | .submit _ | .leaderAnnounce _ _ _ | .p1Check _ _ | .p2Check _ _ | .holeCheck => True

/-- What an acceptor may receive: batches that a proposer has sent, and repeat requests. -/
def ReceivedByAcceptor (w : World) : PaxosMsg → Prop
  | .prepareReqs p prepares =>
    p < cfg.maxNOfProposers ∧ prepares ∈ (w.proposers p).state.leader.prepareBuf.sent
  | .acceptReqs p accepts =>
    p < cfg.maxNOfProposers ∧ accepts ∈ (w.proposers p).state.leader.acceptBuf.sent
  | .prepareAcks _ _ | .acceptAcks _ _ | .repeatReqs _ | .submit _ | .leaderAnnounce _ => True

def Possible (w : World) : WorldEvent → Prop
  | .proposer p e => p < cfg.maxNOfProposers ∧ ReceivedByProposer cfg w e
  | .acks (.request _ msg) => ReceivedByAcceptor cfg w msg
  | .acks (.repeatLatest _) | .acks (.acceptAcks _ _ _) | .acks (.holeCheck _) => True

instance (w : World) (e : ProposerEvent) : Decidable (ReceivedByProposer cfg w e) :=
  match e with
  | .prepareAcks _ _ _ => inferInstanceAs (Decidable (_ ∧ _))
  | .acceptAcks a acks _ => inferInstanceAs (Decidable (SentBy cfg w.acks.acceptors a acks))
  | .submit _ | .leaderAnnounce _ _ _ | .p1Check _ _ | .p2Check _ _ | .holeCheck =>
    isTrue trivial

instance (w : World) (msg : PaxosMsg) : Decidable (ReceivedByAcceptor cfg w msg) :=
  match msg with
  | .prepareReqs _ _ | .acceptReqs _ _ => inferInstanceAs (Decidable (_ ∧ _))
  | .prepareAcks _ _ | .acceptAcks _ _ | .repeatReqs _ | .submit _ | .leaderAnnounce _ =>
    isTrue trivial

instance (w : World) (e : WorldEvent) : Decidable (Possible cfg w e) :=
  match e with
  | .proposer _ _ => inferInstanceAs (Decidable (_ ∧ _))
  | .acks (.request _ msg) => inferInstanceAs (Decidable (ReceivedByAcceptor cfg w msg))
  | .acks (.repeatLatest _) | .acks (.acceptAcks _ _ _) | .acks (.holeCheck _) => isTrue trivial

/-- An event that is not possible does not happen. -/
def worldStep (w : World) (e : WorldEvent) : World :=
  if Possible cfg w e then
    match e with
    | .proposer p e =>
      { w with proposers := Function.update w.proposers p (proposerStep cfg (w.proposers p) e) }
    | .acks e => { w with acks := ackStep cfg w.acks e }
  else w

def PromisesMeet (A : AckCondition) (w : World) : WorldEvent → Prop
  | .proposer p e => Possible cfg w (.proposer p e) → StepMeets cfg A (w.proposers p) e
  | .acks _ => True

instance (A : AckCondition) [∀ s a pa, Decidable (A s a pa)] (w : World) (e : WorldEvent) :
    Decidable (PromisesMeet cfg A w e) :=
  match e with
  | .proposer _ _ => inferInstanceAs (Decidable (_ → _))
  | .acks _ => isTrue trivial

variable {cfg} {w : World} {A : AckCondition}

theorem worldStep_of_impossible {e : WorldEvent} (h : ¬ Possible cfg w e) :
    worldStep cfg w e = w := by
  simp [worldStep, h]

theorem worldStep_proposer {p : ℕ} {e : ProposerEvent} (h : Possible cfg w (.proposer p e)) :
    worldStep cfg w (.proposer p e) =
      { w with proposers := Function.update w.proposers p (proposerStep cfg (w.proposers p) e) } := by
  simp [worldStep, h]

theorem worldStep_acks {e : AckEvent} (h : Possible cfg w (.acks e)) :
    worldStep cfg w (.acks e) = { w with acks := ackStep cfg w.acks e } := by
  simp [worldStep, h]

theorem worldStep_leader_moves (e : WorldEvent) (met : PromisesMeet cfg A w e) (p : ℕ) :
    Moves cfg A.only (w.proposers p).state.leader
      ((worldStep cfg w e).proposers p).state.leader := by
  by_cases possible : Possible cfg w e
  · cases e with
    | proposer q e =>
      rw [worldStep_proposer possible]
      simp only [Function.update_apply]
      split_ifs with here
      · subst here
        exact proposerStep_moves _ e (met possible)
      · exact .refl _
    | acks e =>
      rw [worldStep_acks possible]
      exact .refl _
  · rw [worldStep_of_impossible possible]
    exact .refl _

theorem world_leader_invariant (I : ℕ → LeaderState → Prop) (clock : ℕ → Timeval)
    (timeNow : Timeval) (start : ∀ p, I p (initProStructs p))
    (kept : ∀ p s t, I p s → Move cfg A.only s t → I p t) (events : List WorldEvent)
    (met : Along (worldStep cfg) (PromisesMeet cfg A) (worldInit cfg clock timeNow) events)
    (p : ℕ) :
    I p ((run (worldStep cfg) (worldInit cfg clock timeNow) events).proposers p).state.leader :=
  met.invariant (fun w : World => I p (w.proposers p).state.leader)
    ((proposerInit_moves clock timeNow p fun _ => trivial).invariant (I p) (kept p) (start p))
    fun _ e h met => (worldStep_leader_moves e met p).invariant (I p) (kept p) h

/-- The requests by which a new leader opens instances from the first on, and promises
without a value for them. -/
def preparesAt (cfg : Config) (b : ℕ) : List PrepareReq :=
  (List.range' 1 cfg.proposerPreexecWinSize).map fun i => ⟨i, b⟩

def promisesAt (cfg : Config) (b : ℕ) : List PrepareAck :=
  (List.range' 1 cfg.proposerPreexecWinSize).map fun i => ⟨i, b, 0, []⟩

end FdsPaxos.Paxos2World
