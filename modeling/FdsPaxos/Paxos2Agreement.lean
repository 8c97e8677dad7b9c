import FdsPaxos.BallotVoting
import FdsPaxos.Paxos2AcceptorVotes
import FdsPaxos.Paxos2LearnerSoundness
import FdsPaxos.Paxos2ProposalSupport

set_option autoImplicit false

namespace FdsPaxos.Paxos2Agreement
open TransitionRuns BallotVoting Paxos2Config Paxos2Messages Paxos2SendBuffer
open Paxos2StableStorage Paxos2Acceptor Paxos2AcceptorVotes Paxos2Learner Paxos2LearnerDelivery
open Paxos2LearnerSoundness Paxos2Leader Paxos2Proposer Paxos2AckWorld Paxos2World
open Paxos2BallotUse Paxos2ProposalSupport
open Paxos2LeaderMoves (StepMeets eventLearner EventDelivers proposerHandle_moves_of
  proposerHandle_learner proposerInit_moves proposerInit_learner)

/-- A learner, alone or inside a proposer, has delivered `v` for instance `i`. -/
def DeliveredIn (w : World) (i : ℕ) (v : Value) : Prop :=
  (∃ l, ∃ d ∈ (w.acks.learners l).state.2, d.iid = i ∧ d.value = v) ∨
    ∃ p, .delivered i v ∈ (w.proposers p).state.leader.trace

def Agreement (w : World) : Prop :=
  ∀ i v v', DeliveredIn w i v → DeliveredIn w i v' → v = v'

def StoresSound (cfg : Config) (o : ProposerOutcome) (e : ProposerEvent) : Prop :=
  match o, e with
  | .running s, .acceptAcks a acks _ =>
    Along (learnerStep cfg) (StoresAgreeing cfg) (.running (s.learner, [])) (toMessages a acks)
  | _, _ => True

instance (cfg : Config) (o : ProposerOutcome) (e : ProposerEvent) :
    Decidable (StoresSound cfg o e) :=
  match o with
  | .aborted _ _ => isTrue trivial
  | .running _ =>
    match e with
    | .acceptAcks _ _ _ => inferInstanceAs (Decidable (Along _ _ _ _))
    | .submit _ | .leaderAnnounce _ _ _ | .p1Check _ _ | .p2Check _ _ | .prepareAcks _ _ _
    | .holeCheck => isTrue trivial

/-- The condition on one event: promises are counted soundly, accept requests are not
lower than what the acceptor holds, and learners store agreeing acknowledgements. -/
def StepSound (cfg : Config) (w : World) : WorldEvent → Prop
  | .proposer p e => Possible cfg w (.proposer p e) →
    StepMeets cfg (SoundPromise cfg) (w.proposers p) e ∧
      StoresSound cfg (w.proposers p) e
  | .acks e => Possible cfg w (.acks e) →
    EventMeets cfg NotLower w.acks e ∧ StepAgrees cfg w.acks e

instance (cfg : Config) (w : World) (e : WorldEvent) : Decidable (StepSound cfg w e) :=
  match e with
  | .proposer _ _ => inferInstanceAs (Decidable (_ → _ ∧ _))
  | .acks _ => inferInstanceAs (Decidable (_ → _ ∧ _))

section Knowledge

variable {cfg : Config} {w w' : World}

def PromiseSent (cfg : Config) (w : World) (a : ℕ) (pa : PrepareAck) : Prop :=
  a < cfg.nOfAcceptors ∧ ∃ batch ∈ (w.acks.acceptors a).state.toProposers.sent, pa ∈ batch

def ProposedIn (cfg : Config) (w : World) (i b : ℕ) (v : Value) : Prop :=
  ∃ p < cfg.maxNOfProposers, .proposed i b v ∈ (w.proposers p).state.leader.trace

/-- The acknowledgement is of a vote that acceptor `a` has cast. -/
def VoteAcked (w : World) (a : ℕ) (aa : AcceptAck) : Prop :=
  Written w.acks.acceptors a aa ∧ 0 < aa.valueBallot

def EmbeddedSound (cfg : Config) (w : World) (ls : LearnerState) : Prop :=
  LearnerGood cfg (Backed cfg (VoteAcked w)) ls.currentIid ls []

structure WorldSound (cfg : Config) (w : World) : Prop where
  ballots : ∀ p, BallotSound cfg p (w.proposers p).state.leader
  support : ∀ p, SupportSound cfg (PromiseSent cfg w) (w.proposers p).state.leader
  votes : ∀ a, VotesSound (ProposedIn cfg w) (w.acks.acceptors a).state
  learners : LearnersSound cfg (VoteAcked w) w.acks
  embedded : ∀ p s, w.proposers p = .running s → EmbeddedSound cfg w s.learner
  delivered : ∀ p i v, .delivered i v ∈ (w.proposers p).state.leader.trace →
    KnownByQuorum cfg (VoteAcked w) i v

end Knowledge

section Voting

variable {cfg : Config} {w : World}

/-- The votes and proposals of instance `i`. -/
def votingOf (cfg : Config) (w : World) (i : ℕ) : Voting ℕ Value where
  voted := fun a b v => Voted (w.acks.acceptors a).state i b v
  proposed := fun b v => ProposedIn cfg w i b v
  quorum := fun Q => Q ⊆ Finset.range cfg.nOfAcceptors ∧ cfg.quorum ≤ Q.card

theorem WorldSound.promise_kept (h : WorldSound cfg w) {i b a k : ℕ} {v : Value}
    (reports : Reports (PromiseSent cfg w) i b a k v) :
    a < cfg.nOfAcceptors ∧
      (∀ c u, Voted (w.acks.acceptors a).state i c u → c < b → c ≤ k) ∧
      (0 < k → Voted (w.acks.acceptors a).state i k v ∧ k < b) := by
  obtain ⟨pa, ⟨low, batch, hb, hpa⟩, rfl, rfl, rfl, rfl⟩ := reports
  have kept := (h.votes a).promised.1 batch hb pa hpa
  exact ⟨low, kept.highest, kept.cast⟩

theorem WorldSound.safe (h : WorldSound cfg w) {i b : ℕ} {v : Value}
    (supported : Supported cfg (PromiseSent cfg w) i b v) : (votingOf cfg w i).SafeAt b v := by
  obtain ⟨W, card, k, counted, best⟩ := supported
  have low : W ⊆ Finset.range cfg.nOfAcceptors := by
    intro a ha
    obtain ⟨_, _, _, reports⟩ := counted a ha
    exact Finset.mem_range.mpr (h.promise_kept reports).1
  have bounded : ∀ a ∈ W, ∀ c < b, ∀ u, (votingOf cfg w i).voted a c u → c ≤ k := by
    intro a ha c lower u voted
    obtain ⟨k', below, _, reports⟩ := counted a ha
    exact ((h.promise_kept reports).2.1 c u voted lower).trans below
  refine ⟨W, ⟨low, card⟩, ?_⟩
  rcases Nat.eq_zero_or_pos k with rfl | pos
  · refine .inl fun a ha c lower u voted => ?_
    obtain ⟨_, _, _, _, _, vote⟩ := id voted
    have := bounded a ha c lower u voted
    omega
  · obtain ⟨a, ha, reports⟩ := best.resolve_left pos.ne'
    obtain ⟨voted, lower⟩ := (h.promise_kept reports).2.2 pos
    exact .inr ⟨k, lower, ⟨a, ha, voted⟩, bounded⟩

theorem WorldSound.voting (h : WorldSound cfg w) (i : ℕ) : (votingOf cfg w i).Sound where
  meet := fun _ _ hQ hQ' => majorities_meet cfg.quorum_majority hQ.1 hQ'.1 hQ.2 hQ'.2
  voted_proposed := fun a b v voted => (h.votes a).voted i b v voted
  single := by
    rintro b v v' ⟨p, hp, proposed⟩ ⟨p', hp', proposed'⟩
    obtain ⟨own, -⟩ := (h.ballots p).proposals.own _ _ _ proposed
    obtain ⟨own', -⟩ := (h.ballots p').proposals.own _ _ _ proposed'
    rw [own, Nat.mod_eq_of_lt hp, Nat.mod_eq_of_lt hp'] at own'
    subst own'
    exact (h.ballots p).proposals.single _ _ _ _ proposed proposed'
  safe := by
    rintro b v ⟨p, -, proposed⟩
    exact h.safe ((h.support p).proposals _ _ _ proposed)

theorem chosen_of_known {i : ℕ} {v : Value} (known : KnownByQuorum cfg (VoteAcked w) i v) :
    ∃ b, (votingOf cfg w i).Chosen b v := by
  obtain ⟨b, W, low, card, acked⟩ := known
  refine ⟨b, W, ⟨low, card⟩, ?_⟩
  intro a ha
  obtain ⟨aa, ⟨⟨written, -⟩, pos⟩, iid, ballot, value⟩ := acked a ha
  exact ⟨aa, written, iid, ballot, value, ballot ▸ pos⟩

theorem WorldSound.agreement (h : WorldSound cfg w) : Agreement w := by
  have chosen {i : ℕ} {v : Value} (delivered : DeliveredIn w i v) :
      ∃ b, (votingOf cfg w i).Chosen b v := by
    rcases delivered with ⟨l, d, hd, same⟩ | ⟨p, delivered⟩
    · exact chosen_of_known (h.learners.closes (fun _ _ acked => acked.1.2) (.inl ⟨d, hd, same⟩))
    · exact chosen_of_known (h.delivered p i v delivered)
  intro i v v' first second
  obtain ⟨b, first⟩ := chosen first
  obtain ⟨b', second⟩ := chosen second
  exact (h.voting i).agreement first second

end Voting

section Steps

variable {cfg : Config} {w w' : World}

theorem worldSound_init (cfg : Config) (clock : ℕ → Timeval) (timeNow : Timeval) :
    WorldSound cfg (worldInit cfg clock timeNow) where
  ballots := fun p =>
    (proposerInit_moves clock timeNow p fun _ => trivial).invariant (BallotSound cfg p)
      (fun _ _ h move => ballotSound_move h move) (ballotSound_init cfg p)
  support := fun p =>
    (proposerInit_moves clock timeNow p fun _ => trivial).invariant (SupportSound cfg _)
      (fun _ _ h move => supportSound_move h move) (supportSound_init p)
  votes := fun a => votesSound_init a
  learners := learnersSound_init
  embedded := by
    intro p s running
    have learner : s.learner = learnerInit := by
      have started : (proposerInit cfg clock timeNow p).state.learner = learnerInit :=
        proposerInit_learner clock timeNow p
      rw [← started]
      exact congrArg (fun o : ProposerOutcome => o.state.learner) running.symm
    rw [EmbeddedSound, learner]
    exact learnerGood_init cfg backed_empty
  delivered := fun p =>
    (proposerInit_moves (C :=
        { ack := fun _ _ _ => True
          opens := fun _ => True
          clears := fun _ => True
          delivers := fun i v => KnownByQuorum cfg _ i v })
      clock timeNow p fun _ => trivial).delivered fun _ _ h => nomatch h

theorem WorldSound.sent_acked (h : WorldSound cfg w) {a : ℕ} {acks : List AcceptAck}
    (sent : SentBy cfg w.acks.acceptors a acks) : ∀ aa ∈ acks, VoteAcked w a aa := by
  intro aa haa
  have votes := h.votes a
  have written := votes.history.acked.1 acks sent.2 aa haa
  exact ⟨⟨written, votes.history.notFinal aa written⟩, votes.acked.1 acks sent.2 aa haa⟩

theorem EmbeddedSound.event {s : ProposerState} (h : EmbeddedSound cfg w s.learner)
    (world : WorldSound cfg w) (e : ProposerEvent) (received : ReceivedByProposer cfg w e)
    (stores : StoresSound cfg (.running s) e) :
    EmbeddedSound cfg w (eventLearner cfg s e) ∧
      EventDelivers cfg (KnownByQuorum cfg (VoteAcked w)) s e := by
  cases e with
  | acceptAcks a acks clock =>
    have takes := takes_of_agreeing (world.sent_acked received) stores
    obtain ⟨ls, ds, handled, good⟩ := h.batch a acks takes
    simp only [eventLearner, EventDelivers, handled,
      Outcome.state_running]
    refine ⟨good.rebase, fun d hd => ?_⟩
    obtain ⟨-, own, fa, decides, value, -⟩ := good.agreed d hd
    rw [value]
    exact (good.sources d hd).quorum (fun _ _ acked => acked.1.2) own decides
  | holeCheck => exact ⟨(LearnerGood.holeCheck h).rebase, trivial⟩
  | _ => exact ⟨h, trivial⟩

theorem promises_known {s : ProposerState} {e : ProposerEvent}
    (received : ReceivedByProposer cfg w e)
    (met : Paxos2LeaderMoves.EventMeets cfg (SoundPromise cfg) s e) :
    Paxos2LeaderMoves.EventMeets cfg (KnownPromise cfg (PromiseSent cfg w)) s e := by
  cases e with
  | prepareAcks a acks clock =>
    intro leads
    obtain ⟨low, sent⟩ := received
    exact (met leads).imp fun pa hpa s sound => ⟨sound, low, acks, sent, hpa⟩
  | _ => trivial

theorem ProposedIn.update {p : ℕ} {o : ProposerOutcome}
    (grows : ∀ e ∈ (w.proposers p).state.leader.trace, e ∈ o.state.leader.trace) {i b : ℕ}
    {v : Value} (h : ProposedIn cfg w i b v) :
    ProposedIn cfg { w with proposers := Function.update w.proposers p o } i b v := by
  obtain ⟨q, hq, proposed⟩ := h
  refine ⟨q, hq, ?_⟩
  simp only [Function.update_apply]
  split_ifs with here
  · exact grows _ (here ▸ proposed)
  · exact proposed

theorem WorldSound.proposer (h : WorldSound cfg w) {p : ℕ} {e : ProposerEvent}
    (possible : Possible cfg w (.proposer p e)) (sound : StepSound cfg w (.proposer p e)) :
    WorldSound cfg
      { w with proposers := Function.update w.proposers p (proposerStep cfg (w.proposers p) e) } := by
  obtain ⟨meets, stores⟩ := sound possible
  have below := possible.1
  cases running : w.proposers p with
  | aborted fault s =>
    have same : Function.update w.proposers p (proposerStep cfg (.aborted fault s) e) =
        w.proposers := by
      rw [← running]
      simp [proposerStep, running]
    rwa [same]
  | running s =>
    rw [running] at meets stores
    obtain ⟨embedded, delivers⟩ := (h.embedded p s running).event h e possible.2 stores
    have moves := proposerHandle_moves_of
      (C :=
        { ack := KnownPromise cfg (PromiseSent cfg w)
          opens := fun _ => True
          clears := fun _ => True
          delivers := KnownByQuorum cfg (VoteAcked w) })
      s e (promises_known possible.2 meets) (fun _ => trivial) (fun _ => trivial) delivers
    have leader : (w.proposers p).state.leader = s.leader := by
      rw [running]
      rfl
    have step : proposerStep cfg (.running s) e = proposerHandle cfg s e := rfl
    rw [step]
    have grows : ∀ e' ∈ (w.proposers p).state.leader.trace,
        e' ∈ (proposerHandle cfg s e).state.leader.trace :=
      fun _ old => moves.trace_mono (leader ▸ old)
    refine
      { ballots := ?_
        support := ?_
        votes := fun a => (h.votes a).mono fun _ _ _ proposed => proposed.update grows
        learners := h.learners
        embedded := ?_
        delivered := ?_ }
    · refine (Function.forall_update_iff w.proposers
        (fun q o => BallotSound cfg q o.state.leader)).mpr ⟨?_, fun q _ => h.ballots q⟩
      refine (moves.mono (UnusedBallot cfg).only (fun _ _ _ met => met.1.2.1)
        (fun _ h => h) (fun _ h => h) (fun _ _ _ => trivial)).invariant _
          (fun _ _ h move => ballotSound_move h move) ?_
      exact leader ▸ h.ballots p
    · refine (Function.forall_update_iff w.proposers
        (fun _ o => SupportSound cfg (PromiseSent cfg w) o.state.leader)).mpr
          ⟨?_, fun q _ => h.support q⟩
      refine (moves.mono (KnownPromise cfg (PromiseSent cfg w)).only
        (fun _ _ _ met => met) (fun _ h => h) (fun _ h => h) (fun _ _ _ => trivial)).invariant _
          (fun _ _ h move => supportSound_move h move) ?_
      exact leader ▸ h.support p
    · refine (Function.forall_update_iff w.proposers
        (fun _ o => ∀ t, o = .running t → EmbeddedSound cfg w t.learner)).mpr
          ⟨fun t done => ?_, fun q _ => h.embedded q⟩
      have learner : (proposerHandle cfg s e).state.learner = eventLearner cfg s e :=
        proposerHandle_learner s e
      rw [done, Outcome.state_running] at learner
      rw [learner]
      exact embedded
    · refine (Function.forall_update_iff w.proposers
        (fun _ o => ∀ i v, .delivered i v ∈ o.state.leader.trace →
          KnownByQuorum cfg (VoteAcked w) i v)).mpr ⟨?_, fun q _ => h.delivered q⟩
      exact moves.delivered (leader ▸ h.delivered p)

theorem requests_sanctioned (h : WorldSound cfg w) {e : AckEvent}
    (possible : Possible cfg w (.acks e)) (met : EventMeets cfg NotLower w.acks e) :
    EventMeets cfg (Sanctioned (ProposedIn cfg w)) w.acks e := by
  cases e with
  | request a msg =>
    intro running
    have met := met running
    cases msg with
    | acceptReqs p accepts =>
      obtain ⟨low, sent⟩ := possible
      refine met.imp fun ar har s notLower => ⟨notLower, ?_⟩
      have proposed := (h.ballots p).sent.1 accepts sent ar har
      exact ⟨((h.ballots p).proposals.own _ _ _ proposed).2, p, low, proposed⟩
    | _ => trivial
  | _ => trivial

theorem WorldSound.acks (h : WorldSound cfg w) {e : AckEvent}
    (possible : Possible cfg w (.acks e)) (sound : StepSound cfg w (.acks e)) :
    WorldSound cfg { w with acks := ackStep cfg w.acks e } := by
  obtain ⟨notLower, agrees⟩ := sound possible
  have moves (a : ℕ) := ackStep_moves e (requests_sanctioned h possible notLower) a
  have sent : ∀ a pa, PromiseSent cfg w a pa →
      PromiseSent cfg { w with acks := ackStep cfg w.acks e } a pa := by
    rintro a pa ⟨low, batch, hb, hpa⟩
    exact ⟨low, batch, (moves a).promises_mono batch hb, hpa⟩
  have acked : ∀ a aa, VoteAcked w a aa →
      VoteAcked { w with acks := ackStep cfg w.acks e } a aa := by
    rintro a aa ⟨⟨written, notFinal⟩, pos⟩
    exact ⟨⟨(moves a).puts_mono aa written, notFinal⟩, pos⟩
  refine
    { ballots := h.ballots
      support := fun p => (h.support p).mono sent
      votes := fun a => votesSound_moves (moves a) (h.votes a)
      learners := h.learners.step e (fun a acks sent => h.sent_acked sent) acked agrees
      embedded := fun p s running =>
        (h.embedded p s running).mono fun _ backed => backed.mono acked
      delivered := ?_ }
  intro p i v delivered
  obtain ⟨b, W, low, card, known⟩ := h.delivered p i v delivered
  refine ⟨b, W, low, card, fun a ha => ?_⟩
  obtain ⟨aa, vote, same⟩ := known a ha
  exact ⟨aa, acked a aa vote, same⟩

theorem worldSound_step (h : WorldSound cfg w) (e : WorldEvent) (sound : StepSound cfg w e) :
    WorldSound cfg (worldStep cfg w e) := by
  by_cases possible : Possible cfg w e
  · cases e with
    | proposer p e =>
      rw [worldStep_proposer possible]
      exact h.proposer possible sound
    | acks e =>
      rw [worldStep_acks possible]
      exact h.acks possible sound
  · rwa [worldStep_of_impossible possible]

end Steps

/-- In every run of proposers, acceptors and learners whose steps are sound, no two
learners deliver different values for one instance. -/
theorem learners_agree (cfg : Config) (clock : ℕ → Timeval) (timeNow : Timeval)
    (events : List WorldEvent)
    (sound : Along (worldStep cfg) (StepSound cfg) (worldInit cfg clock timeNow) events) :
    Agreement (run (worldStep cfg) (worldInit cfg clock timeNow) events) :=
  (sound.invariant (WorldSound cfg) (worldSound_init cfg clock timeNow)
    fun _ e h sound => worldSound_step h e sound).agreement

/-- Acceptors 0 and 1 accept a request of proposer `p`, and learner `l` hears both. -/
def acceptedAndHeard (p b l : ℕ) (v : Value) : List WorldEvent :=
  [.acks (.request 0 (.acceptReqs p [⟨1, b, v⟩])), .acks (.request 1 (.acceptReqs p [⟨1, b, v⟩])),
    .acks (.acceptAcks l 0 [⟨1, b, b, false, v⟩]), .acks (.acceptAcks l 1 [⟨1, b, b, false, v⟩])]

theorem learners_agree_in_first_reign :
    Agreement (run (worldStep .small) (worldInit .small stillClock ⟨0, 0⟩)
      (firstReign ++ acceptedAndHeard 0 10 0 [7])) :=
  learners_agree .small stillClock ⟨0, 0⟩ _ (by decide +kernel)

/-- While the accept request of proposer 0 is under way, proposer 1 becomes leader and has
its own value accepted and delivered; then the request of proposer 0 arrives. -/
def delayedAccept : List WorldEvent :=
  firstReign ++
    [.proposer 1 (.leaderAnnounce 1 stillClock ⟨0, 0⟩),
      .acks (.request 0 (.prepareReqs 1 (preparesAt .small 11))),
      .acks (.request 1 (.prepareReqs 1 (preparesAt .small 11))),
      .proposer 1 (.submit [8]),
      .proposer 1 (.prepareAcks 0 (promisesAt .small 11) stillClock),
      .proposer 1 (.prepareAcks 1 (promisesAt .small 11) stillClock)] ++
    acceptedAndHeard 1 11 0 [8] ++ acceptedAndHeard 0 10 1 [7]

theorem not_agreement {w : World} (i : ℕ) (v v' : Value) (differ : v ≠ v')
    (first : ∃ d ∈ (w.acks.learners 0).state.2, d.iid = i ∧ d.value = v)
    (second : ∃ d ∈ (w.acks.learners 1).state.2, d.iid = i ∧ d.value = v') : ¬ Agreement w :=
  fun agree => differ (agree i v v' (.inl ⟨0, first⟩) (.inl ⟨1, second⟩))

/-- The acceptors take the request at ballot 10 after they accepted at ballot 11, and
learners 0 and 1 deliver different values for instance 1. -/
theorem learners_disagree :
    ¬ Agreement (run (worldStep .small) (worldInit .small stillClock ⟨0, 0⟩) delayedAccept) :=
  not_agreement 1 [8] [7] (by decide) (by decide +kernel) (by decide +kernel)

end FdsPaxos.Paxos2Agreement
