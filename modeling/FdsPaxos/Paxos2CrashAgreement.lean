import FdsPaxos.Paxos2Agreement
import FdsPaxos.Paxos2CrashRecovery

set_option autoImplicit false

namespace FdsPaxos.Paxos2CrashAgreement
open TransitionRuns Paxos2Config Paxos2Messages Paxos2SendBuffer Paxos2StableStorage
open Paxos2Acceptor Paxos2AcceptorLife Paxos2AcceptorMoves Paxos2AcceptorVotes Paxos2CrashRecovery
open Paxos2Leader Paxos2Proposer Paxos2AckWorld Paxos2World Paxos2Agreement Paxos2BallotUse
open Paxos2ProposalSupport Paxos2LearnerSoundness

/-- `crash a msg n`: acceptor `a` receives `msg`, crashes when all but the last `n` of what it
does are done, and recovers. -/
inductive CrashEvent where
  | world (e : WorldEvent)
  | crash (a : ℕ) (msg : PaxosMsg) (n : ℕ)

def recovered (cfg : Config) (msg : PaxosMsg) (n : ℕ) :
    Outcome AcceptorFault AcceptorState → AcceptorState
  | .running s => crashed cfg s msg n
  | .aborted _ s => acceptorInitRecover s

def withAcceptor (w : World) (a : ℕ) (s : AcceptorState) : World :=
  { w with acks :=
    { w.acks with acceptors := Function.update w.acks.acceptors a (.running s) } }

def crashStep (cfg : Config) (w : World) : CrashEvent → World
  | .world e => worldStep cfg w e
  | .crash a msg n =>
    if ReceivedByAcceptor cfg w msg then
      withAcceptor w a (recovered cfg msg n (w.acks.acceptors a))
    else w

/-- The condition on one event: that of the world without crashes, also where a message is
interrupted. -/
def CrashStepSound (cfg : Config) (w : World) : CrashEvent → Prop
  | .world e => StepSound cfg w e
  | .crash a msg _ =>
    ReceivedByAcceptor cfg w msg → EventMeets cfg NotLower w.acks (.request a msg)

instance (cfg : Config) (w : World) (e : CrashEvent) : Decidable (CrashStepSound cfg w e) :=
  match e with
  | .world e => inferInstanceAs (Decidable (StepSound cfg w e))
  | .crash _ _ _ => inferInstanceAs (Decidable (_ → _))

section Acceptors

variable {cfg : Config} {w : World} {proposed : ℕ → ℕ → Value → Prop} {s t u : AcceptorState}
  {msg : PaxosMsg}

theorem batchMeets_firstItems {C : AcceptCondition} (met : BatchMeets cfg C s msg) (k : ℕ) :
    BatchMeets cfg C s (firstItems k msg) := by
  cases msg with
  | acceptReqs p accepts =>
    have whole : Along (handleAcceptReq cfg) C s.clearToLearners
        (accepts.take k ++ accepts.drop k) := by
      rw [List.take_append_drop]
      exact met
    exact ((along_append _ _).mp whole).1
  | _ => trivial

theorem votesSound_crashed (crash : CrashedBetween s t u) (h : VotesSound proposed t) :
    VotesSound proposed u := by
  have highest : u.highestAcceptedIid = 0 := congrArg AcceptorState.highestAcceptedIid crash.fresh
  have promises : u.toProposers.items = [] :=
    congrArg (fun s : AcceptorState => s.toProposers.items) crash.fresh
  have acks : u.toLearners.items = [] :=
    congrArg (fun s : AcceptorState => s.toLearners.items) crash.fresh
  have acked {P : AcceptAck → Prop} (all : t.toLearners.All P) : u.toLearners.All P := by
    refine ⟨fun batch hb => all.1 batch (crash.acks.2.subset hb), ?_⟩
    rw [acks]
    exact fun _ h => nomatch h
  refine
    { readable := ?_
      history := ⟨?_, ?_, ?_⟩
      kept := ?_
      ordered := ?_
      blank := ?_
      voted := ?_
      latest := fun pos => absurd (highest ▸ pos) (Nat.lt_irrefl 0)
      acked := acked h.acked
      promised := ⟨fun batch hb pa hpa => ?_, ?_⟩ }
  · intro i
    rw [crash.storage]
    exact h.readable i
  · rw [crash.storage]
    exact h.history.stored
  · rw [crash.storage]
    exact acked h.history.acked
  · rw [crash.storage]
    exact h.history.notFinal
  · rw [crash.storage]
    exact h.kept
  · rw [crash.storage]
    exact h.ordered
  · rw [crash.storage]
    exact h.blank
  · unfold Voted
    rw [crash.storage]
    exact h.voted
  · exact (h.promised.1 batch (crash.promises.2.subset hb) pa hpa).same crash.storage
  · rw [promises]
    exact fun _ h => nomatch h

/-- What a crash in a message keeps of an acceptor: its votes stay sound, and what it has
written and sent before is still there. -/
structure Recovers (proposed : ℕ → ℕ → Value → Prop) (s u : AcceptorState) : Prop where
  votes : VotesSound proposed u
  puts : ∀ rec ∈ s.storage.puts, rec ∈ u.storage.puts
  promises : ∀ batch ∈ s.toProposers.sent, batch ∈ u.toProposers.sent

theorem recovers_init (h : VotesSound proposed s) :
    Recovers proposed s (acceptorInitRecover s) where
  votes := votesSound_crashed (crashedBetween_recover s) h
  puts := fun _ h => h
  promises := fun _ h => h

theorem recovers_crashed (h : VotesSound proposed s)
    (met : BatchMeets cfg (Sanctioned proposed) s msg) (n : ℕ) :
    Recovers proposed s (crashed cfg s msg n) := by
  obtain ⟨k, crash⟩ := crash_keeps_first_items cfg s msg n
  have moves := accHandleNewmsg_moves s (firstItems k msg) (batchMeets_firstItems met k)
  refine ⟨votesSound_crashed crash (votesSound_moves moves h), ?_, ?_⟩
  · intro rec hrec
    rw [crash.storage]
    exact moves.puts_mono rec hrec
  · exact fun batch hb => crash.promises.1.subset hb

end Acceptors

section World

variable {cfg : Config} {w : World} {a : ℕ} {s : AcceptorState}

theorem withAcceptor_state (w : World) (a : ℕ) (s : AcceptorState) (a' : ℕ) :
    ((withAcceptor w a s).acks.acceptors a').state =
      if a' = a then s else (w.acks.acceptors a').state := by
  simp only [withAcceptor, Function.update_apply]
  split_ifs <;> rfl

theorem worldSound_withAcceptor (h : WorldSound cfg w)
    (recovers : Recovers (ProposedIn cfg w) (w.acks.acceptors a).state s) :
    WorldSound cfg (withAcceptor w a s) := by
  have sent : ∀ a' pa, PromiseSent cfg w a' pa → PromiseSent cfg (withAcceptor w a s) a' pa := by
    rintro a' pa ⟨low, batch, hb, hpa⟩
    refine ⟨low, batch, ?_, hpa⟩
    rw [withAcceptor_state]
    split_ifs with here
    · exact recovers.promises batch (here ▸ hb)
    · exact hb
  have acked : ∀ a' aa, VoteAcked w a' aa → VoteAcked (withAcceptor w a s) a' aa := by
    rintro a' aa ⟨⟨written, notFinal⟩, pos⟩
    refine ⟨⟨?_, notFinal⟩, pos⟩
    rw [withAcceptor_state]
    split_ifs with here
    · exact recovers.puts aa (here ▸ written)
    · exact written
  refine
    { ballots := h.ballots
      support := fun p => (h.support p).mono sent
      votes := fun a' => ?_
      learners := fun l => ?_
      embedded := fun p s running =>
        (h.embedded p s running).mono fun _ backed => backed.mono acked
      delivered := fun p i v delivered => ?_ }
  · change VotesSound (ProposedIn cfg w) _
    rw [withAcceptor_state]
    split_ifs
    · exact recovers.votes
    · exact h.votes a'
  · obtain ⟨ls, ds, running, good⟩ := h.learners l
    exact ⟨ls, ds, running, good.mono fun _ backed => backed.mono acked⟩
  · obtain ⟨b, W, low, card, known⟩ := h.delivered p i v delivered
    refine ⟨b, W, low, card, fun a' ha => ?_⟩
    obtain ⟨aa, vote, same⟩ := known a' ha
    exact ⟨aa, acked a' aa vote, same⟩

theorem crashStep_sound (h : WorldSound cfg w) (e : CrashEvent) (sound : CrashStepSound cfg w e) :
    WorldSound cfg (crashStep cfg w e) := by
  cases e with
  | world e => exact worldSound_step h e sound
  | crash a msg n =>
    simp only [crashStep]
    split_ifs with received
    · apply worldSound_withAcceptor h
      have votes := h.votes a
      have met := requests_sanctioned h (e := .request a msg) received (sound received)
      cases stands : w.acks.acceptors a with
      | running s =>
        simp only [EventMeets, stands] at met votes
        exact recovers_crashed votes (met trivial) n
      | aborted fault s =>
        simp only [stands] at votes
        exact recovers_init votes
    · exact h

end World

/-- In every run of proposers, acceptors and learners, acceptors crashing at any point of any
message and recovering, no two learners deliver different values for one instance, if the
steps meet the conditions that agreement has without crashes. -/
theorem learners_agree_after_crashes (cfg : Config) (clock : ℕ → Timeval) (timeNow : Timeval)
    (events : List CrashEvent)
    (sound : Along (crashStep cfg) (CrashStepSound cfg) (worldInit cfg clock timeNow) events) :
    Agreement (run (crashStep cfg) (worldInit cfg clock timeNow) events) :=
  (sound.invariant (WorldSound cfg) (worldSound_init cfg clock timeNow)
    fun _ e h sound => crashStep_sound h e sound).agreement

/-- Acceptor 0 crashes before its promises are durable and acceptor 1 after it has stored the
value, before its acknowledgement is out; a repeat request brings the value to the learner. -/
def crashesInFirstReign : List CrashEvent :=
  .crash 0 (.prepareReqs 0 (preparesAt .small 10)) 2 :: firstReign.map .world ++
    [.world (.acks (.request 0 (.acceptReqs 0 [⟨1, 10, [7]⟩]))),
      .crash 1 (.acceptReqs 0 [⟨1, 10, [7]⟩]) 1,
      .world (.acks (.request 1 (.repeatReqs [1]))),
      .world (.acks (.acceptAcks 0 0 [⟨1, 10, 10, false, [7]⟩])),
      .world (.acks (.acceptAcks 0 1 [⟨1, 10, 10, false, [7]⟩]))]

theorem crashes_survived_in_first_reign :
    let w := run (crashStep .small) (worldInit .small stillClock ⟨0, 0⟩) crashesInFirstReign
    Agreement w ∧ ((w.acks.learners 0).state.2.map fun d => (d.iid, d.value)) = [(1, [7])] :=
  ⟨learners_agree_after_crashes .small stillClock ⟨0, 0⟩ _ (by decide +kernel),
    by decide +kernel⟩

end FdsPaxos.Paxos2CrashAgreement
