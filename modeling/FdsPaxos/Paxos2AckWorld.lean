import FdsPaxos.Paxos2AcceptorMoves
import FdsPaxos.Paxos2Learner
import Mathlib.Data.Finset.Card
import Mathlib.Data.Finset.Range
import Mathlib.Logic.Function.Basic

set_option autoImplicit false

/-!
Acceptors, and the learners that receive their acknowledgements.  What an acceptor has
sent stays in the network, so a batch can be lost, delayed, received late or again.
-/

namespace FdsPaxos.Paxos2AckWorld
open TransitionRuns Paxos2Config Paxos2Messages Paxos2SendBuffer Paxos2StableStorage
open Paxos2Acceptor Paxos2AcceptorMoves Paxos2Learner

structure AckWorld where
  acceptors : ℕ → Outcome AcceptorFault AcceptorState
  learners : ℕ → LearnerRun

def ackWorldInit : AckWorld where
  acceptors := fun a => .running (acceptorInit a)
  learners := fun _ => learnerStart

/-- Acceptor `a` receives a message or runs its timer; learner `l` receives a batch of
acknowledgements of `a` or runs its timer. -/
inductive AckEvent where
  | request (a : ℕ) (msg : PaxosMsg)
  | repeatLatest (a : ℕ)
  | acceptAcks (l a : ℕ) (acks : List AcceptAck)
  | holeCheck (l : ℕ)

variable (cfg : Config)

def SentBy (acceptors : ℕ → Outcome AcceptorFault AcceptorState) (a : ℕ)
    (acks : List AcceptAck) : Prop :=
  a < cfg.nOfAcceptors ∧ acks ∈ (acceptors a).state.toLearners.sent

instance (acceptors : ℕ → Outcome AcceptorFault AcceptorState) (a : ℕ) (acks : List AcceptAck) :
    Decidable (SentBy cfg acceptors a acks) :=
  inferInstanceAs (Decidable (_ ∧ _))

def toMessages (a : ℕ) (acks : List AcceptAck) : List (ℕ × AcceptAck) :=
  acks.map fun aa => (a, aa)

def ackStep (w : AckWorld) : AckEvent → AckWorld
  | .request a msg =>
    { w with
      acceptors := Function.update w.acceptors a
        ((w.acceptors a).bind fun s => .running (accHandleNewmsg cfg s msg)) }
  | .repeatLatest a =>
    { w with
      acceptors := Function.update w.acceptors a
        ((w.acceptors a).bind (accPeriodicRepeater cfg)) }
  | .acceptAcks l a acks =>
    if SentBy cfg w.acceptors a acks then
      { w with
        learners := Function.update w.learners l
          (run (learnerStep cfg) (w.learners l) (toMessages a acks)) }
    else w
  | .holeCheck l =>
    { w with
      learners := Function.update w.learners l
        ((w.learners l).bind fun r => .running (leaHoleCheck cfg r.1, r.2)) }

/-- The acceptors that have stored `v` for instance `i` as accepted at ballot `b`. -/
def acceptedAt (acceptors : ℕ → Outcome AcceptorFault AcceptorState) (i b : ℕ) (v : Value) :
    Finset ℕ :=
  (Finset.range cfg.nOfAcceptors).filter fun a =>
    ∃ rec ∈ (acceptors a).state.storage.puts,
      rec.iid = i ∧ rec.valueBallot = b ∧ rec.value = v

def AcceptedByQuorum (acceptors : ℕ → Outcome AcceptorFault AcceptorState) (i : ℕ) (v : Value) :
    Prop :=
  ∃ b, cfg.quorum ≤ (acceptedAt cfg acceptors i b v).card

variable {cfg} {w : AckWorld} {C : AcceptCondition}

def EventMeets (cfg : Config) (C : AcceptCondition) (w : AckWorld) : AckEvent → Prop
  | .request a msg => (w.acceptors a).IsRunning → BatchMeets cfg C (w.acceptors a).state msg
  | .repeatLatest _ | .acceptAcks _ _ _ | .holeCheck _ => True

instance (e : AckEvent) [∀ s ar, Decidable (C s ar)] : Decidable (EventMeets cfg C w e) :=
  match e with
  | .request _ _ => inferInstanceAs (Decidable (_ → _))
  | .repeatLatest _ | .acceptAcks _ _ _ | .holeCheck _ => isTrue trivial

theorem ackStep_moves (e : AckEvent) (met : EventMeets cfg C w e) (a : ℕ) :
    Moves cfg C (w.acceptors a).state ((ackStep cfg w e).acceptors a).state := by
  cases e with
  | request a' msg =>
    simp only [ackStep, Function.update_apply]
    split_ifs with here
    · subst here
      revert met
      cases hs : w.acceptors a with
      | running s =>
        intro met
        simp only [EventMeets, hs] at met
        exact accHandleNewmsg_moves s msg (met trivial)
      | aborted fault s => exact fun _ => .refl
    · exact .refl
  | repeatLatest a' =>
    simp only [ackStep, Function.update_apply]
    split_ifs with here
    · subst here
      cases w.acceptors a with
      | running s => exact accPeriodicRepeater_moves s
      | aborted fault s => exact .refl
    · exact .refl
  | acceptAcks l a' acks =>
    simp only [ackStep]
    split_ifs <;> exact .refl
  | holeCheck l => exact .refl

theorem eventMeets_any (cfg : Config) (w : AckWorld) (e : AckEvent) : EventMeets cfg anyRequest w e := by
  cases e with
  | request a msg =>
    intro _
    cases msg with
    | acceptReqs _ accepts =>
      exact along_of_mem fun _ _ _ => trivial
    | _ => trivial
  | _ => trivial

end FdsPaxos.Paxos2AckWorld
