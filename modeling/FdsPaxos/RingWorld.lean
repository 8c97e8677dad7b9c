import FdsPaxos.RingAcceptor
import FdsPaxos.RingDeliveryQueue
import FdsPaxos.RingMulticaster
import Mathlib.Logic.Function.Basic

set_option autoImplicit false

/-!
The multicaster, the acceptors of the ring and learners over a network that may lose,
duplicate, delay and reorder messages: whatever was sent may be received at any later time.
-/

namespace FdsPaxos.RingWorld
open TransitionRuns RingConfig RingMessages RingStableStorage RingAcceptor RingMcasterStorage
open RingMulticaster RingDeliveryQueue

structure RingState where
  mcaster : McasterOutcome
  acceptors : ℕ → AcceptorOutcome
  learners : ℕ → LearnerOutcome

/-- `late` tells the learners that start late. -/
def ringInit (late : ℕ → Bool) : RingState where
  mcaster := .running multicasterInit
  acceptors := fun a => .running (regularAcceptorInit a)
  learners := fun l => .running (learnerInit (late l))

/-- What happens to the processes.  Acceptor `a` may be given any stack content. -/
inductive RingEvent where
  | submit (value : Value)
  | periodicCheck (clock : ℕ → Timeval)
  | toMcaster (msg : RingMsg) (clock : Timeval)
  | request (l : ℕ) (msg : Request) (clock : Timeval)
  | restart
  | toAcceptor (a : ℕ) (msg : RingMsg) (stack : ℕ → Phase1Stack)
  | mcastAcceptor (a : ℕ) (msg : McastMsg)
  | mcastLearner (l : ℕ) (msg : McastMsg)
  | deliverLoop (l : ℕ)
  | gapCheck (l : ℕ) (timeNow : Timeval)

variable (cfg : Config)

/-- All that was sent to acceptor `a` along the ring. -/
def ringSent (w : RingState) (a : ℕ) : List RingMsg :=
  if cfg.predecessor a = 1 then w.mcaster.state.toSuccessor
  else (w.acceptors (cfg.predecessor a)).state.toSuccessor

def Possible (w : RingState) : RingEvent → Prop
  | .toMcaster msg _ => msg ∈ ringSent cfg w 1
  | .request l msg _ => msg ∈ (w.learners l).state.requests
  | .toAcceptor a msg _ => cfg.InRing a ∧ msg ∈ ringSent cfg w a
  | .mcastAcceptor a msg => cfg.InRing a ∧ msg ∈ w.mcaster.state.mcast
  | .mcastLearner _ msg => msg ∈ w.mcaster.state.mcast
  | .submit _ | .periodicCheck _ | .restart | .deliverLoop _ | .gapCheck _ _ => True

instance (w : RingState) (e : RingEvent) : Decidable (Possible cfg w e) :=
  match e with
  | .toMcaster msg _ => inferInstanceAs (Decidable (msg ∈ _))
  | .request _ msg _ => inferInstanceAs (Decidable (msg ∈ _))
  | .toAcceptor _ _ _ | .mcastAcceptor _ _ => inferInstanceAs (Decidable (_ ∧ _))
  | .mcastLearner _ msg => inferInstanceAs (Decidable (msg ∈ _))
  | .submit _ | .periodicCheck _ | .restart | .deliverLoop _ | .gapCheck _ _ => isTrue trivial

/-- The multicaster during an event; a stopped process can be started again. -/
def mcasterStep (o : McasterOutcome) : RingEvent → McasterOutcome
  | .submit value => o.bind fun s => .running (mcasterHandleValueSubmit s value)
  | .periodicCheck clock => o.bind (onMcasterPeriodicCheck cfg clock)
  | .toMcaster msg clock =>
    o.bind fun s => onPredecessorMsg cfg (mcasterUpdateWallclock s clock) msg
  | .request _ msg clock =>
    o.bind fun s => mcasterHandleRequest cfg (mcasterUpdateWallclock s clock) msg
  | .restart => .running (multicasterRestart o.state)
  | .toAcceptor _ _ _ | .mcastAcceptor _ _ | .mcastLearner _ _ | .deliverLoop _
  | .gapCheck _ _ => o

def acceptorStep (a : ℕ) (o : AcceptorOutcome) : RingEvent → AcceptorOutcome
  | .toAcceptor a' msg stack =>
    if a = a' then o.bind fun s => RingAcceptor.onPredecessorMsg cfg s stack msg else o
  | .mcastAcceptor a' msg => if a = a' then o.bind fun s => onMulticastMsg cfg s msg else o
  | .submit _ | .periodicCheck _ | .toMcaster _ _ | .request _ _ _ | .restart
  | .mcastLearner _ _ | .deliverLoop _ | .gapCheck _ _ => o

def learnerStep (l : ℕ) (o : LearnerOutcome) : RingEvent → LearnerOutcome
  | .mcastLearner l' msg => if l = l' then o.bind fun q => onMcastMsg cfg.workingSetSize q msg else o
  | .deliverLoop l' => if l = l' then o.bind (dqDeliverLoop cfg.workingSetSize) else o
  | .gapCheck l' timeNow => if l = l' then o.bind (dqPeriodicCheck cfg.workingSetSize timeNow) else o
  | .submit _ | .periodicCheck _ | .toMcaster _ _ | .request _ _ _ | .restart
  | .toAcceptor _ _ _ | .mcastAcceptor _ _ => o

/-- An event that is not possible does not happen. -/
def ringStep (w : RingState) (e : RingEvent) : RingState :=
  if Possible cfg w e then
    { mcaster := mcasterStep cfg w.mcaster e
      acceptors := fun a => acceptorStep cfg a (w.acceptors a) e
      learners := fun l => learnerStep cfg l (w.learners l) e }
  else w

def firstKey : CommandId := ⟨1, 0, 1⟩

/-- Instances 1 and 2 are prepared, and value `v` is chosen for instance 1, by acceptors 2
and 3. -/
def chooseFirst (v : Value) : List RingEvent :=
  [.periodicCheck fun _ => ⟨1, 0⟩,
    .toAcceptor 2 (.phase1Range ⟨1, 2, 65792, 0⟩) fun _ => ⟨0, 0, 0⟩,
    .toAcceptor 3 (.phase1Range ⟨1, 2, 65792, 1⟩) fun _ => ⟨0, 0, 0⟩,
    .toMcaster (.phase1Range ⟨1, 2, 65792, 2⟩) ⟨1, 0⟩,
    .submit v, .periodicCheck fun _ => ⟨1, 0⟩,
    .mcastAcceptor 2 (.commandMap ⟨1, firstKey, v⟩),
    .mcastAcceptor 2 (.phase2 ⟨1, 65792, 0, firstKey⟩),
    .mcastAcceptor 3 (.commandMap ⟨1, firstKey, v⟩),
    .toAcceptor 3 (.phase2 ⟨1, 65792, 1, firstKey⟩) fun _ => ⟨0, 0, 0⟩,
    .toMcaster (.phase2 ⟨1, 65792, 2, firstKey⟩) ⟨1, 0⟩]

end FdsPaxos.RingWorld
