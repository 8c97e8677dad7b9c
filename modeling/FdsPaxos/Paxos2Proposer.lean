import FdsPaxos.Paxos2Leader
import FdsPaxos.Paxos2Learner

set_option autoImplicit false

/-! The event handlers of `proposer.c`. -/

namespace FdsPaxos.Paxos2Proposer
open TransitionRuns CircularWindow Paxos2Config Paxos2Messages Paxos2SendBuffer
open Paxos2ValuesHandler Paxos2Learner Paxos2Leader

/-- A proposer: the learner it is built on, and the leader's globals. -/
structure ProposerState where
  currentLeaderId : ℕ
  leader : LeaderState
  learner : LearnerState

inductive ProposerFault where
  | leader (fault : LeaderFault)
  | learner (fault : LearnerFault)
deriving DecidableEq

abbrev ProposerOutcome := Outcome ProposerFault ProposerState

variable (cfg : Config) (clock : ℕ → Timeval)

def ProposerState.LeaderIsMe (s : ProposerState) : Prop :=
  s.leader.thisProposerId = s.currentLeaderId

instance (s : ProposerState) : Decidable s.LeaderIsMe :=
  inferInstanceAs (Decidable (_ = _))

def ProposerState.withLeader (s : ProposerState) (o : LeaderOutcome) : ProposerOutcome :=
  match o with
  | .running l => .running { s with leader := l }
  | .aborted fault l => .aborted (.leader fault) { s with leader := l }

def acceptorBit (acceptorId : ℕ) : UInt32 := (1 : UInt32) <<< UInt32.ofNat acceptorId

/-- The phase 1 value after a promise: the value of the promise replaces the one kept
if its ballot is higher. -/
def savePromiseValue (ii : PInstInfo) (pa : PrepareAck) : PInstInfo :=
  if pa.value.length = 0 then ii
  else if pa.valueBallot ≤ ii.p1ValueBallot then ii
  else if ii.p1Value = some pa.value then { ii with p1ValueBallot := pa.valueBallot }
  else { ii with p1Value := some pa.value, p1ValueBallot := pa.valueBallot }

/-- The bit vector is combined with `&=`. -/
def proSavePrepareAck (ii : PInstInfo) (pa : PrepareAck) (acceptorId : ℕ) : PInstInfo :=
  if ii.promisesBitvector &&& acceptorBit acceptorId ≠ 0 then ii
  else
    savePromiseValue
      { ii with
        promisesBitvector := ii.promisesBitvector &&& acceptorBit acceptorId
        promisesCount := ii.promisesCount + 1 } pa

def leaderBecameReady (s : LeaderState) (slot : ℕ) (ii : PInstInfo) : LeaderState :=
  { (s.withSlot slot { ii with status := .p1Ready }).log (.ready ii.iid ii.myBallot) with
    p1Info :=
      { s.p1Info with
        pendingCount := s.p1Info.pendingCount - 1
        readyCount := s.p1Info.readyCount + 1 } }

/-- The slot is found by the instance of the promise, whose id is not looked at again. -/
def handlePrepareAck (acceptorId : ℕ) (s : LeaderState) (pa : PrepareAck) : LeaderState × Bool :=
  let s := s.log (.received acceptorId pa)
  let slot := cfg.proIndex pa.iid
  let ii := s.proposerState slot
  if ii.status ≠ .p1Pending then (s, false)
  else if pa.ballot ≠ ii.myBallot then (s, false)
  else
    let ii := proSavePrepareAck ii pa acceptorId
    if ii.promisesCount < cfg.quorum then (s.withSlot slot ii, false)
    else (leaderBecameReady s slot ii, true)

/-- The loop of `handle_prepare_ack_batch`, with the number of instances made ready. -/
def handlePrepareAcks (acceptorId : ℕ) (s : LeaderState) (acks : List PrepareAck) :
    LeaderState × ℕ :=
  run (fun r pa =>
    let r' := handlePrepareAck cfg acceptorId r.1 pa
    (r'.1, if r'.2 then r.2 + 1 else r.2)) (s, 0) acks

def handlePrepareAckBatch (acceptorId : ℕ) (acks : List PrepareAck) (s : ProposerState) :
    ProposerOutcome :=
  if s.LeaderIsMe then
    let r := handlePrepareAcks cfg acceptorId s.leader acks
    if 0 < r.2 then
      s.withLeader ((leaderOpenInstancesP2Expired cfg clock r.1).bind
        (leaderOpenInstancesP2New cfg clock))
    else .running { s with leader := r.1 }
  else .running s

def leaderDelivered (iid : ℕ) (s : LeaderState) : LeaderState :=
  { s with currentIid := iid + 1 }

def proDeliverCallback (s : ProposerState) (d : Delivery) : ProposerOutcome :=
  let leader := s.leader.log (.delivered d.iid d.value)
  s.withLeader
    (((if s.LeaderIsMe then leaderDeliver cfg clock leader d.value d.iid
      else .running leader) : LeaderOutcome).bind fun l => .running (leaderDelivered d.iid l))

/-- The callbacks run inside the learner's loop, which does not look at what they change. -/
def proHandleAcceptAckBatch (acceptorId : ℕ) (acks : List AcceptAck) (s : ProposerState) :
    ProposerOutcome :=
  match Paxos2Learner.handleAcceptAckBatch cfg s.learner acceptorId acks with
  | .running (learner, ds) =>
    Outcome.fold (proDeliverCallback cfg clock) { s with learner := learner } ds
  | .aborted fault (learner, ds) =>
    (Outcome.fold (proDeliverCallback cfg clock) { s with learner := learner } ds).bind
      fun s => .aborted (.learner fault) s

/-- A `leader_announce` message of the oracle. -/
def proHandleLeaderAnnounce (timeNow : Timeval) (currentLeader : ℕ) (s : ProposerState) :
    ProposerOutcome :=
  let me := s.leader.thisProposerId
  let announced (o : LeaderOutcome) : ProposerOutcome :=
    (s.withLeader o).bind fun s => .running { s with currentLeaderId := currentLeader }
  if s.LeaderIsMe ∧ currentLeader ≠ me then announced (.running (leaderShutdown cfg s.leader))
  else if ¬ s.LeaderIsMe ∧ currentLeader = me then
    announced (leaderInit cfg clock timeNow s.leader)
  else announced (.running s.leader)

def initProStructs (proposerId : ℕ) : LeaderState where
  thisProposerId := proposerId
  currentIid := 1
  proposerState := fun _ =>
    { iid := 0
      status := .empty
      myBallot := 0
      promisesBitvector := 0
      promisesCount := 0
      p1Value := none
      p1ValueBallot := 0
      p2Value := none
      timeout := ⟨0, 0⟩ }
  p1Info := { pendingCount := 0, readyCount := 0, highestOpen := 0 }
  p2Info := { nextUnusedIid := 0, openCount := 0 }
  valuesHandler :=
    { pendingList := [], droppedCount := 0, notified := [], accepted := [], found := [] }
  prepareBuf := sendbufNew
  acceptBuf := sendbufNew
  trace := []

/-- Proposer 0 starts as leader. -/
def proposerInit (timeNow : Timeval) (proposerId : ℕ) : ProposerOutcome :=
  let s : ProposerState :=
    { currentLeaderId := 0
      leader := initProStructs proposerId
      learner := learnerInit }
  if s.LeaderIsMe then s.withLeader (leaderInit cfg clock timeNow s.leader) else .running s

/-- The events of a proposer.  The clock gives the time read when the deadline of an
instance is set during the event, `timeNow` the time read at the start of a check. -/
inductive ProposerEvent where
  | submit (value : Value)
  | leaderAnnounce (currentLeader : ℕ) (clock : ℕ → Timeval) (timeNow : Timeval)
  | p1Check (clock : ℕ → Timeval) (timeNow : Timeval)
  | p2Check (clock : ℕ → Timeval) (timeNow : Timeval)
  | prepareAcks (acceptorId : ℕ) (acks : List PrepareAck) (clock : ℕ → Timeval)
  | acceptAcks (acceptorId : ℕ) (acks : List AcceptAck) (clock : ℕ → Timeval)
  | holeCheck

/-- A clock that stands still, for runs on fixed inputs. -/
def stillClock : ℕ → Timeval := fun _ => ⟨0, 0⟩

/-- The two check timers are set by `leader_init` and deleted by `leader_shutdown`. -/
def proposerHandle (s : ProposerState) : ProposerEvent → ProposerOutcome
  | .submit value =>
    .running { s with
      leader :=
        { s.leader with valuesHandler := vhEnqueueValue cfg s.leader.valuesHandler value } }
  | .leaderAnnounce currentLeader clock timeNow =>
    proHandleLeaderAnnounce cfg clock timeNow currentLeader s
  | .p1Check clock timeNow =>
    if s.LeaderIsMe then s.withLeader (leaderPeriodicP1Check cfg clock timeNow s.leader)
    else .running s
  | .p2Check clock timeNow =>
    if s.LeaderIsMe then
      s.withLeader (leaderPeriodicP2Check cfg clock
        (fun iid => decide (learnerIsClosed cfg s.learner iid)) timeNow s.leader)
    else .running s
  | .prepareAcks acceptorId acks clock => handlePrepareAckBatch cfg clock acceptorId acks s
  | .acceptAcks acceptorId acks clock => proHandleAcceptAckBatch cfg clock acceptorId acks s
  | .holeCheck => .running { s with learner := leaHoleCheck cfg s.learner }

/-- A proposer that has not stopped handles an event. -/
def proposerStep (o : ProposerOutcome) (e : ProposerEvent) : ProposerOutcome :=
  o.bind fun s => proposerHandle cfg s e

end FdsPaxos.Paxos2Proposer
