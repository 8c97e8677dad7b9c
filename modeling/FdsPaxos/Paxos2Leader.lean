import FdsPaxos.Paxos2SendBuffer
import FdsPaxos.Paxos2ValuesHandler
import FdsPaxos.TransitionRuns

set_option autoImplicit false

/-!
The leader routines of `proposer_leader.c` over the state declared in `proposer.c`.
The counters are 32-bit and wrap; the event counters that are only printed are left out.
-/

namespace FdsPaxos.Paxos2Leader
open TransitionRuns CircularWindow Paxos2Config Paxos2Messages Paxos2SendBuffer
open Paxos2ValuesHandler

structure Timeval where
  tvSec : ℕ
  tvUsec : ℕ
deriving DecidableEq

inductive IStatus where
  | empty
  | p1Pending
  | p1Ready
  | p2Pending
  | p2Completed
deriving DecidableEq

structure PInstInfo where
  iid : ℕ
  status : IStatus
  myBallot : ℕ
  promisesBitvector : UInt32
  promisesCount : ℕ
  p1Value : Option Value
  p1ValueBallot : ℕ
  p2Value : Option Value
  timeout : Timeval

structure Phase1Info where
  pendingCount : UInt32
  readyCount : UInt32
  highestOpen : ℕ

structure Phase2Info where
  nextUnusedIid : ℕ
  openCount : UInt32

inductive LeaderEvent where
  | chose (iid ballot : ℕ)
  | received (acceptorId : ℕ) (pa : PrepareAck)
  | ready (iid ballot : ℕ)
  | proposed (iid ballot : ℕ) (value : Value)
  | delivered (iid : ℕ) (value : Value)
deriving DecidableEq

/-- The globals of the leader; `trace` is the history, latest event first. -/
structure LeaderState where
  thisProposerId : ℕ
  currentIid : ℕ
  proposerState : ℕ → PInstInfo
  p1Info : Phase1Info
  p2Info : Phase2Info
  valuesHandler : ValuesHandler
  prepareBuf : SendBuf PrepareReq
  acceptBuf : SendBuf AcceptReq
  trace : List LeaderEvent

inductive LeaderFault where
  | p1CheckSlotIid
  | activeCount
  | toOpen
  | openSlotNotEmpty
  | noPendingValue
  | expiredSlotIid
  | expiredNoValue
  | newSlotHasValue
deriving DecidableEq

abbrev LeaderOutcome := Outcome LeaderFault LeaderState

namespace LeaderState

def withSlot (s : LeaderState) (slot : ℕ) (ii : PInstInfo) : LeaderState :=
  { s with proposerState := setSlot s.proposerState slot ii }

def withValues (s : LeaderState) (vh : ValuesHandler) : LeaderState :=
  { s with valuesHandler := vh }

def log (s : LeaderState) (e : LeaderEvent) : LeaderState :=
  { s with trace := e :: s.trace }

end LeaderState

variable (cfg : Config) (clock : ℕ → Timeval)

/-- Carrying the microseconds tests `>` where it divides by a second. -/
def leaderSetExpiration (currentTime : Timeval) (usecInterval : ℕ) : Timeval :=
  let aSecond := 1000000
  let usecSum := currentTime.tvUsec + usecInterval % aSecond
  { tvSec := currentTime.tvSec + usecInterval / aSecond + if aSecond < usecSum then 1 else 0
    tvUsec := usecSum % aSecond }

def leaderIsExpired (deadline timeNow : Timeval) : Prop :=
  deadline.tvSec < timeNow.tvSec ∨
    (deadline.tvSec = timeNow.tvSec ∧ deadline.tvUsec < timeNow.tvUsec)

instance (deadline timeNow : Timeval) : Decidable (leaderIsExpired deadline timeNow) :=
  inferInstanceAs (Decidable (_ ∨ _))

def proClearInstanceInfo (ii : PInstInfo) : PInstInfo where
  iid := 0
  status := .empty
  myBallot := 0
  promisesBitvector := 0
  promisesCount := 0
  p1Value := none
  p1ValueBallot := 0
  p2Value := none
  timeout := ii.timeout

/-- `sendbuf_add_prepare_req` for the ballot the slot has just been given. -/
def leaderSendPrepare (s : LeaderState) (slot : ℕ) (ii : PInstInfo) : LeaderState :=
  { (s.withSlot slot
      { ii with timeout := leaderSetExpiration (clock ii.iid) cfg.p1TimeoutInterval }).log
      (.chose ii.iid ii.myBallot) with
    prepareBuf := sendbufAddPrepareReq cfg s.prepareBuf ⟨ii.iid, ii.myBallot⟩ }

def leaderSendAccept (s : LeaderState) (slot : ℕ) (ii : PInstInfo) (value : Value) : LeaderState :=
  { (s.withSlot slot
      { ii with
        status := .p2Pending
        timeout := leaderSetExpiration (clock ii.iid) cfg.p2TimeoutInterval }).log
      (.proposed ii.iid ii.myBallot value) with
    acceptBuf := sendbufAddAcceptReq cfg s.acceptBuf ⟨ii.iid, ii.myBallot, value⟩ }

def clearPrepareBuf (s : LeaderState) : LeaderState :=
  { s with prepareBuf := sendbufClear s.prepareBuf }

def flushPrepareBuf (s : LeaderState) : LeaderState :=
  { s with prepareBuf := sendbufFlush s.prepareBuf }

def clearAcceptBuf (s : LeaderState) : LeaderState :=
  { s with acceptBuf := sendbufClear s.acceptBuf }

def flushAcceptBuf (s : LeaderState) : LeaderState :=
  { s with acceptBuf := sendbufFlush s.acceptBuf }

def retryPhase1 (ii : PInstInfo) : PInstInfo :=
  { ii with
    promisesBitvector := 0
    promisesCount := 0
    p1ValueBallot := 0
    p1Value := none
    myBallot := cfg.nextBallot ii.myBallot }

/-- Loop body of `leader_check_p1_pending`. -/
def leaderCheckP1Instance (timeNow : Timeval) (s : LeaderState) (iid : ℕ) : LeaderOutcome :=
  let slot := cfg.proIndex iid
  let ii := s.proposerState slot
  if ii.iid = iid then
    if ii.status = .p1Pending ∧ leaderIsExpired ii.timeout timeNow then
      .running (leaderSendPrepare cfg clock s slot (retryPhase1 cfg ii))
    else .running s
  else .aborted .p1CheckSlotIid s

def leaderCheckP1Pending (timeNow : Timeval) (s : LeaderState) : LeaderOutcome :=
  (Outcome.fold (leaderCheckP1Instance cfg clock timeNow) (clearPrepareBuf s)
    (List.range' s.currentIid (s.p1Info.highestOpen + 1 - s.currentIid))).map flushPrepareBuf

/-- Loop body of `leader_open_instances_p1`.  Only the instance id, status and ballot
of the slot are set. -/
def leaderOpenInstanceP1 (s : LeaderState) (currIid : ℕ) : LeaderOutcome :=
  let slot := cfg.proIndex currIid
  let ii := s.proposerState slot
  if ii.status = .empty then
    .running (leaderSendPrepare cfg clock s slot
      { ii with
        iid := currIid
        status := .p1Pending
        myBallot := cfg.firstBallot s.thisProposerId })
  else .aborted .openSlotNotEmpty s

/-- The `int` that `leader_open_instances_p1` computes from the two counters. -/
def activeCount (s : LeaderState) : ℤ :=
  (s.p1Info.pendingCount + s.p1Info.readyCount).toInt32.toInt

def leaderAddOpened (toOpen : ℕ) (s : LeaderState) : LeaderState :=
  { s with
    p1Info :=
      { s.p1Info with
        pendingCount := s.p1Info.pendingCount + UInt32.ofNat toOpen
        highestOpen := s.p1Info.highestOpen + toOpen } }

def leaderToOpen (s : LeaderState) : ℕ :=
  cfg.proposerPreexecWinSize - (activeCount s).toNat

def leaderOpenInstancesP1 (s : LeaderState) : LeaderOutcome :=
  if activeCount s < 0 then .aborted .activeCount s
  else if (cfg.proposerPreexecWinSize / 2 : ℕ) ≤ activeCount s then .running s
  else
    let s := clearPrepareBuf s
    let toOpen := leaderToOpen cfg s
    if toOpen < cfg.proposerPreexecWinSize / 2 then .aborted .toOpen s
    else
      (Outcome.fold (leaderOpenInstanceP1 cfg clock) s
        (List.range' (s.p1Info.highestOpen + 1) toOpen)).bind fun s =>
          .running (leaderAddOpened toOpen (flushPrepareBuf s))

def leaderPeriodicP1Check (timeNow : Timeval) (s : LeaderState) : LeaderOutcome :=
  (leaderCheckP1Pending cfg clock timeNow s).bind (leaderOpenInstancesP1 cfg clock)

/-- The last branch of the source, for two values, is never reached: a phase 1 value
is taken by the second one, which drops a phase 2 value already there. -/
def leaderExecuteP2 (s : LeaderState) (slot : ℕ) : LeaderOutcome :=
  let ii := s.proposerState slot
  match ii.p1Value, ii.p2Value with
  | none, none =>
    match vhGetNextPending s.valuesHandler with
    | none => .aborted .noPendingValue s
    | some (value, vh) =>
      .running (leaderSendAccept cfg clock (s.withValues vh) slot
        { ii with p2Value := some value } value)
  | some value, own =>
    let vh := if own.isSome then s.valuesHandler else vhFound s.valuesHandler value
    .running (leaderSendAccept cfg clock (s.withValues vh) slot
      { ii with p2Value := some value, p1Value := none, p1ValueBallot := 0 } value)
  | none, some value => .running (leaderSendAccept cfg clock s slot ii value)

/-- The loop of `leader_open_instances_p2_expired`, with its count. -/
def leaderOpenExpired : List ℕ → UInt32 → LeaderState → Outcome LeaderFault (LeaderState × UInt32)
  | [], count, s => .running (s, count)
  | iid :: rest, count, s =>
    let slot := cfg.proIndex iid
    let ii := s.proposerState slot
    if ii.iid = iid then
      if ii.status = .p1Ready then
        if ii.p2Value.isSome then
          (leaderExecuteP2 cfg clock s slot).andThen (fun s => (s, count))
            (leaderOpenExpired rest (count + 1))
        else .aborted .expiredNoValue (s, count)
      else leaderOpenExpired rest count s
    else .aborted .expiredSlotIid (s, count)

def leaderTakeReady (s : LeaderState) (count : UInt32) : LeaderState :=
  { s with p1Info := { s.p1Info with readyCount := s.p1Info.readyCount - count } }

def leaderOpenInstancesP2Expired (s : LeaderState) : LeaderOutcome :=
  (leaderOpenExpired cfg clock
    (List.range' s.currentIid (s.p2Info.nextUnusedIid - s.currentIid)) 0
    (clearAcceptBuf s)).andThen Prod.fst fun r =>
      .running (flushAcceptBuf (leaderTakeReady r.1 r.2))

def leaderUseNext (s : LeaderState) : LeaderState :=
  { s with p2Info := { s.p2Info with nextUnusedIid := s.p2Info.nextUnusedIid + 1 } }

/-- The loop of `leader_open_instances_p2_new`.  Each turn adds one to the count, so
the guard `count + open_count <= PROPOSER_P2_CONCURRENCY` allows as many turns as the
first argument says. -/
def leaderOpenNew : ℕ → UInt32 → LeaderState → Outcome LeaderFault (LeaderState × UInt32)
  | 0, count, s => .running (s, count)
  | turns + 1, count, s =>
    let slot := cfg.proIndex s.p2Info.nextUnusedIid
    let ii := s.proposerState slot
    if ii.p2Value.isSome then .aborted .newSlotHasValue (s, count)
    else if ii.p1Value = none ∧ vhPendingListSize s.valuesHandler = 0 then .running (s, count)
    else if ii.status ≠ .p1Ready ∨ ii.iid ≠ s.p2Info.nextUnusedIid then .running (s, count)
    else
      (leaderExecuteP2 cfg clock s slot).andThen (fun s => (s, count)) fun s =>
        leaderOpenNew turns (count + 1) (leaderUseNext s)

def leaderAddOpen (s : LeaderState) (count : UInt32) : LeaderState :=
  { s with p2Info := { s.p2Info with openCount := s.p2Info.openCount + count } }

def leaderOpenInstancesP2New (s : LeaderState) : LeaderOutcome :=
  let treshold := cfg.proposerP2Concurrency / 3 * 2
  if treshold < s.p2Info.openCount.toNat then .running s
  else
    (leaderOpenNew cfg clock (cfg.proposerP2Concurrency + 1 - s.p2Info.openCount.toNat) 0
      (clearAcceptBuf s)).andThen Prod.fst fun r =>
        .running (flushAcceptBuf (leaderAddOpen (leaderTakeReady r.1 r.2) r.2))

def leaderComplete (s : LeaderState) (slot : ℕ) : LeaderState :=
  let s := s.withSlot slot { s.proposerState slot with status := .p2Completed }
  { s with p2Info := { s.p2Info with openCount := s.p2Info.openCount - 1 } }

def leaderAddPending (s : LeaderState) : LeaderState :=
  { s with p1Info := { s.p1Info with pendingCount := s.p1Info.pendingCount + 1 } }

/-- An expired phase 2 starts phase 1 again at the next ballot; the promises counted
for the old ballot stay. -/
def restartPhase1 (ii : PInstInfo) : PInstInfo :=
  { ii with status := .p1Pending, myBallot := cfg.nextBallot ii.myBallot }

/-- Loop body of `leader_periodic_p2_check`; `isClosed` is `learner_is_closed`. -/
def leaderCheckP2Instance (isClosed : ℕ → Bool) (timeNow : Timeval) (s : LeaderState) (iid : ℕ) :
    LeaderState :=
  let slot := cfg.proIndex iid
  let ii := s.proposerState slot
  if ii.status ≠ .p2Pending then s
  else if isClosed iid then leaderComplete s slot
  else if leaderIsExpired ii.timeout timeNow then
    leaderAddPending (leaderSendPrepare cfg clock s slot (restartPhase1 cfg ii))
  else s

def leaderPeriodicP2Check (isClosed : ℕ → Bool) (timeNow : Timeval) (s : LeaderState) :
    LeaderOutcome :=
  leaderOpenInstancesP2New cfg clock
    (flushPrepareBuf
      (run (leaderCheckP2Instance cfg clock isClosed timeNow) (clearPrepareBuf s)
        (List.range' s.currentIid (s.p2Info.nextUnusedIid - s.currentIid))))

/-- Instances for which phase 2 was opened and that the leader has not seen closed. -/
def openedByMe (ii : PInstInfo) : Prop :=
  (ii.status = .p1Pending ∧ ii.p2Value.isSome) ∨ (ii.status = .p1Ready ∧ ii.p2Value.isSome) ∨
    ii.status = .p2Pending

instance (ii : PInstInfo) : Decidable (openedByMe ii) :=
  inferInstanceAs (Decidable (_ ∨ _ ∨ _))

/-- The counters after instance `iid`, held in slot `ii`, was delivered. -/
def leaderCountDelivered (s : LeaderState) (ii : PInstInfo) (iid : ℕ) : LeaderState :=
  { s with
    p1Info :=
      { s.p1Info with
        pendingCount :=
          if ii.status = .p1Pending then s.p1Info.pendingCount - 1 else s.p1Info.pendingCount }
    p2Info :=
      { nextUnusedIid :=
          if s.p2Info.nextUnusedIid = iid then iid + 1 else s.p2Info.nextUnusedIid
        openCount := if openedByMe ii then s.p2Info.openCount - 1 else s.p2Info.openCount } }

/-- The client is told, or a value of ours that lost goes back to the list. -/
def leaderSettleValue (vh : ValuesHandler) (p2Value : Option Value) (value : Value) :
    ValuesHandler :=
  match p2Value with
  | none => vh
  | some own => if own = value then vhNotifyClient vh 0 own else vhPushBackValue vh own

def leaderDeliver (s : LeaderState) (value : Value) (iid : ℕ) : LeaderOutcome :=
  let slot := cfg.proIndex iid
  let ii := s.proposerState slot
  if ii.iid ≠ iid then .running s
  else
    let s := leaderCountDelivered s ii iid
    let s := s.withValues (leaderSettleValue s.valuesHandler ii.p2Value value)
    leaderOpenInstancesP2New cfg clock (s.withSlot slot (proClearInstanceInfo ii))

def leaderResetP1 (s : LeaderState) : LeaderState :=
  { s with
    valuesHandler := vhInit s.valuesHandler
    p1Info := { pendingCount := 0, readyCount := 0, highestOpen := s.currentIid - 1 } }

def leaderResetP2 (s : LeaderState) : LeaderState :=
  { s with p2Info := { nextUnusedIid := s.currentIid, openCount := 0 } }

def leaderInit (timeNow : Timeval) (s : LeaderState) : LeaderOutcome :=
  (leaderPeriodicP1Check cfg clock timeNow (leaderResetP1 s)).bind fun s =>
    .running (leaderResetP2 s)

/-- Loop body of `leader_shutdown`. -/
def leaderDropInstance (s : LeaderState) (iid : ℕ) : LeaderState :=
  let slot := cfg.proIndex iid
  let ii := s.proposerState slot
  let vh :=
    match ii.p2Value with
    | some own =>
      if ii.status ≠ .p2Completed then vhPushBackValue s.valuesHandler own else s.valuesHandler
    | none => s.valuesHandler
  (s.withValues vh).withSlot slot (proClearInstanceInfo ii)

def leaderShutdown (s : LeaderState) : LeaderState :=
  let s := run (leaderDropInstance cfg) s
    (List.range' s.currentIid (s.p1Info.highestOpen + 1 - s.currentIid))
  s.withValues (vhShutdown s.valuesHandler)

end FdsPaxos.Paxos2Leader
