import FdsPaxos.RingMcasterStorage

set_option autoImplicit false

/-! The multicaster, acceptor 1 of the ring, from `acceptor_helpers_mcaster.c`. -/

namespace FdsPaxos.RingMulticaster
open TransitionRuns RingConfig RingMessages RingMcasterStorage

variable (cfg : Config)

def mcasterUpdateWallclock (s : Mcaster) (timeNow : Timeval) : Mcaster :=
  { s with mcasterClock := timeNow }

/-- The source leaves the key of the message unset; it is not read before an acceptor
has replaced it. -/
def mcasterDoPhase1 (s : Mcaster) (slot : ℕ) : McasterOutcome :=
  let mir := s.instancesArray slot
  if mir.ballot = 0 then .aborted .ballotZero s
  else
    .running ((s.sendRing (.phase1
      { instNumber := mir.instNumber
        ballot := mir.ballot
        promisesCount := 0
        highestAcceptedBallot := 0
        highestPromisedBallot := 0
        cmdKey := clearCmdKey
        cmdValue := [] })).withRecord slot
      { mir with
        status := .p1Pending
        timeout := timerSetTimeout s.mcasterClock cfg.p1Interval })

def mcasterDoPhase1Range (s : Mcaster) (fromIid toIid : ℕ) (ballot : Ballot) : Mcaster :=
  s.sendRing (.phase1Range
    { fromIid := fromIid, toIid := toIid, ballot := ballot, promisesCount := 0 })

def mcasterDoPhase2 (s : Mcaster) (slot : ℕ) : Mcaster :=
  let mir := s.instancesArray slot
  (s.sendMcast (.phase2
    { instNumber := mir.instNumber
      ballot := mir.ballot
      acceptsCount := 0
      cmdKey := mir.assignedCmdKey })).withRecord slot
    { mir with
      status := .p2Pending
      timeout := timerSetTimeout s.mcasterClock cfg.p2Interval }

def mcasterBroadcastMapping (s : Mcaster) (slot : ℕ) : Mcaster :=
  let mir := s.instancesArray slot
  (s.sendMcast (.commandMap
    { instNumber := mir.instNumber
      cmdKey := mir.assignedCmdKey
      cmdValue := mir.assignedCmdValue.getD [] })).withRecord slot
    { mir with
      repeatCmdmapTimeout := timerSetTimeout s.mcasterClock cfg.retransmitRequestInterval }

def mcasterBroadcastAcceptance (s : Mcaster) (slot : ℕ) : Mcaster :=
  let mir := s.instancesArray slot
  s.sendMcast (.acceptance { instNumber := mir.instNumber, cmdKey := mir.assignedCmdKey })

/-- Loop body of `mcaster_open_new_instances_P1`. -/
def mcasterOpenInstanceP1 (ballot : Ballot) (s : Mcaster) (i : ℕ) : McasterOutcome :=
  (mcasterStorageGet cfg s i).bind fun s =>
    let mir := s.record cfg i
    if mir.status = .ready then
      .running (s.withRecord (msmSlot cfg i)
        { mir with
          status := .p1Pending
          ballot := ballot
          timeout := timerSetTimeout s.mcasterClock cfg.p1Interval })
    else .aborted .openNotReady s

def mcasterAddOpen (s : Mcaster) (toOpen : ℕ) : Mcaster :=
  { s with
    p1HighestOpen := s.p1HighestOpen + toOpen
    p1ReadyCount := s.p1ReadyCount + UInt32.ofNat toOpen }

/-- The active instances are counted as twice the ready ones.  The loop is over naturals; the
counter of the source has 32 bits, and a real multicaster stops at `2 ^ 32 - 1` (`RingRangeLoops`). -/
def mcasterOpenNewInstancesP1 (s : Mcaster) : McasterOutcome :=
  let activeCount := (s.p1ReadyCount + s.p1ReadyCount).toNat
  if cfg.preexecutionWindowSize / 2 ≤ activeCount then .running s
  else
    let toOpen := cfg.preexecutionWindowSize - activeCount
    let b := makeFirstBallot selfAcceptorId incarnationNumber.toUInt32
    (Outcome.fold (mcasterOpenInstanceP1 cfg b) s (List.range' (s.p1HighestOpen + 1) toOpen)).bind
      fun s => .running (mcasterAddOpen
        (mcasterDoPhase1Range s (s.p1HighestOpen + 1) (s.p1HighestOpen + toOpen) b) toOpen)

/-- Loop body of `mcaster_check_expired_instances`. -/
def mcasterCheckExpired (s : Mcaster) (i : ℕ) : McasterOutcome :=
  (mcasterStorageGet cfg s i).bind fun s =>
    let mir := s.record cfg i
    if mir.status = .p1Pending ∧ timerIsExpired mir.timeout s.mcasterClock then
      mcasterDoPhase1 cfg s (msmSlot cfg i)
    else if mir.status = .p2Pending ∧ timerIsExpired mir.timeout s.mcasterClock then
      .running (mcasterDoPhase2 cfg (mcasterBroadcastMapping cfg s (msmSlot cfg i)) (msmSlot cfg i))
    else .running s

def mcasterCheckExpiredInstances (s : Mcaster) : McasterOutcome :=
  Outcome.fold (mcasterCheckExpired cfg) s
    (List.range' (s.highestClosedIid + 1)
      (max s.highestOpenIid s.p1HighestOpen - s.highestClosedIid))

def mcasterStartPhase2 (s : Mcaster) (slot : ℕ) : Mcaster :=
  let s := { s with p1ReadyCount := s.p1ReadyCount - 1 }
  let s := mcasterDoPhase2 cfg (mcasterBroadcastMapping cfg s slot) slot
  { s with highestOpenIid := s.highestOpenIid + 1 }

/-- The tests of a turn of `mcaster_open_new_instances_P2`: with no value the loop ends. -/
def mcasterNextValue (s : Mcaster) : Outcome McasterFault (Mcaster × Option Value) :=
  let currentIid := s.highestOpenIid + 1
  if s.highestOpenIid = s.highestClosedIid + cfg.maxActiveInstances then .running (s, none)
  else if s.p1HighestOpen < currentIid then .running (s, none)
  else if s.p1ReadyCount = 0 then .running (s, none)
  else
    (mcasterStorageGet cfg s currentIid).andThen (fun s => (s, none)) fun s =>
      let mir := s.record cfg currentIid
      if mir.status = .p1Pending then .running (s, none)
      else if mir.status ≠ .p1Done then .aborted .openNotPending (s, none)
      else if mir.ballot = 0 then .aborted .ballotZero (s, none)
      else
        match s.queue with
        | [] => .running (s, none)
        | value :: rest => .running ({ s with queue := rest }, some value)

/-- The value is assigned to the next instance and proposed. -/
def mcasterOpenInstanceP2 (s : Mcaster) (value : Value) : McasterOutcome :=
  let slot := msmSlot cfg (s.highestOpenIid + 1)
  (mcasterStorageAssignValue s slot value).bind fun s => .running (mcasterStartPhase2 cfg s slot)

/-- The loop of `mcaster_open_new_instances_P2`, for at most as many turns as the first
argument says.  The statistics that the source writes afterwards are left out, with the write
behind `concurrent_p2_open` where `max_p2_open_per_iteration` is 100 or more. -/
def mcasterOpenNewInstancesP2 : ℕ → Mcaster → McasterOutcome
  | 0, s => .running s
  | turns + 1, s =>
    (mcasterNextValue cfg s).andThen Prod.fst fun r =>
      match r.2 with
      | none => .running r.1
      | some value =>
        (mcasterOpenInstanceP2 cfg r.1 value).bind (mcasterOpenNewInstancesP2 turns)

def mcasterCheckP1 (clock : ℕ → Timeval) (s : Mcaster) : McasterOutcome :=
  (mcasterOpenNewInstancesP1 cfg (mcasterUpdateWallclock s (clock 0))).bind fun s =>
    mcasterCheckExpiredInstances cfg (mcasterUpdateWallclock s (clock 1))

def onMcasterPeriodicCheck (clock : ℕ → Timeval) (s : Mcaster) : McasterOutcome :=
  (mcasterCheckP1 cfg clock s).bind fun s =>
    mcasterOpenNewInstancesP2 cfg cfg.maxP2OpenPerIteration (mcasterUpdateWallclock s (clock 2))

/-- Loop body of `mcaster_handle_phase1_range_msg`. -/
def mcasterCompleteP1 (s : Mcaster) (i : ℕ) : McasterOutcome :=
  (mcasterStorageGet cfg s i).bind fun s =>
    let mir := s.record cfg i
    if mir.status = .p1Pending then
      .running (s.withRecord (msmSlot cfg i) { mir with status := .p1Done })
    else .aborted .rangeNotPending s

/-- Here too the counter of the source has 32 bits, and ends at `2 ^ 32 - 1` (`RingRangeLoops`). -/
def mcasterHandlePhase1RangeMsg (s : Mcaster) (msg : Phase1RangeMsg) : McasterOutcome :=
  if ¬ isMyBallot msg.ballot selfAcceptorId incarnationNumber.toUInt32 then .running s
  else if msg.fromIid ≤ s.highestClosedIid then .aborted .rangeClosed s
  else if msg.promisesCount.toNat < cfg.quorumSize then
    .running (mcasterDoPhase1Range s msg.fromIid msg.toIid msg.ballot)
  else
    Outcome.fold (mcasterCompleteP1 cfg) s
      (List.range' msg.fromIid (msg.toIid + 1 - msg.fromIid))

/-- Phase 1 has completed.  A value found in phase 1 counts only where a value was
assigned before. -/
def mcasterPromised (s : Mcaster) (msg : Phase1Msg) (slot : ℕ) : Mcaster :=
  let mir := s.instancesArray slot
  let s := s.withRecord slot { mir with status := .p1Done }
  if mir.assignedCmdValue = none then s
  else if msg.highestAcceptedBallot = 0 then mcasterDoPhase2 cfg s slot
  else if mir.assignedCmdKey = msg.cmdKey then mcasterDoPhase2 cfg s slot
  else
    mcasterDoPhase2 cfg (mcasterStorageReplaceAssignedValue s slot msg.cmdKey msg.cmdValue) slot

/-- A `phase1_msg` of our own that went around the ring, for the record of its instance. -/
def mcasterPhase1Returned (s : Mcaster) (msg : Phase1Msg) : McasterOutcome :=
  let slot := msmSlot cfg msg.instNumber
  let mir := s.record cfg msg.instNumber
  if mir.status ≠ .p1Pending then .running s
  else if mir.ballot ≠ msg.ballot then .running s
  else if msg.promisesCount.toNat < cfg.quorumSize then
    let ballot :=
      if msg.highestPromisedBallot ≠ 0 then raiseBallot mir.ballot msg.highestPromisedBallot
      else mir.ballot
    mcasterDoPhase1 cfg (s.withRecord slot { mir with ballot := ballot }) slot
  else .running (mcasterPromised cfg s msg slot)

def mcasterHandlePhase1Msg (s : Mcaster) (msg : Phase1Msg) : McasterOutcome :=
  if msg.instNumber ≤ s.highestClosedIid then .running s
  else if ¬ isMyBallot msg.ballot selfAcceptorId incarnationNumber.toUInt32 then .running s
  else
    (mcasterStorageGet cfg s msg.instNumber).bind fun s => mcasterPhase1Returned cfg s msg

/-- The loop that advances `highest_closed_iid` over instances that are done; there are
at most as many in a row as there are slots. -/
def mcasterAdvanceClosed : ℕ → Mcaster → ℕ → McasterOutcome
  | 0, s, _ => .running s
  | turns + 1, s, iid =>
    let mir := s.record cfg iid
    if mir.status = .done ∧ mir.instNumber = s.highestClosedIid + 1 then
      let s := { s with highestClosedIid := s.highestClosedIid + 1 }
      (mcasterStorageGet cfg s (s.highestClosedIid + 1)).bind fun s =>
        mcasterAdvanceClosed turns s (s.highestClosedIid + 1)
    else .running s

/-- A `phase2_msg` that went around the ring, for the record of its instance. -/
def mcasterPhase2Returned (s : Mcaster) (msg : Phase2Msg) : McasterOutcome :=
  let slot := msmSlot cfg msg.instNumber
  let mir := s.record cfg msg.instNumber
  if mir.status ≠ .p2Pending then .running s
  else if mir.ballot ≠ msg.ballot then .running s
  else if mir.assignedCmdKey ≠ msg.cmdKey then .aborted .keyDiffers s
  else if msg.acceptsCount.toNat < cfg.quorumSize then
    .running (mcasterDoPhase2 cfg (mcasterBroadcastMapping cfg s slot) slot)
  else
    mcasterAdvanceClosed cfg (cfg.msmSize + 1)
      (mcasterBroadcastAcceptance (s.withRecord slot { mir with status := .done }) slot)
      msg.instNumber

def mcasterHandlePhase2Msg (s : Mcaster) (msg : Phase2Msg) : McasterOutcome :=
  if msg.instNumber ≤ s.highestClosedIid then .running s
  else
    (mcasterStorageGet cfg s msg.instNumber).bind fun s => mcasterPhase2Returned cfg s msg

/-- Loop body of `mcaster_handle_map_request`. -/
def mcasterRepeatMap (s : Mcaster) (i : ℕ) : McasterOutcome :=
  (mcasterStorageGet cfg s i).bind fun s =>
    if timerIsExpired (s.record cfg i).repeatCmdmapTimeout s.mcasterClock then
      .running (mcasterBroadcastMapping cfg s (msmSlot cfg i))
    else .running s

/-- Loop body of `mcaster_handle_chosenval_request`. -/
def mcasterRepeatAcceptance (s : Mcaster) (i : ℕ) : McasterOutcome :=
  (mcasterStorageGet cfg s i).bind fun s =>
    if (s.record cfg i).status = .done then
      .running (mcasterBroadcastAcceptance s (msmSlot cfg i))
    else .running s

def mcasterHandleRequest (s : Mcaster) : Request → McasterOutcome
  | .mapRequest instNumbers => Outcome.fold (mcasterRepeatMap cfg) s instNumbers
  | .chosenvalRequest instNumbers => Outcome.fold (mcasterRepeatAcceptance cfg) s instNumbers

def mcasterHandleValueSubmit (s : Mcaster) (value : Value) : Mcaster :=
  { s with queue := cvmSaveValue s.queue value }

/-- The state built by `acceptor_init` for acceptor 1. -/
def multicasterInit : Mcaster where
  mcasterClock := ⟨0, 0⟩
  p1ReadyCount := 0
  p1PendingCount := 0
  p1HighestOpen := 0
  highestClosedIid := 0
  highestOpenIid := 0
  seqNumber := 1
  instancesArray := fun _ =>
    { instNumber := 0
      status := .empty
      ballot := 0
      assignedCmdKey := clearCmdKey
      assignedCmdValue := none
      timeout := ⟨0, 0⟩
      repeatCmdmapTimeout := ⟨0, 0⟩ }
  queue := []
  toSuccessor := []
  mcast := []
  replaced := []

def multicasterRestart (s : Mcaster) : Mcaster :=
  { multicasterInit with toSuccessor := s.toSuccessor, mcast := s.mcast }

/-- `on_predecessor_msg` of the multicaster, for messages of the ring. -/
def onPredecessorMsg (s : Mcaster) : RingMsg → McasterOutcome
  | .phase1 msg => mcasterHandlePhase1Msg cfg s msg
  | .phase1Range msg => mcasterHandlePhase1RangeMsg cfg s msg
  | .phase2 msg => mcasterHandlePhase2Msg cfg s msg

end FdsPaxos.RingMulticaster
