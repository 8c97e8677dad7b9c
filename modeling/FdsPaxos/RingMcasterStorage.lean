import FdsPaxos.CircularWindow
import FdsPaxos.RingConfig
import FdsPaxos.RingMessages
import FdsPaxos.TransitionRuns

set_option autoImplicit false

/-! The instances of the multicaster, `mcaster_storage.c`, and its queue of client values. -/

namespace FdsPaxos.RingMcasterStorage
open TransitionRuns CircularWindow RingConfig RingMessages

inductive McasterInstanceStatus where
  | empty
  | ready
  | p1Pending
  | p1Done
  | p2Pending
  | done
deriving DecidableEq

structure McasterInstanceRecord where
  instNumber : ℕ
  status : McasterInstanceStatus
  ballot : Ballot
  assignedCmdKey : CommandId
  assignedCmdValue : Option Value
  timeout : Timeval
  repeatCmdmapTimeout : Timeval
deriving DecidableEq

inductive McasterFault where
  | recycledNotDone
  | overwritten
  | alreadyAssigned
  | openNotReady
  | openNotPending
  | ballotZero
  | rangeClosed
  | rangeNotPending
  | keyDiffers
deriving DecidableEq

/-- A record that was given to another instance, and `highestClosedIid` at that time. -/
structure Replaced where
  mir : McasterInstanceRecord
  closed : ℕ
deriving DecidableEq

/-- The process; `toSuccessor` and `mcast` hold all that it has sent, and `replaced` the
records that were given to other instances, latest first. -/
structure Mcaster where
  mcasterClock : Timeval
  p1ReadyCount : UInt32
  p1PendingCount : UInt32
  p1HighestOpen : ℕ
  highestClosedIid : ℕ
  highestOpenIid : ℕ
  seqNumber : UInt16
  instancesArray : ℕ → McasterInstanceRecord
  queue : List Value
  toSuccessor : List RingMsg
  mcast : List McastMsg
  replaced : List Replaced

abbrev McasterOutcome := Outcome McasterFault Mcaster

variable (cfg : Config)

def selfAcceptorId : UInt8 := 1

def msmSlot (instNumber : ℕ) : ℕ := instNumber % cfg.msmSize

namespace Mcaster

def withRecord (s : Mcaster) (slot : ℕ) (mir : McasterInstanceRecord) : Mcaster :=
  { s with instancesArray := setSlot s.instancesArray slot mir }

def sendRing (s : Mcaster) (msg : RingMsg) : Mcaster :=
  { s with toSuccessor := msg :: s.toSuccessor }

def sendMcast (s : Mcaster) (msg : McastMsg) : Mcaster :=
  { s with mcast := msg :: s.mcast }

def record (s : Mcaster) (instNumber : ℕ) : McasterInstanceRecord :=
  s.instancesArray (msmSlot cfg instNumber)

end Mcaster

def valuesQueueLength : ℕ := 250

def maxQueueSizeBytes : ℕ := 1024 * 1024 * 1024

def queueSize (queue : List Value) : ℕ := (queue.map List.length).sum

/-- `queue_append` -/
def cvmSaveValue (queue : List Value) (value : Value) : List Value :=
  if queue.length = valuesQueueLength then queue
  else if maxQueueSizeBytes < queueSize queue + value.length then queue
  else queue ++ [value]

/-- `queue_prepend`, which drops the last value of a full queue. -/
def cvmPushBackValue (queue : List Value) (value : Value) : List Value :=
  value :: if queue.length = valuesQueueLength then queue.dropLast else queue

/-- The two deadlines are not cleared. -/
def mcasterStorageClearRecord (mir : McasterInstanceRecord) : McasterInstanceRecord :=
  { mir with
    instNumber := 0
    status := .empty
    ballot := 0
    assignedCmdValue := none
    assignedCmdKey := clearCmdKey }

/-- A slot is taken over from an older instance that is done; a newer one is never given up. -/
def mcasterStorageGet (s : Mcaster) (instNumber : ℕ) : McasterOutcome :=
  let slot := msmSlot cfg instNumber
  let mir := s.record cfg instNumber
  if mir.instNumber = 0 then
    .running (s.withRecord slot { mir with instNumber := instNumber, status := .ready })
  else if mir.instNumber < instNumber then
    if mir.status = .done then
      .running ({ s with replaced := ⟨mir, s.highestClosedIid⟩ :: s.replaced }.withRecord slot
        { mcasterStorageClearRecord mir with instNumber := instNumber, status := .ready })
    else .aborted .recycledNotDone s
  else if instNumber < mir.instNumber then .aborted .overwritten s
  else .running s

/-- The key is made of the multicaster's id, its incarnation and a sequence number. -/
def createValueKey (seqNumber : UInt16) : CommandId × UInt16 :=
  (⟨selfAcceptorId, incarnationNumber, seqNumber⟩,
    if seqNumber + 1 = 0xFFFF then 1 else seqNumber + 1)

def mcasterStorageAssignValue (s : Mcaster) (slot : ℕ) (value : Value) : McasterOutcome :=
  let mir := s.instancesArray slot
  if mir.assignedCmdValue.isSome then .aborted .alreadyAssigned s
  else
    let key := createValueKey s.seqNumber
    .running ({ s with seqNumber := key.2 }.withRecord slot
      { mir with assignedCmdKey := key.1, assignedCmdValue := some value })

def mcasterStorageReplaceAssignedValue (s : Mcaster) (slot : ℕ) (key : CommandId)
    (value : Value) : Mcaster :=
  let mir := s.instancesArray slot
  match mir.assignedCmdValue with
  | none => s
  | some own =>
    if own = value then s.withRecord slot { mir with assignedCmdKey := key }
    else
      { s with queue := cvmPushBackValue s.queue own }.withRecord slot
        { mir with assignedCmdKey := key, assignedCmdValue := some value }

end FdsPaxos.RingMcasterStorage
