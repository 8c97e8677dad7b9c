import FdsPaxos.CircularWindow
import FdsPaxos.RingConfig
import FdsPaxos.RingMessages
import FdsPaxos.TransitionRuns

set_option autoImplicit false

/-! A learner: the queue of `delivery_queue.c` with the callbacks of `ringpaxos_learner.c`. -/

namespace FdsPaxos.RingDeliveryQueue
open TransitionRuns CircularWindow RingConfig RingMessages

structure DqEntry where
  instNumber : ℕ
  cmdKey : CommandId
  hasMapping : Bool
  hasFinalValue : Bool
  cmdmapRequestTimeout : Timeval
  finvalRequestTimeout : Timeval
deriving DecidableEq

inductive QueueFault where
  | entryOutOfRange
  | entryTaken
  | mappingDiffers
  | keyDiffers
deriving DecidableEq

/-- The learner; `delivered` lists the commands given to the client, first to last, and
`requests` all that was asked of the multicaster. -/
structure Learner where
  highestDelivered : ℕ
  highestSeenClosed : ℕ
  highestSeenCmdmap : ℕ
  queueArray : ℕ → DqEntry
  cmdSlotArray : ℕ → Value
  lateStart : Bool
  missingCmdRequest : List ℕ
  missingAccRequest : List ℕ
  delivered : List Value
  requests : List Request

abbrev LearnerOutcome := Outcome QueueFault Learner

def dqClearEntry : DqEntry where
  instNumber := 0
  cmdKey := clearCmdKey
  hasMapping := false
  hasFinalValue := false
  cmdmapRequestTimeout := ⟨0, 0⟩
  finvalRequestTimeout := ⟨0, 0⟩

def repeatRequestMaxEntries : ℕ := (9000 - 16 - 4 - 8) / 8 - 1

def requestTimeout : Timeval := ⟨0, 10000⟩

variable (queueSize : ℕ)

def dqSlot (instNumber : ℕ) : ℕ := instNumber % queueSize

namespace Learner

def withEntry (q : Learner) (slot : ℕ) (e : DqEntry) : Learner :=
  { q with queueArray := setSlot q.queueArray slot e }

def withCommand (q : Learner) (slot : ℕ) (value : Value) : Learner :=
  { q with cmdSlotArray := setSlot q.cmdSlotArray slot value }

def entry (q : Learner) (instNumber : ℕ) : DqEntry :=
  q.queueArray (dqSlot queueSize instNumber)

def command (q : Learner) (instNumber : ℕ) : Value :=
  q.cmdSlotArray (dqSlot queueSize instNumber)

end Learner

def dqGetEntry (q : Learner) (instNumber : ℕ) : LearnerOutcome :=
  let e := q.entry queueSize instNumber
  if instNumber = 0 ∨ q.highestDelivered + queueSize < instNumber then
    .aborted .entryOutOfRange q
  else if e.instNumber = instNumber ∨ e.instNumber = 0 then
    .running (q.withEntry (dqSlot queueSize instNumber) { e with instNumber := instNumber })
  else .aborted .entryTaken q

def Deliverable (e : DqEntry) : Prop :=
  e.hasMapping = true ∧ e.hasFinalValue = true

instance (e : DqEntry) : Decidable (Deliverable e) :=
  inferInstanceAs (Decidable (_ ∧ _))

def dqDeliver (q : Learner) : Learner :=
  let slot := dqSlot queueSize (q.highestDelivered + 1)
  { q.withEntry slot dqClearEntry with
    highestDelivered := q.highestDelivered + 1
    delivered := q.delivered ++ [q.cmdSlotArray slot] }

/-- The loop of `dq_deliver_loop`, from the entry got last.  Each turn clears an entry, so
there are at most as many turns as entries. -/
def dqDeliverFrom : ℕ → Learner → LearnerOutcome
  | 0, q => .running q
  | turns + 1, q =>
    if Deliverable (q.entry queueSize (q.highestDelivered + 1)) then
      let q := dqDeliver queueSize q
      (dqGetEntry queueSize q (q.highestDelivered + 1)).bind (dqDeliverFrom turns)
    else .running q

def dqDeliverLoop (q : Learner) : LearnerOutcome :=
  (dqGetEntry queueSize q (q.highestDelivered + 1)).bind (dqDeliverFrom queueSize (queueSize + 1))

/-- A learner that starts late takes the first instance it hears of as its first one. -/
def dqStartAt (q : Learner) (instNumber : ℕ) : Learner :=
  if q.lateStart then { q with highestDelivered := instNumber - 1, lateStart := false } else q

def dqIgnores (q : Learner) (instNumber : ℕ) : Prop :=
  q.highestDelivered + queueSize ≤ instNumber ∨ instNumber ≤ q.highestDelivered

instance (q : Learner) (instNumber : ℕ) : Decidable (dqIgnores queueSize q instNumber) :=
  inferInstanceAs (Decidable (_ ∨ _))

def dqSaveMapping (q : Learner) (slot : ℕ) (e : DqEntry) (msg : CmdmapMsg) : Learner :=
  (q.withEntry slot { e with cmdKey := msg.cmdKey, hasMapping := true }).withCommand slot
    msg.cmdValue

/-- A mapping for an instance of the queue. -/
def dqMap (q : Learner) (msg : CmdmapMsg) : LearnerOutcome :=
  let slot := dqSlot queueSize msg.instNumber
  let e := q.entry queueSize msg.instNumber
  if Deliverable e then .running q
  else if e.hasMapping then
    if msg.cmdKey = e.cmdKey then
      if q.cmdSlotArray slot = msg.cmdValue then .running q else .aborted .mappingDiffers q
    else .running (dqSaveMapping q slot e msg)
  else if e.hasFinalValue then
    if msg.cmdKey = e.cmdKey then dqDeliverLoop queueSize (dqSaveMapping q slot e msg) else .running q
  else .running (dqSaveMapping q slot e msg)

def deliveryQueueHandleCommandMap (q : Learner) (msg : CmdmapMsg) : LearnerOutcome :=
  let q := dqStartAt q msg.instNumber
  if dqIgnores queueSize q msg.instNumber then .running q
  else
    let q := { q with highestSeenCmdmap := max q.highestSeenCmdmap msg.instNumber }
    (dqGetEntry queueSize q msg.instNumber).bind fun q => dqMap queueSize q msg

/-- The chosen key of an instance of the queue.  When another mapping is stored the key is
kept, but not that it was chosen. -/
def dqAccept (q : Learner) (msg : AcceptanceMsg) : LearnerOutcome :=
  let slot := dqSlot queueSize msg.instNumber
  let e := q.entry queueSize msg.instNumber
  if Deliverable e then
    if e.cmdKey = msg.cmdKey then .running q else .aborted .keyDiffers q
  else if e.hasMapping then
    if e.cmdKey = msg.cmdKey then
      dqDeliverLoop queueSize (q.withEntry slot { e with hasFinalValue := true })
    else .running (q.withEntry slot { e with hasMapping := false, cmdKey := msg.cmdKey })
  else if e.hasFinalValue then
    if e.cmdKey = msg.cmdKey then .running q else .aborted .keyDiffers q
  else .running (q.withEntry slot { e with cmdKey := msg.cmdKey, hasFinalValue := true })

def deliveryQueueHandleAcceptance (q : Learner) (msg : AcceptanceMsg) : LearnerOutcome :=
  let q := dqStartAt q msg.instNumber
  let q := { q with highestSeenClosed := max q.highestSeenClosed msg.instNumber }
  if dqIgnores queueSize q msg.instNumber then .running q
  else (dqGetEntry queueSize q msg.instNumber).bind fun q => dqAccept queueSize q msg

def sendMapRequest (q : Learner) : Learner :=
  { q with
    requests := .mapRequest q.missingCmdRequest :: q.requests
    missingCmdRequest := [] }

def sendChosenvalRequest (q : Learner) : Learner :=
  { q with
    requests := .chosenvalRequest q.missingAccRequest :: q.requests
    missingAccRequest := [] }

def onMissingCmdmap (q : Learner) (instNumber : ℕ) : Learner :=
  let q := { q with missingCmdRequest := q.missingCmdRequest ++ [instNumber] }
  if repeatRequestMaxEntries ≤ q.missingCmdRequest.length then sendMapRequest q else q

def onMissingAcceptance (q : Learner) (instNumber : ℕ) : Learner :=
  let q := { q with missingAccRequest := q.missingAccRequest ++ [instNumber] }
  if repeatRequestMaxEntries ≤ q.missingAccRequest.length then sendChosenvalRequest q else q

def postDeliveryCheck (q : Learner) : Learner :=
  let q := if q.missingCmdRequest = [] then q else sendMapRequest q
  if q.missingAccRequest = [] then q else sendChosenvalRequest q

def dqRequestMap (timeNow : Timeval) (q : Learner) (i : ℕ) : Learner :=
  let e := q.entry queueSize i
  if e.hasMapping = false ∧
      (e.cmdmapRequestTimeout = ⟨0, 0⟩ ∨ timerIsExpired e.cmdmapRequestTimeout timeNow) then
    (onMissingCmdmap q i).withEntry (dqSlot queueSize i)
      { e with cmdmapRequestTimeout := timerSetTimeout timeNow requestTimeout }
  else q

/-- The deadline is tested for being set where the one for mappings is tested for not
being set. -/
def dqRequestAcceptance (timeNow : Timeval) (q : Learner) (i : ℕ) : Learner :=
  let e := q.entry queueSize i
  if i < q.highestSeenClosed ∧
      (e.finvalRequestTimeout.tvSec ≠ 0 ∧ e.finvalRequestTimeout.tvUsec ≠ 0 ∨
        timerIsExpired e.finvalRequestTimeout timeNow) then
    (onMissingAcceptance q i).withEntry (dqSlot queueSize i)
      { e with finvalRequestTimeout := timerSetTimeout timeNow requestTimeout }
  else q

/-- Loop body of `dq_periodic_check`. -/
def dqCheckGap (timeNow : Timeval) (q : Learner) (i : ℕ) : LearnerOutcome :=
  (dqGetEntry queueSize q i).bind fun q =>
    if Deliverable (q.entry queueSize i) then .running q
    else .running (dqRequestAcceptance queueSize timeNow (dqRequestMap queueSize timeNow q i) i)

def dqPeriodicCheck (timeNow : Timeval) (q : Learner) : LearnerOutcome :=
  let upperLimit := max q.highestSeenClosed q.highestSeenCmdmap
  let last := min upperLimit (q.highestDelivered + queueSize - 1)
  (Outcome.fold (dqCheckGap queueSize timeNow) q
    (List.range' (q.highestDelivered + 1) (last - q.highestDelivered))).bind fun q =>
      .running (postDeliveryCheck q)

def learnerInit (lateStart : Bool) : Learner where
  highestDelivered := 0
  highestSeenClosed := 0
  highestSeenCmdmap := 0
  queueArray := fun _ => dqClearEntry
  cmdSlotArray := fun _ => []
  lateStart := lateStart
  missingCmdRequest := []
  missingAccRequest := []
  delivered := []
  requests := []

def onMcastMsg (q : Learner) : McastMsg → LearnerOutcome
  | .commandMap msg => deliveryQueueHandleCommandMap queueSize q msg
  | .acceptance msg => deliveryQueueHandleAcceptance queueSize q msg
  | .phase2 _ => .running q

end FdsPaxos.RingDeliveryQueue
