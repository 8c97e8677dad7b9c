import FdsPaxos.Paxos2SendBuffer
import FdsPaxos.TransitionRuns

set_option autoImplicit false

/-! The learner of `learner.c`. -/

namespace FdsPaxos.Paxos2Learner
open TransitionRuns CircularWindow Paxos2Config Paxos2Messages Paxos2SendBuffer

structure LInstInfo where
  iid : ℕ
  lastUpdateBallot : ℕ
  acks : ℕ → Option AcceptAck
  finalValue : Option AcceptAck

structure LearnerState where
  highestIidSeen : ℕ
  currentIid : ℕ
  highestIidClosed : ℕ
  learnerState : ℕ → LInstInfo
  toAcceptors : SendBuf ℕ

/-- Arguments of one call of `delfun`; `source` is the slot as it stands at the call. -/
structure Delivery where
  value : Value
  iid : ℕ
  ballot : ℕ
  proposerId : ℕ
  source : LInstInfo

/-- The two assertions of the learner, and a delivery loop that does not come to rest. -/
inductive LearnerFault where
  | updateSlotIid
  | deliverSlotIid
  | loopFuel
deriving DecidableEq

def instInfoEmpty : ℕ := 0

def clearedInstanceInfo : LInstInfo where
  iid := instInfoEmpty
  lastUpdateBallot := 0
  acks := fun _ => none
  finalValue := none

def learnerInit : LearnerState where
  highestIidSeen := 1
  currentIid := 1
  highestIidClosed := 0
  learnerState := fun _ => clearedInstanceInfo
  toAcceptors := sendbufNew

def LInstInfo.IsClosed (ii : LInstInfo) : Prop := ii.finalValue.isSome = true

instance (ii : LInstInfo) : Decidable ii.IsClosed :=
  inferInstanceAs (Decidable (ii.finalValue.isSome = true))

variable (cfg : Config)

def learnerIsClosed (ls : LearnerState) (iid : ℕ) : Prop :=
  iid = (ls.learnerState (cfg.leaIndex iid)).iid ∧ (ls.learnerState (cfg.leaIndex iid)).IsClosed

instance (ls : LearnerState) (iid : ℕ) : Decidable (learnerIsClosed cfg ls iid) :=
  inferInstanceAs (Decidable (_ ∧ _))

def leaStoreAcceptAck (ii : LInstInfo) (acceptorId : ℕ) (aa : AcceptAck) : LInstInfo :=
  { ii with
    acks := setSlot ii.acks acceptorId (some aa)
    lastUpdateBallot := aa.ballot }

def leaFirstMessage (ii : LInstInfo) (aa : AcceptAck) : LInstInfo :=
  if ii.iid = instInfoEmpty then { ii with iid := aa.iid, lastUpdateBallot := aa.ballot } else ii

/-- The result is whether the message was relevant. -/
def leaUpdateState (ii : LInstInfo) (acceptorId : ℕ) (aa : AcceptAck) :
    Outcome LearnerFault (LInstInfo × Bool) :=
  let ii := leaFirstMessage ii aa
  if ii.iid = aa.iid then
    if ii.IsClosed then .running (ii, false)
    else
      match ii.acks acceptorId with
      | none => .running (leaStoreAcceptAck ii acceptorId aa, true)
      | some prevAck =>
        if aa.ballot ≤ prevAck.ballot then .running (ii, false)
        else .running (leaStoreAcceptAck ii acceptorId aa, true)
  else .aborted .updateSlotIid (ii, false)

/-- The counting loop of `lea_check_quorum`: the last agreeing index and the count. -/
def leaScanAcks (ii : LInstInfo) : List ℕ → Option ℕ → ℕ → Option ℕ × ℕ
  | [], aValidIndex, count => (aValidIndex, count)
  | i :: rest, aValidIndex, count =>
    match ii.acks i with
    | none => leaScanAcks ii rest aValidIndex count
    | some currAck =>
      if currAck.ballot = ii.lastUpdateBallot then
        if currAck.isFinal then (some i, count + 1 + cfg.nOfAcceptors)
        else leaScanAcks ii rest (some i) (count + 1)
      else leaScanAcks ii rest aValidIndex count

def leaCheckQuorum (ls : LearnerState) (slot : ℕ) : LearnerState × Bool :=
  let ii := ls.learnerState slot
  let scan := leaScanAcks cfg ii (List.range cfg.nOfAcceptors) none 0
  if cfg.quorum ≤ scan.2 then
    ({ ls with
        learnerState := setSlot ls.learnerState slot
          { ii with finalValue := scan.1.bind ii.acks }
        highestIidClosed := if ls.highestIidClosed < ii.iid then ii.iid else ls.highestIidClosed },
      true)
  else (ls, false)

def deliveryOf (ls : LearnerState) (ii : LInstInfo) (aa : AcceptAck) : Delivery where
  value := aa.value
  iid := ls.currentIid
  ballot := aa.ballot
  proposerId := aa.ballot % cfg.maxNOfProposers
  source := ii

def leaMoveToNext (ls : LearnerState) : LearnerState :=
  { ls with
    currentIid := ls.currentIid + 1
    learnerState :=
      setSlot ls.learnerState (cfg.leaIndex ls.currentIid) clearedInstanceInfo }

/-- The calls of `delfun` are returned in order: none of them touches the learner. -/
def leaDeliverNextClosed : ℕ → LearnerState → Outcome LearnerFault (LearnerState × List Delivery)
  | 0, ls => .aborted .loopFuel (ls, [])
  | fuel + 1, ls =>
    let ii := ls.learnerState (cfg.leaIndex ls.currentIid)
    match ii.finalValue with
    | none => .running (ls, [])
    | some aa =>
      if ii.iid = ls.currentIid then
        (leaDeliverNextClosed fuel (leaMoveToNext cfg ls)).map
          fun r => (r.1, deliveryOf cfg ls ii aa :: r.2)
      else .aborted .deliverSlotIid (ls, [])

/-- A window of closed instances is at most the array, so this many tests of the
loop condition suffice. -/
def deliverFuel : ℕ := cfg.learnerArraySize + 1

def LearnerState.withSlot (ls : LearnerState) (slot : ℕ) (ii : LInstInfo) : LearnerState :=
  { ls with learnerState := setSlot ls.learnerState slot ii }

def leaSeen (ls : LearnerState) (aa : AcceptAck) : LearnerState :=
  { ls with
    highestIidSeen := if ls.highestIidSeen < aa.iid then aa.iid else ls.highestIidSeen }

def handleAcceptAck (ls : LearnerState) (acceptorId : ℕ) (aa : AcceptAck) :
    Outcome LearnerFault (LearnerState × List Delivery) :=
  let ls := leaSeen ls aa
  if aa.iid < ls.currentIid then .running (ls, [])
  else if ls.currentIid + cfg.learnerArraySize ≤ aa.iid then .running (ls, [])
  else
    let slot := cfg.leaIndex aa.iid
    match leaUpdateState (ls.learnerState slot) acceptorId aa with
    | .aborted fault r => .aborted fault (ls.withSlot slot r.1, [])
    | .running (ii, relevant) =>
      if relevant then
        match leaCheckQuorum cfg (ls.withSlot slot ii) slot with
        | (ls, false) => .running (ls, [])
        | (ls, true) =>
          if aa.iid = ls.currentIid then leaDeliverNextClosed cfg (deliverFuel cfg) ls
          else .running (ls, [])
      else .running (ls.withSlot slot ii, [])

abbrev LearnerRun := Outcome LearnerFault (LearnerState × List Delivery)

def learnerStart : LearnerRun := .running (learnerInit, [])

def learnerStep (lr : LearnerRun) (msg : ℕ × AcceptAck) : LearnerRun :=
  lr.bind fun r => (handleAcceptAck cfg r.1 msg.1 msg.2).map fun r' => (r'.1, r.2 ++ r'.2)

def handleAcceptAckBatch (ls : LearnerState) (acceptorId : ℕ) (acks : List AcceptAck) :
    Outcome LearnerFault (LearnerState × List Delivery) :=
  run (learnerStep cfg) (.running (ls, [])) (acks.map fun aa => (acceptorId, aa))

/-- Loop body of `lea_send_repeat_request`. -/
def leaRequestRepeat (ls : LearnerState) (iid : ℕ) : LearnerState :=
  if (ls.learnerState (cfg.leaIndex iid)).IsClosed then ls
  else { ls with toAcceptors := sendbufAddRepeatReq cfg ls.toAcceptors iid }

def leaSendRepeatRequest (ls : LearnerState) (first last : ℕ) : LearnerState :=
  let ls := { ls with toAcceptors := sendbufClear ls.toAcceptors }
  let ls := run (leaRequestRepeat cfg) ls (List.range' first (last - first))
  { ls with toAcceptors := sendbufFlush ls.toAcceptors }

def leaHoleCheck (ls : LearnerState) : LearnerState :=
  if ls.currentIid + cfg.learnerArraySize < ls.highestIidSeen then
    leaSendRepeatRequest cfg ls ls.currentIid ls.highestIidSeen
  else if ls.currentIid < ls.highestIidClosed then
    leaSendRepeatRequest cfg ls ls.currentIid ls.highestIidClosed
  else ls

end FdsPaxos.Paxos2Learner
