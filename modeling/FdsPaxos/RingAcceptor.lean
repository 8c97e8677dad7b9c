import FdsPaxos.RingStableStorage

set_option autoImplicit false

/-! The handlers of an acceptor that is not the multicaster, from `acceptor_helpers.c`. -/

namespace FdsPaxos.RingAcceptor
open TransitionRuns CircularWindow RingConfig RingMessages RingStableStorage

variable (cfg : Config)

/-- `strncmp` stops at a zero byte. -/
def strncmpEqual (a b : Value) (n : ℕ) : Prop :=
  (a.take n).takeWhile (· ≠ 0) = (b.take n).takeWhile (· ≠ 0)

instance (a b : Value) (n : ℕ) : Decidable (strncmpEqual a b n) :=
  inferInstanceAs (Decidable (_ = _))

/-- The fields of a forwarded `phase1_msg` that are left as they were on the stack:
`memcpy` copies as many bytes as a pointer has, which is the instance number. -/
structure Phase1Stack where
  ballot : Ballot
  promisesCount : UInt32
  highestPromisedBallot : Ballot

def forwardAccepted (msg : Phase1Msg) (ir : InstanceRecord) (stack : Phase1Stack) : Phase1Msg where
  instNumber := msg.instNumber
  ballot := stack.ballot
  promisesCount := stack.promisesCount
  highestAcceptedBallot := ir.acceptBallot
  highestPromisedBallot := stack.highestPromisedBallot
  cmdKey := ir.acceptedCmdKey
  cmdValue := ir.acceptedCmd.getD []

def seeInstance (s : RingAcceptor) (instNumber : ℕ) : RingAcceptor :=
  { s with highestInstanceSeen := max s.highestInstanceSeen instNumber }

/-- A refused request is forwarded too. -/
def acceptorHandlePhase1Msg (s : RingAcceptor) (msg : Phase1Msg) (stack : Phase1Stack) :
    AcceptorOutcome :=
  (ssmGetRecord cfg s msg.instNumber).bind fun s =>
    let ir := s.record cfg msg.instNumber
    if msg.ballot < ir.ballot then
      let promised :=
        if msg.highestPromisedBallot < ir.ballot then ir.ballot else msg.highestPromisedBallot
      .running (s.send (.phase1 { msg with highestPromisedBallot := promised }))
    else
      let ir := { ir with ballot := msg.ballot }
      let s := (seeInstance s msg.instNumber).withRecord (ssmSlot cfg msg.instNumber) ir
      let s := s.does (.promised msg.instNumber msg.ballot)
      let msg := { msg with promisesCount := msg.promisesCount + 1 }
      if ir.acceptBallot ≤ msg.highestAcceptedBallot then .running (s.send (.phase1 msg))
      else .running (s.send (.phase1 (forwardAccepted msg ir stack)))

/-- Loop body for a range of instances none of which was seen before. -/
def acceptorPromise (ballot : Ballot) (s : RingAcceptor) (i : ℕ) : AcceptorOutcome :=
  (ssmGetRecord cfg s i).bind fun s =>
    let ir := s.record cfg i
    if ir.ballot = 0 then
      .running ((s.withRecord (ssmSlot cfg i) { ir with ballot := ballot }).does
        (.promised i ballot))
    else .aborted .rangeBallot s

def instanceRange (msg : Phase1RangeMsg) : List ℕ :=
  List.range' msg.fromIid (msg.toIid + 1 - msg.fromIid)

/-- A range with instances seen before is handled one instance at a time. -/
def acceptorHandlePhase1RangeMsg (s : RingAcceptor) (msg : Phase1RangeMsg)
    (stack : ℕ → Phase1Stack) : AcceptorOutcome :=
  if s.highestInstanceSeen < msg.fromIid then
    (Outcome.fold (acceptorPromise cfg msg.ballot) { s with highestInstanceSeen := msg.toIid }
      (instanceRange msg)).bind fun s =>
        .running (s.send (.phase1Range { msg with promisesCount := msg.promisesCount + 1 }))
  else
    Outcome.fold (fun s i =>
      acceptorHandlePhase1Msg cfg s
        { instNumber := i
          ballot := msg.ballot
          promisesCount := msg.promisesCount
          highestAcceptedBallot := 0
          highestPromisedBallot := 0
          cmdKey := clearCmdKey
          cmdValue := [] } (stack i)) s (instanceRange msg)

/-- `free(ir->proposed_cmd)` -/
def freeProposed (s : RingAcceptor) (ir : InstanceRecord) (next : AcceptorOutcome) :
    AcceptorOutcome :=
  match ir.proposedCmd with
  | .null | .allocated _ => next
  | .inSlot _ | .freed => .aborted .invalidFree s

/-- Section `acceptor_p2_store_and_send`. -/
def acceptorP2StoreAndSend (s : RingAcceptor) (msg : Phase2Msg) (ir : InstanceRecord) :
    AcceptorOutcome :=
  let s := s.withRecord (ssmSlot cfg msg.instNumber)
    { ir with ballot := msg.ballot, acceptBallot := msg.ballot }
  let s := s.does (.accepted msg.instNumber msg.ballot msg.cmdKey ir.acceptedCmd)
  .running (s.send (.phase2 { msg with acceptsCount := msg.acceptsCount + 1 }))

def clearProposed (ir : InstanceRecord) : InstanceRecord :=
  { ir with proposedCmdKey := clearCmdKey, proposedCmd := .null }

/-- The body of `acceptor_handle_phase2_msg` for the record of the instance.  When a
proposed command replaces an accepted one, its pointer is freed and kept. -/
def acceptorAccept (s : RingAcceptor) (msg : Phase2Msg) (ir : InstanceRecord) : AcceptorOutcome :=
  let isProposedCmd := msg.cmdKey = ir.proposedCmdKey
  let isAcceptedCmd := msg.cmdKey = ir.acceptedCmdKey
  if isProposedCmd ∧ isAcceptedCmd then .aborted .proposedAndAccepted s
  else if ¬ isAcceptedCmd ∧ ¬ isProposedCmd then .running s
  else
    let s := seeInstance s msg.instNumber
    if isAcceptedCmd then
      match ir.proposedCmd with
      | .null => acceptorP2StoreAndSend cfg s msg ir
      | .inSlot _ => .aborted .proposedInSlot s
      | .allocated _ | .freed =>
        freeProposed s ir (acceptorP2StoreAndSend cfg s msg (clearProposed ir))
    else
      match ir.acceptedCmd, ir.proposedCmd with
      | none, .inSlot cmd =>
        acceptorP2StoreAndSend cfg s msg
          { clearProposed ir with acceptedCmdKey := ir.proposedCmdKey, acceptedCmd := some cmd }
      | none, .null | none, .allocated _ | none, .freed => .aborted .proposedNotInSlot s
      | some _, .null | some _, .inSlot _ => .aborted .replaceAccepted s
      | some _, .allocated _ | some _, .freed =>
        freeProposed s ir (acceptorP2StoreAndSend cfg s msg
          { ir with
            acceptedCmdKey := ir.proposedCmdKey
            acceptedCmd := some ir.proposedCmd.cmd
            proposedCmdKey := clearCmdKey
            proposedCmd := .freed })

def acceptorHandlePhase2Msg (s : RingAcceptor) (msg : Phase2Msg) : AcceptorOutcome :=
  (ssmGetRecord cfg s msg.instNumber).bind fun s =>
    let ir := s.record cfg msg.instNumber
    if msg.ballot < ir.ballot then .running s else acceptorAccept cfg s msg ir

def sameCommand (cmd value : Value) : Prop :=
  cmd.length = value.length ∧ strncmpEqual cmd value value.length

instance (cmd value : Value) : Decidable (sameCommand cmd value) :=
  inferInstanceAs (Decidable (_ ∧ _))

theorem sameCommand_refl (cmd : Value) : sameCommand cmd cmd :=
  ⟨rfl, rfl⟩

/-- The mapping of a command that was accepted is dropped, with any other one. -/
def knownAccepted (s : RingAcceptor) (msg : CmdmapMsg) (ir : InstanceRecord) (cmd : Value) :
    AcceptorOutcome :=
  if ¬ sameCommand cmd msg.cmdValue then .aborted .acceptedDiffers s
  else
    match ir.proposedCmd with
    | .null => .running s
    | .inSlot _ => .aborted .proposedIsAccepted s
    | .allocated _ | .freed =>
      freeProposed s ir
        (.running (s.withRecord (ssmSlot cfg msg.instNumber) (clearProposed ir)))

/-- Another mapping is kept in memory of its own once a command was accepted. -/
def saveSecondary (s : RingAcceptor) (msg : CmdmapMsg) (ir : InstanceRecord) : RingAcceptor :=
  s.withRecord (ssmSlot cfg msg.instNumber)
    { ir with proposedCmdKey := msg.cmdKey, proposedCmd := .allocated msg.cmdValue }

def saveInSlot (s : RingAcceptor) (msg : CmdmapMsg) (ir : InstanceRecord) : RingAcceptor :=
  s.withRecord (ssmSlot cfg msg.instNumber)
    { ir with proposedCmdKey := msg.cmdKey, proposedCmd := .inSlot msg.cmdValue }

/-- The body of `acceptor_handle_cmdmap_msg` for the record of the instance. -/
def acceptorSaveMap (s : RingAcceptor) (msg : CmdmapMsg) (ir : InstanceRecord) : AcceptorOutcome :=
  if ir.acceptedCmd.isSome ∧ msg.cmdKey = ir.acceptedCmdKey then
    knownAccepted cfg s msg ir (ir.acceptedCmd.getD [])
  else if ir.proposedCmd ≠ .null ∧ msg.cmdKey = ir.proposedCmdKey then
    if sameCommand ir.proposedCmd.cmd msg.cmdValue then .running s
    else .aborted .proposedDiffers s
  else if ir.acceptedCmd = none then .running (saveInSlot cfg s msg ir)
  else if ir.proposedCmd = .null then .running (saveSecondary cfg s msg ir)
  else if sameCommand ir.proposedCmd.cmd msg.cmdValue then .aborted .proposedSame s
  else freeProposed s ir (.running (saveSecondary cfg s msg ir))

def acceptorHandleCmdmapMsg (s : RingAcceptor) (msg : CmdmapMsg) : AcceptorOutcome :=
  (ssmGetRecord cfg s msg.instNumber).bind fun s =>
    acceptorSaveMap cfg s msg (s.record cfg msg.instNumber)

def regularAcceptorInit (acceptorId : ℕ) : RingAcceptor where
  acceptorId := acceptorId
  highestInstanceSeen := 0
  instancesArray := fun _ => clearInstanceRecord
  toSuccessor := []
  history := []

/-- `on_predecessor_msg` of a process that is not the multicaster. -/
def onPredecessorMsg (s : RingAcceptor) (stack : ℕ → Phase1Stack) : RingMsg → AcceptorOutcome
  | .phase1 msg => acceptorHandlePhase1Msg cfg s msg (stack msg.instNumber)
  | .phase1Range msg => acceptorHandlePhase1RangeMsg cfg s msg stack
  | .phase2 msg => acceptorHandlePhase2Msg cfg s msg

/-- Only the first acceptor of the ring handles phase 2 as it is multicast. -/
def onMulticastMsg (s : RingAcceptor) : McastMsg → AcceptorOutcome
  | .commandMap msg => acceptorHandleCmdmapMsg cfg s msg
  | .acceptance _ => .running s
  | .phase2 msg => if s.acceptorId = 2 then acceptorHandlePhase2Msg cfg s msg else .running s

end FdsPaxos.RingAcceptor
