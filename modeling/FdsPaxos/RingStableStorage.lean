import FdsPaxos.CircularWindow
import FdsPaxos.RingConfig
import FdsPaxos.RingMessages
import FdsPaxos.TransitionRuns

set_option autoImplicit false

/-! The storage of a ring acceptor, `stable_storage_1.c`, which keeps everything in memory. -/

namespace FdsPaxos.RingStableStorage
open TransitionRuns CircularWindow RingConfig RingMessages

/-- Where `proposed_cmd` points: nowhere, to the slot of the instance, to memory of its own,
or to memory that was freed. -/
inductive ProposedCmd where
  | null
  | inSlot (cmd : Value)
  | allocated (cmd : Value)
  | freed
deriving DecidableEq

/-- The stored size goes with the command, and is 0 after a free. -/
def ProposedCmd.cmd : ProposedCmd → Value
  | null | freed => []
  | inSlot cmd | allocated cmd => cmd

/-- `accepted_cmd` points to the slot of the instance, when it is set. -/
structure InstanceRecord where
  instNumber : ℕ
  ballot : Ballot
  acceptBallot : Ballot
  acceptedCmdKey : CommandId
  acceptedCmd : Option Value
  proposedCmdKey : CommandId
  proposedCmd : ProposedCmd
deriving DecidableEq

/-- An acceptor stops at an assertion, or when it frees what it did not allocate. -/
inductive AcceptorFault where
  | archivedRecord
  | rangeBallot
  | proposedAndAccepted
  | proposedInSlot
  | proposedNotInSlot
  | replaceAccepted
  | acceptedDiffers
  | proposedIsAccepted
  | proposedDiffers
  | proposedSame
  | invalidFree
deriving DecidableEq

/-- What an acceptor does to its records: it promises a ballot, it accepts a command, or it
gives the record of an instance to another one. -/
inductive Deed where
  | promised (instNumber : ℕ) (ballot : Ballot)
  | accepted (instNumber : ℕ) (ballot : Ballot) (cmdKey : CommandId) (cmd : Option Value)
  | overwrote (instNumber : ℕ)
deriving DecidableEq

/-- `toSuccessor` holds all that was sent, and `history` all that was done, latest first. -/
structure RingAcceptor where
  acceptorId : ℕ
  highestInstanceSeen : ℕ
  instancesArray : ℕ → InstanceRecord
  toSuccessor : List RingMsg
  history : List Deed

abbrev AcceptorOutcome := Outcome AcceptorFault RingAcceptor

def clearInstanceRecord : InstanceRecord where
  instNumber := 0
  ballot := 0
  acceptBallot := 0
  acceptedCmdKey := clearCmdKey
  acceptedCmd := none
  proposedCmdKey := clearCmdKey
  proposedCmd := .null

variable (cfg : Config)

def ssmSlot (instNumber : ℕ) : ℕ := instNumber % cfg.ssmSize

namespace RingAcceptor

def withRecord (s : RingAcceptor) (slot : ℕ) (ir : InstanceRecord) : RingAcceptor :=
  { s with instancesArray := setSlot s.instancesArray slot ir }

def send (s : RingAcceptor) (msg : RingMsg) : RingAcceptor :=
  { s with toSuccessor := msg :: s.toSuccessor }

def does (s : RingAcceptor) (deed : Deed) : RingAcceptor :=
  { s with history := deed :: s.history }

def record (s : RingAcceptor) (instNumber : ℕ) : InstanceRecord :=
  s.instancesArray (ssmSlot cfg instNumber)

end RingAcceptor

/-- The slot is made ready for the instance.  There is no archive: asking for an instance
whose slot was taken by a later one stops the process. -/
def ssmGetRecord (s : RingAcceptor) (instNumber : ℕ) : AcceptorOutcome :=
  let slot := ssmSlot cfg instNumber
  let ir := s.record cfg instNumber
  if ir.instNumber = 0 then
    .running (s.withRecord slot { ir with instNumber := instNumber })
  else if ir.instNumber < instNumber then
    .running ((s.does (.overwrote ir.instNumber)).withRecord slot
      { clearInstanceRecord with instNumber := instNumber })
  else if instNumber < ir.instNumber then .aborted .archivedRecord s
  else .running s

variable {cfg} {s t : RingAcceptor} {i : ℕ}

@[simp] theorem withRecord_acceptorId (slot : ℕ) (ir : InstanceRecord) :
    (s.withRecord slot ir).acceptorId = s.acceptorId := rfl

@[simp] theorem withRecord_toSuccessor (slot : ℕ) (ir : InstanceRecord) :
    (s.withRecord slot ir).toSuccessor = s.toSuccessor := rfl

/-- The record of a later instance of the slot is the one way to miss a record. -/
theorem ssmGetRecord_isRunning : (ssmGetRecord cfg s i).IsRunning ↔
    (s.record cfg i).instNumber ≤ i := by
  unfold ssmGetRecord
  dsimp only
  split_ifs with unused older newer
  · exact iff_of_true trivial (by omega)
  · exact iff_of_true trivial (by omega)
  · exact iff_of_false id (by omega)
  · exact iff_of_true trivial (by omega)

end FdsPaxos.RingStableStorage
