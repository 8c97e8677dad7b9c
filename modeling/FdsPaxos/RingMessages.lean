import Mathlib.Data.Nat.Notation

set_option autoImplicit false

/-!
The messages of `ringpaxos_messages.h`, with the keys and ballots of `util.c`.  Instance
numbers are taken below the 32-bit limit of the loop counters; a value carries its own size.
-/

namespace FdsPaxos.RingMessages

abbrev Value := List UInt8

structure CommandId where
  mcasterId : UInt8
  mcasterIncarnation : UInt8
  cmdSeqnum : UInt16
deriving DecidableEq

def clearCmdKey : CommandId := ⟨0, 0, 0⟩

abbrev Ballot := UInt32

def makeFirstBallot (accId : UInt8) (incarnation : UInt32) : Ballot :=
  ((1 : UInt32) <<< (16 : UInt32)) + (accId.toUInt32 <<< (8 : UInt32)) + incarnation

/-- The sequence number above that of the ballot to beat, as a 16-bit number. -/
def raiseBallot (currentB ballotToBeat : Ballot) : Ballot :=
  let newSeq : UInt16 := ((ballotToBeat >>> (16 : UInt32)) &&& (0xFFFF : UInt32)).toUInt16 + 1
  (currentB &&& (0xFFFF : UInt32)) + (newSeq.toUInt32 <<< (16 : UInt32))

def isMyBallot (b : Ballot) (accId : UInt8) (incarnation : UInt32) : Prop :=
  (b &&& (0xFFFF : UInt32)).toUInt16 = (accId.toUInt16 <<< (8 : UInt16)) + incarnation.toUInt16

instance (b : Ballot) (accId : UInt8) (incarnation : UInt32) :
    Decidable (isMyBallot b accId incarnation) :=
  inferInstanceAs (Decidable (_ = _))

/-- `lpconfig_get_incarnation_number`, which is not implemented. -/
def incarnationNumber : UInt8 := 0

structure Phase1Msg where
  instNumber : ℕ
  ballot : Ballot
  promisesCount : UInt32
  highestAcceptedBallot : Ballot
  highestPromisedBallot : Ballot
  cmdKey : CommandId
  cmdValue : Value
deriving DecidableEq

structure Phase1RangeMsg where
  fromIid : ℕ
  toIid : ℕ
  ballot : Ballot
  promisesCount : UInt32
deriving DecidableEq

structure Phase2Msg where
  instNumber : ℕ
  ballot : Ballot
  acceptsCount : UInt32
  cmdKey : CommandId
deriving DecidableEq

structure CmdmapMsg where
  instNumber : ℕ
  cmdKey : CommandId
  cmdValue : Value
deriving DecidableEq

structure AcceptanceMsg where
  instNumber : ℕ
  cmdKey : CommandId
deriving DecidableEq

inductive RingMsg where
  | phase1 (msg : Phase1Msg)
  | phase1Range (msg : Phase1RangeMsg)
  | phase2 (msg : Phase2Msg)
deriving DecidableEq

inductive McastMsg where
  | commandMap (msg : CmdmapMsg)
  | acceptance (msg : AcceptanceMsg)
  | phase2 (msg : Phase2Msg)
deriving DecidableEq

inductive Request where
  | mapRequest (instNumbers : List ℕ)
  | chosenvalRequest (instNumbers : List ℕ)
deriving DecidableEq

end FdsPaxos.RingMessages
