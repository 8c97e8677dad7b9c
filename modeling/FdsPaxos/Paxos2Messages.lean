import Mathlib.Data.Nat.Notation

set_option autoImplicit false

/-!
The messages of `libpaxos_messages.h`.  Instance ids and ballots are taken below
the 32-bit limit, so they are plain numbers; a value carries its own size.
-/

namespace FdsPaxos.Paxos2Messages

abbrev Value := List UInt8

structure PrepareReq where
  iid : ℕ
  ballot : ℕ
deriving DecidableEq

structure PrepareAck where
  iid : ℕ
  ballot : ℕ
  valueBallot : ℕ
  value : Value
deriving DecidableEq

structure AcceptReq where
  iid : ℕ
  ballot : ℕ
  value : Value
deriving DecidableEq

structure AcceptAck where
  iid : ℕ
  ballot : ℕ
  valueBallot : ℕ
  isFinal : Bool
  value : Value
deriving DecidableEq

abbrev AcceptorRecord := AcceptAck

inductive PaxosMsg where
  | prepareReqs (proposerId : ℕ) (prepares : List PrepareReq)
  | prepareAcks (acceptorId : ℕ) (acks : List PrepareAck)
  | acceptReqs (proposerId : ℕ) (accepts : List AcceptReq)
  | acceptAcks (acceptorId : ℕ) (acks : List AcceptAck)
  | repeatReqs (requests : List ℕ)
  | submit (value : Value)
  | leaderAnnounce (currentLeader : ℕ)
deriving DecidableEq

def paxosMsgHeader : ℕ := 16

def batchHeader : ℕ := 4

def prepareReqSize (_ : PrepareReq) : ℕ := 8

def prepareAckSize (pa : PrepareAck) : ℕ := pa.value.length + 24

def acceptReqSize (ar : AcceptReq) : ℕ := ar.value.length + 16

def acceptAckSize (aa : AcceptAck) : ℕ := aa.value.length + 24

def repeatReqSize (_ : ℕ) : ℕ := 4

end FdsPaxos.Paxos2Messages
