import FdsPaxos.Paxos2SendBuffer
import FdsPaxos.Paxos2StableStorage
import FdsPaxos.TransitionRuns

set_option autoImplicit false

/-! The acceptor of `acceptor.c`, built without `ACCEPTOR_UPDATE_ON_DELIVER`. -/

namespace FdsPaxos.Paxos2Acceptor
open TransitionRuns Paxos2Config Paxos2Messages Paxos2SendBuffer Paxos2StableStorage

structure AcceptorState where
  thisAcceptorId : ℕ
  highestAcceptedIid : ℕ
  storage : StableStorage
  toProposers : SendBuf PrepareAck
  toLearners : SendBuf AcceptAck

/-- The one way an acceptor stops: the periodic repeat reads a missing record. -/
inductive AcceptorFault where
  | nullRecord
deriving DecidableEq

def acceptorInit (acceptorId : ℕ) : AcceptorState where
  thisAcceptorId := acceptorId
  highestAcceptedIid := 0
  storage := stablestorageInit
  toProposers := sendbufNew
  toLearners := sendbufNew

def accApplyAccept (s : AcceptorState) (ar : AcceptReq) (rec : Option AcceptorRecord) :
    AcceptorState × Option AcceptorRecord :=
  if ∃ r ∈ rec, r.ballot < ar.ballot then (s, none)
  else
    let saved := stablestorageSaveAccept s.storage ar
    ({ s with
        storage := saved.1
        highestAcceptedIid :=
          if s.highestAcceptedIid < ar.iid then ar.iid else s.highestAcceptedIid },
      some saved.2)

def accApplyPrepare (s : AcceptorState) (pr : PrepareReq) (rec : Option AcceptorRecord) :
    AcceptorState × Option AcceptorRecord :=
  if ∃ r ∈ rec, pr.ballot ≤ r.ballot then (s, none)
  else if ∃ r ∈ rec, r.isFinal = true then (s, none)
  else
    let saved := stablestorageSavePrepare s.storage pr rec
    ({ s with storage := saved.1 }, some saved.2)

def handlePrepareReq (cfg : Config) (s : AcceptorState) (pr : PrepareReq) : AcceptorState :=
  match accApplyPrepare s pr (stablestorageGetRecord s.storage pr.iid) with
  | (s', some rec) => { s' with toProposers := sendbufAddPrepareAck cfg s'.toProposers rec }
  | (s', none) => s'

def handleAcceptReq (cfg : Config) (s : AcceptorState) (ar : AcceptReq) : AcceptorState :=
  match accApplyAccept s ar (stablestorageGetRecord s.storage ar.iid) with
  | (s', some rec) => { s' with toLearners := sendbufAddAcceptAck cfg s'.toLearners rec }
  | (s', none) => s'

def handleRepeatReq (cfg : Config) (s : AcceptorState) (iid : ℕ) : AcceptorState :=
  match stablestorageGetRecord s.storage iid with
  | some rec =>
    if 0 < rec.value.length then
      { s with toLearners := sendbufAddAcceptAck cfg s.toLearners rec }
    else s
  | none => s

def AcceptorState.clearToProposers (s : AcceptorState) : AcceptorState :=
  { s with toProposers := sendbufClear s.toProposers }

def AcceptorState.clearToLearners (s : AcceptorState) : AcceptorState :=
  { s with toLearners := sendbufClear s.toLearners }

def AcceptorState.flushToProposers (s : AcceptorState) : AcceptorState :=
  { s with toProposers := sendbufFlush s.toProposers }

def AcceptorState.flushToLearners (s : AcceptorState) : AcceptorState :=
  { s with toLearners := sendbufFlush s.toLearners }

def handlePrepareReqBatch (cfg : Config) (s : AcceptorState) (prb : List PrepareReq) :
    AcceptorState :=
  (run (handlePrepareReq cfg) s.clearToProposers prb).flushToProposers

def handleAcceptReqBatch (cfg : Config) (s : AcceptorState) (arb : List AcceptReq) :
    AcceptorState :=
  (run (handleAcceptReq cfg) s.clearToLearners arb).flushToLearners

def handleRepeatReqBatch (cfg : Config) (s : AcceptorState) (rrb : List ℕ) : AcceptorState :=
  (run (handleRepeatReq cfg) s.clearToLearners rrb).flushToLearners

def accRetransmitLatestAccept (cfg : Config) (s : AcceptorState) :
    Outcome AcceptorFault AcceptorState :=
  let s := s.clearToLearners
  match stablestorageGetRecord s.storage s.highestAcceptedIid with
  | some rec =>
    .running { s with toLearners := sendbufAddAcceptAck cfg s.toLearners rec }.flushToLearners
  | none => .aborted .nullRecord s

def accPeriodicRepeater (cfg : Config) (s : AcceptorState) : Outcome AcceptorFault AcceptorState :=
  if 0 < s.highestAcceptedIid then accRetransmitLatestAccept cfg s else .running s

def accHandleNewmsg (cfg : Config) (s : AcceptorState) : PaxosMsg → AcceptorState
  | .prepareReqs _ prepares => handlePrepareReqBatch cfg s prepares
  | .acceptReqs _ accepts => handleAcceptReqBatch cfg s accepts
  | .repeatReqs requests => handleRepeatReqBatch cfg s requests
  | _ => s

end FdsPaxos.Paxos2Acceptor
