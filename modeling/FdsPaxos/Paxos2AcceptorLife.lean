import FdsPaxos.Paxos2ReadFailures

set_option autoImplicit false

/-!
An acceptor over its whole life: with the values delivered to it, where it is built
with `ACCEPTOR_UPDATE_ON_DELIVER`, with reads that fail, and with crashes after which
`acceptor_init_recover` starts it again over the records it had stored.
-/

namespace FdsPaxos.Paxos2AcceptorLife
open TransitionRuns Paxos2Config Paxos2Messages Paxos2SendBuffer Paxos2StableStorage
open Paxos2Acceptor Paxos2AcceptorSafety Paxos2ReadFailures

def finalRecord (value : Value) (iid ballot : ℕ) : AcceptorRecord where
  iid := iid
  ballot := ballot
  valueBallot := ballot
  isFinal := true
  value := value

def stablestorageSaveFinalValue (st : StableStorage) (value : Value) (iid ballot : ℕ) :
    StableStorage × AcceptorRecord :=
  (put st (finalRecord value iid ballot), finalRecord value iid ballot)

def accDeliverCallback (s : AcceptorState) (value : Value) (iid ballot : ℕ) : AcceptorState :=
  { s with storage := (stablestorageSaveFinalValue s.storage value iid ballot).1 }

/-- What was handed to the network stays there; everything else in memory starts anew. -/
def acceptorInitRecover (s : AcceptorState) : AcceptorState :=
  { acceptorInit s.thisAcceptorId with
    storage := s.storage
    toProposers := { sendbufNew with sent := s.toProposers.sent }
    toLearners := { sendbufNew with sent := s.toLearners.sent } }

/-- `reads` says which reads fail from then on, and `recover` is a crash with the restart
that follows it. -/
inductive AcceptorEvent where
  | newmsg (msg : PaxosMsg)
  | periodicRepeat
  | deliver (value : Value) (iid ballot : ℕ)
  | reads (readError : ℕ → Bool)
  | recover

def withReads (s : AcceptorState) (readError : ℕ → Bool) : AcceptorState :=
  { s with storage := { s.storage with readError } }

def acceptorEvent (cfg : Config) (s : AcceptorState) :
    AcceptorEvent → Outcome AcceptorFault AcceptorState
  | .newmsg msg => .running (accHandleNewmsg cfg s msg)
  | .periodicRepeat => accPeriodicRepeater cfg s
  | .deliver value iid ballot => .running (accDeliverCallback s value iid ballot)
  | .reads readError => .running (withReads s readError)
  | .recover => .running (acceptorInitRecover s)

/-- An acceptor that has stopped can only be started again. -/
def acceptorEventStep (cfg : Config) :
    Outcome AcceptorFault AcceptorState → AcceptorEvent → Outcome AcceptorFault AcceptorState
  | .running s, event => acceptorEvent cfg s event
  | .aborted _ s, .recover => .running (acceptorInitRecover s)
  | .aborted fault s, _ => .aborted fault s

variable {cfg : Config} {s : AcceptorState}

theorem run_handlePrepareReq (s : AcceptorState) (prepares : List PrepareReq) :
    run (handlePrepareReq cfg) s prepares =
      run (handleRequest cfg) s (prepares.map .prepare) := by
  simp only [run, List.foldl_map]
  rfl

theorem run_handleAcceptReq (s : AcceptorState) (accepts : List AcceptReq) :
    run (handleAcceptReq cfg) s accepts = run (handleRequest cfg) s (accepts.map .accept) := by
  simp only [run, List.foldl_map]
  rfl

def requestRecord (s : AcceptorState) : Request → AcceptorRecord
  | .prepare pr => prepareRecord pr (stablestorageGetRecord s.storage pr.iid)
  | .accept ar => acceptRecord ar

@[simp] theorem requestRecord_iid (s : AcceptorState) (r : Request) :
    (requestRecord s r).iid = r.iid := by
  cases r with
  | prepare pr => exact prepareRecord_iid pr
  | accept ar => rfl

theorem handleRequest_storage (cfg : Config) (s : AcceptorState) (r : Request) :
    (handleRequest cfg s r).storage = s.storage ∨
      (handleRequest cfg s r).storage = put s.storage (requestRecord s r) := by
  cases r with
  | prepare pr =>
    rcases handlePrepareReq_cases cfg s pr with same | ⟨rec, rfl, _, saved⟩
    · exact .inl (congrArg AcceptorState.storage same)
    · exact .inr (congrArg AcceptorState.storage saved)
  | accept ar =>
    rcases handleAcceptReq_cases cfg s ar with ⟨_, _, _, same⟩ | ⟨_, saved⟩
    · exact .inl (congrArg AcceptorState.storage same)
    · exact .inr (congrArg AcceptorState.storage saved)

theorem handleRequest_db_of_ne (cfg : Config) (s : AcceptorState) {r : Request} {iid : ℕ}
    (other : r.iid ≠ iid) :
    (handleRequest cfg s r).storage.db iid = s.storage.db iid := by
  rcases handleRequest_storage cfg s r with same | saved
  · rw [same]
  · rw [saved, put_db, requestRecord_iid, if_neg (Ne.symm other)]

end FdsPaxos.Paxos2AcceptorLife
