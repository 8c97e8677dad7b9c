import FdsPaxos.Paxos2AcceptorSafety

set_option autoImplicit false

/-!
Reads of the database that fail.  `stablestorage_get_record` gives `NULL` for a failed
read as it does for a missing record, and its callers take `NULL` for an instance
without promises.
-/

namespace FdsPaxos.Paxos2ReadFailures
open TransitionRuns Paxos2Config Paxos2Messages Paxos2SendBuffer Paxos2StableStorage
open Paxos2Acceptor Paxos2AcceptorSafety

/-- An item of a batch of prepare requests or of accept requests. -/
inductive Request where
  | prepare (pr : PrepareReq)
  | accept (ar : AcceptReq)

def Request.iid : Request → ℕ
  | prepare pr => pr.iid
  | accept ar => ar.iid

/-- The loop bodies of `handle_prepare_req_batch` and `handle_accept_req_batch`. -/
def handleRequest (cfg : Config) (s : AcceptorState) : Request → AcceptorState
  | .prepare pr => handlePrepareReq cfg s pr
  | .accept ar => handleAcceptReq cfg s ar

def withRead (s : AcceptorState) (iid : ℕ) (fails : Bool) : AcceptorState :=
  { s with
    storage :=
      { s.storage with
        readError := fun i => if i = iid then fails else s.storage.readError i } }

/-- A request together with whether the read of its record fails. -/
structure ReadRequest where
  request : Request
  fails : Bool

def handleRead (cfg : Config) (s : AcceptorState) (r : ReadRequest) : AcceptorState :=
  handleRequest cfg (withRead s r.request.iid r.fails) r.request

structure LeftAlone (iid : ℕ) (s t : AcceptorState) : Prop where
  record : t.storage.db iid = s.storage.db iid
  promises : t.toProposers.content = s.toProposers.content
  accepts : t.toLearners.content = s.toLearners.content

def FailureRespected (cfg : Config) (s : AcceptorState) (r : ReadRequest) : Prop :=
  r.fails = true → LeftAlone r.request.iid s (handleRead cfg s r)

variable {cfg : Config} {s : AcceptorState}

theorem handleRequest_readError (cfg : Config) (s : AcceptorState) (r : Request) :
    (handleRequest cfg s r).storage.readError = s.storage.readError := by
  cases r with
  | prepare pr =>
    rcases handlePrepareReq_cases cfg s pr with same | ⟨_, _, _, saved⟩
    · simp only [handleRequest, same]
    · simp only [handleRequest, saved, put_readError]
  | accept ar =>
    rcases handleAcceptReq_cases cfg s ar with ⟨_, _, _, same⟩ | ⟨_, saved⟩
    · simp only [handleRequest, same]
    · simp only [handleRequest, saved, put_readError]

theorem content_add_ne {ι : Type} (cfg : Config) (size : ι → ℕ) (sb : SendBuf ι) (x : ι) :
    (sendbufAdd cfg size sb x).content ≠ sb.content := by
  rw [SendBuf.content_add]
  simp

theorem failure_answered (cfg : Config) (r : Request) (fails : s.storage.readError r.iid = true) :
    (handleRequest cfg s r).toProposers.content ≠ s.toProposers.content ∨
      (handleRequest cfg s r).toLearners.content ≠ s.toLearners.content := by
  have missing : stablestorageGetRecord s.storage r.iid = none := by
    simp [stablestorageGetRecord, fails]
  cases r with
  | prepare pr =>
    have missing : stablestorageGetRecord s.storage pr.iid = none := missing
    left
    simp only [handleRequest, handlePrepareReq, accApplyPrepare, missing, Option.mem_def,
      reduceCtorEq, false_and, exists_false, if_false]
    exact content_add_ne cfg _ _ _
  | accept ar =>
    have missing : stablestorageGetRecord s.storage ar.iid = none := missing
    right
    simp only [handleRequest, handleAcceptReq, accApplyAccept, missing, Option.mem_def,
      reduceCtorEq, false_and, exists_false, if_false]
    exact content_add_ne cfg _ _ _

theorem failureRespected_iff (s : AcceptorState) (r : ReadRequest) :
    FailureRespected cfg s r ↔ r.fails = false := by
  refine ⟨fun respected => ?_, fun reads fails => by simp [reads] at fails⟩
  by_contra fails
  have fails : r.fails = true := by simpa using fails
  have alone := respected fails
  have answered := failure_answered cfg
    (s := withRead s r.request.iid r.fails) r.request
    (by simp [withRead, fails])
  rcases answered with promised | accepted
  · exact promised alone.promises
  · exact accepted alone.accepts

/-- From any state, the requests of a batch whose reads fail all leave their instances
alone exactly when no read fails. -/
theorem failures_respected_iff (cfg : Config) (s : AcceptorState) (batch : List ReadRequest) :
    Along (handleRead cfg) (FailureRespected cfg) s batch ↔ ∀ r ∈ batch, r.fails = false :=
  along_iff_forall_mem failureRespected_iff batch

/-- Acceptor 0 has accepted a value at ballot 21 when the read for a request at ballot 10
fails: the request is promised, and the value is lost. -/
theorem failed_read_forgets :
    ¬ Along (handleRead .default) (FailureRespected .default)
      (handleAcceptReq .default (acceptorInit 0) ⟨1, 21, [7]⟩) [⟨.prepare ⟨1, 10⟩, true⟩] ∧
    (handleRead .default (handleAcceptReq .default (acceptorInit 0) ⟨1, 21, [7]⟩)
      ⟨.prepare ⟨1, 10⟩, true⟩).storage.db 1 = some ⟨1, 10, 0, false, []⟩ := by
  refine ⟨fun respected => ?_, by decide⟩
  have alone := (respected.1 rfl).record
  revert alone
  decide

end FdsPaxos.Paxos2ReadFailures
