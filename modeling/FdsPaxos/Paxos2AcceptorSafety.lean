import FdsPaxos.Paxos2Acceptor

set_option autoImplicit false

namespace FdsPaxos.Paxos2AcceptorSafety
open TransitionRuns Paxos2Config Paxos2Messages Paxos2SendBuffer Paxos2StableStorage
open Paxos2Acceptor

variable {cfg : Config} {s : AcceptorState}

theorem handleAcceptReq_cases (cfg : Config) (s : AcceptorState) (ar : AcceptReq) :
    (∃ rec, stablestorageGetRecord s.storage ar.iid = some rec ∧ rec.ballot < ar.ballot ∧
      handleAcceptReq cfg s ar = s) ∨
    ((∀ rec, stablestorageGetRecord s.storage ar.iid = some rec → ar.ballot ≤ rec.ballot) ∧
      handleAcceptReq cfg s ar =
        { s with
          storage := put s.storage (acceptRecord ar)
          highestAcceptedIid :=
            if s.highestAcceptedIid < ar.iid then ar.iid else s.highestAcceptedIid
          toLearners := sendbufAddAcceptAck cfg s.toLearners (acceptRecord ar) }) := by
  unfold handleAcceptReq accApplyAccept
  cases h : stablestorageGetRecord s.storage ar.iid with
  | none => exact .inr ⟨(by simp), by simp [stablestorageSaveAccept]⟩
  | some rec =>
    by_cases lower : rec.ballot < ar.ballot
    · exact .inl ⟨rec, rfl, lower, by simp [lower]⟩
    · refine .inr ⟨?_, by simp [lower, stablestorageSaveAccept]⟩
      intro r hr
      rw [← Option.some.inj hr]
      exact Nat.not_lt.mp lower

theorem handlePrepareReq_cases (cfg : Config) (s : AcceptorState) (pr : PrepareReq) :
    handlePrepareReq cfg s pr = s ∨
    (∃ rec, rec = prepareRecord pr (stablestorageGetRecord s.storage pr.iid) ∧
      (∀ old, stablestorageGetRecord s.storage pr.iid = some old → old.ballot < pr.ballot) ∧
      handlePrepareReq cfg s pr =
        { s with
          storage := put s.storage rec
          toProposers := sendbufAddPrepareAck cfg s.toProposers rec }) := by
  unfold handlePrepareReq accApplyPrepare
  cases h : stablestorageGetRecord s.storage pr.iid with
  | none => exact .inr ⟨_, rfl, (by simp), by simp [stablestorageSavePrepare]⟩
  | some rec =>
    by_cases newer : pr.ballot ≤ rec.ballot
    · exact .inl (by simp [newer])
    · by_cases final : rec.isFinal = true
      · exact .inl (by simp [newer, final])
      · refine .inr ⟨_, rfl, ?_, by simp [newer, final, stablestorageSavePrepare]⟩
        intro old hold
        rw [← Option.some.inj hold]
        exact Nat.not_le.mp newer

theorem handleRepeatReq_cases (cfg : Config) (s : AcceptorState) (iid : ℕ) :
    handleRepeatReq cfg s iid = s ∨
    (∃ rec, stablestorageGetRecord s.storage iid = some rec ∧ 0 < rec.value.length ∧
      handleRepeatReq cfg s iid =
        { s with toLearners := sendbufAddAcceptAck cfg s.toLearners rec }) := by
  unfold handleRepeatReq
  cases h : stablestorageGetRecord s.storage iid with
  | none => exact .inl rfl
  | some rec =>
    by_cases stored : 0 < rec.value.length
    · exact .inr ⟨rec, rfl, stored, by simp [stored]⟩
    · exact .inl (by simp [stored])

def Readable (s : AcceptorState) : Prop :=
  ∀ i, s.storage.readError i = false

theorem Readable.getRecord (h : Readable s) (i : ℕ) :
    stablestorageGetRecord s.storage i = s.storage.db i :=
  getRecord_of_readable (h i)

theorem readable_init (a : ℕ) : Readable (acceptorInit a) := fun _ => rfl

theorem Readable.handleAcceptReq (h : Readable s) (ar : AcceptReq) :
    Readable (handleAcceptReq cfg s ar) := by
  rcases handleAcceptReq_cases cfg s ar with ⟨_, _, _, same⟩ | ⟨_, saved⟩
  · rwa [same]
  · rw [saved]
    exact h

theorem Readable.handlePrepareReq (h : Readable s) (pr : PrepareReq) :
    Readable (handlePrepareReq cfg s pr) := by
  rcases handlePrepareReq_cases cfg s pr with same | ⟨_, _, _, saved⟩
  · rwa [same]
  · rw [saved]
    exact h

theorem Readable.handleRepeatReq (h : Readable s) (iid : ℕ) :
    Readable (handleRepeatReq cfg s iid) := by
  rcases handleRepeatReq_cases cfg s iid with same | ⟨_, _, _, saved⟩
  · rwa [same]
  · rw [saved]
    exact h

theorem Readable.accHandleNewmsg (h : Readable s) (msg : PaxosMsg) :
    Readable (accHandleNewmsg cfg s msg) := by
  cases msg with
  | prepareReqs _ prepares =>
    exact run_invariant (s := s.clearToProposers) Readable h fun _ pr hs => hs.handlePrepareReq pr
  | acceptReqs _ accepts =>
    exact run_invariant (s := s.clearToLearners) Readable h fun _ ar hs => hs.handleAcceptReq ar
  | repeatReqs requests =>
    exact run_invariant (s := s.clearToLearners) Readable h fun _ i hs => hs.handleRepeatReq i
  | _ => exact h

def BallotsKept (s s' : AcceptorState) : Prop :=
  ∀ i rec, s.storage.db i = some rec →
    ∃ rec', s'.storage.db i = some rec' ∧ rec.ballot ≤ rec'.ballot

theorem BallotsKept.refl (s : AcceptorState) : BallotsKept s s :=
  fun _ rec h => ⟨rec, h, le_refl _⟩

theorem BallotsKept.of_db_eq {s' : AcceptorState} (h : s'.storage.db = s.storage.db) :
    BallotsKept s s' := by
  intro i rec hrec
  exact ⟨rec, by rw [h, hrec], le_refl _⟩

theorem BallotsKept.of_put {s' : AcceptorState} {new : AcceptorRecord}
    (h : s'.storage = put s.storage new)
    (up : ∀ old, s.storage.db new.iid = some old → old.ballot ≤ new.ballot) :
    BallotsKept s s' := by
  intro i rec hrec
  by_cases hi : i = new.iid
  · subst hi
    exact ⟨new, by simp [h], up rec hrec⟩
  · exact ⟨rec, by simp [h, hi, hrec], le_refl _⟩

theorem handlePrepareReq_ballotsKept (readable : Readable s) (pr : PrepareReq) :
    BallotsKept s (handlePrepareReq cfg s pr) := by
  rcases handlePrepareReq_cases cfg s pr with same | ⟨rec, rfl, higher, saved⟩
  · rw [same]
    exact .refl s
  · refine .of_put (congrArg AcceptorState.storage saved) ?_
    intro old hold
    rw [prepareRecord_iid, ← readable.getRecord] at hold
    simpa using Nat.le_of_lt (higher old hold)

theorem handleRepeatReqBatch_db (requests : List ℕ) :
    (handleRepeatReqBatch cfg s requests).storage.db = s.storage.db := by
  have kept : (run (handleRepeatReq cfg) s.clearToLearners requests).storage.db =
      s.storage.db := by
    refine run_invariant (fun s' : AcceptorState => s'.storage.db = s.storage.db) rfl ?_
    intro s' i hs'
    rcases handleRepeatReq_cases cfg s' i with same | ⟨_, _, _, saved⟩
    · rwa [same]
    · rwa [saved]
  exact kept

/-- What an acceptor owes a single accept request: ballots never decrease, a lower
request changes nothing and is not acknowledged, and any other one is stored under
its own ballot and acknowledged. -/
def AcceptSound (cfg : Config) (s : AcceptorState) (ar : AcceptReq) : Prop :=
  BallotsKept s (handleAcceptReq cfg s ar) ∧
  ((∃ rec, s.storage.db ar.iid = some rec ∧ ar.ballot < rec.ballot) →
    handleAcceptReq cfg s ar = s) ∧
  ((∀ rec, s.storage.db ar.iid = some rec → rec.ballot ≤ ar.ballot) →
    (handleAcceptReq cfg s ar).storage.db ar.iid = some (acceptRecord ar) ∧
    (handleAcceptReq cfg s ar).toLearners.content =
      s.toLearners.content ++ [acceptRecord ar])

/-- The same for a whole batch; the acknowledgements of an accept batch are the
items that its handler has sent when it returns. -/
def BatchSound (cfg : Config) (s : AcceptorState) : PaxosMsg → Prop
  | .prepareReqs _ prepares =>
    Along (handlePrepareReq cfg) (fun s pr => BallotsKept s (handlePrepareReq cfg s pr))
      s.clearToProposers prepares
  | .acceptReqs _ accepts =>
    Along (handleAcceptReq cfg) (AcceptSound cfg) s.clearToLearners accepts ∧
    (handleAcceptReqBatch cfg s accepts).toLearners.sent.flatten =
      (run (handleAcceptReq cfg) s.clearToLearners accepts).toLearners.content
  | .repeatReqs requests => BallotsKept s (handleRepeatReqBatch cfg s requests)
  | _ => True

def MeetsOwnBallot (s : AcceptorState) (ar : AcceptReq) : Prop :=
  ∀ rec, s.storage.db ar.iid = some rec → rec.ballot = ar.ballot

instance (s : AcceptorState) (ar : AcceptReq) : Decidable (MeetsOwnBallot s ar) :=
  match h : s.storage.db ar.iid with
  | none => isTrue (by intro rec hrec; rw [h] at hrec; cases hrec)
  | some rec => decidable_of_iff (rec.ballot = ar.ballot)
    ⟨by intro eq r hr; rw [h] at hr; rw [← Option.some.inj hr, eq], fun all => all rec h⟩

def BatchMeetsOwnBallots (cfg : Config) (s : AcceptorState) : PaxosMsg → Prop
  | .acceptReqs _ accepts =>
    Along (handleAcceptReq cfg) MeetsOwnBallot s.clearToLearners accepts
  | _ => True

instance (cfg : Config) (s : AcceptorState) (msg : PaxosMsg) :
    Decidable (BatchMeetsOwnBallots cfg s msg) :=
  match msg with
  | .acceptReqs _ accepts =>
    inferInstanceAs (Decidable (Along (handleAcceptReq cfg) MeetsOwnBallot
      s.clearToLearners accepts))
  | .prepareReqs _ _ | .prepareAcks _ _ | .acceptAcks _ _ | .repeatReqs _ | .submit _
  | .leaderAnnounce _ => isTrue trivial

theorem handleAcceptReq_of_meetsOwnBallot (readable : Readable s) {ar : AcceptReq}
    (meets : MeetsOwnBallot s ar) : AcceptSound cfg s ar := by
  rcases handleAcceptReq_cases cfg s ar with ⟨rec, found, lower, _⟩ | ⟨_, saved⟩
  · rw [readable.getRecord] at found
    have := meets rec found
    omega
  · refine ⟨.of_put (congrArg AcceptorState.storage saved) ?_, ?_, ?_⟩
    · intro old hold
      exact (meets old hold).le
    · rintro ⟨rec, found, lower⟩
      have := meets rec found
      omega
    · intro _
      rw [saved]
      exact ⟨by simp [acceptRecord], SendBuf.content_add cfg _ _ _⟩

/-- The comparison of `acc_apply_accept` is turned round, so both unequal cases
break what is owed. -/
theorem acceptSound_iff (readable : Readable s) (ar : AcceptReq) :
    AcceptSound cfg s ar ↔ MeetsOwnBallot s ar := by
  refine ⟨?_, handleAcceptReq_of_meetsOwnBallot readable⟩
  rintro ⟨-, lowerDropped, higherStored⟩ rec found
  have get : stablestorageGetRecord s.storage ar.iid = some rec := by
    rw [readable.getRecord, found]
  rcases handleAcceptReq_cases cfg s ar with ⟨r, found', lower, same⟩ | ⟨below, saved⟩
  · -- a request with a higher ballot is dropped
    obtain rfl : rec = r := Option.some.inj (get.symm.trans found')
    have stored := (higherStored (by
      intro r hr
      rw [found] at hr
      rw [← Option.some.inj hr]
      exact lower.le)).1
    rw [same, found] at stored
    rw [Option.some.inj stored]
    rfl
  · -- a request with a lower ballot is stored
    rcases Nat.lt_or_ge ar.ballot rec.ballot with lower | higher
    · exfalso
      have same := congrArg (fun s => s.toLearners.content) (lowerDropped ⟨rec, found, lower⟩)
      rw [saved] at same
      have grown := SendBuf.content_add cfg acceptAckSize s.toLearners (acceptRecord ar)
      simp only [sendbufAddAcceptAck] at same
      rw [grown] at same
      simp at same
    · exact le_antisymm higher (below rec get)

theorem batchSound_iff (readable : Readable s) (msg : PaxosMsg) :
    BatchSound cfg s msg ↔ BatchMeetsOwnBallots cfg s msg := by
  cases msg with
  | prepareReqs _ prepares =>
    refine iff_of_true ?_ trivial
    exact along_of_kept Readable readable (fun _ pr hs => hs.handlePrepareReq pr)
      (fun _ pr hs => handlePrepareReq_ballotsKept hs pr)
  | acceptReqs _ accepts =>
    have sent : (handleAcceptReqBatch cfg s accepts).toLearners.sent.flatten =
        (run (handleAcceptReq cfg) s.clearToLearners accepts).toLearners.content :=
      SendBuf.sent_flush _
    have each : Along (handleAcceptReq cfg) (AcceptSound cfg) s.clearToLearners accepts ↔
        Along (handleAcceptReq cfg) MeetsOwnBallot s.clearToLearners accepts :=
      along_congr Readable readable (fun _ ar hs => hs.handleAcceptReq ar)
        (fun _ ar hs => acceptSound_iff hs ar)
    exact (and_iff_left sent).trans each
  | repeatReqs requests =>
    exact iff_of_true (.of_db_eq (handleRepeatReqBatch_db requests)) trivial
  | _ => exact Iff.rfl

/-- A run of an acceptor is sound exactly when every accept request in it meets no
record or one with the request's own ballot. -/
theorem acceptor_run_sound_iff (cfg : Config) (acceptorId : ℕ) (msgs : List PaxosMsg) :
    Along (accHandleNewmsg cfg) (BatchSound cfg) (acceptorInit acceptorId) msgs ↔
      Along (accHandleNewmsg cfg) (BatchMeetsOwnBallots cfg) (acceptorInit acceptorId) msgs :=
  along_congr Readable (readable_init acceptorId) (fun _ msg hs => hs.accHandleNewmsg msg)
    (fun _ msg hs => batchSound_iff hs msg)

/-- After a promise at ballot 21 a request at ballot 10 is stored, and after an
accept at ballot 10 a request at ballot 21 is dropped. -/
theorem acceptor_run_unsound :
    ¬ Along (accHandleNewmsg .default) (BatchSound .default) (acceptorInit 0)
        [.prepareReqs 1 [⟨1, 21⟩], .acceptReqs 0 [⟨1, 10, [7]⟩]] ∧
    ¬ Along (accHandleNewmsg .default) (BatchSound .default) (acceptorInit 0)
        [.acceptReqs 0 [⟨1, 10, [7]⟩], .acceptReqs 1 [⟨1, 21, [8]⟩]] := by
  refine ⟨?_, ?_⟩
  · rintro ⟨-, ⟨⟨⟨-, lowerDropped, -⟩, -⟩, -⟩, -⟩
    have same := congrArg (fun s => s.toLearners.items)
      (lowerDropped ⟨⟨1, 21, 0, false, []⟩, by decide⟩)
    revert same
    decide
  · rintro ⟨-, ⟨⟨⟨-, -, higherStored⟩, -⟩, -⟩, -⟩
    have stored := (higherStored (by decide)).1
    revert stored
    decide

end FdsPaxos.Paxos2AcceptorSafety
