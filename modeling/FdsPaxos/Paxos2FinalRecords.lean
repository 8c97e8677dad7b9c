import FdsPaxos.Paxos2AcceptorLife

set_option autoImplicit false

namespace FdsPaxos.Paxos2FinalRecords
open TransitionRuns Paxos2Config Paxos2Messages Paxos2SendBuffer Paxos2StableStorage
open Paxos2Acceptor Paxos2AcceptorSafety Paxos2ReadFailures Paxos2AcceptorLife

def FinalValue (iid : ℕ) (value : Value) (s : AcceptorState) : Prop :=
  ∃ rec, s.storage.db iid = some rec ∧ rec.isFinal = true ∧ rec.value = value

def AckFinal (iid : ℕ) (value : Value) (aa : AcceptAck) : Prop :=
  aa.iid = iid → aa.isFinal = true ∧ aa.value = value

/-- From `s` to `t` the record of the instance stays final, and every acknowledgement sent
for it carries its value, marked final; a promise cannot be marked. -/
structure StaysFinal (iid : ℕ) (value : Value) (s t : AcceptorState) : Prop where
  record : FinalValue iid value t
  accepts : ∃ more, t.toLearners.sent = s.toLearners.sent ++ more ∧
    ∀ batch ∈ more, ∀ aa ∈ batch, AckFinal iid value aa
  promises : ∃ more, t.toProposers.sent = s.toProposers.sent ++ more ∧
    ∀ batch ∈ more, ∀ pa ∈ batch, pa.iid ≠ iid

def FinalKept (cfg : Config) (iid : ℕ) (value : Value) (o : Outcome AcceptorFault AcceptorState)
    (event : AcceptorEvent) : Prop :=
  StaysFinal iid value o.state (acceptorEventStep cfg o event).state

def Dropped (s : AcceptorState) (r : Request) : Prop :=
  match r with
  | .prepare pr => s.storage.readError pr.iid = false
  | .accept ar => ∃ rec, stablestorageGetRecord s.storage ar.iid = some rec ∧
      rec.ballot < ar.ballot

/-- Requests of the message for the instance are dropped, and a value delivered for it
again is the same. -/
def LeavesFinal (iid : ℕ) (value : Value) (s : AcceptorState) : AcceptorEvent → Prop
  | .newmsg (.prepareReqs _ prepares) =>
    ∀ pr ∈ prepares, pr.iid = iid → Dropped s (.prepare pr)
  | .newmsg (.acceptReqs _ accepts) =>
    ∀ ar ∈ accepts, ar.iid = iid → Dropped s (.accept ar)
  | .deliver value' iid' _ => iid' = iid → value' = value
  | _ => True

def LeavesFinalWhileRunning (iid : ℕ) (value : Value) :
    Outcome AcceptorFault AcceptorState → AcceptorEvent → Prop
  | .running s, event => LeavesFinal iid value s event
  | .aborted _ _, _ => True

variable {cfg : Config} {iid : ℕ} {value : Value} {s t : AcceptorState}

def NotFinal (iid : ℕ) (s : AcceptorState) : Prop :=
  ∀ rec, s.storage.db iid = some rec → rec.isFinal = false

theorem FinalValue.not_notFinal (h : FinalValue iid value s) : ¬ NotFinal iid s := by
  obtain ⟨rec, stored, final, -⟩ := h
  intro notFinal
  simp [notFinal rec stored] at final

theorem requestRecord_notFinal (notFinal : NotFinal iid s) {r : Request} (own : r.iid = iid) :
    (requestRecord s r).isFinal = false := by
  cases r with
  | prepare pr =>
    have own : pr.iid = iid := own
    simp only [requestRecord]
    cases found : stablestorageGetRecord s.storage pr.iid with
    | none => rfl
    | some rec => exact notFinal rec (own ▸ getRecord_some found)
  | accept ar => rfl

theorem NotFinal.handleRequest (notFinal : NotFinal iid s) (r : Request) :
    NotFinal iid (handleRequest cfg s r) := by
  rcases handleRequest_storage cfg s r with same | saved
  · intro rec stored
    exact notFinal rec (same ▸ stored)
  · intro rec stored
    rw [saved, put_db, requestRecord_iid] at stored
    split_ifs at stored with own
    · rw [← Option.some.inj stored]
      exact requestRecord_notFinal notFinal own.symm
    · exact notFinal rec stored

theorem handleRequest_of_dropped (h : FinalValue iid value s) {r : Request} (own : r.iid = iid)
    (dropped : Dropped s r) : handleRequest cfg s r = s := by
  obtain ⟨rec, stored, final, -⟩ := h
  cases r with
  | prepare pr =>
    have own : pr.iid = iid := own
    have found : stablestorageGetRecord s.storage pr.iid = some rec := by
      rw [getRecord_of_readable dropped, own, stored]
    have final : ∃ r ∈ some rec, r.isFinal = true := ⟨rec, rfl, final⟩
    simp only [handleRequest, handlePrepareReq, accApplyPrepare, found]
    split_ifs
    · rfl
    · rfl
  | accept ar =>
    obtain ⟨rec', found, lower⟩ := dropped
    have drops : ∃ r ∈ some rec', r.ballot < ar.ballot := ⟨rec', rfl, lower⟩
    simp only [handleRequest, handleAcceptReq, accApplyAccept, found, if_pos drops]

theorem notFinal_of_not_dropped {r : Request} (own : r.iid = iid) (taken : ¬ Dropped s r) :
    NotFinal iid (handleRequest cfg s r) := by
  have written : ∀ rec : AcceptorRecord, rec.iid = r.iid → rec.isFinal = false →
      (handleRequest cfg s r).storage = put s.storage rec → NotFinal iid (handleRequest cfg s r) := by
    intro rec key notFinal saved rec' stored
    rw [saved, put_db, key, if_pos own.symm] at stored
    rw [← Option.some.inj stored]
    exact notFinal
  cases r with
  | prepare pr =>
    have fails : s.storage.readError pr.iid = true := by simpa [Dropped] using taken
    have missing : stablestorageGetRecord s.storage pr.iid = none := by
      simp [stablestorageGetRecord, fails]
    apply written (prepareRecord pr none) rfl rfl
    simp [handleRequest, handlePrepareReq, accApplyPrepare, missing, stablestorageSavePrepare]
  | accept ar =>
    have drops : ¬ ∃ r ∈ stablestorageGetRecord s.storage ar.iid, r.ballot < ar.ballot := taken
    apply written (acceptRecord ar) rfl rfl
    simp only [handleRequest, handleAcceptReq, accApplyAccept, if_neg drops,
      stablestorageSaveAccept]

theorem Dropped.congr {r : Request} (db : t.storage.db r.iid = s.storage.db r.iid)
    (reads : t.storage.readError = s.storage.readError) : Dropped t r ↔ Dropped s r := by
  cases r with
  | prepare pr => simp only [Dropped, reads]
  | accept ar =>
    have db : t.storage.db ar.iid = s.storage.db ar.iid := db
    simp only [Dropped, stablestorageGetRecord, reads, db]

theorem batch_final_iff (cfg : Config) (h : FinalValue iid value s) (batch : List Request) :
    FinalValue iid value (run (handleRequest cfg) s batch) ↔
      ∀ r ∈ batch, r.iid = iid → Dropped s r := by
  induction batch generalizing s with
  | nil => simp [h]
  | cons r batch ih =>
    rw [run_cons, List.forall_mem_cons]
    by_cases taken : r.iid = iid ∧ ¬ Dropped s r
    · obtain ⟨own, taken⟩ := taken
      have lost : NotFinal iid (run (handleRequest cfg) (handleRequest cfg s r) batch) :=
        run_invariant (NotFinal iid) (notFinal_of_not_dropped own taken)
          fun _ r kept => kept.handleRequest r
      exact iff_of_false (fun final => final.not_notFinal lost)
        fun dropped => taken (dropped.1 own)
    · have dropped : r.iid = iid → Dropped s r := by
        intro own
        by_contra taken'
        exact taken ⟨own, taken'⟩
      have same : (handleRequest cfg s r).storage.db iid = s.storage.db iid := by
        by_cases own : r.iid = iid
        · rw [handleRequest_of_dropped h own (dropped own)]
        · exact handleRequest_db_of_ne cfg s own
      have next : FinalValue iid value (handleRequest cfg s r) := by
        unfold FinalValue
        rw [same]
        exact h
      rw [ih next]
      have reads := handleRequest_readError cfg s r
      constructor
      · intro rest
        refine ⟨dropped, ?_⟩
        intro r' hr' own
        exact (Dropped.congr (own ▸ same) reads).mp (rest r' hr' own)
      · rintro ⟨-, rest⟩ r' hr' own
        exact (Dropped.congr (own ▸ same) reads).mpr (rest r' hr' own)

structure SameReads (iid : ℕ) (s t : AcceptorState) : Prop where
  db : t.storage.db iid = s.storage.db iid
  reads : t.storage.readError = s.storage.readError

theorem SameReads.final (same : SameReads iid s t) (h : FinalValue iid value s) :
    FinalValue iid value t := by
  unfold FinalValue
  rw [same.db]
  exact h

theorem SameReads.handleRequest (same : SameReads iid s t) {r : Request}
    (other : r.iid ≠ iid) : SameReads iid s (handleRequest cfg t r) where
  db := (handleRequest_db_of_ne cfg t other).trans same.db
  reads := (handleRequest_readError cfg t r).trans same.reads

theorem handleRequest_other_or_same (cfg : Config) (h : FinalValue iid value s) (same : SameReads iid s t)
    {r : Request} (dropped : r.iid = iid → Dropped s r) :
    r.iid ≠ iid ∨ handleRequest cfg t r = t := by
  by_cases own : r.iid = iid
  · right
    have still : Dropped t r := (Dropped.congr (own ▸ same.db) same.reads).mpr (dropped own)
    exact handleRequest_of_dropped (same.final h) own still
  · exact .inl own

theorem acceptReqs_sends (cfg : Config) (h : FinalValue iid value s) {accepts : List AcceptReq}
    (dropped : ∀ ar ∈ accepts, ar.iid = iid → Dropped s (.accept ar)) :
    (run (handleAcceptReq cfg) s.clearToLearners accepts).toLearners.SentSince
        s.toLearners.sent (AckFinal iid value) ∧
      (run (handleAcceptReq cfg) s.clearToLearners accepts).toProposers = s.toProposers := by
  let kept (t : AcceptorState) : Prop :=
    SameReads iid s t ∧ t.toLearners.SentSince s.toLearners.sent (AckFinal iid value) ∧
      t.toProposers = s.toProposers
  have along : Along (handleAcceptReq cfg) (fun _ ar => ar.iid = iid → Dropped s (.accept ar))
      s.clearToLearners accepts := along_of_mem fun ar har _ => dropped ar har
  have start : kept s.clearToLearners := ⟨⟨rfl, rfl⟩, .start _, rfl⟩
  refine (along.invariant kept start ?_).2
  rintro t ar ⟨same, sent, promises⟩ dropped
  rcases handleRequest_other_or_same cfg h same (r := .accept ar) dropped with
    other | unchanged
  · refine ⟨same.handleRequest (r := .accept ar) other, ?_⟩
    rcases handleAcceptReq_cases cfg t ar with ⟨_, _, _, none⟩ | ⟨_, saved⟩
    · rw [none]
      exact ⟨sent, promises⟩
    · rw [saved]
      exact ⟨sent.add cfg _ fun own => absurd own other, promises⟩
  · have unchanged : handleAcceptReq cfg t ar = t := unchanged
    rw [unchanged]
    exact ⟨same, sent, promises⟩

theorem prepareReqs_sends (cfg : Config) (h : FinalValue iid value s) {prepares : List PrepareReq}
    (dropped : ∀ pr ∈ prepares, pr.iid = iid → Dropped s (.prepare pr)) :
    (run (handlePrepareReq cfg) s.clearToProposers prepares).toProposers.SentSince
        s.toProposers.sent (fun pa => pa.iid ≠ iid) ∧
      (run (handlePrepareReq cfg) s.clearToProposers prepares).toLearners = s.toLearners := by
  let kept (t : AcceptorState) : Prop :=
    SameReads iid s t ∧ t.toProposers.SentSince s.toProposers.sent (fun pa => pa.iid ≠ iid) ∧
      t.toLearners = s.toLearners
  have along : Along (handlePrepareReq cfg) (fun _ pr => pr.iid = iid → Dropped s (.prepare pr))
      s.clearToProposers prepares := along_of_mem fun pr hpr _ => dropped pr hpr
  have start : kept s.clearToProposers := ⟨⟨rfl, rfl⟩, .start _, rfl⟩
  refine (along.invariant kept start ?_).2
  rintro t pr ⟨same, sent, accepts⟩ dropped
  rcases handleRequest_other_or_same cfg h same (r := .prepare pr) dropped with
    other | unchanged
  · refine ⟨same.handleRequest (r := .prepare pr) other, ?_⟩
    rcases handlePrepareReq_cases cfg t pr with none | ⟨rec, written, _, saved⟩
    · rw [none]
      exact ⟨sent, accepts⟩
    · rw [saved]
      refine ⟨sent.add cfg _ ?_, accepts⟩
      simp only [written, prepareRecord_iid]
      exact other
  · have unchanged : handlePrepareReq cfg t pr = t := unchanged
    rw [unchanged]
    exact ⟨same, sent, accepts⟩

theorem FinalValue.ackFinal (h : FinalValue iid value s) {i : ℕ} {rec : AcceptorRecord}
    (found : stablestorageGetRecord s.storage i = some rec) : AckFinal iid value rec := by
  intro own
  obtain ⟨rec', stored, final⟩ := h
  have key : rec.iid = i := getRecord_iid found
  have db : s.storage.db iid = some rec := by
    rw [← own, key]
    exact getRecord_some found
  rw [stored] at db
  rwa [← Option.some.inj db]

theorem repeatReqs_sends (cfg : Config) (h : FinalValue iid value s) (requests : List ℕ) :
    (run (handleRepeatReq cfg) s.clearToLearners requests).toLearners.SentSince
        s.toLearners.sent (AckFinal iid value) ∧
      (run (handleRepeatReq cfg) s.clearToLearners requests).toProposers = s.toProposers ∧
      (run (handleRepeatReq cfg) s.clearToLearners requests).storage = s.storage := by
  refine run_invariant (fun t : AcceptorState =>
    t.toLearners.SentSince s.toLearners.sent (AckFinal iid value) ∧
      t.toProposers = s.toProposers ∧ t.storage = s.storage)
    (s := s.clearToLearners) ⟨.start _, rfl, rfl⟩ ?_
  rintro t i ⟨sent, promises, storage⟩
  rcases handleRepeatReq_cases cfg t i with none | ⟨rec, found, _, resent⟩
  · rw [none]
    exact ⟨sent, promises, storage⟩
  · rw [resent]
    rw [storage] at found
    exact ⟨sent.add cfg _ (h.ackFinal found), promises, storage⟩

theorem accPeriodicRepeater_sends (cfg : Config) (h : FinalValue iid value s) :
    (∃ more, (accPeriodicRepeater cfg s).state.toLearners.sent = s.toLearners.sent ++ more ∧
      ∀ batch ∈ more, ∀ aa ∈ batch, AckFinal iid value aa) ∧
      (accPeriodicRepeater cfg s).state.toProposers = s.toProposers ∧
      (accPeriodicRepeater cfg s).state.storage = s.storage := by
  unfold accPeriodicRepeater
  split_ifs
  · unfold accRetransmitLatestAccept
    dsimp only
    have start : (sendbufClear s.toLearners).SentSince s.toLearners.sent (AckFinal iid value) :=
      .start _
    split
    · next rec found => exact ⟨((start.add cfg _ (h.ackFinal found)).flush).1, rfl, rfl⟩
    · exact ⟨start.1, rfl, rfl⟩
  · exact ⟨⟨[], by simp⟩, rfl, rfl⟩

theorem StaysFinal.of_accepts (record : FinalValue iid value t)
    (accepts : ∃ more, t.toLearners.sent = s.toLearners.sent ++ more ∧
      ∀ batch ∈ more, ∀ aa ∈ batch, AckFinal iid value aa)
    (promises : t.toProposers = s.toProposers) : StaysFinal iid value s t where
  record := record
  accepts := accepts
  promises := ⟨[], by simp [promises]⟩

theorem StaysFinal.of_record (record : FinalValue iid value t)
    (accepts : t.toLearners.sent = s.toLearners.sent)
    (promises : t.toProposers.sent = s.toProposers.sent) : StaysFinal iid value s t where
  record := record
  accepts := ⟨[], by simp [accepts]⟩
  promises := ⟨[], by simp [promises]⟩

theorem accHandleNewmsg_stays_iff (h : FinalValue iid value s) (msg : PaxosMsg) :
    StaysFinal iid value s (accHandleNewmsg cfg s msg) ↔ LeavesFinal iid value s (.newmsg msg) := by
  cases msg with
  | prepareReqs proposerId prepares =>
    have final : FinalValue iid value (accHandleNewmsg cfg s (.prepareReqs proposerId prepares)) ↔
        LeavesFinal iid value s (.newmsg (.prepareReqs proposerId prepares)) := by
      have batch := batch_final_iff cfg (s := s.clearToProposers) h
        (prepares.map .prepare)
      rw [← run_handlePrepareReq, List.forall_mem_map] at batch
      exact batch
    refine ⟨fun stays => final.mp stays.record, fun leaves => ?_⟩
    obtain ⟨promises, accepts⟩ := prepareReqs_sends cfg h leaves
    exact
      { record := final.mpr leaves
        accepts := ⟨[], by
          simp only [accHandleNewmsg, handlePrepareReqBatch, AcceptorState.flushToProposers,
            accepts]
          simp⟩
        promises := promises.flush.1 }
  | acceptReqs proposerId accepts =>
    have final : FinalValue iid value (accHandleNewmsg cfg s (.acceptReqs proposerId accepts)) ↔
        LeavesFinal iid value s (.newmsg (.acceptReqs proposerId accepts)) := by
      have batch := batch_final_iff cfg (s := s.clearToLearners) h (accepts.map .accept)
      rw [← run_handleAcceptReq, List.forall_mem_map] at batch
      exact batch
    refine ⟨fun stays => final.mp stays.record, fun leaves => ?_⟩
    obtain ⟨sent, promises⟩ := acceptReqs_sends cfg h leaves
    exact .of_accepts (final.mpr leaves) sent.flush.1 promises
  | repeatReqs requests =>
    obtain ⟨sent, promises, storage⟩ := repeatReqs_sends cfg h requests
    refine iff_of_true (.of_accepts ?_ sent.flush.1 promises) trivial
    simp only [FinalValue, accHandleNewmsg, handleRepeatReqBatch, AcceptorState.flushToLearners,
      storage]
    exact h
  | _ => exact iff_of_true (.of_record h rfl rfl) trivial

theorem accDeliverCallback_final_iff (h : FinalValue iid value s) (value' : Value)
    (iid' ballot : ℕ) :
    FinalValue iid value (accDeliverCallback s value' iid' ballot) ↔ (iid' = iid → value' = value) := by
  simp only [FinalValue, accDeliverCallback, stablestorageSaveFinalValue, put_db]
  by_cases own : iid = iid'
  · rw [if_pos (by exact own)]
    simp [finalRecord, own]
  · rw [if_neg (by exact own)]
    exact iff_of_true h fun same => absurd same.symm own

theorem finalKept_iff (o : Outcome AcceptorFault AcceptorState) (event : AcceptorEvent)
    (h : FinalValue iid value o.state) :
    FinalKept cfg iid value o event ↔ LeavesFinalWhileRunning iid value o event := by
  cases o with
  | aborted fault s =>
    refine iff_of_true ?_ trivial
    cases event with
    | recover => exact .of_record h rfl rfl
    | _ => exact .of_record h rfl rfl
  | running s =>
    cases event with
    | newmsg msg => exact accHandleNewmsg_stays_iff h msg
    | periodicRepeat =>
      obtain ⟨accepts, promises, storage⟩ := accPeriodicRepeater_sends cfg h
      refine iff_of_true (.of_accepts ?_ accepts promises) trivial
      have same : (acceptorEventStep cfg (.running s) .periodicRepeat).state.storage =
        s.storage := storage
      rw [FinalValue, same]
      exact h
    | deliver value' iid' ballot =>
      have final := accDeliverCallback_final_iff h value' iid' ballot
      exact ⟨fun kept => final.mp kept.record, fun leaves => .of_record (final.mpr leaves) rfl rfl⟩
    | reads readError => exact iff_of_true (.of_record h rfl rfl) trivial
    | recover => exact iff_of_true (.of_record h rfl rfl) trivial

/-- After a value has been delivered to an acceptor in any state: along every run the
record stays final with that value and every acknowledgement for the instance carries it,
marked final, exactly when each event leaves the record alone: its prepare requests for the
instance can be read, its accept requests for it are above the ballot of the record that is
read, and nothing else is delivered for it. -/
theorem final_stays_final_iff (cfg : Config) (s : AcceptorState) (value : Value)
    (iid ballot : ℕ) (events : List AcceptorEvent) :
    Along (acceptorEventStep cfg) (FinalKept cfg iid value)
        (.running (accDeliverCallback s value iid ballot)) events ↔
      Along (acceptorEventStep cfg) (LeavesFinalWhileRunning iid value)
        (.running (accDeliverCallback s value iid ballot)) events := by
  refine along_congr_of_met (fun o => FinalValue iid value o.state) ?_ ?_ ?_
  · exact ⟨finalRecord value iid ballot, by simp [accDeliverCallback,
      stablestorageSaveFinalValue, finalRecord], rfl, rfl⟩
  · intro o event _ kept
    exact kept.record
  · intro o event final
    exact finalKept_iff o event final

/-- The value delivered at ballot 21 is replaced by an accept request at ballot 11, and the
acknowledgement of it is not marked final. -/
theorem final_overwritten :
    ¬ Along (acceptorEventStep .default) (FinalKept .default 1 [7])
      (.running (accDeliverCallback (acceptorInit 0) [7] 1 21))
      [.newmsg (.acceptReqs 1 [⟨1, 11, [8]⟩])] ∧
    (accHandleNewmsg .default (accDeliverCallback (acceptorInit 0) [7] 1 21)
      (.acceptReqs 1 [⟨1, 11, [8]⟩])).storage.db 1 = some ⟨1, 11, 11, false, [8]⟩ ∧
    (accHandleNewmsg .default (accDeliverCallback (acceptorInit 0) [7] 1 21)
      (.acceptReqs 1 [⟨1, 11, [8]⟩])).toLearners.sent = [[⟨1, 11, 11, false, [8]⟩]] := by
  refine ⟨?_, by decide, by decide⟩
  rintro ⟨kept, -⟩
  obtain ⟨rec, stored, final, -⟩ := kept.record
  have written : (acceptorEventStep .default (.running (accDeliverCallback (acceptorInit 0) [7] 1 21))
      (.newmsg (.acceptReqs 1 [⟨1, 11, [8]⟩]))).state.storage.db 1 =
      some ⟨1, 11, 11, false, [8]⟩ := by decide
  rw [written] at stored
  rw [← Option.some.inj stored] at final
  cases final

end FdsPaxos.Paxos2FinalRecords
