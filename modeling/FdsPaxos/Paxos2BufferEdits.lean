import FdsPaxos.Paxos2CrashAgreement

set_option autoImplicit false

namespace FdsPaxos.Paxos2BufferEdits
open TransitionRuns Paxos2Config Paxos2Messages Paxos2SendBuffer Paxos2ValuesHandler
open Paxos2Acceptor Paxos2AcceptorSafety Paxos2Learner Paxos2Leader Paxos2Proposer Paxos2AckWorld
open Paxos2World Paxos2CrashRecovery Paxos2CrashAgreement
open Paxos2LeaderMoves (leaderExecuteP2_cases withLeader_leader)

variable {cfg : Config}

section Buffers

variable {ι : Type} {size : ι → ℕ} {sb sb' sb'' : SendBuf ι}

/-- What a process does with a buffer.  It adds to one that was cleared before. -/
inductive Edit (cfg : Config) (size : ι → ℕ) : SendBuf ι → SendBuf ι → Prop where
  | clear (sb : SendBuf ι) : Edit cfg size sb (sendbufClear sb)
  | flush (sb : SendBuf ι) : Edit cfg size sb (sendbufFlush sb)
  | add (sb : SendBuf ι) (x : ι) (cleared : batchHeader ≤ sb.dataSize) :
      Edit cfg size sb (sendbufAdd cfg size sb x)

def Edits (cfg : Config) (size : ι → ℕ) : SendBuf ι → SendBuf ι → Prop :=
  Relation.ReflTransGen (Edit cfg size)

/-- The items go into one message: either there is no second one, or none of them is too much. -/
def OneMessage (cfg : Config) (size : ι → ℕ) (batch : List ι) : Prop :=
  batch.length ≤ 1 ∨ paxosMsgHeader + batchHeader + (batch.map size).sum < cfg.maxUdpMsgSize

/-- The open batch and all that were sent are one message each. -/
structure Whole (cfg : Config) (size : ι → ℕ) (sb : SendBuf ι) : Prop where
  sent : ∀ batch ∈ sb.sent, OneMessage cfg size batch
  items : OneMessage cfg size sb.items
  dataSize : batchHeader ≤ sb.dataSize → batchHeader + (sb.items.map size).sum ≤ sb.dataSize

structure Continues (cfg : Config) (size : ι → ℕ) (sb sb' : SendBuf ι) : Prop where
  grows : sb.sent <+: sb'.sent
  whole : Whole cfg size sb → Whole cfg size sb'

theorem Continues.refl (sb : SendBuf ι) : Continues cfg size sb sb := ⟨List.prefix_refl _, id⟩

theorem Continues.trans (h : Continues cfg size sb sb') (h' : Continues cfg size sb' sb'') :
    Continues cfg size sb sb'' :=
  ⟨h.grows.trans h'.grows, h'.whole ∘ h.whole⟩

theorem Edits.refl (sb : SendBuf ι) : Edits cfg size sb sb := Relation.ReflTransGen.refl

theorem Edits.trans (h : Edits cfg size sb sb') (h' : Edits cfg size sb' sb'') :
    Edits cfg size sb sb'' :=
  Relation.ReflTransGen.trans h h'

theorem Edits.clear (h : Edits cfg size sb sb') : Edits cfg size sb (sendbufClear sb') :=
  h.tail (.clear sb')

theorem Edits.flush (h : Edits cfg size sb sb') : Edits cfg size sb (sendbufFlush sb') :=
  h.tail (.flush sb')

theorem flush_dataSize (sb : SendBuf ι) : (sendbufFlush sb).dataSize = sb.dataSize := by
  unfold sendbufFlush
  split_ifs <;> rfl

theorem Edit.cleared (h : Edit cfg size sb sb') (cleared : batchHeader ≤ sb.dataSize) :
    batchHeader ≤ sb'.dataSize := by
  cases h with
  | clear => exact le_rfl
  | flush => rwa [flush_dataSize]
  | add x =>
    unfold sendbufAdd
    dsimp only
    split_ifs
    · exact Nat.le_add_right _ _
    · exact cleared.trans (Nat.le_add_right _ _)

theorem Edits.cleared (h : Edits cfg size sb sb') (cleared : batchHeader ≤ sb.dataSize) :
    batchHeader ≤ sb'.dataSize := by
  induction h with
  | refl => exact cleared
  | tail _ edit ih => exact edit.cleared ih

theorem Edits.add (h : Edits cfg size sb sb') (cleared : batchHeader ≤ sb.dataSize) (x : ι) :
    Edits cfg size sb (sendbufAdd cfg size sb' x) :=
  h.tail (.add sb' x (h.cleared cleared))

theorem edits_run {σ α : Type} (buffer : σ → SendBuf ι) {handle : σ → α → σ}
    (turn : ∀ t a, buffer (handle t a) = buffer t ∨
      ∃ x, buffer (handle t a) = sendbufAdd cfg size (buffer t) x)
    (s : σ) (cleared : batchHeader ≤ (buffer s).dataSize) (items : List α) :
    Edits cfg size (buffer s) (buffer (run handle s items)) := by
  refine run_invariant (fun t => Edits cfg size (buffer s) (buffer t)) (.refl _)
    fun t a edits => ?_
  rcases turn t a with same | ⟨x, added⟩
  · rwa [same]
  · rw [added]
    exact edits.add cleared x

theorem oneMessage_nil : OneMessage cfg size [] := .inl (Nat.zero_le 1)

theorem whole_new : Whole cfg size (sendbufNew : SendBuf ι) where
  sent := fun _ none => nomatch none
  items := oneMessage_nil
  dataSize := fun header => absurd header (Nat.not_succ_le_zero 3)

theorem Whole.clear (h : Whole cfg size sb) : Whole cfg size (sendbufClear sb) :=
  ⟨h.sent, oneMessage_nil, fun _ => le_rfl⟩

theorem Whole.flush (h : Whole cfg size sb) : Whole cfg size (sendbufFlush sb) := by
  unfold sendbufFlush
  split_ifs
  · exact ⟨List.forall_mem_append.mpr ⟨h.sent, List.forall_mem_singleton.mpr h.items⟩,
      h.items, h.dataSize⟩
  · exact h

theorem Whole.add (h : Whole cfg size sb) (cleared : batchHeader ≤ sb.dataSize) (x : ι) :
    Whole cfg size (sendbufAdd cfg size sb x) := by
  unfold sendbufAdd
  dsimp only
  split_ifs with full
  · refine ⟨h.flush.sent, .inl le_rfl, fun _ => ?_⟩
    simp [sendbufClear]
  · have sum := h.dataSize cleared
    refine ⟨h.sent, .inr ?_, fun _ => ?_⟩
    · rw [List.map_append, List.sum_append, List.map_singleton, List.sum_singleton]
      omega
    · rw [List.map_append, List.sum_append, List.map_singleton, List.sum_singleton]
      change _ ≤ sb.dataSize + size x
      omega

theorem add_grows (cfg : Config) (size : ι → ℕ) (sb : SendBuf ι) (x : ι) :
    sb.sent <+: (sendbufAdd cfg size sb x).sent := by
  unfold sendbufAdd
  dsimp only
  split_ifs
  · exact flush_prefix sb
  · exact List.prefix_refl _

theorem Edits.continues (h : Edits cfg size sb sb') : Continues cfg size sb sb' := by
  induction h with
  | refl => exact .refl sb
  | tail _ edit ih =>
    refine ih.trans ?_
    cases edit with
    | clear => exact ⟨List.prefix_refl _, Whole.clear⟩
    | flush => exact ⟨ flush_prefix _, Whole.flush⟩
    | add x cleared => exact ⟨add_grows cfg size _ x, fun whole => whole.add cleared x⟩

end Buffers

structure Writes (cfg : Config) (s t : LeaderState) : Prop where
  proposerId : t.thisProposerId = s.thisProposerId
  prepares : Edits cfg prepareReqSize s.prepareBuf t.prepareBuf
  accepts : Edits cfg acceptReqSize s.acceptBuf t.acceptBuf

section Leader

variable {base s t u : LeaderState} (clock : ℕ → Timeval)

theorem Writes.refl (s : LeaderState) : Writes cfg s s := ⟨rfl, .refl _, .refl _⟩

theorem Writes.trans (h : Writes cfg s t) (h' : Writes cfg t u) : Writes cfg s u :=
  ⟨h'.proposerId.trans h.proposerId, h.prepares.trans h'.prepares, h.accepts.trans h'.accepts⟩

theorem Writes.quiet (h : Writes cfg base s) (proposerId : t.thisProposerId = s.thisProposerId)
    (prepares : t.prepareBuf = s.prepareBuf) (accepts : t.acceptBuf = s.acceptBuf) :
    Writes cfg base t :=
  ⟨proposerId.trans h.proposerId, prepares ▸ h.prepares, accepts ▸ h.accepts⟩

theorem writes_clearPrepareBuf (s : LeaderState) : Writes cfg s (clearPrepareBuf s) :=
  ⟨rfl, (Edits.refl _).clear, .refl _⟩

theorem Writes.flushPrepareBuf (h : Writes cfg base s) : Writes cfg base (flushPrepareBuf s) :=
  ⟨h.proposerId, h.prepares.flush, h.accepts⟩

theorem writes_clearAcceptBuf (s : LeaderState) : Writes cfg s (clearAcceptBuf s) :=
  ⟨rfl, .refl _, (Edits.refl _).clear⟩

theorem Writes.flushAcceptBuf (h : Writes cfg base s) : Writes cfg base (flushAcceptBuf s) :=
  ⟨h.proposerId, h.prepares, h.accepts.flush⟩

theorem Writes.sendPrepare (h : Writes cfg base s)
    (cleared : batchHeader ≤ base.prepareBuf.dataSize) (slot : ℕ) (ii : PInstInfo) :
    Writes cfg base (leaderSendPrepare cfg clock s slot ii) :=
  ⟨h.proposerId, h.prepares.add cleared _, h.accepts⟩

theorem Writes.sendAccept (h : Writes cfg base s) (cleared : batchHeader ≤ base.acceptBuf.dataSize)
    (slot : ℕ) (ii : PInstInfo) (value : Value) :
    Writes cfg base (leaderSendAccept cfg clock s slot ii value) :=
  ⟨h.proposerId, h.prepares, h.accepts.add cleared _⟩

theorem Writes.executeP2 (h : Writes cfg base s) (cleared : batchHeader ≤ base.acceptBuf.dataSize)
    (slot : ℕ) : Writes cfg base (leaderExecuteP2 cfg clock s slot).state := by
  rcases leaderExecuteP2_cases clock cfg s slot with stopped | ⟨vh, value, -, done⟩
  · rw [stopped]
    exact h
  · rw [done]
    have taken : Writes cfg base (s.withValues vh) := h.quiet rfl rfl rfl
    exact taken.sendAccept clock cleared slot _ value

theorem checkP1Pending_writes (timeNow : Timeval) (s : LeaderState) :
    Writes cfg s (leaderCheckP1Pending cfg clock timeNow s).state := by
  unfold leaderCheckP1Pending
  rw [Outcome.state_map]
  refine (writes_clearPrepareBuf s).trans (Writes.flushPrepareBuf ?_)
  refine Outcome.fold_kept (Writes cfg (clearPrepareBuf s)) (.refl _) fun iid _ t written => ?_
  unfold leaderCheckP1Instance
  dsimp only
  split_ifs
  · exact written.sendPrepare clock le_rfl _ _
  · exact written
  · exact written

theorem openInstancesP1_writes (s : LeaderState) :
    Writes cfg s (leaderOpenInstancesP1 cfg clock s).state := by
  unfold leaderOpenInstancesP1
  split_ifs
  · exact .refl s
  · exact .refl s
  · dsimp only
    split_ifs
    · exact writes_clearPrepareBuf s
    · refine (writes_clearPrepareBuf s).trans (Outcome.bind_kept ?_ fun t _ written =>
        written.flushPrepareBuf.quiet rfl rfl rfl)
      refine Outcome.fold_kept (Writes cfg (clearPrepareBuf s)) (.refl _) fun iid _ t written => ?_
      unfold leaderOpenInstanceP1
      dsimp only
      split_ifs
      · exact written.sendPrepare clock le_rfl _ _
      · exact written

theorem periodicP1Check_writes (timeNow : Timeval) (s : LeaderState) :
    Writes cfg s (leaderPeriodicP1Check cfg clock timeNow s).state :=
  Outcome.bind_kept (checkP1Pending_writes clock timeNow s) fun t _ written =>
    written.trans (openInstancesP1_writes clock t)

theorem Writes.openExpired (cleared : batchHeader ≤ base.acceptBuf.dataSize) (iids : List ℕ)
    (count : UInt32) (h : Writes cfg base s) :
    Writes cfg base (leaderOpenExpired cfg clock iids count s).state.1 := by
  induction iids generalizing count s with
  | nil => exact h
  | cons iid rest ih =>
    unfold leaderOpenExpired
    dsimp only
    split_ifs
    · have first : Writes cfg base (leaderExecuteP2 cfg clock s (cfg.proIndex iid)).state :=
        h.executeP2 clock cleared _
      cases done : leaderExecuteP2 cfg clock s (cfg.proIndex iid) with
      | running t =>
        rw [done] at first
        exact ih (count + 1) first
      | aborted fault t =>
        rw [done] at first
        exact first
    · exact h
    · exact ih count h
    · exact h

theorem openInstancesP2Expired_writes (s : LeaderState) :
    Writes cfg s (leaderOpenInstancesP2Expired cfg clock s).state := by
  have loop (iids : List ℕ) : Writes cfg (clearAcceptBuf s)
      (leaderOpenExpired cfg clock iids 0 (clearAcceptBuf s)).state.1 :=
    Writes.openExpired clock le_rfl iids 0 (.refl _)
  replace loop := loop (List.range' s.currentIid (s.p2Info.nextUnusedIid - s.currentIid))
  refine (writes_clearAcceptBuf s).trans ?_
  unfold leaderOpenInstancesP2Expired
  revert loop
  generalize leaderOpenExpired cfg clock _ 0 (clearAcceptBuf s) = o
  intro loop
  cases o with
  | running r => exact (loop.quiet (t := leaderTakeReady r.1 r.2) rfl rfl rfl).flushAcceptBuf
  | aborted fault r => exact loop

theorem Writes.openNew (cleared : batchHeader ≤ base.acceptBuf.dataSize) (turns : ℕ)
    (count : UInt32) (h : Writes cfg base s) :
    Writes cfg base (leaderOpenNew cfg clock turns count s).state.1 := by
  induction turns generalizing count s with
  | zero => exact h
  | succ turns ih =>
    unfold leaderOpenNew
    dsimp only
    split_ifs
    · exact h
    · exact h
    · exact h
    · have first : Writes cfg base
          (leaderExecuteP2 cfg clock s (cfg.proIndex s.p2Info.nextUnusedIid)).state :=
        h.executeP2 clock cleared _
      cases done : leaderExecuteP2 cfg clock s (cfg.proIndex s.p2Info.nextUnusedIid) with
      | running t =>
        rw [done] at first
        exact ih (count + 1) (first.quiet (t := leaderUseNext t) rfl rfl rfl)
      | aborted fault t =>
        rw [done] at first
        exact first

theorem openInstancesP2New_writes (s : LeaderState) :
    Writes cfg s (leaderOpenInstancesP2New cfg clock s).state := by
  have loop (turns : ℕ) : Writes cfg (clearAcceptBuf s)
      (leaderOpenNew cfg clock turns 0 (clearAcceptBuf s)).state.1 :=
    Writes.openNew clock le_rfl turns 0 (.refl _)
  replace loop := loop (cfg.proposerP2Concurrency + 1 - s.p2Info.openCount.toNat)
  unfold leaderOpenInstancesP2New
  dsimp only
  split_ifs
  · exact .refl s
  · refine (writes_clearAcceptBuf s).trans ?_
    revert loop
    generalize leaderOpenNew cfg clock _ 0 (clearAcceptBuf s) = o
    intro loop
    cases o with
    | running r =>
      exact (loop.quiet (t := leaderAddOpen (leaderTakeReady r.1 r.2) r.2) rfl rfl
        rfl).flushAcceptBuf
    | aborted fault r => exact loop

theorem periodicP2Check_writes (isClosed : ℕ → Bool) (timeNow : Timeval) (s : LeaderState) :
    Writes cfg s (leaderPeriodicP2Check cfg clock isClosed timeNow s).state := by
  refine Writes.trans ?_ (openInstancesP2New_writes clock _)
  refine (writes_clearPrepareBuf s).trans (Writes.flushPrepareBuf ?_)
  refine run_invariant (Writes cfg (clearPrepareBuf s)) (.refl _) fun t iid written => ?_
  unfold leaderCheckP2Instance
  dsimp only
  split_ifs
  · exact written
  · exact written.quiet rfl rfl rfl
  · have restarted : Writes cfg (clearPrepareBuf s) (leaderSendPrepare cfg clock t
        (cfg.proIndex iid) (restartPhase1 cfg (t.proposerState (cfg.proIndex iid)))) :=
      written.sendPrepare clock le_rfl _ _
    exact restarted.quiet rfl rfl rfl
  · exact written

theorem deliver_writes (s : LeaderState) (value : Value) (iid : ℕ) :
    Writes cfg s (leaderDeliver cfg clock s value iid).state := by
  unfold leaderDeliver
  dsimp only
  split_ifs
  · exact .refl s
  · refine Writes.trans ?_ (openInstancesP2New_writes clock _)
    exact (Writes.refl s).quiet rfl rfl rfl

theorem init_writes (timeNow : Timeval) (s : LeaderState) :
    Writes cfg s (leaderInit cfg clock timeNow s).state := by
  have reset : Writes cfg s (leaderResetP1 s) := (Writes.refl s).quiet rfl rfl rfl
  exact Outcome.bind_kept (reset.trans (periodicP1Check_writes clock timeNow _))
    fun _ _ written => written.quiet rfl rfl rfl

theorem shutdown_writes (s : LeaderState) : Writes cfg s (leaderShutdown cfg s) := by
  have dropped : Writes cfg s (run (leaderDropInstance cfg) s
      (List.range' s.currentIid (s.p1Info.highestOpen + 1 - s.currentIid))) :=
    run_invariant (Writes cfg s) (.refl s) fun _ _ written => written.quiet rfl rfl rfl
  exact dropped.quiet rfl rfl rfl

theorem prepareAck_writes (acceptorId : ℕ) (s : LeaderState) (pa : PrepareAck) :
    Writes cfg s (handlePrepareAck cfg acceptorId s pa).1 := by
  unfold handlePrepareAck
  dsimp only
  split_ifs <;> exact (Writes.refl s).quiet rfl rfl rfl

theorem prepareAcks_writes (acceptorId : ℕ) (s : LeaderState) (acks : List PrepareAck) :
    Writes cfg s (handlePrepareAcks cfg acceptorId s acks).1 :=
  run_invariant (fun r : LeaderState × ℕ => Writes cfg s r.1) (.refl s) fun r pa written =>
    written.trans (prepareAck_writes acceptorId r.1 pa)

end Leader

theorem withLeader_writes {s : ProposerState} {o : LeaderOutcome}
    (h : Writes cfg s.leader o.state) : Writes cfg s.leader (s.withLeader o).state.leader := by
  rw [withLeader_leader]
  exact h

theorem deliverCallback_writes (clock : ℕ → Timeval) (s : ProposerState) (d : Delivery) :
    Writes cfg s.leader (proDeliverCallback cfg clock s d).state.leader := by
  have logged : Writes cfg s.leader (s.leader.log (.delivered d.iid d.value)) :=
    (Writes.refl s.leader).quiet rfl rfl rfl
  refine withLeader_writes (Outcome.bind_kept ?_ fun t _ written => written.quiet rfl rfl rfl)
  split_ifs
  · exact logged.trans (deliver_writes clock _ d.value d.iid)
  · exact logged

theorem proposerHandle_writes (s : ProposerState) (e : ProposerEvent) :
    Writes cfg s.leader (proposerHandle cfg s e).state.leader := by
  cases e with
  | submit value => exact (Writes.refl s.leader).quiet rfl rfl rfl
  | leaderAnnounce currentLeader clock timeNow =>
    have announced (o : LeaderOutcome) : ((s.withLeader o).bind fun s =>
        .running { s with currentLeaderId := currentLeader }).state.leader = o.state := by
      cases o <;> rfl
    unfold proposerHandle proHandleLeaderAnnounce
    dsimp only
    split_ifs
    · rw [announced]
      exact shutdown_writes s.leader
    · rw [announced]
      exact init_writes clock timeNow s.leader
    · rw [announced]
      exact .refl s.leader
  | p1Check clock timeNow =>
    unfold proposerHandle
    split_ifs
    · exact withLeader_writes (periodicP1Check_writes clock timeNow s.leader)
    · exact .refl s.leader
  | p2Check clock timeNow =>
    unfold proposerHandle
    split_ifs
    · exact withLeader_writes (periodicP2Check_writes clock _ timeNow s.leader)
    · exact .refl s.leader
  | prepareAcks acceptorId acks clock =>
    have promised : Writes cfg s.leader (handlePrepareAcks cfg acceptorId s.leader acks).1 :=
      prepareAcks_writes acceptorId s.leader acks
    unfold proposerHandle handlePrepareAckBatch
    dsimp only
    split_ifs
    · refine withLeader_writes (promised.trans ?_)
      exact Outcome.bind_kept (openInstancesP2Expired_writes clock _) fun t _ written =>
        written.trans (openInstancesP2New_writes clock t)
    · exact promised
    · exact .refl s.leader
  | acceptAcks acceptorId acks clock =>
    have callbacks (learner : LearnerState) (ds : List Delivery) : Writes cfg s.leader
        (Outcome.fold (proDeliverCallback cfg clock) { s with learner } ds).state.leader :=
      Outcome.fold_kept (fun t : ProposerState => Writes cfg s.leader t.leader) (.refl s.leader)
        fun d _ t written => written.trans (deliverCallback_writes clock t d)
    unfold proposerHandle proHandleAcceptAckBatch
    dsimp only
    cases Paxos2Learner.handleAcceptAckBatch cfg s.learner acceptorId acks with
    | running r => exact callbacks r.1 r.2
    | aborted fault r =>
      exact Outcome.bind_kept (I := fun t : ProposerState => Writes cfg s.leader t.leader)
        (callbacks r.1 r.2) fun _ _ written => written
  | holeCheck => exact .refl s.leader

theorem proposerStep_writes (o : ProposerOutcome) (e : ProposerEvent) :
    Writes cfg o.state.leader (proposerStep cfg o e).state.leader := by
  cases o with
  | running s => exact proposerHandle_writes s e
  | aborted fault s => exact .refl s.leader

theorem proposerInit_writes (clock : ℕ → Timeval) (timeNow : Timeval) (p : ℕ) :
    Writes cfg (initProStructs p) (proposerInit cfg clock timeNow p).state.leader := by
  unfold proposerInit
  dsimp only
  split_ifs
  · rw [withLeader_leader]
    exact init_writes clock timeNow _
  · exact .refl _

theorem leaDeliverNextClosed_toAcceptors (fuel : ℕ) (ls : LearnerState) :
    (leaDeliverNextClosed cfg fuel ls).state.1.toAcceptors = ls.toAcceptors := by
  induction fuel generalizing ls with
  | zero => rfl
  | succ fuel ih =>
    unfold leaDeliverNextClosed
    dsimp only
    split
    · rfl
    · split_ifs
      · rw [Outcome.state_map]
        exact ih (leaMoveToNext cfg ls)
      · rfl

theorem leaCheckQuorum_toAcceptors (cfg : Config) (ls : LearnerState) (slot : ℕ) :
    (leaCheckQuorum cfg ls slot).1.toAcceptors = ls.toAcceptors := by
  unfold leaCheckQuorum
  dsimp only
  split_ifs <;> rfl

theorem handleAcceptAck_toAcceptors (ls : LearnerState) (a : ℕ) (aa : AcceptAck) :
    (handleAcceptAck cfg ls a aa).state.1.toAcceptors = ls.toAcceptors := by
  unfold handleAcceptAck
  dsimp only
  split_ifs
  · rfl
  · rfl
  · split
    · rfl
    · rename_i ii relevant _
      split_ifs
      · have checked := leaCheckQuorum_toAcceptors cfg
          ((leaSeen ls aa).withSlot (cfg.leaIndex aa.iid) ii) (cfg.leaIndex aa.iid)
        split
        · rename_i quorum
          rw [quorum] at checked
          exact checked
        · rename_i quorum
          rw [quorum] at checked
          split_ifs
          · rw [leaDeliverNextClosed_toAcceptors]
            exact checked
          · exact checked
      · rfl

theorem learnerRun_toAcceptors (cfg : Config) (lr : LearnerRun) (msgs : List (ℕ × AcceptAck)) :
    (run (learnerStep cfg) lr msgs).state.1.toAcceptors = lr.state.1.toAcceptors := by
  refine run_invariant (fun lr' : LearnerRun =>
    lr'.state.1.toAcceptors = lr.state.1.toAcceptors) rfl fun lr' msg same => ?_
  cases lr' with
  | running r =>
    change ((handleAcceptAck cfg r.1 msg.1 msg.2).map
      fun r' : LearnerState × List Delivery => (r'.1, r.2 ++ r'.2)).state.1.toAcceptors = _
    rw [Outcome.state_map]
    exact (handleAcceptAck_toAcceptors r.1 msg.1 msg.2).trans same
  | aborted fault r => exact same

theorem sendRepeatRequest_edits (ls : LearnerState) (first last : ℕ) :
    Edits cfg repeatReqSize ls.toAcceptors
      (leaSendRepeatRequest cfg ls first last).toAcceptors := by
  refine (Edits.refl _).clear.trans (Edits.flush ?_)
  refine edits_run LearnerState.toAcceptors (fun t iid => ?_)
    { ls with toAcceptors := sendbufClear ls.toAcceptors } le_rfl _
  unfold leaRequestRepeat
  split_ifs
  · exact .inl rfl
  · exact .inr ⟨iid, rfl⟩

theorem holeCheck_edits (ls : LearnerState) :
    Edits cfg repeatReqSize ls.toAcceptors (leaHoleCheck cfg ls).toAcceptors := by
  unfold leaHoleCheck
  split_ifs
  · exact sendRepeatRequest_edits ls _ _
  · exact sendRepeatRequest_edits ls _ _
  · exact .refl _

theorem eventLearner_edits (s : ProposerState) (e : ProposerEvent) :
    Edits cfg repeatReqSize s.learner.toAcceptors
      (Paxos2LeaderMoves.eventLearner cfg s e).toAcceptors := by
  cases e with
  | acceptAcks a acks clock =>
    have same := learnerRun_toAcceptors cfg (.running (s.learner, []))
      (acks.map fun aa => (a, aa))
    change Edits cfg repeatReqSize s.learner.toAcceptors (run (learnerStep cfg)
      (.running (s.learner, [])) (acks.map fun aa => (a, aa))).state.1.toAcceptors
    rw [same]
    exact .refl _
  | holeCheck => exact holeCheck_edits s.learner
  | submit | leaderAnnounce | p1Check | p2Check | prepareAcks => exact .refl _

theorem proposerStep_requests (o : ProposerOutcome) (e : ProposerEvent) :
    Edits cfg repeatReqSize o.state.learner.toAcceptors
      (proposerStep cfg o e).state.learner.toAcceptors := by
  cases o with
  | running s =>
    change Edits cfg repeatReqSize s.learner.toAcceptors
      (proposerHandle cfg s e).state.learner.toAcceptors
    rw [Paxos2LeaderMoves.proposerHandle_learner]
    exact eventLearner_edits s e
  | aborted fault s => exact .refl _

structure Answers (cfg : Config) (s t : AcceptorState) : Prop where
  acceptorId : t.thisAcceptorId = s.thisAcceptorId
  promises : Edits cfg prepareAckSize s.toProposers t.toProposers
  acks : Edits cfg acceptAckSize s.toLearners t.toLearners

theorem Answers.refl (s : AcceptorState) : Answers cfg s s := ⟨rfl, .refl _, .refl _⟩

theorem newmsg_answers (s : AcceptorState) (msg : PaxosMsg) :
    Answers cfg s (accHandleNewmsg cfg s msg) := by
  cases msg with
  | prepareReqs p prepares =>
    have kept : (handlePrepareReqBatch cfg s prepares).toLearners = s.toLearners ∧
        (handlePrepareReqBatch cfg s prepares).thisAcceptorId = s.thisAcceptorId :=
      prepares_keep_learners s prepares
    obtain ⟨others, acceptorId⟩ := kept
    refine ⟨acceptorId, (Edits.refl _).clear.trans (Edits.flush ?_), ?_⟩
    · refine edits_run AcceptorState.toProposers (fun t pr => ?_) s.clearToProposers
        le_rfl prepares
      rcases handlePrepareReq_cases cfg t pr with same | ⟨rec, -, -, saved⟩
      · exact .inl (congrArg _ same)
      · exact .inr ⟨_, congrArg AcceptorState.toProposers saved⟩
    · change Edits cfg acceptAckSize s.toLearners
        (handlePrepareReqBatch cfg s prepares).toLearners
      rw [others]
      exact .refl _
  | acceptReqs p accepts =>
    have kept : (handleAcceptReqBatch cfg s accepts).toProposers = s.toProposers ∧
        (handleAcceptReqBatch cfg s accepts).thisAcceptorId = s.thisAcceptorId :=
      accepts_keep_proposers s accepts
    obtain ⟨others, acceptorId⟩ := kept
    refine ⟨acceptorId, ?_, (Edits.refl _).clear.trans (Edits.flush ?_)⟩
    · change Edits cfg prepareAckSize s.toProposers
        (handleAcceptReqBatch cfg s accepts).toProposers
      rw [others]
      exact .refl _
    · refine edits_run AcceptorState.toLearners (fun t ar => ?_) s.clearToLearners
        le_rfl accepts
      rcases handleAcceptReq_cases cfg t ar with ⟨_, _, _, same⟩ | ⟨-, saved⟩
      · exact .inl (congrArg _ same)
      · exact .inr ⟨_, congrArg AcceptorState.toLearners saved⟩
  | repeatReqs requests =>
    have kept : (handleRepeatReqBatch cfg s requests).toProposers = s.toProposers ∧
        (handleRepeatReqBatch cfg s requests).thisAcceptorId = s.thisAcceptorId :=
      repeats_keep_proposers s requests
    obtain ⟨others, acceptorId⟩ := kept
    refine ⟨acceptorId, ?_, (Edits.refl _).clear.trans (Edits.flush ?_)⟩
    · change Edits cfg prepareAckSize s.toProposers
        (handleRepeatReqBatch cfg s requests).toProposers
      rw [others]
      exact .refl _
    · refine edits_run AcceptorState.toLearners (fun t iid => ?_) s.clearToLearners
        le_rfl requests
      rcases handleRepeatReq_cases cfg t iid with same | ⟨rec, -, -, repeated⟩
      · exact .inl (congrArg _ same)
      · exact .inr ⟨_, congrArg AcceptorState.toLearners repeated⟩
  | prepareAcks | acceptAcks | submit | leaderAnnounce => exact .refl s

theorem periodicRepeat_answers (s : AcceptorState) :
    Answers cfg s (accPeriodicRepeater cfg s).state := by
  unfold accPeriodicRepeater
  split_ifs
  · cases found : Paxos2StableStorage.stablestorageGetRecord s.storage s.highestAcceptedIid with
    | none =>
      rw [retransmit_of_no_record found]
      exact ⟨rfl, .refl _, (Edits.refl _).clear⟩
    | some rec =>
      rw [retransmit_of_record found]
      have added : Edits cfg acceptAckSize (sendbufClear s.toLearners) _ :=
        (Edits.refl _).add le_rfl rec
      exact ⟨rfl, .refl _, ((Edits.refl _).clear.trans added).flush⟩
  · exact .refl s

variable {w w' w'' : World}

structure WorldContinues (cfg : Config) (w w' : World) : Prop where
  proposerIds : ∀ p, (w'.proposers p).state.leader.thisProposerId =
    (w.proposers p).state.leader.thisProposerId
  acceptorIds : ∀ a, (w'.acks.acceptors a).state.thisAcceptorId =
    (w.acks.acceptors a).state.thisAcceptorId
  prepares : ∀ p, Continues cfg prepareReqSize (w.proposers p).state.leader.prepareBuf
    (w'.proposers p).state.leader.prepareBuf
  accepts : ∀ p, Continues cfg acceptReqSize (w.proposers p).state.leader.acceptBuf
    (w'.proposers p).state.leader.acceptBuf
  requests : ∀ p, Continues cfg repeatReqSize (w.proposers p).state.learner.toAcceptors
    (w'.proposers p).state.learner.toAcceptors
  promises : ∀ a, Continues cfg prepareAckSize (w.acks.acceptors a).state.toProposers
    (w'.acks.acceptors a).state.toProposers
  acks : ∀ a, Continues cfg acceptAckSize (w.acks.acceptors a).state.toLearners
    (w'.acks.acceptors a).state.toLearners
  repeats : ∀ l, Continues cfg repeatReqSize (w.acks.learners l).state.1.toAcceptors
    (w'.acks.learners l).state.1.toAcceptors

theorem WorldContinues.refl (w : World) : WorldContinues cfg w w :=
  ⟨fun _ => rfl, fun _ => rfl, fun _ => .refl _, fun _ => .refl _, fun _ => .refl _,
    fun _ => .refl _, fun _ => .refl _, fun _ => .refl _⟩

theorem WorldContinues.trans (h : WorldContinues cfg w w') (h' : WorldContinues cfg w' w'') :
    WorldContinues cfg w w'' where
  proposerIds := fun p => (h'.proposerIds p).trans (h.proposerIds p)
  acceptorIds := fun a => (h'.acceptorIds a).trans (h.acceptorIds a)
  prepares := fun p => (h.prepares p).trans (h'.prepares p)
  accepts := fun p => (h.accepts p).trans (h'.accepts p)
  requests := fun p => (h.requests p).trans (h'.requests p)
  promises := fun a => (h.promises a).trans (h'.promises a)
  acks := fun a => (h.acks a).trans (h'.acks a)
  repeats := fun l => (h.repeats l).trans (h'.repeats l)

theorem WorldContinues.ofProposers (acks : w'.acks = w.acks)
    (writes : ∀ p, Writes cfg (w.proposers p).state.leader (w'.proposers p).state.leader)
    (requests : ∀ p, Edits cfg repeatReqSize (w.proposers p).state.learner.toAcceptors
      (w'.proposers p).state.learner.toAcceptors) : WorldContinues cfg w w' where
  proposerIds := fun p => (writes p).proposerId
  acceptorIds := fun _ => by rw [acks]
  prepares := fun p => (writes p).prepares.continues
  accepts := fun p => (writes p).accepts.continues
  requests := fun p => (requests p).continues
  promises := fun a => by rw [acks]; exact .refl _
  acks := fun a => by rw [acks]; exact .refl _
  repeats := fun l => by rw [acks]; exact .refl _

theorem Answers.continues {s t : AcceptorState} (h : Answers cfg s t) :
    t.thisAcceptorId = s.thisAcceptorId ∧
      Continues cfg prepareAckSize s.toProposers t.toProposers ∧
      Continues cfg acceptAckSize s.toLearners t.toLearners :=
  ⟨h.acceptorId, h.promises.continues, h.acks.continues⟩

theorem CrashedBetween.continues {s t u : AcceptorState} (crash : CrashedBetween s t u)
    (h : Answers cfg s t) :
    u.thisAcceptorId = s.thisAcceptorId ∧
      Continues cfg prepareAckSize s.toProposers u.toProposers ∧
      Continues cfg acceptAckSize s.toLearners u.toLearners := by
  have restarted {ι : Type} {size : ι → ℕ} {sb sb' sb'' : SendBuf ι}
      (edits : Edits cfg size sb sb') (grows : sb.sent <+: sb''.sent)
      (sent : sb''.sent <+: sb'.sent)
      (fresh : sb'' = { sendbufNew with sent := sb''.sent }) : Continues cfg size sb sb'' := by
    refine ⟨grows, fun whole => ?_⟩
    rw [fresh]
    exact ⟨fun batch hb => (edits.continues.whole whole).sent batch (sent.subset hb),
      oneMessage_nil, fun header => absurd header (Nat.not_succ_le_zero 3)⟩
  refine ⟨crash.acceptorId.trans h.acceptorId, ?_, ?_⟩
  · exact restarted h.promises crash.promises.1 crash.promises.2
      (congrArg AcceptorState.toProposers crash.fresh)
  · exact restarted h.acks crash.acks.1 crash.acks.2
      (congrArg AcceptorState.toLearners crash.fresh)

theorem WorldContinues.ofAcceptor {a : ℕ} {o : Outcome AcceptorFault AcceptorState}
    (h : o.state.thisAcceptorId = (w.acks.acceptors a).state.thisAcceptorId ∧
      Continues cfg prepareAckSize (w.acks.acceptors a).state.toProposers o.state.toProposers ∧
      Continues cfg acceptAckSize (w.acks.acceptors a).state.toLearners o.state.toLearners) :
    WorldContinues cfg w { w with
      acks := { w.acks with acceptors := Function.update w.acks.acceptors a o } } := by
  have each (a' : ℕ) :
      (Function.update w.acks.acceptors a o a').state.thisAcceptorId =
          (w.acks.acceptors a').state.thisAcceptorId ∧
        Continues cfg prepareAckSize (w.acks.acceptors a').state.toProposers
          (Function.update w.acks.acceptors a o a').state.toProposers ∧
        Continues cfg acceptAckSize (w.acks.acceptors a').state.toLearners
          (Function.update w.acks.acceptors a o a').state.toLearners := by
    rw [Function.update_apply]
    split_ifs with here
    · rw [here]
      exact h
    · exact ⟨rfl, .refl _, .refl _⟩
  exact ⟨fun _ => rfl, fun a => (each a).1, fun _ => .refl _, fun _ => .refl _, fun _ => .refl _,
    fun a => (each a).2.1, fun a => (each a).2.2, fun _ => .refl _⟩

theorem WorldContinues.ofLearner {l : ℕ} {lr : LearnerRun}
    (h : Edits cfg repeatReqSize (w.acks.learners l).state.1.toAcceptors lr.state.1.toAcceptors) :
    WorldContinues cfg w { w with
      acks := { w.acks with learners := Function.update w.acks.learners l lr } } := by
  refine ⟨fun _ => rfl, fun _ => rfl, fun _ => .refl _, fun _ => .refl _, fun _ => .refl _,
    fun _ => .refl _, fun _ => .refl _, fun l' => ?_⟩
  simp only [Function.update_apply]
  split_ifs with here
  · rw [here]
    exact h.continues
  · exact .refl _

theorem ackStep_continues (w : World) (e : AckEvent) :
    WorldContinues cfg w { w with acks := ackStep cfg w.acks e } := by
  cases e with
  | request a msg =>
    refine WorldContinues.ofAcceptor (Answers.continues ?_)
    cases w.acks.acceptors a with
    | running s => exact newmsg_answers s msg
    | aborted fault s => exact .refl s
  | repeatLatest a =>
    refine WorldContinues.ofAcceptor (Answers.continues ?_)
    cases w.acks.acceptors a with
    | running s => exact periodicRepeat_answers s
    | aborted fault s => exact .refl s
  | acceptAcks l a acks =>
    simp only [ackStep]
    split_ifs
    · refine WorldContinues.ofLearner ?_
      rw [learnerRun_toAcceptors]
      exact .refl _
    · exact .refl w
  | holeCheck l =>
    refine WorldContinues.ofLearner ?_
    cases w.acks.learners l with
    | running r => exact holeCheck_edits r.1
    | aborted fault r => exact .refl _

theorem crashStep_continues (cfg : Config) (w : World) (e : CrashEvent) :
    WorldContinues cfg w (crashStep cfg w e) := by
  cases e with
  | world e =>
    by_cases possible : Possible cfg w e
    · cases e with
      | proposer p e =>
        rw [crashStep, worldStep_proposer possible]
        refine .ofProposers rfl (fun q => ?_) fun q => ?_
        · simp only [Function.update_apply]
          split_ifs with here
          · rw [here]
            exact proposerStep_writes _ e
          · exact .refl _
        · simp only [Function.update_apply]
          split_ifs with here
          · rw [here]
            exact proposerStep_requests _ e
          · exact .refl _
      | acks e =>
        rw [crashStep, worldStep_acks possible]
        exact ackStep_continues w e
    · rw [crashStep, worldStep_of_impossible possible]
      exact .refl w
  | crash a msg n =>
    simp only [crashStep]
    split_ifs
    · refine WorldContinues.ofAcceptor ?_
      cases w.acks.acceptors a with
      | running s =>
        obtain ⟨k, crash⟩ := crash_keeps_first_items cfg s msg n
        exact CrashedBetween.continues crash (newmsg_answers s (firstItems k msg))
      | aborted fault s =>
        exact CrashedBetween.continues (crashedBetween_recover s) (.refl s)
    · exact .refl w

end FdsPaxos.Paxos2BufferEdits
