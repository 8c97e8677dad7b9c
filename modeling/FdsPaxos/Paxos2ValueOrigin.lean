import FdsPaxos.Paxos2CrashAgreement

set_option autoImplicit false

namespace FdsPaxos.Paxos2ValueOrigin
open TransitionRuns CircularWindow Paxos2Config Paxos2Messages Paxos2SendBuffer
open Paxos2StableStorage Paxos2ValuesHandler Paxos2Acceptor Paxos2AcceptorSafety Paxos2Learner
open Paxos2LearnerDelivery Paxos2Leader Paxos2Proposer Paxos2AckWorld Paxos2World
open Paxos2CrashRecovery Paxos2CrashAgreement
open Paxos2Agreement (DeliveredIn)

variable {cfg : Config} {P : Value → Prop}

section Leader

variable {s t : LeaderState}

/-- All values of the leader satisfy `P`: those that wait, those of its instances and those of
its accept requests. -/
structure ValuesFrom (P : Value → Prop) (s : LeaderState) : Prop where
  pending : ∀ v ∈ s.valuesHandler.pendingList, P v
  found : ∀ slot v, (s.proposerState slot).p1Value = some v → P v
  own : ∀ slot v, (s.proposerState slot).p2Value = some v → P v
  requested : s.acceptBuf.All fun ar => P ar.value

theorem ValuesFrom.quiet (h : ValuesFrom P s)
    (pending : t.valuesHandler.pendingList = s.valuesHandler.pendingList)
    (slots : t.proposerState = s.proposerState)
    (requested : t.acceptBuf.All fun ar => P ar.value) : ValuesFrom P t where
  pending := pending ▸ h.pending
  found := slots ▸ h.found
  own := slots ▸ h.own
  requested := requested

theorem ValuesFrom.slot (h : ValuesFrom P s) {slot : ℕ} {ii : PInstInfo}
    (slots : t.proposerState = setSlot s.proposerState slot ii)
    (found : ∀ v, ii.p1Value = some v → P v) (own : ∀ v, ii.p2Value = some v → P v)
    (pending : ∀ v ∈ t.valuesHandler.pendingList, P v)
    (requested : t.acceptBuf.All fun ar => P ar.value) : ValuesFrom P t where
  pending := pending
  found := by
    intro k v
    rw [slots, setSlot_apply]
    split_ifs
    · exact found v
    · exact h.found k v
  own := by
    intro k v
    rw [slots, setSlot_apply]
    split_ifs
    · exact own v
    · exact h.own k v
  requested := requested

variable (clock : ℕ → Timeval)

theorem ValuesFrom.sendPrepare (h : ValuesFrom P s) (slot : ℕ) {ii : PInstInfo}
    (found : ∀ v, ii.p1Value = some v → P v) (own : ∀ v, ii.p2Value = some v → P v) :
    ValuesFrom P (leaderSendPrepare cfg clock s slot ii) :=
  h.slot rfl found own h.pending h.requested

/-- An accept request for a value that satisfies `P`. -/
theorem ValuesFrom.sendAccept (h : ValuesFrom P s) (slot : ℕ) {ii : PInstInfo} {value : Value}
    (found : ∀ v, ii.p1Value = some v → P v) (own : ∀ v, ii.p2Value = some v → P v)
    (good : P value) : ValuesFrom P (leaderSendAccept cfg clock s slot ii value) :=
  h.slot rfl found own h.pending (h.requested.add cfg _ good)

theorem ValuesFrom.clearPrepareBuf (h : ValuesFrom P s) : ValuesFrom P (clearPrepareBuf s) :=
  h.quiet rfl rfl h.requested

theorem ValuesFrom.flushPrepareBuf (h : ValuesFrom P s) : ValuesFrom P (flushPrepareBuf s) :=
  h.quiet rfl rfl h.requested

theorem ValuesFrom.clearAcceptBuf (h : ValuesFrom P s) : ValuesFrom P (clearAcceptBuf s) :=
  h.quiet rfl rfl h.requested.clear

theorem ValuesFrom.flushAcceptBuf (h : ValuesFrom P s) : ValuesFrom P (flushAcceptBuf s) :=
  h.quiet rfl rfl h.requested.flush

theorem ValuesFrom.checkP1Pending (h : ValuesFrom P s) (timeNow : Timeval) :
    ValuesFrom P (leaderCheckP1Pending cfg clock timeNow s).state := by
  unfold leaderCheckP1Pending
  rw [Outcome.state_map]
  apply ValuesFrom.flushPrepareBuf
  refine Outcome.fold_kept (ValuesFrom P) h.clearPrepareBuf fun iid _ t kept => ?_
  unfold leaderCheckP1Instance
  dsimp only
  split_ifs
  · exact kept.sendPrepare clock _ (fun _ none => nomatch none) (kept.own _)
  · exact kept
  · exact kept

theorem ValuesFrom.openInstancesP1 (h : ValuesFrom P s) :
    ValuesFrom P (leaderOpenInstancesP1 cfg clock s).state := by
  unfold leaderOpenInstancesP1
  split_ifs
  · exact h
  · exact h
  · dsimp only
    split_ifs
    · exact h.clearPrepareBuf
    · refine Outcome.bind_kept ?_ fun t _ kept => kept.flushPrepareBuf.quiet rfl rfl kept.requested
      refine Outcome.fold_kept (ValuesFrom P) h.clearPrepareBuf fun iid _ t kept => ?_
      unfold leaderOpenInstanceP1
      dsimp only
      split_ifs
      · exact kept.sendPrepare clock _ (kept.found _) (kept.own _)
      · exact kept

theorem ValuesFrom.periodicP1Check (h : ValuesFrom P s) (timeNow : Timeval) :
    ValuesFrom P (leaderPeriodicP1Check cfg clock timeNow s).state :=
  Outcome.bind_kept (h.checkP1Pending clock timeNow) fun _ _ kept => kept.openInstancesP1 clock

theorem ValuesFrom.executeP2 (h : ValuesFrom P s) (slot : ℕ) :
    ValuesFrom P (leaderExecuteP2 cfg clock s slot).state := by
  unfold leaderExecuteP2
  dsimp only
  cases p1 : (s.proposerState slot).p1Value with
  | some value =>
    have good : P value := h.found slot value p1
    have found : ValuesFrom P (s.withValues (if (s.proposerState slot).p2Value.isSome = true
        then s.valuesHandler else vhFound s.valuesHandler value)) := by
      refine h.quiet ?_ rfl h.requested
      simp only [LeaderState.withValues]
      split_ifs <;> rfl
    refine found.sendAccept clock slot (fun _ none => nomatch none) (fun v eq => ?_) good
    rw [← Option.some.inj eq]
    exact good
  | none =>
    cases p2 : (s.proposerState slot).p2Value with
    | none =>
      cases pending : s.valuesHandler.pendingList with
      | nil =>
        simp only [vhGetNextPending, pending]
        exact h
      | cons first rest =>
        simp only [vhGetNextPending, pending]
        have waiting : ∀ v ∈ first :: rest, P v := pending ▸ h.pending
        obtain ⟨good, others⟩ := List.forall_mem_cons.mp waiting
        have taken : ValuesFrom P (s.withValues { s.valuesHandler with pendingList := rest }) :=
          ⟨others, h.found, h.own, h.requested⟩
        refine taken.sendAccept clock slot (fun v eq => ?_) (fun v eq => ?_) good
        · cases eq
        · rw [← Option.some.inj eq]
          exact good
    | some value =>
      exact h.sendAccept clock slot (h.found slot) (h.own slot) (h.own slot value p2)

theorem ValuesFrom.openExpired (iids : List ℕ) (count : UInt32) (h : ValuesFrom P s) :
    ValuesFrom P (leaderOpenExpired cfg clock iids count s).state.1 := by
  induction iids generalizing count s with
  | nil => exact h
  | cons iid rest ih =>
    unfold leaderOpenExpired
    dsimp only
    split_ifs
    · have first : ValuesFrom P (leaderExecuteP2 cfg clock s (cfg.proIndex iid)).state :=
        h.executeP2 clock _
      cases done : leaderExecuteP2 cfg clock s (cfg.proIndex iid) with
      | running t =>
        rw [done] at first
        exact ih (count + 1) first
      | aborted fault t =>
        rw [done] at first
        exact first
    · exact h
    · exact ih count h
    · exact h

theorem ValuesFrom.openInstancesP2Expired (h : ValuesFrom P s) :
    ValuesFrom P (leaderOpenInstancesP2Expired cfg clock s).state := by
  have loop : ValuesFrom P (leaderOpenExpired cfg clock
      (List.range' s.currentIid (s.p2Info.nextUnusedIid - s.currentIid)) 0
      (Paxos2Leader.clearAcceptBuf s)).state.1 := h.clearAcceptBuf.openExpired clock _ 0
  unfold leaderOpenInstancesP2Expired
  cases done : leaderOpenExpired cfg clock
      (List.range' s.currentIid (s.p2Info.nextUnusedIid - s.currentIid)) 0
      (Paxos2Leader.clearAcceptBuf s) with
  | running r =>
    rw [done] at loop
    exact (loop.quiet (t := leaderTakeReady r.1 r.2) rfl rfl loop.requested).flushAcceptBuf
  | aborted fault r =>
    rw [done] at loop
    exact loop

theorem ValuesFrom.openNew (turns : ℕ) (count : UInt32) (h : ValuesFrom P s) :
    ValuesFrom P (leaderOpenNew cfg clock turns count s).state.1 := by
  induction turns generalizing count s with
  | zero => exact h
  | succ turns ih =>
    unfold leaderOpenNew
    dsimp only
    split_ifs
    · exact h
    · exact h
    · exact h
    · have first : ValuesFrom P
          (leaderExecuteP2 cfg clock s (cfg.proIndex s.p2Info.nextUnusedIid)).state :=
        h.executeP2 clock _
      cases done : leaderExecuteP2 cfg clock s (cfg.proIndex s.p2Info.nextUnusedIid) with
      | running t =>
        rw [done] at first
        exact ih (count + 1) (first.quiet (t := leaderUseNext t) rfl rfl first.requested)
      | aborted fault t =>
        rw [done] at first
        exact first

theorem ValuesFrom.openInstancesP2New (h : ValuesFrom P s) :
    ValuesFrom P (leaderOpenInstancesP2New cfg clock s).state := by
  have loop : ValuesFrom P (leaderOpenNew cfg clock
      (cfg.proposerP2Concurrency + 1 - s.p2Info.openCount.toNat) 0
      (Paxos2Leader.clearAcceptBuf s)).state.1 := h.clearAcceptBuf.openNew clock _ 0
  unfold leaderOpenInstancesP2New
  dsimp only
  split_ifs
  · exact h
  · cases done : leaderOpenNew cfg clock
        (cfg.proposerP2Concurrency + 1 - s.p2Info.openCount.toNat) 0
      (Paxos2Leader.clearAcceptBuf s) with
    | running r =>
      rw [done] at loop
      exact (loop.quiet (t := leaderAddOpen (leaderTakeReady r.1 r.2) r.2) rfl rfl
        loop.requested).flushAcceptBuf
    | aborted fault r =>
      rw [done] at loop
      exact loop

theorem ValuesFrom.periodicP2Check (h : ValuesFrom P s) (isClosed : ℕ → Bool)
    (timeNow : Timeval) :
    ValuesFrom P (leaderPeriodicP2Check cfg clock isClosed timeNow s).state := by
  apply ValuesFrom.openInstancesP2New
  apply ValuesFrom.flushPrepareBuf
  refine run_invariant (ValuesFrom P) h.clearPrepareBuf fun t iid kept => ?_
  unfold leaderCheckP2Instance
  dsimp only
  split_ifs
  · exact kept
  · exact kept.slot rfl (kept.found _) (kept.own _) kept.pending kept.requested
  · have restarted : ValuesFrom P (leaderSendPrepare cfg clock t (cfg.proIndex iid)
        (restartPhase1 cfg (t.proposerState (cfg.proIndex iid)))) :=
      kept.sendPrepare clock _ (kept.found _) (kept.own _)
    exact restarted.quiet rfl rfl restarted.requested
  · exact kept

theorem ValuesFrom.settleValue (h : ValuesFrom P s) (slot : ℕ) (value : Value) :
    ∀ v ∈ (leaderSettleValue s.valuesHandler (s.proposerState slot).p2Value value).pendingList,
      P v := by
  unfold leaderSettleValue
  cases own : (s.proposerState slot).p2Value with
  | none => exact h.pending
  | some mine =>
    dsimp only
    split_ifs
    · exact h.pending
    · exact List.forall_mem_cons.mpr ⟨h.own slot mine own, h.pending⟩

theorem ValuesFrom.cleared (h : ValuesFrom P s) (slot : ℕ) {vh : ValuesHandler}
    (pending : ∀ v ∈ vh.pendingList, P v) :
    ValuesFrom P ((s.withValues vh).withSlot slot
      (proClearInstanceInfo (s.proposerState slot))) :=
  h.slot rfl (fun _ none => nomatch none) (fun _ none => nomatch none) pending h.requested

theorem ValuesFrom.deliver (h : ValuesFrom P s) (value : Value) (iid : ℕ) :
    ValuesFrom P (leaderDeliver cfg clock s value iid).state := by
  unfold leaderDeliver
  dsimp only
  split_ifs
  · exact h
  · apply ValuesFrom.openInstancesP2New
    exact (h.quiet (t := leaderCountDelivered s _ iid) rfl rfl h.requested).cleared _
      (h.settleValue _ value)

theorem ValuesFrom.init (h : ValuesFrom P s) (timeNow : Timeval) :
    ValuesFrom P (leaderInit cfg clock timeNow s).state := by
  have reset : ValuesFrom P (leaderResetP1 s) :=
    ⟨fun _ none => (List.not_mem_nil none).elim, h.found, h.own, h.requested⟩
  exact Outcome.bind_kept (reset.periodicP1Check clock timeNow) fun _ _ kept =>
    kept.quiet rfl rfl kept.requested

theorem ValuesFrom.shutdown (h : ValuesFrom P s) : ValuesFrom P (leaderShutdown cfg s) := by
  have dropped : ValuesFrom P (run (leaderDropInstance cfg) s
      (List.range' s.currentIid (s.p1Info.highestOpen + 1 - s.currentIid))) := by
    refine run_invariant (ValuesFrom P) h fun t iid kept => kept.cleared _ ?_
    cases own : (t.proposerState (cfg.proIndex iid)).p2Value with
    | none => exact kept.pending
    | some mine =>
      dsimp only
      split_ifs
      · exact List.forall_mem_cons.mpr ⟨kept.own _ mine own, kept.pending⟩
      · exact kept.pending
  exact ⟨fun _ none => (List.not_mem_nil none).elim, dropped.found, dropped.own,
    dropped.requested⟩

end Leader

section Proposer

variable {s : ProposerState}

/-- A promise reports no value, or one that satisfies `P`. -/
def ReportsFrom (P : Value → Prop) (pa : PrepareAck) : Prop := pa.value = [] ∨ P pa.value

theorem savePromiseValue_from {ii : PInstInfo} {pa : PrepareAck}
    (found : ∀ v, ii.p1Value = some v → P v) (reports : ReportsFrom P pa) :
    ∀ v, (savePromiseValue ii pa).p1Value = some v → P v := by
  unfold savePromiseValue
  split_ifs with blank
  · exact found
  · exact found
  · exact found
  · intro v eq
    rw [← Option.some.inj eq]
    refine reports.resolve_left fun none => blank ?_
    rw [none]
    rfl

theorem savePromiseValue_p2Value (ii : PInstInfo) (pa : PrepareAck) :
    (savePromiseValue ii pa).p2Value = ii.p2Value := by
  unfold savePromiseValue
  split_ifs <;> rfl

theorem ValuesFrom.prepareAck {s : LeaderState} (h : ValuesFrom P s) (acceptorId : ℕ)
    {pa : PrepareAck} (reports : ReportsFrom P pa) :
    ValuesFrom P (handlePrepareAck cfg acceptorId s pa).1 := by
  have logged : ValuesFrom P (s.log (.received acceptorId pa)) := h.quiet rfl rfl h.requested
  have saved : (∀ v, (proSavePrepareAck (s.proposerState (cfg.proIndex pa.iid)) pa
        acceptorId).p1Value = some v → P v) ∧
      ∀ v, (proSavePrepareAck (s.proposerState (cfg.proIndex pa.iid)) pa
        acceptorId).p2Value = some v → P v := by
    unfold proSavePrepareAck
    split_ifs
    · exact ⟨h.found _, h.own _⟩
    · refine ⟨savePromiseValue_from (h.found _) reports, ?_⟩
      rw [savePromiseValue_p2Value]
      exact h.own _
  unfold handlePrepareAck
  dsimp only
  split_ifs
  · exact logged
  · exact logged
  · exact logged.slot rfl saved.1 saved.2 h.pending h.requested
  · exact logged.slot rfl saved.1 saved.2 h.pending h.requested

theorem ValuesFrom.prepareAcks {s : LeaderState} (h : ValuesFrom P s) (acceptorId : ℕ)
    {acks : List PrepareAck} (reports : ∀ pa ∈ acks, ReportsFrom P pa) :
    ValuesFrom P (handlePrepareAcks cfg acceptorId s acks).1 := by
  unfold handlePrepareAcks
  generalize 0 = n
  induction acks generalizing s n with
  | nil => exact h
  | cons pa acks ih =>
    obtain ⟨first, rest⟩ := List.forall_mem_cons.mp reports
    exact ih (h.prepareAck acceptorId first) rest _

/-- The values that an event brings to the leader satisfy `P`. -/
def EventFrom (P : Value → Prop) : ProposerEvent → Prop
  | .submit value => P value
  | .prepareAcks _ acks _ => ∀ pa ∈ acks, ReportsFrom P pa
  | .leaderAnnounce _ _ _ | .p1Check _ _ | .p2Check _ _ | .acceptAcks _ _ _ | .holeCheck => True

theorem ValuesFrom.deliverCallback (h : ValuesFrom P s.leader) (clock : ℕ → Timeval)
    (d : Delivery) : ValuesFrom P (proDeliverCallback cfg clock s d).state.leader := by
  have logged : ValuesFrom P (s.leader.log (.delivered d.iid d.value)) :=
    h.quiet rfl rfl h.requested
  unfold proDeliverCallback
  dsimp only
  rw [Paxos2LeaderMoves.withLeader_leader]
  refine Outcome.bind_kept ?_ fun _ _ kept => kept.quiet rfl rfl kept.requested
  split_ifs
  · exact logged.deliver clock d.value d.iid
  · exact logged

theorem ValuesFrom.proposerHandle (h : ValuesFrom P s.leader) {e : ProposerEvent}
    (brings : EventFrom P e) : ValuesFrom P (proposerHandle cfg s e).state.leader := by
  cases e with
  | submit value =>
    refine ⟨?_, h.found, h.own, h.requested⟩
    change ∀ v ∈ (vhEnqueueValue cfg s.leader.valuesHandler value).pendingList, P v
    unfold vhEnqueueValue
    split_ifs
    · exact h.pending
    · intro v mem
      rcases List.mem_append.mp mem with old | new
      · exact h.pending v old
      · rw [List.mem_singleton.mp new]
        exact brings
  | leaderAnnounce currentLeader clock timeNow =>
    have announced (o : LeaderOutcome) :
        ((s.withLeader o).bind fun s => .running { s with currentLeaderId := currentLeader
          }).state.leader = o.state := by
      cases o <;> rfl
    change ValuesFrom P (proHandleLeaderAnnounce cfg clock timeNow currentLeader s).state.leader
    unfold proHandleLeaderAnnounce
    dsimp only
    split_ifs
    · rw [announced]
      exact h.shutdown
    · rw [announced]
      exact h.init clock timeNow
    · rw [announced]
      exact h
  | p1Check clock timeNow =>
    unfold Paxos2Proposer.proposerHandle
    split_ifs
    · rw [Paxos2LeaderMoves.withLeader_leader]
      exact h.periodicP1Check clock timeNow
    · exact h
  | p2Check clock timeNow =>
    unfold Paxos2Proposer.proposerHandle
    split_ifs
    · rw [Paxos2LeaderMoves.withLeader_leader]
      exact h.periodicP2Check clock _ timeNow
    · exact h
  | prepareAcks acceptorId acks clock =>
    have counted : ValuesFrom P (handlePrepareAcks cfg acceptorId s.leader acks).1 :=
      h.prepareAcks acceptorId brings
    change ValuesFrom P (handlePrepareAckBatch cfg clock acceptorId acks s).state.leader
    unfold handlePrepareAckBatch
    dsimp only
    split_ifs
    · rw [Paxos2LeaderMoves.withLeader_leader]
      exact Outcome.bind_kept (counted.openInstancesP2Expired clock) fun _ _ kept =>
        kept.openInstancesP2New clock
    · exact counted
    · exact h
  | acceptAcks acceptorId acks clock =>
    have called (learner : LearnerState) (ds : List Delivery) :
        ValuesFrom P (Outcome.fold (proDeliverCallback cfg clock) { s with learner := learner }
          ds).state.leader :=
      Outcome.fold_kept (fun s : ProposerState => ValuesFrom P s.leader) h
        fun d _ t kept => kept.deliverCallback clock d
    change ValuesFrom P (proHandleAcceptAckBatch cfg clock acceptorId acks s).state.leader
    unfold proHandleAcceptAckBatch
    split
    · exact called _ _
    · exact Outcome.bind_kept (I := fun s : ProposerState => ValuesFrom P s.leader)
        (called _ _) fun _ _ kept => kept
  | holeCheck => exact h

end Proposer

section Acceptor

variable {s t u : AcceptorState}

/-- The records of an acceptor have no value or one that satisfies `P`; the latest accepted one
and those acknowledged to the learners have one. -/
structure RecordsFrom (P : Value → Prop) (s : AcceptorState) : Prop where
  readable : Readable s
  stored : ∀ i rec, s.storage.db i = some rec → rec.value = [] ∨ P rec.value
  latest : 0 < s.highestAcceptedIid →
    ∃ rec, s.storage.db s.highestAcceptedIid = some rec ∧ P rec.value
  promised : s.toProposers.All (ReportsFrom P)
  acked : s.toLearners.All fun aa => P aa.value

theorem recordsFrom_init (a : ℕ) : RecordsFrom P (acceptorInit a) where
  readable := readable_init a
  stored := fun _ _ h => nomatch h
  latest := fun h => absurd h (Nat.lt_irrefl 0)
  promised := .new
  acked := .new

/-- A record is written that keeps the value of the one before it, or has one from `P`. -/
theorem RecordsFrom.write (h : RecordsFrom P s) {rec : AcceptorRecord}
    (saved : t.storage = put s.storage rec) (origin : rec.value = [] ∨ P rec.value)
    (keeps : ∀ old, s.storage.db rec.iid = some old → P old.value → P rec.value)
    (latest : 0 < t.highestAcceptedIid →
      t.highestAcceptedIid = s.highestAcceptedIid ∨
        t.highestAcceptedIid = rec.iid ∧ P rec.value)
    (promised : t.toProposers.All (ReportsFrom P))
    (acked : t.toLearners.All fun aa => P aa.value) : RecordsFrom P t where
  readable := by
    intro i
    rw [saved]
    exact h.readable i
  stored := by
    intro i r found
    rw [saved, put_db] at found
    split_ifs at found
    · rw [← Option.some.inj found]
      exact origin
    · exact h.stored i r found
  latest := by
    intro pos
    rw [saved]
    simp only [put_db]
    rcases latest pos with same | ⟨here, good⟩
    · rw [same] at pos ⊢
      obtain ⟨old, found, good⟩ := h.latest pos
      split_ifs with here
      · exact ⟨rec, rfl, keeps old (here ▸ found) good⟩
      · exact ⟨old, found, good⟩
    · exact ⟨rec, if_pos here, good⟩
  promised := promised
  acked := acked

theorem RecordsFrom.prepare (h : RecordsFrom P s) (pr : PrepareReq) :
    RecordsFrom P (handlePrepareReq cfg s pr) := by
  rcases handlePrepareReq_cases cfg s pr with same | ⟨rec, made, -, saved⟩
  · rwa [same]
  · have iid : rec.iid = pr.iid := made ▸ prepareRecord_iid pr
    rw [h.readable.getRecord] at made
    have value : rec.value = [] ∨ ∃ old, s.storage.db pr.iid = some old ∧
        rec.value = old.value := by
      cases found : s.storage.db pr.iid with
      | none =>
        rw [made, found]
        exact .inl rfl
      | some old =>
        rw [made, found]
        exact .inr ⟨old, rfl, rfl⟩
    have origin : rec.value = [] ∨ P rec.value := by
      rcases value with blank | ⟨old, found, same⟩
      · exact .inl blank
      · rw [same]
        exact h.stored _ old found
    rw [saved]
    refine h.write rfl origin (fun old found good => ?_) (fun _ => .inl rfl)
      (h.promised.add cfg _ origin) h.acked
    rw [iid] at found
    rw [found] at made
    rw [made]
    exact good

theorem RecordsFrom.accept (h : RecordsFrom P s) {ar : AcceptReq} (good : P ar.value) :
    RecordsFrom P (handleAcceptReq cfg s ar) := by
  rcases handleAcceptReq_cases cfg s ar with ⟨_, _, _, same⟩ | ⟨_, saved⟩
  · rwa [same]
  · rw [saved]
    refine h.write rfl (.inr good) (fun _ _ _ => good) (fun _ => ?_) h.promised
      (h.acked.add cfg _ good)
    by_cases later : s.highestAcceptedIid < ar.iid
    · exact .inr ⟨if_pos later, good⟩
    · exact .inl (if_neg later)

/-- The accept requests handled carry values from `P`. -/
def Brings (P : Value → Prop) : Paxos2AcceptorMoves.AcceptCondition := fun _ ar => P ar.value

theorem recordsFrom_move (h : RecordsFrom P s)
    (move : Paxos2AcceptorMoves.Move cfg (Brings P) s t) : RecordsFrom P t := by
  cases move with
  | quiet quiet =>
    refine ⟨fun i => ?_, ?_, ?_, quiet.promises _ h.promised, quiet.acks _ h.acked⟩
    · rw [quiet.storage]
      exact h.readable i
    · rw [quiet.storage]
      exact h.stored
    · rw [quiet.storage, quiet.highest]
      exact h.latest
  | prepare pr => exact h.prepare pr
  | accept ar met => exact h.accept met
  | resend rec found =>
    have good : P rec.value := by
      rcases found.2 with value | ⟨pos, latest⟩
      · refine (h.stored _ _ found.1).resolve_left fun blank => ?_
        rw [blank] at value
        exact absurd value (Nat.lt_irrefl 0)
      · obtain ⟨cur, found', good⟩ := h.latest pos
        rw [← latest, found.1] at found'
        rw [Option.some.inj found']
        exact good
    exact { h with acked := h.acked.add cfg _ good }

theorem recordsFrom_moves (h : Paxos2AcceptorMoves.Moves cfg (Brings P) s t)
    (start : RecordsFrom P s) : RecordsFrom P t :=
  h.invariant (RecordsFrom P) (fun _ _ h move => recordsFrom_move h move) start

theorem recordsFrom_crashed (crash : CrashedBetween s t u) (h : RecordsFrom P t) :
    RecordsFrom P u := by
  have highest : u.highestAcceptedIid = 0 := congrArg AcceptorState.highestAcceptedIid crash.fresh
  have promises : u.toProposers.items = [] :=
    congrArg (fun s : AcceptorState => s.toProposers.items) crash.fresh
  have acks : u.toLearners.items = [] :=
    congrArg (fun s : AcceptorState => s.toLearners.items) crash.fresh
  refine ⟨fun i => ?_, ?_, fun pos => absurd (highest ▸ pos) (Nat.lt_irrefl 0), ⟨?_, ?_⟩, ?_, ?_⟩
  · rw [crash.storage]
    exact h.readable i
  · rw [crash.storage]
    exact h.stored
  · exact fun batch hb => h.promised.1 batch (crash.promises.2.subset hb)
  · rw [promises]
    exact fun _ h => nomatch h
  · exact fun batch hb => h.acked.1 batch (crash.acks.2.subset hb)
  · rw [acks]
    exact fun _ h => nomatch h

end Acceptor

/-- The acknowledgements stored for an instance carry values from `P`. -/
def AcksFrom (P : Value → Prop) (acks : ℕ → Option AcceptAck) : Prop :=
  ∀ a aa, acks a = some aa → P aa.value

theorem acksFrom_store {acks : ℕ → Option AcceptAck} (h : AcksFrom P acks) (a : ℕ)
    {aa : AcceptAck} (good : P aa.value) : AcksFrom P (setSlot acks a (some aa)) := by
  intro a' aa' found
  rw [setSlot_apply] at found
  split_ifs at found
  · rw [← Option.some.inj found]
    exact good
  · exact h a' aa' found

theorem takes_of_from (lr : LearnerRun) (a : ℕ) {acks : List AcceptAck}
    (good : ∀ aa ∈ acks, P aa.value) :
    Along (learnerStep cfg) (Takes cfg (AcksFrom P)) lr (toMessages a acks) := by
  refine along_takes lr _ fun m hm stored h => ?_
  obtain ⟨aa, haa, rfl⟩ := List.mem_map.mp hm
  exact acksFrom_store h a (good aa haa)

theorem delivered_from {start : ℕ} {ls : LearnerState} {ds : List Delivery}
    (h : LearnerGood cfg (AcksFrom P) start ls ds) {d : Delivery} (mem : d ∈ ds) : P d.value := by
  obtain ⟨-, -, fa, ⟨a, -, stored, -⟩, value, -⟩ := h.agreed d mem
  rw [value]
  exact h.sources d mem a fa stored

section World

variable {w : World}

structure WorldFrom (cfg : Config) (P : Value → Prop) (w : World) : Prop where
  leaders : ∀ p, ValuesFrom P (w.proposers p).state.leader
  told : ∀ p i v, .delivered i v ∈ (w.proposers p).state.leader.trace → P v
  embedded : ∀ p s, w.proposers p = .running s →
    LearnerGood cfg (AcksFrom P) s.learner.currentIid s.learner []
  acceptors : ∀ a, RecordsFrom P (w.acks.acceptors a).state
  learners : ∀ l, ∃ ls ds, w.acks.learners l = .running (ls, ds) ∧
    LearnerGood cfg (AcksFrom P) 1 ls ds

theorem worldFrom_init (cfg : Config) (P : Value → Prop) (clock : ℕ → Timeval)
    (timeNow : Timeval) : WorldFrom cfg P (worldInit cfg clock timeNow) where
  leaders := by
    intro p
    have start : ValuesFrom P (initProStructs p) :=
      ⟨(fun _ h => nomatch h), (fun _ _ h => nomatch h), (fun _ _ h => nomatch h), .new⟩
    change ValuesFrom P (proposerInit cfg clock timeNow p).state.leader
    unfold proposerInit
    dsimp only
    split_ifs
    · rw [Paxos2LeaderMoves.withLeader_leader]
      exact start.init clock timeNow
    · exact start
  told := fun p =>
    (Paxos2LeaderMoves.proposerInit_moves (C :=
        { ack := fun _ _ _ => True
          opens := fun _ => True
          clears := fun _ => True
          delivers := fun _ v => P v })
      clock timeNow p fun _ => trivial).delivered fun _ _ h => nomatch h
  embedded := by
    intro p s running
    have learner : s.learner = learnerInit := by
      have started : (proposerInit cfg clock timeNow p).state.learner = learnerInit :=
        Paxos2LeaderMoves.proposerInit_learner clock timeNow p
      rw [← started]
      exact congrArg (fun o : ProposerOutcome => o.state.learner) running.symm
    rw [learner]
    exact learnerGood_init cfg fun _ _ h => nomatch h
  acceptors := fun a => recordsFrom_init a
  learners := fun _ => ⟨learnerInit, [], rfl, learnerGood_init cfg fun _ _ h => nomatch h⟩

theorem WorldFrom.sent_acks (h : WorldFrom cfg P w) {a : ℕ} {acks : List AcceptAck}
    (sent : SentBy cfg w.acks.acceptors a acks) : ∀ aa ∈ acks, P aa.value :=
  (h.acceptors a).acked.1 acks sent.2

theorem WorldFrom.brings (h : WorldFrom cfg P w) {msg : PaxosMsg}
    (received : ReceivedByAcceptor cfg w msg) (s : AcceptorState) :
    Paxos2AcceptorMoves.BatchMeets cfg (Brings P) s msg := by
  cases msg with
  | acceptReqs p accepts =>
    exact along_of_mem fun ar har _ => (h.leaders p).requested.1 accepts received.2 ar har
  | _ => trivial

theorem WorldFrom.event (h : WorldFrom cfg P w) {s : ProposerState}
    (good : LearnerGood cfg (AcksFrom P) s.learner.currentIid s.learner []) {e : ProposerEvent}
    (received : ReceivedByProposer cfg w e) :
    LearnerGood cfg (AcksFrom P) (Paxos2LeaderMoves.eventLearner cfg s e).currentIid
        (Paxos2LeaderMoves.eventLearner cfg s e) [] ∧
      Paxos2LeaderMoves.EventDelivers cfg (fun _ v => P v) s e := by
  cases e with
  | acceptAcks a acks clock =>
    obtain ⟨ls, ds, handled, after⟩ := good.batch a acks (takes_of_from _ a (h.sent_acks received))
    simp only [Paxos2LeaderMoves.eventLearner, Paxos2LeaderMoves.EventDelivers, handled,
      Outcome.state_running]
    exact ⟨after.rebase, fun d mem => delivered_from after mem⟩
  | holeCheck => exact ⟨good.holeCheck.rebase, trivial⟩
  | submit | leaderAnnounce | p1Check | p2Check | prepareAcks => exact ⟨good, trivial⟩

theorem WorldFrom.eventFrom (h : WorldFrom cfg P w) {e : ProposerEvent}
    (received : ReceivedByProposer cfg w e) (submits : ∀ v, e = .submit v → P v) :
    EventFrom P e := by
  cases e with
  | submit v => exact submits v rfl
  | prepareAcks a acks clock => exact (h.acceptors a).promised.1 acks received.2
  | leaderAnnounce | p1Check | p2Check | acceptAcks | holeCheck => trivial

theorem WorldFrom.proposer (h : WorldFrom cfg P w) {p : ℕ} {e : ProposerEvent}
    (received : ReceivedByProposer cfg w e) (submits : ∀ v, e = .submit v → P v) :
    WorldFrom cfg P
      { w with
        proposers := Function.update w.proposers p (proposerStep cfg (w.proposers p) e) } := by
  cases running : w.proposers p with
  | aborted fault s =>
    have same : Function.update w.proposers p (proposerStep cfg (.aborted fault s) e) =
        w.proposers := by
      rw [← running]
      simp [proposerStep, running]
    rwa [same]
  | running s =>
    have leader : (w.proposers p).state.leader = s.leader := by
      rw [running]
      rfl
    obtain ⟨embedded, delivers⟩ := h.event (h.embedded p s running) received
    have step : proposerStep cfg (.running s) e = proposerHandle cfg s e := rfl
    rw [step]
    refine ⟨?_, ?_, ?_, h.acceptors, h.learners⟩
    · refine (Function.forall_update_iff w.proposers
        (fun _ o => ValuesFrom P o.state.leader)).mpr ⟨?_, fun q _ => h.leaders q⟩
      exact (leader ▸ h.leaders p).proposerHandle (h.eventFrom received submits)
    · refine (Function.forall_update_iff w.proposers (fun _ o =>
        ∀ i v, .delivered i v ∈ o.state.leader.trace → P v)).mpr ⟨?_, fun q _ => h.told q⟩
      refine (Paxos2LeaderMoves.proposerHandle_moves_of (C :=
        { ack := fun _ _ _ => True
          opens := fun _ => True
          clears := fun _ => True
          delivers := fun _ v => P v }) s e ?_ (fun _ => trivial) (fun _ => trivial)
            delivers).delivered (leader ▸ h.told p)
      cases e with
      | prepareAcks a acks clock => exact fun _ => along_of_mem fun _ _ _ => trivial
      | submit | leaderAnnounce | p1Check | p2Check | acceptAcks | holeCheck => trivial
    · refine (Function.forall_update_iff w.proposers (fun _ o => ∀ t, o = .running t →
        LearnerGood cfg (AcksFrom P) t.learner.currentIid t.learner [])).mpr
          ⟨fun t done => ?_, fun q _ => h.embedded q⟩
      have learner : (proposerHandle cfg s e).state.learner =
          Paxos2LeaderMoves.eventLearner cfg s e := Paxos2LeaderMoves.proposerHandle_learner s e
      rw [done, Outcome.state_running] at learner
      rw [learner]
      exact embedded

theorem WorldFrom.acks (h : WorldFrom cfg P w) {e : AckEvent}
    (possible : Possible cfg w (.acks e)) :
    WorldFrom cfg P { w with acks := ackStep cfg w.acks e } := by
  have meets : Paxos2AckWorld.EventMeets cfg (Brings P) w.acks e := by
    cases e with
    | request a msg => exact fun _ => h.brings possible _
    | repeatLatest | acceptAcks | holeCheck => trivial
  refine ⟨h.leaders, h.told, h.embedded,
    fun a => recordsFrom_moves (ackStep_moves e meets a) (h.acceptors a), fun l => ?_⟩
  obtain ⟨ls, ds, running, good⟩ := h.learners l
  cases e with
  | request a msg => exact ⟨ls, ds, running, good⟩
  | repeatLatest a => exact ⟨ls, ds, running, good⟩
  | acceptAcks l' a acks =>
    simp only [ackStep]
    split_ifs with sent
    · simp only [Function.update_apply]
      split_ifs with here
      · subst here
        rw [running]
        exact good.run _ (takes_of_from _ a (h.sent_acks sent))
      · exact ⟨ls, ds, running, good⟩
    · exact ⟨ls, ds, running, good⟩
  | holeCheck l' =>
    simp only [ackStep, Function.update_apply]
    split_ifs with here
    · subst here
      rw [running]
      exact ⟨leaHoleCheck cfg ls, ds, rfl, good.holeCheck⟩
    · exact ⟨ls, ds, running, good⟩

theorem WorldFrom.withAcceptor (h : WorldFrom cfg P w) {a : ℕ} {s : AcceptorState}
    (good : RecordsFrom P s) : WorldFrom cfg P (withAcceptor w a s) := by
  refine ⟨h.leaders, h.told, h.embedded, fun a' => ?_, h.learners⟩
  rw [withAcceptor_state]
  split_ifs
  · exact good
  · exact h.acceptors a'

/-- The value that an event brings from a client, if any. -/
def submittedBy : CrashEvent → Option Value
  | .world (.proposer _ (.submit value)) => some value
  | _ => none

def submitted (events : List CrashEvent) : List Value := events.filterMap submittedBy

theorem worldFrom_step (h : WorldFrom cfg P w) (e : CrashEvent)
    (submits : ∀ v, submittedBy e = some v → P v) : WorldFrom cfg P (crashStep cfg w e) := by
  cases e with
  | world e =>
    by_cases possible : Possible cfg w e
    · cases e with
      | proposer p e =>
        rw [crashStep, worldStep_proposer possible]
        exact h.proposer possible.2 fun v eq => submits v (by rw [eq]; rfl)
      | acks e =>
        rw [crashStep, worldStep_acks possible]
        exact h.acks possible
    · rw [crashStep, worldStep_of_impossible possible]
      exact h
  | crash a msg n =>
    simp only [crashStep]
    split_ifs with received
    · apply h.withAcceptor
      have before := h.acceptors a
      cases stands : w.acks.acceptors a with
      | running s =>
        rw [stands] at before
        obtain ⟨k, crash⟩ := crash_keeps_first_items cfg s msg n
        have moves := Paxos2AcceptorMoves.accHandleNewmsg_moves s (firstItems k msg)
          (batchMeets_firstItems (h.brings received s) k)
        exact recordsFrom_crashed crash (recordsFrom_moves moves before)
      | aborted fault s =>
        rw [stands] at before
        exact recordsFrom_crashed (crashedBetween_recover s) before
    · exact h

theorem worldFrom_run (cfg : Config) (clock : ℕ → Timeval) (timeNow : Timeval)
    (events : List CrashEvent) : WorldFrom cfg (· ∈ submitted events)
      (run (crashStep cfg) (worldInit cfg clock timeNow) events) := by
  have all : Along (crashStep cfg)
      (fun _ e => ∀ v, submittedBy e = some v → v ∈ submitted events)
      (worldInit cfg clock timeNow) events :=
    along_of_mem fun e he _ v brought => List.mem_filterMap.mpr ⟨e, he, brought⟩
  exact all.invariant (WorldFrom cfg (· ∈ submitted events)) (worldFrom_init cfg _ clock timeNow)
    fun _ e h submits => worldFrom_step h e submits

end World

/-- In every run, whatever is lost, repeated or crashes, and whether or not the learners agree:
what a learner delivers, what a proposer asks to accept and what an acceptor stores as a value
was submitted by a client in that run. -/
theorem values_were_submitted (cfg : Config) (clock : ℕ → Timeval) (timeNow : Timeval)
    (events : List CrashEvent) :
    let w := run (crashStep cfg) (worldInit cfg clock timeNow) events
    (∀ i v, DeliveredIn w i v → v ∈ submitted events) ∧
      (∀ p, ∀ accepts ∈ (w.proposers p).state.leader.acceptBuf.sent, ∀ ar ∈ accepts,
        ar.value ∈ submitted events) ∧
      ∀ a i rec, (w.acks.acceptors a).state.storage.db i = some rec →
        rec.value = [] ∨ rec.value ∈ submitted events := by
  have h := worldFrom_run cfg clock timeNow events
  refine ⟨fun i v delivered => ?_, fun p => (h.leaders p).requested.1,
    fun a => (h.acceptors a).stored⟩
  rcases delivered with ⟨l, d, mem, -, rfl⟩ | ⟨p, told⟩
  · obtain ⟨ls, ds, running, good⟩ := h.learners l
    rw [running] at mem
    exact delivered_from good mem
  · exact h.told p i v told

end FdsPaxos.Paxos2ValueOrigin
