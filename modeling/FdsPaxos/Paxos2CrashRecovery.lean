import FdsPaxos.CrashPoints
import FdsPaxos.Paxos2AcceptorLife
import FdsPaxos.Paxos2Transactions

set_option autoImplicit false

namespace FdsPaxos.Paxos2CrashRecovery
open TransitionRuns TransactionLog CrashPoints Paxos2Config Paxos2Messages Paxos2StableStorage
open Paxos2SendBuffer (SendBuf sendbufNew)
open Paxos2Acceptor (AcceptorState AcceptorFault)
open Paxos2AcceptorLife (acceptorInitRecover AcceptorEvent acceptorEventStep)
open Paxos2Transactions

/-- The acknowledgements of a channel, as they stand in the actions of the acceptor. -/
structure Reader {ι : Type} (c : Channel ι) where
  read : Ack → Option ι
  read_ack : ∀ x, read (c.ack x) = some x

def ofProposers : Reader toProposers where
  read
    | .prepareAck pa => some pa
    | .acceptAck _ => none
  read_ack := fun _ => rfl

def ofLearners : Reader toLearners where
  read
    | .prepareAck _ => none
    | .acceptAck aa => some aa
  read_ack := fun _ => rfl

section Crash

variable {ι : Type} {c : Channel ι}

abbrev AckDisk := Disk StableStorage AcceptorRecord Ack

def diskOf (s : AcceptorState) : AckDisk := ⟨s.storage, [], []⟩

def Reader.batches (r : Reader c) (sent : List (List Ack)) : List (List ι) :=
  sent.map fun acks => acks.filterMap r.read

/-- What the acceptor keeps from before it crashed in a message: its durable records, and what
it had handed to the network. -/
def crashedBatch (r : Reader c) (s : AcceptorState) (t : TxAcceptor) (n : ℕ) : AcceptorState :=
  let d := (diskOf s).after put (t.actions.drop n)
  let kept := acceptorInitRecover { s with storage := d.stored }
  c.withBuffer kept
    { sendbufNew with sent := (c.buffer kept).sent ++ r.batches d.sent }

/-- The acceptor crashes when all but the last `n` actions of a message are done, and recovers. -/
def crashed (cfg : Config) (s : AcceptorState) (msg : PaxosMsg) (n : ℕ) : AcceptorState :=
  match msg with
  | .prepareReqs _ _ => crashedBatch ofProposers s (accHandleNewmsg cfg ⟨s, []⟩ msg) n
  | .acceptReqs _ _ | .repeatReqs _ => crashedBatch ofLearners s (accHandleNewmsg cfg ⟨s, []⟩ msg) n
  | .prepareAcks _ _ | .acceptAcks _ _ | .submit _ | .leaderAnnounce _ => acceptorInitRecover s

def firstItems (k : ℕ) : PaxosMsg → PaxosMsg
  | .prepareReqs p prepares => .prepareReqs p (prepares.take k)
  | .acceptReqs p accepts => .acceptReqs p (accepts.take k)
  | .repeatReqs requests => .repeatReqs (requests.take k)
  | msg => msg

end Crash

section Batches

variable {ι α : Type} {c : Channel ι} {r : Reader c} {cfg : Config} {s u : AcceptorState}
  {t : TxAcceptor} {P : StableStorage → List (List Ack) → Prop}

/-- What was done of a message so far.  Wherever it stopped `P` held, and all that the acceptor
has written and sent since `s` is among its actions. -/
structure Recorded (r : Reader c) (P : StableStorage → List (List Ack) → Prop)
    (s : AcceptorState) (t : TxAcceptor) : Prop where
  safe : EveryPoint put P (diskOf s) t.actions
  written : ((diskOf s).after put t.actions).pending.foldl put
    ((diskOf s).after put t.actions).stored = t.acceptor.storage
  sent : (c.buffer s).sent ++ r.batches ((diskOf s).after put t.actions).sent =
    (c.buffer t.acceptor).sent

structure Settled (r : Reader c) (P : StableStorage → List (List Ack) → Prop)
    (s : AcceptorState) (t : TxAcceptor) : Prop extends Recorded r P s t where
  durable : ((diskOf s).after put t.actions).stored = t.acceptor.storage

/-- `P` holds when the records of the acceptor are durable, whether or not the last batches
that it sends are out. -/
def Reached (r : Reader c) (P : StableStorage → List (List Ack) → Prop)
    (s t : AcceptorState) : Prop :=
  ∀ sent, (c.buffer s).sent ++ r.batches sent <+: (c.buffer t).sent → P t.storage sent

theorem Reached.earlier {t : AcceptorState} (h : Reached r P s t) (storage : u.storage = t.storage)
    (sent : (c.buffer u).sent <+: (c.buffer t).sent) : Reached r P s u := by
  intro batches before
  rw [storage]
  exact h batches (before.trans sent)

theorem Reached.all_sent {t : AcceptorState} (h : Reached r P s t) {sent : List (List Ack)}
    (all : (c.buffer s).sent ++ r.batches sent = (c.buffer t).sent) : P t.storage sent := by
  refine h sent ?_
  rw [all]

theorem batches_append (r : Reader c) (sent : List (List Ack)) (acks : List Ack) :
    r.batches (sent ++ [acks]) = r.batches sent ++ [acks.filterMap r.read] := by
  simp [Reader.batches]

theorem filterMap_read (r : Reader c) (items : List ι) :
    (items.map c.ack).filterMap r.read = items := by
  induction items with
  | nil => rfl
  | cons x items ih => simp [r.read_ack, ih]

theorem settled_start (reached : Reached r P s s) : Settled r P s ⟨s, []⟩ where
  safe := everyPoint_nil.mpr (reached [] (by simp [Reader.batches]))
  written := rfl
  sent := by simp [diskOf, Reader.batches]
  durable := rfl

theorem Settled.clear (h : Settled r P s t) : Settled r P s (sendbufClear c t) where
  safe := h.safe
  written := by
    simp only [sendbufClear, c.storage_withBuffer]
    exact h.written
  sent := by
    simp only [sendbufClear, c.buffer_withBuffer]
    exact h.sent
  durable := by
    simp only [sendbufClear, c.storage_withBuffer]
    exact h.durable

theorem Settled.txBegin (h : Settled r P s t) : Recorded r P s (stablestorageTxBegin t) where
  safe := h.safe.txBegin
  written := h.durable
  sent := h.sent

theorem Recorded.txEnd (h : Recorded r P s t) (reached : Reached r P s t.acceptor) :
    Settled r P s (stablestorageTxEnd t) where
  safe := by
    refine everyPoint_cons.mpr ⟨?_, h.safe⟩
    have durable := reached.all_sent h.sent
    rw [← h.written] at durable
    exact durable
  written := h.written
  sent := h.sent
  durable := h.written

theorem flush_prefix (sb : SendBuf ι) : sb.sent <+: (Paxos2SendBuffer.sendbufFlush sb).sent := by
  unfold Paxos2SendBuffer.sendbufFlush
  split_ifs
  · exact List.prefix_append _ _
  · exact List.prefix_refl _

theorem Settled.flush (h : Settled r P s t)
    (reached : Reached r P s (sendbufFlush c t).acceptor) :
    Settled r P s (sendbufFlush c t) := by
  have storage : (sendbufFlush c t).acceptor.storage = t.acceptor.storage :=
    c.storage_withBuffer _ _
  have sent : (c.buffer (sendbufFlush c t).acceptor).sent =
      (Paxos2SendBuffer.sendbufFlush (c.buffer t.acceptor)).sent :=
    congrArg SendBuf.sent (c.buffer_withBuffer _ _)
  by_cases dirty : (c.buffer t.acceptor).dirty
  · have actions : (sendbufFlush c t).actions =
        .send ((c.buffer t.acceptor).items.map c.ack) :: t.actions := if_pos dirty
    have batches : (c.buffer s).sent ++
        r.batches ((diskOf s).after put (sendbufFlush c t).actions).sent =
          (c.buffer (sendbufFlush c t).acceptor).sent := by
      rw [sent, Paxos2SendBuffer.sendbufFlush, if_pos dirty, actions, after_cons]
      simp only [Disk.act]
      rw [batches_append, filterMap_read, ← List.append_assoc, h.sent]
    refine ⟨⟨?_, ?_, batches⟩, ?_⟩
    · rw [actions, everyPoint_cons, ← actions]
      refine ⟨?_, h.safe⟩
      have out := reached.all_sent batches
      rw [storage, ← h.durable, actions] at out
      exact actions ▸ out
    · rw [storage, actions]
      exact h.written
    · rw [storage, actions]
      exact h.durable
  · have actions : (sendbufFlush c t).actions = t.actions := if_neg dirty
    refine ⟨⟨actions ▸ h.safe, ?_, ?_⟩, ?_⟩
    · rw [storage, actions]
      exact h.written
    · rw [sent, Paxos2SendBuffer.sendbufFlush, if_neg dirty, actions]
      exact h.sent
    · rw [storage, actions]
      exact h.durable

theorem Recorded.saved (h : Recorded r P s t) {applied : AcceptorState × Option AcceptorRecord}
    (done : Applied c t.acceptor applied) : Recorded r P s (accSaved t applied) := by
  cases done with
  | refused => exact h
  | saved s' rec storage buffer =>
    refine ⟨h.safe.put rec, ?_, ?_⟩
    · simp only [accSaved, Option.map_some, Option.toList_some, List.singleton_append, after_cons,
        Disk.act, List.foldl_append, List.foldl_cons, List.foldl_nil]
      rw [h.written, storage]
    · simp only [accSaved]
      rw [buffer]
      exact h.sent

theorem Recorded.addAck (h : Recorded r P s t) (size : ι → ℕ) (x : ι)
    (reached : Reached r P s (sendbufAddAck c cfg size t x).acceptor) :
    Recorded r P s (sendbufAddAck c cfg size t x) := by
  have added {t : TxAcceptor} (h : Recorded r P s t) : Recorded r P s
      { t with
        acceptor := c.withBuffer t.acceptor (sendbufAppend size (c.buffer t.acceptor) x) } := by
    refine ⟨h.safe, ?_, ?_⟩
    · rw [c.storage_withBuffer]
      exact h.written
    · rw [c.buffer_withBuffer]
      exact h.sent
  unfold sendbufAddAck at reached ⊢
  dsimp only at reached ⊢
  split_ifs at reached ⊢
  · have flushed : Reached r P s (sendbufFlush c (stablestorageTxEnd t)).acceptor := by
      refine reached.earlier ?_ ?_
      · simp only [stablestorageTxBegin, sendbufClear, c.storage_withBuffer]
      · simp only [stablestorageTxBegin, sendbufClear, c.buffer_withBuffer]
        exact List.prefix_refl _
    have ended : Reached r P s t.acceptor := by
      refine flushed.earlier (c.storage_withBuffer _ _).symm ?_
      simp only [sendbufFlush, c.buffer_withBuffer]
      exact flush_prefix _
    exact added (((h.txEnd ended).flush flushed).clear.txBegin)
  · exact added h

/-- A handler of one item keeps `Recorded`, if `P` holds with the item handled. -/
def Keeps (r : Reader c) (handle : TxAcceptor → α → TxAcceptor) : Prop :=
  ∀ P s t a, Recorded r P s t → Reached r P s (handle t a).acceptor → Recorded r P s (handle t a)

theorem Recorded.run {handle : TxAcceptor → α → TxAcceptor} (keeps : Keeps r handle)
    (h : Recorded r P s t) (items : List α)
    (reached : ∀ k, Reached r P s (TransitionRuns.run handle t (items.take k)).acceptor) :
    Recorded r P s (TransitionRuns.run handle t items) := by
  induction items generalizing t with
  | nil => exact h
  | cons a items ih =>
    have first : Recorded r P s (handle t a) := keeps P s t a h (reached 1)
    exact ih first fun k => reached (k + 1)

/-- The first items of the batch were handled as a batch, and the last of its messages may be
missing. -/
def Partly (r : Reader c) (handle : TxAcceptor → α → TxAcceptor) (s : AcceptorState)
    (batch : List α) (stored : StableStorage) (sent : List (List Ack)) : Prop :=
  ∃ k, stored = (handleBatch c handle ⟨s, []⟩ (batch.take k)).acceptor.storage ∧
    (c.buffer s).sent ++ r.batches sent <+:
      (c.buffer (handleBatch c handle ⟨s, []⟩ (batch.take k)).acceptor).sent

theorem reached_partly (handle : TxAcceptor → α → TxAcceptor) (s : AcceptorState)
    (batch : List α) (k : ℕ) : Reached r (Partly r handle s batch) s
      (handleBatch c handle ⟨s, []⟩ (batch.take k)).acceptor :=
  fun _ before => ⟨k, rfl, before⟩

theorem reached_unsent (handle : TxAcceptor → α → TxAcceptor) (s : AcceptorState)
    (batch : List α) (k : ℕ) : Reached r (Partly r handle s batch) s
      (TransitionRuns.run handle (stablestorageTxBegin (sendbufClear c ⟨s, []⟩))
        (batch.take k)).acceptor := by
  refine (reached_partly handle s batch k).earlier ?_ ?_
  · simp only [handleBatch, sendbufFlush, stablestorageTxEnd, c.storage_withBuffer]
  · simp only [handleBatch, sendbufFlush, stablestorageTxEnd, c.buffer_withBuffer]
    exact flush_prefix _

/-- Wherever the acceptor stops in a batch, it has handled the first items of the batch. -/
theorem handleBatch_everyPoint {handle : TxAcceptor → α → TxAcceptor} (keeps : Keeps r handle)
    (s : AcceptorState) (batch : List α) : EveryPoint put (Partly r handle s batch) (diskOf s)
      (handleBatch c handle ⟨s, []⟩ batch).actions := by
  have start : Reached r (Partly r handle s batch) s s := by
    refine (reached_unsent handle s batch 0).earlier ?_ ?_
    · simp [stablestorageTxBegin, sendbufClear, c.storage_withBuffer]
    · simp [stablestorageTxBegin, sendbufClear, c.buffer_withBuffer]
  have begun := (settled_start start).clear.txBegin
  have handled := begun.run keeps batch (reached_unsent handle s batch)
  have ended : Reached r (Partly r handle s batch) s (TransitionRuns.run handle
      (stablestorageTxBegin (sendbufClear c ⟨s, []⟩)) batch).acceptor := by
    simpa using reached_unsent handle s batch batch.length
  have flushed : Reached r (Partly r handle s batch) s
      (handleBatch c handle ⟨s, []⟩ batch).acceptor := by
    simpa using reached_partly handle s batch batch.length
  exact ((handled.txEnd ended).flush flushed).safe

end Batches

section Handlers

variable (cfg : Config)

theorem keeps_handlePrepareReq : Keeps ofProposers (handlePrepareReq cfg) := by
  intro P s t pr h reached
  have saved := h.saved (accApplyPrepare_applied t.acceptor pr
    (stablestorageGetRecord t.acceptor.storage pr.iid))
  unfold handlePrepareReq at reached ⊢
  dsimp only at reached ⊢
  split at reached
  · exact saved.addAck prepareAckSize _ reached
  · exact saved

theorem keeps_handleAcceptReq : Keeps ofLearners (handleAcceptReq cfg) := by
  intro P s t ar h reached
  have saved := h.saved (accApplyAccept_applied t.acceptor ar
    (stablestorageGetRecord t.acceptor.storage ar.iid))
  unfold handleAcceptReq at reached ⊢
  dsimp only at reached ⊢
  split at reached
  · exact saved.addAck acceptAckSize _ reached
  · exact saved

theorem keeps_handleRepeatReq : Keeps ofLearners (handleRepeatReq cfg) := by
  intro P s t iid h reached
  unfold handleRepeatReq at reached ⊢
  cases found : stablestorageGetRecord t.acceptor.storage iid with
  | none => exact h
  | some rec =>
    rw [found] at reached
    dsimp only at reached ⊢
    split_ifs at reached ⊢
    · exact h.addAck acceptAckSize _ reached
    · exact h

end Handlers

section Messages

variable {cfg : Config} {s : AcceptorState}

/-- What a crash leaves of an acceptor that was in `s` and was to reach `t`. -/
structure CrashedBetween (s t u : AcceptorState) : Prop where
  acceptorId : u.thisAcceptorId = t.thisAcceptorId
  storage : u.storage = t.storage
  promises : s.toProposers.sent <+: u.toProposers.sent ∧ u.toProposers.sent <+: t.toProposers.sent
  acks : s.toLearners.sent <+: u.toLearners.sent ∧ u.toLearners.sent <+: t.toLearners.sent
  fresh : u = acceptorInitRecover u

theorem crashedBetween_recover (s : AcceptorState) :
    CrashedBetween s s (acceptorInitRecover s) where
  acceptorId := rfl
  storage := rfl
  promises := ⟨List.prefix_refl _, List.prefix_refl _⟩
  acks := ⟨List.prefix_refl _, List.prefix_refl _⟩
  fresh := rfl

theorem crashedBetween_promises {t : TxAcceptor} {u : AcceptorState} {n : ℕ}
    (stored : ((diskOf s).after put (t.actions.drop n)).stored = u.storage)
    (sent : s.toProposers.sent ++
      ofProposers.batches ((diskOf s).after put (t.actions.drop n)).sent <+: u.toProposers.sent)
    (others : u.toLearners = s.toLearners ∧ u.thisAcceptorId = s.thisAcceptorId) :
    CrashedBetween s u (crashedBatch ofProposers s t n) where
  acceptorId := others.2.symm
  storage := stored
  promises := ⟨List.prefix_append _ _, sent⟩
  acks := ⟨List.prefix_refl _, others.1 ▸ List.prefix_refl _⟩
  fresh := rfl

theorem crashedBetween_acks {t : TxAcceptor} {u : AcceptorState} {n : ℕ}
    (stored : ((diskOf s).after put (t.actions.drop n)).stored = u.storage)
    (sent : s.toLearners.sent ++
      ofLearners.batches ((diskOf s).after put (t.actions.drop n)).sent <+: u.toLearners.sent)
    (others : u.toProposers = s.toProposers ∧ u.thisAcceptorId = s.thisAcceptorId) :
    CrashedBetween s u (crashedBatch ofLearners s t n) where
  acceptorId := others.2.symm
  storage := stored
  promises := ⟨List.prefix_refl _, others.1 ▸ List.prefix_refl _⟩
  acks := ⟨List.prefix_append _ _, sent⟩
  fresh := rfl

theorem prepares_keep_learners (s : AcceptorState) (prepares : List PrepareReq) :
    (Paxos2Acceptor.handlePrepareReqBatch cfg s prepares).toLearners = s.toLearners ∧
      (Paxos2Acceptor.handlePrepareReqBatch cfg s prepares).thisAcceptorId =
        s.thisAcceptorId := by
  refine run_invariant (s := s.clearToProposers) (fun t : AcceptorState =>
    t.toLearners = s.toLearners ∧ t.thisAcceptorId = s.thisAcceptorId) ⟨rfl, rfl⟩
      fun t pr same => ?_
  rcases Paxos2AcceptorSafety.handlePrepareReq_cases cfg t pr with unchanged | ⟨_, _, _, saved⟩
  · rwa [unchanged]
  · rwa [saved]

theorem accepts_keep_proposers (s : AcceptorState) (accepts : List AcceptReq) :
    (Paxos2Acceptor.handleAcceptReqBatch cfg s accepts).toProposers = s.toProposers ∧
      (Paxos2Acceptor.handleAcceptReqBatch cfg s accepts).thisAcceptorId =
        s.thisAcceptorId := by
  refine run_invariant (s := s.clearToLearners) (fun t : AcceptorState =>
    t.toProposers = s.toProposers ∧ t.thisAcceptorId = s.thisAcceptorId) ⟨rfl, rfl⟩
      fun t ar same => ?_
  rcases Paxos2AcceptorSafety.handleAcceptReq_cases cfg t ar with
    ⟨_, _, _, unchanged⟩ | ⟨_, saved⟩
  · rwa [unchanged]
  · rwa [saved]

theorem repeats_keep_proposers (s : AcceptorState) (requests : List ℕ) :
    (Paxos2Acceptor.handleRepeatReqBatch cfg s requests).toProposers = s.toProposers ∧
      (Paxos2Acceptor.handleRepeatReqBatch cfg s requests).thisAcceptorId =
        s.thisAcceptorId := by
  refine run_invariant (s := s.clearToLearners) (fun t : AcceptorState =>
    t.toProposers = s.toProposers ∧ t.thisAcceptorId = s.thisAcceptorId) ⟨rfl, rfl⟩
      fun t iid same => ?_
  rcases Paxos2AcceptorSafety.handleRepeatReq_cases cfg t iid with unchanged | ⟨_, _, _, saved⟩
  · rwa [unchanged]
  · rwa [saved]

/-- A crash at any point of a message leaves the acceptor as if the message had held its first
items only: their records are all stored, no other record is, and nothing was sent that rests
on a record that is lost. -/
theorem crash_keeps_first_items (cfg : Config) (s : AcceptorState) (msg : PaxosMsg) (n : ℕ) :
    ∃ k, CrashedBetween s (Paxos2Acceptor.accHandleNewmsg cfg s (firstItems k msg))
      (crashed cfg s msg n) := by
  cases msg with
  | prepareReqs p prepares =>
    obtain ⟨k, stored, sent⟩ :=
      handleBatch_everyPoint (keeps_handlePrepareReq cfg) s prepares n
    rw [handleBatch_acceptor toProposers handlePrepareReq_acceptor] at stored sent
    exact ⟨k, crashedBetween_promises stored sent (prepares_keep_learners s _)⟩
  | acceptReqs p accepts =>
    obtain ⟨k, stored, sent⟩ := handleBatch_everyPoint (keeps_handleAcceptReq cfg) s accepts n
    rw [handleBatch_acceptor toLearners handleAcceptReq_acceptor] at stored sent
    exact ⟨k, crashedBetween_acks stored sent (accepts_keep_proposers s _)⟩
  | repeatReqs requests =>
    obtain ⟨k, stored, sent⟩ := handleBatch_everyPoint (keeps_handleRepeatReq cfg) s requests n
    rw [handleBatch_acceptor toLearners handleRepeatReq_acceptor] at stored sent
    exact ⟨k, crashedBetween_acks stored sent (repeats_keep_proposers s _)⟩
  | prepareAcks | acceptAcks | submit | leaderAnnounce =>
    exact ⟨0, crashedBetween_recover s⟩

end Messages

section Lives

variable {cfg : Config} {s t u : AcceptorState}

/-- Two buffers with the same open message, of which one has sent fewer messages. -/
structure FewerSent {ι : Type} (sb sb' : SendBuf ι) : Prop where
  dirty : sb.dirty = sb'.dirty
  dataSize : sb.dataSize = sb'.dataSize
  items : sb.items = sb'.items
  sent : sb.sent.Sublist sb'.sent

section Buffers

variable {ι : Type} {sb sb' : SendBuf ι}

theorem FewerSent.refl (sb : SendBuf ι) : FewerSent sb sb := ⟨rfl, rfl, rfl, List.Sublist.refl _⟩

theorem FewerSent.trans {sb'' : SendBuf ι} (h : FewerSent sb sb') (h' : FewerSent sb' sb'') :
    FewerSent sb sb'' :=
  ⟨h.dirty.trans h'.dirty, h.dataSize.trans h'.dataSize, h.items.trans h'.items,
    h.sent.trans h'.sent⟩

theorem FewerSent.clear (h : FewerSent sb sb') :
    FewerSent (Paxos2SendBuffer.sendbufClear sb) (Paxos2SendBuffer.sendbufClear sb') :=
  ⟨rfl, rfl, rfl, h.sent⟩

theorem FewerSent.flush (h : FewerSent sb sb') :
    FewerSent (Paxos2SendBuffer.sendbufFlush sb) (Paxos2SendBuffer.sendbufFlush sb') := by
  unfold Paxos2SendBuffer.sendbufFlush
  by_cases dirty : sb'.dirty
  · rw [if_pos (h.dirty.trans dirty), if_pos dirty]
    refine ⟨h.dirty, h.dataSize, h.items, ?_⟩
    change (sb.sent ++ [sb.items]).Sublist (sb'.sent ++ [sb'.items])
    rw [h.items]
    exact h.sent.append_right _
  · rw [if_neg (h.dirty ▸ dirty), if_neg dirty]
    exact h

theorem FewerSent.add (h : FewerSent sb sb') (cfg : Config) (size : ι → ℕ) (x : ι) :
    FewerSent (Paxos2SendBuffer.sendbufAdd cfg size sb x)
      (Paxos2SendBuffer.sendbufAdd cfg size sb' x) := by
  have same : cfg.maxUdpMsgSize ≤ paxosMsgHeader + sb.dataSize + size x ↔
      cfg.maxUdpMsgSize ≤ paxosMsgHeader + sb'.dataSize + size x := by
    rw [h.dataSize]
  unfold Paxos2SendBuffer.sendbufAdd
  by_cases full : cfg.maxUdpMsgSize ≤ paxosMsgHeader + sb'.dataSize + size x
  · simp only [if_pos full, if_pos (same.mpr full)]
    exact ⟨rfl, rfl, rfl, h.flush.sent⟩
  · simp only [if_neg full, if_neg (mt same.mp full)]
    exact ⟨rfl, congrArg (· + size x) h.dataSize, congrArg (· ++ [x]) h.items, h.sent⟩

end Buffers

structure SaysLess (s t : AcceptorState) : Prop where
  acceptorId : s.thisAcceptorId = t.thisAcceptorId
  highest : s.highestAcceptedIid = t.highestAcceptedIid
  storage : s.storage = t.storage
  promises : FewerSent s.toProposers t.toProposers
  acks : FewerSent s.toLearners t.toLearners

theorem SaysLess.trans (h : SaysLess s t) (h' : SaysLess t u) : SaysLess s u where
  acceptorId := h.acceptorId.trans h'.acceptorId
  highest := h.highest.trans h'.highest
  storage := h.storage.trans h'.storage
  promises := h.promises.trans h'.promises
  acks := h.acks.trans h'.acks

theorem SaysLess.prepareReq (h : SaysLess s t) (pr : PrepareReq) :
    SaysLess (Paxos2Acceptor.handlePrepareReq cfg s pr)
      (Paxos2Acceptor.handlePrepareReq cfg t pr) := by
  unfold Paxos2Acceptor.handlePrepareReq Paxos2Acceptor.accApplyPrepare
  rw [h.storage]
  split_ifs
  · exact h
  · exact h
  · exact ⟨h.acceptorId, h.highest, rfl, h.promises.add cfg _ _, h.acks⟩

theorem SaysLess.acceptReq (h : SaysLess s t) (ar : AcceptReq) :
    SaysLess (Paxos2Acceptor.handleAcceptReq cfg s ar)
      (Paxos2Acceptor.handleAcceptReq cfg t ar) := by
  unfold Paxos2Acceptor.handleAcceptReq Paxos2Acceptor.accApplyAccept
  rw [h.storage]
  by_cases newer : ∃ r ∈ stablestorageGetRecord t.storage ar.iid, r.ballot < ar.ballot
  · simp only [if_pos newer]
    exact h
  · simp only [if_neg newer]
    exact ⟨h.acceptorId, by rw [h.highest], rfl, h.promises, h.acks.add cfg _ _⟩

theorem SaysLess.repeatReq (h : SaysLess s t) (iid : ℕ) :
    SaysLess (Paxos2Acceptor.handleRepeatReq cfg s iid)
      (Paxos2Acceptor.handleRepeatReq cfg t iid) := by
  unfold Paxos2Acceptor.handleRepeatReq
  rw [h.storage]
  cases stablestorageGetRecord t.storage iid with
  | none => exact h
  | some rec =>
    dsimp only
    split_ifs
    · exact ⟨h.acceptorId, h.highest, rfl, h.promises, h.acks.add cfg _ _⟩
    · exact h

theorem SaysLess.run {α : Type} {handle : AcceptorState → α → AcceptorState}
    (keeps : ∀ s t a, SaysLess s t → SaysLess (handle s a) (handle t a)) (h : SaysLess s t)
    (items : List α) :
    SaysLess (TransitionRuns.run handle s items) (TransitionRuns.run handle t items) := by
  induction items generalizing s t with
  | nil => exact h
  | cons a items ih => exact ih (keeps s t a h)

theorem SaysLess.clearToProposers (h : SaysLess s t) :
    SaysLess s.clearToProposers t.clearToProposers :=
  { h with promises := h.promises.clear }

theorem SaysLess.flushToProposers (h : SaysLess s t) :
    SaysLess s.flushToProposers t.flushToProposers :=
  { h with promises := h.promises.flush }

theorem SaysLess.clearToLearners (h : SaysLess s t) :
    SaysLess s.clearToLearners t.clearToLearners :=
  { h with acks := h.acks.clear }

theorem SaysLess.flushToLearners (h : SaysLess s t) :
    SaysLess s.flushToLearners t.flushToLearners :=
  { h with acks := h.acks.flush }

theorem SaysLess.newmsg (h : SaysLess s t) (msg : PaxosMsg) :
    SaysLess (Paxos2Acceptor.accHandleNewmsg cfg s msg)
      (Paxos2Acceptor.accHandleNewmsg cfg t msg) := by
  cases msg with
  | prepareReqs _ prepares =>
    exact (h.clearToProposers.run (fun _ _ pr h => h.prepareReq pr) prepares).flushToProposers
  | acceptReqs _ accepts =>
    exact (h.clearToLearners.run (fun _ _ ar h => h.acceptReq ar) accepts).flushToLearners
  | repeatReqs requests =>
    exact (h.clearToLearners.run (fun _ _ iid h => h.repeatReq iid) requests).flushToLearners
  | prepareAcks | acceptAcks | submit | leaderAnnounce => exact h

theorem SaysLess.recover (h : SaysLess s t) :
    SaysLess (acceptorInitRecover s) (acceptorInitRecover t) where
  acceptorId := h.acceptorId
  highest := rfl
  storage := h.storage
  promises := ⟨rfl, rfl, rfl, h.promises.sent⟩
  acks := ⟨rfl, rfl, rfl, h.acks.sent⟩

theorem CrashedBetween.saysLess (h : CrashedBetween s t u) :
    SaysLess u (acceptorInitRecover t) where
  acceptorId := h.acceptorId
  highest := by
    rw [h.fresh]
    rfl
  storage := h.storage
  promises := by
    rw [h.fresh]
    exact ⟨rfl, rfl, rfl, h.promises.2.sublist⟩
  acks := by
    rw [h.fresh]
    exact ⟨rfl, rfl, rfl, h.acks.2.sublist⟩

/-- The same for outcomes: both run, or both have stopped for the same reason. -/
inductive OutcomeSaysLess :
    Outcome AcceptorFault AcceptorState → Outcome AcceptorFault AcceptorState → Prop where
  | running {s t : AcceptorState} (h : SaysLess s t) : OutcomeSaysLess (.running s) (.running t)
  | aborted {s t : AcceptorState} (fault : AcceptorFault) (h : SaysLess s t) :
      OutcomeSaysLess (.aborted fault s) (.aborted fault t)

theorem retransmit_of_record {rec : AcceptorRecord}
    (found : stablestorageGetRecord s.storage s.highestAcceptedIid = some rec) :
    Paxos2Acceptor.accRetransmitLatestAccept cfg s =
      .running { s.clearToLearners with
        toLearners := Paxos2SendBuffer.sendbufAddAcceptAck cfg s.clearToLearners.toLearners
          rec }.flushToLearners := by
  change stablestorageGetRecord s.clearToLearners.storage s.clearToLearners.highestAcceptedIid =
    some rec at found
  simp only [Paxos2Acceptor.accRetransmitLatestAccept, found]

theorem retransmit_of_no_record
    (missing : stablestorageGetRecord s.storage s.highestAcceptedIid = none) :
    Paxos2Acceptor.accRetransmitLatestAccept cfg s = .aborted .nullRecord s.clearToLearners := by
  change stablestorageGetRecord s.clearToLearners.storage s.clearToLearners.highestAcceptedIid =
    none at missing
  simp only [Paxos2Acceptor.accRetransmitLatestAccept, missing]

theorem SaysLess.periodicRepeat (h : SaysLess s t) :
    OutcomeSaysLess (Paxos2Acceptor.accPeriodicRepeater cfg s)
      (Paxos2Acceptor.accPeriodicRepeater cfg t) := by
  have same : stablestorageGetRecord s.storage s.highestAcceptedIid =
      stablestorageGetRecord t.storage t.highestAcceptedIid := by
    rw [h.storage, h.highest]
  unfold Paxos2Acceptor.accPeriodicRepeater
  rw [h.highest]
  split_ifs
  · cases found : stablestorageGetRecord t.storage t.highestAcceptedIid with
    | none =>
      rw [retransmit_of_no_record found, retransmit_of_no_record (same.trans found)]
      exact .aborted _ h.clearToLearners
    | some rec =>
      rw [retransmit_of_record found, retransmit_of_record (same.trans found)]
      exact .running ⟨h.acceptorId, h.highest, h.storage, h.promises,
        (h.acks.clear.add cfg _ _).flush⟩
  · exact .running h

/-- An event of an acceptor's life, or a crash in the middle of a message. -/
inductive CrashingEvent where
  | event (e : AcceptorEvent)
  | crash (msg : PaxosMsg) (n : ℕ)

def crashingStep (cfg : Config) (o : Outcome AcceptorFault AcceptorState) :
    CrashingEvent → Outcome AcceptorFault AcceptorState
  | .event e => acceptorEventStep cfg o e
  | .crash msg n =>
    match o with
    | .running s => .running (crashed cfg s msg n)
    | .aborted _ s => .running (acceptorInitRecover s)

/-- Each crash in a message is replaced by one after the first items of the message. -/
inductive Expands : List CrashingEvent → List AcceptorEvent → Prop where
  | nil : Expands [] []
  | event {events : List CrashingEvent} {events' : List AcceptorEvent} (e : AcceptorEvent)
      (rest : Expands events events') : Expands (.event e :: events) (e :: events')
  | crash {events : List CrashingEvent} {events' : List AcceptorEvent} (msg : PaxosMsg)
      (n k : ℕ) (rest : Expands events events') :
      Expands (.crash msg n :: events) (.newmsg (firstItems k msg) :: .recover :: events')

variable {o o' : Outcome AcceptorFault AcceptorState}

theorem OutcomeSaysLess.event (h : OutcomeSaysLess o o') (e : AcceptorEvent) :
    OutcomeSaysLess (acceptorEventStep cfg o e) (acceptorEventStep cfg o' e) := by
  cases h with
  | running h =>
    cases e with
    | newmsg msg => exact .running (h.newmsg msg)
    | periodicRepeat => exact h.periodicRepeat
    | deliver value iid ballot =>
      exact .running { h with storage := congrArg (put · _) h.storage }
    | reads readError =>
      exact .running { h with storage := congrArg (fun st => { st with readError }) h.storage }
    | recover => exact .running h.recover
  | aborted fault h =>
    cases e with
    | recover => exact .running h.recover
    | newmsg | periodicRepeat | deliver | reads => exact .aborted fault h

theorem OutcomeSaysLess.crash (h : OutcomeSaysLess o o') (msg : PaxosMsg) (n : ℕ) :
    ∃ k, OutcomeSaysLess (crashingStep cfg o (.crash msg n))
      (run (acceptorEventStep cfg) o' [.newmsg (firstItems k msg), .recover]) := by
  cases h with
  | @running s t h =>
    obtain ⟨k, between⟩ := crash_keeps_first_items cfg s msg n
    exact ⟨k, .running (between.saysLess.trans (h.newmsg (firstItems k msg)).recover)⟩
  | aborted fault h => exact ⟨0, .running h.recover⟩

theorem OutcomeSaysLess.life (h : OutcomeSaysLess o o') (events : List CrashingEvent) :
    ∃ events', Expands events events' ∧
      OutcomeSaysLess (run (crashingStep cfg) o events)
        (run (acceptorEventStep cfg) o' events') := by
  induction events generalizing o o' with
  | nil => exact ⟨[], .nil, h⟩
  | cons e events ih =>
    cases e with
    | event e =>
      obtain ⟨events', expands, less⟩ := ih (h.event e)
      exact ⟨e :: events', .event e expands, less⟩
    | crash msg n =>
      obtain ⟨k, less⟩ := h.crash msg n
      obtain ⟨events', expands, less⟩ := ih less
      exact ⟨_, .crash msg n k expands, less⟩

end Lives

/-- The life of an acceptor that crashes at any points of its messages is one in which each of
them holds its first items only and crashes come between messages, but for messages that
were not sent. -/
theorem crashing_life_refines (cfg : Config) (a : ℕ) (events : List CrashingEvent) :
    ∃ events', Expands events events' ∧
      OutcomeSaysLess (run (crashingStep cfg) (.running (Paxos2Acceptor.acceptorInit a)) events)
        (run (acceptorEventStep cfg) (.running (Paxos2Acceptor.acceptorInit a)) events') :=
  OutcomeSaysLess.life (.running ⟨rfl, rfl, rfl, .refl _, .refl _⟩) events

end FdsPaxos.Paxos2CrashRecovery
