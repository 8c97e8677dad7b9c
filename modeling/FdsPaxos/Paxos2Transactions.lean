import FdsPaxos.Paxos2Acceptor
import FdsPaxos.TransactionLog

set_option autoImplicit false

/-!
The acceptor with the transactions of its storage, in the durability modes 10 to 13: when and
where it begins and commits them, writes records and sends acknowledgements.
-/

namespace FdsPaxos.Paxos2Transactions
open TransitionRuns TransactionLog Paxos2Config Paxos2Messages Paxos2StableStorage
open Paxos2SendBuffer (SendBuf)
open Paxos2Acceptor (AcceptorState)

inductive Ack where
  | prepareAck (pa : PrepareAck)
  | acceptAck (aa : AcceptAck)

def prepareAckOf (rec : AcceptorRecord) : PrepareAck :=
  { iid := rec.iid, ballot := rec.ballot, valueBallot := rec.valueBallot, value := rec.value }

/-- The acknowledgement tells of the record. -/
def Carries (rec : AcceptorRecord) : Ack → Prop
  | .prepareAck pa => pa = prepareAckOf rec
  | .acceptAck aa => aa = rec

/-- `actions` lists what was done, latest first. -/
structure TxAcceptor where
  acceptor : AcceptorState
  actions : List (Action AcceptorRecord Ack)

structure Channel (ι : Type) where
  buffer : AcceptorState → SendBuf ι
  withBuffer : AcceptorState → SendBuf ι → AcceptorState
  ack : ι → Ack
  buffer_withBuffer : ∀ s sb, buffer (withBuffer s sb) = sb
  storage_withBuffer : ∀ s sb, (withBuffer s sb).storage = s.storage
  withBuffer_withBuffer : ∀ s sb sb', withBuffer (withBuffer s sb) sb' = withBuffer s sb'
  withBuffer_buffer : ∀ s, withBuffer s (buffer s) = s

def toProposers : Channel PrepareAck where
  buffer := AcceptorState.toProposers
  withBuffer := fun s sb => { s with toProposers := sb }
  ack := .prepareAck
  buffer_withBuffer := fun _ _ => rfl
  storage_withBuffer := fun _ _ => rfl
  withBuffer_withBuffer := fun _ _ _ => rfl
  withBuffer_buffer := fun _ => rfl

def toLearners : Channel AcceptAck where
  buffer := AcceptorState.toLearners
  withBuffer := fun s sb => { s with toLearners := sb }
  ack := .acceptAck
  buffer_withBuffer := fun _ _ => rfl
  storage_withBuffer := fun _ _ => rfl
  withBuffer_withBuffer := fun _ _ _ => rfl
  withBuffer_buffer := fun _ => rfl

def stablestorageTxBegin (s : TxAcceptor) : TxAcceptor :=
  { s with actions := .txBegin :: s.actions }

def stablestorageTxEnd (s : TxAcceptor) : TxAcceptor :=
  { s with actions := .txEnd :: s.actions }

section Buffers

variable {ι : Type} (c : Channel ι)

def sendbufClear (s : TxAcceptor) : TxAcceptor :=
  { s with
    acceptor := c.withBuffer s.acceptor (Paxos2SendBuffer.sendbufClear (c.buffer s.acceptor)) }

def sendbufFlush (s : TxAcceptor) : TxAcceptor :=
  let sb := c.buffer s.acceptor
  { acceptor := c.withBuffer s.acceptor (Paxos2SendBuffer.sendbufFlush sb)
    actions := if sb.dirty then .send (sb.items.map c.ack) :: s.actions else s.actions }

def sendbufAppend (size : ι → ℕ) (sb : SendBuf ι) (x : ι) : SendBuf ι where
  dirty := true
  dataSize := sb.dataSize + size x
  items := sb.items ++ [x]
  sent := sb.sent
  clean := fun h => nomatch h

/-- The bodies of `sendbuf_add_prepare_ack` and `sendbuf_add_accept_ack`: the open message is
sent between two transactions. -/
def sendbufAddAck (cfg : Config) (size : ι → ℕ) (s : TxAcceptor) (x : ι) : TxAcceptor :=
  let s :=
    if cfg.maxUdpMsgSize ≤ paxosMsgHeader + (c.buffer s.acceptor).dataSize + size x then
      stablestorageTxBegin (sendbufClear c (sendbufFlush c (stablestorageTxEnd s)))
    else s
  { s with acceptor := c.withBuffer s.acceptor (sendbufAppend size (c.buffer s.acceptor) x) }

end Buffers

section Handlers

variable (cfg : Config)

def sendbufAddPrepareAck (s : TxAcceptor) (rec : AcceptorRecord) : TxAcceptor :=
  sendbufAddAck toProposers cfg prepareAckSize s (prepareAckOf rec)

def sendbufAddAcceptAck (s : TxAcceptor) (rec : AcceptorRecord) : TxAcceptor :=
  sendbufAddAck toLearners cfg acceptAckSize s rec

def accSaved (s : TxAcceptor) (applied : AcceptorState × Option AcceptorRecord) : TxAcceptor :=
  { acceptor := applied.1
    actions := (applied.2.map Action.put).toList ++ s.actions }

def handlePrepareReq (s : TxAcceptor) (pr : PrepareReq) : TxAcceptor :=
  let applied := Paxos2Acceptor.accApplyPrepare s.acceptor pr
    (stablestorageGetRecord s.acceptor.storage pr.iid)
  match applied.2 with
  | some rec => sendbufAddPrepareAck cfg (accSaved s applied) rec
  | none => accSaved s applied

def handleAcceptReq (s : TxAcceptor) (ar : AcceptReq) : TxAcceptor :=
  let applied := Paxos2Acceptor.accApplyAccept s.acceptor ar
    (stablestorageGetRecord s.acceptor.storage ar.iid)
  match applied.2 with
  | some rec => sendbufAddAcceptAck cfg (accSaved s applied) rec
  | none => accSaved s applied

def handleRepeatReq (s : TxAcceptor) (iid : ℕ) : TxAcceptor :=
  match stablestorageGetRecord s.acceptor.storage iid with
  | some rec => if 0 < rec.value.length then sendbufAddAcceptAck cfg s rec else s
  | none => s

/-- The frame of the three batch handlers: the buffer is cleared, the items are handled in a
transaction, and what is left in the buffer is sent. -/
def handleBatch {ι α : Type} (c : Channel ι) (handle : TxAcceptor → α → TxAcceptor)
    (s : TxAcceptor) (batch : List α) : TxAcceptor :=
  sendbufFlush c (stablestorageTxEnd (run handle (stablestorageTxBegin (sendbufClear c s)) batch))

def handlePrepareReqBatch : TxAcceptor → List PrepareReq → TxAcceptor :=
  handleBatch toProposers (handlePrepareReq cfg)

def handleAcceptReqBatch : TxAcceptor → List AcceptReq → TxAcceptor :=
  handleBatch toLearners (handleAcceptReq cfg)

def handleRepeatReqBatch : TxAcceptor → List ℕ → TxAcceptor :=
  handleBatch toLearners (handleRepeatReq cfg)

def accHandleNewmsg (s : TxAcceptor) : PaxosMsg → TxAcceptor
  | .prepareReqs _ prepares => handlePrepareReqBatch cfg s prepares
  | .acceptReqs _ accepts => handleAcceptReqBatch cfg s accepts
  | .repeatReqs requests => handleRepeatReqBatch cfg s requests
  | _ => s

end Handlers

section Refinement

variable {cfg : Config} {s : TxAcceptor}

theorem sendbufAddAck_acceptor {ι : Type} (c : Channel ι) (size : ι → ℕ) (x : ι) :
    (sendbufAddAck c cfg size s x).acceptor = c.withBuffer s.acceptor
      (Paxos2SendBuffer.sendbufAdd cfg size (c.buffer s.acceptor) x) := by
  unfold sendbufAddAck Paxos2SendBuffer.sendbufAdd
  dsimp only
  split_ifs
  · simp only [stablestorageTxBegin, sendbufClear, sendbufFlush, stablestorageTxEnd,
      c.buffer_withBuffer, c.withBuffer_withBuffer, sendbufAppend]
  · rfl

theorem handlePrepareReq_acceptor (s : TxAcceptor) (pr : PrepareReq) :
    (handlePrepareReq cfg s pr).acceptor = Paxos2Acceptor.handlePrepareReq cfg s.acceptor pr := by
  unfold handlePrepareReq Paxos2Acceptor.handlePrepareReq
  rcases Paxos2Acceptor.accApplyPrepare s.acceptor pr _ with ⟨s', _ | rec⟩
  · rfl
  · exact sendbufAddAck_acceptor toProposers prepareAckSize _

theorem handleAcceptReq_acceptor (s : TxAcceptor) (ar : AcceptReq) :
    (handleAcceptReq cfg s ar).acceptor = Paxos2Acceptor.handleAcceptReq cfg s.acceptor ar := by
  unfold handleAcceptReq Paxos2Acceptor.handleAcceptReq
  rcases Paxos2Acceptor.accApplyAccept s.acceptor ar _ with ⟨s', _ | rec⟩
  · rfl
  · exact sendbufAddAck_acceptor toLearners acceptAckSize _

theorem handleRepeatReq_acceptor (s : TxAcceptor) (iid : ℕ) :
    (handleRepeatReq cfg s iid).acceptor = Paxos2Acceptor.handleRepeatReq cfg s.acceptor iid := by
  unfold handleRepeatReq Paxos2Acceptor.handleRepeatReq
  cases stablestorageGetRecord s.acceptor.storage iid with
  | none => rfl
  | some rec =>
    dsimp only
    split_ifs
    · exact sendbufAddAck_acceptor toLearners acceptAckSize _
    · rfl

theorem handleBatch_acceptor {ι α : Type} (c : Channel ι) {handle : TxAcceptor → α → TxAcceptor}
    {handle' : AcceptorState → α → AcceptorState}
    (same : ∀ s a, (handle s a).acceptor = handle' s.acceptor a) (s : TxAcceptor)
    (batch : List α) : (handleBatch c handle s batch).acceptor =
      let t := run handle' (c.withBuffer s.acceptor
        (Paxos2SendBuffer.sendbufClear (c.buffer s.acceptor))) batch
      c.withBuffer t (Paxos2SendBuffer.sendbufFlush (c.buffer t)) := by
  let begun := stablestorageTxBegin (sendbufClear c s)
  have runs : run handle' begun.acceptor batch = (run handle begun batch).acceptor :=
    List.foldl_hom TxAcceptor.acceptor fun s a => (same s a).symm
  change _ = c.withBuffer (run handle' begun.acceptor batch)
    (Paxos2SendBuffer.sendbufFlush (c.buffer (run handle' begun.acceptor batch)))
  rw [runs]
  rfl

theorem accHandleNewmsg_acceptor (s : TxAcceptor) (msg : PaxosMsg) :
    (accHandleNewmsg cfg s msg).acceptor = Paxos2Acceptor.accHandleNewmsg cfg s.acceptor msg := by
  cases msg with
  | prepareReqs _ prepares => exact handleBatch_acceptor toProposers handlePrepareReq_acceptor s _
  | acceptReqs _ accepts => exact handleBatch_acceptor toLearners handleAcceptReq_acceptor s _
  | repeatReqs requests => exact handleBatch_acceptor toLearners handleRepeatReq_acceptor s _
  | prepareAcks | acceptAcks | submit | leaderAnnounce => rfl

end Refinement

section Batches

variable {ι : Type} {c : Channel ι} {cfg : Config} {start : Log AcceptorRecord}
  {known : Set AcceptorRecord} {s : TxAcceptor}

/-- The records of the database and those behind the open message are known. -/
structure Covers (c : Channel ι) (known : Set AcceptorRecord) (s : AcceptorState) : Prop where
  stored : ∀ i rec, s.storage.db i = some rec → rec ∈ known
  items : ∀ x ∈ (c.buffer s).items, ∃ rec ∈ known, Carries rec (c.ack x)

/-- A batch is being handled: the transaction that is open commits all that is known. -/
def InBatch (c : Channel ι) (start : Log AcceptorRecord) (s : TxAcceptor) : Prop :=
  ∃ known, Inside Carries start s.actions known ∧ Covers c known s.acceptor

/-- Between two batches all that is stored is committed. -/
def Committed (start : Log AcceptorRecord) (s : TxAcceptor) : Prop :=
  Outside Carries start s.actions {rec | ∃ i, s.acceptor.storage.db i = some rec}

theorem Covers.clear (stored : ∀ i rec, s.acceptor.storage.db i = some rec → rec ∈ known) :
    Covers c known (sendbufClear c s).acceptor where
  stored := by
    simp only [sendbufClear, c.storage_withBuffer]
    exact stored
  items := by
    simp [sendbufClear, c.buffer_withBuffer]

theorem sendbufFlush_outside (out : Outside Carries start s.actions known)
    (covers : Covers c known s.acceptor) :
    Outside Carries start (sendbufFlush c s).actions known := by
  unfold sendbufFlush
  dsimp only
  split_ifs
  · refine out.send fun ack hack => ?_
    obtain ⟨x, hx, rfl⟩ := List.mem_map.mp hack
    exact covers.items x hx
  · exact out

theorem sendbufAddAck_inside (size : ι → ℕ) {x : ι} {rec : AcceptorRecord}
    (inside : Inside Carries start s.actions known) (covers : Covers c known s.acceptor)
    (written : rec ∈ known) (carries : Carries rec (c.ack x)) :
    Inside Carries start (sendbufAddAck c cfg size s x).actions known ∧
      Covers c known (sendbufAddAck c cfg size s x).acceptor := by
  have added (t : TxAcceptor) (held : Covers c known t.acceptor) :
      Covers c known
        (c.withBuffer t.acceptor (sendbufAppend size (c.buffer t.acceptor) x)) := by
    refine ⟨?_, fun y hy => ?_⟩
    · rw [c.storage_withBuffer]
      exact held.stored
    · rw [c.buffer_withBuffer] at hy
      rcases List.mem_append.mp hy with old | new
      · exact held.items y old
      · rw [List.mem_singleton.mp new]
        exact ⟨rec, written, carries⟩
  unfold sendbufAddAck
  dsimp only
  split_ifs
  · have flushed : Outside Carries start (sendbufFlush c (stablestorageTxEnd s)).actions known :=
      sendbufFlush_outside inside.txEnd covers
    refine ⟨flushed.txBegin, added _ (Covers.clear ?_)⟩
    simp only [sendbufFlush, stablestorageTxEnd, c.storage_withBuffer]
    exact covers.stored
  · exact ⟨inside, added s covers⟩

inductive Applied (c : Channel ι) (s : AcceptorState) :
    AcceptorState × Option AcceptorRecord → Prop where
  | refused : Applied c s (s, none)
  | saved (s' : AcceptorState) (rec : AcceptorRecord) (storage : s'.storage = put s.storage rec)
      (buffer : c.buffer s' = c.buffer s) : Applied c s (s', some rec)

theorem accApplyPrepare_applied (s : AcceptorState) (pr : PrepareReq)
    (rec : Option AcceptorRecord) :
    Applied toProposers s (Paxos2Acceptor.accApplyPrepare s pr rec) := by
  unfold Paxos2Acceptor.accApplyPrepare
  split_ifs
  · exact .refused
  · exact .refused
  · exact .saved _ _ rfl rfl

theorem accApplyAccept_applied (s : AcceptorState) (ar : AcceptReq) (rec : Option AcceptorRecord) :
    Applied toLearners s (Paxos2Acceptor.accApplyAccept s ar rec) := by
  unfold Paxos2Acceptor.accApplyAccept
  by_cases newer : ∃ r ∈ rec, r.ballot < ar.ballot
  · rw [if_pos newer]
    exact .refused
  · rw [if_neg newer]
    exact .saved _ _ rfl rfl

theorem accSaved_inside {applied : AcceptorState × Option AcceptorRecord}
    (h : Applied c s.acceptor applied) (inside : Inside Carries start s.actions known)
    (covers : Covers c known s.acceptor) :
    ∃ known', Inside Carries start (accSaved s applied).actions known' ∧
      Covers c known' (accSaved s applied).acceptor ∧ ∀ rec ∈ applied.2, rec ∈ known' := by
  cases h with
  | refused => exact ⟨known, inside, covers, fun rec h => nomatch h⟩
  | saved s' rec storage buffer =>
    refine ⟨insert rec known, inside.put rec, ⟨fun i rec' found => ?_, fun x hx => ?_⟩, ?_⟩
    · change s'.storage.db i = some rec' at found
      rw [storage, put_db] at found
      split_ifs at found
      · exact .inl (Option.some.inj found).symm
      · exact .inr (covers.stored i rec' found)
    · change x ∈ (c.buffer s').items at hx
      rw [buffer] at hx
      obtain ⟨rec', held, carries⟩ := covers.items x hx
      exact ⟨rec', .inr held, carries⟩
    · rintro rec' ⟨⟩
      exact .inl rfl

theorem handlePrepareReq_inBatch (h : InBatch toProposers start s) (pr : PrepareReq) :
    InBatch toProposers start (handlePrepareReq cfg s pr) := by
  obtain ⟨known, inside, covers⟩ := h
  obtain ⟨known', inside', covers', written⟩ := accSaved_inside
    (accApplyPrepare_applied s.acceptor pr (stablestorageGetRecord s.acceptor.storage pr.iid))
    inside covers
  unfold handlePrepareReq
  dsimp only
  split
  · next rec found =>
    exact ⟨known', sendbufAddAck_inside prepareAckSize inside' covers' (written rec found) rfl⟩
  · exact ⟨known', inside', covers'⟩

theorem handleAcceptReq_inBatch (h : InBatch toLearners start s) (ar : AcceptReq) :
    InBatch toLearners start (handleAcceptReq cfg s ar) := by
  obtain ⟨known, inside, covers⟩ := h
  obtain ⟨known', inside', covers', written⟩ := accSaved_inside
    (accApplyAccept_applied s.acceptor ar (stablestorageGetRecord s.acceptor.storage ar.iid))
    inside covers
  unfold handleAcceptReq
  dsimp only
  split
  · next rec found =>
    exact ⟨known', sendbufAddAck_inside acceptAckSize inside' covers' (written rec found) rfl⟩
  · exact ⟨known', inside', covers'⟩

theorem handleRepeatReq_inBatch (h : InBatch toLearners start s) (iid : ℕ) :
    InBatch toLearners start (handleRepeatReq cfg s iid) := by
  obtain ⟨known, inside, covers⟩ := h
  unfold handleRepeatReq
  cases found : stablestorageGetRecord s.acceptor.storage iid with
  | none => exact ⟨known, inside, covers⟩
  | some rec =>
    dsimp only
    split_ifs
    · exact ⟨known, sendbufAddAck_inside acceptAckSize inside covers
        (covers.stored iid rec (getRecord_some found)) rfl⟩
    · exact ⟨known, inside, covers⟩

theorem handleBatch_committed {α : Type} {handle : TxAcceptor → α → TxAcceptor}
    (turn : ∀ s a, InBatch c start s → InBatch c start (handle s a)) (h : Committed start s)
    (batch : List α) : Committed start (handleBatch c handle s batch) := by
  have begun : InBatch c start (stablestorageTxBegin (sendbufClear c s)) :=
    ⟨_, Outside.txBegin h, Covers.clear fun i rec found => ⟨i, found⟩⟩
  have handled : InBatch c start (run handle (stablestorageTxBegin (sendbufClear c s)) batch) :=
    run_invariant (InBatch c start) begun turn
  obtain ⟨known, inside, covers⟩ := handled
  obtain ⟨committed, reached, sub⟩ := sendbufFlush_outside
    (s := stablestorageTxEnd (run handle (stablestorageTxBegin (sendbufClear c s)) batch))
    inside.txEnd covers
  refine ⟨committed, reached, fun rec stored => sub ?_⟩
  obtain ⟨i, found⟩ := stored
  simp only [handleBatch, sendbufFlush, c.storage_withBuffer] at found
  exact covers.stored i rec found

end Batches

variable {cfg : Config} {start : Log AcceptorRecord}

theorem accHandleNewmsg_committed (s : TxAcceptor) (msg : PaxosMsg) (h : Committed start s) :
    Committed start (accHandleNewmsg cfg s msg) := by
  cases msg with
  | prepareReqs _ prepares =>
    exact handleBatch_committed (fun _ pr inBatch => handlePrepareReq_inBatch inBatch pr) h _
  | acceptReqs _ accepts =>
    exact handleBatch_committed (fun _ ar inBatch => handleAcceptReq_inBatch inBatch ar) h _
  | repeatReqs requests =>
    exact handleBatch_committed (fun _ iid inBatch => handleRepeatReq_inBatch inBatch iid) h _
  | prepareAcks | acceptAcks | submit | leaderAnnounce => exact h

/-- An acceptor between two batches, whose stored records are those committed so far. -/
def committedLog (s : AcceptorState) : Log AcceptorRecord :=
  ⟨{rec | ∃ i, s.storage.db i = some rec}, none⟩

/-- From any state, whatever batches are handled: the transactions alternate with none left
open, and the record behind each acknowledgement is committed when it is sent. -/
theorem persists_before_ack (cfg : Config) (s : AcceptorState) (msgs : List PaxosMsg) :
    ∃ log, Reaches Carries (committedLog s) (run (accHandleNewmsg cfg) ⟨s, []⟩ msgs).actions log ∧
      log.pending = none := by
  have start : Committed (committedLog s) ⟨s, []⟩ := ⟨_, .nil, fun _ stored => stored⟩
  have done : Committed (committedLog s) (run (accHandleNewmsg cfg) ⟨s, []⟩ msgs) :=
    run_invariant (Committed (committedLog s)) start accHandleNewmsg_committed
  obtain ⟨committed, reached, -⟩ := done
  exact ⟨_, reached, rfl⟩

end FdsPaxos.Paxos2Transactions
