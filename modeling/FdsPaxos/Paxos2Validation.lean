import FdsPaxos.Paxos2Acceptor
import FdsPaxos.Paxos2Link
import FdsPaxos.Paxos2Proposer

set_option autoImplicit false

/-!
What `validate_paxos_msg` lets through: the size it expects and the bytes that the
batch handlers go on to read, against the bytes received.
-/

namespace FdsPaxos.Paxos2Validation
open ByteMemory TransitionRuns Paxos2Config Paxos2Messages Paxos2Wire Paxos2BatchSizes Paxos2Link
open Paxos2StableStorage Paxos2Acceptor Paxos2Learner Paxos2Leader Paxos2Proposer

section Reading

/-- What a batch handler reads of one item.  It needs the end of the header, the size of the
value, to find the next item; a failed assertion on the instance comes before that.  A value is
read alone or copied with its header, as many bytes as the size of the item says. -/
inductive ItemUse where
  | nothing
  | iid
  | header
  | value
  | copy
deriving DecidableEq

variable (l : BatchLayout) (m : Memory)

/-- The bytes read of an item at `a`. -/
def ItemUse.spans (a : ℕ) : ItemUse → List Span
  | nothing => []
  | iid => [⟨a, 4⟩]
  | header => l.itemFields.map (Span.shift a)
  | value => l.itemFields.map (Span.shift a) ++ [⟨a + l.itemHeader, l.valueSize m a⟩]
  | copy => l.itemFields.map (Span.shift a) ++ [⟨a, l.itemSize m a⟩]

/-- Where the reading of an item at `a` ends. -/
def ItemUse.reach (a : ℕ) : ItemUse → ℕ
  | nothing => 0
  | iid => a + 4
  | header => a + l.itemHeader
  | value => a + l.itemHeader + l.valueSize m a
  | copy => a + max l.itemHeader (l.itemSize m a)

/-- A handler on a received batch: whether it heeds the batch at all, and what it reads of each
item. -/
structure BatchReader where
  heeds : Bool
  use : ℕ → ItemUse
  first : heeds = true → use 0 ≠ .nothing

def batchSpans (b : BatchReader) : List Span :=
  (if b.heeds then l.handlerFields else []) ++
    (List.range (l.count m).toNat).flatMap fun i => (b.use i).spans l m (l.itemAddress m i)

end Reading

section Receivers

variable (cfg : Config)

/-- The value of a promise is read where `pro_save_prepare_ack` compares it or keeps it. -/
def promiseUse (acceptorId : ℕ) (s : LeaderState) (pa : PrepareAck) : ItemUse :=
  let ii := s.proposerState (cfg.proIndex pa.iid)
  if ii.status ≠ .p1Pending then .header
  else if pa.ballot ≠ ii.myBallot then .header
  else if ii.promisesBitvector &&& acceptorBit acceptorId ≠ 0 then .header
  else if pa.valueBallot ≤ ii.p1ValueBallot then .header
  else .value

/-- The value of an accept request is read where `acc_apply_accept` stores it. -/
def acceptUse (s : AcceptorState) (ar : AcceptReq) : ItemUse :=
  if ∃ r ∈ stablestorageGetRecord s.storage ar.iid, r.ballot < ar.ballot then .header else .value

/-- An acknowledgement is copied where `lea_update_state` stores it. -/
def ackUse (acceptorId : ℕ) (ls : LearnerState) (aa : AcceptAck) : ItemUse :=
  if aa.iid < ls.currentIid then .header
  else if ls.currentIid + cfg.learnerArraySize ≤ aa.iid then .header
  else
    match leaUpdateState (ls.learnerState (cfg.leaIndex aa.iid)) acceptorId aa with
    | .running (_, true) => .copy
    | .running (_, false) => .header
    | .aborted _ _ => .iid

/-- Item `i` as a batch loop loads it. -/
def readItem {α ι : Type} (f : ItemFields α ι) (m : Memory) (i : ℕ) : α :=
  f.load (f.codec.get m (f.codec.layout.itemAddress m i))

/-- Only the leader heeds promises.  An item is looked at in the state that those before it
leave. -/
def promiseReader (s : ProposerState) (m : Memory) : BatchReader where
  heeds := decide s.LeaderIsMe
  use := fun i =>
    if s.LeaderIsMe then
      let acceptorId := readSender prepareAckFields m
      promiseUse cfg acceptorId
        (handlePrepareAcks cfg acceptorId s.leader ((readBatch prepareAckFields m).take i)).1
        (readItem prepareAckFields m i)
    else .nothing
  first := by
    intro leads
    rw [if_pos (of_decide_eq_true leads)]
    unfold promiseUse
    dsimp only
    split_ifs <;> simp

def acceptReader (s : AcceptorState) (m : Memory) : BatchReader where
  heeds := true
  use := fun i =>
    acceptUse
      (run (handleAcceptReq cfg) s.clearToLearners ((readBatch acceptReqFields m).take i))
      (readItem acceptReqFields m i)
  first := by
    intro _
    unfold acceptUse
    split_ifs <;> simp

def ackReader (ls : LearnerState) (m : Memory) : BatchReader where
  heeds := true
  use := fun i =>
    let acceptorId := readSender acceptAckFields m
    match handleAcceptAckBatch cfg ls acceptorId ((readBatch acceptAckFields m).take i) with
    | .running r => ackUse cfg acceptorId r.1 (readItem acceptAckFields m i)
    | .aborted _ _ => .nothing
  first := by
    intro _
    change ackUse cfg _ ls _ ≠ .nothing
    unfold ackUse
    split_ifs
    · simp
    · simp
    · split <;> simp

def requestReader : BatchReader := ⟨true, fun _ => .header, nofun⟩

/-- The processes that a datagram can reach, in any states. -/
structure Receivers where
  proposer : ProposerState
  acceptor : AcceptorState
  learner : LearnerState

def Receivers.reader (r : Receivers) (m : Memory) : PaxosMsgCode → BatchReader
  | .prepareAcks => promiseReader cfg r.proposer m
  | .acceptReqs => acceptReader cfg r.acceptor m
  | .acceptAcks => ackReader cfg r.learner m
  | _ => requestReader

def Consistent (m : Memory) (msgSize : ℕ) : Prop :=
  ∀ type ∈ msgType m, expectedSize m type = msgSize

/-- The declared items lie back to back.  Where the declared values are so long that the sizes
wrap around, the wrapped sizes give the length, and what is read of the items ends before it. -/
def BatchWhole (l : BatchLayout) (m : Memory) (b : BatchReader) (msgSize : ℕ) : Prop :=
  if l.valueSizeAt.isSome ∧ 2 ^ 64 ≤ itemsAt + wholeItems l m (l.count m).toNat + 4 then
    sizeT (itemsAt + l.dataOffset m (l.count m).toNat + 4) = msgSize ∧
      ∀ i < (l.count m).toNat, (b.use i).reach l m (l.itemAddress m i) ≤ msgSize
  else BackToBack l m msgSize

/-- The message is as long as its own contents make it. -/
def Whole (r : Receivers) (m : Memory) (msgSize : ℕ) : Prop :=
  match msgType m with
  | some .alivePing => msgSize = 32
  | some .leaderAnnounce => msgSize = 18
  | some type => ∀ l ∈ batchLayout type, BatchWhole l m (r.reader cfg m type) msgSize
  | none => True

end Receivers

section Unread

variable {cfg : Config} {acceptorId : ℕ}

theorem handlePrepareAck_unread {s : LeaderState} {pa pa' : PrepareAck} (iid : pa'.iid = pa.iid)
    (ballot : pa'.ballot = pa.ballot) (valueBallot : pa'.valueBallot = pa.valueBallot)
    (unread : promiseUse cfg acceptorId s pa = .header) :
    (handlePrepareAck cfg acceptorId s pa').1.proposerState =
      (handlePrepareAck cfg acceptorId s pa).1.proposerState := by
  set ii := s.proposerState (cfg.proIndex pa.iid) with slot
  have same : ii.status = .p1Pending → pa.ballot = ii.myBallot →
      proSavePrepareAck ii pa' acceptorId = proSavePrepareAck ii pa acceptorId := by
    intro pending mine
    unfold promiseUse at unread
    rw [← slot] at unread
    dsimp only at unread
    rw [if_neg (not_not.mpr pending), if_neg (not_not.mpr mine)] at unread
    unfold proSavePrepareAck savePromiseValue
    dsimp only
    rw [valueBallot]
    split_ifs at unread with received kept
    · rw [if_pos received, if_pos received]
    · rw [if_pos kept, if_pos kept]
      simp only [ite_self]
  have pending_or := Decidable.em (ii.status = .p1Pending)
  have mine_or := Decidable.em (pa.ballot = ii.myBallot)
  unfold handlePrepareAck
  dsimp only [LeaderState.log]
  rw [iid, ballot, ← slot]
  rcases pending_or with pending | pending
  · rcases mine_or with mine | mine
    · rw [if_neg (not_not.mpr pending), if_neg (not_not.mpr pending), if_neg (not_not.mpr mine),
        if_neg (not_not.mpr mine), same pending mine]
      split_ifs <;> rfl
    · rw [if_neg (not_not.mpr pending), if_neg (not_not.mpr pending), if_pos mine, if_pos mine]
  · rw [if_pos pending, if_pos pending]

theorem handleAcceptReq_unread {s : AcceptorState} {ar ar' : AcceptReq} (iid : ar'.iid = ar.iid)
    (ballot : ar'.ballot = ar.ballot) (unread : acceptUse s ar = .header) :
    handleAcceptReq cfg s ar' = handleAcceptReq cfg s ar := by
  unfold acceptUse at unread
  split_ifs at unread with newer
  unfold handleAcceptReq accApplyAccept
  rw [iid, ballot, if_pos newer, if_pos newer]

theorem handleAcceptAck_unread {ls : LearnerState} {aa aa' : AcceptAck} (iid : aa'.iid = aa.iid)
    (ballot : aa'.ballot = aa.ballot) (unread : ackUse cfg acceptorId ls aa ≠ .copy) :
    handleAcceptAck cfg ls acceptorId aa' = handleAcceptAck cfg ls acceptorId aa := by
  have first (ii : LInstInfo) : leaFirstMessage ii aa' = leaFirstMessage ii aa := by
    unfold leaFirstMessage
    rw [iid, ballot]
  unfold ackUse at unread
  unfold handleAcceptAck leaSeen
  dsimp only
  rw [iid]
  by_cases old : aa.iid < ls.currentIid
  · rw [if_pos old, if_pos old]
  by_cases ahead : ls.currentIid + cfg.learnerArraySize ≤ aa.iid
  · rw [if_neg old, if_neg old, if_pos ahead, if_pos ahead]
  rw [if_neg old, if_neg ahead] at unread
  rw [if_neg old, if_neg old, if_neg ahead, if_neg ahead]
  have same : leaUpdateState (ls.learnerState (cfg.leaIndex aa.iid)) acceptorId aa' =
      leaUpdateState (ls.learnerState (cfg.leaIndex aa.iid)) acceptorId aa := by
    unfold leaUpdateState at unread ⊢
    dsimp only at unread ⊢
    rw [first, iid, ballot]
    split_ifs at unread ⊢ with own closed
    · rfl
    · cases found : (leaFirstMessage (ls.learnerState (cfg.leaIndex aa.iid)) aa).acks acceptorId with
      | none =>
        rw [found] at unread
        exact absurd rfl unread
      | some prevAck =>
        rw [found] at unread
        dsimp only at unread ⊢
        split_ifs at unread ⊢ with older
        · rfl
        · exact absurd rfl unread
    · rfl
  rw [same]

end Unread

section Reach

variable {l : BatchLayout} {m : Memory} {msgSize a : ℕ}

theorem header_inside (h : a + l.itemHeader ≤ msgSize) :
    ∀ s ∈ l.itemFields.map (Span.shift a), s.Inside msgSize := by
  intro s hs
  obtain ⟨f, hf, rfl⟩ := List.mem_map.mp hs
  have within := l.fields_within f hf
  right
  unfold Span.shift
  dsimp only
  omega

theorem header_end (h : ∀ s ∈ l.itemFields.map (Span.shift a), s.Inside msgSize) :
    a + l.itemHeader ≤ msgSize := by
  obtain ⟨f, hf, bytes, last⟩ := l.fields_end
  have header := (h _ (List.mem_map_of_mem hf)).le bytes
  unfold Span.shift at header
  dsimp only at header
  omega

theorem header_and_inside_iff (s : Span) :
    (∀ t ∈ l.itemFields.map (Span.shift a) ++ [s], t.Inside msgSize) ↔
      a + l.itemHeader ≤ msgSize ∧ s.Inside msgSize := by
  rw [List.forall_mem_append, List.forall_mem_singleton]
  exact and_congr_left' ⟨header_end, header_inside⟩

theorem spans_inside_iff (use : ItemUse) :
    (∀ s ∈ use.spans l m a, s.Inside msgSize) ↔ use.reach l m a ≤ msgSize := by
  cases use with
  | nothing => simp [ItemUse.spans, ItemUse.reach]
  | iid => simp [ItemUse.spans, ItemUse.reach, Span.Inside]
  | header => exact ⟨header_end, header_inside⟩
  | value =>
    dsimp only [ItemUse.spans, ItemUse.reach]
    rw [header_and_inside_iff]
    dsimp only [Span.Inside]
    omega
  | copy =>
    dsimp only [ItemUse.spans, ItemUse.reach]
    rw [header_and_inside_iff]
    dsimp only [Span.Inside]
    omega

theorem reach_ge {use : ItemUse} (some : use ≠ .nothing) (wide : 4 ≤ l.itemHeader) :
    a + 4 ≤ use.reach l m a := by
  cases use with
  | nothing => exact absurd rfl some
  | _ =>
    dsimp only [ItemUse.reach]
    omega

theorem reach_le (use : ItemUse) (wide : 4 ≤ l.itemHeader) :
    use.reach l m a ≤ a + l.itemHeader + l.valueSize m a := by
  cases use with
  | copy =>
    have wraps : l.itemSize m a ≤ l.valueSize m a + l.itemHeader := Nat.mod_le _ _
    dsimp only [ItemUse.reach]
    omega
  | _ =>
    dsimp only [ItemUse.reach]
    omega

theorem batchSpans_inside_iff (b : BatchReader) :
    (∀ s ∈ batchSpans l m b, s.Inside msgSize) ↔
      (b.heeds = true → ∀ s ∈ l.handlerFields, s.Inside msgSize) ∧
        ∀ i < (l.count m).toNat, (b.use i).reach l m (l.itemAddress m i) ≤ msgSize := by
  unfold batchSpans
  rw [List.forall_mem_append]
  refine and_congr (by split_ifs with heeds <;> simp [heeds]) ?_
  constructor
  · intro inside i hi
    refine (spans_inside_iff _).mp fun s hs => inside s ?_
    exact List.mem_flatMap.mpr ⟨i, List.mem_range.mpr hi, hs⟩
  · intro ends s hs
    obtain ⟨i, hi, hs⟩ := List.mem_flatMap.mp hs
    exact (spans_inside_iff _).mpr (ends i (List.mem_range.mp hi)) s hs

end Reach

section Batches

variable {l : BatchLayout} {m : Memory} {msgSize : ℕ}

theorem BatchLayout.wide {k : ℕ} (valued : l.valueSizeAt = some k) : 4 ≤ l.itemHeader := by
  have within := l.valueSize_within k valued
  omega

theorem inside_of_backToBack {k : ℕ} (valued : l.valueSizeAt = some k)
    (short : msgSize ≤ maxUdpMsgSize) (whole : BackToBack l m msgSize) (b : BatchReader) :
    ∀ s ∈ batchSpans l m b, s.Inside msgSize := by
  have limit : maxUdpMsgSize = 7500 := rfl
  unfold BackToBack at whole
  rw [valued] at whole
  dsimp only at whole
  rw [batchSpans_inside_iff]
  refine ⟨fun _ s hs => .inr ((l.header_within s hs).trans (by omega)), fun i hi => ?_⟩
  have next : wholeItems l m (i + 1) ≤ wholeItems l m (l.count m).toNat := wholeItems_mono hi
  have reach := reach_le (m := m) (a := l.itemAddress m i) (b.use i) (BatchLayout.wide valued)
  simp only [wholeItems] at next
  rw [itemAddress_eq valued (by omega)] at reach ⊢
  omega

theorem handlerFields_inside {k : ℕ} (valued : l.valueSizeAt = some k) {b : BatchReader}
    (some : 0 < (l.count m).toNat)
    (ends : ∀ i < (l.count m).toNat, (b.use i).reach l m (l.itemAddress m i) ≤ msgSize)
    (heeds : b.heeds = true) : ∀ s ∈ l.handlerFields, s.Inside msgSize := by
  have start : itemsAt = 16 := rfl
  have first := reach_ge (m := m) (a := l.itemAddress m 0) (b.first heeds)
    (BatchLayout.wide valued)
  have inside := ends 0 some
  rw [itemAddress_eq valued (by simp only [wholeItems]; omega)] at first inside
  intro s hs
  exact .inr ((l.header_within s hs).trans (by omega))

theorem values_fit_iff {k : ℕ} (valued : l.valueSizeAt = some k) (short : msgSize ≤ maxUdpMsgSize)
    (b : BatchReader) :
    (sizeT (paxosMsgHeader + l.batchSize m) = msgSize ∧
      ∀ s ∈ batchSpans l m b, s.Inside msgSize) ↔ BatchWhole l m b msgSize := by
  unfold BatchWhole
  by_cases wraps : 2 ^ 64 ≤ itemsAt + wholeItems l m (l.count m).toNat + 4
  · rw [if_pos ⟨by rw [valued]; rfl, wraps⟩, values_size valued, batchSpans_inside_iff]
    have some : 0 < (l.count m).toNat := by
      by_contra none
      rw [Nat.eq_zero_of_not_pos none] at wraps
      exact absurd wraps (show ¬ 2 ^ 64 ≤ itemsAt + 0 + 4 by decide)
    exact ⟨fun ⟨size, _, ends⟩ => ⟨size, ends⟩,
      fun ⟨size, ends⟩ => ⟨size, handlerFields_inside valued some ends, ends⟩⟩
  · rw [if_neg fun ⟨_, le⟩ => wraps le]
    refine ⟨fun ⟨size, _⟩ => ?_, fun whole => ⟨whole.size short,
      inside_of_backToBack valued short whole b⟩⟩
    rw [values_size valued, dataOffset_eq _ (by omega)] at size
    unfold BackToBack
    rw [valued]
    exact (Nat.mod_eq_of_lt (by omega)).symm.trans size

theorem batchWhole_of_backToBack (short : msgSize ≤ maxUdpMsgSize) (whole : BackToBack l m msgSize)
    (b : BatchReader) : BatchWhole l m b msgSize := by
  cases kind : l.valueSizeAt with
  | none =>
    unfold BatchWhole
    rw [if_neg (by simp [kind])]
    exact whole
  | some k =>
    exact (values_fit_iff kind short b).mp
      ⟨whole.size short, inside_of_backToBack kind short whole b⟩

end Batches

end FdsPaxos.Paxos2Validation
