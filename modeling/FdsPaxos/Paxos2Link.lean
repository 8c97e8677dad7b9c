import FdsPaxos.Paxos2BufferEdits
import FdsPaxos.Paxos2ValueSize

set_option autoImplicit false

namespace FdsPaxos.Paxos2Link
open ByteMemory TransitionRuns Paxos2Config Paxos2Wire Paxos2BatchCodec Paxos2BatchRoundTrip
open Paxos2ValueSize Paxos2BufferEdits
open Paxos2Messages (Value PaxosMsg paxosMsgHeader batchHeader)
open Paxos2SendBuffer (SendBuf sendbufNew)

/-- How the items of the processes are stored in the fields of a batch.  Instance ids and
ballots are stored in 32 bits. -/
structure ItemFields (α ι : Type) where
  codec : BatchCodec ι
  size : α → ℕ
  numbers : α → List ℕ
  store : UInt16 → α → ι
  load : ι → α
  size_store : ∀ padding x, codec.size (store padding x) = size x
  load_store : ∀ padding x, (∀ n ∈ numbers x, n < 2 ^ 32) → load (store padding x) = x

theorem toNat_ofNat_of_lt {n : ℕ} (h : n < 2 ^ 32) : (UInt32.ofNat n).toNat = n :=
  UInt32.toNat_ofNat_of_lt' h

def prepareReqFields : ItemFields Paxos2Messages.PrepareReq PrepareReq where
  codec := prepareReqs
  size := Paxos2Messages.prepareReqSize
  numbers := fun pr => [pr.iid, pr.ballot]
  store := fun _ pr => ⟨.ofNat pr.iid, .ofNat pr.ballot⟩
  load := fun pr => ⟨pr.iid.toNat, pr.ballot.toNat⟩
  size_store := fun _ _ => rfl
  load_store := by
    intro _ pr range
    simp only [List.forall_mem_cons, List.not_mem_nil, false_implies, forall_true_iff] at range
    simp only [toNat_ofNat_of_lt range.1, toNat_ofNat_of_lt range.2.1]

def prepareAckFields : ItemFields Paxos2Messages.PrepareAck PrepareAck where
  codec := prepareAcks
  size := Paxos2Messages.prepareAckSize
  numbers := fun pa => [pa.iid, pa.ballot, pa.valueBallot]
  store := fun _ pa => ⟨.ofNat pa.iid, .ofNat pa.ballot, .ofNat pa.valueBallot, pa.value⟩
  load := fun pa => ⟨pa.iid.toNat, pa.ballot.toNat, pa.valueBallot.toNat, pa.value⟩
  size_store := fun _ _ => rfl
  load_store := by
    intro _ pa range
    simp only [List.forall_mem_cons, List.not_mem_nil, false_implies, forall_true_iff] at range
    simp only [toNat_ofNat_of_lt range.1, toNat_ofNat_of_lt range.2.1,
      toNat_ofNat_of_lt range.2.2.1]

def acceptReqFields : ItemFields Paxos2Messages.AcceptReq AcceptReq where
  codec := acceptReqs
  size := Paxos2Messages.acceptReqSize
  numbers := fun ar => [ar.iid, ar.ballot]
  store := fun _ ar => ⟨.ofNat ar.iid, .ofNat ar.ballot, ar.value⟩
  load := fun ar => ⟨ar.iid.toNat, ar.ballot.toNat, ar.value⟩
  size_store := fun _ _ => rfl
  load_store := by
    intro _ ar range
    simp only [List.forall_mem_cons, List.not_mem_nil, false_implies, forall_true_iff] at range
    simp only [toNat_ofNat_of_lt range.1, toNat_ofNat_of_lt range.2.1]

def acceptAckFields : ItemFields Paxos2Messages.AcceptAck AcceptAck where
  codec := acceptAcks
  size := Paxos2Messages.acceptAckSize
  numbers := fun aa => [aa.iid, aa.ballot, aa.valueBallot]
  store := fun padding aa =>
    ⟨.ofNat aa.iid, .ofNat aa.ballot, .ofNat aa.valueBallot, if aa.isFinal then 1 else 0, padding,
      aa.value⟩
  load := fun aa =>
    ⟨aa.iid.toNat, aa.ballot.toNat, aa.valueBallot.toNat, decide (aa.isFinal ≠ 0), aa.value⟩
  size_store := fun _ _ => rfl
  load_store := by
    intro _ aa range
    simp only [List.forall_mem_cons, List.not_mem_nil, false_implies, forall_true_iff] at range
    simp only [toNat_ofNat_of_lt range.1, toNat_ofNat_of_lt range.2.1,
      toNat_ofNat_of_lt range.2.2.1]
    cases final : aa.isFinal with
    | false => simp [← final]
    | true => simp [← final]

def repeatReqFields : ItemFields ℕ UInt32 where
  codec := repeatReqs
  size := Paxos2Messages.repeatReqSize
  numbers := fun iid => [iid]
  store := fun _ iid => .ofNat iid
  load := UInt32.toNat
  size_store := fun _ _ => rfl
  load_store := by
    intro _ iid range
    exact toNat_ofNat_of_lt (range iid List.mem_cons_self)

/-- The assertion on the type of the open message, a message that is longer than its buffer, and
a number that does not fit into its field. -/
inductive LinkFault where
  | openType
  | overrun
  | numberRange
deriving DecidableEq

def udpSendbufNew : UdpSendBuffer := ⟨false, fun _ => 0, []⟩

section Send

variable {α ι : Type}

def addItem (c : BatchCodec ι) (sb : UdpSendBuffer) (x : ι) : Outcome LinkFault UdpSendBuffer :=
  match sendbufAdd c sb x with
  | none => .aborted .openType sb
  | some sb' => .check (paxosMsgSize sb'.buffer ≤ maxUdpMsgSize) .overrun sb' (.running sb')

/-- The items of a batch as they are stored; each has its own padding. -/
def stored (f : ItemFields α ι) (padding : ℕ → UInt16) (items : List α) : List ι :=
  items.zipIdx.map fun x => f.store (padding x.2) x.1

/-- One batch, from the `sendbuf_clear` in front of it to the `sendbuf_flush` behind it. -/
def sendBatch (f : ItemFields α ι) (senderId : ℤ) (padding : ℕ → UInt16) (sb : UdpSendBuffer)
    (items : List α) : Outcome LinkFault UdpSendBuffer :=
  .check (∀ x ∈ items, ∀ n ∈ f.numbers x, n < 2 ^ 32) .numberRange sb
    ((Outcome.fold (addItem f.codec) (sendbufClear sb f.codec.type senderId)
      (stored f padding items)).map sendbufFlush)

end Send

/-- The oracle does not clear its buffer, which it uses for these messages only. -/
def sendbufSendLeaderAnnounce (sb : UdpSendBuffer) (leaderId : ℤ) : UdpSendBuffer :=
  let typed := putLe sb.buffer 4 typeAt PaxosMsgCode.leaderAnnounce.code
  let sized := putLe typed 8 dataSizeAt leaderAnnounceMsgSize
  sendbufFlush { sb with dirty := true, buffer := putSigned sized 2 dataAt leaderId }

def transmit (padding : ℕ → UInt16) (sb : UdpSendBuffer) :
    PaxosMsg → Outcome LinkFault UdpSendBuffer
  | .prepareReqs proposerId prepares => sendBatch prepareReqFields proposerId padding sb prepares
  | .prepareAcks acceptorId acks => sendBatch prepareAckFields acceptorId padding sb acks
  | .acceptReqs proposerId accepts => sendBatch acceptReqFields proposerId padding sb accepts
  | .acceptAcks acceptorId acks => sendBatch acceptAckFields acceptorId padding sb acks
  | .repeatReqs requests => sendBatch repeatReqFields (-1) padding sb requests
  | .submit value =>
    match paxSubmitNonblock sb value with
    | none => .aborted .openType sb
    | some sb' => .check (paxosMsgSize sb'.buffer ≤ maxUdpMsgSize) .overrun sb' (.running sb')
  | .leaderAnnounce currentLeader =>
    .check (currentLeader < 2 ^ 15) .numberRange sb
      (.running (sendbufSendLeaderAnnounce sb currentLeader))

section Receive

variable {α ι : Type}

def readBatch (f : ItemFields α ι) (m : Memory) : List α := (batchItems f.codec m).map f.load

def readSender (f : ItemFields α ι) (m : Memory) : ℕ := (senderOf f.codec m).toNat

/-- What a receiver finds in its buffer, by the type of the message.  There is nothing for a
process here in a ping, and the oracle announces no negative id. -/
def readMsg (m : Memory) : PaxosMsgCode → Option PaxosMsg
  | .prepareReqs =>
    some (.prepareReqs (readSender prepareReqFields m) (readBatch prepareReqFields m))
  | .prepareAcks =>
    some (.prepareAcks (readSender prepareAckFields m) (readBatch prepareAckFields m))
  | .acceptReqs => some (.acceptReqs (readSender acceptReqFields m) (readBatch acceptReqFields m))
  | .acceptAcks => some (.acceptAcks (readSender acceptAckFields m) (readBatch acceptAckFields m))
  | .repeatReqs => some (.repeatReqs (readBatch repeatReqFields m))
  | .submit => some (.submit (read m dataAt (dataSize m)))
  | .leaderAnnounce =>
    let currentLeader := getSigned m 2 dataAt
    if 0 ≤ currentLeader then some (.leaderAnnounce currentLeader.toNat) else none
  | .alivePing => none

/-- A datagram received into a buffer that holds `buf`. -/
def receive (buf : Memory) (datagram : List UInt8) : Option PaxosMsg :=
  let received := udpReadNextMessage buf datagram
  if received.2 < 0 then none else (msgType received.1).bind (readMsg received.1)

end Receive

/-- Wherever the datagram is received, it is the message `m`. -/
def Brings (datagram : List UInt8) (m : PaxosMsg) : Prop :=
  ∀ buf, receive buf datagram = some m

/-- A batch from a sender of the configuration, whose items go into one message and fit it. -/
structure BatchFits {α ι : Type} (f : ItemFields α ι) (senderId : ℤ) (items : List α) : Prop where
  sender : SenderValid f.codec.layout senderId
  oneMessage : OneMessage Config.default f.size items
  short : ∀ x ∈ items, paxosMsgHeader + batchHeader + f.size x ≤ maxUdpMsgSize

def Sendable : PaxosMsg → Prop
  | .prepareReqs proposerId prepares => BatchFits prepareReqFields proposerId prepares
  | .prepareAcks acceptorId acks => BatchFits prepareAckFields acceptorId acks
  | .acceptReqs proposerId accepts => BatchFits acceptReqFields proposerId accepts
  | .acceptAcks acceptorId acks => BatchFits acceptAckFields acceptorId acks
  | .repeatReqs requests => BatchFits repeatReqFields (-1) requests
  | .submit value => paxosMsgHeader + value.length ≤ maxUdpMsgSize
  | .leaderAnnounce _ => True

section Batch

variable {α ι : Type} {c : BatchCodec ι} {sender : ℤ} {sb : UdpSendBuffer} {items : List ι}

theorem maxUdpMsgSize_eq : maxUdpMsgSize = 7500 := rfl

theorem addItem_holds (h : Holds c sender sb.buffer items) (valid : SenderValid c.layout sender)
    {x : ι} (fits : paxosMsgHeader + batchHeader + c.size x ≤ maxUdpMsgSize)
    (room : paxosMsgHeader + dataSize sb.buffer + c.size x < maxUdpMsgSize ∨
      sb.dirty = false ∧ items = []) :
    ∃ sb', addItem c sb x = .running sb' ∧ sb'.sent = sb.sent ∧ sb'.dirty = true ∧
      Holds c sender sb'.buffer (items ++ [x]) ∧
      (paxosMsgHeader + dataSize sb.buffer + c.size x < maxUdpMsgSize →
        dataSize sb'.buffer = dataSize sb.buffer + c.size x) := by
  have header : paxosMsgHeader = 16 := rfl
  have limit := maxUdpMsgSize_eq
  have size := h.size
  have short := h.short
  have sum : sizeT (paxosMsgSize sb.buffer + c.size x) =
      paxosMsgHeader + dataSize sb.buffer + c.size x := by
    unfold sizeT
    omega
  unfold addItem sendbufAdd
  rw [if_pos h.msgType, sum]
  by_cases full : maxUdpMsgSize ≤ paxosMsgHeader + dataSize sb.buffer + c.size x
  · obtain ⟨clean, rfl⟩ := room.resolve_left (Nat.not_lt.mpr full)
    have unsent : sendbufFlush sb = sb := by
      unfold sendbufFlush
      rw [clean]
      rfl
    obtain ⟨empty, cleared⟩ := h.reopened valid sb
    obtain ⟨holds, -⟩ := empty.append x (by rw [cleared]; exact fits)
    have small := holds.short
    have whole := holds.size
    rw [if_pos full, unsent]
    dsimp only
    rw [Outcome.check, if_pos (by omega)]
    exact ⟨_, rfl, rfl, rfl, holds, fun less => absurd full (Nat.not_le.mpr less)⟩
  · obtain ⟨holds, grown⟩ := h.append x (by omega)
    have small := holds.short
    have whole := holds.size
    rw [if_neg full]
    dsimp only
    rw [Outcome.check, if_pos (by omega)]
    exact ⟨_, rfl, rfl, rfl, holds, fun _ => grown⟩

theorem addItems_holds (h : Holds c sender sb.buffer items) (valid : SenderValid c.layout sender)
    (xs : List ι)
    (room : paxosMsgHeader + dataSize sb.buffer + (xs.map c.size).sum < maxUdpMsgSize) :
    ∃ sb', Outcome.fold (addItem c) sb xs = .running sb' ∧ sb'.sent = sb.sent ∧
      sb'.dirty = (sb.dirty || !xs.isEmpty) ∧ Holds c sender sb'.buffer (items ++ xs) := by
  induction xs generalizing sb items with
  | nil => exact ⟨sb, rfl, rfl, by simp, by simpa using h⟩
  | cons x xs ih =>
    have data := h.data
    rw [List.map_cons, List.sum_cons] at room
    obtain ⟨sb₁, added, sent, dirty, holds, grown⟩ :=
      addItem_holds h valid (x := x) (by omega) (.inl (by omega))
    have size := grown (by omega)
    obtain ⟨sb₂, rest, sent', dirty', holds'⟩ := ih holds (by omega)
    refine ⟨sb₂, ?_, sent'.trans sent, ?_, ?_⟩
    · rw [Outcome.fold_cons, added, Outcome.bind_running, rest]
    · rw [dirty', dirty]
      simp
    · rw [List.append_assoc] at holds'
      exact holds'

theorem addItems_oneMessage (c : BatchCodec ι) (sb : UdpSendBuffer)
    (valid : SenderValid c.layout sender) {xs : List ι}
    (one : OneMessage Config.default c.size xs)
    (short : ∀ x ∈ xs, paxosMsgHeader + batchHeader + c.size x ≤ maxUdpMsgSize) :
    ∃ sb', Outcome.fold (addItem c) (sendbufClear sb c.type sender) xs = .running sb' ∧
      sb'.sent = sb.sent ∧ sb'.dirty = !xs.isEmpty ∧ Holds c sender sb'.buffer xs := by
  obtain ⟨empty, size⟩ := holds_clear c sb valid
  rcases one with few | small
  · cases xs with
    | nil => exact ⟨_, rfl, rfl, rfl, empty⟩
    | cons x xs =>
      obtain rfl : xs = [] := by simpa using few
      obtain ⟨sb', added, sent, dirty, holds, -⟩ :=
        addItem_holds empty valid (short x List.mem_cons_self) (.inr ⟨rfl, rfl⟩)
      refine ⟨sb', ?_, sent, dirty, holds⟩
      rw [Outcome.fold_cons, added]
      rfl
  · refine addItems_holds empty valid xs ?_
    rw [size]
    exact small

variable {f : ItemFields α ι}

theorem stored_size (f : ItemFields α ι) (padding : ℕ → UInt16) (items : List α) :
    (stored f padding items).map f.codec.size = items.map f.size := by
  unfold stored
  rw [List.map_map]
  calc
    items.zipIdx.map (f.codec.size ∘ fun x => f.store (padding x.2) x.1) =
        items.zipIdx.map (f.size ∘ Prod.fst) :=
      List.map_congr_left fun x _ => f.size_store _ _
    _ = items.map f.size := by rw [← List.map_map, List.zipIdx_map_fst]

theorem load_stored (f : ItemFields α ι) (padding : ℕ → UInt16) {items : List α}
    (range : ∀ x ∈ items, ∀ n ∈ f.numbers x, n < 2 ^ 32) :
    (stored f padding items).map f.load = items := by
  unfold stored
  rw [List.map_map]
  calc
    items.zipIdx.map (f.load ∘ fun x => f.store (padding x.2) x.1) = items.zipIdx.map Prod.fst :=
      List.map_congr_left fun x hx => f.load_store _ _ (range x.1 (List.fst_mem_of_mem_zipIdx hx))
    _ = items := List.zipIdx_map_fst _ _

theorem BatchFits.stored {sender : ℤ} {items : List α} (h : BatchFits f sender items)
    (padding : ℕ → UInt16) :
    OneMessage Config.default f.codec.size (Paxos2Link.stored f padding items) ∧
      ∀ x ∈ Paxos2Link.stored f padding items,
        paxosMsgHeader + batchHeader + f.codec.size x ≤ maxUdpMsgSize := by
  have size := stored_size f padding items
  have length : (Paxos2Link.stored f padding items).length = items.length := by
    simp [Paxos2Link.stored]
  refine ⟨?_, fun x hx => ?_⟩
  · unfold OneMessage
    rw [size, length]
    exact h.oneMessage
  · have same : f.codec.size x ∈ items.map f.size := size ▸ List.mem_map_of_mem hx
    obtain ⟨y, hy, eq⟩ := List.mem_map.mp same
    rw [← eq]
    exact h.short y hy

theorem sendBatch_ensures {sender : ℤ} {items : List α} (h : BatchFits f sender items)
    (padding : ℕ → UInt16) (sb : UdpSendBuffer) :
    (sendBatch f sender padding sb items).Ensures
      (fun sb' => (∀ x ∈ items, ∀ n ∈ f.numbers x, n < 2 ^ 32) ∧
        ((items = [] ∧ sb'.sent = sb.sent) ∨ ∃ datagram, sb'.sent = sb.sent ++ [datagram] ∧
          Sent f.codec sender datagram (stored f padding items)))
      (· = .numberRange) := by
  unfold sendBatch Outcome.check
  split_ifs with range
  · obtain ⟨one, short⟩ := h.stored padding
    obtain ⟨sb', added, sent, dirty, holds⟩ := addItems_oneMessage f.codec sb h.sender one short
    rw [added]
    refine ⟨range, ?_⟩
    unfold sendbufFlush
    rw [dirty, ← sent]
    cases items with
    | nil => exact .inl ⟨rfl, rfl⟩
    | cons x items => exact .inr ⟨_, rfl, holds.sent⟩
  · rfl

end Batch

variable {α ι : Type} {f : ItemFields α ι} {sender : ℤ} {items : List α} {datagram : List UInt8}

theorem Sent.receive {padding : ℕ → UInt16}
    (h : Sent f.codec sender datagram (stored f padding items))
    (valid : SenderValid f.codec.layout sender)
    (range : ∀ x ∈ items, ∀ n ∈ f.numbers x, n < 2 ^ 32) (buf : Memory) :
    Paxos2Link.receive buf datagram = readMsg (write buf 0 datagram) f.codec.type ∧
      readBatch f (write buf 0 datagram) = items ∧
      ∀ a ∈ f.codec.layout.senderAt, readSender f (write buf 0 datagram) = sender.toNat := by
  have accepted := h.accepted valid
  have holds := h.holds buf
  have same := udpReadNextMessage_short h.short buf
  have verdict := accepted.valid buf
  have type := accepted.type buf
  rw [same] at verdict type
  refine ⟨?_, ?_, fun a ha => ?_⟩
  · unfold Paxos2Link.receive
    rw [same]
    dsimp only at verdict type ⊢
    rw [verdict, type]
    rfl
  · unfold readBatch
    rw [holds.batchItems]
    exact load_stored f padding range
  · unfold readSender senderOf
    rw [Option.mem_def.mp ha]
    exact congrArg Int.toNat (holds.sender a ha)

/-- A message within the ranges of its fields, which the receivers do not check. -/
def InRange : PaxosMsg → Prop
  | .prepareReqs _ prepares => ∀ pr ∈ prepares, ∀ n ∈ prepareReqFields.numbers pr, n < 2 ^ 32
  | .prepareAcks _ acks => ∀ pa ∈ acks, ∀ n ∈ prepareAckFields.numbers pa, n < 2 ^ 32
  | .acceptReqs _ accepts => ∀ ar ∈ accepts, ∀ n ∈ acceptReqFields.numbers ar, n < 2 ^ 32
  | .acceptAcks _ acks => ∀ aa ∈ acks, ∀ n ∈ acceptAckFields.numbers aa, n < 2 ^ 32
  | .repeatReqs requests => ∀ iid ∈ requests, ∀ n ∈ repeatReqFields.numbers iid, n < 2 ^ 32
  | .submit _ => True
  | .leaderAnnounce currentLeader => currentLeader < 2 ^ 15

def IsEmpty : PaxosMsg → Prop
  | .prepareReqs _ prepares => prepares = []
  | .prepareAcks _ acks => acks = []
  | .acceptReqs _ accepts => accepts = []
  | .acceptAcks _ acks => acks = []
  | .repeatReqs requests => requests = []
  | .submit _ | .leaderAnnounce _ => False

/-- What sending a message leaves: nothing new for an empty batch, else one datagram that is
read as the message. -/
def Transmitted (sb sb' : UdpSendBuffer) (m : PaxosMsg) : Prop :=
  (IsEmpty m ∧ sb'.sent = sb.sent) ∨
    ∃ datagram, sb'.sent = sb.sent ++ [datagram] ∧ Brings datagram m

theorem sendBatch_transmitted (h : BatchFits f sender items) (padding : ℕ → UInt16)
    (sb : UdpSendBuffer) {m : PaxosMsg} {P : Prop} (empty : items = [] → IsEmpty m)
    (inRange : P ↔ ∀ x ∈ items, ∀ n ∈ f.numbers x, n < 2 ^ 32)
    (reads : ∀ buf datagram, readBatch f (write buf 0 datagram) = items →
      (∀ a ∈ f.codec.layout.senderAt, readSender f (write buf 0 datagram) = sender.toNat) →
      readMsg (write buf 0 datagram) f.codec.type = some m) :
    (sendBatch f sender padding sb items).Ensures (fun sb' => P ∧ Transmitted sb sb' m)
      (fun fault => fault = .numberRange ∧ ¬ P) := by
  have ensured := sendBatch_ensures h padding sb
  by_cases range : ∀ x ∈ items, ∀ n ∈ f.numbers x, n < 2 ^ 32
  · have done : ∃ sb', sendBatch f sender padding sb items = .running sb' := by
      obtain ⟨one, short⟩ := h.stored padding
      obtain ⟨sb', added, -⟩ := addItems_oneMessage f.codec sb h.sender one short
      exact ⟨sendbufFlush sb', by rw [sendBatch, Outcome.check, if_pos range, added]; rfl⟩
    obtain ⟨sb', done⟩ := done
    rw [done] at ensured ⊢
    refine ⟨inRange.mpr range, ?_⟩
    rcases ensured.2 with ⟨none, same⟩ | ⟨datagram, sent, is⟩
    · exact .inl ⟨empty none, same⟩
    · refine .inr ⟨datagram, sent, fun buf => ?_⟩
      obtain ⟨received, batch, senders⟩ := Sent.receive is h.sender range buf
      rw [received]
      exact reads buf datagram batch senders
  · have stopped : sendBatch f sender padding sb items = .aborted .numberRange sb := by
      rw [sendBatch, Outcome.check, if_neg range]
    rw [stopped]
    exact ⟨rfl, fun holds => range (inRange.mp holds)⟩

theorem receive_unbatched {message : Memory} {type : PaxosMsgCode}
    (typed : getLe message 4 typeAt = type.code) (unbatched : batchLayout type = none)
    (header : paxosMsgHeader ≤ paxosMsgSize message) (short : paxosMsgSize message ≤ maxUdpMsgSize)
    (buf : Memory) :
    receive buf (read message 0 (paxosMsgSize message)) =
        readMsg (write buf 0 (read message 0 (paxosMsgSize message))) type ∧
      AgreeOn 0 (paxosMsgSize message) message
        (write buf 0 (read message 0 (paxosMsgSize message))) := by
  have header_size : paxosMsgHeader = 16 := rfl
  have size_first : dataSizeAt = 0 := rfl
  have type_second : typeAt = 8 := rfl
  have copied := agreeOn_write_read message buf 0 (paxosMsgSize message)
  rw [Nat.zero_add] at copied
  have same_size : dataSize (write buf 0 (read message 0 (paxosMsgSize message))) =
      dataSize message := (getLe_congr (copied.mono (by omega) (by omega))).symm
  have same_type : msgType (write buf 0 (read message 0 (paxosMsgSize message))) = some type := by
    rw [msgType, ← getLe_congr (copied.mono (by omega) (by omega)), typed,
      PaxosMsgCode.ofCode_code]
  have verdict : validatePaxosMsg (write buf 0 (read message 0 (paxosMsgSize message)))
      (read message 0 (paxosMsgSize message)).length = 0 := by
    unfold validatePaxosMsg
    rw [same_size, same_type, length_read, if_neg (fun differs => differs rfl)]
    dsimp only
    rw [unbatched]
    rfl
  refine ⟨?_, copied⟩
  unfold receive
  rw [udpReadNextMessage_short (by rw [length_read]; exact short)]
  dsimp only
  rw [verdict, same_type]
  rfl

/-- The message that `pax_submit_nonblock` makes and sends. -/
theorem submit_filled {value : Value} (short : paxosMsgHeader + value.length ≤ maxUdpMsgSize)
    (sb : UdpSendBuffer) :
    ∃ filled, getLe filled 4 typeAt = PaxosMsgCode.submit.code ∧ dataSize filled = value.length ∧
      read filled dataAt value.length = value ∧
      paxSubmitNonblock sb value = some { sendbufClear sb .submit 0 with
        dirty := true
        buffer := filled
        sent := sb.sent ++ [read filled 0 (paxosMsgSize filled)] } := by
  have header : paxosMsgHeader = 16 := rfl
  have limit := maxUdpMsgSize_eq
  have start : dataAt = 12 := rfl
  have size_first : dataSizeAt = 0 := rfl
  have type_second : typeAt = 8 := rfl
  set typed := (sendbufClear sb .submit 0).buffer with htyped
  have cleared : typed = putLe (putLe sb.buffer 4 typeAt PaxosMsgCode.submit.code) 8 dataSizeAt 0 :=
    rfl
  have type : getLe typed 4 typeAt = PaxosMsgCode.submit.code := by
    rw [cleared, getLe_putLe_apart _ _ (by omega),
      getLe_putLe_of_lt _ _ PaxosMsgCode.submit.code_lt]
  have empty : dataSize typed = 0 := by
    rw [cleared]
    exact getLe_putLe_of_lt _ _ (by decide)
  set filled := write (putLe typed 8 dataSizeAt (dataSize typed + value.length)) dataAt value
    with hfilled
  refine ⟨filled, ?_, ?_, ?_, ?_⟩
  · rw [hfilled, getLe_write_apart _ _ (by omega), getLe_putLe_apart _ _ (by omega), type]
  · change getLe filled 8 dataSizeAt = _
    rw [hfilled, getLe_write_apart _ _ (by omega), empty, Nat.zero_add]
    exact getLe_putLe_of_lt _ _ (by norm_num; omega)
  · rw [hfilled, read_write]
  · have open_ : msgType typed = some .submit := by
      rw [msgType, type, PaxosMsgCode.ofCode_code]
    simp only [paxSubmitNonblock, sendbufAddSubmitVal, ← htyped, if_pos open_, ← hfilled,
      Option.map_some]
    rfl

theorem submit_transmitted {value : Value} (short : paxosMsgHeader + value.length ≤ maxUdpMsgSize)
    (sb : UdpSendBuffer) :
    ∃ sb', paxSubmitNonblock sb value = some sb' ∧ paxosMsgSize sb'.buffer ≤ maxUdpMsgSize ∧
      Transmitted sb sb' (.submit value) := by
  have header : paxosMsgHeader = 16 := rfl
  have limit := maxUdpMsgSize_eq
  have start : dataAt = 12 := rfl
  have size_first : dataSizeAt = 0 := rfl
  obtain ⟨filled, filled_type, filled_size, contents, submitted⟩ := submit_filled short sb
  have size : paxosMsgSize filled = value.length + paxosMsgHeader := by
    unfold paxosMsgSize sizeT
    rw [filled_size]
    omega
  refine ⟨_, submitted, by dsimp only; omega, .inr ⟨_, rfl, fun buf => ?_⟩⟩
  obtain ⟨received, copied⟩ :=
    receive_unbatched filled_type rfl (by omega) (by omega) buf
  have same : dataSize (write buf 0 (read filled 0 (paxosMsgSize filled))) = value.length := by
    rw [← filled_size]
    exact (getLe_congr (copied.mono (by omega) (by omega))).symm
  rw [received]
  change some (PaxosMsg.submit _) = _
  rw [same, ← read_congr (copied.mono (by omega) (by omega)), contents]

theorem leaderAnnounce_transmitted {currentLeader : ℕ} (range : currentLeader < 2 ^ 15)
    (sb : UdpSendBuffer) :
    Transmitted sb (sendbufSendLeaderAnnounce sb currentLeader)
      (.leaderAnnounce currentLeader) := by
  have header : paxosMsgHeader = 16 := rfl
  have limit := maxUdpMsgSize_eq
  have start : dataAt = 12 := rfl
  have size_first : dataSizeAt = 0 := rfl
  have type_second : typeAt = 8 := rfl
  have low : (-32768 : ℤ) ≤ currentLeader := by omega
  have high : (currentLeader : ℤ) < 32768 := by omega
  set typed := putLe sb.buffer 4 typeAt PaxosMsgCode.leaderAnnounce.code
  set sized := putLe typed 8 dataSizeAt leaderAnnounceMsgSize
  set named := putSigned sized 2 dataAt currentLeader
  have type : getLe named 4 typeAt = PaxosMsgCode.leaderAnnounce.code := by
    rw [getLe_putSigned_apart _ _ (by omega), getLe_putLe_apart _ _ (by omega),
      getLe_putLe_of_lt _ _ PaxosMsgCode.leaderAnnounce.code_lt]
  have data : dataSize named = 2 := by
    change getLe named 8 dataSizeAt = _
    rw [getLe_putSigned_apart _ _ (by omega)]
    exact getLe_putLe_of_lt _ _ (by decide)
  have size : paxosMsgSize named = 18 := by
    unfold paxosMsgSize sizeT
    rw [data]
    rfl
  refine .inr ⟨_, rfl, fun buf => ?_⟩
  obtain ⟨received, copied⟩ := receive_unbatched type rfl (by omega) (by omega) buf
  have same : getSigned (write buf 0 (read named 0 (paxosMsgSize named))) 2 dataAt =
      currentLeader := by
    rw [← getSigned_congr (copied.mono (by omega) (by omega))]
    exact getSigned_putSigned_two _ _ low high
  rw [received]
  unfold readMsg
  dsimp only
  rw [same, if_pos (Int.natCast_nonneg _), Int.toNat_natCast]

theorem submit_done {value : Value} (h : Sendable (.submit value)) (padding : ℕ → UInt16)
    (sb : UdpSendBuffer) :
    ∃ sb', transmit padding sb (.submit value) = .running sb' ∧
      Transmitted sb sb' (.submit value) := by
  obtain ⟨sb', submitted, short, transmitted⟩ := submit_transmitted h sb
  refine ⟨sb', ?_, transmitted⟩
  simp only [transmit, submitted, Outcome.check, if_pos short]

/-- A message that can be sent is, if its numbers fit their fields. -/
theorem transmit_ensures {m : PaxosMsg} (h : Sendable m) (padding : ℕ → UInt16)
    (sb : UdpSendBuffer) :
    (transmit padding sb m).Ensures (fun sb' => InRange m ∧ Transmitted sb sb' m)
      (fun fault => fault = .numberRange ∧ ¬ InRange m) := by
  cases m with
  | prepareReqs p prepares =>
    have fits : BatchFits prepareReqFields p prepares := h
    refine sendBatch_transmitted fits padding sb (fun none => none) Iff.rfl ?_
    intro buf datagram batch sender
    have id : readSender prepareReqFields (write buf 0 datagram) = p := sender 14 rfl
    change some (PaxosMsg.prepareReqs (readSender prepareReqFields _)
      (readBatch prepareReqFields _)) = _
    rw [batch, id]
  | prepareAcks a acks =>
    have fits : BatchFits prepareAckFields a acks := h
    refine sendBatch_transmitted fits padding sb (fun none => none) Iff.rfl ?_
    intro buf datagram batch sender
    have id : readSender prepareAckFields (write buf 0 datagram) = a := sender 12 rfl
    change some (PaxosMsg.prepareAcks (readSender prepareAckFields _)
      (readBatch prepareAckFields _)) = _
    rw [batch, id]
  | acceptReqs p accepts =>
    have fits : BatchFits acceptReqFields p accepts := h
    refine sendBatch_transmitted fits padding sb (fun none => none) Iff.rfl ?_
    intro buf datagram batch sender
    have id : readSender acceptReqFields (write buf 0 datagram) = p := sender 14 rfl
    change some (PaxosMsg.acceptReqs (readSender acceptReqFields _)
      (readBatch acceptReqFields _)) = _
    rw [batch, id]
  | acceptAcks a acks =>
    have fits : BatchFits acceptAckFields a acks := h
    refine sendBatch_transmitted fits padding sb (fun none => none) Iff.rfl ?_
    intro buf datagram batch sender
    have id : readSender acceptAckFields (write buf 0 datagram) = a := sender 12 rfl
    change some (PaxosMsg.acceptAcks (readSender acceptAckFields _)
      (readBatch acceptAckFields _)) = _
    rw [batch, id]
  | repeatReqs requests =>
    have fits : BatchFits repeatReqFields (-1) requests := h
    refine sendBatch_transmitted fits padding sb (fun none => none) Iff.rfl ?_
    intro buf datagram batch _
    change some (PaxosMsg.repeatReqs (readBatch repeatReqFields _)) = _
    rw [batch]
  | submit value =>
    have done := submit_done h padding sb
    generalize transmit padding sb (.submit value) = o at done ⊢
    obtain ⟨sb', rfl, transmitted⟩ := done
    exact ⟨trivial, transmitted⟩
  | leaderAnnounce currentLeader =>
    unfold transmit Outcome.check
    dsimp only
    split_ifs with range
    · exact ⟨range, leaderAnnounce_transmitted range sb⟩
    · exact ⟨rfl, range⟩

end FdsPaxos.Paxos2Link
