import FdsPaxos.Paxos2BatchRoundTrip

set_option autoImplicit false

/-!
The limit of `libpaxos.h` on the size of a value, against the messages that a value
travels in.  The reserve of 40 bytes is four short of what the acknowledgements take.
-/

namespace FdsPaxos.Paxos2ValueSize
open ByteMemory Paxos2Config Paxos2Wire Paxos2BatchCodec Paxos2BatchRoundTrip
open Paxos2Messages (Value paxosMsgHeader batchHeader)
open Paxos2SendBuffer (SendBuf)

def paxosMaxValueSize : ℕ := maxUdpMsgSize - 40

/-- `none` is the failed assertion on the type of the open message. -/
def sendbufAddSubmitVal (sb : UdpSendBuffer) (value : Value) : Option UdpSendBuffer :=
  if msgType sb.buffer = some .submit then
    some { sb with
      dirty := true
      buffer := write (putLe sb.buffer 8 dataSizeAt (dataSize sb.buffer + value.length)) dataAt value }
  else none

def paxSubmitNonblock (sb : UdpSendBuffer) (value : Value) : Option UdpSendBuffer :=
  (sendbufAddSubmitVal (sendbufClear sb .submit 0) value).map sendbufFlush

/-- The open message that replaces the one of `sb`: nothing behind the buffer was written,
and sent as it is, it is within the limit and passes the checks of its receiver. -/
structure MessageFits (sb sb' : UdpSendBuffer) : Prop where
  inside : ∀ hi, AgreeOn maxUdpMsgSize hi sb.buffer sb'.buffer
  short : paxosMsgSize sb'.buffer ≤ maxUdpMsgSize
  accepted : ∀ m, (udpReadNextMessage m (read sb'.buffer 0 (paxosMsgSize sb'.buffer))).2 = 0

/-- The item fits into a message, whatever the buffer holds when it is added. -/
def ItemFits {ι : Type} (c : BatchCodec ι) (x : ι) : Prop :=
  ∀ (sender : ℤ) (sb : UdpSendBuffer) (abs : SendBuf ι), SenderValid c.layout sender →
    Refines c sender sb abs → ∃ sb', sendbufAdd c sb x = some sb' ∧ MessageFits sb sb'

/-- Every message that carries the value between a client and a learner fits. -/
structure ValueFits (value : Value) : Prop where
  submit : ∀ sb, ∃ sb', paxSubmitNonblock sb value = some (sendbufFlush sb') ∧ MessageFits sb sb'
  acceptReq : ∀ iid ballot, ItemFits acceptReqs ⟨iid, ballot, value⟩
  prepareAck : ∀ iid ballot valueBallot,
    ItemFits prepareAcks (prepareAckOf ⟨iid, ballot, valueBallot, 0, 0, value⟩)
  acceptAck : ∀ iid ballot valueBallot isFinal padding,
    ItemFits acceptAcks ⟨iid, ballot, valueBallot, isFinal, padding, value⟩

section Writes

variable {ι : Type} {c : BatchCodec ι} {sender : ℤ} {sb : UdpSendBuffer} {abs : SendBuf ι}
  {m : Memory} {items : List ι}

theorem agreeOn_sendbufClear (sb : UdpSendBuffer) (type : PaxosMsgCode) (senderId : ℤ) (hi : ℕ) :
    AgreeOn itemsAt hi sb.buffer (sendbufClear sb type senderId).buffer := by
  have first : itemsAt = 16 := rfl
  have size_first : dataSizeAt = 0 := rfl
  have type_second : typeAt = 8 := rfl
  have typed : AgreeOn itemsAt hi sb.buffer
      (putLe (putLe sb.buffer 4 typeAt type.code) 8 dataSizeAt 0) :=
    (agreeOn_putLe _ _ (by omega)).trans (agreeOn_putLe _ _ (by omega))
  unfold sendbufClear
  cases batchLayout type with
  | none => exact typed
  | some l =>
    obtain ⟨from_data, to_items⟩ := count_within l
    have counted := (typed.trans (agreeOn_putLe _ batchHeader (w := 8) (a := dataSizeAt)
      (by omega))).trans (agreeOn_putSigned _ 0 (w := 2) (a := l.countAt) (by omega))
    simp only [clearBatch]
    cases at_ : l.senderAt with
    | none => exact counted
    | some a =>
      have within := l.sender_within a at_
      exact counted.trans (agreeOn_putSigned _ _ (by omega))

theorem sendbufFlush_buffer (sb : UdpSendBuffer) : (sendbufFlush sb).buffer = sb.buffer := by
  unfold sendbufFlush
  split_ifs <;> rfl

theorem Holds.agreeOn_append (h : Holds c sender m items) (x : ι) (hi : ℕ) :
    AgreeOn (dataAt + dataSize m + c.size x) hi m (appendItem c m x) := by
  obtain ⟨from_data, to_items⟩ := count_within c.layout
  have data := h.data
  have first : itemsAt = 16 := rfl
  have start : dataAt = 12 := rfl
  have batch : batchHeader = 4 := rfl
  have size_first : dataSizeAt = 0 := rfl
  have item : AgreeOn (dataAt + dataSize m + c.size x) hi m
      (c.put m (dataAt + dataSize m) x) := c.put_outside m _ x _ _ (.inr (by omega))
  unfold appendItem
  rw [h.place]
  exact (item.trans (agreeOn_putLe _ _ (by omega))).trans (agreeOn_putSigned _ _ (by omega))

theorem agreeOn_room (c : BatchCodec ι) (sb : UdpSendBuffer) (full : Prop) [Decidable full] (hi : ℕ) :
    AgreeOn itemsAt hi sb.buffer
      (if full then sendbufClear (sendbufFlush sb) c.type (senderOf c sb.buffer) else sb).buffer := by
  split_ifs
  · have cleared := agreeOn_sendbufClear (sendbufFlush sb) c.type (senderOf c sb.buffer) hi
    rw [sendbufFlush_buffer] at cleared
    exact cleared
  · exact .refl _ _ _

end Writes

section Items

variable {ι : Type} {c : BatchCodec ι} {sender : ℤ} {sb sb' : UdpSendBuffer} {abs : SendBuf ι} {x : ι}

theorem sendbufAdd_buffer (h : Refines c sender sb abs) (added : sendbufAdd c sb x = some sb') :
    sb'.buffer = appendItem c
      (if maxUdpMsgSize ≤ sizeT (paxosMsgSize sb.buffer + c.size x)
        then sendbufClear (sendbufFlush sb) c.type (senderOf c sb.buffer) else sb).buffer x := by
  unfold sendbufAdd at added
  rw [if_pos h.holds.msgType] at added
  rw [← Option.some.inj added]

theorem exists_sendbufAdd (h : Refines c sender sb abs) (x : ι) :
    ∃ sb', sendbufAdd c sb x = some sb' := by
  unfold sendbufAdd
  rw [if_pos h.holds.msgType]
  exact ⟨_, rfl⟩

theorem itemFits_of_le (fits : paxosMsgHeader + batchHeader + c.size x ≤ maxUdpMsgSize) :
    ItemFits c x := by
  intro sender sb abs valid h
  obtain ⟨sb', added, refines⟩ := h.add valid x fits
  have short := refines.holds.short
  refine ⟨sb', added, ?_, ?_, (refines.holds.sent.accepted valid).valid⟩
  · intro hi
    obtain ⟨room, space⟩ := h.room valid fits
    have start : dataAt = 12 := rfl
    have first : itemsAt = 16 := rfl
    have header : paxosMsgHeader = 16 := rfl
    have limit : maxUdpMsgSize = 7500 := rfl
    rw [sendbufAdd_buffer h added]
    exact ((agreeOn_room c sb _ hi).mono (by omega) le_rfl).trans
      ((Holds.agreeOn_append room.holds x hi).mono (by omega) le_rfl)
  · rw [refines.holds.size, Nat.add_comm]
    exact short

theorem too_long_of_not_fits (valid : SenderValid c.layout sender) (h : Refines c sender sb abs)
    (added : sendbufAdd c sb x = some sb') (small : c.size x < 2 ^ 32)
    (long : maxUdpMsgSize < paxosMsgHeader + batchHeader + c.size x) :
    maxUdpMsgSize < paxosMsgSize sb'.buffer := by
  have header : paxosMsgHeader = 16 := rfl
  have limit : maxUdpMsgSize = 7500 := rfl
  have room : ∃ items, Holds c sender
      (if maxUdpMsgSize ≤ sizeT (paxosMsgSize sb.buffer + c.size x)
        then sendbufClear (sendbufFlush sb) c.type (senderOf c sb.buffer) else sb).buffer items := by
    split_ifs
    · exact ⟨[], (h.holds.reopened valid (sendbufFlush sb)).1⟩
    · exact ⟨_, h.holds⟩
  obtain ⟨items, room⟩ := room
  have data := room.data
  have short := room.short
  have size := room.append_dataSize x (by omega)
  rw [← sendbufAdd_buffer h added] at size
  unfold paxosMsgSize sizeT
  omega

theorem itemFits_iff (valid : SenderValid c.layout 0) (small : c.size x < 2 ^ 32) :
    ItemFits c x ↔ paxosMsgHeader + batchHeader + c.size x ≤ maxUdpMsgSize := by
  refine ⟨fun fits => ?_, itemFits_of_le⟩
  have start : Refines c 0 (sendbufClear ⟨false, fun _ => 0, []⟩ c.type 0)
      (Paxos2SendBuffer.sendbufClear Paxos2SendBuffer.sendbufNew) := refines_clear c valid .nil
  obtain ⟨sb', added, message⟩ := fits _ _ _ valid start
  by_contra long
  have tooLong := too_long_of_not_fits valid start added small (Nat.lt_of_not_le long)
  exact Nat.not_lt.mpr message.short tooLong

theorem too_long_rejected {m : Memory} (long : maxUdpMsgSize < paxosMsgSize m)
    (recvBuffer : Memory) :
    (udpReadNextMessage recvBuffer (read m 0 (paxosMsgSize m))).2 = -1 := by
  have limit : maxUdpMsgSize = 7500 := rfl
  have size_first : dataSizeAt = 0 := rfl
  set received := (read m 0 (paxosMsgSize m)).take maxUdpMsgSize with cut
  have length : received.length = maxUdpMsgSize := by
    rw [cut, List.length_take, length_read]
    omega
  have same : received = read m 0 maxUdpMsgSize := by
    simp only [cut, ByteMemory.read, ← List.map_take, List.take_range, Nat.min_eq_left long.le]
  have size : dataSize (write recvBuffer 0 received) = dataSize m := by
    have copied := agreeOn_write_read m recvBuffer 0 maxUdpMsgSize
    rw [← same] at copied
    exact (getLe_congr (copied.mono (by omega) (by omega))).symm
  have differs : sizeT (dataSize m + paxosMsgHeader) ≠ maxUdpMsgSize := Nat.ne_of_gt long
  unfold udpReadNextMessage validatePaxosMsg
  dsimp only
  rw [← cut, length, size, if_pos differs]

end Items

theorem submit_received {message : Memory}
    (type : getLe message 4 typeAt = PaxosMsgCode.submit.code)
    (header : paxosMsgHeader ≤ paxosMsgSize message) (short : paxosMsgSize message ≤ maxUdpMsgSize)
    (m : Memory) : (udpReadNextMessage m (read message 0 (paxosMsgSize message))).2 = 0 := by
  have header_size : paxosMsgHeader = 16 := rfl
  have size_first : dataSizeAt = 0 := rfl
  have type_second : typeAt = 8 := rfl
  rw [udpReadNextMessage_short (by rw [length_read]; omega), length_read]
  have copied := agreeOn_write_read message m 0 (paxosMsgSize message)
  have received_size : dataSize (write m 0 (read message 0 (paxosMsgSize message))) =
      dataSize message := (getLe_congr (copied.mono (by omega) (by omega))).symm
  have received_type : msgType (write m 0 (read message 0 (paxosMsgSize message))) =
      some .submit := by
    rw [msgType, ← getLe_congr (copied.mono (by omega) (by omega)), type,
      PaxosMsgCode.ofCode_code]
  unfold validatePaxosMsg
  rw [received_size, received_type, if_neg (fun differs => differs rfl)]
  rfl

theorem submit_fits (sb : UdpSendBuffer) {value : Value}
    (fits : paxosMsgHeader + value.length ≤ maxUdpMsgSize) :
    ∃ sb', paxSubmitNonblock sb value = some (sendbufFlush sb') ∧ MessageFits sb sb' := by
  have header : paxosMsgHeader = 16 := rfl
  have limit : maxUdpMsgSize = 7500 := rfl
  have start : dataAt = 12 := rfl
  have first : itemsAt = 16 := rfl
  have size_first : dataSizeAt = 0 := rfl
  have type_second : typeAt = 8 := rfl
  have cleared : (sendbufClear sb .submit 0).buffer =
      putLe (putLe sb.buffer 4 typeAt PaxosMsgCode.submit.code) 8 dataSizeAt 0 := rfl
  set typed := (sendbufClear sb .submit 0).buffer with htyped
  have type : getLe typed 4 typeAt = PaxosMsgCode.submit.code := by
    rw [cleared, getLe_putLe_apart _ _ (by omega),
      getLe_putLe_of_lt _ _ PaxosMsgCode.submit.code_lt]
  have empty : dataSize typed = 0 := by
    rw [cleared]
    exact getLe_putLe_of_lt _ _ (by decide)
  set filled := write (putLe typed 8 dataSizeAt (dataSize typed + value.length)) dataAt value
    with hfilled
  have filled_type : getLe filled 4 typeAt = PaxosMsgCode.submit.code := by
    rw [hfilled, getLe_write_apart _ _ (by omega), getLe_putLe_apart _ _ (by omega), type]
  have filled_size : dataSize filled = value.length := by
    change getLe filled 8 dataSizeAt = _
    rw [hfilled, getLe_write_apart _ _ (by omega), empty, Nat.zero_add]
    exact getLe_putLe_of_lt _ _ (by norm_num; omega)
  have size : paxosMsgSize filled = value.length + paxosMsgHeader := by
    unfold paxosMsgSize sizeT
    rw [filled_size]
    omega
  have received := submit_received filled_type (by omega) (by omega)
  refine ⟨{ sendbufClear sb .submit 0 with dirty := true, buffer := filled }, ?_, ?_, ?_, received⟩
  · have open_ : msgType typed = some .submit := by
      rw [msgType, type, PaxosMsgCode.ofCode_code]
    simp only [paxSubmitNonblock, sendbufAddSubmitVal, ← htyped, if_pos open_, ← hfilled,
      Option.map_some]
  · intro hi
    have behind : AgreeOn maxUdpMsgSize hi sb.buffer typed :=
      (agreeOn_sendbufClear sb .submit 0 hi).mono (by omega) le_rfl
    exact (behind.trans (agreeOn_putLe _ _ (by omega))).trans (agreeOn_write _ _ (by omega))
  · change paxosMsgSize filled ≤ _
    omega

/-- A value within the documented limit fits into all the messages it travels in exactly
when it leaves room for the 44 bytes of an acknowledgement. -/
theorem value_fits_iff (value : Value) (limit : value.length ≤ paxosMaxValueSize) :
    ValueFits value ↔ value.length + 44 ≤ maxUdpMsgSize := by
  have limit : value.length ≤ 7460 := limit
  have total : maxUdpMsgSize = 7500 := rfl
  have header : paxosMsgHeader = 16 := rfl
  have batch : batchHeader = 4 := rfl
  constructor
  · intro fits
    have ack := (itemFits_iff (by simp [SenderValid, acceptAcks, acceptAckBatch, Config.default])
      (by simp only [acceptAcks]; omega)).mp (fits.acceptAck 0 0 0 0 0)
    simp only [acceptAcks] at ack
    omega
  · intro room
    constructor
    · intro sb
      exact submit_fits sb (by omega)
    · intro iid ballot
      apply itemFits_of_le
      simp only [acceptReqs]
      omega
    · intro iid ballot valueBallot
      apply itemFits_of_le
      simp only [prepareAcks, prepareAckOf]
      omega
    · intro iid ballot valueBallot isFinal padding
      apply itemFits_of_le
      simp only [acceptAcks]
      omega

theorem one_byte_fits : ValueFits [7] := (value_fits_iff [7] (by decide)).mpr (by decide)

/-- The acknowledgement of a value of the full documented size is longer than the limit, and
its receiver rejects it. -/
theorem longest_value_not_acknowledged :
    (List.replicate 7460 (0 : UInt8)).length = paxosMaxValueSize ∧
    ¬ ValueFits (List.replicate 7460 0) ∧
    ∃ sb', sendbufAddAcceptAck (sendbufClear ⟨false, fun _ => 0, []⟩ .acceptAcks 0)
        ⟨1, 10, 10, 0, 0, List.replicate 7460 0⟩ = some sb' ∧
      maxUdpMsgSize < paxosMsgSize sb'.buffer ∧
      ∀ m, (udpReadNextMessage m (read sb'.buffer 0 (paxosMsgSize sb'.buffer))).2 = -1 := by
  have valid : SenderValid acceptAcks.layout 0 := by
    simp [SenderValid, acceptAcks, acceptAckBatch, Config.default]
  have start : Refines acceptAcks 0 (sendbufClear ⟨false, fun _ => 0, []⟩ .acceptAcks 0)
      (Paxos2SendBuffer.sendbufClear Paxos2SendBuffer.sendbufNew) :=
    refines_clear acceptAcks valid .nil
  have total : maxUdpMsgSize = 7500 := rfl
  have header : paxosMsgHeader = 16 := rfl
  have batch : batchHeader = 4 := rfl
  have size : acceptAcks.size ⟨1, 10, 10, 0, 0, List.replicate 7460 0⟩ = 7484 := by
    simp only [acceptAcks, List.length_replicate]
  obtain ⟨sb', added⟩ := exists_sendbufAdd start ⟨1, 10, 10, 0, 0, List.replicate 7460 0⟩
  have long := too_long_of_not_fits valid start added (by omega) (by omega)
  refine ⟨List.length_replicate, fun fits => ?_, sb', added, long, too_long_rejected long⟩
  obtain ⟨sb'', added', message⟩ := fits.acceptAck 1 10 10 0 0 0 _ _ valid start
  rw [added] at added'
  rw [← Option.some.inj added'] at message
  exact Nat.not_lt.mpr message.short long

end FdsPaxos.Paxos2ValueSize
