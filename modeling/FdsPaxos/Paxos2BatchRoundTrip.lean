import FdsPaxos.Paxos2BatchCodec

set_option autoImplicit false

namespace FdsPaxos.Paxos2BatchRoundTrip
open ByteMemory Paxos2Config Paxos2Wire Paxos2BatchSizes Paxos2BatchCodec
open Paxos2Messages (paxosMsgHeader batchHeader)
open Paxos2SendBuffer (SendBuf)

variable {ι : Type}

/-- The items lie back to back behind the batch header, up to `hi`. -/
structure Laid (c : BatchCodec ι) (m : Memory) (items : List ι) (hi : ℕ) : Prop where
  ends : itemsAt + wholeItems c.layout m items.length = hi
  read : ((List.range items.length).map fun i =>
    c.get m (itemsAt + wholeItems c.layout m i)) = items

section Laid

variable {c : BatchCodec ι} {m m' : Memory} {items : List ι} {hi : ℕ}

theorem laid_nil (c : BatchCodec ι) (m : Memory) : Laid c m [] itemsAt := ⟨rfl, rfl⟩

theorem Laid.congr (h : Laid c m items hi) (same : AgreeOn itemsAt hi m m') :
    Laid c m' items hi := by
  have offsets : ∀ i ≤ items.length, wholeItems c.layout m' i = wholeItems c.layout m i := by
    intro i le
    exact wholeItems_congr (by rwa [h.ends]) le
  refine ⟨by rw [offsets _ le_rfl, h.ends], ?_⟩
  refine Eq.trans (List.map_congr_left ?_) h.read
  intro i hi'
  have item : i < items.length := List.mem_range.mp hi'
  have within : wholeItems c.layout m (i + 1) ≤ wholeItems c.layout m items.length :=
    wholeItems_mono item
  have ends := h.ends
  simp only [wholeItems] at within
  rw [offsets i item.le]
  exact (c.get_congr _ _ _ (same.mono (by omega) (by omega))).symm

theorem Laid.append (h : Laid c m items hi) (x : ι) (small : c.size x < 2 ^ 64) :
    Laid c (c.put m hi x) (items ++ [x]) (hi + c.size x) := by
  have kept := h.congr (c.put_outside m hi x itemsAt hi (.inl le_rfl))
  have size := c.put_size m hi x small
  refine ⟨?_, ?_⟩
  · rw [List.length_append, List.length_singleton, wholeItems, ← Nat.add_assoc, ← Nat.add_assoc,
      kept.ends]
    omega
  · rw [List.length_append, List.length_singleton, List.range_succ, List.map_append, kept.read]
    simp only [List.map_cons, List.map_nil, kept.ends, c.get_put m hi x small]

theorem Laid.length_le (h : Laid c m items hi) : itemsAt + items.length ≤ hi := by
  have at_least : ∀ i, i ≤ wholeItems c.layout m i := by
    intro i
    induction i with
    | zero => exact Nat.zero_le _
    | succ i ih =>
      have := c.layout.item_pos
      simp only [wholeItems]
      omega
  have := at_least items.length
  have := h.ends
  omega

end Laid

/-- A message of one kind of batch, with its header and its items, at the start of `m`. -/
structure Holds (c : BatchCodec ι) (sender : ℤ) (m : Memory) (items : List ι) : Prop where
  type : getLe m 4 typeAt = c.type.code
  laid : Laid c m items (dataAt + dataSize m)
  count : c.layout.count m = items.length
  sender : ∀ a ∈ c.layout.senderAt, getSigned m 2 a = sender
  short : paxosMsgHeader + dataSize m ≤ maxUdpMsgSize

section Holds

variable {c : BatchCodec ι} {sender : ℤ} {m m' : Memory} {items : List ι}

theorem count_within (l : BatchLayout) : dataAt ≤ l.countAt ∧ l.countAt + 2 ≤ itemsAt :=
  ⟨l.count_from, l.header_within _ l.count_handled⟩

theorem Holds.data (h : Holds c sender m items) : batchHeader ≤ dataSize m := by
  have := h.laid.length_le
  unfold itemsAt at this
  omega

/-- The count stays far below the limit of a `short int`. -/
theorem Holds.length_lt (h : Holds c sender m items) : items.length + 1 < 32768 := by
  have laid : 16 + items.length ≤ 12 + dataSize m := h.laid.length_le
  have short : 16 + dataSize m ≤ 7500 := h.short
  omega

theorem Holds.congr (h : Holds c sender m items)
    (same : AgreeOn 0 (paxosMsgHeader + dataSize m) m m') :
    Holds c sender m' items ∧ dataSize m' = dataSize m := by
  have data := h.data
  have header : paxosMsgHeader = 16 := rfl
  have batch : batchHeader = 4 := rfl
  have start : dataAt = 12 := rfl
  have first : itemsAt = 16 := rfl
  have size : dataSize m' = dataSize m := by
    unfold dataSize dataSizeAt
    exact (getLe_congr (same.mono le_rfl (by omega))).symm
  obtain ⟨from_data, to_items⟩ := count_within c.layout
  refine ⟨⟨?_, ?_, ?_, ?_, by rw [size]; exact h.short⟩, size⟩
  · rw [← h.type]
    unfold typeAt
    exact (getLe_congr (same.mono (by omega) (by omega))).symm
  · rw [size]
    exact h.laid.congr (same.mono (by omega) (by omega))
  · rw [← h.count]
    exact (getSigned_congr (same.mono (by omega) (by omega))).symm
  · intro a ha
    have within := c.layout.sender_within a ha
    rw [← h.sender a ha]
    exact (getSigned_congr (same.mono (by omega) (by omega))).symm

theorem Holds.msgType (h : Holds c sender m items) : msgType m = some c.type := by
  unfold Paxos2Wire.msgType
  rw [h.type, PaxosMsgCode.ofCode_code]

def SenderValid (l : BatchLayout) (sender : ℤ) : Prop :=
  ∀ a ∈ l.senderAt, 0 ≤ sender ∧ sender < l.senders

theorem clearBatch_fields (l : BatchLayout) (m : Memory) (valid : SenderValid l sender) :
    getLe (clearBatch l m sender) 4 typeAt = getLe m 4 typeAt ∧
      dataSize (clearBatch l m sender) = batchHeader ∧ l.count (clearBatch l m sender) = 0 ∧
      ∀ a ∈ l.senderAt, getSigned (clearBatch l m sender) 2 a = sender := by
  obtain ⟨from_data, to_items⟩ := count_within l
  have start : dataAt = 12 := rfl
  have size_first : dataSizeAt = 0 := rfl
  have type_second : typeAt = 8 := rfl
  have counted_type : getLe (putSigned (putLe m 8 dataSizeAt batchHeader) 2 l.countAt 0) 4 typeAt =
      getLe m 4 typeAt := by
    rw [getLe_putSigned_apart _ _ (by omega), getLe_putLe_apart _ _ (by omega)]
  have counted_size : getLe (putSigned (putLe m 8 dataSizeAt batchHeader) 2 l.countAt 0) 8
      dataSizeAt = batchHeader := by
    rw [getLe_putSigned_apart _ _ (by omega), getLe_putLe_of_lt _ _ (by decide)]
  have counted : getSigned (putSigned (putLe m 8 dataSizeAt batchHeader) 2 l.countAt 0) 2
      l.countAt = 0 := getSigned_putSigned_two _ _ (by decide) (by decide)
  unfold clearBatch dataSize BatchLayout.count
  cases at_ : l.senderAt with
  | none => exact ⟨counted_type, counted_size, counted, by simp⟩
  | some a =>
    have apart := l.sender_apart a at_
    obtain ⟨low, high⟩ := l.sender_within a at_
    obtain ⟨nonneg, bound⟩ := valid a at_
    have senders := l.senders_lt
    dsimp only
    refine ⟨?_, ?_, ?_, ?_⟩
    · rw [getLe_putSigned_apart _ _ (by omega), counted_type]
    · rw [getLe_putSigned_apart _ _ (by omega), counted_size]
    · rw [getSigned_putSigned_apart _ _ (by omega), counted]
    · intro b hb
      obtain rfl : a = b := by simpa using hb
      exact getSigned_putSigned_two _ _ (by omega) (by omega)

theorem holds_clear (c : BatchCodec ι) (sb : UdpSendBuffer) (valid : SenderValid c.layout sender) :
    Holds c sender (sendbufClear sb c.type sender).buffer [] ∧
      dataSize (sendbufClear sb c.type sender).buffer = batchHeader := by
  unfold sendbufClear
  rw [c.layout_of_type]
  dsimp only
  obtain ⟨type, size, count, id⟩ := clearBatch_fields c.layout
    (putLe (putLe sb.buffer 4 typeAt c.type.code) 8 dataSizeAt 0) valid
  refine ⟨⟨?_, ?_, count, id, by rw [size]; decide⟩, size⟩
  · rw [type, getLe_putLe_apart _ _ (.inr (by decide)), getLe_putLe_of_lt _ _ c.type.code_lt]
  · rw [size]
    exact laid_nil c _

theorem Holds.place (h : Holds c sender m items) : itemPlace c m = dataAt + dataSize m := by
  unfold itemPlace
  cases kind : c.layout.valueSizeAt with
  | some k => rfl
  | none =>
    have ends := h.laid.ends
    rw [wholeItems_array kind] at ends
    dsimp only
    rw [h.count, ← ends]
    norm_cast

theorem Holds.append_dataSize (h : Holds c sender m items) (x : ι)
    (small : Paxos2Wire.dataSize m + c.size x < 2 ^ 64) :
    Paxos2Wire.dataSize (appendItem c m x) = Paxos2Wire.dataSize m + c.size x := by
  obtain ⟨from_data, to_items⟩ := count_within c.layout
  have start : dataAt = 12 := rfl
  have size_first : dataSizeAt = 0 := rfl
  have kept : AgreeOn 0 (dataAt + Paxos2Wire.dataSize m) m
      (c.put m (dataAt + Paxos2Wire.dataSize m) x) := c.put_outside m _ x _ _ (.inl le_rfl)
  have size_kept : getLe (c.put m (dataAt + Paxos2Wire.dataSize m) x) 8 dataSizeAt =
      Paxos2Wire.dataSize m := (getLe_congr (kept.mono (by omega) (by omega))).symm
  unfold appendItem
  rw [h.place]
  change getLe _ 8 dataSizeAt = _
  dsimp only
  rw [getLe_putSigned_apart _ _ (by omega)]
  change getLe (putLe _ 8 dataSizeAt (getLe _ 8 dataSizeAt + c.size x)) 8 dataSizeAt = _
  rw [size_kept]
  exact getLe_putLe_of_lt _ _ (by norm_num at small ⊢; omega)

theorem Holds.append (h : Holds c sender m items) (x : ι)
    (fits : paxosMsgHeader + dataSize m + c.size x ≤ maxUdpMsgSize) :
    Holds c sender (appendItem c m x) (items ++ [x]) ∧
      dataSize (appendItem c m x) = dataSize m + c.size x := by
  obtain ⟨from_data, to_items⟩ := count_within c.layout
  have data := h.data
  have length := h.laid.length_le
  have header : paxosMsgHeader = 16 := rfl
  have batch : batchHeader = 4 := rfl
  have start : dataAt = 12 := rfl
  have first : itemsAt = 16 := rfl
  have size_first : dataSizeAt = 0 := rfl
  have type_second : typeAt = 8 := rfl
  have limit : maxUdpMsgSize = 7500 := rfl
  have final_size := h.append_dataSize x (by omega)
  unfold appendItem at final_size ⊢
  rw [h.place] at final_size ⊢
  -- the item goes behind everything written so far
  set written := c.put m (dataAt + dataSize m) x
  have kept : AgreeOn 0 (dataAt + dataSize m) m written :=
    c.put_outside m _ x _ _ (.inl le_rfl)
  have size_kept : dataSize written = dataSize m :=
    (getLe_congr (kept.mono (by omega) (by omega))).symm
  have laid : Laid c written (items ++ [x]) (dataAt + (dataSize m + c.size x)) := by
    rw [← Nat.add_assoc]
    exact h.laid.append x (by omega)
  dsimp only at final_size ⊢
  rw [size_kept] at final_size ⊢
  set sized := putLe written 8 dataSizeAt (dataSize m + c.size x)
  have count : c.layout.count sized = items.length := by
    rw [← h.count]
    unfold BatchLayout.count
    rw [getSigned_putLe_apart _ _ (by omega)]
    exact (getSigned_congr (kept.mono (by omega) (by omega))).symm
  rw [count] at final_size ⊢
  refine ⟨⟨?_, ?_, ?_, ?_, by rw [final_size]; omega⟩, final_size⟩
  · rw [getLe_putSigned_apart _ _ (by omega), getLe_putLe_apart _ _ (by omega), ← h.type]
    exact (getLe_congr (kept.mono (by omega) (by omega))).symm
  · rw [final_size]
    have behind : AgreeOn itemsAt (dataAt + (dataSize m + c.size x)) written sized :=
      agreeOn_putLe _ _ (.inr (by omega))
    exact laid.congr (behind.trans (agreeOn_putSigned _ _ (.inr (by omega))))
  · have few := h.length_lt
    have next : (items.length : ℤ) + 1 = (items.length + 1 : ℕ) := by push_cast; rfl
    rw [List.length_append, List.length_singleton, next]
    have nonneg := Int.natCast_nonneg (items.length + 1)
    exact getSigned_putSigned_two _ _ (le_trans (by decide) nonneg) (by exact_mod_cast few)
  · intro a ha
    have apart := c.layout.sender_apart a ha
    obtain ⟨low, high⟩ := c.layout.sender_within a ha
    rw [getSigned_putSigned_apart _ _ (by omega), getSigned_putLe_apart _ _ (by omega),
      ← h.sender a ha]
    exact (getSigned_congr (kept.mono (by omega) (by omega))).symm

theorem Holds.reopened (h : Holds c sender m items) (valid : SenderValid c.layout sender)
    (sb : UdpSendBuffer) :
    Holds c sender (sendbufClear sb c.type (senderOf c m)).buffer [] ∧
      dataSize (sendbufClear sb c.type (senderOf c m)).buffer = batchHeader := by
  have same : ∀ a ∈ c.layout.senderAt, senderOf c m = sender := by
    intro a ha
    unfold senderOf
    rw [Option.mem_def.mp ha]
    exact h.sender a ha
  have senderValid : SenderValid c.layout (senderOf c m) := by
    intro a ha
    rw [same a ha]
    exact valid a ha
  obtain ⟨holds, size⟩ := holds_clear c sb senderValid
  refine ⟨⟨holds.type, holds.laid, holds.count, ?_, holds.short⟩, size⟩
  intro a ha
  rw [holds.sender a ha, same a ha]

theorem Holds.size (h : Holds c sender m items) :
    paxosMsgSize m = dataSize m + paxosMsgHeader := by
  have short : paxosMsgHeader + dataSize m ≤ 7500 := h.short
  unfold paxosMsgSize sizeT
  omega

end Holds

structure Sent (c : BatchCodec ι) (sender : ℤ) (datagram : List UInt8) (items : List ι) : Prop where
  short : datagram.length ≤ maxUdpMsgSize
  holds : ∀ m, Holds c sender (write m 0 datagram) items
  size : ∀ m, dataSize (write m 0 datagram) + paxosMsgHeader = datagram.length

structure Refines (c : BatchCodec ι) (sender : ℤ) (sb : UdpSendBuffer) (abs : SendBuf ι) : Prop where
  holds : Holds c sender sb.buffer abs.items
  dataSize : dataSize sb.buffer = abs.dataSize
  dirty : sb.dirty = abs.dirty
  sent : List.Forall₂ (Sent c sender) sb.sent abs.sent

section Refines

variable {c : BatchCodec ι} {sender : ℤ} {m : Memory} {items : List ι} {sb : UdpSendBuffer}
  {abs : SendBuf ι}

theorem Holds.sent (h : Holds c sender m items) :
    Sent c sender (read m 0 (paxosMsgSize m)) items := by
  have short := h.short
  have size : paxosMsgHeader + Paxos2Wire.dataSize m = paxosMsgSize m := by
    rw [h.size, Nat.add_comm]
  have same : ∀ m', AgreeOn 0 (paxosMsgHeader + Paxos2Wire.dataSize m) m
      (write m' 0 (read m 0 (paxosMsgSize m))) := by
    intro m'
    have copied := agreeOn_write_read m m' 0 (paxosMsgSize m)
    rw [Nat.zero_add] at copied
    rwa [size]
  refine ⟨by rwa [length_read, ← size], fun m' => (h.congr (same m')).1, ?_⟩
  intro m'
  rw [(h.congr (same m')).2, length_read, h.size]

theorem refines_clear (c : BatchCodec ι) (valid : SenderValid c.layout sender)
    (sent : List.Forall₂ (Sent c sender) sb.sent abs.sent) :
    Refines c sender (sendbufClear sb c.type sender) (Paxos2SendBuffer.sendbufClear abs) := by
  obtain ⟨holds, size⟩ := holds_clear c sb valid
  exact ⟨holds, size, rfl, sent⟩

theorem Refines.flush (h : Refines c sender sb abs) :
    Refines c sender (sendbufFlush sb) (Paxos2SendBuffer.sendbufFlush abs) := by
  unfold sendbufFlush Paxos2SendBuffer.sendbufFlush
  rw [h.dirty]
  split_ifs with dirty
  · exact ⟨h.holds, h.dataSize, by rw [← h.dirty], List.rel_append h.sent (.cons h.holds.sent .nil)⟩
  · exact h

theorem Refines.full_iff (h : Refines c sender sb abs) {x : ι}
    (fits : paxosMsgHeader + batchHeader + c.size x ≤ maxUdpMsgSize) :
    maxUdpMsgSize ≤ sizeT (paxosMsgSize sb.buffer + c.size x) ↔
      Config.default.maxUdpMsgSize ≤ paxosMsgHeader + abs.dataSize + c.size x := by
  have alone : 16 + 4 + c.size x ≤ 7500 := fits
  have short : 16 + Paxos2Wire.dataSize sb.buffer ≤ 7500 := h.holds.short
  have sum : sizeT (paxosMsgSize sb.buffer + c.size x) =
      paxosMsgHeader + abs.dataSize + c.size x := by
    rw [h.holds.size, ← h.dataSize]
    unfold sizeT paxosMsgHeader
    omega
  rw [sum]
  exact Iff.rfl

theorem Refines.room (h : Refines c sender sb abs) (valid : SenderValid c.layout sender) {x : ι}
    (fits : paxosMsgHeader + batchHeader + c.size x ≤ maxUdpMsgSize) :
    Refines c sender
        (if maxUdpMsgSize ≤ sizeT (paxosMsgSize sb.buffer + c.size x)
          then sendbufClear (sendbufFlush sb) c.type (senderOf c sb.buffer) else sb)
        (if Config.default.maxUdpMsgSize ≤ paxosMsgHeader + abs.dataSize + c.size x
          then Paxos2SendBuffer.sendbufClear (Paxos2SendBuffer.sendbufFlush abs) else abs) ∧
      paxosMsgHeader + Paxos2Wire.dataSize
        (if maxUdpMsgSize ≤ sizeT (paxosMsgSize sb.buffer + c.size x)
          then sendbufClear (sendbufFlush sb) c.type (senderOf c sb.buffer) else sb).buffer +
        c.size x ≤ maxUdpMsgSize := by
  by_cases full : maxUdpMsgSize ≤ sizeT (paxosMsgSize sb.buffer + c.size x)
  · rw [if_pos full, if_pos ((h.full_iff fits).mp full)]
    obtain ⟨holds, size⟩ := h.holds.reopened valid (sendbufFlush sb)
    exact ⟨⟨holds, size, rfl, h.flush.sent⟩, by rwa [size]⟩
  · have space := mt (h.full_iff fits).mpr full
    rw [if_neg full, if_neg space, h.dataSize]
    exact ⟨h, (Nat.lt_of_not_le space).le⟩

theorem Refines.add (h : Refines c sender sb abs) (valid : SenderValid c.layout sender) (x : ι)
    (fits : paxosMsgHeader + batchHeader + c.size x ≤ maxUdpMsgSize) :
    ∃ sb', sendbufAdd c sb x = some sb' ∧
      Refines c sender sb' (Paxos2SendBuffer.sendbufAdd Config.default c.size abs x) := by
  obtain ⟨room, space⟩ := h.room valid fits
  obtain ⟨holds, size⟩ := room.holds.append x space
  unfold sendbufAdd
  rw [if_pos h.holds.msgType]
  refine ⟨_, rfl, holds, ?_, rfl, room.sent⟩
  rw [size, room.dataSize]
  rfl

theorem Refines.addAll (h : Refines c sender sb abs) (valid : SenderValid c.layout sender)
    (xs : List ι) (fits : ∀ x ∈ xs, paxosMsgHeader + batchHeader + c.size x ≤ maxUdpMsgSize) :
    ∃ sb', xs.foldlM (sendbufAdd c) sb = some sb' ∧
      Refines c sender sb' (xs.foldl (Paxos2SendBuffer.sendbufAdd Config.default c.size) abs) := by
  induction xs generalizing sb abs with
  | nil => exact ⟨sb, rfl, h⟩
  | cons x xs ih =>
    obtain ⟨first, rest⟩ := List.forall_mem_cons.mp fits
    obtain ⟨sb', added, kept⟩ := h.add valid x first
    obtain ⟨sb'', all, refines⟩ := ih kept rest
    refine ⟨sb'', ?_, refines⟩
    rw [List.foldlM_cons, added]
    exact all

end Refines

section Received

variable {c : BatchCodec ι} {sender : ℤ} {m : Memory} {items : List ι}

theorem Holds.backToBack (h : Holds c sender m items) :
    BackToBack c.layout m (Paxos2Wire.dataSize m + paxosMsgHeader) := by
  have ends := h.laid.ends
  have start : dataAt = 12 := rfl
  have header : paxosMsgHeader = 16 := rfl
  unfold BackToBack
  cases kind : c.layout.valueSizeAt with
  | none =>
    obtain ⟨_, to_items⟩ := count_within c.layout
    rw [wholeItems_array kind] at ends
    rw [h.count]
    dsimp only
    constructor
    · omega
    · have total : itemsAt + items.length * c.layout.itemHeader + 4 =
          dataSize m + paxosMsgHeader := by
        rw [Nat.mul_comm]
        omega
      rw [← total, Nat.cast_add, Nat.cast_add, Nat.cast_mul]
      rfl
  | some k =>
    dsimp only
    rw [h.count, Int.toNat_natCast]
    omega

theorem Holds.batchItems (h : Holds c sender m items) : batchItems c m = items := by
  unfold Paxos2BatchCodec.batchItems
  rw [h.count, Int.toNat_natCast]
  refine Eq.trans (List.map_congr_left ?_) h.laid.read
  intro i hi
  have item : i < items.length := List.mem_range.mp hi
  congr 1
  cases kind : c.layout.valueSizeAt with
  | none => rw [itemAddress_array kind, wholeItems_array kind]
  | some k =>
    have last : itemsAt + wholeItems c.layout m items.length = 12 + dataSize m := h.laid.ends
    have short : 16 + Paxos2Wire.dataSize m ≤ maxUdpMsgSize := h.short
    have le : wholeItems c.layout m i ≤ wholeItems c.layout m items.length :=
      wholeItems_mono item.le
    have limit : maxUdpMsgSize = 7500 := rfl
    exact itemAddress_eq kind (by omega)

theorem Holds.valid (h : Holds c sender m items) (valid : SenderValid c.layout sender) :
    validatePaxosMsg m (dataSize m + paxosMsgHeader) = 0 := by
  have size := h.size
  unfold paxosMsgSize at size
  unfold validatePaxosMsg
  rw [if_neg (by rw [size]; exact fun differs => differs rfl), h.msgType]
  dsimp only
  rw [c.layout_of_type]
  unfold BatchLayout.sender
  cases at_ : c.layout.senderAt with
  | none => simp [at_]
  | some a =>
    obtain ⟨low, high⟩ := valid a at_
    have inRange : ¬(sender < 0 ∨ (c.layout.senders : ℤ) ≤ sender) := by omega
    simp only [Option.bind_some, at_, Option.map_some, h.sender a at_]
    rw [if_neg inRange]

theorem Holds.expectedSize (h : Holds c sender m items) :
    expectedSize m c.type = dataSize m + paxosMsgHeader := by
  have short : dataSize m + paxosMsgHeader ≤ maxUdpMsgSize := by
    rw [Nat.add_comm]
    exact h.short
  unfold Paxos2Wire.expectedSize
  rw [c.layout_of_type]
  exact h.backToBack.size short

/-- The checks of `udp_read_next_message` on a datagram, with the size that its type
and contents give. -/
structure Accepted (c : BatchCodec ι) (datagram : List UInt8) : Prop where
  short : datagram.length ≤ maxUdpMsgSize
  valid : ∀ m, (udpReadNextMessage m datagram).2 = 0
  type : ∀ m, msgType (udpReadNextMessage m datagram).1 = some c.type
  size : ∀ m, Paxos2Wire.expectedSize (udpReadNextMessage m datagram).1 c.type = datagram.length

theorem udpReadNextMessage_short {datagram : List UInt8} (short : datagram.length ≤ maxUdpMsgSize)
    (m : Memory) : udpReadNextMessage m datagram =
      (write m 0 datagram, validatePaxosMsg (write m 0 datagram) datagram.length) := by
  unfold udpReadNextMessage
  rw [List.take_of_length_le short]

theorem Sent.accepted {datagram : List UInt8} (h : Sent c sender datagram items)
    (valid : SenderValid c.layout sender) : Accepted c datagram := by
  refine ⟨h.short, ?_, ?_, ?_⟩ <;> intro m <;> rw [udpReadNextMessage_short h.short]
  · dsimp only
    rw [← h.size m]
    exact (h.holds m).valid valid
  · exact (h.holds m).msgType
  · rw [← h.size m]
    exact (h.holds m).expectedSize

theorem receivedItems_sent {datagrams : List (List UInt8)} {batches : List (List ι)}
    (h : List.Forall₂ (Sent c sender) datagrams batches) (valid : SenderValid c.layout sender)
    (m : Memory) : receivedItems c m datagrams = batches.flatten := by
  induction h generalizing m with
  | nil => rfl
  | cons first _ ih =>
    have accepted := first.accepted valid
    unfold receivedItems
    dsimp only
    rw [if_pos ⟨accepted.valid m, accepted.type m⟩, ih, udpReadNextMessage_short first.short,
      (first.holds m).batchItems]
    rfl

end Received

theorem content_addAll (c : BatchCodec ι) (xs : List ι) (abs : SendBuf ι) :
    (xs.foldl (Paxos2SendBuffer.sendbufAdd Config.default c.size) abs).content =
      abs.content ++ xs := by
  induction xs generalizing abs with
  | nil => simp
  | cons x xs ih => rw [List.foldl_cons, ih, SendBuf.content_add, List.append_assoc]; rfl

/-- Items added one by one to a cleared buffer and flushed at the end: every message
sent is accepted, and together they give the items back, in order.  `item` is what an
`add` function stores of its argument. -/
def RoundTrip {α : Type} (c : BatchCodec ι) (item : α → ι)
    (add : UdpSendBuffer → α → Option UdpSendBuffer) : Prop :=
  ∀ (dirty : Bool) (buffer : Memory) (sender : ℤ) (xs : List α), SenderValid c.layout sender →
    (∀ x ∈ xs, paxosMsgHeader + batchHeader + c.size (item x) ≤ maxUdpMsgSize) →
    ∃ sb, xs.foldlM add (sendbufClear ⟨dirty, buffer, []⟩ c.type sender) = some sb ∧
      (∀ datagram ∈ (sendbufFlush sb).sent, Accepted c datagram) ∧
      ∀ recvBuffer, receivedItems c recvBuffer (sendbufFlush sb).sent = xs.map item

theorem roundTrip_of_add {α : Type} (c : BatchCodec ι) (item : α → ι)
    {add : UdpSendBuffer → α → Option UdpSendBuffer}
    (adds : ∀ sb x, add sb x = sendbufAdd c sb (item x)) : RoundTrip c item add := by
  intro dirty buffer sender xs valid fits
  have start : Refines c sender (sendbufClear ⟨dirty, buffer, []⟩ c.type sender)
      (Paxos2SendBuffer.sendbufClear Paxos2SendBuffer.sendbufNew) :=
    refines_clear c valid .nil
  obtain ⟨sb, added, refines⟩ := start.addAll valid (xs.map item) (by simpa using fits)
  have sent := refines.flush.sent
  refine ⟨sb, ?_, ?_, ?_⟩
  · rw [← added, List.foldlM_map]
    congr 1
    funext sb x
    exact adds sb x
  · have accepted : List.Forall₂ (fun datagram batch => Accepted c datagram ∧
        Sent c sender datagram batch) _ _ := sent.imp fun _ _ h => ⟨h.accepted valid, h⟩
    exact ((List.forall₂_and_left _ _).mp accepted).1
  · intro recvBuffer
    rw [receivedItems_sent sent valid, SendBuf.sent_flush, content_addAll]
    rfl

/-- The five batches of `udp_sendbuf.c` survive being sent as bytes. -/
theorem batches_round_trip :
    RoundTrip prepareReqs id sendbufAddPrepareReq ∧
      RoundTrip prepareAcks prepareAckOf sendbufAddPrepareAck ∧
      RoundTrip acceptReqs id sendbufAddAcceptReq ∧
      RoundTrip acceptAcks id sendbufAddAcceptAck ∧
      RoundTrip repeatReqs id sendbufAddRepeatReq :=
  ⟨roundTrip_of_add prepareReqs id fun _ _ => rfl,
    roundTrip_of_add prepareAcks prepareAckOf fun _ _ => rfl,
    roundTrip_of_add acceptReqs id fun _ _ => rfl,
    roundTrip_of_add acceptAcks id fun _ _ => rfl,
    roundTrip_of_add repeatReqs id fun _ _ => rfl⟩

/-- Two acknowledgements of acceptor 2, one of them final. -/
def twoAcks : List AcceptAck := [⟨1, 10, 10, 0, 0, [7]⟩, ⟨2, 21, 10, 1, 0, [8, 9]⟩]

theorem two_acks_round_trip :
    ∃ sb, twoAcks.foldlM sendbufAddAcceptAck
        (sendbufClear ⟨false, fun _ => 0, []⟩ acceptAcks.type 2) = some sb ∧
      (∀ datagram ∈ (sendbufFlush sb).sent, Accepted acceptAcks datagram) ∧
      ∀ recvBuffer, receivedItems acceptAcks recvBuffer (sendbufFlush sb).sent = twoAcks :=
  batches_round_trip.2.2.2.1 false (fun _ => 0) 2 twoAcks (by unfold SenderValid; decide)
    (by decide)

end FdsPaxos.Paxos2BatchRoundTrip
