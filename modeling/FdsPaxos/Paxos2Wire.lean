import FdsPaxos.ByteMemory
import FdsPaxos.Paxos2Config
import FdsPaxos.Paxos2Messages

set_option autoImplicit false

/-!
The bytes of the messages of `libpaxos_messages.h` on a little-endian LP64 machine.
`data` of a `paxos_msg` starts at byte 12, inside the 16 bytes that
`sizeof(paxos_msg)` counts, so every message ends in four bytes that carry nothing.
-/

namespace FdsPaxos.Paxos2Wire
open ByteMemory Paxos2Config Paxos2Messages

def maxUdpMsgSize : ℕ := Config.default.maxUdpMsgSize

def dataSizeAt : ℕ := 0

def typeAt : ℕ := 8

def dataAt : ℕ := 12

/-- Batch headers have one size, so the items of every batch start here. -/
def itemsAt : ℕ := dataAt + batchHeader

/-- Sizes are of type `size_t`. -/
def sizeT (n : ℕ) : ℕ := n % 2 ^ 64

inductive PaxosMsgCode where
  | prepareReqs
  | prepareAcks
  | acceptReqs
  | acceptAcks
  | repeatReqs
  | submit
  | leaderAnnounce
  | alivePing
deriving DecidableEq

namespace PaxosMsgCode

def code : PaxosMsgCode → ℕ
  | prepareReqs => 1
  | prepareAcks => 2
  | acceptReqs => 4
  | acceptAcks => 8
  | repeatReqs => 16
  | submit => 32
  | leaderAnnounce => 64
  | alivePing => 65

def ofCode : ℕ → Option PaxosMsgCode
  | 1 => some prepareReqs
  | 2 => some prepareAcks
  | 4 => some acceptReqs
  | 8 => some acceptAcks
  | 16 => some repeatReqs
  | 32 => some submit
  | 64 => some leaderAnnounce
  | 65 => some alivePing
  | _ => none

@[simp] theorem ofCode_code (type : PaxosMsgCode) : ofCode type.code = some type := by
  cases type <;> rfl

theorem code_lt (type : PaxosMsgCode) : type.code < 256 ^ 4 := by
  cases type <;> decide

end PaxosMsgCode

def dataSize (m : Memory) : ℕ := getLe m 8 dataSizeAt

def msgType (m : Memory) : Option PaxosMsgCode := PaxosMsgCode.ofCode (getLe m 4 typeAt)

def paxosMsgSize (m : Memory) : ℕ := sizeT (dataSize m + paxosMsgHeader)

structure Span where
  start : ℕ
  width : ℕ
deriving DecidableEq

def Span.shift (a : ℕ) (f : Span) : Span := ⟨a + f.start, f.width⟩

/-- Every byte of the stretch is one of the first `n`. -/
def Span.Inside (n : ℕ) (s : Span) : Prop := s.width = 0 ∨ s.start + s.width ≤ n

instance (n : ℕ) (s : Span) : Decidable (s.Inside n) :=
  inferInstanceAs (Decidable (s.width = 0 ∨ s.start + s.width ≤ n))

theorem Span.Inside.le {n : ℕ} {s : Span} (h : s.Inside n) (bytes : 0 < s.width) :
    s.start + s.width ≤ n :=
  h.resolve_left (by omega)

/-- Where the parts of a batch lie: the fields of its header by their place in the
message, those of an item by their place in the item.  Items without a value form
an array; the others follow each other at running offsets. -/
structure BatchLayout where
  countAt : ℕ
  senderAt : Option ℕ
  senders : ℕ
  handlerFields : List Span
  itemHeader : ℕ
  itemFields : List Span
  valueSizeAt : Option ℕ
  item_le : itemHeader ≤ 24
  senders_lt : senders < 32768
  header_within : ∀ f ∈ handlerFields, f.start + f.width ≤ itemsAt
  count_handled : ⟨countAt, 2⟩ ∈ handlerFields
  count_from : dataAt ≤ countAt
  sender_within : ∀ a ∈ senderAt, dataAt ≤ a ∧ a + 2 ≤ itemsAt
  sender_apart : ∀ a ∈ senderAt, a + 2 ≤ countAt ∨ countAt + 2 ≤ a
  array_header : valueSizeAt = none → handlerFields = [⟨countAt, 2⟩]
  fields_within : ∀ f ∈ itemFields, f.start + f.width ≤ itemHeader
  fields_end : ∃ f ∈ itemFields, 0 < f.width ∧ f.start + f.width = itemHeader
  valueSize_within : ∀ a ∈ valueSizeAt, a + 8 ≤ itemHeader

def prepareReqBatch : BatchLayout where
  countAt := 12
  senderAt := some 14
  senders := Config.default.maxNOfProposers
  handlerFields := [⟨12, 2⟩]
  itemHeader := 8
  itemFields := [⟨0, 4⟩, ⟨4, 4⟩]
  valueSizeAt := none
  item_le := by decide
  senders_lt := by decide
  header_within := by decide
  count_handled := by decide
  count_from := by decide
  sender_within := by decide
  sender_apart := by decide
  array_header := fun _ => rfl
  fields_within := by decide
  fields_end := ⟨⟨4, 4⟩, by decide⟩
  valueSize_within := by decide

def prepareAckBatch : BatchLayout where
  countAt := 14
  senderAt := some 12
  senders := Config.default.nOfAcceptors
  handlerFields := [⟨12, 2⟩, ⟨14, 2⟩]
  itemHeader := 24
  itemFields := [⟨0, 4⟩, ⟨4, 4⟩, ⟨8, 4⟩, ⟨16, 8⟩]
  valueSizeAt := some 16
  item_le := by decide
  senders_lt := by decide
  header_within := by decide
  count_handled := by decide
  count_from := by decide
  sender_within := by decide
  sender_apart := by decide
  array_header := nofun
  fields_within := by decide
  fields_end := ⟨⟨16, 8⟩, by decide⟩
  valueSize_within := by decide

def acceptReqBatch : BatchLayout where
  countAt := 12
  senderAt := some 14
  senders := Config.default.maxNOfProposers
  handlerFields := [⟨12, 2⟩]
  itemHeader := 16
  itemFields := [⟨0, 4⟩, ⟨4, 4⟩, ⟨8, 8⟩]
  valueSizeAt := some 8
  item_le := by decide
  senders_lt := by decide
  header_within := by decide
  count_handled := by decide
  count_from := by decide
  sender_within := by decide
  sender_apart := by decide
  array_header := nofun
  fields_within := by decide
  fields_end := ⟨⟨8, 8⟩, by decide⟩
  valueSize_within := by decide

def acceptAckBatch : BatchLayout where
  countAt := 14
  senderAt := some 12
  senders := Config.default.nOfAcceptors
  handlerFields := [⟨12, 2⟩, ⟨14, 2⟩]
  itemHeader := 24
  itemFields := [⟨0, 4⟩, ⟨4, 4⟩, ⟨8, 4⟩, ⟨12, 2⟩, ⟨16, 8⟩]
  valueSizeAt := some 16
  item_le := by decide
  senders_lt := by decide
  header_within := by decide
  count_handled := by decide
  count_from := by decide
  sender_within := by decide
  sender_apart := by decide
  array_header := nofun
  fields_within := by decide
  fields_end := ⟨⟨16, 8⟩, by decide⟩
  valueSize_within := by decide

def repeatReqBatch : BatchLayout where
  countAt := 12
  senderAt := none
  senders := 0
  handlerFields := [⟨12, 2⟩]
  itemHeader := 4
  itemFields := [⟨0, 4⟩]
  valueSizeAt := none
  item_le := by decide
  senders_lt := by decide
  header_within := by decide
  count_handled := by decide
  count_from := by decide
  sender_within := by decide
  sender_apart := by decide
  array_header := fun _ => rfl
  fields_within := by decide
  fields_end := ⟨⟨0, 4⟩, by decide⟩
  valueSize_within := by decide

namespace BatchLayout

variable (l : BatchLayout) (m : Memory)

def count : ℤ := getSigned m 2 l.countAt

def sender : Option (ℤ × ℕ) := l.senderAt.map fun a => (getSigned m 2 a, l.senders)

def valueSize (a : ℕ) : ℕ :=
  match l.valueSizeAt with
  | none => 0
  | some k => getLe m 8 (a + k)

/-- `PREPARE_ACK_SIZE` and its siblings, for the item at `a`. -/
def itemSize (a : ℕ) : ℕ := sizeT (l.valueSize m a + l.itemHeader)

/-- The running offset of the batch loops in front of item `i`. -/
def dataOffset : ℕ → ℕ
  | 0 => 0
  | i + 1 =>
    let offset := dataOffset i
    sizeT (offset + l.itemSize m (sizeT (itemsAt + offset)))

/-- `prepare_ack_batch_size_calc` and its siblings, and the two macros for arrays. -/
def batchSize : ℕ :=
  match l.valueSizeAt with
  | none => ((batchHeader + l.count m * l.itemHeader) % 2 ^ 64).toNat
  | some _ => sizeT (batchHeader + l.dataOffset m (l.count m).toNat)

/-- Where a batch loop finds item `i`. -/
def itemAddress (i : ℕ) : ℕ :=
  match l.valueSizeAt with
  | none => itemsAt + l.itemHeader * i
  | some _ => sizeT (itemsAt + l.dataOffset m i)

end BatchLayout

theorem BatchLayout.item_pos (l : BatchLayout) : 0 < l.itemHeader := by
  obtain ⟨f, -, wide, ends⟩ := l.fields_end
  omega

theorem BatchLayout.valueSize_congr {l : BatchLayout} {m m' : Memory} {a : ℕ}
    (h : AgreeOn a (a + l.itemHeader) m m') : l.valueSize m a = l.valueSize m' a := by
  have within := l.valueSize_within
  unfold valueSize
  cases valued : l.valueSizeAt with
  | none => rfl
  | some k =>
    rw [valued] at within
    have := within k rfl
    exact getLe_congr (h.mono (by omega) (by omega))

def batchLayout : PaxosMsgCode → Option BatchLayout
  | .prepareReqs => some prepareReqBatch
  | .prepareAcks => some prepareAckBatch
  | .acceptReqs => some acceptReqBatch
  | .acceptAcks => some acceptAckBatch
  | .repeatReqs => some repeatReqBatch
  | .submit => none
  | .leaderAnnounce => none
  | .alivePing => none

def leaderAnnounceMsgSize : ℕ := 2

def alivePingMsgSize : ℕ := 16

/-- `expected_size` of `validate_paxos_msg` for a message of the given type. -/
def expectedSize (m : Memory) (type : PaxosMsgCode) : ℕ :=
  match batchLayout type with
  | some l => sizeT (paxosMsgHeader + l.batchSize m)
  | none =>
    match type with
    | .submit => sizeT (paxosMsgHeader + dataSize m)
    | .alivePing => paxosMsgHeader + alivePingMsgSize
    | _ => paxosMsgHeader + leaderAnnounceMsgSize

/-- The switch of `validate_paxos_msg`.  The comparison of the message size with
`expected_size` stands behind the `return` of the `default` branch, where no path
leads, so only the sender's id is checked. -/
def validatePaxosMsg (m : Memory) (msgSize : ℕ) : ℤ :=
  if sizeT (dataSize m + paxosMsgHeader) ≠ msgSize then -1
  else
    match msgType m with
    | none => -1
    | some type =>
      match (batchLayout type).bind fun l => l.sender m with
      | none => 0
      | some (senderId, bound) => if senderId < 0 ∨ (bound : ℤ) ≤ senderId then -1 else 0

/-- `udp_read_next_message`: the buffer after `recvfrom`, and the verdict on it. -/
def udpReadNextMessage (recvBuffer : Memory) (datagram : List UInt8) : Memory × ℤ :=
  let received := datagram.take maxUdpMsgSize
  let buffer := write recvBuffer 0 received
  (buffer, validatePaxosMsg buffer received.length)

end FdsPaxos.Paxos2Wire
