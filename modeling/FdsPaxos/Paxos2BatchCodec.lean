import FdsPaxos.Paxos2BatchSizes
import FdsPaxos.Paxos2SendBuffer
import Mathlib.Data.List.Forall2

set_option autoImplicit false

/-!
The batches of `udp_sendbuf.c` as bytes, written item by item into the send buffer,
and the loops of the receivers that read them back.
-/

namespace FdsPaxos.Paxos2BatchCodec
open ByteMemory Paxos2Wire
open Paxos2Messages (Value paxosMsgHeader batchHeader)

structure PrepareReq where
  iid : UInt32
  ballot : UInt32
deriving DecidableEq

structure PrepareAck where
  iid : UInt32
  ballot : UInt32
  valueBallot : UInt32
  value : Value
deriving DecidableEq

structure AcceptReq where
  iid : UInt32
  ballot : UInt32
  value : Value
deriving DecidableEq

/-- `padding` is the two bytes behind `is_final`, which `memcpy` copies with the rest. -/
structure AcceptAck where
  iid : UInt32
  ballot : UInt32
  valueBallot : UInt32
  isFinal : UInt16
  padding : UInt16
  value : Value
deriving DecidableEq

abbrev AcceptorRecord := AcceptAck

/-- `value_size` and the bytes behind the header of an item. -/
def putValue (m : Memory) (sizeAt valueAt : ℕ) (value : Value) : Memory :=
  write (putLe m 8 sizeAt value.length) valueAt value

def getValue (m : Memory) (sizeAt valueAt : ℕ) : Value := read m valueAt (getLe m 8 sizeAt)

def putPrepareReq (m : Memory) (a : ℕ) (pr : PrepareReq) : Memory :=
  putU32 (putU32 m a pr.iid) (a + 4) pr.ballot

def getPrepareReq (m : Memory) (a : ℕ) : PrepareReq where
  iid := getU32 m a
  ballot := getU32 m (a + 4)

def putPrepareAck (m : Memory) (a : ℕ) (pa : PrepareAck) : Memory :=
  putValue (putU32 (putU32 (putU32 m a pa.iid) (a + 4) pa.ballot) (a + 8) pa.valueBallot)
    (a + 16) (a + 24) pa.value

def getPrepareAck (m : Memory) (a : ℕ) : PrepareAck where
  iid := getU32 m a
  ballot := getU32 m (a + 4)
  valueBallot := getU32 m (a + 8)
  value := getValue m (a + 16) (a + 24)

def putAcceptReq (m : Memory) (a : ℕ) (ar : AcceptReq) : Memory :=
  putValue (putU32 (putU32 m a ar.iid) (a + 4) ar.ballot) (a + 8) (a + 16) ar.value

def getAcceptReq (m : Memory) (a : ℕ) : AcceptReq where
  iid := getU32 m a
  ballot := getU32 m (a + 4)
  value := getValue m (a + 8) (a + 16)

def putAcceptAck (m : Memory) (a : ℕ) (aa : AcceptAck) : Memory :=
  putValue
    (putU16 (putU16 (putU32 (putU32 (putU32 m a aa.iid) (a + 4) aa.ballot) (a + 8) aa.valueBallot)
      (a + 12) aa.isFinal) (a + 14) aa.padding)
    (a + 16) (a + 24) aa.value

def getAcceptAck (m : Memory) (a : ℕ) : AcceptAck where
  iid := getU32 m a
  ballot := getU32 m (a + 4)
  valueBallot := getU32 m (a + 8)
  isFinal := getU16 m (a + 12)
  padding := getU16 m (a + 14)
  value := getValue m (a + 16) (a + 24)

section Fields

variable {m m' : Memory} {a b lo hi sizeAt valueAt : ℕ}

theorem getU32_putValue_apart (m : Memory) (value : Value) (before : b + 4 ≤ sizeAt)
    (behind : sizeAt ≤ valueAt) : getU32 (putValue m sizeAt valueAt value) b = getU32 m b := by
  unfold getU32 putValue
  rw [getLe_write_apart _ _ (.inl (by omega)), getLe_putLe_apart _ _ (.inl before)]

theorem getU16_putValue_apart (m : Memory) (value : Value) (before : b + 2 ≤ sizeAt)
    (behind : sizeAt ≤ valueAt) : getU16 (putValue m sizeAt valueAt value) b = getU16 m b := by
  unfold getU16 putValue
  rw [getLe_write_apart _ _ (.inl (by omega)), getLe_putLe_apart _ _ (.inl before)]

theorem valueSize_putValue {value : Value} (m : Memory) (behind : sizeAt + 8 ≤ valueAt)
    (small : value.length < 2 ^ 64) :
    getLe (putValue m sizeAt valueAt value) 8 sizeAt = value.length := by
  unfold putValue
  rw [getLe_write_apart _ _ (.inl behind), getLe_putLe_of_lt m sizeAt small]

theorem getValue_putValue {value : Value} (m : Memory) (behind : sizeAt + 8 ≤ valueAt)
    (small : value.length < 2 ^ 64) :
    getValue (putValue m sizeAt valueAt value) sizeAt valueAt = value := by
  unfold getValue
  rw [valueSize_putValue m behind small]
  exact read_write _ _ _

theorem getValue_congr (size : AgreeOn sizeAt (sizeAt + 8) m m')
    (bytes : AgreeOn valueAt (valueAt + getLe m 8 sizeAt) m m') :
    getValue m sizeAt valueAt = getValue m' sizeAt valueAt := by
  unfold getValue
  rw [← getLe_congr size, read_congr bytes]

theorem agreeOn_putValue (h : AgreeOn lo hi m m') (value : Value)
    (behind : sizeAt + 8 = valueAt) (apart : hi ≤ sizeAt ∨ valueAt + value.length ≤ lo) :
    AgreeOn lo hi m (putValue m' sizeAt valueAt value) :=
  (h.trans (agreeOn_putLe m' _ (by omega))).trans (agreeOn_write _ _ (by omega))

end Fields

/-- How the items of one kind of batch are stored: the code of the message, the
layout that the receivers read by, and the writes that `sendbuf_add_*` makes. -/
structure BatchCodec (ι : Type) where
  type : PaxosMsgCode
  layout : BatchLayout
  size : ι → ℕ
  put : Memory → ℕ → ι → Memory
  get : Memory → ℕ → ι
  layout_of_type : batchLayout type = some layout
  put_outside : ∀ m a x lo hi, hi ≤ a ∨ a + size x ≤ lo → AgreeOn lo hi m (put m a x)
  put_size : ∀ m a x, size x < 2 ^ 64 →
    layout.itemHeader + layout.valueSize (put m a x) a = size x
  get_put : ∀ m a x, size x < 2 ^ 64 → get (put m a x) a = x
  get_congr : ∀ m m' a, AgreeOn a (a + layout.itemHeader + layout.valueSize m a) m m' →
    get m a = get m' a

def prepareReqs : BatchCodec PrepareReq where
  type := .prepareReqs
  layout := prepareReqBatch
  size := fun _ => 8
  put := putPrepareReq
  get := getPrepareReq
  layout_of_type := rfl
  put_outside := by
    intro m a x lo hi h
    have iid := (AgreeOn.refl lo hi m).putU32 a x.iid (by omega)
    exact iid.putU32 (a + 4) x.ballot (by omega)
  put_size := fun _ _ _ _ => rfl
  get_put := by
    intro m a x _
    unfold getPrepareReq putPrepareReq
    rw [getU32_putU32_apart _ _ (.inl (by omega))]
    simp
  get_congr := by
    intro m m' a h
    change AgreeOn a (a + 8) m m' at h
    unfold getPrepareReq
    rw [getU32_congr (h.mono le_rfl (by omega)), getU32_congr (h.mono (by omega) (by omega))]

def prepareAcks : BatchCodec PrepareAck where
  type := .prepareAcks
  layout := prepareAckBatch
  size := fun pa => pa.value.length + 24
  put := putPrepareAck
  get := getPrepareAck
  layout_of_type := rfl
  put_outside := by
    intro m a x lo hi h
    have iid := (AgreeOn.refl lo hi m).putU32 a x.iid (by omega)
    have ballots := (iid.putU32 (a + 4) x.ballot (by omega)).putU32 (a + 8)
      x.valueBallot (by omega)
    exact agreeOn_putValue ballots x.value (by omega) (by omega)
  put_size := by
    intro m a x small
    change 24 + getLe (putPrepareAck m a x) 8 (a + 16) = x.value.length + 24
    unfold putPrepareAck
    rw [valueSize_putValue _ (by omega) (by omega), Nat.add_comm]
  get_put := by
    intro m a x small
    unfold getPrepareAck putPrepareAck
    rw [getValue_putValue _ (by omega) (by omega)]
    simp (disch := omega) only [getU32_putValue_apart, getU32_putU32_apart, getU32_putU32]
  get_congr := by
    intro m m' a h
    change AgreeOn a (a + 24 + getLe m 8 (a + 16)) m m' at h
    unfold getPrepareAck
    rw [getU32_congr (h.mono le_rfl (by omega)), getU32_congr (h.mono (by omega) (by omega)),
      getU32_congr (h.mono (by omega) (by omega)),
      getValue_congr (h.mono (by omega) (by omega)) (h.mono (by omega) (by omega))]

def acceptReqs : BatchCodec AcceptReq where
  type := .acceptReqs
  layout := acceptReqBatch
  size := fun ar => ar.value.length + 16
  put := putAcceptReq
  get := getAcceptReq
  layout_of_type := rfl
  put_outside := by
    intro m a x lo hi h
    have iid := (AgreeOn.refl lo hi m).putU32 a x.iid (by omega)
    have ballot := iid.putU32 (a + 4) x.ballot (by omega)
    exact agreeOn_putValue ballot x.value (by omega) (by omega)
  put_size := by
    intro m a x small
    change 16 + getLe (putAcceptReq m a x) 8 (a + 8) = x.value.length + 16
    unfold putAcceptReq
    rw [valueSize_putValue _ (by omega) (by omega), Nat.add_comm]
  get_put := by
    intro m a x small
    unfold getAcceptReq putAcceptReq
    rw [getValue_putValue _ (by omega) (by omega)]
    simp (disch := omega) only [getU32_putValue_apart, getU32_putU32_apart, getU32_putU32]
  get_congr := by
    intro m m' a h
    change AgreeOn a (a + 16 + getLe m 8 (a + 8)) m m' at h
    unfold getAcceptReq
    rw [getU32_congr (h.mono le_rfl (by omega)), getU32_congr (h.mono (by omega) (by omega)),
      getValue_congr (h.mono (by omega) (by omega)) (h.mono (by omega) (by omega))]

def acceptAcks : BatchCodec AcceptAck where
  type := .acceptAcks
  layout := acceptAckBatch
  size := fun aa => aa.value.length + 24
  put := putAcceptAck
  get := getAcceptAck
  layout_of_type := rfl
  put_outside := by
    intro m a x lo hi h
    have iid := (AgreeOn.refl lo hi m).putU32 a x.iid (by omega)
    have ballots := (iid.putU32 (a + 4) x.ballot (by omega)).putU32 (a + 8)
      x.valueBallot (by omega)
    have final := (ballots.putU16 (a + 12) x.isFinal (by omega)).putU16 (a + 14)
      x.padding (by omega)
    exact agreeOn_putValue final x.value (by omega) (by omega)
  put_size := by
    intro m a x small
    change 24 + getLe (putAcceptAck m a x) 8 (a + 16) = x.value.length + 24
    unfold putAcceptAck
    rw [valueSize_putValue _ (by omega) (by omega), Nat.add_comm]
  get_put := by
    intro m a x small
    unfold getAcceptAck putAcceptAck
    rw [getValue_putValue _ (by omega) (by omega)]
    simp (disch := omega) only [getU32_putValue_apart, getU16_putValue_apart,
      getU16_putU16_apart, getU32_putU16_apart, getU32_putU32_apart, getU32_putU32, getU16_putU16]
  get_congr := by
    intro m m' a h
    change AgreeOn a (a + 24 + getLe m 8 (a + 16)) m m' at h
    unfold getAcceptAck
    rw [getU32_congr (h.mono le_rfl (by omega)), getU32_congr (h.mono (by omega) (by omega)),
      getU32_congr (h.mono (by omega) (by omega)), getU16_congr (h.mono (by omega) (by omega)),
      getU16_congr (h.mono (by omega) (by omega)),
      getValue_congr (h.mono (by omega) (by omega)) (h.mono (by omega) (by omega))]

def repeatReqs : BatchCodec UInt32 where
  type := .repeatReqs
  layout := repeatReqBatch
  size := fun _ => 4
  put := putU32
  get := getU32
  layout_of_type := rfl
  put_outside := fun _ _ _ _ _ h => agreeOn_putLe _ _ (by omega)
  put_size := fun _ _ _ _ => rfl
  get_put := fun m a x _ => getU32_putU32 m a x
  get_congr := fun _ _ _ h => getU32_congr h

structure UdpSendBuffer where
  dirty : Bool
  buffer : Memory
  sent : List (List UInt8)

/-- An empty batch header, as `sendbuf_clear` writes it. -/
def clearBatch (l : BatchLayout) (buffer : Memory) (senderId : ℤ) : Memory :=
  let counted := putSigned (putLe buffer 8 dataSizeAt batchHeader) 2 l.countAt 0
  match l.senderAt with
  | none => counted
  | some a => putSigned counted 2 a senderId

def sendbufClear (sb : UdpSendBuffer) (type : PaxosMsgCode) (senderId : ℤ) : UdpSendBuffer :=
  let typed := putLe (putLe sb.buffer 4 typeAt type.code) 8 dataSizeAt 0
  { sb with
    dirty := false
    buffer :=
      match batchLayout type with
      | some l => clearBatch l typed senderId
      | none => typed }

def sendbufFlush (sb : UdpSendBuffer) : UdpSendBuffer :=
  if sb.dirty then { sb with sent := sb.sent ++ [read sb.buffer 0 (paxosMsgSize sb.buffer)] }
  else sb

section Add

variable {ι : Type} (c : BatchCodec ι)

/-- The sender that a new message is opened for when the current one is full. -/
def senderOf (buffer : Memory) : ℤ :=
  match c.layout.senderAt with
  | none => -1
  | some a => getSigned buffer 2 a

/-- Arrays are written at the index `count`, the other batches behind their data. -/
def itemPlace (buffer : Memory) : ℕ :=
  match c.layout.valueSizeAt with
  | none => (itemsAt + c.layout.itemHeader * c.layout.count buffer : ℤ).toNat
  | some _ => dataAt + dataSize buffer

def appendItem (buffer : Memory) (x : ι) : Memory :=
  let written := c.put buffer (itemPlace c buffer) x
  let sized := putLe written 8 dataSizeAt (dataSize written + c.size x)
  putSigned sized 2 c.layout.countAt (c.layout.count sized + 1)

/-- The body shared by the `sendbuf_add_*` functions; `none` is the failed assertion
on the type of the open message. -/
def sendbufAdd (sb : UdpSendBuffer) (x : ι) : Option UdpSendBuffer :=
  if msgType sb.buffer = some c.type then
    let sb' :=
      if maxUdpMsgSize ≤ sizeT (paxosMsgSize sb.buffer + c.size x)
        then sendbufClear (sendbufFlush sb) c.type (senderOf c sb.buffer) else sb
    some { sb' with dirty := true, buffer := appendItem c sb'.buffer x }
  else none

def batchItems (m : Memory) : List ι :=
  (List.range (c.layout.count m).toNat).map fun i => c.get m (c.layout.itemAddress m i)

end Add

def sendbufAddPrepareReq (sb : UdpSendBuffer) (pr : PrepareReq) : Option UdpSendBuffer :=
  sendbufAdd prepareReqs sb pr

def prepareAckOf (rec : AcceptorRecord) : PrepareAck where
  iid := rec.iid
  ballot := rec.ballot
  valueBallot := rec.valueBallot
  value := rec.value

def sendbufAddPrepareAck (sb : UdpSendBuffer) (rec : AcceptorRecord) : Option UdpSendBuffer :=
  sendbufAdd prepareAcks sb (prepareAckOf rec)

def sendbufAddAcceptReq (sb : UdpSendBuffer) (ar : AcceptReq) : Option UdpSendBuffer :=
  sendbufAdd acceptReqs sb ar

def sendbufAddAcceptAck (sb : UdpSendBuffer) (rec : AcceptorRecord) : Option UdpSendBuffer :=
  sendbufAdd acceptAcks sb rec

def sendbufAddRepeatReq (sb : UdpSendBuffer) (iid : UInt32) : Option UdpSendBuffer :=
  sendbufAdd repeatReqs sb iid

/-- A receiver of one kind of batch reading datagrams one after the other. -/
def receivedItems {ι : Type} (c : BatchCodec ι) : Memory → List (List UInt8) → List ι
  | _, [] => []
  | recvBuffer, datagram :: datagrams =>
    let (buffer, verdict) := udpReadNextMessage recvBuffer datagram
    let items := if verdict = 0 ∧ msgType buffer = some c.type then batchItems c buffer else []
    items ++ receivedItems c buffer datagrams

end FdsPaxos.Paxos2BatchCodec
