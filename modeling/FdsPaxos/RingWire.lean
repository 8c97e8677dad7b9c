import FdsPaxos.RingCommandSize
import FdsPaxos.StructCodec

set_option autoImplicit false

/-!
The messages of `ringpaxos_messages.h` and the requests of learners and clients as bytes, on an
LP64 machine: how a sender lays them out, and what a receiver reads behind a message header.
-/

namespace FdsPaxos.RingWire
open ByteMemory StructLayout StructCodec RingMessages RingPackets RingCommandSize

inductive WireMsg where
  | phase1 (msg : Phase1Msg)
  | phase1Range (msg : Phase1RangeMsg)
  | phase2 (msg : Phase2Msg)
  | commandMap (msg : CmdmapMsg)
  | acceptance (msg : AcceptanceMsg)
  | mapRequest (instNumbers : List ℕ)
  | chosenvalRequest (instNumbers : List ℕ)
  | clientSubmit (value : Value)
deriving DecidableEq

/-- The values of `lp_msg_type` that some process handles. -/
inductive LpMsgType where
  | phase1
  | phase1Range
  | phase2
  | commandMap
  | acceptance
  | mapRequest
  | chosenvalRequest
  | clientSubmit
deriving DecidableEq

def LpMsgType.code : LpMsgType → UInt32
  | phase1 => phase1Type
  | phase1Range => 2
  | phase2 => 3
  | commandMap => commandMapType
  | acceptance => 6
  | mapRequest => 7
  | chosenvalRequest => 8
  | clientSubmit => clientSubmitType

def LpMsgType.ofCode (code : UInt32) : Option LpMsgType :=
  [phase1, phase1Range, phase2, commandMap, acceptance, mapRequest, chosenvalRequest,
    clientSubmit].find? fun type => type.code = code

theorem LpMsgType.ofCode_code (type : LpMsgType) : ofCode type.code = some type := by
  cases type <;> decide

def WireMsg.type : WireMsg → LpMsgType
  | phase1 _ => .phase1
  | phase1Range _ => .phase1Range
  | phase2 _ => .phase2
  | commandMap _ => .commandMap
  | acceptance _ => .acceptance
  | mapRequest _ => .mapRequest
  | chosenvalRequest _ => .chosenvalRequest
  | clientSubmit _ => .clientSubmit

def phase1RangeMsgFields : List FieldType := [iidT, iidT, ballotT, unsignedT]

def phase2MsgFields : List FieldType := [iidT, ballotT, unsignedT, asField commandIdFields]

def acceptanceMsgFields : List FieldType := [iidT, asField commandIdFields]

/-- `map_requests_msg` and `chosencmd_requests_msg`: a counter, and an array of no length. -/
def requestsMsgFields : List FieldType := [unsignedT, ⟨0, 8⟩]

def LpMsgType.fields : LpMsgType → List FieldType
  | phase1 => phase1MsgFields
  | phase1Range => phase1RangeMsgFields
  | phase2 => phase2MsgFields
  | commandMap => cmdmapMsgFields
  | acceptance => acceptanceMsgFields
  | mapRequest | chosenvalRequest => requestsMsgFields
  | clientSubmit => submitCmdMsgFields

def keyOf (word : ℕ) : CommandId :=
  ⟨UInt8.ofNat word, UInt8.ofNat (word / 256), UInt16.ofNat (word / 65536)⟩

/-- What lies in memory where `cmd_key` of a `phase1_msg` is. -/
def unsetKey (stack : Memory) : ℕ := getLe stack 4 24

/-- The values of the fields.  The key of a `phase1_msg` is set with the accepted command only. -/
def WireMsg.values (stack : Memory) : WireMsg → List ℕ
  | phase1 msg =>
    [msg.instNumber, msg.ballot.toNat, msg.promisesCount.toNat, msg.highestAcceptedBallot.toNat,
      msg.highestPromisedBallot.toNat,
      if msg.highestAcceptedBallot = 0 then unsetKey stack else keyWord msg.cmdKey,
      msg.cmdValue.length]
  | phase1Range msg => [msg.fromIid, msg.toIid, msg.ballot.toNat, msg.promisesCount.toNat]
  | phase2 msg => [msg.instNumber, msg.ballot.toNat, msg.acceptsCount.toNat, keyWord msg.cmdKey]
  | commandMap msg => [msg.instNumber, keyWord msg.cmdKey, msg.cmdValue.length]
  | acceptance msg => [msg.instNumber, keyWord msg.cmdKey]
  | mapRequest instNumbers | chosenvalRequest instNumbers => [instNumbers.length, 0]
  | clientSubmit value => [value.length, 0]

def WireMsg.tail : WireMsg → List UInt8
  | phase1 msg => msg.cmdValue
  | commandMap msg => msg.cmdValue
  | mapRequest instNumbers | chosenvalRequest instNumbers => arrayBytes 8 instNumbers
  | clientSubmit value => value
  | phase1Range _ | phase2 _ | acceptance _ => []

def WireMsg.size (m : WireMsg) : ℕ := sizeof m.type.fields + m.tail.length

/-- A message is built in memory of `MAX_MESSAGE_SIZE` bytes that holds `stack` before. -/
def build (stack : Memory) (m : WireMsg) : Except BuildFault Message :=
  buildMessage m.type.code stack m.type.fields (m.values stack) m.tail

theorem build_of_fits (stack : Memory) {m : WireMsg} (fits : m.size ≤ maxMessageSize) :
    build stack m = .ok ⟨m.type.code, structBytes stack m.type.fields (m.values stack) m.tail⟩ :=
  if_neg (Nat.not_lt.mpr fits)

section Receiver

variable (buf : Memory) (a : ℕ)

/-- The value of field number `k` of the structure at address `a`. -/
def fieldAt (fields : List FieldType) (k : ℕ) : ℕ := (getFields buf a fields).getD k 0

/-- The size that the message states of itself: a macro of `ringpaxos_messages.h`, or the size
of the structure.  Sums are taken on 64 bits. -/
def statedSize : LpMsgType → ℕ
  | .phase1 => (sizeof phase1MsgFields + fieldAt buf a phase1MsgFields 6) % 2 ^ 64
  | .commandMap => (sizeof cmdmapMsgFields + fieldAt buf a cmdmapMsgFields 2) % 2 ^ 64
  | .mapRequest | .chosenvalRequest =>
    (sizeof requestsMsgFields + fieldAt buf a requestsMsgFields 0 * 8) % 2 ^ 64
  | .clientSubmit => (sizeof submitCmdMsgFields + fieldAt buf a submitCmdMsgFields 0) % 2 ^ 64
  | .phase1Range => sizeof phase1RangeMsgFields
  | .phase2 => sizeof phase2MsgFields
  | .acceptance => sizeof acceptanceMsgFields

/-- `phase1_msg`; its key is read with the accepted command only. -/
def readPhase1 : Phase1Msg where
  instNumber := fieldAt buf a phase1MsgFields 0
  ballot := UInt32.ofNat (fieldAt buf a phase1MsgFields 1)
  promisesCount := UInt32.ofNat (fieldAt buf a phase1MsgFields 2)
  highestAcceptedBallot := UInt32.ofNat (fieldAt buf a phase1MsgFields 3)
  highestPromisedBallot := UInt32.ofNat (fieldAt buf a phase1MsgFields 4)
  cmdKey :=
    if UInt32.ofNat (fieldAt buf a phase1MsgFields 3) = 0 then clearCmdKey
    else keyOf (fieldAt buf a phase1MsgFields 5)
  cmdValue := read buf (a + sizeof phase1MsgFields) (fieldAt buf a phase1MsgFields 6)

def readPhase1Range : Phase1RangeMsg where
  fromIid := fieldAt buf a phase1RangeMsgFields 0
  toIid := fieldAt buf a phase1RangeMsgFields 1
  ballot := UInt32.ofNat (fieldAt buf a phase1RangeMsgFields 2)
  promisesCount := UInt32.ofNat (fieldAt buf a phase1RangeMsgFields 3)

def readPhase2 : Phase2Msg where
  instNumber := fieldAt buf a phase2MsgFields 0
  ballot := UInt32.ofNat (fieldAt buf a phase2MsgFields 1)
  acceptsCount := UInt32.ofNat (fieldAt buf a phase2MsgFields 2)
  cmdKey := keyOf (fieldAt buf a phase2MsgFields 3)

def readCmdmap : CmdmapMsg where
  instNumber := fieldAt buf a cmdmapMsgFields 0
  cmdKey := keyOf (fieldAt buf a cmdmapMsgFields 1)
  cmdValue := read buf (a + sizeof cmdmapMsgFields) (fieldAt buf a cmdmapMsgFields 2)

def readAcceptance : AcceptanceMsg where
  instNumber := fieldAt buf a acceptanceMsgFields 0
  cmdKey := keyOf (fieldAt buf a acceptanceMsgFields 1)

def readRequests : List ℕ :=
  getArray buf 8 (a + sizeof requestsMsgFields) (fieldAt buf a requestsMsgFields 0)

def readSubmit : Value :=
  read buf (a + sizeof submitCmdMsgFields) (fieldAt buf a submitCmdMsgFields 0)

def readMsg : LpMsgType → WireMsg
  | .phase1 => .phase1 (readPhase1 buf a)
  | .phase1Range => .phase1Range (readPhase1Range buf a)
  | .phase2 => .phase2 (readPhase2 buf a)
  | .commandMap => .commandMap (readCmdmap buf a)
  | .acceptance => .acceptance (readAcceptance buf a)
  | .mapRequest => .mapRequest (readRequests buf a)
  | .chosenvalRequest => .chosenvalRequest (readRequests buf a)
  | .clientSubmit => .clientSubmit (readSubmit buf a)

end Receiver

/-- Instance numbers fit into an `iid_t`, and a key that is not set is the clear one. -/
def WireMsg.InRange : WireMsg → Prop
  | phase1 msg =>
    msg.instNumber < 2 ^ 64 ∧ (msg.highestAcceptedBallot = 0 → msg.cmdKey = clearCmdKey)
  | phase1Range msg => msg.fromIid < 2 ^ 64 ∧ msg.toIid < 2 ^ 64
  | phase2 msg => msg.instNumber < 2 ^ 64
  | commandMap msg => msg.instNumber < 2 ^ 64
  | acceptance msg => msg.instNumber < 2 ^ 64
  | mapRequest instNumbers | chosenvalRequest instNumbers => ∀ i ∈ instNumbers, i < 2 ^ 64
  | clientSubmit _ => True

/-- Wherever a receiver finds the bytes, they pass the test of their size and are read as `m`. -/
structure Encodes (x : Message) (m : WireMsg) : Prop where
  type : LpMsgType.ofCode x.type = some m.type
  size : ∀ buf a, read buf a x.data.length = x.data → statedSize buf a m.type = x.data.length
  content : ∀ buf a, read buf a x.data.length = x.data → readMsg buf a m.type = m

variable {stack buf : Memory} {a : ℕ} {m : WireMsg}

theorem keyWord_lt (key : CommandId) : keyWord key < 256 ^ 4 := by
  have first := key.mcasterId.toNat_lt
  have second := key.mcasterIncarnation.toNat_lt
  have third := key.cmdSeqnum.toNat_lt
  unfold keyWord
  omega

theorem keyOf_keyWord (key : CommandId) : keyOf (keyWord key) = key := by
  have first := key.mcasterId.toNat_lt
  have second := key.mcasterIncarnation.toNat_lt
  have low : keyWord key % 256 = key.mcasterId.toNat := by
    unfold keyWord
    omega
  have mid : keyWord key / 256 % 256 = key.mcasterIncarnation.toNat := by
    unfold keyWord
    omega
  have high : keyWord key / 65536 = key.cmdSeqnum.toNat := by
    unfold keyWord
    omega
  have id : UInt8.ofNat (keyWord key) = key.mcasterId := by
    apply UInt8.toNat_inj.mp
    rw [UInt8.toNat_ofNat']
    exact low
  have incarnation : UInt8.ofNat (keyWord key / 256) = key.mcasterIncarnation := by
    apply UInt8.toNat_inj.mp
    rw [UInt8.toNat_ofNat']
    exact mid
  unfold keyOf
  rw [id, incarnation, high, UInt16.ofNat_toNat]

theorem word_lt (x : UInt32) : x.toNat < 256 ^ 4 := x.toNat_lt

theorem fields_aligned (type : LpMsgType) : ∀ f ∈ type.fields, 0 < f.align := by
  cases type <;> decide

theorem suits_fields (stack : Memory) (range : m.InRange) (fits : m.size ≤ maxMessageSize) :
    Suits m.type.fields (m.values stack) := by
  refine ⟨fields_aligned m.type, ?_⟩
  have short : m.tail.length < 256 ^ 4 := by
    have : maxMessageSize = 8980 := rfl
    unfold WireMsg.size at fits
    omega
  cases m with
  | phase1 msg =>
    have key : (if msg.highestAcceptedBallot = 0 then unsetKey stack else keyWord msg.cmdKey) <
        256 ^ 4 := by
      split_ifs
      · exact getLe_lt stack 4 24
      · exact keyWord_lt _
    refine .cons range.1 (.cons (word_lt _) (.cons (word_lt _) (.cons (word_lt _)
      (.cons (word_lt _) (.cons key (.cons ?_ .nil))))))
    exact lt_trans short (by decide)
  | phase1Range msg =>
    exact .cons range.1 (.cons range.2 (.cons (word_lt _) (.cons (word_lt _) .nil)))
  | phase2 msg =>
    exact .cons range (.cons (word_lt _) (.cons (word_lt _) (.cons (keyWord_lt _) .nil)))
  | commandMap msg =>
    exact .cons range (.cons (keyWord_lt _) (.cons (lt_trans short (by decide)) .nil))
  | acceptance msg => exact .cons range (.cons (keyWord_lt _) .nil)
  | mapRequest instNumbers =>
    have count : (arrayBytes 8 instNumbers).length < 256 ^ 4 := short
    rw [length_arrayBytes] at count
    exact .cons (lt_of_le_of_lt (Nat.le_mul_of_pos_left _ (by decide)) count)
      (.cons Nat.one_pos .nil)
  | chosenvalRequest instNumbers =>
    have count : (arrayBytes 8 instNumbers).length < 256 ^ 4 := short
    rw [length_arrayBytes] at count
    exact .cons (lt_of_le_of_lt (Nat.le_mul_of_pos_left _ (by decide)) count)
      (.cons Nat.one_pos .nil)
  | clientSubmit value =>
    exact .cons (lt_trans short (by decide)) (.cons Nat.one_pos .nil)

theorem readPhase1_of_values {msg : Phase1Msg}
    (values : getFields buf a phase1MsgFields = (WireMsg.phase1 msg).values stack)
    (tail : read buf (a + sizeof phase1MsgFields) msg.cmdValue.length = msg.cmdValue)
    (unset : msg.highestAcceptedBallot = 0 → msg.cmdKey = clearCmdKey) :
    readPhase1 buf a = msg := by
  have ballot : UInt32.ofNat msg.highestAcceptedBallot.toNat = msg.highestAcceptedBallot :=
    UInt32.ofNat_toNat
  have key : (if msg.highestAcceptedBallot = 0 then clearCmdKey
      else keyOf (if msg.highestAcceptedBallot = 0 then unsetKey stack
        else keyWord msg.cmdKey)) = msg.cmdKey := by
    split_ifs with none
    · exact (unset none).symm
    · exact keyOf_keyWord msg.cmdKey
  unfold readPhase1 fieldAt
  rw [values]
  simp only [WireMsg.values, List.getD_cons_zero, List.getD_cons_succ, UInt32.ofNat_toNat, key,
    tail]

theorem readCmdmap_of_values {msg : CmdmapMsg}
    (values : getFields buf a cmdmapMsgFields = (WireMsg.commandMap msg).values stack)
    (tail : read buf (a + sizeof cmdmapMsgFields) msg.cmdValue.length = msg.cmdValue) :
    readCmdmap buf a = msg := by
  unfold readCmdmap fieldAt
  rw [values]
  simp only [WireMsg.values, List.getD_cons_zero, List.getD_cons_succ, keyOf_keyWord, tail]

theorem readRequests_of_values {instNumbers : List ℕ} (range : ∀ i ∈ instNumbers, i < 2 ^ 64)
    (values : getFields buf a requestsMsgFields = [instNumbers.length, 0])
    (tail : read buf (a + sizeof requestsMsgFields) (arrayBytes 8 instNumbers).length =
      arrayBytes 8 instNumbers) : readRequests buf a = instNumbers := by
  rw [length_arrayBytes] at tail
  unfold readRequests fieldAt
  rw [values]
  exact getArray_arrayBytes range tail

theorem statedSize_requests {instNumbers : List ℕ}
    (values : getFields buf a requestsMsgFields = [instNumbers.length, 0])
    (limit : (WireMsg.mapRequest instNumbers).size < 2 ^ 64) :
    (sizeof requestsMsgFields + fieldAt buf a requestsMsgFields 0 * 8) % 2 ^ 64 =
      (WireMsg.mapRequest instNumbers).size := by
  have size : (WireMsg.mapRequest instNumbers).size =
      sizeof requestsMsgFields + instNumbers.length * 8 := by
    change sizeof requestsMsgFields + (arrayBytes 8 instNumbers).length = _
    rw [length_arrayBytes, Nat.mul_comm]
  rw [size] at limit ⊢
  unfold fieldAt
  rw [values]
  exact Nat.mod_eq_of_lt limit

theorem build_encodes (stack : Memory) (range : m.InRange) (fits : m.size ≤ maxMessageSize) :
    ∃ x, build stack m = .ok x ∧ x.data.length = m.size ∧ Encodes x m := by
  have suits := suits_fields stack range fits
  have whole : (structBytes stack m.type.fields (m.values stack) m.tail).length = m.size :=
    length_structBytes
  have fields (buf : Memory) (a : ℕ) (found : read buf a
      (structBytes stack m.type.fields (m.values stack) m.tail).length =
      structBytes stack m.type.fields (m.values stack) m.tail) :
      getFields buf a m.type.fields = m.values stack ∧
        read buf (a + sizeof m.type.fields) m.tail.length = m.tail := by
    rw [length_structBytes] at found
    exact ⟨getFields_structBytes suits found, tail_structBytes found⟩
  have limit : m.size < 2 ^ 64 := lt_of_le_of_lt fits (by decide)
  refine ⟨_, build_of_fits stack fits, whole, LpMsgType.ofCode_code _, ?_, ?_⟩
  · intro buf a found
    obtain ⟨values, -⟩ := fields buf a found
    dsimp only
    rw [whole]
    clear found whole fields suits
    cases m with
    | phase1 msg =>
      replace values : getFields buf a phase1MsgFields = _ := values
      unfold statedSize fieldAt
      dsimp only [WireMsg.type]
      rw [values]
      exact Nat.mod_eq_of_lt limit
    | commandMap msg =>
      replace values : getFields buf a cmdmapMsgFields = _ := values
      unfold statedSize fieldAt
      dsimp only [WireMsg.type]
      rw [values]
      exact Nat.mod_eq_of_lt limit
    | mapRequest instNumbers => exact statedSize_requests values limit
    | chosenvalRequest instNumbers => exact statedSize_requests values limit
    | clientSubmit value =>
      replace values : getFields buf a submitCmdMsgFields = _ := values
      unfold statedSize fieldAt
      dsimp only [WireMsg.type]
      rw [values]
      exact Nat.mod_eq_of_lt limit
    | phase1Range msg => exact (Nat.add_zero _).symm
    | phase2 msg => exact (Nat.add_zero _).symm
    | acceptance msg => exact (Nat.add_zero _).symm
  · intro buf a found
    obtain ⟨values, tail⟩ := fields buf a found
    cases m with
    | phase1 msg => exact congrArg WireMsg.phase1 (readPhase1_of_values values tail range.2)
    | phase1Range msg =>
      replace values : getFields buf a phase1RangeMsgFields = _ := values
      change WireMsg.phase1Range (readPhase1Range buf a) = _
      unfold readPhase1Range fieldAt
      rw [values]
      simp only [WireMsg.values, List.getD_cons_zero, List.getD_cons_succ, UInt32.ofNat_toNat]
    | phase2 msg =>
      replace values : getFields buf a phase2MsgFields = _ := values
      change WireMsg.phase2 (readPhase2 buf a) = _
      unfold readPhase2 fieldAt
      rw [values]
      simp only [WireMsg.values, List.getD_cons_zero, List.getD_cons_succ, UInt32.ofNat_toNat,
        keyOf_keyWord]
    | commandMap msg => exact congrArg WireMsg.commandMap (readCmdmap_of_values values tail)
    | acceptance msg =>
      replace values : getFields buf a acceptanceMsgFields = _ := values
      change WireMsg.acceptance (readAcceptance buf a) = _
      unfold readAcceptance fieldAt
      rw [values]
      simp only [WireMsg.values, List.getD_cons_zero, List.getD_cons_succ, keyOf_keyWord]
    | mapRequest instNumbers =>
      exact congrArg WireMsg.mapRequest (readRequests_of_values range values tail)
    | chosenvalRequest instNumbers =>
      exact congrArg WireMsg.chosenvalRequest (readRequests_of_values range values tail)
    | clientSubmit value =>
      replace values : getFields buf a submitCmdMsgFields = _ := values
      change WireMsg.clientSubmit (readSubmit buf a) = _
      unfold readSubmit fieldAt
      rw [values]
      exact congrArg WireMsg.clientSubmit tail

end FdsPaxos.RingWire
