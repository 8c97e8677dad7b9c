import FdsPaxos.RingAcceptor
import FdsPaxos.RingMulticaster
import FdsPaxos.RingPackets
import FdsPaxos.StructLayout

set_option autoImplicit false

namespace FdsPaxos.RingCommandSize
open ByteMemory StructLayout TransitionRuns RingMessages RingStableStorage RingMcasterStorage
open RingMulticaster RingAcceptor RingPackets

def uint8T : FieldType := ⟨1, 1⟩
def uint16T : FieldType := ⟨2, 2⟩
def unsignedT : FieldType := ⟨4, 4⟩
def ballotT : FieldType := ⟨4, 4⟩
def iidT : FieldType := ⟨8, 8⟩
def sizeT : FieldType := ⟨8, 8⟩

def commandIdFields : List FieldType := [uint8T, uint8T, uint16T]

def phase1MsgFields : List FieldType :=
  [iidT, ballotT, unsignedT, ballotT, ballotT, asField commandIdFields, sizeT]

def cmdmapMsgFields : List FieldType := [iidT, asField commandIdFields, sizeT]

/-- `submit_cmd_msg`; its value is an array of pointers without elements. -/
def submitCmdMsgFields : List FieldType := [sizeT, ⟨0, 8⟩]

theorem sizeof_phase1Msg : sizeof phase1MsgFields = 40 := by decide

theorem sizeof_cmdmapMsg : sizeof cmdmapMsgFields = 24 := by decide

def largestPaxosHeader : ℕ := 14

def maxCommandSize : ℕ := maxMessageSize - sizeof phase1MsgFields

/-- The values of `lp_msg_type`. -/
def phase1Type : UInt32 := 1
def commandMapType : UInt32 := 4
def clientSubmitType : UInt32 := 9

inductive BuildFault where
  | bufferOverrun
deriving DecidableEq

def putFields (buf : Memory) (fields : List FieldType) (values : List ℕ) : Memory :=
  (((offsets fields).zip fields).zip values).foldl
    (fun buf field => putLe buf field.1.2.size field.1.1 field.2) buf

/-- The bytes of a `command_id` as one integer. -/
def keyWord (key : CommandId) : ℕ :=
  key.mcasterId.toNat + 256 * key.mcasterIncarnation.toNat + 65536 * key.cmdSeqnum.toNat

/-- A message built on the stack in a buffer of `MAX_MESSAGE_SIZE` bytes: a structure, and
the command copied behind it. -/
def buildMessage (type : UInt32) (stack : Memory) (fields : List FieldType) (values : List ℕ)
    (command : Value) : Except BuildFault Message :=
  if maxMessageSize < sizeof fields + command.length then .error .bufferOverrun
  else .ok
    { type := type
      data := read (write (putFields stack fields values) (sizeof fields) command) 0
        (sizeof fields + command.length) }

/-- `mcaster_broadcast_mapping` -/
def buildCommandMap (stack : Memory) (m : CmdmapMsg) : Except BuildFault Message :=
  buildMessage commandMapType stack cmdmapMsgFields
    [m.instNumber, keyWord m.cmdKey, m.cmdValue.length] m.cmdValue

/-- The end of `acceptor_handle_phase1_msg`. -/
def buildPhase1 (stack : Memory) (m : Phase1Msg) : Except BuildFault Message :=
  buildMessage phase1Type stack phase1MsgFields
    [m.instNumber, m.ballot.toNat, m.promisesCount.toNat, m.highestAcceptedBallot.toNat,
      m.highestPromisedBallot.toNat, keyWord m.cmdKey, m.cmdValue.length] m.cmdValue

/-- The message is built inside its buffer, and a sender takes it behind those it has. -/
def Sendable (built : Except BuildFault Message) : Prop :=
  ∃ m, built = .ok m ∧ ∀ us ms, Buffered us ms →
    ∃ us', netSendUdp us m = .running us' ∧ Buffered us' (ms ++ [m])

/-- The mapping of any instance to the command, and any promise that reports it. -/
structure Carried (command : Value) : Prop where
  mapping : ∀ stack instNumber key, Sendable (buildCommandMap stack ⟨instNumber, key, command⟩)
  report : ∀ stack msg (ir : InstanceRecord) fields, ir.acceptedCmd = some command →
    Sendable (buildPhase1 stack (forwardAccepted msg ir fields))

def submitMessage (command : Value) : Message where
  type := clientSubmitType
  data := leBytes 8 command.length ++ command

/-- What `submit_command` hands to `net_send_udp`. -/
def submitCommand (command : Value) : Option Message :=
  if maxMessageSize - largestPaxosHeader < sizeof submitCmdMsgFields + command.length then none
  else some (submitMessage command)

/-- A message of `client_values_mngr_handle_data` with the assertion on its size; `none`
stands for a message that is not handled. -/
def clientCommand (m : Message) : Option Value :=
  if m.type = clientSubmitType ∧
      sizeof submitCmdMsgFields + leValue (m.data.take 8) = m.data.length then
    some (m.data.drop 8)
  else none

inductive Admitted (command : Value) : Prop where
  | submitted {m : Message} (sent : submitCommand command = some m)
  | arrived {buf : Memory} {datagram : List UInt8} {ds : List Delivery} {d : Delivery}
    {s : Mcaster} (taken : udpReadCallbackWrapper buf datagram = some ds) (mem : d ∈ ds)
    (handled : clientCommand (delivered (recvDatagram buf datagram) d) = some command)
    (enqueued : (mcasterHandleValueSubmit s command).queue = s.queue ++ [command])

section Fits

variable {type : UInt32} {stack : Memory} {fields : List FieldType} {values : List ℕ}
  {command : Value}

theorem sendable_of_fits (fits : sizeof fields + command.length ≤ maxMessageSize) :
    Sendable (buildMessage type stack fields values command) := by
  refine ⟨_, if_neg (Nat.not_lt.mpr fits), fun us ms buffered => ?_⟩
  exact buffered.send (by rwa [length_read])

theorem fits_of_sendable (h : Sendable (buildMessage type stack fields values command)) :
    sizeof fields + command.length ≤ maxMessageSize := by
  obtain ⟨m, built, -⟩ := h
  by_contra long
  rw [buildMessage, if_pos (Nat.not_le.mp long)] at built
  exact absurd built (by simp)

theorem carried_iff : Carried command ↔ command.length ≤ maxCommandSize := by
  have limit : maxMessageSize = 8980 := rfl
  have limit' : maxCommandSize = 8940 := by decide
  constructor
  · intro carried
    have report := fits_of_sendable (carried.report (fun _ => 0)
      ⟨0, 0, 0, 0, 0, clearCmdKey, []⟩ ⟨0, 0, 0, clearCmdKey, some command, clearCmdKey, .null⟩
      ⟨0, 0, 0⟩ rfl)
    rw [sizeof_phase1Msg] at report
    have same : (some command).getD [] = command := rfl
    simp only [forwardAccepted, same] at report
    omega
  · intro short
    constructor
    · intro stack instNumber key
      apply sendable_of_fits
      rw [sizeof_cmdmapMsg]
      dsimp only
      omega
    · intro stack msg ir left accepted
      apply sendable_of_fits
      rw [sizeof_phase1Msg, forwardAccepted, accepted, Option.getD_some]
      dsimp only
      omega

end Fits

theorem readLoop_start {buf : Memory} {udatasize fuel a : ℕ} {ds : List Delivery}
    (h : readLoop buf udatasize fuel a = some ds) : ∀ d ∈ ds, lpMessageHeader ≤ d.start := by
  induction fuel generalizing a ds with
  | zero => exact absurd h (by simp [readLoop])
  | succ fuel ih =>
    unfold readLoop at h
    dsimp only at h
    split_ifs at h with inside long
    · cases h
      simp
    · obtain ⟨rest, turns, rfl⟩ := Option.map_eq_some_iff.mp h
      refine List.forall_mem_cons.mpr ⟨Nat.le_add_left _ _, ih turns⟩
    · cases h
      simp

theorem length_of_arrived {buf : Memory} {datagram : List UInt8} {ds : List Delivery}
    {d : Delivery} (taken : udpReadCallbackWrapper buf datagram = some ds) (mem : d ∈ ds) :
    lpMessageHeader + d.size ≤ maxUdpPayload := by
  have short : (datagram.take recvBufSize).length ≤ maxUdpPayload := by
    rw [List.length_take]
    exact Nat.min_le_left _ _
  have word : (datagram.take recvBufSize).length < 2 ^ 16 := lt_of_le_of_lt short (by decide)
  have start := readLoop_start taken d mem
  obtain ⟨ds', turns, inside⟩ := readLoop_ends (recvDatagram buf datagram) word
    (datagram.take recvBufSize).length 0 (by omega)
  unfold udpReadCallbackWrapper at taken
  dsimp only at taken
  rw [Nat.mod_eq_of_lt word, turns] at taken
  cases taken
  have := inside d mem
  omega

theorem Admitted.length_le {command : Value} (h : Admitted command) :
    sizeof submitCmdMsgFields + command.length ≤ maxMessageSize := by
  cases h with
  | submitted sent =>
    unfold submitCommand at sent
    split_ifs at sent with long
    have : maxMessageSize - largestPaxosHeader ≤ maxMessageSize := Nat.sub_le _ _
    omega
  | @arrived buf datagram ds d s taken mem handled enqueued =>
    have arrived := length_of_arrived taken mem
    unfold clientCommand at handled
    split_ifs at handled with known
    have data : (delivered (recvDatagram buf datagram) d).data.length = d.size := length_read _ _ _
    have rest := congrArg List.length (Option.some.inj handled)
    rw [List.length_drop, data] at rest
    have header := known.2
    rw [data] at header
    have : maxUdpPayload = maxMessageSize + lpMessageHeader := rfl
    have : sizeof submitCmdMsgFields = 8 := by decide
    omega

theorem admitted_carried_iff (command : Value) (admitted : Admitted command) :
    sizeof submitCmdMsgFields + command.length ≤ maxMessageSize ∧
      (Carried command ↔ command.length ≤ maxCommandSize) :=
  ⟨admitted.length_le, carried_iff⟩

theorem admitted_carried_iff_short :
    sizeof submitCmdMsgFields + [7].length ≤ maxMessageSize ∧
      (Carried [7] ↔ [7].length ≤ maxCommandSize) :=
  admitted_carried_iff [7] (.submitted rfl)

/-- The longest command that `submit_command` lets through: not even its mapping fits. -/
theorem longest_command_not_carried :
    Admitted (List.replicate 8958 0) ∧ ¬ Carried (List.replicate 8958 0) ∧
      ∀ stack instNumber key,
        ¬ Sendable (buildCommandMap stack ⟨instNumber, key, List.replicate 8958 0⟩) := by
  have length : (List.replicate 8958 (0 : UInt8)).length = 8958 := List.length_replicate
  refine ⟨.submitted (if_neg ?_), ?_, fun stack instNumber key sendable => ?_⟩
  · rw [length]
    decide
  · rw [carried_iff, length]
    decide
  · have fits := fits_of_sendable sendable
    rw [length] at fits
    exact absurd fits (by decide)

end FdsPaxos.RingCommandSize
