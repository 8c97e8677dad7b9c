import FdsPaxos.TextScan

set_option autoImplicit false

/-!
`config_parser.c`: reading a configuration file line by line and checking what was
read.  Reading past the end of an array is a failure of its own, since nothing is
promised of the process behind it.
-/

namespace FdsPaxos.RingConfigParser
open TextScan

def maxAcceptors : ℕ := 10

structure Timeval where
  tvSec : ℤ
  tvUsec : ℤ
deriving DecidableEq

structure AcceptorInfo where
  id : ℕ
  ipAddr : List Char
  inboundPort : ℤ
  learnersPort : ℤ
deriving DecidableEq

structure ConfigMngr where
  selfAcceptorId : ℕ
  acceptorsCount : ℤ
  p1Interval : Timeval
  p2Interval : Timeval
  deliveryCheckInterval : Timeval
  mcasterClockInterval : Timeval
  defaultAutoflushInterval : ℤ
  retransmitRequestInterval : Timeval
  socketBuffersSize : ℤ
  mcastAddr : List Char
  mcastPort : ℤ
  quorumSize : ℤ
  workingSetSize : ℤ
  maxActiveInstances : ℤ
  preexecutionWindowSize : ℤ
  maxP2OpenPerIteration : ℤ
  maxClientValuesQueueSize : ℤ
  accInfos : ℕ → AcceptorInfo
  initialized : Bool

/-- The zeroes of `calloc`, with the id of the process. -/
def emptyConfig (selfAcceptorId : ℕ) : ConfigMngr where
  selfAcceptorId := selfAcceptorId
  acceptorsCount := 0
  p1Interval := ⟨0, 0⟩
  p2Interval := ⟨0, 0⟩
  deliveryCheckInterval := ⟨0, 0⟩
  mcasterClockInterval := ⟨0, 0⟩
  defaultAutoflushInterval := 0
  retransmitRequestInterval := ⟨0, 0⟩
  socketBuffersSize := 0
  mcastAddr := []
  mcastPort := 0
  quorumSize := 0
  workingSetSize := 0
  maxActiveInstances := 0
  preexecutionWindowSize := 0
  maxP2OpenPerIteration := 0
  maxClientValuesQueueSize := 0
  accInfos := fun _ => ⟨0, [], 0, 0⟩
  initialized := false

/-- What the parser takes from its surroundings: the verdict of `inet_addr`, the
limits on socket buffers, and what its uninitialised variables happen to hold. -/
structure Platform where
  inetAddr : List Char → Bool
  maxRbufSize : ℤ
  maxWbufSize : ℤ
  sec : ℤ
  usec : ℤ
  tmpIp : List Char

/-- The checks of `validate_config`, by what they are about. -/
inductive Check where
  | mcastAddr
  | mcastPort
  | p1Interval
  | p2Interval
  | clockInterval
  | retransmitInterval
  | quorumSize
  | acceptorsCount
  | socketBuffers
  | maxActiveInstances
  | workingSetSize
  | acceptorAddr
  | acceptorPort
  | sameId
deriving DecidableEq

inductive Failure where
  | parseError
  | invalid (check : Check)
  | assertion
  | bufferOverrun
deriving DecidableEq

inductive IntField where
  | defaultAutoflushInterval
  | socketBuffersSize
  | quorumSize
  | workingSetSize
  | maxActiveInstances
  | preexecutionWindowSize
  | maxP2OpenPerIteration
  | maxClientValuesQueueSize
deriving DecidableEq

inductive TimevalField where
  | p1Interval
  | p2Interval
  | mcasterClockInterval
  | deliveryCheckInterval
  | retransmitRequestInterval
deriving DecidableEq

/-- The kinds of lines that `open_and_parse` tells apart. -/
inductive Entry where
  | ignored
  | timeval (field : TimevalField)
  | integer (field : IntField)
  | multicast
  | acceptor
deriving DecidableEq

/-- The prefixes in the order in which they are tried. -/
def entries : List (String × Entry) :=
  [("#", .ignored), ("//", .ignored), ("\n", .ignored),
    ("p1_interval", .timeval .p1Interval),
    ("p2_interval", .timeval .p2Interval),
    ("mcaster_clock_interval", .timeval .mcasterClockInterval),
    ("delivery_check_interval", .timeval .deliveryCheckInterval),
    ("retransmit_request_interval", .timeval .retransmitRequestInterval),
    ("default_autoflush_interval", .integer .defaultAutoflushInterval),
    ("socket_buffers_size", .integer .socketBuffersSize),
    ("quorum_size", .integer .quorumSize),
    ("working_set_size", .integer .workingSetSize),
    ("max_active_instances", .integer .maxActiveInstances),
    ("preexecution_window_size", .integer .preexecutionWindowSize),
    ("max_p2_open_per_iteration", .integer .maxP2OpenPerIteration),
    ("max_client_values_queue_size", .integer .maxClientValuesQueueSize),
    ("multicast", .multicast), ("acceptor", .acceptor)]

def entryOf (line : List Char) : Option Entry :=
  (entries.find? fun entry => startsWith entry.1 line).map Prod.snd

namespace ConfigMngr

variable (cm : ConfigMngr)

def getInt : IntField → ℤ
  | .defaultAutoflushInterval => cm.defaultAutoflushInterval
  | .socketBuffersSize => cm.socketBuffersSize
  | .quorumSize => cm.quorumSize
  | .workingSetSize => cm.workingSetSize
  | .maxActiveInstances => cm.maxActiveInstances
  | .preexecutionWindowSize => cm.preexecutionWindowSize
  | .maxP2OpenPerIteration => cm.maxP2OpenPerIteration
  | .maxClientValuesQueueSize => cm.maxClientValuesQueueSize

def setInt (value : ℤ) : IntField → ConfigMngr
  | .defaultAutoflushInterval => { cm with defaultAutoflushInterval := value }
  | .socketBuffersSize => { cm with socketBuffersSize := value }
  | .quorumSize => { cm with quorumSize := value }
  | .workingSetSize => { cm with workingSetSize := value }
  | .maxActiveInstances => { cm with maxActiveInstances := value }
  | .preexecutionWindowSize => { cm with preexecutionWindowSize := value }
  | .maxP2OpenPerIteration => { cm with maxP2OpenPerIteration := value }
  | .maxClientValuesQueueSize => { cm with maxClientValuesQueueSize := value }

def getTimeval : TimevalField → Timeval
  | .p1Interval => cm.p1Interval
  | .p2Interval => cm.p2Interval
  | .mcasterClockInterval => cm.mcasterClockInterval
  | .deliveryCheckInterval => cm.deliveryCheckInterval
  | .retransmitRequestInterval => cm.retransmitRequestInterval

def setTimeval (value : Timeval) : TimevalField → ConfigMngr
  | .p1Interval => { cm with p1Interval := value }
  | .p2Interval => { cm with p2Interval := value }
  | .mcasterClockInterval => { cm with mcasterClockInterval := value }
  | .deliveryCheckInterval => { cm with deliveryCheckInterval := value }
  | .retransmitRequestInterval => { cm with retransmitRequestInterval := value }

end ConfigMngr

/-- What follows the word that `sscanf` drops into `IGNOREBUFFER`. -/
def afterKeyword (line : List Char) : List Char :=
  match scanWord (cString line) with
  | some (_, rest) => rest
  | none => []

def parseTimeval (sys : Platform) (line : List Char) : Timeval :=
  match scanInt (afterKeyword line) with
  | none => ⟨sys.sec, sys.usec⟩
  | some (sec, rest) =>
    match scanInt rest with
    | none => ⟨sec, sys.usec⟩
    | some (usec, _) => ⟨sec, usec⟩

/-- `quorum_size` is `unsigned`, the other fields are of type `int`. -/
def storeInt (field : IntField) (n : ℤ) : ℤ :=
  if field = .quorumSize then n % 2 ^ 32 else n

/-- The value of a field after a line for it; a line without a number leaves it. -/
def parseInteger (field : IntField) (line : List Char) (old : ℤ) : ℤ :=
  match scanInt (afterKeyword line) with
  | none => old
  | some (n, _) => storeInt field n

def scanPort (s : List Char) (old : ℤ) : ℤ × List Char :=
  match scanInt s with
  | none => (old, [])
  | some (port, rest) => (port, rest)

def parseMulticast (cm : ConfigMngr) (line : List Char) : Except Failure ConfigMngr :=
  match scanWord (afterKeyword line) with
  | none => .ok cm
  | some (addr, rest) =>
    if 16 ≤ addr.length then .error .bufferOverrun
    else .ok { cm with mcastAddr := addr, mcastPort := (scanPort rest cm.mcastPort).1 }

/-- The id on an acceptor's line, written in octal; 0 when there is none. -/
def acceptorId (line : List Char) : ℕ :=
  match scanOctalByte (afterKeyword line) with
  | none => 0
  | some (id, _) => id

/-- The array has `MAX_ACCEPTORS` elements, so the largest id that is let through
lies behind it. -/
def addAcceptorInfo (cm : ConfigMngr) (accId : ℕ) (tmpIp : List Char) (portIn portLea : ℤ) :
    Except Failure ConfigMngr :=
  if accId = 0 ∨ maxAcceptors < accId then .error .parseError
  else if 15 < tmpIp.length then .error .parseError
  else if maxAcceptors ≤ accId then .error .bufferOverrun
  else .ok
    { cm with
      accInfos := fun i => if i = accId then ⟨accId, tmpIp, portIn, portLea⟩ else cm.accInfos i
      acceptorsCount := toInt32 (cm.acceptorsCount + 1) }

def parseAcceptor (sys : Platform) (cm : ConfigMngr) (line : List Char) :
    Except Failure ConfigMngr :=
  match scanOctalByte (afterKeyword line) with
  | none => addAcceptorInfo cm (acceptorId line) sys.tmpIp 0 0
  | some (_, rest) =>
    match scanWord rest with
    | none => addAcceptorInfo cm (acceptorId line) sys.tmpIp 0 0
    | some (ip, rest) =>
      if 16 ≤ ip.length then .error .bufferOverrun
      else
        let (port1, rest) := scanPort rest 0
        addAcceptorInfo cm (acceptorId line) ip port1 (scanPort rest 0).1

def parseLine (sys : Platform) (cm : ConfigMngr) (line : List Char) :
    Except Failure ConfigMngr :=
  match entryOf line with
  | none => .error .parseError
  | some .ignored => .ok cm
  | some (.timeval field) => .ok (cm.setTimeval (parseTimeval sys line) field)
  | some (.integer field) => .ok (cm.setInt (parseInteger field line (cm.getInt field)) field)
  | some .multicast => parseMulticast cm line
  | some .acceptor => parseAcceptor sys cm line

def openAndParse (sys : Platform) (cm : ConfigMngr) (text : List Char) :
    Except Failure ConfigMngr :=
  (fgetsLines 1023 text).foldlM (parseLine sys) cm

def ensure (p : Prop) [Decidable p] (failure : Failure) : Except Failure Unit :=
  if p then .ok () else .error failure

def validateAddress (sys : Platform) (a : List Char) (check : Check) : Except Failure Unit :=
  ensure (sys.inetAddr a = true) (.invalid check)

def validatePortnumber (p : ℤ) (check : Check) : Except Failure Unit :=
  ensure (1024 < p) (.invalid check)

def validateIntNonzero (i : ℤ) (check : Check) : Except Failure Unit :=
  ensure (0 < i) (.invalid check)

def nonzeroOrDefault (i default : ℤ) : ℤ := if i ≤ 0 then default else i

/-- C's `!` on an integer. -/
def logicalNot (x : ℤ) : ℤ := if x = 0 then 1 else 0

/-- `VALIDATE_INT_COMPARISON` expands to `if(! X OP Y)`, which negates `X` before it
compares: the macro lacks the parentheses. -/
def validateIntComparison (x y : ℤ) (op : ℤ → ℤ → Bool) (check : Check) : Except Failure Unit :=
  ensure (op (logicalNot x) y = false) (.invalid check)

def Timeval.total (t : Timeval) : ℤ := t.tvSec * 1000000 + t.tvUsec

def validateTimevalNonzero (t : Timeval) (check : Check) : Except Failure Unit :=
  ensure (0 < t.total) (.invalid check)

def timevalNonzeroOrDefault (t : Timeval) (sec usec : ℤ) : Timeval :=
  if t.total ≤ 0 then ⟨sec, usec⟩ else t

def validateTimevalGreaterEqualThan (t t' : Timeval) (check : Check) : Except Failure Unit :=
  ensure (¬(t.tvSec < t'.tvSec ∨ (t'.tvSec = t.tvSec ∧ t.tvUsec < t'.tvUsec))) (.invalid check)

def validateIntervals (sys : Platform) (cfg : ConfigMngr) : Except Failure ConfigMngr := do
  validateAddress sys cfg.mcastAddr .mcastAddr
  validatePortnumber cfg.mcastPort .mcastPort
  validateTimevalNonzero cfg.p1Interval .p1Interval
  validateTimevalNonzero cfg.p2Interval .p2Interval
  let clock := timevalNonzeroOrDefault cfg.mcasterClockInterval 0 100000
  validateTimevalGreaterEqualThan cfg.p2Interval clock .clockInterval
  validateTimevalGreaterEqualThan cfg.p1Interval clock .clockInterval
  let delivery := timevalNonzeroOrDefault cfg.deliveryCheckInterval 1 0
  let retransmit := timevalNonzeroOrDefault cfg.retransmitRequestInterval 1 0
  validateTimevalGreaterEqualThan retransmit delivery .retransmitInterval
  pure
    { cfg with
      mcasterClockInterval := clock
      deliveryCheckInterval := delivery
      retransmitRequestInterval := retransmit }

def validateQuorum (cfg : ConfigMngr) : Except Failure Unit := do
  validateIntNonzero cfg.quorumSize .quorumSize
  validateIntComparison cfg.acceptorsCount (toInt32 cfg.quorumSize) (· ≥ ·) .acceptorsCount

def withDefaults (cfg : ConfigMngr) : ConfigMngr :=
  { cfg with
    defaultAutoflushInterval := nonzeroOrDefault cfg.defaultAutoflushInterval 50
    workingSetSize := nonzeroOrDefault cfg.workingSetSize 100
    maxActiveInstances := nonzeroOrDefault cfg.maxActiveInstances 25
    preexecutionWindowSize := nonzeroOrDefault cfg.preexecutionWindowSize 50
    maxP2OpenPerIteration := nonzeroOrDefault cfg.maxP2OpenPerIteration 10
    maxClientValuesQueueSize := nonzeroOrDefault cfg.maxClientValuesQueueSize 100 }

/-- `validate_socket_buffer_size`, for a size that is set. -/
def validateSocketBufferSize (sys : Platform) (cfg : ConfigMngr) : Except Failure Unit :=
  ensure (cfg.socketBuffersSize ≤ 0 ∨
    (0 ≤ sys.maxRbufSize ∧ cfg.socketBuffersSize ≤ sys.maxRbufSize ∧
      0 ≤ sys.maxWbufSize ∧ cfg.socketBuffersSize ≤ sys.maxWbufSize)) (.invalid .socketBuffers)

def validateWorkingSet (cfg : ConfigMngr) : Except Failure Unit := do
  validateIntComparison cfg.workingSetSize cfg.maxActiveInstances (· > ·) .maxActiveInstances
  ensure (toInt32 (cfg.preexecutionWindowSize + cfg.maxActiveInstances) < cfg.workingSetSize)
    (.invalid .workingSetSize)

def validateAcceptorInfos (sys : Platform) (cfg : ConfigMngr) :
    List ℕ → ℤ → Except Failure ℤ
  | [], count => .ok count
  | i :: slots, count =>
    let ai := cfg.accInfos i
    if ai.id = 0 then validateAcceptorInfos sys cfg slots count
    else do
      ensure (i = ai.id) .assertion
      validateAddress sys ai.ipAddr .acceptorAddr
      validatePortnumber ai.learnersPort .acceptorPort
      validatePortnumber ai.inboundPort .acceptorPort
      validateAcceptorInfos sys cfg slots (count + 1)

def validateConfig (sys : Platform) (cfg : ConfigMngr) : Except Failure ConfigMngr := do
  let cfg ← validateIntervals sys cfg
  validateQuorum cfg
  let cfg := withDefaults cfg
  validateSocketBufferSize sys cfg
  validateWorkingSet cfg
  let count ← validateAcceptorInfos sys cfg (List.range' 1 (maxAcceptors - 1)) 0
  validateIntComparison cfg.acceptorsCount count (· == ·) .sameId
  pure cfg

/-- Result 0 of `config_mngr_init` is `ok`, with the configuration it stores. -/
def configMngrInit (sys : Platform) (acceptorId : ℕ) (text : List Char) :
    Except Failure ConfigMngr := do
  let cm ← openAndParse sys (emptyConfig acceptorId) text
  validateConfig sys { cm with initialized := true }

/-- Reading `acc_infos` at `MAX_ACCEPTORS`, which the assertion lets through, is behind the
array. -/
def lpconfigGetAcceptorInfo (cfg : ConfigMngr) (acceptor : ℕ) : Except Failure AcceptorInfo := do
  ensure (acceptor ≤ maxAcceptors) .assertion
  ensure (cfg.initialized = true) .assertion
  ensure (acceptor < maxAcceptors) .bufferOverrun
  ensure ((cfg.accInfos acceptor).id ≤ maxAcceptors) .assertion
  pure (cfg.accInfos acceptor)

def lpconfigGetIpAddrOf (cfg : ConfigMngr) (acceptor : ℕ) : Except Failure (List Char) :=
  (lpconfigGetAcceptorInfo cfg acceptor).map AcceptorInfo.ipAddr

def lpconfigGetLearnersPortOf (cfg : ConfigMngr) (acceptor : ℕ) : Except Failure ℤ :=
  (lpconfigGetAcceptorInfo cfg acceptor).map AcceptorInfo.learnersPort

def lpconfigGetRingPortOf (cfg : ConfigMngr) (acceptor : ℕ) : Except Failure ℤ :=
  (lpconfigGetAcceptorInfo cfg acceptor).map AcceptorInfo.inboundPort

/-- `lptopo_get_successor_id` of a process with the given id; `none` is the failed assertion. -/
def lptopoGetSuccessorId (selfAcceptorId : ℕ) (acceptorsCount : ℤ) : Option ℕ :=
  let successor := (selfAcceptorId + 1) % 256
  if acceptorsCount < successor then
    if (successor : ℤ) = acceptorsCount + 1 then some 1 else none
  else some successor

/-- The acceptor reached from acceptor 1 in so many steps around the ring. -/
def follow (cm : ConfigMngr) : ℕ → Option ℕ
  | 0 => some 1
  | k + 1 => (follow cm k).bind fun id => lptopoGetSuccessorId id cm.acceptorsCount

end FdsPaxos.RingConfigParser
