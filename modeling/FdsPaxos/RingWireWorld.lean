import FdsPaxos.RingLink
import FdsPaxos.RingWorld

set_option autoImplicit false

/-!
The ring with its datagrams.  The processes hand bytes to their senders and read bytes out of
their receive buffers; a datagram that was sent may be lost, and may come any number of times,
at any later time.
-/

namespace FdsPaxos.RingWireWorld
open StructLayout ByteMemory TransitionRuns RingConfig RingMessages RingStableStorage RingAcceptor
open RingMcasterStorage RingMulticaster RingDeliveryQueue RingWorld RingPackets RingCommandSize
open RingWire RingLink

def ofRing : RingMsg → WireMsg
  | .phase1 msg => .phase1 msg
  | .phase1Range msg => .phase1Range msg
  | .phase2 msg => .phase2 msg

def ofMcast : McastMsg → WireMsg
  | .commandMap msg => .commandMap msg
  | .acceptance msg => .acceptance msg
  | .phase2 msg => .phase2 msg

def ofRequest : Request → WireMsg
  | .mapRequest instNumbers => .mapRequest instNumbers
  | .chosenvalRequest instNumbers => .chosenvalRequest instNumbers

/-- The senders: the multicaster has two, any other process one. -/
inductive SenderId where
  | mcasterSucc
  | mcast
  | acceptor (a : ℕ)
  | learner (l : ℕ)
  | client (c : ℕ)
deriving DecidableEq

structure WireState where
  ring : RingState
  senders : SenderId → UdpSender

def wireInit (late : ℕ → Bool) : WireState where
  ring := ringInit late
  senders := fun _ => udpSenderInit

/-- The size of a message did not fit its type, a sender failed, or an instance number does not
fit into its 64 bits. -/
inductive WireFault where
  | size
  | link (cause : LinkFault)
  | iidRange
deriving DecidableEq

section Callbacks

variable (cfg : Config)

/-- `on_predecessor_msg` of the multicaster, which gets the requests of learners too. -/
def mcasterTakes (_ : Mcaster) : LpMsgType → Bool
  | .phase1 | .phase1Range | .phase2 | .mapRequest | .chosenvalRequest => true
  | .commandMap | .acceptance | .clientSubmit => false

def mcasterHandle (s : Mcaster) : WireMsg → McasterOutcome
  | .phase1 msg => mcasterHandlePhase1Msg cfg s msg
  | .phase1Range msg => mcasterHandlePhase1RangeMsg cfg s msg
  | .phase2 msg => mcasterHandlePhase2Msg cfg s msg
  | .mapRequest instNumbers => mcasterHandleRequest cfg s (.mapRequest instNumbers)
  | .chosenvalRequest instNumbers => mcasterHandleRequest cfg s (.chosenvalRequest instNumbers)
  | .commandMap _ | .acceptance _ | .clientSubmit _ => .running s

/-- `client_values_mngr_handle_data` -/
def clientTakes (_ : Mcaster) : LpMsgType → Bool
  | .clientSubmit => true
  | .phase1 | .phase1Range | .phase2 | .commandMap | .acceptance | .mapRequest
  | .chosenvalRequest => false

def clientHandle (s : Mcaster) : WireMsg → McasterOutcome
  | .clientSubmit value => .running (mcasterHandleValueSubmit s value)
  | .phase1 _ | .phase1Range _ | .phase2 _ | .commandMap _ | .acceptance _ | .mapRequest _
  | .chosenvalRequest _ => .running s

/-- An acceptor, and what its handlers find on the stack at their next calls. -/
abbrev WithStacks := RingAcceptor × (ℕ → ℕ → Phase1Stack)

def acceptorTakes (_ : WithStacks) : LpMsgType → Bool
  | .phase1 | .phase1Range | .phase2 => true
  | .commandMap | .acceptance | .mapRequest | .chosenvalRequest | .clientSubmit => false

/-- `on_predecessor_msg` of an acceptor that is not the multicaster. -/
def acceptorOn (s : RingAcceptor) (stack : ℕ → Phase1Stack) : WireMsg → AcceptorOutcome
  | .phase1 msg => acceptorHandlePhase1Msg cfg s msg (stack msg.instNumber)
  | .phase1Range msg => acceptorHandlePhase1RangeMsg cfg s msg stack
  | .phase2 msg => acceptorHandlePhase2Msg cfg s msg
  | .commandMap _ | .acceptance _ | .mapRequest _ | .chosenvalRequest _ | .clientSubmit _ =>
    .running s

def acceptorHandle (p : WithStacks) (m : WireMsg) : Outcome AcceptorFault WithStacks :=
  (acceptorOn cfg p.1 (p.2 0) m).map fun s => (s, fun k => p.2 (k + 1))

/-- `on_multicast_msg`: only the first acceptor of the ring takes phase 2. -/
def mcastTakes (s : RingAcceptor) : LpMsgType → Bool
  | .commandMap | .acceptance => true
  | .phase2 => s.acceptorId = 2
  | .phase1 | .phase1Range | .mapRequest | .chosenvalRequest | .clientSubmit => false

def mcastHandle (s : RingAcceptor) : WireMsg → AcceptorOutcome
  | .commandMap msg => acceptorHandleCmdmapMsg cfg s msg
  | .phase2 msg => acceptorHandlePhase2Msg cfg s msg
  | .acceptance _ | .phase1 _ | .phase1Range _ | .mapRequest _ | .chosenvalRequest _
  | .clientSubmit _ => .running s

/-- `on_mcast_msg` of a learner. -/
def learnerTakes (_ : Learner) : LpMsgType → Bool
  | .commandMap | .acceptance => true
  | .phase1 | .phase1Range | .phase2 | .mapRequest | .chosenvalRequest | .clientSubmit => false

def learnerHandle (q : Learner) : WireMsg → LearnerOutcome
  | .commandMap msg => deliveryQueueHandleCommandMap cfg.workingSetSize q msg
  | .acceptance msg => deliveryQueueHandleAcceptance cfg.workingSetSize q msg
  | .phase1 _ | .phase1Range _ | .phase2 _ | .mapRequest _ | .chosenvalRequest _
  | .clientSubmit _ => .running q

end Callbacks

def hearDatagram {α σ : Type*} (takes : σ → LpMsgType → Bool) (handle : σ → WireMsg → Outcome α σ)
    (buf : Memory) (datagram : List UInt8) : Outcome α σ → Outcome WireFault (Outcome α σ)
  | .aborted a s => .running (.aborted a s)
  | .running s =>
    match receiveDatagram takes handle buf s datagram with
    | .running t => .running (.running t)
    | .aborted (.handler a) t => .running (.aborted a t)
    | .aborted .size t => .aborted .size (.running t)

/-- What happens.  A datagram comes with the contents of the buffer that it is received into. -/
inductive WireAction where
  | submit (c : ℕ) (value : Value)
  | clientDatagram (c : ℕ) (datagram : List UInt8) (buf : Memory)
  | periodicCheck (clock : ℕ → Timeval)
  | mcasterDatagram (id : SenderId) (datagram : List UInt8) (buf : Memory) (clock : Timeval)
  | restart
  | acceptorDatagram (a : ℕ) (datagram : List UInt8) (buf : Memory)
      (frames : ℕ → ℕ → Phase1Stack)
  | acceptorMcast (a : ℕ) (datagram : List UInt8) (buf : Memory)
  | learnerMcast (l : ℕ) (datagram : List UInt8) (buf : Memory)
  | gapCheck (l : ℕ) (timeNow : Timeval)
  | flush (id : SenderId)

/-- An action, and the memory in which the messages of each sender are built during it. -/
structure WireEvent where
  action : WireAction
  memory : SenderId → ℕ → Memory

/-- `submit_command` -/
def handedOver : WireAction → Option Value
  | .submit _ value =>
    if maxMessageSize - largestPaxosHeader < sizeof submitCmdMsgFields + value.length then none
    else some value
  | _ => none

section Step

variable (cfg : Config)

/-- The sender that acceptor `a` hears along the ring. -/
def ringSource (a : ℕ) : SenderId :=
  if cfg.predecessor a = 1 then .mcasterSucc else .acceptor (cfg.predecessor a)

def ToMcaster (id : SenderId) : Prop :=
  id = ringSource cfg 1 ∨
    match id with
    | .learner _ => True
    | .mcasterSucc | .mcast | .acceptor _ | .client _ => False

instance (id : SenderId) : Decidable (ToMcaster cfg id) := by
  unfold ToMcaster
  cases id <;> infer_instance

def Arrives (W : WireState) : WireAction → Prop
  | .clientDatagram c datagram _ => datagram ∈ (W.senders (.client c)).sent
  | .mcasterDatagram id datagram _ _ => ToMcaster cfg id ∧ datagram ∈ (W.senders id).sent
  | .acceptorDatagram a datagram _ _ =>
    cfg.InRing a ∧ datagram ∈ (W.senders (ringSource cfg a)).sent
  | .acceptorMcast a datagram _ => cfg.InRing a ∧ datagram ∈ (W.senders .mcast).sent
  | .learnerMcast _ datagram _ => datagram ∈ (W.senders .mcast).sent
  | .submit _ _ | .periodicCheck _ | .restart | .gapCheck _ _ | .flush _ => True

instance (W : WireState) (action : WireAction) : Decidable (Arrives cfg W action) :=
  match action with
  | .clientDatagram _ _ _ => inferInstanceAs (Decidable (_ ∈ _))
  | .mcasterDatagram _ _ _ _ => inferInstanceAs (Decidable (_ ∧ _))
  | .acceptorDatagram _ _ _ _ => inferInstanceAs (Decidable (_ ∧ _))
  | .acceptorMcast _ _ _ => inferInstanceAs (Decidable (_ ∧ _))
  | .learnerMcast _ _ _ => inferInstanceAs (Decidable (_ ∈ _))
  | .submit _ _ | .periodicCheck _ | .restart | .gapCheck _ _ | .flush _ => isTrue trivial

def withMcaster (w : RingState) (o : McasterOutcome) : RingState := { w with mcaster := o }

def withAcceptor (w : RingState) (a : ℕ) (o : AcceptorOutcome) : RingState :=
  { w with acceptors := Function.update w.acceptors a o }

def withLearner (w : RingState) (l : ℕ) (o : LearnerOutcome) : RingState :=
  { w with learners := Function.update w.learners l o }

/-- The processes after an action.  The multicaster reads the clock before a datagram; a learner
delivers what it can behind one. -/
def ringAfter (w : RingState) : WireAction → Outcome WireFault RingState
  | .submit _ _ | .flush _ => .running w
  | .clientDatagram _ datagram buf =>
    (hearDatagram clientTakes clientHandle buf datagram w.mcaster).map (withMcaster w)
  | .periodicCheck clock =>
    .running (withMcaster w (w.mcaster.bind (onMcasterPeriodicCheck cfg clock)))
  | .mcasterDatagram _ datagram buf clock =>
    (hearDatagram mcasterTakes (mcasterHandle cfg) buf datagram
      (w.mcaster.bind fun s => .running (mcasterUpdateWallclock s clock))).map (withMcaster w)
  | .restart => .running (withMcaster w (.running (multicasterRestart w.mcaster.state)))
  | .acceptorDatagram a datagram buf frames =>
    (hearDatagram acceptorTakes (acceptorHandle cfg) buf datagram
      ((w.acceptors a).map fun s => (s, frames))).map fun o => withAcceptor w a (o.map Prod.fst)
  | .acceptorMcast a datagram buf =>
    (hearDatagram mcastTakes (mcastHandle cfg) buf datagram (w.acceptors a)).map (withAcceptor w a)
  | .learnerMcast l datagram buf =>
    (hearDatagram learnerTakes (learnerHandle cfg) buf datagram (w.learners l)).map fun o =>
      withLearner w l (o.bind (dqDeliverLoop cfg.workingSetSize))
  | .gapCheck l timeNow =>
    .running (withLearner w l
      ((w.learners l).bind (dqPeriodicCheck cfg.workingSetSize timeNow)))

def sentOn (w : RingState) : SenderId → List WireMsg
  | .mcasterSucc => w.mcaster.state.toSuccessor.map ofRing
  | .mcast => w.mcaster.state.mcast.map ofMcast
  | .acceptor a => (w.acceptors a).state.toSuccessor.map ofRing
  | .learner l => (w.learners l).state.requests.map ofRequest
  | .client _ => []

def outgoing (before after : RingState) (action : WireAction) : SenderId → List WireMsg
  | .client _ => (handedOver action).toList.map .clientSubmit
  | id =>
    ((sentOn after id).take ((sentOn after id).length - (sentOn before id).length)).reverse

def sendersOf : WireAction → List SenderId
  | .submit c _ => [.client c]
  | .clientDatagram _ _ _ | .periodicCheck _ | .mcasterDatagram _ _ _ _ | .restart =>
    [.mcasterSucc, .mcast]
  | .acceptorDatagram a _ _ _ | .acceptorMcast a _ _ => [.acceptor a]
  | .learnerMcast l _ _ | .gapCheck l _ => [.learner l]
  | .flush _ => []

def instNumbers : WireMsg → List ℕ
  | .phase1 msg => [msg.instNumber]
  | .phase1Range msg => [msg.fromIid, msg.toIid]
  | .phase2 msg => [msg.instNumber]
  | .commandMap msg => [msg.instNumber]
  | .acceptance msg => [msg.instNumber]
  | .mapRequest instNumbers | .chosenvalRequest instNumbers => instNumbers
  | .clientSubmit _ => []

def transmitAll (us : UdpSender) : List WireMsg → (ℕ → Memory) → Outcome WireFault UdpSender
  | [], _ => .running us
  | m :: ms, memory =>
    .check (∀ i ∈ instNumbers m, i < 2 ^ 64) .iidRange us
      ((mapCause .link (transmit (memory 0) us m)).bind fun us =>
        transmitAll us ms fun k => memory (k + 1))

def WireState.withSender (W : WireState) (id : SenderId) (us : UdpSender) : WireState :=
  { W with senders := Function.update W.senders id us }

def sendOn (before : RingState) (e : WireEvent) (W : WireState) (id : SenderId) :
    Outcome WireFault WireState :=
  (transmitAll (W.senders id) (outgoing before W.ring e.action id) (e.memory id)).map
    (W.withSender id)

def Alive (w : RingState) : SenderId → Prop
  | .mcasterSucc | .mcast => w.mcaster.IsRunning
  | .acceptor a => (w.acceptors a).IsRunning
  | .learner l => (w.learners l).IsRunning
  | .client _ => True

instance (w : RingState) (id : SenderId) : Decidable (Alive w id) :=
  match id with
  | .mcasterSucc | .mcast => inferInstanceAs (Decidable w.mcaster.IsRunning)
  | .acceptor a => inferInstanceAs (Decidable (w.acceptors a).IsRunning)
  | .learner l => inferInstanceAs (Decidable (w.learners l).IsRunning)
  | .client _ => isTrue trivial

/-- The flushes at the end of the periodic checks, and those of the timers. -/
def flushesOf : WireAction → List SenderId
  | .periodicCheck _ => [.mcast, .mcasterSucc]
  | .gapCheck l _ => [.learner l]
  | .flush id => [id]
  | .submit _ _ | .clientDatagram _ _ _ | .mcasterDatagram _ _ _ _ | .restart
  | .acceptorDatagram _ _ _ _ | .acceptorMcast _ _ _ | .learnerMcast _ _ _ => []

def flushOn (W : WireState) (id : SenderId) : Outcome WireFault WireState :=
  if Alive W.ring id then
    (mapCause .link (RingLink.flush (W.senders id))).map (W.withSender id)
  else .running W

def sendersAfter (W : WireState) : WireAction → SenderId → UdpSender
  | .restart => fun id =>
    if id = .mcasterSucc ∨ id = .mcast then { udpSenderInit with sent := (W.senders id).sent }
    else W.senders id
  | _ => W.senders

/-- A datagram that does not arrive changes nothing. -/
def wireStep (W : WireState) (e : WireEvent) : Outcome WireFault WireState :=
  if Arrives cfg W e.action then
    (ringAfter cfg W.ring e.action).andThen (fun w => { W with ring := w }) fun w =>
      (Outcome.fold (sendOn W.ring e) { ring := w, senders := sendersAfter W e.action }
        (sendersOf e.action)).bind fun W => Outcome.fold flushOn W (flushesOf e.action)
  else .running W

end Step

/-- The commands that clients handed to their proxies and that these took. -/
def commandsHandedOver (events : List WireEvent) : List Value :=
  events.filterMap fun e => handedOver e.action

end FdsPaxos.RingWireWorld
