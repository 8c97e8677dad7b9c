import FdsPaxos.Paxos2Link

set_option autoImplicit false

/-!
The processes of `paxos2` with their datagrams.  What the handlers send is written into the send
buffers, and what is received is read out of receive buffers; a datagram that was sent may be
lost, and may come any number of times, at any later time.
-/

namespace FdsPaxos.Paxos2WireWorld
open ByteMemory TransitionRuns Paxos2Config Paxos2Messages Paxos2SendBuffer Paxos2Learner
open Paxos2Leader Paxos2Proposer Paxos2AckWorld Paxos2World Paxos2CrashAgreement Paxos2Link
open Paxos2BatchCodec (UdpSendBuffer)

/-- The send buffers of the processes: a proposer has one as leader and one as learner, and an
acceptor has one for each network that it answers on. -/
inductive SenderId where
  | proposer (p : ℕ)
  | proposerLearner (p : ℕ)
  | toProposers (a : ℕ)
  | toLearners (a : ℕ)
  | learner (l : ℕ)
  | client (c : ℕ)
  | oracle
deriving DecidableEq

/-- The multicast groups of `paxos_config.h`. -/
inductive Net where
  | acceptors
  | proposers
  | learners
  | submit
  | oracle
deriving DecidableEq

def netOf : SenderId → Net
  | .proposer _ | .proposerLearner _ | .learner _ => .acceptors
  | .toProposers _ => .proposers
  | .toLearners _ => .learners
  | .client _ => .submit
  | .oracle => .oracle

structure WireState where
  world : World
  senders : SenderId → UdpSendBuffer

/-- A datagram of a sender, and the contents of the buffer that it is received into. -/
structure Arrival where
  source : SenderId
  datagram : List UInt8
  buf : Memory

/-- What happens: clients and the oracle send, processes receive, and timers expire. -/
inductive WireAction where
  | submit (c : ℕ) (value : Value)
  | announce (currentLeader : ℕ)
  | submitSharedmem (p : ℕ) (value : Value)
  | leaderDatagram (p : ℕ) (arrival : Arrival)
  | oracleDatagram (p : ℕ) (arrival : Arrival) (clock : ℕ → Timeval) (timeNow : Timeval)
  | proposerDatagram (p : ℕ) (arrival : Arrival) (clock : ℕ → Timeval)
  | proposerLearns (p : ℕ) (arrival : Arrival) (clock : ℕ → Timeval)
  | p1Check (p : ℕ) (clock : ℕ → Timeval) (timeNow : Timeval)
  | p2Check (p : ℕ) (clock : ℕ → Timeval) (timeNow : Timeval)
  | proposerHoleCheck (p : ℕ)
  | acceptorDatagram (a : ℕ) (arrival : Arrival)
  | acceptorCrash (a : ℕ) (arrival : Arrival) (n : ℕ)
  | repeatLatest (a : ℕ)
  | learnerDatagram (l : ℕ) (arrival : Arrival)
  | holeCheck (l : ℕ)

/-- An action, and the padding of the records in the messages that each sender sends. -/
structure WireEvent where
  action : WireAction
  padding : SenderId → ℕ → ℕ → UInt16

/-- `pax_submit_nonblock` and `pax_submit_sharedmem`. -/
def handedOver : WireAction → Option Value
  | .submit _ value | .submitSharedmem _ value => some value
  | _ => none

def valuesHandedOver (events : List WireEvent) : List Value :=
  events.filterMap fun e => handedOver e.action

variable (cfg : Config)

def Arrives (W : WireState) (net : Net) (arrival : Arrival) : Prop :=
  netOf arrival.source = net ∧ arrival.datagram ∈ (W.senders arrival.source).sent

instance (W : WireState) (net : Net) (arrival : Arrival) : Decidable (Arrives W net arrival) :=
  inferInstanceAs (Decidable (_ ∧ _))

/-- The process is there, and its datagram was sent in its group.  The oracle names proposers
only. -/
def Happens (W : WireState) : WireAction → Prop
  | .submit _ _ => True
  | .announce currentLeader => currentLeader < cfg.maxNOfProposers
  | .submitSharedmem p _ => p < cfg.maxNOfProposers
  | .leaderDatagram p arrival => p < cfg.maxNOfProposers ∧ Arrives W .submit arrival
  | .oracleDatagram p arrival _ _ => p < cfg.maxNOfProposers ∧ Arrives W .oracle arrival
  | .proposerDatagram p arrival _ => p < cfg.maxNOfProposers ∧ Arrives W .proposers arrival
  | .proposerLearns p arrival _ => p < cfg.maxNOfProposers ∧ Arrives W .learners arrival
  | .p1Check p _ _ | .p2Check p _ _ | .proposerHoleCheck p => p < cfg.maxNOfProposers
  | .acceptorDatagram a arrival | .acceptorCrash a arrival _ =>
    a < cfg.nOfAcceptors ∧ Arrives W .acceptors arrival
  | .repeatLatest a => a < cfg.nOfAcceptors
  | .learnerDatagram _ arrival => Arrives W .learners arrival
  | .holeCheck _ => True

instance (W : WireState) (action : WireAction) : Decidable (Happens cfg W action) :=
  match action with
  | .submit _ _ | .holeCheck _ => isTrue trivial
  | .announce _ | .submitSharedmem _ _ | .p1Check _ _ _ | .p2Check _ _ _ | .proposerHoleCheck _
  | .repeatLatest _ => inferInstanceAs (Decidable (_ < _))
  | .leaderDatagram _ _ | .oracleDatagram _ _ _ _ | .proposerDatagram _ _ _
  | .proposerLearns _ _ _ | .acceptorDatagram _ _ | .acceptorCrash _ _ _ =>
    inferInstanceAs (Decidable (_ ∧ _))
  | .learnerDatagram _ arrival => inferInstanceAs (Decidable (Arrives W .learners arrival))

def Arrival.message (arrival : Arrival) : Option PaxosMsg :=
  receive arrival.buf arrival.datagram

/-- What the callbacks of the processes are called for: each takes the messages of its own type.
Values of clients are received between `vh_init` and `vh_shutdown`, that is by a leader. -/
def eventOf (w : World) : WireAction → Option CrashEvent
  | .submit _ _ | .announce _ => none
  | .submitSharedmem p value => some (.world (.proposer p (.submit value)))
  | .leaderDatagram p arrival =>
    if (w.proposers p).state.LeaderIsMe then
      match arrival.message with
      | some (.submit value) => some (.world (.proposer p (.submit value)))
      | _ => none
    else none
  | .oracleDatagram p arrival clock timeNow =>
    match arrival.message with
    | some (.leaderAnnounce currentLeader) =>
      some (.world (.proposer p (.leaderAnnounce currentLeader clock timeNow)))
    | _ => none
  | .proposerDatagram p arrival clock =>
    match arrival.message with
    | some (.prepareAcks acceptorId acks) =>
      some (.world (.proposer p (.prepareAcks acceptorId acks clock)))
    | _ => none
  | .proposerLearns p arrival clock =>
    match arrival.message with
    | some (.acceptAcks acceptorId acks) =>
      some (.world (.proposer p (.acceptAcks acceptorId acks clock)))
    | _ => none
  | .p1Check p clock timeNow => some (.world (.proposer p (.p1Check clock timeNow)))
  | .p2Check p clock timeNow => some (.world (.proposer p (.p2Check clock timeNow)))
  | .proposerHoleCheck p => some (.world (.proposer p .holeCheck))
  | .acceptorDatagram a arrival => arrival.message.map fun msg => .world (.acks (.request a msg))
  | .acceptorCrash a arrival n => arrival.message.map fun msg => .crash a msg n
  | .repeatLatest a => some (.world (.acks (.repeatLatest a)))
  | .learnerDatagram l arrival =>
    match arrival.message with
    | some (.acceptAcks acceptorId acks) => some (.world (.acks (.acceptAcks l acceptorId acks)))
    | _ => none
  | .holeCheck l => some (.world (.acks (.holeCheck l)))

/-- The handlers, which take what they are given without a look at who sent it. -/
def handleEvent (w : World) : CrashEvent → World
  | .world (.proposer p e) =>
    { w with proposers := Function.update w.proposers p (proposerStep cfg (w.proposers p) e) }
  | .world (.acks (.acceptAcks l a acks)) =>
    { w with
      acks :=
        { w.acks with
          learners := Function.update w.acks.learners l
            (run (learnerStep cfg) (w.acks.learners l) (toMessages a acks)) } }
  | .world (.acks e) => { w with acks := ackStep cfg w.acks e }
  | .crash a msg n => withAcceptor w a (recovered cfg msg n (w.acks.acceptors a))

def worldAfter (w : World) (action : WireAction) : World :=
  match eventOf w action with
  | some e => handleEvent cfg w e
  | none => w

def newly {ι : Type} (before after : SendBuf ι) : List (List ι) :=
  after.sent.drop before.sent.length

/-- What the handlers sent during an action, with the requests of phase 1 in front; `outside`
comes from a client or from the oracle. -/
def outgoing (before after : World) (outside : List PaxosMsg) : SenderId → List PaxosMsg
  | .proposer p =>
    let s := (before.proposers p).state.leader
    let t := (after.proposers p).state.leader
    (newly s.prepareBuf t.prepareBuf).map (.prepareReqs t.thisProposerId) ++
      (newly s.acceptBuf t.acceptBuf).map (.acceptReqs t.thisProposerId)
  | .proposerLearner p =>
    (newly (before.proposers p).state.learner.toAcceptors
      (after.proposers p).state.learner.toAcceptors).map .repeatReqs
  | .toProposers a =>
    let t := (after.acks.acceptors a).state
    (newly (before.acks.acceptors a).state.toProposers t.toProposers).map
      (.prepareAcks t.thisAcceptorId)
  | .toLearners a =>
    let t := (after.acks.acceptors a).state
    (newly (before.acks.acceptors a).state.toLearners t.toLearners).map
      (.acceptAcks t.thisAcceptorId)
  | .learner l =>
    (newly (before.acks.learners l).state.1.toAcceptors
      (after.acks.learners l).state.1.toAcceptors).map .repeatReqs
  | .client _ | .oracle => outside

def sendersOf : WireAction → List SenderId
  | .submit c _ => [.client c]
  | .announce _ => [.oracle]
  | .submitSharedmem p _ | .leaderDatagram p _ | .oracleDatagram p _ _ _ | .proposerDatagram p _ _
  | .proposerLearns p _ _ | .p1Check p _ _ | .p2Check p _ _ | .proposerHoleCheck p =>
    [.proposer p, .proposerLearner p]
  | .acceptorDatagram a _ | .acceptorCrash a _ _ | .repeatLatest a =>
    [.toProposers a, .toLearners a]
  | .learnerDatagram l _ | .holeCheck l => [.learner l]

def fromOutside : WireAction → List PaxosMsg
  | .submit _ value => [.submit value]
  | .announce currentLeader => [.leaderAnnounce currentLeader]
  | _ => []

def transmitAll (sb : UdpSendBuffer) :
    List PaxosMsg → (ℕ → ℕ → UInt16) → Outcome LinkFault UdpSendBuffer
  | [], _ => .running sb
  | m :: ms, padding =>
    (transmit (padding 0) sb m).bind fun sb => transmitAll sb ms fun k => padding (k + 1)

def WireState.withSender (W : WireState) (id : SenderId) (sb : UdpSendBuffer) : WireState :=
  { W with senders := Function.update W.senders id sb }

def sendOn (before : World) (outside : List PaxosMsg) (padding : SenderId → ℕ → ℕ → UInt16)
    (W : WireState) (id : SenderId) : Outcome LinkFault WireState :=
  (transmitAll (W.senders id) (outgoing before W.world outside id) (padding id)).map
    (W.withSender id)

def restarted (W : WireState) : WireAction → WireState
  | .acceptorCrash a _ _ =>
    { W with
      senders := fun id =>
        if id = .toProposers a ∨ id = .toLearners a then
          { udpSendbufNew with sent := (W.senders id).sent }
        else W.senders id }
  | _ => W

/-- What cannot happen changes nothing. -/
def wireStep (W : WireState) (e : WireEvent) : Outcome LinkFault WireState :=
  if Happens cfg W e.action then
    (Outcome.fold (sendOn W.world (fromOutside e.action) e.padding)
      { W with world := worldAfter cfg W.world e.action } (sendersOf e.action)).map
        fun W => restarted W e.action
  else .running W

def idleWorld : World where
  proposers := fun p =>
    .running { currentLeaderId := 0, leader := initProStructs p, learner := learnerInit }
  acks := ackWorldInit

/-- Proposer 0 sends its first requests when it is started. -/
def wireInit (clock : ℕ → Timeval) (timeNow : Timeval) (padding : SenderId → ℕ → ℕ → UInt16) :
    Outcome LinkFault WireState :=
  sendOn idleWorld [] padding
    { world := worldInit cfg clock timeNow, senders := fun _ => udpSendbufNew } (.proposer 0)

def wireRun (clock : ℕ → Timeval) (timeNow : Timeval) (padding : SenderId → ℕ → ℕ → UInt16)
    (events : List WireEvent) : Outcome LinkFault WireState :=
  (wireInit cfg clock timeNow padding).bind fun W => Outcome.fold (wireStep cfg) W events

end FdsPaxos.Paxos2WireWorld
