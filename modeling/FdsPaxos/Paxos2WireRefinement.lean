import FdsPaxos.Paxos2LogRefinement
import FdsPaxos.Paxos2WireWorld

set_option autoImplicit false

namespace FdsPaxos.Paxos2WireRefinement
open ByteMemory TransitionRuns Paxos2Config Paxos2Messages Paxos2SendBuffer Paxos2Learner
open Paxos2Leader Paxos2Proposer Paxos2AckWorld Paxos2World Paxos2CrashAgreement Paxos2Link
open Paxos2BufferEdits Paxos2ValueOrigin Paxos2LogRefinement Paxos2WireWorld
open Paxos2BatchCodec (UdpSendBuffer)
open Paxos2Wire (maxUdpMsgSize)

variable {cfg : Config} {clock : ℕ → Timeval} {timeNow : Timeval} {H : List Value}
  {R : World → CrashEvent → Prop} {w w' : World} {W : WireState} {id : SenderId} {m : PaxosMsg}

/-- The build has the numbers of processes and the message size that the messages are made
for. -/
structure WireSizes (cfg : Config) : Prop where
  acceptors : cfg.nOfAcceptors = Config.default.nOfAcceptors
  proposers : cfg.maxNOfProposers = Config.default.maxNOfProposers
  message : cfg.maxUdpMsgSize = Config.default.maxUdpMsgSize

/-- One state comes from another with messages as they are, where clients submit values in `H`
only and every event meets `R`. -/
def Follows (cfg : Config) (H : List Value) (R : World → CrashEvent → Prop) (w w' : World) :
    Prop :=
  ∃ events, run (crashStep cfg) w events = w' ∧ (∀ v ∈ submitted events, v ∈ H) ∧
    Along (crashStep cfg) R w events

theorem Follows.refl (w : World) : Follows cfg H R w w :=
  ⟨[], rfl, fun _ none => absurd none List.not_mem_nil, trivial⟩

theorem Follows.step (h : Follows cfg H R w w') {e : CrashEvent}
    (submits : ∀ v, submittedBy e = some v → v ∈ H) (met : R w' e) :
    Follows cfg H R w (crashStep cfg w' e) := by
  obtain ⟨events, rfl, known, along⟩ := h
  refine ⟨events ++ [e], by rw [run_append]; rfl, fun v hv => ?_, ?_⟩
  · rw [submitted, List.filterMap_append] at hv
    rcases List.mem_append.mp hv with old | new
    · exact known v old
    · obtain ⟨e', here, brought⟩ := List.mem_filterMap.mp new
      rw [List.mem_singleton.mp here] at brought
      exact submits v brought
  · exact (along_append _ _).mpr ⟨along, met, trivial⟩

theorem Follows.continues (h : Follows cfg H R w w') : WorldContinues cfg w w' := by
  obtain ⟨events, rfl, -⟩ := h
  exact run_invariant (WorldContinues cfg w) (.refl w) fun _ e continues =>
    continues.trans (crashStep_continues cfg _ e)

theorem Follows.along_values (h : Follows cfg H R w w') :
    ∃ events, run (crashStep cfg) w events = w' ∧ Along (crashStep cfg)
      (fun w e => (∀ v, submittedBy e = some v → v ∈ H) ∧ R w e) w events := by
  obtain ⟨events, ran, known, along⟩ := h
  have brought : Along (crashStep cfg) (fun _ e => ∀ v, submittedBy e = some v → v ∈ H) w events :=
    along_of_mem fun e he _ v brought => known v (List.mem_filterMap.mpr ⟨e, he, brought⟩)
  exact ⟨events, ran, brought.and along⟩

theorem Follows.values (h : Follows cfg H R (worldInit cfg clock timeNow) w) :
    WorldFrom cfg (· ∈ H) w := by
  obtain ⟨events, rfl, along⟩ := h.along_values
  exact along.invariant (WorldFrom cfg (· ∈ H)) (worldFrom_init cfg _ clock timeNow)
    fun _ e good met => worldFrom_step good e met.1

theorem Follows.log (h : Follows cfg H (CrashStepSound cfg) (worldInit cfg clock timeNow) w) :
    ∃ b : ReplicatedLog.Log Value ℕ, ReplicatedLog.Steps .empty b ∧ (∀ v ∈ b.submitted, v ∈ H) ∧
      Provides cfg w b := by
  obtain ⟨events, rfl, along⟩ := h.along_values
  refine along.invariant (fun w => ∃ b : ReplicatedLog.Log Value ℕ,
    ReplicatedLog.Steps .empty b ∧ (∀ v ∈ b.submitted, v ∈ H) ∧ Provides cfg w b)
    ⟨.empty, .refl _, fun _ none => absurd none List.not_mem_nil,
      provides_init cfg clock timeNow⟩ ?_
  rintro w e ⟨b, steps, known, provides⟩ ⟨submits, sound⟩
  obtain ⟨b', more, provides', grown⟩ := provides.step e sound
  refine ⟨b', steps.trans more, fun v hv => ?_, provides'⟩
  rw [grown] at hv
  rcases List.mem_append.mp hv with old | new
  · exact known v old
  · exact submits v (Option.mem_toList.mp new)

theorem worldInit_continues (cfg : Config) (clock : ℕ → Timeval) (timeNow : Timeval) :
    WorldContinues cfg idleWorld (worldInit cfg clock timeNow) := by
  refine .ofProposers rfl (fun p => proposerInit_writes clock timeNow p) fun p => ?_
  have same : (proposerInit cfg clock timeNow p).state.learner = learnerInit :=
    Paxos2LeaderMoves.proposerInit_learner clock timeNow p
  change Edits cfg repeatReqSize learnerInit.toAcceptors
    (proposerInit cfg clock timeNow p).state.learner.toAcceptors
  rw [same]
  exact .refl _

inductive SentBy (cfg : Config) (H : List Value) (w : World) : SenderId → PaxosMsg → Prop where
  | prepares {p : ℕ} {prepares : List PrepareReq} (low : p < cfg.maxNOfProposers)
      (sent : prepares ∈ (w.proposers p).state.leader.prepareBuf.sent) :
      SentBy cfg H w (.proposer p) (.prepareReqs p prepares)
  | accepts {p : ℕ} {accepts : List AcceptReq} (low : p < cfg.maxNOfProposers)
      (sent : accepts ∈ (w.proposers p).state.leader.acceptBuf.sent) :
      SentBy cfg H w (.proposer p) (.acceptReqs p accepts)
  | promises {a : ℕ} {acks : List PrepareAck} (low : a < cfg.nOfAcceptors)
      (sent : acks ∈ (w.acks.acceptors a).state.toProposers.sent) :
      SentBy cfg H w (.toProposers a) (.prepareAcks a acks)
  | acks {a : ℕ} {acks : List AcceptAck} (low : a < cfg.nOfAcceptors)
      (sent : acks ∈ (w.acks.acceptors a).state.toLearners.sent) :
      SentBy cfg H w (.toLearners a) (.acceptAcks a acks)
  | requests {p : ℕ} {requests : List ℕ}
      (sent : requests ∈ (w.proposers p).state.learner.toAcceptors.sent) :
      SentBy cfg H w (.proposerLearner p) (.repeatReqs requests)
  | repeats {l : ℕ} {requests : List ℕ}
      (sent : requests ∈ (w.acks.learners l).state.1.toAcceptors.sent) :
      SentBy cfg H w (.learner l) (.repeatReqs requests)
  | value {c : ℕ} {value : Value} (known : value ∈ H) :
      SentBy cfg H w (.client c) (.submit value)
  | announcement (currentLeader : ℕ) : SentBy cfg H w .oracle (.leaderAnnounce currentLeader)

theorem SentBy.later (h : SentBy cfg H w id m) (continues : WorldContinues cfg w w') :
    SentBy cfg H w' id m := by
  cases h with
  | prepares low sent => exact .prepares low ((continues.prepares _).grows.subset sent)
  | accepts low sent => exact .accepts low ((continues.accepts _).grows.subset sent)
  | promises low sent => exact .promises low ((continues.promises _).grows.subset sent)
  | acks low sent => exact .acks low ((continues.acks _).grows.subset sent)
  | requests sent => exact .requests ((continues.requests _).grows.subset sent)
  | repeats sent => exact .repeats ((continues.repeats _).grows.subset sent)
  | value known => exact .value known
  | announcement currentLeader => exact .announcement currentLeader

/-- The process of the sender is one of the configuration. -/
def Placed (cfg : Config) : SenderId → Prop
  | .proposer p | .proposerLearner p => p < cfg.maxNOfProposers
  | .toProposers a | .toLearners a => a < cfg.nOfAcceptors
  | .learner _ | .client _ | .oracle => True

theorem mem_of_newly {ι : Type} {before after : SendBuf ι} {batch : List ι}
    (h : batch ∈ newly before after) : batch ∈ after.sent :=
  List.drop_subset _ _ h

theorem outgoing_sentBy (continues : WorldContinues cfg idleWorld w') (placed : Placed cfg id)
    {outside : List PaxosMsg} (known : ∀ m ∈ outside, SentBy cfg H w' id m)
    (h : m ∈ outgoing w w' outside id) : SentBy cfg H w' id m := by
  cases id with
  | proposer p =>
    have named : (w'.proposers p).state.leader.thisProposerId = p := continues.proposerIds p
    simp only [outgoing, List.mem_append, List.mem_map, named] at h
    rcases h with ⟨batch, new, rfl⟩ | ⟨batch, new, rfl⟩
    · exact .prepares placed (mem_of_newly new)
    · exact .accepts placed (mem_of_newly new)
  | proposerLearner p =>
    obtain ⟨batch, new, rfl⟩ := List.mem_map.mp h
    exact .requests (mem_of_newly new)
  | toProposers a =>
    have named : (w'.acks.acceptors a).state.thisAcceptorId = a := continues.acceptorIds a
    simp only [outgoing, List.mem_map, named] at h
    obtain ⟨batch, new, rfl⟩ := h
    exact .promises placed (mem_of_newly new)
  | toLearners a =>
    have named : (w'.acks.acceptors a).state.thisAcceptorId = a := continues.acceptorIds a
    simp only [outgoing, List.mem_map, named] at h
    obtain ⟨batch, new, rfl⟩ := h
    exact .acks placed (mem_of_newly new)
  | learner l =>
    obtain ⟨batch, new, rfl⟩ := List.mem_map.mp h
    exact .repeats (mem_of_newly new)
  | client c => exact known m h
  | oracle => exact known m h

theorem batchFits_of_sent {α ι : Type} (f : ItemFields α ι) {sb : SendBuf α} {batch : List α}
    {senderId : ℤ} (sizes : WireSizes cfg) (whole : Whole cfg f.size sb) (sent : batch ∈ sb.sent)
    (valid : Paxos2BatchRoundTrip.SenderValid f.codec.layout senderId)
    (short : ∀ x ∈ batch, paxosMsgHeader + batchHeader + f.size x ≤ maxUdpMsgSize) :
    BatchFits f senderId batch := by
  refine ⟨valid, ?_, short⟩
  have one := whole.sent batch sent
  unfold OneMessage at one ⊢
  rwa [sizes.message] at one

theorem senderValid_of_lt {l : Paxos2Wire.BatchLayout} {n : ℕ} (low : n < l.senders) :
    Paxos2BatchRoundTrip.SenderValid l n :=
  fun _ _ => ⟨Int.natCast_nonneg n, by exact_mod_cast low⟩

theorem repeatReqs_sendable {sb : SendBuf ℕ} {requests : List ℕ} (sizes : WireSizes cfg)
    (whole : Whole cfg repeatReqSize sb) (sent : requests ∈ sb.sent) :
    Sendable (.repeatReqs requests) := by
  refine batchFits_of_sent repeatReqFields sizes whole sent (fun _ none => nomatch none)
    fun iid _ => ?_
  change paxosMsgHeader + batchHeader + 4 ≤ maxUdpMsgSize
  have header : paxosMsgHeader = 16 := rfl
  have batch : batchHeader = 4 := rfl
  have limit := maxUdpMsgSize_eq
  omega

theorem SentBy.sendable (h : SentBy cfg H w id m) (sizes : WireSizes cfg)
    (small : ∀ v ∈ H, v.length + 44 ≤ maxUdpMsgSize) (continues : WorldContinues cfg idleWorld w)
    (values : WorldFrom cfg (· ∈ H) w) : Sendable m := by
  have header : paxosMsgHeader = 16 := rfl
  have batch : batchHeader = 4 := rfl
  have limit := maxUdpMsgSize_eq
  cases h with
  | prepares low sent =>
    refine batchFits_of_sent prepareReqFields sizes ((continues.prepares _).whole whole_new) sent
      (senderValid_of_lt (low.trans_eq sizes.proposers)) fun pr _ => ?_
    change paxosMsgHeader + batchHeader + 8 ≤ maxUdpMsgSize
    omega
  | accepts low sent =>
    refine batchFits_of_sent acceptReqFields sizes ((continues.accepts _).whole whole_new) sent
      (senderValid_of_lt (low.trans_eq sizes.proposers)) fun ar har => ?_
    have length := small ar.value ((values.leaders _).requested.1 _ sent ar har)
    change paxosMsgHeader + batchHeader + (ar.value.length + 16) ≤ maxUdpMsgSize
    omega
  | promises low sent =>
    refine batchFits_of_sent prepareAckFields sizes ((continues.promises _).whole whole_new) sent
      (senderValid_of_lt (low.trans_eq sizes.acceptors)) fun pa hpa => ?_
    change paxosMsgHeader + batchHeader + (pa.value.length + 24) ≤ maxUdpMsgSize
    rcases (values.acceptors _).promised.1 _ sent pa hpa with blank | known
    · rw [blank, List.length_nil]
      omega
    · have length := small pa.value known
      omega
  | acks low sent =>
    refine batchFits_of_sent acceptAckFields sizes ((continues.acks _).whole whole_new) sent
      (senderValid_of_lt (low.trans_eq sizes.acceptors)) fun aa haa => ?_
    have length := small aa.value ((values.acceptors _).acked.1 _ sent aa haa)
    change paxosMsgHeader + batchHeader + (aa.value.length + 24) ≤ maxUdpMsgSize
    omega
  | requests sent => exact repeatReqs_sendable sizes ((continues.requests _).whole whole_new) sent
  | repeats sent => exact repeatReqs_sendable sizes ((continues.repeats _).whole whole_new) sent
  | value known =>
    have length := small _ known
    change paxosMsgHeader + _ ≤ maxUdpMsgSize
    omega
  | announcement currentLeader => trivial

/-- What each sender has sent are datagrams of messages that its process has sent. -/
def Carrying (cfg : Config) (H : List Value) (w : World) (senders : SenderId → UdpSendBuffer) :
    Prop :=
  ∀ id, ∀ datagram ∈ (senders id).sent, ∃ m, Brings datagram m ∧ SentBy cfg H w id m

structure Linked (cfg : Config) (clock : ℕ → Timeval) (timeNow : Timeval) (H : List Value)
    (R : World → CrashEvent → Prop) (W : WireState) : Prop where
  reached : Follows cfg H R (worldInit cfg clock timeNow) W.world
  carrying : Carrying cfg H W.world W.senders

section Action

variable {arrival : Arrival} {net : Net}

theorem Carrying.arrives (h : Carrying cfg H W.world W.senders) (arrives : Arrives W net arrival)
    (received : arrival.message = some m) :
    ∃ id, netOf id = net ∧ SentBy cfg H W.world id m := by
  obtain ⟨m', brings, sent⟩ := h _ _ arrives.2
  refine ⟨arrival.source, arrives.1, ?_⟩
  have same : some m' = some m := (brings arrival.buf).symm.trans received
  rwa [Option.some.inj same] at sent

def CrashPossible (cfg : Config) (w : World) : CrashEvent → Prop
  | .world e => Possible cfg w e ∧
    match e with
    | .acks (.acceptAcks _ a acks) => Paxos2AckWorld.SentBy cfg w.acks.acceptors a acks
    | .proposer _ _ | .acks (.request _ _) | .acks (.repeatLatest _) | .acks (.holeCheck _) => True
  | .crash _ msg _ => ReceivedByAcceptor cfg w msg

theorem handleEvent_eq {e : CrashEvent} (possible : CrashPossible cfg w e) :
    handleEvent cfg w e = crashStep cfg w e := by
  cases e with
  | world e =>
    obtain ⟨possible, sent⟩ := possible
    cases e with
    | proposer p e =>
      rw [crashStep, worldStep_proposer possible]
      rfl
    | acks e =>
      rw [crashStep, worldStep_acks possible]
      cases e with
      | acceptAcks l a acks =>
        rw [ackStep, if_pos sent]
        rfl
      | request | repeatLatest | holeCheck => rfl
  | crash a msg n =>
    have received : ReceivedByAcceptor cfg w msg := possible
    rw [crashStep, if_pos received]
    rfl

theorem SentBy.received (h : SentBy cfg H w id m) : ReceivedByAcceptor cfg w m := by
  cases h with
  | prepares low sent => exact ⟨low, sent⟩
  | accepts low sent => exact ⟨low, sent⟩
  | promises | acks | requests | repeats | value | announcement => trivial

theorem SentBy.promise {a : ℕ} {acks : List PrepareAck}
    (h : SentBy cfg H w id (.prepareAcks a acks)) :
    a < cfg.nOfAcceptors ∧ acks ∈ (w.acks.acceptors a).state.toProposers.sent := by
  cases h with
  | promises low sent => exact ⟨low, sent⟩

theorem SentBy.ack {a : ℕ} {acks : List AcceptAck} (h : SentBy cfg H w id (.acceptAcks a acks)) :
    Paxos2AckWorld.SentBy cfg w.acks.acceptors a acks := by
  cases h with
  | acks low sent => exact ⟨low, sent⟩

theorem SentBy.submitted {v : Value} (h : SentBy cfg H w id (.submit v)) : v ∈ H := by
  cases h with
  | value known => exact known

theorem leaderDatagram_event {p : ℕ} {e : CrashEvent}
    (he : eventOf w (.leaderDatagram p arrival) = some e) :
    ∃ value, arrival.message = some (.submit value) ∧ e = .world (.proposer p (.submit value)) := by
  unfold eventOf at he
  dsimp only at he
  generalize arrival.message = msg at he ⊢
  split at he
  · split at he
    · rename_i value
      exact ⟨value, rfl, (Option.some.inj he).symm⟩
    · cases he
  · cases he

theorem oracleDatagram_event {p : ℕ} {e : CrashEvent}
    (he : eventOf w (.oracleDatagram p arrival clock timeNow) = some e) :
    ∃ currentLeader, e = .world (.proposer p (.leaderAnnounce currentLeader clock timeNow)) := by
  unfold eventOf at he
  dsimp only at he
  generalize arrival.message = msg at he
  split at he
  · rename_i currentLeader
    exact ⟨currentLeader, (Option.some.inj he).symm⟩
  · cases he

theorem proposerDatagram_event {p : ℕ} {e : CrashEvent}
    (he : eventOf w (.proposerDatagram p arrival clock) = some e) :
    ∃ a acks, arrival.message = some (.prepareAcks a acks) ∧
      e = .world (.proposer p (.prepareAcks a acks clock)) := by
  unfold eventOf at he
  dsimp only at he
  generalize arrival.message = msg at he ⊢
  split at he
  · rename_i a acks
    exact ⟨a, acks, rfl, (Option.some.inj he).symm⟩
  · cases he

theorem proposerLearns_event {p : ℕ} {e : CrashEvent}
    (he : eventOf w (.proposerLearns p arrival clock) = some e) :
    ∃ a acks, arrival.message = some (.acceptAcks a acks) ∧
      e = .world (.proposer p (.acceptAcks a acks clock)) := by
  unfold eventOf at he
  dsimp only at he
  generalize arrival.message = msg at he ⊢
  split at he
  · rename_i a acks
    exact ⟨a, acks, rfl, (Option.some.inj he).symm⟩
  · cases he

theorem learnerDatagram_event {l : ℕ} {e : CrashEvent}
    (he : eventOf w (.learnerDatagram l arrival) = some e) :
    ∃ a acks, arrival.message = some (.acceptAcks a acks) ∧
      e = .world (.acks (.acceptAcks l a acks)) := by
  unfold eventOf at he
  dsimp only at he
  generalize arrival.message = msg at he ⊢
  split at he
  · rename_i a acks
    exact ⟨a, acks, rfl, (Option.some.inj he).symm⟩
  · cases he

theorem Carrying.event (h : Carrying cfg H W.world W.senders) {action : WireAction}
    (happens : Happens cfg W action) (known : ∀ v, handedOver action = some v → v ∈ H)
    {e : CrashEvent} (he : eventOf W.world action = some e) :
    CrashPossible cfg W.world e ∧ ∀ v, submittedBy e = some v → v ∈ H := by
  cases action with
  | submit | announce => cases he
  | submitSharedmem p value =>
    cases he
    exact ⟨⟨⟨happens, trivial⟩, trivial⟩, fun v brought => known v brought⟩
  | leaderDatagram p arrival =>
    obtain ⟨value, received, rfl⟩ := leaderDatagram_event he
    obtain ⟨_, -, sent⟩ := h.arrives happens.2 received
    refine ⟨⟨⟨happens.1, trivial⟩, trivial⟩, fun v brought => ?_⟩
    rw [← Option.some.inj brought]
    exact sent.submitted
  | oracleDatagram p arrival clock timeNow =>
    obtain ⟨currentLeader, rfl⟩ := oracleDatagram_event he
    exact ⟨⟨⟨happens.1, trivial⟩, trivial⟩, fun _ brought => by cases brought⟩
  | proposerDatagram p arrival clock =>
    obtain ⟨a, acks, received, rfl⟩ := proposerDatagram_event he
    obtain ⟨_, -, sent⟩ := h.arrives happens.2 received
    exact ⟨⟨⟨happens.1, sent.promise⟩, trivial⟩, fun _ brought => by cases brought⟩
  | proposerLearns p arrival clock =>
    obtain ⟨a, acks, received, rfl⟩ := proposerLearns_event he
    obtain ⟨_, -, sent⟩ := h.arrives happens.2 received
    exact ⟨⟨⟨happens.1, sent.ack⟩, trivial⟩, fun _ brought => by cases brought⟩
  | p1Check | p2Check | proposerHoleCheck =>
    cases he
    exact ⟨⟨⟨happens, trivial⟩, trivial⟩, fun _ brought => by cases brought⟩
  | acceptorDatagram a arrival =>
    have he : arrival.message.map (fun msg => CrashEvent.world (.acks (.request a msg))) = some e :=
      he
    obtain ⟨msg, received, rfl⟩ := Option.map_eq_some_iff.mp he
    obtain ⟨_, -, sent⟩ := h.arrives happens.2 received
    exact ⟨⟨sent.received, trivial⟩, fun _ brought => by cases brought⟩
  | acceptorCrash a arrival n =>
    have he : arrival.message.map (fun msg => CrashEvent.crash a msg n) = some e := he
    obtain ⟨msg, received, rfl⟩ := Option.map_eq_some_iff.mp he
    obtain ⟨_, -, sent⟩ := h.arrives happens.2 received
    exact ⟨sent.received, fun _ brought => by cases brought⟩
  | repeatLatest a =>
    cases he
    exact ⟨⟨trivial, trivial⟩, fun _ brought => by cases brought⟩
  | learnerDatagram l arrival =>
    obtain ⟨a, acks, received, rfl⟩ := learnerDatagram_event he
    obtain ⟨_, -, sent⟩ := h.arrives happens received
    exact ⟨⟨trivial, sent.ack⟩, fun _ brought => by cases brought⟩
  | holeCheck l =>
    cases he
    exact ⟨⟨trivial, trivial⟩, fun _ brought => by cases brought⟩

theorem Linked.follows_worldAfter (h : Linked cfg clock timeNow H R W) {action : WireAction}
    (happens : Happens cfg W action) (known : ∀ v, handedOver action = some v → v ∈ H)
    (allowed : ∀ e ∈ eventOf W.world action, R W.world e) :
    Follows cfg H R (worldInit cfg clock timeNow) (Paxos2WireWorld.worldAfter cfg W.world action) ∧
      WorldContinues cfg W.world (Paxos2WireWorld.worldAfter cfg W.world action) := by
  unfold Paxos2WireWorld.worldAfter
  cases he : eventOf W.world action with
  | none => exact ⟨h.reached, .refl _⟩
  | some e =>
    obtain ⟨possible, submits⟩ := h.carrying.event happens known he
    dsimp only
    rw [handleEvent_eq possible]
    exact ⟨h.reached.step submits (allowed e he), crashStep_continues cfg _ e⟩

end Action

section Sending

variable {senders : SenderId → UdpSendBuffer}

theorem transmitAll_ensures {ms : List PaxosMsg} (sendable : ∀ m ∈ ms, Sendable m)
    (sb : UdpSendBuffer) (padding : ℕ → ℕ → UInt16) :
    (transmitAll sb ms padding).Ensures
      (fun sb' => ∀ datagram ∈ sb'.sent, datagram ∈ sb.sent ∨ ∃ m ∈ ms, Brings datagram m)
      (· = .numberRange) := by
  induction ms generalizing sb padding with
  | nil => exact fun _ sent => .inl sent
  | cons m ms ih =>
    obtain ⟨first, rest⟩ := List.forall_mem_cons.mp sendable
    unfold transmitAll
    refine ((transmit_ensures first (padding 0) sb).mono_fault fun _ fault => fault.1).bind ?_
    rintro sb' ⟨-, transmitted⟩
    refine (ih rest sb' _).mono fun sb'' _ kept datagram sent => ?_
    rcases kept datagram sent with old | ⟨m', hm', brings⟩
    · rcases transmitted with ⟨-, same⟩ | ⟨new, grown, brings⟩
      · exact .inl (same ▸ old)
      · rw [grown] at old
        rcases List.mem_append.mp old with old | here
        · exact .inl old
        · rw [List.mem_singleton.mp here]
          exact .inr ⟨m, List.mem_cons_self, brings⟩
    · exact .inr ⟨m', List.mem_cons_of_mem m hm', brings⟩

theorem Carrying.later (h : Carrying cfg H w senders) (continues : WorldContinues cfg w w') :
    Carrying cfg H w' senders := by
  intro id datagram sent
  obtain ⟨m, brings, sentBy⟩ := h id datagram sent
  exact ⟨m, brings, sentBy.later continues⟩

theorem sendOn_ensures (sizes : WireSizes cfg) (small : ∀ v ∈ H, v.length + 44 ≤ maxUdpMsgSize)
    (continues : WorldContinues cfg idleWorld w') (values : WorldFrom cfg (· ∈ H) w')
    (same : W.world = w') (carrying : Carrying cfg H w' W.senders) (placed : Placed cfg id)
    {outside : List PaxosMsg} (known : ∀ m ∈ outside, SentBy cfg H w' id m)
    (padding : SenderId → ℕ → ℕ → UInt16) :
    (sendOn w outside padding W id).Ensures
      (fun W' => W'.world = w' ∧ Carrying cfg H w' W'.senders) (· = .numberRange) := by
  subst same
  have sentBy : ∀ m ∈ outgoing w W.world outside id, SentBy cfg H W.world id m :=
    fun m hm => outgoing_sentBy continues placed known hm
  have written := transmitAll_ensures
    (fun m hm => (sentBy m hm).sendable sizes small continues values) (W.senders id) (padding id)
  unfold sendOn
  generalize transmitAll (W.senders id) (outgoing w W.world outside id) (padding id) = o
    at written
  cases o with
  | aborted fault sb => exact written
  | running sb =>
    refine ⟨rfl, fun id' datagram sent => ?_⟩
    simp only [WireState.withSender, Function.update_apply] at sent
    split_ifs at sent with here
    · subst here
      rcases written datagram sent with old | ⟨m, hm, brings⟩
      · exact carrying _ datagram old
      · exact ⟨m, brings, sentBy m hm⟩
    · exact carrying id' datagram sent

theorem placed_of_happens {action : WireAction} (happens : Happens cfg W action) :
    ∀ id ∈ sendersOf action, Placed cfg id := by
  cases action with
  | submit | announce | learnerDatagram | holeCheck => simp [sendersOf, Placed]
  | submitSharedmem | p1Check | p2Check | proposerHoleCheck | repeatLatest =>
    have low : _ < _ := happens
    simpa [sendersOf, Placed] using low
  | leaderDatagram | oracleDatagram | proposerDatagram | proposerLearns | acceptorDatagram
  | acceptorCrash =>
    have low : _ < _ := happens.1
    simpa [sendersOf, Placed] using low

theorem fromOutside_sentBy {action : WireAction} (known : ∀ v, handedOver action = some v → v ∈ H)
    (w : World) : ∀ id ∈ sendersOf action, ∀ m ∈ fromOutside action, SentBy cfg H w id m := by
  cases action with
  | submit c value =>
    simp only [sendersOf, fromOutside, List.mem_singleton, forall_eq]
    exact .value (known value rfl)
  | announce currentLeader =>
    simp only [sendersOf, fromOutside, List.mem_singleton, forall_eq]
    exact .announcement currentLeader
  | _ => exact fun _ _ _ none => nomatch none

theorem Linked.step (h : Linked cfg clock timeNow H R W) (sizes : WireSizes cfg)
    (small : ∀ v ∈ H, v.length + 44 ≤ maxUdpMsgSize) (e : WireEvent)
    (known : ∀ v, handedOver e.action = some v → v ∈ H)
    (allowed : Happens cfg W e.action → ∀ ce ∈ eventOf W.world e.action, R W.world ce) :
    (wireStep cfg W e).Ensures (Linked cfg clock timeNow H R) (· = .numberRange) := by
  unfold wireStep
  split_ifs with happens
  · obtain ⟨reached, continues⟩ := h.follows_worldAfter happens known (allowed happens)
    have whole := (worldInit_continues cfg clock timeNow).trans reached.continues
    have sent : (Outcome.fold (sendOn W.world (fromOutside e.action) e.padding)
        { W with world := worldAfter cfg W.world e.action } (sendersOf e.action)).Ensures
        (fun W' => W'.world = worldAfter cfg W.world e.action ∧
          Carrying cfg H (worldAfter cfg W.world e.action) W'.senders) (· = .numberRange) := by
      refine Outcome.ensures_fold ⟨rfl, h.carrying.later continues⟩ fun id hid W' kept => ?_
      exact sendOn_ensures sizes small whole reached.values kept.1 kept.2
        (placed_of_happens happens id hid) (fromOutside_sentBy known _ id hid) e.padding
    generalize Outcome.fold (sendOn W.world (fromOutside e.action) e.padding)
      { W with world := worldAfter cfg W.world e.action } (sendersOf e.action) = o at sent
    cases o with
    | aborted fault W' => exact sent
    | running W' =>
      obtain ⟨same, carrying⟩ := sent
      rw [← same] at reached carrying
      have kept : (restarted W' e.action).world = W'.world ∧
          ∀ id, ((restarted W' e.action).senders id).sent = (W'.senders id).sent := by
        cases e.action with
        | acceptorCrash a arrival n =>
          refine ⟨rfl, fun id => ?_⟩
          simp only [restarted]
          split_ifs <;> rfl
        | _ => exact ⟨rfl, fun _ => rfl⟩
      change Linked cfg clock timeNow H R (restarted W' e.action)
      refine ⟨by rw [kept.1]; exact reached, fun id datagram sent => ?_⟩
      rw [kept.1]
      exact carrying id datagram (kept.2 id ▸ sent)
  · exact h

theorem linked_init (sizes : WireSizes cfg) (small : ∀ v ∈ H, v.length + 44 ≤ maxUdpMsgSize)
    (clock : ℕ → Timeval) (timeNow : Timeval) (padding : SenderId → ℕ → ℕ → UInt16) :
    (wireInit cfg clock timeNow padding).Ensures (Linked cfg clock timeNow H R)
      (· = .numberRange) := by
  have silent : Carrying cfg H (worldInit cfg clock timeNow) fun _ => udpSendbufNew :=
    fun _ _ none => nomatch none
  have placed : Placed cfg (.proposer 0) := cfg.proposers_pos
  have sends : (wireInit cfg clock timeNow padding).Ensures
      (fun W => W.world = worldInit cfg clock timeNow ∧
        Carrying cfg H (worldInit cfg clock timeNow) W.senders) (· = .numberRange) :=
    sendOn_ensures sizes small (worldInit_continues cfg clock timeNow)
      (worldFrom_init cfg _ clock timeNow) rfl silent placed
      (fun _ none => absurd none List.not_mem_nil) padding
  refine sends.mono fun W _ kept => ?_
  obtain ⟨same, carrying⟩ := kept
  rw [← same] at carrying
  exact ⟨same ▸ .refl _, carrying⟩

end Sending

section Runs

variable {padding : SenderId → ℕ → ℕ → UInt16} {events : List WireEvent}

/-- What a process takes out of a datagram meets the condition of `crashStep_sound`. -/
def SoundAt (cfg : Config) (W : WireState) (e : WireEvent) : Prop :=
  Happens cfg W e.action → ∀ ce ∈ eventOf W.world e.action, CrashStepSound cfg W.world ce

instance (cfg : Config) (W : WireState) (e : WireEvent) : Decidable (SoundAt cfg W e) :=
  inferInstanceAs (Decidable (_ → ∀ ce ∈ eventOf W.world e.action, _))

def SoundRun (cfg : Config) (clock : ℕ → Timeval) (timeNow : Timeval)
    (padding : SenderId → ℕ → ℕ → UInt16) (events : List WireEvent) : Prop :=
  (wireInit cfg clock timeNow padding).Ensures
    (fun W => Outcome.AlongFold (wireStep cfg) (SoundAt cfg) W events) fun _ => True

instance (cfg : Config) (clock : ℕ → Timeval) (timeNow : Timeval)
    (padding : SenderId → ℕ → ℕ → UInt16) (events : List WireEvent) :
    Decidable (SoundRun cfg clock timeNow padding events) :=
  inferInstanceAs (Decidable ((wireInit cfg clock timeNow padding).Ensures
    (fun W => Outcome.AlongFold (wireStep cfg) (SoundAt cfg) W events) fun _ => True))

theorem mem_valuesHandedOver {e : WireEvent} (he : e ∈ events) {v : Value}
    (handed : handedOver e.action = some v) : v ∈ valuesHandedOver events :=
  List.mem_filterMap.mpr ⟨e, he, handed⟩

theorem linked_run (sizes : WireSizes cfg)
    (small : ∀ v ∈ valuesHandedOver events, v.length + 44 ≤ maxUdpMsgSize) :
    (wireRun cfg clock timeNow padding events).Ensures
      (Linked cfg clock timeNow (valuesHandedOver events) fun _ _ => True) (· = .numberRange) := by
  have start : (wireInit cfg clock timeNow padding).Ensures
      (Linked cfg clock timeNow (valuesHandedOver events) fun _ _ => True) (· = .numberRange) :=
    linked_init sizes small clock timeNow padding
  refine start.bind fun W started => ?_
  exact Outcome.ensures_fold started fun e he W linked =>
    linked.step sizes small e (fun _ handed => mem_valuesHandedOver he handed)
      fun _ _ _ => trivial

theorem linked_soundRun (sizes : WireSizes cfg)
    (small : ∀ v ∈ valuesHandedOver events, v.length + 44 ≤ maxUdpMsgSize)
    (sound : SoundRun cfg clock timeNow padding events)
    (done : wireRun cfg clock timeNow padding events = .running W) :
    Linked cfg clock timeNow (valuesHandedOver events) (CrashStepSound cfg) W := by
  obtain ⟨W₀, first, rest⟩ := Outcome.bind_eq_running.mp done
  have start : Linked cfg clock timeNow (valuesHandedOver events) (CrashStepSound cfg) W₀ :=
    (linked_init sizes small clock timeNow padding).of_running first
  have known : Outcome.AlongFold (wireStep cfg)
      (fun _ e => ∀ v, handedOver e.action = some v → v ∈ valuesHandedOver events) W₀ events :=
    Outcome.alongFold_of_mem fun _ he _ _ handed => mem_valuesHandedOver he handed
  refine ((sound.of_running first).and known).invariant
    (Linked cfg clock timeNow (valuesHandedOver events) (CrashStepSound cfg)) start
    (fun W e W' linked met went => ?_) rest
  exact (linked.step sizes small e met.2 met.1).of_running went

end Runs

/-- While clients leave room for the largest header, the processes with their datagrams are in a
state that they reach with messages as they are, from the same values.  No message has an open
type and none overruns a buffer: a run of the model ends only where a number needs more bits than
its field has. -/
theorem paxos_datagrams_refine_messages (cfg : Config) (sizes : WireSizes cfg)
    (clock : ℕ → Timeval) (timeNow : Timeval) (padding : SenderId → ℕ → ℕ → UInt16)
    (events : List WireEvent)
    (small : ∀ v ∈ valuesHandedOver events, v.length + 44 ≤ maxUdpMsgSize) :
    (∀ W, wireRun cfg clock timeNow padding events = .running W →
      ∃ messages, run (crashStep cfg) (worldInit cfg clock timeNow) messages = W.world ∧
        ∀ v ∈ submitted messages, v ∈ valuesHandedOver events) ∧
      ∀ fault W, wireRun cfg clock timeNow padding events = .aborted fault W →
        fault = .numberRange := by
  have ensured : (wireRun cfg clock timeNow padding events).Ensures
      (Linked cfg clock timeNow (valuesHandedOver events) fun _ _ => True) (· = .numberRange) :=
    linked_run sizes small
  refine ⟨fun W done => ?_, fun fault W ended => ?_⟩
  · obtain ⟨messages, ran, known, -⟩ := (ensured.of_running done).reached
    exact ⟨messages, ran, known⟩
  · rw [ended] at ensured
    exact ensured

/-- The last datagram of a process that has sent these messages.  What a message does not write of
its datagram is what the messages before have left in the buffer. -/
def lastDatagram (ms : List PaxosMsg) : List UInt8 :=
  (transmitAll udpSendbufNew ms fun _ _ => 0).state.sent.getLastD []

def arrivalOf (source : SenderId) (ms : List PaxosMsg) : Arrival :=
  ⟨source, lastDatagram ms, fun _ => 0⟩

/-- A build whose leader prepares two instances in advance. -/
def twoAhead : Config := { Config.small with proposerPreexecWinSize := 2, preexec_lt := by decide }

def noPadding : SenderId → ℕ → ℕ → UInt16 := fun _ _ _ => 0

/-- Client 0 sends `[7]` to proposer 0, acceptors 0 and 1 promise and then accept its request,
and learner 0 hears both of them. -/
def firstValueSent : List WireEvent :=
  let prepares : PaxosMsg := .prepareReqs 0 (preparesAt twoAhead 10)
  let accepts : PaxosMsg := .acceptReqs 0 [⟨1, 10, [7]⟩]
  let promised (a : ℕ) := arrivalOf (.toProposers a) [.prepareAcks a (promisesAt twoAhead 10)]
  let accepted (a : ℕ) := arrivalOf (.toLearners a) [.acceptAcks a [⟨1, 10, 10, false, [7]⟩]]
  [.submit 0 [7], .leaderDatagram 0 (arrivalOf (.client 0) [.submit [7]]),
    .acceptorDatagram 0 (arrivalOf (.proposer 0) [prepares]),
    .acceptorDatagram 1 (arrivalOf (.proposer 0) [prepares]),
    .proposerDatagram 0 (promised 0) stillClock, .proposerDatagram 0 (promised 1) stillClock,
    .acceptorDatagram 0 (arrivalOf (.proposer 0) [prepares, accepts]),
    .acceptorDatagram 1 (arrivalOf (.proposer 0) [prepares, accepts]),
    .learnerDatagram 0 (accepted 0), .learnerDatagram 0 (accepted 1)].map
      fun action => ⟨action, noPadding⟩

theorem firstValueSent_small : ∀ v ∈ valuesHandedOver firstValueSent,
    v.length + 44 ≤ maxUdpMsgSize := by
  have one : valuesHandedOver firstValueSent = [[7]] := rfl
  rw [one]
  decide

theorem wireSizes_twoAhead : WireSizes twoAhead := ⟨rfl, rfl, rfl⟩

theorem firstValueSent_runs :
    ∃ W, wireRun twoAhead stillClock ⟨0, 0⟩ noPadding firstValueSent = .running W ∧
      (deliveries W.world 0).map Delivery.value = [[7]] := by
  have both : (wireRun twoAhead stillClock ⟨0, 0⟩ noPadding firstValueSent).IsRunning ∧
      (deliveries (wireRun twoAhead stillClock ⟨0, 0⟩ noPadding firstValueSent).state.world 0).map
        Delivery.value = [[7]] := by
    decide +kernel
  generalize wireRun twoAhead stillClock ⟨0, 0⟩ noPadding firstValueSent = o at both ⊢
  exact ⟨o.state, Outcome.running_of_isRunning both.1, both.2⟩

theorem firstValueSent_refines : ∃ messages,
    (deliveries (run (crashStep twoAhead) (worldInit twoAhead stillClock ⟨0, 0⟩) messages) 0).map
      Delivery.value = [[7]] ∧ ∀ v ∈ submitted messages, v ∈ [[7]] := by
  obtain ⟨W, done, delivered⟩ := firstValueSent_runs
  obtain ⟨messages, ran, known⟩ := (paxos_datagrams_refine_messages twoAhead wireSizes_twoAhead
    stillClock ⟨0, 0⟩ noPadding firstValueSent firstValueSent_small).1 W done
  refine ⟨messages, ?_, known⟩
  rw [ran]
  exact delivered

/-- From the bytes that clients send to the values that learners deliver: where the steps of a
run are sound, the processes with their datagrams are a replicated log of the values that were
handed over, and every learner has delivered its first entries, under their instance numbers. -/
theorem paxos_datagrams_refine_log (cfg : Config) (sizes : WireSizes cfg)
    (clock : ℕ → Timeval) (timeNow : Timeval) (padding : SenderId → ℕ → ℕ → UInt16)
    (events : List WireEvent)
    (small : ∀ v ∈ valuesHandedOver events, v.length + 44 ≤ maxUdpMsgSize)
    (sound : SoundRun cfg clock timeNow padding events) (W : WireState)
    (done : wireRun cfg clock timeNow padding events = .running W) :
    ∃ b : ReplicatedLog.Log Value ℕ, ReplicatedLog.Steps .empty b ∧
      (∀ v ∈ b.submitted, v ∈ valuesHandedOver events) ∧
      ∀ l, (W.world.acks.learners l).IsRunning ∧
        (deliveries W.world l).map (fun d => some d.value) = b.output l ∧
        (deliveries W.world l).map Delivery.iid = List.range' 1 (b.read l) := by
  have linked := linked_soundRun sizes small sound done
  obtain ⟨b, steps, known, provides⟩ := linked.reached.log
  refine ⟨b, steps, known, fun l => ?_⟩
  obtain ⟨running, consecutive⟩ := deliveries_running provides.sound l
  exact ⟨running, provides.output l, by rw [consecutive, provides.read l]⟩

theorem firstValueSent_sound : SoundRun twoAhead stillClock ⟨0, 0⟩ noPadding firstValueSent := by
  decide +kernel

theorem firstValueSent_log : ∃ b : ReplicatedLog.Log Value ℕ, ReplicatedLog.Steps .empty b ∧
    (∀ v ∈ b.submitted, v ∈ [[7]]) ∧ b.output 0 = [some [7]] := by
  obtain ⟨W, done, delivered⟩ := firstValueSent_runs
  obtain ⟨b, steps, known, readers⟩ := paxos_datagrams_refine_log twoAhead wireSizes_twoAhead
    stillClock ⟨0, 0⟩ noPadding firstValueSent firstValueSent_small firstValueSent_sound W done
  refine ⟨b, steps, known, ?_⟩
  have values : (deliveries W.world 0).map (fun d => some d.value) =
      ((deliveries W.world 0).map Delivery.value).map some := List.map_map.symm
  rw [← (readers 0).2.1, values, delivered]
  rfl

end FdsPaxos.Paxos2WireRefinement
