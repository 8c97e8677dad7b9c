import FdsPaxos.RingAcceptorMoves
import FdsPaxos.RingWindows

set_option autoImplicit false

namespace FdsPaxos.RingOneLife
open TransitionRuns CircularWindow RingConfig RingMessages RingStableStorage RingMcasterStorage
open RingMulticaster RingAcceptor RingDeliveryQueue RingWorld RingWindows
open RingMulticasterMoves (requested EventMeets checkMeets_of_forall mcasterStep_moves)

section Learner

def AsksWithin (highest : ℕ) (instNumbers : List ℕ) : Prop :=
  ∀ i ∈ instNumbers, 0 < i ∧ i ≤ highest

structure LearnerWithin (highest : ℕ) (q : Learner) : Prop where
  seenClosed : q.highestSeenClosed ≤ highest
  seenCmdmap : q.highestSeenCmdmap ≤ highest
  missingCmd : AsksWithin highest q.missingCmdRequest
  missingAcc : AsksWithin highest q.missingAccRequest
  requests : ∀ msg ∈ q.requests, AsksWithin highest (requested msg)

def asks (q : Learner) : ℕ × ℕ × List ℕ × List ℕ × List Request :=
  (q.highestSeenClosed, q.highestSeenCmdmap, q.missingCmdRequest, q.missingAccRequest, q.requests)

variable {queueSize : ℕ} {highest highest' : ℕ} {q r : Learner}

theorem LearnerWithin.of_asks (h : LearnerWithin highest q) (same : asks r = asks q) :
    LearnerWithin highest r := by
  simp only [asks, Prod.mk.injEq] at same
  obtain ⟨closed, cmdmap, cmd, acc, requests⟩ := same
  exact ⟨closed ▸ h.seenClosed, cmdmap ▸ h.seenCmdmap, cmd ▸ h.missingCmd, acc ▸ h.missingAcc,
    requests ▸ h.requests⟩

theorem LearnerWithin.mono (h : LearnerWithin highest q) (le : highest ≤ highest') :
    LearnerWithin highest' q :=
  ⟨h.seenClosed.trans le, h.seenCmdmap.trans le,
    fun i hi => ⟨(h.missingCmd i hi).1, (h.missingCmd i hi).2.trans le⟩,
    fun i hi => ⟨(h.missingAcc i hi).1, (h.missingAcc i hi).2.trans le⟩,
    fun msg hmsg i hi => ⟨(h.requests msg hmsg i hi).1, (h.requests msg hmsg i hi).2.trans le⟩⟩

theorem dqGetEntry_asks (q : Learner) (i : ℕ) : asks (dqGetEntry queueSize q i).state = asks q := by
  unfold dqGetEntry
  dsimp only
  split_ifs <;> rfl

theorem dqDeliverFrom_asks (turns : ℕ) (q : Learner) :
    asks (dqDeliverFrom queueSize turns q).state = asks q := by
  induction turns generalizing q with
  | zero => rfl
  | succ turns ih =>
    unfold dqDeliverFrom
    dsimp only
    split_ifs
    · refine Outcome.bind_kept (I := fun r => asks r = asks q) ?_ fun r _ same => (ih r).trans same
      exact dqGetEntry_asks (dqDeliver queueSize q) _
    · rfl

theorem dqDeliverLoop_asks (q : Learner) : asks (dqDeliverLoop queueSize q).state = asks q :=
  Outcome.bind_kept (I := fun r => asks r = asks q) (dqGetEntry_asks q _)
    fun r _ same => (dqDeliverFrom_asks _ r).trans same

theorem dqMap_asks (q : Learner) (msg : CmdmapMsg) : asks (dqMap queueSize q msg).state = asks q := by
  unfold dqMap
  dsimp only
  split_ifs
  · rfl
  · rfl
  · rfl
  · rfl
  · exact dqDeliverLoop_asks (dqSaveMapping q _ _ msg)
  · rfl
  · rfl

theorem dqAccept_asks (q : Learner) (msg : AcceptanceMsg) :
    asks (dqAccept queueSize q msg).state = asks q := by
  unfold dqAccept
  dsimp only
  split_ifs
  · rfl
  · rfl
  · exact dqDeliverLoop_asks (q.withEntry _ _)
  · rfl
  · rfl
  · rfl
  · rfl

theorem dqStartAt_asks (q : Learner) (i : ℕ) : asks (dqStartAt q i) = asks q := by
  unfold dqStartAt
  split_ifs <;> rfl

theorem LearnerWithin.onMcastMsg (h : LearnerWithin highest q) {msg : McastMsg}
    (within : McastWithin highest msg) : LearnerWithin highest (onMcastMsg queueSize q msg).state := by
  cases msg with
  | phase2 msg => exact h
  | commandMap msg =>
    have started := h.of_asks (dqStartAt_asks q msg.instNumber)
    change LearnerWithin highest (deliveryQueueHandleCommandMap queueSize q msg).state
    unfold deliveryQueueHandleCommandMap
    dsimp only
    split_ifs
    · exact started
    · refine LearnerWithin.of_asks (q := { dqStartAt q msg.instNumber with
        highestSeenCmdmap := max (dqStartAt q msg.instNumber).highestSeenCmdmap msg.instNumber }) ?_ ?_
      · exact ⟨started.seenClosed, max_le started.seenCmdmap within.2.1, started.missingCmd,
          started.missingAcc, started.requests⟩
      · exact Outcome.bind_kept (I := fun r => asks r = asks _) (dqGetEntry_asks _ _)
          fun r _ same => (dqMap_asks r msg).trans same
  | acceptance msg =>
    have started := h.of_asks (dqStartAt_asks q msg.instNumber)
    have seen : LearnerWithin highest { dqStartAt q msg.instNumber with
        highestSeenClosed := max (dqStartAt q msg.instNumber).highestSeenClosed msg.instNumber } :=
      ⟨max_le started.seenClosed within.2, started.seenCmdmap, started.missingCmd,
        started.missingAcc, started.requests⟩
    change LearnerWithin highest (deliveryQueueHandleAcceptance queueSize q msg).state
    unfold deliveryQueueHandleAcceptance
    dsimp only
    split_ifs
    · exact seen
    · exact seen.of_asks (Outcome.bind_kept (I := fun r => asks r = asks _) (dqGetEntry_asks _ _)
        fun r _ same => (dqAccept_asks r msg).trans same)

theorem LearnerWithin.sendMap (h : LearnerWithin highest q) :
    LearnerWithin highest (sendMapRequest q) :=
  ⟨h.seenClosed, h.seenCmdmap, (fun _ hi => nomatch hi), h.missingAcc,
    List.forall_mem_cons.mpr ⟨h.missingCmd, h.requests⟩⟩

theorem LearnerWithin.sendChosenval (h : LearnerWithin highest q) :
    LearnerWithin highest (sendChosenvalRequest q) :=
  ⟨h.seenClosed, h.seenCmdmap, h.missingCmd, (fun _ hi => nomatch hi),
    List.forall_mem_cons.mpr ⟨h.missingAcc, h.requests⟩⟩

theorem AsksWithin.concat {instNumbers : List ℕ} {i : ℕ} (h : AsksWithin highest instNumbers)
    (positive : 0 < i) (le : i ≤ highest) : AsksWithin highest (instNumbers ++ [i]) :=
  List.forall_mem_append.mpr ⟨h, List.forall_mem_singleton.mpr ⟨positive, le⟩⟩

theorem LearnerWithin.missingCmdmap (h : LearnerWithin highest q) {i : ℕ} (positive : 0 < i)
    (le : i ≤ highest) : LearnerWithin highest (onMissingCmdmap q i) := by
  have missing : LearnerWithin highest
      { q with missingCmdRequest := q.missingCmdRequest ++ [i] } :=
    ⟨h.seenClosed, h.seenCmdmap, h.missingCmd.concat positive le, h.missingAcc, h.requests⟩
  unfold onMissingCmdmap
  dsimp only
  split_ifs
  · exact missing.sendMap
  · exact missing

theorem LearnerWithin.missingAcceptance (h : LearnerWithin highest q) {i : ℕ} (positive : 0 < i)
    (le : i ≤ highest) : LearnerWithin highest (onMissingAcceptance q i) := by
  have missing : LearnerWithin highest
      { q with missingAccRequest := q.missingAccRequest ++ [i] } :=
    ⟨h.seenClosed, h.seenCmdmap, h.missingCmd, h.missingAcc.concat positive le, h.requests⟩
  unfold onMissingAcceptance
  dsimp only
  split_ifs
  · exact missing.sendChosenval
  · exact missing

theorem LearnerWithin.checkGap (h : LearnerWithin highest q) (timeNow : Timeval) {i : ℕ}
    (positive : 0 < i) (le : i ≤ highest) :
    LearnerWithin highest (dqCheckGap queueSize timeNow q i).state := by
  have mapped (q : Learner) (h : LearnerWithin highest q) :
      LearnerWithin highest (dqRequestMap queueSize timeNow q i) := by
    unfold dqRequestMap
    dsimp only
    split_ifs
    · exact (h.missingCmdmap positive le).of_asks rfl
    · exact h
  have accepted (q : Learner) (h : LearnerWithin highest q) :
      LearnerWithin highest (dqRequestAcceptance queueSize timeNow q i) := by
    unfold dqRequestAcceptance
    dsimp only
    split_ifs
    · exact (h.missingAcceptance positive le).of_asks rfl
    · exact h
  refine Outcome.bind_kept (h.of_asks (dqGetEntry_asks q i)) fun r _ kept => ?_
  split_ifs
  · exact kept
  · exact accepted _ (mapped r kept)

theorem LearnerWithin.postDelivery (h : LearnerWithin highest q) :
    LearnerWithin highest (postDeliveryCheck q) := by
  unfold postDeliveryCheck
  dsimp only
  split_ifs
  · exact h
  · exact h.sendChosenval
  · exact h.sendMap
  · exact h.sendMap.sendChosenval

theorem LearnerWithin.periodicCheck (h : LearnerWithin highest q) (timeNow : Timeval) :
    LearnerWithin highest (dqPeriodicCheck queueSize timeNow q).state := by
  refine Outcome.bind_kept ?_ fun r _ kept => kept.postDelivery
  refine Outcome.fold_kept (LearnerWithin highest) h fun i hi q kept => ?_
  obtain ⟨low, high⟩ := List.mem_range'_1.mp hi
  have seenClosed := h.seenClosed
  have seenCmdmap := h.seenCmdmap
  exact kept.checkGap timeNow (by omega) (by omega)

theorem learnerWithin_init (late : Bool) : LearnerWithin highest (learnerInit late) :=
  ⟨Nat.zero_le _, Nat.zero_le _, (fun _ h => nomatch h), (fun _ h => nomatch h),
    (fun _ h => nomatch h)⟩

end Learner

section Acceptor

open RingAcceptorMoves (Move Moves Saves Accepts)

/-- What an acceptor hears while `closed` is the highest closed instance. -/
def hearing (cfg : Config) (closed : ℕ) (mcast : List McastMsg) (phase2 : Phase2Msg → Prop) :
    RingAcceptorMoves.MoveCondition where
  looksUp := fun i => i ≤ windowEnd cfg closed
  hearsPhase2 := fun msg => phase2 msg ∧ msg.instNumber ≤ windowEnd cfg closed
  hearsMap := fun msg => .commandMap msg ∈ mcast

structure AcceptorWithin (cfg : Config) (closed : ℕ) (s : RingAcceptor) : Prop where
  home : ∀ slot, (s.instancesArray slot).instNumber = 0 ∨
    ssmSlot cfg (s.instancesArray slot).instNumber = slot
  reach : ∀ slot, (s.instancesArray slot).instNumber ≤ windowEnd cfg closed
  sent : ∀ msg ∈ s.toSuccessor, RingWithin (windowEnd cfg closed) msg
  overwrote : ∀ i, .overwrote i ∈ s.history → i ≤ closed

variable {cfg : Config} {closed closed' : ℕ} {mcast mcast' : List McastMsg}
  {phase2 : Phase2Msg → Prop} {s t : RingAcceptor} {ir : InstanceRecord}

theorem AcceptorWithin.mono (h : AcceptorWithin cfg closed s) (le : closed ≤ closed') :
    AcceptorWithin cfg closed' s where
  home := h.home
  reach := fun slot => (h.reach slot).trans (windowEnd_mono le)
  sent := fun msg hmsg => (h.sent msg hmsg).mono (windowEnd_mono le)
  overwrote := fun i hi => (h.overwrote i hi).trans le

theorem AcceptorWithin.withRecord (h : AcceptorWithin cfg closed s) {slot : ℕ}
    (home : ir.instNumber = 0 ∨ ssmSlot cfg ir.instNumber = slot)
    (reach : ir.instNumber ≤ windowEnd cfg closed) :
    AcceptorWithin cfg closed (s.withRecord slot ir) where
  home := by
    intro slot'
    simp only [RingAcceptor.withRecord, setSlot_apply]
    split_ifs with here
    · exact here ▸ home
    · exact h.home slot'
  reach := by
    intro slot'
    simp only [RingAcceptor.withRecord, setSlot_apply]
    split_ifs
    · exact reach
    · exact h.reach slot'
  sent := h.sent
  overwrote := h.overwrote

theorem AcceptorWithin.does (h : AcceptorWithin cfg closed s) {deed : Deed}
    (within : ∀ i, deed = .overwrote i → i ≤ closed) : AcceptorWithin cfg closed (s.does deed) where
  home := h.home
  reach := h.reach
  sent := h.sent
  overwrote := by
    intro i hi
    rcases List.mem_cons.mp hi with here | old
    · exact within i here.symm
    · exact h.overwrote i old

theorem AcceptorWithin.move (h : AcceptorWithin cfg closed s)
    (move : Move cfg (hearing cfg closed mcast phase2) s t) : AcceptorWithin cfg closed t := by
  cases move with
  | see n => exact ⟨h.home, h.reach, h.sent, h.overwrote⟩
  | use i allowed unused => exact h.withRecord (.inr rfl) allowed
  | overwrite i allowed used older =>
    have home := (h.home (ssmSlot cfg i)).resolve_left used
    have apart := index_apart older home
    have gt := cfg.workingSet_gt
    change i ≤ windowEnd cfg closed at allowed
    change (s.record cfg i).instNumber + cfg.workingSetSize ≤ i at apart
    refine (h.does ?_).withRecord (.inr rfl) allowed
    intro j same
    cases same
    unfold windowEnd at allowed
    omega
  | promise i ballot own le =>
    have kept : AcceptorWithin cfg closed
        (s.withRecord (ssmSlot cfg i) { s.record cfg i with ballot := ballot }) :=
      h.withRecord (h.home _) (h.reach _)
    refine kept.does ?_
    intro j same
    cases same
  | forward msg named =>
    refine ⟨h.home, h.reach, List.forall_mem_cons.mpr ⟨?_, h.sent⟩, h.overwrote⟩
    cases msg with
    | phase1 msg => exact named
    | phase1Range msg => exact named
    | phase2 msg => exact named.elim
  | accept msg ir heard own le accepts =>
    have kept : AcceptorWithin cfg closed
        ((s.withRecord (ssmSlot cfg msg.instNumber)
          { ir with ballot := msg.ballot, acceptBallot := msg.ballot }).does
          (.accepted msg.instNumber msg.ballot msg.cmdKey ir.acceptedCmd)) := by
      refine AcceptorWithin.does (h.withRecord ?_ ?_) ?_
      · exact accepts.instNumber ▸ h.home _
      · exact accepts.instNumber ▸ h.reach _
      · intro j same
        cases same
    exact ⟨kept.home, kept.reach, List.forall_mem_cons.mpr ⟨heard.2, kept.sent⟩, kept.overwrote⟩
  | save msg ir heard own saves =>
    exact h.withRecord (saves.instNumber ▸ h.home _) (saves.instNumber ▸ h.reach _)

theorem acceptorWithin_init (a : ℕ) : AcceptorWithin cfg closed (regularAcceptorInit a) :=
  ⟨fun _ => .inl rfl, fun _ => Nat.zero_le _, (fun _ h => nomatch h), (fun _ h => nomatch h)⟩

end Acceptor

structure OneLife (cfg : Config) (w : RingState) : Prop where
  mcaster : Life cfg w.mcaster.state
  acceptors : ∀ a, AcceptorWithin cfg w.mcaster.state.highestClosedIid (w.acceptors a).state
  acceptorIds : ∀ a, (w.acceptors a).state.acceptorId = a
  learners : ∀ l, LearnerWithin w.mcaster.state.highestOpenIid (w.learners l).state

/-- The phase 2 messages that acceptor `a` may handle. -/
def HeardPhase2 (cfg : Config) (w : RingState) (a : ℕ) (msg : Phase2Msg) : Prop :=
  .phase2 msg ∈ ringSent cfg w a ∨ a = 2 ∧ .phase2 msg ∈ w.mcaster.state.mcast

/-- What the multicaster and acceptor `a` hear in a state. -/
def mcasterHears (cfg : Config) (w : RingState) : RingMulticasterMoves.MoveCondition :=
  oneLife cfg fun msg => .phase2 msg ∈ ringSent cfg w 1

def acceptorHears (cfg : Config) (w : RingState) (a : ℕ) : RingAcceptorMoves.MoveCondition :=
  hearing cfg w.mcaster.state.highestClosedIid w.mcaster.state.mcast (HeardPhase2 cfg w a)

variable {cfg : Config} {w : RingState} {e : RingEvent}

theorem OneLife.open_le (h : OneLife cfg w) :
    w.mcaster.state.highestOpenIid ≤ windowEnd cfg w.mcaster.state.highestClosedIid := by
  have active := h.mcaster.window.active
  unfold windowEnd
  omega

theorem OneLife.ringSent (h : OneLife cfg w) (a : ℕ) : ∀ msg ∈ ringSent cfg w a,
    RingWithin (windowEnd cfg w.mcaster.state.highestClosedIid) msg := by
  unfold RingWorld.ringSent
  split_ifs
  · exact h.mcaster.ring
  · exact (h.acceptors _).sent

theorem OneLife.meets (h : OneLife cfg w) (possible : Possible cfg w e) :
    EventMeets cfg (mcasterHears cfg w) w.mcaster e := by
  cases e with
  | periodicCheck clock =>
    have life := h.mcaster
    unfold EventMeets
    cases running : w.mcaster with
    | running s =>
      rw [running] at life
      exact ⟨life.covers, checkMeets_of_forall (fun _ _ => trivial) clock s⟩
    | aborted fault s => trivial
  | toMcaster msg clock =>
    have within := h.ringSent 1 msg possible
    cases msg with
    | phase1 msg => exact within
    | phase1Range msg => exact fun i le => le.trans within
    | phase2 msg => exact ⟨possible, within⟩
  | request l msg clock =>
    intro i hi
    obtain ⟨positive, le⟩ := (h.learners l).requests msg possible i hi
    refine ⟨le.trans h.open_le, fun t same => ⟨positive, ?_⟩⟩
    rw [same.highestOpen]
    exact le
  | _ => trivial

theorem OneLife.mcasterMoves (h : OneLife cfg w) (possible : Possible cfg w e)
    (goesOn : e ≠ .restart) : RingMulticasterMoves.Moves cfg (mcasterHears cfg w)
      w.mcaster.state (mcasterStep cfg w.mcaster e).state :=
  mcasterStep_moves (h.meets possible) goesOn

theorem OneLife.acceptorMoves (h : OneLife cfg w) (possible : Possible cfg w e) (a : ℕ) :
    RingAcceptorMoves.Moves cfg (acceptorHears cfg w a) (w.acceptors a).state
      (acceptorStep cfg a (w.acceptors a) e).state := by
  cases e with
  | toAcceptor a' msg stack =>
    change RingAcceptorMoves.Moves cfg _ _ (ite (a = a') _ (w.acceptors a)).state
    split_ifs with here
    · refine RingAcceptorMoves.Moves.bind (.refl _) fun s _ =>
        RingAcceptorMoves.onPredecessorMsg_moves s stack msg ?_
      subst here
      have within := h.ringSent a msg possible.2
      cases msg with
      | phase1 msg => exact within
      | phase1Range msg => exact fun i le => le.trans within
      | phase2 msg => exact ⟨⟨.inl possible.2, within⟩, within⟩
    · exact .refl _
  | mcastAcceptor a' msg =>
    change RingAcceptorMoves.Moves cfg _ _ (ite (a = a') _ (w.acceptors a)).state
    split_ifs with here
    · refine RingAcceptorMoves.Moves.bind (.refl _) fun s running =>
        RingAcceptorMoves.onMulticastMsg_moves s msg ?_
      have id := h.acceptorIds a
      rw [running] at id
      change s.acceptorId = a at id
      have within := h.mcaster.mcast msg possible.2
      have opened := h.open_le
      cases msg with
      | commandMap msg => exact ⟨possible.2, within.2.1.trans opened⟩
      | acceptance msg => trivial
      | phase2 msg =>
        intro second
        have le := within.2.1.trans opened
        exact ⟨⟨.inr ⟨id ▸ second, possible.2⟩, le⟩, le⟩
    · exact .refl _
  | _ => exact .refl _

theorem OneLife.learnerStep (h : OneLife cfg w) (possible : Possible cfg w e) (l : ℕ) :
    LearnerWithin w.mcaster.state.highestOpenIid (learnerStep cfg l (w.learners l) e).state := by
  have within := h.learners l
  cases e with
  | mcastLearner l' msg =>
    change LearnerWithin _ (ite (l = l') _ (w.learners l)).state
    split_ifs
    · exact Outcome.bind_kept within fun q _ kept => kept.onMcastMsg (h.mcaster.mcast msg possible)
    · exact within
  | deliverLoop l' =>
    change LearnerWithin _ (ite (l = l') _ (w.learners l)).state
    split_ifs
    · exact Outcome.bind_kept within fun q _ kept => kept.of_asks (dqDeliverLoop_asks q)
    · exact within
  | gapCheck l' timeNow =>
    change LearnerWithin _ (ite (l = l') _ (w.learners l)).state
    split_ifs
    · exact Outcome.bind_kept within fun q _ kept => kept.periodicCheck timeNow
    · exact within
  | _ => exact within

theorem oneLife_step (h : OneLife cfg w) (e : RingEvent) (goesOn : e ≠ .restart) :
    OneLife cfg (ringStep cfg w e) := by
  unfold ringStep
  split_ifs with possible
  · have moves := h.mcasterMoves possible goesOn
    obtain ⟨mcaster, highest⟩ := h.mcaster.moves moves
    refine ⟨mcaster, fun a => ?_, fun a => ?_, fun l => (h.learnerStep possible l).mono highest⟩
    · refine AcceptorWithin.mono ?_ moves.closed_le
      exact (h.acceptorMoves possible a).invariant _ (fun _ _ kept move => kept.move move)
        (h.acceptors a)
    · exact (h.acceptorMoves possible a).invariant (fun s => s.acceptorId = a)
        (fun _ _ kept move => by cases move <;> exact kept) (h.acceptorIds a)
  · exact h

theorem oneLife_init (cfg : Config) (late : ℕ → Bool) : OneLife cfg (ringInit late) :=
  ⟨life_init cfg, acceptorWithin_init, fun _ => rfl, fun l => learnerWithin_init (late l)⟩

theorem oneLife_run (cfg : Config) (late : ℕ → Bool) (events : List RingEvent)
    (goesOn : ∀ e ∈ events, e ≠ .restart) :
    OneLife cfg (run (ringStep cfg) (ringInit late) events) :=
  Along.invariant (OneLife cfg) (oneLife_init cfg late) (fun _ e h goesOn => oneLife_step h e goesOn)
    (along_of_mem fun e he _ => goesOn e he)

/-- The windows keep their sizes, and no instance that is open loses its record. -/
structure WindowsKept (cfg : Config) (w : RingState) : Prop where
  closed_le : w.mcaster.state.highestClosedIid ≤ w.mcaster.state.highestOpenIid
  active : w.mcaster.state.highestOpenIid - w.mcaster.state.highestClosedIid ≤
    cfg.maxActiveInstances
  open_le : w.mcaster.state.highestOpenIid ≤ w.mcaster.state.p1HighestOpen
  preexecuted : w.mcaster.state.p1HighestOpen - w.mcaster.state.highestOpenIid ≤
    cfg.preexecutionWindowSize
  replaced : ∀ r ∈ w.mcaster.state.replaced, r.mir.status = .done ∧ r.mir.instNumber ≤ r.closed
  overwrote : ∀ a i, .overwrote i ∈ (w.acceptors a).state.history →
    i ≤ w.mcaster.state.highestClosedIid

theorem windows_never_evict (cfg : Config) (late : ℕ → Bool) (events : List RingEvent)
    (goesOn : ∀ e ∈ events, e ≠ .restart) :
    WindowsKept cfg (run (ringStep cfg) (ringInit late) events) := by
  have life := oneLife_run cfg late events goesOn
  obtain ⟨closed_le, active, counted, preexecuted⟩ := life.mcaster.window
  exact
    { closed_le := closed_le
      active := by omega
      open_le := by omega
      preexecuted := by omega
      replaced := life.mcaster.replaced
      overwrote := fun a i => (life.acceptors a).overwrote i }

theorem windows_kept_first_chosen :
    WindowsKept .small (run (ringStep .small) (ringInit fun _ => false) (chooseFirst [7])) :=
  windows_never_evict .small _ _ (by simp [chooseFirst])

end FdsPaxos.RingOneLife
