import FdsPaxos.RingAcceptorMoves
import FdsPaxos.RingLearnerSoundness
import FdsPaxos.RingMcasterValues

set_option autoImplicit false

namespace FdsPaxos.RingValueOrigin
open TransitionRuns CircularWindow RingConfig RingMessages RingStableStorage RingMulticaster
open RingMcasterStorage RingDeliveryQueue RingWorld RingMcasterValues

variable {cfg : Config} {P : Value → Prop}

def DeedFrom (P : Value → Prop) : Deed → Prop
  | .promised _ _ | .overwrote _ => True
  | .accepted _ _ _ cmd => ∃ v, cmd = some v ∧ P v

structure InstanceFrom (P : Value → Prop) (ir : InstanceRecord) : Prop where
  accepted : ir.acceptedCmdKey ≠ clearCmdKey → ∃ v, ir.acceptedCmd = some v ∧ P v
  voted : ir.acceptBallot ≠ 0 → ir.acceptedCmdKey ≠ clearCmdKey
  proposed : ir.proposedCmdKey ≠ clearCmdKey → P ir.proposedCmd.cmd

structure AcceptorFrom (P : Value → Prop) (s : RingAcceptor) : Prop where
  records : ∀ slot, InstanceFrom P (s.instancesArray slot)
  ring : ∀ msg ∈ s.toSuccessor, RingFrom P msg
  history : ∀ deed ∈ s.history, DeedFrom P deed

section Acceptor

open RingAcceptor RingAcceptorMoves

variable {s : RingAcceptor} {ir old : InstanceRecord} {slot : ℕ}

theorem instanceFrom_clear (i : ℕ) :
    InstanceFrom P { clearInstanceRecord with instNumber := i } :=
  ⟨fun named => absurd rfl named, fun voted => absurd rfl voted, fun named => absurd rfl named⟩

theorem AcceptorFrom.withRecord (h : AcceptorFrom P s) (good : InstanceFrom P ir) :
    AcceptorFrom P (s.withRecord slot ir) := by
  refine ⟨fun slot' => ?_, h.ring, h.history⟩
  change InstanceFrom P (setSlot s.instancesArray slot ir slot')
  rw [setSlot_apply]
  split_ifs
  · exact good
  · exact h.records slot'

theorem AcceptorFrom.send (h : AcceptorFrom P s) {msg : RingMsg} (good : RingFrom P msg) :
    AcceptorFrom P (s.send msg) :=
  ⟨h.records, List.forall_mem_cons.mpr ⟨good, h.ring⟩, h.history⟩

theorem AcceptorFrom.does (h : AcceptorFrom P s) {deed : Deed} (good : DeedFrom P deed) :
    AcceptorFrom P (s.does deed) :=
  ⟨h.records, h.ring, List.forall_mem_cons.mpr ⟨good, h.history⟩⟩

theorem AcceptorFrom.see (h : AcceptorFrom P s) (n : ℕ) :
    AcceptorFrom P { s with highestInstanceSeen := n } :=
  ⟨h.records, h.ring, h.history⟩

theorem AcceptorFrom.promises (h : AcceptorFrom P s) (i : ℕ) (ballot : Ballot) :
    AcceptorFrom P (promise cfg s i ballot) := by
  have good : InstanceFrom P (s.record cfg i) := h.records _
  have nothing : DeedFrom P (.promised i ballot) := trivial
  apply AcceptorFrom.does _ nothing
  exact h.withRecord ⟨good.accepted, good.voted, good.proposed⟩

theorem AcceptorFrom.get (h : AcceptorFrom P s) (i : ℕ) :
    AcceptorFrom P (ssmGetRecord cfg s i).state := by
  rcases ssmGetRecord_cases cfg s i with ⟨-, got⟩ | ⟨-, got⟩ | ⟨unused, got⟩ | ⟨used, older, got⟩
  · rw [got]
    exact h
  · rw [got]
    exact h
  · rw [got]
    have good : InstanceFrom P (s.record cfg i) := h.records _
    exact h.withRecord ⟨good.accepted, good.voted, good.proposed⟩
  · rw [got]
    have nothing : DeedFrom P (.overwrote (s.record cfg i).instNumber) := trivial
    exact (h.does nothing).withRecord (instanceFrom_clear i)

theorem AcceptorFrom.phase1 (h : AcceptorFrom P s) {msg : Phase1Msg}
    (heard : ReportFrom P msg) (stack : Phase1Stack) :
    AcceptorFrom P (acceptorHandlePhase1Msg cfg s msg stack).state := by
  refine Outcome.bind_kept (h.get msg.instNumber) fun t _ kept => ?_
  have good : InstanceFrom P (t.record cfg msg.instNumber) := kept.records _
  dsimp only
  by_cases lower : msg.ballot < (t.record cfg msg.instNumber).ballot
  · rw [if_pos lower]
    apply kept.send
    exact ⟨heard.accepted, heard.fresh⟩
  · rw [if_neg lower]
    have promised : AcceptorFrom P
        (promise cfg (seeInstance t msg.instNumber) msg.instNumber msg.ballot) :=
      (kept.see _).promises _ _
    split_ifs with known
    · apply promised.send
      exact ⟨heard.accepted, heard.fresh⟩
    · have voted : (t.record cfg msg.instNumber).acceptBallot ≠ 0 := by
        intro zero
        exact known (zero ▸ UInt32.zero_le)
      obtain ⟨v, accepted, origin⟩ := good.accepted (good.voted voted)
      apply promised.send
      refine ⟨fun _ => ⟨good.voted voted, ?_⟩, fun fresh => absurd fresh voted⟩
      change P ((t.record cfg msg.instNumber).acceptedCmd.getD [])
      rw [accepted]
      exact origin

theorem AcceptorFrom.phase1Range (h : AcceptorFrom P s) (msg : Phase1RangeMsg)
    (stack : ℕ → Phase1Stack) :
    AcceptorFrom P (acceptorHandlePhase1RangeMsg cfg s msg stack).state := by
  unfold acceptorHandlePhase1RangeMsg
  split_ifs with unseen
  · refine Outcome.bind_kept ?_ fun t _ kept => ?_
    · refine Outcome.fold_kept (AcceptorFrom P) (h.see _) fun i _ s kept => ?_
      refine Outcome.bind_kept (kept.get i) fun t _ kept => ?_
      dsimp only
      split_ifs
      · exact kept.promises i msg.ballot
      · exact kept
    · apply kept.send
      trivial
  · refine Outcome.fold_kept (AcceptorFrom P) h fun i _ s kept => ?_
    exact kept.phase1 ⟨fun accepted => absurd rfl accepted, fun _ => ⟨rfl, rfl⟩⟩ _

theorem InstanceFrom.accepts (h : InstanceFrom P old) {msg : Phase2Msg}
    (named : msg.cmdKey ≠ clearCmdKey) (accepts : Accepts old msg ir) :
    ir.acceptedCmdKey = msg.cmdKey ∧ (∃ v, ir.acceptedCmd = some v ∧ P v) ∧
      (ir.proposedCmdKey ≠ clearCmdKey → P ir.proposedCmd.cmd) := by
  cases accepts with
  | again key other none => exact ⟨key.symm, h.accepted (key ▸ named), h.proposed⟩
  | againFreed key other own =>
    exact ⟨key.symm, h.accepted (key ▸ named), fun clear => absurd rfl clear⟩
  | first key other none slot =>
    have good := h.proposed (key ▸ named)
    rw [slot] at good
    exact ⟨key.symm, ⟨_, rfl, good⟩, fun clear => absurd rfl clear⟩
  | replaced key other accepted own =>
    have good := h.proposed (key ▸ named)
    rw [own] at good
    exact ⟨key.symm, ⟨_, rfl, good⟩, fun clear => absurd rfl clear⟩

theorem AcceptorFrom.store (h : AcceptorFrom P s) {msg : Phase2Msg}
    (named : msg.cmdKey ≠ clearCmdKey) (good : InstanceFrom P old) (accepts : Accepts old msg ir) :
    AcceptorFrom P (acceptorP2StoreAndSend cfg s msg ir).state := by
  obtain ⟨key, accepted, proposed⟩ := good.accepts named accepts
  have keyed : ir.acceptedCmdKey ≠ clearCmdKey := key ▸ named
  have stored : InstanceFrom P { ir with ballot := msg.ballot, acceptBallot := msg.ballot } :=
    ⟨fun _ => accepted, fun _ => keyed, proposed⟩
  have deed : DeedFrom P (.accepted msg.instNumber msg.ballot msg.cmdKey ir.acceptedCmd) :=
    accepted
  have sent : RingFrom P (.phase2 { msg with acceptsCount := msg.acceptsCount + 1 }) := named
  exact ((h.withRecord stored).does deed).send sent

theorem AcceptorFrom.phase2 (h : AcceptorFrom P s) {msg : Phase2Msg}
    (named : msg.cmdKey ≠ clearCmdKey) :
    AcceptorFrom P (acceptorHandlePhase2Msg cfg s msg).state := by
  refine Outcome.bind_kept (h.get msg.instNumber) fun t _ kept => ?_
  dsimp only
  split_ifs with lower
  · exact kept
  · rcases acceptorAccept_cases cfg t msg (t.record cfg msg.instNumber) with
      ⟨fault, stopped | stopped⟩ | dropped | ⟨ir, accepts, stores⟩
    · rw [stopped]
      exact kept
    · rw [stopped]
      exact kept.see _
    · rw [dropped]
      exact kept
    · rw [stores]
      exact (kept.see _).store named (kept.records _) accepts

theorem InstanceFrom.saves (h : InstanceFrom P old) {msg : CmdmapMsg} (heard : MappingFrom P msg)
    (saves : Saves old msg ir) : InstanceFrom P ir := by
  cases saves with
  | forget own => exact ⟨h.accepted, h.voted, fun clear => absurd rfl clear⟩
  | inSlot none => exact ⟨h.accepted, h.voted, heard.named⟩
  | secondary accepted other => exact ⟨h.accepted, h.voted, heard.named⟩

theorem AcceptorFrom.cmdmap (h : AcceptorFrom P s) {msg : CmdmapMsg} (heard : MappingFrom P msg) :
    AcceptorFrom P (acceptorHandleCmdmapMsg cfg s msg).state := by
  refine Outcome.bind_kept (h.get msg.instNumber) fun t _ kept => ?_
  rcases acceptorSaveMap_cases cfg t msg (t.record cfg msg.instNumber) with
    ⟨fault, stopped⟩ | same | ⟨ir, saves, stores⟩
  · rw [stopped]
    exact kept
  · rw [same]
    exact kept
  · rw [stores]
    exact kept.withRecord (InstanceFrom.saves (kept.records _) heard saves)

theorem AcceptorFrom.onPredecessorMsg (h : AcceptorFrom P s) {msg : RingMsg}
    (heard : RingFrom P msg) (stack : ℕ → Phase1Stack) :
    AcceptorFrom P (RingAcceptor.onPredecessorMsg cfg s stack msg).state := by
  cases msg with
  | phase1 msg => exact h.phase1 heard _
  | phase1Range msg => exact h.phase1Range msg stack
  | phase2 msg => exact h.phase2 heard

theorem AcceptorFrom.onMulticastMsg (h : AcceptorFrom P s) {msg : McastMsg}
    (heard : McastFrom P msg) : AcceptorFrom P (onMulticastMsg cfg s msg).state := by
  cases msg with
  | commandMap msg => exact h.cmdmap heard
  | acceptance msg => exact h
  | phase2 msg =>
    change AcceptorFrom P (ite _ _ _ : AcceptorOutcome).state
    split_ifs
    · exact h.phase2 heard
    · exact h

theorem acceptorFrom_init (a : ℕ) : AcceptorFrom P (regularAcceptorInit a) :=
  ⟨fun _ => instanceFrom_clear 0, by simp [regularAcceptorInit], by simp [regularAcceptorInit]⟩

end Acceptor

structure EntryFrom (P : Value → Prop) (e : DqEntry) (cmd : Value) : Prop where
  mapped : e.hasMapping = true → e.cmdKey ≠ clearCmdKey → P cmd
  final : e.hasFinalValue = true → e.cmdKey ≠ clearCmdKey

structure LearnerFrom (P : Value → Prop) (q : Learner) : Prop where
  entries : ∀ slot, EntryFrom P (q.queueArray slot) (q.cmdSlotArray slot)
  delivered : ∀ v ∈ q.delivered, P v

section Learner

open RingLearnerSoundness

variable {queueSize : ℕ} {q r : Learner} {e : DqEntry} {slot : ℕ}

theorem entryFrom_clear (cmd : Value) : EntryFrom P dqClearEntry cmd :=
  ⟨fun has => absurd has (by simp [dqClearEntry]), fun has => absurd has (by simp [dqClearEntry])⟩

theorem LearnerFrom.same (h : LearnerFrom P q) (entries : r.queueArray = q.queueArray)
    (cmds : r.cmdSlotArray = q.cmdSlotArray) (delivered : r.delivered = q.delivered) :
    LearnerFrom P r := by
  constructor
  · rw [entries, cmds]
    exact h.entries
  · rw [delivered]
    exact h.delivered

theorem LearnerFrom.withEntry (h : LearnerFrom P q) (good : EntryFrom P e (q.cmdSlotArray slot)) :
    LearnerFrom P (q.withEntry slot e) := by
  refine ⟨fun slot' => ?_, h.delivered⟩
  change EntryFrom P (setSlot q.queueArray slot e slot') (q.cmdSlotArray slot')
  rw [setSlot_apply]
  split_ifs with here
  · exact here ▸ good
  · exact h.entries slot'

theorem LearnerFrom.saveMapping (h : LearnerFrom P q) {msg : CmdmapMsg}
    (good : EntryFrom P { e with cmdKey := msg.cmdKey, hasMapping := true } msg.cmdValue) :
    LearnerFrom P (dqSaveMapping q slot e msg) := by
  refine ⟨fun slot' => ?_, h.delivered⟩
  change EntryFrom P (setSlot q.queueArray slot _ slot')
    (setSlot q.cmdSlotArray slot msg.cmdValue slot')
  rw [setSlot_apply, setSlot_apply]
  split_ifs
  · exact good
  · exact h.entries slot'

theorem LearnerFrom.getEntry (h : LearnerFrom P q) (i : ℕ) :
    LearnerFrom P (dqGetEntry queueSize q i).state := by
  unfold dqGetEntry
  dsimp only
  split_ifs
  · exact h
  · have good : EntryFrom P (q.entry queueSize i) (q.command queueSize i) := h.entries _
    exact h.withEntry ⟨good.mapped, good.final⟩
  · exact h

theorem LearnerFrom.deliver (h : LearnerFrom P q)
    (ready : Deliverable (q.entry queueSize (q.highestDelivered + 1))) :
    LearnerFrom P (dqDeliver queueSize q) := by
  have good : EntryFrom P (q.entry queueSize (q.highestDelivered + 1))
    (q.command queueSize (q.highestDelivered + 1)) := h.entries _
  have cleared : LearnerFrom P
    (q.withEntry (dqSlot queueSize (q.highestDelivered + 1)) dqClearEntry) :=
    h.withEntry (entryFrom_clear _)
  refine ⟨cleared.entries, fun v told => ?_⟩
  rcases List.mem_append.mp told with old | new
  · exact h.delivered v old
  · rw [List.mem_singleton.mp new]
    exact good.mapped ready.1 (good.final ready.2)

theorem LearnerFrom.deliverLoop (h : LearnerFrom P q) :
    LearnerFrom P (dqDeliverLoop queueSize q).state := by
  have turns (n : ℕ) (q : Learner) (h : LearnerFrom P q) :
      LearnerFrom P (dqDeliverFrom queueSize n q).state := by
    induction n generalizing q with
    | zero => exact h
    | succ n ih =>
      unfold dqDeliverFrom
      dsimp only
      split_ifs with ready
      · exact Outcome.bind_kept ((h.deliver ready).getEntry _) fun r _ kept => ih r kept
      · exact h
  exact Outcome.bind_kept (h.getEntry _) fun r _ kept => turns _ r kept

theorem LearnerFrom.map (h : LearnerFrom P q) {msg : CmdmapMsg} (heard : MappingFrom P msg) :
    LearnerFrom P (dqMap queueSize q msg).state := by
  set e := q.entry queueSize msg.instNumber with he
  have good : EntryFrom P e (q.command queueSize msg.instNumber) := h.entries _
  have fresh (final : e.hasFinalValue = true → msg.cmdKey = e.cmdKey) :
      LearnerFrom P (dqSaveMapping q (dqSlot queueSize msg.instNumber) e msg) := by
    refine h.saveMapping ⟨fun _ => heard.named, fun has => ?_⟩
    change msg.cmdKey ≠ clearCmdKey
    rw [final has]
    exact good.final has
  unfold dqMap
  dsimp only
  rw [← he]
  split_ifs with both has key value final key
  · exact h
  · exact h
  · exact h
  · exact fresh fun final => absurd ⟨has, final⟩ both
  · exact (fresh fun _ => key).deliverLoop
  · exact h
  · exact fresh fun has => absurd has final

theorem LearnerFrom.accept (h : LearnerFrom P q) {msg : AcceptanceMsg}
    (heard : msg.cmdKey ≠ clearCmdKey) : LearnerFrom P (dqAccept queueSize q msg).state := by
  set e := q.entry queueSize msg.instNumber with he
  have good : EntryFrom P e (q.command queueSize msg.instNumber) := h.entries _
  unfold dqAccept
  dsimp only
  rw [← he]
  split_ifs with both key has key final key
  · exact h
  · exact h
  · refine LearnerFrom.deliverLoop (h.withEntry ⟨good.mapped, fun _ => ?_⟩)
    change e.cmdKey ≠ clearCmdKey
    rw [key]
    exact heard
  · refine h.withEntry ⟨fun has => absurd has (by simp), fun final => ?_⟩
    exact absurd ⟨has, final⟩ both
  · exact h
  · exact h
  · exact h.withEntry ⟨fun mapping => absurd mapping has, fun _ => heard⟩

theorem LearnerFrom.startAt (h : LearnerFrom P q) (i : ℕ) : LearnerFrom P (dqStartAt q i) := by
  unfold dqStartAt
  split_ifs
  · exact h.same rfl rfl rfl
  · exact h

theorem LearnerFrom.onMcastMsg (h : LearnerFrom P q) {msg : McastMsg}
    (heard : McastFrom P msg) : LearnerFrom P (onMcastMsg queueSize q msg).state := by
  cases msg with
  | phase2 msg => exact h
  | commandMap msg =>
    change LearnerFrom P (deliveryQueueHandleCommandMap queueSize q msg).state
    unfold deliveryQueueHandleCommandMap
    dsimp only
    split_ifs
    · exact h.startAt _
    · have seen : LearnerFrom P { dqStartAt q msg.instNumber with
          highestSeenCmdmap := max (dqStartAt q msg.instNumber).highestSeenCmdmap
            msg.instNumber } := (h.startAt _).same rfl rfl rfl
      exact Outcome.bind_kept (seen.getEntry _) fun r _ kept => kept.map heard
  | acceptance msg =>
    have seen : LearnerFrom P { dqStartAt q msg.instNumber with
        highestSeenClosed := max (dqStartAt q msg.instNumber).highestSeenClosed
          msg.instNumber } := (h.startAt _).same rfl rfl rfl
    change LearnerFrom P (deliveryQueueHandleAcceptance queueSize q msg).state
    unfold deliveryQueueHandleAcceptance
    dsimp only
    split_ifs
    · exact seen
    · exact Outcome.bind_kept (seen.getEntry _) fun r _ kept => kept.accept heard

theorem LearnerFrom.requestMap (h : LearnerFrom P q) (timeNow : Timeval) (i : ℕ) :
    LearnerFrom P (dqRequestMap queueSize timeNow q i) := by
  have good : EntryFrom P (q.entry queueSize i) (q.command queueSize i) := h.entries _
  have asked : LearnerFrom P (onMissingCmdmap q i) := by
    unfold onMissingCmdmap sendMapRequest
    dsimp only
    split_ifs <;> exact h.same rfl rfl rfl
  unfold dqRequestMap
  dsimp only
  split_ifs
  · apply asked.withEntry
    rw [(onMissing_cmdSlotArray q i).1]
    exact ⟨good.mapped, good.final⟩
  · exact h

theorem LearnerFrom.requestAcceptance (h : LearnerFrom P q) (timeNow : Timeval) (i : ℕ) :
    LearnerFrom P (dqRequestAcceptance queueSize timeNow q i) := by
  have good : EntryFrom P (q.entry queueSize i) (q.command queueSize i) := h.entries _
  have asked : LearnerFrom P (onMissingAcceptance q i) := by
    unfold onMissingAcceptance sendChosenvalRequest
    dsimp only
    split_ifs <;> exact h.same rfl rfl rfl
  unfold dqRequestAcceptance
  dsimp only
  split_ifs
  · apply asked.withEntry
    rw [(onMissing_cmdSlotArray q i).2]
    exact ⟨good.mapped, good.final⟩
  · exact h

theorem LearnerFrom.periodicCheck (h : LearnerFrom P q) (timeNow : Timeval) :
    LearnerFrom P (dqPeriodicCheck queueSize timeNow q).state := by
  refine Outcome.bind_kept ?_ fun r _ kept => ?_
  · refine Outcome.fold_kept (LearnerFrom P) h fun i _ q kept => ?_
    refine Outcome.bind_kept (kept.getEntry i) fun r _ kept => ?_
    split_ifs
    · exact kept
    · exact (kept.requestMap timeNow i).requestAcceptance timeNow i
  · change LearnerFrom P (postDeliveryCheck r)
    unfold postDeliveryCheck sendMapRequest sendChosenvalRequest
    dsimp only
    split_ifs <;> exact kept.same rfl rfl rfl

theorem learnerFrom_init (late : Bool) : LearnerFrom P (learnerInit late) :=
  ⟨fun _ => entryFrom_clear _, by simp [learnerInit]⟩

end Learner

structure WorldFrom (P : Value → Prop) (w : RingState) : Prop where
  mcaster : McasterFrom P w.mcaster.state
  acceptors : ∀ a, AcceptorFrom P (w.acceptors a).state
  learners : ∀ l, LearnerFrom P (w.learners l).state

/-- The value that an event brings from a client, if any. -/
def submittedBy : RingEvent → Option Value
  | .submit value => some value
  | _ => none

def submitted (events : List RingEvent) : List Value := events.filterMap submittedBy

section World

variable {w : RingState} {e : RingEvent}

theorem worldFrom_init (late : ℕ → Bool) : WorldFrom P (ringInit late) :=
  ⟨mcasterFrom_init, acceptorFrom_init, fun l => learnerFrom_init (late l)⟩

theorem WorldFrom.sent (h : WorldFrom P w) (a : ℕ) : ∀ msg ∈ ringSent cfg w a, RingFrom P msg := by
  unfold ringSent
  split_ifs
  · exact h.mcaster.ring
  · exact (h.acceptors _).ring

theorem WorldFrom.mcasterStep (h : WorldFrom P w) (possible : Possible cfg w e)
    (submits : ∀ v, submittedBy e = some v → P v) :
    McasterFrom P (mcasterStep cfg w.mcaster e).state := by
  have same (timeNow : Timeval) {s : Mcaster} (good : McasterFrom P s) :
      McasterFrom P (mcasterUpdateWallclock s timeNow) := good.same rfl rfl rfl rfl
  cases e with
  | submit value =>
    exact Outcome.bind_kept h.mcaster fun s _ good => good.submit (submits value rfl)
  | periodicCheck clock =>
    exact Outcome.bind_kept h.mcaster fun s _ good => good.periodicCheck clock
  | toMcaster msg clock =>
    exact Outcome.bind_kept h.mcaster fun s _ good =>
      (same clock good).onPredecessorMsg (h.sent 1 msg possible)
  | request l msg clock =>
    exact Outcome.bind_kept h.mcaster fun s _ good => (same clock good).request msg
  | restart => exact h.mcaster.restart
  | toAcceptor | mcastAcceptor | mcastLearner | deliverLoop | gapCheck => exact h.mcaster

theorem WorldFrom.acceptorStep (h : WorldFrom P w) (possible : Possible cfg w e) (a : ℕ) :
    AcceptorFrom P (acceptorStep cfg a (w.acceptors a) e).state := by
  cases e with
  | toAcceptor a' msg stack =>
    simp only [RingWorld.acceptorStep]
    split_ifs with here
    · exact Outcome.bind_kept (h.acceptors a) fun s _ good =>
        good.onPredecessorMsg (h.sent a' msg possible.2) stack
    · exact h.acceptors a
  | mcastAcceptor a' msg =>
    simp only [RingWorld.acceptorStep]
    split_ifs
    · exact Outcome.bind_kept (h.acceptors a) fun s _ good =>
        good.onMulticastMsg (h.mcaster.mcast msg possible.2)
    · exact h.acceptors a
  | submit | periodicCheck | toMcaster | request | restart | mcastLearner | deliverLoop
  | gapCheck => exact h.acceptors a

theorem WorldFrom.learnerStep (h : WorldFrom P w) (possible : Possible cfg w e) (l : ℕ) :
    LearnerFrom P (learnerStep cfg l (w.learners l) e).state := by
  cases e with
  | mcastLearner l' msg =>
    simp only [RingWorld.learnerStep]
    split_ifs
    · exact Outcome.bind_kept (h.learners l) fun q _ good =>
        good.onMcastMsg (h.mcaster.mcast msg possible)
    · exact h.learners l
  | deliverLoop l' =>
    simp only [RingWorld.learnerStep]
    split_ifs
    · exact Outcome.bind_kept (h.learners l) fun q _ good => good.deliverLoop
    · exact h.learners l
  | gapCheck l' timeNow =>
    simp only [RingWorld.learnerStep]
    split_ifs
    · exact Outcome.bind_kept (h.learners l) fun q _ good => good.periodicCheck timeNow
    · exact h.learners l
  | submit | periodicCheck | toMcaster | request | restart | toAcceptor | mcastAcceptor =>
    exact h.learners l

theorem worldFrom_step (h : WorldFrom P w) (e : RingEvent)
    (submits : ∀ v, submittedBy e = some v → P v) : WorldFrom P (ringStep cfg w e) := by
  unfold ringStep
  split_ifs with possible
  · exact ⟨h.mcasterStep possible submits, h.acceptorStep possible, h.learnerStep possible⟩
  · exact h

theorem worldFrom_run (cfg : Config) (late : ℕ → Bool) (events : List RingEvent) :
    WorldFrom (· ∈ submitted events) (run (ringStep cfg) (ringInit late) events) := by
  have all : Along (ringStep cfg) (fun _ e => ∀ v, submittedBy e = some v → v ∈ submitted events)
      (ringInit late) events :=
    along_of_mem fun e he _ v brought => List.mem_filterMap.mpr ⟨e, he, brought⟩
  exact all.invariant (WorldFrom (· ∈ submitted events)) (worldFrom_init late)
    fun _ e h submits => worldFrom_step h e submits

end World

/-- In every run, with any number of restarts and whether or not the learners agree: what a
learner delivers, what an acceptor accepts and what is mapped to a key was submitted by a
client in that run, but for the empty value under the clear key. -/
theorem ring_values_were_submitted (cfg : Config) (late : ℕ → Bool) (events : List RingEvent) :
    let w := run (ringStep cfg) (ringInit late) events
    (∀ l, ∀ v ∈ (w.learners l).state.delivered, v ∈ submitted events) ∧
      (∀ a i ballot key cmd, .accepted i ballot key cmd ∈ (w.acceptors a).state.history →
        ∃ v ∈ submitted events, cmd = some v) ∧
      ∀ msg, .commandMap msg ∈ w.mcaster.state.mcast →
        msg.cmdValue ∈ submitted events ∨ msg.cmdKey = clearCmdKey ∧ msg.cmdValue = [] := by
  have h := worldFrom_run cfg late events
  refine ⟨fun l => (h.learners l).delivered, fun a i ballot key cmd done => ?_, fun msg sent => ?_⟩
  · obtain ⟨v, found, good⟩ := (h.acceptors a).history _ done
    exact ⟨v, good, found⟩
  · have mapping : MappingFrom (· ∈ submitted events) msg := h.mcaster.mcast (.commandMap msg) sent
    by_cases clear : msg.cmdKey = clearCmdKey
    · exact .inr ⟨clear, mapping.clear clear⟩
    · exact .inl (mapping.named clear)

end FdsPaxos.RingValueOrigin
