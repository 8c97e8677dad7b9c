import FdsPaxos.RingAcceptorSafety
import FdsPaxos.RingOneLife
import FdsPaxos.RingRecordSteps

set_option autoImplicit false

namespace FdsPaxos.RingSentGrowth
open TransitionRuns RingConfig RingMessages RingStableStorage RingMcasterStorage RingMulticaster
open RingDeliveryQueue RingWorld
open RingMulticasterMoves (requested)

section Multicaster

open RingMulticasterMoves RingRecordSteps

variable {cfg : Config} {C : MoveCondition} {s t : Mcaster}

structure McasterGrows (s t : Mcaster) : Prop where
  mcast : s.mcast <:+ t.mcast
  ring : s.toSuccessor <:+ t.toSuccessor

theorem McasterGrows.trans {u : Mcaster} (h : McasterGrows s t) (h' : McasterGrows t u) :
    McasterGrows s u :=
  ⟨h.mcast.trans h'.mcast, h.ring.trans h'.ring⟩

theorem mcasterReplace_grows (s : Mcaster) (slot : ℕ) (key : CommandId) (value : Value) :
    McasterGrows s (mcasterStorageReplaceAssignedValue s slot key value) := by
  unfold mcasterStorageReplaceAssignedValue
  dsimp only
  split
  · exact ⟨List.suffix_refl _, List.suffix_refl _⟩
  · split_ifs <;> exact ⟨List.suffix_refl _, List.suffix_refl _⟩

theorem mcasterPromised_grows (s : Mcaster) (msg : Phase1Msg) (slot : ℕ) :
    McasterGrows s (mcasterPromised cfg s msg slot) := by
  have replaced := mcasterReplace_grows
    (s.withRecord slot { s.instancesArray slot with status := .p1Done })
    slot msg.cmdKey msg.cmdValue
  unfold mcasterPromised
  dsimp only
  split_ifs
  · exact ⟨List.suffix_refl _, List.suffix_refl _⟩
  · exact ⟨List.suffix_cons _ _, List.suffix_refl _⟩
  · exact ⟨List.suffix_cons _ _, List.suffix_refl _⟩
  · exact ⟨replaced.mcast.trans (List.suffix_cons _ _), replaced.ring⟩

theorem Move.grows (move : Move cfg C s t) : McasterGrows s t := by
  cases move with
  | quiet h =>
    rw [← h]
    exact ⟨List.suffix_refl _, List.suffix_refl _⟩
  | promised msg slot pending => exact mcasterPromised_grows s msg slot
  | startP2 value allowed next | repeatP2 slot pending =>
    exact ⟨(List.suffix_cons _ _).trans (List.suffix_cons _ _), List.suffix_refl _⟩
  | complete slot msg returned h => exact ⟨List.suffix_cons _ _, List.suffix_refl _⟩
  | repeatMap i allowed own => exact ⟨List.suffix_cons _ _, List.suffix_refl _⟩
  | repeatAcceptance slot done => exact ⟨List.suffix_cons _ _, List.suffix_refl _⟩
  | sendPhase1 slot msg own => exact ⟨List.suffix_refl _, List.suffix_cons _ _⟩
  | sendRange msg allowed => exact ⟨List.suffix_refl _, List.suffix_cons _ _⟩
  | take | phase1 | opened | advance => exact ⟨List.suffix_refl _, List.suffix_refl _⟩

theorem mcasterStep_grows (cfg : Config) (o : McasterOutcome) (e : RingEvent) :
    McasterGrows o.state (mcasterStep cfg o e).state := by
  by_cases again : e = .restart
  · subst again
    exact ⟨List.suffix_refl _, List.suffix_refl _⟩
  · exact (mcasterStep_anything o e again).invariant (McasterGrows o.state)
      (fun _ _ grown move => grown.trans (Move.grows move))
      ⟨List.suffix_refl _, List.suffix_refl _⟩

end Multicaster

section Acceptor

open RingAcceptorMoves RingAcceptorSafety

variable {cfg : Config} {C : MoveCondition} {s t : RingAcceptor}

theorem Move.sent_suffix (move : RingAcceptorMoves.Move cfg C s t) :
    s.toSuccessor <:+ t.toSuccessor := by
  cases move with
  | forward msg named => exact List.suffix_cons _ _
  | accept msg ir heard own le h => exact List.suffix_cons _ _
  | see | use | overwrite | promise | save => exact List.suffix_refl _

theorem acceptorStep_grows (cfg : Config) (a : ℕ) (o : AcceptorOutcome) (e : RingEvent) :
    o.state.toSuccessor <:+ (acceptorStep cfg a o e).state.toSuccessor :=
  (acceptorStep_moves cfg a o e).invariant (fun t => o.state.toSuccessor <:+ t.toSuccessor)
    (fun _ _ grown move => grown.trans (Move.sent_suffix move)) (List.suffix_refl _)

end Acceptor

/-- A learner whose requests are those in `old` and later ones, none of them too long. -/
structure Asking (old : List Request) (q : Learner) : Prop where
  grows : old <:+ q.requests
  missingCmd : q.missingCmdRequest.length < repeatRequestMaxEntries
  missingAcc : q.missingAccRequest.length < repeatRequestMaxEntries
  short : ∀ msg ∈ q.requests, (requested msg).length ≤ repeatRequestMaxEntries

open RingOneLife

variable {queueSize : ℕ} {old : List Request} {q r : Learner} {i : ℕ}

theorem Asking.of_asks (h : Asking old q) (same : asks r = asks q) : Asking old r := by
  simp only [asks, Prod.mk.injEq] at same
  obtain ⟨-, -, cmd, acc, requests⟩ := same
  exact ⟨requests ▸ h.grows, cmd ▸ h.missingCmd, acc ▸ h.missingAcc, requests ▸ h.short⟩

theorem Asking.same (h : Asking old q) (cmd : r.missingCmdRequest = q.missingCmdRequest)
    (acc : r.missingAccRequest = q.missingAccRequest) (requests : r.requests = q.requests) :
    Asking old r :=
  ⟨requests ▸ h.grows, cmd ▸ h.missingCmd, acc ▸ h.missingAcc, requests ▸ h.short⟩

theorem Asking.onMcastMsg (h : Asking old q) (msg : McastMsg) :
    Asking old (onMcastMsg queueSize q msg).state := by
  cases msg with
  | phase2 msg => exact h
  | commandMap msg =>
    have started := h.of_asks (dqStartAt_asks q msg.instNumber)
    change Asking old (deliveryQueueHandleCommandMap queueSize q msg).state
    unfold deliveryQueueHandleCommandMap
    dsimp only
    split_ifs
    · exact started
    · have seen : Asking old { dqStartAt q msg.instNumber with
          highestSeenCmdmap := max (dqStartAt q msg.instNumber).highestSeenCmdmap
            msg.instNumber } := started.same rfl rfl rfl
      refine Outcome.bind_kept (seen.of_asks (dqGetEntry_asks _ _)) fun r _ kept => ?_
      exact kept.of_asks (dqMap_asks r msg)
  | acceptance msg =>
    have started := h.of_asks (dqStartAt_asks q msg.instNumber)
    have seen : Asking old { dqStartAt q msg.instNumber with
        highestSeenClosed := max (dqStartAt q msg.instNumber).highestSeenClosed
          msg.instNumber } := started.same rfl rfl rfl
    change Asking old (deliveryQueueHandleAcceptance queueSize q msg).state
    unfold deliveryQueueHandleAcceptance
    dsimp only
    split_ifs
    · exact seen
    · refine Outcome.bind_kept (seen.of_asks (dqGetEntry_asks _ _)) fun r _ kept => ?_
      exact kept.of_asks (dqAccept_asks r msg)

theorem Asking.missingCmdmap (h : Asking old q) (i : ℕ) : Asking old (onMissingCmdmap q i) := by
  have room := h.missingCmd
  have length : (q.missingCmdRequest ++ [i]).length = q.missingCmdRequest.length + 1 :=
    List.length_append
  unfold onMissingCmdmap
  dsimp only
  split_ifs with full
  · refine ⟨h.grows.trans (List.suffix_cons _ _), Nat.lt_of_le_of_lt (Nat.zero_le _) room,
      h.missingAcc, List.forall_mem_cons.mpr ⟨?_, h.short⟩⟩
    exact length.trans_le room
  · exact ⟨h.grows, Nat.not_le.mp full, h.missingAcc, h.short⟩

theorem Asking.missingAcceptance (h : Asking old q) (i : ℕ) :
    Asking old (onMissingAcceptance q i) := by
  have room := h.missingAcc
  have length : (q.missingAccRequest ++ [i]).length = q.missingAccRequest.length + 1 :=
    List.length_append
  unfold onMissingAcceptance
  dsimp only
  split_ifs with full
  · refine ⟨h.grows.trans (List.suffix_cons _ _), h.missingCmd,
      Nat.lt_of_le_of_lt (Nat.zero_le _) room, List.forall_mem_cons.mpr ⟨?_, h.short⟩⟩
    exact length.trans_le room
  · exact ⟨h.grows, h.missingCmd, Nat.not_le.mp full, h.short⟩

theorem Asking.checkGap (h : Asking old q) (timeNow : Timeval) (i : ℕ) :
    Asking old (dqCheckGap queueSize timeNow q i).state := by
  have mapped (q : Learner) (h : Asking old q) :
      Asking old (dqRequestMap queueSize timeNow q i) := by
    unfold dqRequestMap
    dsimp only
    split_ifs
    · exact (h.missingCmdmap i).of_asks rfl
    · exact h
  have accepted (q : Learner) (h : Asking old q) :
      Asking old (dqRequestAcceptance queueSize timeNow q i) := by
    unfold dqRequestAcceptance
    dsimp only
    split_ifs
    · exact (h.missingAcceptance i).of_asks rfl
    · exact h
  refine Outcome.bind_kept (h.of_asks (dqGetEntry_asks q i)) fun r _ kept => ?_
  split_ifs
  · exact kept
  · exact accepted _ (mapped r kept)

theorem Asking.sendMap (h : Asking old q) : Asking old (sendMapRequest q) :=
  ⟨h.grows.trans (List.suffix_cons _ _), Nat.lt_of_le_of_lt (Nat.zero_le _) h.missingCmd,
    h.missingAcc, List.forall_mem_cons.mpr ⟨h.missingCmd.le, h.short⟩⟩

theorem Asking.sendChosenval (h : Asking old q) : Asking old (sendChosenvalRequest q) :=
  ⟨h.grows.trans (List.suffix_cons _ _), h.missingCmd,
    Nat.lt_of_le_of_lt (Nat.zero_le _) h.missingAcc,
    List.forall_mem_cons.mpr ⟨h.missingAcc.le, h.short⟩⟩

theorem Asking.postDelivery (h : Asking old q) : Asking old (postDeliveryCheck q) := by
  unfold postDeliveryCheck
  dsimp only
  split_ifs
  · exact h
  · exact h.sendChosenval
  · exact h.sendMap
  · exact h.sendMap.sendChosenval

theorem Asking.periodicCheck (h : Asking old q) (timeNow : Timeval) :
    Asking old (dqPeriodicCheck queueSize timeNow q).state := by
  refine Outcome.bind_kept ?_ fun r _ kept => kept.postDelivery
  exact Outcome.fold_kept (Asking old) h fun i _ q kept => kept.checkGap timeNow i

theorem asking_init (late : Bool) : Asking [] (learnerInit late) :=
  ⟨List.nil_suffix, by simp [learnerInit, repeatRequestMaxEntries],
    by simp [learnerInit, repeatRequestMaxEntries], by simp [learnerInit]⟩

theorem Asking.step (cfg : Config) (l : ℕ) {o : LearnerOutcome} (h : Asking old o.state)
    (e : RingEvent) : Asking old (learnerStep cfg l o e).state := by
  cases e with
  | mcastLearner l' msg =>
    simp only [learnerStep]
    split_ifs
    · exact Outcome.bind_kept h fun q _ kept => kept.onMcastMsg msg
    · exact h
  | deliverLoop l' =>
    simp only [learnerStep]
    split_ifs
    · exact Outcome.bind_kept h fun q _ kept => kept.of_asks (dqDeliverLoop_asks q)
    · exact h
  | gapCheck l' timeNow =>
    simp only [learnerStep]
    split_ifs
    · exact Outcome.bind_kept h fun q _ kept => kept.periodicCheck timeNow
    · exact h
  | submit | periodicCheck | toMcaster | request | restart | toAcceptor | mcastAcceptor => exact h

theorem Asking.later (h : Asking old q) : Asking q.requests q :=
  ⟨List.suffix_refl _, h.missingCmd, h.missingAcc, h.short⟩

end FdsPaxos.RingSentGrowth
