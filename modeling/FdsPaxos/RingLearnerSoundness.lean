import FdsPaxos.RingDeliveryQueue
import Mathlib.Tactic.SplitIfs

set_option autoImplicit false

namespace FdsPaxos.RingLearnerSoundness
open TransitionRuns CircularWindow RingConfig RingMessages RingDeliveryQueue

structure EntryHeard (mcast : List McastMsg) (e : DqEntry) (cmd : Value) : Prop where
  mapping : e.hasMapping = true → .commandMap ⟨e.instNumber, e.cmdKey, cmd⟩ ∈ mcast
  final : e.hasFinalValue = true → .acceptance ⟨e.instNumber, e.cmdKey⟩ ∈ mcast
  unused : e.instNumber = 0 → e.hasMapping = false ∧ e.hasFinalValue = false

def Chosen (mcast : List McastMsg) (instNumber : ℕ) (cmd : Value) : Prop :=
  ∃ key, .commandMap ⟨instNumber, key, cmd⟩ ∈ mcast ∧ .acceptance ⟨instNumber, key⟩ ∈ mcast

structure LearnerSound (mcast : List McastMsg) (q : Learner) : Prop where
  onTime : q.lateStart = false
  entries : ∀ slot, EntryHeard mcast (q.queueArray slot) (q.cmdSlotArray slot)
  length : q.delivered.length = q.highestDelivered
  delivered : ∀ n cmd, q.delivered[n]? = some cmd → Chosen mcast (n + 1) cmd

variable {queueSize : ℕ} {mcast mcast' : List McastMsg} {q r : Learner}

theorem EntryHeard.mono {e : DqEntry} {cmd : Value} (h : EntryHeard mcast e cmd)
    (grown : ∀ msg ∈ mcast, msg ∈ mcast') : EntryHeard mcast' e cmd :=
  ⟨fun has => grown _ (h.mapping has), fun has => grown _ (h.final has), h.unused⟩

theorem LearnerSound.mono (h : LearnerSound mcast q) (grown : ∀ msg ∈ mcast, msg ∈ mcast') :
    LearnerSound mcast' q where
  onTime := h.onTime
  entries := fun slot => (h.entries slot).mono grown
  length := h.length
  delivered := by
    intro n cmd found
    obtain ⟨key, mapped, chosen⟩ := h.delivered n cmd found
    exact ⟨key, grown _ mapped, grown _ chosen⟩

theorem learnerSound_init : LearnerSound mcast (learnerInit false) where
  onTime := rfl
  entries := fun _ =>
    ⟨fun has => absurd has (by simp [learnerInit, dqClearEntry]),
      fun has => absurd has (by simp [learnerInit, dqClearEntry]), fun _ => ⟨rfl, rfl⟩⟩
  length := rfl
  delivered := by simp [learnerInit]

theorem LearnerSound.same (h : LearnerSound mcast q) (late : r.lateStart = q.lateStart)
    (entries : r.queueArray = q.queueArray) (cmds : r.cmdSlotArray = q.cmdSlotArray)
    (highest : r.highestDelivered = q.highestDelivered)
    (delivered : r.delivered = q.delivered) : LearnerSound mcast r where
  onTime := late.trans h.onTime
  entries := by
    rw [entries, cmds]
    exact h.entries
  length := by rw [delivered, highest, h.length]
  delivered := by
    rw [delivered]
    exact h.delivered

theorem LearnerSound.withEntry (h : LearnerSound mcast q) {slot : ℕ} {e : DqEntry}
    (heard : EntryHeard mcast e (q.cmdSlotArray slot)) :
    LearnerSound mcast (q.withEntry slot e) where
  onTime := h.onTime
  entries := by
    intro slot'
    change EntryHeard mcast (setSlot q.queueArray slot e slot') (q.cmdSlotArray slot')
    rw [setSlot_apply]
    split_ifs with here
    · exact here ▸ heard
    · exact h.entries slot'
  length := h.length
  delivered := h.delivered

theorem LearnerSound.saveMapping (h : LearnerSound mcast q) {slot : ℕ} {e : DqEntry}
    {msg : CmdmapMsg}
    (heard : EntryHeard mcast { e with cmdKey := msg.cmdKey, hasMapping := true } msg.cmdValue) :
    LearnerSound mcast (dqSaveMapping q slot e msg) where
  onTime := h.onTime
  entries := by
    intro slot'
    change EntryHeard mcast (setSlot q.queueArray slot _ slot')
      (setSlot q.cmdSlotArray slot msg.cmdValue slot')
    rw [setSlot_apply, setSlot_apply]
    split_ifs
    · exact heard
    · exact h.entries slot'
  length := h.length
  delivered := h.delivered

theorem dqGetEntry_running {i : ℕ} (got : dqGetEntry queueSize q i = .running r) :
    r = q.withEntry (dqSlot queueSize i) { q.entry queueSize i with instNumber := i } ∧
      ((q.entry queueSize i).instNumber = i ∨ (q.entry queueSize i).instNumber = 0) := by
  unfold dqGetEntry at got
  dsimp only at got
  split_ifs at got with range free
  cases got
  exact ⟨rfl, free⟩

theorem dqGetEntry_own {i : ℕ} (got : dqGetEntry queueSize q i = .running r) :
    (r.entry queueSize i).instNumber = i := by
  obtain ⟨rfl, -⟩ := dqGetEntry_running got
  simp [Learner.entry, Learner.withEntry]

theorem LearnerSound.getEntry (h : LearnerSound mcast q) (queueSize : ℕ) (i : ℕ) :
    LearnerSound mcast (dqGetEntry queueSize q i).state := by
  unfold dqGetEntry
  dsimp only
  split_ifs with range free
  · exact h
  · refine h.withEntry ?_
    have heard : EntryHeard mcast (q.entry queueSize i) (q.command queueSize i) := h.entries _
    rcases free with own | unused
    · obtain ⟨mapping, final, unused⟩ := heard
      rw [own] at mapping final unused
      exact ⟨mapping, final, unused⟩
    · obtain ⟨noMapping, noFinal⟩ := heard.unused unused
      exact ⟨fun has => absurd has (by simp [noMapping]),
        fun has => absurd has (by simp [noFinal]), fun _ => ⟨noMapping, noFinal⟩⟩
  · exact h

theorem LearnerSound.deliver (h : LearnerSound mcast q)
    (ready : Deliverable (q.entry queueSize (q.highestDelivered + 1)))
    (own : (q.entry queueSize (q.highestDelivered + 1)).instNumber = q.highestDelivered + 1) :
    LearnerSound mcast (dqDeliver queueSize q) := by
  have heard : EntryHeard mcast (q.entry queueSize (q.highestDelivered + 1))
    (q.command queueSize (q.highestDelivered + 1)) := h.entries _
  have chosen : Chosen mcast (q.highestDelivered + 1) (q.command queueSize (q.highestDelivered + 1)) := by
    have mapped := heard.mapping ready.1
    have final := heard.final ready.2
    rw [own] at mapped final
    exact ⟨_, mapped, final⟩
  have cleared : LearnerSound mcast
      (q.withEntry (dqSlot queueSize (q.highestDelivered + 1)) dqClearEntry) :=
    h.withEntry ⟨fun has => absurd has (by simp [dqClearEntry]),
      fun has => absurd has (by simp [dqClearEntry]), fun _ => ⟨rfl, rfl⟩⟩
  refine ⟨h.onTime, cleared.entries, ?_, ?_⟩
  · simp [dqDeliver, h.length]
  · intro n cmd found
    have found : (q.delivered ++ [q.command queueSize (q.highestDelivered + 1)])[n]? = some cmd := found
    rcases Nat.lt_or_ge n q.delivered.length with old | new
    · rw [List.getElem?_append_left old] at found
      exact h.delivered n cmd found
    · rw [List.getElem?_append_right new, List.getElem?_singleton] at found
      split_ifs at found with last
      cases found
      have here : n = q.highestDelivered := by
        have := h.length
        omega
      exact here ▸ chosen

theorem LearnerSound.deliverFrom (turns : ℕ) (h : LearnerSound mcast q)
    (own : (q.entry queueSize (q.highestDelivered + 1)).instNumber = q.highestDelivered + 1) :
    LearnerSound mcast (dqDeliverFrom queueSize turns q).state := by
  induction turns generalizing q with
  | zero => exact h
  | succ turns ih =>
    unfold dqDeliverFrom
    dsimp only
    split_ifs with ready
    · have next := h.deliver ready own
      refine Outcome.bind_kept (next.getEntry queueSize _) fun r got kept => ih kept ?_
      have own := dqGetEntry_own got
      obtain ⟨rfl, -⟩ := dqGetEntry_running got
      exact own
    · exact h

theorem LearnerSound.deliverLoop (h : LearnerSound mcast q) :
    LearnerSound mcast (dqDeliverLoop queueSize q).state := by
  refine Outcome.bind_kept (h.getEntry queueSize _) fun r got kept => kept.deliverFrom _ ?_
  have own := dqGetEntry_own got
  obtain ⟨rfl, -⟩ := dqGetEntry_running got
  exact own

theorem LearnerSound.map (h : LearnerSound mcast q) {msg : CmdmapMsg}
    (sent : .commandMap msg ∈ mcast)
    (own : (q.entry queueSize msg.instNumber).instNumber = msg.instNumber)
    (positive : msg.instNumber ≠ 0) : LearnerSound mcast (dqMap queueSize q msg).state := by
  set e := q.entry queueSize msg.instNumber with he
  have heard : EntryHeard mcast e (q.command queueSize msg.instNumber) := h.entries _
  have mapped : .commandMap ⟨e.instNumber, msg.cmdKey, msg.cmdValue⟩ ∈ mcast := own ▸ sent
  have unused : ¬ e.instNumber = 0 := own ▸ positive
  have fresh (final : e.hasFinalValue = true → msg.cmdKey = e.cmdKey) :
      LearnerSound mcast (dqSaveMapping q (dqSlot queueSize msg.instNumber) e msg) := by
    refine h.saveMapping ⟨fun _ => mapped, fun has => ?_, fun zero => absurd zero unused⟩
    have chosen := heard.final has
    rw [← final has] at chosen
    exact chosen
  unfold dqMap
  dsimp only
  rw [← he]
  split_ifs with both has key value final key
  · exact h
  · exact h
  · exact h
  · exact fresh fun final => absurd ⟨has, final⟩ both
  · exact (fresh fun _ => key).deliverLoop
  · exact h
  · exact fresh fun has => absurd has final

theorem LearnerSound.accept (h : LearnerSound mcast q) {msg : AcceptanceMsg}
    (sent : .acceptance msg ∈ mcast)
    (own : (q.entry queueSize msg.instNumber).instNumber = msg.instNumber)
    (positive : msg.instNumber ≠ 0) : LearnerSound mcast (dqAccept queueSize q msg).state := by
  set e := q.entry queueSize msg.instNumber with he
  have heard : EntryHeard mcast e (q.command queueSize msg.instNumber) := h.entries _
  have chosen : .acceptance ⟨e.instNumber, msg.cmdKey⟩ ∈ mcast := own ▸ sent
  have unused : ¬ e.instNumber = 0 := own ▸ positive
  unfold dqAccept
  dsimp only
  rw [← he]
  split_ifs with both key has key final key
  · exact h
  · exact h
  · refine LearnerSound.deliverLoop (h.withEntry ⟨heard.mapping, fun _ => ?_, fun zero =>
      absurd zero unused⟩)
    exact key ▸ chosen
  · refine h.withEntry ⟨fun has => absurd has (by simp), fun final => ?_, fun zero =>
      absurd zero unused⟩
    exact absurd ⟨has, final⟩ both
  · exact h
  · exact h
  · exact h.withEntry ⟨fun mapping => absurd mapping has, fun _ => chosen, fun zero =>
      absurd zero unused⟩

theorem LearnerSound.startAt (h : LearnerSound mcast q) (i : ℕ) : dqStartAt q i = q := by
  simp [dqStartAt, h.onTime]

theorem LearnerSound.onMcastMsg (h : LearnerSound mcast q) {msg : McastMsg}
    (sent : msg ∈ mcast) : LearnerSound mcast (onMcastMsg queueSize q msg).state := by
  cases msg with
  | phase2 msg => exact h
  | commandMap msg =>
    change LearnerSound mcast (deliveryQueueHandleCommandMap queueSize q msg).state
    unfold deliveryQueueHandleCommandMap
    rw [h.startAt]
    dsimp only
    split_ifs with ignored
    · exact h
    · have seen : LearnerSound mcast
        { q with highestSeenCmdmap := max q.highestSeenCmdmap msg.instNumber } :=
        h.same rfl rfl rfl rfl rfl
      refine Outcome.bind_kept (seen.getEntry queueSize _) fun r got kept => ?_
      refine kept.map sent (dqGetEntry_own got) ?_
      unfold dqIgnores at ignored
      omega
  | acceptance msg =>
    change LearnerSound mcast (deliveryQueueHandleAcceptance queueSize q msg).state
    unfold deliveryQueueHandleAcceptance
    rw [h.startAt]
    have seen : LearnerSound mcast
      { q with highestSeenClosed := max q.highestSeenClosed msg.instNumber } :=
      h.same rfl rfl rfl rfl rfl
    dsimp only
    split_ifs with ignored
    · exact seen
    · refine Outcome.bind_kept (seen.getEntry queueSize _) fun r got kept => ?_
      refine kept.accept sent (dqGetEntry_own got) ?_
      unfold dqIgnores at ignored
      have ignored : ¬ (_ ≤ msg.instNumber ∨ msg.instNumber ≤ q.highestDelivered) := ignored
      omega

theorem LearnerSound.missingCmdmap (h : LearnerSound mcast q) (i : ℕ) :
    LearnerSound mcast (onMissingCmdmap q i) := by
  unfold onMissingCmdmap sendMapRequest
  dsimp only
  split_ifs <;> exact h.same rfl rfl rfl rfl rfl

theorem LearnerSound.missingAcceptance (h : LearnerSound mcast q) (i : ℕ) :
    LearnerSound mcast (onMissingAcceptance q i) := by
  unfold onMissingAcceptance sendChosenvalRequest
  dsimp only
  split_ifs <;> exact h.same rfl rfl rfl rfl rfl

theorem onMissing_cmdSlotArray (q : Learner) (i : ℕ) :
    (onMissingCmdmap q i).cmdSlotArray = q.cmdSlotArray ∧
      (onMissingAcceptance q i).cmdSlotArray = q.cmdSlotArray := by
  unfold onMissingCmdmap sendMapRequest onMissingAcceptance sendChosenvalRequest
  dsimp only
  split_ifs <;> exact ⟨rfl, rfl⟩

theorem LearnerSound.requestMap (h : LearnerSound mcast q) (timeNow : Timeval) (i : ℕ) :
    LearnerSound mcast (dqRequestMap queueSize timeNow q i) := by
  have heard : EntryHeard mcast (q.entry queueSize i) (q.command queueSize i) := h.entries _
  unfold dqRequestMap
  dsimp only
  split_ifs
  · refine (h.missingCmdmap i).withEntry ?_
    rw [(onMissing_cmdSlotArray q i).1]
    exact ⟨heard.mapping, heard.final, heard.unused⟩
  · exact h

theorem LearnerSound.requestAcceptance (h : LearnerSound mcast q) (timeNow : Timeval) (i : ℕ) :
    LearnerSound mcast (dqRequestAcceptance queueSize timeNow q i) := by
  have heard : EntryHeard mcast (q.entry queueSize i) (q.command queueSize i) := h.entries _
  unfold dqRequestAcceptance
  dsimp only
  split_ifs
  · refine (h.missingAcceptance i).withEntry ?_
    rw [(onMissing_cmdSlotArray q i).2]
    exact ⟨heard.mapping, heard.final, heard.unused⟩
  · exact h

theorem LearnerSound.checkGap (h : LearnerSound mcast q) (timeNow : Timeval) (i : ℕ) :
    LearnerSound mcast (dqCheckGap queueSize timeNow q i).state := by
  refine Outcome.bind_kept (h.getEntry queueSize i) fun r _ kept => ?_
  split_ifs
  · exact kept
  · exact (kept.requestMap timeNow i).requestAcceptance timeNow i

theorem LearnerSound.postDelivery (h : LearnerSound mcast q) :
    LearnerSound mcast (postDeliveryCheck q) := by
  unfold postDeliveryCheck sendMapRequest sendChosenvalRequest
  dsimp only
  split_ifs <;> exact h.same rfl rfl rfl rfl rfl

theorem LearnerSound.periodicCheck (h : LearnerSound mcast q) (timeNow : Timeval) :
    LearnerSound mcast (dqPeriodicCheck queueSize timeNow q).state := by
  refine Outcome.bind_kept ?_ fun r _ kept => kept.postDelivery
  exact Outcome.fold_kept (LearnerSound mcast) h fun i _ q kept => kept.checkGap timeNow i

end FdsPaxos.RingLearnerSoundness
