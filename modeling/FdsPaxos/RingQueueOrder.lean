import FdsPaxos.RingLearnerSoundness
import Mathlib.Data.Finset.Card

set_option autoImplicit false

namespace FdsPaxos.RingQueueOrder
open TransitionRuns CircularWindow RingConfig RingMessages RingDeliveryQueue RingLearnerSoundness

inductive QueueEvent where
  | receive (msg : McastMsg)
  | deliverLoop
  | periodicCheck (timeNow : Timeval)

def queueStep (queueSize : ℕ) (o : LearnerOutcome) : QueueEvent → LearnerOutcome
  | .receive msg => o.bind fun q => onMcastMsg queueSize q msg
  | .deliverLoop => o.bind (dqDeliverLoop queueSize)
  | .periodicCheck timeNow => o.bind (dqPeriodicCheck queueSize timeNow)

def heard : QueueEvent → Option McastMsg
  | .receive msg => some msg
  | .deliverLoop | .periodicCheck _ => none

def messages (events : List QueueEvent) : List McastMsg :=
  events.filterMap heard

structure MessagesAgree (mcast : List McastMsg) : Prop where
  mapping : ∀ m m', .commandMap m ∈ mcast → .commandMap m' ∈ mcast →
    m.instNumber = m'.instNumber → m.cmdKey = m'.cmdKey → m.cmdValue = m'.cmdValue
  acceptance : ∀ m m', .acceptance m ∈ mcast → .acceptance m' ∈ mcast →
    m.instNumber = m'.instNumber → m.cmdKey = m'.cmdKey

def Waits (queueSize : ℕ) (q : Learner) : Prop :=
  ¬ Deliverable (q.entry queueSize (q.highestDelivered + 1))

/-- The entries in use are for instances of the window, each in its slot; `past` was delivered
first. -/
structure QueueOk (queueSize : ℕ) (mcast : List McastMsg) (past : List Value) (q : Learner) :
    Prop where
  sound : LearnerSound mcast q
  slots : ∀ slot, (q.queueArray slot).instNumber = 0 ∨
    dqSlot queueSize (q.queueArray slot).instNumber = slot ∧
      q.highestDelivered < (q.queueArray slot).instNumber ∧
      (q.queueArray slot).instNumber ≤ q.highestDelivered + queueSize
  past : past <+: q.delivered

variable {queueSize : ℕ} {mcast mcast' : List McastMsg} {past : List Value} {q r : Learner}

theorem QueueOk.same (h : QueueOk queueSize mcast past q) (sound : LearnerSound mcast r)
    (entries : r.queueArray = q.queueArray) (highest : r.highestDelivered = q.highestDelivered)
    (delivered : r.delivered = q.delivered) : QueueOk queueSize mcast past r where
  sound := sound
  slots := by
    rw [entries, highest]
    exact h.slots
  past := by
    rw [delivered]
    exact h.past

theorem QueueOk.withEntry (h : QueueOk queueSize mcast past q) {i : ℕ} {e : DqEntry}
    (sound : LearnerSound mcast r)
    (entries : r.queueArray = setSlot q.queueArray (dqSlot queueSize i) e)
    (highest : r.highestDelivered = q.highestDelivered) (delivered : r.delivered = q.delivered)
    (own : e.instNumber = i) (low : q.highestDelivered < i)
    (high : i ≤ q.highestDelivered + queueSize) : QueueOk queueSize mcast past r where
  sound := sound
  slots := by
    intro slot
    rw [entries, highest, setSlot_apply]
    split_ifs with here
    · rw [own]
      exact .inr ⟨here.symm, low, high⟩
    · exact h.slots slot
  past := by
    rw [delivered]
    exact h.past

theorem Waits.withEntry (h : Waits queueSize q) {slot : ℕ} {e : DqEntry}
    (entries : r.queueArray = setSlot q.queueArray slot e)
    (highest : r.highestDelivered = q.highestDelivered)
    (waits : Deliverable e → Deliverable (q.queueArray slot)) : Waits queueSize r := by
  intro ready
  unfold Learner.entry at ready
  rw [entries, highest, setSlot_apply] at ready
  split_ifs at ready with here
  · exact h (by unfold Learner.entry; exact here ▸ waits ready)
  · exact h ready

/-- The learner after `dq_get_entry` for an instance of the window. -/
def gotEntry (queueSize : ℕ) (q : Learner) (i : ℕ) : Learner :=
  q.withEntry (dqSlot queueSize i) { q.entry queueSize i with instNumber := i }

@[simp] theorem gotEntry_highestDelivered (i : ℕ) :
    (gotEntry queueSize q i).highestDelivered = q.highestDelivered := rfl

theorem gotEntry_entry (i : ℕ) : (gotEntry queueSize q i).entry queueSize i =
    { q.entry queueSize i with instNumber := i } :=
  setSlot_self _ _ _

theorem deliverable_gotEntry (i slot : ℕ) :
    Deliverable ((gotEntry queueSize q i).queueArray slot) ↔ Deliverable (q.queueArray slot) := by
  simp only [gotEntry, Learner.withEntry, setSlot_apply]
  split_ifs with here
  · subst here
    exact Iff.rfl
  · exact Iff.rfl

theorem QueueOk.getEntry_running (h : QueueOk queueSize mcast past q) {i : ℕ}
    (low : q.highestDelivered < i) (high : i ≤ q.highestDelivered + queueSize) :
    dqGetEntry queueSize q i = .running (gotEntry queueSize q i) := by
  have free : (q.entry queueSize i).instNumber = i ∨ (q.entry queueSize i).instNumber = 0 := by
    unfold Learner.entry
    rcases h.slots (dqSlot queueSize i) with unused | ⟨same, low', high'⟩
    · exact .inr unused
    · exact .inl (window_index_injective low' (by omega) low (by omega) same)
  unfold dqGetEntry
  dsimp only
  rw [if_neg (by omega), if_pos free]
  rfl

theorem QueueOk.got (h : QueueOk queueSize mcast past q) {i : ℕ} (low : q.highestDelivered < i)
    (high : i ≤ q.highestDelivered + queueSize) :
    QueueOk queueSize mcast past (gotEntry queueSize q i) := by
  have sound := h.sound.getEntry queueSize i
  rw [h.getEntry_running low high] at sound
  exact h.withEntry sound rfl rfl rfl rfl low high

def readyCount (queueSize : ℕ) (q : Learner) : ℕ :=
  ((Finset.range queueSize).filter fun slot => Deliverable (q.queueArray slot)).card

theorem readyCount_le (queueSize : ℕ) (q : Learner) : readyCount queueSize q ≤ queueSize := by
  have le := Finset.card_filter_le (Finset.range queueSize) fun slot =>
    Deliverable (q.queueArray slot)
  rwa [Finset.card_range] at le

theorem readyCount_gotEntry (i : ℕ) :
    readyCount queueSize (gotEntry queueSize q i) = readyCount queueSize q := by
  unfold readyCount
  simp only [deliverable_gotEntry]

theorem readyCount_deliver (positive : 0 < queueSize)
    (ready : Deliverable (q.entry queueSize (q.highestDelivered + 1))) :
    readyCount queueSize (dqDeliver queueSize q) < readyCount queueSize q := by
  have cleared : ¬ Deliverable dqClearEntry := by decide
  refine Finset.card_lt_card (Finset.ssubset_iff_of_subset ?_ |>.mpr ?_)
  · intro slot hslot
    obtain ⟨inRange, ready'⟩ := Finset.mem_filter.mp hslot
    simp only [dqDeliver, Learner.withEntry, setSlot_apply] at ready'
    split_ifs at ready'
    · exact absurd ready' cleared
    · exact Finset.mem_filter.mpr ⟨inRange, ready'⟩
  · refine ⟨dqSlot queueSize (q.highestDelivered + 1), ?_, fun hslot => ?_⟩
    · exact Finset.mem_filter.mpr ⟨Finset.mem_range.mpr (Nat.mod_lt _ positive), ready⟩
    · have ready' := (Finset.mem_filter.mp hslot).2
      simp only [dqDeliver, Learner.withEntry, setSlot_self] at ready'
      exact cleared ready'

theorem QueueOk.deliver (h : QueueOk queueSize mcast past q)
    (ready : Deliverable (q.entry queueSize (q.highestDelivered + 1)))
    (own : (q.entry queueSize (q.highestDelivered + 1)).instNumber = q.highestDelivered + 1) :
    QueueOk queueSize mcast past (dqDeliver queueSize q) where
  sound := h.sound.deliver ready own
  slots := by
    intro slot
    simp only [dqDeliver, Learner.withEntry, setSlot_apply]
    split_ifs with here
    · exact .inl rfl
    · rcases h.slots slot with unused | ⟨same, low, high⟩
      · exact .inl unused
      · have later : (q.queueArray slot).instNumber ≠ q.highestDelivered + 1 := by
          intro next
          rw [next] at same
          exact here same.symm
        exact .inr ⟨same, by omega, by omega⟩
  past := h.past.trans (List.prefix_append _ _)

/-- A turn delivers an entry, so the loop ends after at most as many turns as there are
entries to deliver, and more turns change nothing. -/
theorem QueueOk.deliverFrom (positive : 0 < queueSize) (turns : ℕ) {q : Learner}
    (h : QueueOk queueSize mcast past q)
    (own : (q.entry queueSize (q.highestDelivered + 1)).instNumber = q.highestDelivered + 1)
    (enough : readyCount queueSize q < turns) :
    (dqDeliverFrom queueSize turns q).Ensures
        (fun r => QueueOk queueSize mcast past r ∧ Waits queueSize r) (fun _ => False) ∧
      ∀ more, dqDeliverFrom queueSize (turns + more) q = dqDeliverFrom queueSize turns q := by
  induction turns generalizing q with
  | zero => omega
  | succ turns ih =>
    by_cases ready : Deliverable (q.entry queueSize (q.highestDelivered + 1))
    · have next := h.deliver ready own
      have low : (dqDeliver queueSize q).highestDelivered <
          (dqDeliver queueSize q).highestDelivered + 1 := by omega
      have turn (turns : ℕ) : dqDeliverFrom queueSize (turns + 1) q =
          dqDeliverFrom queueSize turns
            (gotEntry queueSize (dqDeliver queueSize q) (q.highestDelivered + 1 + 1)) := by
        rw [dqDeliverFrom, if_pos ready]
        change (dqGetEntry queueSize (dqDeliver queueSize q) _).bind _ = _
        rw [next.getEntry_running low (by omega)]
        rfl
      have fewer := readyCount_deliver positive ready
      obtain ⟨ends, same⟩ := ih (next.got low (by omega))
        (by rw [gotEntry_highestDelivered, gotEntry_entry])
        (by rw [readyCount_gotEntry]; omega)
      refine ⟨(turn turns).symm ▸ ends, fun more => ?_⟩
      rw [Nat.add_right_comm, turn, turn]
      exact same more
    · have stops (turns : ℕ) : dqDeliverFrom queueSize (turns + 1) q = .running q := by
        rw [dqDeliverFrom, if_neg ready]
      refine ⟨(stops turns).symm ▸ ⟨h, ready⟩, fun more => ?_⟩
      rw [Nat.add_right_comm, stops, stops]

theorem QueueOk.deliverLoop (positive : 0 < queueSize) (h : QueueOk queueSize mcast past q) :
    (dqDeliverLoop queueSize q).Ensures
      (fun r => QueueOk queueSize mcast past r ∧ Waits queueSize r) (fun _ => False) := by
  have low : q.highestDelivered < q.highestDelivered + 1 := by omega
  have few := readyCount_le queueSize q
  unfold dqDeliverLoop
  rw [h.getEntry_running low (by omega), Outcome.bind_running]
  refine ((h.got low (by omega)).deliverFrom positive _ ?_ ?_).1
  · rw [gotEntry_highestDelivered, gotEntry_entry]
  · rw [readyCount_gotEntry]
    omega

section Messages

abbrev Settled (queueSize : ℕ) (mcast : List McastMsg) (past : List Value) (q : Learner) : Prop :=
  QueueOk queueSize mcast past q ∧ Waits queueSize q

/-- A handler leaves the learner settled, and no assertion of the queue fails. -/
abbrev Settles (queueSize : ℕ) (mcast : List McastMsg) (past : List Value) (o : LearnerOutcome) :
    Prop :=
  o.Ensures (Settled queueSize mcast past) fun _ => False

theorem settled_gotEntry (h : Settled queueSize mcast past q) {i : ℕ}
    (low : q.highestDelivered < i) (high : i ≤ q.highestDelivered + queueSize) :
    Settled queueSize mcast past (gotEntry queueSize q i) :=
  ⟨h.1.got low high, h.2.withEntry rfl rfl fun ready => ready⟩

/-- Where messages of one instance disagree an assertion fails, with a fault in `F`. -/
structure FaultsMeet (mcast : List McastMsg) (F : QueueFault → Prop) : Prop where
  mapping : ∀ m m', .commandMap m ∈ mcast → .commandMap m' ∈ mcast →
    m.instNumber = m'.instNumber → m.cmdKey = m'.cmdKey → m.cmdValue ≠ m'.cmdValue →
      F .mappingDiffers
  acceptance : ∀ m m', .acceptance m ∈ mcast → .acceptance m' ∈ mcast →
    m.instNumber = m'.instNumber → m.cmdKey ≠ m'.cmdKey → F .keyDiffers

theorem MessagesAgree.faultsMeet (agree : MessagesAgree mcast) (F : QueueFault → Prop) :
    FaultsMeet mcast F :=
  ⟨fun m m' h h' inst key differ => absurd (agree.mapping m m' h h' inst key) differ,
    fun m m' h h' inst differ => absurd (agree.acceptance m m' h h' inst) differ⟩

variable {F : QueueFault → Prop}

theorem dqMap_settles (positive : 0 < queueSize) (faults : FaultsMeet mcast F)
    (h : Settled queueSize mcast past q) {msg : CmdmapMsg} (sent : .commandMap msg ∈ mcast)
    (own : (q.entry queueSize msg.instNumber).instNumber = msg.instNumber)
    (low : q.highestDelivered < msg.instNumber)
    (high : msg.instNumber ≤ q.highestDelivered + queueSize) :
    (dqMap queueSize q msg).Ensures (Settled queueSize mcast past) F := by
  set e := q.entry queueSize msg.instNumber with he
  have heard : EntryHeard mcast e (q.command queueSize msg.instNumber) := h.1.sound.entries _
  have mapped : .commandMap ⟨e.instNumber, msg.cmdKey, msg.cmdValue⟩ ∈ mcast := own ▸ sent
  have unused : ¬ e.instNumber = 0 := by omega
  have saved (final : e.hasFinalValue = true → msg.cmdKey = e.cmdKey) :
      QueueOk queueSize mcast past (dqSaveMapping q (dqSlot queueSize msg.instNumber) e msg) := by
    have sound : LearnerSound mcast
        (dqSaveMapping q (dqSlot queueSize msg.instNumber) e msg) := by
      refine h.1.sound.saveMapping ⟨fun _ => mapped, fun has => ?_, fun zero => absurd zero unused⟩
      have chosen := heard.final has
      rw [← final has] at chosen
      exact chosen
    exact h.1.withEntry sound rfl rfl rfl own low high
  unfold dqMap
  dsimp only
  rw [← he]
  split_ifs with both has key value final key
  · exact h
  · exact h
  · have known := heard.mapping has
    exact faults.mapping _ _ known mapped rfl key.symm value
  · have open_ : e.hasFinalValue ≠ true := fun final => both ⟨has, final⟩
    exact ⟨saved fun final => absurd final open_, h.2.withEntry rfl rfl fun ready =>
      absurd ready.2 open_⟩
  · exact ((saved fun _ => key).deliverLoop positive).mono_fault fun _ never => never.elim
  · exact h
  · exact ⟨saved fun has => absurd has final, h.2.withEntry rfl rfl fun ready =>
      absurd ready.2 final⟩

theorem dqAccept_settles (positive : 0 < queueSize) (faults : FaultsMeet mcast F)
    (h : Settled queueSize mcast past q) {msg : AcceptanceMsg} (sent : .acceptance msg ∈ mcast)
    (own : (q.entry queueSize msg.instNumber).instNumber = msg.instNumber)
    (low : q.highestDelivered < msg.instNumber)
    (high : msg.instNumber ≤ q.highestDelivered + queueSize) :
    (dqAccept queueSize q msg).Ensures (Settled queueSize mcast past) F := by
  set e := q.entry queueSize msg.instNumber with he
  have heard : EntryHeard mcast e (q.command queueSize msg.instNumber) := h.1.sound.entries _
  have chosen : .acceptance ⟨e.instNumber, msg.cmdKey⟩ ∈ mcast := own ▸ sent
  have unused : ¬ e.instNumber = 0 := by omega
  have rewritten {e' : DqEntry} (heard' : EntryHeard mcast e' (q.command queueSize msg.instNumber))
      (own' : e'.instNumber = e.instNumber) :
      QueueOk queueSize mcast past (q.withEntry (dqSlot queueSize msg.instNumber) e') :=
    h.1.withEntry (h.1.sound.withEntry heard') rfl rfl rfl (own'.trans own) low high
  have differs (final : e.hasFinalValue = true) (key : e.cmdKey ≠ msg.cmdKey) : F .keyDiffers :=
    faults.acceptance ⟨_, e.cmdKey⟩ msg (heard.final final) sent own key
  unfold dqAccept
  dsimp only
  rw [← he]
  split_ifs with both key has key final key
  · exact h
  · exact differs both.2 key
  · have ready : QueueOk queueSize mcast past
        (q.withEntry (dqSlot queueSize msg.instNumber) { e with hasFinalValue := true }) :=
      rewritten ⟨heard.mapping, fun _ => key ▸ chosen, fun zero => absurd zero unused⟩ rfl
    exact (ready.deliverLoop positive).mono_fault fun _ never => never.elim
  · refine ⟨rewritten ⟨fun has => absurd has (by simp), fun final => ?_, fun zero =>
      absurd zero unused⟩ rfl, h.2.withEntry rfl rfl fun ready => absurd ready.1 (by simp)⟩
    exact absurd ⟨has, final⟩ both
  · exact h
  · exact differs final key
  · exact ⟨rewritten ⟨fun mapping => absurd mapping has, fun _ => chosen, fun zero =>
      absurd zero unused⟩ rfl, h.2.withEntry rfl rfl fun ready => absurd ready.1 has⟩

theorem onMcastMsg_settles (positive : 0 < queueSize) (faults : FaultsMeet mcast F)
    (h : Settled queueSize mcast past q) {msg : McastMsg} (sent : msg ∈ mcast) :
    (onMcastMsg queueSize q msg).Ensures (Settled queueSize mcast past) F := by
  have gotOwn (q : Learner) (i : ℕ) : ((gotEntry queueSize q i).entry queueSize i).instNumber = i := by
    rw [gotEntry_entry]
  cases msg with
  | phase2 msg => exact h
  | commandMap msg =>
    change (deliveryQueueHandleCommandMap queueSize q msg).Ensures _ _
    unfold deliveryQueueHandleCommandMap
    rw [h.1.sound.startAt]
    dsimp only
    split_ifs with ignored
    · exact h
    · have seen : Settled queueSize mcast past
          { q with highestSeenCmdmap := max q.highestSeenCmdmap msg.instNumber } :=
        ⟨h.1.same (h.1.sound.same rfl rfl rfl rfl rfl) rfl rfl rfl, h.2⟩
      unfold dqIgnores at ignored
      have low : q.highestDelivered < msg.instNumber := by omega
      have high : msg.instNumber ≤ q.highestDelivered + queueSize := by omega
      rw [seen.1.getEntry_running low high, Outcome.bind_running]
      exact dqMap_settles positive faults (settled_gotEntry seen low high) sent (gotOwn _ _) low high
  | acceptance msg =>
    change (deliveryQueueHandleAcceptance queueSize q msg).Ensures _ _
    unfold deliveryQueueHandleAcceptance
    rw [h.1.sound.startAt]
    have seen : Settled queueSize mcast past
        { q with highestSeenClosed := max q.highestSeenClosed msg.instNumber } :=
      ⟨h.1.same (h.1.sound.same rfl rfl rfl rfl rfl) rfl rfl rfl, h.2⟩
    dsimp only
    split_ifs with ignored
    · exact seen
    · have ignored : ¬ (q.highestDelivered + queueSize ≤ msg.instNumber ∨
          msg.instNumber ≤ q.highestDelivered) := ignored
      have low : q.highestDelivered < msg.instNumber := by omega
      have high : msg.instNumber ≤ q.highestDelivered + queueSize := by omega
      rw [seen.1.getEntry_running low high, Outcome.bind_running]
      exact dqAccept_settles positive faults (settled_gotEntry seen low high) sent (gotOwn _ _) low
        high

end Messages

theorem Settled.same (h : Settled queueSize mcast past q) (sound : LearnerSound mcast r)
    (entries : r.queueArray = q.queueArray) (highest : r.highestDelivered = q.highestDelivered)
    (delivered : r.delivered = q.delivered) : Settled queueSize mcast past r := by
  refine ⟨h.1.same sound entries highest delivered, fun ready => h.2 ?_⟩
  unfold Learner.entry at ready ⊢
  rwa [entries, highest] at ready

theorem Settled.deadlines (h : Settled queueSize mcast past q) {slot : ℕ} {e : DqEntry}
    (sound : LearnerSound mcast (q.withEntry slot e))
    (own : e.instNumber = (q.queueArray slot).instNumber)
    (waits : Deliverable e → Deliverable (q.queueArray slot)) :
    Settled queueSize mcast past (q.withEntry slot e) := by
  refine ⟨⟨sound, fun slot' => ?_, h.1.past⟩, h.2.withEntry rfl rfl waits⟩
  simp only [Learner.withEntry, setSlot_apply]
  split_ifs with here
  · rw [own, here]
    exact h.1.slots slot
  · exact h.1.slots slot'

theorem onMissingCmdmap_queue (q : Learner) (i : ℕ) :
    (onMissingCmdmap q i).queueArray = q.queueArray ∧
      (onMissingCmdmap q i).highestDelivered = q.highestDelivered ∧
      (onMissingCmdmap q i).delivered = q.delivered := by
  unfold onMissingCmdmap sendMapRequest
  dsimp only
  split_ifs <;> exact ⟨rfl, rfl, rfl⟩

theorem onMissingAcceptance_queue (q : Learner) (i : ℕ) :
    (onMissingAcceptance q i).queueArray = q.queueArray ∧
      (onMissingAcceptance q i).highestDelivered = q.highestDelivered ∧
      (onMissingAcceptance q i).delivered = q.delivered := by
  unfold onMissingAcceptance sendChosenvalRequest
  dsimp only
  split_ifs <;> exact ⟨rfl, rfl, rfl⟩

theorem dqRequestMap_settled (h : Settled queueSize mcast past q) (timeNow : Timeval) (i : ℕ) :
    Settled queueSize mcast past (dqRequestMap queueSize timeNow q i) ∧
      (dqRequestMap queueSize timeNow q i).highestDelivered = q.highestDelivered := by
  have sound : LearnerSound mcast (dqRequestMap queueSize timeNow q i) :=
    h.1.sound.requestMap timeNow i
  obtain ⟨entries, highest, delivered⟩ := onMissingCmdmap_queue q i
  have asked : Settled queueSize mcast past (onMissingCmdmap q i) :=
    Settled.same h (h.1.sound.missingCmdmap i) entries highest delivered
  unfold dqRequestMap at sound ⊢
  dsimp only at sound ⊢
  split_ifs at sound ⊢
  · refine ⟨Settled.deadlines asked sound ?_ ?_, highest⟩
    · rw [entries]
      rfl
    · rw [entries]
      exact fun ready => ⟨ready.1, ready.2⟩
  · exact ⟨h, rfl⟩

theorem dqRequestAcceptance_settled (h : Settled queueSize mcast past q) (timeNow : Timeval)
    (i : ℕ) : Settled queueSize mcast past (dqRequestAcceptance queueSize timeNow q i) ∧
      (dqRequestAcceptance queueSize timeNow q i).highestDelivered = q.highestDelivered := by
  have sound : LearnerSound mcast (dqRequestAcceptance queueSize timeNow q i) :=
    h.1.sound.requestAcceptance timeNow i
  obtain ⟨entries, highest, delivered⟩ := onMissingAcceptance_queue q i
  have asked : Settled queueSize mcast past (onMissingAcceptance q i) :=
    Settled.same h (h.1.sound.missingAcceptance i) entries highest delivered
  unfold dqRequestAcceptance at sound ⊢
  dsimp only at sound ⊢
  split_ifs at sound ⊢
  · refine ⟨Settled.deadlines asked sound ?_ ?_, highest⟩
    · rw [entries]
      rfl
    · rw [entries]
      exact fun ready => ⟨ready.1, ready.2⟩
  · exact ⟨h, rfl⟩

theorem postDeliveryCheck_settled (h : Settled queueSize mcast past q) :
    Settled queueSize mcast past (postDeliveryCheck q) := by
  have sound := h.1.sound.postDelivery
  unfold postDeliveryCheck sendMapRequest sendChosenvalRequest at sound ⊢
  dsimp only at sound ⊢
  split_ifs at sound ⊢ <;> exact Settled.same h sound rfl rfl rfl

theorem dqPeriodicCheck_settles (h : Settled queueSize mcast past q) (timeNow : Timeval) :
    Settles queueSize mcast past (dqPeriodicCheck queueSize timeNow q) := by
  -- the loop keeps the window that it started with
  refine Outcome.Ensures.bind (I := fun r => Settled queueSize mcast past r ∧
    r.highestDelivered = q.highestDelivered) (Outcome.ensures_fold ⟨h, rfl⟩ ?_)
    fun r kept => postDeliveryCheck_settled kept.1
  · rintro i hi r ⟨settled, same⟩
    obtain ⟨low, high⟩ := List.mem_range'_1.mp hi
    have low : r.highestDelivered < i := by omega
    have high : i ≤ r.highestDelivered + queueSize := by omega
    have got := settled_gotEntry settled low high
    unfold dqCheckGap
    rw [settled.1.getEntry_running low high, Outcome.bind_running]
    split_ifs
    · exact ⟨got, same⟩
    · obtain ⟨mapped, same'⟩ := dqRequestMap_settled got timeNow i
      obtain ⟨accepted, same''⟩ := dqRequestAcceptance_settled mapped timeNow i
      exact ⟨accepted, same''.trans (same'.trans same)⟩

/-- The commands of instances 1, 2, 3 and so on were delivered, each from a mapping that was
received, with the key of an acceptance that was; no assertion failed, and no loop was left
before the next instance had to wait. -/
structure DeliversInOrder (queueSize : ℕ) (mcast : List McastMsg) (o : LearnerOutcome) : Prop where
  running : o.IsRunning
  length : o.state.delivered.length = o.state.highestDelivered
  chosen : ∀ n cmd, o.state.delivered[n]? = some cmd → ∃ key,
    .commandMap ⟨n + 1, key, cmd⟩ ∈ mcast ∧ .acceptance ⟨n + 1, key⟩ ∈ mcast
  waits : Waits queueSize o.state

theorem queueStep_settles (positive : 0 < queueSize) (agree : MessagesAgree mcast)
    {o : LearnerOutcome} (h : Settles queueSize mcast past o) {e : QueueEvent}
    (sent : ∀ msg, heard e = some msg → msg ∈ mcast) :
    Settles queueSize mcast past (queueStep queueSize o e) := by
  cases e with
  | receive msg => exact h.bind fun q ok => onMcastMsg_settles positive (agree.faultsMeet _) ok (sent msg rfl)
  | deliverLoop => exact h.bind fun q ok => ok.1.deliverLoop positive
  | periodicCheck timeNow => exact h.bind fun q ok => dqPeriodicCheck_settles ok timeNow

theorem run_settles (positive : 0 < queueSize) (agree : MessagesAgree mcast) {o : LearnerOutcome}
    (h : Settles queueSize mcast past o) {events : List QueueEvent}
    (sent : ∀ msg ∈ messages events, msg ∈ mcast) :
    Settles queueSize mcast past (run (queueStep queueSize) o events) := by
  have brings : Along (queueStep queueSize)
      (fun _ e => ∀ msg, heard e = some msg → msg ∈ mcast) o events :=
    along_of_mem fun e he _ msg brought => sent msg (List.mem_filterMap.mpr ⟨e, he, brought⟩)
  exact brings.invariant (Settles queueSize mcast past) h fun o e kept brought =>
    queueStep_settles positive agree kept brought

theorem settled_init : Settled queueSize mcast [] (learnerInit false) :=
  ⟨⟨learnerSound_init, fun _ => .inl rfl, List.nil_prefix⟩, by
    simp [Waits, Learner.entry, learnerInit, Deliverable, dqClearEntry]⟩

theorem Settles.inOrder {o : LearnerOutcome} (h : Settles queueSize mcast past o) :
    DeliversInOrder queueSize mcast o := by
  cases o with
  | aborted fault q => exact h.elim
  | running q => exact ⟨trivial, h.1.sound.length, h.1.sound.delivered, h.2⟩

theorem queue_delivers_in_order (queueSize : ℕ) (positive : 0 < queueSize)
    (before after : List QueueEvent) (agree : MessagesAgree (messages (before ++ after))) :
    DeliversInOrder queueSize (messages before)
        (run (queueStep queueSize) (.running (learnerInit false)) before) ∧
      (run (queueStep queueSize) (.running (learnerInit false)) before).state.delivered <+:
        (run (queueStep queueSize) (.running (learnerInit false)) (before ++ after)).state.delivered
    := by
  have part : ∀ msg ∈ messages before, msg ∈ messages (before ++ after) := by
    intro msg hmsg
    unfold messages at hmsg ⊢
    rw [List.filterMap_append]
    exact List.mem_append_left _ hmsg
  have rest : ∀ msg ∈ messages after, msg ∈ messages (before ++ after) := by
    intro msg hmsg
    unfold messages at hmsg ⊢
    rw [List.filterMap_append]
    exact List.mem_append_right _ hmsg
  have agreeBefore : MessagesAgree (messages before) :=
    ⟨fun m m' h h' => agree.mapping m m' (part _ h) (part _ h'),
      fun m m' h h' => agree.acceptance m m' (part _ h) (part _ h')⟩
  have start : Settles queueSize (messages before) [] (.running (learnerInit false)) :=
    settled_init
  have first := run_settles positive agreeBefore start fun _ hmsg => hmsg
  refine ⟨Settles.inOrder first, ?_⟩
  rw [run_append]
  cases reached : run (queueStep queueSize) (.running (learnerInit false)) before with
  | aborted fault q =>
    rw [reached] at first
    exact first.elim
  | running q =>
    rw [reached] at first
    have restart : Settles queueSize (messages (before ++ after)) q.delivered (.running q) :=
      ⟨⟨first.1.sound.mono part, first.1.slots, List.prefix_rfl⟩, first.2⟩
    have last := run_settles positive agree restart rest
    cases ends : run (queueStep queueSize) (.running q) after with
    | aborted fault r =>
      rw [ends] at last
      exact last.elim
    | running r =>
      rw [ends] at last
      exact last.1.past

/-- Instance 2 is known before instance 1. -/
def secondFirst : List QueueEvent :=
  [.receive (.acceptance ⟨2, ⟨1, 0, 2⟩⟩), .receive (.commandMap ⟨2, ⟨1, 0, 2⟩, [8]⟩),
    .receive (.acceptance ⟨1, ⟨1, 0, 1⟩⟩), .receive (.commandMap ⟨1, ⟨1, 0, 1⟩, [7]⟩)]

theorem secondFirst_agrees : MessagesAgree (messages (secondFirst ++ [.deliverLoop])) where
  mapping := by
    intro m m' h h' inst key
    simp [messages, heard, secondFirst] at h h'
    rcases h with rfl | rfl <;> rcases h' with rfl | rfl <;> simp_all
  acceptance := by
    intro m m' h h' inst
    simp [messages, heard, secondFirst] at h h'
    rcases h with rfl | rfl <;> rcases h' with rfl | rfl <;> simp_all

theorem second_waits_for_first :
    DeliversInOrder 3 (messages secondFirst)
        (run (queueStep 3) (.running (learnerInit false)) secondFirst) ∧
      (run (queueStep 3) (.running (learnerInit false)) secondFirst).state.delivered <+:
        (run (queueStep 3) (.running (learnerInit false))
          (secondFirst ++ [.deliverLoop])).state.delivered :=
  queue_delivers_in_order 3 (by decide) _ _ secondFirst_agrees

end FdsPaxos.RingQueueOrder
