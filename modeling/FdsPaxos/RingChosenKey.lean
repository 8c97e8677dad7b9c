import FdsPaxos.RingQueueOrder

set_option autoImplicit false

namespace FdsPaxos.RingChosenKey
open TransitionRuns CircularWindow RingConfig RingMessages RingDeliveryQueue RingLearnerSoundness
open RingQueueOrder

section Definitions

variable (queueSize : ℕ)

/-- The key of an instance is known to be chosen. -/
structure Final (q : Learner) (i : ℕ) (key : CommandId) : Prop where
  own : (q.entry queueSize i).instNumber = i
  final : (q.entry queueSize i).hasFinalValue = true
  key : (q.entry queueSize i).cmdKey = key

def InWindow (q : Learner) (i : ℕ) : Prop :=
  q.highestDelivered < i ∧ i < q.highestDelivered + queueSize

instance (q : Learner) (i : ℕ) : Decidable (InWindow queueSize q i) :=
  inferInstanceAs (Decidable (_ ∧ _))

/-- The chosen key is remembered until its instance is delivered, and with a mapping for it
only an earlier instance can hold the delivery up. -/
structure KeepsChosen (a : AcceptanceMsg) (later : List McastMsg) (q : Learner) : Prop where
  remembered : q.highestDelivered < a.instNumber → Final queueSize q a.instNumber a.cmdKey
  delivered : ∀ v, .commandMap ⟨a.instNumber, a.cmdKey, v⟩ ∈ later →
    a.instNumber ≤ q.highestDelivered + 1 → q.delivered[a.instNumber - 1]? = some v

def after (events : List QueueEvent) : LearnerOutcome :=
  run (queueStep queueSize) (.running (learnerInit false)) events

/-- Every acceptance handled in a run is kept in mind in each state that follows. -/
def ChosenKeysKept (events : List QueueEvent) : Prop :=
  ∀ before a past rest, events = before ++ .receive (.acceptance a) :: (past ++ rest) →
    InWindow queueSize (after queueSize before).state a.instNumber →
      KeepsChosen queueSize a (messages past)
        (after queueSize (before ++ .receive (.acceptance a) :: past)).state

/-- An acceptance meets the mapping of another command for its instance. -/
def MeetsOther (q : Learner) : QueueEvent → Prop
  | .receive (.acceptance a) =>
    InWindow queueSize q a.instNumber ∧ (q.entry queueSize a.instNumber).hasMapping = true ∧
      (q.entry queueSize a.instNumber).hasFinalValue = false ∧
      (q.entry queueSize a.instNumber).cmdKey ≠ a.cmdKey
  | .receive (.commandMap _) | .receive (.phase2 _) | .deliverLoop | .periodicCheck _ => False

end Definitions

instance (queueSize : ℕ) (q : Learner) (e : QueueEvent) : Decidable (MeetsOther queueSize q e) :=
  match e with
  | .receive (.acceptance _) => inferInstanceAs (Decidable (_ ∧ _ ∧ _ ∧ _))
  | .receive (.commandMap _) | .receive (.phase2 _) | .deliverLoop | .periodicCheck _ =>
    isFalse id

variable {queueSize : ℕ} {mcast : List McastMsg} {q r u : Learner} {i : ℕ} {key : CommandId}

structure KeepsFinals (queueSize : ℕ) (q r : Learner) : Prop where
  highest : q.highestDelivered ≤ r.highestDelivered
  final : ∀ i key, r.highestDelivered < i → i < q.highestDelivered + queueSize →
    Final queueSize q i key → Final queueSize r i key
  mapping : ∀ i key, r.highestDelivered < i → i < q.highestDelivered + queueSize →
    Final queueSize q i key → (q.entry queueSize i).hasMapping = true →
      (r.entry queueSize i).hasMapping = true

theorem KeepsFinals.refl (q : Learner) : KeepsFinals queueSize q q :=
  ⟨le_refl _, fun _ _ _ _ h => h, fun _ _ _ _ _ h => h⟩

theorem KeepsFinals.trans (h : KeepsFinals queueSize q r) (h' : KeepsFinals queueSize r u) :
    KeepsFinals queueSize q u where
  highest := h.highest.trans h'.highest
  final := by
    intro i key low high known
    have first := h'.highest
    have second := h.highest
    exact h'.final i key low (by omega) (h.final i key (by omega) high known)
  mapping := by
    intro i key low high known mapped
    have first := h'.highest
    have second := h.highest
    have known' := h.final i key (by omega) high known
    exact h'.mapping i key low (by omega) known' (h.mapping i key (by omega) high known mapped)

theorem KeepsFinals.withEntry {slot : ℕ} {e : DqEntry}
    (entries : r.queueArray = setSlot q.queueArray slot e)
    (highest : r.highestDelivered = q.highestDelivered)
    (kept : (q.queueArray slot).hasFinalValue = true → (q.queueArray slot).instNumber ≠ 0 →
      e.instNumber = (q.queueArray slot).instNumber ∧ e.hasFinalValue = true ∧
        e.cmdKey = (q.queueArray slot).cmdKey ∧
        ((q.queueArray slot).hasMapping = true → e.hasMapping = true)) :
    KeepsFinals queueSize q r := by
  have step (i : ℕ) (key : CommandId) (low : r.highestDelivered < i)
      (known : Final queueSize q i key) : Final queueSize r i key ∧
        ((q.entry queueSize i).hasMapping = true → (r.entry queueSize i).hasMapping = true) := by
    have found : r.entry queueSize i = if dqSlot queueSize i = slot then e
        else q.entry queueSize i := by
      unfold Learner.entry
      rw [entries, setSlot_apply]
    by_cases here : dqSlot queueSize i = slot
    · rw [if_pos here] at found
      subst here
      have used : (q.queueArray (dqSlot queueSize i)).instNumber ≠ 0 := by
        have own : (q.queueArray (dqSlot queueSize i)).instNumber = i := known.own
        omega
      obtain ⟨own, final, sameKey, mapping⟩ := kept known.final used
      refine ⟨⟨?_, ?_, ?_⟩, fun mapped => ?_⟩
      · rw [found, own]
        exact known.own
      · rw [found, final]
      · rw [found, sameKey]
        exact known.key
      · rw [found, mapping mapped]
    · rw [if_neg here] at found
      refine ⟨⟨found ▸ known.own, found ▸ known.final, found ▸ known.key⟩, fun mapped => ?_⟩
      rw [found, mapped]
  exact ⟨highest.ge, fun i key low _ known => (step i key low known).1,
    fun i key low _ known => (step i key low known).2⟩

theorem KeepsFinals.same (entries : r.queueArray = q.queueArray)
    (highest : r.highestDelivered = q.highestDelivered) : KeepsFinals queueSize q r := by
  have found (i : ℕ) : r.entry queueSize i = q.entry queueSize i := by
    unfold Learner.entry
    rw [entries]
  exact ⟨highest.ge, fun i _ _ _ h => ⟨found i ▸ h.own, found i ▸ h.final, found i ▸ h.key⟩,
    fun i _ _ _ _ h => found i ▸ h⟩

theorem dqGetEntry_keeps (got : dqGetEntry queueSize q i = .running r) :
    KeepsFinals queueSize q r := by
  obtain ⟨rfl, free⟩ := dqGetEntry_running got
  refine .withEntry rfl rfl fun final used => ?_
  have own : (q.queueArray (dqSlot queueSize i)).instNumber = i := free.resolve_right used
  exact ⟨own.symm, final, rfl, id⟩

theorem dqDeliver_keeps (q : Learner) : KeepsFinals queueSize q (dqDeliver queueSize q) := by
  have found (i : ℕ) (low : q.highestDelivered + 1 < i)
      (high : i < q.highestDelivered + queueSize) :
      (dqDeliver queueSize q).entry queueSize i = q.entry queueSize i := by
    refine setSlot_of_ne _ _ _ _ fun same => ?_
    have equal := window_index_injective low.le (by omega) (le_refl (q.highestDelivered + 1))
      (by omega : _ < q.highestDelivered + 1 + queueSize) same
    omega
  refine ⟨Nat.le_succ _, fun i key low high h => ?_, fun i key low high _ mapped => ?_⟩
  · have same := found i low high
    exact ⟨same ▸ h.own, same ▸ h.final, same ▸ h.key⟩
  · rw [found i low high, mapped]

theorem dqDeliverFrom_keeps (turns : ℕ) (q : Learner) :
    (dqDeliverFrom queueSize turns q).Ensures (KeepsFinals queueSize q) fun _ => True := by
  induction turns generalizing q with
  | zero => exact .refl q
  | succ turns ih =>
    unfold dqDeliverFrom
    dsimp only
    split_ifs with ready
    · refine Outcome.Ensures.bind (Outcome.ensures_of_running fun r got => got) fun r got => ?_
      have first := (dqDeliver_keeps q).trans (dqGetEntry_keeps got)
      exact (ih r).mono fun u _ kept => first.trans kept
    · exact .refl q

theorem dqDeliverLoop_keeps (q : Learner) :
    (dqDeliverLoop queueSize q).Ensures (KeepsFinals queueSize q) fun _ => True := by
  refine Outcome.Ensures.bind (Outcome.ensures_of_running fun r got => got) fun r got => ?_
  exact (dqDeliverFrom_keeps _ r).mono fun u _ kept => (dqGetEntry_keeps got).trans kept

theorem dqMap_keeps (q : Learner) (msg : CmdmapMsg) :
    (dqMap queueSize q msg).Ensures (KeepsFinals queueSize q) fun _ => True := by
  set slot := dqSlot queueSize msg.instNumber
  set e := q.entry queueSize msg.instNumber with he
  have saved (same : e.hasFinalValue = true → msg.cmdKey = e.cmdKey) :
      KeepsFinals queueSize q (dqSaveMapping q slot e msg) :=
    .withEntry rfl rfl fun final _ => ⟨rfl, final, same final, fun _ => rfl⟩
  unfold dqMap
  dsimp only
  rw [← he]
  split_ifs with both has key value final key
  · exact .refl q
  · exact .refl q
  · trivial
  · exact saved fun final => absurd ⟨has, final⟩ both
  · exact (dqDeliverLoop_keeps _).mono fun r _ kept => (saved fun _ => key).trans kept
  · exact .refl q
  · exact saved fun has => absurd has final

theorem dqAccept_keeps (q : Learner) (msg : AcceptanceMsg) :
    (dqAccept queueSize q msg).Ensures (KeepsFinals queueSize q) fun _ => True := by
  set slot := dqSlot queueSize msg.instNumber
  set e := q.entry queueSize msg.instNumber with he
  have rewritten (e' : DqEntry) (unknown : e.hasFinalValue ≠ true) :
      KeepsFinals queueSize q (q.withEntry slot e') :=
    .withEntry rfl rfl fun final _ => absurd final unknown
  unfold dqAccept
  dsimp only
  rw [← he]
  split_ifs with both key has key final key
  · exact .refl q
  · trivial
  · have first := rewritten { e with hasFinalValue := true } fun final => both ⟨has, final⟩
    exact (dqDeliverLoop_keeps _).mono fun r _ kept => first.trans kept
  · exact rewritten _ fun final => both ⟨has, final⟩
  · exact .refl q
  · trivial
  · exact rewritten _ final

theorem onMcastMsg_keeps (onTime : q.lateStart = false) (msg : McastMsg) :
    (onMcastMsg queueSize q msg).Ensures (KeepsFinals queueSize q) fun _ => True := by
  have start (i : ℕ) : dqStartAt q i = q := by simp [dqStartAt, onTime]
  cases msg with
  | phase2 msg => exact .refl q
  | commandMap msg =>
    change (deliveryQueueHandleCommandMap queueSize q msg).Ensures _ _
    unfold deliveryQueueHandleCommandMap
    rw [start]
    dsimp only
    split_ifs
    · exact .refl q
    · have seen : KeepsFinals queueSize q
          { q with highestSeenCmdmap := max q.highestSeenCmdmap msg.instNumber } := .same rfl rfl
      refine Outcome.Ensures.bind (Outcome.ensures_of_running fun r got => got) fun r got => ?_
      exact (dqMap_keeps r msg).mono fun u _ kept => (seen.trans (dqGetEntry_keeps got)).trans kept
  | acceptance msg =>
    change (deliveryQueueHandleAcceptance queueSize q msg).Ensures _ _
    unfold deliveryQueueHandleAcceptance
    rw [start]
    dsimp only
    have seen : KeepsFinals queueSize q
        { q with highestSeenClosed := max q.highestSeenClosed msg.instNumber } := .same rfl rfl
    split_ifs
    · exact seen
    · refine Outcome.Ensures.bind (Outcome.ensures_of_running fun r got => got) fun r got => ?_
      exact (dqAccept_keeps r msg).mono fun u _ kept =>
        (seen.trans (dqGetEntry_keeps got)).trans kept

theorem dqRequestMap_keeps (timeNow : Timeval) (q : Learner) (i : ℕ) :
    KeepsFinals queueSize q (dqRequestMap queueSize timeNow q i) := by
  obtain ⟨entries, highest, -⟩ := onMissingCmdmap_queue q i
  unfold dqRequestMap
  dsimp only
  split_ifs
  · refine (KeepsFinals.same entries highest).trans (.withEntry rfl rfl fun final _ => ?_)
    rw [entries] at final ⊢
    exact ⟨rfl, final, rfl, id⟩
  · exact .refl q

theorem dqRequestAcceptance_keeps (timeNow : Timeval) (q : Learner) (i : ℕ) :
    KeepsFinals queueSize q (dqRequestAcceptance queueSize timeNow q i) := by
  obtain ⟨entries, highest, -⟩ := onMissingAcceptance_queue q i
  unfold dqRequestAcceptance
  dsimp only
  split_ifs
  · refine (KeepsFinals.same entries highest).trans (.withEntry rfl rfl fun final _ => ?_)
    rw [entries] at final ⊢
    exact ⟨rfl, final, rfl, id⟩
  · exact .refl q

theorem dqPeriodicCheck_keeps (timeNow : Timeval) (q : Learner) :
    (dqPeriodicCheck queueSize timeNow q).Ensures (KeepsFinals queueSize q) fun _ => True := by
  have post (q : Learner) : KeepsFinals queueSize q (postDeliveryCheck q) := by
    unfold postDeliveryCheck sendMapRequest sendChosenvalRequest
    dsimp only
    split_ifs <;> exact .same rfl rfl
  refine Outcome.Ensures.bind (I := KeepsFinals queueSize q)
    (Outcome.ensures_fold (.refl q) fun i _ r kept => ?_) fun r kept => kept.trans (post r)
  unfold dqCheckGap
  refine Outcome.Ensures.bind (Outcome.ensures_of_running fun u got => got) fun u got => ?_
  have first := kept.trans (dqGetEntry_keeps got)
  split_ifs
  · exact first
  · exact first.trans ((dqRequestMap_keeps timeNow u i).trans (dqRequestAcceptance_keeps timeNow _ i))

theorem queueStep_keeps (onTime : q.lateStart = false) (e : QueueEvent) :
    (queueStep queueSize (.running q) e).Ensures (KeepsFinals queueSize q) fun _ => True := by
  cases e with
  | receive msg => exact onMcastMsg_keeps onTime msg
  | deliverLoop => exact dqDeliverLoop_keeps q
  | periodicCheck timeNow => exact dqPeriodicCheck_keeps timeNow q

theorem run_keeps (positive : 0 < queueSize) (agree : MessagesAgree mcast)
    (settled : Settled queueSize mcast [] q) {events : List QueueEvent}
    (sent : ∀ msg ∈ messages events, msg ∈ mcast) :
    ∃ r, run (queueStep queueSize) (.running q) events = .running r ∧
      Settled queueSize mcast [] r ∧ KeepsFinals queueSize q r := by
  induction events generalizing q with
  | nil => exact ⟨q, rfl, settled, .refl q⟩
  | cons e events ih =>
    have brought : ∀ msg, heard e = some msg → msg ∈ mcast := fun msg brought =>
      sent msg (List.mem_filterMap.mpr ⟨e, List.mem_cons_self, brought⟩)
    have others : ∀ msg ∈ messages events, msg ∈ mcast := by
      intro msg hmsg
      obtain ⟨e', he', brought'⟩ := List.mem_filterMap.mp hmsg
      exact sent msg (List.mem_filterMap.mpr ⟨e', List.mem_cons_of_mem _ he', brought'⟩)
    have start : Settles queueSize mcast [] (.running q) := settled
    have first := (queueStep_settles positive agree start brought).and
      (queueStep_keeps settled.1.sound.onTime e)
    cases ends : queueStep queueSize (.running q) e with
    | aborted fault u =>
      rw [ends] at first
      exact first.elim
    | running u =>
      rw [ends] at first
      obtain ⟨r, rest, settled', kept⟩ := ih first.1 others
      exact ⟨r, by rw [run_cons, ends, rest], settled', first.2.trans kept⟩

theorem handleAcceptance_got (settled : Settled queueSize mcast [] q) {a : AcceptanceMsg}
    (window : InWindow queueSize q a.instNumber) :
    ∃ u, onMcastMsg queueSize q (.acceptance a) = dqAccept queueSize u a ∧
      Settled queueSize mcast [] u ∧ u.highestDelivered = q.highestDelivered ∧
      u.entry queueSize a.instNumber =
        { q.entry queueSize a.instNumber with instNumber := a.instNumber } := by
  obtain ⟨low, high⟩ := window
  have seen : Settled queueSize mcast []
      { q with highestSeenClosed := max q.highestSeenClosed a.instNumber } :=
    ⟨settled.1.same (settled.1.sound.same rfl rfl rfl rfl rfl) rfl rfl rfl, settled.2⟩
  have kept : ¬ dqIgnores queueSize
      { q with highestSeenClosed := max q.highestSeenClosed a.instNumber } a.instNumber :=
    not_or.mpr ⟨not_le.mpr high, not_le.mpr low⟩
  refine ⟨_, ?_, settled_gotEntry seen low high.le, rfl, gotEntry_entry _⟩
  change deliveryQueueHandleAcceptance queueSize q a = _
  unfold deliveryQueueHandleAcceptance
  rw [settled.1.sound.startAt]
  dsimp only
  rw [if_neg kept, seen.1.getEntry_running low high.le, Outcome.bind_running]

theorem handleCommandMap_got (settled : Settled queueSize mcast [] q) {m : CmdmapMsg}
    (window : InWindow queueSize q m.instNumber) :
    ∃ u, onMcastMsg queueSize q (.commandMap m) = dqMap queueSize u m ∧
      u.highestDelivered = q.highestDelivered ∧
      u.entry queueSize m.instNumber =
        { q.entry queueSize m.instNumber with instNumber := m.instNumber } := by
  obtain ⟨low, high⟩ := window
  have seen : Settled queueSize mcast []
      { q with highestSeenCmdmap := max q.highestSeenCmdmap m.instNumber } :=
    ⟨settled.1.same (settled.1.sound.same rfl rfl rfl rfl rfl) rfl rfl rfl, settled.2⟩
  have kept : ¬ dqIgnores queueSize q m.instNumber :=
    not_or.mpr ⟨not_le.mpr high, not_le.mpr low⟩
  refine ⟨gotEntry queueSize
    { q with highestSeenCmdmap := max q.highestSeenCmdmap m.instNumber } m.instNumber, ?_, rfl,
    gotEntry_entry _⟩
  change deliveryQueueHandleCommandMap queueSize q m = _
  unfold deliveryQueueHandleCommandMap
  rw [settled.1.sound.startAt]
  dsimp only
  rw [if_neg kept, seen.1.getEntry_running low high.le, Outcome.bind_running]

theorem acceptance_known (agree : MessagesAgree mcast)
    (settled : Settled queueSize mcast [] q) {a : AcceptanceMsg} (sent : .acceptance a ∈ mcast)
    (window : InWindow queueSize q a.instNumber)
    (handled : onMcastMsg queueSize q (.acceptance a) = .running r) :
    (r.highestDelivered < a.instNumber → Final queueSize r a.instNumber a.cmdKey) ↔
      ¬ MeetsOther queueSize q (.receive (.acceptance a)) := by
  obtain ⟨u, got, settledU, highest, entry⟩ := handleAcceptance_got settled window
  set e := q.entry queueSize a.instNumber with he
  have written (e' : DqEntry) : (u.withEntry (dqSlot queueSize a.instNumber) e').entry queueSize
      a.instNumber = e' := setSlot_self _ _ _
  rw [handled] at got
  unfold dqAccept at got
  dsimp only at got
  rw [entry] at got
  by_cases final : e.hasFinalValue = true
  · -- the key is known already, and acceptances agree
    have heard : EntryHeard mcast (u.entry queueSize a.instNumber)
      (u.command queueSize a.instNumber) := settledU.1.sound.entries _
    rw [entry] at heard
    have key : e.cmdKey = a.cmdKey := agree.acceptance ⟨_, e.cmdKey⟩ a (heard.final final) sent rfl
    have same : r = u := by
      by_cases has : e.hasMapping = true
      · rw [if_pos ⟨has, final⟩, if_pos key] at got
        exact Outcome.running.inj got
      · rw [if_neg fun both => has both.1, if_neg has, if_pos final, if_pos key] at got
        exact Outcome.running.inj got
    refine iff_of_true (fun _ => ?_) fun meets => absurd final (by simp [he, meets.2.2.1])
    rw [same]
    exact ⟨by rw [entry], by rw [entry, final], by rw [entry, key]⟩
  · rw [if_neg fun both => final both.2] at got
    by_cases has : e.hasMapping = true
    · rw [if_pos has] at got
      by_cases key : e.cmdKey = a.cmdKey
      · -- the mapping is that of the chosen key
        rw [if_pos key] at got
        have kept := (dqDeliverLoop_keeps _).of_running got.symm
        refine iff_of_true (fun low => ?_) fun meets => meets.2.2.2 key
        have high : a.instNumber < u.highestDelivered + queueSize := highest ▸ window.2
        exact kept.final _ _ low high ⟨by rw [written], by rw [written], by rw [written, key]⟩
      · rw [if_neg key] at got
        cases got
        refine iff_of_false (fun known => ?_) (not_not.mpr ⟨window, has, ?_, key⟩)
        · have forgotten := (known (highest.trans_lt window.1)).final
          rw [written] at forgotten
          exact final forgotten
        · exact Bool.eq_false_iff.mpr final
    · rw [if_neg has, if_neg final] at got
      cases got
      refine iff_of_true (fun _ => ?_) fun meets => has meets.2.1
      exact ⟨by rw [written], by rw [written], by rw [written]⟩

theorem mapping_saved (settled : Settled queueSize mcast [] q) {i : ℕ} {key : CommandId} {v : Value}
    (window : InWindow queueSize q i) (known : Final queueSize q i key)
    (handled : onMcastMsg queueSize q (.commandMap ⟨i, key, v⟩) = .running r)
    (undelivered : r.highestDelivered < i) : (r.entry queueSize i).hasMapping = true := by
  obtain ⟨u, got, highest, entry⟩ := handleCommandMap_got settled (m := ⟨i, key, v⟩) window
  rw [handled] at got
  unfold dqMap at got
  dsimp only at got
  rw [entry] at got
  by_cases has : (q.entry queueSize i).hasMapping = true
  · rw [if_pos ⟨has, known.final⟩] at got
    cases got
    rw [entry, has]
  · rw [if_neg fun both => has both.1, if_neg has, if_pos known.final, if_pos known.key.symm] at got
    have kept := (dqDeliverLoop_keeps _).of_running got.symm
    have high : i < u.highestDelivered + queueSize := highest ▸ window.2
    refine kept.mapping i key undelivered high ⟨?_, ?_, ?_⟩ ?_
    · exact congrArg DqEntry.instNumber (setSlot_self _ _ _)
    · exact (congrArg DqEntry.hasFinalValue (setSlot_self _ _ _)).trans known.final
    · exact congrArg DqEntry.cmdKey (setSlot_self _ _ _)
    · exact congrArg DqEntry.hasMapping (setSlot_self _ _ _)

theorem delivered_is_chosen (agree : MessagesAgree mcast) (settled : Settled queueSize mcast [] q)
    {a : AcceptanceMsg} {v : Value} (sent : .acceptance a ∈ mcast)
    (mapped : .commandMap ⟨a.instNumber, a.cmdKey, v⟩ ∈ mcast) (positive : 0 < a.instNumber)
    (past : a.instNumber ≤ q.highestDelivered) : q.delivered[a.instNumber - 1]? = some v := by
  have length := settled.1.sound.length
  have inside : a.instNumber - 1 < q.delivered.length := by omega
  have found := List.getElem?_eq_getElem inside
  obtain ⟨key, known, chosen⟩ := settled.1.sound.delivered _ _ found
  rw [Nat.sub_add_cancel positive] at known chosen
  have sameKey : key = a.cmdKey := agree.acceptance _ _ chosen sent rfl
  have same := agree.mapping _ _ known mapped rfl sameKey
  rw [found]
  exact congrArg some same

theorem messages_subset {events events' : List QueueEvent} (sub : events ⊆ events') :
    messages events ⊆ messages events' :=
  List.filterMap_subset heard sub

theorem heard_commandMap {e : QueueEvent} {m : CmdmapMsg} (brings : heard e = some (.commandMap m)) :
    e = .receive (.commandMap m) := by
  cases e with
  | receive msg =>
    cases brings
    rfl
  | deliverLoop => cases brings
  | periodicCheck timeNow => cases brings

theorem deliverable_of_mapped (positive : 0 < queueSize) (agree : MessagesAgree mcast)
    (settled : Settled queueSize mcast [] q) {i : ℕ} {key : CommandId} {v : Value}
    (high : i < q.highestDelivered + queueSize)
    (known : q.highestDelivered < i → Final queueSize q i key) {past : List QueueEvent}
    (brought : messages past ⊆ mcast) (mapped : .commandMap ⟨i, key, v⟩ ∈ messages past)
    (ends : run (queueStep queueSize) (.running q) past = .running r)
    (undelivered : r.highestDelivered < i) : Deliverable (r.entry queueSize i) := by
  obtain ⟨e, he, brings⟩ := List.mem_filterMap.mp mapped
  obtain ⟨first, second, split⟩ := List.append_of_mem he
  cases heard_commandMap brings
  subst split
  have part (es : List QueueEvent)
      (sub : es ⊆ first ++ .receive (.commandMap ⟨i, key, v⟩) :: second) :
      messages es ⊆ mcast := fun _ hmsg => brought (messages_subset sub hmsg)
  obtain ⟨x, reachX, settledX, keptX⟩ := run_keeps positive agree settled
    fun msg hmsg => part first (List.subset_append_left first _) hmsg
  obtain ⟨y, reachY, settledY, keptY⟩ := run_keeps positive agree settledX
    fun msg hmsg => part [.receive (.commandMap ⟨i, key, v⟩)] (by simp) hmsg
  obtain ⟨z, reachZ, -, keptZ⟩ := run_keeps positive agree settledY
    fun msg hmsg => part second (fun e' he' => by simp [he']) hmsg
  rw [run_append, reachX, ← List.singleton_append, run_append, reachY, reachZ] at ends
  cases ends
  have lowX := keptX.highest
  have lowY := keptY.highest
  have lowZ := keptZ.highest
  have knownX := keptX.final _ _ (by omega) high (known (by omega))
  have window : InWindow queueSize x i := ⟨by omega, by omega⟩
  have saved := mapping_saved settledX window knownX reachY (by omega)
  have knownY := keptY.final _ _ (by omega) (by omega) knownX
  exact ⟨keptZ.mapping _ _ (by omega) (by omega) knownY saved,
    (keptZ.final _ _ (by omega) (by omega) knownY).final⟩

theorem keepsChosen_of_known (positive : 0 < queueSize) (agree : MessagesAgree mcast)
    (settled : Settled queueSize mcast [] q) {a : AcceptanceMsg} (sent : .acceptance a ∈ mcast)
    (inst : 0 < a.instNumber) (high : a.instNumber < q.highestDelivered + queueSize)
    (known : q.highestDelivered < a.instNumber → Final queueSize q a.instNumber a.cmdKey)
    {past : List QueueEvent} (brought : messages past ⊆ mcast) :
    KeepsChosen queueSize a (messages past) (run (queueStep queueSize) (.running q) past).state := by
  obtain ⟨r, ends, settledR, kept⟩ := run_keeps positive agree settled fun _ hmsg => brought hmsg
  rw [ends, Outcome.state_running]
  have highest := kept.highest
  refine ⟨fun low => kept.final _ _ low high (known (by omega)), fun v mapped next => ?_⟩
  by_cases delivered : a.instNumber ≤ r.highestDelivered
  · exact delivered_is_chosen agree settledR sent (brought mapped) inst delivered
  · -- it is the next instance, and the loop of the queue does not stop before one that is ready
    have ready := deliverable_of_mapped positive agree settled high known brought mapped ends
      (by omega)
    have last : a.instNumber = r.highestDelivered + 1 := by omega
    rw [last] at ready
    exact absurd ready settledR.2

theorem acceptance_of_meets {e : QueueEvent} (meets : MeetsOther queueSize q e) :
    ∃ a, e = .receive (.acceptance a) := by
  cases e with
  | receive msg =>
    cases msg with
    | acceptance a => exact ⟨a, rfl⟩
    | commandMap m => exact meets.elim
    | phase2 m => exact meets.elim
  | deliverLoop => exact meets.elim
  | periodicCheck timeNow => exact meets.elim

theorem after_append (before later : List QueueEvent) : after queueSize (before ++ later) =
    run (queueStep queueSize) (after queueSize before) later :=
  run_append _ _

theorem acceptance_handled (positive : 0 < queueSize) {before rest : List QueueEvent}
    {a : AcceptanceMsg} (agree : MessagesAgree (messages (before ++ .receive (.acceptance a) :: rest))) :
    ∃ q r, after queueSize before = .running q ∧
      Settled queueSize (messages (before ++ .receive (.acceptance a) :: rest)) [] q ∧
      onMcastMsg queueSize q (.acceptance a) = .running r ∧
      Settled queueSize (messages (before ++ .receive (.acceptance a) :: rest)) [] r ∧
      KeepsFinals queueSize q r := by
  obtain ⟨q, reachQ, settledQ, -⟩ := run_keeps positive agree settled_init
    fun msg hmsg => messages_subset (List.subset_append_left before _) hmsg
  have one : [.receive (.acceptance a)] ⊆ before ++ .receive (.acceptance a) :: rest := by simp
  obtain ⟨r, reachR, settledR, kept⟩ := run_keeps positive agree settledQ
    fun msg hmsg => messages_subset one hmsg
  exact ⟨q, r, reachQ, settledQ, reachR, settledR, kept⟩

/-- The chosen keys of a run are kept exactly when no acceptance of it meets the mapping of
another command. -/
theorem chosen_keys_kept_iff (queueSize : ℕ) (positive : 0 < queueSize) (events : List QueueEvent)
    (agree : MessagesAgree (messages events)) : ChosenKeysKept queueSize events ↔
      Along (queueStep queueSize) (fun o e => ¬ MeetsOther queueSize o.state e)
        (.running (learnerInit false)) events := by
  rw [along_iff_split]
  constructor
  · intro kept before e rest split meets
    obtain ⟨a, rfl⟩ := acceptance_of_meets meets
    subst split
    obtain ⟨q, r, reachQ, settledQ, handled, -, -⟩ := acceptance_handled positive agree
    have sent : .acceptance a ∈ messages (before ++ .receive (.acceptance a) :: rest) :=
      List.mem_filterMap.mpr ⟨.receive (.acceptance a), by simp, rfl⟩
    have meets : MeetsOther queueSize (after queueSize before).state (.receive (.acceptance a)) :=
      meets
    have here := kept before a [] rest rfl
    rw [after_append, reachQ, Outcome.state_running] at here
    rw [reachQ] at meets
    have remembered : r.highestDelivered < a.instNumber →
        Final queueSize r a.instNumber a.cmdKey := by
      have next : run (queueStep queueSize) (.running q) [.receive (.acceptance a)] = .running r :=
        handled
      rw [next] at here
      exact (here meets.1).remembered
    exact (acceptance_known agree settledQ sent meets.1 handled).mp remembered meets
  · intro never before a past rest split window
    subst split
    obtain ⟨q, r, reachQ, settledQ, handled, settledR, keptR⟩ := acceptance_handled positive agree
    have sent : .acceptance a ∈ messages (before ++ .receive (.acceptance a) :: (past ++ rest)) :=
      List.mem_filterMap.mpr ⟨.receive (.acceptance a), by simp, rfl⟩
    have free : ¬ MeetsOther queueSize (after queueSize before).state (.receive (.acceptance a)) :=
      never before _ _ rfl
    rw [reachQ, Outcome.state_running] at window free
    have known := (acceptance_known agree settledQ sent window handled).mpr free
    have brought : messages past ⊆
        messages (before ++ .receive (.acceptance a) :: (past ++ rest)) :=
      messages_subset fun e he => by simp [he]
    have ends : after queueSize (before ++ .receive (.acceptance a) :: past) =
        run (queueStep queueSize) (.running r) past := by
      rw [after_append, reachQ, run_cons]
      exact congrArg (fun o => run (queueStep queueSize) o past) handled
    have highest := keptR.highest
    rw [ends]
    exact keepsChosen_of_known positive agree settledR sent (Nat.zero_lt_of_lt window.1)
      (window.2.trans_le (by omega)) known brought

theorem secondFirst_agrees' : MessagesAgree (messages secondFirst) where
  mapping := fun m m' h h' => secondFirst_agrees.mapping m m' (by simpa [messages, heard] using h)
    (by simpa [messages, heard] using h')
  acceptance := fun m m' h h' => secondFirst_agrees.acceptance m m'
    (by simpa [messages, heard] using h) (by simpa [messages, heard] using h')

theorem secondFirst_keys_kept : ChosenKeysKept 3 secondFirst :=
  (chosen_keys_kept_iff 3 (by decide) secondFirst secondFirst_agrees').mpr (by decide)

/-- Key 2 is chosen for instance 1, of which the mapping of key 1 came before. -/
def otherMapped : List QueueEvent :=
  [.receive (.commandMap ⟨1, ⟨1, 0, 1⟩, [7]⟩), .receive (.acceptance ⟨1, ⟨1, 0, 2⟩⟩),
    .receive (.commandMap ⟨1, ⟨1, 0, 2⟩, [8]⟩)]

theorem other_mapping_forgets : MessagesAgree (messages otherMapped) ∧
    ¬ ChosenKeysKept 3 otherMapped := by
  refine ⟨⟨?_, ?_⟩, fun kept => ?_⟩
  · intro m m' h h' inst key
    simp [messages, heard, otherMapped] at h h'
    rcases h with rfl | rfl <;> rcases h' with rfl | rfl <;> simp_all
  · intro m m' h h' inst
    simp [messages, heard, otherMapped] at h h'
    rw [h, h']
  · -- both are known in the end, and nothing is delivered
    have last := kept [.receive (.commandMap ⟨1, ⟨1, 0, 1⟩, [7]⟩)] ⟨1, ⟨1, 0, 2⟩⟩
      [.receive (.commandMap ⟨1, ⟨1, 0, 2⟩, [8]⟩)] [] rfl (by decide)
    exact absurd (last.delivered [8] (by simp [messages, heard]) (by decide)) (by decide)

end FdsPaxos.RingChosenKey
