import FdsPaxos.RingRecordSteps

set_option autoImplicit false

namespace FdsPaxos.RingIndexSteps
open TransitionRuns CircularWindow RingConfig RingMessages RingMcasterStorage RingMulticaster
open RingMulticasterMoves RingMappings RingWindows RingRecordSteps

variable {cfg : Config} {returns : Phase2Msg → Prop} {s t : Mcaster} {i : ℕ}

inductive SlotStep (returns : Phase2Msg → Prop) (s t : Mcaster) (slot : ℕ) : Prop where
  | same (own : (t.instancesArray slot).instNumber = (s.instancesArray slot).instNumber)
      (status : (t.instancesArray slot).status = (s.instancesArray slot).status)
  | begun (own : (t.instancesArray slot).instNumber = (s.instancesArray slot).instNumber)
      (before : (s.instancesArray slot).status ≠ .done)
      (after : (t.instancesArray slot).status = .p1Pending ∨
        (t.instancesArray slot).status = .p1Done ∨ (t.instancesArray slot).status = .p2Pending)
  | closed (msg : Phase2Msg) (returned : returns msg)
      (own : (t.instancesArray slot).instNumber = (s.instancesArray slot).instNumber)
      (before : (s.instancesArray slot).status = .p2Pending)
      (after : (t.instancesArray slot).status = .done)
      (told : .acceptance ⟨(t.instancesArray slot).instNumber,
        (t.instancesArray slot).assignedCmdKey⟩ ∈ t.mcast)
  | taken (new : (t.instancesArray slot).instNumber = 0 ∨
        s.p1HighestOpen < (t.instancesArray slot).instNumber)
      (after : (t.instancesArray slot).status = .ready)
      (old : (s.instancesArray slot).status = .done →
        (s.instancesArray slot).instNumber ≤ s.highestClosedIid)

theorem SlotStep.of_slot {slot : ℕ} {mir : McasterInstanceRecord}
    (slots : t.instancesArray = setSlot s.instancesArray slot mir)
    (here : t.instancesArray slot = mir → SlotStep returns s t slot) (slot' : ℕ) :
    SlotStep returns s t slot' := by
  by_cases same : slot' = slot
  · subst same
    exact here (by rw [slots, setSlot_self])
  · have kept : t.instancesArray slot' = s.instancesArray slot' := by
      rw [slots, setSlot_of_ne _ _ _ _ same]
    exact .same (by rw [kept]) (by rw [kept])

theorem SlotStep.of_same (slots : t.instancesArray = s.instancesArray) (slot : ℕ) :
    SlotStep returns s t slot :=
  .same (by rw [slots]) (by rw [slots])

theorem Life.slotStep_take (h : Life cfg s) (allowed : i ≤ windowEnd cfg s.highestClosedIid)
    (free : Takeable (s.record cfg i) i) (slot : ℕ) :
    SlotStep returns s (takeSlot cfg s i) slot := by
  refine .of_slot rfl (fun here => ?_) slot
  have effect : Effect cfg (oneLife cfg fun _ => False) s (takeSlot cfg s i) :=
    .take i allowed free
  refine .taken ?_ (by rw [here, takenRecord_status]) fun done => ?_
  · rw [here, takenRecord_instNumber]
    exact h.takes_new free
  · by_cases unused : (s.record cfg i).instNumber = 0
    · exact unused.trans_le (Nat.zero_le _)
    · have listed : ⟨s.record cfg i, s.highestClosedIid⟩ ∈ (takeSlot cfg s i).replaced := by
        change _ ∈ takenReplaced cfg s i
        rw [takenReplaced, if_neg unused]
        exact List.mem_cons_self
      exact (h.replaced_kept effect _ listed).2

theorem Life.slotStep (h : Life cfg s) (move : Move cfg (oneLife cfg returns) s t) (slot : ℕ) :
    SlotStep returns s t slot := by
  cases move with
  | quiet quiet => exact .of_same (quiet ▸ rfl) slot
  | take i allowed free => exact Life.slotStep_take h allowed free slot
  | phase1 slot' mir phase =>
    refine .of_slot rfl (fun here => .begun ?_ ?_ ?_) slot
    · rw [here]
      exact phase.instNumber
    · rcases phase.before with before | before <;> simp [before]
    · rw [here]
      exact phase.after.imp_right .inl
  | sendPhase1 slot' msg own => exact .same rfl rfl
  | sendRange msg allowed => exact .same rfl rfl
  | opened n few taken => exact .same rfl rfl
  | promised msg slot' pending =>
    rw [mcasterPromised_pending h.mappings pending]
    exact .of_slot rfl (fun here => .begun (by rw [here]) (by simp [pending]) (by simp [here])) slot
  | startP2 value allowed next =>
    obtain ⟨mir, m, slots, inst, status, -⟩ := startP2_effect cfg s value
    have ready : (s.instancesArray (msmSlot cfg (s.highestOpenIid + 1))).status = .p1Done :=
      next.ready
    refine .of_slot slots (fun here => .begun ?_ (by simp [ready]) (by simp [here, status])) slot
    rw [here]
    exact inst
  | repeatP2 slot' pending =>
    obtain ⟨mir, m, slots, inst, key, value, status, -⟩ := repeatP2_effect cfg s slot'
    refine .of_slot slots (fun here => .begun ?_ (by simp [pending]) (by simp [here, status])) slot
    rw [here]
    exact inst
  | complete slot' msg returned completes =>
    refine .of_slot rfl (fun here => .closed msg returned ?_ completes.pending ?_ ?_) slot
    · rw [here]
    · rw [here]
    · exact List.mem_cons_self
  | advance slot' done next => exact .same rfl rfl
  | repeatMap j allowed own =>
    exact .of_slot rfl (fun here => .same (by rw [here]) (by rw [here])) slot
  | repeatAcceptance slot' done => exact .same rfl rfl

theorem Move.accepts (move : Move cfg (oneLife cfg returns) s t) (h : Life cfg s) {a : AcceptanceMsg}
    (sent : .acceptance a ∈ t.mcast) : .acceptance a ∈ s.mcast ∨
      ∃ slot, (t.instancesArray slot).status = .done ∧
        a = ⟨(t.instancesArray slot).instNumber, (t.instancesArray slot).assignedCmdKey⟩ := by
  cases move with
  | quiet quiet =>
    have same : t.mcast = s.mcast := quiet ▸ rfl
    exact .inl (same ▸ sent)
  | promised msg slot pending =>
    rw [mcasterPromised_pending h.mappings pending] at sent
    exact .inl sent
  | startP2 value allowed next =>
    obtain ⟨mir, m, slots, inst, status, -, -, mcast⟩ := startP2_effect cfg s value
    rw [mcast] at sent
    exact .inl (by simpa using sent)
  | repeatP2 slot pending =>
    obtain ⟨mir, m, slots, inst, key, value, status, -, -, mcast⟩ := repeatP2_effect cfg s slot
    rw [mcast] at sent
    exact .inl (by simpa using sent)
  | complete slot msg returned completes =>
    rcases List.mem_cons.mp sent with new | old
    · cases new
      exact .inr ⟨slot, by simp [mcasterBroadcastAcceptance, Mcaster.sendMcast, Mcaster.withRecord],
        rfl⟩
    · exact .inl old
  | repeatMap j allowed own => exact .inl ((List.mem_cons.mp sent).resolve_left (by simp))
  | repeatAcceptance slot done =>
    rcases List.mem_cons.mp sent with new | old
    · cases new
      exact .inr ⟨slot, done, rfl⟩
    · exact .inl old
  | take | phase1 | sendPhase1 | sendRange | opened | advance => exact .inl sent

def OpensNone (s : Mcaster) (o : McasterOutcome) : Prop :=
  o.state.p1HighestOpen = s.p1HighestOpen

theorem OpensNone.bind {o : McasterOutcome} {f : Mcaster → McasterOutcome} (first : OpensNone s o)
    (next : ∀ t, OpensNone t (f t)) : OpensNone s (o.bind f) :=
  Outcome.bind_state (R := fun s t : Mcaster => t.p1HighestOpen = s.p1HighestOpen)
    (fun _ _ _ h h' => h'.trans h) first next

theorem opensNone_fold {ε : Type*} {f : Mcaster → ε → McasterOutcome} (s : Mcaster) (es : List ε)
    (turn : ∀ e ∈ es, ∀ t, OpensNone t (f t e)) : OpensNone s (Outcome.fold f s es) :=
  Outcome.fold_state (R := fun s t : Mcaster => t.p1HighestOpen = s.p1HighestOpen) (fun _ => rfl)
    (fun _ _ _ h h' => h'.trans h) s es turn

theorem mcasterStorageGet_opensNone (cfg : Config) (s : Mcaster) (i : ℕ) :
    OpensNone s (mcasterStorageGet cfg s i) := by
  rcases mcasterStorageGet_cases cfg s i with ⟨fault, stopped⟩ | same | ⟨-, taken⟩
  · rw [stopped]
    rfl
  · rw [same]
    rfl
  · rw [taken]
    rfl

theorem mcasterDoPhase1_opensNone (s : Mcaster) (slot : ℕ) :
    OpensNone s (mcasterDoPhase1 cfg s slot) := by
  unfold mcasterDoPhase1
  dsimp only
  split_ifs <;> rfl

theorem mcasterCheckExpiredInstances_opensNone (s : Mcaster) :
    OpensNone s (mcasterCheckExpiredInstances cfg s) := by
  refine opensNone_fold s _ fun i _ t => (mcasterStorageGet_opensNone cfg t i).bind fun u => ?_
  dsimp only
  split_ifs
  · exact mcasterDoPhase1_opensNone u _
  · rfl
  · rfl

theorem mcasterNextValue_opensNone (cfg : Config) (s : Mcaster) :
    (mcasterNextValue cfg s).state.1.p1HighestOpen = s.p1HighestOpen := by
  unfold mcasterNextValue
  dsimp only
  split_ifs
  · rfl
  · rfl
  · rfl
  · have got := mcasterStorageGet_opensNone cfg s (s.highestOpenIid + 1)
    cases found : mcasterStorageGet cfg s (s.highestOpenIid + 1) with
    | aborted fault t =>
      rw [found] at got
      exact got
    | running t =>
      rw [found] at got
      simp only [Outcome.andThen_running]
      split_ifs
      · exact got
      · exact got
      · exact got
      · cases t.queue <;> exact got

theorem mcasterOpenInstanceP2_opensNone (s : Mcaster) (value : Value) :
    OpensNone s (mcasterOpenInstanceP2 cfg s value) := by
  unfold mcasterOpenInstanceP2 mcasterStorageAssignValue
  dsimp only
  split_ifs <;> rfl

theorem mcasterOpenNewInstancesP2_opensNone (turns : ℕ) (s : Mcaster) :
    OpensNone s (mcasterOpenNewInstancesP2 cfg turns s) := by
  induction turns generalizing s with
  | zero => rfl
  | succ turns ih =>
    have next := mcasterNextValue_opensNone cfg s
    unfold mcasterOpenNewInstancesP2
    cases taken : mcasterNextValue cfg s with
    | aborted fault r =>
      rw [taken] at next
      exact next
    | running r =>
      obtain ⟨t, value⟩ := r
      rw [taken] at next
      cases value with
      | none => exact next
      | some value =>
        exact Eq.trans ((mcasterOpenInstanceP2_opensNone t value).bind ih) next

theorem mcasterHandlePhase1RangeMsg_opensNone (s : Mcaster) (msg : Phase1RangeMsg) :
    OpensNone s (mcasterHandlePhase1RangeMsg cfg s msg) := by
  unfold mcasterHandlePhase1RangeMsg
  split_ifs
  · rfl
  · rfl
  · refine opensNone_fold s _ fun i _ t => (mcasterStorageGet_opensNone cfg t i).bind fun u => ?_
    dsimp only
    split_ifs <;> rfl
  · rfl

theorem mcasterHandlePhase1Msg_opensNone (s : Mcaster) (msg : Phase1Msg) :
    OpensNone s (mcasterHandlePhase1Msg cfg s msg) := by
  unfold mcasterHandlePhase1Msg
  split_ifs
  · rfl
  · refine (mcasterStorageGet_opensNone cfg s _).bind fun t => ?_
    unfold mcasterPhase1Returned
    dsimp only
    split_ifs
    · rfl
    · rfl
    · exact mcasterDoPhase1_opensNone (t.withRecord _ _) _
    · exact mcasterDoPhase1_opensNone (t.withRecord _ _) _
    · exact (mcasterPromised_indices t msg _).p1Highest
  · rfl

theorem mcasterHandleRequest_opensNone (s : Mcaster) (msg : Request) :
    OpensNone s (mcasterHandleRequest cfg s msg) := by
  cases msg with
  | mapRequest iids =>
    refine opensNone_fold s _ fun i _ t => (mcasterStorageGet_opensNone cfg t i).bind fun u => ?_
    split_ifs <;> rfl
  | chosenvalRequest iids =>
    refine opensNone_fold s _ fun i _ t => (mcasterStorageGet_opensNone cfg t i).bind fun u => ?_
    split_ifs <;> rfl

structure InPhase1Of (cfg : Config) (s : Mcaster) (i : ℕ) : Prop where
  own : (s.record cfg i).instNumber = i
  pending : (s.record cfg i).status = .p1Pending

/-- A turn of the opening loop cannot take a slot from an instance in phase 1. -/
theorem mcasterOpenInstanceP1_keeps {ballot : Ballot} {j : ℕ}
    (done : mcasterOpenInstanceP1 cfg ballot s j = .running t) :
    InPhase1Of cfg t j ∧ ∀ i, 0 < i → InPhase1Of cfg s i → InPhase1Of cfg t i := by
  obtain ⟨u, got, next⟩ := Outcome.bind_eq_running.mp done
  have own := mcasterStorageGet_own got
  dsimp only at next
  split_ifs at next with ready
  cases next
  refine ⟨⟨by rw [record_withRecord]; exact own, by rw [record_withRecord]⟩, ?_⟩
  rintro i positive ⟨inst, pending⟩
  have other : msmSlot cfg i ≠ msmSlot cfg j := by
    intro same
    have here : s.record cfg j = s.record cfg i := congrArg s.instancesArray same.symm
    rcases mcasterStorageGet_cases cfg s j with ⟨fault, stopped⟩ | kept | ⟨free, -⟩
    · cases got.symm.trans stopped
    · cases got.symm.trans kept
      rw [here] at ready
      cases pending.symm.trans ready
    · rw [here] at free
      rcases free with unused | ⟨-, closed⟩
      · omega
      · cases pending.symm.trans closed
  have kept : s.record cfg i = u.record cfg i := by
    rcases mcasterStorageGet_cases cfg s j with ⟨fault, stopped⟩ | same | ⟨-, taken⟩
    · cases got.symm.trans stopped
    · cases got.symm.trans same
      rfl
    · cases got.symm.trans taken
      exact (setSlot_of_ne _ _ _ _ other).symm
  have same : (u.withRecord (msmSlot cfg j) { u.record cfg j with
      status := .p1Pending
      ballot := ballot
      timeout := timerSetTimeout u.mcasterClock cfg.p1Interval }).record cfg i = s.record cfg i :=
    (setSlot_of_ne _ _ _ _ other).trans kept.symm
  exact ⟨by rw [same]; exact inst, by rw [same]; exact pending⟩

theorem openLoop_pending {ballot : Ballot} {iids : List ℕ} (positive : ∀ i ∈ iids, 0 < i)
    (done : Outcome.fold (mcasterOpenInstanceP1 cfg ballot) s iids = .running t) :
    (∀ i ∈ iids, InPhase1Of cfg t i) ∧ ∀ i, 0 < i → InPhase1Of cfg s i → InPhase1Of cfg t i := by
  induction iids generalizing s with
  | nil =>
    cases done
    exact ⟨(fun _ h => nomatch h), fun _ _ h => h⟩
  | cons j iids ih =>
    obtain ⟨head, tail⟩ := List.forall_mem_cons.mp positive
    obtain ⟨u, first, rest⟩ := Outcome.bind_eq_running.mp done
    obtain ⟨own, keeps⟩ := mcasterOpenInstanceP1_keeps first
    obtain ⟨others, keeps'⟩ := ih tail rest
    exact ⟨List.forall_mem_cons.mpr ⟨keeps' j head own, others⟩,
      fun i low waits => keeps' i low (keeps i low waits)⟩

end FdsPaxos.RingIndexSteps
