import FdsPaxos.RingRecordSteps

set_option autoImplicit false

namespace FdsPaxos.RingPhase1Counters
open TransitionRuns CircularWindow RingConfig RingMessages RingMcasterStorage RingMulticaster
open RingMulticasterMoves RingWorld
open RingWindows (Busy takenRecord_status)
open RingRecordSteps (Unassigned unassigned_setSlot)

section Definitions

def Begun (mir : McasterInstanceRecord) : Prop :=
  mir.status = .p1Pending ∨ mir.status = .p1Done

instance (mir : McasterInstanceRecord) : Decidable (Begun mir) :=
  inferInstanceAs (Decidable (_ ∨ _))

variable (cfg : Config)

def statusCount (status : McasterInstanceStatus) (s : Mcaster) : ℕ :=
  slotCount cfg.msmSize (fun mir => mir.status = status) s.instancesArray

/-- The instances above `highest_open_iid` that are in phase 1 or ready for phase 2. -/
def preparedCount (s : Mcaster) : ℕ :=
  slotCount cfg.msmSize (fun mir => s.highestOpenIid < mir.instNumber ∧ Begun mir)
    s.instancesArray

structure CountersRight (s : Mcaster) : Prop where
  pending : s.p1PendingCount.toNat = statusCount cfg .p1Pending s
  ready : s.p1ReadyCount.toNat = statusCount cfg .p1Done s

structure HalfPrepared (s : Mcaster) : Prop where
  half : cfg.preexecutionWindowSize ≤ 2 * preparedCount cfg s
  within : preparedCount cfg s ≤ cfg.preexecutionWindowSize

/-- The window is right when a periodic check has opened new instances. -/
def WindowRight (w : RingState) : RingEvent → Prop
  | .periodicCheck clock => ∀ s t, w.mcaster = .running s →
    mcasterOpenNewInstancesP1 cfg (mcasterUpdateWallclock s (clock 0)) = .running t →
      HalfPrepared cfg t
  | _ => True

/-- The window is right, and so are the counters once the event is over. -/
structure Phase1Right (w : RingState) (e : RingEvent) : Prop where
  counters : ∀ s, (ringStep cfg w e).mcaster = .running s → CountersRight cfg s
  window : WindowRight cfg w e

/-- What a periodic check finds in the counter of ready instances. -/
def CheckFinds (P : ℕ → Prop) (w : RingState) : RingEvent → Prop
  | .periodicCheck _ => ∀ s, w.mcaster = .running s → P s.p1ReadyCount.toNat
  | _ => True

/-- Twice the instances counted fill the window. -/
def Enough (count : ℕ) : Prop := cfg.preexecutionWindowSize ≤ 2 * count

/-- Twice the instances counted are less than the half that is tested for. -/
def Few (count : ℕ) : Prop := 2 * count < cfg.preexecutionWindowSize / 2

end Definitions

variable {cfg : Config} {s t u : Mcaster} {i n k slot : ℕ}

/-- Phase 1 was begun for the instances that follow the open ones up to `n`, and no others. -/
structure BegunUpTo (cfg : Config) (n : ℕ) (s : Mcaster) : Prop where
  only : ∀ slot, Begun (s.instancesArray slot) →
    msmSlot cfg (s.instancesArray slot).instNumber = slot ∧
      s.highestOpenIid < (s.instancesArray slot).instNumber ∧
      (s.instancesArray slot).instNumber ≤ n
  all : ∀ i, s.highestOpenIid < i → i ≤ n →
    (s.record cfg i).instNumber = i ∧ Begun (s.record cfg i)

/-- One counter counts the instances for which phase 1 was begun, and the other none. -/
structure Counted (cfg : Config) (s : Mcaster) : Prop where
  begun : BegunUpTo cfg s.p1HighestOpen s
  unassigned : ∀ slot, Unassigned (s.instancesArray slot)
  counted : s.p1HighestOpen = s.highestOpenIid + s.p1ReadyCount.toNat
  within : s.p1ReadyCount.toNat ≤ cfg.preexecutionWindowSize
  unused : s.p1PendingCount = 0

theorem Begun.not_busy {mir : McasterInstanceRecord} (begun : Begun mir) : ¬ Busy mir := by
  unfold Busy
  rcases begun with status | status <;> simp [status]

theorem BegunUpTo.slotCount (h : BegunUpTo cfg (s.highestOpenIid + n) s) (fits : n ≤ cfg.msmSize) :
    CircularWindow.slotCount cfg.msmSize Begun s.instancesArray = n := by
  refine slotCount_window s.highestOpenIid fits fun slot inside => ?_
  constructor
  · intro begun
    obtain ⟨home, above, le⟩ := h.only slot begun
    exact ⟨_, above, le, home⟩
  · rintro ⟨i, above, le, rfl⟩
    exact (h.all i above le).2

theorem Counted.fits (h : Counted cfg s) : s.p1ReadyCount.toNat ≤ cfg.msmSize := by
  have within := h.within
  have gt := cfg.workingSet_gt
  unfold Config.msmSize
  omega

theorem Counted.begunCount (h : Counted cfg s) :
    slotCount cfg.msmSize Begun s.instancesArray = s.p1ReadyCount.toNat :=
  BegunUpTo.slotCount (h.counted ▸ h.begun) h.fits

theorem Counted.readyCount (h : Counted cfg s) :
    s.p1ReadyCount.toNat = statusCount cfg .p1Pending s + statusCount cfg .p1Done s := by
  rw [← h.begunCount]
  exact slotCount_or fun slot _ pending => by simp [pending]

theorem Counted.prepared (h : Counted cfg s) :
    preparedCount cfg s = s.p1ReadyCount.toNat := by
  rw [← h.begunCount]
  refine slotCount_congr fun slot _ => ⟨And.right, fun begun => ⟨?_, begun⟩⟩
  exact (h.begun.only slot begun).2.1

theorem Counted.countersRight_iff (h : Counted cfg s) :
    CountersRight cfg s ↔ statusCount cfg .p1Pending s = 0 := by
  have sum := h.readyCount
  have unused : s.p1PendingCount.toNat = 0 := congrArg UInt32.toNat h.unused
  constructor
  · intro right
    rw [← right.pending, unused]
  · intro none
    exact ⟨by omega, by omega⟩

theorem counted_init (cfg : Config) : Counted cfg multicasterInit where
  begun :=
    { only := fun slot begun => absurd begun (by simp [multicasterInit, Begun])
      all := by
        intro i above le
        change 0 < i at above
        change i ≤ 0 at le
        omega }
  unassigned := fun _ _ => rfl
  counted := rfl
  within := Nat.zero_le _
  unused := rfl

/-- A record before and after a step that begins no phase 1 and proposes no value. -/
structure RecordKept (mir mir' : McasterInstanceRecord) : Prop where
  begun : Begun mir' ↔ Begun mir
  own : Begun mir → mir'.instNumber = mir.instNumber
  unassigned : Unassigned mir → Unassigned mir'

structure Keeps (s t : Mcaster) : Prop where
  highestOpen : t.highestOpenIid = s.highestOpenIid
  p1Highest : t.p1HighestOpen = s.p1HighestOpen
  p1Ready : t.p1ReadyCount = s.p1ReadyCount
  p1Pending : t.p1PendingCount = s.p1PendingCount
  records : ∀ slot, RecordKept (s.instancesArray slot) (t.instancesArray slot)

theorem RecordKept.refl (mir : McasterInstanceRecord) : RecordKept mir mir :=
  ⟨Iff.rfl, fun _ => rfl, id⟩

theorem RecordKept.of_same {mir mir' : McasterInstanceRecord}
    (own : mir'.instNumber = mir.instNumber) (value : mir'.assignedCmdValue = mir.assignedCmdValue)
    (begun : Begun mir' ↔ Begun mir) (busy : Busy mir → Busy mir') : RecordKept mir mir' where
  begun := begun
  own := fun _ => own
  unassigned := fun free => free.same own value busy

theorem Keeps.refl (s : Mcaster) : Keeps s s :=
  ⟨rfl, rfl, rfl, rfl, fun _ => .refl _⟩

theorem recordKept_setSlot {mir : McasterInstanceRecord}
    (slots : t.instancesArray = setSlot s.instancesArray slot mir)
    (kept : RecordKept (s.instancesArray slot) mir) (slot' : ℕ) :
    RecordKept (s.instancesArray slot') (t.instancesArray slot') := by
  rw [slots, setSlot_apply]
  split_ifs with here
  · exact here ▸ kept
  · exact .refl _

theorem Keeps.withRecord {mir : McasterInstanceRecord}
    (kept : RecordKept (s.instancesArray slot) mir) : Keeps s (s.withRecord slot mir) :=
  ⟨rfl, rfl, rfl, rfl, recordKept_setSlot rfl kept⟩

theorem BegunUpTo.keeps (h : BegunUpTo cfg n s) (keeps : Keeps s t) : BegunUpTo cfg n t where
  only := by
    intro slot begun
    have begun := (keeps.records slot).begun.mp begun
    rw [(keeps.records slot).own begun, keeps.highestOpen]
    exact h.only slot begun
  all := by
    intro i above le
    obtain ⟨own, begun⟩ := h.all i (keeps.highestOpen ▸ above) le
    have kept := keeps.records (msmSlot cfg i)
    exact ⟨(kept.own begun).trans own, kept.begun.mpr begun⟩

theorem BegunUpTo.drop_first {mir : McasterInstanceRecord} (h : BegunUpTo cfg n s)
    (own : (s.record cfg (s.highestOpenIid + 1)).instNumber = s.highestOpenIid + 1)
    (slots : t.instancesArray =
      setSlot s.instancesArray (msmSlot cfg (s.highestOpenIid + 1)) mir)
    (ended : ¬ Begun mir) (opened : t.highestOpenIid = s.highestOpenIid + 1) :
    BegunUpTo cfg n t where
  only := by
    intro slot begun
    rw [slots, setSlot_apply] at begun ⊢
    split_ifs at begun ⊢ with here
    · exact absurd begun ended
    · obtain ⟨home, above, le⟩ := h.only slot begun
      rw [opened]
      refine ⟨home, lt_of_le_of_ne above fun same => here ?_, le⟩
      rw [← home, ← same]
  all := by
    intro i above le
    rw [opened] at above
    obtain ⟨own', begun⟩ := h.all i (by omega) le
    have other : msmSlot cfg i ≠ msmSlot cfg (s.highestOpenIid + 1) := by
      intro same
      have record : s.record cfg i = s.record cfg (s.highestOpenIid + 1) :=
        congrArg s.instancesArray same
      rw [record, own] at own'
      omega
    have kept : t.record cfg i = s.record cfg i := by
      rw [Mcaster.record, slots]
      exact setSlot_of_ne _ _ _ _ other
    rw [kept]
    exact ⟨own', begun⟩

theorem BegunUpTo.add_next {mir : McasterInstanceRecord} (h : BegunUpTo cfg n s)
    (idle : ¬ Begun (s.record cfg (n + 1)))
    (slots : t.instancesArray = setSlot s.instancesArray (msmSlot cfg (n + 1)) mir)
    (own : mir.instNumber = n + 1) (begun : Begun mir)
    (opened : t.highestOpenIid = s.highestOpenIid) (open_le : s.highestOpenIid ≤ n) :
    BegunUpTo cfg (n + 1) t where
  only := by
    intro slot status
    rw [slots, setSlot_apply] at status ⊢
    rw [opened]
    split_ifs at status ⊢ with here
    · rw [own]
      exact ⟨here.symm, by omega, le_rfl⟩
    · obtain ⟨home, above, le⟩ := h.only slot status
      exact ⟨home, above, by omega⟩
  all := by
    intro i above le
    rw [opened] at above
    rw [Mcaster.record, slots]
    rcases Nat.lt_or_ge n i with last | within
    · obtain rfl : i = n + 1 := by omega
      rw [setSlot_self]
      exact ⟨own, begun⟩
    · obtain ⟨own', status⟩ := h.all i above within
      have other : msmSlot cfg i ≠ msmSlot cfg (n + 1) := by
        intro same
        have record : s.record cfg i = s.record cfg (n + 1) := congrArg s.instancesArray same
        exact idle (record ▸ status)
      rw [setSlot_of_ne _ _ _ _ other]
      exact ⟨own', status⟩

theorem Counted.keeps (h : Counted cfg s) (keeps : Keeps s t) : Counted cfg t where
  begun := keeps.p1Highest ▸ h.begun.keeps keeps
  unassigned := fun slot => (keeps.records slot).unassigned (h.unassigned slot)
  counted := by
    rw [keeps.p1Highest, keeps.highestOpen, keeps.p1Ready]
    exact h.counted
  within := keeps.p1Ready ▸ h.within
  unused := keeps.p1Pending.trans h.unused

theorem BegunUpTo.keeps_take (h : BegunUpTo cfg n s) (free : Takeable (s.record cfg i) i) :
    Keeps s (takeSlot cfg s i) := by
  have idle : ¬ Begun (s.record cfg i) := by
    intro begun
    have above := (h.only _ begun).2.1
    change s.highestOpenIid < (s.record cfg i).instNumber at above
    rcases free with unused | ⟨-, done⟩
    · omega
    · exact begun.not_busy (.inr done)
  refine ⟨rfl, rfl, rfl, rfl, recordKept_setSlot rfl ⟨?_, fun begun => absurd begun idle, ?_⟩⟩
  · refine iff_of_false ?_ idle
    simp [Begun, takenRecord_status]
  · intro unassigned _
    unfold takenRecord
    split_ifs with unused
    · exact unassigned (.inl unused)
    · rfl

theorem BegunUpTo.keeps_get (h : BegunUpTo cfg n s) (i : ℕ) :
    Keeps s (mcasterStorageGet cfg s i).state := by
  rcases mcasterStorageGet_cases cfg s i with ⟨fault, stopped⟩ | same | ⟨free, taken⟩
  · rw [stopped]
    exact .refl s
  · rw [same]
    exact .refl s
  · rw [taken]
    exact h.keeps_take free

def Holds (cfg : Config) (s t : Mcaster) : Prop := Counted cfg s → Counted cfg t

theorem Holds.refl (s : Mcaster) : Holds cfg s s := id

theorem Holds.trans (h : Holds cfg s t) (h' : Holds cfg t u) : Holds cfg s u := h' ∘ h

theorem Holds.of_keeps (keeps : Keeps s t) : Holds cfg s t := fun h => h.keeps keeps

theorem Holds.bind {o : McasterOutcome} {f : Mcaster → McasterOutcome}
    (first : Holds cfg s o.state) (next : ∀ t, Holds cfg t (f t).state) :
    Holds cfg s (o.bind f).state :=
  Outcome.bind_state (R := Holds cfg) (fun _ _ _ => Holds.trans) first next

theorem Holds.fold {ε : Type*} {f : Mcaster → ε → McasterOutcome} (s : Mcaster) (es : List ε)
    (turn : ∀ e ∈ es, ∀ t, Holds cfg t (f t e).state) :
    Holds cfg s (Outcome.fold f s es).state :=
  Outcome.fold_state (R := Holds cfg) Holds.refl (fun _ _ _ => Holds.trans) s es turn

theorem mcasterStorageGet_holds (cfg : Config) (s : Mcaster) (i : ℕ) :
    Holds cfg s (mcasterStorageGet cfg s i).state :=
  fun h => Holds.of_keeps (h.begun.keeps_get i) h

theorem mcasterDoPhase1_holds (pending : (s.instancesArray slot).status = .p1Pending) :
    Holds cfg s (mcasterDoPhase1 cfg s slot).state := by
  unfold mcasterDoPhase1
  dsimp only
  split_ifs
  · exact .refl s
  · refine .of_keeps ⟨rfl, rfl, rfl, rfl, recordKept_setSlot rfl ?_⟩
    exact .of_same rfl rfl (by simp [Begun, pending]) (by simp [Busy, pending])

theorem repeatP2_holds (pending : (s.instancesArray slot).status = .p2Pending) :
    Holds cfg s (mcasterDoPhase2 cfg (mcasterBroadcastMapping cfg s slot) slot) := by
  obtain ⟨mir, m, slots, inst, key, value, status, -⟩ := repeatP2_effect cfg s slot
  refine .of_keeps ⟨rfl, rfl, rfl, rfl, recordKept_setSlot slots ?_⟩
  exact .of_same inst value (by simp [Begun, pending, status]) (by simp [Busy, status])

theorem mcasterCheckExpiredInstances_holds (s : Mcaster) :
    Holds cfg s (mcasterCheckExpiredInstances cfg s).state := by
  refine .fold s _ fun i _ t => (mcasterStorageGet_holds cfg t i).bind fun u => ?_
  dsimp only
  split_ifs with first second
  · exact mcasterDoPhase1_holds first.1
  · exact repeatP2_holds second.1
  · exact .refl u

theorem startP2_holds (value : Value) (next : NextReady cfg s) :
    Holds cfg s (mcasterStartPhase2 cfg (assignNext cfg s value)
      (msmSlot cfg (s.highestOpenIid + 1))) := by
  intro h
  obtain ⟨mir, m, slots, inst, status, -⟩ := RingWindows.startP2_effect cfg s value
  set v := mcasterStartPhase2 cfg (assignNext cfg s value) (msmSlot cfg (s.highestOpenIid + 1))
  have below := next.below
  have counted := h.counted
  have within := h.within
  have positive : s.p1ReadyCount.toNat ≠ 0 := fun zero => next.counted (UInt32.toNat_inj.mp zero)
  have less : v.p1ReadyCount.toNat = s.p1ReadyCount.toNat - 1 := by
    change (s.p1ReadyCount - 1).toNat = _
    have lt := s.p1ReadyCount.toNat_lt
    have one : (1 : UInt32).toNat = 1 := rfl
    rw [UInt32.toNat_sub]
    omega
  have ended : ¬ Begun mir := fun begun => begun.not_busy (.inl status)
  have assigned : Unassigned mir := by
    have own := next.own
    rintro (zero | idle)
    · omega
    · exact absurd (.inl status) idle
  refine ⟨h.begun.drop_first next.own slots ended rfl,
    unassigned_setSlot slots h.unassigned assigned, ?_, ?_, h.unused⟩
  · change s.p1HighestOpen = s.highestOpenIid + 1 + _
    omega
  · omega

theorem mcasterNextValue_holds (cfg : Config) (s : Mcaster) :
    Holds cfg s (mcasterNextValue cfg s).state.1 := by
  unfold mcasterNextValue
  dsimp only
  split_ifs
  · exact .refl s
  · exact .refl s
  · exact .refl s
  · have got := mcasterStorageGet_holds cfg s (s.highestOpenIid + 1)
    cases found : mcasterStorageGet cfg s (s.highestOpenIid + 1) with
    | aborted fault t =>
      rw [found] at got
      exact got
    | running t =>
      rw [found] at got
      simp only [Outcome.andThen_running]
      split_ifs
      · exact got
      · exact got
      · exact got
      · cases t.queue with
        | nil => exact got
        | cons value rest => exact got.trans (.of_keeps ⟨rfl, rfl, rfl, rfl, fun _ => .refl _⟩)

theorem mcasterOpenInstanceP2_holds (value : Value) (next : NextReady cfg s) :
    Holds cfg s (mcasterOpenInstanceP2 cfg s value).state := by
  unfold mcasterOpenInstanceP2 mcasterStorageAssignValue
  dsimp only
  split_ifs
  · exact .refl s
  · exact startP2_holds value next

theorem mcasterOpenNewInstancesP2_holds (turns : ℕ) (s : Mcaster) :
    Holds cfg s (mcasterOpenNewInstancesP2 cfg turns s).state := by
  induction turns generalizing s with
  | zero => exact .refl s
  | succ turns ih =>
    have first := mcasterNextValue_holds cfg s
    have covers : Covers cfg RingRecordSteps.anything s := fun _ _ _ _ => trivial
    have gives := (mcasterNextValue_moves s covers).2
    unfold mcasterOpenNewInstancesP2
    cases taken : mcasterNextValue cfg s with
    | aborted fault r =>
      rw [taken] at first
      exact first
    | running r =>
      obtain ⟨t, found⟩ := r
      rw [taken] at first
      cases found with
      | none => exact first
      | some value =>
        exact first.trans ((mcasterOpenInstanceP2_holds value (gives t value taken)).bind ih)

theorem mcasterHandlePhase1RangeMsg_holds (s : Mcaster) (msg : Phase1RangeMsg) :
    Holds cfg s (mcasterHandlePhase1RangeMsg cfg s msg).state := by
  unfold mcasterHandlePhase1RangeMsg
  split_ifs
  · exact .refl s
  · exact .of_keeps ⟨rfl, rfl, rfl, rfl, fun _ => .refl _⟩
  · refine .fold s _ fun i _ t => (mcasterStorageGet_holds cfg t i).bind fun u => ?_
    dsimp only
    split_ifs with pending
    · have pending : (u.instancesArray (msmSlot cfg i)).status = .p1Pending := pending
      refine .of_keeps (.withRecord (.of_same rfl rfl ?_ ?_))
      · simp [Begun, pending]
      · simp [Busy, pending]
    · exact .refl u
  · exact .refl s

/-- An instance in phase 1 has no value, so what was promised only makes it ready. -/
theorem mcasterPromised_holds (msg : Phase1Msg)
    (pending : (s.instancesArray slot).status = .p1Pending) :
    Holds cfg s (mcasterPromised cfg s msg slot) := by
  intro h
  have none := h.unassigned slot (.inr (Begun.not_busy (.inl pending)))
  unfold mcasterPromised
  dsimp only
  rw [if_pos none]
  refine Holds.of_keeps (.withRecord (.of_same rfl rfl ?_ ?_)) h
  · simp [Begun, pending]
  · simp [Busy, pending]

theorem mcasterHandlePhase1Msg_holds (s : Mcaster) (msg : Phase1Msg) :
    Holds cfg s (mcasterHandlePhase1Msg cfg s msg).state := by
  unfold mcasterHandlePhase1Msg
  split_ifs
  · exact .refl s
  · refine (mcasterStorageGet_holds cfg s _).bind fun t => ?_
    unfold mcasterPhase1Returned
    dsimp only
    by_cases pending : (t.record cfg msg.instNumber).status = .p1Pending
    · rw [if_neg (not_not.mpr pending)]
      have again (ballot : Ballot) : Holds cfg t (mcasterDoPhase1 cfg
          (t.withRecord (msmSlot cfg msg.instNumber)
            { t.record cfg msg.instNumber with ballot := ballot })
          (msmSlot cfg msg.instNumber)).state := by
        have raised : RecordKept (t.record cfg msg.instNumber)
            { t.record cfg msg.instNumber with ballot := ballot } := .of_same rfl rfl Iff.rfl id
        refine (Holds.of_keeps (.withRecord raised)).trans (mcasterDoPhase1_holds ?_)
        simpa [Mcaster.withRecord] using pending
      split_ifs
      · exact .refl t
      · exact again _
      · exact again _
      · exact mcasterPromised_holds msg pending
    · rw [if_pos pending]
      exact .refl t
  · exact .refl s

theorem mcasterAdvanceClosed_holds (turns : ℕ) (s : Mcaster) (iid : ℕ) :
    Holds cfg s (mcasterAdvanceClosed cfg turns s iid).state := by
  induction turns generalizing s iid with
  | zero => exact .refl s
  | succ turns ih =>
    unfold mcasterAdvanceClosed
    dsimp only
    split_ifs
    · refine Holds.bind (Holds.trans (.of_keeps ?_) (mcasterStorageGet_holds cfg _ _)) fun t => ih t _
      exact ⟨rfl, rfl, rfl, rfl, fun _ => .refl _⟩
    · exact .refl s

theorem mcasterHandlePhase2Msg_holds (s : Mcaster) (msg : Phase2Msg) :
    Holds cfg s (mcasterHandlePhase2Msg cfg s msg).state := by
  unfold mcasterHandlePhase2Msg
  split_ifs
  · exact .refl s
  · refine (mcasterStorageGet_holds cfg s _).bind fun t => ?_
    unfold mcasterPhase2Returned
    dsimp only
    by_cases pending : (t.record cfg msg.instNumber).status = .p2Pending
    · rw [if_neg (not_not.mpr pending)]
      split_ifs
      · exact .refl t
      · exact .refl t
      · exact repeatP2_holds pending
      · have done : RecordKept (t.record cfg msg.instNumber)
            { t.record cfg msg.instNumber with status := .done } := by
          exact .of_same rfl rfl (by simp [Begun, pending]) (by simp [Busy])
        refine (Holds.of_keeps (.withRecord done)).trans (Holds.trans (.of_keeps ?_)
          (mcasterAdvanceClosed_holds _ _ _))
        exact ⟨rfl, rfl, rfl, rfl, fun _ => .refl _⟩
    · rw [if_pos pending]
      exact .refl t

theorem mcasterHandleRequest_holds (s : Mcaster) (msg : Request) :
    Holds cfg s (mcasterHandleRequest cfg s msg).state := by
  cases msg with
  | mapRequest iids =>
    refine .fold s _ fun i _ t => (mcasterStorageGet_holds cfg t i).bind fun u => ?_
    split_ifs
    · refine .of_keeps ⟨rfl, rfl, rfl, rfl, recordKept_setSlot rfl ?_⟩
      exact .of_same rfl rfl Iff.rfl id
    · exact .refl u
  | chosenvalRequest iids =>
    refine .fold s _ fun i _ t => (mcasterStorageGet_holds cfg t i).bind fun u => ?_
    split_ifs
    · exact .of_keeps ⟨rfl, rfl, rfl, rfl, fun _ => .refl _⟩
    · exact .refl u

theorem quiet_holds (clock : Timeval) (queue : List Value) :
    Holds cfg s { s with mcasterClock := clock, queue := queue } :=
  .of_keeps ⟨rfl, rfl, rfl, rfl, fun _ => .refl _⟩

theorem mcasterOpenInstanceP1_begun {ballot : Ballot} (h : BegunUpTo cfg n s)
    (free : ∀ slot, Unassigned (s.instancesArray slot)) (open_le : s.highestOpenIid ≤ n)
    (done : mcasterOpenInstanceP1 cfg ballot s (n + 1) = .running t) :
    BegunUpTo cfg (n + 1) t ∧ (∀ slot, Unassigned (t.instancesArray slot)) ∧
      t.p1PendingCount = s.p1PendingCount := by
  obtain ⟨u, got, next⟩ := Outcome.bind_eq_running.mp done
  have own := mcasterStorageGet_own got
  have keeps := h.keeps_get (n + 1)
  rw [got] at keeps
  have keeps : Keeps s u := keeps
  dsimp only at next
  split_ifs at next with ready
  cases next
  have idle : ¬ Begun (u.record cfg (n + 1)) := by simp [Begun, ready]
  have unassigned (slot : ℕ) : Unassigned (u.instancesArray slot) :=
    (keeps.records slot).unassigned (free slot)
  have above : u.highestOpenIid ≤ n := keeps.highestOpen.le.trans open_le
  refine ⟨(h.keeps keeps).add_next idle rfl own (.inl rfl) rfl above,
    unassigned_setSlot rfl unassigned fun _ => ?_, keeps.p1Pending⟩
  have quiet : ¬ Busy (u.record cfg (n + 1)) := by simp [Busy, ready]
  exact unassigned _ (.inr quiet)

theorem openLoop_begun {ballot : Ballot} (h : BegunUpTo cfg n s)
    (free : ∀ slot, Unassigned (s.instancesArray slot)) (open_le : s.highestOpenIid ≤ n)
    (done : Outcome.fold (mcasterOpenInstanceP1 cfg ballot) s (List.range' (n + 1) k) =
      .running t) :
    BegunUpTo cfg (n + k) t ∧ (∀ slot, Unassigned (t.instancesArray slot)) ∧
      t.p1PendingCount = s.p1PendingCount := by
  induction k generalizing s n with
  | zero =>
    cases done
    exact ⟨h, free, rfl⟩
  | succ k ih =>
    obtain ⟨u, first, rest⟩ := Outcome.bind_eq_running.mp done
    have same := (mcasterOpenInstanceP1_takes first).2.2
    obtain ⟨begun, free, unused⟩ := mcasterOpenInstanceP1_begun h free open_le first
    have open_le : u.highestOpenIid ≤ n + 1 := by
      rw [same.highestOpen]
      omega
    obtain ⟨begun', free', unused'⟩ := ih begun free open_le rest
    rw [Nat.add_right_comm] at begun'
    exact ⟨begun', free', unused'.trans unused⟩

theorem Counted.ready_add (h : Counted cfg s) :
    (s.p1ReadyCount + s.p1ReadyCount).toNat = 2 * s.p1ReadyCount.toNat := by
  have fits := cfg.workingSet_int
  have gt := cfg.workingSet_gt
  have within := h.within
  rw [UInt32.toNat_add]
  omega

theorem Counted.openInstances (h : Counted cfg s)
    (done : mcasterOpenNewInstancesP1 cfg s = .running t) : Counted cfg t ∧
      t.p1ReadyCount.toNat = if 2 * s.p1ReadyCount.toNat < cfg.preexecutionWindowSize / 2
        then cfg.preexecutionWindowSize - s.p1ReadyCount.toNat else s.p1ReadyCount.toNat := by
  have fits := cfg.workingSet_int
  have gt := cfg.workingSet_gt
  have within := h.within
  have counted := h.counted
  unfold mcasterOpenNewInstancesP1 at done
  dsimp only at done
  rw [h.ready_add] at done
  split_ifs at done with enough
  · cases done
    rw [if_neg (by omega)]
    exact ⟨h, rfl⟩
  · obtain ⟨u, loop, rest⟩ := Outcome.bind_eq_running.mp done
    cases rest
    set toOpen := cfg.preexecutionWindowSize - 2 * s.p1ReadyCount.toNat with hto
    obtain ⟨-, -, same⟩ := openLoop_takes loop
    obtain ⟨begun, free, unused⟩ := openLoop_begun h.begun h.unassigned (by omega) loop
    have sum : (u.p1ReadyCount + UInt32.ofNat toOpen).toNat =
        s.p1ReadyCount.toNat + toOpen := by
      rw [same.p1Ready, UInt32.toNat_add, UInt32.toNat_ofNat']
      omega
    have few : 2 * s.p1ReadyCount.toNat < cfg.preexecutionWindowSize / 2 := by omega
    rw [if_pos few]
    refine ⟨⟨?_, free, ?_, ?_, unused.trans h.unused⟩, ?_⟩
    · change BegunUpTo cfg (u.p1HighestOpen + toOpen) _
      rw [same.p1Highest]
      exact ⟨begun.only, begun.all⟩
    · change u.p1HighestOpen + toOpen = u.highestOpenIid + (u.p1ReadyCount + _).toNat
      rw [sum, same.p1Highest, same.highestOpen]
      omega
    · change (u.p1ReadyCount + _).toNat ≤ _
      omega
    · change (u.p1ReadyCount + _).toNat = _
      omega

theorem Counted.halfPrepared_iff (h : Counted cfg s)
    (done : mcasterOpenNewInstancesP1 cfg s = .running t) :
    HalfPrepared cfg t ↔ Enough cfg s.p1ReadyCount.toNat ∨ Few cfg s.p1ReadyCount.toNat := by
  obtain ⟨after, count⟩ := h.openInstances done
  rw [← after.prepared] at count
  have within := h.within
  unfold Enough Few
  constructor
  · rintro ⟨half, -⟩
    rw [count] at half
    split_ifs at half with few
    · exact .inr few
    · exact .inl half
  · intro found
    split_ifs at count with few
    · exact ⟨by omega, by omega⟩
    · exact ⟨by omega, by omega⟩

variable {w : RingState} {e : RingEvent}

theorem Holds.ensures {o : McasterOutcome} (holds : Holds cfg s o.state) (h : Counted cfg s) :
    o.Ensures (Counted cfg) fun _ => True := by
  refine Outcome.ensures_of_running fun t done => ?_
  have counted := holds h
  rw [done] at counted
  exact counted

theorem Counted.periodicCheck (h : Counted cfg s) (clock : ℕ → Timeval) :
    (onMcasterPeriodicCheck cfg clock s).Ensures (Counted cfg) fun _ => True := by
  refine Outcome.Ensures.bind (I := Counted cfg) (Outcome.Ensures.bind (I := Counted cfg) ?_ ?_) ?_
  · refine Outcome.ensures_of_running fun t done => ?_
    exact (Counted.openInstances (quiet_holds (clock 0) s.queue h) done).1
  · intro t counted
    exact (mcasterCheckExpiredInstances_holds _).ensures (quiet_holds (clock 1) t.queue counted)
  · intro t counted
    exact (mcasterOpenNewInstancesP2_holds _ _).ensures (quiet_holds (clock 2) t.queue counted)

theorem Counted.onPredecessorMsg (h : Counted cfg s) (msg : RingMsg) :
    (RingMulticaster.onPredecessorMsg cfg s msg).Ensures (Counted cfg) fun _ => True := by
  cases msg with
  | phase1 msg => exact (mcasterHandlePhase1Msg_holds s msg).ensures h
  | phase1Range msg => exact (mcasterHandlePhase1RangeMsg_holds s msg).ensures h
  | phase2 msg => exact (mcasterHandlePhase2Msg_holds s msg).ensures h

theorem counted_event (h : w.mcaster.Ensures (Counted cfg) fun _ => True) (e : RingEvent) :
    (mcasterStep cfg w.mcaster e).Ensures (Counted cfg) fun _ => True := by
  have restarted (s : Mcaster) : Counted cfg (multicasterRestart s) :=
    (counted_init cfg).keeps ⟨rfl, rfl, rfl, rfl, fun _ => .refl _⟩
  cases running : w.mcaster with
  | aborted fault s => cases e <;> first | trivial | exact restarted s
  | running s =>
    rw [running] at h
    have h : Counted cfg s := h
    cases e with
    | submit value => exact quiet_holds s.mcasterClock _ h
    | periodicCheck clock => exact h.periodicCheck clock
    | toMcaster msg clock => exact (quiet_holds clock s.queue h).onPredecessorMsg msg
    | request l msg clock =>
      exact (mcasterHandleRequest_holds _ msg).ensures (quiet_holds clock s.queue h)
    | restart => exact restarted s
    | _ => exact h

theorem counted_step (h : w.mcaster.Ensures (Counted cfg) fun _ => True) (e : RingEvent) :
    (ringStep cfg w e).mcaster.Ensures (Counted cfg) fun _ => True := by
  unfold ringStep
  split_ifs
  · exact counted_event h e
  · exact h

theorem counted_run (cfg : Config) (late : ℕ → Bool) (events : List RingEvent) :
    (run (ringStep cfg) (ringInit late) events).mcaster.Ensures (Counted cfg) fun _ => True :=
  run_invariant (fun w : RingState => w.mcaster.Ensures (Counted cfg) fun _ => True)
    (counted_init cfg) fun _ e h => counted_step h e

theorem Counted.few_of_aborted {fault : McasterFault} (h : Counted cfg s)
    (stopped : mcasterOpenNewInstancesP1 cfg s = .aborted fault t) :
    Few cfg s.p1ReadyCount.toNat := by
  unfold mcasterOpenNewInstancesP1 at stopped
  dsimp only at stopped
  rw [h.ready_add] at stopped
  split_ifs at stopped with enough
  exact not_le.mp enough

theorem windowRight_iff (h : w.mcaster.Ensures (Counted cfg) fun _ => True) (e : RingEvent) :
    WindowRight cfg w e ↔ CheckFinds (fun count => Enough cfg count ∨ Few cfg count) w e := by
  cases e with
  | periodicCheck now =>
    cases running : w.mcaster with
    | aborted fault s =>
      refine iff_of_true (fun s' t same => ?_) fun s' same => ?_
      · cases running.symm.trans same
      · cases running.symm.trans same
    | running s =>
      rw [running] at h
      have counted : Counted cfg (mcasterUpdateWallclock s (now 0)) :=
        quiet_holds (now 0) s.queue h
      constructor
      · intro window s' same
        cases running.symm.trans same
        cases opened : mcasterOpenNewInstancesP1 cfg (mcasterUpdateWallclock s (now 0)) with
        | aborted fault t => exact .inr (counted.few_of_aborted opened)
        | running t => exact (counted.halfPrepared_iff opened).mp (window s t running opened)
      · intro finds s' t same opened
        cases running.symm.trans same
        exact (counted.halfPrepared_iff opened).mpr (finds s running)
  | _ => exact Iff.rfl

end FdsPaxos.RingPhase1Counters
