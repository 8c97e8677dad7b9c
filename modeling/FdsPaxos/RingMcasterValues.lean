import FdsPaxos.RingMulticasterMoves

set_option autoImplicit false

namespace FdsPaxos.RingMcasterValues
open TransitionRuns CircularWindow RingConfig RingMessages RingMcasterStorage RingMulticaster

variable {cfg : Config} {P : Value → Prop}

/-- A message without the report of an accepted command has no key and no value. -/
structure ReportFrom (P : Value → Prop) (msg : Phase1Msg) : Prop where
  accepted : msg.highestAcceptedBallot ≠ 0 → msg.cmdKey ≠ clearCmdKey ∧ P msg.cmdValue
  fresh : msg.highestAcceptedBallot = 0 → msg.cmdKey = clearCmdKey ∧ msg.cmdValue = []

structure MappingFrom (P : Value → Prop) (msg : CmdmapMsg) : Prop where
  named : msg.cmdKey ≠ clearCmdKey → P msg.cmdValue
  clear : msg.cmdKey = clearCmdKey → msg.cmdValue = []

def RingFrom (P : Value → Prop) : RingMsg → Prop
  | .phase1 msg => ReportFrom P msg
  | .phase1Range _ => True
  | .phase2 msg => msg.cmdKey ≠ clearCmdKey

def McastFrom (P : Value → Prop) : McastMsg → Prop
  | .commandMap msg => MappingFrom P msg
  | .acceptance msg => msg.cmdKey ≠ clearCmdKey
  | .phase2 msg => msg.cmdKey ≠ clearCmdKey

def Proposed (status : McasterInstanceStatus) : Prop := status = .p2Pending ∨ status = .done

structure RecordFrom (P : Value → Prop) (mir : McasterInstanceRecord) : Prop where
  value : ∀ v, mir.assignedCmdValue = some v → mir.assignedCmdKey ≠ clearCmdKey ∧ P v
  key : mir.assignedCmdValue = none → mir.assignedCmdKey = clearCmdKey
  proposed : Proposed mir.status → mir.assignedCmdValue ≠ none

structure McasterFrom (P : Value → Prop) (s : Mcaster) : Prop where
  queue : ∀ v ∈ s.queue, P v
  records : ∀ slot, RecordFrom P (s.instancesArray slot)
  ring : ∀ msg ∈ s.toSuccessor, RingFrom P msg
  mcast : ∀ msg ∈ s.mcast, McastFrom P msg

variable {s t : Mcaster} {mir mir' : McasterInstanceRecord} {slot : ℕ}

theorem RecordFrom.mapped (h : RecordFrom P mir) (instNumber : ℕ) :
    MappingFrom P ⟨instNumber, mir.assignedCmdKey, mir.assignedCmdValue.getD []⟩ := by
  cases assigned : mir.assignedCmdValue with
  | none => exact ⟨fun named => absurd (h.key assigned) named, fun _ => rfl⟩
  | some v =>
    obtain ⟨named, good⟩ := h.value v assigned
    exact ⟨fun _ => good, fun clear => absurd clear named⟩

theorem RecordFrom.named (h : RecordFrom P mir) (assigned : mir.assignedCmdValue ≠ none) :
    mir.assignedCmdKey ≠ clearCmdKey := by
  obtain ⟨v, found⟩ := Option.ne_none_iff_exists'.mp assigned
  exact (h.value v found).1

theorem RecordFrom.same (h : RecordFrom P mir) (key : mir'.assignedCmdKey = mir.assignedCmdKey)
    (value : mir'.assignedCmdValue = mir.assignedCmdValue)
    (fits : Proposed mir'.status → mir.assignedCmdValue ≠ none) : RecordFrom P mir' where
  value := by
    rw [key, value]
    exact h.value
  key := by
    rw [key, value]
    exact h.key
  proposed := by
    rw [value]
    exact fits

theorem recordFrom_assigned {v : Value} (value : mir.assignedCmdValue = some v)
    (named : mir.assignedCmdKey ≠ clearCmdKey) (good : P v) : RecordFrom P mir where
  value := by
    intro v' found
    cases value.symm.trans found
    exact ⟨named, good⟩
  key := by
    intro none
    cases value.symm.trans none
  proposed := by
    intro _ none
    cases value.symm.trans none

theorem McasterFrom.withRecord (h : McasterFrom P s) (good : RecordFrom P mir) :
    McasterFrom P (s.withRecord slot mir) := by
  refine ⟨h.queue, fun slot' => ?_, h.ring, h.mcast⟩
  change RecordFrom P (setSlot s.instancesArray slot mir slot')
  rw [setSlot_apply]
  split_ifs
  · exact good
  · exact h.records slot'

theorem McasterFrom.sendRing (h : McasterFrom P s) {msg : RingMsg} (good : RingFrom P msg) :
    McasterFrom P (s.sendRing msg) :=
  ⟨h.queue, h.records, List.forall_mem_cons.mpr ⟨good, h.ring⟩, h.mcast⟩

theorem McasterFrom.sendMcast (h : McasterFrom P s) {msg : McastMsg} (good : McastFrom P msg) :
    McasterFrom P (s.sendMcast msg) :=
  ⟨h.queue, h.records, h.ring, List.forall_mem_cons.mpr ⟨good, h.mcast⟩⟩

theorem McasterFrom.same (h : McasterFrom P s) (queue : t.queue = s.queue)
    (records : t.instancesArray = s.instancesArray) (ring : t.toSuccessor = s.toSuccessor)
    (mcast : t.mcast = s.mcast) : McasterFrom P t := by
  constructor
  · rw [queue]
    exact h.queue
  · rw [records]
    exact h.records
  · rw [ring]
    exact h.ring
  · rw [mcast]
    exact h.mcast

theorem not_proposed {status : McasterInstanceStatus} (not2 : status ≠ .p2Pending)
    (notDone : status ≠ .done) : ¬ Proposed status :=
  fun proposed => proposed.elim not2 notDone

theorem McasterFrom.get (h : McasterFrom P s) (i : ℕ) :
    McasterFrom P (mcasterStorageGet cfg s i).state := by
  have good : RecordFrom P (s.record cfg i) := h.records _
  unfold mcasterStorageGet
  dsimp only
  split_ifs
  · apply h.withRecord
    refine good.same rfl rfl ?_
    intro proposed
    exact absurd proposed (not_proposed (by simp) (by simp))
  · refine McasterFrom.withRecord ⟨h.queue, h.records, h.ring, h.mcast⟩ ⟨?_, fun _ => rfl, ?_⟩
    · intro v found
      cases found
    · intro proposed
      exact absurd proposed (not_proposed (by simp) (by simp))
  · exact h
  · exact h
  · exact h

theorem McasterFrom.doPhase1 (h : McasterFrom P s) (slot : ℕ) :
    McasterFrom P (mcasterDoPhase1 cfg s slot).state := by
  unfold mcasterDoPhase1
  dsimp only
  split_ifs
  · exact h
  · have sent : RingFrom P (.phase1
        { instNumber := (s.instancesArray slot).instNumber
          ballot := (s.instancesArray slot).ballot
          promisesCount := 0
          highestAcceptedBallot := 0
          highestPromisedBallot := 0
          cmdKey := clearCmdKey
          cmdValue := [] }) := ⟨fun accepted => absurd rfl accepted, fun _ => ⟨rfl, rfl⟩⟩
    apply (h.sendRing sent).withRecord
    refine (h.records slot).same rfl rfl ?_
    intro proposed
    exact absurd proposed (not_proposed (by simp) (by simp))

theorem McasterFrom.doPhase2 (h : McasterFrom P s)
    (assigned : (s.instancesArray slot).assignedCmdValue ≠ none) :
    McasterFrom P (mcasterDoPhase2 cfg s slot) := by
  have sent : McastFrom P (.phase2
      { instNumber := (s.instancesArray slot).instNumber
        ballot := (s.instancesArray slot).ballot
        acceptsCount := 0
        cmdKey := (s.instancesArray slot).assignedCmdKey }) := (h.records slot).named assigned
  exact (h.sendMcast sent).withRecord ((h.records slot).same rfl rfl fun _ => assigned)

theorem McasterFrom.mapping (h : McasterFrom P s) (slot : ℕ) :
    McasterFrom P (mcasterBroadcastMapping cfg s slot) := by
  have sent : McastFrom P (.commandMap
      { instNumber := (s.instancesArray slot).instNumber
        cmdKey := (s.instancesArray slot).assignedCmdKey
        cmdValue := (s.instancesArray slot).assignedCmdValue.getD [] }) :=
    (h.records slot).mapped _
  exact (h.sendMcast sent).withRecord ((h.records slot).same rfl rfl (h.records slot).proposed)

theorem McasterFrom.acceptance (h : McasterFrom P s)
    (assigned : (s.instancesArray slot).assignedCmdValue ≠ none) :
    McasterFrom P (mcasterBroadcastAcceptance s slot) := by
  have sent : McastFrom P (.acceptance
      { instNumber := (s.instancesArray slot).instNumber
        cmdKey := (s.instancesArray slot).assignedCmdKey }) := (h.records slot).named assigned
  exact h.sendMcast sent

theorem McasterFrom.doPhase1Range (h : McasterFrom P s) (fromIid toIid : ℕ) (ballot : Ballot) :
    McasterFrom P (mcasterDoPhase1Range s fromIid toIid ballot) := by
  have sent : RingFrom P (.phase1Range
    { fromIid := fromIid, toIid := toIid, ballot := ballot, promisesCount := 0 }) := trivial
  exact h.sendRing sent

theorem McasterFrom.propose (h : McasterFrom P s)
    (assigned : (s.instancesArray slot).assignedCmdValue ≠ none) :
    McasterFrom P (mcasterDoPhase2 cfg (mcasterBroadcastMapping cfg s slot) slot) := by
  apply (h.mapping slot).doPhase2
  simpa [mcasterBroadcastMapping, Mcaster.withRecord, Mcaster.sendMcast] using assigned

theorem McasterFrom.openInstanceP1 (h : McasterFrom P s) (ballot : Ballot) (i : ℕ) :
    McasterFrom P (mcasterOpenInstanceP1 cfg ballot s i).state := by
  refine Outcome.bind_kept (h.get i) fun t _ kept => ?_
  dsimp only
  split_ifs with ready
  · apply kept.withRecord
    refine (kept.records _).same rfl rfl ?_
    intro proposed
    exact absurd proposed (not_proposed (by simp) (by simp))
  · exact kept

theorem McasterFrom.openP1 (h : McasterFrom P s) :
    McasterFrom P (mcasterOpenNewInstancesP1 cfg s).state := by
  unfold mcasterOpenNewInstancesP1
  dsimp only
  split_ifs
  · exact h
  · refine Outcome.bind_kept ?_ fun t _ kept => ?_
    · exact Outcome.fold_kept (McasterFrom P) h fun i _ s kept => kept.openInstanceP1 _ i
    · exact (kept.doPhase1Range _ _ _).same rfl rfl rfl rfl

theorem McasterFrom.checkExpired (h : McasterFrom P s) (i : ℕ) :
    McasterFrom P (mcasterCheckExpired cfg s i).state := by
  refine Outcome.bind_kept (h.get i) fun t _ kept => ?_
  dsimp only
  split_ifs with first second
  · exact kept.doPhase1 _
  · exact kept.propose ((kept.records _).proposed (.inl second.1))
  · exact kept

theorem McasterFrom.checkP1 (h : McasterFrom P s) (clock : ℕ → Timeval) :
    McasterFrom P (mcasterCheckP1 cfg clock s).state := by
  have started : McasterFrom P (mcasterUpdateWallclock s (clock 0)) := h.same rfl rfl rfl rfl
  refine Outcome.bind_kept started.openP1 fun t _ kept => ?_
  have resumed : McasterFrom P (mcasterUpdateWallclock t (clock 1)) := kept.same rfl rfl rfl rfl
  exact Outcome.fold_kept (McasterFrom P) resumed fun i _ s kept => kept.checkExpired i

theorem McasterFrom.nextValue (h : McasterFrom P s) (cfg : Config) :
    McasterFrom P (mcasterNextValue cfg s).state.1 ∧
      ∀ v, (mcasterNextValue cfg s).state.2 = some v → P v := by
  have kept : McasterFrom P (mcasterStorageGet cfg s (s.highestOpenIid + 1)).state := h.get _
  unfold mcasterNextValue
  dsimp only
  split_ifs
  · exact ⟨h, by simp⟩
  · exact ⟨h, by simp⟩
  · exact ⟨h, by simp⟩
  · cases got : mcasterStorageGet cfg s (s.highestOpenIid + 1) with
    | aborted fault t =>
      rw [got] at kept
      exact ⟨kept, by simp⟩
    | running t =>
      rw [got] at kept
      simp only [Outcome.andThen_running]
      split_ifs
      · exact ⟨kept, by simp⟩
      · exact ⟨kept, by simp⟩
      · exact ⟨kept, by simp⟩
      · cases values : t.queue with
        | nil => exact ⟨kept, by simp⟩
        | cons value rest =>
          have waiting : ∀ v ∈ value :: rest, P v := values ▸ kept.queue
          obtain ⟨first, others⟩ := List.forall_mem_cons.mp waiting
          refine ⟨⟨others, kept.records, kept.ring, kept.mcast⟩, fun v taken => ?_⟩
          cases taken
          exact first

theorem createValueKey_named (seqNumber : UInt16) :
    (createValueKey seqNumber).1 ≠ clearCmdKey := by
  intro same
  have : selfAcceptorId = 0 := congrArg CommandId.mcasterId same
  exact absurd this (by decide)

theorem McasterFrom.openInstanceP2 (h : McasterFrom P s) {value : Value} (good : P value) :
    McasterFrom P (mcasterOpenInstanceP2 cfg s value).state := by
  unfold mcasterOpenInstanceP2 mcasterStorageAssignValue
  dsimp only
  split_ifs
  · exact h
  · let slot := msmSlot cfg (s.highestOpenIid + 1)
    let mir : McasterInstanceRecord :=
      { s.instancesArray slot with
        assignedCmdKey := (createValueKey s.seqNumber).1
        assignedCmdValue := some value }
    let counted : Mcaster :=
      { s with
        seqNumber := (createValueKey s.seqNumber).2
        p1ReadyCount := s.p1ReadyCount - 1 }
    have fresh : RecordFrom P mir :=
      recordFrom_assigned rfl (createValueKey_named s.seqNumber) good
    have assigned : McasterFrom P (counted.withRecord slot mir) :=
      McasterFrom.withRecord (h.same rfl rfl rfl rfl) fresh
    have proposed : McasterFrom P (mcasterDoPhase2 cfg
        (mcasterBroadcastMapping cfg (counted.withRecord slot mir) slot) slot) := by
      apply assigned.propose
      simp [Mcaster.withRecord, mir]
    exact proposed.same rfl rfl rfl rfl

theorem McasterFrom.openP2 (turns : ℕ) {s : Mcaster} (h : McasterFrom P s) :
    McasterFrom P (mcasterOpenNewInstancesP2 cfg turns s).state := by
  induction turns generalizing s with
  | zero => exact h
  | succ turns ih =>
    obtain ⟨kept, good⟩ := h.nextValue cfg
    unfold mcasterOpenNewInstancesP2
    cases taken : mcasterNextValue cfg s with
    | aborted fault r =>
      rw [taken] at kept
      exact kept
    | running r =>
      obtain ⟨t, found⟩ := r
      rw [taken] at kept good
      cases found with
      | none => exact kept
      | some value =>
        exact Outcome.bind_kept (kept.openInstanceP2 (good value rfl)) fun u _ kept => ih kept

theorem McasterFrom.periodicCheck (h : McasterFrom P s) (clock : ℕ → Timeval) :
    McasterFrom P (onMcasterPeriodicCheck cfg clock s).state := by
  refine Outcome.bind_kept (h.checkP1 clock) fun t _ kept => ?_
  have resumed : McasterFrom P (mcasterUpdateWallclock t (clock 2)) := kept.same rfl rfl rfl rfl
  exact resumed.openP2 _

theorem McasterFrom.phase1Range (h : McasterFrom P s) (msg : Phase1RangeMsg) :
    McasterFrom P (mcasterHandlePhase1RangeMsg cfg s msg).state := by
  unfold mcasterHandlePhase1RangeMsg
  split_ifs
  · exact h
  · exact h.doPhase1Range _ _ _
  · refine Outcome.fold_kept (McasterFrom P) h fun i _ s kept => ?_
    refine Outcome.bind_kept (kept.get i) fun t _ kept => ?_
    dsimp only
    split_ifs with pending
    · apply kept.withRecord
      refine (kept.records _).same rfl rfl ?_
      intro proposed
      exact absurd proposed (not_proposed (by simp) (by simp))
    · exact kept
  · exact h

theorem McasterFrom.replaceAssigned (h : McasterFrom P s) {key : CommandId} {value : Value}
    (named : key ≠ clearCmdKey) (good : P value)
    (assigned : (s.instancesArray slot).assignedCmdValue ≠ none) :
    McasterFrom P (mcasterStorageReplaceAssignedValue s slot key value) ∧
      ((mcasterStorageReplaceAssignedValue s slot key value).instancesArray slot).assignedCmdValue
        ≠ none := by
  obtain ⟨own, found⟩ := Option.ne_none_iff_exists'.mp assigned
  have goodOwn := ((h.records slot).value own found).2
  unfold mcasterStorageReplaceAssignedValue
  simp only [found]
  split_ifs with same
  · exact ⟨h.withRecord (recordFrom_assigned rfl named goodOwn), by simp [Mcaster.withRecord]⟩
  · constructor
    · refine McasterFrom.withRecord ⟨?_, h.records, h.ring, h.mcast⟩
        (recordFrom_assigned rfl named good)
      intro v waiting
      rcases List.mem_cons.mp waiting with rfl | old
      · exact goodOwn
      · split_ifs at old
        · exact h.queue v (List.dropLast_subset _ old)
        · exact h.queue v old
    · simp [Mcaster.withRecord]

theorem McasterFrom.promised (h : McasterFrom P s) {msg : Phase1Msg}
    (heard : ReportFrom P msg) (slot : ℕ) :
    McasterFrom P (mcasterPromised cfg s msg slot) := by
  have done : McasterFrom P
      (s.withRecord slot { s.instancesArray slot with status := .p1Done }) := by
    apply h.withRecord
    refine (h.records slot).same rfl rfl ?_
    intro proposed
    exact absurd proposed (not_proposed (by simp) (by simp))
  unfold mcasterPromised
  dsimp only
  split_ifs with unassigned fresh same
  · exact done
  · exact done.doPhase2 (by simpa [Mcaster.withRecord] using unassigned)
  · exact done.doPhase2 (by simpa [Mcaster.withRecord] using unassigned)
  · obtain ⟨named, good⟩ := heard.accepted fresh
    have assigned : ((s.withRecord slot
        { s.instancesArray slot with status := .p1Done }).instancesArray slot).assignedCmdValue
        ≠ none := by
      simpa [Mcaster.withRecord] using unassigned
    obtain ⟨kept, replaced⟩ := done.replaceAssigned named good assigned
    exact kept.doPhase2 replaced

theorem McasterFrom.phase1Returned (h : McasterFrom P s) {msg : Phase1Msg}
    (heard : ReportFrom P msg) :
    McasterFrom P (mcasterPhase1Returned cfg s msg).state := by
  unfold mcasterPhase1Returned
  dsimp only
  by_cases pending : (s.record cfg msg.instNumber).status = .p1Pending
  · rw [if_neg (not_not.mpr pending)]
    have again (ballot : Ballot) : McasterFrom P (s.withRecord (msmSlot cfg msg.instNumber)
        { s.record cfg msg.instNumber with ballot := ballot }) := by
      exact h.withRecord ((h.records _).same rfl rfl (h.records _).proposed)
    by_cases few : msg.promisesCount.toNat < cfg.quorumSize
    · rw [if_pos few]
      split_ifs
      · exact h
      · exact (again _).doPhase1 _
      · exact (again _).doPhase1 _
    · rw [if_neg few]
      split_ifs
      · exact h
      · exact h.promised heard _
  · rw [if_pos pending]
    exact h

theorem McasterFrom.phase1 (h : McasterFrom P s) {msg : Phase1Msg}
    (heard : ReportFrom P msg) :
    McasterFrom P (mcasterHandlePhase1Msg cfg s msg).state := by
  unfold mcasterHandlePhase1Msg
  split_ifs
  · exact h
  · exact Outcome.bind_kept (h.get _) fun t _ kept => kept.phase1Returned heard
  · exact h

theorem McasterFrom.advanceClosed (turns : ℕ) {s : Mcaster} (h : McasterFrom P s) (iid : ℕ) :
    McasterFrom P (mcasterAdvanceClosed cfg turns s iid).state := by
  induction turns generalizing s iid with
  | zero => exact h
  | succ turns ih =>
    unfold mcasterAdvanceClosed
    dsimp only
    split_ifs
    · have advanced : McasterFrom P { s with highestClosedIid := s.highestClosedIid + 1 } :=
        h.same rfl rfl rfl rfl
      exact Outcome.bind_kept (advanced.get _) fun t _ kept => ih kept _
    · exact h

theorem McasterFrom.phase2Returned (h : McasterFrom P s) (msg : Phase2Msg) :
    McasterFrom P (mcasterPhase2Returned cfg s msg).state := by
  have good : RecordFrom P (s.record cfg msg.instNumber) := h.records _
  unfold mcasterPhase2Returned
  dsimp only
  by_cases pending : (s.record cfg msg.instNumber).status = .p2Pending
  · rw [if_neg (not_not.mpr pending)]
    have assigned := good.proposed (.inl pending)
    split_ifs
    · exact h
    · exact h
    · exact h.propose assigned
    · apply McasterFrom.advanceClosed
      apply McasterFrom.acceptance
      · exact h.withRecord (good.same rfl rfl fun _ => assigned)
      · simpa [Mcaster.withRecord] using assigned
  · rw [if_pos pending]
    exact h

theorem McasterFrom.phase2 (h : McasterFrom P s) (msg : Phase2Msg) :
    McasterFrom P (mcasterHandlePhase2Msg cfg s msg).state := by
  unfold mcasterHandlePhase2Msg
  split_ifs
  · exact h
  · exact Outcome.bind_kept (h.get _) fun t _ kept => kept.phase2Returned msg

theorem McasterFrom.onPredecessorMsg (h : McasterFrom P s) {msg : RingMsg}
    (heard : RingFrom P msg) : McasterFrom P (onPredecessorMsg cfg s msg).state := by
  cases msg with
  | phase1 msg => exact h.phase1 heard
  | phase1Range msg => exact h.phase1Range msg
  | phase2 msg => exact h.phase2 msg

theorem McasterFrom.request (h : McasterFrom P s) (msg : Request) :
    McasterFrom P (mcasterHandleRequest cfg s msg).state := by
  cases msg with
  | mapRequest instNumbers =>
    refine Outcome.fold_kept (McasterFrom P) h fun i _ s kept => ?_
    refine Outcome.bind_kept (kept.get i) fun t _ kept => ?_
    split_ifs
    · exact kept.mapping _
    · exact kept
  | chosenvalRequest instNumbers =>
    refine Outcome.fold_kept (McasterFrom P) h fun i _ s kept => ?_
    refine Outcome.bind_kept (kept.get i) fun t _ kept => ?_
    split_ifs with done
    · exact kept.acceptance ((kept.records _).proposed (.inr done))
    · exact kept

theorem McasterFrom.submit (h : McasterFrom P s) {value : Value} (good : P value) :
    McasterFrom P (mcasterHandleValueSubmit s value) := by
  refine ⟨fun v waiting => ?_, h.records, h.ring, h.mcast⟩
  simp only [mcasterHandleValueSubmit, cvmSaveValue] at waiting
  split_ifs at waiting
  · exact h.queue v waiting
  · exact h.queue v waiting
  · rcases List.mem_append.mp waiting with old | new
    · exact h.queue v old
    · exact List.mem_singleton.mp new ▸ good

theorem recordFrom_init (slot : ℕ) : RecordFrom P (multicasterInit.instancesArray slot) where
  value := by
    intro v found
    cases found
  key := fun _ => rfl
  proposed := fun proposed => absurd proposed (not_proposed (by simp [multicasterInit])
    (by simp [multicasterInit]))

theorem mcasterFrom_init : McasterFrom P multicasterInit :=
  ⟨by simp [multicasterInit], recordFrom_init, by simp [multicasterInit],
    by simp [multicasterInit]⟩

theorem McasterFrom.restart (h : McasterFrom P s) : McasterFrom P (multicasterRestart s) :=
  ⟨mcasterFrom_init.queue, recordFrom_init, h.ring, h.mcast⟩

end FdsPaxos.RingMcasterValues
