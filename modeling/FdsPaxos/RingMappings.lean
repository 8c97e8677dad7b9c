import FdsPaxos.RingMulticasterMoves

set_option autoImplicit false

namespace FdsPaxos.RingMappings
open TransitionRuns CircularWindow RingConfig RingMessages RingMcasterStorage RingMulticaster
open RingMulticasterMoves

/-- A record has a value exactly while it is in phase 2 or done, and the mapping of the
value was broadcast. -/
structure RecordSound (mcast : List McastMsg) (mir : McasterInstanceRecord) : Prop where
  assigned : mir.assignedCmdValue.isSome ↔ mir.status = .p2Pending ∨ mir.status = .done
  mapped : ∀ v, mir.assignedCmdValue = some v →
    .commandMap ⟨mir.instNumber, mir.assignedCmdKey, v⟩ ∈ mcast
  keyed : mir.assignedCmdValue.isSome ↔ mir.assignedCmdKey ≠ clearCmdKey
  used : mir.status = .p2Pending ∨ mir.status = .done → mir.instNumber ≠ 0

/-- The mappings of an instance agree, and a key that was chosen is that of a value. -/
structure McastSound (mcast : List McastMsg) : Prop where
  agree : ∀ m m', .commandMap m ∈ mcast → .commandMap m' ∈ mcast →
    m.instNumber = m'.instNumber → m.cmdKey ≠ clearCmdKey → m'.cmdKey ≠ clearCmdKey →
      m.cmdValue = m'.cmdValue
  chosen : ∀ a, .acceptance a ∈ mcast → a.cmdKey ≠ clearCmdKey

structure McasterSound (s : Mcaster) : Prop where
  records : ∀ slot, RecordSound s.mcast (s.instancesArray slot)
  sent : McastSound s.mcast

def SameCommand (instNumber : ℕ) (value : Value) : McastMsg → Prop
  | .commandMap m => m.instNumber = instNumber → m.cmdKey ≠ clearCmdKey → m.cmdValue = value
  | .acceptance _ | .phase2 _ => True

instance (instNumber : ℕ) (value : Value) (msg : McastMsg) :
    Decidable (SameCommand instNumber value msg) :=
  match msg with
  | .commandMap _ => inferInstanceAs (Decidable (_ → _ → _))
  | .acceptance _ | .phase2 _ => isTrue trivial

/-- The value proposed for the next instance is the command of every mapping that was ever
broadcast for that instance. -/
def SameAsBefore (s : Mcaster) (value : Value) : Prop :=
  ∀ msg ∈ s.mcast, SameCommand (s.highestOpenIid + 1) value msg

instance (s : Mcaster) (value : Value) : Decidable (SameAsBefore s value) :=
  inferInstanceAs (Decidable (∀ _ ∈ _, _))

variable {cfg : Config} {s t : Mcaster} {mcast mcast' : List McastMsg}
  {mir : McasterInstanceRecord}

theorem RecordSound.mono (h : RecordSound mcast mir) (grown : ∀ msg ∈ mcast, msg ∈ mcast') :
    RecordSound mcast' mir :=
  ⟨h.assigned, fun v found => grown _ (h.mapped v found), h.keyed, h.used⟩

theorem RecordSound.same (h : RecordSound mcast mir) {mir' : McasterInstanceRecord}
    (instNumber : mir'.instNumber = mir.instNumber)
    (key : mir'.assignedCmdKey = mir.assignedCmdKey)
    (value : mir'.assignedCmdValue = mir.assignedCmdValue)
    (status : (mir'.status = .p2Pending ∨ mir'.status = .done) ↔
      (mir.status = .p2Pending ∨ mir.status = .done)) : RecordSound mcast mir' where
  assigned := by rw [value, status, h.assigned]
  mapped := by
    rw [instNumber, key, value]
    exact h.mapped
  keyed := by rw [value, key, h.keyed]
  used := by
    rw [status, instNumber]
    exact h.used

theorem recordSound_unassigned (value : mir.assignedCmdValue = none)
    (key : mir.assignedCmdKey = clearCmdKey)
    (status : ¬ (mir.status = .p2Pending ∨ mir.status = .done)) : RecordSound mcast mir where
  assigned := by simp [value, status]
  mapped := by simp [value]
  keyed := by simp [value, key]
  used := fun busy => absurd busy status

theorem RecordSound.free (h : RecordSound mcast mir)
    (status : ¬ (mir.status = .p2Pending ∨ mir.status = .done)) :
    mir.assignedCmdValue = none ∧ mir.assignedCmdKey = clearCmdKey := by
  have none : ¬ mir.assignedCmdValue.isSome := fun some => status (h.assigned.mp some)
  refine ⟨Option.not_isSome_iff_eq_none.mp none, ?_⟩
  by_contra key
  exact none (h.keyed.mpr key)

theorem McasterSound.withRecord (h : McasterSound s) {slot : ℕ}
    (slots : t.instancesArray = setSlot s.instancesArray slot mir) (sent : t.mcast = s.mcast)
    (sound : RecordSound s.mcast mir) : McasterSound t := by
  refine ⟨fun slot' => ?_, sent ▸ h.sent⟩
  rw [slots, sent, setSlot_apply]
  split_ifs
  · exact sound
  · exact h.records slot'

theorem McasterSound.sends (h : McasterSound s) {slot : ℕ}
    (slots : t.instancesArray = setSlot s.instancesArray slot mir)
    (grown : ∀ msg ∈ s.mcast, msg ∈ t.mcast) (sent : McastSound t.mcast)
    (sound : RecordSound t.mcast mir) : McasterSound t := by
  refine ⟨fun slot' => ?_, sent⟩
  rw [slots, setSlot_apply]
  split_ifs
  · exact sound
  · exact (h.records slot').mono grown

theorem McastSound.commandMap (h : McastSound mcast) {m : CmdmapMsg}
    (same : m.cmdKey ≠ clearCmdKey →
      ∀ msg ∈ mcast, SameCommand m.instNumber m.cmdValue msg) :
    McastSound (.commandMap m :: mcast) where
  agree := by
    intro a b ha hb inst keyA keyB
    rcases List.mem_cons.mp ha with ha | ha <;> rcases List.mem_cons.mp hb with hb | hb
    · cases ha
      cases hb
      rfl
    · cases ha
      exact (same keyA _ hb inst.symm keyB).symm
    · cases hb
      exact same keyB _ ha inst keyA
    · exact h.agree a b ha hb inst keyA keyB
  chosen := by
    intro a ha
    rcases List.mem_cons.mp ha with ha | ha
    · cases ha
    · exact h.chosen a ha

theorem McastSound.phase2 (h : McastSound mcast) (m : Phase2Msg) :
    McastSound (.phase2 m :: mcast) := by
  have old {msg : McastMsg} (other : msg ≠ .phase2 m) (mem : msg ∈ .phase2 m :: mcast) :
      msg ∈ mcast := (List.mem_cons.mp mem).resolve_left other
  exact ⟨fun a b ha hb => h.agree a b (old (by simp) ha) (old (by simp) hb),
    fun a ha => h.chosen a (old (by simp) ha)⟩

theorem McastSound.acceptance (h : McastSound mcast) {m : AcceptanceMsg}
    (key : m.cmdKey ≠ clearCmdKey) : McastSound (.acceptance m :: mcast) := by
  refine ⟨fun a b ha hb => ?_, fun a ha => ?_⟩
  · have old {c : CmdmapMsg} (mem : McastMsg.commandMap c ∈ .acceptance m :: mcast) :
        .commandMap c ∈ mcast := (List.mem_cons.mp mem).resolve_left (by simp)
    exact h.agree a b (old ha) (old hb)
  · rcases List.mem_cons.mp ha with ha | ha
    · cases ha
      exact key
    · exact h.chosen a ha

theorem McasterSound.repeats (h : McasterSound s) (slot : ℕ)
    (key : (s.instancesArray slot).assignedCmdKey ≠ clearCmdKey) :
    ∀ msg ∈ s.mcast, SameCommand (s.instancesArray slot).instNumber
      ((s.instancesArray slot).assignedCmdValue.getD []) msg := by
  have sound := h.records slot
  obtain ⟨v, value⟩ := Option.isSome_iff_exists.mp (sound.keyed.mpr key)
  intro msg hmsg
  cases msg with
  | commandMap m =>
    intro inst keyM
    rw [value]
    exact h.sent.agree _ _ hmsg (sound.mapped v value) inst keyM key
  | acceptance m => trivial
  | phase2 m => trivial

theorem McasterSound.repeatP2 (h : McasterSound s) (slot : ℕ)
    (pending : (s.instancesArray slot).status = .p2Pending) :
    McasterSound (mcasterDoPhase2 cfg (mcasterBroadcastMapping cfg s slot) slot) := by
  obtain ⟨mir, m, slots, inst, key, value, status, -, -, sent⟩ := repeatP2_effect cfg s slot
  refine h.sends slots ?_ ?_ ?_
  · rw [sent]
    exact fun msg hmsg => List.mem_cons_of_mem _ (List.mem_cons_of_mem _ hmsg)
  · rw [sent]
    exact (h.sent.commandMap (h.repeats slot)).phase2 m
  · rw [sent]
    refine ((h.records slot).same inst key value ?_).mono
      fun msg hmsg => List.mem_cons_of_mem _ (List.mem_cons_of_mem _ hmsg)
    simp [status, pending]

theorem McasterSound.startP2 (h : McasterSound s) {value : Value} (same : SameAsBefore s value)
    (own : (s.record cfg (s.highestOpenIid + 1)).instNumber = s.highestOpenIid + 1) :
    McasterSound (mcasterStartPhase2 cfg (assignNext cfg s value)
      (msmSlot cfg (s.highestOpenIid + 1))) := by
  set slot := msmSlot cfg (s.highestOpenIid + 1) with hslot
  have own : (s.instancesArray slot).instNumber = s.highestOpenIid + 1 := own
  set u : Mcaster := { assignNext cfg s value with
    p1ReadyCount := (assignNext cfg s value).p1ReadyCount - 1 } with hu
  have slotsU : u.instancesArray = setSlot s.instancesArray slot
      { s.instancesArray slot with
        assignedCmdKey := (createValueKey s.seqNumber).1
        assignedCmdValue := some value } := rfl
  obtain ⟨mir, m, slots, inst, key, assigned, status, -, -, sent⟩ := repeatP2_effect cfg u slot
  have sentU : u.mcast = s.mcast := rfl
  rw [slotsU, setSlot_self] at inst key assigned
  rw [slotsU, setSlot_setSlot] at slots
  rw [slotsU, setSlot_self, sentU] at sent
  have keyed : (createValueKey s.seqNumber).1 ≠ clearCmdKey := by
    intro clear
    exact absurd (congrArg CommandId.mcasterId clear) (by simp [createValueKey, clearCmdKey,
      selfAcceptorId])
  have grown : ∀ msg ∈ s.mcast,
      msg ∈ (mcasterDoPhase2 cfg (mcasterBroadcastMapping cfg u slot) slot).mcast := by
    rw [sent]
    exact fun msg hmsg => List.mem_cons_of_mem _ (List.mem_cons_of_mem _ hmsg)
  have opened : McasterSound (mcasterDoPhase2 cfg (mcasterBroadcastMapping cfg u slot) slot) := by
    refine h.sends slots grown ?_ ?_
    · rw [sent]
      refine (h.sent.commandMap fun _ => ?_).phase2 m
      have same : ∀ msg ∈ s.mcast, SameCommand (s.highestOpenIid + 1) value msg := same
      rw [← own] at same
      exact same
    · refine ⟨by simp [assigned, status], ?_, by simp [assigned, key, keyed], ?_⟩
      · intro v found
        rw [assigned] at found
        cases found
        rw [inst, key, sent]
        exact List.mem_cons_of_mem _ List.mem_cons_self
      · intro _
        have inst : mir.instNumber = (s.instancesArray slot).instNumber := inst
        omega
  exact ⟨opened.records, opened.sent⟩

theorem McasterSound.move {C : MoveCondition} (h : McasterSound s) (move : Move cfg C s t)
    (opens : ∀ value, C.opens s value → SameAsBefore s value) : McasterSound t := by
  cases move with
  | quiet quiet => exact quiet ▸ ⟨h.records, h.sent⟩
  | take i allowed free =>
    have sound : RecordSound s.mcast (s.record cfg i) := h.records (msmSlot cfg i)
    refine h.withRecord rfl rfl ?_
    unfold takenRecord
    split_ifs with unused
    · obtain ⟨value, key⟩ := sound.free fun busy => sound.used busy unused
      exact recordSound_unassigned value key (by simp)
    · exact recordSound_unassigned rfl rfl (by simp)
  | phase1 slot mir phase =>
    refine h.withRecord rfl rfl ((h.records slot).same phase.instNumber phase.key phase.value ?_)
    rcases phase.before with before | before <;> rcases phase.after with after | after <;>
      simp [before, after]
  | sendPhase1 slot msg own => exact ⟨h.records, h.sent⟩
  | sendRange msg allowed => exact ⟨h.records, h.sent⟩
  | opened n few taken => exact ⟨h.records, h.sent⟩
  | promised msg slot pending =>
    -- an instance in phase 1 has no value yet, so none is replaced
    obtain ⟨value, -⟩ := (h.records slot).free (by simp [pending])
    have kept : RecordSound s.mcast { s.instancesArray slot with status := .p1Done } :=
      (h.records slot).same rfl rfl rfl (by simp [pending])
    unfold mcasterPromised
    dsimp only
    rw [if_pos value]
    exact h.withRecord rfl rfl kept
  | startP2 value allowed next => exact h.startP2 (opens value allowed) next.own
  | repeatP2 slot pending => exact h.repeatP2 slot pending
  | complete slot msg returned completes =>
    have sound := h.records slot
    have pending := completes.pending
    have key := sound.keyed.mp (sound.assigned.mpr (.inl pending))
    have kept : RecordSound s.mcast { s.instancesArray slot with status := .done } :=
      sound.same rfl rfl rfl (by simp [pending])
    refine h.sends rfl (fun msg hmsg => List.mem_cons_of_mem _ hmsg) ?_ ?_
    · exact h.sent.acceptance (by simpa [Mcaster.withRecord] using key)
    · exact kept.mono fun msg hmsg => List.mem_cons_of_mem _ hmsg
  | advance slot done next => exact ⟨h.records, h.sent⟩
  | repeatMap i allowed own =>
    have kept (t : Timeval) : RecordSound s.mcast
        { s.record cfg i with repeatCmdmapTimeout := t } :=
      (h.records (msmSlot cfg i)).same rfl rfl rfl Iff.rfl
    refine h.sends rfl (fun msg hmsg => List.mem_cons_of_mem _ hmsg) ?_ ?_
    · exact h.sent.commandMap (h.repeats _)
    · exact (kept _).mono fun msg hmsg => List.mem_cons_of_mem _ hmsg
  | repeatAcceptance slot done =>
    have sound := h.records slot
    have key := sound.keyed.mp (sound.assigned.mpr (.inr done))
    exact ⟨fun slot' => (h.records slot').mono fun msg hmsg => List.mem_cons_of_mem _ hmsg,
      h.sent.acceptance key⟩

theorem mcasterSound_restart (h : McasterSound s) : McasterSound (multicasterRestart s) :=
  ⟨fun _ => recordSound_unassigned rfl rfl (by simp [multicasterRestart, multicasterInit]), h.sent⟩

theorem mcasterSound_init : McasterSound multicasterInit :=
  ⟨fun _ => recordSound_unassigned rfl rfl (by simp [multicasterInit]),
    (fun _ _ h => nomatch h), (fun _ h => nomatch h)⟩

end FdsPaxos.RingMappings
