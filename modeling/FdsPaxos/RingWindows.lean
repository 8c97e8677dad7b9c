import FdsPaxos.RingMappings

set_option autoImplicit false

namespace FdsPaxos.RingWindows
open TransitionRuns CircularWindow RingConfig RingMessages RingMcasterStorage RingMulticaster
open RingMulticasterMoves RingMappings

section Definitions

variable (cfg : Config)

/-- The last instance that is looked up while `closed` is the highest closed one. -/
def windowEnd (closed : ℕ) : ℕ :=
  closed + cfg.maxActiveInstances + cfg.preexecutionWindowSize

/-- Learners ask for instances that were opened. -/
def oneLife (returns : Phase2Msg → Prop) : MoveCondition where
  opens := fun _ _ => True
  repeats := fun s i => 0 < i ∧ i ≤ s.highestOpenIid
  takes := fun closed i => i ≤ windowEnd cfg closed
  returns := returns
  takes_next := by
    intro closed
    have active := cfg.active_pos
    unfold windowEnd
    omega
  takes_mono := by
    intro closed closed' i le within
    unfold windowEnd at *
    omega

structure Window (s : Mcaster) : Prop where
  closed_le : s.highestClosedIid ≤ s.highestOpenIid
  active : s.highestOpenIid ≤ s.highestClosedIid + cfg.maxActiveInstances
  counted : s.p1HighestOpen = s.highestOpenIid + s.p1ReadyCount.toNat
  preexecuted : s.p1ReadyCount.toNat ≤ cfg.preexecutionWindowSize

def Busy (mir : McasterInstanceRecord) : Prop :=
  mir.status = .p2Pending ∨ mir.status = .done

/-- A record is in the slot of its instance, and busy exactly when its instance was opened. -/
structure RecordWithin (closed highest slot : ℕ) (mir : McasterInstanceRecord) : Prop where
  home : mir.instNumber = 0 ∨ msmSlot cfg mir.instNumber = slot
  reach : mir.instNumber ≤ windowEnd cfg closed
  begun : Busy mir ↔ 0 < mir.instNumber ∧ mir.instNumber ≤ highest

def McastWithin (highest : ℕ) : McastMsg → Prop
  | .commandMap m => 0 < m.instNumber ∧ m.instNumber ≤ highest ∧ m.cmdKey ≠ clearCmdKey
  | .acceptance m => 0 < m.instNumber ∧ m.instNumber ≤ highest
  | .phase2 m => 0 < m.instNumber ∧ m.instNumber ≤ highest ∧ m.acceptsCount = 0

def RingWithin (limit : ℕ) : RingMsg → Prop
  | .phase1 m => m.instNumber ≤ limit
  | .phase1Range m => m.toIid ≤ limit
  | .phase2 m => m.instNumber ≤ limit

def OfRecord (mir : McasterInstanceRecord) : McastMsg → Prop
  | .commandMap m => m.instNumber = mir.instNumber ∧ m.cmdKey = mir.assignedCmdKey
  | .acceptance m => m.instNumber = mir.instNumber
  | .phase2 m => m.instNumber = mir.instNumber ∧ m.acceptsCount = 0

structure Life (s : Mcaster) : Prop where
  window : Window cfg s
  records : ∀ slot,
    RecordWithin cfg s.highestClosedIid s.highestOpenIid slot (s.instancesArray slot)
  mappings : McasterSound s
  touched : ∀ i, 0 < i → i ≤ s.p1HighestOpen → i ≤ (s.record cfg i).instNumber
  mcast : ∀ msg ∈ s.mcast, McastWithin s.highestOpenIid msg
  current : ∀ m, .commandMap m ∈ s.mcast → ∀ slot,
    (s.instancesArray slot).instNumber = m.instNumber →
      m.cmdKey = (s.instancesArray slot).assignedCmdKey
  oneMapping : ∀ m m', .commandMap m ∈ s.mcast → .commandMap m' ∈ s.mcast →
    m.instNumber = m'.instNumber → m = m'
  ring : ∀ msg ∈ s.toSuccessor, RingWithin (windowEnd cfg s.highestClosedIid) msg
  noPhase2 : ∀ m, .phase2 m ∉ s.toSuccessor
  replaced : ∀ r ∈ s.replaced, r.mir.status = .done ∧ r.mir.instNumber ≤ r.closed

end Definitions

variable {cfg : Config} {C : MoveCondition} {returns : Phase2Msg → Prop} {s t : Mcaster}

structure Goes (s t : Mcaster) : Prop where
  indices : SameIndices s t
  replaced : t.replaced = s.replaced
  instNumber : ∀ slot, (t.instancesArray slot).instNumber = (s.instancesArray slot).instNumber
  busy : ∀ slot, Busy (t.instancesArray slot) ↔ Busy (s.instancesArray slot)
  key : ∀ slot, Busy (s.instancesArray slot) →
    (t.instancesArray slot).assignedCmdKey = (s.instancesArray slot).assignedCmdKey

theorem Goes.of_slot {slot : ℕ} {mir : McasterInstanceRecord} (indices : SameIndices s t)
    (replaced : t.replaced = s.replaced)
    (slots : t.instancesArray = setSlot s.instancesArray slot mir)
    (instNumber : mir.instNumber = (s.instancesArray slot).instNumber)
    (busy : Busy mir ↔ Busy (s.instancesArray slot))
    (key : mir.assignedCmdKey = (s.instancesArray slot).assignedCmdKey) : Goes s t where
  indices := indices
  replaced := replaced
  instNumber := by
    intro slot'
    rw [slots, setSlot_apply]
    split_ifs with here
    · rw [here, instNumber]
    · rfl
  busy := by
    intro slot'
    rw [slots, setSlot_apply]
    split_ifs with here
    · rw [here, busy]
    · exact Iff.rfl
  key := by
    intro slot' _
    rw [slots, setSlot_apply]
    split_ifs with here
    · rw [here, key]
    · rfl

theorem Goes.of_same (indices : SameIndices s t) (replaced : t.replaced = s.replaced)
    (slots : t.instancesArray = s.instancesArray) : Goes s t where
  indices := indices
  replaced := replaced
  instNumber := by simp [slots]
  busy := by simp [slots]
  key := by simp [slots]

inductive Effect (cfg : Config) (C : MoveCondition) (s : Mcaster) : Mcaster → Prop where
  | goes {t : Mcaster} (h : Goes s t) : Effect cfg C s t
  | take (i : ℕ) (allowed : C.takes s.highestClosedIid i) (free : Takeable (s.record cfg i) i) :
      Effect cfg C s (takeSlot cfg s i)
  | opened (n : ℕ)
      (few : n ≤ cfg.preexecutionWindowSize - (s.p1ReadyCount + s.p1ReadyCount).toNat)
      (taken : ∀ i, s.p1HighestOpen < i → i ≤ s.p1HighestOpen + n →
        i ≤ (s.record cfg i).instNumber) : Effect cfg C s (mcasterAddOpen s n)
  | startP2 (value : Value) (next : NextReady cfg s) :
      Effect cfg C s (mcasterStartPhase2 cfg (assignNext cfg s value)
        (msmSlot cfg (s.highestOpenIid + 1)))
  | advance (slot : ℕ) (done : (s.instancesArray slot).status = .done)
      (next : (s.instancesArray slot).instNumber = s.highestClosedIid + 1) :
      Effect cfg C s { s with highestClosedIid := s.highestClosedIid + 1 }

theorem mcasterPromised_pending (h : McasterSound s) {slot : ℕ}
    (pending : (s.instancesArray slot).status = .p1Pending) (msg : Phase1Msg) :
    mcasterPromised cfg s msg slot =
      s.withRecord slot { s.instancesArray slot with status := .p1Done } := by
  obtain ⟨value, -⟩ := (h.records slot).free (by simp [pending])
  unfold mcasterPromised
  dsimp only
  rw [if_pos value]

theorem Move.effect (move : Move cfg C s t) (h : McasterSound s) : Effect cfg C s t := by
  cases move with
  | quiet quiet => exact .goes (quiet ▸ .of_same ⟨rfl, rfl, rfl, rfl⟩ rfl rfl)
  | take i allowed free => exact .take i allowed free
  | phase1 slot mir phase =>
    refine .goes (.of_slot ⟨rfl, rfl, rfl, rfl⟩ rfl rfl phase.instNumber ?_ phase.key)
    unfold Busy
    rcases phase.before with before | before <;> rcases phase.after with after | after <;>
      simp [before, after]
  | sendPhase1 slot msg own => exact .goes (.of_same ⟨rfl, rfl, rfl, rfl⟩ rfl rfl)
  | sendRange msg allowed => exact .goes (.of_same ⟨rfl, rfl, rfl, rfl⟩ rfl rfl)
  | opened n few taken => exact .opened n few taken
  | promised msg slot pending =>
    rw [mcasterPromised_pending h pending]
    exact .goes (.of_slot ⟨rfl, rfl, rfl, rfl⟩ rfl rfl rfl (by simp [Busy, pending]) rfl)
  | startP2 value allowed next => exact .startP2 value next
  | repeatP2 slot pending =>
    obtain ⟨mir, m, slots, inst, key, value, status, -⟩ := repeatP2_effect cfg s slot
    exact .goes (.of_slot ⟨rfl, rfl, rfl, rfl⟩ rfl slots inst (by simp [Busy, status, pending]) key)
  | complete slot msg returned completes =>
    exact .goes (.of_slot ⟨rfl, rfl, rfl, rfl⟩ rfl rfl rfl (by simp [Busy, completes.pending]) rfl)
  | advance slot done next => exact .advance slot done next
  | repeatMap i allowed own =>
    exact .goes (.of_slot ⟨rfl, rfl, rfl, rfl⟩ rfl rfl rfl Iff.rfl rfl)
  | repeatAcceptance slot done => exact .goes (.of_same ⟨rfl, rfl, rfl, rfl⟩ rfl rfl)

theorem startP2_effect (cfg : Config) (s : Mcaster) (value : Value) :
    ∃ mir m, (mcasterStartPhase2 cfg (assignNext cfg s value)
        (msmSlot cfg (s.highestOpenIid + 1))).instancesArray =
          setSlot s.instancesArray (msmSlot cfg (s.highestOpenIid + 1)) mir ∧
      mir.instNumber = (s.record cfg (s.highestOpenIid + 1)).instNumber ∧
      mir.status = .p2Pending ∧
      m.instNumber = mir.instNumber ∧ m.acceptsCount = 0 ∧
      (mcasterStartPhase2 cfg (assignNext cfg s value)
        (msmSlot cfg (s.highestOpenIid + 1))).mcast =
          .phase2 m :: .commandMap
            { instNumber := mir.instNumber
              cmdKey := mir.assignedCmdKey
              cmdValue := mir.assignedCmdValue.getD [] } :: s.mcast := by
  simp only [mcasterStartPhase2, assignNext, mcasterDoPhase2, mcasterBroadcastMapping,
    Mcaster.withRecord, Mcaster.sendMcast, setSlot_self, setSlot_setSlot]
  exact ⟨_, _, rfl, rfl, rfl, rfl, rfl, rfl⟩

def SentOfRecord (s t : Mcaster) : Prop :=
  ∀ msg ∈ t.mcast, msg ∈ s.mcast ∨
    ∃ slot, Busy (t.instancesArray slot) ∧ OfRecord (t.instancesArray slot) msg

theorem SentOfRecord.of_same (sent : t.mcast = s.mcast) : SentOfRecord s t :=
  fun _ hmsg => .inl (sent ▸ hmsg)

theorem SentOfRecord.one {msg : McastMsg} (sent : t.mcast = msg :: s.mcast) (slot : ℕ)
    (busy : Busy (t.instancesArray slot)) (about : OfRecord (t.instancesArray slot) msg) :
    SentOfRecord s t := by
  intro msg' hmsg
  rw [sent] at hmsg
  rcases List.mem_cons.mp hmsg with rfl | hmsg
  · exact .inr ⟨slot, busy, about⟩
  · exact .inl hmsg

theorem SentOfRecord.rewritten {msg : McastMsg} {mir : McasterInstanceRecord} (slot : ℕ)
    (slots : t.instancesArray = setSlot s.instancesArray slot mir)
    (sent : t.mcast = msg :: s.mcast) (busy : Busy mir) (about : OfRecord mir msg) :
    SentOfRecord s t := by
  have here : t.instancesArray slot = mir := by rw [slots, setSlot_self]
  exact .one sent slot (here ▸ busy) (here ▸ about)

theorem SentOfRecord.two {mir : McasterInstanceRecord} {m : Phase2Msg} {slot : ℕ} {v : Value}
    (slots : t.instancesArray = setSlot s.instancesArray slot mir) (busy : mir.status = .p2Pending)
    (own : m.instNumber = mir.instNumber) (count : m.acceptsCount = 0)
    (sent : t.mcast = .phase2 m :: .commandMap ⟨mir.instNumber, mir.assignedCmdKey, v⟩ :: s.mcast) :
    SentOfRecord s t := by
  have here : t.instancesArray slot = mir := by rw [slots, setSlot_self]
  intro msg hmsg
  rw [sent] at hmsg
  rcases List.mem_cons.mp hmsg with rfl | hmsg
  · exact .inr ⟨slot, here ▸ .inl busy, here ▸ ⟨own, count⟩⟩
  · rcases List.mem_cons.mp hmsg with rfl | hmsg
    · exact .inr ⟨slot, here ▸ .inl busy, here ▸ ⟨rfl, rfl⟩⟩
    · exact .inl hmsg

theorem Life.sent (h : Life cfg s) (move : Move cfg (oneLife cfg returns) s t) :
    SentOfRecord s t := by
  cases move with
  | promised msg slot pending =>
    rw [mcasterPromised_pending h.mappings pending]
    exact .of_same rfl
  | quiet quiet => exact .of_same (quiet ▸ rfl)
  | startP2 value allowed next =>
    obtain ⟨mir, m, slots, inst, status, own, count, sent⟩ := startP2_effect cfg s value
    exact .two slots status own count sent
  | repeatP2 slot pending =>
    obtain ⟨mir, m, slots, inst, key, value, status, own, count, sent⟩ :=
      repeatP2_effect cfg s slot
    rw [← inst, ← key] at sent
    exact .two slots status own count sent
  | complete slot msg returned completes =>
    exact .rewritten slot rfl rfl (.inr rfl) (by simp [OfRecord, Mcaster.withRecord])
  | repeatMap i allowed own =>
    have busy : Busy (s.record cfg i) := by
      refine (h.records _).begun.mpr ?_
      change 0 < (s.record cfg i).instNumber ∧ (s.record cfg i).instNumber ≤ _
      rw [own]
      exact allowed
    exact .rewritten (msmSlot cfg i) rfl rfl busy ⟨rfl, rfl⟩
  | repeatAcceptance slot done => exact .one rfl slot (.inr done) rfl
  | take | phase1 | sendPhase1 | sendRange | opened | advance => exact .of_same rfl

theorem Life.sentRing (h : Life cfg s) (move : Move cfg (oneLife cfg returns) s t) :
    ∀ msg ∈ t.toSuccessor, RingWithin (windowEnd cfg s.highestClosedIid) msg := by
  cases move with
  | quiet quiet => exact quiet ▸ h.ring
  | sendPhase1 slot msg own =>
    exact List.forall_mem_cons.mpr ⟨own.trans_le (h.records slot).reach, h.ring⟩
  | sendRange msg allowed => exact List.forall_mem_cons.mpr ⟨allowed, h.ring⟩
  | promised msg slot pending =>
    rw [mcasterPromised_pending h.mappings pending]
    exact h.ring
  | _ => exact h.ring

theorem Life.noPhase2_kept (h : Life cfg s) (move : Move cfg (oneLife cfg returns) s t)
    (m : Phase2Msg) : .phase2 m ∉ t.toSuccessor := by
  have old := h.noPhase2 m
  cases move with
  | quiet quiet => exact quiet ▸ old
  | sendPhase1 slot msg own => exact List.not_mem_cons_of_ne_of_not_mem (by simp) old
  | sendRange msg allowed => exact List.not_mem_cons_of_ne_of_not_mem (by simp) old
  | promised msg slot pending =>
    rw [mcasterPromised_pending h.mappings pending]
    exact old
  | _ => exact old

theorem RecordWithin.mono {closed closed' highest slot : ℕ} {mir : McasterInstanceRecord}
    (h : RecordWithin cfg closed highest slot mir) (le : closed ≤ closed') :
    RecordWithin cfg closed' highest slot mir where
  home := h.home
  reach := by
    have reach := h.reach
    unfold windowEnd at *
    omega
  begun := h.begun

theorem RingWithin.mono {limit limit' : ℕ} {msg : RingMsg} (h : RingWithin limit msg)
    (le : limit ≤ limit') : RingWithin limit' msg := by
  cases msg <;> exact h.trans le

theorem McastWithin.mono {highest highest' : ℕ} {msg : McastMsg} (h : McastWithin highest msg)
    (le : highest ≤ highest') : McastWithin highest' msg := by
  cases msg with
  | commandMap m => exact ⟨h.1, h.2.1.trans le, h.2.2⟩
  | acceptance m => exact ⟨h.1, h.2.trans le⟩
  | phase2 m => exact ⟨h.1, h.2.1.trans le, h.2.2⟩

theorem windowEnd_mono {closed closed' : ℕ} (le : closed ≤ closed') :
    windowEnd cfg closed ≤ windowEnd cfg closed' := by
  unfold windowEnd
  omega

theorem Window.ready_add (h : Window cfg s) :
    (s.p1ReadyCount + s.p1ReadyCount).toNat = s.p1ReadyCount.toNat + s.p1ReadyCount.toNat := by
  have fits := cfg.workingSet_int
  have gt := cfg.workingSet_gt
  have few := h.preexecuted
  rw [UInt32.toNat_add]
  omega

theorem Window.addOpen (h : Window cfg s) {n : ℕ}
    (few : n ≤ cfg.preexecutionWindowSize - (s.p1ReadyCount + s.p1ReadyCount).toNat) :
    Window cfg (mcasterAddOpen s n) := by
  have fits := cfg.workingSet_int
  have gt := cfg.workingSet_gt
  rw [h.ready_add] at few
  obtain ⟨closed_le, active, counted, preexecuted⟩ := h
  have sum : (s.p1ReadyCount + UInt32.ofNat n).toNat = s.p1ReadyCount.toNat + n := by
    rw [UInt32.toNat_add, UInt32.toNat_ofNat']
    omega
  refine ⟨closed_le, active, ?_, ?_⟩
  · change s.p1HighestOpen + n = s.highestOpenIid + (s.p1ReadyCount + UInt32.ofNat n).toNat
    omega
  · change (s.p1ReadyCount + UInt32.ofNat n).toNat ≤ _
    omega

theorem Window.startP2 (h : Window cfg s) (value : Value) (next : NextReady cfg s) :
    Window cfg (mcasterStartPhase2 cfg (assignNext cfg s value)
      (msmSlot cfg (s.highestOpenIid + 1))) := by
  obtain ⟨closed_le, active, counted, preexecuted⟩ := h
  have below := next.below
  have room := next.room
  have positive : s.p1ReadyCount.toNat ≠ 0 := fun zero => next.counted (UInt32.toNat_inj.mp zero)
  have less : (s.p1ReadyCount - 1).toNat = s.p1ReadyCount.toNat - 1 := by
    have lt := s.p1ReadyCount.toNat_lt
    have one : (1 : UInt32).toNat = 1 := rfl
    rw [UInt32.toNat_sub]
    omega
  refine ⟨?_, ?_, ?_, ?_⟩
  · change s.highestClosedIid ≤ s.highestOpenIid + 1
    omega
  · change s.highestOpenIid + 1 ≤ s.highestClosedIid + _
    omega
  · change s.p1HighestOpen = s.highestOpenIid + 1 + (s.p1ReadyCount - 1).toNat
    omega
  · change (s.p1ReadyCount - 1).toNat ≤ _
    omega

theorem Life.window_kept (h : Life cfg s) (effect : Effect cfg C s t) : Window cfg t := by
  obtain ⟨closed_le, active, counted, preexecuted⟩ := h.window
  cases effect with
  | goes goes =>
    obtain ⟨⟨highest, p1Highest, p1Ready, closed⟩, -⟩ := goes
    exact ⟨by omega, by omega, by rw [p1Highest, highest, p1Ready, counted],
      by rw [p1Ready]; exact preexecuted⟩
  | take i allowed free => exact ⟨closed_le, active, counted, preexecuted⟩
  | opened n few taken => exact h.window.addOpen few
  | startP2 value next => exact h.window.startP2 value next
  | advance slot done next =>
    -- the record is done, so its instance was opened
    have opened := (h.records slot).begun.mp (.inr done)
    refine ⟨?_, ?_, counted, preexecuted⟩
    · change s.highestClosedIid + 1 ≤ s.highestOpenIid
      omega
    · change s.highestOpenIid ≤ s.highestClosedIid + 1 + _
      omega

@[simp] theorem takenRecord_instNumber (mir : McasterInstanceRecord) (i : ℕ) :
    (takenRecord mir i).instNumber = i := by
  unfold takenRecord
  split_ifs <;> rfl

@[simp] theorem takenRecord_status (mir : McasterInstanceRecord) (i : ℕ) :
    (takenRecord mir i).status = .ready := by
  unfold takenRecord
  split_ifs <;> rfl

theorem takeSlot_apply (s : Mcaster) (i slot : ℕ) :
    (takeSlot cfg s i).instancesArray slot =
      if slot = msmSlot cfg i then takenRecord (s.record cfg i) i
      else s.instancesArray slot := rfl

theorem Life.takes_new (h : Life cfg s) {i : ℕ} (free : Takeable (s.record cfg i) i) :
    i = 0 ∨ s.p1HighestOpen < i := by
  rcases Nat.eq_zero_or_pos i with zero | positive
  · exact .inl zero
  · refine .inr (Nat.lt_of_not_le fun le => ?_)
    have touched := h.touched i positive le
    rcases free with unused | ⟨older, -⟩ <;> omega

theorem Life.open_le (h : Life cfg s) : s.highestOpenIid ≤ s.p1HighestOpen := by
  have counted := h.window.counted
  omega

theorem Life.records_kept (h : Life cfg s) (effect : Effect cfg (oneLife cfg returns) s t)
    (slot : ℕ) :
    RecordWithin cfg t.highestClosedIid t.highestOpenIid slot (t.instancesArray slot) := by
  have within := h.records slot
  cases effect with
  | goes goes =>
    rw [goes.indices.closed, goes.indices.highestOpen]
    refine ⟨?_, ?_, ?_⟩
    · rw [goes.instNumber]
      exact within.home
    · rw [goes.instNumber]
      exact within.reach
    · rw [goes.busy, goes.instNumber]
      exact within.begun
  | take i allowed free =>
    rw [takeSlot_apply]
    split_ifs with here
    · refine ⟨.inr (by simp [here]), (takenRecord_instNumber _ i).trans_le allowed, ?_⟩
      have new := h.takes_new free
      have opened := h.open_le
      simp only [Busy, takenRecord_status, takenRecord_instNumber]
      refine iff_of_false (by simp) ?_
      change ¬ (0 < i ∧ i ≤ s.highestOpenIid)
      omega
    · exact within
  | opened n few taken => exact within
  | startP2 value next =>
    obtain ⟨mir, m, slots, inst, status, -⟩ := startP2_effect cfg s value
    rw [next.own] at inst
    rw [slots, setSlot_apply]
    change RecordWithin cfg s.highestClosedIid (s.highestOpenIid + 1) slot _
    split_ifs with here
    · have reach := (h.records (msmSlot cfg (s.highestOpenIid + 1))).reach
      change (s.record cfg (s.highestOpenIid + 1)).instNumber ≤ _ at reach
      rw [next.own] at reach
      refine ⟨.inr (by rw [inst, here]), inst ▸ reach, ?_⟩
      exact iff_of_true (.inl status) (by omega)
    · refine ⟨within.home, within.reach, within.begun.trans ?_⟩
      have other : (s.instancesArray slot).instNumber ≠ s.highestOpenIid + 1 := by
        intro same
        rcases within.home with zero | home
        · omega
        · exact here (by rw [← home, same])
      omega
  | advance slot' done next => exact within.mono (Nat.le_succ _)

theorem Life.touched_kept (h : Life cfg s) (effect : Effect cfg (oneLife cfg returns) s t)
    (i : ℕ) (positive : 0 < i) (le : i ≤ t.p1HighestOpen) :
    i ≤ (t.record cfg i).instNumber := by
  cases effect with
  | goes goes =>
    rw [goes.indices.p1Highest] at le
    exact (goes.instNumber _).symm ▸ h.touched i positive le
  | take j allowed free =>
    have touched := h.touched i positive le
    change i ≤ ((takeSlot cfg s j).instancesArray (msmSlot cfg i)).instNumber
    rw [takeSlot_apply]
    split_ifs with here
    · have same : s.record cfg j = s.record cfg i := congrArg s.instancesArray here.symm
      have grows := free.grows
      rw [same] at grows ⊢
      exact touched.trans grows
    · exact touched
  | opened n few taken =>
    rcases Nat.lt_or_ge s.p1HighestOpen i with new | old
    · exact taken i new le
    · exact h.touched i positive old
  | startP2 value next =>
    obtain ⟨mir, m, slots, inst, -⟩ := startP2_effect cfg s value
    have touched := h.touched i positive le
    change i ≤ ((mcasterStartPhase2 cfg _ _).instancesArray (msmSlot cfg i)).instNumber
    rw [slots, setSlot_apply]
    split_ifs with here
    · have same : s.record cfg (s.highestOpenIid + 1) = s.record cfg i :=
        congrArg s.instancesArray here.symm
      rw [inst, same]
      exact touched
    · exact touched
  | advance slot done next => exact h.touched i positive le

theorem Effect.highestOpen_le (effect : Effect cfg C s t) :
    s.highestOpenIid ≤ t.highestOpenIid := by
  cases effect with
  | goes goes => exact goes.indices.highestOpen.ge
  | startP2 value next => exact Nat.le_succ _
  | _ => exact le_refl _

theorem Effect.closed_le (effect : Effect cfg C s t) :
    s.highestClosedIid ≤ t.highestClosedIid := by
  cases effect with
  | goes goes => exact goes.indices.closed.ge
  | advance slot done next => exact Nat.le_succ _
  | _ => exact le_refl _

theorem Life.replaced_kept (h : Life cfg s) (effect : Effect cfg (oneLife cfg returns) s t) :
    ∀ r ∈ t.replaced, r.mir.status = .done ∧ r.mir.instNumber ≤ r.closed := by
  cases effect with
  | goes goes => exact goes.replaced ▸ h.replaced
  | take i allowed free =>
    change ∀ r ∈ takenReplaced cfg s i, _
    unfold takenReplaced
    split_ifs with used
    · exact h.replaced
    · obtain ⟨older, done⟩ := free.resolve_left used
      refine List.forall_mem_cons.mpr ⟨⟨done, ?_⟩, h.replaced⟩
      -- two instances of one slot are a whole array apart, which is more than the windows
      have within := h.records (msmSlot cfg i)
      have home := within.home.resolve_left used
      have apart := index_apart older home
      have gt := cfg.workingSet_gt
      change i ≤ windowEnd cfg s.highestClosedIid at allowed
      change (s.record cfg i).instNumber + cfg.workingSetSize * 2 ≤ i at apart
      change (s.record cfg i).instNumber ≤ s.highestClosedIid
      unfold windowEnd at allowed
      omega
  | _ => exact h.replaced

theorem Life.mcast_kept (h : Life cfg s) (move : Move cfg (oneLife cfg returns) s t)
    (effect : Effect cfg (oneLife cfg returns) s t) (mappings : McasterSound t) :
    ∀ msg ∈ t.mcast, McastWithin t.highestOpenIid msg := by
  intro msg hmsg
  rcases h.sent move msg hmsg with old | ⟨slot, busy, about⟩
  · exact (h.mcast msg old).mono effect.highestOpen_le
  · obtain ⟨positive, le⟩ := (h.records_kept effect slot).begun.mp busy
    cases msg with
    | commandMap m =>
      have sound := mappings.records slot
      have key := sound.keyed.mp (sound.assigned.mpr busy)
      exact ⟨about.1 ▸ positive, about.1 ▸ le, about.2 ▸ key⟩
    | acceptance m =>
      have about : m.instNumber = (t.instancesArray slot).instNumber := about
      exact ⟨about ▸ positive, about ▸ le⟩
    | phase2 m => exact ⟨about.1 ▸ positive, about.1 ▸ le, about.2⟩

theorem Life.current_kept (h : Life cfg s) (move : Move cfg (oneLife cfg returns) s t)
    (effect : Effect cfg (oneLife cfg returns) s t) (m : CmdmapMsg)
    (sent : .commandMap m ∈ t.mcast) (slot : ℕ)
    (inst : (t.instancesArray slot).instNumber = m.instNumber) :
    m.cmdKey = (t.instancesArray slot).assignedCmdKey := by
  rcases h.sent move _ sent with old | ⟨slot', busy, about⟩
  · obtain ⟨positive, le, -⟩ := h.mcast _ old
    have opened := h.open_le
    cases effect with
    | goes goes =>
      rw [goes.instNumber] at inst
      have busy := (h.records slot).begun.mpr (by omega)
      rw [goes.key slot busy]
      exact h.current m old slot inst
    | take i allowed free =>
      rw [takeSlot_apply] at inst ⊢
      split_ifs at inst ⊢ with here
      · rw [takenRecord_instNumber] at inst
        have new := h.takes_new free
        omega
      · exact h.current m old slot inst
    | opened n few taken => exact h.current m old slot inst
    | startP2 value next =>
      obtain ⟨mir, m', slots, own, -⟩ := startP2_effect cfg s value
      rw [slots, setSlot_apply] at inst ⊢
      split_ifs at inst ⊢ with here
      · rw [own, next.own] at inst
        omega
      · exact h.current m old slot inst
    | advance slot done next => exact h.current m old _ inst
  · -- the mapping is that of a record, and the instance has one slot
    have positive := ((h.records_kept effect slot').begun.mp busy).1
    have home := (h.records_kept effect slot).home
    have home' := (h.records_kept effect slot').home
    have equal : (t.instancesArray slot).instNumber = (t.instancesArray slot').instNumber :=
      inst.trans about.1
    have same : slot = slot' := by
      rw [← home.resolve_left (by omega), ← home'.resolve_left (by omega), equal]
    rw [same]
    exact about.2

theorem Life.oneMapping_kept (h : Life cfg s) (move : Move cfg (oneLife cfg returns) s t)
    (effect : Effect cfg (oneLife cfg returns) s t) (mappings : McasterSound t)
    (m m' : CmdmapMsg) (sent : .commandMap m ∈ t.mcast) (sent' : .commandMap m' ∈ t.mcast)
    (inst : m.instNumber = m'.instNumber) : m = m' := by
  have within := h.mcast_kept move effect mappings
  have value := mappings.sent.agree m m' sent sent' inst (within _ sent).2.2 (within _ sent').2.2
  have key : m.cmdKey = m'.cmdKey := by
    rcases h.sent move _ sent with old | ⟨slot, -, about⟩
    · rcases h.sent move _ sent' with old' | ⟨slot, -, about⟩
      · rw [h.oneMapping m m' old old' inst]
      · rw [about.2]
        exact h.current_kept move effect m sent slot (inst.trans about.1).symm
    · rw [about.2]
      exact (h.current_kept move effect m' sent' slot (about.1.symm.trans inst)).symm
  cases m
  cases m'
  simp only [CmdmapMsg.mk.injEq]
  exact ⟨inst, key, value⟩

theorem Life.sameAsBefore (h : Life cfg s) (value : Value) : SameAsBefore s value := by
  intro msg hmsg
  cases msg with
  | commandMap m =>
    intro inst _
    have within := (h.mcast _ hmsg).2.1
    omega
  | acceptance m => trivial
  | phase2 m => trivial

theorem Life.move (h : Life cfg s) (move : Move cfg (oneLife cfg returns) s t) : Life cfg t := by
  have effect := Move.effect move h.mappings
  have mappings := h.mappings.move move fun value _ => h.sameAsBefore value
  exact
    { window := h.window_kept effect
      records := h.records_kept effect
      mappings := mappings
      touched := h.touched_kept effect
      mcast := h.mcast_kept move effect mappings
      current := h.current_kept move effect
      oneMapping := h.oneMapping_kept move effect mappings
      ring := fun msg hmsg =>
        (h.sentRing move msg hmsg).mono (windowEnd_mono effect.closed_le)
      noPhase2 := h.noPhase2_kept move
      replaced := h.replaced_kept effect }

theorem life_init (cfg : Config) : Life cfg multicasterInit where
  window := ⟨le_refl _, Nat.zero_le _, rfl, Nat.zero_le _⟩
  records := fun _ => ⟨.inl rfl, Nat.zero_le _, by simp [Busy, multicasterInit]⟩
  mappings := mcasterSound_init
  touched := by
    intro i positive le
    change i ≤ 0 at le
    omega
  mcast := fun _ h => nomatch h
  current := fun _ h => nomatch h
  oneMapping := fun _ _ h => nomatch h
  ring := fun _ h => nomatch h
  noPhase2 := fun _ h => nomatch h
  replaced := fun _ h => nomatch h

theorem Life.moves (h : Life cfg s) (moves : Moves cfg (oneLife cfg returns) s t) :
    Life cfg t ∧ s.highestOpenIid ≤ t.highestOpenIid :=
  moves.invariant (fun t => Life cfg t ∧ s.highestOpenIid ≤ t.highestOpenIid)
    (fun _ _ kept move => ⟨kept.1.move move,
      kept.2.trans (Move.effect move kept.1.mappings).highestOpen_le⟩) ⟨h, le_refl _⟩

theorem Life.covers (h : Life cfg s) : Covers cfg (oneLife cfg returns) s := by
  intro t moves i le
  have life := (h.moves moves).1
  obtain ⟨closed_le, active, counted, preexecuted⟩ := life.window
  have double := life.window.ready_add
  change i ≤ windowEnd cfg t.highestClosedIid
  unfold reach at le
  unfold windowEnd
  omega

end FdsPaxos.RingWindows
