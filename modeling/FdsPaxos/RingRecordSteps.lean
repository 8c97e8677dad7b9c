import FdsPaxos.RingWindows

set_option autoImplicit false

namespace FdsPaxos.RingRecordSteps
open TransitionRuns CircularWindow RingConfig RingMessages RingMcasterStorage RingMulticaster
open RingMulticasterMoves RingWorld
open RingWindows (Busy)

def anything : MoveCondition where
  opens := fun _ _ => True
  repeats := fun _ _ => True
  takes := fun _ _ => True
  returns := fun _ => True
  takes_next := fun _ => trivial
  takes_mono := fun _ _ => trivial

def Tells (mir : McasterInstanceRecord) : McastMsg → Prop
  | .commandMap m =>
    m.instNumber = mir.instNumber ∧ m.cmdKey = mir.assignedCmdKey ∧
      m.cmdValue = mir.assignedCmdValue.getD []
  | .phase2 m =>
    m.instNumber = mir.instNumber ∧ m.ballot = mir.ballot ∧ m.cmdKey = mir.assignedCmdKey
  | .acceptance m => m.instNumber = mir.instNumber

/-- The record of a slot is given to a later instance, is in phase 1, or keeps its command. -/
inductive RecordStep (cfg : Config) (slot : ℕ) (mir mir' : McasterInstanceRecord) : Prop where
  | taken (i : ℕ) (here : slot = msmSlot cfg i) (free : Takeable mir i)
      (own : mir'.instNumber = i)
  | phase1 (own : mir'.instNumber = mir.instNumber) (idle : ¬ Busy mir)
  | kept (own : mir'.instNumber = mir.instNumber) (busy : Busy mir → Busy mir')
      (key : mir'.assignedCmdKey = mir.assignedCmdKey)
      (value : mir'.assignedCmdValue = mir.assignedCmdValue)

structure Rewrites (s t : Mcaster) (slot : ℕ) (mir : McasterInstanceRecord)
    (sent : List McastMsg) : Prop where
  slots : t.instancesArray = setSlot s.instancesArray slot mir
  mcast : t.mcast = sent ++ s.mcast
  tells : ∀ msg ∈ sent, Tells mir msg

/-- Every record stands in the slot of its instance. -/
def Placed (cfg : Config) (s : Mcaster) : Prop :=
  ∀ slot, (s.instancesArray slot).instNumber ≠ 0 →
    msmSlot cfg (s.instancesArray slot).instNumber = slot

variable {cfg : Config} {C : MoveCondition} {s t : Mcaster}

theorem RecordStep.refl (slot : ℕ) (mir : McasterInstanceRecord) : RecordStep cfg slot mir mir :=
  .kept rfl id rfl rfl

theorem rewrites_same (slots : t.instancesArray = s.instancesArray) (mcast : t.mcast = s.mcast)
    (slot : ℕ) : Rewrites s t slot (s.instancesArray slot) [] where
  slots := by
    rw [slots]
    funext k
    rw [setSlot_apply]
    split_ifs with here
    · rw [here]
    · rfl
  mcast := mcast
  tells := fun _ h => nomatch h

theorem mcasterDoPhase2_rewrites (cfg : Config) {slot : ℕ} {mir : McasterInstanceRecord}
    (slots : t.instancesArray = setSlot s.instancesArray slot mir) (mcast : t.mcast = s.mcast) :
    ∃ sent, Rewrites s (mcasterDoPhase2 cfg t slot) slot
      { mir with
        status := .p2Pending
        timeout := timerSetTimeout t.mcasterClock cfg.p2Interval } sent := by
  have here : t.instancesArray slot = mir := by rw [slots, setSlot_self]
  refine ⟨[_], ?_, congrArg (_ :: ·) mcast, List.forall_mem_singleton.mpr ?_⟩
  · unfold mcasterDoPhase2
    rw [here]
    change setSlot t.instancesArray slot _ = _
    rw [slots, setSlot_setSlot]
  · rw [here]
    exact ⟨rfl, rfl, rfl⟩

theorem mcasterReplace_rewrites {slot : ℕ} {mir : McasterInstanceRecord}
    (slots : t.instancesArray = setSlot s.instancesArray slot mir) (mcast : t.mcast = s.mcast)
    (key : CommandId) (value : Value) :
    ∃ mir', mir'.instNumber = mir.instNumber ∧
      (mcasterStorageReplaceAssignedValue t slot key value).instancesArray =
        setSlot s.instancesArray slot mir' ∧
      (mcasterStorageReplaceAssignedValue t slot key value).mcast = s.mcast := by
  have here : t.instancesArray slot = mir := by rw [slots, setSlot_self]
  unfold mcasterStorageReplaceAssignedValue
  dsimp only
  rw [here]
  split
  · exact ⟨mir, rfl, slots, mcast⟩
  · split_ifs
    · refine ⟨{ mir with assignedCmdKey := key }, rfl, ?_, mcast⟩
      change setSlot t.instancesArray slot _ = _
      rw [slots, setSlot_setSlot]
    · refine ⟨{ mir with assignedCmdKey := key, assignedCmdValue := some value }, rfl, ?_, mcast⟩
      change setSlot t.instancesArray slot _ = _
      rw [slots, setSlot_setSlot]

theorem mcasterPromised_rewrites (cfg : Config) (s : Mcaster) (msg : Phase1Msg) (slot : ℕ) :
    ∃ mir sent, Rewrites s (mcasterPromised cfg s msg slot) slot mir sent ∧
      mir.instNumber = (s.instancesArray slot).instNumber := by
  set u := s.withRecord slot { s.instancesArray slot with status := .p1Done } with hu
  have slots : u.instancesArray =
      setSlot s.instancesArray slot { s.instancesArray slot with status := .p1Done } := rfl
  have own : ∃ mir sent, Rewrites s (mcasterDoPhase2 cfg u slot) slot mir sent ∧
      mir.instNumber = (s.instancesArray slot).instNumber := by
    obtain ⟨sent, rewrites⟩ := mcasterDoPhase2_rewrites cfg slots rfl
    exact ⟨_, sent, rewrites, rfl⟩
  unfold mcasterPromised
  dsimp only
  split_ifs
  · exact ⟨_, [], ⟨slots, rfl, fun _ h => nomatch h⟩, rfl⟩
  · exact own
  · exact own
  · obtain ⟨mir', same, slots', mcast⟩ := mcasterReplace_rewrites slots rfl msg.cmdKey msg.cmdValue
    obtain ⟨sent, rewrites⟩ := mcasterDoPhase2_rewrites cfg slots' mcast
    exact ⟨_, sent, rewrites, same⟩

theorem mcasterPropose_rewrites (cfg : Config) {slot : ℕ} {mir : McasterInstanceRecord}
    (slots : t.instancesArray = setSlot s.instancesArray slot mir) (mcast : t.mcast = s.mcast) :
    ∃ mir' sent, Rewrites s (mcasterDoPhase2 cfg (mcasterBroadcastMapping cfg t slot) slot) slot
        mir' sent ∧
      mir'.instNumber = mir.instNumber ∧ mir'.status = .p2Pending ∧
      mir'.assignedCmdKey = mir.assignedCmdKey ∧ mir'.assignedCmdValue = mir.assignedCmdValue := by
  have here : t.instancesArray slot = mir := by rw [slots, setSlot_self]
  refine ⟨{ mir with
    status := .p2Pending
    timeout := timerSetTimeout t.mcasterClock cfg.p2Interval
    repeatCmdmapTimeout := timerSetTimeout t.mcasterClock cfg.retransmitRequestInterval },
    [.phase2 ⟨mir.instNumber, mir.ballot, 0, mir.assignedCmdKey⟩,
      .commandMap ⟨mir.instNumber, mir.assignedCmdKey, mir.assignedCmdValue.getD []⟩],
    ⟨?_, ?_, ?_⟩, rfl, rfl, rfl, rfl⟩
  · simp only [mcasterDoPhase2, mcasterBroadcastMapping, Mcaster.withRecord, Mcaster.sendMcast,
      setSlot_self, setSlot_setSlot, here]
    rw [slots, setSlot_setSlot]
  · simp only [mcasterDoPhase2, mcasterBroadcastMapping, Mcaster.withRecord, Mcaster.sendMcast,
      setSlot_self, here, mcast]
    rfl
  · exact List.forall_mem_cons.mpr ⟨⟨rfl, rfl, rfl⟩,
      List.forall_mem_singleton.mpr ⟨rfl, rfl, rfl⟩⟩

theorem Move.rewrites (move : Move cfg C s t) :
    ∃ slot mir sent, Rewrites s t slot mir sent ∧
      RecordStep cfg slot (s.instancesArray slot) mir := by
  have same (slots : t.instancesArray = s.instancesArray) (mcast : t.mcast = s.mcast) :
      ∃ slot mir sent, Rewrites s t slot mir sent ∧
        RecordStep cfg slot (s.instancesArray slot) mir :=
    ⟨0, _, _, rewrites_same slots mcast 0, .refl 0 _⟩
  cases move with
  | quiet h => exact same (h ▸ rfl) (h ▸ rfl)
  | take i allowed free =>
    refine ⟨msmSlot cfg i, _, [], ⟨rfl, rfl, fun _ h => nomatch h⟩, .taken i rfl free ?_⟩
    unfold takenRecord
    split_ifs <;> rfl
  | phase1 slot mir phase =>
    refine ⟨slot, mir, [], ⟨rfl, rfl, fun _ h => nomatch h⟩, .phase1 phase.instNumber ?_⟩
    rcases phase.before with before | before <;> simp [Busy, before]
  | sendPhase1 slot msg own => exact same rfl rfl
  | sendRange msg allowed => exact same rfl rfl
  | opened n few taken => exact same rfl rfl
  | promised msg slot pending =>
    obtain ⟨mir, sent, rewrites, own⟩ := mcasterPromised_rewrites cfg s msg slot
    exact ⟨slot, mir, sent, rewrites, .phase1 own (by simp [Busy, pending])⟩
  | startP2 value allowed next =>
    set slot := msmSlot cfg (s.highestOpenIid + 1)
    have idle : ¬ Busy (s.instancesArray slot) := by
      have ready : (s.instancesArray slot).status = .p1Done := next.ready
      simp [Busy, ready]
    set u : Mcaster := { assignNext cfg s value with
      p1ReadyCount := (assignNext cfg s value).p1ReadyCount - 1 }
    have slots : u.instancesArray = setSlot s.instancesArray slot
        { s.instancesArray slot with
          assignedCmdKey := (createValueKey s.seqNumber).1
          assignedCmdValue := some value } := rfl
    obtain ⟨mir, sent, rewrites, own, -⟩ := mcasterPropose_rewrites cfg slots rfl
    exact ⟨slot, mir, sent, ⟨rewrites.slots, rewrites.mcast, rewrites.tells⟩, .phase1 own idle⟩
  | repeatP2 slot pending =>
    obtain ⟨mir, sent, rewrites, own, status, key, value⟩ :=
      mcasterPropose_rewrites cfg (rewrites_same (s := s) rfl rfl slot).slots rfl
    exact ⟨slot, mir, sent, rewrites, .kept own (fun _ => .inl status) key value⟩
  | complete slot msg returned completes =>
    refine ⟨slot, { s.instancesArray slot with status := .done }, [_],
      ⟨rfl, rfl, List.forall_mem_singleton.mpr ?_⟩, .kept rfl (fun _ => .inr rfl) rfl rfl⟩
    change _ = (s.instancesArray slot).instNumber
    simp [Mcaster.withRecord]
  | advance slot done next => exact same rfl rfl
  | repeatMap i allowed own =>
    exact ⟨msmSlot cfg i, _, [_], ⟨rfl, rfl, List.forall_mem_singleton.mpr ⟨rfl, rfl, rfl⟩⟩,
      .kept rfl id rfl rfl⟩
  | repeatAcceptance slot done =>
    exact ⟨slot, _, [_], ⟨(rewrites_same rfl rfl slot).slots, rfl,
      List.forall_mem_singleton.mpr rfl⟩, .refl slot _⟩

def Unassigned (mir : McasterInstanceRecord) : Prop :=
  mir.instNumber = 0 ∨ ¬ Busy mir → mir.assignedCmdValue = none

theorem Unassigned.same {mir mir' : McasterInstanceRecord} (h : Unassigned mir)
    (own : mir'.instNumber = mir.instNumber) (value : mir'.assignedCmdValue = mir.assignedCmdValue)
    (busy : Busy mir → Busy mir') : Unassigned mir' := by
  intro unused
  rw [value]
  exact h (unused.imp (fun zero => own ▸ zero) (mt busy))

theorem unassigned_setSlot {slot : ℕ} {mir : McasterInstanceRecord}
    (slots : t.instancesArray = setSlot s.instancesArray slot mir)
    (free : ∀ slot', Unassigned (s.instancesArray slot')) (here : Unassigned mir) (slot' : ℕ) :
    Unassigned (t.instancesArray slot') := by
  rw [slots, setSlot_apply]
  split_ifs
  · exact here
  · exact free slot'

theorem unassigned_move (free : ∀ slot, Unassigned (s.instancesArray slot))
    (move : Move cfg C s t) : ∀ slot, Unassigned (t.instancesArray slot) := by
  cases move with
  | quiet h => exact h ▸ free
  | take i allowed takeable =>
    refine unassigned_setSlot rfl free fun _ => ?_
    unfold takenRecord
    split_ifs with unused
    · exact free (msmSlot cfg i) (.inl unused)
    · rfl
  | phase1 slot mir phase =>
    refine unassigned_setSlot rfl free ((free slot).same phase.instNumber phase.value ?_)
    rcases phase.before with before | before <;> simp [Busy, before]
  | sendPhase1 slot msg own => exact free
  | sendRange msg allowed => exact free
  | opened n few taken => exact free
  | promised msg slot pending =>
    have none := free slot (.inr (by simp [Busy, pending]))
    unfold mcasterPromised
    dsimp only
    rw [if_pos none]
    exact unassigned_setSlot rfl free fun _ => none
  | startP2 value allowed next =>
    set u : Mcaster := { assignNext cfg s value with
      p1ReadyCount := (assignNext cfg s value).p1ReadyCount - 1 }
    have slots : u.instancesArray = setSlot s.instancesArray (msmSlot cfg (s.highestOpenIid + 1))
        { s.record cfg (s.highestOpenIid + 1) with
          assignedCmdKey := (createValueKey s.seqNumber).1
          assignedCmdValue := some value } := rfl
    obtain ⟨mir, sent, rewrites, own, status, -⟩ := mcasterPropose_rewrites cfg slots rfl
    have proposed := own.trans next.own
    refine unassigned_setSlot rewrites.slots free ?_
    rintro (unused | idle)
    · omega
    · exact absurd (.inl status) idle
  | repeatP2 slot pending =>
    obtain ⟨mir, sent, rewrites, own, status, -, value⟩ :=
      mcasterPropose_rewrites cfg (rewrites_same (s := s) rfl rfl slot).slots rfl
    exact unassigned_setSlot rewrites.slots free ((free slot).same own value fun _ => .inl status)
  | complete slot msg returned completes =>
    exact unassigned_setSlot rfl free ((free slot).same rfl rfl fun _ => .inr rfl)
  | advance slot done next => exact free
  | repeatMap i allowed own => exact unassigned_setSlot rfl free ((free _).same rfl rfl id)
  | repeatAcceptance slot done => exact free

variable {slot : ℕ} {mir : McasterInstanceRecord} {sent : List McastMsg}

theorem Placed.rewrites (placed : Placed cfg s) (rewrites : Rewrites s t slot mir sent)
    (step : RecordStep cfg slot (s.instancesArray slot) mir) : Placed cfg t := by
  intro slot'
  rw [rewrites.slots, setSlot_apply]
  split_ifs with here
  · subst here
    cases step with
    | taken i here free own => exact fun _ => own ▸ here.symm
    | phase1 own idle => exact own ▸ placed slot'
    | kept own busy key value => exact own ▸ placed slot'
  · exact placed slot'

theorem multicasterInit_placed (cfg : Config) : Placed cfg multicasterInit :=
  fun _ used => absurd rfl used

theorem mcasterStep_anything (o : McasterOutcome) (e : RingEvent) (goesOn : e ≠ .restart) :
    Moves cfg anything o.state (mcasterStep cfg o e).state := by
  refine mcasterStep_moves ?_ goesOn
  cases e with
  | periodicCheck clock =>
    cases o with
    | running s => exact ⟨fun _ _ _ _ => trivial, checkMeets_of_forall (fun _ _ => trivial) _ _⟩
    | aborted fault s => trivial
  | toMcaster msg clock =>
    cases msg with
    | phase1 msg => trivial
    | phase1Range msg => exact fun _ _ => trivial
    | phase2 msg => exact ⟨trivial, trivial⟩
  | request l msg clock => exact fun _ _ => ⟨trivial, fun _ _ => trivial⟩
  | _ => trivial

theorem run_moves (o : McasterOutcome) (events : List RingEvent)
    (goesOn : ∀ e ∈ events, e ≠ .restart) :
    Moves cfg anything o.state (run (mcasterStep cfg) o events).state := by
  induction events generalizing o with
  | nil => exact .refl _
  | cons e events ih =>
    obtain ⟨first, rest⟩ := List.forall_mem_cons.mp goesOn
    exact (mcasterStep_anything o e first).trans (ih _ rest)

theorem Moves.mcast_grows (moves : Moves cfg C s t) : ∀ msg ∈ s.mcast, msg ∈ t.mcast :=
  moves.invariant (fun t => ∀ msg ∈ s.mcast, msg ∈ t.mcast)
    (fun _ _ grown move msg hmsg => move.mcast_grows msg (grown msg hmsg)) fun _ h => h

theorem Placed.moves (placed : Placed cfg s) (moves : Moves cfg C s t) : Placed cfg t := by
  refine moves.invariant (Placed cfg) (fun u v placed move => ?_) placed
  obtain ⟨slot, mir, sent, rewrites, step⟩ := Move.rewrites move
  exact placed.rewrites rewrites step

end FdsPaxos.RingRecordSteps
