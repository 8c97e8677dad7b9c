import FdsPaxos.RingRecordSteps

set_option autoImplicit false

namespace FdsPaxos.RingAdoptValue
open TransitionRuns CircularWindow RingConfig RingMessages RingMcasterStorage RingMulticaster
open RingMulticasterMoves RingWorld RingRecordSteps
open RingWindows (Busy)

section Definitions

variable (cfg : Config)

/-- The message completes phase 1 of a record and reports a value that was accepted. -/
structure Reports (mir : McasterInstanceRecord) (msg : Phase1Msg) : Prop where
  positive : 0 < msg.instNumber
  own : mir.instNumber = msg.instNumber
  pending : mir.status = .p1Pending
  ballot : mir.ballot = msg.ballot
  mine : isMyBallot msg.ballot selfAcceptorId incarnationNumber.toUInt32
  enough : cfg.quorumSize ≤ msg.promisesCount.toNat
  accepted : msg.highestAcceptedBallot ≠ 0

def OfReported (msg : Phase1Msg) : McastMsg → Prop
  | .phase2 m => m.instNumber = msg.instNumber → m.ballot = msg.ballot → m.cmdKey = msg.cmdKey
  | .commandMap m =>
    m.instNumber = msg.instNumber → m.cmdKey = msg.cmdKey ∧ m.cmdValue = msg.cmdValue
  | .acceptance _ => True

/-- Since a state `s`, the instance was proposed with the reported command only. -/
structure ProposesReported (s : Mcaster) (msg : Phase1Msg) (t : Mcaster) : Prop where
  sent : ∃ sent, t.mcast = sent ++ s.mcast ∧ ∀ m ∈ sent, OfReported msg m
  record : (t.record cfg msg.instNumber).instNumber = msg.instNumber →
    (t.record cfg msg.instNumber).status = .p2Pending →
      (t.record cfg msg.instNumber).ballot = msg.ballot →
        (t.record cfg msg.instNumber).assignedCmdKey = msg.cmdKey ∧
        (t.record cfg msg.instNumber).assignedCmdValue = some msg.cmdValue

/-- A value of a client that was assigned goes back to the queue, and whatever happens later the
instance is proposed with the reported command. -/
def Adopts (s : Mcaster) (msg : Phase1Msg) : Prop :=
  ∃ t, mcasterHandlePhase1Msg cfg s msg = .running t ∧
    (∀ own, (s.record cfg msg.instNumber).assignedCmdValue = some own →
      t.queue = cvmPushBackValue s.queue own) ∧
    ∀ events : List RingEvent, (∀ e ∈ events, e ≠ .restart) →
      ProposesReported cfg s msg (run (mcasterStep cfg) (.running t) events).state

/-- A value was assigned before, which differs from what is reported in its key and its bytes. -/
def HasOtherCommand (mir : McasterInstanceRecord) (msg : Phase1Msg) : Prop :=
  ∃ own, mir.assignedCmdValue = some own ∧ mir.assignedCmdKey ≠ msg.cmdKey ∧ own ≠ msg.cmdValue

end Definitions

variable {cfg : Config} {s t : Mcaster} {msg : Phase1Msg} {mir : McasterInstanceRecord}

def Adopted (msg : Phase1Msg) (mir : McasterInstanceRecord) : Prop :=
  msg.instNumber < mir.instNumber ∨
    (mir.instNumber = msg.instNumber ∧ Busy mir ∧ mir.assignedCmdKey = msg.cmdKey ∧
      mir.assignedCmdValue = some msg.cmdValue)

theorem Adopted.step {slot : ℕ} {mir' : McasterInstanceRecord} (positive : 0 < msg.instNumber)
    (h : Adopted msg mir) (step : RecordStep cfg slot mir mir') : Adopted msg mir' := by
  cases step with
  | taken i here free own =>
    refine .inl ?_
    have used : msg.instNumber ≤ mir.instNumber := by
      rcases h with later | ⟨same, -⟩
      · exact later.le
      · exact same.ge
    rcases free with unused | ⟨older, -⟩
    · omega
    · omega
  | phase1 own idle =>
    rcases h with later | ⟨-, busy, -⟩
    · exact .inl (own ▸ later)
    · exact absurd busy idle
  | kept own busy key value =>
    rcases h with later | ⟨same, isBusy, sameKey, sameValue⟩
    · exact .inl (own ▸ later)
    · exact .inr ⟨own.trans same, busy isBusy, key.trans sameKey, value.trans sameValue⟩

theorem Adopted.tells (h : Adopted msg mir) {m : McastMsg} (tells : Tells mir m) :
    OfReported msg m := by
  cases m with
  | commandMap m =>
    obtain ⟨inst, key, value⟩ := tells
    intro same
    rcases h with later | ⟨-, -, sameKey, sameValue⟩
    · omega
    · exact ⟨key.trans sameKey, by rw [value, sameValue, Option.getD_some]⟩
  | phase2 m =>
    obtain ⟨inst, -, key⟩ := tells
    intro same _
    rcases h with later | ⟨-, -, sameKey, -⟩
    · omega
    · exact key.trans sameKey
  | acceptance m => trivial

theorem ofReported_of_other {m : McastMsg} (tells : Tells mir m) (other : mir.instNumber ≠ msg.instNumber) :
    OfReported msg m := by
  cases m with
  | commandMap m => exact fun same => absurd (tells.1.symm.trans same) other
  | phase2 m => exact fun same => absurd (tells.1.symm.trans same) other
  | acceptance m => trivial

structure Adopting (cfg : Config) (s : Mcaster) (msg : Phase1Msg) (t : Mcaster) : Prop where
  placed : Placed cfg t
  record : Adopted msg (t.record cfg msg.instNumber)
  sent : ∃ sent, t.mcast = sent ++ s.mcast ∧ ∀ m ∈ sent, OfReported msg m

theorem Adopting.rewrites {u : Mcaster} {slot : ℕ} {sent : List McastMsg}
    (positive : 0 < msg.instNumber) (h : Adopting cfg s msg t) (rewrites : Rewrites t u slot mir sent)
    (step : RecordStep cfg slot (t.instancesArray slot) mir) : Adopting cfg s msg u where
  placed := h.placed.rewrites rewrites step
  record := by
    unfold Mcaster.record
    rw [rewrites.slots, setSlot_apply]
    split_ifs with here
    · subst here
      exact h.record.step positive step
    · exact h.record
  sent := by
    obtain ⟨before, mcast, ofReported⟩ := h.sent
    refine ⟨sent ++ before, by rw [rewrites.mcast, mcast, List.append_assoc], ?_⟩
    refine List.forall_mem_append.mpr ⟨fun m hm => ?_, ofReported⟩
    have tells := rewrites.tells m hm
    by_cases here : slot = msmSlot cfg msg.instNumber
    · subst here
      exact (h.record.step positive step).tells tells
    · refine ofReported_of_other tells fun same => here ?_
      have placed := h.placed.rewrites rewrites step slot
      rw [rewrites.slots, setSlot_self, same] at placed
      exact (placed (by omega)).symm

theorem Adopting.moves {u : Mcaster} {C : MoveCondition} (positive : 0 < msg.instNumber)
    (h : Adopting cfg s msg t) (moves : Moves cfg C t u) : Adopting cfg s msg u := by
  refine moves.invariant (Adopting cfg s msg) (fun v w h move => ?_) h
  obtain ⟨slot, mir, sent, rewrites, step⟩ := Move.rewrites move
  exact h.rewrites positive rewrites step

theorem Adopting.proposesReported (h : Adopting cfg s msg t) : ProposesReported cfg s msg t where
  sent := h.sent
  record := by
    intro own _ _
    rcases h.record with later | ⟨-, -, key, value⟩
    · omega
    · exact ⟨key, value⟩

theorem handlePhase1Msg_promised (reports : Reports cfg (s.record cfg msg.instNumber) msg)
    (fresh : s.highestClosedIid < msg.instNumber) : mcasterHandlePhase1Msg cfg s msg =
      .running (mcasterPromised cfg s msg (msmSlot cfg msg.instNumber)) := by
  obtain ⟨positive, own, pending, ballot, mine, enough, accepted⟩ := reports
  have got := mcasterStorageGet_of_own positive own
  unfold mcasterHandlePhase1Msg
  rw [if_neg (not_le.mpr fresh), if_neg (not_not.mpr mine), got, Outcome.bind_running]
  unfold mcasterPhase1Returned
  dsimp only
  rw [if_neg (not_not.mpr pending), if_neg (not_not.mpr ballot), if_neg (not_lt.mpr enough)]

theorem mcasterReplace_assigned {slot : ℕ} {own : Value}
    (assigned : (s.instancesArray slot).assignedCmdValue = some own) (key : CommandId)
    (value : Value) : mcasterStorageReplaceAssignedValue s slot key value =
      if own = value then
        s.withRecord slot { s.instancesArray slot with assignedCmdKey := key }
      else
        { s with queue := cvmPushBackValue s.queue own }.withRecord slot
          { s.instancesArray slot with assignedCmdKey := key, assignedCmdValue := some value } := by
  unfold mcasterStorageReplaceAssignedValue
  dsimp only
  split
  · rename_i none
    cases none.symm.trans assigned
  · rename_i found
    cases found.symm.trans assigned
    rfl

theorem mcasterPromised_queue (cfg : Config) {slot : ℕ} {own : Value}
    (assigned : (s.instancesArray slot).assignedCmdValue = some own)
    (same : (s.instancesArray slot).assignedCmdKey = msg.cmdKey ∨ own = msg.cmdValue) :
    (mcasterPromised cfg s msg slot).queue = s.queue := by
  have some : ¬ (s.instancesArray slot).assignedCmdValue = none := by simp [assigned]
  unfold mcasterPromised
  dsimp only
  rw [if_neg some]
  split_ifs with accepted key
  · rfl
  · rfl
  · have assigned' : ((s.withRecord slot { s.instancesArray slot with
        status := .p1Done }).instancesArray slot).assignedCmdValue = Option.some own :=
      (congrArg McasterInstanceRecord.assignedCmdValue (setSlot_self _ _ _)).trans assigned
    rw [mcasterReplace_assigned assigned', if_pos (same.resolve_left key)]
    rfl

theorem mcasterPromised_replaced (cfg : Config) {slot : ℕ} {own : Value}
    (assigned : (s.instancesArray slot).assignedCmdValue = some own)
    (accepted : msg.highestAcceptedBallot ≠ 0)
    (key : (s.instancesArray slot).assignedCmdKey ≠ msg.cmdKey) (other : own ≠ msg.cmdValue) :
    (mcasterPromised cfg s msg slot).queue = cvmPushBackValue s.queue own ∧
    ∃ mir sent, Rewrites s (mcasterPromised cfg s msg slot) slot mir sent ∧
      mir.instNumber = (s.instancesArray slot).instNumber ∧ mir.status = .p2Pending ∧
      mir.assignedCmdKey = msg.cmdKey ∧ mir.assignedCmdValue = some msg.cmdValue := by
  set done : McasterInstanceRecord := { s.instancesArray slot with status := .p1Done }
  set u := s.withRecord slot done
  have here : u.instancesArray slot = done := setSlot_self _ _ _
  have some : ¬ (s.instancesArray slot).assignedCmdValue = none := by simp [assigned]
  have assigned' : (u.instancesArray slot).assignedCmdValue = Option.some own := by
    rw [here, ← assigned]
  unfold mcasterPromised
  dsimp only
  rw [if_neg some, if_neg accepted, if_neg key, mcasterReplace_assigned assigned', here,
    if_neg other]
  obtain ⟨sent, rewrites⟩ := mcasterDoPhase2_rewrites cfg (s := s)
    (t := { u with queue := cvmPushBackValue u.queue own }.withRecord slot
      { done with assignedCmdKey := msg.cmdKey, assignedCmdValue := Option.some msg.cmdValue })
    (setSlot_setSlot _ _ _ _) rfl
  exact ⟨rfl, _, sent, rewrites, rfl, rfl, rfl, rfl⟩

theorem adopts_of_hasOtherCommand (placed : Placed cfg s)
    (reports : Reports cfg (s.record cfg msg.instNumber) msg)
    (fresh : s.highestClosedIid < msg.instNumber)
    (has : HasOtherCommand (s.record cfg msg.instNumber) msg) : Adopts cfg s msg := by
  obtain ⟨own, assigned, otherKey, other⟩ := has
  obtain ⟨queue, mir, sent, rewrites, inst, status, key, value⟩ :=
    mcasterPromised_replaced cfg assigned reports.accepted otherKey other
  have adopted : Adopted msg mir := .inr ⟨inst.trans reports.own, .inl status, key, value⟩
  have idle : ¬ Busy (s.record cfg msg.instNumber) := by
    simp [Busy, reports.pending]
  have adopting : Adopting cfg s msg (mcasterPromised cfg s msg (msmSlot cfg msg.instNumber)) :=
    { placed := placed.rewrites rewrites (.phase1 inst idle)
      record := by
        unfold Mcaster.record
        rw [rewrites.slots, setSlot_self]
        exact adopted
      sent := ⟨sent, rewrites.mcast, fun m hm => adopted.tells (rewrites.tells m hm)⟩ }
  refine ⟨_, handlePhase1Msg_promised reports fresh, ?_, fun events goesOn => ?_⟩
  · intro own' assigned'
    cases assigned.symm.trans assigned'
    exact queue
  · exact (adopting.moves reports.positive
      (run_moves (.running (mcasterPromised cfg s msg _)) events goesOn)).proposesReported

theorem other_of_adopts {own : Value} (reports : Reports cfg (s.record cfg msg.instNumber) msg)
    (fresh : s.highestClosedIid < msg.instNumber) (empty : s.queue = [])
    (adopts : Adopts cfg s msg)
    (assigned : (s.record cfg msg.instNumber).assignedCmdValue = some own) :
    (s.record cfg msg.instNumber).assignedCmdKey ≠ msg.cmdKey ∧ own ≠ msg.cmdValue := by
  obtain ⟨t, handled, back, -⟩ := adopts
  cases handled.symm.trans (handlePhase1Msg_promised reports fresh)
  rw [← not_or]
  intro same
  have kept := (mcasterPromised_queue cfg assigned same).symm.trans (back own assigned)
  rw [empty] at kept
  cases kept

section Dropped

/-- A value of a client that differs from a given one. -/
def another : Value → Value
  | [] => [0]
  | _ :: _ => []

theorem another_ne (value : Value) : another value ≠ value := by
  cases value <;> simp [another]

theorem another_short (value : Value) : (another value).length ≤ maxQueueSizeBytes := by
  cases value <;> simp [another, maxQueueSizeBytes]

/-- A multicaster whose next instance is that of a record. -/
def opensNext (cfg : Config) (mir : McasterInstanceRecord) : Mcaster :=
  { multicasterInit with
    p1ReadyCount := 0x20000000
    p1HighestOpen := mir.instNumber
    highestClosedIid := mir.instNumber - 1
    highestOpenIid := mir.instNumber - 1
    instancesArray := setSlot multicasterInit.instancesArray (msmSlot cfg mir.instNumber) mir }

/-- The next instance has no value yet, and is ready for the first one of the queue. -/
structure ReadyFor (cfg : Config) (s : Mcaster) (i : ℕ) (value : Value) : Prop where
  closed : s.highestClosedIid + 1 = i
  opened : s.highestOpenIid + 1 = i
  p1Highest : s.p1HighestOpen = i
  count : s.p1ReadyCount = 0x20000000
  own : (s.record cfg i).instNumber = i
  done : (s.record cfg i).status = .p1Done
  ballot : (s.record cfg i).ballot ≠ 0
  unassigned : (s.record cfg i).assignedCmdValue = none
  queue : ∃ rest, s.queue = value :: rest

variable {i : ℕ} {value : Value}

theorem ReadyFor.got (ready : ReadyFor cfg s i value) : mcasterStorageGet cfg s i = .running s := by
  refine mcasterStorageGet_of_own ?_ ready.own
  have closed := ready.closed
  omega

theorem ReadyFor.clock (ready : ReadyFor cfg s i value) (clock : Timeval) :
    ReadyFor cfg (mcasterUpdateWallclock s clock) i value := by
  obtain ⟨closed, opened, p1Highest, count, own, done, ballot, unassigned, queue⟩ := ready
  exact ⟨closed, opened, p1Highest, count, own, done, ballot, unassigned, queue⟩

theorem ReadyFor.checkP1 (ready : ReadyFor cfg s i value) (clock : ℕ → Timeval) :
    mcasterCheckP1 cfg clock s =
      .running (mcasterUpdateWallclock (mcasterUpdateWallclock s (clock 0)) (clock 1)) := by
  have ready0 := ready.clock (clock 0)
  have ready1 := ready0.clock (clock 1)
  set s0 := mcasterUpdateWallclock s (clock 0)
  set s1 := mcasterUpdateWallclock s0 (clock 1)
  have enough : mcasterOpenNewInstancesP1 cfg s0 = .running s0 := by
    unfold mcasterOpenNewInstancesP1
    dsimp only
    have many : (s0.p1ReadyCount + s0.p1ReadyCount).toNat = 2 ^ 30 := by
      rw [ready0.count]
      decide
    have window := cfg.workingSet_gt
    have int := cfg.workingSet_int
    rw [many, if_pos (by omega)]
  have one : List.range' (s1.highestClosedIid + 1)
      (max s1.highestOpenIid s1.p1HighestOpen - s1.highestClosedIid) = [i] := by
    have closed := ready1.closed
    have opened := ready1.opened
    rw [closed, ready1.p1Highest, show max s1.highestOpenIid i - s1.highestClosedIid = 1 by omega]
    rfl
  unfold mcasterCheckP1
  rw [enough, Outcome.bind_running]
  unfold mcasterCheckExpiredInstances
  rw [one, Outcome.fold_cons]
  unfold mcasterCheckExpired
  rw [ready1.got, Outcome.bind_running]
  dsimp only
  rw [ready1.done, if_neg (by simp), if_neg (by simp)]
  rfl

theorem ReadyFor.nextValue (ready : ReadyFor cfg s i value) :
    ∃ rest, mcasterNextValue cfg s = .running ({ s with queue := rest }, some value) := by
  obtain ⟨rest, queue⟩ := ready.queue
  have active := cfg.active_pos
  have closed := ready.closed
  have opened := ready.opened
  have p1Highest := ready.p1Highest
  have counted : s.p1ReadyCount ≠ 0 := by
    rw [ready.count]
    decide
  refine ⟨rest, ?_⟩
  unfold mcasterNextValue
  dsimp only
  rw [opened, ready.got, Outcome.andThen_running, if_neg (by omega), if_neg (by omega),
    if_neg counted, ready.done, if_neg (by simp), if_neg (by simp), if_neg ready.ballot, queue]

theorem ReadyFor.opens (ready : ReadyFor cfg s i value) (rest : List Value) :
    ∃ t key, mcasterOpenInstanceP2 cfg { s with queue := rest } value = .running t ∧
      .commandMap ⟨i, key, value⟩ ∈ t.mcast := by
  have unassigned : (s.instancesArray (msmSlot cfg i)).assignedCmdValue = none := ready.unassigned
  have own : (s.instancesArray (msmSlot cfg i)).instNumber = i := ready.own
  unfold mcasterOpenInstanceP2 mcasterStorageAssignValue
  dsimp only
  rw [ready.opened, unassigned, if_neg (by simp), Outcome.bind_running]
  refine ⟨_, (createValueKey s.seqNumber).1, rfl, ?_⟩
  simp [mcasterStartPhase2, mcasterDoPhase2, mcasterBroadcastMapping, Mcaster.withRecord,
    Mcaster.sendMcast, own]

theorem ReadyFor.proposes (ready : ReadyFor cfg s i value) (clock : ℕ → Timeval) :
    ∃ key, .commandMap ⟨i, key, value⟩ ∈ (onMcasterPeriodicCheck cfg clock s).state.mcast := by
  have ready2 := ((ready.clock (clock 0)).clock (clock 1)).clock (clock 2)
  obtain ⟨turns, more⟩ := Nat.exists_eq_succ_of_ne_zero cfg.p2Open_pos.ne'
  obtain ⟨rest, next⟩ := ready2.nextValue
  obtain ⟨t, key, opened, sent⟩ := ready2.opens rest
  refine ⟨key, ?_⟩
  unfold onMcasterPeriodicCheck
  rw [ready.checkP1 clock, Outcome.bind_running, more]
  unfold mcasterOpenNewInstancesP2
  rw [next, Outcome.andThen_running]
  dsimp only
  rw [opened, Outcome.bind_running]
  -- the turns that follow multicast more
  have moves : Moves cfg anything t (mcasterOpenNewInstancesP2 cfg turns t).state :=
    mcasterOpenNewInstancesP2_moves turns t (fun _ _ _ _ => trivial)
      (opensMeet_of_forall (fun _ _ => trivial) turns t)
  exact Moves.mcast_grows moves _ sent

theorem opensNext_record (reports : Reports cfg mir msg) :
    (opensNext cfg mir).record cfg msg.instNumber = mir := by
  rw [← reports.own]
  exact setSlot_self _ _ _

theorem opensNext_fresh (reports : Reports cfg mir msg) :
    (opensNext cfg mir).highestClosedIid < msg.instNumber := by
  have positive := reports.positive
  change mir.instNumber - 1 < msg.instNumber
  rw [reports.own]
  omega

theorem opensNext_placed (cfg : Config) (mir : McasterInstanceRecord) :
    Placed cfg (opensNext cfg mir) := by
  intro slot
  change (setSlot multicasterInit.instancesArray (msmSlot cfg mir.instNumber) mir slot).instNumber
    ≠ 0 → msmSlot cfg (setSlot multicasterInit.instancesArray (msmSlot cfg mir.instNumber) mir
      slot).instNumber = slot
  rw [setSlot_apply]
  split_ifs with here
  · exact fun _ => here.symm
  · exact fun used => absurd rfl used

theorem opensNext_ready (reports : Reports cfg mir msg) (unassigned : mir.assignedCmdValue = none)
    {value : Value} (short : value.length ≤ maxQueueSizeBytes) : ReadyFor cfg
      (mcasterHandleValueSubmit
        (mcasterPromised cfg (opensNext cfg mir) msg (msmSlot cfg msg.instNumber)) value)
      msg.instNumber value := by
  obtain ⟨positive, own, pending, ballot, mine, enough, accepted⟩ := reports
  have here : (opensNext cfg mir).instancesArray (msmSlot cfg msg.instNumber) = mir := by
    unfold opensNext
    rw [own]
    exact setSlot_self _ _ _
  have ballotPos : mir.ballot ≠ 0 := by
    rw [ballot]
    intro zero
    rw [zero] at mine
    revert mine
    decide
  unfold mcasterPromised
  dsimp only
  rw [here, if_pos unassigned]
  have record : (mcasterHandleValueSubmit ((opensNext cfg mir).withRecord
      (msmSlot cfg msg.instNumber) { mir with status := .p1Done }) value).record cfg
        msg.instNumber = { mir with status := .p1Done } := setSlot_self _ _ _
  have low : mir.instNumber - 1 + 1 = msg.instNumber := by omega
  have queued : cvmSaveValue [] value = [value] := by
    unfold cvmSaveValue queueSize
    rw [if_neg (by decide), if_neg]
    · rfl
    · simpa using short
  refine ⟨low, low, own, rfl, ?_, ?_, ?_, ?_, [], queued⟩
  · rw [record]
    exact own
  · rw [record]
  · rw [record]
    exact ballotPos
  · rw [record]
    exact unassigned

theorem not_adopts_of_unassigned (reports : Reports cfg mir msg)
    (unassigned : mir.assignedCmdValue = none) : ¬ Adopts cfg (opensNext cfg mir) msg := by
  rintro ⟨t, handled, -, proposes⟩
  have here := opensNext_record reports
  cases handled.symm.trans (handlePhase1Msg_promised (here.symm ▸ reports)
    (opensNext_fresh reports))
  have ready := opensNext_ready reports unassigned (another_short msg.cmdValue)
  obtain ⟨key, mapped⟩ := ready.proposes fun _ => ⟨0, 0⟩
  obtain ⟨sent, mcast, ofReported⟩ :=
    (proposes [.submit (another msg.cmdValue), .periodicCheck fun _ => ⟨0, 0⟩] (by simp)).sent
  -- nothing was multicast before
  have all : sent = (onMcasterPeriodicCheck cfg (fun _ => ⟨0, 0⟩) (mcasterHandleValueSubmit
      (mcasterPromised cfg (opensNext cfg mir) msg (msmSlot cfg msg.instNumber))
      (another msg.cmdValue))).state.mcast := (List.append_nil sent).symm.trans mcast.symm
  exact another_ne msg.cmdValue (ofReported _ (all ▸ mapped) rfl).2

end Dropped

/-- A record and a message that completes its phase 1 and reports a value: in every state with
that record the value is adopted exactly when another command was assigned before. -/
theorem reported_value_adopted_iff (cfg : Config) (mir : McasterInstanceRecord) (msg : Phase1Msg)
    (reports : Reports cfg mir msg) :
    (∀ s, Placed cfg s → s.record cfg msg.instNumber = mir → s.highestClosedIid < msg.instNumber →
      Adopts cfg s msg) ↔ HasOtherCommand mir msg := by
  constructor
  · intro adopts
    have here : (opensNext cfg mir).record cfg msg.instNumber = mir := opensNext_record reports
    have always := adopts _ (opensNext_placed cfg mir) here (opensNext_fresh reports)
    cases assigned : mir.assignedCmdValue with
    | none => exact absurd always (not_adopts_of_unassigned reports assigned)
    | some own =>
      have other := other_of_adopts (here.symm ▸ reports) (opensNext_fresh reports) rfl always
        (here.symm ▸ assigned)
      exact ⟨own, assigned, here ▸ other⟩
  · intro has s placed same fresh
    subst same
    exact adopts_of_hasOtherCommand placed reports fresh has

/-- Two acceptors promise for instance 1, where one has accepted `[9]` from an earlier process. -/
def found : Phase1Msg := ⟨1, 65792, 2, 65792, 0, ⟨1, 0, 9⟩, [9]⟩

theorem found_replaces_own :
    Reports .small ⟨1, .p1Pending, 65792, ⟨1, 0, 1⟩, some [8], ⟨0, 0⟩, ⟨0, 0⟩⟩ found ∧
    ∀ s, Placed .small s →
      s.record .small 1 = ⟨1, .p1Pending, 65792, ⟨1, 0, 1⟩, some [8], ⟨0, 0⟩, ⟨0, 0⟩⟩ →
        s.highestClosedIid < 1 → Adopts .small s found :=
  have reports : Reports .small ⟨1, .p1Pending, 65792, ⟨1, 0, 1⟩, some [8], ⟨0, 0⟩, ⟨0, 0⟩⟩ found :=
    ⟨by decide, rfl, rfl, rfl, by decide, by decide, by decide⟩
  ⟨reports, (reported_value_adopted_iff .small _ found reports).mpr
    ⟨[8], rfl, by decide, by decide⟩⟩

/-- In a run no record has a value while its phase 1 is pending. -/
theorem run_unassigned (cfg : Config) (events : List RingEvent) (slot : ℕ) :
    Unassigned ((run (mcasterStep cfg) (.running multicasterInit) events).state.instancesArray
      slot) := by
  revert slot
  refine run_invariant (fun o : McasterOutcome => ∀ slot, Unassigned (o.state.instancesArray slot))
    (fun _ _ => rfl) fun o e free => ?_
  by_cases restart : e = .restart
  · exact restart ▸ fun _ _ => rfl
  · exact (mcasterStep_anything o e restart).invariant _ (fun _ _ => unassigned_move) free

theorem run_hasNoCommand (events : List RingEvent) (msg : Phase1Msg)
    (reports : Reports cfg ((run (mcasterStep cfg) (.running multicasterInit) events).state.record
      cfg msg.instNumber) msg) :
    ¬ HasOtherCommand ((run (mcasterStep cfg) (.running multicasterInit) events).state.record cfg
      msg.instNumber) msg := by
  rintro ⟨own, assigned, -⟩
  have none := run_unassigned cfg events (msmSlot cfg msg.instNumber)
    (.inr (not_or.mpr (by rw [← Mcaster.record, reports.pending]; decide)))
  cases assigned.symm.trans none

/-- The multicaster has asked for promises for instances 1 and 2, and asks again for each. -/
def prepared : Mcaster :=
  (run (mcasterStep .small) (.running multicasterInit)
    [.periodicCheck fun _ => ⟨1, 0⟩, .periodicCheck fun _ => ⟨3, 0⟩]).state

/-- Instance 1 is proposed with the value of a client although `[9]` was found. -/
theorem found_is_dropped : Placed .small prepared ∧
    Reports .small (prepared.record .small found.instNumber) found ∧
    prepared.highestClosedIid < found.instNumber ∧ ¬ Adopts .small prepared found := by
  have placed : Placed .small prepared :=
    (multicasterInit_placed .small).moves (run_moves (.running multicasterInit) _ (by simp))
  have reports : Reports .small (prepared.record .small found.instNumber) found :=
    ⟨by decide, by decide +kernel, by decide +kernel, by decide +kernel, by decide, by decide,
      by decide⟩
  have fresh : prepared.highestClosedIid < found.instNumber := by decide +kernel
  refine ⟨placed, reports, fresh, ?_⟩
  rintro ⟨t, handled, -, proposes⟩
  cases handled.symm.trans (handlePhase1Msg_promised reports fresh)
  have proposed := (proposes [.submit [8], .periodicCheck fun _ => ⟨3, 0⟩] (by simp)).record
  have own := (proposed (by decide +kernel) (by decide +kernel) (by decide +kernel)).2
  revert own
  decide +kernel

end FdsPaxos.RingAdoptValue
