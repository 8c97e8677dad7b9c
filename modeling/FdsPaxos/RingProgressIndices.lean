import FdsPaxos.RingIndexSteps
import FdsPaxos.RingOneLife
import Mathlib.Order.Bounds.Basic

set_option autoImplicit false

namespace FdsPaxos.RingProgressIndices
open TransitionRuns CircularWindow RingConfig RingMessages RingMcasterStorage RingMulticaster
open RingWorld RingWindows RingOneLife RingIndexSteps
open RingMulticasterMoves hiding Moves.invariant
open RingMappings (McasterSound)

section Definitions

variable (cfg : Config)

def Closed (s : Mcaster) (i : ℕ) : Prop :=
  ∃ key, .acceptance ⟨i, key⟩ ∈ s.mcast

structure OneCommand (mcast : List McastMsg) (i : ℕ) (key : CommandId) (value : Value) :
    Prop where
  mapped : .commandMap ⟨i, key, value⟩ ∈ mcast
  mapping : ∀ m, .commandMap m ∈ mcast → m.instNumber = i → m.cmdKey = key ∧ m.cmdValue = value
  proposed : ∀ m, .phase2 m ∈ mcast → m.instNumber = i → m.cmdKey = key
  accepted : ∀ a, .acceptance a ∈ mcast → a.instNumber = i → a.cmdKey = key

/-- The test of the loop that advances `highest_closed_iid`. -/
def Closes (s : Mcaster) (iid : ℕ) : Prop :=
  (s.record cfg iid).status = .done ∧ (s.record cfg iid).instNumber = s.highestClosedIid + 1

inductive Advances : Mcaster → ℕ → McasterOutcome → Prop where
  | stops (s : Mcaster) (iid : ℕ) (h : ¬ Closes cfg s iid) : Advances s iid (.running s)
  | fails (s t : Mcaster) (iid : ℕ) (fault : McasterFault) (h : Closes cfg s iid)
      (got : mcasterStorageGet cfg { s with highestClosedIid := s.highestClosedIid + 1 }
        (s.highestClosedIid + 1 + 1) = .aborted fault t) : Advances s iid (.aborted fault t)
  | turn (s t : Mcaster) (iid : ℕ) (o : McasterOutcome) (h : Closes cfg s iid)
      (got : mcasterStorageGet cfg { s with highestClosedIid := s.highestClosedIid + 1 }
        (s.highestClosedIid + 1 + 1) = .running t)
      (rest : Advances t (t.highestClosedIid + 1) o) : Advances s iid o

/-- The state in which the loop starts, when phase 2 of an instance has completed. -/
def advanceStart (s : Mcaster) (i : ℕ) : Mcaster :=
  mcasterBroadcastAcceptance
    (s.withRecord (msmSlot cfg i) { s.record cfg i with status := .done }) (msmSlot cfg i)

/-- The instances up to `highest_closed_iid` are closed, those up to `highest_open_iid` are in
phase 2, and those up to `p1_highest_open` in phase 1. -/
structure ProgressIndices (s : Mcaster) : Prop where
  closed : IsGreatest {n | ∀ i, 0 < i → i ≤ n → Closed s i} s.highestClosedIid
  opened : ∀ i, s.highestClosedIid < i → i ≤ s.highestOpenIid →
    (s.record cfg i).instNumber = i ∧
      ((s.record cfg i).status = .p2Pending ∨ (s.record cfg i).status = .done) ∧
      ((s.record cfg i).status = .done ↔ Closed s i)
  first : s.highestClosedIid < s.highestOpenIid →
    (s.record cfg (s.highestClosedIid + 1)).status = .p2Pending
  prepared : ∀ i, s.highestOpenIid < i → i ≤ s.p1HighestOpen →
    (s.record cfg i).instNumber = i ∧
      ((s.record cfg i).status = .p1Pending ∨ (s.record cfg i).status = .p1Done) ∧
      (s.record cfg i).assignedCmdValue = none
  command : ∀ i, 0 < i → i ≤ s.highestOpenIid → ∃ key value, OneCommand s.mcast i key value ∧
    ((s.record cfg i).instNumber = i →
      (s.record cfg i).assignedCmdKey = key ∧ (s.record cfg i).assignedCmdValue = some value)
  advances : ∀ timeNow msg, Completes cfg (s.record cfg msg.instNumber) msg →
    Advances cfg (advanceStart cfg (mcasterUpdateWallclock s timeNow) msg.instNumber)
      msg.instNumber (mcasterAdvanceClosed cfg (cfg.msmSize + 1)
        (advanceStart cfg (mcasterUpdateWallclock s timeNow) msg.instNumber) msg.instNumber)

/-- An instance that was opened keeps its command from one state of a run to a later one. -/
def CommandsKept (w w' : RingState) : Prop :=
  ∀ i key value, OneCommand w.mcaster.state.mcast i key value →
    OneCommand w'.mcaster.state.mcast i key value

end Definitions

variable {cfg : Config} {returns : Phase2Msg → Prop} {s t : Mcaster} {i : ℕ}

def Mapped (mcast : List McastMsg) : McastMsg → Prop
  | .commandMap _ => True
  | .phase2 m => ∃ value, .commandMap ⟨m.instNumber, m.cmdKey, value⟩ ∈ mcast
  | .acceptance a => ∃ value, .commandMap ⟨a.instNumber, a.cmdKey, value⟩ ∈ mcast

structure Told (s : Mcaster) : Prop where
  accepted : ∀ a, .acceptance a ∈ s.mcast → a.instNumber ≤ s.highestClosedIid ∨
    ∃ slot, (s.instancesArray slot).instNumber = a.instNumber ∧
      (s.instancesArray slot).status = .done
  done : ∀ slot, (s.instancesArray slot).status = .done →
    Closed s (s.instancesArray slot).instNumber
  below : ∀ i, 0 < i → i ≤ s.highestClosedIid → Closed s i
  keyed : ∀ msg ∈ s.mcast, Mapped s.mcast msg
  opened : ∀ i, 0 < i → i ≤ s.highestOpenIid → ∃ key value, .commandMap ⟨i, key, value⟩ ∈ s.mcast

theorem Mapped.mono {mcast mcast' : List McastMsg} {msg : McastMsg} (h : Mapped mcast msg)
    (grown : ∀ msg ∈ mcast, msg ∈ mcast') : Mapped mcast' msg := by
  cases msg with
  | commandMap m => trivial
  | phase2 m => exact h.imp fun value mapped => grown _ mapped
  | acceptance a => exact h.imp fun value mapped => grown _ mapped

theorem Closed.mono (h : Closed s i) (grown : ∀ msg ∈ s.mcast, msg ∈ t.mcast) : Closed t i :=
  h.imp fun _ told => grown _ told

theorem Life.slot_eq (h : Life cfg s) {slot slot' : ℕ}
    (same : (s.instancesArray slot).instNumber = (s.instancesArray slot').instNumber)
    (used : (s.instancesArray slot).instNumber ≠ 0) : slot = slot' := by
  rw [← (h.records slot).home.resolve_left used,
    ← (h.records slot').home.resolve_left (same ▸ used), same]

theorem Life.recordMapped (h : Life cfg s) {slot : ℕ} (busy : Busy (s.instancesArray slot)) :
    ∃ value, (s.instancesArray slot).assignedCmdValue = some value ∧
      .commandMap ⟨(s.instancesArray slot).instNumber, (s.instancesArray slot).assignedCmdKey,
        value⟩ ∈ s.mcast := by
  have sound := h.mappings.records slot
  obtain ⟨value, assigned⟩ := Option.isSome_iff_exists.mp (sound.assigned.mpr busy)
  exact ⟨value, assigned, sound.mapped value assigned⟩

theorem Life.keyed_move (h : Life cfg s) (life : Life cfg t)
    (move : Move cfg (oneLife cfg returns) s t) (keyed : ∀ msg ∈ s.mcast, Mapped s.mcast msg) :
    ∀ msg ∈ t.mcast, Mapped t.mcast msg := by
  intro msg sent
  cases msg with
  | commandMap m => trivial
  | acceptance a =>
    rcases RingIndexSteps.Move.accepts move h sent with old | ⟨slot, done, rfl⟩
    · exact (keyed _ old).mono move.mcast_grows
    · obtain ⟨value, -, mapped⟩ := Life.recordMapped life (.inr done)
      exact ⟨value, mapped⟩
  | phase2 m =>
    rcases h.sent move _ sent with old | ⟨slot, busy, about⟩
    · exact (keyed _ old).mono move.mcast_grows
    · obtain ⟨slot', mir, sent', rewrites, -⟩ := RingRecordSteps.Move.rewrites move
      rw [rewrites.mcast] at sent
      rcases List.mem_append.mp sent with new | old
      · -- the message tells the record that was rewritten, which is that of its instance
        have tells := rewrites.tells _ new
        have here : t.instancesArray slot' = mir := by rw [rewrites.slots, setSlot_self]
        have used := ((life.records slot).begun.mp busy).1
        have own : (t.instancesArray slot).instNumber = (t.instancesArray slot').instNumber := by
          rw [here, ← about.1, tells.1]
        have same : slot = slot' := Life.slot_eq life own (by omega)
        obtain ⟨value, -, mapped⟩ := Life.recordMapped life busy
        rw [same, here, ← tells.1, ← tells.2.2] at mapped
        exact ⟨value, mapped⟩
      · exact (keyed _ old).mono move.mcast_grows

theorem Told.accepted_move (h : Told s) (life : Life cfg s)
    (move : Move cfg (oneLife cfg returns) s t) {a : AcceptanceMsg}
    (sent : .acceptance a ∈ t.mcast) : a.instNumber ≤ t.highestClosedIid ∨
      ∃ slot, (t.instancesArray slot).instNumber = a.instNumber ∧
        (t.instancesArray slot).status = .done := by
  rcases RingIndexSteps.Move.accepts move life sent with old | ⟨slot, done, rfl⟩
  · rcases h.accepted a old with low | ⟨slot, own, done⟩
    · exact .inl (low.trans move.closed_le)
    · cases RingIndexSteps.Life.slotStep life move slot with
      | same own' status => exact .inr ⟨slot, own'.trans own, status.trans done⟩
      | begun own' before after => exact absurd done before
      | closed msg returned own' before after told => exact .inr ⟨slot, own'.trans own, after⟩
      | taken new after old' => exact .inl (own ▸ (old' done).trans move.closed_le)
  · exact .inr ⟨slot, rfl, done⟩

theorem Told.done_move (h : Told s) (life : Life cfg s)
    (move : Move cfg (oneLife cfg returns) s t) (slot : ℕ)
    (done : (t.instancesArray slot).status = .done) :
    Closed t (t.instancesArray slot).instNumber := by
  cases RingIndexSteps.Life.slotStep life move slot with
  | same own status =>
    rw [own]
    exact Closed.mono (h.done slot (status.symm.trans done)) move.mcast_grows
  | begun own before after =>
    rw [done] at after
    simp at after
  | closed msg returned own before after told => exact ⟨_, told⟩
  | taken new after old => cases after.symm.trans done

/-- `highest_closed_iid` passes over an instance that is done. -/
theorem Told.below_move (h : Told s) (life : Life cfg s)
    (move : Move cfg (oneLife cfg returns) s t) (positive : 0 < i)
    (le : i ≤ t.highestClosedIid) : Closed t i := by
  have old (le : i ≤ s.highestClosedIid) : Closed t i :=
    Closed.mono (h.below i positive le) move.mcast_grows
  cases RingWindows.Move.effect move life.mappings with
  | goes goes => exact old (goes.indices.closed ▸ le)
  | advance slot done next =>
    rcases Nat.lt_or_ge s.highestClosedIid i with new | before
    · have le : i ≤ s.highestClosedIid + 1 := le
      have same : i = (s.instancesArray slot).instNumber := by omega
      rw [same]
      exact h.done slot done
    · exact old before
  | take | opened | startP2 => exact old le

theorem Told.opened_move (h : Told s) (life : Life cfg s)
    (move : Move cfg (oneLife cfg returns) s t) (positive : 0 < i) (le : i ≤ t.highestOpenIid) :
    ∃ key value, .commandMap ⟨i, key, value⟩ ∈ t.mcast := by
  have old (le : i ≤ s.highestOpenIid) : ∃ key value, .commandMap ⟨i, key, value⟩ ∈ t.mcast := by
    obtain ⟨key, value, mapped⟩ := h.opened i positive le
    exact ⟨key, value, move.mcast_grows _ mapped⟩
  cases RingWindows.Move.effect move life.mappings with
  | goes goes => exact old (goes.indices.highestOpen ▸ le)
  | startP2 value next =>
    rcases Nat.lt_or_ge s.highestOpenIid i with new | before
    · have le : i ≤ s.highestOpenIid + 1 := le
      obtain ⟨mir, m, slots, inst, status, own, count, sent⟩ := startP2_effect cfg s value
      rw [next.own] at inst
      have same : i = mir.instNumber := by omega
      rw [same, sent]
      exact ⟨_, _, List.mem_cons_of_mem _ List.mem_cons_self⟩
    · exact old before
  | take | opened | advance => exact old le

theorem Told.move (h : Told s) (life : Life cfg s) (move : Move cfg (oneLife cfg returns) s t) :
    Told t where
  accepted := fun _ sent => h.accepted_move life move sent
  done := h.done_move life move
  below := fun _ positive le => h.below_move life move positive le
  keyed := Life.keyed_move life (life.move move) move h.keyed
  opened := fun _ positive le => h.opened_move life move positive le

theorem told_init : Told multicasterInit where
  accepted := fun _ h => nomatch h
  done := fun _ h => nomatch h
  below := by
    intro i positive le
    change i ≤ 0 at le
    omega
  keyed := fun _ h => nomatch h
  opened := by
    intro i positive le
    change i ≤ 0 at le
    omega

def BegunUpTo (n : ℕ) (s : Mcaster) : Prop :=
  ∀ slot, 0 < (s.instancesArray slot).instNumber → (s.instancesArray slot).instNumber ≤ n →
    (s.instancesArray slot).status ≠ .empty ∧ (s.instancesArray slot).status ≠ .ready

def HeadOpen (s : Mcaster) : Prop :=
  ∀ slot, (s.instancesArray slot).instNumber = s.highestClosedIid + 1 →
    (s.instancesArray slot).status ≠ .done

structure Proceeds (cfg : Config) (s : Mcaster) : Prop where
  life : Life cfg s
  begun : BegunUpTo s.p1HighestOpen s
  head : HeadOpen s

theorem Life.p1HighestOpen_le (h : Life cfg s) (move : Move cfg (oneLife cfg returns) s t) :
    s.p1HighestOpen ≤ t.p1HighestOpen := by
  cases RingWindows.Move.effect move h.mappings with
  | goes goes => exact goes.indices.p1Highest.ge
  | opened n few taken => exact Nat.le_add_right _ _
  | _ => exact le_refl _

theorem BegunUpTo.move {n : ℕ} (h : BegunUpTo n s) (life : Life cfg s) (le : n ≤ s.p1HighestOpen)
    (move : Move cfg (oneLife cfg returns) s t) : BegunUpTo n t := by
  intro slot used within
  cases RingIndexSteps.Life.slotStep life move slot with
  | same own status =>
    rw [own] at used within
    rw [status]
    exact h slot used within
  | begun own before after => rcases after with after | after | after <;> simp [after]
  | closed msg returned own before after told => simp [after]
  | taken new after old => omega

theorem BegunUpTo.moves (h : BegunUpTo s.p1HighestOpen s) (life : Life cfg s)
    (moves : Moves cfg (oneLife cfg returns) s t) (same : t.p1HighestOpen = s.p1HighestOpen) :
    BegunUpTo t.p1HighestOpen t := by
  rw [same]
  refine (moves.invariant (fun t => Life cfg t ∧ s.p1HighestOpen ≤ t.p1HighestOpen ∧
    BegunUpTo s.p1HighestOpen t) ?_ ⟨life, le_refl _, h⟩).2.2
  rintro u v ⟨life, le, begun⟩ move
  exact ⟨life.move move, le.trans (Life.p1HighestOpen_le life move), begun.move life le move⟩

theorem HeadOpen.move (h : HeadOpen s) (life : Life cfg s)
    (move : Move cfg (oneLife cfg fun _ => False) s t) : HeadOpen t := by
  have kept (same : t.highestClosedIid = s.highestClosedIid) : HeadOpen t := by
    intro slot own
    rw [same] at own
    cases RingIndexSteps.Life.slotStep life move slot with
    | same own' status =>
      rw [status]
      exact h slot (own'.symm.trans own)
    | begun own' before after => rcases after with after | after | after <;> simp [after]
    | closed msg returned own' before after told => exact returned.elim
    | taken new after old => simp [after]
  cases RingWindows.Move.effect move life.mappings with
  | goes goes => exact kept goes.indices.closed
  | advance slot done next => exact absurd done (h slot next)
  | take | opened | startP2 => exact kept rfl

theorem Proceeds.moves (h : Proceeds cfg s) (moves : Moves cfg (oneLife cfg fun _ => False) s t)
    (same : t.p1HighestOpen = s.p1HighestOpen) : Proceeds cfg t where
  life := (h.life.moves moves).1
  begun := h.begun.moves h.life moves same
  head := by
    refine (moves.invariant (fun t => Life cfg t ∧ HeadOpen t) ?_ ⟨h.life, h.head⟩).2
    rintro u v ⟨life, head⟩ move
    exact ⟨life.move move, head.move life move⟩

theorem Proceeds.handler (h : Proceeds cfg s) {o : McasterOutcome}
    (moves : Moves cfg (oneLife cfg fun _ => False) s o.state) (none : OpensNone s o) :
    o.Ensures (Proceeds cfg) fun _ => True := by
  cases o with
  | running t => exact h.moves moves none
  | aborted fault t => trivial

theorem Proceeds.wallclock (h : Proceeds cfg s) (timeNow : Timeval) :
    Proceeds cfg (mcasterUpdateWallclock s timeNow) :=
  h.moves (quiet_wallclock cfg _ s timeNow) rfl

theorem proceeds_init (cfg : Config) : Proceeds cfg multicasterInit where
  life := life_init cfg
  begun := fun _ used => absurd used (lt_irrefl 0)
  head := fun _ own => absurd own (Nat.zero_ne_one)

theorem Proceeds.openInstances (h : Proceeds cfg s) :
    (mcasterOpenNewInstancesP1 cfg s).Ensures (Proceeds cfg) fun _ => True := by
  have covers : Covers cfg (oneLife cfg fun _ => False) s := h.life.covers
  have life := h.life.moves (mcasterOpenNewInstancesP1_moves s covers)
  unfold mcasterOpenNewInstancesP1 at life ⊢
  dsimp only at life ⊢
  split_ifs at life ⊢ with enough
  · exact h
  · set toOpen := cfg.preexecutionWindowSize - (s.p1ReadyCount + s.p1ReadyCount).toNat with hto
    set ballot := makeFirstBallot selfAcceptorId incarnationNumber.toUInt32
    set iids := List.range' (s.p1HighestOpen + 1) toOpen with hiids
    have loop : Moves cfg (oneLife cfg fun _ => False) s
        (Outcome.fold (mcasterOpenInstanceP1 cfg ballot) s iids).state := by
      refine openLoop_moves ballot s fun i hi => covers s (.refl s) i ?_
      obtain ⟨low, high⟩ := List.mem_range'_1.mp hi
      unfold reach
      omega
    cases ran : Outcome.fold (mcasterOpenInstanceP1 cfg ballot) s iids with
    | aborted fault t => trivial
    | running t =>
      rw [ran] at loop life
      obtain ⟨-, -, same⟩ := openLoop_takes ran
      have positive : ∀ i ∈ iids, 0 < i := fun i hi => by
        have low := (List.mem_range'_1.mp hi).1
        omega
      obtain ⟨pending, -⟩ := openLoop_pending positive ran
      have kept : Proceeds cfg t := h.moves loop same.p1Highest
      refine ⟨life.1, fun slot used within => ?_, kept.head⟩
      have within : (t.instancesArray slot).instNumber ≤ t.p1HighestOpen + toOpen := within
      rcases Nat.lt_or_ge t.p1HighestOpen (t.instancesArray slot).instNumber with new | old
      · -- the record is that of an instance of the range
        have used : (t.instancesArray slot).instNumber ≠ 0 := by omega
        have home := (kept.life.records slot).home.resolve_left used
        rw [same.p1Highest] at new within
        have listed := pending _ (List.mem_range'_1.mpr ⟨new, by omega⟩)
        have here : t.record cfg (t.instancesArray slot).instNumber = t.instancesArray slot :=
          congrArg t.instancesArray home
        have status := listed.pending
        rw [here] at status
        exact ⟨by simp [mcasterAddOpen, mcasterDoPhase1Range, Mcaster.sendRing, status],
          by simp [mcasterAddOpen, mcasterDoPhase1Range, Mcaster.sendRing, status]⟩
      · exact kept.begun slot used old

theorem Proceeds.periodicCheck (h : Proceeds cfg s) (clock : ℕ → Timeval) :
    (onMcasterPeriodicCheck cfg clock s).Ensures (Proceeds cfg) fun _ => True := by
  refine Outcome.Ensures.bind (I := Proceeds cfg) ?_ fun t kept => ?_
  · refine (h.wallclock (clock 0)).openInstances.bind fun t kept => ?_
    have kept := kept.wallclock (clock 1)
    exact kept.handler (mcasterCheckExpiredInstances_moves _ kept.life.covers)
      (mcasterCheckExpiredInstances_opensNone _)
  · have kept := kept.wallclock (clock 2)
    refine kept.handler (mcasterOpenNewInstancesP2_moves _ _ kept.life.covers ?_)
      (mcasterOpenNewInstancesP2_opensNone _ _)
    exact opensMeet_of_forall (fun _ _ => trivial) _ _

/-- A record that the loop passes over is that of an open instance, so the turns are at most as
many as there are open instances. -/
theorem Life.closes_below (h : Life cfg s) {iid : ℕ} (closes : Closes cfg s iid) :
    s.highestClosedIid < s.highestOpenIid := by
  have opened := (h.records (msmSlot cfg iid)).begun.mp (.inr closes.1)
  have next : (s.instancesArray (msmSlot cfg iid)).instNumber = s.highestClosedIid + 1 := closes.2
  omega

theorem Life.advanced (h : Life cfg s) {iid : ℕ} (closes : Closes cfg s iid) :
    Life cfg { s with highestClosedIid := s.highestClosedIid + 1 } := by
  have move : Move cfg (oneLife cfg fun _ => False) s _ :=
    .advance s (msmSlot cfg iid) closes.1 closes.2
  exact h.move move

theorem Life.gotNext (h : Life cfg s) (got : mcasterStorageGet cfg s (s.highestClosedIid + 1) =
    .running t) : Life cfg t ∧ Moves cfg (oneLife cfg fun _ => False) s t := by
  have moves : Moves cfg (oneLife cfg fun _ => False) s
      (mcasterStorageGet cfg s (s.highestClosedIid + 1)).state :=
    mcasterStorageGet_moves s _ ((oneLife cfg fun _ => False).takes_next _)
  rw [got] at moves
  exact ⟨(h.moves moves).1, moves⟩

theorem Life.advances (h : Life cfg s) (turns iid : ℕ)
    (enough : s.highestOpenIid - s.highestClosedIid < turns) :
    Advances cfg s iid (mcasterAdvanceClosed cfg turns s iid) := by
  induction turns generalizing s iid with
  | zero => omega
  | succ turns ih =>
    unfold mcasterAdvanceClosed
    dsimp only
    split_ifs with closes
    · have below := Life.closes_below h closes
      have life := Life.advanced h closes
      cases got : mcasterStorageGet cfg { s with highestClosedIid := s.highestClosedIid + 1 }
          (s.highestClosedIid + 1 + 1) with
      | aborted fault t => exact .fails s t iid fault closes got
      | running t =>
        have same := mcasterStorageGet_indices got
        have after := (Life.gotNext life got).1
        have less : t.highestOpenIid - t.highestClosedIid < turns := by
          rw [same.highestOpen, same.closed]
          change s.highestOpenIid - (s.highestClosedIid + 1) < turns
          omega
        exact .turn s t iid _ closes got (ih after _ less)
    · exact .stops s iid closes

theorem Advances.proceeds {iid : ℕ} {o : McasterOutcome} (h : Advances cfg s iid o)
    (life : Life cfg s) (begun : BegunUpTo s.p1HighestOpen s)
    (head : ¬ Closes cfg s iid → HeadOpen s) : o.Ensures (Proceeds cfg) fun _ => True := by
  induction h with
  | stops s iid stops => exact ⟨life, begun, head stops⟩
  | fails s t iid fault closes got => trivial
  | turn s t iid o closes got rest ih =>
    have advanced := Life.advanced life closes
    have same := mcasterStorageGet_indices got
    have own := mcasterStorageGet_own got
    obtain ⟨after, moves⟩ := Life.gotNext advanced got
    have begun : BegunUpTo { s with highestClosedIid := s.highestClosedIid + 1 }.p1HighestOpen
        { s with highestClosedIid := s.highestClosedIid + 1 } := begun
    refine ih after (begun.moves advanced moves same.p1Highest) fun stops slot next done => ?_
    have closed : t.highestClosedIid = s.highestClosedIid + 1 := same.closed
    rw [← closed] at own
    have here : slot = msmSlot cfg (t.highestClosedIid + 1) :=
      Life.slot_eq after (next.trans own.symm) (by omega)
    exact stops ⟨by unfold Mcaster.record; rw [← here]; exact done, own⟩

theorem advanceStart_move {msg : Phase2Msg}
    (completes : Completes cfg (s.record cfg msg.instNumber) msg) :
    Move cfg (oneLife cfg fun _ => True) s (advanceStart cfg s msg.instNumber) :=
  .complete s (msmSlot cfg msg.instNumber) msg trivial completes

theorem Life.window_lt (h : Life cfg s) :
    s.highestOpenIid - s.highestClosedIid < cfg.msmSize + 1 := by
  have active := h.window.active
  have gt := cfg.workingSet_gt
  unfold Config.msmSize
  omega

theorem Proceeds.advances (h : Proceeds cfg s) {msg : Phase2Msg}
    (completes : Completes cfg (s.record cfg msg.instNumber) msg) :
    Advances cfg (advanceStart cfg s msg.instNumber) msg.instNumber (mcasterAdvanceClosed cfg
      (cfg.msmSize + 1) (advanceStart cfg s msg.instNumber) msg.instNumber) := by
  have life := h.life.move (advanceStart_move completes)
  exact Life.advances life _ _ (Life.window_lt life)

theorem HeadOpen.completed (h : HeadOpen s)
    (stops : ¬ Closes cfg (advanceStart cfg s i) i) : HeadOpen (advanceStart cfg s i) := by
  have here : (advanceStart cfg s i).record cfg i = { s.record cfg i with status := .done } :=
    setSlot_self _ _ _
  intro slot next
  by_cases same : slot = msmSlot cfg i
  · subst same
    refine absurd ⟨?_, ?_⟩ stops
    · rw [here]
    · exact next
  · have kept : (advanceStart cfg s i).instancesArray slot = s.instancesArray slot :=
      setSlot_of_ne _ _ _ _ same
    rw [kept] at next ⊢
    exact h slot next

theorem Proceeds.phase2 (h : Proceeds cfg s) {msg : Phase2Msg}
    (within : msg.instNumber ≤ windowEnd cfg s.highestClosedIid) :
    (mcasterHandlePhase2Msg cfg s msg).Ensures (Proceeds cfg) fun _ => True := by
  unfold mcasterHandlePhase2Msg
  split_ifs
  · exact h
  · have got := h.handler (mcasterStorageGet_moves s _ within)
      (mcasterStorageGet_opensNone cfg s msg.instNumber)
    cases found : mcasterStorageGet cfg s msg.instNumber with
    | aborted fault t => trivial
    | running t =>
      rw [found] at got
      have own := mcasterStorageGet_own found
      have got : Proceeds cfg t := got
      rw [Outcome.bind_running]
      unfold mcasterPhase2Returned
      dsimp only
      by_cases pending : (t.record cfg msg.instNumber).status = .p2Pending
      · rw [if_neg (not_not.mpr pending)]
        split_ifs with ballot key few
        · exact got
        · trivial
        · exact got.moves (Move.repeatP2 t _ pending).moves rfl
        · have completes : Completes cfg (t.record cfg msg.instNumber) msg :=
            ⟨own, pending, not_not.mp ballot, not_not.mp key, not_lt.mp few⟩
          have move := advanceStart_move completes
          have begun := got.begun.moves got.life move.moves rfl
          exact (got.advances completes).proceeds (got.life.move move) begun
            (HeadOpen.completed got.head)
      · rw [if_pos pending]
        exact got

/-- Phase 1 was begun for an instance above the closed ones, so its record is in its slot. -/
theorem Life.own (h : Life cfg s) (above : s.highestClosedIid < i) (le : i ≤ s.p1HighestOpen) :
    (s.record cfg i).instNumber = i := by
  have touched := h.touched i (by omega) le
  have within := h.records (msmSlot cfg i)
  have home := within.home.resolve_left (by unfold Mcaster.record at touched; omega)
  have reach := within.reach
  have gt := cfg.workingSet_gt
  change (s.record cfg i).instNumber ≤ windowEnd cfg s.highestClosedIid at reach
  change (s.record cfg i).instNumber % cfg.msmSize = i % cfg.msmSize at home
  unfold windowEnd at reach
  by_contra other
  have apart := index_apart (lt_of_le_of_ne touched (Ne.symm other)) home.symm
  unfold Config.msmSize at apart
  omega

theorem Told.oneCommand (h : Told s) (life : Life cfg s) {key : CommandId} {value : Value}
    (mapped : .commandMap ⟨i, key, value⟩ ∈ s.mcast) : OneCommand s.mcast i key value where
  mapped := mapped
  mapping := by
    intro m sent own
    cases life.oneMapping m ⟨i, key, value⟩ sent mapped own
    exact ⟨rfl, rfl⟩
  proposed := by
    intro m sent own
    obtain ⟨value', mapped'⟩ := h.keyed _ sent
    exact congrArg CmdmapMsg.cmdKey (life.oneMapping _ _ mapped' mapped own)
  accepted := by
    intro a sent own
    obtain ⟨value', mapped'⟩ := h.keyed _ sent
    exact congrArg CmdmapMsg.cmdKey (life.oneMapping _ _ mapped' mapped own)

theorem Told.command (h : Told s) (life : Life cfg s) (positive : 0 < i)
    (le : i ≤ s.highestOpenIid) : ∃ key value, OneCommand s.mcast i key value ∧
      ((s.record cfg i).instNumber = i →
        (s.record cfg i).assignedCmdKey = key ∧ (s.record cfg i).assignedCmdValue = some value) := by
  obtain ⟨key, value, mapped⟩ := h.opened i positive le
  refine ⟨key, value, h.oneCommand life mapped, fun own => ?_⟩
  have busy : Busy (s.record cfg i) := by
    refine (life.records _).begun.mpr ?_
    change 0 < (s.record cfg i).instNumber ∧ (s.record cfg i).instNumber ≤ _
    rw [own]
    exact ⟨positive, le⟩
  obtain ⟨value', assigned, recorded⟩ := Life.recordMapped life busy
  have recorded : McastMsg.commandMap
      ⟨(s.record cfg i).instNumber, (s.record cfg i).assignedCmdKey, value'⟩ ∈ s.mcast := recorded
  have same := life.oneMapping _ _ recorded mapped own
  simp only [CmdmapMsg.mk.injEq] at same
  exact ⟨same.2.1, assigned.trans (congrArg some same.2.2)⟩

theorem Life.opened (h : Life cfg s) (above : s.highestClosedIid < i)
    (le : i ≤ s.highestOpenIid) :
    (s.record cfg i).instNumber = i ∧ Busy (s.record cfg i) := by
  have own := Life.own h above (le.trans h.open_le)
  refine ⟨own, (h.records _).begun.mpr ?_⟩
  change 0 < (s.record cfg i).instNumber ∧ (s.record cfg i).instNumber ≤ _
  omega

/-- An instance above `highest_closed_iid` was closed exactly if its record is done. -/
theorem Told.closed_iff (h : Told s) (life : Life cfg s) (above : s.highestClosedIid < i)
    (own : (s.record cfg i).instNumber = i) :
    (s.record cfg i).status = .done ↔ Closed s i := by
  constructor
  · intro done
    have told : Closed s (s.record cfg i).instNumber := h.done (msmSlot cfg i) done
    rwa [own] at told
  · rintro ⟨key, sent⟩
    obtain ⟨slot, own', done⟩ := (h.accepted _ sent).resolve_left (Nat.not_le.mpr above)
    have own : (s.instancesArray (msmSlot cfg i)).instNumber = i := own
    have own' : (s.instancesArray slot).instNumber = i := own'
    have here : slot = msmSlot cfg i := Life.slot_eq life (own'.trans own.symm) (by omega)
    subst here
    exact done

theorem Told.closed_greatest (h : Told s) (head : HeadOpen s) :
    IsGreatest {n | ∀ i, 0 < i → i ≤ n → Closed s i} s.highestClosedIid := by
  refine ⟨h.below, fun n all => ?_⟩
  by_contra more
  obtain ⟨key, sent⟩ := all _ (Nat.succ_pos _) (Nat.not_le.mp more)
  obtain ⟨slot, own, done⟩ :=
    (h.accepted _ sent).resolve_left (Nat.not_le.mpr (Nat.lt_succ_self _))
  exact head slot own done

theorem Proceeds.prepared (h : Proceeds cfg s) (above : s.highestOpenIid < i)
    (le : i ≤ s.p1HighestOpen) : (s.record cfg i).instNumber = i ∧
      ((s.record cfg i).status = .p1Pending ∨ (s.record cfg i).status = .p1Done) ∧
      (s.record cfg i).assignedCmdValue = none := by
  have closed_le := h.life.window.closed_le
  have own := Life.own h.life (by omega) le
  have idle : ¬ Busy (s.record cfg i) := by
    intro busy
    have within := ((h.life.records _).begun.mp busy).2
    change (s.record cfg i).instNumber ≤ _ at within
    omega
  have begun : (s.record cfg i).status ≠ .empty ∧ (s.record cfg i).status ≠ .ready := by
    refine h.begun (msmSlot cfg i) ?_ ?_
    · change 0 < (s.record cfg i).instNumber
      omega
    · change (s.record cfg i).instNumber ≤ _
      omega
  refine ⟨own, ?_, ((h.life.mappings.records _).free idle).1⟩
  unfold Busy at idle
  cases status : (s.record cfg i).status <;> simp [status] at begun idle ⊢

theorem Proceeds.indices (h : Proceeds cfg s) (told : Told s) : ProgressIndices cfg s where
  closed := told.closed_greatest h.head
  opened := by
    intro i above le
    obtain ⟨own, busy⟩ := Life.opened h.life above le
    exact ⟨own, busy, told.closed_iff h.life above own⟩
  first := by
    intro some
    obtain ⟨own, busy⟩ := Life.opened h.life (Nat.lt_succ_self _) some
    exact busy.resolve_right (h.head _ own)
  prepared := fun _ above le => h.prepared above le
  command := fun _ positive le => told.command h.life positive le
  advances := fun timeNow _ completes => (h.wallclock timeNow).advances completes

structure Ongoing (cfg : Config) (w : RingState) : Prop where
  oneLife : OneLife cfg w
  told : Told w.mcaster.state
  proceeds : w.mcaster.Ensures (Proceeds cfg) fun _ => True

variable {w : RingState} {e : RingEvent}

theorem OneLife.proceeds_step (h : OneLife cfg w) (possible : Possible cfg w e)
    (goesOn : e ≠ .restart) (proceeds : w.mcaster.Ensures (Proceeds cfg) fun _ => True) :
    (mcasterStep cfg w.mcaster e).Ensures (Proceeds cfg) fun _ => True := by
  have met := h.meets possible
  cases running : w.mcaster with
  | aborted fault s => cases e <;> trivial
  | running s =>
    rw [running] at met proceeds
    have proceeds : Proceeds cfg s := proceeds
    cases e with
    | submit value => exact proceeds.moves (.of_quiet rfl) rfl
    | periodicCheck clock => exact proceeds.periodicCheck clock
    | toMcaster msg clock =>
      have proceeds := proceeds.wallclock clock
      cases msg with
      | phase1 msg =>
        exact proceeds.handler (mcasterHandlePhase1Msg_moves _ msg met)
          (mcasterHandlePhase1Msg_opensNone _ msg)
      | phase1Range msg =>
        exact proceeds.handler (mcasterHandlePhase1RangeMsg_moves _ msg met)
          (mcasterHandlePhase1RangeMsg_opensNone _ msg)
      | phase2 msg => exact proceeds.phase2 met.2
    | request l msg clock =>
      have proceeds := proceeds.wallclock clock
      refine proceeds.handler (mcasterHandleRequest_moves _ msg (fun i hi => (met i hi).1) ?_)
        (mcasterHandleRequest_opensNone _ msg)
      exact fun i hi t same => (met i hi).2 t ⟨same.1, same.2, same.3, same.4⟩
    | restart => exact absurd rfl goesOn
    | _ => exact proceeds

theorem ongoing_step (h : Ongoing cfg w) (e : RingEvent) (goesOn : e ≠ .restart) :
    Ongoing cfg (ringStep cfg w e) := by
  have oneLife := oneLife_step h.oneLife e goesOn
  unfold ringStep at oneLife ⊢
  split_ifs at oneLife ⊢ with possible
  · refine ⟨oneLife, ?_, OneLife.proceeds_step h.oneLife possible goesOn h.proceeds⟩
    have moves := h.oneLife.mcasterMoves possible goesOn
    refine (moves.invariant (fun s => Life cfg s ∧ Told s) ?_ ⟨h.oneLife.mcaster, h.told⟩).2
    exact fun s t kept move => ⟨kept.1.move move, kept.2.move kept.1 move⟩
  · exact h

theorem ongoing_run (cfg : Config) (late : ℕ → Bool) (events : List RingEvent)
    (goesOn : ∀ e ∈ events, e ≠ .restart) :
    Ongoing cfg (run (ringStep cfg) (ringInit late) events) :=
  Along.invariant (Ongoing cfg) ⟨oneLife_init cfg late, told_init, proceeds_init cfg⟩
    (fun _ e h goesOn => ongoing_step h e goesOn) (along_of_mem fun e he _ => goesOn e he)

theorem run_mcast_grows (cfg : Config) (w : RingState) (events : List RingEvent)
    (goesOn : ∀ e ∈ events, e ≠ .restart) :
    ∀ msg ∈ w.mcaster.state.mcast, msg ∈ (run (ringStep cfg) w events).mcaster.state.mcast := by
  have along : Along (ringStep cfg) (fun _ e => e ≠ .restart) w events :=
    along_of_mem fun e he _ => goesOn e he
  refine along.invariant (fun w' => ∀ msg ∈ w.mcaster.state.mcast, msg ∈ w'.mcaster.state.mcast)
    (fun _ h => h) fun w' e kept goesOn msg sent => ?_
  unfold ringStep
  split_ifs
  · exact RingRecordSteps.Moves.mcast_grows
      (RingRecordSteps.mcasterStep_anything w'.mcaster e goesOn) msg (kept msg sent)
  · exact kept msg sent

theorem progress_indices (cfg : Config) (late : ℕ → Bool) (before after : List RingEvent)
    (goesOn : ∀ e ∈ before ++ after, e ≠ .restart) :
    ((run (ringStep cfg) (ringInit late) before).mcaster.Ensures (ProgressIndices cfg)
        fun _ => True) ∧
      CommandsKept (run (ringStep cfg) (ringInit late) before)
        (run (ringStep cfg) (ringInit late) (before ++ after)) := by
  have first := ongoing_run cfg late before fun e he => goesOn e (List.mem_append_left _ he)
  have last := ongoing_run cfg late (before ++ after) goesOn
  refine ⟨first.proceeds.mono fun s running kept => kept.indices ?_, fun i key value one => ?_⟩
  · have told := first.told
    rw [running] at told
    exact told
  · have grown := run_mcast_grows cfg (run (ringStep cfg) (ringInit late) before) after
      fun e he => goesOn e (List.mem_append_right _ he)
    rw [← run_append] at grown
    exact last.told.oneCommand last.oneLife.mcaster (grown _ one.mapped)

/-- Instance 1 is closed, and then instance 2 is opened. -/
theorem progress_first_chosen :
    ((run (ringStep .small) (ringInit fun _ => false) (chooseFirst [7])).mcaster.Ensures
        (ProgressIndices .small) fun _ => True) ∧
      CommandsKept (run (ringStep .small) (ringInit fun _ => false) (chooseFirst [7]))
        (run (ringStep .small) (ringInit fun _ => false)
          (chooseFirst [7] ++ [.submit [8], .periodicCheck fun _ => ⟨1, 0⟩])) :=
  progress_indices .small _ _ _ (by simp [chooseFirst])

end FdsPaxos.RingProgressIndices
