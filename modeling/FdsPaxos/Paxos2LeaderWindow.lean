import FdsPaxos.Paxos2LeaderIndices
import Mathlib.Data.Finset.Card
import Mathlib.Order.Interval.Finset.Nat

set_option autoImplicit false

namespace FdsPaxos.Paxos2LeaderWindow
open TransitionRuns CircularWindow Paxos2Config Paxos2Messages Paxos2SendBuffer
open Paxos2ValuesHandler Paxos2Leader Paxos2LeaderMoves Paxos2LeaderIndices

def SlotFault : LeaderFault → Prop
  | .p1CheckSlotIid | .openSlotNotEmpty | .expiredSlotIid => True
  | .activeCount | .toOpen | .noPendingValue | .expiredNoValue | .newSlotHasValue => False

instance (fault : LeaderFault) : Decidable (SlotFault fault) :=
  match fault with
  | .p1CheckSlotIid | .openSlotNotEmpty | .expiredSlotIid => isTrue trivial
  | .activeCount | .toOpen | .noPendingValue | .expiredNoValue | .newSlotHasValue => isFalse id

def still : MoveCondition where
  ack := fun _ _ _ => True
  opens := fun _ => False
  clears := fun _ => False
  delivers := fun _ _ => False

/-- Nothing to be sent is about an instance above `high`. -/
structure SendsWithin (high : ℕ) (s : LeaderState) : Prop where
  prepares : s.prepareBuf.All fun pr => pr.iid ≤ high
  accepts : s.acceptBuf.All fun ar => ar.iid ≤ high

/-- The instances from `low` to `high` own their slots, and nothing else is held or sent. -/
structure Filled (cfg : Config) (low high : ℕ) (s : LeaderState) : Prop where
  ahead : Ahead cfg low high s
  owned : ∀ i, low ≤ i → i ≤ high → (s.proposerState (cfg.proIndex i)).iid = i
  sends : SendsWithin high s

/-- The window of a leader to which `low` is delivered next. -/
structure Windowed (cfg : Config) (low : ℕ) (s : LeaderState) : Prop where
  pos : 0 < low
  filled : Filled cfg low s.p1Info.highestOpen s
  unused_ge : low ≤ s.p2Info.nextUnusedIid
  unused_le : s.p2Info.nextUnusedIid ≤ s.p1Info.highestOpen + 1
  fits : s.p1Info.highestOpen < low + cfg.proposerArraySize

/-- What a routine leaves besides slots, values, buffers and history. -/
def counters (s : LeaderState) : ℕ × Phase1Info × Phase2Info :=
  (s.currentIid, s.p1Info, s.p2Info)

variable {cfg : Config} {low high : ℕ} {s t : LeaderState} {F : LeaderFault → Prop}

theorem indices_of_counters (h : counters t = counters s) : indices t = indices s := by
  simp only [counters, Prod.mk.injEq] at h
  obtain ⟨current, p1, p2⟩ := h
  simp only [indices, current, p1, p2]

theorem still_within (h : Moves cfg still s t) : Moves cfg (within low high) s t :=
  h.mono (within low high) (fun _ _ _ met => met) (fun _ none => none.elim)
    (fun _ none => none.elim) (fun _ _ none => none.elim)

theorem still_iid (h : Moves cfg still s t) (slot : ℕ) :
    (t.proposerState slot).iid = (s.proposerState slot).iid := by
  refine h.invariant (fun u => (u.proposerState slot).iid = (s.proposerState slot).iid) ?_ rfl
  intro u v same move
  rw [← same]
  have rewritten (slot' : ℕ) (ii : PInstInfo)
      (slots : v.proposerState = setSlot u.proposerState slot' ii)
      (iid : ii.iid = (u.proposerState slot').iid) :
      (v.proposerState slot).iid = (u.proposerState slot).iid := by
    rw [slots, setSlot_apply]
    split_ifs with here
    · rw [iid, here]
    · rfl
  cases move with
  | quiet quiet => rw [quiet.slots]
  | openP1 clock iid allowed free => exact allowed.elim
  | retryP1 clock slot' pending => exact rewritten slot' _ rfl rfl
  | restartP1 clock slot' pending => exact rewritten slot' _ rfl rfl
  | complete slot' pending => exact rewritten slot' _ rfl rfl
  | executeP2 clock slot' value ready chosen => exact rewritten slot' _ rfl rfl
  | ack a pa met =>
    rcases handlePrepareAck_cases cfg a u pa with
      dropped | ⟨ii, rfl, _, _, ⟨_, done⟩ | ⟨_, done⟩⟩
    · rw [dropped]
      rfl
    · refine rewritten (cfg.proIndex pa.iid) _ ?_ (proSavePrepareAck_iid _ pa a)
      rw [done]
      rfl
    · refine rewritten (cfg.proIndex pa.iid)
        { Paxos2Proposer.proSavePrepareAck _ pa a with status := .p1Ready } ?_
        (proSavePrepareAck_iid _ pa a)
      rw [done]
      rfl
  | clear slot' allowed => exact allowed.elim
  | delivered iid value allowed => rfl

theorem sendsWithin_move (h : SendsWithin high s) (ahead : Ahead cfg low high s)
    (move : Move cfg (within low high) s t) : SendsWithin high t := by
  cases move with
  | quiet quiet => exact ⟨quiet.prepares _ h.prepares, quiet.accepts _ h.accepts⟩
  | openP1 clock iid allowed free => exact ⟨h.prepares.add cfg _ allowed.2, h.accepts⟩
  | retryP1 clock slot pending =>
    have held := ahead.held slot (by rw [pending]; decide)
    exact ⟨h.prepares.add cfg _ held.2.2, h.accepts⟩
  | restartP1 clock slot pending =>
    have held := ahead.held slot (by rw [pending]; decide)
    exact ⟨h.prepares.add cfg _ held.2.2, h.accepts⟩
  | executeP2 clock slot value ready chosen =>
    have held := ahead.held slot (by rw [ready]; decide)
    exact ⟨h.prepares, h.accepts.add cfg _ held.2.2⟩
  | ack a pa met =>
    rcases handlePrepareAck_cases cfg a s pa with
      dropped | ⟨_, _, _, _, ⟨_, done⟩ | ⟨_, done⟩⟩
    · rw [dropped]
      exact ⟨h.prepares, h.accepts⟩
    · rw [done]
      exact ⟨h.prepares, h.accepts⟩
    · rw [done]
      exact ⟨h.prepares, h.accepts⟩
  | _ => exact ⟨h.prepares, h.accepts⟩

theorem Filled.kept (h : Filled cfg low high s) (moves : Moves cfg still s t) :
    Filled cfg low high t := by
  have both : Ahead cfg low high t ∧ SendsWithin high t := by
    have inside : Moves cfg (within low high) s t := still_within moves
    refine inside.invariant (fun u => Ahead cfg low high u ∧ SendsWithin high u) ?_
      ⟨h.ahead, h.sends⟩
    rintro u v ⟨ahead, sends⟩ move
    exact ⟨ahead_move ahead move, sendsWithin_move sends ahead move⟩
  refine ⟨both.1, fun i above below => ?_, both.2⟩
  rw [still_iid moves]
  exact h.owned i above below

theorem Windowed.kept (h : Windowed cfg low s) (moves : Moves cfg still s t)
    (highest : t.p1Info.highestOpen = s.p1Info.highestOpen)
    (unused_ge : low ≤ t.p2Info.nextUnusedIid)
    (unused_le : t.p2Info.nextUnusedIid ≤ s.p1Info.highestOpen + 1) : Windowed cfg low t where
  pos := h.pos
  filled := highest ▸ h.filled.kept moves
  unused_ge := unused_ge
  unused_le := highest ▸ unused_le
  fits := highest ▸ h.fits

theorem Windowed.same (h : Windowed cfg low s) (moves : Moves cfg still s t)
    (same : indices t = indices s) : Windowed cfg low t := by
  simp only [indices, Prod.mk.injEq] at same
  obtain ⟨-, next, highest⟩ := same
  exact h.kept moves highest (next ▸ h.unused_ge) (next ▸ h.unused_le)

theorem Windowed.keepsUp (h : Windowed cfg low s) : KeepsUp cfg low s :=
  ⟨h.filled.ahead, h.unused_ge, h.unused_le⟩

section PhaseOne

variable (clock : ℕ → Timeval)

theorem Windowed.checkP1Pending (h : Windowed cfg low s) (here : s.currentIid = low)
    (timeNow : Timeval) :
    (leaderCheckP1Pending cfg clock timeNow s).Ensures
      (fun t => Windowed cfg low t ∧ counters t = counters s) F := by
  have loop : (Outcome.fold (leaderCheckP1Instance cfg clock timeNow) (clearPrepareBuf s)
      (List.range' s.currentIid (s.p1Info.highestOpen + 1 - s.currentIid))).Ensures
        (fun u => (∀ slot, (u.proposerState slot).iid = (s.proposerState slot).iid) ∧
          counters u = counters s) F := by
    refine Outcome.ensures_fold ⟨fun _ => rfl, rfl⟩ ?_
    rintro i range u ⟨iids, counts⟩
    obtain ⟨above, below⟩ := List.mem_range'_1.mp range
    have own := h.filled.owned i (here ▸ above) (by omega)
    unfold leaderCheckP1Instance
    dsimp only
    rw [if_pos ((iids _).trans own)]
    split_ifs with expired
    · refine ⟨fun slot => ?_, counts⟩
      rw [← iids]
      simp only [leaderSendPrepare, LeaderState.log, LeaderState.withSlot, setSlot_apply]
      split_ifs with same
      · rw [same]
        rfl
      · rfl
    · exact ⟨iids, counts⟩
  have checked : (leaderCheckP1Pending cfg clock timeNow s).Ensures
      (fun t => counters t = counters s) F := by
    unfold leaderCheckP1Pending
    revert loop
    cases Outcome.fold (leaderCheckP1Instance cfg clock timeNow) (clearPrepareBuf s)
        (List.range' s.currentIid (s.p1Info.highestOpen + 1 - s.currentIid)) with
    | running u => exact fun kept => kept.2
    | aborted fault u => exact id
  refine checked.mono fun t done counts => ⟨?_, counts⟩
  exact h.same ((leaderCheckP1Pending_moves clock timeNow s).of_running done)
    (indices_of_counters counts)

theorem Filled.next_free (h : Filled cfg low high s) (above : low ≤ high + 1)
    (fits : high + 1 < low + cfg.proposerArraySize) :
    (s.proposerState (cfg.proIndex (high + 1))).status = .empty := by
  by_contra busy
  obtain ⟨home, lower, upper⟩ := h.ahead.held _ busy
  have same := cfg.proIndex_injective lower (by omega) above fits home
  omega

theorem Filled.openNext (h : Filled cfg low high s) (above : low ≤ high + 1)
    (fits : high + 1 < low + cfg.proposerArraySize) :
    (leaderOpenInstanceP1 cfg clock s (high + 1)).Ensures
      (fun t => Filled cfg low (high + 1) t ∧ counters t = counters s) F := by
  have free := h.next_free above fits
  unfold leaderOpenInstanceP1
  dsimp only
  rw [if_pos free]
  have wide : Ahead cfg low (high + 1) s :=
    h.ahead.weaken (le_refl _) (Nat.le_succ _) h.ahead.delivered
  refine ⟨⟨ahead_move wide (.openP1 s clock (high + 1) ⟨above, le_refl _⟩ free), ?_, ?_⟩, rfl⟩
  · intro i lower upper
    simp only [leaderSendPrepare, LeaderState.log, LeaderState.withSlot, setSlot_apply]
    split_ifs with same
    · exact (cfg.proIndex_injective lower (by omega) above fits same).symm
    · rcases Nat.lt_or_eq_of_le upper with lt | rfl
      · exact h.owned i lower (by omega)
      · exact absurd rfl same
  · have weaker : SendsWithin (high + 1) s :=
      ⟨h.sends.prepares.mono fun _ le => Nat.le_succ_of_le le,
        h.sends.accepts.mono fun _ le => Nat.le_succ_of_le le⟩
    exact ⟨weaker.prepares.add cfg _ (le_refl _), weaker.accepts⟩

theorem Filled.openLoop (h : Filled cfg low high s) (above : low ≤ high + 1) (n : ℕ)
    (fits : high + n < low + cfg.proposerArraySize) :
    (Outcome.fold (leaderOpenInstanceP1 cfg clock) s (List.range' (high + 1) n)).Ensures
      (fun t => Filled cfg low (high + n) t ∧ counters t = counters s) F := by
  induction n generalizing high s with
  | zero => exact ⟨h, rfl⟩
  | succ n ih =>
    rw [List.range'_succ]
    refine (h.openNext clock above (by omega)).bind ?_
    rintro u ⟨filled, p1⟩
    have rest := ih filled (by omega) (by omega)
    rw [show high + 1 + n = high + (n + 1) by omega] at rest
    exact rest.mono fun t _ kept => ⟨kept.1, kept.2.trans p1⟩

def OpensFit (cfg : Config) (s : LeaderState) : Prop :=
  0 ≤ activeCount s → activeCount s < (cfg.proposerPreexecWinSize / 2 : ℕ) →
    s.p1Info.highestOpen + leaderToOpen cfg s < s.currentIid + cfg.proposerArraySize

def slotsInUse (cfg : Config) (s : LeaderState) : ℕ :=
  ((Finset.range cfg.proposerArraySize).filter fun slot =>
    (s.proposerState slot).status ≠ .empty).card

/-- Whenever phase 1 opens instances, the slots in use that its counters do not count leave
room for `PROPOSER_PREEXEC_WIN_SIZE` instances. -/
def RoomToOpen (cfg : Config) (s : LeaderState) : Prop :=
  0 ≤ activeCount s → activeCount s < (cfg.proposerPreexecWinSize / 2 : ℕ) →
    (slotsInUse cfg s : ℤ) - activeCount s ≤ cfg.proposerArraySize - cfg.proposerPreexecWinSize

instance (s : LeaderState) : Decidable (RoomToOpen cfg s) :=
  inferInstanceAs (Decidable (_ → _ → _))

theorem Windowed.slots_le (h : Windowed cfg low s) :
    s.p1Info.highestOpen + 1 - low ≤ slotsInUse cfg s := by
  have fits := h.fits
  have pos := h.pos
  have injective : Set.InjOn cfg.proIndex (Finset.Ico low (s.p1Info.highestOpen + 1)) := by
    intro i hi j hj same
    obtain ⟨above, below⟩ := Finset.mem_Ico.mp hi
    obtain ⟨above', below'⟩ := Finset.mem_Ico.mp hj
    exact cfg.proIndex_injective above (by omega) above' (by omega) same
  calc s.p1Info.highestOpen + 1 - low
      = ((Finset.Ico low (s.p1Info.highestOpen + 1)).image cfg.proIndex).card := by
        rw [Finset.card_image_of_injOn injective, Nat.card_Ico]
    _ ≤ slotsInUse cfg s := by
        refine Finset.card_le_card fun slot hslot => ?_
        obtain ⟨i, hi, rfl⟩ := Finset.mem_image.mp hslot
        obtain ⟨above, below⟩ := Finset.mem_Ico.mp hi
        refine Finset.mem_filter.mpr ⟨Finset.mem_range.mpr (cfg.proIndex_lt i), fun free => ?_⟩
        have own := h.filled.owned i above (by omega)
        have unused := h.filled.ahead.unused _ free
        omega

theorem Windowed.opensFit (h : Windowed cfg low s) (here : s.currentIid = low)
    (room : RoomToOpen cfg s) : OpensFit cfg s := by
  intro positive few
  have room := room positive few
  have held := h.slots_le
  have above := h.unused_ge.trans h.unused_le
  have preexec := cfg.preexec_lt
  unfold leaderToOpen
  omega

theorem Filled.openInstancesP1 (h : Filled cfg low s.p1Info.highestOpen s)
    (above : low ≤ s.p1Info.highestOpen + 1)
    (full : s.p1Info.highestOpen < low + cfg.proposerArraySize)
    (here : s.currentIid = low) (fits : OpensFit cfg s) :
    (leaderOpenInstancesP1 cfg clock s).Ensures
      (fun t => Filled cfg low t.p1Info.highestOpen t ∧ t.p2Info = s.p2Info ∧ t.currentIid = low ∧
        s.p1Info.highestOpen ≤ t.p1Info.highestOpen ∧
        t.p1Info.highestOpen < low + cfg.proposerArraySize)
      fun fault => ¬ SlotFault fault := by
  unfold leaderOpenInstancesP1
  split_ifs with negative enough
  · exact id
  · exact ⟨h, rfl, here, le_refl _, full⟩
  · dsimp only
    split_ifs with few
    · exact id
    · have room : s.p1Info.highestOpen + leaderToOpen cfg s < low + cfg.proposerArraySize :=
        here ▸ fits (not_lt.mp negative) (not_le.mp enough)
      have cleared : Filled cfg low s.p1Info.highestOpen (clearPrepareBuf s) :=
        h.kept (quiet_clearPrepareBuf s).moves
      refine Outcome.Ensures.bind (cleared.openLoop clock above (leaderToOpen cfg s) room) ?_
      rintro u ⟨filled, counts⟩
      simp only [counters, Prod.mk.injEq] at counts
      obtain ⟨current, p1, p2⟩ := counts
      have current : u.currentIid = s.currentIid := current
      have p1 : u.p1Info = s.p1Info := p1
      have p2 : u.p2Info = s.p2Info := p2
      set t := leaderAddOpened (leaderToOpen cfg s) (flushPrepareBuf u) with ht
      have highest : t.p1Info.highestOpen = s.p1Info.highestOpen + leaderToOpen cfg s := by
        simp [t, leaderAddOpened, flushPrepareBuf, p1]
      have counted : Quiet (flushPrepareBuf u) t := .of_eq rfl rfl rfl rfl rfl
      have moves : Moves cfg still u t := (quiet_flushPrepareBuf u).moves.trans counted.moves
      change Filled cfg low t.p1Info.highestOpen t ∧ t.p2Info = s.p2Info ∧ t.currentIid = low ∧
        s.p1Info.highestOpen ≤ t.p1Info.highestOpen ∧
        t.p1Info.highestOpen < low + cfg.proposerArraySize
      refine ⟨highest ▸ filled.kept moves, p2, current.trans here, ?_, highest ▸ room⟩
      omega

theorem Windowed.openInstancesP1 (h : Windowed cfg low s) (here : s.currentIid = low)
    (fits : OpensFit cfg s) :
    (leaderOpenInstancesP1 cfg clock s).Ensures
      (fun t => Windowed cfg low t ∧ t.currentIid = low ∧
        s.p1Info.highestOpen ≤ t.p1Info.highestOpen)
      fun fault => ¬ SlotFault fault := by
  have above := h.unused_ge.trans h.unused_le
  refine (h.filled.openInstancesP1 clock above h.fits here fits).mono ?_
  rintro t - ⟨filled, next, current, grown, room⟩
  have upper := h.unused_le
  refine ⟨⟨h.pos, filled, next ▸ h.unused_ge, ?_, room⟩, current, grown⟩
  rw [next]
  omega

theorem Windowed.periodicP1Check (h : Windowed cfg low s) (here : s.currentIid = low)
    (fits : OpensFit cfg s) (timeNow : Timeval) :
    (leaderPeriodicP1Check cfg clock timeNow s).Ensures
      (fun t => Windowed cfg low t ∧ t.currentIid = low ∧
        s.p1Info.highestOpen ≤ t.p1Info.highestOpen)
      fun fault => ¬ SlotFault fault := by
  refine Outcome.Ensures.bind (h.checkP1Pending clock here timeNow) ?_
  rintro u ⟨windowed, counts⟩
  simp only [counters, Prod.mk.injEq] at counts
  obtain ⟨current, p1, -⟩ := counts
  have fits' : OpensFit cfg u := by
    unfold OpensFit activeCount leaderToOpen activeCount at fits ⊢
    rw [p1, current]
    exact fits
  exact p1 ▸ windowed.openInstancesP1 clock (current.trans here) fits'

end PhaseOne

variable (clock : ℕ → Timeval)

theorem leaderExecuteP2_ensures (s : LeaderState) (slot : ℕ)
    (ready : (s.proposerState slot).status = .p1Ready) :
    (leaderExecuteP2 cfg clock s slot).Ensures
      (fun t => ∀ slot, (t.proposerState slot).iid = (s.proposerState slot).iid)
      fun fault => ¬ SlotFault fault := by
  have moves : Moves cfg still s (leaderExecuteP2 cfg clock s slot).state :=
    leaderExecuteP2_moves clock s slot ready
  rcases leaderExecuteP2_cases clock cfg s slot with stopped | ⟨vh, value, _, done⟩
  · rw [stopped]
    exact id
  · rw [done] at moves ⊢
    exact still_iid moves

theorem leaderOpenExpired_ensures (iids : List ℕ) (count : UInt32) (s : LeaderState)
    (owned : ∀ i ∈ iids, (s.proposerState (cfg.proIndex i)).iid = i) :
    (leaderOpenExpired cfg clock iids count s).Ensures (fun _ => True)
      fun fault => ¬ SlotFault fault := by
  induction iids generalizing count s with
  | nil => trivial
  | cons iid rest ih =>
    obtain ⟨own, others⟩ := List.forall_mem_cons.mp owned
    unfold leaderOpenExpired
    dsimp only
    rw [if_pos own]
    split_ifs with ready value
    · refine (leaderExecuteP2_ensures clock s _ ready).andThen fun u iids => ih _ u ?_
      intro i hi
      exact (iids _).trans (others i hi)
    · exact id
    · exact ih count s others

theorem Windowed.openInstancesP2Expired (h : Windowed cfg low s) (here : s.currentIid = low) :
    (leaderOpenInstancesP2Expired cfg clock s).Ensures
      (fun t => Windowed cfg low t ∧ indices t = indices s)
      fun fault => ¬ SlotFault fault := by
  have ensured : (leaderOpenInstancesP2Expired cfg clock s).Ensures (fun _ => True)
      fun fault => ¬ SlotFault fault := by
    refine (leaderOpenExpired_ensures clock _ 0 (clearAcceptBuf s) ?_).andThen fun _ _ => trivial
    intro i range
    obtain ⟨above, below⟩ := List.mem_range'_1.mp range
    have upper := h.unused_le
    have above : s.currentIid ≤ i := above
    have below : i < s.currentIid + (s.p2Info.nextUnusedIid - s.currentIid) := below
    exact h.filled.owned i (here ▸ above) (by omega)
  refine ensured.mono fun t done _ => ?_
  have same := leaderOpenInstancesP2Expired_indices clock done
  exact ⟨h.same ((leaderOpenInstancesP2Expired_moves clock s).of_running done) same, same⟩

theorem leaderOpenNew_ensures (turns : ℕ) (count : UInt32) (s : LeaderState) :
    (leaderOpenNew cfg clock turns count s).Ensures
      (fun r => r.1.p1Info = s.p1Info) fun fault => ¬ SlotFault fault := by
  induction turns generalizing count s with
  | zero => exact rfl
  | succ turns ih =>
    unfold leaderOpenNew
    dsimp only
    split_ifs with value idle notReady
    · exact id
    · exact rfl
    · exact rfl
    · rcases leaderExecuteP2_cases clock cfg s (cfg.proIndex s.p2Info.nextUnusedIid) with
        stopped | ⟨vh, value, _, done⟩
      · rw [stopped]
        exact id
      · rw [done]
        exact ih _ _

theorem Windowed.openInstancesP2New (h : Windowed cfg low s) :
    (leaderOpenInstancesP2New cfg clock s).Ensures
      (fun t => Windowed cfg low t ∧ t.currentIid = s.currentIid ∧
        t.p1Info.highestOpen = s.p1Info.highestOpen)
      fun fault => ¬ SlotFault fault := by
  have ensured : (leaderOpenInstancesP2New cfg clock s).Ensures
      (fun t => t.p1Info.highestOpen = s.p1Info.highestOpen)
      fun fault => ¬ SlotFault fault := by
    unfold leaderOpenInstancesP2New
    dsimp only
    split_ifs
    · exact rfl
    · refine (leaderOpenNew_ensures clock _ 0 (clearAcceptBuf s)).andThen fun r same => ?_
      change r.1.p1Info.highestOpen = s.p1Info.highestOpen
      rw [same]
      rfl
  refine ensured.mono fun t done highest => ?_
  obtain ⟨keeps, current⟩ := h.keepsUp.openInstancesP2New clock done
  refine ⟨h.kept ((leaderOpenInstancesP2New_moves clock s).of_running done) highest
    keeps.unused_ge (highest ▸ keeps.unused_le), current, highest⟩

theorem Windowed.periodicP2Check (h : Windowed cfg low s) (isClosed : ℕ → Bool)
    (timeNow : Timeval) :
    (leaderPeriodicP2Check cfg clock isClosed timeNow s).Ensures
      (fun t => Windowed cfg low t ∧ t.currentIid = s.currentIid ∧
        t.p1Info.highestOpen = s.p1Info.highestOpen)
      fun fault => ¬ SlotFault fault := by
  set iids := List.range' s.currentIid (s.p2Info.nextUnusedIid - s.currentIid) with hiids
  set checked := run (leaderCheckP2Instance cfg clock isClosed timeNow) (clearPrepareBuf s) iids
    with hchecked
  have same : indices (flushPrepareBuf checked) = indices s :=
    leaderCheckP2_indices clock isClosed timeNow iids
  have moves : Moves cfg still s (flushPrepareBuf checked) :=
    ((quiet_clearPrepareBuf s).moves.trans
      (leaderCheckP2_moves clock isClosed timeNow _ iids)).trans (quiet_flushPrepareBuf _).moves
  have before := h.same moves same
  simp only [indices, Prod.mk.injEq] at same
  refine (before.openInstancesP2New clock).mono fun t _ kept => ?_
  exact ⟨kept.1, kept.2.1.trans same.1, kept.2.2.trans same.2.2⟩

theorem Windowed.prepareAcks (h : Windowed cfg low s) (a : ℕ) (acks : List PrepareAck) :
    Windowed cfg low (Paxos2Proposer.handlePrepareAcks cfg a s acks).1 := by
  refine h.same (handlePrepareAcks_moves a s acks ?_) (handlePrepareAcks_indices a acks)
  exact along_of_mem fun _ _ _ => trivial

theorem Windowed.deliver {iid : ℕ} (h : Windowed cfg iid s)
    (below : iid ≤ s.p1Info.highestOpen) (value : Value) :
    (leaderDeliver cfg clock (s.log (.delivered iid value)) value iid).Ensures
      (fun t => Windowed cfg (iid + 1) t ∧ t.p1Info.highestOpen = s.p1Info.highestOpen)
      fun fault => ¬ SlotFault fault := by
  have found := h.filled.owned iid (le_refl _) below
  have pos := h.pos
  have fits := h.fits
  unfold leaderDeliver
  have here : ((s.log (.delivered iid value)).proposerState (cfg.proIndex iid)).iid = iid := found
  simp only [here, ne_eq, not_true_eq_false, if_false]
  set ii := (s.log (.delivered iid value)).proposerState (cfg.proIndex iid) with hii
  set vh := leaderSettleValue (leaderCountDelivered (s.log (.delivered iid value)) ii
    iid).valuesHandler ii.p2Value value with hvh
  set c := ((leaderCountDelivered (s.log (.delivered iid value)) ii iid).withValues vh).withSlot
    (cfg.proIndex iid) (proClearInstanceInfo ii) with hc
  have keeps : KeepsUp cfg (iid + 1) c := h.keepsUp.clearDelivered (by omega) found value vh
  have cleared : Windowed cfg (iid + 1) c :=
    { pos := Nat.succ_pos iid
      filled :=
        { ahead := keeps.ahead
          owned := by
            intro i above upper
            simp only [c, LeaderState.withSlot, setSlot_apply]
            have upper : i ≤ s.p1Info.highestOpen := upper
            split_ifs with same
            · have := cfg.proIndex_injective (Nat.le_of_succ_le above) (by omega) (le_refl iid)
                (by omega) same
              omega
            · exact h.filled.owned i (Nat.le_of_succ_le above) upper
          sends := ⟨h.filled.sends.prepares, h.filled.sends.accepts⟩ }
      unused_ge := keeps.unused_ge
      unused_le := keeps.unused_le
      fits := by
        change s.p1Info.highestOpen < iid + 1 + cfg.proposerArraySize
        omega }
  exact (cleared.openInstancesP2New clock).mono fun t _ kept => ⟨kept.1, kept.2.2⟩

end FdsPaxos.Paxos2LeaderWindow
