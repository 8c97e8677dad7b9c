import FdsPaxos.Paxos2LeaderMoves
import FdsPaxos.Paxos2LearnerDelivery

set_option autoImplicit false

namespace FdsPaxos.Paxos2LeaderIndices
open TransitionRuns CircularWindow Paxos2Config Paxos2Messages Paxos2SendBuffer
open Paxos2ValuesHandler Paxos2Learner Paxos2LearnerDelivery Paxos2Leader Paxos2Proposer
open Paxos2LeaderMoves

variable {cfg : Config} {low high : ℕ} {s t : LeaderState}

section Indices

/-- The three indices that a leader advances. -/
def indices (s : LeaderState) : ℕ × ℕ × ℕ :=
  (s.currentIid, s.p2Info.nextUnusedIid, s.p1Info.highestOpen)

variable (clock : ℕ → Timeval)

theorem leaderExecuteP2_indices {slot : ℕ}
    (done : leaderExecuteP2 cfg clock s slot = .running t) : indices t = indices s := by
  rcases leaderExecuteP2_cases clock cfg s slot with stopped | ⟨vh, value, -, sent⟩
  · rw [stopped] at done
    cases done
  · rw [sent] at done
    cases done
    rfl

theorem leaderCheckP1Pending_indices {timeNow : Timeval}
    (done : leaderCheckP1Pending cfg clock timeNow s = .running t) : indices t = indices s := by
  obtain ⟨u, loop, rfl⟩ := Outcome.map_eq_running.mp done
  have kept : indices u = indices s := by
    have cleared : indices (clearPrepareBuf s) = indices s := rfl
    refine Outcome.fold_running (fun u => indices u = indices s) cleared ?_ loop
    intro u iid v _ same turn
    unfold leaderCheckP1Instance at turn
    dsimp only at turn
    split_ifs at turn <;> cases turn <;> exact same
  exact kept

theorem leaderOpenInstancesP1_indices (done : leaderOpenInstancesP1 cfg clock s = .running t) :
    t = s ∨
      indices t = (s.currentIid, s.p2Info.nextUnusedIid,
        s.p1Info.highestOpen + leaderToOpen cfg s) := by
  unfold leaderOpenInstancesP1 at done
  dsimp only at done
  split_ifs at done
  · cases done
    exact .inl rfl
  · obtain ⟨u, loop, last⟩ := Outcome.bind_eq_running.mp done
    have kept : indices u = indices s := by
      have cleared : indices (clearPrepareBuf s) = indices s := rfl
      refine Outcome.fold_running (fun u => indices u = indices s) cleared ?_ loop
      intro u iid v _ same turn
      unfold leaderOpenInstanceP1 at turn
      dsimp only at turn
      split_ifs at turn
      cases turn
      exact same
    cases last
    simp only [indices, Prod.mk.injEq] at kept
    obtain ⟨current, next, highest⟩ := kept
    refine .inr ?_
    simp only [indices, leaderAddOpened, flushPrepareBuf, current, next, highest]
    rfl

theorem leaderOpenExpired_indices {iids : List ℕ} {count count' : UInt32}
    (done : leaderOpenExpired cfg clock iids count s = .running (t, count')) :
    indices t = indices s := by
  induction iids generalizing count s with
  | nil =>
    cases done
    rfl
  | cons iid rest ih =>
    unfold leaderOpenExpired at done
    dsimp only at done
    split_ifs at done
    · obtain ⟨u, first, tail⟩ := Outcome.andThen_eq_running.mp done
      exact (ih tail).trans (leaderExecuteP2_indices clock first)
    · exact ih done

theorem leaderOpenInstancesP2Expired_indices
    (done : leaderOpenInstancesP2Expired cfg clock s = .running t) : indices t = indices s := by
  obtain ⟨⟨u, count⟩, loop, last⟩ := Outcome.andThen_eq_running.mp done
  cases last
  exact (leaderOpenExpired_indices clock loop : indices u = _)

theorem leaderCheckP2_indices (isClosed : ℕ → Bool) (timeNow : Timeval) (iids : List ℕ) :
    indices (run (leaderCheckP2Instance cfg clock isClosed timeNow) s iids) = indices s := by
  refine run_invariant (fun u => indices u = indices s) rfl ?_
  intro u iid same
  unfold leaderCheckP2Instance
  dsimp only
  split_ifs <;> exact same

theorem handlePrepareAck_indices (a : ℕ) (pa : PrepareAck) :
    indices (handlePrepareAck cfg a s pa).1 = indices s := by
  rcases handlePrepareAck_cases cfg a s pa with
    dropped | ⟨_, _, _, _, ⟨_, done⟩ | ⟨_, done⟩⟩
  · rw [dropped]
    rfl
  · rw [done]
    rfl
  · rw [done]
    rfl

theorem handlePrepareAcks_indices (a : ℕ) (acks : List PrepareAck) :
    indices (handlePrepareAcks cfg a s acks).1 = indices s := by
  unfold handlePrepareAcks
  refine run_invariant (fun r : LeaderState × ℕ => indices r.1 = indices s) rfl ?_
  intro r pa same
  exact (handlePrepareAck_indices a pa).trans same

end Indices

/-- Phase 1 or phase 2 is never opened for an instance that was delivered before. -/
def WorksAhead (trace : List LeaderEvent) : Prop :=
  ∀ iid older, ((∃ b, (.chose iid b :: older) <:+ trace) ∨
      ∃ b v, (.proposed iid b v :: older) <:+ trace) →
    ∀ v, .delivered iid v ∉ older

/-- The leader holds instances from `low` to `high` only, each in its slot, and has
never worked on one that was delivered; all delivered ones are below `low`. -/
structure Ahead (cfg : Config) (low high : ℕ) (s : LeaderState) : Prop where
  held : ∀ slot, (s.proposerState slot).status ≠ .empty →
    cfg.proIndex (s.proposerState slot).iid = slot ∧
      low ≤ (s.proposerState slot).iid ∧ (s.proposerState slot).iid ≤ high
  unused : ∀ slot, (s.proposerState slot).status = .empty → (s.proposerState slot).iid = 0
  delivered : ∀ i v, .delivered i v ∈ s.trace → i < low
  works : WorksAhead s.trace

/-- Opening and delivering as they respect the bounds. -/
def within (low high : ℕ) : MoveCondition where
  ack := fun _ _ _ => True
  opens := fun i => low ≤ i ∧ i ≤ high
  clears := fun _ => True
  delivers := fun i _ => i < low

theorem worksAhead_cons {e : LeaderEvent} {trace : List LeaderEvent} (h : WorksAhead trace)
    (late : ∀ i, ((∃ b, e = .chose i b) ∨ ∃ b v, e = .proposed i b v) →
      ∀ v, .delivered i v ∉ trace) : WorksAhead (e :: trace) := by
  rintro i older (⟨b, sub⟩ | ⟨b, v, sub⟩)
  · rcases List.suffix_cons_iff.mp sub with same | sub
    · obtain ⟨rfl, rfl⟩ := List.cons.inj same
      exact late i (.inl ⟨b, rfl⟩)
    · exact h i older (.inl ⟨b, sub⟩)
  · rcases List.suffix_cons_iff.mp sub with same | sub
    · obtain ⟨rfl, rfl⟩ := List.cons.inj same
      exact late i (.inr ⟨b, v, rfl⟩)
    · exact h i older (.inr ⟨b, v, sub⟩)

def ReportWithin (low : ℕ) : LeaderEvent → Prop
  | .chose i _ | .proposed i _ _ => low ≤ i
  | .delivered i _ => i < low
  | .received _ _ | .ready _ _ => True

theorem Ahead.report (h : Ahead cfg low high s) {e : LeaderEvent}
    (slots : t.proposerState = s.proposerState) (trace : t.trace = e :: s.trace)
    (about : ReportWithin low e) : Ahead cfg low high t where
  held := by
    rw [slots]
    exact h.held
  unused := by
    rw [slots]
    exact h.unused
  delivered := by
    rw [trace]
    intro i v hm
    rcases List.mem_cons.mp hm with rfl | hm
    · exact about
    · exact h.delivered i v hm
  works := by
    rw [trace]
    refine worksAhead_cons h.works ?_
    rintro i (⟨b, rfl⟩ | ⟨b, v, rfl⟩) w hm
    · exact absurd (h.delivered i w hm) (Nat.not_lt.mpr about)
    · exact absurd (h.delivered i w hm) (Nat.not_lt.mpr about)

theorem Ahead.slot (h : Ahead cfg low high s) {slot : ℕ} {ii : PInstInfo}
    (slots : t.proposerState = setSlot s.proposerState slot ii) (trace : t.trace = s.trace)
    (held : ii.status ≠ .empty → cfg.proIndex ii.iid = slot ∧ low ≤ ii.iid ∧ ii.iid ≤ high)
    (unused : ii.status = .empty → ii.iid = 0) :
    Ahead cfg low high t where
  held := by
    intro slot'
    rw [slots, setSlot_apply]
    split_ifs with same
    · exact same ▸ held
    · exact h.held slot'
  unused := by
    intro slot'
    rw [slots, setSlot_apply]
    split_ifs
    · exact unused
    · exact h.unused slot'
  delivered := trace ▸ h.delivered
  works := trace ▸ h.works

theorem Ahead.rewrite (h : Ahead cfg low high s) {slot : ℕ} {ii : PInstInfo} {e : LeaderEvent}
    (slots : t.proposerState = setSlot s.proposerState slot ii) (trace : t.trace = e :: s.trace)
    (held : cfg.proIndex ii.iid = slot ∧ low ≤ ii.iid ∧ ii.iid ≤ high)
    (busy : ii.status ≠ .empty) (about : ReportWithin low e) : Ahead cfg low high t := by
  have reported : Ahead cfg low high (s.log e) := h.report rfl rfl about
  exact reported.slot slots trace (fun _ => held) (fun empty => absurd empty busy)

theorem Ahead.weaken (h : Ahead cfg low high s) {low' high' : ℕ} (down : low' ≤ low)
    (up : high ≤ high') (delivered : ∀ i v, .delivered i v ∈ s.trace → i < low') :
    Ahead cfg low' high' s where
  held := by
    intro slot busy
    obtain ⟨home, above, below⟩ := h.held slot busy
    exact ⟨home, down.trans above, below.trans up⟩
  unused := h.unused
  delivered := delivered
  works := h.works

theorem ahead_move (h : Ahead cfg low high s) (move : Move cfg (within low high) s t) :
    Ahead cfg low high t := by
  cases move with
  | quiet quiet =>
    exact
      { held := quiet.slots ▸ h.held
        unused := quiet.slots ▸ h.unused
        delivered := quiet.trace ▸ h.delivered
        works := quiet.trace ▸ h.works }
  | openP1 clock iid allowed free =>
    exact h.rewrite rfl rfl ⟨rfl, allowed⟩ (fun h => nomatch h) allowed.1
  | retryP1 clock slot pending =>
    have held := h.held slot (by rw [pending]; decide)
    refine h.rewrite rfl rfl held ?_ held.2.1
    change (s.proposerState slot).status ≠ .empty
    rw [pending]
    decide
  | restartP1 clock slot pending =>
    have held := h.held slot (by rw [pending]; decide)
    exact h.rewrite rfl rfl held (fun h => nomatch h) held.2.1
  | complete slot pending =>
    have held := h.held slot (by rw [pending]; decide)
    exact h.slot rfl rfl (fun _ => held) (fun h => nomatch h)
  | executeP2 clock slot value ready chosen =>
    have held := h.held slot (by rw [ready]; decide)
    exact h.rewrite rfl rfl held (fun h => nomatch h) held.2.1
  | ack a pa _ =>
    have received : Ahead cfg low high (s.log (.received a pa)) := h.report rfl rfl trivial
    rcases handlePrepareAck_cases cfg a s pa with dropped | ⟨ii, rfl, pending, _, taken⟩
    · rw [dropped]
      exact received
    · have held := h.held (cfg.proIndex pa.iid) (by rw [pending]; decide)
      rcases taken with ⟨_, done⟩ | ⟨_, done⟩
      · rw [done]
        exact received.slot rfl rfl (by simpa using fun _ => held) (by simp [pending])
      · rw [done]
        exact received.rewrite rfl rfl (by simpa using held) (fun h => nomatch h) trivial
  | clear slot _ => exact h.slot rfl rfl (fun h => absurd rfl h) (fun _ => rfl)
  | delivered iid value allowed => exact h.report rfl rfl allowed

theorem Ahead.moves (h : Ahead cfg low high s) (moves : Moves cfg (within low high) s t) :
    Ahead cfg low high t :=
  moves.invariant (Ahead cfg low high) (fun _ _ h move => ahead_move h move) h

section KeepsUp

variable (clock : ℕ → Timeval)

/-- The leader is ahead of its deliveries, `low` being the next instance to be
delivered to it. -/
structure KeepsUp (cfg : Config) (low : ℕ) (s : LeaderState) : Prop where
  ahead : Ahead cfg low s.p1Info.highestOpen s
  unused_ge : low ≤ s.p2Info.nextUnusedIid
  unused_le : s.p2Info.nextUnusedIid ≤ s.p1Info.highestOpen + 1

theorem KeepsUp.same (h : KeepsUp cfg low s)
    (moves : Moves cfg (within low s.p1Info.highestOpen) s t) (same : indices t = indices s) :
    KeepsUp cfg low t := by
  simp only [indices, Prod.mk.injEq] at same
  obtain ⟨-, next, highest⟩ := same
  have ahead := h.ahead.moves moves
  exact ⟨highest ▸ ahead, next ▸ h.unused_ge, by rw [next, highest]; exact h.unused_le⟩

theorem Ahead.openInstancesP1 (h : Ahead cfg low s.p1Info.highestOpen s)
    (above : low ≤ s.p1Info.highestOpen + 1)
    (done : leaderOpenInstancesP1 cfg clock s = .running t) :
    Ahead cfg low t.p1Info.highestOpen t ∧ t.currentIid = s.currentIid ∧
      t.p2Info.nextUnusedIid = s.p2Info.nextUnusedIid ∧
      s.p1Info.highestOpen ≤ t.p1Info.highestOpen := by
  rcases leaderOpenInstancesP1_indices clock done with rfl | opened
  · exact ⟨h, rfl, rfl, le_refl _⟩
  · set high := s.p1Info.highestOpen + leaderToOpen cfg s with hhigh
    -- the new instances lie above all those held
    have allowed : OpensAllowed cfg (within low high) s := by
      intro i above' below
      exact ⟨by omega, below⟩
    have wide : Ahead cfg low high s := h.weaken (le_refl _) (by omega) h.delivered
    have ahead := wide.moves ((leaderOpenInstancesP1_moves clock s allowed).of_running done)
    simp only [indices, Prod.mk.injEq] at opened
    obtain ⟨current, next, highest⟩ := opened
    exact ⟨highest ▸ ahead, current, next, by omega⟩

theorem Ahead.periodicP1Check (h : Ahead cfg low s.p1Info.highestOpen s)
    (above : low ≤ s.p1Info.highestOpen + 1) {timeNow : Timeval}
    (done : leaderPeriodicP1Check cfg clock timeNow s = .running t) :
    Ahead cfg low t.p1Info.highestOpen t ∧ t.currentIid = s.currentIid ∧
      t.p2Info.nextUnusedIid = s.p2Info.nextUnusedIid ∧
      s.p1Info.highestOpen ≤ t.p1Info.highestOpen := by
  obtain ⟨u, checked, opened⟩ := Outcome.bind_eq_running.mp done
  have same := leaderCheckP1Pending_indices clock checked
  simp only [indices, Prod.mk.injEq] at same
  obtain ⟨current, next, highest⟩ := same
  have ahead : Ahead cfg low u.p1Info.highestOpen u := by
    rw [highest]
    exact h.moves ((leaderCheckP1Pending_moves clock timeNow s).of_running checked)
  obtain ⟨ahead', current', next', grown⟩ := ahead.openInstancesP1 clock (highest ▸ above) opened
  exact ⟨ahead', current'.trans current, next'.trans next, highest ▸ grown⟩

/-- A new phase 2 uses a ready slot, so the index stays in what phase 1 has opened. -/
theorem KeepsUp.openNew (h : KeepsUp cfg low s) {turns : ℕ} {count count' : UInt32}
    (done : leaderOpenNew cfg clock turns count s = .running (t, count')) :
    KeepsUp cfg low t ∧ t.currentIid = s.currentIid := by
  induction turns generalizing count s with
  | zero =>
    cases done
    exact ⟨h, rfl⟩
  | succ turns ih =>
    unfold leaderOpenNew at done
    dsimp only at done
    split_ifs at done with value idle notReady
    · cases done
      exact ⟨h, rfl⟩
    · cases done
      exact ⟨h, rfl⟩
    · obtain ⟨ready, here⟩ := not_or.mp notReady
      have ready := not_not.mp ready
      have here := not_not.mp here
      have held := h.ahead.held _ (by rw [ready]; decide)
      rw [here] at held
      obtain ⟨u, first, rest⟩ := Outcome.andThen_eq_running.mp done
      have same := leaderExecuteP2_indices clock first
      have executed : KeepsUp cfg low u :=
        h.same ((leaderExecuteP2_moves clock s _ ready).of_running first) same
      simp only [indices, Prod.mk.injEq] at same
      obtain ⟨current, next, highest⟩ := same
      have counted : Quiet u (leaderUseNext u) := .of_eq rfl rfl rfl rfl rfl
      have used : KeepsUp cfg low (leaderUseNext u) :=
        { ahead := executed.ahead.moves counted.moves
          unused_ge := Nat.le_succ_of_le executed.unused_ge
          unused_le := by
            change u.p2Info.nextUnusedIid + 1 ≤ u.p1Info.highestOpen + 1
            omega }
      obtain ⟨kept, current'⟩ := ih used rest
      exact ⟨kept, current'.trans current⟩

theorem KeepsUp.openInstancesP2New (h : KeepsUp cfg low s)
    (done : leaderOpenInstancesP2New cfg clock s = .running t) :
    KeepsUp cfg low t ∧ t.currentIid = s.currentIid := by
  unfold leaderOpenInstancesP2New at done
  dsimp only at done
  split_ifs at done
  · cases done
    exact ⟨h, rfl⟩
  · obtain ⟨⟨u, count⟩, loop, last⟩ := Outcome.andThen_eq_running.mp done
    cases last
    have cleared : KeepsUp cfg low (clearAcceptBuf s) :=
      h.same (quiet_clearAcceptBuf s).moves rfl
    obtain ⟨kept, current⟩ := cleared.openNew clock loop
    have counted : Quiet u (leaderAddOpen (leaderTakeReady u count) count) :=
      .of_eq rfl rfl rfl rfl rfl
    exact ⟨kept.same (counted.moves.trans (quiet_flushAcceptBuf _).moves) rfl, current⟩

theorem KeepsUp.periodicP2Check (h : KeepsUp cfg low s) (isClosed : ℕ → Bool)
    {timeNow : Timeval} (done : leaderPeriodicP2Check cfg clock isClosed timeNow s = .running t) :
    KeepsUp cfg low t ∧ t.currentIid = s.currentIid := by
  set iids := List.range' s.currentIid (s.p2Info.nextUnusedIid - s.currentIid) with hiids
  set checked := run (leaderCheckP2Instance cfg clock isClosed timeNow) (clearPrepareBuf s) iids
    with hchecked
  have same : indices (flushPrepareBuf checked) = indices s :=
    leaderCheckP2_indices clock isClosed timeNow iids
  have moves : Moves cfg (within low s.p1Info.highestOpen) s (flushPrepareBuf checked) :=
    ((quiet_clearPrepareBuf s).moves.trans
      (leaderCheckP2_moves clock isClosed timeNow _ iids)).trans (quiet_flushPrepareBuf _).moves
  obtain ⟨kept, current⟩ := (h.same moves same).openInstancesP2New clock done
  simp only [indices, Prod.mk.injEq] at same
  exact ⟨kept, current.trans same.1⟩

theorem KeepsUp.prepareAcks (h : KeepsUp cfg low s) (a : ℕ) (acks : List PrepareAck) :
    KeepsUp cfg low (handlePrepareAcks cfg a s acks).1 := by
  refine h.same (handlePrepareAcks_moves a s acks ?_) (handlePrepareAcks_indices a acks)
  exact along_of_mem fun _ _ _ => trivial

theorem KeepsUp.openInstancesP2Expired (h : KeepsUp cfg low s)
    (done : leaderOpenInstancesP2Expired cfg clock s = .running t) : KeepsUp cfg low t :=
  h.same ((leaderOpenInstancesP2Expired_moves clock s).of_running done)
    (leaderOpenInstancesP2Expired_indices clock done)

theorem KeepsUp.clearDelivered {iid : ℕ} (h : KeepsUp cfg iid s) (pos : iid ≠ 0)
    (found : (s.proposerState (cfg.proIndex iid)).iid = iid) (value : Value)
    (vh : ValuesHandler) :
    KeepsUp cfg (iid + 1)
      (((leaderCountDelivered (s.log (.delivered iid value))
        (s.proposerState (cfg.proIndex iid)) iid).withValues vh).withSlot (cfg.proIndex iid)
          (proClearInstanceInfo (s.proposerState (cfg.proIndex iid)))) := by
  have busy : (s.proposerState (cfg.proIndex iid)).status ≠ .empty := by
    intro empty
    exact pos (found ▸ h.ahead.unused _ empty)
  obtain ⟨-, -, below⟩ := h.ahead.held _ busy
  rw [found] at below
  have next := h.unused_ge
  have next' := h.unused_le
  refine ⟨⟨?_, ?_, ?_, ?_⟩, ?_, ?_⟩
  · intro slot
    simp only [LeaderState.withSlot, setSlot_apply]
    split_ifs with same
    · exact fun h => absurd rfl h
    · intro busy
      obtain ⟨home, above, below⟩ := h.ahead.held slot busy
      refine ⟨home, ?_, below⟩
      -- the instance just delivered lives in the cleared slot
      rcases Nat.lt_or_eq_of_le above with lt | eq
      · exact lt
      · refine absurd ?_ same
        rw [eq]
        exact home.symm
  · intro slot
    simp only [LeaderState.withSlot, setSlot_apply]
    split_ifs
    · exact fun _ => rfl
    · exact h.ahead.unused slot
  · intro i v hm
    rcases List.mem_cons.mp hm with same | hm
    · cases same
      exact Nat.lt_succ_self iid
    · exact Nat.lt_succ_of_lt (h.ahead.delivered i v hm)
  · refine worksAhead_cons h.ahead.works ?_
    rintro i (⟨b, h⟩ | ⟨b, v, h⟩) <;> cases h
  · change iid + 1 ≤ if s.p2Info.nextUnusedIid = iid then iid + 1 else s.p2Info.nextUnusedIid
    split_ifs <;> omega
  · change (if s.p2Info.nextUnusedIid = iid then iid + 1 else s.p2Info.nextUnusedIid) ≤
      s.p1Info.highestOpen + 1
    split_ifs <;> omega

theorem Ahead.restDelivered {iid : ℕ} (h : Ahead cfg iid 0 s) (pos : iid ≠ 0) (value : Value) :
    Ahead cfg (iid + 1) 0 (leaderDelivered iid (s.log (.delivered iid value))) where
  held := by
    intro slot busy
    obtain ⟨-, above, below⟩ := h.held slot busy
    omega
  unused := h.unused
  delivered := by
    intro i v hm
    rcases List.mem_cons.mp hm with same | hm
    · cases same
      exact Nat.lt_succ_self iid
    · exact Nat.lt_succ_of_lt (h.delivered i v hm)
  works := by
    refine worksAhead_cons h.works ?_
    rintro i (⟨b, h⟩ | ⟨b, v, h⟩) <;> cases h

theorem KeepsUp.deliver {iid : ℕ} (h : KeepsUp cfg iid s) (pos : iid ≠ 0)
    (found : (s.proposerState (cfg.proIndex iid)).iid = iid) {value : Value}
    (done : leaderDeliver cfg clock (s.log (.delivered iid value)) value iid = .running t) :
    KeepsUp cfg (iid + 1) t := by
  unfold leaderDeliver at done
  have here : ((s.log (.delivered iid value)).proposerState (cfg.proIndex iid)).iid = iid := found
  simp only [here, ne_eq, not_true_eq_false, if_false] at done
  exact ((h.clearDelivered pos found value _).openInstancesP2New clock done).1

theorem Ahead.init (h : Ahead cfg s.currentIid 0 s) {timeNow : Timeval} (pos : 0 < s.currentIid)
    (done : leaderInit cfg clock timeNow s = .running t) :
    KeepsUp cfg s.currentIid t ∧ t.currentIid = s.currentIid := by
  obtain ⟨u, checked, last⟩ := Outcome.bind_eq_running.mp done
  cases last
  have reset : Quiet s (leaderResetP1 s) := .of_eq rfl rfl rfl rfl rfl
  have start : Ahead cfg s.currentIid (leaderResetP1 s).p1Info.highestOpen (leaderResetP1 s) :=
    (h.weaken (le_refl _) (Nat.zero_le _) h.delivered).moves reset.moves
  have above : s.currentIid ≤ (leaderResetP1 s).p1Info.highestOpen + 1 := by
    simp only [leaderResetP1]
    omega
  obtain ⟨ahead, current, -, grown⟩ := start.periodicP1Check clock above checked
  have current : u.currentIid = s.currentIid := current
  have counted : Quiet u (leaderResetP2 u) := .of_eq rfl rfl rfl rfl rfl
  refine ⟨⟨ahead.moves counted.moves, ?_, ?_⟩, current⟩
  · exact current.ge
  · change u.currentIid ≤ u.p1Info.highestOpen + 1
    omega

theorem run_leaderDropInstance (iids : List ℕ) (slot : ℕ)
    (busy : ((run (leaderDropInstance cfg) s iids).proposerState slot).status ≠ .empty) :
    (run (leaderDropInstance cfg) s iids).proposerState slot = s.proposerState slot ∧
      ∀ i ∈ iids, cfg.proIndex i ≠ slot := by
  induction iids generalizing s with
  | nil => exact ⟨rfl, fun _ h => nomatch h⟩
  | cons i iids ih =>
    obtain ⟨same, others⟩ := ih busy
    rw [run_cons, same] at busy ⊢
    simp only [leaderDropInstance, LeaderState.withSlot, LeaderState.withValues,
      setSlot_apply] at busy ⊢
    split_ifs at busy ⊢ with here
    · exact absurd rfl busy
    · exact ⟨rfl, List.forall_mem_cons.mpr ⟨fun eq => here eq.symm, others⟩⟩

theorem KeepsUp.shutdown (h : KeepsUp cfg s.currentIid s) :
    Ahead cfg s.currentIid 0 (leaderShutdown cfg s) := by
  have ahead := h.ahead.moves (leaderShutdown_moves s fun _ => trivial)
  refine { ahead with held := ?_ }
  intro slot busy
  exfalso
  obtain ⟨same, others⟩ := run_leaderDropInstance _ slot busy
  have here : (leaderShutdown cfg s).proposerState slot = s.proposerState slot := same
  rw [here] at busy
  obtain ⟨home, above, below⟩ := h.ahead.held slot busy
  exact others _ (List.mem_range'_1.mpr ⟨above, by omega⟩) home

theorem leaderShutdown_currentIid : (leaderShutdown cfg s).currentIid = s.currentIid := by
  have kept (iids : List ℕ) :
      (run (leaderDropInstance cfg) s iids).currentIid = s.currentIid :=
    run_invariant (fun u : LeaderState => u.currentIid = s.currentIid) rfl fun u i same => same
  exact kept _

end KeepsUp

section Process

variable {p q : ProposerState}

structure LeaderPart (cfg : Config) (p : ProposerState) : Prop where
  current_pos : 0 < p.leader.currentIid
  leading : p.LeaderIsMe → KeepsUp cfg p.leader.currentIid p.leader
  resting : ¬ p.LeaderIsMe → Ahead cfg p.leader.currentIid 0 p.leader

/-- Between events the learner and the leader wait for the same instance. -/
structure ProposerKeepsUp (cfg : Config) (p : ProposerState) : Prop where
  part : LeaderPart cfg p
  sound : LearnerSound cfg p.learner
  opened : CurrentOpen cfg p.learner
  current : p.leader.currentIid = p.learner.currentIid

def FindsDelivered (cfg : Config) (p : ProposerState) (d : Delivery) : Prop :=
  p.LeaderIsMe → (p.leader.proposerState (cfg.proIndex d.iid)).iid = d.iid

instance (p : ProposerState) (d : Delivery) : Decidable (FindsDelivered cfg p d) :=
  inferInstanceAs (Decidable (_ → _))

/-- Every delivery of a run of the learner's loop is found, as long as the process runs. -/
def DeliveriesFound (cfg : Config) (clock : ℕ → Timeval) : ProposerState → List Delivery → Prop
  | _, [] => True
  | p, d :: ds => FindsDelivered cfg p d ∧
    match proDeliverCallback cfg clock p d with
    | .running q => DeliveriesFound cfg clock q ds
    | .aborted _ _ => True

instance DeliveriesFound.decidable (cfg : Config) (clock : ℕ → Timeval) :
    ∀ p ds, Decidable (DeliveriesFound cfg clock p ds)
  | _, [] => isTrue trivial
  | p, d :: ds =>
    haveI : Decidable (match proDeliverCallback cfg clock p d with
        | .running q => DeliveriesFound cfg clock q ds
        | .aborted _ _ => True) :=
      match proDeliverCallback cfg clock p d with
      | .running q => DeliveriesFound.decidable cfg clock q ds
      | .aborted _ _ => isTrue trivial
    inferInstanceAs (Decidable (FindsDelivered cfg p d ∧ _))

theorem LeaderPart.led (current_pos : 0 < p.leader.currentIid) (leads : p.LeaderIsMe)
    (h : KeepsUp cfg p.leader.currentIid p.leader) : LeaderPart cfg p :=
  ⟨current_pos, fun _ => h, fun rests => absurd leads rests⟩

theorem LeaderPart.rested (current_pos : 0 < p.leader.currentIid) (rests : ¬ p.LeaderIsMe)
    (h : Ahead cfg p.leader.currentIid 0 p.leader) : LeaderPart cfg p :=
  ⟨current_pos, fun leads => absurd leads rests, fun _ => h⟩

theorem proDeliverCallback_keepsUp (clock : ℕ → Timeval) {d : Delivery} (h : LeaderPart cfg p)
    (here : d.iid = p.leader.currentIid) (found : FindsDelivered cfg p d)
    (done : proDeliverCallback cfg clock p d = .running q) :
    LeaderPart cfg q ∧ q.leader.currentIid = d.iid + 1 ∧ q.learner = p.learner := by
  have pos := h.current_pos
  unfold proDeliverCallback at done
  dsimp only at done
  by_cases leads : p.LeaderIsMe
  · rw [if_pos leads] at done
    cases handled : leaderDeliver cfg clock (p.leader.log (.delivered d.iid d.value))
        d.value d.iid with
    | aborted fault l =>
      rw [handled] at done
      cases done
    | running l =>
      rw [handled] at done
      cases done
      have before : KeepsUp cfg d.iid p.leader := here ▸ h.leading leads
      have kept := before.deliver clock (by omega) (found leads) handled
      have advanced : Quiet l (leaderDelivered d.iid l) := .of_eq rfl rfl rfl rfl rfl
      have moves : Moves cfg (AckCondition.only fun _ _ _ => True) _ l :=
        (leaderDeliver_moves clock _ d.value d.iid fun _ => trivial).of_running handled
      have still : l.thisProposerId = p.leader.thisProposerId := moves.thisProposerId
      refine ⟨.led (Nat.succ_pos _) (still.trans leads) ?_, rfl, rfl⟩
      exact ⟨kept.ahead.moves advanced.moves, kept.unused_ge, kept.unused_le⟩
  · rw [if_neg leads] at done
    cases done
    have before : Ahead cfg d.iid 0 p.leader := here ▸ h.resting leads
    exact ⟨.rested (Nat.succ_pos _) leads (before.restDelivered (by omega) d.value), rfl, rfl⟩

theorem deliveries_keepUp (clock : ℕ → Timeval) (ds : List Delivery) (h : LeaderPart cfg p)
    (consecutive : ds.map Delivery.iid = List.range' p.leader.currentIid ds.length)
    (found : DeliveriesFound cfg clock p ds)
    (done : Outcome.fold (proDeliverCallback cfg clock) p ds = .running q) :
    LeaderPart cfg q ∧ q.leader.currentIid = p.leader.currentIid + ds.length ∧
      q.learner = p.learner := by
  induction ds generalizing p with
  | nil =>
    cases done
    exact ⟨h, rfl, rfl⟩
  | cons d ds ih =>
    obtain ⟨r, first, rest⟩ := Outcome.bind_eq_running.mp done
    rw [List.map_cons, List.length_cons, List.range'_succ] at consecutive
    obtain ⟨here, tail⟩ := List.cons.inj consecutive
    obtain ⟨found, later⟩ := found
    rw [first] at later
    obtain ⟨part, current, learner⟩ := proDeliverCallback_keepsUp clock h here found first
    rw [here] at current
    obtain ⟨part', current', learner'⟩ := ih part (by rw [tail, current]) later rest
    refine ⟨part', ?_, learner'.trans learner⟩
    rw [current', current, List.length_cons]
    omega

/-- A condition on the deliveries that an event releases: each is found by the leader. -/
def EventFinds (cfg : Config) (p : ProposerState) : ProposerEvent → Prop
  | .acceptAcks acceptorId acks clock =>
    match Paxos2Learner.handleAcceptAckBatch cfg p.learner acceptorId acks with
    | .running (learner, ds) => DeliveriesFound cfg clock { p with learner := learner } ds
    | .aborted _ _ => True
  | _ => True

def StepFinds (cfg : Config) (o : ProposerOutcome) (e : ProposerEvent) : Prop :=
  match o with
  | .running p => EventFinds cfg p e
  | .aborted _ _ => True

instance (o : ProposerOutcome) (e : ProposerEvent) : Decidable (StepFinds cfg o e) :=
  match o with
  | .aborted _ _ => isTrue trivial
  | .running p =>
    match e with
    | .acceptAcks acceptorId acks clock =>
      match h : Paxos2Learner.handleAcceptAckBatch cfg p.learner acceptorId acks with
      | .running (learner, ds) =>
        decidable_of_iff (DeliveriesFound cfg clock { p with learner := learner } ds)
          (by simp [StepFinds, EventFinds, h])
      | .aborted _ _ => isTrue (by simp [StepFinds, EventFinds, h])
    | .submit _ | .leaderAnnounce _ _ _ | .p1Check _ _ | .p2Check _ _ | .prepareAcks _ _ _
    | .holeCheck => isTrue trivial

theorem ProposerKeepsUp.led (h : ProposerKeepsUp cfg p) (leads : p.LeaderIsMe) {l : LeaderState}
    (kept : KeepsUp cfg p.leader.currentIid l) (current : l.currentIid = p.leader.currentIid)
    (moves : Moves cfg (AckCondition.only fun _ _ _ => True) p.leader l) :
    ProposerKeepsUp cfg { p with leader := l } where
  part := .led (current ▸ h.part.current_pos) (moves.thisProposerId.trans leads) (current ▸ kept)
  sound := h.sound
  opened := h.opened
  current := current.trans h.current

theorem proHandleLeaderAnnounce_keepsUp (h : ProposerKeepsUp cfg p) (clock : ℕ → Timeval)
    (timeNow : Timeval) (currentLeader : ℕ)
    (done : proHandleLeaderAnnounce cfg clock timeNow currentLeader p = .running q) :
    ProposerKeepsUp cfg q := by
  have pos := h.part.current_pos
  unfold proHandleLeaderAnnounce at done
  dsimp only at done
  split_ifs at done with stepDown stepUp
  · obtain ⟨leads, other⟩ := stepDown
    cases done
    have current : (leaderShutdown cfg p.leader).currentIid = p.leader.currentIid :=
      leaderShutdown_currentIid
    have moves : Moves cfg (AckCondition.only fun _ _ _ => True) p.leader
        (leaderShutdown cfg p.leader) := leaderShutdown_moves p.leader fun _ => trivial
    refine ⟨.rested (current ▸ pos) ?_ ?_, h.sound, h.opened, current.trans h.current⟩
    · exact fun leads => other (moves.thisProposerId.symm.trans leads).symm
    · exact current ▸ (h.part.leading leads).shutdown
  · obtain ⟨rests, me⟩ := stepUp
    obtain ⟨r, first, last⟩ := Outcome.bind_eq_running.mp done
    obtain ⟨l, promoted, rfl⟩ := withLeader_eq_running.mp first
    cases last
    obtain ⟨kept, current⟩ := (h.part.resting rests).init clock pos promoted
    have moves : Moves cfg (AckCondition.only fun _ _ _ => True) p.leader l :=
      (leaderInit_moves clock timeNow p.leader fun _ => trivial).of_running promoted
    refine ⟨.led (current ▸ pos) (moves.thisProposerId.trans me.symm) (current ▸ kept), h.sound,
      h.opened, current.trans h.current⟩
  · cases done
    refine ⟨⟨pos, fun leads => ?_, fun rests => ?_⟩, h.sound, h.opened, h.current⟩
    · refine h.part.leading (by_contra fun rests => stepUp ⟨rests, leads.symm⟩)
    · refine h.part.resting fun leads => stepDown ⟨leads, fun me => rests me.symm⟩

theorem handlePrepareAckBatch_keepsUp (h : ProposerKeepsUp cfg p) (clock : ℕ → Timeval)
    (acceptorId : ℕ) (acks : List PrepareAck)
    (done : handlePrepareAckBatch cfg clock acceptorId acks p = .running q) :
    ProposerKeepsUp cfg q := by
  have moves : Moves cfg (AckCondition.only fun _ _ _ => True) p.leader
      (handlePrepareAckBatch cfg clock acceptorId acks p).state.leader :=
    handlePrepareAckBatch_moves clock acceptorId acks p fun _ =>
      along_of_mem fun _ _ _ => trivial
  rw [done] at moves
  have counted : indices (handlePrepareAcks cfg acceptorId p.leader acks).1 = indices p.leader :=
    handlePrepareAcks_indices acceptorId acks
  simp only [indices, Prod.mk.injEq] at counted
  unfold handlePrepareAckBatch at done
  dsimp only at done
  split_ifs at done with leads ready
  · have kept := (h.part.leading leads).prepareAcks acceptorId acks
    obtain ⟨l, opened, rfl⟩ := withLeader_eq_running.mp done
    obtain ⟨u, expired, new⟩ := Outcome.bind_eq_running.mp opened
    obtain ⟨kept', current⟩ :=
      (kept.openInstancesP2Expired clock expired).openInstancesP2New clock new
    have same := leaderOpenInstancesP2Expired_indices clock expired
    simp only [indices, Prod.mk.injEq] at same
    exact h.led leads kept' (current.trans (same.1.trans counted.1)) moves
  · cases done
    exact h.led leads ((h.part.leading leads).prepareAcks acceptorId acks) counted.1 moves
  · cases done
    exact h

theorem proHandleAcceptAckBatch_keepsUp (h : ProposerKeepsUp cfg p) (clock : ℕ → Timeval)
    (acceptorId : ℕ) (acks : List AcceptAck)
    (found : EventFinds cfg p (.acceptAcks acceptorId acks clock))
    (done : proHandleAcceptAckBatch cfg clock acceptorId acks p = .running q) :
    ProposerKeepsUp cfg q := by
  have before : LearnerGood cfg (fun _ => True) p.learner.currentIid p.learner [] :=
    learnerGood_of_sound h.sound h.opened fun _ _ => trivial
  obtain ⟨ls, ds, handled, good⟩ :=
    before.batch acceptorId acks (along_takes _ _ fun _ _ _ _ => trivial)
  unfold proHandleAcceptAckBatch at done
  rw [handled] at done
  simp only [EventFinds, handled] at found
  have part : LeaderPart cfg { p with learner := ls } :=
    ⟨h.part.current_pos, h.part.leading, h.part.resting⟩
  have consecutive : ds.map Delivery.iid = List.range' p.leader.currentIid ds.length := by
    rw [h.current]
    exact good.consecutive
  obtain ⟨part', current, learner⟩ := deliveries_keepUp clock ds part consecutive found done
  have current : q.leader.currentIid = p.leader.currentIid + ds.length := current
  have learner : q.learner = ls := learner
  refine ⟨part', learner ▸ good.sound, learner ▸ good.opened, ?_⟩
  rw [current, learner, good.current, h.current]

theorem proposerHandle_keepsUp (h : ProposerKeepsUp cfg p) (e : ProposerEvent)
    (found : EventFinds cfg p e) (done : proposerHandle cfg p e = .running q) :
    ProposerKeepsUp cfg q := by
  have pos := h.part.current_pos
  cases e with
  | submit value =>
    cases done
    have enqueued (vh : ValuesHandler) : Quiet p.leader { p.leader with valuesHandler := vh } :=
      .of_eq rfl rfl rfl rfl rfl
    refine ⟨⟨pos, fun leads => ?_, fun rests => ?_⟩, h.sound, h.opened, h.current⟩
    · exact (h.part.leading leads).same (enqueued _).moves rfl
    · exact (h.part.resting rests).moves (enqueued _).moves
  | leaderAnnounce currentLeader clock timeNow =>
    exact proHandleLeaderAnnounce_keepsUp h clock timeNow currentLeader done
  | p1Check clock timeNow =>
    unfold proposerHandle at done
    split_ifs at done with leads
    · obtain ⟨l, checked, rfl⟩ := withLeader_eq_running.mp done
      have before := h.part.leading leads
      obtain ⟨ahead, current, next, grown⟩ :=
        before.ahead.periodicP1Check clock (before.unused_ge.trans before.unused_le) checked
      have kept : KeepsUp cfg p.leader.currentIid l := by
        refine ⟨ahead, next ▸ before.unused_ge, ?_⟩
        rw [next]
        exact before.unused_le.trans (Nat.succ_le_succ grown)
      exact h.led leads kept current
        ((leaderPeriodicP1Check_moves clock timeNow p.leader fun _ => trivial).of_running checked)
    · cases done
      exact h
  | p2Check clock timeNow =>
    unfold proposerHandle at done
    split_ifs at done with leads
    · obtain ⟨l, checked, rfl⟩ := withLeader_eq_running.mp done
      obtain ⟨kept, current⟩ := (h.part.leading leads).periodicP2Check clock _ checked
      exact h.led leads kept current
        ((leaderPeriodicP2Check_moves clock _ timeNow p.leader).of_running checked)
    · cases done
      exact h
  | prepareAcks acceptorId acks clock =>
    exact handlePrepareAckBatch_keepsUp h clock acceptorId acks done
  | acceptAcks acceptorId acks clock =>
    exact proHandleAcceptAckBatch_keepsUp h clock acceptorId acks found done
  | holeCheck =>
    cases done
    obtain ⟨current, slots⟩ := leaHoleCheck_frame cfg p.learner
    refine ⟨⟨pos, h.part.leading, h.part.resting⟩, ⟨?_, ?_⟩, ?_, h.current.trans current.symm⟩
    · exact current ▸ h.sound.current_pos
    · intro slot
      rw [current, slots]
      exact h.sound.slots slot
    · unfold CurrentOpen
      rw [current, slots]
      exact h.opened

theorem ahead_initProStructs (cfg : Config) (proposerId : ℕ) :
    Ahead cfg 1 0 (initProStructs proposerId) where
  held := fun _ busy => absurd rfl busy
  unused := fun _ _ => rfl
  delivered := fun _ _ h => nomatch h
  works := by
    rintro i older (⟨b, h⟩ | ⟨b, v, h⟩)
    · exact absurd (List.suffix_nil.mp h) (List.cons_ne_nil _ _)
    · exact absurd (List.suffix_nil.mp h) (List.cons_ne_nil _ _)

theorem proposerInit_keepsUp (cfg : Config) (clock : ℕ → Timeval) (timeNow : Timeval)
    (proposerId : ℕ) (done : proposerInit cfg clock timeNow proposerId = .running p) :
    ProposerKeepsUp cfg p := by
  have blank := ahead_initProStructs cfg proposerId
  unfold proposerInit at done
  dsimp only at done
  split_ifs at done with leads
  · obtain ⟨l, promoted, rfl⟩ := withLeader_eq_running.mp done
    have blank : Ahead cfg (initProStructs proposerId).currentIid 0 (initProStructs proposerId) :=
      blank
    obtain ⟨kept, current⟩ := blank.init clock Nat.one_pos promoted
    have moves : Moves cfg (AckCondition.only fun _ _ _ => True) (initProStructs proposerId) l :=
      (leaderInit_moves clock timeNow _ fun _ => trivial).of_running promoted
    exact ⟨.led (current ▸ Nat.one_pos) (moves.thisProposerId.trans leads) (current ▸ kept),
      learnerSound_init, rfl, current⟩
  · cases done
    exact ⟨.rested Nat.one_pos leads blank, learnerSound_init, rfl, rfl⟩

end Process

/-- In every run of a proposer in which the leader finds each instance delivered to it,
the leader's indices stay ahead of the deliveries, and no phase is opened for an
instance delivered before. -/
theorem leader_keeps_up (cfg : Config) (clock : ℕ → Timeval) (timeNow : Timeval)
    (proposerId : ℕ) (events : List ProposerEvent)
    (found : Along (proposerStep cfg) (StepFinds cfg) (proposerInit cfg clock timeNow proposerId)
      events) :
    ∀ p, run (proposerStep cfg) (proposerInit cfg clock timeNow proposerId) events = .running p →
      (p.LeaderIsMe →
        p.leader.currentIid ≤ p.leader.p2Info.nextUnusedIid ∧
          p.leader.p2Info.nextUnusedIid ≤ p.leader.p1Info.highestOpen + 1) ∧
      WorksAhead p.leader.trace := by
  have kept := Along.invariant
    (fun o : ProposerOutcome => ∀ p, o = .running p → ProposerKeepsUp cfg p)
    (fun p done => proposerInit_keepsUp cfg clock timeNow proposerId done)
    (fun o e h found q done => by
      obtain ⟨p, rfl, done⟩ := Outcome.bind_eq_running.mp done
      exact proposerHandle_keepsUp (h p rfl) e found done) found
  intro p done
  have h := kept p done
  refine ⟨fun leads => ?_, ?_⟩
  · have kept := h.part.leading leads
    exact ⟨kept.unused_ge, kept.unused_le⟩
  · by_cases leads : p.LeaderIsMe
    · exact (h.part.leading leads).ahead.works
    · exact (h.part.resting leads).works

/-- Acknowledgements by which another leader, at ballot 11, decided `n` instances. -/
def decidedElsewhere (acceptorId n : ℕ) : ProposerEvent :=
  .acceptAcks acceptorId ((List.range' 1 n).map fun i => ⟨i, 11, 11, false, [7]⟩) stillClock

/-- Two instances decided elsewhere, both of them open at the leader. -/
theorem leader_keeps_up_two :
    ∃ p, run (proposerStep .small) (proposerInit .small stillClock ⟨0, 0⟩ 0)
        [decidedElsewhere 0 2, decidedElsewhere 1 2] = .running p ∧
      (p.LeaderIsMe →
        p.leader.currentIid ≤ p.leader.p2Info.nextUnusedIid ∧
          p.leader.p2Info.nextUnusedIid ≤ p.leader.p1Info.highestOpen + 1) ∧
      WorksAhead p.leader.trace := by
  have running : (run (proposerStep .small) (proposerInit .small stillClock ⟨0, 0⟩ 0)
      [decidedElsewhere 0 2, decidedElsewhere 1 2]).IsRunning := by decide +kernel
  have done := Outcome.running_of_isRunning running
  exact ⟨_, done, leader_keeps_up .small stillClock ⟨0, 0⟩ 0 _ (by decide +kernel) _ done⟩

theorem not_keepsUp {o : ProposerOutcome}
    (behind : o.IsRunning ∧ o.state.LeaderIsMe ∧
      o.state.leader.p2Info.nextUnusedIid < o.state.leader.currentIid) :
    ¬ ∀ p, o = .running p →
      (p.LeaderIsMe →
        p.leader.currentIid ≤ p.leader.p2Info.nextUnusedIid ∧
          p.leader.p2Info.nextUnusedIid ≤ p.leader.p1Info.highestOpen + 1) ∧
      WorksAhead p.leader.trace := by
  obtain ⟨runs, leads, behind⟩ := behind
  cases o with
  | running p =>
    intro h
    exact absurd ((h p rfl).1 leads).1 (Nat.not_le.mpr behind)
  | aborted fault p => cases runs

/-- With five instances decided elsewhere, one more than the leader has open, its next
unused instance is left below the current one. -/
theorem leader_falls_behind :
    ¬ ∀ p, run (proposerStep .small) (proposerInit .small stillClock ⟨0, 0⟩ 0)
        [decidedElsewhere 0 5, decidedElsewhere 1 5] = .running p →
      (p.LeaderIsMe →
        p.leader.currentIid ≤ p.leader.p2Info.nextUnusedIid ∧
          p.leader.p2Info.nextUnusedIid ≤ p.leader.p1Info.highestOpen + 1) ∧
      WorksAhead p.leader.trace :=
  not_keepsUp (by decide +kernel)

end FdsPaxos.Paxos2LeaderIndices
