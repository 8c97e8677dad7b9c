import FdsPaxos.Paxos2Proposer

set_option autoImplicit false

namespace FdsPaxos.Paxos2LeaderMoves
open TransitionRuns CircularWindow Paxos2Config Paxos2Messages Paxos2SendBuffer
open Paxos2ValuesHandler Paxos2Learner Paxos2Leader Paxos2Proposer

/-- A step that touches neither slots nor history, and adds nothing to send. -/
structure Quiet (s s' : LeaderState) : Prop where
  proposerId : s'.thisProposerId = s.thisProposerId
  slots : s'.proposerState = s.proposerState
  trace : s'.trace = s.trace
  prepares : ∀ P, s.prepareBuf.All P → s'.prepareBuf.All P
  accepts : ∀ P, s.acceptBuf.All P → s'.acceptBuf.All P

/-- The slot that phase 2 runs with: a phase 1 value, if any, has become its value. -/
def withP2Value (ii : PInstInfo) (value : Value) : PInstInfo :=
  { ii with
    p2Value := some value
    p1Value := none
    p1ValueBallot := if ii.p1Value.isSome then 0 else ii.p1ValueBallot }

abbrev AckCondition := LeaderState → ℕ → PrepareAck → Prop

/-- What is known of the promises handled, the instances opened, the slots cleared and
the instances delivered. -/
structure MoveCondition where
  ack : AckCondition
  opens : ℕ → Prop
  clears : ℕ → Prop
  delivers : ℕ → Value → Prop

def AckCondition.only (C : AckCondition) : MoveCondition where
  ack := C
  opens := fun _ => True
  clears := fun _ => True
  delivers := fun _ _ => True

inductive Move (cfg : Config) (C : MoveCondition) : LeaderState → LeaderState → Prop where
  | quiet {s s' : LeaderState} (h : Quiet s s') : Move cfg C s s'
  | openP1 (s : LeaderState) (clock : ℕ → Timeval) (iid : ℕ) (allowed : C.opens iid)
      (free : (s.proposerState (cfg.proIndex iid)).status = .empty) :
      Move cfg C s (leaderSendPrepare cfg clock s (cfg.proIndex iid)
        { s.proposerState (cfg.proIndex iid) with
          iid := iid
          status := .p1Pending
          myBallot := cfg.firstBallot s.thisProposerId })
  | retryP1 (s : LeaderState) (clock : ℕ → Timeval) (slot : ℕ)
      (pending : (s.proposerState slot).status = .p1Pending) :
      Move cfg C s (leaderSendPrepare cfg clock s slot (retryPhase1 cfg (s.proposerState slot)))
  | restartP1 (s : LeaderState) (clock : ℕ → Timeval) (slot : ℕ)
      (pending : (s.proposerState slot).status = .p2Pending) :
      Move cfg C s (leaderSendPrepare cfg clock s slot (restartPhase1 cfg (s.proposerState slot)))
  | complete (s : LeaderState) (slot : ℕ)
      (pending : (s.proposerState slot).status = .p2Pending) :
      Move cfg C s (s.withSlot slot { s.proposerState slot with status := .p2Completed })
  | executeP2 (s : LeaderState) (clock : ℕ → Timeval) (slot : ℕ) (value : Value)
      (ready : (s.proposerState slot).status = .p1Ready)
      (chosen : (s.proposerState slot).p1Value = none ∨
        (s.proposerState slot).p1Value = some value) :
      Move cfg C s
        (leaderSendAccept cfg clock s slot (withP2Value (s.proposerState slot) value) value)
  | ack (s : LeaderState) (acceptorId : ℕ) (pa : PrepareAck) (met : C.ack s acceptorId pa) :
      Move cfg C s (handlePrepareAck cfg acceptorId s pa).1
  | clear (s : LeaderState) (slot : ℕ) (allowed : C.clears slot) :
      Move cfg C s (s.withSlot slot (proClearInstanceInfo (s.proposerState slot)))
  | delivered (s : LeaderState) (iid : ℕ) (value : Value) (allowed : C.delivers iid value) :
      Move cfg C s (s.log (.delivered iid value))

def Moves (cfg : Config) (C : MoveCondition) : LeaderState → LeaderState → Prop :=
  Relation.ReflTransGen (Move cfg C)

variable {cfg : Config} {C : MoveCondition} {s t u : LeaderState}

theorem Moves.refl (s : LeaderState) : Moves cfg C s s := Relation.ReflTransGen.refl

theorem Moves.trans (h : Moves cfg C s t) (h' : Moves cfg C t u) : Moves cfg C s u :=
  Relation.ReflTransGen.trans h h'

theorem Move.moves (h : Move cfg C s t) : Moves cfg C s t := .single h

theorem Quiet.moves (h : Quiet s t) : Moves cfg C s t := .single (.quiet h)

theorem Moves.of_running {o : LeaderOutcome} (h : Moves cfg C s o.state) (done : o = .running t) :
    Moves cfg C s t := by
  rw [done] at h
  exact h

theorem Moves.invariant (I : LeaderState → Prop) (kept : ∀ s t, I s → Move cfg C s t → I t)
    (h : Moves cfg C s t) (start : I s) : I t := by
  induction h with
  | refl => exact start
  | tail _ move ih => exact kept _ _ ih move

theorem Move.mono (h : Move cfg C s t) (C' : MoveCondition)
    (acks : ∀ s a pa, C.ack s a pa → C'.ack s a pa) (opens : ∀ i, C.opens i → C'.opens i)
    (clears : ∀ slot, C.clears slot → C'.clears slot)
    (delivers : ∀ i v, C.delivers i v → C'.delivers i v) : Move cfg C' s t := by
  cases h with
  | quiet quiet => exact .quiet quiet
  | openP1 clock iid allowed free => exact .openP1 s clock iid (opens iid allowed) free
  | retryP1 clock slot pending => exact .retryP1 s clock slot pending
  | restartP1 clock slot pending => exact .restartP1 s clock slot pending
  | complete slot pending => exact .complete s slot pending
  | executeP2 clock slot value ready chosen => exact .executeP2 s clock slot value ready chosen
  | ack a pa met => exact .ack s a pa (acks s a pa met)
  | clear slot allowed => exact .clear s slot (clears slot allowed)
  | delivered iid value allowed => exact .delivered s iid value (delivers iid value allowed)

theorem Moves.mono (h : Moves cfg C s t) (C' : MoveCondition)
    (acks : ∀ s a pa, C.ack s a pa → C'.ack s a pa) (opens : ∀ i, C.opens i → C'.opens i)
    (clears : ∀ slot, C.clears slot → C'.clears slot)
    (delivers : ∀ i v, C.delivers i v → C'.delivers i v) : Moves cfg C' s t := by
  induction h with
  | refl => exact .refl s
  | tail _ move ih => exact ih.trans (move.mono C' acks opens clears delivers).moves

section Routines

variable (clock : ℕ → Timeval)

theorem quiet_clearPrepareBuf (s : LeaderState) : Quiet s (clearPrepareBuf s) :=
  ⟨rfl, rfl, rfl, fun _ h => h.clear, fun _ h => h⟩

theorem quiet_flushPrepareBuf (s : LeaderState) : Quiet s (flushPrepareBuf s) :=
  ⟨rfl, rfl, rfl, fun _ h => h.flush, fun _ h => h⟩

theorem quiet_clearAcceptBuf (s : LeaderState) : Quiet s (clearAcceptBuf s) :=
  ⟨rfl, rfl, rfl, fun _ h => h, fun _ h => h.clear⟩

theorem quiet_flushAcceptBuf (s : LeaderState) : Quiet s (flushAcceptBuf s) :=
  ⟨rfl, rfl, rfl, fun _ h => h, fun _ h => h.flush⟩

theorem Quiet.of_eq (h : t.thisProposerId = s.thisProposerId)
    (h₁ : t.proposerState = s.proposerState) (h₂ : t.trace = s.trace)
    (h₃ : t.prepareBuf = s.prepareBuf) (h₄ : t.acceptBuf = s.acceptBuf) : Quiet s t :=
  ⟨h, h₁, h₂, fun _ h => h₃ ▸ h, fun _ h => h₄ ▸ h⟩

theorem Moves.bind {o : LeaderOutcome} {f : LeaderState → LeaderOutcome}
    (first : Moves cfg C s o.state) (second : ∀ t, Moves cfg C t (f t).state) :
    Moves cfg C s (o.bind f).state :=
  Outcome.bind_state (R := Moves cfg C) (fun _ _ _ => Moves.trans) first second

theorem Moves.fold {ε : Type} {f : LeaderState → ε → LeaderOutcome} (s : LeaderState)
    (es : List ε) (turn : ∀ e ∈ es, ∀ s, Moves cfg C s (f s e).state) :
    Moves cfg C s (Outcome.fold f s es).state :=
  Outcome.fold_state (R := Moves cfg C) .refl (fun _ _ _ => Moves.trans) s es turn

theorem Moves.run {ε : Type} {f : LeaderState → ε → LeaderState}
    (turn : ∀ s e, Moves cfg C s (f s e)) (s : LeaderState) (es : List ε) :
    Moves cfg C s (run f s es) := by
  induction es generalizing s with
  | nil => exact .refl s
  | cons e es ih => exact (turn s e).trans (ih (f s e))

theorem leaderCheckP1Pending_moves (timeNow : Timeval) (s : LeaderState) :
    Moves cfg C s (leaderCheckP1Pending cfg clock timeNow s).state := by
  unfold leaderCheckP1Pending
  rw [Outcome.state_map]
  refine ((quiet_clearPrepareBuf s).moves.trans (Moves.fold _ _ ?_)).trans
    (quiet_flushPrepareBuf _).moves
  intro iid _ s
  unfold leaderCheckP1Instance
  dsimp only
  split_ifs with same expired
  · exact (Move.retryP1 s clock _ expired.1).moves
  · exact .refl s
  · exact .refl s

def OpensAllowed (cfg : Config) (C : MoveCondition) (s : LeaderState) : Prop :=
  ∀ iid, s.p1Info.highestOpen < iid → iid ≤ s.p1Info.highestOpen + leaderToOpen cfg s →
    C.opens iid

theorem leaderOpenInstancesP1_moves (s : LeaderState) (allowed : OpensAllowed cfg C s) :
    Moves cfg C s (leaderOpenInstancesP1 cfg clock s).state := by
  unfold leaderOpenInstancesP1
  split_ifs
  · exact .refl s
  · exact .refl s
  · dsimp only
    split_ifs
    · exact (quiet_clearPrepareBuf s).moves
    · refine .bind ((quiet_clearPrepareBuf s).moves.trans (Moves.fold _ _ ?_)) ?_
      · intro iid range t
        obtain ⟨low, high⟩ := List.mem_range'_1.mp range
        have allowed : C.opens iid := by
          refine allowed iid low ?_
          change iid < s.p1Info.highestOpen + 1 + leaderToOpen cfg s at high
          omega
        unfold leaderOpenInstanceP1
        dsimp only
        split_ifs with free
        · exact (Move.openP1 t clock iid allowed free).moves
        · exact .refl t
      · intro t
        have counted (toOpen : ℕ) :
            Quiet (flushPrepareBuf t) (leaderAddOpened toOpen (flushPrepareBuf t)) :=
          .of_eq rfl rfl rfl rfl rfl
        exact (quiet_flushPrepareBuf t).moves.trans (counted _).moves

theorem leaderPeriodicP1Check_moves (timeNow : Timeval) (s : LeaderState)
    (allowed : ∀ i, C.opens i) :
    Moves cfg C s (leaderPeriodicP1Check cfg clock timeNow s).state :=
  .bind (leaderCheckP1Pending_moves clock timeNow s) fun t =>
    leaderOpenInstancesP1_moves clock t fun i _ _ => allowed i

/-- Phase 2 runs with the phase 1 value if there is one, else with the value the slot
already has, else with the next pending one; without any of these it stops. -/
theorem leaderExecuteP2_cases (cfg : Config) (s : LeaderState) (slot : ℕ) :
    leaderExecuteP2 cfg clock s slot = .aborted .noPendingValue s ∨
    ∃ vh value,
      ((s.proposerState slot).p1Value = none ∨ (s.proposerState slot).p1Value = some value) ∧
      leaderExecuteP2 cfg clock s slot =
        .running (leaderSendAccept cfg clock (s.withValues vh) slot
          (withP2Value (s.proposerState slot) value) value) := by
  unfold leaderExecuteP2
  generalize s.proposerState slot = ii
  obtain ⟨iid, status, myBallot, bits, count, p1, p1Ballot, p2, timeout⟩ := ii
  cases p1 with
  | some value => exact .inr ⟨_, value, .inr rfl, rfl⟩
  | none =>
    cases p2 with
    | some value => exact .inr ⟨s.valuesHandler, value, .inl rfl, rfl⟩
    | none =>
      dsimp only
      cases vhGetNextPending s.valuesHandler with
      | none => exact .inl rfl
      | some popped => exact .inr ⟨popped.2, popped.1, .inl rfl, rfl⟩

theorem leaderExecuteP2_moves (s : LeaderState) (slot : ℕ)
    (ready : (s.proposerState slot).status = .p1Ready) :
    Moves cfg C s (leaderExecuteP2 cfg clock s slot).state := by
  rcases leaderExecuteP2_cases clock cfg s slot with stopped | ⟨vh, value, chosen, done⟩
  · rw [stopped]
    exact .refl s
  · rw [done]
    have values : Quiet s (s.withValues vh) := .of_eq rfl rfl rfl rfl rfl
    exact values.moves.trans (Move.executeP2 (s.withValues vh) clock slot value ready chosen).moves

theorem leaderOpenExpired_moves (iids : List ℕ) (count : UInt32) (s : LeaderState) :
    Moves cfg C s (leaderOpenExpired cfg clock iids count s).state.1 := by
  induction iids generalizing count s with
  | nil => exact .refl s
  | cons iid rest ih =>
    unfold leaderOpenExpired
    dsimp only
    split_ifs with same ready value
    · have first : Moves cfg C s (leaderExecuteP2 cfg clock s (cfg.proIndex iid)).state :=
        leaderExecuteP2_moves clock s _ ready
      cases done : leaderExecuteP2 cfg clock s (cfg.proIndex iid) with
      | running t =>
        rw [done] at first
        exact first.trans (ih (count + 1) t)
      | aborted fault t =>
        rw [done] at first
        exact first
    · exact .refl s
    · exact ih count s
    · exact .refl s

theorem leaderOpenInstancesP2Expired_moves (s : LeaderState) :
    Moves cfg C s (leaderOpenInstancesP2Expired cfg clock s).state := by
  unfold leaderOpenInstancesP2Expired
  have loop (iids : List ℕ) : Moves cfg C (clearAcceptBuf s)
      (leaderOpenExpired cfg clock iids 0 (clearAcceptBuf s)).state.1 :=
    leaderOpenExpired_moves clock iids 0 _
  replace loop := loop (List.range' s.currentIid (s.p2Info.nextUnusedIid - s.currentIid))
  refine (quiet_clearAcceptBuf s).moves.trans ?_
  revert loop
  generalize leaderOpenExpired cfg clock _ 0 (clearAcceptBuf s) = o
  intro loop
  cases o with
  | running r =>
    have counted : Quiet r.1 (leaderTakeReady r.1 r.2) := .of_eq rfl rfl rfl rfl rfl
    exact loop.trans (counted.moves.trans (quiet_flushAcceptBuf _).moves)
  | aborted fault r => exact loop

theorem leaderOpenNew_moves (turns : ℕ) (count : UInt32) (s : LeaderState) :
    Moves cfg C s (leaderOpenNew cfg clock turns count s).state.1 := by
  induction turns generalizing count s with
  | zero => exact .refl s
  | succ turns ih =>
    unfold leaderOpenNew
    dsimp only
    split_ifs with value idle notReady
    · exact .refl s
    · exact .refl s
    · exact .refl s
    · obtain ⟨ready, -⟩ := not_or.mp notReady
      have first : Moves cfg C s
          (leaderExecuteP2 cfg clock s (cfg.proIndex s.p2Info.nextUnusedIid)).state :=
        leaderExecuteP2_moves clock s _ (not_not.mp ready)
      cases done : leaderExecuteP2 cfg clock s (cfg.proIndex s.p2Info.nextUnusedIid) with
      | running t =>
        rw [done] at first
        have next : Quiet t (leaderUseNext t) := .of_eq rfl rfl rfl rfl rfl
        exact first.trans (next.moves.trans (ih (count + 1) (leaderUseNext t)))
      | aborted fault t =>
        rw [done] at first
        exact first

theorem leaderOpenInstancesP2New_moves (s : LeaderState) :
    Moves cfg C s (leaderOpenInstancesP2New cfg clock s).state := by
  unfold leaderOpenInstancesP2New
  dsimp only
  split_ifs
  · exact .refl s
  · have loop (turns : ℕ) : Moves cfg C (clearAcceptBuf s)
        (leaderOpenNew cfg clock turns 0 (clearAcceptBuf s)).state.1 :=
      leaderOpenNew_moves clock turns 0 _
    replace loop := loop (cfg.proposerP2Concurrency + 1 - s.p2Info.openCount.toNat)
    refine (quiet_clearAcceptBuf s).moves.trans ?_
    revert loop
    generalize leaderOpenNew cfg clock _ 0 (clearAcceptBuf s) = o
    intro loop
    cases o with
    | running r =>
      have counted : Quiet r.1 (leaderAddOpen (leaderTakeReady r.1 r.2) r.2) :=
        .of_eq rfl rfl rfl rfl rfl
      exact loop.trans (counted.moves.trans (quiet_flushAcceptBuf _).moves)
    | aborted fault r => exact loop

theorem leaderCheckP2_moves (isClosed : ℕ → Bool) (timeNow : Timeval) (s : LeaderState)
    (iids : List ℕ) :
    Moves cfg C s (run (leaderCheckP2Instance cfg clock isClosed timeNow) s iids) := by
  refine Moves.run ?_ s iids
  intro s iid
  unfold leaderCheckP2Instance
  dsimp only
  split_ifs with notPending closed expired
  · exact .refl s
  · have step : Move cfg C s _ := .complete s (cfg.proIndex iid) (not_not.mp notPending)
    have counted : Quiet (s.withSlot (cfg.proIndex iid)
        { s.proposerState (cfg.proIndex iid) with status := .p2Completed })
        (leaderComplete s (cfg.proIndex iid)) := .of_eq rfl rfl rfl rfl rfl
    exact step.moves.trans counted.moves
  · have step : Move cfg C s _ := .restartP1 s clock (cfg.proIndex iid) (not_not.mp notPending)
    have counted (t : LeaderState) : Quiet t (leaderAddPending t) := .of_eq rfl rfl rfl rfl rfl
    exact step.moves.trans (counted _).moves
  · exact .refl s

theorem leaderPeriodicP2Check_moves (isClosed : ℕ → Bool) (timeNow : Timeval) (s : LeaderState) :
    Moves cfg C s (leaderPeriodicP2Check cfg clock isClosed timeNow s).state :=
  ((quiet_clearPrepareBuf s).moves.trans (leaderCheckP2_moves clock isClosed timeNow _ _)).trans
    ((quiet_flushPrepareBuf _).moves.trans (leaderOpenInstancesP2New_moves clock _))

theorem leaderDeliver_moves (s : LeaderState) (value : Value) (iid : ℕ)
    (clears : ∀ slot, C.clears slot) :
    Moves cfg C s (leaderDeliver cfg clock s value iid).state := by
  unfold leaderDeliver
  dsimp only
  split_ifs
  · exact .refl s
  · refine Moves.trans ?_ (leaderOpenInstancesP2New_moves clock _)
    have settled (vh : ValuesHandler) : Quiet s ((leaderCountDelivered s
        (s.proposerState (cfg.proIndex iid)) iid).withValues vh) := .of_eq rfl rfl rfl rfl rfl
    exact (settled _).moves.trans (Move.clear _ (cfg.proIndex iid) (clears _)).moves

theorem leaderInit_moves (timeNow : Timeval) (s : LeaderState) (allowed : ∀ i, C.opens i) :
    Moves cfg C s (leaderInit cfg clock timeNow s).state := by
  have reset : Quiet s (leaderResetP1 s) := .of_eq rfl rfl rfl rfl rfl
  refine .bind (reset.moves.trans (leaderPeriodicP1Check_moves clock timeNow _ allowed)) ?_
  intro t
  have started : Quiet t (leaderResetP2 t) := .of_eq rfl rfl rfl rfl rfl
  exact started.moves

theorem leaderShutdown_moves (s : LeaderState) (clears : ∀ slot, C.clears slot) :
    Moves cfg C s (leaderShutdown cfg s) := by
  unfold leaderShutdown
  have values (s : LeaderState) (vh : ValuesHandler) : Quiet s (s.withValues vh) :=
    .of_eq rfl rfl rfl rfl rfl
  refine (Moves.run (f := leaderDropInstance cfg) ?_ _ _).trans (values _ _).moves
  intro s iid
  exact (values s _).moves.trans (Move.clear _ (cfg.proIndex iid) (clears _)).moves

end Routines

@[simp] theorem savePromiseValue_iid (ii : PInstInfo) (pa : PrepareAck) :
    (savePromiseValue ii pa).iid = ii.iid := by
  unfold savePromiseValue
  split_ifs <;> rfl

@[simp] theorem savePromiseValue_status (ii : PInstInfo) (pa : PrepareAck) :
    (savePromiseValue ii pa).status = ii.status := by
  unfold savePromiseValue
  split_ifs <;> rfl

@[simp] theorem savePromiseValue_myBallot (ii : PInstInfo) (pa : PrepareAck) :
    (savePromiseValue ii pa).myBallot = ii.myBallot := by
  unfold savePromiseValue
  split_ifs <;> rfl

@[simp] theorem savePromiseValue_promisesCount (ii : PInstInfo) (pa : PrepareAck) :
    (savePromiseValue ii pa).promisesCount = ii.promisesCount := by
  unfold savePromiseValue
  split_ifs <;> rfl

@[simp] theorem savePromiseValue_p2Value (ii : PInstInfo) (pa : PrepareAck) :
    (savePromiseValue ii pa).p2Value = ii.p2Value := by
  unfold savePromiseValue
  split_ifs <;> rfl

theorem savePromiseValue_cases (ii : PInstInfo) (pa : PrepareAck) :
    (savePromiseValue ii pa = ii ∧
      (pa.value.length = 0 ∨ pa.valueBallot ≤ ii.p1ValueBallot)) ∨
    (savePromiseValue ii pa =
        { ii with p1Value := some pa.value, p1ValueBallot := pa.valueBallot } ∧
      ii.p1ValueBallot < pa.valueBallot) := by
  unfold savePromiseValue
  split_ifs with empty lower same
  · exact .inl ⟨rfl, .inl empty⟩
  · exact .inl ⟨rfl, .inr lower⟩
  · exact .inr ⟨by rw [← same], Nat.not_le.mp lower⟩
  · exact .inr ⟨rfl, Nat.not_le.mp lower⟩

theorem proSavePrepareAck_cases (ii : PInstInfo) (pa : PrepareAck) (acceptorId : ℕ) :
    proSavePrepareAck ii pa acceptorId = ii ∨
    ∃ bits, proSavePrepareAck ii pa acceptorId =
      savePromiseValue
        { ii with promisesBitvector := bits, promisesCount := ii.promisesCount + 1 } pa := by
  unfold proSavePrepareAck
  split_ifs
  · exact .inl rfl
  · exact .inr ⟨_, rfl⟩

@[simp] theorem proSavePrepareAck_iid (ii : PInstInfo) (pa : PrepareAck) (a : ℕ) :
    (proSavePrepareAck ii pa a).iid = ii.iid := by
  rcases proSavePrepareAck_cases ii pa a with same | ⟨bits, saved⟩ <;> simp [*]

@[simp] theorem proSavePrepareAck_status (ii : PInstInfo) (pa : PrepareAck) (a : ℕ) :
    (proSavePrepareAck ii pa a).status = ii.status := by
  rcases proSavePrepareAck_cases ii pa a with same | ⟨bits, saved⟩ <;> simp [*]

@[simp] theorem proSavePrepareAck_myBallot (ii : PInstInfo) (pa : PrepareAck) (a : ℕ) :
    (proSavePrepareAck ii pa a).myBallot = ii.myBallot := by
  rcases proSavePrepareAck_cases ii pa a with same | ⟨bits, saved⟩ <;> simp [*]

@[simp] theorem proSavePrepareAck_p2Value (ii : PInstInfo) (pa : PrepareAck) (a : ℕ) :
    (proSavePrepareAck ii pa a).p2Value = ii.p2Value := by
  rcases proSavePrepareAck_cases ii pa a with same | ⟨bits, saved⟩ <;> simp [*]

theorem proSavePrepareAck_promisesCount_le (ii : PInstInfo) (pa : PrepareAck) (a : ℕ) :
    (proSavePrepareAck ii pa a).promisesCount ≤ ii.promisesCount + 1 := by
  rcases proSavePrepareAck_cases ii pa a with same | ⟨bits, saved⟩
  · rw [same]
    omega
  · simp [saved]

/-- A promise is dropped, counted, or completes phase 1 of its slot. -/
theorem handlePrepareAck_cases (cfg : Config) (a : ℕ) (s : LeaderState) (pa : PrepareAck) :
    handlePrepareAck cfg a s pa = (s.log (.received a pa), false) ∨
    (∃ ii, ii = s.proposerState (cfg.proIndex pa.iid) ∧
      ii.status = .p1Pending ∧ pa.ballot = ii.myBallot ∧
      (((proSavePrepareAck ii pa a).promisesCount < cfg.quorum ∧
          handlePrepareAck cfg a s pa =
            ((s.log (.received a pa)).withSlot (cfg.proIndex pa.iid) (proSavePrepareAck ii pa a),
              false)) ∨
        (cfg.quorum ≤ (proSavePrepareAck ii pa a).promisesCount ∧
          handlePrepareAck cfg a s pa =
            (leaderBecameReady (s.log (.received a pa)) (cfg.proIndex pa.iid)
              (proSavePrepareAck ii pa a), true)))) := by
  unfold handlePrepareAck
  dsimp only [LeaderState.log]
  split_ifs with notPending other below
  · exact .inl rfl
  · exact .inl rfl
  · exact .inr ⟨_, rfl, not_not.mp notPending, not_not.mp other, .inl ⟨below, rfl⟩⟩
  · exact .inr ⟨_, rfl, not_not.mp notPending, not_not.mp other, .inr ⟨Nat.not_lt.mp below, rfl⟩⟩

theorem Move.thisProposerId (h : Move cfg C s t) : t.thisProposerId = s.thisProposerId := by
  cases h with
  | quiet quiet => exact quiet.proposerId
  | ack a pa met =>
    rcases handlePrepareAck_cases cfg a s pa with
      dropped | ⟨_, _, _, _, ⟨_, done⟩ | ⟨_, done⟩⟩
    · rw [dropped]
      rfl
    · rw [done]
      rfl
    · rw [done]
      rfl
  | _ => rfl

theorem Move.trace_grows (h : Move cfg C s t) :
    (∀ e ∈ s.trace, e ∈ t.trace) ∧
      ∀ i v, .delivered i v ∈ t.trace → .delivered i v ∈ s.trace ∨ C.delivers i v := by
  have one {e : LeaderEvent} (added : t.trace = e :: s.trace)
      (new : ∀ i v, .delivered i v = e → C.delivers i v) :
      (∀ e ∈ s.trace, e ∈ t.trace) ∧
        ∀ i v, .delivered i v ∈ t.trace → .delivered i v ∈ s.trace ∨ C.delivers i v := by
    rw [added]
    refine ⟨fun _ h => List.mem_cons_of_mem _ h, fun i v hm => ?_⟩
    exact (List.mem_cons.mp hm).elim (fun same => .inr (new i v same)) .inl
  have none (same : t.trace = s.trace) :
      (∀ e ∈ s.trace, e ∈ t.trace) ∧
        ∀ i v, .delivered i v ∈ t.trace → .delivered i v ∈ s.trace ∨ C.delivers i v := by
    rw [same]
    exact ⟨fun _ h => h, fun _ _ h => .inl h⟩
  cases h with
  | quiet quiet => exact none quiet.trace
  | openP1 clock iid allowed free => exact one rfl fun _ _ h => nomatch h
  | retryP1 clock slot pending => exact one rfl fun _ _ h => nomatch h
  | restartP1 clock slot pending => exact one rfl fun _ _ h => nomatch h
  | complete slot pending => exact none rfl
  | executeP2 clock slot value ready chosen => exact one rfl fun _ _ h => nomatch h
  | ack a pa met =>
    rcases handlePrepareAck_cases cfg a s pa with
      dropped | ⟨ii, _, _, _, ⟨_, done⟩ | ⟨_, done⟩⟩
    · exact one (e := .received a pa) (by rw [dropped]; rfl) fun _ _ h => nomatch h
    · exact one (e := .received a pa) (by rw [done]; rfl) fun _ _ h => nomatch h
    · rw [done]
      refine ⟨fun _ h => List.mem_cons_of_mem _ (List.mem_cons_of_mem _ h), fun i v hm => .inl ?_⟩
      rcases List.mem_cons.mp hm with same | hm
      · cases same
      · rcases List.mem_cons.mp hm with same | hm
        · cases same
        · exact hm
  | clear slot _ => exact none rfl
  | delivered iid value allowed =>
    refine one rfl fun i v same => ?_
    cases same
    exact allowed

theorem Moves.trace_mono (h : Moves cfg C s t) {e : LeaderEvent} (old : e ∈ s.trace) :
    e ∈ t.trace :=
  h.invariant (fun u => e ∈ u.trace) (fun _ _ hm move => move.trace_grows.1 e hm) old

theorem Moves.delivered (h : Moves cfg C s t)
    (old : ∀ i v, .delivered i v ∈ s.trace → C.delivers i v) :
    ∀ i v, .delivered i v ∈ t.trace → C.delivers i v :=
  h.invariant (fun u => ∀ i v, .delivered i v ∈ u.trace → C.delivers i v)
    (fun _ _ old move i v hm => (move.trace_grows.2 i v hm).elim (old i v) id) old

theorem Moves.thisProposerId (h : Moves cfg C s t) : t.thisProposerId = s.thisProposerId :=
  h.invariant (fun u => u.thisProposerId = s.thisProposerId)
    (fun _ _ same move => move.thisProposerId.trans same) rfl

variable {A : AckCondition} (clock : ℕ → Timeval)

@[simp] theorem withLeader_leader (s : ProposerState) (o : LeaderOutcome) :
    (s.withLeader o).state.leader = o.state := by
  cases o <;> rfl

theorem withLeader_eq_running {s u : ProposerState} {o : LeaderOutcome} :
    s.withLeader o = .running u ↔ ∃ l, o = .running l ∧ u = { s with leader := l } := by
  cases o with
  | running l => simp [ProposerState.withLeader, eq_comm]
  | aborted fault l => simp [ProposerState.withLeader]

theorem proDeliverCallback_moves (s : ProposerState) (d : Delivery)
    (clears : ∀ slot, C.clears slot) (allowed : C.delivers d.iid d.value) :
    Moves cfg C s.leader (proDeliverCallback cfg clock s d).state.leader := by
  unfold proDeliverCallback
  rw [withLeader_leader]
  refine .bind ((Move.delivered s.leader d.iid d.value allowed).moves.trans ?_) ?_
  · split_ifs
    · exact leaderDeliver_moves clock _ d.value d.iid clears
    · exact .refl _
  · intro t
    have advanced : Quiet t (leaderDelivered d.iid t) := .of_eq rfl rfl rfl rfl rfl
    exact advanced.moves

def ProMoves (cfg : Config) (C : MoveCondition) (s t : ProposerState) : Prop :=
  Moves cfg C s.leader t.leader

theorem proHandleAcceptAckBatch_moves (acceptorId : ℕ) (acks : List AcceptAck)
    (s : ProposerState) (clears : ∀ slot, C.clears slot)
    (allowed : ∀ d ∈ (Paxos2Learner.handleAcceptAckBatch cfg s.learner acceptorId acks).state.2,
      C.delivers d.iid d.value) :
    Moves cfg C s.leader (proHandleAcceptAckBatch cfg clock acceptorId acks s).state.leader := by
  have callbacks (s : ProposerState) (ds : List Delivery)
      (allowed : ∀ d ∈ ds, C.delivers d.iid d.value) :
      ProMoves cfg C s (Outcome.fold (proDeliverCallback cfg clock) s ds).state :=
    Outcome.fold_state (R := ProMoves cfg C) (fun s => .refl s.leader) (fun _ _ _ => Moves.trans)
      s ds fun d hd s => proDeliverCallback_moves clock s d clears (allowed d hd)
  unfold proHandleAcceptAckBatch
  revert allowed
  cases Paxos2Learner.handleAcceptAckBatch cfg s.learner acceptorId acks with
  | running r => exact fun allowed => callbacks { s with learner := r.1 } r.2 allowed
  | aborted fault r =>
    exact fun allowed => Outcome.bind_state (R := ProMoves cfg C) (fun _ _ _ => Moves.trans)
      (callbacks { s with learner := r.1 } r.2 allowed) (fun t => .refl t.leader)

theorem proHandleLeaderAnnounce_moves (timeNow : Timeval) (currentLeader : ℕ)
    (s : ProposerState) (opens : ∀ i, C.opens i) (clears : ∀ slot, C.clears slot) :
    Moves cfg C s.leader
      (proHandleLeaderAnnounce cfg clock timeNow currentLeader s).state.leader := by
  have announced (o : LeaderOutcome) :
      ((s.withLeader o).bind fun s => .running { s with currentLeaderId := currentLeader
        }).state.leader = o.state := by
    cases o <;> rfl
  unfold proHandleLeaderAnnounce
  dsimp only
  split_ifs
  · rw [announced]
    exact leaderShutdown_moves s.leader clears
  · rw [announced]
    exact leaderInit_moves clock timeNow s.leader opens
  · rw [announced]
    exact .refl s.leader

/-- The promises of a batch meet the condition in the states in which they are handled. -/
def AcksMeet (cfg : Config) (A : AckCondition) (acceptorId : ℕ) (s : LeaderState)
    (acks : List PrepareAck) : Prop :=
  Along (fun s pa => (handlePrepareAck cfg acceptorId s pa).1) (fun s pa => A s acceptorId pa)
    s acks

/-- The promises handled by a leader during an event meet the condition. -/
def EventMeets (cfg : Config) (A : AckCondition) (s : ProposerState) : ProposerEvent → Prop
  | .prepareAcks acceptorId acks _ => s.LeaderIsMe → AcksMeet cfg A acceptorId s.leader acks
  | _ => True

instance (acceptorId : ℕ) (s : LeaderState) (acks : List PrepareAck)
    [∀ s a pa, Decidable (A s a pa)] : Decidable (AcksMeet cfg A acceptorId s acks) :=
  inferInstanceAs (Decidable (Along _ _ s acks))

instance (s : ProposerState) (e : ProposerEvent) [∀ s a pa, Decidable (A s a pa)] :
    Decidable (EventMeets cfg A s e) :=
  match e with
  | .prepareAcks acceptorId acks _ =>
    inferInstanceAs (Decidable (s.LeaderIsMe → AcksMeet cfg A acceptorId s.leader acks))
  | .submit _ | .leaderAnnounce _ _ _ | .p1Check _ _ | .p2Check _ _ | .acceptAcks _ _ _
  | .holeCheck => isTrue trivial

theorem handlePrepareAcks_moves (acceptorId : ℕ) (s : LeaderState) (acks : List PrepareAck)
    (met : AcksMeet cfg C.ack acceptorId s acks) :
    Moves cfg C s (handlePrepareAcks cfg acceptorId s acks).1 := by
  unfold handlePrepareAcks
  generalize (0 : ℕ) = count
  induction acks generalizing s count with
  | nil => exact .refl s
  | cons pa acks ih =>
    obtain ⟨head, tail⟩ := met
    exact (Move.ack s acceptorId pa head).moves.trans (ih _ tail _)

theorem handlePrepareAckBatch_moves (acceptorId : ℕ) (acks : List PrepareAck) (s : ProposerState)
    (met : s.LeaderIsMe → AcksMeet cfg C.ack acceptorId s.leader acks) :
    Moves cfg C s.leader (handlePrepareAckBatch cfg clock acceptorId acks s).state.leader := by
  unfold handlePrepareAckBatch
  dsimp only
  split_ifs with me ready
  · rw [withLeader_leader]
    refine (handlePrepareAcks_moves acceptorId s.leader acks (met me)).trans ?_
    exact .bind (leaderOpenInstancesP2Expired_moves clock _) (leaderOpenInstancesP2New_moves clock)
  · exact handlePrepareAcks_moves acceptorId s.leader acks (met me)
  · exact .refl s.leader

/-- What an event delivers to the proposer satisfies `D`. -/
def EventDelivers (cfg : Config) (D : ℕ → Value → Prop) (s : ProposerState) :
    ProposerEvent → Prop
  | .acceptAcks acceptorId acks _ =>
    ∀ d ∈ (Paxos2Learner.handleAcceptAckBatch cfg s.learner acceptorId acks).state.2,
      D d.iid d.value
  | _ => True

theorem proposerHandle_moves_of (s : ProposerState) (e : ProposerEvent)
    (acks : EventMeets cfg C.ack s e) (opens : ∀ i, C.opens i) (clears : ∀ slot, C.clears slot)
    (delivers : EventDelivers cfg C.delivers s e) :
    Moves cfg C s.leader (proposerHandle cfg s e).state.leader := by
  cases e with
  | submit value =>
    have enqueued (vh : ValuesHandler) : Quiet s.leader { s.leader with valuesHandler := vh } :=
      .of_eq rfl rfl rfl rfl rfl
    exact (enqueued _).moves
  | leaderAnnounce currentLeader clock timeNow =>
    exact proHandleLeaderAnnounce_moves clock timeNow currentLeader s opens clears
  | p1Check clock timeNow =>
    unfold proposerHandle
    split_ifs
    · rw [withLeader_leader]
      exact leaderPeriodicP1Check_moves clock timeNow s.leader opens
    · exact .refl s.leader
  | p2Check clock timeNow =>
    unfold proposerHandle
    split_ifs
    · rw [withLeader_leader]
      exact leaderPeriodicP2Check_moves clock _ timeNow s.leader
    · exact .refl s.leader
  | prepareAcks acceptorId promises clock =>
    exact handlePrepareAckBatch_moves clock acceptorId promises s acks
  | acceptAcks acceptorId accepts clock =>
    exact proHandleAcceptAckBatch_moves clock acceptorId accepts s clears delivers
  | holeCheck => exact .refl s.leader

theorem proposerHandle_moves (s : ProposerState) (e : ProposerEvent)
    (met : EventMeets cfg A s e) :
    Moves cfg A.only s.leader (proposerHandle cfg s e).state.leader := by
  refine proposerHandle_moves_of s e met (fun _ => trivial) (fun _ => trivial) ?_
  cases e with
  | acceptAcks a acks clock => exact fun _ _ => trivial
  | _ => trivial

/-- The learner inside a proposer after an event: only acknowledgements and the hole
check touch it. -/
def eventLearner (cfg : Config) (s : ProposerState) : ProposerEvent → LearnerState
  | .acceptAcks acceptorId acks _ =>
    (Paxos2Learner.handleAcceptAckBatch cfg s.learner acceptorId acks).state.1
  | .holeCheck => leaHoleCheck cfg s.learner
  | _ => s.learner

@[simp] theorem withLeader_learner (s : ProposerState) (o : LeaderOutcome) :
    (s.withLeader o).state.learner = s.learner := by
  cases o <;> rfl

theorem proposerHandle_learner (s : ProposerState) (e : ProposerEvent) :
    (proposerHandle cfg s e).state.learner = eventLearner cfg s e := by
  cases e with
  | leaderAnnounce currentLeader clock timeNow =>
    have announced (o : LeaderOutcome) :
        ((s.withLeader o).bind fun s => .running { s with currentLeaderId := currentLeader
          }).state.learner = s.learner := by
      cases o <;> rfl
    unfold proposerHandle proHandleLeaderAnnounce
    dsimp only
    split_ifs
    · exact announced _
    · exact announced _
    · exact announced _
  | p1Check clock timeNow =>
    unfold proposerHandle
    split_ifs
    · exact withLeader_learner s _
    · rfl
  | p2Check clock timeNow =>
    unfold proposerHandle
    split_ifs
    · exact withLeader_learner s _
    · rfl
  | prepareAcks acceptorId acks clock =>
    unfold proposerHandle handlePrepareAckBatch
    dsimp only
    split_ifs
    · exact withLeader_learner s _
    · rfl
    · rfl
  | acceptAcks acceptorId acks clock =>
    have callbacks (s : ProposerState) (ds : List Delivery) :
        (Outcome.fold (proDeliverCallback cfg clock) s ds).state.learner = s.learner := by
      refine Outcome.fold_state (R := fun s t : ProposerState => t.learner = s.learner)
        (fun _ => rfl) (fun _ _ _ first second => second.trans first) s ds ?_
      intro d _ s
      exact withLeader_learner s _
    unfold proposerHandle proHandleAcceptAckBatch eventLearner
    dsimp only
    cases Paxos2Learner.handleAcceptAckBatch cfg s.learner acceptorId acks with
    | running r => exact callbacks { s with learner := r.1 } r.2
    | aborted fault r =>
      exact Outcome.bind_state (R := fun s t : ProposerState => t.learner = s.learner)
        (fun _ _ _ first second => second.trans first) (callbacks { s with learner := r.1 } r.2)
        fun _ => rfl
  | _ => rfl

theorem proposerInit_moves (timeNow : Timeval) (proposerId : ℕ) (opens : ∀ i, C.opens i) :
    Moves cfg C (initProStructs proposerId)
      (proposerInit cfg clock timeNow proposerId).state.leader := by
  unfold proposerInit
  dsimp only
  split_ifs
  · rw [withLeader_leader]
    exact leaderInit_moves clock timeNow _ opens
  · exact .refl _

@[simp] theorem proposerInit_learner (timeNow : Timeval) (proposerId : ℕ) :
    (proposerInit cfg clock timeNow proposerId).state.learner = learnerInit := by
  unfold proposerInit
  dsimp only
  split_ifs
  · exact withLeader_learner _ _
  · rfl

/-- The condition on the promises of an event, for a process that may have stopped. -/
def StepMeets (cfg : Config) (A : AckCondition) (o : ProposerOutcome) (e : ProposerEvent) : Prop :=
  match o with
  | .running s => EventMeets cfg A s e
  | .aborted _ _ => True

instance (o : ProposerOutcome) (e : ProposerEvent) [∀ s a pa, Decidable (A s a pa)] :
    Decidable (StepMeets cfg A o e) :=
  match o with
  | .running s => inferInstanceAs (Decidable (EventMeets cfg A s e))
  | .aborted _ _ => isTrue trivial

theorem proposerStep_moves (o : ProposerOutcome) (e : ProposerEvent)
    (met : StepMeets cfg A o e) :
    Moves cfg A.only o.state.leader (proposerStep cfg o e).state.leader := by
  cases o with
  | running s => exact proposerHandle_moves s e met
  | aborted fault s => exact .refl s.leader

/-- An invariant of the moves holds after every run of a proposer, its promises
meeting the condition. -/
theorem proposer_run_invariant (I : LeaderState → Prop) (timeNow : Timeval) (proposerId : ℕ)
    (start : I (initProStructs proposerId)) (kept : ∀ s t, I s → Move cfg A.only s t → I t)
    (events : List ProposerEvent)
    (met : Along (proposerStep cfg) (StepMeets cfg A) (proposerInit cfg clock timeNow proposerId)
      events) :
    I (run (proposerStep cfg) (proposerInit cfg clock timeNow proposerId) events).state.leader :=
  Along.invariant (fun o : ProposerOutcome => I o.state.leader)
    ((proposerInit_moves clock timeNow proposerId fun _ => trivial).invariant I kept start)
    (fun o e hI hmet => (proposerStep_moves o e hmet).invariant I kept hI) met

end FdsPaxos.Paxos2LeaderMoves
