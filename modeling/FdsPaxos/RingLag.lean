import FdsPaxos.RingChosen

set_option autoImplicit false

namespace FdsPaxos.RingLag
open TransitionRuns CircularWindow RingConfig RingMessages RingStableStorage RingMcasterStorage
open RingMulticaster RingAcceptor RingWorld RingWindows RingOneLife RingChosen
open RingMulticasterMoves (requested)

section Definitions

variable (cfg : Config) (w : RingState)

/-- A request does not stop the multicaster, and a mapping does not stop an acceptor. -/
def StepSurvives (e : RingEvent) : Prop :=
  Possible cfg w e → match e with
    | .request _ _ _ => w.mcaster.IsRunning → (mcasterStep cfg w.mcaster e).IsRunning
    | .mcastAcceptor a (.commandMap _) =>
      (w.acceptors a).IsRunning → (acceptorStep cfg a (w.acceptors a) e).IsRunning
    | _ => True

instance (e : RingEvent) : Decidable (StepSurvives cfg w e) :=
  match e with
  | .request _ _ _ | .mcastAcceptor _ (.commandMap _) => inferInstanceAs (Decidable (_ → _ → _))
  | .mcastAcceptor _ (.acceptance _) | .mcastAcceptor _ (.phase2 _) | .submit _
  | .periodicCheck _ | .toMcaster _ _ | .restart | .toAcceptor _ _ _ | .mcastLearner _ _
  | .deliverLoop _ | .gapCheck _ _ => inferInstanceAs (Decidable (_ → True))

/-- What is asked for lags behind the instance in its slot by less than a buffer. -/
def StepInRange (e : RingEvent) : Prop :=
  Possible cfg w e → match e with
    | .request _ msg _ => w.mcaster.IsRunning → ∀ i ∈ requested msg,
      (w.mcaster.state.record cfg i).instNumber < i + cfg.msmSize
    | .mcastAcceptor a (.commandMap m) => (w.acceptors a).IsRunning →
      ((w.acceptors a).state.record cfg m.instNumber).instNumber < m.instNumber + cfg.ssmSize
    | _ => True

instance (e : RingEvent) : Decidable (StepInRange cfg w e) :=
  match e with
  | .request _ _ _ | .mcastAcceptor _ (.commandMap _) => inferInstanceAs (Decidable (_ → _ → _))
  | .mcastAcceptor _ (.acceptance _) | .mcastAcceptor _ (.phase2 _) | .submit _
  | .periodicCheck _ | .toMcaster _ _ | .restart | .toAcceptor _ _ _ | .mcastLearner _ _
  | .deliverLoop _ | .gapCheck _ _ => inferInstanceAs (Decidable (_ → True))

end Definitions

section Multicaster

variable {cfg : Config} {s t : Mcaster} {i : ℕ}

def SameInstances (s t : Mcaster) : Prop :=
  ∀ slot, (t.instancesArray slot).instNumber = (s.instancesArray slot).instNumber

theorem SameInstances.record (h : SameInstances s t) (i : ℕ) :
    (t.record cfg i).instNumber = (s.record cfg i).instNumber :=
  h (msmSlot cfg i)

theorem sameInstances_broadcast (cfg : Config) (s : Mcaster) (slot : ℕ) :
    SameInstances s (mcasterBroadcastMapping cfg s slot) := by
  intro slot'
  simp only [mcasterBroadcastMapping, Mcaster.withRecord, Mcaster.sendMcast, setSlot_apply]
  split_ifs with here
  · rw [here]
  · rfl

theorem mcasterStorageGet_opened (touched : i ≤ (s.record cfg i).instNumber) (positive : 0 < i) :
    (s.record cfg i).instNumber = i ∧ mcasterStorageGet cfg s i = .running s ∨
    i < (s.record cfg i).instNumber ∧ mcasterStorageGet cfg s i = .aborted .overwritten s := by
  unfold mcasterStorageGet
  dsimp only
  split_ifs with unused older done newer
  · omega
  · omega
  · omega
  · exact .inr ⟨newer, rfl⟩
  · exact .inl ⟨by omega, rfl⟩

/-- A turn for an instance that was opened goes on if its slot holds it, and changes no slot. -/
def AnswersInPlace (cfg : Config) (f : Mcaster → ℕ → McasterOutcome) : Prop :=
  ∀ s i, i ≤ (s.record cfg i).instNumber → 0 < i →
    ((s.record cfg i).instNumber = i ∧ ∃ t, f s i = .running t ∧ SameInstances s t) ∨
    ((s.record cfg i).instNumber ≠ i ∧ ∃ fault t, f s i = .aborted fault t)

theorem answersInPlace_of_get {answer : Mcaster → ℕ → McasterOutcome}
    (answers : ∀ s i, ∃ t, answer s i = .running t ∧ SameInstances s t) :
    AnswersInPlace cfg fun s i => (mcasterStorageGet cfg s i).bind fun s => answer s i := by
  intro s i touched positive
  rcases mcasterStorageGet_opened touched positive with ⟨own, got⟩ | ⟨newer, stopped⟩
  · simp only [got, Outcome.bind_running]
    exact .inl ⟨own, answers s i⟩
  · simp only [stopped, Outcome.bind_aborted]
    exact .inr ⟨newer.ne', _, s, rfl⟩

theorem mcasterRepeatMap_inPlace : AnswersInPlace cfg (mcasterRepeatMap cfg) := by
  refine answersInPlace_of_get fun s i => ?_
  split_ifs
  · exact ⟨_, rfl, sameInstances_broadcast cfg s _⟩
  · exact ⟨s, rfl, fun _ => rfl⟩

theorem mcasterRepeatAcceptance_inPlace : AnswersInPlace cfg (mcasterRepeatAcceptance cfg) := by
  refine answersInPlace_of_get fun s i => ?_
  split_ifs
  · exact ⟨_, rfl, fun _ => rfl⟩
  · exact ⟨s, rfl, fun _ => rfl⟩

/-- Each turn leaves the slots as they were, so all turns find what the first one finds. -/
theorem AnswersInPlace.fold {f : Mcaster → ℕ → McasterOutcome} (answers : AnswersInPlace cfg f)
    {instNumbers : List ℕ}
    (opened : ∀ i ∈ instNumbers, i ≤ (s.record cfg i).instNumber ∧ 0 < i) :
    (Outcome.fold f s instNumbers).IsRunning ↔
      ∀ i ∈ instNumbers, (s.record cfg i).instNumber = i := by
  induction instNumbers generalizing s with
  | nil => exact iff_of_true trivial (by simp)
  | cons i instNumbers ih =>
    obtain ⟨⟨touched, positive⟩, rest⟩ := List.forall_mem_cons.mp opened
    rw [List.forall_mem_cons, Outcome.fold_cons]
    rcases answers s i touched positive with ⟨own, t, answered, same⟩ | ⟨other, fault, t, stopped⟩
    · rw [answered, Outcome.bind_running, ih fun j hj => (same.record j).symm ▸ rest j hj]
      simp only [same.record, own, true_and]
    · rw [stopped, Outcome.bind_aborted]
      exact iff_of_false id fun held => other held.1

theorem mcasterHandleRequest_isRunning (msg : Request)
    (opened : ∀ i ∈ requested msg, i ≤ (s.record cfg i).instNumber ∧ 0 < i) :
    (mcasterHandleRequest cfg s msg).IsRunning ↔
      ∀ i ∈ requested msg, (s.record cfg i).instNumber = i := by
  cases msg with
  | mapRequest instNumbers => exact mcasterRepeatMap_inPlace.fold opened
  | chosenvalRequest instNumbers => exact mcasterRepeatAcceptance_inPlace.fold opened

/-- Two instances of a slot are a buffer apart, so a lag of less finds the instance itself. -/
theorem Life.held_iff (h : Life cfg s) (positive : 0 < i) (le : i ≤ s.p1HighestOpen) :
    (s.record cfg i).instNumber = i ↔ (s.record cfg i).instNumber < i + cfg.msmSize := by
  have touched := h.touched i positive le
  have size : 0 < cfg.msmSize := Nat.mul_pos cfg.workingSet_pos (by decide)
  refine ⟨fun own => by omega, fun near => ?_⟩
  have home : msmSlot cfg (s.record cfg i).instNumber = msmSlot cfg i :=
    (h.records (msmSlot cfg i)).home.resolve_left fun unused => by
      change (s.record cfg i).instNumber = 0 at unused
      omega
  rcases Nat.eq_or_lt_of_le touched with own | newer
  · exact own.symm
  · have apart := index_apart newer home.symm
    change i + cfg.msmSize ≤ (s.record cfg i).instNumber at apart
    omega

end Multicaster

section Acceptor

variable {cfg : Config} {mcast : List McastMsg} {s : RingAcceptor} {ir : InstanceRecord}
  {msg : CmdmapMsg}

theorem RecordHeld.saveMap_isRunning (h : RecordHeld mcast ir) (sent : OneMapping mcast)
    (heard : .commandMap msg ∈ mcast) (own : ir.instNumber = msg.instNumber) :
    (acceptorSaveMap cfg s msg ir).IsRunning := by
  have same (key : CommandId) (v : Value) (mapped : .commandMap ⟨ir.instNumber, key, v⟩ ∈ mcast) :
      v = msg.cmdValue := congrArg CmdmapMsg.cmdValue (sent.one _ _ mapped heard own)
  unfold acceptorSaveMap
  rcases h.proposed with ⟨null, -⟩ | ⟨free, v, slot, mapped⟩
  · split_ifs with known stored none' other
    · obtain ⟨v, found⟩ := Option.isSome_iff_exists.mp known.1
      unfold knownAccepted
      rw [found, same _ v (h.accepted v found), Option.getD_some, null,
        if_neg (not_not.mpr (sameCommand_refl _))]
      trivial
    · exact absurd null stored.1
    · exact absurd null stored.1
    · trivial
    · trivial
  · rw [if_neg fun known => by simp [free] at known]
    split_ifs with stored agrees
    · trivial
    · rw [slot, ProposedCmd.cmd, same _ v mapped] at agrees
      exact absurd (sameCommand_refl _) agrees
    · trivial

theorem AcceptorHeld.got (h : AcceptorHeld mcast s) (sent : OneMapping mcast) {i : ℕ}
    {t : RingAcceptor} (got : ssmGetRecord cfg s i = .running t) : AcceptorHeld mcast t := by
  have moves : RingAcceptorMoves.Moves cfg ⟨fun _ => True, fun _ => False, fun _ => False⟩ s
      (ssmGetRecord cfg s i).state := RingAcceptorMoves.ssmGetRecord_moves s i trivial
  rw [got] at moves
  exact moves.invariant (AcceptorHeld mcast)
    (fun _ _ kept move => kept.move sent (fun _ heard => False.elim heard) move) h

theorem acceptorHandleCmdmapMsg_isRunning (h : AcceptorHeld mcast s) (sent : OneMapping mcast)
    (heard : .commandMap msg ∈ mcast) : (acceptorHandleCmdmapMsg cfg s msg).IsRunning ↔
      (s.record cfg msg.instNumber).instNumber ≤ msg.instNumber := by
  rw [← ssmGetRecord_isRunning]
  unfold acceptorHandleCmdmapMsg
  cases got : ssmGetRecord cfg s msg.instNumber with
  | running t =>
    have own := RingAcceptorMoves.ssmGetRecord_own got
    have held := (AcceptorHeld.got h sent got).records (ssmSlot cfg msg.instNumber)
    exact iff_of_true (RecordHeld.saveMap_isRunning held sent heard own) trivial
  | aborted fault t => exact Iff.rfl

theorem AcceptorWithin.reached_iff {closed : ℕ} (h : AcceptorWithin cfg closed s) (i : ℕ) :
    (s.record cfg i).instNumber ≤ i ↔ (s.record cfg i).instNumber < i + cfg.ssmSize := by
  have size : 0 < cfg.ssmSize := cfg.workingSet_pos
  refine ⟨fun le => by omega, fun near => Nat.le_of_not_lt fun newer => ?_⟩
  have home : ssmSlot cfg (s.record cfg i).instNumber = ssmSlot cfg i :=
    (h.home (ssmSlot cfg i)).resolve_left fun unused => by
      change (s.record cfg i).instNumber = 0 at unused
      omega
  have apart := index_apart newer home.symm
  change i + cfg.ssmSize ≤ (s.record cfg i).instNumber at apart
  omega

end Acceptor

variable {cfg : Config} {w : RingState}

theorem Votes.request_iff (h : Votes cfg w) {l : ℕ} {msg : Request} {clock : Timeval}
    (possible : Possible cfg w (.request l msg clock)) (running : w.mcaster.IsRunning) :
    (mcasterStep cfg w.mcaster (.request l msg clock)).IsRunning ↔
      ∀ i ∈ requested msg, (w.mcaster.state.record cfg i).instNumber < i + cfg.msmSize := by
  have life := h.life.mcaster
  have asked := (h.life.learners l).requests msg possible
  cases found : w.mcaster with
  | aborted fault s =>
    rw [found] at running
    exact running.elim
  | running s =>
    rw [found] at life asked
    change ∀ i ∈ requested msg, 0 < i ∧ i ≤ s.highestOpenIid at asked
    have within (i : ℕ) (hi : i ∈ requested msg) : 0 < i ∧ i ≤ s.p1HighestOpen :=
      ⟨(asked i hi).1, (asked i hi).2.trans life.open_le⟩
    refine (mcasterHandleRequest_isRunning (s := mcasterUpdateWallclock s clock) msg
      fun i hi => ?_).trans (forall₂_congr fun i hi => ?_)
    · exact ⟨life.touched i (within i hi).1 (within i hi).2, (within i hi).1⟩
    · exact Life.held_iff (s := s) life (within i hi).1 (within i hi).2

theorem Votes.mapping_iff (h : Votes cfg w) {a : ℕ} {m : CmdmapMsg}
    (possible : Possible cfg w (.mcastAcceptor a (.commandMap m)))
    (running : (w.acceptors a).IsRunning) :
    (acceptorStep cfg a (w.acceptors a) (.mcastAcceptor a (.commandMap m))).IsRunning ↔
      ((w.acceptors a).state.record cfg m.instNumber).instNumber < m.instNumber + cfg.ssmSize := by
  have held := h.held a
  have within := h.life.acceptors a
  rw [show acceptorStep cfg a (w.acceptors a) (.mcastAcceptor a (.commandMap m)) =
    (w.acceptors a).bind (acceptorHandleCmdmapMsg cfg · m) from if_pos rfl]
  cases found : w.acceptors a with
  | aborted fault s =>
    rw [found] at running
    exact running.elim
  | running s =>
    rw [found] at held within
    exact (acceptorHandleCmdmapMsg_isRunning held h.oneMapping possible.2).trans
      (AcceptorWithin.reached_iff within m.instNumber)

theorem Votes.survives_iff (h : Votes cfg w) (e : RingEvent) :
    StepSurvives cfg w e ↔ StepInRange cfg w e := by
  refine forall_congr' fun possible => ?_
  cases e with
  | request l msg clock => exact forall_congr' fun running => Votes.request_iff h possible running
  | mcastAcceptor a msg =>
    cases msg with
    | commandMap m => exact forall_congr' fun running => Votes.mapping_iff h possible running
    | acceptance m => exact Iff.rfl
    | phase2 m => exact Iff.rfl
  | _ => exact Iff.rfl

/-- In a run of one multicaster, learners that lag stop no process exactly when nothing that
they ask for was overwritten, neither in the multicaster nor in an acceptor that hears of it. -/
theorem lag_survived_iff (cfg : Config) (late : ℕ → Bool) (events : List RingEvent)
    (goesOn : ∀ e ∈ events, e ≠ .restart) :
    Along (ringStep cfg) (StepSurvives cfg) (ringInit late) events ↔
      Along (ringStep cfg) (StepInRange cfg) (ringInit late) events :=
  along_congr_of_mem (Votes cfg) (votes_init cfg late)
    (fun e he _ h => votes_step h e (goesOn e he)) fun _ e h =>
      Votes.survives_iff h e

/-- The multicaster and the ring prepare instances `i` and `i + 1`. -/
def prepareTwo (i : ℕ) : List RingEvent :=
  [.periodicCheck fun _ => ⟨1, 0⟩,
    .toAcceptor 2 (.phase1Range ⟨i, i + 1, 65792, 0⟩) fun _ => ⟨0, 0, 0⟩,
    .toAcceptor 3 (.phase1Range ⟨i, i + 1, 65792, 1⟩) fun _ => ⟨0, 0, 0⟩,
    .toMcaster (.phase1Range ⟨i, i + 1, 65792, 2⟩) ⟨1, 0⟩]

/-- The key of the command of instance `i`, while each command is proposed once. -/
def keyOf (i : ℕ) : CommandId := ⟨1, 0, UInt16.ofNat i⟩

/-- Value `v` is chosen for instance `i`, by acceptors 2 and 3. -/
def chooseNext (i : ℕ) (v : Value) : List RingEvent :=
  [.submit v, .periodicCheck fun _ => ⟨1, 0⟩,
    .mcastAcceptor 2 (.commandMap ⟨i, keyOf i, v⟩),
    .mcastAcceptor 2 (.phase2 ⟨i, 65792, 0, keyOf i⟩),
    .mcastAcceptor 3 (.commandMap ⟨i, keyOf i, v⟩),
    .toAcceptor 3 (.phase2 ⟨i, 65792, 1, keyOf i⟩) fun _ => ⟨0, 0, 0⟩,
    .toMcaster (.phase2 ⟨i, 65792, 2, keyOf i⟩) ⟨1, 0⟩]

/-- Learner 0 hears of instance 2 before it hears of instance 1, for which it asks, and
acceptor 2 is sent the mapping of instance 1 once more. -/
def askForFirst (v v' : Value) : List RingEvent :=
  [.mcastLearner 0 (.commandMap ⟨2, keyOf 2, v'⟩), .gapCheck 0 ⟨2, 0⟩,
    .request 0 (.mapRequest [1]) ⟨2, 0⟩, .mcastAcceptor 2 (.commandMap ⟨1, keyOf 1, v⟩)]

theorem lag_survived_one_behind : Along (ringStep .small) (StepSurvives .small)
    (ringInit fun _ => false)
    (prepareTwo 1 ++ chooseNext 1 [7] ++ chooseNext 2 [8] ++ askForFirst [7] [8]) :=
  (lag_survived_iff .small _ _ (by simp [prepareTwo, chooseNext, askForFirst])).mpr
    (by decide +kernel)

/-- Instances 5 and 6 are prepared once 1 to 4 were chosen, and take the slots of 1 and 2. -/
def laggingRun : List RingEvent :=
  prepareTwo 1 ++ chooseNext 1 [7] ++ chooseNext 2 [8] ++ prepareTwo 3 ++ chooseNext 3 [9] ++
    chooseNext 4 [10] ++ prepareTwo 5 ++ askForFirst [7] [8]

theorem lagging_learner_stops_acceptor : (∀ e ∈ laggingRun, e ≠ .restart) ∧
    ¬ Along (ringStep .small) (StepSurvives .small) (ringInit fun _ => false) laggingRun :=
  ⟨by simp [laggingRun, prepareTwo, chooseNext, askForFirst], by decide +kernel⟩

end FdsPaxos.RingLag
