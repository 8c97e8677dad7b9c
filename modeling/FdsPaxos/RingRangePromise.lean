import FdsPaxos.RingAcceptorSafety

set_option autoImplicit false

namespace FdsPaxos.RingRangePromise
open TransitionRuns CircularWindow RingConfig RingMessages RingStableStorage RingAcceptor
open RingAcceptorMoves RingAcceptorSafety RingWorld

def instanceMsg (msg : Phase1RangeMsg) (i : ℕ) : Phase1Msg where
  instNumber := i
  ballot := msg.ballot
  promisesCount := msg.promisesCount
  highestAcceptedBallot := 0
  highestPromisedBallot := 0
  cmdKey := clearCmdKey
  cmdValue := []

/-- The messages that a message for a range stands for. -/
def standsFor (msg : Phase1RangeMsg) : List RingMsg :=
  (instanceRange msg).map fun i => .phase1 (instanceMsg msg i)

/-- One request for a promise after the other, as for a range with instances seen before. -/
def handleEach (cfg : Config) (s : RingAcceptor) (msg : Phase1RangeMsg)
    (stack : ℕ → Phase1Stack) : AcceptorOutcome :=
  Outcome.fold (fun s i => acceptorHandlePhase1Msg cfg s (instanceMsg msg i) (stack i)) s
    (instanceRange msg)

/-- The instances of a message count from 1, and its range is not empty. -/
def NamesInstances : RingMsg → Prop
  | .phase1 msg => 0 < msg.instNumber
  | .phase1Range msg => 0 < msg.fromIid ∧ msg.fromIid ≤ msg.toIid
  | .phase2 msg => 0 < msg.instNumber

/-- What an event brings to an acceptor. -/
def Brings : RingEvent → Prop
  | .toAcceptor _ msg _ => NamesInstances msg
  | .mcastAcceptor _ (.phase2 msg) => 0 < msg.instNumber
  | _ => True

def Reached (cfg : Config) (a : ℕ) (s : RingAcceptor) : Prop :=
  ∃ events : List RingEvent, (∀ e ∈ events, Brings e) ∧
    run (acceptorStep cfg a) (.running (regularAcceptorInit a)) events = .running s

section Unseen

/-- Nothing was promised or accepted in a record that is not in use, or that is in use for
an instance above the highest one seen. -/
def Unseen (s : RingAcceptor) : Prop :=
  ∀ slot, (s.instancesArray slot).instNumber = 0 ∨
      s.highestInstanceSeen < (s.instancesArray slot).instNumber →
    (s.instancesArray slot).ballot = 0 ∧ (s.instancesArray slot).acceptBallot = 0

variable {cfg : Config} {s t : RingAcceptor}

theorem Unseen.see (h : Unseen s) {n : ℕ} (le : s.highestInstanceSeen ≤ n) :
    Unseen { s with highestInstanceSeen := n } := by
  intro slot unseen
  exact h slot (unseen.imp_right le.trans_lt)

theorem Unseen.setSlot (h : Unseen s) {slot : ℕ} {ir : InstanceRecord}
    (array : t.instancesArray = CircularWindow.setSlot s.instancesArray slot ir)
    (highest : s.highestInstanceSeen ≤ t.highestInstanceSeen)
    (fresh : ir.instNumber = 0 ∨ t.highestInstanceSeen < ir.instNumber →
      ir.ballot = 0 ∧ ir.acceptBallot = 0) : Unseen t := by
  intro slot'
  rw [array, setSlot_apply]
  split_ifs
  · exact fresh
  · exact fun unseen => h slot' (unseen.imp_right highest.trans_lt)

theorem Unseen.readied_fresh (h : Unseen s) (slot i : ℕ) :
    (readied (s.instancesArray slot) i).instNumber = 0 ∨
        s.highestInstanceSeen < (readied (s.instancesArray slot) i).instNumber →
      (readied (s.instancesArray slot) i).ballot = 0 ∧
        (readied (s.instancesArray slot) i).acceptBallot = 0 := by
  unfold readied
  split_ifs with unused older
  · exact fun _ => h slot (.inl unused)
  · exact fun _ => ⟨rfl, rfl⟩
  · exact h slot

theorem Unseen.got (h : Unseen s) {i : ℕ} (got : ssmGetRecord cfg s i = .running t) :
    Unseen t := by
  obtain ⟨array, highest, -⟩ := ssmGetRecord_readied got
  refine h.setSlot array highest.ge ?_
  rw [highest]
  exact h.readied_fresh _ i

theorem Unseen.update (h : Unseen s) {slot i : ℕ} {ir : InstanceRecord}
    (array : t.instancesArray = CircularWindow.setSlot s.instancesArray slot ir)
    (own : ir.instNumber = i) (named : 0 < i) (highest : s.highestInstanceSeen ≤ t.highestInstanceSeen)
    (seen : i ≤ t.highestInstanceSeen) : Unseen t :=
  h.setSlot array highest fun unseen => absurd unseen (by omega)

theorem handlePhase1_unseen (h : Unseen s) {msg : Phase1Msg} (named : 0 < msg.instNumber)
    {stack : Phase1Stack} (done : acceptorHandlePhase1Msg cfg s msg stack = .running t) :
    Unseen t := by
  obtain ⟨u, got, handled⟩ := Outcome.bind_eq_running.mp done
  have own := ssmGetRecord_own got
  have unseen : Unseen u := h.got got
  dsimp only at handled
  by_cases refused : msg.ballot < (u.record cfg msg.instNumber).ballot
  · rw [if_pos refused] at handled
    cases handled
    exact unseen
  · rw [if_neg refused] at handled
    split_ifs at handled <;> cases handled <;>
      exact unseen.update rfl own named (le_max_left _ _) (le_max_right _ _)

theorem acceptorPromise_unseen (h : Unseen s) {ballot : Ballot} {i : ℕ} (named : 0 < i)
    (seen : i ≤ s.highestInstanceSeen) (done : acceptorPromise cfg ballot s i = .running t) :
    Unseen t ∧ t.highestInstanceSeen = s.highestInstanceSeen := by
  obtain ⟨u, got, handled⟩ := Outcome.bind_eq_running.mp done
  have own := ssmGetRecord_own got
  obtain ⟨-, highest, -⟩ := ssmGetRecord_readied got
  dsimp only at handled
  split_ifs at handled
  cases handled
  exact ⟨(h.got got).update rfl own named (le_refl _) (seen.trans highest.ge), highest⟩

theorem handlePhase1Range_unseen (h : Unseen s) {msg : Phase1RangeMsg} (named : 0 < msg.fromIid)
    (nonempty : msg.fromIid ≤ msg.toIid) {stack : ℕ → Phase1Stack}
    (done : acceptorHandlePhase1RangeMsg cfg s msg stack = .running t) : Unseen t := by
  unfold acceptorHandlePhase1RangeMsg at done
  split_ifs at done with above
  · obtain ⟨u, loop, sends⟩ := Outcome.bind_eq_running.mp done
    cases sends
    have raised : Unseen { s with highestInstanceSeen := msg.toIid } := h.see (by omega)
    have kept : Unseen u ∧ u.highestInstanceSeen = msg.toIid := by
      refine Outcome.fold_running (fun u : RingAcceptor => Unseen u ∧ u.highestInstanceSeen =
        msg.toIid) ⟨raised, rfl⟩ (fun v i w hi kept promised => ?_) loop
      obtain ⟨low, high⟩ := List.mem_range'_1.mp hi
      obtain ⟨unseen, highest⟩ := acceptorPromise_unseen kept.1 (by omega) (by omega) promised
      exact ⟨unseen, highest.trans kept.2⟩
    exact kept.1
  · refine Outcome.fold_running Unseen h (fun v i w hi kept promised => ?_) done
    obtain ⟨low, high⟩ := List.mem_range'_1.mp hi
    exact handlePhase1_unseen kept (Nat.lt_of_lt_of_le named low) promised

theorem handlePhase2_unseen (h : Unseen s) {msg : Phase2Msg} (named : 0 < msg.instNumber)
    (done : acceptorHandlePhase2Msg cfg s msg = .running t) : Unseen t := by
  obtain ⟨u, got, handled⟩ := Outcome.bind_eq_running.mp done
  have own := ssmGetRecord_own got
  have unseen : Unseen u := h.got got
  dsimp only at handled
  split_ifs at handled with refused
  · cases handled
    exact unseen
  · rcases acceptorAccept_cases cfg u msg (u.record cfg msg.instNumber) with
      ⟨fault, stopped | stopped⟩ | dropped | ⟨ir, accepts, stores⟩
    · rw [stopped] at handled
      cases handled
    · rw [stopped] at handled
      cases handled
    · rw [dropped] at handled
      cases handled
      exact unseen
    · rw [stores] at handled
      cases handled
      have inst := accepts.instNumber.trans own
      exact unseen.update rfl inst named (le_max_left _ _) (le_max_right _ _)

theorem handleCmdmap_unseen (h : Unseen s) {msg : CmdmapMsg}
    (done : acceptorHandleCmdmapMsg cfg s msg = .running t) : Unseen t := by
  obtain ⟨u, got, handled⟩ := Outcome.bind_eq_running.mp done
  have unseen : Unseen u := h.got got
  rcases acceptorSaveMap_cases cfg u msg (u.record cfg msg.instNumber) with
    ⟨fault, stopped⟩ | same | ⟨ir, saves, stores⟩
  · rw [stopped] at handled
    cases handled
  · rw [same] at handled
    cases handled
    exact unseen
  · rw [stores] at handled
    cases handled
    refine unseen.setSlot rfl (le_refl _) ?_
    rw [saves.instNumber, (saves_ballots saves).1, (saves_ballots saves).2]
    exact unseen (ssmSlot cfg msg.instNumber)

theorem onPredecessorMsg_unseen (h : Unseen s) {msg : RingMsg} (named : NamesInstances msg)
    {stack : ℕ → Phase1Stack} (done : onPredecessorMsg cfg s stack msg = .running t) :
    Unseen t := by
  cases msg with
  | phase1 msg => exact handlePhase1_unseen h named done
  | phase1Range msg => exact handlePhase1Range_unseen h named.1 named.2 done
  | phase2 msg => exact handlePhase2_unseen h named done

theorem onMulticastMsg_unseen (h : Unseen s) {a : ℕ} {msg : McastMsg}
    (named : Brings (.mcastAcceptor a msg)) (done : onMulticastMsg cfg s msg = .running t) :
    Unseen t := by
  cases msg with
  | commandMap msg => exact handleCmdmap_unseen h done
  | acceptance msg =>
    cases done
    exact h
  | phase2 msg =>
    unfold onMulticastMsg at done
    dsimp only at done
    split_ifs at done
    · exact handlePhase2_unseen h named done
    · cases done
      exact h

theorem acceptorStep_unseen (a : ℕ) (o : AcceptorOutcome) (e : RingEvent)
    (h : o.Ensures Unseen fun _ => True) (brings : Brings e) :
    (acceptorStep cfg a o e).Ensures Unseen fun _ => True := by
  cases e with
  | toAcceptor a' msg stack =>
    simp only [acceptorStep]
    split_ifs
    · exact h.bind fun s unseen =>
        Outcome.ensures_of_running fun t done => onPredecessorMsg_unseen unseen brings done
    · exact h
  | mcastAcceptor a' msg =>
    simp only [acceptorStep]
    split_ifs
    · exact h.bind fun s unseen =>
        Outcome.ensures_of_running fun t done => onMulticastMsg_unseen (a := a') unseen brings done
    · exact h
  | submit | periodicCheck | toMcaster | request | restart | mcastLearner | deliverLoop
  | gapCheck => exact h

theorem Reached.unseen {a : ℕ} (reached : Reached cfg a s) : Unseen s := by
  obtain ⟨events, brings, done⟩ := reached
  have start : Outcome.Ensures Unseen (fun _ => True)
      (.running (regularAcceptorInit a) : AcceptorOutcome) := fun _ _ => ⟨rfl, rfl⟩
  have along : Along (acceptorStep cfg a) (fun _ e => Brings e)
      (.running (regularAcceptorInit a)) events := along_of_mem fun e he _ => brings e he
  have kept := along.invariant (fun o : AcceptorOutcome => o.Ensures Unseen fun _ => True) start
    (acceptorStep_unseen a)
  rw [done] at kept
  exact kept

end Unseen

section Promises

variable {cfg : Config} {s t : RingAcceptor} {i : ℕ}

/-- The slot of an instance is not in use for a later one, and nothing was promised or
accepted for the instance. -/
structure Untouched (cfg : Config) (records : ℕ → InstanceRecord) (i : ℕ) : Prop where
  notLater : (records (ssmSlot cfg i)).instNumber ≤ i
  ballot : (readied (records (ssmSlot cfg i)) i).ballot = 0
  acceptBallot : (readied (records (ssmSlot cfg i)) i).acceptBallot = 0

def promiseRecord (cfg : Config) (b : Ballot) (records : ℕ → InstanceRecord) (i : ℕ) :
    ℕ → InstanceRecord :=
  setSlot records (ssmSlot cfg i) { readied (records (ssmSlot cfg i)) i with ballot := b }

theorem ssmGetRecord_runs (le : (s.record cfg i).instNumber ≤ i) :
    ∃ u, ssmGetRecord cfg s i = .running u :=
  ⟨_, Outcome.running_of_isRunning (ssmGetRecord_isRunning.mpr le)⟩

theorem acceptorPromise_untouched (h : Untouched cfg s.instancesArray i) (b : Ballot) :
    ∃ t, acceptorPromise cfg b s i = .running t ∧
      t.instancesArray = promiseRecord cfg b s.instancesArray i ∧
      t.highestInstanceSeen = s.highestInstanceSeen ∧ t.toSuccessor = s.toSuccessor := by
  have notLater : (s.record cfg i).instNumber ≤ i := h.notLater
  obtain ⟨u, got⟩ := ssmGetRecord_runs notLater
  obtain ⟨array, highest, silent⟩ := ssmGetRecord_readied got
  have found := ssmGetRecord_record got
  have fresh : (u.record cfg i).ballot = 0 := found ▸ h.ballot
  unfold acceptorPromise
  rw [got, Outcome.bind_running]
  dsimp only
  rw [if_pos fresh]
  refine ⟨_, rfl, ?_, highest, silent⟩
  change setSlot u.instancesArray (ssmSlot cfg i) { u.record cfg i with ballot := b } = _
  rw [array, setSlot_setSlot, found]
  rfl

theorem handlePhase1_untouched (msg : Phase1RangeMsg) (stack : Phase1Stack)
    (h : Untouched cfg s.instancesArray i) :
    ∃ t, acceptorHandlePhase1Msg cfg s (instanceMsg msg i) stack = .running t ∧
      t.instancesArray = promiseRecord cfg msg.ballot s.instancesArray i ∧
      t.highestInstanceSeen = max s.highestInstanceSeen i ∧
      t.toSuccessor =
        .phase1 (instanceMsg { msg with promisesCount := msg.promisesCount + 1 } i) ::
          s.toSuccessor := by
  have notLater : (s.record cfg i).instNumber ≤ i := h.notLater
  obtain ⟨u, got⟩ := ssmGetRecord_runs notLater
  obtain ⟨array, highest, silent⟩ := ssmGetRecord_readied got
  have found : u.record cfg i = readied (s.instancesArray (ssmSlot cfg i)) i :=
    ssmGetRecord_record got
  have promises : ¬ msg.ballot < (u.record cfg i).ballot := by
    rw [found, h.ballot]
    exact UInt32.not_lt.mpr UInt32.zero_le
  have none : (u.record cfg i).acceptBallot ≤ 0 := by
    rw [found, h.acceptBallot]
    exact UInt32.le_refl 0
  unfold acceptorHandlePhase1Msg
  rw [show (instanceMsg msg i).instNumber = i from rfl, got, Outcome.bind_running]
  dsimp only
  rw [show (instanceMsg msg i).ballot = msg.ballot from rfl, if_neg promises,
    show (instanceMsg msg i).highestAcceptedBallot = 0 from rfl, if_pos none]
  refine ⟨_, rfl, ?_, congrArg (max · i) highest, congrArg _ silent⟩
  change setSlot u.instancesArray (ssmSlot cfg i) { u.record cfg i with ballot := msg.ballot } = _
  rw [array, setSlot_setSlot, found]
  rfl

theorem Untouched.promiseRecord {records : ℕ → InstanceRecord} {j : ℕ}
    (h : Untouched cfg records j) (other : ssmSlot cfg j ≠ ssmSlot cfg i) (b : Ballot) :
    Untouched cfg (promiseRecord cfg b records i) j := by
  have same : RingRangePromise.promiseRecord cfg b records i (ssmSlot cfg j) =
      records (ssmSlot cfg j) := setSlot_of_ne _ _ _ _ other
  exact ⟨same ▸ h.notLater, same ▸ h.ballot, same ▸ h.acceptBallot⟩

def Apart (cfg : Config) (iids : List ℕ) : Prop :=
  iids.Pairwise fun i j => ssmSlot cfg j ≠ ssmSlot cfg i

theorem promiseLoop_untouched (b : Ballot) {iids : List ℕ} (apart : Apart cfg iids)
    (h : ∀ i ∈ iids, Untouched cfg s.instancesArray i) :
    ∃ t, Outcome.fold (acceptorPromise cfg b) s iids = .running t ∧
      t.instancesArray = iids.foldl (promiseRecord cfg b) s.instancesArray ∧
      t.highestInstanceSeen = s.highestInstanceSeen ∧ t.toSuccessor = s.toSuccessor := by
  induction iids generalizing s with
  | nil => exact ⟨s, rfl, rfl, rfl, rfl⟩
  | cons i iids ih =>
    obtain ⟨others, apart'⟩ := List.pairwise_cons.mp apart
    obtain ⟨first, rest⟩ := List.forall_mem_cons.mp h
    obtain ⟨u, promised, array, highest, silent⟩ := acceptorPromise_untouched first b
    have left : ∀ j ∈ iids, Untouched cfg u.instancesArray j := fun j hj =>
      array ▸ (rest j hj).promiseRecord (others j hj) b
    obtain ⟨t, loop, array', highest', silent'⟩ := ih apart' left
    refine ⟨t, ?_, ?_, highest'.trans highest, silent'.trans silent⟩
    · rw [Outcome.fold_cons, promised, Outcome.bind_running, loop]
    · rw [array', array, List.foldl_cons]

theorem handleLoop_untouched (msg : Phase1RangeMsg) (stack : ℕ → Phase1Stack) {iids : List ℕ}
    (apart : Apart cfg iids) (h : ∀ i ∈ iids, Untouched cfg s.instancesArray i) :
    ∃ t, Outcome.fold
        (fun s i => acceptorHandlePhase1Msg cfg s (instanceMsg msg i) (stack i)) s iids =
          .running t ∧
      t.instancesArray = iids.foldl (promiseRecord cfg msg.ballot) s.instancesArray ∧
      t.highestInstanceSeen = iids.foldl max s.highestInstanceSeen ∧
      t.toSuccessor = (iids.map fun i => RingMsg.phase1
        (instanceMsg { msg with promisesCount := msg.promisesCount + 1 } i)).reverse ++
          s.toSuccessor := by
  induction iids generalizing s with
  | nil => exact ⟨s, rfl, rfl, rfl, rfl⟩
  | cons i iids ih =>
    obtain ⟨others, apart'⟩ := List.pairwise_cons.mp apart
    obtain ⟨first, rest⟩ := List.forall_mem_cons.mp h
    obtain ⟨u, promised, array, highest, sends⟩ := handlePhase1_untouched msg (stack i) first
    have left : ∀ j ∈ iids, Untouched cfg u.instancesArray j := fun j hj =>
      array ▸ (rest j hj).promiseRecord (others j hj) msg.ballot
    obtain ⟨t, loop, array', highest', sends'⟩ := ih apart' left
    refine ⟨t, ?_, ?_, ?_, ?_⟩
    · rw [Outcome.fold_cons, promised, Outcome.bind_running, loop]
    · rw [array', array, List.foldl_cons]
    · rw [highest', highest, List.foldl_cons]
    · rw [sends', sends]
      simp

end Promises

variable {cfg : Config} {s : RingAcceptor} {msg : Phase1RangeMsg}

theorem instanceRange_apart (fits : msg.toIid - msg.fromIid < cfg.workingSetSize) :
    Apart cfg (instanceRange msg) := by
  have nodup : (instanceRange msg).Nodup := List.nodup_range' ..
  refine nodup.imp_of_mem ?_
  intro i j hi hj other same
  obtain ⟨low, high⟩ := List.mem_range'_1.mp hi
  obtain ⟨low', high'⟩ := List.mem_range'_1.mp hj
  have size : cfg.ssmSize = cfg.workingSetSize := rfl
  have equal : j = i := window_index_injective low' (by omega) low (by omega) same
  exact other equal.symm

theorem instanceRange_highest {n : ℕ} (above : n < msg.fromIid)
    (nonempty : msg.fromIid ≤ msg.toIid) : (instanceRange msg).foldl max n = msg.toIid := by
  have last (k : ℕ) : (List.range' msg.fromIid (k + 1)).foldl max n = msg.fromIid + k := by
    induction k with
    | zero => simp [above.le]
    | succ k ih =>
      rw [List.range'_concat, List.foldl_append, ih]
      simp
  unfold instanceRange
  rw [show msg.toIid + 1 - msg.fromIid = (msg.toIid - msg.fromIid) + 1 by omega, last]
  omega

theorem Unseen.untouched (h : Unseen s) {i : ℕ} (above : s.highestInstanceSeen < i)
    (notLater : (s.record cfg i).instNumber ≤ i) : Untouched cfg s.instancesArray i := by
  have fresh := h.readied_fresh (ssmSlot cfg i) i
  have own : (readied (s.instancesArray (ssmSlot cfg i)) i).instNumber = i := by
    have le : (s.instancesArray (ssmSlot cfg i)).instNumber ≤ i := notLater
    unfold readied
    split_ifs
    · rfl
    · rfl
    · omega
  obtain ⟨ballot, acceptBallot⟩ := fresh (.inr (by rw [own]; exact above))
  exact ⟨notLater, ballot, acceptBallot⟩

/-- The promise for a range of instances none of which was seen leaves the records that the
promises for each instance leave, and its answer stands for the answers of these. -/
theorem range_promise_equals_promises {a : ℕ} (reached : Reached cfg a s)
    (stack : ℕ → Phase1Stack) (above : s.highestInstanceSeen < msg.fromIid)
    (nonempty : msg.fromIid ≤ msg.toIid) (fits : msg.toIid - msg.fromIid < cfg.workingSetSize)
    (notLater : ∀ i ∈ instanceRange msg, (s.record cfg i).instNumber ≤ i) :
    ∃ t u, acceptorHandlePhase1RangeMsg cfg s msg stack = .running t ∧
      handleEach cfg s msg stack = .running u ∧
      t.instancesArray = u.instancesArray ∧ t.highestInstanceSeen = u.highestInstanceSeen ∧
      t.toSuccessor =
        .phase1Range { msg with promisesCount := msg.promisesCount + 1 } :: s.toSuccessor ∧
      u.toSuccessor =
        (standsFor { msg with promisesCount := msg.promisesCount + 1 }).reverse ++
          s.toSuccessor := by
  have untouched : ∀ i ∈ instanceRange msg, Untouched cfg s.instancesArray i := by
    intro i hi
    obtain ⟨low, -⟩ := List.mem_range'_1.mp hi
    exact reached.unseen.untouched (above.trans_le low) (notLater i hi)
  have apart := instanceRange_apart fits
  obtain ⟨v, fast, array, highest, silent⟩ := promiseLoop_untouched
    (s := { s with highestInstanceSeen := msg.toIid }) msg.ballot apart untouched
  obtain ⟨u, slow, array', highest', sends⟩ := handleLoop_untouched msg stack apart untouched
  refine ⟨v.send (.phase1Range { msg with promisesCount := msg.promisesCount + 1 }), u, ?_, slow,
    array.trans array'.symm, ?_, congrArg (List.cons _) silent, sends⟩
  · unfold acceptorHandlePhase1RangeMsg
    rw [if_pos above, fast, Outcome.bind_running]
  · rw [highest', instanceRange_highest above nonempty]
    exact highest

/-- A second range, after the promise for a first one. -/
theorem second_range_promised :
    let s := (run (acceptorStep Config.small 2) (.running (regularAcceptorInit 2))
      [.toAcceptor 2 (.phase1Range ⟨1, 2, 65792, 0⟩) fun _ => ⟨0, 0, 0⟩]).state
    ∃ t u, acceptorHandlePhase1RangeMsg Config.small s ⟨3, 4, 65792, 0⟩ (fun _ => ⟨0, 0, 0⟩) =
        .running t ∧
      handleEach Config.small s ⟨3, 4, 65792, 0⟩ (fun _ => ⟨0, 0, 0⟩) = .running u ∧
      t.instancesArray = u.instancesArray ∧ t.highestInstanceSeen = u.highestInstanceSeen ∧
      t.toSuccessor = .phase1Range ⟨3, 4, 65792, 1⟩ :: s.toSuccessor ∧
      u.toSuccessor = (standsFor ⟨3, 4, 65792, 1⟩).reverse ++ s.toSuccessor := by
  refine range_promise_equals_promises (a := 2) ⟨_, ?_, Outcome.running_of_isRunning ?_⟩ _ ?_ ?_ ?_
    ?_
  · simp [Brings, NamesInstances]
  all_goals decide

end FdsPaxos.RingRangePromise
