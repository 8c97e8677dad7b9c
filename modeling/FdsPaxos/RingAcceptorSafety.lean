import FdsPaxos.RingAcceptorMoves
import FdsPaxos.RingWorld

set_option autoImplicit false

namespace FdsPaxos.RingAcceptorSafety
open TransitionRuns CircularWindow RingConfig RingMessages RingStableStorage RingAcceptor
open RingAcceptorMoves RingWorld

def Binds (i : ℕ) (b : Ballot) : Deed → Prop
  | .promised i' b' => i' = i ∧ b' = b
  | .accepted i' b' _ _ => i' = i ∧ b' = b
  | .overwrote _ => False

def Overwritten (cfg : Config) (s : RingAcceptor) (i : ℕ) : Prop :=
  i < (s.record cfg i).instNumber

def Monotone (history : List Deed) : Prop :=
  history.Pairwise fun later earlier =>
    ∀ i b b', Binds i b later → Binds i b' earlier → b' ≤ b

section Records

/-- The ballots of a record cover all that was done for its instance. -/
structure Held (cfg : Config) (s : RingAcceptor) : Prop where
  acceptBallot : ∀ slot, (s.instancesArray slot).acceptBallot ≤ (s.instancesArray slot).ballot
  deeds : ∀ deed ∈ s.history, ∀ i b, Binds i b deed → Overwritten cfg s i ∨
    (s.record cfg i).instNumber = i ∧ b ≤ (s.record cfg i).ballot
  monotone : Monotone s.history

/-- The slots go to later instances only, and the ballots of an instance grow. -/
structure RecordGrows (old ir : InstanceRecord) : Prop where
  instNumber : old.instNumber ≤ ir.instNumber
  ballot : old.instNumber = ir.instNumber → old.ballot ≤ ir.ballot

/-- From `s` to `t` the records grow, and what is done meanwhile is for records of `s` that
were not overwritten. -/
structure Since (cfg : Config) (s t : RingAcceptor) (done : List Deed) : Prop where
  records : ∀ slot, RecordGrows (s.instancesArray slot) (t.instancesArray slot)
  history : t.history = done ++ s.history
  deeds : ∀ deed ∈ done, ∀ i b, Binds i b deed → ¬ Overwritten cfg s i

variable {cfg : Config} {C : MoveCondition} {s t u : RingAcceptor}

theorem saves_ballots {old ir : InstanceRecord} {msg : CmdmapMsg} (h : Saves old msg ir) :
    ir.ballot = old.ballot ∧ ir.acceptBallot = old.acceptBallot := by
  cases h <;> exact ⟨rfl, rfl⟩

theorem RecordGrows.refl (ir : InstanceRecord) : RecordGrows ir ir :=
  ⟨le_refl _, fun _ => UInt32.le_refl _⟩

theorem RecordGrows.trans {a b c : InstanceRecord} (h : RecordGrows a b) (h' : RecordGrows b c) :
    RecordGrows a c := by
  have low := h.instNumber
  have high := h'.instNumber
  exact ⟨le_trans low high, fun same =>
    UInt32.le_trans (h.ballot (by omega)) (h'.ballot (by omega))⟩

theorem Held.record (h : Held cfg s) {slot : ℕ} {ir : InstanceRecord}
    (grows : RecordGrows (s.instancesArray slot) ir) (le : ir.acceptBallot ≤ ir.ballot) :
    Held cfg (s.withRecord slot ir) where
  acceptBallot := by
    intro slot'
    simp only [RingAcceptor.withRecord, setSlot_apply]
    split_ifs
    · exact le
    · exact h.acceptBallot slot'
  deeds := by
    intro deed done i b binds
    have before := h.deeds deed done i b binds
    have inst := grows.instNumber
    have ballot := grows.ballot
    unfold Overwritten RingAcceptor.record at before ⊢
    simp only [RingAcceptor.withRecord, setSlot_apply]
    split_ifs with here
    · rw [here] at before
      rcases before with past | ⟨own, covered⟩
      · exact .inl (by omega)
      · rcases Nat.lt_or_ge i ir.instNumber with past | same
        · exact .inl past
        · exact .inr ⟨by omega, UInt32.le_trans covered (ballot (by omega))⟩
    · exact before
  monotone := h.monotone

theorem Held.does (h : Held cfg s) {deed : Deed} (covered : ∀ i b, Binds i b deed →
    (s.record cfg i).instNumber = i ∧ b = (s.record cfg i).ballot) : Held cfg (s.does deed) where
  acceptBallot := h.acceptBallot
  deeds := by
    intro deed' done i b binds
    rcases List.mem_cons.mp done with rfl | earlier
    · obtain ⟨own, last⟩ := covered i b binds
      exact .inr ⟨own, last ▸ UInt32.le_refl _⟩
    · exact h.deeds deed' earlier i b binds
  monotone := by
    refine List.pairwise_cons.mpr ⟨fun deed' earlier i b b' now before => ?_, h.monotone⟩
    obtain ⟨own, last⟩ := covered i b now
    rcases h.deeds deed' earlier i b' before with past | ⟨-, le⟩
    · unfold Overwritten at past
      omega
    · exact last ▸ le

theorem Held.accepts (h : Held cfg s) (msg : Phase2Msg) (cmd : Option Value)
    (covered : (s.record cfg msg.instNumber).instNumber = msg.instNumber ∧
      msg.ballot = (s.record cfg msg.instNumber).ballot) :
    Held cfg (s.does (.accepted msg.instNumber msg.ballot msg.cmdKey cmd)) :=
  h.does fun i b binds => by
    obtain ⟨rfl, rfl⟩ := binds
    exact covered

theorem recordGrows_promise {ir : InstanceRecord} {b : Ballot} (le : ir.ballot ≤ b) :
    RecordGrows ir { ir with ballot := b } :=
  ⟨le_refl _, fun _ => le⟩

theorem Held.move (h : Held cfg s) (move : Move cfg C s t) : Held cfg t := by
  cases move with
  | see n => exact ⟨h.acceptBallot, h.deeds, h.monotone⟩
  | forward msg named => exact ⟨h.acceptBallot, h.deeds, h.monotone⟩
  | use i allowed unused =>
    have unused : (s.instancesArray (ssmSlot cfg i)).instNumber = 0 := unused
    refine h.record ⟨?_, fun _ => UInt32.le_refl _⟩ (h.acceptBallot _)
    rw [unused]
    exact Nat.zero_le _
  | overwrite i allowed used older =>
    have kept : Held cfg (s.does (.overwrote (s.record cfg i).instNumber)) :=
      h.does fun _ _ binds => binds.elim
    refine kept.record ⟨Nat.le_of_lt older, fun same => ?_⟩ (UInt32.le_refl _)
    exact absurd same (Nat.ne_of_lt older)
  | promise i ballot own le =>
    have grown : Held cfg (s.withRecord (ssmSlot cfg i) { s.record cfg i with ballot := ballot }) :=
      h.record (recordGrows_promise le) (UInt32.le_trans (h.acceptBallot _) le)
    refine grown.does fun i' b binds => ?_
    obtain ⟨rfl, rfl⟩ := binds
    rw [record_withRecord]
    exact ⟨own, rfl⟩
  | accept msg ir heard own le accepts =>
    have grown : Held cfg (s.withRecord (ssmSlot cfg msg.instNumber)
        { ir with ballot := msg.ballot, acceptBallot := msg.ballot }) :=
      h.record ⟨Nat.le_of_eq accepts.instNumber.symm, fun _ => le⟩ (UInt32.le_refl _)
    have held := grown.accepts msg ir.acceptedCmd (by
      rw [record_withRecord]
      exact ⟨accepts.instNumber.trans own, rfl⟩)
    exact ⟨held.acceptBallot, held.deeds, held.monotone⟩
  | save msg ir heard own saves =>
    obtain ⟨ballot, acceptBallot⟩ := saves_ballots saves
    refine h.record ⟨Nat.le_of_eq saves.instNumber.symm, fun _ => ?_⟩ ?_
    · rw [ballot]
      exact UInt32.le_refl _
    · rw [ballot, acceptBallot]
      exact h.acceptBallot _

theorem Since.refl (s : RingAcceptor) : Since cfg s s [] :=
  ⟨fun _ => .refl _, rfl, fun _ none => nomatch none⟩

theorem Since.record {done : List Deed} (h : Since cfg s t done) {slot : ℕ} {ir : InstanceRecord}
    (grows : RecordGrows (t.instancesArray slot) ir) :
    Since cfg s (t.withRecord slot ir) done where
  records := by
    intro slot'
    simp only [RingAcceptor.withRecord, setSlot_apply]
    split_ifs with here
    · exact here ▸ (h.records slot).trans grows
    · exact h.records slot'
  history := h.history
  deeds := h.deeds

theorem Since.does {done : List Deed} (h : Since cfg s t done) {deed : Deed}
    (own : ∀ i b, Binds i b deed → (t.record cfg i).instNumber = i) :
    Since cfg s (t.does deed) (deed :: done) where
  records := h.records
  history := congrArg (deed :: ·) h.history
  deeds := by
    intro deed' now i b binds past
    rcases List.mem_cons.mp now with rfl | earlier
    · have grows := (h.records (ssmSlot cfg i)).instNumber
      have same := own i b binds
      unfold Overwritten RingAcceptor.record at *
      omega
    · exact h.deeds deed' earlier i b binds past

theorem Since.move {done : List Deed} (h : Since cfg s t done) (move : Move cfg C t u) :
    ∃ done', Since cfg s u done' := by
  cases move with
  | see n => exact ⟨done, h.records, h.history, h.deeds⟩
  | forward msg named => exact ⟨done, h.records, h.history, h.deeds⟩
  | use i allowed unused =>
    have unused : (t.instancesArray (ssmSlot cfg i)).instNumber = 0 := unused
    refine ⟨done, h.record ⟨?_, fun _ => UInt32.le_refl _⟩⟩
    rw [unused]
    exact Nat.zero_le _
  | overwrite i allowed used older =>
    have kept : Since cfg s (t.does (.overwrote (t.record cfg i).instNumber)) _ :=
      h.does fun _ _ binds => binds.elim
    refine ⟨_, kept.record ⟨Nat.le_of_lt older, fun same => ?_⟩⟩
    exact absurd same (Nat.ne_of_lt older)
  | promise i ballot own le =>
    have grown : Since cfg s
        (t.withRecord (ssmSlot cfg i) { t.record cfg i with ballot := ballot }) done :=
      h.record (recordGrows_promise le)
    refine ⟨_, grown.does fun i' b binds => ?_⟩
    obtain ⟨rfl, rfl⟩ := binds
    rw [record_withRecord]
    exact own
  | accept msg ir heard own le accepts =>
    have grown : Since cfg s (t.withRecord (ssmSlot cfg msg.instNumber)
        { ir with ballot := msg.ballot, acceptBallot := msg.ballot }) done :=
      h.record ⟨Nat.le_of_eq accepts.instNumber.symm, fun _ => le⟩
    have did : Since cfg s ((t.withRecord (ssmSlot cfg msg.instNumber) _).does
        (.accepted msg.instNumber msg.ballot msg.cmdKey ir.acceptedCmd)) _ :=
      grown.does fun i' b binds => by
        obtain ⟨rfl, rfl⟩ := binds
        rw [record_withRecord]
        exact accepts.instNumber.trans own
    exact ⟨_, did.records, did.history, did.deeds⟩
  | save msg ir heard own saves =>
    obtain ⟨ballot, -⟩ := saves_ballots saves
    refine ⟨done, h.record ⟨Nat.le_of_eq saves.instNumber.symm, fun _ => ?_⟩⟩
    rw [ballot]
    exact UInt32.le_refl _

theorem since_moves (moves : Moves cfg C s t) : ∃ done, Since cfg s t done :=
  moves.invariant (fun t => ∃ done, Since cfg s t done)
    (fun _ _ ⟨_, since⟩ move => since.move move) ⟨[], .refl s⟩

end Records

section Answers

def count : RingMsg → UInt32
  | .phase1 msg => msg.promisesCount
  | .phase1Range msg => msg.promisesCount
  | .phase2 msg => msg.acceptsCount

def ballot : RingMsg → Ballot
  | .phase1 msg => msg.ballot
  | .phase1Range msg => msg.ballot
  | .phase2 msg => msg.ballot

def IsFor (i : ℕ) : RingMsg → Prop
  | .phase1 msg => i = msg.instNumber
  | .phase1Range msg => i ∈ instanceRange msg
  | .phase2 msg => i = msg.instNumber

/-- A message that is sent on with another count was for an instance of the one received, and
the acceptor bound itself to its ballot. -/
def Backed (received : RingMsg) (done : List Deed) (msg : RingMsg) : Prop :=
  ∀ i, IsFor i msg → count msg ≠ count received →
    IsFor i received ∧ ∃ deed ∈ done, Binds i (ballot received) deed

/-- From `s` to `t` only backed messages are sent. -/
def Answers (received : RingMsg) (s t : RingAcceptor) : Prop :=
  ∃ sent done, t.toSuccessor = sent ++ s.toSuccessor ∧ t.history = done ++ s.history ∧
    ∀ msg ∈ sent, Backed received done msg

variable {cfg : Config} {received : RingMsg} {s t u : RingAcceptor}

theorem Answers.refl (s : RingAcceptor) : Answers received s s :=
  ⟨[], [], rfl, rfl, fun _ none => nomatch none⟩

theorem Answers.trans (h : Answers received s t) (h' : Answers received t u) :
    Answers received s u := by
  obtain ⟨sent, done, sentEq, doneEq, backed⟩ := h
  obtain ⟨sent', done', sentEq', doneEq', backed'⟩ := h'
  refine ⟨sent' ++ sent, done' ++ done, ?_, ?_, fun msg now i isFor counts => ?_⟩
  · rw [sentEq', sentEq, List.append_assoc]
  · rw [doneEq', doneEq, List.append_assoc]
  · rcases List.mem_append.mp now with last | first
    · obtain ⟨for_, deed, did, binds⟩ := backed' msg last i isFor counts
      exact ⟨for_, deed, List.mem_append_left _ did, binds⟩
    · obtain ⟨for_, deed, did, binds⟩ := backed msg first i isFor counts
      exact ⟨for_, deed, List.mem_append_right _ did, binds⟩

theorem Answers.bind {o : AcceptorOutcome} {f : RingAcceptor → AcceptorOutcome}
    (first : Answers received s o.state)
    (next : ∀ t, o = .running t → Answers received t (f t).state) :
    Answers received s (o.bind f).state := by
  cases o with
  | running t => exact first.trans (next t rfl)
  | aborted fault t => exact first

theorem Answers.sends {msg : RingMsg} (done : List Deed)
    (sent : t.toSuccessor = msg :: s.toSuccessor) (history : t.history = done ++ s.history)
    (backed : Backed received done msg) : Answers received s t := by
  refine ⟨[msg], done, sent, history, fun msg' now => ?_⟩
  rcases List.mem_singleton.mp now with rfl
  exact backed

def Silent (s t : RingAcceptor) (done : List Deed) : Prop :=
  t.toSuccessor = s.toSuccessor ∧ t.history = done ++ s.history

theorem Silent.answers {done : List Deed} (h : Silent s t done) : Answers received s t :=
  ⟨[], done, h.1, h.2, fun _ none => nomatch none⟩

theorem Silent.trans {done done' : List Deed} (h : Silent s t done) (h' : Silent t u done') :
    Silent s u (done' ++ done) :=
  ⟨h'.1.trans h.1, by rw [h'.2, h.2, List.append_assoc]⟩

theorem ssmGetRecord_silent (cfg : Config) (s : RingAcceptor) (i : ℕ) :
    ∃ done, Silent s (ssmGetRecord cfg s i).state done := by
  rcases ssmGetRecord_cases cfg s i with ⟨-, got⟩ | ⟨-, got⟩ | ⟨-, got⟩ | ⟨-, -, got⟩ <;>
    rw [got]
  · exact ⟨[], rfl, rfl⟩
  · exact ⟨[], rfl, rfl⟩
  · exact ⟨[], rfl, rfl⟩
  · exact ⟨[_], rfl, rfl⟩

theorem ssmGetRecord_answers (cfg : Config) (s : RingAcceptor) (i : ℕ) :
    Answers received s (ssmGetRecord cfg s i).state :=
  (ssmGetRecord_silent cfg s i).elim fun _ silent => silent.answers

theorem acceptorHandlePhase1Msg_answers (s : RingAcceptor) (msg : Phase1Msg)
    (stack : Phase1Stack) (isFor : IsFor msg.instNumber received)
    (counts : msg.promisesCount = count received) (same : msg.ballot = ballot received) :
    Answers received s (acceptorHandlePhase1Msg cfg s msg stack).state := by
  refine (ssmGetRecord_answers cfg s _).bind fun t _ => ?_
  -- whatever is sent of the instance after the promise is backed by it
  have promised (m : Phase1Msg) (inst : m.instNumber = msg.instNumber) :
      Backed received [.promised msg.instNumber msg.ballot] (.phase1 m) := by
    intro i hi _
    have hi : i = msg.instNumber := hi.trans inst
    exact ⟨hi ▸ isFor, _, List.mem_singleton_self _, hi.symm, same⟩
  dsimp only
  by_cases lower : msg.ballot < (t.record cfg msg.instNumber).ballot
  · rw [if_pos lower]
    exact .sends [] rfl rfl fun i _ differs => absurd counts differs
  · rw [if_neg lower]
    split_ifs
    · exact .sends [_] rfl rfl (promised _ rfl)
    · exact .sends [_] rfl rfl (promised _ rfl)

theorem acceptorPromise_silent (cfg : Config) (b : Ballot) (s : RingAcceptor) (i : ℕ) :
    ∃ done, Silent s (acceptorPromise cfg b s i).state done ∧
      ((acceptorPromise cfg b s i).IsRunning → .promised i b ∈ done) := by
  obtain ⟨done, silent⟩ := ssmGetRecord_silent cfg s i
  unfold acceptorPromise
  cases got : ssmGetRecord cfg s i with
  | aborted fault t =>
    rw [got] at silent
    exact ⟨done, silent, fun running => running.elim⟩
  | running t =>
    rw [got] at silent
    simp only [Outcome.bind_running]
    split_ifs
    · exact ⟨.promised i b :: done, ⟨silent.1, congrArg (_ :: ·) silent.2⟩, fun _ =>
        List.mem_cons_self⟩
    · exact ⟨done, silent, fun running => running.elim⟩

theorem acceptorPromises_silent (cfg : Config) (b : Ballot) (s : RingAcceptor) (is : List ℕ) :
    ∃ done, Silent s (Outcome.fold (acceptorPromise cfg b) s is).state done ∧
      ((Outcome.fold (acceptorPromise cfg b) s is).IsRunning →
        ∀ i ∈ is, .promised i b ∈ done) := by
  induction is generalizing s with
  | nil => exact ⟨[], ⟨rfl, rfl⟩, fun _ _ none => nomatch none⟩
  | cons i is ih =>
    obtain ⟨done, silent, promised⟩ := acceptorPromise_silent cfg b s i
    rw [Outcome.fold_cons]
    cases turn : acceptorPromise cfg b s i with
    | aborted fault t =>
      rw [turn] at silent
      exact ⟨done, silent, fun running => running.elim⟩
    | running t =>
      rw [turn] at silent promised
      obtain ⟨done', silent', promised'⟩ := ih t
      refine ⟨done' ++ done, silent.trans silent', fun running j hj => ?_⟩
      rcases List.mem_cons.mp hj with rfl | later
      · exact List.mem_append_right _ (promised trivial)
      · exact List.mem_append_left _ (promised' running j later)

theorem acceptorHandlePhase1RangeMsg_answers (s : RingAcceptor) (msg : Phase1RangeMsg)
    (stack : ℕ → Phase1Stack) :
    Answers (.phase1Range msg) s (acceptorHandlePhase1RangeMsg cfg s msg stack).state := by
  unfold acceptorHandlePhase1RangeMsg
  split_ifs with unseen
  · obtain ⟨done, silent, promised⟩ := acceptorPromises_silent cfg msg.ballot
      { s with highestInstanceSeen := msg.toIid } (instanceRange msg)
    cases turns : Outcome.fold (acceptorPromise cfg msg.ballot)
        { s with highestInstanceSeen := msg.toIid } (instanceRange msg) with
    | aborted fault t =>
      rw [turns] at silent
      have silent : Silent s t done := silent
      exact silent.answers
    | running t =>
      rw [turns] at silent promised
      refine .sends done (congrArg (_ :: ·) silent.1) silent.2 fun i isFor _ => ?_
      exact ⟨isFor, _, promised trivial i isFor, rfl, rfl⟩
  · refine Outcome.fold_state Answers.refl (fun _ _ _ => Answers.trans) _ _ fun i isFor t => ?_
    exact acceptorHandlePhase1Msg_answers t _ _ isFor rfl rfl

theorem acceptorHandlePhase2Msg_answers (s : RingAcceptor) (msg : Phase2Msg) :
    Answers (.phase2 msg) s (acceptorHandlePhase2Msg cfg s msg).state := by
  refine (ssmGetRecord_answers cfg s _).bind fun t _ => ?_
  dsimp only
  split_ifs
  · exact .refl t
  · rcases acceptorAccept_cases cfg t msg (t.record cfg msg.instNumber) with
      ⟨fault, stopped | stopped⟩ | dropped | ⟨ir, accepts, stores⟩
    · rw [stopped]
      exact .refl t
    · rw [stopped]
      have seen : Silent t (seeInstance t msg.instNumber) [] := ⟨rfl, rfl⟩
      exact seen.answers
    · rw [dropped]
      exact .refl t
    · rw [stores]
      refine .sends [_] rfl rfl fun i isFor _ => ?_
      exact ⟨isFor, _, List.mem_singleton_self _, Eq.symm isFor, rfl⟩

theorem acceptorHandleCmdmapMsg_silent (s : RingAcceptor) (msg : CmdmapMsg) :
    ∃ done, Silent s (acceptorHandleCmdmapMsg cfg s msg).state done := by
  unfold acceptorHandleCmdmapMsg
  obtain ⟨done, silent⟩ := ssmGetRecord_silent cfg s msg.instNumber
  cases got : ssmGetRecord cfg s msg.instNumber with
  | aborted fault t =>
    rw [got] at silent
    exact ⟨done, silent⟩
  | running t =>
    rw [got] at silent
    rw [Outcome.bind_running]
    rcases acceptorSaveMap_cases cfg t msg (t.record cfg msg.instNumber) with
      ⟨fault, stopped⟩ | same | ⟨ir, saves, stores⟩
    · rw [stopped]
      exact ⟨done, silent⟩
    · rw [same]
      exact ⟨done, silent⟩
    · rw [stores]
      exact ⟨done, silent⟩

end Answers

/-- The message of the ring that an event brings, which phase 2 is also when multicast. -/
def received : RingEvent → Option RingMsg
  | .toAcceptor _ msg _ => some msg
  | .mcastAcceptor _ (.phase2 msg) => some (.phase2 msg)
  | _ => none

/-- The acceptor is not bound for the instance, or to no higher ballot, and it still has the
record of the instance if it had one. -/
structure Free (cfg : Config) (s : RingAcceptor) (i : ℕ) (b : Ballot) : Prop where
  kept : ¬ Overwritten cfg s i
  lower : ∀ deed ∈ s.history, ∀ b', Binds i b' deed → b' ≤ b

/-- What is promised of an acceptor that an event takes from `s` to `t`. -/
structure StepSafe (cfg : Config) (s : RingAcceptor) (e : RingEvent) (t : RingAcceptor) :
    Prop where
  records : ∀ slot, RecordGrows (s.instancesArray slot) (t.instancesArray slot)
  acceptBallot : ∀ slot, (t.instancesArray slot).acceptBallot ≤ (t.instancesArray slot).ballot
  binds : ∃ done, t.history = done ++ s.history ∧
    ∀ deed ∈ done, ∀ i b, Binds i b deed → Free cfg s i b
  counts : ∃ sent, t.toSuccessor = sent ++ s.toSuccessor ∧ ∀ msg ∈ sent,
    ∃ got, received e = some got ∧ ∀ i, IsFor i msg → count msg ≠ count got →
      IsFor i got ∧ Free cfg s i (ballot got)

variable {cfg : Config} {s t : RingAcceptor} {e : RingEvent} {a : ℕ}

def anyMessage : MoveCondition :=
  ⟨fun _ => True, fun _ => True, fun _ => True⟩

theorem acceptorStep_moves (cfg : Config) (a : ℕ) (o : AcceptorOutcome) (e : RingEvent) :
    Moves cfg anyMessage o.state (acceptorStep cfg a o e).state := by
  have handled (f : RingAcceptor → AcceptorOutcome)
      (moves : ∀ s, Moves cfg anyMessage s (f s).state) :
      Moves cfg anyMessage o.state (o.bind f).state := by
    cases o with
    | running s => exact moves s
    | aborted fault s => exact .refl s
  cases e with
  | toAcceptor a' msg stack =>
    simp only [acceptorStep]
    split_ifs
    · refine handled _ fun s => onPredecessorMsg_moves s stack msg ?_
      cases msg with
      | phase1 | phase1Range | phase2 => simp [HearsRing, anyMessage]
    · exact .refl _
  | mcastAcceptor a' msg =>
    simp only [acceptorStep]
    split_ifs
    · refine handled _ fun s => onMulticastMsg_moves s msg ?_
      cases msg with
      | commandMap | acceptance | phase2 => simp [HearsMcast, anyMessage]
    · exact .refl _
  | submit | periodicCheck | toMcaster | request | restart | mcastLearner | deliverLoop
  | gapCheck => exact .refl _

theorem acceptorStep_answers (cfg : Config) (a : ℕ) (o : AcceptorOutcome) (e : RingEvent) :
    (∃ done, Silent o.state (acceptorStep cfg a o e).state done) ∨
      ∃ got, received e = some got ∧ Answers got o.state (acceptorStep cfg a o e).state := by
  have still : ∃ done, Silent o.state o.state done := ⟨[], rfl, rfl⟩
  cases o with
  | aborted fault s =>
    left
    cases e with
    | toAcceptor | mcastAcceptor =>
      simp only [acceptorStep]
      split_ifs <;> exact still
    | submit | periodicCheck | toMcaster | request | restart | mcastLearner | deliverLoop
    | gapCheck => exact still
  | running s =>
    cases e with
    | toAcceptor a' msg stack =>
      simp only [acceptorStep]
      split_ifs
      · refine .inr ⟨msg, rfl, ?_⟩
        cases msg with
        | phase1 msg => exact acceptorHandlePhase1Msg_answers s msg _ rfl rfl rfl
        | phase1Range msg => exact acceptorHandlePhase1RangeMsg_answers s msg stack
        | phase2 msg => exact acceptorHandlePhase2Msg_answers s msg
      · exact .inl still
    | mcastAcceptor a' msg =>
      simp only [acceptorStep]
      split_ifs
      · cases msg with
        | commandMap msg => exact .inl (acceptorHandleCmdmapMsg_silent s msg)
        | acceptance msg => exact .inl still
        | phase2 msg =>
          refine .inr ⟨.phase2 msg, rfl, ?_⟩
          simp only [Outcome.bind_running, onMulticastMsg]
          split_ifs
          · exact acceptorHandlePhase2Msg_answers s msg
          · exact .refl s
      · exact .inl still
    | submit | periodicCheck | toMcaster | request | restart | mcastLearner | deliverLoop
    | gapCheck => exact .inl still

theorem free_of_done {done : List Deed} (since : Since cfg s t done) (held : Held cfg t)
    {deed : Deed} (now : deed ∈ done) {i : ℕ} {b : Ballot} (binds : Binds i b deed) :
    Free cfg s i b where
  kept := since.deeds deed now i b binds
  lower := by
    intro deed' before b' binds'
    have monotone := held.monotone
    unfold Monotone at monotone
    rw [since.history, List.pairwise_append] at monotone
    exact monotone.2.2 deed now deed' before i b b' binds binds'

theorem held_step (o : AcceptorOutcome) (e : RingEvent) (held : Held cfg o.state) :
    Held cfg (acceptorStep cfg a o e).state :=
  (acceptorStep_moves cfg a o e).invariant (Held cfg) (fun _ _ h move => h.move move) held

theorem acceptorStep_safe (o : AcceptorOutcome) (held : Held cfg o.state) :
    StepSafe cfg o.state e (acceptorStep cfg a o e).state := by
  have moves := acceptorStep_moves cfg a o e
  have after : Held cfg (acceptorStep cfg a o e).state := held_step o e held
  obtain ⟨done, since⟩ := since_moves moves
  refine ⟨since.records, after.acceptBallot, ⟨done, since.history, fun deed now i b binds =>
    free_of_done since after now binds⟩, ?_⟩
  rcases acceptorStep_answers cfg a o e with
    ⟨_, silent, -⟩ | ⟨got, heard, sent, done', sentEq, history, backed⟩
  · exact ⟨[], silent, fun _ none => nomatch none⟩
  · have same : done' = done := List.append_cancel_right (history.symm.trans since.history)
    subst same
    refine ⟨sent, sentEq, fun msg now => ⟨got, heard, fun i isFor differs => ?_⟩⟩
    obtain ⟨for_, deed, did, binds⟩ := backed msg now i isFor differs
    exact ⟨for_, free_of_done since after did binds⟩

theorem held_init (cfg : Config) (a : ℕ) : Held cfg (regularAcceptorInit a) where
  acceptBallot := fun _ => UInt32.le_refl _
  deeds := fun _ none => nomatch none
  monotone := List.Pairwise.nil

/-- Over a whole run of an acceptor: its records go to later instances only, the ballots it is
bound to for an instance do not decrease, and it counts itself only for an instance whose
record it still has, at a ballot not below these. -/
theorem acceptor_stays_bound (cfg : Config) (a : ℕ) (events : List RingEvent) :
    Along (acceptorStep cfg a) (fun o e => StepSafe cfg o.state e (acceptorStep cfg a o e).state)
        (.running (regularAcceptorInit a)) events ∧
      Monotone
        (run (acceptorStep cfg a) (.running (regularAcceptorInit a)) events).state.history := by
  constructor
  · exact along_of_kept (fun o : AcceptorOutcome => Held cfg o.state) (held_init cfg a)
      held_step fun o _ held => acceptorStep_safe o held
  · have held : Held cfg
        (run (acceptorStep cfg a) (.running (regularAcceptorInit a)) events).state :=
      run_invariant (fun o : AcceptorOutcome => Held cfg o.state) (held_init cfg a) held_step
    exact held.monotone

end FdsPaxos.RingAcceptorSafety
