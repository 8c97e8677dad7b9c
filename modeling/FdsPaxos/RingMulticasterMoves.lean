import FdsPaxos.RingWorld
import Mathlib.Logic.Relation
import Mathlib.Tactic.SplitIfs

set_option autoImplicit false

namespace FdsPaxos.RingMulticasterMoves
open TransitionRuns CircularWindow RingConfig RingMessages RingMcasterStorage RingMulticaster
open RingWorld

def Quiet (s t : Mcaster) : Prop :=
  { s with mcasterClock := t.mcasterClock, queue := t.queue } = t

/-- What is known of the values proposed, of the mappings asked for again, of the instances
looked up while `closed` is the highest closed one, and of the phase 2 messages that return. -/
structure MoveCondition where
  opens : Mcaster → Value → Prop
  repeats : Mcaster → ℕ → Prop
  takes : ℕ → ℕ → Prop
  returns : Phase2Msg → Prop
  takes_next : ∀ closed, takes closed (closed + 1)
  takes_mono : ∀ {closed closed' i}, closed ≤ closed' → takes closed i → takes closed' i

/-- The record of a slot that instance `i` takes over. -/
def takenRecord (mir : McasterInstanceRecord) (i : ℕ) : McasterInstanceRecord :=
  if mir.instNumber = 0 then { mir with instNumber := i, status := .ready }
  else { mcasterStorageClearRecord mir with instNumber := i, status := .ready }

def takenReplaced (cfg : Config) (s : Mcaster) (i : ℕ) : List Replaced :=
  if (s.record cfg i).instNumber = 0 then s.replaced
  else ⟨s.record cfg i, s.highestClosedIid⟩ :: s.replaced

def takeSlot (cfg : Config) (s : Mcaster) (i : ℕ) : Mcaster :=
  { s with replaced := takenReplaced cfg s i }.withRecord (msmSlot cfg i)
    (takenRecord (s.record cfg i) i)

def Takeable (mir : McasterInstanceRecord) (i : ℕ) : Prop :=
  mir.instNumber = 0 ∨ mir.instNumber < i ∧ mir.status = .done

structure InPhase1 (mir mir' : McasterInstanceRecord) : Prop where
  instNumber : mir'.instNumber = mir.instNumber
  key : mir'.assignedCmdKey = mir.assignedCmdKey
  value : mir'.assignedCmdValue = mir.assignedCmdValue
  before : mir.status = .ready ∨ mir.status = .p1Pending
  after : mir'.status = .p1Pending ∨ mir'.status = .p1Done

structure Completes (cfg : Config) (mir : McasterInstanceRecord) (msg : Phase2Msg) : Prop where
  own : mir.instNumber = msg.instNumber
  pending : mir.status = .p2Pending
  ballot : mir.ballot = msg.ballot
  key : mir.assignedCmdKey = msg.cmdKey
  enough : cfg.quorumSize ≤ msg.acceptsCount.toNat

def assignNext (cfg : Config) (s : Mcaster) (value : Value) : Mcaster :=
  let slot := msmSlot cfg (s.highestOpenIid + 1)
  { s with seqNumber := (createValueKey s.seqNumber).2 }.withRecord slot
    { s.instancesArray slot with
      assignedCmdKey := (createValueKey s.seqNumber).1
      assignedCmdValue := some value }

structure NextReady (cfg : Config) (s : Mcaster) : Prop where
  own : (s.record cfg (s.highestOpenIid + 1)).instNumber = s.highestOpenIid + 1
  ready : (s.record cfg (s.highestOpenIid + 1)).status = .p1Done
  below : s.highestOpenIid < s.p1HighestOpen
  counted : s.p1ReadyCount ≠ 0
  room : s.highestOpenIid ≠ s.highestClosedIid + cfg.maxActiveInstances

inductive Move (cfg : Config) (C : MoveCondition) : Mcaster → Mcaster → Prop where
  | quiet {s t : Mcaster} (h : Quiet s t) : Move cfg C s t
  | take (s : Mcaster) (i : ℕ) (allowed : C.takes s.highestClosedIid i)
      (free : Takeable (s.record cfg i) i) : Move cfg C s (takeSlot cfg s i)
  | phase1 (s : Mcaster) (slot : ℕ) (mir : McasterInstanceRecord)
      (h : InPhase1 (s.instancesArray slot) mir) : Move cfg C s (s.withRecord slot mir)
  | sendPhase1 (s : Mcaster) (slot : ℕ) (msg : Phase1Msg)
      (own : msg.instNumber = (s.instancesArray slot).instNumber) :
      Move cfg C s (s.sendRing (.phase1 msg))
  | sendRange (s : Mcaster) (msg : Phase1RangeMsg)
      (allowed : C.takes s.highestClosedIid msg.toIid) :
      Move cfg C s (s.sendRing (.phase1Range msg))
  | opened (s : Mcaster) (n : ℕ)
      (few : n ≤ cfg.preexecutionWindowSize - (s.p1ReadyCount + s.p1ReadyCount).toNat)
      (taken : ∀ i, s.p1HighestOpen < i → i ≤ s.p1HighestOpen + n →
        i ≤ (s.record cfg i).instNumber) : Move cfg C s (mcasterAddOpen s n)
  | promised (s : Mcaster) (msg : Phase1Msg) (slot : ℕ)
      (pending : (s.instancesArray slot).status = .p1Pending) :
      Move cfg C s (mcasterPromised cfg s msg slot)
  | startP2 (s : Mcaster) (value : Value) (allowed : C.opens s value)
      (next : NextReady cfg s) :
      Move cfg C s (mcasterStartPhase2 cfg (assignNext cfg s value)
        (msmSlot cfg (s.highestOpenIid + 1)))
  | repeatP2 (s : Mcaster) (slot : ℕ) (pending : (s.instancesArray slot).status = .p2Pending) :
      Move cfg C s (mcasterDoPhase2 cfg (mcasterBroadcastMapping cfg s slot) slot)
  | complete (s : Mcaster) (slot : ℕ) (msg : Phase2Msg) (returned : C.returns msg)
      (h : Completes cfg (s.instancesArray slot) msg) :
      Move cfg C s (mcasterBroadcastAcceptance
        (s.withRecord slot { s.instancesArray slot with status := .done }) slot)
  | advance (s : Mcaster) (slot : ℕ) (done : (s.instancesArray slot).status = .done)
      (next : (s.instancesArray slot).instNumber = s.highestClosedIid + 1) :
      Move cfg C s { s with highestClosedIid := s.highestClosedIid + 1 }
  | repeatMap (s : Mcaster) (i : ℕ) (allowed : C.repeats s i)
      (own : (s.record cfg i).instNumber = i) :
      Move cfg C s (mcasterBroadcastMapping cfg s (msmSlot cfg i))
  | repeatAcceptance (s : Mcaster) (slot : ℕ) (done : (s.instancesArray slot).status = .done) :
      Move cfg C s (mcasterBroadcastAcceptance s slot)

def Moves (cfg : Config) (C : MoveCondition) : Mcaster → Mcaster → Prop :=
  Relation.ReflTransGen (Move cfg C)

variable {cfg : Config} {C : MoveCondition} {s t u : Mcaster}

theorem Moves.refl (s : Mcaster) : Moves cfg C s s := Relation.ReflTransGen.refl

theorem Moves.trans (h : Moves cfg C s t) (h' : Moves cfg C t u) : Moves cfg C s u :=
  Relation.ReflTransGen.trans h h'

theorem Move.moves (h : Move cfg C s t) : Moves cfg C s t := .single h

theorem Moves.of_quiet (h : Quiet s t) : Moves cfg C s t := .single (.quiet h)

theorem Moves.invariant (I : Mcaster → Prop) (kept : ∀ s t, I s → Move cfg C s t → I t)
    (h : Moves cfg C s t) (start : I s) : I t := by
  induction h with
  | refl => exact start
  | tail _ move ih => exact kept _ _ ih move

theorem Moves.bind {o : McasterOutcome} {f : Mcaster → McasterOutcome}
    (first : Moves cfg C s o.state)
    (next : ∀ t, o = .running t → Moves cfg C s t → Moves cfg C t (f t).state) :
    Moves cfg C s (o.bind f).state := by
  cases o with
  | running t => exact first.trans (next t rfl first)
  | aborted fault t => exact first

theorem Moves.fold {f : Mcaster → ℕ → McasterOutcome} (s : Mcaster) (es : List ℕ)
    (turn : ∀ e ∈ es, ∀ t, Moves cfg C s t → Moves cfg C t (f t e).state) :
    Moves cfg C s (Outcome.fold f s es).state := by
  induction es generalizing s with
  | nil => exact .refl s
  | cons e es ih =>
    obtain ⟨head, tail⟩ := List.forall_mem_cons.mp turn
    refine Moves.bind (head s (.refl s)) fun t _ first => ih t ?_
    exact fun e he u moves => tail e he u (first.trans moves)

def reach (cfg : Config) (s : Mcaster) : ℕ :=
  max s.highestOpenIid (s.p1HighestOpen +
    (cfg.preexecutionWindowSize - (s.p1ReadyCount + s.p1ReadyCount).toNat))

def Covers (cfg : Config) (C : MoveCondition) (s : Mcaster) : Prop :=
  ∀ t, Moves cfg C s t → ∀ i, i ≤ reach cfg t → C.takes t.highestClosedIid i

theorem Covers.after (h : Covers cfg C s) (moves : Moves cfg C s t) : Covers cfg C t :=
  fun u moves' => h u (moves.trans moves')

structure SameIndices (s t : Mcaster) : Prop where
  highestOpen : t.highestOpenIid = s.highestOpenIid
  p1Highest : t.p1HighestOpen = s.p1HighestOpen
  p1Ready : t.p1ReadyCount = s.p1ReadyCount
  closed : t.highestClosedIid = s.highestClosedIid

theorem SameIndices.trans (h : SameIndices s t) (h' : SameIndices t u) : SameIndices s u :=
  ⟨h'.highestOpen.trans h.highestOpen, h'.p1Highest.trans h.p1Highest,
    h'.p1Ready.trans h.p1Ready, h'.closed.trans h.closed⟩

@[simp] theorem record_withRecord (i : ℕ) (mir : McasterInstanceRecord) :
    (s.withRecord (msmSlot cfg i) mir).record cfg i = mir :=
  setSlot_self _ _ _

theorem mcasterReplace_same (s : Mcaster) (slot : ℕ) (key : CommandId) (value : Value) :
    SameIndices s (mcasterStorageReplaceAssignedValue s slot key value) ∧
      (mcasterStorageReplaceAssignedValue s slot key value).mcast = s.mcast := by
  unfold mcasterStorageReplaceAssignedValue
  dsimp only
  split
  · exact ⟨⟨rfl, rfl, rfl, rfl⟩, rfl⟩
  · split_ifs <;> exact ⟨⟨rfl, rfl, rfl, rfl⟩, rfl⟩

theorem mcasterPromised_indices (s : Mcaster) (msg : Phase1Msg) (slot : ℕ) :
    SameIndices s (mcasterPromised cfg s msg slot) := by
  have replaced := (mcasterReplace_same
    (s.withRecord slot { s.instancesArray slot with status := .p1Done })
    slot msg.cmdKey msg.cmdValue).1
  unfold mcasterPromised
  dsimp only
  split_ifs
  · exact ⟨rfl, rfl, rfl, rfl⟩
  · exact ⟨rfl, rfl, rfl, rfl⟩
  · exact ⟨rfl, rfl, rfl, rfl⟩
  · exact ⟨replaced.highestOpen, replaced.p1Highest, replaced.p1Ready, replaced.closed⟩

theorem Move.closed_le (move : Move cfg C s t) : s.highestClosedIid ≤ t.highestClosedIid := by
  cases move with
  | quiet h => exact h ▸ le_refl _
  | promised msg slot pending => exact (mcasterPromised_indices s msg slot).closed.ge
  | advance slot done next => exact Nat.le_succ _
  | _ => exact le_refl _

theorem Moves.closed_le (h : Moves cfg C s t) : s.highestClosedIid ≤ t.highestClosedIid :=
  h.invariant (fun t => s.highestClosedIid ≤ t.highestClosedIid)
    (fun _ _ kept move => kept.trans move.closed_le) (le_refl _)

theorem mcasterStorageGet_own {i : ℕ} (got : mcasterStorageGet cfg s i = .running t) :
    (t.record cfg i).instNumber = i := by
  unfold mcasterStorageGet at got
  dsimp only at got
  split_ifs at got with unused older done newer
  · cases got
    simp
  · cases got
    simp
  · cases got
    omega

theorem mcasterStorageGet_cases (cfg : Config) (s : Mcaster) (i : ℕ) :
    (∃ fault, mcasterStorageGet cfg s i = .aborted fault s) ∨
    (mcasterStorageGet cfg s i = .running s) ∨
    (Takeable (s.record cfg i) i ∧
      mcasterStorageGet cfg s i = .running (takeSlot cfg s i)) := by
  unfold mcasterStorageGet takeSlot takenReplaced takenRecord Takeable
  dsimp only
  split_ifs with unused older done newer
  · exact .inr (.inr ⟨.inl unused, rfl⟩)
  · exact .inr (.inr ⟨.inr ⟨older, done⟩, rfl⟩)
  · exact .inl ⟨_, rfl⟩
  · exact .inl ⟨_, rfl⟩
  · exact .inr (.inl rfl)

theorem mcasterStorageGet_moves (s : Mcaster) (i : ℕ)
    (allowed : C.takes s.highestClosedIid i) :
    Moves cfg C s (mcasterStorageGet cfg s i).state := by
  rcases mcasterStorageGet_cases cfg s i with ⟨fault, stopped⟩ | same | ⟨free, taken⟩
  · rw [stopped]
    exact .refl s
  · rw [same]
    exact .refl s
  · rw [taken]
    exact (Move.take s i allowed free).moves

theorem mcasterStorageGet_of_own {i : ℕ} (positive : 0 < i)
    (own : (s.record cfg i).instNumber = i) : mcasterStorageGet cfg s i = .running s := by
  unfold mcasterStorageGet
  dsimp only
  rw [own, if_neg positive.ne', if_neg (lt_irrefl i), if_neg (lt_irrefl i)]

theorem mcasterStorageGet_indices {i : ℕ} (got : mcasterStorageGet cfg s i = .running t) :
    SameIndices s t := by
  rcases mcasterStorageGet_cases cfg s i with ⟨fault, stopped⟩ | same | ⟨_, taken⟩
  · rw [stopped] at got
    cases got
  · rw [same] at got
    cases got
    exact ⟨rfl, rfl, rfl, rfl⟩
  · rw [taken] at got
    cases got
    exact ⟨rfl, rfl, rfl, rfl⟩

def Grown (s t : Mcaster) : Prop :=
  ∀ slot, (s.instancesArray slot).instNumber ≤ (t.instancesArray slot).instNumber

theorem Grown.withRecord (slot : ℕ) {mir : McasterInstanceRecord}
    (grown : (s.instancesArray slot).instNumber ≤ mir.instNumber) :
    Grown s (s.withRecord slot mir) := by
  intro slot'
  simp only [Mcaster.withRecord, setSlot_apply]
  split_ifs with here
  · exact here ▸ grown
  · exact le_refl _

theorem Takeable.grows {mir : McasterInstanceRecord} {i : ℕ} (free : Takeable mir i) :
    mir.instNumber ≤ (takenRecord mir i).instNumber := by
  unfold takenRecord
  rcases free with unused | ⟨older, -⟩
  · rw [unused]
    exact Nat.zero_le _
  · split_ifs
    · exact older.le
    · exact older.le

theorem mcasterStorageGet_grown {i : ℕ} (got : mcasterStorageGet cfg s i = .running t) :
    Grown s t := by
  rcases mcasterStorageGet_cases cfg s i with ⟨fault, stopped⟩ | same | ⟨free, taken⟩
  · rw [stopped] at got
    cases got
  · rw [same] at got
    cases got
    exact fun _ => le_refl _
  · rw [taken] at got
    cases got
    exact Grown.withRecord (s := { s with replaced := takenReplaced cfg s i }) _ free.grows

theorem mcasterDoPhase1_moves (s : Mcaster) (slot : ℕ)
    (before : (s.instancesArray slot).status = .ready ∨
      (s.instancesArray slot).status = .p1Pending) :
    Moves cfg C s (mcasterDoPhase1 cfg s slot).state := by
  unfold mcasterDoPhase1
  dsimp only
  split_ifs
  · exact .refl s
  · refine (Move.sendPhase1 s slot _ rfl).moves.trans (Move.phase1 _ slot _ ?_).moves
    exact ⟨rfl, rfl, rfl, before, .inl rfl⟩

theorem mcasterOpenInstanceP1_moves (ballot : Ballot) (s : Mcaster) (i : ℕ)
    (allowed : C.takes s.highestClosedIid i) :
    Moves cfg C s (mcasterOpenInstanceP1 cfg ballot s i).state := by
  refine (mcasterStorageGet_moves s i allowed).bind fun t got _ => ?_
  dsimp only
  split_ifs with ready
  · refine (Move.phase1 t _ _ ?_).moves
    exact ⟨rfl, rfl, rfl, .inl ready, .inl rfl⟩
  · exact .refl t

theorem mcasterOpenInstanceP1_takes {ballot : Ballot} {i : ℕ}
    (done : mcasterOpenInstanceP1 cfg ballot s i = .running t) :
    Grown s t ∧ i ≤ (t.record cfg i).instNumber ∧ SameIndices s t := by
  obtain ⟨u, got, next⟩ := Outcome.bind_eq_running.mp done
  have own := mcasterStorageGet_own got
  have before := mcasterStorageGet_grown got
  have same := mcasterStorageGet_indices got
  dsimp only at next
  split_ifs at next with ready
  cases next
  have kept : Grown u (u.withRecord (msmSlot cfg i)
      { u.record cfg i with
        status := .p1Pending
        ballot := ballot
        timeout := timerSetTimeout u.mcasterClock cfg.p1Interval }) :=
    Grown.withRecord _ (le_refl _)
  refine ⟨fun slot => (before slot).trans (kept slot), ?_, same.trans ⟨rfl, rfl, rfl, rfl⟩⟩
  rw [record_withRecord]
  exact own.ge

theorem openLoop_takes {ballot : Ballot} {iids : List ℕ}
    (done : Outcome.fold (mcasterOpenInstanceP1 cfg ballot) s iids = .running t) :
    Grown s t ∧ (∀ i ∈ iids, i ≤ (t.record cfg i).instNumber) ∧ SameIndices s t := by
  induction iids generalizing s with
  | nil =>
    cases done
    exact ⟨fun _ => le_refl _, by simp, ⟨rfl, rfl, rfl, rfl⟩⟩
  | cons i iids ih =>
    obtain ⟨u, first, rest⟩ := Outcome.bind_eq_running.mp done
    obtain ⟨grown, own, same⟩ := mcasterOpenInstanceP1_takes first
    obtain ⟨grown', others, same'⟩ := ih rest
    refine ⟨fun slot => (grown slot).trans (grown' slot), ?_, same.trans same'⟩
    exact List.forall_mem_cons.mpr ⟨own.trans (grown' _), others⟩

theorem openLoop_moves (ballot : Ballot) (s : Mcaster) {iids : List ℕ}
    (allowed : ∀ i ∈ iids, C.takes s.highestClosedIid i) :
    Moves cfg C s (Outcome.fold (mcasterOpenInstanceP1 cfg ballot) s iids).state :=
  Moves.fold s _ fun i hi t moves =>
    mcasterOpenInstanceP1_moves ballot t i (C.takes_mono moves.closed_le (allowed i hi))

theorem mcasterOpenNewInstancesP1_moves (s : Mcaster) (covers : Covers cfg C s) :
    Moves cfg C s (mcasterOpenNewInstancesP1 cfg s).state := by
  unfold mcasterOpenNewInstancesP1
  dsimp only
  split_ifs
  · exact .refl s
  · set toOpen := cfg.preexecutionWindowSize - (s.p1ReadyCount + s.p1ReadyCount).toNat with hto
    have allowed (i : ℕ) (hi : i ≤ s.p1HighestOpen + toOpen) :
        C.takes s.highestClosedIid i := by
      refine covers s (.refl s) i ?_
      unfold reach
      omega
    have loop : Moves cfg C s (Outcome.fold (mcasterOpenInstanceP1 cfg
        (makeFirstBallot selfAcceptorId incarnationNumber.toUInt32)) s
        (List.range' (s.p1HighestOpen + 1) toOpen)).state := by
      refine openLoop_moves _ s fun i hi => allowed i ?_
      have bound := (List.mem_range'_1.mp hi).2
      omega
    refine loop.bind fun t done _ => ?_
    obtain ⟨-, taken, same⟩ := openLoop_takes done
    refine (Move.sendRange t
      { fromIid := s.p1HighestOpen + 1
        toIid := s.p1HighestOpen + toOpen
        ballot := makeFirstBallot selfAcceptorId incarnationNumber.toUInt32
        promisesCount := 0 } ?_).moves.trans ?_
    · rw [same.closed]
      exact allowed _ (le_refl _)
    · rw [← same.p1Highest]
      refine (Move.opened _ toOpen ?_ ?_).moves
      · change toOpen ≤ cfg.preexecutionWindowSize - (t.p1ReadyCount + t.p1ReadyCount).toNat
        rw [same.p1Ready]
      · intro i above below
        have above : t.p1HighestOpen < i := above
        have below : i ≤ t.p1HighestOpen + toOpen := below
        rw [same.p1Highest] at above below
        exact taken i (List.mem_range'_1.mpr ⟨above, by omega⟩)

theorem mcasterCompleteP1_moves (s : Mcaster) (i : ℕ) (allowed : C.takes s.highestClosedIid i) :
    Moves cfg C s (mcasterCompleteP1 cfg s i).state := by
  refine (mcasterStorageGet_moves s i allowed).bind fun t _ _ => ?_
  dsimp only
  split_ifs with pending
  · refine (Move.phase1 t _ _ ?_).moves
    exact ⟨rfl, rfl, rfl, .inr pending, .inr rfl⟩
  · exact .refl t

theorem mcasterHandlePhase1RangeMsg_moves (s : Mcaster) (msg : Phase1RangeMsg)
    (allowed : ∀ i, i ≤ msg.toIid → C.takes s.highestClosedIid i) :
    Moves cfg C s (mcasterHandlePhase1RangeMsg cfg s msg).state := by
  unfold mcasterHandlePhase1RangeMsg
  split_ifs
  · exact .refl s
  · exact (Move.sendRange s
      { fromIid := msg.fromIid
        toIid := msg.toIid
        ballot := msg.ballot
        promisesCount := 0 } (allowed _ (le_refl _))).moves
  · refine Moves.fold s _ fun i hi t moves => mcasterCompleteP1_moves t i ?_
    obtain ⟨low, high⟩ := List.mem_range'_1.mp hi
    exact C.takes_mono moves.closed_le (allowed i (by omega))
  · exact .refl s

theorem mcasterPhase1Returned_moves (s : Mcaster) (msg : Phase1Msg) :
    Moves cfg C s (mcasterPhase1Returned cfg s msg).state := by
  unfold mcasterPhase1Returned
  dsimp only
  by_cases pending : (s.record cfg msg.instNumber).status = .p1Pending
  · rw [if_neg (not_not.mpr pending)]
    have again (ballot : Ballot) : Moves cfg C s (mcasterDoPhase1 cfg
        (s.withRecord (msmSlot cfg msg.instNumber)
          { s.record cfg msg.instNumber with ballot := ballot })
        (msmSlot cfg msg.instNumber)).state := by
      refine Moves.trans (Move.phase1 s _ _ ?_).moves (mcasterDoPhase1_moves _ _ (.inr ?_))
      · exact ⟨rfl, rfl, rfl, .inr pending, .inl pending⟩
      · simpa [Mcaster.withRecord] using pending
    by_cases few : msg.promisesCount.toNat < cfg.quorumSize
    · rw [if_pos few]
      split_ifs
      · exact .refl s
      · exact again _
      · exact again _
    · rw [if_neg few]
      split_ifs
      · exact .refl s
      · exact (Move.promised s msg _ pending).moves
  · rw [if_pos pending]
    exact .refl s

theorem mcasterHandlePhase1Msg_moves (s : Mcaster) (msg : Phase1Msg)
    (allowed : C.takes s.highestClosedIid msg.instNumber) :
    Moves cfg C s (mcasterHandlePhase1Msg cfg s msg).state := by
  unfold mcasterHandlePhase1Msg
  split_ifs
  · exact .refl s
  · exact (mcasterStorageGet_moves s _ allowed).bind fun t _ _ => mcasterPhase1Returned_moves t msg
  · exact .refl s

theorem mcasterCheckExpired_moves (s : Mcaster) (i : ℕ) (allowed : C.takes s.highestClosedIid i) :
    Moves cfg C s (mcasterCheckExpired cfg s i).state := by
  refine (mcasterStorageGet_moves s i allowed).bind fun t _ _ => ?_
  dsimp only
  split_ifs with first second
  · exact mcasterDoPhase1_moves t _ (.inr first.1)
  · exact (Move.repeatP2 t _ second.1).moves
  · exact .refl t

theorem mcasterCheckExpiredInstances_moves (s : Mcaster) (covers : Covers cfg C s) :
    Moves cfg C s (mcasterCheckExpiredInstances cfg s).state := by
  refine Moves.fold s _ fun i hi t moves => mcasterCheckExpired_moves t i ?_
  obtain ⟨low, high⟩ := List.mem_range'_1.mp hi
  refine C.takes_mono moves.closed_le (covers s (.refl s) i ?_)
  unfold reach
  omega

theorem mcasterNextValue_moves (s : Mcaster) (covers : Covers cfg C s) :
    Moves cfg C s (mcasterNextValue cfg s).state.1 ∧
      ∀ t value, mcasterNextValue cfg s = .running (t, some value) → NextReady cfg t := by
  unfold mcasterNextValue
  dsimp only
  split_ifs with full p1 idle
  · exact ⟨.refl s, by simp⟩
  · exact ⟨.refl s, by simp⟩
  · exact ⟨.refl s, by simp⟩
  · have moves : Moves cfg C s (mcasterStorageGet cfg s (s.highestOpenIid + 1)).state := by
      refine mcasterStorageGet_moves s _ (covers s (.refl s) _ ?_)
      unfold reach
      omega
    cases got : mcasterStorageGet cfg s (s.highestOpenIid + 1) with
    | aborted fault t =>
      rw [got] at moves
      exact ⟨moves, by simp⟩
    | running t =>
      rw [got] at moves
      have own := mcasterStorageGet_own got
      obtain ⟨highest, p1Highest, p1Ready, closed⟩ := mcasterStorageGet_indices got
      simp only [Outcome.andThen_running]
      split_ifs with pending other ballot
      · exact ⟨moves, by simp⟩
      · exact ⟨moves, by simp⟩
      · exact ⟨moves, by simp⟩
      · cases values : t.queue with
        | nil => exact ⟨moves, by simp⟩
        | cons value rest =>
          refine ⟨moves.trans (.of_quiet rfl), ?_⟩
          intro u value' taken
          cases taken
          rw [← highest] at own other
          refine ⟨own, not_not.mp other, ?_, ?_, ?_⟩
          · change t.highestOpenIid < t.p1HighestOpen
            omega
          · exact p1Ready ▸ idle
          · change t.highestOpenIid ≠ t.highestClosedIid + cfg.maxActiveInstances
            rwa [highest, closed]

theorem repeatP2_effect (cfg : Config) (s : Mcaster) (slot : ℕ) :
    ∃ mir m, (mcasterDoPhase2 cfg (mcasterBroadcastMapping cfg s slot) slot).instancesArray =
        setSlot s.instancesArray slot mir ∧
      mir.instNumber = (s.instancesArray slot).instNumber ∧
      mir.assignedCmdKey = (s.instancesArray slot).assignedCmdKey ∧
      mir.assignedCmdValue = (s.instancesArray slot).assignedCmdValue ∧
      mir.status = .p2Pending ∧
      m.instNumber = mir.instNumber ∧ m.acceptsCount = 0 ∧
      (mcasterDoPhase2 cfg (mcasterBroadcastMapping cfg s slot) slot).mcast =
        .phase2 m :: .commandMap
          { instNumber := (s.instancesArray slot).instNumber
            cmdKey := (s.instancesArray slot).assignedCmdKey
            cmdValue := (s.instancesArray slot).assignedCmdValue.getD [] } :: s.mcast := by
  simp only [mcasterDoPhase2, mcasterBroadcastMapping, Mcaster.withRecord, Mcaster.sendMcast,
    setSlot_self, setSlot_setSlot]
  exact ⟨_, _, rfl, rfl, rfl, rfl, rfl, rfl, rfl, rfl⟩

theorem mcasterPromised_mcast (s : Mcaster) (msg : Phase1Msg) (slot : ℕ) :
    ∀ m ∈ s.mcast, m ∈ (mcasterPromised cfg s msg slot).mcast := by
  have replaced := (mcasterReplace_same
    (s.withRecord slot { s.instancesArray slot with status := .p1Done })
    slot msg.cmdKey msg.cmdValue).2
  unfold mcasterPromised
  dsimp only
  split_ifs
  · exact fun _ hm => hm
  · exact fun _ hm => List.mem_cons_of_mem _ hm
  · exact fun _ hm => List.mem_cons_of_mem _ hm
  · exact fun _ hm => List.mem_cons_of_mem _ (replaced ▸ hm)

theorem Move.mcast_grows (move : Move cfg C s t) : ∀ msg ∈ s.mcast, msg ∈ t.mcast := by
  cases move with
  | quiet h => exact fun _ hmsg => h ▸ hmsg
  | promised msg slot pending => exact mcasterPromised_mcast _ _ _
  | startP2 value allowed next =>
    exact fun _ hmsg => List.mem_cons_of_mem _ (List.mem_cons_of_mem _ hmsg)
  | repeatP2 slot pending =>
    exact fun _ hmsg => List.mem_cons_of_mem _ (List.mem_cons_of_mem _ hmsg)
  | complete slot msg returned h => exact fun _ hmsg => List.mem_cons_of_mem _ hmsg
  | repeatMap i allowed own => exact fun _ hmsg => List.mem_cons_of_mem _ hmsg
  | repeatAcceptance slot done => exact fun _ hmsg => List.mem_cons_of_mem _ hmsg
  | take | phase1 | sendPhase1 | sendRange | opened | advance => exact fun _ hmsg => hmsg

/-- Every value proposed by the loop meets the condition where it is assigned. -/
def OpensMeet (cfg : Config) (P : Mcaster → Value → Prop) : ℕ → Mcaster → Prop
  | 0, _ => True
  | turns + 1, s =>
    match mcasterNextValue cfg s with
    | .running (t, some value) =>
      P t value ∧
        match mcasterOpenInstanceP2 cfg t value with
        | .running u => OpensMeet cfg P turns u
        | .aborted _ _ => True
    | .running (_, none) | .aborted _ _ => True

instance OpensMeet.decidable (cfg : Config) (P : Mcaster → Value → Prop)
    [∀ s value, Decidable (P s value)] : ∀ turns s, Decidable (OpensMeet cfg P turns s)
  | 0, _ => isTrue trivial
  | turns + 1, s => by
    unfold OpensMeet
    exact
      match mcasterNextValue cfg s with
      | .running (t, some value) =>
        haveI : Decidable (match mcasterOpenInstanceP2 cfg t value with
            | .running u => OpensMeet cfg P turns u
            | .aborted _ _ => True) :=
          match mcasterOpenInstanceP2 cfg t value with
          | .running u => OpensMeet.decidable cfg P turns u
          | .aborted _ _ => isTrue trivial
        inferInstanceAs (Decidable (_ ∧ _))
      | .running (_, none) => isTrue trivial
      | .aborted _ _ => isTrue trivial

theorem mcasterOpenInstanceP2_moves {value : Value} (allowed : C.opens s value)
    (next : NextReady cfg s) : Moves cfg C s (mcasterOpenInstanceP2 cfg s value).state := by
  unfold mcasterOpenInstanceP2 mcasterStorageAssignValue
  dsimp only
  split_ifs
  · exact .refl s
  · exact (Move.startP2 s value allowed next).moves

theorem mcasterOpenNewInstancesP2_moves (turns : ℕ) (s : Mcaster) (covers : Covers cfg C s)
    (met : OpensMeet cfg C.opens turns s) :
    Moves cfg C s (mcasterOpenNewInstancesP2 cfg turns s).state := by
  induction turns generalizing s with
  | zero => exact .refl s
  | succ turns ih =>
    obtain ⟨moves, gives⟩ := mcasterNextValue_moves s covers
    unfold mcasterOpenNewInstancesP2
    unfold OpensMeet at met
    cases taken : mcasterNextValue cfg s with
    | aborted fault r =>
      rw [taken] at moves
      exact moves
    | running r =>
      obtain ⟨t, found⟩ := r
      rw [taken] at moves met
      cases found with
      | none => exact moves
      | some value =>
        obtain ⟨allowed, rest⟩ := met
        have next := gives t value taken
        have first : Moves cfg C s (mcasterOpenInstanceP2 cfg t value).state :=
          Moves.trans moves (mcasterOpenInstanceP2_moves allowed next)
        refine first.bind fun u opened moves' => ih u (covers.after moves') ?_
        rw [opened] at rest
        exact rest

theorem mcasterAdvanceClosed_moves (turns : ℕ) (s : Mcaster) (iid : ℕ) :
    Moves cfg C s (mcasterAdvanceClosed cfg turns s iid).state := by
  induction turns generalizing s iid with
  | zero => exact .refl s
  | succ turns ih =>
    unfold mcasterAdvanceClosed
    dsimp only
    split_ifs with closes
    · have advanced : Move cfg C s { s with highestClosedIid := s.highestClosedIid + 1 } :=
        .advance s (msmSlot cfg iid) closes.1 closes.2
      refine (advanced.moves.trans (mcasterStorageGet_moves _ _ ?_)).bind fun t _ _ => ih t _
      exact C.takes_next _
    · exact .refl s

theorem mcasterPhase2Returned_moves (s : Mcaster) (msg : Phase2Msg) (returned : C.returns msg)
    (own : (s.record cfg msg.instNumber).instNumber = msg.instNumber) :
    Moves cfg C s (mcasterPhase2Returned cfg s msg).state := by
  unfold mcasterPhase2Returned
  dsimp only
  by_cases pending : (s.record cfg msg.instNumber).status = .p2Pending
  · rw [if_neg (not_not.mpr pending)]
    split_ifs with ballot key few
    · exact .refl s
    · exact .refl s
    · exact (Move.repeatP2 s _ pending).moves
    · refine (Move.complete s _ msg returned ?_).moves.trans (mcasterAdvanceClosed_moves _ _ _)
      exact ⟨own, pending, not_not.mp ballot, not_not.mp key, not_lt.mp few⟩
  · rw [if_pos pending]
    exact .refl s

theorem mcasterHandlePhase2Msg_moves (s : Mcaster) (msg : Phase2Msg) (returned : C.returns msg)
    (allowed : C.takes s.highestClosedIid msg.instNumber) :
    Moves cfg C s (mcasterHandlePhase2Msg cfg s msg).state := by
  unfold mcasterHandlePhase2Msg
  split_ifs
  · exact .refl s
  · exact (mcasterStorageGet_moves s _ allowed).bind fun t got _ =>
      mcasterPhase2Returned_moves t msg returned (mcasterStorageGet_own got)

def requested : Request → List ℕ
  | .mapRequest instNumbers | .chosenvalRequest instNumbers => instNumbers

theorem mcasterRepeatMap_moves (s : Mcaster) (i : ℕ) (allowed : C.takes s.highestClosedIid i)
    (repeated : ∀ t, SameIndices s t → C.repeats t i) :
    Moves cfg C s (mcasterRepeatMap cfg s i).state := by
  refine (mcasterStorageGet_moves s i allowed).bind fun t got _ => ?_
  split_ifs
  · exact (Move.repeatMap t i (repeated t (mcasterStorageGet_indices got))
      (mcasterStorageGet_own got)).moves
  · exact .refl t

theorem mcasterRepeatMap_indices {i : ℕ} (done : mcasterRepeatMap cfg s i = .running t) :
    SameIndices s t := by
  obtain ⟨u, got, next⟩ := Outcome.bind_eq_running.mp done
  have same := mcasterStorageGet_indices got
  split_ifs at next <;> cases next <;>
    exact ⟨same.highestOpen, same.p1Highest, same.p1Ready, same.closed⟩

theorem mcasterRepeatAcceptance_moves (s : Mcaster) (i : ℕ)
    (allowed : C.takes s.highestClosedIid i) :
    Moves cfg C s (mcasterRepeatAcceptance cfg s i).state := by
  refine (mcasterStorageGet_moves s i allowed).bind fun t _ _ => ?_
  split_ifs with done
  · exact (Move.repeatAcceptance t _ done).moves
  · exact .refl t

theorem mcasterHandleRequest_moves (s : Mcaster) (msg : Request)
    (allowed : ∀ i ∈ requested msg, C.takes s.highestClosedIid i)
    (repeated : ∀ i ∈ requested msg, ∀ t, SameIndices s t → C.repeats t i) :
    Moves cfg C s (mcasterHandleRequest cfg s msg).state := by
  cases msg with
  | mapRequest iids =>
    replace allowed : ∀ i ∈ iids, C.takes s.highestClosedIid i := allowed
    replace repeated : ∀ i ∈ iids, ∀ t : Mcaster, SameIndices s t → C.repeats t i := repeated
    change Moves cfg C s (Outcome.fold (mcasterRepeatMap cfg) s iids).state
    induction iids generalizing s with
    | nil => exact .refl s
    | cons i iids ih =>
      obtain ⟨head, tail⟩ := List.forall_mem_cons.mp repeated
      obtain ⟨first, rest⟩ := List.forall_mem_cons.mp allowed
      refine (mcasterRepeatMap_moves s i first head).bind fun u done moves => ?_
      have same := mcasterRepeatMap_indices done
      exact ih u (fun j hj => C.takes_mono moves.closed_le (rest j hj))
        fun j hj t same' => tail j hj t (same.trans same')
  | chosenvalRequest iids =>
    exact Moves.fold s _ fun i hi t moves =>
      mcasterRepeatAcceptance_moves t i (C.takes_mono moves.closed_le (allowed i hi))

theorem quiet_wallclock (cfg : Config) (C : MoveCondition) (s : Mcaster) (timeNow : Timeval) :
    Moves cfg C s (mcasterUpdateWallclock s timeNow) := .of_quiet rfl

theorem mcasterCheckP1_moves (clock : ℕ → Timeval) (s : Mcaster) (covers : Covers cfg C s) :
    Moves cfg C s (mcasterCheckP1 cfg clock s).state := by
  have started := quiet_wallclock cfg C s (clock 0)
  refine (started.trans (mcasterOpenNewInstancesP1_moves _ (covers.after started))).bind
    fun t _ moves => ?_
  have resumed := quiet_wallclock cfg C t (clock 1)
  exact resumed.trans (mcasterCheckExpiredInstances_moves _ (covers.after (moves.trans resumed)))

def CheckMeets (cfg : Config) (P : Mcaster → Value → Prop) (clock : ℕ → Timeval) (s : Mcaster) :
    Prop :=
  (mcasterCheckP1 cfg clock s).Ensures
    (fun t => OpensMeet cfg P cfg.maxP2OpenPerIteration (mcasterUpdateWallclock t (clock 2)))
    fun _ => True

instance (cfg : Config) (P : Mcaster → Value → Prop) [∀ s value, Decidable (P s value)]
    (clock : ℕ → Timeval) (s : Mcaster) : Decidable (CheckMeets cfg P clock s) :=
  inferInstanceAs (Decidable (Outcome.Ensures _ _ _))

theorem opensMeet_of_forall {P : Mcaster → Value → Prop} (always : ∀ s value, P s value)
    (turns : ℕ) (s : Mcaster) : OpensMeet cfg P turns s := by
  induction turns generalizing s with
  | zero => trivial
  | succ turns ih =>
    unfold OpensMeet
    split
    · refine ⟨always _ _, ?_⟩
      split
      · exact ih _
      · trivial
    · trivial
    · trivial

theorem checkMeets_of_forall {P : Mcaster → Value → Prop} (always : ∀ s value, P s value)
    (clock : ℕ → Timeval) (s : Mcaster) : CheckMeets cfg P clock s := by
  unfold CheckMeets
  cases mcasterCheckP1 cfg clock s with
  | running t => exact opensMeet_of_forall always _ _
  | aborted fault t => trivial

theorem onMcasterPeriodicCheck_moves {clock : ℕ → Timeval} (covers : Covers cfg C s)
    (met : CheckMeets cfg C.opens clock s) :
    Moves cfg C s (onMcasterPeriodicCheck cfg clock s).state := by
  refine (mcasterCheckP1_moves clock s covers).bind fun t done moves => ?_
  have resumed := quiet_wallclock cfg C t (clock 2)
  exact resumed.trans (mcasterOpenNewInstancesP2_moves _ _ (covers.after (moves.trans resumed))
    (Outcome.Ensures.of_running met done))

/-- The instances of a message of the ring may be looked up, and it may return. -/
def Hears (C : MoveCondition) (closed : ℕ) : RingMsg → Prop
  | .phase1 msg => C.takes closed msg.instNumber
  | .phase1Range msg => ∀ i, i ≤ msg.toIid → C.takes closed i
  | .phase2 msg => C.returns msg ∧ C.takes closed msg.instNumber

theorem onPredecessorMsg_moves (s : Mcaster) (msg : RingMsg)
    (hears : Hears C s.highestClosedIid msg) :
    Moves cfg C s (onPredecessorMsg cfg s msg).state := by
  cases msg with
  | phase1 msg => exact mcasterHandlePhase1Msg_moves s msg hears
  | phase1Range msg => exact mcasterHandlePhase1RangeMsg_moves s msg hears
  | phase2 msg => exact mcasterHandlePhase2Msg_moves s msg hears.1 hears.2

/-- What the event brings to the multicaster is as the condition says. -/
def EventMeets (cfg : Config) (C : MoveCondition) (o : McasterOutcome) : RingEvent → Prop
  | .periodicCheck clock =>
    o.Ensures (fun s => Covers cfg C s ∧ CheckMeets cfg C.opens clock s) fun _ => True
  | .toMcaster msg _ => Hears C o.state.highestClosedIid msg
  | .request _ msg _ => ∀ i ∈ requested msg,
    C.takes o.state.highestClosedIid i ∧ ∀ t, SameIndices o.state t → C.repeats t i
  | .submit _ | .restart | .toAcceptor _ _ _ | .mcastAcceptor _ _ | .mcastLearner _ _
  | .deliverLoop _ | .gapCheck _ _ => True

theorem mcasterStep_moves {o : McasterOutcome} {e : RingEvent} (met : EventMeets cfg C o e)
    (goesOn : e ≠ .restart) : Moves cfg C o.state (mcasterStep cfg o e).state := by
  cases o with
  | aborted fault s => cases e <;> first | exact .refl _ | exact absurd rfl goesOn
  | running s =>
    cases e with
    | submit value => exact .of_quiet rfl
    | periodicCheck clock => exact onMcasterPeriodicCheck_moves met.1 met.2
    | toMcaster msg clock =>
      exact (quiet_wallclock cfg C s clock).trans (onPredecessorMsg_moves _ msg met)
    | request l msg clock =>
      refine (quiet_wallclock cfg C s clock).trans (mcasterHandleRequest_moves _ msg ?_ ?_)
      · exact fun i hi => (met i hi).1
      · exact fun i hi t same => (met i hi).2 t ⟨same.1, same.2, same.3, same.4⟩
    | restart => exact absurd rfl goesOn
    | toAcceptor a msg stack => exact .refl _
    | mcastAcceptor a msg => exact .refl _
    | mcastLearner l msg => exact .refl _
    | deliverLoop l => exact .refl _
    | gapCheck l timeNow => exact .refl _

end FdsPaxos.RingMulticasterMoves
