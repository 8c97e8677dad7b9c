import FdsPaxos.RingAcceptor
import Mathlib.Logic.Relation
import Mathlib.Tactic.SplitIfs

set_option autoImplicit false

namespace FdsPaxos.RingAcceptorMoves
open TransitionRuns CircularWindow RingConfig RingMessages RingStableStorage RingAcceptor

/-- A phase 2 message for the command of a record is accepted, and the record becomes `ir`
but for its ballots. -/
inductive Accepts (old : InstanceRecord) (msg : Phase2Msg) : InstanceRecord → Prop where
  | again (key : msg.cmdKey = old.acceptedCmdKey) (other : msg.cmdKey ≠ old.proposedCmdKey)
      (none : old.proposedCmd = .null) : Accepts old msg old
  | againFreed (key : msg.cmdKey = old.acceptedCmdKey) (other : msg.cmdKey ≠ old.proposedCmdKey)
      {cmd : Value} (own : old.proposedCmd = .allocated cmd) : Accepts old msg (clearProposed old)
  | first (key : msg.cmdKey = old.proposedCmdKey) (other : msg.cmdKey ≠ old.acceptedCmdKey)
      (none : old.acceptedCmd = none) {cmd : Value} (slot : old.proposedCmd = .inSlot cmd) :
      Accepts old msg
        { clearProposed old with acceptedCmdKey := old.proposedCmdKey, acceptedCmd := some cmd }
  | replaced (key : msg.cmdKey = old.proposedCmdKey) (other : msg.cmdKey ≠ old.acceptedCmdKey)
      {accepted cmd : Value} (some_ : old.acceptedCmd = some accepted)
      (own : old.proposedCmd = .allocated cmd) :
      Accepts old msg
        { old with
          acceptedCmdKey := old.proposedCmdKey
          acceptedCmd := some cmd
          proposedCmdKey := clearCmdKey
          proposedCmd := .freed }

/-- A mapping is stored in a record, or drops what was stored beside the accepted command. -/
inductive Saves (old : InstanceRecord) (msg : CmdmapMsg) : InstanceRecord → Prop where
  | forget {cmd : Value} (own : old.proposedCmd = .allocated cmd) :
      Saves old msg (clearProposed old)
  | inSlot (none : old.acceptedCmd = none) :
      Saves old msg { old with proposedCmdKey := msg.cmdKey, proposedCmd := .inSlot msg.cmdValue }
  | secondary (some_ : old.acceptedCmd.isSome) (other : msg.cmdKey ≠ old.acceptedCmdKey) :
      Saves old msg
        { old with proposedCmdKey := msg.cmdKey, proposedCmd := .allocated msg.cmdValue }

theorem Accepts.instNumber {old ir : InstanceRecord} {msg : Phase2Msg} (h : Accepts old msg ir) :
    ir.instNumber = old.instNumber := by
  cases h <;> rfl

theorem Saves.instNumber {old ir : InstanceRecord} {msg : CmdmapMsg} (h : Saves old msg ir) :
    ir.instNumber = old.instNumber := by
  cases h <;> rfl

structure MoveCondition where
  looksUp : ℕ → Prop
  hearsPhase2 : Phase2Msg → Prop
  hearsMap : CmdmapMsg → Prop

def Names (C : MoveCondition) : RingMsg → Prop
  | .phase1 msg => C.looksUp msg.instNumber
  | .phase1Range msg => C.looksUp msg.toIid
  | .phase2 _ => False

def promise (cfg : Config) (s : RingAcceptor) (i : ℕ) (ballot : Ballot) : RingAcceptor :=
  (s.withRecord (ssmSlot cfg i) { s.record cfg i with ballot := ballot }).does
    (.promised i ballot)

/-- The state that section `acceptor_p2_store_and_send` leaves. -/
def stored (cfg : Config) (s : RingAcceptor) (msg : Phase2Msg) (ir : InstanceRecord) :
    RingAcceptor :=
  (acceptorP2StoreAndSend cfg s msg ir).state

inductive Move (cfg : Config) (C : MoveCondition) : RingAcceptor → RingAcceptor → Prop where
  | see (s : RingAcceptor) (n : ℕ) : Move cfg C s { s with highestInstanceSeen := n }
  | use (s : RingAcceptor) (i : ℕ) (allowed : C.looksUp i)
      (unused : (s.record cfg i).instNumber = 0) :
      Move cfg C s (s.withRecord (ssmSlot cfg i) { s.record cfg i with instNumber := i })
  | overwrite (s : RingAcceptor) (i : ℕ) (allowed : C.looksUp i)
      (used : (s.record cfg i).instNumber ≠ 0) (older : (s.record cfg i).instNumber < i) :
      Move cfg C s ((s.does (.overwrote (s.record cfg i).instNumber)).withRecord (ssmSlot cfg i)
        { clearInstanceRecord with instNumber := i })
  | promise (s : RingAcceptor) (i : ℕ) (ballot : Ballot)
      (own : (s.record cfg i).instNumber = i) (le : (s.record cfg i).ballot ≤ ballot) :
      Move cfg C s (promise cfg s i ballot)
  | forward (s : RingAcceptor) (msg : RingMsg) (named : Names C msg) : Move cfg C s (s.send msg)
  | accept (s : RingAcceptor) (msg : Phase2Msg) (ir : InstanceRecord)
      (heard : C.hearsPhase2 msg) (own : (s.record cfg msg.instNumber).instNumber = msg.instNumber)
      (le : (s.record cfg msg.instNumber).ballot ≤ msg.ballot)
      (h : Accepts (s.record cfg msg.instNumber) msg ir) : Move cfg C s (stored cfg s msg ir)
  | save (s : RingAcceptor) (msg : CmdmapMsg) (ir : InstanceRecord) (heard : C.hearsMap msg)
      (own : (s.record cfg msg.instNumber).instNumber = msg.instNumber)
      (h : Saves (s.record cfg msg.instNumber) msg ir) :
      Move cfg C s (s.withRecord (ssmSlot cfg msg.instNumber) ir)

def Moves (cfg : Config) (C : MoveCondition) : RingAcceptor → RingAcceptor → Prop :=
  Relation.ReflTransGen (Move cfg C)

variable {cfg : Config} {C : MoveCondition} {s t u : RingAcceptor}

theorem Moves.refl (s : RingAcceptor) : Moves cfg C s s := Relation.ReflTransGen.refl

theorem Moves.trans (h : Moves cfg C s t) (h' : Moves cfg C t u) : Moves cfg C s u :=
  Relation.ReflTransGen.trans h h'

theorem Move.moves (h : Move cfg C s t) : Moves cfg C s t := .single h

theorem Moves.invariant (I : RingAcceptor → Prop) (kept : ∀ s t, I s → Move cfg C s t → I t)
    (h : Moves cfg C s t) (start : I s) : I t := by
  induction h with
  | refl => exact start
  | tail _ move ih => exact kept _ _ ih move

theorem Moves.bind {o : AcceptorOutcome} {f : RingAcceptor → AcceptorOutcome}
    (first : Moves cfg C s o.state)
    (next : ∀ t, o = .running t → Moves cfg C t (f t).state) :
    Moves cfg C s (o.bind f).state := by
  cases o with
  | running t => exact first.trans (next t rfl)
  | aborted fault t => exact first

theorem Moves.fold {f : RingAcceptor → ℕ → AcceptorOutcome} (s : RingAcceptor) (es : List ℕ)
    (turn : ∀ e ∈ es, ∀ t, Moves cfg C t (f t e).state) :
    Moves cfg C s (Outcome.fold f s es).state :=
  Outcome.fold_state Moves.refl (fun _ _ _ => Moves.trans) s es turn

@[simp] theorem record_withRecord (i : ℕ) (ir : InstanceRecord) :
    (s.withRecord (ssmSlot cfg i) ir).record cfg i = ir :=
  setSlot_self _ _ _

theorem ssmGetRecord_cases (cfg : Config) (s : RingAcceptor) (i : ℕ) :
    (i < (s.record cfg i).instNumber ∧ ssmGetRecord cfg s i = .aborted .archivedRecord s) ∨
    ((s.record cfg i).instNumber = i ∧ ssmGetRecord cfg s i = .running s) ∨
    ((s.record cfg i).instNumber = 0 ∧ ssmGetRecord cfg s i =
      .running (s.withRecord (ssmSlot cfg i) { s.record cfg i with instNumber := i })) ∨
    ((s.record cfg i).instNumber ≠ 0 ∧ (s.record cfg i).instNumber < i ∧ ssmGetRecord cfg s i =
      .running ((s.does (.overwrote (s.record cfg i).instNumber)).withRecord (ssmSlot cfg i)
        { clearInstanceRecord with instNumber := i })) := by
  unfold ssmGetRecord
  dsimp only
  split_ifs with unused older newer
  · exact .inr (.inr (.inl ⟨unused, rfl⟩))
  · exact .inr (.inr (.inr ⟨unused, older, rfl⟩))
  · exact .inl ⟨newer, rfl⟩
  · exact .inr (.inl ⟨by omega, rfl⟩)

theorem ssmGetRecord_moves (s : RingAcceptor) (i : ℕ) (allowed : C.looksUp i) :
    Moves cfg C s (ssmGetRecord cfg s i).state := by
  rcases ssmGetRecord_cases cfg s i with ⟨-, got⟩ | ⟨-, got⟩ | ⟨unused, got⟩ | ⟨used, older, got⟩
  · rw [got]
    exact .refl s
  · rw [got]
    exact .refl s
  · rw [got]
    exact (Move.use s i allowed unused).moves
  · rw [got]
    exact (Move.overwrite s i allowed used older).moves

/-- A record made ready for an instance, unless it is in use for a later one. -/
def readied (ir : InstanceRecord) (i : ℕ) : InstanceRecord :=
  if ir.instNumber = 0 then { ir with instNumber := i }
  else if ir.instNumber < i then { clearInstanceRecord with instNumber := i }
  else ir

theorem readied_of_own {ir : InstanceRecord} {i : ℕ} (own : ir.instNumber = i) :
    readied ir i = ir := by
  subst own
  unfold readied
  split_ifs with unused older
  · cases ir
    rfl
  · exact absurd older (lt_irrefl _)
  · rfl

/-- What `ssmGetRecord` returns, and what it leaves as it was. -/
theorem ssmGetRecord_readied {i : ℕ} (got : ssmGetRecord cfg s i = .running t) :
    t.instancesArray = setSlot s.instancesArray (ssmSlot cfg i) (readied (s.record cfg i) i) ∧
      t.highestInstanceSeen = s.highestInstanceSeen ∧ t.toSuccessor = s.toSuccessor := by
  unfold readied
  rcases ssmGetRecord_cases cfg s i with ⟨-, h⟩ | ⟨own, h⟩ | ⟨unused, h⟩ | ⟨used, older, h⟩ <;>
    rw [h] at got <;> cases got
  · refine ⟨?_, rfl, rfl⟩
    have same := readied_of_own own
    unfold readied at same
    funext slot
    rw [setSlot_apply, same]
    split_ifs with here
    · rw [here]
      rfl
    · rfl
  · rw [if_pos unused]
    exact ⟨rfl, rfl, rfl⟩
  · rw [if_neg used, if_pos older]
    exact ⟨rfl, rfl, rfl⟩

theorem ssmGetRecord_record {i : ℕ} (got : ssmGetRecord cfg s i = .running t) :
    t.record cfg i = readied (s.record cfg i) i := by
  unfold RingAcceptor.record
  rw [(ssmGetRecord_readied got).1]
  exact setSlot_self _ _ _

theorem ssmGetRecord_own {i : ℕ} (got : ssmGetRecord cfg s i = .running t) :
    (t.record cfg i).instNumber = i := by
  rcases ssmGetRecord_cases cfg s i with ⟨-, h⟩ | ⟨own, h⟩ | ⟨-, h⟩ | ⟨-, -, h⟩ <;>
    rw [h] at got <;> cases got
  · exact own
  · simp
  · simp

theorem acceptorHandlePhase1Msg_moves (s : RingAcceptor) (msg : Phase1Msg) (stack : Phase1Stack)
    (allowed : C.looksUp msg.instNumber) :
    Moves cfg C s (acceptorHandlePhase1Msg cfg s msg stack).state := by
  refine (ssmGetRecord_moves s _ allowed).bind fun t got => ?_
  have own := ssmGetRecord_own got
  dsimp only
  by_cases lower : msg.ballot < (t.record cfg msg.instNumber).ballot
  · rw [if_pos lower]
    refine (Move.forward t _ ?_).moves
    exact allowed
  · rw [if_neg lower]
    have promised : Moves cfg C t
        (promise cfg (seeInstance t msg.instNumber) msg.instNumber msg.ballot) :=
      (Move.see t _).moves.trans
        (Move.promise (seeInstance t msg.instNumber) _ _ own (UInt32.not_lt.mp lower)).moves
    split_ifs
    · refine promised.trans (Move.forward _ _ ?_).moves
      exact allowed
    · refine promised.trans (Move.forward _ _ ?_).moves
      exact allowed

theorem acceptorPromise_moves (ballot : Ballot) (s : RingAcceptor) (i : ℕ)
    (allowed : C.looksUp i) : Moves cfg C s (acceptorPromise cfg ballot s i).state := by
  refine (ssmGetRecord_moves s _ allowed).bind fun t got => ?_
  have own := ssmGetRecord_own got
  dsimp only
  split_ifs with fresh
  · exact (Move.promise t i ballot own (fresh ▸ UInt32.zero_le)).moves
  · exact .refl t

theorem acceptorHandlePhase1RangeMsg_moves (s : RingAcceptor) (msg : Phase1RangeMsg)
    (stack : ℕ → Phase1Stack) (allowed : ∀ i, i ≤ msg.toIid → C.looksUp i) :
    Moves cfg C s (acceptorHandlePhase1RangeMsg cfg s msg stack).state := by
  have within (i : ℕ) (hi : i ∈ instanceRange msg) : C.looksUp i := by
    obtain ⟨low, high⟩ := List.mem_range'_1.mp hi
    exact allowed i (by omega)
  unfold acceptorHandlePhase1RangeMsg
  split_ifs with unseen
  · have promised : Moves cfg C s (Outcome.fold (acceptorPromise cfg msg.ballot)
        { s with highestInstanceSeen := msg.toIid } (instanceRange msg)).state :=
      (Move.see s msg.toIid).moves.trans
        (Moves.fold _ _ fun i hi t => acceptorPromise_moves _ t i (within i hi))
    refine promised.bind fun t _ => (Move.forward t _ ?_).moves
    exact allowed _ (le_refl _)
  · exact Moves.fold _ _ fun i hi t => acceptorHandlePhase1Msg_moves t _ _ (within i hi)

theorem acceptorAccept_cases (cfg : Config) (s : RingAcceptor) (msg : Phase2Msg)
    (ir : InstanceRecord) :
    (∃ fault, acceptorAccept cfg s msg ir = .aborted fault s ∨
      acceptorAccept cfg s msg ir = .aborted fault (seeInstance s msg.instNumber)) ∨
    (acceptorAccept cfg s msg ir = .running s) ∨
    ∃ ir', Accepts ir msg ir' ∧ acceptorAccept cfg s msg ir =
      acceptorP2StoreAndSend cfg (seeInstance s msg.instNumber) msg ir' := by
  unfold acceptorAccept
  dsimp only
  split_ifs with both unknown accepted
  · exact .inl ⟨_, .inl rfl⟩
  · exact .inr (.inl rfl)
  · have other : msg.cmdKey ≠ ir.proposedCmdKey := fun key => both ⟨key, accepted⟩
    cases proposed : ir.proposedCmd with
    | null => exact .inr (.inr ⟨_, .again accepted other proposed, rfl⟩)
    | inSlot cmd => exact .inl ⟨_, .inr rfl⟩
    | allocated cmd =>
      refine .inr (.inr ⟨_, .againFreed accepted other proposed, ?_⟩)
      simp only [freeProposed, proposed]
    | freed =>
      simp only [freeProposed, proposed]
      exact .inl ⟨_, .inr rfl⟩
  · have key : msg.cmdKey = ir.proposedCmdKey := by
      by_contra other
      exact unknown ⟨accepted, other⟩
    cases found : ir.acceptedCmd with
    | none =>
      cases proposed : ir.proposedCmd with
      | null => exact .inl ⟨_, .inr rfl⟩
      | inSlot cmd => exact .inr (.inr ⟨_, .first key accepted found proposed, rfl⟩)
      | allocated cmd => exact .inl ⟨_, .inr rfl⟩
      | freed => exact .inl ⟨_, .inr rfl⟩
    | some cmd =>
      cases proposed : ir.proposedCmd with
      | null => exact .inl ⟨_, .inr rfl⟩
      | inSlot cmd' => exact .inl ⟨_, .inr rfl⟩
      | allocated cmd' =>
        refine .inr (.inr ⟨_, .replaced key accepted found proposed, ?_⟩)
        simp only [freeProposed, proposed, ProposedCmd.cmd]
      | freed =>
        simp only [freeProposed, proposed]
        exact .inl ⟨_, .inr rfl⟩

theorem acceptorHandlePhase2Msg_moves (s : RingAcceptor) (msg : Phase2Msg)
    (heard : C.hearsPhase2 msg) (allowed : C.looksUp msg.instNumber) :
    Moves cfg C s (acceptorHandlePhase2Msg cfg s msg).state := by
  refine (ssmGetRecord_moves s _ allowed).bind fun t got => ?_
  have own := ssmGetRecord_own got
  have seen : Moves cfg C t (seeInstance t msg.instNumber) := (Move.see t _).moves
  dsimp only
  by_cases lower : msg.ballot < (t.record cfg msg.instNumber).ballot
  · rw [if_pos lower]
    exact .refl t
  · rw [if_neg lower]
    rcases acceptorAccept_cases cfg t msg (t.record cfg msg.instNumber) with
      ⟨fault, stopped | stopped⟩ | dropped | ⟨ir, accepts, stores⟩
    · rw [stopped]
      exact .refl t
    · rw [stopped]
      exact seen
    · rw [dropped]
      exact .refl t
    · rw [stores]
      exact seen.trans (Move.accept (seeInstance t msg.instNumber) msg ir heard own
        (UInt32.not_lt.mp lower) accepts).moves

theorem acceptorSaveMap_cases (cfg : Config) (s : RingAcceptor) (msg : CmdmapMsg)
    (ir : InstanceRecord) :
    (∃ fault, acceptorSaveMap cfg s msg ir = .aborted fault s) ∨
    (acceptorSaveMap cfg s msg ir = .running s) ∨
    ∃ ir', Saves ir msg ir' ∧ acceptorSaveMap cfg s msg ir =
      .running (s.withRecord (ssmSlot cfg msg.instNumber) ir') := by
  unfold acceptorSaveMap
  split_ifs with known stored same none null same'
  · unfold knownAccepted
    split_ifs
    · cases proposed : ir.proposedCmd with
      | null => exact .inr (.inl rfl)
      | inSlot cmd => exact .inl ⟨_, rfl⟩
      | allocated cmd =>
        refine .inr (.inr ⟨_, .forget proposed, ?_⟩)
        simp only [freeProposed, proposed]
      | freed =>
        simp only [freeProposed, proposed]
        exact .inl ⟨_, rfl⟩
    · exact .inl ⟨_, rfl⟩
  · exact .inr (.inl rfl)
  · exact .inl ⟨_, rfl⟩
  · exact .inr (.inr ⟨_, .inSlot none, rfl⟩)
  · have some : ir.acceptedCmd.isSome := Option.isSome_iff_ne_none.mpr none
    exact .inr (.inr ⟨_, .secondary some fun key => known ⟨some, key⟩, rfl⟩)
  · exact .inl ⟨_, rfl⟩
  · have some : ir.acceptedCmd.isSome := Option.isSome_iff_ne_none.mpr none
    cases proposed : ir.proposedCmd with
    | null => exact absurd proposed null
    | inSlot cmd =>
      simp only [freeProposed, proposed]
      exact .inl ⟨_, rfl⟩
    | allocated cmd =>
      refine .inr (.inr ⟨_, .secondary some fun key => known ⟨some, key⟩, ?_⟩)
      simp only [freeProposed, proposed]
      rfl
    | freed =>
      simp only [freeProposed, proposed]
      exact .inl ⟨_, rfl⟩

theorem acceptorHandleCmdmapMsg_moves (s : RingAcceptor) (msg : CmdmapMsg)
    (heard : C.hearsMap msg) (allowed : C.looksUp msg.instNumber) :
    Moves cfg C s (acceptorHandleCmdmapMsg cfg s msg).state := by
  refine (ssmGetRecord_moves s _ allowed).bind fun t got => ?_
  have own := ssmGetRecord_own got
  rcases acceptorSaveMap_cases cfg t msg (t.record cfg msg.instNumber) with
    ⟨fault, stopped⟩ | same | ⟨ir, saves, stores⟩
  · rw [stopped]
    exact .refl t
  · rw [same]
    exact .refl t
  · rw [stores]
    exact (Move.save t msg ir heard own saves).moves

def HearsRing (C : MoveCondition) : RingMsg → Prop
  | .phase1 msg => C.looksUp msg.instNumber
  | .phase1Range msg => ∀ i, i ≤ msg.toIid → C.looksUp i
  | .phase2 msg => C.hearsPhase2 msg ∧ C.looksUp msg.instNumber

def HearsMcast (C : MoveCondition) (acceptorId : ℕ) : McastMsg → Prop
  | .commandMap msg => C.hearsMap msg ∧ C.looksUp msg.instNumber
  | .acceptance _ => True
  | .phase2 msg => acceptorId = 2 → C.hearsPhase2 msg ∧ C.looksUp msg.instNumber

theorem onPredecessorMsg_moves (s : RingAcceptor) (stack : ℕ → Phase1Stack) (msg : RingMsg)
    (hears : HearsRing C msg) : Moves cfg C s (onPredecessorMsg cfg s stack msg).state := by
  cases msg with
  | phase1 msg => exact acceptorHandlePhase1Msg_moves s msg _ hears
  | phase1Range msg => exact acceptorHandlePhase1RangeMsg_moves s msg stack hears
  | phase2 msg => exact acceptorHandlePhase2Msg_moves s msg hears.1 hears.2

theorem onMulticastMsg_moves (s : RingAcceptor) (msg : McastMsg)
    (hears : HearsMcast C s.acceptorId msg) :
    Moves cfg C s (onMulticastMsg cfg s msg).state := by
  cases msg with
  | commandMap msg => exact acceptorHandleCmdmapMsg_moves s msg hears.1 hears.2
  | acceptance msg => exact .refl s
  | phase2 msg =>
    change Moves cfg C s (ite _ _ _ : AcceptorOutcome).state
    split_ifs with first
    · exact acceptorHandlePhase2Msg_moves s msg (hears first).1 (hears first).2
    · exact .refl s

end FdsPaxos.RingAcceptorMoves
