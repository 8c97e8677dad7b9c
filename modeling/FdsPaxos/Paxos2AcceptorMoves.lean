import FdsPaxos.Paxos2AcceptorSafety

set_option autoImplicit false

namespace FdsPaxos.Paxos2AcceptorMoves
open TransitionRuns Paxos2Config Paxos2Messages Paxos2SendBuffer Paxos2StableStorage
open Paxos2Acceptor Paxos2AcceptorSafety

structure Quiet (s s' : AcceptorState) : Prop where
  acceptorId : s'.thisAcceptorId = s.thisAcceptorId
  highest : s'.highestAcceptedIid = s.highestAcceptedIid
  storage : s'.storage = s.storage
  promises : ∀ P, s.toProposers.All P → s'.toProposers.All P
  sent : ∀ batch ∈ s.toProposers.sent, batch ∈ s'.toProposers.sent
  acks : ∀ P, s.toLearners.All P → s'.toLearners.All P

abbrev AcceptCondition := AcceptorState → AcceptReq → Prop

def anyRequest : AcceptCondition := fun _ _ => True

/-- The records sent again: those with a value, and the latest accepted one. -/
def Resendable (s : AcceptorState) (rec : AcceptorRecord) : Prop :=
  s.storage.db rec.iid = some rec ∧
    (0 < rec.value.length ∨ 0 < s.highestAcceptedIid ∧ rec.iid = s.highestAcceptedIid)

inductive Move (cfg : Config) (C : AcceptCondition) : AcceptorState → AcceptorState → Prop where
  | quiet {s s' : AcceptorState} (h : Quiet s s') : Move cfg C s s'
  | prepare (s : AcceptorState) (pr : PrepareReq) : Move cfg C s (handlePrepareReq cfg s pr)
  | accept (s : AcceptorState) (ar : AcceptReq) (met : C s ar) :
      Move cfg C s (handleAcceptReq cfg s ar)
  | resend (s : AcceptorState) (rec : AcceptorRecord) (found : Resendable s rec) :
      Move cfg C s { s with toLearners := sendbufAddAcceptAck cfg s.toLearners rec }

def Moves (cfg : Config) (C : AcceptCondition) : AcceptorState → AcceptorState → Prop :=
  Relation.ReflTransGen (Move cfg C)

variable {cfg : Config} {C : AcceptCondition} {s t u : AcceptorState}

theorem Moves.trans (h : Moves cfg C s t) (h' : Moves cfg C t u) : Moves cfg C s u :=
  Relation.ReflTransGen.trans h h'

theorem Move.moves (h : Move cfg C s t) : Moves cfg C s t := .single h

theorem Quiet.moves (h : Quiet s t) : Moves cfg C s t := .single (.quiet h)

theorem Moves.invariant (I : AcceptorState → Prop) (kept : ∀ s t, I s → Move cfg C s t → I t)
    (h : Moves cfg C s t) (start : I s) : I t := by
  induction h with
  | refl => exact start
  | tail _ move ih => exact kept _ _ ih move

theorem quiet_clearToProposers (s : AcceptorState) : Quiet s s.clearToProposers :=
  ⟨rfl, rfl, rfl, fun _ h => h.clear, fun _ h => h, fun _ h => h⟩

theorem quiet_flushToProposers (s : AcceptorState) : Quiet s s.flushToProposers :=
  ⟨rfl, rfl, rfl, fun _ h => h.flush, fun _ h => SendBuf.mem_sent_flush h, fun _ h => h⟩

theorem quiet_clearToLearners (s : AcceptorState) : Quiet s s.clearToLearners :=
  ⟨rfl, rfl, rfl, fun _ h => h, fun _ h => h, fun _ h => h.clear⟩

theorem quiet_flushToLearners (s : AcceptorState) : Quiet s s.flushToLearners :=
  ⟨rfl, rfl, rfl, fun _ h => h, fun _ h => h, fun _ h => h.flush⟩

theorem handlePrepareReqs_moves (s : AcceptorState) (prepares : List PrepareReq) :
    Moves cfg C s (run (handlePrepareReq cfg) s prepares) := by
  induction prepares generalizing s with
  | nil => exact .refl
  | cons pr prepares ih => exact (Move.prepare s pr).moves.trans (ih _)

theorem handleAcceptReqs_moves (s : AcceptorState) (accepts : List AcceptReq)
    (met : Along (handleAcceptReq cfg) C s accepts) :
    Moves cfg C s (run (handleAcceptReq cfg) s accepts) := by
  induction accepts generalizing s with
  | nil => exact .refl
  | cons ar accepts ih =>
    obtain ⟨head, tail⟩ := met
    exact (Move.accept s ar head).moves.trans (ih _ tail)

theorem handleRepeatReqs_moves (s : AcceptorState) (requests : List ℕ) :
    Moves cfg C s (run (handleRepeatReq cfg) s requests) := by
  induction requests generalizing s with
  | nil => exact .refl
  | cons i requests ih =>
    have first : Moves cfg C s (handleRepeatReq cfg s i) := by
      rcases handleRepeatReq_cases cfg s i with same | ⟨rec, found, stored, saved⟩
      · rw [same]
        exact .refl
      · rw [saved]
        have own := getRecord_iid found
        exact (Move.resend s rec ⟨own ▸ getRecord_some found, .inl stored⟩).moves
    exact first.trans (ih _)

/-- The accept requests of a message meet the condition where they are handled. -/
def BatchMeets (cfg : Config) (C : AcceptCondition) (s : AcceptorState) : PaxosMsg → Prop
  | .acceptReqs _ accepts => Along (handleAcceptReq cfg) C s.clearToLearners accepts
  | _ => True

instance (msg : PaxosMsg) [∀ s ar, Decidable (C s ar)] : Decidable (BatchMeets cfg C s msg) :=
  match msg with
  | .acceptReqs _ accepts =>
    inferInstanceAs (Decidable (Along (handleAcceptReq cfg) C s.clearToLearners accepts))
  | .prepareReqs _ _ | .prepareAcks _ _ | .acceptAcks _ _ | .repeatReqs _ | .submit _
  | .leaderAnnounce _ => isTrue trivial

theorem accHandleNewmsg_moves (s : AcceptorState) (msg : PaxosMsg)
    (met : BatchMeets cfg C s msg) : Moves cfg C s (accHandleNewmsg cfg s msg) := by
  cases msg with
  | prepareReqs _ prepares =>
    exact ((quiet_clearToProposers s).moves.trans (handlePrepareReqs_moves _ prepares)).trans
      (quiet_flushToProposers _).moves
  | acceptReqs _ accepts =>
    exact ((quiet_clearToLearners s).moves.trans (handleAcceptReqs_moves _ accepts met)).trans
      (quiet_flushToLearners _).moves
  | repeatReqs requests =>
    exact ((quiet_clearToLearners s).moves.trans (handleRepeatReqs_moves _ requests)).trans
      (quiet_flushToLearners _).moves
  | _ => exact .refl

theorem accPeriodicRepeater_moves (s : AcceptorState) :
    Moves cfg C s (accPeriodicRepeater cfg s).state := by
  unfold accPeriodicRepeater
  split_ifs with accepted
  · unfold accRetransmitLatestAccept
    dsimp only
    cases found : stablestorageGetRecord s.clearToLearners.storage
        s.clearToLearners.highestAcceptedIid with
    | none => exact (quiet_clearToLearners s).moves
    | some rec =>
      have own : rec.iid = s.highestAcceptedIid := getRecord_iid found
      have resend : Resendable s.clearToLearners rec :=
        ⟨own ▸ getRecord_some found, .inr ⟨accepted, own⟩⟩
      exact ((quiet_clearToLearners s).moves.trans (Move.resend _ rec resend).moves).trans
        (quiet_flushToLearners _).moves
  · exact .refl

/-- Records and acknowledgements are among the writes, and no write is final. -/
structure HistorySound (s : AcceptorState) : Prop where
  stored : ∀ i rec, s.storage.db i = some rec → rec ∈ s.storage.puts
  acked : s.toLearners.All (· ∈ s.storage.puts)
  notFinal : ∀ rec ∈ s.storage.puts, rec.isFinal = false

theorem historySound_init (a : ℕ) : HistorySound (acceptorInit a) where
  stored := fun _ _ h => nomatch h
  acked := .new
  notFinal := fun _ h => nomatch h

theorem HistorySound.put (h : HistorySound s) {rec : AcceptorRecord}
    (saved : t.storage = put s.storage rec) (notFinal : rec.isFinal = false)
    (acked : t.toLearners.All (· ∈ rec :: s.storage.puts)) : HistorySound t where
  stored := by
    intro i r found
    rw [saved] at found ⊢
    simp only [put_db, put_puts] at found ⊢
    split_ifs at found
    · rw [Option.some.inj found]
      exact List.mem_cons_self
    · exact List.mem_cons_of_mem _ (h.stored i r found)
  acked := by
    rw [saved]
    exact acked
  notFinal := by
    rw [saved]
    exact List.forall_mem_cons.mpr ⟨notFinal, h.notFinal⟩

theorem HistorySound.acked_after (h : HistorySound s) (rec : AcceptorRecord) :
    s.toLearners.All (· ∈ rec :: s.storage.puts) :=
  h.acked.mono fun _ hx => List.mem_cons_of_mem _ hx

theorem historySound_move (h : HistorySound s) (move : Move cfg C s t) : HistorySound t := by
  cases move with
  | quiet quiet =>
    refine ⟨quiet.storage ▸ h.stored, ?_, quiet.storage ▸ h.notFinal⟩
    rw [quiet.storage]
    exact quiet.acks _ h.acked
  | prepare pr =>
    rcases handlePrepareReq_cases cfg s pr with same | ⟨rec, rfl, _, saved⟩
    · rwa [same]
    · rw [saved]
      refine h.put rfl ?_ (h.acked_after _)
      cases found : stablestorageGetRecord s.storage pr.iid with
      | none => rfl
      | some old => exact h.notFinal old (h.stored _ _ (getRecord_some found))
  | accept ar met =>
    rcases handleAcceptReq_cases cfg s ar with ⟨_, _, _, same⟩ | ⟨_, saved⟩
    · rwa [same]
    · rw [saved]
      exact h.put rfl rfl ((h.acked_after _).add cfg _ List.mem_cons_self)
  | resend rec found =>
    exact ⟨h.stored, h.acked.add cfg _ (h.stored _ _ found.1), h.notFinal⟩

theorem puts_mono (move : Move cfg C s t) : ∀ rec ∈ s.storage.puts, rec ∈ t.storage.puts := by
  intro rec hrec
  cases move with
  | quiet quiet => exact quiet.storage ▸ hrec
  | prepare pr =>
    rcases handlePrepareReq_cases cfg s pr with same | ⟨_, _, _, saved⟩
    · rwa [same]
    · rw [saved]
      exact List.mem_cons_of_mem _ hrec
  | accept ar met =>
    rcases handleAcceptReq_cases cfg s ar with ⟨_, _, _, same⟩ | ⟨_, saved⟩
    · rwa [same]
    · rw [saved]
      exact List.mem_cons_of_mem _ hrec
  | resend rec found => exact hrec

theorem promises_mono (move : Move cfg C s t) :
    ∀ batch ∈ s.toProposers.sent, batch ∈ t.toProposers.sent := by
  intro batch hb
  cases move with
  | quiet quiet => exact quiet.sent batch hb
  | prepare pr =>
    rcases handlePrepareReq_cases cfg s pr with same | ⟨_, _, _, saved⟩
    · rwa [same]
    · rw [saved]
      exact SendBuf.mem_sent_add cfg _ _ hb
  | accept ar met =>
    rcases handleAcceptReq_cases cfg s ar with ⟨_, _, _, same⟩ | ⟨_, saved⟩
    · rwa [same]
    · rwa [saved]
  | resend rec found => exact hb

theorem Moves.promises_mono (h : Moves cfg C s t) :
    ∀ batch ∈ s.toProposers.sent, batch ∈ t.toProposers.sent := by
  induction h with
  | refl => exact fun _ h => h
  | tail _ move ih => exact fun batch h => Paxos2AcceptorMoves.promises_mono move batch (ih batch h)

theorem Moves.historySound (h : Moves cfg C s t) (start : HistorySound s) : HistorySound t :=
  h.invariant HistorySound (fun _ _ h move => historySound_move h move) start

theorem Moves.puts_mono (h : Moves cfg C s t) : ∀ rec ∈ s.storage.puts, rec ∈ t.storage.puts := by
  induction h with
  | refl => exact fun _ h => h
  | tail _ move ih => exact fun rec h => Paxos2AcceptorMoves.puts_mono move rec (ih rec h)

end FdsPaxos.Paxos2AcceptorMoves
