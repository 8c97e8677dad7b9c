import FdsPaxos.Paxos2AckWorld
import FdsPaxos.Paxos2LearnerDelivery

set_option autoImplicit false

namespace FdsPaxos.Paxos2LearnerSoundness
open TransitionRuns CircularWindow Paxos2Config Paxos2Messages Paxos2SendBuffer
open Paxos2StableStorage Paxos2Acceptor Paxos2AcceptorMoves Paxos2Learner Paxos2LearnerDelivery
open Paxos2AckWorld

/-- The learner has `v` as the value of instance `i`, in a closed slot or delivered. -/
def Closes (lr : LearnerRun) (i : ℕ) (v : Value) : Prop :=
  (∃ d ∈ lr.state.2, d.iid = i ∧ d.value = v) ∨
    ∃ slot, (lr.state.1.learnerState slot).iid = i ∧
      ∃ fa, (lr.state.1.learnerState slot).finalValue = some fa ∧ fa.value = v

/-- The acknowledgement speaks of the same accepted value as those of its ballot that
the slot holds from other acceptors. -/
def AgreesWith (cfg : Config) (acks : ℕ → Option AcceptAck) (a : ℕ) (aa : AcceptAck) : Prop :=
  ∀ a' < cfg.nOfAcceptors, a' ≠ a → ∀ old ∈ acks a', old.ballot = aa.ballot →
    old.valueBallot = aa.valueBallot ∧ old.value = aa.value

instance (cfg : Config) (acks : ℕ → Option AcceptAck) (a : ℕ) (aa : AcceptAck) :
    Decidable (AgreesWith cfg acks a aa) :=
  inferInstanceAs (Decidable (∀ a' < _, _ → ∀ old ∈ acks a', _))

def StoresAgreeing (cfg : Config) (lr : LearnerRun) (msg : ℕ × AcceptAck) : Prop :=
  match lr with
  | .running r =>
    leaRelevant cfg r.1 msg.1 msg.2 = true →
      AgreesWith cfg (r.1.learnerState (cfg.leaIndex msg.2.iid)).acks msg.1 msg.2
  | .aborted _ _ => True

instance (cfg : Config) (lr : LearnerRun) (msg : ℕ × AcceptAck) :
    Decidable (StoresAgreeing cfg lr msg) :=
  match lr with
  | .running _ => inferInstanceAs (Decidable (_ → _))
  | .aborted _ _ => isTrue trivial

def StepAgrees (cfg : Config) (w : AckWorld) : AckEvent → Prop
  | .acceptAcks l a acks =>
    SentBy cfg w.acceptors a acks →
      Along (learnerStep cfg) (StoresAgreeing cfg) (w.learners l) (toMessages a acks)
  | .request _ _ | .repeatLatest _ | .holeCheck _ => True

instance (cfg : Config) (w : AckWorld) (e : AckEvent) : Decidable (StepAgrees cfg w e) :=
  match e with
  | .acceptAcks _ _ _ => inferInstanceAs (Decidable (_ → _))
  | .request _ _ | .repeatLatest _ | .holeCheck _ => isTrue trivial

section Slots

variable {cfg : Config} {known : ℕ → AcceptAck → Prop} {acks : ℕ → Option AcceptAck} {a : ℕ}
variable {aa : AcceptAck}

/-- The acknowledgements of a slot are known of their acceptors, and those of one
ballot speak of one accepted value. -/
structure Backed (cfg : Config) (known : ℕ → AcceptAck → Prop) (acks : ℕ → Option AcceptAck) :
    Prop where
  known : ∀ a < cfg.nOfAcceptors, ∀ aa ∈ acks a, known a aa
  agree : ∀ a < cfg.nOfAcceptors, ∀ a' < cfg.nOfAcceptors, ∀ aa ∈ acks a, ∀ aa' ∈ acks a',
    aa.ballot = aa'.ballot → aa.valueBallot = aa'.valueBallot ∧ aa.value = aa'.value

theorem backed_empty : Backed cfg known fun _ => none where
  known := fun _ _ _ h => nomatch h
  agree := fun _ _ _ _ _ h => nomatch h

theorem Backed.mono (h : Backed cfg known acks) {known' : ℕ → AcceptAck → Prop}
    (grown : ∀ a aa, known a aa → known' a aa) : Backed cfg known' acks where
  known := fun a ha aa haa => grown a aa (h.known a ha aa haa)
  agree := h.agree

theorem Backed.store (h : Backed cfg known acks) (new : known a aa)
    (agrees : AgreesWith cfg acks a aa) : Backed cfg known (setSlot acks a (some aa)) where
  known := by
    intro a' ha' aa' haa'
    rw [setSlot_apply] at haa'
    split_ifs at haa' with same
    · cases haa'
      exact same ▸ new
    · exact h.known a' ha' aa' haa'
  agree := by
    intro a₁ ha₁ a₂ ha₂ aa₁ h₁ aa₂ h₂ ballots
    rw [setSlot_apply] at h₁ h₂
    split_ifs at h₁ h₂ with same₁ same₂ same₂
    · cases h₁
      cases h₂
      exact ⟨rfl, rfl⟩
    · cases h₁
      obtain ⟨hb, hv⟩ := agrees a₂ ha₂ same₂ aa₂ h₂ ballots.symm
      exact ⟨hb.symm, hv.symm⟩
    · cases h₂
      exact agrees a₁ ha₁ same₁ aa₁ h₁ ballots
    · exact h.agree a₁ ha₁ a₂ ha₂ aa₁ h₁ aa₂ h₂ ballots

/-- A quorum is known to have acknowledged `v` for instance `i` at one ballot. -/
def KnownByQuorum (cfg : Config) (known : ℕ → AcceptAck → Prop) (i : ℕ) (v : Value) : Prop :=
  ∃ b, ∃ W ⊆ Finset.range cfg.nOfAcceptors, cfg.quorum ≤ W.card ∧
    ∀ a ∈ W, ∃ aa, known a aa ∧ aa.iid = i ∧ aa.valueBallot = b ∧ aa.value = v

theorem Backed.quorum (h : Backed cfg known acks)
    (notFinal : ∀ a aa, known a aa → aa.isFinal = false) {i : ℕ}
    (own : ∀ a aa, acks a = some aa → aa.iid = i) {fa : AcceptAck} (decides : Decides cfg acks fa) :
    KnownByQuorum cfg known i fa.value := by
  obtain ⟨a, ha, stored, final | quorum⟩ := decides
  · rw [notFinal a fa (h.known a ha fa stored)] at final
    cases final
  · refine ⟨fa.valueBallot, agreeing cfg acks fa.ballot, Finset.filter_subset _ _, quorum, ?_⟩
    intro a' ha'
    obtain ⟨hr, aa, stored', ballot⟩ := Finset.mem_filter.mp ha'
    have low := Finset.mem_range.mp hr
    obtain ⟨sameBallot, sameValue⟩ := h.agree a' low a ha aa stored' fa stored ballot
    exact ⟨aa, h.known a' low aa stored', own a' aa stored', sameBallot, sameValue⟩

theorem takes_of_agreeing {lr : LearnerRun} {acks : List AcceptAck}
    (new : ∀ aa ∈ acks, known a aa)
    (agrees : Along (learnerStep cfg) (StoresAgreeing cfg) lr (toMessages a acks)) :
    Along (learnerStep cfg) (Takes cfg (Backed cfg known)) lr (toMessages a acks) := by
  induction acks generalizing lr with
  | nil => trivial
  | cons aa acks ih =>
    obtain ⟨head, tail⟩ := agrees
    obtain ⟨first, rest⟩ := List.forall_mem_cons.mp new
    refine ⟨?_, ih rest tail⟩
    cases lr with
    | running r =>
      intro relevant old
      exact old.store first (head relevant)
    | aborted fault r => trivial

end Slots

section Worlds

variable {cfg : Config} {known known' : ℕ → AcceptAck → Prop} {w : AckWorld}

def LearnersSound (cfg : Config) (known : ℕ → AcceptAck → Prop) (w : AckWorld) : Prop :=
  ∀ l, ∃ ls ds, w.learners l = .running (ls, ds) ∧ LearnerGood cfg (Backed cfg known) 1 ls ds

theorem learnersSound_init : LearnersSound cfg known ackWorldInit :=
  fun _ => ⟨learnerInit, [], rfl, learnerGood_init cfg backed_empty⟩

theorem LearnersSound.step (h : LearnersSound cfg known w) (e : AckEvent)
    (sent : ∀ a acks, SentBy cfg w.acceptors a acks → ∀ aa ∈ acks, known a aa)
    (grown : ∀ a aa, known a aa → known' a aa) (agrees : StepAgrees cfg w e) :
    LearnersSound cfg known' (ackStep cfg w e) := by
  intro l
  obtain ⟨ls, ds, running, good⟩ := h l
  have good' : LearnerGood cfg (Backed cfg known') 1 ls ds :=
    good.mono fun _ backed => backed.mono grown
  have kept : (ackStep cfg w e).learners l = w.learners l →
      ∃ ls ds, (ackStep cfg w e).learners l = .running (ls, ds) ∧
        LearnerGood cfg (Backed cfg known') 1 ls ds := fun same =>
    ⟨ls, ds, same.trans running, good'⟩
  cases e with
  | request a msg => exact kept rfl
  | repeatLatest a => exact kept rfl
  | acceptAcks l' a acks =>
    by_cases received : SentBy cfg w.acceptors a acks
    · simp only [ackStep, if_pos received, Function.update_apply]
      split_ifs with here
      · subst here
        have takes : Along (learnerStep cfg) (Takes cfg (Backed cfg known')) (w.learners l)
            (toMessages a acks) :=
          takes_of_agreeing (fun aa haa => grown a aa (sent a acks received aa haa))
            (agrees received)
        rw [running] at takes ⊢
        exact good'.run _ takes
      · exact ⟨ls, ds, running, good'⟩
    · refine kept ?_
      simp only [ackStep, if_neg received]
  | holeCheck l' =>
    simp only [ackStep, Function.update_apply]
    split_ifs with here
    · subst here
      exact ⟨leaHoleCheck cfg ls, ds, by simp [running], good'.holeCheck⟩
    · exact ⟨ls, ds, running, good'⟩

theorem LearnersSound.closes (h : LearnersSound cfg known w)
    (notFinal : ∀ a aa, known a aa → aa.isFinal = false) {l i : ℕ} {v : Value}
    (closes : Closes (w.learners l) i v) : KnownByQuorum cfg known i v := by
  obtain ⟨ls, ds, running, good⟩ := h l
  rw [running] at closes
  rcases closes with ⟨d, hd, rfl, rfl⟩ | ⟨slot, rfl, fa, closed, rfl⟩
  · obtain ⟨-, own, fa, decides, value, -⟩ := good.agreed d hd
    rw [value]
    exact (good.sources d hd).quorum notFinal own decides
  · have sound := good.sound.slots slot
    exact (good.stored _ (.inr ⟨slot, rfl⟩)).quorum notFinal sound.own (sound.decided fa closed)

/-- A write of acceptor `a` that it may acknowledge. -/
def Written (acceptors : ℕ → Outcome AcceptorFault AcceptorState) (a : ℕ) (aa : AcceptAck) :
    Prop :=
  aa ∈ (acceptors a).state.storage.puts ∧ aa.isFinal = false

structure AckWorldSound (cfg : Config) (w : AckWorld) : Prop where
  acceptors : ∀ a, HistorySound (w.acceptors a).state
  learners : LearnersSound cfg (Written w.acceptors) w

theorem ackWorldSound_init (cfg : Config) : AckWorldSound cfg ackWorldInit where
  acceptors := fun a => historySound_init a
  learners := learnersSound_init

theorem ackWorldSound_step (h : AckWorldSound cfg w) (e : AckEvent) (agrees : StepAgrees cfg w e) :
    AckWorldSound cfg (ackStep cfg w e) := by
  have moves (a : ℕ) := ackStep_moves e (eventMeets_any cfg w e) a
  refine ⟨fun a => (moves a).historySound (h.acceptors a), h.learners.step e ?_ ?_ agrees⟩
  · intro a acks sent aa haa
    have written := (h.acceptors a).acked.1 acks sent.2 aa haa
    exact ⟨written, (h.acceptors a).notFinal aa written⟩
  · intro a aa written
    exact ⟨(moves a).puts_mono aa written.1, written.2⟩

theorem AckWorldSound.accepted (h : AckWorldSound cfg w) {l i : ℕ} {v : Value}
    (closes : Closes (w.learners l) i v) : AcceptedByQuorum cfg w.acceptors i v := by
  obtain ⟨b, W, low, quorum, written⟩ := h.learners.closes (fun _ _ h => h.2) closes
  refine ⟨b, quorum.trans (Finset.card_le_card ?_)⟩
  intro a ha
  obtain ⟨aa, ⟨stored, -⟩, same⟩ := written a ha
  exact Finset.mem_filter.mpr ⟨low ha, aa, stored, same⟩

end Worlds

/-- In every run of acceptors and learners in which the acknowledgements stored for one
instance and ballot speak of one accepted value, a quorum of acceptors has accepted the
value with which a learner closes an instance. -/
theorem closed_value_accepted (cfg : Config) (events : List AckEvent)
    (agrees : Along (ackStep cfg) (StepAgrees cfg) ackWorldInit events) (l i : ℕ) (v : Value)
    (closes : Closes ((run (ackStep cfg) ackWorldInit events).learners l) i v) :
    AcceptedByQuorum cfg (run (ackStep cfg) ackWorldInit events).acceptors i v :=
  (agrees.invariant (AckWorldSound cfg) (ackWorldSound_init cfg)
    fun _ e h agrees => ackWorldSound_step h e agrees).accepted closes

/-- Acceptors 0 and 1 accept a value and a learner hears both. -/
def acceptedByTwo : List AckEvent :=
  [.request 0 (.acceptReqs 0 [⟨1, 10, [7]⟩]), .request 1 (.acceptReqs 0 [⟨1, 10, [7]⟩]),
    .acceptAcks 0 0 [⟨1, 10, 10, false, [7]⟩], .acceptAcks 0 1 [⟨1, 10, 10, false, [7]⟩]]

theorem closed_value_accepted_by_two :
    AcceptedByQuorum .default (run (ackStep .default) ackWorldInit acceptedByTwo).acceptors 1 [7] :=
  closed_value_accepted .default acceptedByTwo (by decide +kernel) 0 1 [7]
    (.inl (by decide +kernel))

/-- Acceptor 0 accepts one value at ballot 10 and acceptor 1 another at ballot 11; both
then promise ballot 21 and are asked to repeat what they accepted. -/
def repeatedAfterPromise : List AckEvent :=
  [.request 0 (.acceptReqs 0 [⟨1, 10, [7]⟩]), .request 1 (.acceptReqs 1 [⟨1, 11, [8]⟩]),
    .request 0 (.prepareReqs 1 [⟨1, 21⟩]), .request 1 (.prepareReqs 1 [⟨1, 21⟩]),
    .request 0 (.repeatReqs [1]), .request 1 (.repeatReqs [1]),
    .acceptAcks 0 0 [⟨1, 21, 10, false, [7]⟩], .acceptAcks 0 1 [⟨1, 21, 11, false, [8]⟩]]

theorem written_by_quorum {cfg : Config}
    {acceptors : ℕ → Outcome AcceptorFault AcceptorState} {i : ℕ} {v : Value}
    (h : AcceptedByQuorum cfg acceptors i v) :
    cfg.quorum ≤ ((Finset.range cfg.nOfAcceptors).filter fun a =>
      ∃ rec ∈ (acceptors a).state.storage.puts, rec.iid = i ∧ rec.value = v).card := by
  obtain ⟨b, quorum⟩ := h
  refine quorum.trans (Finset.card_le_card ?_)
  intro a ha
  obtain ⟨ha, rec, stored, iid, -, value⟩ := Finset.mem_filter.mp ha
  exact Finset.mem_filter.mpr ⟨ha, rec, stored, iid, value⟩

/-- The learner counts the two promises of ballot 21 together and closes the instance
with a value that only acceptor 1 has accepted. -/
theorem closed_value_not_accepted :
    ¬ ∀ l i v, Closes ((run (ackStep .default) ackWorldInit repeatedAfterPromise).learners l) i v →
      AcceptedByQuorum .default
        (run (ackStep .default) ackWorldInit repeatedAfterPromise).acceptors i v := by
  intro h
  have written := written_by_quorum (h 0 1 [8] (.inl (by decide +kernel)))
  revert written
  decide +kernel

end FdsPaxos.Paxos2LearnerSoundness
