import FdsPaxos.Paxos2LeaderMoves
import Mathlib.Data.Finset.Card

set_option autoImplicit false

namespace FdsPaxos.Paxos2PhaseOneQuorum
open TransitionRuns CircularWindow Paxos2Config Paxos2Messages Paxos2Leader Paxos2Proposer
open Paxos2LeaderMoves

/-- The acceptors whose promises for exactly this instance and ballot were received
since the leader last chose the ballot for the instance. -/
def heard (iid ballot : ℕ) : List LeaderEvent → Finset ℕ
  | [] => ∅
  | .received a pa :: older =>
    if pa.iid = iid ∧ pa.ballot = ballot then insert a (heard iid ballot older)
    else heard iid ballot older
  | .chose i b :: older => if i = iid ∧ b = ballot then ∅ else heard iid ballot older
  | .ready _ _ :: older | .proposed _ _ _ :: older | .delivered _ _ :: older =>
    heard iid ballot older

/-- Whenever an instance became ready, a quorum had been heard for it. -/
def ReadySound (cfg : Config) (trace : List LeaderEvent) : Prop :=
  ∀ iid ballot older, (.ready iid ballot :: older) <:+ trace →
    cfg.quorum ≤ (heard iid ballot older).card

theorem readySound_cons {cfg : Config} {e : LeaderEvent} {trace : List LeaderEvent} :
    ReadySound cfg (e :: trace) ↔
      (∀ iid ballot, e = .ready iid ballot → cfg.quorum ≤ (heard iid ballot trace).card) ∧
        ReadySound cfg trace := by
  refine ⟨fun h => ⟨?_, ?_⟩, ?_⟩
  · rintro iid ballot rfl
    exact h iid ballot trace List.suffix_rfl
  · exact fun iid ballot older tail => h iid ballot older (tail.trans (List.suffix_cons e trace))
  · rintro ⟨head, tail⟩ iid ballot older h
    rcases List.suffix_cons_iff.mp h with same | h
    · obtain ⟨rfl, rfl⟩ := List.cons.inj same
      exact head iid ballot rfl
    · exact tail iid ballot older h

theorem ReadySound.cons {cfg : Config} {e : LeaderEvent} {trace : List LeaderEvent}
    (h : ReadySound cfg trace) (other : ∀ iid ballot, e ≠ .ready iid ballot) :
    ReadySound cfg (e :: trace) :=
  readySound_cons.mpr ⟨fun iid ballot ready => absurd ready (other iid ballot), h⟩

theorem not_readySound {cfg : Config} {trace : List LeaderEvent} (iid ballot : ℕ)
    (last : trace.head? = some (.ready iid ballot))
    (few : (heard iid ballot trace.tail).card < cfg.quorum) : ¬ ReadySound cfg trace := by
  cases trace with
  | nil => cases last
  | cons e older =>
    intro sound
    have := (readySound_cons.mp sound).1 iid ballot (Option.some.inj last)
    simp only [List.tail_cons] at few
    omega

/-- A promise that the leader counts is for the instance in its slot, whose count is
still below a quorum, and comes from an acceptor not heard since the ballot was chosen. -/
def FreshPromise (cfg : Config) : AckCondition := fun s acceptorId pa =>
  let ii := s.proposerState (cfg.proIndex pa.iid)
  ii.status = .p1Pending → pa.ballot = ii.myBallot →
    pa.iid = ii.iid ∧ ii.promisesCount < cfg.quorum ∧
      acceptorId ∉ heard ii.iid ii.myBallot s.trace

instance (cfg : Config) (s : LeaderState) (a : ℕ) (pa : PrepareAck) :
    Decidable (FreshPromise cfg s a pa) :=
  inferInstanceAs (Decidable (_ → _ → _ ∧ _ ∧ _))

section Invariant

variable {cfg : Config} {s t : LeaderState}

/-- The promise count of a slot is backed by acceptors heard, or left from a phase 1
that was complete before. -/
structure SlotCounted (cfg : Config) (trace : List LeaderEvent) (slot : ℕ) (ii : PInstInfo) :
    Prop where
  home : ii.status ≠ .empty → cfg.proIndex ii.iid = slot
  clean : ii.status = .empty → ii.promisesCount = 0
  counted : ii.status = .p1Pending →
    cfg.quorum ≤ ii.promisesCount ∨ ii.promisesCount ≤ (heard ii.iid ii.myBallot trace).card
  full : ii.status ≠ .empty → ii.status ≠ .p1Pending → cfg.quorum ≤ ii.promisesCount

structure PhaseOneSound (cfg : Config) (s : LeaderState) : Prop where
  slots : ∀ slot, SlotCounted cfg s.trace slot (s.proposerState slot)
  ready : ReadySound cfg s.trace

def ChoosesIn (cfg : Config) (slot : ℕ) (e : LeaderEvent) : Prop :=
  ∀ i b, e = .chose i b → cfg.proIndex i = slot

theorem heard_subset_cons {iid ballot : ℕ} {e : LeaderEvent} (trace : List LeaderEvent)
    (other : ∀ b, e ≠ .chose iid b) : heard iid ballot trace ⊆ heard iid ballot (e :: trace) := by
  cases e with
  | chose i b =>
    have : ¬ (i = iid ∧ b = ballot) := fun h => other b (by rw [h.1])
    simp [heard, this]
  | received a pa =>
    simp only [heard]
    split_ifs
    · exact Finset.subset_insert a _
    · exact Finset.Subset.refl _
  | _ => exact Finset.Subset.refl _

section Slot

variable {trace : List LeaderEvent} {slot : ℕ} {ii : PInstInfo} {status : IStatus}

theorem SlotCounted.home_of (h : SlotCounted cfg trace slot ii) (now : ii.status = status)
    (used : status ≠ .empty) : cfg.proIndex ii.iid = slot :=
  h.home (now ▸ used)

theorem SlotCounted.full_of (h : SlotCounted cfg trace slot ii) (now : ii.status = status)
    (used : status ≠ .empty) (past : status ≠ .p1Pending) : cfg.quorum ≤ ii.promisesCount :=
  h.full (now ▸ used) (now ▸ past)

end Slot

theorem SlotCounted.cons {trace : List LeaderEvent} {slot : ℕ} {ii : PInstInfo}
    (h : SlotCounted cfg trace slot ii) {e : LeaderEvent}
    (other : cfg.proIndex ii.iid = slot → ∀ b, e ≠ .chose ii.iid b) :
    SlotCounted cfg (e :: trace) slot ii where
  home := h.home
  clean := h.clean
  counted := by
    intro pending
    have home := h.home_of pending (by decide)
    rcases h.counted pending with full | backed
    · exact .inl full
    · exact .inr (backed.trans (Finset.card_le_card (heard_subset_cons trace (other home))))
  full := h.full

theorem PhaseOneSound.replace (h : PhaseOneSound cfg s) {slot : ℕ} {ii : PInstInfo}
    {e : LeaderEvent} (slots : t.proposerState = setSlot s.proposerState slot ii)
    (trace : t.trace = e :: s.trace) (about : ChoosesIn cfg slot e)
    (new : SlotCounted cfg (e :: s.trace) slot ii) (ready : ReadySound cfg (e :: s.trace)) :
    PhaseOneSound cfg t where
  slots := by
    intro slot'
    rw [slots, trace, setSlot_apply]
    split_ifs with same
    · exact same ▸ new
    · refine (h.slots slot').cons fun home b chose => ?_
      exact same (home.symm.trans (about _ b chose))
  ready := trace ▸ ready

theorem PhaseOneSound.silent (h : PhaseOneSound cfg s) {slot : ℕ} {ii : PInstInfo}
    (slots : t.proposerState = setSlot s.proposerState slot ii) (trace : t.trace = s.trace)
    (new : SlotCounted cfg s.trace slot ii) : PhaseOneSound cfg t where
  slots := by
    intro slot'
    rw [slots, trace, setSlot_apply]
    split_ifs with same
    · exact same ▸ new
    · exact h.slots slot'
  ready := trace ▸ h.ready

theorem PhaseOneSound.received (h : PhaseOneSound cfg s) (a : ℕ) (pa : PrepareAck) :
    PhaseOneSound cfg (s.log (.received a pa)) where
  slots := by
    intro slot'
    exact (h.slots slot').cons fun _ _ h => nomatch h
  ready := h.ready.cons fun _ _ h => nomatch h

theorem phaseOneSound_ack (h : PhaseOneSound cfg s) (a : ℕ) (pa : PrepareAck)
    (fresh : FreshPromise cfg s a pa) : PhaseOneSound cfg (handlePrepareAck cfg a s pa).1 := by
  have logged := h.received a pa
  rcases handlePrepareAck_cases cfg a s pa with dropped | ⟨ii, hii, pending, ballot, taken⟩
  · rw [dropped]
    exact logged
  · obtain ⟨iid, below, unheard⟩ :=
      fresh (by rw [← hii]; exact pending) (by rw [← hii]; exact ballot)
    rw [← hii] at iid below unheard
    have old := h.slots (cfg.proIndex pa.iid)
    rw [← hii] at old
    -- the acceptor is new, so what was heard grows with the count
    have grown : (heard ii.iid ii.myBallot (.received a pa :: s.trace)).card =
        (heard ii.iid ii.myBallot s.trace).card + 1 := by
      simp only [heard, iid, ballot, and_self, if_true]
      exact Finset.card_insert_of_notMem unheard
    have count := proSavePrepareAck_promisesCount_le ii pa a
    have backed : (proSavePrepareAck ii pa a).promisesCount ≤
        (heard ii.iid ii.myBallot (.received a pa :: s.trace)).card := by
      rcases old.counted pending with full | backed <;> omega
    rcases taken with ⟨notFull, done⟩ | ⟨full, done⟩
    · rw [done]
      refine logged.silent rfl rfl ?_
      exact
        { home := by simpa using old.home
          clean := by simp [pending]
          counted := by
            intro _
            rw [proSavePrepareAck_iid, proSavePrepareAck_myBallot]
            exact .inr backed
          full := by simp [pending] }
    · rw [done]
      refine logged.replace rfl rfl (fun _ _ h => nomatch h) ?_ ?_
      · exact
          { home := by
              intro _
              rw [proSavePrepareAck_iid]
              exact old.home_of pending (by decide)
            clean := fun h => nomatch h
            counted := fun h => nomatch h
            full := fun _ _ => full }
      · refine readySound_cons.mpr ⟨?_, logged.ready⟩
        rintro i b ⟨rfl, rfl⟩
        rw [proSavePrepareAck_iid, proSavePrepareAck_myBallot]
        exact full.trans backed

theorem phaseOneSound_move (h : PhaseOneSound cfg s)
    (move : Move cfg (AckCondition.only (FreshPromise cfg)) s t) : PhaseOneSound cfg t := by
  cases move with
  | quiet quiet =>
    refine ⟨?_, ?_⟩
    · rw [quiet.slots, quiet.trace]
      exact h.slots
    · rw [quiet.trace]
      exact h.ready
  | openP1 clock iid _ free =>
    have clean := (h.slots _).clean free
    refine h.replace rfl rfl ?_ ?_ (h.ready.cons fun _ _ h => nomatch h)
    · rintro i b ⟨rfl, -⟩
      rfl
    · exact
        { home := fun _ => rfl
          clean := fun h => nomatch h
          counted := fun _ => .inr (by simp [clean])
          full := fun _ h => absurd rfl h }
  | retryP1 clock slot pending =>
    have old := h.slots slot
    have home := old.home_of pending (by decide)
    refine h.replace rfl rfl ?_ ?_ (h.ready.cons fun _ _ h => nomatch h)
    · rintro i b ⟨rfl, -⟩
      exact home
    · exact
        { home := fun _ => home
          clean := fun _ => rfl
          counted := fun _ => .inr (Nat.zero_le _)
          full := fun _ h => absurd pending h }
  | restartP1 clock slot pending =>
    have old := h.slots slot
    have home := old.home_of pending (by decide)
    have full := old.full_of pending (by decide) (by decide)
    refine h.replace rfl rfl ?_ ?_ (h.ready.cons fun _ _ h => nomatch h)
    · rintro i b ⟨rfl, -⟩
      exact home
    · exact
        { home := fun _ => home
          clean := fun h => nomatch h
          counted := fun _ => .inl full
          full := fun _ h => absurd rfl h }
  | complete slot pending =>
    have old := h.slots slot
    refine h.silent rfl rfl ?_
    exact
      { home := fun _ => old.home_of pending (by decide)
        clean := fun h => nomatch h
        counted := fun h => nomatch h
        full := fun _ _ => old.full_of pending (by decide) (by decide) }
  | executeP2 clock slot value ready chosen =>
    have old := h.slots slot
    refine h.replace rfl rfl (fun _ _ h => nomatch h) ?_
      (h.ready.cons fun _ _ h => nomatch h)
    exact
      { home := fun _ => old.home_of ready (by decide)
        clean := fun h => nomatch h
        counted := fun h => nomatch h
        full := fun _ _ => old.full_of ready (by decide) (by decide) }
  | ack a pa met => exact phaseOneSound_ack h a pa met
  | clear slot _ =>
    refine h.silent rfl rfl ?_
    exact
      { home := fun h => absurd rfl h
        clean := fun _ => rfl
        counted := fun h => nomatch h
        full := fun h => absurd rfl h }
  | delivered iid value _ =>
    refine ⟨?_, h.ready.cons fun _ _ h => nomatch h⟩
    intro slot'
    exact (h.slots slot').cons fun _ _ h => nomatch h

theorem phaseOneSound_init (proposerId : ℕ) : PhaseOneSound cfg (initProStructs proposerId) where
  slots := fun _ =>
    { home := fun h => absurd rfl h
      clean := fun _ => rfl
      counted := fun h => nomatch h
      full := fun h => absurd rfl h }
  ready := fun _ _ _ h => absurd (List.suffix_nil.mp h) (List.cons_ne_nil _ _)

end Invariant

/-- In every run of a proposer whose counted promises are fresh, an instance becomes
ready only after a quorum of acceptors was heard for its ballot. -/
theorem ready_after_quorum_heard (cfg : Config) (clock : ℕ → Timeval) (timeNow : Timeval)
    (proposerId : ℕ) (events : List ProposerEvent)
    (fresh : Along (proposerStep cfg) (StepMeets cfg (FreshPromise cfg))
      (proposerInit cfg clock timeNow proposerId) events) :
    ReadySound cfg
      (run (proposerStep cfg) (proposerInit cfg clock timeNow proposerId)
        events).state.leader.trace :=
  (proposer_run_invariant clock (PhaseOneSound cfg) timeNow proposerId
    (phaseOneSound_init proposerId) (fun _ _ h move => phaseOneSound_move h move) events
    fresh).ready

/-- A leader that hears acceptors 0 and 1 once each. -/
theorem ready_after_two_acceptors :
    ReadySound .default
      (run (proposerStep .default) (proposerInit .default stillClock ⟨0, 0⟩ 0)
        [.prepareAcks 0 [⟨1, 10, 0, []⟩] stillClock,
          .prepareAcks 1 [⟨1, 10, 0, []⟩] stillClock]).state.leader.trace :=
  ready_after_quorum_heard .default stillClock ⟨0, 0⟩ 0 _ (by decide +kernel)

/-- The promise of acceptor 0, received twice, makes instance 1 ready. -/
theorem ready_after_one_acceptor :
    ¬ ReadySound .default
      (run (proposerStep .default) (proposerInit .default stillClock ⟨0, 0⟩ 0)
        [.prepareAcks 0 [⟨1, 10, 0, []⟩, ⟨1, 10, 0, []⟩] stillClock]).state.leader.trace := by
  refine not_readySound 1 10 ?_ ?_
  · decide +kernel
  · decide +kernel

end FdsPaxos.Paxos2PhaseOneQuorum
