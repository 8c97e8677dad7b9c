import FdsPaxos.Paxos2World

set_option autoImplicit false

namespace FdsPaxos.Paxos2BallotUse
open TransitionRuns CircularWindow Paxos2Config Paxos2Messages Paxos2SendBuffer Paxos2Leader
open Paxos2Proposer Paxos2AckWorld Paxos2LeaderMoves Paxos2World

/-- All accept requests that were sent for one instance and ballot carry one value. -/
def OneValuePerBallot (cfg : Config) (w : World) : Prop :=
  ∀ p < cfg.maxNOfProposers, ∀ p' < cfg.maxNOfProposers,
    ∀ ar ∈ (w.proposers p).state.leader.acceptBuf.sent.flatten,
      ∀ ar' ∈ (w.proposers p').state.leader.acceptBuf.sent.flatten,
        ar.iid = ar'.iid → ar.ballot = ar'.ballot → ar.value = ar'.value

def Used (trace : List LeaderEvent) (i b : ℕ) : Prop :=
  ∃ e ∈ trace, match e with
    | .proposed i' b' _ => i' = i ∧ b' = b
    | _ => False

instance (trace : List LeaderEvent) (i b : ℕ) : Decidable (Used trace i b) :=
  haveI (e : LeaderEvent) : Decidable (match e with
      | .proposed i' b' _ => i' = i ∧ b' = b
      | _ => False) :=
    match e with
    | .proposed _ _ _ => inferInstanceAs (Decidable (_ ∧ _))
    | .chose _ _ | .received _ _ | .ready _ _ | .delivered _ _ => isFalse id
  inferInstanceAs (Decidable (∃ e ∈ trace, _))

/-- A promise that completes phase 1 of an instance does so at a ballot at which the
proposer, in this reign or an earlier one, has sent no accept request for it. -/
def UnusedBallot (cfg : Config) : AckCondition := fun s acceptorId pa =>
  let ii := s.proposerState (cfg.proIndex pa.iid)
  ii.status = .p1Pending → pa.ballot = ii.myBallot →
    cfg.quorum ≤ (proSavePrepareAck ii pa acceptorId).promisesCount →
      ¬ Used s.trace ii.iid ii.myBallot

instance (cfg : Config) (s : LeaderState) (a : ℕ) (pa : PrepareAck) :
    Decidable (UnusedBallot cfg s a pa) :=
  inferInstanceAs (Decidable (_ → _ → _ → _))

theorem used_cons {e : LeaderEvent} {trace : List LeaderEvent} {i b : ℕ} :
    Used (e :: trace) i b ↔ (∃ v, e = .proposed i b v) ∨ Used trace i b := by
  unfold Used
  simp only [List.mem_cons, or_and_right, exists_or, exists_eq_left]
  refine or_congr_left ?_
  cases e with
  | proposed i' b' v =>
    refine ⟨?_, ?_⟩
    · rintro ⟨rfl, rfl⟩
      exact ⟨v, rfl⟩
    · rintro ⟨v', same⟩
      cases same
      exact ⟨rfl, rfl⟩
  | _ => simp

theorem used_of_mem {trace : List LeaderEvent} {i b : ℕ} {v : Value}
    (h : .proposed i b v ∈ trace) : Used trace i b :=
  ⟨_, h, rfl, rfl⟩

section Invariant

variable {cfg : Config} {id : ℕ} {s t : LeaderState}

def OwnBallot (cfg : Config) (id b : ℕ) : Prop :=
  b % cfg.maxNOfProposers = id % cfg.maxNOfProposers ∧ 0 < b

theorem ownBallot_first (cfg : Config) (id : ℕ) : OwnBallot cfg id (cfg.firstBallot id) :=
  ⟨cfg.firstBallot_mod id, cfg.firstBallot_pos id⟩

theorem OwnBallot.next {b : ℕ} (h : OwnBallot cfg id b) : OwnBallot cfg id (cfg.nextBallot b) :=
  ⟨(cfg.nextBallot_mod b).trans h.1, Nat.lt_trans h.2 (cfg.lt_nextBallot b)⟩

/-- A slot is in its place, works at a ballot of its own proposer, and when it is ready
its ballot has not been used. -/
structure SlotBallot (cfg : Config) (id : ℕ) (trace : List LeaderEvent) (slot : ℕ)
    (ii : PInstInfo) : Prop where
  home : ii.status ≠ .empty → cfg.proIndex ii.iid = slot
  own : ii.status ≠ .empty → OwnBallot cfg id ii.myBallot
  fresh : ii.status = .p1Ready → ¬ Used trace ii.iid ii.myBallot

/-- Accept requests are made at ballots of this proposer, with one value for each. -/
structure ProposalsSound (cfg : Config) (id : ℕ) (trace : List LeaderEvent) : Prop where
  own : ∀ i b v, .proposed i b v ∈ trace → OwnBallot cfg id b
  single : ∀ i b v v', .proposed i b v ∈ trace → .proposed i b v' ∈ trace → v = v'

structure BallotSound (cfg : Config) (id : ℕ) (s : LeaderState) : Prop where
  proposerId : s.thisProposerId = id
  slots : ∀ slot, SlotBallot cfg id s.trace slot (s.proposerState slot)
  proposals : ProposalsSound cfg id s.trace
  sent : s.acceptBuf.All fun ar => .proposed ar.iid ar.ballot ar.value ∈ s.trace

theorem ballotSound_init (cfg : Config) (id : ℕ) : BallotSound cfg id (initProStructs id) where
  proposerId := rfl
  slots := fun _ => ⟨fun h => absurd rfl h, fun h => absurd rfl h, fun h => nomatch h⟩
  proposals := ⟨(fun _ _ _ h => nomatch h), (fun _ _ _ _ h => nomatch h)⟩
  sent := .new

def NotProposed (e : LeaderEvent) : Prop :=
  ∀ i b v, e ≠ .proposed i b v

theorem used_cons_iff {e : LeaderEvent} (other : NotProposed e) {trace : List LeaderEvent}
    {i b : ℕ} : Used (e :: trace) i b ↔ Used trace i b := by
  rw [used_cons]
  exact or_iff_right fun ⟨v, h⟩ => other i b v h

theorem ProposalsSound.cons {trace : List LeaderEvent} (h : ProposalsSound cfg id trace)
    {e : LeaderEvent} (other : NotProposed e) : ProposalsSound cfg id (e :: trace) where
  own := by
    intro i b v hm
    rcases List.mem_cons.mp hm with rfl | hm
    · exact absurd rfl (other i b v)
    · exact h.own i b v hm
  single := by
    intro i b v v' hm hm'
    rcases List.mem_cons.mp hm with rfl | hm
    · exact absurd rfl (other i b v)
    · rcases List.mem_cons.mp hm' with rfl | hm'
      · exact absurd rfl (other i b v')
      · exact h.single i b v v' hm hm'

theorem ProposalsSound.propose {trace : List LeaderEvent} (h : ProposalsSound cfg id trace)
    {i b : ℕ} (value : Value) (own : OwnBallot cfg id b)
    (fresh : ¬ Used trace i b) : ProposalsSound cfg id (.proposed i b value :: trace) where
  own := by
    intro i' b' v hm
    rcases List.mem_cons.mp hm with same | hm
    · cases same
      exact own
    · exact h.own i' b' v hm
  single := by
    intro i' b' v v' hm hm'
    rcases List.mem_cons.mp hm with same | hm
    · cases same
      rcases List.mem_cons.mp hm' with same' | hm'
      · cases same'
        rfl
      · exact absurd (used_of_mem hm') fresh
    · rcases List.mem_cons.mp hm' with same' | hm'
      · cases same'
        exact absurd (used_of_mem hm) fresh
      · exact h.single i' b' v v' hm hm'

theorem SlotBallot.cons {trace : List LeaderEvent} {slot : ℕ} {ii : PInstInfo}
    (h : SlotBallot cfg id trace slot ii) {e : LeaderEvent}
    (other : cfg.proIndex ii.iid = slot → ∀ b v, e ≠ .proposed ii.iid b v) :
    SlotBallot cfg id (e :: trace) slot ii where
  home := h.home
  own := h.own
  fresh := by
    intro ready used
    have home := h.home (by rw [ready]; decide)
    rcases used_cons.mp used with ⟨v, rfl⟩ | used
    · exact other home _ v rfl
    · exact h.fresh ready used

theorem BallotSound.replace (h : BallotSound cfg id s) {slot : ℕ} {ii : PInstInfo}
    {e : LeaderEvent} (pid : t.thisProposerId = s.thisProposerId)
    (slots : t.proposerState = setSlot s.proposerState slot ii) (trace : t.trace = e :: s.trace)
    (sent : t.acceptBuf = s.acceptBuf) (other : NotProposed e)
    (new : SlotBallot cfg id s.trace slot ii) : BallotSound cfg id t where
  proposerId := pid.trans h.proposerId
  slots := by
    intro slot'
    rw [slots, trace, setSlot_apply]
    split_ifs with same
    · exact same ▸ new.cons fun _ b v => other _ b v
    · exact (h.slots slot').cons fun _ b v => other _ b v
  proposals := trace ▸ h.proposals.cons other
  sent := by
    rw [sent, trace]
    exact h.sent.mono fun _ hm => List.mem_cons_of_mem _ hm

theorem BallotSound.silent (h : BallotSound cfg id s) {slot : ℕ} {ii : PInstInfo}
    (pid : t.thisProposerId = s.thisProposerId)
    (slots : t.proposerState = setSlot s.proposerState slot ii) (trace : t.trace = s.trace)
    (sent : t.acceptBuf = s.acceptBuf) (new : SlotBallot cfg id s.trace slot ii) :
    BallotSound cfg id t where
  proposerId := pid.trans h.proposerId
  slots := by
    intro slot'
    rw [slots, trace, setSlot_apply]
    split_ifs with same
    · exact same ▸ new
    · exact h.slots slot'
  proposals := trace ▸ h.proposals
  sent := by
    rw [sent, trace]
    exact h.sent

theorem BallotSound.report (h : BallotSound cfg id s) {e : LeaderEvent} (other : NotProposed e) :
    BallotSound cfg id (s.log e) where
  proposerId := h.proposerId
  slots := fun slot => (h.slots slot).cons fun _ b v => other _ b v
  proposals := h.proposals.cons other
  sent := h.sent.mono fun _ hm => List.mem_cons_of_mem _ hm

theorem ballotSound_ack (h : BallotSound cfg id s) (a : ℕ) (pa : PrepareAck)
    (unused : UnusedBallot cfg s a pa) : BallotSound cfg id (handlePrepareAck cfg a s pa).1 := by
  have logged : BallotSound cfg id (s.log (.received a pa)) := h.report fun _ _ _ h => nomatch h
  rcases handlePrepareAck_cases cfg a s pa with dropped | ⟨ii, rfl, pending, ballot, taken⟩
  · rw [dropped]
    exact logged
  · have old := h.slots (cfg.proIndex pa.iid)
    have busy : (s.proposerState (cfg.proIndex pa.iid)).status ≠ .empty := by
      rw [pending]
      decide
    rcases taken with ⟨_, done⟩ | ⟨full, done⟩
    · rw [done]
      refine logged.silent rfl rfl rfl rfl ?_
      exact
        { home := by simpa using old.home
          own := by simpa using old.own
          fresh := by simp [pending] }
    · rw [done]
      refine logged.replace rfl rfl rfl rfl (fun _ _ _ h => nomatch h) ?_
      exact
        { home := fun _ => by simpa using old.home busy
          own := fun _ => by simpa using old.own busy
          fresh := by
            intro _ used
            simp only [proSavePrepareAck_iid, proSavePrepareAck_myBallot] at used
            have other : NotProposed (.received a pa) := fun _ _ _ h => nomatch h
            exact unused pending ballot full ((used_cons_iff other).mp used) }

theorem ballotSound_move (h : BallotSound cfg id s)
    (move : Move cfg (AckCondition.only (UnusedBallot cfg)) s t) : BallotSound cfg id t := by
  cases move with
  | quiet quiet =>
    refine ⟨quiet.proposerId.trans h.proposerId, ?_, quiet.trace ▸ h.proposals, ?_⟩
    · rw [quiet.slots, quiet.trace]
      exact h.slots
    · rw [quiet.trace]
      exact quiet.accepts _ h.sent
  | openP1 clock iid _ free =>
    refine h.replace rfl rfl rfl rfl (fun _ _ _ h => nomatch h) ?_
    exact ⟨fun _ => rfl, fun _ => h.proposerId ▸ ownBallot_first cfg _, fun h => nomatch h⟩
  | retryP1 clock slot pending =>
    have old := h.slots slot
    have busy : (s.proposerState slot).status ≠ .empty := by rw [pending]; decide
    refine h.replace rfl rfl rfl rfl (fun _ _ _ h => nomatch h) ?_
    refine ⟨fun _ => old.home busy, fun _ => (old.own busy).next, ?_⟩
    intro ready
    simp [retryPhase1, pending] at ready
  | restartP1 clock slot pending =>
    have old := h.slots slot
    have busy : (s.proposerState slot).status ≠ .empty := by rw [pending]; decide
    refine h.replace rfl rfl rfl rfl (fun _ _ _ h => nomatch h) ?_
    exact ⟨fun _ => old.home busy, fun _ => (old.own busy).next, fun h => nomatch h⟩
  | complete slot pending =>
    have old := h.slots slot
    have busy : (s.proposerState slot).status ≠ .empty := by rw [pending]; decide
    refine h.silent rfl rfl rfl rfl ?_
    exact ⟨fun _ => old.home busy, fun _ => old.own busy, fun h => nomatch h⟩
  | executeP2 clock slot value ready chosen =>
    have old := h.slots slot
    have busy : (s.proposerState slot).status ≠ .empty := by rw [ready]; decide
    have home := old.home busy
    refine
      { proposerId := h.proposerId
        slots := ?_
        proposals := h.proposals.propose value (old.own busy) (old.fresh ready)
        sent := ?_ }
    · intro slot'
      -- the slot is no longer ready, and no other slot holds its instance
      simp only [leaderSendAccept, LeaderState.log, LeaderState.withSlot, setSlot_apply]
      split_ifs with same
      · exact ⟨fun _ => same ▸ home, fun _ => old.own busy, fun h => nomatch h⟩
      · refine (h.slots slot').cons fun home' b v eq => same ?_
        have iids := (LeaderEvent.proposed.inj eq).1
        rw [← home', ← iids]
        exact home
    · exact (h.sent.mono fun _ hm => List.mem_cons_of_mem _ hm).add cfg _ List.mem_cons_self
  | ack a pa met => exact ballotSound_ack h a pa met
  | clear slot _ =>
    refine h.silent rfl rfl rfl rfl ?_
    exact ⟨fun h => absurd rfl h, fun h => absurd rfl h, fun h => nomatch h⟩
  | delivered iid value _ => exact h.report fun _ _ _ h => nomatch h

end Invariant

/-- In every run of proposers and acceptors in which no phase 1 completes at a ballot
used before for its instance, there is one value for each instance and ballot. -/
theorem one_value_per_ballot (cfg : Config) (clock : ℕ → Timeval) (timeNow : Timeval)
    (events : List WorldEvent)
    (unused : Along (worldStep cfg) (PromisesMeet cfg (UnusedBallot cfg))
      (worldInit cfg clock timeNow) events) :
    OneValuePerBallot cfg (run (worldStep cfg) (worldInit cfg clock timeNow) events) := by
  have sound (p : ℕ) := world_leader_invariant (BallotSound cfg) clock timeNow
    (ballotSound_init cfg) (fun _ _ _ h move => ballotSound_move h move) events unused p
  intro p hp p' hp' ar har ar' har' iids ballots
  obtain ⟨batch, hb, har⟩ := List.mem_flatten.mp har
  obtain ⟨batch', hb', har'⟩ := List.mem_flatten.mp har'
  have proposed := (sound p).sent.1 batch hb ar har
  have proposed' := (sound p').sent.1 batch' hb' ar' har'
  -- the ballot tells the proposer
  obtain ⟨own, -⟩ := (sound p).proposals.own _ _ _ proposed
  obtain ⟨own', -⟩ := (sound p').proposals.own _ _ _ proposed'
  rw [Nat.mod_eq_of_lt hp] at own
  rw [Nat.mod_eq_of_lt hp', ← ballots, own] at own'
  subst own'
  rw [← iids, ← ballots] at proposed'
  exact (sound p).proposals.single _ _ _ _ proposed proposed'

/-- Proposer 0 hears acceptors 0 and 1 for its first instances and proposes a value. -/
def firstReign : List WorldEvent :=
  [.acks (.request 0 (.prepareReqs 0 (preparesAt .small 10))),
    .acks (.request 1 (.prepareReqs 0 (preparesAt .small 10))),
    .proposer 0 (.submit [7]),
    .proposer 0 (.prepareAcks 0 (promisesAt .small 10) stillClock),
    .proposer 0 (.prepareAcks 1 (promisesAt .small 10) stillClock)]

theorem one_value_in_first_reign :
    OneValuePerBallot .small
      (run (worldStep .small) (worldInit .small stillClock ⟨0, 0⟩) firstReign) :=
  one_value_per_ballot .small stillClock ⟨0, 0⟩ firstReign (by decide +kernel)

/-- The proposer loses leadership, regains it, and receives the same promises again. -/
def secondReign : List WorldEvent :=
  firstReign ++
    [.proposer 0 (.leaderAnnounce 1 stillClock ⟨0, 0⟩),
      .proposer 0 (.leaderAnnounce 0 stillClock ⟨0, 0⟩),
      .proposer 0 (.submit [8]),
      .proposer 0 (.prepareAcks 0 (promisesAt .small 10) stillClock),
      .proposer 0 (.prepareAcks 1 (promisesAt .small 10) stillClock)]

/-- Phase 1 starts at the first ballot again, and the promises of the first reign
complete it: ballot 10 of instance 1 carries a second value. -/
theorem second_value_after_second_reign :
    ¬ OneValuePerBallot .small
      (run (worldStep .small) (worldInit .small stillClock ⟨0, 0⟩) secondReign) := by
  intro h
  have same := h 0 (by decide) 0 (by decide) ⟨1, 10, [7]⟩ (by decide +kernel) ⟨1, 10, [8]⟩
    (by decide +kernel) rfl rfl
  revert same
  decide

end FdsPaxos.Paxos2BallotUse
