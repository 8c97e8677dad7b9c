import FdsPaxos.Paxos2AcceptorLife

set_option autoImplicit false

namespace FdsPaxos.Paxos2LatestAccept
open TransitionRuns Paxos2Config Paxos2Messages Paxos2SendBuffer Paxos2StableStorage
open Paxos2Acceptor Paxos2AcceptorSafety Paxos2ReadFailures Paxos2AcceptorLife

/-- The stored record of the instance holds an accepted value: its value has a ballot. -/
def HoldsAccepted (s : AcceptorState) (iid : ℕ) : Prop :=
  ∃ rec, s.storage.db iid = some rec ∧ rec.valueBallot ≠ 0

/-- `highest_accepted_iid` is the largest instance that holds an accepted value, 0 without one. -/
structure HighestExact (s : AcceptorState) : Prop where
  bound : ∀ i, HoldsAccepted s i → i ≤ s.highestAcceptedIid
  attained : s.highestAcceptedIid ≠ 0 → HoldsAccepted s s.highestAcceptedIid

/-- The repeat reads no missing record and sends that of the highest instance, if there is one. -/
def RepeatsLatest (s : AcceptorState) (o : Outcome AcceptorFault AcceptorState) : Prop :=
  ∃ t, o = .running t ∧
    (s.highestAcceptedIid = 0 → t.toLearners.sent = s.toLearners.sent) ∧
    (s.highestAcceptedIid ≠ 0 → ∃ rec, s.storage.db s.highestAcceptedIid = some rec ∧
      t.toLearners.sent = s.toLearners.sent ++ [[rec]])

/-- Ballots are positive: those of a proposer start above `MAX_N_OF_PROPOSERS`. -/
def BallotsPositive : AcceptorEvent → Prop
  | .newmsg (.acceptReqs _ accepts) => ∀ ar ∈ accepts, ar.ballot ≠ 0
  | .deliver _ _ ballot => ballot ≠ 0
  | _ => True

abbrev BallotEvent := { event : AcceptorEvent // BallotsPositive event }

def ballotEventStep (cfg : Config) (o : Outcome AcceptorFault AcceptorState)
    (event : BallotEvent) : Outcome AcceptorFault AcceptorState :=
  acceptorEventStep cfg o event.val

/-- After the event the highest instance is exact, and if the event is the periodic repeat
it repeats the latest accept. -/
def LatestRight (cfg : Config) (o : Outcome AcceptorFault AcceptorState) (event : BallotEvent) :
    Prop :=
  HighestExact (ballotEventStep cfg o event).state ∧
    (event.val = .periodicRepeat → RepeatsLatest o.state (ballotEventStep cfg o event))

def Remembers (s : AcceptorState) : AcceptorEvent → Prop
  | .newmsg (.prepareReqs _ prepares) =>
    s.highestAcceptedIid ≠ 0 → ∀ pr ∈ prepares, pr.iid = s.highestAcceptedIid →
      s.storage.readError s.highestAcceptedIid = false
  | .periodicRepeat =>
    s.highestAcceptedIid ≠ 0 → s.storage.readError s.highestAcceptedIid = false
  | .deliver _ iid _ => iid ≤ s.highestAcceptedIid
  | .recover => s.highestAcceptedIid = 0
  | _ => True

def RemembersWhileRunning (o : Outcome AcceptorFault AcceptorState) (event : BallotEvent) : Prop :=
  Remembers o.state event.val

variable {cfg : Config} {s t : AcceptorState}

theorem HighestExact.congr (h : HighestExact s) (highest : t.highestAcceptedIid = s.highestAcceptedIid)
    (storage : t.storage = s.storage) : HighestExact t := by
  have holds : ∀ i, HoldsAccepted t i ↔ HoldsAccepted s i := by
    intro i
    rw [HoldsAccepted, storage]
    exact Iff.rfl
  constructor
  · intro i accepted
    rw [highest]
    exact h.bound i ((holds i).mp accepted)
  · rw [highest, holds]
    exact h.attained

theorem handlePrepareReq_highest (s : AcceptorState) (pr : PrepareReq) :
    (handlePrepareReq cfg s pr).highestAcceptedIid = s.highestAcceptedIid := by
  rcases handlePrepareReq_cases cfg s pr with same | ⟨_, _, _, saved⟩
  · rw [same]
  · rw [saved]

theorem handlePrepareReq_holds_iff (s : AcceptorState) (pr : PrepareReq) (i : ℕ) :
    HoldsAccepted (handlePrepareReq cfg s pr) i ↔
      HoldsAccepted s i ∧ (pr.iid = i → s.storage.readError i = false) := by
  by_cases own : pr.iid = i
  · subst own
    cases reads : s.storage.readError pr.iid with
    | true =>
      have missing : stablestorageGetRecord s.storage pr.iid = none := by
        simp [stablestorageGetRecord, reads]
      simp [HoldsAccepted, handlePrepareReq, accApplyPrepare, missing, stablestorageSavePrepare,
        prepareRecord]
    | false =>
      have found := getRecord_of_readable reads
      simp only [forall_const, and_true]
      rcases handlePrepareReq_cases cfg s pr with same | ⟨rec, written, _, saved⟩
      · rw [same]
      · have key : rec.iid = pr.iid := by rw [written, prepareRecord_iid]
        have db : (handlePrepareReq cfg s pr).storage.db pr.iid = some rec := by
          rw [saved, put_db, if_pos key.symm]
        rw [HoldsAccepted, HoldsAccepted, db, written, found]
        cases s.storage.db pr.iid with
        | none => simp [prepareRecord]
        | some old => simp [prepareRecord]
  · have db := handleRequest_db_of_ne cfg s (r := .prepare pr) own
    have db : (handlePrepareReq cfg s pr).storage.db i = s.storage.db i := db
    simp [HoldsAccepted, db, own]

theorem prepareReqs_holds_iff (cfg : Config) (s : AcceptorState) (prepares : List PrepareReq) (i : ℕ) :
    (run (handlePrepareReq cfg) s prepares).highestAcceptedIid = s.highestAcceptedIid ∧
    (HoldsAccepted (run (handlePrepareReq cfg) s prepares) i ↔
      HoldsAccepted s i ∧ ∀ pr ∈ prepares, pr.iid = i → s.storage.readError i = false) := by
  induction prepares generalizing s with
  | nil => simp
  | cons pr prepares ih =>
    obtain ⟨highest, holds⟩ := ih (handlePrepareReq cfg s pr)
    have reads : (handlePrepareReq cfg s pr).storage.readError = s.storage.readError :=
      handleRequest_readError cfg s (.prepare pr)
    rw [run_cons, highest, handlePrepareReq_highest, holds, handlePrepareReq_holds_iff, reads,
      List.forall_mem_cons, and_assoc]
    exact ⟨rfl, Iff.rfl⟩

theorem HighestExact.handleAcceptReq (h : HighestExact s) {ar : AcceptReq}
    (positive : ar.ballot ≠ 0) : HighestExact (handleAcceptReq cfg s ar) := by
  rcases handleAcceptReq_cases cfg s ar with ⟨_, _, _, same⟩ | ⟨_, saved⟩
  · rwa [same]
  · have holds : ∀ i, HoldsAccepted (Paxos2Acceptor.handleAcceptReq cfg s ar) i ↔
        i = ar.iid ∨ HoldsAccepted s i := by
      intro i
      simp only [HoldsAccepted, saved, put_db]
      by_cases own : i = ar.iid
      · simp [own, acceptRecord, positive]
      · simp [own, acceptRecord]
    have highest : (Paxos2Acceptor.handleAcceptReq cfg s ar).highestAcceptedIid =
        max s.highestAcceptedIid ar.iid := by
      rw [saved]
      dsimp only
      split_ifs <;> omega
    constructor
    · intro i accepted
      rw [highest]
      rcases (holds i).mp accepted with rfl | old
      · omega
      · have := h.bound i old
        omega
    · intro nonzero
      rw [holds]
      rw [highest] at nonzero ⊢
      rcases Nat.le_total s.highestAcceptedIid ar.iid with le | le
      · exact .inl (by omega)
      · rw [max_eq_left le] at nonzero ⊢
        exact .inr (h.attained nonzero)

theorem accDeliverCallback_exact_iff (h : HighestExact s) (value : Value) (iid : ℕ) {ballot : ℕ}
    (positive : ballot ≠ 0) :
    HighestExact (accDeliverCallback s value iid ballot) ↔ iid ≤ s.highestAcceptedIid := by
  have holds : ∀ i, HoldsAccepted (accDeliverCallback s value iid ballot) i ↔
      i = iid ∨ HoldsAccepted s i := by
    intro i
    simp only [HoldsAccepted, accDeliverCallback, stablestorageSaveFinalValue, put_db]
    by_cases own : i = iid
    · simp [own, finalRecord, positive]
    · simp [own, finalRecord]
  constructor
  · intro exact'
    exact exact'.bound iid ((holds iid).mpr (.inl rfl))
  · intro le
    constructor
    · intro i accepted
      rcases (holds i).mp accepted with rfl | old
      · exact le
      · exact h.bound i old
    · intro nonzero
      exact (holds _).mpr (.inr (h.attained nonzero))

theorem acceptorInitRecover_exact_iff (h : HighestExact s) :
    HighestExact (acceptorInitRecover s) ↔ s.highestAcceptedIid = 0 := by
  constructor
  · intro exact'
    by_contra nonzero
    have bound : s.highestAcceptedIid ≤ 0 := exact'.bound _ (h.attained nonzero)
    omega
  · intro zero
    constructor
    · intro i accepted
      have bound := h.bound i accepted
      rwa [zero] at bound
    · intro nonzero
      exact absurd rfl nonzero

theorem accPeriodicRepeater_kept (cfg : Config) (s : AcceptorState) :
    (accPeriodicRepeater cfg s).state.highestAcceptedIid = s.highestAcceptedIid ∧
      (accPeriodicRepeater cfg s).state.storage = s.storage := by
  unfold accPeriodicRepeater
  split_ifs
  · unfold accRetransmitLatestAccept
    dsimp only
    split <;> exact ⟨rfl, rfl⟩
  · exact ⟨rfl, rfl⟩

theorem sent_add_clear (cfg : Config) (sb : SendBuf AcceptAck) (rec : AcceptorRecord) :
    (sendbufFlush (sendbufAddAcceptAck cfg (sendbufClear sb) rec)).sent = sb.sent ++ [[rec]] := by
  unfold sendbufAddAcceptAck sendbufAdd
  dsimp only
  split_ifs
  · simp [sendbufFlush, sendbufClear]
  · simp [sendbufFlush, sendbufClear]

theorem repeatsLatest_iff (cfg : Config) (h : HighestExact s) :
    RepeatsLatest s (accPeriodicRepeater cfg s) ↔ Remembers s .periodicRepeat := by
  unfold RepeatsLatest Remembers accPeriodicRepeater
  by_cases zero : s.highestAcceptedIid = 0
  · rw [if_neg (by omega)]
    exact iff_of_true ⟨s, rfl, fun _ => rfl, fun nonzero => absurd zero nonzero⟩
      fun nonzero => absurd zero nonzero
  · rw [if_pos (by omega)]
    obtain ⟨rec, stored, -⟩ := h.attained zero
    unfold accRetransmitLatestAccept
    dsimp only
    have unread : stablestorageGetRecord s.clearToLearners.storage
        s.clearToLearners.highestAcceptedIid =
        if s.storage.readError s.highestAcceptedIid then none else some rec := by
      rw [← stored]
      rfl
    rw [unread]
    cases s.storage.readError s.highestAcceptedIid with
    | true =>
      refine iff_of_false ?_ fun reads => by simpa using reads zero
      rintro ⟨t, aborted, -⟩
      cases aborted
    | false =>
      refine iff_of_true ⟨_, rfl, fun nonzero => absurd nonzero zero, fun _ => ?_⟩ fun _ => rfl
      exact ⟨rec, stored, sent_add_clear cfg s.toLearners rec⟩

theorem accHandleNewmsg_exact_iff (h : HighestExact s) (msg : PaxosMsg)
    (positive : BallotsPositive (.newmsg msg)) :
    HighestExact (accHandleNewmsg cfg s msg) ↔ Remembers s (.newmsg msg) := by
  cases msg with
  | prepareReqs proposerId prepares =>
    have batch := prepareReqs_holds_iff cfg s.clearToProposers prepares
    have highest : (accHandleNewmsg cfg s (.prepareReqs proposerId prepares)).highestAcceptedIid =
        s.highestAcceptedIid := (batch 0).1
    have holds : ∀ i, HoldsAccepted (accHandleNewmsg cfg s (.prepareReqs proposerId prepares)) i ↔
        HoldsAccepted s i ∧ ∀ pr ∈ prepares, pr.iid = i → s.storage.readError i = false :=
      fun i => (batch i).2
    constructor
    · intro exact' nonzero
      have attained := exact'.attained (highest ▸ nonzero)
      rw [highest, holds] at attained
      exact attained.2
    · intro reads
      constructor
      · intro i accepted
        rw [highest]
        exact h.bound i ((holds i).mp accepted).1
      · rw [highest, holds]
        intro nonzero
        exact ⟨h.attained nonzero, reads nonzero⟩
  | acceptReqs proposerId accepts =>
    refine iff_of_true ?_ trivial
    have along : Along (handleAcceptReq cfg) (fun _ ar => ar.ballot ≠ 0) s.clearToLearners accepts :=
      along_of_mem fun ar har _ => positive ar har
    have kept : HighestExact (run (handleAcceptReq cfg) s.clearToLearners accepts) := by
      refine along.invariant HighestExact (h.congr rfl rfl) ?_
      intro u ar exact' positive
      exact exact'.handleAcceptReq positive
    exact kept.congr rfl rfl
  | repeatReqs requests =>
    refine iff_of_true ?_ trivial
    have kept : HighestExact (run (handleRepeatReq cfg) s.clearToLearners requests) := by
      refine run_invariant HighestExact (h.congr rfl rfl) ?_
      intro u i exact'
      rcases handleRepeatReq_cases cfg u i with same | ⟨_, _, _, resent⟩
      · rwa [same]
      · rw [resent]
        exact exact'.congr rfl rfl
    exact kept.congr rfl rfl
  | _ => exact iff_of_true h trivial

theorem latestRight_iff (h : HighestExact s) (event : BallotEvent) :
    LatestRight cfg (.running s) event ↔ Remembers s event.val := by
  obtain ⟨event, positive⟩ := event
  unfold LatestRight ballotEventStep
  cases event with
  | newmsg msg =>
    rw [and_iff_left (by simp)]
    exact accHandleNewmsg_exact_iff h msg positive
  | periodicRepeat =>
    obtain ⟨highest, storage⟩ := accPeriodicRepeater_kept cfg s
    have exact' : HighestExact (accPeriodicRepeater cfg s).state := h.congr highest storage
    have repeats := repeatsLatest_iff cfg h
    exact ⟨fun right => repeats.mp (right.2 rfl),
      fun remembers => ⟨exact', fun _ => repeats.mpr remembers⟩⟩
  | deliver value iid ballot =>
    rw [and_iff_left (by simp)]
    exact accDeliverCallback_exact_iff h value iid positive
  | reads readError =>
    rw [and_iff_left (by simp)]
    exact iff_of_true ⟨h.bound, h.attained⟩ trivial
  | recover =>
    rw [and_iff_left (by simp)]
    exact acceptorInitRecover_exact_iff h

theorem LatestRight.running {event : BallotEvent} (right : LatestRight cfg (.running s) event) :
    ∃ t, ballotEventStep cfg (.running s) event = .running t ∧ HighestExact t := by
  obtain ⟨exact', repeats⟩ := right
  have runs : ∃ t, ballotEventStep cfg (.running s) event = .running t := by
    obtain ⟨event, positive⟩ := event
    cases event with
    | periodicRepeat =>
      obtain ⟨t, running, -⟩ := repeats rfl
      exact ⟨t, running⟩
    | _ => exact ⟨_, rfl⟩
  obtain ⟨t, running⟩ := runs
  rw [running] at exact'
  exact ⟨t, running, exact'⟩

/-- A new acceptor starts with an exact highest instance.  Along its runs, restarts included,
it stays exact and is what the periodic repeat sends exactly when no restart
finds an accepted value, nothing is delivered above it, and neither the repeat nor a
prepare request for it meets a failed read. -/
theorem latest_accept_repeated_iff (cfg : Config) (acceptorId : ℕ) (events : List BallotEvent) :
    HighestExact (acceptorInit acceptorId) ∧
    (Along (ballotEventStep cfg) (LatestRight cfg) (.running (acceptorInit acceptorId)) events ↔
      Along (ballotEventStep cfg) RemembersWhileRunning (.running (acceptorInit acceptorId))
        events) := by
  have start : HighestExact (acceptorInit acceptorId) := by
    constructor
    · rintro i ⟨_, stored, -⟩
      cases stored
    · intro nonzero
      exact absurd rfl nonzero
  refine ⟨start, along_congr_of_met (fun o => ∃ s, o = .running s ∧ HighestExact s)
    ⟨_, rfl, start⟩ ?_ ?_⟩
  · rintro _ event ⟨s, rfl, _⟩ right
    exact right.running
  · rintro _ event ⟨s, rfl, h⟩
    exact latestRight_iff h event

/-- Instance 1 is accepted, and the acceptor crashes and recovers. -/
def acceptedThenRecovered : List BallotEvent :=
  [⟨.newmsg (.acceptReqs 0 [⟨1, 10, [7]⟩]), by simp [BallotsPositive]⟩, ⟨.recover, trivial⟩]

/-- The accepted record is still there, but the highest instance is 0 and nothing is repeated. -/
theorem recovery_forgets_latest :
    ¬ Along (ballotEventStep .default) (LatestRight .default) (.running (acceptorInit 0))
      acceptedThenRecovered ∧
    ∃ s, run (ballotEventStep .default) (.running (acceptorInit 0)) acceptedThenRecovered =
        .running s ∧
      s.storage.db 1 = some ⟨1, 10, 10, false, [7]⟩ ∧ s.highestAcceptedIid = 0 ∧
      (accPeriodicRepeater .default s).state.toLearners.sent = s.toLearners.sent := by
  constructor
  · rintro ⟨-, ⟨exact', -⟩, -⟩
    have bound := exact'.bound 1 ⟨⟨1, 10, 10, false, [7]⟩, by decide⟩
    revert bound
    decide
  · exact ⟨_, Outcome.running_of_isRunning (by decide +kernel), by decide +kernel,
      by decide +kernel, by decide +kernel⟩

end FdsPaxos.Paxos2LatestAccept
