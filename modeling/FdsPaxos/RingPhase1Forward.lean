import FdsPaxos.RingAcceptorMoves

set_option autoImplicit false

namespace FdsPaxos.RingPhase1Forward
open TransitionRuns RingConfig RingMessages RingStableStorage RingAcceptor RingAcceptorMoves

/-- The message for the successor: a refusal raises the highest promised ballot, a promise is
counted and replaces the accepted command of the message by a later one. -/
def forwarded (ir : InstanceRecord) (msg : Phase1Msg) : Phase1Msg :=
  if msg.ballot < ir.ballot then
    { msg with highestPromisedBallot := max msg.highestPromisedBallot ir.ballot }
  else if msg.highestAcceptedBallot < ir.acceptBallot then
    { msg with
      promisesCount := msg.promisesCount + 1
      highestAcceptedBallot := ir.acceptBallot
      cmdKey := ir.acceptedCmdKey
      cmdValue := ir.acceptedCmd.getD [] }
  else { msg with promisesCount := msg.promisesCount + 1 }

variable (cfg : Config) (s : RingAcceptor) (msg : Phase1Msg)

/-- The record in which a request for a promise is handled. -/
def ownRecord : InstanceRecord :=
  readied (s.record cfg msg.instNumber) msg.instNumber

/-- Whatever was on the stack, a request that is handled is forwarded as it should be. -/
def ForwardsPhase1 : Prop :=
  ∀ stack : Phase1Stack, (acceptorHandlePhase1Msg cfg s msg stack).Ensures
    (fun t => t.toSuccessor = .phase1 (forwarded (ownRecord cfg s msg) msg) :: s.toSuccessor)
    fun _ => True

/-- The acceptor promises, and has accepted a later command than the one in the message. -/
def ReplacesAccepted : Prop :=
  (s.record cfg msg.instNumber).instNumber ≤ msg.instNumber ∧
    (ownRecord cfg s msg).ballot ≤ msg.ballot ∧
    msg.highestAcceptedBallot < (ownRecord cfg s msg).acceptBallot

instance : Decidable (ReplacesAccepted cfg s msg) :=
  inferInstanceAs (Decidable (_ ∧ _ ∧ _))

variable {cfg s msg}

/-- What is sent for the record found, stack included. -/
def sent (ir : InstanceRecord) (msg : Phase1Msg) (stack : Phase1Stack) : Phase1Msg :=
  if msg.ballot < ir.ballot then forwarded ir msg
  else if msg.highestAcceptedBallot < ir.acceptBallot then forwardAccepted msg ir stack
  else forwarded ir msg

theorem max_of_lt {a b : Ballot} : (if a < b then b else a) = max a b := by
  change _ = if a ≤ b then b else a
  split_ifs with lt le le
  · rfl
  · exact absurd (UInt32.le_of_lt lt) le
  · exact UInt32.le_antisymm le (UInt32.not_lt.mp lt)
  · rfl

theorem handlePhase1_sends (stack : Phase1Stack) {t : RingAcceptor}
    (done : acceptorHandlePhase1Msg cfg s msg stack = .running t) :
    t.toSuccessor = .phase1 (sent (ownRecord cfg s msg) msg stack) :: s.toSuccessor := by
  obtain ⟨u, got, handled⟩ := Outcome.bind_eq_running.mp done
  obtain ⟨-, -, silent⟩ := ssmGetRecord_readied got
  have found : u.record cfg msg.instNumber = ownRecord cfg s msg := ssmGetRecord_record got
  dsimp only at handled
  rw [found] at handled
  unfold sent forwarded
  by_cases refused : msg.ballot < (ownRecord cfg s msg).ballot
  · rw [if_pos refused, max_of_lt] at handled
    cases handled
    rw [if_pos refused, if_pos refused, ← silent]
    rfl
  · rw [if_neg refused] at handled
    rw [if_neg refused, if_neg refused]
    by_cases earlier : (ownRecord cfg s msg).acceptBallot ≤ msg.highestAcceptedBallot
    · rw [if_pos earlier] at handled
      cases handled
      rw [if_neg (UInt32.not_lt.mpr earlier), if_neg (UInt32.not_lt.mpr earlier), ← silent]
      rfl
    · rw [if_neg earlier] at handled
      cases handled
      rw [if_pos (UInt32.not_le.mp earlier), ← silent]
      rfl

theorem handlePhase1_isRunning (stack : Phase1Stack) :
    (acceptorHandlePhase1Msg cfg s msg stack).IsRunning ↔
      (s.record cfg msg.instNumber).instNumber ≤ msg.instNumber := by
  rw [← ssmGetRecord_isRunning]
  unfold acceptorHandlePhase1Msg
  cases got : ssmGetRecord cfg s msg.instNumber with
  | running u =>
    rw [Outcome.bind_running]
    dsimp only
    split_ifs <;> exact Iff.rfl
  | aborted fault u => exact Iff.rfl

/-- Every field of a forwarded request is right exactly when no accepted command takes the
place of the one in the message: then the ballot, the count of promises and the highest
promised ballot are left to what was on the stack. -/
theorem phase1_forwarded_iff (cfg : Config) (s : RingAcceptor) (msg : Phase1Msg) :
    ForwardsPhase1 cfg s msg ↔ ¬ ReplacesAccepted cfg s msg := by
  constructor
  · rintro right ⟨inst, promises, later⟩
    have spoilt := right ⟨msg.ballot + 1, 0, 0⟩
    have runs : (acceptorHandlePhase1Msg cfg s msg ⟨msg.ballot + 1, 0, 0⟩).IsRunning :=
      (handlePhase1_isRunning _).mpr inst
    have running := Outcome.running_of_isRunning runs
    have asExpected := spoilt.of_running running
    rw [handlePhase1_sends _ running] at asExpected
    have same : sent (ownRecord cfg s msg) msg ⟨msg.ballot + 1, 0, 0⟩ =
        forwarded (ownRecord cfg s msg) msg := by
      injection asExpected with head
      injection head
    have ballot := congrArg Phase1Msg.ballot same
    unfold sent forwarded at ballot
    rw [if_neg (UInt32.not_lt.mpr promises), if_pos later, if_neg (UInt32.not_lt.mpr promises),
      if_pos later] at ballot
    change msg.ballot + 1 = msg.ballot at ballot
    exact absurd ballot (by simp)
  · intro kept stack
    refine Outcome.ensures_of_running fun t done => ?_
    rw [handlePhase1_sends stack done]
    have inst := (handlePhase1_isRunning stack).mp (by rw [done]; trivial)
    unfold sent
    split_ifs with refused later
    · rfl
    · exact absurd ⟨inst, UInt32.not_lt.mp refused, later⟩ kept
    · rfl

/-- A command was accepted, and a higher ballot asks for a promise: the stack, here full of
zeros, shows in what is forwarded. -/
theorem accepted_forwarded_from_stack :
    let o := Outcome.fold (onMulticastMsg Config.small) (regularAcceptorInit 2)
      [.commandMap ⟨1, ⟨1, 0, 1⟩, [7]⟩, .phase2 ⟨1, makeFirstBallot 1 0, 0, ⟨1, 0, 1⟩⟩]
    o.IsRunning ∧ ¬ ForwardsPhase1 Config.small o.state
      ⟨1, raiseBallot (makeFirstBallot 1 0) (makeFirstBallot 1 0), 0, 0, 0, clearCmdKey, []⟩ := by
  refine ⟨by decide, fun right => absurd (right ⟨0, 0, 0⟩) ?_⟩
  decide +kernel

end FdsPaxos.RingPhase1Forward
