import FdsPaxos.RingMessages
import FdsPaxos.TransitionRuns
import Mathlib.Data.Nat.Bitwise
import Mathlib.Tactic.Common

set_option autoImplicit false

/-!
The arithmetic of ballots in `util.c`.  The upper half of a ballot is its sequence
number, the lower half names the process that made it.
-/

namespace FdsPaxos.RingBallots
open TransitionRuns RingMessages

def incrementBallot (b : Ballot) : Ballot :=
  let newSeqnum : UInt16 := ((b >>> (16 : UInt32)) &&& (0xFFFF : UInt32)).toUInt16 + 1
  (b &&& (0xFFFF : UInt32)) + (newSeqnum.toUInt32 <<< (16 : UInt32))

def seqnum (b : Ballot) : ℕ := b.toNat / 65536

def identificator (b : Ballot) : ℕ := b.toNat % 65536

theorem seqnum_lt (b : Ballot) : seqnum b < 65536 := by
  have := b.toNat_lt
  unfold seqnum
  omega

theorem and_low_half (n : ℕ) : n &&& 65535 = n % 65536 :=
  Nat.and_two_pow_sub_one_eq_mod n 16

theorem raiseBallot_toNat (currentB ballotToBeat : Ballot) :
    (raiseBallot currentB ballotToBeat).toNat =
      identificator currentB + (seqnum ballotToBeat + 1) % 65536 * 65536 := by
  have := seqnum_lt ballotToBeat
  simp [raiseBallot, identificator, seqnum, Nat.shiftRight_eq_div_pow, Nat.shiftLeft_eq,
    and_low_half]
  omega

theorem makeFirstBallot_toNat (accId incarnation : UInt8) :
    (makeFirstBallot accId incarnation.toUInt32).toNat =
      65536 + accId.toNat * 256 + incarnation.toNat := by
  have := accId.toNat_lt
  have := incarnation.toNat_lt
  simp [makeFirstBallot, Nat.shiftLeft_eq]
  omega

theorem isMyBallot_iff (b : Ballot) (accId incarnation : UInt8) :
    isMyBallot b accId incarnation.toUInt32 ↔
      identificator b = accId.toNat * 256 + incarnation.toNat := by
  have := accId.toNat_lt
  have := incarnation.toNat_lt
  simp only [isMyBallot, ← UInt16.toNat_inj]
  simp [identificator, Nat.shiftLeft_eq, and_low_half]
  omega

/-- `increment_ballot` raises a ballot above itself. -/
theorem incrementBallot_eq (b : Ballot) : incrementBallot b = raiseBallot b b := rfl

@[simp] theorem identificator_raiseBallot (currentB ballotToBeat : Ballot) :
    identificator (raiseBallot currentB ballotToBeat) = identificator currentB := by
  have := raiseBallot_toNat currentB ballotToBeat
  simp only [identificator] at this ⊢
  omega

theorem identificator_makeFirstBallot (accId incarnation : UInt8) :
    identificator (makeFirstBallot accId incarnation.toUInt32) =
      accId.toNat * 256 + incarnation.toNat := by
  have := accId.toNat_lt
  have := incarnation.toNat_lt
  have := makeFirstBallot_toNat accId incarnation
  simp only [identificator]
  omega

theorem lt_raiseBallot_iff (currentB ballotToBeat : Ballot) :
    ballotToBeat < raiseBallot currentB ballotToBeat ↔ seqnum ballotToBeat ≠ 65535 := by
  have := seqnum_lt ballotToBeat
  rw [UInt32.lt_iff_toNat_lt, raiseBallot_toNat]
  simp only [seqnum, identificator] at *
  omega

inductive BallotCall where
  | makeFirst
  | increment
  | raise (ballotToBeat : Ballot)

def ballotStep (accId incarnation : UInt8) (b : Ballot) : BallotCall → Ballot
  | .makeFirst => makeFirstBallot accId incarnation.toUInt32
  | .increment => incrementBallot b
  | .raise ballotToBeat => raiseBallot b ballotToBeat

def toBeat (b : Ballot) : BallotCall → Option Ballot
  | .makeFirst => none
  | .increment => some b
  | .raise ballotToBeat => some ballotToBeat

section Chain

variable (accId incarnation : UInt8)

def ballotsFrom (b : Ballot) (calls : List BallotCall) : List Ballot :=
  calls.scanl (ballotStep accId incarnation) b

/-- All ballots that a process produces, the first one made before any other call. -/
def ballots (calls : List BallotCall) : List Ballot :=
  ballotsFrom accId incarnation (makeFirstBallot accId incarnation.toUInt32) calls

def Grows (b : Ballot) (call : BallotCall) : Prop :=
  ∀ t ∈ toBeat b call, t < ballotStep accId incarnation b call

/-- The ballot to exceed does not have the last sequence number. -/
def Beatable (b : Ballot) (call : BallotCall) : Prop :=
  ∀ t ∈ toBeat b call, seqnum t ≠ 65535

structure BallotsRight (calls : List BallotCall) : Prop where
  grows : Along (ballotStep accId incarnation) (Grows accId incarnation)
    (makeFirstBallot accId incarnation.toUInt32) calls
  mine : ∀ b ∈ ballots accId incarnation calls, isMyBallot b accId incarnation.toUInt32
  apart : ∀ (accId' incarnation' : UInt8) (calls' : List BallotCall),
    (accId', incarnation') ≠ (accId, incarnation) →
      ∀ b ∈ ballots accId incarnation calls, b ∉ ballots accId' incarnation' calls'

variable {accId incarnation}

theorem grows_iff (b : Ballot) (call : BallotCall) :
    Grows accId incarnation b call ↔ Beatable b call := by
  cases call with
  | makeFirst => simp [Grows, Beatable, toBeat]
  | increment =>
    simpa [Grows, Beatable, toBeat, ballotStep, incrementBallot_eq] using lt_raiseBallot_iff b b
  | raise t =>
    simpa [Grows, Beatable, toBeat, ballotStep] using lt_raiseBallot_iff b t

theorem ballotStep_mine {b : Ballot} (mine : isMyBallot b accId incarnation.toUInt32)
    (call : BallotCall) :
    isMyBallot (ballotStep accId incarnation b call) accId incarnation.toUInt32 := by
  rw [isMyBallot_iff] at mine ⊢
  cases call with
  | makeFirst => exact identificator_makeFirstBallot accId incarnation
  | increment => simpa [ballotStep, incrementBallot_eq] using mine
  | raise t => simpa [ballotStep] using mine

theorem ballotsFrom_mine {b : Ballot} (mine : isMyBallot b accId incarnation.toUInt32)
    (calls : List BallotCall) :
    ∀ c ∈ ballotsFrom accId incarnation b calls, isMyBallot c accId incarnation.toUInt32 := by
  induction calls generalizing b with
  | nil => simpa [ballotsFrom] using mine
  | cons call calls ih =>
    have rest := ih (ballotStep_mine mine call)
    simpa [ballotsFrom] using ⟨mine, rest⟩

theorem ballots_mine (calls : List BallotCall) :
    ∀ b ∈ ballots accId incarnation calls, isMyBallot b accId incarnation.toUInt32 :=
  ballotsFrom_mine
    ((isMyBallot_iff _ _ _).mpr (identificator_makeFirstBallot accId incarnation)) calls

theorem process_of_isMyBallot {b : Ballot} {accId' incarnation' : UInt8}
    (mine : isMyBallot b accId incarnation.toUInt32)
    (theirs : isMyBallot b accId' incarnation'.toUInt32) :
    (accId', incarnation') = (accId, incarnation) := by
  rw [isMyBallot_iff] at mine theirs
  have := incarnation.toNat_lt
  have := incarnation'.toNat_lt
  have ids : accId'.toNat = accId.toNat := by omega
  have incarnations : incarnation'.toNat = incarnation.toNat := by omega
  rw [UInt8.toNat_inj.mp ids, UInt8.toNat_inj.mp incarnations]

end Chain

theorem ballots_right_iff (accId incarnation : UInt8) (calls : List BallotCall) :
    BallotsRight accId incarnation calls ↔
      Along (ballotStep accId incarnation) Beatable
        (makeFirstBallot accId incarnation.toUInt32) calls := by
  have growth : Along (ballotStep accId incarnation) (Grows accId incarnation)
      (makeFirstBallot accId incarnation.toUInt32) calls ↔
      Along (ballotStep accId incarnation) Beatable
        (makeFirstBallot accId incarnation.toUInt32) calls :=
    along_congr (fun _ => True) trivial (fun _ _ _ => trivial) fun b call _ => grows_iff b call
  constructor
  · intro right
    exact growth.mp right.grows
  · intro beatable
    refine ⟨growth.mpr beatable, ballots_mine calls, ?_⟩
    intro accId' incarnation' calls' different b mem mem'
    exact different (process_of_isMyBallot (ballots_mine calls b mem) (ballots_mine calls' b mem'))

/-- Raising a first ballot above a promise with the last sequence number. -/
theorem raise_at_last_seqnum :
    ¬ BallotsRight 1 0 [.raise 0xFFFF0200] ∧
      raiseBallot (makeFirstBallot 1 0) 0xFFFF0200 = 0x00000100 := by
  refine ⟨fun right => ?_, by decide⟩
  have grows := right.grows.1 0xFFFF0200 rfl
  exact absurd grows (by decide)

end FdsPaxos.RingBallots
