import FdsPaxos.RingMulticasterMoves

set_option autoImplicit false

namespace FdsPaxos.RingRangeReplies
open TransitionRuns CircularWindow RingConfig RingMessages RingMcasterStorage RingMulticaster
open RingMulticasterMoves RingWorld

variable (cfg : Config)

def rangeInstances (msg : Phase1RangeMsg) : List ℕ :=
  List.range' msg.fromIid (msg.toIid + 1 - msg.fromIid)

structure WaitsFor (s : Mcaster) (b : Ballot) (i : ℕ) : Prop where
  own : (s.record cfg i).instNumber = i
  pending : (s.record cfg i).status = .p1Pending
  ballot : (s.record cfg i).ballot = b

/-- No assertion fails, and only instances of the range that wait for the ballot change. -/
def Tolerates (s : Mcaster) (msg : Phase1RangeMsg) : Prop :=
  (mcasterHandlePhase1RangeMsg cfg s msg).Ensures
    (fun t => ∀ slot, t.instancesArray slot ≠ s.instancesArray slot →
      ∃ i ∈ rangeInstances msg, slot = msmSlot cfg i ∧ WaitsFor cfg s msg.ballot i)
    fun _ => False

/-- The range begins above what is closed, and with enough promises all of it still waits. -/
def InTime (s : Mcaster) (msg : Phase1RangeMsg) : Prop :=
  s.highestClosedIid < msg.fromIid ∧ (cfg.quorumSize ≤ msg.promisesCount.toNat →
    ∀ i ∈ rangeInstances msg, WaitsFor cfg s msg.ballot i)

section Replies

variable {cfg} {s t : Mcaster} {msg : Phase1RangeMsg} {i : ℕ}

def completed (cfg : Config) (s : Mcaster) (i : ℕ) : Mcaster :=
  s.withRecord (msmSlot cfg i) { s.record cfg i with status := .p1Done }

theorem mcasterCompleteP1_waits (done : mcasterCompleteP1 cfg s i = .running t) :
    (s.record cfg i).instNumber = i ∧ (s.record cfg i).status = .p1Pending ∧
      t = completed cfg s i := by
  obtain ⟨u, got, next⟩ := Outcome.bind_eq_running.mp done
  have own := mcasterStorageGet_own got
  dsimp only at next
  split_ifs at next with pending
  cases next
  rcases mcasterStorageGet_cases cfg s i with ⟨fault, stopped⟩ | same | ⟨-, taken⟩
  · cases got.symm.trans stopped
  · cases got.symm.trans same
    exact ⟨own, pending, rfl⟩
  · -- a slot just taken is ready
    cases got.symm.trans taken
    have ready : ((takeSlot cfg s i).record cfg i).status = .ready := by
      unfold takeSlot
      rw [record_withRecord]
      unfold takenRecord
      split_ifs <;> rfl
    cases ready.symm.trans pending

theorem mcasterCompleteP1_running (positive : 0 < i) (own : (s.record cfg i).instNumber = i)
    (pending : (s.record cfg i).status = .p1Pending) :
    mcasterCompleteP1 cfg s i = .running (completed cfg s i) := by
  unfold mcasterCompleteP1
  rw [mcasterStorageGet_of_own positive own, Outcome.bind_running]
  exact if_pos pending

theorem completed_of_ne {slot : ℕ} (other : slot ≠ msmSlot cfg i) :
    (completed cfg s i).instancesArray slot = s.instancesArray slot :=
  setSlot_of_ne _ _ _ _ other

theorem completeLoop_waits {iids : List ℕ}
    (done : Outcome.fold (mcasterCompleteP1 cfg) s iids = .running t) :
    (∀ i ∈ iids, (s.record cfg i).instNumber = i ∧ (s.record cfg i).status = .p1Pending ∧
      (t.record cfg i).status = .p1Done) ∧
    ∀ slot, (∀ i ∈ iids, slot ≠ msmSlot cfg i) →
      t.instancesArray slot = s.instancesArray slot := by
  induction iids generalizing s with
  | nil =>
    cases done
    exact ⟨by simp, fun _ _ => rfl⟩
  | cons i iids ih =>
    obtain ⟨u, first, rest⟩ := Outcome.bind_eq_running.mp done
    obtain ⟨own, pending, rfl⟩ := mcasterCompleteP1_waits first
    obtain ⟨waited, same⟩ := ih rest
    have status : ((completed cfg s i).record cfg i).status = .p1Done := by
      unfold completed
      rw [record_withRecord]
    -- an instance whose slot was completed before does not wait
    have apart (j : ℕ) (hj : j ∈ iids) : msmSlot cfg i ≠ msmSlot cfg j := by
      intro here
      have pending' := (waited j hj).2.1
      rw [show (completed cfg s i).record cfg j = (completed cfg s i).record cfg i from
        congrArg (completed cfg s i).instancesArray here.symm, status] at pending'
      cases pending'
    refine ⟨List.forall_mem_cons.mpr ⟨⟨own, pending, ?_⟩, fun j hj => ?_⟩, fun slot other => ?_⟩
    · exact (congrArg McasterInstanceRecord.status (same _ apart)).trans status
    · have unchanged : (completed cfg s i).record cfg j = s.record cfg j :=
        completed_of_ne (Ne.symm (apart j hj))
      have waits := waited j hj
      rw [unchanged] at waits
      exact waits
    · obtain ⟨head, tail⟩ := List.forall_mem_cons.mp other
      rw [same slot tail, completed_of_ne head]

theorem completeLoop_running {iids : List ℕ} {b : Ballot} (nodup : iids.Nodup)
    (positive : ∀ i ∈ iids, 0 < i) (waits : ∀ i ∈ iids, WaitsFor cfg s b i) :
    ∃ t, Outcome.fold (mcasterCompleteP1 cfg) s iids = .running t := by
  induction iids generalizing s with
  | nil => exact ⟨s, rfl⟩
  | cons i iids ih =>
    obtain ⟨fresh, nodup⟩ := List.nodup_cons.mp nodup
    obtain ⟨first, rest⟩ := List.forall_mem_cons.mp waits
    obtain ⟨pos, positive⟩ := List.forall_mem_cons.mp positive
    have left : ∀ j ∈ iids, WaitsFor cfg (completed cfg s i) b j := by
      intro j hj
      have other : msmSlot cfg j ≠ msmSlot cfg i := by
        intro same
        have equal : s.record cfg j = s.record cfg i := congrArg s.instancesArray same
        have : j = i := by rw [← (rest j hj).own, equal, first.own]
        exact fresh (this ▸ hj)
      have unchanged : (completed cfg s i).record cfg j = s.record cfg j := completed_of_ne other
      obtain ⟨own, pending, ballot⟩ := rest j hj
      exact ⟨unchanged ▸ own, unchanged ▸ pending, unchanged ▸ ballot⟩
    obtain ⟨t, loop⟩ := ih nodup positive left
    refine ⟨t, ?_⟩
    rw [Outcome.fold_cons, mcasterCompleteP1_running pos first.own first.pending,
      Outcome.bind_running, loop]

theorem completeLoop_tolerates {iids : List ℕ} {b : Ballot} (nodup : iids.Nodup)
    (positive : ∀ i ∈ iids, 0 < i) :
    (Outcome.fold (mcasterCompleteP1 cfg) s iids).Ensures
        (fun t => ∀ slot, t.instancesArray slot ≠ s.instancesArray slot →
          ∃ i ∈ iids, slot = msmSlot cfg i ∧ WaitsFor cfg s b i) (fun _ => False) ↔
      ∀ i ∈ iids, WaitsFor cfg s b i := by
  constructor
  · intro tolerates i hi
    cases done : Outcome.fold (mcasterCompleteP1 cfg) s iids with
    | aborted fault t =>
      rw [done] at tolerates
      exact tolerates.elim
    | running t =>
      obtain ⟨waited, -⟩ := completeLoop_waits done
      obtain ⟨own, pending, after⟩ := waited i hi
      have changed : t.record cfg i ≠ s.record cfg i := by
        intro same
        rw [same, pending] at after
        cases after
      obtain ⟨j, -, here, waits⟩ := tolerates.of_running done _ changed
      have equal : s.record cfg i = s.record cfg j := congrArg s.instancesArray here
      exact ⟨own, pending, by rw [equal, waits.ballot]⟩
  · intro waits
    obtain ⟨t, done⟩ := completeLoop_running nodup positive waits
    obtain ⟨-, same⟩ := completeLoop_waits done
    rw [done]
    intro slot changed
    by_contra none
    refine changed (same slot fun i hi here => none ⟨i, hi, here, waits i hi⟩)

theorem tolerates_iff (cfg : Config) (s : Mcaster) (msg : Phase1RangeMsg) :
    Tolerates cfg s msg ↔
      (isMyBallot msg.ballot selfAcceptorId incarnationNumber.toUInt32 → InTime cfg s msg) := by
  unfold Tolerates mcasterHandlePhase1RangeMsg InTime
  by_cases mine : isMyBallot msg.ballot selfAcceptorId incarnationNumber.toUInt32
  · rw [if_neg (not_not.mpr mine), imp_iff_right mine]
    by_cases closed : msg.fromIid ≤ s.highestClosedIid
    · rw [if_pos closed]
      exact iff_of_false id fun inTime => absurd inTime.1 (by omega)
    · rw [if_neg closed]
      have above : s.highestClosedIid < msg.fromIid := by omega
      rw [and_iff_right above]
      by_cases few : msg.promisesCount.toNat < cfg.quorumSize
      · rw [if_pos few]
        exact iff_of_true (fun slot changed => absurd rfl changed) fun enough => absurd few (by omega)
      · rw [if_neg few, imp_iff_right (by omega)]
        have nodup : (rangeInstances msg).Nodup := List.nodup_range' ..
        refine completeLoop_tolerates nodup fun i hi => ?_
        have low := (List.mem_range'_1.mp hi).1
        omega
  · rw [if_pos mine]
    exact iff_of_true (fun slot changed => absurd rfl changed) fun mine' => absurd mine' mine

end Replies

/-- Whether a reply that an event brings is tolerated. -/
def RangeTolerated (o : McasterOutcome) : RingEvent → Prop
  | .toMcaster (.phase1Range msg) clock =>
    o.Ensures (fun s => Tolerates cfg (mcasterUpdateWallclock s clock) msg) fun _ => True
  | _ => True

/-- Whether a reply of our own that an event brings is in time. -/
def RangeInTime (o : McasterOutcome) : RingEvent → Prop
  | .toMcaster (.phase1Range msg) _ =>
    isMyBallot msg.ballot selfAcceptorId incarnationNumber.toUInt32 →
      o.Ensures (fun s => InTime cfg s msg) fun _ => True
  | _ => True

theorem waitsFor_clock (s : Mcaster) (clock : Timeval) (b : Ballot) (i : ℕ) :
    WaitsFor cfg (mcasterUpdateWallclock s clock) b i ↔ WaitsFor cfg s b i := by
  constructor
  · rintro ⟨own, pending, ballot⟩
    exact ⟨own, pending, ballot⟩
  · rintro ⟨own, pending, ballot⟩
    exact ⟨own, pending, ballot⟩

theorem inTime_clock (s : Mcaster) (clock : Timeval) (msg : Phase1RangeMsg) :
    InTime cfg (mcasterUpdateWallclock s clock) msg ↔ InTime cfg s msg := by
  unfold InTime
  simp only [waitsFor_clock]
  rfl

theorem rangeTolerated_iff (o : McasterOutcome) (e : RingEvent) :
    RangeTolerated cfg o e ↔ RangeInTime cfg o e := by
  cases e with
  | toMcaster msg clock =>
    cases msg with
    | phase1Range msg =>
      cases o with
      | running s =>
        have here := tolerates_iff cfg (mcasterUpdateWallclock s clock) msg
        rw [inTime_clock] at here
        exact here
      | aborted fault s => exact iff_of_true trivial fun _ => trivial
    | phase1 msg => exact Iff.rfl
    | phase2 msg => exact Iff.rfl
  | _ => exact Iff.rfl

/-- Along a run of the ring every reply to a range that is received is tolerated exactly when
every such reply is in time. -/
theorem range_replies_tolerated_iff (cfg : Config) (late : ℕ → Bool) (events : List RingEvent) :
    Along (ringStep cfg) (fun w e => Possible cfg w e → RangeTolerated cfg w.mcaster e)
        (ringInit late) events ↔
      Along (ringStep cfg) (fun w e => Possible cfg w e → RangeInTime cfg w.mcaster e)
        (ringInit late) events :=
  along_congr (fun _ => True) trivial (fun _ _ _ => trivial)
    fun w e _ => imp_congr_right fun _ => rangeTolerated_iff cfg w.mcaster e

/-- The reply to the range of instances 1 and 2 comes a second time, when 1 is closed. -/
theorem second_reply_fails : ¬ Along (ringStep Config.small)
    (fun w e => Possible Config.small w e → RangeTolerated Config.small w.mcaster e)
    (ringInit fun _ => false)
    (chooseFirst [7] ++ [.toMcaster (.phase1Range ⟨1, 2, 65792, 2⟩) ⟨1, 0⟩]) := by
  intro tolerated
  obtain ⟨-, last, -⟩ := (along_append _ _).mp tolerated
  have inTime := (rangeTolerated_iff Config.small _ _).mp (last (by decide +kernel))
  have above := (inTime (by decide +kernel)).mono fun _ _ meets => meets.1
  revert above
  decide +kernel

end FdsPaxos.RingRangeReplies
