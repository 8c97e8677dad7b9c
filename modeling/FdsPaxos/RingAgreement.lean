import FdsPaxos.RingLearnerSoundness
import FdsPaxos.RingMappings

set_option autoImplicit false

namespace FdsPaxos.RingAgreement
open TransitionRuns CircularWindow RingConfig RingMessages RingMcasterStorage RingMulticaster
open RingMulticasterMoves RingMappings RingDeliveryQueue RingLearnerSoundness RingWorld

/-- No two learners that start at instance 1 deliver different commands at one place. -/
def Agreement (late : ℕ → Bool) (w : RingState) : Prop :=
  ∀ (l l' n : ℕ) (cmd cmd' : Value), late l = false → late l' = false →
    (w.learners l).state.delivered[n]? = some cmd →
    (w.learners l').state.delivered[n]? = some cmd' → cmd = cmd'

def repeating : MoveCondition where
  opens := SameAsBefore
  repeats := fun _ _ => True
  takes := fun _ _ => True
  returns := fun _ => True
  takes_next := fun _ => trivial
  takes_mono := fun _ _ => trivial

/-- The values that the event has proposed for an instance are those proposed before. -/
def StepRepeats (cfg : Config) (w : RingState) : RingEvent → Prop
  | .periodicCheck clock => w.mcaster.Ensures (CheckMeets cfg SameAsBefore clock) fun _ => True
  | .submit _ | .toMcaster _ _ | .request _ _ _ | .restart | .toAcceptor _ _ _
  | .mcastAcceptor _ _ | .mcastLearner _ _ | .deliverLoop _ | .gapCheck _ _ => True

instance (cfg : Config) (w : RingState) (e : RingEvent) : Decidable (StepRepeats cfg w e) :=
  match e with
  | .periodicCheck _ => inferInstanceAs (Decidable (Outcome.Ensures _ _ _))
  | .submit _ | .toMcaster _ _ | .request _ _ _ | .restart | .toAcceptor _ _ _
  | .mcastAcceptor _ _ | .mcastLearner _ _ | .deliverLoop _ | .gapCheck _ _ => isTrue trivial

structure RingSound (late : ℕ → Bool) (w : RingState) : Prop where
  mcaster : McasterSound w.mcaster.state
  learners : ∀ l, late l = false → LearnerSound w.mcaster.state.mcast (w.learners l).state

variable {cfg : Config} {late : ℕ → Bool} {w : RingState}

theorem StepRepeats.meets {e : RingEvent} (same : StepRepeats cfg w e) :
    EventMeets cfg repeating w.mcaster e := by
  cases e with
  | periodicCheck clock => exact same.mono fun s _ met => ⟨fun _ _ _ _ => trivial, met⟩
  | toMcaster msg clock => cases msg <;> simp [EventMeets, Hears, repeating]
  | request l msg clock => exact fun _ _ => ⟨trivial, fun _ _ => trivial⟩
  | _ => trivial

theorem RingSound.mcasterStep (h : RingSound late w) {e : RingEvent}
    (same : StepRepeats cfg w e) : McasterSound (mcasterStep cfg w.mcaster e).state ∧
      ∀ msg ∈ w.mcaster.state.mcast, msg ∈ (mcasterStep cfg w.mcaster e).state.mcast := by
  by_cases restarted : e = .restart
  · subst restarted
    exact ⟨mcasterSound_restart h.mcaster, fun _ hmsg => hmsg⟩
  · have moves := mcasterStep_moves same.meets restarted
    exact moves.invariant (fun t => McasterSound t ∧ ∀ msg ∈ w.mcaster.state.mcast, msg ∈ t.mcast)
      (fun s t kept move =>
        ⟨kept.1.move move fun _ allowed => allowed, fun msg hmsg => move.mcast_grows msg (kept.2 msg hmsg)⟩)
      ⟨h.mcaster, fun _ hmsg => hmsg⟩

theorem RingSound.learnerStep (h : RingSound late w) {e : RingEvent} (possible : Possible cfg w e)
    {l : ℕ} (onTime : late l = false) :
    LearnerSound w.mcaster.state.mcast (learnerStep cfg l (w.learners l) e).state := by
  have sound := h.learners l onTime
  cases e with
  | mcastLearner l' msg =>
    change LearnerSound _ (ite (l = l') _ (w.learners l)).state
    split_ifs
    · exact Outcome.bind_kept sound fun q _ kept => kept.onMcastMsg possible
    · exact sound
  | deliverLoop l' =>
    change LearnerSound _ (ite (l = l') _ (w.learners l)).state
    split_ifs
    · exact Outcome.bind_kept sound fun q _ kept => kept.deliverLoop
    · exact sound
  | gapCheck l' timeNow =>
    change LearnerSound _ (ite (l = l') _ (w.learners l)).state
    split_ifs
    · exact Outcome.bind_kept sound fun q _ kept => kept.periodicCheck timeNow
    · exact sound
  | _ => exact sound

theorem ringSound_step (h : RingSound late w) (e : RingEvent) (same : StepRepeats cfg w e) :
    RingSound late (ringStep cfg w e) := by
  unfold ringStep
  split_ifs with possible
  · obtain ⟨mcaster, grown⟩ := h.mcasterStep same
    exact ⟨mcaster, fun l onTime => (h.learnerStep possible onTime).mono grown⟩
  · exact h

theorem ringSound_init (late : ℕ → Bool) : RingSound late (ringInit late) where
  mcaster := mcasterSound_init
  learners := by
    intro l onTime
    change LearnerSound _ (learnerInit (late l))
    rw [onTime]
    exact learnerSound_init

theorem RingSound.agreement (h : RingSound late w) : Agreement late w := by
  intro l l' n cmd cmd' onTime onTime' first second
  obtain ⟨key, mapped, chosen⟩ := (h.learners l onTime).delivered n cmd first
  obtain ⟨key', mapped', chosen'⟩ := (h.learners l' onTime').delivered n cmd' second
  exact h.mcaster.sent.agree _ _ mapped mapped' rfl (h.mcaster.sent.chosen _ chosen)
    (h.mcaster.sent.chosen _ chosen')

/-- In every run in which a value proposed for an instance is the one proposed for it before,
no two learners disagree, however often the multicaster is restarted. -/
theorem ring_agreement (cfg : Config) (late : ℕ → Bool) (events : List RingEvent)
    (same : Along (ringStep cfg) (StepRepeats cfg) (ringInit late) events) :
    Agreement late (run (ringStep cfg) (ringInit late) events) :=
  (same.invariant (RingSound late) (ringSound_init late)
    fun _ e h same => ringSound_step h e same).agreement

/-- The multicaster starts again, the last message of the old phase 1 reaches it once more,
and it proposes `v` for instance 1. -/
def proposeAgain (v : Value) : List RingEvent :=
  [.restart, .periodicCheck fun _ => ⟨2, 0⟩,
    .toMcaster (.phase1Range ⟨1, 2, 65792, 2⟩) ⟨2, 0⟩, .submit v, .periodicCheck fun _ => ⟨2, 0⟩]

def learnFirst (l : ℕ) (v : Value) : List RingEvent :=
  [.mcastLearner l (.commandMap ⟨1, firstKey, v⟩), .mcastLearner l (.acceptance ⟨1, firstKey⟩)]

def restartedRun (v v' : Value) : List RingEvent :=
  chooseFirst v ++ learnFirst 0 v ++ proposeAgain v' ++ learnFirst 1 v'

theorem ring_agreement_same_value : Agreement (fun _ => false)
    (run (ringStep .small) (ringInit fun _ => false) (restartedRun [7] [7])) :=
  ring_agreement .small _ _ (by decide +kernel)

theorem not_agreement (v v' : Value) (differ : v ≠ v')
    (first : (w.learners 0).state.delivered[0]? = some v)
    (second : (w.learners 1).state.delivered[0]? = some v') : ¬ Agreement (fun _ => false) w :=
  fun agree => differ (agree 0 1 0 v v' rfl rfl first second)

/-- The new process makes the key of the old one, whose acceptance is still on its way. -/
theorem ring_disagreement : Config.small.MajorityQuorum ∧ ¬ Agreement (fun _ => false)
    (run (ringStep .small) (ringInit fun _ => false) (restartedRun [7] [8])) :=
  ⟨by decide, not_agreement [7] [8] (by decide) (by decide +kernel) (by decide +kernel)⟩

end FdsPaxos.RingAgreement
