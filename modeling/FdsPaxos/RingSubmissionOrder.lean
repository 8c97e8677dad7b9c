import FdsPaxos.ForwardSimulation
import FdsPaxos.OrderedBroadcast
import FdsPaxos.RingAgreement
import FdsPaxos.RingOneLife
import FdsPaxos.RingQueueOrder

set_option autoImplicit false

namespace FdsPaxos.RingSubmissionOrder
open TransitionRuns ForwardSimulation OrderedBroadcast CircularWindow RingConfig RingMessages
open RingMcasterStorage RingMulticaster RingMulticasterMoves RingMappings RingWindows RingWorld
open RingDeliveryQueue RingLearnerSoundness RingQueueOrder RingOneLife

section Queue

def HasQueue (queue : List Value) (highest : ℕ) (s : Mcaster) : Prop :=
  s.queue = queue ∧ s.highestOpenIid = highest

variable {cfg : Config} {queue : List Value} {highest : ℕ} {s : Mcaster}

theorem HasQueue.get (h : HasQueue queue highest s) (i : ℕ) :
    HasQueue queue highest (mcasterStorageGet cfg s i).state := by
  rcases mcasterStorageGet_cases cfg s i with ⟨fault, stopped⟩ | same | ⟨-, taken⟩
  · rw [stopped]
    exact h
  · rw [same]
    exact h
  · rw [taken]
    exact h

theorem HasQueue.doPhase1 (h : HasQueue queue highest s) (slot : ℕ) :
    HasQueue queue highest (mcasterDoPhase1 cfg s slot).state := by
  unfold mcasterDoPhase1
  dsimp only
  split_ifs <;> exact h

theorem HasQueue.openP1 (h : HasQueue queue highest s) :
    HasQueue queue highest (mcasterOpenNewInstancesP1 cfg s).state := by
  unfold mcasterOpenNewInstancesP1
  dsimp only
  split_ifs
  · exact h
  · refine Outcome.bind_kept ?_ fun t _ kept => kept
    refine Outcome.fold_kept (HasQueue queue highest) h fun i _ t kept => ?_
    refine Outcome.bind_kept (kept.get i) fun u _ kept => ?_
    dsimp only
    split_ifs <;> exact kept

theorem HasQueue.checkExpired (h : HasQueue queue highest s) :
    HasQueue queue highest (mcasterCheckExpiredInstances cfg s).state := by
  refine Outcome.fold_kept (HasQueue queue highest) h fun i _ t kept => ?_
  refine Outcome.bind_kept (kept.get i) fun u _ kept => ?_
  dsimp only
  split_ifs
  · exact kept.doPhase1 _
  · exact kept
  · exact kept

theorem HasQueue.checkP1 (h : HasQueue queue highest s) (clock : ℕ → Timeval) :
    HasQueue queue highest (mcasterCheckP1 cfg clock s).state := by
  have started : HasQueue queue highest (mcasterUpdateWallclock s (clock 0)) := h
  refine Outcome.bind_kept started.openP1 fun t _ kept => ?_
  have resumed : HasQueue queue highest (mcasterUpdateWallclock t (clock 1)) := kept
  exact resumed.checkExpired

theorem HasQueue.phase1Range (h : HasQueue queue highest s) (msg : Phase1RangeMsg) :
    HasQueue queue highest (mcasterHandlePhase1RangeMsg cfg s msg).state := by
  unfold mcasterHandlePhase1RangeMsg
  split_ifs
  · exact h
  · exact h
  · refine Outcome.fold_kept (HasQueue queue highest) h fun i _ t kept => ?_
    refine Outcome.bind_kept (kept.get i) fun u _ kept => ?_
    dsimp only
    split_ifs <;> exact kept
  · exact h

theorem HasQueue.phase1 (h : HasQueue queue highest s) (life : Life cfg s) {msg : Phase1Msg}
    (within : msg.instNumber ≤ windowEnd cfg s.highestClosedIid) :
    HasQueue queue highest (mcasterHandlePhase1Msg cfg s msg).state := by
  unfold mcasterHandlePhase1Msg
  split_ifs
  · exact h
  · have moves : Moves cfg (oneLife cfg fun _ => True) s
        (mcasterStorageGet cfg s msg.instNumber).state := mcasterStorageGet_moves s _ within
    refine Outcome.bind_kept (h.get _) fun t got kept => ?_
    rw [got] at moves
    have sound : McasterSound t := (life.moves moves).1.mappings
    unfold mcasterPhase1Returned
    dsimp only
    by_cases pending : (t.record cfg msg.instNumber).status = .p1Pending
    · have promised : mcasterPromised cfg t msg (msmSlot cfg msg.instNumber) = _ :=
        mcasterPromised_pending sound pending msg
      have again (ballot : Ballot) : HasQueue queue highest (mcasterDoPhase1 cfg
          (t.withRecord (msmSlot cfg msg.instNumber)
            { t.record cfg msg.instNumber with ballot := ballot })
          (msmSlot cfg msg.instNumber)).state :=
        HasQueue.doPhase1 (s := t.withRecord _ _) kept _
      rw [if_neg (not_not.mpr pending)]
      by_cases few : msg.promisesCount.toNat < cfg.quorumSize
      · rw [if_pos few]
        split_ifs
        · exact kept
        · exact again _
        · exact again _
      · rw [if_neg few]
        split_ifs
        · exact kept
        · change HasQueue queue highest (mcasterPromised cfg t msg (msmSlot cfg msg.instNumber))
          rw [promised]
          exact kept
    · rw [if_pos pending]
      exact kept
  · exact h

theorem HasQueue.advanceClosed (turns : ℕ) {s : Mcaster} (h : HasQueue queue highest s) (iid : ℕ) :
    HasQueue queue highest (mcasterAdvanceClosed cfg turns s iid).state := by
  induction turns generalizing s iid with
  | zero => exact h
  | succ turns ih =>
    unfold mcasterAdvanceClosed
    dsimp only
    split_ifs
    · have closed : HasQueue queue highest { s with highestClosedIid := s.highestClosedIid + 1 } := h
      exact Outcome.bind_kept (closed.get _) fun t _ kept => ih kept _
    · exact h

theorem HasQueue.completed (h : HasQueue queue highest s) (msg : Phase2Msg)
    (mir : McasterInstanceRecord) : HasQueue queue highest
      (mcasterAdvanceClosed cfg (cfg.msmSize + 1) (mcasterBroadcastAcceptance
        (s.withRecord (msmSlot cfg msg.instNumber) mir) (msmSlot cfg msg.instNumber))
        msg.instNumber).state :=
  HasQueue.advanceClosed _ (s := mcasterBroadcastAcceptance (s.withRecord _ mir) _) h _

theorem HasQueue.phase2 (h : HasQueue queue highest s) (msg : Phase2Msg) :
    HasQueue queue highest (mcasterHandlePhase2Msg cfg s msg).state := by
  unfold mcasterHandlePhase2Msg
  split_ifs
  · exact h
  · refine Outcome.bind_kept (h.get _) fun t _ kept => ?_
    unfold mcasterPhase2Returned
    dsimp only
    split_ifs
    · exact kept
    · exact kept
    · exact kept
    · exact kept
    · exact kept.completed _ _

theorem HasQueue.request (h : HasQueue queue highest s) (msg : Request) :
    HasQueue queue highest (mcasterHandleRequest cfg s msg).state := by
  cases msg with
  | mapRequest iids =>
    refine Outcome.fold_kept (HasQueue queue highest) h fun i _ t kept => ?_
    refine Outcome.bind_kept (kept.get i) fun u _ kept => ?_
    split_ifs <;> exact kept
  | chosenvalRequest iids =>
    refine Outcome.fold_kept (HasQueue queue highest) h fun i _ t kept => ?_
    refine Outcome.bind_kept (kept.get i) fun u _ kept => ?_
    split_ifs <;> exact kept

end Queue

section Placement

/-- The values that wait are those accepted after the ones that have an instance. -/
structure Lined (accepted : List Value) (s : Mcaster) : Prop where
  placed : s.highestOpenIid ≤ accepted.length
  waiting : s.queue = accepted.drop s.highestOpenIid

def IsNext (accepted : List Value) (s : Mcaster) (value : Value) : Prop :=
  accepted[s.highestOpenIid]? = some value

variable {cfg : Config} {accepted : List Value} {s t : Mcaster}

theorem Lined.of_queue (h : Lined accepted s) (same : HasQueue s.queue s.highestOpenIid t) :
    Lined accepted t :=
  ⟨same.2 ▸ h.placed, by rw [same.1, same.2, h.waiting]⟩

theorem Lined.nextValue (cfg : Config) (h : Lined accepted s) :
    ((∀ t value, mcasterNextValue cfg s ≠ .running (t, some value)) →
        Lined accepted (mcasterNextValue cfg s).state.1) ∧
      ∀ t value, mcasterNextValue cfg s = .running (t, some value) →
        IsNext accepted t value ∧ t.queue = accepted.drop (t.highestOpenIid + 1) := by
  unfold mcasterNextValue
  dsimp only
  split_ifs
  · exact ⟨fun _ => h, by simp⟩
  · exact ⟨fun _ => h, by simp⟩
  · exact ⟨fun _ => h, by simp⟩
  · have kept : HasQueue s.queue s.highestOpenIid
        (mcasterStorageGet cfg s (s.highestOpenIid + 1)).state := HasQueue.get ⟨rfl, rfl⟩ _
    cases got : mcasterStorageGet cfg s (s.highestOpenIid + 1) with
    | aborted fault u =>
      rw [got] at kept
      exact ⟨fun _ => h.of_queue kept, by simp⟩
    | running u =>
      rw [got] at kept
      have lined : Lined accepted u := h.of_queue kept
      simp only [Outcome.andThen_running]
      split_ifs
      · exact ⟨fun _ => lined, by simp⟩
      · exact ⟨fun _ => lined, by simp⟩
      · exact ⟨fun _ => lined, by simp⟩
      · cases values : u.queue with
        | nil => exact ⟨fun _ => lined, by simp⟩
        | cons first rest =>
          refine ⟨fun none => absurd rfl (none _ first), fun t value taken => ?_⟩
          cases taken
          have waiting := lined.waiting
          rw [values] at waiting
          have head : accepted[u.highestOpenIid]? = some first := by
            rw [← List.head?_drop, ← waiting, List.head?_cons]
          refine ⟨head, ?_⟩
          change rest = accepted.drop (u.highestOpenIid + 1)
          rw [← List.tail_drop, ← waiting, List.tail_cons]

/-- The next instance has no value yet, so the value taken is proposed for it. -/
theorem mcasterOpenInstanceP2_running (life : Life cfg s) (next : NextReady cfg s) (value : Value) :
    mcasterOpenInstanceP2 cfg s value =
      .running (mcasterStartPhase2 cfg (assignNext cfg s value)
        (msmSlot cfg (s.highestOpenIid + 1))) := by
  have ready : (s.instancesArray (msmSlot cfg (s.highestOpenIid + 1))).status = .p1Done := next.ready
  obtain ⟨unassigned, -⟩ := (life.mappings.records (msmSlot cfg (s.highestOpenIid + 1))).free
    (by simp [ready])
  unfold mcasterOpenInstanceP2 mcasterStorageAssignValue
  dsimp only
  rw [unassigned]
  rfl

theorem Lined.openP2 (turns : ℕ) {s : Mcaster} (life : Life cfg s) (h : Lined accepted s) :
    Lined accepted (mcasterOpenNewInstancesP2 cfg turns s).state ∧
      OpensMeet cfg (IsNext accepted) turns s := by
  induction turns generalizing s with
  | zero => exact ⟨h, trivial⟩
  | succ turns ih =>
    obtain ⟨ends, takes⟩ := h.nextValue cfg
    have covers : Covers cfg (oneLife cfg fun _ => True) s := life.covers
    obtain ⟨moves, gives⟩ := mcasterNextValue_moves s covers
    unfold mcasterOpenNewInstancesP2 OpensMeet
    cases taken : mcasterNextValue cfg s with
    | aborted fault r =>
      rw [taken] at ends
      exact ⟨ends (by simp), trivial⟩
    | running r =>
      obtain ⟨t, found⟩ := r
      rw [taken] at moves ends
      cases found with
      | none => exact ⟨ends (by simp), trivial⟩
      | some value =>
        obtain ⟨next, rest⟩ := takes t value taken
        have ready := gives t value taken
        have lifeT : Life cfg t := (life.moves moves).1
        have opened := mcasterOpenInstanceP2_running lifeT ready value
        have lifeU := lifeT.move (.startP2 (C := oneLife cfg fun _ => True) t value trivial ready)
        have lined : Lined accepted (mcasterStartPhase2 cfg (assignNext cfg t value)
            (msmSlot cfg (t.highestOpenIid + 1))) :=
          ⟨(List.getElem?_eq_some_iff.mp next).1, rest⟩
        obtain ⟨last, met⟩ := ih lifeU lined
        simp only [Outcome.andThen_running, opened, Outcome.bind_running]
        exact ⟨last, next, met⟩

end Placement

section Messages

/-- Mappings are of the value in the place of their instance, and only what was mapped is
announced as chosen. -/
structure Announced (accepted : List Value) (mcast : List McastMsg) : Prop where
  mapped : ∀ m, .commandMap m ∈ mcast → accepted[m.instNumber - 1]? = some m.cmdValue
  chosen : ∀ a, .acceptance a ∈ mcast → ∃ v, .commandMap ⟨a.instNumber, a.cmdKey, v⟩ ∈ mcast

variable {cfg : Config} {accepted : List Value} {mcast : List McastMsg} {s t : Mcaster}
  {returns : Phase2Msg → Prop}

theorem Announced.commandMap (h : Announced accepted mcast) {m : CmdmapMsg}
    (here : accepted[m.instNumber - 1]? = some m.cmdValue) :
    Announced accepted (.commandMap m :: mcast) where
  mapped := by
    intro m' sent
    rcases List.mem_cons.mp sent with new | old
    · cases new
      exact here
    · exact h.mapped m' old
  chosen := by
    intro a sent
    rcases List.mem_cons.mp sent with new | old
    · cases new
    · obtain ⟨v, mapped⟩ := h.chosen a old
      exact ⟨v, List.mem_cons_of_mem _ mapped⟩

theorem Announced.acceptance (h : Announced accepted mcast) {a : AcceptanceMsg} {v : Value}
    (mapped : .commandMap ⟨a.instNumber, a.cmdKey, v⟩ ∈ mcast) :
    Announced accepted (.acceptance a :: mcast) where
  mapped := by
    intro m sent
    rcases List.mem_cons.mp sent with new | old
    · cases new
    · exact h.mapped m old
  chosen := by
    intro a' sent
    rcases List.mem_cons.mp sent with new | old
    · cases new
      exact ⟨v, List.mem_cons_of_mem _ mapped⟩
    · obtain ⟨v', mapped'⟩ := h.chosen a' old
      exact ⟨v', List.mem_cons_of_mem _ mapped'⟩

theorem Announced.phase2 (h : Announced accepted mcast) (m : Phase2Msg) :
    Announced accepted (.phase2 m :: mcast) where
  mapped := by
    intro m' sent
    rcases List.mem_cons.mp sent with new | old
    · cases new
    · exact h.mapped m' old
  chosen := by
    intro a sent
    rcases List.mem_cons.mp sent with new | old
    · cases new
    · obtain ⟨v, mapped⟩ := h.chosen a old
      exact ⟨v, List.mem_cons_of_mem _ mapped⟩

theorem Announced.more (h : Announced accepted mcast) (new : List Value) :
    Announced (accepted ++ new) mcast where
  mapped := by
    intro m sent
    have here := h.mapped m sent
    rw [List.getElem?_append_left (List.getElem?_eq_some_iff.mp here).1]
    exact here
  chosen := h.chosen

theorem Announced.record (h : Announced accepted s.mcast) (life : Life cfg s) {slot : ℕ}
    (busy : Busy (s.instancesArray slot)) : ∃ v,
      (s.instancesArray slot).assignedCmdValue = some v ∧
      .commandMap ⟨(s.instancesArray slot).instNumber, (s.instancesArray slot).assignedCmdKey, v⟩ ∈
        s.mcast ∧
      accepted[(s.instancesArray slot).instNumber - 1]? = some v := by
  have sound := life.mappings.records slot
  obtain ⟨v, assigned⟩ := Option.isSome_iff_exists.mp (sound.assigned.mpr busy)
  have mapped := sound.mapped v assigned
  exact ⟨v, assigned, mapped, h.mapped _ mapped⟩

/-- What a multicaster does that proposes the accepted values in their order. -/
def inOrder (cfg : Config) (accepted : List Value) (returns : Phase2Msg → Prop) : MoveCondition :=
  { oneLife cfg returns with opens := IsNext accepted }

theorem Move.oneLife (move : Move cfg (inOrder cfg accepted returns) s t) :
    Move cfg (RingWindows.oneLife cfg returns) s t := by
  cases move with
  | quiet h => exact .quiet h
  | take i allowed free => exact .take s i allowed free
  | phase1 slot mir h => exact .phase1 s slot mir h
  | sendPhase1 slot msg own => exact .sendPhase1 s slot msg own
  | sendRange msg allowed => exact .sendRange s msg allowed
  | opened n few taken => exact .opened s n few taken
  | promised msg slot pending => exact .promised s msg slot pending
  | startP2 value allowed next => exact .startP2 s value trivial next
  | repeatP2 slot pending => exact .repeatP2 s slot pending
  | complete slot msg returned h => exact .complete s slot msg returned h
  | advance slot done next => exact .advance s slot done next
  | repeatMap i allowed own => exact .repeatMap s i allowed own
  | repeatAcceptance slot done => exact .repeatAcceptance s slot done

theorem Moves.oneLife (moves : Moves cfg (inOrder cfg accepted returns) s t) :
    Moves cfg (RingWindows.oneLife cfg returns) s t :=
  moves.invariant (Moves cfg (RingWindows.oneLife cfg returns) s)
    (fun _ _ kept move => kept.trans (Move.oneLife move).moves) (.refl s)

theorem Announced.move (h : Announced accepted s.mcast) (life : Life cfg s)
    (move : Move cfg (inOrder cfg accepted returns) s t) : Announced accepted t.mcast := by
  cases move with
  | quiet quiet => exact quiet ▸ h
  | promised msg slot pending =>
    rw [mcasterPromised_pending life.mappings pending]
    exact h
  | startP2 value allowed next =>
    have own := next.own
    have sent : ∃ m, (mcasterStartPhase2 cfg (assignNext cfg s value)
        (msmSlot cfg (s.highestOpenIid + 1))).mcast = .phase2 m ::
          .commandMap ⟨(s.record cfg (s.highestOpenIid + 1)).instNumber,
            (createValueKey s.seqNumber).1, value⟩ :: s.mcast := by
      simp only [mcasterStartPhase2, assignNext, mcasterDoPhase2, mcasterBroadcastMapping,
        Mcaster.withRecord, Mcaster.sendMcast, setSlot_self, Option.getD_some]
      exact ⟨_, rfl⟩
    obtain ⟨m, sent⟩ := sent
    rw [sent]
    refine (h.commandMap ?_).phase2 m
    rw [own]
    exact allowed
  | repeatP2 slot pending =>
    obtain ⟨v, assigned, -, here⟩ := h.record life (.inl pending)
    obtain ⟨mir, m, -, -, -, -, -, -, -, sent⟩ := repeatP2_effect cfg s slot
    rw [sent, assigned]
    exact (h.commandMap here).phase2 m
  | complete slot msg returned completes =>
    obtain ⟨v, -, mapped, -⟩ := h.record life (.inl completes.pending)
    exact h.acceptance (v := v) (by simpa [Mcaster.withRecord] using mapped)
  | repeatMap i allowed own =>
    have busy : Busy (s.record cfg i) := by
      refine (life.records _).begun.mpr ?_
      change 0 < (s.record cfg i).instNumber ∧ (s.record cfg i).instNumber ≤ _
      rw [own]
      exact allowed
    obtain ⟨v, assigned, -, here⟩ := h.record life busy
    refine h.commandMap ?_
    rw [assigned]
    exact here
  | repeatAcceptance slot done =>
    obtain ⟨v, -, mapped, -⟩ := h.record life (.inr done)
    exact h.acceptance mapped
  | take | phase1 | sendPhase1 | sendRange | opened | advance => exact h

/-- The mappings of an instance are one, so learners hear nothing that contradicts itself. -/
theorem Announced.agree (h : Announced accepted s.mcast) (life : Life cfg s) :
    MessagesAgree s.mcast where
  mapping := fun m m' sent sent' inst _ => congrArg _ (life.oneMapping m m' sent sent' inst)
  acceptance := by
    intro a a' sent sent' inst
    obtain ⟨v, mapped⟩ := h.chosen a sent
    obtain ⟨v', mapped'⟩ := h.chosen a' sent'
    exact congrArg CmdmapMsg.cmdKey (life.oneMapping _ _ mapped mapped' inst)

end Messages

section Events

/-- `queue_append` takes a value while there is a free entry and the bytes stay within limits. -/
def QueueTakes (queue : List Value) (value : Value) : Prop :=
  queue.length ≠ valuesQueueLength ∧ queueSize queue + value.length ≤ maxQueueSizeBytes

instance (queue : List Value) (value : Value) : Decidable (QueueTakes queue value) :=
  inferInstanceAs (Decidable (_ ∧ _))

theorem cvmSaveValue_eq (queue : List Value) (value : Value) :
    cvmSaveValue queue value = queue ++ if QueueTakes queue value then [value] else [] := by
  unfold cvmSaveValue
  by_cases takes : QueueTakes queue value
  · rw [if_pos takes, if_neg takes.1, if_neg (not_lt.mpr takes.2)]
  · rw [if_neg takes, List.append_nil]
    split_ifs with full large
    · rfl
    · rfl
    · exact absurd ⟨full, not_lt.mp large⟩ takes

/-- The value that the multicaster takes from a client. -/
def valueTaken (w : RingState) : RingEvent → List Value
  | .submit value =>
    match w.mcaster with
    | .running s => if QueueTakes s.queue value then [value] else []
    | .aborted _ _ => []
  | .periodicCheck _ | .toMcaster _ _ | .request _ _ _ | .restart | .toAcceptor _ _ _
  | .mcastAcceptor _ _ | .mcastLearner _ _ | .deliverLoop _ | .gapCheck _ _ => []

/-- The accepted values have their instances in their order, or wait for them. -/
structure Placed (cfg : Config) (late : ℕ → Bool) (accepted : List Value) (w : RingState) :
    Prop where
  life : OneLife cfg w
  lined : Lined accepted w.mcaster.state
  announced : Announced accepted w.mcaster.state.mcast
  learners : ∀ l, late l = false →
    Settles cfg.workingSetSize w.mcaster.state.mcast [] (w.learners l)

variable {cfg : Config} {late : ℕ → Bool} {accepted : List Value} {w : RingState} {e : RingEvent}
  {s : Mcaster}

theorem Lined.submit (h : Lined accepted s) (value : Value) :
    Lined (accepted ++ if QueueTakes s.queue value then [value] else [])
      (mcasterHandleValueSubmit s value) where
  placed := by
    have placed := h.placed
    change s.highestOpenIid ≤ _
    rw [List.length_append]
    omega
  waiting := by
    change cvmSaveValue s.queue value = List.drop s.highestOpenIid _
    rw [cvmSaveValue_eq, List.drop_append_of_le_length h.placed, ← h.waiting]

theorem Lined.phase1Checks (h : Lined accepted s) (clock : ℕ → Timeval) {t : Mcaster}
    (done : mcasterCheckP1 cfg clock s = .running t) : Lined accepted t := by
  have kept : HasQueue s.queue s.highestOpenIid (mcasterCheckP1 cfg clock s).state :=
    HasQueue.checkP1 ⟨rfl, rfl⟩ clock
  rw [done] at kept
  exact h.of_queue kept

theorem lifeChecked (life : Life cfg s) {clock : ℕ → Timeval} {t : Mcaster}
    (done : mcasterCheckP1 cfg clock s = .running t) (now : Timeval) :
    Life cfg (mcasterUpdateWallclock t now) := by
  have covers : Covers cfg (oneLife cfg fun _ => True) s := life.covers
  have moves := mcasterCheckP1_moves clock s covers
  rw [done] at moves
  exact (life.moves (moves.trans (quiet_wallclock cfg _ t now))).1

theorem Lined.periodicCheck (h : Lined accepted s) (life : Life cfg s) (clock : ℕ → Timeval) :
    Lined accepted (onMcasterPeriodicCheck cfg clock s).state ∧
      CheckMeets cfg (IsNext accepted) clock s := by
  have opens (t : Mcaster) (done : mcasterCheckP1 cfg clock s = .running t) :=
    have lined : Lined accepted (mcasterUpdateWallclock t (clock 2)) :=
      (h.phase1Checks clock done).of_queue ⟨rfl, rfl⟩
    lined.openP2 cfg.maxP2OpenPerIteration (lifeChecked life done (clock 2))
  refine ⟨?_, Outcome.ensures_of_running fun t done => (opens t done).2⟩
  have first : HasQueue s.queue s.highestOpenIid (mcasterCheckP1 cfg clock s).state :=
    HasQueue.checkP1 ⟨rfl, rfl⟩ clock
  exact Outcome.bind_kept (h.of_queue first) fun t done _ => (opens t done).1

theorem Placed.lined_step (h : Placed cfg late accepted w) (possible : Possible cfg w e)
    (goesOn : e ≠ .restart) :
    Lined (accepted ++ valueTaken w e) (mcasterStep cfg w.mcaster e).state := by
  have lined := h.lined
  have life := h.life.mcaster
  have within := h.life.ringSent 1
  cases e with
  | submit value =>
    unfold valueTaken RingWorld.mcasterStep
    dsimp only
    cases running : w.mcaster with
    | aborted fault s =>
      rw [running] at lined
      dsimp only
      rw [List.append_nil]
      exact lined
    | running s =>
      rw [running] at lined
      exact lined.submit value
  | restart => exact absurd rfl goesOn
  | periodicCheck clock =>
    change Lined (accepted ++ []) _
    rw [List.append_nil]
    refine Outcome.bind_kept lined fun s running kept => ?_
    rw [running] at life
    exact (kept.periodicCheck life clock).1
  | toMcaster msg clock =>
    change Lined (accepted ++ []) _
    rw [List.append_nil]
    refine Outcome.bind_kept lined fun s running kept => kept.of_queue ?_
    rw [running] at life within
    have started : HasQueue s.queue s.highestOpenIid (mcasterUpdateWallclock s clock) := ⟨rfl, rfl⟩
    cases msg with
    | phase1 msg =>
      have lifeS : Life cfg (mcasterUpdateWallclock s clock) :=
        (life.moves (quiet_wallclock cfg (oneLife cfg fun _ => True) s clock)).1
      exact started.phase1 lifeS (within _ possible)
    | phase1Range msg => exact started.phase1Range msg
    | phase2 msg => exact started.phase2 msg
  | request l msg clock =>
    change Lined (accepted ++ []) _
    rw [List.append_nil]
    refine Outcome.bind_kept lined fun s _ kept => kept.of_queue ?_
    have started : HasQueue s.queue s.highestOpenIid (mcasterUpdateWallclock s clock) := ⟨rfl, rfl⟩
    exact started.request msg
  | toAcceptor | mcastAcceptor | mcastLearner | deliverLoop | gapCheck =>
    change Lined (accepted ++ []) _
    rw [List.append_nil]
    exact lined

theorem Placed.meets (h : Placed cfg late accepted w) (possible : Possible cfg w e) :
    EventMeets cfg (inOrder cfg accepted fun msg => .phase2 msg ∈ ringSent cfg w 1) w.mcaster e := by
  have met := h.life.meets possible
  cases e with
  | periodicCheck clock =>
    have life := h.life.mcaster
    have lined := h.lined
    unfold EventMeets
    cases running : w.mcaster with
    | running s =>
      rw [running] at life lined
      exact ⟨fun t moves => life.covers t (Moves.oneLife moves), (lined.periodicCheck life clock).2⟩
    | aborted fault s => trivial
  | toMcaster msg clock => cases msg <;> exact met
  | request l msg clock => exact met
  | _ => trivial

theorem Placed.announced_step (h : Placed cfg late accepted w) (possible : Possible cfg w e)
    (goesOn : e ≠ .restart) :
    Announced accepted (mcasterStep cfg w.mcaster e).state.mcast := by
  have moves := mcasterStep_moves (h.meets possible) goesOn
  exact (moves.invariant (fun t => Life cfg t ∧ Announced accepted t.mcast)
    (fun _ _ kept move => ⟨kept.1.move (Move.oneLife move), kept.2.move kept.1 move⟩)
    ⟨h.life.mcaster, h.announced⟩).2

theorem Placed.mcast_grows (h : Placed cfg late accepted w) (possible : Possible cfg w e)
    (goesOn : e ≠ .restart) : ∀ msg ∈ w.mcaster.state.mcast,
      msg ∈ (mcasterStep cfg w.mcaster e).state.mcast :=
  fun msg sent => (h.life.mcasterMoves possible goesOn).invariant (msg ∈ ·.mcast)
    (fun _ _ kept move => move.mcast_grows msg kept) sent

theorem Placed.learner_step (h : Placed cfg late accepted w) (possible : Possible cfg w e) {l : ℕ}
    (onTime : late l = false) :
    Settles cfg.workingSetSize w.mcaster.state.mcast (w.learners l).state.delivered
      (learnerStep cfg l (w.learners l) e) := by
  have agree := h.announced.agree h.life.mcaster
  have here : Settles cfg.workingSetSize w.mcaster.state.mcast (w.learners l).state.delivered
      (w.learners l) := by
    refine (h.learners l onTime).mono fun q running settled => ?_
    rw [running]
    exact ⟨⟨settled.1.sound, settled.1.slots, List.prefix_rfl⟩, settled.2⟩
  have handles (qe : QueueEvent) (sent : ∀ msg, heard qe = some msg → msg ∈ w.mcaster.state.mcast) :=
    queueStep_settles cfg.workingSet_pos agree here (e := qe) sent
  cases e with
  | mcastLearner l' msg =>
    change Settles _ _ _ (ite (l = l') _ (w.learners l))
    split_ifs
    · refine handles (.receive msg) fun msg' same => ?_
      cases same
      exact possible
    · exact here
  | deliverLoop l' =>
    change Settles _ _ _ (ite (l = l') _ (w.learners l))
    split_ifs
    · exact handles .deliverLoop fun _ none => nomatch none
    · exact here
  | gapCheck l' timeNow =>
    change Settles _ _ _ (ite (l = l') _ (w.learners l))
    split_ifs
    · exact handles (.periodicCheck timeNow) fun _ none => nomatch none
    · exact here
  | _ => exact here

theorem settles_mono {queueSize : ℕ} {mcast mcast' : List McastMsg} {past : List Value}
    {o : LearnerOutcome} (h : Settles queueSize mcast past o)
    (grown : ∀ msg ∈ mcast, msg ∈ mcast') : Settles queueSize mcast' [] o :=
  Outcome.Ensures.mono h fun _ _ settled =>
    ⟨⟨settled.1.sound.mono grown, settled.1.slots, List.nil_prefix⟩, settled.2⟩

theorem placed_step (h : Placed cfg late accepted w) (e : RingEvent) (possible : Possible cfg w e)
    (goesOn : e ≠ .restart) : Placed cfg late (accepted ++ valueTaken w e) (ringStep cfg w e) := by
  have life := oneLife_step h.life e goesOn
  unfold ringStep at life ⊢
  rw [if_pos possible] at life ⊢
  exact
    { life := life
      lined := h.lined_step possible goesOn
      announced := (h.announced_step possible goesOn).more _
      learners := fun l onTime =>
        settles_mono (h.learner_step possible onTime) (h.mcast_grows possible goesOn) }

theorem placed_init (cfg : Config) (late : ℕ → Bool) : Placed cfg late [] (ringInit late) where
  life := oneLife_init cfg late
  lined := ⟨Nat.le_refl 0, rfl⟩
  announced := ⟨fun _ h => (nomatch h), fun _ h => nomatch h⟩
  learners := by
    intro l onTime
    change Settles _ _ _ (.running (learnerInit (late l)))
    rw [onTime]
    exact settled_init

theorem Placed.delivered (h : Placed cfg late accepted w) {l : ℕ} (onTime : late l = false) :
    (w.learners l).IsRunning ∧
      (w.learners l).state.delivered =
        accepted.take (w.learners l).state.highestDelivered ∧
      (w.learners l).state.highestDelivered ≤ w.mcaster.state.highestOpenIid := by
  have settles := h.learners l onTime
  cases running : w.learners l with
  | aborted fault q =>
    rw [running] at settles
    exact settles.elim
  | running q =>
    rw [running] at settles
    obtain ⟨⟨sound, -, -⟩, -⟩ := settles
    have mapped (n : ℕ) (cmd : Value) (found : q.delivered[n]? = some cmd) :
        accepted[n]? = some cmd ∧ n + 1 ≤ w.mcaster.state.highestOpenIid := by
      obtain ⟨key, sent, -⟩ := sound.delivered n cmd found
      exact ⟨h.announced.mapped _ sent, (h.life.mcaster.mcast _ sent).2.1⟩
    have le : q.highestDelivered ≤ w.mcaster.state.highestOpenIid := by
      rcases Nat.eq_zero_or_pos q.highestDelivered with zero | positive
      · omega
      · have last : q.highestDelivered - 1 < q.delivered.length := by
          have length := sound.length
          omega
        have placed := (mapped _ _ (List.getElem?_eq_getElem last)).2
        omega
    refine ⟨trivial, ?_, le⟩
    change q.delivered = accepted.take q.highestDelivered
    have within : q.highestDelivered ≤ accepted.length := le.trans h.lined.placed
    refine List.ext_getElem? fun n => ?_
    rcases Nat.lt_or_ge n q.delivered.length with old | new
    · have found := List.getElem?_eq_getElem old
      rw [found, List.getElem?_take_of_lt (by rw [← sound.length]; exact old),
        (mapped n _ found).1]
    · have short : (accepted.take q.highestDelivered).length = q.highestDelivered := by
        rw [List.length_take, Nat.min_eq_left within]
      rw [List.getElem?_eq_none new, List.getElem?_eq_none]
      rw [short, ← sound.length]
      exact new

end Events

variable {cfg : Config} {late : ℕ → Bool} {w : RingState}

/-- The service that a ring provides in a state: the values accepted and which of them have
instances, and how far each learner that started on time has come. -/
structure Provides (cfg : Config) (late : ℕ → Bool) (w : RingState) (b : Broadcast Value ℕ) :
    Prop where
  state : Placed cfg late b.accepted w
  placed : b.placed = w.mcaster.state.highestOpenIid
  read : ∀ l, late l = false → b.read l = (w.learners l).state.highestDelivered

theorem Provides.delivered {b : Broadcast Value ℕ} (h : Provides cfg late w b) {l : ℕ}
    (onTime : late l = false) : (w.learners l).state.delivered = b.output l := by
  unfold Broadcast.output
  rw [h.read l onTime]
  exact (h.state.delivered onTime).2.1

theorem valueTaken_of_not_possible {e : RingEvent} (not : ¬ Possible cfg w e) :
    valueTaken w e = [] := by
  cases e with
  | submit value => exact absurd trivial not
  | _ => rfl

theorem learnerStep_others (cfg : Config) (w : RingState) (e : RingEvent) :
    ∃ l, ∀ l', l' ≠ l → learnerStep cfg l' (w.learners l') e = w.learners l' := by
  cases e with
  | mcastLearner l msg => exact ⟨l, fun l' other => if_neg other⟩
  | deliverLoop l => exact ⟨l, fun l' other => if_neg other⟩
  | gapCheck l timeNow => exact ⟨l, fun l' other => if_neg other⟩
  | _ => exact ⟨0, fun _ _ => rfl⟩

theorem Placed.highest_le {accepted : List Value} {e : RingEvent}
    (h : Placed cfg late accepted w) (possible : Possible cfg w e) {l : ℕ}
    (onTime : late l = false) : (w.learners l).state.highestDelivered ≤
      (learnerStep cfg l (w.learners l) e).state.highestDelivered := by
  have before := h.learners l onTime
  have after := h.learner_step possible onTime
  rw [Outcome.running_of_isRunning (h.delivered onTime).1] at before
  cases stepped : learnerStep cfg l (w.learners l) e with
  | aborted fault q =>
    rw [stepped] at after
    exact after.elim
  | running q =>
    rw [stepped] at after
    rw [← before.1.sound.length, Outcome.state_running, ← after.1.sound.length]
    exact after.1.past.length_le

theorem Provides.step {b : Broadcast Value ℕ} (h : Provides cfg late w b) (e : RingEvent)
    (goesOn : e ≠ .restart) : ∃ b', Steps b b' ∧ Provides cfg late (ringStep cfg w e) b' ∧
      b'.accepted = b.accepted ++ valueTaken w e := by
  by_cases possible : Possible cfg w e
  · have state := placed_step h.state e possible goesOn
    have highest : b.placed ≤ (ringStep cfg w e).mcaster.state.highestOpenIid := by
      rw [h.placed, ringStep, if_pos possible]
      exact (h.state.life.mcaster.moves (h.state.life.mcasterMoves possible goesOn)).2
    obtain ⟨more, sum⟩ := Nat.exists_eq_add_of_le highest
    -- first the value is accepted, then instances are opened, then the learner reads
    have accepts := steps_accept b (valueTaken w e)
    have places := steps_place { b with accepted := b.accepted ++ valueTaken w e } more (by
      rw [← sum]
      exact state.lined.placed)
    have both := accepts.trans places
    obtain ⟨l, others⟩ := learnerStep_others cfg w e
    have learners (l' : ℕ) : (ringStep cfg w e).learners l' =
        learnerStep cfg l' (w.learners l') e := by rw [ringStep, if_pos possible]
    by_cases onTime : late l = false
    · obtain ⟨read, total⟩ := Nat.exists_eq_add_of_le (h.state.highest_le possible onTime)
      rw [← h.read l onTime, ← learners] at total
      have delivered := state.delivered onTime
      refine ⟨_, both.trans (steps_read _ l read ?_), ⟨state, sum.symm, fun l' onTime' => ?_⟩, rfl⟩
      · rw [← sum, ← total]
        exact delivered.2.2
      · change Function.update b.read l (b.read l + read) l' = _
        rw [Function.update_apply]
        split_ifs with same
        · rw [same, ← total]
        · rw [learners, others l' same, h.read l' onTime']
    · refine ⟨_, both, ⟨state, sum.symm, fun l' onTime' => ?_⟩, rfl⟩
      have other : l' ≠ l := fun same => onTime (same ▸ onTime')
      rw [learners, others l' other]
      exact h.read l' onTime'
  · refine ⟨b, .refl b, ?_, by rw [valueTaken_of_not_possible possible, List.append_nil]⟩
    rw [ringStep, if_neg possible]
    exact h

/-- Without a restart a ring is an ordered broadcast of the values that the multicaster takes:
those that have no instance yet wait in the queue, and every learner that started on time has
delivered the first of the others, in the order in which they were taken. -/
theorem ring_refines_broadcast (cfg : Config) (late : ℕ → Bool) (events : List RingEvent)
    (goesOn : ∀ e ∈ events, e ≠ .restart) :
    ∃ b : Broadcast Value ℕ, Steps Broadcast.empty b ∧
      b.accepted = observed (ringStep cfg) valueTaken (ringInit late) events ∧
      b.placed = (run (ringStep cfg) (ringInit late) events).mcaster.state.highestOpenIid ∧
      b.accepted.drop b.placed =
        (run (ringStep cfg) (ringInit late) events).mcaster.state.queue ∧
      ∀ l, late l = false →
        ((run (ringStep cfg) (ringInit late) events).learners l).IsRunning ∧
        ((run (ringStep cfg) (ringInit late) events).learners l).state.delivered = b.output l := by
  have start : Provides cfg late (ringInit late) Broadcast.empty :=
    ⟨placed_init cfg late, rfl, fun _ _ => rfl⟩
  have matched : Along (ringStep cfg)
      (Matches (ringStep cfg) valueTaken Step Broadcast.accepted (Provides cfg late))
      (ringInit late) events := along_of_mem fun e he w b h => h.step e (goesOn e he)
  obtain ⟨b, steps, provides, logged⟩ := simulates start matched
  refine ⟨b, steps, logged, provides.placed, ?_, fun l onTime => ?_⟩
  · rw [provides.placed, provides.state.lined.waiting]
  · exact ⟨(provides.state.delivered onTime).1, provides.delivered onTime⟩

/-- One value, from the client to a learner. -/
theorem first_value_broadcast : ∃ b : Broadcast Value ℕ, Steps Broadcast.empty b ∧
    b.accepted = [[7]] ∧ b.output 0 = [[7]] := by
  obtain ⟨b, steps, accepted, -, -, outputs⟩ := ring_refines_broadcast .small (fun _ => false)
    (chooseFirst [7] ++ RingAgreement.learnFirst 0 [7])
    (by simp [chooseFirst, RingAgreement.learnFirst])
  refine ⟨b, steps, accepted.trans (by decide +kernel), ?_⟩
  rw [← (outputs 0 rfl).2]
  decide +kernel

end FdsPaxos.RingSubmissionOrder
