import FdsPaxos.RingRecordMemory

set_option autoImplicit false

namespace FdsPaxos.RingRecordInvariant
open TransitionRuns HeapBlocks RingConfig RingMessages RingStableStorage RingAcceptor
open RingAcceptorMoves RingRecordMemory

section Records

variable (bytes : CommandId → Value)

def AcceptedFits (ir : InstanceRecord) : Prop :=
  match ir.acceptedCmd with
  | none => ir.acceptedCmdKey = clearCmdKey
  | some cmd => ir.acceptedCmdKey ≠ clearCmdKey ∧ cmd = bytes ir.acceptedCmdKey

def ProposedFits (ir : InstanceRecord) : Prop :=
  match ir.proposedCmd with
  | .null => ir.proposedCmdKey = clearCmdKey
  | .inSlot cmd =>
    ir.acceptedCmd = none ∧ ir.proposedCmdKey ≠ clearCmdKey ∧ cmd = bytes ir.proposedCmdKey
  | .allocated cmd =>
    ir.acceptedCmd ≠ none ∧ ir.proposedCmdKey ≠ clearCmdKey ∧
      ir.proposedCmdKey ≠ ir.acceptedCmdKey ∧ cmd = bytes ir.proposedCmdKey
  | .freed => False

instance (ir : InstanceRecord) : Decidable (AcceptedFits bytes ir) :=
  match h : ir.acceptedCmd with
  | none => decidable_of_iff (ir.acceptedCmdKey = clearCmdKey) (by simp [AcceptedFits, h])
  | some cmd => decidable_of_iff
      (ir.acceptedCmdKey ≠ clearCmdKey ∧ cmd = bytes ir.acceptedCmdKey) (by simp [AcceptedFits, h])

/-- A command is set exactly when its key is, and is the one mapped to its key; what is
proposed has memory of its own exactly when something is accepted, under another key. -/
structure Represents (ir : InstanceRecord) : Prop where
  accepted : AcceptedFits bytes ir
  proposed : ProposedFits bytes ir

variable {bytes} {ir ir' : InstanceRecord}

theorem Represents.dropped (h : Represents bytes ir) : Represents bytes (clearProposed ir) :=
  ⟨h.accepted, rfl⟩

theorem Represents.saves (h : Represents bytes ir) {msg : CmdmapMsg}
    (named : msg.cmdKey ≠ clearCmdKey) (consistent : msg.cmdValue = bytes msg.cmdKey)
    (saves : Saves ir msg ir') : Represents bytes ir' := by
  cases saves with
  | forget own => exact h.dropped
  | inSlot none => exact ⟨h.accepted, none, named, consistent⟩
  | secondary some other =>
    exact ⟨h.accepted, Option.isSome_iff_ne_none.mp some, named, other, consistent⟩

def Replaces (ir : InstanceRecord) (msg : Phase2Msg) : Prop :=
  ir.ballot ≤ msg.ballot ∧ msg.cmdKey = ir.proposedCmdKey ∧ ir.acceptedCmd ≠ none

theorem Represents.accepts (h : Represents bytes ir) {msg : Phase2Msg} (le : ir.ballot ≤ msg.ballot)
    (accepts : Accepts ir msg ir') (kept : ¬ Replaces ir msg) : Represents bytes ir' := by
  cases accepts with
  | again key other none => exact h
  | againFreed key other own => exact h.dropped
  | first key other none slot =>
    have proposed := h.proposed
    unfold ProposedFits at proposed
    rw [slot] at proposed
    exact ⟨⟨proposed.2.1, proposed.2.2⟩, rfl⟩
  | replaced key other some own =>
    exact absurd ⟨le, key, by simp [some]⟩ kept

end Records

section Memory

variable (bytes : CommandId → Value)

/-- A pointer leads to memory that holds a command, and the size goes with it. -/
def Holds (m : RecordMemory) (p : CmdPointer) (size : ℕ) (cmd : Value) : Prop :=
  size = cmd.length ∧
    match p with
    | .null => False
    | .slot => m.commandSlot.take size = cmd
    | .block addr => (m.heap.block addr).map (List.take size) = some cmd

structure RecordInvariant (m : RecordMemory) : Prop where
  acceptedNull : m.acceptedCmd = .null ↔ m.acceptedCmdKey = clearCmdKey
  accepted : m.acceptedCmd ≠ .null → m.acceptedCmd = .slot ∧
    Holds m m.acceptedCmd m.acceptedCmdSize (bytes m.acceptedCmdKey)
  proposedNull : m.proposedCmd = .null ↔ m.proposedCmdKey = clearCmdKey
  proposed : m.proposedCmd ≠ .null →
    Holds m m.proposedCmd m.proposedCmdSize (bytes m.proposedCmdKey)
  place : m.proposedCmd ≠ .null → (m.proposedCmd = .slot ↔ m.acceptedCmd = .null)
  keysDiffer : m.acceptedCmdKey ≠ clearCmdKey → m.proposedCmdKey ≠ clearCmdKey →
    m.acceptedCmdKey ≠ m.proposedCmdKey

variable {bytes} {m : RecordMemory} {i : ℕ}

theorem acceptedFits_iff (h : Sound m) : AcceptedFits bytes (shown m i) ↔
    (m.acceptedCmd = .null ↔ m.acceptedCmdKey = clearCmdKey) ∧ (m.acceptedCmd ≠ .null →
      m.acceptedCmd = .slot ∧ Holds m m.acceptedCmd m.acceptedCmdSize (bytes m.acceptedCmdKey)) := by
  unfold AcceptedFits Holds
  obtain ⟨null, size⟩ | ⟨slot, fits⟩ := h.accepted
  · simp [shown, null]
  · have length : (m.commandSlot.take m.acceptedCmdSize).length = m.acceptedCmdSize := by
      simpa using fits
    simp only [shown, slot, reduceCtorEq, if_false, false_iff, ne_eq, not_false_eq_true, true_and,
      forall_const]
    refine and_congr_right fun _ => ⟨fun same => ⟨?_, same⟩, And.right⟩
    rw [← same, length]

theorem proposedFits_iff (h : Sound m) : ProposedFits bytes (shown m i) ↔
    (m.proposedCmd = .null ↔ m.proposedCmdKey = clearCmdKey) ∧
    (m.proposedCmd ≠ .null → Holds m m.proposedCmd m.proposedCmdSize (bytes m.proposedCmdKey)) ∧
    (m.proposedCmd ≠ .null → (m.proposedCmd = .slot ↔ m.acceptedCmd = .null)) ∧
    (m.acceptedCmd ≠ .null → m.proposedCmdKey ≠ clearCmdKey →
      m.acceptedCmdKey ≠ m.proposedCmdKey) := by
  have accepted : (shown m i).acceptedCmd = none ↔ m.acceptedCmd = .null := shown_accepted m i
  unfold ProposedFits Holds
  rw [ne_eq, accepted]
  cases place : m.proposedCmd with
  | null =>
    rw [show (shown m i).proposedCmd = .null from shownProposed_null.mpr place]
    simp only [shown, true_iff, ne_eq, not_true_eq_false, false_imp_iff, true_and, iff_self_and]
    exact fun clear _ other => absurd clear other
  | slot =>
    obtain ⟨unset, fits⟩ := h.slot place
    have length : (m.commandSlot.take m.proposedCmdSize).length = m.proposedCmdSize := by
      simpa using fits
    rw [show (shown m i).proposedCmd = .inSlot (m.commandSlot.take m.proposedCmdSize) by
      simp only [shown, shownProposed, place]]
    simp only [shown, unset, ne_eq, reduceCtorEq, false_iff, not_false_eq_true, forall_const,
      true_and, not_true_eq_false, false_imp_iff, and_true]
    refine and_congr_right fun _ => ⟨fun same => ⟨?_, same⟩, And.right⟩
    rw [← same, length]
  | block addr =>
    cases found : m.heap.block addr with
    | none =>
      rw [show (shown m i).proposedCmd = .freed by simp only [shown, shownProposed, place, found]]
      simp [found]
    | some cmd =>
      have length := h.live addr cmd place found
      have whole : cmd.take m.proposedCmdSize = cmd := by rw [← length, List.take_length]
      rw [show (shown m i).proposedCmd = .allocated cmd by
        simp only [shown, shownProposed, place, found]]
      simp only [accepted, found, Option.map_some, whole, ne_eq, reduceCtorEq, false_iff,
        not_false_eq_true, forall_const, Option.some.injEq]
      constructor
      · rintro ⟨set, named, other, same⟩
        exact ⟨named, ⟨length.symm.trans (congrArg List.length same), same⟩, set, fun _ _ => Ne.symm other⟩
      · rintro ⟨named, ⟨-, same⟩, set, other⟩
        exact ⟨set, named, Ne.symm (other set named), same⟩

theorem invariant_iff (h : Sound m) (i : ℕ) :
    RecordInvariant bytes m ↔ Represents bytes (shown m i) := by
  constructor
  · intro inv
    refine ⟨(acceptedFits_iff h).mpr ⟨inv.acceptedNull, inv.accepted⟩, (proposedFits_iff h).mpr
      ⟨inv.proposedNull, inv.proposed, inv.place, fun set named => ?_⟩⟩
    exact inv.keysDiffer (mt inv.acceptedNull.mpr set) named
  · intro rep
    obtain ⟨acceptedNull, accepted⟩ := (acceptedFits_iff h).mp rep.accepted
    obtain ⟨proposedNull, proposed, place, keysDiffer⟩ := (proposedFits_iff h).mp rep.proposed
    exact ⟨acceptedNull, accepted, proposedNull, proposed, place,
      fun set named => keysDiffer (mt acceptedNull.mp set) named⟩

end Memory

section Faults

variable {bytes : CommandId → Value} {cfg : Config} {s t : RingAcceptor} {ir : InstanceRecord}

theorem Represents.freeProposed (h : Represents bytes ir) (set : ir.acceptedCmd ≠ none)
    (next : AcceptorOutcome) : freeProposed s ir next = next := by
  have fits := h.proposed
  unfold ProposedFits at fits
  unfold RingAcceptor.freeProposed
  cases shape : ir.proposedCmd with
  | null => rfl
  | inSlot cmd =>
    rw [shape] at fits
    exact absurd fits.1 set
  | allocated cmd => rfl
  | freed =>
    rw [shape] at fits
    exact fits.elim

theorem Represents.saveMap_fault (h : Represents bytes ir) {msg : CmdmapMsg}
    {fault : AcceptorFault} (stopped : acceptorSaveMap cfg s msg ir = .aborted fault t) :
    fault ≠ .invalidFree := by
  have free (set : ir.acceptedCmd ≠ none) (next : AcceptorOutcome) :
      RingAcceptor.freeProposed s ir next = next := h.freeProposed set next
  unfold acceptorSaveMap knownAccepted at stopped
  split_ifs at stopped with known same stored same' unset null same'
  · have set : ir.acceptedCmd ≠ none := Option.isSome_iff_ne_none.mp known.1
    split at stopped
    · cases stopped
    · cases stopped
      decide
    · rw [free set] at stopped
      cases stopped
    · rw [free set] at stopped
      cases stopped
  · cases stopped
    decide
  · cases stopped
    decide
  · cases stopped
    decide
  · rw [free unset] at stopped
    cases stopped

theorem Represents.accept_fault (h : Represents bytes ir) {msg : Phase2Msg}
    {fault : AcceptorFault} (stopped : acceptorAccept cfg s msg ir = .aborted fault t) :
    fault ≠ .invalidFree := by
  unfold acceptorAccept at stopped
  dsimp only at stopped
  split_ifs at stopped with both unknown again
  · cases stopped
    decide
  · have fits := h.proposed
    unfold ProposedFits at fits
    split at stopped
    · cases stopped
    · cases stopped
      decide
    · simp only [RingAcceptor.freeProposed, *] at stopped
      cases stopped
    · simp only [*] at fits
  · split at stopped
    · cases stopped
    · cases stopped
      decide
    · cases stopped
      decide
    · cases stopped
      decide
    · cases stopped
      decide
    · cases stopped
      decide
    · rw [h.freeProposed (by simp [*])] at stopped
      cases stopped
    · rw [h.freeProposed (by simp [*])] at stopped
      cases stopped

theorem Represents.replaced (cfg : Config) (s : RingAcceptor) (h : Represents bytes ir)
    {msg : Phase2Msg}
    (named : msg.cmdKey ≠ clearCmdKey) (replaces : Replaces ir msg) :
    ∃ ir', acceptorAccept cfg s msg ir =
        acceptorP2StoreAndSend cfg (seeInstance s msg.instNumber) msg ir' ∧
      ir'.proposedCmd = .freed := by
  obtain ⟨-, key, set⟩ := replaces
  obtain ⟨accepted, found⟩ := Option.ne_none_iff_exists'.mp set
  have fits := h.proposed
  unfold ProposedFits at fits
  cases shape : ir.proposedCmd with
  | null =>
    rw [shape] at fits
    exact absurd (key.trans fits) named
  | inSlot cmd =>
    rw [shape] at fits
    exact absurd fits.1 set
  | freed =>
    rw [shape] at fits
    exact fits.elim
  | allocated cmd =>
    rw [shape] at fits
    have other : msg.cmdKey ≠ ir.acceptedCmdKey := key ▸ fits.2.2.1
    unfold acceptorAccept
    dsimp only
    rw [if_neg fun both => other both.2, if_neg fun unknown => unknown.2 key, if_neg other]
    simp only [found, shape, RingAcceptor.freeProposed]
    exact ⟨_, rfl, rfl⟩

end Faults

section Steps

variable (bytes : CommandId → Value)

/-- A message for instance `i` names a command, and brings the one mapped to its key. -/
def Consistent (i : ℕ) : RecordMsg → Prop
  | .commandMap msg =>
    msg.instNumber = i ∧ msg.cmdKey ≠ clearCmdKey ∧ msg.cmdValue = bytes msg.cmdKey
  | .phase2 msg => msg.instNumber = i ∧ msg.cmdKey ≠ clearCmdKey

instance (i : ℕ) (msg : RecordMsg) : Decidable (Consistent bytes i msg) :=
  match msg with
  | .commandMap _ => inferInstanceAs (Decidable (_ ∧ _ ∧ _))
  | .phase2 _ => inferInstanceAs (Decidable (_ ∧ _))

/-- The messages for one instance, each key always with the same bytes. -/
def ConsistentMsg (i : ℕ) : Type := { msg : RecordMsg // Consistent bytes i msg }

/-- The message makes the acceptor replace what it has accepted. -/
def ReplacesAccepted (ir : InstanceRecord) : RecordMsg → Prop
  | .commandMap _ => False
  | .phase2 msg => Replaces ir msg

variable {bytes} {cfg : Config} {s : RingAcceptor} {m : RecordMemory} {i : ℕ} {msg : RecordMsg}

theorem Consistent.instNumber (h : Consistent bytes i msg) : msg.instNumber = i := by
  cases msg with
  | commandMap msg => exact h.1
  | phase2 msg => exact h.1

theorem Represents.savesMap {msg : CmdmapMsg} (h : Represents bytes (s.record cfg msg.instNumber))
    (named : msg.cmdKey ≠ clearCmdKey) (value : msg.cmdValue = bytes msg.cmdKey) :
    (acceptorSaveMap cfg s msg (s.record cfg msg.instNumber)).Ensures
      (fun t => Represents bytes (t.record cfg msg.instNumber)) (· ≠ .invalidFree) := by
  cases handled : acceptorSaveMap cfg s msg (s.record cfg msg.instNumber) with
  | aborted fault t => exact h.saveMap_fault handled
  | running t =>
    rcases acceptorSaveMap_cases cfg s msg (s.record cfg msg.instNumber) with
      ⟨fault, stopped⟩ | same | ⟨ir, saves, stores⟩
    · cases handled.symm.trans stopped
    · cases handled.symm.trans same
      exact h
    · cases handled.symm.trans stores
      change Represents bytes ((s.withRecord _ ir).record cfg msg.instNumber)
      rw [record_withRecord]
      exact h.saves named value saves

theorem Represents.acceptsInTime {msg : Phase2Msg}
    (h : Represents bytes (s.record cfg msg.instNumber)) (named : msg.cmdKey ≠ clearCmdKey)
    (inTime : (s.record cfg msg.instNumber).ballot ≤ msg.ballot) :
    (acceptorAccept cfg s msg (s.record cfg msg.instNumber)).Ensures
        (fun t => Represents bytes (t.record cfg msg.instNumber)) (· ≠ .invalidFree) ↔
      ¬ Replaces (s.record cfg msg.instNumber) msg := by
  by_cases replaces : Replaces (s.record cfg msg.instNumber) msg
  · obtain ⟨ir, stores, freed⟩ := h.replaced cfg s named replaces
    refine iff_of_false ?_ (not_not.mpr replaces)
    rw [stores]
    intro rep
    have fits : ProposedFits bytes ((acceptorP2StoreAndSend cfg (seeInstance s msg.instNumber)
      msg ir).state.record cfg msg.instNumber) := Represents.proposed rep
    rw [acceptorP2StoreAndSend_record, ProposedFits] at fits
    simp only [freed] at fits
  · refine iff_of_true ?_ replaces
    cases handled : acceptorAccept cfg s msg (s.record cfg msg.instNumber) with
    | aborted fault t => exact h.accept_fault handled
    | running t =>
      rcases acceptorAccept_cases cfg s msg (s.record cfg msg.instNumber) with
        ⟨fault, stopped | stopped⟩ | dropped | ⟨ir, accepts, stores⟩
      · cases handled.symm.trans stopped
      · cases handled.symm.trans stopped
      · cases handled.symm.trans dropped
        exact h
      · have rep := h.accepts inTime accepts replaces
        cases handled.symm.trans stores
        change Represents bytes ((acceptorP2StoreAndSend cfg (seeInstance s msg.instNumber)
          msg ir).state.record cfg msg.instNumber)
        rw [acceptorP2StoreAndSend_record]
        exact ⟨rep.accepted, rep.proposed⟩

theorem Represents.handles (own : (s.record cfg i).instNumber = i)
    (h : Represents bytes (s.record cfg i)) (consistent : Consistent bytes i msg) :
    (handleShown cfg s msg).Ensures
        (fun t => Represents bytes (t.record cfg i)) (· ≠ .invalidFree) ↔
      ¬ ReplacesAccepted (s.record cfg i) msg := by
  obtain ⟨t, got⟩ : ∃ t, ssmGetRecord cfg s i = .running t :=
    ⟨_, Outcome.running_of_isRunning (ssmGetRecord_isRunning.mpr own.le)⟩
  have found : t.record cfg i = s.record cfg i := by
    rw [ssmGetRecord_record got, readied_of_own own]
  rw [← found] at h ⊢
  cases msg with
  | commandMap msg =>
    obtain ⟨rfl, named, value⟩ := consistent
    change ((ssmGetRecord cfg s msg.instNumber).bind _).Ensures _ _ ↔ ¬ False
    rw [got, Outcome.bind_running]
    exact iff_of_true (h.savesMap named value) id
  | phase2 msg =>
    obtain ⟨rfl, named⟩ := consistent
    change ((ssmGetRecord cfg s msg.instNumber).bind _).Ensures _ _ ↔ ¬ Replaces _ msg
    rw [got, Outcome.bind_running]
    dsimp only
    by_cases refused : msg.ballot < (t.record cfg msg.instNumber).ballot
    · rw [if_pos refused]
      exact iff_of_true h fun replaces => UInt32.not_lt.mpr replaces.1 refused
    · rw [if_neg refused]
      exact h.acceptsInTime named (UInt32.not_lt.mp refused)

/-- The faults of memory: an allocation freed twice, or used after it was freed. -/
def InMemory (fault : MemoryFault) : Prop :=
  fault = .stopped .invalidFree ∨ fault = .useAfterFree

instance (fault : MemoryFault) : Decidable (InMemory fault) :=
  inferInstanceAs (Decidable (_ ∨ _))

def host (m : RecordMemory) (i : ℕ) : RingAcceptor :=
  { regularAcceptorInit 2 with
    instancesArray := fun _ => shown m i
    toSuccessor := m.toSuccessor }

theorem host_shows (sound : Sound m) (inst : msg.instNumber = i) :
    Shows Config.small i (handleRecordMsg m msg) (handleShown Config.small (host m i) msg) := by
  subst inst
  exact handleRecordMsg_shows sound rfl rfl

theorem handleRecordMsg_sound (sound : Sound m) (msg : RecordMsg) :
    (handleRecordMsg m msg).Ensures Sound fun _ => True := by
  have shows_ := host_shows sound (rfl : msg.instNumber = msg.instNumber)
  cases mem : handleRecordMsg m msg with
  | running m' =>
    cases model : handleShown Config.small (host m msg.instNumber) msg with
    | running t =>
      rw [mem, model] at shows_
      exact shows_.1
    | aborted fault t =>
      rw [mem, model] at shows_
      exact shows_.elim
  | aborted fault m' => trivial

theorem handleRecordMsg_right (sound : Sound m) (h : RecordInvariant bytes m)
    (consistent : Consistent bytes i msg) :
    (handleRecordMsg m msg).Ensures (RecordInvariant bytes) (fun fault => ¬ InMemory fault) ↔
      ¬ ReplacesAccepted (shown m i) msg := by
  have shows_ := host_shows sound consistent.instNumber
  have handles : (handleShown Config.small (host m i) msg).Ensures _ _ ↔ _ :=
    Represents.handles rfl
    ((invariant_iff sound i).mp h) consistent
  change _ ↔ ¬ ReplacesAccepted ((host m i).record Config.small i) msg
  rw [← handles]
  cases mem : handleRecordMsg m msg with
  | running m' =>
    cases model : handleShown Config.small (host m i) msg with
    | running t =>
      rw [mem, model] at shows_
      obtain ⟨sound', same, -⟩ := shows_
      change RecordInvariant bytes m' ↔ Represents bytes (t.record _ _)
      rw [same, invariant_iff sound' i]
    | aborted fault t =>
      rw [mem, model] at shows_
      exact shows_.elim
  | aborted fault m' =>
    cases model : handleShown Config.small (host m i) msg with
    | running t =>
      rw [mem, model] at shows_
      exact shows_.elim
    | aborted fault' t =>
      rw [mem, model] at shows_
      have same : shownFault fault = some fault' := shows_
      change ¬ InMemory fault ↔ fault' ≠ .invalidFree
      unfold InMemory
      cases fault with
      | stopped cause =>
        cases same
        simp
      | acceptedSize => cases same
      | useAfterFree => cases same

end Steps

variable (bytes : CommandId → Value) (i : ℕ)

def recordStep (o : MemoryOutcome) (msg : ConsistentMsg bytes i) : MemoryOutcome :=
  o.bind fun m => handleRecordMsg m msg.val

/-- The record in a slot that was cleared; what lies in memory is left over. -/
def clearedRecord (ballot : Ballot) (commandSlot : Value) (heap : Heap Value) : RecordMemory where
  ballot := ballot
  acceptBallot := 0
  acceptedCmdKey := clearCmdKey
  acceptedCmdSize := 0
  acceptedCmd := .null
  proposedCmdKey := clearCmdKey
  proposedCmdSize := 0
  proposedCmd := .null
  commandSlot := commandSlot
  heap := heap
  toSuccessor := []

/-- Where the acceptor goes on the invariant holds, and it does not stop for its memory. -/
def RecordRight (o : MemoryOutcome) : Prop :=
  o.Ensures (RecordInvariant bytes) fun fault => ¬ InMemory fault

/-- A running acceptor that a message makes replace what it has accepted. -/
def Overwrites (o : MemoryOutcome) (msg : ConsistentMsg bytes i) : Prop :=
  o.Ensures (fun m => ReplacesAccepted (shown m i) msg.val) fun _ => False

variable {bytes i}

theorem recordStep_sound (o : MemoryOutcome) (msg : ConsistentMsg bytes i)
    (h : o.Ensures Sound fun _ => True) : (recordStep bytes i o msg).Ensures Sound fun _ => True :=
  h.bind fun _ sound => handleRecordMsg_sound sound msg.val

theorem recordStep_right (o : MemoryOutcome) (msg : ConsistentMsg bytes i)
    (sound : o.Ensures Sound fun _ => True) (h : RecordRight bytes o) :
    RecordRight bytes (recordStep bytes i o msg) ↔ ¬ Overwrites bytes i o msg := by
  cases o with
  | running m => exact handleRecordMsg_right sound h msg.property
  | aborted fault m => exact iff_of_true h id

theorem clearedRecord_sound (ballot : Ballot) (commandSlot : Value) (heap : Heap Value) :
    Sound (clearedRecord ballot commandSlot heap) where
  accepted := .inl ⟨rfl, rfl⟩
  null := fun _ => rfl
  slot := fun place => nomatch place
  live := fun _ _ place => nomatch place
  freed := fun _ place => nomatch place

theorem clearedRecord_right (ballot : Ballot) (commandSlot : Value) (heap : Heap Value) :
    RecordInvariant bytes (clearedRecord ballot commandSlot heap) :=
  (invariant_iff (clearedRecord_sound ballot commandSlot heap) 0).mpr ⟨rfl, rfl⟩

/-- The invariant holds after every message of a run, and no allocation is freed twice or used
after it was freed, exactly when nothing that was accepted is ever replaced. -/
theorem record_invariant_iff (bytes : CommandId → Value) (i : ℕ) (ballot : Ballot)
    (commandSlot : Value) (heap : Heap Value) (msgs : List (ConsistentMsg bytes i)) :
    Along (recordStep bytes i) (fun o msg => RecordRight bytes (recordStep bytes i o msg))
        (.running (clearedRecord ballot commandSlot heap)) msgs ↔
      Along (recordStep bytes i) (fun o msg => ¬ Overwrites bytes i o msg)
        (.running (clearedRecord ballot commandSlot heap)) msgs := by
  refine along_congr_of_met
    (fun o : MemoryOutcome => (o.Ensures Sound fun _ => True) ∧ RecordRight bytes o) ?_ ?_ ?_
  · exact ⟨clearedRecord_sound ballot commandSlot heap, clearedRecord_right ballot commandSlot heap⟩
  · exact fun o msg kept right => ⟨recordStep_sound o msg kept.1, right⟩
  · exact fun o msg kept => recordStep_right o msg kept.1 kept.2

/-- The commands of two proposals under different keys, each one byte. -/
def twoCommands : CommandId → Value := fun key => if key = ⟨1, 0, 1⟩ then [7] else [8]

/-- The second of two proposals is accepted: its pointer stays behind. -/
theorem replaced_keeps_pointer : ¬ Along (recordStep twoCommands 1)
    (fun o msg => RecordRight twoCommands (recordStep twoCommands 1 o msg))
    (.running (clearedRecord 0 [] Heap.empty))
    [⟨.commandMap ⟨1, ⟨1, 0, 1⟩, [7]⟩, by decide⟩, ⟨.phase2 ⟨1, 65792, 0, ⟨1, 0, 1⟩⟩, by decide⟩,
      ⟨.commandMap ⟨1, ⟨1, 0, 2⟩, [8]⟩, by decide⟩,
      ⟨.phase2 ⟨1, 131328, 0, ⟨1, 0, 2⟩⟩, by decide⟩] := by
  intro right
  have last := right.2.2.2.1
  exact absurd (Outcome.Ensures.mono last fun m _ inv => inv.proposedNull) (by decide +kernel)

end FdsPaxos.RingRecordInvariant
