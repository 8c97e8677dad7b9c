import FdsPaxos.HeapBlocks
import FdsPaxos.RingAcceptorMoves

set_option autoImplicit false

/-!
The record of one instance as it lies in memory, and the two handlers that move its commands:
`acceptor_handle_cmdmap_msg` and `acceptor_handle_phase2_msg` once the record was found.
-/

namespace FdsPaxos.RingRecordMemory
open TransitionRuns HeapBlocks RingConfig RingMessages RingStableStorage RingAcceptor
open RingAcceptorMoves

/-- Where a pointer of a record leads: to the command slot of the instance, or to a block that
`malloc` returned. -/
inductive CmdPointer where
  | null
  | slot
  | block (addr : ℕ)
deriving DecidableEq

/-- An `instance_record` with the memory that its pointers lead into, and what was sent. -/
structure RecordMemory where
  ballot : Ballot
  acceptBallot : Ballot
  acceptedCmdKey : CommandId
  acceptedCmdSize : ℕ
  acceptedCmd : CmdPointer
  proposedCmdKey : CommandId
  proposedCmdSize : ℕ
  proposedCmd : CmdPointer
  commandSlot : Value
  heap : Heap Value
  toSuccessor : List RingMsg

/-- The faults of the acceptor's model, and two that cannot be told there. -/
inductive MemoryFault where
  | stopped (cause : AcceptorFault)
  | acceptedSize
  | useAfterFree
deriving DecidableEq

abbrev MemoryOutcome := Outcome MemoryFault RecordMemory

/-- `memcpy` into the slot, whose remaining bytes stay. -/
def memcpySlot (m : RecordMemory) (value : Value) : RecordMemory :=
  { m with commandSlot := value ++ m.commandSlot.drop value.length }

/-- The first bytes behind a pointer; there are none behind one to a block that was freed. -/
def readCmd (m : RecordMemory) (p : CmdPointer) (n : ℕ) : Option Value :=
  if n = 0 then some []
  else
    match p with
    | .null => none
    | .slot => some (m.commandSlot.take n)
    | .block addr => (m.heap.block addr).map (List.take n)

/-- `size == msg->cmd_size && strncmp(cmd, msg->cmd_value, msg->cmd_size) == 0` -/
def sameCmd (m : RecordMemory) (p : CmdPointer) (size : ℕ) (value : Value) : Option Bool :=
  if size = value.length then
    (readCmd m p value.length).map fun cmd => decide (strncmpEqual cmd value value.length)
  else some false

def assertSame (m : RecordMemory) (p : CmdPointer) (size : ℕ) (value : Value) (expected : Bool)
    (cause : AcceptorFault) (next : MemoryOutcome) : MemoryOutcome :=
  match sameCmd m p size value with
  | none => .aborted .useAfterFree m
  | some same => if same = expected then next else .aborted (.stopped cause) m

/-- `free(ir->proposed_cmd)` -/
def freeProposedCmd (m : RecordMemory) (next : RecordMemory → MemoryOutcome) : MemoryOutcome :=
  match m.proposedCmd with
  | .null => next m
  | .slot => .aborted (.stopped .invalidFree) m
  | .block addr =>
    match m.heap.free addr with
    | none => .aborted (.stopped .invalidFree) m
    | some heap => next { m with heap := heap }

def mallocProposed (m : RecordMemory) (msg : CmdmapMsg) : RecordMemory :=
  { m with
    proposedCmd := .block m.heap.used
    proposedCmdSize := msg.cmdValue.length
    proposedCmdKey := msg.cmdKey
    heap := m.heap.malloc msg.cmdValue }

def dropProposed (m : RecordMemory) : RecordMemory :=
  { m with proposedCmd := .null, proposedCmdSize := 0, proposedCmdKey := clearCmdKey }

/-- `acceptor_handle_cmdmap_msg` -/
def handleCmdmapMsg (m : RecordMemory) (msg : CmdmapMsg) : MemoryOutcome :=
  if m.acceptedCmd ≠ .null ∧ msg.cmdKey = m.acceptedCmdKey then
    assertSame m m.acceptedCmd m.acceptedCmdSize msg.cmdValue true .acceptedDiffers <|
      if m.proposedCmd = .null then .running m
      else if m.proposedCmd = m.acceptedCmd then .aborted (.stopped .proposedIsAccepted) m
      else freeProposedCmd m fun m => .running (dropProposed m)
  else if m.proposedCmd ≠ .null ∧ msg.cmdKey = m.proposedCmdKey then
    assertSame m m.proposedCmd m.proposedCmdSize msg.cmdValue true .proposedDiffers (.running m)
  else if m.acceptedCmd = .null then
    if m.acceptedCmdSize = 0 then
      .running (memcpySlot
        { m with
          proposedCmd := .slot
          proposedCmdSize := msg.cmdValue.length
          proposedCmdKey := msg.cmdKey } msg.cmdValue)
    else .aborted .acceptedSize m
  else if m.proposedCmd = .null then .running (mallocProposed m msg)
  else
    assertSame m m.proposedCmd m.proposedCmdSize msg.cmdValue false .proposedSame <|
      freeProposedCmd m fun m => .running (mallocProposed m msg)

/-- Section `acceptor_p2_store_and_send`. -/
def p2StoreAndSend (m : RecordMemory) (msg : Phase2Msg) : MemoryOutcome :=
  .running { m with
    ballot := msg.ballot
    acceptBallot := msg.ballot
    toSuccessor := .phase2 { msg with acceptsCount := msg.acceptsCount + 1 } :: m.toSuccessor }

/-- The proposed command is copied over the accepted one, and its pointer is freed and kept. -/
def replaceAccepted (m : RecordMemory) (msg : Phase2Msg) : MemoryOutcome :=
  match readCmd m m.proposedCmd m.proposedCmdSize with
  | none => .aborted .useAfterFree m
  | some cmd =>
    freeProposedCmd
      (memcpySlot
        { m with
          acceptedCmdSize := m.proposedCmdSize
          acceptedCmdKey := m.proposedCmdKey
          proposedCmdSize := 0 } cmd)
      fun m => p2StoreAndSend { m with proposedCmdKey := clearCmdKey } msg

/-- `acceptor_handle_phase2_msg` -/
def handlePhase2Msg (m : RecordMemory) (msg : Phase2Msg) : MemoryOutcome :=
  if msg.ballot < m.ballot then .running m
  else if msg.cmdKey = m.proposedCmdKey ∧ msg.cmdKey = m.acceptedCmdKey then
    .aborted (.stopped .proposedAndAccepted) m
  else if ¬ msg.cmdKey = m.acceptedCmdKey ∧ ¬ msg.cmdKey = m.proposedCmdKey then .running m
  else if msg.cmdKey = m.acceptedCmdKey then
    if m.proposedCmd = .null then p2StoreAndSend m msg
    else if m.proposedCmd = .slot then .aborted (.stopped .proposedInSlot) m
    else freeProposedCmd m fun m => p2StoreAndSend (dropProposed m) msg
  else if m.acceptedCmd = .null then
    if m.proposedCmd = .slot then
      p2StoreAndSend
        (dropProposed
          { m with
            acceptedCmdKey := m.proposedCmdKey
            acceptedCmd := m.proposedCmd
            acceptedCmdSize := m.proposedCmdSize }) msg
    else .aborted (.stopped .proposedNotInSlot) m
  else if m.proposedCmd ≠ .null ∧ m.acceptedCmd ≠ m.proposedCmd then replaceAccepted m msg
  else .aborted (.stopped .replaceAccepted) m

inductive RecordMsg where
  | commandMap (msg : CmdmapMsg)
  | phase2 (msg : Phase2Msg)

def handleRecordMsg (m : RecordMemory) : RecordMsg → MemoryOutcome
  | .commandMap msg => handleCmdmapMsg m msg
  | .phase2 msg => handlePhase2Msg m msg

/-- The pointers of a record are used as the source means them: the accepted command is in the
slot, and what is proposed is there as well only as long as nothing is accepted.  A pointer
to a block that was freed goes with the size 0. -/
structure Sound (m : RecordMemory) : Prop where
  accepted : m.acceptedCmd = .null ∧ m.acceptedCmdSize = 0 ∨
    m.acceptedCmd = .slot ∧ m.acceptedCmdSize ≤ m.commandSlot.length
  null : m.proposedCmd = .null → m.proposedCmdSize = 0
  slot : m.proposedCmd = .slot →
    m.acceptedCmd = .null ∧ m.proposedCmdSize ≤ m.commandSlot.length
  live : ∀ addr cmd, m.proposedCmd = .block addr → m.heap.block addr = some cmd →
    cmd.length = m.proposedCmdSize
  freed : ∀ addr, m.proposedCmd = .block addr → m.heap.block addr = none → m.proposedCmdSize = 0

def shownProposed (m : RecordMemory) : ProposedCmd :=
  match m.proposedCmd with
  | .null => .null
  | .slot => .inSlot (m.commandSlot.take m.proposedCmdSize)
  | .block addr =>
    match m.heap.block addr with
    | none => .freed
    | some cmd => .allocated cmd

def shown (m : RecordMemory) (instNumber : ℕ) : InstanceRecord where
  instNumber := instNumber
  ballot := m.ballot
  acceptBallot := m.acceptBallot
  acceptedCmdKey := m.acceptedCmdKey
  acceptedCmd :=
    if m.acceptedCmd = .null then none else some (m.commandSlot.take m.acceptedCmdSize)
  proposedCmdKey := m.proposedCmdKey
  proposedCmd := shownProposed m

def shownFault : MemoryFault → Option AcceptorFault
  | .stopped cause => some cause
  | .acceptedSize | .useAfterFree => none

def Shows (cfg : Config) (instNumber : ℕ) : MemoryOutcome → AcceptorOutcome → Prop
  | .running m, .running s => Sound m ∧ s.record cfg instNumber = shown m instNumber ∧
    s.toSuccessor = m.toSuccessor
  | .aborted fault _, .aborted fault' _ => shownFault fault = some fault'
  | .running _, .aborted _ _ | .aborted _ _, .running _ => False

variable {cfg : Config} {m : RecordMemory} {s : RingAcceptor}

theorem memcpySlot_length (m : RecordMemory) (value : Value) :
    value.length ≤ (memcpySlot m value).commandSlot.length := by
  simp [memcpySlot]

theorem readCmd_slot (m : RecordMemory) (n : ℕ) :
    readCmd m .slot n = some (m.commandSlot.take n) := by
  unfold readCmd
  split_ifs with empty
  · simp [empty]
  · rfl

theorem readCmd_block {addr : ℕ} {cmd : Value} (live : m.heap.block addr = some cmd) :
    readCmd m (.block addr) cmd.length = some cmd := by
  unfold readCmd
  split_ifs with empty
  · rw [List.eq_nil_of_length_eq_zero empty]
  · simp [live]

theorem sameCmd_of_read {p : CmdPointer} {cmd : Value} (read : readCmd m p cmd.length = some cmd)
    (value : Value) : sameCmd m p cmd.length value = some (decide (sameCommand cmd value)) := by
  unfold sameCmd
  by_cases same : cmd.length = value.length
  · have compared : sameCommand cmd value ↔ strncmpEqual cmd value value.length :=
      and_iff_right same
    rw [if_pos same, ← same, read, Option.map_some, same]
    simp only [compared]
  · have differs : ¬ sameCommand cmd value := fun h => same h.1
    rw [if_neg same, decide_eq_false differs]

theorem Sound.readProposed (h : Sound m) :
    m.proposedCmdSize = (shownProposed m).cmd.length ∧
      readCmd m m.proposedCmd (shownProposed m).cmd.length = some (shownProposed m).cmd := by
  unfold shownProposed
  cases place : m.proposedCmd with
  | null => exact ⟨h.null place, rfl⟩
  | slot =>
    have fits := (h.slot place).2
    have length : (m.commandSlot.take m.proposedCmdSize).length = m.proposedCmdSize := by
      simpa using fits
    exact ⟨length.symm, by rw [readCmd_slot, ProposedCmd.cmd, length]⟩
  | block addr =>
    cases found : m.heap.block addr with
    | none =>
      simp only [found]
      exact ⟨h.freed addr place found, rfl⟩
    | some cmd =>
      simp only [found]
      exact ⟨(h.live addr cmd place found).symm, readCmd_block found⟩

theorem Sound.sameProposed (h : Sound m) (value : Value) :
    sameCmd m m.proposedCmd m.proposedCmdSize value =
      some (decide (sameCommand (shownProposed m).cmd value)) := by
  obtain ⟨size, read⟩ := h.readProposed
  rw [size, sameCmd_of_read read]

theorem Sound.sameAccepted (h : Sound m) (accepted : m.acceptedCmd ≠ .null) (value : Value) :
    sameCmd m m.acceptedCmd m.acceptedCmdSize value =
      some (decide (sameCommand (m.commandSlot.take m.acceptedCmdSize) value)) := by
  obtain ⟨none, -⟩ | ⟨place, fits⟩ := h.accepted
  · exact absurd none accepted
  · have length : (m.commandSlot.take m.acceptedCmdSize).length = m.acceptedCmdSize := by
      simpa using fits
    have read : readCmd m .slot (m.commandSlot.take m.acceptedCmdSize).length =
        some (m.commandSlot.take m.acceptedCmdSize) := by
      rw [readCmd_slot, length]
    have compared := sameCmd_of_read read value
    rw [length] at compared
    rw [place, compared]

theorem shownProposed_null : shownProposed m = .null ↔ m.proposedCmd = .null := by
  unfold shownProposed
  cases m.proposedCmd with
  | null => simp
  | slot => simp
  | block addr => cases found : m.heap.block addr <;> simp [found]

theorem freeProposed_shows {i : ℕ} {ir : InstanceRecord} (shows_ : ir.proposedCmd = shownProposed m)
    {next : RecordMemory → MemoryOutcome} {next' : AcceptorOutcome}
    (rest : ∀ heap, (∀ addr, m.proposedCmd = .block addr → heap.block addr = none) →
      Shows cfg i (next { m with heap := heap }) next') :
    Shows cfg i (freeProposedCmd m next) (freeProposed s ir next') := by
  unfold freeProposedCmd freeProposed
  rw [shows_]
  unfold shownProposed
  cases place : m.proposedCmd with
  | null => exact rest m.heap fun addr there => nomatch place.symm.trans there
  | slot => exact rfl
  | block addr =>
    cases found : m.heap.block addr with
    | none =>
      simp only [found, Heap.free_of_none found]
      exact rfl
    | some cmd =>
      have freed := Heap.free_of_block found
      have gone := Heap.free_gone freed
      simp only [found, freed]
      refine place ▸ rest _ fun addr' there => ?_
      cases place.symm.trans there
      exact gone

theorem assertSame_met {p : CmdPointer} {size : ℕ} {value : Value} {expected : Bool}
    (same : sameCmd m p size value = some expected) (cause : AcceptorFault)
    (next : MemoryOutcome) : assertSame m p size value expected cause next = next := by
  unfold assertSame
  rw [same]
  exact if_pos rfl

theorem assertSame_failed {p : CmdPointer} {size : ℕ} {value : Value} {expected found : Bool}
    (same : sameCmd m p size value = some found) (differs : found ≠ expected)
    (cause : AcceptorFault) (next : MemoryOutcome) :
    assertSame m p size value expected cause next = .aborted (.stopped cause) m := by
  unfold assertSame
  rw [same]
  exact if_neg differs

theorem Sound.dropProposed (h : Sound m) (heap : Heap Value) :
    Sound (dropProposed { m with heap := heap }) where
  accepted := h.accepted
  null := fun _ => rfl
  slot := fun place => nomatch place
  live := fun _ _ place => nomatch place
  freed := fun _ place => nomatch place

theorem Sound.mallocProposed (h : Sound m) (heap : Heap Value) (msg : CmdmapMsg) :
    Sound (mallocProposed { m with heap := heap } msg) where
  accepted := h.accepted
  null := fun place => nomatch place
  slot := fun place => nomatch place
  live := by
    intro addr cmd place found
    cases place
    rw [RingRecordMemory.mallocProposed, Heap.malloc_block] at found
    cases found
    rfl
  freed := by
    intro addr place found
    cases place
    rw [RingRecordMemory.mallocProposed, Heap.malloc_block] at found
    cases found

theorem shown_mallocProposed (m : RecordMemory) (msg : CmdmapMsg) (i : ℕ) :
    shown (mallocProposed m msg) i =
      { shown m i with
        proposedCmdKey := msg.cmdKey
        proposedCmd := .allocated msg.cmdValue } := by
  simp only [shown, shownProposed, mallocProposed, Heap.malloc_block]
  rfl

@[simp] theorem shown_acceptedCmdKey (m : RecordMemory) (i : ℕ) :
    (shown m i).acceptedCmdKey = m.acceptedCmdKey := rfl

@[simp] theorem shown_proposedCmdKey (m : RecordMemory) (i : ℕ) :
    (shown m i).proposedCmdKey = m.proposedCmdKey := rfl

theorem shown_accepted (m : RecordMemory) (i : ℕ) :
    (shown m i).acceptedCmd = none ↔ m.acceptedCmd = .null := by
  unfold shown
  split_ifs with none <;> simp [none]

theorem withRecord_shows {i : ℕ} {ir : InstanceRecord} {m' : RecordMemory} (sound : Sound m')
    (same : ir = shown m' i) (sent : s.toSuccessor = m'.toSuccessor) :
    Shows cfg i (.running m') (.running (s.withRecord (ssmSlot cfg i) ir)) :=
  ⟨sound, by rw [record_withRecord, same], sent⟩

theorem Sound.shape (h : Sound m) (accepted : m.acceptedCmd ≠ .null)
    (proposed : m.proposedCmd ≠ .null) :
    m.proposedCmd ≠ .slot ∧ (shownProposed m = .freed ∨ ∃ cmd, shownProposed m = .allocated cmd) := by
  have apart : m.proposedCmd ≠ .slot := fun place => accepted (h.slot place).1
  refine ⟨apart, ?_⟩
  unfold shownProposed
  cases place : m.proposedCmd with
  | null => exact absurd place proposed
  | slot => exact absurd place apart
  | block addr => cases found : m.heap.block addr <;> simp [found]

theorem knownAccepted_shows {msg : CmdmapMsg} (h : Sound m)
    (own : s.record cfg msg.instNumber = shown m msg.instNumber)
    (sent : s.toSuccessor = m.toSuccessor) (accepted : m.acceptedCmd ≠ .null) :
    Shows cfg msg.instNumber
      (assertSame m m.acceptedCmd m.acceptedCmdSize msg.cmdValue true .acceptedDiffers <|
        if m.proposedCmd = .null then .running m
        else if m.proposedCmd = m.acceptedCmd then .aborted (.stopped .proposedIsAccepted) m
        else freeProposedCmd m fun m => .running (dropProposed m))
      (knownAccepted cfg s msg (shown m msg.instNumber)
        (m.commandSlot.take m.acceptedCmdSize)) := by
  have compared := h.sameAccepted accepted msg.cmdValue
  unfold knownAccepted
  by_cases same : sameCommand (m.commandSlot.take m.acceptedCmdSize) msg.cmdValue
  · rw [decide_eq_true same] at compared
    rw [assertSame_met compared, if_neg (not_not.mpr same)]
    by_cases null : m.proposedCmd = .null
    · have null' : (shown m msg.instNumber).proposedCmd = .null := shownProposed_null.mpr null
      rw [if_pos null, null']
      exact ⟨h, own, sent⟩
    · obtain ⟨apart, shape⟩ := h.shape accepted null
      have notSame : m.proposedCmd ≠ m.acceptedCmd := by
        obtain ⟨none, -⟩ | ⟨place, -⟩ := h.accepted
        · exact absurd none accepted
        · exact place ▸ apart
      rw [if_neg null, if_neg notSame]
      have freed : Shows cfg msg.instNumber
          (freeProposedCmd m fun m => .running (dropProposed m))
          (freeProposed s (shown m msg.instNumber) (.running (s.withRecord
            (ssmSlot cfg msg.instNumber) (clearProposed (shown m msg.instNumber))))) :=
        freeProposed_shows rfl fun heap _ => withRecord_shows (h.dropProposed heap) rfl sent
      obtain shape | ⟨cmd, shape⟩ := shape
      · have shape' : (shown m msg.instNumber).proposedCmd = .freed := shape
        simpa only [shape'] using freed
      · have shape' : (shown m msg.instNumber).proposedCmd = .allocated cmd := shape
        simpa only [shape'] using freed
  · rw [decide_eq_false same] at compared
    rw [assertSame_failed compared Bool.false_ne_true, if_pos same]
    exact rfl

theorem storedAgain_shows {msg : CmdmapMsg} (h : Sound m)
    (own : s.record cfg msg.instNumber = shown m msg.instNumber)
    (sent : s.toSuccessor = m.toSuccessor) :
    Shows cfg msg.instNumber
      (assertSame m m.proposedCmd m.proposedCmdSize msg.cmdValue true .proposedDiffers (.running m))
      (if sameCommand (shown m msg.instNumber).proposedCmd.cmd msg.cmdValue then .running s
        else .aborted .proposedDiffers s) := by
  have compared := h.sameProposed msg.cmdValue
  by_cases same : sameCommand (shownProposed m).cmd msg.cmdValue
  · rw [decide_eq_true same] at compared
    have kept : Shows cfg msg.instNumber (.running m) (.running s) := ⟨h, own, sent⟩
    rw [assertSame_met compared]
    exact (if_pos same).symm ▸ kept
  · rw [decide_eq_false same] at compared
    rw [assertSame_failed compared Bool.false_ne_true]
    exact (if_neg same).symm ▸ rfl

theorem saveInSlot_shows {msg : CmdmapMsg} (none : m.acceptedCmd = .null)
    (size : m.acceptedCmdSize = 0) (sent : s.toSuccessor = m.toSuccessor) :
    Shows cfg msg.instNumber
      (.running (memcpySlot
        { m with
          proposedCmd := .slot
          proposedCmdSize := msg.cmdValue.length
          proposedCmdKey := msg.cmdKey } msg.cmdValue))
      (.running (saveInSlot cfg s msg (shown m msg.instNumber))) := by
  refine withRecord_shows ⟨.inl ⟨none, size⟩, ?_, ?_, ?_, ?_⟩ ?_ sent
  · exact fun place => nomatch place
  · exact fun _ => ⟨none, memcpySlot_length m msg.cmdValue⟩
  · exact fun _ _ place => nomatch place
  · exact fun _ place => nomatch place
  · simp [shown, shownProposed, none, memcpySlot]

theorem saveSecondary_shows {msg : CmdmapMsg} (h : Sound m)
    (sent : s.toSuccessor = m.toSuccessor) :
    Shows cfg msg.instNumber
      (if m.proposedCmd = .null then .running (mallocProposed m msg)
        else assertSame m m.proposedCmd m.proposedCmdSize msg.cmdValue false .proposedSame <|
          freeProposedCmd m fun m => .running (mallocProposed m msg))
      (if (shown m msg.instNumber).proposedCmd = .null then
          .running (saveSecondary cfg s msg (shown m msg.instNumber))
        else if sameCommand (shown m msg.instNumber).proposedCmd.cmd msg.cmdValue then
          .aborted .proposedSame s
        else freeProposed s (shown m msg.instNumber)
          (.running (saveSecondary cfg s msg (shown m msg.instNumber)))) := by
  have null : (shown m msg.instNumber).proposedCmd = .null ↔ m.proposedCmd = .null :=
    shownProposed_null
  have compared := h.sameProposed msg.cmdValue
  have ownBlock (heap : Heap Value) : Shows cfg msg.instNumber
      (.running (mallocProposed { m with heap := heap } msg))
      (.running (saveSecondary cfg s msg (shown m msg.instNumber))) :=
    withRecord_shows (h.mallocProposed heap msg)
      (shown_mallocProposed { m with heap := heap } msg msg.instNumber).symm sent
  by_cases empty : m.proposedCmd = .null
  · rw [if_pos empty, if_pos (null.mpr empty)]
    exact ownBlock m.heap
  · rw [if_neg empty, if_neg (mt null.mp empty)]
    by_cases same : sameCommand (shownProposed m).cmd msg.cmdValue
    · rw [decide_eq_true same] at compared
      rw [assertSame_failed compared (by decide)]
      exact (if_pos same).symm ▸ rfl
    · rw [decide_eq_false same] at compared
      rw [assertSame_met compared]
      exact (if_neg same).symm ▸ freeProposed_shows rfl fun heap _ => ownBlock heap

/-- A mapping does to the record in memory what it does in the acceptor's model. -/
theorem handleCmdmapMsg_shows {msg : CmdmapMsg} (h : Sound m)
    (own : s.record cfg msg.instNumber = shown m msg.instNumber)
    (sent : s.toSuccessor = m.toSuccessor) :
    Shows cfg msg.instNumber (handleCmdmapMsg m msg)
      (acceptorSaveMap cfg s msg (shown m msg.instNumber)) := by
  -- the tests of the two handlers agree
  have accepted : (shown m msg.instNumber).acceptedCmd = none ↔ m.acceptedCmd = .null :=
    shown_accepted m _
  have someAccepted : (shown m msg.instNumber).acceptedCmd.isSome ↔ m.acceptedCmd ≠ .null := by
    rw [Option.isSome_iff_ne_none, ne_eq, accepted]
  have knownIff : (shown m msg.instNumber).acceptedCmd.isSome ∧
      msg.cmdKey = (shown m msg.instNumber).acceptedCmdKey ↔
        m.acceptedCmd ≠ .null ∧ msg.cmdKey = m.acceptedCmdKey := and_congr_left fun _ => someAccepted
  have storedIff : (shown m msg.instNumber).proposedCmd ≠ .null ∧
      msg.cmdKey = (shown m msg.instNumber).proposedCmdKey ↔
        m.proposedCmd ≠ .null ∧ msg.cmdKey = m.proposedCmdKey :=
    and_congr_left fun _ => not_congr shownProposed_null
  unfold handleCmdmapMsg acceptorSaveMap
  by_cases known : m.acceptedCmd ≠ .null ∧ msg.cmdKey = m.acceptedCmdKey
  · have value : (shown m msg.instNumber).acceptedCmd.getD [] =
        m.commandSlot.take m.acceptedCmdSize := by
      simp [shown, known.1]
    rw [if_pos known, if_pos (knownIff.mpr known), value]
    exact knownAccepted_shows h own sent known.1
  rw [if_neg known, if_neg (mt knownIff.mp known)]
  by_cases stored : m.proposedCmd ≠ .null ∧ msg.cmdKey = m.proposedCmdKey
  · rw [if_pos stored, if_pos (storedIff.mpr stored)]
    exact storedAgain_shows h own sent
  rw [if_neg stored, if_neg (mt storedIff.mp stored)]
  by_cases none : m.acceptedCmd = .null
  · have size : m.acceptedCmdSize = 0 := by
      obtain ⟨-, size⟩ | ⟨place, -⟩ := h.accepted
      · exact size
      · cases none.symm.trans place
    rw [if_pos none, if_pos (accepted.mpr none), if_pos size]
    exact saveInSlot_shows none size sent
  · rw [if_neg none, if_neg (mt accepted.mp none)]
    exact saveSecondary_shows h sent

theorem acceptorP2StoreAndSend_record (cfg : Config) (s : RingAcceptor) (msg : Phase2Msg)
    (ir : InstanceRecord) :
    (acceptorP2StoreAndSend cfg s msg ir).state.record cfg msg.instNumber =
      { ir with ballot := msg.ballot, acceptBallot := msg.ballot } :=
  CircularWindow.setSlot_self _ _ _

theorem p2StoreAndSend_shows {msg : Phase2Msg} {ir : InstanceRecord} (h : Sound m)
    (same : ir = shown m msg.instNumber) (sent : s.toSuccessor = m.toSuccessor) :
    Shows cfg msg.instNumber (p2StoreAndSend m msg) (acceptorP2StoreAndSend cfg s msg ir) := by
  refine ⟨⟨h.accepted, h.null, h.slot, h.live, h.freed⟩, ?_, congrArg (_ :: ·) sent⟩
  have stored := acceptorP2StoreAndSend_record cfg s msg ir
  exact stored.trans (same ▸ rfl)

theorem Sound.replaceAccepted_shows (cfg : Config) (msg : Phase2Msg) (h : Sound m) {addr : ℕ}
    (accepted : m.acceptedCmd = .slot) (place : m.proposedCmd = .block addr)
    (sent : s.toSuccessor = m.toSuccessor) :
    Shows cfg msg.instNumber (replaceAccepted m msg)
      (freeProposed s (shown m msg.instNumber) (acceptorP2StoreAndSend cfg s msg
        { shown m msg.instNumber with
          acceptedCmdKey := (shown m msg.instNumber).proposedCmdKey
          acceptedCmd := some (shown m msg.instNumber).proposedCmd.cmd
          proposedCmdKey := clearCmdKey
          proposedCmd := .freed })) := by
  obtain ⟨size, read⟩ := h.readProposed
  rw [← size] at read
  unfold replaceAccepted
  rw [read]
  refine freeProposed_shows ?_ fun heap gone => p2StoreAndSend_shows ?_ ?_ sent
  · simp [shown, shownProposed, memcpySlot, place]
  · have gone' : heap.block addr = none := gone addr place
    refine ⟨.inr ⟨accepted, ?_⟩, fun _ => rfl, ?_, ?_, fun _ _ _ => rfl⟩
    · exact size ▸ memcpySlot_length _ _
    · exact fun there => nomatch place.symm.trans there
    · intro addr' cmd there found
      cases place.symm.trans there
      exact nomatch gone'.symm.trans found
  · have gone' : heap.block addr = none := gone addr place
    simp [shown, shownProposed, memcpySlot, place, gone', accepted, size]

theorem acceptAgain_shows {msg : Phase2Msg} (h : Sound m) (sent : s.toSuccessor = m.toSuccessor)
    (inTime : ¬ msg.ballot < m.ballot) (again : msg.cmdKey = m.acceptedCmdKey)
    (other : ¬ msg.cmdKey = m.proposedCmdKey) :
    Shows cfg msg.instNumber (handlePhase2Msg m msg)
      (acceptorAccept cfg s msg (shown m msg.instNumber)) := by
  have both : ¬ (msg.cmdKey = m.proposedCmdKey ∧ msg.cmdKey = m.acceptedCmdKey) :=
    fun h => other h.1
  have neither : ¬ (¬ msg.cmdKey = m.acceptedCmdKey ∧ ¬ msg.cmdKey = m.proposedCmdKey) :=
    fun h => h.1 again
  have shape : (shown m msg.instNumber).proposedCmd = shownProposed m := rfl
  unfold handlePhase2Msg acceptorAccept
  dsimp only
  rw [shown_acceptedCmdKey, shown_proposedCmdKey, if_neg inTime, if_neg both, if_neg neither,
    if_pos again, if_neg both, if_neg neither, if_pos again, shape]
  have dropped : Shows cfg msg.instNumber
      (freeProposedCmd m fun m => p2StoreAndSend (dropProposed m) msg)
      (freeProposed (seeInstance s msg.instNumber) (shown m msg.instNumber)
        (acceptorP2StoreAndSend cfg (seeInstance s msg.instNumber) msg
          (clearProposed (shown m msg.instNumber)))) :=
    freeProposed_shows rfl fun heap _ => p2StoreAndSend_shows (h.dropProposed heap) rfl sent
  cases place : m.proposedCmd with
  | null =>
    rw [if_pos rfl, shownProposed_null.mpr place]
    exact p2StoreAndSend_shows h rfl sent
  | slot =>
    rw [if_neg (by simp), if_pos rfl]
    simp only [shownProposed, place]
    exact rfl
  | block addr =>
    rw [if_neg (by simp), if_neg (by simp)]
    cases found : m.heap.block addr <;> simp only [shownProposed, place, found] <;> exact dropped

theorem acceptStored_shows {msg : Phase2Msg} (h : Sound m) (sent : s.toSuccessor = m.toSuccessor)
    (inTime : ¬ msg.ballot < m.ballot) (again : ¬ msg.cmdKey = m.acceptedCmdKey)
    (stored : msg.cmdKey = m.proposedCmdKey) :
    Shows cfg msg.instNumber (handlePhase2Msg m msg)
      (acceptorAccept cfg s msg (shown m msg.instNumber)) := by
  have both : ¬ (msg.cmdKey = m.proposedCmdKey ∧ msg.cmdKey = m.acceptedCmdKey) :=
    fun h => again h.2
  have neither : ¬ (¬ msg.cmdKey = m.acceptedCmdKey ∧ ¬ msg.cmdKey = m.proposedCmdKey) :=
    fun h => h.2 stored
  have shape : (shown m msg.instNumber).proposedCmd = shownProposed m := rfl
  unfold handlePhase2Msg acceptorAccept
  dsimp only
  rw [shown_acceptedCmdKey, shown_proposedCmdKey, if_neg inTime, if_neg both, if_neg neither,
    if_neg again, if_neg both, if_neg neither, if_neg again]
  obtain ⟨unset, size⟩ | ⟨accepted, fits⟩ := h.accepted
  · have unset' : (shown m msg.instNumber).acceptedCmd = none := (shown_accepted m _).mpr unset
    rw [if_pos unset, unset']
    cases place : m.proposedCmd with
    | null =>
      rw [if_neg (by simp), shape, shownProposed_null.mpr place]
      exact rfl
    | slot =>
      obtain ⟨-, fits⟩ := h.slot place
      rw [if_pos rfl]
      simp only [shape, shownProposed, place]
      refine p2StoreAndSend_shows ⟨.inr ⟨rfl, fits⟩, fun _ => rfl, ?_, ?_, ?_⟩ rfl sent
      · exact fun there => absurd there (by simp [dropProposed])
      · exact fun _ _ there => absurd there (by simp [dropProposed])
      · exact fun _ there => absurd there (by simp [dropProposed])
    | block addr =>
      rw [if_neg (by simp)]
      cases found : m.heap.block addr <;> simp only [shape, shownProposed, place, found] <;>
        exact rfl
  · have set : m.acceptedCmd ≠ .null := by
      rw [accepted]
      decide
    have set' : (shown m msg.instNumber).acceptedCmd =
        some (m.commandSlot.take m.acceptedCmdSize) := if_neg set
    rw [if_neg set, set']
    cases place : m.proposedCmd with
    | null =>
      rw [if_neg (by simp), shape, shownProposed_null.mpr place]
      exact rfl
    | slot => exact absurd (h.slot place).1 set
    | block addr =>
      have replaced := Sound.replaceAccepted_shows cfg msg h
        (s := seeInstance s msg.instNumber) accepted place sent
      rw [if_pos ⟨by simp, by simp [accepted]⟩]
      cases found : m.heap.block addr <;> simp only [shape, shownProposed, place, found] <;>
        simpa only [shape, shownProposed, place, found, shown_proposedCmdKey] using replaced

/-- An accept does to the record in memory what it does in the acceptor's model. -/
theorem handlePhase2Msg_shows {msg : Phase2Msg} (h : Sound m)
    (own : s.record cfg msg.instNumber = shown m msg.instNumber)
    (sent : s.toSuccessor = m.toSuccessor) :
    Shows cfg msg.instNumber (handlePhase2Msg m msg)
      (if msg.ballot < (shown m msg.instNumber).ballot then .running s
        else acceptorAccept cfg s msg (shown m msg.instNumber)) := by
  have kept : Shows cfg msg.instNumber (.running m) (.running s) := ⟨h, own, sent⟩
  by_cases refused : msg.ballot < m.ballot
  · unfold handlePhase2Msg
    rw [if_pos refused]
    exact (if_pos refused).symm ▸ kept
  rw [if_neg (show ¬ msg.ballot < (shown m msg.instNumber).ballot from refused)]
  by_cases again : msg.cmdKey = m.acceptedCmdKey <;>
    by_cases stored : msg.cmdKey = m.proposedCmdKey
  · unfold handlePhase2Msg acceptorAccept
    dsimp only
    rw [shown_acceptedCmdKey, shown_proposedCmdKey, if_neg refused, if_pos ⟨stored, again⟩,
      if_pos ⟨stored, again⟩]
    exact rfl
  · exact acceptAgain_shows h sent refused again stored
  · exact acceptStored_shows h sent refused again stored
  · have both : ¬ (msg.cmdKey = m.proposedCmdKey ∧ msg.cmdKey = m.acceptedCmdKey) :=
      fun h => again h.2
    unfold handlePhase2Msg acceptorAccept
    dsimp only
    rw [shown_acceptedCmdKey, shown_proposedCmdKey, if_neg refused, if_neg both,
      if_pos ⟨again, stored⟩, if_neg both, if_pos ⟨again, stored⟩]
    exact kept

def handleShown (cfg : Config) (s : RingAcceptor) : RecordMsg → AcceptorOutcome
  | .commandMap msg => acceptorHandleCmdmapMsg cfg s msg
  | .phase2 msg => acceptorHandlePhase2Msg cfg s msg

def RecordMsg.instNumber : RecordMsg → ℕ
  | .commandMap msg => msg.instNumber
  | .phase2 msg => msg.instNumber

theorem handleRecordMsg_shows {msg : RecordMsg} (h : Sound m)
    (own : s.record cfg msg.instNumber = shown m msg.instNumber)
    (sent : s.toSuccessor = m.toSuccessor) :
    Shows cfg msg.instNumber (handleRecordMsg m msg) (handleShown cfg s msg) := by
  have inst : (s.record cfg msg.instNumber).instNumber = msg.instNumber := own ▸ rfl
  obtain ⟨t, got⟩ : ∃ t, ssmGetRecord cfg s msg.instNumber = .running t :=
    ⟨_, Outcome.running_of_isRunning (ssmGetRecord_isRunning.mpr inst.le)⟩
  obtain ⟨-, -, silent⟩ := ssmGetRecord_readied got
  have found : t.record cfg msg.instNumber = shown m msg.instNumber := by
    rw [ssmGetRecord_record got, readied_of_own inst, own]
  cases msg with
  | commandMap msg =>
    have shows_ := handleCmdmapMsg_shows h found (silent.trans sent)
    change Shows cfg msg.instNumber (handleCmdmapMsg m msg)
      ((ssmGetRecord cfg s msg.instNumber).bind _)
    rw [show ssmGetRecord cfg s msg.instNumber = _ from got, Outcome.bind_running]
    exact (show t.record cfg msg.instNumber = _ from found) ▸ shows_
  | phase2 msg =>
    have shows_ := handlePhase2Msg_shows h found (silent.trans sent)
    change Shows cfg msg.instNumber (handlePhase2Msg m msg)
      ((ssmGetRecord cfg s msg.instNumber).bind _)
    rw [show ssmGetRecord cfg s msg.instNumber = _ from got, Outcome.bind_running]
    exact (show t.record cfg msg.instNumber = _ from found) ▸ shows_

end FdsPaxos.RingRecordMemory
