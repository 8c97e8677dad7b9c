import FdsPaxos.RingRecordInvariant

set_option autoImplicit false

namespace FdsPaxos.RingMappingAborts
open TransitionRuns RingConfig RingMessages RingStableStorage RingAcceptor RingAcceptorMoves
open RingRecordInvariant

/-- Beside what was accepted a third command comes, and it looks like the one proposed: as
long, and equal up to the first zero byte. -/
structure LooksProposed (ir : InstanceRecord) (msg : CmdmapMsg) : Prop where
  accepted : ir.acceptedCmd ≠ none
  proposed : ir.proposedCmd ≠ .null
  notAccepted : msg.cmdKey ≠ ir.acceptedCmdKey
  notProposed : msg.cmdKey ≠ ir.proposedCmdKey
  same : sameCommand ir.proposedCmd.cmd msg.cmdValue

variable {bytes : CommandId → Value} {cfg : Config} {s : RingAcceptor} {msg : CmdmapMsg}
  {ir : InstanceRecord}

theorem accepted_bytes (h : Represents bytes ir) (set : ir.acceptedCmd.isSome) :
    ir.acceptedCmd.getD [] = bytes ir.acceptedCmdKey := by
  obtain ⟨cmd, found⟩ := Option.isSome_iff_exists.mp set
  have fits := h.accepted
  unfold AcceptedFits at fits
  rw [found] at fits
  rw [found]
  exact fits.2

theorem proposed_bytes (h : Represents bytes ir) (set : ir.proposedCmd ≠ .null) :
    ir.proposedCmd.cmd = bytes ir.proposedCmdKey := by
  have fits := h.proposed
  unfold ProposedFits at fits
  cases shape : ir.proposedCmd with
  | null => exact absurd shape set
  | inSlot cmd =>
    rw [shape] at fits
    exact fits.2.2
  | allocated cmd =>
    rw [shape] at fits
    exact fits.2.2.2
  | freed =>
    rw [shape] at fits
    exact fits.elim

theorem proposed_notInSlot (h : Represents bytes ir) (set : ir.acceptedCmd ≠ none)
    (cmd : Value) : ir.proposedCmd ≠ .inSlot cmd := by
  intro shape
  have fits := h.proposed
  unfold ProposedFits at fits
  rw [shape] at fits
  exact set fits.1

theorem acceptorSaveMap_isRunning (h : Represents bytes ir)
    (consistent : msg.cmdValue = bytes msg.cmdKey) :
    (acceptorSaveMap cfg s msg ir).IsRunning ↔ ¬ LooksProposed ir msg := by
  unfold acceptorSaveMap
  by_cases known : ir.acceptedCmd.isSome ∧ msg.cmdKey = ir.acceptedCmdKey
  · have set : ir.acceptedCmd ≠ none := Option.isSome_iff_ne_none.mp known.1
    have same : sameCommand (ir.acceptedCmd.getD []) msg.cmdValue := by
      rw [accepted_bytes h known.1, consistent, known.2]
      exact sameCommand_refl _
    rw [if_pos known]
    refine iff_of_true ?_ fun looks => looks.notAccepted known.2
    unfold knownAccepted
    rw [if_neg (not_not.mpr same)]
    split
    · trivial
    · exact absurd ‹_› (proposed_notInSlot h set _)
    · rw [h.freeProposed set]
      trivial
    · rw [h.freeProposed set]
      trivial
  · rw [if_neg known]
    by_cases stored : ir.proposedCmd ≠ .null ∧ msg.cmdKey = ir.proposedCmdKey
    · have same : sameCommand ir.proposedCmd.cmd msg.cmdValue := by
        rw [proposed_bytes h stored.1, consistent, stored.2]
        exact sameCommand_refl _
      rw [if_pos stored, if_pos same]
      exact iff_of_true trivial fun looks => looks.notProposed stored.2
    · rw [if_neg stored]
      by_cases unset : ir.acceptedCmd = none
      · rw [if_pos unset]
        exact iff_of_true trivial fun looks => looks.accepted unset
      · have notAccepted : msg.cmdKey ≠ ir.acceptedCmdKey := fun key =>
          known ⟨Option.isSome_iff_ne_none.mpr unset, key⟩
        rw [if_neg unset]
        by_cases null : ir.proposedCmd = .null
        · rw [if_pos null]
          exact iff_of_true trivial fun looks => looks.proposed null
        · rw [if_neg null]
          by_cases same : sameCommand ir.proposedCmd.cmd msg.cmdValue
          · rw [if_pos same]
            refine iff_of_false id (not_not.mpr ?_)
            exact ⟨unset, null, notAccepted, fun key => stored ⟨null, key⟩, same⟩
          · rw [if_neg same, h.freeProposed unset]
            exact iff_of_true trivial fun looks => same looks.same

/-- A mapping consistent with the others is handled without a failed assertion unless it looks
like the one stored beside the accepted command. -/
theorem mapping_handled_iff (bytes : CommandId → Value) (cfg : Config) (s : RingAcceptor)
    (msg : CmdmapMsg) (own : (s.record cfg msg.instNumber).instNumber = msg.instNumber)
    (h : Represents bytes (s.record cfg msg.instNumber))
    (consistent : msg.cmdValue = bytes msg.cmdKey) :
    (acceptorHandleCmdmapMsg cfg s msg).IsRunning ↔
      ¬ LooksProposed (s.record cfg msg.instNumber) msg := by
  obtain ⟨t, got⟩ : ∃ t, ssmGetRecord cfg s msg.instNumber = .running t :=
    ⟨_, Outcome.running_of_isRunning (ssmGetRecord_isRunning.mpr own.le)⟩
  have found : t.record cfg msg.instNumber = s.record cfg msg.instNumber := by
    rw [ssmGetRecord_record got, readied_of_own own]
  unfold acceptorHandleCmdmapMsg
  rw [got, Outcome.bind_running, found]
  exact acceptorSaveMap_isRunning h consistent

/-- Acceptor 2 has accepted a command of instance 1 and stored a second one beside it. -/
def secondaryStored : RingAcceptor :=
  (Outcome.fold (onMulticastMsg Config.small) (regularAcceptorInit 2)
    [.commandMap ⟨1, ⟨1, 0, 1⟩, [7]⟩, .phase2 ⟨1, 65792, 0, ⟨1, 0, 1⟩⟩,
      .commandMap ⟨1, ⟨1, 0, 2⟩, [8]⟩]).state

/-- A third command replaces the second one. -/
theorem third_mapping_handled :
    (acceptorHandleCmdmapMsg Config.small secondaryStored ⟨1, ⟨1, 0, 3⟩, [3]⟩).IsRunning := by
  refine (mapping_handled_iff (fun key => [7, 8, 3].getD (key.cmdSeqnum.toNat - 1) 0 :: [])
    Config.small secondaryStored ⟨1, ⟨1, 0, 3⟩, [3]⟩ (by decide) ⟨by decide, ?_⟩ (by decide)).mpr ?_
  · exact ⟨by decide, by decide, by decide, by decide⟩
  · exact fun looks => absurd looks.same (by decide)

/-- The third command is the same as the second, under another key. -/
theorem same_command_aborts : ∃ bytes : CommandId → Value,
    let msg : CmdmapMsg := ⟨1, ⟨1, 0, 3⟩, [8]⟩
    (secondaryStored.record Config.small 1).instNumber = 1 ∧
      Represents bytes (secondaryStored.record Config.small 1) ∧
      msg.cmdValue = bytes msg.cmdKey ∧
      ¬ (acceptorHandleCmdmapMsg Config.small secondaryStored msg).IsRunning := by
  refine ⟨fun key => if key = ⟨1, 0, 1⟩ then [7] else [8], by decide, ⟨by decide, ?_⟩, by decide,
    by decide⟩
  exact ⟨by decide, by decide, by decide, by decide⟩

end FdsPaxos.RingMappingAborts
