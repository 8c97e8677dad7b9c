import FdsPaxos.RingOneLife
import Mathlib.Order.Interval.Finset.Nat

set_option autoImplicit false

namespace FdsPaxos.RingChosen
open TransitionRuns CircularWindow RingConfig RingMessages RingStableStorage RingMcasterStorage
open RingMulticaster RingAcceptor RingWorld RingWindows RingOneLife

section Commands

open RingAcceptorMoves (Move Moves Accepts Saves)

structure OneMapping (mcast : List McastMsg) : Prop where
  one : ∀ m m', .commandMap m ∈ mcast → .commandMap m' ∈ mcast →
    m.instNumber = m'.instNumber → m = m'
  keyed : ∀ m, .commandMap m ∈ mcast → m.cmdKey ≠ clearCmdKey

structure RecordHeld (mcast : List McastMsg) (ir : InstanceRecord) : Prop where
  accepted : ∀ v, ir.acceptedCmd = some v →
    .commandMap ⟨ir.instNumber, ir.acceptedCmdKey, v⟩ ∈ mcast
  unaccepted : ir.acceptedCmd = none → ir.acceptedCmdKey = clearCmdKey
  proposed : ir.proposedCmd = .null ∧ ir.proposedCmdKey = clearCmdKey ∨
    ir.acceptedCmd = none ∧ ∃ v, ir.proposedCmd = .inSlot v ∧
      .commandMap ⟨ir.instNumber, ir.proposedCmdKey, v⟩ ∈ mcast
  unused : ir.instNumber = 0 → ir.acceptedCmd = none ∧ ir.proposedCmd = .null

/-- So do the commands that an acceptor has accepted, and it sends only what it accepted. -/
structure AcceptorHeld (mcast : List McastMsg) (s : RingAcceptor) : Prop where
  records : ∀ slot, RecordHeld mcast (s.instancesArray slot)
  deeds : ∀ i b k cmd, .accepted i b k cmd ∈ s.history →
    ∃ v, cmd = some v ∧ .commandMap ⟨i, k, v⟩ ∈ mcast

variable {cfg : Config} {C : RingAcceptorMoves.MoveCondition} {mcast mcast' : List McastMsg}
  {s t : RingAcceptor} {ir old : InstanceRecord}

theorem RecordHeld.mono (h : RecordHeld mcast ir) (grown : ∀ msg ∈ mcast, msg ∈ mcast') :
    RecordHeld mcast' ir where
  accepted := fun v found => grown _ (h.accepted v found)
  unaccepted := h.unaccepted
  proposed := h.proposed.imp_right fun ⟨free, v, slot, mapped⟩ => ⟨free, v, slot, grown _ mapped⟩
  unused := h.unused

theorem AcceptorHeld.mono (h : AcceptorHeld mcast s) (grown : ∀ msg ∈ mcast, msg ∈ mcast') :
    AcceptorHeld mcast' s where
  records := fun slot => (h.records slot).mono grown
  deeds := by
    intro i b k cmd deed
    obtain ⟨v, found, mapped⟩ := h.deeds i b k cmd deed
    exact ⟨v, found, grown _ mapped⟩

theorem RecordHeld.notAllocated (h : RecordHeld mcast ir) (cmd : Value) :
    ir.proposedCmd ≠ .allocated cmd := by
  intro allocated
  rcases h.proposed with ⟨null, -⟩ | ⟨-, v, slot, -⟩
  · rw [null] at allocated
    cases allocated
  · rw [slot] at allocated
    cases allocated

theorem recordHeld_clear (i : ℕ) :
    RecordHeld mcast { clearInstanceRecord with instNumber := i } where
  accepted := fun _ found => nomatch found
  unaccepted := fun _ => rfl
  proposed := .inl ⟨rfl, rfl⟩
  unused := fun _ => ⟨rfl, rfl⟩

theorem RecordHeld.use (h : RecordHeld mcast ir) (unused : ir.instNumber = 0) (i : ℕ) :
    RecordHeld mcast { ir with instNumber := i } := by
  obtain ⟨free, null⟩ := h.unused unused
  refine ⟨fun v found => ?_, h.unaccepted, ?_, fun _ => ⟨free, null⟩⟩
  · rw [free] at found
    cases found
  · rcases h.proposed with cleared | ⟨-, v, slot, -⟩
    · exact .inl cleared
    · rw [null] at slot
      cases slot

theorem RecordHeld.accepts (h : RecordHeld mcast old) {msg : Phase2Msg}
    (accepts : Accepts old msg ir) : RecordHeld mcast ir ∧
      ∃ v, ir.acceptedCmd = some v ∧ .commandMap ⟨ir.instNumber, msg.cmdKey, v⟩ ∈ mcast := by
  cases accepts with
  | again key other null =>
    refine ⟨h, ?_⟩
    cases found : ir.acceptedCmd with
    | none =>
      -- then both keys are null, and the acceptor would have stopped
      have clear : ir.proposedCmdKey = clearCmdKey := by
        rcases h.proposed with ⟨-, clear⟩ | ⟨-, v, slot, -⟩
        · exact clear
        · rw [null] at slot
          cases slot
      exact absurd (key.trans ((h.unaccepted found).trans clear.symm)) other
    | some v => exact ⟨v, rfl, key ▸ h.accepted v found⟩
  | againFreed key other own => exact absurd own (h.notAllocated _)
  | @first key other free cmd slot =>
    have mapped : .commandMap ⟨old.instNumber, old.proposedCmdKey, cmd⟩ ∈ mcast := by
      rcases h.proposed with ⟨null, -⟩ | ⟨-, v, slot', mapped⟩
      · rw [slot] at null
        cases null
      · rw [slot] at slot'
        cases slot'
        exact mapped
    refine ⟨⟨?_, (fun free => nomatch free), .inl ⟨rfl, rfl⟩, ?_⟩, cmd, rfl, key ▸ mapped⟩
    · intro v found
      cases found
      exact mapped
    · intro unused
      have null := (h.unused unused).2
      rw [slot] at null
      cases null
  | replaced key other found own => exact absurd own (h.notAllocated _)

theorem RecordHeld.saves (h : RecordHeld mcast old) (sent : OneMapping mcast) {msg : CmdmapMsg}
    (heard : .commandMap msg ∈ mcast) (own : old.instNumber = msg.instNumber)
    (used : old.instNumber ≠ 0) (saves : Saves old msg ir) : RecordHeld mcast ir := by
  cases saves with
  | forget own => exact absurd own (h.notAllocated _)
  | inSlot free =>
    have heard : .commandMap ⟨old.instNumber, msg.cmdKey, msg.cmdValue⟩ ∈ mcast := own ▸ heard
    exact ⟨h.accepted, h.unaccepted, .inr ⟨free, _, rfl, heard⟩, fun unused => absurd unused used⟩
  | secondary accepted other =>
    -- the accepted command has the one mapping of the instance
    obtain ⟨v, found⟩ := Option.isSome_iff_exists.mp accepted
    have same := sent.one _ _ (h.accepted v found) heard own
    exact absurd (congrArg CmdmapMsg.cmdKey same).symm other

theorem AcceptorHeld.withRecord (h : AcceptorHeld mcast s) {slot : ℕ}
    (held : RecordHeld mcast ir) : AcceptorHeld mcast (s.withRecord slot ir) where
  records := by
    intro slot'
    simp only [RingAcceptor.withRecord, setSlot_apply]
    split_ifs
    · exact held
    · exact h.records slot'
  deeds := h.deeds

theorem AcceptorHeld.move (h : AcceptorHeld mcast s) (sent : OneMapping mcast)
    (maps : ∀ m, C.hearsMap m → .commandMap m ∈ mcast ∧ m.instNumber ≠ 0)
    (move : Move cfg C s t) : AcceptorHeld mcast t := by
  cases move with
  | see n => exact ⟨h.records, h.deeds⟩
  | use i allowed unused => exact h.withRecord ((h.records _).use unused i)
  | overwrite i allowed used older =>
    have kept : AcceptorHeld mcast (s.does (.overwrote (s.record cfg i).instNumber)) := by
      refine ⟨h.records, fun i b k cmd deed => ?_⟩
      exact h.deeds i b k cmd ((List.mem_cons.mp deed).resolve_left (by simp))
    exact kept.withRecord (recordHeld_clear i)
  | promise i ballot own le =>
    have held : RecordHeld mcast (s.record cfg i) := h.records _
    have kept : AcceptorHeld mcast
        (s.withRecord (ssmSlot cfg i) { s.record cfg i with ballot := ballot }) :=
      h.withRecord ⟨held.accepted, held.unaccepted, held.proposed, held.unused⟩
    refine ⟨kept.records, fun i b k cmd deed => ?_⟩
    exact h.deeds i b k cmd ((List.mem_cons.mp deed).resolve_left (by simp))
  | forward msg named => exact ⟨h.records, h.deeds⟩
  | accept msg ir heard own le accepts =>
    obtain ⟨held, v, found, mapped⟩ := (h.records _).accepts accepts
    have kept : AcceptorHeld mcast (s.withRecord (ssmSlot cfg msg.instNumber)
        { ir with ballot := msg.ballot, acceptBallot := msg.ballot }) :=
      h.withRecord ⟨held.accepted, held.unaccepted, held.proposed, held.unused⟩
    refine ⟨kept.records, fun i b k cmd deed => ?_⟩
    rcases List.mem_cons.mp deed with here | earlier
    · cases here
      have same : ir.instNumber = msg.instNumber := accepts.instNumber.trans own
      exact ⟨v, found, same ▸ mapped⟩
    · exact h.deeds i b k cmd earlier
  | save msg ir heard own saves =>
    obtain ⟨mapped, positive⟩ := maps msg heard
    have used : (s.record cfg msg.instNumber).instNumber ≠ 0 := by rwa [own]
    exact h.withRecord ((h.records _).saves sent mapped own used saves)

theorem acceptorHeld_init (a : ℕ) : AcceptorHeld mcast (regularAcceptorInit a) :=
  ⟨fun _ => recordHeld_clear 0, fun _ _ _ _ h => nomatch h⟩

theorem Move.history_grows (move : Move cfg C s t) : ∀ deed ∈ s.history, deed ∈ t.history := by
  cases move with
  | overwrite | promise | accept => exact fun _ hd => List.mem_cons_of_mem _ hd
  | see | use | forward | save => exact fun _ hd => hd

theorem Move.sent_grows (move : Move cfg C s t) : ∀ msg ∈ s.toSuccessor, msg ∈ t.toSuccessor := by
  cases move with
  | forward | accept => exact fun _ hm => List.mem_cons_of_mem _ hm
  | see | use | overwrite | promise | save => exact fun _ hm => hm

/-- A message of phase 2 is sent on by an acceptor that accepted its command. -/
def SendsAccepted (R : Phase2Msg → Prop) (s : RingAcceptor) : Prop :=
  ∀ m, .phase2 m ∈ s.toSuccessor →
    R m ∧ ∃ v, .accepted m.instNumber m.ballot m.cmdKey (some v) ∈ s.history

theorem SendsAccepted.move {R : Phase2Msg → Prop} (h : SendsAccepted R s)
    (held : AcceptorHeld mcast s)
    (heard : ∀ m, C.hearsPhase2 m → R { m with acceptsCount := m.acceptsCount + 1 })
    (move : Move cfg C s t) : SendsAccepted R t := by
  intro m sent
  have kept (old : .phase2 m ∈ s.toSuccessor) :
      R m ∧ ∃ v, .accepted m.instNumber m.ballot m.cmdKey (some v) ∈ t.history := by
    obtain ⟨fits, v, deed⟩ := h m old
    exact ⟨fits, v, Move.history_grows move _ deed⟩
  cases move with
  | see | use | overwrite | promise | save => exact kept sent
  | forward msg named =>
    refine kept ((List.mem_cons.mp sent).resolve_left fun same => ?_)
    subst same
    exact named
  | accept msg ir hears own le accepts =>
    rcases List.mem_cons.mp sent with here | old
    · cases here
      obtain ⟨-, v, found, -⟩ := (held.records _).accepts accepts
      exact ⟨heard msg hears, v, found ▸ List.mem_cons_self⟩
    · exact kept old

end Commands

section Done

open RingMulticasterMoves (Move Moves Completes MoveCondition takenRecord repeatP2_effect)

variable {cfg : Config} {returns : Phase2Msg → Prop} {s t : Mcaster}

def DoneByQuorum (cfg : Config) (returns : Phase2Msg → Prop) (s : Mcaster) : Prop :=
  ∀ slot, (s.instancesArray slot).status = .done → ∃ m, returns m ∧
    m.instNumber = (s.instancesArray slot).instNumber ∧
    m.ballot = (s.instancesArray slot).ballot ∧
    m.cmdKey = (s.instancesArray slot).assignedCmdKey ∧ cfg.quorumSize ≤ m.acceptsCount.toNat

theorem DoneByQuorum.withRecord (h : DoneByQuorum cfg returns s) {slot : ℕ}
    {mir : McasterInstanceRecord}
    (slots : t.instancesArray = setSlot s.instancesArray slot mir) (open_ : mir.status ≠ .done) :
    DoneByQuorum cfg returns t := by
  intro slot'
  rw [slots, setSlot_apply]
  split_ifs
  · exact fun done => absurd done open_
  · exact h slot'

theorem DoneByQuorum.move (h : DoneByQuorum cfg returns s) (life : Life cfg s)
    (move : Move cfg (oneLife cfg returns) s t) : DoneByQuorum cfg returns t := by
  cases move with
  | quiet quiet => exact quiet ▸ h
  | take i allowed free => exact h.withRecord rfl (by simp)
  | phase1 slot mir phase =>
    refine h.withRecord rfl ?_
    rcases phase.after with after | after <;> simp [after]
  | promised msg slot pending =>
    rw [mcasterPromised_pending life.mappings pending]
    exact h.withRecord rfl (by simp)
  | startP2 value allowed next =>
    obtain ⟨mir, m, slots, inst, status, -⟩ := startP2_effect cfg s value
    exact h.withRecord slots (by simp [status])
  | repeatP2 slot pending =>
    obtain ⟨mir, m, slots, inst, key, value, status, -⟩ := repeatP2_effect cfg s slot
    exact h.withRecord slots (by simp [status])
  | complete slot msg returned completes =>
    intro slot'
    change ((setSlot s.instancesArray slot _) slot').status = .done → _
    simp only [mcasterBroadcastAcceptance, Mcaster.withRecord, Mcaster.sendMcast, setSlot_apply]
    split_ifs with here
    · intro _
      exact ⟨msg, returned, completes.own.symm, completes.ballot.symm, completes.key.symm,
        completes.enough⟩
    · exact h slot'
  | repeatMap i allowed own =>
    intro slot'
    simp only [mcasterBroadcastMapping, Mcaster.withRecord, Mcaster.sendMcast, setSlot_apply]
    split_ifs with here
    · exact h (msmSlot cfg i)
    · exact h slot'
  | sendPhase1 | sendRange | opened | advance | repeatAcceptance => exact h

theorem DoneByQuorum.mono {returns' : Phase2Msg → Prop} (h : DoneByQuorum cfg returns s)
    (more : ∀ m, returns m → returns' m) : DoneByQuorum cfg returns' s := by
  intro slot done
  obtain ⟨m, returned, rest⟩ := h slot done
  exact ⟨m, more m returned, rest⟩

end Done

/-- Acceptors 2 to `a` have accepted the command of a message. -/
def AcceptedUpTo (w : RingState) (a : ℕ) (m : Phase2Msg) : Prop :=
  ∀ a', 2 ≤ a' → a' ≤ a →
    ∃ v, .accepted m.instNumber m.ballot m.cmdKey (some v) ∈ (w.acceptors a').state.history

structure Votes (cfg : Config) (w : RingState) : Prop where
  life : OneLife cfg w
  held : ∀ a, AcceptorHeld w.mcaster.state.mcast (w.acceptors a).state
  sent : ∀ a, 2 ≤ a → ∀ m, .phase2 m ∈ (w.acceptors a).state.toSuccessor →
    m.acceptsCount.toNat ≤ a - 1 ∧ AcceptedUpTo w a m
  outside : ∀ a, ¬ cfg.InRing a → (w.acceptors a).state.toSuccessor = []
  done : DoneByQuorum cfg (fun m => .phase2 m ∈ ringSent cfg w 1) w.mcaster.state

variable {cfg : Config} {w : RingState} {e : RingEvent}

theorem Votes.oneMapping (h : Votes cfg w) : OneMapping w.mcaster.state.mcast :=
  ⟨h.life.mcaster.oneMapping, fun _ sent => (h.life.mcaster.mcast _ sent).2.2⟩

/-- A message that acceptor `a` may handle was accepted by all acceptors before it. -/
theorem Votes.heard (h : Votes cfg w) {a : ℕ} (low : 2 ≤ a) {m : Phase2Msg}
    (heard : HeardPhase2 cfg w a m) :
    (m.acceptsCount + 1).toNat ≤ a - 1 ∧ AcceptedUpTo w (a - 1) m := by
  have succ : (m.acceptsCount + 1).toNat ≤ m.acceptsCount.toNat + 1 := by
    have one : (1 : UInt32).toNat = 1 := rfl
    rw [UInt32.toNat_add]
    omega
  rcases heard with ring | ⟨rfl, mcast⟩
  · unfold ringSent Config.predecessor at ring
    rw [if_neg (by omega : a ≠ 1)] at ring
    split_ifs at ring with second
    · exact absurd ring (h.life.mcaster.noPhase2 m)
    · obtain ⟨count, accepted⟩ := h.sent (a - 1) (by omega) m ring
      exact ⟨by omega, accepted⟩
  · have count := (h.life.mcaster.mcast _ mcast).2.2
    change m.acceptsCount = 0 at count
    refine ⟨by simp [count], fun a' low' high => ?_⟩
    omega

theorem ringStep_of_possible (possible : Possible cfg w e) : ringStep cfg w e =
    { mcaster := mcasterStep cfg w.mcaster e
      acceptors := fun a => acceptorStep cfg a (w.acceptors a) e
      learners := fun l => learnerStep cfg l (w.learners l) e } :=
  if_pos possible

theorem OneLife.history_grows (h : OneLife cfg w) (possible : Possible cfg w e) (a : ℕ) :
    ∀ deed ∈ (w.acceptors a).state.history,
      deed ∈ (acceptorStep cfg a (w.acceptors a) e).state.history :=
  fun deed hdeed => (h.acceptorMoves possible a).invariant (deed ∈ ·.history)
    (fun _ _ kept move => Move.history_grows move deed kept) hdeed

theorem OneLife.sent_grows (h : OneLife cfg w) (possible : Possible cfg w e) (a : ℕ) :
    ∀ msg ∈ (w.acceptors a).state.toSuccessor,
      msg ∈ (acceptorStep cfg a (w.acceptors a) e).state.toSuccessor :=
  fun msg hmsg => (h.acceptorMoves possible a).invariant (msg ∈ ·.toSuccessor)
    (fun _ _ kept move => Move.sent_grows move msg kept) hmsg

theorem Votes.acceptor (h : Votes cfg w) (possible : Possible cfg w e) {a : ℕ} (low : 2 ≤ a) :
    AcceptorHeld w.mcaster.state.mcast (acceptorStep cfg a (w.acceptors a) e).state ∧
      SendsAccepted (fun m => m.acceptsCount.toNat ≤ a - 1 ∧ AcceptedUpTo w (a - 1) m)
        (acceptorStep cfg a (w.acceptors a) e).state := by
  refine (h.life.acceptorMoves possible a).invariant (fun s => AcceptorHeld _ s ∧
    SendsAccepted (fun m => m.acceptsCount.toNat ≤ a - 1 ∧ AcceptedUpTo w (a - 1) m) s) ?_ ?_
  · intro s t kept move
    refine ⟨kept.1.move h.oneMapping (fun m heard => ⟨heard, ?_⟩) move, ?_⟩
    · have within := h.life.mcaster.mcast _ heard
      have positive := within.1
      omega
    · have hears (m : Phase2Msg) (heard : (acceptorHears cfg w a).hearsPhase2 m) :=
        h.heard low heard.1
      exact kept.2.move kept.1 hears move
  · refine ⟨h.held a, fun m sent => ?_⟩
    obtain ⟨count, accepted⟩ := h.sent a low m sent
    exact ⟨⟨count, fun a' low' high => accepted a' low' (by omega)⟩, accepted a low (le_refl _)⟩

theorem acceptorStep_outside (possible : Possible cfg w e) {a : ℕ} (outside : ¬ cfg.InRing a) :
    acceptorStep cfg a (w.acceptors a) e = w.acceptors a := by
  cases e with
  | toAcceptor a' msg stack => exact if_neg fun same : a = a' => outside (same ▸ possible.1)
  | mcastAcceptor a' msg => exact if_neg fun same : a = a' => outside (same ▸ possible.1)
  | _ => rfl

theorem votes_step (h : Votes cfg w) (e : RingEvent) (goesOn : e ≠ .restart) :
    Votes cfg (ringStep cfg w e) := by
  by_cases possible : Possible cfg w e
  · have life := oneLife_step h.life e goesOn
    have moves := h.life.mcasterMoves possible goesOn
    have outside (a : ℕ) (ha : ¬ cfg.InRing a) :
        (acceptorStep cfg a (w.acceptors a) e).state.toSuccessor = [] := by
      rw [acceptorStep_outside possible ha]
      exact h.outside a ha
    rw [ringStep_of_possible possible] at life ⊢
    have grown : ∀ msg ∈ w.mcaster.state.mcast, msg ∈ (mcasterStep cfg w.mcaster e).state.mcast :=
      fun msg hmsg => moves.invariant (msg ∈ ·.mcast)
        (fun _ _ kept move => move.mcast_grows msg kept) hmsg
    refine ⟨life, fun a => ?_, fun a low m sent => ?_, outside, ?_⟩
    · rcases Nat.lt_or_ge a 2 with low | low
      · have alone : ¬ cfg.InRing a := fun ring => absurd ring.1 (by omega)
        change AcceptorHeld _ (acceptorStep cfg a (w.acceptors a) e).state
        rw [acceptorStep_outside possible alone]
        exact (h.held a).mono grown
      · exact (h.acceptor possible low).1.mono grown
    · obtain ⟨⟨count, accepted⟩, own⟩ := (h.acceptor possible low).2 m sent
      refine ⟨count, fun a' low' high => ?_⟩
      rcases Nat.lt_or_ge a' a with before | last
      · obtain ⟨v, deed⟩ := accepted a' low' (by omega)
        exact ⟨v, OneLife.history_grows h.life possible a' _ deed⟩
      · have same : a' = a := by omega
        exact same ▸ own
    · have done := (moves.invariant (fun s => Life cfg s ∧
          DoneByQuorum cfg (fun m => .phase2 m ∈ ringSent cfg w 1) s)
        (fun _ _ kept move => ⟨kept.1.move move, kept.2.move kept.1 move⟩)
        ⟨h.life.mcaster, h.done⟩).2
      refine done.mono fun m returned => ?_
      unfold ringSent at returned ⊢
      split_ifs at returned ⊢
      · exact absurd returned (h.life.mcaster.noPhase2 m)
      · exact OneLife.sent_grows h.life possible _ _ returned
  · have still : ringStep cfg w e = w := if_neg possible
    rwa [still]

theorem votes_init (cfg : Config) (late : ℕ → Bool) : Votes cfg (ringInit late) where
  life := oneLife_init cfg late
  held := acceptorHeld_init
  sent := fun _ _ _ sent => nomatch sent
  outside := fun _ _ => rfl
  done := fun _ done => nomatch done

/-- The command of a record that is done was accepted by a quorum of the ring, at the ballot
and with the key of the record; it is the one command that was broadcast for the key. -/
def StoredByQuorum (cfg : Config) (w : RingState) (mir : McasterInstanceRecord) : Prop :=
  ∃ (cmd : Value) (quorum : Finset ℕ), cfg.quorumSize ≤ quorum.card ∧
    (∀ a ∈ quorum, cfg.InRing a ∧
      .accepted mir.instNumber mir.ballot mir.assignedCmdKey (some cmd) ∈
        (w.acceptors a).state.history) ∧
    .commandMap ⟨mir.instNumber, mir.assignedCmdKey, cmd⟩ ∈ w.mcaster.state.mcast ∧
    ∀ m, .commandMap m ∈ w.mcaster.state.mcast → m.instNumber = mir.instNumber →
      m.cmdKey = mir.assignedCmdKey → m.cmdValue = cmd

theorem Votes.stored (h : Votes cfg w) (slot : ℕ)
    (done : (w.mcaster.state.instancesArray slot).status = .done) :
    StoredByQuorum cfg w (w.mcaster.state.instancesArray slot) := by
  set mir := w.mcaster.state.instancesArray slot with hmir
  have sound := h.life.mcaster.mappings.records slot
  obtain ⟨cmd, assigned⟩ := Option.isSome_iff_exists.mp (sound.assigned.mpr (.inr done))
  have mapped := sound.mapped cmd assigned
  have only (m : CmdmapMsg) (sent : .commandMap m ∈ w.mcaster.state.mcast)
      (inst : m.instNumber = mir.instNumber) : m.cmdValue = cmd :=
    congrArg CmdmapMsg.cmdValue (h.oneMapping.one m _ sent mapped inst)
  obtain ⟨m, returned, inst, ballot, key, enough⟩ := h.done slot done
  have positive := cfg.quorum_pos
  -- the message came back from the last acceptor of the ring
  have last : 2 ≤ cfg.acceptorsCount ∧
      .phase2 m ∈ (w.acceptors cfg.acceptorsCount).state.toSuccessor := by
    unfold ringSent Config.predecessor at returned
    rw [if_pos rfl] at returned
    split_ifs at returned with alone
    · exact absurd returned (h.life.mcaster.noPhase2 m)
    · refine ⟨?_, returned⟩
      by_contra few
      have outside : ¬ cfg.InRing cfg.acceptorsCount := fun ring => few ring.1
      rw [h.outside _ outside] at returned
      cases returned
  obtain ⟨count, accepted⟩ := h.sent _ last.1 m last.2
  refine ⟨cmd, Finset.Icc 2 cfg.acceptorsCount, ?_, fun a ha => ?_, mapped, fun m' sent inst' _ =>
    only m' sent inst'⟩
  · rw [Nat.card_Icc]
    omega
  · obtain ⟨low, high⟩ := Finset.mem_Icc.mp ha
    obtain ⟨v, deed⟩ := accepted a low high
    obtain ⟨v', found, sent⟩ := (h.held a).deeds _ _ _ _ deed
    cases found
    have same := only _ sent inst
    rw [inst, ballot, key] at deed
    exact ⟨⟨low, high⟩, same ▸ deed⟩

theorem done_is_stored (cfg : Config) (late : ℕ → Bool) (events : List RingEvent)
    (goesOn : ∀ e ∈ events, e ≠ .restart) (slot : ℕ)
    (done : ((run (ringStep cfg) (ringInit late) events).mcaster.state.instancesArray
      slot).status = .done) :
    StoredByQuorum cfg (run (ringStep cfg) (ringInit late) events)
      ((run (ringStep cfg) (ringInit late) events).mcaster.state.instancesArray slot) :=
  Votes.stored (Along.invariant (Votes cfg) (votes_init cfg late)
    (fun _ e h goesOn => votes_step h e goesOn) (along_of_mem fun e he _ => goesOn e he)) slot done

theorem first_chosen_is_stored :
    StoredByQuorum .small (run (ringStep .small) (ringInit fun _ => false) (chooseFirst [7]))
      ((run (ringStep .small) (ringInit fun _ => false)
        (chooseFirst [7])).mcaster.state.instancesArray 1) :=
  done_is_stored .small _ _ (by simp [chooseFirst]) 1 (by decide +kernel)

end FdsPaxos.RingChosen
