import FdsPaxos.Paxos2LeaderMoves

set_option autoImplicit false

namespace FdsPaxos.Paxos2LeaderCounters
open TransitionRuns CircularWindow Paxos2Config Paxos2Messages Paxos2SendBuffer
open Paxos2ValuesHandler Paxos2Learner Paxos2Leader Paxos2Proposer Paxos2LeaderMoves

/-- Phase 2 was started in the slot, and it is neither completed nor delivered: a value
is assigned when phase 2 starts, and dropped when the slot is cleared. -/
def Phase2Open (ii : PInstInfo) : Prop :=
  ii.p2Value.isSome ∧ ii.status ≠ .p2Completed

instance (ii : PInstInfo) : Decidable (Phase2Open ii) :=
  inferInstanceAs (Decidable (_ ∧ _))

def statusCount (cfg : Config) (status : IStatus) (s : LeaderState) : ℕ :=
  slotCount cfg.proposerArraySize (fun ii => ii.status = status) s.proposerState

def phase2Count (cfg : Config) (s : LeaderState) : ℕ :=
  slotCount cfg.proposerArraySize Phase2Open s.proposerState

/-- Those among them whose instance was not delivered before its phase 2 was started. -/
def unfinishedCount (cfg : Config) (s : LeaderState) : ℕ :=
  slotCount cfg.proposerArraySize (fun ii => Phase2Open ii ∧ s.currentIid ≤ ii.iid)
    s.proposerState

structure CountersExact (cfg : Config) (s : LeaderState) : Prop where
  pending : s.p1Info.pendingCount.toNat = statusCount cfg .p1Pending s
  ready : s.p1Info.readyCount.toNat = statusCount cfg .p1Ready s
  opened : s.p2Info.openCount.toNat = unfinishedCount cfg s

structure SlotClean (ii : PInstInfo) : Prop where
  empty : ii.status = .empty → ii.p2Value = none
  pending : ii.status = .p2Pending → ii.p2Value.isSome

def SlotsClean (s : LeaderState) : Prop :=
  ∀ slot, SlotClean (s.proposerState slot)

/-- The source's `opened_by_me` is right. -/
theorem SlotClean.openedByMe_iff {ii : PInstInfo} (h : SlotClean ii) :
    openedByMe ii ↔ Phase2Open ii := by
  obtain ⟨empty, pending⟩ := h
  unfold openedByMe Phase2Open
  cases status : ii.status with
  | empty => simp [empty status]
  | p2Pending => simp [pending status]
  | p1Pending | p1Ready | p2Completed => simp

structure Errors where
  pending : UInt32
  ready : UInt32
  opened : UInt32
deriving DecidableEq

/-- The counters are off by `e`, and phase 2 is open only for instances from `low` on, each
in its own slot. -/
structure Off (cfg : Config) (low : ℕ) (e : Errors) (s : LeaderState) : Prop where
  clean : SlotsClean s
  above : ∀ slot < cfg.proposerArraySize, Phase2Open (s.proposerState slot) →
    cfg.proIndex (s.proposerState slot).iid = slot ∧ low ≤ (s.proposerState slot).iid
  pending : s.p1Info.pendingCount = UInt32.ofNat (statusCount cfg .p1Pending s) + e.pending
  ready : s.p1Info.readyCount = UInt32.ofNat (statusCount cfg .p1Ready s) + e.ready
  opened : s.p2Info.openCount = UInt32.ofNat (phase2Count cfg s) + e.opened

def bit (p : Prop) [Decidable p] : UInt32 := if p then 1 else 0

theorem bit_eq_ofNat (p : Prop) [Decidable p] : bit p = UInt32.ofNat (if p then 1 else 0) := by
  unfold bit
  split_ifs <;> rfl

variable {cfg : Config} {low : ℕ} {e e' : Errors} {s t : LeaderState}

theorem ofNat_slotCount_setSlot {P : PInstInfo → Prop} [DecidablePred P] {slot size : ℕ}
    (slots : ℕ → PInstInfo) (lt : slot < size) (ii : PInstInfo) :
    UInt32.ofNat (slotCount size P (setSlot slots slot ii)) + bit (P (slots slot)) =
      UInt32.ofNat (slotCount size P slots) + bit (P ii) := by
  have moved := congrArg UInt32.ofNat (slotCount_setSlot (P := P) slots lt ii)
  rwa [UInt32.ofNat_add, UInt32.ofNat_add, ← bit_eq_ofNat, ← bit_eq_ofNat] at moved

/-- How counters and errors change together when a slot that held `old` is given `new`. -/
structure Recounts (s t : LeaderState) (e e' : Errors) (old new : PInstInfo) : Prop where
  pending : t.p1Info.pendingCount + e.pending + bit (old.status = .p1Pending) =
    s.p1Info.pendingCount + e'.pending + bit (new.status = .p1Pending)
  ready : t.p1Info.readyCount + e.ready + bit (old.status = .p1Ready) =
    s.p1Info.readyCount + e'.ready + bit (new.status = .p1Ready)
  opened : t.p2Info.openCount + e.opened + bit (Phase2Open old) =
    s.p2Info.openCount + e'.opened + bit (Phase2Open new)

theorem Off.rewrite (h : Off cfg low e s) {slot : ℕ} (ii : PInstInfo)
    (lt : slot < cfg.proposerArraySize)
    (slots : t.proposerState = setSlot s.proposerState slot ii) (clean : SlotClean ii)
    (above : Phase2Open ii → cfg.proIndex ii.iid = slot ∧ low ≤ ii.iid)
    (recounts : Recounts s t e e' (s.proposerState slot) ii) : Off cfg low e' t := by
  obtain ⟨pending, ready, opened⟩ := recounts
  have counted (P : PInstInfo → Prop) [DecidablePred P] :=
    ofNat_slotCount_setSlot (P := P) s.proposerState lt ii
  refine ⟨fun k => ?_, fun k inside => ?_, ?_, ?_, ?_⟩
  · rw [slots, setSlot_apply]
    split_ifs
    · exact clean
    · exact h.clean k
  · rw [slots, setSlot_apply]
    split_ifs with here
    · rw [here]
      exact above
    · exact h.above k inside
  · have moved := counted fun ii => ii.status = .p1Pending
    have before := h.pending
    unfold statusCount at before ⊢
    rw [slots]
    grind
  · have moved := counted fun ii => ii.status = .p1Ready
    have before := h.ready
    unfold statusCount at before ⊢
    rw [slots]
    grind
  · have moved := counted Phase2Open
    have before := h.opened
    unfold phase2Count at before ⊢
    rw [slots]
    grind

theorem Off.weaken (h : Off cfg low e s) {low' : ℕ} (le : low' ≤ low) : Off cfg low' e s where
  clean := h.clean
  above := by
    intro slot inside started
    obtain ⟨home, above⟩ := h.above slot inside started
    exact ⟨home, le.trans above⟩
  pending := h.pending
  ready := h.ready
  opened := h.opened

theorem Off.raise {iid : ℕ} (h : Off cfg iid e s)
    (gone : (s.proposerState (cfg.proIndex iid)).iid = iid →
      ¬ Phase2Open (s.proposerState (cfg.proIndex iid))) : Off cfg (iid + 1) e s where
  clean := h.clean
  above := by
    intro slot inside started
    obtain ⟨home, above⟩ := h.above slot inside started
    refine ⟨home, lt_of_le_of_ne above ?_⟩
    intro same
    rw [← same] at home
    rw [← home] at started same
    exact gone same.symm started
  pending := h.pending
  ready := h.ready
  opened := h.opened

theorem Off.recount (h : Off cfg low e s) (slots : t.proposerState = s.proposerState)
    (pending : t.p1Info.pendingCount + e.pending = s.p1Info.pendingCount + e'.pending)
    (ready : t.p1Info.readyCount + e.ready = s.p1Info.readyCount + e'.ready)
    (opened : t.p2Info.openCount + e.opened = s.p2Info.openCount + e'.opened) :
    Off cfg low e' t := by
  have counted (status : IStatus) : statusCount cfg status t = statusCount cfg status s := by
    rw [statusCount, slots, statusCount]
  have started : phase2Count cfg t = phase2Count cfg s := by
    rw [phase2Count, slots, phase2Count]
  obtain ⟨clean, above, pending', ready', opened'⟩ := h
  refine ⟨fun k => slots ▸ clean k, fun k inside => slots ▸ above k inside, ?_, ?_, ?_⟩
  · rw [counted]
    grind
  · rw [counted]
    grind
  · rw [started]
    grind

theorem Off.same (h : Off cfg low e s) (slots : t.proposerState = s.proposerState)
    (p1 : t.p1Info = s.p1Info) (p2 : t.p2Info.openCount = s.p2Info.openCount) : Off cfg low e t :=
  h.recount slots (by rw [p1]) (by rw [p1]) (by rw [p2])

section Phase1

variable {clock : ℕ → Timeval} {timeNow : Timeval}

theorem Off.sendPrepare (h : Off cfg low e s) {slot : ℕ} {ii : PInstInfo}
    (lt : slot < cfg.proposerArraySize) (clean : SlotClean ii)
    (above : Phase2Open ii → cfg.proIndex ii.iid = slot ∧ low ≤ ii.iid)
    (recounts : Recounts s s e e' (s.proposerState slot) ii) :
    Off cfg low e' (leaderSendPrepare cfg clock s slot ii) := by
  obtain ⟨pending, ready, opened⟩ := recounts
  apply h.rewrite { ii with
      timeout := leaderSetExpiration (clock ii.iid) cfg.p1TimeoutInterval } lt rfl
  · exact ⟨clean.empty, clean.pending⟩
  · exact above
  · exact ⟨pending, ready, opened⟩

theorem Off.checkP1Pending (h : Off cfg low e s)
    (done : leaderCheckP1Pending cfg clock timeNow s = .running t) : Off cfg low e t := by
  obtain ⟨u, loop, rfl⟩ := Outcome.map_eq_running.mp done
  have kept : Off cfg low e u := by
    apply Outcome.fold_running (Off cfg low e) (h.same (t := clearPrepareBuf s) rfl rfl rfl) ?_ loop
    intro s iid u _ h turn
    unfold leaderCheckP1Instance at turn
    dsimp only at turn
    split_ifs at turn with same expired
    · cases turn
      have pending := expired.1
      apply h.sendPrepare (cfg.proIndex_lt iid) ⟨?_, ?_⟩ ?_ ⟨?_, ?_, ?_⟩
      · simp [retryPhase1, pending]
      · simp [retryPhase1, pending]
      · exact h.above _ (cfg.proIndex_lt iid)
      · rfl
      · rfl
      · rfl
    · cases turn
      exact h
  exact kept.same rfl rfl rfl

theorem Off.openInstanceP1 (h : Off cfg low e s) {iid : ℕ}
    (done : leaderOpenInstanceP1 cfg clock s iid = .running t) :
    Off cfg low { e with pending := e.pending - 1 } t := by
  unfold leaderOpenInstanceP1 at done
  dsimp only at done
  split_ifs at done with free
  cases done
  have unused := (h.clean (cfg.proIndex iid)).empty free
  apply h.sendPrepare (cfg.proIndex_lt iid) ⟨?_, ?_⟩ ?_ ⟨?_, ?_, ?_⟩
  · simp
  · simp
  · simp [Phase2Open, unused]
  · simp [bit, free]
    grind
  · simp [bit, free]
  · simp [bit, Phase2Open, unused]

theorem Off.openLoop (h : Off cfg low e s) {iids : List ℕ}
    (done : Outcome.fold (leaderOpenInstanceP1 cfg clock) s iids = .running t) :
    Off cfg low { e with pending := e.pending - UInt32.ofNat iids.length } t := by
  induction iids generalizing s e with
  | nil =>
    cases done
    simpa using h
  | cons iid iids ih =>
    obtain ⟨u, first, rest⟩ := Outcome.bind_eq_running.mp done
    have kept := ih (h.openInstanceP1 first) rest
    rw [List.length_cons, UInt32.ofNat_add]
    convert kept using 2
    simp only
    grind

theorem Off.addOpened (h : Off cfg low e s) (n : ℕ) :
    Off cfg low { e with pending := e.pending + UInt32.ofNat n } (leaderAddOpened n s) := by
  refine h.recount rfl ?_ rfl rfl
  simp only [leaderAddOpened]
  grind

theorem Off.openInstancesP1 (h : Off cfg low e s)
    (done : leaderOpenInstancesP1 cfg clock s = .running t) : Off cfg low e t := by
  unfold leaderOpenInstancesP1 at done
  dsimp only at done
  split_ifs at done
  · cases done
    exact h
  · obtain ⟨u, loop, last⟩ := Outcome.bind_eq_running.mp done
    cases last
    have opened := (h.same (t := clearPrepareBuf s) rfl rfl rfl).openLoop loop
    rw [List.length_range'] at opened
    have counted := (opened.same (t := flushPrepareBuf u) rfl rfl rfl).addOpened
      (leaderToOpen cfg (clearPrepareBuf s))
    convert counted using 2
    grind

theorem Off.periodicP1Check (h : Off cfg low e s)
    (done : leaderPeriodicP1Check cfg clock timeNow s = .running t) : Off cfg low e t := by
  obtain ⟨u, checked, opened⟩ := Outcome.bind_eq_running.mp done
  exact (h.checkP1Pending checked).openInstancesP1 opened

end Phase1

theorem Off.prepareAck (h : Off cfg low e s) (a : ℕ) (pa : PrepareAck) :
    Off cfg low e (handlePrepareAck cfg a s pa).1 := by
  have logged : Off cfg low e (s.log (.received a pa)) := h.same rfl rfl rfl
  rcases handlePrepareAck_cases cfg a s pa with dropped |
    ⟨ii, rfl, pending, -, ⟨-, counted⟩ | ⟨-, completed⟩⟩
  · rw [dropped]
    exact logged
  · rw [counted]
    apply logged.rewrite _ (cfg.proIndex_lt pa.iid) rfl ⟨?_, ?_⟩ ?_ ⟨?_, ?_, ?_⟩
    · simp [pending]
    · simp [pending]
    · simpa [Phase2Open] using h.above _ (cfg.proIndex_lt pa.iid)
    · simp [LeaderState.withSlot, LeaderState.log, pending]
    · simp [LeaderState.withSlot, LeaderState.log, pending]
    · simp [LeaderState.withSlot, LeaderState.log, Phase2Open, pending]
  · rw [completed]
    apply logged.rewrite _ (cfg.proIndex_lt pa.iid) rfl ⟨?_, ?_⟩ ?_ ⟨?_, ?_, ?_⟩
    · simp
    · simp
    · simpa [Phase2Open, pending] using h.above _ (cfg.proIndex_lt pa.iid)
    · simp [leaderBecameReady, LeaderState.withSlot, LeaderState.log, bit, pending]
      grind
    · simp [leaderBecameReady, LeaderState.withSlot, LeaderState.log, bit, pending]
      grind
    · simp [leaderBecameReady, LeaderState.withSlot, LeaderState.log, Phase2Open, pending]

theorem Off.prepareAcks (h : Off cfg low e s) (a : ℕ) (acks : List PrepareAck) :
    Off cfg low e (handlePrepareAcks cfg a s acks).1 :=
  run_invariant (fun r : LeaderState × ℕ => Off cfg low e r.1) h fun _ pa h => h.prepareAck a pa

section Phase2

variable {clock : ℕ → Timeval}

theorem Off.sendAccept (h : Off cfg low e s) {slot : ℕ} {ii : PInstInfo} {value : Value}
    (lt : slot < cfg.proposerArraySize) (assigned : ii.p2Value.isSome)
    (above : cfg.proIndex ii.iid = slot ∧ low ≤ ii.iid)
    (recounts : Recounts s s e e' (s.proposerState slot) { ii with status := .p2Pending }) :
    Off cfg low e' (leaderSendAccept cfg clock s slot ii value) := by
  obtain ⟨pending, ready, opened⟩ := recounts
  apply h.rewrite { ii with
      status := .p2Pending
      timeout := leaderSetExpiration (clock ii.iid) cfg.p2TimeoutInterval } lt rfl
  · exact ⟨by simp, fun _ => assigned⟩
  · exact fun _ => above
  · exact ⟨pending, ready, opened⟩

/-- A loop that took `n` slots from ready to pending, and has not counted them. -/
structure Executed (cfg : Config) (n : ℕ) (s t : LeaderState) : Prop where
  ready : statusCount cfg .p1Ready t + n = statusCount cfg .p1Ready s
  p1Info : t.p1Info = s.p1Info
  openCount : t.p2Info.openCount = s.p2Info.openCount

theorem Executed.refl (s : LeaderState) : Executed cfg 0 s s := ⟨rfl, rfl, rfl⟩

theorem Executed.trans {u : LeaderState} {m n : ℕ} (h : Executed cfg m s t)
    (h' : Executed cfg n t u) : Executed cfg (n + m) s u where
  ready := by
    rw [← h.ready, ← h'.ready]
    omega
  p1Info := h'.p1Info.trans h.p1Info
  openCount := h'.openCount.trans h.openCount

theorem Off.executeP2 (h : Off cfg low e s) {slot : ℕ} (lt : slot < cfg.proposerArraySize)
    (ready : (s.proposerState slot).status = .p1Ready)
    (above : cfg.proIndex (s.proposerState slot).iid = slot ∧ low ≤ (s.proposerState slot).iid)
    (done : leaderExecuteP2 cfg clock s slot = .running t) :
    Off cfg low { e with
      ready := e.ready + 1
      opened := e.opened - bit ((s.proposerState slot).p2Value = none) } t ∧
    Executed cfg 1 s t ∧ t.p2Info = s.p2Info := by
  rcases leaderExecuteP2_cases clock cfg s slot with stopped | ⟨vh, value, -, sent⟩
  · rw [stopped] at done
    cases done
  rw [sent] at done
  cases done
  refine ⟨?_, ⟨?_, rfl, rfl⟩, rfl⟩
  · have values : Off cfg low e (s.withValues vh) := h.same rfl rfl rfl
    have held : (s.withValues vh).proposerState slot = s.proposerState slot := rfl
    apply values.sendAccept lt ?_ ?_ ⟨?_, ?_, ?_⟩
    · rfl
    · exact above
    · simp [held, bit, ready]
    · simp [held, bit, ready]
      grind
    · cases own : (s.proposerState slot).p2Value <;>
        simp [held, bit, ready, withP2Value, Phase2Open, own]
      grind
  · have moved := slotCount_setSlot (P := fun ii : PInstInfo => ii.status = .p1Ready)
      s.proposerState lt
      { withP2Value (s.proposerState slot) value with
        status := .p2Pending
        timeout := leaderSetExpiration (clock (s.proposerState slot).iid) cfg.p2TimeoutInterval }
    rw [if_pos ready, if_neg (by simp)] at moved
    exact moved

theorem Off.openExpired (h : Off cfg low e s) {iids : List ℕ} {count count' : UInt32}
    (done : leaderOpenExpired cfg clock iids count s = .running (t, count')) :
    ∃ n, count' = count + UInt32.ofNat n ∧ Executed cfg n s t ∧
      Off cfg low { e with ready := e.ready + UInt32.ofNat n } t := by
  induction iids generalizing s e count with
  | nil =>
    cases done
    exact ⟨0, by simp, .refl t, by simpa using h⟩
  | cons iid rest ih =>
    unfold leaderOpenExpired at done
    dsimp only at done
    split_ifs at done with same ready assigned
    · obtain ⟨u, first, later⟩ := Outcome.andThen_eq_running.mp done
      have above := h.above _ (cfg.proIndex_lt iid) ⟨assigned, by simp [ready]⟩
      obtain ⟨kept, one, -⟩ := h.executeP2 (cfg.proIndex_lt iid) ready above first
      obtain ⟨n, total, more, off⟩ := ih kept later
      refine ⟨n + 1, ?_, one.trans more, ?_⟩
      · rw [total, UInt32.ofNat_add]
        grind
      · have some : (s.proposerState (cfg.proIndex iid)).p2Value ≠ none :=
          Option.isSome_iff_ne_none.mp assigned
        convert off using 2
        · rw [UInt32.ofNat_add]
          grind
        · simp [bit, some]
    · exact ih h done

/-- Instance `iid` waits in its slot for its first phase 2. -/
def AwaitsPhase2 (cfg : Config) (s : LeaderState) (iid : ℕ) : Prop :=
  let ii := s.proposerState (cfg.proIndex iid)
  ii.iid = iid ∧ ii.status = .p1Ready ∧ ii.p2Value = none

instance (cfg : Config) (s : LeaderState) (iid : ℕ) : Decidable (AwaitsPhase2 cfg s iid) :=
  inferInstanceAs (Decidable (_ ∧ _ ∧ _))

/-- The next unused instance waits for phase 2, and there is a value for it. -/
def NextOpens (cfg : Config) (s : LeaderState) : Prop :=
  AwaitsPhase2 cfg s s.p2Info.nextUnusedIid ∧
    ¬ ((s.proposerState (cfg.proIndex s.p2Info.nextUnusedIid)).p1Value = none ∧
      vhPendingListSize s.valuesHandler = 0)

instance (cfg : Config) (s : LeaderState) : Decidable (NextOpens cfg s) :=
  inferInstanceAs (Decidable (_ ∧ _))

theorem Off.openNew (h : Off cfg low e s) {turns : ℕ} {count count' : UInt32}
    (ahead : NextOpens cfg s → low ≤ s.p2Info.nextUnusedIid)
    (done : leaderOpenNew cfg clock turns count s = .running (t, count')) :
    ∃ n ≤ turns, count' = count + UInt32.ofNat n ∧ Executed cfg n s t ∧
      t.p2Info.nextUnusedIid = s.p2Info.nextUnusedIid + n ∧
      Off cfg low { e with
        ready := e.ready + UInt32.ofNat n
        opened := e.opened - UInt32.ofNat n } t := by
  induction turns generalizing s e count with
  | zero =>
    cases done
    exact ⟨0, le_rfl, by simp, .refl t, rfl, by simpa using h⟩
  | succ turns ih =>
    unfold leaderOpenNew at done
    dsimp only at done
    split_ifs at done with assigned idle notReady
    · cases done
      exact ⟨0, Nat.zero_le _, by simp, .refl t, rfl, by simpa using h⟩
    · cases done
      exact ⟨0, Nat.zero_le _, by simp, .refl t, rfl, by simpa using h⟩
    · obtain ⟨ready, here⟩ := not_or.mp notReady
      obtain ⟨u, first, later⟩ := Outcome.andThen_eq_running.mp done
      have unassigned := Option.not_isSome_iff_eq_none.mp assigned
      have here := not_not.mp here
      have le := ahead ⟨⟨here, not_not.mp ready, unassigned⟩, idle⟩
      obtain ⟨kept, one, p2⟩ := h.executeP2 (cfg.proIndex_lt _) (not_not.mp ready)
        ⟨by rw [here], by rw [here]; exact le⟩ first
      have next : Executed cfg 1 s (leaderUseNext u) := ⟨one.ready, one.p1Info, one.openCount⟩
      have moves : (leaderUseNext u).p2Info.nextUnusedIid = s.p2Info.nextUnusedIid + 1 := by
        rw [leaderUseNext, p2]
      obtain ⟨n, few, total, more, moved, off⟩ :=
        ih (kept.same (t := leaderUseNext u) rfl rfl rfl) (fun _ => by omega) later
      refine ⟨n + 1, Nat.succ_le_succ few, ?_, next.trans more, ?_, ?_⟩
      · rw [total, UInt32.ofNat_add]
        grind
      · omega
      · convert off using 2
        · rw [UInt32.ofNat_add]
          grind
        · rw [UInt32.ofNat_add]
          simp only [bit, unassigned, if_true]
          grind

theorem Off.takeReady (h : Off cfg low e s) (count : UInt32) :
    Off cfg low { e with ready := e.ready - count } (leaderTakeReady s count) := by
  refine h.recount rfl rfl ?_ rfl
  simp only [leaderTakeReady]
  grind

theorem Off.addOpen (h : Off cfg low e s) (count : UInt32) :
    Off cfg low { e with opened := e.opened + count } (leaderAddOpen s count) := by
  refine h.recount rfl rfl rfl ?_
  simp only [leaderAddOpen]
  grind

theorem Off.openInstancesP2Expired (h : Off cfg low e s)
    (done : leaderOpenInstancesP2Expired cfg clock s = .running t) : Off cfg low e t := by
  obtain ⟨⟨u, count⟩, loop, last⟩ := Outcome.andThen_eq_running.mp done
  cases last
  obtain ⟨n, total, -, off⟩ := (h.same (t := clearAcceptBuf s) rfl rfl rfl).openExpired loop
  have taken := (off.takeReady count).same
    (t := flushAcceptBuf (leaderTakeReady u count)) rfl rfl rfl
  convert taken using 2
  grind

/-- A call of `leader_open_instances_p2_new` that starts phase 2 for an instance below `low`. -/
def OpensBelow (cfg : Config) (low : ℕ) (s : LeaderState) : Prop :=
  s.p2Info.openCount.toNat ≤ cfg.proposerP2Concurrency / 3 * 2 ∧
    s.p2Info.nextUnusedIid < low ∧ NextOpens cfg s

instance (cfg : Config) (low : ℕ) (s : LeaderState) : Decidable (OpensBelow cfg low s) :=
  inferInstanceAs (Decidable (_ ∧ _ ∧ _))

theorem not_opensBelow_zero (s : LeaderState) : ¬ OpensBelow cfg 0 s :=
  fun ⟨_, below, _⟩ => absurd below (Nat.not_lt_zero _)

theorem Off.openInstancesP2New (h : Off cfg low e s) (ahead : ¬ OpensBelow cfg low s)
    (done : leaderOpenInstancesP2New cfg clock s = .running t) : Off cfg low e t := by
  unfold leaderOpenInstancesP2New at done
  dsimp only at done
  split_ifs at done with many
  · cases done
    exact h
  · obtain ⟨⟨u, count⟩, loop, last⟩ := Outcome.andThen_eq_running.mp done
    cases last
    have above (opens : NextOpens cfg s) : low ≤ s.p2Info.nextUnusedIid := by
      by_contra below
      exact ahead ⟨Nat.not_lt.mp many, Nat.not_le.mp below, opens⟩
    obtain ⟨n, -, total, -, -, off⟩ :=
      (h.same (t := clearAcceptBuf s) rfl rfl rfl).openNew above loop
    have counted := ((off.takeReady count).addOpen count).same
      (t := flushAcceptBuf (leaderAddOpen (leaderTakeReady u count) count)) rfl rfl rfl
    convert counted using 2 <;> grind

theorem Off.complete (h : Off cfg low e s) {slot : ℕ} (lt : slot < cfg.proposerArraySize)
    (pending : (s.proposerState slot).status = .p2Pending) :
    Off cfg low e (leaderComplete s slot) := by
  have assigned := (h.clean slot).pending pending
  apply h.rewrite _ lt rfl ⟨?_, ?_⟩ ?_ ⟨?_, ?_, ?_⟩
  · simp
  · simp
  · simp [Phase2Open]
  · simp [leaderComplete, LeaderState.withSlot, bit, pending]
  · simp [leaderComplete, LeaderState.withSlot, bit, pending]
  · simp [leaderComplete, LeaderState.withSlot, bit, pending, Phase2Open, assigned]
    grind

theorem Off.addPending (h : Off cfg low e s) :
    Off cfg low { e with pending := e.pending + 1 } (leaderAddPending s) := by
  refine h.recount rfl ?_ rfl rfl
  simp only [leaderAddPending]
  grind

theorem Off.checkP2Instance (h : Off cfg low e s) (isClosed : ℕ → Bool) (timeNow : Timeval)
    (iid : ℕ) : Off cfg low e (leaderCheckP2Instance cfg clock isClosed timeNow s iid) := by
  unfold leaderCheckP2Instance
  dsimp only
  split_ifs with other closed expired
  · exact h
  · exact h.complete (cfg.proIndex_lt iid) (not_not.mp other)
  · have pending := not_not.mp other
    have assigned := (h.clean (cfg.proIndex iid)).pending pending
    have restarted : Off cfg low { e with pending := e.pending - 1 }
        (leaderSendPrepare cfg clock s (cfg.proIndex iid)
          (restartPhase1 cfg (s.proposerState (cfg.proIndex iid)))) := by
      apply h.sendPrepare (cfg.proIndex_lt iid) ⟨?_, ?_⟩ ?_ ⟨?_, ?_, ?_⟩
      · simp [restartPhase1]
      · simp [restartPhase1]
      · exact fun _ => h.above _ (cfg.proIndex_lt iid) ⟨assigned, by simp [pending]⟩
      · simp [restartPhase1, bit, pending]
        grind
      · simp [restartPhase1, bit, pending]
      · simp [restartPhase1, bit, pending, Phase2Open, assigned]
    convert restarted.addPending using 2
    grind
  · exact h

def leaderCheckedP2 (cfg : Config) (clock : ℕ → Timeval) (isClosed : ℕ → Bool)
    (timeNow : Timeval) (s : LeaderState) : LeaderState :=
  flushPrepareBuf
    (run (leaderCheckP2Instance cfg clock isClosed timeNow) (clearPrepareBuf s)
      (List.range' s.currentIid (s.p2Info.nextUnusedIid - s.currentIid)))

theorem leaderPeriodicP2Check_eq (isClosed : ℕ → Bool) (timeNow : Timeval) (s : LeaderState) :
    leaderPeriodicP2Check cfg clock isClosed timeNow s =
      leaderOpenInstancesP2New cfg clock (leaderCheckedP2 cfg clock isClosed timeNow s) := rfl

theorem Off.checkedP2 (h : Off cfg low e s) (isClosed : ℕ → Bool) (timeNow : Timeval) :
    Off cfg low e (leaderCheckedP2 cfg clock isClosed timeNow s) := by
  have start : Off cfg low e (clearPrepareBuf s) := h.same rfl rfl rfl
  exact (run_invariant (Off cfg low e) start fun u iid h =>
    h.checkP2Instance isClosed timeNow iid).same rfl rfl rfl

theorem Off.periodicP2Check (h : Off cfg low e s) (isClosed : ℕ → Bool) (timeNow : Timeval)
    (ahead : ¬ OpensBelow cfg low (leaderCheckedP2 cfg clock isClosed timeNow s))
    (done : leaderPeriodicP2Check cfg clock isClosed timeNow s = .running t) :
    Off cfg low e t := by
  rw [leaderPeriodicP2Check_eq] at done
  exact (h.checkedP2 isClosed timeNow).openInstancesP2New ahead done

end Phase2

section Deliveries

variable {clock : ℕ → Timeval} {timeNow : Timeval}

theorem slotClean_cleared (ii : PInstInfo) : SlotClean (proClearInstanceInfo ii) :=
  ⟨fun _ => rfl, by simp [proClearInstanceInfo]⟩

theorem not_phase2Open_cleared (ii : PInstInfo) : ¬ Phase2Open (proClearInstanceInfo ii) := by
  simp [Phase2Open, proClearInstanceInfo]

/-- The state in which a delivery to the leader looks for instances to open. -/
def leaderForget (cfg : Config) (s : LeaderState) (value : Value) (iid : ℕ) : LeaderState :=
  let ii := s.proposerState (cfg.proIndex iid)
  let counted := leaderCountDelivered s ii iid
  (counted.withValues (leaderSettleValue counted.valuesHandler ii.p2Value value)).withSlot
    (cfg.proIndex iid) (proClearInstanceInfo ii)

theorem leaderDeliver_eq (s : LeaderState) (value : Value) (iid : ℕ) :
    leaderDeliver cfg clock s value iid =
      if (s.proposerState (cfg.proIndex iid)).iid ≠ iid then .running s
      else leaderOpenInstancesP2New cfg clock (leaderForget cfg s value iid) := rfl

theorem Off.forget (h : Off cfg low e s) (value : Value) (iid : ℕ) :
    Off cfg low { e with
      ready := e.ready + bit ((s.proposerState (cfg.proIndex iid)).status = .p1Ready) }
      (leaderForget cfg s value iid) := by
  have opened := (h.clean (cfg.proIndex iid)).openedByMe_iff
  apply h.rewrite _ (cfg.proIndex_lt iid) rfl (slotClean_cleared _)
    (fun started => absurd started (not_phase2Open_cleared _)) ⟨?_, ?_, ?_⟩
  · change (if _ then _ else _) + _ + _ = _
    by_cases pending : (s.proposerState (cfg.proIndex iid)).status = .p1Pending
    · simp [proClearInstanceInfo, bit, pending]
      grind
    · simp [proClearInstanceInfo, bit, pending]
  · change s.p1Info.readyCount + _ + _ = _
    simp [proClearInstanceInfo, bit]
    grind
  · change (if _ then _ else _) + _ + _ = _
    by_cases started : Phase2Open (s.proposerState (cfg.proIndex iid))
    · simp [not_phase2Open_cleared, bit, opened, started]
      grind
    · simp [not_phase2Open_cleared, bit, opened, started]

theorem leaderForget_next_ne (cfg : Config) (s : LeaderState) (value : Value) (iid : ℕ) :
    (leaderForget cfg s value iid).p2Info.nextUnusedIid ≠ iid := by
  change (if s.p2Info.nextUnusedIid = iid then iid + 1 else s.p2Info.nextUnusedIid) ≠ iid
  split_ifs with here
  · exact Nat.succ_ne_self iid
  · exact here

theorem Off.deliver {value : Value} {iid : ℕ} (h : Off cfg iid e s)
    (ahead : (s.proposerState (cfg.proIndex iid)).iid = iid →
      ¬ OpensBelow cfg iid (leaderForget cfg s value iid))
    (done : leaderDeliver cfg clock s value iid = .running t) :
    Off cfg (iid + 1) { e with
      ready := e.ready + bit ((s.proposerState (cfg.proIndex iid)).iid = iid ∧
        (s.proposerState (cfg.proIndex iid)).status = .p1Ready) } t := by
  rw [leaderDeliver_eq] at done
  split_ifs at done with other
  · cases done
    simpa [bit, other] using h.raise fun here => absurd here other
  · have here := not_not.mp other
    have forgot := (h.forget value iid).raise fun _ => by
      change ¬ Phase2Open (setSlot s.proposerState _ _ _)
      rw [setSlot_self]
      exact not_phase2Open_cleared _
    have ahead : ¬ OpensBelow cfg (iid + 1) (leaderForget cfg s value iid) := by
      rintro ⟨few, below, opens⟩
      have moved := leaderForget_next_ne cfg s value iid
      exact ahead here ⟨few, by omega, opens⟩
    simpa [here] using forgot.openInstancesP2New ahead done

end Deliveries

section Promotion

variable {clock : ℕ → Timeval} {timeNow : Timeval}

def startErrors (cfg : Config) (s : LeaderState) : Errors where
  pending := 0 - UInt32.ofNat (statusCount cfg .p1Pending s)
  ready := 0 - UInt32.ofNat (statusCount cfg .p1Ready s)
  opened := 0

theorem leaderPeriodicP1Check_p2Info
    (done : leaderPeriodicP1Check cfg clock timeNow s = .running t) : t.p2Info = s.p2Info := by
  obtain ⟨u, checked, opened⟩ := Outcome.bind_eq_running.mp done
  obtain ⟨v, loop, rfl⟩ := Outcome.map_eq_running.mp checked
  have retried : v.p2Info = s.p2Info := by
    apply Outcome.fold_running (fun u => u.p2Info = s.p2Info) ?_ ?_ loop
    · rfl
    · intro u iid v _ same turn
      unfold leaderCheckP1Instance at turn
      dsimp only at turn
      split_ifs at turn <;> cases turn <;> exact same
  unfold leaderOpenInstancesP1 at opened
  dsimp only at opened
  split_ifs at opened
  · cases opened
    exact retried
  · obtain ⟨w, loop, last⟩ := Outcome.bind_eq_running.mp opened
    cases last
    apply Outcome.fold_running (fun u => u.p2Info = s.p2Info) ?_ ?_ loop
    · exact retried
    · intro u iid v _ same turn
      unfold leaderOpenInstanceP1 at turn
      dsimp only at turn
      split_ifs at turn
      cases turn
      exact same

theorem Off.init (clean : SlotsClean s) (left : phase2Count cfg s = 0)
    (done : leaderInit cfg clock timeNow s = .running t) : Off cfg low (startErrors cfg s) t := by
  obtain ⟨u, checked, last⟩ := Outcome.bind_eq_running.mp done
  cases last
  have reset : Off cfg low { startErrors cfg s with opened := s.p2Info.openCount }
      (leaderResetP1 s) := by
    refine ⟨clean, ?_, ?_, ?_, ?_⟩
    · intro slot inside started
      exact absurd started (slotCount_eq_zero.mp left slot inside)
    · change 0 = UInt32.ofNat (statusCount cfg .p1Pending s) + (0 - _)
      grind
    · change 0 = UInt32.ofNat (statusCount cfg .p1Ready s) + (0 - _)
      grind
    · change s.p2Info.openCount = UInt32.ofNat (phase2Count cfg s) + s.p2Info.openCount
      simp [left]
  have kept := reset.periodicP1Check checked
  have unread : u.p2Info = (leaderResetP1 s).p2Info := leaderPeriodicP1Check_p2Info checked
  refine ⟨kept.clean, kept.above, kept.pending, kept.ready, ?_⟩
  have opened := kept.opened
  rw [unread] at opened
  change s.p2Info.openCount = UInt32.ofNat (phase2Count cfg u) + s.p2Info.openCount at opened
  change 0 = UInt32.ofNat (phase2Count cfg u) + 0
  grind

theorem slotsClean_shutdown (clean : SlotsClean s) : SlotsClean (leaderShutdown cfg s) := by
  have dropped (iids : List ℕ) : SlotsClean (run (leaderDropInstance cfg) s iids) := by
    apply run_invariant SlotsClean clean
    intro u iid clean slot
    change SlotClean (setSlot u.proposerState _ _ slot)
    rw [setSlot_apply]
    split_ifs
    · exact slotClean_cleared _
    · exact clean slot
  exact dropped _

end Promotion

theorem toNat_ofNat_slotCount {P : PInstInfo → Prop} [DecidablePred P]
    (small : cfg.proposerArraySize < 2 ^ 32) (slots : ℕ → PInstInfo) :
    (UInt32.ofNat (slotCount cfg.proposerArraySize P slots)).toNat =
      slotCount cfg.proposerArraySize P slots :=
  UInt32.toNat_ofNat_of_lt' ((slotCount_le slots).trans_lt small)

def noErrors : Errors := ⟨0, 0, 0⟩

theorem Off.pending_eq (h : Off cfg low noErrors s) (small : cfg.proposerArraySize < 2 ^ 32) :
    s.p1Info.pendingCount.toNat = statusCount cfg .p1Pending s := by
  rw [h.pending, noErrors, UInt32.add_zero]
  exact toNat_ofNat_slotCount small s.proposerState

theorem Off.ready_eq (h : Off cfg low noErrors s) (small : cfg.proposerArraySize < 2 ^ 32) :
    s.p1Info.readyCount.toNat = statusCount cfg .p1Ready s := by
  rw [h.ready, noErrors, UInt32.add_zero]
  exact toNat_ofNat_slotCount small s.proposerState

theorem Off.opened_eq (h : Off cfg low noErrors s) (small : cfg.proposerArraySize < 2 ^ 32) :
    s.p2Info.openCount.toNat = phase2Count cfg s := by
  rw [h.opened, noErrors, UInt32.add_zero]
  exact toNat_ofNat_slotCount small s.proposerState

theorem Off.exact (h : Off cfg s.currentIid noErrors s) (small : cfg.proposerArraySize < 2 ^ 32) :
    CountersExact cfg s where
  pending := h.pending_eq small
  ready := h.ready_eq small
  opened := by
    rw [h.opened_eq small]
    apply slotCount_congr
    intro slot inside
    exact ⟨fun started => ⟨started, (h.above slot inside started).2⟩, fun ⟨started, _⟩ => started⟩

/-- `pending_count -= 1` for a promise that completes phase 1. -/
def AckFits (cfg : Config) (acceptorId : ℕ) (s : LeaderState) (pa : PrepareAck) : Prop :=
  (handlePrepareAck cfg acceptorId s pa).2 = true → 0 < s.p1Info.pendingCount.toNat

/-- `ready_count -= count` after the loop over expired instances. -/
def ExpiredFits (cfg : Config) (clock : ℕ → Timeval) (s : LeaderState) : Prop :=
  (leaderOpenExpired cfg clock
    (List.range' s.currentIid (s.p2Info.nextUnusedIid - s.currentIid)) 0
    (clearAcceptBuf s)).Ensures (fun r => r.2.toNat ≤ r.1.p1Info.readyCount.toNat) fun _ => True

/-- `ready_count -= count` after the loop over new instances. -/
def NewFits (cfg : Config) (clock : ℕ → Timeval) (s : LeaderState) : Prop :=
  (leaderOpenNew cfg clock (cfg.proposerP2Concurrency + 1 - s.p2Info.openCount.toNat) 0
    (clearAcceptBuf s)).Ensures (fun r => r.2.toNat ≤ r.1.p1Info.readyCount.toNat) fun _ => True

/-- `open_count -= 1` for an instance found closed. -/
def CloseFits (cfg : Config) (isClosed : ℕ → Bool) (s : LeaderState) (iid : ℕ) : Prop :=
  (s.proposerState (cfg.proIndex iid)).status = .p2Pending → isClosed iid = true →
    0 < s.p2Info.openCount.toNat

structure DeliverFits (cfg : Config) (clock : ℕ → Timeval) (s : LeaderState) (value : Value)
    (iid : ℕ) : Prop where
  pending : (s.proposerState (cfg.proIndex iid)).status = .p1Pending →
    0 < s.p1Info.pendingCount.toNat
  opened : openedByMe (s.proposerState (cfg.proIndex iid)) → 0 < s.p2Info.openCount.toNat
  new : NewFits cfg clock (leaderForget cfg s value iid)

variable {n : ℕ} {clock : ℕ → Timeval}

theorem Off.taken_le (h : Off cfg low noErrors s)
    (small : cfg.proposerArraySize < 2 ^ 32) (executed : Executed cfg n s t) :
    (0 + UInt32.ofNat n).toNat ≤ t.p1Info.readyCount.toNat := by
  have ready := h.ready_eq small
  have counted := executed.ready
  have inside : statusCount cfg .p1Ready s ≤ cfg.proposerArraySize := slotCount_le s.proposerState
  rw [UInt32.zero_add, UInt32.toNat_ofNat_of_lt' (lt_of_le_of_lt (by omega) small),
    executed.p1Info]
  omega

theorem Off.expiredFits (h : Off cfg low noErrors s) (small : cfg.proposerArraySize < 2 ^ 32) :
    ExpiredFits cfg clock s := by
  have before := h.same (t := clearAcceptBuf s) rfl rfl rfl
  unfold ExpiredFits
  cases done : leaderOpenExpired cfg clock
    (List.range' s.currentIid (s.p2Info.nextUnusedIid - s.currentIid)) 0 (clearAcceptBuf s) with
  | running r =>
    obtain ⟨n, total, executed, -⟩ := before.openExpired done
    change r.2.toNat ≤ r.1.p1Info.readyCount.toNat
    rw [total]
    exact before.taken_le small executed
  | aborted fault r => trivial

theorem Off.newFits (h : Off cfg low noErrors s) (small : cfg.proposerArraySize < 2 ^ 32) :
    NewFits cfg clock s := by
  have before := (h.weaken (Nat.zero_le low)).same (t := clearAcceptBuf s) rfl rfl rfl
  unfold NewFits
  cases done : leaderOpenNew cfg clock (cfg.proposerP2Concurrency + 1 - s.p2Info.openCount.toNat) 0
    (clearAcceptBuf s) with
  | running r =>
    obtain ⟨n, -, total, executed, -⟩ := before.openNew (fun _ => Nat.zero_le _) done
    change r.2.toNat ≤ r.1.p1Info.readyCount.toNat
    rw [total]
    exact before.taken_le small executed
  | aborted fault r => trivial

theorem Off.ackFits (h : Off cfg low noErrors s) (small : cfg.proposerArraySize < 2 ^ 32)
    (acceptorId : ℕ) (pa : PrepareAck) : AckFits cfg acceptorId s pa := by
  intro completed
  rw [h.pending_eq small]
  rcases handlePrepareAck_cases cfg acceptorId s pa with dropped | ⟨ii, rfl, pending, -⟩
  · rw [dropped] at completed
    cases completed
  · exact slotCount_pos (cfg.proIndex_lt pa.iid) pending

theorem Off.closeFits (h : Off cfg low noErrors s) (small : cfg.proposerArraySize < 2 ^ 32)
    (isClosed : ℕ → Bool) (iid : ℕ) : CloseFits cfg isClosed s iid := by
  intro pending _
  rw [h.opened_eq small]
  apply slotCount_pos (cfg.proIndex_lt iid)
  exact ⟨(h.clean _).pending pending, by simp [pending]⟩

theorem Off.deliverFits (h : Off cfg low noErrors s) (small : cfg.proposerArraySize < 2 ^ 32)
    (value : Value) (iid : ℕ) (unready : (s.proposerState (cfg.proIndex iid)).status ≠ .p1Ready) :
    DeliverFits cfg clock s value iid where
  pending := by
    intro pending
    rw [h.pending_eq small]
    exact slotCount_pos (cfg.proIndex_lt iid) pending
  opened := by
    intro opened
    rw [h.opened_eq small]
    exact slotCount_pos (cfg.proIndex_lt iid) ((h.clean _).openedByMe_iff.mp opened)
  new := by
    have forgot : Off cfg low noErrors (leaderForget cfg s value iid) := by
      simpa [noErrors, bit, unready] using h.forget value iid
    exact forgot.newFits small

end FdsPaxos.Paxos2LeaderCounters
