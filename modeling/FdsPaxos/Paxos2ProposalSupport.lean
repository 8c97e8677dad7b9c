import FdsPaxos.Paxos2BallotUse
import FdsPaxos.Paxos2PhaseOneQuorum

set_option autoImplicit false

namespace FdsPaxos.Paxos2ProposalSupport
open TransitionRuns CircularWindow Paxos2Config Paxos2Messages Paxos2SendBuffer Paxos2Leader
open Paxos2Proposer Paxos2LeaderMoves Paxos2PhaseOneQuorum Paxos2BallotUse

def ReportsValue (cfg : Config) : AckCondition := fun s _ pa =>
  let ii := s.proposerState (cfg.proIndex pa.iid)
  ii.status = .p1Pending → pa.ballot = ii.myBallot → pa.value.length = 0 → pa.valueBallot = 0

instance (cfg : Config) (s : LeaderState) (a : ℕ) (pa : PrepareAck) :
    Decidable (ReportsValue cfg s a pa) :=
  inferInstanceAs (Decidable (_ → _ → _ → _))

def SoundPromise (cfg : Config) : AckCondition := fun s a pa =>
  FreshPromise cfg s a pa ∧ UnusedBallot cfg s a pa ∧ ReportsValue cfg s a pa

instance (cfg : Config) (s : LeaderState) (a : ℕ) (pa : PrepareAck) :
    Decidable (SoundPromise cfg s a pa) :=
  inferInstanceAs (Decidable (_ ∧ _ ∧ _))

def KnownPromise (cfg : Config) (known : ℕ → PrepareAck → Prop) : AckCondition := fun s a pa =>
  SoundPromise cfg s a pa ∧ known a pa

/-- Acceptor `a` is known to have promised `b` for instance `i`, reporting a vote at `k`. -/
def Reports (known : ℕ → PrepareAck → Prop) (i b a k : ℕ) (v : Value) : Prop :=
  ∃ pa, known a pa ∧ pa.iid = i ∧ pa.ballot = b ∧ pa.valueBallot = k ∧ pa.value = v

/-- A quorum has promised `b` for instance `i`, and `v` is the value of the highest vote
that it reports, if it reports any. -/
def Supported (cfg : Config) (known : ℕ → PrepareAck → Prop) (i b : ℕ) (v : Value) : Prop :=
  ∃ W : Finset ℕ, cfg.quorum ≤ W.card ∧ ∃ k,
    (∀ a ∈ W, ∃ k' ≤ k, ∃ v', Reports known i b a k' v') ∧
    (k = 0 ∨ ∃ a ∈ W, Reports known i b a k v)

/-- The promises of `W` are weighed in the slot. -/
structure Weighed (known : ℕ → PrepareAck → Prop) (W : Finset ℕ) (ii : PInstInfo) : Prop where
  counted : ∀ a ∈ W, ∃ k ≤ ii.p1ValueBallot, ∃ v, Reports known ii.iid ii.myBallot a k v
  best : ∀ v, ii.p1Value = some v →
    ∃ a ∈ W, Reports known ii.iid ii.myBallot a ii.p1ValueBallot v

structure SlotSupport (cfg : Config) (known : ℕ → PrepareAck → Prop) (trace : List LeaderEvent)
    (ii : PInstInfo) : Prop where
  blank : ii.p1Value = none → ii.p1ValueBallot = 0
  clean : ii.status = .empty → ii.p1Value = none
  pending : ii.status = .p1Pending → cfg.quorum ≤ ii.promisesCount ∨
    ∃ W ⊆ heard ii.iid ii.myBallot trace, ii.promisesCount ≤ W.card ∧ Weighed known W ii
  ready : ii.status = .p1Ready → ∃ W : Finset ℕ, cfg.quorum ≤ W.card ∧ Weighed known W ii

structure SupportSound (cfg : Config) (known : ℕ → PrepareAck → Prop) (s : LeaderState) :
    Prop where
  phaseOne : PhaseOneSound cfg s
  slots : ∀ slot, SlotSupport cfg known s.trace (s.proposerState slot)
  proposals : ∀ i b v, .proposed i b v ∈ s.trace → Supported cfg known i b v

variable {cfg : Config} {known known' : ℕ → PrepareAck → Prop} {s t : LeaderState}

theorem Reports.mono {i b a k : ℕ} {v : Value} (h : Reports known i b a k v)
    (grown : ∀ a pa, known a pa → known' a pa) : Reports known' i b a k v := by
  obtain ⟨pa, sent, same⟩ := h
  exact ⟨pa, grown a pa sent, same⟩

theorem Weighed.mono {W : Finset ℕ} {ii : PInstInfo} (h : Weighed known W ii)
    (grown : ∀ a pa, known a pa → known' a pa) : Weighed known' W ii where
  counted := by
    intro a ha
    obtain ⟨k, below, v, reports⟩ := h.counted a ha
    exact ⟨k, below, v, reports.mono grown⟩
  best := by
    intro v hv
    obtain ⟨a, ha, reports⟩ := h.best v hv
    exact ⟨a, ha, reports.mono grown⟩

theorem Supported.mono {i b : ℕ} {v : Value} (h : Supported cfg known i b v)
    (grown : ∀ a pa, known a pa → known' a pa) : Supported cfg known' i b v := by
  obtain ⟨W, quorum, k, counted, best⟩ := h
  refine ⟨W, quorum, k, ?_, best.imp_right ?_⟩
  · intro a ha
    obtain ⟨k', below, v', reports⟩ := counted a ha
    exact ⟨k', below, v', reports.mono grown⟩
  · rintro ⟨a, ha, reports⟩
    exact ⟨a, ha, reports.mono grown⟩

theorem SupportSound.mono (h : SupportSound cfg known s)
    (grown : ∀ a pa, known a pa → known' a pa) : SupportSound cfg known' s where
  phaseOne := h.phaseOne
  slots := by
    intro slot
    have old := h.slots slot
    refine { old with pending := fun pending => ?_, ready := fun ready => ?_ }
    · refine (old.pending pending).imp_right ?_
      rintro ⟨W, sub, card, weighed⟩
      exact ⟨W, sub, card, weighed.mono grown⟩
    · obtain ⟨W, card, weighed⟩ := old.ready ready
      exact ⟨W, card, weighed.mono grown⟩
  proposals := fun i b v proposed => (h.proposals i b v proposed).mono grown

theorem SlotSupport.cons {trace : List LeaderEvent} {ii : PInstInfo}
    (h : SlotSupport cfg known trace ii) {e : LeaderEvent}
    (other : ii.status = .p1Pending → ∀ b, e ≠ .chose ii.iid b) :
    SlotSupport cfg known (e :: trace) ii where
  blank := h.blank
  clean := h.clean
  pending := by
    intro pending
    refine (h.pending pending).imp_right ?_
    rintro ⟨W, sub, card, weighed⟩
    exact ⟨W, sub.trans (heard_subset_cons trace (other pending)), card, weighed⟩
  ready := h.ready

theorem slotSupport_blank {trace : List LeaderEvent} {ii : PInstInfo} (none : ii.p1Value = none)
    (zero : ii.p1ValueBallot = 0) (notReady : ii.status ≠ .p1Ready)
    (count : ii.status = .p1Pending → cfg.quorum ≤ ii.promisesCount ∨ ii.promisesCount = 0) :
    SlotSupport cfg known trace ii where
  blank := fun _ => zero
  clean := fun _ => none
  pending := by
    intro pending
    refine (count pending).imp_right fun zero => ⟨∅, Finset.empty_subset _, zero.le, ?_⟩
    exact ⟨fun a ha => absurd ha (Finset.notMem_empty a), fun v hv => by rw [none] at hv; cases hv⟩
  ready := fun ready => absurd ready notReady

theorem SupportSound.replace (h : SupportSound cfg known s) (phaseOne : PhaseOneSound cfg t)
    {slot : ℕ} {ii : PInstInfo} {e : LeaderEvent}
    (slots : t.proposerState = setSlot s.proposerState slot ii) (trace : t.trace = e :: s.trace)
    (other : NotProposed e) (about : ChoosesIn cfg slot e)
    (new : SlotSupport cfg known (e :: s.trace) ii) : SupportSound cfg known t where
  phaseOne := phaseOne
  slots := by
    intro slot'
    rw [slots, trace, setSlot_apply]
    split_ifs with same
    · exact new
    · refine (h.slots slot').cons fun pending b chose => same ?_
      have home := (h.phaseOne.slots slot').home_of pending (by decide)
      exact home.symm.trans (about _ b chose)
  proposals := by
    rw [trace]
    intro i b v hm
    rcases List.mem_cons.mp hm with rfl | hm
    · exact absurd rfl (other i b v)
    · exact h.proposals i b v hm

theorem SupportSound.silent (h : SupportSound cfg known s) (phaseOne : PhaseOneSound cfg t)
    {slot : ℕ} {ii : PInstInfo} (slots : t.proposerState = setSlot s.proposerState slot ii)
    (trace : t.trace = s.trace) (new : SlotSupport cfg known s.trace ii) :
    SupportSound cfg known t where
  phaseOne := phaseOne
  slots := by
    intro slot'
    rw [slots, trace, setSlot_apply]
    split_ifs
    · exact new
    · exact h.slots slot'
  proposals := trace ▸ h.proposals

theorem SupportSound.report (h : SupportSound cfg known s) (phaseOne : PhaseOneSound cfg t)
    {e : LeaderEvent} (slots : t.proposerState = s.proposerState) (trace : t.trace = e :: s.trace)
    (other : NotProposed e) (about : ∀ i b, e ≠ .chose i b) : SupportSound cfg known t where
  phaseOne := phaseOne
  slots := by
    intro slot
    rw [slots, trace]
    exact (h.slots slot).cons fun _ b => about _ b
  proposals := by
    rw [trace]
    intro i b v hm
    rcases List.mem_cons.mp hm with rfl | hm
    · exact absurd rfl (other i b v)
    · exact h.proposals i b v hm

/-- Weighing one more promise, of an acceptor that is not in `W`. -/
theorem Weighed.insert {W : Finset ℕ} {ii : PInstInfo} (h : Weighed known W ii)
    {a : ℕ} {pa : PrepareAck} (sent : known a pa) (iid : pa.iid = ii.iid)
    (ballot : pa.ballot = ii.myBallot) (reports : pa.value.length = 0 → pa.valueBallot = 0) :
    Weighed known (insert a W) (savePromiseValue ii pa) := by
  have own : Reports known ii.iid ii.myBallot a pa.valueBallot pa.value :=
    ⟨pa, sent, iid, ballot, rfl, rfl⟩
  rcases savePromiseValue_cases ii pa with ⟨same, passed⟩ | ⟨taken, higher⟩
  · rw [same]
    refine ⟨?_, ?_⟩
    · intro a' ha'
      rcases Finset.mem_insert.mp ha' with rfl | ha'
      · refine ⟨pa.valueBallot, ?_, pa.value, own⟩
        rcases passed with empty | lower
        · rw [reports empty]
          exact Nat.zero_le _
        · exact lower
      · exact h.counted a' ha'
    · intro v hv
      obtain ⟨a', ha', reports⟩ := h.best v hv
      exact ⟨a', Finset.mem_insert_of_mem ha', reports⟩
  · rw [taken]
    refine ⟨?_, ?_⟩
    · intro a' ha'
      rcases Finset.mem_insert.mp ha' with rfl | ha'
      · exact ⟨pa.valueBallot, le_refl _, pa.value, own⟩
      · obtain ⟨k, below, v, reports⟩ := h.counted a' ha'
        exact ⟨k, below.trans higher.le, v, reports⟩
    · intro v hv
      cases hv
      exact ⟨a, Finset.mem_insert_self a W, own⟩

theorem savePromiseValue_blank {ii : PInstInfo} (pa : PrepareAck)
    (h : ii.p1Value = none → ii.p1ValueBallot = 0) :
    (savePromiseValue ii pa).p1Value = none → (savePromiseValue ii pa).p1ValueBallot = 0 := by
  rcases savePromiseValue_cases ii pa with ⟨same, -⟩ | ⟨taken, -⟩
  · rwa [same]
  · rw [taken]
    exact fun none => nomatch none

theorem proSavePrepareAck_blank {ii : PInstInfo} (pa : PrepareAck) (a : ℕ)
    (h : ii.p1Value = none → ii.p1ValueBallot = 0) :
    (proSavePrepareAck ii pa a).p1Value = none →
      (proSavePrepareAck ii pa a).p1ValueBallot = 0 := by
  rcases proSavePrepareAck_cases ii pa a with same | ⟨bits, saved⟩
  · rwa [same]
  · rw [saved]
    exact savePromiseValue_blank pa h

theorem supportSound_ack (h : SupportSound cfg known s) (a : ℕ) (pa : PrepareAck)
    (met : KnownPromise cfg known s a pa) :
    SupportSound cfg known (handlePrepareAck cfg a s pa).1 := by
  obtain ⟨⟨fresh, -, reports⟩, sent⟩ := met
  have phaseOne := phaseOneSound_ack h.phaseOne a pa fresh
  have logged : SupportSound cfg known (s.log (.received a pa)) :=
    h.report (h.phaseOne.received a pa) rfl rfl (by simp [NotProposed]) (by simp)
  rcases handlePrepareAck_cases cfg a s pa with dropped | ⟨ii, hii, pending, ballot, taken⟩
  · rwa [dropped]
  · have old := h.slots (cfg.proIndex pa.iid)
    unfold FreshPromise at fresh
    unfold ReportsValue at reports
    dsimp only at fresh reports
    rw [← hii] at old fresh reports
    obtain ⟨iid, below, unheard⟩ := fresh pending ballot
    -- the acceptor is new, so a promise more is weighed
    have weighed : ∃ W ⊆ heard ii.iid ii.myBallot (.received a pa :: s.trace),
        (proSavePrepareAck ii pa a).promisesCount ≤ W.card ∧
          Weighed known W (proSavePrepareAck ii pa a) := by
      rcases old.pending pending with full | ⟨W, sub, card, weighed⟩
      · omega
      · rcases proSavePrepareAck_cases ii pa a with same | ⟨bits, saved⟩
        · rw [same]
          exact ⟨W, sub.trans (heard_subset_cons _ (by simp)), card, weighed⟩
        · have new : a ∉ W := fun ha => unheard (sub ha)
          have counted : Weighed known W
              { ii with promisesBitvector := bits, promisesCount := ii.promisesCount + 1 } :=
            ⟨weighed.counted, weighed.best⟩
          refine ⟨insert a W, ?_, ?_, ?_⟩
          · simp only [heard, iid, ballot, and_self, if_true]
            exact Finset.insert_subset_insert a sub
          · rw [saved, savePromiseValue_promisesCount, Finset.card_insert_of_notMem new]
            exact Nat.succ_le_succ card
          · rw [saved]
            exact counted.insert sent iid ballot (reports pending ballot)
    rcases taken with ⟨notFull, done⟩ | ⟨full, done⟩
    · rw [done] at phaseOne ⊢
      refine logged.silent phaseOne rfl rfl ?_
      exact
        { blank := proSavePrepareAck_blank pa a old.blank
          clean := by simp [pending]
          pending := by
            intro _
            rw [proSavePrepareAck_iid, proSavePrepareAck_myBallot]
            exact .inr weighed
          ready := by simp [pending] }
    · rw [done] at phaseOne ⊢
      refine logged.replace phaseOne rfl rfl (by simp [NotProposed]) (by simp [ChoosesIn]) ?_
      obtain ⟨W, -, card, weighed⟩ := weighed
      exact
        { blank := proSavePrepareAck_blank pa a old.blank
          clean := by simp
          pending := by simp
          ready := fun _ => ⟨W, full.trans card, weighed.counted, weighed.best⟩ }

theorem SlotSupport.supported {trace : List LeaderEvent} {ii : PInstInfo}
    (h : SlotSupport cfg known trace ii) (ready : ii.status = .p1Ready) {value : Value}
    (chosen : ii.p1Value = none ∨ ii.p1Value = some value) :
    Supported cfg known ii.iid ii.myBallot value := by
  obtain ⟨W, card, weighed⟩ := h.ready ready
  refine ⟨W, card, ii.p1ValueBallot, weighed.counted, ?_⟩
  rcases chosen with none | some
  · exact .inl (h.blank none)
  · exact .inr (weighed.best value some)

theorem supportSound_move (h : SupportSound cfg known s)
    (move : Move cfg (AckCondition.only (KnownPromise cfg known)) s t) :
    SupportSound cfg known t := by
  have phaseOne : PhaseOneSound cfg t :=
    phaseOneSound_move h.phaseOne
      (move.mono (AckCondition.only (FreshPromise cfg)) (fun _ _ _ met => met.1.1)
        (fun _ h => h) (fun _ h => h) (fun _ _ h => h))
  cases move with
  | quiet quiet =>
    refine ⟨phaseOne, ?_, ?_⟩
    · rw [quiet.slots, quiet.trace]
      exact h.slots
    · rw [quiet.trace]
      exact h.proposals
  | openP1 clock iid _ free =>
    have clean := (h.slots (cfg.proIndex iid)).clean free
    have zero := (h.phaseOne.slots (cfg.proIndex iid)).clean free
    refine h.replace phaseOne rfl rfl (by simp [NotProposed]) ?_ ?_
    · rintro i b ⟨rfl, -⟩
      rfl
    · exact slotSupport_blank clean ((h.slots _).blank clean) (by simp)
        (fun _ => .inr zero)
  | retryP1 clock slot pending =>
    have home := (h.phaseOne.slots slot).home_of pending (by decide)
    refine h.replace phaseOne rfl rfl (by simp [NotProposed]) ?_ ?_
    · rintro i b ⟨rfl, -⟩
      exact home
    · refine slotSupport_blank rfl rfl ?_ (fun _ => .inr rfl)
      change (s.proposerState slot).status ≠ .p1Ready
      rw [pending]
      decide
  | restartP1 clock slot pending =>
    have old := h.phaseOne.slots slot
    have home := old.home_of pending (by decide)
    have full := old.full_of pending (by decide) (by decide)
    refine h.replace phaseOne rfl rfl (by simp [NotProposed]) ?_ ?_
    · rintro i b ⟨rfl, -⟩
      exact home
    · exact
        { blank := (h.slots slot).blank
          clean := by simp [restartPhase1]
          pending := fun _ => .inl full
          ready := by simp [restartPhase1] }
  | complete slot pending =>
    refine h.silent phaseOne rfl rfl ?_
    exact
      { blank := (h.slots slot).blank
        clean := by simp
        pending := by simp
        ready := by simp }
  | executeP2 clock slot value ready chosen =>
    have old := h.slots slot
    have none : (withP2Value (s.proposerState slot) value).p1ValueBallot = 0 := by
      unfold withP2Value
      rcases chosen with none | some
      · simp [none, old.blank none]
      · simp [some]
    refine ⟨phaseOne, ?_, ?_⟩
    · intro slot'
      simp only [leaderSendAccept, LeaderState.log, LeaderState.withSlot, setSlot_apply]
      split_ifs with same
      · exact slotSupport_blank rfl none (by simp) (by simp)
      · exact (h.slots slot').cons (by simp)
    · intro i b v hm
      rcases List.mem_cons.mp hm with same | hm
      · cases same
        exact old.supported ready chosen
      · exact h.proposals i b v hm
  | ack a pa met => exact supportSound_ack h a pa met
  | clear slot _ =>
    exact h.silent phaseOne rfl rfl
      (slotSupport_blank rfl rfl (by simp [proClearInstanceInfo]) (by simp [proClearInstanceInfo]))
  | delivered iid value _ =>
    exact h.report phaseOne rfl rfl (by simp [NotProposed]) (by simp)

theorem supportSound_init (proposerId : ℕ) :
    SupportSound cfg known (initProStructs proposerId) where
  phaseOne := phaseOneSound_init proposerId
  slots := fun _ => slotSupport_blank rfl rfl (fun h => nomatch h) (fun h => nomatch h)
  proposals := fun _ _ _ h => nomatch h

end FdsPaxos.Paxos2ProposalSupport
