import FdsPaxos.Paxos2Learner
import Mathlib.Data.Finset.Card
import Mathlib.Data.Finset.Range

set_option autoImplicit false

namespace FdsPaxos.Paxos2LearnerDelivery
open TransitionRuns CircularWindow Paxos2Config Paxos2Messages Paxos2SendBuffer Paxos2Learner

variable (cfg : Config)

/-- The acceptors whose stored acknowledgement has ballot `b`. -/
def agreeing (acks : ℕ → Option AcceptAck) (b : ℕ) : Finset ℕ :=
  (Finset.range cfg.nOfAcceptors).filter fun a => ∃ aa ∈ acks a, aa.ballot = b

/-- A final acknowledgement is stored, or a quorum of them with one ballot. -/
def AcksClose (acks : ℕ → Option AcceptAck) : Prop :=
  (∃ a, a < cfg.nOfAcceptors ∧ ∃ aa ∈ acks a, aa.isFinal = true) ∨
    ∃ b, cfg.quorum ≤ (agreeing cfg acks b).card

/-- `fa` is one of the acknowledgements by which `acks` close an instance. -/
def Decides (acks : ℕ → Option AcceptAck) (fa : AcceptAck) : Prop :=
  ∃ a, a < cfg.nOfAcceptors ∧ acks a = some fa ∧
    (fa.isFinal = true ∨ cfg.quorum ≤ (agreeing cfg acks fa.ballot).card)

variable {cfg}

theorem Decides.close {acks : ℕ → Option AcceptAck} {fa : AcceptAck}
    (h : Decides cfg acks fa) : AcksClose cfg acks := by
  obtain ⟨a, ha, stored, final | quorum⟩ := h
  · exact .inl ⟨a, ha, fa, stored, final⟩
  · exact .inr ⟨_, quorum⟩

theorem not_acksClose_empty : ¬ AcksClose cfg fun _ => none := by
  rintro (⟨_, _, _, h, _⟩ | ⟨b, h⟩)
  · cases h
  · have := cfg.quorum_pos
    simp [agreeing] at h
    omega

/-- An acknowledgement counted by the scan of `ii`. -/
def Counted (ii : LInstInfo) (i : ℕ) : Prop :=
  ∃ aa ∈ ii.acks i, aa.ballot = ii.lastUpdateBallot

instance (ii : LInstInfo) (i : ℕ) : Decidable (Counted ii i) :=
  inferInstanceAs (Decidable (∃ aa ∈ ii.acks i, aa.ballot = ii.lastUpdateBallot))

def CountedFinal (ii : LInstInfo) (i : ℕ) : Prop :=
  ∃ aa ∈ ii.acks i, aa.ballot = ii.lastUpdateBallot ∧ aa.isFinal = true

theorem leaScanAcks_spec (cfg : Config) (ii : LInstInfo) (is : List ℕ) (av : Option ℕ) (count : ℕ) :
    (∃ i ∈ is, CountedFinal ii i ∧ (leaScanAcks cfg ii is av count).1 = some i ∧
      cfg.nOfAcceptors ≤ (leaScanAcks cfg ii is av count).2) ∨
    ((∀ i ∈ is, ¬ CountedFinal ii i) ∧
      (leaScanAcks cfg ii is av count).2 = count + is.countP (fun i => decide (Counted ii i)) ∧
      ((is.countP (fun i => decide (Counted ii i)) = 0 ∧
          (leaScanAcks cfg ii is av count).1 = av) ∨
        ∃ i ∈ is, Counted ii i ∧ (leaScanAcks cfg ii is av count).1 = some i)) := by
  induction is generalizing av count with
  | nil => exact .inr ⟨(fun _ h => nomatch h), rfl, .inl ⟨rfl, rfl⟩⟩
  | cons i is ih =>
    by_cases counted : Counted ii i
    · obtain ⟨aa, stored, ballot⟩ := id counted
      have stored : ii.acks i = some aa := stored
      by_cases final : aa.isFinal = true
      · refine .inl ⟨i, List.mem_cons_self, ⟨aa, stored, ballot, final⟩, ?_⟩
        simp only [leaScanAcks, stored, ballot, final, if_true]
        exact ⟨trivial, by omega⟩
      · have here : ¬ CountedFinal ii i := by
          rintro ⟨aa', stored', -, final'⟩
          rw [Option.mem_def, stored] at stored'
          exact final (Option.some.inj stored' ▸ final')
        have next : leaScanAcks cfg ii (i :: is) av count =
            leaScanAcks cfg ii is (some i) (count + 1) := by
          simp [leaScanAcks, stored, ballot, final]
        rw [next, List.countP_cons_of_pos (by simpa using counted)]
        rcases ih (some i) (count + 1) with ⟨k, hk, found⟩ | ⟨none, total, last⟩
        · exact .inl ⟨k, List.mem_cons_of_mem _ hk, found⟩
        · refine .inr ⟨List.forall_mem_cons.mpr ⟨here, none⟩, by omega, .inr ?_⟩
          rcases last with ⟨-, last⟩ | ⟨k, hk, last⟩
          · exact ⟨i, List.mem_cons_self, counted, last⟩
          · exact ⟨k, List.mem_cons_of_mem _ hk, last⟩
    · have here : ¬ CountedFinal ii i := fun ⟨aa, stored, ballot, _⟩ => counted ⟨aa, stored, ballot⟩
      have next : leaScanAcks cfg ii (i :: is) av count = leaScanAcks cfg ii is av count := by
        cases stored : ii.acks i with
        | none => simp [leaScanAcks, stored]
        | some aa =>
          have : aa.ballot ≠ ii.lastUpdateBallot := fun ballot => counted ⟨aa, stored, ballot⟩
          simp [leaScanAcks, stored, this]
      rw [next, List.countP_cons_of_neg (by simpa using counted)]
      rcases ih av count with ⟨k, hk, found⟩ | ⟨none, total, last⟩
      · exact .inl ⟨k, List.mem_cons_of_mem _ hk, found⟩
      · refine .inr ⟨List.forall_mem_cons.mpr ⟨here, none⟩, total, ?_⟩
        rcases last with last | ⟨k, hk, last⟩
        · exact .inl last
        · exact .inr ⟨k, List.mem_cons_of_mem _ hk, last⟩

theorem countP_range_eq_card (n : ℕ) (p : ℕ → Prop) [DecidablePred p] :
    (List.range n).countP (fun i => decide (p i)) = ((Finset.range n).filter p).card := by
  induction n with
  | zero => rfl
  | succ n ih =>
    rw [List.range_succ, List.countP_append, ih, Finset.range_add_one, Finset.filter_insert]
    by_cases hn : p n
    · simp [hn]
    · simp [hn]

theorem card_agreeing (ii : LInstInfo) :
    (List.range cfg.nOfAcceptors).countP (fun i => decide (Counted ii i)) =
      (agreeing cfg ii.acks ii.lastUpdateBallot).card :=
  countP_range_eq_card _ _

section Slots

variable (cfg)

/-- What a slot holds while the learner waits for instance `cur`. -/
structure SlotSound (cur slot : ℕ) (ii : LInstInfo) : Prop where
  unused : ii.iid = 0 → ii.acks = fun _ => none
  window : ii.iid ≠ 0 →
    cur ≤ ii.iid ∧ ii.iid < cur + cfg.learnerArraySize ∧ cfg.leaIndex ii.iid = slot
  own : ∀ a aa, ii.acks a = some aa → aa.iid = ii.iid
  undecided : ii.finalValue = none → ¬ AcksClose cfg ii.acks
  decided : ∀ fa, ii.finalValue = some fa → Decides cfg ii.acks fa

/-- The invariant of the learner; between messages the current slot is also open. -/
structure LearnerSound (ls : LearnerState) : Prop where
  current_pos : 0 < ls.currentIid
  slots : ∀ slot, SlotSound cfg ls.currentIid slot (ls.learnerState slot)

def CurrentOpen (ls : LearnerState) : Prop :=
  (ls.learnerState (cfg.leaIndex ls.currentIid)).finalValue = none

variable {cfg}

theorem slotSound_cleared (cur slot : ℕ) : SlotSound cfg cur slot clearedInstanceInfo where
  unused := fun _ => rfl
  window := fun h => absurd rfl h
  own := fun _ _ h => nomatch h
  undecided := fun _ => not_acksClose_empty
  decided := fun _ h => nomatch h

theorem learnerSound_init : LearnerSound cfg learnerInit where
  current_pos := Nat.one_pos
  slots := fun slot => slotSound_cleared 1 slot

theorem SlotSound.not_decided_of_unused {cur slot : ℕ} {ii : LInstInfo}
    (h : SlotSound cfg cur slot ii) (unused : ii.iid = 0) : ii.finalValue = none := by
  cases hf : ii.finalValue with
  | none => rfl
  | some fa =>
    obtain ⟨a, _, stored, _⟩ := h.decided fa hf
    rw [h.unused unused] at stored
    cases stored

theorem LearnerSound.window_slot {ls : LearnerState} (h : LearnerSound cfg ls) {i : ℕ}
    (low : ls.currentIid ≤ i) (high : i < ls.currentIid + cfg.learnerArraySize) :
    (ls.learnerState (cfg.leaIndex i)).iid = 0 ∨ (ls.learnerState (cfg.leaIndex i)).iid = i := by
  by_cases used : (ls.learnerState (cfg.leaIndex i)).iid = 0
  · exact .inl used
  · obtain ⟨low', high', same⟩ := (h.slots _).window used
    exact .inr (cfg.leaIndex_injective low' high' low high same)

end Slots

section Update

variable {cur slot : ℕ} {ii : LInstInfo}

theorem close_after_store (opened : ¬ AcksClose cfg ii.acks) {a : ℕ} {aa : AcceptAck}
    (close : AcksClose cfg (leaStoreAcceptAck ii a aa).acks) :
    (a < cfg.nOfAcceptors ∧ aa.isFinal = true) ∨
      cfg.quorum ≤ (agreeing cfg (leaStoreAcceptAck ii a aa).acks aa.ballot).card := by
  rcases close with ⟨a', ha', aa', stored, final⟩ | ⟨b, quorum⟩
  · by_cases same : a' = a
    · subst same
      have : aa = aa' := by simpa [leaStoreAcceptAck] using stored
      exact .inl ⟨ha', this ▸ final⟩
    · refine absurd (.inl ⟨a', ha', aa', ?_, final⟩) opened
      simpa [leaStoreAcceptAck, setSlot_of_ne _ _ _ _ same] using stored
  · by_cases same : aa.ballot = b
    · exact .inr (same ▸ quorum)
    · -- the other ballots only lose the overwritten acknowledgement
      refine absurd (.inr ⟨b, quorum.trans (Finset.card_le_card ?_)⟩) opened
      intro i hi
      simp only [agreeing, Finset.mem_filter] at hi ⊢
      obtain ⟨range, aa', stored, ballot⟩ := hi
      refine ⟨range, aa', ?_, ballot⟩
      by_cases hia : i = a
      · subst hia
        have : aa = aa' := by simpa [leaStoreAcceptAck] using stored
        exact absurd (this ▸ ballot) same
      · simpa [leaStoreAcceptAck, setSlot_of_ne _ _ _ _ hia] using stored

/-- The quorum check after a store closes the instance exactly when its
acknowledgements do, with one of the agreeing acknowledgements. -/
theorem leaCheckQuorum_spec {ls : LearnerState} {a : ℕ} {aa : AcceptAck}
    (opened : ¬ AcksClose cfg ii.acks)
    (stored : ls.learnerState slot = leaStoreAcceptAck ii a aa) :
    (¬ AcksClose cfg (leaStoreAcceptAck ii a aa).acks ∧ leaCheckQuorum cfg ls slot = (ls, false)) ∨
    (∃ fa highest, Decides cfg (leaStoreAcceptAck ii a aa).acks fa ∧
      leaCheckQuorum cfg ls slot =
        ({ ls with
            learnerState := setSlot ls.learnerState slot
              { leaStoreAcceptAck ii a aa with finalValue := some fa }
            highestIidClosed := highest }, true)) := by
  set new := leaStoreAcceptAck ii a aa with hnew
  have last : new.lastUpdateBallot = aa.ballot := rfl
  unfold leaCheckQuorum
  simp only [stored]
  have quorumPos := cfg.quorum_pos
  have quorumLe := cfg.quorum_le
  rcases leaScanAcks_spec cfg new (List.range cfg.nOfAcceptors) none 0 with
    ⟨i, hi, ⟨fa, here, ballot, final⟩, index, count⟩ | ⟨noFinal, count, index⟩
  · right
    rw [if_pos (by omega), index]
    exact ⟨fa, _, ⟨i, List.mem_range.mp hi, here, .inl final⟩, by
      rw [Option.bind_some, Option.mem_def.mp here]⟩
  · rw [card_agreeing] at count index
    by_cases reached : cfg.quorum ≤ (agreeing cfg new.acks new.lastUpdateBallot).card
    · right
      rw [if_pos (by omega)]
      rcases index with ⟨zero, -⟩ | ⟨i, hi, ⟨fa, here, ballot⟩, index⟩
      · omega
      · rw [index]
        exact ⟨fa, _, ⟨i, List.mem_range.mp hi, here, .inr (ballot ▸ reached)⟩, by
          rw [Option.bind_some, Option.mem_def.mp here]⟩
    · left
      rw [if_neg (by omega)]
      refine ⟨fun close => ?_, rfl⟩
      rcases close_after_store opened close with ⟨ha, final⟩ | quorum
      · refine noFinal a (List.mem_range.mpr ha) ⟨aa, ?_, rfl, final⟩
        simp [hnew, leaStoreAcceptAck]
      · exact reached quorum

end Update

section Handler

variable {ls : LearnerState} {slot : ℕ}

@[simp] theorem leaFirstMessage_acks (ii : LInstInfo) (aa : AcceptAck) :
    (leaFirstMessage ii aa).acks = ii.acks := by
  unfold leaFirstMessage
  split_ifs <;> rfl

@[simp] theorem leaFirstMessage_finalValue (ii : LInstInfo) (aa : AcceptAck) :
    (leaFirstMessage ii aa).finalValue = ii.finalValue := by
  unfold leaFirstMessage
  split_ifs <;> rfl

theorem leaFirstMessage_iid {ii : LInstInfo} {aa : AcceptAck}
    (fits : ii.iid = 0 ∨ ii.iid = aa.iid) : (leaFirstMessage ii aa).iid = aa.iid := by
  unfold leaFirstMessage instInfoEmpty
  rcases fits with unused | same
  · rw [if_pos unused]
  · split_ifs
    · rfl
    · exact same

theorem leaUpdateState_spec {cur : ℕ} {ii : LInstInfo} (sound : SlotSound cfg cur slot ii)
    (a : ℕ) {aa : AcceptAck} (fits : ii.iid = 0 ∨ ii.iid = aa.iid) :
    leaUpdateState ii a aa = .running (leaFirstMessage ii aa, false) ∨
    (¬ AcksClose cfg ii.acks ∧
      leaUpdateState ii a aa =
        .running (leaStoreAcceptAck (leaFirstMessage ii aa) a aa, true)) := by
  unfold leaUpdateState
  simp only [leaFirstMessage_iid fits, if_true]
  by_cases closed : (leaFirstMessage ii aa).IsClosed
  · exact .inl (by simp [closed])
  · have opened : ¬ AcksClose cfg ii.acks := by
      refine sound.undecided ?_
      simpa [LInstInfo.IsClosed] using closed
    rw [if_neg closed]
    cases stored : (leaFirstMessage ii aa).acks a with
    | none => exact .inr ⟨opened, rfl⟩
    | some prevAck =>
      dsimp only
      split_ifs
      · exact .inl rfl
      · exact .inr ⟨opened, rfl⟩

theorem slotSound_first {cur : ℕ} {ii : LInstInfo} (sound : SlotSound cfg cur slot ii)
    {aa : AcceptAck} (low : cur ≤ aa.iid)
    (high : aa.iid < cur + cfg.learnerArraySize) (home : cfg.leaIndex aa.iid = slot) :
    SlotSound cfg cur slot (leaFirstMessage ii aa) := by
  unfold leaFirstMessage instInfoEmpty
  split_ifs with unused
  · have acks := sound.unused unused
    exact
      { unused := fun _ => acks
        window := fun _ => ⟨low, high, home⟩
        own := by
          intro a' aa' h
          have h : ii.acks a' = some aa' := h
          rw [acks] at h
          cases h
        undecided := sound.undecided
        decided := sound.decided }
  · exact sound

theorem slotSound_store {cur : ℕ} {ii : LInstInfo} (sound : SlotSound cfg cur slot ii)
    {a : ℕ} {aa : AcceptAck} (named : ii.iid = aa.iid) (nonzero : aa.iid ≠ 0)
    (value : Option AcceptAck)
    (undecided : value = none → ¬ AcksClose cfg (leaStoreAcceptAck ii a aa).acks)
    (decided : ∀ fa, value = some fa → Decides cfg (leaStoreAcceptAck ii a aa).acks fa) :
    SlotSound cfg cur slot { leaStoreAcceptAck ii a aa with finalValue := value } where
  unused := fun h => absurd (named.symm.trans h) nonzero
  window := fun h => sound.window h
  own := by
    intro a' aa' h
    simp only [leaStoreAcceptAck, setSlot_apply] at h
    split_ifs at h with same
    · rw [← Option.some.inj h]
      exact named.symm
    · exact sound.own a' aa' h
  undecided := undecided
  decided := decided

theorem LearnerSound.setSlot {ls' : LearnerState} (sound : LearnerSound cfg ls) {ii : LInstInfo}
    (new : SlotSound cfg ls.currentIid slot ii) (current : ls'.currentIid = ls.currentIid)
    (slots : ls'.learnerState = setSlot ls.learnerState slot ii) : LearnerSound cfg ls' where
  current_pos := current ▸ sound.current_pos
  slots := by
    intro slot'
    rw [current, slots, setSlot_apply]
    split_ifs with same
    · exact same ▸ new
    · exact sound.slots slot'

theorem LearnerSound.moveToNext (sound : LearnerSound cfg ls) :
    LearnerSound cfg (leaMoveToNext cfg ls) where
  current_pos := Nat.succ_pos _
  slots := by
    intro slot'
    simp only [leaMoveToNext, setSlot_apply]
    split_ifs with same
    · exact slotSound_cleared _ _
    · have old := sound.slots slot'
      refine { old with window := ?_ }
      intro used
      obtain ⟨low, high, home⟩ := old.window used
      refine ⟨?_, by omega, home⟩
      -- only the slot just cleared can hold the instance just delivered
      rcases Nat.lt_or_eq_of_le low with lt | eq
      · exact lt
      · rw [← eq] at home
        exact absurd home.symm same

/-- A delivery is made from a slot of its instance, with the value of one of the
acknowledgements by which the slot is closed. -/
def DeliversAgreed (cfg : Config) (d : Delivery) : Prop :=
  d.source.iid = d.iid ∧ (∀ a aa, d.source.acks a = some aa → aa.iid = d.iid) ∧
    ∃ fa, Decides cfg d.source.acks fa ∧ d.value = fa.value ∧ d.ballot = fa.ballot

def Stores (ls : LearnerState) (acks : ℕ → Option AcceptAck) : Prop :=
  acks = (fun _ => none) ∨ ∃ slot, acks = (ls.learnerState slot).acks

theorem stores_moveToNext {acks : ℕ → Option AcceptAck} (h : Stores (leaMoveToNext cfg ls) acks) :
    Stores ls acks := by
  rcases h with none | ⟨slot, h⟩
  · exact .inl none
  · simp only [leaMoveToNext, setSlot_apply] at h
    split_ifs at h
    · exact .inl h
    · exact .inr ⟨slot, h⟩

/-- What a stretch of deliveries starting in `ls` and ending in `ls'` amounts to. -/
structure DeliversRun (cfg : Config) (ls ls' : LearnerState) (ds : List Delivery) : Prop where
  current : ls'.currentIid = ls.currentIid + ds.length
  consecutive : ds.map Delivery.iid = List.range' ls.currentIid ds.length
  agreed : ∀ d ∈ ds, DeliversAgreed cfg d
  sources : ∀ d ∈ ds, Stores ls d.source.acks
  stored : ∀ acks, Stores ls' acks → Stores ls acks

theorem DeliversRun.nil (cfg : Config) (ls : LearnerState) : DeliversRun cfg ls ls [] where
  current := rfl
  consecutive := rfl
  agreed := fun _ h => nomatch h
  sources := fun _ h => nomatch h
  stored := fun _ h => h

theorem DeliversRun.cons {ls' : LearnerState} {ds : List Delivery} {d : Delivery}
    (tail : DeliversRun cfg (leaMoveToNext cfg ls) ls' ds) (iid : d.iid = ls.currentIid)
    (agreed : DeliversAgreed cfg d) (source : ∃ slot, d.source = ls.learnerState slot) :
    DeliversRun cfg ls ls' (d :: ds) where
  current := by
    rw [tail.current, List.length_cons]
    simp only [leaMoveToNext]
    omega
  consecutive := by
    rw [List.map_cons, tail.consecutive, iid, List.length_cons, List.range'_succ]
    rfl
  agreed := List.forall_mem_cons.mpr ⟨agreed, tail.agreed⟩
  sources := by
    obtain ⟨slot, source⟩ := source
    refine List.forall_mem_cons.mpr ⟨.inr ⟨slot, by rw [source]⟩, ?_⟩
    exact fun d hd => stores_moveToNext (tail.sources d hd)
  stored := fun acks h => stores_moveToNext (tail.stored acks h)

/-- The delivery loop: it delivers the closed run from the current instance on, and
comes to rest in an open slot.  Each turn uses up one instance below `bound`. -/
theorem leaDeliverNextClosed_spec (fuel bound : ℕ) (ls : LearnerState)
    (sound : LearnerSound cfg ls) (bounded : ∀ slot, (ls.learnerState slot).iid < bound)
    (reach : ls.currentIid ≤ bound) (enough : bound < ls.currentIid + fuel) :
    ∃ ls' ds, leaDeliverNextClosed cfg fuel ls = .running (ls', ds) ∧
      LearnerSound cfg ls' ∧ CurrentOpen cfg ls' ∧ DeliversRun cfg ls ls' ds := by
  induction fuel generalizing ls with
  | zero => omega
  | succ fuel ih =>
    have slot := sound.slots (cfg.leaIndex ls.currentIid)
    unfold leaDeliverNextClosed
    cases value : (ls.learnerState (cfg.leaIndex ls.currentIid)).finalValue with
    | none => exact ⟨ls, [], by simp only [value], sound, value, .nil cfg ls⟩
    | some fa =>
      have decides := slot.decided fa value
      -- a closed slot of the window holds the current instance
      have holds : (ls.learnerState (cfg.leaIndex ls.currentIid)).iid = ls.currentIid := by
        have size := cfg.learnerArray_pos
        rcases sound.window_slot (le_refl _) (by omega) with unused | same
        · rw [slot.not_decided_of_unused unused] at value
          cases value
        · exact same
      have below := bounded (cfg.leaIndex ls.currentIid)
      obtain ⟨ls', ds, loop, sound', opened, tail⟩ :=
        ih (leaMoveToNext cfg ls) sound.moveToNext
          (by
            intro slot'
            simp only [leaMoveToNext, setSlot_apply]
            split_ifs
            · exact Nat.lt_of_le_of_lt (Nat.zero_le _) below
            · exact bounded slot')
          (by simp only [leaMoveToNext]; omega) (by simp only [leaMoveToNext]; omega)
      have agreed : DeliversAgreed cfg
          (deliveryOf cfg ls (ls.learnerState (cfg.leaIndex ls.currentIid)) fa) :=
        ⟨holds, fun a aa h => (slot.own a aa h).trans holds, fa, decides, rfl, rfl⟩
      refine ⟨ls', _, ?_, sound', opened, tail.cons rfl agreed ⟨_, rfl⟩⟩
      simp only [value, holds, if_true, loop, Outcome.map_running]

/-- The learner would store the acknowledgement: it is in the window, and its slot
is open and has nothing newer from that acceptor. -/
def leaRelevant (cfg : Config) (ls : LearnerState) (a : ℕ) (aa : AcceptAck) : Bool :=
  decide (ls.currentIid ≤ aa.iid) && decide (aa.iid < ls.currentIid + cfg.learnerArraySize) &&
    match leaUpdateState (ls.learnerState (cfg.leaIndex aa.iid)) a aa with
    | .running r => r.2
    | .aborted _ _ => false

/-- What a slot may store after an acknowledgement: what one stored before, or that with
the acknowledgement added, where it is relevant. -/
def StoresAfter (cfg : Config) (ls : LearnerState) (a : ℕ) (aa : AcceptAck)
    (acks : ℕ → Option AcceptAck) : Prop :=
  Stores ls acks ∨
    (leaRelevant cfg ls a aa = true ∧
      acks = setSlot (ls.learnerState (cfg.leaIndex aa.iid)).acks a (some aa))

structure AckHandled (cfg : Config) (ls : LearnerState) (a : ℕ) (aa : AcceptAck)
    (ls' : LearnerState) (ds : List Delivery) : Prop where
  sound : LearnerSound cfg ls'
  opened : CurrentOpen cfg ls'
  current : ls'.currentIid = ls.currentIid + ds.length
  consecutive : ds.map Delivery.iid = List.range' ls.currentIid ds.length
  agreed : ∀ d ∈ ds, DeliversAgreed cfg d
  sources : ∀ d ∈ ds, StoresAfter cfg ls a aa d.source.acks
  stored : ∀ acks, Stores ls' acks → StoresAfter cfg ls a aa acks

theorem AckHandled.of_run {a : ℕ} {aa : AcceptAck} {mid ls' : LearnerState} {ds : List Delivery}
    (sound : LearnerSound cfg ls') (opened : CurrentOpen cfg ls')
    (same : mid.currentIid = ls.currentIid)
    (stored : ∀ acks, Stores mid acks → StoresAfter cfg ls a aa acks)
    (delivers : DeliversRun cfg mid ls' ds) : AckHandled cfg ls a aa ls' ds where
  sound := sound
  opened := opened
  current := same ▸ delivers.current
  consecutive := same ▸ delivers.consecutive
  agreed := delivers.agreed
  sources := fun d hd => stored _ (delivers.sources d hd)
  stored := fun acks h => stored acks (delivers.stored acks h)

theorem AckHandled.of_quiet {a : ℕ} {aa : AcceptAck} {mid : LearnerState}
    (sound : LearnerSound cfg mid) (opened : CurrentOpen cfg mid)
    (same : mid.currentIid = ls.currentIid)
    (stored : ∀ acks, Stores mid acks → StoresAfter cfg ls a aa acks) :
    AckHandled cfg ls a aa mid [] :=
  .of_run sound opened same stored (.nil cfg mid)

theorem stores_setSlot {ls' : LearnerState} {ii : LInstInfo} {acks : ℕ → Option AcceptAck}
    (slots : ls'.learnerState = CircularWindow.setSlot ls.learnerState slot ii)
    (h : Stores ls' acks) : acks = ii.acks ∨ Stores ls acks := by
  rcases h with none | ⟨slot', h⟩
  · exact .inr (.inl none)
  · rw [slots, setSlot_apply] at h
    split_ifs at h
    · exact .inl h
    · exact .inr (.inr ⟨slot', h⟩)

theorem CurrentOpen.rewrite {ls' : LearnerState} {slot : ℕ} {ii : LInstInfo}
    (opened : CurrentOpen cfg ls) (current : ls'.currentIid = ls.currentIid)
    (slots : ls'.learnerState = setSlot ls.learnerState slot ii)
    (left : cfg.leaIndex ls.currentIid = slot → ii.finalValue = none) : CurrentOpen cfg ls' := by
  unfold CurrentOpen
  rw [current, slots, setSlot_apply]
  split_ifs with same
  · exact left same
  · exact opened

/-- The store adds the message and nothing else, whatever becomes of `finalValue`. -/
theorem storesAfter_store {a : ℕ} {aa : AcceptAck} (taken : leaRelevant cfg ls a aa = true)
    {ls' : LearnerState} {value : Option AcceptAck}
    (slots : ls'.learnerState = setSlot ls.learnerState (cfg.leaIndex aa.iid)
      { leaStoreAcceptAck (leaFirstMessage (ls.learnerState (cfg.leaIndex aa.iid)) aa) a aa with
        finalValue := value }) (acks : ℕ → Option AcceptAck) (stores : Stores ls' acks) :
    StoresAfter cfg ls a aa acks := by
  rcases stores_setSlot slots stores with new | older
  · refine .inr ⟨taken, ?_⟩
    rw [new, ← leaFirstMessage_acks (ls.learnerState (cfg.leaIndex aa.iid)) aa]
    rfl
  · exact .inl older

theorem AckHandled.close {a : ℕ} {aa : AcceptAck} {done : LearnerState} {ii : LInstInfo}
    (sound : LearnerSound cfg done) (opened : CurrentOpen cfg ls)
    (low : ls.currentIid ≤ aa.iid) (high : aa.iid < ls.currentIid + cfg.learnerArraySize)
    (same : done.currentIid = ls.currentIid)
    (slots : done.learnerState = setSlot ls.learnerState (cfg.leaIndex aa.iid) ii)
    (stored : ∀ acks, Stores done acks → StoresAfter cfg ls a aa acks) :
    ∃ ls' ds, (if aa.iid = done.currentIid then leaDeliverNextClosed cfg (deliverFuel cfg) done
      else .running (done, [])) = .running (ls', ds) ∧ AckHandled cfg ls a aa ls' ds := by
  have size := cfg.learnerArray_pos
  rw [same]
  split_ifs with here
  · obtain ⟨ls', ds, loop, sound', opened', delivers⟩ :=
      leaDeliverNextClosed_spec (deliverFuel cfg) (done.currentIid + cfg.learnerArraySize) done
        sound (by
          intro slot'
          by_cases used : (done.learnerState slot').iid = 0
          · omega
          · exact ((sound.slots slot').window used).2.1)
        (Nat.le_add_right _ _) (Nat.lt_succ_self _)
    exact ⟨ls', ds, loop, .of_run sound' opened' same stored delivers⟩
  · have still := opened.rewrite same slots fun current => ?_
    · exact ⟨done, [], rfl, .of_quiet sound still same stored⟩
    have collide := cfg.leaIndex_injective low high (le_refl _) (by omega) current.symm
    exact absurd collide here

theorem AckHandled.ignored (sound : LearnerSound cfg ls) (opened : CurrentOpen cfg ls) (a : ℕ)
    {aa : AcceptAck} (low : ls.currentIid ≤ aa.iid)
    (high : aa.iid < ls.currentIid + cfg.learnerArraySize) :
    AckHandled cfg ls a aa ((leaSeen ls aa).withSlot (cfg.leaIndex aa.iid)
      (leaFirstMessage (ls.learnerState (cfg.leaIndex aa.iid)) aa)) [] := by
  have seen : LearnerSound cfg (leaSeen ls aa) := ⟨sound.current_pos, sound.slots⟩
  have first := slotSound_first (sound.slots (cfg.leaIndex aa.iid)) low high rfl
  refine .of_quiet (seen.setSlot first rfl rfl) ?_ rfl ?_
  · refine opened.rewrite rfl rfl fun same => ?_
    rw [leaFirstMessage_finalValue, ← same]
    exact opened
  · intro acks h
    rcases stores_setSlot rfl h with new | older
    · exact .inl (.inr ⟨_, by rw [new, leaFirstMessage_acks]⟩)
    · exact .inl older

theorem AckHandled.store (sound : LearnerSound cfg ls) (opened : CurrentOpen cfg ls) {a : ℕ}
    {aa : AcceptAck} (low : ls.currentIid ≤ aa.iid)
    (high : aa.iid < ls.currentIid + cfg.learnerArraySize)
    (undecided : ¬ AcksClose cfg (ls.learnerState (cfg.leaIndex aa.iid)).acks)
    (taken : leaRelevant cfg ls a aa = true) {mid : LearnerState}
    (stored : mid = (leaSeen ls aa).withSlot (cfg.leaIndex aa.iid)
      (leaStoreAcceptAck (leaFirstMessage (ls.learnerState (cfg.leaIndex aa.iid)) aa) a aa)) :
    ∃ ls' ds, (match leaCheckQuorum cfg mid (cfg.leaIndex aa.iid) with
      | (ls, false) => .running (ls, [])
      | (ls, true) =>
        if aa.iid = ls.currentIid then leaDeliverNextClosed cfg (deliverFuel cfg) ls
        else .running (ls, [])) = Outcome.running (ls', ds) ∧ AckHandled cfg ls a aa ls' ds := by
  set slot := cfg.leaIndex aa.iid with hslot
  have seen : LearnerSound cfg (leaSeen ls aa) := ⟨sound.current_pos, sound.slots⟩
  have nonzero : aa.iid ≠ 0 := by
    have := sound.current_pos
    omega
  have first := slotSound_first (sound.slots slot) low high hslot.symm
  set first' := leaFirstMessage (ls.learnerState slot) aa with hfirst
  have midSlots : mid.learnerState = setSlot ls.learnerState slot
      (leaStoreAcceptAck first' a aa) := by
    rw [stored]
    rfl
  have named : first'.iid = aa.iid := leaFirstMessage_iid (sound.window_slot low high)
  have undecided : ¬ AcksClose cfg first'.acks := by
    rwa [hfirst, leaFirstMessage_acks]
  have unset : first'.finalValue = none := by
    cases value : first'.finalValue with
    | none => rfl
    | some fa => exact absurd (first.decided fa value).close undecided
  have here : mid.learnerState slot = leaStoreAcceptAck first' a aa := by
    rw [midSlots, setSlot_self]
  have current : mid.currentIid = ls.currentIid := by
    rw [stored]
    rfl
  rcases leaCheckQuorum_spec undecided here with
    ⟨notClosed, check⟩ | ⟨fa, highest, decides, check⟩
  · rw [check]
    have new : SlotSound cfg ls.currentIid slot
        { leaStoreAcceptAck first' a aa with finalValue := none } :=
      slotSound_store first named nonzero none (fun _ => notClosed) (fun _ h => nomatch h)
    have same : ({ leaStoreAcceptAck first' a aa with finalValue := none } : LInstInfo) =
        leaStoreAcceptAck first' a aa := by
      rw [← unset]
      rfl
    have slots : mid.learnerState = setSlot ls.learnerState slot
        { leaStoreAcceptAck first' a aa with finalValue := none } := by
      rw [same, midSlots]
    exact ⟨mid, [], rfl, .of_quiet (seen.setSlot new current slots)
      (opened.rewrite current slots fun _ => rfl) current (storesAfter_store taken slots)⟩
  · rw [check]
    have new : SlotSound cfg ls.currentIid slot
        { leaStoreAcceptAck first' a aa with finalValue := some fa } := by
      refine slotSound_store first named nonzero _ (fun h => nomatch h) ?_
      intro fa' h
      rwa [← Option.some.inj h]
    set done : LearnerState :=
      { mid with
        learnerState := setSlot mid.learnerState slot
          { leaStoreAcceptAck first' a aa with finalValue := some fa }
        highestIidClosed := highest } with hdone
    have doneSlots : done.learnerState = setSlot ls.learnerState slot
        { leaStoreAcceptAck first' a aa with finalValue := some fa } := by
      rw [hdone, midSlots, setSlot_setSlot]
    have doneSound : LearnerSound cfg done := seen.setSlot new current doneSlots
    exact AckHandled.close doneSound opened low high current doneSlots
      (storesAfter_store taken doneSlots)

/-- One accept acknowledgement: no assertion fails, the loop ends, and the deliveries
it causes are consecutive and agreed. -/
theorem handleAcceptAck_spec (sound : LearnerSound cfg ls) (opened : CurrentOpen cfg ls)
    (a : ℕ) (aa : AcceptAck) :
    ∃ ls' ds, handleAcceptAck cfg ls a aa = .running (ls', ds) ∧
      AckHandled cfg ls a aa ls' ds := by
  have seen : LearnerSound cfg (leaSeen ls aa) := ⟨sound.current_pos, sound.slots⟩
  have outside : AckHandled cfg ls a aa (leaSeen ls aa) [] :=
    .of_quiet seen opened rfl fun _ h => .inl h
  unfold handleAcceptAck
  have current : (leaSeen ls aa).currentIid = ls.currentIid := rfl
  have slots : (leaSeen ls aa).learnerState = ls.learnerState := rfl
  simp only [current, slots]
  by_cases low : aa.iid < ls.currentIid
  · exact ⟨_, _, by rw [if_pos low], outside⟩
  by_cases high : ls.currentIid + cfg.learnerArraySize ≤ aa.iid
  · exact ⟨_, _, by rw [if_neg low, if_pos high], outside⟩
  rw [if_neg low, if_neg high]
  have low := Nat.not_lt.mp low
  have high := Nat.not_le.mp high
  rcases leaUpdateState_spec (sound.slots (cfg.leaIndex aa.iid)) a (sound.window_slot low high) with
    irrelevant | ⟨undecided, relevant⟩
  · rw [irrelevant]
    exact ⟨_, _, rfl, .ignored sound opened a low high⟩
  · have taken : leaRelevant cfg ls a aa = true := by
      simp [leaRelevant, low, high, relevant]
    rw [relevant]
    exact AckHandled.store sound opened low high undecided taken rfl

end Handler

/-- A learner that waited for instance `start` and has delivered `ds` since; `P` is
known of the acknowledgements of every slot. -/
structure LearnerGood (cfg : Config) (P : (ℕ → Option AcceptAck) → Prop) (start : ℕ)
    (ls : LearnerState) (ds : List Delivery) : Prop where
  sound : LearnerSound cfg ls
  opened : CurrentOpen cfg ls
  current : ls.currentIid = start + ds.length
  consecutive : ds.map Delivery.iid = List.range' start ds.length
  agreed : ∀ d ∈ ds, DeliversAgreed cfg d
  sources : ∀ d ∈ ds, P d.source.acks
  stored : ∀ acks, Stores ls acks → P acks

theorem learnerGood_init (cfg : Config) {P : (ℕ → Option AcceptAck) → Prop}
    (empty : P fun _ => none) : LearnerGood cfg P 1 learnerInit [] where
  sound := learnerSound_init
  opened := rfl
  current := rfl
  consecutive := rfl
  agreed := fun _ h => nomatch h
  sources := fun _ h => nomatch h
  stored := by
    rintro acks (rfl | ⟨slot, rfl⟩)
    · exact empty
    · exact empty

/-- The acknowledgements of a slot keep `P` when the learner adds this one. -/
def Takes (cfg : Config) (P : (ℕ → Option AcceptAck) → Prop) (lr : LearnerRun)
    (msg : ℕ × AcceptAck) : Prop :=
  match lr with
  | .running r =>
    leaRelevant cfg r.1 msg.1 msg.2 = true →
      P (r.1.learnerState (cfg.leaIndex msg.2.iid)).acks →
        P (setSlot (r.1.learnerState (cfg.leaIndex msg.2.iid)).acks msg.1 (some msg.2))
  | .aborted _ _ => True

variable {P : (ℕ → Option AcceptAck) → Prop} {start : ℕ} {ls : LearnerState} {ds : List Delivery}

theorem LearnerGood.step (h : LearnerGood cfg P start ls ds) (msg : ℕ × AcceptAck)
    (takes : Takes cfg P (.running (ls, ds)) msg) :
    ∃ ls' ds', learnerStep cfg (.running (ls, ds)) msg = .running (ls', ds') ∧
      LearnerGood cfg P start ls' ds' := by
  obtain ⟨ls', more, handled, ack⟩ := handleAcceptAck_spec h.sound h.opened msg.1 msg.2
  have good : ∀ acks, StoresAfter cfg ls msg.1 msg.2 acks → P acks := by
    rintro acks (older | ⟨relevant, rfl⟩)
    · exact h.stored acks older
    · exact takes relevant (h.stored _ (.inr ⟨_, rfl⟩))
  refine ⟨ls', ds ++ more, by simp [learnerStep, handled], ?_⟩
  exact
    { sound := ack.sound
      opened := ack.opened
      current := by
        rw [ack.current, h.current, List.length_append]
        omega
      consecutive := by
        rw [List.map_append, h.consecutive, ack.consecutive, h.current, List.length_append,
          ← List.range'_append_1]
      agreed := fun d hd => (List.mem_append.mp hd).elim (h.agreed d) (ack.agreed d)
      sources := fun d hd =>
        (List.mem_append.mp hd).elim (h.sources d) fun hd => good _ (ack.sources d hd)
      stored := fun acks hs => good acks (ack.stored acks hs) }

theorem LearnerGood.run (h : LearnerGood cfg P start ls ds) (msgs : List (ℕ × AcceptAck))
    (takes : Along (learnerStep cfg) (Takes cfg P) (.running (ls, ds)) msgs) :
    ∃ ls' ds', run (learnerStep cfg) (.running (ls, ds)) msgs = .running (ls', ds') ∧
      LearnerGood cfg P start ls' ds' := by
  induction msgs generalizing ls ds with
  | nil => exact ⟨ls, ds, rfl, h⟩
  | cons msg msgs ih =>
    obtain ⟨head, tail⟩ := takes
    obtain ⟨ls₁, ds₁, stepped, good⟩ := h.step msg head
    rw [run_cons, stepped]
    exact ih good (stepped ▸ tail)

theorem along_takes (lr : LearnerRun) (msgs : List (ℕ × AcceptAck))
    (good : ∀ m ∈ msgs, ∀ acks, P acks → P (setSlot acks m.1 (some m.2))) :
    Along (learnerStep cfg) (Takes cfg P) lr msgs := by
  induction msgs generalizing lr with
  | nil => trivial
  | cons msg msgs ih =>
    obtain ⟨head, tail⟩ := List.forall_mem_cons.mp good
    refine ⟨?_, ih _ tail⟩
    cases lr with
    | running r => exact fun _ => head _
    | aborted fault r => trivial

theorem leaHoleCheck_frame (cfg : Config) (ls : LearnerState) :
    (leaHoleCheck cfg ls).currentIid = ls.currentIid ∧
      (leaHoleCheck cfg ls).learnerState = ls.learnerState := by
  have repeated (ls : LearnerState) (iids : List ℕ) :
      (run (leaRequestRepeat cfg) ls iids).currentIid = ls.currentIid ∧
        (run (leaRequestRepeat cfg) ls iids).learnerState = ls.learnerState := by
    refine run_invariant (fun l : LearnerState =>
      l.currentIid = ls.currentIid ∧ l.learnerState = ls.learnerState) ⟨rfl, rfl⟩ ?_
    intro l i same
    unfold leaRequestRepeat
    split_ifs <;> exact same
  have asked (first last : ℕ) :
      (leaSendRepeatRequest cfg ls first last).currentIid = ls.currentIid ∧
        (leaSendRepeatRequest cfg ls first last).learnerState = ls.learnerState :=
    repeated { ls with toAcceptors := sendbufClear ls.toAcceptors } _
  unfold leaHoleCheck
  split_ifs
  · exact asked _ _
  · exact asked _ _
  · exact ⟨rfl, rfl⟩

theorem LearnerGood.holeCheck (h : LearnerGood cfg P start ls ds) :
    LearnerGood cfg P start (leaHoleCheck cfg ls) ds := by
  obtain ⟨current, slots⟩ := leaHoleCheck_frame cfg ls
  have stored : ∀ acks, Stores (leaHoleCheck cfg ls) acks → P acks := by
    intro acks hs
    unfold Stores at hs
    rw [slots] at hs
    exact h.stored acks hs
  refine ⟨⟨?_, ?_⟩, ?_, ?_, h.consecutive, h.agreed, h.sources, stored⟩
  · rw [current]
    exact h.sound.current_pos
  · intro slot
    rw [current, slots]
    exact h.sound.slots slot
  · unfold CurrentOpen
    rw [current, slots]
    exact h.opened
  · rw [current]
    exact h.current

theorem learnerGood_of_sound (sound : LearnerSound cfg ls) (opened : CurrentOpen cfg ls)
    (stored : ∀ acks, Stores ls acks → P acks) : LearnerGood cfg P ls.currentIid ls [] where
  sound := sound
  opened := opened
  current := rfl
  consecutive := rfl
  agreed := fun _ h => nomatch h
  sources := fun _ h => nomatch h
  stored := stored

theorem LearnerGood.rebase (h : LearnerGood cfg P start ls ds) :
    LearnerGood cfg P ls.currentIid ls [] :=
  learnerGood_of_sound h.sound h.opened h.stored

theorem LearnerGood.mono (h : LearnerGood cfg P start ls ds) {Q : (ℕ → Option AcceptAck) → Prop}
    (imp : ∀ acks, P acks → Q acks) : LearnerGood cfg Q start ls ds where
  sound := h.sound
  opened := h.opened
  current := h.current
  consecutive := h.consecutive
  agreed := h.agreed
  sources := fun d hd => imp _ (h.sources d hd)
  stored := fun acks hs => imp _ (h.stored acks hs)

theorem LearnerGood.batch (h : LearnerGood cfg P start ls ds) (acceptorId : ℕ)
    (acks : List AcceptAck)
    (takes : Along (learnerStep cfg) (Takes cfg P) (.running (ls, []))
      (acks.map fun aa => (acceptorId, aa))) :
    ∃ ls' ds, handleAcceptAckBatch cfg ls acceptorId acks = .running (ls', ds) ∧
      LearnerGood cfg P ls.currentIid ls' ds :=
  h.rebase.run _ takes

end FdsPaxos.Paxos2LearnerDelivery
